/-
One listener per OneBot backend: when every connect finds the listeners of earlier sessions gone, at
most one listener of the backend is still going to issue a `/message/listen` request.
-/
import NapCat.Protocol.OneBotHttp

namespace NapCat.OneBotHttp

open Threads

/-- Whether a listener issues another request if the flags stay as they are. -/
def Listener.going (g : Shared) : Listener → Bool
  | .requesting => true
  | .checkingStop => !g.stopRequested
  | .closing | .clearing | .ended => false
  | _ => g.connected && !g.stopRequested

def Listener.alive : Listener → Bool
  | .ended => false
  | _ => true

/-- A listener that has read `connected` as true and has not issued its request yet. -/
def Listener.committed : Listener → Bool
  | .checkingStop | .requesting => true
  | _ => false

/-- A listen between its swap of `listening` and its spawn. -/
def Pc.isSpawning : Pc → Bool
  | .spawning => true
  | _ => false

/-- A disconnect between its first store and its last one. -/
def Pc.isDisconnecting : Pc → Bool
  | .storingStop | .storingIdle => true
  | _ => false

/-- How many listeners are about to be spawned or have not ended. -/
def listenerCount (s : Sys) : Nat := s.calls.countP Pc.isSpawning + s.shared.listeners.countP Listener.alive

/-- No disconnect is between its stores, and there is at most one listener, which `listening` tells of. -/
structure Quiet (s : Sys) : Prop where
  stores : ∀ p ∈ s.calls, p.isDisconnecting = false
  one : listenerCount s ≤ 1
  flagged : 0 < listenerCount s → s.shared.listening = true

/-- A connect stores `connected` only in a quiet state. -/
def Orderly (s : Sys) : Event → Prop
  | .act i _ =>
    match s.calls[i]? with
    | some .storingConnected => Quiet s
    | _ => True
  | _ => True

instance (s : Sys) : Decidable (Quiet s) :=
  decidable_of_iff ((∀ p ∈ s.calls, p.isDisconnecting = false) ∧ listenerCount s ≤ 1 ∧
    (0 < listenerCount s → s.shared.listening = true)) ⟨fun ⟨a, b, c⟩ => ⟨a, b, c⟩, fun ⟨a, b, c⟩ => ⟨a, b, c⟩⟩

instance (s : Sys) (e : Event) : Decidable (Orderly s e) := by
  unfold Orderly
  split
  · split <;> infer_instance
  · infer_instance

/-- While connected there is at most one listener and `listening` tells of it; a disconnect under way
has cleared `connected`, and after one the only listener that may still issue a request is the one
that has checked. -/
structure Inv (s : Sys) : Prop where
  one : s.shared.connected = true → listenerCount s ≤ 1
  flagged : s.shared.connected = true → 0 < listenerCount s → s.shared.listening = true
  stores : ∀ p ∈ s.calls, p.isDisconnecting = true → s.shared.connected = false
  committed : s.shared.listeners.countP Listener.committed ≤ 1

theorem alive_of_committed {l : Listener} (h : l.committed = true) : l.alive = true := by
  cases l <;> first | rfl | cases h

theorem committed_of_going {g : Shared} {l : Listener} (hc : g.connected = false) (h : l.going g = true) :
    l.committed = true := by
  cases l <;> first | rfl | simp [Listener.going, hc] at h

theorem alive_of_going {g : Shared} {l : Listener} (h : l.going g = true) : l.alive = true := by
  cases l <;> first | rfl | cases h

/-- The invariant leaves at most one listener going. -/
theorem Inv.going {s : Sys} (h : Inv s) : s.shared.listeners.countP (Listener.going s.shared) ≤ 1 := by
  cases hc : s.shared.connected with
  | false => exact le_trans (List.countP_mono_left fun _ _ => committed_of_going hc) h.committed
  | true =>
    have hle : s.shared.listeners.countP (Listener.going s.shared) ≤ s.shared.listeners.countP Listener.alive :=
      List.countP_mono_left fun _ _ => alive_of_going
    have := h.one hc
    unfold listenerCount at this
    omega

/-! ## Calls -/

/-- The count after a call has moved on. -/
theorem listenerCount_set {s : Sys} {i : Nat} {p : Pc} (g : Shared) (q : Pc) (hi : s.calls[i]? = some p)
    (hg : g.listeners = s.shared.listeners) :
    listenerCount ⟨g, s.calls.set i q⟩ + (if p.isSpawning then 1 else 0) =
      listenerCount s + if q.isSpawning then 1 else 0 := by
  have := countP_set Pc.isSpawning q hi
  unfold listenerCount
  dsimp only
  rw [hg]
  omega

/-- A step of a call that changes neither the flags `connected` and `listening` nor the listeners, and
is no swap. -/
theorem Inv.set_same {s : Sys} {i : Nat} {p q : Pc} {g : Shared} (h : Inv s) (hi : s.calls[i]? = some p)
    (hc : g.connected = s.shared.connected) (hl : g.listening = s.shared.listening)
    (hg : g.listeners = s.shared.listeners) (hp : p.isSpawning = false) (hq : q.isSpawning = false)
    (hd : q.isDisconnecting = true → p.isDisconnecting = true) : Inv ⟨g, s.calls.set i q⟩ := by
  have hn : listenerCount ⟨g, s.calls.set i q⟩ = listenerCount s := by
    simpa [hp, hq] using listenerCount_set g q hi hg
  constructor
  · rw [hn, hc]; exact h.one
  · rw [hn, hc, hl]; exact h.flagged
  · rw [hc]
    exact forall_set h.stores fun hd' => h.stores p (mem_of_get hi) (hd hd')
  · rw [hg]; exact h.committed

/-- `connected` is stored in a quiet state. -/
theorem Inv.storeConnected {s : Sys} {i : Nat} (h : Inv s) (hq : Quiet s) (hi : s.calls[i]? = some .storingConnected) :
    Inv ⟨{ s.shared with connected := true }, s.calls.set i .storingRunning⟩ := by
  have hn : listenerCount ⟨{ s.shared with connected := true }, s.calls.set i .storingRunning⟩ = listenerCount s := by
    simpa [Pc.isSpawning] using listenerCount_set { s.shared with connected := true } .storingRunning hi rfl
  constructor
  · intro _
    rw [hn]
    exact hq.one
  · intro _
    rw [hn]
    exact hq.flagged
  · intro p hp hd
    have := forall_set (Q := fun p => p.isDisconnecting = false) hq.stores rfl p hp
    rw [this] at hd
    cases hd
  · exact h.committed

/-- A swap begins a listener only when there was none. -/
theorem Inv.swap {s : Sys} {i : Nat} (h : Inv s) (hi : s.calls[i]? = some .swapping) :
    Inv ⟨{ s.shared with listening := true },
      s.calls.set i (if s.shared.listening then fail "listen already started" else .spawning)⟩ := by
  cases hl : s.shared.listening with
  | true =>
    rw [if_pos rfl]
    exact h.set_same hi rfl hl.symm rfl rfl rfl fun hd => by cases hd
  | false =>
    rw [if_neg Bool.false_ne_true]
    have hn := listenerCount_set { s.shared with listening := true } .spawning hi rfl
    change _ + 0 = _ + 1 at hn
    constructor
    · intro hc
      -- the flag was clear, so there was no listener
      have hnone : ¬ 0 < listenerCount s := by
        intro hpos
        have := h.flagged hc hpos
        rw [hl] at this
        cases this
      omega
    · intro _ _
      rfl
    · apply forall_set h.stores
      intro hd
      cases hd
    · exact h.committed

/-- The spawned listener takes the place of the listen that began it. -/
theorem Inv.spawn {s : Sys} {i : Nat} {g : Shared} (h : Inv s) (hi : s.calls[i]? = some .spawning)
    (hc : g.connected = s.shared.connected) (hl : g.listening = s.shared.listening)
    (hg : g.listeners = s.shared.listeners ++ [.greeting]) : Inv ⟨g, s.calls.set i (.done (.ok ()))⟩ := by
  have hn : listenerCount ⟨g, s.calls.set i (.done (.ok ()))⟩ = listenerCount s := by
    have hcalls := countP_set Pc.isSpawning (.done (.ok ())) hi
    have halive := countP_append_one s.shared.listeners Listener.alive .greeting
    change _ + 1 = _ + 0 at hcalls
    change _ = _ + 1 at halive
    unfold listenerCount
    dsimp only
    rw [hg]
    omega
  constructor
  · rw [hn, hc]; exact h.one
  · rw [hn, hc, hl]; exact h.flagged
  · rw [hc]
    exact forall_set h.stores fun hd => by cases hd
  · rw [hg, countP_append_one]
    exact h.committed

theorem Inv.act {s : Sys} {i : Nat} {a : Act} {p q : Pc} {g : Shared} (h : Inv s) (hc : Orderly s (.act i a))
    (hi : s.calls[i]? = some p) (hs : act s.shared p a = some (g, q)) : Inv ⟨g, s.calls.set i q⟩ := by
  unfold OneBotHttp.act at hs
  split at hs
  · -- the answer to the status request
    split at hs <;> cases hs <;> exact h.set_same hi rfl rfl rfl rfl rfl fun hd => (by cases hd)
  · cases hs
    simp only [Orderly, hi] at hc
    exact h.storeConnected hc hi
  · cases hs
    exact h.set_same hi rfl rfl rfl rfl rfl fun hd => by cases hd
  · cases hs
    exact h.set_same hi rfl rfl rfl rfl rfl fun _ => rfl
  · -- the last store of a disconnect, whose first one has cleared `connected`
    cases hs
    have hd := h.stores _ (mem_of_get hi) rfl
    have hne : s.shared.connected ≠ true := by rw [hd]; exact Bool.false_ne_true
    exact ⟨fun hc => absurd hc hne, fun hc => absurd hc hne, forall_set h.stores fun _ => hd, h.committed⟩
  · cases hs; exact h.swap hi
  · cases hs; exact h.spawn hi rfl rfl rfl
  · cases hs

theorem beginConnect_idle (config : OneBotBackendConfig) (endpoint : String) :
    (beginConnect config endpoint).isSpawning = false ∧ (beginConnect config endpoint).isDisconnecting = false := by
  unfold beginConnect
  dsimp only
  split
  · exact ⟨rfl, rfl⟩
  · split
    · exact ⟨rfl, rfl⟩
    · split <;> exact ⟨rfl, rfl⟩

/-- A call whose first step changes nothing shared. -/
theorem Inv.append_same {s : Sys} {p : Pc} (h : Inv s) (hp : p.isSpawning = false ∧ p.isDisconnecting = false) :
    Inv ⟨s.shared, s.calls ++ [p]⟩ := by
  have hn : listenerCount ⟨s.shared, s.calls ++ [p]⟩ = listenerCount s := by
    unfold listenerCount
    dsimp only
    rw [countP_append_one, hp.1, if_neg Bool.false_ne_true, Nat.add_zero]
  refine ⟨?_, ?_, forall_append h.stores fun hd => ?_, h.committed⟩
  · rw [hn]; exact h.one
  · rw [hn]; exact h.flagged
  · rw [hp.2] at hd; cases hd

theorem Inv.begin {s : Sys} {config : OneBotBackendConfig} {op : Op} {g : Shared} {p : Pc} (h : Inv s)
    (hs : begin config s.shared op = some (g, p)) : Inv ⟨g, s.calls ++ [p]⟩ := by
  unfold OneBotHttp.begin at hs
  split at hs
  · rename_i endpoint
    rw [Option.some.injEq, Prod.mk.injEq] at hs
    obtain ⟨rfl, rfl⟩ := hs
    exact h.append_same (beginConnect_idle config endpoint)
  · rw [Option.some.injEq, Prod.mk.injEq] at hs
    obtain ⟨rfl, rfl⟩ := hs
    exact ⟨fun hc => (by cases hc), fun hc => (by cases hc), fun _ _ _ => rfl, h.committed⟩
  · rw [Option.some.injEq, Prod.mk.injEq] at hs
    obtain ⟨rfl, rfl⟩ := hs
    refine h.append_same ?_
    split <;> exact ⟨rfl, rfl⟩

/-! ## Listeners -/

/-- The listeners after one of them has taken a step that leaves the flags alone: it stays alive, and
it has checked now only if `connected` was true or it had checked before. -/
theorem Inv.listener_same {s : Sys} {t : Nat} {p q : Listener} {g : Shared} (h : Inv s)
    (hi : s.shared.listeners[t]? = some p) (hc : g.connected = s.shared.connected)
    (hl : g.listening = s.shared.listening) (hp : p.alive = true) (hq : q.alive = true)
    (hm : q.committed = true → p.committed = true ∨ s.shared.connected = true) :
    Inv ⟨{ g with listeners := s.shared.listeners.set t q }, s.calls⟩ := by
  have hset := countP_set Listener.alive q hi
  have hcom := countP_set Listener.committed q hi
  rw [hp, hq] at hset
  have hn : listenerCount ⟨{ g with listeners := s.shared.listeners.set t q }, s.calls⟩ = listenerCount s := by
    unfold listenerCount
    dsimp only
    omega
  constructor
  · rw [hn]; dsimp only; rw [hc]; exact h.one
  · rw [hn]; dsimp only; rw [hc, hl]; exact h.flagged
  · dsimp only; rw [hc]; exact h.stores
  · have := h.committed
    dsimp only
    cases hqc : q.committed with
    | false => rw [hqc, if_neg Bool.false_ne_true] at hcom; omega
    | true =>
      rw [hqc, if_pos rfl] at hcom
      rcases hm hqc with hpc | hconn
      · rw [hpc, if_pos rfl] at hcom; omega
      · -- connected, so this is the only listener
        have hone := h.one hconn
        have hle : (s.shared.listeners.set t q).countP Listener.committed ≤
            (s.shared.listeners.set t q).countP Listener.alive := List.countP_mono_left fun _ _ => alive_of_committed
        unfold listenerCount at hone
        omega

/-- The last step of a listener clears `listening`, and the listener is gone. -/
theorem Inv.listener_end {s : Sys} {t : Nat} (h : Inv s) (hi : s.shared.listeners[t]? = some .clearing) :
    Inv ⟨{ s.shared with listening := false, listeners := s.shared.listeners.set t .ended }, s.calls⟩ := by
  have hset := countP_set Listener.alive .ended hi
  have hcom := countP_set Listener.committed .ended hi
  simp only [Listener.alive, Listener.committed, if_true, Bool.false_eq_true, if_false, Nat.add_zero] at hset hcom
  have hn : listenerCount ⟨{ s.shared with listening := false, listeners := s.shared.listeners.set t .ended }, s.calls⟩
      + 1 = listenerCount s := by
    unfold listenerCount
    dsimp only
    omega
  constructor
  · intro hc
    have := h.one hc
    omega
  · intro hc hpos
    -- it was the only one, so there is none to find the flag clear
    have := h.one hc
    omega
  · exact h.stores
  · have := h.committed
    dsimp only
    omega

theorem Inv.env {s : Sys} {config : OneBotBackendConfig} {g : Shared} {e : Env} (h : Inv s)
    (he : env config s.shared e = some g) : Inv ⟨g, s.calls⟩ := by
  obtain ⟨t, a⟩ := e
  obtain ⟨p, g', q, hi, hs, rfl⟩ := env_listener he
  unfold Listener.step at hs
  split at hs
  · cases hs; exact h.listener_same hi rfl rfl rfl rfl fun hm => by cases hm
  · cases hs
    refine h.listener_same hi rfl rfl rfl ?_ fun hm => .inr ?_
    · split <;> rfl
    · split at hm
      · assumption
      · cases hm
  · cases hs
    exact h.listener_same hi rfl rfl rfl (by split <;> rfl) fun _ => .inl rfl
  · cases hs; exact h.listener_same hi rfl rfl rfl rfl fun _ => .inl rfl
  · cases hs
    refine h.listener_same hi rfl rfl rfl ?_ fun hm => ?_
    · unfold afterSleep; split <;> rfl
    · unfold afterSleep at hm; split at hm <;> cases hm
  · cases hs; exact h.listener_same hi rfl rfl rfl rfl fun hm => by cases hm
  · cases hs; exact h.listener_same hi rfl rfl rfl rfl fun hm => by cases hm
  · cases hs; exact h.listener_end hi
  · cases hs

/-! ## Runs -/

theorem step_inv (config : OneBotBackendConfig) (s : Sys) (e : Event) (s' : Sys) (h : Inv s) (hc : Orderly s e)
    (hs : step config s e = some s') : Inv s' := by
  cases e with
  | start op =>
    obtain ⟨g, p, hr, rfl⟩ := step_start hs
    exact h.begin hr
  | act i a =>
    obtain ⟨p, g, q, hi, hr, rfl⟩ := step_act hs
    exact h.act hc hi hr
  | env e =>
    obtain ⟨g, hr, rfl⟩ := step_env hs
    exact h.env hr

theorem Inv.init : Inv init where
  one h := by cases h
  flagged h := by cases h
  stores p hp := by cases hp
  committed := Nat.zero_le 1

/-- In every orderly run at most one listener is going to issue another request. -/
theorem one_listener {config : OneBotBackendConfig} {es : List Event} {s : Sys}
    (hc : Run.Along (step config) Orderly init es) (hs : Run.exec (step config) init es = some s) :
    s.shared.listeners.countP (Listener.going s.shared) ≤ 1 :=
  (Run.exec_inv (step_inv config) es _ _ Inv.init hc hs).going

/-- A configured backend. -/
def localBackend : OneBotBackendConfig := { baseUrl := "http://a" }

/-- A connect to the configured URL whose status request is answered. -/
def connects (i : Nat) : List Event :=
  [.start (.connect ""), .act i (.respond (.body .null)), .act i .go, .act i .go]

def listens (i : Nat) : List Event := [.start .listen, .act i .go, .act i .go]

def disconnects (i : Nat) : List Event := [.start .disconnect, .act i .go, .act i .go]

/-- Listener `t` greets and issues its first request. -/
def issues (t : Nat) : List Event := List.replicate 4 (.env (.listener t .go))

/-- A reconnect after the listener of the first session has seen its end. -/
def reconnect : List Event :=
  connects 0 ++ listens 1 ++ issues 0 ++ disconnects 2 ++
    [.env (.listener 0 (.respond (.failed "closed") true))] ++ issues 0 ++ connects 3 ++ listens 4 ++ issues 1

theorem one_listener_reconnect : ∃ s, Run.exec (step localBackend) init reconnect = some s ∧
    s.shared.listeners.countP (Listener.going s.shared) ≤ 1 := by
  have h : (Run.exec (step localBackend) init reconnect).isSome := by decide +kernel
  obtain ⟨s, hs⟩ := Option.isSome_iff_exists.1 h
  exact ⟨s, hs, one_listener (by decide +kernel) hs⟩

/-- A reconnect while the request of the first listener is pending. -/
def reconnectWhilePolling : List Event :=
  connects 0 ++ listens 1 ++ issues 0 ++ disconnects 2 ++ connects 3 ++ listens 4

/-- The reconnect resets the flags before the first listener has seen them cleared. -/
theorem two_listeners : ∃ s, Run.exec (step localBackend) init reconnectWhilePolling = some s ∧
    s.shared.listeners.countP (Listener.going s.shared) = 2 := by
  have hk : (Run.exec (step localBackend) init reconnectWhilePolling).map
      (fun s => s.shared.listeners.countP (Listener.going s.shared)) = some 2 := by decide +kernel
  exact Option.map_eq_some_iff.1 hk

end NapCat.OneBotHttp
