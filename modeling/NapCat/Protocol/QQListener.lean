/-
One listener per QQ client backend: when no listener leaves its loop while a listen call is in
progress, at most one listener is in its loop, and `listening` is set while one is and no connect or
disconnect is in progress.
-/
import NapCat.Protocol.QQBackend
import NapCat.Lib.Run
import NapCat.Lib.Threads

namespace NapCat.QQBackend

open Turns
open Threads (AtMostOne)

/-- Whether a listener has not left its loop. -/
def Listener.inLoop (l : Listener) : Bool :=
  match l.pos with
  | .aborted | .ended => false
  | _ => true

/-- What a call in progress does to the listeners: a connect or disconnect before the lock will abort
the one in the slot, one with the lock has done so, and a listen will spawn one. -/
inductive Role
  | closer
  | closed
  | listen
  deriving DecidableEq

def Pc.role : Pc → Role
  | .connect _ | .disconnect => .closer
  | .listen | .readPoll => .listen
  | _ => .closed

/-- A listener leaves its loop only when no listen call is in progress. -/
def Orderly (s : Sys) : Event → Prop
  | .env (.listener t a) =>
    (s.shared.listeners[t]?.any fun l => l.leaves s.shared a) = true → ∀ p ∈ s.queue, p.role ≠ .listen
  | _ => True

instance (s : Sys) (e : Event) : Decidable (Orderly s e) := by
  unfold Orderly
  split <;> infer_instance

/-- At most one listener is in its loop, and no other listen gets past it. -/
structure Single (s : Sys) : Prop where
  one : AtMostOne (fun l : Listener => l.inLoop = true) s.shared.listeners
  flagged : (∃ l ∈ s.shared.listeners, l.inLoop = true) → (∀ p ∈ s.queue, p.role = .listen) → s.shared.listening = true

/-! ## Who owns the flag -/

/-- The queue read from its front, `owned` when the flag is owned by a listener or a listen call so
far: a closer ends that, a listen call begins it where it has ended, and who owns the flag at the
back of the queue finds it set. -/
def Owns (listening : Bool) : Bool → List Pc → Prop
  | owned, [] => owned = true → listening = true
  | owned, p :: rest =>
    match p.role with
    | .closer => Owns listening false rest
    | .closed => Owns listening owned rest
    | .listen => owned = false ∧ Owns listening true rest

theorem owns_closer {b owned : Bool} {p : Pc} {rest : List Pc} (h : p.role = .closer) :
    Owns b owned (p :: rest) ↔ Owns b false rest := by
  rw [Owns, h]

theorem owns_closed {b owned : Bool} {p : Pc} {rest : List Pc} (h : p.role = .closed) :
    Owns b owned (p :: rest) ↔ Owns b owned rest := by
  rw [Owns, h]

theorem owns_listen {b owned : Bool} {p : Pc} {rest : List Pc} (h : p.role = .listen) :
    Owns b owned (p :: rest) ↔ owned = false ∧ Owns b true rest := by
  rw [Owns, h]

/-- A closer joins the queue: whatever the flag is then, nobody owns it. -/
theorem Owns.append_closer {b b' : Bool} {p : Pc} (hp : p.role = .closer) :
    ∀ {owned : Bool} {q : List Pc}, Owns b owned q → Owns b' owned (q ++ [p])
  | owned, [], _ => by
    rw [List.nil_append, owns_closer hp]
    intro h; cases h
  | owned, r :: rest, h => by
    rw [List.cons_append]
    cases hr : r.role with
    | closer => rw [owns_closer hr] at h ⊢; exact h.append_closer hp
    | closed => rw [owns_closed hr] at h ⊢; exact h.append_closer hp
    | listen => rw [owns_listen hr] at h ⊢; exact ⟨h.1, h.2.append_closer hp⟩

/-- A listen that finds the flag clear joins the queue and owns it. -/
theorem Owns.append_listen {p : Pc} (hp : p.role = .listen) :
    ∀ {owned : Bool} {q : List Pc}, Owns false owned q → Owns true owned (q ++ [p])
  | owned, [], h => by
    rw [List.nil_append, owns_listen hp]
    refine ⟨?_, fun _ => rfl⟩
    cases owned with
    | false => rfl
    | true => cases h rfl
  | owned, r :: rest, h => by
    rw [List.cons_append]
    cases hr : r.role with
    | closer => rw [owns_closer hr] at h ⊢; exact h.append_listen hp
    | closed => rw [owns_closed hr] at h ⊢; exact h.append_listen hp
    | listen => rw [owns_listen hr] at h ⊢; exact ⟨h.1, h.2.append_listen hp⟩

/-- Without a listen call and a listener nobody owns the flag. -/
theorem owns_of_noListen {b : Bool} : ∀ {q : List Pc}, (∀ p ∈ q, p.role ≠ .listen) → Owns b false q
  | [], _ => fun h => by cases h
  | r :: rest, h => by
    have ih : Owns b false rest := owns_of_noListen fun p hp => h p (List.mem_cons_of_mem r hp)
    cases hr : r.role with
    | closer => rw [owns_closer hr]; exact ih
    | closed => rw [owns_closed hr]; exact ih
    | listen => exact absurd hr (h r List.mem_cons_self)

/-- A listener with no connect or disconnect behind it owns the flag. -/
theorem Owns.flag {b : Bool} : ∀ {q : List Pc}, Owns b true q → (∀ p ∈ q, p.role = .listen) → b = true
  | [], h, _ => h rfl
  | r :: rest, h, hq => by
    rw [owns_listen (hq r List.mem_cons_self)] at h
    cases h.1

/-! ## The invariant -/

/-- The slot holds the listener that is in its loop, and the flag has its owner. -/
structure Inv (s : Sys) : Prop where
  slot : ∀ t l, s.shared.listeners[t]? = some l → l.inLoop = true → s.shared.listenTask = some t
  owns : Owns s.shared.listening (s.shared.listeners.any Listener.inLoop) s.queue

theorem Inv.single {s : Sys} (h : Inv s) : Single s where
  one i j p q hi hj hp hq := Option.some.inj ((h.slot i p hi hp).symm.trans (h.slot j q hj hq))
  flagged hl hq := by
    have ho := h.owns
    rw [List.any_eq_true.2 hl] at ho
    exact ho.flag hq

theorem any_false {l : List Listener} (h : ∀ (t : Nat) (x : Listener), l[t]? = some x → x.inLoop = false) :
    l.any Listener.inLoop = false := by
  rw [List.any_eq_false]
  intro x hx
  obtain ⟨t, ht⟩ := List.mem_iff_getElem?.1 hx
  rw [h t x ht]
  exact Bool.false_ne_true

/-- A step that leaves the listeners, the slot and the flag alone, with the queue keeping its owners. -/
theorem Inv.keep {s : Sys} {g : Shared} {queue : List Pc} {returned : List Reply} (h : Inv s)
    (hls : g.listeners = s.shared.listeners) (ht : g.listenTask = s.shared.listenTask)
    (hl : g.listening = s.shared.listening)
    (hq : Owns s.shared.listening (s.shared.listeners.any Listener.inLoop) queue) : Inv ⟨g, queue, returned⟩ := by
  constructor
  · dsimp only
    rw [hls, ht]
    exact h.slot
  · dsimp only
    rw [hls, hl]
    exact hq

/-! ## The first step of a call -/

theorem Inv.start {s : Sys} {op : Op} {g : Shared} {p : Pc} (h : Inv s) (hs : start s.shared op = (g, .call p)) :
    Inv ⟨g, s.queue ++ [p], s.returned⟩ := by
  unfold QQBackend.start at hs
  split at hs
  · cases hs
    exact ⟨h.slot, h.owns.append_closer rfl⟩
  · cases hs
    exact ⟨h.slot, h.owns.append_closer rfl⟩
  · split at hs
    · cases hs
    · split at hs
      · cases hs
      · rename_i hl
        cases hs
        have ho := h.owns
        rw [Bool.not_eq_true] at hl
        rw [hl] at ho
        exact ⟨h.slot, ho.append_listen rfl⟩

/-- A listen that returns at once changes nothing. -/
theorem start_ret {g g' : Shared} {op : Op} {r : Reply} (hs : start g op = (g', .ret r)) : g' = g := by
  unfold QQBackend.start at hs
  split at hs
  · cases hs
  · cases hs
  · split at hs
    · cases hs; rfl
    · split at hs
      · cases hs; rfl
      · cases hs

/-! ## Later steps of a call -/

/-- An abort of the listener in the slot leaves none in its loop. -/
theorem Inv.abort {s : Sys} (h : Inv s) :
    ∀ (t : Nat) (l : Listener), s.shared.abortListener.listeners[t]? = some l → l.inLoop = false := by
  intro t l hl
  cases hin : l.inLoop with
  | false => rfl
  | true =>
    unfold Shared.abortListener at hl
    split at hl
    · rename_i hslot
      have := h.slot t l hl hin
      rw [hslot] at this
      cases this
    · rename_i t' hslot
      dsimp only at hl
      rw [List.getElem?_modify] at hl
      obtain ⟨old, hold, rfl⟩ := Option.map_eq_some_iff.1 hl
      split at hin
      · cases hpos : old.pos <;> simp [Listener.inLoop, ListenerAt.abort, hpos] at hin
      · rename_i hne
        have := h.slot t old hold hin
        rw [hslot] at this
        exact absurd (Option.some.inj this) hne

/-- A closer takes the lock and aborts the listener it was waiting to abort. -/
theorem Inv.take {s : Sys} {p q : Pc} {rest : List Pc} (h : Inv s) (hq : s.queue = p :: rest)
    (hp : p.role = .closer) (hr : q.role = .closed) : Inv ⟨s.shared.abortListener, q :: rest, s.returned⟩ := by
  have hnone := h.abort
  constructor
  · intro t l hl hin
    rw [hnone t l hl] at hin
    cases hin
  · have ho := h.owns
    rw [hq, owns_closer hp] at ho
    have hl : s.shared.abortListener.listening = s.shared.listening := by
      unfold Shared.abortListener; split <;> rfl
    dsimp only
    rw [any_false hnone, hl, owns_closed hr]
    exact ho

/-- A listen spawns its listener, which owns the flag in its place. -/
theorem Inv.spawn {s : Sys} {rest : List Pc} {returned : List Reply} (h : Inv s) (hq : s.queue = .readPoll :: rest) :
    Inv ⟨{ s.shared with listeners := s.shared.listeners ++ [{ pollMs := s.shared.config.listenPollMs }],
                         listenTask := some s.shared.listeners.length }, rest, returned⟩ := by
  have ho := h.owns
  rw [hq, owns_listen rfl] at ho
  constructor
  · intro t l hl hin
    rcases Threads.get_append hl with ⟨rfl, -⟩ | hl
    · rfl
    · -- no listener is in its loop before the spawn
      have := List.any_eq_false.1 ho.1 l (Threads.mem_of_get hl)
      exact absurd hin this
  · dsimp only
    rw [List.any_append]
    simpa [Listener.inLoop] using ho.2

theorem Inv.act {s : Sys} {a : Act} {p : Pc} {rest : List Pc} {r : Shared × Next} (h : Inv s)
    (hq : s.queue = p :: rest) (hs : act s.shared p a = some r) : Inv (Sys.after rest s.returned r) := by
  -- the steps with the lock that keep what the call is
  have hkeep : ∀ {g : Shared} {q : Pc}, p.role = q.role → g.listeners = s.shared.listeners →
      g.listenTask = s.shared.listenTask → g.listening = s.shared.listening → Inv ⟨g, q :: rest, s.returned⟩ := by
    intro g q hr hls ht hl
    refine h.keep hls ht hl ?_
    have ho := h.owns
    rw [hq, Owns, hr] at ho
    exact ho
  have hret : ∀ {g : Shared} {x : Reply}, p.role = .closed → g.listeners = s.shared.listeners →
      g.listenTask = s.shared.listenTask → g.listening = s.shared.listening → Inv ⟨g, rest, s.returned ++ [x]⟩ := by
    intro g x hr hls ht hl
    refine h.keep hls ht hl ?_
    have ho := h.owns
    rw [hq, owns_closed hr] at ho
    exact ho
  unfold QQBackend.act at hs
  split at hs
  · cases hs; exact h.take hq rfl rfl
  · cases hs; exact hkeep rfl rfl rfl rfl
  · split at hs <;> cases hs
    · exact hkeep rfl rfl rfl rfl
    · exact hret rfl rfl rfl rfl
  · cases hs; exact hkeep rfl rfl rfl rfl
  · cases hs
    split
    · exact hret rfl rfl rfl rfl
    · exact hkeep rfl rfl rfl rfl
  · split at hs <;> cases hs
    · exact hkeep rfl rfl rfl rfl
    · exact hret rfl rfl rfl rfl
  · cases hs; exact hret rfl rfl rfl rfl
  · cases hs; exact hret rfl rfl rfl rfl
  · cases hs; exact hret rfl rfl rfl rfl
  · cases hs; exact h.take hq rfl rfl
  · cases hs; exact hret rfl rfl rfl rfl
  · cases hs; exact hkeep rfl rfl rfl rfl
  · cases hs; exact h.spawn hq
  · cases hs

/-! ## Listeners -/

/-- Only a listener in its loop takes steps. -/
theorem inLoop_of_iteration {l : Listener} {a : ListenerAct} {r : List ProtocolEvent × Iteration}
    (h : l.iteration a = some r) : l.inLoop = true := by
  unfold Listener.iteration at h
  unfold Listener.inLoop
  cases a <;> cases hp : l.pos <;> rw [hp] at h <;> first | rfl | cases h

theorem next_inLoop {g : Shared} {l : Listener} {i : Iteration} {pos : ListenerAt} (h : l.next g i = some pos) :
    ({ l with pos } : Listener).inLoop = true := by
  unfold Listener.next at h
  split at h
  · cases h
  · split at h
    · cases h; rfl
    · cases h
  · split at h
    · cases h; rfl
    · split at h
      · cases h; rfl
      · cases h

/-- The others are not in their loops. -/
theorem Inv.others {s : Sys} {t : Nat} {l : Listener} (h : Inv s) (hl : s.shared.listeners[t]? = some l)
    (hin : l.inLoop = true) {u : Nat} {x : Listener} (hx : s.shared.listeners[u]? = some x) (hne : u ≠ t) :
    x.inLoop = false := by
  cases hxin : x.inLoop with
  | false => rfl
  | true => exact absurd (Option.some.inj ((h.slot u x hx hxin).symm.trans (h.slot t l hl hin))) hne

theorem Inv.env {s : Sys} {e : Env} {g : Shared} (h : Inv s) (hc : Orderly s (.env e)) (he : env s.shared e = some g) :
    Inv { s with shared := g } := by
  obtain ⟨t, a⟩ := e
  obtain ⟨l, g', l', hl, hs, rfl⟩ := env_listener he
  obtain ⟨⟨events, i⟩, hi, hs⟩ := Option.map_eq_some_iff.1 hs
  have hin := inLoop_of_iteration hi
  cases hn : l.next s.shared i with
  | some pos =>
    simp only [hn, Prod.mk.injEq] at hs
    obtain ⟨rfl, rfl⟩ := hs
    have hin' := next_inLoop hn
    constructor
    · intro u x hx hxin
      rcases Threads.get_set hx with ⟨rfl, -⟩ | ⟨hne, hx⟩
      · exact h.slot u l hl hin
      · exact h.slot u x hx hxin
    · have ho := h.owns
      rw [List.any_eq_true.2 ⟨l, Threads.mem_of_get hl, hin⟩] at ho
      show Owns s.shared.listening ((s.shared.listeners.set t { l with pos }).any Listener.inLoop) s.queue
      rw [List.any_eq_true.2 ⟨_, Threads.mem_set_self hl, hin'⟩]
      exact ho
  | none =>
    simp only [hn, Prod.mk.injEq] at hs
    obtain ⟨rfl, rfl⟩ := hs
    have hleaves : l.leaves s.shared a = true := by simp [Listener.leaves, hi, hn]
    have hq : ∀ p ∈ s.queue, p.role ≠ .listen := hc (by rw [hl]; exact hleaves)
    have hnone : ∀ (u : Nat) (x : Listener), (s.shared.listeners.set t { l with pos := .ended })[u]? = some x →
        x.inLoop = false := by
      intro u x hx
      rcases Threads.get_set hx with ⟨-, rfl⟩ | ⟨hne, hx⟩
      · rfl
      · exact h.others hl hin hx hne
    constructor
    · intro u x hx hxin
      rw [hnone u x hx] at hxin
      cases hxin
    · show Owns false ((s.shared.listeners.set t { l with pos := .ended }).any Listener.inLoop) s.queue
      rw [any_false hnone]
      exact owns_of_noListen hq

/-! ## Runs -/

theorem step_inv (s : Sys) (e : Event) (s' : Sys) (h : Inv s) (hc : Orderly s e) (hs : step s e = some s') :
    Inv s' := by
  cases e with
  | start op =>
    rcases step_start hs with ⟨g, p, hr, rfl⟩ | ⟨g, r, hr, rfl⟩
    · exact h.start hr
    · cases start_ret hr
      exact ⟨h.slot, h.owns⟩
  | act a =>
    obtain ⟨p, rest, r, hq, hr, rfl⟩ := step_act hs
    exact h.act hq hr
  | env e =>
    obtain ⟨g, hr, rfl⟩ := step_env hs
    exact h.env hc hr

theorem Inv.init (config : QQClientBackendConfig) : Inv (init config) where
  slot t l hl := by cases hl
  owns h := by cases h

/-- In every orderly run at most one listener is in its loop, and it finds `listening` set while no
connect or disconnect is in progress. -/
theorem single_listener {config : QQClientBackendConfig} {es : List Event} {s : Sys}
    (hc : Run.Along step Orderly (init config) es) (hs : Run.exec step (init config) es = some s) : Single s :=
  (Run.exec_inv step_inv es _ _ (Inv.init config) hc hs).single

/-- A backend for the in-memory client. -/
def mockBackend : QQClientBackendConfig := { endpoint := "mock://localhost" }

/-- The first call in progress is a connect, and its client call succeeds. -/
def connects : List Event := List.replicate 5 (.act .go) ++ [.act (.client (.ok ()))]

/-- The first call in progress is a listen. -/
def listens : List Event := [.act .go, .act .go]

def disconnects : List Event := [.act .go, .act .go]

/-- A session with a listener, and after a disconnect another one. -/
def twoSessions : List Event :=
  [.start (.connect "")] ++ connects ++ [.start .listen] ++ listens ++ [.env (.listener 0 .go), .start .disconnect] ++
    disconnects ++ [.start (.connect "")] ++ connects ++ [.start .listen] ++ listens ++ [.env (.listener 1 .go)]

theorem single_listener_twoSessions : ∃ s, Run.exec step (init mockBackend) twoSessions = some s ∧ Single s := by
  have h : (Run.exec step (init mockBackend) twoSessions).isSome := by decide +kernel
  obtain ⟨s, hs⟩ := Option.isSome_iff_exists.1 h
  exact ⟨s, hs, single_listener (by decide +kernel) hs⟩

/-- A listen and a connect begin while a connect waits, so the listener spawned runs with `listening`
clear. A second listen begins, the listener leaves its loop and clears the flag, and a third listen
finds it so. -/
def overlapping : List Event :=
  [.start (.connect ""), .start (.connect "")] ++ connects ++ [.start .listen, .start (.connect "")] ++ connects ++
    listens ++ [.start .listen, .env (.listener 0 .go),
      .env (.listener 0 (.received (.ok (some ⟨"system.error", "kicked"⟩)) false))] ++
    connects ++ listens ++ [.start .listen] ++ listens ++ [.env (.listener 1 .go), .env (.listener 2 .go)]

/-- The second and the third listener receive from the same client. -/
theorem two_listeners_receive : ∃ s, Run.exec step (init mockBackend) overlapping = some s ∧ ¬ Single s := by
  have hk : (Run.exec step (init mockBackend) overlapping).map (fun s => s.shared.listeners) =
      some [⟨150, .ended⟩, ⟨150, .receiving⟩, ⟨150, .receiving⟩] := by decide +kernel
  obtain ⟨s, hs, hk⟩ := Option.map_eq_some_iff.1 hk
  refine ⟨s, hs, fun hsingle => ?_⟩
  have hone := hsingle.one
  rw [hk] at hone
  have := hone 1 2 _ _ rfl rfl rfl rfl
  omega

end NapCat.QQBackend
