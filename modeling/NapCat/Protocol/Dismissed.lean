/-
Listeners that have been told to stop. While its backend is not connected and no connect is made, a listener that
may still be in its loop ends by its own steps, whatever the other calls and the other listeners do.
-/
import NapCat.Lib.Leaving
import NapCat.Protocol.OneBotListener
import NapCat.Protocol.QQListener

namespace NapCat

open Leaving (Party Leaves leaves_of_measure exists_not_leaves)

namespace OneBotHttp

/-! ## The OneBot backend -/

/-- How many requests listener `t` has issued. -/
def Shared.issued (g : Shared) (t : Nat) : Nat := g.requests.countP fun r => r.1 = t

/-- Listener `t` from a state on: one more request is the one that it may have decided on by then. -/
def listenerFrom (g : Shared) (t : Nat) : Party Sys Event where
  own
    | .env (.listener u _) => u = t
    | _ => false
  asks s := g.issued t + 1 < s.shared.issued t
  ended s := s.shared.listeners[t]? = some .ended
  settled _ := True

/-- The step begins no connect. -/
def NoConnect (_ : Sys) (e : Event) : Prop := ∀ endpoint, e ≠ .start (.connect endpoint)

/-- Listener `t` has been told to stop: with no call in progress, it ends in every run without a connect. -/
def Dismissed (g : Shared) (t : Nat) : Prop :=
  ∃ n, ∀ (config : OneBotBackendConfig) (es : List Event), Run.Along (step config) NoConnect ⟨g, []⟩ es →
    Leaves (step config) (listenerFrom g t) n ⟨g, []⟩ es

/-- A call that may still set `connected` or take back a stop. -/
def Pc.connects : Pc → Bool
  | .awaitingStatus _ | .storingConnected | .storingRunning => true
  | _ => false

/-- How many requests a listener issues before it finds that the backend is not connected. -/
def Listener.decided (g : Shared) : Listener → Nat
  | .requesting => 1
  | .checkingStop => if g.stopRequested then 0 else 1
  | _ => 0

/-- And at most how many steps it takes until it has ended. -/
def Listener.stepsLeft (g : Shared) : Listener → Nat
  | .ended => 0
  | .clearing => 1
  | .closing => 2
  | .checkingConnected => 3
  | .checkingStop => if g.stopRequested then 3 else 7
  | .greeting | .sleeping _ => 4
  | .polling => 5
  | .requesting => 6

theorem decided_le_one (g : Shared) (l : Listener) : l.decided g ≤ 1 := by
  cases l with
  | checkingStop => cases hs : g.stopRequested <;> simp [Listener.decided, hs]
  | _ => simp [Listener.decided]

theorem stepsLeft_eq_zero {g : Shared} {l : Listener} : l.stepsLeft g = 0 ↔ l = .ended := by
  cases l with
  | checkingStop => cases hs : g.stopRequested <;> simp [Listener.stepsLeft, hs]
  | _ => simp [Listener.stepsLeft]

/-- A stop that is requested meanwhile only shortens the way. -/
theorem stop_mono {g g' : Shared} (h : g.stopRequested = true → g'.stopRequested = true) (l : Listener) :
    l.decided g' ≤ l.decided g ∧ l.stepsLeft g' ≤ l.stepsLeft g := by
  cases l with
  | checkingStop =>
    unfold Listener.decided Listener.stepsLeft
    cases hs : g.stopRequested with
    | true => rw [h hs]; exact ⟨le_rfl, le_rfl⟩
    | false => cases g'.stopRequested <;> exact ⟨by decide, by decide⟩
  | _ => exact ⟨le_rfl, le_rfl⟩

/-- What a step of a listener does while the backend is not connected. -/
theorem step_unconnected {config : OneBotBackendConfig} {g g' : Shared} {t : Nat} {l q : Listener} {a : ListenerAct}
    (hc : g.connected = false) (hs : l.step config g t a = some (g', q)) :
    g'.connected = false ∧ g'.stopRequested = g.stopRequested ∧ q.stepsLeft g' < l.stepsLeft g ∧
      g'.issued t + q.decided g' ≤ g.issued t + l.decided g ∧ ∀ u, u ≠ t → g'.issued u = g.issued u := by
  cases l with
  | greeting => cases a <;> cases hs; exact ⟨hc, rfl, Nat.lt_succ_self _, le_rfl, fun _ _ => rfl⟩
  | checkingConnected =>
    cases a <;> cases hs
    rw [if_neg (by rw [hc]; exact Bool.false_ne_true)]
    exact ⟨hc, rfl, Nat.lt_succ_self _, le_rfl, fun _ _ => rfl⟩
  | checkingStop =>
    cases a <;> cases hs
    refine ⟨hc, rfl, ?_, ?_, fun _ _ => rfl⟩ <;> cases hstop : g.stopRequested <;>
      simp [Listener.stepsLeft, Listener.decided, hstop]
  | requesting =>
    cases a <;> cases hs
    refine ⟨hc, rfl, Nat.lt_succ_self _, ?_, fun u hu => ?_⟩
    · simp [Shared.issued, Listener.decided]
    · simp [Shared.issued, hu.symm]
  | polling =>
    cases a with
    | go => cases hs
    | respond r subscribed =>
      cases hs
      refine ⟨hc, rfl, ?_, ?_, fun _ _ => rfl⟩ <;> cases (handleResponse subscribed r).2 <;>
        simp [afterSleep, Listener.stepsLeft, Listener.decided, Shared.issued, Shared.notify]
  | sleeping ms => cases a <;> cases hs; exact ⟨hc, rfl, Nat.lt_succ_self _, le_rfl, fun _ _ => rfl⟩
  | closing => cases a <;> cases hs; exact ⟨hc, rfl, Nat.lt_succ_self _, le_rfl, fun _ _ => rfl⟩
  | clearing => cases a <;> cases hs; exact ⟨hc, rfl, Nat.lt_succ_self _, le_rfl, fun _ _ => rfl⟩
  | ended => cases a <;> cases hs

/-- The backend stays unconnected, and listener `t` issues at most one request after the first `n`. -/
structure Idle (n t : Nat) (s : Sys) : Prop where
  connected : s.shared.connected = false
  calls : ∀ p ∈ s.calls, p.connects = false
  issued : ∀ l ∈ s.shared.listeners[t]?, s.shared.issued t + l.decided s.shared ≤ n + 1

theorem begin_idle {config : OneBotBackendConfig} {g g' : Shared} {op : Op} {p : Pc} (hc : g.connected = false)
    (hop : ∀ endpoint, op ≠ .connect endpoint) (h : begin config g op = some (g', p)) :
    g' = g ∧ p.connects = false := by
  cases op with
  | connect endpoint => exact absurd rfl (hop endpoint)
  | disconnect =>
    cases h
    exact ⟨by rw [← hc], rfl⟩
  | listen =>
    cases h
    rw [hc]
    exact ⟨rfl, rfl⟩

/-- A call that is no connect leaves the backend unconnected and takes no stop back. -/
theorem act_idle {g g' : Shared} {p q : Pc} {a : Act} (hp : p.connects = false) (h : act g p a = some (g', q)) :
    g'.connected = g.connected ∧ (g.stopRequested = true → g'.stopRequested = true) ∧ q.connects = false ∧
      g'.requests = g.requests ∧ g.listeners <+: g'.listeners := by
  unfold act at h
  split at h
  case h_1 | h_2 | h_3 => cases hp
  case h_4 => cases h; exact ⟨rfl, fun _ => rfl, rfl, rfl, List.prefix_rfl⟩
  case h_5 => cases h; exact ⟨rfl, id, rfl, rfl, List.prefix_rfl⟩
  case h_6 =>
    cases h
    exact ⟨rfl, id, by split <;> rfl, rfl, List.prefix_rfl⟩
  case h_7 => cases h; exact ⟨rfl, id, rfl, rfl, List.prefix_append _ _⟩
  case h_8 => cases h

/-- One step without a connect: the listener is no further from its end, and nearer by its own steps. -/
theorem Idle.step {config : OneBotBackendConfig} {s s' : Sys} {e : Event} {n t : Nat} {l : Listener}
    (h : Idle n t s) (hl : s.shared.listeners[t]? = some l) (hc : NoConnect s e)
    (hs : OneBotHttp.step config s e = some s') :
    ∃ q, s'.shared.listeners[t]? = some q ∧ Idle n t s' ∧
      q.stepsLeft s'.shared + (if (listenerFrom s.shared t).own e then 1 else 0) ≤ l.stepsLeft s.shared := by
  have hissued := h.issued l hl
  cases e with
  | start op =>
    obtain ⟨g, p, hb, rfl⟩ := Threads.step_start hs
    obtain ⟨rfl, hp⟩ := begin_idle h.connected (fun endpoint he => hc endpoint (congrArg _ he)) hb
    exact ⟨l, hl, ⟨h.connected, Threads.forall_append h.calls hp, h.issued⟩, le_rfl⟩
  | act i a =>
    obtain ⟨p, g, q, hi, ha, rfl⟩ := Threads.step_act hs
    obtain ⟨hconn, hstop, hq, hreq, more, hmore⟩ := act_idle (h.calls p (Threads.mem_of_get hi)) ha
    obtain ⟨hdecided, hleft⟩ := stop_mono hstop l
    have hl' : g.listeners[t]? = some l := by
      rw [← hmore, List.getElem?_append_left (List.getElem?_eq_some_iff.1 hl).1]
      exact hl
    refine ⟨l, hl', ⟨hconn.trans h.connected, Threads.forall_set h.calls hq, fun l' hl'' => ?_⟩, hleft⟩
    obtain rfl : l = l' := Option.some.inj (hl'.symm.trans hl'')
    have hsame : g.issued t = s.shared.issued t := by rw [Shared.issued, hreq]; rfl
    show g.issued t + l.decided g ≤ n + 1
    omega
  | env e =>
    obtain ⟨u, a⟩ := e
    obtain ⟨g, he, rfl⟩ := Threads.step_env hs
    obtain ⟨r, g', q, hr, hstep, rfl⟩ := env_listener he
    obtain ⟨hconn, hstop, hlt, hreq, hothers⟩ := step_unconnected h.connected hstep
    by_cases hu : u = t
    · subst hu
      obtain rfl : l = r := Option.some.inj (hl.symm.trans hr)
      have hq : (s.shared.listeners.set u q)[u]? = some q :=
        List.getElem?_set_self (List.getElem?_eq_some_iff.1 hl).1
      refine ⟨q, hq, ⟨hconn, h.calls, fun q' hq' => ?_⟩, ?_⟩
      · obtain rfl : q = q' := Option.some.inj (hq.symm.trans hq')
        have hle : g'.issued u + q.decided g' ≤ n + 1 := hreq.trans hissued
        exact hle
      · have hle : q.stepsLeft g' + 1 ≤ l.stepsLeft s.shared := hlt
        have hown : (listenerFrom s.shared u).own (.env (.listener u a)) = true := decide_eq_true rfl
        rw [if_pos hown]
        exact hle
    · have hl' : (s.shared.listeners.set u q)[t]? = some l := (List.getElem?_set_ne hu).trans hl
      obtain ⟨hdecided, hleft⟩ := stop_mono (fun hsr => hstop.trans hsr) l
      refine ⟨l, hl', ⟨hconn, h.calls, fun l' hl'' => ?_⟩, ?_⟩
      · obtain rfl : l = l' := Option.some.inj (hl'.symm.trans hl'')
        have hsame : g'.issued t = s.shared.issued t := hothers t (Ne.symm hu)
        show g'.issued t + l.decided g' ≤ n + 1
        omega
      · rw [if_neg (by simpa [listenerFrom] using hu)]
        exact hleft

/-- A listener that has not ended has a step to take. -/
theorem listener_able (config : OneBotBackendConfig) {s : Sys} {t : Nat} {l : Listener}
    (hl : s.shared.listeners[t]? = some l) (hne : l ≠ .ended) :
    ∃ a, (OneBotHttp.step config s (.env (.listener t a))).isSome = true := by
  have hstep : ∃ a r, l.step config s.shared t a = some r := by
    cases l with
    | ended => exact absurd rfl hne
    | polling => exact ⟨.respond (.failed "") true, _, rfl⟩
    | _ => exact ⟨.go, _, rfl⟩
  obtain ⟨a, r, hr⟩ := hstep
  refine ⟨a, ?_⟩
  simp only [OneBotHttp.step, Threads.step, program, env, hl, Option.bind_some, hr, Option.map_some, Option.isSome_some]

/-- How many steps listener `t` has left. -/
def stepsLeft (t : Nat) (s : Sys) : Nat := (s.shared.listeners[t]?.map (Listener.stepsLeft s.shared)).getD 0

theorem stepsLeft_eq {t : Nat} {s : Sys} {l : Listener} (hl : s.shared.listeners[t]? = some l) :
    stepsLeft t s = l.stepsLeft s.shared := by rw [stepsLeft, hl, Option.map_some, Option.getD_some]

/-- Every listener of an unconnected backend has been told to stop, whatever the other flags say. -/
theorem dismissed_of_not_connected {g : Shared} (hc : g.connected = false) {t : Nat} (ht : t < g.listeners.length) :
    Dismissed g t := by
  have hended {s : Sys} {l : Listener} (hl : s.shared.listeners[t]? = some l) :
      (listenerFrom g t).ended s ↔ l = .ended := by
    show s.shared.listeners[t]? = some .ended ↔ _
    rw [hl, Option.some.injEq]
  refine ⟨stepsLeft t ⟨g, []⟩, fun config es hes => ?_⟩
  refine leaves_of_measure (I := fun s => Idle (g.issued t) t s ∧ ∃ l, s.shared.listeners[t]? = some l)
    (fun s e s' h hne hs => ?_) (fun s h => ?_) (fun s h => ?_) (fun s h hn => ?_) (fun _ _ _ => trivial) ⟨?_, ?_⟩ hes
  · obtain ⟨hidle, l, hl⟩ := h
    obtain ⟨q, hq, hidle', hle⟩ := hidle.step hl hne hs
    rw [stepsLeft_eq hl, stepsLeft_eq hq]
    exact ⟨⟨hidle', q, hq⟩, hle⟩
  · obtain ⟨hidle, l, hl⟩ := h
    have hle := hidle.issued l hl
    show ¬ g.issued t + 1 < s.shared.issued t
    omega
  · obtain ⟨-, l, hl⟩ := h
    rw [hended hl, stepsLeft_eq hl, stepsLeft_eq_zero]
  · obtain ⟨-, l, hl⟩ := h
    obtain ⟨a, ha⟩ := listener_able config hl fun he => hn ((hended hl).2 he)
    exact ⟨.env (.listener t a), decide_eq_true rfl, ha⟩
  · exact ⟨hc, fun p hp => (by cases hp), fun l _ => Nat.add_le_add_left (decided_le_one g l) _⟩
  · exact ⟨_, List.getElem?_eq_getElem ht⟩

/-- While the backend is connected and not stopped, a listener in its loop can go on for ever. -/
theorem going_step (config : OneBotBackendConfig) {s : Sys} {t : Nat} {l : Listener} (hc : s.shared.connected = true)
    (hs : s.shared.stopRequested = false) (hl : s.shared.listeners[t]? = some l) (hg : l.going s.shared = true) :
    ∃ a s' q, OneBotHttp.step config s (.env (.listener t a)) = some s' ∧ s'.shared.connected = true ∧
      s'.shared.stopRequested = false ∧ s'.shared.listeners[t]? = some q ∧ q.going s'.shared = true := by
  have hstep : ∃ a g q, l.step config s.shared t a = some (g, q) ∧ g.connected = true ∧ g.stopRequested = false ∧
      q.going g = true := by
    cases l with
    | closing | clearing | ended => cases hg
    | checkingConnected => exact ⟨.go, _, _, rfl, hc, hs, by simp [hc, hs, Listener.going]⟩
    | checkingStop => exact ⟨.go, _, _, rfl, hc, hs, by simp [hs, Listener.going]⟩
    | polling =>
      exact ⟨.respond (.failed "") true, _, _, rfl, hc, hs, by
        simp [Shared.notify, handleResponse, afterSleep, hc, hs, Listener.going]⟩
    | _ => exact ⟨.go, _, _, rfl, hc, hs, by simp [Shared.notify, hc, hs, Listener.going]⟩
  obtain ⟨a, g, q, hq, hconn, hstop, hgoing⟩ := hstep
  refine ⟨a, { s with shared := { g with listeners := s.shared.listeners.set t q } }, q, ?_, hconn, hstop,
    List.getElem?_set_self (List.getElem?_eq_some_iff.1 hl).1, hgoing⟩
  simp only [OneBotHttp.step, Threads.step, program, env, hl, Option.bind_some, hq, Option.map_some]

/-- A listener in the loop of a connected backend that has not been stopped has not been told to stop. -/
theorem not_dismissed_of_going {g : Shared} {t : Nat} {l : Listener} (hc : g.connected = true)
    (hs : g.stopRequested = false) (hl : g.listeners[t]? = some l) (hg : l.going g = true) : ¬ Dismissed g t := by
  rintro ⟨n, h⟩
  let P : Sys → Prop := fun s => s.shared.connected = true ∧ s.shared.stopRequested = false ∧
    ∃ l, s.shared.listeners[t]? = some l ∧ l.going s.shared = true
  have hgoes : ∀ s, P s → ∃ e s', (listenerFrom g t).own e = true ∧ NoConnect s e ∧
      OneBotHttp.step ⟨"", none, 0, 0⟩ s e = some s' ∧ P s' := by
    rintro s ⟨hc, hs, l, hl, hg⟩
    obtain ⟨a, s', q, hstep, hc', hs', hl', hg'⟩ := going_step _ hc hs hl hg
    exact ⟨.env (.listener t a), s', decide_eq_true rfl, fun endpoint he => (by cases he), hstep, hc', hs', q, hl', hg'⟩
  have hend : ∀ s, P s → ¬ (listenerFrom g t).ended s := by
    rintro s ⟨-, -, l, hl, hg⟩ he
    obtain rfl : l = .ended := Option.some.inj (hl.symm.trans he)
    cases hg
  obtain ⟨es, hes, hn⟩ := exists_not_leaves hgoes hend (s := ⟨g, []⟩) ⟨hc, hs, l, hl, hg⟩ n
  exact hn (h _ es hes)

end OneBotHttp

namespace QQBackend

/-! ## The QQ client backend -/

/-- The step begins no connect. -/
def NoConnect (_ : Sys) (e : Event) : Prop := ∀ endpoint, e ≠ .start (.connect endpoint)

/-- Listener `t` is in a receive. -/
def Shared.receives (g : Shared) (t : Nat) : Prop := ∃ l ∈ g.listeners[t]?, l.pos = .receiving

/-- Listener `t` from a state on: a receive that it was not in already is one that it asks for. A listener that has
been aborted is not polled again. -/
def listenerFrom (g : Shared) (t : Nat) : Party Sys Event where
  own
    | .env (.listener u _) => u = t
    | _ => false
  asks s := s.shared.receives t ∧ ¬ g.receives t
  ended s := ∃ l ∈ s.shared.listeners[t]?, l.inLoop = false
  settled _ := True

/-- Listener `t` has been told to stop: with no call in progress, it ends in every run without a connect. -/
def Dismissed (g : Shared) (t : Nat) : Prop :=
  ∃ n, ∀ (returned : List Reply) (es : List Event), Run.Along step NoConnect ⟨g, [], returned⟩ es →
    Leaves step (listenerFrom g t) n ⟨g, [], returned⟩ es

/-- A call that may still set `connected`. -/
def Pc.connects : Pc → Bool
  | .disconnect | .disconnectClosing | .listen | .readPoll => false
  | _ => true

/-- How many steps a listener takes until it has ended, in a backend that is not connected. -/
def ListenerAt.stepsLeft : ListenerAt → Nat
  | .aborted | .ended => 0
  | .spawned | .sleeping => 1
  | .receiving => 2

theorem stepsLeft_eq_zero {l : Listener} : l.pos.stepsLeft = 0 ↔ l.inLoop = false := by
  unfold Listener.inLoop
  cases l.pos <;> decide

theorem stepsLeft_abort (pos : ListenerAt) : pos.abort.stepsLeft = 0 ∧ pos.abort ≠ .receiving := by
  cases pos <;> decide

/-- A listener that goes on in a backend that is not connected sleeps, and that only after a receive. -/
theorem next_unconnected {g : Shared} {l : Listener} {i : Iteration} {pos : ListenerAt} (hc : g.connected = false)
    (h : l.next g i = some pos) : i = .sleep ∧ pos = .sleeping := by
  have hgoes : g.goesOn = false := by rw [Shared.goesOn, hc, Bool.false_and]
  unfold Listener.next at h
  rw [hgoes] at h
  cases i with
  | leave => cases h
  | again => cases h
  | sleep =>
    simp only [Bool.false_eq_true, if_false] at h
    split_ifs at h
    cases h
    exact ⟨rfl, rfl⟩

/-- A step of a listener while the backend is not connected. -/
theorem step_unconnected {g g' : Shared} {t : Nat} {l q : Listener} {a : ListenerAct} (hc : g.connected = false)
    (hs : l.step g t a = some (g', q)) :
    g'.connected = false ∧ q.pos.stepsLeft < l.pos.stepsLeft ∧ q.pos ≠ .receiving := by
  obtain ⟨⟨events, i⟩, hiter, hs⟩ := Option.map_eq_some_iff.1 hs
  dsimp only at hs
  split at hs
  · rename_i pos hnext
    cases hs
    obtain ⟨rfl, rfl⟩ := next_unconnected hc hnext
    have hpos : l.pos = .receiving := by
      unfold Listener.iteration at hiter
      cases a <;> cases hp : l.pos <;> rw [hp] at hiter <;> first | rfl | cases hiter
    rw [hpos]
    exact ⟨hc, Nat.lt_succ_self 1, ListenerAt.noConfusion⟩
  · cases hs
    refine ⟨hc, Nat.pos_of_ne_zero fun h => ?_, ListenerAt.noConfusion⟩
    have hin := inLoop_of_iteration hiter
    rw [stepsLeft_eq_zero.1 h] at hin
    cases hin

/-- A listener is where it was, or has been aborted. -/
def Keeps (g g' : Shared) : Prop :=
  ∀ (t : Nat) (l : Listener), g.listeners[t]? = some l →
    ∃ q, g'.listeners[t]? = some q ∧ (q.pos = l.pos ∨ q.pos = l.pos.abort)

theorem keeps_of_prefix {g g' : Shared} (h : g.listeners <+: g'.listeners) : Keeps g g' := by
  intro t l hl
  obtain ⟨more, hmore⟩ := h
  refine ⟨l, ?_, .inl rfl⟩
  rw [← hmore, List.getElem?_append_left (List.getElem?_eq_some_iff.1 hl).1]
  exact hl

theorem keeps_abortListener (g : Shared) : Keeps g g.abortListener := by
  intro t l hl
  unfold Shared.abortListener
  split
  · exact ⟨l, hl, .inl rfl⟩
  · rename_i u hu
    refine ⟨if u = t then { l with pos := l.pos.abort } else l, ?_, ?_⟩
    · simp only [List.getElem?_modify, hl]
      split_ifs <;> rfl
    · split_ifs
      · exact .inr rfl
      · exact .inl rfl

theorem connected_abortListener (g : Shared) : g.abortListener.connected = g.connected := by
  unfold Shared.abortListener
  split <;> rfl

theorem start_idle {g : Shared} {op : Op} (hc : g.connected = false) (hop : ∀ endpoint, op ≠ .connect endpoint) :
    (start g op).1.connected = false ∧ (start g op).1.listeners = g.listeners ∧
      ∀ p, (start g op).2 = .call p → p.connects = false := by
  cases op with
  | connect endpoint => exact absurd rfl (hop endpoint)
  | disconnect => exact ⟨rfl, rfl, fun p hp => by cases hp; rfl⟩
  | listen =>
    have hs : start g .listen = (g, fail "protocol is not connected") := if_pos (by rw [hc]; exact Bool.false_ne_true)
    rw [hs]
    exact ⟨hc, rfl, fun p hp => by cases hp⟩

/-- A call that is no connect leaves `connected` as it is. -/
theorem act_idle {g : Shared} {p : Pc} {a : Act} {r : Shared × Next} (hp : p.connects = false)
    (h : act g p a = some r) :
    r.1.connected = g.connected ∧ Keeps g r.1 ∧ ∀ q, r.2 = .call q → q.connects = false := by
  unfold act at h
  split at h
  case h_10 =>
    cases h
    exact ⟨connected_abortListener g, keeps_abortListener g, fun q hq => by cases hq; rfl⟩
  case h_11 => cases h; exact ⟨rfl, keeps_of_prefix List.prefix_rfl, fun q hq => by cases hq⟩
  case h_12 => cases h; exact ⟨rfl, keeps_of_prefix List.prefix_rfl, fun q hq => by cases hq; rfl⟩
  case h_13 => cases h; exact ⟨rfl, keeps_of_prefix (List.prefix_append _ _), fun q hq => by cases hq⟩
  case h_14 => cases h
  all_goals cases hp

/-- The backend stays unconnected, and listener `t` is in no receive that it was not in at first. -/
structure Idle (g : Shared) (t : Nat) (s : Sys) : Prop where
  connected : s.shared.connected = false
  calls : ∀ p ∈ s.queue, p.connects = false
  silent : s.shared.receives t → g.receives t

/-- What the listener may become by a step of another: no more than it was. -/
theorem Idle.keep {g g' : Shared} {t : Nat} {s : Sys} {queue : List Pc} {returned : List Reply} {l : Listener}
    (h : Idle g t s) (hl : s.shared.listeners[t]? = some l) (hc : g'.connected = false)
    (hq : ∀ p ∈ queue, p.connects = false) (hk : Keeps s.shared g') :
    ∃ q, g'.listeners[t]? = some q ∧ Idle g t ⟨g', queue, returned⟩ ∧ q.pos.stepsLeft ≤ l.pos.stepsLeft := by
  obtain ⟨q, hq', hpos⟩ := hk t l hl
  refine ⟨q, hq', ⟨hc, hq, fun ⟨r, hr, hrecv⟩ => ?_⟩, ?_⟩
  · obtain rfl : q = r := Option.some.inj (hq'.symm.trans hr)
    rcases hpos with hpos | hpos
    · exact h.silent ⟨l, hl, hpos ▸ hrecv⟩
    · exact absurd (hpos ▸ hrecv) (stepsLeft_abort l.pos).2
  · rcases hpos with hpos | hpos
    · rw [hpos]
    · rw [hpos, (stepsLeft_abort l.pos).1]
      exact Nat.zero_le _

/-- One step without a connect: the listener is no further from its end, and nearer by its own steps. -/
theorem Idle.step {g : Shared} {s s' : Sys} {e : Event} {t : Nat} {l : Listener} (h : Idle g t s)
    (hl : s.shared.listeners[t]? = some l) (hc : NoConnect s e) (hs : QQBackend.step s e = some s') :
    ∃ q, s'.shared.listeners[t]? = some q ∧ Idle g t s' ∧
      q.pos.stepsLeft + (if (listenerFrom g t).own e then 1 else 0) ≤ l.pos.stepsLeft := by
  cases e with
  | start op =>
    have hop : ∀ endpoint, op ≠ .connect endpoint := fun endpoint he => hc endpoint (congrArg _ he)
    obtain ⟨hconn, hls, hcall⟩ := start_idle h.connected hop
    rcases Turns.step_start hs with ⟨g', p, hb, rfl⟩ | ⟨g', r, hb, rfl⟩ <;>
      rw [show start s.shared op = _ from hb] at hconn hls hcall <;>
      have hk : Keeps s.shared g' := keeps_of_prefix (hls ▸ List.prefix_rfl)
    · exact h.keep hl hconn (Threads.forall_append h.calls (hcall p rfl)) hk
    · exact h.keep hl hconn h.calls hk
  | act a =>
    obtain ⟨p, rest, ⟨g', next⟩, hq, ha, rfl⟩ := Turns.step_act hs
    have hcalls := h.calls
    rw [hq, List.forall_mem_cons] at hcalls
    have ha : act s.shared p a = some (g', next) := ha
    obtain ⟨hconn, hk, hcall⟩ := act_idle hcalls.1 ha
    have hconn' : g'.connected = false := hconn.trans h.connected
    cases next with
    | call q =>
      have hcalls' : ∀ r ∈ q :: rest, r.connects = false := List.forall_mem_cons.2 ⟨hcall q rfl, hcalls.2⟩
      exact h.keep hl hconn' hcalls' hk
    | ret r => exact h.keep hl hconn' hcalls.2 hk
  | env e =>
    obtain ⟨u, a⟩ := e
    obtain ⟨g', he, rfl⟩ := Turns.step_env hs
    obtain ⟨r, g₁, q, hr, hstep, rfl⟩ := env_listener he
    obtain ⟨hconn, hlt, hrecv⟩ := step_unconnected h.connected hstep
    by_cases hu : u = t
    · subst hu
      obtain rfl : l = r := Option.some.inj (hl.symm.trans hr)
      have hq : (s.shared.listeners.set u q)[u]? = some q :=
        List.getElem?_set_self (List.getElem?_eq_some_iff.1 hl).1
      refine ⟨q, hq, ⟨hconn, h.calls, fun ⟨q', hq', hpos⟩ => ?_⟩, ?_⟩
      · obtain rfl : q = q' := Option.some.inj (hq.symm.trans hq')
        exact absurd hpos hrecv
      · have hle : q.pos.stepsLeft + 1 ≤ l.pos.stepsLeft := hlt
        have hown : (listenerFrom g u).own (.env (.listener u a)) = true := decide_eq_true rfl
        rw [if_pos hown]
        exact hle
    · have hl' : (s.shared.listeners.set u q)[t]? = some l := (List.getElem?_set_ne hu).trans hl
      refine ⟨l, hl', ⟨hconn, h.calls, fun ⟨l', hl'', hpos⟩ => ?_⟩, ?_⟩
      · obtain rfl : l = l' := Option.some.inj (hl'.symm.trans hl'')
        exact h.silent ⟨l, hl, hpos⟩
      · rw [if_neg (by simpa [listenerFrom] using hu)]
        exact le_rfl

/-- A listener in its loop has a step to take. -/
theorem listener_able {s : Sys} {t : Nat} {l : Listener} (hl : s.shared.listeners[t]? = some l)
    (hin : l.inLoop = true) : ∃ a, (QQBackend.step s (.env (.listener t a))).isSome = true := by
  have hiter : ∃ a r, l.iteration a = some r := by
    obtain ⟨pollMs, pos⟩ := l
    cases pos with
    | spawned | sleeping => exact ⟨.go, _, rfl⟩
    | receiving => exact ⟨.received (.ok none) true, _, rfl⟩
    | aborted | ended => cases hin
  obtain ⟨a, r, hr⟩ := hiter
  refine ⟨a, ?_⟩
  simp only [QQBackend.step, Turns.step, program, env, hl, Option.bind_some, Listener.step, hr, Option.map_some,
    Option.isSome_some]

/-- How many steps listener `t` has left. -/
def stepsLeft (t : Nat) (s : Sys) : Nat := (s.shared.listeners[t]?.map fun l => l.pos.stepsLeft).getD 0

theorem stepsLeft_eq {t : Nat} {s : Sys} {l : Listener} (hl : s.shared.listeners[t]? = some l) :
    stepsLeft t s = l.pos.stepsLeft := by rw [stepsLeft, hl, Option.map_some, Option.getD_some]

/-- Every listener of an unconnected backend has been told to stop, also one whose handle is lost. -/
theorem dismissed_of_not_connected {g : Shared} (hc : g.connected = false) {t : Nat} (ht : t < g.listeners.length) :
    Dismissed g t := by
  have hended {s : Sys} {l : Listener} (hl : s.shared.listeners[t]? = some l) :
      (listenerFrom g t).ended s ↔ l.inLoop = false := by
    constructor
    · rintro ⟨l', hl', hend⟩
      obtain rfl : l = l' := Option.some.inj (hl.symm.trans hl')
      exact hend
    · exact fun hend => ⟨l, hl, hend⟩
  refine ⟨stepsLeft t ⟨g, [], []⟩, fun returned es hes => ?_⟩
  refine leaves_of_measure (p := listenerFrom g t) (m := stepsLeft t)
    (I := fun s => Idle g t s ∧ ∃ l, s.shared.listeners[t]? = some l)
    (fun s e s' h hne hs => ?_) (fun s h hasks => ?_) (fun s h => ?_) (fun s h hn => ?_) (fun _ _ _ => trivial)
    ⟨⟨hc, fun p hp => (by cases hp), id⟩, _, List.getElem?_eq_getElem ht⟩ hes
  · obtain ⟨hidle, l, hl⟩ := h
    obtain ⟨q, hq, hidle', hle⟩ := hidle.step hl hne hs
    rw [stepsLeft_eq hl, stepsLeft_eq hq]
    exact ⟨⟨hidle', q, hq⟩, hle⟩
  · exact hasks.2 (h.1.silent hasks.1)
  · obtain ⟨-, l, hl⟩ := h
    rw [hended hl, stepsLeft_eq hl, stepsLeft_eq_zero]
  · obtain ⟨-, l, hl⟩ := h
    obtain ⟨a, ha⟩ := listener_able hl (eq_true_of_ne_false fun hf => hn ((hended hl).2 hf))
    exact ⟨.env (.listener t a), decide_eq_true rfl, ha⟩

/-- While the backend is connected and not stopped, a listener in its loop can go on for ever. -/
theorem inLoop_step {s : Sys} {t : Nat} {l : Listener} (hg : s.shared.goesOn = true)
    (hl : s.shared.listeners[t]? = some l) (hin : l.inLoop = true) :
    ∃ a s' q, QQBackend.step s (.env (.listener t a)) = some s' ∧ s'.shared.goesOn = true ∧
      s'.shared.listeners[t]? = some q ∧ q.inLoop = true := by
  have hiter : ∃ a events, l.iteration a = some (events, .again) := by
    obtain ⟨pollMs, pos⟩ := l
    cases pos with
    | spawned | sleeping => exact ⟨.go, _, rfl⟩
    | receiving => exact ⟨.received (.ok (some ⟨"", ""⟩)) true, _, rfl⟩
    | aborted | ended => cases hin
  obtain ⟨a, events, hiter⟩ := hiter
  have hnext : l.next s.shared .again = some .receiving := if_pos hg
  let q : Listener := { l with pos := .receiving }
  refine ⟨a, { s with shared := { s.shared.notify t events with listeners := s.shared.listeners.set t q } }, q, ?_, hg,
    List.getElem?_set_self (List.getElem?_eq_some_iff.1 hl).1, rfl⟩
  simp only [QQBackend.step, Turns.step, program, env, hl, Option.bind_some, Listener.step, hiter, hnext,
    Option.map_some, q]

/-- A listener in the loop of a connected backend that has not been stopped has not been told to stop. -/
theorem not_dismissed_of_inLoop {g : Shared} {t : Nat} {l : Listener} (hg : g.goesOn = true)
    (hl : g.listeners[t]? = some l) (hin : l.inLoop = true) : ¬ Dismissed g t := by
  rintro ⟨n, h⟩
  let P : Sys → Prop := fun s => s.shared.goesOn = true ∧ ∃ l, s.shared.listeners[t]? = some l ∧ l.inLoop = true
  have hgoes : ∀ s, P s → ∃ e s', (listenerFrom g t).own e = true ∧ NoConnect s e ∧ QQBackend.step s e = some s' ∧
      P s' := by
    rintro s ⟨hg, l, hl, hin⟩
    obtain ⟨a, s', q, hstep, hg', hl', hin'⟩ := inLoop_step hg hl hin
    exact ⟨.env (.listener t a), s', decide_eq_true rfl, fun endpoint he => (by cases he), hstep, hg', q, hl', hin'⟩
  have hend : ∀ s, P s → ¬ (listenerFrom g t).ended s := by
    rintro s ⟨-, l, hl, hin⟩ ⟨l', hl', hout⟩
    obtain rfl : l = l' := Option.some.inj (hl.symm.trans hl')
    rw [hin] at hout
    cases hout
  obtain ⟨es, hes, hn⟩ := exists_not_leaves hgoes hend (s := ⟨g, [], []⟩) ⟨hg, l, hl, hin⟩ n
  exact hn (h [] es hes)

end QQBackend

end NapCat
