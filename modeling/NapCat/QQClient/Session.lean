/-
The session invariant of `TcpQQClient`: when no call is in progress, the session is open exactly
when the slot holds a stream, and a logged-in session has a token. The lemma `act_effect` says once
what a step does to the state, the stream and the token.
-/
import NapCat.QQClient.Tcp

namespace NapCat.QQClient.Tcp

open Threads

/-- What a call in progress has begun and not finished: stored a stream, stored a token, announced
closing, or taken the stream out for good. -/
inductive Stage
  | quiet
  | storing
  | tokened
  | closing
  | taken
  deriving DecidableEq

def Pc.stage : Pc → Stage
  | .connState => .storing
  | .loginState _ => .tokened
  | .discStream => .closing
  | .discEndpoint | .discToken | .discHeartbeat | .discState => .taken
  | _ => .quiet

/-- The state, the stream and the token are the same. -/
def SameSession (g g' : Shared) : Prop := g'.state = g.state ∧ g'.stream = g.stream ∧ g'.token = g.token

theorem SameSession.refl (g : Shared) : SameSession g g := ⟨rfl, rfl, rfl⟩

/-- What a step of a call does to the session, a lost stream apart. -/
inductive Effect (g : Shared) : Pc → Shared → Pc → Prop
  | quiet {p g' q} (hp : p.stage = .quiet) (hq : q.stage = .quiet) (h : SameSession g g') : Effect g p g' q
  | store (addr) : Effect g (.connStream addr) { g with stream := some addr } .connState
  | connected : Effect g .connState { g with state := .connected } (.done (.ok .unit))
  | token (t) : Effect g (.loginToken t) { g with token := some t } (.loginState t)
  | loggedIn (t) : Effect g (.loginState t) { g with state := .loggedIn } (.done (.ok (.token t)))
  | take : Effect g .discStream { g with stream := none } .discEndpoint
  | clear {p g' q} (hp : p.stage = .taken) (hq : q.stage = .taken) (hs : g'.state = g.state)
      (hm : g'.stream = g.stream) : Effect g p g' q
  | closed : Effect g .discState { g with state := .disconnected } (.done (.ok .unit))

theorem ackStep_stage (left : Nat) (r : Except QQClientError (Option Packet)) : (ackStep left r).stage = .quiet := by
  unfold ackStep
  split
  · rfl
  · rfl
  · split_ifs
    · split <;> rfl
    · rfl
    · split <;> rfl

theorem writer_next_stage (w : Writer) : w.next.stage = .quiet := by cases w <;> rfl

/-- Receiving changes nothing but for a conversion that fails. -/
theorem recvOnce_same {g g' : Shared} {r : RecvAt} {a : Act} {x} (h : recvOnce g r a = some (g', x))
    (hc : ∀ e, a = .convert (some e) → g.stream = none) : g' = g := by
  unfold recvOnce at h
  split at h
  · split at h <;> cases h <;> rfl
  · cases h; rfl
  · split_ifs at h
    split at h
    · cases h; rfl
    · cases h; rfl
    · rename_i e hs
      rw [hc e rfl] at hs; cases hs
  · cases h; rfl
  · cases h; rfl
  · cases h

theorem writeLine_same {g g' : Shared} {who : Writer} {line : String} {w : WriteAt} {a : Act} {q : Pc}
    (h : writeLine g who line w a = some (g', q)) : SameSession g g' ∧ q.stage = .quiet := by
  unfold writeLine at h
  split at h
  · split_ifs at h <;> cases h
    · exact ⟨.refl g, rfl⟩
    · exact ⟨⟨rfl, rfl, rfl⟩, rfl⟩
  · cases h; exact ⟨.refl g, rfl⟩
  · cases h; exact ⟨⟨rfl, rfl, rfl⟩, writer_next_stage who⟩
  · cases h; exact ⟨⟨rfl, rfl, rfl⟩, rfl⟩
  · cases h; exact ⟨⟨rfl, rfl, rfl⟩, rfl⟩
  · cases h

theorem act_effect {g g' : Shared} {p q : Pc} {a : Act} (h : act g p a = some (g', q))
    (hc : ∀ e, a = .convert (some e) → g.stream = none) : Effect g p g' q := by
  unfold act at h
  split at h
  · cases h; exact .quiet rfl rfl (.refl g)
  · cases h; exact .quiet rfl rfl (.refl g)
  · cases h; exact .quiet rfl rfl (.refl g)
  · cases h; exact .quiet rfl rfl ⟨rfl, rfl, rfl⟩
  · cases h; exact .quiet rfl rfl ⟨rfl, rfl, rfl⟩
  · split_ifs at h; cases h; exact .store _
  · cases h; exact .connected
  · obtain ⟨hs, hq⟩ := writeLine_same h
    exact .quiet rfl hq hs
  · obtain ⟨⟨g1, x⟩, hr, hx⟩ := Option.map_eq_some_iff.1 h
    obtain rfl := recvOnce_same hr hc
    cases x <;> cases hx
    · exact .quiet rfl rfl (.refl _)
    · exact .quiet rfl (ackStep_stage _ _) (.refl _)
  · cases h; exact .token _
  · cases h; exact .loggedIn _
  · obtain ⟨⟨g1, x⟩, hr, hx⟩ := Option.map_eq_some_iff.1 h
    obtain rfl := recvOnce_same hr hc
    cases x <;> cases hx <;> exact .quiet rfl rfl (.refl _)
  · split_ifs at h <;> cases h <;> exact .quiet rfl rfl (.refl g)
  · cases h; exact .quiet rfl rfl ⟨rfl, rfl, rfl⟩
  · cases h; exact .quiet rfl rfl ⟨rfl, rfl, rfl⟩
  · split_ifs at h; cases h; exact .take
  · cases h; exact .clear rfl rfl rfl rfl
  · cases h; exact .clear rfl rfl rfl rfl
  · cases h; exact .clear rfl rfl rfl rfl
  · cases h; exact .closed
  · cases h

/-- The first step of a call changes nothing unless it announces a disconnect. -/
theorem start_effect {g g' : Shared} {op : Op} {p : Pc} (h : start g op = some (g', p)) :
    (g' = g ∧ p.stage = .quiet) ∨ (op = .disconnect ∧ g' = { g with state := .closing } ∧ p = .discStream) := by
  cases op with
  | connect config =>
    simp only [start] at h
    split_ifs at h
    · cases h; exact .inl ⟨rfl, rfl⟩
    · split at h <;> cases h <;> exact .inl ⟨rfl, rfl⟩
  | login account password =>
    simp only [start] at h
    split_ifs at h <;> cases h <;> exact .inl ⟨rfl, rfl⟩
  | sendPacket packet =>
    simp only [start] at h
    split_ifs at h <;> cases h <;> exact .inl ⟨rfl, rfl⟩
  | receivePacket =>
    simp only [start] at h
    split_ifs at h <;> cases h <;> exact .inl ⟨rfl, rfl⟩
  | heartbeat interval =>
    simp only [start] at h
    split_ifs at h <;> cases h <;> exact .inl ⟨rfl, rfl⟩
  | disconnect => cases h; exact .inr ⟨rfl, rfl, rfl⟩

/-! ## The invariant -/

/-- The steps of calls are in order: a disconnect begins only when no connect is between storing the
stream and the state and no login between storing the token and the state, a connect stores its
stream only when no disconnect is in progress, a login stores its token only while the session is
open, and a receive that takes the stream out can put it back. -/
def Orderly (s : Sys) : Event → Prop
  | .start .disconnect => ∀ p ∈ s.calls, p.stage ≠ .storing ∧ p.stage ≠ .tokened
  | .start _ => True
  | .act _ (.convert (some _)) => s.shared.stream = none
  | .act i _ =>
    match s.calls[i]? with
    | some (.connStream _) => ∀ q ∈ s.calls, q.stage ≠ .closing ∧ q.stage ≠ .taken
    | some (.loginToken _) => s.shared.isSessionOpen = true
    | _ => True
  | .env e => nomatch e

instance (s : Sys) (e : Event) : Decidable (Orderly s e) := by
  unfold Orderly
  split
  · infer_instance
  · infer_instance
  · infer_instance
  · split <;> infer_instance
  · rename_i e; exact nomatch e

/-- What holds while a call is at its stage. -/
def Holds (g : Shared) : Stage → Prop
  | .quiet => True
  | .storing => g.stream ≠ none
  | .tokened => g.isSessionOpen = true ∧ g.token ≠ none
  | .closing => g.isSessionOpen = false
  | .taken => g.isSessionOpen = false ∧ g.stream = none

structure Inv (s : Sys) : Prop where
  stream : s.shared.isSessionOpen = true → s.shared.stream ≠ none
  session : s.shared.stream ≠ none →
    s.shared.isSessionOpen = true ∨ ∃ p ∈ s.calls, p.stage = .storing ∨ p.stage = .closing
  token : s.shared.state = .loggedIn → s.shared.token ≠ none
  stages : ∀ p ∈ s.calls, Holds s.shared p.stage
  apart : ∀ p ∈ s.calls, p.stage = .closing ∨ p.stage = .taken → ∀ q ∈ s.calls, q.stage ≠ .storing

theorem isSessionOpen_congr {g g' : Shared} (h : g'.state = g.state) : g'.isSessionOpen = g.isSessionOpen := by
  simp only [Shared.isSessionOpen, h]

theorem Holds.congr {g g' : Shared} (h : SameSession g g') {st : Stage} (hs : Holds g st) : Holds g' st := by
  obtain ⟨h1, h2, h3⟩ := h
  have ho := isSessionOpen_congr h1
  cases st <;> simp only [Holds, ho, h2, h3] at * <;> exact hs

theorem Inv.start {s : Sys} {g : Shared} {op : Op} {p : Pc} (h : Inv s) (hc : Orderly s (.start op))
    (hs : start s.shared op = some (g, p)) : Inv ⟨g, s.calls ++ [p]⟩ := by
  rcases start_effect hs with ⟨rfl, hp⟩ | ⟨rfl, rfl, rfl⟩
  · refine ⟨h.stream, fun hm => ?_, h.token, forall_append h.stages (by rw [hp]; trivial), ?_⟩
    · exact (h.session hm).imp_right fun ⟨x, hx, hst⟩ => ⟨x, List.mem_append_left _ hx, hst⟩
    · refine forall_append (fun x hx hst => forall_append (h.apart x hx hst) (by rw [hp]; decide)) fun hst => ?_
      rw [hp] at hst; rcases hst with hst | hst <;> cases hst
  · -- the new call announces closing: nothing is half stored, by the condition
    refine ⟨fun ho => (by cases ho), fun _ => .inr ⟨_, List.mem_append_right _ (List.mem_singleton_self _), .inr rfl⟩,
      fun hl => (by cases hl), forall_append (fun x hx => ?_) rfl, ?_⟩
    · have hx' := h.stages x hx
      obtain ⟨h1, h2⟩ := hc x hx
      cases hst : x.stage with
      | quiet => trivial
      | storing => exact absurd hst h1
      | tokened => exact absurd hst h2
      | closing => rfl
      | taken => rw [hst] at hx'; exact ⟨rfl, hx'.2⟩
    · exact fun x _ _ => forall_append (fun y hy => (hc y hy).1) (by decide)

/-! ### What the calls hold after a step -/

/-- With no disconnect in progress, a step that leaves a stream and closes nothing. -/
theorem Inv.stages_open {s : Sys} {g : Shared} (h : Inv s)
    (hno : ∀ x ∈ s.calls, x.stage ≠ .closing ∧ x.stage ≠ .taken) (hm : g.stream ≠ none)
    (ho : s.shared.isSessionOpen = true → g.isSessionOpen = true) (ht : g.token = s.shared.token) :
    ∀ x ∈ s.calls, Holds g x.stage := by
  intro x hx
  have hx' := h.stages x hx
  obtain ⟨hclosing, htaken⟩ := hno x hx
  cases hst : x.stage with
  | quiet => trivial
  | storing => exact hm
  | tokened =>
    rw [hst] at hx'
    exact ⟨ho hx'.1, fun hn => hx'.2 (ht ▸ hn)⟩
  | closing => exact absurd hst hclosing
  | taken => exact absurd hst htaken

/-- A disconnect has closed the session: no login is past its token, and with the stream gone every
disconnect has what it needs. -/
theorem Inv.stages_closed {s : Sys} {g : Shared} (h : Inv s) (hno : ∀ x ∈ s.calls, x.stage ≠ .storing)
    (hclosed : s.shared.isSessionOpen = false) (ho : g.isSessionOpen = false) (hm : g.stream = none) :
    ∀ x ∈ s.calls, Holds g x.stage := by
  intro x hx
  have hx' := h.stages x hx
  cases hst : x.stage with
  | quiet => trivial
  | storing => exact absurd hst (hno x hx)
  | tokened =>
    rw [hst] at hx'
    exact absurd (hclosed.symm.trans hx'.1) Bool.false_ne_true
  | closing => exact ho
  | taken => exact ⟨ho, hm⟩

/-- A call goes on to a stage that is neither storing nor part of a disconnect. -/
theorem Inv.apart_set {s : Sys} {i : Nat} {q : Pc} (h : Inv s) (hq : q.stage = .quiet ∨ q.stage = .tokened) :
    ∀ x ∈ s.calls.set i q, x.stage = .closing ∨ x.stage = .taken → ∀ y ∈ s.calls.set i q, y.stage ≠ .storing := by
  apply forall_set
  · intro x hx hst
    apply forall_set (h.apart x hx hst)
    rcases hq with hq | hq <;> rw [hq] <;> exact Stage.noConfusion
  · intro hst
    rcases hq with hq | hq <;> rw [hq] at hst <;> rcases hst with hst | hst <;> cases hst

/-- A call goes on to a stage that is no part of a disconnect, and there is no disconnect. -/
theorem apart_of_none {calls : List Pc} {i : Nat} {q : Pc}
    (hno : ∀ x ∈ calls, x.stage ≠ .closing ∧ x.stage ≠ .taken) (hq : q.stage ≠ .closing ∧ q.stage ≠ .taken) :
    ∀ x ∈ calls.set i q, x.stage = .closing ∨ x.stage = .taken → ∀ y ∈ calls.set i q, y.stage ≠ .storing := by
  apply forall_set
  · intro x hx hst
    exact absurd hst (not_or.2 (hno x hx))
  · intro hst
    exact absurd hst (not_or.2 hq)

/-! ### Where no disconnect is in progress -/

theorem Inv.noDisconnect_of_storing {s : Sys} {p : Pc} (h : Inv s) (hp : p ∈ s.calls) (hst : p.stage = .storing) :
    ∀ x ∈ s.calls, x.stage ≠ .closing ∧ x.stage ≠ .taken := by
  intro x hx
  constructor
  · exact fun hc => h.apart x hx (.inl hc) p hp hst
  · exact fun ht => h.apart x hx (.inr ht) p hp hst

theorem Inv.noDisconnect_of_open {s : Sys} (h : Inv s) (hopen : s.shared.isSessionOpen = true) :
    ∀ x ∈ s.calls, x.stage ≠ .closing ∧ x.stage ≠ .taken := by
  intro x hx
  have hx' := h.stages x hx
  constructor
  · intro hst
    rw [hst] at hx'
    exact Bool.false_ne_true (hx'.symm.trans hopen)
  · intro hst
    rw [hst] at hx'
    exact Bool.false_ne_true (hx'.1.symm.trans hopen)

/-! ### The invariant after a step -/

theorem Inv.quiet {s : Sys} {i : Nat} {p q : Pc} {g : Shared} (h : Inv s) (hi : s.calls[i]? = some p)
    (hp : p.stage = .quiet) (hq : q.stage = .quiet) (hsame : SameSession s.shared g) : Inv ⟨g, s.calls.set i q⟩ := by
  have hstages : ∀ x ∈ s.calls, Holds g x.stage := fun x hx => (h.stages x hx).congr hsame
  obtain ⟨h1, h2, h3⟩ := hsame
  have ho := isSessionOpen_congr h1
  refine ⟨fun hopen => ?_, fun hm => ?_, fun hl => ?_, forall_set hstages ?_, h.apart_set (.inl hq)⟩
  · rw [h2]; exact h.stream (ho ▸ hopen)
  · rw [h2] at hm
    refine (h.session hm).imp (fun hopen => ho.trans hopen) (exists_set hi ?_)
    rw [hp]; rintro (hx | hx) <;> cases hx
  · rw [h3]; exact h.token (h1 ▸ hl)
  · rw [hq]; trivial

theorem Inv.storeToken {s : Sys} {i : Nat} (h : Inv s) (hopen : s.shared.isSessionOpen = true) (t : String) :
    Inv ⟨{ s.shared with token := some t }, s.calls.set i (.loginState t)⟩ := by
  have ht : (some t : Option String) ≠ none := Option.some_ne_none t
  refine ⟨h.stream, fun _ => .inl hopen, fun _ => ht, forall_set (fun x hx => ?_) ⟨hopen, ht⟩, h.apart_set (.inr rfl)⟩
  have hx' := h.stages x hx
  cases hst : x.stage <;> rw [hst] at hx'
  case tokened => exact ⟨hx'.1, ht⟩
  all_goals exact hx'

/-- A step of a disconnect once nothing is half stored, with the stream gone after it. -/
theorem Inv.shut {s : Sys} {i : Nat} {q : Pc} {g : Shared} (h : Inv s) (hno : ∀ x ∈ s.calls, x.stage ≠ .storing)
    (hclosed : s.shared.isSessionOpen = false) (ho : g.isSessionOpen = false) (hm : g.stream = none)
    (hq : q.stage = .quiet ∨ q.stage = .taken) : Inv ⟨g, s.calls.set i q⟩ := by
  refine ⟨fun hopen => ?_, fun hne => absurd hm hne, fun hl => ?_,
    forall_set (h.stages_closed hno hclosed ho hm) ?_, fun x _ _ => forall_set hno ?_⟩
  · exact absurd (ho.symm.trans hopen) Bool.false_ne_true
  · exact absurd (ho.symm.trans (Shared.isSessionOpen_iff.2 (.inr hl))) Bool.false_ne_true
  · rcases hq with hq | hq <;> rw [hq]
    · trivial
    · exact ⟨ho, hm⟩
  · rcases hq with hq | hq <;> rw [hq] <;> exact Stage.noConfusion

theorem Inv.act {s : Sys} {i : Nat} {a : Act} {p q : Pc} {g : Shared} (h : Inv s) (hc : Orderly s (.act i a))
    (hi : s.calls[i]? = some p) (hs : act s.shared p a = some (g, q)) : Inv ⟨g, s.calls.set i q⟩ := by
  have hp : p ∈ s.calls := mem_of_get hi
  have hconv : ∀ e, a = .convert (some e) → s.shared.stream = none := by
    rintro e rfl; exact hc
  have hpst := h.stages p hp
  cases act_effect hs hconv with
  | quiet hq hq' hsame => exact h.quiet hi hq hq' hsame
  | store addr =>
    have hno : ∀ x ∈ s.calls, x.stage ≠ .closing ∧ x.stage ≠ .taken := by
      cases a with
      | go => simpa only [Orderly, hi] using hc
      | _ => cases hs
    have hm : (some addr : Option String) ≠ none := Option.some_ne_none addr
    exact ⟨fun _ => hm, fun _ => .inr ⟨_, mem_set_self hi, .inl rfl⟩, h.token,
      forall_set (h.stages_open hno hm id rfl) hm, apart_of_none hno ⟨Stage.noConfusion, Stage.noConfusion⟩⟩
  | connected =>
    have hno := h.noDisconnect_of_storing hp rfl
    exact ⟨fun _ => hpst, fun _ => .inl rfl, fun hl => (by cases hl),
      forall_set (h.stages_open hno hpst (fun _ => rfl) rfl) trivial,
      apart_of_none hno ⟨Stage.noConfusion, Stage.noConfusion⟩⟩
  | token t =>
    refine h.storeToken ?_ t
    cases a with
    | go => simpa only [Orderly, hi] using hc
    | _ => cases hs
  | loggedIn t =>
    obtain ⟨hopen, htok⟩ : s.shared.isSessionOpen = true ∧ s.shared.token ≠ none := hpst
    have hno := h.noDisconnect_of_open hopen
    exact ⟨fun _ => h.stream hopen, fun _ => .inl rfl, fun _ => htok,
      forall_set (h.stages_open hno (h.stream hopen) (fun _ => rfl) rfl) trivial, h.apart_set (.inl rfl)⟩
  | take =>
    have hclosed : s.shared.isSessionOpen = false := hpst
    exact h.shut (h.apart _ hp (.inl rfl)) hclosed hclosed rfl (.inr rfl)
  | clear hq hq' h1 h2 =>
    rw [hq] at hpst
    obtain ⟨hclosed, hnone⟩ := hpst
    exact h.shut (h.apart _ hp (.inr hq)) hclosed ((isSessionOpen_congr h1).trans hclosed) (h2.trans hnone) (.inr hq')
  | closed =>
    obtain ⟨hclosed, hnone⟩ : s.shared.isSessionOpen = false ∧ s.shared.stream = none := hpst
    exact h.shut (h.apart _ hp (.inr rfl)) hclosed rfl hnone (.inl rfl)

theorem step_inv (s : Sys) (e : Event) (s' : Sys) (h : Inv s) (hc : Orderly s e) (hs : step s e = some s') :
    Inv s' := by
  cases e with
  | start op =>
    obtain ⟨g, p, hr, rfl⟩ := step_start hs
    exact h.start hc hr
  | act i a =>
    obtain ⟨p, g, q, hi, hr, rfl⟩ := step_act hs
    exact h.act hc hi hr
  | env e => exact nomatch e

/-- A fresh client with no calls. -/
def init : Sys := ⟨{}, []⟩

theorem Inv.init : Inv init where
  stream h := by cases h
  session h := absurd rfl h
  token h := by cases h
  stages p h := by cases h
  apart p h := by cases h

theorem finished_stage {p : Pc} (h : p.finished = true) : p.stage = .quiet := by
  cases p <;> first | rfl | cases h

/-- In every orderly run, whenever no call is in progress the session is open exactly when the slot
holds a stream, and a logged-in session has a token. -/
theorem session_invariant {es : List Event} {s : Sys} (hc : Run.Along step Orderly init es)
    (hs : Run.exec step init es = some s) (hq : ∀ p ∈ s.calls, p.finished = true) :
    ((s.shared.state = .connected ∨ s.shared.state = .loggedIn) ↔ s.shared.stream.isSome) ∧
      (s.shared.state = .loggedIn → s.shared.token.isSome) := by
  have h : Inv s := Run.exec_inv step_inv es _ _ Inv.init hc hs
  refine ⟨?_, fun hl => Option.isSome_iff_ne_none.2 (h.token hl)⟩
  rw [← Shared.isSessionOpen_iff, Option.isSome_iff_ne_none]
  refine ⟨h.stream, fun hm => (h.session hm).resolve_right ?_⟩
  rintro ⟨p, hp, hst⟩
  rw [finished_stage (hq p hp)] at hst
  rcases hst with hst | hst <;> cases hst

/-- Connect, log in past the send, receive once, disconnect, and connect again. -/
def reconnect : List Event :=
  [.start (.connect ⟨"tcp://host:1", none, 500⟩), .act 0 (.io .ok), .act 0 .go, .act 0 .go, .act 0 .go, .act 0 .go,
    .start (.login "alice" "secret"), .act 1 .go, .act 1 .go, .act 1 (.io .ok), .act 1 .go, .act 1 .go,
    .act 1 (.convert none), .act 1 (.read .expired),
    .start .disconnect, .act 2 .go, .act 2 .go, .act 2 .go, .act 2 .go, .act 2 .go,
    .start (.connect ⟨"host:2", none, 0⟩), .act 3 (.io .ok), .act 3 .go, .act 3 .go, .act 3 .go, .act 3 .go]

theorem session_invariant_reconnect : ∃ s, Run.exec step init reconnect = some s ∧
    s.shared.state = .connected ∧ s.shared.stream.isSome := by
  have hk : (Run.exec step init reconnect).map (fun s => (s.shared.state, s.calls.all Pc.finished))
      = some (.connected, true) := by decide +kernel
  obtain ⟨s, hs, hk⟩ := Option.map_eq_some_iff.1 hk
  rw [Prod.mk.injEq] at hk
  exact ⟨s, hs, hk.1, (session_invariant (by decide +kernel) hs (List.all_eq_true.1 hk.2)).1.1 (.inl hk.1)⟩

/-- A receive call on a fresh connection, whose stream cannot be cloned. -/
def failedClone : List Event :=
  [.start (.connect ⟨"host:1", none, 500⟩), .act 0 (.io .ok), .act 0 .go, .act 0 .go, .act 0 .go, .act 0 .go,
    .start .receivePacket, .act 1 .go, .act 1 .go, .act 1 (.convert (some "too many open files"))]

/-- The stream is gone and the state still says connected. -/
theorem session_invariant_fails : ∃ s, Run.exec step init failedClone = some s ∧
    (∀ p ∈ s.calls, p.finished = true) ∧ s.shared.state = .connected ∧ s.shared.stream.isSome = false := by
  have hk : (Run.exec step init failedClone).map
      (fun s => (s.calls.all Pc.finished, s.shared.state, s.shared.stream.isSome))
        = some (true, .connected, false) := by
    decide +kernel
  obtain ⟨s, hs, hk⟩ := Option.map_eq_some_iff.1 hk
  rw [Prod.mk.injEq, Prod.mk.injEq] at hk
  exact ⟨s, hs, List.all_eq_true.1 hk.1, hk.2.1, hk.2.2⟩

end NapCat.QQClient.Tcp
