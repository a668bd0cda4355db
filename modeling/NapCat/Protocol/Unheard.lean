/-
Listeners whose events nobody hears. A send without a receiver breaks out of a loop in either backend: of the loop
of the task in `QQClientBackend`, which ends, but only of the loop over the items of one response in
`OneBotHttpBackend`, whose task goes on to its next request unless it finds a stop by its flags.
-/
import NapCat.Protocol.OneBotListener
import NapCat.Protocol.QQBackend
import NapCat.Lib.Leaving

namespace NapCat

open Leaving (Party Leaves Countdown)

namespace OneBotHttp

/-! ## The items of one response -/

/-- What the loop over the items has sent, whether it has decoded an event, and whether one of them was not heard. -/
structure Batch where
  sent : List ProtocolEvent := []
  delivered : Bool := false
  unheard : Bool := false

/-- The loop from item `i` on, where `heard` says of each item whether its send finds a receiver. -/
def sendItems (heard : Nat → Bool) (b : Batch) : Nat → List Json → Batch
  | _, [] => b
  | i, raw :: rest =>
    match decodeItem raw with
    | .ok event =>
      let b := { b with sent := b.sent ++ [event], delivered := true }
      if heard i then sendItems heard b (i + 1) rest else { b with unheard := true }
    -- a warning that is not heard breaks nothing
    | .error e => sendItems heard { b with sent := b.sent ++ [decodeWarning e] } (i + 1) rest

/-- Wherever the loop is broken, an event has been decoded. -/
theorem sendItems_delivered (heard : Nat → Bool) : ∀ (items : List Json) (b : Batch) (i : Nat),
    (sendItems heard b i items).delivered = (b.delivered || delivers items)
  | [], b, _ => (Bool.or_false _).symm
  | raw :: rest, b, i => by
    rw [sendItems, delivers, List.any_cons]
    cases decodeItem raw with
    | ok event =>
      dsimp only
      split
      · rw [sendItems_delivered heard rest]
        simp [Except.isOk, Except.toBool]
      · simp [Except.isOk, Except.toBool]
    | error e => exact sendItems_delivered heard rest _ _

/-- An event that is not heard is a decoded one. -/
theorem delivers_of_unheard (heard : Nat → Bool) : ∀ (items : List Json) (b : Batch) (i : Nat),
    b.unheard = false → (sendItems heard b i items).unheard = true → delivers items = true
  | [], b, _, hb, h => by
    rw [sendItems, hb] at h
    cases h
  | raw :: rest, b, i, hb, h => by
    rw [sendItems] at h
    rw [delivers, List.any_cons]
    cases hd : decodeItem raw with
    | ok event => rfl
    | error e =>
      rw [hd] at h
      exact delivers_of_unheard heard rest { b with sent := b.sent ++ [decodeWarning e] } (i + 1) hb h

/-- With a receiver for all of them or for none the loop sends what is sent for a response as a whole. -/
theorem sendItems_const (subscribed : Bool) : ∀ (items : List Json) (b : Batch) (i : Nat),
    (sendItems (fun _ => subscribed) b i items).sent = b.sent ++ notifyItems subscribed items
  | [], b, _ => (List.append_nil _).symm
  | raw :: rest, b, i => by
    rw [sendItems, notifyItems]
    cases decodeItem raw with
    | ok event =>
      dsimp only
      cases subscribed with
      | true =>
        rw [if_pos rfl, sendItems_const true rest]
        simp
      | false => simp
    | error e =>
      dsimp only
      rw [sendItems_const subscribed rest]
      simp

/-- The loop over the items of a body. -/
def sendBatch (raw : Json) (heard : Nat → Bool) : Batch := sendItems heard {} 0 (OneBotListenEnvelope.fromJson raw).data

/-! ## Runs -/

/-- The steps of the backend, and a response whose items each find receivers or none. -/
inductive Move
  | backend (e : Event)
  | batch (t : Nat) (raw : Json) (heard : Nat → Bool)

def move (config : OneBotBackendConfig) (s : Sys) : Move → Option Sys
  | .backend e => step config s e
  | .batch t raw heard =>
    if s.shared.listeners[t]? = some .polling then
      let b := sendBatch raw heard
      some ⟨{ s.shared.notify t b.sent with
        listeners := s.shared.listeners.set t (afterSleep (if b.delivered then none else some 20)) }, s.calls⟩
    else none

/-- A response that finds the same for all items is the backend's own step. -/
theorem move_batch_const (config : OneBotBackendConfig) (s : Sys) (t : Nat) (raw : Json) (subscribed : Bool) :
    move config s (.batch t raw fun _ => subscribed) =
      move config s (.backend (.env (.listener t (.respond (.body raw) subscribed)))) := by
  have hsent : (sendBatch raw fun _ => subscribed).sent = (handleResponse subscribed (.body raw)).1 :=
    sendItems_const subscribed _ {} 0
  have hslept : (if (sendBatch raw fun _ => subscribed).delivered then none else some 20) =
      (handleResponse subscribed (.body raw)).2 := by
    rw [sendBatch, sendItems_delivered]
    rfl
  simp only [move, hsent, hslept, step, Threads.step, program, env]
  split_ifs with hl
  · rw [hl]
    rfl
  · cases hg : s.shared.listeners[t]? with
    | none => rfl
    | some l =>
      cases l <;> first | rfl | exact absurd hg hl

/-- The response to a listener in a step, with what its items find. -/
def Move.response : Move → Option (Nat × Json × (Nat → Bool))
  | .batch t raw heard => some (t, raw, heard)
  | .backend (.env (.listener t (.respond (.body raw) subscribed))) => some (t, raw, fun _ => subscribed)
  | _ => none

/-- An event that the step decodes for listener `t` is not heard. -/
def Move.Unheard (t : Nat) (m : Move) : Prop :=
  ∃ raw heard, m.response = some (t, raw, heard) ∧ (sendBatch raw heard).unheard = true

/-- A new listen is not refused for the old one. -/
def Shared.Admits (g : Shared) : Prop := g.listening = false ∧ (act g .swapping .go).map Prod.snd = some .spawning

/-- Listener `t`: it asks for more when it has decided on a request or awaits its response. -/
def party (t : Nat) : Party Sys Move where
  own
    | .backend (.env (.listener u .go)) => u = t
    | _ => false
  asks s := s.shared.listeners[t]? = some .requesting ∨ s.shared.listeners[t]? = some .polling
  ended s := s.shared.listeners[t]? = some .ended
  settled s := s.shared.Admits

/-- If the step is the one in which listener `t`, found connected, looks for a stop, there is one. -/
def FindsStop (t : Nat) (s : Sys) (m : Move) : Prop :=
  (party t).own m = true → s.shared.listeners[t]? = some .checkingStop → s.shared.stopRequested = true

/-- How many steps a listener has left, where it is between two requests. -/
def Listener.left : Listener → Option Nat
  | .checkingConnected => some 4
  | .checkingStop => some 3
  | .closing => some 2
  | .clearing => some 1
  | .ended => some 0
  | _ => none

def left (t : Nat) (s : Sys) : Option Nat := s.shared.listeners[t]?.bind Listener.left

theorem begin_listeners {config : OneBotBackendConfig} {g g' : Shared} {op : Op} {p : Pc}
    (h : begin config g op = some (g', p)) : g'.listeners = g.listeners := by
  cases op <;> cases h <;> rfl

theorem act_listeners {g g' : Shared} {p q : Pc} {a : Act} (h : act g p a = some (g', q)) :
    g.listeners <+: g'.listeners := by
  unfold act at h
  split at h
  · split at h <;> cases h <;> exact List.prefix_rfl
  all_goals first | cases h; exact List.prefix_rfl | cases h
  exact List.prefix_append _ _

/-- A step that is not listener `t`'s leaves it where it is. -/
theorem move_get {config : OneBotBackendConfig} {s s' : Sys} {m : Move} {t : Nat} {l : Listener}
    (hs : move config s m = some s') (hl : s.shared.listeners[t]? = some l) :
    ((party t).own m = false ∧ s'.shared.listeners[t]? = some l) ∨
    (∃ a g q, m = .backend (.env (.listener t a)) ∧ l.step config s.shared t a = some (g, q) ∧
      s' = ⟨{ g with listeners := s.shared.listeners.set t q }, s.calls⟩) ∨
    (l = .polling ∧ ∃ raw heard, m = .batch t raw heard) := by
  cases m with
  | batch u raw heard =>
    simp only [move, Option.ite_none_right_eq_some, Option.some.injEq] at hs
    obtain ⟨hu, rfl⟩ := hs
    by_cases he : u = t
    · subst he
      exact .inr (.inr ⟨Option.some.inj (hl.symm.trans hu), raw, heard, rfl⟩)
    · exact .inl ⟨rfl, (List.getElem?_set_ne he).trans hl⟩
  | backend e =>
    have hs : step config s e = some s' := hs
    cases e with
    | start op =>
      obtain ⟨g, p, hb, rfl⟩ := Threads.step_start hs
      exact .inl ⟨rfl, (congrArg (·[t]?) (begin_listeners hb)).trans hl⟩
    | act i a =>
      obtain ⟨p, g, q, -, ha, rfl⟩ := Threads.step_act hs
      refine .inl ⟨rfl, ?_⟩
      obtain ⟨more, hmore⟩ := act_listeners ha
      rw [← hmore, List.getElem?_append_left (List.getElem?_eq_some_iff.1 hl).1]
      exact hl
    | env e =>
      obtain ⟨u, a⟩ := e
      obtain ⟨g, he, rfl⟩ := Threads.step_env hs
      obtain ⟨r, g', q, hr, hstep, rfl⟩ := env_listener he
      by_cases hu : u = t
      · subst hu
        obtain rfl : l = r := Option.some.inj (hl.symm.trans hr)
        exact .inr (.inl ⟨a, g', q, rfl, hstep, rfl⟩)
      · refine .inl ⟨?_, (List.getElem?_set_ne hu).trans hl⟩
        cases a with
        | go => exact decide_eq_false hu
        | respond r subscribed => rfl

/-- A listener between two requests only goes on: nearer to its end, unless it finds no stop. -/
theorem step_left {config : OneBotBackendConfig} {g g' : Shared} {t k : Nat} {l q : Listener} {a : ListenerAct}
    (hk : l.left = some k) (hs : l.step config g t a = some (g', q)) :
    a = .go ∧ ((l = .checkingStop → g.stopRequested = true) → ∃ k', q.left = some k' ∧ k' < k) := by
  cases l with
  | checkingConnected =>
    cases hk; cases a <;> cases hs
    refine ⟨rfl, fun _ => ?_⟩
    cases g.connected with
    | true => exact ⟨3, rfl, by decide⟩
    | false => exact ⟨2, rfl, by decide⟩
  | checkingStop =>
    cases hk; cases a <;> cases hs
    refine ⟨rfl, fun hstop => ?_⟩
    rw [if_pos (hstop rfl)]
    exact ⟨2, rfl, by decide⟩
  | closing => cases hk; cases a <;> cases hs; exact ⟨rfl, fun _ => ⟨1, rfl, by decide⟩⟩
  | clearing => cases hk; cases a <;> cases hs; exact ⟨rfl, fun _ => ⟨0, rfl, by decide⟩⟩
  | ended => cases a <;> cases hs
  | greeting | requesting | polling | sleeping ms => cases hk

/-- The step that ends a listener clears `listening`. -/
theorem step_ended {config : OneBotBackendConfig} {g g' : Shared} {t : Nat} {l q : Listener} {a : ListenerAct}
    (hs : l.step config g t a = some (g', q)) (hq : q = .ended) : g'.listening = false := by
  unfold Listener.step at hs
  split at hs
  case h_8 => cases hs; rfl
  case h_2 | h_3 =>
    cases hs
    split at hq <;> cases hq
  case h_5 =>
    cases hs
    unfold afterSleep at hq
    split at hq <;> cases hq
  all_goals first | cases hs; cases hq | cases hs

theorem admits_of_cleared {g : Shared} (h : g.listening = false) : g.Admits :=
  ⟨h, by rw [act, h]; rfl⟩

theorem left_eq {s : Sys} {t k : Nat} (h : left t s = some k) :
    ∃ l, s.shared.listeners[t]? = some l ∧ l.left = some k := Option.bind_eq_some_iff.1 h

theorem left_zero {l : Listener} (h : l.left = some 0) : l = .ended := by
  cases l <;> first | rfl | cases h

theorem countdown (config : OneBotBackendConfig) (t : Nat) :
    Countdown (move config) (FindsStop t) (party t) (left t) where
  lowers s m s' k hk hc hs := by
    obtain ⟨l, hl, hlk⟩ := left_eq hk
    rcases move_get hs hl with ⟨hown, hl'⟩ | ⟨a, g, q, rfl, hstep, rfl⟩ | ⟨rfl, -⟩
    · exact ⟨k, by rw [left, hl']; exact hlk, by rw [hown]; exact le_rfl⟩
    · obtain ⟨rfl, hlower⟩ := step_left hlk hstep
      obtain ⟨k', hk', hlt⟩ := hlower fun hcheck => hc (decide_eq_true rfl) (hcheck ▸ hl)
      refine ⟨k', ?_, ?_⟩
      · rw [left, List.getElem?_set_self (List.getElem?_eq_some_iff.1 hl).1]
        exact hk'
      · split <;> omega
    · cases hlk
  silent s k hk hasks := by
    obtain ⟨l, hl, hlk⟩ := left_eq hk
    rcases hasks with ha | ha <;> cases hl.symm.trans ha <;> cases hlk
  ended s k hk := by
    obtain ⟨l, hl, hlk⟩ := left_eq hk
    constructor
    · intro hend
      cases hl.symm.trans hend
      exact (Option.some.inj hlk).symm
    · rintro rfl
      exact hl.trans (congrArg some (left_zero hlk))
  able s k hk := by
    obtain ⟨l, hl, hlk⟩ := left_eq hk
    refine ⟨.backend (.env (.listener t .go)), decide_eq_true rfl, ?_⟩
    simp only [move, step, Threads.step, program, env, hl]
    cases l <;> cases hlk <;> rfl
  settles s m s' k hk hs hk' := by
    obtain ⟨l, hl, hlk⟩ := left_eq hk
    rcases move_get hs hl with ⟨-, hl'⟩ | ⟨a, g, q, rfl, hstep, rfl⟩ | ⟨rfl, -⟩
    · rw [left, hl'] at hk'
      cases hlk.symm.trans hk'
    · rw [left, List.getElem?_set_self (List.getElem?_eq_some_iff.1 hl).1] at hk'
      have hadmits : g.Admits := admits_of_cleared (step_ended hstep (left_zero hk'))
      exact hadmits
    · cases hlk

theorem move_response {config : OneBotBackendConfig} {s : Sys} {m : Move} {t : Nat} {raw : Json} {heard : Nat → Bool}
    (h : m.response = some (t, raw, heard)) : move config s m = move config s (.batch t raw heard) := by
  unfold Move.response at h
  split at h
  · cases h; rfl
  · cases h; exact (move_batch_const config s t raw _).symm
  · cases h

/-- After the step that was not heard, the listener is back at its loop condition. -/
theorem move_unheard {config : OneBotBackendConfig} {s s' : Sys} {m : Move} {t : Nat} (h : m.Unheard t)
    (hs : move config s m = some s') : s'.shared.listeners[t]? = some .checkingConnected := by
  obtain ⟨raw, heard, hm, hu⟩ := h
  have hbatch : move config s (.batch t raw heard) = some s' := (move_response hm).symm.trans hs
  simp only [move, Option.ite_none_right_eq_some, Option.some.injEq] at hbatch
  obtain ⟨hl, rfl⟩ := hbatch
  have hd : (sendBatch raw heard).delivered = true := by
    rw [sendBatch, sendItems_delivered, delivers_of_unheard heard _ {} 0 rfl hu]
    rfl
  rw [hd]
  exact List.getElem?_set_self (List.getElem?_eq_some_iff.1 hl).1

theorem own_eq {t : Nat} {m : Move} (h : (party t).own m = true) : m = .backend (.env (.listener t .go)) := by
  unfold party at h
  dsimp only at h
  split at h
  · rw [of_decide_eq_true h]
  · cases h

/-- A listener that looks for a stop and finds none has decided on a request. -/
theorem asks_of_not_findsStop {config : OneBotBackendConfig} {s : Sys} {m : Move} {t : Nat} (h : ¬ FindsStop t s m) :
    ∃ s' ∈ move config s m, (party t).asks s' := by
  obtain ⟨hown, h⟩ := Classical.not_imp.1 h
  obtain ⟨hl, hstop⟩ := Classical.not_imp.1 h
  obtain rfl := own_eq hown
  have hstep : Listener.step config s.shared t .checkingStop .go = some (s.shared, .requesting) := by
    rw [Listener.step, if_neg hstop]
  refine ⟨⟨{ s.shared with listeners := s.shared.listeners.set t .requesting }, s.calls⟩, ?_,
    .inl (List.getElem?_set_self (List.getElem?_eq_some_iff.1 hl).1)⟩
  simp only [move, step, Threads.step, program, env, hl, Option.bind_some, hstep]
  rfl

/-- After it, the listener leaves exactly if, where it looks for a stop before its next request, it finds one. -/
theorem leaves_iff {config : OneBotBackendConfig} {s s' : Sys} {m : Move} {t : Nat} (h : m.Unheard t)
    (hs : move config s m = some s') (ms : List Move) :
    Leaves (move config) (party t) 4 s' ms ↔ Run.Along (move config) (FindsStop t) s' ms := by
  have hcount := countdown config t
  have hleft : left t s' = some 4 := by rw [left, move_unheard h hs]; rfl
  constructor
  · intro hl
    refine (Run.along_iff_reached (I := fun s => ∃ k, left t s = some k) (P := fun s => ¬ (party t).asks s)
      ?_ ?_ ?_ ms s' ⟨4, hleft⟩).2 hl.silent
    · rintro s ⟨k, hk⟩
      exact hcount.silent s k hk
    · rintro s m s' ⟨k, hk⟩ hc hs
      obtain ⟨k', hk', -⟩ := hcount.lowers s m s' k hk hc hs
      exact ⟨k', hk'⟩
    · intro s m _ hc
      obtain ⟨s', hs, hasks⟩ := asks_of_not_findsStop hc
      exact ⟨s', hs, not_not_intro hasks⟩
  · exact hcount.leaves hleft (fun h0 => by cases h0)

end OneBotHttp

namespace QQBackend

/-- A packet that listener `t` decodes to an event is not heard. -/
def Unheard (t : Nat) (e : Event) : Prop :=
  ∃ packet event, e = .env (.listener t (.received (.ok (some packet)) false)) ∧
    decodeInboundPacket packet = .ok (some event)

/-- A new listen is not refused for the old one. -/
def Shared.Admits (g : Shared) : Prop :=
  g.listening = false ∧ (g.connected = true → (start g .listen).2 = .call .listen)

def posOf (t : Nat) (g : Shared) : Option ListenerAt := g.listeners[t]?.map (·.pos)

/-- Listener `t`: it asks for more when it awaits a packet. -/
def party (t : Nat) : Party Sys Event where
  own
    | .env (.listener u _) => u = t
    | _ => false
  asks s := posOf t s.shared = some .receiving
  ended s := posOf t s.shared = some .ended
  settled s := s.shared.Admits

theorem posOf_start {g : Shared} (t : Nat) (op : Op) : posOf t (start g op).1 = posOf t g := by
  cases op with
  | connect endpoint | disconnect => rfl
  | listen =>
    rw [start]
    split_ifs <;> rfl

theorem posOf_abort {g : Shared} {t : Nat} (h : posOf t g = some .ended) : posOf t g.abortListener = some .ended := by
  unfold Shared.abortListener
  split
  · exact h
  · obtain ⟨l, hl, hpos⟩ := Option.map_eq_some_iff.1 h
    rw [posOf, List.getElem?_modify, hl]
    split <;> simp [hpos, ListenerAt.abort]

theorem posOf_act {g : Shared} {p : Pc} {a : Act} {r : Shared × Next} {t : Nat} (h : posOf t g = some .ended)
    (hs : act g p a = some r) : posOf t r.1 = some .ended := by
  unfold act at hs
  split at hs
  case h_1 | h_10 => cases hs; exact posOf_abort h
  case h_13 =>
    cases hs
    obtain ⟨l, hl, hpos⟩ := Option.map_eq_some_iff.1 h
    rw [posOf, List.getElem?_append_left (List.getElem?_eq_some_iff.1 hl).1, hl]
    exact congrArg some hpos
  case h_3 | h_6 => split at hs <;> cases hs <;> exact h
  all_goals first | cases hs; exact h | cases hs

/-- A listener that has ended takes no step and is not aborted. -/
theorem ended_step {s s' : Sys} {e : Event} {t : Nat} (h : posOf t s.shared = some .ended) (hs : step s e = some s') :
    (party t).own e = false ∧ posOf t s'.shared = some .ended := by
  cases e with
  | start op =>
    rw [Turns.shared_start hs]
    exact ⟨rfl, (posOf_start t op).trans h⟩
  | act a =>
    obtain ⟨p, rest, r, -, hr, rfl⟩ := Turns.step_act hs
    rw [Turns.after_shared]
    exact ⟨rfl, posOf_act h hr⟩
  | env e =>
    obtain ⟨u, a⟩ := e
    obtain ⟨g, hr, rfl⟩ := Turns.step_env hs
    obtain ⟨l, g', l', hl, hstep, rfl⟩ := env_listener hr
    obtain ⟨⟨events, i⟩, hi, -⟩ := Option.map_eq_some_iff.1 hstep
    by_cases hu : u = t
    · subst hu
      rw [posOf, hl] at h
      have hpos : l.pos = .ended := Option.some.inj h
      unfold Listener.iteration at hi
      cases a <;> rw [hpos] at hi <;> cases hi
    · refine ⟨decide_eq_false hu, ?_⟩
      rw [posOf, List.getElem?_set_ne hu]
      exact h

def left (t : Nat) (s : Sys) : Option Nat := if posOf t s.shared = some .ended then some 0 else none

theorem left_eq {s : Sys} {t k : Nat} (h : left t s = some k) : posOf t s.shared = some .ended ∧ k = 0 := by
  unfold left at h
  split at h
  · exact ⟨by assumption, (Option.some.inj h).symm⟩
  · cases h

theorem countdown (t : Nat) : Countdown step (fun _ _ => True) (party t) (left t) where
  lowers s e s' k hk _ hs := by
    obtain ⟨hpos, rfl⟩ := left_eq hk
    obtain ⟨hown, hpos'⟩ := ended_step hpos hs
    exact ⟨0, if_pos hpos', by rw [hown]; exact le_rfl⟩
  silent s k hk hasks := by cases (left_eq hk).1.symm.trans hasks
  ended s k hk := ⟨fun _ => (left_eq hk).2, fun _ => (left_eq hk).1⟩
  able s k hk := by cases (left_eq hk).2
  settles s e s' k hk := by cases (left_eq hk).2

/-- The step that was not heard ends the listener. -/
theorem step_unheard {s s' : Sys} {e : Event} {t : Nat} (h : Unheard t e) (hs : step s e = some s') :
    posOf t s'.shared = some .ended ∧ s'.shared.listening = false := by
  obtain ⟨packet, event, rfl, hd⟩ := h
  obtain ⟨g, hr, rfl⟩ := Turns.step_env hs
  obtain ⟨l, g', l', hl, hstep, rfl⟩ := env_listener hr
  obtain ⟨⟨events, i⟩, hi, hstep⟩ := Option.map_eq_some_iff.1 hstep
  have hleave : i = .leave := by
    simp only [Listener.iteration] at hi
    split at hi
    · simp only [handleReceived, hd, Bool.false_eq_true, if_false, Option.some.injEq, Prod.mk.injEq] at hi
      exact hi.2.symm
    · cases hi
  subst hleave
  cases hstep
  rw [posOf, List.getElem?_set_self (List.getElem?_eq_some_iff.1 hl).1]
  exact ⟨rfl, rfl⟩

theorem admits_of_cleared {g : Shared} (h : g.listening = false) : g.Admits := by
  refine ⟨h, fun hc => ?_⟩
  rw [start, if_neg (not_not_intro hc), if_neg (Bool.eq_false_iff.1 h)]

/-- After it, the listener has left, whatever happens. -/
theorem leaves {s s' : Sys} {e : Event} {t : Nat} (h : Unheard t e) (hs : step s e = some s') (es : List Event) :
    Leaves step (party t) 0 s' es := by
  obtain ⟨hpos, hl⟩ := step_unheard h hs
  exact (countdown t).leaves (if_pos hpos) (fun _ => admits_of_cleared hl)
    (Run.along_of_always (fun _ _ => trivial) es s')

end QQBackend

/-- A run of a backend after a step in which an event that listener `t` has decoded is not heard. -/
inductive UnheardRun
  | qqClient (s s' : QQBackend.Sys) (e : QQBackend.Event) (t : Nat) (es : List QQBackend.Event)
      (unheard : QQBackend.Unheard t e) (stepped : QQBackend.step s e = some s')
  | oneBot (config : OneBotBackendConfig) (s s' : OneBotHttp.Sys) (m : OneBotHttp.Move) (t : Nat)
      (ms : List OneBotHttp.Move) (unheard : m.Unheard t) (stepped : OneBotHttp.move config s m = some s')

namespace UnheardRun

/-- The listener asks for nothing more and ends, and a new listen is let through. -/
def ListenerLeaves : UnheardRun → Prop
  | .qqClient _ s' _ t es _ _ => Leaves QQBackend.step (QQBackend.party t) 0 s' es
  | .oneBot config _ s' _ t ms _ _ => Leaves (OneBotHttp.move config) (OneBotHttp.party t) 4 s' ms

/-- A OneBot listener finds a stop where it looks for one before its next request. -/
def StopFound : UnheardRun → Prop
  | .qqClient .. => True
  | .oneBot config _ s' _ t ms _ _ => Run.Along (OneBotHttp.move config) (OneBotHttp.FindsStop t) s' ms

/-- After a decoded event that nobody has heard, the listener of a QQ client backend has left whatever happens, and
that of a OneBot backend leaves exactly if it finds a stop. -/
theorem listenerLeaves_iff (r : UnheardRun) : r.ListenerLeaves ↔ r.StopFound := by
  cases r with
  | qqClient s s' e t es h hs => exact iff_of_true (QQBackend.leaves h hs es) trivial
  | oneBot config s s' m t ms h hs => exact OneBotHttp.leaves_iff h hs ms

end UnheardRun

namespace OneBotHttp

instance (t : Nat) (s : Sys) (m : Move) : Decidable (FindsStop t s m) := by
  unfold FindsStop
  infer_instance

/-- A listener that awaits the response to its first request. -/
def firstRequest : List Move := (connects 0 ++ listens 1 ++ issues 0).map .backend

/-- Its response has one event, which nobody hears. -/
def oneEvent : Move :=
  .batch 0 (.obj [("data", .arr [(ProtocolEvent.warning "full").toJson])]) fun _ => false

theorem unheard_oneEvent : oneEvent.Unheard 0 := ⟨_, _, rfl, by decide +kernel⟩

/-- Three steps of the listener, from its loop condition to the next request. -/
def goesOn : List Move := List.replicate 3 (.backend (.env (.listener 0 .go)))

/-- A disconnect, and what is left of the listener then. -/
def disconnected : List Move :=
  (disconnects 2).map .backend ++ List.replicate 3 (.backend (.env (.listener 0 .go)))

/-- The listener goes on to a second request, and a new listen would be refused. -/
theorem unheard_asks_again : ∃ s s' s'', Run.exec (move localBackend) init firstRequest = some s ∧
    move localBackend s oneEvent = some s' ∧ Run.exec (move localBackend) s' goesOn = some s'' ∧
    s.shared.requests.length = 1 ∧ s''.shared.requests.length = 2 ∧ s''.shared.listening = true ∧
    ∃ hs, ¬ (UnheardRun.oneBot localBackend s s' oneEvent 0 goesOn unheard_oneEvent hs).ListenerLeaves := by
  have h : (((Run.exec (move localBackend) init firstRequest).bind fun s =>
      (move localBackend s oneEvent).bind fun s' =>
        (Run.exec (move localBackend) s' goesOn).map fun s'' => (s, s', s'')).any fun r =>
          r.1.shared.requests.length = 1 ∧ r.2.2.shared.requests.length = 2 ∧ r.2.2.shared.listening = true ∧
            r.2.2.shared.listeners[0]? = some .polling) = true := by decide +kernel
  obtain ⟨⟨s, s', s''⟩, hr, hp⟩ := (Option.any_eq_true _ _).1 h
  obtain ⟨s₁, hs, hr⟩ := Option.bind_eq_some_iff.1 hr
  obtain ⟨s₂, hs', hr⟩ := Option.bind_eq_some_iff.1 hr
  obtain ⟨s₃, hs'', hr⟩ := Option.map_eq_some_iff.1 hr
  cases hr
  obtain ⟨hone, htwo, hlistening, hpolling⟩ := of_decide_eq_true hp
  exact ⟨s, s', s'', hs, hs', hs'', hone, htwo, hlistening, hs', fun hleaves =>
    hleaves.silent goesOn List.prefix_rfl s'' hs'' (.inr hpolling)⟩

/-- With a disconnect before it looks for a stop, the listener leaves. -/
theorem unheard_leaves_disconnected : ∃ s s', Run.exec (move localBackend) init firstRequest = some s ∧
    ∃ hs : move localBackend s oneEvent = some s',
      (UnheardRun.oneBot localBackend s s' oneEvent 0 disconnected unheard_oneEvent hs).ListenerLeaves := by
  have h : (((Run.exec (move localBackend) init firstRequest).bind fun s =>
      (move localBackend s oneEvent).map fun s' => (s, s')).any fun r =>
        Run.Along (move localBackend) (FindsStop 0) r.2 disconnected) = true := by decide +kernel
  obtain ⟨⟨s, s'⟩, hr, halong⟩ := (Option.any_eq_true _ _).1 h
  obtain ⟨s₁, hs, hr⟩ := Option.bind_eq_some_iff.1 hr
  obtain ⟨s₂, hs', hr⟩ := Option.map_eq_some_iff.1 hr
  cases hr
  have hfound : Run.Along (move localBackend) (FindsStop 0) s' disconnected := of_decide_eq_true halong
  exact ⟨s, s', hs, hs', (UnheardRun.listenerLeaves_iff _).2 hfound⟩

end OneBotHttp

end NapCat
