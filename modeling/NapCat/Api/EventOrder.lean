/-
What becomes of the requests that emit an event, over every run of their handlers, the dispatch channel and the tasks
behind it: each event accepted is published once and in its turn, and nobody waits in vain.
-/
import NapCat.Api.EventFlow
import NapCat.Lib.WaitingLine

namespace NapCat.Api.EventFlow

open Run BoundedQueue

/-! ## Every accepted request once -/

/-- The events published by the dispatch task. -/
def apiEvents (s : EventFlow) : List ProtocolEvent := (s.envelopes.filter fromApi).map EventEnvelope.payload

/-- The events in the channel. -/
def queued (s : EventFlow) : List ProtocolEvent := s.dispatch.queue.map fun v => v.2.2

/-- The handlers whose events are in, in the order they went in. -/
def order (s : EventFlow) : List Nat := (entered s.dispatch).map fun v => v.2.1

/-- Handler `k` has been answered with success. -/
def Accepted (s : EventFlow) (k : Nat) (work : Work) : Prop := ∃ n, s.handlers[k]? = some (.accepted work n)

def answeredOk (s : EventFlow) (k : Nat) : Bool :=
  match s.handlers[k]? with
  | some (.accepted _ _) => true
  | _ => false

theorem answeredOk_iff {s : EventFlow} {k : Nat} : s.answeredOk k = true ↔ ∃ work, s.Accepted k work := by
  unfold answeredOk
  constructor
  · intro h
    split at h
    · rename_i work n hk
      exact ⟨work, n, hk⟩
    · cases h
  · rintro ⟨work, n, hk⟩
    rw [hk]

/-- The send that handler `k` waits for. -/
def waitsFor (s : EventFlow) (k : Nat) : Option Nat :=
  match s.handlers[k]? with
  | some (.emitting _ n) => some n
  | _ => none

theorem waitsFor_some {s : EventFlow} {k n : Nat} (h : s.waitsFor k = some n) :
    ∃ work, s.handlers[k]? = some (.emitting work n) := by
  unfold waitsFor at h
  split at h
  · rename_i work m hk
    cases h
    exact ⟨work, hk⟩
  · cases h

/-- The events on the bus and in the channel are those of the requests answered with success, one each. -/
structure Exact (s : EventFlow) : Prop where
  once : s.order.Nodup
  accepted : ∀ k, k ∈ s.order ↔ s.answeredOk k = true
  events : List.Forall₂ (fun k event => ∃ work, s.Accepted k work ∧ Sound work ∧ work.event = event) s.order
    (s.apiEvents ++ s.queued)

theorem Inv.accepted {s : EventFlow} (h : Inv s) {n k : Nat} {event : ProtocolEvent}
    (hv : (n, k, event) ∈ entered s.dispatch) :
    ∃ work, s.handlers[k]? = some (.accepted work n) ∧ work.event = event := by
  obtain ⟨p, work, hk, hp, he⟩ := h.linked.handler n k event .entered ((h.dispatch.entered_iff n _).1 hv) nofun
  cases p with
  | accepted work' n' =>
    cases hp
    exact ⟨work, hk, he⟩
  | sending | emitting | failed | dropped => cases hp

theorem Inv.exact {s : EventFlow} (h : Inv s) : Exact s := by
  refine ⟨?_, fun k => ⟨fun hk => ?_, ?_⟩, ?_⟩
  · -- two entries of one handler carry the number of its one send
    have honce := h.dispatch.enteredOnce
    rw [List.Nodup, List.pairwise_map] at honce
    rw [order, List.Nodup, List.pairwise_map]
    refine honce.imp_of_mem fun {a b} ha hb hab he => hab ?_
    obtain ⟨n, k, event⟩ := a
    obtain ⟨m, j, event'⟩ := b
    obtain rfl : k = j := he
    obtain ⟨work, hk, -⟩ := h.accepted ha
    obtain ⟨work', hk', -⟩ := h.accepted hb
    rw [hk] at hk'
    cases hk'
    rfl
  · obtain ⟨⟨n, j, event⟩, hv, rfl⟩ := List.mem_map.1 hk
    obtain ⟨work, hk, -⟩ := h.accepted hv
    exact answeredOk_iff.2 ⟨work, n, hk⟩
  · intro hk
    obtain ⟨work, n, hk⟩ := answeredOk_iff.1 hk
    have hn := h.linked.send k _ n work .entered hk rfl
    exact List.mem_map.2 ⟨_, (h.dispatch.entered_iff n _).2 hn, rfl⟩
  · have hevents : s.apiEvents ++ s.queued = (entered s.dispatch).map fun v => v.2.2 := by
      rw [apiEvents, h.relayed, queued, entered, List.map_append]
    rw [hevents, order, List.forall₂_map_left_iff, List.forall₂_map_right_iff, List.forall₂_same]
    rintro ⟨n, k, event⟩ hv
    obtain ⟨work, hk, he⟩ := h.accepted hv
    exact ⟨work, ⟨n, hk⟩, h.handlers _ (Threads.mem_of_get hk), he⟩

/-- In every run, whatever the backend answers and whoever times out or is dropped, a request that is answered with
success has its event in the channel or on the bus once, and no other request has one. -/
theorem exactly_once {backend : Bool} {es : List Event} {s : EventFlow}
    (hs : exec step { backend := backend } es = some s) : Exact s := (exec_inv hs).exact

/-- A deletion, and a message that waits for the backend. -/
def twoRequests : List Event :=
  [.request (.deleteMsg ⟨" 7 "⟩), .request (.sendPrivateMsg ⟨"u1", "hi"⟩), .relay, .backend 1 (.ok ()), .relay]

theorem exactly_once_twoRequests : ∃ s, exec step { backend := true } twoRequests = some s ∧ s.order = [0, 1] ∧
    Exact s := by
  have hk : (exec step { backend := true } twoRequests).map order = some [0, 1] := by decide +kernel
  obtain ⟨s, hs, hk⟩ := Option.map_eq_some_iff.1 hk
  exact ⟨s, hs, hk, exactly_once hs⟩

/-- The dispatch task outlives the requests: as long as the state is held or a handler is not done it takes events off
the channel, so no request is told that the channel is closed; no more than the capacity is ever in the channel, and
when the task has ended every event that was accepted has been published. -/
theorem dispatch_outlives {backend : Bool} {es : List Event} {s : EventFlow}
    (hs : exec step { backend := backend } es = some s) :
    (s.senders = true → s.relayAlive = true) ∧ (∀ k : Nat, s.handlers[k]? ≠ some (.failed closedError)) ∧
      s.queued.length ≤ eventDispatchCapacity ∧
      (s.relayAlive = false → List.Forall₂ (fun k event => ∃ work, s.Accepted k work ∧ work.event = event) s.order
        s.apiEvents) := by
  have h : Inv s := exec_inv hs
  refine ⟨h.alive, fun k hk => h.handlers _ (Threads.mem_of_get hk) rfl, ?_, fun hdead => ?_⟩
  · have := h.dispatch.permits
    rw [queued, List.length_map]
    omega
  · have hall := h.exact.events
    rw [queued, h.drained hdead, List.map_nil, List.append_nil] at hall
    exact hall.imp fun k event ⟨work, hk, _, he⟩ => ⟨work, hk, he⟩

theorem dispatch_outlives_twoRequests : ∃ s,
    exec step { backend := true } (twoRequests ++ [.release, .relay]) = some s ∧ s.relayAlive = false ∧
    List.Forall₂ (fun k event => ∃ work, s.Accepted k work ∧ work.event = event) [0, 1] s.apiEvents := by
  have hk : (exec step { backend := true } (twoRequests ++ [.release, .relay])).map (fun s => (s.relayAlive, s.order))
      = some (false, [0, 1]) := by
    decide +kernel
  obtain ⟨s, hs, hk⟩ := Option.map_eq_some_iff.1 hk
  rw [Prod.mk.injEq] at hk
  have hall := (dispatch_outlives hs).2.2.2 hk.1
  rw [hk.2] at hall
  exact ⟨s, hs, hk.1, hall⟩

/-! ## Order and waiting -/

/-- A step of the system is a step of the dispatch channel, or leaves it alone. Of the steps that give up a send only
those of its handler do. -/
theorem step_dispatch {s s' : EventFlow} {e : Event} (hs : step s e = some s') :
    s'.dispatch = s.dispatch ∨ ∃ b, BoundedQueue.step s.dispatch b = some s'.dispatch ∧
      ∀ n, b = .giveUp n → ∃ k work, s.handlers[k]? = some (.emitting work n) ∧ (e = .timeout k ∨ e = .drop k) := by
  have hemit : ∀ (t : EventFlow) (k : Nat) (work : Work), (t.emit k work).dispatch = t.dispatch ∨
      ∃ b, BoundedQueue.step t.dispatch b = some (t.emit k work).dispatch ∧ ∀ n, b ≠ .giveUp n := by
    intro t k work
    unfold emit
    split
    · exact .inr ⟨.start (k, work.event), rfl, fun n hn => by cases hn⟩
    · exact .inl rfl
  cases e with
  | request r =>
    simp only [step, Option.ite_none_right_eq_some] at hs
    obtain ⟨-, hs⟩ := hs
    split at hs
    · cases hs
      exact .inl rfl
    · rename_i work hr
      split at hs
      · cases hs
        exact .inl rfl
      · cases hs
        rcases hemit { s with handlers := s.handlers ++ [.sending work] } s.handlers.length work with he | ⟨b, hb, hne⟩
        · exact .inl he
        · exact .inr ⟨b, hb, fun n hn => absurd hn (hne n)⟩
  | backend k answer =>
    simp only [step] at hs
    split at hs
    · rename_i work hk
      split at hs
      · cases hs
        rcases hemit s k work with he | ⟨b, hb, hne⟩
        · exact .inl he
        · exact .inr ⟨b, hb, fun n hn => absurd hn (hne n)⟩
      · cases hs
        exact .inl rfl
    · cases hs
  | put k =>
    simp only [step] at hs
    split at hs
    · obtain ⟨c, hc, rfl⟩ := Option.map_eq_some_iff.1 hs
      exact .inr ⟨_, hc, fun n hn => by cases hn⟩
    · cases hs
  | timeout k =>
    simp only [step] at hs
    split at hs
    · rename_i work n hk
      obtain ⟨c, hc, rfl⟩ := Option.map_eq_some_iff.1 hs
      refine .inr ⟨_, hc, fun m hm => ⟨k, work, ?_, .inl rfl⟩⟩
      cases hm
      exact hk
    · cases hs
  | drop k =>
    simp only [step] at hs
    split at hs
    · cases hs
      exact .inl rfl
    · rename_i work n hk
      obtain ⟨c, hc, rfl⟩ := Option.map_eq_some_iff.1 hs
      refine .inr ⟨_, hc, fun m hm => ⟨k, work, ?_, .inr rfl⟩⟩
      cases hm
      exact hk
    · cases hs
  | relay =>
    simp only [step, Option.ite_none_right_eq_some] at hs
    obtain ⟨-, hs⟩ := hs
    split at hs
    · obtain ⟨c, hc, hs⟩ := Option.bind_eq_some_iff.1 hs
      obtain ⟨subscribers, -, rfl⟩ := Option.map_eq_some_iff.1 hs
      exact .inr ⟨_, hc, fun n hn => by cases hn⟩
    · split at hs
      · cases hs
      · cases hs
        exact .inl rfl
  | release =>
    cases hs
    exact .inl rfl
  | channel e =>
    simp only [step, Option.ite_none_right_eq_some] at hs
    obtain ⟨-, hs⟩ := hs
    obtain ⟨subscribers, -, rfl⟩ := Option.map_eq_some_iff.1 hs
    exact .inl rfl

/-- So a run of the system is a run of the channel. -/
theorem exec_dispatch {es : List Event} {s s' : EventFlow} (hs : exec step s es = some s') :
    ∃ bs, exec BoundedQueue.step s.dispatch bs = some s'.dispatch :=
  exec_refines (f := EventFlow.dispatch) (fun _ _ _ h => (step_dispatch h).imp_right fun ⟨b, hb, _⟩ => ⟨b, hb⟩)
    es s s' hs

/-- First in, first out: the event of a request that is answered before another one arrives goes before the other's. -/
theorem published_in_order {backend : Bool} {es es' : List Event} {s s' : EventFlow}
    (hs : exec step { backend := backend } es = some s) (hs' : exec step s es' = some s') {k j : Nat}
    (hk : s.answeredOk k = true) (hj : s.handlers.length ≤ j) :
    s'.order.idxOf k < s'.order.idxOf j := by
  obtain ⟨bs, hbs⟩ := exec_dispatch hs'
  obtain ⟨more, hmore⟩ := exec_entered bs _ _ hbs
  have horder : s'.order = s.order ++ more.map fun v => v.2.1 := by
    rw [order, ← hmore, List.map_append]
    rfl
  have hkin : k ∈ s.order := ((exec_inv hs).exact.accepted k).2 hk
  have hjout : j ∉ s.order := by
    intro hjin
    obtain ⟨work, n, hn⟩ := answeredOk_iff.1 (((exec_inv hs).exact.accepted j).1 hjin)
    have := (List.getElem?_eq_some_iff.1 hn).1
    omega
  rw [horder, List.idxOf_append_of_mem hkin, List.idxOf_append_of_notMem hjout]
  exact Nat.lt_add_right _ (List.idxOf_lt_length_of_mem hkin)

theorem published_in_order_twoRequests : ∃ s s', exec step { backend := true } (twoRequests.take 1) = some s ∧
    exec step s (twoRequests.drop 1) = some s' ∧ s'.order.idxOf 0 < s'.order.idxOf 1 := by
  have hk : (exec step { backend := true } (twoRequests.take 1)).map (fun s =>
      (s.answeredOk 0, s.handlers.length, (exec step s (twoRequests.drop 1)).isSome)) = some (true, 1, true) := by
    decide +kernel
  obtain ⟨s, hs, hk⟩ := Option.map_eq_some_iff.1 hk
  simp only [Prod.mk.injEq] at hk
  obtain ⟨s', hs'⟩ := Option.isSome_iff_exists.1 hk.2.2
  exact ⟨s, s', hs, hs', published_in_order hs hs' hk.1 hk.2.1.le⟩

/-- A handler that waits for its send in the dispatch channel. -/
theorem Inv.waiting {s : EventFlow} (h : Inv s) {k n : Nat} {work : Work}
    (hk : s.handlers[k]? = some (.emitting work n)) :
    n ∈ s.dispatch.line ∨ s.dispatch.sends[n]? = some ⟨(k, work.event), .granted⟩ := by
  obtain ⟨pc, hn, hpc⟩ := views_get.1 (h.linked.send k _ n work .pending hk rfl)
  cases pc with
  | waiting => exact .inl ((h.dispatch.line n).2 ⟨_, hn⟩)
  | granted => exact .inr hn
  | sent | givenUp => cases hpc

/-- A send with a permit is one its handler can use. -/
theorem Inv.usable {s : EventFlow} (h : Inv s) {n k : Nat} {event : ProtocolEvent}
    (hn : s.dispatch.sends[n]? = some ⟨(k, event), .granted⟩) : (step s (.put k)).isSome = true := by
  obtain ⟨p, work, hk, hp, -⟩ := h.linked.handler n k event .pending (views_get.2 ⟨_, hn, rfl⟩) nofun
  cases p with
  | emitting work' n' =>
    cases hp
    simp [step, hk, BoundedQueue.step, hn]
  | sending | accepted | failed | dropped => cases hp

/-- The dispatch task can publish what is in the channel. -/
theorem Inv.publishes {s : EventFlow} (h : Inv s) (hrelay : s.relayAlive = true)
    (hrecv : (BoundedQueue.step s.dispatch .recv).isSome = true) : (step s .relay).isSome = true := by
  obtain ⟨c, hc⟩ := Option.isSome_iff_exists.1 hrecv
  obtain ⟨⟨n, k, event⟩, rest, hq, -⟩ := h.dispatch.recv_effect hc
  simp only [step, hrelay, if_true, hq, hc, Option.bind_some, Subscribers.step, Consumers.step, h.busOpen hrelay]
  rfl

/-- No handler waits in vain: the dispatch task has an event to publish, or a handler has a permit to use. -/
theorem waiting_moves {backend : Bool} {es : List Event} {s : EventFlow}
    (hs : exec step { backend := backend } es = some s) {k n : Nat} (hk : s.waitsFor k = some n) :
    (step s .relay).isSome = true ∨ ∃ j, (step s (.put j)).isSome = true := by
  have h : Inv s := exec_inv hs
  obtain ⟨work, hk⟩ := waitsFor_some hk
  rcases h.waiting hk with hline | hgranted
  · rcases h.dispatch.moves (by decide) hline with hrecv | ⟨m, hput⟩
    · exact .inl (h.publishes (h.alive (senders_of_unfinished hk rfl)) hrecv)
    · right
      simp only [BoundedQueue.step] at hput
      split at hput
      · rename_i v hm
        exact ⟨v.1, h.usable hm⟩
      · cases hput
  · exact .inr ⟨k, h.usable hgranted⟩

/-- Along a run in which handler `k` neither times out nor is dropped, its send is not given up. -/
theorem exec_keeps {k n : Nat} {event : ProtocolEvent} : ∀ (es : List Event) (s s' : EventFlow), Inv s →
    (∃ t, (views s.dispatch)[n]? = some ((k, event), t)) → (∀ e ∈ es, e ≠ .timeout k ∧ e ≠ .drop k) →
    exec step s es = some s' →
    ∃ bs, exec BoundedQueue.step s.dispatch bs = some s'.dispatch ∧ ∀ b ∈ bs, b ≠ .giveUp n
  | [], s, s', _, _, _, hs => by
    cases hs
    exact ⟨[], rfl, nofun⟩
  | e :: es, s, s', h, hn, he, hs => by
    obtain ⟨m, hm, hs⟩ := Option.bind_eq_some_iff.1 hs
    have hes : ∀ e ∈ es, e ≠ .timeout k ∧ e ≠ .drop k := fun e he' => he e (List.mem_cons_of_mem _ he')
    rcases step_dispatch hm with hsame | ⟨b, hb, hgive⟩
    · obtain ⟨bs, hbs, hne⟩ := exec_keeps es m s' (step_inv s e m h hm) (hsame ▸ hn) hes hs
      exact ⟨bs, hsame ▸ hbs, hne⟩
    · obtain ⟨bs, hbs, hne⟩ := exec_keeps es m s' (step_inv s e m h hm) (h.dispatch.step_value hb hn) hes hs
      refine ⟨b :: bs, by rw [exec_cons, hb]; exact hbs, List.forall_mem_cons.2 ⟨?_, hne⟩⟩
      rintro rfl
      obtain ⟨j, work, hj, hev⟩ := hgive n rfl
      obtain ⟨t, ht⟩ := hn
      have hjk : j = k := by
        have := h.linked.send j _ n work .pending hj rfl
        simpa using congrArg (Option.map fun v => v.1.1) (this.symm.trans ht)
      subst hjk
      exact hev.elim (he e List.mem_cons_self).1 (he e List.mem_cons_self).2

/-- Handlers wait in turn: one that neither times out nor is dropped is answered, or has only its own step left to
take, at the latest when one event more has been published than there were handlers before it in line. -/
theorem waits_in_turn {backend : Bool} {es es' : List Event} {s s' : EventFlow}
    (hs : exec step { backend := backend } es = some s) (hs' : exec step s es' = some s') {k n : Nat}
    (hk : s.waitsFor k = some n) (hline : n ∈ s.dispatch.line)
    (hstay : ∀ e ∈ es', e ≠ .timeout k ∧ e ≠ .drop k)
    (hmany : s.apiEvents.length + s.dispatch.line.idxOf n < s'.apiEvents.length) :
    s'.answeredOk k = true ∨ (step s' (.put k)).isSome = true := by
  have h : Inv s := exec_inv hs
  obtain ⟨work, hk⟩ := waitsFor_some hk
  have h' : Inv s' := exec_inv_always step_inv es' s s' h hs'
  have hn := h.linked.send k _ n work .pending hk rfl
  obtain ⟨bs, hbs, hne⟩ := exec_keeps es' s s' h ⟨_, hn⟩ hstay hs'
  have hcount := exec_received bs _ _ hbs
  have hevents : ∀ {t : EventFlow}, Inv t → t.apiEvents.length = t.dispatch.received.length := by
    intro t ht
    rw [apiEvents, ht.relayed, List.length_map]
  rw [hevents h, hevents h'] at hmany
  rcases exec_line bs _ _ h.dispatch hline hne hbs with ⟨v, hv⟩ | ⟨-, hle⟩
  · -- the send still carries the event of handler `k`
    obtain ⟨t, ht⟩ := exec_value bs _ _ h.dispatch hbs ⟨_, hn⟩
    obtain ⟨pc, hpc, -⟩ := views_get.1 ht
    rcases hv with hv | hv
    · cases hpc.symm.trans hv
      exact .inr (h'.usable hv)
    · cases hpc.symm.trans hv
      obtain ⟨work', hk', -⟩ := h'.accepted ((h'.dispatch.entered _ _).2 hv)
      exact .inl (answeredOk_iff.2 ⟨work', n, hk'⟩)
  · omega

/-- As many deletions as the channel holds, and one more, which has to wait. -/
def fullChannel : List Event := List.replicate 65 (.request (.deleteMsg ⟨"7"⟩))

theorem waiting_moves_full : ∃ s, exec step { backend := false } fullChannel = some s ∧
    ((step s .relay).isSome = true ∨ ∃ j, (step s (.put j)).isSome = true) := by
  have hk : (exec step { backend := false } fullChannel).map (fun s => s.waitsFor 64) = some (some 64) := by
    decide +kernel
  obtain ⟨s, hs, hk⟩ := Option.map_eq_some_iff.1 hk
  exact ⟨s, hs, waiting_moves hs hk⟩

theorem waits_in_turn_full : ∃ s s', exec step { backend := false } fullChannel = some s ∧
    exec step s [.relay] = some s' ∧ (s'.answeredOk 64 = true ∨ (step s' (.put 64)).isSome = true) := by
  have hk : (exec step { backend := false } fullChannel).map (fun s => (s.waitsFor 64, s.dispatch.line,
      s.apiEvents.length, (exec step s [.relay]).map fun s' => s'.apiEvents.length))
      = some (some 64, [64], 0, some 1) := by
    decide +kernel
  obtain ⟨s, hs, hk⟩ := Option.map_eq_some_iff.1 hk
  simp only [Prod.mk.injEq] at hk
  obtain ⟨hwait, hline, hzero, hone⟩ := hk
  obtain ⟨s', hs', hone⟩ := Option.map_eq_some_iff.1 hone
  refine ⟨s, s', hs, hs', waits_in_turn hs hs' hwait (by rw [hline]; decide) (fun e he => ?_) ?_⟩
  · rw [List.mem_singleton.1 he]
    exact ⟨nofun, nofun⟩
  · rw [hline, hzero, hone]
    decide

end NapCat.Api.EventFlow
