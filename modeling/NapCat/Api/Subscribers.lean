/-
What the WebSocket clients are sent. Beside the consumers of the channels stands, for each socket, the position of the
bus it opened at, what its handler has received, and the texts it has written. Whatever the order of the steps, and
however far a handler falls behind, a socket is sent the accepted events of the bus from its opening on, in order and
without a gap, up to where its handler is.
-/
import NapCat.Api.Consumers

namespace NapCat.Api

/-- What one socket has seen. -/
structure Subscriber where
  start : Nat
  heard : List (Option UInt64 × ProtocolEvent) := []
  written : List String := []

structure Subscribers where
  consumers : Consumers := {}
  seen : List Subscriber := []

namespace Subscribers

open Run

/-- What a receive of a handler takes off the bus, with the clock reading of its rendering. -/
def hears (s : Consumers) (w : Ws) (time : Option UInt64) : List (Option UInt64 × ProtocolEvent) :=
  match Broadcast.recv eventBroadcastCapacity s.bus s.busOpen w.next with
  | (.value event, _) => [(time, event)]
  | _ => []

/-- The text that a handler is writing. -/
def writing (w : Ws) : List String :=
  match w.pc with
  | .sending text => [text]
  | _ => []

def note (s : Consumers) (seen : List Subscriber) : Consumers.Event → List Subscriber
  | .wsOpen _ => seen ++ [{ start := s.bus.length }]
  | .wsRecv i time =>
    match s.sockets[i]?, seen[i]? with
    | some w, some r => seen.set i { r with heard := r.heard ++ hears s w time }
    | _, _ => seen
  | .wsSent i true =>
    match s.sockets[i]?, seen[i]? with
    | some w, some r => seen.set i { r with written := r.written ++ writing w }
    | _, _ => seen
  | _ => seen

def step (s : Subscribers) (e : Consumers.Event) : Option Subscribers :=
  (s.consumers.step e).map fun consumers => ⟨consumers, note s.consumers s.seen e⟩

/-- The renderings of the accepted events among those heard. -/
def due (w : Ws) (r : Subscriber) : List String := records (r.heard.filter fun p => accepts w.types p.2)

/-- The handler has heard the bus from the opening on up to its position, and has written what was due, up to the text
it is writing; a handler that has left its loop may have lost that one. -/
structure SocketOk (bus : List ProtocolEvent) (w : Ws) (r : Subscriber) : Prop where
  start : r.start ≤ w.next
  le : w.next ≤ bus.length
  heard : r.heard.map Prod.snd = (bus.drop r.start).take (w.next - r.start)
  written : ∃ lost, r.written ++ lost = due w r ∧ lost.length ≤ 1 ∧ (w.pc.live = true → lost = writing w)

/-- Socket by socket. -/
structure AllOk (bus : List ProtocolEvent) (sockets : List Ws) (seen : List Subscriber) : Prop where
  length : seen.length = sockets.length
  sockets : ∀ (i : Nat) (w : Ws) (r : Subscriber), sockets[i]? = some w → seen[i]? = some r → SocketOk bus w r

def Inv (s : Subscribers) : Prop := AllOk s.consumers.bus s.consumers.sockets s.seen

theorem SocketOk.grow {bus bus' : List ProtocolEvent} {w : Ws} {r : Subscriber} (h : SocketOk bus w r)
    (hb : bus <+: bus') : SocketOk bus' w r := by
  obtain ⟨more, rfl⟩ := hb
  refine ⟨h.start, h.le.trans (by simp), ?_, h.written⟩
  have hstart := h.start
  have hle := h.le
  rw [List.drop_append_of_le_length (by omega), List.take_append_of_le_length (by rw [List.length_drop]; omega)]
  exact h.heard

/-- A socket that has just opened. -/
theorem SocketOk.opened (bus : List ProtocolEvent) (types : Option (List String)) :
    SocketOk bus ⟨types, bus.length, true, .receiving⟩ { start := bus.length } where
  start := Nat.le_refl _
  le := Nat.le_refl _
  heard := by simp
  written := ⟨[], rfl, Nat.zero_le _, fun _ => rfl⟩

/-- One more event heard. -/
theorem SocketOk.take {bus : List ProtocolEvent} {w : Ws} {r : Subscriber} (h : SocketOk bus w r)
    (hpc : w.pc = .receiving) {event : ProtocolEvent} (hv : bus[w.next]? = some event) (time : Option UInt64) :
    SocketOk bus (Consumers.Ws.take w event time) { r with heard := r.heard ++ [(time, event)] } := by
  obtain ⟨hstart, hle, hheard, lost, hwritten, -, hlost⟩ := h
  have hlt : w.next < bus.length := (List.getElem?_eq_some_iff.1 hv).1
  obtain rfl : lost = [] := by simpa [writing, hpc] using hlost (by rw [hpc]; rfl)
  rw [List.append_nil] at hwritten
  have hheard' : (r.heard ++ [(time, event)]).map Prod.snd = (bus.drop r.start).take (w.next + 1 - r.start) := by
    rw [List.map_append, hheard, Nat.succ_sub hstart, List.take_add_one, List.getElem?_drop,
      Nat.add_sub_cancel' hstart, hv]
    rfl
  unfold Consumers.Ws.take
  dsimp only
  split
  · rename_i hacc
    split
    · rename_i text htext
      refine ⟨by dsimp only; omega, hlt, hheard', [text], ?_, Nat.le_refl _, fun _ => rfl⟩
      rw [hwritten]
      simp only [due, List.filter_append, records, List.filterMap_append]
      simp [hacc, htext, Except.toOption]
    · rename_i e htext
      refine ⟨by dsimp only; omega, hlt, hheard', [], ?_, Nat.zero_le _, fun _ => by simp [writing, hpc]⟩
      rw [List.append_nil, hwritten]
      simp only [due, List.filter_append, records, List.filterMap_append]
      simp [hacc, htext, Except.toOption]
  · rename_i hacc
    refine ⟨by dsimp only; omega, hlt, hheard', [], ?_, Nat.zero_le _, fun _ => by simp [writing, hpc]⟩
    rw [List.append_nil, hwritten]
    simp only [due, List.filter_append, records, List.filterMap_append]
    simp [hacc]

theorem SocketOk.recv {s : Consumers} {w w' : Ws} {r : Subscriber} {time : Option UInt64} (h : SocketOk s.bus w r)
    (hr : Consumers.Ws.recv w s.bus s.busOpen time = some w') :
    SocketOk s.bus w' { r with heard := r.heard ++ hears s w time } := by
  unfold Consumers.Ws.recv at hr
  split at hr
  · rename_i hpc
    -- a handler that lags or sees the end of the bus hears nothing and leaves its loop
    have hleft : SocketOk s.bus { w with pc := .exited } r := by
      obtain ⟨hstart, hle, hheard, lost, hwritten, hone, -⟩ := h
      exact ⟨hstart, hle, hheard, lost, hwritten, hone, nofun⟩
    split at hr
    · rename_i event n hv
      cases hr
      have hh : hears s w time = [(time, event)] := by simp only [hears, hv]
      rw [hh]
      exact h.take hpc (Broadcast.recv_value hv).1 time
    · rename_i k n hv
      cases hr
      have hh : hears s w time = [] := by simp only [hears, hv]
      rw [hh, List.append_nil]
      exact hleft
    · rename_i n hv
      cases hr
      have hh : hears s w time = [] := by simp only [hears, hv]
      rw [hh, List.append_nil]
      exact hleft
    · cases hr
  · cases hr

theorem SocketOk.sent {bus : List ProtocolEvent} {w w' : Ws} {r : Subscriber} {ok : Bool} (h : SocketOk bus w r)
    (hs : Consumers.Ws.sent w ok = some w') :
    SocketOk bus w' (if ok then { r with written := r.written ++ writing w } else r) := by
  obtain ⟨hstart, hle, hheard, lost, hwritten, hone, hlost⟩ := h
  unfold Consumers.Ws.sent at hs
  split at hs
  · rename_i text hpc
    have hlost := hlost (by rw [hpc]; rfl)
    split at hs
    · rename_i hok
      cases hs
      rw [if_pos hok]
      refine ⟨hstart, hle, hheard, [], ?_, Nat.zero_le _, fun _ => rfl⟩
      rw [List.append_nil, ← hlost]
      exact hwritten
    · rename_i hok
      split at hs
      · cases hs
      · cases hs
        rw [if_neg hok]
        exact ⟨hstart, hle, hheard, lost, hwritten, hone, nofun⟩
  · cases hs

def isSocketStep : Consumers.Event → Bool
  | .wsOpen _ | .wsRecv _ _ | .wsSent _ _ | .wsBroken _ => true
  | _ => false

/-- What a step leaves alone: the bus only grows, the sockets have their own steps, and the bus is closed by one step
only. -/
structure Frame (s s' : Consumers) (e : Consumers.Event) : Prop where
  bus : s.bus <+: s'.bus
  sockets : isSocketStep e = false → s'.sockets = s.sockets
  busOpen : e ≠ .dropBusSenders → s'.busOpen = s.busOpen

theorem step_frame {s s' : Consumers} {e : Consumers.Event} (hs : s.step e = some s') : Frame s s' e := by
  have hpublish : ∀ (t : Consumers) (event : ProtocolEvent), t.bus <+: (t.relayPublish event).bus :=
    fun t event => List.prefix_append t.bus [event]
  cases e with
  | send event | publish event =>
    simp only [Consumers.step, Option.ite_none_right_eq_some, Option.some.injEq] at hs
    obtain ⟨-, rfl⟩ := hs
    exact ⟨by simp, fun _ => rfl, fun _ => rfl⟩
  | dropProtocolSenders =>
    cases hs
    exact ⟨List.prefix_rfl, fun _ => rfl, fun _ => rfl⟩
  | relayRecv =>
    simp only [Consumers.step] at hs
    split at hs
    · split at hs
      · rename_i event n hv
        cases hs
        cases event with
        | messageReceived m => exact ⟨List.prefix_rfl, fun _ => rfl, fun _ => rfl⟩
        | connected endpoint | disconnected | warning message =>
          exact ⟨hpublish { s with relayNext := s.relayNext + 1 } _, fun _ => rfl, fun _ => rfl⟩
      · cases hs
        exact ⟨List.prefix_rfl, fun _ => rfl, fun _ => rfl⟩
      · cases hs
        exact ⟨List.prefix_rfl, fun _ => rfl, fun _ => rfl⟩
      · cases hs
    · cases hs
  | relayDispatched =>
    simp only [Consumers.step] at hs
    split at hs
    · rename_i event hpc
      cases hs
      exact ⟨hpublish s event, fun _ => rfl, fun _ => rfl⟩
    · cases hs
  | dropBusSenders =>
    simp only [Consumers.step, Option.ite_none_right_eq_some, Option.some.injEq] at hs
    obtain ⟨-, rfl⟩ := hs
    exact ⟨List.prefix_rfl, fun _ => rfl, fun hne => absurd rfl hne⟩
  | wsOpen types =>
    cases hs
    exact ⟨List.prefix_rfl, fun he => (by cases he), fun _ => rfl⟩
  | wsRecv i time | wsSent i ok =>
    obtain ⟨w, -, hs⟩ := Option.bind_eq_some_iff.1 hs
    obtain ⟨w', -, rfl⟩ := Option.map_eq_some_iff.1 hs
    exact ⟨List.prefix_rfl, fun he => (by cases he), fun _ => rfl⟩
  | wsBroken i =>
    obtain ⟨w, -, rfl⟩ := Option.map_eq_some_iff.1 hs
    exact ⟨List.prefix_rfl, fun he => (by cases he), fun _ => rfl⟩

theorem AllOk.grow {bus bus' : List ProtocolEvent} {sockets : List Ws} {seen : List Subscriber}
    (h : AllOk bus sockets seen) (hb : bus <+: bus') : AllOk bus' sockets seen :=
  ⟨h.length, fun i w r hw hr => (h.sockets i w r hw hr).grow hb⟩

theorem AllOk.set {bus : List ProtocolEvent} {sockets : List Ws} {seen : List Subscriber} (h : AllOk bus sockets seen)
    {i : Nat} {w : Ws} {r : Subscriber} (hok : SocketOk bus w r) : AllOk bus (sockets.set i w) (seen.set i r) := by
  refine ⟨by simp [h.length], fun j w' r' hw hr => ?_⟩
  rcases Threads.get_set hw with ⟨rfl, rfl⟩ | ⟨hj, hw⟩
  · rcases Threads.get_set hr with ⟨-, rfl⟩ | ⟨hj, -⟩
    · exact hok
    · exact absurd rfl hj
  · rw [List.getElem?_set_ne (fun he => hj he.symm)] at hr
    exact h.sockets j w' r' hw hr

/-- Every socket has its record. -/
theorem AllOk.record {bus : List ProtocolEvent} {sockets : List Ws} {seen : List Subscriber}
    (h : AllOk bus sockets seen) {i : Nat} {w : Ws} (hw : sockets[i]? = some w) : ∃ r, seen[i]? = some r := by
  have hlt : i < seen.length := h.length ▸ (List.getElem?_eq_some_iff.1 hw).1
  exact ⟨seen[i], List.getElem?_eq_getElem hlt⟩

theorem step_inv (s : Subscribers) (e : Consumers.Event) (s' : Subscribers) (h : Inv s) (hs : step s e = some s') :
    Inv s' := by
  obtain ⟨c, hc, rfl⟩ := Option.map_eq_some_iff.1 hs
  have hgrow : AllOk c.bus s.consumers.sockets s.seen := AllOk.grow h (step_frame hc).bus
  unfold Inv
  dsimp only
  cases e with
  | send event | dropProtocolSenders | relayRecv | relayDispatched | publish event | dropBusSenders =>
    rw [(step_frame hc).sockets rfl]
    exact hgrow
  | wsOpen types =>
    cases hc
    refine ⟨by simp [note, h.length], fun i w r hw hr => ?_⟩
    have hr : (s.seen ++ [{ start := s.consumers.bus.length }])[i]? = some r := hr
    rcases Threads.get_append hw with ⟨rfl, rfl⟩ | hw
    · rw [← h.length, List.getElem?_concat_length] at hr
      cases hr
      exact .opened _ _
    · have hlt : i < s.seen.length := h.length ▸ (List.getElem?_eq_some_iff.1 hw).1
      rw [List.getElem?_append_left hlt] at hr
      exact h.sockets i w r hw hr
  | wsRecv i time =>
    obtain ⟨w, hw, hc⟩ := Option.bind_eq_some_iff.1 hc
    obtain ⟨w', hr, rfl⟩ := Option.map_eq_some_iff.1 hc
    obtain ⟨r, hseen⟩ := AllOk.record h hw
    have hnote : note s.consumers s.seen (.wsRecv i time)
        = s.seen.set i { r with heard := r.heard ++ hears s.consumers w time } := by
      simp only [note, hw, hseen]
    rw [hnote]
    exact AllOk.set h ((h.sockets i w r hw hseen).recv hr)
  | wsSent i ok =>
    obtain ⟨w, hw, hc⟩ := Option.bind_eq_some_iff.1 hc
    obtain ⟨w', hr, rfl⟩ := Option.map_eq_some_iff.1 hc
    obtain ⟨r, hseen⟩ := AllOk.record h hw
    have hsent := AllOk.set h (i := i) ((h.sockets i w r hw hseen).sent hr)
    cases ok with
    | true =>
      have hnote : note s.consumers s.seen (.wsSent i true)
          = s.seen.set i { r with written := r.written ++ writing w } := by
        simp only [note, hw, hseen]
      rw [hnote]
      exact hsent
    | false =>
      have hset : s.seen.set i r = s.seen := by
        obtain ⟨hlt, rfl⟩ := List.getElem?_eq_some_iff.1 hseen
        exact List.set_getElem_self hlt
      rw [if_neg nofun, hset] at hsent
      exact hsent
  | wsBroken i =>
    obtain ⟨w, hw, rfl⟩ := Option.map_eq_some_iff.1 hc
    obtain ⟨r, hseen⟩ := AllOk.record h hw
    obtain ⟨hstart, hle, hheard, hwritten⟩ := h.sockets i w r hw hseen
    have hset : s.seen.set i r = s.seen := by
      obtain ⟨hlt, rfl⟩ := List.getElem?_eq_some_iff.1 hseen
      exact List.set_getElem_self hlt
    have hbroken := AllOk.set h (i := i) (w := { w with accepting := false }) ⟨hstart, hle, hheard, hwritten⟩
    rw [hset] at hbroken
    exact hbroken

theorem Inv.init : Inv {} := ⟨rfl, fun i w r hw => by cases hw⟩

theorem exec_inv {es : List Consumers.Event} {s : Subscribers} (hs : exec step {} es = some s) : Inv s :=
  exec_inv_always step_inv es _ _ Inv.init hs

/-- In every run, however far a handler falls behind: what it has heard is the bus from its opening on, up to its
position; the texts written to its socket are what was due of that, in order, but for at most the last one; and a
handler that waits for the next event has written all that was due. -/
theorem sent_in_order {es : List Consumers.Event} {s : Subscribers} (hs : exec step {} es = some s) {i : Nat} {w : Ws}
    {r : Subscriber} (hw : s.consumers.sockets[i]? = some w) (hr : s.seen[i]? = some r) :
    r.heard.map Prod.snd = (s.consumers.bus.drop r.start).take (w.next - r.start) ∧
      (∃ lost, r.written ++ lost = due w r ∧ lost.length ≤ 1) ∧
      (w.pc = .receiving → r.written = due w r) := by
  obtain ⟨-, -, hheard, lost, hwritten, hone, hlost⟩ := (exec_inv hs).sockets i w r hw hr
  refine ⟨hheard, ⟨lost, hwritten, hone⟩, fun hpc => ?_⟩
  have hnil : lost = [] := by simpa [writing, hpc] using hlost (by rw [hpc]; rfl)
  rw [← hwritten, hnil, List.append_nil]

/-- A warning and a disconnect to a socket that asks for nothing else. -/
def filteredSocket : List Consumers.Event :=
  [.publish .disconnected, .wsOpen (some ["meta_event"]), .send (.warning "w"), .relayRecv, .wsRecv 0 (some 7),
    .wsSent 0 true, .publish .disconnected]

theorem sent_in_order_filtered : ∃ s w r, exec step {} filteredSocket = some s ∧ s.consumers.sockets[0]? = some w ∧
    s.seen[0]? = some r ∧ r.written.length = 1 ∧ r.written = due w r := by
  have hk : (exec step {} filteredSocket).map (fun s => (s.consumers.sockets[0]?.map fun w => w.pc.live,
      s.consumers.sockets[0]?.map writing, s.seen[0]?.map fun r => r.written.length))
      = some (some true, some [], some 1) := by
    decide +kernel
  obtain ⟨s, hs, hk⟩ := Option.map_eq_some_iff.1 hk
  simp only [Prod.mk.injEq] at hk
  obtain ⟨hlive, hidle, hlen⟩ := hk
  obtain ⟨w, hw, hlive⟩ := Option.map_eq_some_iff.1 hlive
  obtain ⟨r, hr, hlen⟩ := Option.map_eq_some_iff.1 hlen
  rw [hw, Option.map_some, Option.some.injEq] at hidle
  have hpc : w.pc = .receiving := by
    cases hpc : w.pc with
    | receiving => rfl
    | sending text => simp [writing, hpc] at hidle
    | exited => rw [hpc] at hlive; cases hlive
  exact ⟨s, w, r, hs, hw, hr, hlen, (sent_in_order hs hw hr).2.2 hpc⟩

end Subscribers

end NapCat.Api
