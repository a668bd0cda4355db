/-
The `/message/listen` route as a client uses it that polls in a loop. Each poll subscribes to the
event bus when it begins, takes at most its budget of events, and ends at the first receive that
times out or lags. Records keep the bus position they come from.
-/
import NapCat.Api.Payload
import NapCat.Lib.Broadcast
import NapCat.Lib.Run

namespace NapCat.Api

/-- The capacity of the event bus and of the protocol event channel. -/
def eventBroadcastCapacity : Nat := 128

/-- `query.max_events.or(query.limit).unwrap_or(8).clamp(1, 32)`. -/
def pollBudget (maxEvents limit : Option Nat) : Nat := max 1 (min 32 ((maxEvents.or limit).getD 8))

/-- The type filter of a poll or a WebSocket; without one every event is accepted. -/
def accepts (types : Option (List String)) (event : ProtocolEvent) : Bool :=
  match types with
  | none => true
  | some ts => ts.contains (onebotEventPostType event)

/-- A call of `listen_messages` in progress. -/
structure Poll where
  types : Option (List String)
  start : Nat
  next : Nat
  left : Nat
  records : List (Nat × String)

/-- One round of the loop for a received event: filter, render, record. -/
def Poll.take (p : Poll) (event : ProtocolEvent) (time : Option UInt64) : Poll :=
  let rendered := if accepts p.types event then (onebotEventPayload time event).toOption else none
  { p with
    next := p.next + 1
    left := p.left - 1
    records := p.records ++ rendered.toList.map fun text => (p.next, text) }

/-- A finished call; `drained` says that it ended at a receive that timed out. -/
structure PollResult where
  start : Nat
  records : List (Nat × String)
  drained : Bool

/-- The event bus and the polls of one client, one at a time. -/
structure Polling where
  bus : List ProtocolEvent := []
  poll : Option Poll := none
  results : List PollResult := []

namespace Polling

inductive Event
  | publish (event : ProtocolEvent)
  | subscribe (types : Option (List String)) (maxEvents limit : Option Nat)
  | recv (time : Option UInt64)
  | expire

def finish (s : Polling) (p : Poll) (drained : Bool) : Polling :=
  { s with poll := none, results := s.results ++ [⟨p.start, p.records, drained⟩] }

/-- After a round the loop goes on while its budget lasts. -/
def goOn (s : Polling) (p : Poll) : Polling := if p.left = 0 then s.finish p false else { s with poll := some p }

def step (s : Polling) : Event → Option Polling
  | .publish event => some { s with bus := s.bus ++ [event] }
  | .subscribe types maxEvents limit =>
    if s.poll.isSome then none
    else some { s with poll := some ⟨types, s.bus.length, s.bus.length, pollBudget maxEvents limit, []⟩ }
  | .recv time =>
    match s.poll with
    | none => none
    | some p =>
      match Broadcast.recv eventBroadcastCapacity s.bus true p.next with
      | (.value event, _) => some (s.goOn (p.take event time))
      -- the route ends the poll on a lag as on a closed bus
      | (.lagged _, _) | (.closed, _) => some (s.finish p false)
      | (.pending, _) => none
  | .expire =>
    match s.poll with
    | none => none
    | some p =>
      match Broadcast.recv eventBroadcastCapacity s.bus true p.next with
      | (.pending, _) => some (s.finish p true)
      | _ => none

end Polling

end NapCat.Api
