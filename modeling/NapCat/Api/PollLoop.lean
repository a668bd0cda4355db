/-
What a client that polls in a loop gets to see. Events published while no poll is open, and events
pending when a poll has used up its budget, are in no result; without these every event between the
first poll and a later one is delivered once, in order.
-/
import NapCat.Api.Listen

namespace NapCat.Api

/-- The bus positions of a list of records. -/
def positions (records : List (Nat × String)) : List Nat := records.map Prod.fst

/-- The results cover the positions from `a` to `b`, each poll from where the one before it ended. -/
inductive Contig : Nat → List PollResult → Nat → Prop
  | nil (a : Nat) : Contig a [] a
  | cons {a m b : Nat} {r : PollResult} {rs : List PollResult} (hs : r.start = a) (hle : a ≤ m)
      (hr : positions r.records = List.range' a (m - a)) (h : Contig m rs b) : Contig a (r :: rs) b

theorem Contig.le {a b : Nat} {rs : List PollResult} (h : Contig a rs b) : a ≤ b := by
  induction h with
  | nil => exact le_rfl
  | cons _ hle _ _ ih => exact hle.trans ih

theorem Contig.snoc {a b c : Nat} {rs : List PollResult} {r : PollResult} (h : Contig a rs b) (hs : r.start = b)
    (hle : b ≤ c) (hr : positions r.records = List.range' b (c - b)) : Contig a (rs ++ [r]) c := by
  induction h with
  | nil a => exact .cons hs hle hr (.nil c)
  | cons hs' hle' hr' _ ih => exact .cons hs' hle' hr' (ih hs hle hr)

theorem Contig.positions {a b : Nat} {rs : List PollResult} (h : Contig a rs b) :
    (rs.flatMap fun r => positions r.records) = List.range' a (b - a) := by
  induction h with
  | nil => rw [Nat.sub_self]; rfl
  | cons _ hle hr h ih =>
    rw [List.flatMap_cons, hr, ih]
    have hb := h.le
    rename_i a m b _ _ _
    rw [show b - a = (m - a) + (b - m) by omega, ← List.range'_append, Nat.one_mul, Nat.add_sub_cancel' hle]

/-- Every poll starts between the first start and the end. -/
theorem Contig.start_le {a b : Nat} {rs : List PollResult} (h : Contig a rs b) :
    ∀ r ∈ rs, a ≤ r.start ∧ r.start ≤ b := by
  induction h with
  | nil => exact fun r hr => by cases hr
  | cons hs hle _ h ih =>
    intro r hr
    rcases List.mem_cons.1 hr with rfl | hr
    · exact ⟨hs.ge, hs.le.trans (hle.trans h.le)⟩
    · exact ⟨hle.trans (ih r hr).1, (ih r hr).2⟩

theorem Contig.head_start {a b : Nat} {rs : List PollResult} (h : Contig a rs b) :
    ∀ r ∈ rs.head?, r.start = a := by
  intro r hr
  cases h with
  | nil => cases hr
  | cons hs => cases hr; exact hs

namespace Polling

/-- The bus positions in the results, poll by poll. -/
def delivered (s : Polling) : List Nat := s.results.flatMap fun r => positions r.records

/-- Up to the start of a poll that saw the bus drained, every position since the first poll is in the
results once, in order, and every record renders the event at its position. -/
structure Lossless (s : Polling) : Prop where
  covered : ∀ first ∈ s.results.head?, ∀ p ∈ s.results, p.drained = true →
    s.delivered.filter (· < p.start) = List.range' first.start (p.start - first.start)
  rendered : ∀ r ∈ s.results, ∀ x ∈ r.records, ∃ time event, s.bus[x.1]? = some event ∧
    onebotEventPayload time event = .ok x.2

/-- The client polls without a type filter, and once it has begun to poll an event is published only
while a poll is open that is less than the capacity behind. A poll takes the last event of its
budget only with nothing pending after it, and the clock reads no time before the epoch. -/
def Orderly (s : Polling) : Event → Prop
  | .publish _ =>
    match s.poll with
    | none => s.results = []
    | some p => Broadcast.backlog s.bus p.next < eventBroadcastCapacity
  | .subscribe types _ _ => types = none
  | .recv time =>
    match s.poll with
    | none => True
    | some p => time.isSome ∧ (p.left = 1 → Broadcast.backlog s.bus p.next ≤ 1)
  | .expire => True

instance decidableOrderly (s : Polling) (e : Event) : Decidable (Orderly s e) := by
  unfold Orderly
  cases e with
  | publish event =>
    cases s.poll with
    | none => exact decidable_of_iff (s.results.isEmpty = true) List.isEmpty_iff
    | some p => exact inferInstanceAs (Decidable (_ < _))
  | subscribe types m l => infer_instance
  | recv time => cases s.poll <;> infer_instance
  | expire => infer_instance

/-- A record renders the event at its position. -/
def Renders (bus : List ProtocolEvent) (x : Nat × String) : Prop :=
  ∃ time event, bus[x.1]? = some event ∧ onebotEventPayload time event = .ok x.2

theorem Renders.append {bus : List ProtocolEvent} {x : Nat × String} (h : Renders bus x) (event : ProtocolEvent) :
    Renders (bus ++ [event]) x := by
  obtain ⟨time, e, he, hp⟩ := h
  exact ⟨time, e, by rw [List.getElem?_append_left (List.getElem?_eq_some_iff.1 he).1]; exact he, hp⟩

/-- What holds of a poll in progress that began where the results so far end. -/
structure PollOk (s : Polling) (p : Poll) : Prop where
  types : p.types = none
  records : positions p.records = List.range' p.start (p.next - p.start)
  le : p.start ≤ p.next
  backlog : p.next ≤ s.bus.length ∧ Broadcast.backlog s.bus p.next ≤ eventBroadcastCapacity
  rendered : ∀ x ∈ p.records, Renders s.bus x
  contig : ∃ a, Contig a s.results p.start

structure Inv (s : Polling) : Prop where
  idle : s.poll = none → s.results = [] ∨ ∃ a, Contig a s.results s.bus.length
  busy : ∀ p, s.poll = some p → PollOk s p ∧ 0 < p.left
  rendered : ∀ r ∈ s.results, ∀ x ∈ r.records, Renders s.bus x

theorem Inv.publish {s : Polling} (h : Inv s) (event : ProtocolEvent) (hc : Orderly s (.publish event)) :
    Inv { s with bus := s.bus ++ [event] } where
  idle hn := by
    have : s.poll = none := hn
    simp only [Orderly, this] at hc
    exact .inl hc
  busy p hp := by
    have hp' : s.poll = some p := hp
    simp only [Orderly, hp'] at hc
    obtain ⟨⟨ht, hr, hle, ⟨hlen, -⟩, hrd, hct⟩, hb⟩ := h.busy p hp'
    refine ⟨⟨ht, hr, hle, ⟨?_, ?_⟩, fun x hx => (hrd x hx).append event, hct⟩, hb⟩
    · rw [List.length_append]; omega
    · rw [Broadcast.backlog_append _ _ hlen]; omega
  rendered r hr x hx := (h.rendered r hr x hx).append event

theorem pollBudget_pos (m l : Option Nat) : 0 < pollBudget m l := by
  unfold pollBudget; omega

theorem Inv.subscribe {s : Polling} (h : Inv s) (hn : s.poll = none) (m l : Option Nat) :
    Inv { s with poll := some ⟨none, s.bus.length, s.bus.length, pollBudget m l, []⟩ } where
  idle hp := by cases hp
  busy p hp := by
    cases hp
    refine ⟨⟨rfl, by rw [Nat.sub_self]; rfl, le_rfl, ⟨le_rfl, ?_⟩, fun x hx => (by cases hx), ?_⟩, pollBudget_pos m l⟩
    · show s.bus.length - s.bus.length ≤ _
      omega
    · rcases h.idle hn with hr | hr
      · exact ⟨_, by show Contig _ s.results _; rw [hr]; exact .nil _⟩
      · exact hr
  rendered := h.rendered

/-- A poll that has taken everything in ends where the bus ends. -/
theorem Inv.finish {s : Polling} {p : Poll} (h : Inv s) (hp : PollOk s p) (hn : p.next = s.bus.length)
    (drained : Bool) :
    Inv (s.finish p drained) where
  idle _ := by
    obtain ⟨a, hc⟩ := hp.contig
    exact .inr ⟨a, hn ▸ hc.snoc rfl hp.le hp.records⟩
  busy q hq := by cases hq
  rendered r hr := by
    rcases List.mem_append.1 hr with hr | hr
    · exact h.rendered r hr
    · rw [List.mem_singleton.1 hr]; exact hp.rendered

/-- One more event, rendered at a reading of the clock. -/
theorem PollOk.take {s : Polling} {p : Poll} (hp : PollOk s p) {event : ProtocolEvent}
    (he : s.bus[p.next]? = some event) (time : UInt64) : PollOk s (p.take event (some time)) := by
  have hlt := (List.getElem?_eq_some_iff.1 he).1
  have hle := hp.le
  have hrec : (p.take event (some time)).records = p.records ++ [(p.next, (payloadJson time event).toText)] := by
    simp only [Poll.take, accepts, hp.types]; rfl
  refine ⟨hp.types, ?_, Nat.le_succ_of_le hle, ⟨hlt, ?_⟩, fun x hx => ?_, hp.contig⟩
  · have hs : p.next + 1 - p.start = (p.next - p.start) + 1 := by omega
    rw [hrec]
    show positions (p.records ++ _) = List.range' p.start (p.next + 1 - p.start)
    rw [hs, List.range'_concat, positions, List.map_append, ← positions, hp.records]
    simp only [List.map_singleton, Nat.one_mul, Nat.add_sub_cancel' hle]
  · have := hp.backlog.2
    simp only [Broadcast.backlog, Poll.take] at this ⊢
    omega
  · rw [hrec] at hx
    rcases List.mem_append.1 hx with hx | hx
    · exact hp.rendered x hx
    · rw [List.mem_singleton.1 hx]; exact ⟨some time, event, he, rfl⟩

/-- After a round the poll goes on, or ends at a bus with nothing left. -/
theorem Inv.goOn {s : Polling} {p : Poll} (h : Inv s) (hp : PollOk s p) (hlast : p.left = 0 → p.next = s.bus.length) :
    Inv (s.goOn p) := by
  unfold Polling.goOn
  split
  · rename_i hz
    exact h.finish hp (hlast hz) false
  · rename_i hz
    constructor
    · intro hn
      cases hn
    · rintro q ⟨⟩
      exact ⟨⟨hp.types, hp.records, hp.le, hp.backlog, hp.rendered, hp.contig⟩, Nat.pos_of_ne_zero hz⟩
    · exact h.rendered

/-- A receive within the capacity finds an event or nothing. -/
theorem Inv.recv {s s' : Polling} {time : Option UInt64} (h : Inv s) (hc : Orderly s (.recv time))
    (hs : step s (.recv time) = some s') : Inv s' := by
  cases hq : s.poll with
  | none => simp [step, hq] at hs
  | some p =>
    obtain ⟨hp, hb⟩ := h.busy p hq
    simp only [Orderly, hq] at hc
    obtain ⟨ht, hlast⟩ := hc
    obtain ⟨t, rfl⟩ := Option.isSome_iff_exists.1 ht
    simp only [step, hq] at hs
    split at hs
    · rename_i event n hr
      obtain ⟨hev, -, hlt⟩ := Broadcast.recv_value hr
      cases hs
      refine h.goOn (hp.take hev t) fun hz => ?_
      -- the budget is used up, and by the condition nothing is left on the bus
      have hleft : p.left - 1 = 0 := hz
      have := hlast (by omega)
      simp only [Broadcast.backlog, Poll.take] at this ⊢
      omega
    · rename_i k n hr
      have := Broadcast.recv_lagged hr
      have := hp.backlog.2
      omega
    · rename_i n hr
      cases Broadcast.recv_closed hr
    · cases hs

/-- A poll that times out has taken everything in. -/
theorem Inv.expire {s s' : Polling} (h : Inv s) (hs : step s .expire = some s') : Inv s' := by
  cases hq : s.poll with
  | none => simp [step, hq] at hs
  | some p =>
    obtain ⟨hp, -⟩ := h.busy p hq
    simp only [step, hq] at hs
    split at hs
    · rename_i n hr
      cases hs
      exact h.finish hp (le_antisymm hp.backlog.1 (Broadcast.recv_pending hr).1) true
    · cases hs

theorem step_inv (s : Polling) (e : Event) (s' : Polling) (h : Inv s) (hc : Orderly s e) (hs : step s e = some s') :
    Inv s' := by
  cases e with
  | publish event => cases hs; exact h.publish event hc
  | subscribe types m l =>
    cases hn : s.poll with
    | some p => simp [step, hn] at hs
    | none =>
      simp only [step, hn, Option.isSome_none, Bool.false_eq_true, if_false, Option.some.injEq] at hs
      obtain rfl : types = none := hc
      subst hs
      exact h.subscribe hn m l
  | recv time => exact h.recv hc hs
  | expire => exact h.expire hs

theorem Inv.init : Inv {} where
  idle _ := .inl rfl
  busy p hp := by cases hp
  rendered r hr := by cases hr

/-- The part of a range below a bound. -/
theorem filter_range'_lt (a n b : Nat) (hb : b ≤ a + n) (ha : a ≤ b) :
    (List.range' a n).filter (· < b) = List.range' a (b - a) := by
  have hs : n = (b - a) + (a + n - b) := by omega
  rw [hs, ← List.range'_append, List.filter_append]
  have h1 : (List.range' a (b - a)).filter (· < b) = List.range' a (b - a) := by
    refine List.filter_eq_self.2 fun x hx => ?_
    rw [List.mem_range'_1] at hx
    exact decide_eq_true (by omega)
  have h2 : (List.range' (a + 1 * (b - a)) (a + n - b)).filter (· < b) = [] := by
    refine List.filter_eq_nil_iff.2 fun x hx => ?_
    rw [List.mem_range'_1] at hx
    rw [decide_eq_true_eq]; omega
  rw [h1, h2, List.append_nil]

theorem Inv.lossless {s : Polling} (h : Inv s) : Lossless s := by
  constructor
  · intro first hf p hp _
    -- the results are contiguous, whether a poll is open or not
    obtain ⟨a, b, hc⟩ : ∃ a b, Contig a s.results b := by
      cases hq : s.poll with
      | none =>
        rcases h.idle hq with hr | ⟨a, hc⟩
        · rw [hr] at hp; cases hp
        · exact ⟨a, _, hc⟩
      | some q => exact ⟨_, _, (h.busy q hq).1.contig.choose_spec⟩
    obtain ⟨ha, hb⟩ := hc.start_le p hp
    rw [delivered, hc.positions, hc.head_start first hf]
    exact filter_range'_lt _ _ _ (by omega) ha
  · exact h.rendered

/-- In every orderly run no event is lost between polls. -/
theorem polls_lossless {es : List Event} {s : Polling} (hc : Run.Along step Orderly {} es)
    (hs : Run.exec step {} es = some s) : Lossless s :=
  (Run.exec_inv step_inv es _ _ Inv.init hc hs).lossless

/-- Two polls, the first of which takes one event. -/
def twoPolls : List Event :=
  [.subscribe none (some 8) none, .publish .disconnected, .recv (some 7), .expire, .subscribe none none none, .expire]

theorem polls_lossless_twoPolls : ∃ s, Run.exec step {} twoPolls = some s ∧ Lossless s := by
  have h : (Run.exec step {} twoPolls).isSome := by decide +kernel
  obtain ⟨s, hs⟩ := Option.isSome_iff_exists.1 h
  exact ⟨s, hs, polls_lossless (by decide +kernel) hs⟩

/-- An event published after the first poll has returned and before the second one subscribes. -/
def betweenPolls : List Event :=
  [.subscribe none none none, .expire, .publish .disconnected, .subscribe none none none, .expire]

/-- The second poll sees the bus drained, and the event is in neither result. -/
theorem polls_lose_event : ∃ s, Run.exec step {} betweenPolls = some s ∧ ¬ Lossless s := by
  refine ⟨⟨[.disconnected], none, [⟨0, [], true⟩, ⟨1, [], true⟩]⟩, rfl, fun h => ?_⟩
  have := h.covered ⟨0, [], true⟩ rfl ⟨1, [], true⟩ (by simp) rfl
  cases this

end Polling

end NapCat.Api
