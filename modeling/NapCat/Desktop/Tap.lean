/-
The event tap of `DesktopRuntime`: its tasks as subscribers of event buses. A task receives an envelope and, when it
has the write lock, notes it in the snapshot. The snapshot is what the tasks have noted, in order, and what each of
them has received, missed or still has in hand accounts for every event sent since it subscribed.
-/
import NapCat.Desktop.Runtime
import NapCat.Lib.Reader

namespace NapCat.Desktop

open Broadcast

/-- An `EventBus`: what has been published, and whether a sender is left. -/
structure Bus where
  capacity : Nat
  log : List Envelope := []
  senders : Bool := true

/-- `EventBus::new`: a channel keeps a power of two of values. -/
def Bus.new (capacity : Nat) : Option Bus :=
  if capacity = 0 then none else some { capacity := capacity.nextPowerOfTwo }

/-- A task's subscription, and how much of what it has received is noted. -/
structure Watch where
  bus : Nat
  reader : Reader Envelope
  noted : Nat := 0

/-- What a task has in hand: received, and not yet noted. -/
def Watch.inHand (w : Watch) : List Envelope := w.reader.taken.drop w.noted

/-- An envelope noted in the snapshot: by which task, and of which bus. -/
structure Note where
  task : Nat
  bus : Nat
  envelope : Envelope

/-- The runtime, the buses, the subscription of each of its tasks, and what has been noted. -/
structure Tap where
  runtime : DesktopRuntime
  buses : List Bus := []
  watches : List Watch := []
  notes : List Note := []

namespace Tap

/-- A bus is made, published to, or loses its last sender; the calls and what becomes of a task; a task polls its
subscription or notes what it has received. -/
inductive Event
  | bus (capacity : Nat)
  | publish (b : Nat) (e : Envelope)
  | close (b : Nat)
  | start (b : Nat)
  | runtime (e : DesktopRuntime.Event)
  | poll (t : Nat)
  | note (t : Nat)

/-- A call or the end of a task. A task that is told to stop has noted what it had received. -/
def onRuntime (s : Tap) (e : DesktopRuntime.Event) : Option Tap :=
  match e with
  | .start | .received _ _ => none
  | .stopped t =>
    if (s.watches[t]?.all fun w => w.inHand.isEmpty) then
      (s.runtime.step (.stopped t)).map fun r => { s with runtime := r }
    else none
  | e => (s.runtime.step e).map fun r => { s with runtime := r }

/-- `start`: a task that is spawned has subscribed before. -/
def start (s : Tap) (b : Nat) (bus : Bus) (r : DesktopRuntime) : Tap :=
  if r.tasks.length = s.runtime.tasks.length then { s with runtime := r }
  else { s with runtime := r, watches := s.watches ++ [⟨b, .subscribe bus.log, 0⟩] }

def step (s : Tap) : Event → Option Tap
  | .bus capacity => (Bus.new capacity).map fun bus => { s with buses := s.buses ++ [bus] }
  | .publish b e => s.buses[b]?.bind fun bus =>
      if bus.senders then some { s with buses := s.buses.set b { bus with log := bus.log ++ [e] } } else none
  | .close b => s.buses[b]?.map fun bus => { s with buses := s.buses.set b { bus with senders := false } }
  | .start b => s.buses[b]?.bind fun bus =>
      if bus.senders then (s.runtime.step .start).map (s.start b bus) else none
  | .runtime e => s.onRuntime e
  | .poll t => s.watches[t]?.bind fun w => s.buses[w.bus]?.bind fun bus =>
      if s.runtime.isRunning t ∧ w.inHand.isEmpty then
        (w.reader.poll bus.capacity bus.log bus.senders).map fun r =>
          { s with watches := s.watches.set t { w with reader := r } }
      else none
  | .note t => s.watches[t]?.bind fun w =>
      match w.inHand with
      | [] => none
      | e :: _ => (s.runtime.step (.received t e)).map fun r =>
          { s with
            runtime := r
            watches := s.watches.set t { w with noted := w.noted + 1 }
            notes := s.notes ++ [⟨t, w.bus, e⟩] }

/-- A new runtime. -/
def new (title : String) : Tap := { runtime := .new title }

/-- What a task has noted, and what has been noted of a bus. -/
def notedBy (s : Tap) (t : Nat) : List Envelope := (s.notes.filter (·.task = t)).map Note.envelope

def notedOf (s : Tap) (b : Nat) : List Envelope := (s.notes.filter (·.bus = b)).map Note.envelope

/-! ## What a step of the runtime does -/

/-- Only a task that notes something changes the snapshot, and only a start makes a task. -/
theorem runtime_frame {r r' : DesktopRuntime} {e : DesktopRuntime.Event} (h : r.step e = some r') :
    (∃ t x, e = .received t x ∧ r.isRunning t = true ∧ r' = { r with snapshot := r.snapshot.observe x }) ∨
    (r'.snapshot = r.snapshot ∧ (e ≠ .start → r'.tasks.length = r.tasks.length)) := by
  cases e with
  | start =>
    right
    simp only [DesktopRuntime.step, Option.ite_none_right_eq_some, Option.some.injEq] at h
    obtain ⟨-, rfl⟩ := h
    refine ⟨?_, fun he => absurd rfl he⟩
    unfold DesktopRuntime.start
    split_ifs <;> rfl
  | stop =>
    right
    simp only [DesktopRuntime.step, Option.ite_none_right_eq_some, Option.some.injEq] at h
    obtain ⟨-, rfl⟩ := h
    unfold DesktopRuntime.stop
    split <;> exact ⟨rfl, fun _ => rfl⟩
  | sent =>
    right
    simp only [DesktopRuntime.step] at h
    split at h
    · cases h
      unfold DesktopRuntime.sent
      split_ifs
      · dsimp only
        split <;> exact ⟨rfl, fun _ => List.length_modify ..⟩
      · exact ⟨rfl, fun _ => rfl⟩
    · cases h
  | joined =>
    right
    simp only [DesktopRuntime.step] at h
    split at h
    · split_ifs at h
      cases h
      exact ⟨rfl, fun _ => rfl⟩
    · cases h
  | cancel =>
    right
    simp only [DesktopRuntime.step, Option.ite_none_left_eq_some, Option.some.injEq] at h
    obtain ⟨-, rfl⟩ := h
    exact ⟨rfl, fun _ => rfl⟩
  | received t x =>
    left
    simp only [DesktopRuntime.step, Option.ite_none_right_eq_some, Option.some.injEq] at h
    obtain ⟨hr, rfl⟩ := h
    exact ⟨t, x, rfl, hr, rfl⟩
  | stopped t =>
    right
    simp only [DesktopRuntime.step, Option.ite_none_right_eq_some, Option.some.injEq] at h
    obtain ⟨-, rfl⟩ := h
    exact ⟨rfl, fun _ => List.length_modify ..⟩
  | died t =>
    right
    simp only [DesktopRuntime.step, Option.ite_none_right_eq_some, Option.some.injEq] at h
    obtain ⟨-, rfl⟩ := h
    exact ⟨rfl, fun _ => List.length_modify ..⟩

/-- A start finds a task and changes nothing, or makes one. -/
theorem start_cases {r r' : DesktopRuntime} (h : r.step .start = some r') :
    r.call = none ∧ r'.call = none ∧ r'.snapshot = r.snapshot ∧
      ((r'.tasks = r.tasks ∧ r'.task = r.task) ∨
        (r.task = none ∧ r'.tasks = r.tasks ++ [({} : Task)] ∧ r'.task = some r.tasks.length)) := by
  simp only [DesktopRuntime.step, Option.ite_none_right_eq_some, Option.some.injEq] at h
  obtain ⟨hc, rfl⟩ := h
  unfold DesktopRuntime.start
  split_ifs with ht
  · exact ⟨hc, rfl, rfl, .inl ⟨rfl, rfl⟩⟩
  · refine ⟨hc, rfl, rfl, .inr ⟨?_, rfl, rfl⟩⟩
    cases htask : r.task with
    | none => rfl
    | some t =>
      rw [htask] at ht
      exact absurd rfl ht

/-- The calls and the ends of tasks leave the snapshot and the number of tasks alone. -/
theorem onRuntime_cases {s s' : Tap} {e : DesktopRuntime.Event} (h : s.onRuntime e = some s') :
    ∃ r, s.runtime.step e = some r ∧ s' = { s with runtime := r } ∧ r.snapshot = s.runtime.snapshot ∧
      r.tasks.length = s.runtime.tasks.length ∧ e ≠ .start := by
  have hgo : ∀ e, (∀ t x, e ≠ .received t x) → e ≠ .start →
      (s.runtime.step e).map (fun r => { s with runtime := r }) = some s' →
      ∃ r, s.runtime.step e = some r ∧ s' = { s with runtime := r } ∧ r.snapshot = s.runtime.snapshot ∧
        r.tasks.length = s.runtime.tasks.length ∧ e ≠ .start := by
    intro e hrec hstart h
    obtain ⟨r, hr, rfl⟩ := Option.map_eq_some_iff.1 h
    rcases runtime_frame hr with ⟨t, x, he, -⟩ | ⟨hsnap, hlen⟩
    · exact absurd he (hrec t x)
    · exact ⟨r, hr, rfl, hsnap, hlen hstart, hstart⟩
  unfold onRuntime at h
  split at h
  · cases h
  · cases h
  · split_ifs at h
    exact hgo _ (fun _ _ he => by cases he) (fun he => by cases he) h
  · rename_i hstart hrec hstopped
    exact hgo e (fun t x he => hrec t x he) hstart h

/-! ## The accounts -/

/-- The buses go on: each keeps what it has, and may have more. -/
def Grows (buses buses' : List Bus) : Prop :=
  ∀ (b : Nat) bus, buses[b]? = some bus →
    ∃ bus', buses'[b]? = some bus' ∧ (bus'.log = bus.log ∨ ∃ e, bus'.log = bus.log ++ [e])

theorem Grows.refl (buses : List Bus) : Grows buses buses := fun _ bus h => ⟨bus, h, .inl rfl⟩

theorem Grows.set {buses : List Bus} {b : Nat} {bus bus' : Bus} (hb : buses[b]? = some bus)
    (hlog : bus'.log = bus.log ∨ ∃ e, bus'.log = bus.log ++ [e]) : Grows buses (buses.set b bus') := by
  intro c x hx
  by_cases hbc : b = c
  · subst hbc
    obtain rfl : bus = x := Option.some.inj (hb.symm.trans hx)
    exact ⟨bus', List.getElem?_set_self (List.getElem?_eq_some_iff.1 hb).1, hlog⟩
  · exact ⟨x, (List.getElem?_set_ne hbc).trans hx, .inl rfl⟩

theorem Grows.append (buses : List Bus) (bus : Bus) : Grows buses (buses ++ [bus]) := fun _ x hx =>
  ⟨x, (List.getElem?_append_left (List.getElem?_eq_some_iff.1 hx).1).trans hx, .inl rfl⟩

/-- A task reads from a bus, has its accounts in order, and has noted all it has taken but what is in its hand. -/
structure Watching (s : Tap) (t : Nat) (w : Watch) : Prop where
  bus : ∃ bus, s.buses[w.bus]? = some bus ∧ w.reader.Ok bus.log
  noted : s.notedBy t = w.reader.taken.take w.noted
  inHand : w.noted ≤ w.reader.taken.length ∧ w.reader.taken.length ≤ w.noted + 1

/-- The accounts: the tasks and their subscriptions, and the snapshot as what has been noted. -/
structure Inv (title : String) (s : Tap) : Prop where
  length : s.watches.length = s.runtime.tasks.length
  watching : ∀ (t : Nat) w, s.watches[t]? = some w → s.Watching t w
  notes : ∀ n ∈ s.notes, n.task < s.watches.length
  snapshot : s.runtime.snapshot = (s.notes.map Note.envelope).foldl DesktopSnapshot.observe { title }

theorem Inv.new (title : String) : Inv title (new title) where
  length := rfl
  watching t w hw := by cases hw
  notes n hn := by cases hn
  snapshot := rfl

/-- A bus that goes on keeps the accounts of its readers. -/
theorem Grows.ok {buses buses' : List Bus} (h : Grows buses buses') {b : Nat} {r : Reader Envelope}
    (hr : ∃ bus, buses[b]? = some bus ∧ r.Ok bus.log) : ∃ bus, buses'[b]? = some bus ∧ r.Ok bus.log := by
  obtain ⟨bus, hb, hok⟩ := hr
  obtain ⟨bus', hb', hlog⟩ := h b bus hb
  refine ⟨bus', hb', ?_⟩
  rcases hlog with hlog | ⟨e, hlog⟩
  · rw [hlog]
    exact hok
  · rw [hlog]
    exact hok.send e

/-- Steps that change neither a subscription nor a note keep the accounts. -/
theorem Inv.frame {title : String} {s : Tap} {r : DesktopRuntime} {buses : List Bus} (h : Inv title s)
    (hlen : r.tasks.length = s.runtime.tasks.length) (hsnap : r.snapshot = s.runtime.snapshot)
    (hbuses : Grows s.buses buses) : Inv title { s with runtime := r, buses := buses } where
  length := h.length.trans hlen.symm
  watching t w hw := by
    obtain ⟨hbus, hnoted, hhand⟩ := h.watching t w hw
    exact ⟨hbuses.ok hbus, hnoted, hhand⟩
  notes := h.notes
  snapshot := hsnap.trans h.snapshot

theorem Inv.start {title : String} {s : Tap} {b : Nat} {bus : Bus} {r : DesktopRuntime} (h : Inv title s)
    (hb : s.buses[b]? = some bus) (hr : s.runtime.step .start = some r) : Inv title (s.start b bus r) := by
  obtain ⟨-, -, hsnap, hcases⟩ := start_cases hr
  unfold Tap.start
  rcases hcases with ⟨htasks, -⟩ | ⟨-, htasks, -⟩
  · rw [if_pos (congrArg List.length htasks)]
    exact h.frame (congrArg List.length htasks) hsnap (.refl _)
  · have hlen : r.tasks.length = s.runtime.tasks.length + 1 := by
      rw [htasks, List.length_append, List.length_singleton]
    rw [if_neg (by omega)]
    refine ⟨?_, fun t w hw => ?_, fun n hn => ?_, hsnap.trans h.snapshot⟩
    · rw [List.length_append, List.length_singleton, hlen, h.length]
    · rcases Nat.lt_trichotomy t s.watches.length with ht | rfl | ht
      · rw [List.getElem?_append_left ht] at hw
        obtain ⟨hbus, hnoted, hhand⟩ := h.watching t w hw
        exact ⟨hbus, hnoted, hhand⟩
      · rw [List.getElem?_concat_length, Option.some.injEq] at hw
        subst hw
        refine ⟨⟨bus, hb, .subscribe bus.log⟩, ?_, Nat.le_refl _, Nat.zero_le _⟩
        -- nobody has noted anything under this number yet
        have hnone : s.notes.filter (·.task = s.watches.length) = [] := by
          rw [List.filter_eq_nil_iff]
          intro n hn
          have := h.notes n hn
          simp only [decide_eq_true_eq]
          omega
        show (s.notes.filter (·.task = s.watches.length)).map Note.envelope = _
        rw [hnone]
        rfl
      · rw [List.getElem?_eq_none (by rw [List.length_append, List.length_singleton]; omega)] at hw
        cases hw
    · have := h.notes n hn
      show n.task < (s.watches ++ [_]).length
      rw [List.length_append, List.length_singleton]
      omega

theorem getElem?_set_cases {l : List Watch} {t u : Nat} {w x : Watch} (h : (l.set t w)[u]? = some x) :
    (u = t ∧ x = w) ∨ (u ≠ t ∧ l[u]? = some x) := by
  by_cases hut : u = t
  · subst hut
    have hlt : u < l.length := by
      have := (List.getElem?_eq_some_iff.1 h).1
      rwa [List.length_set] at this
    rw [List.getElem?_set_self hlt, Option.some.injEq] at h
    exact .inl ⟨rfl, h.symm⟩
  · rw [List.getElem?_set_ne (fun he => hut he.symm)] at h
    exact .inr ⟨hut, h⟩

theorem Inv.poll {title : String} {s : Tap} {t : Nat} {w : Watch} {bus : Bus} {r : Reader Envelope} (h : Inv title s)
    (hw : s.watches[t]? = some w) (hb : s.buses[w.bus]? = some bus) (hempty : w.inHand.isEmpty = true)
    (hr : w.reader.poll bus.capacity bus.log bus.senders = some r) :
    Inv title { s with watches := s.watches.set t { w with reader := r } } := by
  refine ⟨(List.length_set ..).trans h.length, fun u x hx => ?_, fun n hn => ?_, h.snapshot⟩
  · rcases getElem?_set_cases hx with ⟨rfl, rfl⟩ | ⟨-, hx⟩
    · obtain ⟨⟨bus', hb', hok⟩, hnoted, hle, -⟩ := h.watching u w hw
      obtain rfl : bus = bus' := Option.some.inj (hb.symm.trans hb')
      -- all it had taken is noted
      have hall : w.reader.taken.length ≤ w.noted := by
        rwa [Watch.inHand, List.isEmpty_iff, List.drop_eq_nil_iff] at hempty
      have hnoted' : s.notedBy u = w.reader.taken := by rw [hnoted, List.take_of_length_le hall]
      refine ⟨⟨bus, hb, hok.poll hr⟩, ?_, ?_⟩
      · show s.notedBy u = r.taken.take w.noted
        rw [hnoted']
        rcases Reader.poll_cases hr with ⟨a, -, rfl⟩ | ⟨-, rfl⟩ | rfl
        · rw [List.take_append_of_le_length hle, List.take_of_length_le hall]
        · rw [List.take_of_length_le hall]
        · rw [List.take_of_length_le hall]
      · show w.noted ≤ r.taken.length ∧ r.taken.length ≤ w.noted + 1
        rcases Reader.poll_cases hr with ⟨a, -, rfl⟩ | ⟨-, rfl⟩ | rfl
        · rw [List.length_append, List.length_singleton]
          omega
        · exact ⟨hle, Nat.le_succ_of_le hall⟩
        · exact ⟨hle, Nat.le_succ_of_le hall⟩
    · obtain ⟨hbus, hnoted, hhand⟩ := h.watching u x hx
      exact ⟨hbus, hnoted, hhand⟩
  · rw [List.length_set]
    exact h.notes n hn

theorem Inv.note {title : String} {s : Tap} {t : Nat} {w : Watch} {e : Envelope} {rest : List Envelope}
    {r : DesktopRuntime} (h : Inv title s) (hw : s.watches[t]? = some w) (he : w.inHand = e :: rest)
    (hr : s.runtime.step (.received t e) = some r) :
    Inv title { s with
      runtime := r
      watches := s.watches.set t { w with noted := w.noted + 1 }
      notes := s.notes ++ [⟨t, w.bus, e⟩] } := by
  simp only [DesktopRuntime.step, Option.ite_none_right_eq_some, Option.some.injEq] at hr
  obtain ⟨-, rfl⟩ := hr
  have hlt : t < s.watches.length := (List.getElem?_eq_some_iff.1 hw).1
  refine ⟨(List.length_set ..).trans h.length, fun u x hx => ?_, fun n hn => ?_, ?_⟩
  · have hnotes : ∀ u, ((s.notes ++ [(⟨t, w.bus, e⟩ : Note)]).filter (·.task = u)).map Note.envelope =
        s.notedBy u ++ if t = u then [e] else [] := by
      intro u
      rw [List.filter_append, List.map_append]
      by_cases htu : t = u
      · rw [if_pos htu, List.filter_cons_of_pos (by simpa using htu)]
        rfl
      · rw [if_neg htu, List.filter_cons_of_neg (by simpa using htu)]
        rfl
    rcases getElem?_set_cases hx with ⟨rfl, rfl⟩ | ⟨hut, hx⟩
    · obtain ⟨hbus, hnoted, hle, hge⟩ := h.watching u w hw
      have hlen : w.noted + 1 ≤ w.reader.taken.length := by
        have := congrArg List.length he
        rw [Watch.inHand, List.length_drop, List.length_cons] at this
        omega
      have hnext : w.reader.taken[w.noted]? = some e := by
        have := congrArg List.head? he
        rwa [Watch.inHand, List.head?_drop] at this
      refine ⟨hbus, ?_, hlen, by show w.reader.taken.length ≤ w.noted + 1 + 1; omega⟩
      show _ = w.reader.taken.take (w.noted + 1)
      rw [notedBy, hnotes, if_pos rfl, hnoted, List.take_add_one, hnext, Option.toList_some]
    · obtain ⟨hbus, hnoted, hhand⟩ := h.watching u x hx
      refine ⟨hbus, ?_, hhand⟩
      rw [notedBy, hnotes, if_neg (fun htu => hut htu.symm), List.append_nil, hnoted]
  · rw [List.length_set]
    rcases List.mem_append.1 hn with hn | hn
    · exact h.notes n hn
    · rw [List.mem_singleton.1 hn]
      exact hlt
  · show s.runtime.snapshot.observe e = _
    rw [List.map_append, List.foldl_append, ← h.snapshot]
    rfl

/-- What a step of the tap is. -/
theorem step_inv (title : String) (s : Tap) (e : Event) (s' : Tap) (h : Inv title s) (hs : step s e = some s') :
    Inv title s' := by
  cases e with
  | bus capacity =>
    obtain ⟨bus, -, rfl⟩ := Option.map_eq_some_iff.1 hs
    exact h.frame rfl rfl (.append s.buses bus)
  | publish b e =>
    obtain ⟨bus, hb, hs⟩ := Option.bind_eq_some_iff.1 hs
    split_ifs at hs
    cases hs
    exact h.frame rfl rfl (.set hb (.inr ⟨e, rfl⟩))
  | close b =>
    obtain ⟨bus, hb, rfl⟩ := Option.map_eq_some_iff.1 hs
    exact h.frame rfl rfl (.set hb (.inl rfl))
  | start b =>
    obtain ⟨bus, hb, hs⟩ := Option.bind_eq_some_iff.1 hs
    split_ifs at hs
    obtain ⟨r, hr, rfl⟩ := Option.map_eq_some_iff.1 hs
    exact h.start hb hr
  | runtime e =>
    obtain ⟨r, -, rfl, hsnap, hlen, -⟩ := onRuntime_cases hs
    exact h.frame hlen hsnap (.refl s.buses)
  | poll t =>
    obtain ⟨w, hw, hs⟩ := Option.bind_eq_some_iff.1 hs
    obtain ⟨bus, hb, hs⟩ := Option.bind_eq_some_iff.1 hs
    split_ifs at hs with hidle
    obtain ⟨r, hr, rfl⟩ := Option.map_eq_some_iff.1 hs
    exact h.poll hw hb hidle.2 hr
  | note t =>
    obtain ⟨w, hw, hs⟩ := Option.bind_eq_some_iff.1 hs
    split at hs
    · cases hs
    · rename_i e rest he
      obtain ⟨r, hr, rfl⟩ := Option.map_eq_some_iff.1 hs
      exact h.note hw he hr

theorem run_inv {title : String} {es : List Event} {s : Tap} (hs : Run.exec step (new title) es = some s) :
    Inv title s :=
  Run.exec_inv_always (step_inv title) es (new title) s (.new title) hs

/-- The largest value of the counter. -/
def maxEvents : Nat := 0xFFFFFFFFFFFFFFFF

/-- The number of events is that of the envelopes observed, as far as the counter goes. -/
theorem totalEvents_fold (envelopes : List Envelope) (data : DesktopSnapshot) :
    (envelopes.foldl DesktopSnapshot.observe data).totalEvents.toNat =
      if data.totalEvents.toNat + envelopes.length ≤ maxEvents then data.totalEvents.toNat + envelopes.length
      else maxEvents := by
  unfold maxEvents
  induction envelopes generalizing data with
  | nil =>
    have := data.totalEvents.toNat_lt
    rw [List.foldl_nil, List.length_nil, Nat.add_zero, if_pos (by omega)]
  | cons e envelopes ih =>
    have hlt := data.totalEvents.toNat_lt
    have hone : (data.observe e).totalEvents.toNat =
        if data.totalEvents.toNat = 2 ^ 64 - 1 then 2 ^ 64 - 1 else data.totalEvents.toNat + 1 := by
      simp only [DesktopSnapshot.observe]
      split_ifs with hmax hnat hnat
      · rw [hmax]
        rfl
      · rw [hmax] at hnat
        exact absurd rfl hnat
      · exact absurd (UInt64.toNat_inj.1 hnat) hmax
      · rw [UInt64.toNat_add, UInt64.toNat_one]
        omega
    rw [List.foldl_cons, ih, List.length_cons, hone]
    split_ifs <;> omega

/-- In every run the snapshot is what has been noted, in order, and every task's accounts are in order: what it has
noted and has in hand is in order a part of what its bus was sent since it subscribed, all that is not is counted as
missed, and where nothing is missed it is all there. -/
theorem snapshot_accounts {title : String} {es : List Event} {s : Tap} (hs : Run.exec step (new title) es = some s) :
    s.runtime.snapshot = (s.notes.map Note.envelope).foldl DesktopSnapshot.observe { title } ∧
    s.runtime.snapshot.totalEvents.toNat = (if s.notes.length ≤ maxEvents then s.notes.length else maxEvents) ∧
    ∀ (t : Nat) w, s.watches[t]? = some w → ∃ bus, s.buses[w.bus]? = some bus ∧
      (s.notedBy t ++ w.inHand).Sublist ((bus.log.take w.reader.next).drop w.reader.start) ∧
      (s.notedBy t).length + w.inHand.length + w.reader.missed = w.reader.next - w.reader.start ∧
      w.inHand.length ≤ 1 ∧
      (w.reader.missed = 0 → s.notedBy t ++ w.inHand = (bus.log.take w.reader.next).drop w.reader.start) := by
  have h := run_inv hs
  refine ⟨h.snapshot, ?_, fun t w hw => ?_⟩
  · have hzero : (({ title } : DesktopSnapshot).totalEvents).toNat = 0 := rfl
    rw [h.snapshot, totalEvents_fold, List.length_map, hzero, Nat.zero_add]
  · obtain ⟨⟨bus, hb, hok⟩, hnoted, hle, hge⟩ := h.watching t w hw
    have htaken : s.notedBy t ++ w.inHand = w.reader.taken := by
      rw [hnoted, Watch.inHand, List.take_append_drop]
    refine ⟨bus, hb, ?_, ?_, ?_, fun hmissed => ?_⟩
    · rw [htaken]
      exact hok.taken
    · rw [← List.length_append, htaken]
      exact hok.count
    · rw [Watch.inHand, List.length_drop]
      omega
    · rw [htaken]
      exact hok.complete hmissed

/-- A task that falls behind on a bus of one place. -/
def fallsBehind : List Event :=
  [.bus 1, .start 0, .publish 0 ⟨"protocol", "message", 1⟩, .publish 0 ⟨"protocol", "message", 2⟩,
    .publish 0 ⟨"protocol", "notice", 3⟩, .poll 0, .poll 0, .note 0]

theorem snapshot_accounts_fallsBehind : ∃ s, Run.exec step (new "desktop") fallsBehind = some s ∧
    s.runtime.snapshot.totalEvents.toNat = (if s.notes.length ≤ maxEvents then s.notes.length else maxEvents) := by
  have hk : (Run.exec step (new "desktop") fallsBehind).isSome = true := by decide +kernel
  obtain ⟨s, hs⟩ := Option.isSome_iff_exists.1 hk
  exact ⟨s, hs, (snapshot_accounts hs).2.1⟩

end Tap

end NapCat.Desktop
