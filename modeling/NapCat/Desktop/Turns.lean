/-
Tasks of the tap that take turns. As long as no stop is cancelled before the task it waits for is gone, one task runs
at a time: no event is noted twice, whatever is started and stopped on which bus, and after a stop has returned the
snapshot stays as it is.
-/
import NapCat.Desktop.Tap

namespace NapCat.Desktop.Tap

open Broadcast

/-! ## One task -/

/-- A stop waits for a task that is still running. -/
def joinsRunning (r : DesktopRuntime) : Bool :=
  match r.call with
  | some (.joining t) => r.isRunning t
  | _ => false

theorem joinsRunning_eq {r : DesktopRuntime} {t : Nat} (hc : r.call = some (.joining t)) :
    joinsRunning r = r.isRunning t := by
  rw [joinsRunning, hc]

def Event.cancels : Event → Bool
  | .runtime .cancel => true
  | _ => false

/-- No stop is cancelled while the task it waits for is still running. -/
def Orderly (s : Tap) (e : Event) : Prop := e.cancels = true → joinsRunning s.runtime = false

instance (s : Tap) (e : Event) : Decidable (Orderly s e) := inferInstanceAs (Decidable (_ → _))

/-- A task that runs is the one the runtime has, or the one a stop waits for. -/
structure OneTask (r : DesktopRuntime) : Prop where
  running : ∀ t, r.isRunning t = true → r.task = some t ∨ r.call = some (.joining t)
  joining : ∀ t, r.call = some (.joining t) → r.task = none

theorem OneTask.eq {r : DesktopRuntime} (h : OneTask r) {t u : Nat} (ht : r.isRunning t = true)
    (hu : r.isRunning u = true) : t = u := by
  rcases h.running t ht with htask | hcall
  · rcases h.running u hu with hutask | hucall
    · exact Option.some.inj (htask.symm.trans hutask)
    · rw [h.joining u hucall] at htask
      cases htask
  · rcases h.running u hu with hutask | hucall
    · rw [h.joining t hcall] at hutask
      cases hutask
    · have := hcall.symm.trans hucall
      rw [Option.some.injEq, StopAt.joining.injEq] at this
      exact this

/-- Between calls and without a task none is running. -/
theorem OneTask.none {r : DesktopRuntime} (h : OneTask r) (htask : r.task = none) (hcall : r.call = none) (t : Nat) :
    r.isRunning t = false := by
  by_contra hr
  rcases h.running t (by simpa using hr) with ht | hc
  · rw [htask] at ht
    cases ht
  · rw [hcall] at hc
    cases hc

/-- What is done to a task does not start it again. -/
theorem isRunning_modify {tasks : List Task} {f : Task → Task} (hf : ∀ x, (f x).running = true → x.running = true)
    {t u : Nat} (h : (tasks.modify t f)[u]?.any Task.running = true) : tasks[u]?.any Task.running = true := by
  rw [List.getElem?_modify] at h
  cases hu : tasks[u]? with
  | none =>
    rw [hu] at h
    cases h
  | some x =>
    rw [hu] at h
    split_ifs at h
    · exact hf x h
    · exact h

/-- Only a start makes a task run. -/
theorem isRunning_of_step {r r' : DesktopRuntime} {e : DesktopRuntime.Event} (h : r.step e = some r') (he : e ≠ .start)
    {t : Nat} (ht : r'.isRunning t = true) : r.isRunning t = true := by
  cases e with
  | start => exact absurd rfl he
  | stop =>
    simp only [DesktopRuntime.step, Option.ite_none_right_eq_some, Option.some.injEq] at h
    obtain ⟨-, rfl⟩ := h
    unfold DesktopRuntime.stop at ht
    split at ht <;> exact ht
  | sent =>
    simp only [DesktopRuntime.step] at h
    split at h
    · cases h
      unfold DesktopRuntime.sent at ht
      split_ifs at ht
      · dsimp only at ht
        split at ht <;> exact isRunning_modify (f := fun task => { task with told := true }) (fun _ hx => hx) ht
      · exact ht
    · cases h
  | joined =>
    simp only [DesktopRuntime.step] at h
    split at h
    · split_ifs at h
      cases h
      exact ht
    · cases h
  | cancel =>
    simp only [DesktopRuntime.step, Option.ite_none_left_eq_some, Option.some.injEq] at h
    obtain ⟨-, rfl⟩ := h
    exact ht
  | received u x =>
    simp only [DesktopRuntime.step, Option.ite_none_right_eq_some, Option.some.injEq] at h
    obtain ⟨-, rfl⟩ := h
    exact ht
  | stopped u =>
    simp only [DesktopRuntime.step, Option.ite_none_right_eq_some, Option.some.injEq] at h
    obtain ⟨-, rfl⟩ := h
    exact isRunning_modify (fun _ hx => by cases hx) ht
  | died u =>
    simp only [DesktopRuntime.step, Option.ite_none_right_eq_some, Option.some.injEq] at h
    obtain ⟨-, rfl⟩ := h
    exact isRunning_modify (fun _ hx => by cases hx) ht

/-- The handles keep track of the task that runs, but for a cancellation that leaves it behind. -/
theorem OneTask.step {r r' : DesktopRuntime} {e : DesktopRuntime.Event} (h : OneTask r)
    (ho : e = .cancel → joinsRunning r = false) (hs : r.step e = some r') : OneTask r' := by
  have hback : ∀ {t}, e ≠ .start → r'.isRunning t = true → r.isRunning t = true := fun he => isRunning_of_step hs he
  cases e with
  | start =>
    obtain ⟨hc, hc', -, hcases⟩ := start_cases hs
    refine ⟨fun t ht => .inl ?_, fun t ht => by rw [hc'] at ht; cases ht⟩
    rcases hcases with ⟨htasks, htask⟩ | ⟨htask, htasks, htask'⟩
    · rw [DesktopRuntime.isRunning, htasks] at ht
      rw [htask]
      rcases h.running t ht with h | h
      · exact h
      · rw [hc] at h
        cases h
    · rw [htask']
      have hnone := h.none htask hc t
      rw [DesktopRuntime.isRunning, htasks] at ht
      rcases Nat.lt_trichotomy t r.tasks.length with hlt | rfl | hlt
      · rw [List.getElem?_append_left hlt] at ht
        rw [DesktopRuntime.isRunning, ht] at hnone
        cases hnone
      · rfl
      · rw [List.getElem?_eq_none (by rw [List.length_append, List.length_singleton]; omega)] at ht
        cases ht
  | stop =>
    simp only [DesktopRuntime.step, Option.ite_none_right_eq_some, Option.some.injEq] at hs
    obtain ⟨hc, rfl⟩ := hs
    have hnot : ∀ t, r.call ≠ some (.joining t) := fun t => by rw [hc]; exact fun he => by cases he
    unfold DesktopRuntime.stop at hback ⊢
    split at hback
    · refine ⟨fun t ht => .inl ((h.running t ht).resolve_right (hnot t)), fun t ht => by cases ht⟩
    · refine ⟨fun t ht => .inl ((h.running t ht).resolve_right (hnot t)), fun t ht => by cases ht⟩
  | sent =>
    have htask : ∀ t, r'.isRunning t = true → ∀ u, r.call = some (.sending u) → r.task = some t := by
      intro t ht u hc
      refine (h.running t (hback (fun he => by cases he) ht)).resolve_right fun he => ?_
      rw [hc] at he
      cases he
    simp only [DesktopRuntime.step] at hs
    split at hs
    · rename_i u hc
      cases hs
      unfold DesktopRuntime.sent at htask ⊢
      split_ifs at htask ⊢
      · dsimp only at htask ⊢
        split at htask
        · rename_i hnone
          refine ⟨fun t ht => ?_, fun t ht => by cases ht⟩
          have := htask t ht u hc
          rw [hnone] at this
          cases this
        · rename_i v hv
          refine ⟨fun t ht => .inr ?_, fun t _ => rfl⟩
          have := htask t ht u hc
          rw [hv, Option.some.injEq] at this
          rw [this]
      · exact ⟨fun t ht => .inl (htask t ht u hc), fun t ht => by cases ht⟩
    · cases hs
  | joined =>
    simp only [DesktopRuntime.step] at hs
    split at hs
    · rename_i u hc
      split_ifs at hs with hr
      cases hs
      refine ⟨fun t ht => ?_, fun t ht => by cases ht⟩
      have ht := hback (fun he => by cases he) ht
      refine .inl ((h.running t ht).resolve_right fun he => ?_)
      rw [hc, Option.some.injEq, StopAt.joining.injEq] at he
      rw [he] at hr
      exact hr ht
    · cases hs
  | cancel =>
    simp only [DesktopRuntime.step, Option.ite_none_left_eq_some, Option.some.injEq] at hs
    obtain ⟨-, rfl⟩ := hs
    refine ⟨fun t ht => ?_, fun t ht => by cases ht⟩
    refine .inl ((h.running t ht).resolve_right fun he => ?_)
    have hno := ho rfl
    rw [joinsRunning_eq he] at hno
    exact Bool.false_ne_true (hno.symm.trans ht)
  | received u x =>
    simp only [DesktopRuntime.step, Option.ite_none_right_eq_some, Option.some.injEq] at hs
    obtain ⟨-, rfl⟩ := hs
    exact ⟨h.running, h.joining⟩
  | stopped u =>
    simp only [DesktopRuntime.step, Option.ite_none_right_eq_some, Option.some.injEq] at hs
    obtain ⟨-, rfl⟩ := hs
    exact ⟨fun t ht => h.running t (hback (fun he => by cases he) ht), h.joining⟩
  | died u =>
    simp only [DesktopRuntime.step, Option.ite_none_right_eq_some, Option.some.injEq] at hs
    obtain ⟨-, rfl⟩ := hs
    exact ⟨fun t ht => h.running t (hback (fun he => by cases he) ht), h.joining⟩

/-! ## What has been noted of a bus -/

/-- While the tasks take turns: what has been noted of a bus is in order a part of what it was sent, up to where the
task that runs has read, and that task's hand goes on from there. -/
structure Turns (s : Tap) : Prop where
  one : OneTask s.runtime
  known : ∀ n ∈ s.notes, n.bus < s.buses.length
  noted : ∀ (b : Nat) bus, s.buses[b]? = some bus → (s.notedOf b).Sublist bus.log
  upTo : ∀ (t : Nat) w bus, s.watches[t]? = some w → s.runtime.isRunning t = true → s.buses[w.bus]? = some bus →
    (s.notedOf w.bus ++ w.inHand).Sublist (bus.log.take w.reader.next)

theorem Turns.new (title : String) : Turns (new title) where
  one := ⟨(fun t ht => by cases ht), (fun t ht => by cases ht)⟩
  known n hn := by cases hn
  noted b bus hb := by cases hb
  upTo t w bus hw := by cases hw

/-- Steps of the runtime that neither start a task nor note anything. -/
theorem Turns.runtime {s : Tap} {e : DesktopRuntime.Event} {r : DesktopRuntime} (h : Turns s)
    (ho : e = .cancel → joinsRunning s.runtime = false) (hs : s.runtime.step e = some r) (he : e ≠ .start) :
    Turns { s with runtime := r } where
  one := h.one.step ho hs
  known := h.known
  noted := h.noted
  upTo t w bus hw ht hb := h.upTo t w bus hw (isRunning_of_step hs he ht) hb

/-- Nothing has been noted of a bus that is not there yet. -/
theorem Turns.notedOf_new {s : Tap} (h : Turns s) {b : Nat} (hb : s.buses.length ≤ b) : s.notedOf b = [] := by
  have hnone : s.notes.filter (·.bus = b) = [] := by
    rw [List.filter_eq_nil_iff]
    intro n hn
    have := h.known n hn
    simp only [decide_eq_true_eq]
    omega
  rw [notedOf, hnone, List.map_nil]

/-- The buses go on, or there is one more. -/
theorem Turns.grow {title : String} {s : Tap} {buses : List Bus} (h : Turns s) (hinv : Inv title s)
    (hg : Grows s.buses buses) (hlen : s.buses.length ≤ buses.length) : Turns { s with buses := buses } := by
  have hold : ∀ (b : Nat) bus, s.buses[b]? = some bus → ∀ bus', buses[b]? = some bus' →
      bus'.log = bus.log ∨ ∃ e, bus'.log = bus.log ++ [e] := by
    intro b bus hb bus' hb'
    obtain ⟨x, hx, hlog⟩ := hg b bus hb
    obtain rfl : x = bus' := Option.some.inj (hx.symm.trans hb')
    exact hlog
  refine ⟨h.one, fun n hn => Nat.lt_of_lt_of_le (h.known n hn) hlen, fun b bus' hb' => ?_, fun t w bus' hw ht hb' => ?_⟩
  · show (s.notedOf b).Sublist bus'.log
    rcases Nat.lt_or_ge b s.buses.length with hlt | hge
    · have hb := List.getElem?_eq_getElem hlt
      have hnoted := h.noted b _ hb
      rcases hold b _ hb bus' hb' with hlog | ⟨e, hlog⟩
      · rw [hlog]
        exact hnoted
      · rw [hlog]
        exact hnoted.trans (List.sublist_append_left _ _)
    · rw [h.notedOf_new hge]
      exact List.nil_sublist _
  · obtain ⟨bus, hb, hok⟩ := (hinv.watching t w hw).bus
    have hup := h.upTo t w bus hw ht hb
    show (s.notedOf w.bus ++ w.inHand).Sublist (bus'.log.take w.reader.next)
    rcases hold w.bus bus hb bus' hb' with hlog | ⟨e, hlog⟩
    · rw [hlog]
      exact hup
    · rw [hlog, List.take_append_of_le_length hok.next_le]
      exact hup

theorem Turns.start {title : String} {s : Tap} {b : Nat} {bus : Bus} {r : DesktopRuntime} (h : Turns s)
    (hinv : Inv title s) (hb : s.buses[b]? = some bus) (hr : s.runtime.step .start = some r) :
    Turns (s.start b bus r) := by
  have hone : OneTask r := h.one.step (fun he => by cases he) hr
  obtain ⟨hc, -, -, hcases⟩ := start_cases hr
  unfold Tap.start
  rcases hcases with ⟨htasks, -⟩ | ⟨htask, htasks, -⟩
  · rw [if_pos (congrArg List.length htasks)]
    refine ⟨hone, h.known, h.noted, fun t w bus hw ht hb => h.upTo t w bus hw ?_ hb⟩
    rwa [DesktopRuntime.isRunning, htasks] at ht
  · have hlen : r.tasks.length = s.runtime.tasks.length + 1 := by
      rw [htasks, List.length_append, List.length_singleton]
    rw [if_neg (by omega)]
    refine ⟨hone, h.known, h.noted, fun t w bus' hw ht hb' => ?_⟩
    -- the tasks before are gone
    have hnone := h.one.none htask hc t
    have hw : (s.watches ++ [⟨b, .subscribe bus.log, 0⟩])[t]? = some w := hw
    rw [DesktopRuntime.isRunning, htasks] at ht
    rcases Nat.lt_trichotomy t s.runtime.tasks.length with hlt | rfl | hlt
    · rw [List.getElem?_append_left hlt] at ht
      rw [DesktopRuntime.isRunning, ht] at hnone
      cases hnone
    · rw [← hinv.length, List.getElem?_concat_length, Option.some.injEq] at hw
      subst hw
      obtain rfl : bus = bus' := Option.some.inj (hb.symm.trans hb')
      show (s.notedOf b ++ []).Sublist (bus.log.take bus.log.length)
      rw [List.append_nil, List.take_length]
      exact h.noted b bus hb
    · rw [List.getElem?_eq_none (by rw [List.length_append, List.length_singleton]; omega)] at ht
      cases ht

theorem Turns.poll {s : Tap} {t : Nat} {w : Watch} {bus : Bus} {r : Reader Envelope} (h : Turns s)
    (hrun : s.runtime.isRunning t = true) (hw : s.watches[t]? = some w) (hb : s.buses[w.bus]? = some bus)
    (hnoted : w.noted = w.reader.taken.length) (hr : w.reader.poll bus.capacity bus.log bus.senders = some r) :
    Turns { s with watches := s.watches.set t { w with reader := r } } := by
  refine ⟨h.one, h.known, h.noted, fun u x bus' hx hu hb' => ?_⟩
  obtain rfl : u = t := h.one.eq hu hrun
  rcases getElem?_set_cases hx with ⟨-, rfl⟩ | ⟨hne, -⟩
  · obtain rfl : bus = bus' := Option.some.inj (hb.symm.trans hb')
    have hup := h.upTo u w bus hw hrun hb
    rw [Watch.inHand, hnoted, List.drop_length, List.append_nil] at hup
    show (s.notedOf w.bus ++ r.taken.drop w.noted).Sublist (bus.log.take r.next)
    rcases Reader.poll_cases hr with ⟨a, ha, rfl⟩ | ⟨hlag, rfl⟩ | rfl
    · have hwindow := Reader.window_succ (Nat.zero_le w.reader.next) ha
      rw [List.drop_zero, List.drop_zero] at hwindow
      rw [hnoted, List.drop_left, hwindow]
      exact hup.append (List.Sublist.refl _)
    · rw [hnoted, List.drop_length, List.append_nil]
      have hle : w.reader.next ≤ bus.log.length - bus.capacity := by
        rw [backlog] at hlag
        omega
      have hmono := Reader.window_mono bus.log 0 hle
      rw [List.drop_zero, List.drop_zero] at hmono
      exact hup.trans hmono
    · rw [hnoted, List.drop_length, List.append_nil]
      exact hup
  · exact absurd rfl hne

theorem Turns.note {title : String} {s : Tap} {t : Nat} {w : Watch} {e : Envelope} {rest : List Envelope}
    {r : DesktopRuntime} (h : Turns s) (hinv : Inv title s) (hw : s.watches[t]? = some w) (he : w.inHand = e :: rest)
    (hr : s.runtime.step (.received t e) = some r) :
    Turns { s with
      runtime := r
      watches := s.watches.set t { w with noted := w.noted + 1 }
      notes := s.notes ++ [⟨t, w.bus, e⟩] } := by
  simp only [DesktopRuntime.step, Option.ite_none_right_eq_some, Option.some.injEq] at hr
  obtain ⟨hrun, rfl⟩ := hr
  obtain ⟨bus, hb, hok⟩ := (hinv.watching t w hw).bus
  have hup := h.upTo t w bus hw hrun hb
  have hnotes : ∀ b, ((s.notes ++ [(⟨t, w.bus, e⟩ : Note)]).filter (·.bus = b)).map Note.envelope =
      s.notedOf b ++ if w.bus = b then [e] else [] := by
    intro b
    rw [List.filter_append, List.map_append]
    by_cases hbb : w.bus = b
    · rw [if_pos hbb, List.filter_cons_of_pos (by simpa using hbb)]
      rfl
    · rw [if_neg hbb, List.filter_cons_of_neg (by simpa using hbb)]
      rfl
  refine ⟨⟨h.one.running, h.one.joining⟩, fun n hn => ?_, fun b bus' hb' => ?_, fun u x bus' hx hu hb' => ?_⟩
  · rcases List.mem_append.1 hn with hn | hn
    · exact h.known n hn
    · rw [List.mem_singleton.1 hn]
      exact (List.getElem?_eq_some_iff.1 hb).1
  · rw [notedOf, hnotes]
    split_ifs with hbb
    · subst hbb
      obtain rfl : bus = bus' := Option.some.inj (hb.symm.trans hb')
      rw [he] at hup
      refine List.Sublist.trans ?_ (hup.trans (List.take_sublist _ _))
      exact (List.Sublist.refl _).append (List.cons_sublist_cons.2 (List.nil_sublist rest))
    · rw [List.append_nil]
      exact h.noted b bus' hb'
  · obtain rfl : u = t := h.one.eq hu hrun
    rcases getElem?_set_cases hx with ⟨-, rfl⟩ | ⟨hne, -⟩
    · obtain rfl : bus = bus' := Option.some.inj (hb.symm.trans hb')
      have hrest : w.reader.taken.drop (w.noted + 1) = rest := by
        rw [← List.tail_drop, ← Watch.inHand, he, List.tail_cons]
      rw [notedOf, hnotes, if_pos rfl, Watch.inHand, hrest, List.append_assoc, List.singleton_append, ← he]
      exact hup
    · exact absurd rfl hne

theorem step_turns {title : String} {s s' : Tap} {e : Event} (hinv : Inv title s) (h : Turns s) (ho : Orderly s e)
    (hs : step s e = some s') : Turns s' := by
  cases e with
  | bus capacity =>
    obtain ⟨bus, -, rfl⟩ := Option.map_eq_some_iff.1 hs
    exact h.grow hinv (.append s.buses bus) (by rw [List.length_append]; omega)
  | publish b e =>
    obtain ⟨bus, hb, hs⟩ := Option.bind_eq_some_iff.1 hs
    split_ifs at hs
    cases hs
    exact h.grow hinv (.set hb (.inr ⟨e, rfl⟩)) (Nat.le_of_eq (List.length_set ..).symm)
  | close b =>
    obtain ⟨bus, hb, rfl⟩ := Option.map_eq_some_iff.1 hs
    exact h.grow hinv (.set hb (.inl rfl)) (Nat.le_of_eq (List.length_set ..).symm)
  | start b =>
    obtain ⟨bus, hb, hs⟩ := Option.bind_eq_some_iff.1 hs
    split_ifs at hs
    obtain ⟨r, hr, rfl⟩ := Option.map_eq_some_iff.1 hs
    exact h.start hinv hb hr
  | runtime e =>
    obtain ⟨r, hr, rfl, -, -, hne⟩ := onRuntime_cases hs
    refine h.runtime (fun he => ho ?_) hr hne
    rw [he]
    rfl
  | poll t =>
    obtain ⟨w, hw, hs⟩ := Option.bind_eq_some_iff.1 hs
    obtain ⟨bus, hb, hs⟩ := Option.bind_eq_some_iff.1 hs
    split_ifs at hs with hidle
    obtain ⟨r, hr, rfl⟩ := Option.map_eq_some_iff.1 hs
    have hall := hidle.2
    rw [Watch.inHand, List.isEmpty_iff, List.drop_eq_nil_iff] at hall
    exact h.poll hidle.1 hw hb (Nat.le_antisymm (hinv.watching t w hw).inHand.1 hall) hr
  | note t =>
    obtain ⟨w, hw, hs⟩ := Option.bind_eq_some_iff.1 hs
    split at hs
    · cases hs
    · rename_i e rest he
      obtain ⟨r, hr, rfl⟩ := Option.map_eq_some_iff.1 hs
      exact h.note hinv hw he hr

/-! ## Every run -/

theorem run_turns {title : String} {es : List Event} {s : Tap} (hs : Run.exec step (new title) es = some s)
    (ho : Run.Along step Orderly (new title) es) : Turns s := by
  refine (Run.exec_inv (I := fun s => Inv title s ∧ Turns s) (fun s e s' h ho hstep => ?_) es (new title) s ?_ ho hs).2
  · exact ⟨step_inv title s e s' h.1 hstep, step_turns h.1 h.2 ho hstep⟩
  · exact ⟨.new title, .new title⟩

/-- In a run in which no stop is cancelled while its task still runs, what has been noted of a bus, by whatever tasks,
is in order a part of what was published there: no event is noted twice or before one that came before it. -/
theorem noted_once {title : String} {es : List Event} {s : Tap} (hs : Run.exec step (new title) es = some s)
    (ho : Run.Along step Orderly (new title) es) {b : Nat} {bus : Bus} (hb : s.buses[b]? = some bus) :
    (s.notedOf b).Sublist bus.log :=
  (run_turns hs ho).noted b bus hb

/-- A session that is stopped, and another one. -/
def twoSessions : List Event :=
  [.bus 4, .start 0, .publish 0 ⟨"protocol", "message", 1⟩, .poll 0, .note 0, .runtime .stop, .runtime .sent,
    .runtime (.stopped 0), .runtime .joined, .publish 0 ⟨"api", "message", 2⟩, .start 0,
    .publish 0 ⟨"protocol", "notice", 3⟩, .poll 1, .note 1]

theorem noted_once_twoSessions : ∃ s, Run.exec step (new "desktop") twoSessions = some s ∧
    ∃ bus, s.buses[0]? = some bus ∧ (s.notedOf 0).Sublist bus.log := by
  have hk : (Run.exec step (new "desktop") twoSessions).any (fun s => s.buses[0]?.isSome) = true := by decide +kernel
  obtain ⟨s, hs, hb⟩ := (Option.any_eq_true ..).1 hk
  obtain ⟨bus, hb⟩ := Option.isSome_iff_exists.1 hb
  exact ⟨s, hs, bus, hb, noted_once hs (by decide +kernel) hb⟩

/-- A stop that is cancelled while its task still runs leaves the task behind. Told to stop, it may go on receiving for
a while, next to the task of the next start: an event is noted twice. -/
def leftBehind : List Event :=
  [.bus 4, .start 0, .runtime .stop, .runtime .sent, .runtime .cancel, .start 0,
    .publish 0 ⟨"protocol", "message", 1⟩, .poll 0, .note 0, .poll 1, .note 1]

theorem noted_twice : ∃ s, Run.exec step (new "desktop") leftBehind = some s ∧
    ∃ bus, s.buses[0]? = some bus ∧ bus.log.length = 1 ∧ s.runtime.snapshot.totalEvents = 2 := by
  have hk : (Run.exec step (new "desktop") leftBehind).map (fun s =>
      (s.buses[0]?.map fun bus => bus.log.length, s.runtime.snapshot.totalEvents)) = some (some 1, 2) := by
    decide +kernel
  obtain ⟨s, hs, hk⟩ := Option.map_eq_some_iff.1 hk
  rw [Prod.mk.injEq] at hk
  obtain ⟨bus, hb, hlen⟩ := Option.map_eq_some_iff.1 hk.1
  exact ⟨s, hs, bus, hb, hlen, hk.2⟩

/-- No task is running, and the snapshot is as it was. -/
def Still (data : DesktopSnapshot) (s : Tap) : Prop := (∀ t, s.runtime.isRunning t = false) ∧ s.runtime.snapshot = data

/-- Without a start a runtime that stands still goes on to. -/
theorem step_still {data : DesktopSnapshot} {s s' : Tap} {e : Event} (h : Still data s) (he : ∀ b, e ≠ .start b)
    (hs : step s e = some s') : Still data s' := by
  cases e with
  | bus capacity =>
    obtain ⟨bus, -, rfl⟩ := Option.map_eq_some_iff.1 hs
    exact h
  | publish b e =>
    obtain ⟨bus, hb, hs⟩ := Option.bind_eq_some_iff.1 hs
    split_ifs at hs
    cases hs
    exact h
  | close b =>
    obtain ⟨bus, hb, rfl⟩ := Option.map_eq_some_iff.1 hs
    exact h
  | start b => exact absurd rfl (he b)
  | runtime e =>
    obtain ⟨r, hr, rfl, hsnap, -, hne⟩ := onRuntime_cases hs
    refine ⟨fun t => ?_, hsnap.trans h.2⟩
    by_contra ht
    have := isRunning_of_step hr hne (by simpa using ht)
    rw [h.1 t] at this
    cases this
  | poll t =>
    obtain ⟨w, hw, hs⟩ := Option.bind_eq_some_iff.1 hs
    obtain ⟨bus, hb, hs⟩ := Option.bind_eq_some_iff.1 hs
    split_ifs at hs with hidle
    rw [h.1 t] at hidle
    cases hidle.1
  | note t =>
    obtain ⟨w, hw, hs⟩ := Option.bind_eq_some_iff.1 hs
    split at hs
    · cases hs
    · obtain ⟨r, hr, rfl⟩ := Option.map_eq_some_iff.1 hs
      simp only [DesktopRuntime.step, h.1 t] at hr
      cases hr

/-- Once a stop that waited for its task has returned, in a run in which none was cancelled at that, the snapshot does
not change any more until the next start, whatever is published and whatever else is called. -/
theorem stopped_still {title : String} {es more : List Event} {s s' : Tap}
    (hs : Run.exec step (new title) (es ++ [.runtime .joined]) = some s)
    (ho : Run.Along step Orderly (new title) es) (hmore : ∀ e ∈ more, ∀ b, e ≠ .start b)
    (hs' : Run.exec step s more = some s') : s'.runtime.snapshot = s.runtime.snapshot := by
  rw [Run.exec_append] at hs
  obtain ⟨m, hm, hs⟩ := Option.bind_eq_some_iff.1 hs
  rw [Run.exec_singleton] at hs
  have hs : m.onRuntime .joined = some s := hs
  have hone := (run_turns hm ho).one
  obtain ⟨r, hr, rfl, -, -, -⟩ := onRuntime_cases hs
  have hstill : Still r.snapshot { m with runtime := r } := by
    refine ⟨fun t => ?_, rfl⟩
    have hone' : OneTask r := hone.step (fun he => by cases he) hr
    simp only [DesktopRuntime.step] at hr
    split at hr
    · rename_i u hc
      split_ifs at hr
      cases hr
      exact hone'.none (hone.joining u hc) rfl t
    · cases hr
  have hlabels : Run.Along step (fun _ e => ∀ b, e ≠ Event.start b) { m with runtime := r } more :=
    Run.along_of_forall more _ hmore
  exact (Run.exec_inv (I := Still r.snapshot) (fun s e s' h he hstep => step_still h he hstep) more _ s' hstill
    hlabels hs').2

theorem stopped_still_twoSessions : ∃ s s',
    Run.exec step (new "desktop") (twoSessions.take 8 ++ [.runtime .joined]) = some s ∧
    Run.exec step s [.publish 0 ⟨"api", "message", 2⟩, .runtime .stop] = some s' ∧
    s'.runtime.snapshot = s.runtime.snapshot := by
  have hk : ((Run.exec step (new "desktop") (twoSessions.take 8 ++ [.runtime .joined])).bind fun s =>
      Run.exec step s [.publish 0 ⟨"api", "message", 2⟩, .runtime .stop]).isSome = true := by decide +kernel
  obtain ⟨s', hs'⟩ := Option.isSome_iff_exists.1 hk
  obtain ⟨s, hs, hs'⟩ := Option.bind_eq_some_iff.1 hs'
  refine ⟨s, s', hs, hs', stopped_still hs (by decide +kernel) (fun e he b heq => ?_) hs'⟩
  subst heq
  simp at he

end NapCat.Desktop.Tap
