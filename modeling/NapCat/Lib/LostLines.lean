/-
What a line reader makes of the stream in any run. A read may go past the line, a call may expire inside of one, and
the next call starts wherever that leaves the stream: every line read is then an end of a frame, different lines are
ends of different frames, in the order of the frames.
-/
import NapCat.Lib.Framing
import NapCat.Lib.Ends
import Mathlib.Data.List.Forall2

namespace Framing

variable {F α V : Type} {encode : F → List α} {d : α} {cap : Nat}

/-! ## Lines with gaps -/

/-- Lines read from a stream one behind the other, where anything may have been dropped in between. -/
inductive ReadFrom (d : α) : List α → List (List α) → Prop
  | done (stream : List α) : ReadFrom d stream []
  | drop {stream : List α} {lines : List (List α)} (a : α) : ReadFrom d stream lines → ReadFrom d (a :: stream) lines
  | line {stream l : List α} {lines : List (List α)} : Delimited d l → ReadFrom d stream lines →
      ReadFrom d (l ++ stream) (l :: lines)

theorem ReadFrom.dropAll {stream : List α} {lines : List (List α)} (h : ReadFrom d stream lines) :
    ∀ x, ReadFrom d (x ++ stream) lines
  | [] => h
  | a :: x => .drop a (h.dropAll x)

theorem ReadFrom.append {s t : List α} {ls ks : List (List α)} (h : ReadFrom d s ls) (hk : ReadFrom d t ks) :
    ReadFrom d (s ++ t) (ls ++ ks) := by
  induction h with
  | done stream => exact hk.dropAll stream
  | drop a _ ih => exact .drop a ih
  | line hl _ ih =>
    rw [List.append_assoc, List.cons_append]
    exact .line hl ih

/-- The next line of an end of a stream of frames is an end of one of them, and stands before the frames behind it. -/
theorem line_of_frames (henc : ∀ f, Delimited d (encode f)) {l stream : List α} (hl : Delimited d l) {fs : List F}
    (h : l ++ stream <:+ fs.flatMap encode) :
    ∃ f fs', f :: fs' <:+ fs ∧ l <:+ encode f ∧ stream = fs'.flatMap encode := by
  obtain ⟨b, rfl, hb⟩ := hl
  obtain ⟨fs', ⟨hfs, hs⟩ | ⟨f, x, hfs, hx, hne, -, hs⟩⟩ := Ends.suffix_flatMap h
  · cases fs' with
    | nil => simp at hs
    | cons f fs' =>
      obtain ⟨c, hc, hd⟩ := henc f
      rw [List.flatMap_cons, hc] at hs
      obtain ⟨rfl, rfl⟩ := Delimited.inj hb hd hs
      exact ⟨f, fs', hfs, hc ▸ List.suffix_rfl, rfl⟩
  · obtain ⟨c, hc, hd⟩ := henc f
    have hend := hx
    rw [hc] at hx
    obtain ⟨y, rfl, hy⟩ := (List.suffix_concat_iff.1 hx).resolve_left hne
    obtain ⟨rfl, rfl⟩ := Delimited.inj hb (fun hm => hd (hy.subset hm)) hs
    exact ⟨f, fs', hfs, hend, rfl⟩

/-- Lines and some of the frames, in order, that they are ends of. -/
abbrev EndsOf (encode : F → List α) : List (List α) → List F → Prop :=
  List.SublistForall₂ fun l f => l <:+ encode f

/-- Lines read from a stream of frames are ends of some of them, in order. -/
theorem ReadFrom.ends (henc : ∀ f, Delimited d (encode f)) {stream : List α} {lines : List (List α)}
    (h : ReadFrom d stream lines) : ∀ {fs : List F}, stream <:+ fs.flatMap encode → EndsOf encode lines fs := by
  induction h with
  | done stream => exact fun _ => .nil
  | drop a _ ih => exact fun hs => ih ((List.suffix_cons a _).trans hs)
  | line hl _ ih =>
    intro fs hs
    obtain ⟨f, fs', ⟨before, rfl⟩, hend, rfl⟩ := line_of_frames henc hl hs
    clear hs
    induction before with
    | nil => exact .cons hend (ih List.suffix_rfl)
    | cons g before ihb => exact .cons_right ihb

theorem EndsOf.of_mem {lines : List (List α)} {fs : List F} (h : EndsOf encode lines fs) :
    ∀ l ∈ lines, ∃ f ∈ fs, l <:+ encode f := by
  induction h with
  | nil => exact fun l hl => by cases hl
  | @cons l f lines fs hend _ ih =>
    intro k hk
    rcases List.mem_cons.1 hk with rfl | hk
    · exact ⟨f, List.mem_cons_self, hend⟩
    · obtain ⟨g, hg, hkg⟩ := ih k hk
      exact ⟨g, List.mem_cons_of_mem f hg, hkg⟩
  | @cons_right f lines fs _ ih =>
    intro k hk
    obtain ⟨g, hg, hkg⟩ := ih k hk
    exact ⟨g, List.mem_cons_of_mem f hg, hkg⟩

/-- Where no proper end of a frame is taken for a value, the values read are those of some of the frames, in order. -/
theorem EndsOf.values {decode : List α → Option V} {value : F → V} (hwhole : ∀ f, decode (encode f) = some (value f))
    (hend : ∀ f l, l <:+ encode f → l ≠ encode f → decode l = none) {lines : List (List α)} {fs : List F}
    (h : EndsOf encode lines fs) : (lines.filterMap decode).Sublist (fs.map value) := by
  induction h with
  | nil => exact List.nil_sublist _
  | @cons l f lines fs hl _ ih =>
    rw [List.map_cons]
    by_cases hlf : l = encode f
    · rw [List.filterMap_cons_some (hlf ▸ hwhole f)]
      exact ih.cons_cons (value f)
    · rw [List.filterMap_cons_none (hend f l hl hlf)]
      exact ih.cons (value f)
  | @cons_right f lines fs _ ih => exact ih.cons (value f)

/-! ## Runs -/

/-- What is gone from the stream has been read as these lines, and the call in progress is inside of one. -/
structure Passed (encode : F → List α) (d : α) (s : State F α) : Prop where
  stream : ∃ past, s.written.flatMap encode = past ++ (s.part ++ s.sock ++ s.flight) ∧ ReadFrom d past s.lines
  part : d ∉ s.part

theorem Passed.init : Passed encode d {} where
  stream := ⟨[], rfl, .done []⟩
  part h := by cases h

variable [DecidableEq α]

theorem split_at_delimiter {chunk : List α} (h : d ∈ chunk) :
    ∃ rest, chunk = chunk.takeWhile (· ≠ d) ++ [d] ++ rest := by
  have hne : chunk.dropWhile (· ≠ d) ≠ [] := by
    intro hnil
    have := List.dropWhile_eq_nil_iff.1 hnil d h
    simp at this
  obtain ⟨c, rest, hc⟩ := List.exists_cons_of_ne_nil hne
  have hd : c = d := by
    have := List.head_dropWhile_not (fun a => decide (a ≠ d)) hne
    simp only [hc, List.head_cons, decide_eq_false_iff_not, not_not] at this
    exact this
  refine ⟨rest, ?_⟩
  rw [List.append_assoc, List.singleton_append, ← hd, ← hc, hd]
  exact List.takeWhile_append_dropWhile.symm

theorem Passed.fill {s : State F α} {part : List α} {n : Nat} (h : Passed encode d s) (hr : s.reader = some part) :
    Passed encode d (fill d s part n) := by
  have hp : s.part = part := by rw [State.part, hr]; rfl
  obtain ⟨past, hs, hread⟩ := h.stream
  have hd := h.part
  rw [hp] at hs hd
  unfold Framing.fill
  dsimp only
  split
  · -- the line is read, and what the buffer holds beyond it is dropped
    rename_i hm
    obtain ⟨rest, hrest⟩ := split_at_delimiter hm
    have hl : Delimited d (part ++ (s.sock.take n).takeWhile (· ≠ d) ++ [d]) :=
      ⟨_, rfl, by
        rw [List.mem_append, not_or]
        exact ⟨hd, fun hx => by simpa using List.mem_takeWhile_imp hx⟩⟩
    refine ⟨⟨past ++ (part ++ (s.sock.take n).takeWhile (· ≠ d) ++ [d] ++ rest), ?_, ?_⟩, fun hx => by cases hx⟩
    · show s.written.flatMap encode = _ ++ ([] ++ s.sock.drop n ++ s.flight)
      rw [hs, ← List.take_append_drop n s.sock]
      conv_lhs => rw [hrest]
      simp only [List.append_assoc, List.nil_append, List.take_append_drop]
    · show ReadFrom d _ (List.filterMap Outcome.line? (s.outcomes ++ [.line _]))
      rw [List.filterMap_append]
      exact hread.append (.line hl (.done rest))
  · rename_i hm
    refine ⟨⟨past, ?_, hread⟩, fun hx => ?_⟩
    · rw [hs]
      simp only [State.part, Option.getD_some, List.append_assoc]
      rw [← List.append_assoc (s.sock.take n), List.take_append_drop]
    · rcases List.mem_append.1 hx with hx | hx
      · exact hd hx
      · exact hm hx

omit [DecidableEq α] in
/-- A call that ends without a line drops what it has read of one. -/
theorem Passed.finish {s : State F α} {o : Outcome α} (h : Passed encode d s) (ho : o.line? = none) :
    Passed encode d { s with reader := none, outcomes := s.outcomes ++ [o] } := by
  obtain ⟨past, hs, hread⟩ := h.stream
  refine ⟨⟨past ++ s.part, ?_, ?_⟩, fun hx => by cases hx⟩
  · show s.written.flatMap encode = past ++ s.part ++ ([] ++ s.sock ++ s.flight)
    rw [hs]
    simp only [List.append_assoc, List.nil_append]
  · have hl : State.lines { s with reader := none, outcomes := s.outcomes ++ [o] } = s.lines := by
      simp [State.lines, ho]
    rw [hl, ← List.append_nil s.lines]
    exact hread.append (.done s.part)

omit [DecidableEq α] in
/-- The stream does not end inside a line. -/
theorem Passed.part_eq_nil (henc : ∀ f, Delimited d (encode f)) {s : State F α} (h : Passed encode d s)
    (hs : s.sock = []) (hf : s.flight = []) : s.part = [] := by
  by_contra hne
  obtain ⟨past, hstream, -⟩ := h.stream
  rw [hs, hf, List.append_nil, List.append_nil] at hstream
  have hend : s.part <:+ s.written.flatMap encode := hstream ▸ List.suffix_append past s.part
  have hlast := Ends.getLast?_suffix hend hne
  rcases List.eq_nil_or_concat s.written with hw | ⟨fs, f, hw⟩
  · rw [hw] at hend
    exact hne (List.suffix_nil.1 hend)
  · obtain ⟨b, hb, -⟩ := henc f
    rw [hw, List.concat_eq_append, List.flatMap_append, List.flatMap_singleton, hb, ← List.append_assoc,
      List.getLast?_concat] at hlast
    exact h.part (List.mem_of_getLast? hlast)

theorem step_passed (henc : ∀ f, Delimited d (encode f)) (s : State F α) (e : Event F) (s' : State F α)
    (h : Passed encode d s) (hs : step encode d cap s e = some s') : Passed encode d s' := by
  obtain ⟨past, hst, hread⟩ := h.stream
  cases e with
  | write f =>
    simp only [step, Option.ite_none_left_eq_some, Option.some.injEq] at hs
    obtain ⟨-, rfl⟩ := hs
    refine ⟨⟨past, ?_, hread⟩, h.part⟩
    show (s.written ++ [f]).flatMap encode = past ++ (s.part ++ s.sock ++ (s.flight ++ encode f))
    rw [List.flatMap_append, hst]
    simp
  | close => cases hs; exact ⟨⟨past, hst, hread⟩, h.part⟩
  | arrive n =>
    cases hs
    refine ⟨⟨past, ?_, hread⟩, h.part⟩
    show s.written.flatMap encode = past ++ (s.part ++ (s.sock ++ s.flight.take n) ++ s.flight.drop n)
    rw [hst]
    simp
  | call =>
    simp only [step, Option.ite_none_right_eq_some, Option.some.injEq] at hs
    obtain ⟨hr, rfl⟩ := hs
    rw [State.part, hr] at hst
    exact ⟨⟨past, hst, hread⟩, fun hx => by cases hx⟩
  | fill n =>
    cases hr : s.reader with
    | none => simp [step, hr] at hs
    | some part =>
      simp only [step, hr, Option.ite_none_right_eq_some, Option.some.injEq] at hs
      obtain ⟨-, rfl⟩ := hs
      exact h.fill hr
  | eof =>
    cases hr : s.reader with
    | none => simp [step, hr] at hs
    | some part =>
      simp only [step, hr, Option.ite_none_right_eq_some, Option.some.injEq] at hs
      obtain ⟨⟨-, hf, hk⟩, rfl⟩ := hs
      have hp := h.part_eq_nil henc hk hf
      have hp' : part = [] := by rw [State.part, hr] at hp; exact hp
      rw [if_pos hp']
      exact h.finish rfl
  | expire =>
    cases hr : s.reader with
    | none => simp [step, hr] at hs
    | some part =>
      simp only [step, hr, Option.some.injEq] at hs
      subst hs
      exact h.finish rfl

/-- Over any run, the lines read are ends of some of the frames written, in order. -/
theorem run_ends (henc : ∀ f, Delimited d (encode f)) {es : List (Event F)} {s : State F α}
    (hs : Run.exec (step encode d cap) {} es = some s) : EndsOf encode s.lines s.written := by
  have h : Passed encode d s := Run.exec_inv_always (step_passed henc) es _ _ Passed.init hs
  obtain ⟨past, hst, hread⟩ := h.stream
  have hall := hread.append (.done (s.part ++ s.sock ++ s.flight))
  rw [List.append_nil, ← hst] at hall
  exact hall.ends henc List.suffix_rfl

end Framing
