/-
Frames that end in a delimiter, written one after the other to a stream, some of them cut off. A reader that
splits the stream at the delimiters gets a cut frame and the next whole one as one piece, which it cannot decode.
What it reads is therefore every whole frame that does not come right after a cut one.
-/
import NapCat.Lib.Framing

namespace CutWrites

/-- Frames as they are encoded, and what a reader makes of a piece of the stream: it decodes whole frames, and
nothing in which a whole frame follows cut ones. -/
structure Codec (F P α : Type) where
  delim : α
  encode : F → List α
  value : F → P
  decode : List α → Option P
  delimited : ∀ f, Framing.Delimited delim (encode f)
  decode_whole : ∀ f, decode (encode f) = some (value f)
  decode_glued : ∀ (parts : List (List α)) (f : F), parts ≠ [] →
    (∀ p ∈ parts, p ≠ [] ∧ ∃ g, p <+: encode g ∧ p ≠ encode g) → decode (parts.flatten ++ encode f) = none

/-- A frame of which the first `taken` elements have been written. -/
structure Cut (F : Type) where
  frame : F
  taken : Nat
  deriving DecidableEq, Repr

variable {F P α : Type} (k : Codec F P α)

namespace Codec

/-- What the stream has of a frame. -/
def written (c : Cut F) : List α := (k.encode c.frame).take c.taken

def whole (c : Cut F) : Bool := (k.encode c.frame).length ≤ c.taken

/-- A frame of which a part is missing and a part is not. -/
def torn (c : Cut F) : Bool := 0 < c.taken ∧ c.taken < (k.encode c.frame).length

def stream (cs : List (Cut F)) : List α := cs.flatMap k.written

/-- Whether the stream ends in a cut frame, after it did or did not before. -/
def after (cut : Bool) (c : Cut F) : Bool := if c.taken = 0 then cut else k.torn c

/-- The same after a list of frames. -/
def endsTorn (cut : Bool) (cs : List (Cut F)) : Bool := cs.foldl k.after cut

/-- The frames that can be read: the whole ones that do not follow a cut one. -/
def readable (cut : Bool) : List (Cut F) → List F
  | [] => []
  | c :: cs => (if k.whole c ∧ cut = false then [c.frame] else []) ++ readable (k.after cut c) cs

/-! ## One frame -/

theorem encode_pos (f : F) : 0 < (k.encode f).length := by
  obtain ⟨b, hb, -⟩ := k.delimited f
  rw [hb, List.length_append, List.length_singleton]
  omega

theorem whole_iff {c : Cut F} : k.whole c = true ↔ (k.encode c.frame).length ≤ c.taken := by
  rw [whole, decide_eq_true_iff]

theorem torn_iff {c : Cut F} : k.torn c = true ↔ 0 < c.taken ∧ c.taken < (k.encode c.frame).length := by
  rw [torn, decide_eq_true_iff]

theorem written_of_whole {c : Cut F} (h : k.whole c = true) : k.written c = k.encode c.frame :=
  List.take_of_length_le (k.whole_iff.1 h)

theorem torn_eq_false_of_whole {c : Cut F} (h : k.whole c = true) : k.torn c = false := by
  have := k.whole_iff.1 h
  rw [← Bool.not_eq_true, torn_iff]
  omega

/-- A frame is written whole, or torn, or not at all. -/
theorem cases_cut (c : Cut F) : k.whole c = true ∨ k.torn c = true ∨ c.taken = 0 := by
  rw [whole_iff, torn_iff]
  omega

theorem written_zero {c : Cut F} (h : c.taken = 0) : k.written c = [] := by
  rw [written, h, List.take_zero]

theorem whole_eq_false_of_zero {c : Cut F} (h : c.taken = 0) : k.whole c = false := by
  have := k.encode_pos c.frame
  rw [← Bool.not_eq_true, whole_iff]
  omega

/-- What is written of a torn frame is a part of it that is not empty. -/
theorem written_of_torn {c : Cut F} (h : k.torn c = true) :
    k.written c ≠ [] ∧ k.written c <+: k.encode c.frame ∧ k.written c ≠ k.encode c.frame := by
  obtain ⟨hpos, hlt⟩ := k.torn_iff.1 h
  have hlen : (k.written c).length = c.taken := by
    rw [written, List.length_take]
    omega
  refine ⟨?_, List.take_prefix _ _, ?_⟩
  · apply List.length_pos_iff.1
    omega
  · intro he
    rw [he] at hlen
    omega

theorem not_mem_of_torn {c : Cut F} (h : k.torn c = true) : k.delim ∉ k.written c := by
  obtain ⟨-, hp, hne⟩ := k.written_of_torn h
  obtain ⟨b, hb, hd⟩ := k.delimited c.frame
  rw [hb] at hp hne
  intro hm
  rcases List.prefix_concat_iff.1 hp with he | hp
  · exact hne he
  · exact hd (hp.subset hm)

/-! ## The pieces of a stream -/

section Reader

variable [DecidableEq α]

/-- The pieces of a stream up to its delimiters; `part` is the one that has begun. -/
def pieces (part : List α) : List α → List (List α)
  | [] => []
  | x :: xs => if x = k.delim then (part ++ [x]) :: pieces [] xs else pieces (part ++ [x]) xs

/-- What a reader gets out of a stream. -/
def read (xs : List α) : List P := (k.pieces [] xs).filterMap k.decode

/-- Elements before the delimiter go into the piece that has begun. -/
theorem pieces_append (xs : List α) : ∀ (b part : List α), k.delim ∉ b →
    k.pieces part (b ++ xs) = k.pieces (part ++ b) xs
  | [], part, _ => by rw [List.nil_append, List.append_nil]
  | x :: b, part, h => by
    rw [List.mem_cons, not_or] at h
    rw [List.cons_append, pieces, if_neg (fun he => h.1 he.symm), pieces_append xs b _ h.2, List.append_assoc,
      List.singleton_append]

/-- A whole frame ends the piece that has begun. -/
theorem pieces_encode (f : F) (part xs : List α) :
    k.pieces part (k.encode f ++ xs) = (part ++ k.encode f) :: k.pieces [] xs := by
  obtain ⟨b, hb, hd⟩ := k.delimited f
  rw [hb, List.append_assoc, pieces_append k _ _ _ hd, List.singleton_append, pieces, if_pos rfl, List.append_assoc]

/-- What a reader gets after some cut frames at the start of a piece. -/
theorem read_after (cs : List (Cut F)) : ∀ ts : List (Cut F), (∀ t ∈ ts, k.torn t = true) →
    (k.pieces (k.stream ts) (k.stream cs)).filterMap k.decode = (k.readable (!ts.isEmpty) cs).map k.value := by
  induction cs with
  | nil => exact fun ts _ => rfl
  | cons c cs ih =>
    intro ts hts
    have hcons : k.stream (c :: cs) = k.written c ++ k.stream cs := List.flatMap_cons
    rw [hcons, readable, List.map_append]
    rcases k.cases_cut c with hw | ht | hz
    · -- the piece ends here, and nothing is cut after it
      have hafter : k.after (!ts.isEmpty) c = false := by
        unfold after
        rw [if_neg, torn_eq_false_of_whole k hw]
        intro hz
        rw [whole_eq_false_of_zero k hz] at hw
        cases hw
      rw [written_of_whole k hw, pieces_encode, hafter]
      have ih := ih [] (fun t ht => by cases ht)
      cases ts with
      | nil =>
        have hdec : k.decode (k.stream [] ++ k.encode c.frame) = some (k.value c.frame) := k.decode_whole c.frame
        rw [List.filterMap_cons_some hdec, if_pos ⟨hw, rfl⟩]
        exact congrArg _ ih
      | cons t ts =>
        have hdec : k.decode (k.stream (t :: ts) ++ k.encode c.frame) = none := by
          apply k.decode_glued ((t :: ts).map k.written) c.frame (by simp)
          intro p hp
          obtain ⟨u, hu, rfl⟩ := List.mem_map.1 hp
          obtain ⟨hne, hpre, hlt⟩ := k.written_of_torn (hts u hu)
          exact ⟨hne, u.frame, hpre, hlt⟩
        rw [List.filterMap_cons_none hdec, if_neg (by simp)]
        exact ih
    · -- the piece goes on
      have hstream : k.stream ts ++ k.written c = k.stream (ts ++ [c]) := by
        simp only [stream, List.flatMap_append, List.flatMap_singleton]
      have hzero : ¬ c.taken = 0 := by
        have := (k.torn_iff.1 ht).1
        omega
      have hnw : ¬ (k.whole c = true ∧ (!ts.isEmpty) = false) := by
        rintro ⟨hw, -⟩
        rw [torn_eq_false_of_whole k hw] at ht
        cases ht
      rw [pieces_append k _ _ _ (k.not_mem_of_torn ht), hstream, if_neg hnw, after, if_neg hzero, ht]
      have hne : (!(ts ++ [c]).isEmpty) = true := by
        rw [Bool.not_eq_true', List.isEmpty_eq_false_iff]
        simp
      rw [ih (ts ++ [c]) (fun t ht' => by
        rcases List.mem_append.1 ht' with h | h
        · exact hts t h
        · rw [List.mem_singleton.1 h]
          exact ht), hne]
      rfl
    · rw [written_zero k hz, List.nil_append, ih ts hts, whole_eq_false_of_zero k hz, after, if_pos hz]
      simp

/-- A reader gets the readable frames, in order. -/
theorem read_stream (cs : List (Cut F)) : k.read (k.stream cs) = (k.readable false cs).map k.value :=
  k.read_after cs [] (fun t ht => by cases ht)

theorem pieces_prefix {ys : List α} : ∀ {xs part : List α}, xs <+: ys → k.pieces part xs <+: k.pieces part ys := by
  induction ys with
  | nil =>
    intro xs part h
    obtain rfl := List.prefix_nil.1 h
    exact List.prefix_rfl
  | cons y ys ih =>
    intro xs part h
    rcases List.prefix_cons_iff.1 h with rfl | ⟨xs, rfl, hxs⟩
    · exact List.nil_prefix
    · simp only [pieces]
      split_ifs
      · exact List.cons_prefix_cons.2 ⟨rfl, ih hxs⟩
      · exact ih hxs

/-- As long as only a part of the stream has come in, a part of the frames has been read. -/
theorem read_prefix {xs ys : List α} (h : xs <+: ys) : k.read xs <+: k.read ys :=
  (k.pieces_prefix h).filterMap k.decode

end Reader

/-! ## What is readable -/

theorem readable_append (cs ds : List (Cut F)) : ∀ cut,
    k.readable cut (cs ++ ds) = k.readable cut cs ++ k.readable (k.endsTorn cut cs) ds := by
  induction cs with
  | nil => exact fun cut => rfl
  | cons c cs ih =>
    intro cut
    rw [List.cons_append, readable, readable, ih, List.append_assoc]
    rfl

/-- Where something has been written of every frame, the last one alone decides how the stream ends. -/
theorem endsTorn_iff {cs : List (Cut F)} (h : ∀ c ∈ cs, 0 < c.taken) :
    k.endsTorn false cs = false ↔ ∀ c ∈ cs.getLast?, k.torn c = false := by
  rcases List.eq_nil_or_concat cs with rfl | ⟨cs, c, rfl⟩
  · exact ⟨(fun _ c hc => by cases hc), fun _ => rfl⟩
  · have hc : ¬ c.taken = 0 := by
      have := h c (by simp)
      omega
    simp [endsTorn, List.foldl_append, after, hc]

/-- No frame is read that was not written whole, and the order is the one of the writes. -/
theorem readable_sublist (cs : List (Cut F)) : ∀ cut,
    (k.readable cut cs).Sublist ((cs.filter k.whole).map Cut.frame) := by
  induction cs with
  | nil => exact fun cut => List.Sublist.refl _
  | cons c cs ih =>
    intro cut
    rw [readable, List.filter_cons]
    cases hw : k.whole c with
    | false => simpa using ih _
    | true =>
      simp only [if_true, List.map_cons, true_and]
      split_ifs
      · exact (ih _).cons_cons _
      · exact (ih _).cons _

/-- A whole frame that occurs once is read exactly if the frames before it end whole. -/
theorem mem_readable_iff {before rest : List (Cut F)} {c : Cut F} (hw : k.whole c = true)
    (hbefore : ∀ x ∈ before, x.frame ≠ c.frame) (hrest : ∀ x ∈ rest, x.frame ≠ c.frame) :
    c.frame ∈ k.readable false (before ++ c :: rest) ↔ k.endsTorn false before = false := by
  have hnot : ∀ (cs : List (Cut F)) cut, (∀ x ∈ cs, x.frame ≠ c.frame) → c.frame ∉ k.readable cut cs := by
    intro cs cut h hm
    obtain ⟨x, hx, he⟩ := List.mem_map.1 ((k.readable_sublist cs cut).subset hm)
    exact h x (List.mem_filter.1 hx).1 he
  rw [readable_append, readable, List.mem_append, List.mem_append]
  constructor
  · rintro (h | h | h)
    · exact absurd h (hnot _ _ hbefore)
    · split_ifs at h with hc
      · exact hc.2
      · cases h
    · exact absurd h (hnot _ _ hrest)
  · intro h
    rw [if_pos ⟨hw, h⟩]
    exact .inr (.inl List.mem_cons_self)

/-- Where no frame is torn all whole ones are read. -/
theorem readable_of_untorn (cs : List (Cut F)) (h : ∀ c ∈ cs, k.torn c = false) :
    k.readable false cs = (cs.filter k.whole).map Cut.frame := by
  induction cs with
  | nil => rfl
  | cons c cs ih =>
    have hafter : k.after false c = false := by
      unfold after
      rw [h c List.mem_cons_self, ite_self]
    rw [readable, hafter, ih (fun d hd => h d (List.mem_cons_of_mem c hd)), List.filter_cons]
    cases k.whole c <;> rfl

/-- A torn frame takes one whole frame with it at most. -/
theorem whole_le_readable (cs : List (Cut F)) : ∀ cut,
    cs.countP k.whole ≤ (k.readable cut cs).length + cs.countP k.torn + cut.toNat := by
  induction cs with
  | nil =>
    intro cut
    exact Nat.zero_le _
  | cons c cs ih =>
    intro cut
    have := ih (k.after cut c)
    rw [List.countP_cons, List.countP_cons, readable, List.length_append]
    rcases k.cases_cut c with hw | ht | hz
    · have hz : ¬ c.taken = 0 := fun hz => by
        rw [whole_eq_false_of_zero k hz] at hw
        cases hw
      rw [after, if_neg hz, torn_eq_false_of_whole k hw] at this ⊢
      cases cut <;> simp [hw] at this ⊢ <;> omega
    · have hw : k.whole c = false := by
        by_contra hw
        rw [torn_eq_false_of_whole k (by simpa using hw)] at ht
        cases ht
      have hz : ¬ c.taken = 0 := by
        have := (k.torn_iff.1 ht).1
        omega
      rw [after, if_neg hz, ht] at this
      cases cut <;> simp [hw, ht, after, hz] at this ⊢ <;> omega
    · have hw : k.whole c = false := whole_eq_false_of_zero k hz
      rw [after, if_pos hz] at this
      simp [hw, after, hz] at this ⊢
      omega

end Codec

end CutWrites
