/-
The bytes of a text. Encoding is a bijection onto valid byte sequences, and an ASCII character
other than those of the text does not occur among its bytes.
-/
import NapCat.Lib.Ends
import Mathlib.Data.String.Basic

namespace Text

/-- The UTF-8 bytes of a text. -/
def utf8 (s : String) : List UInt8 := s.toList.flatMap String.utf8EncodeChar

/-- `String::from_utf8`. -/
def ofUtf8 (bs : List UInt8) : Option String := String.fromUTF8? bs.toByteArray

theorem toByteArray_utf8 (s : String) : (utf8 s).toByteArray = s.toByteArray := by
  conv_rhs => rw [← String.ofList_toList (s := s)]
  rw [String.toByteArray_ofList]; rfl

theorem ofUtf8_utf8 (s : String) : ofUtf8 (utf8 s) = some s := by
  rw [ofUtf8, toByteArray_utf8]
  simp only [String.fromUTF8?, Option.dite_none_right_eq_some]
  exact ⟨s.isValidUTF8, rfl⟩

/-- Bytes that are read as a text are the bytes of that text. -/
theorem ofUtf8_eq_some {bs : List UInt8} {s : String} (h : ofUtf8 bs = some s) : bs = utf8 s := by
  simp only [ofUtf8, String.fromUTF8?, Option.dite_none_right_eq_some] at h
  obtain ⟨hv, hs⟩ := h
  have hb : s.toByteArray = bs.toByteArray := by
    rw [← Option.some.inj hs]
    rfl
  rw [← toByteArray_utf8, List.toByteArray_inj] at hb
  exact hb.symm

theorem utf8_append (s t : String) : utf8 (s ++ t) = utf8 s ++ utf8 t := by
  simp [utf8]

theorem utf8_injective {s t : String} (h : utf8 s = utf8 t) : s = t :=
  Option.some.inj ((ofUtf8_utf8 s).symm.trans ((congrArg ofUtf8 h).trans (ofUtf8_utf8 t)))

theorem eq_of_ofNat_eq {n k : Nat} (hn : n < 256) (hk : k < 256) (h : UInt8.ofNat k = UInt8.ofNat n) : k = n := by
  have := congrArg UInt8.toNat h
  simp only [UInt8.toNat_ofNat'] at this
  omega

/-- An ASCII byte occurs in the encoding of its own character only. -/
theorem mem_utf8EncodeChar {c : Char} {n : Nat} (hn : n < 0x80) (h : UInt8.ofNat n ∈ String.utf8EncodeChar c) :
    c.toNat = n := by
  have hc : c.val.toNat < 0x110000 := by
    rcases c.valid with hv | hv <;> simp only [UInt32.toNat] at * <;> omega
  unfold String.utf8EncodeChar at h
  dsimp only at h
  show c.val.toNat = n
  split_ifs at h with h1 h2 h3
  all_goals simp only [List.mem_cons, List.not_mem_nil, or_false] at h
  · exact (eq_of_ofNat_eq (by omega) (by omega) h).symm
  · rcases h with h | h <;> have := eq_of_ofNat_eq (by omega) (by omega) h <;> omega
  · rcases h with h | h | h <;> have := eq_of_ofNat_eq (by omega) (by omega) h <;> omega
  · rcases h with h | h | h | h <;> have := eq_of_ofNat_eq (by omega) (by omega) h <;> omega

/-- A text without a given ASCII character has no such byte. -/
theorem not_mem_utf8 {s : String} {n : Nat} (hn : n < 0x80) (h : ∀ c ∈ s.toList, c.toNat ≠ n) :
    UInt8.ofNat n ∉ utf8 s := by
  intro hm
  obtain ⟨c, hc, hb⟩ := List.mem_flatMap.1 hm
  exact h c hc (mem_utf8EncodeChar hn hb)

/-! ## Where a character ends -/

theorem utf8EncodeChar_append_inj {c d : Char} {x y : List UInt8}
    (h : String.utf8EncodeChar c ++ x = String.utf8EncodeChar d ++ y) : c = d ∧ x = y := by
  have hdec : ∀ (c : Char) (x : List UInt8),
      (String.utf8EncodeChar c ++ x).toByteArray.utf8DecodeChar? 0 = some c := by
    intro c x
    rw [List.toByteArray_append]
    exact ByteArray.utf8DecodeChar?_utf8EncodeChar_append
  have hc : c = d := by
    have := hdec c x
    rw [h, hdec d y, Option.some.injEq] at this
    exact this.symm
  subst hc
  exact ⟨rfl, List.append_cancel_left h⟩

theorem length_utf8EncodeChar_of_lt {c : Char} (h : c.toNat < 0x80) : (String.utf8EncodeChar c).length = 1 := by
  have hc : c.val.toNat ≤ 0x7f := by
    show c.toNat ≤ 0x7f
    omega
  unfold String.utf8EncodeChar
  dsimp only
  rw [if_pos hc]
  rfl

/-- Where the bytes of a text go on with an ASCII byte, a character has ended: what stands before, if it is also the
beginning of another text, is the encoding of the characters both texts begin with. -/
theorem split_at_ascii {n : Nat} (hn : n < 0x80) : ∀ (s u : List Char) (a b : List UInt8),
    u.flatMap String.utf8EncodeChar = a ++ UInt8.ofNat n :: b → a <+: s.flatMap String.utf8EncodeChar →
      ∃ p v, p <+: s ∧ u = p ++ v ∧ a = p.flatMap String.utf8EncodeChar ∧
        v.flatMap String.utf8EncodeChar = UInt8.ofNat n :: b
  | s, u, [], b, hu, _ => ⟨[], u, List.nil_prefix, rfl, rfl, hu⟩
  | [], _, x :: a, _, _, ha => by cases List.prefix_nil.1 ha
  | _ :: _, [], x :: a, b, hu, _ => by cases hu
  | d :: s, c :: u, x :: a, b, hu, ⟨z, hz⟩ => by
    rw [List.flatMap_cons] at hu hz
    have hgo : ∀ a', x :: a = String.utf8EncodeChar c ++ a' →
        u.flatMap String.utf8EncodeChar = a' ++ UInt8.ofNat n :: b →
        ∃ p v, p <+: d :: s ∧ c :: u = p ++ v ∧ x :: a = p.flatMap String.utf8EncodeChar ∧
          v.flatMap String.utf8EncodeChar = UInt8.ofNat n :: b := by
      intro a' ha' hu'
      rw [ha', List.append_assoc] at hz
      obtain ⟨rfl, hz'⟩ := utf8EncodeChar_append_inj hz
      obtain ⟨p, v, hp, rfl, rfl, hv⟩ := split_at_ascii hn s u a' b hu' ⟨z, hz'⟩
      exact ⟨c :: p, v, List.cons_prefix_cons.2 ⟨rfl, hp⟩, rfl, ha', hv⟩
    rcases List.append_eq_append_iff.1 hu with ⟨a', ha', hb⟩ | ⟨c', hc', hb⟩
    · exact hgo a' ha' hb
    · cases c' with
      | nil =>
        rw [List.append_nil] at hc'
        exact hgo [] (by rw [← hc', List.append_nil]) hb.symm
      | cons y c' =>
        -- the byte is part of the character, which is then that byte alone
        obtain ⟨rfl, -⟩ := List.cons.inj hb
        have hm : UInt8.ofNat n ∈ String.utf8EncodeChar c := by
          rw [hc']
          simp
        have hlen := length_utf8EncodeChar_of_lt (by rw [mem_utf8EncodeChar hn hm]; exact hn)
        rw [hc'] at hlen
        simp only [List.length_append, List.length_cons] at hlen
        omega

/-- The first byte of a character tells itself from the others. -/
theorem utf8EncodeChar_shape (c : Char) : ∃ b bs, String.utf8EncodeChar c = b :: bs ∧
    (b.toNat < 0x80 ∨ 0xc0 ≤ b.toNat) ∧ ∀ x ∈ bs, 0x80 ≤ x.toNat ∧ x.toNat < 0xc0 := by
  have hc : c.val.toNat < 0x110000 := by
    rcases c.valid with hv | hv <;> simp only [UInt32.toNat] at * <;> omega
  unfold String.utf8EncodeChar
  dsimp only
  split_ifs
  all_goals
    refine ⟨_, _, rfl, ?_, ?_⟩
    · simp only [UInt8.toNat_ofNat']
      omega
    · simp only [List.mem_cons, List.not_mem_nil, or_false, forall_eq_or_imp, forall_eq, UInt8.toNat_ofNat',
        false_imp_iff, implies_true]
      try omega

theorem flatMap_utf8EncodeChar_injective {s t : List Char}
    (h : s.flatMap String.utf8EncodeChar = t.flatMap String.utf8EncodeChar) : s = t := by
  have hst : utf8 (String.ofList s) = utf8 (String.ofList t) := by
    rw [utf8, utf8, String.toList_ofList, String.toList_ofList, h]
  have := congrArg String.toList (utf8_injective hst)
  rwa [String.toList_ofList, String.toList_ofList] at this

/-- An end of the bytes of a text that is itself the bytes of a text starts where a character starts. -/
theorem suffix_of_utf8 {s t : List Char} (h : t.flatMap String.utf8EncodeChar <:+ s.flatMap String.utf8EncodeChar) :
    t <:+ s := by
  obtain ⟨s', ⟨hs, ht⟩ | ⟨c, x, -, hx, hne, hpart, ht⟩⟩ := Ends.suffix_flatMap h
  · rw [flatMap_utf8EncodeChar_injective ht]
    exact hs
  · obtain ⟨b, bs, hc, -, hbs⟩ := utf8EncodeChar_shape c
    rw [hc] at hx hpart
    have hxbs := (List.suffix_cons_iff.1 hx).resolve_left hpart
    cases x with
    | nil => exact absurd rfl hne
    | cons y x =>
      cases t with
      | nil => cases ht
      | cons d t =>
        -- a text does not start with a byte that is not a character's first one
        obtain ⟨e, es, hd, he, -⟩ := utf8EncodeChar_shape d
        rw [List.flatMap_cons, hd] at ht
        obtain ⟨rfl, -⟩ := List.cons.inj ht
        have := hbs e (hxbs.subset List.mem_cons_self)
        omega

end Text
