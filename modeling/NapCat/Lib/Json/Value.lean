/-
Value trees as `Value` holds them: integers of 64 bits, and objects with one field for each key in
key order. The canonical form leaves such a value as it is, and the decoders of derived types read
back what the encoders of their fields write.
-/
import NapCat.Lib.Json.Serde

namespace Json

/-- A value built from null, booleans, integers, strings, arrays and objects. -/
inductive IsValue : Json → Prop
  | null : IsValue .null
  | bool (b : Bool) : IsValue (.bool b)
  | int (n : Int) (lower : -2 ^ 63 ≤ n) (upper : n < 2 ^ 64) : IsValue (ofInt n)
  | str (s : String) : IsValue (.str s)
  | arr {xs : List Json} (items : ∀ x ∈ xs, IsValue x) : IsValue (.arr xs)
  | obj {fs : List (String × Json)} (sorted : fs.Pairwise fun f g => f.1 < g.1) (fields : ∀ f ∈ fs, IsValue f.2) :
      IsValue (.obj fs)

/-! ## The canonical form -/

/-- A field with a new key is put among the others. -/
theorem insertField_perm {k : String} (v : Json) :
    ∀ {fs : List (String × Json)}, (∀ f ∈ fs, f.1 ≠ k) → (insertField k v fs).Perm ((k, v) :: fs)
  | [], _ => .refl _
  | (l, w) :: fs, h => by
    have hl : l ≠ k := h (l, w) List.mem_cons_self
    rw [insertField, if_neg hl.symm]
    split_ifs
    · exact .refl _
    · exact ((insertField_perm v fun f hf => h f (List.mem_cons_of_mem _ hf)).cons (l, w)).trans (.swap ..)

/-- And the key order is kept. -/
theorem insertField_sorted {k : String} (v : Json) :
    ∀ {fs : List (String × Json)}, (∀ f ∈ fs, f.1 ≠ k) → (fs.Pairwise fun f g => f.1 < g.1) →
      (insertField k v fs).Pairwise fun f g => f.1 < g.1
  | [], _, _ => List.pairwise_singleton _ _
  | (l, w) :: fs, hne, h => by
    have hl : l ≠ k := hne (l, w) List.mem_cons_self
    have hrest : ∀ f ∈ fs, f.1 ≠ k := fun f hf => hne f (List.mem_cons_of_mem _ hf)
    obtain ⟨hlt, hfs⟩ := List.pairwise_cons.1 h
    rw [insertField, if_neg hl.symm]
    split_ifs with hk
    · refine List.pairwise_cons.2 ⟨fun f hf => ?_, h⟩
      rcases List.mem_cons.1 hf with rfl | hf
      · exact hk
      · exact hk.trans (hlt f hf)
    · refine List.pairwise_cons.2 ⟨fun f hf => ?_, insertField_sorted v hrest hfs⟩
      rcases List.mem_cons.1 ((insertField_perm v hrest).mem_iff.1 hf) with rfl | hf
      · exact lt_of_le_of_ne (not_lt.1 hk) hl
      · exact hlt f hf

/-- Fields are brought into key order, whatever order they are in. -/
theorem sortFields_of_perm {fs gs : List (String × Json)} (hp : fs.Perm gs)
    (h : gs.Pairwise fun f g => f.1 < g.1) : sortFields fs = gs := by
  have step : ∀ (fs acc : List (String × Json)), (acc.Pairwise fun f g => f.1 < g.1) →
      ((acc ++ fs).Pairwise fun f g => f.1 ≠ g.1) →
        ((fs.foldl (fun acc f => insertField f.1 f.2 acc) acc).Pairwise fun f g => f.1 < g.1) ∧
          (fs.foldl (fun acc f => insertField f.1 f.2 acc) acc).Perm (acc ++ fs) := by
    intro fs
    induction fs with
    | nil => exact fun acc hacc _ => ⟨hacc, by rw [List.append_nil]; exact .refl _⟩
    | cons f fs ih =>
      intro acc hacc hne
      have hnew : ∀ g ∈ acc, g.1 ≠ f.1 := fun g hg =>
        (List.pairwise_append.1 hne).2.2 g hg f List.mem_cons_self
      have hmid : (insertField f.1 f.2 acc ++ fs).Perm (acc ++ f :: fs) :=
        ((insertField_perm f.2 hnew).append_right fs).trans List.perm_middle.symm
      obtain ⟨hs, hp⟩ := ih _ (insertField_sorted f.2 hnew hacc) (hne.perm hmid.symm fun h => Ne.symm h)
      exact ⟨hs, hp.trans hmid⟩
  have hne : fs.Pairwise fun f g => f.1 ≠ g.1 := (h.imp fun hlt => hlt.ne).perm hp.symm fun h => Ne.symm h
  obtain ⟨hs, hperm⟩ := step fs [] .nil hne
  exact (hperm.trans hp).eq_of_pairwise (fun f g _ _ hfg hgf => absurd (hfg.trans hgf) (lt_irrefl _)) hs h

/-- Fields in key order stay where they are. -/
theorem sortFields_of_sorted {fs : List (String × Json)} (h : fs.Pairwise fun f g => f.1 < g.1) :
    sortFields fs = fs := sortFields_of_perm (.refl fs) h

theorem canonFields_eq_self : ∀ {fs : List (String × Json)}, (∀ f ∈ fs, f.2.canon = f.2) → canonFields fs = fs
  | [], _ => rfl
  | (k, v) :: fs, h => by
    rw [canonFields, h (k, v) List.mem_cons_self, canonFields_eq_self fun f hf => h f (List.mem_cons_of_mem _ hf)]

theorem canon_ofInt (n : Int) : (ofInt n).canon = ofInt n := by cases n <;> rfl

theorem ofInt_inRange {n : Int} (lower : -2 ^ 63 ≤ n) (upper : n < 2 ^ 64) : (ofInt n).inRange = true := by
  have hlimit : significandLimit = 2 ^ 64 := by rw [significandLimit]; rfl
  have hvalue : ∀ k, Nat.ofDigitChars 10 (Nat.toDigits 10 k) 0 = k := fun _ => Nat.ofDigitChars_ten_toDigits
  cases n with
  | ofNat k =>
    have hmag : Num.magnitude ⟨Nat.toDigits 10 k, isNumber_toDigits k⟩ = Nat.toDigits 10 k :=
      if_neg (toDigits_head_ne k)
    refine Num.inRange_of_digits ?_ ?_ <;> rw [hmag]
    · exact toDigits_isDigit k
    · rw [hvalue, hlimit]
      exact Int.ofNat_lt.1 upper
  | negSucc k =>
    refine Num.inRange_of_digits (toDigits_isDigit (k + 1)) ?_
    show Nat.ofDigitChars 10 (Nat.toDigits 10 (k + 1)) 0 < _
    rw [hvalue, hlimit]
    omega

/-- The numbers of a value tree are in range. -/
theorem IsValue.inRange {j : Json} (h : IsValue j) : j.inRange = true := by
  induction h with
  | null => rfl
  | bool b => rfl
  | int n lower upper => exact ofInt_inRange lower upper
  | str s => rfl
  | arr items ih => rw [Json.inRange, inRangeItems_eq_all, List.all_eq_true]; exact ih
  | obj sorted fields ih => rw [Json.inRange, inRangeFields_eq_all, List.all_eq_true]; exact ih

theorem ofNat_inRange (n : UInt64) : (ofNat n.toNat).inRange = true :=
  ofInt_inRange (n := Int.ofNat n.toNat) (Int.le_trans (by decide) (Int.natCast_nonneg n.toNat))
    (Int.ofNat_lt.2 n.toNat_lt)

/-- A value tree is its own canonical form. -/
theorem IsValue.canon {j : Json} (h : IsValue j) : j.canon = j := by
  induction h with
  | null => rfl
  | bool b => rfl
  | int n => exact canon_ofInt n
  | str s => rfl
  | arr items ih =>
    rw [Json.canon, canonItems_eq_map, List.map_congr_left ih]
    simp
  | obj sorted fields ih => rw [Json.canon, canonFields_eq_self ih, sortFields_of_sorted sorted]

theorem asValue_eq {j : Json} (h : IsValue j) : asValue j = .ok j := by
  rw [asValue, if_pos h.inRange, h.canon]

theorem mem_of_mem_insertField {k : String} {v : Json} {f : String × Json} :
    ∀ {fs : List (String × Json)}, f ∈ insertField k v fs → f = (k, v) ∨ f ∈ fs
  | [], h => .inl (List.mem_singleton.1 h)
  | (l, w) :: fs, h => by
    rw [insertField] at h
    split_ifs at h
    · exact (List.mem_cons.1 h).imp_right (List.mem_cons_of_mem _)
    · exact List.mem_cons.1 h
    · rcases List.mem_cons.1 h with rfl | h
      · exact .inr List.mem_cons_self
      · exact (mem_of_mem_insertField h).imp_right (List.mem_cons_of_mem _)

theorem mem_of_mem_sortFields {f : String × Json} {fs : List (String × Json)} (h : f ∈ sortFields fs) : f ∈ fs := by
  have step : ∀ (fs acc : List (String × Json)), f ∈ fs.foldl (fun acc f => insertField f.1 f.2 acc) acc →
      f ∈ fs ∨ f ∈ acc := by
    intro fs
    induction fs with
    | nil => exact fun acc h => .inr h
    | cons g fs ih =>
      intro acc h
      rcases ih _ h with h | h
      · exact .inl (List.mem_cons_of_mem _ h)
      · rcases mem_of_mem_insertField h with rfl | h
        · exact .inl List.mem_cons_self
        · exact .inr h
  exact (step fs [] h).resolve_right List.not_mem_nil

theorem mem_canonFields {f : String × Json} {fs : List (String × Json)} :
    f ∈ canonFields fs ↔ ∃ g ∈ fs, f = (g.1, g.2.canon) := by
  induction fs with
  | nil => simp [canonFields]
  | cons g fs ih => simp [canonFields, ih]

/-- The field of a key that stands once. -/
theorem get_canon {fs : List (String × Json)} {k : String} {v : Json} (hmem : (k, v) ∈ fs)
    (hone : ∀ f ∈ fs, f.1 = k → f.2 = v) : (Json.obj fs).canon.get k = some v.canon := by
  have hk : k ∈ (sortFields (canonFields fs)).map Prod.fst := by
    rw [mem_sortFields, canonFields_keys]
    exact List.mem_map_of_mem hmem
  rw [canon, get]
  cases hf : (sortFields (canonFields fs)).find? fun f => f.1 = k with
  | none =>
    obtain ⟨f, hf', rfl⟩ := List.mem_map.1 hk
    have hne := List.find?_eq_none.1 hf f hf'
    simp at hne
  | some f =>
    have hfk : f.1 = k := by simpa using List.find?_some hf
    obtain ⟨g, hg, rfl⟩ := mem_canonFields.1 (mem_of_mem_sortFields (List.mem_of_find?_eq_some hf))
    rw [Option.map_some, hone g hg hfk]

mutual

/-- The canonical form has the numbers of the value, or some of them. -/
theorem inRange_canon : ∀ {j : Json}, j.inRange = true → j.canon.inRange = true
  | .null, _ | .bool _, _ | .str _, _ => rfl
  | .num _, h => h
  | .arr _, h => inRangeItems_canonItems h
  | .obj fs, h => by
    have hfields : inRangeFields (canonFields fs) = true := inRangeFields_canonFields h
    rw [inRangeFields_eq_all, List.all_eq_true] at hfields
    show inRangeFields (sortFields (canonFields fs)) = true
    rw [inRangeFields_eq_all, List.all_eq_true]
    exact fun f hf => hfields f (mem_of_mem_sortFields hf)

theorem inRangeItems_canonItems : ∀ {xs : List Json}, inRangeItems xs = true → inRangeItems (canonItems xs) = true
  | [], _ => rfl
  | x :: xs, h => by
    rw [inRangeItems, Bool.and_eq_true] at h
    rw [canonItems, inRangeItems, inRange_canon h.1, inRangeItems_canonItems h.2]
    rfl

theorem inRangeFields_canonFields :
    ∀ {fs : List (String × Json)}, inRangeFields fs = true → inRangeFields (canonFields fs) = true
  | [], _ => rfl
  | (k, v) :: fs, h => by
    rw [inRangeFields, Bool.and_eq_true] at h
    rw [canonFields, inRangeFields, inRange_canon h.1, inRangeFields_canonFields h.2]
    rfl

end

/-! ## Nesting -/

theorem depthItems_le {d : Nat} : ∀ {xs : List Json}, (∀ x ∈ xs, x.depth ≤ d) → depthItems xs ≤ d
  | [], _ => Nat.zero_le d
  | x :: _, h => max_le (h x List.mem_cons_self) (depthItems_le fun y hy => h y (List.mem_cons_of_mem _ hy))

theorem depth_le_depthItems {x : Json} : ∀ {xs : List Json}, x ∈ xs → x.depth ≤ depthItems xs
  | y :: _, h => by
    rw [depthItems]
    rcases List.mem_cons.1 h with rfl | h
    · exact Nat.le_max_left _ _
    · exact Nat.le_trans (depth_le_depthItems h) (Nat.le_max_right _ _)

theorem depthFields_le {d : Nat} : ∀ {fs : List (String × Json)}, (∀ f ∈ fs, f.2.depth ≤ d) → depthFields fs ≤ d
  | [], _ => Nat.zero_le d
  | (k, v) :: _, h =>
    max_le (h (k, v) List.mem_cons_self) (depthFields_le fun g hg => h g (List.mem_cons_of_mem _ hg))

/-! ## Decoding what was encoded -/

theorem toNat?_toDigits (n : Nat) : Num.toNat? ⟨Nat.toDigits 10 n, isNumber_toDigits n⟩ = some n := by
  have hd : allDigits (Nat.toDigits 10 n) = true := List.all_eq_true.2 (toDigits_isDigit n)
  rw [Num.toNat?, if_pos hd, Nat.ofDigitChars_ten_toDigits]

theorem asU64_ofNat (n : UInt64) : asU64 (ofNat n.toNat) = .ok n := by
  simp only [asU64, ofNat, toNat?_toDigits, n.toNat_lt, if_true, UInt64.ofNat_toNat]

theorem asOption_ofNat (n : UInt64) : asOption asU64 (ofNat n.toNat) = .ok (some n) := by
  show (asU64 (ofNat n.toNat)).map some = _
  rw [asU64_ofNat]
  rfl

/-- Items that read back one by one, where they are admitted, read back as a list where all of them are. -/
theorem asVec_map {α : Type} {f : Json → Except Error α} {g : α → Json} {admits : α → Bool} {e : Error} :
    ∀ {xs : List α}, (∀ x ∈ xs, f (g x) = if admits x then .ok x else .error e) →
      asVec f (.arr (xs.map g)) = if xs.all admits then .ok xs else .error e
  | [], _ => rfl
  | x :: xs, h => by
    have ih : (xs.map g).mapM f = if xs.all admits then .ok xs else .error e :=
      asVec_map fun y hy => h y (List.mem_cons_of_mem _ hy)
    rw [asVec, List.map_cons, List.mapM_cons, h x List.mem_cons_self, ih, List.all_cons]
    cases admits x with
    | false => rfl
    | true => cases xs.all admits <;> rfl

theorem fieldNamed_of_first {fs rest : List (String × Json)} {name : String} {v : Json}
    (hfs : ∀ f ∈ fs, f.1 ≠ name) (hrest : ∀ f ∈ rest, f.1 ≠ name) :
    fieldNamed (fs ++ (name, v) :: rest) name = .ok (some v) := by
  have hnone : ∀ l : List (String × Json), (∀ f ∈ l, f.1 ≠ name) → (l.filter fun f => f.1 = name) = [] := by
    intro l hl
    rw [List.filter_eq_nil_iff]
    exact fun f hf => by simpa using hl f hf
  rw [fieldNamed, List.filter_append, hnone fs hfs, List.nil_append, List.filter_cons_of_pos (by simp),
    hnone rest hrest]

/-- A struct written field by field is read field by field. -/
theorem structFields_zip {names : List String} {vs : List Json} (hn : names.Nodup) (hl : names.length = vs.length) :
    structFields names (.obj (names.zip vs)) = .ok (vs.map some) := by
  -- the fields read already stand in front, under other names
  suffices h : ∀ (fs : List (String × Json)), (∀ f ∈ fs, f.1 ∉ names) →
      names.mapM (fieldNamed (fs ++ names.zip vs)) = Except.ok (ε := Error) (vs.map some) from h [] (by simp)
  induction names generalizing vs with
  | nil =>
    intro fs _
    rw [List.eq_nil_of_length_eq_zero hl.symm]
    rfl
  | cons n names ih =>
    obtain ⟨v, vs, rfl⟩ := List.exists_cons_of_length_eq_add_one hl.symm
    obtain ⟨hnot, hnodup⟩ := List.nodup_cons.1 hn
    intro fs hfs
    have hfirst : fieldNamed (fs ++ (n, v) :: names.zip vs) n = .ok (some v) :=
      fieldNamed_of_first (fun f hf hfn => hfs f hf (hfn ▸ List.mem_cons_self))
        fun f hf hfn => hnot (hfn ▸ (List.of_mem_zip hf).1)
    have hrest := ih hnodup (Nat.succ.inj hl) (fs ++ [(n, v)]) fun f hf => by
      rcases List.mem_append.1 hf with h | h
      · exact fun hm => hfs f h (List.mem_cons_of_mem _ hm)
      · rw [List.mem_singleton.1 h]
        exact hnot
    rw [List.append_assoc, List.singleton_append] at hrest
    rw [List.zip_cons_cons, List.mapM_cons, hfirst, hrest]
    rfl

end Json
