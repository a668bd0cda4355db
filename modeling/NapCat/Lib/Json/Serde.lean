/-
The representations serde's derived implementations give to structs and enums, over JSON values:
named fields (or an array by position), externally tagged variants, optional and sequence fields,
and the map-backed `Value`, which keeps one field for each key in key order. What is kept of a text
whole counts towards its nesting limit, what is ignored does not.
-/
import NapCat.Lib.Json.Range
import NapCat.Lib.Json.RoundTrip

namespace Json

/-- Why a text or a value is not of the expected type. -/
inductive Error
  | malformed
  | invalidType
  | invalidLength
  | missingField (name : String)
  | duplicateField (name : String)
  | unknownVariant (name : String)
  deriving DecidableEq, Repr

/-- The words of an error; the position in the text is not modelled. -/
def Error.text : Error → String
  | .malformed => "malformed text"
  | .invalidType => "invalid type"
  | .invalidLength => "invalid length"
  | .missingField f => "missing field `" ++ f ++ "`"
  | .duplicateField f => "duplicate field `" ++ f ++ "`"
  | .unknownVariant v => "unknown variant `" ++ v ++ "`"

/-! ## `Value` -/

/-- Insert a field into an object kept in key order; a later value replaces an earlier one. -/
def insertField (k : String) (v : Json) : List (String × Json) → List (String × Json)
  | [] => [(k, v)]
  | (l, w) :: fs =>
    if k = l then (k, v) :: fs
    else if k < l then (k, v) :: (l, w) :: fs
    else (l, w) :: insertField k v fs

def sortFields (fs : List (String × Json)) : List (String × Json) :=
  fs.foldl (fun acc f => insertField f.1 f.2 acc) []

theorem mem_insertField {k l : String} {v : Json} {fs : List (String × Json)} :
    l ∈ (insertField k v fs).map Prod.fst ↔ l = k ∨ l ∈ fs.map Prod.fst := by
  induction fs with
  | nil => simp [insertField]
  | cons f fs ih =>
    obtain ⟨m, w⟩ := f
    rw [insertField]
    split_ifs with h1 h2
    · subst h1; simp
    · simp
    · rw [List.map_cons, List.mem_cons, ih, List.map_cons, List.mem_cons]
      exact or_left_comm

/-- Sorting keeps every key. -/
theorem mem_sortFields {l : String} {fs : List (String × Json)} :
    l ∈ (sortFields fs).map Prod.fst ↔ l ∈ fs.map Prod.fst := by
  have h : ∀ (fs acc : List (String × Json)),
      l ∈ (fs.foldl (fun acc f => insertField f.1 f.2 acc) acc).map Prod.fst ↔
        l ∈ fs.map Prod.fst ∨ l ∈ acc.map Prod.fst := by
    intro fs
    induction fs with
    | nil => intro acc; simp
    | cons f fs ih =>
      intro acc
      rw [List.foldl_cons, ih, mem_insertField, List.map_cons, List.mem_cons]
      tauto
  rw [sortFields, h]
  simp

mutual

/-- The value as `Value` holds it. -/
def canon : Json → Json
  | .arr xs => .arr (canonItems xs)
  | .obj fs => .obj (sortFields (canonFields fs))
  | j => j

def canonItems : List Json → List Json
  | [] => []
  | x :: xs => canon x :: canonItems xs

def canonFields : List (String × Json) → List (String × Json)
  | [] => []
  | (k, v) :: fs => (k, canon v) :: canonFields fs

end

theorem canonFields_keys (fs : List (String × Json)) : (canonFields fs).map Prod.fst = fs.map Prod.fst := by
  induction fs with
  | nil => rfl
  | cons f fs ih =>
    obtain ⟨k, v⟩ := f
    rw [canonFields, List.map_cons, ih]
    rfl

theorem canonItems_eq_map (xs : List Json) : canonItems xs = xs.map canon := by
  induction xs with
  | nil => rfl
  | cons x xs ih =>
    rw [canonItems, ih]
    rfl

/-- `Value::get` with a key. -/
def get (j : Json) (key : String) : Option Json :=
  match j with
  | .obj fs => (fs.find? fun f => f.1 = key).map Prod.snd
  | _ => none

def asStr : Json → Option String
  | .str s => some s
  | _ => none

def asBool : Json → Option Bool
  | .bool b => some b
  | _ => none

def asArray : Json → Option (List Json)
  | .arr xs => some xs
  | _ => none

/-- A value kept as `Value`, whose numbers are all in range. -/
def asValue (j : Json) : Except Error Json := if j.inRange then .ok j.canon else .error .malformed

/-- The nesting limit for what is kept of a text. -/
def recursionLimit : Nat := 128

/-- `from_str::<Value>`. -/
def ofText (s : String) : Except Error Json :=
  match parse s with
  | none => .error .malformed
  | some j => if j.depth < recursionLimit then asValue j else .error .malformed

/-- A printed value is read back as `Value` holds it, within the nesting limit and the range of its numbers. -/
theorem ofText_toText (j : Json) :
    ofText j.toText = if j.depth < recursionLimit ∧ j.inRange = true then .ok j.canon else .error .malformed := by
  unfold ofText
  rw [parse_toText, ite_and]
  rfl

/-! ## Integers -/

theorem digitChar_ne_zero : ∀ d < 10, d ≠ 0 → Nat.digitChar d ≠ '0' := by decide

theorem toDigits_isDigit (n : Nat) : ∀ c ∈ Nat.toDigits 10 n, c.isDigit = true :=
  fun _ h => Nat.isDigit_of_mem_toDigits (by omega) (by omega) h

/-- A decimal numeral is nonempty and has no leading zero, zero itself apart. -/
theorem toDigits_head (n : Nat) : ∃ c cs, Nat.toDigits 10 n = c :: cs ∧ (c = '0' → cs = []) := by
  induction n using Nat.strong_induction_on with
  | _ n ih =>
    by_cases hn : n < 10
    · rw [Nat.toDigits_of_lt_base hn]
      exact ⟨_, [], rfl, fun _ => rfl⟩
    · obtain ⟨c, cs, h, hc⟩ := ih (n / 10) (by omega)
      rw [Nat.toDigits_of_base_le (by omega) (by omega), h]
      refine ⟨c, cs ++ [_], rfl, fun h0 => ?_⟩
      obtain rfl := hc h0
      subst h0
      by_cases hn' : n / 10 < 10
      · rw [Nat.toDigits_of_lt_base hn'] at h
        simp only [List.cons.injEq, and_true] at h
        exact absurd h (digitChar_ne_zero _ hn' (by omega))
      · rw [Nat.toDigits_of_base_le (by omega) (by omega)] at h
        have := congrArg List.length h
        simp only [List.length_append, List.length_cons, List.length_nil] at this
        have := List.length_pos_of_ne_nil (Nat.toDigits_ne_nil (n := n / 10 / 10) (b := 10))
        omega

theorem intTail_digits : ∀ cs : List Char, (∀ c ∈ cs, c.isDigit = true) → intTail true cs = true
  | [], _ => rfl
  | c :: cs, h => by
    have hc := h c List.mem_cons_self
    have h1 : c ≠ '.' := by rintro rfl; revert hc; decide
    have h2 : ¬ (c = 'e' ∨ c = 'E') := by rintro (rfl | rfl) <;> revert hc <;> decide
    simp only [intTail, h1, h2, if_false, hc, Bool.true_and]
    exact intTail_digits cs fun d hd => h d (List.mem_cons_of_mem _ hd)

theorem isNumber_toDigits (n : Nat) : isNumber (Nat.toDigits 10 n) = true := by
  have hd := toDigits_isDigit n
  obtain ⟨c, cs, h, h0⟩ := toDigits_head n
  rw [h] at hd ⊢
  have hc := hd c List.mem_cons_self
  have hm : c ≠ '-' := by rintro rfl; revert hc; decide
  simp only [isNumber, Bool.and_eq_true, List.all_eq_true, List.head?_cons, Option.some.injEq, hm, if_false]
  refine ⟨fun d hmem => by simp [isNumChar, hd d hmem], ?_⟩
  by_cases hz : c = '0'
  · obtain rfl := h0 hz
    simp [unsigned, hz, intTail]
  · simp only [unsigned, hz, if_false, hc, Bool.true_and]
    exact intTail_digits cs fun d hmem => hd d (List.mem_cons_of_mem _ hmem)

/-- A natural number as a literal. -/
def ofNat (n : Nat) : Json := .num ⟨Nat.toDigits 10 n, isNumber_toDigits n⟩

theorem isNumber_neg {cs : List Char} (h : isNumber cs = true) (hm : cs.head? ≠ some '-') :
    isNumber ('-' :: cs) = true := by
  rw [isNumber, Bool.and_eq_true, if_neg hm] at h
  rw [isNumber, Bool.and_eq_true]
  exact ⟨by rw [List.all_cons, h.1]; rfl, h.2⟩

theorem toDigits_head_ne (n : Nat) : (Nat.toDigits 10 n).head? ≠ some '-' := by
  intro h
  have := toDigits_isDigit n _ (List.mem_of_mem_head? h)
  revert this; decide

/-- An integer as a literal. -/
def ofInt : Int → Json
  | .ofNat n => ofNat n
  | .negSucc n => .num ⟨'-' :: Nat.toDigits 10 (n + 1), isNumber_neg (isNumber_toDigits _) (toDigits_head_ne _)⟩

/-- The number of an unsigned integer literal. -/
def Num.toNat? (n : Num) : Option Nat :=
  if allDigits n.lit then some (Nat.ofDigitChars 10 n.lit 0) else none

/-! ## Decoding -/

def asString : Json → Except Error String
  | .str s => .ok s
  | _ => .error .invalidType

def asU64 : Json → Except Error UInt64
  | .num n =>
    match n.toNat? with
    | some k => if k < 2 ^ 64 then .ok (UInt64.ofNat k) else .error .invalidType
    | none => .error .invalidType
  | _ => .error .invalidType

/-- An `Option` field: `null` is `None`. -/
def asOption {α : Type} (f : Json → Except Error α) : Json → Except Error (Option α)
  | .null => .ok none
  | j => (f j).map some

/-- A `Vec` field. -/
def asVec {α : Type} (f : Json → Except Error α) : Json → Except Error (List α)
  | .arr xs => xs.mapM f
  | _ => .error .invalidType

/-- The field of a derived struct with this name: fields of other names are ignored. -/
def fieldNamed (fs : List (String × Json)) (name : String) : Except Error (Option Json) :=
  match fs.filter fun f => f.1 = name with
  | [] => .ok none
  | [(_, v)] => .ok (some v)
  | _ => .error (.duplicateField name)

/-- The fields of a derived struct, by name from an object or by position from an array. -/
def structFields (names : List String) : Json → Except Error (List (Option Json))
  | .obj fs => names.mapM (fieldNamed fs)
  | .arr xs => if xs.length = names.length then .ok (xs.map some) else .error .invalidLength
  | _ => .error .invalidType

/-- A field that must be there. -/
def required {α : Type} (name : String) (f : Json → Except Error α) : Option Json → Except Error α
  | some j => f j
  | none => .error (.missingField name)

/-- An `Option` field may be absent. -/
def optional {α : Type} (f : Json → Except Error α) : Option Json → Except Error (Option α)
  | some j => asOption f j
  | none => .ok none

/-- An externally tagged enum: the variant's name alone, or one field named for it. -/
def variant : Json → Except Error (String × Option Json)
  | .str s => .ok (s, none)
  | .obj [(k, v)] => .ok (k, some v)
  | _ => .error .invalidType

/-- Where a value stands that is decoded: inside so many arrays and objects of a text, or in a `Value`. -/
inductive Place
  | text (levels : Nat)
  | value

def Place.inside (place : Place) (more : Nat) : Place :=
  match place with
  | .text levels => .text (levels + more)
  | .value => .value

/-- The content of a struct variant: only a text may give it by position. -/
def Place.content : Place → Json → Except Error Json
  | .text _, j => .ok j
  | .value, .obj fs => .ok (.obj fs)
  | .value, _ => .error .invalidType

/-- The value, kept whole, is within the nesting limit of its text; in a `Value` there is none. -/
def Place.admits : Place → Json → Bool
  | .text levels, j => levels + j.depth < recursionLimit
  | .value, _ => true

/-- An internally tagged enum keeps all of a value before it looks for the tag. -/
def buffered {α : Type} (place : Place) (f : Json → Except Error α) (j : Json) : Except Error α :=
  if place.admits j = true ∧ j.inRange = true then f j else .error .malformed

theorem buffered_eq {α : Type} {place : Place} (f : Json → Except Error α) {j : Json} (ha : place.admits j = true)
    (hr : j.inRange = true) : buffered place f j = f j :=
  if_pos ⟨ha, hr⟩

/-- Decode a text: `from_str` for a derived type. Its structs ignore what stands in fields of other names, however
deep it nests. -/
def fromText {α : Type} (f : Json → Except Error α) (s : String) : Except Error α :=
  match parse s with
  | none => .error .malformed
  | some j => f j

/-- Decoding a printed value decodes the value itself. -/
theorem fromText_toText {α : Type} (f : Json → Except Error α) (j : Json) : fromText f j.toText = f j := by
  unfold fromText
  rw [parse_toText]

end Json
