/-
The storage interface of `napcat-storage`: records, errors, the input checks both backends share,
and the calls of the `Storage` trait with their answers. A call carries the value it stores and the
clock reading it sees.
-/
import NapCat.Lib.Json.Serde
import NapCat.Lib.Text
import NapCat.Lib.Machine
import NapCat.Lib.PartialMap

namespace NapCat.Storage

/-- Stored value with metadata. -/
structure StoredRecord where
  ns : String
  key : String
  value : Json
  createdAt : UInt64
  updatedAt : UInt64

/-- Storage related errors. -/
inductive StorageError
  | validation (text : String)
  | io (text : String)
  | database (text : String)
  | serde (text : String)
  | internal (text : String)
  deriving DecidableEq, Repr

def StorageError.text : StorageError → String
  | .validation t => "invalid storage input: " ++ t
  | .io t => "io error: " ++ t
  | .database t => "database error: " ++ t
  | .serde t => "serde error: " ++ t
  | .internal t => "internal error: " ++ t

/-! ## Input checks -/

/-- The check both fields go through. -/
def validateText (field text : String) : Except StorageError Unit :=
  if Text.isBlank text then .error (.validation (field ++ " cannot be empty")) else .ok ()

def validateNamespace (ns : String) : Except StorageError Unit := validateText "namespace" ns

def validateKey (key : String) : Except StorageError Unit := validateText "key" key

def validateNamespaceAndKey (ns key : String) : Except StorageError Unit := do
  validateNamespace ns
  validateKey key

/-! ## Calls -/

/-- A reading of the clock in seconds. The system clock counts signed 64-bit seconds and
`unix_seconds_now` gives zero before the epoch, so a reading fits an `i64`. -/
structure Clock where
  secs : UInt64
  inRange : secs.toNat < 2 ^ 63

/-- A JSON value that its text round-trips. -/
structure Value where
  json : Json
  roundTrip : Json.ofText json.toText = .ok json

/-- A value in the form `Value` holds it, within the nesting limit and with its numbers in range. -/
def Value.ofCanon (json : Json) (hc : json.canon = json) (hd : json.depth < Json.recursionLimit)
    (hr : json.inRange = true) : Value :=
  ⟨json, by rw [Json.ofText_toText, if_pos ⟨hd, hr⟩, hc]⟩

/-- A call of the `Storage` trait. -/
inductive Call
  | put (ns key : String) (value : Value) (now : Clock)
  | get (ns key : String)
  | remove (ns key : String)
  | keys (ns : String)
  | clearNamespace (ns : String)
  | countNamespace (ns : String)

def Call.ns : Call → String
  | .put ns .. | .get ns _ | .remove ns _ | .keys ns | .clearNamespace ns | .countNamespace ns => ns

/-- The check a call's strings go through. -/
def Call.validate : Call → Except StorageError Unit
  | .put ns key .. | .get ns key | .remove ns key => validateNamespaceAndKey ns key
  | .keys ns | .clearNamespace ns | .countNamespace ns => validateNamespace ns

/-- What a call gives back. -/
inductive Reply
  | unit
  | record (r : Option StoredRecord)
  | removed (b : Bool)
  | keys (ks : List String)
  | count (n : Nat)

/-- The key of a namespace is listed once for each record, in ascending order. -/
def sortKeys (ks : List String) : List String := ks.mergeSort (· ≤ ·)

/-- Sorting the keys of a finite set, each listed once, gives the set's sorted list. -/
theorem sortKeys_eq_sort {l : List String} {s : Finset String} (hn : l.Nodup) (hm : ∀ k, k ∈ l ↔ k ∈ s) :
    sortKeys l = s.sort := by
  have hp : (sortKeys l).Perm l := List.mergeSort_perm ..
  have hs : (sortKeys l).Pairwise (· ≤ ·) := by
    have : (sortKeys l).Pairwise fun a b => decide (a ≤ b) = true := List.pairwise_mergeSort
      (fun a b c hab hbc => by simp only [decide_eq_true_eq] at *; exact le_trans hab hbc)
      (fun a b => by simp only [Bool.or_eq_true, decide_eq_true_eq]; exact le_total a b) l
    exact this.imp fun h => of_decide_eq_true h
  have hf : s = (sortKeys l).toFinset := by
    ext k; rw [List.mem_toFinset, hp.mem_iff, hm]
  rw [hf, (List.toFinset_sort (· ≤ ·) (hp.nodup_iff.2 hn)).2 hs]

theorem length_eq_card {l : List String} {s : Finset String} (hn : l.Nodup) (hm : ∀ k, k ∈ l ↔ k ∈ s) :
    l.length = s.card := by
  rw [← List.toFinset_card_of_nodup hn]
  congr 1
  ext k; rw [List.mem_toFinset, hm]

end NapCat.Storage
