/-
`MemoryStore`: one hash map from a qualified key, the namespace and the key joined by U+0000, to
the record. `keys` and `clear_namespace` take a qualified key apart at its first U+0000,
`count_namespace` tests a prefix.
-/
import NapCat.Storage.Basic
import Mathlib.Data.List.AList

namespace NapCat.Storage

abbrev Values := AList fun _ : String => StoredRecord

/-- `HashMap::retain` by key. -/
def retain (p : String → Bool) (s : Values) : Values :=
  ⟨s.entries.filter fun e => p e.1, s.nodupKeys.sublist List.filter_sublist⟩

theorem lookup_retain (p : String → Bool) (s : Values) (q : String) :
    (retain p s).lookup q = if p q then s.lookup q else none := by
  ext r
  rw [← Option.mem_def, AList.mem_lookup_iff]
  cases h : p q with
  | false => simp [retain, h]
  | true => simp [retain, h, ← AList.mem_lookup_iff]

theorem keys_retain (p : String → Bool) (s : Values) : (retain p s).keys = s.keys.filter p := by
  simp only [AList.keys, retain, List.keys, List.filter_map]
  rfl

structure MemoryStore where
  values : Values := ∅

namespace MemoryStore

def qualifiedKey (ns key : String) : String := ns ++ String.singleton '\x00' ++ key

/-- `clock` is the reading of the clock for a record that is new. -/
def makeRecord (ns key : String) (value : Json) (existing : Option (StoredRecord × UInt64)) (clock : UInt64) :
    StoredRecord :=
  match existing with
  | some (previous, now) => ⟨ns, key, value, previous.createdAt, now⟩
  | none => ⟨ns, key, value, clock, clock⟩

/-- `now` and `clock` are the two readings of the clock, before the lock and in `make_record`. -/
def put (s : MemoryStore) (ns key : String) (value : Json) (now clock : UInt64) :
    Except StorageError Unit × MemoryStore :=
  match validateNamespaceAndKey ns key with
  | .error e => (.error e, s)
  | .ok () =>
    -- the old record is taken out of the map and gives its creation time to the new one
    let current := s.values.lookup (qualifiedKey ns key)
    let values := s.values.erase (qualifiedKey ns key)
    let record := makeRecord ns key value (current.map fun v => (v, now)) clock
    (.ok (), ⟨values.insert (qualifiedKey ns key) record⟩)

def get (s : MemoryStore) (ns key : String) : Except StorageError (Option StoredRecord) := do
  validateNamespaceAndKey ns key
  return s.values.lookup (qualifiedKey ns key)

def remove (s : MemoryStore) (ns key : String) : Except StorageError Bool × MemoryStore :=
  match validateNamespaceAndKey ns key with
  | .error e => (.error e, s)
  | .ok () =>
    let removed := s.values.lookup (qualifiedKey ns key)
    (.ok removed.isSome, ⟨s.values.erase (qualifiedKey ns key)⟩)

/-- The key of a qualified key of this namespace. -/
def keyIn (ns qualified : String) : Option String := do
  let (currentNs, currentKey) ← Text.splitOnce '\x00' qualified
  if currentNs = ns then some currentKey else none

def keys (s : MemoryStore) (ns : String) : Except StorageError (List String) := do
  validateNamespace ns
  return sortKeys (s.values.keys.filterMap (keyIn ns))

/-- What `clear_namespace` retains. -/
def survives (ns qualified : String) : Bool :=
  match Text.splitOnce '\x00' qualified with
  | some (currentNs, _) => currentNs ≠ ns
  | none => true

def clearNamespace (s : MemoryStore) (ns : String) : Except StorageError Nat × MemoryStore :=
  match validateNamespace ns with
  | .error e => (.error e, s)
  | .ok () =>
    let before := s.values.keys.length
    let values := retain (survives ns) s.values
    (.ok (before - values.keys.length), ⟨values⟩)

def countNamespace (s : MemoryStore) (ns : String) : Except StorageError Nat := do
  validateNamespace ns
  return (s.values.keys.filter fun qualified => Text.startsWith qualified (ns ++ String.singleton '\x00')).length

/-- A call on the store. Both readings of the clock in one `put` are the call's reading. -/
def call (s : MemoryStore) : Call → Except StorageError Reply × MemoryStore
  | .put ns key value now =>
    let (r, s') := s.put ns key value.json now.secs now.secs
    (r.map fun _ => .unit, s')
  | .get ns key => ((s.get ns key).map .record, s)
  | .remove ns key =>
    let (r, s') := s.remove ns key
    (r.map .removed, s')
  | .keys ns => ((s.keys ns).map .keys, s)
  | .clearNamespace ns =>
    let (r, s') := s.clearNamespace ns
    (r.map .count, s')
  | .countNamespace ns => ((s.countNamespace ns).map .count, s)

end MemoryStore

end NapCat.Storage
