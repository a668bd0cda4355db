/-
`SqliteStore`: a table of rows with primary key `(namespace, record_key)`. Text columns compare as
text, times are signed 64-bit integers, the value is stored as JSON text. Each `put` is one
transaction; failures of the database itself are not modelled.
-/
import NapCat.Storage.Basic

namespace NapCat.Storage

structure Row where
  ns : String
  recordKey : String
  value : String
  createdAt : Int64
  updatedAt : Int64

/-- The primary key. -/
def Row.pk (r : Row) : String × String := (r.ns, r.recordKey)

/-- What `DO UPDATE SET value = ?3, updated_at = ?5` makes of a row. -/
def Row.updated (new old : Row) : Row := { old with value := new.value, updatedAt := new.updatedAt }

/-- The table `napcat_storage`: no two rows share a primary key. -/
structure Table where
  rows : List Row
  unique : (rows.map Row.pk).Nodup

namespace Table

/-- `SELECT … WHERE namespace = ?1 AND record_key = ?2`. -/
def selectKey (t : Table) (p : String × String) : Option Row := t.rows.find? fun r => r.pk = p

/-- `INSERT … ON CONFLICT(namespace, record_key) DO UPDATE …`. -/
def upsert (t : Table) (new : Row) : Table :=
  if h : new.pk ∈ t.rows.map Row.pk then
    { rows := t.rows.map fun r => if r.pk = new.pk then Row.updated new r else r
      unique := by
        have : (t.rows.map fun r => if r.pk = new.pk then Row.updated new r else r).map Row.pk = t.rows.map Row.pk := by
          rw [List.map_map]
          refine List.map_congr_left fun r _ => ?_
          simp only [Function.comp]
          split <;> rfl
        rw [this]; exact t.unique }
  else
    { rows := t.rows ++ [new]
      unique := by
        rw [List.map_append, List.nodup_append]
        refine ⟨t.unique, List.nodup_singleton _, fun a ha b hb => ?_⟩
        rw [List.map_singleton, List.mem_singleton] at hb
        rintro rfl
        exact h (hb ▸ ha) }

/-- `DELETE … WHERE p`. -/
def deleteWhere (t : Table) (p : Row → Bool) : Table where
  rows := t.rows.filter fun r => !p r
  unique := t.unique.sublist (List.filter_sublist.map _)

/-- The rows a `WHERE` clause selects. -/
def selectWhere (t : Table) (p : Row → Bool) : List Row := t.rows.filter p

theorem selectKey_eq_some {t : Table} {p : String × String} {r : Row} :
    t.selectKey p = some r ↔ r ∈ t.rows ∧ r.pk = p := by
  constructor
  · intro h
    exact ⟨List.mem_of_find?_eq_some h, by simpa using List.find?_some h⟩
  · rintro ⟨hr, rfl⟩
    cases hf : t.selectKey r.pk with
    | none => simpa using (List.find?_eq_none.1 hf) r hr
    | some r' =>
      have hr' := List.mem_of_find?_eq_some hf
      have hp : r'.pk = r.pk := by simpa using List.find?_some hf
      rw [List.inj_on_of_nodup_map t.unique hr' hr hp]

theorem selectKey_eq_none {t : Table} {p : String × String} :
    t.selectKey p = none ↔ p ∉ t.rows.map Row.pk := by
  rw [selectKey, List.find?_eq_none, List.mem_map]
  simp only [decide_eq_true_eq, not_exists, not_and]

theorem selectKey_upsert_self (t : Table) (new : Row) :
    (t.upsert new).selectKey new.pk = some ((t.selectKey new.pk).elim new (Row.updated new)) := by
  rw [selectKey_eq_some]
  cases hs : t.selectKey new.pk with
  | none =>
    rw [upsert, dif_neg (selectKey_eq_none.1 hs)]
    exact ⟨List.mem_append_right _ (List.mem_singleton_self _), rfl⟩
  | some r =>
    obtain ⟨hr, hp⟩ := selectKey_eq_some.1 hs
    rw [upsert, dif_pos (List.mem_map.2 ⟨r, hr, hp⟩)]
    exact ⟨List.mem_map.2 ⟨r, hr, if_pos hp⟩, hp⟩

theorem selectKey_upsert_of_ne (t : Table) {new : Row} {p : String × String} (h : p ≠ new.pk) :
    (t.upsert new).selectKey p = t.selectKey p := by
  ext r
  rw [selectKey_eq_some, selectKey_eq_some]
  unfold upsert
  split
  · rw [List.mem_map]
    constructor
    · rintro ⟨⟨r', hr', rfl⟩, rfl⟩
      by_cases hp : r'.pk = new.pk
      · rw [if_pos hp] at h; exact absurd hp h
      · rw [if_neg hp]; exact ⟨hr', rfl⟩
    · rintro ⟨hr, rfl⟩
      exact ⟨⟨r, hr, if_neg h⟩, rfl⟩
  · rw [List.mem_append, List.mem_singleton]
    constructor
    · rintro ⟨hr | rfl, hp⟩
      · exact ⟨hr, hp⟩
      · exact absurd hp.symm h
    · rintro ⟨hr, hp⟩
      exact ⟨Or.inl hr, hp⟩

theorem selectKey_deleteWhere (t : Table) (p : Row → Bool) (k : String × String) :
    (t.deleteWhere p).selectKey k = (t.selectKey k).filter fun r => !p r := by
  ext r
  rw [selectKey_eq_some, Option.filter_eq_some_iff, selectKey_eq_some]
  simp only [deleteWhere, List.mem_filter]
  tauto

end Table

structure SqliteStore where
  table : Table := ⟨[], List.nodup_nil⟩

/-- `u64::try_from` on an `i64`, with the words around its error. -/
def u64OfI64 (context : String) (x : Int64) : Except StorageError UInt64 :=
  if x < 0 then .error (.internal (context ++ "out of range integral type conversion attempted")) else .ok x.toUInt64

namespace SqliteStore

def recordToEntry (row : Row) : Except StorageError StoredRecord := do
  let value ← match Json.ofText row.value with
    | .ok j => pure j
    | .error e => .error (.serde ("deserialize stored record for `" ++ row.ns ++ ":" ++ row.recordKey ++
        "` failed: " ++ e.text))
  let createdAt ← u64OfI64 "invalid created_at value: " row.createdAt
  let updatedAt ← u64OfI64 "invalid updated_at value: " row.updatedAt
  return ⟨row.ns, row.recordKey, value, createdAt, updatedAt⟩

/-- The creation time `put` writes: that of the row already there, else the reading. -/
def createdAtFor (s : SqliteStore) (p : String × String) (now : UInt64) : Except StorageError UInt64 :=
  match s.table.selectKey p with
  | some row => u64OfI64 "invalid created_at value in sqlite: " row.createdAt
  | none => .ok now

def put (s : SqliteStore) (ns key : String) (value : Json) (now : UInt64) :
    Except StorageError Unit × SqliteStore :=
  match validateNamespaceAndKey ns key with
  | .error e => (.error e, s)
  | .ok () =>
    match s.createdAtFor (ns, key) now with
    | .error e => (.error e, s)
    -- `created_at as i64` and `now as i64`
    | .ok createdAt => (.ok (), ⟨s.table.upsert ⟨ns, key, value.toText, createdAt.toInt64, now.toInt64⟩⟩)

def get (s : SqliteStore) (ns key : String) : Except StorageError (Option StoredRecord) := do
  validateNamespaceAndKey ns key
  match s.table.selectKey (ns, key) with
  | some row => return some (← recordToEntry row)
  | none => return none

/-- The rows affected are those the clause selects. -/
def remove (s : SqliteStore) (ns key : String) : Except StorageError Bool × SqliteStore :=
  match validateNamespaceAndKey ns key with
  | .error e => (.error e, s)
  | .ok () =>
    let p : Row → Bool := fun r => r.pk = (ns, key)
    (.ok (0 < (s.table.selectWhere p).length), ⟨s.table.deleteWhere p⟩)

def keys (s : SqliteStore) (ns : String) : Except StorageError (List String) := do
  validateNamespace ns
  return sortKeys ((s.table.selectWhere fun r => r.ns = ns).map Row.recordKey)

def clearNamespace (s : SqliteStore) (ns : String) : Except StorageError Nat × SqliteStore :=
  match validateNamespace ns with
  | .error e => (.error e, s)
  | .ok () =>
    let p : Row → Bool := fun r => r.ns = ns
    (.ok (s.table.selectWhere p).length, ⟨s.table.deleteWhere p⟩)

def countNamespace (s : SqliteStore) (ns : String) : Except StorageError Nat := do
  validateNamespace ns
  let count : Int := (s.table.selectWhere fun r => r.ns = ns).length
  if count < 0 then .error (.internal "invalid count value: out of range integral type conversion attempted")
  else return count.toNat

def call (s : SqliteStore) : Call → Except StorageError Reply × SqliteStore
  | .put ns key value now =>
    let (r, s') := s.put ns key value.json now.secs
    (r.map fun _ => .unit, s')
  | .get ns key => ((s.get ns key).map .record, s)
  | .remove ns key =>
    let (r, s') := s.remove ns key
    (r.map .removed, s')
  | .keys ns => ((s.keys ns).map .keys, s)
  | .clearNamespace ns =>
    let (r, s') := s.clearNamespace ns
    (r.map .count, s')
  | .countNamespace ns => ((s.countNamespace ns).map .count, s)

end SqliteStore

end NapCat.Storage
