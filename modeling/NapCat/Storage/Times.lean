/-
The times of stored records when calls run concurrently. A put reads the clock before it waits for
the lock or its transaction, so puts of one record can write in another order than they read the
clock. As long as they do not, a record is never updated before it was created, and its last update
never goes back.
-/
import NapCat.Lib.Stamps
import NapCat.Lib.Threads
import NapCat.Storage.Memory
import NapCat.Storage.Sqlite

namespace NapCat.Storage

open Stamps

def Clock.time (c : Clock) : Int := c.secs.toNat

theorem Clock.toInt_toInt64 (c : Clock) : c.secs.toInt64.toInt = c.time := by
  have := c.inRange
  rw [Int64.toInt, UInt64.toBitVec_toInt64, BitVec.toInt_eq_toNat_of_lt]
  · rfl
  · rw [UInt64.toNat_toBitVec]
    omega

/-- What a put with the reading `now` does to the stamps: it is refused, stamps a new record with one
time, or stamps the record it finds with its reading. -/
inductive PutStamps {κ : Type} (b : Book κ Int) (k : κ) (now : Int) (b' : Book κ Int) : Prop
  | refused (h : b' = b)
  | insert (t : Int) (hnew : b k = none) (h : Sets b k ⟨t, t⟩ b')
  | update (s : Stamp Int) (hold : b k = some s) (h : Sets b k ⟨s.created, now⟩ b')

/-- A storage handle: the calls that write, where each is one step, and the stamps of the records. A
put has the reading of the clock from before its step and the one in it. -/
structure Handle where
  State : Type
  Slot : Type
  empty : State
  slot : String → String → Slot
  book : State → Book Slot Int
  put : State → String → String → Json → Clock → Clock → Except StorageError Unit × State
  remove : State → String → String → Except StorageError Bool × State
  clearNamespace : State → String → Except StorageError Nat × State
  book_empty : ∀ k, book empty k = none
  put_stamps : ∀ s ns key value now clock,
    PutStamps (book s) (slot ns key) now.time (book (put s ns key value now clock).2)
  remove_keeps : ∀ s ns key, Keeps (book s) (book (remove s ns key).2)
  clear_keeps : ∀ s ns, Keeps (book s) (book (clearNamespace s ns).2)

/-! ## MemoryStore -/

namespace MemoryStore

def stampOf (r : StoredRecord) : Stamp Int := ⟨r.createdAt.toNat, r.updatedAt.toNat⟩

/-- The slots are the qualified keys. -/
def book (s : MemoryStore) : Book String Int := fun q => (s.values.lookup q).map stampOf

theorem put_stamps (s : MemoryStore) (ns key : String) (value : Json) (now clock : Clock) :
    PutStamps s.book (qualifiedKey ns key) now.time (s.put ns key value now.secs clock.secs).2.book := by
  unfold put
  cases validateNamespaceAndKey ns key with
  | error e => exact .refused rfl
  | ok u =>
    have hsets : ∀ r : StoredRecord, Sets s.book (qualifiedKey ns key) (stampOf r)
        (book ⟨(s.values.erase (qualifiedKey ns key)).insert (qualifiedKey ns key) r⟩) := by
      intro r
      constructor
      · simp [book]
      · intro q hq
        simp [book, AList.lookup_insert_ne hq, AList.lookup_erase_ne hq]
    dsimp only
    cases hold : s.values.lookup (qualifiedKey ns key) with
    | none => exact .insert clock.time (by simp [book, hold]) (hsets ⟨ns, key, value, clock.secs, clock.secs⟩)
    | some previous =>
      exact .update (stampOf previous) (by simp [book, hold])
        (hsets ⟨ns, key, value, previous.createdAt, now.secs⟩)

theorem remove_keeps (s : MemoryStore) (ns key : String) : Keeps s.book (s.remove ns key).2.book := by
  unfold remove
  cases validateNamespaceAndKey ns key with
  | error e => exact .refl _
  | ok u =>
    intro q
    by_cases hq : q = qualifiedKey ns key
    · subst hq
      simp [book]
    · simp [book, AList.lookup_erase_ne hq]

theorem clear_keeps (s : MemoryStore) (ns : String) : Keeps s.book (s.clearNamespace ns).2.book := by
  unfold clearNamespace
  cases validateNamespace ns with
  | error e => exact .refl _
  | ok u =>
    intro q
    simp only [book, lookup_retain]
    cases survives ns q <;> simp

end MemoryStore

def memoryHandle : Handle where
  State := MemoryStore
  Slot := String
  empty := {}
  slot := MemoryStore.qualifiedKey
  book := MemoryStore.book
  put s ns key value now clock := s.put ns key value now.secs clock.secs
  remove := MemoryStore.remove
  clearNamespace := MemoryStore.clearNamespace
  book_empty _ := rfl
  put_stamps := MemoryStore.put_stamps
  remove_keeps := MemoryStore.remove_keeps
  clear_keeps := MemoryStore.clear_keeps

/-! ## SqliteStore -/

namespace SqliteStore

def stampOf (r : Row) : Stamp Int := ⟨r.createdAt.toInt, r.updatedAt.toInt⟩

/-- The slots are the primary keys. -/
def book (s : SqliteStore) : Book (String × String) Int := fun p => (s.table.selectKey p).map stampOf

theorem put_stamps (s : SqliteStore) (ns key : String) (value : Json) (now : Clock) :
    PutStamps s.book (ns, key) now.time (s.put ns key value now.secs).2.book := by
  unfold put
  cases validateNamespaceAndKey ns key with
  | error e => exact .refused rfl
  | ok u =>
    dsimp only
    unfold createdAtFor
    cases hold : s.table.selectKey (ns, key) with
    | none =>
      refine .insert now.time (by simp [book, hold]) ⟨?_, fun p hp => ?_⟩
      · simp only [book]
        rw [show (ns, key) = Row.pk ⟨ns, key, value.toText, now.secs.toInt64, now.secs.toInt64⟩ from rfl] at hold ⊢
        rw [Table.selectKey_upsert_self, hold]
        simp [stampOf, now.toInt_toInt64]
      · simp only [book]
        rw [Table.selectKey_upsert_of_ne _ hp]
    | some row =>
      dsimp only
      cases u64OfI64 "invalid created_at value in sqlite: " row.createdAt with
      | error e => exact .refused rfl
      | ok createdAt =>
        refine .update (stampOf row) (by simp [book, hold]) ⟨?_, fun p hp => ?_⟩
        · simp only [book]
          rw [show (ns, key) = Row.pk ⟨ns, key, value.toText, createdAt.toInt64, now.secs.toInt64⟩ from rfl] at hold ⊢
          rw [Table.selectKey_upsert_self, hold]
          simp [stampOf, Row.updated, now.toInt_toInt64]
        · simp only [book]
          rw [Table.selectKey_upsert_of_ne _ hp]

theorem delete_keeps (s : SqliteStore) (p : Row → Bool) : Keeps s.book (book ⟨s.table.deleteWhere p⟩) := by
  intro k
  simp only [book, Table.selectKey_deleteWhere]
  cases hk : s.table.selectKey k with
  | none => simp
  | some r => cases hp : p r <;> simp [hp]

theorem remove_keeps (s : SqliteStore) (ns key : String) : Keeps s.book (s.remove ns key).2.book := by
  unfold remove
  cases validateNamespaceAndKey ns key with
  | error e => exact .refl _
  | ok u => exact s.delete_keeps _

theorem clear_keeps (s : SqliteStore) (ns : String) : Keeps s.book (s.clearNamespace ns).2.book := by
  unfold clearNamespace
  cases validateNamespace ns with
  | error e => exact .refl _
  | ok u => exact s.delete_keeps _

end SqliteStore

/-- The transaction of a put is one step, and has no other reading of the clock. -/
def sqliteHandle : Handle where
  State := SqliteStore
  Slot := String × String
  empty := {}
  slot := Prod.mk
  book := SqliteStore.book
  put s ns key value now _ := s.put ns key value now.secs
  remove := SqliteStore.remove
  clearNamespace := SqliteStore.clearNamespace
  book_empty _ := rfl
  put_stamps s ns key value now _ := s.put_stamps ns key value now
  remove_keeps := SqliteStore.remove_keeps
  clear_keeps := SqliteStore.clear_keeps

/-- `StorageBackend`: the path is where the database lies. -/
inductive StorageBackend
  | memory
  | sqlite (path : String)

def StorageBackend.connect : StorageBackend → Handle
  | .memory => memoryHandle
  | .sqlite _ => sqliteHandle

/-! ## Concurrent calls -/

namespace Handle

open Threads

variable (h : Handle)

/-- The store and the clock. -/
structure Shared where
  store : h.State
  clock : Clock

inductive Op
  | put (ns key : String) (value : Json)
  | remove (ns key : String)
  | clearNamespace (ns : String)

/-- A put that has read the clock and waits for the lock or its transaction, or a call that has returned. -/
inductive Pc
  | putting (ns key : String) (value : Json) (now : Clock)
  | done (r : Except StorageError Reply)

variable {h}

def start (g : Shared h) : Op → Option (Shared h × Pc)
  | .put ns key value =>
    match validateNamespaceAndKey ns key with
    | .error e => some (g, .done (.error e))
    | .ok () => some (g, .putting ns key value g.clock)
  | .remove ns key =>
    let (r, store) := h.remove g.store ns key
    some ({ g with store }, .done (r.map .removed))
  | .clearNamespace ns =>
    let (r, store) := h.clearNamespace g.store ns
    some ({ g with store }, .done (r.map .count))

def act (g : Shared h) : Pc → Unit → Option (Shared h × Pc)
  | .putting ns key value now, () =>
    let (r, store) := h.put g.store ns key value now g.clock
    some ({ g with store }, .done (r.map fun _ => .unit))
  | .done _, () => none

/-- The clock never goes back. -/
def tick (g : Shared h) (t : Clock) : Option (Shared h) :=
  if g.clock.secs ≤ t.secs then some { g with clock := t } else none

abbrev Sys (h : Handle) := Threads.Sys (Shared h) Pc

abbrev Event := Threads.Event Op Unit Clock

def program (h : Handle) : Threads.Program (Shared h) Pc Op Unit Clock := ⟨start, act, tick⟩

def step (h : Handle) : Sys h → Event → Option (Sys h) := Threads.step (program h)

/-- An empty store, at some time. -/
def init (h : Handle) (clock : Clock) : Sys h := ⟨⟨h.empty, clock⟩, []⟩

def stamps (s : Sys h) : Book h.Slot Int := h.book s.shared.store

/-- A put that finds a record in its slot has read the clock no earlier than the record was last
updated: the puts of a stored record write in the order of their readings. -/
def Orderly (s : Sys h) : Event → Prop
  | .act i _ =>
    match s.calls[i]? with
    | some (.putting ns key _ now) => ∀ r ∈ stamps s (h.slot ns key), r.updated ≤ now.time
    | _ => True
  | _ => True

instance (s : Sys h) (e : Event) : Decidable (Orderly s e) := by
  unfold Orderly
  split
  · split <;> infer_instance
  · infer_instance

/-- The times of the records, on a run that reaches `s₁` and goes on by `es` to `s₂`: none was created after
its update, and no update of a record that stays goes back. -/
structure TimesOrdered (s₁ : Sys h) (es : List Event) (s₂ : Sys h) : Prop where
  created : Ordered (stamps s₂)
  updated : ∀ k x y, Stays (step h) stamps k s₁ es → stamps s₁ k = some x → stamps s₂ k = some y →
    x.updated ≤ y.updated

theorem step_change (s : Sys h) (e : Event) (s' : Sys h) (hc : Orderly s e) (hs : step h s e = some s') :
    Change (stamps s) (stamps s') := by
  cases e with
  | start op =>
    obtain ⟨g, p, hst, rfl⟩ := step_start hs
    refine .keep ?_
    cases op with
    | put ns key value =>
      simp only [program, start] at hst
      split at hst <;> cases hst <;> exact .refl _
    | remove ns key =>
      cases hst
      exact h.remove_keeps s.shared.store ns key
    | clearNamespace ns =>
      cases hst
      exact h.clear_keeps s.shared.store ns
  | act i a =>
    obtain ⟨p, g, q, hi, hact, rfl⟩ := step_act hs
    cases p with
    | done r => cases hact
    | putting ns key value now =>
      cases hact
      simp only [Orderly, hi] at hc
      cases h.put_stamps s.shared.store ns key value now s.shared.clock with
      | refused hb =>
        refine .keep fun k => .inr ?_
        exact congrFun hb k
      | insert t hnew hsets => exact .insert _ t hnew hsets
      | update r hold hsets => exact .update _ r now.time hold (hc r hold) hsets
  | env t =>
    obtain ⟨g, ht, rfl⟩ := step_env hs
    obtain ⟨-, ht⟩ := Option.ite_none_right_eq_some.1 ht
    cases ht
    exact .keep (.refl _)

/-- In every run of a store whose puts of a stored record write in the order of their readings, no
record is updated before it was created, and an update never goes back while its record stays stored. -/
theorem times_ordered (backend : StorageBackend) {clock : Clock} {es₁ es₂ : List Event} {s₁ s₂ : Sys backend.connect}
    (hc : Run.Along (step backend.connect) Orderly (init backend.connect clock) (es₁ ++ es₂))
    (h₁ : Run.exec (step backend.connect) (init backend.connect clock) es₁ = some s₁)
    (h₂ : Run.exec (step backend.connect) s₁ es₂ = some s₂) : TimesOrdered s₁ es₂ s₂ := by
  obtain ⟨hc₁, hc₂⟩ := Run.Along.append _ _ _ _ hc h₁
  have hinit : Ordered (stamps (init backend.connect clock)) := by
    intro k r hr
    rw [stamps, init, Handle.book_empty] at hr
    cases hr
  refine ⟨?_, fun k x y hstays hx hy => run_updated_le step_change es₂ s₁ s₂ x y hc₂ hstays h₂ hx hy⟩
  exact run_ordered step_change hc₂ h₂ (run_ordered step_change hc₁ h₁ hinit)

/-- A put that creates a record at 5, and one of it that has read the clock at 10. -/
def putAndPut : List Event :=
  [.start (.put "ns" "k" .null), .act 0 (), .env ⟨10, by decide⟩, .start (.put "ns" "k" .null)]

/-- The second write moves the update of the record and leaves its creation. -/
theorem times_ordered_twoPuts : ∃ s₁ s₂, Run.exec (step StorageBackend.memory.connect)
    (init StorageBackend.memory.connect ⟨5, by decide⟩) putAndPut = some s₁ ∧
    Run.exec (step StorageBackend.memory.connect) s₁ [.act 1 ()] = some s₂ ∧
    stamps s₁ (MemoryStore.qualifiedKey "ns" "k") = some ⟨5, 5⟩ ∧
    stamps s₂ (MemoryStore.qualifiedKey "ns" "k") = some ⟨5, 10⟩ ∧ TimesOrdered s₁ [.act 1 ()] s₂ := by
  have hk : (Run.exec (step StorageBackend.memory.connect) (init StorageBackend.memory.connect ⟨5, by decide⟩)
      putAndPut).map (fun s => (stamps s (MemoryStore.qualifiedKey "ns" "k"),
        (Run.exec (step StorageBackend.memory.connect) s [.act 1 ()]).map fun s' =>
          stamps s' (MemoryStore.qualifiedKey "ns" "k"))) = some (some ⟨5, 5⟩, some (some ⟨5, 10⟩)) := by
    decide +kernel
  obtain ⟨s₁, hs₁, hk⟩ := Option.map_eq_some_iff.1 hk
  obtain ⟨hk₁, hk₂⟩ := Prod.mk.inj hk
  obtain ⟨s₂, hs₂, hk₂⟩ := Option.map_eq_some_iff.1 hk₂
  refine ⟨s₁, s₂, hs₁, hs₂, hk₁, hk₂, times_ordered .memory ?_ hs₁ hs₂⟩
  decide +kernel

/-- Two puts of one record, the second of which reads the clock later. -/
def twoPuts : List Event :=
  [.start (.put "ns" "k" .null), .env ⟨10, by decide⟩, .start (.put "ns" "k" .null)]

/-- They write in the other order: the record is created at 10 and updated at 5. -/
theorem late_put_goes_back : ∃ s, Run.exec (step StorageBackend.memory.connect)
    (init StorageBackend.memory.connect ⟨5, by decide⟩) (twoPuts ++ [.act 1 (), .act 0 ()]) = some s ∧
    ¬ TimesOrdered s [] s := by
  have hk : (Run.exec (step StorageBackend.memory.connect) (init StorageBackend.memory.connect ⟨5, by decide⟩)
      (twoPuts ++ [.act 1 (), .act 0 ()])).map (fun s => stamps s (MemoryStore.qualifiedKey "ns" "k"))
      = some (some ⟨10, 5⟩) := by decide +kernel
  obtain ⟨s, hs, hk⟩ := Option.map_eq_some_iff.1 hk
  refine ⟨s, hs, fun h => ?_⟩
  have := h.created _ _ hk
  revert this
  decide

end Handle

end NapCat.Storage
