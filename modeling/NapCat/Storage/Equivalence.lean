/-
Both backends against the abstract store. `SqliteStore` answers every call as the abstract map does;
`MemoryStore` does so as long as no namespace contains the separator of its qualified keys.
-/
import NapCat.Storage.Memory
import NapCat.Storage.Sqlite
import NapCat.Storage.Records

namespace NapCat.Storage

open Machine

/-! ## SqliteStore -/

def rowOf (p : String × String) (e : Entry) : Row :=
  ⟨p.1, p.2, e.value.json.toText, e.createdAt.secs.toInt64, e.updatedAt.secs.toInt64⟩

/-- A clock reading survives the signed column. -/
theorem u64OfI64_clock (context : String) (t : Clock) : u64OfI64 context t.secs.toInt64 = .ok t.secs := by
  have h : ¬ t.secs.toInt64 < 0 := by
    rw [Int64.lt_iff_toInt_lt, Int64.toInt_zero, not_lt]
    have := t.inRange
    rw [Int64.toInt, UInt64.toBitVec_toInt64, BitVec.toInt_eq_toNat_of_lt]
    · exact Int.natCast_nonneg _
    · rw [UInt64.toNat_toBitVec]; omega
  rw [u64OfI64, if_neg h, UInt64.toUInt64_toInt64]

theorem recordToEntry_rowOf (p : String × String) (e : Entry) :
    SqliteStore.recordToEntry (rowOf p e) = .ok (e.record p) := by
  unfold SqliteStore.recordToEntry rowOf
  simp only [e.value.roundTrip, u64OfI64_clock]
  rfl

namespace SqliteStore

/-- The table holds the row of every entry of the map, and no other. -/
def Holds (s : SqliteStore) (m : Records) : Prop := ∀ p, s.table.selectKey p = (m.get p).map (rowOf p)

variable {s : SqliteStore} {m : Records}

theorem Holds.init : Holds {} .empty := fun _ => rfl

/-- The rows of a namespace list its keys, each once. -/
theorem Holds.mem_rows (h : Holds s m) (ns k : String) :
    k ∈ (s.table.selectWhere fun r => r.ns = ns).map Row.recordKey ↔ k ∈ m.keysOf ns := by
  rw [m.mem_keysOf, ← Option.isSome_map (f := rowOf (ns, k)), ← h (ns, k), Option.isSome_iff_exists]
  simp only [Table.selectKey_eq_some, Table.selectWhere, List.mem_map, List.mem_filter, decide_eq_true_eq, Row.pk,
    Prod.mk.injEq]
  tauto

theorem nodup_rows (t : Table) (ns : String) :
    ((t.selectWhere fun r => r.ns = ns).map Row.recordKey).Nodup := by
  refine List.Nodup.of_map (fun k => (ns, k)) ?_
  rw [List.map_map]
  have : (t.selectWhere fun r => r.ns = ns).map ((fun k => (ns, k)) ∘ Row.recordKey)
      = (t.selectWhere fun r => r.ns = ns).map Row.pk := by
    refine List.map_congr_left fun r hr => ?_
    have := of_decide_eq_true (List.mem_filter.1 hr).2
    simp only [Function.comp, Row.pk, this]
  rw [this]
  exact t.unique.sublist (List.filter_sublist.map _)

theorem Holds.length_rows (h : Holds s m) (ns : String) :
    (s.table.selectWhere fun r => r.ns = ns).length = (m.keysOf ns).card := by
  rw [← length_eq_card (nodup_rows s.table ns) (h.mem_rows ns), List.length_map]

theorem Holds.createdAtFor (h : Holds s m) (p : String × String) (now : Clock) :
    s.createdAtFor p now.secs = .ok (((m.get p).map Entry.createdAt).getD now).secs := by
  rw [SqliteStore.createdAtFor, h p]
  cases m.get p with
  | none => rfl
  | some e => exact u64OfI64_clock _ e.createdAt

theorem Holds.put (h : Holds s m) (p : String × String) (value : Value) (now : Clock) :
    Holds ⟨s.table.upsert (rowOf p ⟨value, ((m.get p).map Entry.createdAt).getD now, now⟩)⟩ (m.put p value now) := by
  intro q
  by_cases hq : q = p
  · subst hq
    have hs := Table.selectKey_upsert_self s.table (rowOf q ⟨value, ((m.get q).map Entry.createdAt).getD now, now⟩)
    rw [show (rowOf q _).pk = q from rfl, h q] at hs
    rw [hs, Records.put, PartialMap.get_insert_self]
    cases m.get q <;> rfl
  · rw [Table.selectKey_upsert_of_ne s.table (show q ≠ (rowOf p _).pk from hq), h q, Records.put,
      PartialMap.get_insert_of_ne _ _ hq]

theorem Holds.remove (h : Holds s m) (p : String × String) :
    Holds ⟨s.table.deleteWhere fun r => r.pk = p⟩ (m.erase p) := by
  intro q
  rw [Table.selectKey_deleteWhere, h q]
  by_cases hq : q = p
  · subst hq
    rw [PartialMap.get_erase_self]
    cases m.get q <;> simp [rowOf, Row.pk]
  · rw [PartialMap.get_erase_of_ne _ hq]
    cases m.get q with
    | none => rfl
    | some e => simp [rowOf, Row.pk, hq]

theorem Holds.clear (h : Holds s m) (ns : String) : Holds ⟨s.table.deleteWhere fun r => r.ns = ns⟩ (m.clear ns) := by
  intro q
  rw [Table.selectKey_deleteWhere, h q, Records.clear, PartialMap.get_eraseIf]
  cases m.get q with
  | none => simp
  | some e => by_cases hq : q.1 = ns <;> simp [rowOf, hq]

theorem Holds.removed (h : Holds s m) (p : String × String) :
    decide (0 < (s.table.selectWhere fun r => r.pk = p).length) = (m.get p).isSome := by
  rw [← Option.isSome_map (f := rowOf p), ← h p, Bool.eq_iff_iff, decide_eq_true_eq, List.length_pos_iff_exists_mem,
    Option.isSome_iff_exists]
  simp only [Table.selectKey_eq_some, Table.selectWhere, List.mem_filter, decide_eq_true_eq]

theorem call_invalid (s : SqliteStore) {c : Call} {e : StorageError} (h : c.validate = .error e) :
    s.call c = (.error e, s) := by
  cases c <;> simp only [Call.validate] at h <;>
    simp only [call, put, get, remove, keys, clearNamespace, countNamespace, h] <;> rfl

theorem simulates : Simulates call Records.call (fun _ => True) Holds := by
  intro s m c h _
  cases hv : c.validate with
  | error e => simp only [call_invalid s hv, Records.call, hv]; exact ⟨trivial, h⟩
  | ok u =>
    simp only [Records.call, hv]
    cases c with
    | put ns key value now =>
      simp only [Call.validate] at hv
      simp only [call, put, hv, h.createdAtFor (ns, key) now]
      exact ⟨rfl, h.put (ns, key) value now⟩
    | get ns key =>
      simp only [Call.validate] at hv
      refine ⟨?_, h⟩
      simp only [call, get, hv, h (ns, key), Records.answer]
      cases m.get (ns, key) with
      | none => rfl
      | some e =>
        simp only [Option.map_some, recordToEntry_rowOf]
        rfl
    | remove ns key =>
      simp only [Call.validate] at hv
      simp only [call, remove, hv, h.removed (ns, key)]
      exact ⟨rfl, h.remove (ns, key)⟩
    | keys ns =>
      simp only [Call.validate] at hv
      refine ⟨?_, h⟩
      simp only [call, keys, hv, Records.answer]
      rw [← sortKeys_eq_sort (nodup_rows s.table ns) (h.mem_rows ns)]
      rfl
    | clearNamespace ns =>
      simp only [Call.validate] at hv
      simp only [call, clearNamespace, hv, h.length_rows ns]
      exact ⟨rfl, h.clear ns⟩
    | countNamespace ns =>
      simp only [Call.validate] at hv
      refine ⟨?_, h⟩
      simp only [call, countNamespace, hv, h.length_rows ns, Records.answer]
      rfl

end SqliteStore

/-! ## MemoryStore -/

/-- The namespace does not contain the separator of qualified keys. -/
def NulFree (ns : String) : Prop := '\x00' ∉ ns.toList

instance (ns : String) : Decidable (NulFree ns) := inferInstanceAs (Decidable ('\x00' ∉ ns.toList))

namespace MemoryStore

theorem splitOnce_qualifiedKey {ns : String} (h : NulFree ns) (key : String) :
    Text.splitOnce '\x00' (qualifiedKey ns key) = some (ns, key) :=
  Text.splitOnce_append h

theorem qualifiedKey_inj {ns ns' key key' : String} (h : NulFree ns) (h' : NulFree ns')
    (he : qualifiedKey ns key = qualifiedKey ns' key') : ns = ns' ∧ key = key' := by
  have := splitOnce_qualifiedKey h key
  rw [he, splitOnce_qualifiedKey h' key'] at this
  obtain ⟨rfl, rfl⟩ := Prod.mk.inj (Option.some.inj this)
  exact ⟨rfl, rfl⟩

theorem keyIn_eq_some {ns qualified key : String} (h : keyIn ns qualified = some key) :
    qualified = qualifiedKey ns key := by
  unfold keyIn at h
  cases hs : Text.splitOnce '\x00' qualified with
  | none => rw [hs] at h; cases h
  | some p =>
    rw [hs] at h
    obtain ⟨a, b⟩ := p
    simp only [Option.bind_eq_bind, Option.bind_some, Option.ite_none_right_eq_some, Option.some.injEq] at h
    obtain ⟨rfl, rfl⟩ := h
    exact (Text.splitOnce_some hs).1

theorem keyIn_qualifiedKey {ns' : String} (h : NulFree ns') (ns key : String) :
    keyIn ns (qualifiedKey ns' key) = if ns' = ns then some key else none := by
  rw [keyIn, splitOnce_qualifiedKey h]; rfl

/-- The prefix test of `count_namespace` agrees with the split of the other operations. -/
theorem startsWith_qualifiedKey {ns ns' : String} (h : NulFree ns) (h' : NulFree ns') (key : String) :
    Text.startsWith (qualifiedKey ns' key) (ns ++ String.singleton '\x00') =
      (keyIn ns (qualifiedKey ns' key)).isSome := by
  rw [keyIn_qualifiedKey h', Bool.eq_iff_iff, Text.startsWith_iff]
  constructor
  · rintro ⟨rest, he⟩
    rw [if_pos (qualifiedKey_inj h' h (he : qualifiedKey ns' key = qualifiedKey ns rest)).1]; rfl
  · intro hs
    split_ifs at hs with hn
    · subst hn; exact ⟨key, rfl⟩
    · cases hs

/-- The map holds the record of every entry under its qualified key, and only qualified keys. -/
structure Holds (s : MemoryStore) (m : Records) : Prop where
  qualified : ∀ q ∈ s.values.keys, ∃ ns key, NulFree ns ∧ q = qualifiedKey ns key
  lookup : ∀ ns key, NulFree ns →
    s.values.lookup (qualifiedKey ns key) = (m.get (ns, key)).map fun e => e.record (ns, key)

variable {s : MemoryStore} {m : Records}

theorem Holds.init : Holds {} .empty := ⟨fun q hq => by simp at hq, fun _ _ _ => rfl⟩

theorem Holds.mem_keys (h : Holds s m) {ns : String} (hn : NulFree ns) (k : String) :
    k ∈ s.values.keys.filterMap (keyIn ns) ↔ k ∈ m.keysOf ns := by
  rw [m.mem_keysOf, ← Option.isSome_map (f := fun e => e.record (ns, k)), ← h.lookup ns k hn, AList.lookup_isSome,
    AList.mem_keys, List.mem_filterMap]
  constructor
  · rintro ⟨q, hq, hk⟩
    rwa [← keyIn_eq_some hk]
  · intro hq
    exact ⟨_, hq, by rw [keyIn_qualifiedKey hn, if_pos rfl]⟩

theorem nodup_keys (s : MemoryStore) (ns : String) : (s.values.keys.filterMap (keyIn ns)).Nodup :=
  s.values.keys_nodup.filterMap fun _ _ _ hb hb' =>
    (keyIn_eq_some (Option.mem_def.1 hb)).trans (keyIn_eq_some (Option.mem_def.1 hb')).symm

theorem Holds.countP_keys (h : Holds s m) {ns : String} (hn : NulFree ns) :
    s.values.keys.countP (fun q => (keyIn ns q).isSome) = (m.keysOf ns).card := by
  rw [← length_eq_card (nodup_keys s ns) (h.mem_keys hn), List.length_filterMap_eq_countP]

theorem Holds.count (h : Holds s m) {ns : String} (hn : NulFree ns) :
    (s.values.keys.filter fun q => Text.startsWith q (ns ++ String.singleton '\x00')).length = (m.keysOf ns).card := by
  rw [← List.countP_eq_length_filter, ← h.countP_keys hn]
  refine List.countP_congr fun q hq => ?_
  obtain ⟨ns', key, hn', rfl⟩ := h.qualified q hq
  rw [startsWith_qualifiedKey hn hn']

theorem survives_eq (ns : String) : survives ns = fun q => !(keyIn ns q).isSome := by
  funext q
  unfold survives keyIn
  cases Text.splitOnce '\x00' q with
  | none => rfl
  | some p => by_cases hp : p.1 = ns <;> simp [hp]

theorem Holds.cleared (h : Holds s m) {ns : String} (hn : NulFree ns) :
    s.values.keys.length - (retain (survives ns) s.values).keys.length = (m.keysOf ns).card := by
  rw [keys_retain, ← List.countP_eq_length_filter, ← h.countP_keys hn,
    List.length_eq_countP_add_countP (fun q => (keyIn ns q).isSome) (l := s.values.keys)]
  simp only [survives_eq, Bool.not_eq_true, Bool.decide_eq_false]
  omega

theorem Holds.put (h : Holds s m) {ns : String} (hn : NulFree ns) (key : String) (value : Value) (now : Clock) :
    Holds ⟨(s.values.erase (qualifiedKey ns key)).insert (qualifiedKey ns key) (makeRecord ns key value.json
      ((s.values.lookup (qualifiedKey ns key)).map fun v => (v, now.secs)) now.secs)⟩ (m.put (ns, key) value now) where
  qualified q hq := by
    rw [← AList.mem_keys, AList.mem_insert, AList.mem_erase] at hq
    rcases hq with rfl | ⟨-, hq⟩
    · exact ⟨ns, key, hn, rfl⟩
    · exact h.qualified q hq
  lookup ns' key' hn' := by
    by_cases hq : (ns', key') = (ns, key)
    · obtain ⟨rfl, rfl⟩ := Prod.mk.inj hq
      rw [AList.lookup_insert, h.lookup _ _ hn, Records.put, PartialMap.get_insert_self]
      cases m.get (ns', key') <;> rfl
    · -- another pair has another qualified key
      have hne : qualifiedKey ns' key' ≠ qualifiedKey ns key := fun he =>
        hq (Prod.ext_iff.2 (qualifiedKey_inj hn' hn he))
      rw [AList.lookup_insert_ne hne, AList.lookup_erase_ne hne, h.lookup _ _ hn', Records.put,
        PartialMap.get_insert_of_ne _ _ hq]

theorem Holds.remove (h : Holds s m) {ns : String} (hn : NulFree ns) (key : String) :
    Holds ⟨s.values.erase (qualifiedKey ns key)⟩ (m.erase (ns, key)) where
  qualified q hq := by
    rw [← AList.mem_keys, AList.mem_erase] at hq
    exact h.qualified q hq.2
  lookup ns' key' hn' := by
    by_cases hq : (ns', key') = (ns, key)
    · obtain ⟨rfl, rfl⟩ := Prod.mk.inj hq
      rw [AList.lookup_erase, PartialMap.get_erase_self]; rfl
    · have hne : qualifiedKey ns' key' ≠ qualifiedKey ns key := fun he =>
        hq (Prod.ext_iff.2 (qualifiedKey_inj hn' hn he))
      rw [AList.lookup_erase_ne hne, h.lookup _ _ hn', PartialMap.get_erase_of_ne _ hq]

theorem Holds.clear (h : Holds s m) (ns : String) :
    Holds ⟨retain (survives ns) s.values⟩ (m.clear ns) where
  qualified q hq := by
    rw [keys_retain] at hq
    exact h.qualified q (List.mem_filter.1 hq).1
  lookup ns' key' hn' := by
    have hk : survives ns (qualifiedKey ns' key') = decide (ns' ≠ ns) := by
      rw [survives, splitOnce_qualifiedKey hn']
    rw [lookup_retain, hk, h.lookup _ _ hn', Records.clear, PartialMap.get_eraseIf]
    by_cases hq : ns' = ns <;> simp [hq]

theorem call_invalid (s : MemoryStore) {c : Call} {e : StorageError} (h : c.validate = .error e) :
    s.call c = (.error e, s) := by
  cases c <;> simp only [Call.validate] at h <;>
    simp only [call, put, get, remove, keys, clearNamespace, countNamespace, h] <;> rfl

theorem simulates : Simulates call Records.call (fun c => NulFree c.ns) Holds := by
  intro s m c h hn
  cases hv : c.validate with
  | error e => simp only [call_invalid s hv, Records.call, hv]; exact ⟨trivial, h⟩
  | ok u =>
    simp only [Records.call, hv]
    cases c with
    | put ns key value now =>
      simp only [Call.validate] at hv
      simp only [call, put, hv]
      exact ⟨rfl, h.put hn key value now⟩
    | get ns key =>
      simp only [Call.validate] at hv
      refine ⟨?_, h⟩
      simp only [call, get, hv, h.lookup ns key hn]
      rfl
    | remove ns key =>
      simp only [Call.validate] at hv
      simp only [call, remove, hv, h.lookup ns key hn, Option.isSome_map]
      exact ⟨rfl, h.remove hn key⟩
    | keys ns =>
      simp only [Call.validate] at hv
      refine ⟨?_, h⟩
      simp only [call, keys, hv, Records.answer]
      rw [← sortKeys_eq_sort (nodup_keys s ns) (h.mem_keys hn)]
      rfl
    | clearNamespace ns =>
      simp only [Call.validate] at hv
      simp only [call, clearNamespace, hv, h.cleared (show NulFree ns from hn)]
      exact ⟨rfl, h.clear ns⟩
    | countNamespace ns =>
      simp only [Call.validate] at hv
      refine ⟨?_, h⟩
      simp only [call, countNamespace, hv, h.count (show NulFree ns from hn), Records.answer]
      rfl

end MemoryStore

/-! ## Agreement of the backends -/

/-- Both backends answer the calls as the abstract map does, and in the states they reach no call on
one admitted namespace changes the answer to a call on another. -/
structure Equivalent (admitted : String → Prop) (calls : List Call) : Prop where
  memory : results MemoryStore.call {} calls = results Records.call .empty calls
  sqlite : results SqliteStore.call {} calls = results Records.call .empty calls
  memoryIsolated : Isolated MemoryStore.call (fun c => admitted c.ns) (after MemoryStore.call {} calls)
  sqliteIsolated : Isolated SqliteStore.call (fun c => admitted c.ns) (after SqliteStore.call {} calls)

/-- Over calls whose namespaces are free of U+0000 the refinements give all four. -/
theorem Equivalent.of_nulFree {admitted : String → Prop} (hn : ∀ ns, admitted ns → NulFree ns) {calls : List Call}
    (h : ∀ c ∈ calls, admitted c.ns) : Equivalent admitted calls where
  memory := MemoryStore.simulates.results calls _ _ MemoryStore.Holds.init fun c hc => hn _ (h c hc)
  sqlite := SqliteStore.simulates.results calls _ _ SqliteStore.Holds.init fun _ _ => trivial
  memoryIsolated := by
    have hR := MemoryStore.simulates.after calls _ _ MemoryStore.Holds.init fun c hc => hn _ (h c hc)
    exact (Isolated.of_simulates MemoryStore.simulates hR).mono fun c hc => hn _ hc
  sqliteIsolated := by
    have hR := SqliteStore.simulates.after calls _ _ SqliteStore.Holds.init fun _ _ => trivial
    exact (Isolated.of_simulates SqliteStore.simulates hR).mono fun _ _ => trivial

/-- The null value. -/
def nullValue : Value := .ofCanon .null rfl (by decide) rfl

/-- `MemoryStore` does not list the keys of a namespace that contains the separator. -/
theorem MemoryStore.keyIn_eq_none {ns : String} (h : ¬ NulFree ns) (qualified : String) :
    keyIn ns qualified = none := by
  rw [Option.eq_none_iff_forall_ne_some]
  intro key hk
  unfold keyIn at hk
  obtain ⟨⟨a, b⟩, hs, hk⟩ := Option.bind_eq_some_iff.1 hk
  rw [Option.ite_none_right_eq_some] at hk
  obtain ⟨rfl, -⟩ := hk
  exact h (Text.splitOnce_some hs).2

/-- A namespace with the separator passes the check: the separator is not white space. -/
theorem validateNamespace_nul {ns : String} (h : ¬ NulFree ns) : validateNamespace ns = .ok () := by
  rw [validateNamespace, validateText, if_neg]
  intro hb
  have hw := Text.isBlank_iff.1 hb '\x00' (Classical.not_not.1 h)
  revert hw
  decide

/-- On a namespace with the separator the backends differ: after one write `MemoryStore` lists no key. -/
theorem nul_namespace_differs {ns : String} (h : ¬ NulFree ns) (value : Value) (now : Clock) :
    results MemoryStore.call {} [.put ns "k" value now, .keys ns] ≠
      results SqliteStore.call {} [.put ns "k" value now, .keys ns] := by
  intro heq
  have hv := validateNamespace_nul h
  have hkey : validateNamespaceAndKey ns "k" = .ok () := by
    rw [validateNamespaceAndKey, hv]
    decide
  have habs := SqliteStore.simulates.results [.put ns "k" value now, .keys ns] {} .empty SqliteStore.Holds.init
    fun _ _ => trivial
  have hmem : ∀ s : MemoryStore, s.keys ns = .ok [] := by
    intro s
    have hnone : s.values.keys.filterMap (MemoryStore.keyIn ns) = [] :=
      List.filterMap_eq_nil_iff.2 fun q _ => MemoryStore.keyIn_eq_none h q
    rw [MemoryStore.keys, hv, hnone, sortKeys, List.mergeSort_nil]
    rfl
  have hk : "k" ∈ (Records.put .empty (ns, "k") value now).keysOf ns := by
    rw [Records.mem_keysOf, Records.put, PartialMap.get_insert_self]
    rfl
  -- both give the answer to the second call
  rw [habs] at heq
  simp only [results, MemoryStore.call, Records.call, Call.validate, hkey, hv, hmem, Records.answer, List.cons.injEq,
    and_true] at heq
  have hlist : ([] : List String) = ((Records.put .empty (ns, "k") value now).keysOf ns).sort :=
    Reply.keys.inj (Except.ok.inj heq.2)
  rw [← Finset.mem_sort (· ≤ ·), ← hlist] at hk
  cases hk

/-- Every sequence of calls on the admitted namespaces finds the two backends and the abstract map
equivalent exactly when no admitted namespace contains U+0000. -/
theorem backends_agree_iff (admitted : String → Prop) :
    (∀ calls : List Call, (∀ c ∈ calls, admitted c.ns) → Equivalent admitted calls) ↔
      ∀ ns, admitted ns → NulFree ns := by
  constructor
  · intro h ns hns
    by_contra hn
    have hadm : ∀ c ∈ [Call.put ns "k" nullValue ⟨0, by decide⟩, .keys ns], admitted c.ns := by
      intro c hc
      rcases List.mem_pair.1 hc with rfl | rfl <;> exact hns
    have he := h _ hadm
    exact nul_namespace_differs hn nullValue _ (he.memory.trans he.sqlite.symm)
  · intro hn calls h
    exact .of_nulFree hn h

/-- Two pairs with one qualified key. -/
def collidingCalls : List Call := [.put "a\x00b" "c" nullValue ⟨7, by decide⟩, .get "a" "b\x00c"]

/-- Whether a call has found a record. -/
def foundRecord : Except StorageError Reply → Bool
  | .ok (.record (some _)) => true
  | _ => false

/-- `MemoryStore` gives the record of the first pair for the second one; the table has no such row. -/
theorem backends_differ : results MemoryStore.call {} collidingCalls ≠ results SqliteStore.call {} collidingCalls := by
  intro h
  have := congrArg (List.map foundRecord) h
  revert this
  decide

end NapCat.Storage
