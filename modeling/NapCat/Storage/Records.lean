/-
The abstract store: a finite partial map from (namespace, key) pairs to entries. This is what the
`Storage` trait promises; the two backends are compared with it.
-/
import NapCat.Storage.Basic

namespace NapCat.Storage

open Machine

/-- What is stored under a pair. -/
structure Entry where
  value : Value
  createdAt : Clock
  updatedAt : Clock

def Entry.record (e : Entry) (p : String × String) : StoredRecord :=
  ⟨p.1, p.2, e.value.json, e.createdAt.secs, e.updatedAt.secs⟩

abbrev Records := PartialMap (String × String) Entry

namespace Records

/-- The keys of one namespace. -/
def keysOf (m : Records) (ns : String) : Finset String := (m.dom.filter fun p => p.1 = ns).image Prod.snd

theorem mem_keysOf (m : Records) (ns k : String) : k ∈ m.keysOf ns ↔ (m.get (ns, k)).isSome := by
  rw [← m.mem_dom, keysOf, Finset.mem_image]
  constructor
  · rintro ⟨⟨a, b⟩, hp, rfl⟩
    obtain ⟨hm, rfl⟩ := Finset.mem_filter.1 hp
    exact hm
  · intro h
    exact ⟨(ns, k), Finset.mem_filter.2 ⟨h, rfl⟩, rfl⟩

/-- The first write of a pair sets both times, a later one only the second. -/
def put (m : Records) (p : String × String) (value : Value) (now : Clock) : Records :=
  m.insert p ⟨value, ((m.get p).map Entry.createdAt).getD now, now⟩

def clear (m : Records) (ns : String) : Records := m.eraseIf fun p => p.1 = ns

/-- The answer to an admissible call, and the map after it. -/
def answer (m : Records) : Call → Reply × Records
  | .put ns key value now => (.unit, m.put (ns, key) value now)
  | .get ns key => (.record ((m.get (ns, key)).map fun e => e.record (ns, key)), m)
  | .remove ns key => (.removed (m.get (ns, key)).isSome, m.erase (ns, key))
  | .keys ns => (.keys (m.keysOf ns).sort, m)
  | .clearNamespace ns => (.count (m.keysOf ns).card, m.clear ns)
  | .countNamespace ns => (.count (m.keysOf ns).card, m)

/-- A call that fails the check changes nothing. -/
def call (m : Records) (c : Call) : Except StorageError Reply × Records :=
  match c.validate with
  | .error e => (.error e, m)
  | .ok () => (.ok (m.answer c).1, (m.answer c).2)

/-! ## Namespaces do not interfere -/

/-- The two maps hold the same entries under the namespace. -/
def AgreeOn (ns : String) (m m' : Records) : Prop := ∀ k, m.get (ns, k) = m'.get (ns, k)

theorem AgreeOn.keysOf {ns : String} {m m' : Records} (h : AgreeOn ns m m') : m.keysOf ns = m'.keysOf ns := by
  ext k; rw [mem_keysOf, mem_keysOf, h k]

/-- The answer to a call depends on its own namespace only. -/
theorem answer_congr {m m' : Records} {c : Call} (h : AgreeOn c.ns m m') : (m.answer c).1 = (m'.answer c).1 := by
  cases c with
  | put ns key value now => rfl
  | get ns key => simp only [answer, show m.get (ns, key) = m'.get (ns, key) from h key]
  | remove ns key => simp only [answer, show m.get (ns, key) = m'.get (ns, key) from h key]
  | keys ns => simp only [answer, show m.keysOf ns = m'.keysOf ns from h.keysOf]
  | clearNamespace ns => simp only [answer, show m.keysOf ns = m'.keysOf ns from h.keysOf]
  | countNamespace ns => simp only [answer, show m.keysOf ns = m'.keysOf ns from h.keysOf]

/-- A call leaves every other namespace as it was. -/
theorem answer_frame (m : Records) (c : Call) {ns : String} (h : c.ns ≠ ns) : AgreeOn ns (m.answer c).2 m := by
  intro k
  cases c with
  | put ns' key value now => exact m.get_insert_of_ne _ fun he => h (Prod.mk.inj he).1.symm
  | remove ns' key => exact m.get_erase_of_ne fun he => h (Prod.mk.inj he).1.symm
  | clearNamespace ns' =>
    show (m.clear ns').get (ns, k) = _
    rw [clear, PartialMap.get_eraseIf, if_neg]
    exact fun he => h (of_decide_eq_true he).symm
  | get ns' key => rfl
  | keys ns' => rfl
  | countNamespace ns' => rfl

theorem call_congr {m m' : Records} {c : Call} (h : AgreeOn c.ns m m') : (m.call c).1 = (m'.call c).1 := by
  unfold call
  cases c.validate with
  | error e => rfl
  | ok u => simp only [answer_congr h]

theorem call_frame (m : Records) (c : Call) {ns : String} (h : c.ns ≠ ns) : AgreeOn ns (m.call c).2 m := by
  unfold call
  cases c.validate with
  | error e => exact fun _ => rfl
  | ok u => exact answer_frame m c h

end Records

/-- No call on one namespace changes the answer to a call on another. -/
def Isolated {S : Type} (call : S → Call → Except StorageError Reply × S) (C : Call → Prop) (s : S) : Prop :=
  ∀ c c' : Call, C c → C c' → c.ns ≠ c'.ns → (call (call s c).2 c').1 = (call s c').1

theorem Isolated.mono {S : Type} {call : S → Call → Except StorageError Reply × S} {C C' : Call → Prop} {s : S}
    (h : Isolated call C s) (hC : ∀ c, C' c → C c) : Isolated call C' s :=
  fun c c' hc hc' hne => h c c' (hC c hc) (hC c' hc') hne

theorem Records.isolated (m : Records) (C : Call → Prop) : Isolated Records.call C m :=
  fun c _ _ _ h => call_congr (call_frame m c h)

/-- A machine that simulates the abstract store inherits the isolation. -/
theorem Isolated.of_simulates {S : Type} {call : S → Call → Except StorageError Reply × S} {C : Call → Prop}
    {R : S → Records → Prop} (h : Simulates call Records.call C R) {s : S} {m : Records} (hR : R s m) :
    Isolated call C s := by
  intro c c' hc hc' hne
  obtain ⟨-, hR'⟩ := h s m c hR hc
  rw [(h _ _ c' hR' hc').1, (h s m c' hR hc').1]
  exact m.isolated C c c' hc hc' hne

end NapCat.Storage
