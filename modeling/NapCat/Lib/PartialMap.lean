/-
Partial maps with a finite domain: the abstract view of a keyed store. The domain is a field that
the lookup function agrees with, so that keys can be listed and counted.
-/
import Mathlib.Data.Finset.Sort
import Mathlib.Logic.Function.Basic

/-- A partial map whose domain is a finite set. -/
structure PartialMap (K V : Type) where
  get : K → Option V
  dom : Finset K
  mem_dom : ∀ k, k ∈ dom ↔ (get k).isSome

namespace PartialMap

variable {K V : Type}

def empty : PartialMap K V := ⟨fun _ => none, ∅, by simp⟩

/-- Drop the keys that satisfy `p`. -/
def eraseIf (m : PartialMap K V) (p : K → Bool) : PartialMap K V where
  get k := if p k then none else m.get k
  dom := m.dom.filter fun k => p k = false
  mem_dom k := by
    cases h : p k <;> simp [h, m.mem_dom]

theorem get_eraseIf (m : PartialMap K V) (p : K → Bool) (k : K) :
    (m.eraseIf p).get k = if p k then none else m.get k := rfl

variable [DecidableEq K]

def insert (m : PartialMap K V) (k : K) (v : V) : PartialMap K V where
  get := Function.update m.get k (some v)
  dom := Insert.insert k m.dom
  mem_dom l := by
    by_cases h : l = k
    · subst h; simp
    · simp [h, m.mem_dom]

def erase (m : PartialMap K V) (k : K) : PartialMap K V := m.eraseIf (· = k)

@[simp] theorem get_insert_self (m : PartialMap K V) (k : K) (v : V) : (m.insert k v).get k = some v :=
  Function.update_self ..

theorem get_insert_of_ne (m : PartialMap K V) {k l : K} (v : V) (h : l ≠ k) : (m.insert k v).get l = m.get l :=
  Function.update_of_ne h ..

@[simp] theorem get_erase_self (m : PartialMap K V) (k : K) : (m.erase k).get k = none := by
  simp [erase, get_eraseIf]

theorem get_erase_of_ne (m : PartialMap K V) {k l : K} (h : l ≠ k) : (m.erase k).get l = m.get l := by
  simp [erase, get_eraseIf, h]

end PartialMap
