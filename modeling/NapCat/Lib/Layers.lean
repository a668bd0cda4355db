/-
Settings by key, and layers of them: a layer sets some keys, and of several layers the first that sets a
key decides it.
-/
import Mathlib.Data.List.Basic
import Mathlib.Data.Option.Basic

namespace Layers

variable {K : Type} {V : K → Type}

/-- A layer: what it sets of each key. -/
abbrev Layer (V : K → Type) := (k : K) → Option (V k)

/-- Settings with a layer laid over them. -/
def overlay (base : (k : K) → V k) (l : Layer V) : (k : K) → V k := fun k => (l k).getD (base k)

/-- One layer laid over another. -/
def above (l m : Layer V) : Layer V := fun k => (l k).or (m k)

/-- What the first layer that sets a key sets it to. -/
def top (ls : List (Layer V)) : Layer V := fun k => ls.findSome? fun l => l k

theorem overlay_overlay (base : (k : K) → V k) (l m : Layer V) :
    overlay (overlay base m) l = overlay base (above l m) := by
  funext k
  cases h : l k <;> simp [overlay, above, h]

theorem top_cons (l : Layer V) (ls : List (Layer V)) : top (l :: ls) = above l (top ls) := by
  funext k
  cases h : l k <;> simp [top, above, h]

/-- Layers laid over settings one after the other, the last of the list first. -/
theorem foldr_overlay (base : (k : K) → V k) (ls : List (Layer V)) :
    ls.foldr (fun l b => overlay b l) base = overlay base (top ls) := by
  induction ls with
  | nil => rfl
  | cons l ls ih => rw [List.foldr_cons, ih, overlay_overlay, top_cons]

end Layers
