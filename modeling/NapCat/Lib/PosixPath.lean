/-
Paths as bytes. Two paths are the same when they have the same components: repeated separators and `.`
do not count, but for a `.` at the front of a relative path.
-/
import Mathlib.Data.List.Basic

namespace PosixPath

abbrev Path := List UInt8

def sep : UInt8 := 0x2F

def dot : Path := [0x2E]

def isAbsolute (p : Path) : Bool := p.head? = some sep

def names (p : Path) : List Path := (p.splitOn sep).filter fun c => c ≠ [] ∧ c ≠ dot

/-- What `Path::components` lists: a root, a `.` at the front, and the names. -/
structure Components where
  root : Bool
  here : Bool
  names : List Path
  deriving DecidableEq

def components (p : Path) : Components where
  root := isAbsolute p
  here := !isAbsolute p && (p.splitOn sep).head? = some dot
  names := names p

/-- `Path::parent`: none for a root and for no component at all. -/
def Components.parent (c : Components) : Option Components :=
  if c.names ≠ [] then some { c with names := c.names.dropLast }
  else if c.here then some { c with here := false }
  else none

/-- `Path::join`: an absolute path takes the place of the base. -/
def join (base p : Path) : Path :=
  if isAbsolute p then p
  else if base = [] ∨ base.getLast? = some sep then base ++ p
  else base ++ sep :: p

/-- An absolute path. -/
structure AbsPath where
  path : Path
  absolute : isAbsolute path = true

theorem isAbsolute_iff {p : Path} : isAbsolute p = true ↔ ∃ q, p = sep :: q := by
  rw [isAbsolute, decide_eq_true_iff, List.head?_eq_some_iff]

@[simp] theorem names_nil : names [] = [] := by simp [names]

/-- A separator ends a name. -/
theorem names_append_sep (p q : Path) : names (p ++ sep :: q) = names p ++ names q := by
  rw [names, List.splitOn_append_cons_self, List.filter_append]
  rfl

@[simp] theorem names_sep_cons (q : Path) : names (sep :: q) = names q := by
  rw [← List.nil_append (sep :: q), names_append_sep, names_nil, List.nil_append]

theorem components_of_isAbsolute {p : Path} (h : isAbsolute p = true) : components p = ⟨true, false, names p⟩ := by
  rw [components, h, Bool.not_true, Bool.false_and]

theorem isAbsolute_join (base : AbsPath) (p : Path) : isAbsolute (join base.path p) = true := by
  obtain ⟨b, hb⟩ := isAbsolute_iff.1 base.absolute
  unfold join
  split
  · assumption
  · split
    · rw [hb]; rfl
    · rw [hb]; rfl

/-- A relative path is read from its base on. -/
theorem names_join (base : AbsPath) {p : Path} (h : isAbsolute p = false) :
    names (join base.path p) = names base.path ++ names p := by
  obtain ⟨b, hb⟩ := isAbsolute_iff.1 base.absolute
  have hne : base.path ≠ [] := by rw [hb]; exact List.cons_ne_nil _ _
  rw [join, if_neg (Bool.eq_false_iff.1 h)]
  split
  · rename_i hl
    obtain ⟨front, hf⟩ := List.getLast?_eq_some_iff.1 (hl.resolve_left hne)
    rw [hf, List.append_assoc, List.singleton_append, names_append_sep, names_append_sep, names_nil, List.append_nil]
  · rw [names_append_sep]

end PosixPath
