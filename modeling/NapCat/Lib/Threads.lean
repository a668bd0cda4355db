/-
Calls that run concurrently over shared state and interleave at their await points. A call is kept
as its program point, calls are numbered in the order they begin, and one event begins a call,
takes one step of one call, or is a step of the surroundings.
-/
import NapCat.Lib.Run
import Mathlib.Data.List.Basic

namespace Threads

variable {G P Op A E : Type}

/-- The shared state and the program points of the calls made so far. -/
structure Sys (G P : Type) where
  shared : G
  calls : List P := []

inductive Event (Op A E : Type)
  | start (op : Op)
  | act (i : Nat) (a : A)
  | env (e : E)

/-- What the first step of a call does, what a step from a program point does, and what the
surroundings do. -/
structure Program (G P Op A E : Type) where
  start : G → Op → Option (G × P)
  act : G → P → A → Option (G × P)
  env : G → E → Option G

def step (pr : Program G P Op A E) (s : Sys G P) : Event Op A E → Option (Sys G P)
  | .start op => (pr.start s.shared op).map fun r => ⟨r.1, s.calls ++ [r.2]⟩
  | .act i a => s.calls[i]?.bind fun p => (pr.act s.shared p a).map fun r => ⟨r.1, s.calls.set i r.2⟩
  | .env e => (pr.env s.shared e).map fun g => ⟨g, s.calls⟩

variable {pr : Program G P Op A E} {s s' : Sys G P}

theorem step_start {op : Op} (h : step pr s (.start op) = some s') :
    ∃ g p, pr.start s.shared op = some (g, p) ∧ s' = ⟨g, s.calls ++ [p]⟩ := by
  obtain ⟨⟨g, p⟩, hr, rfl⟩ := Option.map_eq_some_iff.1 h
  exact ⟨g, p, hr, rfl⟩

theorem step_act {i : Nat} {a : A} (h : step pr s (.act i a) = some s') :
    ∃ p g q, s.calls[i]? = some p ∧ pr.act s.shared p a = some (g, q) ∧ s' = ⟨g, s.calls.set i q⟩ := by
  obtain ⟨p, hp, h⟩ := Option.bind_eq_some_iff.1 h
  obtain ⟨⟨g, q⟩, hr, rfl⟩ := Option.map_eq_some_iff.1 h
  exact ⟨p, g, q, hp, hr, rfl⟩

theorem step_env {e : E} (h : step pr s (.env e) = some s') :
    ∃ g, pr.env s.shared e = some g ∧ s' = ⟨g, s.calls⟩ := by
  obtain ⟨g, hr, rfl⟩ := Option.map_eq_some_iff.1 h
  exact ⟨g, hr, rfl⟩

/-! ## The calls after a step -/

theorem mem_of_get {l : List P} {i : Nat} {p : P} (h : l[i]? = some p) : p ∈ l := List.mem_of_getElem? h

theorem forall_set {l : List P} {i : Nat} {q : P} {Q : P → Prop} (h : ∀ p ∈ l, Q p) (hq : Q q) :
    ∀ p ∈ l.set i q, Q p := by
  intro p hp
  rcases List.mem_or_eq_of_mem_set hp with hp | rfl
  · exact h p hp
  · exact hq

theorem forall_append {l : List P} {q : P} {Q : P → Prop} (h : ∀ p ∈ l, Q p) (hq : Q q) :
    ∀ p ∈ l ++ [q], Q p := by
  intro p hp
  rcases List.mem_append.1 hp with hp | hp
  · exact h p hp
  · rw [List.mem_singleton.1 hp]; exact hq

/-- A property that the stepping call does not lose is still met. -/
theorem exists_set_of_imp {l : List P} {i : Nat} {p q : P} {Q : P → Prop} (hi : l[i]? = some p) (hpq : Q p → Q q)
    (h : ∃ x ∈ l, Q x) : ∃ x ∈ l.set i q, Q x := by
  obtain ⟨x, hx, hQ⟩ := h
  obtain ⟨j, hj, rfl⟩ := List.getElem_of_mem hx
  by_cases hij : i = j
  · subst hij
    rw [List.getElem?_eq_getElem hj, Option.some.injEq] at hi
    exact ⟨q, List.mem_set hj q, hpq (hi ▸ hQ)⟩
  · exact ⟨l[j], List.mem_of_getElem? (by rw [List.getElem?_set_ne hij, List.getElem?_eq_getElem hj]), hQ⟩

/-- A call with a property the stepping call lacks is still there. -/
theorem exists_set {l : List P} {i : Nat} {p q : P} {Q : P → Prop} (hi : l[i]? = some p) (hp : ¬ Q p)
    (h : ∃ x ∈ l, Q x) : ∃ x ∈ l.set i q, Q x :=
  exists_set_of_imp hi (fun hQ => absurd hQ hp) h

theorem exists_append {l : List P} {q : P} {Q : P → Prop} (h : ∃ x ∈ l, Q x) : ∃ x ∈ l ++ [q], Q x := by
  obtain ⟨x, hx, hQ⟩ := h
  exact ⟨x, List.mem_append_left _ hx, hQ⟩

theorem mem_set_self {l : List P} {i : Nat} {p q : P} (hi : l[i]? = some p) : q ∈ l.set i q :=
  List.mem_set (List.getElem?_eq_some_iff.1 hi).1 q

theorem get_set {l : List P} {i j : Nat} {q r : P} (h : (l.set i q)[j]? = some r) :
    (j = i ∧ r = q) ∨ (j ≠ i ∧ l[j]? = some r) := by
  by_cases hj : j = i
  · subst hj
    rw [List.getElem?_set_self'] at h
    cases hl : l[j]? with
    | none => rw [hl] at h; cases h
    | some p => rw [hl] at h; cases h; exact .inl ⟨rfl, rfl⟩
  · rw [List.getElem?_set_ne (fun he => hj he.symm)] at h
    exact .inr ⟨hj, h⟩

theorem get_append {l : List P} {j : Nat} {q r : P} (h : (l ++ [q])[j]? = some r) :
    (j = l.length ∧ r = q) ∨ l[j]? = some r := by
  rw [List.getElem?_append] at h
  split at h
  · exact .inr h
  · rename_i hj
    have hk : j - l.length = 0 := by
      by_contra hk
      rw [List.getElem?_eq_none (by simp; omega)] at h
      cases h
    rw [hk] at h
    cases h
    exact .inl ⟨by omega, rfl⟩

/-! ## How many calls -/

theorem countP_set {l : List P} {i : Nat} {p : P} (Q : P → Bool) (q : P) (hi : l[i]? = some p) :
    (l.set i q).countP Q + (if Q p then 1 else 0) = l.countP Q + if Q q then 1 else 0 := by
  obtain ⟨hlt, rfl⟩ := List.getElem?_eq_some_iff.1 hi
  have hpos : Q l[i] = true → 0 < l.countP Q := fun hQ => List.countP_pos_iff.2 ⟨_, List.getElem_mem hlt, hQ⟩
  rw [List.countP_set hlt]
  split
  · have := hpos (by assumption)
    omega
  · omega

theorem countP_append_one (l : List P) (Q : P → Bool) (q : P) :
    (l ++ [q]).countP Q = l.countP Q + if Q q then 1 else 0 := by
  rw [List.countP_append, List.countP_singleton]

/-- No two calls have the property. -/
def AtMostOne (Q : P → Prop) (l : List P) : Prop :=
  ∀ (i j : Nat) (p q : P), l[i]? = some p → l[j]? = some q → Q p → Q q → i = j

theorem AtMostOne.set {Q : P → Prop} {l : List P} {i : Nat} {p q : P} (h : AtMostOne Q l) (hi : l[i]? = some p)
    (hpq : Q q → Q p) : AtMostOne Q (l.set i q) := by
  have old : ∀ (j : Nat) (r : P), (l.set i q)[j]? = some r → Q r → ∃ r', l[j]? = some r' ∧ Q r' := by
    intro j r hj hr
    rcases get_set hj with ⟨rfl, rfl⟩ | ⟨-, hj⟩
    · exact ⟨p, hi, hpq hr⟩
    · exact ⟨r, hj, hr⟩
  intro j k r r' hj hk hr hr'
  obtain ⟨x, hx, hQx⟩ := old j r hj hr
  obtain ⟨y, hy, hQy⟩ := old k r' hk hr'
  exact h j k x y hx hy hQx hQy

theorem AtMostOne.append {Q : P → Prop} {l : List P} {q : P} (h : AtMostOne Q l) (hq : Q q → ∀ p ∈ l, ¬ Q p) :
    AtMostOne Q (l ++ [q]) := by
  intro j k r r' hj hk hr hr'
  rcases get_append hj with ⟨hj', rfl⟩ | hj' <;> rcases get_append hk with ⟨hk', rfl⟩ | hk'
  · exact hj'.trans hk'.symm
  · exact absurd hr' (hq hr r' (mem_of_get hk'))
  · exact absurd hr (hq hr' r (mem_of_get hj'))
  · exact h j k r r' hj' hk' hr hr'

/-! ## One call along a run -/

/-- A call keeps, from step to step, what its own steps keep. -/
theorem follow_step {Q : P → Prop} {e : Event Op A E} {i : Nat}
    (hact : ∀ p a g g' q, e = .act i a → s.calls[i]? = some p → Q p → pr.act g p a = some (g', q) → Q q)
    (hs : step pr s e = some s') (h : ∃ p, s.calls[i]? = some p ∧ Q p) : ∃ p, s'.calls[i]? = some p ∧ Q p := by
  obtain ⟨p, hp, hQ⟩ := h
  have hlt := (List.getElem?_eq_some_iff.1 hp).1
  cases e with
  | start op =>
    obtain ⟨g, q, -, rfl⟩ := step_start hs
    exact ⟨p, (List.getElem?_append_left hlt).trans hp, hQ⟩
  | act j a =>
    obtain ⟨r, g, q, hj, ha, rfl⟩ := step_act hs
    by_cases hji : j = i
    · subst hji
      obtain rfl : p = r := Option.some.inj (hp.symm.trans hj)
      exact ⟨q, List.getElem?_set_self hlt, hact p a _ g q rfl hp hQ ha⟩
    · exact ⟨p, (List.getElem?_set_ne hji).trans hp, hQ⟩
  | env e =>
    obtain ⟨g, -, rfl⟩ := step_env hs
    exact ⟨p, hp, hQ⟩

/-! ## A call alone -/

/-- A step of a call while no other call takes one. -/
def alone (pr : Program G P Op A E) (s : G × P) (a : A) : Option (G × P) := pr.act s.1 s.2 a

theorem step_last (g : G) (calls : List P) (p : P) (a : A) :
    step pr ⟨g, calls ++ [p]⟩ (.act calls.length a) = (pr.act g p a).map fun r => ⟨r.1, calls ++ [r.2]⟩ := by
  simp [step]

/-- The steps of a call alone are a run of the system, in which the other calls stay where they are. -/
theorem exec_alone (calls : List P) : ∀ (as : List A) (s s' : G × P), Run.exec (alone pr) s as = some s' →
    Run.exec (step pr) ⟨s.1, calls ++ [s.2]⟩ (as.map (.act calls.length)) = some ⟨s'.1, calls ++ [s'.2]⟩
  | [], s, s', h => by
    cases h
    rfl
  | a :: as, s, s', h => by
    obtain ⟨m, hm, h⟩ := Option.bind_eq_some_iff.1 h
    have hm : pr.act s.1 s.2 a = some m := hm
    rw [List.map_cons, Run.exec_cons, step_last, hm]
    exact exec_alone calls as m s' h

end Threads
