/-
A reader of a broadcast channel with its accounts: what it has taken since it subscribed, and how many values it was
told it has missed. What it has taken is in order a part of what was sent since then, and nothing is unaccounted for.
-/
import NapCat.Lib.Broadcast

namespace Broadcast

variable {α : Type}

/-- A receiver, the position at which it subscribed, the values it has taken and the number it has missed. -/
structure Reader (α : Type) where
  start : Nat
  next : Nat
  taken : List α := []
  missed : Nat := 0
  deriving DecidableEq

namespace Reader

/-- A subscription: it sees what is sent from now on. -/
def subscribe (log : List α) : Reader α where
  start := log.length
  next := log.length

/-- A poll that finds something. -/
def poll (r : Reader α) (cap : Nat) (log : List α) (senders : Bool) : Option (Reader α) :=
  match recv cap log senders r.next with
  | (.value a, next) => some { r with next := next, taken := r.taken ++ [a] }
  | (.lagged missed, next) => some { r with next := next, missed := r.missed + missed }
  | (.closed, _) => some r
  | (.pending, _) => none

/-- The accounts of a reader. -/
structure Ok (log : List α) (r : Reader α) : Prop where
  start_le : r.start ≤ r.next
  next_le : r.next ≤ log.length
  taken : r.taken.Sublist ((log.take r.next).drop r.start)
  count : r.taken.length + r.missed = r.next - r.start

variable {log : List α} {r r' : Reader α} {cap : Nat} {senders : Bool}

theorem Ok.subscribe (log : List α) : Ok log (Reader.subscribe log) where
  start_le := Nat.le_refl _
  next_le := Nat.le_refl _
  taken := List.nil_sublist _
  count := by
    show 0 + 0 = log.length - log.length
    omega

theorem Ok.send (h : Ok log r) (a : α) : Ok (log ++ [a]) r where
  start_le := h.start_le
  next_le := by
    have := h.next_le
    rw [List.length_append, List.length_singleton]
    omega
  taken := by
    rw [List.take_append_of_le_length h.next_le]
    exact h.taken
  count := h.count

/-- What lies between two positions goes on with the value at the second one. -/
theorem window_succ {a : α} {i j : Nat} (hij : i ≤ j) (ha : log[j]? = some a) :
    (log.take (j + 1)).drop i = (log.take j).drop i ++ [a] := by
  have hj : j < log.length := (List.getElem?_eq_some_iff.1 ha).1
  rw [List.take_add_one, ha, Option.toList_some, List.drop_append_of_le_length]
  rw [List.length_take]
  omega

theorem window_mono (log : List α) (i : Nat) {j k : Nat} (hjk : j ≤ k) :
    ((log.take j).drop i).Sublist ((log.take k).drop i) := by
  apply List.Sublist.drop
  have : log.take j = (log.take k).take j := by rw [List.take_take, Nat.min_eq_left hjk]
  rw [this]
  exact List.take_sublist _ _

/-- What a poll does to the position. -/
theorem poll_cases (hs : r.poll cap log senders = some r') :
    (∃ a, log[r.next]? = some a ∧ r' = { r with next := r.next + 1, taken := r.taken ++ [a] }) ∨
    (cap < backlog log r.next ∧
      r' = { r with next := log.length - cap, missed := r.missed + (backlog log r.next - cap) }) ∨ r' = r := by
  unfold poll at hs
  rcases recv_cases cap log senders r.next with ⟨hlag, he⟩ | ⟨a, ha, he⟩ | ⟨-, -, he⟩ | ⟨-, -, he⟩
  · rw [he] at hs
    exact .inr (.inl ⟨hlag, (Option.some.inj hs).symm⟩)
  · rw [he] at hs
    exact .inl ⟨a, ha, (Option.some.inj hs).symm⟩
  · rw [he] at hs
    cases hs
  · rw [he] at hs
    exact .inr (.inr (Option.some.inj hs).symm)

theorem Ok.poll (h : Ok log r) (hs : r.poll cap log senders = some r') : Ok log r' := by
  obtain ⟨hstart, hnext, htaken, hcount⟩ := h
  rcases poll_cases hs with ⟨a, ha, rfl⟩ | ⟨hlag, rfl⟩ | rfl
  · have hlt : r.next < log.length := (List.getElem?_eq_some_iff.1 ha).1
    refine ⟨Nat.le_succ_of_le hstart, hlt, ?_, ?_⟩
    · rw [window_succ hstart ha]
      exact htaken.append (List.Sublist.refl _)
    · simp only [List.length_append, List.length_singleton]
      omega
  · simp only [backlog] at hlag ⊢
    have hle : r.next ≤ log.length - cap := by omega
    refine ⟨Nat.le_trans hstart hle, Nat.sub_le _ _, ?_, ?_⟩
    · exact htaken.trans (window_mono log r.start hle)
    · show r.taken.length + (r.missed + (log.length - r.next - cap)) = log.length - cap - r.start
      omega
  · exact ⟨hstart, hnext, htaken, hcount⟩

/-- A reader that has missed nothing has taken everything. -/
theorem Ok.complete (h : Ok log r) (hmissed : r.missed = 0) : r.taken = (log.take r.next).drop r.start := by
  apply h.taken.eq_of_length
  have hcount := h.count
  have hnext := h.next_le
  rw [List.length_drop, List.length_take]
  omega

end Reader

end Broadcast
