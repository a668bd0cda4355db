/-
A bounded broadcast channel: everything sent is a log, a receiver is a position in it that starts at
the end of the log when it subscribes. A receiver more than the capacity behind is told once that it
has lagged and goes on with the oldest value kept; it sees the channel closed when every sender is
gone and the log is used up.
-/
import Mathlib.Data.List.Basic

namespace Broadcast

variable {α : Type}

/-- What a poll of a receiver finds. -/
inductive Recv (α : Type)
  | value (a : α)
  | lagged (missed : Nat)
  | closed
  | pending
  deriving DecidableEq

/-- How many values a receiver is behind. -/
def backlog (log : List α) (next : Nat) : Nat := log.length - next

/-- What a poll finds and the position after it. -/
def recv (cap : Nat) (log : List α) (senders : Bool) (next : Nat) : Recv α × Nat :=
  -- a lag is told once: the position moves to the oldest value kept
  if cap < backlog log next then (.lagged (backlog log next - cap), log.length - cap)
  else match log[next]? with
    | some a => (.value a, next + 1)
    | none => (if senders then .pending else .closed, next)

variable {cap : Nat} {log : List α} {senders : Bool} {next : Nat}

theorem backlog_append (log : List α) (a : α) {next : Nat} (h : next ≤ log.length) :
    backlog (log ++ [a]) next = backlog log next + 1 := by
  simp only [backlog, List.length_append, List.length_singleton]
  omega

/-- What a poll can find, and when. -/
theorem recv_cases (cap : Nat) (log : List α) (senders : Bool) (next : Nat) :
    (cap < backlog log next ∧ recv cap log senders next = (.lagged (backlog log next - cap), log.length - cap)) ∨
    (∃ a, log[next]? = some a ∧ recv cap log senders next = (.value a, next + 1)) ∨
    (log.length ≤ next ∧ senders = true ∧ recv cap log senders next = (.pending, next)) ∨
    (log.length ≤ next ∧ senders = false ∧ recv cap log senders next = (.closed, next)) := by
  unfold recv
  split
  · rename_i hlag
    exact .inl ⟨hlag, rfl⟩
  · right
    cases hl : log[next]? with
    | some a => exact .inl ⟨a, rfl, rfl⟩
    | none =>
      have hle : log.length ≤ next := List.getElem?_eq_none_iff.1 hl
      cases senders with
      | true => exact .inr (.inl ⟨hle, rfl, rfl⟩)
      | false => exact .inr (.inr ⟨hle, rfl, rfl⟩)

theorem recv_value {a : α} {n : Nat} (h : recv cap log senders next = (.value a, n)) :
    log[next]? = some a ∧ n = next + 1 ∧ next < log.length := by
  rcases recv_cases cap log senders next with ⟨-, he⟩ | ⟨b, hb, he⟩ | ⟨-, -, he⟩ | ⟨-, -, he⟩ <;> cases he.symm.trans h
  exact ⟨hb, rfl, (List.getElem?_eq_some_iff.1 hb).1⟩

theorem recv_lagged {k n : Nat} (h : recv cap log senders next = (.lagged k, n)) : cap < backlog log next := by
  rcases recv_cases cap log senders next with ⟨hlag, he⟩ | ⟨b, -, he⟩ | ⟨-, -, he⟩ | ⟨-, -, he⟩ <;>
    cases he.symm.trans h
  exact hlag

/-- A receiver sees the end of the channel only when every sender is gone. -/
theorem recv_closed {n : Nat} (h : recv cap log senders next = (.closed, n)) : senders = false := by
  rcases recv_cases cap log senders next with ⟨-, he⟩ | ⟨b, -, he⟩ | ⟨-, -, he⟩ | ⟨-, hs, he⟩ <;>
    cases he.symm.trans h
  exact hs

/-- And only when it has used up the log. -/
theorem recv_closed_le {n : Nat} (h : recv cap log senders next = (.closed, n)) : log.length ≤ next := by
  rcases recv_cases cap log senders next with ⟨-, he⟩ | ⟨b, -, he⟩ | ⟨-, -, he⟩ | ⟨hle, -, he⟩ <;>
    cases he.symm.trans h
  exact hle

theorem recv_pending {n : Nat} (h : recv cap log senders next = (.pending, n)) :
    log.length ≤ next ∧ n = next := by
  rcases recv_cases cap log senders next with ⟨-, he⟩ | ⟨b, -, he⟩ | ⟨hle, -, he⟩ | ⟨-, -, he⟩ <;>
    cases he.symm.trans h
  exact ⟨hle, rfl⟩

end Broadcast
