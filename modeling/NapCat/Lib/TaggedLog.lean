/-
A log that several writers share: each entry is tagged with the number of its writer, and writers are
numbered in the order they appear. `Ends` says that a writer is closed exactly by its last value.
-/
import NapCat.Lib.Threads

namespace TaggedLog

variable {α W : Type}

/-- What one writer has written. -/
def sentBy (t : Nat) (log : List (Nat × α)) : List α := (log.filter fun p => p.1 = t).map Prod.snd

/-- The log after writer `t` has written some more. -/
def write (log : List (Nat × α)) (t : Nat) (values : List α) : List (Nat × α) := log ++ values.map (t, ·)

theorem sentBy_write (log : List (Nat × α)) (t : Nat) (values : List α) :
    sentBy t (write log t values) = sentBy t log ++ values := by
  have hnew : (values.map (t, ·)).filter (fun p => p.1 = t) = values.map (t, ·) := by
    rw [List.filter_eq_self]
    intro p hp
    obtain ⟨v, -, rfl⟩ := List.mem_map.1 hp
    exact decide_eq_true rfl
  rw [sentBy, write, List.filter_append, List.map_append, hnew, List.map_map]
  exact congrArg _ (List.map_id values)

theorem sentBy_write_of_ne (log : List (Nat × α)) {t u : Nat} (values : List α) (h : u ≠ t) :
    sentBy u (write log t values) = sentBy u log := by
  have hnew : (values.map (t, ·)).filter (fun p => p.1 = u) = [] := by
    rw [List.filter_eq_nil_iff]
    intro p hp
    obtain ⟨v, -, rfl⟩ := List.mem_map.1 hp
    simpa using fun he => h he.symm
  rw [sentBy, write, List.filter_append, hnew, List.append_nil]
  rfl

/-- The value stands at the end and nowhere else. -/
def EndsWith (last : α) (values : List α) : Prop := ∃ before, values = before ++ [last] ∧ last ∉ before

/-- A writer has written `last` exactly when it is closed, and nothing after it. -/
structure Ends (last : α) (closed : W → Bool) (writers : List W) (log : List (Nat × α)) : Prop where
  known : ∀ p ∈ log, p.1 < writers.length
  running : ∀ (t : Nat) (w : W), writers[t]? = some w → closed w = false → last ∉ sentBy t log
  closed : ∀ (t : Nat) (w : W), writers[t]? = some w → closed w = true → EndsWith last (sentBy t log)

namespace Ends

variable {last : α} {closed : W → Bool} {writers : List W} {log : List (Nat × α)} {t : Nat} {w w' : W}

theorem nil : Ends last closed [] ([] : List (Nat × α)) :=
  ⟨fun p hp => (by cases hp), fun t w hw => (by cases hw), fun t w hw => (by cases hw)⟩

/-- A new writer has written nothing. -/
theorem append (h : Ends last closed writers log) (hw : closed w = false) :
    Ends last closed (writers ++ [w]) log := by
  have hnone : sentBy writers.length log = [] := by
    have hf : log.filter (fun p => p.1 = writers.length) = [] := by
      rw [List.filter_eq_nil_iff]
      intro p hp
      simpa using Nat.ne_of_lt (h.known p hp)
    rw [sentBy, hf]
    rfl
  refine ⟨fun p hp => ?_, fun t x hx hc => ?_, fun t x hx hc => ?_⟩
  · rw [List.length_append]
    exact Nat.lt_add_right _ (h.known p hp)
  · rcases Threads.get_append hx with ⟨rfl, -⟩ | hx
    · rw [hnone]
      exact List.not_mem_nil
    · exact h.running t x hx hc
  · rcases Threads.get_append hx with ⟨-, rfl⟩ | hx
    · rw [hw] at hc; cases hc
    · exact h.closed t x hx hc

/-- A step of one writer: what it has written after the step fits what it is then. -/
theorem step (h : Ends last closed writers log) (hw : writers[t]? = some w) (values : List α)
    (hrun : closed w' = false → last ∉ sentBy t log ++ values)
    (hend : closed w' = true → EndsWith last (sentBy t log ++ values)) :
    Ends last closed (writers.set t w') (write log t values) := by
  refine ⟨fun p hp => ?_, fun u x hx hc => ?_, fun u x hx hc => ?_⟩
  · rw [List.length_set]
    rcases List.mem_append.1 hp with hp | hp
    · exact h.known p hp
    · obtain ⟨v, -, rfl⟩ := List.mem_map.1 hp
      exact (List.getElem?_eq_some_iff.1 hw).1
  · rcases Threads.get_set hx with ⟨rfl, rfl⟩ | ⟨hne, hx⟩
    · rw [sentBy_write]
      exact hrun hc
    · rw [sentBy_write_of_ne _ _ hne]
      exact h.running u x hx hc
  · rcases Threads.get_set hx with ⟨rfl, rfl⟩ | ⟨hne, hx⟩
    · rw [sentBy_write]
      exact hend hc
    · rw [sentBy_write_of_ne _ _ hne]
      exact h.closed u x hx hc

/-- A running writer goes on. -/
theorem goOn (h : Ends last closed writers log) (hw : writers[t]? = some w) (hc : closed w = false)
    (hc' : closed w' = false) {values : List α} (hv : last ∉ values) :
    Ends last closed (writers.set t w') (write log t values) := by
  refine h.step hw values (fun _ => ?_) fun he => by rw [hc'] at he; cases he
  rw [List.mem_append, not_or]
  exact ⟨h.running t w hw hc, hv⟩

/-- A running writer writes its last value and is closed. -/
theorem close (h : Ends last closed writers log) (hw : writers[t]? = some w) (hc : closed w = false)
    (hc' : closed w' = true) {values : List α} (hv : last ∉ values) :
    Ends last closed (writers.set t w') (write log t (values ++ [last])) := by
  refine h.step hw _ (fun he => by rw [hc'] at he; cases he) fun _ => ?_
  refine ⟨sentBy t log ++ values, (List.append_assoc ..).symm, ?_⟩
  rw [List.mem_append, not_or]
  exact ⟨h.running t w hw hc, hv⟩

/-- A writer that is neither opened nor closed by a step without a value. -/
theorem stay (h : Ends last closed writers log) (hw : writers[t]? = some w) (hc : closed w' = closed w) :
    Ends last closed (writers.set t w') log := by
  have hstep : Ends last closed (writers.set t w') (write log t []) := by
    refine h.step hw [] (fun he => ?_) fun he => ?_
    · rw [List.append_nil]
      exact h.running t w hw (hc ▸ he)
    · rw [List.append_nil]
      exact h.closed t w hw (hc ▸ he)
  rwa [write, List.map_nil, List.append_nil] at hstep

end Ends

end TaggedLog
