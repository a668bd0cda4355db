/-
The line of a bounded channel. A send that is not given up is served in its turn: nothing sets it back, every value the
receiver takes moves it up, and while it waits there is always a step that moves the channel on.
-/
import NapCat.Lib.BoundedQueue

namespace BoundedQueue

open Run

variable {α : Type} {capacity spare : Nat} {s s' : Chan α}

/-- A send that has its permit, and may have used it. -/
def Served (s : Chan α) (i : Nat) : Prop :=
  ∃ v, s.sends[i]? = some ⟨v, .granted⟩ ∨ s.sends[i]? = some ⟨v, .sent⟩

/-- Where a permit comes free, everyone in line moves up by one. -/
theorem release_line (hwait : ∀ j ∈ s.line, ∃ v, s.sends[j]? = some ⟨v, .waiting⟩) {i : Nat} (hi : i ∈ s.line) :
    Served (release s) i ∨ (i ∈ (release s).line ∧ (release s).line.idxOf i + 1 ≤ s.line.idxOf i) := by
  unfold release
  split
  · rename_i hline
    rw [hline] at hi
    cases hi
  · rename_i j rest hline
    obtain ⟨v, hj⟩ := hwait j (by rw [hline]; exact List.mem_cons_self)
    rw [hline] at hi
    by_cases hij : i = j
    · subst hij
      refine .inl ⟨v, .inl ?_⟩
      rw [setPc_eq (s := { s with line := rest }) hj]
      exact List.getElem?_set_self (List.getElem?_eq_some_iff.1 hj).1
    · refine .inr ⟨(List.mem_cons.1 hi).resolve_left hij, ?_⟩
      rw [hline, List.idxOf_cons_ne _ (fun he => hij he.symm)]
      exact Nat.le_refl _

theorem served_setPc {i j : Nat} {pc : Pc} (hj : i ≠ j) : Served (setPc s j pc) i ↔ Served s i := by
  have hget : (s.sends.modify j fun x => { x with pc := pc })[i]? = s.sends[i]? :=
    List.getElem?_modify_ne _ _ fun he => hj he.symm
  simp only [Served, setPc, hget]

theorem Inv.not_waiting (h : Inv capacity spare s) {i : Nat} (hi : Served s i) : i ∉ s.line := by
  obtain ⟨v, hv | hv⟩ := hi <;> exact h.not_in_line hv nofun

theorem release_served {i : Nat} (hi : Served s i) (hnot : i ∉ s.line) : Served (release s) i := by
  unfold release
  split
  · exact hi
  · rename_i j rest hline
    refine (served_setPc fun hij => hnot ?_).2 hi
    rw [hline, hij]
    exact List.mem_cons_self

/-- A send that is not given up keeps its permit. -/
theorem Inv.step_served (h : Inv capacity 0 s) {e : Event α} {i : Nat} (hi : Served s i) (he : e ≠ .giveUp i)
    (hs : step s e = some s') : Served s' i := by
  have hnot : i ∉ s.line := h.not_waiting hi
  cases e with
  | start value =>
    cases hs
    obtain ⟨v, hv⟩ := hi
    have hlt : i < s.sends.length := by
      rcases hv with hv | hv <;> exact (List.getElem?_eq_some_iff.1 hv).1
    refine ⟨v, ?_⟩
    unfold BoundedQueue.start
    split <;> rwa [List.getElem?_append_left hlt]
  | put j =>
    obtain ⟨v, hj, rfl⟩ := step_put hs
    by_cases hij : i = j
    · subst hij
      refine ⟨v, .inr ?_⟩
      rw [setPc_eq (s := { s with queue := s.queue ++ [(i, v)] }) hj]
      exact List.getElem?_set_self (List.getElem?_eq_some_iff.1 hj).1
    · exact (served_setPc hij).2 hi
  | giveUp j =>
    have hij : i ≠ j := fun hij => he (hij ▸ rfl)
    rcases step_giveUp hs with ⟨v, -, rfl⟩ | ⟨v, -, rfl⟩
    · exact (served_setPc hij).2 hi
    · exact release_served ((served_setPc hij).2 hi) hnot
  | recv =>
    obtain ⟨e, rest, -, rfl⟩ := step_recv hs
    exact release_served hi hnot

theorem idxOf_erase_le {i j : Nat} (hij : i ≠ j) : ∀ l : List Nat, (l.erase j).idxOf i ≤ l.idxOf i
  | [] => Nat.le_refl _
  | k :: l => by
    by_cases hk : k = j
    · subst hk
      rw [List.erase_cons_head, List.idxOf_cons_ne _ hij.symm]
      exact Nat.le_succ _
    · rw [List.erase_cons_tail (by simpa using hk)]
      by_cases hki : k = i
      · subst hki
        rw [List.idxOf_cons_self]
        exact Nat.zero_le _
      · rw [List.idxOf_cons_ne _ hki, List.idxOf_cons_ne _ hki]
        exact Nat.succ_le_succ (idxOf_erase_le hij l)

/-- A send in line is served or stays in line, and no step sets it back; a receive moves it up. -/
theorem Inv.step_line (h : Inv capacity 0 s) {e : Event α} {i : Nat} (hi : i ∈ s.line) (he : e ≠ .giveUp i)
    (hs : step s e = some s') :
    Served s' i ∨ (i ∈ s'.line ∧ s'.line.idxOf i + (if isRecv e then 1 else 0) ≤ s.line.idxOf i) := by
  cases e with
  | start value =>
    cases hs
    right
    unfold BoundedQueue.start
    split
    · exact ⟨hi, Nat.le_refl _⟩
    · refine ⟨List.mem_append_left _ hi, ?_⟩
      rw [List.idxOf_append_of_mem hi]
      exact Nat.le_refl _
  | put j =>
    obtain ⟨v, -, rfl⟩ := step_put hs
    exact .inr ⟨hi, Nat.le_refl _⟩
  | giveUp j =>
    have hij : i ≠ j := fun hij => he (hij ▸ rfl)
    rcases step_giveUp hs with ⟨v, -, rfl⟩ | ⟨v, hj, rfl⟩
    · exact .inr ⟨(List.mem_erase_of_ne hij).2 hi, idxOf_erase_le hij s.line⟩
    · rcases release_line (s := setPc s j .givenUp) (h.others_wait hj) hi with hserved | ⟨hin, hle⟩
      · exact .inl hserved
      · exact .inr ⟨hin, Nat.le_of_succ_le hle⟩
  | recv =>
    obtain ⟨e, rest, -, rfl⟩ := step_recv hs
    exact release_line (s := { s with queue := rest, received := s.received ++ [e] }) (fun j hj => (h.line j).1 hj) hi

theorem exec_served {i : Nat} : ∀ (es : List (Event α)) (s s' : Chan α), Inv capacity 0 s → Served s i →
    (∀ e ∈ es, e ≠ .giveUp i) → exec step s es = some s' → Served s' i
  | [], s, s', _, hi, _, hs => by
    cases hs
    exact hi
  | e :: es, s, s', h, hi, he, hs => by
    obtain ⟨m, hm, hs⟩ := Option.bind_eq_some_iff.1 hs
    have hmi : Served m i := h.step_served hi (he e List.mem_cons_self) hm
    exact exec_served es m s' (step_inv s e m h hm) hmi (fun e he' => he e (List.mem_cons_of_mem _ he')) hs

/-- Nobody overtakes in line: a send that is not given up is served at the latest when the receiver has taken one value
more than there were sends before it. -/
theorem exec_line {i : Nat} : ∀ (es : List (Event α)) (s s' : Chan α), Inv capacity 0 s → i ∈ s.line →
    (∀ e ∈ es, e ≠ .giveUp i) → exec step s es = some s' →
    Served s' i ∨ (i ∈ s'.line ∧ s'.line.idxOf i + es.countP isRecv ≤ s.line.idxOf i)
  | [], s, s', _, hi, _, hs => by
    cases hs
    exact .inr ⟨hi, Nat.le_refl _⟩
  | e :: es, s, s', h, hi, he, hs => by
    obtain ⟨m, hm, hs⟩ := Option.bind_eq_some_iff.1 hs
    have hmi : Inv capacity 0 m := step_inv s e m h hm
    have hes : ∀ e ∈ es, e ≠ .giveUp i := fun e he' => he e (List.mem_cons_of_mem _ he')
    rcases h.step_line hi (he e List.mem_cons_self) hm with hserved | ⟨hin, hle⟩
    · exact .inl (exec_served es m s' hmi hserved hes hs)
    · rcases exec_line es m s' hmi hin hes hs with hserved | ⟨hin', hle'⟩
      · exact .inl hserved
      · refine .inr ⟨hin', ?_⟩
        rw [List.countP_cons]
        omega

/-- As long as someone waits in line there is a step that moves the channel on: the receiver has a value to take, or a
send has a permit to use. -/
theorem Inv.moves (h : Inv capacity 0 s) (hcap : 0 < capacity) {i : Nat} (hi : i ∈ s.line) :
    (step s .recv).isSome = true ∨ ∃ j, (step s (.put j)).isSome = true := by
  have hfull : s.permits = 0 := h.busy (List.ne_nil_of_mem hi)
  cases hq : s.queue with
  | cons e rest => exact .inl (by simp [step, hq])
  | nil =>
    right
    have hcount := h.permits
    rw [hfull, hq, List.length_nil] at hcount
    obtain ⟨x, hx, hg⟩ := List.countP_pos_iff.1 (show 0 < s.sends.countP isGranted by omega)
    obtain ⟨j, hj⟩ := List.getElem?_of_mem hx
    refine ⟨j, ?_⟩
    obtain ⟨v, pc⟩ := x
    obtain rfl : pc = .granted := of_decide_eq_true hg
    simp [step, hj]

end BoundedQueue
