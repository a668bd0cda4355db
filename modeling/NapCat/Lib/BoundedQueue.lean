/-
A bounded channel with many senders and one receiver. The channel has as many permits as slots; a send takes a free
permit and puts its value in, or waits in line for one. A permit that comes free goes to the first in line, who puts
its value in when it runs next. A send may be given up as long as its value is not in, and then hands on a permit it
has been granted. The receiver takes the values in the order they were put in, and frees a permit with each.
-/
import NapCat.Lib.Threads

namespace BoundedQueue

open Run

variable {α : Type}

/-- Where a send is: in line, with a permit, with its value in, or given up. -/
inductive Pc
  | waiting
  | granted
  | sent
  | givenUp
  deriving DecidableEq

structure Send (α : Type) where
  value : α
  pc : Pc

/-- Sends are numbered in the order they begin; the values in the queue and those received carry the number of their
send. -/
structure Chan (α : Type) where
  permits : Nat
  line : List Nat := []
  sends : List (Send α) := []
  queue : List (Nat × α) := []
  received : List (Nat × α) := []

inductive Event (α : Type)
  | start (value : α)
  | put (i : Nat)
  | giveUp (i : Nat)
  | recv

/-- A channel with nothing in it. -/
def init (capacity : Nat) : Chan α := { permits := capacity }

def setPc (s : Chan α) (i : Nat) (pc : Pc) : Chan α :=
  { s with sends := s.sends.modify i fun x => { x with pc := pc } }

/-- A permit comes free. -/
def release (s : Chan α) : Chan α :=
  match s.line with
  | [] => { s with permits := s.permits + 1 }
  | i :: rest => setPc { s with line := rest } i .granted

def start (s : Chan α) (value : α) : Chan α :=
  if 0 < s.permits then
    { s with
      permits := s.permits - 1
      sends := s.sends ++ [⟨value, .sent⟩]
      queue := s.queue ++ [(s.sends.length, value)] }
  else
    { s with line := s.line ++ [s.sends.length], sends := s.sends ++ [⟨value, .waiting⟩] }

def step (s : Chan α) : Event α → Option (Chan α)
  | .start value => some (start s value)
  | .put i =>
    match s.sends[i]? with
    | some ⟨value, .granted⟩ => some (setPc { s with queue := s.queue ++ [(i, value)] } i .sent)
    | _ => none
  | .giveUp i =>
    match s.sends[i]? with
    | some ⟨_, .waiting⟩ => some (setPc { s with line := s.line.erase i } i .givenUp)
    | some ⟨_, .granted⟩ => some (release (setPc s i .givenUp))
    | _ => none
  | .recv =>
    match s.queue with
    | [] => none
    | e :: rest => some (release { s with queue := rest, received := s.received ++ [e] })

/-- What has been put in so far, received or not. -/
def entered (s : Chan α) : List (Nat × α) := s.received ++ s.queue

def isGranted (x : Send α) : Bool := x.pc = .granted

theorem setPc_eq {s : Chan α} {i : Nat} {x : Send α} (h : s.sends[i]? = some x) (pc : Pc) :
    setPc s i pc = { s with sends := s.sends.set i ⟨x.value, pc⟩ } := by
  rw [setPc, List.modify_eq_set_getElem?, h]
  rfl

section

variable {s s' : Chan α}

theorem step_put {i : Nat} (hs : step s (.put i) = some s') :
    ∃ v, s.sends[i]? = some ⟨v, .granted⟩ ∧ s' = setPc { s with queue := s.queue ++ [(i, v)] } i .sent := by
  simp only [step] at hs
  split at hs
  · rename_i v hi
    cases hs
    exact ⟨v, hi, rfl⟩
  · cases hs

/-- A send that is given up leaves the line, or hands on its permit. -/
theorem step_giveUp {i : Nat} (hs : step s (.giveUp i) = some s') :
    (∃ v, s.sends[i]? = some ⟨v, .waiting⟩ ∧ s' = setPc { s with line := s.line.erase i } i .givenUp) ∨
    (∃ v, s.sends[i]? = some ⟨v, .granted⟩ ∧ s' = release (setPc s i .givenUp)) := by
  simp only [step] at hs
  split at hs
  · rename_i v hi
    cases hs
    exact .inl ⟨v, hi, rfl⟩
  · rename_i v hi
    cases hs
    exact .inr ⟨v, hi, rfl⟩
  · cases hs

theorem step_recv (hs : step s .recv = some s') :
    ∃ e rest, s.queue = e :: rest ∧ s' = release { s with queue := rest, received := s.received ++ [e] } := by
  simp only [step] at hs
  split at hs
  · cases hs
  · rename_i e rest hq
    cases hs
    exact ⟨e, rest, hq, rfl⟩

end

/-! ## What every state keeps -/

/-- One more value under a number that has none yet. -/
theorem keys_concat {l : List (Nat × α)} (h : (l.map Prod.fst).Nodup) {i : Nat} (hi : ∀ v, (i, v) ∉ l) (v : α) :
    ((l ++ [(i, v)]).map Prod.fst).Nodup := by
  rw [List.map_append, List.nodup_append]
  refine ⟨h, by simp, ?_⟩
  rintro a ha b hb rfl
  obtain ⟨⟨j, w⟩, hw, rfl⟩ := List.mem_map.1 ha
  rw [List.map_singleton, List.mem_singleton] at hb
  obtain rfl : j = i := hb
  exact hi w hw

/-- The permits are accounted for, up to `spare` that are about to come free; nobody waits in line while a permit is
free; the line and the values entered are those of the sends, once each. -/
structure Inv (capacity spare : Nat) (s : Chan α) : Prop where
  permits : s.permits + s.sends.countP isGranted + s.queue.length + spare = capacity
  busy : s.line ≠ [] → s.permits = 0
  lineOnce : s.line.Nodup
  line : ∀ i, i ∈ s.line ↔ ∃ v, s.sends[i]? = some ⟨v, .waiting⟩
  enteredOnce : ((entered s).map Prod.fst).Nodup
  entered : ∀ i v, (i, v) ∈ entered s ↔ s.sends[i]? = some ⟨v, .sent⟩

variable {capacity spare : Nat} {s s' : Chan α}

theorem Inv.init (capacity : Nat) : Inv capacity 0 (init capacity : Chan α) where
  permits := by simp [BoundedQueue.init]
  busy h := absurd rfl h
  lineOnce := .nil
  line i := by simp [BoundedQueue.init]
  enteredOnce := .nil
  entered i v := by simp [BoundedQueue.init, BoundedQueue.entered]

/-- A send moves on: who waits and who has entered is read off its new place. -/
theorem Inv.move (h : Inv capacity spare s) {i : Nat} {x : Send α} (hi : s.sends[i]? = some x) (pc : Pc) (spare' : Nat)
    (line : List Nat) (queue : List (Nat × α))
    (hpermits : (if isGranted ⟨x.value, pc⟩ then 1 else 0) + queue.length + spare' =
      (if isGranted x then 1 else 0) + s.queue.length + spare)
    (hbusy : line ≠ [] → s.line ≠ []) (hlineOnce : line.Nodup)
    (hline : ∀ j, j ∈ line ↔ if j = i then pc = .waiting else j ∈ s.line)
    (hentered : (pc = .sent ∧ x.pc ≠ .sent ∧ queue = s.queue ++ [(i, x.value)]) ∨
      (pc ≠ .sent ∧ x.pc ≠ .sent ∧ queue = s.queue)) :
    Inv capacity spare' { s with sends := s.sends.set i ⟨x.value, pc⟩, line := line, queue := queue } := by
  have hlt : i < s.sends.length := (List.getElem?_eq_some_iff.1 hi).1
  have hout : ∀ v, (i, v) ∉ BoundedQueue.entered s := by
    intro v hv
    have := (h.entered i v).1 hv
    rw [hi] at this
    rcases hentered with ⟨-, hx, -⟩ | ⟨-, hx, -⟩ <;> exact hx (by rw [Option.some.inj this])
  have hput : ∀ sends line, BoundedQueue.entered
      { s with sends := sends, line := line, queue := s.queue ++ [(i, x.value)] } =
      BoundedQueue.entered s ++ [(i, x.value)] := fun _ _ => (List.append_assoc ..).symm
  refine ⟨?_, fun hne => h.busy (hbusy hne), hlineOnce, fun j => ?_, ?_, fun j v => ?_⟩
  · have hcount := Threads.countP_set isGranted ⟨x.value, pc⟩ hi
    have := h.permits
    dsimp only
    omega
  · rw [hline j]
    by_cases hj : j = i
    · subst hj
      simp [List.getElem?_set_self hlt]
    · rw [if_neg hj, h.line j]
      dsimp only
      rw [List.getElem?_set_ne (fun he => hj he.symm)]
  · have hold := h.enteredOnce
    rcases hentered with ⟨-, -, rfl⟩ | ⟨-, -, rfl⟩
    · rw [hput]
      exact keys_concat hold hout x.value
    · exact hold
  · by_cases hj : j = i
    · subst hj
      dsimp only
      rw [List.getElem?_set_self hlt, Option.some.injEq, Send.mk.injEq]
      rcases hentered with ⟨rfl, -, rfl⟩ | ⟨hpc, -, rfl⟩
      · rw [hput, List.mem_append]
        have := hout v
        simp [this, eq_comm]
      · exact ⟨fun hv => absurd hv (hout v), fun hv => absurd hv.2 hpc⟩
    · dsimp only
      rw [List.getElem?_set_ne (fun he => hj he.symm), ← h.entered j v]
      rcases hentered with ⟨-, -, rfl⟩ | ⟨-, -, rfl⟩
      · simp [BoundedQueue.entered, hj]
      · rfl

/-- Only sends that wait are in line. -/
theorem Inv.not_in_line (h : Inv capacity spare s) {i : Nat} {x : Send α} (hi : s.sends[i]? = some x)
    (hx : x.pc ≠ .waiting) : i ∉ s.line := by
  intro hl
  obtain ⟨w, hw⟩ := (h.line i).1 hl
  cases hi.symm.trans hw
  exact hx rfl

/-- A permit that comes free is free, or the first in line has it. -/
theorem Inv.release (h : Inv capacity 1 s) : Inv capacity 0 (release s) := by
  unfold BoundedQueue.release
  split
  · rename_i hline
    refine ⟨?_, fun hne => absurd hline hne, h.lineOnce, h.line, h.enteredOnce, h.entered⟩
    have := h.permits
    dsimp only
    omega
  · rename_i i rest hline
    obtain ⟨v, hi⟩ := (h.line i).1 (by rw [hline]; exact List.mem_cons_self)
    have honce : (i :: rest).Nodup := hline ▸ h.lineOnce
    have hmove := h.move hi .granted 0 rest s.queue (by simp [isGranted]; omega)
      (fun _ => by rw [hline]; exact List.cons_ne_nil i rest) (List.nodup_cons.1 honce).2 (fun j => ?_)
      (.inr ⟨nofun, nofun, rfl⟩)
    · rw [setPc_eq (s := { s with line := rest }) hi]
      exact hmove
    · rw [hline]
      by_cases hj : j = i
      · subst hj
        simp [(List.nodup_cons.1 honce).1]
      · simp [hj]

theorem Inv.start (h : Inv capacity 0 s) (value : α) : Inv capacity 0 (start s value) := by
  have hnew : ∀ v, (s.sends.length, v) ∉ BoundedQueue.entered s := by
    intro v hv
    have := (h.entered _ v).1 hv
    rw [List.getElem?_eq_none (Nat.le_refl _)] at this
    cases this
  have hget : ∀ (j : Nat) (x y : Send α), (s.sends ++ [y])[j]? = some x ↔
      (j = s.sends.length ∧ x = y) ∨ s.sends[j]? = some x := by
    intro j x y
    refine ⟨Threads.get_append, ?_⟩
    rintro (⟨rfl, rfl⟩ | hj)
    · exact List.getElem?_concat_length
    · exact (List.getElem?_append_left (List.getElem?_eq_some_iff.1 hj).1).trans hj
  unfold BoundedQueue.start
  split
  · rename_i hfree
    have hempty : s.line = [] := by
      by_contra hne
      have := h.busy hne
      omega
    have he : ∀ p, BoundedQueue.entered { s with
        permits := p, sends := s.sends ++ [⟨value, .sent⟩], queue := s.queue ++ [(s.sends.length, value)] }
        = BoundedQueue.entered s ++ [(s.sends.length, value)] := fun _ => (List.append_assoc ..).symm
    refine ⟨?_, fun hne => absurd hempty hne, h.lineOnce, fun j => ?_, ?_, fun j v => ?_⟩
    · have := h.permits
      simp only [Threads.countP_append_one, isGranted, List.length_append, List.length_singleton]
      simp
      omega
    · simp only [h.line j, hget]
      simp
    · rw [he]
      exact keys_concat h.enteredOnce hnew value
    · rw [he, List.mem_append, h.entered j v]
      simp only [hget]
      simp [or_comm]
  · rename_i hfull
    refine ⟨?_, fun _ => Nat.eq_zero_of_not_pos hfull, ?_, fun j => ?_, h.enteredOnce, fun j v => ?_⟩
    · have := h.permits
      simp only [Threads.countP_append_one, isGranted]
      simp
      omega
    · rw [List.nodup_append]
      refine ⟨h.lineOnce, by simp, ?_⟩
      rintro a ha b hb rfl
      rw [List.mem_singleton] at hb
      subst hb
      obtain ⟨v, hv⟩ := (h.line _).1 ha
      rw [List.getElem?_eq_none (Nat.le_refl _)] at hv
      cases hv
    · rw [List.mem_append, List.mem_singleton, h.line j]
      simp only [hget, exists_or, Send.mk.injEq, and_true, exists_and_left, exists_eq, or_comm]
    · refine (h.entered j v).trans ?_
      simp only [hget]
      simp

theorem step_inv (s : Chan α) (e : Event α) (s' : Chan α) (h : Inv capacity 0 s) (hs : step s e = some s') :
    Inv capacity 0 s' := by
  cases e with
  | start value =>
    cases hs
    exact h.start value
  | put i =>
    obtain ⟨v, hi, rfl⟩ := step_put hs
    have hnot : i ∉ s.line := h.not_in_line hi nofun
    rw [setPc_eq (s := { s with queue := s.queue ++ [(i, v)] }) hi]
    refine h.move hi .sent 0 s.line (s.queue ++ [(i, v)]) ?_ id h.lineOnce (fun j => ?_) (.inl ⟨rfl, nofun, rfl⟩)
    · simp [isGranted]
      omega
    · by_cases hj : j = i
      · subst hj
        simp [hnot]
      · simp [hj]
  | giveUp i =>
    rcases step_giveUp hs with ⟨v, hi, rfl⟩ | ⟨v, hi, rfl⟩
    · rw [setPc_eq (s := { s with line := s.line.erase i }) hi]
      refine h.move hi .givenUp 0 (s.line.erase i) s.queue (by simp [isGranted]) ?_ (h.lineOnce.erase i) (fun j => ?_)
        (.inr ⟨nofun, nofun, rfl⟩)
      · rintro hne hnil
        rw [hnil] at hne
        exact hne rfl
      · rw [h.lineOnce.mem_erase_iff]
        by_cases hj : j = i
        · simp [hj]
        · simp [hj]
    · have hnot : i ∉ s.line := h.not_in_line hi nofun
      rw [setPc_eq hi]
      refine Inv.release (h.move hi .givenUp 1 s.line s.queue ?_ id h.lineOnce (fun j => ?_) (.inr ⟨nofun, nofun, rfl⟩))
      · simp [isGranted]
        omega
      · by_cases hj : j = i
        · subst hj
          simp [hnot]
        · simp [hj]
  | recv =>
    obtain ⟨e, rest, hq, rfl⟩ := step_recv hs
    have he : BoundedQueue.entered { s with queue := rest, received := s.received ++ [e] }
        = BoundedQueue.entered s := by
      simp [BoundedQueue.entered, hq]
    refine Inv.release ⟨?_, h.busy, h.lineOnce, h.line, he ▸ h.enteredOnce, fun j v => he ▸ h.entered j v⟩
    have := h.permits
    rw [hq, List.length_cons] at this
    dsimp only
    omega

/-- In every state a run reaches. -/
theorem exec_inv {es : List (Event α)} (hs : exec step (init capacity) es = some s) : Inv capacity 0 s :=
  exec_inv_always step_inv es _ _ (.init capacity) hs

/-! ## First in, first out -/

@[simp] theorem entered_setPc (s : Chan α) (i : Nat) (pc : Pc) : entered (setPc s i pc) = entered s := rfl

@[simp] theorem entered_release (s : Chan α) : entered (release s) = entered s := by
  unfold release
  split <;> rfl

/-- A step puts in at most one value, behind all that have entered. -/
theorem step_entered {e : Event α} (hs : step s e = some s') : entered s <+: entered s' := by
  cases e with
  | start value =>
    cases hs
    unfold start
    split
    · exact ⟨[(s.sends.length, value)], List.append_assoc ..⟩
    · exact List.prefix_rfl
  | put i =>
    obtain ⟨v, -, rfl⟩ := step_put hs
    exact ⟨[(i, v)], List.append_assoc ..⟩
  | giveUp i =>
    rcases step_giveUp hs with ⟨v, -, rfl⟩ | ⟨v, -, rfl⟩
    · exact List.prefix_rfl
    · rw [entered_release]
      exact List.prefix_rfl
  | recv =>
    obtain ⟨e, rest, hq, rfl⟩ := step_recv hs
    rw [entered_release]
    simp [entered, hq]

/-- So what has entered before a send begins is received before it. -/
theorem exec_entered : ∀ (es : List (Event α)) (s s' : Chan α), exec step s es = some s' → entered s <+: entered s'
  | [], s, s', hs => by
    cases hs
    exact List.prefix_rfl
  | e :: es, s, s', hs => by
    obtain ⟨m, hm, hs⟩ := Option.bind_eq_some_iff.1 hs
    exact (step_entered hm).trans (exec_entered es m s' hs)

/-! ## What is received -/

def isRecv : Event α → Bool
  | .recv => true
  | _ => false

@[simp] theorem received_release (s : Chan α) : (release s).received = s.received := by
  unfold release
  split <;> rfl

/-- A receive is counted by what has been received. -/
theorem step_received {e : Event α} (hs : step s e = some s') :
    s'.received.length = s.received.length + if isRecv e then 1 else 0 := by
  cases e with
  | start value =>
    cases hs
    unfold start
    split <;> rfl
  | put i =>
    obtain ⟨v, -, rfl⟩ := step_put hs
    rfl
  | giveUp i =>
    rcases step_giveUp hs with ⟨v, -, rfl⟩ | ⟨v, -, rfl⟩
    · rfl
    · rw [received_release]
      rfl
  | recv =>
    obtain ⟨e, rest, -, rfl⟩ := step_recv hs
    rw [received_release, List.length_append]
    rfl

theorem exec_received : ∀ (es : List (Event α)) (s s' : Chan α), exec step s es = some s' →
    s'.received.length = s.received.length + es.countP isRecv
  | [], s, s', hs => by
    cases hs
    rfl
  | e :: es, s, s', hs => by
    obtain ⟨m, hm, hs⟩ := Option.bind_eq_some_iff.1 hs
    rw [exec_received es m s' hs, step_received hm, List.countP_cons]
    omega

/-! ## What a send comes to -/

/-- All that matters to its caller: the value is not in yet, in, or will never be. -/
inductive Stage
  | pending
  | entered
  | gone
  deriving DecidableEq

def stage : Pc → Stage
  | .waiting | .granted => .pending
  | .sent => .entered
  | .givenUp => .gone

def views (s : Chan α) : List (α × Stage) := s.sends.map fun x => (x.value, stage x.pc)

theorem views_get {i : Nat} {v : α} {t : Stage} :
    (views s)[i]? = some (v, t) ↔ ∃ pc, s.sends[i]? = some ⟨v, pc⟩ ∧ stage pc = t := by
  rw [views, List.getElem?_map, Option.map_eq_some_iff]
  constructor
  · rintro ⟨⟨w, pc⟩, hi, he⟩
    cases he
    exact ⟨pc, hi, rfl⟩
  · rintro ⟨pc, hi, rfl⟩
    exact ⟨⟨v, pc⟩, hi, rfl⟩

theorem Inv.entered_iff (h : Inv capacity spare s) (i : Nat) (v : α) :
    (i, v) ∈ BoundedQueue.entered s ↔ (views s)[i]? = some (v, .entered) := by
  rw [h.entered i v, views_get]
  constructor
  · exact fun hi => ⟨.sent, hi, rfl⟩
  · rintro ⟨pc, hi, hpc⟩
    cases pc with
    | sent => exact hi
    | waiting | granted | givenUp => cases hpc

theorem views_setPc {i : Nat} {v : α} {pc : Pc} (hi : s.sends[i]? = some ⟨v, pc⟩) (pc' : Pc) :
    views (setPc s i pc') = (views s).set i (v, stage pc') := by
  rw [setPc_eq hi, views, List.map_set]
  rfl

theorem views_release (hwait : ∀ j ∈ s.line, ∃ v, s.sends[j]? = some ⟨v, .waiting⟩) :
    views (release s) = views s := by
  unfold release
  split
  · rfl
  · rename_i i rest hline
    obtain ⟨v, hi⟩ := hwait i (by rw [hline]; exact List.mem_cons_self)
    rw [views_setPc (s := { s with line := rest }) hi]
    obtain ⟨hlt, he⟩ := List.getElem?_eq_some_iff.1 (views_get.2 ⟨_, hi, rfl⟩)
    exact (congrArg _ he.symm).trans (List.set_getElem_self hlt)

/-- A send that gives up its permit is not in line. -/
theorem Inv.others_wait (h : Inv capacity spare s) {i : Nat} {v : α} (hi : s.sends[i]? = some ⟨v, .granted⟩) :
    ∀ k ∈ s.line, ∃ w, (setPc s i .givenUp).sends[k]? = some ⟨w, .waiting⟩ := by
  intro k hk
  obtain ⟨w, hw⟩ := (h.line k).1 hk
  refine ⟨w, ?_⟩
  rw [setPc_eq hi, List.getElem?_set_ne]
  · exact hw
  · rintro rfl
    cases hi.symm.trans hw

/-- What a send comes to when it begins. -/
theorem start_effect (s : Chan α) (value : α) :
    (0 < s.permits ∧ views (start s value) = views s ++ [(value, .entered)] ∧
      entered (start s value) = entered s ++ [(s.sends.length, value)]) ∨
    (s.permits = 0 ∧ views (start s value) = views s ++ [(value, .pending)] ∧
      entered (start s value) = entered s) := by
  unfold start
  split
  · rename_i hfree
    exact .inl ⟨hfree, by simp [views, stage], (List.append_assoc ..).symm⟩
  · rename_i hfull
    exact .inr ⟨Nat.eq_zero_of_not_pos hfull, by simp [views, stage], rfl⟩

theorem start_received (s : Chan α) (value : α) : (start s value).received = s.received := by
  unfold start
  split <;> rfl

theorem put_effect {i : Nat} (hs : step s (.put i) = some s') :
    ∃ v, (views s)[i]? = some (v, .pending) ∧ views s' = (views s).set i (v, .entered) ∧
      entered s' = entered s ++ [(i, v)] ∧ s'.received = s.received := by
  obtain ⟨v, hi, rfl⟩ := step_put hs
  refine ⟨v, views_get.2 ⟨_, hi, rfl⟩, ?_, (List.append_assoc ..).symm, rfl⟩
  exact views_setPc (s := { s with queue := s.queue ++ [(i, v)] }) hi .sent

theorem Inv.giveUp_effect (h : Inv capacity 0 s) {i : Nat} (hs : step s (.giveUp i) = some s') :
    ∃ v, (views s)[i]? = some (v, .pending) ∧ views s' = (views s).set i (v, .gone) ∧
      BoundedQueue.entered s' = BoundedQueue.entered s ∧ s'.received = s.received := by
  rcases step_giveUp hs with ⟨v, hi, rfl⟩ | ⟨v, hi, rfl⟩
  · exact ⟨v, views_get.2 ⟨_, hi, rfl⟩, views_setPc (s := { s with line := s.line.erase i }) hi .givenUp, rfl, rfl⟩
  · have hwait : ∀ k ∈ s.line, ∃ w, (setPc s i .givenUp).sends[k]? = some ⟨w, .waiting⟩ := h.others_wait hi
    refine ⟨v, views_get.2 ⟨_, hi, rfl⟩, ?_, entered_release _, ?_⟩
    · rw [views_release (s := setPc s i .givenUp) hwait]
      exact views_setPc hi .givenUp
    · exact received_release _

theorem Inv.recv_effect (h : Inv capacity 0 s) (hs : step s .recv = some s') :
    ∃ e rest, s.queue = e :: rest ∧ views s' = views s ∧ BoundedQueue.entered s' = BoundedQueue.entered s ∧
      s'.received = s.received ++ [e] := by
  obtain ⟨e, rest, hq, rfl⟩ := step_recv hs
  refine ⟨e, rest, hq, ?_, ?_, received_release _⟩
  · exact views_release (s := { s with queue := rest, received := s.received ++ [e] }) fun j hj => (h.line j).1 hj
  · rw [entered_release]
    simp [BoundedQueue.entered, hq]

/-- A send keeps its value. -/
theorem Inv.step_value (h : Inv capacity 0 s) {e : Event α} (hs : step s e = some s') {i : Nat} {v : α}
    (hi : ∃ t, (views s)[i]? = some (v, t)) : ∃ t, (views s')[i]? = some (v, t) := by
  have hset : ∀ (j : Nat) (w : α) (t t' : Stage), (views s)[j]? = some (w, t) →
      ∃ t'', ((views s).set j (w, t'))[i]? = some (v, t'') := by
    intro j w t t' hj
    obtain ⟨u, hu⟩ := hi
    by_cases hij : i = j
    · subst hij
      cases hj.symm.trans hu
      exact ⟨t', List.getElem?_set_self (List.getElem?_eq_some_iff.1 hj).1⟩
    · exact ⟨u, (List.getElem?_set_ne fun he => hij he.symm).trans hu⟩
  cases e with
  | start value =>
    cases hs
    obtain ⟨t, ht⟩ := hi
    refine ⟨t, ?_⟩
    rcases start_effect s value with ⟨-, hviews, -⟩ | ⟨-, hviews, -⟩ <;>
      exact hviews ▸ (List.getElem?_append_left (List.getElem?_eq_some_iff.1 ht).1).trans ht
  | put j =>
    obtain ⟨w, hj, hviews, -⟩ := put_effect hs
    exact hviews ▸ hset j w _ _ hj
  | giveUp j =>
    obtain ⟨w, hj, hviews, -⟩ := h.giveUp_effect hs
    exact hviews ▸ hset j w _ _ hj
  | recv =>
    obtain ⟨e, rest, -, hviews, -⟩ := h.recv_effect hs
    exact hviews ▸ hi

theorem exec_value {i : Nat} {v : α} : ∀ (es : List (Event α)) (s s' : Chan α), Inv capacity 0 s →
    exec step s es = some s' → (∃ t, (views s)[i]? = some (v, t)) → ∃ t, (views s')[i]? = some (v, t)
  | [], s, s', _, hs, hi => by
    cases hs
    exact hi
  | e :: es, s, s', h, hs, hi => by
    obtain ⟨m, hm, hs⟩ := Option.bind_eq_some_iff.1 hs
    exact exec_value es m s' (step_inv s e m h hm) hs (h.step_value hm hi)

end BoundedQueue
