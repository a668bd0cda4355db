/-
Frames that end in a delimiter, read from a byte stream by a buffered line reader that lives for
one call. The stream arrives in pieces; a read takes some of what has arrived into the reader's
buffer, and whatever the reader still buffers when its call ends is gone.
-/
import NapCat.Lib.Run
import Mathlib.Data.List.Basic
import Mathlib.Data.List.TakeWhile

namespace Framing

variable {F α : Type}

/-- How a call ends: with a line (its delimiter included), at the end of the stream, or expired. -/
inductive Outcome (α : Type)
  | line (l : List α)
  | eof
  | expired
  deriving DecidableEq

def Outcome.line? : Outcome α → Option (List α)
  | .line l => some l
  | _ => none

/-- The stream between a writer of frames and a reader: what is written, what is under way, what has
arrived, the line of the call in progress, and how the calls so far ended. -/
structure State (F α : Type) where
  written : List F := []
  flight : List α := []
  sock : List α := []
  closed : Bool := false
  reader : Option (List α) := none
  outcomes : List (Outcome α) := []
  deriving DecidableEq

inductive Event (F : Type)
  | write (f : F)
  | close
  | arrive (n : Nat)
  | call
  | fill (n : Nat)
  | eof
  | expire

/-- The lines read so far. -/
def State.lines (s : State F α) : List (List α) := s.outcomes.filterMap Outcome.line?

/-- The part of a line the call in progress has read. -/
def State.part (s : State F α) : List α := s.reader.getD []

variable [DecidableEq α]

/-- The reader takes `n` elements. If the delimiter is among them the line is complete, and the
elements after the delimiter are dropped with the reader. -/
def fill (d : α) (s : State F α) (part : List α) (n : Nat) : State F α :=
  let chunk := s.sock.take n
  if d ∈ chunk then
    { s with
      sock := s.sock.drop n
      reader := none
      outcomes := s.outcomes ++ [.line (part ++ chunk.takeWhile (· ≠ d) ++ [d])] }
  else { s with sock := s.sock.drop n, reader := some (part ++ chunk) }

/-- One event. `cap` is the size of the reader's buffer. -/
def step (encode : F → List α) (d : α) (cap : Nat) (s : State F α) : Event F → Option (State F α)
  | .write f =>
    if s.closed then none else some { s with written := s.written ++ [f], flight := s.flight ++ encode f }
  | .close => some { s with closed := true }
  | .arrive n => some { s with flight := s.flight.drop n, sock := s.sock ++ s.flight.take n }
  | .call => if s.reader = none then some { s with reader := some [] } else none
  -- a read waits for something to arrive and takes no more than its buffer holds
  | .fill n =>
    match s.reader with
    | none => none
    | some part => if 0 < n ∧ n ≤ s.sock.length ∧ n ≤ cap then some (fill d s part n) else none
  | .eof =>
    match s.reader with
    | none => none
    | some part =>
      if s.closed = true ∧ s.flight = [] ∧ s.sock = [] then
        some { s with reader := none, outcomes := s.outcomes ++ [if part = [] then .eof else .line part] }
      else none
  | .expire =>
    match s.reader with
    | none => none
    | some _ => some { s with reader := none, outcomes := s.outcomes ++ [.expired] }

/-- No read goes past a delimiter, and no call expires inside a line. -/
def Clean (d : α) (s : State F α) : Event F → Prop
  | .fill n => d ∉ (s.sock.take n).dropLast
  | .expire => s.part = []
  | _ => True

instance (d : α) (s : State F α) (e : Event F) : Decidable (Clean d s e) := by
  cases e <;> unfold Clean <;> infer_instance

/-! ## Delimited lists -/

/-- A list that ends in the delimiter and has no other one. -/
def Delimited (d : α) (l : List α) : Prop := ∃ b, l = b ++ [d] ∧ d ∉ b

omit [DecidableEq α] in
theorem Delimited.inj {d : α} : ∀ {b b' x y : List α}, d ∉ b → d ∉ b' → b ++ [d] ++ x = b' ++ [d] ++ y → b = b' ∧ x = y
  | [], [], _, _, _, _, h => ⟨rfl, by simpa using h⟩
  | [], c :: b', _, _, _, h', h => by
    simp only [List.nil_append, List.cons_append, List.cons.injEq] at h
    exact absurd (h.1 ▸ List.mem_cons_self) h'
  | c :: b, [], _, _, hb, _, h => by
    simp only [List.nil_append, List.cons_append, List.cons.injEq] at h
    exact absurd (h.1 ▸ List.mem_cons_self) hb
  | c :: b, c' :: b', x, y, hb, hb', h => by
    simp only [List.cons_append, List.cons.injEq] at h
    obtain ⟨rfl, h⟩ := h
    obtain ⟨rfl, rfl⟩ := Delimited.inj (fun hm => hb (List.mem_cons_of_mem _ hm))
      (fun hm => hb' (List.mem_cons_of_mem _ hm)) h
    exact ⟨rfl, rfl⟩

omit [DecidableEq α] in
/-- A stream of frames that starts with some lines starts with the frames they are. -/
theorem prefix_of_flatten {d : α} {encode : F → List α} (henc : ∀ f, Delimited d (encode f)) :
    ∀ (ls : List (List α)) (fs : List F) (rest : List α), (∀ l ∈ ls, Delimited d l) →
      fs.flatMap encode = ls.flatten ++ rest →
      ∃ fs' : List F, fs.map encode = ls ++ fs'.map encode ∧ rest = fs'.flatMap encode
  | [], fs, rest, _, h => ⟨fs, rfl, by simpa using h.symm⟩
  | l :: ls, [], rest, hl, h => by
    obtain ⟨b, rfl, -⟩ := hl l List.mem_cons_self
    simp at h
  | l :: ls, f :: fs, rest, hl, h => by
    obtain ⟨b, hlb, hb⟩ := hl l List.mem_cons_self
    obtain ⟨b', hf, hb'⟩ := henc f
    subst hlb
    rw [List.flatMap_cons, List.flatten_cons, hf, List.append_assoc (b ++ [d])] at h
    obtain ⟨rfl, htail⟩ := Delimited.inj hb' hb h
    obtain ⟨fs', hm, hr⟩ := prefix_of_flatten henc ls fs rest (fun l hm => hl l (List.mem_cons_of_mem _ hm)) htail
    exact ⟨fs', by rw [List.map_cons, hf, hm, List.cons_append], hr⟩

/-! ## Clean runs lose nothing -/

/-- What has been written is what has been read, then what the reader holds, what has arrived and
what is under way. -/
structure Inv (encode : F → List α) (d : α) (s : State F α) : Prop where
  stream : s.written.flatMap encode = s.lines.flatten ++ (s.part ++ s.sock ++ s.flight)
  lines : ∀ l ∈ s.lines, Delimited d l
  part : d ∉ s.part

variable {encode : F → List α} {d : α} {cap : Nat}

omit [DecidableEq α] in
theorem Inv.init : Inv encode d {} where
  stream := rfl
  lines l h := by cases h
  part h := by cases h

omit [DecidableEq α] in
/-- Once everything has arrived and been taken in, no part of a line is left. -/
theorem Inv.part_eq_nil (henc : ∀ f, Delimited d (encode f)) {s : State F α} (h : Inv encode d s)
    (hs : s.sock = []) (hf : s.flight = []) : s.part = [] ∧ s.lines = s.written.map encode := by
  obtain ⟨fs, hm, hr⟩ := prefix_of_flatten henc s.lines s.written _ h.lines h.stream
  rw [hs, hf, List.append_nil, List.append_nil] at hr
  cases fs with
  | nil => exact ⟨hr, by rw [hm]; simp⟩
  | cons f fs =>
    obtain ⟨b, he, -⟩ := henc f
    refine absurd ?_ h.part
    rw [hr, List.flatMap_cons, he]
    simp

/-- The chunk of a clean read that completes a line is the rest of the line. -/
theorem takeWhile_of_clean {chunk : List α} (hm : d ∈ chunk) (hc : d ∉ chunk.dropLast) :
    chunk.takeWhile (· ≠ d) ++ [d] = chunk := by
  have hne : chunk ≠ [] := List.ne_nil_of_mem hm
  have hl := List.dropLast_append_getLast hne
  have hd : chunk.getLast hne = d := by
    rw [← hl, List.mem_append, List.mem_singleton] at hm
    exact (hm.resolve_left hc).symm
  rw [hd] at hl
  have ht : chunk.takeWhile (· ≠ d) = chunk.dropLast := by
    conv_lhs => rw [← hl]
    rw [List.takeWhile_append_of_pos fun c hmem => by
      rw [decide_eq_true_eq]; rintro rfl; exact hc hmem]
    simp
  rw [ht, hl]

theorem Inv.fill {s : State F α} {part : List α} {n : Nat} (h : Inv encode d s) (hr : s.reader = some part)
    (hc : d ∉ (s.sock.take n).dropLast) : Inv encode d (fill d s part n) := by
  have hp : s.part = part := by rw [State.part, hr]; rfl
  have hs := h.stream
  have hd := h.part
  rw [hp] at hs hd
  unfold Framing.fill
  dsimp only
  split
  · -- the chunk ends the line and holds nothing of the next one
    rename_i hm
    have hl := takeWhile_of_clean hm hc
    have hdel : Delimited d (part ++ (s.sock.take n).takeWhile (· ≠ d) ++ [d]) :=
      ⟨_, rfl, by
        rw [List.mem_append, not_or]
        exact ⟨hd, fun hx => by simpa using List.mem_takeWhile_imp hx⟩⟩
    refine ⟨?_, ?_, fun hx => by cases hx⟩
    · rw [hs]
      simp only [State.lines, State.part, List.filterMap_append, List.filterMap_cons, Outcome.line?, List.filterMap_nil,
        List.flatten_append, List.flatten_cons, List.flatten_nil, List.append_nil, Option.getD_none, List.nil_append,
        List.append_assoc]
      rw [← List.append_assoc (List.takeWhile _ _), hl, ← List.append_assoc (s.sock.take n), List.take_append_drop]
    · intro l hlm
      simp only [State.lines, List.filterMap_append, List.mem_append] at hlm
      rcases hlm with hlm | hlm
      · exact h.lines l hlm
      · simp only [List.filterMap_cons, Outcome.line?, List.filterMap_nil, List.mem_singleton] at hlm
        exact hlm ▸ hdel
  · rename_i hm
    refine ⟨?_, h.lines, fun hx => ?_⟩
    · rw [hs]
      simp only [State.lines, State.part, Option.getD_some, List.append_assoc]
      rw [← List.append_assoc (s.sock.take n), List.take_append_drop]
    · rcases List.mem_append.1 hx with hx | hx
      · exact hd hx
      · exact hm hx

omit [DecidableEq α] in
/-- An outcome without a line, in place of a call that has read nothing. -/
theorem Inv.finish {s : State F α} {o : Outcome α} (h : Inv encode d s) (hp : s.part = []) (ho : o.line? = none) :
    Inv encode d { s with reader := none, outcomes := s.outcomes ++ [o] } := by
  have hl : State.lines { s with reader := none, outcomes := s.outcomes ++ [o] } = s.lines := by
    simp [State.lines, ho]
  refine ⟨?_, by rw [hl]; exact h.lines, fun hx => by cases hx⟩
  rw [hl]
  have := h.stream
  rwa [hp] at this

theorem step_inv (henc : ∀ f, Delimited d (encode f)) (s : State F α) (e : Event F) (s' : State F α)
    (h : Inv encode d s) (hc : Clean d s e) (hs : step encode d cap s e = some s') : Inv encode d s' := by
  cases e with
  | write f =>
    simp only [step, Option.ite_none_left_eq_some, Option.some.injEq] at hs
    obtain ⟨-, rfl⟩ := hs
    refine ⟨?_, h.lines, h.part⟩
    show (s.written ++ [f]).flatMap encode = s.lines.flatten ++ (s.part ++ s.sock ++ (s.flight ++ encode f))
    rw [List.flatMap_append, h.stream]
    simp
  | close => cases hs; exact ⟨h.stream, h.lines, h.part⟩
  | arrive n =>
    cases hs
    refine ⟨?_, h.lines, h.part⟩
    show s.written.flatMap encode = s.lines.flatten ++ (s.part ++ (s.sock ++ s.flight.take n) ++ s.flight.drop n)
    rw [h.stream]
    simp
  | call =>
    simp only [step, Option.ite_none_right_eq_some, Option.some.injEq] at hs
    obtain ⟨hr, rfl⟩ := hs
    have hst := h.stream
    rw [State.part, hr] at hst
    exact ⟨hst, h.lines, fun hx => by cases hx⟩
  | fill n =>
    cases hr : s.reader with
    | none => simp [step, hr] at hs
    | some part =>
      simp only [step, hr, Option.ite_none_right_eq_some, Option.some.injEq] at hs
      obtain ⟨-, rfl⟩ := hs
      exact h.fill hr hc
  | eof =>
    cases hr : s.reader with
    | none => simp [step, hr] at hs
    | some part =>
      simp only [step, hr, Option.ite_none_right_eq_some, Option.some.injEq] at hs
      obtain ⟨⟨-, hf, hk⟩, rfl⟩ := hs
      -- a frame ends in the delimiter, so the stream cannot end inside a line
      have hp := (h.part_eq_nil henc hk hf).1
      have hp' : part = [] := by rw [State.part, hr] at hp; exact hp
      rw [if_pos hp']
      exact h.finish hp rfl
  | expire =>
    cases hr : s.reader with
    | none => simp [step, hr] at hs
    | some part =>
      simp only [step, hr, Option.some.injEq] at hs
      subst hs
      exact h.finish hc rfl

/-- Over a clean run the lines read are the first frames written, and all of them once everything
has arrived and been taken in. -/
theorem run_lossless (henc : ∀ f, Delimited d (encode f)) {es : List (Event F)} {s : State F α}
    (hc : Run.Along (step encode d cap) (Clean d) {} es) (hs : Run.exec (step encode d cap) {} es = some s) :
    s.lines <+: s.written.map encode ∧ (s.sock = [] → s.flight = [] → s.lines = s.written.map encode) := by
  have h : Inv encode d s := Run.exec_inv (step_inv henc) es _ _ Inv.init hc hs
  obtain ⟨fs, hm, -⟩ := prefix_of_flatten henc s.lines s.written _ h.lines h.stream
  exact ⟨⟨_, hm.symm⟩, fun hk hf => (h.part_eq_nil henc hk hf).2⟩

end Framing
