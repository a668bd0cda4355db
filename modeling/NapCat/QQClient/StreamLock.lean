/-
What the steps of `TcpQQClient` do to the stream: which calls are inside its lock, which lines they write, and when
the stream is put into its slot and taken out. The lemma `act_stream` says it once for every step.
-/
import NapCat.QQClient.Tcp

namespace NapCat.QQClient.Tcp

/-- A call that is inside the stream lock. -/
def Pc.holds : Pc → Bool
  | .write _ _ .deadline | .write _ _ (.write _) => true
  | _ => false

def Pc.line? : Pc → Option String
  | .write _ line _ => some line
  | _ => none

/-- A call that may still write a line. -/
def Pc.ahead : Pc → Bool
  | .write _ _ _ | .beatCheck _ => true
  | _ => false

def IsLine (line : String) : Prop := ∃ p : Packet, line = buildWireLine p.route p.payload

theorem isLine (route payload : String) : IsLine (buildWireLine route payload) := ⟨⟨route, payload⟩, rfl⟩

/-- A step takes the lock, goes on inside of it, ends a write, opens a connection, or does nothing to the stream
but take it out of its slot. -/
inductive StreamEffect (g : Shared) : Pc → Act → Shared → Pc → Prop
  | lock (who line) (hl : g.streamLocked = false) (hs : g.stream ≠ none) :
    StreamEffect g (.write who line .stream) .go { g with streamLocked := true } (.write who line .deadline)
  | deadline (who line ms) : StreamEffect g (.write who line .deadline) .go g (.write who line (.write ms))
  | finish (who line ms r) {g' q} (hl : g'.streamLocked = false) (hs : g'.stream = g.stream) (hq : q.ahead = false) :
    StreamEffect g (.write who line (.write ms)) (.io r) g' q
  | opened (addr) (hl : g.streamLocked = false) :
    StreamEffect g (.connStream addr) .go { g with stream := some addr } .connState
  | other {p a g' q} (hp : p.holds = false) (hq : q.holds = false) (hopen : ∀ addr, p ≠ .connStream addr)
    (hl : g'.streamLocked = g.streamLocked)
    (hs : g'.stream = g.stream ∨ (g.streamLocked = false ∧ g'.stream = none))
    (hahead : q.ahead = true → p.ahead = true) (hline : ∀ line, q.line? = some line → IsLine line) :
    StreamEffect g p a g' q

theorem ackStep_other (left : Nat) (r : Except QQClientError (Option Packet)) :
    (ackStep left r).holds = false ∧ (ackStep left r).ahead = false ∧ (ackStep left r).line? = none := by
  unfold ackStep
  split
  · exact ⟨rfl, rfl, rfl⟩
  · exact ⟨rfl, rfl, rfl⟩
  · split_ifs
    · split <;> exact ⟨rfl, rfl, rfl⟩
    · exact ⟨rfl, rfl, rfl⟩
    · split <;> exact ⟨rfl, rfl, rfl⟩

theorem next_other (w : Writer) : w.next.ahead = false := by cases w <;> rfl

/-- Receiving takes the stream out for good if a conversion fails, which needs the lock. -/
theorem recvOnce_stream {g g' : Shared} {r : RecvAt} {a : Act} {x} (h : recvOnce g r a = some (g', x)) :
    g'.streamLocked = g.streamLocked ∧ (g'.stream = g.stream ∨ (g.streamLocked = false ∧ g'.stream = none)) := by
  unfold recvOnce at h
  split at h
  · split at h <;> cases h <;> exact ⟨rfl, .inl rfl⟩
  · cases h
    exact ⟨rfl, .inl rfl⟩
  · split_ifs at h with hl
    split at h
    · cases h
      exact ⟨rfl, .inl rfl⟩
    · cases h
      exact ⟨rfl, .inl rfl⟩
    · cases h
      exact ⟨rfl, .inr ⟨by simpa using hl, rfl⟩⟩
  · cases h
    exact ⟨rfl, .inl rfl⟩
  · cases h
    exact ⟨rfl, .inl rfl⟩
  · cases h

/-- A step that leaves the lock, the stream and the lines alone. -/
theorem StreamEffect.quiet {g g' : Shared} {p q : Pc} {a : Act} (hp : p.holds = false) (hq : q.holds = false)
    (hopen : ∀ addr, p ≠ .connStream addr) (hl : g'.streamLocked = g.streamLocked) (hs : g'.stream = g.stream)
    (hahead : q.ahead = false) (hline : q.line? = none) : StreamEffect g p a g' q :=
  .other hp hq hopen hl (.inl hs) (fun h => by rw [hahead] at h; cases h) (fun line h => by rw [hline] at h; cases h)

theorem writeLine_stream {g g' : Shared} {who : Writer} {line : String} {w : WriteAt} {a : Act} {q : Pc}
    (h : writeLine g who line w a = some (g', q)) : StreamEffect g (.write who line w) a g' q := by
  unfold writeLine at h
  split at h
  · split_ifs at h with hl hs
    · cases h
      exact .quiet rfl rfl (fun _ he => by cases he) rfl rfl rfl rfl
    · cases h
      exact .lock who line (by simpa using hl) hs
  · cases h
    exact .deadline who line _
  · cases h
    exact .finish who line _ _ rfl rfl (next_other who)
  · cases h
    exact .finish who line _ _ rfl rfl rfl
  · cases h
    exact .finish who line _ _ rfl rfl rfl
  · cases h

theorem act_stream {g g' : Shared} {p q : Pc} {a : Act} (h : act g p a = some (g', q)) :
    StreamEffect g p a g' q := by
  unfold act at h
  split at h
  case h_6 =>
    split_ifs at h with hl
    cases h
    exact .opened _ (by simpa using hl)
  case h_8 => exact writeLine_stream h
  case h_9 =>
    obtain ⟨⟨g1, x⟩, hr, hx⟩ := Option.map_eq_some_iff.1 h
    obtain ⟨hl, hs⟩ := recvOnce_stream hr
    cases x with
    | inl r =>
      cases hx
      exact .other rfl rfl (fun _ he => by cases he) hl hs (fun he => he) (fun line he => by cases he)
    | inr r =>
      cases hx
      obtain ⟨h1, h2, h3⟩ := ackStep_other _ r
      refine .other rfl h1 (fun _ he => by cases he) hl hs (fun he => ?_) (fun line he => ?_)
      · rw [h2] at he
        cases he
      · rw [h3] at he
        cases he
  case h_12 =>
    obtain ⟨⟨g1, x⟩, hr, hx⟩ := Option.map_eq_some_iff.1 h
    obtain ⟨hl, hs⟩ := recvOnce_stream hr
    cases x <;> cases hx <;>
      exact .other rfl rfl (fun _ he => by cases he) hl hs (fun he => he) (fun line he => by cases he)
  case h_13 ms =>
    split_ifs at h with hs
    · cases h
      exact .quiet rfl rfl (fun _ he => by cases he) rfl rfl rfl rfl
    · cases h
      refine .other rfl rfl (fun _ he => by cases he) rfl (.inl rfl) (fun _ => rfl) (fun line he => ?_)
      rw [← Option.some.inj he]
      exact isLine _ _
  case h_16 =>
    split_ifs at h with hl
    cases h
    exact .other rfl rfl (fun _ he => by cases he) rfl (.inr ⟨by simpa using hl, rfl⟩) (fun he => he)
      (fun line he => by cases he)
  case h_21 => cases h
  all_goals
    cases h
    exact .quiet rfl rfl (fun _ he => by cases he) rfl rfl rfl rfl

/-- The first step of a call holds nothing, and a line it is to write is one of a packet. -/
theorem start_stream {g g' : Shared} {op : Op} {p : Pc} (h : start g op = some (g', p)) :
    p.holds = false ∧ g'.streamLocked = g.streamLocked ∧ g'.stream = g.stream ∧
      ∀ line, p.line? = some line → IsLine line := by
  have hnone : ∀ {p : Pc}, p.line? = none → ∀ line, p.line? = some line → IsLine line := by
    intro p hp line he
    rw [hp] at he
    cases he
  cases op with
  | connect config =>
    simp only [start] at h
    split_ifs at h
    · cases h
      exact ⟨rfl, rfl, rfl, hnone rfl⟩
    · split at h <;> cases h <;> exact ⟨rfl, rfl, rfl, hnone rfl⟩
  | login account password =>
    simp only [start] at h
    split_ifs at h <;> cases h
    · exact ⟨rfl, rfl, rfl, hnone rfl⟩
    · exact ⟨rfl, rfl, rfl, hnone rfl⟩
    · refine ⟨rfl, rfl, rfl, fun line he => ?_⟩
      rw [← Option.some.inj he]
      exact isLine _ _
  | sendPacket packet =>
    simp only [start] at h
    split_ifs at h <;> cases h
    · exact ⟨rfl, rfl, rfl, hnone rfl⟩
    · refine ⟨rfl, rfl, rfl, fun line he => ?_⟩
      rw [← Option.some.inj he]
      exact isLine _ _
  | receivePacket =>
    simp only [start] at h
    split_ifs at h <;> cases h <;> exact ⟨rfl, rfl, rfl, hnone rfl⟩
  | heartbeat interval =>
    simp only [start] at h
    split_ifs at h <;> cases h <;> exact ⟨rfl, rfl, rfl, hnone rfl⟩
  | disconnect =>
    cases h
    exact ⟨rfl, rfl, rfl, hnone rfl⟩

end NapCat.QQClient.Tcp
