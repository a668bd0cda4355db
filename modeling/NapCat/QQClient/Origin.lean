/-
Whose lines are on the connections of a `TcpQQClient`: a line is that of the packet which its call was made to send,
or it is a login or a heartbeat.
-/
import NapCat.QQClient.PeerReads

namespace NapCat.QQClient.Outbound

open Tcp CutWrites Threads

/-- The packets that the client makes up itself. -/
def IsControl (p : Packet) : Prop := p.route = "auth.login" ∨ p.route = "system.heartbeat"

/-- Call `i` was made to send the packet, or the packet is the client's own. -/
def Owns (ops : List Op) (i : Nat) (p : Packet) : Prop := ops[i]? = some (.sendPacket p) ∨ IsControl p

/-- The lines on the connections have their owners. -/
def AllOwned (ops : List Op) (conns : List Conn) : Prop :=
  ∀ c ∈ conns, ∀ k ∈ c.written, Owns ops k.frame.call k.frame.packet

/-- The lines that calls are to write, and those on the connections, are their own. -/
structure Owned (s : Sys) : Prop where
  length : s.ops.length = s.client.calls.length
  calls : ∀ i q l, s.client.calls[i]? = some q → q.line? = some l →
    ∃ p : Packet, l = buildWireLine p.route p.payload ∧ Owns s.ops i p
  lines : AllOwned s.ops s.conns

theorem Owns.grow {ops : List Op} {i : Nat} {p : Packet} (h : Owns ops i p) (op : Op) : Owns (ops ++ [op]) i p := by
  rcases h with h | h
  · exact .inl ((List.getElem?_append_left (List.getElem?_eq_some_iff.1 h).1).trans h)
  · exact .inr h

/-- The line of a call that begins. -/
theorem start_line {g g' : Shared} {op : Op} {q : Pc} {l : String} (h : start g op = some (g', q))
    (hl : q.line? = some l) :
    ∃ p : Packet, l = buildWireLine p.route p.payload ∧ (op = .sendPacket p ∨ IsControl p) := by
  cases op with
  | connect config =>
    simp only [start] at h
    split_ifs at h
    · cases h
      cases hl
    · split at h <;> cases h <;> cases hl
  | login account password =>
    simp only [start] at h
    split_ifs at h <;> cases h
    · cases hl
    · cases hl
    · exact ⟨⟨_, _⟩, (Option.some.inj hl).symm, .inr (.inl rfl)⟩
  | sendPacket packet =>
    simp only [start] at h
    split_ifs at h <;> cases h
    · cases hl
    · exact ⟨packet, (Option.some.inj hl).symm, .inl rfl⟩
  | receivePacket =>
    simp only [start] at h
    split_ifs at h <;> cases h <;> cases hl
  | heartbeat interval =>
    simp only [start] at h
    split_ifs at h <;> cases h <;> cases hl
  | disconnect =>
    cases h
    cases hl

theorem writeLine_line {g g' : Shared} {who : Writer} {line : String} {w : WriteAt} {a : Act} {q : Pc} {l : String}
    (h : writeLine g who line w a = some (g', q)) (hl : q.line? = some l) : line = l := by
  unfold writeLine at h
  split at h
  · split_ifs at h <;> cases h
    · cases hl
    · exact Option.some.inj hl
  · cases h
    exact Option.some.inj hl
  · cases h
    cases who <;> cases hl
  · cases h
    cases hl
  · cases h
    cases hl
  · cases h

/-- A call keeps its line, and takes up one for a heartbeat. -/
theorem act_line {g g' : Shared} {p q : Pc} {a : Act} {l : String} (h : act g p a = some (g', q))
    (hl : q.line? = some l) :
    p.line? = some l ∨ ∃ p' : Packet, l = buildWireLine p'.route p'.payload ∧ IsControl p' := by
  unfold act at h
  split at h
  case h_6 =>
    split_ifs at h
    cases h
    cases hl
  case h_8 => exact .inl (congrArg some (writeLine_line h hl))
  case h_9 =>
    obtain ⟨⟨g1, x⟩, -, hx⟩ := Option.map_eq_some_iff.1 h
    cases x with
    | inl r =>
      cases hx
      cases hl
    | inr r =>
      cases hx
      rw [(ackStep_other _ r).2.2] at hl
      cases hl
  case h_12 =>
    obtain ⟨⟨g1, x⟩, -, hx⟩ := Option.map_eq_some_iff.1 h
    cases x <;> cases hx <;> cases hl
  case h_13 ms =>
    split_ifs at h <;> cases h
    · cases hl
    · exact .inr ⟨⟨_, _⟩, (Option.some.inj hl).symm, .inr rfl⟩
  case h_16 =>
    split_ifs at h
    cases h
    cases hl
  case h_21 => cases h
  all_goals
    cases h
    cases hl

/-- The lines of a connection whose line ends are those it had. -/
theorem AllOwned.finish {ops : List Op} {c : Conn} {conns : List Conn} (h : AllOwned ops (c :: conns)) (acked : Bool) :
    AllOwned ops (c.finish acked :: conns) := by
  intro x hx k hk
  rcases List.mem_cons.1 hx with rfl | hx
  · obtain ⟨bytes, cuts, current⟩ := c
    cases current with
    | none => exact h _ List.mem_cons_self k (by simpa [Conn.finish, Conn.written] using hk)
    | some k' =>
      have hk : k ∈ cuts ∨ k = { k' with frame := { k'.frame with acked := acked } } := by
        simpa [Conn.finish, Conn.written] using hk
      rcases hk with hk | rfl
      · exact h _ List.mem_cons_self k (List.mem_append_left _ hk)
      · exact h _ List.mem_cons_self k' (List.mem_append_right _ List.mem_cons_self)
  · exact h x (List.mem_cons_of_mem c hx) k hk

theorem AllOwned.onAct {ops : List Op} {p : Pc} {a : Act} {conns conns' : List Conn} (h : AllOwned ops conns)
    (hs : onAct p a conns = some conns') : AllOwned ops conns' := by
  unfold Outbound.onAct at hs
  split at hs
  · cases hs
    intro c hc k hk
    rcases List.mem_cons.1 hc with rfl | hc
    · cases hk
    · exact h c hc k hk
  · split_ifs at hs
    cases hs
    exact h.finish true
  · cases hs
    exact h.finish false
  · cases hs
    exact h

/-- The socket takes more of a line. -/
theorem feed_lines {ops : List Op} {c : Conn} {i n : Nat} {p : Packet} (hp : Owns ops i p)
    (hc : ∀ k ∈ c.written, Owns ops k.frame.call k.frame.packet) :
    ∀ k ∈ (c.feed i (buildWireLine p.route p.payload) n).written, Owns ops k.frame.call k.frame.packet := by
  intro k hk
  rw [Conn.written, Conn.feed, packetOfLine_build] at hk
  rcases List.mem_append.1 hk with hk | hk
  · exact hc k (List.mem_append_left _ hk)
  · rw [List.mem_singleton.1 hk]
    exact hp

theorem step_owned (s : Sys) (e : Event) (s' : Sys) (h : Owned s) (hs : step s e = some s') : Owned s' := by
  cases e with
  | start op =>
    simp only [step] at hs
    obtain ⟨client, hcl, rfl⟩ := Option.map_eq_some_iff.1 hs
    obtain ⟨g, q, hst, rfl⟩ := step_start hcl
    refine ⟨by simp [h.length], fun i q' l hi hl => ?_, fun c hc k hk => (h.lines c hc k hk).grow op⟩
    rcases get_append hi with ⟨rfl, rfl⟩ | hi
    · obtain ⟨p, hp, hop⟩ := start_line hst hl
      refine ⟨p, hp, hop.imp (fun he => ?_) id⟩
      rw [← h.length, ← he]
      exact List.getElem?_concat_length
    · obtain ⟨p, hp, hop⟩ := h.calls i q' l hi hl
      exact ⟨p, hp, hop.grow op⟩
  | act i a =>
    simp only [step] at hs
    obtain ⟨q, hi, hs⟩ := Option.bind_eq_some_iff.1 hs
    obtain ⟨conns, hconns, hs⟩ := Option.bind_eq_some_iff.1 hs
    obtain ⟨client, hcl, rfl⟩ := Option.map_eq_some_iff.1 hs
    obtain ⟨q', g, r, hi', hact, rfl⟩ := step_act hcl
    obtain rfl : q = q' := Option.some.inj (hi.symm.trans hi')
    refine ⟨h.length.trans (List.length_set ..).symm, fun j x l hj hl => ?_, h.lines.onAct hconns⟩
    rcases get_set hj with ⟨rfl, rfl⟩ | ⟨-, hj⟩
    · rcases act_line hact hl with hline | ⟨p, hp, hcontrol⟩
      · exact h.calls _ q l hi hline
      · exact ⟨p, hp, .inr hcontrol⟩
    · exact h.calls j x l hj hl
  | feed i n =>
    simp only [step] at hs
    split at hs
    case h_2 => cases hs
    rename_i who line ms c conns hi hc
    split_ifs at hs
    cases hs
    obtain ⟨p, rfl, hp⟩ := h.calls i _ line hi rfl
    refine ⟨h.length, h.calls, fun x hx => ?_⟩
    rcases List.mem_cons.1 hx with rfl | hx
    · exact feed_lines hp (h.lines c (by rw [hc]; exact List.mem_cons_self))
    · exact h.lines x (by rw [hc]; exact List.mem_cons_of_mem c hx)
  | drop i =>
    simp only [step] at hs
    split at hs
    · cases hs
    rename_i q hi
    have hcalls : ∀ j x l, (s.client.calls.set i .panicked)[j]? = some x → x.line? = some l →
        ∃ p : Packet, l = buildWireLine p.route p.payload ∧ Owns s.ops j p := by
      intro j x l hj hl
      rcases get_set hj with ⟨-, rfl⟩ | ⟨-, hj⟩
      · cases hl
      · exact h.calls j x l hj hl
    split_ifs at hs with hq
    · split at hs
      · cases hs
      rename_i c conns hc
      cases hs
      have hlines := h.lines
      rw [hc] at hlines
      exact ⟨h.length.trans (List.length_set ..).symm, hcalls, hlines.finish false⟩
    · cases hs
      exact ⟨h.length.trans (List.length_set ..).symm, hcalls, h.lines⟩

theorem Owned.init : Owned {} where
  length := rfl
  calls i q l hi := by cases hi
  lines c hc := by cases hc

end NapCat.QQClient.Outbound
