/-
What the peer of a `TcpQQClient` gets. The stream lock is held while a line is written, and `write_all` hands the
bytes to the socket piece by piece: a deadline, an error or a caller that drops its call can cut the line off, and
the stream stays in its slot for the next writer. In every run the packets that arrive are those of the lines written
whole, in the order in which the lock was taken, but for a line that comes right after a cut one.
-/
import NapCat.QQClient.StreamLock
import NapCat.QQClient.TornLine
import Mathlib.Data.List.Nodup

namespace NapCat.QQClient.Outbound

open Tcp CutWrites Threads

/-- The packet of a line that has been written in part or whole: the call that wrote it, and whether the call was
told that the line is written. -/
structure Sent where
  call : Nat
  packet : Packet
  acked : Bool
  deriving DecidableEq, Repr

abbrev codec : Codec Sent Packet UInt8 := wireCodec Sent.packet

/-- The stream of one connection: the bytes the socket has taken, the lines they belong to, and the line that is
being written. -/
structure Conn where
  bytes : List UInt8 := []
  cuts : List (Cut Sent) := []
  current : Option (Cut Sent) := none

/-- The client, its connections, the last one opened first, and what its calls were made for. -/
structure Sys where
  client : Tcp.Sys := ⟨{}, []⟩
  conns : List Conn := []
  ops : List Op := []

/-- A step of the client; the socket takes `n` bytes of the line a call is writing; a caller drops its call. -/
inductive Event
  | start (op : Op)
  | act (i : Nat) (a : Act)
  | feed (i n : Nat)
  | drop (i : Nat)

/-- The bytes `write_all` is called with. -/
def lineBytes (line : String) : List UInt8 := Text.utf8 (line ++ "\n")

def packetOfLine (line : String) : Option Packet :=
  match parseWireLine line with
  | .ok p => some p
  | .error _ => none

def Conn.written (c : Conn) : List (Cut Sent) := c.cuts ++ c.current.toList

/-- How much of the current line the socket has taken. -/
def Conn.fed (c : Conn) : Nat := (c.current.map Cut.taken).getD 0

def Conn.feed (c : Conn) (i : Nat) (line : String) (n : Nat) : Conn where
  bytes := c.bytes ++ ((lineBytes line).drop c.fed).take n
  cuts := c.cuts
  current := (packetOfLine line).map fun p => ⟨⟨i, p, false⟩, c.fed + n⟩

def Conn.finish (c : Conn) (acked : Bool) : Conn where
  bytes := c.bytes
  cuts := c.cuts ++ (c.current.map fun k => { k with frame := { k.frame with acked := acked } }).toList
  current := none

/-- What a step of a call does to the connections. `write_all` succeeds when the socket has taken the whole line. -/
def onAct (p : Pc) (a : Act) (conns : List Conn) : Option (List Conn) :=
  match p, a, conns with
  | .connStream _, _, conns => some ({} :: conns)
  | .write _ line (.write _), .io .ok, c :: conns =>
    if c.fed = (lineBytes line).length then some (c.finish true :: conns) else none
  | .write _ _ (.write _), .io _, c :: conns => some (c.finish false :: conns)
  | _, _, conns => some conns

def step (s : Sys) : Event → Option Sys
  | .start op => (Tcp.step s.client (.start op)).map fun client => { s with client := client, ops := s.ops ++ [op] }
  | .act i a => s.client.calls[i]?.bind fun p => (onAct p a s.conns).bind fun conns =>
      (Tcp.step s.client (.act i a)).map fun client => { s with client := client, conns := conns }
  | .feed i n =>
    match s.client.calls[i]?, s.conns with
    | some (.write _ line (.write _)), c :: conns =>
      if 0 < n ∧ c.fed + n ≤ (lineBytes line).length then some { s with conns := c.feed i line n :: conns } else none
    | _, _ => none
  -- a call that is dropped runs no further and, as one that panics, lets go of what it holds
  | .drop i =>
    match s.client.calls[i]?, s.conns with
    | none, _ => none
    | some p, conns =>
      let calls := s.client.calls.set i .panicked
      if p.holds then
        match conns with
        | [] => none
        | c :: conns =>
          some { s with
            client := ⟨{ s.client.shared with streamLocked := false }, calls⟩
            conns := c.finish false :: conns }
      else some { s with client := ⟨s.client.shared, calls⟩ }

/-- The packets a peer reads from the bytes that have come in. -/
def peerPackets (bytes : List UInt8) : List Packet := codec.read bytes

/-! ## The connections along a run -/

/-- What a connection keeps: its bytes are those of its lines, each line has been handed over in part or whole, and
whole if its call was told so, and no call has two. -/
structure Conn.Ok (c : Conn) : Prop where
  bytes : c.bytes = codec.stream c.written
  taken : ∀ k ∈ c.written, 0 < k.taken ∧ k.taken ≤ (codec.encode k.frame).length
  acked : ∀ k ∈ c.written, k.frame.acked = true → codec.whole k = true
  calls : (c.written.map fun k => k.frame.call).Nodup

/-- The lock is held by one call at most, which is the one that writes the current line, and a call that has written
its line writes no other. -/
structure Inv (s : Sys) : Prop where
  line : ∀ p ∈ s.client.calls, ∀ l, p.line? = some l → IsLine l
  one : AtMostOne (fun p => p.holds = true) s.client.calls
  locked : ∀ p ∈ s.client.calls, p.holds = true → s.client.shared.streamLocked = true
  stream : s.client.shared.streamLocked = true → s.client.shared.stream ≠ none
  opened : s.client.shared.stream ≠ none → s.conns ≠ []
  conns : ∀ c ∈ s.conns, c.Ok
  closed : ∀ c ∈ s.conns.tail, c.current = none
  current : ∀ c ∈ s.conns.head?, ∀ k ∈ c.current, k.frame.acked = false ∧ ∃ who ms,
    s.client.calls[k.frame.call]? =
      some (.write who (buildWireLine k.frame.packet.route k.frame.packet.payload) (.write ms))
  past : ∀ c ∈ s.conns, ∀ k ∈ c.cuts, ∃ p, s.client.calls[k.frame.call]? = some p ∧ p.ahead = false

theorem Inv.init : Inv {} where
  line p hp := by cases hp
  one i j p q hi := by cases hi
  locked p hp := by cases hp
  stream h := by cases h
  opened h := absurd rfl h
  conns c hc := by cases hc
  closed c hc := by cases hc
  current c hc := by cases hc
  past c hc := by cases hc

theorem packetOfLine_build (p : Packet) : packetOfLine (buildWireLine p.route p.payload) = some p := by
  rw [packetOfLine, parseWireLine_build]

theorem buildWireLine_inj {p q : Packet} (h : buildWireLine p.route p.payload = buildWireLine q.route q.payload) :
    p = q := by
  have := packetOfLine_build p
  rw [h, packetOfLine_build, Option.some.injEq] at this
  exact this.symm

theorem lineBytes_build (p : Packet) : lineBytes (buildWireLine p.route p.payload) = wireBytes p := rfl

/-- A call that ends no write steps, or a new one begins: what is said of the connections is kept. -/
theorem Inv.frame {s : Sys} {client : Tcp.Sys} (h : Inv s)
    (hline : ∀ p ∈ client.calls, ∀ l, p.line? = some l → IsLine l)
    (hone : AtMostOne (fun p => p.holds = true) client.calls)
    (hlocked : ∀ p ∈ client.calls, p.holds = true → client.shared.streamLocked = true)
    (hstream : client.shared.streamLocked = true → client.shared.stream ≠ none)
    (hopened : client.shared.stream ≠ none → s.conns ≠ [])
    (hcurrent : ∀ (i : Nat) who line ms, s.client.calls[i]? = some (.write who line (.write ms)) →
      client.calls[i]? = some (.write who line (.write ms)))
    (hpast : ∀ (i : Nat) p, s.client.calls[i]? = some p → p.ahead = false →
      ∃ q, client.calls[i]? = some q ∧ q.ahead = false) : Inv { s with client := client } where
  line := hline
  one := hone
  locked := hlocked
  stream := hstream
  opened := hopened
  conns := h.conns
  closed := h.closed
  current c hc k hk := by
    obtain ⟨ha, who, ms, hw⟩ := h.current c hc k hk
    exact ⟨ha, who, ms, hcurrent _ _ _ _ hw⟩
  past c hc k hk := by
    obtain ⟨p, hp, ha⟩ := h.past c hc k hk
    exact hpast _ p hp ha

/-- The other calls stay where they are. -/
theorem past_set {calls : List Pc} {i : Nat} {p q : Pc} (hi : calls[i]? = some p)
    (hahead : q.ahead = true → p.ahead = true) (j : Nat) (r : Pc) (hj : calls[j]? = some r) (hr : r.ahead = false) :
    ∃ r', (calls.set i q)[j]? = some r' ∧ r'.ahead = false := by
  by_cases hij : i = j
  · subst hij
    obtain rfl : p = r := Option.some.inj (hi.symm.trans hj)
    refine ⟨q, List.getElem?_set_self (List.getElem?_eq_some_iff.1 hi).1, ?_⟩
    rw [← Bool.not_eq_true] at hr ⊢
    exact fun hq => hr (hahead hq)
  · exact ⟨r, (List.getElem?_set_ne hij).trans hj, hr⟩

theorem current_set {calls : List Pc} {i : Nat} {p : Pc} (q : Pc) (hi : calls[i]? = some p)
    (hin : ∀ who line ms, p ≠ .write who line (.write ms)) (j : Nat) (who : Writer) (line : String) (ms : UInt64)
    (hj : calls[j]? = some (.write who line (.write ms))) :
    (calls.set i q)[j]? = some (.write who line (.write ms)) := by
  have hij : i ≠ j := by
    rintro rfl
    exact hin who line ms (Option.some.inj (hi.symm.trans hj))
  exact (List.getElem?_set_ne hij).trans hj

/-- With the lock free no call is inside. -/
theorem Inv.free {s : Sys} (h : Inv s) (hl : s.client.shared.streamLocked = false) :
    ∀ p ∈ s.client.calls, p.holds = false := by
  intro p hp
  by_contra hh
  rw [h.locked p hp (by simpa using hh)] at hl
  cases hl

theorem Inv.start {s : Sys} {g : Shared} {op : Op} {p : Pc} (h : Inv s)
    (hs : Tcp.start s.client.shared op = some (g, p)) : Inv { s with client := ⟨g, s.client.calls ++ [p]⟩ } := by
  obtain ⟨hp, hl, hstream, hline⟩ := start_stream hs
  apply h.frame
  · exact forall_append h.line hline
  · apply h.one.append
    rw [hp]
    exact fun he => by cases he
  · refine forall_append (fun q hq hh => ?_) (fun hh => ?_)
    · exact hl.trans (h.locked q hq hh)
    · rw [hp] at hh
      cases hh
  · intro hg
    rw [hstream]
    exact h.stream (hl.symm.trans hg)
  · intro hg
    rw [hstream] at hg
    exact h.opened hg
  · intro i who line ms hi
    exact (List.getElem?_append_left (List.getElem?_eq_some_iff.1 hi).1).trans hi
  · intro i q hi hq
    exact ⟨q, (List.getElem?_append_left (List.getElem?_eq_some_iff.1 hi).1).trans hi, hq⟩

theorem codec_encode (f : Sent) : codec.encode f = wireBytes f.packet := wireCodec_encode Sent.packet f

theorem stream_append (xs ys : List (Cut Sent)) : codec.stream (xs ++ ys) = codec.stream xs ++ codec.stream ys :=
  List.flatMap_append

theorem stream_singleton (k : Cut Sent) : codec.stream [k] = (wireBytes k.frame.packet).take k.taken := by
  rw [Codec.stream, List.flatMap_singleton, Codec.written, codec_encode]

/-- A write ends: its line is what has been taken of it. -/
theorem Conn.Ok.finish {c : Conn} (h : c.Ok) {acked : Bool}
    (hacked : ∀ k ∈ c.current, acked = true → codec.whole k = true) : (c.finish acked).Ok := by
  obtain ⟨bytes, cuts, current⟩ := c
  cases current with
  | none => simpa [Conn.finish, Conn.written] using h
  | some k =>
    have hmem : ∀ x ∈ (Conn.finish ⟨bytes, cuts, some k⟩ acked).written,
        x ∈ cuts ∨ x = { k with frame := { k.frame with acked := acked } } := by
      intro x hx
      simpa [Conn.finish, Conn.written] using hx
    refine ⟨?_, fun x hx => ?_, fun x hx ha => ?_, ?_⟩
    · have := h.bytes
      simp only [Conn.written, Conn.finish, Option.toList_some, Option.toList_none, Option.map_some, List.append_nil,
        stream_append, stream_singleton] at this ⊢
      exact this
    · rcases hmem x hx with hx | rfl
      · exact h.taken x (List.mem_append_left _ hx)
      · exact h.taken k (List.mem_append_right _ List.mem_cons_self)
    · rcases hmem x hx with hx | rfl
      · exact h.acked x (List.mem_append_left _ hx) ha
      · exact hacked k rfl ha
    · have := h.calls
      simpa [Conn.written, Conn.finish] using this

/-- The socket takes more of a line. -/
theorem Conn.Ok.feed {c : Conn} (h : c.Ok) {i n : Nat} {p : Packet} (hn : 0 < n)
    (hle : c.fed + n ≤ (wireBytes p).length)
    (hcurrent : ∀ k ∈ c.current, k.frame = ⟨i, p, false⟩) (hfresh : ∀ k ∈ c.cuts, k.frame.call ≠ i) :
    (c.feed i (buildWireLine p.route p.payload) n).Ok ∧
      (c.feed i (buildWireLine p.route p.payload) n).current = some ⟨⟨i, p, false⟩, c.fed + n⟩ := by
  have hcur : (c.feed i (buildWireLine p.route p.payload) n).current = some ⟨⟨i, p, false⟩, c.fed + n⟩ := by
    rw [Conn.feed, packetOfLine_build]
    rfl
  have hwritten : (c.feed i (buildWireLine p.route p.payload) n).written = c.cuts ++ [⟨⟨i, p, false⟩, c.fed + n⟩] := by
    rw [Conn.written, hcur]
    rfl
  have hmem : ∀ k ∈ c.cuts, k ∈ c.written := fun k hk => List.mem_append_left _ hk
  refine ⟨⟨?_, fun k hk => ?_, fun k hk ha => ?_, ?_⟩, hcur⟩
  · -- what the socket had taken and what it takes is one part of the line
    have hstream : codec.stream c.written = codec.stream c.cuts ++ (wireBytes p).take c.fed := by
      rw [Conn.written, stream_append, Conn.fed]
      cases hk : c.current with
      | none =>
        rw [Option.map_none, Option.getD_none, List.take_zero]
        rfl
      | some k =>
        rw [Option.toList_some, Option.map_some, Option.getD_some, stream_singleton, hcurrent k hk]
    rw [hwritten, stream_append, stream_singleton, Conn.feed, h.bytes, hstream, lineBytes_build, List.append_assoc,
      ← List.take_add]
  · rw [hwritten] at hk
    rcases List.mem_append.1 hk with hk | hk
    · exact h.taken k (hmem k hk)
    · rw [List.mem_singleton.1 hk, codec_encode]
      exact ⟨Nat.add_pos_right _ hn, hle⟩
  · rw [hwritten] at hk
    rcases List.mem_append.1 hk with hk | hk
    · exact h.acked k (hmem k hk) ha
    · rw [List.mem_singleton.1 hk] at ha
      cases ha
  · rw [hwritten, List.map_append, List.map_singleton]
    have hcuts : (c.cuts.map fun k => k.frame.call).Nodup := by
      have := h.calls
      rw [Conn.written, List.map_append] at this
      exact this.of_append_left
    refine hcuts.append (List.nodup_singleton i) fun j hj hi => ?_
    obtain ⟨k, hk, rfl⟩ := List.mem_map.1 hj
    exact hfresh k hk (List.mem_singleton.1 hi)

/-! ## Each step -/

/-- A step outside of a write that opens no connection. -/
theorem onAct_quiet {p : Pc} (hopen : ∀ addr, p ≠ .connStream addr)
    (hin : ∀ who line ms, p ≠ .write who line (.write ms)) (a : Act) (conns : List Conn) : onAct p a conns = some conns := by
  unfold onAct
  split
  · exact absurd rfl (hopen _)
  · exact absurd rfl (hin _ _ _)
  · exact absurd rfl (hin _ _ _)
  · rfl

/-- How a write ends for its connection. -/
theorem onAct_write {who : Writer} {line : String} {ms : UInt64} {r : Io} {c : Conn} {conns conns' : List Conn}
    (h : onAct (.write who line (.write ms)) (.io r) (c :: conns) = some conns') :
    ∃ acked, conns' = c.finish acked :: conns ∧ (acked = true → c.fed = (lineBytes line).length) := by
  cases r with
  | ok =>
    simp only [onAct] at h
    split_ifs at h with hfed
    exact ⟨true, (Option.some.inj h).symm, fun _ => hfed⟩
  | expired =>
    simp only [onAct] at h
    exact ⟨false, (Option.some.inj h).symm, fun ha => by cases ha⟩
  | failed e =>
    simp only [onAct] at h
    exact ⟨false, (Option.some.inj h).symm, fun ha => by cases ha⟩

/-- Holding the lock a call writes to the last connection, and the current line is its own. -/
theorem Inv.holder {s : Sys} (h : Inv s) {i : Nat} {p : Pc} (hi : s.client.calls[i]? = some p) (hp : p.holds = true) :
    ∃ c conns, s.conns = c :: conns ∧ ∀ k ∈ c.current, k.frame.call = i := by
  have hne := h.opened (h.stream (h.locked p (mem_of_get hi) hp))
  obtain ⟨c, conns, hc⟩ := List.exists_cons_of_ne_nil hne
  refine ⟨c, conns, hc, fun k hk => ?_⟩
  obtain ⟨-, who, ms, hw⟩ := h.current c (by rw [hc]; rfl) k hk
  exact h.one _ _ _ _ hw hi rfl hp

/-- The current line is that of the call that is writing. -/
theorem Inv.current_frame {s : Sys} (h : Inv s) {i : Nat} {who : Writer} {p : Packet} {ms : UInt64} {c : Conn}
    {conns : List Conn}
    (hi : s.client.calls[i]? = some (.write who (buildWireLine p.route p.payload) (.write ms)))
    (hc : s.conns = c :: conns) : ∀ k ∈ c.current, k.frame = ⟨i, p, false⟩ := by
  intro k hk
  obtain ⟨c', conns', hc', hmine⟩ := h.holder hi rfl
  obtain ⟨rfl, rfl⟩ := List.cons.inj (hc.symm.trans hc')
  obtain ⟨ha, who', ms', hw⟩ := h.current c (by rw [hc]; rfl) k hk
  rw [hmine k hk, hi, Option.some.injEq, Pc.write.injEq] at hw
  obtain ⟨⟨call, packet, acked⟩, taken⟩ := k
  obtain rfl : call = i := hmine _ hk
  obtain rfl : acked = false := ha
  rw [buildWireLine_inj hw.2.1]

/-- A call leaves the lock: by its own step, or because it is dropped. -/
theorem Inv.leave {s : Sys} {i : Nat} {p q : Pc} {g : Shared} {c : Conn} {conns : List Conn} {acked : Bool} (h : Inv s)
    (hi : s.client.calls[i]? = some p) (hp : p.holds = true) (hc : s.conns = c :: conns) (hq : q.ahead = false)
    (hg : g.streamLocked = false) (hacked : ∀ k ∈ c.current, acked = true → codec.whole k = true) :
    Inv { s with client := ⟨g, s.client.calls.set i q⟩, conns := c.finish acked :: conns } := by
  have hnot : q.holds = false := by
    cases q <;> first | rfl | cases hq
  have hnone : q.line? = none := by
    cases q <;> first | rfl | cases hq
  obtain ⟨c', conns', hc', hmine⟩ := h.holder hi hp
  obtain ⟨rfl, rfl⟩ := List.cons.inj (hc.symm.trans hc')
  have hfree : ∀ r ∈ s.client.calls.set i q, r.holds = false := by
    intro r hr
    obtain ⟨j, hj, rfl⟩ := List.getElem_of_mem hr
    rcases get_set (List.getElem?_eq_getElem hj) with ⟨-, he⟩ | ⟨hne, he⟩
    · rw [he]
      exact hnot
    · by_contra hh
      exact hne (h.one _ _ _ _ he hi (by simpa using hh) hp)
  constructor
  · refine forall_set h.line fun l hl => ?_
    rw [hnone] at hl
    cases hl
  · intro j k r r' hj _ hr
    rw [hfree r (mem_of_get hj)] at hr
    cases hr
  · intro r hr hh
    rw [hfree r hr] at hh
    cases hh
  · intro hl
    rw [hg] at hl
    cases hl
  · exact fun _ => List.cons_ne_nil _ _
  · intro d hd
    rcases List.mem_cons.1 hd with rfl | hd
    · exact (h.conns c (by rw [hc]; exact List.mem_cons_self)).finish hacked
    · exact h.conns d (by rw [hc]; exact List.mem_cons_of_mem c hd)
  · intro d hd
    exact h.closed d (by rw [hc]; exact hd)
  · rintro d ⟨⟩ k hk
    cases hk
  · intro d hd k hk
    have hset := past_set hi (q := q) fun he => by
      rw [hq] at he
      cases he
    rcases List.mem_cons.1 hd with rfl | hd
    · rcases List.mem_append.1 hk with hk | hk
      · obtain ⟨r, hr, hra⟩ := h.past c (by rw [hc]; exact List.mem_cons_self) k hk
        exact hset _ r hr hra
      · obtain ⟨k', hk', rfl⟩ := Option.map_eq_some_iff.1 (Option.mem_toList.1 hk)
        refine ⟨q, ?_, hq⟩
        show (s.client.calls.set i q)[k'.frame.call]? = some q
        rw [hmine k' hk']
        exact List.getElem?_set_self (List.getElem?_eq_some_iff.1 hi).1
    · obtain ⟨r, hr, hra⟩ := h.past d (by rw [hc]; exact List.mem_cons_of_mem c hd) k hk
      exact hset _ r hr hra

theorem Inv.act {s : Sys} {i : Nat} {a : Act} {p q : Pc} {g : Shared} {conns : List Conn} (h : Inv s)
    (hi : s.client.calls[i]? = some p) (hconns : onAct p a s.conns = some conns)
    (ha : Tcp.act s.client.shared p a = some (g, q)) :
    Inv { s with client := ⟨g, s.client.calls.set i q⟩, conns := conns } := by
  cases act_stream ha with
  | lock who line hl hs =>
    rw [onAct_quiet (fun _ he => by cases he) (fun _ _ _ he => by cases he), Option.some.injEq] at hconns
    subst hconns
    have hline : IsLine line := h.line _ (mem_of_get hi) line rfl
    refine h.frame (forall_set h.line fun l he => by rw [← Option.some.inj he]; exact hline) ?_
      (fun _ _ _ => rfl) (fun _ => hs) h.opened (current_set _ hi fun _ _ _ he => by cases he)
      (past_set hi fun he => he)
    intro j k r r' hj hk hr hr'
    -- no call but this one is inside
    have honly : ∀ (j : Nat) r, (s.client.calls.set i (.write who line .deadline))[j]? = some r → r.holds = true →
        j = i := by
      intro j r hj hr
      rcases get_set hj with ⟨rfl, -⟩ | ⟨-, hj⟩
      · rfl
      · rw [h.free hl r (mem_of_get hj)] at hr
        cases hr
    rw [honly j r hj hr, honly k r' hk hr']
  | deadline who line ms =>
    rw [onAct_quiet (fun _ he => by cases he) (fun _ _ _ he => by cases he), Option.some.injEq] at hconns
    subst hconns
    have hline : IsLine line := h.line _ (mem_of_get hi) line rfl
    exact h.frame (forall_set h.line fun l he => by rw [← Option.some.inj he]; exact hline) (h.one.set hi fun _ => rfl)
      (forall_set h.locked fun _ => h.locked _ (mem_of_get hi) rfl) h.stream h.opened
      (current_set _ hi fun _ _ _ he => by cases he) (past_set hi fun he => he)
  | finish who line ms r hl hs hq =>
    obtain ⟨c, cs, hc, hmine⟩ := h.holder hi rfl
    rw [hc] at hconns
    obtain ⟨acked, rfl, hfed⟩ := onAct_write hconns
    refine h.leave hi rfl hc hq hl fun k hk hacked => ?_
    -- the line of the call is the current one
    obtain ⟨-, who', ms', hw⟩ := h.current c (by rw [hc]; rfl) k hk
    rw [hmine k hk, hi, Option.some.injEq, Pc.write.injEq] at hw
    obtain ⟨-, rfl, -⟩ := hw
    have hlen := hfed hacked
    rw [Conn.fed, hk, Option.map_some, Option.getD_some, lineBytes_build] at hlen
    rw [Codec.whole_iff, codec_encode, hlen]
  | opened addr hl =>
    cases hconns
    constructor
    · exact forall_set h.line fun l he => by cases he
    · exact h.one.set hi fun he => by cases he
    · exact forall_set (fun r hr hh => by rw [h.free hl r hr] at hh; cases hh) fun hh => by cases hh
    · exact fun _ he => by cases he
    · exact fun _ => List.cons_ne_nil _ _
    · intro c hc
      rcases List.mem_cons.1 hc with rfl | hc
      · exact ⟨rfl, (fun k hk => by cases hk), (fun k hk => by cases hk), List.nodup_nil⟩
      · exact h.conns c hc
    · -- the connection before this one is left with no line in the middle
      intro c hc
      change c ∈ s.conns at hc
      cases hs : s.conns with
      | nil =>
        rw [hs] at hc
        cases hc
      | cons d ds =>
        rw [hs] at hc
        rcases List.mem_cons.1 hc with rfl | hc
        · cases hk : c.current with
          | none => rfl
          | some k =>
            obtain ⟨-, who, ms, hw⟩ := h.current c (by rw [hs]; rfl) k hk
            have := h.free hl _ (mem_of_get hw)
            cases this
        · exact h.closed c (by rw [hs]; exact hc)
    · rintro c ⟨⟩ k hk
      cases hk
    · intro c hc k hk
      rcases List.mem_cons.1 hc with rfl | hc
      · cases hk
      · obtain ⟨r, hr, hra⟩ := h.past c hc k hk
        exact past_set hi (fun he => by cases he) _ r hr hra
  | other hp hq hopen hl hs hahead hline =>
    have hin : ∀ who line ms, p ≠ .write who line (.write ms) := by
      rintro who line ms rfl
      cases hp
    rw [onAct_quiet hopen hin, Option.some.injEq] at hconns
    subst hconns
    refine h.frame (forall_set h.line hline) (h.one.set hi fun he => ?_) ?_ ?_ ?_ (current_set _ hi hin)
      (past_set hi hahead)
    · rw [hq] at he
      cases he
    · refine forall_set (fun r hr hh => hl.trans (h.locked r hr hh)) fun hh => ?_
      rw [hq] at hh
      cases hh
    · intro hg
      have hlocked : s.client.shared.streamLocked = true := hl.symm.trans hg
      rcases hs with hs | ⟨hfree, -⟩
      · intro he
        exact h.stream hlocked (hs.symm.trans he)
      · rw [hfree] at hlocked
        cases hlocked
    · intro hg
      rcases hs with hs | ⟨-, hs⟩
      · exact h.opened fun he => hg (hs.trans he)
      · exact absurd hs hg

theorem Inv.feed {s s' : Sys} {i n : Nat} (h : Inv s) (hs : step s (.feed i n) = some s') : Inv s' := by
  simp only [step] at hs
  split at hs
  case h_2 => cases hs
  rename_i who line ms c conns hi hc
  split_ifs at hs with hn
  cases hs
  obtain ⟨p, rfl⟩ := h.line _ (mem_of_get hi) line rfl
  have hcmem : c ∈ s.conns := by
    rw [hc]
    exact List.mem_cons_self
  have hcurrent : ∀ k ∈ c.current, k.frame = ⟨i, p, false⟩ := h.current_frame hi hc
  have hfresh : ∀ k ∈ c.cuts, k.frame.call ≠ i := by
    intro k hk he
    obtain ⟨r, hr, hra⟩ := h.past c hcmem k hk
    rw [he, hi] at hr
    cases hr
    cases hra
  obtain ⟨hok, hcur⟩ := (h.conns c hcmem).feed hn.1 hn.2 hcurrent hfresh
  refine ⟨h.line, h.one, h.locked, h.stream, fun _ => List.cons_ne_nil _ _, ?_, ?_, ?_, ?_⟩
  · intro d hd
    rcases List.mem_cons.1 hd with rfl | hd
    · exact hok
    · exact h.conns d (by rw [hc]; exact List.mem_cons_of_mem c hd)
  · intro d hd
    exact h.closed d (by rw [hc]; exact hd)
  · rintro d ⟨⟩ k hk
    rw [hcur] at hk
    cases hk
    exact ⟨rfl, who, ms, hi⟩
  · intro d hd k hk
    rcases List.mem_cons.1 hd with rfl | hd
    · exact h.past c hcmem k hk
    · exact h.past d (by rw [hc]; exact List.mem_cons_of_mem c hd) k hk

theorem Inv.drop {s s' : Sys} {i : Nat} (h : Inv s) (hs : step s (.drop i) = some s') : Inv s' := by
  simp only [step] at hs
  split at hs
  · cases hs
  rename_i p hi
  split_ifs at hs with hp
  · obtain ⟨c, conns, hc, -⟩ := h.holder hi hp
    rw [hc] at hs
    cases hs
    exact h.leave hi hp hc rfl rfl fun k _ ha => by cases ha
  · cases hs
    have hin : ∀ who line ms, p ≠ .write who line (.write ms) := by
      rintro who line ms rfl
      exact hp rfl
    exact h.frame (forall_set h.line fun l he => by cases he) (h.one.set hi fun he => by cases he)
      (forall_set h.locked fun he => by cases he) h.stream h.opened (current_set _ hi hin)
      (past_set hi fun he => by cases he)

theorem step_inv (s : Sys) (e : Event) (s' : Sys) (h : Inv s) (hs : step s e = some s') : Inv s' := by
  cases e with
  | start op =>
    simp only [step] at hs
    obtain ⟨client, hcl, rfl⟩ := Option.map_eq_some_iff.1 hs
    obtain ⟨g, p, hst, rfl⟩ := step_start hcl
    have h' := h.start hst
    exact ⟨h'.line, h'.one, h'.locked, h'.stream, h'.opened, h'.conns, h'.closed, h'.current, h'.past⟩
  | act i a =>
    simp only [step] at hs
    obtain ⟨p, hi, hs⟩ := Option.bind_eq_some_iff.1 hs
    obtain ⟨conns, hconns, hs⟩ := Option.bind_eq_some_iff.1 hs
    obtain ⟨client, hcl, rfl⟩ := Option.map_eq_some_iff.1 hs
    obtain ⟨p', g, q, hi', ha, rfl⟩ := step_act hcl
    obtain rfl : p = p' := Option.some.inj (hi.symm.trans hi')
    exact h.act hi hconns ha
  | feed i n => exact h.feed hs
  | drop i => exact h.drop hs

end NapCat.QQClient.Outbound
