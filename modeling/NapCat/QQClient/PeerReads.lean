/-
What a peer reads from the connections of a `TcpQQClient`, over every run: the packets of the lines written whole, but
for one that comes right after a cut line. A call of `send_packet` that was answered with success has its line on a
connection, and whether the peer reads it depends on the line before it alone.
-/
import NapCat.QQClient.Outbound

namespace NapCat.QQClient.Outbound

open Tcp CutWrites Threads

/-! ## The answers of `send_packet` -/

/-- Where a call of `send_packet` can be. It has been answered with success only if its line is on a connection. -/
inductive SendAt (conns : List Conn) (i : Nat) (p : Packet) : Pc → Prop
  | writing (w) : SendAt conns i p (.write .sendPacket (buildWireLine p.route p.payload) w)
  | refused (e) : SendAt conns i p (.done (.error e))
  | dropped : SendAt conns i p .panicked
  | answered (c k) (hc : c ∈ conns) (hk : k ∈ c.cuts) (hf : k.frame = ⟨i, p, true⟩) :
    SendAt conns i p (.done (.ok .unit))

structure Answered (s : Sys) : Prop where
  length : s.ops.length = s.client.calls.length
  sends : ∀ i p, s.ops[i]? = some (.sendPacket p) → ∃ q, s.client.calls[i]? = some q ∧ SendAt s.conns i p q

/-- What is on a connection stays on it. -/
theorem SendAt.mono {conns conns' : List Conn} (h : ∀ c ∈ conns, ∀ k ∈ c.cuts, ∃ c' ∈ conns', k ∈ c'.cuts) {i : Nat}
    {p : Packet} {q : Pc} (hq : SendAt conns i p q) : SendAt conns' i p q := by
  cases hq with
  | writing w => exact .writing w
  | refused e => exact .refused e
  | dropped => exact .dropped
  | answered c k hc hk hf =>
    obtain ⟨c', hc', hk'⟩ := h c hc k hk
    exact .answered c' k hc' hk' hf

theorem cuts_same (conns : List Conn) : ∀ c ∈ conns, ∀ k ∈ c.cuts, ∃ c' ∈ conns, k ∈ c'.cuts :=
  fun c hc _ hk => ⟨c, hc, hk⟩

theorem cuts_head {c d : Conn} {conns : List Conn} (h : ∀ k ∈ c.cuts, k ∈ d.cuts) :
    ∀ x ∈ c :: conns, ∀ k ∈ x.cuts, ∃ x' ∈ d :: conns, k ∈ x'.cuts := by
  intro x hx k hk
  rcases List.mem_cons.1 hx with rfl | hx
  · exact ⟨d, List.mem_cons_self, h k hk⟩
  · exact ⟨x, List.mem_cons_of_mem d hx, hk⟩

theorem finish_cuts (c : Conn) (acked : Bool) : ∀ k ∈ c.cuts, k ∈ (c.finish acked).cuts :=
  fun _ hk => List.mem_append_left _ hk

theorem onAct_cuts {p : Pc} {a : Act} {conns conns' : List Conn} (h : onAct p a conns = some conns') :
    ∀ c ∈ conns, ∀ k ∈ c.cuts, ∃ c' ∈ conns', k ∈ c'.cuts := by
  unfold onAct at h
  split at h
  · cases h
    exact fun c hc k hk => ⟨c, List.mem_cons_of_mem _ hc, hk⟩
  · split_ifs at h
    cases h
    exact cuts_head (finish_cuts _ true)
  · cases h
    exact cuts_head (finish_cuts _ false)
  · cases h
    exact cuts_same _

/-- A step of `send_packet`. -/
theorem SendAt.act {s : Sys} {i : Nat} {a : Act} {p : Packet} {q r : Pc} {g : Shared} {conns : List Conn} (h : Inv s)
    (hi : s.client.calls[i]? = some q) (hconns : onAct q a s.conns = some conns)
    (ha : Tcp.act s.client.shared q a = some (g, r)) (hq : SendAt s.conns i p q) : SendAt conns i p r := by
  cases hq with
  | refused e => cases ha
  | dropped => cases ha
  | answered c k hc hk hf => cases ha
  | writing w =>
    have hw : writeLine s.client.shared .sendPacket (buildWireLine p.route p.payload) w a = some (g, r) := ha
    unfold writeLine at hw
    split at hw
    · split_ifs at hw <;> cases hw
      · exact .refused _
      · exact .writing _
    · cases hw
      exact .writing _
    · cases hw
      obtain ⟨c, cs, hc, -⟩ := h.holder hi rfl
      rw [hc] at hconns
      simp only [onAct] at hconns
      split_ifs at hconns with hfed
      rw [lineBytes_build] at hfed
      cases hconns
      cases hk : c.current with
      | none =>
        have hpos := codec.encode_pos ⟨i, p, false⟩
        rw [Conn.fed, hk] at hfed
        rw [codec_encode, ← hfed] at hpos
        cases hpos
      | some k =>
        have hframe := h.current_frame hi hc k hk
        refine .answered (c.finish true) { k with frame := { k.frame with acked := true } } List.mem_cons_self ?_ ?_
        · rw [Conn.finish, hk]
          exact List.mem_append_right _ List.mem_cons_self
        · rw [hframe]
    · cases hw
      exact .refused _
    · cases hw
      exact .refused _
    · cases hw

theorem step_answered {s s' : Sys} {e : Event} (h : Inv s) (ha : Answered s) (hs : step s e = some s') :
    Answered s' := by
  have hset : ∀ {i : Nat} {q r : Pc} {conns : List Conn}, s.client.calls[i]? = some q →
      (∀ c ∈ s.conns, ∀ k ∈ c.cuts, ∃ c' ∈ conns, k ∈ c'.cuts) → (∀ p, SendAt s.conns i p q → SendAt conns i p r) →
      ∀ j p, s.ops[j]? = some (.sendPacket p) → ∃ q, (s.client.calls.set i r)[j]? = some q ∧ SendAt conns j p q := by
    intro i q r conns hi hmono hstep j p hj
    obtain ⟨x, hx, hat⟩ := ha.sends j p hj
    by_cases hij : i = j
    · subst hij
      obtain rfl : q = x := Option.some.inj (hi.symm.trans hx)
      exact ⟨r, List.getElem?_set_self (List.getElem?_eq_some_iff.1 hi).1, hstep p hat⟩
    · exact ⟨x, (List.getElem?_set_ne hij).trans hx, hat.mono hmono⟩
  cases e with
  | start op =>
    simp only [step] at hs
    obtain ⟨client, hcl, rfl⟩ := Option.map_eq_some_iff.1 hs
    obtain ⟨g, q, hst, rfl⟩ := step_start hcl
    refine ⟨by simp only [List.length_append, ha.length, List.length_cons, List.length_nil], fun i p hi => ?_⟩
    rcases get_append hi with ⟨rfl, rfl⟩ | hi
    · refine ⟨q, by rw [ha.length]; exact List.getElem?_concat_length, ?_⟩
      have hst : Tcp.start s.client.shared (.sendPacket p) = some (g, q) := hst
      simp only [Tcp.start] at hst
      split_ifs at hst <;> cases hst
      · exact .refused _
      · exact .writing _
    · obtain ⟨x, hx, hat⟩ := ha.sends i p hi
      exact ⟨x, (List.getElem?_append_left (List.getElem?_eq_some_iff.1 hx).1).trans hx, hat⟩
  | act i a =>
    simp only [step] at hs
    obtain ⟨q, hi, hs⟩ := Option.bind_eq_some_iff.1 hs
    obtain ⟨conns, hconns, hs⟩ := Option.bind_eq_some_iff.1 hs
    obtain ⟨client, hcl, rfl⟩ := Option.map_eq_some_iff.1 hs
    obtain ⟨q', g, r, hi', hact, rfl⟩ := step_act hcl
    obtain rfl : q = q' := Option.some.inj (hi.symm.trans hi')
    exact ⟨ha.length.trans (List.length_set ..).symm,
      hset hi (onAct_cuts hconns) fun p hat => hat.act h hi hconns hact⟩
  | feed i n =>
    simp only [step] at hs
    split at hs
    case h_2 => cases hs
    rename_i who line ms c conns hi hc
    split_ifs at hs
    cases hs
    refine ⟨ha.length, fun j p hj => ?_⟩
    obtain ⟨x, hx, hat⟩ := ha.sends j p hj
    refine ⟨x, hx, hat.mono ?_⟩
    rw [hc]
    exact cuts_head fun k hk => hk
  | drop i =>
    simp only [step] at hs
    split at hs
    · cases hs
    rename_i q hi
    split_ifs at hs with hq
    · obtain ⟨c, conns, hc, -⟩ := h.holder hi hq
      rw [hc] at hs
      cases hs
      refine ⟨ha.length.trans (List.length_set ..).symm, hset hi ?_ fun p _ => .dropped⟩
      rw [hc]
      exact cuts_head (finish_cuts c false)
    · cases hs
      exact ⟨ha.length.trans (List.length_set ..).symm, hset hi (cuts_same _) fun p _ => .dropped⟩

/-! ## Every run -/

theorem run_inv {es : List Event} {s : Sys} (hs : Run.exec step {} es = some s) : Inv s ∧ Answered s := by
  refine Run.exec_inv_always (I := fun s => Inv s ∧ Answered s) (fun s e s' h hstep => ?_) es {} s ?_ hs
  · exact ⟨step_inv s e s' h.1 hstep, step_answered h.1 h.2 hstep⟩
  · exact ⟨.init, rfl, fun i p hi => by cases hi⟩

/-- Whatever the order of the calls, wherever writes are cut and calls dropped, the bytes of a connection are read as
the packets of its lines that are readable: those written whole, in the order of the writes, but for one after a cut
line. No more of them than lines were cut are missing, and with none cut all are there. -/
theorem peer_reads {es : List Event} {s : Sys} (hs : Run.exec step {} es = some s) {c : Conn} (hc : c ∈ s.conns) :
    peerPackets c.bytes = (codec.readable false c.written).map Sent.packet ∧
      (∀ bytes, bytes <+: c.bytes → peerPackets bytes <+: peerPackets c.bytes) ∧
      (peerPackets c.bytes).Sublist ((c.written.filter codec.whole).map fun k => k.frame.packet) ∧
      c.written.countP codec.whole ≤ (peerPackets c.bytes).length + c.written.countP codec.torn ∧
      ((∀ k ∈ c.written, codec.torn k = false) →
        peerPackets c.bytes = (c.written.filter codec.whole).map fun k => k.frame.packet) := by
  have hread : peerPackets c.bytes = (codec.readable false c.written).map Sent.packet := by
    rw [peerPackets, ((run_inv hs).1.conns c hc).bytes]
    exact codec.read_stream c.written
  have hmap : ((c.written.filter codec.whole).map Cut.frame).map Sent.packet =
      (c.written.filter codec.whole).map fun k => k.frame.packet := List.map_map
  refine ⟨hread, fun bytes h => codec.read_prefix h, ?_, ?_, fun h => ?_⟩
  · rw [hread, ← hmap]
    exact (codec.readable_sublist c.written false).map _
  · rw [hread, List.length_map]
    exact codec.whole_le_readable c.written false
  · rw [hread, codec.readable_of_untorn _ h, hmap]

/-- A login, and three packets of which the first is cut off by its deadline after five bytes. -/
def cutLine : List Event :=
  [.start (.connect { endpoint := "127.0.0.1:9000" }), .act 0 (.io .ok), .act 0 .go, .act 0 .go, .act 0 .go, .act 0 .go,
    .start (.login "a" "b"), .act 1 .go, .act 1 .go, .feed 1 74, .act 1 (.io .ok), .act 1 .go, .act 1 .go,
    .act 1 (.convert none), .act 1 (.read (.line (wireBytes ⟨"auth.ok", "{}"⟩))), .act 1 .go, .act 1 .go,
    .start (.sendPacket ⟨"r", "first"⟩), .act 2 .go, .act 2 .go, .feed 2 5, .act 2 (.io .expired),
    .start (.sendPacket ⟨"r", "second"⟩), .act 3 .go, .start (.sendPacket ⟨"r", "third"⟩), .act 3 .go, .feed 3 33,
    .act 3 (.io .ok), .act 4 .go, .act 4 .go, .feed 4 12, .feed 4 20, .act 4 (.io .ok)]

theorem peer_reads_cutLine : ∃ s, Run.exec step {} cutLine = some s ∧ ∃ c ∈ s.conns,
    peerPackets c.bytes = (codec.readable false c.written).map Sent.packet := by
  have hk : (Run.exec step {} cutLine).map (fun s => s.conns.length) = some 1 := by decide +kernel
  obtain ⟨s, hs, hlen⟩ := Option.map_eq_some_iff.1 hk
  obtain ⟨c, hc⟩ := List.length_pos_iff_exists_mem.1 (by rw [hlen]; decide)
  exact ⟨s, hs, c, hc, (peer_reads hs hc).1⟩

/-- The packet of a call of `send_packet` that has been answered with success. -/
def answered (s : Sys) (i : Nat) : Option Packet :=
  match s.ops[i]?, s.client.calls[i]? with
  | some (.sendPacket p), some (.done (.ok .unit)) => some p
  | _, _ => none

theorem answered_eq_some {s : Sys} {i : Nat} {p : Packet} (h : answered s i = some p) :
    s.ops[i]? = some (.sendPacket p) ∧ s.client.calls[i]? = some (.done (.ok .unit)) := by
  unfold answered at h
  split at h
  · rename_i q hop hcall
    rw [← Option.some.inj h]
    exact ⟨hop, hcall⟩
  · cases h

/-- The line of a call of `send_packet` that has returned `Ok(())`. -/
theorem sent_line {s : Sys} (hinv : Inv s) (hanswered : Answered s) {i : Nat} {p : Packet}
    (hop : s.ops[i]? = some (.sendPacket p)) (hok : s.client.calls[i]? = some (.done (.ok .unit))) :
    ∃ c ∈ s.conns, ∃ before k rest, c.written = before ++ k :: rest ∧ k.frame = ⟨i, p, true⟩ ∧ codec.whole k = true ∧
      (⟨i, p, true⟩ ∈ codec.readable false c.written ↔ ∀ t ∈ before.getLast?, codec.torn t = false) := by
  obtain ⟨q, hq, hat⟩ := hanswered.sends i p hop
  obtain rfl : q = .done (.ok .unit) := Option.some.inj (hq.symm.trans hok)
  cases hat with
  | answered c k hc hk hf =>
    have hcok := hinv.conns c hc
    have hmem : k ∈ c.written := List.mem_append_left _ hk
    have hwhole : codec.whole k = true := hcok.acked k hmem (by rw [hf])
    obtain ⟨before, rest, hsplit⟩ := List.append_of_mem hmem
    have hbefore : ∀ t ∈ before, 0 < t.taken := fun t ht =>
      (hcok.taken t (by rw [hsplit]; exact List.mem_append_left _ ht)).1
    refine ⟨c, hc, before, k, rest, hsplit, hf, hwhole, ?_⟩
    -- no other line of the connection is of the same call
    have hcalls := hcok.calls
    rw [hsplit, List.map_append, List.map_cons, List.nodup_append'] at hcalls
    obtain ⟨-, hrest, hdisj⟩ := hcalls
    rw [← codec.endsTorn_iff hbefore, hsplit, ← hf]
    apply codec.mem_readable_iff hwhole
    · intro x hx he
      exact hdisj (List.mem_map_of_mem hx) (by rw [he]; exact List.mem_cons_self)
    · intro x hx he
      refine (List.nodup_cons.1 hrest).1 ?_
      rw [← he]
      exact List.mem_map_of_mem hx

/-- A call of `send_packet` that was answered with success has its line on a connection, whole, and the peer reads it
exactly if the line before it there was not cut. -/
theorem send_packet_read_iff {es : List Event} {s : Sys} (hs : Run.exec step {} es = some s) {i : Nat} {p : Packet}
    (h : answered s i = some p) :
    ∃ c ∈ s.conns, ∃ before k rest, c.written = before ++ k :: rest ∧ k.frame = ⟨i, p, true⟩ ∧ codec.whole k = true ∧
      (⟨i, p, true⟩ ∈ codec.readable false c.written ↔ ∀ t ∈ before.getLast?, codec.torn t = false) := by
  obtain ⟨hop, hok⟩ := answered_eq_some h
  exact sent_line (run_inv hs).1 (run_inv hs).2 hop hok

/-- The second of the three packets is on the connection, after a cut line. -/
theorem send_packet_read_iff_cutLine : ∃ s, Run.exec step {} cutLine = some s ∧
    ∃ c ∈ s.conns, ∃ before k rest, c.written = before ++ k :: rest ∧ k.frame = ⟨3, ⟨"r", "second"⟩, true⟩ ∧
      codec.whole k = true ∧ (⟨3, ⟨"r", "second"⟩, true⟩ ∈ codec.readable false c.written ↔
        ∀ t ∈ before.getLast?, codec.torn t = false) := by
  have hk : (Run.exec step {} cutLine).map (answered · 3) = some (some ⟨"r", "second"⟩) := by decide +kernel
  obtain ⟨s, hs, h⟩ := Option.map_eq_some_iff.1 hk
  exact ⟨s, hs, send_packet_read_iff hs h⟩

end NapCat.QQClient.Outbound
