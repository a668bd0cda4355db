/-
The JSON-line protocol of `TcpQQClient`: how a packet is written as a line, how a received line is
taken apart, and what a sequence of receive calls gets out of the byte stream. Every call puts a
fresh `BufReader` on the socket and drops it when it returns or times out.
-/
import NapCat.Lib.Json.Serde
import NapCat.Lib.Text
import NapCat.Lib.Utf8
import NapCat.Lib.Framing

namespace NapCat.QQClient

open Json

/-- Lightweight packet abstraction for transport layers. -/
structure Packet where
  route : String
  payload : String
  deriving DecidableEq, Repr

/-- Error surface for QQ client adapters. -/
inductive QQClientError
  | transport (text : String)
  | protocol (text : String)
  | login (text : String)
  | invalidState (text : String)
  | timeout (text : String)
  deriving DecidableEq, Repr

def QQClientError.text : QQClientError → String
  | .transport t => "transport failure: " ++ t
  | .protocol t => "protocol parsing failure: " ++ t
  | .login t => "login failure: " ++ t
  | .invalidState t => "invalid state: " ++ t
  | .timeout t => "operation timed out: " ++ t

/-- `TcpWirePacket` as JSON. -/
def wireJson (route payload : String) : Json := .obj [("route", .str route), ("payload", .str payload)]

def wireOfJson (j : Json) : Except Json.Error Packet := do
  match ← structFields ["route", "payload"] j with
  | [r, p] => return ⟨← required "route" asString r, ← required "payload" asString p⟩
  | _ => .error .invalidLength

def buildWireLine (route payload : String) : String := (wireJson route payload).toText

def parseWireLine (line : String) : Except QQClientError Packet :=
  (fromText wireOfJson line).mapError fun e => .protocol ("invalid wire packet format: " ++ e.text)

/-! ## One line -/

/-- What a peer sends for a packet. -/
def wireBytes (p : Packet) : List UInt8 := Text.utf8 (buildWireLine p.route p.payload ++ "\n")

/-- What `recv_once_with_timeout` makes of the bytes `read_line` returns. -/
def decodeLine (bytes : List UInt8) : Except QQClientError (Option Packet) :=
  match Text.ofUtf8 bytes with
  | none => .error (.transport "read packet failed: stream did not contain valid UTF-8")
  | some line => (parseWireLine (Text.trimEnd line)).map some

theorem parseWireLine_build (route payload : String) :
    parseWireLine (buildWireLine route payload) = .ok ⟨route, payload⟩ := by
  rw [parseWireLine, buildWireLine, fromText_toText]
  rfl

theorem isWhitespace_brace : Text.isWhitespace '}' = false := by decide

/-- A wire line ends in the brace of its object. -/
theorem buildWireLine_last (route payload : String) : ∃ l, (buildWireLine route payload).toList = l ++ ['}'] := by
  rw [buildWireLine, toText, String.toList_ofList]
  exact List.getLast?_eq_some_iff.1 (render_obj_getLast? _)

/-- Every character of a wire line is printable: the escapes hide line breaks and control characters. -/
theorem buildWireLine_printable (route payload : String) :
    ∀ c ∈ (buildWireLine route payload).toList, 0x20 ≤ c.toNat := by
  rw [buildWireLine, toText, String.toList_ofList]
  exact render_printable _

/-- Trimming leaves a wire line as it is. -/
theorem trimEnd_buildWireLine (route payload : String) :
    Text.trimEnd (buildWireLine route payload) = buildWireLine route payload := by
  obtain ⟨l, hl⟩ := buildWireLine_last route payload
  rw [Text.trimEnd, hl, List.rdropWhile_concat_neg _ _ _ (by rw [isWhitespace_brace]; decide), ← hl,
    String.ofList_toList]

/-- Trimming takes the newline away and nothing of the object before it. -/
theorem trimEnd_line (route payload : String) :
    Text.trimEnd (buildWireLine route payload ++ "\n") = buildWireLine route payload := by
  have hl : (buildWireLine route payload ++ "\n").toList = (buildWireLine route payload).toList ++ ['\n'] := by simp
  have hw : Text.isWhitespace '\n' = true := by decide
  rw [Text.trimEnd, hl, List.rdropWhile_concat_pos _ _ _ hw, ← Text.trimEnd, trimEnd_buildWireLine]

theorem decodeLine_wireBytes (p : Packet) : decodeLine (wireBytes p) = .ok (some p) := by
  simp only [decodeLine, wireBytes, Text.ofUtf8_utf8, trimEnd_line, parseWireLine_build]
  rfl

/-- A line of the protocol has one newline byte, its last one. -/
theorem wireBytes_delimited (p : Packet) : Framing.Delimited (10 : UInt8) (wireBytes p) := by
  refine ⟨Text.utf8 (buildWireLine p.route p.payload), by rw [wireBytes, Text.utf8_append]; rfl, ?_⟩
  refine Text.not_mem_utf8 (n := 10) (by decide) fun c hc => ?_
  have := buildWireLine_printable _ _ c hc
  omega

/-! ## Many lines -/

/-- The text a peer sends for a list of packets. -/
def wireText (packets : List Packet) : String :=
  packets.foldr (fun p text => buildWireLine p.route p.payload ++ "\n" ++ text) ""

/-- A line of a received text, trimmed and parsed. -/
def parseLine (line : String) : Except QQClientError Packet := parseWireLine (Text.trimEnd line)

/-- The lines of a list of packets are those packets, whatever stands in their routes and payloads. -/
theorem parse_wireText (packets : List Packet) :
    (Text.splitTerminator '\n' (wireText packets)).map parseLine = packets.map .ok := by
  induction packets with
  | nil => rfl
  | cons p packets ih =>
    have hn : '\n' ∉ (buildWireLine p.route p.payload).toList := fun hm =>
      absurd (buildWireLine_printable _ _ _ hm) (by decide)
    have hs : Text.splitTerminator '\n' (wireText (p :: packets)) =
        buildWireLine p.route p.payload :: Text.splitTerminator '\n' (wireText packets) :=
      Text.splitTerminator_append hn _
    rw [hs, List.map_cons, ih, parseLine, trimEnd_buildWireLine, parseWireLine_build]
    rfl

/-! ## The byte stream -/

/-- The stream from the peer to an open session. -/
abbrev Link := Framing.State Packet UInt8

abbrev LinkEvent := Framing.Event Packet

/-- The capacity of a `BufReader`. -/
def bufReaderCapacity : Nat := 8192

/-- One event on the stream, with newlines as delimiters. -/
def Link.step : Link → LinkEvent → Option Link := Framing.step wireBytes 10 bufReaderCapacity

/-- What a receive call returns. -/
def answer : Framing.Outcome UInt8 → Except QQClientError (Option Packet)
  | .line l => decodeLine l
  | .eof => .ok none
  | .expired => .error (.timeout "receive timeout")

def packetOf : Except QQClientError (Option Packet) → Option Packet
  | .ok p => p
  | .error _ => none

/-- The packets the receive calls have returned. -/
def Link.received (s : Link) : List Packet := s.outcomes.filterMap fun o => packetOf (answer o)

/-- No read of the call in progress takes bytes beyond the newline of its line, and no receive
timeout fires once the call has taken bytes. -/
def ReadsWholeLines (s : Link) (e : LinkEvent) : Prop := Framing.Clean 10 s e

instance (s : Link) (e : LinkEvent) : Decidable (ReadsWholeLines s e) :=
  inferInstanceAs (Decidable (Framing.Clean _ s e))

theorem received_eq_lines (s : Link) : s.received = s.lines.filterMap fun l => packetOf (decodeLine l) := by
  rw [Link.received, Framing.State.lines, List.filterMap_filterMap]
  refine List.filterMap_congr fun o _ => ?_
  cases o <;> rfl

theorem filterMap_wireBytes (ps : List Packet) :
    (ps.map wireBytes).filterMap (fun l => packetOf (decodeLine l)) = ps := by
  rw [List.filterMap_map]
  calc ps.filterMap _ = ps.filterMap some := List.filterMap_congr fun p _ => by
        simp only [Function.comp, decodeLine_wireBytes, packetOf]
    _ = ps := List.filterMap_some

/-- While no read goes past a line and no timeout cuts one, the packets returned are those written,
in order: a prefix at any time, and all of them once all bytes have arrived and been taken in. -/
theorem receive_lossless {es : List LinkEvent} {s : Link} (hc : Run.Along Link.step ReadsWholeLines {} es)
    (hs : Run.exec Link.step {} es = some s) :
    s.received <+: s.written ∧ (s.sock = [] → s.flight = [] → s.received = s.written) := by
  obtain ⟨hp, hall⟩ := Framing.run_lossless wireBytes_delimited hc hs
  rw [received_eq_lines]
  constructor
  · have := hp.filterMap fun l => packetOf (decodeLine l)
    rwa [filterMap_wireBytes] at this
  · intro hk hf
    rw [hall hk hf, filterMap_wireBytes]

/-- Two packets, the second of which arrives in two pieces after the first has been read. -/
def twoLines : List LinkEvent :=
  [.write ⟨"a", "b"⟩, .arrive 28, .call, .expire, .call, .fill 28, .write ⟨"c", "d"⟩, .arrive 9, .call, .fill 9,
    .arrive 19, .fill 19]

theorem receive_lossless_twoLines : ∃ s, Run.exec Link.step {} twoLines = some s ∧ s.received = s.written := by
  have hk : (Run.exec Link.step {} twoLines).map (fun s => (s.sock, s.flight)) = some ([], []) := by decide +kernel
  obtain ⟨s, hs, hk⟩ := Option.map_eq_some_iff.1 hk
  rw [Prod.mk.injEq] at hk
  exact ⟨s, hs, (receive_lossless (by decide +kernel) hs).2 hk.1 hk.2⟩

/-- Two packets in one segment, read by one call. -/
def oneSegment : List LinkEvent :=
  [.write ⟨"a", "b"⟩, .write ⟨"c", "d"⟩, .arrive 56, .call, .fill 56, .call, .expire]

/-- The second packet goes down with the reader of the first call: nothing is left to read and no
call is in progress, but one packet of two has been returned. -/
theorem receive_loses_packet : ∃ s, Run.exec Link.step {} oneSegment = some s ∧
    s.sock = [] ∧ s.flight = [] ∧ s.reader = none ∧ s.written.length = 2 ∧ s.received ≠ s.written := by
  have hk : (Run.exec Link.step {} oneSegment).map
      (fun s => (s.sock, s.flight, s.reader, s.written.length, s.lines.length)) = some ([], [], none, 2, 1) := by
    decide +kernel
  obtain ⟨s, hs, hk⟩ := Option.map_eq_some_iff.1 hk
  simp only [Prod.mk.injEq] at hk
  obtain ⟨h1, h2, h3, h4, h5⟩ := hk
  refine ⟨s, hs, h1, h2, h3, h4, fun he => ?_⟩
  have hlen := congrArg List.length he
  rw [received_eq_lines, h4] at hlen
  have := List.length_filterMap_le (fun l => packetOf (decodeLine l)) s.lines
  omega

end NapCat.QQClient
