/-
Lines of which only a part reached the peer. The next line follows on the part, in the same line of the stream, and
what the peer reads there is an error: bytes that are no text, or a text that is no packet.
-/
import NapCat.QQClient.Wire
import NapCat.Lib.Json.Torn
import NapCat.Lib.CutWrites

namespace NapCat.QQClient

open Json Framing CutWrites

/-- The characters of a line before its newline. -/
def lineChars (p : Packet) : List Char := (buildWireLine p.route p.payload).toList

theorem lineChars_eq (p : Packet) : lineChars p = render (flat [("route", p.route), ("payload", p.payload)]) := by
  rw [lineChars, buildWireLine, toText, String.toList_ofList]
  rfl

theorem wireBytes_eq (p : Packet) :
    wireBytes p = (lineChars p ++ ['\n']).flatMap String.utf8EncodeChar := by
  rw [wireBytes, Text.utf8, String.toList_append]
  rfl

theorem startsOff_route : StartsOff "route" := by
  refine ⟨'r', ['o', 'u', 't', 'e'], rfl, by decide, ?_⟩
  unfold Off
  decide

/-- Bytes with which a line of the stream can go on after a part of another line, and end. -/
structure Continues (bs : List UInt8) : Prop where
  head : ∃ b, bs = UInt8.ofNat 123 :: b
  text : ∀ u : List Char, u.flatMap String.utf8EncodeChar = bs →
    ∃ t, u = t ++ ['\n'] ∧ t.getLast? = some '}' ∧ Resumes t

theorem continues_line (p : Packet) : Continues (wireBytes p) := by
  refine ⟨?_, fun u hu => ⟨lineChars p, ?_, ?_, ?_⟩⟩
  · rw [wireBytes_eq, lineChars_eq, render_flat]
    exact ⟨_, rfl⟩
  · apply Text.flatMap_utf8EncodeChar_injective
    rw [hu, wireBytes_eq]
  · rw [lineChars_eq]
    exact render_obj_getLast? _
  · rw [lineChars_eq]
    exact resumes_whole startsOff_route _ _

/-- The text of a part of a line and of what follows it. -/
theorem torn_text {p : Packet} {a bs : List UInt8} (hne : a ≠ []) (ha : a <+: wireBytes p) (hpart : a ≠ wireBytes p)
    (hbs : Continues bs) (u : List Char) (hu : u.flatMap String.utf8EncodeChar = a ++ bs) :
    ∃ q t, u = q ++ t ++ ['\n'] ∧ q <+: lineChars p ∧ q ≠ [] ∧ (q ++ t).getLast? = some '}' ∧ Resumes t := by
  obtain ⟨b, rfl⟩ := hbs.head
  have hline : a <+: (lineChars p).flatMap String.utf8EncodeChar := by
    rw [wireBytes_eq, List.flatMap_append] at ha hpart
    rcases List.prefix_concat_iff.1 ha with h | h
    · exact absurd h hpart
    · exact h
  obtain ⟨q, v, hq, rfl, rfl, hv⟩ := Text.split_at_ascii (by omega) (lineChars p) u a b hu hline
  obtain ⟨t, rfl, hlast, ht⟩ := hbs.text v hv
  refine ⟨q, t, (List.append_assoc q t ['\n']).symm, hq, ?_, ?_, ht⟩
  · rintro rfl
    exact hne rfl
  · rw [List.getLast?_append, hlast]
    rfl

theorem continues_torn {p : Packet} {a bs : List UInt8} (hne : a ≠ []) (ha : a <+: wireBytes p)
    (hpart : a ≠ wireBytes p) (hbs : Continues bs) : Continues (a ++ bs) := by
  constructor
  · have hc := (continues_line p).head
    obtain ⟨b, hb⟩ := hc
    rw [hb] at ha
    obtain ⟨a', rfl, -⟩ := (List.prefix_cons_iff.1 ha).resolve_left hne
    exact ⟨a' ++ bs, rfl⟩
  · intro u hu
    obtain ⟨q, t, rfl, hq, hq', hlast, ht⟩ := torn_text hne ha hpart hbs u hu
    rw [lineChars_eq] at hq
    exact ⟨q ++ t, rfl, hlast, (resumes_torn ht startsOff_route hq hq').1⟩

/-- Trimming takes the newline away and nothing before a brace. -/
theorem trimEnd_brace {s : String} {t : List Char} (hs : s.toList = t ++ ['\n']) (ht : t.getLast? = some '}') :
    Text.trimEnd s = String.ofList t := by
  obtain ⟨l, rfl⟩ := List.getLast?_eq_some_iff.1 ht
  rw [Text.trimEnd, hs, List.rdropWhile_concat_pos _ _ _ (by decide),
    List.rdropWhile_concat_neg _ _ _ (by rw [isWhitespace_brace]; decide)]

/-- A line of the stream that begins with a part of a line is an error. -/
theorem decodeLine_torn {p : Packet} {a bs : List UInt8} (hne : a ≠ []) (ha : a <+: wireBytes p)
    (hpart : a ≠ wireBytes p) (hbs : Continues bs) : packetOf (decodeLine (a ++ bs)) = none := by
  unfold decodeLine
  cases hs : Text.ofUtf8 (a ++ bs) with
  | none => rfl
  | some s =>
    obtain ⟨q, t, hu, hq, hq', hlast, ht⟩ := torn_text hne ha hpart hbs s.toList (Text.ofUtf8_eq_some hs).symm
    rw [lineChars_eq] at hq
    have htrim := trimEnd_brace hu hlast
    have hparse : parse (Text.trimEnd s) = none := by
      rw [htrim]
      exact parse_torn ht startsOff_route hq hq'
    simp only [parseWireLine, fromText, hparse]
    rfl

/-- Parts of lines and a whole one: nothing is read. -/
theorem decodeLine_glued (p : Packet) (parts : List (List UInt8)) (hne : parts ≠ [])
    (h : ∀ a ∈ parts, a ≠ [] ∧ ∃ g : Packet, a <+: wireBytes g ∧ a ≠ wireBytes g) :
    packetOf (decodeLine (parts.flatten ++ wireBytes p)) = none := by
  have hcont : ∀ parts : List (List UInt8), (∀ a ∈ parts, a ≠ [] ∧ ∃ g : Packet, a <+: wireBytes g ∧ a ≠ wireBytes g) →
      Continues (parts.flatten ++ wireBytes p) := by
    intro parts h
    induction parts with
    | nil =>
      rw [List.flatten_nil, List.nil_append]
      exact continues_line p
    | cons a parts ih =>
      obtain ⟨ha, g, hpre, hpart⟩ := h a List.mem_cons_self
      rw [List.flatten_cons, List.append_assoc]
      exact continues_torn ha hpre hpart (ih fun b hb => h b (List.mem_cons_of_mem a hb))
  cases parts with
  | nil => exact absurd rfl hne
  | cons a parts =>
    obtain ⟨ha, g, hpre, hpart⟩ := h a List.mem_cons_self
    rw [List.flatten_cons, List.append_assoc]
    exact decodeLine_torn ha hpre hpart (hcont parts fun b hb => h b (List.mem_cons_of_mem a hb))

/-- Values that carry a packet, as lines of the protocol. -/
def wireCodec {F : Type} (packet : F → Packet) : Codec F Packet UInt8 where
  delim := 10
  encode f := wireBytes (packet f)
  value := packet
  decode l := packetOf (decodeLine l)
  delimited f := wireBytes_delimited (packet f)
  decode_whole f := by rw [decodeLine_wireBytes, packetOf]
  decode_glued parts f hne h := decodeLine_glued (packet f) parts hne fun a ha => by
    obtain ⟨ha, g, hg⟩ := h a ha
    exact ⟨ha, packet g, hg⟩

theorem wireCodec_encode {F : Type} (packet : F → Packet) (f : F) :
    (wireCodec packet).encode f = wireBytes (packet f) := by
  simp only [wireCodec]

end NapCat.QQClient
