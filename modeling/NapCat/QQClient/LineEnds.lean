/-
Lines whose beginning is lost. A receive call that expires inside a line, or reads past one, takes bytes from the
calls after it, and the next line read is the rest of one. No such rest is a packet.
-/
import NapCat.QQClient.TornLine
import NapCat.Lib.Json.Tails
import NapCat.Lib.LostLines

namespace NapCat.QQClient

open Json

theorem plain_route : Plain "route" := ⟨startsOff_route, by decide⟩

theorem plain_payload : Plain "payload" where
  starts := by
    refine ⟨'p', ['a', 'y', 'l', 'o', 'a', 'd'], rfl, by decide, ?_⟩
    unfold Off
    decide
  closed := by decide

theorem wireOfJson_scalar {j : Json} (h : j.isScalar = true) : wireOfJson j = .error .invalidType := by
  cases j with
  | arr xs => cases h
  | obj fs => cases h
  | null => rfl
  | bool b => rfl
  | num n => rfl
  | str s => rfl

/-- The text of the rest of a line. -/
theorem parseLine_end {p : Packet} {t : List Char} (ht : t <:+ lineChars p) (hne : t ≠ lineChars p) :
    ∃ e, parseWireLine (String.ofList t) = .error e := by
  rw [lineChars_eq] at ht hne
  have hfs : ∀ f ∈ [("payload", p.payload)], Plain f.1 := by
    intro f hf
    rw [List.mem_singleton.1 hf]
    exact plain_payload
  unfold parseWireLine fromText
  cases h : parse (String.ofList t) with
  | none => exact ⟨_, rfl⟩
  | some j =>
    have hj := parse_tail plain_route hfs ht hne h
    simp only [wireOfJson_scalar hj]
    exact ⟨_, rfl⟩

/-- The rest of a line is not read as a packet. -/
theorem decodeLine_end {p : Packet} {l : List UInt8} (hl : l <:+ wireBytes p) (hne : l ≠ wireBytes p) :
    packetOf (decodeLine l) = none := by
  unfold decodeLine
  cases hs : Text.ofUtf8 l with
  | none => rfl
  | some s =>
    have hbytes : l = s.toList.flatMap String.utf8EncodeChar := Text.ofUtf8_eq_some hs
    rw [wireBytes_eq, hbytes] at hl
    have ht : ∃ t, Text.trimEnd s = String.ofList t ∧ t <:+ lineChars p ∧ t ≠ lineChars p := by
      have hparts := Text.suffix_of_utf8 hl
      rcases List.suffix_concat_iff.1 hparts with hnil | ⟨t, hst, ht⟩
      · refine ⟨[], by rw [Text.trimEnd, hnil]; rfl, List.nil_suffix, fun h => ?_⟩
        rw [lineChars_eq, render_flat] at h
        cases h
      · refine ⟨t, ?_, ht, ?_⟩
        · by_cases hnil : t = []
          · rw [Text.trimEnd, hst, hnil]
            rfl
          · apply trimEnd_brace hst
            rw [Ends.getLast?_suffix ht hnil, lineChars_eq, flat, render_obj_getLast?]
        · intro hline
          apply hne
          rw [hbytes, hst, hline, wireBytes_eq]
    obtain ⟨t, htrim, htail, hpart⟩ := ht
    obtain ⟨e, he⟩ := parseLine_end htail hpart
    simp only [htrim, he]
    rfl

/-- However the stream is cut and whatever calls expire, the packets received are some of those written, in order
and unaltered, and a call that reads a line returns a packet exactly if it has read the whole line of one. -/
theorem received_sublist {es : List LinkEvent} {s : Link} (hs : Run.exec Link.step {} es = some s) :
    s.received.Sublist s.written ∧
      ∀ l ∈ s.lines, (packetOf (decodeLine l)).isSome = true ↔ ∃ p ∈ s.written, l = wireBytes p := by
  have hends : Framing.EndsOf wireBytes s.lines s.written := Framing.run_ends wireBytes_delimited hs
  have hwhole (p : Packet) : packetOf (decodeLine (wireBytes p)) = some p := by rw [decodeLine_wireBytes, packetOf]
  constructor
  · have hvalues : (s.lines.filterMap fun l => packetOf (decodeLine l)).Sublist (s.written.map id) := by
      refine Framing.EndsOf.values ?_ ?_ hends
      · exact hwhole
      · exact fun p l hl hne => decodeLine_end hl hne
    rwa [List.map_id, ← received_eq_lines] at hvalues
  · intro l hl
    obtain ⟨p, hp, hlp⟩ := Framing.EndsOf.of_mem hends l hl
    constructor
    · intro hsome
      refine ⟨p, hp, ?_⟩
      by_contra hne
      rw [decodeLine_end hlp hne] at hsome
      cases hsome
    · rintro ⟨q, -, hq⟩
      rw [hq, hwhole, Option.isSome_some]

/-- A timeout takes the beginning of the first line; the next call reads its rest, and the one after it a packet. -/
def cutLine : List LinkEvent :=
  [.write ⟨"a", "b"⟩, .arrive 10, .call, .fill 10, .expire, .arrive 18, .call, .fill 18, .write ⟨"c", "d"⟩, .arrive 28,
    .call, .fill 28]

theorem received_sublist_cutLine : ∃ s, Run.exec Link.step {} cutLine = some s ∧ s.lines.length = 2 ∧
    s.received.Sublist s.written := by
  have hk : (Run.exec Link.step {} cutLine).map (fun s => s.lines.length) = some 2 := by decide +kernel
  obtain ⟨s, hs, hk⟩ := Option.map_eq_some_iff.1 hk
  exact ⟨s, hs, hk, (received_sublist hs).1⟩

end NapCat.QQClient
