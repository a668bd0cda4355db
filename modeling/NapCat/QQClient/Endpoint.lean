/-
What `normalize_tcp_endpoint` makes of an endpoint. An endpoint that is put together from a host and a
port is read back unless a second `://` stands in its path or query and no scheme in front of it; an
address it returns is a host and a port unless the endpoint has white space or a `:` in the wrong place.
-/
import NapCat.QQClient.Tcp

namespace NapCat.QQClient

/-- What stands before the first `?` or `/`. -/
def addressPart (s : String) : String := Text.firstPart '/' (Text.firstPart '?' s)

/-- What stands after the first `://`. -/
def withoutScheme (s : String) : String :=
  ((Text.cutAt "://".toList s.toList).map fun p => String.ofList p.2).getD s

/-- The address is what stands between the scheme and the path, and it is refused for two reasons only. -/
theorem normalizeTcpEndpoint_ok_iff {raw s : String} :
    normalizeTcpEndpoint raw = .ok s ↔ s = addressPart (withoutScheme (Text.trim raw)) ∧
      Text.isBlank s = false ∧ ':' ∈ s.toList := by
  have hd : normalizeTcpEndpoint raw =
      if (Text.trim raw).isEmpty then .error (.transport "empty tcp endpoint")
      else if Text.isBlank (addressPart (withoutScheme (Text.trim raw))) then
        .error (.transport "invalid tcp endpoint")
      else if ':' ∈ (addressPart (withoutScheme (Text.trim raw))).toList then
        .ok (addressPart (withoutScheme (Text.trim raw)))
      else .error (.transport ("tcp endpoint requires host:port, got " ++
        addressPart (withoutScheme (Text.trim raw)))) := rfl
  rw [hd]
  split
  · rename_i he
    rw [String.isEmpty_iff.1 he]
    constructor
    · rintro ⟨⟩
    · rintro ⟨rfl, hb, -⟩
      exact absurd hb (by decide)
  · generalize addressPart (withoutScheme (Text.trim raw)) = address
    split
    · rename_i hb
      constructor
      · rintro ⟨⟩
      · rintro ⟨rfl, hn, -⟩
        rw [hb] at hn
        cases hn
    · rename_i hb
      split
      · rename_i hc
        constructor
        · intro h
          cases h
          exact ⟨rfl, by simpa using hb, hc⟩
        · rintro ⟨rfl, -, -⟩
          rfl
      · rename_i hc
        constructor
        · rintro ⟨⟩
        · rintro ⟨rfl, -, hm⟩
          exact absurd hm hc

/-- An address ends where a path or a query begins. -/
theorem addressPart_append {a rest : String} (ha : '/' ∉ a.toList ∧ '?' ∉ a.toList)
    (hr : ∀ c ∈ rest.toList.head?, c = '/' ∨ c = '?') : addressPart (a ++ rest) = a := by
  unfold addressPart
  rw [Text.firstPart_append ha.2, Text.firstPart_append ha.1]
  suffices h : Text.firstPart '/' (Text.firstPart '?' rest) = "" by rw [h, String.append_empty]
  unfold Text.firstPart
  cases hl : rest.toList with
  | nil => rfl
  | cons c cs =>
    rw [hl] at hr
    rcases hr c rfl with rfl | rfl <;> simp

/-! ## What is read back -/

/-- A host or a port: not empty, and without white space and separators. -/
structure NamePart where
  text : String
  nonempty : text ≠ ""
  clean : ∀ c ∈ text.toList, Text.isWhitespace c = false ∧ c ≠ '/' ∧ c ≠ '?' ∧ c ≠ ':'

def schemePrefix : Option String → String
  | none => ""
  | some s => s ++ "://"

/-- An endpoint put together from its parts. -/
structure Written where
  before : String := ""
  scheme : Option String := none
  host : NamePart
  port : NamePart
  tail : String := ""
  after : String := ""
  before_blank : Text.isBlank before = true := by decide
  after_blank : Text.isBlank after = true := by decide
  scheme_clean : ∀ s ∈ scheme, ∀ c ∈ s.toList, c ≠ ':' ∧ c ≠ '/' ∧ c ≠ '?' := by decide
  tail_start : ∀ c ∈ tail.toList.head?, c = '/' ∨ c = '?' := by decide

def Written.hostPort (w : Written) : String := w.host.text ++ ":" ++ w.port.text

def Written.text (w : Written) : String := w.before ++ schemePrefix w.scheme ++ w.hostPort ++ w.tail ++ w.after

theorem mark_toList : "://".toList = [':', '/', '/'] := by simp

/-- A scheme is cut off at its `://`. -/
theorem withoutScheme_of_scheme {s rest : String} (h : ':' ∉ s.toList) :
    withoutScheme (schemePrefix (some s) ++ rest) = rest := by
  have hl : (schemePrefix (some s) ++ rest).toList = s.toList ++ ("://".toList ++ rest.toList) := by
    simp [schemePrefix]
  have hc : Text.cutAt "://".toList (s.toList ++ ("://".toList ++ rest.toList)) =
      some (s.toList ++ [], rest.toList) := by
    rw [mark_toList, Text.cutAt_append_of_not_mem h, Text.cutAt_append, Option.map_some]
  unfold withoutScheme
  rw [hl, hc, Option.map_some, Option.getD_some, String.ofList_toList]

theorem NamePart.not_mem (n : NamePart) {c : Char} (h : c = '/' ∨ c = '?' ∨ c = ':') : c ∉ n.text.toList := by
  intro hm
  obtain ⟨-, h1, h2, h3⟩ := n.clean c hm
  rcases h with rfl | rfl | rfl
  · exact h1 rfl
  · exact h2 rfl
  · exact h3 rfl

theorem NamePart.not_blank (n : NamePart) {c : Char} (hc : c ∈ n.text.toList) : Text.isWhitespace c = false :=
  (n.clean c hc).1

namespace Written

variable (w : Written)

theorem hostPort_toList : w.hostPort.toList = w.host.text.toList ++ ':' :: w.port.text.toList := by
  simp [hostPort]

theorem hostPort_clean : '/' ∉ w.hostPort.toList ∧ '?' ∉ w.hostPort.toList := by
  rw [hostPort_toList]
  constructor
  all_goals
    rw [List.mem_append, List.mem_cons]
    rintro (h | h | h)
  · exact w.host.not_mem (.inl rfl) h
  · cases h
  · exact w.port.not_mem (.inl rfl) h
  · exact w.host.not_mem (.inr (.inl rfl)) h
  · cases h
  · exact w.port.not_mem (.inr (.inl rfl)) h

theorem hostPort_last : ∀ c ∈ w.hostPort.toList.getLast?, Text.isWhitespace c = false := by
  intro c hc
  have hne : w.port.text.toList ≠ [] := fun h => w.port.nonempty (String.toList_eq_nil_iff.1 h)
  rw [hostPort_toList, List.getLast?_append, List.getLast?_cons_of_ne_nil hne, List.getLast?_eq_some_getLast hne] at hc
  cases hc
  exact w.port.not_blank (List.getLast_mem hne)

theorem hostPort_dropWhile (rest : List Char) :
    (w.hostPort.toList ++ rest).dropWhile Text.isWhitespace = w.hostPort.toList ++ rest := by
  have hh : w.host.text.toList.dropWhile Text.isWhitespace = w.host.text.toList := by
    rw [List.dropWhile_eq_self_iff]
    intro hl
    rw [w.host.not_blank (List.getElem_mem hl)]
    exact Bool.false_ne_true
  rw [hostPort_toList, List.append_assoc, List.cons_append, Text.dropWhile_append_cons (by decide), hh]

/-- Trimming takes the white space after the port away, or after the tail. -/
theorem hostPort_rdropWhile (front : List Char) :
    (front ++ w.hostPort.toList ++ (w.tail.toList ++ w.after.toList)).rdropWhile Text.isWhitespace =
      front ++ w.hostPort.toList ++ w.tail.toList.rdropWhile Text.isWhitespace := by
  have hend : (w.tail.toList ++ w.after.toList).rdropWhile Text.isWhitespace =
      w.tail.toList.rdropWhile Text.isWhitespace :=
    Text.rdropWhile_append_of_pos (Text.isBlank_iff.1 w.after_blank)
  have hne : w.hostPort.toList ≠ [] := by rw [hostPort_toList]; simp
  rw [Text.rdropWhile_append_of_last, hend]
  rw [List.getLast?_append_of_ne_nil _ hne]
  exact w.hostPort_last

/-- White space around the parts goes; what is left of the scheme is without `:`. -/
theorem trim_text : ∃ scheme : Option String, scheme.isSome = w.scheme.isSome ∧
    (∀ s ∈ scheme, ':' ∉ s.toList) ∧
    Text.trim w.text = schemePrefix scheme ++ w.hostPort ++ Text.trimEnd w.tail := by
  have hb : ∀ c ∈ w.before.toList, Text.isWhitespace c = true := Text.isBlank_iff.1 w.before_blank
  have ht : w.text.toList.dropWhile Text.isWhitespace =
      ((schemePrefix w.scheme).toList ++ (w.hostPort.toList ++ (w.tail.toList ++ w.after.toList))).dropWhile
        Text.isWhitespace := by
    unfold text
    simp only [String.toList_append, List.append_assoc]
    rw [List.dropWhile_append_of_pos hb]
  unfold Text.trim
  rw [ht]
  cases hs : w.scheme with
  | none =>
    refine ⟨none, rfl, fun _ h => (Option.not_mem_none _ h).elim, ?_⟩
    rw [schemePrefix, String.toList_empty, List.nil_append, hostPort_dropWhile]
    have := w.hostPort_rdropWhile []
    rw [List.nil_append] at this
    rw [this, ← String.toList_inj]
    simp [Text.trimEnd]
  | some s =>
    refine ⟨some (String.ofList (s.toList.dropWhile Text.isWhitespace)), rfl, ?_, ?_⟩
    · rintro _ ⟨⟩ hm
      rw [String.toList_ofList] at hm
      exact (w.scheme_clean s hs _ (List.dropWhile_subset _ hm)).1 rfl
    · have hp : (schemePrefix (some s)).toList = s.toList ++ ':' :: ['/', '/'] := by simp [schemePrefix]
      have hl : s.toList.dropWhile Text.isWhitespace ++ ':' ::
          (['/', '/'] ++ (w.hostPort.toList ++ (w.tail.toList ++ w.after.toList))) =
          (s.toList.dropWhile Text.isWhitespace ++ "://".toList) ++ w.hostPort.toList ++
            (w.tail.toList ++ w.after.toList) := by simp
      rw [hp, List.append_assoc, List.cons_append, Text.dropWhile_append_cons (by decide), hl, hostPort_rdropWhile,
        ← String.toList_inj]
      simp [schemePrefix, Text.trimEnd]

/-- The `:` between host and port is not that of a `://`, so the first one is in the tail. -/
theorem withoutScheme_of_tail (tail : String) :
    withoutScheme (w.hostPort ++ tail) =
      ((Text.cutAt "://".toList tail.toList).map fun p => String.ofList p.2).getD (w.hostPort ++ tail) := by
  have hcut : Text.cutAt "://".toList (w.hostPort ++ tail).toList =
      (Text.cutAt "://".toList tail.toList).map fun p => (w.hostPort.toList ++ p.1, p.2) := by
    obtain ⟨c, port, hp⟩ : ∃ c port, w.port.text.toList = c :: port :=
      List.exists_cons_of_ne_nil fun h => w.port.nonempty (String.toList_eq_nil_iff.1 h)
    have hc : c ≠ '/' := fun h => w.port.not_mem (.inl rfl) (by rw [hp, h]; exact List.mem_cons_self)
    have hl : (w.hostPort ++ tail).toList =
        w.host.text.toList ++ (':' :: (w.port.text.toList ++ tail.toList)) := by
      rw [String.toList_append, hostPort_toList, List.append_assoc, List.cons_append]
    have hcolon : Text.cutAt "://".toList (':' :: (w.port.text.toList ++ tail.toList)) =
        (Text.cutAt "://".toList (w.port.text.toList ++ tail.toList)).map fun p => (':' :: p.1, p.2) := by
      rw [Text.cutAt, if_neg]
      rw [hp]
      simp [List.isPrefixOf, Ne.symm hc]
    rw [mark_toList] at hcolon ⊢
    rw [hl, Text.cutAt_append_of_not_mem (w.host.not_mem (.inr (.inr rfl))), hcolon,
      Text.cutAt_append_of_not_mem (w.port.not_mem (.inr (.inr rfl))), Option.map_map, Option.map_map, hostPort_toList]
    congr 1
    funext p
    simp
  unfold withoutScheme
  rw [hcut, Option.map_map]
  rfl

/-- Whether a second `://` in the tail takes the place of a missing scheme, and what it leads to is not the host and
the port again. -/
def Misread : Prop :=
  w.scheme = none ∧ ∃ p, Text.cutAt "://".toList (Text.trimEnd w.tail).toList = some p ∧
    addressPart (String.ofList p.2) ≠ w.hostPort

theorem trimEnd_tail_start : ∀ c ∈ (Text.trimEnd w.tail).toList.head?, c = '/' ∨ c = '?' := by
  intro c hc
  refine w.tail_start c ?_
  obtain ⟨cs, hcs⟩ := List.head?_eq_some_iff.1 hc
  obtain ⟨rest, hrest⟩ := List.rdropWhile_prefix Text.isWhitespace (l := w.tail.toList)
  rw [Text.trimEnd, String.toList_ofList] at hcs
  rw [← hrest, hcs]
  rfl

/-- The host and the port are an address that is accepted. -/
theorem hostPort_accepted : Text.isBlank w.hostPort = false ∧ ':' ∈ w.hostPort.toList := by
  have hm : ':' ∈ w.hostPort.toList := by
    rw [hostPort_toList]
    exact List.mem_append_right _ List.mem_cons_self
  exact ⟨Text.isBlank_eq_false hm (by decide), hm⟩

/-- The endpoint is read back to its host and port, unless its tail is taken for more than a tail. -/
theorem normalizeTcpEndpoint_hostPort_iff : normalizeTcpEndpoint w.text = .ok w.hostPort ↔ ¬ w.Misread := by
  obtain ⟨scheme, hsome, hclean, ht⟩ := w.trim_text
  have hok : normalizeTcpEndpoint w.text = .ok w.hostPort ↔
      w.hostPort = addressPart (withoutScheme (Text.trim w.text)) := by
    rw [normalizeTcpEndpoint_ok_iff]
    exact and_iff_left w.hostPort_accepted
  have htail := addressPart_append w.hostPort_clean w.trimEnd_tail_start
  rw [hok, ht, String.append_assoc]
  cases scheme with
  | some s =>
    rw [withoutScheme_of_scheme (hclean s rfl), htail]
    refine iff_of_true rfl fun h => ?_
    rw [h.1] at hsome
    cases hsome
  | none =>
    have hn : w.scheme = none := Option.isNone_iff_eq_none.1 (by rw [← Option.not_isSome, ← hsome]; rfl)
    rw [schemePrefix, String.empty_append, withoutScheme_of_tail]
    cases hc : Text.cutAt "://".toList (Text.trimEnd w.tail).toList with
    | none =>
      rw [Option.map_none, Option.getD_none, htail]
      refine iff_of_true rfl ?_
      rintro ⟨-, p, hp, -⟩
      rw [hc] at hp
      cases hp
    | some p =>
      rw [Option.map_some, Option.getD_some]
      constructor
      · rintro h ⟨-, q, hq, hne⟩
        rw [hc] at hq
        cases hq
        exact hne h.symm
      · intro h
        by_contra hne
        exact h ⟨hn, p, hc, Ne.symm hne⟩

end Written

theorem normalizeTcpEndpoint_other_host : ¬ ∀ w : Written, normalizeTcpEndpoint w.text = .ok w.hostPort := by
  intro h
  have := h {
    host := ⟨"h", by decide, by simp [Text.isWhitespace]⟩
    port := ⟨"80", by decide, by simp [Text.isWhitespace]⟩
    tail := "/p?u=http://x:1"
    tail_start := by simp }
  revert this
  decide +kernel

/-! ## What is returned -/

/-- How an endpoint is read: the text up to the first `://` as its scheme, and an address before the
first `/` or `?`. -/
structure Reading (raw : String) where
  scheme : Option String
  address : String
  tail : String
  text : Text.trim raw = schemePrefix scheme ++ address ++ tail
  scheme_first : ∀ s ∈ scheme, ∀ a b, (Text.trim raw).toList = a ++ "://".toList ++ b → s.toList.length ≤ a.length
  no_scheme : scheme = none → ¬ "://".toList <:+: (Text.trim raw).toList
  address_clean : '/' ∉ address.toList ∧ '?' ∉ address.toList
  tail_start : ∀ c ∈ tail.toList.head?, c = '/' ∨ c = '?'

/-- The address of a reading is the one that the code finds. -/
theorem Reading.address_eq {raw : String} (r : Reading raw) :
    addressPart (withoutScheme (Text.trim raw)) = r.address := by
  have haddr := addressPart_append r.address_clean r.tail_start
  cases hs : r.scheme with
  | none =>
    have hcut := Text.cutAt_none_iff.2 (r.no_scheme hs)
    unfold withoutScheme
    rw [hcut, Option.map_none, Option.getD_none, r.text, hs, schemePrefix, String.empty_append, haddr]
  | some s =>
    have ht : (Text.trim raw).toList = s.toList ++ "://".toList ++ (r.address ++ r.tail).toList := by
      rw [r.text, hs, schemePrefix, String.append_assoc, String.toList_append, String.toList_append]
    have hcut : Text.cutAt "://".toList (Text.trim raw).toList = some (s.toList, (r.address ++ r.tail).toList) := by
      rw [ht]
      refine Text.cutAt_of_first fun a b hab => r.scheme_first s hs a b ?_
      rw [ht, hab]
    unfold withoutScheme
    rw [hcut, Option.map_some, Option.getD_some, String.ofList_toList, haddr]

/-- Where a text has to end an address, it can be cut. -/
theorem exists_address (s : String) : ∃ address tail : String, s = address ++ tail ∧
    ('/' ∉ address.toList ∧ '?' ∉ address.toList) ∧ ∀ c ∈ tail.toList.head?, c = '/' ∨ c = '?' := by
  let stays : Char → Bool := fun c => decide (c ≠ '/' ∧ c ≠ '?')
  refine ⟨String.ofList (s.toList.takeWhile stays), String.ofList (s.toList.dropWhile stays), ?_, ?_, ?_⟩
  · rw [← String.ofList_append, List.takeWhile_append_dropWhile, String.ofList_toList]
  · rw [String.toList_ofList]
    constructor
    all_goals
      intro hm
      have := List.mem_takeWhile_imp hm
      simp [stays] at this
  · intro c hc
    rw [String.toList_ofList] at hc
    have := List.head?_dropWhile_not stays s.toList
    rw [Option.mem_def.1 hc] at this
    by_contra hn
    simp only [not_or] at hn
    simp [stays, hn] at this

/-- Every endpoint has a reading. -/
theorem Reading.exists (raw : String) : Nonempty (Reading raw) := by
  cases hc : Text.cutAt "://".toList (Text.trim raw).toList with
  | none =>
    obtain ⟨address, tail, hs, hclean, hstart⟩ := exists_address (Text.trim raw)
    exact ⟨none, address, tail, by rw [hs, schemePrefix, String.empty_append],
      fun _ h => (Option.not_mem_none _ h).elim, fun _ => Text.cutAt_none_iff.1 hc, hclean, hstart⟩
  | some p =>
    obtain ⟨hcut, hfirst⟩ := Text.cutAt_some hc
    obtain ⟨address, tail, hs, hclean, hstart⟩ := exists_address (String.ofList p.2)
    refine ⟨some (String.ofList p.1), address, tail, ?_, ?_, (fun h => by cases h), hclean, hstart⟩
    · rw [schemePrefix, String.append_assoc, ← hs, ← String.toList_inj, hcut]
      simp
    · rintro _ ⟨⟩ a b hab
      rw [String.toList_ofList]
      exact hfirst a b hab

/-- An address that starts or ends with white space, starts with its only `:` or ends with a `:`. -/
def Ragged (address : String) : Prop :=
  Text.trim address ≠ address ∨ (∃ port, address = ":" ++ port ∧ ':' ∉ port.toList) ∨ ∃ host, address = host ++ ":"

/-- What an address should be: a host and a port, which is what follows the last `:`, without path, query and white
space around, and accepted again. -/
structure HostPort (s : String) : Prop where
  parts : ∃ host port, s = host ++ ":" ++ port ∧ host ≠ "" ∧ port ≠ "" ∧ ':' ∉ port.toList
  no_path : '/' ∉ s.toList
  no_query : '?' ∉ s.toList
  trimmed : Text.trim s = s
  again : normalizeTcpEndpoint s = .ok s

theorem exists_last_colon {s : String} (h : ':' ∈ s.toList) :
    ∃ host port, s = host ++ ":" ++ port ∧ ':' ∉ port.toList := by
  obtain ⟨as, bs, hl, hm⟩ := List.eq_append_cons_of_mem (List.mem_reverse.2 h)
  refine ⟨String.ofList bs.reverse, String.ofList as.reverse, ?_, by simpa using hm⟩
  rw [← String.toList_inj, ← List.reverse_reverse s.toList, hl]
  simp

theorem HostPort.not_ragged {s : String} (h : HostPort s) : ¬ Ragged s := by
  obtain ⟨host, port, hs, hh, hp, hc⟩ := h.parts
  rintro (ht | ⟨port', hs', hc'⟩ | ⟨host', hs'⟩)
  · exact ht h.trimmed
  · -- a host in front would have the `:` that the text starts with, and another one behind it
    obtain ⟨c, cs, hl⟩ := List.exists_cons_of_ne_nil fun hn => hh (String.toList_eq_nil_iff.1 hn)
    have he : c :: (cs ++ ':' :: port.toList) = ':' :: port'.toList := by
      rw [← List.cons_append, ← hl]
      simpa using congrArg String.toList (hs.symm.trans hs')
    rw [← (List.cons.inj he).2] at hc'
    exact hc' (List.mem_append_right _ List.mem_cons_self)
  · have hne : port.toList ≠ [] := fun hn => hp (String.toList_eq_nil_iff.1 hn)
    have he : host.toList ++ ':' :: port.toList = host'.toList ++ [':'] := by
      simpa using congrArg String.toList (hs.symm.trans hs')
    have hlast := congrArg List.getLast? he
    rw [List.getLast?_append_of_ne_nil _ (List.cons_ne_nil _ _), List.getLast?_cons_of_ne_nil hne,
      List.getLast?_append_of_ne_nil _ (List.cons_ne_nil _ _), List.getLast?_eq_some_getLast hne] at hlast
    have hcolon : port.toList.getLast hne = ':' := Option.some.inj hlast
    exact hc (hcolon ▸ List.getLast_mem hne)

/-- Without path and query, nothing is cut from a text. -/
theorem normalizeTcpEndpoint_self {s : String} (hclean : '/' ∉ s.toList ∧ '?' ∉ s.toList)
    (ht : Text.trim s = s) (hb : Text.isBlank s = false) (hc : ':' ∈ s.toList) : normalizeTcpEndpoint s = .ok s := by
  rw [normalizeTcpEndpoint_ok_iff, ht]
  refine ⟨?_, hb, hc⟩
  have hcut : Text.cutAt "://".toList s.toList = none := by
    rw [Text.cutAt_none_iff]
    intro hi
    exact hclean.1 (hi.subset (by decide))
  have haddr : addressPart (s ++ "") = s := addressPart_append hclean nofun
  unfold withoutScheme
  rw [hcut, Option.map_none, Option.getD_none]
  rw [String.append_empty] at haddr
  exact haddr.symm

theorem hostPort_of_not_ragged {s : String} (hclean : '/' ∉ s.toList ∧ '?' ∉ s.toList)
    (hb : Text.isBlank s = false) (hc : ':' ∈ s.toList) (h : ¬ Ragged s) : HostPort s := by
  unfold Ragged at h
  push Not at h
  obtain ⟨ht, hfirst, hlast⟩ := h
  obtain ⟨host, port, hs, hport⟩ := exists_last_colon hc
  refine ⟨⟨host, port, hs, ?_, ?_, hport⟩, hclean.1, hclean.2, ht, normalizeTcpEndpoint_self hclean ht hb hc⟩
  · rintro rfl
    rw [String.empty_append] at hs
    exact hport (hfirst port hs)
  · rintro rfl
    rw [String.append_empty] at hs
    exact hlast host hs

/-- What is returned is a host and a port, unless the address of the endpoint is ragged. -/
theorem normalizeTcpEndpoint_sound_iff (raw : String) :
    (∀ s, normalizeTcpEndpoint raw = .ok s → HostPort s) ↔
      ∀ r : Reading raw, Text.isBlank r.address = false → ':' ∈ r.address.toList → ¬ Ragged r.address := by
  constructor
  · intro h r hb hc
    exact (h r.address (normalizeTcpEndpoint_ok_iff.2 ⟨r.address_eq.symm, hb, hc⟩)).not_ragged
  · intro h s hs
    obtain ⟨r⟩ := Reading.exists raw
    obtain ⟨rfl, hb, hc⟩ := normalizeTcpEndpoint_ok_iff.1 hs
    rw [r.address_eq] at hb hc ⊢
    exact hostPort_of_not_ragged r.address_clean hb hc (h r hb hc)

theorem normalizeTcpEndpoint_no_host : ¬ ∀ raw s, normalizeTcpEndpoint raw = .ok s → HostPort s := by
  intro h
  exact (h ":" ":" (by decide +kernel)).not_ragged (.inr (.inr ⟨"", rfl⟩))

end NapCat.QQClient
