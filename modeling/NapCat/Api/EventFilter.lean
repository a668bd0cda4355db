/-
The event filter of a query: the events it accepts are given by the non-blank tokens of the first of
three strings that has one. Rewriting the strings in ways that keep these tokens changes neither the
answer of a poll nor what a WebSocket is sent.
-/
import NapCat.Api.ListenQuery
import NapCat.Api.Consumers
import Mathlib.Logic.Relation

namespace NapCat.Api

/-! ## Tokens -/

/-- The comma-separated pieces of a string. -/
def pieces (raw : String) : List String := (raw.toList.splitOn ',').map String.ofList

/-- The two texts differ in the case of ASCII letters only. -/
def SameCase (s t : String) : Prop := s.toList.map Char.toLower = t.toList.map Char.toLower

/-- What is documented of `str::to_lowercase`: it leaves no text empty, ASCII case does not matter to it, and an ASCII
text has its letters replaced one by one. -/
structure Lowercases (toLowercase : String → String) : Prop where
  empty_iff : ∀ s, toLowercase s = "" ↔ s = ""
  sameCase : ∀ s t, SameCase s t → toLowercase s = toLowercase t
  ascii : ∀ s : String, (∀ c ∈ s.toList, c.toNat < 128) → toLowercase s = s.toLower

/-- Whether a string is there and has a piece that is not blank. -/
def hasToken (raw : Option String) : Bool := raw.any fun text => (pieces text).any fun piece => !Text.isBlank piece

/-- The three strings, from the one that counts first. -/
def ListenQuery.filters (query : ListenQuery) : List (Option String) :=
  [query.typeFilter, query.typesFilter, query.postType]

/-- The trimmed, lower-cased tokens of a string. -/
def tokens (toLowercase : String → String) (raw : String) : List String :=
  ((pieces raw).filter fun piece => !Text.isBlank piece).map fun piece => toLowercase (Text.trim piece)

section

variable {toLowercase : String → String} (hlower : Lowercases toLowercase)

include hlower in
/-- Lower-casing first and dropping the empty texts gives the tokens. -/
theorem parseEventTypeList_eq (raw : String) : parseEventTypeList toLowercase raw = tokens toLowercase raw := by
  have hp : ((raw.toList.splitOn ',').map fun value => toLowercase (Text.trim (String.ofList value))) =
      (pieces raw).map fun piece => toLowercase (Text.trim piece) := by
    rw [pieces, List.map_map]
    rfl
  rw [parseEventTypeList, hp, tokens, List.filter_map]
  refine congrArg (List.map _) (List.filter_congr fun piece _ => ?_)
  have hiff := hlower.empty_iff (Text.trim piece)
  rw [Function.comp, Text.isBlank, Bool.not_inj_iff, Bool.eq_iff_iff, String.isEmpty_iff, String.isEmpty_iff, hiff]

theorem tokens_eq_nil_iff (raw : String) : tokens toLowercase raw = [] ↔ hasToken (some raw) = false := by
  rw [tokens, List.map_eq_nil_iff, List.filter_eq_nil_iff, hasToken, Option.any_some, List.any_eq_false]

include hlower in
theorem nonEmptyTypes_eq (raw : Option String) :
    nonEmptyTypes toLowercase raw = if hasToken raw then raw.map (tokens toLowercase) else none := by
  cases raw with
  | none => rfl
  | some text =>
    have hnil : tokens toLowercase text = [] ↔ hasToken (some text) = false := tokens_eq_nil_iff text
    unfold nonEmptyTypes
    rw [Option.bind_some]
    dsimp only
    rw [parseEventTypeList_eq hlower]
    cases hh : hasToken (some text) with
    | true =>
      rw [if_neg, if_pos rfl, Option.map_some]
      rw [List.isEmpty_iff, hnil, hh]
      exact Bool.noConfusion
    | false =>
      rw [if_pos, if_neg Bool.false_ne_true]
      rw [List.isEmpty_iff, hnil, hh]

include hlower in
/-- The types are the tokens of the first string that has one. -/
theorem parseEventTypes_eq (query : ListenQuery) :
    parseEventTypes toLowercase query =
      (query.filters.find? hasToken).bind fun raw => raw.map (tokens toLowercase) := by
  unfold parseEventTypes ListenQuery.filters
  rw [nonEmptyTypes_eq hlower, nonEmptyTypes_eq hlower, nonEmptyTypes_eq hlower]
  have hor : ∀ (raw : Option String) (o : Option (List String)),
      (if hasToken raw then raw.map (tokens toLowercase) else none).or o =
        if hasToken raw then raw.map (tokens toLowercase) else o := by
    intro raw o
    cases hh : hasToken raw with
    | false => rfl
    | true =>
      cases raw with
      | none => cases hh
      | some text => rfl
  rw [Option.or_assoc, hor, hor]
  simp only [List.find?_cons, List.find?_nil]
  cases hasToken query.typeFilter with
  | true => rfl
  | false =>
    cases hasToken query.typesFilter with
    | true => rfl
    | false =>
      cases hasToken query.postType with
      | true => rfl
      | false => rfl

include hlower in
theorem accepts_iff (query : ListenQuery) (event : ProtocolEvent) :
    accepts (parseEventTypes toLowercase query) event = true ↔
      (∀ raw ∈ query.filters, hasToken raw = false) ∨
        ∃ raw, query.filters.find? hasToken = some (some raw) ∧
          onebotEventPostType event ∈ tokens toLowercase raw := by
  rw [parseEventTypes_eq hlower]
  cases hf : query.filters.find? hasToken with
  | none =>
    rw [List.find?_eq_none] at hf
    exact iff_of_true rfl (.inl fun raw hr => by simpa using hf raw hr)
  | some raw =>
    have hh : hasToken raw = true := List.find?_some hf
    have hm := List.mem_of_find?_eq_some hf
    cases raw with
    | none => cases hh
    | some text =>
      rw [Option.bind_some, Option.map_some, accepts, List.contains_iff_mem]
      constructor
      · exact fun h => .inr ⟨text, rfl, h⟩
      · rintro (h | ⟨text', ht, h⟩)
        · rw [h _ hm] at hh
          cases hh
        · cases ht
          exact h

theorem onebotEventPostType_mem (event : ProtocolEvent) :
    onebotEventPostType event ∈ ["message", "meta_event"] := by
  cases event with
  | messageReceived m => exact List.mem_cons_self
  | _ => exact List.mem_cons_of_mem _ List.mem_cons_self

/-- The post types are in lower case. -/
theorem toLower_onebotEventPostType (event : ProtocolEvent) :
    (∀ c ∈ (onebotEventPostType event).toList, c.toNat < 128) ∧
      (onebotEventPostType event).toLower = onebotEventPostType event := by
  have hascii : (["message", "meta_event"].all fun t => t.toList.all fun c => c.toNat < 128) = true := by decide
  have hlow : ∀ t ∈ ["message", "meta_event"], t.toLower = t := by decide +kernel
  have hmem := onebotEventPostType_mem event
  exact ⟨fun c hc => of_decide_eq_true (List.all_eq_true.1 (List.all_eq_true.1 hascii _ hmem) c hc), hlow _ hmem⟩

include hlower in
/-- A piece that spells the post type of an event, padded and in any case, is the token that accepts it. -/
theorem mem_tokens_of_sameCase {raw piece : String} {event : ProtocolEvent} (hp : piece ∈ pieces raw)
    (hcase : SameCase (Text.trim piece) (onebotEventPostType event)) :
    onebotEventPostType event ∈ tokens toLowercase raw := by
  obtain ⟨hascii, hlow⟩ := toLower_onebotEventPostType event
  have htoken : toLowercase (Text.trim piece) = onebotEventPostType event := by
    rw [hlower.sameCase _ _ hcase, hlower.ascii _ hascii, hlow]
  have hne : Text.isBlank piece = false := by
    rw [Text.isBlank, ← Bool.not_eq_true, String.isEmpty_iff]
    intro he
    rw [he, (hlower.empty_iff "").2 rfl] at htoken
    exact absurd (htoken ▸ onebotEventPostType_mem event) (by decide)
  exact List.mem_map.2 ⟨piece, List.mem_filter.2 ⟨hp, by rw [hne]; rfl⟩, htoken⟩

end

/-! ## Rewriting the strings -/

/-- What may be done to the pieces of a string. -/
inductive Rewrite : List String → List String → Prop
  | reorder {ps qs : List String} (h : ps.Perm qs) : Rewrite ps qs
  | again {p : String} {ps : List String} (h : p ∈ ps) : Rewrite ps (p :: ps)
  | pad {p : String} {ps : List String} (l r : String) (hl : Text.isBlank l = true) (hr : Text.isBlank r = true) :
      Rewrite (p :: ps) ((l ++ p ++ r) :: ps)
  | recase {p q : String} {ps : List String} (h : SameCase p q) : Rewrite (p :: ps) (q :: ps)
  | blank {b : String} {ps : List String} (h : Text.isBlank b = true) : Rewrite ps (b :: ps)

/-- What may be done to one of the three strings. -/
inductive StringRewrite : Option String → Option String → Prop
  | text {raw raw' : String} (h : Relation.EqvGen Rewrite (pieces raw) (pieces raw')) :
      StringRewrite (some raw) (some raw')
  | blank {raw : String} (h : Text.isBlank raw = true) : StringRewrite (some raw) none

/-- What may be done to a query: one string is rewritten, or changed at will below one that has a token. -/
inductive QueryRewrite : ListenQuery → ListenQuery → Prop
  | typeFilter {q : ListenQuery} {a b : Option String} (h : StringRewrite a b) :
      QueryRewrite { q with typeFilter := a } { q with typeFilter := b }
  | typesFilter {q : ListenQuery} {a b : Option String} (h : StringRewrite a b) :
      QueryRewrite { q with typesFilter := a } { q with typesFilter := b }
  | postType {q : ListenQuery} {a b : Option String} (h : StringRewrite a b) :
      QueryRewrite { q with postType := a } { q with postType := b }
  | belowType {q : ListenQuery} (types postType : Option String) (h : hasToken q.typeFilter = true) :
      QueryRewrite q { q with typesFilter := types, postType := postType }
  | belowTypes {q : ListenQuery} (postType : Option String) (h : hasToken q.typesFilter = true) :
      QueryRewrite q { q with postType := postType }

/-- A non-blank piece is a token, trimmed and in lower case. -/
def TokenOf (toLowercase : String → String) (ps : List String) (t : String) : Prop :=
  ∃ p ∈ ps, Text.isBlank p = false ∧ toLowercase (Text.trim p) = t

/-- Trimming does not look at the case of letters. -/
theorem sameCase_trim {s t : String} (h : SameCase s t) : SameCase (Text.trim s) (Text.trim t) := by
  have hmap : ∀ s : String, (Text.trim s).toList.map Char.toLower =
      ((s.toList.map Char.toLower).dropWhile Text.isWhitespace).rdropWhile Text.isWhitespace := by
    intro s
    have hp : Text.isWhitespace ∘ Char.toLower = Text.isWhitespace := funext Text.isWhitespace_toLower
    rw [Text.trim, String.toList_ofList, List.dropWhile_map, hp, List.rdropWhile, List.rdropWhile, ← List.map_reverse,
      List.dropWhile_map, hp, List.map_reverse]
  unfold SameCase at h ⊢
  rw [hmap, hmap, h]

theorem isBlank_of_sameCase {s t : String} (h : SameCase s t) : Text.isBlank s = Text.isBlank t := by
  have hl := congrArg List.length (sameCase_trim h)
  rw [List.length_map, List.length_map] at hl
  rw [Text.isBlank, Text.isBlank, Bool.eq_iff_iff, String.isEmpty_iff, String.isEmpty_iff, ← String.toList_eq_nil_iff,
    ← String.toList_eq_nil_iff, ← List.length_eq_zero_iff, ← List.length_eq_zero_iff, hl]

section

variable {toLowercase : String → String} (hlower : Lowercases toLowercase)

theorem tokenOf_cons {p : String} {ps : List String} {t : String} :
    TokenOf toLowercase (p :: ps) t ↔
      (Text.isBlank p = false ∧ toLowercase (Text.trim p) = t) ∨ TokenOf toLowercase ps t := by
  rw [TokenOf, List.exists_mem_cons_iff, TokenOf]

include hlower in
/-- Rewriting keeps the tokens. -/
theorem Rewrite.tokenOf {ps qs : List String} (h : Rewrite ps qs) (t : String) :
    TokenOf toLowercase ps t ↔ TokenOf toLowercase qs t := by
  cases h with
  | reorder h => exact exists_congr fun p => and_congr_left fun _ => h.mem_iff
  | again h =>
    rw [tokenOf_cons]
    exact ⟨.inr, fun ht => ht.elim (fun hp => ⟨_, h, hp⟩) id⟩
  | pad l r hl hr =>
    rename_i p ps
    rw [tokenOf_cons, tokenOf_cons, Text.trim_pad hl hr, Text.isBlank, Text.isBlank, Text.trim_pad hl hr]
  | recase h => rw [tokenOf_cons, tokenOf_cons, isBlank_of_sameCase h, hlower.sameCase _ _ (sameCase_trim h)]
  | blank h =>
    rw [tokenOf_cons, h]
    exact ⟨.inr, fun ht => ht.resolve_left fun hp => Bool.noConfusion hp.1⟩

theorem mem_tokens_iff {raw t : String} : t ∈ tokens toLowercase raw ↔ TokenOf toLowercase (pieces raw) t := by
  simp only [tokens, List.mem_map, List.mem_filter, Bool.not_eq_true', TokenOf, and_assoc]

theorem hasToken_some_iff {raw : String} :
    hasToken (some raw) = true ↔ ∃ t, TokenOf toLowercase (pieces raw) t := by
  simp only [hasToken, Option.any_some, List.any_eq_true, Bool.not_eq_true', TokenOf]
  constructor
  · rintro ⟨p, hp, hb⟩
    exact ⟨_, p, hp, hb, rfl⟩
  · rintro ⟨t, p, hp, hb, -⟩
    exact ⟨p, hp, hb⟩

/-- A blank string has no token. -/
theorem hasToken_of_isBlank {raw : String} (h : Text.isBlank raw = true) : hasToken (some raw) = false := by
  rw [hasToken, Option.any_some, List.any_eq_false]
  intro p hp
  obtain ⟨piece, hpiece, rfl⟩ := List.mem_map.1 hp
  have hb : Text.isBlank (String.ofList piece) = true := by
    rw [Text.isBlank_iff, String.toList_ofList]
    exact fun c hc => Text.isBlank_iff.1 h c (Text.mem_of_mem_splitOn hpiece hc)
  rw [hb]
  exact Bool.noConfusion

/-! ## What is accepted -/

/-- The two strings have the same tokens, if any. -/
def SameTokens (toLowercase : String → String) (a b : Option String) : Prop :=
  hasToken a = hasToken b ∧ ∀ t, t ∈ a.elim [] (tokens toLowercase) ↔ t ∈ b.elim [] (tokens toLowercase)

theorem SameTokens.refl (a : Option String) : SameTokens toLowercase a a := ⟨rfl, fun _ => Iff.rfl⟩

include hlower in
theorem StringRewrite.sameTokens {a b : Option String} (h : StringRewrite a b) : SameTokens toLowercase a b := by
  cases h with
  | text h =>
    rename_i raw raw'
    have hsame : ∀ t, TokenOf toLowercase (pieces raw) t ↔ TokenOf toLowercase (pieces raw') t := by
      generalize pieces raw = ps at h
      generalize pieces raw' = qs at h
      induction h with
      | rel ps qs h => exact h.tokenOf hlower
      | refl ps => exact fun t => Iff.rfl
      | symm ps qs _ ih => exact fun t => (ih t).symm
      | trans ps qs rs _ _ ih ih' => exact fun t => (ih t).trans (ih' t)
    refine ⟨?_, fun t => mem_tokens_iff.trans ((hsame t).trans mem_tokens_iff.symm)⟩
    rw [Bool.eq_iff_iff, hasToken_some_iff, hasToken_some_iff]
    exact exists_congr hsame
  | blank h =>
    have hno := hasToken_of_isBlank h
    refine ⟨hno, fun t => ?_⟩
    rw [Option.elim_some, (tokens_eq_nil_iff _).2 hno]
    exact Iff.rfl

/-- Strings of the same tokens choose strings of the same tokens. -/
theorem find?_sameTokens {as bs : List (Option String)} (h : List.Forall₂ (SameTokens toLowercase) as bs) :
    Option.Rel (SameTokens toLowercase) (as.find? hasToken) (bs.find? hasToken) := by
  induction h with
  | nil => exact .none
  | @cons a b as bs hab _ ih =>
    rw [List.find?_cons, List.find?_cons, ← hab.1]
    cases hasToken a with
    | true => exact .some hab
    | false => exact ih

/-- The two queries choose strings of the same tokens. -/
def SameChoice (toLowercase : String → String) (q q' : ListenQuery) : Prop :=
  Option.Rel (SameTokens toLowercase) (q.filters.find? hasToken) (q'.filters.find? hasToken)

include hlower in
theorem SameChoice.accepts_eq {q q' : ListenQuery} (h : SameChoice toLowercase q q') (event : ProtocolEvent) :
    accepts (parseEventTypes toLowercase q) event = accepts (parseEventTypes toLowercase q') event := by
  rw [parseEventTypes_eq hlower, parseEventTypes_eq hlower]
  unfold SameChoice at h
  cases hq : q.filters.find? hasToken with
  | none =>
    rw [hq] at h
    cases hq' : q'.filters.find? hasToken with
    | none => rfl
    | some b =>
      rw [hq'] at h
      cases h
  | some a =>
    rw [hq] at h
    cases hq' : q'.filters.find? hasToken with
    | none =>
      rw [hq'] at h
      cases h
    | some b =>
      rw [hq'] at h
      cases h with
      | some h =>
        have ha : hasToken a = true := List.find?_some hq
        have hb : hasToken b = true := List.find?_some hq'
        cases a with
        | none => cases ha
        | some text =>
          cases b with
          | none => cases hb
          | some text' =>
            rw [Option.bind_some, Option.bind_some, Option.map_some, Option.map_some, accepts, accepts, Bool.eq_iff_iff,
              List.contains_iff_mem, List.contains_iff_mem]
            exact h.2 _

include hlower in
theorem QueryRewrite.sameChoice {q q' : ListenQuery} (h : QueryRewrite q q') : SameChoice toLowercase q q' := by
  cases h with
  | typeFilter h =>
    exact find?_sameTokens (.cons (h.sameTokens hlower) (.cons (.refl _) (.cons (.refl _) .nil)))
  | typesFilter h =>
    exact find?_sameTokens (.cons (.refl _) (.cons (h.sameTokens hlower) (.cons (.refl _) .nil)))
  | postType h =>
    exact find?_sameTokens (.cons (.refl _) (.cons (.refl _) (.cons (h.sameTokens hlower) .nil)))
  | belowType types postType h =>
    unfold SameChoice ListenQuery.filters
    simp only [List.find?_cons, h]
    exact .some (SameTokens.refl _)
  | belowTypes postType h =>
    unfold SameChoice ListenQuery.filters
    simp only [List.find?_cons, h]
    cases hasToken q.typeFilter with
    | true => exact .some (SameTokens.refl _)
    | false => exact .some (SameTokens.refl _)

/-- Two queries that are rewritten into each other, and what is the same for them. -/
structure SameEvents (toLowercase : String → String) (q q' : ListenQuery) : Prop where
  accepts_eq : ∀ event, accepts (parseEventTypes toLowercase q) event = accepts (parseEventTypes toLowercase q') event
  timeout_eq : q.pollTimeoutMs = q'.pollTimeoutMs
  budget_eq : q.budget = q'.budget

include hlower in
theorem sameEvents_of_rewrite {q q' : ListenQuery} (h : Relation.EqvGen QueryRewrite q q') :
    SameEvents toLowercase q q' := by
  induction h with
  | rel q q' h => exact ⟨(h.sameChoice hlower).accepts_eq hlower, by cases h <;> rfl, by cases h <;> rfl⟩
  | refl q => exact ⟨fun _ => rfl, rfl, rfl⟩
  | symm q q' _ ih => exact ⟨fun e => (ih.accepts_eq e).symm, ih.timeout_eq.symm, ih.budget_eq.symm⟩
  | trans q q' q'' _ _ ih ih' =>
    exact ⟨fun e => (ih.accepts_eq e).trans (ih'.accepts_eq e), ih.timeout_eq.trans ih'.timeout_eq,
      ih.budget_eq.trans ih'.budget_eq⟩

end

/-! ## Polls and WebSockets -/

theorem listenLoop_congr {types types' : Option (List String)} (h : ∀ event, accepts types event = accepts types' event)
    (timeoutMs : Nat) : ∀ (rounds : Nat) (deliveries : List Delivery) (records : List String),
      listenLoop timeoutMs types rounds deliveries records = listenLoop timeoutMs types' rounds deliveries records := by
  intro rounds
  induction rounds with
  | zero => intro deliveries records; rw [listenLoop, listenLoop]
  | succ rounds ih =>
    intro deliveries records
    cases deliveries with
    | nil => rw [listenLoop, listenLoop]
    | cons d rest =>
      simp only [listenLoop, h d.event, ih rest]

theorem listenMessages_congr {toLowercase : String → String} {q q' : ListenQuery} (h : SameEvents toLowercase q q')
    (deliveries : List Delivery) :
    listenMessages toLowercase q deliveries = listenMessages toLowercase q' deliveries := by
  unfold listenMessages
  rw [h.timeout_eq, h.budget_eq, listenLoop_congr h.accepts_eq]

/-- All of a WebSocket but the form of its filter. -/
def Ws.view (w : Ws) : (ProtocolEvent → Bool) × Nat × Bool × WsPc := (accepts w.types, w.next, w.accepting, w.pc)

namespace Consumers

/-- The same state, up to the form of the filters. -/
structure Same (s s' : Consumers) : Prop where
  rest : { s with sockets := [] } = { s' with sockets := [] }
  sockets : s.sockets.map Ws.view = s'.sockets.map Ws.view

/-- The same event, up to the form of a filter. -/
inductive SameEvent : Event → Event → Prop
  | refl (e : Event) : SameEvent e e
  | wsOpen {types types' : Option (List String)} (h : ∀ event, accepts types event = accepts types' event) :
      SameEvent (.wsOpen types) (.wsOpen types')

theorem view_inj {w w' : Ws} (h : w.view = w'.view) :
    accepts w.types = accepts w'.types ∧ w.next = w'.next ∧ w.accepting = w'.accepting ∧ w.pc = w'.pc := by
  simpa only [Ws.view, Prod.mk.injEq] using h

theorem view_take {w w' : Ws} (h : w.view = w'.view) (event : ProtocolEvent) (time : Option UInt64) :
    (Ws.take w event time).view = (Ws.take w' event time).view := by
  obtain ⟨types, next, accepting, pc⟩ := w
  obtain ⟨types', next', accepting', pc'⟩ := w'
  simp only [Ws.view, Prod.mk.injEq] at h
  obtain ⟨hacc, rfl, rfl, rfl⟩ := h
  simp only [Ws.take, hacc]
  split
  · split
    · simp only [Ws.view, hacc]
    · simp only [Ws.view, hacc]
  · simp only [Ws.view, hacc]

theorem view_recv {w w' : Ws} (h : w.view = w'.view) (bus : List ProtocolEvent) (busOpen : Bool)
    (time : Option UInt64) : (Ws.recv w bus busOpen time).map Ws.view = (Ws.recv w' bus busOpen time).map Ws.view := by
  obtain ⟨hacc, hnext, haccepting, hpc⟩ := view_inj h
  unfold Ws.recv
  rw [hpc, hnext]
  split
  · split
    · rw [Option.map_some, Option.map_some, view_take h]
    · simp only [Option.map_some, Ws.view, hacc, haccepting]
    · simp only [Option.map_some, Ws.view, hacc, haccepting]
    · rfl
  · rfl

theorem view_sent {w w' : Ws} (h : w.view = w'.view) (ok : Bool) :
    (Ws.sent w ok).map Ws.view = (Ws.sent w' ok).map Ws.view := by
  obtain ⟨hacc, hnext, haccepting, hpc⟩ := view_inj h
  unfold Ws.sent
  rw [hpc, haccepting]
  split
  · split
    · simp only [Option.map_some, Ws.view, hacc, hnext]
    · split
      · rfl
      · simp only [Option.map_some, Ws.view, hacc, hnext]
  · rfl

/-- A step of one WebSocket that its view decides. -/
theorem Same.onSocket {s s' : Consumers} (h : Same s s') (i : Nat) {f : Ws → Option Ws}
    (hf : ∀ {w w' : Ws}, w.view = w'.view → (f w).map Ws.view = (f w').map Ws.view) :
    Option.Rel Same
      (s.sockets[i]?.bind fun w => (f w).map fun w' => { s with sockets := s.sockets.set i w' })
      (s'.sockets[i]?.bind fun w => (f w).map fun w' => { s' with sockets := s'.sockets.set i w' }) := by
  have hi : s.sockets[i]?.map Ws.view = s'.sockets[i]?.map Ws.view := by
    rw [← List.getElem?_map, ← List.getElem?_map, h.sockets]
  have hset : ∀ {w w' : Ws}, w.view = w'.view →
      Same { s with sockets := s.sockets.set i w } { s' with sockets := s'.sockets.set i w' } := fun {w w'} hw =>
    ⟨h.rest, by rw [List.map_set, List.map_set, h.sockets, hw]⟩
  cases hw : s.sockets[i]? with
  | none =>
    rw [hw, Option.map_none, eq_comm, Option.map_eq_none_iff] at hi
    rw [hi]
    exact .none
  | some w =>
    rw [hw, Option.map_some, eq_comm, Option.map_eq_some_iff] at hi
    obtain ⟨w', hw', hv⟩ := hi
    have hfw := hf hv
    rw [hw', Option.bind_some, Option.bind_some]
    cases hr : f w with
    | none =>
      rw [hr, Option.map_none, Option.map_eq_none_iff] at hfw
      rw [hfw]
      exact .none
    | some u =>
      rw [hr, Option.map_some, Option.map_eq_some_iff] at hfw
      obtain ⟨u', hu', hvu⟩ := hfw
      rw [hu']
      exact .some (hset hvu.symm)

theorem Same.fields {s s' : Consumers} (h : Same s s') :
    s' = { s with sockets := s'.sockets } := by
  obtain ⟨a, b, c, d, e, f, g, ws⟩ := s
  obtain ⟨a', b', c', d', e', f', g', ws'⟩ := s'
  have := h.rest
  simp only [Consumers.mk.injEq, and_true] at this
  obtain ⟨rfl, rfl, rfl, rfl, rfl, rfl, rfl⟩ := this
  rfl

theorem Same.relayTake {s s' : Consumers} (h : Same s s') (event : ProtocolEvent) :
    Same (s.relayTake event) (s'.relayTake event) := by
  rw [h.fields]
  cases event with
  | messageReceived m => exact ⟨rfl, h.sockets⟩
  | connected endpoint => exact ⟨rfl, h.sockets⟩
  | disconnected => exact ⟨rfl, h.sockets⟩
  | warning text => exact ⟨rfl, h.sockets⟩

/-- A step does not look at the form of a filter. -/
theorem step_same {s s' : Consumers} {e e' : Event} (h : Same s s') (he : SameEvent e e') :
    Option.Rel Same (step s e) (step s' e') := by
  have hws := h.sockets
  have hf := h.fields
  generalize s'.sockets = ws' at hf hws
  subst hf
  cases he with
  | wsOpen ht =>
    refine .some ⟨rfl, ?_⟩
    simp only [List.map_append, hws, List.map_cons, List.map_nil, Ws.view]
    rw [funext ht]
  | refl =>
    have hsame : Same s { s with sockets := ws' } := ⟨rfl, hws⟩
    cases e with
    | send event =>
      simp only [step]
      split
      · exact .some ⟨rfl, hws⟩
      · exact .none
    | dropProtocolSenders => exact .some ⟨rfl, hws⟩
    | relayRecv =>
      simp only [step]
      split
      · split
        · exact .some (hsame.relayTake _)
        · exact .some ⟨rfl, hws⟩
        · exact .some ⟨rfl, hws⟩
        · exact .none
      · exact .none
    | relayDispatched =>
      simp only [step]
      split
      · exact .some ⟨rfl, hws⟩
      · exact .none
    | publish event =>
      simp only [step]
      split
      · exact .some ⟨rfl, hws⟩
      · exact .none
    | dropBusSenders =>
      have hall : ∀ ws : List Ws, (ws.all fun w => !w.pc.live) = (ws.map Ws.view).all fun v => !v.2.2.2.live :=
        fun ws => by rw [List.all_map]; rfl
      simp only [step, hall, hws]
      split
      · exact .some ⟨rfl, hws⟩
      · exact .none
    | wsOpen types => exact .some ⟨rfl, by simp only [List.map_append, hws]⟩
    | wsRecv i time => exact hsame.onSocket i fun hv => view_recv hv s.bus s.busOpen time
    | wsSent i ok => exact hsame.onSocket i fun hv => view_sent hv ok
    | wsBroken i =>
      simp only [step, Option.map_eq_bind]
      refine hsame.onSocket i (f := fun w => some { w with accepting := false }) fun {w w'} hv => ?_
      obtain ⟨hacc, hnext, -, hpc⟩ := view_inj hv
      simp only [Option.map_some, Ws.view, hacc, hnext, hpc]

/-- A WebSocket with another form of its filter is sent the same. -/
theorem exec_wsOpen {types types' : Option (List String)} (h : ∀ event, accepts types event = accepts types' event)
    (s : Consumers) (before after : List Event) :
    Option.Rel Same (Run.exec step s (before ++ .wsOpen types :: after))
      (Run.exec step s (before ++ .wsOpen types' :: after)) := by
  have hrefl : ∀ es : List Event, List.Forall₂ SameEvent es es := fun es => List.forall₂_same.2 fun e _ => .refl e
  have hevents : List.Forall₂ SameEvent (before ++ .wsOpen types :: after) (before ++ .wsOpen types' :: after) :=
    List.rel_append (hrefl before) (.cons (.wsOpen h) (hrefl after))
  have hstep : ∀ s t a b, Same s t → SameEvent a b → Option.Rel Same (step s a) (step t b) := fun _ _ _ _ => step_same
  exact Run.exec_related hstep hevents ⟨rfl, rfl⟩

end Consumers

/-- What the filter accepts, and what leaves it as it is: queries that are rewritten into each other give the same
answers to a poll and have a WebSocket sent the same in every run, and the post type of an event may be spelled in
any case. -/
theorem filter_laws (toLowercase : String → String) (hlower : Lowercases toLowercase) :
    (∀ (query : ListenQuery) (event : ProtocolEvent),
      accepts (parseEventTypes toLowercase query) event = true ↔
        (∀ raw ∈ query.filters, hasToken raw = false) ∨
          ∃ raw, query.filters.find? hasToken = some (some raw) ∧
            onebotEventPostType event ∈ tokens toLowercase raw) ∧
      (∀ q q' : ListenQuery, Relation.EqvGen QueryRewrite q q' →
        (∀ deliveries, listenMessages toLowercase q deliveries = listenMessages toLowercase q' deliveries) ∧
          ∀ (s : Consumers) (before after : List Consumers.Event),
            Option.Rel Consumers.Same
              (Run.exec Consumers.step s (before ++ .wsOpen (parseEventTypes toLowercase q) :: after))
              (Run.exec Consumers.step s (before ++ .wsOpen (parseEventTypes toLowercase q') :: after))) ∧
      ∀ (raw piece : String) (event : ProtocolEvent), piece ∈ pieces raw →
        SameCase (Text.trim piece) (onebotEventPostType event) →
          onebotEventPostType event ∈ tokens toLowercase raw := by
  refine ⟨accepts_iff hlower, fun q q' h => ?_, fun raw piece event => mem_tokens_of_sameCase hlower⟩
  have hsame := sameEvents_of_rewrite hlower h
  exact ⟨listenMessages_congr hsame, Consumers.exec_wsOpen hsame.accepts_eq⟩

theorem lowercases_toLower : Lowercases String.toLower where
  empty_iff _ := String.map_eq_empty
  ascii _ _ := rfl
  sameCase s t h := by
    have hmap : ∀ s : String, s.toLower = s.map Char.toLower := fun _ => rfl
    rw [← String.toList_inj, hmap, hmap, String.toList_map, String.toList_map]
    exact h

def typed (raw : String) : ListenQuery := { typeFilter := some raw }

/-- The types in another order and another case. -/
theorem typed_rewrite : Relation.EqvGen QueryRewrite (typed "message,Meta_Event") (typed "meta_event,message") := by
  have hfrom : pieces "message,Meta_Event" = ["message", "Meta_Event"] := by decide +kernel
  have hto : pieces "meta_event,message" = ["meta_event", "message"] := by decide +kernel
  have hcase : SameCase "Meta_Event" "meta_event" := by unfold SameCase; decide
  have h : Relation.EqvGen Rewrite (pieces "message,Meta_Event") (pieces "meta_event,message") := by
    rw [hfrom, hto]
    exact .trans _ ["Meta_Event", "message"] _ (.rel _ _ (.reorder (.swap ..))) (.rel _ _ (.recase hcase))
  exact .rel _ _ (QueryRewrite.typeFilter (q := {}) (.text h))

theorem filter_laws_typed :
    (accepts (parseEventTypes String.toLower (typed "meta_event")) .disconnected = true ↔
      (∀ raw ∈ (typed "meta_event").filters, hasToken raw = false) ∨
        ∃ raw, (typed "meta_event").filters.find? hasToken = some (some raw) ∧
          onebotEventPostType .disconnected ∈ tokens String.toLower raw) ∧
      listenMessages String.toLower (typed "message,Meta_Event") [⟨0, some 7, .disconnected⟩] =
        listenMessages String.toLower (typed "meta_event,message") [⟨0, some 7, .disconnected⟩] :=
  ⟨(filter_laws String.toLower lowercases_toLower).1 (typed "meta_event") .disconnected,
    ((filter_laws String.toLower lowercases_toLower).2.1 _ _ typed_rewrite).1 _⟩

end NapCat.Api
