import OrionBroker.Render.Answers

/-!
# Which answers are JSON documents

A render function puts its text together from pieces, and commas are computed from what comes later. `Piece text sh
ts` says of one piece: if the strings it shows (`sh`) may stand in JSON, the text is spelled `ts` and shows them
all; and a quotation mark in the details of a status, which is first replaced by `\"` and then escaped for HTML,
spoils its line whatever else there is.

* `quotesReplaced_spoils`: what becomes of details with a quotation mark is no string body.
* `piece_update`, `piece_query`: an answer is the piece of one JSON value.
* `Piece.wellFormed_iff`: so it is a document that shows its strings exactly when these are valid.
* `answers_document_iff`: the two answers together, with a condition on the characters.
-/

namespace OrionBroker.Answer

open JsonText

/-! ## The strings of an answer -/

/-- `texts` go through `htmlEscape`, `keys` are the names of members, `details` those of a status. -/
structure Shown where
  texts : List String := []
  keys : List String := []
  details : List String := []

namespace Shown

def append (a b : Shown) : Shown := ⟨a.texts ++ b.texts, a.keys ++ b.keys, a.details ++ b.details⟩

instance : Append Shown := ⟨append⟩

def each {α : Type} (f : α → Shown) : List α → Shown
  | [] => {}
  | x :: xs => f x ++ each f xs

/-- Every string is the body of a JSON string, escaped for HTML where `valueTag` does so. -/
structure Valid (sh : Shown) : Prop where
  texts : ∀ s ∈ sh.texts, validBody (htmlEscape s.toList) = true
  keys : ∀ key ∈ sh.keys, validBody key.toList = true
  details : ∀ d ∈ sh.details, validBody (htmlEscape d.toList) = true ∧ '"' ∉ d.toList

/-- Every string is one string token. -/
structure In (sh : Shown) (ts : List Token) : Prop where
  texts : ∀ s ∈ sh.texts, .string (htmlEscape s.toList) ∈ ts
  keys : ∀ key ∈ sh.keys, .string key.toList ∈ ts
  details : ∀ d ∈ sh.details, .string (htmlEscape d.toList) ∈ ts

theorem valid_append {a b : Shown} : (a ++ b).Valid ↔ a.Valid ∧ b.Valid := by
  constructor
  · rintro ⟨ht, hk, hd⟩
    obtain ⟨ht, ht'⟩ := List.forall_mem_append.1 ht
    obtain ⟨hk, hk'⟩ := List.forall_mem_append.1 hk
    obtain ⟨hd, hd'⟩ := List.forall_mem_append.1 hd
    exact ⟨⟨ht, hk, hd⟩, ⟨ht', hk', hd'⟩⟩
  · rintro ⟨⟨ht, hk, hd⟩, ⟨ht', hk', hd'⟩⟩
    exact ⟨List.forall_mem_append.2 ⟨ht, ht'⟩, List.forall_mem_append.2 ⟨hk, hk'⟩,
      List.forall_mem_append.2 ⟨hd, hd'⟩⟩

theorem In.append {a b : Shown} {ts us : List Token} (ha : a.In ts) (hb : b.In us) : (a ++ b).In (ts ++ us) := by
  refine ⟨List.forall_mem_append.2 ⟨fun s hs => ?_, fun s hs => ?_⟩,
    List.forall_mem_append.2 ⟨fun s hs => ?_, fun s hs => ?_⟩,
    List.forall_mem_append.2 ⟨fun s hs => ?_, fun s hs => ?_⟩⟩
  · exact List.mem_append_left _ (ha.texts s hs)
  · exact List.mem_append_right _ (hb.texts s hs)
  · exact List.mem_append_left _ (ha.keys s hs)
  · exact List.mem_append_right _ (hb.keys s hs)
  · exact List.mem_append_left _ (ha.details s hs)
  · exact List.mem_append_right _ (hb.details s hs)

theorem In.mono {a : Shown} {ts us : List Token} (h : a.In ts) (hsub : ∀ t ∈ ts, t ∈ us) : a.In us :=
  ⟨fun s hs => hsub _ (h.texts s hs), fun k hk => hsub _ (h.keys k hk), fun d hd => hsub _ (h.details d hd)⟩

theorem In.none (ts : List Token) : In {} ts := ⟨by simp, by simp, by simp⟩

@[simp] theorem append_none (a : Shown) : a ++ ({} : Shown) = a := by
  change append a {} = a
  simp [append]

@[simp] theorem none_append (a : Shown) : ({} : Shown) ++ a = a := by
  change append {} a = a
  simp [append]

end Shown

/-- A valid text has no NUL, so nothing of it is lost. -/
theorem cStr_of_valid {s : String} (h : validBody (htmlEscape s.toList) = true) : cStr s = s.toList := by
  unfold cStr
  rw [List.takeWhile_eq_self_iff]
  intro c hc
  by_contra hnul
  have hnul : c = '\x00' := by simpa using hnul
  have hmem : c ∈ htmlEscape s.toList := List.mem_flatMap.2 ⟨c, hc, by rw [hnul]; decide⟩
  have := not_control_of_validBody h c hmem
  rw [hnul] at this
  exact absurd this (by decide)

/-! ## Pieces -/

structure Piece (text : String) (sh : Shown) (ts : List Token) : Prop where
  spells : sh.Valid → Spells text.toList ts
  shows : sh.Valid → sh.In ts
  /-- Details with a quotation mark make a line that is refused. -/
  refused : ∀ d ∈ sh.details, '"' ∈ cStr d → ∃ line, '\n' :: line <:+: text.toList ∧ Lexer.run step .between line = none

theorem Piece.append {a b : String} {sh sh' : Shown} {ts us : List Token} (ha : Piece a sh ts) (hb : Piece b sh' us) :
    Piece (a ++ b) (sh ++ sh') (ts ++ us) := by
  refine ⟨fun hv => ?_, fun hv => ?_, fun d hd hq => ?_⟩
  · obtain ⟨hv, hv'⟩ := Shown.valid_append.1 hv
    rw [String.toList_append]
    exact (ha.spells hv).append (hb.spells hv')
  · obtain ⟨hv, hv'⟩ := Shown.valid_append.1 hv
    exact (ha.shows hv).append (hb.shows hv')
  · rw [String.toList_append]
    rcases List.mem_append.1 hd with hd | hd
    · obtain ⟨line, hline, hno⟩ := ha.refused d hd hq
      exact ⟨line, hline.trans (List.infix_append' [] _ _), hno⟩
    · obtain ⟨line, hline, hno⟩ := hb.refused d hd hq
      exact ⟨line, hline.trans (List.suffix_append _ _).isInfix, hno⟩

/-- A piece with no strings of its own. -/
theorem Piece.of_spells {text : String} {ts : List Token} (h : Spells text.toList ts) : Piece text {} ts :=
  ⟨fun _ => h, fun _ => .none ts, by simp⟩

/-- Strings that are known to be valid need not be mentioned. -/
theorem Piece.forget {text : String} {texts : List String} {ts : List Token} (h : Piece text { texts := texts } ts)
    (hv : ∀ s ∈ texts, validBody (htmlEscape s.toList) = true) : Piece text {} ts :=
  Piece.of_spells (h.spells ⟨hv, by simp, by simp⟩)

/-- The text is a document that shows its strings exactly when these are valid. -/
theorem Piece.wellFormed_iff {text : String} {sh : Shown} {v : Value} (h : Piece text sh v.tokens) :
    (∃ w : Value, lex text.toList = some w.tokens ∧ sh.In w.tokens) ↔ sh.Valid := by
  constructor
  · rintro ⟨w, hlex, hin⟩
    refine ⟨fun s hs => validBody_of_lex hlex (hin.texts s hs), fun key hk => validBody_of_lex hlex (hin.keys key hk),
      fun d hd => ?_⟩
    have hvalid := validBody_of_lex hlex (hin.details d hd)
    refine ⟨hvalid, fun hq => ?_⟩
    obtain ⟨line, hline, hno⟩ := h.refused d hd (by rwa [cStr_of_valid hvalid])
    have := run_line hlex hline
    rw [hno] at this
    cases this
  · intro hv
    exact ⟨v, (h.spells hv).lex_eq, h.shows hv⟩

/-! ### Lines and containers -/

section

variable {indent tag : String}

theorem Piece.valueTag (hi : Indent indent) (ht : validBody tag.toList = true) (value : String) (comma : Bool) :
    Piece (OrionBroker.valueTag indent tag value .json comma false false) { texts := [value] }
      (memberTokens comma [(tag.toList, .string (htmlEscape (cStr value)))]) := by
  have hvalid : Shown.Valid { texts := [value] } → validBody (htmlEscape value.toList) = true :=
    fun hv => hv.texts value List.mem_cons_self
  rw [memberTokens_one]
  refine ⟨fun hv => ?_, fun hv => ⟨?_, by simp, by simp⟩, by simp⟩
  · have hv := hvalid hv
    rw [← cStr_of_valid hv] at hv
    simpa [Value.tokens] using spells_valueTag hi ht hv comma
  · simp [cStr_of_valid (hvalid hv), Value.tokens]

/-- A container between its brackets, with its name when it is a member. -/
theorem Piece.container (hi : Indent indent) (xmlTag tag endName : String) (isVector showTag : Bool)
    (ht : showTag = true → validBody tag.toList = true) (comma : Bool) {body : String} {sh : Shown} {ts : List Token}
    (hb : Piece body sh ts) :
    Piece (startTag' indent xmlTag tag .json isVector showTag false ++ body ++
        endTag indent endName .json comma isVector true false) sh
      ((if showTag then [Token.string tag.toList, Token.colon] else []) ++
        (if isVector then Token.lbracket else Token.lbrace) ::
        (ts ++ [if isVector then Token.rbracket else Token.rbrace]) ++ commaIf comma) := by
  have h := ((Piece.of_spells (spells_startTag' xmlTag hi isVector showTag false ht)).append hb).append
    (Piece.of_spells (spells_endTag endName hi comma isVector true))
  simpa using h

/-- A member that is an object. -/
theorem Piece.object (hi : Indent indent) (xmlTag tag endName : String) (ht : validBody tag.toList = true)
    (comma : Bool) {body : String} {sh : Shown} {ms : List (List Char × Value)}
    (hb : Piece body sh (memberTokens false ms)) :
    Piece (startTag' indent xmlTag tag .json false true false ++ body ++
        endTag indent endName .json comma false true false) sh (memberTokens comma [(tag.toList, .object ms)]) := by
  rw [memberTokens_one]
  simpa [Value.tokens] using Piece.container hi xmlTag tag endName false true (fun _ => ht) comma hb

/-- A member that is an array. -/
theorem Piece.array (hi : Indent indent) (xmlTag tag endName : String) (ht : validBody tag.toList = true)
    (comma : Bool) {body : String} {sh : Shown} {vs : List Value} (hb : Piece body sh (itemTokens vs)) :
    Piece (startTag' indent xmlTag tag .json true true false ++ body ++
        endTag indent endName .json comma true true false) sh (memberTokens comma [(tag.toList, .array vs)]) := by
  rw [memberTokens_one]
  simpa [Value.tokens] using Piece.container hi xmlTag tag endName true true (fun _ => ht) comma hb

/-- An item that is an object. -/
theorem Piece.item (hi : Indent indent) (xmlTag tag endName : String) (comma : Bool) {body : String} {sh : Shown}
    {ms : List (List Char × Value)} (hb : Piece body sh (memberTokens false ms)) :
    Piece (startTag' indent xmlTag tag .json false false false ++ body ++
        endTag indent endName .json comma false true false) sh ((Value.object ms).tokens ++ commaIf comma) := by
  simpa [Value.tokens] using Piece.container hi xmlTag tag endName false false (by simp) comma hb

end

/-- Members one after the other: the first have a comma behind them when others follow. -/
theorem Piece.join {a b : String} {sh sh' : Shown} {more : Bool} {ms ms' : List (List Char × Value)}
    (ha : Piece a sh (memberTokens (more || !ms'.isEmpty) ms)) (hb : Piece b sh' (memberTokens more ms')) :
    Piece (a ++ b) (sh ++ sh') (memberTokens more (ms ++ ms')) := by
  rw [memberTokens_append]
  exact ha.append hb

section

variable {α : Type} {f : Bool → α → String} {sh : α → Shown}

theorem Piece.items {val : α → Value} {xs : List α}
    (h : ∀ x ∈ xs, ∀ comma, Piece (f comma x) (sh x) ((val x).tokens ++ commaIf comma)) :
    Piece (renderEach f xs) (Shown.each sh xs) (itemTokens (xs.map val)) := by
  induction xs with
  | nil => exact Piece.of_spells .nil
  | cons x xs ih =>
    have hx := h x List.mem_cons_self (!xs.isEmpty)
    have hxs := ih fun y hy => h y (List.mem_cons_of_mem _ hy)
    simpa [renderEach, Shown.each, itemTokens] using hx.append hxs

theorem Piece.members {member : α → List Char × Value} {xs : List α}
    (h : ∀ x ∈ xs, ∀ comma, Piece (f comma x) (sh x) (memberTokens comma [member x])) :
    Piece (renderEach f xs) (Shown.each sh xs) (memberTokens false (xs.map member)) := by
  induction xs with
  | nil => exact Piece.of_spells .nil
  | cons x xs ih =>
    have hx := h x List.mem_cons_self (!xs.isEmpty)
    have hxs := ih fun y hy => h y (List.mem_cons_of_mem _ hy)
    have hmap : (xs.map member).isEmpty = xs.isEmpty := by cases xs <;> rfl
    have hjoin : Piece (f (!xs.isEmpty) x ++ renderEach f xs) (sh x ++ Shown.each sh xs)
        (memberTokens false ([member x] ++ xs.map member)) :=
      Piece.join (by simpa [hmap] using hx) hxs
    simpa [renderEach, Shown.each] using hjoin

end

/-! ## Status codes -/

/-- The buffer of `strReplace` after a quotation mark: its text begins with the backslash of the replacement. -/
def Marked (buf : List Char) (toIx : Nat) : Prop :=
  ∃ c rest, buf = '\\' :: c :: rest ∧ (c = '"' ∨ c = '\x00') ∧ 2 ≤ toIx

theorem Marked.set {buf : List Char} {toIx : Nat} (h : Marked buf toIx) (c : Char) : Marked (buf.set toIx c) (toIx + 1) := by
  obtain ⟨d, rest, rfl, hd, hle⟩ := h
  obtain ⟨n, rfl⟩ := Nat.exists_eq_add_of_le hle
  refine ⟨d, rest.set n c, ?_, hd, by omega⟩
  rw [Nat.add_comm]
  rfl

theorem marked_snprintf {buf : List Char} {toLen toIx : Nat} (hlen : 2 ≤ toLen) :
    Marked (snprintf buf toLen ['\\', '"']) (toIx + 2) := by
  unfold snprintf
  rcases Nat.eq_or_lt_of_le hlen with rfl | hlt
  · exact ⟨'\x00', buf.drop 2, rfl, .inr rfl, by omega⟩
  · obtain ⟨n, rfl⟩ := Nat.exists_eq_add_of_lt hlt
    refine ⟨'"', '\x00' :: buf.drop 3, ?_, .inl rfl, by omega⟩
    have htake : List.take (2 + n + 1 - 1) ['\\', '"'] = ['\\', '"'] := by
      rw [List.take_of_length_le]
      simp
    rw [htake]
    rfl

theorem marked_strReplaceLoop {toLen : Nat} (hlen : 2 ≤ toLen) : ∀ (src buf : List Char) (toIx : Nat),
    Marked buf toIx ∨ '"' ∈ src →
    Marked (strReplaceLoop toLen '"' ['\\', '"'] src buf toIx).1 (strReplaceLoop toLen '"' ['\\', '"'] src buf toIx).2
  | [], buf, toIx, h => by simpa [strReplaceLoop] using h
  | c :: src, buf, toIx, h => by
    rw [strReplaceLoop]
    split
    · exact marked_strReplaceLoop hlen src _ _ (.inl (marked_snprintf hlen))
    · rename_i hc
      refine marked_strReplaceLoop hlen src _ _ ?_
      rcases h with h | h
      · exact .inl (h.set c)
      · exact .inr ((List.mem_cons.1 h).resolve_left (Ne.symm hc))

/-- A replaced text is a lone backslash, or begins with a backslash and a quotation mark. -/
theorem strReplace_begins {toLen : Nat} (hlen : 2 ≤ toLen) {src : List Char} (h : '"' ∈ src) :
    strReplace toLen src '"' ['\\', '"'] = ['\\'] ∨
      ∃ rest, strReplace toLen src '"' ['\\', '"'] = '\\' :: '"' :: rest := by
  have hm := (marked_strReplaceLoop hlen src (List.replicate (toLen + 1) '\x00') 0 (.inr h)).set '\x00'
  obtain ⟨c, rest, hbuf, hc, -⟩ := hm
  have hdef : strReplace toLen src '"' ['\\', '"'] = List.takeWhile (· != '\x00')
      ((strReplaceLoop toLen '"' ['\\', '"'] src (List.replicate (toLen + 1) '\x00') 0).1.set
        (strReplaceLoop toLen '"' ['\\', '"'] src (List.replicate (toLen + 1) '\x00') 0).2 '\x00') := rfl
  rw [hdef, hbuf]
  rcases hc with rfl | rfl
  · exact .inr ⟨rest.takeWhile (· != '\x00'), rfl⟩
  · exact .inl rfl

/-- What becomes of details with a quotation mark cannot stand in a line. -/
theorem quotesReplaced_spoils {d : String} (h : '"' ∈ cStr d) :
    htmlEscape (cStr (quotesReplaced d)) = ['\\'] ∨
      ∃ rest, htmlEscape (cStr (quotesReplaced d)) = '\\' :: '&' :: rest := by
  have hne : d.toList ≠ [] := by
    intro he
    simp [cStr, he] at h
  have hlen : 2 ≤ d.length * 2 := by
    have := List.length_pos_iff.2 hne
    rw [String.length_toList] at this
    omega
  rw [quotesReplaced, if_pos h, cStr, String.toList_ofList]
  rcases strReplace_begins hlen h with he | ⟨rest, he⟩
  · rw [he]
    exact .inl (by decide)
  · rw [he]
    refine .inr ⟨['q', 'u', 'o', 't', ';'] ++ htmlEscape (rest.takeWhile (· != '\x00')), ?_⟩
    simp [htmlEscape, htmlChar]

theorem detailsLine_refused {indent : String} (hi : Indent indent) {d : String} (h : '"' ∈ cStr d) :
    Lexer.run step .between (OrionBroker.valueTag indent "details" (quotesReplaced d) .json false false false).toList =
      none := by
  have hopen : Spells (indent.toList ++ ('"' :: ("details".toList ++ ['"', ' ', ':', ' ']))) [.string "details".toList, .colon] :=
    hi.json (Spells.quoted (by decide) (by simp))
  have hrest : Lexer.run step .between ('"' :: (htmlEscape (cStr (quotesReplaced d)) ++ ['"', '\n'])) = none := by
    rcases quotesReplaced_spoils h with he | ⟨rest, he⟩
    · rw [he]
      decide
    · rw [he]
      simp [Lexer.run_cons, step, start, isBlank, BodyState.step, isControl, isEscape]
  have hline : (OrionBroker.valueTag indent "details" (quotesReplaced d) .json false false false).toList =
      (indent.toList ++ ('"' :: ("details".toList ++ ['"', ' ', ':', ' ']))) ++
        ('"' :: (htmlEscape (cStr (quotesReplaced d)) ++ ['"', '\n'])) := by
    simp [OrionBroker.valueTag]
  rw [hline, Lexer.run_append_some hopen, hrest]
  rfl

theorem validBody_toString (n : Int) : validBody (toString n).toList = true := by
  have hdigit : ∀ (n : Nat), ∀ c ∈ (toString n).toList, c.isDigit = true := by
    intro n c hc
    rw [Nat.toString_eq_repr, Nat.toList_repr] at hc
    exact Nat.isDigit_of_mem_toDigits (by decide) (by decide) hc
  have hok : ∀ c : Char, c.isDigit = true ∨ c = '-' → c ≠ '"' ∧ c ≠ '\\' ∧ isControl c = false := by
    rintro c (hc | rfl)
    · refine ⟨?_, ?_, ?_⟩
      · rintro rfl
        exact absurd hc (by decide)
      · rintro rfl
        exact absurd hc (by decide)
      · have hlow : ∀ n < 0x20, (Char.ofNat n).isDigit = false := by decide
        by_contra h
        have h : c.toNat < 0x20 := by simpa [isControl] using h
        rw [← Char.ofNat_toNat c, hlow _ h] at hc
        cases hc
    · decide
  refine validBody_of_all fun c hc => hok c ?_
  cases n with
  | ofNat m => exact .inl (hdigit m c hc)
  | negSucc m =>
    have hneg : (toString (Int.negSucc m)).toList = '-' :: (toString (m + 1)).toList := by
      rw [show toString (Int.negSucc m) = "-" ++ toString (m + 1) from rfl, String.toList_append]
      rfl
    rw [hneg] at hc
    rcases List.mem_cons.1 hc with rfl | hc
    · exact .inr rfl
    · exact .inl (hdigit _ c hc)

def strMember (key value : String) : List Char × Value := (key.toList, .string (htmlEscape (cStr value)))

def statusMembers (s : StatusCode) : List (List Char × Value) :=
  ("code".toList, .string (toString s.settled.code).toList) :: strMember "reasonPhrase" s.settled.reasonPhrase ::
    (if s.settled.details = "" then [] else [strMember "details" s.settled.details])

/-- A status without a code shows nothing of its own. -/
def StatusCode.shown (s : StatusCode) : Shown :=
  if s.code = 0 then {}
  else { texts := [s.reasonPhrase], details := if s.details = "" then [] else [s.details] }

theorem startTag_eq (indent xmlTag tag : String) (showTag : Bool) :
    startTag indent tag .json showTag false = startTag' indent xmlTag tag .json false showTag false := by
  cases showTag <;> rfl

/-- What stands between the brackets of a status that is settled. -/
def statusBody (indent : String) (s : StatusCode) : String :=
  valueTagInt (indent ++ "  ") "code" s.code .json true ++
    valueTag (indent ++ "  ") "reasonPhrase" s.reasonPhrase .json (s.details != "") false false ++
    (if s.details != "" then valueTag (indent ++ "  ") "details" s.details .json false false false else "")

theorem status_render_eq (indent tag : String) (comma : Bool) (s : StatusCode) :
    s.render .json indent tag comma true =
      startTag' indent "" tag .json false true false ++ statusBody indent s.settled ++
        endTag indent tag .json comma false true false := by
  rw [StatusCode.render, startTag_eq indent "" tag true]
  simp [statusBody, String.append_assoc]

/-- The strings of a settled status are ordinary texts. -/
def settledTexts (s : StatusCode) : List String := s.reasonPhrase :: (if s.details = "" then [] else [s.details])

theorem piece_statusBody {indent : String} (hi : Indent indent) (s : StatusCode) :
    Piece (statusBody indent s) { texts := settledTexts s }
      (memberTokens false (("code".toList, .string (toString s.code).toList) :: strMember "reasonPhrase" s.reasonPhrase ::
        (if s.details = "" then [] else [strMember "details" s.details]))) := by
  have hcode : Piece (valueTagInt (indent ++ "  ") "code" s.code .json true) {}
      (memberTokens true [("code".toList, .string (toString s.code).toList)]) := by
    rw [memberTokens_one, Value.tokens]
    exact Piece.of_spells (spells_valueTagInt hi.deeper (by decide) (validBody_toString s.code) true)
  have hreason : ∀ comma, Piece (valueTag (indent ++ "  ") "reasonPhrase" s.reasonPhrase .json comma false false)
      { texts := [s.reasonPhrase] } (memberTokens comma [strMember "reasonPhrase" s.reasonPhrase]) :=
    fun comma => Piece.valueTag hi.deeper (by decide) s.reasonPhrase comma
  have hdetails : Piece (valueTag (indent ++ "  ") "details" s.details .json false false false)
      { texts := [s.details] } (memberTokens false [strMember "details" s.details]) :=
    Piece.valueTag hi.deeper (by decide) s.details false
  unfold statusBody settledTexts
  by_cases hd : s.details = ""
  · have h : Piece _ _ (memberTokens false ([_] ++ [_])) := Piece.join hcode (hreason false)
    rw [if_neg (by simp [hd]), String.append_empty, if_pos hd, if_pos hd, hd]
    exact h
  · have hrest : Piece _ _ (memberTokens false ([_] ++ [_])) := Piece.join (hreason true) hdetails
    have h : Piece _ _ (memberTokens false ([_] ++ [_, _])) := Piece.join hcode hrest
    have hne : (s.details != "") = true := by simpa using hd
    rw [if_pos hne, if_neg hd, if_neg hd, hne, String.append_assoc]
    exact h

theorem quotesReplaced_of_not_mem {d : String} (h : '"' ∉ cStr d) : quotesReplaced d = d := by
  rw [quotesReplaced, if_neg h]

theorem valueTag_ends (indent tag value : String) (comma : Bool) :
    ∃ a, (valueTag indent tag value .json comma false false).toList = a ++ ['\n'] := by
  refine ⟨(indent ++ "\"" ++ tag ++ "\" : \"" ++ String.ofList (htmlEscape (cStr value)) ++ "\"" ++
    (if comma then "," else "")).toList, ?_⟩
  simp [valueTag]

/-- The line of the details stands behind the end of another one. -/
theorem detailsLine_inside (indent : String) {s : StatusCode} (hd : s.details ≠ "") :
    '\n' :: (valueTag (indent ++ "  ") "details" s.details .json false false false).toList <:+:
      (statusBody indent s).toList := by
  have hne : (s.details != "") = true := by simpa using hd
  obtain ⟨a, ha⟩ := valueTag_ends (indent ++ "  ") "reasonPhrase" s.reasonPhrase true
  refine List.IsSuffix.isInfix ⟨(valueTagInt (indent ++ "  ") "code" s.code .json true).toList ++ a, ?_⟩
  rw [statusBody, if_pos hne, hne, String.toList_append, String.toList_append, ha]
  simp

theorem piece_status {indent : String} (hi : Indent indent) (tag : String) (ht : validBody tag.toList = true)
    (comma : Bool) (s : StatusCode) :
    Piece (s.render .json indent tag comma true) s.shown (memberTokens comma [(tag.toList, .object (statusMembers s))]) := by
  have h := Piece.object hi "" tag tag ht comma (piece_statusBody hi s.settled)
  rw [status_render_eq]
  unfold StatusCode.shown
  by_cases hc : s.code = 0
  · rw [if_pos hc]
    refine h.forget ?_
    rw [StatusCode.settled, if_pos hc]
    decide
  · have hsettled : s.settled = { s with details := quotesReplaced s.details } := by rw [StatusCode.settled, if_neg hc]
    rw [if_neg hc]
    -- valid details have no quotation mark and are left as they are
    have hsame : Shown.Valid { texts := [s.reasonPhrase], details := if s.details = "" then [] else [s.details] } →
        s.settled = s ∧ Shown.Valid { texts := settledTexts s.settled } := by
      intro hv
      have hno : '"' ∉ cStr s.details := by
        by_cases hd : s.details = ""
        · rw [hd]
          decide
        · intro hq
          refine (hv.details s.details (by simp [hd])).2 ?_
          exact (List.takeWhile_prefix _).subset hq
      have hs : s.settled = s := by rw [hsettled, quotesReplaced_of_not_mem hno]
      refine ⟨hs, ?_, by simp, by simp⟩
      rw [hs, settledTexts]
      refine List.forall_mem_cons.2 ⟨hv.texts _ (by simp), ?_⟩
      intro d hd
      exact (hv.details d hd).1
    refine ⟨fun hv => h.spells (hsame hv).2, fun hv => ?_, ?_⟩
    · obtain ⟨hs, hv'⟩ := hsame hv
      have hin := h.shows hv'
      rw [statusMembers]
      rw [hs] at hin ⊢
      refine ⟨fun t htm => hin.texts t ?_, by simp, fun d hd => hin.texts d ?_⟩
      · rw [List.mem_singleton.1 htm]
        exact List.mem_cons_self
      · exact List.mem_cons_of_mem _ hd
    · intro d hd hq
      have hd : d = s.details := by
        by_cases hempty : s.details = "" <;> simp [hempty] at hd
        exact hd
      subst hd
      have hne : s.settled.details ≠ "" := by
        rw [hsettled]
        intro he
        have hspoils := quotesReplaced_spoils hq
        simp only at he
        rw [he] at hspoils
        simp [cStr, htmlEscape] at hspoils
      refine ⟨_, (detailsLine_inside indent hne).trans ?_, ?_⟩
      · rw [String.toList_append, String.toList_append]
        exact List.infix_append _ _ _
      · rw [hsettled]
        exact detailsLine_refused hi.deeper hq

/-! ## Entities and metadata -/

def entityMembers (e : EntityId) : List (List Char × Value) :=
  [strMember "type" e.type, strMember "isPattern" e.isPattern, strMember "id" e.id]

def EntityId.shown (e : EntityId) : Shown := { texts := [e.type, e.isPattern, e.id] }

/-- The three lines of an entity. -/
def entityLines (indent : String) (comma : Bool) (e : EntityId) : String :=
  valueTag indent "type" e.type .json true false false ++
    valueTag indent "isPattern" e.isPattern .json true false false ++
    valueTag indent "id" e.id .json comma false false

theorem piece_entityLines {indent : String} (hi : Indent indent) (comma : Bool) (e : EntityId) :
    Piece (entityLines indent comma e) (EntityId.shown e) (memberTokens comma (entityMembers e)) := by
  have htype : Piece _ _ (memberTokens true [strMember "type" e.type]) :=
    Piece.valueTag hi (by decide) e.type true
  have hpattern : Piece _ _ (memberTokens true [strMember "isPattern" e.isPattern]) :=
    Piece.valueTag hi (by decide) e.isPattern true
  have hid : Piece _ _ (memberTokens comma [strMember "id" e.id]) := Piece.valueTag hi (by decide) e.id comma
  have h : Piece _ _ (memberTokens comma ([_] ++ [_])) := Piece.join (by simpa using hpattern) hid
  have h : Piece _ _ (memberTokens comma ([_] ++ [_, _])) := Piece.join (by simpa using htype) h
  rw [entityLines, String.append_assoc]
  exact h

theorem entity_render_eq (indent tag : String) (comma : Bool) (e : EntityId) :
    EntityId.render .json indent tag comma false "" e = entityLines indent comma e := by
  cases comma <;> simp [EntityId.render, entityLines, valueTag, String.append_assoc]

theorem association_render_eq (indent tag assocTag : String) (h : assocTag ≠ "") (comma : Bool) (e : EntityId) :
    EntityId.render .json indent tag comma true assocTag e =
      startTag' indent "" assocTag .json false true false ++ entityLines (indent ++ "  ") false e ++
        endTag indent "" .json comma false true false := by
  rw [← String.toList_inj]
  cases comma <;> simp [EntityId.render, entityLines, valueTag, startTag', endTag, h]

theorem piece_associated {indent : String} (hi : Indent indent) (tag assocTag : String) (h : assocTag ≠ "")
    (ht : validBody assocTag.toList = true) (comma : Bool) (e : EntityId) :
    Piece (EntityId.render .json indent tag comma true assocTag e) (EntityId.shown e)
      (memberTokens comma [(assocTag.toList, .object (entityMembers e))]) := by
  rw [association_render_eq indent tag assocTag h]
  exact Piece.object hi "" assocTag "" ht comma (piece_entityLines hi.deeper false e)

/-- What a metadata of type "Association" shows for its value. -/
def associationValue : Value :=
  .object [("entities".toList, .object [("source".toList, .object (entityMembers emptyEntity)),
    ("target".toList, .object (entityMembers emptyEntity))])]

theorem spells_association {indent : String} (hi : Indent indent) :
    Spells (Association.render .json indent emptyEntity emptyEntity).toList associationValue.tokens := by
  have hempty : ∀ s ∈ (EntityId.shown emptyEntity).texts, validBody (htmlEscape s.toList) = true := by decide
  have hsource : Piece _ {} (memberTokens true [_]) :=
    (piece_associated hi.deeper.deeper "sourceEntityId" "source" (by decide) (by decide) true emptyEntity).forget hempty
  have htarget : Piece _ {} (memberTokens false [_]) :=
    (piece_associated hi.deeper.deeper "targetEntityId" "target" (by decide) (by decide) false emptyEntity).forget hempty
  have hboth : Piece _ _ (memberTokens false ([_] ++ [_])) := Piece.join hsource htarget
  have hentities := Piece.object hi.deeper "entityAssociation" "entities" "entityAssociation" (by decide) false hboth
  have h := (Piece.item hi "" "association" "association" false hentities).spells ⟨by simp, by simp, by simp⟩
  rw [Association.render, if_pos rfl, startTag_eq indent "" "association" false]
  unfold EntityAssociation.render
  have htokens : associationValue.tokens ++ commaIf false = associationValue.tokens := List.append_nil _
  rw [← htokens]
  simp only [String.append_assoc] at h ⊢
  exact h

def metadataValue (md : Metadata) : Value :=
  .object [strMember "name" md.name, strMember "type" md.type,
    ("value".toList, if md.type = "Association" then associationValue else .string (htmlEscape (cStr md.value)))]

/-- An association shows no value. -/
def Metadata.shown (md : Metadata) : Shown :=
  { texts := md.name :: md.type :: (if md.type = "Association" then [] else [md.value]) }

theorem piece_associationLine {indent : String} (hi : Indent indent) :
    Piece (valueTag indent "value" ("\n" ++ Association.render .json indent emptyEntity emptyEntity) .json false true
      false) {} (memberTokens false [("value".toList, associationValue)]) := by
  have hs : Spells ("\n" ++ Association.render .json indent emptyEntity emptyEntity).toList associationValue.tokens := by
    rw [String.toList_append]
    exact spells_newline.2 (spells_association hi)
  have hcstr : cString ("\n" ++ Association.render .json indent emptyEntity emptyEntity) =
      "\n" ++ Association.render .json indent emptyEntity emptyEntity := by
    rw [cString, cStr, List.takeWhile_eq_self_iff.2, String.ofList_toList]
    intro c hc
    have := nul_not_mem hs
    simp only [bne_iff_ne]
    rintro rfl
    exact this hc
  have hname : Spells (indent.toList ++ ('"' :: ("value".toList ++ ['"', ' ', ':', ' ']))) [.string "value".toList, .colon] :=
    hi.json (Spells.quoted (by decide) (by simp))
  have h := (hname.append hs).append (spells_newline.2 spells_nil)
  refine Piece.of_spells ?_
  rw [memberTokens_one, valueTag, hcstr]
  simpa [commaIf] using h

theorem piece_metadata {indent : String} (hi : Indent indent) (comma : Bool) (md : Metadata) :
    Piece (Metadata.render .json indent comma md) (Metadata.shown md)
      ((metadataValue md).tokens ++ commaIf comma) := by
  have hname : Piece _ _ (memberTokens true [strMember "name" md.name]) :=
    Piece.valueTag hi.deeper (by decide) md.name true
  have htype : Piece _ _ (memberTokens true [strMember "type" md.type]) :=
    Piece.valueTag hi.deeper (by decide) md.type true
  have hfront : Piece _ _ (memberTokens true ([_] ++ [_])) := Piece.join hname htype
  unfold Metadata.render metadataValue Metadata.shown
  by_cases ha : md.type = "Association"
  · have hbody : Piece _ _ (memberTokens false ([_, _] ++ [_])) := Piece.join hfront (piece_associationLine hi.deeper)
    have h := Piece.item hi "contextMetadata" "contextMetadata" "contextMetadata" comma hbody
    rw [decide_eq_true ha, if_pos ha, if_pos ha]
    simp only [String.append_assoc, if_true] at h ⊢
    exact h
  · have hvalue : Piece _ _ (memberTokens false [strMember "value" md.value]) :=
      Piece.valueTag hi.deeper (by decide) md.value false
    have hbody : Piece _ _ (memberTokens false ([_, _] ++ [_])) := Piece.join hfront hvalue
    have h := Piece.item hi "contextMetadata" "contextMetadata" "contextMetadata" comma hbody
    rw [decide_eq_false ha, if_neg ha, if_neg ha]
    simp only [String.append_assoc, Bool.false_eq_true, if_false] at h ⊢
    exact h

/-- No member at all for no metadata. -/
def metadataMembers (key : String) (vec : List Metadata) : List (List Char × Value) :=
  if vec.isEmpty then [] else [(key.toList, .array (vec.map metadataValue))]

theorem piece_metadataVector {indent : String} (hi : Indent indent) (tag : String) (comma : Bool)
    (vec : List Metadata) :
    Piece (MetadataVector.render .json indent tag comma vec) (Shown.each Metadata.shown vec)
      (memberTokens comma (metadataMembers "metadatas" vec)) := by
  unfold MetadataVector.render metadataMembers
  cases vec with
  | nil => exact Piece.of_spells .nil
  | cons md vec =>
    have hitems : Piece (renderEach _ (md :: vec)) _ _ := Piece.items fun m _ c => piece_metadata hi.deeper c m
    exact Piece.array hi tag "metadatas" tag (by decide) comma hitems

/-! ## Attributes -/

def attributeValue (ca : ContextAttribute) : Value :=
  match ca.compoundValueP with
  | none => .string (htmlEscape (cStr ca.value))
  | some compoundValueP => compoundValueP.jsonValue

def valueShown (ca : ContextAttribute) : Shown :=
  match ca.compoundValueP with
  | none => { texts := [ca.value] }
  | some compoundValueP => { texts := compoundValueP.leaves, keys := compoundValueP.keys }

/-- A compound value is a tree of objects, vectors and strings under an object or a vector. -/
def Compounds (ca : ContextAttribute) : Prop :=
  ∀ root ∈ ca.compoundValueP, (root.type = .object ∨ root.type = .vector) ∧ root.typed = true

theorem piece_renderValue {indent : String} (hi : Indent indent) (comma : Bool) {ca : ContextAttribute}
    (hca : Compounds ca) :
    Piece (renderValue .json indent comma false ca) (valueShown ca)
      (memberTokens comma [("value".toList, attributeValue ca)]) := by
  unfold renderValue valueShown attributeValue
  cases hc : ca.compoundValueP with
  | none => exact Piece.valueTag hi.deeper (by decide) ca.value comma
  | some root =>
    obtain ⟨hroot, htyped⟩ := hca root hc
    have hcstr : Shown.Valid { texts := root.leaves, keys := root.keys } → ∀ value ∈ root.leaves,
        cStr value = value.toList := fun hv value hvalue => cStr_of_valid (hv.texts value hvalue)
    rw [memberTokens_one]
    refine ⟨fun hv => ?_, fun hv => ⟨fun s hs => ?_, fun key hkey => ?_, by simp⟩, by simp⟩
    · refine CompoundValueNode.spells_renderCompoundValue hroot htyped ⟨hv.keys, fun value hvalue => ?_⟩ hi comma
      rw [hcstr hv value hvalue]
      exact hv.texts value hvalue
    · have hmem := (CompoundValueNode.string_mem_jsonValue root htyped (htmlEscape s.toList)).2
        (.inr ⟨s, hs, by rw [hcstr hv s hs]⟩)
      exact List.mem_cons_of_mem _ (List.mem_cons_of_mem _ (List.mem_append_left _ hmem))
    · have hmem := (CompoundValueNode.string_mem_jsonValue root htyped key.toList).2 (.inl ⟨key, hkey, rfl⟩)
      exact List.mem_cons_of_mem _ (List.mem_cons_of_mem _ (List.mem_append_left _ hmem))

/-- What an attribute shows apart from its name. -/
def attributeMembers (ca : ContextAttribute) : List (List Char × Value) :=
  strMember "type" ca.type :: ("value".toList, attributeValue ca) :: metadataMembers "metadatas" ca.metadataVector

def attributeShown (ca : ContextAttribute) : Shown :=
  { texts := [ca.type] } ++ (valueShown ca ++ Shown.each Metadata.shown ca.metadataVector)

/-- The lines behind the name, the same in both formats of an attribute. -/
def attributeLines (indent : String) (ca : ContextAttribute) : String :=
  valueTag (indent ++ "  ") "type" ca.type .json true false false ++
    (renderValue .json indent (!ca.metadataVector.isEmpty) false ca ++
      MetadataVector.render .json (indent ++ "  ") "metadata" false ca.metadataVector)

theorem metadataMembers_isEmpty (key : String) (vec : List Metadata) :
    (metadataMembers key vec).isEmpty = vec.isEmpty := by
  cases vec <;> rfl

theorem piece_attributeLines {indent : String} (hi : Indent indent) {ca : ContextAttribute} (hca : Compounds ca) :
    Piece (attributeLines indent ca) (attributeShown ca) (memberTokens false (attributeMembers ca)) := by
  have hmetadata := piece_metadataVector hi.deeper "metadata" false ca.metadataVector
  have hvalue := piece_renderValue hi (!ca.metadataVector.isEmpty) hca
  rw [← metadataMembers_isEmpty "metadatas"] at hvalue
  have hrest : Piece _ _ (memberTokens false ([_] ++ _)) := Piece.join hvalue hmetadata
  have htype : Piece _ _ (memberTokens true [strMember "type" ca.type]) :=
    Piece.valueTag hi.deeper (by decide) ca.type true
  have h : Piece _ _ (memberTokens false ([_] ++ _)) := Piece.join htype hrest
  rw [metadataMembers_isEmpty] at h
  exact h

theorem piece_attribute_item {indent : String} (hi : Indent indent) {attributeFormat : String}
    (hf : attributeFormat ≠ "object") (comma : Bool) {ca : ContextAttribute} (hca : Compounds ca) :
    Piece (ContextAttribute.render .json attributeFormat indent false comma ca)
      ({ texts := [ca.name] } ++ attributeShown ca)
      ((Value.object (strMember "name" ca.name :: attributeMembers ca)).tokens ++ commaIf comma) := by
  have hname : Piece _ _ (memberTokens true [strMember "name" ca.name]) :=
    Piece.valueTag hi.deeper (by decide) ca.name true
  have hbody : Piece _ _ (memberTokens false ([_] ++ _)) := Piece.join hname (piece_attributeLines hi hca)
  have h := Piece.item hi "contextAttribute" "attribute" "contextAttribute" comma hbody
  unfold ContextAttribute.render
  rw [if_neg (fun hc => hf hc.1)]
  simp only [attributeLines, String.append_assoc, Bool.not_false, Bool.true_or] at h ⊢
  exact h

theorem piece_attribute_member {indent : String} (hi : Indent indent) (comma : Bool) {ca : ContextAttribute}
    (hca : Compounds ca) :
    Piece (ContextAttribute.render .json "object" indent false comma ca) ({ keys := [ca.name] } ++ attributeShown ca)
      (memberTokens comma [(ca.name.toList, .object (attributeMembers ca))]) := by
  have hlines := piece_attributeLines hi hca
  have htext : ContextAttribute.render .json "object" indent false comma ca =
      startTag' indent "" ca.name .json false true false ++ attributeLines indent ca ++
        endTag indent "" .json comma false true false := by
    unfold ContextAttribute.render renderAsJsonObject
    rw [if_pos ⟨rfl, rfl⟩, if_pos rfl]
    simp only [attributeLines, String.append_assoc, Bool.not_false, Bool.true_or]
  have hkey : Shown.Valid ({ keys := [ca.name] } ++ attributeShown ca) → validBody ca.name.toList = true := fun hv =>
    (Shown.valid_append.1 hv).1.keys ca.name List.mem_cons_self
  rw [htext]
  refine ⟨fun hv => ?_, fun hv => ?_, fun d hd hq => ?_⟩
  · exact (Piece.object hi "" ca.name "" (hkey hv) comma hlines).spells (Shown.valid_append.1 hv).2
  · have hin := (Piece.object hi "" ca.name "" (hkey hv) comma hlines).shows (Shown.valid_append.1 hv).2
    have hself : Shown.In { keys := [ca.name] } [Token.string ca.name.toList] := ⟨by simp, by simp, by simp⟩
    have h := hself.append hin
    rw [memberTokens_one] at h ⊢
    exact h.mono (by simp)
  · obtain ⟨line, hline, hno⟩ := hlines.refused d hd hq
    refine ⟨line, hline.trans ?_, hno⟩
    rw [String.toList_append, String.toList_append]
    exact List.infix_append _ _ _

/-- The name of an attribute is a member name in the object format. -/
def ContextAttribute.shown (attributeFormat : String) (ca : ContextAttribute) : Shown :=
  (if attributeFormat = "object" then { keys := [ca.name] } else { texts := [ca.name] }) ++ attributeShown ca

def attributesValue (attributeFormat : String) (vec : List ContextAttribute) : Value :=
  if attributeFormat = "object" then .object (vec.map fun ca => (ca.name.toList, .object (attributeMembers ca)))
  else .array (vec.map fun ca => .object (strMember "name" ca.name :: attributeMembers ca))

def attributesMembers (attributeFormat : String) (vec : List ContextAttribute) : List (List Char × Value) :=
  if vec.isEmpty then []
  else [("attributes".toList, attributesValue attributeFormat (shownAttributes .json attributeFormat vec))]

def attributesShown (attributeFormat : String) (vec : List ContextAttribute) : Shown :=
  Shown.each (ContextAttribute.shown attributeFormat) (shownAttributes .json attributeFormat vec)

theorem purge_subset (added : List String) (vec : List ContextAttribute) : ∀ ca ∈ purge added vec, ca ∈ vec := by
  fun_induction purge added vec <;> grind

theorem shownAttributes_subset (attributeFormat : String) (vec : List ContextAttribute) :
    ∀ ca ∈ shownAttributes .json attributeFormat vec, ca ∈ vec := by
  intro ca hca
  unfold shownAttributes at hca
  split at hca
  · exact purge_subset [] vec ca hca
  · exact hca

theorem piece_attributes {indent : String} (hi : Indent indent) (attributeFormat : String) (comma : Bool)
    {vec : List ContextAttribute} (hvec : ∀ ca ∈ vec, Compounds ca) :
    Piece (ContextAttributeVector.render .json attributeFormat indent comma false vec)
      (attributesShown attributeFormat vec) (memberTokens comma (attributesMembers attributeFormat vec)) := by
  have hshown : ∀ ca ∈ shownAttributes .json attributeFormat vec, Compounds ca := fun ca hca =>
    hvec ca (shownAttributes_subset attributeFormat vec ca hca)
  unfold ContextAttributeVector.render attributesMembers
  cases vec with
  | nil =>
    have hnil : shownAttributes .json attributeFormat [] = [] := by
      unfold shownAttributes
      split <;> rfl
    rw [attributesShown, hnil]
    exact Piece.of_spells .nil
  | cons first vec =>
    rw [if_neg (by simp), if_neg (by simp)]
    unfold attributesShown attributesValue
    by_cases hf : attributeFormat = "object"
    · subst hf
      have hmember : ∀ ca ∈ shownAttributes .json "object" (first :: vec), ∀ c,
          Piece (ContextAttribute.render .json "object" (indent ++ "  ") false c ca) _
            (memberTokens c [(ca.name.toList, .object (attributeMembers ca))]) :=
        fun ca hca c => piece_attribute_member hi.deeper c (hshown ca hca)
      have h := Piece.object hi "contextAttributeList" "attributes" "contextAttributeList" (by decide) comma
        (Piece.members hmember)
      exact h
    · have hitem : ∀ ca ∈ shownAttributes .json attributeFormat (first :: vec), ∀ c,
          Piece (ContextAttribute.render .json attributeFormat (indent ++ "  ") false c ca) _
            ((Value.object (strMember "name" ca.name :: attributeMembers ca)).tokens ++ commaIf c) :=
        fun ca hca c => piece_attribute_item hi.deeper hf c (hshown ca hca)
      have h := Piece.array hi "contextAttributeList" "attributes" "contextAttributeList" (by decide) comma
        (Piece.items hitem)
      have hshow : ContextAttribute.shown attributeFormat = fun ca => { texts := [ca.name] } ++ attributeShown ca := by
        funext ca
        rw [ContextAttribute.shown, if_neg hf]
      rw [hshow, if_neg hf]
      simpa [hf] using h

theorem attributesMembers_isEmpty (attributeFormat : String) (vec : List ContextAttribute) :
    (attributesMembers attributeFormat vec).isEmpty = vec.isEmpty := by
  cases vec <;> rfl

/-! ## Context elements -/

def domainMembers (string : String) : List (List Char × Value) :=
  if string = "" then [] else [strMember "attributeDomainName" string]

theorem domainMembers_isEmpty (string : String) : (domainMembers string).isEmpty = !(string != "") := by
  unfold domainMembers
  by_cases h : string = "" <;> simp [h]

def domainShown (string : String) : Shown := { texts := if string = "" then [] else [string] }

theorem piece_domain {indent : String} (hi : Indent indent) (comma : Bool) (string : String) :
    Piece (AttributeDomainName.render .json indent comma string) (domainShown string)
      (memberTokens comma (domainMembers string)) := by
  unfold AttributeDomainName.render domainShown domainMembers
  split
  · exact Piece.of_spells .nil
  · exact Piece.valueTag hi (by decide) string comma

def elementMembers (attributeFormat : String) (ce : ContextElement) : List (List Char × Value) :=
  entityMembers ce.entityId ++ (domainMembers ce.attributeDomainName ++
    (attributesMembers attributeFormat ce.contextAttributeVector ++ metadataMembers "metadatas" ce.domainMetadataVector))

def ContextElement.shown (attributeFormat : String) (ce : ContextElement) : Shown :=
  EntityId.shown ce.entityId ++ (domainShown ce.attributeDomainName ++
    (attributesShown attributeFormat ce.contextAttributeVector ++ Shown.each Metadata.shown ce.domainMetadataVector))

/-- The compound values of the attributes are trees. -/
def ContextElement.Compounds (ce : ContextElement) : Prop :=
  ∀ ca ∈ ce.contextAttributeVector, Answer.Compounds ca

theorem piece_element {indent : String} (hi : Indent indent) (attributeFormat : String) (comma : Bool)
    {ce : ContextElement} (hce : ce.Compounds) :
    Piece (ce.render .json attributeFormat indent comma) (ce.shown attributeFormat)
      (memberTokens comma [("contextElement".toList, .object (elementMembers attributeFormat ce))]) := by
  have hmetadata := piece_metadataVector hi.deeper "registrationMetadata" false ce.domainMetadataVector
  have hattributes := piece_attributes hi.deeper attributeFormat
    (false || !(metadataMembers "metadatas" ce.domainMetadataVector).isEmpty) hce
  have h := Piece.join hattributes hmetadata
  have hdomain := piece_domain hi.deeper (false || !(attributesMembers attributeFormat ce.contextAttributeVector ++
    metadataMembers "metadatas" ce.domainMetadataVector).isEmpty) ce.attributeDomainName
  have h := Piece.join hdomain h
  have hentity := piece_entityLines hi.deeper (false || !(domainMembers ce.attributeDomainName ++
    (attributesMembers attributeFormat ce.contextAttributeVector ++
      metadataMembers "metadatas" ce.domainMetadataVector)).isEmpty) ce.entityId
  have h := Piece.object hi "contextElement" "contextElement" "contextElement" (by decide) comma (Piece.join hentity h)
  -- the commas the code computes are those the lists of members ask for
  have hcomma : (!ce.domainMetadataVector.isEmpty || !ce.contextAttributeVector.isEmpty) =
      (!ce.contextAttributeVector.isEmpty || !ce.domainMetadataVector.isEmpty) := Bool.or_comm _ _
  have hcomma' : ∀ b : Bool, (b || ce.attributeDomainName != "") = (ce.attributeDomainName != "" || b) := fun b =>
    Bool.or_comm _ _
  have happend : ∀ a b : List (List Char × Value), (a ++ b).isEmpty = (a.isEmpty && b.isEmpty) := by
    intro a b
    cases a <;> rfl
  unfold ContextElement.render
  simp only [happend, attributesMembers_isEmpty, metadataMembers_isEmpty, domainMembers_isEmpty,
    Bool.not_and, Bool.not_not, Bool.false_or, String.append_assoc] at h
  simp only [entity_render_eq, hcomma, hcomma', String.append_assoc]
  exact h

def responseValue (attributeFormat : String) (cer : ContextElementResponse) : Value :=
  .object [("contextElement".toList, .object (elementMembers attributeFormat cer.contextElement)),
    ("statusCode".toList, .object (statusMembers cer.statusCode))]

def ContextElementResponse.shown (attributeFormat : String) (cer : ContextElementResponse) : Shown :=
  cer.contextElement.shown attributeFormat ++ cer.statusCode.shown

theorem piece_response {indent : String} (hi : Indent indent) (attributeFormat : String) (comma : Bool)
    {cer : ContextElementResponse} (hce : cer.contextElement.Compounds) :
    Piece (cer.render .json attributeFormat indent comma) (cer.shown attributeFormat)
      ((responseValue attributeFormat cer).tokens ++ commaIf comma) := by
  have helement := piece_element hi.deeper attributeFormat true hce
  have hstatus := piece_status hi.deeper "statusCode" (by decide) false cer.statusCode
  have hboth : Piece _ _ (memberTokens false ([_] ++ [_])) := Piece.join helement hstatus
  have h := Piece.item hi "contextElementResponse" "contextElement" "contextElementResponse" comma hboth
  unfold ContextElementResponse.render
  simp only [String.append_assoc] at h ⊢
  exact h

def responsesMembers (attributeFormat : String) (vec : List ContextElementResponse) : List (List Char × Value) :=
  if vec.isEmpty then [] else [("contextResponses".toList, .array (vec.map (responseValue attributeFormat)))]

theorem piece_responses {indent : String} (hi : Indent indent) (attributeFormat : String) (comma : Bool)
    {vec : List ContextElementResponse} (hvec : ∀ cer ∈ vec, cer.contextElement.Compounds) :
    Piece (ContextElementResponseVector.render .json attributeFormat indent comma vec)
      (Shown.each (ContextElementResponse.shown attributeFormat) vec)
      (memberTokens comma (responsesMembers attributeFormat vec)) := by
  unfold ContextElementResponseVector.render responsesMembers
  cases vec with
  | nil => exact Piece.of_spells .nil
  | cons first vec =>
    have hitem : ∀ cer ∈ first :: vec, ∀ c,
        Piece (ContextElementResponse.render .json attributeFormat (indent ++ "  ") c cer) _
          ((responseValue attributeFormat cer).tokens ++ commaIf c) :=
      fun cer hcer c => piece_response hi.deeper attributeFormat c (hvec cer hcer)
    exact Piece.array hi "contextResponseList" "contextResponses" "contextResponseList" (by decide) comma
      (Piece.items hitem)

/-! ## The answers -/

/-- The status a response to an update shows in place of the elements, if it shows one. -/
def UpdateContextResponse.status (r : UpdateContextResponse) : Option StatusCode :=
  if r.errorCode.code ≠ 0 ∧ r.errorCode.code ≠ 200 then some r.errorCode
  else if r.contextElementResponseVector.isEmpty then some (StatusCode.fill 404 r.errorCode.details)
  else none

def UpdateContextResponse.value (attributeFormat : String) (r : UpdateContextResponse) : Value :=
  match r.status with
  | some s => .object [("errorCode".toList, .object (statusMembers s))]
  | none => .object (responsesMembers attributeFormat r.contextElementResponseVector)

def UpdateContextResponse.shown (attributeFormat : String) (r : UpdateContextResponse) : Shown :=
  match r.status with
  | some s => s.shown
  | none => Shown.each (ContextElementResponse.shown attributeFormat) r.contextElementResponseVector

theorem UpdateContextResponse.render_eq (attributeFormat indent : String) (r : UpdateContextResponse) :
    r.render .json attributeFormat indent = startTag' indent "" "updateContextResponse" .json false false false ++
      (match r.status with
      | some s => s.render .json (indent ++ "  ") "errorCode" false true
      | none => ContextElementResponseVector.render .json attributeFormat (indent ++ "  ") false
          r.contextElementResponseVector) ++
      endTag indent "updateContextResponse" .json false false true false := by
  unfold UpdateContextResponse.render UpdateContextResponse.status
  rw [startTag_eq indent "" "updateContextResponse" false]
  split_ifs <;> rfl

/-- An object at the top. -/
theorem Piece.top {indent : String} (hi : Indent indent) (tag : String) {body : String} {sh : Shown}
    {ms : List (List Char × Value)} (hb : Piece body sh (memberTokens false ms)) :
    Piece (startTag' indent "" tag .json false false false ++ body ++ endTag indent tag .json false false true false) sh
      (Value.object ms).tokens := by
  have h := Piece.item hi "" tag tag false hb
  rw [commaIf, if_neg (by simp), List.append_nil] at h
  exact h

theorem piece_update {indent : String} (hi : Indent indent) (attributeFormat : String) {r : UpdateContextResponse}
    (hr : ∀ cer ∈ r.contextElementResponseVector, cer.contextElement.Compounds) :
    Piece (r.render .json attributeFormat indent) (r.shown attributeFormat) (r.value attributeFormat).tokens := by
  rw [UpdateContextResponse.render_eq]
  unfold UpdateContextResponse.shown UpdateContextResponse.value
  cases r.status with
  | some s => exact Piece.top hi "updateContextResponse" (piece_status hi.deeper "errorCode" (by decide) false s)
  | none => exact Piece.top hi "updateContextResponse" (piece_responses hi.deeper attributeFormat false hr)

/-- The status a response to a query shows after the elements, if it shows one. -/
def QueryContextResponse.status (r : QueryContextResponse) : Option StatusCode :=
  if r.errorCode.code ≠ 0 then some r.errorCode
  else if r.contextElementResponseVector.isEmpty then
    some (StatusCode.fill 500 "Both the error-code structure and the response vector were empty")
  else none

def errorMembers (status : Option StatusCode) : List (List Char × Value) :=
  match status with
  | some s => [("errorCode".toList, .object (statusMembers s))]
  | none => []

def QueryContextResponse.value (attributeFormat : String) (r : QueryContextResponse) : Value :=
  .object (responsesMembers attributeFormat r.contextElementResponseVector ++ errorMembers r.status)

def QueryContextResponse.shown (attributeFormat : String) (r : QueryContextResponse) : Shown :=
  Shown.each (ContextElementResponse.shown attributeFormat) r.contextElementResponseVector ++
    (match r.status with
    | some s => s.shown
    | none => {})

theorem QueryContextResponse.render_eq (attributeFormat indent : String) (r : QueryContextResponse) :
    r.render .json attributeFormat indent = startTag' indent "" "queryContextResponse" .json false false false ++
      (ContextElementResponseVector.render .json attributeFormat (indent ++ "  ")
          (!(errorMembers r.status).isEmpty) r.contextElementResponseVector ++
        (match r.status with
        | some s => s.render .json (indent ++ "  ") "errorCode" false true
        | none => "")) ++
      endTag indent "queryContextResponse" .json false false true false := by
  unfold QueryContextResponse.render QueryContextResponse.status
  rw [startTag_eq indent "" "queryContextResponse" false]
  obtain ⟨vec, s⟩ := r
  cases vec with
  | nil =>
    by_cases hc : s.code = 0 <;> simp [hc, ContextElementResponseVector.render, String.append_assoc]
  | cons first vec =>
    by_cases hc : s.code = 0
    · simp [hc, errorMembers]
    · have hne : (s.code != 0) = true := by simpa using hc
      simp [hc, hne, errorMembers, String.append_assoc]

theorem piece_query {indent : String} (hi : Indent indent) (attributeFormat : String) {r : QueryContextResponse}
    (hr : ∀ cer ∈ r.contextElementResponseVector, cer.contextElement.Compounds) :
    Piece (r.render .json attributeFormat indent) (r.shown attributeFormat) (r.value attributeFormat).tokens := by
  have hvec := piece_responses hi.deeper attributeFormat (!(errorMembers r.status).isEmpty) hr
  rw [QueryContextResponse.render_eq]
  unfold QueryContextResponse.shown QueryContextResponse.value
  refine Piece.top hi "queryContextResponse" (Piece.join (by simpa using hvec) ?_)
  cases r.status with
  | some s => exact piece_status hi.deeper "errorCode" (by decide) false s
  | none => exact Piece.of_spells .nil

/-! ## Documents -/

/-- No string loses or gains a character when its token is read. -/
structure Shown.Verbatim (sh : Shown) : Prop where
  texts : ∀ s ∈ sh.texts, unescape (htmlEscape s.toList) = htmlEscape s.toList
  keys : ∀ key ∈ sh.keys, unescape key.toList = key.toList
  details : ∀ d ∈ sh.details, unescape (htmlEscape d.toList) = htmlEscape d.toList

/-- The text is a JSON document, every string of the answer is one string token of it, and this token denotes the
string. The strings of a request have none of the characters `htmlEscape` changes (`isForbidden`). -/
def Document (text : String) (sh : Shown) : Prop :=
  ∃ v : Value, lex text.toList = some v.tokens ∧ sh.In v.tokens ∧ sh.Verbatim

def Plain (s : String) : Prop := ∀ c ∈ s.toList, c ≠ '\\' ∧ isControl c = false

theorem plain_of_all {s : String} (h : (s.toList.all fun c => c != '\\' && !isControl c) = true) : Plain s := by
  intro c hc
  simpa using List.all_eq_true.1 h c hc

/-- No backslash and no control character anywhere, no quotation mark in a name or in the details of a status. -/
structure Shown.Plain (sh : Shown) : Prop where
  texts : ∀ s ∈ sh.texts, Answer.Plain s
  keys : ∀ key ∈ sh.keys, Answer.Plain key ∧ '"' ∉ key.toList
  details : ∀ d ∈ sh.details, Answer.Plain d ∧ '"' ∉ d.toList

theorem htmlChar_plain (c : Char) : ('\\' ∈ htmlChar c ↔ c = '\\') ∧
    (isControl c = false → (htmlChar c).any isControl = false) ∧ '"' ∉ htmlChar c ∧
      (isControl c = true → c ∈ htmlChar c) := by
  unfold htmlChar
  split
  all_goals try decide
  rename_i hq _
  refine ⟨?_, ?_, ?_, ?_⟩
  · simp only [List.mem_singleton, eq_comm]
  · intro h
    simpa using h
  · intro hd
    exact hq (List.mem_singleton.1 hd).symm
  · intro _
    exact List.mem_singleton.2 rfl

theorem plain_text_iff {s : String} :
    Plain s ↔ validBody (htmlEscape s.toList) = true ∧ unescape (htmlEscape s.toList) = htmlEscape s.toList := by
  rw [unescape_eq_self_iff]
  constructor
  · intro h
    have hplain : ∀ d ∈ htmlEscape s.toList, d ≠ '"' ∧ d ≠ '\\' ∧ isControl d = false := by
      intro d hd
      obtain ⟨c, hc, hd⟩ := List.mem_flatMap.1 hd
      obtain ⟨hback, hcontrol, hquote, -⟩ := htmlChar_plain c
      obtain ⟨hne, hno⟩ := h c hc
      refine ⟨fun he => hquote (he ▸ hd), fun he => hne (hback.1 (he ▸ hd)), ?_⟩
      simpa using List.any_eq_false.1 (hcontrol hno) d hd
    exact ⟨validBody_of_all hplain, fun hmem => (hplain _ hmem).2.1 rfl⟩
  · rintro ⟨hvalid, hno⟩ c hc
    obtain ⟨hback, -, -, hself⟩ := htmlChar_plain c
    refine ⟨fun he => hno (List.mem_flatMap.2 ⟨c, hc, hback.2 he⟩), ?_⟩
    by_contra hcontrol
    have hcontrol : isControl c = true := by simpa using hcontrol
    have := not_control_of_validBody hvalid c (List.mem_flatMap.2 ⟨c, hc, hself hcontrol⟩)
    rw [hcontrol] at this
    cases this

theorem plain_key_iff {key : String} :
    (Plain key ∧ '"' ∉ key.toList) ↔ validBody key.toList = true ∧ unescape key.toList = key.toList := by
  rw [unescape_eq_self_iff]
  constructor
  · rintro ⟨h, hq⟩
    exact ⟨validBody_of_all fun c hc => ⟨fun he => hq (he ▸ hc), h c hc⟩, fun hmem => (h _ hmem).1 rfl⟩
  · rintro ⟨hvalid, hno⟩
    refine ⟨fun c hc => ⟨fun he => hno (he ▸ hc), not_control_of_validBody hvalid c hc⟩, ?_⟩
    exact quote_not_mem_of_validBody hvalid hno

theorem plain_iff {sh : Shown} : sh.Plain ↔ sh.Valid ∧ sh.Verbatim := by
  constructor
  · rintro ⟨ht, hk, hd⟩
    refine ⟨⟨fun s hs => (plain_text_iff.1 (ht s hs)).1, fun k hk' => (plain_key_iff.1 (hk k hk')).1,
      fun d hd' => ⟨(plain_text_iff.1 (hd d hd').1).1, (hd d hd').2⟩⟩,
      ⟨fun s hs => (plain_text_iff.1 (ht s hs)).2, fun k hk' => (plain_key_iff.1 (hk k hk')).2,
        fun d hd' => (plain_text_iff.1 (hd d hd').1).2⟩⟩
  · rintro ⟨⟨ht, hk, hd⟩, ⟨ht', hk', hd'⟩⟩
    exact ⟨fun s hs => plain_text_iff.2 ⟨ht s hs, ht' s hs⟩, fun k h => plain_key_iff.2 ⟨hk k h, hk' k h⟩,
      fun d h => ⟨plain_text_iff.2 ⟨(hd d h).1, hd' d h⟩, (hd d h).2⟩⟩

theorem Piece.document_iff {text : String} {sh : Shown} {v : Value} (h : Piece text sh v.tokens) :
    Document text sh ↔ sh.Plain := by
  rw [plain_iff, ← h.wellFormed_iff]
  constructor
  · rintro ⟨w, hlex, hin, hverbatim⟩
    exact ⟨⟨w, hlex, hin⟩, hverbatim⟩
  · rintro ⟨⟨w, hlex, hin⟩, hverbatim⟩
    exact ⟨w, hlex, hin, hverbatim⟩

/-- `htmlEscape` leaves backslashes and control characters as they are, names of members are not escaped at all, and
the quotation marks in the details of a status are escaped twice. -/
theorem answers_document_iff (attributeFormat : String) {indent : String} (hi : Indent indent)
    (u : UpdateContextResponse) (hu : ∀ cer ∈ u.contextElementResponseVector, cer.contextElement.Compounds)
    (q : QueryContextResponse) (hq : ∀ cer ∈ q.contextElementResponseVector, cer.contextElement.Compounds) :
    (Document (u.render .json attributeFormat indent) (u.shown attributeFormat) ↔ (u.shown attributeFormat).Plain) ∧
    (Document (q.render .json attributeFormat indent) (q.shown attributeFormat) ↔ (q.shown attributeFormat).Plain) :=
  ⟨(piece_update hi attributeFormat hu).document_iff, (piece_query hi attributeFormat hq).document_iff⟩

/-- An answer with one attribute, and the status of its element. -/
def roomAnswer (value details : String) : List ContextElementResponse :=
  [{ contextElement :=
      { entityId := { id := "Room1", type := "Room", isPattern := "false" },
        contextAttributeVector := [{ name := "door", type := "text", value := value }] },
     statusCode := StatusCode.fill 200 details }]

theorem roomAnswer_compounds (value details : String) :
    ∀ cer ∈ roomAnswer value details, cer.contextElement.Compounds := by
  intro cer hcer ca hca root hroot
  rw [List.mem_singleton.1 hcer] at hca
  rw [List.mem_singleton.1 hca] at hroot
  cases hroot

theorem roomAnswer_plain {value details : String} (h : Shown.Plain { texts := [value], details := [details] })
    (hd : details ≠ "") : (Shown.each (ContextElementResponse.shown "") (roomAnswer value details)).Plain := by
  have hfixed : ∀ s ∈ ["Room", "false", "Room1", "door", "text", "OK"], Plain s := fun s hs =>
    plain_of_all (List.all_eq_true.1 (show (["Room", "false", "Room1", "door", "text", "OK"].all fun s =>
      s.toList.all fun c => c != '\\' && !isControl c) = true by decide) s hs)
  have htexts : ∀ s ∈ ["Room", "false", "Room1", "door", "text", value, "OK"], Plain s := by
    intro s hs
    by_cases hv : s = value
    · rw [hv]
      exact h.texts value List.mem_cons_self
    · exact hfixed s (by simpa [hv] using hs)
  have hshown : Shown.each (ContextElementResponse.shown "") (roomAnswer value details) =
      { texts := ["Room", "false", "Room1", "door", "text", value, "OK"],
        details := [details] } := by
    have hstatus : StatusCode.shown (StatusCode.fill 200 details) = { texts := ["OK"], details := [details] } := by
      simp [StatusCode.shown, StatusCode.fill, httpStatusCodeString, hd]
    have hattributes : attributesShown "" [{ name := "door", type := "text", value := value }] =
        { texts := ["door", "text", value] } := by
      rw [attributesShown, shownAttributes, if_neg (by simp)]
      rfl
    simp only [roomAnswer, Shown.each, ContextElementResponse.shown, ContextElement.shown, hstatus, hattributes]
    rfl
  rw [hshown]
  exact ⟨htexts, by simp, h.details⟩

/-- A closed door, in both answers. -/
theorem closed_document : Shown.Plain { texts := ["closed"], details := ["done"] } ∧
    Document (UpdateContextResponse.render .json "" "" { contextElementResponseVector := roomAnswer "closed" "done" })
      (Shown.each (ContextElementResponse.shown "") (roomAnswer "closed" "done")) ∧
    Document (QueryContextResponse.render .json "" "" { contextElementResponseVector := roomAnswer "closed" "done" })
      (Shown.each (ContextElementResponse.shown "") (roomAnswer "closed" "done")) := by
  have hplain : Shown.Plain { texts := ["closed"], details := ["done"] } := by
    have hclosed : Plain "closed" := plain_of_all (by decide)
    have hdone : Plain "done" := plain_of_all (by decide)
    refine ⟨?_, ?_, ?_⟩
    · intro s hs
      rwa [List.mem_singleton.1 hs]
    · simp
    · intro s hs
      rw [List.mem_singleton.1 hs]
      exact ⟨hdone, by decide⟩
  have hroom := roomAnswer_plain hplain (by decide)
  obtain ⟨hupdate, hquery⟩ := answers_document_iff "" Indent.empty
    { contextElementResponseVector := roomAnswer "closed" "done" } (roomAnswer_compounds _ _)
    { contextElementResponseVector := roomAnswer "closed" "done" } (roomAnswer_compounds _ _)
  refine ⟨hplain, hupdate.2 hroom, hquery.2 ?_⟩
  exact hroom

/-- A value that ends in a backslash, and details with quotation marks. -/
theorem backslash_no_document :
    ¬ Document (QueryContextResponse.render .json "" "" { contextElementResponseVector := roomAnswer "open\\" "done" })
      (Shown.each (ContextElementResponse.shown "") (roomAnswer "open\\" "done")) ∧
    ¬ Document (UpdateContextResponse.render .json "" ""
        { errorCode := StatusCode.fill 472 "invalid attribute: \"door\"" })
      { texts := ["request parameter is invalid/not allowed"], details := ["invalid attribute: \"door\""] } := by
  constructor
  · intro h
    have hplain := (piece_query Indent.empty "" (roomAnswer_compounds "open\\" "done")).document_iff.1 h
    have hin : "open\\" ∈ (Shown.each (ContextElementResponse.shown "") (roomAnswer "open\\" "done")).texts := by decide
    exact (hplain.texts _ hin '\\' (by decide)).1 rfl
  · intro h
    have hplain := (piece_update Indent.empty "" (by simp)).document_iff.1 h
    exact (hplain.details _ List.mem_cons_self).2 (by decide)

end OrionBroker.Answer
