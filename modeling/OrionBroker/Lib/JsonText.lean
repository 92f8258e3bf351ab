import OrionBroker.Lib.Lexer

/-!
# JSON texts

The lexical grammar is a machine that reads one character at a time, so that a text may be lexed piece by piece
(`Spells.append`). A value has one sequence of tokens, with a comma after each member or item but the last; a text
is a document when its tokens are those of a value.

* `validBody`: what may stand between the quotation marks of a string.
* `validBody_of_lex`: every string token of a text has such a body.
* `run_newline`: no string goes over the end of a line.
* `parse_tokens`: the tokens determine the value.
-/

namespace JsonText

open Lexer

/-! ## The body of a string -/

/-- Ordinary text, the character behind a backslash, or `n + 1` hexadecimal digits to come. -/
inductive BodyState where
  | plain
  | escape
  | hex (n : Nat)
deriving DecidableEq, Repr

def isControl (c : Char) : Bool := c.toNat < 0x20

def isHex (c : Char) : Bool := c.isDigit || ('a' ≤ c && c ≤ 'f') || ('A' ≤ c && c ≤ 'F')

def isEscape (c : Char) : Bool := ['"', '\\', '/', 'b', 'f', 'n', 'r', 't'].contains c

def BodyState.step : BodyState → Char → Option BodyState
  | .plain, c => if c = '"' ∨ isControl c then none else if c = '\\' then some .escape else some .plain
  | .escape, c => if c = 'u' then some (.hex 3) else if isEscape c then some .plain else none
  | .hex 0, c => if isHex c then some .plain else none
  | .hex (n + 1), c => if isHex c then some (.hex n) else none

def BodyState.run (st : BodyState) (body : List Char) : Option BodyState := body.foldlM BodyState.step st

def validBody (body : List Char) : Bool := BodyState.plain.run body == some .plain

/-! ## Numbers and literals -/

def digits (s : List Char) : Option (List Char) :=
  if s.head?.any Char.isDigit then some (s.dropWhile Char.isDigit) else none

def minus : List Char → List Char
  | '-' :: s => s
  | s => s

def int : List Char → Option (List Char)
  | '0' :: s => some s
  | s => digits s

def frac : List Char → Option (List Char)
  | '.' :: s => digits s
  | s => some s

def sign : List Char → List Char
  | '-' :: s => s
  | '+' :: s => s
  | s => s

def exponent : List Char → Option (List Char)
  | 'e' :: s => digits (sign s)
  | 'E' :: s => digits (sign s)
  | s => some s

def isNumber (s : List Char) : Bool := ((int (minus s)).bind frac).bind exponent == some []

def isScalar (s : List Char) : Bool :=
  s == "true".toList || s == "false".toList || s == "null".toList || isNumber s

def isScalarChar (c : Char) : Bool := c.isAlphanum || c == '-' || c == '+' || c == '.'

/-! ## Lexing -/

inductive Token where
  | lbrace
  | rbrace
  | lbracket
  | rbracket
  | colon
  | comma
  | string (body : List Char)
  | scalar (lexeme : List Char)
deriving DecidableEq, Repr

/-- Where the lexer stands, with what it has read of an unfinished token. -/
inductive Mode where
  | between
  | string (st : BodyState) (read : List Char)
  | scalar (read : List Char)
deriving DecidableEq, Repr

def isBlank (c : Char) : Bool := c == ' ' || c == '\n' || c == '\t' || c == '\r'

def punctuation : Char → Option Token
  | '{' => some .lbrace
  | '}' => some .rbrace
  | '[' => some .lbracket
  | ']' => some .rbracket
  | ':' => some .colon
  | ',' => some .comma
  | _ => none

/-- A character between two tokens. -/
def start (c : Char) : Option (List Token × Mode) :=
  if isBlank c then some ([], .between)
  else if c = '"' then some ([], .string .plain [])
  else if isScalarChar c then some ([], .scalar [c])
  else (punctuation c).map fun t => ([t], .between)

def step : Mode → Char → Option (List Token × Mode)
  | .between, c => start c
  | .string st read, c =>
    if st = .plain ∧ c = '"' then some ([.string read], .between)
    else (st.step c).map fun st => ([], .string st (read ++ [c]))
  | .scalar read, c =>
    if isScalarChar c then some ([], .scalar (read ++ [c]))
    else if isScalar read then (start c).map fun p => (.scalar read :: p.1, p.2)
    else none

def finish : Mode → Option (List Token)
  | .between => some []
  | .scalar read => if isScalar read then some [.scalar read] else none
  | .string _ _ => none

def lex (text : List Char) : Option (List Token) :=
  (run step .between text).bind fun p => (finish p.2).map (p.1 ++ ·)

/-- The text is these tokens, and nothing is left unfinished at its end. -/
def Spells (text : List Char) (ts : List Token) : Prop := run step .between text = some (ts, .between)

theorem Spells.nil : Spells [] [] := rfl

theorem Spells.append {a b : List Char} {ts us : List Token} (ha : Spells a ts) (hb : Spells b us) :
    Spells (a ++ b) (ts ++ us) := by
  unfold Spells at *
  rw [run_append_some ha, hb]
  rfl

theorem Spells.lex_eq {text : List Char} {ts : List Token} (h : Spells text ts) : lex text = some ts := by
  unfold lex
  rw [show run step .between text = some (ts, .between) from h]
  simp [finish]

theorem Spells.blank {text : List Char} (h : ∀ c ∈ text, isBlank c = true) : Spells text [] := by
  induction text with
  | nil => exact .nil
  | cons c text ih =>
    have ih := ih fun d hd => h d (List.mem_cons_of_mem _ hd)
    have hc : step .between c = some ([], .between) := by simp [step, start, h c]
    unfold Spells at *
    rw [run_cons_some hc, ih]
    rfl

/-! ## Strings -/

theorem run_string {st st' : BodyState} {body : List Char} (read : List Char) (h : st.run body = some st') :
    run step (.string st read) body = some ([], .string st' (read ++ body)) := by
  induction body generalizing st read with
  | nil =>
    cases h
    simp
  | cons c body ih =>
    obtain ⟨st1, h1, h2⟩ := Option.bind_eq_some_iff.1 (by simpa [BodyState.run] using h)
    have hq : ¬ (st = .plain ∧ c = '"') := by
      rintro ⟨rfl, rfl⟩
      simp [BodyState.step] at h1
    have hc : step (.string st read) c = some ([], .string st1 (read ++ [c])) := by simp [step, hq, h1]
    rw [run_cons_some hc, ih (read ++ [c]) h2]
    simp

theorem Spells.string {body : List Char} (h : validBody body = true) :
    Spells ('"' :: (body ++ ['"'])) [.string body] := by
  have hb : BodyState.plain.run body = some .plain := by simpa [validBody] using h
  have hopen : step .between '"' = some ([], .string .plain []) := by decide
  have hclose : step (.string .plain body) '"' = some ([.string body], .between) := by simp [step]
  unfold Spells
  rw [run_cons_some hopen, run_append_some (run_string [] hb), List.nil_append, run_cons_some hclose]
  rfl

/-- Text without quotation marks, backslashes and control characters. -/
theorem validBody_of_all {body : List Char} (h : ∀ c ∈ body, c ≠ '"' ∧ c ≠ '\\' ∧ isControl c = false) :
    validBody body = true := by
  have hrun : BodyState.plain.run body = some .plain := by
    induction body with
    | nil => rfl
    | cons c body ih =>
      obtain ⟨hq, hb, hc⟩ := h c List.mem_cons_self
      have ih := ih fun d hd => h d (List.mem_cons_of_mem _ hd)
      simpa [BodyState.run, BodyState.step, hq, hb, hc] using ih
  simp [validBody, hrun]

theorem BodyState.step_not_control {st st' : BodyState} {c : Char} (h : st.step c = some st') :
    isControl c = false := by
  by_contra hc
  have hc : c.toNat < 0x20 := by simpa [isControl] using hc
  have hu : ∀ n < 0x20, Char.ofNat n ≠ 'u' ∧ isEscape (Char.ofNat n) = false ∧ isHex (Char.ofNat n) = false := by decide
  obtain ⟨hu, he, hx⟩ := hu _ hc
  rw [Char.ofNat_toNat] at hu he hx
  rcases st with - | - | (- | n) <;> simp [BodyState.step, isControl, hc, hu, he, hx] at h

theorem not_control_of_validBody {body : List Char} (h : validBody body = true) : ∀ c ∈ body, isControl c = false := by
  have hrun : ∀ (body : List Char) (st st' : BodyState), st.run body = some st' → ∀ c ∈ body, isControl c = false := by
    intro body
    induction body with
    | nil => simp
    | cons c body ih =>
      intro st st' h
      obtain ⟨st1, h1, h2⟩ := Option.bind_eq_some_iff.1 (by simpa [BodyState.run] using h)
      exact List.forall_mem_cons.2 ⟨BodyState.step_not_control h1, ih st1 st' h2⟩
  exact hrun body .plain .plain (by simpa [validBody] using h)

theorem quote_not_mem_of_validBody {body : List Char} (h : validBody body = true) (hb : '\\' ∉ body) : '"' ∉ body := by
  have hrun : ∀ body : List Char, '\\' ∉ body → '"' ∈ body → BodyState.plain.run body = none := by
    intro body
    induction body with
    | nil => simp
    | cons c body ih =>
      intro hb hq
      have hstep : BodyState.plain.run (c :: body) = (BodyState.plain.step c).bind fun st => st.run body := rfl
      rw [hstep, BodyState.step]
      split_ifs with hc hc'
      · rfl
      · exact absurd List.mem_cons_self (hc' ▸ hb)
      · refine ih (fun hm => hb (List.mem_cons_of_mem _ hm)) ((List.mem_cons.1 hq).resolve_left fun he => hc (.inl he.symm))
  intro hq
  rw [validBody, hrun body hb hq] at h
  cases h

/-! ### What a body denotes -/

def escaped : Char → Char
  | 'b' => '\x08'
  | 'f' => '\x0c'
  | 'n' => '\n'
  | 'r' => '\r'
  | 't' => '\t'
  | c => c

def hexDigit (c : Char) : Nat :=
  if c.isDigit then c.toNat - '0'.toNat else if 'a' ≤ c then c.toNat - 'a'.toNat + 10 else c.toNat - 'A'.toNat + 10

/-- Each half of a surrogate pair stands for a character of its own here. -/
def unescape : List Char → List Char
  | [] => []
  | ['\\'] => []
  | '\\' :: 'u' :: a :: b :: c :: d :: body =>
    Char.ofNat (([a, b, c, d].map hexDigit).foldl (16 * · + ·) 0) :: unescape body
  | '\\' :: c :: body => escaped c :: unescape body
  | c :: body => c :: unescape body

theorem length_unescape_le (body : List Char) : (unescape body).length ≤ body.length := by
  fun_induction unescape body <;> simp_all <;> omega

/-- A text denotes itself unless it has a backslash. -/
theorem unescape_eq_self_iff {body : List Char} : unescape body = body ↔ '\\' ∉ body := by
  fun_induction unescape body with
  | case1 => simp
  | case2 => simp
  | case3 a b c d body ih =>
    have hle := length_unescape_le body
    refine ⟨fun h => ?_, fun h => absurd List.mem_cons_self h⟩
    have := congrArg List.length h
    simp only [List.length_cons] at this
    omega
  | case4 c body hu ih =>
    have hle := length_unescape_le body
    refine ⟨fun h => ?_, fun h => absurd List.mem_cons_self h⟩
    have := congrArg List.length h
    simp only [List.length_cons] at this
    omega
  | case5 c body _ _ hc ih =>
    have hne : '\\' ≠ c := by
      rintro rfl
      cases body with
      | nil => simp_all
      | cons d body => simp_all
    simp [ih, hne]

/-! ### Pieces with more text behind them -/

theorem spells_cons {c : Char} {u : List Token} (h : start c = some (u, .between)) {r : List Char}
    {ts : List Token} : Spells (c :: r) (u ++ ts) ↔ Spells r ts := by
  unfold Spells
  rw [run_cons_some (show step .between c = some (u, .between) from h)]
  constructor
  · intro h
    obtain ⟨⟨vs, m⟩, hr, hv⟩ := Option.map_eq_some_iff.1 h
    simp only [Prod.mk.injEq, List.append_cancel_left_eq] at hv
    rw [hr, hv.1, hv.2]
  · intro h
    rw [h]
    rfl

variable {r : List Char} {ts : List Token}

@[simp] theorem spells_space : Spells (' ' :: r) ts ↔ Spells r ts := spells_cons (u := []) (by decide)
@[simp] theorem spells_newline : Spells ('\n' :: r) ts ↔ Spells r ts := spells_cons (u := []) (by decide)
@[simp] theorem spells_lbrace : Spells ('{' :: r) (.lbrace :: ts) ↔ Spells r ts := spells_cons (u := [_]) (by decide)
@[simp] theorem spells_rbrace : Spells ('}' :: r) (.rbrace :: ts) ↔ Spells r ts := spells_cons (u := [_]) (by decide)
@[simp] theorem spells_lbracket : Spells ('[' :: r) (.lbracket :: ts) ↔ Spells r ts := spells_cons (u := [_]) (by decide)
@[simp] theorem spells_rbracket : Spells (']' :: r) (.rbracket :: ts) ↔ Spells r ts := spells_cons (u := [_]) (by decide)
@[simp] theorem spells_colon : Spells (':' :: r) (.colon :: ts) ↔ Spells r ts := spells_cons (u := [_]) (by decide)
@[simp] theorem spells_comma : Spells (',' :: r) (.comma :: ts) ↔ Spells r ts := spells_cons (u := [_]) (by decide)
@[simp] theorem spells_nil : Spells [] [] := Spells.nil

theorem Spells.quoted {body : List Char} (h : validBody body = true) (hr : Spells r ts) :
    Spells ('"' :: (body ++ '"' :: r)) (.string body :: ts) := by
  have := (Spells.string h).append hr
  simpa using this

theorem Spells.after_blank {text : List Char} (h : ∀ c ∈ text, isBlank c = true) (hr : Spells r ts) :
    Spells (text ++ r) ts := (Spells.blank h).append hr

/-- What a mode holds of a string is the beginning of a body. -/
def Mode.Ok : Mode → Prop
  | .string st read => BodyState.plain.run read = some st
  | _ => True

/-- A string token has a valid body. -/
def Token.Ok : Token → Prop
  | .string body => validBody body = true
  | _ => True

theorem punctuation_ok {c : Char} {t : Token} (h : punctuation c = some t) : t.Ok := by
  unfold punctuation at h
  split at h <;> cases h <;> trivial

theorem start_ok {c : Char} {p : List Token × Mode} (h : start c = some p) : p.2.Ok ∧ ∀ t ∈ p.1, t.Ok := by
  unfold start at h
  split_ifs at h
  · cases h
    simp [Mode.Ok]
  · cases h
    simp [Mode.Ok, BodyState.run]
  · cases h
    simp [Mode.Ok]
  · obtain ⟨t, ht, rfl⟩ := Option.map_eq_some_iff.1 h
    simpa [Mode.Ok] using punctuation_ok ht

theorem step_ok (m : Mode) (c : Char) (p : List Token × Mode) (hm : m.Ok) (h : step m c = some p) :
    p.2.Ok ∧ ∀ t ∈ p.1, t.Ok := by
  cases m with
  | between => exact start_ok h
  | string st read =>
    simp only [step] at h
    split_ifs at h with hq
    · cases h
      obtain ⟨rfl, -⟩ := hq
      simpa [Token.Ok, validBody, Mode.Ok] using hm
    · obtain ⟨st', hst, rfl⟩ := Option.map_eq_some_iff.1 h
      simp only [Mode.Ok, BodyState.run] at hm ⊢
      simp [List.foldlM_append, hm, hst]
  | scalar read =>
    simp only [step] at h
    split_ifs at h
    · cases h
      simp [Mode.Ok]
    · obtain ⟨q, hq, rfl⟩ := Option.map_eq_some_iff.1 h
      obtain ⟨hok, hts⟩ := start_ok hq
      simpa [Token.Ok, hok] using hts

/-- Every string token of a text has a valid body. -/
theorem validBody_of_lex {text : List Char} {ts : List Token} (h : lex text = some ts) {body : List Char}
    (hb : .string body ∈ ts) : validBody body = true := by
  obtain ⟨p, hp, h⟩ := Option.bind_eq_some_iff.1 h
  obtain ⟨us, hus, rfl⟩ := Option.map_eq_some_iff.1 h
  rcases List.mem_append.1 hb with hb | hb
  · exact run_invariant (I := Mode.Ok) (P := Token.Ok) step_ok (m := .between) trivial hp _ hb
  · cases hm : p.2 with
    | between => rw [hm] at hus; cases hus; cases hb
    | string st read => rw [hm] at hus; cases hus
    | scalar read =>
      rw [hm] at hus
      simp only [finish] at hus
      split_ifs at hus
      cases hus
      simp at hb

/-! ## Lines -/

/-- The end of a line ends every token, or the text is refused. -/
theorem run_newline {m : Mode} {p : List Token × Mode} (h : step m '\n' = some p) : p.2 = .between := by
  cases m with
  | between => cases h; rfl
  | string st read =>
    have hno : st.step '\n' = none := by
      rcases st with - | - | (- | n) <;> rfl
    simp [step, hno] at h
  | scalar read =>
    rw [step, if_neg (by decide)] at h
    split_ifs at h
    cases h
    rfl

/-- A line of an accepted text is accepted on its own. -/
theorem run_line {text : List Char} {ts : List Token} (h : lex text = some ts) {line : List Char}
    (hl : '\n' :: line <:+: text) : (run step .between line).isSome := by
  obtain ⟨pre, post, rfl⟩ := hl
  obtain ⟨p, hp, -⟩ := Option.bind_eq_some_iff.1 h
  rw [List.append_assoc, run_append] at hp
  obtain ⟨q, -, hq⟩ := Option.bind_eq_some_iff.1 hp
  obtain ⟨r, hr, -⟩ := Option.map_eq_some_iff.1 hq
  rw [List.cons_append, run_cons] at hr
  obtain ⟨s, hs, hr⟩ := Option.bind_eq_some_iff.1 hr
  obtain ⟨t, ht, -⟩ := Option.map_eq_some_iff.1 hr
  rw [run_newline hs, run_append] at ht
  obtain ⟨u, hu, -⟩ := Option.bind_eq_some_iff.1 ht
  simp [hu]

theorem step_nul (m : Mode) : step m '\x00' = none := by
  cases m with
  | between => rfl
  | string st read =>
    have hno : st.step '\x00' = none := by
      rcases st with - | - | (- | n) <;> rfl
    simp [step, hno]
  | scalar read =>
    rw [step, if_neg (by decide)]
    split_ifs <;> rfl

theorem nul_not_mem {text : List Char} {ts : List Token} (h : Spells text ts) : '\x00' ∉ text := by
  intro hnul
  obtain ⟨a, b, rfl⟩ := List.append_of_mem hnul
  rw [Spells, run_append] at h
  obtain ⟨p, -, hp⟩ := Option.bind_eq_some_iff.1 h
  rw [run_cons, step_nul] at hp
  cases hp

/-! ## Values -/

inductive Value where
  | string (body : List Char)
  | scalar (lexeme : List Char)
  | array (items : List Value)
  | object (members : List (List Char × Value))

def commaIf (more : Bool) : List Token := if more then [.comma] else []

mutual
def Value.tokens : Value → List Token
  | .string body => [.string body]
  | .scalar lexeme => [.scalar lexeme]
  | .array items => .lbracket :: (itemTokens items ++ [.rbracket])
  | .object members => .lbrace :: (memberTokens false members ++ [.rbrace])
def itemTokens : List Value → List Token
  | [] => []
  | v :: vs => v.tokens ++ (commaIf (!vs.isEmpty) ++ itemTokens vs)
/-- With `more` there are further members behind these. -/
def memberTokens (more : Bool) : List (List Char × Value) → List Token
  | [] => []
  | (key, v) :: ms => .string key :: .colon :: (v.tokens ++ (commaIf (more || !ms.isEmpty) ++ memberTokens more ms))
end

theorem memberTokens_append (more : Bool) (a b : List (List Char × Value)) :
    memberTokens more (a ++ b) = memberTokens (more || !b.isEmpty) a ++ memberTokens more b := by
  induction a with
  | nil => simp [memberTokens]
  | cons m a ih =>
    obtain ⟨key, v⟩ := m
    cases a <;> cases more <;> simp_all [memberTokens]

theorem memberTokens_one (more : Bool) (key : List Char) (v : Value) :
    memberTokens more [(key, v)] = .string key :: .colon :: (v.tokens ++ commaIf more) := by
  simp [memberTokens]

/-! ## Reading a value back -/

/-- A container that is open, with what has been read of it. -/
inductive Frame where
  | array (items : List Value)
  | object (members : List (List Char × Value)) (key : List Char)

/-- What the parser has to read next. -/
inductive Phase where
  | value
  /-- After `[`. -/
  | item
  /-- After `{`. -/
  | member
  /-- After the comma behind these members. -/
  | key (members : List (List Char × Value))
  | colon (members : List (List Char × Value)) (key : List Char)
  /-- After a value. -/
  | after (v : Value)

def valueStep (fs : List Frame) : Token → Option (List Frame × Phase)
  | .string body => some (fs, .after (.string body))
  | .scalar lexeme => some (fs, .after (.scalar lexeme))
  | .lbracket => some (fs, .item)
  | .lbrace => some (fs, .member)
  | _ => none

def afterStep (v : Value) : List Frame → Token → Option (List Frame × Phase)
  | .array items :: fs, .comma => some (.array (items ++ [v]) :: fs, .value)
  | .array items :: fs, .rbracket => some (fs, .after (.array (items ++ [v])))
  | .object members key :: fs, .comma => some (fs, .key (members ++ [(key, v)]))
  | .object members key :: fs, .rbrace => some (fs, .after (.object (members ++ [(key, v)])))
  | _, _ => none

def parseStep : List Frame × Phase → Token → Option (List Frame × Phase)
  | (fs, .value), t => valueStep fs t
  | (fs, .item), t => if t = .rbracket then some (fs, .after (.array [])) else valueStep (.array [] :: fs) t
  | (fs, .member), .rbrace => some (fs, .after (.object []))
  | (fs, .member), .string key => some (fs, .colon [] key)
  | (fs, .key members), .string key => some (fs, .colon members key)
  | (fs, .colon members key), .colon => some (.object members key :: fs, .value)
  | (fs, .after v), t => afterStep v fs t
  | _, _ => none

def parse (ts : List Token) : Option Value :=
  match ts.foldlM parseStep ([], .value) with
  | some ([], .after v) => some v
  | _ => none

theorem parseStep_item {v : Value} {fs : List Frame} {ts : List Token} :
    (v.tokens ++ ts).foldlM parseStep (fs, .item) = (v.tokens ++ ts).foldlM parseStep (.array [] :: fs, .value) := by
  cases v <;> simp [Value.tokens, parseStep]

mutual
theorem foldlM_tokens : ∀ (v : Value) (fs : List Frame),
    v.tokens.foldlM parseStep (fs, .value) = some (fs, .after v)
  | .string body, fs => rfl
  | .scalar lexeme, fs => rfl
  | .array [], fs => rfl
  | .array (v :: vs), fs => by
    have hitems := foldlM_items (v :: vs) (by simp) [] fs
    rw [List.nil_append] at hitems
    simp only [Value.tokens, itemTokens, List.append_assoc] at hitems ⊢
    rw [List.foldlM_cons]
    change List.foldlM parseStep (fs, .item) _ = _
    rw [parseStep_item, hitems]
  | .object [], fs => rfl
  | .object ((key, v) :: ms), fs => by
    have hmembers := foldlM_members ((key, v) :: ms) (by simp) [] fs
    rw [List.nil_append] at hmembers
    simp only [Value.tokens, memberTokens, List.append_assoc, List.cons_append] at hmembers ⊢
    rw [List.foldlM_cons]
    exact hmembers
/-- The rest of an array some of whose items have been read. -/
theorem foldlM_items : ∀ (vs : List Value), vs ≠ [] → ∀ (items : List Value) (fs : List Frame),
    (itemTokens vs ++ [Token.rbracket]).foldlM parseStep (.array items :: fs, .value) =
      some (fs, .after (.array (items ++ vs)))
  | [], h, _, _ => absurd rfl h
  | [v], _, items, fs => by
    simp [itemTokens, commaIf, List.foldlM_append, foldlM_tokens v, parseStep, afterStep]
  | v :: w :: vs, _, items, fs => by
    have ih := foldlM_items (w :: vs) (by simp) (items ++ [v]) fs
    simp [itemTokens, commaIf, List.foldlM_append, foldlM_tokens v, parseStep, afterStep] at ih ⊢
    exact ih
theorem foldlM_members : ∀ (ms : List (List Char × Value)), ms ≠ [] → ∀ (members : List (List Char × Value))
    (fs : List Frame), (memberTokens false ms ++ [Token.rbrace]).foldlM parseStep (fs, .key members) =
      some (fs, .after (.object (members ++ ms)))
  | [], h, _, _ => absurd rfl h
  | [(key, v)], _, members, fs => by
    simp [memberTokens, commaIf, List.foldlM_append, foldlM_tokens v, parseStep, afterStep]
  | (key, v) :: m :: ms, _, members, fs => by
    have ih := foldlM_members (m :: ms) (by simp) (members ++ [(key, v)]) fs
    simp [memberTokens, commaIf, List.foldlM_append, foldlM_tokens v, parseStep, afterStep] at ih ⊢
    exact ih
end

/-- The tokens determine the value. -/
theorem parse_tokens (v : Value) : parse v.tokens = some v := by
  unfold parse
  rw [foldlM_tokens]

end JsonText
