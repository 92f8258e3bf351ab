import OrionBroker.Lib.Lexer

/-!
# XML texts

Elements with attributes that hold either character data or other elements; there are no references, comments,
processing instructions, CDATA sections or empty-element tags. Blanks around tags are layout. As for JSON the lexer
reads one character at a time, and an element has one sequence of tokens.

* `Spells.start`, `Spells.stop`, `Spells.text`: the spelling of the tags and of character data.
* `parse_tokens`: the tokens determine the element.
-/

namespace XmlText

open Lexer

/-! ## Characters -/

def inRanges (c : Char) (ranges : List (Nat × Nat)) : Bool :=
  ranges.any fun (lo, hi) => decide (lo ≤ c.toNat ∧ c.toNat ≤ hi)

def isNameStart (c : Char) : Bool :=
  c == ':' || c == '_' || c.isAlpha ||
    inRanges c [(0xC0, 0xD6), (0xD8, 0xF6), (0xF8, 0x2FF), (0x370, 0x37D), (0x37F, 0x1FFF), (0x200C, 0x200D),
      (0x2070, 0x218F), (0x2C00, 0x2FEF), (0x3001, 0xD7FF), (0xF900, 0xFDCF), (0xFDF0, 0xFFFD), (0x10000, 0xEFFFF)]

def isNameChar (c : Char) : Bool :=
  isNameStart c || c == '-' || c == '.' || c.isDigit || inRanges c [(0xB7, 0xB7), (0x300, 0x36F), (0x203F, 0x2040)]

def isName : List Char → Bool
  | [] => false
  | c :: cs => isNameStart c && cs.all isNameChar

def isBlank (c : Char) : Bool := c == ' ' || c == '\n' || c == '\t' || c == '\r'

/-- A character of character data. -/
def isTextChar (c : Char) : Bool := (decide (0x20 ≤ c.toNat) || isBlank c) && c != '<' && c != '&' && c != '>'

/-- A character of an attribute value. -/
def isValueChar (c : Char) : Bool := decide (0x20 ≤ c.toNat) && c != '<' && c != '&' && c != '"'

/-! ## Lexing -/

inductive Token where
  | start (name : List Char) (attributes : List (List Char × List Char))
  | stop (name : List Char)
  | text (body : List Char)
deriving DecidableEq, Repr

/-- Where the lexer stands, with what it has read since the last token. -/
inductive Mode where
  | content (read : List Char)
  /-- After `<`. -/
  | tag
  | startName (read : List Char)
  /-- Inside a start tag, after a blank. -/
  | inTag (name : List Char) (attributes : List (List Char × List Char))
  /-- Inside a start tag, after the value of an attribute. -/
  | afterValue (name : List Char) (attributes : List (List Char × List Char))
  | attributeName (name : List Char) (attributes : List (List Char × List Char)) (read : List Char)
  /-- After the `=` of an attribute. -/
  | quote (name : List Char) (attributes : List (List Char × List Char)) (attr : List Char)
  | value (name : List Char) (attributes : List (List Char × List Char)) (attr read : List Char)
  | stopName (read : List Char)
deriving DecidableEq, Repr

/-- The token of the characters between two tags. -/
def dataTokens (read : List Char) : List Token := if read.all isBlank then [] else [.text read]

def step : Mode → Char → Option (List Token × Mode)
  | .content read, c =>
    if c = '<' then some (dataTokens read, .tag)
    else if isTextChar c then some ([], .content (read ++ [c]))
    else none
  | .tag, c =>
    if c = '/' then some ([], .stopName [])
    else if isNameStart c then some ([], .startName [c])
    else none
  | .startName read, c =>
    if isNameChar c then some ([], .startName (read ++ [c]))
    else if c = '>' then some ([.start read []], .content [])
    else if isBlank c then some ([], .inTag read [])
    else none
  | .inTag name attributes, c =>
    if isBlank c then some ([], .inTag name attributes)
    else if c = '>' then some ([.start name attributes], .content [])
    else if isNameStart c then some ([], .attributeName name attributes [c])
    else none
  | .afterValue name attributes, c =>
    if isBlank c then some ([], .inTag name attributes)
    else if c = '>' then some ([.start name attributes], .content [])
    else none
  | .attributeName name attributes read, c =>
    if isNameChar c then some ([], .attributeName name attributes (read ++ [c]))
    else if c = '=' then some ([], .quote name attributes read)
    else none
  | .quote name attributes attr, c =>
    if c = '"' then some ([], .value name attributes attr []) else none
  | .value name attributes attr read, c =>
    if c = '"' then some ([], .afterValue name (attributes ++ [(attr, read)]))
    else if isValueChar c then some ([], .value name attributes attr (read ++ [c]))
    else none
  | .stopName read, c =>
    if isNameChar c then some ([], .stopName (read ++ [c]))
    else if c = '>' then some ([.stop read], .content [])
    else none

def lex (text : List Char) : Option (List Token) :=
  match run step (.content []) text with
  | some (ts, .content read) => some (ts ++ dataTokens read)
  | _ => none

/-- Wherever it stands among layout, the text is these tokens and leaves nothing but layout. -/
def Spells (text : List Char) (ts : List Token) : Prop :=
  ∀ read, read.all isBlank = true → ∃ read', read'.all isBlank = true ∧
    run step (.content read) text = some (ts, .content read')

theorem Spells.nil : Spells [] [] := fun read hr => ⟨read, hr, rfl⟩

theorem Spells.append {a b : List Char} {ts us : List Token} (ha : Spells a ts) (hb : Spells b us) :
    Spells (a ++ b) (ts ++ us) := by
  intro read hr
  obtain ⟨read1, h1, ha⟩ := ha read hr
  obtain ⟨read2, h2, hb⟩ := hb read1 h1
  refine ⟨read2, h2, ?_⟩
  rw [run_append_some ha, hb]
  rfl

theorem Spells.lex_eq {text : List Char} {ts : List Token} (h : Spells text ts) : lex text = some ts := by
  obtain ⟨read, hr, h⟩ := h [] rfl
  simp [lex, h, dataTokens, hr]

theorem isTextChar_of_isBlank {c : Char} (h : isBlank c = true) : isTextChar c = true ∧ c ≠ '<' := by
  simp only [isBlank, Bool.or_eq_true, beq_iff_eq] at h
  obtain ((rfl | rfl) | rfl) | rfl := h <;> decide

theorem run_content {body : List Char} (h : ∀ c ∈ body, isTextChar c = true) (read : List Char) :
    run step (.content read) body = some ([], .content (read ++ body)) := by
  refine run_collect Mode.content (fun read c hc => ?_) h read
  have hlt : c ≠ '<' := by
    rintro rfl
    exact absurd hc (by decide)
  simp [step, hlt, hc]

theorem Spells.blank {text : List Char} (h : text.all isBlank = true) : Spells text [] := by
  intro read hr
  have hb := List.all_eq_true.1 h
  refine ⟨read ++ text, ?_, run_content (fun c hc => (isTextChar_of_isBlank (hb c hc)).1) read⟩
  rw [List.all_append, hr, h]
  rfl

/-! ## Tags -/

theorem isNameStart_ne {c : Char} (h : isNameStart c = true) : c ≠ '/' ∧ c ≠ '>' ∧ isBlank c = false := by
  refine ⟨?_, ?_, ?_⟩
  · rintro rfl
    exact absurd h (by decide)
  · rintro rfl
    exact absurd h (by decide)
  · by_contra hb
    simp only [isBlank, Bool.not_eq_false, Bool.or_eq_true, beq_iff_eq] at hb
    obtain ((rfl | rfl) | rfl) | rfl := hb <;> exact absurd h (by decide)

theorem isNameChar_of_isNameStart {c : Char} (h : isNameStart c = true) : isNameChar c = true := by
  simp [isNameChar, h]

theorem isName_cons {name : List Char} (h : isName name = true) :
    ∃ c cs, name = c :: cs ∧ isNameStart c = true ∧ ∀ d ∈ cs, isNameChar d = true := by
  cases name with
  | nil => cases h
  | cons c cs =>
    simp only [isName, Bool.and_eq_true, List.all_eq_true] at h
    exact ⟨c, cs, rfl, h⟩

theorem isName_all {name : List Char} (h : isName name = true) : ∀ c ∈ name, isNameChar c = true := by
  obtain ⟨c, cs, rfl, hc, hcs⟩ := isName_cons h
  intro d hd
  rcases List.mem_cons.1 hd with rfl | hd
  · exact isNameChar_of_isNameStart hc
  · exact hcs d hd

theorem run_startName {name : List Char} (h : isName name = true) :
    run step .tag name = some ([], .startName name) := by
  obtain ⟨c, cs, rfl, hc, hcs⟩ := isName_cons h
  have hfirst : step .tag c = some ([], .startName [c]) := by simp [step, (isNameStart_ne hc).1, hc]
  have hrest : run step (.startName [c]) cs = some ([], .startName ([c] ++ cs)) :=
    run_collect Mode.startName (fun read d hd => by rw [step, if_pos hd]) hcs [c]
  rw [run_cons_some hfirst, hrest]
  rfl

theorem run_attributeName {name attr : List Char} {attributes : List (List Char × List Char)}
    (h : isName attr = true) :
    run step (.inTag name attributes) attr = some ([], .attributeName name attributes attr) := by
  obtain ⟨c, cs, rfl, hc, hcs⟩ := isName_cons h
  obtain ⟨-, hgt, hb⟩ := isNameStart_ne hc
  have hfirst : step (.inTag name attributes) c = some ([], .attributeName name attributes [c]) := by
    simp [step, hb, hgt, hc]
  have hrest : run step (.attributeName name attributes [c]) cs =
      some ([], .attributeName name attributes ([c] ++ cs)) :=
    run_collect (Mode.attributeName name attributes) (fun read d hd => by rw [step, if_pos hd]) hcs [c]
  rw [run_cons_some hfirst, hrest]
  rfl

theorem run_value {name attr value : List Char} {attributes : List (List Char × List Char)}
    (h : ∀ c ∈ value, isValueChar c = true) (read : List Char) :
    run step (.value name attributes attr read) value = some ([], .value name attributes attr (read ++ value)) := by
  refine run_collect (Mode.value name attributes attr) (fun read c hc => ?_) h read
  have hq : c ≠ '"' := by
    rintro rfl
    exact absurd hc (by decide)
  simp [step, hq, hc]

theorem run_lt {read : List Char} (hr : read.all isBlank = true) (cs : List Char) :
    run step (.content read) ('<' :: cs) = run step .tag cs := by
  have hlt : step (.content read) '<' = some ([], .tag) := by simp [step, dataTokens, hr]
  rw [run_cons_some hlt]
  simp

theorem step_startName_gt (name : List Char) :
    step (.startName name) '>' = some ([.start name []], .content []) := by
  rw [step, if_neg (by decide), if_pos rfl]

theorem Spells.start {name : List Char} (h : isName name = true) :
    Spells ('<' :: (name ++ ['>'])) [.start name []] := by
  intro read hr
  refine ⟨[], rfl, ?_⟩
  rw [run_lt hr, run_append_some (run_startName h), run_cons_some (step_startName_gt name)]
  rfl

/-- A start tag with one attribute. -/
theorem Spells.startWith {name attr value : List Char} (h : isName name = true) (ha : isName attr = true)
    (hv : ∀ c ∈ value, isValueChar c = true) :
    Spells ('<' :: (name ++ ' ' :: (attr ++ '=' :: '"' :: (value ++ ['"', '>']))))
      [.start name [(attr, value)]] := by
  intro read hr
  have hblank : step (.startName name) ' ' = some ([], .inTag name []) := by
    rw [step, if_neg (by decide), if_neg (by decide), if_pos (by decide)]
  have heq : step (.attributeName name [] attr) '=' = some ([], .quote name [] attr) := by
    rw [step, if_neg (by decide), if_pos rfl]
  have hq : step (.quote name [] attr) '"' = some ([], .value name [] attr []) := by
    rw [step, if_pos rfl]
  have hend : run step (.value name [] attr value) ['"', '>'] =
      some ([.start name [(attr, value)]], .content []) := by
    simp [run_cons, step, isBlank]
  refine ⟨[], rfl, ?_⟩
  rw [run_lt hr, run_append_some (run_startName h), run_cons_some hblank, run_append_some (run_attributeName ha),
    run_cons_some heq, run_cons_some hq, run_append_some (run_value hv []), List.nil_append, hend]
  rfl

theorem Spells.stop {name : List Char} (h : isName name = true) :
    Spells ('<' :: '/' :: (name ++ ['>'])) [.stop name] := by
  intro read hr
  have hslash : step .tag '/' = some ([], .stopName []) := by decide
  have hname : run step (.stopName []) name = some ([], .stopName ([] ++ name)) :=
    run_collect Mode.stopName (fun read d hd => by rw [step, if_pos hd]) (isName_all h) []
  have hgt : step (.stopName name) '>' = some ([.stop name], .content []) := by
    rw [step, if_neg (by decide), if_pos rfl]
  refine ⟨[], rfl, ?_⟩
  rw [run_lt hr, run_cons_some hslash, run_append_some hname, List.nil_append, run_cons_some hgt]
  rfl

/-- Character data between the tags of an element. -/
theorem Spells.text {name body : List Char} (h : isName name = true) (hb : ∀ c ∈ body, isTextChar c = true)
    (hne : body.all isBlank = false) :
    Spells ('<' :: (name ++ '>' :: (body ++ '<' :: '/' :: (name ++ ['>']))))
      [.start name [], .text body, .stop name] := by
  intro read hr
  obtain ⟨read', hr', hstop⟩ := Spells.stop h [] rfl
  have hlt : step (.content body) '<' = some ([.text body], .tag) := by simp [step, dataTokens, hne]
  refine ⟨read', hr', ?_⟩
  rw [run_lt rfl] at hstop
  rw [run_lt hr, run_append_some (run_startName h), run_cons_some (step_startName_gt name),
    run_append_some (run_content hb []), List.nil_append, run_cons_some hlt, hstop]
  rfl

/-! ## Elements -/

inductive Element where
  /-- With character data. -/
  | leaf (name : List Char) (attributes : List (List Char × List Char)) (body : List Char)
  /-- With elements. -/
  | node (name : List Char) (attributes : List (List Char × List Char)) (children : List Element)

mutual
def Element.tokens : Element → List Token
  | .leaf name attributes body => [.start name attributes, .text body, .stop name]
  | .node name attributes children => .start name attributes :: (childTokens children ++ [.stop name])
def childTokens : List Element → List Token
  | [] => []
  | e :: es => e.tokens ++ childTokens es
end

/-! ## Reading an element back -/

/-- An element whose start tag has been read, with its character data or its children so far. -/
structure Frame where
  name : List Char
  attributes : List (List Char × List Char)
  body : Option (List Char) := none
  children : List Element := []

def Frame.element (f : Frame) : Element :=
  match f.body with
  | some body => .leaf f.name f.attributes body
  | none => .node f.name f.attributes f.children

/-- Puts an element into the one around it; the outermost one is the document. -/
def put (e : Element) : List Frame → List Frame × Option Element
  | [] => ([], some e)
  | f :: fs => ({ f with children := f.children ++ [e] } :: fs, none)

def parseStep : List Frame × Option Element → Token → Option (List Frame × Option Element)
  | (fs, none), .start name attributes =>
    if fs.head?.all (·.body.isNone) then some (⟨name, attributes, none, []⟩ :: fs, none) else none
  | (f :: fs, none), .text body =>
    if f.body.isNone ∧ f.children.isEmpty then some ({ f with body := some body } :: fs, none) else none
  | (f :: fs, none), .stop name => if f.name = name then some (put f.element fs) else none
  | _, _ => none

def parse (ts : List Token) : Option Element :=
  match ts.foldlM parseStep ([], none) with
  | some ([], e) => e
  | _ => none

mutual
theorem foldlM_tokens : ∀ (e : Element) (fs : List Frame), fs.head?.all (·.body.isNone) = true →
    e.tokens.foldlM parseStep (fs, none) = some (put e fs)
  | .leaf name attributes body, fs, hfs => by
    simp [Element.tokens, parseStep, hfs, Frame.element]
  | .node name attributes children, fs, hfs => by
    have hchildren := foldlM_children children ⟨name, attributes, none, []⟩ fs rfl
    simp [Element.tokens, parseStep, hfs, List.foldlM_append, hchildren, Frame.element]
theorem foldlM_children : ∀ (es : List Element) (f : Frame) (fs : List Frame), f.body = none →
    (childTokens es).foldlM parseStep (f :: fs, none) =
      some ({ f with children := f.children ++ es } :: fs, none)
  | [], f, fs, _ => by simp [childTokens]
  | e :: es, f, fs, hf => by
    have he := foldlM_tokens e (f :: fs) (by simp [hf])
    have hes := foldlM_children es { f with children := f.children ++ [e] } fs hf
    simp [childTokens, List.foldlM_append, he, put, hes]
end

/-- The tokens determine the element. -/
theorem parse_tokens (e : Element) : parse e.tokens = some e := by
  unfold parse
  rw [foldlM_tokens e [] rfl]
  rfl

end XmlText
