import OrionBroker.Lib.JsonText
import OrionBroker.Lib.XmlText
import OrionBroker.Parse.Compound

/-!
# Tags (src/lib/common/tag.cpp)

Answers are put together from lines: a start tag, an end tag, or a tag with a value.

| here | there |
| --- | --- |
| `htmlEscape`  | `htmlEscape` (tag.cpp:46) |
| `startTag`    | `startTag` with one tag (tag.cpp:144) |
| `startTag'`   | `startTag` with a tag for either format (tag.cpp:189) |
| `endTag`      | `endTag` (tag.cpp:240) |
| `valueTag`    | `valueTag` of a text (tag.cpp:282) |
| `valueTagInt` | `valueTag` of an `int` (tag.cpp:374) |

The brace is `\x7b`, the closing one `\x7d`. The other two thirds of the module say how a line is read: in JSON
(`spells_…`) whatever stands in the strings has to be a valid body, since only the characters that mean something
in HTML are escaped; in XML (`xml_…`) the tags have to be names.
-/

namespace OrionBroker

def htmlChar : Char → List Char
  | '<' => ['&', 'l', 't', ';']
  | '>' => ['&', 'g', 't', ';']
  | '(' => ['&', '#', '4', '0', ';']
  | ')' => ['&', '#', '4', '1', ';']
  | '=' => ['&', '#', '6', '1', ';']
  | '\x27' => ['&', '#', '3', '9', ';']
  | '"' => ['&', 'q', 'u', 'o', 't', ';']
  | ';' => ['&', '#', '5', '9', ';']
  | c => [c]

def htmlEscape (s : List Char) : List Char := s.flatMap htmlChar

def startTag (indent tagName : String) (format : Format) (showTag isToplevel : Bool) : String :=
  match format with
  | .xml => indent ++ "<" ++ tagName ++ ">\n"
  | .json =>
    if isToplevel then
      if showTag = false then indent ++ "\x7b\n" ++ indent ++ "  \x7b\n"
      else indent ++ "\x7b\n" ++ indent ++ "  " ++ "\"" ++ tagName ++ "\" : \x7b\n"
    else
      if showTag = false then indent ++ "\x7b\n" else indent ++ "\"" ++ tagName ++ "\" : \x7b\n"
  | _ => "Format not supported"

def startTag' (indent xmlTag jsonTag : String) (format : Format) (isVector showTag isCompoundVector : Bool) : String :=
  match format with
  | .xml =>
    if isCompoundVector then indent ++ "<" ++ xmlTag ++ " type=\"vector\">\n" else indent ++ "<" ++ xmlTag ++ ">\n"
  | .json =>
    match isVector, showTag with
    | true, true => indent ++ "\"" ++ jsonTag ++ "\" : [\n"
    | true, false => indent ++ "[\n"
    | false, true => indent ++ "\"" ++ jsonTag ++ "\" : \x7b\n"
    | false, false => indent ++ "\x7b\n"
  | _ => "Format not supported"

def endTag (indent tagName : String) (format : Format) (comma isVector nl isToplevel : Bool) : String :=
  if format = .xml then indent ++ "</" ++ tagName ++ ">\n"
  else if isToplevel then indent ++ "\x7d\n\x7d\n"
  else indent ++ (if isVector then "]" else "\x7d") ++ (if comma then "," else "") ++ (if nl then "\n" else "")

/-- The value is not escaped if it is the text of an association. -/
def valueTag (indent tagName unescapedValue : String) (format : Format)
    (showComma isAssociation isVectorElement : Bool) : String :=
  let value :=
    if isAssociation = false then String.ofList (htmlEscape (cStr unescapedValue)) else cString unescapedValue
  let comma := if showComma then "," else ""
  if format = .xml then indent ++ "<" ++ tagName ++ ">" ++ value ++ "</" ++ tagName ++ ">" ++ "\n"
  else if isAssociation then indent ++ "\"" ++ tagName ++ "\" : " ++ value ++ comma ++ "\n"
  else if isVectorElement then indent ++ "\"" ++ value ++ "\"" ++ comma ++ "\n"
  else indent ++ "\"" ++ tagName ++ "\" : \"" ++ value ++ "\"" ++ comma ++ "\n"

def valueTagInt (indent tagName : String) (value : Int) (format : Format) (showComma : Bool) : String :=
  if format = .xml then indent ++ "<" ++ tagName ++ ">" ++ toString value ++ "</" ++ tagName ++ ">" ++ "\n"
  else indent ++ "\"" ++ tagName ++ "\" : \"" ++ toString value ++ "\"" ++ (if showComma then "," else "") ++ "\n"

/-! ## Indentation -/

def Indent (s : String) : Prop := ∀ c ∈ s.toList, c = ' '

theorem Indent.empty : Indent "" := by
  intro c hc
  simp at hc

theorem Indent.append {s t : String} (hs : Indent s) (ht : Indent t) : Indent (s ++ t) := by
  intro c hc
  simp only [String.toList_append, List.mem_append] at hc
  rcases hc with hc | hc
  · exact hs c hc
  · exact ht c hc

theorem Indent.two : Indent "  " := by
  intro c hc
  simpa using hc

theorem Indent.deeper {s : String} (h : Indent s) : Indent (s ++ "  ") := h.append .two

theorem Indent.deeper2 {s : String} (h : Indent s) : Indent (s ++ "    ") := h.append (Indent.two.append .two)

/-! ## The lines in JSON -/

section Json

open JsonText

variable {indent tag : String}

theorem Indent.json (hi : Indent indent) {r : List Char} {ts : List Token} (hr : Spells r ts) :
    Spells (indent.toList ++ r) ts :=
  .after_blank (fun c hc => by rw [hi c hc]; decide) hr

/-- What comes after the name of a member that is a container. -/
theorem spells_opens (isVector : Bool) :
    Spells [' ', ':', ' ', if isVector then '[' else '{', '\n']
      [.colon, if isVector then .lbracket else .lbrace] := by
  cases isVector <;> simp

theorem spells_startTag' (xmlTag : String) (hi : Indent indent) (isVector showTag isCompoundVector : Bool)
    (ht : showTag = true → validBody tag.toList = true) :
    Spells (startTag' indent xmlTag tag .json isVector showTag isCompoundVector).toList
      ((if showTag then [Token.string tag.toList, Token.colon] else []) ++
        [if isVector then Token.lbracket else Token.lbrace]) := by
  cases showTag with
  | false =>
    have hopen : Spells [if isVector then '[' else '{', '\n'] [if isVector then .lbracket else .lbrace] := by
      cases isVector <;> simp
    have h := hi.json hopen
    cases isVector <;> simpa [startTag'] using h
  | true =>
    have h := hi.json (Spells.quoted (ht rfl) (spells_opens isVector))
    cases isVector <;> simpa [startTag'] using h

theorem spells_endTag (tag : String) (hi : Indent indent) (comma isVector nl : Bool) :
    Spells (endTag indent tag .json comma isVector nl false).toList
      ((if isVector then .rbracket else .rbrace) :: commaIf comma) := by
  have hend : Spells ((if isVector then ']' else '}') ::
      ((if comma then [','] else []) ++ (if nl then ['\n'] else [])))
      ((if isVector then .rbracket else .rbrace) :: commaIf comma) := by
    cases isVector <;> cases comma <;> cases nl <;> simp [commaIf]
  have h := hi.json hend
  cases isVector <;> cases comma <;> cases nl <;> simpa [endTag] using h

/-- What comes after the value of a line. -/
theorem spells_lineEnd (comma : Bool) : Spells ((if comma then [','] else []) ++ ['\n']) (commaIf comma) := by
  cases comma <;> simp [commaIf]

theorem spells_valueTag (hi : Indent indent) (ht : validBody tag.toList = true) {value : String}
    (hv : validBody (htmlEscape (cStr value)) = true) (comma : Bool) :
    Spells (valueTag indent tag value .json comma false false).toList
      (.string tag.toList :: .colon :: .string (htmlEscape (cStr value)) :: commaIf comma) := by
  have h := hi.json (Spells.quoted ht (spells_space.2 (spells_colon.2 (spells_space.2
    (Spells.quoted hv (spells_lineEnd comma))))))
  cases comma <;> simpa [valueTag] using h

/-- An item of a vector. -/
theorem spells_valueTag_item (tag : String) (hi : Indent indent) {value : String}
    (hv : validBody (htmlEscape (cStr value)) = true) (comma : Bool) :
    Spells (valueTag indent tag value .json comma false true).toList
      (.string (htmlEscape (cStr value)) :: commaIf comma) := by
  have h := hi.json (Spells.quoted hv (spells_lineEnd comma))
  cases comma <;> simpa [valueTag] using h

theorem spells_valueTagInt (hi : Indent indent) (ht : validBody tag.toList = true) {value : Int}
    (hv : validBody (toString value).toList = true) (comma : Bool) :
    Spells (valueTagInt indent tag value .json comma).toList
      (.string tag.toList :: .colon :: .string (toString value).toList :: commaIf comma) := by
  have h := hi.json (Spells.quoted ht (spells_space.2 (spells_colon.2 (spells_space.2
    (Spells.quoted hv (spells_lineEnd comma))))))
  cases comma <;> simpa [valueTagInt] using h

end Json

/-! ## The lines in XML -/

section Xml

open XmlText

variable {indent tag : String}

theorem Indent.xml (hi : Indent indent) {a : List Char} {ts : List Token} (ha : Spells a ts) :
    Spells (indent.toList ++ (a ++ ['\n'])) ts := by
  have hblank : indent.toList.all isBlank = true := by
    rw [List.all_eq_true]
    intro c hc
    rw [hi c hc]
    decide
  have hnl : Spells ['\n'] [] := Spells.blank (by decide)
  have h := (Spells.blank hblank).append (ha.append hnl)
  simpa using h

/-- The attributes of the start tag of a container. -/
def typeAttribute (isVector : Bool) : List (List Char × List Char) :=
  if isVector then [("type".toList, "vector".toList)] else []

theorem xml_startTag' (jsonTag : String) (hi : Indent indent) (isVector showTag isCompoundVector : Bool)
    (ht : isName tag.toList = true) :
    Spells (startTag' indent tag jsonTag .xml isVector showTag isCompoundVector).toList
      [.start tag.toList (typeAttribute isCompoundVector)] := by
  cases isCompoundVector with
  | false =>
    have h := hi.xml (Spells.start ht)
    simpa [startTag', typeAttribute] using h
  | true =>
    have htype : isName "type".toList = true := by decide
    have hvector : ∀ c ∈ "vector".toList, isValueChar c = true := List.all_eq_true.1 (by decide)
    have h := hi.xml (Spells.startWith ht htype hvector)
    simpa [startTag', typeAttribute] using h

theorem xml_endTag (hi : Indent indent) (comma isVector nl : Bool) (ht : isName tag.toList = true) :
    Spells (endTag indent tag .xml comma isVector nl false).toList [.stop tag.toList] := by
  have h := hi.xml (Spells.stop ht)
  simpa [endTag] using h

theorem xml_valueTag (hi : Indent indent) (ht : isName tag.toList = true) {value : String}
    (hv : ∀ c ∈ htmlEscape (cStr value), isTextChar c = true) (hne : (htmlEscape (cStr value)).all isBlank = false)
    (comma isVectorElement : Bool) :
    Spells (valueTag indent tag value .xml comma false isVectorElement).toList
      [.start tag.toList [], .text (htmlEscape (cStr value)), .stop tag.toList] := by
  have h := hi.xml (Spells.text ht hv hne)
  simpa [valueTag] using h

end Xml

end OrionBroker
