import OrionBroker.Parse.Compound

/-!
# The XML parser (src/lib/xmlParse/xmlParse.cpp)

| here | there |
| --- | --- |
| `XmlTree`             | `rapidxml::xml_node`; a data node has the name "" |
| `compoundValueRootV`  | `compoundValueRootV` (xmlParse.cpp:51) |
| `isCompoundValuePath` | `isCompoundValuePath` (xmlParse.cpp:70) |
| `treat`               | `treat` (xmlParse.cpp:107) |
| `xmlTypeAttributeGet` | `xmlTypeAttributeGet` (xmlParse.cpp:417) |
| `eatCompound`         | `eatCompound` (xmlParse.cpp:168), below the node it is first called for |
| `eatToplevel`         | `eatCompound` with no container |
| `xmlParse`            | `xmlParse` (xmlParse.cpp:266) |

An error does not stop this parser: it is kept in the `ConnectionInfo`, and the walk goes on.
-/

namespace OrionBroker

inductive XmlTree where
  | node (name value : String) (attributes : List (String × String)) (children : List XmlTree)

namespace XmlTree

def name : XmlTree → String
  | node name _ _ _ => name

def value : XmlTree → String
  | node _ value _ _ => value

def attributes : XmlTree → List (String × String)
  | node _ _ attributes _ => attributes

end XmlTree

namespace Xml

def compoundValueRootV : List String :=
  ["/updateContextRequest/contextElementList/contextElement/contextAttributeList/contextAttribute/contextValue",
   "/appendContextElementRequest/contextAttributeList/contextAttribute/contextValue",
   "/updateContextElementRequest/contextAttributeList/contextAttribute/contextValue",
   "/updateContextAttributeRequest/contextValue",
   "/notifyContextRequest/contextResponseList/contextElementResponse/contextElement/contextAttributeList/" ++
     "contextAttribute/contextValue"]

def isCompoundValuePath (path : String) : Bool := hasRoot compoundValueRootV path

/-- `std::string(wsStrip(s))`. -/
def strip (s : String) : String := String.ofList (wsStrip (cStr s))

/-- What `wsStrip` leaves in the buffer: blanks at the end are cut in place, unless there is nothing else. -/
def stripEnd (s : String) : String := if strip s = "" then s else String.ofList ((cStr s).rdropWhile isWs)

/-- The node as `xmlParse` hands it on, its name and value having gone through `wsStrip`. -/
def stripped : XmlTree → XmlTree
  | .node name value attributes children => .node (stripEnd name) (stripEnd value) attributes children

/-- `child->name()[0] != 0`. -/
def isNamed (node : XmlTree) : Bool := !(cStr node.name).isEmpty

def onlyWs (s : String) : Bool := (cStr s).all isWs

variable {D : Type}

/-- The value is checked, or the values of the XML attributes where there are any. -/
def isIllegal (node : XmlTree) : Bool :=
  if node.attributes.isEmpty then forbiddenChars node.value else node.attributes.any (forbiddenChars ·.2)

/-- A node with an illegal value counts as treated, with its treat function not called. -/
def treat (node : XmlTree) (path : String) : List (ParseNode XmlTree D) → ParseState D →
    Except Stop (Bool × ParseState D)
  | [], s => .ok (false, s)
  | entry :: parseVector, s =>
    if path = entry.path then
      if isIllegal node then .ok (true, { s with ciP := s.ciP.bad "Illegal value for XML attribute" })
      else do
        let d ← entry.treat node s.parseDataP
        return (true, { s with parseDataP := d })
    else treat node path parseVector s

/-! ## Compound values -/

/-- The loop over the XML attributes, with the type found so far. -/
def typeLoop (type : String) : List (String × String) → String
  | [] => type
  | (name, value) :: attributes =>
    if cString name = "type" then
      if type ≠ "" then "more than one /type/ attribute" else typeLoop (cString value) attributes
    else "unknown attribute /" ++ cString name ++ "/"

def xmlTypeAttributeGet (attributes : List (String × String)) : String := typeLoop "" attributes

/-- The container an element stands for: a vector, an object, or none when its `type` is a bad one. -/
def containerType (xmlAttribute : String) : Option NodeType :=
  if xmlAttribute = "vector" then some .vector
  else if xmlAttribute = "" then some .object
  else none

def badType (name xmlAttribute : String) : String :=
  "Bad value for XML attribute /type/ for /" ++ name ++ "/: " ++ xmlAttribute

mutual
/-- Next to the container goes the answer of the last error, which does not end the loop over the siblings. -/
def eatCompound : XmlTree → CompoundValueNode × Option String → CompoundValueNode × Option String
  | .node nodeName nodeValue attributes children, (containerP, error) =>
    let value := strip nodeValue
    let name := strip nodeName
    if value = "" then
      let xmlAttribute := xmlTypeAttributeGet attributes
      match containerType xmlAttribute with
      | some type =>
        let (child, error) := eatChildren children (.mk type name "" [], error)
        (containerP.push child, error)
      | none => (containerP, some (badType name xmlAttribute))
    else if forbiddenChars value then (containerP, some "Illegal value for XML attribute")
    else eatChildren children (containerP.add .string name value, error)
def eatChildren : List XmlTree → CompoundValueNode × Option String → CompoundValueNode × Option String
  | [], eaten => eaten
  | child :: children, eaten => eatChildren children (if isNamed child then eatCompound child eaten else eaten)
end

/-- A bad `type` makes no root. -/
def eatToplevel : XmlTree → Option CompoundValueNode × Option String
  | .node name _ attributes children =>
    let xmlAttribute := xmlTypeAttributeGet attributes
    match containerType xmlAttribute with
    | some type =>
      let (root, error) := eatChildren children (.toplevel type, none)
      (some root, error)
    | none => (none, some (badType (cString name) xmlAttribute))

/-! ## The walk over the payload -/

/-- The answer to a node that nothing treated: an earlier one stays. -/
def unknownField (name answer : String) : String :=
  if answer = "" then "Unknown XML field: " ++ name else answer

/-- A value with no text of its own, but nodes below. -/
def isEmptyValue (path nodeValue : String) (children : List XmlTree) : Bool :=
  isCompoundValuePath path && strip nodeValue == "" && !children.isEmpty

mutual
def xmlParse (parseVector : List (ParseNode XmlTree D)) (fatherPath : String) : XmlTree → ParseState D →
    Except Stop (ParseState D)
  | .node nodeName nodeValue attributes children, s => do
    let node := stripped (.node nodeName nodeValue attributes children)
    let path := fatherPath ++ "/" ++ strip nodeName
    let (treated, s) ← treat node path parseVector s
    if isEmptyValue path nodeValue children then
      -- with no named child the value is just empty
      if children.any isNamed then
        let (root, error) := eatToplevel node
        compoundValueEnd { s with ciP := s.ciP.eaten root error }
      else .ok s
    else if treated then xmlParseChildren parseVector path children s
    else
      let answer := unknownField (strip nodeName) s.ciP.answer
      .ok { s with ciP := s.ciP.bad answer, errorMsg := "Bad Input: " ++ answer }
def xmlParseChildren (parseVector : List (ParseNode XmlTree D)) (path : String) : List XmlTree →
    ParseState D → Except Stop (ParseState D)
  | [], s => .ok s
  | child :: children, s =>
    if onlyWs child.name then xmlParseChildren parseVector path children s
    else do
      let s ← xmlParse parseVector path child s
      xmlParseChildren parseVector path children s
end

end Xml

end OrionBroker
