import OrionBroker.Parse.Compound

/-!
# The JSON parser (src/lib/jsonParse/jsonParse.cpp)

| here | there |
| --- | --- |
| `PropertyTree`            | `boost::property_tree::ptree`, an element of an array having the name "" |
| `compoundRootV`           | `compoundRootV` (jsonParse.cpp:66) |
| `isCompoundPath`          | `isCompoundPath` (jsonParse.cpp:85) |
| `treat`                   | `treat` (jsonParse.cpp:114) |
| `getArrayElementName`     | `getArrayElementName` (jsonParse.cpp:159) |
| `eatCompound`             | `eatCompound` (jsonParse.cpp:218), below the node it is first called for |
| `eatToplevel`             | `eatCompound` with no container |
| `jsonParse`               | `jsonParse` (jsonParse.cpp:296); an answer other than "OK" is `Stop.rejected` |
| `jsonParseTree`           | `jsonParse` (jsonParse.cpp:387), after `read_json` |
-/

namespace OrionBroker

inductive PropertyTree where
  | node (data : String) (children : List (String × PropertyTree))

namespace Json

def compoundRootV : List String :=
  ["/contextElements/contextElement/attributes/attribute/value",
   "/attributes/attribute/value",
   "/contextResponses/contextResponse/contextElement/attributes/attribute/value",
   "/value"]

def isCompoundPath (path : String) : Bool := hasRoot compoundRootV path

/-- The last component of the path without its last letter, a trailing "ie" then becoming "y". -/
def getArrayElementName (arrayName : String) : String :=
  let elementName := (arrayName.toList.rtakeWhile (· != '/')).dropLast
  if 2 < elementName.length ∧ elementName.drop (elementName.length - 2) = ['i', 'e'] then
    String.ofList (elementName.take (elementName.length - 2) ++ ['y'])
  else String.ofList elementName

variable {D : Type}

/-- A treat function is given the path and the value. The value is checked before each comparison of the
path, so a vector with no entry checks nothing. -/
def treat (path value : String) : List (ParseNode (String × String) D) → ParseState D →
    Except Stop (Bool × ParseState D)
  | [], s => .ok (false, s)
  | node :: parseVector, s =>
    if forbiddenChars value then .ok (false, { s with ciP := s.ciP.bad "Illegal value for JSON field" })
    else if path = node.path then do
      let d ← node.treat (path, value) s.parseDataP
      return (true, { s with parseDataP := d })
    else treat path value parseVector s

/-! ## Compound values -/

mutual
/-- Next to the container goes the answer of the last error, which does not end the loop over the siblings. -/
def eatCompound (nodeName : String) : PropertyTree → CompoundValueNode × Option String →
    CompoundValueNode × Option String
  | .node nodeValue children, (containerP, error) =>
    if nodeName ≠ "" ∧ nodeValue ≠ "" then  -- named string
      if forbiddenChars nodeValue then (containerP, some "Illegal value for JSON field")
      else eatChildren children (containerP.add .string nodeName nodeValue, error)
    else if nodeName = "" ∧ nodeValue = "" ∧ children.isEmpty then  -- unnamed string with no value
      (containerP.add .string "item" "", error)
    else if nodeName ≠ "" ∧ nodeValue = "" then  -- named container
      let (child, error) := eatChildren children (.mk .object nodeName "" [], error)
      (containerP.push child, error)
    else if nodeName = "" ∧ nodeValue = "" then  -- nameless container
      let (child, error) := eatChildren children (.mk .object "item" "" [], error)
      (containerP.toVector.push child, error)
    else  -- nameless string
      eatChildren children (containerP.toVector.add .string "item" nodeValue, error)
def eatChildren : List (String × PropertyTree) → CompoundValueNode × Option String →
    CompoundValueNode × Option String
  | [], eaten => eaten
  | (name, tree) :: children, eaten => eatChildren children (eatCompound (cString name) tree eaten)
end

def eatToplevel (children : List (String × PropertyTree)) : CompoundValueNode × Option String :=
  eatChildren children (.toplevel .object, none)

/-! ## The walk over the payload -/

/-- The path of a node named `nodeName` below `path`, or the text of the `logic_error`. -/
def nodePath (path nodeName : String) : Except String String :=
  let arrayElementName := getArrayElementName path
  if nodeName = "" then .ok (path ++ "/" ++ arrayElementName)
  else if nodeName = arrayElementName then
    .error ("The object '" ++ path ++ "' may not have a child named '" ++ nodeName ++ "'")
  else .ok (path ++ "/" ++ nodeName)

/-- A node `eatCompound` is called for. -/
def isCompound (path nodeValue : String) (children : List (String × PropertyTree)) : Bool :=
  isCompoundPath path && nodeValue == "" && !children.isEmpty

/-- The answer to a node that nothing treated: an earlier one stays. -/
def unknownField (path answer : String) : String :=
  if answer = "" then "JSON Parse Error: unknown field: " ++ path else answer

mutual
def jsonParse (parseVector : List (ParseNode (String × String) D)) (path nodeName : String) :
    PropertyTree → ParseState D → Except Stop (ParseState D)
  | .node nodeValue children, s =>
    match nodePath path nodeName with
    | .error what => .error (.logicError what)
    | .ok path => do
      let (treated, s) ← treat path nodeValue parseVector s
      if isCompound path nodeValue children then
        let (root, error) := eatToplevel children
        let s ← compoundValueEnd { s with ciP := s.ciP.eaten (some root) error }
        if s.ciP.httpStatusCode = .ok then .ok s else .error (.rejected s.ciP.answer)
      else if treated then jsonParseChildren parseVector path children s
      else .error (.rejected (unknownField path s.ciP.answer))
def jsonParseChildren (parseVector : List (ParseNode (String × String) D)) (path : String) :
    List (String × PropertyTree) → ParseState D → Except Stop (ParseState D)
  | [], s => .ok s
  | (name, tree) :: children, s => do
    let s ← jsonParse parseVector path (cString name) tree s
    jsonParseChildren parseVector path children s
end

def jsonParseTree (parseVector : List (ParseNode (String × String) D)) : PropertyTree → ParseState D →
    Except Stop (ParseState D)
  | .node _ children, s => jsonParseChildren parseVector "" children s

end Json

end OrionBroker
