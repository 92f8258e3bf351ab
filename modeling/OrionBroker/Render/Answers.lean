import OrionBroker.Render.Compound

/-!
# Rendering the answers to queries and updates (src/lib/ngsi10, src/lib/ngsi)

| here | there |
| --- | --- |
| `strReplace`                   | `strReplace` (string.cpp:654), for a text of one character |
| `httpStatusCodeString`         | `httpStatusCodeString` (HttpStatusCode.cpp:33) |
| `StatusCode`                   | `StatusCode` (StatusCode.h:48); its `tag` is an argument of `render` |
| `EntityId.render`              | `EntityId::render` (EntityId.cpp:83) |
| `Metadata.render`              | `Metadata::render` (Metadata.cpp:80); its association is that of the constructors, which is empty |
| `MetadataVector.render`        | `MetadataVector::render` (MetadataVector.cpp:62) |
| `ContextAttribute.render`      | `ContextAttribute::render` (ContextAttribute.cpp:222) |
| `renderAsJsonObject`           | `ContextAttribute::renderAsJsonObject` (ContextAttribute.cpp:167) |
| `ContextAttributeVector.render` | `ContextAttributeVector::render` (ContextAttributeVector.cpp:73), for the two requests at issue |
| `ContextElement.render`        | `ContextElement::render` (ContextElement.cpp:51) |
| `ContextElementResponse.render` | `ContextElementResponse::render` (ContextElementResponse.cpp:39), and its vector |
| `UpdateContextResponse.render` | `UpdateContextResponse::render` (UpdateContextResponse.cpp:81) |
| `QueryContextResponse.render`  | `QueryContextResponse::render` (QueryContextResponse.cpp:78) |

A render function also changes the object it renders (quotation marks in the details, attributes of one name); only
the text is kept here. `attributeFormat` is the URI parameter of that name.
-/

namespace OrionBroker.Answer

/-! ## Status codes -/

/-- `snprintf(to, toLen, "%s", newString)`: the text and a NUL go to the start of the buffer. -/
def snprintf (buf : List Char) (toLen : Nat) (newString : List Char) : List Char :=
  let text := newString.take (toLen - 1) ++ ['\x00']
  text ++ buf.drop text.length

/-- The loop, with the buffer and `toIx`. -/
def strReplaceLoop (toLen : Nat) (old : Char) (newString : List Char) : List Char → List Char → Nat → List Char × Nat
  | [], buf, toIx => (buf, toIx)
  | c :: cs, buf, toIx =>
    if c = old then strReplaceLoop toLen old newString cs (snprintf buf toLen newString) (toIx + newString.length)
    else strReplaceLoop toLen old newString cs (buf.set toIx c) (toIx + 1)

/-- The C string in the buffer, which holds NULs at first. -/
def strReplace (toLen : Nat) (src : List Char) (old : Char) (newString : List Char) : List Char :=
  let (buf, toIx) := strReplaceLoop toLen old newString src (List.replicate (toLen + 1) '\x00') 0
  (buf.set toIx '\x00').takeWhile (· != '\x00')

def httpStatusCodeString : Int → String
  | 200 => "OK"
  | 302 => "Found"
  | 400 => "Bad Request"
  | 403 => "Forbidden"
  | 404 => "No context element found"
  | 405 => "Method Not Allowed"
  | 406 => "Not Acceptable"
  | 411 => "Length Required"
  | 413 => "Request Entity Too Large"
  | 415 => "Unsupported Media Type"
  | 470 => "subscriptionId does not correspond to an active subscription"
  | 471 => "parameter missing in the request"
  | 472 => "request parameter is invalid/not allowed"
  | 473 => "Generic error in metadata"
  | 480 => "Regular Expression for EntityId is not allowed by receiver"
  | 481 => "EntityType required by the receiver"
  | 482 => "Attribute List required by the receiver"
  | 500 => "Internal Server Error"
  | 501 => "Not Implemented"
  | _ => "Undefined"

/-- `SccNone` is 0. -/
structure StatusCode where
  code : Int := 0
  reasonPhrase : String := ""
  details : String := ""
deriving DecidableEq, Repr

def StatusCode.fill (code : Int) (details : String) : StatusCode := ⟨code, httpStatusCodeString code, details⟩

/-- The details with their quotation marks escaped (StatusCode.cpp:93-101). -/
def quotesReplaced (details : String) : String :=
  if '"' ∈ cStr details then String.ofList (strReplace (details.length * 2) (cStr details) '"' ['\\', '"'])
  else details

/-- What is rendered (StatusCode.cpp:93-107). -/
def StatusCode.settled (s : StatusCode) : StatusCode :=
  if s.code = 0 then { StatusCode.fill 500 "" with details := " - ZERO code set to 500" }
  else { s with details := quotesReplaced s.details }

def StatusCode.render (format : Format) (indent tag : String) (comma showTag : Bool) (s : StatusCode) : String :=
  let s := s.settled
  startTag indent tag format showTag false ++
    valueTagInt (indent ++ "  ") "code" s.code format true ++
    valueTag (indent ++ "  ") "reasonPhrase" s.reasonPhrase format (s.details != "") false false ++
    (if s.details != "" then valueTag (indent ++ "  ") "details" s.details format false false false else "") ++
    endTag indent tag format comma false true false

/-! ## Entities -/

/-- `assocTag` is the name of an entity of an association. -/
def EntityId.render (format : Format) (indent tag : String) (comma isInVector : Bool) (assocTag : String)
    (e : EntityId) : String :=
  let isPatternEscaped := String.ofList (htmlEscape (cStr e.isPattern))
  let typeEscaped := String.ofList (htmlEscape (cStr e.type))
  let idEscaped := String.ofList (htmlEscape (cStr e.id))
  if format = .xml then
    indent ++ "<" ++ tag ++ " type=\"" ++ typeEscaped ++ "\" isPattern=\"" ++ isPatternEscaped ++ "\">\n" ++
      indent ++ "  " ++ "<id>" ++ idEscaped ++ "</id>" ++ "\n" ++
      indent ++ "</" ++ tag ++ ">\n"
  else
    let isAssoc := assocTag != ""
    let indent2 := if isInVector then indent ++ "  " else indent
    (if isInVector then indent ++ (if isAssoc then "\"" ++ assocTag ++ "\" : " else "") ++ "\x7b\n" else "") ++
      indent2 ++ "\"type\" : \"" ++ typeEscaped ++ "\"," ++ "\n" ++
      indent2 ++ "\"isPattern\" : \"" ++ isPatternEscaped ++ "\"," ++ "\n" ++
      indent2 ++ "\"id\" : \"" ++ idEscaped ++ "\"" ++
      (if comma && !isInVector then ",\n"
      else "\n" ++ (if isInVector then indent ++ "\x7d" else "") ++
        (if comma then ",\n" else if isInVector then "\n" else ""))

/-! ## Metadata -/

/-- `EntityAssociation::render` (EntityAssociation.cpp:43). -/
def EntityAssociation.render (format : Format) (indent : String) (comma : Bool) (source target : EntityId) : String :=
  startTag' indent "entityAssociation" "entities" format false true false ++
    EntityId.render format (indent ++ "  ") "sourceEntityId" true true "source" source ++
    EntityId.render format (indent ++ "  ") "targetEntityId" false true "target" target ++
    endTag indent "entityAssociation" format comma false true false

/-- `Association::render` (Association.cpp:60) of an association with no attributes. -/
def Association.render (format : Format) (indent : String) (source target : EntityId) : String :=
  if format = .json then
    startTag indent "association" format false false ++
      EntityAssociation.render format (indent ++ "  ") false source target ++
      endTag indent "association" format false false true false
  else EntityAssociation.render format (indent ++ "  ") false source target

def emptyEntity : EntityId := { id := "" }

def Metadata.render (format : Format) (indent : String) (comma : Bool) (md : Metadata) : String :=
  let isAssociation := decide (md.type = "Association")
  let xValue :=
    if isAssociation then "\n" ++ Association.render format (indent ++ "  ") emptyEntity emptyEntity else md.value
  startTag' indent "contextMetadata" "contextMetadata" format false false false ++
    valueTag (indent ++ "  ") "name" md.name format true false false ++
    valueTag (indent ++ "  ") "type" md.type format true false false ++
    valueTag (indent ++ "  ") "value" xValue format false isAssociation false ++
    endTag indent "contextMetadata" format comma false true false

/-- The loops over the elements of a vector: a comma after each but the last. -/
def renderEach {α : Type} (render : Bool → α → String) : List α → String
  | [] => ""
  | x :: xs => render (!xs.isEmpty) x ++ renderEach render xs

def MetadataVector.render (format : Format) (indent tag : String) (comma : Bool) (vec : List Metadata) : String :=
  if vec.isEmpty then ""
  else
    startTag' indent tag "metadatas" format true true false ++
      renderEach (Metadata.render format (indent ++ "  ")) vec ++
      endTag indent tag format comma true true false

/-! ## Attributes -/

/-- The value, between the type and the metadata. -/
def renderValue (format : Format) (indent : String) (comma omitValue : Bool) (ca : ContextAttribute) : String :=
  match ca.compoundValueP with
  | none =>
    if omitValue = false then
      valueTag (indent ++ "  ") (if format = .xml then "contextValue" else "value") ca.value format comma false false
    else ""
  | some compoundValueP => renderCompoundValue format indent comma compoundValueP

def renderAsJsonObject (format : Format) (indent : String) (comma omitValue : Bool) (ca : ContextAttribute) : String :=
  let commaAfterContextValue := !ca.metadataVector.isEmpty
  let commaAfterType := !omitValue || commaAfterContextValue
  startTag' indent "" ca.name format false true false ++
    valueTag (indent ++ "  ") "type" ca.type format commaAfterType false false ++
    renderValue format indent commaAfterContextValue omitValue ca ++
    (if omitValue = false then MetadataVector.render format (indent ++ "  ") "metadata" false ca.metadataVector else "") ++
    endTag indent "" format comma false true false

def ContextAttribute.render (format : Format) (attributeFormat indent : String) (omitValue comma : Bool)
    (ca : ContextAttribute) : String :=
  let commaAfterContextValue := !ca.metadataVector.isEmpty
  let commaAfterType := !omitValue || commaAfterContextValue
  let commaAfterName := commaAfterType || ca.type != ""
  if attributeFormat = "object" ∧ format = .json then renderAsJsonObject format indent comma omitValue ca
  else
    startTag' indent "contextAttribute" "attribute" format false false false ++
      valueTag (indent ++ "  ") "name" ca.name format commaAfterName false false ++
      valueTag (indent ++ "  ") "type" ca.type format commaAfterType false false ++
      renderValue format indent commaAfterContextValue omitValue ca ++
      MetadataVector.render format (indent ++ "  ") "metadata" false ca.metadataVector ++
      endTag indent "contextAttribute" format comma false true false

/-- The names already used are left out (ContextAttributeVector.cpp:116-133). Erasing one moves the rest down by
one, so the attribute behind it is passed over; `addedLookup` never finds the empty name. -/
def purge (added : List String) : List ContextAttribute → List ContextAttribute
  | [] => []
  | ca :: vec =>
    if ca.name ≠ "" ∧ ca.name ∈ added then
      match vec with
      | [] => []
      | next :: vec => next :: purge added vec
    else ca :: purge (added ++ [ca.name]) vec

/-- The attributes that show. -/
def shownAttributes (format : Format) (attributeFormat : String) (vec : List ContextAttribute) :
    List ContextAttribute :=
  if attributeFormat = "object" ∧ format = .json then purge [] vec else vec

def ContextAttributeVector.render (format : Format) (attributeFormat indent : String) (comma omitValue : Bool)
    (vec : List ContextAttribute) : String :=
  if vec.isEmpty then ""
  else
    let isVector := !decide (attributeFormat = "object" ∧ format = .json)
    startTag' indent "contextAttributeList" "attributes" format isVector true false ++
      renderEach (ContextAttribute.render format attributeFormat (indent ++ "  ") omitValue)
        (shownAttributes format attributeFormat vec) ++
      endTag indent "contextAttributeList" format comma isVector true false

/-! ## Context elements -/

structure ContextElement where
  entityId : EntityId
  attributeDomainName : String := ""
  contextAttributeVector : List ContextAttribute := []
  domainMetadataVector : List Metadata := []

/-- `AttributeDomainName::render` (AttributeDomainName.cpp:115). -/
def AttributeDomainName.render (format : Format) (indent : String) (comma : Bool) (string : String) : String :=
  if string = "" then "" else valueTag indent "attributeDomainName" string format comma false false

def ContextElement.render (format : Format) (attributeFormat indent : String) (comma : Bool) (ce : ContextElement) :
    String :=
  let attributeDomainNameRendered := ce.attributeDomainName != ""
  let contextAttributeVectorRendered := !ce.contextAttributeVector.isEmpty
  let domainMetadataVectorRendered := !ce.domainMetadataVector.isEmpty
  let commaAfterContextAttributeVector := domainMetadataVectorRendered
  let commaAfterAttributeDomainName := domainMetadataVectorRendered || contextAttributeVectorRendered
  let commaAfterEntityId := commaAfterAttributeDomainName || attributeDomainNameRendered
  startTag' indent "contextElement" "contextElement" format false true false ++
    EntityId.render format (indent ++ "  ") "entityId" commaAfterEntityId false "" ce.entityId ++
    AttributeDomainName.render format (indent ++ "  ") commaAfterAttributeDomainName ce.attributeDomainName ++
    ContextAttributeVector.render format attributeFormat (indent ++ "  ") commaAfterContextAttributeVector false
      ce.contextAttributeVector ++
    MetadataVector.render format (indent ++ "  ") "registrationMetadata" false ce.domainMetadataVector ++
    endTag indent "contextElement" format comma false true false

structure ContextElementResponse where
  contextElement : ContextElement
  statusCode : StatusCode := {}

def ContextElementResponse.render (format : Format) (attributeFormat indent : String) (comma : Bool)
    (cer : ContextElementResponse) : String :=
  startTag' indent "contextElementResponse" "contextElement" format false false false ++
    cer.contextElement.render format attributeFormat (indent ++ "  ") true ++
    cer.statusCode.render format (indent ++ "  ") "statusCode" false true ++
    endTag indent "contextElementResponse" format comma false true false

def ContextElementResponseVector.render (format : Format) (attributeFormat indent : String) (comma : Bool)
    (vec : List ContextElementResponse) : String :=
  if vec.isEmpty then ""
  else
    startTag' indent "contextResponseList" "contextResponses" format true true false ++
      renderEach (ContextElementResponse.render format attributeFormat (indent ++ "  ")) vec ++
      endTag indent "contextResponseList" format comma true true false

/-! ## The answers -/

structure UpdateContextResponse where
  contextElementResponseVector : List ContextElementResponse := []
  errorCode : StatusCode := {}

def UpdateContextResponse.render (format : Format) (attributeFormat indent : String) (r : UpdateContextResponse) :
    String :=
  startTag indent "updateContextResponse" format false false ++
    (if r.errorCode.code ≠ 0 ∧ r.errorCode.code ≠ 200 then
      r.errorCode.render format (indent ++ "  ") "errorCode" false true
    else if r.contextElementResponseVector.isEmpty then
      (StatusCode.fill 404 r.errorCode.details).render format (indent ++ "  ") "errorCode" false true
    else ContextElementResponseVector.render format attributeFormat (indent ++ "  ") false
      r.contextElementResponseVector) ++
    endTag indent "updateContextResponse" format false false true false

structure QueryContextResponse where
  contextElementResponseVector : List ContextElementResponse := []
  errorCode : StatusCode := {}

def QueryContextResponse.render (format : Format) (attributeFormat indent : String) (r : QueryContextResponse) :
    String :=
  startTag indent "queryContextResponse" format false false ++
    (if r.contextElementResponseVector.isEmpty = false then
      ContextElementResponseVector.render format attributeFormat (indent ++ "  ") (r.errorCode.code != 0)
        r.contextElementResponseVector
    else "") ++
    (if r.errorCode.code ≠ 0 then r.errorCode.render format (indent ++ "  ") "errorCode" false true else "") ++
    (if r.errorCode.code = 0 ∧ r.contextElementResponseVector.isEmpty = true then
      (StatusCode.fill 500 "Both the error-code structure and the response vector were empty").render format
        (indent ++ "  ") "errorCode" false true
    else "") ++
    endTag indent "queryContextResponse" format false false true false

end OrionBroker.Answer
