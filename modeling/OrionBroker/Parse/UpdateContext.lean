import OrionBroker.Parse.Json
import OrionBroker.Parse.Xml

/-!
# The parse vectors of an updateContextRequest

`jsonUpcrParseVector` is jsonUpdateContextRequest.cpp:324, `upcrParseVector` xmlUpdateContextRequest.cpp:352.
What their treat functions fill is seen through the pointers of `UpdateContextData` (ParseData.h): those
that are set so far, besides `attributeP`. The texts they store are left out.
-/

namespace OrionBroker

inductive UpdateContextPointer where
  | ceP
  | entityIdP
  | contextMetadataP
  | domainMetadataP
deriving DecidableEq, Repr

open UpdateContextPointer

variable {S : Type}

/-- A treat function that follows `read` and then sets `written`. -/
def fillPointers (read written : List UpdateContextPointer) (_ : S) (set : List UpdateContextPointer) :
    Option (List UpdateContextPointer) :=
  if read.all (· ∈ set) then some (written ++ set) else none

def nullTreat : S → List UpdateContextPointer → Option (List UpdateContextPointer) := fillPointers [] []

def jsonUpcrParseVector : List (ParseNode (String × String) (List UpdateContextPointer)) :=
  [{ path := "/contextElements", fill := nullTreat },
   { path := "/contextElements/contextElement", fill := fillPointers [] [ceP] },
   { path := "/contextElements/contextElement/type", fill := fillPointers [ceP] [] },
   { path := "/contextElements/contextElement/isPattern", fill := fillPointers [ceP] [] },
   { path := "/contextElements/contextElement/id", fill := fillPointers [ceP] [] },
   { path := "/contextElements/contextElement/attributeDomainName", fill := fillPointers [ceP] [] },
   { path := "/contextElements/contextElement/attributes", fill := nullTreat },
   { path := "/contextElements/contextElement/attributes/attribute", use := .creates, fill := fillPointers [ceP] [] },
   { path := "/contextElements/contextElement/attributes/attribute/name", use := .follows, fill := nullTreat },
   { path := "/contextElements/contextElement/attributes/attribute/type", use := .follows, fill := nullTreat },
   { path := "/contextElements/contextElement/attributes/attribute/value", use := .opens, fill := nullTreat },
   { path := "/contextElements/contextElement/attributes/attribute/metadatas", fill := nullTreat },
   { path := "/contextElements/contextElement/attributes/attribute/metadatas/metadata", use := .follows,
     fill := fillPointers [] [contextMetadataP] },
   { path := "/contextElements/contextElement/attributes/attribute/metadatas/metadata/name",
     fill := fillPointers [contextMetadataP] [] },
   { path := "/contextElements/contextElement/attributes/attribute/metadatas/metadata/type",
     fill := fillPointers [contextMetadataP] [] },
   { path := "/contextElements/contextElement/attributes/attribute/metadatas/metadata/value",
     fill := fillPointers [contextMetadataP] [] },
   { path := "/contextElements/contextElement/domainMetadatas", fill := nullTreat },
   { path := "/contextElements/contextElement/domainMetadatas/domainMetadata",
     fill := fillPointers [ceP] [domainMetadataP] },
   { path := "/contextElements/contextElement/domainMetadatas/domainMetadata/name",
     fill := fillPointers [domainMetadataP] [] },
   { path := "/contextElements/contextElement/domainMetadatas/domainMetadata/type",
     fill := fillPointers [domainMetadataP] [] },
   { path := "/contextElements/contextElement/domainMetadatas/domainMetadata/value",
     fill := fillPointers [domainMetadataP] [] },
   { path := "/updateAction", fill := nullTreat }]

/-- `entityId` follows its pointer for an XML attribute `type` or `isPattern`, and returns at any other
(`entityIdParse`, xmlParse.cpp:367). -/
def fillEntityId (node : XmlTree) : List UpdateContextPointer → Option (List UpdateContextPointer) :=
  match node.attributes with
  | [] => nullTreat node
  | (name, _) :: _ =>
    if cString name = "type" ∨ cString name = "isPattern" then fillPointers [entityIdP] [] node else nullTreat node

def contextElementPath : String := "/updateContextRequest/contextElementList/contextElement"

def contextAttributePath : String := contextElementPath ++ "/contextAttributeList/contextAttribute"

/-- `entityIdId` checks its pointer before it follows it. -/
def upcrParseVector : List (ParseNode XmlTree (List UpdateContextPointer)) :=
  [{ path := "/updateContextRequest", fill := nullTreat },
   { path := "/updateContextRequest/contextElementList", fill := nullTreat },
   { path := contextElementPath, fill := fillPointers [] [ceP, entityIdP] },
   { path := contextElementPath ++ "/entityId", fill := fillEntityId },
   { path := contextElementPath ++ "/entityId/id", fill := nullTreat },
   { path := contextElementPath ++ "/contextAttributeList", fill := nullTreat },
   { path := contextAttributePath, use := .creates, fill := fillPointers [ceP] [] },
   { path := contextAttributePath ++ "/name", use := .follows, fill := nullTreat },
   { path := contextAttributePath ++ "/type", use := .follows, fill := nullTreat },
   { path := contextAttributePath ++ "/contextValue", use := .opens, fill := nullTreat },
   { path := contextAttributePath ++ "/metadata", fill := nullTreat },
   { path := contextAttributePath ++ "/metadata/contextMetadata", use := .follows,
     fill := fillPointers [] [contextMetadataP] },
   { path := contextAttributePath ++ "/metadata/contextMetadata/name", fill := fillPointers [contextMetadataP] [] },
   { path := contextAttributePath ++ "/metadata/contextMetadata/type", fill := fillPointers [contextMetadataP] [] },
   { path := contextAttributePath ++ "/metadata/contextMetadata/value", fill := fillPointers [contextMetadataP] [] },
   { path := contextElementPath ++ "/domainMetadata", fill := nullTreat },
   { path := contextElementPath ++ "/domainMetadata/contextMetadata", fill := fillPointers [ceP] [domainMetadataP] },
   { path := contextElementPath ++ "/domainMetadata/contextMetadata/name", fill := fillPointers [domainMetadataP] [] },
   { path := contextElementPath ++ "/domainMetadata/contextMetadata/type", fill := fillPointers [domainMetadataP] [] },
   { path := contextElementPath ++ "/domainMetadata/contextMetadata/value",
     fill := fillPointers [domainMetadataP] [] },
   { path := "/updateContextRequest/updateAction", fill := nullTreat }]

end OrionBroker
