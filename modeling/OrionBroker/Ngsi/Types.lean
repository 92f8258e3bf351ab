/-!
# NGSI requests and responses (src/lib/ngsi, src/lib/ngsi10)

| here | there |
| --- | --- |
| `Metadata`               | `Metadata` (Metadata.h:53); its `association` is only used by registrations |
| `CompoundValueNode`      | `orion::CompoundValueNode` (CompoundValueNode.h:77), the tree fields only |
| `ContextAttribute`       | `ContextAttribute` (ContextAttribute.h:42) |
| `EntityId`               | `EntityId` (EntityId.h) |
| `HttpStatusCode`         | `HttpStatusCode` (HttpStatusCode.h:35), the codes the mongo backend answers with |
| `StatusCode`             | `StatusCode` (StatusCode.h:51); the reason phrase is a function of the code |
| `ContextElement`         | `ContextElement` (ContextElement.h:42) |
| `ContextElementResponse` | `ContextElementResponse` |
| `NotifyCondition`        | `NotifyCondition` (NotifyCondition.h), less its restriction, which nothing reads |
| `SubscribeContextRequest`          | the same (SubscribeContextRequest.h), less its restriction |
| `UpdateContextSubscriptionRequest` | the same (UpdateContextSubscriptionRequest.h), less its restriction |
| `SubscriptionResponse`   | `SubscribeContextResponse` and `UpdateContextSubscriptionResponse` |
-/

namespace OrionBroker

/-- Format.h:36. -/
inductive Format where
  | xml
  | json
  | text
  | html
  | noformat
deriving DecidableEq, Repr

structure Metadata where
  name : String
  type : String
  value : String
deriving DecidableEq, Repr

inductive NodeType where
  | unknown
  | string
  | object
  | vector
deriving DecidableEq, Repr

inductive CompoundValueNode where
  | mk (type : NodeType) (name value : String) (childV : List CompoundValueNode)
deriving Repr

def CompoundValueNode.type : CompoundValueNode → NodeType
  | .mk type _ _ _ => type

def CompoundValueNode.name : CompoundValueNode → String
  | .mk _ name _ _ => name

structure ContextAttribute where
  name : String
  type : String := ""
  value : String := ""
  metadataVector : List Metadata := []
  compoundValueP : Option CompoundValueNode := none
deriving Repr

structure EntityId where
  id : String
  type : String := ""
  isPattern : String := ""
  servicePath : String := ""
deriving DecidableEq, Repr

inductive HttpStatusCode where
  | none
  | ok
  | found
  | badRequest
  | contextElementNotFound
  | invalidParameter
  | receiverInternalError
  | notImplemented
deriving DecidableEq, Repr

structure StatusCode where
  code : HttpStatusCode := .none
  details : String := ""
deriving DecidableEq, Repr

structure ContextElement where
  entityId : EntityId
  contextAttributeVector : List ContextAttribute := []
deriving Repr

structure ContextElementResponse where
  entityId : EntityId
  contextAttributeVector : List ContextAttribute := []
  statusCode : StatusCode := {}
deriving Repr

/-! ## Subscription requests

Durations and throttlings are kept as the texts the client sent; `""` stands for an absent one. -/

structure NotifyCondition where
  type : String
  condValueList : List String := []
deriving DecidableEq, Repr

structure SubscribeContextRequest where
  entityIdVector : List EntityId
  attributeList : List String := []
  reference : String := ""
  duration : String := ""
  notifyConditionVector : List NotifyCondition := []
  throttling : String := ""
deriving DecidableEq, Repr

structure UpdateContextSubscriptionRequest where
  subscriptionId : String
  duration : String := ""
  notifyConditionVector : List NotifyCondition := []
  throttling : String := ""
deriving DecidableEq, Repr

structure SubscribeResponse where
  subscriptionId : String := ""
  duration : String := ""
  throttling : String := ""
deriving DecidableEq, Repr

/-- Either part is used: an error code other than `none` makes it a `subscribeError`. -/
structure SubscriptionResponse where
  subscribeResponse : SubscribeResponse := {}
  subscribeError : StatusCode := {}
deriving DecidableEq, Repr

/-! ## Metadata with a meaning for the broker (Metadata.h:36-39) -/

def NGSI_MD_ID : String := "ID"
def NGSI_MD_LOCATION : String := "location"
def NGSI_MD_CREDATE : String := "creDate"
def NGSI_MD_MODDATE : String := "modDate"

/-- The value of the first metadata item of the given name, `""` when there is none: the loop of
`getId` and `getLocation` (ContextAttribute.cpp:134, :153). -/
def metadataValue (name : String) : List Metadata → String
  | [] => ""
  | md :: mds => if md.name = name then md.value else metadataValue name mds

def ContextAttribute.getId (ca : ContextAttribute) : String := metadataValue NGSI_MD_ID ca.metadataVector

def ContextAttribute.getLocation (ca : ContextAttribute) : String :=
  metadataValue NGSI_MD_LOCATION ca.metadataVector

/-- ContextAttribute.cpp:364. -/
def ContextAttribute.toString (ca : ContextAttribute) : String := ca.name

/-- EntityId.cpp:224, with its default delimiter. -/
def EntityId.toString (e : EntityId) (useIsPattern : Bool) : String :=
  let s := e.id ++ ", " ++ e.type
  if useIsPattern then s ++ ", " ++ e.isPattern else s

/-- globals.cpp:127. -/
def isTrue (s : String) : Bool := s == "true" || s == "1"

end OrionBroker
