import OrionBroker.Register.Query
import OrionBroker.Subscription.Operations

/-!
# `registerContext` (MongoCommonRegister.cpp, mongoRegisterContext.cpp)

| here | there |
| --- | --- |
| `assocEnt`, `assocDoc`            | the documents `processAssociations` builds (:71-92) |
| `insertAssociation`               | the `insert` of one of them (:94-115) |
| `processAssociations`             | `processAssociations` (:49) |
| `jsArray`, `whereFunction`        | the generated JavaScript (:212-252) |
| `queryNoPattern`, `queryPattern`  | the two selectors (:188-205, :257-262) |
| `addTriggeredSubscriptions`       | `addTriggeredSubscriptions` (:164) |
| `processAvailabilitySubscription` | the same (MongoGlobal.cpp:1826), with `mongoUpdateCasubNewNotification` (:1770) |
| `processSubscriptions`            | `processSubscriptions` (:128) |
| `regElement`, `regDoc`            | the registration document (:374-440) |
| `processContextRegistrations`     | the loop over `contextRegistrationVector` (:392-455) |
| `processRegisterContext`          | `processRegisterContext` (:350) |

`none` in the place of an answer: the broker has died on a null cursor of `registrationsQuery`.
-/

namespace OrionBroker.Register

open Mongo

/-! ## Associations -/

def assocEnt (en : EntityId) : AssocEnt := ⟨en.id, if en.type = "" then none else some en.type⟩

def assocDoc (md : RegistrationMetadata) : AssocDoc where
  name := md.name
  srcEnt := assocEnt md.association.source
  tgtEnt := assocEnt md.association.target
  attrs := md.association.attributeAssociationList

/-- The insert; a name that exists is an exception of the server. -/
def insertAssociation (doc : AssocDoc) (r : Registry) : Except String Unit × Registry :=
  let (o, r) := r.call
  match o with
  | .dbException what => (.error what, r)
  | .otherException => (.error "Generic Exception from mongo", r)
  | .ok | .nullCursor =>
    match r.associations.insert doc with
    | none => (.error "E11000 duplicate key error", r)
    | some c => (.ok (), { r with associations := c })

/-- The loop stops at the first insert that fails. -/
def processAssociations : List RegistrationMetadata → Registry → Except String Unit × Registry
  | [], r => (.ok (), r)
  | md :: mdV, r =>
    if md.type ≠ "Association" then processAssociations mdV r
    else
      match insertAssociation (assocDoc md) r with
      | (.error err, r) => (.error err, r)
      | (.ok (), r) => processAssociations mdV r

/-! ## Availability subscriptions -/

/-- The elements between the brackets. -/
def jsItems : List String → String
  | [] => ""
  | [s] => "\"" ++ s ++ "\""
  | s :: t :: v => "\"" ++ s ++ "\" ," ++ jsItems (t :: v)

def jsArray (v : List String) : String := "[ " ++ jsItems v ++ " ]"

/-- The text before the ids, between them and the types, and after these. -/
def functionBefore : String :=
  "function()" ++
  "\x7b" ++
  "enId = "

def functionBetween : String :=
  ";" ++
  "enType = "

def functionAfter : String :=
  ";" ++
  "for (var i=0; i < this.entities.length; i++) \x7b" ++
  "if (this.entities[i].isPattern == \"true\") \x7b" ++
  "for (var j=0; j < enId.length; j++) \x7b" ++
  "if (enId[j].match(this.entities[i].id) && this.entities[i].type == enType[j]) \x7b" ++
  "return true; " ++
  "\x7d" ++
  "\x7d" ++
  "\x7d" ++
  "\x7d" ++
  "return false; " ++
  "\x7d"

def whereFunction (idJsV typeJsV : List String) : String :=
  functionBefore ++ jsArray idJsV ++ functionBetween ++ jsArray typeJsV ++ functionAfter

/-- The registered entities that are looked for. -/
def notPatterns (cr : ContextRegistration) : List EntityId := cr.entityIdVector.filter fun en => en.isPattern == "false"

def attrNames (cr : ContextRegistration) : List String :=
  cr.contextRegistrationAttributeVector.map ContextRegistrationAttribute.name

def queryNoPattern (cr : ContextRegistration) (now : Int) : Query :=
  .all [
    .field ["entities"] (.isIn ((notPatterns cr).map fun en =>
      .val (.obj [("id", .str en.id), ("type", .str en.type), ("isPattern", .str "false")]))),
    if (attrNames cr).length > 0 then
      .any [.field ["attrs"] (.isIn ((attrNames cr).map fun a => .val (.str a))), .field ["attrs"] (.size 0)]
    else .field ["attrs"] (.size 0),
    .field ["expiration"] (.gt now)]

def queryPattern (cr : ContextRegistration) (now : Int) : Query :=
  .all [
    .field ["entities", "isPattern"] (.eq (.str "true")),
    .field ["expiration"] (.gt now),
    .js (whereFunction ((notPatterns cr).map EntityId.id) ((notPatterns cr).map EntityId.type))]

def casubsSelector (cr : ContextRegistration) (now : Int) : Query :=
  .any [queryNoPattern cr now, queryPattern cr now]

/-- The fields of the document the map keeps; no throttling in these subscriptions. -/
def triggeredCasub (sub : CasubDoc) : TriggeredSubscription where
  throttling := -1
  lastNotification := -1
  format := match sub.format with
    | some f => stringToFormat (cString f)
    | none => .xml
  reference := cString sub.reference
  attrL := sub.attrs

def addCasubs (m : SubsMap) (found : List CasubDoc) : SubsMap :=
  found.foldl (fun m sub => m.insert (sub.oid, triggeredCasub sub)) m

/-- A `$err` document is skipped for want of an `_id` (:310). -/
def casubsFound (env : Env) (cr : ContextRegistration) (now : Int) (r : Registry) : List CasubDoc :=
  r.casubs.found env.engine CasubDoc.toBson (casubsSelector cr now)

def addTriggeredSubscriptions (env : Env) (tenant : String) (now : Int) (cr : ContextRegistration)
    (subs : SubsMap) (r : Registry) : Except String SubsMap × Registry :=
  let (o, r') := r.call
  match o.queryError with
  | some what => (.error (queryErrorText env (getSubscribeContextAvailabilityCollectionName env tenant)
      (casubsSelector cr now) what), r')
  | none => (.ok (addCasubs subs (casubsFound env cr now r)), r')

/-! ## Notifications -/

/-- `$set` and `$inc`; an exception is only logged. -/
def mongoUpdateCasubNewNotification (now : Int) (subId : String) (r : Registry) : Registry :=
  let (o, r) := r.call
  match o.writeError with
  | some _ => r
  | none =>
    let casubs := r.casubs.modify subId
      (fun s => { s with lastNotification := some now, count := some (s.count.getD 0 + 1) }) fun _ => rfl
    { r with casubs := casubs }

def processAvailabilitySubscription (env : Env) (regcomp : Regcomp) (tenant : String) (now : Int)
    (enV : List EntityId) (attrL : List String) (subId notifyUrl : String) (format : Format) (r : Registry) :
    Option Bool × Registry :=
  match registrationsQuery env regcomp tenant now enV attrL [] DEFAULT_PAGINATION_OFFSET_INT
      DEFAULT_PAGINATION_LIMIT_INT false r with
  | (.crashed, r) => (none, r)
  | (.failed _, r) => (some false, r)
  | (.found crrV _, r) =>
    if crrV.length > 0 then
      (some true, mongoUpdateCasubNewNotification now subId { r with sent := r.sent ++ [⟨subId, crrV, notifyUrl, format⟩] })
    else (some false, r)

def processSubscriptions (env : Env) (regcomp : Regcomp) (tenant : String) (now : Int)
    (triggerEntitiesV : List EntityId) : SubsMap → Registry → Option Bool × Registry
  | [], r => (some true, r)
  | (mapSubId, trigs) :: subs, r =>
    match processAvailabilitySubscription env regcomp tenant now triggerEntitiesV trigs.attrL mapSubId
        trigs.reference trigs.format r with
    | (none, r) => (none, r)
    | (some sent, r) =>
      match processSubscriptions env regcomp tenant now triggerEntitiesV subs r with
      | (none, r) => (none, r)
      | (some ret, r) => (some (sent && ret), r)

/-! ## The registration -/

def regEntity (en : EntityId) : RegEntity := { id := en.id, type := if en.type = "" then none else some en.type }

def regElement (cr : ContextRegistration) : RegElement where
  entities := cr.entityIdVector.map regEntity
  attrs := cr.contextRegistrationAttributeVector
  providingApplication := cr.providingApplication

def regDoc (oid : String) (expiration : Int) (servicePath : String) (crV : List ContextRegistration) : RegDoc where
  oid := oid
  expiration := expiration
  servicePath := some servicePath
  contextRegistration := crV.map regElement

/-- The loop over the elements of the request: the associations are stored and the subscriptions looked for,
one element after the other. -/
def processContextRegistrations (env : Env) (tenant : String) (now : Int) :
    List ContextRegistration → SubsMap → Registry → Except StatusCode SubsMap × Registry
  | [], subsToNotify, r => (.ok subsToNotify, r)
  | cr :: crV, subsToNotify, r =>
    match processAssociations cr.registrationMetadataVector r with
    | (.error _, r) => (.error { code := .receiverInternalError }, r)
    | (.ok (), r) =>
      match addTriggeredSubscriptions env tenant now cr subsToNotify r with
      | (.error err, r) => (.error { code := .receiverInternalError, details := err }, r)
      | (.ok subsToNotify, r) => processContextRegistrations env tenant now crV subsToNotify r

def updateErrorText (env : Env) (tenant : String) (doc : RegDoc) (what : String) : String :=
  "collection: " ++ getRegistrationsCollectionName env tenant ++ " - upsert update(): " ++ env.docText doc.toBson ++
    " - exception: " ++ what

/-- `oid` is the new id, or the one of the registration that is updated. -/
def processRegisterContext (env : Env) (regcomp : Regcomp) (tenant servicePath : String) (now : Int) (oid : String)
    (requestP : RegisterContextRequest) (r : Registry) : Option RegisterContextResponse × Registry :=
  let duration := if requestP.duration = "" then DEFAULT_DURATION else requestP.duration
  let doc := regDoc oid (now + parse8601 duration) servicePath requestP.contextRegistrationVector
  let triggerEntitiesV := requestP.contextRegistrationVector.flatMap ContextRegistration.entityIdVector
  match processContextRegistrations env tenant now requestP.contextRegistrationVector [] r with
  | (.error errorCode, r) => (some { errorCode := errorCode }, r)
  | (.ok subsToNotify, r) =>
    let (o, r) := r.call
    match o.writeError with
    | some what =>
      (some { errorCode := { code := .receiverInternalError, details := updateErrorText env tenant doc what } }, r)
    | none =>
      let r := { r with registrations := r.registrations.upsert doc }
      match processSubscriptions env regcomp tenant now triggerEntitiesV subsToNotify r with
      | (none, r) => (none, r)
      | (some _, r) => (some { duration := duration, registrationId := oid, errorCode := { code := .ok } }, r)

end OrionBroker.Register
