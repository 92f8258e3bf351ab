import OrionBroker.Update.Attributes
import OrionBroker.Update.Notify

/-!
# `processContextElement` (MongoCommonUpdate.cpp:1080-1983, mongoUpdateContext.cpp:47)

| here | there |
| --- | --- |
| `Work`                          | the working copies `attrs`, `locAttr`, `coordLat`, `coordLong`, `subsToNotify`, `entityModified` |
| `processUpdate`, `processAppend`, `processDelete` | the three branches of the attribute loop (:1184, :1220, :1277) |
| `processContextAttribute`       | one iteration of the loop of `processContextAttributeVector` |
| `processContextAttributeVector` | the same (:1153) |
| `readSelector`, `writeSelector` | the two queries on the entities (:1592-1627, :1801-1834) |
| `createEntity`, `removeEntity`  | the same (:1350, :1476) |
| `processDocument`               | one iteration of the loop over the cursor (:1681-1879) |
| `createdResponse`               | the creation branch (:1938-1981) |
| `processContextElement`         | the same (:1548) |
| `mongoUpdateContext`            | the same (mongoUpdateContext.cpp:47) |

The cursor is read as the documents found when the query was made. A C++ exception that no `catch`
takes (`ensureIndex` in `createEntity`) ends the request without an answer: `none`.
-/

namespace OrionBroker

open Mongo

/-! ## The attribute loop -/

structure Work where
  attrs : List AttrDoc
  loc : Loc := {}
  subs : SubsMap := []
  entityModified : Bool := false

def ATTRIBUTE_NOT_FOUND : Nat := 1

/-- An early return of the loop: the status it fills in, and `why`. -/
structure Failure where
  statusCode : StatusCode
  why : Nat := 0
deriving Repr

/-- :1117. -/
def setResponseMetadata (caReq : ContextAttribute) : List Metadata :=
  (if caReq.getId ≠ "" then [⟨NGSI_MD_ID, "string", caReq.getId⟩] else []) ++
  (if caReq.getLocation ≠ "" then [⟨NGSI_MD_LOCATION, "string", caReq.getLocation⟩] else []) ++
  caReq.metadataVector.filter fun md => !isNotCustomMetadata md.name

def responseAttribute (ca : ContextAttribute) : ContextAttribute where
  name := ca.name
  type := ca.type
  metadataVector := setResponseMetadata ca

inductive UpdateAction where
  | update
  | append
  | delete
  | unknown
deriving DecidableEq, Repr

def updateAction (action : String) : UpdateAction :=
  if strcasecmp action "update" then .update
  else if strcasecmp action "append" then .append
  else if strcasecmp action "delete" then .delete
  else .unknown

def attrFailure (action : String) (eP : EntityId) (ca : ContextAttribute) (text : String) (why : Nat) :
    Failure where
  statusCode := ⟨.invalidParameter,
    "action: " ++ action ++ " - entity: [" ++ eP.toString false ++ "]" ++ " - offending attribute: " ++
    ca.toString ++ text⟩
  why := why

/-- The UPDATE branch; the flag is `actualUpdate`. -/
def processUpdate (env : Env) (now : Int) (eP : EntityId) (ca : ContextAttribute) (work : Work) :
    Except Failure (Work × Bool) :=
  let (newAttrs, updated, actualUpdate) := updateAttribute now work.attrs ca
  if !updated then .error (attrFailure "UPDATE" eP ca "" ATTRIBUTE_NOT_FOUND)
  else
    let work := { work with attrs := newAttrs, entityModified := actualUpdate || work.entityModified }
    if ca.getLocation ≠ "" ∧ ca.name ≠ work.loc.locAttr then
      .error (attrFailure "UPDATE" eP ca
        " - location nature of an attribute has to be defined at creation time, with APPEND" 0)
    else if work.loc.locAttr = ca.name then
      match string2coords env.atof ca.value work.loc.coordLat work.loc.coordLong with
      | (true, lat, long) =>
        .ok ({ work with loc := { work.loc with coordLat := lat, coordLong := long } }, actualUpdate)
      | (false, _, _) =>
        .error (attrFailure "UPDATE" eP ca (" - error parsing location attribute, value: <" ++ ca.value ++ ">") 0)
    else .ok (work, actualUpdate)

/-- The APPEND branch; `actualUpdate` stays true. -/
def processAppend (env : Env) (now : Int) (eP : EntityId) (ca : ContextAttribute) (work : Work) :
    Except Failure (Work × Bool) :=
  if legalIdUsage work.attrs ca then
    let (newAttrs, modified) := appendAttribute now work.attrs ca
    let work := { work with attrs := newAttrs, entityModified := modified || work.entityModified }
    if ca.getLocation ≠ "" then
      if work.loc.locAttr ≠ "" ∧ ca.name ≠ work.loc.locAttr then
        .error (attrFailure "APPEND" eP ca
          (" - attempt to define a location attribute [" ++ ca.name ++
            "] when another one has been previously defined [" ++ work.loc.locAttr ++ "]") 0)
      else if ca.getLocation ≠ LOCATION_WGS84 ∧ ca.getLocation ≠ LOCATION_WGS84_LEGACY then
        .error (attrFailure "APPEND" eP ca
          (" - only WGS84 is supported for location, found: [" ++ ca.getLocation ++ "]") 0)
      else
        match string2coords env.atof ca.value work.loc.coordLat work.loc.coordLong with
        | (true, lat, long) => .ok ({ work with loc := ⟨ca.name, lat, long⟩ }, true)
        | (false, _, _) =>
          .error (attrFailure "APPEND" eP ca
            (" - error parsing location attribute, value: [" ++ ca.value ++ "]") 0)
    else .ok (work, true)
  else .error (attrFailure "APPEND" eP ca " - attribute can not be appended" 0)

/-- The DELETE branch. -/
def processDelete (eP : EntityId) (ca : ContextAttribute) (work : Work) : Except Failure (Work × Bool) :=
  let (newAttrs, deleted) := deleteAttribute work.attrs ca
  if deleted then
    let work := { work with attrs := newAttrs, entityModified := true }
    if ca.getLocation ≠ "" then
      .error (attrFailure "DELETE" eP ca
        " - location attribute has to be defined at creation time, with APPEND" 0)
    else if work.loc.locAttr = ca.name then .ok ({ work with loc := { work.loc with locAttr := "" } }, true)
    else .ok (work, true)
  else .error (attrFailure "DELETE" eP ca " - attribute not found" 0)

def processAction (env : Env) (ctx : Ctx) (eP : EntityId) (ca : ContextAttribute) (work : Work) :
    Except Failure (Work × Bool) :=
  match updateAction ctx.action with
  | .update => processUpdate env ctx.now eP ca work
  | .append => processAppend env ctx.now eP ca work
  | .delete => processDelete eP ca work
  | .unknown => .error ⟨⟨.invalidParameter, "unknown actionType: '" ++ ctx.action ++ "'"⟩, 0⟩

def processContextAttribute (env : Env) (ctx : Ctx) (eP : EntityId) (ca : ContextAttribute) (work : Work)
    (w : World) : Except Failure Work × World :=
  match processAction env ctx eP ca work with
  | .error f => (.error f, w)
  | .ok (work, actualUpdate) =>
    if actualUpdate then
      match addTriggeredSubscriptions env ctx eP.id eP.type ca.name work.subs w with
      | (.error err, w) => (.error ⟨⟨.receiverInternalError, err⟩, 0⟩, w)
      | (.ok subs, w) => (.ok { work with subs := subs }, w)
    else (.ok work, w)

/-- The attributes put in the response are those looked at, the failing one included. -/
structure VectorResult where
  result : Except Failure Work
  response : List ContextAttribute
  world : World

def processContextAttributeVector (env : Env) (ctx : Ctx) (eP : EntityId) :
    List ContextAttribute → Work → World → VectorResult
  | [], work, w => ⟨.ok work, [], w⟩
  | ca :: caV, work, w =>
    match processContextAttribute env ctx eP ca work w with
    | (.error f, w) => ⟨.error f, [responseAttribute ca], w⟩
    | (.ok work, w) =>
      let r := processContextAttributeVector env ctx eP caV work w
      { r with response := responseAttribute ca :: r.response }

/-! ## The selectors on the entities -/

/-- The regex of the request path: the path itself or below it (:1612). -/
def requestPathRegex (path : String) : String :=
  let p := escapedPath path
  String.ofList ('^' :: (p ++ ('$' :: '|' :: '^' :: (p ++ "\\/.*".toList))))

def readSelector (ctx : Ctx) (en : EntityId) : Query :=
  .all (.field ["_id", "id"] (.eq (.str en.id)) ::
    ((if en.type ≠ "" then [.field ["_id", "type"] (.eq (.str en.type))] else []) ++
    [match ctx.servicePathV with
      | [] => .field ["_id", "servicePath"] (.exists false)
      | path :: _ => .field ["_id", "servicePath"] (.regex (requestPathRegex path))] ++
    (if ctx.notExistType then [.field ["_id", "type"] (.exists false)] else [])))

/-- The update of the document found: its own path is used as the regex. -/
def writeSelector (ctx : Ctx) (key : EntityKey) : Query :=
  .all [
    .field ["_id", "id"] (.eq (.str (cString key.id))),
    if strField key.type = "" then .field ["_id", "type"] (.exists false)
    else .field ["_id", "type"] (.eq (.str (strField key.type))),
    match ctx.servicePathV with
      | [] => .field ["_id", "servicePath"] (.exists false)
      | _ :: _ => .field ["_id", "servicePath"]
          (.regex (String.ofList (escapedPath (strField key.servicePath))))]

/-- :1491-1502. -/
def removeSelector (key : EntityKey) : Query :=
  .all [
    .field ["_id", "id"] (.eq (.str (cString key.id))),
    if strField key.type = "" then .field ["_id", "type"] (.exists false)
    else .field ["_id", "type"] (.eq (.str (strField key.type))),
    if strField key.servicePath = "" then .field ["_id", "servicePath"] (.exists false)
    else .field ["_id", "servicePath"] (.eq (.str (strField key.servicePath)))]

/-- A selector as a predicate on entity documents. -/
def Env.selects (env : Env) (q : Query) (d : EntityDoc) : Bool := q.matches env.engine d.toBson

/-! ## Creation and removal -/

/-- The attribute as `createEntity` stores it (:1381-1409). -/
def createdAttr (now : Int) (ca : ContextAttribute) : AttrDoc where
  name := some ca.name
  type := some ca.type
  creDate := some now
  modDate := some now
  value := valueBson ca
  id := if ca.getId = "" then none else some ca.getId
  md := contextAttributeCustomMetadataToBson ca

/-- `_id` (:1411-1424). -/
def createdKey (ctx : Ctx) (en : EntityId) : EntityKey where
  id := en.id
  type := if en.type = "" then none else some en.type
  servicePath := ctx.servicePathV.head?

/-- The location field, present when there is a location attribute. -/
def locField (loc : Loc) : Option LocDoc :=
  if loc.locAttr ≠ "" then some ⟨loc.locAttr, loc.coordLong, loc.coordLat⟩ else none

def createdDoc (ctx : Ctx) (en : EntityId) (attrsV : List ContextAttribute) (loc : Loc) : EntityDoc where
  key := createdKey ctx en
  attrs := attrsV.map (createdAttr ctx.now)
  creDate := some ctx.now
  modDate := some ctx.now
  location := locField loc

inductive Creation where
  | created
  | failed (errDetail : String)
  | escaped
deriving DecidableEq, Repr

def insertErrorText (env : Env) (tenant : String) (doc : EntityDoc) (what : String) : String :=
  "Database Error: collection: " ++ getEntitiesCollectionName env tenant ++
  " - insert(): " ++ env.docText doc.toBson ++ " - exception: " ++ what

/-- `ensureIndex`, outside any `try` (MongoGlobal.cpp:456): `false` is an exception. -/
def ensureLocationIndex (env : Env) (w : World) : Bool × World :=
  if env.mongoLocationCapable then
    let (o, w) := w.call
    (o.writeError.isNone, w)
  else (true, w)

/-- The insert; a key that exists is an exception of the server. -/
def insertEntity (env : Env) (ctx : Ctx) (doc : EntityDoc) (w : World) : Creation × World :=
  let (o, w) := w.call
  match o.writeError with
  | some what => (.failed (insertErrorText env ctx.tenant doc what), w)
  | none =>
    match w.entities.insert doc with
    | none => (.failed (insertErrorText env ctx.tenant doc "E11000 duplicate key error"), w)
    | some entities => (.created, { w with entities := entities }.emit (.entityInsert doc.key))

def createEntity (env : Env) (ctx : Ctx) (en : EntityId) (attrsV : List ContextAttribute) (w : World) :
    Creation × World :=
  match ensureLocationIndex env w with
  | (false, w) => (.escaped, w)
  | (true, w) =>
    if !legalIdUsageVector attrsV then
      (.failed ("Attributes with same name with ID and not ID at the same time in the same entity are forbidden: entity: [" ++
        en.toString false ++ "]"), w)
    else
      match processLocation env.atof attrsV with
      | .error errDetail => (.failed errDetail, w)
      | .ok loc => insertEntity env ctx (createdDoc ctx en attrsV loc) w

/-- The status of the response, and the world. -/
def removeEntity (env : Env) (ctx : Ctx) (key : EntityKey) (w : World) : StatusCode × World :=
  let (o, w) := w.call
  match o.writeError with
  | some what =>
    (⟨.receiverInternalError, "collection: " ++ getEntitiesCollectionName env ctx.tenant ++
      " - remove() query: " ++ env.queryText (removeSelector key) ++ " - exception: " ++ what⟩, w)
  | none =>
    (⟨.ok, ""⟩, { w with entities := w.entities.remove (env.selects (removeSelector key)) }.emit (.entityRemove key))

/-! ## One document of the cursor -/

/-- The working copies at the start: the location of the document, if it has one. -/
def startWork (r : EntityDoc) : Work where
  attrs := r.attrs
  loc := match r.location with
    | some l => ⟨cString l.attrName, l.coordLat, l.coordLong⟩
    | none => {}

/-- `$set` of `attrs`, `modDate` and `location`, or `$unset` of `location`. -/
def applyWork (now : Int) (work : Work) (d : EntityDoc) : EntityDoc :=
  { d with attrs := work.attrs, modDate := some now, location := locField work.loc }

def updateErrorText (env : Env) (ctx : Ctx) (key : EntityKey) (doc : EntityDoc) (what : String) : String :=
  "collection: " ++ getEntitiesCollectionName env ctx.tenant ++
  " - update() query: " ++ env.queryText (writeSelector ctx key) ++
  " - update() doc: " ++ env.docText doc.toBson ++ " - exception: " ++ what

/-- The `update()` for the document with `_id` `key`: the failure text, or the world after it. -/
def updateEntity (env : Env) (ctx : Ctx) (key : EntityKey) (work : Work) (w : World) :
    Option String × World :=
  let (o, w) := w.call
  match o.writeError with
  | some what => (some (updateErrorText env ctx key (applyWork ctx.now work ⟨key, [], none, none, none⟩) what), w)
  | none =>
    let (pick, w) := w.pick
    (none, { w with
      entities := w.entities.updateOne (env.selects (writeSelector ctx key)) pick (applyWork ctx.now work)
        fun _ => rfl }.emit (.entityUpdate key))

/-- The entity of the response: id and type of the document. -/
def documentEntity (key : EntityKey) : EntityId :=
  { id := cString key.id, type := strField key.type, isPattern := "false" }

/-- The response, whether the document counts in `docs`, and the world. -/
def processDocument (env : Env) (ctx : Ctx) (ce : ContextElement) (r : EntityDoc) (w : World) :
    ContextElementResponse × Bool × World :=
  let eP := documentEntity r.key
  if updateAction ctx.action = .delete ∧ ce.contextAttributeVector.length = 0 then
    let (status, w) := removeEntity env ctx r.key w
    ({ entityId := eP, statusCode := status }, true, w)
  else
    let v := processContextAttributeVector env ctx eP ce.contextAttributeVector (startWork r) w
    let cer (status : StatusCode) : ContextElementResponse :=
      { entityId := eP, contextAttributeVector := v.response, statusCode := status }
    match v.result with
    | .error f =>
      (cer f.statusCode, f.why != ATTRIBUTE_NOT_FOUND || ctx.caller != "postUpdateContext", v.world)
    | .ok work =>
      if !work.entityModified then (cer ⟨.ok, ""⟩, true, v.world)
      else
        match updateEntity env ctx r.key work v.world with
        | (some err, w) => (cer ⟨.receiverInternalError, err⟩, true, w)
        | (none, w) =>
          let (_, w) := processSubscriptions env ctx ce.entityId work.subs w
          (cer ⟨.ok, ""⟩, true, w)

/-- The loop over the cursor: the responses, `docs`, and the world. -/
def processDocuments (env : Env) (ctx : Ctx) (ce : ContextElement) :
    List EntityDoc → World → List ContextElementResponse × Nat × World
  | [], w => ([], 0, w)
  | r :: rs, w =>
    let (cer, counted, w) := processDocument env ctx ce r w
    let (cers, docs, w) := processDocuments env ctx ce rs w
    (cer :: cers, (if counted then docs + 1 else docs), w)

theorem processDocuments_cons_world (env : Env) (ctx : Ctx) (ce : ContextElement) (r : EntityDoc)
    (rs : List EntityDoc) (w : World) : (processDocuments env ctx ce (r :: rs) w).2.2 =
      (processDocuments env ctx ce rs (processDocument env ctx ce r w).2.2).2.2 := by
  simp only [processDocuments]

/-! ## The element -/

/-- :1083. -/
def buildGeneralErrorResponse (ce : ContextElement) (caV : List ContextAttribute) (code : HttpStatusCode)
    (details : String) : ContextElementResponse :=
  { entityId := ce.entityId, contextAttributeVector := caV, statusCode := ⟨code, details⟩ }

/-- The lookups of the created entity's subscriptions, one per attribute (:1959-1974). -/
def createdTriggers (env : Env) (ctx : Ctx) (en : EntityId) :
    List ContextAttribute → SubsMap → World → Except String SubsMap × World
  | [], subs, w => (.ok subs, w)
  | ca :: caV, subs, w =>
    match addTriggeredSubscriptions env ctx en.id en.type ca.name subs w with
    | (.error err, w) => (.error err, w)
    | (.ok subs, w) => createdTriggers env ctx en caV subs w

/-- An APPEND that found nothing creates the entity. -/
def createdResponse (env : Env) (ctx : Ctx) (ce : ContextElement) (w : World) :
    Option ContextElementResponse × World :=
  let en := ce.entityId
  let cer (status : StatusCode) : ContextElementResponse :=
    { entityId := { id := en.id, type := en.type, isPattern := "false" },
      contextAttributeVector := ce.contextAttributeVector.map responseAttribute, statusCode := status }
  match createEntity env ctx en ce.contextAttributeVector w with
  | (.escaped, w) => (none, w)
  | (.failed errDetail, w) => (some (cer ⟨.invalidParameter, errDetail⟩), w)
  | (.created, w) =>
    match createdTriggers env ctx en ce.contextAttributeVector [] w with
    | (.error err, w) => (some (cer ⟨.receiverInternalError, err⟩), w)
    | (.ok subs, w) =>
      let (_, w) := processSubscriptions env ctx en subs w
      (some (cer ⟨.ok, ""⟩), w)

/-- UPDATE or DELETE of something that does not exist: a context provider, or "not found"
(:1895-1936). -/
def notFoundResponse (env : Env) (ctx : Ctx) (ce : ContextElement) : ContextElementResponse :=
  match env.registrationsQuery ce.entityId (ce.contextAttributeVector.map ContextAttribute.name) ctx.servicePathV with
  | .ok (prApp :: _) => buildGeneralErrorResponse ce ce.contextAttributeVector .found prApp
  | .ok [] => buildGeneralErrorResponse ce [] .contextElementNotFound ce.entityId.id
  | .error _ => buildGeneralErrorResponse ce [] .contextElementNotFound ce.entityId.id

/-- The first attribute without a value, which UPDATE and APPEND do not take (:1575-1589). -/
def emptyAttribute (ctx : Ctx) (ce : ContextElement) : Option ContextAttribute :=
  if updateAction ctx.action = .update ∨ updateAction ctx.action = .append then
    ce.contextAttributeVector.find? fun ca => ca.value == "" && ca.compoundValueP.isNone
  else none

/-- The documents the element is about. -/
def foundDocuments (env : Env) (ctx : Ctx) (ce : ContextElement) (w : World) : List EntityDoc :=
  w.entities.find (env.selects (readSelector ctx ce.entityId))

def processContextElement (env : Env) (ctx : Ctx) (ce : ContextElement) (w : World) :
    Option (List ContextElementResponse) × World :=
  if isTrue ce.entityId.isPattern then
    (some [buildGeneralErrorResponse ce [] .notImplemented ""], w)
  else
    match emptyAttribute ctx ce with
    | some ca =>
      (some [buildGeneralErrorResponse ce [ca] .invalidParameter
        ("action: " ++ ctx.action ++ " - entity: [" ++ ce.entityId.toString true ++ "]" ++
          " - offending attribute: " ++ ca.toString ++ " - empty attribute not allowed in APPEND or UPDATE")], w)
    | none =>
      let docs := foundDocuments env ctx ce w
      let (o, w) := w.call
      match o.queryError with
      | some what =>
        (some [buildGeneralErrorResponse ce [] .receiverInternalError
          (queryErrorText env (getEntitiesCollectionName env ctx.tenant) (readSelector ctx ce.entityId) what)], w)
      | none =>
        let (cers, n, w) := processDocuments env ctx ce docs w
        if n = 0 then
          if updateAction ctx.action ≠ .append then (some (cers ++ [notFoundResponse env ctx ce]), w)
          else
            match createdResponse env ctx ce w with
            | (none, w) => (none, w)
            | (some cer, w) => (some (cers ++ [cer]), w)
        else (some cers, w)

/-- Every element of the request, in order; `none` when an exception escapes. -/
def processContextElements (env : Env) (ctx : Ctx) : List ContextElement → World →
    Option (List ContextElementResponse) × World
  | [], w => (some [], w)
  | ce :: ces, w =>
    match processContextElement env ctx ce w with
    | (none, w) => (none, w)
    | (some cers, w) =>
      match processContextElements env ctx ces w with
      | (none, w) => (none, w)
      | (some rest, w) => (some (cers ++ rest), w)

/-- The error code of the response, the element responses, and the world. -/
def mongoUpdateContext (env : Env) (ctx : Ctx) (contextElementVector : List ContextElement) (w : World) :
    Option (Option StatusCode × List ContextElementResponse) × World :=
  if ctx.servicePathV.length > 1 then
    (some (some ⟨.badRequest, "service path length greater than one in update"⟩, []), w)
  else
    match processContextElements env ctx contextElementVector w with
    | (none, w) => (none, w)
    | (some cers, w) => (some (none, cers), w)

end OrionBroker
