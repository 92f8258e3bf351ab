import OrionBroker.Store.Documents
import OrionBroker.Common.Strings

/-!
# The state the broker works on

A `World` is what lies outside one request: the two collections, the interval threads of the notifier,
the outcomes of the database calls still to come, and what has been written and sent so far.

* Every database call takes the next `Outcome` (none left: success). A call that fails has no effect.
* Every `update` takes the next `pick`, the position of the document it modifies among the matching
  ones.
* `trace` records the writes of the entities collection that took effect and the notifications sent, in
  order.

`Env` is the installation: the database engine, `atof`, the driver's rendering of selectors and
documents in error texts, the configuration, and the lookup of context providers in the registrations
(MongoGlobal.cpp:1381), which answers the providing applications.
-/

namespace OrionBroker

open Mongo

/-- Format.cpp:39. -/
def formatToString : Format → String
  | .xml => "XML"
  | .json => "JSON"
  | .text => "TEXT"
  | .html => "HTML"
  | .noformat => "NOFORMAT"

/-- Format.cpp:59. -/
def stringToFormat (s : String) : Format :=
  if s = "XML" then .xml else if s = "JSON" then .json else .noformat

/-- How a database call ends. -/
inductive Outcome where
  | ok
  | dbException (what : String)
  | otherException
  | nullCursor
deriving DecidableEq, Repr

/-- The text a failed query reports; a null cursor is turned into an exception by the callers. -/
def Outcome.queryError : Outcome → Option String
  | .ok => none
  | .dbException what => some what
  | .otherException => some "generic"
  | .nullCursor => some "Null cursor from mongo (details on this is found in the source code)"

/-- The text a failed write reports; a write has no cursor. -/
def Outcome.writeError : Outcome → Option String
  | .ok => none
  | .dbException what => some what
  | .otherException => some "generic"
  | .nullCursor => none

/-- A call of `sendNotifyContextRequest`. -/
structure Notification where
  subscriptionId : String
  contextElementResponseVector : List ContextElementResponse
  url : String
  format : Format
deriving Repr

inductive Event where
  | entityUpdate (key : EntityKey)
  | entityInsert (key : EntityKey)
  | entityRemove (key : EntityKey)
  | notify (n : Notification)
deriving Repr

def Event.isNotify : Event → Bool
  | .notify _ => true
  | _ => false

structure World where
  entities : Collection EntityDoc EntityKey EntityDoc.key := .empty
  csubs : Collection SubDoc String SubDoc.oid := .empty
  threads : List (String × Int) := []
  outcomes : List Outcome := []
  picks : List Nat := []
  trace : List Event := []

/-- The outcome of the next database call. -/
def World.call (w : World) : Outcome × World :=
  match w.outcomes with
  | [] => (.ok, w)
  | o :: os => (o, { w with outcomes := os })

def World.pick (w : World) : Nat × World :=
  match w.picks with
  | [] => (0, w)
  | p :: ps => (p, { w with picks := ps })

def World.emit (w : World) (e : Event) : World := { w with trace := w.trace ++ [e] }

/-- The worlds agree on everything a database call may not touch. -/
structure World.Same (w w' : World) : Prop where
  entities : w'.entities = w.entities
  csubs : w'.csubs = w.csubs
  threads : w'.threads = w.threads
  trace : w'.trace = w.trace

theorem World.Same.refl (w : World) : World.Same w w := ⟨rfl, rfl, rfl, rfl⟩

theorem World.Same.trans {w w' w'' : World} (h : World.Same w w') (h' : World.Same w' w'') :
    World.Same w w'' :=
  ⟨h'.entities.trans h.entities, h'.csubs.trans h.csubs, h'.threads.trans h.threads,
   h'.trace.trans h.trace⟩

theorem World.call_same (w : World) : World.Same w w.call.2 := by
  unfold World.call; split <;> exact ⟨rfl, rfl, rfl, rfl⟩

theorem World.pick_same (w : World) : World.Same w w.pick.2 := by
  unfold World.pick; split <;> exact ⟨rfl, rfl, rfl, rfl⟩

/-- Every database call to come succeeds. -/
def World.Sure (w : World) : Prop := w.outcomes = []

theorem World.Sure.call {w : World} (h : w.Sure) : w.call = (.ok, w) := by
  unfold World.Sure at h
  unfold World.call
  rw [h]

theorem World.Sure.pick {w : World} (h : w.Sure) : w.pick.2.Sure := by
  unfold World.pick
  split <;> exact h

/-- The installation. -/
structure Env where
  engine : Engine
  atof : List Char → Rat
  queryText : Query → String
  docText : Bson → String
  /-- What `count` throws on a selector that the server refuses. -/
  countError : Query → String
  multitenant : Bool
  dbPrefix : String
  mongoLocationCapable : Bool
  registrationsQuery : EntityId → List String → List String → Except String (List String)

/-- An installation with defaults, no registrations and the given evaluation of `$where`. -/
def Env.plain (js : String → Bson → Bool) : Env where
  engine := .fragment js
  atof := decimal
  queryText _ := "query"
  docText _ := "document"
  countError _ := "count fails"
  multitenant := false
  dbPrefix := "orion"
  mongoLocationCapable := true
  registrationsQuery _ _ _ := .ok []

/-- That environment with these functions, which may throw. -/
def Env.evaluating (js : String → Bson → Option Bool) : Env :=
  { Env.plain fun _ _ => false with engine := .evaluating js }

/-- The parts of a request that are not the context element. -/
structure Ctx where
  action : String
  tenant : String := ""
  servicePathV : List String := []
  notExistType : Bool := false
  caller : String := ""
  now : Int := 0
deriving Repr

/-- MongoGlobal.cpp:386. -/
def composeDatabaseName (env : Env) (tenant : String) : String :=
  if !env.multitenant || tenant == "" then env.dbPrefix else env.dbPrefix ++ "-" ++ tenant

def composeCollectionName (env : Env) (tenant colName : String) : String :=
  composeDatabaseName env tenant ++ "." ++ colName

def getEntitiesCollectionName (env : Env) (tenant : String) : String :=
  composeCollectionName env tenant "entities"

def getSubscribeContextCollectionName (env : Env) (tenant : String) : String :=
  composeCollectionName env tenant "csubs"

/-- The text of a failed query (MongoGlobal.cpp:1096, MongoCommonUpdate.cpp:934). -/
def queryErrorText (env : Env) (collection : String) (query : Query) (what : String) : String :=
  "collection: " ++ collection ++ " - query(): " ++ env.queryText query ++ " - exception: " ++ what

end OrionBroker
