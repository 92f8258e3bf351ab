import OrionBroker.Lib.Locks
import OrionBroker.Subscription.Operations

/-!
# The request and the mongo semaphore (sem.cpp, mongoBackend)

Every operation of the mongo backend holds the request semaphore, and the mongo semaphore around each
database call; both are taken and given by hand. What the operations do with them depends on how the calls
end and on which branches are taken. Here both are answers from outside: a call takes the next answer of its
site, a branch or a number of rounds that the data decide takes the next answer of the site `data`, so every
path is the run of some answers.

| here | there |
| --- | --- |
| `Exn`            | `AssertionException` (a `DBException`), `DBException`, anything else |
| `whileMore`      | `while (cursor->more()) { cursor->next(); ... }`, outside any `try` |
| `inMongoSem`     | `try { mongoSemTake(); ...; mongoSemGive(); } catch { mongoSemGive(); ... }` |
| `takenMongoSem`  | the same with `mongoSemTake()` before the `try` |
| `findOneById`    | `try { OID(id); mongoSemTake(); findOne(); mongoSemGive(); } catch { mongoSemGive(); ... }` |
| `entitiesQueryCalls`, `registrationsQueryCalls`, ... | the calls of `entitiesQuery`, `registrationsQuery`, ... |
| `Operation.calls` | the service operations (mongoSubscribeContext.cpp and the like) |
-/

namespace OrionBroker

open Locks

inductive Sem where
  | req
  | mongo
deriving DecidableEq, Repr

inductive Exn where
  | assertion
  | db
  | other
deriving DecidableEq, Repr

/-- Who answers. -/
inductive Site where
  | ensureIndex
  | registrations
  | database
  | data
deriving DecidableEq, Repr

/-- A call that returns brings documents: those of a cursor, reading each of which may throw, or the one found.
For the data, their number is the answer. -/
inductive Answer where
  | returns (reads : List (Option Exn))
  | null
  | throws (e : Exn)
deriving DecidableEq, Repr

abbrev Op : Type → Type := Cmd (Machine Sem Site Answer) Exn

def reqSemTake : Op Unit := take .req
def reqSemGive : Op Unit := give .req
def mongoSemTake : Op Unit := take .mongo
def mongoSemGive : Op Unit := give .mongo

/-! ## Calls -/

/-- What a call brings; `none` is the null pointer. -/
def callOf (site : Site) : Op (Option (List (Option Exn))) := do
  match ← ask site (.returns []) with
  | .returns reads => pure (some reads)
  | .null => pure none
  | .throws e => Cmd.throw e

/-- `insert`, `update`, `remove`, `count`. -/
def writeCall : Op Unit := do
  let _ ← callOf .database
  pure ()

/-- `query` with the check for the null cursor. -/
def queryCall : Op (List (Option Exn)) := do
  match ← callOf .database with
  | some reads => pure reads
  | none => Cmd.throw .db

/-- `findOne`, and whether the document is not empty. -/
def findOneCall : Op Bool := do
  match ← callOf .database with
  | some reads => pure (!reads.isEmpty)
  | none => Cmd.throw .assertion

/-- A number that the data decide. -/
def number : Op Nat := do
  match ← ask .data (.returns []) with
  | .returns reads => pure reads.length
  | _ => pure 0

/-- A test that the data decide. -/
def test : Op Bool := do
  let n ← number
  pure (decide (0 < n))

/-- `OID(id)`. -/
def oidCall (id : String) : Op Unit := if (oidOf id).isSome then pure () else Cmd.throw .assertion

def whileMore (body : Op Bool) : List (Option Exn) → Op Unit
  | [] => pure ()
  | some e :: _ => Cmd.throw e
  | none :: reads => do if ← body then whileMore body reads else pure ()

/-! ## The guarded calls -/

/-- `none` after an exception; the handlers for the different exceptions do the same. -/
def inMongoSem {α : Type} (c : Op α) : Op (Option α) :=
  Cmd.orElse (do
    mongoSemTake
    let a ← c
    mongoSemGive
    pure (some a)) fun _ => do
      mongoSemGive
      pure none

def takenMongoSem {α : Type} (c : Op α) : Op (Option α) := do
  mongoSemTake
  Cmd.orElse (do
    let a ← c
    mongoSemGive
    pure (some a)) fun _ => do
      mongoSemGive
      pure none

/-- The identifier is read before the semaphore is taken, in the same `try`. -/
def findOneById (id : String) : Op (Option Bool) :=
  Cmd.orElse (do
    oidCall id
    mongoSemTake
    let found ← findOneCall
    mongoSemGive
    pure (some found)) fun _ => do
      mongoSemGive
      pure none

/-! ## The functions the operations share -/

/-- MongoGlobal.cpp:986: whether there is an element in the answer, `none` for `false`. -/
def entitiesQueryCalls : Op (Option Bool) := do
  match ← takenMongoSem (do
    if ← test then writeCall
    queryCall) with
  | none => pure none
  | some reads => do
    -- an error of the server ends the loop
    whileMore test reads
    pure (some (!reads.isEmpty))

/-- MongoGlobal.cpp:1381: a null cursor is not checked, and read. -/
def registrationsQueryCalls : Op (Option Bool) := do
  match ← takenMongoSem (do
    if ← test then writeCall
    callOf .registrations) with
  | none => pure none
  | some none => Cmd.die
  | some (some reads) => do
    whileMore (pure true) reads
    let found ← test
    pure (some found)

/-- MongoGlobal.cpp:1625: whether a notification was sent. -/
def processOnChangeConditionCalls (condValues : Bool) : Op Bool := do
  match ← entitiesQueryCalls with
  | none => pure false
  | some false => pure false
  | some true =>
    if condValues then do
      match ← entitiesQueryCalls with
      | none => pure false
      | some _ => test
    else pure true

/-- MongoGlobal.cpp:1707: only the ONCHANGE conditions make calls. -/
def processConditionVectorCalls : Op Unit := do
  let size ← number
  let _ ← Cmd.times (do
    if ← test then do
      let _ ← processOnChangeConditionCalls true
      pure true
    else pure true) size
  pure ()

/-- MongoGlobal.cpp:1810. The identifier comes from `OID::str`, or was read before. -/
def processAvailabilitySubscriptionCalls : Op Unit := do
  match ← registrationsQueryCalls with
  | some true => do
    -- mongoUpdateCasubNewNotification
    let _ ← takenMongoSem writeCall
    pure ()
  | _ => pure ()

/-- The two `addTriggeredSubscriptions` (MongoCommonUpdate.cpp:757, MongoCommonRegister.cpp:164). -/
def addTriggeredSubscriptionsCalls : Op Bool := do
  match ← inMongoSem queryCall with
  | none => pure false
  | some reads => do
    whileMore (pure true) reads
    pure true

/-! ## Updating entities (MongoCommonUpdate.cpp) -/

/-- :984. -/
def processSubscriptionsCalls : Op Unit := do
  let subs ← number
  let _ ← Cmd.times (do
    -- throttling
    if ← test then pure true
    else do
      if ← processOnChangeConditionCalls false then do
        let _ ← inMongoSem writeCall
        pure true
      else pure true) subs
  pure ()

/-- :1152: whether the entity was modified. -/
def processContextAttributeVectorCalls : Op Bool := do
  let size ← number
  let processed ← Cmd.times (do
    if ← test then pure false
    else do
      -- actualUpdate
      if ← test then addTriggeredSubscriptionsCalls else pure true) size
  if processed then test else pure false

/-- :1350; `ensureLocationIndex` is outside any `try`. -/
def createEntityCalls : Op Bool := do
  -- mongoLocationCapable
  if ← test then do
    let _ ← callOf .ensureIndex
    pure ()
  -- legalIdUsage, processLocation
  if ← test then pure false
  else do
    let inserted ← takenMongoSem writeCall
    pure inserted.isSome

/-- One document of the cursor (:1677-1898). -/
def processDocumentCalls : Op Bool := do
  -- no _id
  if ← test then pure true
  -- DELETE without attributes: removeEntity
  else if ← test then do
    let _ ← inMongoSem writeCall
    pure true
  else if ← processContextAttributeVectorCalls then do
    match ← inMongoSem writeCall with
    | none => pure true
    | some _ => do
      processSubscriptionsCalls
      pure true
  else pure true

/-- No document (:1911-1980). -/
def processNoDocumentCalls : Op Unit := do
  -- not an APPEND
  if ← test then do
    let _ ← registrationsQueryCalls
    pure ()
  else if ← createEntityCalls then do
    let size ← number
    if ← Cmd.times addTriggeredSubscriptionsCalls size then processSubscriptionsCalls else pure ()
  else pure ()

/-- :1546. -/
def processContextElementCalls : Op Unit := do
  -- isPattern, empty values
  if ← test then pure ()
  else do
    match ← inMongoSem queryCall with
    | none => pure ()
    | some reads => do
      whileMore processDocumentCalls reads
      -- docs == 0
      if ← test then processNoDocumentCalls else pure ()

/-! ## Registering (MongoCommonRegister.cpp) -/

/-- :44. -/
def processAssociationsCalls : Op Bool := do
  let size ← number
  Cmd.times (do
    if ← test then do
      let inserted ← inMongoSem writeCall
      pure inserted.isSome
    else pure true) size

/-- :357. -/
def processRegisterContextCalls : Op Unit := do
  let size ← number
  let processed ← Cmd.times (do
    if ← processAssociationsCalls then addTriggeredSubscriptionsCalls else pure false) size
  if processed then do
    match ← inMongoSem writeCall with
    | none => pure ()
    | some _ => do
      let subs ← number
      let _ ← Cmd.times (do
        processAvailabilitySubscriptionCalls
        pure true) subs
      pure ()
  else pure ()

/-! ## Discovering (mongoDiscoverContextAvailability.cpp) -/

/-- :173. -/
def associationsDiscoverCalls : Op Unit := do
  -- the scope "all"
  if ← test then pure ()
  else do
    match ← inMongoSem queryCall with
    | none => pure ()
    | some reads => do
      whileMore (pure true) reads
      let size ← number
      let _ ← Cmd.times (do
        let found ← registrationsQueryCalls
        pure found.isSome) size
      pure ()

/-! ## The operations -/

/-- An operation, with the identifier it is given; a registration without one is new. -/
inductive Operation where
  | subscribeContext
  | updateContextSubscription (subscriptionId : String)
  | unsubscribeContext (subscriptionId : String)
  | subscribeContextAvailability
  | updateContextAvailabilitySubscription (subscriptionId : String)
  | unsubscribeContextAvailability (subscriptionId : String)
  | registerContext (registrationId : String)
  | queryContext
  | updateContext
  | discoverContextAvailability
deriving DecidableEq, Repr

/-- `findOneById`, then what is done with a document that is found; each way out gives the request semaphore. -/
def onFound (id : String) (next : Op Unit) : Op Unit := do
  reqSemTake
  match ← findOneById id with
  | none => reqSemGive
  | some false => reqSemGive
  | some true => next

/-- A write whose handlers give the request semaphore too, then `rest`. -/
def writeThen (rest : Op Unit) : Op Unit := do
  match ← inMongoSem writeCall with
  | none => reqSemGive
  | some _ => do
    rest
    reqSemGive

def Operation.calls : Operation → Op Unit
  | .subscribeContext => do
    reqSemTake
    processConditionVectorCalls
    writeThen (pure ())
  | .updateContextSubscription subscriptionId =>
    onFound subscriptionId do
      -- notifyConditionVector.size() != 0
      if ← test then processConditionVectorCalls
      writeThen (pure ())
  | .unsubscribeContext subscriptionId => onFound subscriptionId (writeThen (pure ()))
  | .subscribeContextAvailability => do
    reqSemTake
    writeThen processAvailabilitySubscriptionCalls
  | .updateContextAvailabilitySubscription subscriptionId =>
    onFound subscriptionId (writeThen processAvailabilitySubscriptionCalls)
  | .unsubscribeContextAvailability subscriptionId => onFound subscriptionId (writeThen (pure ()))
  | .registerContext registrationId =>
    if registrationId = "" then do
      reqSemTake
      processRegisterContextCalls
      reqSemGive
    else onFound registrationId do
      processRegisterContextCalls
      reqSemGive
  | .queryContext => do
    reqSemTake
    let found ← entitiesQueryCalls
    reqSemGive
    -- the registrations are asked without the request semaphore
    if found = some false then do
      let _ ← registrationsQueryCalls
      pure ()
    else pure ()
  | .updateContext => do
    reqSemTake
    -- more than one service path
    if ← test then reqSemGive
    else do
      let size ← number
      let _ ← Cmd.times (do
        processContextElementCalls
        pure true) size
      reqSemGive
  | .discoverContextAvailability => do
    reqSemTake
    if ← test then do
      associationsDiscoverCalls
      reqSemGive
    else do
      let _ ← registrationsQueryCalls
      reqSemGive

/-! ## Runs -/

/-- After `semInit`: both semaphores are free. -/
def semInit (answers : Site → List Answer) : Machine Sem Site Answer := ⟨fun _ => 1, answers, []⟩

/-- One operation with its answers; the machine after it, also after an exception. -/
def serve (m : Machine Sem Site Answer) (request : Operation × (Site → List Answer)) :
    Ending Exn Unit × Machine Sem Site Answer := request.1.calls { m with answers := request.2 }

/-- The machine after each of the operations. -/
def serveAll (m : Machine Sem Site Answer) :
    List (Operation × (Site → List Answer)) → List (Ending Exn Unit × Machine Sem Site Answer)
  | [] => []
  | request :: requests => serve m request :: serveAll (serve m request).2 requests

end OrionBroker
