import OrionBroker.Register.Documents

/-!
# `registrationsQuery` (MongoGlobal.cpp:605-663, 1283-1534)

| here | there |
| --- | --- |
| `includedEntity`                    | `includedEntity` (:605) |
| `processEntity`                     | `processEntity` (:1285) |
| `processAttribute`                  | `processAttribute` (:1306); `includedAttribute` is that of `entitiesQuery` |
| `processContextRegistrationElement` | the same (:1327) |
| `registrationsSelector`             | `bquery` (:1400-1471) |
| `registrationsFind`                 | the cursor: `sort({_id: 1})`, `skip(offset)`, `limit(limit)` |
| `registrationsQuery`                | `registrationsQuery` (:1381) |

`regcomp` is the C library's `regcomp` and `regexec`, another dialect than the database's: `none` when the
expression does not compile. The cursor is not tested for null here, unlike in the other queries.
-/

namespace OrionBroker

open Mongo

abbrev Regcomp := String → Option (String → Bool)

/-! ## The filter -/

/-- One step of the loop: a pattern that does not compile is skipped. -/
def includedBy (regcomp : Regcomp) (id type : String) (en2 : EntityId) : Bool :=
  let idMatch := if isTrue en2.isPattern then (regcomp en2.id).any fun m => m id else en2.id == id
  idMatch && (type == "" || en2.type == "" || en2.type == type)

def includedEntity (regcomp : Regcomp) (en : EntityId) (entityIdV : List EntityId) : Bool :=
  entityIdV.any (includedBy regcomp en.id en.type)

/-- The entity read from the document, when it is included. -/
def processEntity (regcomp : Regcomp) (enV : List EntityId) (entity : RegEntity) :
    Option EntityId :=
  let en : EntityId := { id := cString entity.id, type := strField entity.type, isPattern := "false" }
  if includedEntity regcomp en enV then some en else none

def processAttribute (attrL : List String) (attr : ContextRegistrationAttribute) :
    Option ContextRegistrationAttribute :=
  let attr : ContextRegistrationAttribute := ⟨cString attr.name, cString attr.type, cString attr.isDomain⟩
  if includedAttribute attr.name attrL then some attr else none

/-- The answer for one element; `none` when it is left out. -/
def processContextRegistrationElement (regcomp : Regcomp) (enV : List EntityId)
    (attrL : List String) (cr : RegElement) : Option ContextRegistrationResponse :=
  let entities := cr.entities.filterMap (processEntity regcomp enV)
  let attrs := if entities.length > 0 then cr.attrs.filterMap (processAttribute attrL) else []
  if entities.length = 0 then none
  else if attrs.length > 0 || (attrs.length == 0 && attrL.length == 0) then
    some ⟨entities, attrs, cString cr.providingApplication⟩
  else none

/-! ## The selector -/

/-- The condition of a pattern. -/
def patternSelector (en : EntityId) : Query :=
  .all (.field ["contextRegistration", "entities", "id"] (.regex en.id) ::
    (if en.type ≠ "" then [.field ["contextRegistration", "entities", "type"] (.eq (.str en.type))] else []))

/-- Both orders of the fields. -/
def entitiesWithType (enV : List EntityId) : List Alt :=
  (enV.filter fun en => !isTrue en.isPattern && en.type != "").flatMap fun en =>
    [.val (.obj [("id", .str en.id), ("type", .str en.type)]),
     .val (.obj [("type", .str en.type), ("id", .str en.id)])]

def entitiesWithoutType (enV : List EntityId) : List Alt :=
  (enV.filter fun en => !isTrue en.isPattern && en.type == "").map fun en => .val (.str en.id)

def entityOr (enV : List EntityId) : List Query :=
  (enV.filter fun en => isTrue en.isPattern).map patternSelector ++
  [.field ["contextRegistration", "entities"] (.isIn (entitiesWithType enV)),
   .field ["contextRegistration", "entities", "id"] (.isIn (entitiesWithoutType enV))]

def registrationsSelector (enV : List EntityId) (attrL servicePathV : List String) (now : Int) : Query :=
  .all ([.any (entityOr enV), .field ["expiration"] (.gt now)] ++
    (if attrL.length > 0 then
      [.field ["contextRegistration", "attrs", "name"] (.isIn (attrL.map fun a => .val (.str a)))] else []) ++
    [.field ["servicePath"] (fillQueryServicePath servicePathV)])

/-! ## The query -/

def registrationsFound (env : Env) (r : Registry) (enV : List EntityId) (attrL servicePathV : List String)
    (now : Int) : List RegDoc :=
  r.registrations.find fun d => (registrationsSelector enV attrL servicePathV now).matches env.engine d.toBson

def registrationsFind (env : Env) (r : Registry) (enV : List EntityId) (attrL servicePathV : List String)
    (now : Int) (offset limit : Nat) : List RegDoc :=
  page offset limit ((registrationsFound env r enV attrL servicePathV now).insertionSort fun a b => a.oid ≤ b.oid)

/-- What a call of `registrationsQuery` comes to. -/
inductive Lookup where
  | found (crrV : List ContextRegistrationResponse) (count : Int)
  | failed (err : String)
  | crashed
deriving DecidableEq, Repr

/-- The loop over the cursor. -/
def registrationsAnswer (regcomp : Regcomp) (enV : List EntityId) (attrL : List String)
    (docs : List RegDoc) : List ContextRegistrationResponse :=
  docs.flatMap fun d => d.contextRegistration.filterMap (processContextRegistrationElement regcomp enV attrL)

/-- The cursor; `count` is what `countP` points to by then. -/
def registrationsCursor (env : Env) (regcomp : Regcomp) (tenant : String) (now : Int)
    (enV : List EntityId) (attrL servicePathV : List String) (offset limit : Nat) (count : Int) (r : Registry) :
    Lookup × Registry :=
  let (o, r') := r.call
  match o with
  | .ok => (.found (registrationsAnswer regcomp enV attrL
      (registrationsFind env r enV attrL servicePathV now offset limit)) count, r')
  | .nullCursor => (.crashed, r')
  | .dbException what => (.failed (queryErrorText env (getRegistrationsCollectionName env tenant)
      (registrationsSelector enV attrL servicePathV now) what), r')
  | .otherException => (.failed (queryErrorText env (getRegistrationsCollectionName env tenant)
      (registrationsSelector enV attrL servicePathV now) "generic"), r')

/-- `details` with a `countP` also counts; `count` keeps its `-1` otherwise. -/
def registrationsQuery (env : Env) (regcomp : Regcomp) (tenant : String) (now : Int)
    (enV : List EntityId) (attrL servicePathV : List String) (offset limit : Nat) (details : Bool) (r : Registry) :
    Lookup × Registry :=
  if details then
    let (o, r') := r.call
    match o.writeError with
    | some what => (.failed (queryErrorText env (getRegistrationsCollectionName env tenant)
        (registrationsSelector enV attrL servicePathV now) what), r')
    | none => registrationsCursor env regcomp tenant now enV attrL servicePathV offset limit
        (registrationsFound env r enV attrL servicePathV now).length r'
  else registrationsCursor env regcomp tenant now enV attrL servicePathV offset limit (-1) r

theorem registrationsCursor_same (env : Env) (regcomp : Regcomp) (tenant : String)
    (now : Int) (enV : List EntityId) (attrL servicePathV : List String) (offset limit : Nat) (count : Int)
    (r : Registry) : Registry.Same r
      (registrationsCursor env regcomp tenant now enV attrL servicePathV offset limit count r).2 := by
  unfold registrationsCursor
  simp only
  split <;> exact r.call_same

theorem registrationsQuery_same (env : Env) (regcomp : Regcomp) (tenant : String)
    (now : Int) (enV : List EntityId) (attrL servicePathV : List String) (offset limit : Nat) (details : Bool)
    (r : Registry) : Registry.Same r
      (registrationsQuery env regcomp tenant now enV attrL servicePathV offset limit details r).2 := by
  unfold registrationsQuery
  split
  · simp only
    split
    · exact r.call_same
    · exact r.call_same.trans (registrationsCursor_same _ _ _ _ _ _ _ _ _ _ _)
  · exact registrationsCursor_same _ _ _ _ _ _ _ _ _ _ _

end OrionBroker
