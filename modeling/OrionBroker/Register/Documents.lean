import OrionBroker.Update.Triggers

/-!
# Registrations, associations and availability subscriptions

The requests (src/lib/ngsi, src/lib/ngsi9) and the documents (MongoGlobal.h:56-129).

| here | there |
| --- | --- |
| `RegistrationMetadata`   | `Metadata` (Metadata.h:53) with its `association` |
| `ContextRegistration`    | the same (ContextRegistration.h:43); the metadata of its attributes is not stored |
| `RegElement`, `RegDoc`   | a document of the registrations collection (MongoCommonRegister.cpp:374-440) |
| `AssocDoc`               | a document of the associations collection (MongoCommonRegister.cpp:92) |
| `CasubDoc`               | a document of the casubs collection (mongoSubscribeContextAvailability.cpp:62-98) |
| `Registry`               | the three collections, the outcomes of the database calls still to come, the notifications sent |

An entity of a registration is stored as `{id, type}`, and some documents of the collection have the two
fields the other way round (MongoGlobal.cpp:1431): `typeFirst`.
-/

namespace OrionBroker

open Mongo

/-! ## Requests -/

structure AttributeAssociation where
  source : String
  target : String
deriving DecidableEq, Repr

structure Association where
  source : EntityId
  target : EntityId
  attributeAssociationList : List AttributeAssociation := []
deriving DecidableEq, Repr

structure RegistrationMetadata where
  name : String
  type : String
  value : String := ""
  association : Association
deriving DecidableEq, Repr

structure ContextRegistrationAttribute where
  name : String
  type : String := ""
  isDomain : String := ""
deriving DecidableEq, Repr

structure ContextRegistration where
  entityIdVector : List EntityId := []
  contextRegistrationAttributeVector : List ContextRegistrationAttribute := []
  registrationMetadataVector : List RegistrationMetadata := []
  providingApplication : String := ""
deriving DecidableEq, Repr

structure RegisterContextRequest where
  contextRegistrationVector : List ContextRegistration
  duration : String := ""
  registrationId : String := ""
deriving DecidableEq, Repr

structure RegisterContextResponse where
  duration : String := ""
  registrationId : String := ""
  errorCode : StatusCode := {}
deriving DecidableEq, Repr

/-! ## Documents -/

structure RegEntity where
  id : String
  type : Option String := none
  typeFirst : Bool := false
deriving DecidableEq, Repr

structure RegElement where
  entities : List RegEntity := []
  attrs : List ContextRegistrationAttribute := []
  providingApplication : String := ""
deriving DecidableEq, Repr

structure RegDoc where
  oid : String
  expiration : Int
  servicePath : Option String := none
  contextRegistration : List RegElement := []
deriving DecidableEq, Repr

structure AssocEnt where
  id : String
  type : Option String := none
deriving DecidableEq, Repr

structure AssocDoc where
  name : String
  srcEnt : AssocEnt
  tgtEnt : AssocEnt
  attrs : List AttributeAssociation := []
deriving DecidableEq, Repr

structure CasubDoc where
  oid : String
  expiration : Int
  reference : String
  entities : List SubEntity := []
  attrs : List String := []
  format : Option String := none
  lastNotification : Option Int := none
  count : Option Int := none
deriving DecidableEq, Repr

def RegEntity.toBson (e : RegEntity) : Bson :=
  if e.typeFirst then .obj (optField "type" (e.type.map .str) ++ [("id", .str e.id)])
  else .obj (("id", .str e.id) :: optField "type" (e.type.map .str))

def ContextRegistrationAttribute.toBson (a : ContextRegistrationAttribute) : Bson :=
  .obj [("name", .str a.name), ("type", .str a.type), ("isDomain", .str a.isDomain)]

def RegElement.toBson (cr : RegElement) : Bson :=
  .obj [("entities", .arr (cr.entities.map RegEntity.toBson)),
    ("attrs", .arr (cr.attrs.map ContextRegistrationAttribute.toBson)),
    ("providingApplication", .str cr.providingApplication)]

def RegDoc.toBson (d : RegDoc) : Bson :=
  .obj (("_id", .oid d.oid) :: ("expiration", .int d.expiration) ::
    (optField "servicePath" (d.servicePath.map .str) ++
      [("contextRegistration", .arr (d.contextRegistration.map RegElement.toBson))]))

def AssocEnt.toBson (e : AssocEnt) : Bson := .obj (("id", .str e.id) :: optField "type" (e.type.map .str))

def AttributeAssociation.toBson (a : AttributeAssociation) : Bson :=
  .obj [("src", .str a.source), ("tgt", .str a.target)]

def AssocDoc.toBson (d : AssocDoc) : Bson :=
  .obj [("_id", .str d.name), ("srcEnt", d.srcEnt.toBson), ("tgtEnt", d.tgtEnt.toBson),
    ("attrs", .arr (d.attrs.map AttributeAssociation.toBson))]

/-- The element of an availability subscription has its type before `isPattern`. -/
def casubEntity (e : SubEntity) : Bson :=
  .obj (("id", .str e.id) :: (optField "type" (e.type.map .str) ++ [("isPattern", .str e.isPattern)]))

def CasubDoc.toBson (s : CasubDoc) : Bson :=
  .obj (("_id", .oid s.oid) :: ("expiration", .int s.expiration) :: ("reference", .str s.reference) ::
    ("entities", .arr (s.entities.map casubEntity)) :: ("attrs", .arr (s.attrs.map .str)) ::
    (optField "format" (s.format.map .str) ++ optField "lastNotification" (s.lastNotification.map .int) ++
      optField "count" (s.count.map .int)))

/-! ## The state -/

/-- An element of `contextRegistrationResponseVector`. -/
structure ContextRegistrationResponse where
  entityIdVector : List EntityId
  contextRegistrationAttributeVector : List ContextRegistrationAttribute
  providingApplication : String
deriving DecidableEq, Repr

/-- A call of `sendNotifyContextAvailabilityRequest`. -/
structure AvailabilityNotification where
  subscriptionId : String
  contextRegistrationResponseVector : List ContextRegistrationResponse
  url : String
  format : Format
deriving DecidableEq, Repr

structure Registry where
  registrations : Collection RegDoc String RegDoc.oid := .empty
  associations : Collection AssocDoc String AssocDoc.name := .empty
  casubs : Collection CasubDoc String CasubDoc.oid := .empty
  outcomes : List Outcome := []
  sent : List AvailabilityNotification := []

def Registry.call (r : Registry) : Outcome × Registry :=
  match r.outcomes with
  | [] => (.ok, r)
  | o :: os => (o, { r with outcomes := os })

/-- What a failed registration may not touch is the same. -/
structure Registry.Same (r r' : Registry) : Prop where
  registrations : r'.registrations = r.registrations
  associations : r'.associations = r.associations
  casubs : r'.casubs = r.casubs
  sent : r'.sent = r.sent

theorem Registry.Same.refl (r : Registry) : Registry.Same r r := ⟨rfl, rfl, rfl, rfl⟩

theorem Registry.Same.trans {r r' r'' : Registry} (h : Registry.Same r r') (h' : Registry.Same r' r'') :
    Registry.Same r r'' :=
  ⟨h'.registrations.trans h.registrations, h'.associations.trans h.associations,
   h'.casubs.trans h.casubs, h'.sent.trans h.sent⟩

theorem Registry.call_same (r : Registry) : Registry.Same r r.call.2 := by
  unfold Registry.call
  split <;> exact ⟨rfl, rfl, rfl, rfl⟩

def getRegistrationsCollectionName (env : Env) (tenant : String) : String :=
  composeCollectionName env tenant "registrations"

def getAssociationsCollectionName (env : Env) (tenant : String) : String :=
  composeCollectionName env tenant "associations"

def getSubscribeContextAvailabilityCollectionName (env : Env) (tenant : String) : String :=
  composeCollectionName env tenant "casubs"

end OrionBroker
