import OrionBroker.Lib.Mongo
import OrionBroker.Ngsi.Types
import OrionBroker.Common.CString
import Mathlib.Tactic.MkIffOfInductiveProp

/-!
# The documents of the entities and subscriptions collections (MongoGlobal.h:58-140)

A document is a record of its fields, `Option` for a field that may be absent; `toBson` is the document
the selectors see. `STR_FIELD` (MongoGlobal.h:146) reads a string field, `""` when there is none, and makes a C string
of it: what is behind a NUL is lost.

| here | there |
| --- | --- |
| `MdDoc`     | an item of `attrs.md`: `name`, `type`, `value` |
| `AttrDoc`   | an element of `attrs`: `name`, `type`, `value`, `id`, `md`, `creDate`, `modDate` |
| `EntityKey` | `_id` of an entity: `id`, `type`, `servicePath` |
| `EntityDoc` | a document of the entities collection |
| `SubDoc`    | a document of the csubs collection, as `mongoSubscribeContext` builds it |
-/

namespace OrionBroker

open Mongo

/-- `STR_FIELD` on a string field. -/
def strField (f : Option String) : String := cString (f.getD "")

@[simp] theorem strField_some (s : String) : strField (some s) = cString s := rfl
@[simp] theorem strField_none : strField none = "" := cString_empty

@[simp] theorem cString_strField (f : Option String) : cString (strField f) = strField f := cString_cString _

@[simp] theorem strField_map_cString (f : Option String) : strField (f.map cString) = strField f := by
  cases f with
  | none => rfl
  | some s => exact cString_cString s

/-- `STR_FIELD` on a field of any type: only a string is read. -/
def strValue : Option Bson → String
  | some (.str s) => cString s
  | _ => ""

structure MdDoc where
  name : String
  type : Option String
  value : String
deriving DecidableEq, Repr

/-- The item as `getStringField` reads it. -/
def MdDoc.read (m : MdDoc) : MdDoc := ⟨cString m.name, m.type.map cString, cString m.value⟩

@[mk_iff] structure MdDoc.NoNul (m : MdDoc) : Prop where
  name : OrionBroker.NoNul m.name
  type : ∀ t ∈ m.type, OrionBroker.NoNul t
  value : OrionBroker.NoNul m.value

instance (m : MdDoc) : Decidable m.NoNul := decidable_of_iff _ m.noNul_iff.symm

theorem map_cString_of_noNul {f : Option String} (h : ∀ s ∈ f, NoNul s) : f.map cString = f := by
  cases f with
  | none => rfl
  | some s => rw [Option.map_some, (h s rfl).cString]

theorem strField_of_noNul {f : Option String} (h : ∀ s ∈ f, NoNul s) : strField f = f.getD "" := by
  rw [← strField_map_cString, map_cString_of_noNul h]
  cases f with
  | none => exact cString_empty
  | some s => exact (h s rfl).cString

theorem MdDoc.noNul_read (m : MdDoc) : m.read.NoNul where
  name := noNul_cString _
  type t ht := by
    obtain ⟨s, -, rfl⟩ := Option.map_eq_some_iff.1 ht
    exact noNul_cString s
  value := noNul_cString _

theorem MdDoc.NoNul.read {m : MdDoc} (h : m.NoNul) : m.read = m := by
  obtain ⟨name, type, value⟩ := m
  unfold MdDoc.read
  rw [h.name.cString, map_cString_of_noNul h.type, h.value.cString]

@[simp] theorem MdDoc.read_read (m : MdDoc) : m.read.read = m.read := m.noNul_read.read

theorem map_read_of_noNul {l : List MdDoc} (h : ∀ m ∈ l, m.NoNul) : l.map MdDoc.read = l := by
  conv_rhs => rw [← List.map_id l]
  exact List.map_congr_left fun m hm => (h m hm).read

structure AttrDoc where
  name : Option String := none
  type : Option String := none
  value : Option Bson := none
  id : Option String := none
  md : Option (List MdDoc) := none
  creDate : Option Int := none
  modDate : Option Int := none
deriving DecidableEq, Repr

/-- No NUL in the name, the ID, the type and the metadata. -/
@[mk_iff] structure AttrDoc.NoNul (a : AttrDoc) : Prop where
  name : ∀ s ∈ a.name, OrionBroker.NoNul s
  id : ∀ s ∈ a.id, OrionBroker.NoNul s
  type : ∀ s ∈ a.type, OrionBroker.NoNul s
  md : ∀ m ∈ a.md.getD [], m.NoNul

instance (a : AttrDoc) : Decidable a.NoNul := decidable_of_iff _ a.noNul_iff.symm

/-- What identifies an attribute: its name and its ID metadata, as `STR_FIELD` reads them. -/
def AttrDoc.key (a : AttrDoc) : String × String := (strField a.name, strField a.id)

instance decidableKeyMem (key : String × String) (keys : List (String × String)) : Decidable (key ∈ keys) :=
  inferInstance

/-! ## Requests that are read back as they were sent -/

@[mk_iff] structure Metadata.NoNul (md : Metadata) : Prop where
  name : OrionBroker.NoNul md.name
  type : OrionBroker.NoNul md.type
  value : OrionBroker.NoNul md.value

instance (md : Metadata) : Decidable md.NoNul := decidable_of_iff _ md.noNul_iff.symm

/-- The name and the ID of a request attribute are read back as they are stored. -/
@[mk_iff] structure ContextAttribute.NoNulKey (ca : ContextAttribute) : Prop where
  name : OrionBroker.NoNul ca.name
  id : OrionBroker.NoNul ca.getId

instance (ca : ContextAttribute) : Decidable ca.NoNulKey := decidable_of_iff _ ca.noNulKey_iff.symm

/-- No NUL in the strings of an attribute; those of a compound value are read whole. -/
@[mk_iff] structure ContextAttribute.NoNul (ca : ContextAttribute) : Prop where
  name : OrionBroker.NoNul ca.name
  type : OrionBroker.NoNul ca.type
  value : OrionBroker.NoNul ca.value
  metadata : ∀ md ∈ ca.metadataVector, md.NoNul

instance (ca : ContextAttribute) : Decidable ca.NoNul := decidable_of_iff _ ca.noNul_iff.symm

theorem noNul_metadataValue (name : String) : ∀ {mds : List Metadata}, (∀ md ∈ mds, md.NoNul) →
    NoNul (metadataValue name mds)
  | [], _ => noNul_empty
  | md :: mds, h => by
    unfold metadataValue
    split
    · exact (h md (by simp)).value
    · exact noNul_metadataValue name fun m hm => h m (by simp [hm])

theorem ContextAttribute.NoNul.key {ca : ContextAttribute} (h : ca.NoNul) : ca.NoNulKey :=
  ⟨h.name, noNul_metadataValue NGSI_MD_ID h.metadata⟩

/-- No NUL in the id, the type and the attributes of an element. -/
@[mk_iff] structure ContextElement.NoNul (ce : ContextElement) : Prop where
  id : OrionBroker.NoNul ce.entityId.id
  type : OrionBroker.NoNul ce.entityId.type
  attributes : ∀ ca ∈ ce.contextAttributeVector, ca.NoNul

instance (ce : ContextElement) : Decidable ce.NoNul := decidable_of_iff _ ce.noNul_iff.symm

/-! ## Entities -/

structure EntityKey where
  id : String
  type : Option String := none
  servicePath : Option String := none
deriving DecidableEq, Repr

/-- No NUL in the id and the type; a path has none anyway. -/
@[mk_iff] structure EntityKey.NoNul (k : EntityKey) : Prop where
  id : OrionBroker.NoNul k.id
  type : ∀ s ∈ k.type, OrionBroker.NoNul s

instance (k : EntityKey) : Decidable k.NoNul := decidable_of_iff _ k.noNul_iff.symm

/-- The `location` field: `attrName` and `coords: [long, lat]`. -/
structure LocDoc where
  attrName : String
  coordLong : Rat
  coordLat : Rat
deriving DecidableEq, Repr

structure EntityDoc where
  key : EntityKey
  attrs : List AttrDoc := []
  creDate : Option Int := none
  modDate : Option Int := none
  location : Option LocDoc := none
deriving DecidableEq, Repr

/-- A field that may be absent. -/
def optField (f : String) (v : Option Bson) : List (String × Bson) := (v.map fun x => (f, x)).toList

def MdDoc.toBson (m : MdDoc) : Bson :=
  .obj (("name", .str m.name) :: optField "type" (m.type.map .str) ++ [("value", .str m.value)])

def AttrDoc.toBson (a : AttrDoc) : Bson :=
  .obj (optField "name" (a.name.map .str) ++ optField "type" (a.type.map .str) ++ optField "value" a.value ++
    optField "id" (a.id.map .str) ++ optField "md" (a.md.map fun l => .arr (l.map MdDoc.toBson)) ++
    optField "creDate" (a.creDate.map .int) ++ optField "modDate" (a.modDate.map .int))

def EntityKey.toBson (k : EntityKey) : Bson :=
  .obj (("id", .str k.id) :: (optField "type" (k.type.map .str) ++
    optField "servicePath" (k.servicePath.map .str)))

def LocDoc.toBson (l : LocDoc) : Bson :=
  .obj [("attrName", .str l.attrName), ("coords", .arr [.double l.coordLong, .double l.coordLat])]

def EntityDoc.toBson (d : EntityDoc) : Bson :=
  .obj (("_id", d.key.toBson) :: ("attrs", .arr (d.attrs.map AttrDoc.toBson)) ::
    (optField "creDate" (d.creDate.map .int) ++ optField "modDate" (d.modDate.map .int) ++
      optField "location" (d.location.map LocDoc.toBson)))

/-! ## What the selectors on entities see -/

theorem lookup_optField_append (f g : String) (v : Option Bson) (l : List (String × Bson)) (h : f ≠ g) :
    (optField g v ++ l).lookup f = l.lookup f := by
  have hb : (f == g) = false := by simp [h]
  cases v <;> simp [optField, List.lookup_cons, hb]

theorem at_id (d : EntityDoc) : d.toBson.at ["_id", "id"] = [.str d.key.id] := by
  simp [EntityDoc.toBson, EntityKey.toBson, Bson.at, Bson.step, Bson.sub]

theorem at_type (d : EntityDoc) : d.toBson.at ["_id", "type"] = (d.key.type.map Bson.str).toList := by
  cases ht : d.key.type <;> cases hp : d.key.servicePath <;>
    simp [EntityDoc.toBson, EntityKey.toBson, Bson.at, Bson.step, Bson.sub, optField, List.lookup_cons, ht, hp]

theorem at_servicePath (d : EntityDoc) :
    d.toBson.at ["_id", "servicePath"] = (d.key.servicePath.map Bson.str).toList := by
  cases ht : d.key.type <;> cases hp : d.key.servicePath <;>
    simp [EntityDoc.toBson, EntityKey.toBson, Bson.at, Bson.step, Bson.sub, optField, List.lookup_cons, ht, hp]

section
variable (E : Engine) (d : EntityDoc)

theorem matches_id (s : String) :
    (Query.field ["_id", "id"] (.eq (.str s))).matches E d.toBson = decide (d.key.id = s) := by
  simp [Cond.holds, at_id, Bson.leaves, eq_comm]

theorem matches_type (s : String) :
    (Query.field ["_id", "type"] (.eq (.str s))).matches E d.toBson = decide (d.key.type = some s) := by
  cases ht : d.key.type <;> simp [Cond.holds, at_type, Bson.leaves, ht, eq_comm]

theorem matches_noType :
    (Query.field ["_id", "type"] (.exists false)).matches E d.toBson = decide (d.key.type = none) := by
  cases ht : d.key.type <;> simp [Cond.holds, at_type, ht]

theorem matches_noServicePath :
    (Query.field ["_id", "servicePath"] (.exists false)).matches E d.toBson =
      decide (d.key.servicePath = none) := by
  cases hp : d.key.servicePath <;> simp [Cond.holds, at_servicePath, hp]

theorem matches_servicePath (s : String) :
    (Query.field ["_id", "servicePath"] (.eq (.str s))).matches E d.toBson =
      decide (d.key.servicePath = some s) := by
  cases hp : d.key.servicePath <;> simp [Cond.holds, at_servicePath, Bson.leaves, hp, eq_comm]

theorem matches_servicePathRegex (t : String) :
    (Query.field ["_id", "servicePath"] (.regex t)).matches E d.toBson =
      d.key.servicePath.any (E.regex t) := by
  cases hp : d.key.servicePath <;> simp [Cond.holds, at_servicePath, Bson.leaves, Bson.isStrWith, hp]

end

/-! ## Subscriptions -/

structure SubEntity where
  id : String
  type : Option String
  isPattern : String
deriving DecidableEq, Repr

/-- A stored condition: ONTIMEINTERVAL keeps its seconds, ONCHANGE its list of names. -/
inductive SubCond where
  | onTimeInterval (seconds : Int)
  | onChange (condValues : List String)
deriving DecidableEq, Repr

structure SubDoc where
  oid : String
  expiration : Int
  reference : String
  throttling : Option Int := none
  servicePath : Option String := none
  entities : List SubEntity := []
  attrs : List String := []
  conditions : List SubCond := []
  lastNotification : Option Int := none
  count : Option Int := none
  format : Option String := none
deriving DecidableEq, Repr

def SubEntity.toBson (e : SubEntity) : Bson :=
  .obj (("id", .str e.id) :: ("isPattern", .str e.isPattern) :: optField "type" (e.type.map .str))

def SubCond.toBson : SubCond → Bson
  | .onTimeInterval s => .obj [("type", .str "ONTIMEINTERVAL"), ("value", .int s)]
  | .onChange vs => .obj [("type", .str "ONCHANGE"), ("value", .arr (vs.map .str))]

/-- The fields besides `_id`; their order is not that of the source, which only error texts show. -/
def SubDoc.fields (s : SubDoc) : List (String × Bson) :=
  ("expiration", .int s.expiration) :: ("reference", .str s.reference) ::
    ("entities", .arr (s.entities.map SubEntity.toBson)) :: ("attrs", .arr (s.attrs.map .str)) ::
    ("conditions", .arr (s.conditions.map SubCond.toBson)) ::
    (optField "throttling" (s.throttling.map .int) ++ optField "servicePath" (s.servicePath.map .str) ++
      optField "lastNotification" (s.lastNotification.map .int) ++ optField "count" (s.count.map .int) ++
      optField "format" (s.format.map .str))

def SubDoc.toBson (s : SubDoc) : Bson := .obj (("_id", .oid s.oid) :: s.fields)

end OrionBroker
