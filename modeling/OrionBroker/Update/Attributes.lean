import OrionBroker.Store.Documents
import OrionBroker.Common.Strings

/-!
# The `attrs` array: update, append and delete (MongoCommonUpdate.cpp:56-755)

Each operation walks the stored array and rebuilds it element by element.

| here | there |
| --- | --- |
| `valueBson`, `nodeBson`            | `valueBson` and the two `compoundValueBson` (:72-154) |
| `requestMetadata`                  | the first loop over the metadata in `checkAndUpdate` (:341-356) |
| `keptMetadata`                     | its second loop (:359-378) |
| `checkAndUpdate`, `checkAndDelete` | `checkAndUpdate` (:306), `checkAndDelete` (:471) |
| `updateAttribute`, `appendAttribute`, `deleteAttribute` | the same (:515, :578, :739) |
| `legalIdUsage`, `legalIdUsageVector` | the two overloads of `legalIdUsage` (:632, :664) |
| `processLocation`                  | `processLocation` (:699) |
-/

namespace OrionBroker

open Mongo

def smartAttrMatch (name1 id1 name2 id2 : String) : Bool := name1 == name2 && id1 == id2

/-- The key a request attribute addresses. -/
def ContextAttribute.key (ca : ContextAttribute) : String × String := (ca.name, ca.getId)

/-! ## Values -/

mutual
/-- One child of a compound value; a node of unknown type is only logged. -/
def nodeBson : CompoundValueNode → Option Bson
  | .mk .string _ value _ => some (.str value)
  | .mk .vector _ _ childV => some (.arr (compoundValueArr childV))
  | .mk .object _ _ childV => some (.obj (compoundValueObj childV))
  | .mk .unknown _ _ _ => none
/-- `compoundValueBson` for arrays (:72). -/
def compoundValueArr : List CompoundValueNode → List Bson
  | [] => []
  | c :: cs => (nodeBson c).toList ++ compoundValueArr cs
/-- `compoundValueBson` for objects (:105). -/
def compoundValueObj : List CompoundValueNode → List (String × Bson)
  | [] => []
  | c :: cs =>
    let name := match c with | .mk _ name _ _ => name
    ((nodeBson c).map fun v => (name, v)).toList ++ compoundValueObj cs
end

/-- The `value` field of a request attribute (:130). -/
def valueBson (ca : ContextAttribute) : Option Bson :=
  match ca.compoundValueP with
  | none => some (.str ca.value)
  | some node => nodeBson node

/-! ## Metadata -/

/-- :166. -/
def isNotCustomMetadata (md : String) : Bool :=
  md == NGSI_MD_ID || md == NGSI_MD_LOCATION || md == NGSI_MD_CREDATE || md == NGSI_MD_MODDATE

/-- :181. -/
def hasMetadata (name type : String) (ca : ContextAttribute) : Bool :=
  ca.metadataVector.any fun md => md.name == name && md.type == type

/-- The custom metadata of the request: an empty type leaves the field out. -/
def requestMetadata (ca : ContextAttribute) : List MdDoc :=
  (ca.metadataVector.filter fun md => !isNotCustomMetadata md.name).map fun md =>
    ⟨md.name, if md.type = "" then none else some md.type, md.value⟩

/-- The stored metadata that the request does not mention. -/
def keptMetadata (mdV : List MdDoc) (ca : ContextAttribute) : List MdDoc :=
  (mdV.map MdDoc.read).filter fun md => !hasMetadata md.name (strField md.type) ca

/-- :205. -/
def matchMetadata (md1 md2 : MdDoc) : Bool :=
  match md1.type with
  | some t => md2.type.isSome && strField md2.type == cString t && cString md1.name == cString md2.name
  | none => md2.type.isNone && cString md1.name == cString md2.name

theorem matchMetadata_iff {md1 md2 : MdDoc} :
    matchMetadata md1 md2 = true ↔ md2.read.type = md1.read.type ∧ md1.read.name = md2.read.name := by
  unfold matchMetadata MdDoc.read
  cases h1 : md1.type with
  | none => cases h2 : md2.type <;> simp
  | some t => cases h2 : md2.type <;> simp

/-- :227: every item of the first vector that has a match in the second has the value of its first
match. -/
def equalMetadataVectors (mdV1 mdV2 : List MdDoc) : Bool :=
  mdV1.all fun md1 =>
    match mdV2.find? (matchMetadata md1) with
    | some md2 => cString md1.value == cString md2.value
    | none => true

/-- An `md` array, left out when empty. -/
def mdField (l : List MdDoc) : Option (List MdDoc) := if l.length > 0 then some l else none

/-- :266. -/
def bsonCustomMetadataToBson (attr : AttrDoc) : Option (List MdDoc) := attr.md.bind fun l => mdField (l.map MdDoc.read)

/-- :549: unlike `requestMetadata`, the type is always stored. -/
def contextAttributeCustomMetadataToBson (ca : ContextAttribute) : Option (List MdDoc) :=
  mdField ((ca.metadataVector.filter fun md => !isNotCustomMetadata md.name).map fun md =>
    ⟨md.name, some md.type, md.value⟩)

/-! ## One element -/

/-- The value copied "as is": only the three kinds the broker writes. -/
def copyValue : Option Bson → Option Bson
  | some (.str s) => some (.str s)
  | some (.obj fs) => some (.obj fs)
  | some (.arr xs) => some (.arr xs)
  | _ => none

def copyId (attr : AttrDoc) : Option String :=
  if strField attr.id ≠ "" then some (strField attr.id) else none

/-- The element addresses the request attribute. -/
def attrMatch (attr : AttrDoc) (ca : ContextAttribute) : Bool :=
  smartAttrMatch (strField attr.name) (strField attr.id) ca.name ca.getId

def newMetadata (attr : AttrDoc) (ca : ContextAttribute) : List MdDoc :=
  requestMetadata ca ++ keptMetadata (attr.md.getD []) ca

/-- "It was an actual update?" (:387-411). -/
def isActualUpdate (attr : AttrDoc) (ca : ContextAttribute) : Bool :=
  match ca.compoundValueP with
  | some _ => true
  | none =>
    attr.value.isNone || strValue attr.value != ca.value ||
    (ca.type != "" && (attr.type.isNone || strField attr.type != ca.type)) ||
    (newMetadata attr ca).length != (attr.md.getD []).length ||
    !equalMetadataVectors (attr.md.getD []) (newMetadata attr ca)

/-- The element written when the request attribute matches (:321-411). -/
def updatedAttr (now : Int) (attr : AttrDoc) (ca : ContextAttribute) : AttrDoc where
  name := some (strField attr.name)
  creDate := attr.creDate
  id := copyId attr
  value := valueBson ca
  type := if ca.type ≠ "" then some ca.type else attr.type.map cString
  md := mdField (newMetadata attr ca)
  modDate := if isActualUpdate attr ca then some now else attr.modDate

/-- The element written when it does not (:413-443). -/
def copiedAttr (attr : AttrDoc) : AttrDoc where
  name := some (strField attr.name)
  creDate := attr.creDate
  id := copyId attr
  value := copyValue attr.value
  type := attr.type.map cString
  md := bsonCustomMetadataToBson attr
  modDate := attr.modDate

/-- The new element, "updated", and `actualUpdate`. -/
def checkAndUpdate (now : Int) (attr : AttrDoc) (ca : ContextAttribute) : AttrDoc × Bool × Bool :=
  if attrMatch attr ca then (updatedAttr now attr ca, true, isActualUpdate attr ca)
  else (copiedAttr attr, false, false)

/-- The copy `checkAndDelete` makes: the value through `STR_FIELD`. -/
def keptAttr (attr : AttrDoc) : AttrDoc where
  name := some (strField attr.name)
  type := some (strField attr.type)
  value := some (.str (strValue attr.value))
  md := bsonCustomMetadataToBson attr
  creDate := attr.creDate
  modDate := attr.modDate
  id := copyId attr

/-- The new element (left empty on a match), and "deleted". -/
def checkAndDelete (attr : AttrDoc) (ca : ContextAttribute) : AttrDoc × Bool :=
  if !attrMatch attr ca then (keptAttr attr, false) else ({}, true)

/-! ## The whole array -/

/-- The new array, "updated", and `actualUpdate`. -/
def updateAttribute (now : Int) (attrs : List AttrDoc) (ca : ContextAttribute) :
    List AttrDoc × Bool × Bool :=
  let rs := attrs.map fun a => checkAndUpdate now a ca
  (rs.map (·.1), rs.any (·.2.1), rs.any (·.2.2))

/-- The element appended when no stored one matches (:596-612). -/
def appendedAttr (now : Int) (ca : ContextAttribute) : AttrDoc where
  name := some ca.name
  type := some ca.type
  value := valueBson ca
  id := if ca.getId ≠ "" then some ca.getId else none
  md := contextAttributeCustomMetadataToBson ca
  creDate := some now
  modDate := some now

/-- The new array, and whether the entity is modified. -/
def appendAttribute (now : Int) (attrs : List AttrDoc) (ca : ContextAttribute) : List AttrDoc × Bool :=
  let (newAttrs, updated, actualUpdate) := updateAttribute now attrs ca
  if !updated then (newAttrs ++ [appendedAttr now ca], true) else (newAttrs, actualUpdate)

/-- The loop of `deleteAttribute`: after the first match a further one leaves its empty element. -/
def deleteLoop (ca : ContextAttribute) : List AttrDoc → Bool → List AttrDoc × Bool
  | [], deleted => ([], deleted)
  | a :: as, deleted =>
    let (newAttr, del) := checkAndDelete a ca
    if del && !deleted then deleteLoop ca as true
    else
      let (rest, d) := deleteLoop ca as deleted
      (newAttr :: rest, d)

/-- The new array, and "deleted". -/
def deleteAttribute (attrs : List AttrDoc) (ca : ContextAttribute) : List AttrDoc × Bool :=
  deleteLoop ca attrs false

/-! ## `legalIdUsage` and `processLocation` -/

def legalIdUsage (attrs : List AttrDoc) (ca : ContextAttribute) : Bool :=
  if ca.getId = "" then !attrs.any fun a => strField a.name == ca.name && strField a.id != ""
  else !attrs.any fun a => strField a.name == ca.name && strField a.id == ""

/-- The overload for a request vector: it also asks for equal types. -/
def legalIdUsageVector (caV : List ContextAttribute) : Bool :=
  caV.all fun a => a.getId != "" || !caV.any fun b => a.name == b.name && a.type == b.type && b.getId != ""

def LOCATION_WGS84 : String := "WGS84"
def LOCATION_WGS84_LEGACY : String := "WSG84"

/-- What `processLocation` fills in: `locAttr`, `coordLat`, `coordLong`. -/
structure Loc where
  locAttr : String := ""
  coordLat : Rat := 0
  coordLong : Rat := 0
deriving DecidableEq, Repr

/-- One metadata item of one attribute (:704-722). -/
def processLocationMd (atof : List Char → Rat) (ca : ContextAttribute) (st : Loc) (md : Metadata) :
    Except String Loc :=
  if md.name ≠ NGSI_MD_LOCATION then .ok st
  else if st.locAttr ≠ "" then
    .error "You cannot use more than one location attribute when creating an entity [see Orion user manual]"
  else if md.value ≠ LOCATION_WGS84 ∧ md.value ≠ LOCATION_WGS84_LEGACY then
    .error ("only WGS84 are supported, found: " ++ md.value)
  else
    match string2coords atof ca.value st.coordLat st.coordLong with
    | (true, lat, long) => .ok ⟨ca.name, lat, long⟩
    | (false, _, _) => .error ("coordinate format error [see Orion user manual]: " ++ ca.value)

def processLocationAttr (atof : List Char → Rat) (ca : ContextAttribute) (st : Loc) : Except String Loc :=
  ca.metadataVector.foldlM (processLocationMd atof ca) st

/-- `errDetail`, or the location attribute and its coordinates. -/
def processLocation (atof : List Char → Rat) (caV : List ContextAttribute) : Except String Loc :=
  caV.foldlM (fun st ca => processLocationAttr atof ca st) {}

end OrionBroker
