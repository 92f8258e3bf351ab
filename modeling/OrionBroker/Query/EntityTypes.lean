import OrionBroker.Common.Strings
import OrionBroker.Common.Duration
import OrionBroker.Store.Documents

/-!
# Listing the entity types (mongoQueryTypes.cpp:41-221)

The aggregation gives one document for each entity type, with the attributes that the entities of the type have. Its
`$cond` step puts a `null` in place of an empty attribute array, and `$addToSet` collects the elements in no
particular order.

| here | there |
| --- | --- |
| `TypeGroup`        | one element of `resultsArray`; `none` stands for the `null` of an entity without attributes |
| `attrsLoop`        | the loop over `attrsArray` (:171-182) |
| `typeEntity`       | what is made of one group (:164-183) |
| `groupsLoop`       | the loop over `resultsArray` (:162-186), with the `unsigned int` it counts with |
| `mongoEntityTypes` | the same (:41), from the result of the aggregation on |

The loop over the attributes leaves the nulls out, but it is only entered when the *first* element is not null.
-/

namespace OrionBroker.EntityTypes

/-- An element of the `attrs` array, after the projection. -/
structure AttrItem where
  name : Option String
  type : Option String
deriving DecidableEq, Repr

structure TypeGroup where
  id : Option String
  attrs : List (Option AttrItem)
  attrs_ne : attrs ≠ []

/-- TypeEntity.h:39. -/
structure TypeEntity where
  type : String
  contextAttributeVector : List ContextAttribute

structure EntityTypesResponse where
  typeEntityVector : List TypeEntity := []
  statusCode : StatusCode := {}

def attributeOf (jAttr : AttrItem) : ContextAttribute := { name := strField jAttr.name, type := strField jAttr.type }

def attrsLoop : List (Option AttrItem) → List ContextAttribute
  | [] => []
  | none :: attrs => attrsLoop attrs
  | some jAttr :: attrs => attributeOf jAttr :: attrsLoop attrs

def typeEntity (resultItem : TypeGroup) : TypeEntity where
  type := strField resultItem.id
  contextAttributeVector :=
    if !(resultItem.attrs.head resultItem.attrs_ne).isNone then attrsLoop resultItem.attrs else []

/-- Every turn takes one group, so `fuel` is the number of groups. -/
def groupsLoop (resultsArray : List TypeGroup) (bound : Nat) : Nat → UInt32 → List TypeEntity → List TypeEntity
  | 0, _, typeEntityVector => typeEntityVector
  | fuel + 1, ix, typeEntityVector =>
    if ix.toNat < bound then
      match resultsArray[ix.toNat]? with
      | none => typeEntityVector
      | some resultItem => groupsLoop resultsArray bound fuel (ix + 1) (typeEntityVector ++ [typeEntity resultItem])
    else typeEntityVector

def mongoEntityTypes (offset limit : UInt32) (detailsString : String) (resultsArray : List TypeGroup) :
    EntityTypesResponse :=
  let details := strcasecmp detailsString "on"
  let typeEntityVector :=
    groupsLoop resultsArray (min resultsArray.length (offset + limit).toNat) resultsArray.length offset []
  let count := toString (toInt32 resultsArray.length)
  { typeEntityVector := typeEntityVector
    statusCode :=
      if typeEntityVector.length > 0 then
        if details then ⟨.ok, "Count: " ++ count⟩ else ⟨.ok, ""⟩
      else if details then
        ⟨.contextElementNotFound, "Number of types: " ++ count ++ ". Offset is " ++ toString (toInt32 offset.toNat)⟩
      else ⟨.contextElementNotFound, ""⟩ }

/-! ## The page -/

theorem groupsLoop_eq (resultsArray : List TypeGroup) {bound : Nat} (hbound : bound ≤ resultsArray.length)
    (hsize : bound < 2 ^ 32) (fuel : Nat) (ix : UInt32) (out : List TypeEntity) (hfuel : bound ≤ ix.toNat + fuel) :
    groupsLoop resultsArray bound fuel ix out = out ++ ((resultsArray.take bound).drop ix.toNat).map typeEntity := by
  induction fuel generalizing ix out with
  | zero =>
    have hnone : (resultsArray.take bound).drop ix.toNat = [] := by
      rw [List.drop_eq_nil_iff, List.length_take]
      omega
    simp [groupsLoop, hnone]
  | succ fuel ih =>
    rw [groupsLoop]
    by_cases hix : ix.toNat < bound
    · have hlt : ix.toNat < resultsArray.length := by omega
      -- the index does not wrap below the bound
      have hnext : (ix + 1).toNat = ix.toNat + 1 := by
        rw [UInt32.toNat_add]
        exact Nat.mod_eq_of_lt (by simp only [UInt32.toNat_one]; omega)
      have hhead : (resultsArray.take bound).drop ix.toNat =
          resultsArray[ix.toNat] :: (resultsArray.take bound).drop (ix.toNat + 1) := by
        rw [List.drop_eq_getElem_cons (by rw [List.length_take]; omega), List.getElem_take]
      rw [if_pos hix, List.getElem?_eq_getElem hlt, hhead, List.map_cons]
      simp only
      rw [ih _ _ (by omega), hnext, List.append_assoc, List.singleton_append]
    · have hnone : (resultsArray.take bound).drop ix.toNat = [] := by
        rw [List.drop_eq_nil_iff, List.length_take]
        omega
      simp [hix, hnone]

/-- The groups from `offset` on, `limit` of them at most. -/
def pageOf (offset limit : UInt32) (resultsArray : List TypeGroup) : List TypeGroup :=
  (resultsArray.drop offset.toNat).take limit.toNat

/-- **The paging is right**: with both numbers below 2^31 the sum of the two does not wrap. -/
theorem typeEntityVector_eq {offset limit : UInt32} (hoffset : offset.toNat < 2 ^ 31) (hlimit : limit.toNat < 2 ^ 31)
    (detailsString : String) (resultsArray : List TypeGroup) :
    (mongoEntityTypes offset limit detailsString resultsArray).typeEntityVector =
      (pageOf offset limit resultsArray).map typeEntity := by
  have hsum : (offset + limit).toNat = offset.toNat + limit.toNat := by
    rw [UInt32.toNat_add]
    exact Nat.mod_eq_of_lt (by omega)
  have hbound : min resultsArray.length (offset.toNat + limit.toNat) ≤ resultsArray.length := Nat.min_le_left _ _
  have hloop := groupsLoop_eq resultsArray hbound (by omega) resultsArray.length offset [] (by omega)
  rw [mongoEntityTypes, hsum]
  simp only
  have htake : resultsArray.take (min resultsArray.length (offset.toNat + limit.toNat)) =
      resultsArray.take (offset.toNat + limit.toNat) := by
    rw [Nat.min_comm, ← List.take_eq_take_min]
  rw [hloop, List.nil_append, htake, List.drop_take, Nat.add_sub_cancel_left]
  rfl

/-! ## The attributes -/

/-- The type with all the attributes of its group. -/
def wholeType (group : TypeGroup) : TypeEntity where
  type := strField group.id
  contextAttributeVector := (group.attrs.filterMap fun a => a).map attributeOf

theorem attrsLoop_eq (attrs : List (Option AttrItem)) :
    attrsLoop attrs = (attrs.filterMap fun a => a).map attributeOf := by
  induction attrs with
  | nil => rfl
  | cons a attrs ih =>
    cases a with
    | none => simpa [attrsLoop] using ih
    | some jAttr => simpa [attrsLoop] using ih

/-- Only a null in front of an attribute does harm. -/
theorem typeEntity_eq_iff (group : TypeGroup) :
    typeEntity group = wholeType group ↔ (group.attrs.head? = some none → ∀ a ∈ group.attrs, a = none) := by
  obtain ⟨id, attrs, hne⟩ := group
  cases attrs with
  | nil => exact absurd rfl hne
  | cons first attrs =>
    cases first with
    | some jAttr => simp [typeEntity, wholeType, attrsLoop_eq]
    | none =>
      simp only [typeEntity, wholeType, List.head_cons, Option.isNone_none, Bool.not_true, Bool.false_eq_true,
        if_false, TypeEntity.mk.injEq, true_and, List.head?_cons, forall_const, List.filterMap_cons_none]
      constructor
      · intro h a ha
        rcases List.mem_cons.1 ha with rfl | ha
        · rfl
        · have hnil : (attrs.filterMap fun a => a) = [] := List.map_eq_nil_iff.1 h.symm
          exact List.filterMap_eq_nil_iff.1 hnil a ha
      · intro h
        have hnil : (attrs.filterMap fun a => a) = [] :=
          List.filterMap_eq_nil_iff.2 fun a ha => h a (List.mem_cons_of_mem _ ha)
        rw [hnil, List.map_nil]

/-- **The listing is complete** on exactly the pages where a group whose first element is null has nothing but
nulls. -/
theorem mongoEntityTypes_complete_iff (offset limit : UInt32) (detailsString : String) (resultsArray : List TypeGroup)
    (hoffset : offset.toNat < 2 ^ 31) (hlimit : limit.toNat < 2 ^ 31) :
    (mongoEntityTypes offset limit detailsString resultsArray).typeEntityVector =
        (pageOf offset limit resultsArray).map wholeType ↔
      ∀ group ∈ pageOf offset limit resultsArray, group.attrs.head? = some none → ∀ a ∈ group.attrs, a = none := by
  rw [typeEntityVector_eq hoffset hlimit, List.map_inj_left]
  constructor
  · intro h group hgroup
    exact (typeEntity_eq_iff group).1 (h group hgroup)
  · intro h group hgroup
    exact (typeEntity_eq_iff group).2 (h group hgroup)

def temperature : AttrItem := ⟨some "temperature", some "float"⟩

/-- The type of a room with a thermometer and of one without, as the set has them. -/
def rooms : TypeGroup := ⟨some "Room", [some temperature, none], by simp⟩

/-- The same, in the other order. -/
def roomsNullFirst : TypeGroup := ⟨some "Room", [none, some temperature], by simp⟩

theorem rooms_listed :
    (mongoEntityTypes 0 20 "off" [rooms]).typeEntityVector = (pageOf 0 20 [rooms]).map wholeType :=
  (mongoEntityTypes_complete_iff 0 20 "off" [rooms] (by decide) (by decide)).2 (by simp [pageOf, rooms])

/-- **The null comes first**: the type is listed without its attribute. -/
theorem null_first_lost :
    ((mongoEntityTypes 0 20 "off" [roomsNullFirst]).typeEntityVector.map fun t =>
      (t.type, t.contextAttributeVector.map ContextAttribute.name)) = [("Room", [])] ∧
    ¬ (mongoEntityTypes 0 20 "off" [roomsNullFirst]).typeEntityVector =
      (pageOf 0 20 [roomsNullFirst]).map wholeType := by
  have hlisted : ((mongoEntityTypes 0 20 "off" [roomsNullFirst]).typeEntityVector.map fun t =>
      (t.type, t.contextAttributeVector.map ContextAttribute.name)) = [("Room", [])] := by decide
  refine ⟨hlisted, ?_⟩
  intro h
  rw [h] at hlisted
  exact absurd hlisted (by decide)

end OrionBroker.EntityTypes
