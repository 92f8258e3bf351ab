import Mathlib.Data.String.Basic
import OrionBroker.Register.Trace

/-!
# Discovery of associations (mongoDiscoverContextAvailability.cpp:46-171)

`associationsQuery` asked for the targets of an association finds its sources (scope `SOURCES`) and the other
way round (`TARGETS`). Its selector spells the asked entity with both fields, while `processAssociations`
leaves an empty type out: `{id: e, type: ""}` is not `{id: e}`.

* `stored_of_processAssociations`: what a registration stores, and later ones keep.
* `selected_iff`: which stored associations the selector takes.
* `association_found_iff`: an association is found from an end of it exactly when that end has a type, none of its
  strings has a NUL and its place in the order of names is on the page; or another one that reads alike is.
-/

namespace OrionBroker.Register

open Mongo

def SCOPE_VALUE_ASSOC_SOURCE : String := "SOURCES"
def SCOPE_VALUE_ASSOC_TARGET : String := "TARGETS"

/-! ## The query -/

def entField (scope : String) : String := if scope = SCOPE_VALUE_ASSOC_SOURCE then "tgtEnt" else "srcEnt"

def attrField (scope : String) : String := if scope = SCOPE_VALUE_ASSOC_SOURCE then "tgt" else "src"

def associationsSelector (enV : List EntityId) (attrL : List String) (scope : String) : Query :=
  .all (.field [entField scope] (.isIn (enV.map fun en => .val (.obj [("id", .str en.id), ("type", .str en.type)]))) ::
    (if attrL.length ≠ 0 then [.field ["attrs", attrField scope] (.isIn (attrL.map fun a => .val (.str a)))] else []))

def associationsFound (env : Env) (enV : List EntityId) (attrL : List String) (scope : String) (r : Registry) :
    List AssocDoc :=
  r.associations.find fun d => (associationsSelector enV attrL scope).matches env.engine d.toBson

def readEnt (e : AssocEnt) : EntityId := { id := cString e.id, type := strField e.type, isPattern := "false" }

/-- The metadata item of a document. -/
def associationMetadata (d : AssocDoc) : RegistrationMetadata where
  name := cString d.name
  type := "Association"
  association := ⟨readEnt d.srcEnt, readEnt d.tgtEnt, d.attrs.map fun a => ⟨cString a.source, cString a.target⟩⟩

def associationsQuery (env : Env) (tenant : String) (enV : List EntityId) (attrL : List String) (scope : String)
    (offset limit : Nat) (r : Registry) : Except String (List RegistrationMetadata) × Registry :=
  let (o, r') := r.call
  match o.queryError with
  | some what => (.error (queryErrorText env (getAssociationsCollectionName env tenant)
      (associationsSelector enV attrL scope) what), r')
  | none => (.ok ((page offset limit ((associationsFound env enV attrL scope r).insertionSort
      fun a b => a.name ≤ b.name)).map associationMetadata), r')

/-! ## What is stored -/

theorem mem_of_adds {r r' : Registry} (h : Adds r r') {d : AssocDoc} (hd : d ∈ r.associations.docs) :
    d ∈ r'.associations.docs := h.associations.subset hd

/-- A registration that succeeds has stored all its associations. -/
theorem stored_of_processAssociations : ∀ {mdV : List RegistrationMetadata} {r r' : Registry},
    processAssociations mdV r = (.ok (), r') → ∀ md ∈ mdV, md.type = "Association" →
      assocDoc md ∈ r'.associations.docs
  | [], _, _, _, md, hm, _ => by cases hm
  | md' :: mdV, r, r', h, md, hm, ht => by
    rw [processAssociations] at h
    split at h
    · rename_i hne
      rcases List.mem_cons.1 hm with rfl | hm
      · exact absurd ht hne
      · exact stored_of_processAssociations h md hm ht
    · by_cases hi : InsertFails r 0 (assocDoc md').name
      · obtain ⟨err, e⟩ := insertAssociation_fails hi
        rw [e] at h
        cases h
      · obtain ⟨c, e, hc⟩ := insertAssociation_stores hi
        rw [e] at h
        change processAssociations mdV { r.call.2 with associations := c } = (.ok (), r') at h
        rcases List.mem_cons.1 hm with rfl | hm
        · have hadds := processAssociations_adds mdV { r.call.2 with associations := c }
          rw [h] at hadds
          apply mem_of_adds hadds
          rw [hc]
          simp
        · exact stored_of_processAssociations h md hm ht

/-! ## What is selected -/

/-- The end of the association that is asked for. -/
def askedEnd (scope : String) (a : Association) : EntityId :=
  if scope = SCOPE_VALUE_ASSOC_SOURCE then a.target else a.source

def askedAttr (scope : String) (a : AttributeAssociation) : String :=
  if scope = SCOPE_VALUE_ASSOC_SOURCE then a.target else a.source

theorem at_ent (md : RegistrationMetadata) (scope : String) :
    (assocDoc md).toBson.at [entField scope] = [(assocEnt (askedEnd scope md.association)).toBson] := by
  by_cases hs : scope = SCOPE_VALUE_ASSOC_SOURCE <;>
    simp [entField, askedEnd, hs, assocDoc, AssocDoc.toBson, Bson.at, Bson.step, Bson.sub, List.lookup_cons]

theorem at_attr (md : RegistrationMetadata) (scope : String) :
    (assocDoc md).toBson.at ["attrs", attrField scope] =
      md.association.attributeAssociationList.map fun a => .str (askedAttr scope a) := by
  have hstep : (assocDoc md).toBson.at ["attrs", attrField scope] =
      (md.association.attributeAssociationList.map AttributeAssociation.toBson).flatMap (Bson.sub (attrField scope)) := by
    simp [assocDoc, AssocDoc.toBson, Bson.at, Bson.step, Bson.sub, List.lookup_cons, List.flatMap_singleton']
  have hsub : ∀ a : AttributeAssociation, Bson.sub (attrField scope) a.toBson = [.str (askedAttr scope a)] := by
    intro a
    by_cases hs : scope = SCOPE_VALUE_ASSOC_SOURCE <;>
      simp [attrField, askedAttr, hs, AttributeAssociation.toBson, Bson.sub, List.lookup_cons]
  rw [hstep, List.flatMap_map]
  simp only [hsub, ← List.map_eq_flatMap]

/-- The asked entity is spelled with its type, the stored one without an empty one. -/
theorem assocEnt_eq_iff (en e : EntityId) :
    (assocEnt e).toBson = .obj [("id", .str en.id), ("type", .str en.type)] ↔
      e.type ≠ "" ∧ en.id = e.id ∧ en.type = e.type := by
  by_cases ht : e.type = ""
  · simp [assocEnt, AssocEnt.toBson, optField, ht]
  · simp [assocEnt, AssocEnt.toBson, optField, ht, eq_comm]

theorem ent_matches_iff (E : Engine) (md : RegistrationMetadata) (scope : String) (enV : List EntityId) :
    (Query.field [entField scope] (.isIn (enV.map fun en =>
      .val (.obj [("id", .str en.id), ("type", .str en.type)])))).matches E (assocDoc md).toBson = true ↔
      (askedEnd scope md.association).type ≠ "" ∧
        ∃ en ∈ enV, en.id = (askedEnd scope md.association).id ∧ en.type = (askedEnd scope md.association).type := by
  have hl : ∀ e : AssocEnt, e.toBson.leaves = [e.toBson] := fun _ => rfl
  simp only [Query.matches, Cond.holds, at_ent, List.any_map, Function.comp_def, List.any_eq_true, Alt.holds, hl,
    List.any_cons, List.any_nil, Bool.or_false, List.contains_iff_mem, List.mem_singleton]
  constructor
  · rintro ⟨en, hm, h⟩
    obtain ⟨ht, h⟩ := (assocEnt_eq_iff en _).1 h.symm
    exact ⟨ht, en, hm, h⟩
  · rintro ⟨ht, en, hm, h⟩
    exact ⟨en, hm, ((assocEnt_eq_iff en _).2 ⟨ht, h⟩).symm⟩

theorem attr_matches_iff (E : Engine) (md : RegistrationMetadata) (scope : String) (attrL : List String) :
    (Query.field ["attrs", attrField scope] (.isIn (attrL.map fun a => .val (.str a)))).matches E
      (assocDoc md).toBson = true ↔
      ∃ a ∈ md.association.attributeAssociationList, askedAttr scope a ∈ attrL := by
  have hl : ∀ s : String, (Bson.str s).leaves = [.str s] := fun _ => rfl
  simp only [Query.matches, Cond.holds, at_attr, List.any_map, Function.comp_def, List.any_eq_true, Alt.holds, hl,
    List.contains_iff_mem, List.mem_singleton, Bson.str.injEq]
  constructor
  · rintro ⟨x, hx, a, ha, rfl⟩
    exact ⟨a, ha, hx⟩
  · rintro ⟨a, ha, hx⟩
    exact ⟨_, hx, a, ha, rfl⟩

/-- **The selector** on a stored association. -/
theorem selected_iff (E : Engine) (md : RegistrationMetadata) (scope : String) (enV : List EntityId)
    (attrL : List String) :
    (associationsSelector enV attrL scope).matches E (assocDoc md).toBson = true ↔
      ((askedEnd scope md.association).type ≠ "" ∧
        ∃ en ∈ enV, en.id = (askedEnd scope md.association).id ∧ en.type = (askedEnd scope md.association).type) ∧
      (attrL = [] ∨ ∃ a ∈ md.association.attributeAssociationList, askedAttr scope a ∈ attrL) := by
  rw [associationsSelector, Query.matches_all_iff, List.forall_mem_cons, ent_matches_iff]
  refine and_congr_right fun _ => ?_
  cases attrL with
  | nil => simp
  | cons a attrL =>
    rw [if_pos (by simp), List.forall_mem_singleton, attr_matches_iff]
    simp

/-! ## The answer -/

/-- The item of the answer is the association that was registered. -/
structure SameAssociation (item md : RegistrationMetadata) : Prop where
  name : item.name = md.name
  sourceId : item.association.source.id = md.association.source.id
  sourceType : item.association.source.type = md.association.source.type
  targetId : item.association.target.id = md.association.target.id
  targetType : item.association.target.type = md.association.target.type
  attributes : item.association.attributeAssociationList = md.association.attributeAssociationList

/-- No string of the association has a NUL. -/
structure WholeAssociation (md : RegistrationMetadata) : Prop where
  name : NoNul md.name
  sourceId : NoNul md.association.source.id
  sourceType : NoNul md.association.source.type
  targetId : NoNul md.association.target.id
  targetType : NoNul md.association.target.type
  attributes : ∀ a ∈ md.association.attributeAssociationList, NoNul a.source ∧ NoNul a.target

theorem readEnt_assocEnt (en : EntityId) :
    (readEnt (assocEnt en)).id = cString en.id ∧ (readEnt (assocEnt en)).type = cString en.type := by
  by_cases ht : en.type = "" <;> simp [readEnt, assocEnt, ht, cString_empty]

theorem readPairs_iff (l : List AttributeAssociation) :
    (l.map fun a => (⟨cString a.source, cString a.target⟩ : AttributeAssociation)) = l ↔
      ∀ a ∈ l, NoNul a.source ∧ NoNul a.target := by
  have hone : ∀ a : AttributeAssociation, (⟨cString a.source, cString a.target⟩ : AttributeAssociation) = a ↔
      NoNul a.source ∧ NoNul a.target := by
    rintro ⟨source, target⟩
    rw [AttributeAssociation.mk.injEq, cString_eq_iff, cString_eq_iff]
  induction l with
  | nil => simp
  | cons a l ih =>
    rw [List.map_cons, List.cons.injEq, hone, List.forall_mem_cons]
    exact and_congr_right fun _ => ih

theorem associationMetadata_assocDoc (md : RegistrationMetadata) :
    SameAssociation (associationMetadata (assocDoc md)) md ↔ WholeAssociation md := by
  have hsource := readEnt_assocEnt md.association.source
  have htarget := readEnt_assocEnt md.association.target
  constructor
  · intro h
    exact {
      name := (cString_eq_iff _).1 h.name
      sourceId := (cString_eq_iff _).1 (hsource.1.symm.trans h.sourceId)
      sourceType := (cString_eq_iff _).1 (hsource.2.symm.trans h.sourceType)
      targetId := (cString_eq_iff _).1 (htarget.1.symm.trans h.targetId)
      targetType := (cString_eq_iff _).1 (htarget.2.symm.trans h.targetType)
      attributes := (readPairs_iff _).1 h.attributes }
  · intro h
    exact {
      name := h.name.cString
      sourceId := hsource.1.trans h.sourceId.cString
      sourceType := hsource.2.trans h.sourceType.cString
      targetId := htarget.1.trans h.targetId.cString
      targetType := htarget.2.trans h.targetType.cString
      attributes := (readPairs_iff _).2 h.attributes }

/-- The place of a name among the selected associations falls into the page. -/
def OnPage (selected : List AssocDoc) (offset limit : Nat) (name : String) : Prop :=
  offset ≤ selected.countP (fun d => decide (d.name < name)) ∧
    (limit = 0 ∨ selected.countP (fun d => decide (d.name < name)) < offset + limit)

theorem mem_sortedPage_iff {selected : List AssocDoc} (hn : (selected.map AssocDoc.name).Nodup) {offset limit : Nat}
    {d : AssocDoc} : d ∈ page offset limit (selected.insertionSort fun a b => a.name ≤ b.name) ↔
      d ∈ selected ∧ OnPage selected offset limit d.name := by
  rw [mem_page_iff]
  constructor
  · rintro ⟨i, hi, ho, hl⟩
    obtain ⟨hf, rfl⟩ := (getElem?_insertionSort_iff hn).1 hi
    exact ⟨hf, ho, hl⟩
  · rintro ⟨hf, ho, hl⟩
    exact ⟨_, (getElem?_insertionSort_iff hn).2 ⟨hf, rfl⟩, ho, hl⟩

theorem associationsQuery_ok {env : Env} {tenant : String} {enV : List EntityId} {attrL : List String} {scope : String}
    {offset limit : Nat} {r : Registry} {found : List RegistrationMetadata}
    (h : (associationsQuery env tenant enV attrL scope offset limit r).1 = .ok found) :
    found = (page offset limit ((associationsFound env enV attrL scope r).insertionSort
      fun a b => a.name ≤ b.name)).map associationMetadata := by
  unfold associationsQuery at h
  simp only at h
  split at h
  · cases h
  · cases h
    rfl

/-- **Associations are found again**, exactly: for every association that a registration has stored (whatever
was registered after it) and both scopes, a query that asks for its end with the same id and type, and for no
attribute or an associated one, answers the association if and only if that end has a type, no string of the association
has a NUL and its place among the selected associations falls into the page, or another one that reads as this
association is selected, with its place on the page. -/
theorem association_found_iff {env : Env} {tenant : String} {mdV : List RegistrationMetadata} {r₀ r₁ r : Registry}
    {md : RegistrationMetadata} (h : processAssociations mdV r₀ = (.ok (), r₁)) (hm : md ∈ mdV)
    (ht : md.type = "Association") (ha : Adds r₁ r) {scope : String} {enV : List EntityId} {attrL : List String}
    (hen : ∃ en ∈ enV, en.id = (askedEnd scope md.association).id ∧ en.type = (askedEnd scope md.association).type)
    (hat : attrL = [] ∨ ∃ a ∈ md.association.attributeAssociationList, askedAttr scope a ∈ attrL)
    {offset limit : Nat} {found : List RegistrationMetadata}
    (hq : (associationsQuery env tenant enV attrL scope offset limit r).1 = .ok found) :
    (∃ item ∈ found, SameAssociation item md) ↔
      ((askedEnd scope md.association).type ≠ "" ∧ WholeAssociation md ∧
        OnPage (associationsFound env enV attrL scope r) offset limit md.name) ∨
      ∃ d ∈ associationsFound env enV attrL scope r, d.name ≠ md.name ∧ SameAssociation (associationMetadata d) md ∧
        OnPage (associationsFound env enV attrL scope r) offset limit d.name := by
  have hd : assocDoc md ∈ r.associations.docs := mem_of_adds ha (stored_of_processAssociations h md hm ht)
  have hn : ((associationsFound env enV attrL scope r).map AssocDoc.name).Nodup := r.associations.find_nodup _
  have hsel : assocDoc md ∈ associationsFound env enV attrL scope r ↔ (askedEnd scope md.association).type ≠ "" := by
    rw [associationsFound, Collection.mem_find, selected_iff]
    constructor
    · rintro ⟨_, ⟨hty, _⟩, _⟩
      exact hty
    · intro hty
      exact ⟨hd, ⟨hty, hen⟩, hat⟩
  rw [associationsQuery_ok hq]
  constructor
  · rintro ⟨item, hi, hsame⟩
    obtain ⟨d, hdp, rfl⟩ := List.mem_map.1 hi
    obtain ⟨hdf, hpage⟩ := (mem_sortedPage_iff hn).1 hdp
    by_cases hname : d.name = md.name
    · -- the names are the keys, so this is its own document
      obtain rfl := r.associations.eq_of_key hd (Collection.mem_find.1 hdf).1 hname.symm
      exact .inl ⟨hsel.1 hdf, (associationMetadata_assocDoc md).1 hsame, hpage⟩
    · exact .inr ⟨d, hdf, hname, hsame, hpage⟩
  · rintro (⟨hty, hwhole, hpage⟩ | ⟨d, hdf, _, hsame, hpage⟩)
    · exact ⟨_, List.mem_map_of_mem ((mem_sortedPage_iff hn).2 ⟨hsel.2 hty, hpage⟩),
        (associationMetadata_assocDoc md).2 hwhole⟩
    · exact ⟨_, List.mem_map_of_mem ((mem_sortedPage_iff hn).2 ⟨hdf, hpage⟩), hsame⟩

/-- The association of `Room` and `Door`, of the given types. -/
def roomDoor (sourceType targetType : String) : RegistrationMetadata :=
  ⟨"a1", "Association", "", { id := "Room", type := sourceType }, { id := "Door", type := targetType }, [⟨"t", "u"⟩]⟩

/-- After its registration, the sources of `Door` for `u`. -/
def sourcesOfDoor (sourceType targetType : String) : Except String (List RegistrationMetadata) :=
  (associationsQuery (Env.plain fun _ _ => false) "" [{ id := "Door", type := targetType }] ["u"]
    SCOPE_VALUE_ASSOC_SOURCE 0 20 (processAssociations [roomDoor sourceType targetType] {}).2).1

theorem typedDoor_found :
    sourcesOfDoor "" "T" = .ok [⟨"a1", "Association", "", { id := "Room", isPattern := "false" },
      { id := "Door", type := "T", isPattern := "false" }, [⟨"t", "u"⟩]⟩] ∧
    ∃ item ∈ [(⟨"a1", "Association", "", { id := "Room", isPattern := "false" },
      { id := "Door", type := "T", isPattern := "false" }, [⟨"t", "u"⟩]⟩ : RegistrationMetadata)],
      SameAssociation item (roomDoor "" "T") := by
  have h : processAssociations [roomDoor "" "T"] {} = (.ok (), (processAssociations [roomDoor "" "T"] {}).2) := rfl
  have hq : sourcesOfDoor "" "T" = .ok [⟨"a1", "Association", "", { id := "Room", isPattern := "false" },
      { id := "Door", type := "T", isPattern := "false" }, [⟨"t", "u"⟩]⟩] := rfl
  have hen : ∃ en ∈ [({ id := "Door", type := "T" } : EntityId)],
      en.id = (askedEnd SCOPE_VALUE_ASSOC_SOURCE (roomDoor "" "T").association).id ∧
      en.type = (askedEnd SCOPE_VALUE_ASSOC_SOURCE (roomDoor "" "T").association).type :=
    ⟨_, List.mem_singleton.2 rfl, rfl, rfl⟩
  have hat : (["u"] : List String) = [] ∨ ∃ a ∈ (roomDoor "" "T").association.attributeAssociationList,
      askedAttr SCOPE_VALUE_ASSOC_SOURCE a ∈ ["u"] :=
    .inr ⟨⟨"t", "u"⟩, List.mem_singleton.2 rfl, List.mem_singleton.2 rfl⟩
  refine ⟨hq, ?_⟩
  exact (association_found_iff h (List.mem_singleton.2 rfl) rfl (.refl _) hen hat hq).2
    (.inl ⟨by decide, ⟨by decide, by decide, by decide, by decide, by decide, by decide⟩, by decide, by decide⟩)

/-- **Lost**: the same association with an untyped `Door`, asked for with the same empty type. -/
theorem untypedDoor_not_found :
    (processAssociations [roomDoor "T" ""] {}).1.toOption = some () ∧
    sourcesOfDoor "T" "" = .ok [] :=
  ⟨rfl, by decide +kernel⟩

end OrionBroker.Register
