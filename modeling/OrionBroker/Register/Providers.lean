import Mathlib.Data.String.Basic
import OrionBroker.Register.Query
import OrionBroker.Update.Element

/-!
# The lookup of context providers

`mongoQueryContext` (mongoQueryContext.cpp:43) and `processContextElement` (MongoCommonUpdate.cpp:1895-1936) call
`registrationsQuery` with a limit of 1 when they find no entity. The selector tests a registration as a whole,
the filter its elements one by one, and the limit cuts between the two.

* `registrationSelected_iff`: the selector on a registration; the entity and the attribute may come from
  different elements, and so may the id and the type of a pattern.
* `element_included_iff`: the filter on an element.
* `provider_found_iff`: a provider is found exactly when the first registration that is selected has one.
* `mongoQueryContext_forwards`, `notFoundResponse_forwards`: the callers pass it on.
-/

namespace OrionBroker.Register

open Mongo

/-! ## The callers -/

structure QueryContextResponse where
  contextElementResponseVector : List ContextElementResponse := []
  errorCode : StatusCode := {}
deriving Repr

/-- The first providing application. -/
def providerOf : Lookup → Option String
  | .found (crr :: _) _ => some crr.providingApplication
  | _ => none

def providerLookup (env : Env) (regcomp : Regcomp) (tenant : String) (now : Int) (enV : List EntityId)
    (attrL servicePathV : List String) (r : Registry) : Lookup × Registry :=
  registrationsQuery env regcomp tenant now enV attrL servicePathV 0 1 false r

/-- The status of a query that found no entity (mongoQueryContext.cpp:93-137); `none` when the broker dies. -/
def emptyQueryStatus (lookup : Lookup) (details : Bool) (count : Int) (offset : Nat) : Option StatusCode :=
  match lookup with
  | .crashed => none
  | _ =>
    match providerOf lookup with
    | some prApp => some ⟨.found, prApp⟩
    | none =>
      if details && decide (count > 0 ∧ (offset : Int) ≥ count) then
        some ⟨.contextElementNotFound,
          "Number of matching entities: " ++ toString count ++ ". Offset is " ++ toString offset⟩
      else some ⟨.contextElementNotFound, ""⟩

/-- mongoQueryContext.cpp:43; with `details` the entities are counted first. -/
def mongoQueryContext (env : Env) (regcomp : Regcomp) (tenant : String) (now : Int) (enV : List EntityId)
    (attrL servicePathV : List String) (offset limit : Nat) (details : Bool) (w : World) (r : Registry) :
    Option QueryContextResponse × World × Registry :=
  let count := if details then
      ((w.entities.find fun d => (entitiesSelector enV attrL servicePathV).matches env.engine d.toBson).length : Int)
    else -1
  let (o, w) := if details then w.call else (.ok, w)
  let refused := if details && !(entitiesSelector enV attrL servicePathV).compiles env.engine then
      some (env.countError (entitiesSelector enV attrL servicePathV))
    else none
  match o.writeError.or refused with
  | some what => (some { errorCode := ⟨.receiverInternalError, queryErrorText env (getEntitiesCollectionName env tenant)
      (entitiesSelector enV attrL servicePathV) what⟩ }, w, r)
  | none =>
    match entitiesQuery env tenant enV attrL true servicePathV offset limit w with
    | (.error err, w) => (some { errorCode := ⟨.receiverInternalError, err⟩ }, w, r)
    | (.ok [], w) =>
      let (lookup, r) := providerLookup env regcomp tenant now enV attrL servicePathV r
      ((emptyQueryStatus lookup details count offset).map fun code => { errorCode := code }, w, r)
    | (.ok (cer :: cers), w) =>
      (some { contextElementResponseVector := cer :: cers,
              errorCode := if details then ⟨.ok, "Count: " ++ toString count⟩ else {} }, w, r)

/-- The lookup of `processContextElement` over a registry whose database answers. -/
def withRegistrations (env : Env) (regcomp : Regcomp) (now : Int) (r : Registry) : Env :=
  { env with
    registrationsQuery := fun en attrL servicePathV =>
      match (providerLookup env regcomp "" now [en] attrL servicePathV { r with outcomes := [] }).1 with
      | .found crrV _ => .ok (crrV.map ContextRegistrationResponse.providingApplication)
      | .failed err => .error err
      | .crashed => .error "" }

/-! ## The filter -/

/-- An entity of the element is accepted as it is read, and an attribute when some are asked for. -/
def Provides (regcomp : Regcomp) (enV : List EntityId) (attrL : List String) (cr : RegElement) : Prop :=
  (∃ e ∈ cr.entities,
    includedEntity regcomp { id := cString e.id, type := strField e.type, isPattern := "false" } enV = true) ∧
    (attrL = [] ∨ ∃ a ∈ cr.attrs, cString a.name ∈ attrL)

theorem processEntity_isSome (regcomp : Regcomp) (enV : List EntityId) (e : RegEntity) :
    (processEntity regcomp enV e).isSome =
      includedEntity regcomp { id := cString e.id, type := strField e.type, isPattern := "false" } enV := by
  unfold processEntity
  simp only
  split
  · rename_i h
    rw [h]
    rfl
  · rename_i h
    rw [Bool.not_eq_true] at h
    rw [h]
    rfl

/-- The length of what a loop keeps. -/
theorem filterMap_length_pos {α β : Type} (f : α → Option β) (l : List α) :
    0 < (l.filterMap f).length ↔ ∃ x ∈ l, (f x).isSome = true := by
  rw [List.length_pos_iff_exists_mem]
  simp only [List.mem_filterMap, Option.isSome_iff_exists]
  constructor
  · rintro ⟨y, x, hx, h⟩
    exact ⟨x, hx, y, h⟩
  · rintro ⟨x, hx, y, h⟩
    exact ⟨y, x, hx, h⟩

theorem element_included_iff (regcomp : Regcomp) (enV : List EntityId) (attrL : List String) (cr : RegElement) :
    (processContextRegistrationElement regcomp enV attrL cr).isSome = true ↔ Provides regcomp enV attrL cr := by
  have hent := filterMap_length_pos (processEntity regcomp enV) cr.entities
  simp only [processEntity_isSome] at hent
  have hattr : 0 < (cr.attrs.filterMap (processAttribute attrL)).length ↔
      ∃ a ∈ cr.attrs, includedAttribute (cString a.name) attrL = true := by
    rw [filterMap_length_pos]
    refine exists_congr fun a => and_congr_right fun _ => ?_
    unfold processAttribute
    dsimp only
    split <;> simp [*]
  unfold processContextRegistrationElement Provides
  simp only [gt_iff_lt]
  rw [← hent]
  by_cases h0 : (cr.entities.filterMap (processEntity regcomp enV)).length = 0
  · simp [h0]
  · have hpos : 0 < (cr.entities.filterMap (processEntity regcomp enV)).length := by omega
    rw [if_neg h0, if_pos hpos, and_iff_right hpos]
    cases attrL with
    | nil =>
      have hor : (decide (0 < (cr.attrs.filterMap (processAttribute [])).length) ||
          ((cr.attrs.filterMap (processAttribute [])).length == 0 && ([] : List String).length == 0)) = true := by
        by_cases hz : (cr.attrs.filterMap (processAttribute [])).length = 0
        · simp [hz]
        · rw [decide_eq_true (Nat.pos_of_ne_zero hz)]
          rfl
      rw [if_pos hor]
      simp
    | cons a attrL =>
      have hinc : ∀ name, includedAttribute name (a :: attrL) = true ↔ name ∈ a :: attrL := by
        intro name
        simp [includedAttribute]
      simp only [hinc] at hattr
      rw [← hattr]
      split
      · rename_i h
        simp at h ⊢
        exact h
      · rename_i h
        simp at h ⊢
        exact h

/-! ## The selector -/

/-- The entities of all elements. -/
def RegDoc.entities (d : RegDoc) : List RegEntity := d.contextRegistration.flatMap RegElement.entities

def RegDoc.attrs (d : RegDoc) : List ContextRegistrationAttribute := d.contextRegistration.flatMap RegElement.attrs

/-- What the selector asks of the entities of a registration. -/
def NamesEntity (E : Engine) (en : EntityId) (es : List RegEntity) : Prop :=
  if isTrue en.isPattern = true then
    (∃ e ∈ es, E.regex en.id e.id = true) ∧ (en.type = "" ∨ ∃ e ∈ es, e.type = some en.type)
  else ∃ e ∈ es, e.id = en.id ∧ (en.type = "" ∨ e.type = some en.type)

/-- Unexpired and in the scope of the request. -/
structure InReach (E : Engine) (servicePathV : List String) (now : Int) (d : RegDoc) : Prop where
  expiration : now < d.expiration
  servicePath : (fillQueryServicePath servicePathV).holds E (d.toBson.at ["servicePath"]) = true

theorem reg_at_expiration (d : RegDoc) : d.toBson.at ["expiration"] = [.int d.expiration] := by
  simp [RegDoc.toBson, Bson.at, Bson.step, Bson.sub, List.lookup_cons]

theorem reg_at_contextRegistration (d : RegDoc) :
    d.toBson.step "contextRegistration" = [.arr (d.contextRegistration.map RegElement.toBson)] := by
  cases hp : d.servicePath <;> simp [RegDoc.toBson, Bson.step, Bson.sub, optField, List.lookup_cons, hp]

theorem element_sub_entities (cr : RegElement) : cr.toBson.sub "entities" = [.arr (cr.entities.map RegEntity.toBson)] := by
  simp [RegElement.toBson, Bson.sub]

theorem element_sub_attrs (cr : RegElement) :
    cr.toBson.sub "attrs" = [.arr (cr.attrs.map ContextRegistrationAttribute.toBson)] := by
  simp [RegElement.toBson, Bson.sub, List.lookup_cons]

theorem reg_at_entities (d : RegDoc) : d.toBson.at ["contextRegistration", "entities"] =
    d.contextRegistration.map fun cr => .arr (cr.entities.map RegEntity.toBson) := by
  rw [show ["contextRegistration", "entities"] = ["contextRegistration"] ++ ["entities"] from rfl, Bson.at_append,
    Bson.at_singleton, reg_at_contextRegistration, List.flatMap_singleton, Bson.at_singleton, Bson.step_arr,
    List.flatMap_map]
  simp only [element_sub_entities, ← List.map_eq_flatMap]

theorem reg_at_attrs (d : RegDoc) : d.toBson.at ["contextRegistration", "attrs"] =
    d.contextRegistration.map fun cr => .arr (cr.attrs.map ContextRegistrationAttribute.toBson) := by
  rw [show ["contextRegistration", "attrs"] = ["contextRegistration"] ++ ["attrs"] from rfl, Bson.at_append,
    Bson.at_singleton, reg_at_contextRegistration, List.flatMap_singleton, Bson.at_singleton, Bson.step_arr,
    List.flatMap_map]
  simp only [element_sub_attrs, ← List.map_eq_flatMap]

theorem entity_sub_id (e : RegEntity) : e.toBson.sub "id" = [.str e.id] := by
  cases hf : e.typeFirst <;> cases ht : e.type <;>
    simp [RegEntity.toBson, Bson.sub, optField, List.lookup_cons, hf, ht]

theorem entity_sub_type (e : RegEntity) : e.toBson.sub "type" = (e.type.map Bson.str).toList := by
  cases hf : e.typeFirst <;> cases ht : e.type <;>
    simp [RegEntity.toBson, Bson.sub, optField, List.lookup_cons, hf, ht]

/-- A path through the entities of all elements. -/
theorem reg_at_entities_field (d : RegDoc) (f : String) : d.toBson.at ["contextRegistration", "entities", f] =
    (RegDoc.entities d).flatMap fun e => e.toBson.sub f := by
  rw [show ["contextRegistration", "entities", f] = ["contextRegistration", "entities"] ++ [f] from rfl, Bson.at_append,
    reg_at_entities, List.flatMap_map, RegDoc.entities, List.flatMap_assoc]
  simp only [Bson.at_singleton, Bson.step_arr, List.flatMap_map]

theorem reg_at_attrs_name (d : RegDoc) : d.toBson.at ["contextRegistration", "attrs", "name"] =
    (RegDoc.attrs d).map fun a => .str a.name := by
  have hsub : ∀ a : ContextRegistrationAttribute, a.toBson.sub "name" = [.str a.name] := by
    intro a
    simp [ContextRegistrationAttribute.toBson, Bson.sub]
  rw [show ["contextRegistration", "attrs", "name"] = ["contextRegistration", "attrs"] ++ ["name"] from rfl,
    Bson.at_append, reg_at_attrs, List.flatMap_map, List.map_eq_flatMap, RegDoc.attrs, List.flatMap_assoc]
  simp only [Bson.at_singleton, Bson.step_arr, List.flatMap_map, hsub]

section
variable (E : Engine) (d : RegDoc)

theorem ids_regex_iff (pattern : String) :
    (Query.field ["contextRegistration", "entities", "id"] (.regex pattern)).matches E d.toBson = true ↔
      ∃ e ∈ RegDoc.entities d, E.regex pattern e.id = true := by
  simp only [Query.matches, Cond.holds, reg_at_entities_field, entity_sub_id, ← List.map_eq_flatMap, List.any_map,
    Function.comp_def, Bson.leaves, List.any_cons, List.any_nil, Bool.or_false, Bson.isStrWith, List.any_eq_true]

theorem types_iff (type : String) :
    (Query.field ["contextRegistration", "entities", "type"] (.eq (.str type))).matches E d.toBson = true ↔
      ∃ e ∈ RegDoc.entities d, e.type = some type := by
  simp only [Query.matches, Cond.holds, reg_at_entities_field, entity_sub_type, List.any_eq_true, List.mem_flatMap]
  constructor
  · rintro ⟨v, ⟨e, he, hv⟩, h⟩
    refine ⟨e, he, ?_⟩
    cases ht : e.type with
    | none => simp [ht] at hv
    | some t =>
      obtain rfl : v = .str t := by simpa [ht] using hv
      have hts : type = t := by simpa [Bson.leaves] using h
      rw [hts]
  · rintro ⟨e, he, ht⟩
    exact ⟨.str type, ⟨e, he, by simp [ht]⟩, by simp [Bson.leaves]⟩

theorem patternSelector_iff {en : EntityId} :
    (patternSelector en).matches E d.toBson = true ↔
      (∃ e ∈ RegDoc.entities d, E.regex en.id e.id = true) ∧
        (en.type = "" ∨ ∃ e ∈ RegDoc.entities d, e.type = some en.type) := by
  rw [patternSelector, Query.matches_all_iff, List.forall_mem_cons, ids_regex_iff]
  refine and_congr_right fun _ => ?_
  by_cases ht : en.type = ""
  · simp [ht]
  · rw [if_pos ht, List.forall_mem_singleton, types_iff, or_iff_right ht]

/-- An entity with its type is one of the two spellings. -/
theorem entity_toBson_iff (e : RegEntity) (id type : String) :
    (e.toBson = .obj [("id", .str id), ("type", .str type)] ∨ e.toBson = .obj [("type", .str type), ("id", .str id)]) ↔
      e.id = id ∧ e.type = some type := by
  cases hf : e.typeFirst <;> cases ht : e.type <;>
    simp [RegEntity.toBson, optField, hf, ht, and_comm]

theorem withType_iff (enV : List EntityId) :
    (Query.field ["contextRegistration", "entities"] (.isIn (entitiesWithType enV))).matches E d.toBson = true ↔
      ∃ en ∈ enV, isTrue en.isPattern = false ∧ en.type ≠ "" ∧
        ∃ e ∈ RegDoc.entities d, e.id = en.id ∧ e.type = some en.type := by
  have hin : ∀ v : Bson, (∀ xs, v ≠ .arr xs) →
      (Alt.holds E (d.toBson.at ["contextRegistration", "entities"]) (.val v) = true ↔
        ∃ e ∈ RegDoc.entities d, e.toBson = v) := by
    intro v hv
    rw [reg_at_entities]
    simp only [Alt.holds, List.any_map, Function.comp_def, List.any_eq_true, Bson.leaves, List.contains_iff_mem,
      List.mem_cons, hv, false_or, List.mem_map, RegDoc.entities, List.mem_flatMap]
    constructor
    · rintro ⟨cr, hcr, e, he, rfl⟩
      exact ⟨e, ⟨cr, hcr, he⟩, rfl⟩
    · rintro ⟨e, ⟨cr, hcr, he⟩, rfl⟩
      exact ⟨cr, hcr, e, he, rfl⟩
  simp only [Query.matches, Cond.holds, List.any_eq_true, entitiesWithType, List.mem_flatMap, List.mem_filter]
  constructor
  · rintro ⟨x, ⟨en, ⟨hen, hc⟩, hx⟩, h⟩
    rw [Bool.and_eq_true, Bool.not_eq_true', bne_iff_ne] at hc
    simp only [List.mem_cons, List.not_mem_nil, or_false] at hx
    refine ⟨en, hen, hc.1, hc.2, ?_⟩
    rcases hx with rfl | rfl
    · obtain ⟨e, he, h⟩ := (hin _ (by simp)).1 h
      exact ⟨e, he, (entity_toBson_iff e en.id en.type).1 (.inl h)⟩
    · obtain ⟨e, he, h⟩ := (hin _ (by simp)).1 h
      exact ⟨e, he, (entity_toBson_iff e en.id en.type).1 (.inr h)⟩
  · rintro ⟨en, hen, hp, ht, e, he, h⟩
    have hc : (!isTrue en.isPattern && en.type != "") = true := by simp [hp, ht]
    rcases (entity_toBson_iff e en.id en.type).2 h with h | h
    · exact ⟨_, ⟨en, ⟨hen, hc⟩, by simp⟩, (hin _ (by simp)).2 ⟨e, he, h⟩⟩
    · exact ⟨_, ⟨en, ⟨hen, hc⟩, List.mem_cons_of_mem _ (List.mem_singleton.2 rfl)⟩,
        (hin _ (by simp)).2 ⟨e, he, h⟩⟩

theorem withoutType_iff (enV : List EntityId) :
    (Query.field ["contextRegistration", "entities", "id"] (.isIn (entitiesWithoutType enV))).matches E d.toBson =
        true ↔ ∃ en ∈ enV, isTrue en.isPattern = false ∧ en.type = "" ∧ ∃ e ∈ RegDoc.entities d, e.id = en.id := by
  simp only [Query.matches, Cond.holds, reg_at_entities_field, entity_sub_id, ← List.map_eq_flatMap,
    entitiesWithoutType, List.any_map, Function.comp_def, Alt.holds, List.any_filter, List.any_eq_true,
    Bool.and_eq_true, Bool.not_eq_true', beq_iff_eq, Bson.leaves, List.contains_iff_mem, List.mem_singleton,
    Bson.str.injEq, and_assoc, @eq_comm String (EntityId.id _)]

theorem names_iff (attrL : List String) :
    (Query.field ["contextRegistration", "attrs", "name"] (.isIn (attrL.map fun a => .val (.str a)))).matches E
      d.toBson = true ↔ ∃ a ∈ RegDoc.attrs d, a.name ∈ attrL := by
  simp only [Query.matches, Cond.holds, reg_at_attrs_name, List.any_map, Function.comp_def, List.any_eq_true,
    Alt.holds, Bson.leaves, List.contains_iff_mem, List.mem_singleton, Bson.str.injEq]
  constructor
  · rintro ⟨x, hx, a, ha, rfl⟩
    exact ⟨a, ha, hx⟩
  · rintro ⟨a, ha, hx⟩
    exact ⟨_, hx, a, ha, rfl⟩

theorem entityOr_iff (enV : List EntityId) :
    (Query.any (entityOr enV)).matches E d.toBson = true ↔ ∃ en ∈ enV, NamesEntity E en (RegDoc.entities d) := by
  rw [Query.matches_any_iff, entityOr]
  simp only [List.mem_append, or_and_right, exists_or, List.exists_mem_cons_iff, List.not_mem_nil, false_and, exists_false, or_false,
    withType_iff, withoutType_iff, List.mem_map, List.mem_filter]
  constructor
  · rintro (⟨q, ⟨en, ⟨hen, hp⟩, rfl⟩, h⟩ | ⟨en, hen, hp, _, e, he, hid, hty⟩ | ⟨en, hen, hp, ht, e, he, hid⟩)
    · refine ⟨en, hen, ?_⟩
      rw [NamesEntity, if_pos hp]
      exact (patternSelector_iff E d).1 h
    · refine ⟨en, hen, ?_⟩
      rw [NamesEntity, if_neg (by simp [hp])]
      exact ⟨e, he, hid, .inr hty⟩
    · refine ⟨en, hen, ?_⟩
      rw [NamesEntity, if_neg (by simp [hp])]
      exact ⟨e, he, hid, .inl ht⟩
  · rintro ⟨en, hen, h⟩
    unfold NamesEntity at h
    split at h
    · rename_i hp
      exact .inl ⟨_, ⟨en, ⟨hen, hp⟩, rfl⟩, (patternSelector_iff E d).2 h⟩
    · rename_i hp
      rw [Bool.not_eq_true] at hp
      obtain ⟨e, he, hid, hty⟩ := h
      by_cases ht : en.type = ""
      · exact .inr (.inr ⟨en, hen, hp, ht, e, he, hid⟩)
      · exact .inr (.inl ⟨en, hen, hp, ht, e, he, hid, hty.resolve_left ht⟩)

end

/-- What the selector takes: unexpired, in scope, with an entity and an attribute somewhere. -/
structure Selected (E : Engine) (enV : List EntityId) (attrL servicePathV : List String) (now : Int) (d : RegDoc) :
    Prop where
  reach : InReach E servicePathV now d
  entity : ∃ en ∈ enV, NamesEntity E en (RegDoc.entities d)
  attr : attrL = [] ∨ ∃ a ∈ RegDoc.attrs d, a.name ∈ attrL

/-- **The selector** on a registration. -/
theorem registrationSelected_iff (E : Engine) (enV : List EntityId) (attrL servicePathV : List String) (now : Int)
    (d : RegDoc) :
    (registrationsSelector enV attrL servicePathV now).matches E d.toBson = true ↔
      Selected E enV attrL servicePathV now d := by
  have hexp : (Query.field ["expiration"] (.gt now)).matches E d.toBson = true ↔ now < d.expiration := by
    simp [Cond.holds, reg_at_expiration, Bson.leaves, Bson.isIntWith]
  have hpath : (Query.field ["servicePath"] (fillQueryServicePath servicePathV)).matches E d.toBson =
      (fillQueryServicePath servicePathV).holds E (d.toBson.at ["servicePath"]) := by rw [Query.matches]
  have hattr : (∀ q ∈ (if attrL.length > 0 then
      [Query.field ["contextRegistration", "attrs", "name"] (.isIn (attrL.map fun a => .val (.str a)))] else []),
        q.matches E d.toBson = true) ↔ attrL = [] ∨ ∃ a ∈ RegDoc.attrs d, a.name ∈ attrL := by
    cases attrL with
    | nil => simp
    | cons a attrL =>
      rw [if_pos (by simp), List.forall_mem_singleton, names_iff, or_iff_right (by simp)]
  rw [registrationsSelector, Query.matches_all_iff, List.forall_mem_append, List.forall_mem_append, hattr]
  simp only [List.forall_mem_cons, List.not_mem_nil, false_imp_iff, implies_true, and_true, entityOr_iff, hexp, hpath]
  constructor
  · rintro ⟨⟨⟨he, hx⟩, ha⟩, hp⟩
    exact ⟨⟨hx, hp⟩, he, ha⟩
  · rintro ⟨⟨hx, hp⟩, he, ha⟩
    exact ⟨⟨⟨he, hx⟩, ha⟩, hp⟩

/-! ## The lookup -/

/-- The registration with the smallest id among those selected. -/
def FirstSelected (E : Engine) (enV : List EntityId) (attrL servicePathV : List String) (now : Int)
    (docs : List RegDoc) (d : RegDoc) : Prop :=
  (d ∈ docs ∧ Selected E enV attrL servicePathV now d) ∧
    ∀ d' ∈ docs, Selected E enV attrL servicePathV now d' → d.oid ≤ d'.oid

theorem mem_registrationsFound {env : Env} {r : Registry} {enV : List EntityId} {attrL servicePathV : List String}
    {now : Int} {d : RegDoc} :
    d ∈ registrationsFound env r enV attrL servicePathV now ↔
      d ∈ r.registrations.docs ∧ Selected env.engine enV attrL servicePathV now d := by
  rw [registrationsFound, Collection.mem_find, registrationSelected_iff]

/-- With a limit of 1 the cursor shows the first registration. -/
theorem mem_registrationsFind_one {env : Env} {r : Registry} {enV : List EntityId} {attrL servicePathV : List String}
    {now : Int} {d : RegDoc} :
    d ∈ registrationsFind env r enV attrL servicePathV now 0 1 ↔
      FirstSelected env.engine enV attrL servicePathV now r.registrations.docs d := by
  have hn : ((registrationsFound env r enV attrL servicePathV now).map RegDoc.oid).Nodup :=
    r.registrations.find_nodup _
  have hleast : (registrationsFound env r enV attrL servicePathV now).countP (fun x => decide (x.oid < d.oid)) = 0 ↔
      ∀ d' ∈ r.registrations.docs, Selected env.engine enV attrL servicePathV now d' → d.oid ≤ d'.oid := by
    rw [List.countP_eq_zero]
    simp only [mem_registrationsFound, decide_eq_true_eq, not_lt, and_imp]
  rw [registrationsFind, mem_page_iff, FirstSelected, ← mem_registrationsFound, ← hleast]
  constructor
  · rintro ⟨i, hi, _, hl⟩
    obtain rfl : i = 0 := by omega
    obtain ⟨hd, h0⟩ := (getElem?_insertionSort_iff hn).1 hi
    exact ⟨hd, h0.symm⟩
  · rintro ⟨hd, h0⟩
    exact ⟨0, (getElem?_insertionSort_iff hn).2 ⟨hd, h0.symm⟩, le_refl 0, .inr (by omega)⟩

theorem registrationsAnswer_ne_nil (regcomp : Regcomp) (enV : List EntityId) (attrL : List String)
    (docs : List RegDoc) :
    registrationsAnswer regcomp enV attrL docs ≠ [] ↔
      ∃ d ∈ docs, ∃ cr ∈ d.contextRegistration, Provides regcomp enV attrL cr := by
  rw [← List.length_pos_iff, registrationsAnswer, List.length_pos_iff_exists_mem]
  simp only [List.mem_flatMap, List.mem_filterMap, ← element_included_iff, Option.isSome_iff_exists]
  constructor
  · rintro ⟨crr, d, hd, cr, hcr, h⟩
    exact ⟨d, hd, cr, hcr, crr, h⟩
  · rintro ⟨d, hd, cr, hcr, crr, h⟩
    exact ⟨crr, d, hd, cr, hcr, h⟩

theorem providerLookup_found {env : Env} {regcomp : Regcomp} {tenant : String} {now : Int} {enV : List EntityId}
    {attrL servicePathV : List String} {r : Registry} {crrV : List ContextRegistrationResponse} {count : Int}
    (h : (providerLookup env regcomp tenant now enV attrL servicePathV r).1 = .found crrV count) :
    crrV = registrationsAnswer regcomp enV attrL (registrationsFind env r enV attrL servicePathV now 0 1) := by
  unfold providerLookup registrationsQuery registrationsCursor at h
  simp only [Bool.false_eq_true, if_false] at h
  split at h
  · cases h
    rfl
  · cases h
  · cases h
  · cases h

/-- The lookup answers a provider exactly when the first selected registration has one. -/
theorem providerLookup_ne_nil_iff {env : Env} {regcomp : Regcomp} {tenant : String} {now : Int} {enV : List EntityId}
    {attrL servicePathV : List String} {r : Registry} {crrV : List ContextRegistrationResponse} {count : Int}
    (h : (providerLookup env regcomp tenant now enV attrL servicePathV r).1 = .found crrV count) :
    crrV ≠ [] ↔ ∃ d, FirstSelected env.engine enV attrL servicePathV now r.registrations.docs d ∧
      ∃ cr ∈ d.contextRegistration, Provides regcomp enV attrL cr := by
  rw [providerLookup_found h, registrationsAnswer_ne_nil]
  simp only [mem_registrationsFind_one]

/-- **Completeness of the lookup**, exactly: for every registrations collection and every list of entities and
attributes, a provider in an unexpired registration in scope makes the answer of the lookup non-empty if and
only if, when there is such a provider, the first of the registrations that are selected as a whole has one. -/
theorem provider_found_iff {env : Env} {regcomp : Regcomp} {tenant : String} {now : Int} {enV : List EntityId}
    {attrL servicePathV : List String} {r : Registry} {crrV : List ContextRegistrationResponse} {count : Int}
    (h : (providerLookup env regcomp tenant now enV attrL servicePathV r).1 = .found crrV count) :
    ((∃ d ∈ r.registrations.docs, InReach env.engine servicePathV now d ∧
        ∃ cr ∈ d.contextRegistration, Provides regcomp enV attrL cr) → crrV ≠ []) ↔
    ∀ d ∈ r.registrations.docs, InReach env.engine servicePathV now d →
      (∃ cr ∈ d.contextRegistration, Provides regcomp enV attrL cr) →
      ∃ d', FirstSelected env.engine enV attrL servicePathV now r.registrations.docs d' ∧
        ∃ cr ∈ d'.contextRegistration, Provides regcomp enV attrL cr := by
  rw [providerLookup_ne_nil_iff h]
  constructor
  · intro hc d hd hr hp
    exact hc ⟨d, hd, hr, hp⟩
  · rintro hc ⟨d, hd, hr, hp⟩
    exact hc d hd hr hp

/-! ## The callers pass the provider on -/

theorem mongoQueryContext_forwards {env : Env} {regcomp : Regcomp} {tenant : String} {now : Int} {enV : List EntityId}
    {attrL servicePathV : List String} {offset limit : Nat} {w w' : World} {r : Registry}
    (hw : entitiesQuery env tenant enV attrL true servicePathV offset limit w = (.ok [], w'))
    {crr : ContextRegistrationResponse} {crrV : List ContextRegistrationResponse} {count : Int}
    (h : (providerLookup env regcomp tenant now enV attrL servicePathV r).1 = .found (crr :: crrV) count) :
    (mongoQueryContext env regcomp tenant now enV attrL servicePathV offset limit false w r).1 =
      some { errorCode := ⟨.found, crr.providingApplication⟩ } := by
  simp [mongoQueryContext, hw, h, Outcome.writeError, emptyQueryStatus, providerOf]

theorem notFoundResponse_forwards {env : Env} {regcomp : Regcomp} {now : Int} {r : Registry} {ctx : Ctx}
    {ce : ContextElement} {crr : ContextRegistrationResponse} {crrV : List ContextRegistrationResponse} {count : Int}
    (h : (providerLookup env regcomp "" now [ce.entityId] (ce.contextAttributeVector.map ContextAttribute.name)
      ctx.servicePathV { r with outcomes := [] }).1 = .found (crr :: crrV) count) :
    notFoundResponse (withRegistrations env regcomp now r) ctx ce =
      buildGeneralErrorResponse ce ce.contextAttributeVector .found crr.providingApplication := by
  simp [notFoundResponse, withRegistrations, h]

/-! ## Two registrations -/

/-- An element for one entity of type `T` and one attribute. -/
def oneAttr (id name app : String) : RegElement where
  entities := [{ id := id, type := some "T" }]
  attrs := [{ name := name }]
  providingApplication := app

/-- Attribute `t` of `Room`, in one element. -/
def roomDoc : RegDoc := { oid := "r2", expiration := 10, contextRegistration := [oneAttr "Room" "t" "http://p2"] }

/-- Attribute `a` of `Room`, and attribute `t` of `Door`. -/
def spreadDoc : RegDoc where
  oid := "r1"
  expiration := 10
  contextRegistration := [oneAttr "Room" "a" "http://p1", oneAttr "Door" "t" "http://p1"]

/-- Who provides `t` of `Room`. -/
def roomLookup (docs : Collection RegDoc String RegDoc.oid) : Lookup :=
  (providerLookup (Env.plain fun _ _ => false) (fun _ => none) "" 0 [{ id := "Room", type := "T", isPattern := "false" }]
    ["t"] [] { registrations := docs }).1

theorem roomDoc_provides :
    ∃ cr ∈ roomDoc.contextRegistration, Provides (fun _ => none) [{ id := "Room", type := "T", isPattern := "false" }]
      ["t"] cr :=
  ⟨_, List.mem_singleton.2 rfl, ⟨_, List.mem_singleton.2 rfl, by decide⟩,
    .inr ⟨_, List.mem_singleton.2 rfl, by decide⟩⟩

theorem roomDoc_inReach : InReach (Env.plain fun _ _ => false).engine [] 0 roomDoc := ⟨by decide, by decide⟩

theorem roomDoc_found :
    ∃ crrV count, roomLookup ⟨[roomDoc], by decide⟩ = .found crrV count ∧ crrV ≠ [] := by
  have h : roomLookup ⟨[roomDoc], by decide⟩ = .found [⟨[{ id := "Room", type := "T", isPattern := "false" }],
      [{ name := "t" }], "http://p2"⟩] (-1) := by decide +kernel
  refine ⟨_, _, h, (provider_found_iff h).2 ?_ ⟨roomDoc, List.mem_singleton.2 rfl, roomDoc_inReach, roomDoc_provides⟩⟩
  intro d hd _ hp
  obtain rfl := List.mem_singleton.1 hd
  refine ⟨roomDoc, ⟨⟨List.mem_singleton.2 rfl, ?_⟩, ?_⟩, hp⟩
  · rw [← registrationSelected_iff]
    decide +kernel
  · intro d' hd' _
    rw [List.mem_singleton.1 hd']

/-- **Missed**: the registration `r1` is selected for its two elements together and passes with neither; `r2` is
behind the limit. -/
theorem roomDoc_behind_limit :
    (roomDoc ∈ [spreadDoc, roomDoc] ∧ InReach (Env.plain fun _ _ => false).engine [] 0 roomDoc ∧
      ∃ cr ∈ roomDoc.contextRegistration, Provides (fun _ => none)
        [{ id := "Room", type := "T", isPattern := "false" }] ["t"] cr) ∧
    roomLookup ⟨[spreadDoc, roomDoc], by decide⟩ = .found [] (-1) :=
  ⟨⟨by simp, roomDoc_inReach, roomDoc_provides⟩, by decide +kernel⟩

end OrionBroker.Register
