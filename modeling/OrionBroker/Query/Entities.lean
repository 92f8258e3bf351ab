import Mathlib.Data.List.Sort
import OrionBroker.Store.World
import OrionBroker.Common.ServicePath

/-!
# `entitiesQuery` (MongoGlobal.cpp:689-1276)

| here | there |
| --- | --- |
| `fillQueryEntity`       | `fillQueryEntity` (:689) |
| `fillQueryServicePath`  | `fillQueryServicePath` (:730) |
| `nodeOfBson`, `compoundObjectResponse`, `compoundVectorResponse` | `addCompoundNode` and the two response builders (:789-850) |
| `entitiesSelector`      | the final query (:1007-1033); the scopes of the restriction are left out |
| `entitiesCursor`        | the cursor: `sort({creDate: 1})`, `skip(offset)`, `limit(limit)` |
| `entitiesAnswer`        | what it goes through: documents, or the `$err` document |
| `contextAttributeOf`, `contextElementResponseOf` | the decoding loop (:1165-1270) |
| `errorResponse`         | the response for a `$err` document (:1117-1163) |
| `entitiesQuery`         | `entitiesQuery` (:986) |
-/

namespace OrionBroker

open Mongo

def MAX_SERVICE_NAME_LEN : Nat := 1024

/-! ## The selector -/

def fillQueryEntity (en : EntityId) : Query :=
  .all ((if en.isPattern = "true" then .field ["_id", "id"] (.regex en.id)
         else .field ["_id", "id"] (.eq (.str en.id))) ::
    (if en.type ≠ "" then [.field ["_id", "type"] (.eq (.str en.type))] else []))

/-- The condition on an id and a type. -/
def EntityTaken (E : Engine) (en : EntityId) (id : String) (type : Option String) : Prop :=
  (if en.isPattern = "true" then E.regex en.id id = true else id = en.id) ∧ (en.type ≠ "" → type = some en.type)

theorem fillQueryEntity_taken (E : Engine) (en : EntityId) (d : EntityDoc) :
    (fillQueryEntity en).matches E d.toBson = true ↔ EntityTaken E en d.key.id d.key.type := by
  rw [fillQueryEntity, Query.matches_all_iff, List.forall_mem_cons]
  refine and_congr ?_ ?_
  · by_cases hp : en.isPattern = "true"
    · rw [if_pos hp, if_pos hp]
      simp [Cond.holds, at_id, Bson.leaves, Bson.isStrWith]
    · rw [if_neg hp, if_neg hp, matches_id, decide_eq_true_iff]
  · by_cases ht : en.type = ""
    · simp [ht]
    · rw [if_pos ht, List.forall_mem_cons, matches_type, decide_eq_true_iff]
      simp [ht]

/-- The escaped path in its buffer, which is not initialised before. -/
def escapedPath (path : String) : List Char := slashEscape (cStr path) [] MAX_SERVICE_NAME_LEN

theorem escapedPath_eq {path : String} {p : ServicePath} (h : path.toList = p.chars) :
    escapedPath path = p.chars.flatMap escapeChar := by
  have hs := p.size
  rw [escapedPath, cStr_of_chars h]
  exact slashEscape_eq [] p.chars_ne_nil (by unfold MAX_SERVICE_NAME_LEN; omega)

/-- The regex text of a canonical path stands for the path. -/
theorem escapedPath_reads {path : String} (h : CanonicalPath path) : Regex.Reads (escapedPath path) path.toList := by
  obtain ⟨p, hp⟩ := h
  rw [escapedPath_eq hp, hp]
  exact escape_reads fun x => p.mem_chars

/-- The regexes of one service path. -/
def servicePathRegexes (path : String) : List Alt :=
  let p := escapedPath path
  if p.getLast? = some '#' then
    let p := p.take (p.length - 3)
    [.regex (String.ofList ('^' :: (p ++ ['$']))), .regex (String.ofList ('^' :: (p ++ "\\/.*".toList)))]
  else [.regex (String.ofList ('^' :: (p ++ ['$'])))]

/-- The loop over the service paths; `null` is added once, for `/` or `/#`. -/
def servicePathAlts : List String → Bool → List Alt
  | [], _ => []
  | path :: rest, nullAdded =>
    if !nullAdded && (path == "/" || path == "/#") then
      .null :: (servicePathRegexes path ++ servicePathAlts rest true)
    else servicePathRegexes path ++ servicePathAlts rest nullAdded

def fillQueryServicePath (servicePath : List String) : Cond :=
  if servicePath.length > 0 then .isIn (servicePathAlts servicePath false)
  else .isIn [.regex "^\\/.*", .null]

def entitiesSelector (enV : List EntityId) (attrL : List String) (servicePath : List String) : Query :=
  .all (.any (enV.map fillQueryEntity) ::
    .field ["_id", "servicePath"] (fillQueryServicePath servicePath) ::
    (if attrL.length > 0 then [.field ["attrs", "name"] (.isIn (attrL.map fun a => .val (.str a)))] else []))

/-! ## The cursor -/

/-- The sort on `creDate`; a missing field comes first. -/
def creDateLe (a b : EntityDoc) : Bool :=
  match a.creDate, b.creDate with
  | none, _ => true
  | some _, none => false
  | some x, some y => decide (x ≤ y)

def DEFAULT_PAGINATION_OFFSET_INT : Nat := 0
def DEFAULT_PAGINATION_LIMIT_INT : Nat := 20

def entitiesCursor (offset limit : Nat) (found : List EntityDoc) : List EntityDoc :=
  ((found.insertionSort fun a b => creDateLe a b = true).drop offset).take limit

/-- `none` is the `$err` document. -/
def entitiesAnswer (env : Env) (w : World) (enV : List EntityId) (attrL servicePath : List String)
    (offset limit : Nat) : Option (List EntityDoc) :=
  (w.entities.answer env.engine EntityDoc.toBson (entitiesSelector enV attrL servicePath)).map
    (entitiesCursor offset limit)

/-- The documents of a query that is not refused. -/
def entitiesFind (env : Env) (w : World) (enV : List EntityId) (attrL servicePath : List String)
    (offset limit : Nat) : List EntityDoc :=
  entitiesCursor offset limit
    (w.entities.find fun d => (entitiesSelector enV attrL servicePath).matches env.engine d.toBson)

theorem entitiesSelector_noJs (enV : List EntityId) (attrL servicePath : List String) :
    (entitiesSelector enV attrL servicePath).hasJs = false := by
  have hen : ∀ enV : List EntityId, Query.someJs (enV.map fillQueryEntity) = false := by
    intro enV
    induction enV with
    | nil => rfl
    | cons en enV ih =>
      rw [List.map_cons, Query.someJs, ih, Bool.or_false, fillQueryEntity]
      split <;> split <;> rfl
  rw [entitiesSelector, Query.hasJs, Query.someJs, Query.hasJs, hen]
  split <;> rfl

/-- The selector decides: it is refused, or the documents are those found. -/
theorem entitiesAnswer_eq (env : Env) (w : World) (enV : List EntityId) (attrL servicePath : List String)
    (offset limit : Nat) : entitiesAnswer env w enV attrL servicePath offset limit =
      if (entitiesSelector enV attrL servicePath).compiles env.engine = true then
        some (entitiesFind env w enV attrL servicePath offset limit)
      else none := by
  rw [entitiesAnswer]
  split
  · rename_i h
    rw [Collection.answer_of_noJs _ _ h (entitiesSelector_noJs enV attrL servicePath)]
    rfl
  · rename_i h
    rw [Collection.answer, if_neg fun hc => h hc.1]
    rfl

/-- The patterns, as the selector spells them, compile. -/
def PatternsCompile (E : Engine) (enV : List EntityId) : Prop :=
  ∀ en ∈ enV, en.isPattern = "true" → E.regexCompiles en.id = true

theorem fillQueryEntity_compiles (E : Engine) (en : EntityId) :
    (fillQueryEntity en).compiles E = true ↔ (en.isPattern = "true" → E.regexCompiles en.id = true) := by
  have htype : ∀ q ∈ (if en.type ≠ "" then [Query.field ["_id", "type"] (.eq (.str en.type))] else []),
      q.compiles E = true := by
    split <;> simp [Query.compiles, Cond.compiles]
  rw [fillQueryEntity, Query.compiles_all_iff, List.forall_mem_cons, and_iff_left htype]
  by_cases hp : en.isPattern = "true"
  · simp [hp, Query.compiles, Cond.compiles]
  · simp [hp, Query.compiles, Cond.compiles]

/-- The server takes the selector of some entities whose patterns compile, under paths that compile. -/
theorem entitiesSelector_compiles_iff {E : Engine} {enV : List EntityId} {attrL servicePath : List String} :
    (entitiesSelector enV attrL servicePath).compiles E = true ↔
      enV ≠ [] ∧ PatternsCompile E enV ∧ (fillQueryServicePath servicePath).compiles E = true := by
  have hattr : ∀ q ∈ (if attrL.length > 0 then
      [Query.field ["attrs", "name"] (.isIn (attrL.map fun a => .val (.str a)))] else []), q.compiles E = true := by
    split <;> simp [Query.compiles, Cond.compiles, Alt.compiles]
  rw [entitiesSelector, Query.compiles_all_iff, List.forall_mem_cons, List.forall_mem_cons, and_iff_left hattr,
    Query.compiles_any_iff, and_assoc]
  refine and_congr (by simp) (and_congr ?_ Iff.rfl)
  simp only [List.mem_map, forall_exists_index, and_imp, forall_apply_eq_imp_iff₂, fillQueryEntity_compiles]
  rfl

/-! ## Decoding a document -/

mutual
/-- `addCompoundNode`: a value of another type is only logged. -/
def nodeOfBson (name : String) : Bson → Option CompoundValueNode
  | .str s => some (.mk .string name s [])
  | .obj fs => some (.mk .object name "" (compoundObjectResponse fs))
  | .arr xs => some (.mk .vector name "" (compoundVectorResponse 0 xs))
  | .null | .bool _ | .int _ | .double _ | .oid _ => none
def compoundObjectResponse : List (String × Bson) → List CompoundValueNode
  | [] => []
  | (f, v) :: fs => (nodeOfBson f v).toList ++ compoundObjectResponse fs
def compoundVectorResponse (ix : Nat) : List Bson → List CompoundValueNode
  | [] => []
  | v :: vs => (nodeOfBson (toString ix) v).toList ++ compoundVectorResponse (ix + 1) vs
end

/-- `includedAttribute` (:667). -/
def includedAttribute (name : String) (attrsV : List String) : Bool :=
  attrsV.length == 0 || attrsV.contains name

/-- The value of a stored attribute: a string or a compound root, named as its constructor names it
(CompoundValueNode.cpp:63); `none` skips the attribute. -/
def decodedValue (includeEmpty : Bool) : Option Bson → Option (String × Option CompoundValueNode)
  | some (.str s) => if !includeEmpty && cString s == "" then none else some (cString s, none)
  | some (.obj fs) => some ("", some (.mk .object "toplevel" "" (compoundObjectResponse fs)))
  | some (.arr xs) => some ("", some (.mk .vector "toplevel" "" (compoundVectorResponse 0 xs)))
  | _ => none

/-- The metadata of the answer: ID, location, then the custom items (:1223-1254). -/
def decodedMetadata (locAttr : String) (a : AttrDoc) : List Metadata :=
  (if strField a.id ≠ "" then [⟨NGSI_MD_ID, "string", strField a.id⟩] else []) ++
  (if locAttr = strField a.name then [⟨NGSI_MD_LOCATION, "string", "WGS84"⟩] else []) ++
  (a.md.getD []).map fun md => ⟨cString md.name, strField md.type, cString md.value⟩

def contextAttributeOf (locAttr : String) (attrL : List String) (includeEmpty : Bool) (a : AttrDoc) :
    Option ContextAttribute :=
  if includedAttribute (strField a.name) attrL then
    (decodedValue includeEmpty a.value).map fun (value, compound) =>
      { name := strField a.name, type := strField a.type, value := value,
        metadataVector := decodedMetadata locAttr a, compoundValueP := compound }
  else none

def contextElementResponseOf (attrL : List String) (includeEmpty : Bool) (d : EntityDoc) :
    ContextElementResponse where
  entityId := { id := cString d.key.id, type := strField d.key.type, isPattern := "false",
                servicePath := strField d.key.servicePath }
  contextAttributeVector :=
    d.attrs.filterMap (contextAttributeOf (strField (d.location.map LocDoc.attrName)) attrL includeEmpty)
  statusCode := { code := .ok }

/-- The entity is given when it is the only one of the request. The text of a refused area is left out with the scopes. -/
def errorResponse (enV : List EntityId) : ContextElementResponse where
  entityId := match enV with
    | [en] => { id := en.id, type := en.type, isPattern := en.isPattern }
    | _ => { id := "" }
  statusCode := { code := .receiverInternalError, details := "Error at querying MongoDB" }

/-- The answer when the call succeeds. -/
def entitiesResponses (env : Env) (w : World) (enV : List EntityId) (attrL : List String) (includeEmpty : Bool)
    (servicePath : List String) (offset limit : Nat) : List ContextElementResponse :=
  match entitiesAnswer env w enV attrL servicePath offset limit with
  | none => [errorResponse enV]
  | some found => found.map (contextElementResponseOf attrL includeEmpty)

theorem entitiesResponses_of_compiles {env : Env} {enV : List EntityId} {attrL servicePath : List String}
    (h : (entitiesSelector enV attrL servicePath).compiles env.engine = true) (w : World) (includeEmpty : Bool)
    (offset limit : Nat) : entitiesResponses env w enV attrL includeEmpty servicePath offset limit =
      (entitiesFind env w enV attrL servicePath offset limit).map (contextElementResponseOf attrL includeEmpty) := by
  rw [entitiesResponses, entitiesAnswer_eq, if_pos h]

theorem entitiesResponses_of_refused {env : Env} {enV : List EntityId} {attrL servicePath : List String}
    (h : (entitiesSelector enV attrL servicePath).compiles env.engine ≠ true) (w : World) (includeEmpty : Bool)
    (offset limit : Nat) :
    entitiesResponses env w enV attrL includeEmpty servicePath offset limit = [errorResponse enV] := by
  rw [entitiesResponses, entitiesAnswer_eq, if_neg h]

def entitiesQuery (env : Env) (tenant : String) (enV : List EntityId) (attrL : List String)
    (includeEmpty : Bool) (servicePath : List String) (offset limit : Nat) (w : World) :
    Except String (List ContextElementResponse) × World :=
  let (o, w') := w.call
  match o.queryError with
  | some what =>
    (.error (queryErrorText env (getEntitiesCollectionName env tenant)
      (entitiesSelector enV attrL servicePath) what), w')
  | none => (.ok (entitiesResponses env w enV attrL includeEmpty servicePath offset limit), w')

theorem entitiesQuery_same (env : Env) (tenant : String) (enV : List EntityId) (attrL : List String)
    (includeEmpty : Bool) (servicePath : List String) (offset limit : Nat) (w : World) :
    World.Same w (entitiesQuery env tenant enV attrL includeEmpty servicePath offset limit w).2 := by
  unfold entitiesQuery
  simp only
  split <;> exact w.call_same

end OrionBroker
