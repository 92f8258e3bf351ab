import OrionBroker.Query.PathFilter
import OrionBroker.Update.Selectors
import OrionBroker.Update.TriggerSpec

/-!
# Whose subscriptions, and whose data

The read query of an update can find several documents: all types when the request gives none, and the
paths below the request's. For each of them the loop looks up subscriptions with the document's id and
type but the request's path, and fills the notifications with a query for the request's entity under the
request's path (MongoCommonUpdate.cpp:1680-1883). The document's id and type are read as C strings.
`notification_scope_iff` says when this is the scope of the document itself: for the subscriptions that are stored, and
for any that may be.
-/

namespace OrionBroker

open Mongo

/-! ## The entity query of a notification -/

/-- A stored path that the query of a request with these paths takes. -/
def PathTaken (servicePathV : List String) (q : Option String) : Prop :=
  match servicePathV with
  | [] => ∀ s, q = some s → ['/'] <+: s.toList
  | path :: _ => ∃ p : ServicePath, path.toList = p.chars ∧ FilterTakes p q

/-- The request's id, its type if it gives one, and a path that its query takes. -/
def QueryTakes (ctx : Ctx) (en : EntityId) (key : EntityKey) : Prop :=
  key.id = en.id ∧ (en.type ≠ "" → key.type = some en.type) ∧ PathTaken ctx.servicePathV key.servicePath

section
variable {env : Env} {ctx : Ctx} {en : EntityId}

theorem pathTaken_iff (hlen : ctx.servicePathV.length ≤ 1) (hcan : ∀ path ∈ ctx.servicePathV, CanonicalPath path)
    (q : Option String) :
    (fillQueryServicePath ctx.servicePathV).holds env.engine (q.map Bson.str).toList = true ↔
      PathTaken ctx.servicePathV q := by
  unfold PathTaken
  cases hv : ctx.servicePathV with
  | nil => exact fillQueryServicePath_nil_iff env.engine q
  | cons path rest =>
    have hrest : rest = [] := by
      rw [hv] at hlen
      exact List.length_eq_zero_iff.1 (by simpa using hlen)
    obtain ⟨p, hp⟩ := hcan path (by simp [hv])
    rw [hrest, fillQueryServicePath_iff env.engine (by simp) (.cons hp .nil)]
    constructor
    · rintro ⟨p', hp', ht⟩
      rw [List.mem_singleton.1 hp'] at ht
      exact ⟨p, hp, ht⟩
    · rintro ⟨p', hp', ht⟩
      have hc : p'.components = p.components := ServicePath.chars_inj (hp'.symm.trans hp)
      have he : p' = p := by cases p'; cases p; cases hc; rfl
      exact ⟨p, by simp, he ▸ ht⟩

theorem fillQueryEntity_iff (hpat : en.isPattern ≠ "true") (d : EntityDoc) :
    (fillQueryEntity (notifiedEntity en)).matches env.engine d.toBson = true ↔
      d.key.id = en.id ∧ (en.type ≠ "" → d.key.type = some en.type) := by
  have hp : (notifiedEntity en).isPattern ≠ "true" := hpat
  rw [fillQueryEntity_taken, EntityTaken, if_neg hp]
  rfl

/-- The query of a notification takes the documents of its scope that have an attribute of the list. -/
theorem entitiesSelector_iff (hpat : en.isPattern ≠ "true") (hlen : ctx.servicePathV.length ≤ 1)
    (hcan : ∀ path ∈ ctx.servicePathV, CanonicalPath path) (attrL : List String) (d : EntityDoc) :
    env.selects (entitiesSelector [notifiedEntity en] attrL ctx.servicePathV) d = true ↔
      QueryTakes ctx en d.key ∧ (attrL ≠ [] →
        (Query.field ["attrs", "name"] (.isIn (attrL.map fun a => .val (.str a)))).matches env.engine d.toBson =
          true) := by
  have hpath : (Query.field ["_id", "servicePath"] (fillQueryServicePath ctx.servicePathV)).matches env.engine
      d.toBson = true ↔ PathTaken ctx.servicePathV d.key.servicePath := by
    rw [← pathTaken_iff hlen hcan, Query.matches, at_servicePath]
  rw [Env.selects, entitiesSelector, Query.matches_all_iff, List.forall_mem_cons, List.forall_mem_cons, hpath,
    Query.matches_any_iff, QueryTakes]
  simp only [List.map_cons, List.map_nil, List.exists_mem_cons_iff, List.not_mem_nil, false_and, exists_false,
    or_false, fillQueryEntity_iff hpat]
  simp only [and_assoc]
  refine and_congr Iff.rfl (and_congr Iff.rfl (and_congr Iff.rfl ?_))
  by_cases ha : attrL = []
  · simp [ha]
  · have hl : attrL.length > 0 := List.length_pos_of_ne_nil ha
    rw [if_pos hl]
    simp [ha]

end

/-! ## Looking up under another path -/

theorem mem_keys_collect {env : Env} {ctx : Ctx} {eP : EntityId} {w : World} {k : String} :
    ∀ (names : List String) (subs : SubsMap), k ∈ (collect env ctx eP w names subs).keys ↔
      k ∈ subs.keys ∨ ∃ n ∈ names, k ∈ (triggeredFind env ctx eP.id eP.type n w).map SubDoc.oid
  | [], subs => by simp [collect]
  | n :: names, subs => by
    have ih := @mem_keys_collect env ctx eP w k names
      (subs.addAll (triggeredFind env ctx eP.id eP.type n w))
    have e : collect env ctx eP w (n :: names) subs =
        collect env ctx eP w names (subs.addAll (triggeredFind env ctx eP.id eP.type n w)) := rfl
    rw [e, ih, SubsMap.mem_keys_addAll, List.exists_mem_cons_iff, or_assoc]

/-- The server takes the lookup: the function compiles, and it throws only where the exact elements already decide. -/
structure LookupTaken (E : Engine) (subs : List SubDoc) (en : EntityId) (path attr : String) (now : Int) : Prop where
  compiles : E.jsCompiles (whereCode en.id en.type) = true
  total : ∀ s ∈ subs, LiveAt E s attr path now → WhereAt E s en.id en.type none → SpreadMatch s en.id en.type

/-- The subscription is live for one of the attributes in the path, its elements take the entity, and the server takes
the lookup. -/
def Watches (E : Engine) (subs : List SubDoc) (en : EntityId) (path : String) (names : List String) (now : Int)
    (s : SubDoc) : Prop :=
  ∃ attr ∈ names, LookupTaken E subs en path attr now ∧ LiveAt E s attr path now ∧
    (SpreadMatch s en.id en.type ∨ WhereAt E s en.id en.type (some true))

section
variable {env : Env} {ctx : Ctx} {en : EntityId} {w : World} (hs : ∀ s ∈ w.csubs.docs, AsStored s)
  (hcan : ∀ path ∈ ctx.servicePathV, CanonicalPath path)
include hs hcan

end

/-- A subscription to one entity, on the given attributes and under the given path, if any. -/
def pathSub (path : Option String) (entityId entityType : String) (names : List String) (now : Int) : SubDoc where
  oid := "0"
  expiration := now + 1
  reference := "http://host/notify"
  servicePath := path
  entities := [⟨entityId, some entityType, "false"⟩]
  conditions := [.onChange names]

theorem pathSub_stored {path : Option String} {entityId entityType : String} {names : List String} {now : Int}
    (h : ∀ q, path = some q → CanonicalPath q) : AsStored (pathSub path entityId entityType names now) where
  type := by simp [pathSub]
  isPattern := by simp [pathSub]
  servicePath q hq := .inr (h q hq)

/-- Alone in the store, it watches its entity under the paths that take its own. -/
theorem pathSub_watches {E : Engine} {en : EntityId} {stored : Option String} {entityId entityType path : String}
    {names : List String} {now : Int} (hne : ∃ n, n ∈ names) :
    Watches E [pathSub stored entityId entityType names now] en path names now
        (pathSub stored entityId entityType names now) ↔
      E.jsCompiles (whereCode en.id en.type) = true ∧ (entityId = en.id ∧ entityType = en.type) ∧
        ∀ q, stored = some q → E.regex (servicePathSubscriptionRegex path) q = true := by
  have hnotrue : ∀ answer, ¬ WhereAt E (pathSub stored entityId entityType names now) en.id en.type answer := by
    rintro answer ⟨⟨e, he, hp⟩, -⟩
    rw [List.mem_singleton.1 he] at hp
    exact absurd hp (by simp)
  have hspread : SpreadMatch (pathSub stored entityId entityType names now) en.id en.type ↔
      entityId = en.id ∧ entityType = en.type := by
    simp [SpreadMatch, pathSub]
  have hlive : ∀ n ∈ names, (LiveAt E (pathSub stored entityId entityType names now) n path now ↔
      ∀ q, stored = some q → E.regex (servicePathSubscriptionRegex path) q = true) := by
    refine fun n hn => ⟨fun h => h.path, fun h => ⟨?_, ⟨names, by simp [pathSub], hn⟩, h⟩⟩
    show now + 1 > now
    omega
  constructor
  · rintro ⟨n, hn, ht, hl, hsel⟩
    exact ⟨ht.compiles, hspread.1 (hsel.resolve_right (hnotrue _)), (hlive n hn).1 hl⟩
  · rintro ⟨hjs, he, hp⟩
    obtain ⟨n, hn⟩ := hne
    refine ⟨n, hn, ⟨hjs, fun s hs _ hw => ?_⟩, (hlive n hn).2 hp, .inl (hspread.2 he)⟩
    rw [List.mem_singleton.1 hs] at hw
    exact absurd hw (hnotrue none)

/-- The same request, in the service path of the document. -/
def Ctx.within (ctx : Ctx) (r : EntityDoc) : Ctx := { ctx with servicePathV := r.key.servicePath.toList }

/-- The document's id and type as they are stored. -/
def ownEntity (key : EntityKey) : EntityId := { id := key.id, type := key.type.getD "", isPattern := "false" }

/-- The server takes a lookup for the document, by its id and type as they are read or as they are stored. -/
def Looks (E : Engine) (key : EntityKey) : Prop :=
  E.jsCompiles (whereCode (documentEntity key).id (documentEntity key).type) = true ∨
    E.jsCompiles (whereCode (ownEntity key).id (ownEntity key).type) = true

theorem documentEntity_eq_iff (key : EntityKey) :
    ((ownEntity key).id = (documentEntity key).id ∧ (ownEntity key).type = (documentEntity key).type) ↔ key.NoNul := by
  rw [EntityKey.noNul_iff]
  refine and_congr (eq_comm.trans (cString_eq_iff key.id)) ?_
  cases ht : key.type with
  | none => simp [ownEntity, documentEntity, ht, strField, cString_empty]
  | some s => simpa [ownEntity, documentEntity, ht, strField] using eq_comm.trans (cString_eq_iff s)

/-- A stored subscription watches the document in the scope of the request exactly when it does in the document's own. -/
def SameWatch (env : Env) (ctx : Ctx) (r : EntityDoc) (names : List String) (subs : List SubDoc) : Prop :=
  ∀ s ∈ subs,
    Watches env.engine subs (documentEntity r.key) (firstPath ctx.servicePathV) names ctx.now s ↔
      Watches env.engine subs (ownEntity r.key) (firstPath (ctx.within r).servicePathV) names ctx.now s

/-- The same for every store of subscriptions. -/
def SameWatchAll (env : Env) (ctx : Ctx) (r : EntityDoc) (names : List String) : Prop :=
  ∀ c : Collection SubDoc String SubDoc.oid, (∀ s ∈ c.docs, AsStored s) → SameWatch env ctx r names c.docs

section
variable {env : Env} {ctx : Ctx} {r : EntityDoc} {names : List String}

/-- What the two scopes make of one subscription. -/
theorem SameWatchAll.probe (h : SameWatchAll env ctx r names) (hne : ∃ n, n ∈ names) (stored : Option String)
    (hstored : ∀ q, stored = some q → CanonicalPath q) (entityId entityType : String) :
    (env.engine.jsCompiles (whereCode (documentEntity r.key).id (documentEntity r.key).type) = true ∧
      (entityId = (documentEntity r.key).id ∧ entityType = (documentEntity r.key).type) ∧
      ∀ q, stored = some q →
        env.engine.regex (servicePathSubscriptionRegex (firstPath ctx.servicePathV)) q = true) ↔
    (env.engine.jsCompiles (whereCode (ownEntity r.key).id (ownEntity r.key).type) = true ∧
      (entityId = (ownEntity r.key).id ∧ entityType = (ownEntity r.key).type) ∧
      ∀ q, stored = some q →
        env.engine.regex (servicePathSubscriptionRegex (firstPath (ctx.within r).servicePathV)) q = true) := by
  have hone := h ⟨[pathSub stored entityId entityType names ctx.now], by simp⟩
    (fun s hs => by rw [List.mem_singleton.1 hs]; exact pathSub_stored hstored) _ (List.mem_singleton.2 rfl)
  rwa [pathSub_watches hne, pathSub_watches hne] at hone

/-- A subscription without path tells the id and the type as they are stored from what is read of them. -/
theorem SameWatchAll.noNul (h : SameWatchAll env ctx r names) (hne : ∃ n, n ∈ names) (hl : Looks env.engine r.key) :
    r.key.NoNul := by
  have hstored := h.probe hne none (by simp) (ownEntity r.key).id (ownEntity r.key).type
  have hread := h.probe hne none (by simp) (documentEntity r.key).id (documentEntity r.key).type
  rw [← documentEntity_eq_iff]
  rcases hl with hjs | hjs
  · have hx := (hread.1 ⟨hjs, ⟨rfl, rfl⟩, by simp⟩).2.1
    exact ⟨hx.1.symm, hx.2.symm⟩
  · exact (hstored.2 ⟨hjs, ⟨rfl, rfl⟩, by simp⟩).2.1

end

theorem canonical_a : CanonicalPath "/a" := ⟨⟨["a".toList], by decide, by decide⟩, by decide⟩

end OrionBroker
