import OrionBroker.Register.Operations
import OrionBroker.Update.TriggerSpec

/-!
# Which availability subscriptions a registration triggers

The selector has two parts (MongoCommonRegister.cpp:188-262): the elements that are no patterns are compared as
embedded documents, together with a test of the attributes; the patterns are matched by the generated
JavaScript, and there the attributes are not tested.

* `WhereFunctionSpec`: what is relied on of `$where`, as `WhereSpec` for the updates.
* `casubSelected_iff`, `casubThrows_iff`: the selector on a stored subscription.
* `registration_triggers_iff`: the subscriptions collected are those that are to be triggered exactly when no
  pattern matches without the attributes and none is broken.
-/

namespace OrionBroker.Register

open Mongo

/-! ## The generated function -/

/-- The inner loop, on one element: a broken pattern throws as soon as there is an entity, whatever its type. -/
def functionTest (re : JsRegex) (enV : List EntityId) (e : SubEntity) : Option Bool :=
  if e.isPattern == "true" then anyOf (fun en => (re e.id).map fun search => search en.id && e.type == some en.type) enV
  else some false

/-- The double loop. -/
def functionLoop (re : JsRegex) (enV : List EntityId) (s : CasubDoc) : Option Bool :=
  anyOf (functionTest re enV) s.entities

/-- The ids and types stand for themselves in the literals. -/
def JsPlainEntities (enV : List EntityId) : Prop := ∀ en ∈ enV, JsPlain en.id ∧ JsPlain en.type

instance (enV : List EntityId) : Decidable (JsPlainEntities enV) :=
  inferInstanceAs (Decidable (∀ en ∈ enV, JsPlain en.id ∧ JsPlain en.type))

/-- The function for these entities. -/
def entitiesFunction (enV : List EntityId) : String := whereFunction (enV.map EntityId.id) (enV.map EntityId.type)

/-- The given function is evaluated on the document. -/
structure WhereFunctionSpec (E : Engine) (re : JsRegex) : Prop where
  compiles : ∀ enV, JsPlainEntities enV → E.jsCompiles (entitiesFunction enV) = true
  eval : ∀ (enV : List EntityId) (s : CasubDoc), JsPlainEntities enV →
    E.js (entitiesFunction enV) s.toBson = functionLoop re enV s

/-- What the function answers on a subscription: the loop, when the ids and types stand for themselves, and otherwise
what the server makes of it. -/
def functionAnswer (E : Engine) (re : JsRegex) (enV : List EntityId) (s : CasubDoc) : Option Bool :=
  if JsPlainEntities enV then functionLoop re enV s else E.js (entitiesFunction enV) s.toBson

theorem functionAnswer_eq {E : Engine} {re : JsRegex} (hw : WhereFunctionSpec E re) (enV : List EntityId) (s : CasubDoc) :
    functionAnswer E re enV s = E.js (entitiesFunction enV) s.toBson := by
  unfold functionAnswer
  split
  · rename_i h
    exact (hw.eval enV s h).symm
  · rfl

/-! ## Paths into a subscription -/

theorem casub_at_entities (s : CasubDoc) : s.toBson.at ["entities"] = [.arr (s.entities.map casubEntity)] := by
  simp [CasubDoc.toBson, Bson.at, Bson.step, Bson.sub, List.lookup_cons]

theorem casub_at_attrs (s : CasubDoc) : s.toBson.at ["attrs"] = [.arr (s.attrs.map .str)] := by
  simp [CasubDoc.toBson, Bson.at, Bson.step, Bson.sub, List.lookup_cons]

theorem casub_at_expiration (s : CasubDoc) : s.toBson.at ["expiration"] = [.int s.expiration] := by
  simp [CasubDoc.toBson, Bson.at, Bson.step, Bson.sub, List.lookup_cons]

theorem casubEntity_sub_isPattern (e : SubEntity) : (casubEntity e).sub "isPattern" = [.str e.isPattern] := by
  cases ht : e.type <;> simp [casubEntity, Bson.sub, optField, List.lookup_cons, ht]

theorem casub_at_isPattern (s : CasubDoc) :
    s.toBson.at ["entities", "isPattern"] = s.entities.map fun e => .str e.isPattern := by
  have hstep : s.toBson.at ["entities", "isPattern"] =
      (s.entities.map casubEntity).flatMap (Bson.sub "isPattern") := by
    simp [CasubDoc.toBson, Bson.at, Bson.step, Bson.sub, List.lookup_cons, List.flatMap_singleton']
  rw [hstep, List.flatMap_map]
  simp only [casubEntity_sub_isPattern, ← List.map_eq_flatMap]

theorem casubEntity_eq_iff (e : SubEntity) (en : EntityId) :
    casubEntity e = .obj [("id", .str en.id), ("type", .str en.type), ("isPattern", .str "false")] ↔
      e.isPattern = "false" ∧ e.id = en.id ∧ e.type = some en.type := by
  cases ht : e.type with
  | none => simp [casubEntity, optField, ht]
  | some t =>
    simp only [casubEntity, optField, ht, Option.map_some, Option.toList_some, List.singleton_append, Bson.obj.injEq,
      List.cons.injEq, Prod.mk.injEq, true_and, and_true, Bson.str.injEq, Option.some.injEq]
    constructor
    · rintro ⟨h1, h2, h3⟩
      exact ⟨h3, h1, h2⟩
    · rintro ⟨h3, h1, h2⟩
      exact ⟨h1, h2, h3⟩

/-! ## The selector -/

/-- An element that is no pattern and is one of the entities. -/
def ExactElement (s : CasubDoc) (enV : List EntityId) : Prop :=
  ∃ e ∈ s.entities, ∃ en ∈ enV, e.isPattern = "false" ∧ e.id = en.id ∧ e.type = some en.type

/-- An element with a pattern that matches one of the entities. -/
def PatternElement (re : JsRegex) (s : CasubDoc) (enV : List EntityId) : Prop :=
  ∃ e ∈ s.entities, ∃ en ∈ enV, e.isPattern = "true" ∧ Finds re e.id en.id ∧ e.type = some en.type

/-- The subscription is to all attributes, or to one of these. -/
def AttrsShared (s : CasubDoc) (names : List String) : Prop := s.attrs = [] ∨ ∃ a ∈ s.attrs, a ∈ names

theorem entities_in_iff (E : Engine) (s : CasubDoc) (enV : List EntityId) :
    (Query.field ["entities"] (.isIn (enV.map fun en =>
      .val (.obj [("id", .str en.id), ("type", .str en.type), ("isPattern", .str "false")])))).matches E s.toBson =
        true ↔ ExactElement s enV := by
  simp only [Query.matches, Cond.holds, casub_at_entities, List.any_map, Function.comp_def, List.any_eq_true,
    Alt.holds, List.any_cons, List.any_nil, Bool.or_false, Bson.leaves, List.contains_iff_mem, List.mem_cons,
    reduceCtorEq, false_or, List.mem_map, casubEntity_eq_iff]
  constructor
  · rintro ⟨en, hen, e, he, h⟩
    exact ⟨e, he, en, hen, h⟩
  · rintro ⟨e, he, en, hen, h⟩
    exact ⟨en, hen, e, he, h⟩

theorem attrs_in_iff (E : Engine) (s : CasubDoc) (names : List String) :
    (Query.field ["attrs"] (.isIn (names.map fun a => .val (.str a)))).matches E s.toBson = true ↔
      ∃ a ∈ s.attrs, a ∈ names := by
  simp only [Query.matches, Cond.holds, casub_at_attrs, List.any_map, Function.comp_def, List.any_eq_true,
    Alt.holds, List.any_cons, List.any_nil, Bool.or_false, Bson.leaves, List.contains_iff_mem, List.mem_cons,
    reduceCtorEq, false_or, List.mem_map, Bson.str.injEq]
  constructor
  · rintro ⟨a, ha, x, hx, rfl⟩
    exact ⟨x, hx, ha⟩
  · rintro ⟨a, hx, ha⟩
    exact ⟨a, ha, a, hx, rfl⟩

theorem attrs_size_iff (E : Engine) (s : CasubDoc) :
    (Query.field ["attrs"] (.size 0)).matches E s.toBson = true ↔ s.attrs = [] := by
  simp [Cond.holds, casub_at_attrs, Bson.hasSize]

theorem casub_expiration_iff (E : Engine) (s : CasubDoc) (now : Int) :
    (Query.field ["expiration"] (.gt now)).matches E s.toBson = true ↔ now < s.expiration := by
  simp [Cond.holds, casub_at_expiration, Bson.leaves, Bson.isIntWith]

theorem isPattern_iff (E : Engine) (s : CasubDoc) :
    (Query.field ["entities", "isPattern"] (.eq (.str "true"))).matches E s.toBson = true ↔
      ∃ e ∈ s.entities, e.isPattern = "true" := by
  simp only [Query.matches, Cond.holds, casub_at_isPattern, List.any_map, Function.comp_def, List.any_eq_true,
    Bson.leaves, List.contains_iff_mem, List.mem_singleton, Bson.str.injEq, @eq_comm _ "true"]

theorem queryNoPattern_iff (E : Engine) (s : CasubDoc) (cr : ContextRegistration) (now : Int) :
    (queryNoPattern cr now).matches E s.toBson = true ↔
      ExactElement s (notPatterns cr) ∧ AttrsShared s (attrNames cr) ∧ now < s.expiration := by
  rw [queryNoPattern, Query.matches_all_iff]
  simp only [List.forall_mem_cons, List.not_mem_nil, false_imp_iff, implies_true, and_true]
  rw [entities_in_iff, casub_expiration_iff]
  refine and_congr_right fun _ => and_congr_left fun _ => ?_
  split
  · rw [Query.matches_any_iff]
    simp only [List.exists_mem_cons_iff, List.not_mem_nil, false_and, exists_false, or_false]
    rw [attrs_in_iff, attrs_size_iff, or_comm, AttrsShared]
  · rename_i h0
    have hnil : attrNames cr = [] := List.length_eq_zero_iff.1 (by omega)
    rw [attrs_size_iff, AttrsShared, hnil]
    simp

/-- The inner loop on a pattern that compiles. -/
theorem functionTest_of_compiles {re : JsRegex} {e : SubEntity} {search : String → Bool} (hre : re e.id = some search)
    (enV : List EntityId) : functionTest re enV e =
      some (e.isPattern == "true" && enV.any fun en => search en.id && e.type == some en.type) := by
  unfold functionTest
  cases he : e.isPattern == "true" with
  | false => simp
  | true =>
    simp only [hre, Option.map_some, Bool.true_and, if_true]
    exact anyOf_of_total fun _ _ => rfl

/-- What the inner loop finds is a match of the element. -/
theorem functionTest_true {re : JsRegex} {e : SubEntity} {enV : List EntityId} (h : functionTest re enV e = some true) :
    ∃ en ∈ enV, e.isPattern = "true" ∧ Finds re e.id en.id ∧ e.type = some en.type := by
  unfold functionTest at h
  split at h
  · rename_i hp
    obtain ⟨pre, en, post, rfl, hen, -⟩ := (anyOf_eq_iff (by simp)).1 h
    obtain ⟨search, hre, hs⟩ := Option.map_eq_some_iff.1 hen
    rw [Bool.and_eq_true] at hs
    exact ⟨en, by simp, by simpa using hp, ⟨search, hre, hs.1⟩, by simpa using hs.2⟩
  · cases h

theorem patternElement_of_functionLoop {re : JsRegex} {s : CasubDoc} {enV : List EntityId}
    (h : functionLoop re enV s = some true) : PatternElement re s enV := by
  obtain ⟨pre, e, post, hs, he, -⟩ := (anyOf_eq_iff (by simp)).1 h
  obtain ⟨en, hen, hm⟩ := functionTest_true he
  exact ⟨e, by rw [hs]; simp, en, hen, hm⟩

/-- When every pattern compiles the loop finds each matching element. -/
theorem functionLoop_of_compiles {re : JsRegex} {s : CasubDoc} {enV : List EntityId}
    (hre : ∀ e ∈ s.entities, e.isPattern = "true" → re e.id ≠ none) :
    functionLoop re enV s = some true ↔ PatternElement re s enV := by
  refine ⟨patternElement_of_functionLoop, ?_⟩
  have htotal : ∀ e ∈ s.entities, functionTest re enV e = some (functionTest re enV e == some true) := by
    intro e he
    by_cases hp : e.isPattern = "true"
    · obtain ⟨search, hs⟩ := Option.ne_none_iff_exists'.1 (hre e he hp)
      rw [functionTest_of_compiles hs]
      cases (e.isPattern == "true" && enV.any fun en => search en.id && e.type == some en.type) <;> rfl
    · simp [functionTest, hp]
  rintro ⟨e, he, en, hen, hp, ⟨search, hs, hm⟩, ht⟩
  rw [functionLoop, anyOf_of_total htotal]
  simp only [Option.some.injEq, List.any_eq_true, beq_iff_eq]
  refine ⟨e, he, ?_⟩
  rw [functionTest_of_compiles hs]
  simp only [Option.some.injEq, Bool.and_eq_true, beq_iff_eq, List.any_eq_true]
  exact ⟨hp, en, hen, hm, ht⟩

/-- The subscription has a pattern, and this is what the function answers on it. -/
def ReadAs (E : Engine) (re : JsRegex) (s : CasubDoc) (enV : List EntityId) (answer : Option Bool) : Prop :=
  (∃ e ∈ s.entities, e.isPattern = "true") ∧ functionAnswer E re enV s = answer

section
variable {E : Engine} {re : JsRegex} (hw : WhereFunctionSpec E re) (s : CasubDoc) (cr : ContextRegistration) (now : Int)
include hw

theorem queryPattern_iff : (queryPattern cr now).matches E s.toBson = true ↔
    now < s.expiration ∧ ReadAs E re s (notPatterns cr) (some true) := by
  have hjs : (Query.js (entitiesFunction (notPatterns cr))).matches E s.toBson = true ↔
      E.js (entitiesFunction (notPatterns cr)) s.toBson = some true := by
    rw [Query.matches, beq_iff_eq]
  rw [queryPattern, Query.matches_all_iff, ReadAs, functionAnswer_eq hw, ← isPattern_iff E s, ← hjs]
  simp only [List.forall_mem_cons, List.not_mem_nil, false_imp_iff, implies_true, and_true]
  rw [casub_expiration_iff]
  exact and_left_comm

theorem queryPattern_throws : (queryPattern cr now).throws E s.toBson = true ↔
    now < s.expiration ∧ ReadAs E re s (notPatterns cr) none := by
  rw [ReadAs, functionAnswer_eq hw, ← isPattern_iff E s, ← casub_expiration_iff E]
  simp only [queryPattern, Query.throws, Query.allPass, Query.someThrow, Bool.or_false, Bool.false_or, Bool.and_true,
    Bool.and_eq_true, Option.isNone_iff_eq_none]
  constructor
  · rintro ⟨⟨hp, hx, -⟩, hj⟩
    exact ⟨hx, hp, hj⟩
  · rintro ⟨hx, hp, hj⟩
    exact ⟨⟨hp, hx, by rw [entitiesFunction] at hj; rw [hj]; simp⟩, hj⟩

/-- **The selector** on a stored subscription. -/
theorem casubSelected_iff : (casubsSelector cr now).matches E s.toBson = true ↔
    now < s.expiration ∧ ((ExactElement s (notPatterns cr) ∧ AttrsShared s (attrNames cr)) ∨
      ReadAs E re s (notPatterns cr) (some true)) := by
  rw [casubsSelector, Query.matches_any_iff]
  simp only [List.exists_mem_cons_iff, List.not_mem_nil, false_and, exists_false, or_false]
  rw [queryNoPattern_iff, queryPattern_iff hw s]
  constructor
  · rintro (⟨h1, h2, h3⟩ | ⟨h3, h4⟩)
    · exact ⟨h3, .inl ⟨h1, h2⟩⟩
    · exact ⟨h3, .inr h4⟩
  · rintro ⟨h3, ⟨h1, h2⟩ | h4⟩
    · exact .inl ⟨h1, h2, h3⟩
    · exact .inr ⟨h3, h4⟩

/-- The function is evaluated where the first part of the selector does not hold and the rest of the second does. -/
theorem casubThrows_iff : (casubsSelector cr now).throws E s.toBson = true ↔
    now < s.expiration ∧ ¬ (ExactElement s (notPatterns cr) ∧ AttrsShared s (attrNames cr)) ∧
      ReadAs E re s (notPatterns cr) none := by
  have hno : (queryNoPattern cr now).throws E s.toBson = false := by
    refine Query.throws_of_noJs E s.toBson _ ?_
    unfold queryNoPattern
    split <;> rfl
  simp only [casubsSelector, Query.throws, Query.anyThrows, hno, Bool.false_or, Bool.or_false, Bool.and_eq_true,
    Bool.not_eq_true', Bool.and_false]
  rw [queryPattern_throws hw s, ← Bool.not_eq_true, queryNoPattern_iff]
  constructor
  · rintro ⟨hno, hx, hr⟩
    exact ⟨hx, fun h => hno ⟨h.1, h.2, hx⟩, hr⟩
  · rintro ⟨hx, hno, hr⟩
    exact ⟨fun h => hno ⟨h.1, h.2.1⟩, hx, hr⟩

end

theorem casubsSelector_compiles (E : Engine) (cr : ContextRegistration) (now : Int) :
    (casubsSelector cr now).compiles E = true ↔ E.jsCompiles (entitiesFunction (notPatterns cr)) = true := by
  have hattrs : (queryNoPattern cr now).compiles E = true := by
    unfold queryNoPattern
    split <;> simp [Query.compiles, Query.allCompile, Cond.compiles, Alt.compiles]
  simp [casubsSelector, hattrs, queryPattern, Query.compiles, Query.allCompile, Cond.compiles, entitiesFunction]

/-! ## Exactness -/

/-- The subscription is to be triggered by the registration. -/
def TriggeredBy (re : JsRegex) (s : CasubDoc) (cr : ContextRegistration) (now : Int) : Prop :=
  now < s.expiration ∧ (ExactElement s cr.entityIdVector ∨ PatternElement re s cr.entityIdVector) ∧
    AttrsShared s (attrNames cr)

/-- The server answers the lookup: the function compiles, and it throws only where the exact elements already decide. -/
structure Answered (E : Engine) (re : JsRegex) (casubs : List CasubDoc) (cr : ContextRegistration) (now : Int) : Prop where
  compiles : JsPlainEntities cr.entityIdVector ∨ E.jsCompiles (entitiesFunction cr.entityIdVector) = true
  total : ∀ s ∈ casubs, now < s.expiration → ReadAs E re s cr.entityIdVector none →
    ExactElement s cr.entityIdVector ∧ AttrsShared s (attrNames cr)

/-- The patterns of the subscription decide as they should. -/
structure PatternsAgree (E : Engine) (re : JsRegex) (s : CasubDoc) (cr : ContextRegistration) : Prop where
  /-- What the function finds comes with the attributes, which it does not test. -/
  attrs : ReadAs E re s cr.entityIdVector (some true) → AttrsShared s (attrNames cr)
  /-- What the function finds matches. -/
  read : ReadAs E re s cr.entityIdVector (some true) →
    ExactElement s cr.entityIdVector ∨ PatternElement re s cr.entityIdVector
  /-- A pattern that matches is found: no pattern before it is broken, and the literals are read as they stand. -/
  pattern : PatternElement re s cr.entityIdVector → AttrsShared s (attrNames cr) →
    ExactElement s cr.entityIdVector ∨ ReadAs E re s cr.entityIdVector (some true)

/-- For plain ids and types and patterns that compile, only the attributes can go wrong. -/
theorem patternsAgree_of_plain {E : Engine} {re : JsRegex} {s : CasubDoc} {cr : ContextRegistration}
    (hplain : JsPlainEntities cr.entityIdVector) (hre : ∀ e ∈ s.entities, e.isPattern = "true" → re e.id ≠ none)
    (hattrs : PatternElement re s cr.entityIdVector → AttrsShared s (attrNames cr)) : PatternsAgree E re s cr := by
  have hread : ReadAs E re s cr.entityIdVector (some true) ↔ PatternElement re s cr.entityIdVector := by
    rw [ReadAs, functionAnswer, if_pos hplain, functionLoop_of_compiles hre, and_iff_right_iff_imp]
    rintro ⟨e, he, -, -, hp, -⟩
    exact ⟨e, he, hp⟩
  exact ⟨fun h => hattrs (hread.1 h), fun h => .inr (hread.1 h), fun h _ => .inr (hread.2 h)⟩

theorem addTriggeredSubscriptions_keys {env : Env} {tenant : String} {now : Int} {cr : ContextRegistration}
    {subs m : SubsMap} {r : Registry} (h : (addTriggeredSubscriptions env tenant now cr subs r).1 = .ok m) (k : String) :
    k ∈ m.keys ↔ k ∈ subs.keys ∨ ∃ s ∈ casubsFound env cr now r, s.oid = k := by
  unfold addTriggeredSubscriptions at h
  simp only at h
  split at h
  · cases h
  · cases h
    rw [addCasubs, SubsMap.mem_keys_foldl (fun sub => (sub.oid, triggeredCasub sub))]

theorem notPatterns_eq {cr : ContextRegistration} (h : ∀ en ∈ cr.entityIdVector, en.isPattern = "false") :
    notPatterns cr = cr.entityIdVector :=
  List.filter_eq_self.2 fun en hen => by simp [h en hen]

/-- What the lookup finds. -/
theorem mem_casubsFound {env : Env} {re : JsRegex} (hw : WhereFunctionSpec env.engine re) {cr : ContextRegistration}
    (hp : ∀ en ∈ cr.entityIdVector, en.isPattern = "false") {now : Int} {r : Registry} {s : CasubDoc} :
    s ∈ casubsFound env cr now r ↔ Answered env.engine re r.casubs.docs cr now ∧ s ∈ r.casubs.docs ∧ now < s.expiration ∧
      ((ExactElement s cr.entityIdVector ∧ AttrsShared s (attrNames cr)) ∨
        ReadAs env.engine re s cr.entityIdVector (some true)) := by
  have hcode : env.engine.jsCompiles (entitiesFunction cr.entityIdVector) = true ↔
      JsPlainEntities cr.entityIdVector ∨ env.engine.jsCompiles (entitiesFunction cr.entityIdVector) = true :=
    ⟨.inr, fun h => h.elim (hw.compiles _) id⟩
  have hthrow : ∀ x : CasubDoc, (casubsSelector cr now).throws env.engine x.toBson = false ↔
      (now < x.expiration → ReadAs env.engine re x cr.entityIdVector none →
        ExactElement x cr.entityIdVector ∧ AttrsShared x (attrNames cr)) := by
    intro x
    rw [← Bool.not_eq_true, casubThrows_iff hw, notPatterns_eq hp]
    constructor
    · intro h hx hr
      by_contra hc
      exact h ⟨hx, hc, hr⟩
    · rintro h ⟨hx, hc, hr⟩
      exact hc (h hx hr)
  rw [casubsFound, Collection.mem_found, Collection.answer_isSome_iff, casubsSelector_compiles, casubSelected_iff hw,
    notPatterns_eq hp, hcode]
  simp only [hthrow]
  exact and_congr ⟨fun h => ⟨h.1, h.2⟩, fun h => ⟨h.compiles, h.total⟩⟩ Iff.rfl

/-- **Registrations trigger**, exactly: for every collection of availability subscriptions and every element of a
registration, a successful lookup adds the ids of the unexpired subscriptions with a matching element and
shared attributes, and no others, exactly when the patterns of each unexpired subscription decide as they should, or, if
the server refuses the lookup, when there is nothing to be triggered. -/
theorem registration_triggers_iff {env : Env} {re : JsRegex} (hw : WhereFunctionSpec env.engine re) {tenant : String}
    {now : Int} {c : Collection CasubDoc String CasubDoc.oid} {cr : ContextRegistration}
    (hp : ∀ en ∈ cr.entityIdVector, en.isPattern = "false") :
    (∀ r : Registry, r.casubs = c → ∀ subs m,
      (addTriggeredSubscriptions env tenant now cr subs r).1 = .ok m →
      ∀ k, k ∈ m.keys ↔ k ∈ subs.keys ∨ ∃ s ∈ c.docs, s.oid = k ∧ TriggeredBy re s cr now) ↔
    (Answered env.engine re c.docs cr now → ∀ s ∈ c.docs, now < s.expiration → PatternsAgree env.engine re s cr) ∧
    (¬ Answered env.engine re c.docs cr now → ∀ s ∈ c.docs, ¬ TriggeredBy re s cr now) := by
  constructor
  · intro h
    -- look the subscriptions up with nothing failing, into an empty map
    have hok : (addTriggeredSubscriptions env tenant now cr [] { casubs := c }).1 =
        .ok (addCasubs [] (casubsFound env cr now { casubs := c })) := rfl
    have hone : ∀ s ∈ c.docs, s ∈ casubsFound env cr now { casubs := c } ↔ TriggeredBy re s cr now := by
      intro s hm
      have hk := h { casubs := c } rfl [] _ hok s.oid
      rw [addTriggeredSubscriptions_keys hok] at hk
      simp only [SubsMap.keys, List.map_nil, List.not_mem_nil, false_or] at hk
      constructor
      · intro hf
        obtain ⟨s', hm', ho, ht⟩ := hk.1 ⟨s, hf, rfl⟩
        rwa [c.eq_of_key hm hm' ho.symm]
      · intro ht
        obtain ⟨s', hf, ho⟩ := hk.2 ⟨s, hm, rfl, ht⟩
        rwa [c.eq_of_key hm ((mem_casubsFound hw hp).1 hf).2.1 ho.symm]
    refine ⟨fun ha s hm hx => ?_, fun ha s hm ht => ?_⟩
    · have hs := hone s hm
      rw [mem_casubsFound hw hp, TriggeredBy] at hs
      have hs' : ((ExactElement s cr.entityIdVector ∧ AttrsShared s (attrNames cr)) ∨
          ReadAs env.engine re s cr.entityIdVector (some true)) ↔
          (ExactElement s cr.entityIdVector ∨ PatternElement re s cr.entityIdVector) ∧ AttrsShared s (attrNames cr) :=
        ⟨fun h => (hs.1 ⟨ha, hm, hx, h⟩).2, fun h => (hs.2 ⟨hx, h⟩).2.2.2⟩
      exact ⟨fun hr => (hs'.1 (.inr hr)).2, fun hr => (hs'.1 (.inr hr)).1,
        fun hpat hattrs => (hs'.2 ⟨.inr hpat, hattrs⟩).imp_left And.left⟩
    · exact ha ((mem_casubsFound hw hp).1 ((hone s hm).2 ht)).1
  · rintro ⟨hj, hn⟩ r rfl subs m hm k
    rw [addTriggeredSubscriptions_keys hm]
    refine or_congr Iff.rfl (exists_congr fun s => ?_)
    rw [mem_casubsFound hw hp, TriggeredBy]
    constructor
    · rintro ⟨⟨ha, hms, hx, hexact | hread⟩, ho⟩
      · exact ⟨hms, ho, hx, .inl hexact.1, hexact.2⟩
      · exact ⟨hms, ho, hx, (hj ha s hms hx).read hread, (hj ha s hms hx).attrs hread⟩
    · rintro ⟨hms, ho, hx, hmatch, hattrs⟩
      by_cases ha : Answered env.engine re r.casubs.docs cr now
      · refine ⟨⟨ha, hms, hx, ?_⟩, ho⟩
        rcases hmatch with hexact | hpat
        · exact .inl ⟨hexact, hattrs⟩
        · exact ((hj ha s hms hx).pattern hpat hattrs).imp_left fun hexact => ⟨hexact, hattrs⟩
      · exact absurd ⟨hx, hmatch, hattrs⟩ (hn ha s hms)

/-! ## A reference evaluation of the generated function -/

/-- The texts between double quotes; `cur` is the one being read. -/
def quotedTexts : List Char → Option (List Char) → List (List Char)
  | [], _ => []
  | c :: cs, none => if c = '"' then quotedTexts cs (some []) else quotedTexts cs none
  | c :: cs, some cur => if c = '"' then cur :: quotedTexts cs none else quotedTexts cs (some (cur ++ [c]))

theorem quotedTexts_skip : ∀ {l : List Char}, '"' ∉ l → ∀ rest, quotedTexts (l ++ rest) none = quotedTexts rest none
  | [], _, _ => rfl
  | c :: l, h, rest => by
    rw [List.mem_cons, not_or] at h
    rw [List.cons_append, quotedTexts, if_neg (Ne.symm h.1), quotedTexts_skip h.2 rest]

theorem quotedTexts_read : ∀ {l : List Char}, '"' ∉ l → ∀ cur rest,
    quotedTexts (l ++ '"' :: rest) (some cur) = (cur ++ l) :: quotedTexts rest none
  | [], _, cur, rest => by simp [quotedTexts]
  | c :: l, h, cur, rest => by
    rw [List.mem_cons, not_or] at h
    rw [List.cons_append, quotedTexts, if_neg (Ne.symm h.1), quotedTexts_read h.2]
    simp

theorem quotedTexts_jsItems : ∀ {v : List String}, (∀ x ∈ v, '"' ∉ x.toList) → ∀ rest,
    quotedTexts ((jsItems v).toList ++ rest) none = v.map String.toList ++ quotedTexts rest none
  | [], _, rest => by simp [jsItems]
  | [s], h, rest => by
    have e : (jsItems [s]).toList ++ rest = '"' :: (s.toList ++ '"' :: rest) := by simp [jsItems]
    rw [e, quotedTexts, if_pos rfl, quotedTexts_read (h s (by simp))]
    simp
  | s :: t :: v, h, rest => by
    have e : (jsItems (s :: t :: v)).toList ++ rest =
        '"' :: (s.toList ++ '"' :: ([' ', ','] ++ ((jsItems (t :: v)).toList ++ rest))) := by simp [jsItems]
    rw [e, quotedTexts, if_pos rfl, quotedTexts_read (h s (by simp)), quotedTexts_skip (by decide),
      quotedTexts_jsItems (fun x hx => h x (by simp [hx]))]
    simp

theorem quotedTexts_jsArray {v : List String} (h : ∀ x ∈ v, '"' ∉ x.toList) (rest : List Char) :
    quotedTexts ((jsArray v).toList ++ rest) none = v.map String.toList ++ quotedTexts rest none := by
  have e : (jsArray v).toList ++ rest = ['[', ' '] ++ ((jsItems v).toList ++ ([' ', ']'] ++ rest)) := by simp [jsArray]
  rw [e, quotedTexts_skip (by decide), quotedTexts_jsItems h, quotedTexts_skip (by decide)]

/-- The text of the function without its loops. -/
def literalsText (code : String) : List Char := code.toList.take (code.toList.length - functionAfter.toList.length)

theorem quotedTexts_whereFunction {idJsV typeJsV : List String} (hi : ∀ x ∈ idJsV, '"' ∉ x.toList)
    (ht : ∀ x ∈ typeJsV, '"' ∉ x.toList) :
    quotedTexts (literalsText (whereFunction idJsV typeJsV)) none = (idJsV ++ typeJsV).map String.toList := by
  have e : (whereFunction idJsV typeJsV).toList = (functionBefore.toList ++ ((jsArray idJsV).toList ++
      (functionBetween.toList ++ ((jsArray typeJsV).toList ++ [])))) ++ functionAfter.toList := by
    simp only [whereFunction, String.toList_append, List.append_assoc, List.append_nil]
  rw [literalsText, e]
  generalize hpre : functionBefore.toList ++ _ = pre
  rw [List.length_append, Nat.add_sub_cancel, List.take_left, ← hpre, quotedTexts_skip (by decide), quotedTexts_jsArray hi,
    quotedTexts_skip (by decide), quotedTexts_jsArray ht, List.map_append]
  simp [quotedTexts]

/-- The inner loop, on an element of the document. -/
def functionElement (re : JsRegex) (enId enType : List String) (e : Bson) : Option Bool :=
  if e.sub "isPattern" == [.str "true"] then
    match e.sub "id" with
    | [.str pattern] =>
      anyOf (fun p => (re pattern).map fun search => search p.1 && (e.sub "type" == [.str p.2])) (enId.zip enType)
    | _ => none
  else some false

/-- `whereFunction` on a document: half of the literals are the ids, the other half the types. -/
def functionJs (re : JsRegex) (code : String) (d : Bson) : Option Bool :=
  let texts := (quotedTexts (literalsText code) none).map String.ofList
  match d.at ["entities"] with
  | [.arr xs] => anyOf (functionElement re (texts.take (texts.length / 2)) (texts.drop (texts.length / 2))) xs
  | _ => none

theorem functionElement_casubEntity (re : JsRegex) (enV : List EntityId) (e : SubEntity) :
    functionElement re (enV.map EntityId.id) (enV.map EntityId.type) (casubEntity e) = functionTest re enV e := by
  have hid : (casubEntity e).sub "id" = [.str e.id] := by simp [casubEntity, Bson.sub]
  have hty : (casubEntity e).sub "type" = (e.type.map Bson.str).toList := by
    cases ht : e.type <;> simp [casubEntity, Bson.sub, optField, List.lookup_cons, ht]
  have hp : ([Bson.str e.isPattern] == [.str "true"]) = (e.isPattern == "true") := by
    rw [Bool.eq_iff_iff]
    simp
  have ht : ∀ t, ((e.type.map Bson.str).toList == [Bson.str t]) = (e.type == some t) := by
    intro t
    rw [Bool.eq_iff_iff]
    cases e.type <;> simp
  simp only [functionElement, functionTest, casubEntity_sub_isPattern, hid, hty, hp, ht, List.zip_map', anyOf_map]

theorem whereFunctionSpec_functionJs (re : JsRegex) : WhereFunctionSpec (.evaluating (functionJs re)) re where
  compiles _ _ := rfl
  eval enV s hplain := by
    have hids : ∀ x ∈ enV.map EntityId.id, '"' ∉ x.toList := by
      intro x hx
      obtain ⟨en, hen, rfl⟩ := List.mem_map.1 hx
      exact (hplain en hen).1.noQuote
    have htypes : ∀ x ∈ enV.map EntityId.type, '"' ∉ x.toList := by
      intro x hx
      obtain ⟨en, hen, rfl⟩ := List.mem_map.1 hx
      exact (hplain en hen).2.noQuote
    have htexts : (quotedTexts (literalsText (entitiesFunction enV)) none).map String.ofList =
        enV.map EntityId.id ++ enV.map EntityId.type := by
      rw [entitiesFunction, quotedTexts_whereFunction hids htypes, List.map_map]
      simp [Function.comp_def]
    have hhalf : (enV.map EntityId.id ++ enV.map EntityId.type).length / 2 = (enV.map EntityId.id).length := by
      rw [List.length_append, List.length_map, List.length_map]
      omega
    have hjs : (Engine.evaluating (functionJs re)).js = functionJs re := rfl
    rw [hjs]
    unfold functionJs functionLoop
    simp only [htexts, hhalf, List.take_left, List.drop_left, casub_at_entities, anyOf_map, functionElement_casubEntity]

/-! ## Two subscriptions to rooms -/

/-- The registration of attribute `t` of `Room` of type `T`. -/
def roomT : ContextRegistration where
  entityIdVector := [{ id := "Room", type := "T", isPattern := "false" }]
  contextRegistrationAttributeVector := [{ name := "t" }]
  providingApplication := "http://provider"

/-- A subscription of the given id, elements and attributes. -/
def casub (oid : String) (entities : List SubEntity) (attrs : List String) : CasubDoc where
  oid := oid
  expiration := 10
  reference := "http://host/notify"
  entities := entities
  attrs := attrs

/-- Patterns that are looked for as they stand; `*` is broken. -/
def looksFor : JsRegex := fun p => if p = "*" then none else some fun s => decide (p.toList <:+: s.toList)

/-- The reference evaluation, with these patterns. -/
def registerEnv : Env := .evaluating (functionJs looksFor)

def exactRoom : CasubDoc := casub "s1" [⟨"Room", some "T", "false"⟩] ["t"]

/-- To `R` as a pattern, for another attribute. -/
def patternRoom : CasubDoc := casub "s2" [⟨"R", some "T", "true"⟩] ["u"]

/-- To `*`, which is no regular expression. -/
def starRoom : CasubDoc := casub "s3" [⟨"*", some "T", "true"⟩] ["t"]

theorem registerEnv_where : WhereFunctionSpec registerEnv.engine looksFor := whereFunctionSpec_functionJs looksFor

theorem roomT_plain : JsPlainEntities roomT.entityIdVector := by decide

theorem exactRoom_triggered :
    TriggeredBy looksFor exactRoom roomT 0 ∧
    ∀ r : Registry, r.casubs = ⟨[exactRoom], by decide⟩ → ∀ subs m,
      (addTriggeredSubscriptions registerEnv "" 0 roomT subs r).1 = .ok m →
      ∀ k, k ∈ m.keys ↔ k ∈ subs.keys ∨ ∃ s ∈ [exactRoom], s.oid = k ∧ TriggeredBy looksFor s roomT 0 := by
  have hx : ExactElement exactRoom roomT.entityIdVector := by simp [ExactElement, exactRoom, casub, roomT]
  have ha : AttrsShared exactRoom (attrNames roomT) := by simp [AttrsShared, exactRoom, casub, roomT, attrNames]
  have hp : ∀ en ∈ roomT.entityIdVector, en.isPattern = "false" := by decide
  refine ⟨⟨by decide, .inl hx, ha⟩, (registration_triggers_iff registerEnv_where hp).2 ⟨fun _ s hs _ => ?_, fun h => ?_⟩⟩
  · rw [List.mem_singleton.1 hs]
    exact patternsAgree_of_plain roomT_plain (by decide) fun _ => ha
  · refine absurd ⟨.inl roomT_plain, fun s hs _ _ => ?_⟩ h
    rw [List.mem_singleton.1 hs]
    exact ⟨hx, ha⟩

/-- **Triggered without its attribute**: the registration of `t` triggers the subscription to `u`. Beside the one to `*`
it does not even trigger the subscription to `Room` and `t`. -/
theorem patternRoom_triggered :
    ((addTriggeredSubscriptions registerEnv "" 0 roomT [] { casubs := ⟨[patternRoom], by decide⟩ }).1.toOption.map
        SubsMap.keys = some ["s2"] ∧ ¬ TriggeredBy looksFor patternRoom roomT 0) ∧
    (addTriggeredSubscriptions registerEnv "" 0 roomT [] { casubs := ⟨[exactRoom, starRoom], by decide⟩ }).1.toOption.map
        SubsMap.keys = some [] ∧ TriggeredBy looksFor exactRoom roomT 0 := by
  have hnot : notPatterns roomT = roomT.entityIdVector := notPatterns_eq (by decide)
  have hcompiles : (casubsSelector roomT 0).compiles registerEnv.engine = true :=
    (casubsSelector_compiles _ roomT 0).2 rfl
  have hread : ∀ s answer, functionLoop looksFor roomT.entityIdVector s = answer → (∃ e ∈ s.entities, e.isPattern = "true") →
      ReadAs registerEnv.engine looksFor s (notPatterns roomT) answer := by
    intro s answer h hp
    rw [hnot]
    exact ⟨hp, by rw [functionAnswer, if_pos roomT_plain, h]⟩
  refine ⟨⟨?_, ?_⟩, ?_, by decide, .inl ?_, ?_⟩
  · have hr := hread patternRoom (some true) (by decide) ⟨_, List.mem_singleton.2 rfl, rfl⟩
    have hmatch := (casubSelected_iff registerEnv_where patternRoom roomT 0).2 ⟨by decide, .inr hr⟩
    have hquiet : (casubsSelector roomT 0).throws registerEnv.engine patternRoom.toBson = false := by
      rw [← Bool.not_eq_true, casubThrows_iff registerEnv_where]
      rintro ⟨-, -, -, hn⟩
      rw [hr.2] at hn
      cases hn
    have hfound : casubsFound registerEnv roomT 0 { casubs := ⟨[patternRoom], by decide⟩ } = [patternRoom] := by
      simp [casubsFound, Collection.found, Collection.answer, Collection.find, hcompiles, hmatch, hquiet]
    have hok : (addTriggeredSubscriptions registerEnv "" 0 roomT [] { casubs := ⟨[patternRoom], by decide⟩ }).1 =
        .ok (addCasubs [] (casubsFound registerEnv roomT 0 { casubs := ⟨[patternRoom], by decide⟩ })) := rfl
    rw [hok, hfound]
    rfl
  · rintro ⟨_, _, h⟩
    simp [AttrsShared, patternRoom, casub, roomT, attrNames] at h
  · have hthrow : (casubsSelector roomT 0).throws registerEnv.engine starRoom.toBson = true :=
      (casubThrows_iff registerEnv_where starRoom roomT 0).2 ⟨by decide,
        by rw [hnot]; simp [ExactElement, starRoom, casub],
        hread starRoom none (by decide) ⟨_, List.mem_singleton.2 rfl, rfl⟩⟩
    have hfound : casubsFound registerEnv roomT 0 { casubs := ⟨[exactRoom, starRoom], by decide⟩ } = [] := by
      simp [casubsFound, Collection.found, Collection.answer, hthrow]
    have hok : (addTriggeredSubscriptions registerEnv "" 0 roomT [] { casubs := ⟨[exactRoom, starRoom], by decide⟩ }).1 =
        .ok (addCasubs [] (casubsFound registerEnv roomT 0 { casubs := ⟨[exactRoom, starRoom], by decide⟩ })) := rfl
    rw [hok, hfound]
    rfl
  · simp [ExactElement, exactRoom, casub, roomT]
  · simp [AttrsShared, exactRoom, casub, roomT, attrNames]

end OrionBroker.Register
