import OrionBroker.Lib.Pieces
import OrionBroker.Update.Triggers

/-!
# Which subscriptions are triggered, exactly

* `servicePathSubscriptionRegex_iff`: on canonical paths the generated regex is "the same path, or a `/#`
  path that covers it".
* `servicePathSubscriptionRegex_covering`: the texts it finds, for a path of any length; a final newline passes.
* `selected_types`: what the selector tests on a stored subscription. Its conditions on `entities` are
  dotted, so the id, the type and `isPattern: "false"` may come from three different elements, and
  `$exists: false` on the type never holds, because `mongoSubscribeContext` stores an empty type as `""`.
* `throws_types`: where the generated function throws. One such subscription makes the lookup find nothing.
* `triggered_exact_iff`: the ids found are those of the subscriptions with one matching element exactly
  when none of this matters.
-/

namespace OrionBroker

open Mongo

/-! ## The regex of the service path -/

theorem component_reads {c : List Char} (h : PlainComponent c) : Regex.Reads c c := by
  have := Regex.reads_flatMap (fun x => [x]) c fun x hx => by
    rcases h.chars x hx with hp | rfl
    · exact Regex.reads_plain (pathChar_plain hp)
    · exact Regex.reads_plain (by decide)
  simpa using this

theorem pathText_reads : ∀ {cs : List (List Char)}, (∀ c ∈ cs, PlainComponent c) →
    Regex.Reads (pathText cs) (joinPath cs)
  | [], _ => by simpa [pathText, joinPath] using Regex.reads_nil
  | c :: cs, h => by
    have hs : Regex.Reads ['\\', '/'] ['/'] := Regex.reads_escaped (by decide)
    have ih := @pathText_reads cs fun d hd => h d (by simp [hd])
    simpa [pathText, joinPath] using (hs.append (component_reads (h c (by simp)))).append ih

/-- The texts between `^` and `$`. -/
def coveringTexts (cs : List (List Char)) : List (List Char) :=
  "\\/#".toList :: ((List.range cs.length).map (fun ix => pathText (cs.take (ix + 1)) ++ "\\/#".toList) ++
    [pathText cs])

/-- The paths they stand for. -/
def coveringPaths (cs : List (List Char)) : List (List Char) :=
  "/#".toList :: ((List.range cs.length).map (fun ix => joinPath (cs.take (ix + 1)) ++ "/#".toList) ++
    [joinPath cs])

theorem spathRegexOf_eq {cs : List (List Char)} (h : cs ≠ []) :
    spathRegexOf cs = Regex.wholesText [] (coveringTexts cs) := by
  have hl : cs.length ≠ 0 := by simpa using h
  simp [spathRegexOf, hl, Regex.wholesText, coveringTexts, List.flatMap_map]

theorem coveringTexts_read {cs : List (List Char)} (h : ∀ c ∈ cs, PlainComponent c) :
    List.Forall₂ Regex.Reads (coveringTexts cs) (coveringPaths cs) := by
  have hash : Regex.Reads "\\/#".toList "/#".toList := by
    have h1 : Regex.Reads ['\\', '/'] ['/'] := Regex.reads_escaped (by decide)
    have h2 : Regex.Reads ['#'] ['#'] := Regex.reads_plain (by decide)
    simpa using h1.append h2
  refine .cons hash (List.rel_append ?_ (.cons (pathText_reads h) .nil))
  rw [List.forall₂_map_left_iff, List.forall₂_map_right_iff, List.forall₂_same]
  intro ix _
  exact (pathText_reads fun c hc => h c (List.mem_of_mem_take hc)).append hash

/-- The paths a request under `cs` reaches: the empty one, and those listed. -/
theorem regex_coveringPaths (E : Engine) {cs : List (List Char)} (hne : cs ≠ [])
    (h : ∀ c ∈ cs, PlainComponent c) (q : String) :
    E.regex (String.ofList (spathRegexOf cs)) q = true ↔
      ∃ p ∈ [] :: coveringPaths cs, q.toList = p ∨ q.toList = p ++ ['\n'] := by
  have hp := Regex.parse_wholes Regex.reads_nil (coveringTexts_read h)
  rw [← spathRegexOf_eq hne] at hp
  rw [E.regex_spec _ _ (by rw [String.toList_ofList]; exact hp), Regex.search_wholes]

theorem regex_rootPaths (E : Engine) (q : String) :
    E.regex (String.ofList (spathRegexOf [])) q = true ↔
      ∃ p ∈ [[], "/#".toList, "/".toList], q.toList = p ∨ q.toList = p ++ ['\n'] := by
  have hp : Regex.parse (spathRegexOf []) = some ([[], "/#".toList, "/".toList].map Regex.whole) := by decide
  rw [E.regex_spec _ _ (by rw [String.toList_ofList]; exact hp), Regex.search_wholes]

theorem mem_coveringPaths {cs : List (List Char)} {l : List Char} : l ∈ [] :: coveringPaths cs ↔
    l = [] ∨ l = "/#".toList ∨ (∃ i, 1 ≤ i ∧ i ≤ cs.length ∧ l = joinPath (cs.take i) ++ "/#".toList) ∨
      l = joinPath cs := by
  have hix : (∃ ix, ix < cs.length ∧ joinPath (cs.take (ix + 1)) ++ "/#".toList = l) ↔
      ∃ i, 1 ≤ i ∧ i ≤ cs.length ∧ l = joinPath (cs.take i) ++ "/#".toList := by
    constructor
    · rintro ⟨ix, hix, rfl⟩
      exact ⟨ix + 1, by omega, by omega, rfl⟩
    · rintro ⟨i, h1, h2, rfl⟩
      exact ⟨i - 1, by omega, by rw [show i - 1 + 1 = i by omega]⟩
  simp only [coveringPaths, List.mem_cons, List.mem_append, List.mem_map, List.mem_range, List.not_mem_nil, or_false, hix]

/-- **The regex, on every text.** `$` also holds before a final newline. The root is the path without components. -/
theorem servicePathSubscriptionRegex_covering (E : Engine) {cs : List (List Char)} (hne : cs ≠ [])
    (h : ∀ c ∈ cs, c ≠ [] ∧ ∀ x ∈ c, pathChar x = true) {root : String} (hroot : root = "" ∨ root = "/") (s : String) :
    (E.regex (servicePathSubscriptionRegex (String.ofList (joinPath cs))) s = true ↔
      ∃ l, (s.toList = l ∨ s.toList = l ++ ['\n']) ∧
        (l = [] ∨ l = "/#".toList ∨ (∃ i, 1 ≤ i ∧ i ≤ cs.length ∧ l = joinPath (cs.take i) ++ "/#".toList) ∨
          l = joinPath cs)) ∧
    (E.regex (servicePathSubscriptionRegex root) s = true ↔
      ∃ l, (s.toList = l ∨ s.toList = l ++ ['\n']) ∧ (l = [] ∨ l = "/#".toList ∨ l = "/".toList)) := by
  have hplain : ∀ c ∈ cs, PlainComponent c := fun c hc => ⟨(h c hc).1, fun x hx => .inl ((h c hc).2 x hx)⟩
  constructor
  · have htext : String.ofList (joinPath cs) ≠ "" := by
      intro e
      have hnil : joinPath cs = [] := by rw [← String.toList_ofList (l := joinPath cs), e]; rfl
      obtain ⟨c, cs', rfl⟩ := List.exists_cons_of_ne_nil hne
      simp [joinPath] at hnil
    rw [servicePathSubscriptionRegex, if_pos htext, String.toList_ofList, stringSplit_joinPath hplain,
      regex_coveringPaths E hne hplain]
    exact exists_congr fun l => by rw [mem_coveringPaths, and_comm]
  · have hsplit : servicePathSubscriptionRegex root = String.ofList (spathRegexOf []) := by
      rcases hroot with rfl | rfl <;> rfl
    rw [hsplit, regex_rootPaths]
    exact exists_congr fun l => by simp only [List.mem_cons, List.not_mem_nil, or_false, and_comm]

/-- A newline behind the path. -/
theorem gardens_newline :
    (Engine.fragment fun _ _ => false).regex (servicePathSubscriptionRegex "/Madrid/Gardens") "/Madrid/Gardens\n" = true ∧
    "/Madrid/Gardens\n" ∉ ["", "/#", "/Madrid/#", "/Madrid/Gardens/#", "/Madrid/Gardens"] := by
  decide +kernel

theorem gardens_covering :
    ((Engine.fragment fun _ _ => false).regex
        (servicePathSubscriptionRegex (String.ofList (joinPath ["Madrid".toList, "Gardens".toList]))) "/Madrid/#" = true ↔
      ∃ l, ("/Madrid/#".toList = l ∨ "/Madrid/#".toList = l ++ ['\n']) ∧
        (l = [] ∨ l = "/#".toList ∨ (∃ i, 1 ≤ i ∧ i ≤ 2 ∧
          l = joinPath (["Madrid".toList, "Gardens".toList].take i) ++ "/#".toList) ∨
          l = joinPath ["Madrid".toList, "Gardens".toList])) ∧
    ((Engine.fragment fun _ _ => false).regex (servicePathSubscriptionRegex "/") "/Madrid/#" = true ↔
      ∃ l, ("/Madrid/#".toList = l ∨ "/Madrid/#".toList = l ++ ['\n']) ∧ (l = [] ∨ l = "/#".toList ∨ l = "/".toList)) :=
  servicePathSubscriptionRegex_covering (.fragment fun _ _ => false) (by simp) (by
    intro c hc
    rcases List.mem_cons.1 hc with rfl | hc
    · exact ⟨by decide, List.all_eq_true.1 (by decide)⟩
    · rw [List.mem_singleton.1 hc]
      exact ⟨by decide, List.all_eq_true.1 (by decide)⟩) (.inr rfl) "/Madrid/#"

theorem newline_not_mem (q : ServicePath) : '\n' ∉ q.chars := by
  intro h
  rcases q.mem_chars h with h | h | h
  · exact absurd h (by decide)
  · exact absurd h (by decide)
  · exact absurd h (by decide)

/-- A path has no final newline, so `$` is the end. -/
theorem chars_eq_or_newline_iff (q : ServicePath) (l : List Char) :
    (q.chars = l ∨ q.chars = l ++ ['\n']) ↔ q.chars = l := by
  refine ⟨fun h => h.resolve_right fun e => newline_not_mem q ?_, .inl⟩
  rw [e]; simp

theorem hash_facts : ComponentFacts ['#'] := ⟨by simp, by simp, by simp⟩

theorem snoc_hash_facts {cs : List (List Char)} (h : ∀ c ∈ cs, ComponentFacts c) :
    ∀ c ∈ cs ++ [['#']], ComponentFacts c := by
  intro c hc
  rcases List.mem_append.1 hc with hc | hc
  · exact h c hc
  · rw [List.mem_singleton.1 hc]; exact hash_facts

theorem joinPath_hash (cs : List (List Char)) : joinPath cs ++ "/#".toList = joinPath (cs ++ [['#']]) := by
  simp [joinPath]

/-- `…/#` in a text, as components. -/
theorem ServicePath.chars_eq_hash_iff (q : ServicePath) {cs : List (List Char)}
    (h : ∀ c ∈ cs, ComponentFacts c) : q.chars = joinPath cs ++ "/#".toList ↔ q.components = cs ++ [['#']] := by
  rw [joinPath_hash]
  exact q.chars_eq_joinPath_iff (by simp) (snoc_hash_facts h)

theorem exists_take_iff {cs : List (List Char)} {q : List (List Char)} :
    (q = [] ++ [['#']] ∨ ∃ ix < cs.length, q = cs.take (ix + 1) ++ [['#']]) ↔
      ∃ pre, q = pre ++ [['#']] ∧ pre <+: cs := by
  constructor
  · rintro (h | ⟨ix, _, h⟩)
    · exact ⟨[], h, List.nil_prefix⟩
    · exact ⟨_, h, List.take_prefix _ _⟩
  · rintro ⟨pre, h, hp⟩
    cases pre with
    | nil => exact .inl h
    | cons c pre =>
      have hl := hp.length_le
      refine .inr ⟨pre.length, by rw [List.length_cons] at hl; omega, ?_⟩
      rw [h, List.prefix_iff_eq_take.1 hp]
      simp

section
variable (E : Engine) {path : String} {p : ServicePath} (hp : path.toList = p.chars)
include hp

theorem servicePathSubscriptionRegex_eq :
    servicePathSubscriptionRegex path = String.ofList (spathRegexOf p.components) := by
  have hne : path ≠ "" := by
    rintro rfl
    exact p.chars_ne_nil hp.symm
  rw [servicePathSubscriptionRegex, if_pos hne, hp, stringSplit_chars]

/-- **The regex of a path** finds, among the canonical paths, the path itself and the `/#` paths that cover
it. -/
theorem servicePathSubscriptionRegex_iff {q : String} {sq : ServicePath} (hq : q.toList = sq.chars) :
    E.regex (servicePathSubscriptionRegex path) q = true ↔
      sq.components = p.components ∨ sq.Covers p := by
  rw [servicePathSubscriptionRegex_eq hp]
  by_cases hc : p.components = []
  · rw [hc, regex_rootPaths, hq]
    simp only [chars_eq_or_newline_iff, List.exists_mem_cons_iff, List.not_mem_nil, false_and, exists_false,
      or_false]
    have h1 : sq.chars ≠ [] := sq.chars_ne_nil
    have h2 := @ServicePath.chars_eq_hash_iff sq [] (by simp)
    have h3 : sq.chars = "/".toList ↔ sq.components = [] := by
      constructor
      · intro e; rw [← stringSplit_chars sq, e]; rfl
      · intro e; rw [ServicePath.chars, if_pos e]; rfl
    have h4 : sq.Covers p ↔ sq.components = [] ++ [['#']] := by
      rw [ServicePath.Covers, hc, ← exists_take_iff]; simp
    rw [h3, h4, ← h2]
    simp only [h1, false_or]
    exact or_comm
  · have hf := p.facts
    rw [regex_coveringPaths E hc fun c hc => (hf c hc).plain, hq]
    simp only [chars_eq_or_newline_iff, coveringPaths, List.exists_mem_cons_iff, sq.chars_ne_nil, false_or]
    have h1 := @ServicePath.chars_eq_hash_iff sq [] (by simp)
    have h2 := sq.chars_eq_joinPath_iff hc hf
    rw [ServicePath.Covers, ← exists_take_iff, ← h1]
    simp only [List.mem_append, List.mem_map, List.mem_range, List.mem_singleton]
    constructor
    · rintro (h | ⟨x, ⟨ix, hix, rfl⟩ | rfl, hx⟩)
      · exact .inr (.inl h)
      · exact .inr (.inr ⟨ix, hix, (sq.chars_eq_hash_iff fun c hc => hf c (List.mem_of_mem_take hc)).1 hx⟩)
      · exact .inl (h2.1 hx)
    · rintro (h | h | ⟨ix, hix, h⟩)
      · exact .inr ⟨_, .inr rfl, h2.2 h⟩
      · exact .inl h
      · exact .inr ⟨_, .inl ⟨ix, hix, rfl⟩,
          (sq.chars_eq_hash_iff fun c hc => hf c (List.mem_of_mem_take hc)).2 h⟩

theorem servicePathSubscriptionRegex_empty : E.regex (servicePathSubscriptionRegex path) "" = true := by
  rw [servicePathSubscriptionRegex_eq hp]
  by_cases hc : p.components = []
  · rw [hc, regex_rootPaths]; exact ⟨[], by simp, .inl rfl⟩
  · rw [regex_coveringPaths E hc fun c hc => (p.facts c hc).plain]; exact ⟨[], by simp, .inl rfl⟩

end

/-! ## What the selector sees of a subscription -/

section
variable (s : SubDoc)

theorem sub_at_expiration : s.toBson.at ["expiration"] = [.int s.expiration] := by
  simp [SubDoc.toBson, SubDoc.fields, Bson.at, Bson.step, Bson.sub, List.lookup_cons]

theorem sub_at_entities (f : String) :
    s.toBson.at ["entities", f] = s.entities.flatMap fun e => e.toBson.sub f := by
  have h1 : s.toBson.step "entities" = [.arr (s.entities.map SubEntity.toBson)] := by
    simp [SubDoc.toBson, SubDoc.fields, Bson.step, Bson.sub, List.lookup_cons]
  have h2 : (Bson.arr (s.entities.map SubEntity.toBson)).step f =
      s.entities.flatMap fun e => e.toBson.sub f := by
    simp [Bson.step, List.flatMap_map]
  simp [Bson.at, h1, h2]

theorem sub_at_conditions (f : String) :
    s.toBson.at ["conditions", f] = s.conditions.flatMap fun c => c.toBson.sub f := by
  have h1 : s.toBson.step "conditions" = [.arr (s.conditions.map SubCond.toBson)] := by
    simp [SubDoc.toBson, SubDoc.fields, Bson.step, Bson.sub, List.lookup_cons]
  have h2 : (Bson.arr (s.conditions.map SubCond.toBson)).step f =
      s.conditions.flatMap fun c => c.toBson.sub f := by
    simp [Bson.step, List.flatMap_map]
  simp [Bson.at, h1, h2]

theorem sub_at_servicePath : s.toBson.at ["servicePath"] = (s.servicePath.map Bson.str).toList := by
  have h : s.toBson.step "servicePath" = (s.servicePath.map Bson.str).toList := by
    simp only [SubDoc.toBson, SubDoc.fields, Bson.step, Bson.sub, List.lookup_cons, List.append_assoc]
    simp only [show ("servicePath" == "_id") = false by decide,
      show ("servicePath" == "expiration") = false by decide,
      show ("servicePath" == "reference") = false by decide,
      show ("servicePath" == "entities") = false by decide, show ("servicePath" == "attrs") = false by decide,
      show ("servicePath" == "conditions") = false by decide]
    rw [lookup_optField_append _ _ _ _ (by decide)]
    cases hp : s.servicePath with
    | some q => simp [optField]
    | none =>
      -- no later field is called `servicePath`
      have h0 : optField "servicePath" (none.map Bson.str) = [] := rfl
      rw [h0, List.nil_append, lookup_optField_append _ _ _ _ (by decide),
        lookup_optField_append _ _ _ _ (by decide)]
      cases s.format <;> simp [optField, List.lookup_cons]
  simp [Bson.at, h]

theorem entity_sub_id (e : SubEntity) : e.toBson.sub "id" = [.str e.id] := by
  simp [SubEntity.toBson, Bson.sub]

theorem entity_sub_isPattern (e : SubEntity) : e.toBson.sub "isPattern" = [.str e.isPattern] := by
  simp [SubEntity.toBson, Bson.sub, List.lookup_cons]

theorem entity_sub_type (e : SubEntity) : e.toBson.sub "type" = (e.type.map Bson.str).toList := by
  cases h : e.type <;> simp [SubEntity.toBson, Bson.sub, List.lookup_cons, optField, h]

end

/-! ## One dotted condition at a time -/

section
variable (E : Engine) (s : SubDoc)

theorem entities_field_iff {f : String} {g : SubEntity → String} (hg : ∀ e : SubEntity, e.toBson.sub f = [Bson.str (g e)])
    (v : String) :
    (Query.field ["entities", f] (.eq (.str v))).matches E s.toBson = true ↔ ∃ e ∈ s.entities, g e = v := by
  simp only [Query.matches, Cond.holds, sub_at_entities, hg, List.any_eq_true, List.mem_flatMap,
    List.mem_singleton]
  constructor
  · rintro ⟨x, ⟨e, he, rfl⟩, hx⟩
    have : v = g e := by simpa [Bson.leaves] using hx
    exact ⟨e, he, this.symm⟩
  · rintro ⟨e, he, rfl⟩
    exact ⟨_, ⟨e, he, rfl⟩, by simp [Bson.leaves]⟩

theorem entities_type_iff (v : String) :
    (Query.field ["entities", "type"] (.eq (.str v))).matches E s.toBson = true ↔
      ∃ e ∈ s.entities, e.type = some v := by
  simp only [Query.matches, Cond.holds, sub_at_entities, entity_sub_type, List.any_eq_true, List.mem_flatMap,
    Option.mem_toList, Option.map_eq_some_iff]
  constructor
  · rintro ⟨x, ⟨e, he, t, ht, rfl⟩, hx⟩
    have : v = t := by simpa [Bson.leaves] using hx
    exact ⟨e, he, by rw [ht, this]⟩
  · rintro ⟨e, he, ht⟩
    exact ⟨.str v, ⟨e, he, v, ht, rfl⟩, by simp [Bson.leaves]⟩

theorem entities_noType_iff :
    (Query.field ["entities", "type"] (.exists false)).matches E s.toBson = true ↔
      ∀ e ∈ s.entities, e.type = none := by
  simp [Cond.holds, sub_at_entities, entity_sub_type, List.flatMap_eq_nil_iff]

theorem expiration_iff (now : Int) :
    (Query.field ["expiration"] (.gt now)).matches E s.toBson = true ↔ s.expiration > now := by
  simp [Cond.holds, sub_at_expiration, Bson.leaves, Bson.isIntWith]

/-- Only an ONCHANGE condition has string values, so the two conditions meet in one element. -/
theorem conditions_iff (attr : String) :
    ((Query.field ["conditions", "type"] (.eq (.str "ONCHANGE"))).matches E s.toBson = true ∧
     (Query.field ["conditions", "value"] (.eq (.str attr))).matches E s.toBson = true) ↔
      ∃ vs, .onChange vs ∈ s.conditions ∧ attr ∈ vs := by
  simp only [Query.matches, Cond.holds, sub_at_conditions, List.any_eq_true, List.mem_flatMap]
  constructor
  · rintro ⟨_, x, ⟨c, hc, hx⟩, hv⟩
    cases c with
    | onTimeInterval n =>
      simp [SubCond.toBson, Bson.sub, List.lookup_cons] at hx
      subst hx
      simp [Bson.leaves] at hv
    | onChange vs =>
      simp [SubCond.toBson, Bson.sub, List.lookup_cons] at hx
      subst hx
      refine ⟨vs, hc, ?_⟩
      simpa [Bson.leaves] using hv
  · rintro ⟨vs, hc, ha⟩
    refine ⟨⟨.str "ONCHANGE", ⟨_, hc, ?_⟩, ?_⟩, ⟨.arr (vs.map .str), ⟨_, hc, ?_⟩, ?_⟩⟩
    · simp [SubCond.toBson, Bson.sub]
    · simp [Bson.leaves]
    · simp [SubCond.toBson, Bson.sub, List.lookup_cons]
    · simpa [Bson.leaves] using ha

theorem servicePath_iff (path : String) :
    (Query.field ["servicePath"] (spBson path)).matches E s.toBson = true ↔
      ∀ q, s.servicePath = some q → E.regex (servicePathSubscriptionRegex path) q = true := by
  cases h : s.servicePath <;>
    simp [Cond.holds, spBson, sub_at_servicePath, Alt.holds, Bson.leaves, Bson.isStrWith, h]

end

/-! ## Exactness -/

/-- A subscription as `mongoSubscribeContext` stores it (mongoSubscribeContext.cpp:71-136): the type of an
element is always there, `isPattern` is "true" or "false", the path is canonical if there is one. -/
structure AsStored (s : SubDoc) : Prop where
  type : ∀ e ∈ s.entities, e.type.isSome = true
  isPattern : ∀ e ∈ s.entities, e.isPattern = "true" ∨ e.isPattern = "false"
  servicePath : ∀ q, s.servicePath = some q → q = "" ∨ CanonicalPath q

/-- The path of the subscription is absent, empty, the given one, or a `/#` path that covers it. -/
def PathMatches (s : SubDoc) (p : ServicePath) : Prop :=
  s.servicePath = none ∨ s.servicePath = some "" ∨
    ∃ q : ServicePath, s.servicePath = some (String.ofList q.chars) ∧
      (q.components = p.components ∨ q.Covers p)

/-- Unexpired, with an ONCHANGE condition on the attribute, under a path that matches. -/
structure Live (s : SubDoc) (attr : String) (p : ServicePath) (now : Int) : Prop where
  expiration : s.expiration > now
  condition : ∃ vs, .onChange vs ∈ s.conditions ∧ attr ∈ vs
  path : PathMatches s p

/-- An element with a literal id that matches the entity. -/
def SingleMatch (s : SubDoc) (entityId entityType : String) : Prop :=
  ∃ e ∈ s.entities, e.isPattern = "false" ∧ e.id = entityId ∧ (e.type = some entityType ∨ e.type = some "")

/-- A pattern whose type fits. -/
def PatternElement (e : SubEntity) (entityType : String) : Prop :=
  e.isPattern = "true" ∧ (e.type = some entityType ∨ e.type = some "")

/-- The pattern compiles and matches the id. -/
def Finds (re : JsRegex) (pattern entityId : String) : Prop := ∃ search, re pattern = some search ∧ search entityId = true

/-- An element with a pattern that matches the entity. -/
def PatternMatch (re : JsRegex) (s : SubDoc) (entityId entityType : String) : Prop :=
  ∃ e ∈ s.entities, PatternElement e entityType ∧ Finds re e.id entityId

/-- What the dotted conditions ask: an element with the id, one with the type, one that is no pattern. -/
def SpreadMatch (s : SubDoc) (entityId entityType : String) : Prop :=
  (∃ e ∈ s.entities, e.id = entityId) ∧ (∃ e ∈ s.entities, e.type = some entityType) ∧
    ∃ e ∈ s.entities, e.isPattern = "false"

/-- What the generated function answers on a subscription: the loop, when the id and the type stand for themselves in
its literals, and otherwise what the server makes of it. -/
def whereAnswer (E : Engine) (re : JsRegex) (entityId entityType : String) (s : SubDoc) : Option Bool :=
  if JsPlain entityId ∧ JsPlain entityType then whereLoop re entityId entityType s
  else E.js (whereCode entityId entityType) s.toBson

theorem whereAnswer_eq {E : Engine} {re : JsRegex} (hw : WhereSpec E re) (entityId entityType : String) (s : SubDoc) :
    whereAnswer E re entityId entityType s = E.js (whereCode entityId entityType) s.toBson := by
  unfold whereAnswer
  split
  · rename_i h
    exact (hw.eval entityId entityType s h.1 h.2).symm
  · rfl

theorem whereTest_pattern {re : JsRegex} {e : SubEntity} {entityId entityType : String} (h : PatternElement e entityType) :
    whereTest re entityId entityType e = (re e.id).map fun search => search entityId := by
  unfold whereTest
  rw [if_pos]
  rcases h with ⟨hp, ht | ht⟩ <;> simp [hp, ht]

theorem whereTest_other {re : JsRegex} {e : SubEntity} {entityId entityType : String} (hs : e.type.isSome = true)
    (h : ¬ PatternElement e entityType) : whereTest re entityId entityType e = some false := by
  unfold whereTest
  rw [if_neg]
  intro hc
  simp only [Bool.and_eq_true, Bool.or_eq_true, beq_iff_eq, or_assoc] at hc
  refine h ⟨hc.1, ?_⟩
  rcases hc.2 with ht | ht | ht
  · exact .inl ht
  · exact .inr ht
  · rw [Option.isNone_iff_eq_none] at ht
    rw [ht] at hs
    cases hs

/-- A tested element decides by its pattern. -/
theorem whereTest_iff {re : JsRegex} {e : SubEntity} {entityId entityType : String} (hs : e.type.isSome = true) :
    (whereTest re entityId entityType e = some true ↔ PatternElement e entityType ∧ Finds re e.id entityId) ∧
    (whereTest re entityId entityType e = none ↔ PatternElement e entityType ∧ re e.id = none) := by
  by_cases h : PatternElement e entityType
  · rw [whereTest_pattern h]
    simp [h, Finds]
  · rw [whereTest_other hs h]
    simp [h]

/-- What the loop finds is a matching element. -/
theorem patternMatch_of_whereLoop {re : JsRegex} {s : SubDoc} (htypes : ∀ e ∈ s.entities, e.type.isSome = true)
    {entityId entityType : String} (h : whereLoop re entityId entityType s = some true) :
    PatternMatch re s entityId entityType := by
  obtain ⟨pre, e, post, hs, he, -⟩ := (anyOf_eq_iff (by simp)).1 h
  have hmem : e ∈ s.entities := by rw [hs]; simp
  exact ⟨e, hmem, (whereTest_iff (htypes e hmem)).1.1 he⟩

/-- When every pattern compiles the loop finds each matching element. -/
theorem whereLoop_of_compiles {re : JsRegex} {s : SubDoc} (htypes : ∀ e ∈ s.entities, e.type.isSome = true)
    {entityId entityType : String} (hre : ∀ e ∈ s.entities, PatternElement e entityType → re e.id ≠ none) :
    whereLoop re entityId entityType s = some true ↔ PatternMatch re s entityId entityType := by
  refine ⟨patternMatch_of_whereLoop htypes, ?_⟩
  rintro ⟨e, he, hp, hm⟩
  have htotal : ∀ x ∈ s.entities, whereTest re entityId entityType x =
      some (whereTest re entityId entityType x == some true) := by
    intro x hx
    cases hv : whereTest re entityId entityType x with
    | none =>
      obtain ⟨hpx, hnone⟩ := (whereTest_iff (htypes x hx)).2.1 hv
      exact absurd hnone (hre x hx hpx)
    | some b => cases b <;> rfl
  rw [whereLoop, anyOf_of_total htotal]
  simp only [Option.some.injEq, List.any_eq_true]
  exact ⟨e, he, by rw [(whereTest_iff (htypes e he)).1.2 ⟨hp, hm⟩]; rfl⟩

theorem pathMatches_iff (E : Engine) {s : SubDoc} (hs : AsStored s) {path : String} {p : ServicePath}
    (hp : path.toList = p.chars) :
    (∀ q, s.servicePath = some q → E.regex (servicePathSubscriptionRegex path) q = true) ↔ PathMatches s p := by
  cases hq : s.servicePath with
  | none => simp [PathMatches, hq]
  | some q =>
    rcases hs.servicePath q hq with rfl | ⟨sq, hsq⟩
    · have := servicePathSubscriptionRegex_empty E hp
      simp [PathMatches, hq, this]
    · have hqe : q = String.ofList sq.chars := by rw [← hsq, String.ofList_toList]
      have hne : q ≠ "" := by rintro rfl; exact sq.chars_ne_nil hsq.symm
      simp only [PathMatches, hq, Option.some.injEq, forall_eq', reduceCtorEq, hne, false_or]
      rw [servicePathSubscriptionRegex_iff E hp hsq]
      constructor
      · intro h; exact ⟨sq, hqe, h⟩
      · rintro ⟨sq', he, h⟩
        have hc : sq.components = sq'.components := by
          apply ServicePath.chars_inj
          rw [← hsq, he, String.toList_ofList]
        unfold ServicePath.Covers at h ⊢
        rw [hc]; exact h

/-- What does not depend on the elements. -/
structure LiveAt (E : Engine) (s : SubDoc) (attr path : String) (now : Int) : Prop where
  expiration : s.expiration > now
  condition : ∃ vs, .onChange vs ∈ s.conditions ∧ attr ∈ vs
  path : ∀ q, s.servicePath = some q → E.regex (servicePathSubscriptionRegex path) q = true

section
variable {E : Engine} {s : SubDoc} (htypes : ∀ e ∈ s.entities, e.type.isSome = true) {entityId entityType attr path : String}
  {now : Int}

theorem liveAt_matches_iff : LiveAt E s attr path now ↔
    (Query.field ["conditions", "type"] (.eq (.str "ONCHANGE"))).matches E s.toBson = true ∧
    (Query.field ["conditions", "value"] (.eq (.str attr))).matches E s.toBson = true ∧
    (Query.field ["expiration"] (.gt now)).matches E s.toBson = true ∧
    (Query.field ["servicePath"] (spBson path)).matches E s.toBson = true := by
  have hcond := conditions_iff E s attr
  rw [expiration_iff, servicePath_iff]
  exact ⟨fun h => ⟨(hcond.2 h.2).1, (hcond.2 h.2).2, h.1, h.3⟩, fun h => ⟨h.2.2.1, hcond.1 ⟨h.1, h.2.1⟩, h.2.2.2⟩⟩

include htypes in
theorem noPattern_types : (queryNoPattern entityId entityType attr path now).matches E s.toBson = true ↔
    LiveAt E s attr path now ∧ SpreadMatch s entityId entityType := by
  have hnt : (Query.field ["entities", "type"] (.exists false)).matches E s.toBson = true ↔ s.entities = [] := by
    rw [entities_noType_iff]
    constructor
    · intro h
      by_contra hne
      obtain ⟨e, es, he⟩ := List.exists_cons_of_ne_nil hne
      have h1 := h e (by simp [he])
      have h2 := htypes e (by simp [he])
      rw [h1] at h2; cases h2
    · intro h; simp [h]
  rw [queryNoPattern, Query.matches_all_iff, liveAt_matches_iff, SpreadMatch, ← entities_field_iff E s entity_sub_id,
    ← entities_type_iff E s, ← entities_field_iff E s entity_sub_isPattern]
  simp only [List.forall_mem_cons, List.not_mem_nil, IsEmpty.forall_iff, implies_true, and_true, Query.matches_any_iff,
    List.exists_mem_cons_iff, false_and, exists_false, or_false, hnt]
  constructor
  · rintro ⟨hi, ht, hf, hc, hv, hx, hsp⟩
    refine ⟨⟨hc, hv, hx, hsp⟩, hi, ht.resolve_right fun hn => ?_, hf⟩
    obtain ⟨e, he, _⟩ := (entities_field_iff E s entity_sub_id entityId).1 hi
    rw [hn] at he
    cases he
  · rintro ⟨⟨hc, hv, hx, hsp⟩, hi, ht, hf⟩
    exact ⟨hi, .inl ht, hf, hc, hv, hx, hsp⟩

/-- An element with a pattern, and what the function answers. -/
def WhereAt (E : Engine) (s : SubDoc) (entityId entityType : String) (answer : Option Bool) : Prop :=
  (∃ e ∈ s.entities, e.isPattern = "true") ∧ E.js (whereCode entityId entityType) s.toBson = answer

theorem pattern_types : (queryPattern entityId entityType attr path now).matches E s.toBson = true ↔
    LiveAt E s attr path now ∧ WhereAt E s entityId entityType (some true) := by
  rw [queryPattern, Query.matches_all_iff, liveAt_matches_iff, WhereAt, ← entities_field_iff E s entity_sub_isPattern]
  simp only [List.forall_mem_cons, List.not_mem_nil, IsEmpty.forall_iff, implies_true, and_true]
  rw [show (Query.js (whereCode entityId entityType)).matches E s.toBson =
    (E.js (whereCode entityId entityType) s.toBson == some true) by rw [Query.matches], beq_iff_eq]
  constructor
  · rintro ⟨hpt, hc, hv, hx, hsp, hj⟩
    exact ⟨⟨hc, hv, hx, hsp⟩, hpt, hj⟩
  · rintro ⟨⟨hc, hv, hx, hsp⟩, hpt, hj⟩
    exact ⟨hpt, hc, hv, hx, hsp, hj⟩

theorem pattern_throws : (queryPattern entityId entityType attr path now).throws E s.toBson = true ↔
    LiveAt E s attr path now ∧ WhereAt E s entityId entityType none := by
  rw [liveAt_matches_iff, WhereAt, ← entities_field_iff E s entity_sub_isPattern]
  simp only [queryPattern, Query.throws, Query.allPass, Query.someThrow, Bool.or_false, Bool.false_or, Bool.and_true,
    Bool.and_eq_true, Option.isNone_iff_eq_none]
  constructor
  · rintro ⟨⟨hpt, hc, hv, hx, hsp, _⟩, hj⟩
    exact ⟨⟨hc, hv, hx, hsp⟩, hpt, hj⟩
  · rintro ⟨⟨hc, hv, hx, hsp⟩, hpt, hj⟩
    exact ⟨⟨hpt, hc, hv, hx, hsp, by rw [hj]; simp⟩, hj⟩

include htypes in
/-- What the selector of `addTriggeredSubscriptions` tests on a subscription whose elements have a type. -/
theorem selected_types : (triggerSelector entityId entityType attr path now).matches E s.toBson = true ↔
    LiveAt E s attr path now ∧ (SpreadMatch s entityId entityType ∨ WhereAt E s entityId entityType (some true)) := by
  rw [triggerSelector, Query.matches_any_iff]
  simp only [List.exists_mem_cons_iff, List.not_mem_nil, false_and, exists_false, or_false]
  rw [noPattern_types htypes, pattern_types, ← and_or_left]

include htypes in
/-- The function is evaluated where the first part of the selector does not hold and the rest of the second does. -/
theorem throws_types : (triggerSelector entityId entityType attr path now).throws E s.toBson = true ↔
    LiveAt E s attr path now ∧ ¬ SpreadMatch s entityId entityType ∧ WhereAt E s entityId entityType none := by
  have hno : (queryNoPattern entityId entityType attr path now).throws E s.toBson = false :=
    Query.throws_of_noJs E s.toBson _ rfl
  simp only [triggerSelector, Query.throws, Query.anyThrows, hno, Bool.false_or, Bool.or_false, Bool.and_eq_true,
    Bool.not_eq_true', Bool.and_false]
  rw [pattern_throws, ← Bool.not_eq_true, noPattern_types htypes]
  tauto

end

theorem triggerSelector_compiles {E : Engine} {entityId entityType attr path : String} {now : Int} :
    (triggerSelector entityId entityType attr path now).compiles E = true ↔
      E.regexCompiles (servicePathSubscriptionRegex path) = true ∧ E.jsCompiles (whereCode entityId entityType) = true := by
  simp [triggerSelector, queryNoPattern, queryPattern, Query.compiles, Query.allCompile, Cond.compiles, Alt.compiles,
    spBson]

/-- The regex of a canonical path is one that every engine knows. -/
theorem servicePathSubscriptionRegex_compiles (E : Engine) {path : String} {p : ServicePath} (hp : path.toList = p.chars) :
    E.regexCompiles (servicePathSubscriptionRegex path) = true := by
  rw [servicePathSubscriptionRegex_eq hp]
  by_cases hc : p.components = []
  · rw [hc]
    refine E.regexCompiles_spec _ ([[], "/#".toList, "/".toList].map Regex.whole) ?_
    rw [String.toList_ofList]
    decide
  · refine E.regexCompiles_spec _ (([] :: coveringPaths p.components).map Regex.whole) ?_
    rw [String.toList_ofList, spathRegexOf_eq hc]
    exact Regex.parse_wholes Regex.reads_nil (coveringTexts_read fun c h => (p.facts c h).plain)

/-- On a canonical path, for a subscription stored under one. -/
theorem liveAt_iff {E : Engine} {s : SubDoc} (hs : AsStored s) {attr path : String} {now : Int} {p : ServicePath}
    (hp : path.toList = p.chars) : LiveAt E s attr path now ↔ Live s attr p now := by
  have hpath := pathMatches_iff E hs hp
  exact ⟨fun h => ⟨h.expiration, h.condition, hpath.1 h.path⟩, fun h => ⟨h.expiration, h.condition, hpath.2 h.path⟩⟩

theorem selected_split {E : Engine} {s : SubDoc} (hs : AsStored s) {entityId entityType attr path : String}
    {now : Int} {p : ServicePath} (hp : path.toList = p.chars) :
    (triggerSelector entityId entityType attr path now).matches E s.toBson = true ↔
      Live s attr p now ∧ (SpreadMatch s entityId entityType ∨ WhereAt E s entityId entityType (some true)) := by
  rw [selected_types hs.type, liveAt_iff hs hp]

theorem throws_split {E : Engine} {s : SubDoc} (hs : AsStored s) {entityId entityType attr path : String}
    {now : Int} {p : ServicePath} (hp : path.toList = p.chars) :
    (triggerSelector entityId entityType attr path now).throws E s.toBson = true ↔
      Live s attr p now ∧ ¬ SpreadMatch s entityId entityType ∧ WhereAt E s entityId entityType none := by
  rw [throws_types hs.type, liveAt_iff hs hp]

/-- The subscription is to be triggered: live, with one element that matches the entity. -/
def Triggers (re : JsRegex) (s : SubDoc) (entityId entityType attr : String) (p : ServicePath) (now : Int) : Prop :=
  Live s attr p now ∧ (SingleMatch s entityId entityType ∨ PatternMatch re s entityId entityType)

/-- The subscription has a pattern, and this is what the function answers on it. -/
def ReadAs (E : Engine) (re : JsRegex) (s : SubDoc) (entityId entityType : String) (answer : Option Bool) : Prop :=
  (∃ e ∈ s.entities, e.isPattern = "true") ∧ whereAnswer E re entityId entityType s = answer

theorem whereAt_iff {E : Engine} {re : JsRegex} (hw : WhereSpec E re) {s : SubDoc} {entityId entityType : String}
    {answer : Option Bool} : WhereAt E s entityId entityType answer ↔ ReadAs E re s entityId entityType answer := by
  rw [WhereAt, ReadAs, whereAnswer_eq hw]

/-- The server answers the lookup: the function compiles, and it throws only where the exact elements already decide. -/
structure Answered (E : Engine) (re : JsRegex) (subs : List SubDoc) (entityId entityType attr : String) (p : ServicePath)
    (now : Int) : Prop where
  compiles : (JsPlain entityId ∧ JsPlain entityType) ∨ E.jsCompiles (whereCode entityId entityType) = true
  total : ∀ s ∈ subs, Live s attr p now → ReadAs E re s entityId entityType none → SpreadMatch s entityId entityType

/-- The elements of the subscription decide as one element would. -/
structure Judged (E : Engine) (re : JsRegex) (s : SubDoc) (entityId entityType : String) : Prop where
  /-- An element with the id and any type goes with one of the entity's type. -/
  typeless : ∀ e ∈ s.entities, e.isPattern = "false" → e.id = entityId → e.type = some "" →
    (∃ x ∈ s.entities, x.type = some entityType) ∨ ReadAs E re s entityId entityType (some true)
  /-- The id, the type and "false" are not scattered over elements none of which matches. -/
  spread : SpreadMatch s entityId entityType → SingleMatch s entityId entityType ∨ PatternMatch re s entityId entityType
  /-- A pattern that matches is found: no pattern before it is broken, and the literals are read as they stand. -/
  pattern : PatternMatch re s entityId entityType →
    SpreadMatch s entityId entityType ∨ ReadAs E re s entityId entityType (some true)
  /-- What the function finds matches. -/
  read : ReadAs E re s entityId entityType (some true) →
    SingleMatch s entityId entityType ∨ PatternMatch re s entityId entityType

section
variable {E : Engine} {re : JsRegex} {s : SubDoc} {entityId entityType : String}

theorem judged_iff : Judged E re s entityId entityType ↔
    ((SpreadMatch s entityId entityType ∨ ReadAs E re s entityId entityType (some true)) ↔
      (SingleMatch s entityId entityType ∨ PatternMatch re s entityId entityType)) := by
  constructor
  · intro h
    refine ⟨fun hx => hx.elim h.spread h.read, fun hx => hx.elim ?_ h.pattern⟩
    rintro ⟨e, he, hp, hi, ht | ht⟩
    · exact .inl ⟨⟨e, he, hi⟩, ⟨e, he, ht⟩, ⟨e, he, hp⟩⟩
    · exact (h.typeless e he hp hi ht).imp_left fun hx => ⟨⟨e, he, hi⟩, hx, ⟨e, he, hp⟩⟩
  · intro h
    exact {
      typeless := fun e he hp hi ht => (h.2 (.inl ⟨e, he, hp, hi, .inr ht⟩)).imp_left fun hx => hx.2.1
      spread := fun hx => h.1 (.inl hx)
      pattern := fun hx => h.2 (.inr hx)
      read := fun hx => h.1 (.inr hx) }

/-- For a plain id and type and patterns that compile, only the exact elements can go wrong. -/
theorem judged_of_plain (hs : AsStored s) (hid : JsPlain entityId) (hty : JsPlain entityType)
    (hre : ∀ e ∈ s.entities, PatternElement e entityType → re e.id ≠ none)
    (htypeless : ∀ e ∈ s.entities, e.isPattern = "false" → e.id = entityId → e.type = some "" →
      (∃ x ∈ s.entities, x.type = some entityType) ∨ PatternMatch re s entityId entityType)
    (hspread : SpreadMatch s entityId entityType →
      SingleMatch s entityId entityType ∨ PatternMatch re s entityId entityType) :
    Judged E re s entityId entityType := by
  have hread : ReadAs E re s entityId entityType (some true) ↔ PatternMatch re s entityId entityType := by
    rw [ReadAs, whereAnswer, if_pos ⟨hid, hty⟩, whereLoop_of_compiles hs.type hre, and_iff_right_iff_imp]
    rintro ⟨e, he, hp, -⟩
    exact ⟨e, he, hp.1⟩
  exact {
    typeless := fun e he hp hi ht => (htypeless e he hp hi ht).imp_right hread.2
    spread := hspread
    pattern := fun h => .inr (hread.2 h)
    read := fun h => .inr (hread.1 h) }

end

theorem addTriggeredSubscriptions_keys {env : Env} {ctx : Ctx} {entityId entityType attr : String}
    {subs m : SubsMap} {w : World}
    (h : (addTriggeredSubscriptions env ctx entityId entityType attr subs w).1 = .ok m) (k : String) :
    k ∈ m.keys ↔ k ∈ subs.keys ∨
      ∃ s ∈ triggeredFind env ctx entityId entityType attr w, s.oid = k := by
  unfold addTriggeredSubscriptions at h
  simp only at h
  split at h
  · cases h
  · cases h
    rw [SubsMap.mem_keys_addAll, List.mem_map]

section
variable {env : Env} {ctx : Ctx} {re : JsRegex} (hw : WhereSpec env.engine re)
  {c : Collection SubDoc String SubDoc.oid} (hs : ∀ s ∈ c.docs, AsStored s) {entityId entityType attr : String}
  {p : ServicePath} (hp : (firstPath ctx.servicePathV).toList = p.chars)
include hw hs hp

theorem answered_iff :
    (c.answer env.engine SubDoc.toBson
      (triggerSelector entityId entityType attr (firstPath ctx.servicePathV) ctx.now)).isSome = true ↔
    Answered env.engine re c.docs entityId entityType attr p ctx.now := by
  rw [Collection.answer_isSome_iff, triggerSelector_compiles, servicePathSubscriptionRegex_compiles env.engine hp]
  have hcode : env.engine.jsCompiles (whereCode entityId entityType) = true ↔
      (JsPlain entityId ∧ JsPlain entityType) ∨ env.engine.jsCompiles (whereCode entityId entityType) = true :=
    ⟨.inr, fun h => h.elim (fun hj => hw.compiles entityId entityType hj.1 hj.2) id⟩
  have hthrow : ∀ s ∈ c.docs,
      ((triggerSelector entityId entityType attr (firstPath ctx.servicePathV) ctx.now).throws env.engine s.toBson = false ↔
        (Live s attr p ctx.now → ReadAs env.engine re s entityId entityType none → SpreadMatch s entityId entityType)) := by
    intro s hm
    rw [← Bool.not_eq_true, throws_split (hs s hm) hp, whereAt_iff hw]
    tauto
  constructor
  · rintro ⟨⟨-, h1⟩, h2⟩
    exact ⟨hcode.1 h1, fun s hm => (hthrow s hm).1 (h2 s hm)⟩
  · rintro ⟨h1, h2⟩
    exact ⟨⟨rfl, hcode.2 h1⟩, fun s hm => (hthrow s hm).2 (h2 s hm)⟩

/-- What the lookup finds. -/
theorem mem_triggeredFind_iff {w : World} (hc : w.csubs = c) {s : SubDoc} :
    s ∈ triggeredFind env ctx entityId entityType attr w ↔
      Answered env.engine re c.docs entityId entityType attr p ctx.now ∧ s ∈ c.docs ∧ Live s attr p ctx.now ∧
        (SpreadMatch s entityId entityType ∨ ReadAs env.engine re s entityId entityType (some true)) := by
  rw [triggeredFind, hc, Collection.mem_found, answered_iff hw hs hp]
  refine and_congr_right fun _ => and_congr_right fun hm => ?_
  rw [selected_split (hs s hm) hp, whereAt_iff hw]

/-- **Triggering, exactly.** For every collection of stored subscriptions, entity, attribute and canonical
path: a successful lookup adds the ids of the subscriptions that are to be triggered, and no others, exactly when
each live subscription is judged by its elements one by one, or, if the server refuses the lookup, when there is
nothing to be triggered. -/
theorem triggered_exact_iff :
    (∀ w : World, w.csubs = c → ∀ subs m,
      (addTriggeredSubscriptions env ctx entityId entityType attr subs w).1 = .ok m →
      ∀ k, k ∈ m.keys ↔ k ∈ subs.keys ∨
        ∃ s ∈ c.docs, s.oid = k ∧ Triggers re s entityId entityType attr p ctx.now) ↔
    (Answered env.engine re c.docs entityId entityType attr p ctx.now →
      ∀ s ∈ c.docs, Live s attr p ctx.now → Judged env.engine re s entityId entityType) ∧
    (¬ Answered env.engine re c.docs entityId entityType attr p ctx.now →
      ∀ s ∈ c.docs, ¬ Triggers re s entityId entityType attr p ctx.now) := by
  constructor
  · intro h
    -- look the subscriptions up with nothing failing, into an empty map
    have hok : (addTriggeredSubscriptions env ctx entityId entityType attr [] { csubs := c }).1 =
        .ok (SubsMap.addAll [] (triggeredFind env ctx entityId entityType attr { csubs := c })) := rfl
    have hone : ∀ s ∈ c.docs, s ∈ triggeredFind env ctx entityId entityType attr { csubs := c } ↔
        Triggers re s entityId entityType attr p ctx.now := by
      intro s hm
      have hk := h { csubs := c } rfl [] _ hok s.oid
      rw [addTriggeredSubscriptions_keys hok] at hk
      simp only [SubsMap.keys, List.map_nil, List.not_mem_nil, false_or] at hk
      constructor
      · intro hf
        obtain ⟨s', hm', ho, ht⟩ := hk.1 ⟨s, hf, rfl⟩
        rwa [c.eq_of_key hm hm' ho.symm]
      · intro ht
        obtain ⟨s', hf, ho⟩ := hk.2 ⟨s, hm, rfl, ht⟩
        rwa [c.eq_of_key hm ((mem_triggeredFind_iff hw hs hp rfl).1 hf).2.1 ho.symm]
    refine ⟨fun ha s hm hl => judged_iff.2 ?_, fun ha s hm ht => ?_⟩
    · have := hone s hm
      rw [mem_triggeredFind_iff hw hs hp rfl, Triggers] at this
      simpa [ha, hm, hl] using this
    · exact ha ((mem_triggeredFind_iff hw hs hp rfl).1 ((hone s hm).2 ht)).1
  · rintro ⟨hj, hn⟩ w hc subs m hm k
    rw [addTriggeredSubscriptions_keys hm]
    refine or_congr Iff.rfl (exists_congr fun s => ?_)
    rw [mem_triggeredFind_iff hw hs hp hc, Triggers]
    constructor
    · rintro ⟨⟨ha, hms, hl, hx⟩, ho⟩
      exact ⟨hms, ho, hl, (judged_iff.1 (hj ha s hms hl)).1 hx⟩
    · rintro ⟨hms, ho, hl, hx⟩
      by_cases ha : Answered env.engine re c.docs entityId entityType attr p ctx.now
      · exact ⟨⟨ha, hms, hl, (judged_iff.1 (hj ha s hms hl)).2 hx⟩, ho⟩
      · exact absurd ⟨hl, hx⟩ (hn ha s hms)

end

/-! ## A reference evaluation of the generated function -/

/-- The test of the loop, on an element of the document. -/
def whereElement (re : JsRegex) (entityId entityType : String) (e : Bson) : Option Bool :=
  if (e.sub "isPattern" == [.str "true"]) &&
      (e.sub "type" == [.str entityType] || e.sub "type" == [.str ""] || e.sub "type" == []) then
    match e.sub "id" with
    | [.str pattern] => (re pattern).map fun search => search entityId
    | _ => none
  else some false

/-- `whereCode` on a document: the two literals are read back from the text. -/
def whereJs (re : JsRegex) (code : String) (d : Bson) : Option Bool :=
  let rest := code.toList.drop whereBefore.toList.length
  let entityType := rest.takeWhile (· != '"')
  let entityId := (rest.drop (entityType.length + whereBetween.toList.length)).takeWhile (· != '"')
  match d.at ["entities"] with
  | [.arr xs] => anyOf (whereElement re (String.ofList entityId) (String.ofList entityType)) xs
  | _ => none

theorem str_beq_str (a b : String) : (Bson.str a == Bson.str b) = (a == b) := by
  rw [Bool.eq_iff_iff]; simp

theorem whereElement_toBson (re : JsRegex) (entityId entityType : String) (e : SubEntity) :
    whereElement re entityId entityType e.toBson = whereTest re entityId entityType e := by
  simp only [whereElement, whereTest, entity_sub_id, entity_sub_isPattern, entity_sub_type]
  cases e.type <;> simp [str_beq_str]

theorem JsPlain.noQuote {s : String} (h : JsPlain s) : '"' ∉ s.toList := by
  intro hq
  exact absurd (h _ hq) (by decide)

theorem whereSpec_whereJs (re : JsRegex) : WhereSpec (.evaluating (whereJs re)) re where
  compiles _ _ _ _ := rfl
  eval entityId entityType s hid hty := by
    have hcode : (whereCode entityId entityType).toList = whereBefore.toList ++ (entityType.toList ++
        (whereBetween.toList ++ (entityId.toList ++ whereAfter.toList))) := by
      simp [whereCode]
    have hb : ∃ t, whereBetween.toList = '"' :: t := ⟨_, rfl⟩
    have ha : ∃ t, whereAfter.toList = '"' :: t := ⟨_, rfl⟩
    obtain ⟨t, ht⟩ := hb
    obtain ⟨u, hu⟩ := ha
    have h1 : (whereCode entityId entityType).toList.drop whereBefore.toList.length = entityType.toList ++
        (whereBetween.toList ++ (entityId.toList ++ whereAfter.toList)) := by
      rw [hcode, List.drop_left]
    have h2 : (entityType.toList ++ (whereBetween.toList ++ (entityId.toList ++ whereAfter.toList))).takeWhile
        (· != '"') = entityType.toList := by
      rw [ht, List.cons_append, Pieces.takeWhile_append_cons hty.noQuote]
    have h3 : (entityType.toList ++ (whereBetween.toList ++ (entityId.toList ++ whereAfter.toList))).drop
        (entityType.toList.length + whereBetween.toList.length) = entityId.toList ++ whereAfter.toList := by
      rw [← List.append_assoc, List.drop_left' (by simp)]
    have h4 : (entityId.toList ++ whereAfter.toList).takeWhile (· != '"') = entityId.toList := by
      rw [hu, Pieces.takeWhile_append_cons hid.noQuote]
    have hent : s.toBson.at ["entities"] = [.arr (s.entities.map SubEntity.toBson)] := by
      simp [SubDoc.toBson, SubDoc.fields, Bson.at, Bson.step, Bson.sub, List.lookup_cons]
    have hjs : (Engine.evaluating (whereJs re)).js = whereJs re := rfl
    rw [hjs]
    unfold whereJs whereLoop
    simp only [h1, h2, h3, h4, hent, String.ofList_toList, anyOf_map, whereElement_toBson]

/-! ## Four subscriptions on `t` -/

def rootPath : ServicePath := ⟨[], by decide, by decide⟩

/-- A subscription on the attribute `t` of the given elements, without service path. -/
def subOnT (oid : String) (entities : List SubEntity) : SubDoc where
  oid := oid
  expiration := 10
  reference := "http://host/notify"
  entities := entities
  conditions := [.onChange ["t"]]

/-- `Room` of type `T`. -/
def typedSub : SubDoc := subOnT "s1" [⟨"Room", some "T", "false"⟩]

/-- `Room` of any type. -/
def typelessSub : SubDoc := subOnT "s2" [⟨"Room", some "", "false"⟩]

/-- `Room` of type `A`, and `Door` of type `T`. -/
def spreadSub : SubDoc := subOnT "s3" [⟨"Room", some "A", "false"⟩, ⟨"Door", some "T", "false"⟩]

/-- A pattern that is no regular expression. -/
def starSub : SubDoc := subOnT "s4" [⟨"*", some "T", "true"⟩]

/-- Regular expressions of which only `*` is broken, and that find nothing. -/
def starBroken : JsRegex := fun pattern => if pattern = "*" then none else some fun _ => false

theorem typedSub_exact :
    (addTriggeredSubscriptions (Env.evaluating (whereJs starBroken))
      { action := "UPDATE", servicePathV := ["/"] } "Room" "T" "t" []
      { csubs := ⟨[typedSub], by decide⟩ }).1.toOption.map SubsMap.keys = some ["s1"] ∧
    ∀ w : World, w.csubs = ⟨[typedSub], by decide⟩ → ∀ subs m,
      (addTriggeredSubscriptions (Env.evaluating (whereJs starBroken))
        { action := "UPDATE", servicePathV := ["/"] } "Room" "T" "t" subs w).1 = .ok m →
      ∀ k, k ∈ m.keys ↔ k ∈ subs.keys ∨
        ∃ s ∈ [typedSub], s.oid = k ∧ Triggers starBroken s "Room" "T" "t" rootPath 0 := by
  have hstored : AsStored typedSub := ⟨by decide, by decide, fun q hq => by cases hq⟩
  have hsingle : SingleMatch typedSub "Room" "T" := by simp [SingleMatch, typedSub, subOnT]
  have hjudged : Judged (Engine.evaluating (whereJs starBroken)) starBroken typedSub "Room" "T" :=
    judged_of_plain hstored (by decide) (by decide) (by simp [typedSub, subOnT, PatternElement])
      (by simp [typedSub, subOnT]) fun _ => .inl hsingle
  have hnone : ¬ ReadAs (Engine.evaluating (whereJs starBroken)) starBroken typedSub "Room" "T" none := by
    rintro ⟨⟨e, he, hp⟩, -⟩
    rw [List.mem_singleton.1 he] at hp
    exact absurd hp (by decide)
  refine ⟨by decide +kernel, (@triggered_exact_iff (Env.evaluating (whereJs starBroken))
    { action := "UPDATE", servicePathV := ["/"] } _ (whereSpec_whereJs starBroken) ⟨[typedSub], by decide⟩
    (by simpa using hstored) "Room" "T" "t" rootPath rfl).2 ⟨fun _ s hs _ => ?_, fun h => absurd ⟨?_, ?_⟩ h⟩⟩
  · rw [List.mem_singleton.1 hs]
    exact hjudged
  · exact .inl ⟨by decide, by decide⟩
  · intro s hs _ hr
    rw [List.mem_singleton.1 hs] at hr
    exact absurd hr hnone

/-- **Missed and mistaken.** An update of `t` of `Room` of type `T` is to trigger the subscription to `Room`
of any type and not the one to `Room` of type `A` and `Door` of type `T`; it triggers the second alone. Beside the
subscription to `*` it does not even trigger the one to `Room` of type `T`. -/
theorem room_update_misjudged :
    ((addTriggeredSubscriptions (Env.evaluating (whereJs starBroken))
        { action := "UPDATE", servicePathV := ["/"] } "Room" "T" "t" []
        { csubs := ⟨[typelessSub, spreadSub], by decide⟩ }).1.toOption.map SubsMap.keys = some ["s3"] ∧
      Triggers starBroken typelessSub "Room" "T" "t" rootPath 0 ∧
      ¬ Triggers starBroken spreadSub "Room" "T" "t" rootPath 0) ∧
    (addTriggeredSubscriptions (Env.evaluating (whereJs starBroken))
        { action := "UPDATE", servicePathV := ["/"] } "Room" "T" "t" []
        { csubs := ⟨[typedSub, starSub], by decide⟩ }).1.toOption.map SubsMap.keys = some [] ∧
      Triggers starBroken typedSub "Room" "T" "t" rootPath 0 := by
  have hlive : ∀ oid es, Live (subOnT oid es) "t" rootPath 0 := fun oid es =>
    ⟨show (10 : Int) > 0 by decide, ⟨["t"], by simp [subOnT], by decide⟩, .inl rfl⟩
  have hstored : AsStored starSub := ⟨by decide, by decide, fun q hq => by cases hq⟩
  have hthrow : (triggerSelector "Room" "T" "t" "/" 0).throws (Engine.evaluating (whereJs starBroken)) starSub.toBson =
      true := by
    refine (throws_split (p := rootPath) hstored rfl).2 ⟨hlive _ _, by simp [SpreadMatch, starSub, subOnT], ?_⟩
    rw [whereAt_iff (whereSpec_whereJs starBroken)]
    refine ⟨⟨_, List.mem_singleton.2 rfl, rfl⟩, ?_⟩
    rw [whereAnswer, if_pos ⟨by decide, by decide⟩]
    decide
  refine ⟨⟨by decide +kernel, ⟨hlive _ _, .inl ?_⟩, ?_⟩, ?_, hlive _ _, .inl ?_⟩
  · simp [SingleMatch, typelessSub, subOnT]
  · rintro ⟨_, h | h⟩
    · simp [SingleMatch, spreadSub, subOnT] at h
    · simp [PatternMatch, PatternElement, spreadSub, subOnT] at h
  · have hfound : triggeredFind (Env.evaluating (whereJs starBroken)) { action := "UPDATE", servicePathV := ["/"] }
        "Room" "T" "t" { csubs := ⟨[typedSub, starSub], by decide⟩ } = [] := by
      rw [triggeredFind, Collection.found, Collection.answer, if_neg]
      · rfl
      · rintro ⟨-, h⟩
        exact absurd (hthrow.symm.trans (h starSub (by simp))) (by simp)
    unfold addTriggeredSubscriptions
    rw [hfound]
    rfl
  · simp [SingleMatch, typedSub, subOnT]

end OrionBroker
