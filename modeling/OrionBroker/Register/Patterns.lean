import OrionBroker.Lib.RegexDialects
import OrionBroker.Query.PathFilter
import OrionBroker.Register.Providers

/-!
# Patterns of discovery, in two dialects (MongoGlobal.cpp:605-633, 1404-1437)

The selector of `registrationsQuery` gives the pattern to the database, which reads it as PCRE. `includedEntity` then
compiles the same text with `regcomp` and no flag, the basic syntax of POSIX, to filter the entities of the
registrations found. `pattern_kept_iff` says for which patterns the filter keeps what the database found.

Over the characters of `patternChar`, `Regex.parseItems` refuses exactly the texts where a quantifier has nothing to
repeat, which PCRE does not compile.
-/

namespace OrionBroker.Register

open Mongo

/-- Letters, digits, `_` and the operators. -/
def patternChar (c : Char) : Bool := c.isAlphanum || ['_', '.', '*', '+', '?', '|'].contains c

/-- The database reads patterns as PCRE. -/
def PcreSpec (E : Engine) : Prop :=
  ∀ text r, Regex.parseItems text.toList = some r → ∀ s, E.regex text s = Regex.searchItems r s.toList

/-- `regcomp` without flags reads the basic syntax. -/
def BasicSpec (regcomp : Regcomp) : Prop :=
  ∀ text ps, Regex.parseBasic text.toList = some ps → regcomp text = some fun s => Regex.searchBasic ps s.toList

/-- Of the registrations selected, the entities that the pattern matches in the database, of an agreeing type, pass
the filter. -/
def PatternKept (env : Env) (regcomp : Regcomp) (en : EntityId) : Prop :=
  ∀ enV, en ∈ enV → ∀ (attrL servicePathV : List String) (now : Int) (d : RegDoc),
    (registrationsSelector enV attrL servicePathV now).matches env.engine d.toBson = true →
    ∀ cr ∈ d.contextRegistration, ∀ e ∈ cr.entities, env.engine.regex en.id e.id = true →
      (strField e.type = "" ∨ en.type = "" ∨ en.type = strField e.type) →
      includedEntity regcomp { id := e.id, type := strField e.type, isPattern := "false" } enV = true

theorem patternChar_shared {c : Char} (h : patternChar c = true) : Regex.shared c = true := by
  by_contra hno
  rw [Bool.not_eq_true, Regex.shared, Bool.not_eq_false', List.contains_iff_mem] at hno
  have hall : (['^', '$', '(', ')', '[', '{', '\\'].all fun x => !patternChar x) = true := by decide
  have hc := List.all_eq_true.1 hall c hno
  rw [h] at hc
  cases hc

/-- A registration of an entity of the given id; the type that is asked for is that of another. -/
def patternDoc (en : EntityId) (id : String) : RegDoc where
  oid := "0"
  expiration := 1
  contextRegistration := [{ entities := [{ id := id }, { id := "", type := some en.type }] }]

theorem patternDoc_selected {E : Engine} {en : EntityId} (hpat : isTrue en.isPattern = true) {id : String}
    (hid : E.regex en.id id = true) :
    (registrationsSelector [en] [] [] 0).matches E (patternDoc en id).toBson = true := by
  have hent : RegDoc.entities (patternDoc en id) = [{ id := id }, { id := "", type := some en.type }] := rfl
  rw [registrationSelected_iff]
  refine ⟨?_, ⟨en, by simp, ?_⟩, .inl rfl⟩
  · have hpath := (fillQueryServicePath_nil_iff E none).2 (by simp)
    refine ⟨Int.zero_lt_one, ?_⟩
    rw [show (patternDoc en id).toBson.at ["servicePath"] = [] from rfl]
    exact hpath
  · rw [NamesEntity, if_pos hpat, hent]
    exact ⟨⟨_, List.mem_cons_self, hid⟩, .inr ⟨_, List.mem_cons_of_mem _ (List.mem_singleton_self _), rfl⟩⟩

/-- **The filter keeps what the database found**, exactly for the patterns without an operator of PCRE, and those
that PCRE finds nowhere. -/
theorem pattern_kept_iff {env : Env} {regcomp : Regcomp} (hE : PcreSpec env.engine) (hR : BasicSpec regcomp)
    {en : EntityId} (hpat : isTrue en.isPattern = true) (hchars : ∀ c ∈ en.id.toList, patternChar c = true)
    (hvalid : (Regex.parseItems en.id.toList).isSome = true) :
    PatternKept env regcomp en ↔
      ('+' ∉ en.id.toList ∧ '?' ∉ en.id.toList ∧ '|' ∉ en.id.toList) ∨ ∀ id, env.engine.regex en.id id = false := by
  obtain ⟨r, hr⟩ := Option.isSome_iff_exists.1 hvalid
  have hshared : ∀ c ∈ en.id.toList, Regex.shared c = true := fun c hc => patternChar_shared (hchars c hc)
  obtain ⟨ps, hps, _⟩ := Regex.parseBasic_of_items hshared hr
  have hregex := hE _ _ hr
  have hcomp := hR _ _ hps
  have hfresh : '-' ∉ en.id.toList := fun hm => absurd (hchars _ hm) (by decide)
  have hboth := Regex.found_by_both_iff hshared hr hps hfresh (by decide) (by decide)
  have hops : (∀ c ∈ en.id.toList, Regex.operator c = false) ↔
      ('+' ∉ en.id.toList ∧ '?' ∉ en.id.toList ∧ '|' ∉ en.id.toList) := by
    constructor
    · intro h
      refine ⟨fun hm => ?_, fun hm => ?_, fun hm => ?_⟩ <;> exact absurd (h _ hm) (by decide)
    · rintro ⟨h1, h2, h3⟩ c hc
      have n1 : c ≠ '+' := fun e => h1 (e ▸ hc)
      have n2 : c ≠ '?' := fun e => h2 (e ▸ hc)
      have n3 : c ≠ '|' := fun e => h3 (e ▸ hc)
      simp [Regex.operator, n1, n2, n3]
  have hnone : (∀ id, env.engine.regex en.id id = false) ↔ ∀ s, Regex.searchItems r s = false := by
    constructor
    · intro h s
      rw [← h (String.ofList s), hregex, String.toList_ofList]
    · intro h id
      rw [hregex, h]
  have hby : ∀ id type, includedBy regcomp id type en =
      (Regex.searchBasic ps id.toList && (type == "" || en.type == "" || en.type == type)) := by
    intro id type
    rw [includedBy, if_pos hpat, hcomp]
    rfl
  rw [← hops, hnone, ← hboth]
  constructor
  · intro h s hs
    have hid : env.engine.regex en.id (String.ofList s) = true := by
      rw [hregex, String.toList_ofList]
      exact hs
    have hkept := h [en] (by simp) [] [] 0 (patternDoc en (String.ofList s)) (patternDoc_selected hpat hid) _
      (List.mem_singleton_self _) _ List.mem_cons_self hid (.inl strField_none)
    rw [includedEntity, List.any_cons, List.any_nil, Bool.or_false, hby, Bool.and_eq_true, String.toList_ofList] at hkept
    exact hkept.1
  · intro h enV hen attrL servicePathV now d _ cr _ e _ hid htype
    rw [includedEntity, List.any_eq_true]
    refine ⟨en, hen, ?_⟩
    rw [hby, Bool.and_eq_true]
    rw [hregex] at hid
    exact ⟨h _ hid, by simpa [or_assoc] using htype⟩

/-! ## Two patterns -/

/-- An engine that reads the fragment with its quantifiers. -/
def Engine.pcre (js : String → Bson → Bool) : Engine where
  regex text s := match Regex.parseItems text.toList with
    | some r => Regex.searchItems r s.toList
    | none => false
  regexCompiles text := (Regex.parseItems text.toList).isSome
  js code d := some (js code d)
  jsCompiles _ := true
  regex_spec text r h s := by
    simp only [Regex.parseItems_greedy h]
    exact Regex.searchItems_greedy r s.toList
  regexCompiles_spec text r h := by rw [Regex.parseItems_greedy h]; rfl

def basicRegcomp : Regcomp := fun text =>
  (Regex.parseBasic text.toList).map fun ps s => Regex.searchBasic ps s.toList

theorem pcreSpec_pcre (js : String → Bson → Bool) : PcreSpec (Engine.pcre js) := by
  intro text r h s
  simp only [Engine.pcre, h]

theorem basicSpec_basicRegcomp : BasicSpec basicRegcomp := by
  intro text ps h
  rw [basicRegcomp, h]
  rfl

def pcreEnv : Env := { Env.plain fun _ _ => false with engine := Engine.pcre fun _ _ => false }

/-- `Room.*` means the same to both. -/
theorem roomPattern_kept : PatternKept pcreEnv basicRegcomp { id := "Room.*", isPattern := "true" } :=
  (pattern_kept_iff (pcreSpec_pcre _) basicSpec_basicRegcomp (by decide) (List.all_eq_true.1 (by decide)) (by decide)).2
    (.inl ⟨by decide, by decide, by decide⟩)

/-- **An entity found and dropped.** The database finds `Room1` for `Room1|Room2`; to the filter this is one text. -/
theorem alternatives_dropped :
    PcreSpec pcreEnv.engine ∧ BasicSpec basicRegcomp ∧
    ¬ PatternKept pcreEnv basicRegcomp { id := "Room1|Room2", isPattern := "true" } := by
  refine ⟨pcreSpec_pcre _, basicSpec_basicRegcomp, fun h => ?_⟩
  have hfound : pcreEnv.engine.regex "Room1|Room2" "Room1" = true := by decide +kernel
  have hkept := h [{ id := "Room1|Room2", isPattern := "true" }] (by simp) [] [] 0 _ (patternDoc_selected (by decide) hfound)
    _ (List.mem_singleton_self _) _ List.mem_cons_self hfound (.inr (.inl rfl))
  exact absurd hkept (by decide +kernel)

end OrionBroker.Register
