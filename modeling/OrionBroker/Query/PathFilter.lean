import OrionBroker.Query.Entities

/-!
# The service-path filter of a query, on canonical paths (MongoGlobal.cpp:720-781)

A path that ends in `/#` becomes two regexes, the path before the `/#` and everything below it; another
path becomes one. `null` is added for `/` and `/#`, so these also take a document without path.
-/

namespace OrionBroker

open Mongo

/-! ## The two kinds of path -/

/-- The path ends in `/#`, after the components `pre`. -/
def ServicePath.Below (p : ServicePath) (pre : List (List Char)) : Prop := p.components = pre ++ [['#']]

theorem componentsOk_last : ∀ {pre : List (List Char)} {c : List Char}, componentsOk (pre ++ [c]) = true →
    c = ['#'] ∨ pathComponent c = true
  | [], c, h => by simpa [componentsOk] using h
  | [d], c, h => by
    simp only [List.cons_append, List.nil_append, componentsOk, Bool.and_eq_true, Bool.or_eq_true, beq_iff_eq] at h
    exact h.2
  | d :: e :: pre, c, h => by
    simp only [List.cons_append, componentsOk, Bool.and_eq_true] at h
    exact @componentsOk_last (e :: pre) c h.2

theorem ServicePath.chars_of_below {p : ServicePath} {pre : List (List Char)} (h : p.Below pre) :
    p.chars = joinPath pre ++ ['/', '#'] := by
  rw [ServicePath.chars, if_neg (by rw [h]; simp), h]
  simp [joinPath]

/-- Only a path of the first kind ends in `#`. -/
theorem ServicePath.getLast_chars (p : ServicePath) :
    p.chars.getLast? = some '#' ↔ ∃ pre, p.Below pre := by
  constructor
  · intro h
    rcases List.eq_nil_or_concat p.components with hc | ⟨pre, c, hc⟩
    · rw [ServicePath.chars, if_pos hc] at h; exact absurd h (by decide)
    · rw [List.concat_eq_append] at hc
      have hok := p.ok
      rw [hc] at hok
      rcases componentsOk_last hok with rfl | hcomp
      · exact ⟨pre, hc⟩
      · -- the last character of the path is the last one of its last component
        exfalso
        have hf := pathComponent_facts hcomp
        obtain ⟨l, x, rfl⟩ := (List.eq_nil_or_concat c).resolve_left hf.ne
        rw [List.concat_eq_append] at hc hcomp
        have hch : p.chars = (joinPath pre ++ '/' :: l) ++ [x] := by
          rw [ServicePath.chars, if_neg (by rw [hc]; simp), hc]
          simp [joinPath]
        rw [hch, List.getLast?_concat, Option.some.injEq] at h
        have hx : pathChar x = true := by
          simp only [pathComponent, Bool.and_eq_true, List.all_eq_true] at hcomp
          exact hcomp.2 x (by simp)
        rw [h] at hx
        exact absurd hx (by decide)
  · rintro ⟨pre, h⟩
    rw [ServicePath.chars_of_below h]
    simp

theorem getLast_escape (l : List Char) : (l.flatMap escapeChar).getLast? = l.getLast? := by
  rcases List.eq_nil_or_concat l with rfl | ⟨l, c, rfl⟩
  · rfl
  · rw [List.concat_eq_append, List.flatMap_append, List.getLast?_append, List.getLast?_append]
    have : ([c].flatMap escapeChar).getLast? = some c := by
      by_cases h : c = '/' <;> simp [escapeChar, h]
    rw [this]
    rfl

/-! ## The filter -/

/-- The text of a stored path that `p` asks for; `$` lets a final newline pass. -/
def TextTaken (p : ServicePath) (s : List Char) : Prop :=
  ((∀ pre, ¬ p.Below pre) ∧ (s = p.chars ∨ s = p.chars ++ ['\n'])) ∨
  ∃ pre, p.Below pre ∧ (s = joinPath pre ∨ s = joinPath pre ++ ['\n'] ∨ (joinPath pre ++ ['/']) <+: s)

/-- The stored path that `p` asks for, absent or not. -/
def FilterTakes (p : ServicePath) (q : Option String) : Prop :=
  match q with
  | none => p.chars = ['/'] ∨ p.chars = ['/', '#']
  | some s => TextTaken p s.toList

theorem joinPath_chars {cs : List (List Char)} (h : ∀ c ∈ cs, ComponentFacts c) :
    ∀ x ∈ joinPath cs, x = '/' ∨ x = '#' ∨ pathChar x = true := by
  intro x hx
  obtain ⟨c, hc, hx⟩ := List.mem_flatMap.1 hx
  rcases List.mem_cons.1 hx with rfl | hx
  · exact .inl rfl
  · exact .inr ((h c hc).chars x hx).symm

/-- What the characters of a path can be. -/
def PathChars (l : List Char) : Prop := ∀ x ∈ l, x = '/' ∨ x = '#' ∨ pathChar x = true

theorem regex_holds (E : Engine) (s t : String) : Alt.holds E [.str s] (.regex t) = E.regex t s := by
  simp [Alt.holds, Bson.leaves, Bson.isStrWith]

/-- A buffer that does not end in `#`. -/
theorem servicePathRegexes_plain {path : String} {l : List Char} (h : escapedPath path = l.flatMap escapeChar)
    (hhash : l.getLast? ≠ some '#') :
    servicePathRegexes path = [.regex (String.ofList ('^' :: (l.flatMap escapeChar ++ ['$'])))] := by
  unfold servicePathRegexes
  simp only
  rw [h, getLast_escape, if_neg hhash]

/-- A buffer that ends in `/#`. -/
theorem servicePathRegexes_below {path : String} {base : List Char}
    (h : escapedPath path = (base ++ ['/', '#']).flatMap escapeChar) : servicePathRegexes path =
      [.regex (String.ofList ('^' :: (base.flatMap escapeChar ++ ['$']))),
       .regex (String.ofList ('^' :: (base.flatMap escapeChar ++ "\\/".toList ++ ['.', '*'])))] := by
  have htake : ((base ++ ['/', '#']).flatMap escapeChar).take (((base ++ ['/', '#']).flatMap escapeChar).length - 3) =
      base.flatMap escapeChar := by
    rw [List.flatMap_append, List.length_append]
    exact List.take_left' (by simp [escapeChar])
  have e : ('^' :: (base.flatMap escapeChar ++ "\\/".toList ++ ['.', '*'])) =
      '^' :: (base.flatMap escapeChar ++ "\\/.*".toList) := by simp
  unfold servicePathRegexes
  simp only
  rw [h, getLast_escape, if_pos (by simp), htake, e]

theorem parse_below {base : List Char} (hbase : PathChars base) :
    Regex.parse ('^' :: (base.flatMap escapeChar ++ "\\/".toList ++ ['.', '*'])) =
      some [Regex.front (base ++ ['/'])] :=
  Regex.parse_front ((escape_reads hbase).append (Regex.reads_escaped (by decide)))

theorem regexes_plain (E : Engine) {path : String} {l : List Char} (hl : PathChars l)
    (h : escapedPath path = l.flatMap escapeChar) (hhash : l.getLast? ≠ some '#') (s : String) :
    (servicePathRegexes path).any (Alt.holds E [.str s]) = true ↔ s.toList = l ∨ s.toList = l ++ ['\n'] := by
  rw [servicePathRegexes_plain h hhash]
  simp only [List.any_cons, List.any_nil, Bool.or_false, regex_holds]
  have hparse := Regex.parse_whole (escape_reads hl)
  rw [E.regex_spec _ _ (by rw [String.toList_ofList]; exact hparse), Regex.search_whole]

theorem regexes_below (E : Engine) {path : String} {base : List Char} (hbase : PathChars base)
    (h : escapedPath path = (base ++ ['/', '#']).flatMap escapeChar) (s : String) :
    (servicePathRegexes path).any (Alt.holds E [.str s]) = true ↔
      s.toList = base ∨ s.toList = base ++ ['\n'] ∨ (base ++ ['/']) <+: s.toList := by
  have h1 := Regex.parse_whole (escape_reads hbase)
  have h2 := parse_below hbase
  rw [servicePathRegexes_below h]
  simp only [List.any_cons, List.any_nil, Bool.or_false, regex_holds, Bool.or_eq_true]
  rw [E.regex_spec _ _ (by rw [String.toList_ofList]; exact h1),
    E.regex_spec _ _ (by rw [String.toList_ofList]; exact h2), Regex.search_whole, Regex.search_front, or_assoc]

/-- The regexes of a canonical path compile. -/
theorem servicePathRegexes_compile (E : Engine) {path : String} (h : CanonicalPath path) :
    ∀ a ∈ servicePathRegexes path, a.compiles E = true := by
  obtain ⟨p, hp⟩ := h
  have hone : ∀ text r, Regex.parse text = some r → (Alt.regex (String.ofList text)).compiles E = true :=
    fun text r ht => E.regexCompiles_spec _ r (by rw [String.toList_ofList]; exact ht)
  by_cases hb : ∃ pre, p.Below pre
  · obtain ⟨pre, hpre⟩ := hb
    have hbase : PathChars (joinPath pre) :=
      joinPath_chars fun c hc => p.facts c (by rw [hpre]; simp [hc])
    rw [servicePathRegexes_below (by rw [escapedPath_eq hp, ServicePath.chars_of_below hpre])]
    simp only [List.mem_cons, List.not_mem_nil, or_false, forall_eq_or_imp, forall_eq]
    exact ⟨hone _ _ (Regex.parse_whole (escape_reads hbase)), hone _ _ (parse_below hbase)⟩
  · rw [servicePathRegexes_plain (escapedPath_eq hp) (mt p.getLast_chars.1 hb)]
    simp only [List.mem_singleton, forall_eq]
    exact hone _ _ (Regex.parse_whole (escape_reads fun x => p.mem_chars))

theorem servicePathRegexes_iff (E : Engine) {path : String} {p : ServicePath} (h : path.toList = p.chars)
    (s : String) :
    (servicePathRegexes path).any (Alt.holds E [.str s]) = true ↔ TextTaken p s.toList := by
  by_cases hb : ∃ pre, p.Below pre
  · obtain ⟨pre, hpre⟩ := hb
    have hf : ∀ c ∈ pre, ComponentFacts c := fun c hc => p.facts c (by rw [hpre]; simp [hc])
    rw [regexes_below E (joinPath_chars hf) (by rw [escapedPath_eq h, ServicePath.chars_of_below hpre])]
    constructor
    · intro hs; exact .inr ⟨pre, hpre, hs⟩
    · rintro (⟨hn, _⟩ | ⟨pre', hpre', hs⟩)
      · exact absurd hpre (hn pre)
      · have hpp : pre = pre' := List.append_cancel_right (hpre.symm.trans hpre')
        rw [hpp]; exact hs
  · rw [regexes_plain E (fun x => p.mem_chars) (escapedPath_eq h) (mt p.getLast_chars.1 hb)]
    constructor
    · intro hs; exact .inl ⟨fun pre hp => hb ⟨pre, hp⟩, hs⟩
    · rintro (⟨_, hs⟩ | ⟨pre, hpre, _⟩)
      · exact hs
      · exact absurd ⟨pre, hpre⟩ hb

/-- The loop over the paths, on the values found at `_id.servicePath`. -/
theorem servicePathAlts_any (E : Engine) (vs : List Bson) : ∀ (paths : List String) (nullAdded : Bool),
    (servicePathAlts paths nullAdded).any (Alt.holds E vs) = true ↔
      (∃ path ∈ paths, (servicePathRegexes path).any (Alt.holds E vs) = true) ∨
      (nullAdded = false ∧ Alt.holds E vs .null = true ∧ ∃ path ∈ paths, path = "/" ∨ path = "/#")
  | [], _ => by simp [servicePathAlts]
  | path :: rest, nullAdded => by
    unfold servicePathAlts
    by_cases hn : nullAdded = false ∧ (path = "/" ∨ path = "/#")
    · have hc : (!nullAdded && (path == "/" || path == "/#")) = true := by
        simpa [hn.1] using hn.2
      rw [if_pos hc, List.any_cons, List.any_append, Bool.or_eq_true, Bool.or_eq_true,
        servicePathAlts_any E vs rest true]
      simp only [Bool.true_eq_false, false_and, or_false, List.exists_mem_cons_iff, hn.1, true_and, hn.2, true_or,
        and_true]
      exact or_comm
    · have hc : (!nullAdded && (path == "/" || path == "/#")) = false := by
        rw [Bool.eq_false_iff]
        intro h
        simp only [Bool.and_eq_true, Bool.not_eq_true', Bool.or_eq_true, beq_iff_eq] at h
        exact hn h
      rw [if_neg (by rw [hc]; decide), List.any_append, Bool.or_eq_true, servicePathAlts_any E vs rest nullAdded]
      simp only [List.exists_mem_cons_iff]
      rw [or_assoc]
      refine or_congr Iff.rfl (or_congr Iff.rfl (and_congr_right fun hna => and_congr_right fun _ => ?_))
      have : ¬ (path = "/" ∨ path = "/#") := fun h => hn ⟨hna, h⟩
      simp [this]

/-- **The filter on canonical paths**: some asked path takes the stored one. -/
theorem fillQueryServicePath_iff (E : Engine) {paths : List String} (hne : paths ≠ []) {ps : List ServicePath}
    (hps : List.Forall₂ (fun path p => path.toList = ServicePath.chars p) paths ps) (q : Option String) :
    (fillQueryServicePath paths).holds E (q.map Bson.str).toList = true ↔ ∃ p ∈ ps, FilterTakes p q := by
  have hl : paths.length > 0 := List.length_pos_of_ne_nil hne
  rw [fillQueryServicePath, if_pos hl, Cond.holds, servicePathAlts_any]
  cases q with
  | none =>
    have h1 : ∀ path, (servicePathRegexes path).any (Alt.holds E []) = false := by
      intro path
      unfold servicePathRegexes
      simp only
      split <;> simp [Alt.holds]
    simp only [Option.map_none, Option.toList_none, h1, Bool.false_eq_true, and_false, exists_false, false_or,
      true_and, FilterTakes]
    rw [show Alt.holds E [] .null = true from rfl]
    simp only [true_and]
    clear hne hl
    induction hps with
    | nil => simp
    | cons h hs ih =>
      simp only [List.exists_mem_cons_iff, ih]
      refine or_congr (or_congr ?_ ?_) Iff.rfl
      · rw [← h, show ['/'] = "/".toList from rfl]; exact String.toList_inj.symm
      · rw [← h, show ['/', '#'] = "/#".toList from rfl]; exact String.toList_inj.symm
  | some s =>
    have hnull : Alt.holds E [.str s] .null = false := by simp [Alt.holds]
    simp only [Option.map_some, Option.toList_some, hnull, Bool.false_eq_true, false_and, and_false, or_false,
      FilterTakes]
    clear hne hl
    induction hps with
    | nil => simp
    | cons h hs ih => simp only [List.exists_mem_cons_iff, ih, servicePathRegexes_iff E h]

/-- Without a path in the request, everything below the root and everything without path is taken. -/
theorem fillQueryServicePath_nil_iff (E : Engine) (q : Option String) :
    (fillQueryServicePath []).holds E (q.map Bson.str).toList = true ↔ ∀ s, q = some s → ['/'] <+: s.toList := by
  have hp : Regex.parse "^\\/.*".toList = some [Regex.front ['/']] := by decide
  cases q with
  | none => simp [fillQueryServicePath, Cond.holds, Alt.holds]
  | some s =>
    have h1 := E.regex_spec _ _ hp s
    simp only [fillQueryServicePath, Cond.holds, Alt.holds, List.length_nil, gt_iff_lt, Nat.lt_irrefl, if_false,
      Option.map_some, Option.toList_some, List.any_cons, List.any_nil, Bool.or_false, Bson.leaves, Bson.isStrWith,
      h1, Bool.or_eq_true, Regex.search_front]
    simp

theorem servicePathAlts_compile (E : Engine) : ∀ {paths : List String} (nullAdded : Bool),
    (∀ path ∈ paths, CanonicalPath path) → ∀ a ∈ servicePathAlts paths nullAdded, a.compiles E = true
  | [], _, _, a, ha => by cases ha
  | path :: rest, nullAdded, hcan, a, ha => by
    have hpath := servicePathRegexes_compile E (hcan path (by simp))
    have hrest := fun nullAdded => servicePathAlts_compile E nullAdded fun p hp => hcan p (List.mem_cons_of_mem path hp)
    unfold servicePathAlts at ha
    split at ha
    · rcases List.mem_cons.1 ha with rfl | ha
      · rfl
      · exact (List.mem_append.1 ha).elim (hpath a) (hrest true a)
    · exact (List.mem_append.1 ha).elim (hpath a) (hrest nullAdded a)

theorem fillQueryServicePath_nil_compiles (E : Engine) : (fillQueryServicePath []).compiles E = true := by
  have hp : Regex.parse "^\\/.*".toList = some [Regex.front ['/']] := by decide
  simp [fillQueryServicePath, Cond.compiles, Alt.compiles, E.regexCompiles_spec _ _ hp]

/-- The server takes the filter of canonical paths. -/
theorem fillQueryServicePath_compiles (E : Engine) {paths : List String} (hcan : ∀ path ∈ paths, CanonicalPath path) :
    (fillQueryServicePath paths).compiles E = true := by
  cases paths with
  | nil => exact fillQueryServicePath_nil_compiles E
  | cons path rest =>
    rw [fillQueryServicePath, if_pos (by simp), Cond.compiles, List.all_eq_true]
    exact servicePathAlts_compile E false hcan

end OrionBroker
