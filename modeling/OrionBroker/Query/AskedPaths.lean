import OrionBroker.Query.PathFilter
import OrionBroker.Rest.PathHeader

/-!
# The service-path filter on all accepted paths (MongoGlobal.cpp:720-781, :1867)

`slashEscape` writes into a buffer of `MAX_SERVICE_NAME_LEN` bytes. A path that is too long for it becomes the text
`ERROR`, and one that fills it exactly loses its last character. A canonical path is never that long, but the
header may have any number of leading slashes, which `servicePathCheck` does not see.

`fillQueryServicePath_exact_iff` says what is left of "the filter takes what is asked for".
-/

namespace OrionBroker

open Mongo

/-- `p` asks for the stored path, which may be absent. -/
def Asks (p : String) : Option String → Prop
  | none => p = "/" ∨ p = "/#"
  | some s => s = p ∨ ∃ base, p.toList = base ++ ['/', '#'] ∧ (s.toList = base ∨ (base ++ ['/']) <+: s.toList)

/-- The bytes of the escaped path. -/
def escapedSize (p : List Char) : Nat := p.length + p.count '/'

/-- There is room for the path, with one byte to spare. -/
def Fits (p : String) : Prop := escapedSize p.toList + 2 ≤ MAX_SERVICE_NAME_LEN

/-- The path fills the buffer, and is the stored path with one more character. -/
def CutTo (p : String) : Option String → Prop
  | none => False
  | some s => escapedSize p.toList + 1 = MAX_SERVICE_NAME_LEN ∧ ∃ c, p.toList = s.toList ++ [c]

/-! ## The buffer -/

/-- The loop stops before a last character that would leave no byte to spare. -/
theorem slashEscapeLoop_cut (toLen : Nat) (c : Char) : ∀ (text done buf : List Char), text ≠ [] →
    done.length + (text.flatMap escapeChar).length + 2 = toLen → buf.take done.length = done →
    slashEscapeLoop toLen (text ++ [c]) buf done.length = done ++ text.flatMap escapeChar
  | [], _, _, h, _, _ => absurd rfl h
  | d :: text, done, buf, _, hl, hb => by
    rw [List.flatMap_cons, List.length_append] at hl
    have hpos : 0 < (escapeChar d).length := by unfold escapeChar; split <;> simp
    rw [List.cons_append, slashEscapeLoop, if_neg (by omega), hb, ← List.length_append]
    cases text with
    | nil =>
      rw [List.nil_append, slashEscapeLoop, if_pos (by simp at hl ⊢; omega)]
      simp
    | cons e text =>
      rw [slashEscapeLoop_cut toLen c (e :: text) (done ++ escapeChar d) _ (by simp)
        (by rw [List.length_append]; omega) List.take_length]
      simp

theorem slashEscape_cut {text : List Char} {c : Char} (hc : c ≠ '/') (buf : List Char) {toLen : Nat} (hne : text ≠ [])
    (hl : escapedSize (text ++ [c]) + 1 = toLen) : slashEscape (text ++ [c]) buf toLen = text.flatMap escapeChar := by
  have hsize : escapedSize (text ++ [c]) = text.length + text.count '/' + 1 := by
    simp [escapedSize, List.count_append, hc]
    omega
  rw [slashEscape, if_neg (by unfold escapedSize at hl; omega)]
  have hloop := slashEscapeLoop_cut toLen c text [] buf hne
    (by rw [length_flatMap_escapeChar, List.length_nil]; omega) (by simp)
  simpa using hloop

section

variable {p : String} (h : AcceptedPath p.toList)
include h

theorem accepted_pathChars : PathChars p.toList := by
  intro x hx
  rcases h.chars x hx with hx | hx
  · exact .inl hx
  · simp only [componentChar, Bool.or_eq_true, beq_iff_eq] at hx
    exact .inr hx.symm

theorem cStr_accepted : cStr p = p.toList := by
  rw [cStr, List.takeWhile_eq_self_iff]
  intro x hx
  rcases accepted_pathChars h x hx with rfl | rfl | hx
  · decide
  · decide
  · simp only [bne_iff_ne]
    rintro rfl
    exact absurd hx (by decide)

theorem accepted_ne_nil : p.toList ≠ [] := by
  obtain ⟨t, ht⟩ := h.head
  rw [ht]
  simp

theorem newline_not_last (l : List Char) : p.toList ≠ l ++ ['\n'] := by
  intro e
  rcases accepted_pathChars h '\n' (by rw [e]; simp) with hx | hx | hx
  · exact absurd hx (by decide)
  · exact absurd hx (by decide)
  · exact absurd hx (by decide)

theorem escapedPath_fits (hfits : Fits p) : escapedPath p = p.toList.flatMap escapeChar := by
  rw [escapedPath, cStr_accepted h]
  exact slashEscape_eq [] (accepted_ne_nil h) hfits

theorem escapedPath_tooLong (hlong : MAX_SERVICE_NAME_LEN ≤ escapedSize p.toList) :
    escapedPath p = "ERROR".toList.flatMap escapeChar := by
  rw [escapedPath, cStr_accepted h, slashEscape, if_pos (by unfold escapedSize at hlong; omega)]
  decide

/-- In a full buffer the last character is missing. -/
theorem escapedPath_cut (hcut : escapedSize p.toList + 1 = MAX_SERVICE_NAME_LEN) :
    ∃ l c, p.toList = l ++ [c] ∧ escapedPath p = l.flatMap escapeChar := by
  obtain ⟨l, c, hlc⟩ := (List.eq_nil_or_concat p.toList).resolve_left (accepted_ne_nil h)
  rw [List.concat_eq_append] at hlc
  refine ⟨l, c, hlc, ?_⟩
  have hlong : l ≠ [] := by
    rintro rfl
    rw [hlc, escapedSize, List.nil_append, List.count_singleton, MAX_SERVICE_NAME_LEN] at hcut
    split at hcut <;> simp at hcut
  have hc : c ≠ '/' := by
    rintro rfl
    rcases h.trimmed with hroot | hlast
    · rw [hroot] at hcut
      exact absurd hcut (by decide)
    · rw [hlc, List.getLast?_concat] at hlast
      exact hlast rfl
  rw [hlc] at hcut
  rw [escapedPath, cStr_accepted h, hlc]
  exact slashEscape_cut hc [] hlong hcut

end

/-! ## One path -/

section

variable (E : Engine) {p s : String} (h : AcceptedPath p.toList) (hs : AcceptedPath s.toList)
include h hs

theorem regexes_fit (hfits : Fits p) :
    (servicePathRegexes p).any (Alt.holds E [.str s]) = true ↔ Asks p (some s) := by
  have hescaped := escapedPath_fits h hfits
  rcases h.kinds with hall | ⟨base, hbase, hall⟩
  · have hhash : '#' ∉ p.toList := by
      intro hx
      rcases hall '#' hx with hx | hx <;> exact absurd hx (by decide)
    have hlast : p.toList.getLast? ≠ some '#' := fun e => hhash (List.mem_of_getLast? e)
    rw [regexes_plain E (accepted_pathChars h) hescaped hlast]
    constructor
    · rintro (e | e)
      · exact .inl (String.toList_inj.1 e)
      · exact absurd e (newline_not_last hs _)
    · rintro (rfl | ⟨base, e, -⟩)
      · exact .inl rfl
      · exact absurd (by rw [e]; simp) hhash
  · have hchars : PathChars base := fun x hx => (hall x hx).imp id .inr
    rw [hbase] at hescaped
    rw [regexes_below E hchars hescaped]
    constructor
    · rintro (e | e | e)
      · exact .inr ⟨base, hbase, .inl e⟩
      · exact absurd e (newline_not_last hs _)
      · exact .inr ⟨base, hbase, .inr e⟩
    · rintro (rfl | ⟨base', e, hin⟩)
      · exact .inr (.inr ⟨['#'], by rw [hbase]; simp⟩)
      · obtain rfl : base = base' := List.append_cancel_right (hbase.symm.trans e)
        exact hin.imp id .inr

theorem regexes_tooLong (hlong : MAX_SERVICE_NAME_LEN ≤ escapedSize p.toList) :
    (servicePathRegexes p).any (Alt.holds E [.str s]) = false := by
  have hchars : PathChars "ERROR".toList := fun x hx => .inr (.inr (List.all_eq_true.1 (by decide) x hx))
  have hiff := regexes_plain E hchars (escapedPath_tooLong h hlong) (by decide) s
  rw [Bool.eq_false_iff]
  intro hany
  obtain ⟨t, ht⟩ := hs.head
  rcases hiff.1 hany with e | e
  · rw [ht] at e
    exact absurd (List.cons.inj e).1 (by decide)
  · exact newline_not_last hs _ e

theorem regexes_cut (hcut : escapedSize p.toList + 1 = MAX_SERVICE_NAME_LEN) :
    (servicePathRegexes p).any (Alt.holds E [.str s]) = true ↔ CutTo p (some s) := by
  obtain ⟨l, c, hlc, hescaped⟩ := escapedPath_cut h hcut
  have hchars : PathChars l := fun x hx => accepted_pathChars h x (by rw [hlc]; exact List.mem_append_left _ hx)
  -- a `#` is the last character of its path
  have hhash : '#' ∉ l := by
    rcases h.kinds with hall | ⟨base, hbase, hall⟩
    · intro hx
      rcases hall '#' (by rw [hlc]; exact List.mem_append_left _ hx) with hx | hx <;> exact absurd hx (by decide)
    · obtain rfl : l = base ++ ['/'] :=
        (List.append_inj' (show l ++ [c] = base ++ ['/'] ++ ['#'] by rw [← hlc, hbase]; simp) rfl).1
      intro hx
      rcases List.mem_append.1 hx with hx | hx
      · rcases hall '#' hx with hx | hx <;> exact absurd hx (by decide)
      · exact absurd hx (by decide)
  rw [regexes_plain E hchars hescaped fun e => hhash (List.mem_of_getLast? e)]
  constructor
  · rintro (e | e)
    · exact ⟨hcut, c, by rw [hlc, e]⟩
    · exact absurd e (newline_not_last hs _)
  · rintro ⟨-, d, hd⟩
    exact .inl (List.append_inj' (hd.symm.trans hlc) rfl).1

/-- What the regexes of a path take. -/
theorem regexes_iff : (servicePathRegexes p).any (Alt.holds E [.str s]) = true ↔
    (Fits p ∧ Asks p (some s)) ∨ CutTo p (some s) := by
  by_cases hfits : Fits p
  · have hcut : ¬ CutTo p (some s) := by
      rintro ⟨hcut, -⟩
      unfold Fits at hfits
      omega
    rw [regexes_fit E h hs hfits]
    simp [hfits, hcut]
  · by_cases hcut : escapedSize p.toList + 1 = MAX_SERVICE_NAME_LEN
    · rw [regexes_cut E h hs hcut]
      simp [hfits]
    · have hlong : MAX_SERVICE_NAME_LEN ≤ escapedSize p.toList := by
        unfold Fits at hfits
        omega
      rw [regexes_tooLong E h hs hlong]
      simp [hfits, CutTo, hcut]

end

/-! ## The filter -/

theorem fits_of_asks_none {p : String} (h : Asks p none) : Fits p := by
  rcases h with rfl | rfl <;> (unfold Fits; decide)

/-- What the filter takes. -/
theorem fillQueryServicePath_takes (E : Engine) {paths : List String} (hne : paths ≠ [])
    (haccepted : ∀ p ∈ paths, AcceptedPath p.toList) {q : Option String} (hq : ∀ s ∈ q, AcceptedPath s.toList) :
    (fillQueryServicePath paths).holds E (q.map Bson.str).toList = true ↔
      ∃ p ∈ paths, (Fits p ∧ Asks p q) ∨ CutTo p q := by
  rw [fillQueryServicePath, if_pos (List.length_pos_of_ne_nil hne), Cond.holds, servicePathAlts_any]
  cases q with
  | none =>
    have hregexes : ∀ path, (servicePathRegexes path).any (Alt.holds E []) = false := by
      intro path
      unfold servicePathRegexes
      simp only
      split <;> simp [Alt.holds]
    simp only [Option.map_none, Option.toList_none, hregexes, Bool.false_eq_true, and_false, exists_false, false_or,
      true_and, CutTo, or_false, show Alt.holds E [] .null = true from rfl]
    exact exists_congr fun p => and_congr_right fun _ => ⟨fun h => ⟨fits_of_asks_none h, h⟩, And.right⟩
  | some s =>
    have hnull : Alt.holds E [.str s] .null = false := by simp [Alt.holds]
    simp only [Option.map_some, Option.toList_some, hnull, Bool.false_eq_true, false_and, and_false, or_false]
    exact exists_congr fun p => and_congr_right fun hp => regexes_iff E (haccepted p hp) (hq s rfl)

/-- **The filter takes exactly what is asked for** when a path that fits asks for it, or when the paths that do not fit
ask for it and take it alike. -/
theorem fillQueryServicePath_exact_iff (E : Engine) {header : String} {paths : List String}
    (hpaths : servicePathSplit true header = .ok paths) (hne : paths ≠ []) {q : Option String}
    (hq : ∀ s ∈ q, ∃ header' v, servicePathSplit true header' = .ok v ∧ s ∈ v) :
    ((fillQueryServicePath paths).holds E (q.map Bson.str).toList = true ↔ ∃ p ∈ paths, Asks p q) ↔
      ((∃ p ∈ paths, Fits p ∧ Asks p q) ∨ ((∃ p ∈ paths, ¬ Fits p ∧ Asks p q) ↔ ∃ p ∈ paths, CutTo p q)) := by
  have hstored : ∀ s ∈ q, AcceptedPath s.toList := by
    intro s hs
    obtain ⟨header', v, hv, hmem⟩ := hq s hs
    exact accepted_of_mem hv hmem
  rw [fillQueryServicePath_takes E hne (fun p hp => accepted_of_mem hpaths hp) hstored]
  have hasks : (∃ p ∈ paths, Asks p q) ↔ (∃ p ∈ paths, Fits p ∧ Asks p q) ∨ ∃ p ∈ paths, ¬ Fits p ∧ Asks p q := by
    constructor
    · rintro ⟨p, hp, h⟩
      by_cases hfits : Fits p
      · exact .inl ⟨p, hp, hfits, h⟩
      · exact .inr ⟨p, hp, hfits, h⟩
    · rintro (⟨p, hp, -, h⟩ | ⟨p, hp, -, h⟩) <;> exact ⟨p, hp, h⟩
  have htakes : (∃ p ∈ paths, (Fits p ∧ Asks p q) ∨ CutTo p q) ↔
      (∃ p ∈ paths, Fits p ∧ Asks p q) ∨ ∃ p ∈ paths, CutTo p q := by
    simp only [and_or_left, exists_or]
  rw [hasks, htakes]
  by_cases hfits : ∃ p ∈ paths, Fits p ∧ Asks p q
  · simp only [hfits, true_or]
  · simp only [hfits, false_or]
    exact iff_comm

/-! ## A path with many slashes -/

/-- `/a`, with 511 slashes more than it needs. -/
def slashed : List Char := List.replicate 512 '/' ++ ['a']

def slashedPath : String := String.ofList slashed

theorem slashedPath_accepted : servicePathSplit true slashedPath = .ok [slashedPath] := by
  have hchars : cStr slashedPath = slashed := by
    rw [cStr, slashedPath, String.toList_ofList]
    decide +kernel
  have htrim : trimmedPaths slashedPath = [slashed] := by
    rw [trimmedPaths, hchars]
    decide +kernel
  have hcheck : servicePathCheck true slashed = .ok () := by decide +kernel
  refine servicePathSplit_ok_iff.2 ?_
  rw [htrim]
  exact ⟨by simp, by simpa using hcheck, rfl⟩

theorem slashedPath_not_taken :
    servicePathSplit true slashedPath = .ok [slashedPath] ∧ (∃ p ∈ [slashedPath], Asks p (some slashedPath)) ∧
    ¬ (fillQueryServicePath [slashedPath]).holds (.fragment fun _ _ => false) [.str slashedPath] = true := by
  have haccepted : ∀ p ∈ [slashedPath], AcceptedPath p.toList := fun p hp => accepted_of_mem slashedPath_accepted hp
  have hsize : escapedSize slashedPath.toList = 1025 := by
    rw [slashedPath, String.toList_ofList]
    decide +kernel
  have htakes := fillQueryServicePath_takes (.fragment fun _ _ => false) (List.cons_ne_nil slashedPath []) haccepted
    (q := some slashedPath) fun s hs => haccepted s (by rw [← Option.some.inj hs]; exact List.mem_singleton_self _)
  refine ⟨slashedPath_accepted, ⟨slashedPath, by simp, .inl rfl⟩, fun hholds => ?_⟩
  obtain ⟨p, hp, ⟨hfits, -⟩ | ⟨hcut, -⟩⟩ := htakes.1 hholds
  · rw [List.mem_singleton.1 hp, Fits, hsize] at hfits
    exact absurd hfits (by decide)
  · rw [List.mem_singleton.1 hp, hsize] at hcut
    exact absurd hcut (by decide)

theorem gardens_taken :
    servicePathSplit true "/Madrid/Gardens/#,/Madrid" = .ok ["/Madrid/Gardens/#", "/Madrid"] ∧
    ((fillQueryServicePath ["/Madrid/Gardens/#", "/Madrid"]).holds (.fragment fun _ _ => false)
        [.str "/Madrid/Gardens/North"] = true ↔
      ∃ p ∈ ["/Madrid/Gardens/#", "/Madrid"], Asks p (some "/Madrid/Gardens/North")) := by
  have hok : servicePathSplit true "/Madrid/Gardens/#,/Madrid" = .ok ["/Madrid/Gardens/#", "/Madrid"] := by decide
  refine ⟨hok, (fillQueryServicePath_exact_iff (.fragment fun _ _ => false) hok (by simp)
    (q := some "/Madrid/Gardens/North") ?_).2 (.inl ⟨"/Madrid/Gardens/#", by simp, by unfold Fits; decide, .inr ?_⟩)⟩
  · rintro s ⟨⟩
    exact ⟨"/Madrid/Gardens/North", ["/Madrid/Gardens/North"], by decide, by simp⟩
  · exact ⟨"/Madrid/Gardens".toList, rfl, .inr ⟨"North".toList, rfl⟩⟩

end OrionBroker
