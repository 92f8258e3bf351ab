import OrionBroker.Common.Strings
import OrionBroker.Lib.Pieces

/-!
# Numerals and coordinates (string.cpp:383-448, 556-612)

| here | meaning |
| --- | --- |
| `IsNumeral`    | the grammar of the numbers |
| `Coordinates`  | the text is two numbers and a comma between them |
| `CoordsInRange`      | a latitude and a longitude |

`atoF` looks for a sign, counts the dots behind it and then checks the characters; together that is the grammar
(`atoF_ok_iff`). `string2coords` stores the numbers first and checks their range afterwards. It takes a latitude back
when the longitude does not parse, but not when one of the two is out of range (`string2coords_kept_iff`).
-/

namespace OrionBroker

/-! ## The grammar -/

/-- Digits, or a dot with digits behind it and perhaps in front of it. -/
def IsUnsigned (s : List Char) : Prop :=
  (s ≠ [] ∧ s.all Char.isDigit = true) ∨
  ∃ int frac, s = int ++ '.' :: frac ∧ int.all Char.isDigit = true ∧ frac ≠ [] ∧ frac.all Char.isDigit = true

def IsNumeral (s : List Char) : Prop :=
  IsUnsigned s ∨ ∃ rest, (s = '-' :: rest ∨ s = '+' :: rest) ∧ IsUnsigned rest

/-- What the three checks of `atoF` say about the text behind the sign. -/
structure Checked (cP : List Char) : Prop where
  ne_nil : cP ≠ []
  last : cP.getLast? ≠ some '.'
  dots : cP.count '.' ≤ 1
  chars : cP.all isNumeralChar = true

theorem isNumeralChar_of_isDigit {c : Char} (h : c.isDigit = true) : isNumeralChar c = true := by
  simp [isNumeralChar, h]

theorem all_isNumeralChar {s : List Char} (h : s.all Char.isDigit = true) : s.all isNumeralChar = true := by
  rw [List.all_eq_true] at h ⊢
  exact fun c hc => isNumeralChar_of_isDigit (h c hc)

theorem dot_notMem_digits {s : List Char} (h : s.all Char.isDigit = true) : '.' ∉ s := by
  intro hmem
  have := List.all_eq_true.1 h '.' hmem
  revert this
  decide

theorem all_isDigit {s : List Char} (h : s.all isNumeralChar = true) (hdot : '.' ∉ s) : s.all Char.isDigit = true := by
  rw [List.all_eq_true] at h ⊢
  intro c hc
  have := h c hc
  simp only [isNumeralChar, Bool.or_eq_true, beq_iff_eq] at this
  rcases this with rfl | hdigit
  · exact absurd hc hdot
  · exact hdigit

theorem checked_iff {cP : List Char} : Checked cP ↔ IsUnsigned cP := by
  constructor
  · rintro ⟨hne, hlast, hdots, hchars⟩
    by_cases hdot : '.' ∈ cP
    · right
      obtain ⟨int, frac, rfl⟩ := List.append_of_mem hdot
      rw [List.count_append, List.count_cons_self] at hdots
      rw [List.all_append, Bool.and_eq_true, List.all_cons, Bool.and_eq_true] at hchars
      have hint : '.' ∉ int := List.count_eq_zero.1 (by omega)
      have hfrac : '.' ∉ frac := List.count_eq_zero.1 (by omega)
      refine ⟨int, frac, rfl, all_isDigit hchars.1 hint, ?_, all_isDigit hchars.2.2 hfrac⟩
      rintro rfl
      simp at hlast
    · exact Or.inl ⟨hne, all_isDigit hchars hdot⟩
  · rintro (⟨hne, hdigits⟩ | ⟨int, frac, rfl, hint, hne, hfrac⟩)
    · have hdot := dot_notMem_digits hdigits
      refine ⟨hne, ?_, by rw [List.count_eq_zero.2 hdot]; omega, all_isNumeralChar hdigits⟩
      exact fun h => hdot (List.mem_of_getLast? h)
    · refine ⟨by simp, ?_, ?_, ?_⟩
      · rw [List.getLast?_append_of_ne_nil _ (by simp), List.getLast?_cons_of_ne_nil hne]
        exact fun h => dot_notMem_digits hfrac (List.mem_of_getLast? h)
      · rw [List.count_append, List.count_cons_self, List.count_eq_zero.2 (dot_notMem_digits hint),
          List.count_eq_zero.2 (dot_notMem_digits hfrac)]
      · simp [all_isNumeralChar hint, all_isNumeralChar hfrac, isNumeralChar]

/-! ## `atoF` -/

theorem countDots_eq (cs : List Char) : ∀ noOf : Nat, countDots cs noOf =
    if cs.getLast? = some '.' then .error "last character in a double cannot be a dot" else .ok (noOf + cs.count '.') := by
  induction cs with
  | nil => intro noOf; simp [countDots]
  | cons c cs ih =>
    intro noOf
    cases cs with
    | nil =>
      by_cases hc : c = '.'
      · subst hc
        rfl
      · rw [countDots, countDots, if_neg (by simpa using hc)]
        · simp [hc]
        · exact fun e _ => hc e
    | cons d cs =>
      have hcount : (if c = '.' then noOf + 1 else noOf) + (d :: cs).count '.' = noOf + (c :: d :: cs).count '.' := by
        rw [List.count_cons (l := d :: cs)]
        generalize (d :: cs).count '.' = dots
        by_cases hc : c = '.'
        · simp only [hc, if_true, beq_self_eq_true]
          omega
        · simp [hc]
      rw [countDots, ih, List.getLast?_cons_cons, hcount]
      simp

/-- The checks, one after another. -/
theorem atoF_ok_iff_checks (atof : List Char → Rat) (s : List Char) :
    (∃ x, atoF atof s = .ok x) ↔ s ≠ [] ∧ ∃ cP, skipSign s = .ok cP ∧
      cP.getLast? ≠ some '.' ∧ cP.count '.' ≤ 1 ∧ cP.all isNumeralChar = true := by
  unfold atoF
  by_cases hnil : s = []
  · simp [hnil, bind, Except.bind, throw, throwThe, MonadExceptOf.throw]
  · cases skipSign s with
    | error e => simp [hnil, bind, Except.bind]
    | ok cP =>
      simp only [hnil, if_false, bind, Except.bind, pure, Except.pure, throw, throwThe, MonadExceptOf.throw, countDots_eq,
        Nat.zero_add]
      by_cases hlast : cP.getLast? = some '.'
      · simp [hnil, hlast]
      · by_cases hdots : cP.count '.' > 1
        · have : ¬ cP.count '.' ≤ 1 := by omega
          simp [hnil, hlast, hdots, this]
        · have : cP.count '.' ≤ 1 := by omega
          cases hchars : cP.all isNumeralChar with
          | false => simpa [hnil, hlast, hdots, this] using hchars
          | true => simpa [hnil, hlast, hdots, this] using hchars

theorem skipSign_sign {c : Char} {rest : List Char} (hc : c = '-' ∨ c = '+') :
    skipSign (c :: rest) =
      if rest.head?.any isNumeralChar then .ok rest else .error "non-digit after unary minus/plus" := by
  rcases hc with rfl | rfl <;> rfl

theorem skipSign_other {s : List Char} (h : ∀ rest, s ≠ '-' :: rest ∧ s ≠ '+' :: rest) : skipSign s = .ok s := by
  unfold skipSign
  split
  · exact absurd rfl (h _).1
  · exact absurd rfl (h _).2
  · rfl

/-- A text that begins with a sign is no unsigned number. -/
theorem not_isUnsigned_sign {c : Char} {rest : List Char} (hc : c = '-' ∨ c = '+') : ¬ IsUnsigned (c :: rest) := by
  intro h
  have hchar := List.all_eq_true.1 (checked_iff.2 h).chars c List.mem_cons_self
  rcases hc with rfl | rfl <;> revert hchar <;> decide

/-- **`atoF` accepts exactly the numerals.** -/
theorem atoF_ok_iff (atof : List Char → Rat) (s : List Char) : (∃ x, atoF atof s = .ok x) ↔ IsNumeral s := by
  rw [atoF_ok_iff_checks]
  by_cases hsign : ∃ c rest, s = c :: rest ∧ (c = '-' ∨ c = '+')
  · obtain ⟨c, rest, rfl, hc⟩ := hsign
    have hnum : IsNumeral (c :: rest) ↔ IsUnsigned rest := by
      unfold IsNumeral
      rw [or_iff_right (not_isUnsigned_sign hc)]
      rcases hc with rfl | rfl <;> simp
    rw [hnum, ← checked_iff, skipSign_sign hc]
    constructor
    · rintro ⟨-, cP, hskip, hlast, hdots, hchars⟩
      split_ifs at hskip with hany
      cases hskip
      refine ⟨?_, hlast, hdots, hchars⟩
      rintro rfl
      cases hany
    · rintro ⟨hne, hlast, hdots, hchars⟩
      have hany : rest.head?.any isNumeralChar = true := by
        obtain ⟨d, ds, rfl⟩ := List.exists_cons_of_ne_nil hne
        exact List.all_eq_true.1 hchars d List.mem_cons_self
      exact ⟨by simp, rest, by rw [if_pos hany], hlast, hdots, hchars⟩
  · have hother : ∀ rest, s ≠ '-' :: rest ∧ s ≠ '+' :: rest :=
      fun rest => ⟨fun e => hsign ⟨_, _, e, Or.inl rfl⟩, fun e => hsign ⟨_, _, e, Or.inr rfl⟩⟩
    have hnum : IsNumeral s ↔ IsUnsigned s := by
      unfold IsNumeral
      rw [or_iff_left]
      rintro ⟨rest, he, -⟩
      exact he.elim (hother rest).1 (hother rest).2
    rw [hnum, ← checked_iff, skipSign_other hother]
    constructor
    · rintro ⟨hne, cP, hskip, hlast, hdots, hchars⟩
      cases hskip
      exact ⟨hne, hlast, hdots, hchars⟩
    · rintro ⟨hne, hlast, hdots, hchars⟩
      exact ⟨hne, s, rfl, hlast, hdots, hchars⟩

/-! ## `string2coords` -/

/-- The text is two numbers, with the values `latitude` and `longitude`, and the first comma between them. -/
def Coordinates (s : String) (latitude longitude : Rat) : Prop :=
  ∃ number1 number2, wsStrip (cStr s) = number1 ++ ',' :: number2 ∧ ',' ∉ number1 ∧
    atoF decimal (wsStrip number1) = .ok latitude ∧ atoF decimal (wsStrip number2) = .ok longitude

def CoordsInRange (latitude longitude : Rat) : Prop :=
  (-90 ≤ latitude ∧ latitude ≤ 90) ∧ -180 ≤ longitude ∧ longitude ≤ 180

instance (latitude longitude : Rat) : Decidable (CoordsInRange latitude longitude) := inferInstanceAs (Decidable (_ ∧ _))

theorem coordTexts_eq_some {s : String} {text1 text2 : List Char} :
    coordTexts s = some (text1, text2) ↔ ∃ number1 number2, wsStrip (cStr s) = number1 ++ ',' :: number2 ∧
      ',' ∉ number1 ∧ wsStrip number1 = text1 ∧ wsStrip number2 = text2 := by
  unfold coordTexts
  generalize wsStrip (cStr s) = cP
  constructor
  · intro h
    dsimp only at h
    split_ifs at h with hcomma
    cases h
    obtain ⟨number2, hd⟩ := Pieces.exists_dropWhile hcomma
    rw [hd]
    exact ⟨_, number2, Pieces.eq_of_dropWhile_cons hd, Pieces.notMem_takeWhile, rfl, rfl⟩
  · rintro ⟨number1, number2, rfl, hcomma, rfl, rfl⟩
    simp only [Pieces.takeWhile_append_cons hcomma, Pieces.dropWhile_append_cons hcomma]
    simp

/-- In terms of the texts around the comma. -/
theorem coordinates_iff {s : String} {latitude longitude : Rat} : Coordinates s latitude longitude ↔
    ∃ text1 text2, coordTexts s = some (text1, text2) ∧
      atoF decimal text1 = .ok latitude ∧ atoF decimal text2 = .ok longitude := by
  simp only [coordTexts_eq_some]
  constructor
  · rintro ⟨number1, number2, heq, hcomma, h1, h2⟩
    exact ⟨_, _, ⟨number1, number2, heq, hcomma, rfl, rfl⟩, h1, h2⟩
  · rintro ⟨_, _, ⟨number1, number2, heq, hcomma, rfl, rfl⟩, h1, h2⟩
    exact ⟨number1, number2, heq, hcomma, h1, h2⟩

theorem string2coords_of_none {s : String} (latitude longitude : Rat) (h : ∀ lat long, ¬ Coordinates s lat long) :
    string2coords decimal s latitude longitude = (false, latitude, longitude) := by
  simp only [coordinates_iff] at h
  unfold string2coords
  cases htexts : coordTexts s with
  | none => rfl
  | some texts =>
    obtain ⟨text1, text2⟩ := texts
    simp only
    cases h1 : atoF decimal text1 with
    | error e => simp only; split_ifs <;> rfl
    | ok lat =>
      cases h2 : atoF decimal text2 with
      | error e => simp only; split_ifs <;> rfl
      | ok long => exact absurd ⟨text1, text2, htexts, h1, h2⟩ (h lat long)

theorem string2coords_of_some {s : String} (latitude longitude : Rat) {lat long : Rat} (h : Coordinates s lat long) :
    string2coords decimal s latitude longitude = (decide (CoordsInRange lat long), lat, long) := by
  obtain ⟨text1, text2, htexts, h1, h2⟩ := coordinates_iff.1 h
  unfold string2coords
  rw [htexts]
  simp only [h1, h2]
  by_cases hlat : lat > 90 ∨ lat < -90
  · have : ¬ CoordsInRange lat long := fun hr => hlat.elim (Rat.not_lt.2 hr.1.2) (Rat.not_lt.2 hr.1.1)
    simp [hlat, this]
  · by_cases hlong : long > 180 ∨ long < -180
    · have : ¬ CoordsInRange lat long := fun hr => hlong.elim (Rat.not_lt.2 hr.2.2) (Rat.not_lt.2 hr.2.1)
      simp [hlat, hlong, this]
    · have : CoordsInRange lat long := by
        simp only [not_or, gt_iff_lt, Rat.not_lt] at hlat hlong
        exact ⟨hlat.symm, hlong.symm⟩
      rw [if_neg hlat, if_neg hlong, decide_eq_true this]

theorem coordinates_unique {s : String} {lat long lat' long' : Rat} (h : Coordinates s lat long)
    (h' : Coordinates s lat' long') : lat' = lat ∧ long' = long := by
  obtain ⟨text1, text2, htexts, h1, h2⟩ := coordinates_iff.1 h
  obtain ⟨text1', text2', htexts', h1', h2'⟩ := coordinates_iff.1 h'
  rw [htexts] at htexts'
  cases htexts'
  rw [h1] at h1'
  rw [h2] at h2'
  cases h1'
  cases h2'
  exact ⟨rfl, rfl⟩

/-- What the caller is promised: success means that the text is two numbers in range, and failure that nothing
happened. -/
def CoordsKept (s : String) (latitude longitude : Rat) : Prop :=
  ((string2coords decimal s latitude longitude).1 = false →
    (string2coords decimal s latitude longitude).2 = (latitude, longitude)) ∧
  ((string2coords decimal s latitude longitude).1 = true ↔
    ∃ lat long, Coordinates s lat long ∧ CoordsInRange lat long)

/-- **The promise is kept, except for two numbers out of range that are not the old coordinates.** -/
theorem string2coords_kept_iff (s : String) (latitude longitude : Rat) :
    CoordsKept s latitude longitude ↔
      ∀ lat long, Coordinates s lat long → ¬ CoordsInRange lat long → lat = latitude ∧ long = longitude := by
  unfold CoordsKept
  by_cases hsome : ∃ lat long, Coordinates s lat long
  · obtain ⟨lat, long, hc⟩ := hsome
    have hall : ∀ lat' long', Coordinates s lat' long' ↔ lat' = lat ∧ long' = long := by
      intro lat' long'
      exact ⟨coordinates_unique hc, fun ⟨e1, e2⟩ => e1 ▸ e2 ▸ hc⟩
    rw [string2coords_of_some latitude longitude hc]
    simp only [hall]
    by_cases hr : CoordsInRange lat long
    · refine iff_of_true ⟨by simp [hr], by simp [hr]⟩ ?_
      rintro _ _ ⟨rfl, rfl⟩ hno
      exact absurd hr hno
    · constructor
      · rintro ⟨hkept, -⟩ _ _ ⟨rfl, rfl⟩ -
        simpa using hkept (by simp [hr])
      · intro hold
        obtain ⟨rfl, rfl⟩ := hold lat long ⟨rfl, rfl⟩ hr
        exact ⟨fun _ => rfl, by simp [hr]⟩
  · have hnone : ∀ lat long, ¬ Coordinates s lat long := fun lat long h => hsome ⟨lat, long, h⟩
    rw [string2coords_of_none latitude longitude hnone]
    simp [hnone]

/-- A latitude out of range is refused, and stored. -/
theorem string2coords_kept_fails : ¬ CoordsKept "91, 0" 40 (-3) := by
  intro h
  have := h.1 (by decide +kernel)
  revert this
  decide +kernel

end OrionBroker
