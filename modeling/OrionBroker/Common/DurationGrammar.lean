import Mathlib.Algebra.Order.Ring.Int
import Mathlib.Algebra.BigOperators.Group.List.Basic
import OrionBroker.Common.Duration

/-!
# What `parse8601` accepts, and what it makes of it (globals.cpp:199-347)

A duration is `P`, items of a number and one of `Y`, `M`, `W`, `D`, and possibly `T` and items with `H`, `M`, `S`. The
scanner also accepts digits before the `T`, which it drops, and items without digits behind it; it reads the numbers
as 32-bit ones and adds them up as 64-bit ones; and what follows a NUL it does not see.

| here | meaning |
| --- | --- |
| `DurationText.Readable` | the texts the scanner runs through |
| `DurationText.Strict`   | the grammar |
| `parse8601_readable`    | what a readable text gives |
| `parse8601_unreadable`  | another text is an error |
-/

namespace OrionBroker

/-! ## The grammar -/

structure DurationItem where
  digits : List Char
  unit : Char
deriving DecidableEq, Repr

def DurationItem.text (i : DurationItem) : List Char := i.digits ++ [i.unit]

def DurationItem.number (i : DurationItem) : Nat := digitsValue i.digits

/-- The items before the `T`, and, when there is one, the digits right before it and the items behind it. -/
structure DurationText where
  days : List DurationItem
  time : Option (List Char × List DurationItem) := none
deriving DecidableEq, Repr

namespace DurationText

def timeItems (d : DurationText) : List DurationItem := (d.time.map Prod.snd).getD []

/-- The text behind the `P`. -/
def text (d : DurationText) : List Char :=
  d.days.flatMap DurationItem.text ++
    match d.time with
    | none => []
    | some (dropped, items) => dropped ++ 'T' :: items.flatMap DurationItem.text

structure Readable (d : DurationText) : Prop where
  days : ∀ i ∈ d.days, i.digits ≠ [] ∧ i.digits.all Char.isDigit = true ∧ isDayUnit i.unit = true
  dropped : ∀ p ∈ d.time, p.1.all Char.isDigit = true
  time : ∀ i ∈ d.timeItems, i.digits.all Char.isDigit = true ∧ isTimeUnit i.unit = true

structure Strict (d : DurationText) : Prop extends Readable d where
  noneDropped : ∀ p ∈ d.time, p.1 = []
  numbers : ∀ i ∈ d.timeItems, i.digits ≠ []

end DurationText

/-- `s` is `P` and the text, which is not empty. -/
def DurationText.Spells (d : DurationText) (s : List Char) : Prop := s = 'P' :: d.text ∧ d.text ≠ []

/-- The string is in the grammar. -/
def IsDuration (s : String) : Prop := ∃ d : DurationText, d.Strict ∧ d.Spells s.toList

/-- The seconds of one `Y`, `M`, `W`, `D`, or of one `H`, `M`, `S`. -/
def secondsPer (dayPart : Bool) (unit : Char) : Nat :=
  if dayPart then
    if unit = 'Y' then 365 * 86400 else if unit = 'M' then 30 * 86400 else if unit = 'W' then 7 * 86400 else 86400
  else if unit = 'H' then 3600 else if unit = 'M' then 60 else 1

namespace DurationText

/-- The items with their part. -/
def items (d : DurationText) : List (Bool × DurationItem) :=
  d.days.map (true, ·) ++ d.timeItems.map (false, ·)

/-- The exact sum. -/
def seconds (d : DurationText) : Nat := (d.items.map fun i => secondsPer i.1 i.2.unit * i.2.number).sum

/-- The sum of the numbers as `int`, in 64 bits. -/
def wrapped (d : DurationText) : Int :=
  Int.bmod (d.items.map fun i => (secondsPer i.1 i.2.unit : Int) * atoi i.2.digits).sum (2 ^ 64)

/-- A number of days that is zero as an `int` and does not begin with a zero. -/
def Vanishes (d : DurationText) : Prop := ∃ i ∈ d.days, atoi i.digits = 0 ∧ i.digits.head? ≠ some '0'

instance (d : DurationText) : Decidable d.Vanishes := inferInstanceAs (Decidable (∃ i ∈ d.days, _))

/-- Numbers and sum are in range. -/
def InRange (d : DurationText) : Prop := (∀ i ∈ d.items, i.2.number < 2 ^ 31) ∧ d.seconds < 2 ^ 63

end DurationText

/-! ## The scanner on a readable text -/

theorem toSeconds_day {unit : Char} (h : isDayUnit unit = true) (value : Int) :
    toSeconds value unit true = secondsPer true unit * value := by
  unfold isDayUnit at h
  simp only [Bool.or_eq_true, beq_iff_eq] at h
  rcases h with ((rfl | rfl) | rfl) | rfl <;> simp [toSeconds, secondsPer]

theorem toSeconds_time {unit : Char} (h : isTimeUnit unit = true) (value : Int) :
    toSeconds value unit false = secondsPer false unit * value := by
  unfold isTimeUnit at h
  simp only [Bool.or_eq_true, beq_iff_eq] at h
  rcases h with (rfl | rfl) | rfl <;> simp [toSeconds, secondsPer]

theorem dayUnit_not_digit {unit : Char} (h : isDayUnit unit = true) : unit.isDigit = false := by
  unfold isDayUnit at h
  simp only [Bool.or_eq_true, beq_iff_eq] at h
  rcases h with ((rfl | rfl) | rfl) | rfl <;> decide

theorem timeUnit_not_digit {unit : Char} (h : isTimeUnit unit = true) : unit.isDigit = false := by
  unfold isTimeUnit at h
  simp only [Bool.or_eq_true, beq_iff_eq] at h
  rcases h with (rfl | rfl) | rfl <;> decide

/-- Digits are gathered; the flag is that of the last one. -/
theorem parse8601Loop_digits {dayPart : Bool} {accumulated : Int} {c : Char} {cs : List Char} :
    ∀ {digits start : List Char} {pending : Bool}, digits.all Char.isDigit = true →
      parse8601Loop (digits ++ c :: cs) dayPart accumulated start pending =
        parse8601Loop (c :: cs) dayPart accumulated (start ++ digits) false
  | [], start, pending, _ => by
    rw [List.nil_append, List.append_nil, parse8601Loop, parse8601Loop]
  | d :: digits, start, pending, h => by
    rw [List.all_cons, Bool.and_eq_true] at h
    rw [List.cons_append, parse8601Loop, if_pos h.1, parse8601Loop_digits h.2, List.append_assoc]
    rfl

theorem parse8601Loop_day {i : DurationItem} (hdigits : i.digits.all Char.isDigit = true) (hunit : isDayUnit i.unit = true)
    (cs : List Char) (sum : Int) :
    parse8601Loop (i.text ++ cs) true (Int.bmod sum (2 ^ 64)) [] false =
      if atoi i.digits = 0 ∧ i.digits.head? ≠ some '0' then -1
      else parse8601Loop cs true (Int.bmod (sum + secondsPer true i.unit * atoi i.digits) (2 ^ 64)) [] false := by
  rw [DurationItem.text, List.append_assoc, List.singleton_append, parse8601Loop_digits hdigits, List.nil_append,
    parse8601Loop, if_neg (by rw [dayUnit_not_digit hunit]; simp), if_pos (by rw [hunit]; rfl)]
  dsimp only
  rw [toSeconds_day hunit, addInt64, Int.bmod_add_bmod]

theorem parse8601Loop_time {i : DurationItem} (hdigits : i.digits.all Char.isDigit = true)
    (hunit : isTimeUnit i.unit = true) (cs : List Char) (sum : Int) :
    parse8601Loop (i.text ++ cs) false (Int.bmod sum (2 ^ 64)) [] false =
      parse8601Loop cs false (Int.bmod (sum + secondsPer false i.unit * atoi i.digits) (2 ^ 64)) [] false := by
  rw [DurationItem.text, List.append_assoc, List.singleton_append, parse8601Loop_digits hdigits, List.nil_append,
    parse8601Loop, if_neg (by rw [timeUnit_not_digit hunit]; simp), if_neg (by simp), if_neg (by simp),
    if_pos (by rw [hunit]; rfl), toSeconds_time hunit, addInt64, Int.bmod_add_bmod]

/-- The items before the `T`. -/
theorem parse8601Loop_days (cs : List Char) : ∀ {days : List DurationItem} (sum : Int),
    (∀ i ∈ days, i.digits ≠ [] ∧ i.digits.all Char.isDigit = true ∧ isDayUnit i.unit = true) →
    parse8601Loop (days.flatMap DurationItem.text ++ cs) true (Int.bmod sum (2 ^ 64)) [] false =
      if ∃ i ∈ days, atoi i.digits = 0 ∧ i.digits.head? ≠ some '0' then -1
      else parse8601Loop cs true
        (Int.bmod (sum + (days.map fun i => (secondsPer true i.unit : Int) * atoi i.digits).sum) (2 ^ 64)) [] false
  | [], sum, _ => by simp
  | i :: days, sum, h => by
    obtain ⟨-, hdigits, hunit⟩ := h i List.mem_cons_self
    rw [List.flatMap_cons, List.append_assoc, parse8601Loop_day hdigits hunit]
    by_cases hzero : atoi i.digits = 0 ∧ i.digits.head? ≠ some '0'
    · rw [if_pos hzero, if_pos ⟨i, List.mem_cons_self, hzero⟩]
    · rw [if_neg hzero, parse8601Loop_days cs _ fun j hj => h j (List.mem_cons_of_mem i hj)]
      simp only [List.exists_mem_cons_iff, hzero, false_or, List.map_cons, List.sum_cons, add_assoc]

/-- The items behind the `T`. -/
theorem parse8601Loop_times : ∀ {items : List DurationItem} (sum : Int),
    (∀ i ∈ items, i.digits.all Char.isDigit = true ∧ isTimeUnit i.unit = true) →
    parse8601Loop (items.flatMap DurationItem.text) false (Int.bmod sum (2 ^ 64)) [] false =
      Int.bmod (sum + (items.map fun i => (secondsPer false i.unit : Int) * atoi i.digits).sum) (2 ^ 64)
  | [], sum, _ => by simp [parse8601Loop]
  | i :: items, sum, h => by
    obtain ⟨hdigits, hunit⟩ := h i List.mem_cons_self
    rw [List.flatMap_cons, parse8601Loop_time hdigits hunit,
      parse8601Loop_times _ fun j hj => h j (List.mem_cons_of_mem i hj)]
    simp only [List.map_cons, List.sum_cons, add_assoc]

theorem parse8601Loop_text {d : DurationText} (h : d.Readable) :
    parse8601Loop d.text true 0 [] false = if d.Vanishes then -1 else d.wrapped := by
  obtain ⟨days, time⟩ := d
  cases time with
  | none =>
    have hdays := parse8601Loop_days [] 0 h.days
    rw [Int.zero_bmod] at hdays
    rw [DurationText.text, hdays]
    simp only [DurationText.Vanishes, DurationText.wrapped, DurationText.items, DurationText.timeItems]
    simp [parse8601Loop, Function.comp_def]
  | some p =>
    obtain ⟨dropped, items⟩ := p
    have hdays := parse8601Loop_days (dropped ++ 'T' :: items.flatMap DurationItem.text) 0 h.days
    have htimes := @parse8601Loop_times items (days.map fun i => (secondsPer true i.unit : Int) * atoi i.digits).sum h.time
    have hT : ∀ sum, parse8601Loop (dropped ++ 'T' :: items.flatMap DurationItem.text) true sum [] false =
        parse8601Loop (items.flatMap DurationItem.text) false sum [] false := by
      intro sum
      rw [parse8601Loop_digits (h.dropped _ rfl), parse8601Loop, if_neg (by decide), if_neg (by decide),
        if_pos (by decide)]
    rw [Int.zero_bmod] at hdays
    rw [DurationText.text, hdays, hT, zero_add, htimes]
    simp only [DurationText.Vanishes, DurationText.wrapped, DurationText.items, DurationText.timeItems]
    simp [Function.comp_def]

/-! ## Another text -/

/-- What is left to scan behind the `T`, with the digits gathered so far. -/
theorem times_of_parse : ∀ {cs start : List Char} {accumulated : Int} {pending : Bool},
    start.all Char.isDigit = true → (pending = false → start = []) →
    parse8601Loop cs false accumulated start pending ≠ -1 →
    ∃ items : List DurationItem, start ++ cs = items.flatMap DurationItem.text ∧
      ∀ i ∈ items, i.digits.all Char.isDigit = true ∧ isTimeUnit i.unit = true
  | [], start, _, pending, _, hpending, h => by
    cases pending with
    | true => simp [parse8601Loop] at h
    | false => exact ⟨[], by simp [hpending rfl], by simp⟩
  | c :: cs, start, accumulated, pending, hstart, _, h => by
    rw [parse8601Loop] at h
    by_cases hdigit : c.isDigit = true
    · rw [if_pos hdigit] at h
      obtain ⟨items, htext, hitems⟩ := times_of_parse (by simp [hstart, hdigit]) (by simp) h
      exact ⟨items, by rw [← htext]; simp, hitems⟩
    · rw [if_neg hdigit, if_neg (by simp), if_neg (by simp)] at h
      by_cases hunit : isTimeUnit c = true
      · rw [if_pos (by simpa using hunit)] at h
        obtain ⟨items, htext, hitems⟩ := @times_of_parse cs [] _ _ rfl (fun _ => rfl) h
        refine ⟨⟨start, c⟩ :: items, ?_, List.forall_mem_cons.2 ⟨⟨hstart, hunit⟩, hitems⟩⟩
        rw [List.flatMap_cons, ← htext, DurationItem.text]
        simp
      · rw [if_neg (by simpa using hunit)] at h
        exact absurd rfl h

theorem text_of_parse : ∀ {cs start : List Char} {accumulated : Int} {pending : Bool},
    start.all Char.isDigit = true → (pending = false → start = []) →
    parse8601Loop cs true accumulated start pending ≠ -1 → ∃ d : DurationText, d.Readable ∧ start ++ cs = d.text
  | [], start, _, pending, _, hpending, h => by
    cases pending with
    | true => simp [parse8601Loop] at h
    | false =>
      refine ⟨⟨[], none⟩, ⟨by simp, by simp, by simp [DurationText.timeItems]⟩, ?_⟩
      simp [hpending rfl, DurationText.text]
  | c :: cs, start, accumulated, pending, hstart, _, h => by
    rw [parse8601Loop] at h
    by_cases hdigit : c.isDigit = true
    · rw [if_pos hdigit] at h
      obtain ⟨d, hd, htext⟩ := text_of_parse (by simp [hstart, hdigit]) (by simp) h
      exact ⟨d, hd, by rw [← htext]; simp⟩
    · rw [if_neg hdigit] at h
      by_cases hunit : isDayUnit c = true
      · rw [if_pos (by simpa using hunit)] at h
        dsimp only at h
        split at h
        · exact absurd rfl h
        · rename_i hzero
          obtain ⟨⟨days, time⟩, hd, htext⟩ := @text_of_parse cs [] _ _ rfl (fun _ => rfl) h
          have hne : start ≠ [] := by
            rintro rfl
            exact hzero ⟨by decide, by simp⟩
          refine ⟨⟨⟨start, c⟩ :: days, time⟩, ⟨?_, hd.dropped, hd.time⟩, ?_⟩
          · exact List.forall_mem_cons.2 ⟨⟨hne, hstart, hunit⟩, hd.days⟩
          · rw [List.nil_append] at htext
            rw [htext]
            simp [DurationText.text, DurationItem.text]
      · rw [if_neg (by simpa using hunit)] at h
        by_cases hT : c = 'T'
        · rw [if_pos (by simp [hT])] at h
          obtain ⟨items, htext, hitems⟩ := @times_of_parse cs [] _ _ rfl (fun _ => rfl) h
          refine ⟨⟨[], some (start, items)⟩, ⟨by simp, ?_, hitems⟩, ?_⟩
          · rintro p ⟨⟩
            exact hstart
          · rw [List.nil_append] at htext
            simp [DurationText.text, hT, htext]
        · rw [if_neg (by simp [hT]), if_neg (by simp)] at h
          exact absurd rfl h

/-! ## `parse8601` -/

theorem DurationText.Readable.chars {d : DurationText} (h : d.Readable) :
    ∀ c ∈ d.text, c.isDigit = true ∨ isDayUnit c = true ∨ isTimeUnit c = true ∨ c = 'T' := by
  have hitem : ∀ i : DurationItem, i.digits.all Char.isDigit = true → ∀ c ∈ i.text, c.isDigit = true ∨ c = i.unit := by
    intro i hdigits c hc
    rcases List.mem_append.1 hc with hc | hc
    · exact .inl (List.all_eq_true.1 hdigits c hc)
    · exact .inr (List.mem_singleton.1 hc)
  obtain ⟨days, time⟩ := d
  intro c hc
  rcases List.mem_append.1 hc with hc | hc
  · obtain ⟨i, hi, hc⟩ := List.mem_flatMap.1 hc
    obtain ⟨-, hdigits, hunit⟩ := h.days i hi
    rcases hitem i hdigits c hc with hc | rfl
    · exact .inl hc
    · exact .inr (.inl hunit)
  · cases time with
    | none => cases hc
    | some p =>
      rcases List.mem_append.1 hc with hc | hc
      · exact .inl (List.all_eq_true.1 (h.dropped p rfl) c hc)
      · rcases List.mem_cons.1 hc with hc | hc
        · exact .inr (.inr (.inr hc))
        · obtain ⟨i, hi, hc⟩ := List.mem_flatMap.1 hc
          obtain ⟨hdigits, hunit⟩ := h.time i hi
          rcases hitem i hdigits c hc with hc | rfl
          · exact .inl hc
          · exact .inr (.inr (.inl hunit))

/-- A readable text has no NUL. -/
theorem DurationText.Spells.cStr_eq {d : DurationText} {s : String} (h : d.Readable) (hs : d.Spells s.toList) :
    cStr s = s.toList := by
  rw [cStr, List.takeWhile_eq_self_iff, hs.1]
  intro c hc
  rcases List.mem_cons.1 hc with rfl | hc
  · decide
  · rw [bne_iff_ne]
    rintro rfl
    rcases h.chars _ hc with h | h | h | h <;> exact absurd h (by decide)

theorem parse8601_readable {d : DurationText} {s : String} (h : d.Readable) (hs : d.Spells (cStr s)) :
    parse8601 s = if d.Vanishes then -1 else d.wrapped := by
  rw [← parse8601Loop_text h, parse8601, hs.1]
  obtain ⟨c, cs, hcs⟩ := List.exists_cons_of_ne_nil hs.2
  rw [hcs]
  rfl

theorem parse8601_unreadable {s : String} (h : ∀ d : DurationText, d.Readable → ¬ d.Spells (cStr s)) :
    parse8601 s = -1 := by
  by_contra hne
  unfold parse8601 at hne
  split at hne
  · rename_i c cs hcs
    obtain ⟨d, hd, htext⟩ := @text_of_parse (c :: cs) [] _ _ rfl (fun _ => rfl) hne
    rw [List.nil_append] at htext
    exact h d hd ⟨by rw [hcs, htext], by rw [← htext]; simp⟩
  · exact hne rfl

/-! ## Numbers and sums -/

/-- The number as an `int`. -/
def cut (n : Nat) : Int := toInt32 (min n (2 ^ 63 - 1))

theorem atoi_digits {digits : List Char} (h : digits.all Char.isDigit = true) : atoi digits = cut (digitsValue digits) := by
  rw [atoi, List.takeWhile_eq_self_iff.2 (List.all_eq_true.1 h)]
  rfl

theorem cut_of_lt {n : Nat} (h : n < 2 ^ 63) : cut n = toInt32 n := by
  have hmin : min (n : Int) (2 ^ 63 - 1) = n := by omega
  rw [cut, hmin]

/-- The sum of the cut numbers. -/
def cutSum (l : List (Nat × Nat)) : Int := (l.map fun p => (p.1 : Int) * cut p.2).sum

def exactSum (l : List (Nat × Nat)) : Nat := (l.map fun p => p.1 * p.2).sum

theorem le_exactSum : ∀ {l : List (Nat × Nat)}, (∀ p ∈ l, 1 ≤ p.1) → ∀ p ∈ l, p.2 ≤ exactSum l
  | [], _, _, hp => nomatch hp
  | q :: l, hw, p, hp => by
    have hq := hw q List.mem_cons_self
    have hsum : exactSum (q :: l) = q.1 * q.2 + exactSum l := by simp [exactSum]
    rw [hsum]
    rcases List.mem_cons.1 hp with rfl | hp
    · exact Nat.le_add_right_of_le (Nat.le_mul_of_pos_left _ hq)
    · exact Nat.le_add_left_of_le (le_exactSum (fun r hr => hw r (List.mem_cons_of_mem q hr)) p hp)

theorem lost_add {n m e c : Int} (h0 : 0 ≤ n - m) (h2 : n - m ≤ 2 * n) (he : 0 ≤ e - c) (he2 : e - c ≤ 2 * e) :
    0 ≤ n + e - (m + c) ∧ n + e - (m + c) ≤ 2 * (n + e) ∧ (m + c = n + e ↔ n - m = 0 ∧ c = e) := by
  omega

/-- What is lost by cutting adds up, without being more than twice the sum. -/
theorem cutSum_bounds {l : List (Nat × Nat)} (hw : ∀ p ∈ l, 1 ≤ p.1) (hl : ∀ p ∈ l, p.2 < 2 ^ 63) :
    0 ≤ exactSum l - cutSum l ∧ exactSum l - cutSum l ≤ 2 * exactSum l ∧
      (cutSum l = exactSum l ↔ ∀ p ∈ l, p.2 < 2 ^ 31) := by
  induction l with
  | nil => simp [exactSum, cutSum]
  | cons q l ih =>
    obtain ⟨h1, h2, h3⟩ := ih (fun r hr => hw r (List.mem_cons_of_mem q hr)) fun r hr => hl r (List.mem_cons_of_mem q hr)
    obtain ⟨b1, b2, b3⟩ := toInt32_bounds q.2
    have hcut : cutSum (q :: l) = q.1 * cut q.2 + cutSum l := by simp [cutSum]
    rw [cut_of_lt (hl q List.mem_cons_self)] at hcut
    have hexact : (exactSum (q :: l) : Int) = q.1 * q.2 + exactSum l := by simp [exactSum]
    have hpos : (0 : Int) < q.1 := Int.natCast_pos.2 (hw q List.mem_cons_self)
    have hlost : (q.1 : Int) * (q.2 - toInt32 q.2) = q.1 * q.2 - q.1 * toInt32 q.2 := mul_sub _ _ _
    have hlost0 : (0 : Int) ≤ q.1 * (q.2 - toInt32 q.2) := mul_nonneg hpos.le b1
    have hlost2 : (q.1 : Int) * (q.2 - toInt32 q.2) ≤ 2 * (q.1 * q.2) := by
      have := mul_le_mul_of_nonneg_left b2 hpos.le
      rwa [mul_left_comm] at this
    have hzero : (q.1 : Int) * (q.2 - toInt32 q.2) = 0 ↔ toInt32 q.2 = q.2 := by
      rw [mul_eq_zero, or_iff_right hpos.ne', sub_eq_zero, eq_comm]
    rw [hcut, hexact, List.forall_mem_cons, ← b3, ← h3, ← hzero, hlost]
    rw [hlost] at hlost0 hlost2
    exact lost_add hlost0 hlost2 h1 h2

theorem wrap_cutSum_iff {l : List (Nat × Nat)} (hw : ∀ p ∈ l, 1 ≤ p.1) :
    Int.bmod (cutSum l) (2 ^ 64) = exactSum l ↔ (∀ p ∈ l, p.2 < 2 ^ 31) ∧ exactSum l < 2 ^ 63 := by
  constructor
  · intro h
    have hlt := Int.bmod_lt (x := cutSum l) (m := 2 ^ 64) (by decide)
    have hsmall : exactSum l < 2 ^ 63 := by omega
    obtain ⟨h1, h2, h3⟩ := cutSum_bounds hw fun p hp => Nat.lt_of_le_of_lt (le_exactSum hw p hp) hsmall
    obtain ⟨k, hk⟩ := Int.dvd_self_sub_bmod (x := cutSum l) (m := 2 ^ 64)
    exact ⟨h3.1 (by omega), hsmall⟩
  · rintro ⟨hnumbers, hsmall⟩
    have hsum := (cutSum_bounds hw fun p hp => Nat.lt_of_lt_of_le (hnumbers p hp) (by decide)).2.2.2 hnumbers
    rw [hsum, Int.bmod_def]
    omega

theorem one_le_secondsPer (dayPart : Bool) (unit : Char) : 1 ≤ secondsPer dayPart unit := by
  unfold secondsPer
  split_ifs <;> decide

namespace DurationText

variable {d : DurationText} (h : d.Readable)
include h

theorem Readable.digits : ∀ i ∈ d.items, i.2.digits.all Char.isDigit = true := by
  intro i hi
  rcases List.mem_append.1 hi with hi | hi
  · obtain ⟨j, hj, rfl⟩ := List.mem_map.1 hi
    exact (h.days j hj).2.1
  · obtain ⟨j, hj, rfl⟩ := List.mem_map.1 hi
    exact (h.time j hj).1

theorem wrapped_eq_seconds_iff : d.wrapped = d.seconds ↔ d.InRange := by
  have hcut : (d.items.map fun i => (secondsPer i.1 i.2.unit : Int) * atoi i.2.digits).sum =
      cutSum (d.items.map fun i => (secondsPer i.1 i.2.unit, i.2.number)) := by
    rw [cutSum, List.map_map]
    refine congrArg List.sum (List.map_congr_left fun i hi => ?_)
    rw [atoi_digits (h.digits i hi)]
    rfl
  have hexact : d.seconds = exactSum (d.items.map fun i => (secondsPer i.1 i.2.unit, i.2.number)) := by
    rw [exactSum, List.map_map]
    rfl
  have hw : ∀ p ∈ d.items.map fun i => (secondsPer i.1 i.2.unit, i.2.number), 1 ≤ p.1 := by
    intro p hp
    obtain ⟨i, -, rfl⟩ := List.mem_map.1 hp
    exact one_le_secondsPer _ _
  rw [wrapped, hcut, hexact, wrap_cutSum_iff hw, InRange, hexact, List.forall_mem_map]

omit h in
theorem head_of_zero {digits : List Char} (hne : digits ≠ []) (hdigits : digits.all Char.isDigit = true)
    (hzero : digitsValue digits = 0) : digits.head? = some '0' := by
  have hmono : ∀ (cs : List Char) (n : Nat), n ≤ cs.foldl (fun n c => 10 * n + (c.toNat - '0'.toNat)) n := by
    intro cs
    induction cs with
    | nil => exact fun n => Nat.le_refl n
    | cons c cs ih =>
      intro n
      have hstep : n ≤ 10 * n + (c.toNat - '0'.toNat) := by omega
      exact Nat.le_trans hstep (ih _)
  obtain ⟨c, cs, rfl⟩ := List.exists_cons_of_ne_nil hne
  have hfirst := hmono cs (10 * 0 + (c.toNat - '0'.toNat))
  rw [show cs.foldl _ (10 * 0 + (c.toNat - '0'.toNat)) = digitsValue (c :: cs) from rfl, hzero] at hfirst
  simp only [List.all_cons, Bool.and_eq_true, Char.isDigit, decide_eq_true_eq] at hdigits
  have hge : 48 ≤ c.toNat := UInt32.le_iff_toNat_le.1 hdigits.1.1
  have hle : c.toNat ≤ 48 := by
    have : '0'.toNat = 48 := rfl
    omega
  have hc : c = '0' := Char.ext (UInt32.toNat_inj.1 (Nat.le_antisymm hle hge))
  rw [hc, List.head?_cons]

/-- A number in range that is zero begins with a zero. -/
theorem not_vanishes (hrange : d.InRange) : ¬ d.Vanishes := by
  rintro ⟨i, hi, hzero, hhead⟩
  obtain ⟨hne, hdigits, -⟩ := h.days i hi
  have hnumber : i.number < 2 ^ 31 := hrange.1 (true, i) (List.mem_append_left _ (List.mem_map_of_mem hi))
  have hvalue : digitsValue i.digits = 0 := by
    have hcut := toInt32_bounds (digitsValue i.digits)
    have hnumber : digitsValue i.digits < 2 ^ 31 := hnumber
    rw [atoi_digits hdigits, cut_of_lt (by omega), hcut.2.2.2 hnumber] at hzero
    omega
  exact hhead (head_of_zero hne hdigits hvalue)

theorem parse8601_inRange {s : String} (hs : d.Spells (cStr s)) : parse8601 s = d.seconds ↔ d.InRange := by
  rw [parse8601_readable h hs, ← wrapped_eq_seconds_iff h]
  constructor
  · intro he
    split at he
    · have : (0 : Int) ≤ d.seconds := Int.natCast_nonneg _
      omega
    · exact he
  · intro he
    rw [if_neg (not_vanishes h ((wrapped_eq_seconds_iff h).1 he)), he]

end DurationText

/-- **The scanner is the grammar** on the strings of the grammar whose numbers and sum are in range, and on the other
strings that it does not run through, or that come to `-1` by accident. -/
theorem parse8601_exact_iff (s : String) :
    ((parse8601 s ≠ -1 ↔ IsDuration s) ∧
      ∀ d : DurationText, d.Strict → d.Spells s.toList → parse8601 s = d.seconds) ↔
    (∀ d : DurationText, d.Strict → d.Spells s.toList → d.InRange) ∧
    (¬ IsDuration s → ∀ d : DurationText, d.Readable → d.Spells (cStr s) → d.Vanishes ∨ d.wrapped = -1) := by
  have hexact : ∀ d : DurationText, d.Strict → d.Spells s.toList → (parse8601 s = d.seconds ↔ d.InRange) := by
    intro d hd hs
    refine DurationText.parse8601_inRange hd.toReadable ?_
    rwa [DurationText.Spells.cStr_eq hd.toReadable hs]
  constructor
  · rintro ⟨haccepted, hsum⟩
    refine ⟨fun d hd hs => (hexact d hd hs).1 (hsum d hd hs), fun hno d hd hs => ?_⟩
    have herror : parse8601 s = -1 := not_not.1 (mt haccepted.1 hno)
    rw [parse8601_readable hd hs] at herror
    split at herror
    · rename_i hvanishes
      exact .inl hvanishes
    · exact .inr herror
  · rintro ⟨hrange, hother⟩
    have hsum : ∀ d : DurationText, d.Strict → d.Spells s.toList → parse8601 s = d.seconds :=
      fun d hd hs => (hexact d hd hs).2 (hrange d hd hs)
    refine ⟨⟨fun hne => ?_, ?_⟩, hsum⟩
    · by_contra hno
      refine hne ?_
      by_cases hread : ∃ d : DurationText, d.Readable ∧ d.Spells (cStr s)
      · obtain ⟨d, hd, hs⟩ := hread
        rw [parse8601_readable hd hs]
        rcases hother hno d hd hs with hvanishes | hwrapped
        · rw [if_pos hvanishes]
        · split
          · rfl
          · exact hwrapped
      · exact parse8601_unreadable fun d hd hs => hread ⟨d, hd, hs⟩
    · rintro ⟨d, hd, hs⟩
      rw [hsum d hd hs]
      have : (0 : Int) ≤ d.seconds := Int.natCast_nonneg _
      omega

/-! ## Two strings -/

/-- A number is followed by its unit, or by the `T` when it is dropped. -/
theorem not_duration_P5T3S : ¬ IsDuration "P5T3S" := by
  rintro ⟨⟨days, time⟩, hd, hs, -⟩
  have htext : "5T3S".toList = DurationText.text ⟨days, time⟩ := (List.cons.inj hs).2
  cases days with
  | nil =>
    cases time with
    | none => cases htext
    | some p =>
      obtain ⟨dropped, items⟩ := p
      obtain rfl : dropped = [] := hd.noneDropped _ rfl
      exact absurd (List.cons.inj htext).1 (by decide)
  | cons i days =>
    obtain ⟨hne, hdigits, hunit⟩ := hd.days i List.mem_cons_self
    obtain ⟨digits, unit⟩ := i
    match digits, hne, hdigits with
    | [c], _, _ =>
      have hT := (List.cons.inj (List.cons.inj htext).2).1
      rw [← hT] at hunit
      exact absurd hunit (by decide)
    | c :: c' :: digits, _, hdigits =>
      have hT := (List.cons.inj (List.cons.inj htext).2).1
      rw [← hT] at hdigits
      simp only [List.all_cons, Bool.and_eq_true] at hdigits
      exact absurd hdigits.2.1 (by decide)

/-- Digits before the `T` are dropped, and a number of 33 bits is zero. -/
theorem parse8601_slips :
    parse8601 "P5T3S" = 3 ∧ ¬ IsDuration "P5T3S" ∧
    IsDuration "PT4294967296S" ∧ parse8601 "PT4294967296S" = 0 := by
  refine ⟨by decide, not_duration_P5T3S, ?_, by decide⟩
  refine ⟨⟨[], some ([], [⟨"4294967296".toList, 'S'⟩])⟩, ⟨⟨by simp, ?_, ?_⟩, ?_, ?_⟩, rfl, by decide⟩
  · rintro p ⟨⟩
    rfl
  · intro i hi
    rw [List.mem_singleton.1 hi]
    exact ⟨by decide, by decide⟩
  · rintro p ⟨⟩
    rfl
  · intro i hi
    rw [List.mem_singleton.1 hi]
    decide

end OrionBroker
