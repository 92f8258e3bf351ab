import OrionBroker.Common.Strings

/-!
# Durations (globals.cpp:199-347)

| here | there |
| --- | --- |
| `atoi`          | `atoi` of a text of digits, with the wrap of `strtol` to `int` |
| `toSeconds`     | the same (globals.cpp:199) |
| `parse8601Loop` | the `while` loop of `parse8601`; `start` is the text from `start` to `duration` |
| `parse8601`     | the same (globals.cpp:249); `-1` is the parse error |

`Duration::parse` and `Throttling::parse` return what `parse8601` returns.
-/

namespace OrionBroker

/-- A 64-bit number cut to an `int`. -/
def toInt32 (n : Int) : Int := Int.bmod n (2 ^ 32)

/-- How far a number moves when it is cut. -/
theorem toInt32_bounds (n : Nat) : 0 ≤ n - toInt32 n ∧ n - toInt32 n ≤ 2 * n ∧ (toInt32 n = n ↔ n < 2 ^ 31) := by
  unfold toInt32
  rw [Int.bmod_def]
  omega

/-- The sum of two `int64_t`. -/
def addInt64 (a b : Int) : Int := Int.bmod (a + b) (2 ^ 64)

/-- `strtol` stops at the largest `long`, and `atoi` keeps its low 32 bits. -/
def atoi (cs : List Char) : Int := toInt32 (min (digitsValue (cs.takeWhile Char.isDigit)) (2 ^ 63 - 1))

def toSeconds (value : Int) (what : Char) (dayPart : Bool) : Int :=
  if dayPart then
    if what = 'Y' then 365 * 24 * 3600 * value
    else if what = 'M' then 30 * 24 * 3600 * value
    else if what = 'W' then 7 * 24 * 3600 * value
    else if what = 'D' then 24 * 3600 * value
    else -1
  else
    if what = 'H' then 3600 * value
    else if what = 'M' then 60 * value
    else if what = 'S' then value
    else -1

def isDayUnit (c : Char) : Bool := c == 'Y' || c == 'M' || c == 'D' || c == 'W'

def isTimeUnit (c : Char) : Bool := c == 'H' || c == 'M' || c == 'S'

def parse8601Loop : List Char → (dayPart : Bool) → (accumulated : Int) → (start : List Char) →
    (digitsPending : Bool) → Int
  | [], _, accumulated, _, digitsPending => if digitsPending then -1 else accumulated
  | c :: cs, dayPart, accumulated, start, _ =>
    if c.isDigit then parse8601Loop cs dayPart accumulated (start ++ [c]) true
    else if dayPart && isDayUnit c then
      let value := atoi start
      if value = 0 ∧ start.head? ≠ some '0' then -1
      else parse8601Loop cs dayPart (addInt64 accumulated (toSeconds value c dayPart)) [] false
    -- digits before `T` are dropped
    else if dayPart && c == 'T' then parse8601Loop cs false accumulated [] false
    -- no test for missing digits here
    else if !dayPart && isTimeUnit c then
      parse8601Loop cs dayPart (addInt64 accumulated (toSeconds (atoi start) c dayPart)) [] false
    else -1

def parse8601 (s : String) : Int :=
  match cStr s with
  | 'P' :: c :: cs => parse8601Loop (c :: cs) true 0 [] false
  | _ => -1

end OrionBroker
