import Mathlib.Algebra.Ring.Int.Defs
import Mathlib.Algebra.Ring.Nat
import Mathlib.Data.List.DropRight
import Mathlib.Data.Rat.Defs

/-!
# String functions (src/lib/common/string.cpp, wsStrip.cpp, MongoGlobal.cpp)

C strings are lists of characters; the number `atof` gives for an accepted numeral is a parameter.

| here | there |
| --- | --- |
| `stringSplit`   | `stringSplit` (string.cpp:163) |
| `wsStrip`       | `wsStrip` (wsStrip.cpp:34) |
| `atoF`          | `atoF` (string.cpp:556) |
| `string2coords` | `string2coords` (string.cpp:383) |
| `slashEscape`   | `slashEscape` (MongoGlobal.cpp:1867) |
| `strcasecmp`    | the comparison with a lower-case word |

`string2coords_eq` is the specification the update code relies on: success, and the coordinates it then
stores, depend on the text alone.
-/

namespace OrionBroker

/-- `strcasecmp(s, word) == 0` for a lower-case `word`. -/
def strcasecmp (s word : String) : Bool := s.toList.map Char.toLower == word.toList

/-- The C string of a `std::string`: what stands before the first NUL. -/
def cStr (s : String) : List Char := s.toList.takeWhile (· != '\x00')

/-! ## `stringSplit` -/

/-- Leading delimiters are skipped; what is left is cut at every delimiter. -/
def stringSplit (s : List Char) (delimiter : Char) : List (List Char) :=
  match s.dropWhile (· == delimiter) with
  | [] => []
  | rest => rest.splitOn delimiter

theorem stringSplit_of_ne {s : List Char} {delimiter : Char} (h : s.dropWhile (· == delimiter) ≠ []) :
    stringSplit s delimiter = (s.dropWhile (· == delimiter)).splitOn delimiter := by
  rw [stringSplit]
  split
  · rename_i hnil
    exact absurd hnil h
  · rfl

/-! ## `string2coords` -/

def isWs (c : Char) : Bool := c == ' ' || c == '\t' || c == '\n'

def wsStrip (s : List Char) : List Char := (s.dropWhile isWs).rdropWhile isWs

/-- The loop over the dots (string.cpp:577-591). -/
def countDots : List Char → Nat → Except String Nat
  | [], noOf => .ok noOf
  | ['.'], _ => .error "last character in a double cannot be a dot"
  | c :: cs, noOf => countDots cs (if c = '.' then noOf + 1 else noOf)

def isNumeralChar (c : Char) : Bool := c == '.' || c.isDigit

/-- The text after an optional sign, or the error for a sign with nothing behind it. -/
def skipSign : List Char → Except String (List Char)
  | '-' :: cs => if (cs.head?.any isNumeralChar) then .ok cs else .error "non-digit after unary minus/plus"
  | '+' :: cs => if (cs.head?.any isNumeralChar) then .ok cs else .error "non-digit after unary minus/plus"
  | cs => .ok cs

def atoF (atof : List Char → Rat) (s : List Char) : Except String Rat := do
  if s = [] then throw "empty string"
  let cP ← skipSign s
  let noOf ← countDots cP 0
  if noOf > 1 then throw "more than one dot"
  if !cP.all isNumeralChar then throw "invalid characters in string to convert"
  return atof s

/-- The two numbers around the first comma, each stripped; `none` when there is no comma. -/
def coordTexts (s : String) : Option (List Char × List Char) :=
  let cP := wsStrip (cStr s)
  if ',' ∈ cP then
    some (wsStrip (cP.takeWhile (· != ',')), wsStrip ((cP.dropWhile (· != ',')).drop 1))
  else none

/-- Returns the result and the two references as it leaves them: a text that does not parse leaves both
alone, a number out of range stays stored. -/
def string2coords (atof : List Char → Rat) (s : String) (latitude longitude : Rat) : Bool × Rat × Rat :=
  match coordTexts s with
  | none => (false, latitude, longitude)
  | some (number1, number2) =>
    let (ret, lat, long) : Bool × Rat × Rat :=
      match atoF atof number1 with
      | .error _ => (false, latitude, longitude)
      | .ok lat =>
        match atoF atof number2 with
        | .error _ => (false, latitude, longitude)
        | .ok long => (true, lat, long)
    if lat > 90 ∨ lat < -90 then (false, lat, long)
    else if long > 180 ∨ long < -180 then (false, lat, long)
    else (ret, lat, long)

/-- The coordinates of a text: both numbers accepted and in range. -/
def coords (atof : List Char → Rat) (s : String) : Option (Rat × Rat) :=
  match coordTexts s with
  | none => none
  | some (number1, number2) =>
    match atoF atof number1, atoF atof number2 with
    | .ok lat, .ok long =>
      if lat > 90 ∨ lat < -90 then none
      else if long > 180 ∨ long < -180 then none
      else some (lat, long)
    | _, _ => none

/-- `string2coords` succeeds exactly when the text has coordinates, and then stores them. -/
theorem string2coords_eq (atof : List Char → Rat) (s : String) (latitude longitude : Rat) :
    (∀ p, coords atof s = some p → string2coords atof s latitude longitude = (true, p.1, p.2)) ∧
    (coords atof s = none → (string2coords atof s latitude longitude).1 = false) := by
  unfold coords string2coords
  cases coordTexts s with
  | none => simp
  | some ns =>
    obtain ⟨n1, n2⟩ := ns
    simp only
    cases h1 : atoF atof n1 with
    | error e => simp only; split_ifs <;> simp
    | ok lat =>
      cases h2 : atoF atof n2 with
      | error e => simp only; split_ifs <;> simp
      | ok long => simp only; split_ifs <;> simp

theorem string2coords_true {atof : List Char → Rat} {s : String} {latitude longitude : Rat}
    (h : (string2coords atof s latitude longitude).1 = true) :
    coords atof s = some (string2coords atof s latitude longitude).2 := by
  obtain ⟨h1, h2⟩ := string2coords_eq atof s latitude longitude
  cases hc : coords atof s with
  | none => rw [h2 hc] at h; cases h
  | some p => rw [h1 p hc]

def digitsValue (cs : List Char) : Nat := cs.foldl (fun n c => 10 * n + (c.toNat - '0'.toNat)) 0

/-- The number a plain decimal text denotes; what `atof` gives for it, before rounding. -/
def decimal : List Char → Rat
  | '-' :: cs => -unsigned cs
  | '+' :: cs => unsigned cs
  | cs => unsigned cs
where
  unsigned (cs : List Char) : Rat :=
    let int := cs.takeWhile (· != '.')
    let frac := (cs.dropWhile (· != '.')).drop 1
    mkRat (digitsValue (int ++ frac)) (10 ^ frac.length)

example : coords decimal "40.5, -3.25" = some (81 / 2, -13 / 4) := by decide +kernel

/-! ## `slashEscape` -/

/-- The text of one character, a slash with its backslash. -/
def escapeChar (c : Char) : List Char := if c = '/' then ['\\', '/'] else [c]

/-- The copy loop (MongoGlobal.cpp:1889-1900); `buf` is the C string in the buffer. -/
def slashEscapeLoop (toLen : Nat) : List Char → List Char → Nat → List Char
  | [], buf, _ => buf
  | c :: rest, buf, ix =>
    if ix ≥ toLen - 2 then buf
    else slashEscapeLoop toLen rest (buf.take ix ++ escapeChar c) (ix + (escapeChar c).length)

/-- What the buffer of `toLen` bytes holds afterwards; `buf` is what it held before. -/
def slashEscape (text buf : List Char) (toLen : Nat) : List Char :=
  if text.length + text.count '/' + 1 > toLen then "ERROR".toList.take toLen
  else slashEscapeLoop toLen text buf 0

theorem length_flatMap_escapeChar (text : List Char) :
    (text.flatMap escapeChar).length = text.length + text.count '/' := by
  induction text with
  | nil => rfl
  | cons c cs ih =>
    rw [List.flatMap_cons, List.length_append, ih, List.count_cons, List.length_cons, escapeChar]
    by_cases h : c = '/'
    · simp [h]; omega
    · simp [h]; omega

/-- With two bytes to spare the loop copies everything. -/
theorem slashEscapeLoop_eq (toLen : Nat) : ∀ (text done buf : List Char), text ≠ [] →
    done.length + (text.flatMap escapeChar).length + 2 ≤ toLen → buf.take done.length = done →
    slashEscapeLoop toLen text buf done.length = done ++ text.flatMap escapeChar
  | [], _, _, h, _, _ => absurd rfl h
  | c :: text, done, buf, _, hl, hb => by
    rw [List.flatMap_cons, List.length_append] at hl
    have hpos : 0 < (escapeChar c).length := by unfold escapeChar; split <;> simp
    rw [slashEscapeLoop, if_neg (by omega), hb, ← List.length_append]
    cases text with
    | nil => simp [slashEscapeLoop]
    | cons d text =>
      rw [slashEscapeLoop_eq toLen (d :: text) (done ++ escapeChar c) _ (by simp)
        (by rw [List.length_append]; omega) List.take_length]
      simp

/-- **A text with room for it is escaped as it stands**, whatever the buffer held. -/
theorem slashEscape_eq {text : List Char} (buf : List Char) {toLen : Nat} (hne : text ≠ [])
    (hl : text.length + text.count '/' + 2 ≤ toLen) :
    slashEscape text buf toLen = text.flatMap escapeChar := by
  rw [slashEscape, if_neg (by omega)]
  have := slashEscapeLoop_eq toLen text [] buf hne
    (by rw [length_flatMap_escapeChar]; simpa using hl) (by simp)
  simpa using this

example : slashEscape "/a/b".toList [] 1024 = "\\/a\\/b".toList := by decide

end OrionBroker
