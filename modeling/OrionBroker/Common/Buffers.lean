import OrionBroker.Common.Duration
import OrionBroker.Lib.CBuffer

/-!
# Functions that fill a buffer of the caller (MongoGlobal.cpp, string.cpp)

A byte is a character, a buffer the list of its bytes, and `none` a write outside it.

| here | there |
| --- | --- |
| `strncpy`         | the function of the C library |
| `slashEscapeCopy` | the copy loop of `slashEscape` (MongoGlobal.cpp:1889-1900) |
| `slashEscapeInto` | `slashEscape` (MongoGlobal.cpp:1867); `slashEscape` here is the string it leaves |
| `strToLowerLoop`  | the copy loop of `strToLower` and the terminator (string.cpp:631-643) |
| `strToLower`      | the same (string.cpp:620) |

`slashEscape` tests the fit with `toLen` and copies while the index is below `toLen - 2`, and it writes a terminator
behind each character only: an exact fit loses its last character unless that is a slash, and an empty text leaves
the buffer alone. `strToLower` cuts a long text to `toSize` bytes and puts the terminator behind them.
-/

namespace OrionBroker

open CBuffer

/-! ## `slashEscape` -/

/-- What is left of the `n` bytes is filled with NULs. -/
def strncpy (buf src : List Char) (n : Nat) : Option (List Char) :=
  writeAll buf 0 (src.take n ++ List.replicate (n - src.length) '\x00')

def slashEscapeCopy (toLen : Nat) : List Char → List Char → Nat → Option (List Char)
  | [], buf, _ => some buf
  | c :: src, buf, ix =>
    if ix ≥ toLen - 2 then some buf
    else do
      let buf ← writeAll buf ix (escapeChar c)
      let buf ← write buf (ix + (escapeChar c).length) '\x00'
      slashEscapeCopy toLen src buf (ix + (escapeChar c).length)

def slashEscapeInto (src buf : List Char) (toLen : Nat) : Option (List Char) :=
  if src.length + src.count '/' + 1 > toLen then strncpy buf "ERROR".toList toLen
  else slashEscapeCopy toLen src buf 0

theorem length_escapeChar (c : Char) : (escapeChar c).length = if c = '/' then 2 else 1 := by
  unfold escapeChar
  split <;> rfl

theorem nul_notMem_escapeChar {c : Char} (h : c ≠ '\x00') : '\x00' ∉ escapeChar c := by
  unfold escapeChar
  split
  · decide
  · simpa using h.symm

theorem nul_notMem_escaped {src : List Char} (h : '\x00' ∉ src) : '\x00' ∉ src.flatMap escapeChar := by
  rw [List.mem_flatMap]
  rintro ⟨c, hc, hmem⟩
  exact nul_notMem_escapeChar (fun e => h (e ▸ hc)) hmem

section Copy

variable {toLen : Nat} {c : Char} {src done tail : List Char}

/-- One round: the character and a terminator go behind what is done. -/
theorem slashEscapeCopy_cons (hlen : (done ++ tail).length = toLen) (hix : done.length < toLen - 2) :
    slashEscapeCopy toLen (c :: src) (done ++ tail) done.length =
      slashEscapeCopy toLen src (done ++ escapeChar c ++ '\x00' :: tail.drop ((escapeChar c).length + 1))
        (done ++ escapeChar c).length := by
  have hc : (escapeChar c).length ≤ 2 := by rw [length_escapeChar]; split <;> omega
  rw [List.length_append] at hlen
  have h1 : writeAll (done ++ tail) done.length (escapeChar c) =
      some (done ++ escapeChar c ++ tail.drop (escapeChar c).length) := by
    rw [writeAll_of_le (by simp; omega)]
    simp [List.drop_append]
  have h2 : write (done ++ escapeChar c ++ tail.drop (escapeChar c).length) (done ++ escapeChar c).length '\x00' =
      some (done ++ escapeChar c ++ '\x00' :: tail.drop ((escapeChar c).length + 1)) := by
    rw [write_of_lt (by simp; omega), List.take_left, List.drop_append, List.drop_eq_nil_of_le (by omega), List.drop_drop]
    simp
  rw [slashEscapeCopy, if_neg (by omega)]
  simp only [h1, Option.bind_eq_bind, Option.bind_some]
  rw [← List.length_append, h2, Option.bind_some]

/-- As long as the last character of `src` is reached below `toLen - 2`, all of it is copied. -/
theorem slashEscapeCopy_run (more : List Char) (hne : src ≠ []) (hlen : (done ++ tail).length = toLen)
    (hix : done.length + (src.dropLast.flatMap escapeChar).length < toLen - 2) :
    ∃ rest, (done ++ src.flatMap escapeChar ++ '\x00' :: rest).length = toLen ∧
      slashEscapeCopy toLen (src ++ more) (done ++ tail) done.length =
        slashEscapeCopy toLen more (done ++ src.flatMap escapeChar ++ '\x00' :: rest)
          (done ++ src.flatMap escapeChar).length := by
  induction src generalizing done tail with
  | nil => exact absurd rfl hne
  | cons c src ih =>
    have hc : (escapeChar c).length ≤ 2 := by rw [length_escapeChar]; split <;> omega
    rw [List.cons_append, slashEscapeCopy_cons hlen (by omega)]
    have hlen' : (done ++ escapeChar c ++ '\x00' :: tail.drop ((escapeChar c).length + 1)).length = toLen := by
      simp at hlen ⊢
      omega
    cases src with
    | nil => exact ⟨tail.drop ((escapeChar c).length + 1), by simpa using hlen', by simp⟩
    | cons d src =>
      rw [List.dropLast_cons_cons, List.flatMap_cons, List.length_append] at hix
      obtain ⟨rest, hrest, hrun⟩ := ih (by simp) hlen' (by rw [List.length_append]; omega)
      exact ⟨rest, by simpa using hrest, by simpa using hrun⟩

end Copy

theorem length_escaped_dropLast {src : List Char} (hne : src ≠ []) :
    (src.dropLast.flatMap escapeChar).length + (if src.getLast? = some '/' then 2 else 1) =
      (src.flatMap escapeChar).length := by
  conv_rhs => rw [← List.dropLast_append_getLast hne]
  rw [List.flatMap_append, List.length_append, List.getLast?_eq_some_getLast hne]
  simp [length_escapeChar]

/-- What the caller is promised: the escaped text when it fits with its terminator, and `ERROR` when it does not. -/
def SlashEscaped (src buf : List Char) : Prop :=
  ∃ buf', slashEscapeInto src buf buf.length = some buf' ∧ buf'.length = buf.length ∧
    CBuffer.cString '\x00' buf' =
      some (if (src.flatMap escapeChar).length + 1 ≤ buf.length then src.flatMap escapeChar else "ERROR".toList)

/-- Too long; or not empty, and with a byte to spare or a slash at the end; or empty, in a buffer that already holds
the empty string. -/
def SlashEscapeCondition (src buf : List Char) : Prop :=
  buf.length < (src.flatMap escapeChar).length + 1 ∨
  src ≠ [] ∧ ((src.flatMap escapeChar).length + 1 < buf.length ∨ src.getLast? = some '/') ∨
  src = [] ∧ buf.head? = some '\x00'

section Into

variable {src buf : List Char}

theorem slashEscapeInto_long (h6 : 6 ≤ buf.length) (hlong : buf.length < (src.flatMap escapeChar).length + 1) :
    slashEscapeInto src buf buf.length = some ("ERROR".toList ++ '\x00' :: List.replicate (buf.length - 6) '\x00') := by
  rw [length_flatMap_escapeChar] at hlong
  have htake : "ERROR".toList.take buf.length = "ERROR".toList := List.take_of_length_le (by simp; omega)
  have hfill : List.replicate (buf.length - "ERROR".toList.length) '\x00' =
      '\x00' :: List.replicate (buf.length - 6) '\x00' := by
    rw [← List.replicate_succ]
    congr 1
    simp
    omega
  rw [slashEscapeInto, if_pos (by omega), strncpy, htake, hfill, writeAll_of_le (by simp; omega)]
  have hdrop : 0 + ("ERROR".toList ++ '\x00' :: List.replicate (buf.length - 6) '\x00').length = buf.length := by
    simp
    omega
  rw [hdrop]
  simp

theorem slashEscapeInto_empty (h6 : 6 ≤ buf.length) : slashEscapeInto [] buf buf.length = some buf := by
  rw [slashEscapeInto, if_neg (by rw [List.length_nil, List.count_nil]; omega)]
  rfl

/-- The text reached below `toLen - 2` is all there. -/
theorem slashEscapeInto_copied (hne : src ≠ []) (hfit : (src.flatMap escapeChar).length + 1 ≤ buf.length)
    (hroom : (src.flatMap escapeChar).length + 1 < buf.length ∨ src.getLast? = some '/') :
    ∃ rest, (src.flatMap escapeChar ++ '\x00' :: rest).length = buf.length ∧
      slashEscapeInto src buf buf.length = some (src.flatMap escapeChar ++ '\x00' :: rest) := by
  have hlast := length_escaped_dropLast hne
  have hix : ([] : List Char).length + (src.dropLast.flatMap escapeChar).length < buf.length - 2 := by
    simp only [List.length_nil, Nat.zero_add]
    rcases hroom with hroom | hroom
    · split at hlast <;> omega
    · rw [if_pos hroom] at hlast
      omega
  have hlen : ([] ++ buf).length = buf.length := rfl
  obtain ⟨rest, hrest, hrun⟩ := slashEscapeCopy_run [] hne hlen hix
  refine ⟨rest, hrest, ?_⟩
  rw [slashEscapeInto, if_neg (by rw [← length_flatMap_escapeChar]; omega)]
  simpa [slashEscapeCopy] using hrun

/-- An exact fit that ends in another character stops in front of that character. -/
theorem slashEscapeInto_short (h6 : 6 ≤ buf.length) (hne : src ≠ [])
    (hexact : (src.flatMap escapeChar).length + 1 = buf.length) (hlast : src.getLast? ≠ some '/') :
    ∃ rest, slashEscapeInto src buf buf.length = some (src.dropLast.flatMap escapeChar ++ '\x00' :: rest) := by
  have hdrop := length_escaped_dropLast hne
  rw [if_neg hlast] at hdrop
  have hne' : src.dropLast ≠ [] := by
    intro h
    rw [h, List.flatMap_nil, List.length_nil] at hdrop
    omega
  have hdrop' := length_escaped_dropLast hne'
  have hix : ([] : List Char).length + (src.dropLast.dropLast.flatMap escapeChar).length < buf.length - 2 := by
    simp only [List.length_nil, Nat.zero_add]
    split at hdrop' <;> omega
  have hlen : ([] ++ buf).length = buf.length := rfl
  obtain ⟨rest, -, hrun⟩ := slashEscapeCopy_run [src.getLast hne] hne' hlen hix
  refine ⟨rest, ?_⟩
  rw [List.dropLast_append_getLast hne] at hrun
  rw [slashEscapeInto, if_neg (by rw [← length_flatMap_escapeChar]; omega)]
  simp only [List.nil_append, List.length_nil] at hrun
  rw [hrun, slashEscapeCopy, if_pos (by omega)]

theorem slashEscaped_empty (h6 : 6 ≤ buf.length) : SlashEscaped [] buf ↔ buf.head? = some '\x00' := by
  have hstring : SlashEscaped [] buf ↔ CBuffer.cString '\x00' buf = some [] := by
    constructor
    · rintro ⟨buf', hbuf, -, h⟩
      rw [slashEscapeInto_empty h6] at hbuf
      cases hbuf
      rwa [if_pos (by rw [List.flatMap_nil, List.length_nil]; omega)] at h
    · intro h
      refine ⟨buf, slashEscapeInto_empty h6, rfl, ?_⟩
      rwa [if_pos (by rw [List.flatMap_nil, List.length_nil]; omega)]
  rw [hstring, cString_eq_some_iff]
  cases buf with
  | nil => simp
  | cons c cs => simp

end Into

/-- **`slashEscape` keeps its promise exactly under that condition.** -/
theorem slashEscaped_iff (src buf : List Char) (hsrc : '\x00' ∉ src) (h6 : 6 ≤ buf.length) :
    SlashEscaped src buf ↔ SlashEscapeCondition src buf := by
  have hnul := nul_notMem_escaped hsrc
  by_cases hfit : (src.flatMap escapeChar).length + 1 ≤ buf.length
  · by_cases hne : src = []
    · subst hne
      rw [slashEscaped_empty h6, SlashEscapeCondition, or_iff_right (by omega), or_iff_right (by simp)]
      simp
    · rw [SlashEscapeCondition, or_iff_right (by omega), or_iff_left (by simp [hne]), and_iff_right hne]
      constructor
      · rintro ⟨buf', hbuf, -, hstring⟩
        rw [if_pos hfit] at hstring
        by_contra hcon
        rw [not_or] at hcon
        obtain ⟨rest, hshort⟩ := slashEscapeInto_short h6 hne (by omega) hcon.2
        rw [hshort] at hbuf
        cases hbuf
        have hcut : '\x00' ∉ src.dropLast.flatMap escapeChar :=
          nul_notMem_escaped fun h => hsrc ((List.dropLast_sublist src).subset h)
        -- the last character is missing
        have hlen := congrArg List.length (cString_unique hstring hcut)
        have := length_escaped_dropLast hne
        split at this <;> omega
      · intro hroom
        obtain ⟨rest, hlen, hcopied⟩ := slashEscapeInto_copied hne hfit hroom
        exact ⟨_, hcopied, hlen, by rw [if_pos hfit, cString_append hnul]⟩
  · refine iff_of_true ⟨_, slashEscapeInto_long h6 (by omega), by simp; omega, ?_⟩ (Or.inl (by omega))
    rw [if_neg hfit, cString_append (by decide)]

/-- A document without a path gives the empty text, in an array of the stack; and the five letters need all six bytes. -/
theorem slashEscaped_fails :
    ¬ SlashEscaped [] (List.replicate 1024 'x') ∧ ¬ SlashEscaped ['a', 'b', 'c', 'd', 'e'] (List.replicate 6 'x') := by
  refine ⟨?_, ?_⟩
  · rw [slashEscaped_empty (by rw [List.length_replicate]; omega), List.head?_replicate, if_neg (by omega)]
    decide
  · rintro ⟨buf', hbuf, -, hstring⟩
    have hshort : slashEscapeInto ['a', 'b', 'c', 'd', 'e'] (List.replicate 6 'x') 6 =
        some ['a', 'b', 'c', 'd', '\x00', 'x'] := by decide
    rw [List.length_replicate, hshort] at hbuf
    cases hbuf
    revert hstring
    decide

theorem slashEscaped_iff_path :
    ('\x00' ∉ ['/', 'a'] ∧ 6 ≤ (List.replicate 8 'x').length) ∧
    (SlashEscaped ['/', 'a'] (List.replicate 8 'x') ↔ SlashEscapeCondition ['/', 'a'] (List.replicate 8 'x')) :=
  ⟨by decide, slashEscaped_iff ['/', 'a'] (List.replicate 8 'x') (by decide) (by decide)⟩

/-! The string left in the buffer is the one of `slashEscape`. -/

theorem slashEscapeCopy_cString {toLen : Nat} {src done tail buf : List Char} (hsrc : '\x00' ∉ src)
    (hdone : '\x00' ∉ done) (hlen : (done ++ tail).length = toLen)
    (hbuf : CBuffer.cString '\x00' (done ++ tail) = some buf) :
    (slashEscapeCopy toLen src (done ++ tail) done.length).bind (CBuffer.cString '\x00') =
      some (slashEscapeLoop toLen src buf done.length) := by
  induction src generalizing done tail buf with
  | nil => simpa [slashEscapeCopy, slashEscapeLoop] using hbuf
  | cons c src ih =>
    rw [List.mem_cons, not_or] at hsrc
    by_cases hix : done.length ≥ toLen - 2
    · simpa [slashEscapeCopy, slashEscapeLoop, hix] using hbuf
    · have hmem : '\x00' ∉ done ++ escapeChar c := by
        rw [List.mem_append, not_or]
        exact ⟨hdone, nul_notMem_escapeChar (Ne.symm hsrc.1)⟩
      have hc : (escapeChar c).length ≤ 2 := by rw [length_escapeChar]; split <;> omega
      have htake : buf.take done.length = done := by
        rw [cString_append_of_notMem hdone, Option.map_eq_some_iff] at hbuf
        obtain ⟨old, -, rfl⟩ := hbuf
        exact List.take_left
      rw [slashEscapeCopy_cons hlen (by omega), ih hsrc.2 hmem (by simp at hlen ⊢; omega) (cString_append hmem),
        slashEscapeLoop, if_neg hix, htake, List.length_append]

theorem slashEscapeInto_cString {src buf old : List Char} (hsrc : '\x00' ∉ src) (h6 : 6 ≤ buf.length)
    (hbuf : CBuffer.cString '\x00' buf = some old) :
    (slashEscapeInto src buf buf.length).bind (CBuffer.cString '\x00') = some (slashEscape src old buf.length) := by
  by_cases hlong : src.length + src.count '/' + 1 > buf.length
  · rw [slashEscapeInto_long h6 (by rw [length_flatMap_escapeChar]; omega), Option.bind_some, cString_append (by decide),
      slashEscape, if_pos hlong, List.take_of_length_le (by simp; omega)]
  · rw [slashEscapeInto, slashEscape, if_neg hlong, if_neg hlong]
    have hdone : '\x00' ∉ ([] : List Char) := by simp
    exact slashEscapeCopy_cString hsrc hdone rfl hbuf

/-! ## `strToLower` -/

/-- `left` more bytes of `src` go to the buffer from `ix` on, and a terminator behind them. -/
def strToLowerLoop (src : List Char) : (left ix : Nat) → List Char → Option (List Char)
  | 0, ix, buf => write buf ix '\x00'
  | left + 1, ix, buf => do
    let c ← src[ix]?
    let buf ← write buf ix c.toLower
    strToLowerLoop src left (ix + 1) buf

def strToLower (buf src : List Char) (toSize : Int) : Option (List Char) :=
  let fromSize := toInt32 src.length
  let fromSize := if toSize < fromSize + 1 then toSize else fromSize
  strToLowerLoop (src ++ ['\x00']) fromSize.toNat 0 buf

theorem strToLowerLoop_eq {src : List Char} {left ix : Nat} {buf : List Char} (h : ix + left ≤ src.length) :
    strToLowerLoop src left ix buf = writeAll buf ix (((src.drop ix).take left).map Char.toLower ++ ['\x00']) := by
  induction left generalizing ix buf with
  | zero => simp [strToLowerLoop, writeAll_singleton]
  | succ left ih =>
    rw [strToLowerLoop, List.drop_eq_getElem_cons (by omega), List.getElem?_eq_getElem (by omega)]
    simp only [Option.bind_eq_bind, Option.bind_some, List.take_succ_cons, List.map_cons, List.cons_append, writeAll]
    congr 1
    ext1 buf
    rw [ih (by omega)]

theorem toLower_ne_nul {c : Char} (h : c ≠ '\x00') : c.toLower ≠ '\x00' := by
  unfold Char.toLower
  split
  · rename_i hc
    intro e
    have hval := congrArg (fun d => d.val.toNat) e
    have h1 : 'A'.val.toNat ≤ c.val.toNat := UInt32.le_iff_toNat_le.1 hc.1
    have h2 : c.val.toNat ≤ 'Z'.val.toNat := UInt32.le_iff_toNat_le.1 hc.2
    simp at hval h1 h2
    omega
  · exact h

theorem nul_notMem_lower {s : List Char} (h : '\x00' ∉ s) : '\x00' ∉ s.map Char.toLower := by
  rw [List.mem_map]
  rintro ⟨c, hc, e⟩
  exact toLower_ne_nul (fun e => h (e ▸ hc)) e

/-- Nothing is written outside, and the buffer holds as much of the text as fits with its terminator. -/
def Lowered (src buf : List Char) : Prop :=
  ∃ buf', strToLower buf src buf.length = some buf' ∧ buf'.length = buf.length ∧
    CBuffer.cString '\x00' buf' = some ((src.take (buf.length - 1)).map Char.toLower)

/-- The text is shorter than the buffer; or it has 2 GiB or more, and its length as an `int` is that of the text that
fits (a negative one is no byte at all). -/
def LoweredCondition (src buf : List Char) : Prop :=
  src.length < buf.length ∨ 2 ^ 31 ≤ src.length ∧ (toInt32 src.length).toNat + 1 = buf.length

/-- What the loop does with `left` bytes to copy. -/
theorem lowered_of_left (src buf : List Char) (left : Nat) (hleft : left ≤ src.length) (hfit : left < buf.length) :
    ∃ rest, ((src.take left).map Char.toLower ++ '\x00' :: rest).length = buf.length ∧
      strToLowerLoop (src ++ ['\x00']) left 0 buf = some ((src.take left).map Char.toLower ++ '\x00' :: rest) := by
  have hlen : ((src.take left).map Char.toLower ++ ['\x00']).length = left + 1 := by simp; omega
  refine ⟨buf.drop (left + 1), by simp; omega, ?_⟩
  rw [strToLowerLoop_eq (by simp; omega), List.drop_zero, List.take_append_of_le_length hleft,
    writeAll_of_le (by omega), hlen]
  simp

/-- A text cut to the size of the buffer gets its terminator behind the last byte. -/
theorem strToLower_cut {src buf : List Char} (h : (buf.length : Int) < toInt32 src.length + 1) :
    strToLower buf src buf.length = none := by
  obtain ⟨hle, -, -⟩ := toInt32_bounds src.length
  unfold strToLower
  simp only [h, if_true]
  rw [strToLowerLoop_eq (by simp; omega), writeAll_of_lt (by omega) (by simp; omega)]

/-- **`strToLower` stays in its buffer, and keeps what fits, exactly under that condition.** -/
theorem lowered_iff (src buf : List Char) (hsrc : '\x00' ∉ src) (h1 : 1 ≤ buf.length) (h31 : buf.length < 2 ^ 31) :
    Lowered src buf ↔ LoweredCondition src buf := by
  obtain ⟨hle, -, hsame⟩ := toInt32_bounds src.length
  unfold Lowered LoweredCondition
  by_cases hcut : (buf.length : Int) < toInt32 src.length + 1
  · rw [strToLower_cut hcut]
    constructor
    · rintro ⟨buf', h, -⟩
      cases h
    · omega
  · unfold strToLower
    generalize toInt32 src.length = fromSize at hle hsame hcut
    obtain ⟨rest, hlen, hloop⟩ := lowered_of_left src buf fromSize.toNat (by omega) (by omega)
    have hnul : '\x00' ∉ (src.take fromSize.toNat).map Char.toLower :=
      nul_notMem_lower fun h => hsrc (List.mem_of_mem_take h)
    simp only [hcut, if_false, hloop, Option.some.injEq, exists_eq_left', hlen, true_and, cString_append hnul]
    constructor
    · intro h
      have := congrArg List.length h
      simp at this
      omega
    · intro h
      have hmin : fromSize.toNat = min (buf.length - 1) src.length := by omega
      rw [hmin, ← List.take_take, List.take_of_length_le (Nat.le_refl src.length)]

/-- A tenant of 128 letters (rest.cpp:794 has 128 bytes): the terminator is written behind the array. -/
theorem lowered_fails : ¬ Lowered (List.replicate 128 'A') (List.replicate 128 '\x00') := by
  rintro ⟨buf', h, -⟩
  rw [strToLower_cut (by simp only [List.length_replicate]; decide)] at h
  cases h

theorem lowered_iff_tenant :
    ('\x00' ∉ ['F', 'i', 'W'] ∧ 1 ≤ (List.replicate 4 'x').length ∧ (List.replicate 4 'x').length < 2 ^ 31) ∧
    (Lowered ['F', 'i', 'W'] (List.replicate 4 'x') ↔ LoweredCondition ['F', 'i', 'W'] (List.replicate 4 'x')) :=
  ⟨by decide, lowered_iff ['F', 'i', 'W'] (List.replicate 4 'x') (by decide) (by decide) (by decide)⟩

end OrionBroker
