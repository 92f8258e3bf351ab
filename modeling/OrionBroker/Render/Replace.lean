import OrionBroker.Lib.CBuffer
import OrionBroker.Lib.Replacement
import OrionBroker.Render.Answers

/-!
# `strReplace` in its buffer (string.cpp:654)

| here | there |
| --- | --- |
| `snprintfInto`   | `snprintf(to, toLen, "%s", newString)` |
| `replaceLoop`    | the `while` loop of `strReplace` (string.cpp:661-675) |
| `strReplaceInto` | the same; `strReplace` is its string for the buffer of `StatusCode::render` |

`none` is a write outside the buffer, or a loop that does not end, which an empty old text makes. The new text is
written to the start of the buffer and not to `toIx`: with an occurrence behind the start, the buffer holds the new
text alone (`replaceLoop_moved`).
-/

namespace OrionBroker.Answer

open CBuffer Replacement

def snprintfInto (buf : List Char) (toLen : Nat) (newString : List Char) : Option (List Char) :=
  if toLen = 0 then some buf else writeAll buf 0 (newString.take (toLen - 1) ++ ['\x00'])

def replaceLoop (toLen : Nat) (oldString newString : List Char) : (fuel : Nat) → List Char → List Char → Nat →
    Option (List Char × Nat)
  | 0, _, _, _ => none
  | _ + 1, [], buf, toIx => some (buf, toIx)
  | fuel + 1, c :: src, buf, toIx =>
    if oldString <+: c :: src then do
      let buf ← snprintfInto buf toLen newString
      replaceLoop toLen oldString newString fuel ((c :: src).drop oldString.length) buf (toIx + newString.length)
    else do
      let buf ← write buf toIx c
      replaceLoop toLen oldString newString fuel src buf (toIx + 1)

def strReplaceInto (buf : List Char) (toLen : Nat) (src oldString newString : List Char) : Option (List Char) := do
  let (buf, toIx) ← replaceLoop toLen oldString newString (src.length + 1) src buf 0
  write buf toIx '\x00'

section Loop

variable {toLen fuel : Nat} {old new src result buf : List Char} {c : Char}

theorem snprintfInto_eq (hnew : new.length + 1 ≤ toLen) (hbuf : toLen ≤ buf.length) :
    snprintfInto buf toLen new = some (new ++ '\x00' :: buf.drop (new.length + 1)) := by
  rw [snprintfInto, if_neg (by omega), List.take_of_length_le (by omega), writeAll_of_le (by simp; omega)]
  simp

theorem replaceLoop_occurrence (hold : old ≠ []) (hnew : new.length + 1 ≤ toLen) (hbuf : toLen ≤ buf.length)
    (toIx : Nat) :
    replaceLoop toLen old new (fuel + 1) (old ++ src) buf toIx =
      replaceLoop toLen old new fuel src (new ++ '\x00' :: buf.drop (new.length + 1)) (toIx + new.length) := by
  obtain ⟨o, old, rfl⟩ := List.exists_cons_of_ne_nil hold
  have hdrop : (o :: (old ++ src)).drop (o :: old).length = src := by simp
  rw [List.cons_append, replaceLoop, if_pos (by rw [← List.cons_append]; exact List.prefix_append _ _), hdrop,
    snprintfInto_eq hnew hbuf]
  rfl

theorem replaceLoop_other (hno : ¬ old <+: c :: src) {toIx : Nat} (hix : toIx < buf.length) :
    replaceLoop toLen old new (fuel + 1) (c :: src) buf toIx =
      replaceLoop toLen old new fuel src (buf.set toIx c) (toIx + 1) := by
  rw [replaceLoop, if_neg hno, write, if_pos hix]
  rfl

/-- A text without an occurrence is copied. -/
theorem replaceLoop_copy (hno : ¬ old <:+: src) {done tail : List Char} (hfuel : src.length < fuel)
    (htail : src.length ≤ tail.length) :
    replaceLoop toLen old new fuel src (done ++ tail) done.length =
      some (done ++ src ++ tail.drop src.length, (done ++ src).length) := by
  induction src generalizing fuel done tail with
  | nil =>
    obtain ⟨fuel, rfl⟩ := Nat.exists_eq_add_of_lt hfuel
    simp [replaceLoop]
  | cons c src ih =>
    rw [List.infix_cons_iff, not_or] at hno
    rw [List.length_cons] at hfuel htail
    obtain ⟨fuel, rfl⟩ := Nat.exists_eq_succ_of_ne_zero (n := fuel) (by omega)
    obtain ⟨d, tail, rfl⟩ := List.exists_cons_of_ne_nil (l := tail) (by rintro rfl; simp at htail)
    have hset : (done ++ d :: tail).set done.length c = done ++ [c] ++ tail := by simp
    have hlen : done.length + 1 = (done ++ [c]).length := by simp
    rw [replaceLoop_other hno.1 (by simp), hset, hlen, ih hno.2 (by omega) (by simpa using htail)]
    simp

/-- Once the index is behind the new text and its terminator, they stay at the start of the buffer. -/
theorem replaceLoop_moved (hold : old ≠ []) (hnew : new.length + 1 ≤ toLen) (h : Replaced old new src result)
    {toIx : Nat} {tail : List Char} (hfuel : src.length < fuel) (hbuf : toLen ≤ (new ++ '\x00' :: tail).length)
    (hix : new.length < toIx) (hroom : toIx + result.length < (new ++ '\x00' :: tail).length) :
    ∃ tail', tail'.length = tail.length ∧
      replaceLoop toLen old new fuel src (new ++ '\x00' :: tail) toIx =
        some (new ++ '\x00' :: tail', toIx + result.length) := by
  have hpos := List.length_pos_of_ne_nil hold
  induction h generalizing fuel toIx tail with
  | nil =>
    obtain ⟨fuel, rfl⟩ := Nat.exists_eq_add_of_lt hfuel
    exact ⟨tail, rfl, by simp [replaceLoop]⟩
  | @occurrence src result _ ih =>
    rw [List.length_append] at hfuel hroom
    obtain ⟨fuel, rfl⟩ := Nat.exists_eq_succ_of_ne_zero (n := fuel) (by omega)
    have hdrop : (new ++ '\x00' :: tail).drop (new.length + 1) = tail := by
      rw [List.drop_append]
      simp
    have hfuel' : src.length < fuel := by omega
    have hix' : new.length < toIx + new.length := by omega
    obtain ⟨tail', hlen, hrun⟩ := ih hfuel' hbuf hix' (by omega)
    refine ⟨tail', hlen, ?_⟩
    rw [replaceLoop_occurrence hold hnew hbuf, hdrop, hrun, List.length_append, Nat.add_assoc]
  | @other c src result hno _ ih =>
    rw [List.length_cons] at hfuel hroom
    obtain ⟨fuel, rfl⟩ := Nat.exists_eq_succ_of_ne_zero (n := fuel) (by omega)
    have hfuel' : src.length < fuel := by omega
    have hbuf' : toLen ≤ (new ++ '\x00' :: tail.set (toIx - (new.length + 1)) c).length := by simpa using hbuf
    have hix' : new.length < toIx + 1 := by omega
    obtain ⟨tail', hlen, hrun⟩ := ih hfuel' hbuf' hix' (by simp at hroom ⊢; omega)
    refine ⟨tail', by rw [hlen, List.length_set], ?_⟩
    rw [replaceLoop_other hno (by omega), set_append_cons hix, hrun, List.length_cons, Nat.add_assoc, Nat.add_comm 1]

/-- An occurrence behind the start leaves the new text at the start, and only that. -/
theorem replaceLoop_lost (hold : old ≠ []) (hnew : new.length + 1 ≤ toLen) (h : Replaced old new src result)
    (hin : old <:+: src) {toIx : Nat} {buf : List Char} (hfuel : src.length < fuel) (hbuf : toLen ≤ buf.length)
    (hix : 0 < toIx) (hroom : toIx + result.length < buf.length) :
    ∃ tail, (new ++ '\x00' :: tail).length = buf.length ∧
      replaceLoop toLen old new fuel src buf toIx = some (new ++ '\x00' :: tail, toIx + result.length) := by
  have hpos := List.length_pos_of_ne_nil hold
  induction h generalizing fuel toIx buf with
  | nil => exact absurd (List.infix_nil.1 hin) hold
  | @occurrence src result h _ =>
    rw [List.length_append] at hfuel hroom
    obtain ⟨fuel, rfl⟩ := Nat.exists_eq_succ_of_ne_zero (n := fuel) (by omega)
    have hlen : (new ++ '\x00' :: buf.drop (new.length + 1)).length = buf.length := by
      simp
      omega
    have hfuel' : src.length < fuel := by omega
    have hix' : new.length < toIx + new.length := by omega
    obtain ⟨tail, htail, hrun⟩ := replaceLoop_moved hold hnew h hfuel' (hbuf.trans hlen.ge) hix' (by omega)
    refine ⟨tail, ?_, ?_⟩
    · rw [← hlen, List.length_append, List.length_append, List.length_cons, List.length_cons, htail]
    · rw [replaceLoop_occurrence hold hnew hbuf, hrun, List.length_append, Nat.add_assoc]
  | @other c src result hno _ ih =>
    rw [List.length_cons] at hfuel hroom
    obtain ⟨fuel, rfl⟩ := Nat.exists_eq_succ_of_ne_zero (n := fuel) (by omega)
    have hfuel' : src.length < fuel := by omega
    have hbuf' : toLen ≤ (buf.set toIx c).length := by simpa using hbuf
    have hix' : 0 < toIx + 1 := by omega
    obtain ⟨tail, htail, hrun⟩ := ih ((List.infix_cons_iff.1 hin).resolve_left hno) hfuel' hbuf' hix'
      (by rw [List.length_set]; omega)
    refine ⟨tail, by rw [htail, List.length_set], ?_⟩
    rw [replaceLoop_other hno (by omega), hrun, List.length_cons, Nat.add_assoc, Nat.add_comm 1]

end Loop

/-! ## What is left in the buffer -/

/-- With the last terminator, the loop leaves the string `s`. -/
def Leaves (loop : Option (List Char × Nat)) (s : List Char) : Prop :=
  ∃ buf', (loop.bind fun p => write p.1 p.2 '\x00') = some buf' ∧ CBuffer.cString '\x00' buf' = some s

theorem Leaves.unique {loop : Option (List Char × Nat)} {s t : List Char} (hs : Leaves loop s) (ht : Leaves loop t) :
    s = t := by
  obtain ⟨buf, hbuf, hs⟩ := hs
  obtain ⟨buf', hbuf', ht⟩ := ht
  rw [hbuf] at hbuf'
  cases hbuf'
  rw [hs] at ht
  exact Option.some.inj ht

theorem leaves_copied {s tail : List Char} (hs : '\x00' ∉ s) (htail : tail ≠ []) :
    Leaves (some (s ++ tail, s.length)) s := by
  obtain ⟨d, tail, rfl⟩ := List.exists_cons_of_ne_nil htail
  refine ⟨s ++ '\x00' :: tail, ?_, cString_append hs⟩
  rw [Option.bind_some, write_of_lt (by simp), List.take_left, List.drop_append]
  simp

theorem leaves_moved {s tail : List Char} {toIx : Nat} (hs : '\x00' ∉ s) (hix : s.length < toIx)
    (hroom : toIx < (s ++ '\x00' :: tail).length) : Leaves (some (s ++ '\x00' :: tail, toIx)) s := by
  refine ⟨_, by rw [Option.bind_some, write, if_pos hroom], ?_⟩
  rw [set_append_cons hix]
  exact cString_append hs

/-- The occurrences stand at the start of the text: one at most, or any number of them when the new text is empty. -/
def OnlyAtStart (old new src : List Char) : Prop := ∃ k, OnlyLeading old k src ∧ (k ≤ 1 ∨ new = [])

theorem onlyAtStart_empty {old src : List Char} : OnlyAtStart old [] (old ++ src) ↔ OnlyAtStart old [] src := by
  constructor
  · rintro ⟨k, hk, -⟩
    cases k with
    | zero => exact absurd (List.prefix_append old src).isInfix (onlyLeading_zero.1 hk)
    | succ k => exact ⟨k, onlyLeading_succ.1 hk, Or.inr rfl⟩
  · rintro ⟨k, hk, -⟩
    exact ⟨k + 1, onlyLeading_succ.2 hk, Or.inr rfl⟩

section Outcomes

variable {toLen fuel : Nat} {old new src result : List Char}

theorem leaves_of_no_occurrence (hno : ¬ old <:+: src) (hsrc : '\x00' ∉ src) {done tail : List Char}
    (hdone : '\x00' ∉ done) (hfuel : src.length < fuel) (hroom : src.length < tail.length) :
    Leaves (replaceLoop toLen old new fuel src (done ++ tail) done.length) (done ++ src) := by
  rw [replaceLoop_copy hno hfuel (by omega)]
  apply leaves_copied
  · rw [List.mem_append, not_or]
    exact ⟨hdone, hsrc⟩
  · rw [← List.length_pos_iff_ne_nil, List.length_drop]
    omega

/-- The new text is left alone, although the result is longer. -/
theorem leaves_of_occurrence (hold : old ≠ []) (hnew : '\x00' ∉ new) (h : Replaced old new src result)
    (hin : old <:+: src) {toIx : Nat} {buf : List Char} (hfuel : src.length < fuel) (hfit : new.length + 1 ≤ toLen)
    (hbuf : toLen ≤ buf.length) (hix : 0 < toIx) (hroom : toIx + result.length < buf.length) :
    Leaves (replaceLoop toLen old new fuel src buf toIx) new ∧ new.length < toIx + result.length := by
  have hlen := length_le_of_occurrence hold h hin
  obtain ⟨tail, htail, hrun⟩ := replaceLoop_lost hold hfit h hin hfuel hbuf hix hroom
  refine ⟨?_, by omega⟩
  rw [hrun]
  exact leaves_moved hnew (by omega) (by omega)

theorem not_onlyAtStart (hin : old <:+: src) (hnew : new ≠ []) : ¬ OnlyAtStart old new (old ++ src) := by
  rintro ⟨k, hk, hone⟩
  have hk1 := hone.resolve_right hnew
  cases k with
  | zero => exact onlyLeading_zero.1 hk (List.prefix_append old src).isInfix
  | succ k =>
    obtain rfl : k = 0 := by omega
    exact onlyLeading_zero.1 (onlyLeading_succ.1 hk) hin

/-- The loop from the start of the buffer. -/
theorem leaves_replaceLoop_iff {buf : List Char} (hold : old ≠ []) (hnew : '\x00' ∉ new)
    (h : Replaced old new src result) (hsrc : '\x00' ∉ src) (hfuel : src.length < fuel)
    (hfit : result.length + 1 ≤ toLen) (hbuf : toLen ≤ buf.length) :
    Leaves (replaceLoop toLen old new fuel src buf 0) result ↔ OnlyAtStart old new src := by
  have hpos := List.length_pos_of_ne_nil hold
  induction h generalizing fuel buf with
  | nil =>
    have hno : ¬ old <:+: [] := mt List.infix_nil.1 hold
    refine iff_of_true ?_ ⟨0, onlyLeading_zero.2 hno, Or.inl (by omega)⟩
    exact leaves_of_no_occurrence hno hsrc hsrc hfuel (by rw [List.length_nil]; omega)
  | @occurrence src result h ih =>
    rw [List.length_append] at hfuel hfit
    rw [List.mem_append, not_or] at hsrc
    obtain ⟨fuel, rfl⟩ := Nat.exists_eq_succ_of_ne_zero (n := fuel) (by omega)
    rw [replaceLoop_occurrence hold (by omega) hbuf, Nat.zero_add]
    have hlen : (new ++ '\x00' :: buf.drop (new.length + 1)).length = buf.length := by
      simp
      omega
    generalize '\x00' :: buf.drop (new.length + 1) = tail at hlen ⊢
    by_cases hnil : new = []
    · subst hnil
      rw [onlyAtStart_empty, List.nil_append, List.nil_append]
      rw [List.nil_append] at hlen
      exact ih hsrc.2 (by omega) (by rw [List.length_nil] at hfit; omega) (by omega)
    · have hnewpos := List.length_pos_of_ne_nil hnil
      by_cases hin : old <:+: src
      · refine iff_of_false (fun hleaves => ?_) (not_onlyAtStart hin hnil)
        have hfuel' : src.length < fuel := by omega
        obtain ⟨hlost, hlonger⟩ := leaves_of_occurrence hold hnew h hin hfuel' (by omega) (hbuf.trans hlen.ge) hnewpos
          (by omega)
        have := congrArg List.length (hlost.unique hleaves)
        rw [List.length_append] at this
        omega
      · rw [eq_of_no_occurrence h hin] at hfit ⊢
        refine iff_of_true ?_ ⟨1, onlyLeading_succ.2 (onlyLeading_zero.2 hin), Or.inl (by omega)⟩
        rw [List.length_append] at hlen
        exact leaves_of_no_occurrence hin hsrc.2 hnew (by omega) (by omega)
  | @other c src result hno h _ =>
    rw [List.length_cons] at hfuel hfit
    rw [List.mem_cons, not_or] at hsrc
    obtain ⟨fuel, rfl⟩ := Nat.exists_eq_succ_of_ne_zero (n := fuel) (by omega)
    obtain ⟨d, tail, rfl⟩ := List.exists_cons_of_ne_nil (l := buf) (by rintro rfl; simp at hbuf; omega)
    rw [List.length_cons] at hbuf
    rw [replaceLoop_other hno (by simp), List.set_cons_zero, Nat.zero_add]
    by_cases hin : old <:+: src
    · refine iff_of_false (fun hleaves => ?_) ?_
      · have hnewlen := length_le_of_occurrence hold h hin
        have hfuel' : src.length < fuel := by omega
        have hfit' : new.length + 1 ≤ toLen := by omega
        have hbuf' : toLen ≤ (c :: tail).length := hbuf
        obtain ⟨hlost, hlonger⟩ := leaves_of_occurrence hold hnew h hin hfuel' hfit' hbuf' Nat.one_pos
          (by rw [List.length_cons]; omega)
        have := congrArg List.length (hlost.unique hleaves)
        rw [List.length_cons] at this
        omega
      · rintro ⟨k, hk, -⟩
        cases k with
        | zero => exact onlyLeading_zero.1 hk (hin.trans (List.suffix_cons c src).isInfix)
        | succ k => exact hno (prefix_of_onlyLeading_succ hk)
    · rw [eq_of_no_occurrence h hin] at hfit ⊢
      have hno' : ¬ old <:+: c :: src := by
        rw [List.infix_cons_iff, not_or]
        exact ⟨hno, hin⟩
      refine iff_of_true ?_ ⟨0, onlyLeading_zero.2 hno', Or.inl (by omega)⟩
      have hc : '\x00' ∉ [c] := by simpa using hsrc.1
      exact leaves_of_no_occurrence hin hsrc.2 hc (by omega) (by omega)

end Outcomes

/-- **`strReplace` replaces every occurrence exactly when none stands behind the start of the output.** -/
theorem strReplaceInto_iff (buf : List Char) (toLen : Nat) (src old new result : List Char) (hold : old ≠ [])
    (hsrc : '\x00' ∉ src) (hnew : '\x00' ∉ new) (h : Replaced old new src result) (hfit : result.length + 1 ≤ toLen)
    (hbuf : toLen ≤ buf.length) :
    (∃ buf', strReplaceInto buf toLen src old new = some buf' ∧ CBuffer.cString '\x00' buf' = some result) ↔
      OnlyAtStart old new src := by
  rw [← leaves_replaceLoop_iff hold hnew h hsrc (Nat.lt_add_one src.length) hfit hbuf]
  rfl

/-- The details `a"b` of a status code: the buffer of its render function ends up with the escaped quotation mark. -/
theorem strReplaceInto_loses :
    Replaced ['"'] ['\\', '"'] ['a', '"', 'b'] ['a', '\\', '"', 'b'] ∧
    ¬ ∃ buf', strReplaceInto (List.replicate 7 '\x00') 6 ['a', '"', 'b'] ['"'] ['\\', '"'] = some buf' ∧
      CBuffer.cString '\x00' buf' = some ['a', '\\', '"', 'b'] := by
  refine ⟨.other (by decide) (.occurrence (.other (by decide) .nil)), ?_⟩
  rintro ⟨buf', hbuf, hstring⟩
  have hrun : strReplaceInto (List.replicate 7 '\x00') 6 ['a', '"', 'b'] ['"'] ['\\', '"'] =
      some ['\\', '"', '\x00', 'b', '\x00', '\x00', '\x00'] := by decide
  rw [hrun] at hbuf
  cases hbuf
  revert hstring
  decide

theorem strReplaceInto_iff_quote :
    ('\x00' ∉ ['"', 'b'] ∧ Replaced ['"'] ['\\', '"'] ['"', 'b'] ['\\', '"', 'b']) ∧
    ((∃ buf', strReplaceInto (List.replicate 5 'x') 4 ['"', 'b'] ['"'] ['\\', '"'] = some buf' ∧
      CBuffer.cString '\x00' buf' = some ['\\', '"', 'b']) ↔ OnlyAtStart ['"'] ['\\', '"'] ['"', 'b']) :=
  ⟨⟨by decide, .occurrence (.other (by decide) .nil)⟩,
    strReplaceInto_iff (List.replicate 5 'x') 4 ['"', 'b'] ['"'] ['\\', '"'] ['\\', '"', 'b'] (by decide) (by decide)
      (by decide) (.occurrence (.other (by decide) .nil)) (by decide) (by decide)⟩

/-! ## The string of `StatusCode::render` -/

theorem snprintfInto_eq_snprintf {toLen : Nat} {new buf buf' : List Char} (htoLen : 0 < toLen)
    (h : snprintfInto buf toLen new = some buf') : snprintf buf toLen new = buf' := by
  rw [snprintfInto, if_neg (by omega)] at h
  by_cases hroom : 0 + (new.take (toLen - 1) ++ ['\x00']).length ≤ buf.length
  · rw [writeAll_of_le hroom] at h
    simpa [snprintf] using h
  · rw [writeAll_of_lt (by omega) (by omega)] at h
    cases h

/-- Inside the buffer the two loops do the same. -/
theorem replaceLoop_eq_strReplaceLoop {toLen fuel toIx : Nat} {old : Char} {new src buf : List Char}
    {p : List Char × Nat} (htoLen : 0 < toLen) (h : replaceLoop toLen [old] new fuel src buf toIx = some p) :
    strReplaceLoop toLen old new src buf toIx = p := by
  induction fuel generalizing src buf toIx with
  | zero => cases h
  | succ fuel ih =>
    cases src with
    | nil =>
      cases h
      rfl
    | cons c src =>
      rw [replaceLoop] at h
      by_cases hc : c = old
      · rw [if_pos (by simp [hc])] at h
        obtain ⟨buf', hbuf, h⟩ := Option.bind_eq_some_iff.1 h
        rw [strReplaceLoop, if_pos hc, snprintfInto_eq_snprintf htoLen hbuf]
        exact ih h
      · rw [if_neg (by simpa using Ne.symm hc)] at h
        obtain ⟨buf', hbuf, h⟩ := Option.bind_eq_some_iff.1 h
        rw [write] at hbuf
        split_ifs at hbuf
        cases hbuf
        rw [strReplaceLoop, if_neg hc]
        exact ih h

theorem strReplaceInto_eq {toLen : Nat} {old : Char} {new src buf' : List Char} (htoLen : 0 < toLen)
    (h : strReplaceInto (List.replicate (toLen + 1) '\x00') toLen src [old] new = some buf') :
    strReplace toLen src old new = buf'.takeWhile (· != '\x00') := by
  obtain ⟨⟨buf, toIx⟩, hloop, hwrite⟩ := Option.bind_eq_some_iff.1 h
  dsimp only at hwrite
  rw [write] at hwrite
  split_ifs at hwrite
  cases hwrite
  rw [strReplace, replaceLoop_eq_strReplaceLoop htoLen hloop]

end OrionBroker.Answer
