import OrionBroker.Common.Strings
import OrionBroker.Lib.CBuffer

/-!
# `stringSplit` in its copy of the text (string.cpp:163)

| here | there |
| --- | --- |
| `cutLoop`            | pass 3, the delimiters overwritten and counted (string.cpp:185-195) |
| `pickUp`             | pass 4, the components collected with `strlen` (string.cpp:198-203) |
| `stringSplitInPlace` | `stringSplit` (string.cpp:163), with the vector it appends to |

`none` is a walk past the terminator of the copy. The two passes stay in step (`stringSplitInPlace_eq`): there are as
many strings in the cut copy as delimiters were counted, and one more.
-/

namespace OrionBroker

open CBuffer

def cutLoop (delimiter : Char) : List Char → Nat → List Char × Nat
  | [], components => ([], components)
  | c :: cells, components =>
    if c = '\x00' then (c :: cells, components)
    else if c = delimiter then
      let (cut, components) := cutLoop delimiter cells (components + 1)
      ('\x00' :: cut, components)
    else
      let (cut, components) := cutLoop delimiter cells components
      (c :: cut, components)

def pickUp : Nat → List Char → List (List Char) → Option (List (List Char))
  | 0, _, outV => some outV
  | components + 1, start, outV => do
    let component ← CBuffer.cString '\x00' start
    pickUp components (start.drop (component.length + 1)) (outV ++ [component])

/-- The number that is returned, and the vector. -/
def stringSplitInPlace (s : List Char) (delimiter : Char) (outV : List (List Char)) : Option (Nat × List (List Char)) :=
  let start := (s ++ ['\x00']).dropWhile (· == delimiter)
  if start.head? = some '\x00' then some (0, outV)
  else
    let (cut, components) := cutLoop delimiter start 1
    (pickUp components cut outV).map (components, ·)

section Passes

variable {delimiter : Char} {s : List Char}

/-- The text with its delimiters overwritten. -/
def cutText (delimiter : Char) (s : List Char) : List Char := s.map fun c => if c = delimiter then '\x00' else c

theorem cutLoop_eq (hs : '\x00' ∉ s) (components : Nat) :
    cutLoop delimiter (s ++ ['\x00']) components = (cutText delimiter s ++ ['\x00'], components + s.count delimiter) := by
  induction s generalizing components with
  | nil => simp [cutLoop, cutText]
  | cons c s ih =>
    rw [List.mem_cons, not_or] at hs
    rw [List.cons_append, cutLoop, if_neg (Ne.symm hs.1)]
    by_cases hc : c = delimiter
    · simp only [ih hs.2, cutText, List.map_cons, List.cons_append, List.count_cons, hc, beq_self_eq_true, if_true]
      rw [Nat.add_assoc, Nat.add_comm 1]
    · simp [ih hs.2, cutText, hc]

theorem cutText_of_notMem (h : delimiter ∉ s) : cutText delimiter s = s := by
  have hmap : ∀ c ∈ s, (if c = delimiter then '\x00' else c) = c := by
    intro c hc
    rw [if_neg]
    rintro rfl
    exact h hc
  rw [cutText, List.map_congr_left hmap, List.map_id']

theorem cutText_append_cons (first more : List Char) :
    cutText delimiter (first ++ delimiter :: more) = cutText delimiter first ++ '\x00' :: cutText delimiter more := by
  simp [cutText]

/-- The strings of the cut copy, as many as were counted, are the pieces of the text. -/
theorem pickUp_cutText (hs : '\x00' ∉ s) (outV : List (List Char)) :
    pickUp (s.count delimiter + 1) (cutText delimiter s ++ ['\x00']) outV = some (outV ++ s.splitOn delimiter) := by
  induction hn : s.count delimiter generalizing s outV with
  | zero =>
    have hmem : delimiter ∉ s := List.count_eq_zero.1 hn
    rw [cutText_of_notMem hmem, List.splitOn_eq_singleton hmem]
    simp [pickUp, cString_append hs]
  | succ n ih =>
    have hmem : delimiter ∈ s := List.count_pos_iff.1 (by omega)
    obtain ⟨more, hd⟩ := Pieces.exists_dropWhile hmem
    have hsplit := Pieces.eq_of_dropWhile_cons hd
    have hfirst : delimiter ∉ s.takeWhile (· != delimiter) := Pieces.notMem_takeWhile
    rw [Pieces.splitOn_of_dropWhile_cons hd]
    generalize s.takeWhile (· != delimiter) = first at hsplit hfirst
    subst hsplit
    rw [List.mem_append, List.mem_cons, not_or, not_or] at hs
    have hcut : cutText delimiter (first ++ delimiter :: more) ++ ['\x00'] =
        first ++ '\x00' :: (cutText delimiter more ++ ['\x00']) := by
      rw [cutText_append_cons, cutText_of_notMem hfirst, List.append_assoc, List.cons_append]
    have hdrop : (first ++ '\x00' :: (cutText delimiter more ++ ['\x00'])).drop (first.length + 1) =
        cutText delimiter more ++ ['\x00'] := by
      rw [List.drop_append]
      simp
    have hcount : more.count delimiter = n := by
      rw [List.count_append, List.count_eq_zero.2 hfirst, List.count_cons_self] at hn
      omega
    rw [pickUp, hcut, cString_append hs.1]
    simp only [Option.bind_eq_bind, Option.bind_some, hdrop]
    rw [ih hs.2.2 (outV ++ [first]) hcount, List.append_assoc, List.singleton_append]

end Passes

/-- **The passes give the pieces of the text.** -/
theorem stringSplitInPlace_eq {s : List Char} {delimiter : Char} (hs : '\x00' ∉ s) (hd : delimiter ≠ '\x00')
    (outV : List (List Char)) :
    stringSplitInPlace s delimiter outV = some ((stringSplit s delimiter).length, outV ++ stringSplit s delimiter) := by
  have hstart : (s ++ ['\x00']).dropWhile (· == delimiter) = s.dropWhile (· == delimiter) ++ ['\x00'] := by
    rw [List.dropWhile_append]
    split
    · rename_i h
      rw [List.isEmpty_iff.1 h, List.dropWhile_cons_of_neg (by simpa using hd.symm), List.nil_append]
    · rfl
  unfold stringSplitInPlace
  rw [hstart]
  by_cases hnil : s.dropWhile (· == delimiter) = []
  · simp [hnil, stringSplit]
  · have hs' : '\x00' ∉ s.dropWhile (· == delimiter) := fun h => hs ((List.dropWhile_suffix _).subset h)
    have hhead : (s.dropWhile (· == delimiter) ++ ['\x00']).head? ≠ some '\x00' := by
      rw [List.head?_append_of_ne_nil _ hnil]
      exact fun h => hs' (List.mem_of_mem_head? h)
    rw [if_neg hhead, cutLoop_eq hs', stringSplit_of_ne hnil, Nat.add_comm 1]
    simp only [pickUp_cutText hs', Option.map_some, Pieces.length_splitOn]

theorem notMem_stringSplit {s : List Char} {delimiter : Char} : ∀ c ∈ stringSplit s delimiter, delimiter ∉ c := by
  intro c hc
  by_cases hnil : s.dropWhile (· == delimiter) = []
  · rw [stringSplit, hnil] at hc
    cases hc
  · rw [stringSplit_of_ne hnil] at hc
    exact Pieces.notMem_of_mem_splitOn hc

theorem intercalate_stringSplit (s : List Char) (delimiter : Char) :
    [delimiter].intercalate (stringSplit s delimiter) = s.dropWhile (· == delimiter) := by
  by_cases hnil : s.dropWhile (· == delimiter) = []
  · rw [stringSplit, hnil]
    rfl
  · rw [stringSplit_of_ne hnil, List.intercalate_splitOn]

theorem stringSplit_eq_nil {s : List Char} {delimiter : Char} :
    stringSplit s delimiter = [] ↔ s.dropWhile (· == delimiter) = [] := by
  constructor
  · intro h
    by_contra hnil
    rw [stringSplit_of_ne hnil] at h
    exact List.splitOn_ne_nil _ _ h
  · intro hnil
    rw [stringSplit, hnil]

/-- **`stringSplit` loses nothing but leading delimiters.** -/
theorem stringSplit_lossless (s : List Char) (delimiter : Char) (outV : List (List Char)) (hs : '\x00' ∉ s)
    (hd : delimiter ≠ '\x00') :
    ∃ components added, stringSplitInPlace s delimiter outV = some (components, outV ++ added) ∧
      components = added.length ∧ (∀ c ∈ added, delimiter ∉ c) ∧
      [delimiter].intercalate added = s.dropWhile (· == delimiter) ∧
      (components = 0 ↔ s.dropWhile (· == delimiter) = []) := by
  refine ⟨_, _, stringSplitInPlace_eq hs hd outV, rfl, notMem_stringSplit, intercalate_stringSplit s delimiter, ?_⟩
  rw [List.length_eq_zero_iff, stringSplit_eq_nil]

theorem stringSplit_lossless_path :
    ('\x00' ∉ ['/', '/', 'a', '/', '/'] ∧ '/' ≠ '\x00') ∧
    ∃ components added, stringSplitInPlace ['/', '/', 'a', '/', '/'] '/' [['v']] = some (components, [['v']] ++ added) ∧
      components = added.length ∧ (∀ c ∈ added, '/' ∉ c) ∧
      ['/'].intercalate added = ['/', '/', 'a', '/', '/'].dropWhile (· == '/') ∧
      (components = 0 ↔ ['/', '/', 'a', '/', '/'].dropWhile (· == '/') = []) :=
  ⟨by decide, stringSplit_lossless ['/', '/', 'a', '/', '/'] '/' [['v']] (by decide) (by decide)⟩

example : stringSplitInPlace ['/', '/', 'a', '/', '/'] '/' [] = some (3, [['a'], [], []]) := by decide

end OrionBroker
