import OrionBroker.Lib.CBuffer
import OrionBroker.Lib.SuffixCode
import OrionBroker.Render.Tags

/-!
# The escaped text (tag.cpp:46)

| here | there |
| --- | --- |
| `htmlEscapeLoop`   | the `while` loop of `htmlEscape` (tag.cpp:60-134), with the allocated buffer and `outIx` |
| `htmlEscapeBuffer` | `htmlEscape` up to the returned pointer |

An ampersand is not escaped, but a semicolon is, so a semicolon of the output is the last character of an entity: no
character's text ends that of another, and the output is read from the back (`htmlChar_suffixCode`). The allocation of
six bytes for each character and one more is enough (`htmlEscapeBuffer_eq`).
-/

namespace OrionBroker

open CBuffer SuffixCode

/-! ## The buffer -/

def htmlEscapeLoop : List Char → List Char → Nat → Option (List Char)
  | [], out, _ => some out
  | c :: s, out, outIx => do
    let out ← writeAll out outIx (htmlChar c)
    htmlEscapeLoop s out (outIx + (htmlChar c).length)

/-- `calloc` fills the buffer with NULs. -/
def htmlEscapeBuffer (s : List Char) : Option (List Char) :=
  htmlEscapeLoop s (List.replicate (s.length * 6 + 1) '\x00') 0

theorem htmlEscapeLoop_eq (s : List Char) : ∀ (out : List Char) (outIx : Nat),
    htmlEscapeLoop s out outIx = writeAll out outIx (htmlEscape s) := by
  induction s with
  | nil => intro out outIx; rfl
  | cons c s ih =>
    intro out outIx
    rw [htmlEscapeLoop, htmlEscape, List.flatMap_cons, writeAll_append]
    simp only [Option.bind_eq_bind]
    congr 1
    ext1 out
    rw [ih, htmlEscape]

/-! ## One character -/

/-- The characters that are replaced. -/
def escapedChars : List Char := ['<', '>', '(', ')', '=', '\x27', '"', ';']

/-- Their texts. -/
def entities : List (List Char) := escapedChars.map htmlChar

theorem htmlChar_eq_self {c : Char} (h : c ∉ escapedChars) : htmlChar c = [c] := by
  simp only [escapedChars, List.mem_cons, not_or] at h
  unfold htmlChar
  split <;> simp_all

theorem length_htmlChar (c : Char) : 1 ≤ (htmlChar c).length ∧ (htmlChar c).length ≤ 6 := by
  by_cases h : c ∈ escapedChars
  · have hall : (escapedChars.all fun c => 1 ≤ (htmlChar c).length && (htmlChar c).length ≤ 6) = true := by decide
    simpa using List.all_eq_true.1 hall c h
  · rw [htmlChar_eq_self h]
    simp

theorem htmlChar_mem_entities {c : Char} (h : c ∈ escapedChars) : htmlChar c ∈ entities := List.mem_map_of_mem h

theorem length_htmlEscape (s : List Char) : (htmlEscape s).length ≤ 6 * s.length := by
  unfold htmlEscape
  induction s with
  | nil => simp
  | cons c s ih =>
    have := (length_htmlChar c).2
    simp only [List.flatMap_cons, List.length_append, List.length_cons]
    omega

/-- A character of the output is a character of an entity, or one that is not escaped. -/
theorem mem_htmlEscape {s : List Char} {c : Char} (h : c ∈ htmlEscape s) :
    (∃ e ∈ entities, c ∈ e) ∨ c ∉ escapedChars ∧ c ∈ s := by
  obtain ⟨d, hd, hc⟩ := List.mem_flatMap.1 h
  by_cases hesc : d ∈ escapedChars
  · exact Or.inl ⟨_, htmlChar_mem_entities hesc, hc⟩
  · rw [htmlChar_eq_self hesc, List.mem_singleton] at hc
    subst hc
    exact Or.inr ⟨hesc, hd⟩

/-- **Nothing left of the buffer, nothing lost**: the loop stays inside the allocation and leaves the escaped text. -/
theorem htmlEscapeBuffer_eq {s : List Char} (h : '\x00' ∉ s) :
    ∃ out, htmlEscapeBuffer s = some out ∧ CBuffer.cString '\x00' out = some (htmlEscape s) := by
  have hlen := length_htmlEscape s
  have hnul : '\x00' ∉ htmlEscape s := by
    intro hmem
    rcases mem_htmlEscape hmem with ⟨e, he, hc⟩ | ⟨-, hs⟩
    · revert e
      decide
    · exact h hs
  have hdrop : (List.replicate (s.length * 6 + 1) '\x00').drop (0 + (htmlEscape s).length) =
      '\x00' :: List.replicate (s.length * 6 - (htmlEscape s).length) '\x00' := by
    rw [List.drop_replicate, ← List.replicate_succ]
    congr 1
    omega
  refine ⟨htmlEscape s ++ '\x00' :: List.replicate (s.length * 6 - (htmlEscape s).length) '\x00', ?_,
    cString_append hnul⟩
  rw [htmlEscapeBuffer, htmlEscapeLoop_eq, writeAll_of_le (by simp; omega), hdrop]
  simp

end OrionBroker
