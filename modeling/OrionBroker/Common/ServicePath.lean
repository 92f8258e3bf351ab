import OrionBroker.Lib.Regex
import OrionBroker.Common.CString

/-!
# Service paths

A canonical path is `/`, or one to ten parts `/component`; a component has 1 to 50 letters, digits or
underscores, and the last one may be `#` instead (rest.cpp:428, string.cpp:690). The paths are kept with
their list of components, `/` being the path without any.

| here | there |
| --- | --- |
| `ServicePath`   | a path as `servicePathCheck` (rest.cpp:428) describes it |
| `CanonicalPath` | the text of one |

The update code turns a path into a regular expression in three ways, all through its escaped text;
`escape_reads` says that this text stands for the path itself.
-/

namespace OrionBroker

def pathChar (c : Char) : Bool := c.isAlphanum || c == '_'

def pathComponent (c : List Char) : Bool := c != [] && decide (c.length ≤ 50) && c.all pathChar

/-- Every component is one, the last may be `#`. -/
def componentsOk : List (List Char) → Bool
  | [] => true
  | [c] => c == ['#'] || pathComponent c
  | c :: cs => pathComponent c && componentsOk cs

/-- `/` and a component, for each component. -/
def joinPath (cs : List (List Char)) : List Char := cs.flatMap fun c => '/' :: c

structure ServicePath where
  components : List (List Char)
  levels : components.length ≤ 10
  ok : componentsOk components = true

def ServicePath.chars (p : ServicePath) : List Char :=
  if p.components = [] then ['/'] else joinPath p.components

def CanonicalPath (s : String) : Prop := ∃ p : ServicePath, s.toList = p.chars

/-! ## The characters of a path -/

/-- What a component gives away: it is not empty, not long, and plain. -/
structure ComponentFacts (c : List Char) : Prop where
  ne : c ≠ []
  size : c.length ≤ 50
  chars : ∀ x ∈ c, pathChar x = true ∨ x = '#'

/-- What splitting and escaping need of a component. -/
structure PlainComponent (c : List Char) : Prop where
  ne : c ≠ []
  chars : ∀ x ∈ c, pathChar x = true ∨ x = '#'

theorem ComponentFacts.plain {c : List Char} (h : ComponentFacts c) : PlainComponent c := ⟨h.ne, h.chars⟩

theorem pathComponent_facts {c : List Char} (h : pathComponent c = true) : ComponentFacts c := by
  simp only [pathComponent, Bool.and_eq_true, bne_iff_ne, decide_eq_true_eq, List.all_eq_true] at h
  exact ⟨h.1.1, h.1.2, fun x hx => .inl (h.2 x hx)⟩

theorem componentsOk_facts : ∀ {cs : List (List Char)}, componentsOk cs = true → ∀ c ∈ cs, ComponentFacts c
  | [], _, _, hc => by cases hc
  | [d], h, c, hc => by
    rw [List.mem_singleton.1 hc]
    simp only [componentsOk, Bool.or_eq_true, beq_iff_eq] at h
    rcases h with rfl | h
    · exact ⟨by simp, by simp, by simp⟩
    · exact pathComponent_facts h
  | d :: e :: cs, h, c, hc => by
    simp only [componentsOk, Bool.and_eq_true] at h
    rcases List.mem_cons.1 hc with rfl | hc
    · exact pathComponent_facts h.1
    · exact @componentsOk_facts (e :: cs) h.2 c hc

theorem pathChar_plain {c : Char} (h : pathChar c = true) : Regex.plain c = true := by
  unfold Regex.plain Regex.token
  split <;> first | exact beq_self_eq_true _ | exact absurd h (by decide)

theorem slash_not_mem {c : List Char} (h : PlainComponent c) : '/' ∉ c := by
  intro hm
  rcases h.chars _ hm with hp | hp
  · exact absurd hp (by decide)
  · exact absurd hp (by decide)

namespace ServicePath

variable (p : ServicePath)

theorem facts : ∀ c ∈ p.components, ComponentFacts c := componentsOk_facts p.ok

theorem mem_chars {x : Char} (h : x ∈ p.chars) : x = '/' ∨ x = '#' ∨ pathChar x = true := by
  unfold chars at h
  split at h
  · exact .inl (List.mem_singleton.1 h)
  · obtain ⟨c, hc, hx⟩ := List.mem_flatMap.1 h
    rcases List.mem_cons.1 hx with rfl | hx
    · exact .inl rfl
    · exact .inr ((p.facts c hc).chars x hx).symm

theorem chars_ne_nil : p.chars ≠ [] := by
  unfold chars
  split
  · simp
  · rename_i h
    obtain ⟨c, cs, e⟩ := List.exists_cons_of_ne_nil h
    simp [e, joinPath]

end ServicePath

theorem joinPath_size : ∀ {cs : List (List Char)}, (∀ c ∈ cs, ComponentFacts c) →
    (joinPath cs).length + (joinPath cs).count '/' ≤ 52 * cs.length
  | [], _ => by simp [joinPath]
  | c :: cs, h => by
    have hc := h c (by simp)
    have ih := @joinPath_size cs fun d hd => h d (by simp [hd])
    have h0 : c.count '/' = 0 := List.count_eq_zero.2 (slash_not_mem hc.plain)
    have := hc.size
    simp only [joinPath, List.flatMap_cons, List.length_append, List.count_append, List.length_cons,
      List.count_cons_self, h0] at ih ⊢
    omega

/-- A path fits in the buffer of `slashEscape`, with room to spare. -/
theorem ServicePath.size (p : ServicePath) : p.chars.length + p.chars.count '/' ≤ 520 := by
  unfold ServicePath.chars
  split
  · simp
  · have := joinPath_size p.facts
    have := p.levels
    omega

/-! ## Splitting and escaping -/

theorem joinPath_eq_intercalate (c : List Char) : ∀ cs : List (List Char),
    joinPath (c :: cs) = '/' :: ['/'].intercalate (c :: cs)
  | [] => by simp [joinPath, List.intercalate]
  | d :: cs => by
    have ih := joinPath_eq_intercalate d cs
    have e : joinPath (c :: d :: cs) = ('/' :: c) ++ joinPath (d :: cs) := by simp [joinPath]
    rw [e, ih]
    simp [List.intercalate]

theorem head_intercalate {c : List Char} {cs : List (List Char)} (h : PlainComponent c) :
    ∃ x t, ['/'].intercalate (c :: cs) = x :: t ∧ x ≠ '/' := by
  obtain ⟨x, t, rfl⟩ := List.exists_cons_of_ne_nil h.ne
  have hx : x ≠ '/' := fun e => slash_not_mem h (by simp [e])
  cases cs with
  | nil => exact ⟨x, t, by simp [List.intercalate], hx⟩
  | cons d cs => exact ⟨x, t ++ '/' :: ['/'].intercalate (d :: cs), by simp [List.intercalate], hx⟩

/-- The components come back. -/
theorem stringSplit_joinPath {cs : List (List Char)} (h : ∀ c ∈ cs, PlainComponent c) :
    stringSplit (joinPath cs) '/' = cs := by
  cases cs with
  | nil => rfl
  | cons c cs =>
    obtain ⟨x, t, hi, hx⟩ := @head_intercalate c cs (h c (by simp))
    have hd : ('/' :: x :: t).dropWhile (· == '/') = x :: t := by simp [hx]
    rw [joinPath_eq_intercalate, hi, stringSplit, hd]
    simp only
    rw [← hi, List.splitOn_intercalate '/' (fun l hl => slash_not_mem (h l hl)) (by simp)]

theorem stringSplit_chars (p : ServicePath) : stringSplit p.chars '/' = p.components := by
  unfold ServicePath.chars
  split
  · rename_i h; rw [h]; rfl
  · exact stringSplit_joinPath fun c hc => (p.facts c hc).plain

/-- Two paths with the same text have the same components. -/
theorem ServicePath.chars_inj {p q : ServicePath} (h : p.chars = q.chars) : p.components = q.components := by
  rw [← stringSplit_chars p, ← stringSplit_chars q, h]

/-- A path whose text is joined from components has these components. -/
theorem ServicePath.chars_eq_joinPath_iff (q : ServicePath) {cs : List (List Char)} (hne : cs ≠ [])
    (h : ∀ c ∈ cs, ComponentFacts c) : q.chars = joinPath cs ↔ q.components = cs := by
  constructor
  · intro e; rw [← stringSplit_chars q, e, stringSplit_joinPath fun c hc => (h c hc).plain]
  · intro e; rw [ServicePath.chars, if_neg (by rw [e]; exact hne), e]

/-- `q` is `…/#` and covers `p`: what stands before the `#` is the beginning of `p`. -/
def ServicePath.Covers (q p : ServicePath) : Prop :=
  ∃ pre, q.components = pre ++ [['#']] ∧ pre <+: p.components

theorem cStr_of_chars {s : String} {p : ServicePath} (h : s.toList = p.chars) : cStr s = p.chars := by
  rw [cStr, h, List.takeWhile_eq_self_iff]
  intro x hx
  rcases p.mem_chars hx with rfl | rfl | hx
  · decide
  · decide
  · simp only [bne_iff_ne]
    rintro rfl
    exact absurd hx (by decide)

theorem CanonicalPath.noNul {s : String} (h : CanonicalPath s) : NoNul s := by
  obtain ⟨p, hp⟩ := h
  rw [← cStr_eq_iff, cStr_of_chars hp, hp]

/-- The escaped text of characters of a path stands for these characters. -/
theorem escape_reads {l : List Char} (h : ∀ x ∈ l, x = '/' ∨ x = '#' ∨ pathChar x = true) :
    Regex.Reads (l.flatMap escapeChar) l := by
  refine Regex.reads_flatMap escapeChar l fun c hc => ?_
  unfold escapeChar
  split
  · rename_i e; rw [e]; exact Regex.reads_escaped (by decide)
  · rename_i hne
    rcases h c hc with e | rfl | hp
    · exact absurd e hne
    · exact Regex.reads_plain (by decide)
    · exact Regex.reads_plain (pathChar_plain hp)

example : CanonicalPath "/Madrid/Gardens/#" :=
  ⟨⟨["Madrid".toList, "Gardens".toList, ['#']], by decide, by decide⟩, by decide⟩

end OrionBroker
