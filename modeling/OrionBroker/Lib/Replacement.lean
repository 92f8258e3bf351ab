import Mathlib.Data.List.Infix

/-!
# Replacing the occurrences of a list

`Replaced old new text result` reads the text from the left: an occurrence of `old` is replaced, and what is no
occurrence stays. For `old ≠ []` it is a function (`exists_replaced`, `replaced_unique`).
-/

namespace Replacement

variable {α : Type*} {old new text result result' : List α} {c : α}

inductive Replaced (old new : List α) : List α → List α → Prop
  | nil : Replaced old new [] []
  | occurrence {text result : List α} : Replaced old new text result → Replaced old new (old ++ text) (new ++ result)
  | other {c : α} {text result : List α} : ¬ old <+: c :: text → Replaced old new text result →
      Replaced old new (c :: text) (c :: result)

theorem exists_replaced (hold : old ≠ []) (new text : List α) : ∃ result, Replaced old new text result := by
  induction hn : text.length using Nat.strong_induction_on generalizing text with
  | _ n ih =>
    subst hn
    cases text with
    | nil => exact ⟨[], .nil⟩
    | cons c text =>
      by_cases h : old <+: c :: text
      · obtain ⟨rest, hrest⟩ := h
        have hpos := List.length_pos_of_ne_nil hold
        have hlen := congrArg List.length hrest
        simp only [List.length_append, List.length_cons] at hlen
        obtain ⟨result, hr⟩ := ih rest.length (by rw [List.length_cons]; omega) rest rfl
        exact ⟨new ++ result, hrest ▸ .occurrence hr⟩
      · obtain ⟨result, hr⟩ := ih text.length (by rw [List.length_cons]; omega) text rfl
        exact ⟨c :: result, .other h hr⟩

theorem replaced_unique (hold : old ≠ []) (h : Replaced old new text result) (h' : Replaced old new text result') :
    result = result' := by
  induction h generalizing result' with
  | nil =>
    generalize hnil : ([] : List α) = text' at h'
    cases h' with
    | nil => rfl
    | occurrence => exact absurd (List.append_eq_nil_iff.1 hnil.symm).1 hold
    | other => cases hnil
  | @occurrence text result h ih =>
    generalize htext : old ++ text = text' at h'
    cases h' with
    | nil => exact absurd (List.append_eq_nil_iff.1 htext).1 hold
    | occurrence h' => rw [ih (List.append_cancel_left htext ▸ h')]
    | other hno _ => exact absurd (htext ▸ List.prefix_append old text) hno
  | @other c text result hno h ih =>
    generalize htext : c :: text = text' at h'
    cases h' with
    | nil => cases htext
    | occurrence _ => exact absurd (htext ▸ List.prefix_append _ _) hno
    | other _ h' =>
      obtain ⟨rfl, rfl⟩ := List.cons.inj htext
      rw [ih h']

/-- A text without an occurrence stays as it is. -/
theorem eq_of_no_occurrence (h : Replaced old new text result) (hno : ¬ old <:+: text) : result = text := by
  induction h with
  | nil => rfl
  | occurrence _ _ => exact absurd (List.prefix_append _ _).isInfix hno
  | other _ _ ih => rw [ih fun h => hno (h.trans (List.suffix_cons _ _).isInfix)]

/-- The new list is in the result of a text with an occurrence. -/
theorem length_le_of_occurrence (hold : old ≠ []) (h : Replaced old new text result) (hin : old <:+: text) :
    new.length ≤ result.length := by
  induction h with
  | nil => exact absurd (List.infix_nil.1 hin) hold
  | occurrence _ _ => simp
  | other hno _ ih =>
    have := ih ((List.infix_cons_iff.1 hin).resolve_left hno)
    rw [List.length_cons]
    omega

/-! ## Occurrences at the front -/

/-- The text begins with `k` occurrences, one after another, and has no other one. -/
def OnlyLeading (old : List α) (k : Nat) (text : List α) : Prop :=
  ∃ rest, text = (List.replicate k old).flatten ++ rest ∧ ¬ old <:+: rest

theorem onlyLeading_zero : OnlyLeading old 0 text ↔ ¬ old <:+: text := by
  simp [OnlyLeading]

theorem onlyLeading_succ {k : Nat} : OnlyLeading old (k + 1) (old ++ text) ↔ OnlyLeading old k text := by
  simp [OnlyLeading, List.replicate_succ]

theorem prefix_of_onlyLeading_succ {k : Nat} (h : OnlyLeading old (k + 1) text) : old <+: text := by
  obtain ⟨rest, rfl, -⟩ := h
  rw [List.replicate_succ, List.flatten_cons, List.append_assoc]
  exact List.prefix_append _ _

end Replacement
