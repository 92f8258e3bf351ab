import Mathlib.Data.List.Nodup

/-!
# A list of records as a map

`lookup key l` is the map from keys to records that a list stands for: the first record with a key. Changing records
in place, dropping the records of some keys and joining two lists are operations on maps.
-/

namespace KeyMap

variable {α β κ : Type} [DecidableEq κ] {key : α → κ} {key' : β → κ} {l : List α} {a : α} {k : κ}

def lookup (key : α → κ) (l : List α) (k : κ) : Option α := l.find? fun a => decide (key a = k)

@[simp] theorem lookup_nil : lookup key [] k = none := rfl

theorem lookup_cons (a : α) (l : List α) : lookup key (a :: l) k = if key a = k then some a else lookup key l k := by
  by_cases h : key a = k <;> simp [lookup, h]

theorem mem_of_lookup (h : lookup key l k = some a) : a ∈ l ∧ key a = k :=
  ⟨List.mem_of_find?_eq_some h, by simpa using List.find?_some h⟩

theorem lookup_eq_none_iff : lookup key l k = none ↔ k ∉ l.map key := by
  simp [lookup, List.find?_eq_none]

theorem lookup_isSome_iff : (lookup key l k).isSome = true ↔ k ∈ l.map key := by
  have h := not_congr (@lookup_eq_none_iff α κ _ key l k)
  rwa [not_not, ← Ne, Option.ne_none_iff_isSome] at h

theorem lookup_of_mem (hn : (l.map key).Nodup) (ha : a ∈ l) : lookup key l (key a) = some a := by
  have hsome : (lookup key l (key a)).isSome = true := lookup_isSome_iff.2 (List.mem_map_of_mem ha)
  obtain ⟨b, hb⟩ := Option.isSome_iff_exists.1 hsome
  obtain ⟨hmem, hk⟩ := mem_of_lookup hb
  rw [hb, List.inj_on_of_nodup_map hn hmem ha hk]

/-- Records that keep their keys keep their places. -/
theorem lookup_map {f : α → β} (hf : ∀ a ∈ l, key' (f a) = key a) :
    lookup key' (l.map f) k = (lookup key l k).map f := by
  induction l with
  | nil => rfl
  | cons a l ih =>
    rw [List.forall_mem_cons] at hf
    rw [List.map_cons, lookup_cons, lookup_cons, hf.1, ih hf.2]
    by_cases h : key a = k <;> simp [h]

theorem lookup_append (l l' : List α) : lookup key (l ++ l') k = (lookup key l k).or (lookup key l' k) := by
  unfold lookup
  rw [List.find?_append]

theorem lookup_filter (p : κ → Bool) (l : List α) :
    lookup key (l.filter fun a => p (key a)) k = if p k = true then lookup key l k else none := by
  induction l with
  | nil => simp
  | cons a l ih =>
    rw [List.filter_cons]
    by_cases ha : key a = k
    · subst ha
      by_cases hp : p (key a) = true
      · rw [if_pos hp, if_pos hp, lookup_cons, lookup_cons, if_pos rfl, if_pos rfl]
      · rw [if_neg hp, ih, if_neg hp, if_neg hp]
    · by_cases hp : p (key a) = true
      · rw [if_pos hp, lookup_cons, lookup_cons, if_neg ha, if_neg ha, ih]
      · rw [if_neg hp, lookup_cons, if_neg ha, ih]

end KeyMap
