import Mathlib.Data.List.DropRight

/-!
# A list cut at a delimiter

`splitOn` against `takeWhile` and `dropWhile`: the first piece is what stands before the first delimiter, and the rest
is cut in the same way. `rtakeWhile` and `rdropWhile` find the last one.
-/

namespace Pieces

variable {α : Type*}

section First

variable [BEq α] [LawfulBEq α] {a c : α} {s rest : List α}

theorem splitOn_of_dropWhile_nil (h : s.dropWhile (· != a) = []) : s.splitOn a = [s.takeWhile (· != a)] := by
  have hall := List.dropWhile_eq_nil_iff.1 h
  rw [List.takeWhile_eq_self_iff.2 hall, List.splitOn_eq_singleton]
  intro hmem
  simpa using hall a hmem

theorem head_of_dropWhile_cons (h : s.dropWhile (· != a) = c :: rest) : c = a := by
  have hhead := List.head?_dropWhile_not (· != a) s
  rw [h] at hhead
  simpa using hhead

theorem eq_of_dropWhile_cons (h : s.dropWhile (· != a) = c :: rest) : s = s.takeWhile (· != a) ++ a :: rest := by
  conv_lhs => rw [← List.takeWhile_append_dropWhile (p := (· != a)) (l := s), h, head_of_dropWhile_cons h]

theorem exists_dropWhile (h : a ∈ s) : ∃ rest, s.dropWhile (· != a) = a :: rest := by
  cases hd : s.dropWhile (· != a) with
  | nil => simpa using List.dropWhile_eq_nil_iff.1 hd a h
  | cons c rest => exact ⟨rest, by rw [head_of_dropWhile_cons hd]⟩

theorem notMem_takeWhile : a ∉ s.takeWhile (· != a) := by
  intro hmem
  simpa using List.mem_takeWhile_imp hmem

theorem bne_of_notMem (h : a ∉ s) : ∀ c ∈ s, (c != a) = true := by
  intro c hc
  rw [bne_iff_ne]
  rintro rfl
  exact h hc

theorem takeWhile_append_cons (h : a ∉ s) : (s ++ a :: rest).takeWhile (· != a) = s := by
  rw [List.takeWhile_append_of_pos (bne_of_notMem h)]
  simp

theorem dropWhile_append_cons (h : a ∉ s) : (s ++ a :: rest).dropWhile (· != a) = a :: rest := by
  rw [List.dropWhile_append_of_pos (bne_of_notMem h)]
  simp

theorem splitOn_of_dropWhile_cons (h : s.dropWhile (· != a) = c :: rest) :
    s.splitOn a = s.takeWhile (· != a) :: rest.splitOn a := by
  conv_lhs => rw [eq_of_dropWhile_cons h]
  exact List.splitOn_append_cons_self_of_not_mem notMem_takeWhile _

omit [LawfulBEq α] in
theorem length_splitOn (a : α) (s : List α) : (s.splitOn a).length = s.count a + 1 := by
  induction s with
  | nil => simp [List.splitOn_nil]
  | cons c s ih =>
    rw [List.splitOn_cons_eq_if_modifyHead, List.count_cons]
    split_ifs with h <;> simp [ih]

theorem flatMap_splitOn (a : α) (s : List α) : (s.splitOn a).flatMap (a :: ·) = a :: s := by
  induction s with
  | nil => simp [List.splitOn_nil]
  | cons c s ih =>
    rw [List.splitOn_cons_eq_if_modifyHead]
    split_ifs with h
    · rw [List.flatMap_cons, ih, beq_iff_eq.1 h]
      rfl
    · obtain ⟨p, ps, hp⟩ := List.exists_cons_of_ne_nil (List.splitOn_ne_nil a s)
      rw [hp, List.flatMap_cons] at ih
      rw [hp, List.modifyHead_cons, List.flatMap_cons]
      simpa using ih

theorem notMem_of_mem_splitOn {piece : List α} (h : piece ∈ s.splitOn a) : a ∉ piece := by
  induction s generalizing piece with
  | nil =>
    rw [List.splitOn_nil, List.mem_singleton] at h
    simp [h]
  | cons c s ih =>
    rw [List.splitOn_cons_eq_if_modifyHead] at h
    split_ifs at h with hc
    · rw [List.mem_cons] at h
      rcases h with rfl | h
      · simp
      · exact ih h
    · obtain ⟨p, ps, hp⟩ := List.exists_cons_of_ne_nil (List.splitOn_ne_nil a s)
      rw [hp, List.modifyHead_cons, List.mem_cons] at h
      rcases h with rfl | h
      · rw [List.mem_cons, not_or]
        exact ⟨fun e => hc (by simp [e]), ih (by rw [hp]; exact List.mem_cons_self)⟩
      · exact ih (by rw [hp]; exact List.mem_cons_of_mem p h)

end First

section Last

variable {p : α → Bool} (c : α) {s : List α}

theorem rdropWhile_cons_of_all (h : s.all p = true) : (c :: s).rdropWhile p = [c].rdropWhile p := by
  unfold List.rdropWhile
  rw [List.reverse_cons, List.dropWhile_append, if_pos (by simpa using h)]
  rfl

theorem rdropWhile_cons_of_not_all (h : ¬ s.all p = true) : (c :: s).rdropWhile p = c :: s.rdropWhile p := by
  unfold List.rdropWhile
  rw [List.reverse_cons, List.dropWhile_append, if_neg (by simpa using h)]
  simp

theorem rtakeWhile_cons_of_all (h : s.all p = true) : (c :: s).rtakeWhile p = [c].rtakeWhile p ++ s := by
  have hall : s.reverse.takeWhile p = s.reverse := List.takeWhile_eq_self_iff.2 (by simpa using h)
  unfold List.rtakeWhile
  rw [List.reverse_cons, List.takeWhile_append, if_pos (by rw [hall])]
  simp

theorem rtakeWhile_cons_of_not_all (h : ¬ s.all p = true) : (c :: s).rtakeWhile p = s.rtakeWhile p := by
  have hlt : (s.reverse.takeWhile p).length ≠ s.reverse.length := by
    intro he
    have hall := List.IsPrefix.eq_of_length (List.takeWhile_prefix p) he
    rw [List.takeWhile_eq_self_iff] at hall
    exact h (by simpa using hall)
  unfold List.rtakeWhile
  rw [List.reverse_cons, List.takeWhile_append, if_neg hlt]

theorem rtakeWhile_append_cons (hc : ¬ p c = true) (h : s.all p = true) (pre : List α) :
    (pre ++ c :: s).rtakeWhile p = s := by
  induction pre with
  | nil =>
    rw [List.nil_append, rtakeWhile_cons_of_all c h]
    simp [List.rtakeWhile, hc]
  | cons d pre ih => rw [List.cons_append, rtakeWhile_cons_of_not_all d (by simp [hc]), ih]

end Last

end Pieces
