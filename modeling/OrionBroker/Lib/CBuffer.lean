import OrionBroker.Lib.Pieces

/-!
# Buffers with a terminator

A buffer is the list of its cells. A store at an index that is no cell's gives `none`, and so does reading the string
of a buffer without a terminator. A run of stores cuts the buffer in three: what stood before, the run, and what
stood behind it (`writeAll_of_le`).
-/

namespace CBuffer

variable {α : Type*}

/-! ## Stores -/

def write (buf : List α) (ix : Nat) (c : α) : Option (List α) := if ix < buf.length then some (buf.set ix c) else none

/-- One store after another, from `ix` on. -/
def writeAll : List α → Nat → List α → Option (List α)
  | buf, _, [] => some buf
  | buf, ix, c :: cs => (write buf ix c).bind (writeAll · (ix + 1) cs)

variable {buf s cs ds rest : List α} {ix : Nat} {c : α}

theorem write_of_lt (h : ix < buf.length) : write buf ix c = some (buf.take ix ++ c :: buf.drop (ix + 1)) := by
  rw [write, if_pos h, List.set_eq_take_append_cons_drop, if_pos h]

theorem write_of_ge (h : buf.length ≤ ix) : write buf ix c = none := by
  rw [write, if_neg (by omega)]

theorem writeAll_singleton : writeAll buf ix [c] = write buf ix c := by
  simp [writeAll]

theorem writeAll_append : writeAll buf ix (cs ++ ds) = (writeAll buf ix cs).bind (writeAll · (ix + cs.length) ds) := by
  induction cs generalizing buf ix with
  | nil => simp [writeAll]
  | cons c cs ih =>
    simp only [List.cons_append, writeAll]
    cases write buf ix c with
    | none => rfl
    | some buf =>
      simp only [Option.bind_some, ih, List.length_cons]
      rw [Nat.add_assoc, Nat.add_comm 1]

theorem writeAll_of_le (h : ix + cs.length ≤ buf.length) :
    writeAll buf ix cs = some (buf.take ix ++ cs ++ buf.drop (ix + cs.length)) := by
  induction cs generalizing buf ix with
  | nil => simp [writeAll]
  | cons c cs ih =>
    rw [List.length_cons] at h
    have hlen : (buf.take ix ++ [c]).length = ix + 1 := by simp; omega
    have hbuf : buf.take ix ++ c :: buf.drop (ix + 1) = (buf.take ix ++ [c]) ++ buf.drop (ix + 1) := by simp
    rw [writeAll, write_of_lt (by omega), Option.bind_some, hbuf, ih (by simp; omega), ← hlen, List.take_left,
      List.drop_append, List.drop_drop]
    simp only [hlen, List.length_cons]
    rw [List.drop_eq_nil_of_le (by rw [hlen]; omega)]
    simp only [List.append_assoc, List.nil_append, List.cons_append]
    congr 5
    omega

/-- A run that starts inside the buffer and ends outside fails. -/
theorem writeAll_of_lt (hix : ix ≤ buf.length) (h : buf.length < ix + cs.length) : writeAll buf ix cs = none := by
  induction cs generalizing buf ix with
  | nil => simp at h; omega
  | cons c cs ih =>
    rw [List.length_cons] at h
    by_cases hc : ix < buf.length
    · rw [writeAll, write, if_pos hc, Option.bind_some]
      apply ih
      · rw [List.length_set]
        omega
      · simp; omega
    · rw [writeAll, write_of_ge (by omega)]
      rfl

/-- A store behind the cell `c` leaves that cell and what stands in front of it. -/
theorem set_append_cons {d : α} (h : s.length < ix) :
    (s ++ c :: rest).set ix d = s ++ c :: rest.set (ix - (s.length + 1)) d := by
  obtain ⟨i, rfl⟩ := Nat.exists_eq_add_of_lt h
  have h1 : s.length + i + 1 - s.length = i + 1 := by omega
  have h2 : s.length + i + 1 - (s.length + 1) = i := by omega
  rw [List.set_append_right _ _ (by omega), h1, h2, List.set_cons_succ]

/-! ## The string of a buffer -/

section CString

variable [BEq α] [LawfulBEq α] {nul : α}

/-- The cells before the first terminator. -/
def cString (nul : α) (buf : List α) : Option (List α) :=
  if buf.contains nul then some (buf.takeWhile (· != nul)) else none

/-- What holds no terminator stands in front of the string of the rest. -/
theorem cString_append_of_notMem (h : nul ∉ s) : cString nul (s ++ rest) = (cString nul rest).map (s ++ ·) := by
  have hs := Pieces.bne_of_notMem h
  unfold cString
  by_cases hr : rest.contains nul = true
  · rw [if_pos hr, if_pos (by simp at hr ⊢; exact Or.inr hr), List.takeWhile_append_of_pos hs, Option.map_some]
  · rw [if_neg hr, if_neg (by simp at hr ⊢; exact ⟨h, hr⟩), Option.map_none]

theorem cString_cons_self : cString nul (nul :: rest) = some [] := by
  simp [cString]

theorem cString_append (h : nul ∉ s) : cString nul (s ++ nul :: rest) = some s := by
  rw [cString_append_of_notMem h, cString_cons_self, Option.map_some, List.append_nil]

theorem cString_eq_some_iff : cString nul buf = some s ↔ nul ∉ s ∧ ∃ rest, buf = s ++ nul :: rest := by
  constructor
  · intro h
    unfold cString at h
    split_ifs at h with hc
    cases h
    obtain ⟨ds, hd⟩ := Pieces.exists_dropWhile (List.contains_iff_mem.1 hc)
    exact ⟨Pieces.notMem_takeWhile, ds, Pieces.eq_of_dropWhile_cons hd⟩
  · rintro ⟨h, rest, rfl⟩
    exact cString_append h

/-- The string of a buffer that begins with `s` and a terminator is `s`; any other answer was not written there. -/
theorem cString_unique (h : cString nul (s ++ nul :: rest) = some cs) (hs : nul ∉ s) : cs = s := by
  rw [cString_append hs] at h
  exact (Option.some.inj h).symm

end CString

end CBuffer
