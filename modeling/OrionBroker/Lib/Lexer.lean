import Mathlib.Data.List.Basic

/-!
# Lexers as machines

A lexer reads one character at a time. It may refuse the character; else it gives out the tokens that the character
ends and goes to its next mode. What it makes of a text it makes of the pieces of the text in turn (`run_append`).
-/

namespace Lexer

variable {M T : Type}

def run (step : M → Char → Option (List T × M)) : M → List Char → Option (List T × M)
  | m, [] => some ([], m)
  | m, c :: cs => (step m c).bind fun p => (run step p.2 cs).map fun q => (p.1 ++ q.1, q.2)

variable {step : M → Char → Option (List T × M)}

@[simp] theorem run_nil (m : M) : run step m [] = some ([], m) := rfl

theorem run_cons (m : M) (c : Char) (cs : List Char) :
    run step m (c :: cs) = (step m c).bind fun p => (run step p.2 cs).map fun q => (p.1 ++ q.1, q.2) := rfl

theorem run_cons_some {m m' : M} {c : Char} {ts : List T} (h : step m c = some (ts, m')) (cs : List Char) :
    run step m (c :: cs) = (run step m' cs).map fun q => (ts ++ q.1, q.2) := by
  rw [run_cons, h]
  rfl

theorem run_append (m : M) (a b : List Char) :
    run step m (a ++ b) = (run step m a).bind fun p => (run step p.2 b).map fun q => (p.1 ++ q.1, q.2) := by
  induction a generalizing m with
  | nil => simp
  | cons c a ih =>
    simp only [List.cons_append, run_cons]
    cases step m c with
    | none => rfl
    | some p =>
      simp only [Option.bind_some, ih, Option.map_bind, Option.bind_map]
      congr 1
      funext q
      simp [Function.comp_def]

theorem run_append_some {m m' : M} {a : List Char} {ts : List T} (ha : run step m a = some (ts, m'))
    (b : List Char) : run step m (a ++ b) = (run step m' b).map fun q => (ts ++ q.1, q.2) := by
  rw [run_append, ha]
  rfl

/-- A mode that takes in the characters of `a` one by one. -/
theorem run_collect {ok : Char → Prop} (mode : List Char → M)
    (hstep : ∀ read c, ok c → step (mode read) c = some ([], mode (read ++ [c]))) {a : List Char}
    (h : ∀ c ∈ a, ok c) (read : List Char) : run step (mode read) a = some ([], mode (read ++ a)) := by
  induction a generalizing read with
  | nil => simp
  | cons c a ih =>
    have ih := ih (fun d hd => h d (List.mem_cons_of_mem _ hd)) (read ++ [c])
    rw [run_cons_some (hstep read c (h c List.mem_cons_self)), ih]
    simp

/-- What every character keeps, a text keeps, and so do the tokens that are given out. -/
theorem run_invariant {I : M → Prop} {P : T → Prop}
    (hstep : ∀ m c p, I m → step m c = some p → I p.2 ∧ ∀ t ∈ p.1, P t) {m : M} (hm : I m) {a : List Char}
    {p : List T × M} (h : run step m a = some p) : ∀ t ∈ p.1, P t := by
  induction a generalizing m p with
  | nil =>
    cases h
    simp
  | cons c a ih =>
    obtain ⟨q, hq, h⟩ := Option.bind_eq_some_iff.1 h
    obtain ⟨r, hr, rfl⟩ := Option.map_eq_some_iff.1 h
    obtain ⟨hok, hts⟩ := hstep m c q hm hq
    intro t ht
    rcases List.mem_append.1 ht with ht | ht
    · exact hts t ht
    · exact ih hok hr t ht

end Lexer
