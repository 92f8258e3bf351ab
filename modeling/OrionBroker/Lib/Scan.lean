import Mathlib.Data.List.Basic

/-!
# A loop over a cursor whose collection the loop changes

The cursor gives every element that is there when it is opened, in any order, and may also give elements that are
added on the way. `pending` are those it has still to give; the loop is over when there are none, and can be left at
any time.

`Scan.induct` is the rule for invariants: `I pending s` holds at the end if every iteration keeps it.
-/

variable {α σ : Type}

/-- From `pending` and one state to `rest` and another. `elements` is what the collection holds in a state. -/
inductive Scan (elements : σ → List α) (body : α → σ → σ) (start : List α) : List α → σ → List α → σ → Prop where
  | leave (pending : List α) (s : σ) : Scan elements body start pending s pending s
  | next (pre post : List α) {rest : List α} {x : α} {s s' : σ} (h : Scan elements body start (pre ++ post) (body x s) rest s') :
      Scan elements body start (pre ++ x :: post) s rest s'
  | added {pending rest : List α} {x : α} {s s' : σ} (hx : x ∈ elements s) (hnew : x ∉ start)
      (h : Scan elements body start pending (body x s) rest s') : Scan elements body start pending s rest s'

namespace Scan

variable {elements : σ → List α} {body : α → σ → σ} {start pending rest : List α} {s s' : σ}

theorem induct {I : List α → σ → Prop}
    (hnext : ∀ pre x post s, I (pre ++ x :: post) s → I (pre ++ post) (body x s))
    (hadded : ∀ pending x s, I pending s → x ∈ elements s → x ∉ start → I pending (body x s))
    (h : Scan elements body start pending s rest s') (hI : I pending s) : I rest s' := by
  induction h with
  | leave pending s => exact hI
  | next pre post h ih => exact ih (hnext pre _ post _ hI)
  | added hx hnew h ih => exact ih (hadded _ _ _ hI hx hnew)

/-- A loop that takes the elements in order and meets no new one. -/
theorem of_foldl (elements : σ → List α) (body : α → σ → σ) (start : List α) : ∀ (pending : List α) (s : σ),
    Scan elements body start pending s [] (pending.foldl (fun s x => body x s) s)
  | [], s => .leave [] s
  | x :: pending, s => .next [] pending (of_foldl elements body start pending (body x s))

end Scan
