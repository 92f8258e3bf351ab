import Mathlib.Data.Finset.Card
import Mathlib.Data.Finset.Image
import Mathlib.Logic.Relation

/-!
# Requests that are handed on

A node answers a request, or asks one other node and makes its own answer out of the other's. `run` counts the
turns. A request is answered unless its chain of nodes comes back to one of them (`answered_iff`), and then in no more
turns than there are nodes that hand on, and one (`answered_within`).
-/

namespace Relay

variable {Node Result : Type} (turn : Node → Result ⊕ Node × (Result → Result))

/-- The answer, when it takes no more than so many turns. -/
def run : Nat → Node → Option Result
  | 0, _ => none
  | n + 1, x =>
    match turn x with
    | .inl r => some r
    | .inr (y, back) => (run n y).map back

def HandsOn (x y : Node) : Prop := ∃ back, turn x = .inr (y, back)

/-- The answer, however long it takes. -/
inductive Answers : Node → Result → Prop
  | here {x : Node} {r : Result} (h : turn x = .inl r) : Answers x r
  | through {x y : Node} {back : Result → Result} {r : Result} (h : turn x = .inr (y, back)) (hy : Answers y r) :
      Answers x (back r)

variable {turn} {x y z : Node} {r r' : Result} {n m : Nat}

theorem run_here (h : turn x = .inl r) (n : Nat) : run turn (n + 1) x = some r := by
  rw [run, h]

theorem run_through {back : Result → Result} (h : turn x = .inr (y, back)) (n : Nat) :
    run turn (n + 1) x = (run turn n y).map back := by
  rw [run, h]

theorem HandsOn.eq (hy : HandsOn turn x y) (hz : HandsOn turn x z) : y = z := by
  obtain ⟨back, hy⟩ := hy
  obtain ⟨back', hz⟩ := hz
  rw [hy] at hz
  cases hz
  rfl

theorem Answers.of_run : ∀ {n : Nat} {x : Node} {r : Result}, run turn n x = some r → Answers turn x r
  | 0, _, _, h => by cases h
  | n + 1, x, r, h => by
    cases ht : turn x with
    | inl r' =>
      rw [run_here ht] at h
      cases h
      exact .here ht
    | inr step =>
      obtain ⟨y, back⟩ := step
      rw [run_through ht, Option.map_eq_some_iff] at h
      obtain ⟨r', hr', rfl⟩ := h
      exact .through ht (Answers.of_run hr')

theorem run_mono (h : run turn n x = some r) (hle : n ≤ m) : run turn m x = some r := by
  induction n generalizing m x r with
  | zero => cases h
  | succ n ih =>
    obtain ⟨m, rfl⟩ : ∃ k, m = k + 1 := ⟨m - 1, by omega⟩
    cases ht : turn x with
    | inl r' =>
      rw [run_here ht] at h ⊢
      exact h
    | inr step =>
      obtain ⟨y, back⟩ := step
      rw [run_through ht, Option.map_eq_some_iff] at h ⊢
      obtain ⟨r', hr', hr⟩ := h
      exact ⟨r', ih hr' (by omega), hr⟩

/-- A node that is answered for stands on no cycle. -/
theorem Answers.no_cycle (h : Answers turn x r) : ¬ Relation.TransGen (HandsOn turn) x x := by
  induction h with
  | here h =>
    intro hcycle
    obtain ⟨y, ⟨back, hy⟩, -⟩ := Relation.TransGen.head'_iff.1 hcycle
    rw [h] at hy
    cases hy
  | through h _ ih =>
    intro hcycle
    obtain ⟨z, hz, hrest⟩ := Relation.TransGen.head'_iff.1 hcycle
    obtain rfl := HandsOn.eq ⟨_, h⟩ hz
    exact ih (.tail' hrest ⟨_, h⟩)

/-- So are the nodes that it is handed on to. -/
theorem Answers.of_reachable (hxy : Relation.ReflTransGen (HandsOn turn) x y) (h : Answers turn x r) :
    ∃ r', Answers turn y r' := by
  induction hxy with
  | refl => exact ⟨r, h⟩
  | tail _ hyz ih =>
    obtain ⟨r', hr'⟩ := ih
    cases hr' with
    | here hy =>
      obtain ⟨back, hz⟩ := hyz
      rw [hy] at hz
      cases hz
    | through hy hz =>
      obtain rfl := HandsOn.eq ⟨_, hy⟩ hyz
      exact ⟨_, hz⟩

/-- The chain from the node comes back to a node. -/
def Returns (turn : Node → Result ⊕ Node × (Result → Result)) (x : Node) : Prop :=
  ∃ y, Relation.ReflTransGen (HandsOn turn) x y ∧ Relation.TransGen (HandsOn turn) y y

theorem Answers.not_returns (h : Answers turn x r) : ¬ Returns turn x := by
  rintro ⟨y, hxy, hcycle⟩
  obtain ⟨r', hr'⟩ := h.of_reachable hxy
  exact hr'.no_cycle hcycle

/-- Each turn leaves a node behind, so the induction is on the nodes that may still hand on. -/
theorem answered_within {s : Finset Node}
    (hs : ∀ y z, Relation.ReflTransGen (HandsOn turn) x y → HandsOn turn y z → y ∈ s) (hno : ¬ Returns turn x) :
    ∃ r, run turn (s.card + 1) x = some r := by
  classical
  induction hk : s.card generalizing s x with
  | zero =>
    cases ht : turn x with
    | inl r => exact ⟨r, run_here ht 0⟩
    | inr step =>
      have hx : x ∈ s := hs x step.1 .refl ⟨step.2, ht⟩
      rw [Finset.card_eq_zero.1 hk] at hx
      exact absurd hx (Finset.notMem_empty x)
  | succ k ih =>
    cases ht : turn x with
    | inl r => exact ⟨r, run_here ht (k + 1)⟩
    | inr step =>
      obtain ⟨y, back⟩ := step
      have hxy : HandsOn turn x y := ⟨back, ht⟩
      have hx : x ∈ s := hs x y .refl hxy
      -- the chain goes on without x
      have hrest : ∀ z z', Relation.ReflTransGen (HandsOn turn) y z → HandsOn turn z z' → z ∈ s.erase x := by
        intro z z' hz hz'
        refine Finset.mem_erase.2 ⟨?_, hs z z' (.head hxy hz) hz'⟩
        rintro rfl
        exact hno ⟨z, .refl, .head' hxy hz⟩
      have hback : ¬ Returns turn y := fun ⟨z, hz, hcycle⟩ => hno ⟨z, .head hxy hz, hcycle⟩
      obtain ⟨r, hr⟩ := ih hrest hback (by rw [Finset.card_erase_of_mem hx, hk]; rfl)
      exact ⟨back r, by rw [run_through ht, hr]; rfl⟩

theorem answered_iff {s : Finset Node}
    (hs : ∀ y z, Relation.ReflTransGen (HandsOn turn) x y → HandsOn turn y z → y ∈ s) :
    (∃ n r, run turn n x = some r) ↔ ¬ Returns turn x := by
  constructor
  · rintro ⟨n, r, h⟩
    exact (Answers.of_run h).not_returns
  · intro hno
    obtain ⟨r, hr⟩ := answered_within hs hno
    exact ⟨_, r, hr⟩

end Relay
