import Mathlib.Data.List.Basic

/-!
# Steps that may refuse, and the order they are run in

`run step l s` applies the steps of `l` one after the other and stops at the first refusal. Two results
agree when both are refusals, or both are states related by `R`. Steps that respect `R` and commute up to
`R` may be run in any order (`run_perm`). For computations that fail with an error there is `Tracks`.
-/

namespace Replay

variable {α σ : Type}

def run (step : α → σ → Option σ) : List α → σ → Option σ
  | [], s => some s
  | a :: l, s => (step a s).bind (run step l)

@[simp] theorem run_nil (step : α → σ → Option σ) (s : σ) : run step [] s = some s := rfl

@[simp] theorem run_cons (step : α → σ → Option σ) (a : α) (l : List α) (s : σ) :
    run step (a :: l) s = (step a s).bind (run step l) := rfl

theorem run_cons_cons (step : α → σ → Option σ) (a b : α) (l : List α) (s : σ) :
    run step (a :: b :: l) s = ((step a s).bind (step b)).bind (run step l) := by
  rw [Option.bind_assoc]
  rfl

theorem run_append (step : α → σ → Option σ) (l l' : List α) (s : σ) :
    run step (l ++ l') s = (run step l s).bind (run step l') := by
  induction l generalizing s with
  | nil => rfl
  | cons a l ih =>
    rw [List.cons_append, run_cons, run_cons, Option.bind_assoc]
    exact congrArg _ (funext ih)

/-- The last step of a run. -/
theorem run_last {step : α → σ → Option σ} {l : List α} (hne : l ≠ []) {s s' : σ}
    (h : run step l s = some s') :
    ∃ pre a s1, l = pre ++ [a] ∧ run step pre s = some s1 ∧ step a s1 = some s' := by
  have hl : l = l.dropLast ++ [l.getLast hne] := (List.dropLast_append_getLast hne).symm
  rw [hl, run_append] at h
  obtain ⟨s1, h1, h2⟩ := Option.bind_eq_some_iff.1 h
  rw [run_cons] at h2
  obtain ⟨s2, h2, h3⟩ := Option.bind_eq_some_iff.1 h2
  cases h3
  exact ⟨_, _, s1, hl, h1, h2⟩

/-- What every step keeps, a run keeps. -/
theorem run_invariant {step : α → σ → Option σ} {I : σ → Prop} {l : List α}
    (hstep : ∀ a ∈ l, ∀ s s', I s → step a s = some s' → I s') {s s' : σ} (hs : I s)
    (h : run step l s = some s') : I s' := by
  induction l generalizing s with
  | nil => cases h; exact hs
  | cons a l ih =>
    obtain ⟨s1, h1, h2⟩ := Option.bind_eq_some_iff.1 h
    exact ih (fun b hb => hstep b (by simp [hb])) (hstep a (by simp) s s1 hs h1) h2

/-- What one step of another machine follows, a run of it follows. -/
theorem run_simulates {τ : Type} {R : σ → τ → Prop} {step : α → σ → Option σ} {step' : α → τ → Option τ} {l : List α}
    (hstep : ∀ a ∈ l, ∀ s t, R s t → Option.Rel R (step a s) (step' a t)) {s : σ} {t : τ} (h : R s t) :
    Option.Rel R (run step l s) (run step' l t) := by
  induction l generalizing s t with
  | nil => exact .some h
  | cons a l ih =>
    have h1 := hstep a (by simp) s t h
    rw [run_cons, run_cons]
    cases hs : step a s with
    | none =>
      rw [hs] at h1
      cases ht : step' a t with
      | none => exact .none
      | some t' =>
        rw [ht] at h1
        cases h1
    | some s' =>
      rw [hs] at h1
      cases ht : step' a t with
      | none =>
        rw [ht] at h1
        cases h1
      | some t' =>
        rw [ht] at h1
        cases h1 with
        | some h1 => exact ih (fun b hb => hstep b (by simp [hb])) h1

inductive Agree (R : σ → σ → Prop) : Option σ → Option σ → Prop where
  | none : Agree R none none
  | some {s t : σ} (rel : R s t) : Agree R (some s) (some t)

section
variable {R : σ → σ → Prop}

theorem Agree.bind {x y : Option σ} {f g : σ → Option σ} (h : Agree R x y)
    (hf : ∀ s t, R s t → Agree R (f s) (g t)) : Agree R (x.bind f) (y.bind g) := by
  cases h with
  | none => exact .none
  | some h => exact hf _ _ h

theorem Agree.trans (hR : Equivalence R) {x y z : Option σ} (h : Agree R x y)
    (h' : Agree R y z) : Agree R x z := by
  cases h with
  | none => exact h'
  | some h =>
    cases h' with
    | some h' => exact .some (hR.trans h h')

variable {step : α → σ → Option σ} {P : α → Prop} {Indep : α → α → Prop}
  (respects : ∀ a s t, P a → R s t → Agree R (step a s) (step a t))
include respects

theorem run_respects {l : List α} (hl : ∀ a ∈ l, P a) {s t : σ} (h : R s t) :
    Agree R (run step l s) (run step l t) := by
  induction l generalizing s t with
  | nil => exact .some h
  | cons a l ih =>
    refine (respects a s t (hl a (by simp)) h).bind fun s' t' h' => ?_
    exact ih (fun b hb => hl b (by simp [hb])) h'

/-- **Steps that commute may be run in any order.** -/
theorem run_perm (hR : Equivalence R) (hI : ∀ a b, Indep a b → Indep b a)
    (swap : ∀ a b s, P a → P b → Indep a b →
      Agree R ((step a s).bind (step b)) ((step b s).bind (step a)))
    {l l' : List α} (hperm : l.Perm l') (hl : ∀ a ∈ l, P a) (hp : l.Pairwise Indep) {s t : σ} (h : R s t) :
    Agree R (run step l s) (run step l' t) := by
  induction hperm generalizing s t with
  | nil => exact .some h
  | cons a _ ih =>
    refine (respects a s t (hl a (by simp)) h).bind fun s' t' h' => ?_
    exact ih (fun b hb => hl b (by simp [hb])) (List.pairwise_cons.1 hp).2 h'
  | swap a b l =>
    have hab : Indep b a := (List.pairwise_cons.1 hp).1 a (by simp)
    have hsw := swap b a s (hl b (by simp)) (hl a (by simp)) hab
    have hrest : ∀ c ∈ l, P c := fun c hc => hl c (by simp [hc])
    -- first the two steps from `s` in both orders, then the same order from `s` and from `t`
    have h1 : Agree R (run step (b :: a :: l) s) (run step (a :: b :: l) s) := by
      rw [run_cons_cons, run_cons_cons]
      exact hsw.bind fun s' t' h' => run_respects respects hrest h'
    have h2 : Agree R (run step (a :: b :: l) s) (run step (a :: b :: l) t) := by
      refine run_respects respects (fun c hc => hl c ?_) h
      exact (List.Perm.swap b a l).mem_iff.1 hc
    exact h1.trans hR h2
  | trans h1 _ ih1 ih2 =>
    have hl2 := fun c hc => hl c (h1.mem_iff.2 hc)
    have hp2 := (h1.pairwise_iff fun h => hI _ _ h).1 hp
    exact (ih1 hl hp (hR.refl s)).trans hR (ih2 hl2 hp2 h)

end

/-! ## Computations that fail alike -/

section
variable {τ σ' τ' ε : Type} {R : σ → τ → Prop} {R' : σ' → τ' → Prop}

/-- Both fail with the same error, or their results are related. -/
inductive Tracks (R : σ → τ → Prop) : Except ε σ → Except ε τ → Prop where
  | ok {s : σ} {t : τ} (rel : R s t) : Tracks R (.ok s) (.ok t)
  | error (e : ε) : Tracks R (.error e) (.error e)

theorem Tracks.bind {x : Except ε σ} {y : Except ε τ} {f : σ → Except ε σ'} {g : τ → Except ε τ'}
    (h : Tracks R x y) (hf : ∀ s t, R s t → Tracks R' (f s) (g t)) : Tracks R' (x >>= f) (y >>= g) := by
  cases h with
  | ok rel => exact hf _ _ rel
  | error e => exact .error e

theorem Tracks.mono {R' : σ → τ → Prop} {x : Except ε σ} {y : Except ε τ} (h : Tracks R x y)
    (hR : ∀ s t, R s t → R' s t) : Tracks R' x y := by
  cases h with
  | ok rel => exact .ok (hR _ _ rel)
  | error e => exact .error e

theorem Tracks.error_iff {x : Except ε σ} {y : Except ε τ} (h : Tracks R x y) (e : ε) :
    x = .error e ↔ y = .error e := by
  cases h with
  | ok rel => simp
  | error e' => simp

end

/-! ## Machines that answer -/

section
variable {ι ρ τ : Type}

/-- The answers to a list of requests, and the last state. -/
def serve (step : ι → σ → ρ × σ) : List ι → σ → List ρ × σ
  | [], s => ([], s)
  | i :: is, s => ((step i s).1 :: (serve step is (step i s).2).1, (serve step is (step i s).2).2)

/-- Machines that answer alike and stay related answer every list of requests alike. -/
theorem serve_simulates {R : σ → τ → Prop} {step : ι → σ → ρ × σ} {step' : ι → τ → ρ × τ} :
    ∀ {is : List ι} {s : σ} {t : τ},
      (∀ i ∈ is, ∀ s t, R s t → (step i s).1 = (step' i t).1 ∧ R (step i s).2 (step' i t).2) → R s t →
      (serve step is s).1 = (serve step' is t).1 ∧ R (serve step is s).2 (serve step' is t).2
  | [], _, _, _, h => ⟨rfl, h⟩
  | i :: is, s, t, hstep, h => by
    rw [List.forall_mem_cons] at hstep
    obtain ⟨h1, h2⟩ := hstep.1 s t h
    obtain ⟨h3, h4⟩ := serve_simulates hstep.2 h2
    rw [serve, serve]
    exact ⟨by rw [h1, h3], h4⟩

end

end Replay
