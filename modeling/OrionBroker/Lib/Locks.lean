import Mathlib.Logic.Function.Basic

/-!
# Code that takes and gives semaphores

A command reads and changes a machine (the values of the semaphores and the answers still to come from
outside) and ends by returning, by an exception, or not at all. `Runs P c Q` is the triple used for it: from
a state with `P` the command returns in one with `Q`; `Tries` also says what holds at an exception.

The state of interest is `At v m`: the semaphores have the values `v`, the answers to come are good, and no
value noted so far exceeds the cap.
-/

namespace Locks

/-- How a command ends. `stuck`: it waits for a semaphore, or the process is gone. -/
inductive Ending (ε α : Type) where
  | returns (a : α)
  | throws (e : ε)
  | stuck
deriving DecidableEq, Repr

def Cmd (σ ε α : Type) : Type := σ → Ending ε α × σ

section
variable {σ ε α β : Type}

instance : Monad (Cmd σ ε) where
  pure a := fun s => (.returns a, s)
  bind c f := fun s =>
    match c s with
    | (.returns a, s') => f a s'
    | (.throws e, s') => (.throws e, s')
    | (.stuck, s') => (.stuck, s')

def Cmd.throw (e : ε) : Cmd σ ε α := fun s => (.throws e, s)

/-- The process is gone. -/
def Cmd.die : Cmd σ ε α := fun s => (.stuck, s)

/-- `try c catch h`. -/
def Cmd.orElse (c : Cmd σ ε α) (h : ε → Cmd σ ε α) : Cmd σ ε α := fun s =>
  match c s with
  | (.throws e, s') => h e s'
  | r => r

/-- The body `n` times, as long as it asks to go on; whether it did to the end. -/
def Cmd.times (body : Cmd σ ε Bool) : Nat → Cmd σ ε Bool
  | 0 => pure true
  | n + 1 => do if ← body then body.times n else pure false

theorem bind_returns {c : Cmd σ ε α} {f : α → Cmd σ ε β} {s s' : σ} {a : α} (h : c s = (.returns a, s')) :
    (c >>= f) s = f a s' := by
  show (match c s with | (.returns a, s') => f a s' | (.throws e, s') => _ | (.stuck, s') => _) = _
  rw [h]

theorem bind_throws {c : Cmd σ ε α} {f : α → Cmd σ ε β} {s s' : σ} {e : ε} (h : c s = (.throws e, s')) :
    (c >>= f) s = (.throws e, s') := by
  show (match c s with | (.returns a, s') => f a s' | (.throws e, s') => _ | (.stuck, s') => _) = _
  rw [h]

theorem orElse_throws {c : Cmd σ ε α} {h : ε → Cmd σ ε α} {s s' : σ} {e : ε} (hc : c s = (.throws e, s')) :
    c.orElse h s = h e s' := by
  rw [Cmd.orElse, hc]

/-! ## Triples -/

def Runs (P : σ → Prop) (c : Cmd σ ε α) (Q : α → σ → Prop) : Prop :=
  ∀ s, P s → ∃ a s', c s = (.returns a, s') ∧ Q a s'

def Tries (P : σ → Prop) (c : Cmd σ ε α) (Q : α → σ → Prop) (X : ε → σ → Prop) : Prop :=
  ∀ s, P s → (∃ a s', c s = (.returns a, s') ∧ Q a s') ∨ ∃ e s', c s = (.throws e, s') ∧ X e s'

variable {P : σ → Prop} {c : Cmd σ ε α} {f : α → Cmd σ ε β} {Q : α → σ → Prop} {R : β → σ → Prop}
  {X : ε → σ → Prop}

theorem Runs.pure {a : α} (h : ∀ s, P s → Q a s) : Runs P (Pure.pure a : Cmd σ ε α) Q :=
  fun s hs => ⟨a, s, rfl, h s hs⟩

theorem Runs.bind (hc : Runs P c Q) (hf : ∀ a, Runs (Q a) (f a) R) : Runs P (c >>= f) R := by
  intro s hs
  obtain ⟨a, s', h, hq⟩ := hc s hs
  rw [bind_returns h]
  exact hf a s' hq

/-- A fact in the precondition. -/
theorem Runs.of_fact {G : Prop} (h : G → Runs P c Q) : Runs (fun s => G ∧ P s) c Q := fun s hs => h hs.1 s hs.2

theorem Tries.of_fact {G : Prop} (h : G → Tries P c Q X) : Tries (fun s => G ∧ P s) c Q X :=
  fun s hs => h hs.1 s hs.2

theorem Runs.mono {Q' : α → σ → Prop} (h : Runs P c Q) (hQ : ∀ a s, Q a s → Q' a s) : Runs P c Q' := by
  intro s hs
  obtain ⟨a, s', hc, hq⟩ := h s hs
  exact ⟨a, s', hc, hQ a s' hq⟩

theorem Tries.mono {Q' : α → σ → Prop} {X' : ε → σ → Prop} (h : Tries P c Q X) (hQ : ∀ a s, Q a s → Q' a s)
    (hX : ∀ e s, X e s → X' e s) : Tries P c Q' X' := by
  intro s hs
  rcases h s hs with ⟨a, s', hc, hq⟩ | ⟨e, s', he, hx⟩
  · exact .inl ⟨a, s', hc, hQ a s' hq⟩
  · exact .inr ⟨e, s', he, hX e s' hx⟩

/-- Where no exception state is reachable, the command returns. -/
theorem Tries.runs (h : Tries P c Q X) (hX : ∀ e s, ¬ X e s) : Runs P c Q := by
  intro s hs
  rcases h s hs with hr | ⟨e, s', _, hx⟩
  · exact hr
  · exact absurd hx (hX e s')

theorem Runs.tries (h : Runs P c Q) : Tries P c Q X := fun s hs => .inl (h s hs)

theorem Tries.pure {a : α} (h : ∀ s, P s → Q a s) : Tries P (Pure.pure a : Cmd σ ε α) Q X := (Runs.pure h).tries

theorem Tries.bind (hc : Tries P c Q X) (hf : ∀ a, Tries (Q a) (f a) R X) : Tries P (c >>= f) R X := by
  intro s hs
  rcases hc s hs with ⟨a, s', h, hq⟩ | ⟨e, s', h, hx⟩
  · rw [bind_returns h]
    exact hf a s' hq
  · exact .inr ⟨e, s', bind_throws h, hx⟩

theorem Tries.throw {e : ε} (h : ∀ s, P s → X e s) : Tries P (Cmd.throw e : Cmd σ ε α) Q X :=
  fun s hs => .inr ⟨e, s, rfl, h s hs⟩

theorem Runs.orElse {h : ε → Cmd σ ε α} (hc : Tries P c Q X) (hh : ∀ e, Runs (X e) (h e) Q) :
    Runs P (c.orElse h) Q := by
  intro s hs
  rcases hc s hs with ⟨a, s', e, hq⟩ | ⟨e, s', he, hx⟩
  · exact ⟨a, s', by rw [Cmd.orElse, e], hq⟩
  · rw [orElse_throws he]
    exact hh e s' hx

/-- What the body keeps, the loop keeps. -/
theorem Runs.times {body : Cmd σ ε Bool} (h : Runs P body fun _ => P) (n : Nat) :
    Runs P (body.times n) fun _ => P := by
  induction n with
  | zero => exact Runs.pure fun _ hs => hs
  | succ n ih =>
    refine h.bind fun b => ?_
    cases b with
    | true => exact ih
    | false => exact Runs.pure fun _ hs => hs

end

/-! ## The machine -/

/-- `L` are the semaphores, `S` the sites that answer, `A` their answers. `noted` are the values the semaphores
were set to. -/
structure Machine (L S A : Type) where
  value : L → Nat
  answers : S → List A
  noted : List Nat := []

section
variable {L S A ε : Type}

section
variable [DecidableEq L]

def Machine.set (m : Machine L S A) (l : L) (n : Nat) : Machine L S A :=
  { m with value := Function.update m.value l n, noted := n :: m.noted }

/-- `sem_wait`. -/
def take (l : L) : Cmd (Machine L S A) ε Unit := fun m =>
  if m.value l = 0 then (.stuck, m) else (.returns (), m.set l (m.value l - 1))

/-- `sem_post`. -/
def give (l : L) : Cmd (Machine L S A) ε Unit := fun m => (.returns (), m.set l (m.value l + 1))

end

/-- The next answer of a site. -/
def ask [DecidableEq S] (site : S) (default : A) : Cmd (Machine L S A) ε A := fun m =>
  match m.answers site with
  | [] => (.returns default, m)
  | a :: as => (.returns a, { m with answers := Function.update m.answers site as })

/-- Semaphores, answers and values noted. -/
structure At (good : S → A → Prop) (cap : Nat) (v : L → Nat) (m : Machine L S A) : Prop where
  value : m.value = v
  answers : ∀ site, ∀ a ∈ m.answers site, good site a
  noted : ∀ n ∈ m.noted, n ≤ cap

variable {good : S → A → Prop} {cap : Nat} {v : L → Nat}

theorem At.set [DecidableEq L] {m : Machine L S A} (h : At good cap v m) {l : L} {n : Nat} (hn : n ≤ cap) :
    At good cap (Function.update v l n) (m.set l n) := by
  refine ⟨?_, h.answers, ?_⟩
  · rw [Machine.set, h.value]
  · intro k hk
    rcases List.mem_cons.1 hk with rfl | hk
    · exact hn
    · exact h.noted k hk

theorem runs_take [DecidableEq L] {l : L} {n : Nat} (hl : v l = n + 1) (hn : n ≤ cap) :
    Runs (At good cap v) (take l : Cmd (Machine L S A) ε Unit) fun _ => At good cap (Function.update v l n) := by
  intro m hm
  have hv : m.value l = n + 1 := by rw [hm.value, hl]
  refine ⟨(), m.set l n, ?_, hm.set hn⟩
  rw [take, hv, if_neg (Nat.succ_ne_zero n), Nat.add_sub_cancel]

theorem runs_give [DecidableEq L] {l : L} {n : Nat} (hl : v l = n) (hn : n + 1 ≤ cap) :
    Runs (At good cap v) (give l : Cmd (Machine L S A) ε Unit) fun _ => At good cap (Function.update v l (n + 1)) := by
  intro m hm
  have hv : m.value l = n := by rw [hm.value, hl]
  refine ⟨(), m.set l (n + 1), ?_, hm.set hn⟩
  rw [give, hv]

/-- An answer is good, and so are those after it. -/
theorem runs_ask [DecidableEq S] {site : S} {default : A} (hd : good site default) :
    Runs (At good cap v) (ask site default : Cmd (Machine L S A) ε A)
      fun a m => good site a ∧ At good cap v m := by
  intro m hm
  unfold ask
  cases h : m.answers site with
  | nil => exact ⟨default, m, rfl, hd, hm⟩
  | cons a as =>
    refine ⟨a, _, rfl, hm.answers site a (by simp [h]), hm.value, ?_, hm.noted⟩
    intro site' b hb
    by_cases hs : site' = site
    · subst hs
      simp only [Function.update_self] at hb
      exact hm.answers site' b (by simp [h, hb])
    · simp only [Function.update_of_ne hs] at hb
      exact hm.answers site' b hb

end

end Locks
