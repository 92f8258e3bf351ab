import Mathlib.Logic.Function.Basic
import Mathlib.Logic.Relation
import Mathlib.Data.List.Basic

/-!
# Throttling with a shared record

Agents send messages that are to be `T` apart. The time of the last message stands in a record that all agents see.
An agent writes the record first and sends later, or does both at once. What makes the messages `T` apart, whatever
the interleaving: the record is written only when `T` has passed since the time in it, and a message that was
recorded is sent at the time recorded.

* `Step`: the record, the clock and the agents, one step at a time.
* `Inv`, `Inv.step`, `Inv.steps`: the invariant, over one step and over a run.
* `spaced_of_steps`: the messages of a run are `T` apart.
-/

namespace Throttle

variable {ι : Type} {T : Int}

structure State (ι : Type) where
  clock : Int
  record : Option Int := none
  /-- What an agent has recorded and not sent. -/
  pending : ι → Option Int := fun _ => none
  sent : List Int := []

/-- `T` has passed since the time in the record. -/
def Elapsed (T : Int) (s : State ι) : Prop := ∀ l, s.record = some l → l + T ≤ s.clock

inductive Step [DecidableEq ι] (T : Int) : State ι → State ι → Prop where
  | tick (s : State ι) (n : Nat) : Step T s { s with clock := s.clock + n }
  | record (s : State ι) (i : ι) (elapsed : Elapsed T s) :
      Step T s { s with record := some s.clock, pending := Function.update s.pending i (some s.clock) }
  | send (s : State ι) (i : ι) (recorded : s.pending i = some s.clock) :
      Step T s { s with pending := Function.update s.pending i none, sent := s.sent ++ [s.clock] }
  | notify (s : State ι) (elapsed : Elapsed T s) :
      Step T s { s with record := some s.clock, sent := s.sent ++ [s.clock] }

def Steps [DecidableEq ι] (T : Int) : State ι → State ι → Prop := Relation.ReflTransGen (Step T)

/-- Sent, or recorded and to be sent. -/
def State.Owes (s : State ι) (t : Int) : Prop := t ∈ s.sent ∨ ∃ i, s.pending i = some t

structure Inv (T : Int) (s : State ι) : Prop where
  spaced : s.sent.Pairwise fun a b => a + T ≤ b
  owed : ∀ t, s.Owes t → ∃ l, s.record = some l ∧ t ≤ l
  past : ∀ l, s.record = some l → l ≤ s.clock
  room : ∀ i, s.pending i = some s.clock → ∀ t ∈ s.sent, t + T ≤ s.clock
  once : ∀ i j u, s.pending i = some u → s.pending j = some u → i = j

theorem Inv.initial (c : Int) : Inv T ({ clock := c } : State ι) where
  spaced := List.Pairwise.nil
  owed := by
    rintro t (h | ⟨i, h⟩)
    · cases h
    · cases h
  past := nofun
  room := nofun
  once := nofun

variable {s s' : State ι}

/-- When `T` has passed, it has passed since everything sent or to be sent. -/
theorem Inv.elapsed (h : Inv T s) (he : Elapsed T s) {t : Int} (ht : s.Owes t) : t + T ≤ s.clock := by
  obtain ⟨l, hl, htl⟩ := h.owed t ht
  have := he l hl
  omega

/-- Then nothing is recorded for now. -/
theorem Inv.no_pending (hT : 0 < T) (h : Inv T s) (he : Elapsed T s) (i : ι) : s.pending i ≠ some s.clock := by
  intro hi
  have := h.elapsed he (.inr ⟨i, hi⟩)
  omega

theorem Inv.past_owed (h : Inv T s) {t : Int} (ht : s.Owes t) : t ≤ s.clock := by
  obtain ⟨l, hl, htl⟩ := h.owed t ht
  have := h.past l hl
  omega

theorem pairwise_snoc {l : List Int} (h : l.Pairwise fun a b => a + T ≤ b) {c : Int} (hc : ∀ t ∈ l, t + T ≤ c) :
    (l ++ [c]).Pairwise fun a b => a + T ≤ b := by
  refine List.pairwise_append.2 ⟨h, List.pairwise_singleton _ c, fun a ha b hb => ?_⟩
  rw [List.mem_singleton.1 hb]
  exact hc a ha

section
variable [DecidableEq ι]

theorem update_eq_some {f : ι → Option Int} {i j : ι} {v : Option Int} {u : Int}
    (h : Function.update f i v j = some u) : (j = i ∧ v = some u) ∨ (j ≠ i ∧ f j = some u) := by
  by_cases hji : j = i
  · subst hji
    rw [Function.update_self] at h
    exact .inl ⟨rfl, h⟩
  · rw [Function.update_of_ne hji] at h
    exact .inr ⟨hji, h⟩

theorem Inv.step (hT : 0 < T) (h : Inv T s) (hs : Step T s s') : Inv T s' := by
  cases hs with
  | tick n =>
    refine ⟨h.spaced, h.owed, fun l hl => ?_, fun i hi t ht => ?_, h.once⟩
    · have := h.past l hl
      show l ≤ s.clock + (n : Int)
      omega
    · -- only a standing clock shows a time already recorded
      have hle : s.clock + (n : Int) ≤ s.clock := h.past_owed (.inr ⟨i, hi⟩)
      have hn : s.clock + (n : Int) = s.clock := by omega
      have hi : s.pending i = some (s.clock + (n : Int)) := hi
      rw [hn] at hi
      have := h.room i hi t ht
      show t + T ≤ s.clock + (n : Int)
      omega
  | record i he =>
    refine ⟨h.spaced, fun t ht => ⟨s.clock, rfl, ?_⟩, fun l hl => ?_, fun j hj t ht => h.elapsed he (.inl ht),
      fun j k u hj hk => ?_⟩
    · rcases ht with ht | ⟨j, hj⟩
      · exact h.past_owed (.inl ht)
      · rcases update_eq_some hj with ⟨_, hu⟩ | ⟨_, hj⟩
        · have := Option.some.inj hu
          omega
        · exact h.past_owed (.inr ⟨j, hj⟩)
    · have := Option.some.inj hl
      show l ≤ s.clock
      omega
    · -- the time recorded now was not recorded before
      rcases update_eq_some hj with ⟨hji, hju⟩ | ⟨_, hj⟩
      · rcases update_eq_some hk with ⟨hki, _⟩ | ⟨_, hk⟩
        · rw [hji, hki]
        · rw [← hju] at hk
          exact absurd hk (h.no_pending hT he k)
      · rcases update_eq_some hk with ⟨_, hku⟩ | ⟨_, hk⟩
        · rw [← hku] at hj
          exact absurd hj (h.no_pending hT he j)
        · exact h.once j k u hj hk
  | send i hi =>
    -- an agent that has something pending afterwards is another one, and had it before
    have hother : ∀ j u, Function.update s.pending i none j = some u → j ≠ i ∧ s.pending j = some u := by
      intro j u hj
      rcases update_eq_some hj with ⟨_, hn⟩ | hj
      · cases hn
      · exact hj
    refine ⟨pairwise_snoc h.spaced (h.room i hi), fun t ht => ?_, h.past, fun j hj => ?_, fun j k u hj hk => ?_⟩
    · rcases ht with ht | ⟨j, hj⟩
      · rcases List.mem_append.1 ht with ht | ht
        · exact h.owed t (.inl ht)
        · rw [List.mem_singleton.1 ht]
          exact h.owed s.clock (.inr ⟨i, hi⟩)
      · exact h.owed t (.inr ⟨j, (hother j t hj).2⟩)
    · obtain ⟨hji, hj⟩ := hother j s.clock hj
      exact absurd (h.once j i s.clock hj hi) hji
    · exact h.once j k u (hother j u hj).2 (hother k u hk).2
  | notify he =>
    refine ⟨pairwise_snoc h.spaced fun t ht => h.elapsed he (.inl ht), fun t ht => ⟨s.clock, rfl, ?_⟩, fun l hl => ?_,
      fun j hj => absurd hj (h.no_pending hT he j), h.once⟩
    · rcases ht with ht | hj
      · rcases List.mem_append.1 ht with ht | ht
        · exact h.past_owed (.inl ht)
        · have := List.mem_singleton.1 ht
          omega
      · exact h.past_owed (.inr hj)
    · have := Option.some.inj hl
      show l ≤ s.clock
      omega

theorem Inv.steps (hT : 0 < T) (h : Inv T s) (hs : Steps T s s') : Inv T s' := by
  induction hs with
  | refl => exact h
  | tail _ hstep ih => exact ih.step hT hstep

/-- **The messages of a run are `T` apart.** -/
theorem spaced_of_steps (hT : 0 < T) {c : Int} (hs : Steps T ({ clock := c } : State ι) s) :
    s.sent.Pairwise fun a b => a + T ≤ b := ((Inv.initial c).steps hT hs).spaced

end

end Throttle
