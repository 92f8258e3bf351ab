import OrionBroker.Render.Answers

/-!
# Attributes as an object (ContextAttributeVector.cpp:105-141)

With `attributeFormat=object` the attributes of an answer become the members of a JSON object, so there may be only
one of each name. The copies are erased from the vector in a loop over its positions. After an `erase` the loop goes
on behind the attribute that moved down, which is neither compared nor added to the names seen; and `addedLookup`
answers the name it found, so it never finds the empty one.

| here | there |
| --- | --- |
| `addedLookup` | `addedLookup` (:56) |
| `purgeLoop`   | the loop (:116-133); every turn moves `ix` on, so `fuel` is the size |

`object_members_iff` says which vectors come out with the first attribute of each name.
-/

namespace OrionBroker.Answer

def addedLookup (added : List String) (value : String) : String :=
  if value ∈ added then value else ""

theorem addedLookup_eq_empty (added : List String) (value : String) :
    addedLookup added value = "" ↔ ¬ (value ≠ "" ∧ value ∈ added) := by
  unfold addedLookup
  by_cases h : value ∈ added
  · simp [h]
  · simp [h]

theorem purge_new {added : List String} {ca : ContextAttribute} (vec : List ContextAttribute)
    (h : ¬ (ca.name ≠ "" ∧ ca.name ∈ added)) : purge added (ca :: vec) = ca :: purge (added ++ [ca.name]) vec := by
  cases vec <;> simp [purge, h]

theorem purge_used_last {added : List String} {ca : ContextAttribute} (h : ca.name ≠ "" ∧ ca.name ∈ added) :
    purge added [ca] = [] := by
  simp [purge, h]

theorem purge_used {added : List String} {ca : ContextAttribute} (next : ContextAttribute) (vec : List ContextAttribute)
    (h : ca.name ≠ "" ∧ ca.name ∈ added) : purge added (ca :: next :: vec) = next :: purge added vec := by
  simp [purge, h]

def purgeLoop : Nat → List ContextAttribute → List String → Nat → List ContextAttribute
  | 0, vec, _, _ => vec
  | fuel + 1, vec, added, ix =>
    match vec[ix]? with
    | none => vec
    | some ca =>
      if addedLookup added ca.name = "" then purgeLoop fuel vec (added ++ [ca.name]) (ix + 1)
      else purgeLoop fuel (vec.eraseIdx ix) added (ix + 1)

/-- The loop leaves what is behind it, and purges the rest. -/
theorem purgeLoop_eq (fuel : Nat) (kept rest : List ContextAttribute) (added : List String) (h : rest.length ≤ fuel) :
    purgeLoop fuel (kept ++ rest) added kept.length = kept ++ purge added rest := by
  induction fuel generalizing kept rest added with
  | zero =>
    obtain rfl : rest = [] := List.length_eq_zero_iff.1 (by omega)
    simp [purgeLoop, purge]
  | succ fuel ih =>
    cases rest with
    | nil => simp [purgeLoop, purge]
    | cons ca vec =>
      have hget : (kept ++ ca :: vec)[kept.length]? = some ca := by simp
      rw [List.length_cons] at h
      simp only [purgeLoop, hget, addedLookup_eq_empty]
      by_cases hc : ca.name ≠ "" ∧ ca.name ∈ added
      · rw [if_neg (not_not_intro hc)]
        have herase : (kept ++ ca :: vec).eraseIdx kept.length = kept ++ vec := by
          rw [List.eraseIdx_append_of_length_le (le_refl _)]
          simp
        rw [herase]
        cases vec with
        | nil =>
          rw [purge_used_last hc]
          cases fuel with
          | zero => simp [purgeLoop]
          | succ fuel => simp [purgeLoop]
        | cons next vec =>
          have hih := ih (kept ++ [next]) vec added (by rw [List.length_cons] at h; omega)
          rw [purge_used next vec hc]
          simpa using hih
      · rw [if_pos hc, purge_new vec hc]
        have hih := ih (kept ++ [ca]) vec (added ++ [ca.name]) (by omega)
        simpa using hih

/-- **The loop is the purge** of the whole vector. -/
theorem purgeLoop_purge (vec : List ContextAttribute) : purgeLoop vec.length vec [] 0 = purge [] vec :=
  purgeLoop_eq vec.length [] vec [] (le_refl _)

/-! ## The first attribute of each name -/

/-- Those of a name not seen before. -/
def firstOfEach (seen : List String) : List ContextAttribute → List ContextAttribute
  | [] => []
  | ca :: vec => if ca.name ∈ seen then firstOfEach seen vec else ca :: firstOfEach (seen ++ [ca.name]) vec

theorem firstOfEach_not_seen {seen : List String} {vec : List ContextAttribute} :
    ∀ ca ∈ firstOfEach seen vec, ca.name ∉ seen := by
  induction vec generalizing seen with
  | nil => simp [firstOfEach]
  | cons first vec ih =>
    intro ca hca
    unfold firstOfEach at hca
    split at hca
    · exact ih ca hca
    · rename_i hnew
      rcases List.mem_cons.1 hca with rfl | hca
      · exact hnew
      · intro hseen
        exact ih ca hca (List.mem_append_left _ hseen)

theorem firstOfEach_nodup (seen : List String) (vec : List ContextAttribute) :
    ((firstOfEach seen vec).map ContextAttribute.name).Nodup := by
  induction vec generalizing seen with
  | nil => simp [firstOfEach]
  | cons first vec ih =>
    unfold firstOfEach
    split
    · exact ih seen
    · rw [List.map_cons, List.nodup_cons]
      refine ⟨?_, ih _⟩
      intro hmem
      obtain ⟨ca, hca, hname⟩ := List.mem_map.1 hmem
      exact firstOfEach_not_seen ca hca (by simp [hname])

/-- A name that is not seen is kept. -/
theorem purge_keeps (added : List String) (vec : List ContextAttribute) {n : String} (hn : n ∉ added)
    (hmem : n ∈ vec.map ContextAttribute.name) : n ∈ (purge added vec).map ContextAttribute.name := by
  fun_induction purge added vec with
  | case1 => exact hmem
  | case2 added ca hc =>
    rw [List.map_singleton, List.mem_singleton] at hmem
    exact absurd (hmem ▸ hc.2) hn
  | case3 added ca hc next vec ih =>
    rcases List.mem_cons.1 hmem with rfl | hmem
    · exact absurd hc.2 hn
    · rcases List.mem_cons.1 hmem with rfl | hmem
      · simp
      · exact List.mem_cons_of_mem _ (ih hn hmem)
  | case4 added ca vec hc ih =>
    rcases List.mem_cons.1 hmem with rfl | hmem
    · simp
    · by_cases hca : n = ca.name
      · simp [hca]
      · exact List.mem_cons_of_mem _ (ih (by simp [hn, hca]) hmem)

/-! ## When the purge is right -/

/-- No attribute of a name seen before has an empty name, and behind it there is nothing, or an attribute of a name
that occurs nowhere else. -/
structure Spaced (seen : List String) (vec : List ContextAttribute) : Prop where
  named : ∀ pre ca post, vec = pre ++ ca :: post → ca.name ∈ seen ++ pre.map ContextAttribute.name → ca.name ≠ ""
  behind : ∀ pre ca next post, vec = pre ++ ca :: next :: post → ca.name ∈ seen ++ pre.map ContextAttribute.name →
    next.name ∉ seen ++ (pre ++ ca :: post).map ContextAttribute.name

theorem spaced_nil (seen : List String) : Spaced seen [] := ⟨by simp, by simp⟩

theorem spaced_new {seen : List String} {ca : ContextAttribute} {vec : List ContextAttribute} (h : ca.name ∉ seen) :
    Spaced seen (ca :: vec) ↔ Spaced (seen ++ [ca.name]) vec := by
  constructor
  · intro hs
    refine ⟨fun pre x post hv hx => ?_, fun pre x next post hv hx => ?_⟩
    · exact hs.named (ca :: pre) x post (by rw [hv]; rfl) (by simpa using hx)
    · have := hs.behind (ca :: pre) x next post (by rw [hv]; rfl) (by simpa using hx)
      simpa using this
  · intro hs
    refine ⟨fun pre x post hv hx => ?_, fun pre x next post hv hx => ?_⟩
    · cases pre with
      | nil =>
        cases hv
        exact absurd (by simpa using hx) h
      | cons y pre =>
        cases hv
        exact hs.named pre x post rfl (by simpa using hx)
    · cases pre with
      | nil =>
        cases hv
        exact absurd (by simpa using hx) h
      | cons y pre =>
        cases hv
        have := hs.behind pre x next post rfl (by simpa using hx)
        simpa using this

theorem spaced_used_last {seen : List String} {ca : ContextAttribute} (h : ca.name ∈ seen) :
    Spaced seen [ca] ↔ ca.name ≠ "" := by
  constructor
  · intro hs
    exact hs.named [] ca [] rfl (by simpa using h)
  · intro hne
    refine ⟨fun pre x post hv _ => ?_, fun pre x next post hv _ => ?_⟩
    · cases pre with
      | nil =>
        cases hv
        exact hne
      | cons y pre => simp at hv
    · have := congrArg List.length hv
      simp at this
      omega

theorem spaced_used {seen : List String} {ca next : ContextAttribute} {vec : List ContextAttribute}
    (h : ca.name ∈ seen) :
    Spaced seen (ca :: next :: vec) ↔
      ca.name ≠ "" ∧ (next.name ∉ seen ∧ next.name ∉ vec.map ContextAttribute.name) ∧
        Spaced (seen ++ [next.name]) vec := by
  have hseen : ∀ (n : String) (l : List String), n ∈ seen ++ ca.name :: l ↔ n ∈ seen ++ l := by
    intro n l
    simp only [List.mem_append, List.mem_cons]
    constructor
    · rintro (hn | rfl | hn)
      · exact .inl hn
      · exact .inl h
      · exact .inr hn
    · rintro (hn | hn)
      · exact .inl hn
      · exact .inr (.inr hn)
  have hnext : ∀ (n : String) (l : List String), n ∈ seen ++ ca.name :: next.name :: l ↔ n ∈ (seen ++ [next.name]) ++ l := by
    intro n l
    rw [hseen, List.append_assoc]
    rfl
  constructor
  · intro hs
    have hbehind := hs.behind [] ca next vec rfl (by simpa using h)
    refine ⟨hs.named [] ca (next :: vec) rfl (by simpa using h), ?_, fun pre x post hv hx => ?_, fun pre x n post hv hx => ?_⟩
    · simp only [List.nil_append, List.map_cons, hseen, List.mem_append, not_or] at hbehind
      exact hbehind
    · exact hs.named (ca :: next :: pre) x post (by rw [hv]; rfl) ((hnext _ _).2 hx)
    · have := hs.behind (ca :: next :: pre) x n post (by rw [hv]; rfl) ((hnext _ _).2 hx)
      exact fun hn => this ((hnext _ _).2 hn)
  · rintro ⟨hne, ⟨hnew, honce⟩, hs⟩
    have hnotnext : ∀ l, l = [ca.name] → next.name ∉ seen ++ l := by
      rintro l rfl
      rw [hseen, List.append_nil]
      exact hnew
    refine ⟨fun pre x post hv hx => ?_, fun pre x n post hv hx => ?_⟩
    · obtain _ | ⟨_, _ | ⟨_, pre⟩⟩ := pre
      · cases hv
        exact hne
      · cases hv
        exact absurd hx (hnotnext _ rfl)
      · cases hv
        exact hs.named pre x post rfl ((hnext _ _).1 hx)
    · obtain _ | ⟨_, _ | ⟨_, pre⟩⟩ := pre
      · cases hv
        rw [List.nil_append, List.map_cons, hseen, List.mem_append, not_or]
        exact ⟨hnew, honce⟩
      · cases hv
        exact absurd hx (hnotnext _ rfl)
      · cases hv
        have := hs.behind pre x n post rfl ((hnext _ _).1 hx)
        exact fun hn => this ((hnext _ _).1 hn)

/-- The purge after some attributes: the names it knows are the names seen, as far as they come again. -/
theorem purge_eq_iff {added seen : List String} {vec : List ContextAttribute}
    (hsame : ∀ n ∈ vec.map ContextAttribute.name, n ∈ added ↔ n ∈ seen) :
    purge added vec = firstOfEach seen vec ↔ Spaced seen vec := by
  fun_induction purge added vec generalizing seen with
  | case1 => exact ⟨fun _ => spaced_nil seen, fun _ => rfl⟩
  | case2 added ca hc =>
    have hin : ca.name ∈ seen := (hsame _ (by simp)).1 hc.2
    rw [spaced_used_last hin]
    simp [firstOfEach, hin, hc.1]
  | case3 added ca hc next vec ih =>
    have hin : ca.name ∈ seen := (hsame _ (by simp)).1 hc.2
    rw [spaced_used hin, firstOfEach, if_pos hin, firstOfEach]
    by_cases hnext : next.name ∈ seen
    · rw [if_pos hnext]
      refine ⟨fun he => ?_, fun hs => absurd hnext hs.2.1.1⟩
      -- an attribute of a name seen before was passed over
      exact absurd hnext (firstOfEach_not_seen next (by rw [← he]; simp))
    · rw [if_neg hnext, List.cons.injEq]
      have hnotadded : next.name ∉ added := fun hn => hnext ((hsame _ (by simp)).1 hn)
      by_cases honce : next.name ∈ vec.map ContextAttribute.name
      · refine ⟨fun he => ?_, fun hs => absurd honce hs.2.1.2⟩
        -- the name comes again, and is kept again
        obtain ⟨x, hx, hname⟩ := List.mem_map.1 (purge_keeps added vec hnotadded honce)
        rw [he.2] at hx
        exact absurd (by simp [hname]) (firstOfEach_not_seen x hx)
      · have hih := @ih (seen ++ [next.name]) fun n hn => by
          have hne : n ≠ next.name := fun he => honce (he ▸ hn)
          rw [hsame n (by simp [hn]), List.mem_append, List.mem_singleton, or_iff_left hne]
        rw [hih]
        exact ⟨fun he => ⟨hc.1, ⟨hnext, honce⟩, he.2⟩, fun hs => ⟨rfl, hs.2.2⟩⟩
  | case4 added ca vec hc ih =>
    by_cases hin : ca.name ∈ seen
    · -- only the empty name is kept though it was seen
      have hempty : ca.name = "" := by
        by_contra hne
        exact hc ⟨hne, (hsame _ (by simp)).2 hin⟩
      rw [firstOfEach, if_pos hin]
      refine ⟨fun he => ?_, fun hs => ?_⟩
      · exact absurd hin (firstOfEach_not_seen ca (by rw [← he]; simp))
      · exact absurd hempty (hs.named [] ca vec rfl (by simpa using hin))
    · rw [firstOfEach, if_neg hin, spaced_new hin, List.cons.injEq]
      have hih := @ih (seen ++ [ca.name]) fun n hn => by
        rw [List.mem_append, List.mem_append, hsame n (by simp [hn])]
      rw [hih]
      exact ⟨fun he => he.2, fun hs => ⟨rfl, hs⟩⟩

/-- **One member for each name.** The object has the first attribute of each name, and no name twice, exactly when no
attribute but the first has an empty name, and behind each copy of an earlier name stands an attribute whose name
occurs only there. -/
theorem object_members_iff (vec : List ContextAttribute) :
    (shownAttributes .json "object" vec = firstOfEach [] vec ∧
      ((shownAttributes .json "object" vec).map ContextAttribute.name).Nodup) ↔ Spaced [] vec := by
  rw [shownAttributes, if_pos ⟨rfl, rfl⟩, ← purge_eq_iff fun n _ => Iff.rfl]
  constructor
  · intro h
    exact h.1
  · intro h
    refine ⟨h, ?_⟩
    rw [h]
    exact firstOfEach_nodup [] vec

/-- The names of an attribute, three times. -/
def copies (name : String) : List ContextAttribute :=
  [{ name := name, value := "1" }, { name := name, value := "2" }, { name := name, value := "3" }]

/-- **Three copies in a row.** The second is erased, and the third passed over. -/
theorem third_copy_kept :
    (purgeLoop (copies "a").length (copies "a") [] 0).map ContextAttribute.name = ["a", "a"] ∧
    ¬ (shownAttributes .json "object" (copies "a") = firstOfEach [] (copies "a") ∧
      ((shownAttributes .json "object" (copies "a")).map ContextAttribute.name).Nodup) := by
  refine ⟨by decide, ?_⟩
  rintro ⟨_, hnodup⟩
  exact absurd hnodup (by decide)

end OrionBroker.Answer
