import Mathlib.Data.List.Chain
import Mathlib.Tactic.SplitIfs
import OrionBroker.Ngsi.Types

/-!
# Tidying up the responses of a forwarded update (postUpdateContext.cpp:118-182)

`processContextElement` answers an element of `postUpdateContext` with one response for each document it finds, and
looks for a context provider when the attribute is in none of them: then a 472 is followed by the 302 of the lookup,
or by its 404. A loop over all responses keeps one of the two. It does not see where the responses of an element
begin and end.

| here | there |
| --- | --- |
| `cleanUpLoop` | the loop (:144-179), with the vector and `ix`; every turn moves `ix` on, so `fuel` is the size |
| `cleanUp`     | the loop in its test on the sizes (:141) |
| `Block`       | what `processContextElement` appends for one element |

`ix + 1` is compensated when the 404 is erased although the elements behind it move down: the loop passes over the
response behind. `cleanUp_iff` says when this and a 472 at the end of an element do no harm.
-/

namespace OrionBroker

/-! ## The loop -/

def ContextElementResponse.code (r : ContextElementResponse) : HttpStatusCode := r.statusCode.code

/-- The loop ends before the last response. -/
def cleanUpLoop : (fuel : Nat) → (vec : List ContextElementResponse) → (ix : Nat) → List ContextElementResponse
  | 0, vec, _ => vec
  | fuel + 1, vec, ix =>
    match vec[ix]?, vec[ix + 1]? with
    | some r, some next =>
      if r.code = .invalidParameter then
        if next.code = .found then cleanUpLoop fuel (vec.eraseIdx ix) (ix + 1)
        else if next.code = .contextElementNotFound then cleanUpLoop fuel (vec.eraseIdx (ix + 1)) (ix + 1 + 1)
        else cleanUpLoop fuel vec (ix + 1)
      else cleanUpLoop fuel vec (ix + 1)
    | _, _ => vec

/-- `elements` is the number of context elements of the request. -/
def cleanUp (elements : Nat) (vec : List ContextElementResponse) : List ContextElementResponse :=
  if vec.length ≠ elements then cleanUpLoop vec.length vec 0 else vec

/-- A 472 and what makes one of the two garbage. -/
def Pair (r next : ContextElementResponse) : Prop :=
  r.code = .invalidParameter ∧ (next.code = .found ∨ next.code = .contextElementNotFound)

instance (r next : ContextElementResponse) : Decidable (Pair r next) := inferInstanceAs (Decidable (_ ∧ _))

/-! ## The loop on what is left -/

mutual
/-- What the loop makes of the responses from `ix` on. -/
def tidied : List ContextElementResponse → List ContextElementResponse
  | [] => []
  | [r] => [r]
  | r :: next :: rest =>
    if r.code = .invalidParameter then
      if next.code = .found then next :: tidied rest
      else if next.code = .contextElementNotFound then r :: passedOver rest
      else r :: tidied (next :: rest)
    else r :: tidied (next :: rest)
/-- The same when the first one is passed over. -/
def passedOver : List ContextElementResponse → List ContextElementResponse
  | [] => []
  | r :: rest => r :: tidied rest
end

theorem cleanUpLoop_eq (fuel : Nat) : ∀ (done rest : List ContextElementResponse), rest.length ≤ fuel →
    cleanUpLoop fuel (done ++ rest) done.length = done ++ tidied rest := by
  induction fuel with
  | zero =>
    intro done rest h
    rw [List.length_eq_zero_iff.1 (Nat.le_zero.1 h), cleanUpLoop, tidied]
  | succ fuel ih =>
    intro done rest h
    cases rest with
    | nil =>
      rw [cleanUpLoop, List.append_nil, List.getElem?_eq_none (Nat.le_refl _)]
      simp [tidied]
    | cons r rest =>
      cases rest with
      | nil =>
        rw [cleanUpLoop, List.getElem?_eq_none (show (done ++ [r]).length ≤ done.length + 1 by simp)]
        simp [tidied]
      | cons next rest =>
        have hr : (done ++ r :: next :: rest)[done.length]? = some r := by simp
        have hnext : (done ++ r :: next :: rest)[done.length + 1]? = some next := by simp
        simp only [List.length_cons] at h
        have hstep : cleanUpLoop fuel (done ++ r :: next :: rest) (done.length + 1) =
            done ++ r :: tidied (next :: rest) := by
          have := ih (done ++ [r]) (next :: rest) (by simpa using h)
          simpa using this
        rw [cleanUpLoop, hr, hnext]
        simp only
        unfold tidied
        split_ifs with hinvalid hfound hnotFound
        · have herase : (done ++ r :: next :: rest).eraseIdx done.length = done ++ [next] ++ rest := by
            rw [List.eraseIdx_append_of_length_le (Nat.le_refl _)]
            simp
          have := ih (done ++ [next]) rest (by omega)
          rw [herase]
          simpa using this
        · have herase : (done ++ r :: next :: rest).eraseIdx (done.length + 1) = done ++ r :: rest := by
            rw [List.eraseIdx_append_of_length_le (Nat.le_succ _)]
            simp
          rw [herase]
          cases rest with
          | nil =>
            have hend : cleanUpLoop fuel (done ++ [r]) (done.length + 1 + 1) = done ++ [r] := by
              cases fuel with
              | zero => rfl
              | succ fuel =>
                rw [cleanUpLoop, List.getElem?_eq_none (show (done ++ [r]).length ≤ done.length + 1 + 1 by simp)]
            rw [hend, passedOver]
          | cons skipped rest =>
            have := ih (done ++ [r, skipped]) rest (by simp only [List.length_cons] at h; omega)
            rw [passedOver]
            simpa using this
        · exact hstep
        · exact hstep

theorem cleanUpLoop_all (vec : List ContextElementResponse) : cleanUpLoop vec.length vec 0 = tidied vec := by
  have := cleanUpLoop_eq vec.length [] vec (Nat.le_refl _)
  simpa using this

section

variable {r next : ContextElementResponse} {rest : List ContextElementResponse}

theorem tidied_found (hr : r.code = .invalidParameter) (hn : next.code = .found) :
    tidied (r :: next :: rest) = next :: tidied rest := by
  rw [tidied, if_pos hr, if_pos hn]

theorem tidied_notFound (hr : r.code = .invalidParameter) (hn : next.code = .contextElementNotFound) :
    tidied (r :: next :: rest) = r :: passedOver rest := by
  rw [tidied, if_pos hr, if_neg (by rw [hn]; decide), if_pos hn]

theorem tidied_of_not_pair (h : ¬ Pair r next) : tidied (r :: next :: rest) = r :: tidied (next :: rest) := by
  rw [tidied]
  split_ifs with h1 h2 h3
  · exact absurd ⟨h1, .inl h2⟩ h
  · exact absurd ⟨h1, .inr h3⟩ h
  · rfl
  · rfl

/-- Nothing but a 472 takes part with the one behind it. -/
theorem tidied_of_ne (h : r.code ≠ .invalidParameter) : tidied (r :: rest) = r :: tidied rest := by
  cases rest with
  | nil => rw [tidied, tidied]
  | cons next rest => exact tidied_of_not_pair fun hp => h hp.1

end

/-! ## Blocks -/

inductive Block where
  /-- One response, or one for each of several documents, without a lookup. -/
  | plain (first : ContextElementResponse) (more : List ContextElementResponse)
      (hplain : ∀ next, more = [next] → ¬ Pair first next)
  | found (error answer : ContextElementResponse) (herror : error.code = .invalidParameter) (hanswer : answer.code = .found)
  | notFound (error answer : ContextElementResponse) (herror : error.code = .invalidParameter)
      (hanswer : answer.code = .contextElementNotFound)

namespace Block

def responses : Block → List ContextElementResponse
  | plain first more _ => first :: more
  | found error answer _ _ => [error, answer]
  | notFound error answer _ _ => [error, answer]

/-- 472 and 302 become the 302, 472 and 404 the 472. -/
def cleaned : Block → List ContextElementResponse
  | plain first more _ => first :: more
  | found _ answer _ _ => [answer]
  | notFound error _ _ _ => [error]

end Block

def flat (blocks : List Block) : List ContextElementResponse := blocks.flatMap Block.responses

def flatCleaned (blocks : List Block) : List ContextElementResponse := blocks.flatMap Block.cleaned

/-- The responses of an element without a lookup, those of the elements behind it being `rest`: no 472 is followed
by a 302 or a 404. -/
def NoPair (responses rest : List ContextElementResponse) : Prop :=
  (responses ++ rest.head?.toList).IsChain fun r next => ¬ Pair r next

/-- No block without a lookup has a pair in it or at its end, and no lookup comes right behind a 472 and 404; `after`
says that the first block does. The response right behind a 472 and 404 is passed over. -/
def Apart : (after : Bool) → List Block → Prop
  | _, [] => True
  | after, .plain first more _ :: blocks => NoPair (if after then more else first :: more) (flat blocks) ∧ Apart false blocks
  | after, .found .. :: blocks => after = false ∧ Apart false blocks
  | after, .notFound .. :: blocks => after = false ∧ Apart true blocks

/-! ### A wrong start cannot be made up for

`y` is a 404 that one side has and the other has not. -/

section

variable {y x : ContextElementResponse} {l t : List ContextElementResponse}

/-- A 472 never leaves a 404 in its place. -/
theorem tidied_ne_of_invalid (hx : x.code = .invalidParameter) (hy : y.code = .contextElementNotFound) :
    y :: t ≠ tidied (x :: l) := by
  have hne : y ≠ x := by
    rintro rfl
    rw [hx] at hy
    cases hy
  cases l with
  | nil =>
    rw [tidied]
    exact fun h => hne (List.cons.inj h).1
  | cons next l =>
    rw [tidied, if_pos hx]
    split_ifs with hfound hnotFound
    · intro h
      rw [(List.cons.inj h).1, hfound] at hy
      cases hy
    · exact fun h => hne (List.cons.inj h).1
    · exact fun h => hne (List.cons.inj h).1

/-- The first response of a lookup is a 472. -/
theorem flat_cases (blocks : List Block) : flat blocks = [] ∧ flatCleaned blocks = [] ∨
    (∃ first more rest, flat blocks = first :: (more ++ flat rest) ∧
      flatCleaned blocks = first :: (more ++ flatCleaned rest) ∧ rest.length < blocks.length) ∨
    ∃ error rest, error.code = .invalidParameter ∧ flat blocks = error :: rest ∧
      ∃ kept kept', flatCleaned blocks = kept :: kept' ∧ kept.code ≠ .contextElementNotFound := by
  match blocks with
  | [] => exact .inl ⟨rfl, rfl⟩
  | .plain first more _ :: blocks => exact .inr (.inl ⟨first, more, blocks, rfl, rfl, Nat.lt_succ_self _⟩)
  | .found error answer herror hanswer :: blocks =>
    exact .inr (.inr ⟨error, _, herror, rfl, answer, _, rfl, by rw [hanswer]; decide⟩)
  | .notFound error answer herror hanswer :: blocks =>
    exact .inr (.inr ⟨error, _, herror, rfl, error, _, rfl, by rw [herror]; decide⟩)

end

/-- A 404 that is left in front. -/
theorem cons_tidied_ne (blocks : List Block) : ∀ (l : List ContextElementResponse) {y : ContextElementResponse},
    y.code = .contextElementNotFound → y :: tidied (l ++ flat blocks) ≠ l ++ flatCleaned blocks := by
  induction hn : blocks.length using Nat.strong_induction_on generalizing blocks with
  | _ n ih =>
    intro l
    induction l with
    | cons x l ihl =>
      intro y hy h
      obtain ⟨rfl, h⟩ := List.cons.inj h
      rw [List.cons_append, tidied_of_ne (by rw [hy]; decide)] at h
      exact ihl hy h
    | nil =>
      intro y hy h
      rcases flat_cases blocks with ⟨-, hc⟩ | ⟨first, more, rest, hf, hc, hlt⟩ | ⟨_, _, -, -, kept, _, hc, hne⟩
      · rw [hc] at h
        cases h
      · rw [List.nil_append, List.nil_append, hf, hc] at h
        obtain ⟨rfl, h⟩ := List.cons.inj h
        rw [tidied_of_ne (by rw [hy]; decide)] at h
        exact ih _ (hn ▸ hlt) rest rfl more hy h
      · rw [List.nil_append, List.nil_append, hc] at h
        exact hne ((List.cons.inj h).1 ▸ hy)

/-- A 404 that is erased, the one behind it being looked at. -/
theorem cons_ne_tidied (blocks : List Block) : ∀ (l : List ContextElementResponse) {y : ContextElementResponse},
    y.code = .contextElementNotFound → y :: (l ++ flatCleaned blocks) ≠ tidied (l ++ flat blocks) := by
  induction hn : blocks.length using Nat.strong_induction_on generalizing blocks with
  | _ n ih =>
    intro l
    induction l with
    | cons x l ihl =>
      intro y hy h
      by_cases hx : x.code = .invalidParameter
      · exact tidied_ne_of_invalid hx hy h
      · rw [List.cons_append, List.cons_append, tidied_of_ne hx] at h
        obtain ⟨rfl, h⟩ := List.cons.inj h
        exact ihl hy h
    | nil =>
      intro y hy h
      rcases flat_cases blocks with ⟨hf, -⟩ | ⟨first, more, rest, hf, hc, hlt⟩ | ⟨error, _, herror, hf, -⟩
      · rw [List.nil_append, List.nil_append, hf, tidied] at h
        cases h
      · rw [List.nil_append, List.nil_append, hf, hc] at h
        by_cases hx : first.code = .invalidParameter
        · exact tidied_ne_of_invalid hx hy h
        · rw [tidied_of_ne hx] at h
          obtain ⟨rfl, h⟩ := List.cons.inj h
          exact ih _ (hn ▸ hlt) rest rfl more hy h
      · rw [List.nil_append, List.nil_append, hf] at h
        exact tidied_ne_of_invalid herror hy h

/-- A 404 that is erased, the one behind it being passed over. -/
theorem cons_ne_passedOver (blocks : List Block) (l : List ContextElementResponse) {y : ContextElementResponse}
    (hy : y.code = .contextElementNotFound) : y :: (l ++ flatCleaned blocks) ≠ passedOver (l ++ flat blocks) := by
  intro h
  cases l with
  | cons x l =>
    rw [List.cons_append, List.cons_append, passedOver] at h
    obtain ⟨rfl, h⟩ := List.cons.inj h
    exact cons_ne_tidied blocks l hy h
  | nil =>
    rcases flat_cases blocks with ⟨hf, -⟩ | ⟨first, more, rest, hf, hc, -⟩ | ⟨error, _, herror, hf, -⟩
    · rw [List.nil_append, List.nil_append, hf, passedOver] at h
      cases h
    · rw [List.nil_append, List.nil_append, hf, hc, passedOver] at h
      obtain ⟨rfl, h⟩ := List.cons.inj h
      exact cons_ne_tidied rest more hy h
    · rw [List.nil_append, List.nil_append, hf, passedOver] at h
      obtain ⟨rfl, -⟩ := List.cons.inj h
      rw [herror] at hy
      cases hy

/-! ### The loop over the blocks -/

/-- Responses without a lookup in front of the blocks. -/
theorem tidied_append_iff (blocks : List Block) (l : List ContextElementResponse) :
    tidied (l ++ flat blocks) = l ++ flatCleaned blocks ↔
      NoPair l (flat blocks) ∧ tidied (flat blocks) = flatCleaned blocks := by
  induction l with
  | nil =>
    have hchain : NoPair [] (flat blocks) := by
      unfold NoPair
      cases flat blocks <;> simp
    simp [hchain]
  | cons x l ih =>
    rcases hrest : l ++ flat blocks with - | ⟨next, rest⟩
    · obtain ⟨rfl, hf⟩ := List.append_eq_nil_iff.1 hrest
      have hc : flatCleaned blocks = [] := by
        rcases flat_cases blocks with ⟨-, hc⟩ | ⟨_, _, _, hf', -⟩ | ⟨_, _, -, hf', -⟩
        · exact hc
        · rw [hf] at hf'
          cases hf'
        · rw [hf] at hf'
          cases hf'
      simp [NoPair, hf, hc, tidied]
    · have hhead : (l ++ (flat blocks).head?.toList).head? = some next := by
        cases l with
        | nil => simpa using congrArg List.head? hrest
        | cons z l => simpa using congrArg List.head? hrest
      have hchain : NoPair (x :: l) (flat blocks) ↔ ¬ Pair x next ∧ NoPair l (flat blocks) := by
        unfold NoPair
        rw [List.cons_append, List.isChain_cons, hhead]
        simp
      rw [List.cons_append, hrest, hchain]
      by_cases hpair : Pair x next
      · refine iff_of_false (fun h => ?_) fun h => h.1.1 hpair
        obtain ⟨hx, hfound | hnotFound⟩ := hpair
        · rw [tidied_found hx hfound, List.cons_append] at h
          rw [(List.cons.inj h).1, hx] at hfound
          cases hfound
        · rw [tidied_notFound hx hnotFound, List.cons_append] at h
          have h := (List.cons.inj h).2.symm
          cases l with
          | cons z l =>
            obtain ⟨rfl, rfl⟩ := List.cons.inj hrest
            exact cons_ne_passedOver blocks l hnotFound h
          | nil =>
            rw [List.nil_append] at hrest h
            rcases flat_cases blocks with ⟨hf, -⟩ | ⟨first, more, rest', hf, hc, -⟩ | ⟨error, _, herror, hf, -⟩
            · rw [hf] at hrest
              cases hrest
            · rw [hf] at hrest
              obtain ⟨rfl, rfl⟩ := List.cons.inj hrest
              rw [hc] at h
              exact cons_ne_passedOver rest' more hnotFound h
            · rw [hf] at hrest
              rw [← (List.cons.inj hrest).1, herror] at hnotFound
              cases hnotFound
      · rw [tidied_of_not_pair hpair, ← hrest, List.cons_append, List.cons.injEq, ih]
        simp [hpair]

/-- What the loop makes of the blocks; `after` as in `Apart`. -/
def cleanedFrom (after : Bool) (vec : List ContextElementResponse) : List ContextElementResponse :=
  if after then passedOver vec else tidied vec

theorem cleanedFrom_iff : ∀ (blocks : List Block) (after : Bool),
    cleanedFrom after (flat blocks) = flatCleaned blocks ↔ Apart after blocks
  | [], after => by cases after <;> simp [cleanedFrom, flat, flatCleaned, tidied, passedOver, Apart]
  | .plain first more hplain :: blocks, after => by
    have ih := cleanedFrom_iff blocks false
    have hflat : flat (.plain first more hplain :: blocks) = first :: (more ++ flat blocks) := rfl
    have hclean : flatCleaned (.plain first more hplain :: blocks) = first :: (more ++ flatCleaned blocks) := rfl
    rw [cleanedFrom, if_neg (by simp)] at ih
    rw [hflat, hclean, Apart, ← ih]
    cases after with
    | false => exact tidied_append_iff blocks (first :: more)
    | true =>
      rw [cleanedFrom, if_pos rfl, passedOver, List.cons.injEq, if_pos rfl]
      simp [tidied_append_iff]
  | .found error answer herror hanswer :: blocks, after => by
    have ih := cleanedFrom_iff blocks false
    have hflat : flat (.found error answer herror hanswer :: blocks) = error :: answer :: flat blocks := rfl
    have hclean : flatCleaned (.found error answer herror hanswer :: blocks) = answer :: flatCleaned blocks := rfl
    rw [cleanedFrom, if_neg (by simp)] at ih
    rw [hflat, hclean, Apart, ← ih]
    cases after with
    | false =>
      rw [cleanedFrom, if_neg (by simp), tidied_found herror hanswer, List.cons.injEq]
      simp
    | true =>
      refine iff_of_false (fun h => ?_) (by simp)
      rw [cleanedFrom, if_pos rfl, passedOver] at h
      rw [(List.cons.inj h).1, hanswer] at herror
      cases herror
  | .notFound error answer herror hanswer :: blocks, after => by
    have ih := cleanedFrom_iff blocks true
    have hflat : flat (.notFound error answer herror hanswer :: blocks) = error :: answer :: flat blocks := rfl
    have hclean : flatCleaned (.notFound error answer herror hanswer :: blocks) = error :: flatCleaned blocks := rfl
    rw [cleanedFrom, if_pos rfl] at ih
    rw [hflat, hclean, Apart, ← ih]
    cases after with
    | false =>
      rw [cleanedFrom, if_neg (by simp), tidied_notFound herror hanswer, List.cons.injEq]
      simp
    | true =>
      refine iff_of_false (fun h => ?_) (by simp)
      rw [cleanedFrom, if_pos rfl, passedOver, tidied_of_ne (by rw [hanswer]; decide)] at h
      exact cons_tidied_ne blocks [] hanswer (List.cons.inj h).2

/-- Every element has one response. -/
def AllSingle (blocks : List Block) : Prop := ∀ b ∈ blocks, b.responses.length = 1

theorem length_flat_eq_iff : ∀ (blocks : List Block), (flat blocks).length = blocks.length ↔ AllSingle blocks := by
  have hle : ∀ blocks : List Block, blocks.length ≤ (flat blocks).length := by
    intro blocks
    induction blocks with
    | nil => exact Nat.le_refl _
    | cons b blocks ih =>
      have hb : 1 ≤ b.responses.length := by cases b <;> simp [Block.responses]
      simp only [flat, List.flatMap_cons, List.length_append, List.length_cons] at ih ⊢
      omega
  intro blocks
  induction blocks with
  | nil => simp [flat, AllSingle]
  | cons b blocks ih =>
    have hb : 1 ≤ b.responses.length := by cases b <;> simp [Block.responses]
    have hrest := hle blocks
    have hsplit : AllSingle (b :: blocks) ↔ b.responses.length = 1 ∧ AllSingle blocks := List.forall_mem_cons
    rw [hsplit, ← ih]
    simp only [flat, List.flatMap_cons, List.length_append, List.length_cons] at hrest ⊢
    omega

theorem flat_of_allSingle : ∀ {blocks : List Block}, AllSingle blocks → flat blocks = flatCleaned blocks
  | [], _ => rfl
  | b :: blocks, h => by
    have hb : b.responses = b.cleaned := by
      have hone := h b List.mem_cons_self
      cases b with
      | plain first more _ => rfl
      | found error answer _ _ => simp [Block.responses] at hone
      | notFound error answer _ _ => simp [Block.responses] at hone
    have ih := flat_of_allSingle fun c hc => h c (List.mem_cons_of_mem b hc)
    simp only [flat, flatCleaned, List.flatMap_cons, hb] at ih ⊢
    rw [ih]

/-- The loop looks at the elements one by one exactly when there is no two-response element, or the blocks are
apart. -/
theorem cleanUp_iff (blocks : List Block) :
    cleanUp blocks.length (flat blocks) = flatCleaned blocks ↔ AllSingle blocks ∨ Apart false blocks := by
  unfold cleanUp
  by_cases hall : AllSingle blocks
  · rw [if_neg (not_not.2 ((length_flat_eq_iff blocks).2 hall))]
    simp [hall, flat_of_allSingle hall]
  · rw [if_pos fun h => hall ((length_flat_eq_iff blocks).1 h), cleanUpLoop_all, ← cleanedFrom_iff blocks false]
    simp [hall, cleanedFrom]

/-! ## Two elements -/

def response (code : HttpStatusCode) : ContextElementResponse :=
  { entityId := { id := "Room" }, statusCode := { code := code } }

/-- One response. -/
def single (code : HttpStatusCode) : Block := .plain (response code) [] (fun _ h => nomatch h)

def providerNotFound : Block := .notFound (response .invalidParameter) (response .contextElementNotFound) rfl rfl

def providerFound : Block := .found (response .invalidParameter) (response .found) rfl rfl

/-- An element whose attribute no provider has, then one whose attribute has a provider; and an element that is
refused, one that is not stored but has a provider, and a lookup. -/
theorem twoLookups_garbled :
    (cleanUp 2 (flat [providerNotFound, providerFound])).map ContextElementResponse.code =
      [.invalidParameter, .invalidParameter, .found] ∧
    (flatCleaned [providerNotFound, providerFound]).map ContextElementResponse.code = [.invalidParameter, .found] ∧
    cleanUp 2 (flat [providerNotFound, providerFound]) ≠ flatCleaned [providerNotFound, providerFound] ∧
    cleanUp 3 (flat [single .invalidParameter, single .found, providerFound]) ≠
      flatCleaned [single .invalidParameter, single .found, providerFound] := by
  refine ⟨rfl, rfl, fun h => ?_, fun h => ?_⟩
  · have := congrArg List.length h
    cases this
  · have := congrArg List.length h
    cases this

end OrionBroker
