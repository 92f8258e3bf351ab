import OrionBroker.Common.Strings
import OrionBroker.Rest.RouteTable

/-!
# Request dispatch (RestService.cpp:302-347)

| here | there |
| --- | --- |
| `RestService.comp` | `serviceV[ix].compV[compNo]`, an array of ten strings |
| `matchComponents`  | the inner loop (RestService.cpp:333-345) |
| `matchLoop`        | the outer loop (RestService.cpp:319-350), up to the row that matches |
| `dispatch`         | `restService` (RestService.cpp:292), up to the row that matches |

`none` is a read behind the array. A row is compared in all components the URL has; the rows with a number of their own
stop that at nine, but the catch-all does not: its entries behind the sixth are empty, and so are the components
between two slashes.
-/

namespace OrionBroker.Rest

/-- `strcasecmp(a, b) == 0`. -/
def sameIgnoringCase (a b : List Char) : Bool := a.map Char.toLower == b.map Char.toLower

def RestService.comp (r : RestService) (compNo : Nat) : Option String :=
  if compNo < 10 then some (r.compV.getD compNo "") else none

def matchComponents (r : RestService) : List (List Char) → (compNo : Nat) → Option Bool
  | [], _ => some true
  | c :: compV, compNo => do
    let word ← r.comp compNo
    if word = "*" then matchComponents r compV (compNo + 1)
    else if sameIgnoringCase word.toList c then matchComponents r compV (compNo + 1)
    else some false

def matchLoop (method : String) (compV : List (List Char)) : List RestService → Option (Option RestService)
  | [] => some none
  | r :: serviceV =>
    if r.components ≠ 0 ∧ r.components ≠ compV.length then matchLoop method compV serviceV
    else if method ≠ r.verb ∧ r.verb ≠ "*" then matchLoop method compV serviceV
    else do
      let isMatch ← matchComponents r compV 0
      if isMatch then some (some r) else matchLoop method compV serviceV

inductive Dispatched
  | emptyUrl
  | treated (r : RestService)
  | unrecognized
deriving DecidableEq

def urlComponents (url : String) : List (List Char) := stringSplit (cStr url) '/'

def dispatch (serviceV : List RestService) (method url : String) : Option Dispatched :=
  if url = "" ∨ url = "/" then some .emptyUrl
  else (matchLoop method (urlComponents url) serviceV).map fun r => (r.map Dispatched.treated).getD .unrecognized

section Loops

variable {method : String} {compV : List (List Char)} {rows serviceV : List RestService}

theorem comp_of_lt (r : RestService) {compNo : Nat} (h : compNo < 10) : r.comp compNo = some (r.compV.getD compNo "") := by
  rw [RestService.comp, if_pos h]

/-- Ten components stay in the array. -/
theorem matchComponents_isSome (r : RestService) : ∀ {compV : List (List Char)} {compNo : Nat},
    compNo + compV.length ≤ 10 → (matchComponents r compV compNo).isSome
  | [], _, _ => rfl
  | c :: compV, compNo, h => by
    rw [List.length_cons] at h
    have ih : (matchComponents r compV (compNo + 1)).isSome := matchComponents_isSome r (by omega)
    rw [matchComponents, comp_of_lt r (by omega)]
    simp only [Option.bind_eq_bind, Option.bind_some]
    split_ifs
    · exact ih
    · exact ih
    · rfl

theorem matchLoop_isSome (h : compV.length ≤ 10) : (matchLoop method compV serviceV).isSome := by
  induction serviceV with
  | nil => rfl
  | cons r serviceV ih =>
    rw [matchLoop]
    split_ifs
    · exact ih
    · exact ih
    · have hin : 0 + compV.length ≤ 10 := by omega
      obtain ⟨isMatch, hm⟩ := Option.isSome_iff_exists.1 (matchComponents_isSome r hin)
      rw [hm]
      cases isMatch
      · exact ih
      · rfl

/-- Rows with another number of components are passed over. -/
theorem matchLoop_append (h : ∀ r ∈ rows, r.components ≠ 0 ∧ r.components ≠ compV.length) :
    matchLoop method compV (rows ++ serviceV) = matchLoop method compV serviceV := by
  induction rows with
  | nil => rfl
  | cons r rows ih =>
    rw [List.cons_append, matchLoop, if_pos (h r List.mem_cons_self)]
    exact ih fun r hr => h r (List.mem_cons_of_mem _ hr)

end Loops

/-! ## The catch-all -/

theorem catchAll_comp {compNo : Nat} (h : compNo < 10) :
    catchAll.comp compNo = some (if compNo < 6 then "*" else "") := by
  have hcompV : catchAll.compV = List.replicate 6 "*" := rfl
  rw [comp_of_lt _ h, hcompV, List.getD_eq_getElem?_getD, List.getElem?_replicate]
  split <;> rfl

theorem catchAll_star (c : List Char) (compV : List (List Char)) {compNo : Nat} (h : compNo < 6) :
    matchComponents catchAll (c :: compV) compNo = matchComponents catchAll compV (compNo + 1) := by
  rw [matchComponents, catchAll_comp (by omega), if_pos h]
  rfl

theorem catchAll_empty (c : List Char) (compV : List (List Char)) {compNo : Nat} (h6 : 6 ≤ compNo) (h10 : compNo < 10) :
    matchComponents catchAll (c :: compV) compNo =
      if c = [] then matchComponents catchAll compV (compNo + 1) else some false := by
  rw [matchComponents, catchAll_comp h10, if_neg (by omega)]
  cases c with
  | nil => rfl
  | cons d c => rfl

/-- Behind the sixth component: empty ones match up to the end of the array. -/
theorem matchComponents_empty : ∀ {compV : List (List Char)} {compNo : Nat}, 6 ≤ compNo → compNo ≤ 10 →
    10 < compNo + compV.length → matchComponents catchAll compV compNo =
      if (compV.take (10 - compNo)).all List.isEmpty then none else some false
  | [], compNo, _, h10, hlen => by
    rw [List.length_nil] at hlen
    omega
  | c :: compV, compNo, h6, h10, hlen => by
    rw [List.length_cons] at hlen
    by_cases hlast : compNo = 10
    · subst hlast
      rw [Nat.sub_self, List.take_zero]
      rfl
    · obtain ⟨left, hleft⟩ : ∃ left, 10 - compNo = left + 1 := ⟨9 - compNo, by omega⟩
      have hrest : 10 - (compNo + 1) = left := by omega
      rw [catchAll_empty c compV h6 (by omega), matchComponents_empty (by omega) (by omega) (by omega), hleft, hrest,
        List.take_succ_cons, List.all_cons]
      cases c with
      | nil => rfl
      | cons d c => rfl

/-- The first six components match anything. -/
theorem matchComponents_catchAll {compV : List (List Char)} (h : 10 < compV.length) :
    matchComponents catchAll compV 0 = if ((compV.drop 6).take 4).all List.isEmpty then none else some false := by
  have hdrop : ∀ n ≤ 6, matchComponents catchAll compV 0 = matchComponents catchAll (compV.drop n) n := by
    intro n hn
    induction n with
    | zero => rfl
    | succ n ih =>
      rw [ih (by omega), List.drop_eq_getElem_cons (by omega), catchAll_star _ _ (by omega)]
  rw [hdrop 6 (by omega), matchComponents_empty (by omega) (by omega) (by rw [List.length_drop]; omega)]

theorem matchLoop_catchAll {method : String} {compV : List (List Char)} (h : 10 < compV.length) :
    (matchLoop method compV [catchAll]).isSome ↔ ∃ c ∈ (compV.drop 6).take 4, c ≠ [] := by
  have hverb : ¬ (method ≠ catchAll.verb ∧ catchAll.verb ≠ "*") := fun h => h.2 rfl
  rw [matchLoop, if_neg (fun h => h.1 rfl), if_neg hverb, matchComponents_catchAll h]
  by_cases hall : ((compV.drop 6).take 4).all List.isEmpty = true
  · rw [if_pos hall]
    refine iff_of_false (by simp) ?_
    rintro ⟨c, hc, hne⟩
    exact hne (List.isEmpty_iff.1 (List.all_eq_true.1 hall c hc))
  · rw [if_neg hall]
    refine iff_of_true rfl ?_
    simpa using hall

/-! ## The tables -/

/-- At most ten components, or one of the seventh to the tenth is not empty. -/
def InsideTable (url : String) : Prop :=
  (urlComponents url).length ≤ 10 ∨ ∃ c ∈ ((urlComponents url).drop 6).take 4, c ≠ []

theorem matchLoop_routeTable (ngsi9Only debug : Bool) {method : String} {compV : List (List Char)}
    (h : 10 < compV.length) :
    matchLoop method compV (routeTable ngsi9Only debug) = matchLoop method compV [catchAll] := by
  rw [routeTable_eq, matchLoop_append]
  intro r hr
  have hfixed := List.all_eq_true.1 (routeTable_fixed ngsi9Only debug) r hr
  simp only [RestService.fixed, Bool.and_eq_true, decide_eq_true_eq] at hfixed
  omega

/-- **The dispatch stays in the table exactly for those URLs**, whatever the method. -/
theorem dispatch_inside_iff (ngsi9Only debug : Bool) (method url : String) :
    (dispatch (routeTable ngsi9Only debug) method url).isSome ↔ InsideTable url := by
  unfold dispatch InsideTable
  by_cases hempty : url = "" ∨ url = "/"
  · rw [if_pos hempty]
    refine iff_of_true rfl (Or.inl ?_)
    rcases hempty with rfl | rfl <;> decide
  · rw [if_neg hempty, Option.isSome_map]
    by_cases hlen : (urlComponents url).length ≤ 10
    · exact iff_of_true (matchLoop_isSome hlen) (Or.inl hlen)
    · rw [matchLoop_routeTable ngsi9Only debug (by omega), matchLoop_catchAll (by omega), or_iff_right hlen]

/-- Eleven components, four empty ones before the last. -/
theorem dispatch_outside : dispatch (routeTable false false) "GET" "/a/b/c/d/e/f/////g" = none := by
  have hcomps : urlComponents "/a/b/c/d/e/f/////g" =
      [['a'], ['b'], ['c'], ['d'], ['e'], ['f'], [], [], [], [], ['g']] := by decide
  rw [dispatch, if_neg (by decide), hcomps, matchLoop_routeTable false false (by simp)]
  decide

end OrionBroker.Rest
