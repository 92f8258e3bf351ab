import OrionBroker.Common.Strings
import OrionBroker.Ngsi.Types

/-!
# The Fiware-ServicePath header of a notification (Notifier.cpp:63-94)

| here | there |
| --- | --- |
| `spathLoop` | the loop over the responses (:72-82), with its `spathList` and `atLeastOneNotDefault` |
| `spathList` | the value handed on to `sendHttpSocket`, after the reset (:90-93) |

A comma goes in front of a path when something was written before it, so the paths of the first entities leave no
trace when they are empty. `spathList_aligned_iff` says that nothing else goes wrong.
-/

namespace OrionBroker.Notifier

def spathLoop : List ContextElementResponse → String → Bool → String × Bool
  | [], spathList, atLeastOneNotDefault => (spathList, atLeastOneNotDefault)
  | cer :: cerV, spathList, atLeastOneNotDefault =>
    let spathList := if spathList ≠ "" then spathList ++ "," else spathList
    spathLoop cerV (spathList ++ cer.entityId.servicePath)
      (atLeastOneNotDefault || cer.entityId.servicePath != "/")

def spathList (cerV : List ContextElementResponse) : String :=
  let (spathList, atLeastOneNotDefault) := spathLoop cerV "" false
  if !atLeastOneNotDefault then "" else spathList

/-- The service paths of the entities, in the order of the payload. -/
def paths (cerV : List ContextElementResponse) : List String := cerV.map fun cer => cer.entityId.servicePath

@[simp] theorem paths_cons (cer : ContextElementResponse) (cerV : List ContextElementResponse) :
    paths (cer :: cerV) = cer.entityId.servicePath :: paths cerV := rfl

/-- What stands between the commas of a header. -/
def splitHeader (header : String) : List String := (header.toList.splitOn ',').map String.ofList

/-! ## What the loop leaves -/

theorem spathLoop_flag (cerV : List ContextElementResponse) (s : String) (b : Bool) :
    (spathLoop cerV s b).2 = (b || (paths cerV).any (· != "/")) := by
  induction cerV generalizing s b with
  | nil => simp [spathLoop, paths]
  | cons cer cerV ih => rw [spathLoop, ih, paths_cons, List.any_cons, Bool.or_assoc]

/-- Behind a text that is not empty every path has its comma. -/
theorem spathLoop_behind (cerV : List ContextElementResponse) {s : String} (b : Bool) (hs : s ≠ "") :
    (spathLoop cerV s b).1.toList = [','].intercalate (s.toList :: (paths cerV).map String.toList) := by
  induction cerV generalizing s b with
  | nil => simp [spathLoop, paths]
  | cons cer cerV ih =>
    have hne : s ++ "," ++ cer.entityId.servicePath ≠ "" := by
      intro he
      have := congrArg String.toList he
      simp at this
    rw [spathLoop, if_pos hs, ih _ hne, paths_cons, List.map_cons, List.intercalate_cons_cons]
    -- the two texts in front are the first piece now
    cases (paths cerV).map String.toList with
    | nil => simp [List.append_assoc]
    | cons t ts => simp [List.intercalate_cons_cons, List.append_assoc]

/-- **The text of the loop**: the paths from the first one that is not empty. -/
theorem spathLoop_text (cerV : List ContextElementResponse) (b : Bool) :
    (spathLoop cerV "" b).1.toList =
      [','].intercalate (((paths cerV).dropWhile (· == "")).map String.toList) := by
  induction cerV generalizing b with
  | nil => simp [spathLoop, paths]
  | cons cer cerV ih =>
    by_cases hempty : cer.entityId.servicePath = ""
    · have hskip : (paths (cer :: cerV)).dropWhile (· == "") = (paths cerV).dropWhile (· == "") := by
        simp [hempty]
      rw [hskip, spathLoop, if_neg (by simp), hempty]
      exact ih _
    · have hall : (paths (cer :: cerV)).dropWhile (· == "") = paths (cer :: cerV) := by
        simp [hempty]
      rw [hall, spathLoop, if_neg (by simp), String.empty_append, spathLoop_behind cerV _ hempty]
      rfl

theorem spathList_text {cerV : List ContextElementResponse} (h : ∃ p ∈ paths cerV, p ≠ "/") :
    (spathList cerV).toList = [','].intercalate (((paths cerV).dropWhile (· == "")).map String.toList) := by
  have hflag : (spathLoop cerV "" false).2 = true := by
    rw [spathLoop_flag, Bool.false_or, List.any_eq_true]
    obtain ⟨p, hp, hne⟩ := h
    exact ⟨p, hp, by simpa using hne⟩
  rw [← spathLoop_text cerV false]
  simp [spathList, hflag]

/-! ## Splitting it again -/

/-- Only a split of nothing gives one empty piece where there were none. -/
theorem splitHeader_eq {header : String} {ps : List String} (hcommas : ∀ p ∈ ps, ',' ∉ p.toList)
    (h : header.toList = [','].intercalate (ps.map String.toList)) :
    splitHeader header = if ps = [] then [""] else ps := by
  rw [splitHeader, h]
  by_cases hps : ps = []
  · rw [if_pos hps, hps]
    simp [List.splitOn_nil]
  · rw [if_neg hps, List.splitOn_intercalate ',' (by simpa using hcommas) (by simpa using hps)]
    simp

/-- The paths come back when the first one is not empty, or is all there is. -/
theorem dropEmpty_eq_iff {ps : List String} (hne : ps ≠ []) :
    (if ps.dropWhile (· == "") = [] then [""] else ps.dropWhile (· == "")) = ps ↔
      ps.head? ≠ some "" ∨ ps.length = 1 := by
  cases ps with
  | nil => exact absurd rfl hne
  | cons p ps =>
    by_cases hp : p = ""
    · subst hp
      have hskip : ("" :: ps).dropWhile (· == "") = ps.dropWhile (· == "") := by simp
      rw [hskip]
      split
      · rename_i hnil
        cases ps with
        | nil => simp
        | cons q qs => simp
      · rename_i hrest
        constructor
        · intro he
          -- it is too short
          have hle := (List.dropWhile_suffix (l := ps) (· == "")).length_le
          rw [he, List.length_cons] at hle
          omega
        · rintro (hhead | hone)
          · simp at hhead
          · have : ps = [] := by simpa using hone
            exact absurd (by simp [this]) hrest
    · have hall : (p :: ps).dropWhile (· == "") = p :: ps := by simp [hp]
      simp [hall, hp]

/-- **The header is aligned with the payload** exactly when the first entity has a service path, or there is one
entity only. -/
theorem spathList_aligned_iff (cerV : List ContextElementResponse) (hne : cerV ≠ [])
    (hcommas : ∀ cer ∈ cerV, ',' ∉ cer.entityId.servicePath.toList)
    (hdefault : ∃ cer ∈ cerV, cer.entityId.servicePath ≠ "/") :
    splitHeader (spathList cerV) = paths cerV ↔ (paths cerV).head? ≠ some "" ∨ cerV.length = 1 := by
  have hpaths : ∃ p ∈ paths cerV, p ≠ "/" := by
    obtain ⟨cer, hcer, hp⟩ := hdefault
    exact ⟨_, List.mem_map_of_mem hcer, hp⟩
  have hkept : ∀ p ∈ (paths cerV).dropWhile (· == ""), ',' ∉ p.toList := by
    intro p hp
    obtain ⟨cer, hcer, rfl⟩ := List.mem_map.1 ((List.dropWhile_sublist _).mem hp)
    exact hcommas cer hcer
  have hlen : cerV.length = (paths cerV).length := by simp [paths]
  rw [splitHeader_eq hkept (spathList_text hpaths), hlen]
  exact dropEmpty_eq_iff (by simpa [paths] using hne)

/-- A response about an entity of the given service path. -/
def cerAt (id servicePath : String) : ContextElementResponse :=
  { entityId := { id := id, type := "Room", servicePath := servicePath } }

theorem spathList_aligned_two :
    splitHeader (spathList [cerAt "R1" "/a", cerAt "R2" ""]) = paths [cerAt "R1" "/a", cerAt "R2" ""] :=
  (spathList_aligned_iff [cerAt "R1" "/a", cerAt "R2" ""] (by simp) (by simp [cerAt])
    ⟨cerAt "R1" "/a", by simp, by decide⟩).2 (.inl (by decide))

/-- **An entity without a service path in front of one that has one**: the header names one path for two entities. -/
theorem first_path_lost :
    (∃ cer ∈ [cerAt "R1" "", cerAt "R2" "/a"], cer.entityId.servicePath ≠ "/") ∧
    spathList [cerAt "R1" "", cerAt "R2" "/a"] = "/a" ∧
    ¬ splitHeader (spathList [cerAt "R1" "", cerAt "R2" "/a"]) = paths [cerAt "R1" "", cerAt "R2" "/a"] := by
  have hheader : spathList [cerAt "R1" "", cerAt "R2" "/a"] = "/a" := by decide
  refine ⟨⟨cerAt "R2" "/a", by simp, by decide⟩, hheader, ?_⟩
  rw [hheader]
  intro h
  have := congrArg List.length h
  rw [splitHeader, List.length_map] at this
  exact absurd this (by decide)

end OrionBroker.Notifier
