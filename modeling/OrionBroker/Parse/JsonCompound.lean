import OrionBroker.Parse.Json

/-!
# The compound tree of a JSON value (jsonParse.cpp:218-288)

`eatCompound` makes an object of every container, and turns it into a vector when it meets a child that only an
element of an array can be. An empty string is added under the name `item`, and the container is left as it is.

| here | there |
| --- | --- |
| `Regular`     | the property trees that `read_json` makes of arrays, objects and strings |
| `expected`    | the tree such a value should become |
| `eaten`       | the node `eatCompound` adds for it |
| `turns`       | whether one of the children makes the container a vector |

`compound_tree_iff` says which values are read right.
-/

namespace OrionBroker.Json

open CompoundValueNode

/-! ## Values, and what they stand for -/

/-- The children of an array. -/
def Unnamed (children : List (String × PropertyTree)) : Prop := ∀ c ∈ children, c.1 = ""

def isEmptyText : PropertyTree → Bool
  | .node data children => data == "" && children.isEmpty

/-- The children of an object; of a member that is a string, there is a text. -/
structure Named (children : List (String × PropertyTree)) : Prop where
  ne : ∀ c ∈ children, c.1 ≠ ""
  nodup : (children.map Prod.fst).Nodup
  texts : ∀ c ∈ children, isEmptyText c.2 = false

mutual
/-- A string with nothing forbidden in it, an array or an object. -/
def Regular : PropertyTree → Prop
  | .node data children =>
    (children = [] → forbiddenChars data = false) ∧
    (children ≠ [] → data = "" ∧ (Unnamed children ∨ Named children)) ∧ RegularAll children
def RegularAll : List (String × PropertyTree) → Prop
  | [] => True
  | (_, tree) :: children => Regular tree ∧ RegularAll children
end

/-- An element of an array has the name `item`. -/
def childName (name : String) : String := if name = "" then "item" else name

def isArray (children : List (String × PropertyTree)) : Bool := children.all (·.1 == "")

mutual
def expected (name : String) : PropertyTree → CompoundValueNode
  | .node data children =>
    if children.isEmpty then .mk .string name data []
    else .mk (if isArray children then .vector else .object) name "" (expectedAll children)
def expectedAll : List (String × PropertyTree) → List CompoundValueNode
  | [] => []
  | (name, tree) :: children => expected (childName name) tree :: expectedAll children
end

theorem expectedAll_eq (children : List (String × PropertyTree)) :
    expectedAll children = children.map fun c => expected (childName c.1) c.2 := by
  induction children with
  | nil => rfl
  | cons c children ih => rw [expectedAll, ih, List.map_cons]

@[simp] theorem expected_name (name : String) (tree : PropertyTree) : (expected name tree).name = name := by
  cases tree
  rw [expected]
  split <;> rfl

/-! ## The expected tree is accepted -/

theorem Named.not_isArray {children : List (String × PropertyTree)} (h : Named children) (hne : children ≠ []) :
    isArray children = false := by
  cases children with
  | nil => exact absurd rfl hne
  | cons c children => simp [isArray, h.ne c List.mem_cons_self]

theorem Unnamed.isArray {children : List (String × PropertyTree)} (h : Unnamed children) : isArray children = true := by
  unfold Json.isArray
  rw [List.all_eq_true]
  intro c hc
  simp [h c hc]

theorem childName_named {children : List (String × PropertyTree)} (h : Named children) :
    (expectedAll children).map CompoundValueNode.name = children.map Prod.fst := by
  rw [expectedAll_eq, List.map_map]
  apply List.map_congr_left
  intro c hc
  simp [childName, h.ne c hc]

mutual
theorem expected_check : ∀ (tree : PropertyTree) (name path : String), Regular tree →
    (expected name tree).check path = none
  | .node data children, name, path, h => by
    rw [Regular] at h
    obtain ⟨_, hinner, hall⟩ := h
    rw [expected]
    by_cases hleaf : children = []
    · simp [hleaf, check]
    · rw [if_neg (by simpa using hleaf)]
      have hchildren := expectedAll_check children path hall
      obtain hunnamed | hnamed := (hinner hleaf).2
      · have hitems : ∀ child ∈ expectedAll children, child.name = "item" := by
          rw [expectedAll_eq]
          intro child hchild
          obtain ⟨c, hc, rfl⟩ := List.mem_map.1 hchild
          simp [childName, hunnamed c hc]
        have hnone : vectorError (expectedAll children) = none := by
          rw [vectorError_eq_none_iff]
          intro x hx y hy
          rw [hitems x hx, hitems y hy]
        rw [hunnamed.isArray, if_pos rfl, check, hnone]
        exact hchildren
      · rw [hnamed.not_isArray hleaf, if_neg (by simp), check,
          objectError_eq_none_iff.2 (by rw [childName_named hnamed]; exact hnamed.nodup)]
        exact hchildren
theorem expectedAll_check : ∀ (children : List (String × PropertyTree)) (path : String), RegularAll children →
    checkChildren path (expectedAll children) = none
  | [], _, _ => rfl
  | (name, tree) :: children, path, h => by
    rw [RegularAll] at h
    rw [expectedAll, checkChildren, expectedAll_check children path h.2, expected_check tree _ _ h.1]
    rfl
end

/-! ## What `eatCompound` adds -/

/-- An element of an array that makes its container a vector: anything but an empty string. -/
def turnsVector (nodeName : String) (tree : PropertyTree) : Bool := nodeName == "" && !isEmptyText tree

def turns (children : List (String × PropertyTree)) : Bool := children.any fun c => turnsVector (cString c.1) c.2

mutual
def eaten (nodeName : String) : PropertyTree → CompoundValueNode
  | .node data children =>
    if children.isEmpty then .mk .string (childName nodeName) data []
    else .mk (if turns children then .vector else .object) (childName nodeName) "" (eatenAll children)
def eatenAll : List (String × PropertyTree) → List CompoundValueNode
  | [] => []
  | (name, tree) :: children => eaten (cString name) tree :: eatenAll children
end

/-- The container with one more child. -/
def grown (containerP : CompoundValueNode) (vector : Bool) (child : CompoundValueNode) : CompoundValueNode :=
  (if vector then containerP.toVector else containerP).push child

theorem grown_mk (type : NodeType) (name value : String) (childV : List CompoundValueNode) (vector : Bool)
    (child : CompoundValueNode) :
    grown (.mk type name value childV) vector child =
      .mk (if vector then .vector else type) name value (childV ++ [child]) := by
  cases vector <;> rfl

/-- A string is named, or may be empty. -/
def Fits (nodeName : String) (tree : PropertyTree) : Prop := nodeName = "" ∨ isEmptyText tree = false

theorem fits_children {data : String} {children : List (String × PropertyTree)} (h : Regular (.node data children)) :
    ∀ c ∈ children, Fits (cString c.1) c.2 := by
  intro c hc
  rw [Regular] at h
  obtain hunnamed | hnamed := (h.2.1 (List.ne_nil_of_mem hc)).2
  · exact .inl (by rw [hunnamed c hc, cString_empty])
  · exact .inr (hnamed.texts c hc)

mutual
theorem eatCompound_eq : ∀ (tree : PropertyTree) (nodeName : String) (containerP : CompoundValueNode),
    Regular tree → Fits nodeName tree →
    eatCompound nodeName tree (containerP, none) =
      (grown containerP (turnsVector nodeName tree) (eaten nodeName tree), none)
  | .node data children, nodeName, containerP, h, hfits => by
    have hchildren := fits_children h
    rw [Regular] at h
    obtain ⟨hforbidden, hinner, hall⟩ := h
    by_cases hleaf : children = []
    · subst hleaf
      by_cases hname : nodeName = ""
      · by_cases hdata : data = ""
        · simp [eatCompound, hname, hdata, turnsVector, isEmptyText, eaten, childName, grown, add]
        · simp [eatCompound, eatChildren, hname, hdata, turnsVector, isEmptyText, eaten, childName, grown, add]
      · have hdata : data ≠ "" := by
          intro hdata
          rcases hfits with h | h
          · exact hname h
          · simp [isEmptyText, hdata] at h
        simp [eatCompound, eatChildren, hname, hdata, hforbidden rfl, turnsVector, eaten, childName, grown, add]
    · have hdata : data = "" := (hinner hleaf).1
      have hrest : ∀ name, eatChildren children (.mk .object name "" [], none) =
          (.mk (if turns children then .vector else .object) name "" (eatenAll children), none) := by
        intro name
        have := eatChildren_eq children .object name "" [] hall hchildren
        simpa using this
      have hcontainer : children.isEmpty = false := by simpa using hleaf
      by_cases hname : nodeName = ""
      · simp [eatCompound, hname, hdata, hcontainer, turnsVector, isEmptyText, eaten, childName, grown, hrest]
      · simp [eatCompound, hname, hdata, hcontainer, turnsVector, eaten, childName, grown, hrest]
theorem eatChildren_eq : ∀ (children : List (String × PropertyTree)) (type : NodeType) (name value : String)
    (childV : List CompoundValueNode), RegularAll children → (∀ c ∈ children, Fits (cString c.1) c.2) →
    eatChildren children (.mk type name value childV, none) =
      (.mk (if turns children then .vector else type) name value (childV ++ eatenAll children), none)
  | [], type, name, value, childV, _, _ => by simp [eatChildren, turns, eatenAll]
  | (n, tree) :: children, type, name, value, childV, h, hfits => by
    rw [RegularAll] at h
    rw [eatChildren, eatCompound_eq tree (cString n) _ h.1 (hfits (n, tree) List.mem_cons_self), grown_mk,
      eatChildren_eq children _ name value _ h.2 (fun c hc => hfits c (List.mem_cons_of_mem _ hc)), eatenAll,
      List.append_assoc, List.singleton_append]
    have hturns : turns ((n, tree) :: children) = (turnsVector (cString n) tree || turns children) := by
      simp [turns]
    rw [hturns]
    cases turnsVector (cString n) tree <;> cases turns children <;> rfl
end

/-! ## When it is the expected tree -/

mutual
/-- Every array has an element other than the empty string, and no name has a NUL in it. -/
def Kept : PropertyTree → Prop
  | .node _ children =>
    (children ≠ [] → Unnamed children → ∃ c ∈ children, isEmptyText c.2 = false) ∧ KeptAll children
def KeptAll : List (String × PropertyTree) → Prop
  | [] => True
  | (name, tree) :: children => '\x00' ∉ name.toList ∧ Kept tree ∧ KeptAll children
end

theorem childName_cString_iff (name : String) : childName (cString name) = childName name ↔ '\x00' ∉ name.toList := by
  show _ ↔ NoNul name
  rw [← cString_eq_iff]
  constructor
  · intro h
    by_cases hname : name = ""
    · rw [hname, cString_empty]
    · by_cases hcut : cString name = ""
      · -- nothing is left of the name, so it is not `item`
        have hitem : "item" = name := by simpa [childName, hname, hcut] using h
        rw [← hitem]
        decide
      · simpa [childName, hname, hcut] using h
  · intro h
    rw [h]

theorem KeptAll.names {children : List (String × PropertyTree)} (h : KeptAll children) :
    ∀ c ∈ children, cString c.1 = c.1 := by
  induction children with
  | nil => simp
  | cons c children ih =>
    rw [KeptAll] at h
    exact List.forall_mem_cons.2 ⟨(cString_eq_iff c.1).2 h.1, ih h.2.2⟩

theorem Unnamed.turns_iff {children : List (String × PropertyTree)} (hunnamed : Unnamed children) : turns children = true ↔ ∃ c ∈ children, isEmptyText c.2 = false := by
  unfold turns turnsVector
  rw [List.any_eq_true]
  constructor
  · rintro ⟨c, hc, ht⟩
    exact ⟨c, hc, by simpa [hunnamed c hc, cString_empty] using ht⟩
  · rintro ⟨c, hc, ht⟩
    exact ⟨c, hc, by simp [hunnamed c hc, cString_empty, ht]⟩

theorem KeptAll.turns_named {children : List (String × PropertyTree)} (h : KeptAll children)
    (hnamed : Named children) : turns children = false := by
  unfold turns turnsVector
  rw [List.any_eq_false]
  intro c hc
  simp [h.names c hc, hnamed.ne c hc]

mutual
theorem eaten_eq_expected_iff : ∀ (tree : PropertyTree) (name : String), Regular tree →
    (eaten (cString name) tree = expected (childName name) tree ↔ '\x00' ∉ name.toList ∧ Kept tree)
  | .node data children, name, h => by
    rw [Regular] at h
    obtain ⟨_, hinner, hall⟩ := h
    have hchildren := eatenAll_eq_expectedAll_iff children hall
    rw [eaten, expected, Kept]
    by_cases hleaf : children = []
    · subst hleaf
      simp [childName_cString_iff, KeptAll]
    · have hcontainer : children.isEmpty = false := by simpa using hleaf
      simp only [hcontainer, Bool.false_eq_true, if_false]
      rw [CompoundValueNode.mk.injEq, childName_cString_iff, hchildren]
      simp only [hleaf, ne_eq, not_false_eq_true, forall_const, true_and]
      constructor
      · rintro ⟨htype, hname, hkept⟩
        refine ⟨hname, fun hunnamed => ?_, hkept⟩
        rw [← hunnamed.turns_iff]
        by_contra hturns
        rw [hunnamed.isArray, if_pos rfl, if_neg hturns] at htype
        cases htype
      · rintro ⟨hname, harray, hkept⟩
        refine ⟨?_, hname, hkept⟩
        obtain hunnamed | hnamed := (hinner hleaf).2
        · rw [hunnamed.isArray, (hunnamed.turns_iff).2 (harray hunnamed)]
        · rw [hnamed.not_isArray hleaf, hkept.turns_named hnamed]
theorem eatenAll_eq_expectedAll_iff : ∀ (children : List (String × PropertyTree)), RegularAll children →
    (eatenAll children = expectedAll children ↔ KeptAll children)
  | [], _ => by simp [eatenAll, expectedAll, KeptAll]
  | (name, tree) :: children, h => by
    rw [RegularAll] at h
    rw [eatenAll, expectedAll, KeptAll, List.cons.injEq, eaten_eq_expected_iff tree name h.1,
      eatenAll_eq_expectedAll_iff children h.2, and_assoc]
end

/-- **The compound tree is right** for exactly the values in which every array has an element other than the empty
string and no name has a NUL in it. -/
theorem compound_tree_iff (children : List (String × PropertyTree)) (hne : children ≠ [])
    (hregular : Regular (.node "" children)) :
    (eatToplevel children = (expected "toplevel" (.node "" children), none) ∧
      (eatToplevel children).1.finish = "OK") ↔ Kept (.node "" children) := by
  have hall : RegularAll children := by
    rw [Regular] at hregular
    exact hregular.2.2
  have hname : cString "toplevel" = "toplevel" := by decide
  have heaten : eatToplevel children = (eaten (cString "toplevel") (.node "" children), none) := by
    have := eatChildren_eq children .object "toplevel" "" [] hall (fits_children hregular)
    have hcontainer : children.isEmpty = false := by simpa using hne
    rw [eatToplevel, toplevel, this, eaten, hname]
    simp [hcontainer, childName]
  have hiff := eaten_eq_expected_iff (.node "" children) "toplevel" hregular
  have hnul : '\x00' ∉ "toplevel".toList := by decide
  constructor
  · rintro ⟨htree, _⟩
    rw [heaten] at htree
    exact (hiff.1 (Prod.mk.inj htree).1).2
  · intro hkept
    have htree : eatToplevel children = (expected "toplevel" (.node "" children), none) := by
      rw [heaten, hiff.2 ⟨hnul, hkept⟩]
      rfl
    refine ⟨htree, ?_⟩
    rw [htree, finish, expected_check _ _ _ hregular]
    rfl

def text (s : String) : PropertyTree := .node s []

/-- The children of `["a", {"b": "c"}]`. -/
def mixedItems : List (String × PropertyTree) := [("", text "a"), ("", .node "" [("b", text "c")])]

theorem mixedItems_read :
    eatToplevel mixedItems = (expected "toplevel" (.node "" mixedItems), none) ∧
      (eatToplevel mixedItems).1.finish = "OK" := by
  have hb : Named [("b", text "c")] := ⟨by simp, by simp, by simp [text, isEmptyText]⟩
  have hmembers : Regular (.node "" [("b", text "c")]) := by
    simp only [Regular, RegularAll, text]
    exact ⟨by simp, fun _ => ⟨trivial, .inr hb⟩, ⟨fun _ => by decide, by simp, trivial⟩, trivial⟩
  have hitems : Regular (.node "" mixedItems) := by
    rw [Regular]
    refine ⟨by simp [mixedItems], fun _ => ⟨rfl, .inl (by simp [Unnamed, mixedItems])⟩, ?_⟩
    rw [mixedItems, RegularAll, RegularAll, RegularAll]
    exact ⟨by simp only [Regular, RegularAll, text]; exact ⟨fun _ => by decide, by simp, trivial⟩, hmembers, trivial⟩
  refine (compound_tree_iff mixedItems (by simp [mixedItems]) hitems).2 ?_
  simp only [Kept, KeptAll, mixedItems, text]
  simp [isEmptyText, Unnamed]

/-- The children of `["", ""]`. -/
def emptyTexts : List (String × PropertyTree) := [("", text ""), ("", text "")]

/-- **An array of empty strings** stays an object, with two members of one name. -/
theorem emptyTexts_misread :
    Regular (.node "" emptyTexts) ∧ (eatToplevel emptyTexts).1.type = .object ∧
    (eatToplevel emptyTexts).1.finish = "duplicated tag-name: /item/ in path: /" ∧
    ¬ (eatToplevel emptyTexts = (expected "toplevel" (.node "" emptyTexts), none) ∧
      (eatToplevel emptyTexts).1.finish = "OK") := by
  have hfinish : (eatToplevel emptyTexts).1.finish = "duplicated tag-name: /item/ in path: /" := by decide
  refine ⟨?_, rfl, hfinish, ?_⟩
  · rw [Regular]
    refine ⟨by simp [emptyTexts], fun _ => ⟨rfl, .inl (by simp [Unnamed, emptyTexts])⟩, ?_⟩
    simp only [emptyTexts, RegularAll, Regular, text]
    refine ⟨⟨fun _ => by decide, by simp, trivial⟩, ⟨fun _ => by decide, by simp, trivial⟩, trivial⟩
  · rintro ⟨_, hok⟩
    rw [hfinish] at hok
    exact absurd hok (by decide)

end OrionBroker.Json
