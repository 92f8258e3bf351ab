import OrionBroker.Parse.Xml

/-!
# The compound tree of an XML value (xmlParse.cpp:168-246)

An element without text is a container, and the recursion goes on below it. An element with text is a string, and the
recursion goes on below it as well, but with the container the string was added to.

| here | there |
| --- | --- |
| `expected` | the node of an element, with the nodes of its named children below it |
| `eaten`    | the nodes `eatCompound` adds to the container for it |

`nesting_kept_iff` says that elements with both text and children are all that goes wrong.
-/

namespace OrionBroker.Xml

open CompoundValueNode

/-- What `type` says of a container without text: `vector`, or nothing. -/
def elementType (attributes : List (String × String)) : NodeType :=
  if xmlTypeAttributeGet attributes = "vector" then .vector else .object

mutual
def expected : XmlTree → CompoundValueNode
  | .node nodeName nodeValue attributes children =>
    if strip nodeValue = "" then .mk (elementType attributes) (strip nodeName) "" (expectedAll children)
    else .mk .string (strip nodeName) (strip nodeValue) (expectedAll children)
def expectedAll : List XmlTree → List CompoundValueNode
  | [] => []
  | child :: children => if isNamed child then expected child :: expectedAll children else expectedAll children
end

/-- The root stands for the `contextValue` element. -/
def expectedRoot : XmlTree → CompoundValueNode
  | .node _ _ attributes children => .mk (elementType attributes) "toplevel" "" (expectedAll children)

mutual
def eaten : XmlTree → List CompoundValueNode
  | .node nodeName nodeValue attributes children =>
    if strip nodeValue = "" then [.mk (elementType attributes) (strip nodeName) "" (eatenAll children)]
    else .mk .string (strip nodeName) (strip nodeValue) [] :: eatenAll children
def eatenAll : List XmlTree → List CompoundValueNode
  | [] => []
  | child :: children => if isNamed child then eaten child ++ eatenAll children else eatenAll children
end

/-! ## What `eatCompound` adds -/

theorem containerType_eq {attributes : List (String × String)} {type : NodeType}
    (h : containerType (xmlTypeAttributeGet attributes) = some type) : type = elementType attributes := by
  unfold containerType at h
  unfold elementType
  split at h
  · rename_i hvector
    rw [if_pos hvector]
    exact (Option.some.inj h).symm
  · rename_i hvector
    rw [if_neg hvector]
    split at h
    · exact (Option.some.inj h).symm
    · cases h

mutual
/-- An error is never taken back, and without one the container has the nodes of the element in addition. -/
theorem eatCompound_ok : ∀ (e : XmlTree) (type : NodeType) (name value : String) (childV : List CompoundValueNode)
    (error : Option String), (eatCompound e (.mk type name value childV, error)).2 = none →
    error = none ∧ eatCompound e (.mk type name value childV, error) = (.mk type name value (childV ++ eaten e), none)
  | .node nodeName nodeValue attributes children, type, name, value, childV, error => by
    intro h
    by_cases hvalue : strip nodeValue = ""
    · cases htype : containerType (xmlTypeAttributeGet attributes) with
      | none => simp [eatCompound, hvalue, htype] at h
      | some t =>
        simp only [eatCompound, hvalue, htype, if_true] at h ⊢
        obtain ⟨herror, hchildren⟩ := eatChildren_ok children t (strip nodeName) "" [] error h
        refine ⟨herror, ?_⟩
        rw [hchildren, eaten, if_pos hvalue, containerType_eq htype]
        rfl
    · by_cases hforbidden : forbiddenChars (strip nodeValue) = true
      · simp [eatCompound, hvalue, hforbidden] at h
      · simp only [eatCompound, hvalue, hforbidden, if_false, add, push, Bool.false_eq_true] at h ⊢
        obtain ⟨herror, hchildren⟩ := eatChildren_ok children type name value _ error h
        refine ⟨herror, ?_⟩
        rw [hchildren, eaten, if_neg hvalue, List.append_assoc]
        rfl
theorem eatChildren_ok : ∀ (children : List XmlTree) (type : NodeType) (name value : String)
    (childV : List CompoundValueNode) (error : Option String),
    (eatChildren children (.mk type name value childV, error)).2 = none →
    error = none ∧
      eatChildren children (.mk type name value childV, error) = (.mk type name value (childV ++ eatenAll children), none)
  | [], type, name, value, childV, error => by
    intro h
    rw [eatChildren] at h
    simp only at h
    simp [eatChildren, eatenAll, h]
  | child :: children, type, name, value, childV, error => by
    intro h
    rw [eatChildren] at h ⊢
    rw [eatenAll]
    by_cases hnamed : isNamed child = true
    · rw [if_pos hnamed] at h ⊢
      rw [if_pos hnamed]
      rcases hchild : eatCompound child (.mk type name value childV, error) with ⟨⟨t, n, v, cs⟩, e⟩
      rw [hchild] at h
      -- the error of the child would have stayed
      obtain ⟨he, hrest⟩ := eatChildren_ok children t n v cs e h
      obtain ⟨herror, heaten⟩ := eatCompound_ok child type name value childV error (by rw [hchild, he])
      obtain ⟨hgrown, -⟩ := Prod.mk.inj (hchild.symm.trans heaten)
      cases hgrown
      exact ⟨herror, by rw [hrest, List.append_assoc]⟩
    · rw [if_neg hnamed] at h ⊢
      rw [if_neg hnamed]
      exact eatChildren_ok children type name value childV error h
end

theorem eatToplevel_ok {e : XmlTree} {root : CompoundValueNode} (h : eatToplevel e = (some root, none)) :
    ∃ name value attributes children, e = .node name value attributes children ∧
      root = .mk (elementType attributes) "toplevel" "" (eatenAll children) := by
  obtain ⟨name, value, attributes, children⟩ := e
  refine ⟨name, value, attributes, children, rfl, ?_⟩
  rw [eatToplevel] at h
  cases htype : containerType (xmlTypeAttributeGet attributes) with
  | none => simp [htype] at h
  | some type =>
    simp only [htype] at h
    obtain ⟨hroot, herror⟩ := Prod.mk.inj h
    rw [toplevel] at hroot herror
    have hchildren := (eatChildren_ok children type "toplevel" "" [] none herror).2
    rw [hchildren] at hroot
    rw [← Option.some.inj hroot, containerType_eq htype, List.nil_append]

/-! ## When it is the expected tree -/

mutual
/-- No element with text has a named child. -/
def Unmixed : XmlTree → Prop
  | .node _ nodeValue _ children =>
    (strip nodeValue ≠ "" → children.any isNamed = false) ∧ UnmixedAll children
def UnmixedAll : List XmlTree → Prop
  | [] => True
  | child :: children => (isNamed child = true → Unmixed child) ∧ UnmixedAll children
end

theorem eaten_ne_nil (e : XmlTree) : eaten e ≠ [] := by
  obtain ⟨nodeName, nodeValue, attributes, children⟩ := e
  rw [eaten]
  split <;> simp

/-- There is a node for every named child at least. -/
theorem length_expectedAll_le (children : List XmlTree) : (expectedAll children).length ≤ (eatenAll children).length := by
  induction children with
  | nil => simp [expectedAll]
  | cons child children ih =>
    rw [expectedAll, eatenAll]
    split
    · have hpos := List.length_pos_iff.2 (eaten_ne_nil child)
      rw [List.length_cons, List.length_append]
      omega
    · exact ih

/-- So the nodes match one by one, or not at all. -/
theorem eaten_append_eq_iff (child : XmlTree) (children : List XmlTree) (node : CompoundValueNode) :
    eaten child ++ eatenAll children = node :: expectedAll children ↔
      eaten child = [node] ∧ eatenAll children = expectedAll children := by
  constructor
  · intro h
    obtain ⟨first, more, hfirst⟩ := List.exists_cons_of_ne_nil (eaten_ne_nil child)
    rw [hfirst, List.cons_append, List.cons.injEq] at h
    have hlength := congrArg List.length h.2
    have hle := length_expectedAll_le children
    rw [List.length_append] at hlength
    obtain rfl : more = [] := List.length_eq_zero_iff.1 (by omega)
    exact ⟨by rw [hfirst, h.1], h.2⟩
  · rintro ⟨hchild, hchildren⟩
    rw [hchild, hchildren]
    rfl

theorem eatenAll_eq_nil_iff (children : List XmlTree) : eatenAll children = [] ↔ children.any isNamed = false := by
  induction children with
  | nil => simp [eatenAll]
  | cons child children ih =>
    rw [eatenAll, List.any_cons]
    by_cases hnamed : isNamed child = true
    · simp [hnamed, eaten_ne_nil]
    · simpa [hnamed] using ih

theorem expectedAll_eq_nil {children : List XmlTree} (h : children.any isNamed = false) : expectedAll children = [] := by
  have hle := length_expectedAll_le children
  rw [(eatenAll_eq_nil_iff children).2 h] at hle
  exact List.length_eq_zero_iff.1 (Nat.le_zero.1 hle)

theorem unmixedAll_of_none {children : List XmlTree} (h : children.any isNamed = false) : UnmixedAll children := by
  induction children with
  | nil => trivial
  | cons child children ih =>
    rw [List.any_cons, Bool.or_eq_false_iff] at h
    rw [UnmixedAll]
    exact ⟨by simp [h.1], ih h.2⟩

mutual
theorem eaten_eq_iff : ∀ e : XmlTree, eaten e = [expected e] ↔ Unmixed e
  | .node nodeName nodeValue attributes children => by
    rw [eaten, expected, Unmixed]
    by_cases hvalue : strip nodeValue = ""
    · simp [hvalue, eatenAll_eq_iff children]
    · rw [if_neg hvalue, if_neg hvalue, List.cons.injEq, eatenAll_eq_nil_iff]
      constructor
      · rintro ⟨_, hnone⟩
        exact ⟨fun _ => hnone, unmixedAll_of_none hnone⟩
      · rintro ⟨hnone, _⟩
        rw [expectedAll_eq_nil (hnone hvalue)]
        exact ⟨rfl, hnone hvalue⟩
theorem eatenAll_eq_iff : ∀ children : List XmlTree, eatenAll children = expectedAll children ↔ UnmixedAll children
  | [] => by simp [eatenAll, expectedAll, UnmixedAll]
  | child :: children => by
    rw [eatenAll, expectedAll, UnmixedAll]
    by_cases hnamed : isNamed child = true
    · simp only [hnamed, if_true, forall_const]
      rw [eaten_append_eq_iff, eaten_eq_iff child, eatenAll_eq_iff children]
    · simpa [hnamed] using eatenAll_eq_iff children
end

/-- Of the `contextValue` element itself the text is not looked at here. -/
def UnmixedBelow : XmlTree → Prop
  | .node _ _ _ children => UnmixedAll children

/-- **Nesting is preserved**, where there is no error, exactly when no element below the value has both text and a
named child. -/
theorem nesting_kept_iff (e : XmlTree) (root : CompoundValueNode) (hok : eatToplevel e = (some root, none)) :
    root = expectedRoot e ↔ UnmixedBelow e := by
  obtain ⟨name, value, attributes, children, rfl, rfl⟩ := eatToplevel_ok hok
  rw [expectedRoot, UnmixedBelow, ← eatenAll_eq_iff, CompoundValueNode.mk.injEq]
  simp

def element (name value : String) (children : List XmlTree) : XmlTree := .node name value [] children

/-- `<contextValue type="vector"><a> 1 </a><a><b>2</b></a></contextValue>`. -/
def nested : XmlTree :=
  .node "contextValue" "" [("type", "vector")] [element "a" " 1 " [], element "a" "" [element "b" "2" []]]

def nestedTree : CompoundValueNode :=
  .mk .vector "toplevel" "" [.mk .string "a" "1" [], .mk .object "a" "" [.mk .string "b" "2" []]]

theorem nested_kept : nestedTree = expectedRoot nested := by
  have hok : eatToplevel nested = (some nestedTree, none) := by rfl
  have hone : strip " 1 " ≠ "" := by decide
  have htwo : strip "2" ≠ "" := by decide
  refine (nesting_kept_iff nested nestedTree hok).2 ?_
  simp [nested, element, UnmixedBelow, UnmixedAll, Unmixed, hone, htwo]
  decide

/-- `<contextValue><a>1<b>2</b></a></contextValue>`. -/
def mixed : XmlTree := .node "contextValue" "" [] [element "a" "1" [element "b" "2" []]]

def flattened : CompoundValueNode := .mk .object "toplevel" "" [.mk .string "a" "1" [], .mk .string "b" "2" []]

/-- **An element with text and a child**: the child becomes a sibling, and there is no error. -/
theorem mixed_flattened :
    eatToplevel mixed = (some flattened, none) ∧ flattened.finish = "OK" ∧ ¬ flattened = expectedRoot mixed := by
  have hexpected : expectedRoot mixed =
      .mk .object "toplevel" "" [.mk .string "a" "1" [.mk .string "b" "2" []]] := by rfl
  refine ⟨by rfl, by decide, ?_⟩
  intro h
  rw [hexpected] at h
  simp [flattened] at h

end OrionBroker.Xml
