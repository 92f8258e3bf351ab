import OrionBroker.Parse.Attached

/-!
# Forbidden characters in a parsed request

Both parsers test what they put into a request with `forbiddenChars`, each in two places. The tests miss some of it:
the names of compound values, the items of a JSON vector, the text of an XML node that has attributes, and what
follows a NUL in a JSON text, since the test is on the C string.

* `hasForbidden`   - a forbidden character anywhere in the text
* `visits`         - the nodes of a payload that the walk comes to
* `putIn`          - what they put into the request
* `slips`, `Tight` - what no test looks at, and that there is nothing forbidden in it

`forbidden_iff`: a payload that is accepted has put nothing forbidden into the request if and only if it is tight.
-/

namespace OrionBroker

/-! ## Texts -/

def hasForbidden (s : String) : Bool := s.toList.any isForbidden

/-- In what follows the first NUL. -/
def forbiddenAfterNul (s : String) : Bool := (s.toList.dropWhile (· != '\x00')).any isForbidden

theorem hasForbidden_eq (s : String) : hasForbidden s = (forbiddenChars s || forbiddenAfterNul s) := by
  unfold hasForbidden forbiddenChars forbiddenAfterNul cStr
  conv_lhs => rw [← List.takeWhile_append_dropWhile (p := (· != '\x00')) (l := s.toList), List.any_append]

/-- A C string has nothing behind a NUL. -/
theorem forbiddenAfterNul_ofList {l : List Char} (h : ∀ c ∈ l, c ≠ '\x00') :
    forbiddenAfterNul (String.ofList l) = false := by
  have hdrop : l.dropWhile (· != '\x00') = [] := List.dropWhile_eq_nil_iff.2 fun c hc => by simpa using h c hc
  unfold forbiddenAfterNul
  rw [String.toList_ofList, hdrop]
  rfl

theorem ne_nul_of_mem_cStr {s : String} {c : Char} (h : c ∈ cStr s) : c ≠ '\x00' := by
  simpa using List.mem_takeWhile_imp h

theorem mem_of_mem_wsStrip {l : List Char} {c : Char} (h : c ∈ wsStrip l) : c ∈ l :=
  (List.dropWhile_sublist isWs).subset ((List.rdropWhile_prefix isWs _).subset h)

theorem hasForbidden_strip (s : String) : hasForbidden (Xml.strip s) = forbiddenChars (Xml.strip s) := by
  rw [hasForbidden_eq, Xml.strip, forbiddenAfterNul_ofList fun c hc => ne_nul_of_mem_cStr (mem_of_mem_wsStrip hc),
    Bool.or_false]

theorem hasForbidden_cString (s : String) : hasForbidden (cString s) = forbiddenChars s := by
  unfold hasForbidden cString forbiddenChars
  rw [String.toList_ofList]

/-! ## Compound trees -/

namespace CompoundValueNode

mutual
/-- The names and values of the nodes. -/
def strings : CompoundValueNode → List String
  | mk _ name value childV => name :: value :: childStrings childV
def childStrings : List CompoundValueNode → List String
  | [] => []
  | child :: childV => child.strings ++ childStrings childV
end

def dirty (node : CompoundValueNode) : Bool := node.strings.any hasForbidden

theorem childStrings_append (childV childV' : List CompoundValueNode) :
    childStrings (childV ++ childV') = childStrings childV ++ childStrings childV' := by
  induction childV with
  | nil => rfl
  | cons child childV ih => rw [List.cons_append, childStrings, childStrings, ih, List.append_assoc]

theorem dirty_push (container child : CompoundValueNode) :
    (container.push child).dirty = (container.dirty || child.dirty) := by
  obtain ⟨type, name, value, childV⟩ := container
  simp only [dirty, push, strings, childStrings_append, childStrings, List.any_cons, List.any_append,
    List.append_nil, Bool.or_assoc]

theorem dirty_add (container : CompoundValueNode) (type : NodeType) (name value : String) :
    (container.add type name value).dirty = (container.dirty || (hasForbidden name || hasForbidden value)) := by
  rw [add, dirty_push]
  simp [dirty, strings, childStrings]

theorem dirty_toVector (container : CompoundValueNode) : container.toVector.dirty = container.dirty := by
  obtain ⟨type, name, value, childV⟩ := container
  rfl

theorem dirty_mk_nil (type : NodeType) (name : String) : (mk type name "" []).dirty = hasForbidden name := by
  simp [dirty, strings, childStrings, show hasForbidden "" = false from rfl]

end CompoundValueNode

namespace Json

mutual
/-- A name, an item of a vector, or what follows a NUL. -/
def slips (nodeName : String) : PropertyTree → Bool
  | .node nodeValue children =>
    (if nodeName = "" then hasForbidden nodeValue else hasForbidden nodeName || forbiddenAfterNul nodeValue) ||
      slipsChildren children
def slipsChildren : List (String × PropertyTree) → Bool
  | [] => false
  | (name, tree) :: children => slips (cString name) tree || slipsChildren children
end

mutual
theorem eatCompound_dirty : ∀ (nodeName : String) (tree : PropertyTree) (containerP : CompoundValueNode)
    (error : Option String), (eatCompound nodeName tree (containerP, error)).2 = none →
    error = none ∧ (eatCompound nodeName tree (containerP, error)).1.dirty = (containerP.dirty || slips nodeName tree)
  | nodeName, .node nodeValue children, containerP, error => by
    intro h
    have hempty : hasForbidden "" = false := rfl
    have hitem : hasForbidden "item" = false := by decide
    rw [slips]
    rw [eatCompound] at h ⊢
    by_cases hn : nodeName = ""
    · by_cases hv : nodeValue = ""
      · subst hn hv
        by_cases hc : children.isEmpty = true
        · have hnil : children = [] := List.isEmpty_iff.1 hc
          subst hnil
          refine ⟨h, ?_⟩
          show (containerP.add .string "item" "").dirty = _
          rw [CompoundValueNode.dirty_add, hitem, hempty]
          rfl
        · simp only [hc, ne_eq, not_true_eq_false, Bool.false_eq_true, false_and, and_false, if_false, and_self,
            if_true] at h ⊢
          obtain ⟨herror, hdirty⟩ := eatChildren_dirty children (.mk .object "item" "" []) error h
          refine ⟨herror, ?_⟩
          rw [CompoundValueNode.dirty_push, CompoundValueNode.dirty_toVector, hdirty, CompoundValueNode.dirty_mk_nil,
            hitem, hempty]
      · subst hn
        simp only [hv, ne_eq, not_true_eq_false, false_and, and_false, if_false, if_true] at h ⊢
        obtain ⟨herror, hdirty⟩ := eatChildren_dirty children (containerP.toVector.add .string "item" nodeValue) error h
        refine ⟨herror, hdirty.trans ?_⟩
        rw [CompoundValueNode.dirty_add, CompoundValueNode.dirty_toVector, hitem, Bool.false_or, Bool.or_assoc]
    · rw [if_neg hn]
      by_cases hv : nodeValue = ""
      · subst hv
        simp only [hn, ne_eq, not_true_eq_false, not_false_eq_true, false_and, and_false, if_false, and_self,
          if_true] at h ⊢
        obtain ⟨herror, hdirty⟩ := eatChildren_dirty children (.mk .object nodeName "" []) error h
        refine ⟨herror, ?_⟩
        rw [CompoundValueNode.dirty_push, hdirty, CompoundValueNode.dirty_mk_nil,
          show forbiddenAfterNul "" = false from rfl, Bool.or_false]
      · rw [if_pos ⟨hn, hv⟩] at h ⊢
        cases hf : forbiddenChars nodeValue with
        | true =>
          rw [hf] at h
          cases h
        | false =>
          rw [hf] at h
          obtain ⟨herror, hdirty⟩ := eatChildren_dirty children (containerP.add .string nodeName nodeValue) error h
          refine ⟨herror, hdirty.trans ?_⟩
          rw [CompoundValueNode.dirty_add, hasForbidden_eq nodeValue, hf, Bool.false_or, Bool.or_assoc]
theorem eatChildren_dirty : ∀ (children : List (String × PropertyTree)) (containerP : CompoundValueNode)
    (error : Option String), (eatChildren children (containerP, error)).2 = none →
    error = none ∧ (eatChildren children (containerP, error)).1.dirty = (containerP.dirty || slipsChildren children)
  | [], containerP, error => fun h => ⟨h, by rw [slipsChildren, Bool.or_false]; rfl⟩
  | (name, tree) :: children, containerP, error => by
    intro h
    rw [eatChildren] at h ⊢
    obtain ⟨hrest, hdirty⟩ := eatChildren_dirty children (eatCompound (cString name) tree (containerP, error)).1
      (eatCompound (cString name) tree (containerP, error)).2 h
    obtain ⟨herror, hone⟩ := eatCompound_dirty (cString name) tree containerP error hrest
    refine ⟨herror, hdirty.trans ?_⟩
    rw [hone, slipsChildren, Bool.or_assoc]
end

theorem eatToplevel_dirty {children : List (String × PropertyTree)} (h : (eatToplevel children).2 = none) :
    (eatToplevel children).1.dirty = slipsChildren children := by
  rw [eatToplevel, (eatChildren_dirty children _ _ h).2]
  have htop : (CompoundValueNode.toplevel .object).dirty = false := by decide
  rw [htop, Bool.false_or]

end Json

namespace Xml

mutual
/-- A name. -/
def slips : XmlTree → Bool
  | .node nodeName _ _ children => hasForbidden (strip nodeName) || slipsChildren children
def slipsChildren : List XmlTree → Bool
  | [] => false
  | child :: children => (isNamed child && slips child) || slipsChildren children
end

mutual
theorem eatCompound_dirty : ∀ (tree : XmlTree) (containerP : CompoundValueNode) (error : Option String),
    (eatCompound tree (containerP, error)).2 = none →
    error = none ∧ (eatCompound tree (containerP, error)).1.dirty = (containerP.dirty || slips tree)
  | .node nodeName nodeValue attributes children, containerP, error => by
    intro h
    rw [slips]
    rw [eatCompound] at h ⊢
    dsimp only at h ⊢
    by_cases hv : strip nodeValue = ""
    · rw [if_pos hv] at h ⊢
      cases ht : containerType (xmlTypeAttributeGet attributes) with
      | none =>
        rw [ht] at h
        cases h
      | some type =>
        rw [ht] at h
        obtain ⟨herror, hdirty⟩ := eatChildren_dirty children (.mk type (strip nodeName) "" []) error h
        refine ⟨herror, ?_⟩
        rw [CompoundValueNode.dirty_push, hdirty, CompoundValueNode.dirty_mk_nil]
    · rw [if_neg hv] at h ⊢
      cases hf : forbiddenChars (strip nodeValue) with
      | true =>
        rw [hf] at h
        cases h
      | false =>
        rw [hf] at h
        obtain ⟨herror, hdirty⟩ :=
          eatChildren_dirty children (containerP.add .string (strip nodeName) (strip nodeValue)) error h
        refine ⟨herror, hdirty.trans ?_⟩
        rw [CompoundValueNode.dirty_add, hasForbidden_strip nodeValue, hf, Bool.or_false, Bool.or_assoc]
theorem eatChildren_dirty : ∀ (children : List XmlTree) (containerP : CompoundValueNode) (error : Option String),
    (eatChildren children (containerP, error)).2 = none →
    error = none ∧ (eatChildren children (containerP, error)).1.dirty = (containerP.dirty || slipsChildren children)
  | [], containerP, error => fun h => ⟨h, by rw [slipsChildren, Bool.or_false]; rfl⟩
  | child :: children, containerP, error => by
    intro h
    rw [slipsChildren]
    rw [eatChildren] at h ⊢
    cases hn : isNamed child with
    | false =>
      rw [hn] at h
      obtain ⟨herror, hdirty⟩ := eatChildren_dirty children containerP error h
      refine ⟨herror, hdirty.trans ?_⟩
      rw [Bool.false_and, Bool.false_or]
    | true =>
      rw [hn] at h
      obtain ⟨hrest, hdirty⟩ := eatChildren_dirty children (eatCompound child (containerP, error)).1
        (eatCompound child (containerP, error)).2 h
      obtain ⟨herror, hone⟩ := eatCompound_dirty child containerP error hrest
      refine ⟨herror, hdirty.trans ?_⟩
      rw [hone, Bool.true_and, Bool.or_assoc]
end

end Xml

/-! ## What a parse leaves in the request -/

variable {S D : Type}

/-- An entry of a parse vector, with the texts of the node that its treat function stores. -/
structure StoringNode (S D : Type) where
  node : ParseNode S D
  stored : S → List String

/-- The entry, keeping what is stored beside what it fills. -/
def StoringNode.recording (entry : StoringNode S D) : ParseNode S (D × List String) where
  path := entry.node.path
  use := entry.node.use
  fill source d := (entry.node.fill source d.1).map fun rest => (rest, d.2 ++ entry.stored source)

/-- The compound values of the request. -/
def ParseData.trees (d : ParseData D) : List CompoundValueNode :=
  d.attributes.filterMap id ++ d.upcarAttribute.toList ++ d.upcarRes.toList

/-- The texts of the request: simple values, and the names and values in compound ones. -/
def ParseState.strings (s : ParseState (D × List String)) : List String :=
  s.parseDataP.rest.2 ++ s.parseDataP.trees.flatMap CompoundValueNode.strings

/-- From `s` to `s'` these texts and these compound values are put into the request, and nothing else. A later compound
value may replace an earlier one. -/
structure Puts (s s' : ParseState (D × List String)) (texts : List String) (roots : List CompoundValueNode) : Prop where
  texts : s'.parseDataP.rest.2 = s.parseDataP.rest.2 ++ texts
  trees : ∀ root ∈ s'.parseDataP.trees, root ∈ s.parseDataP.trees ∨ root ∈ roots

theorem Puts.refl (s : ParseState (D × List String)) : Puts s s [] [] :=
  ⟨(List.append_nil _).symm, fun _ h => .inl h⟩

theorem Puts.trans {s s' s'' : ParseState (D × List String)} {texts texts' : List String}
    {roots roots' : List CompoundValueNode} (h : Puts s s' texts roots) (h' : Puts s' s'' texts' roots') :
    Puts s s'' (texts ++ texts') (roots ++ roots') := by
  refine ⟨by rw [h'.texts, h.texts, List.append_assoc], fun root hroot => ?_⟩
  rcases h'.trees root hroot with hroot | hroot
  · rcases h.trees root hroot with hroot | hroot
    · exact .inl hroot
    · exact .inr (List.mem_append_left _ hroot)
  · exact .inr (List.mem_append_right _ hroot)

/-- A treat function puts in its texts. -/
theorem recording_treat {entry : StoringNode S D} {source : S} {s : ParseState (D × List String)}
    {d : ParseData (D × List String)} (h : entry.recording.treat source s.parseDataP = .ok d) :
    Puts s { s with parseDataP := d } (entry.stored source) [] := by
  have hrest : ∀ {rest : D × List String}, entry.recording.fill source s.parseDataP.rest = some rest →
      rest.2 = s.parseDataP.rest.2 ++ entry.stored source := by
    intro rest hfill
    obtain ⟨rest', _, rfl⟩ := Option.map_eq_some_iff.1 hfill
    rfl
  unfold ParseNode.treat at h
  split at h
  · cases h
  · rename_i rest hfill
    have hold : ∀ root ∈ s.parseDataP.trees, root ∈ s.parseDataP.trees ∨ root ∈ ([] : List CompoundValueNode) :=
      fun _ hroot => .inl hroot
    split at h
    · cases h; exact ⟨hrest hfill, hold⟩
    · cases h
      refine ⟨hrest hfill, fun root hroot => .inl ?_⟩
      unfold ParseData.trees at hroot ⊢
      dsimp only at hroot
      rwa [List.filterMap_append, show [none].filterMap (id : Option CompoundValueNode → _) = [] from rfl,
        List.append_nil] at hroot
    · cases h
    · cases h; exact ⟨hrest hfill, hold⟩
    · cases h
    · cases h; exact ⟨hrest hfill, hold⟩
    · cases h; exact ⟨hrest hfill, hold⟩

theorem mem_trees {d : ParseData D} {root : CompoundValueNode} :
    root ∈ d.trees ↔ some root ∈ d.attributes ∨ d.upcarAttribute = some root ∨ d.upcarRes = some root := by
  simp only [ParseData.trees, List.mem_append, List.mem_filterMap, id_eq, exists_eq_right, Option.mem_toList,
    or_assoc]

theorem attach_trees {root : CompoundValueNode} {d d' : ParseData D} (h : d.attach root = some d') :
    d'.rest = d.rest ∧ ∀ tree ∈ d'.trees, tree ∈ d.trees ∨ tree ∈ [root] := by
  unfold ParseData.attach at h
  split at h
  · cases h
  · cases h
    refine ⟨rfl, fun tree htree => ?_⟩
    rcases mem_trees.1 htree with htree | htree | htree
    · exact .inl (mem_trees.2 (.inl htree))
    · cases htree
      exact .inr List.mem_cons_self
    · exact .inl (mem_trees.2 (.inr (.inr htree)))
  · rename_i i _
    cases h
    refine ⟨rfl, fun tree htree => ?_⟩
    rcases mem_trees.1 htree with htree | htree
    · rcases List.mem_or_eq_of_mem_set htree with htree | htree
      · exact .inl (mem_trees.2 (.inl htree))
      · cases htree
        exact .inr List.mem_cons_self
    · exact .inl (mem_trees.2 (.inr htree))

theorem finished_ok {ciP : ConnectionInfo} {root : CompoundValueNode} (h : (ciP.finished root).httpStatusCode = .ok) :
    ciP.httpStatusCode = .ok := by
  unfold ConnectionInfo.finished at h
  split at h
  · exact h
  · cases h

/-- The end of a compound value puts it in. A status that is fine afterwards was so before. -/
theorem compoundValueEnd_puts {s s' : ParseState (D × List String)} {root : CompoundValueNode}
    (hroot : s.ciP.compoundValueRoot = some root) (h : compoundValueEnd s = .ok s') :
    Puts s s' [] [root] ∧ (s'.ciP.httpStatusCode = .ok → s.ciP.httpStatusCode = .ok) := by
  unfold compoundValueEnd at h
  rw [hroot] at h
  dsimp only at h
  split at h
  · cases h
    refine ⟨⟨(List.append_nil _).symm, fun tree htree => ?_⟩, finished_ok⟩
    rcases mem_trees.1 htree with htree | htree | htree
    · exact .inl (mem_trees.2 (.inl htree))
    · exact .inl (mem_trees.2 (.inr (.inl htree)))
    · cases htree
      exact .inr List.mem_cons_self
  · split at h
    · cases h
    · rename_i d hd
      cases h
      obtain ⟨hrest, htrees⟩ := attach_trees hd
      exact ⟨⟨by rw [List.append_nil]; exact congrArg Prod.snd hrest, htrees⟩, finished_ok⟩

theorem eaten_ok {ciP : ConnectionInfo} {root : Option CompoundValueNode} {error : Option String}
    (h : (ciP.eaten root error).httpStatusCode = .ok) : error = none ∧ ciP.httpStatusCode = .ok := by
  cases error with
  | none => exact ⟨rfl, h⟩
  | some answer => cases h

/-! ## JSON -/

namespace Json

/-- An entry of a JSON parse vector: its treat function stores the value, or it does not. -/
structure Entry (D : Type) where
  node : ParseNode (String × String) D
  storesValue : Bool

def Entry.storing (e : Entry D) : StoringNode (String × String) D where
  node := e.node
  stored source := if e.storesValue then [source.2] else []

def recording (entries : List (Entry D)) : List (ParseNode (String × String) (D × List String)) :=
  entries.map fun e => e.storing.recording

structure Visit where
  path : String
  value : String
  children : List (String × PropertyTree)

mutual
def visits (path nodeName : String) : PropertyTree → List Visit
  | .node nodeValue children =>
    match nodePath path nodeName with
    | .error _ => []
    | .ok path =>
      ⟨path, nodeValue, children⟩ ::
        if isCompound path nodeValue children then [] else visitsChildren path children
def visitsChildren (path : String) : List (String × PropertyTree) → List Visit
  | [] => []
  | (name, tree) :: children => visits path (cString name) tree ++ visitsChildren path children
end

def treeVisits : PropertyTree → List Visit
  | .node _ children => visitsChildren "" children

/-- The simple value, where the entry of the path stores it. -/
def Visit.texts (entries : List (Entry D)) (v : Visit) : List String :=
  match entries.find? (·.node.path == v.path) with
  | some e => e.storing.stored (v.path, v.value)
  | none => []

/-- The compound value. -/
def Visit.roots (v : Visit) : List CompoundValueNode :=
  if isCompound v.path v.value v.children then [(eatToplevel v.children).1] else []

/-- The tests that are made at a node. -/
structure Visit.Passed (v : Visit) : Prop where
  value : forbiddenChars v.value = false
  compound : isCompound v.path v.value v.children = true → (eatToplevel v.children).2 = none

/-- No test looks at what follows a NUL in a simple value, and at some of a compound one. -/
structure Visit.Tight (entries : List (Entry D)) (v : Visit) : Prop where
  value : ∀ e ∈ entries.find? (·.node.path == v.path), e.storesValue = true → forbiddenAfterNul v.value = false
  compound : isCompound v.path v.value v.children = true → slipsChildren v.children = false

theorem find_recording (entries : List (Entry D)) (path : String) :
    (recording entries).find? (·.path == path) =
      (entries.find? (·.node.path == path)).map fun e => e.storing.recording := by
  unfold recording
  rw [List.find?_map]
  rfl

theorem treat_puts {entries : List (Entry D)} {v : Visit} {s s' : ParseState (D × List String)} {treated : Bool}
    (hf : forbiddenChars v.value = false)
    (h : treat v.path v.value (recording entries) s = .ok (treated, s')) :
    s'.ciP = s.ciP ∧ Puts s s' (v.texts entries) [] := by
  rw [treat_eq, entry, hf, find_recording] at h
  unfold Visit.texts
  cases he : entries.find? (·.node.path == v.path) with
  | none =>
    rw [he] at h
    cases h
    exact ⟨treatInfo_eq _ _ hf, (Puts.refl s).1, (Puts.refl s).2⟩
  | some e =>
    rw [he] at h
    cases ht : e.storing.recording.treat (v.path, v.value) s.parseDataP with
    | error stop =>
      simp only [Option.map_some, Bool.false_eq_true, if_false, ht] at h
      cases h
    | ok d =>
      simp only [Option.map_some, Bool.false_eq_true, if_false, ht] at h
      cases h
      exact ⟨rfl, recording_treat ht⟩

/-- A node is not treated before its value is tested. -/
theorem forbiddenChars_of_treated {path value : String} {parseVector : List (ParseNode (String × String) D)}
    {s s' : ParseState D} (h : treat path value parseVector s = .ok (true, s')) : forbiddenChars value = false := by
  rw [treat_eq] at h
  split at h
  · rename_i he
    exact forbiddenChars_of_entry (by rw [he]; rfl)
  · cases h

mutual
/-- What the walk puts into the request, when all is well in the end. -/
theorem jsonParse_puts (entries : List (Entry D)) : ∀ (tree : PropertyTree) (path nodeName : String)
    (s s' : ParseState (D × List String)), jsonParse (recording entries) path nodeName tree s = .ok s' →
    s'.ciP.httpStatusCode = .ok →
    s.ciP.httpStatusCode = .ok ∧
    Puts s s' ((visits path nodeName tree).flatMap (Visit.texts entries)) ((visits path nodeName tree).flatMap Visit.roots) ∧
    ∀ v ∈ visits path nodeName tree, v.Passed
  | .node nodeValue children, path, nodeName, s, s' => by
    intro h hok
    rw [visits]
    rw [jsonParse] at h
    cases hp : nodePath path nodeName with
    | error what =>
      rw [hp] at h
      cases h
    | ok path =>
      rw [hp] at h
      dsimp only at h ⊢
      let v : Visit := ⟨path, nodeValue, children⟩
      cases ht : treat path nodeValue (recording entries) s with
      | error stop =>
        rw [ht] at h
        cases h
      | ok r =>
        obtain ⟨treated, s1⟩ := r
        rw [ht] at h
        by_cases hc : isCompound path nodeValue children = true
        · have hempty : nodeValue = "" := by
            simp only [isCompound, Bool.and_eq_true, beq_iff_eq] at hc
            exact hc.1.2
          have hf : forbiddenChars v.value = false := by
            show forbiddenChars nodeValue = false
            rw [hempty]
            rfl
          obtain ⟨hci, hput⟩ := treat_puts (v := v) hf ht
          dsimp only [bind, Except.bind] at h
          rw [if_pos hc] at h
          cases hend : compoundValueEnd
              { s1 with ciP := s1.ciP.eaten (some (eatToplevel children).1) (eatToplevel children).2 } with
          | error stop =>
            rw [hend] at h
            cases h
          | ok s2 =>
            rw [hend] at h
            dsimp only at h
            split at h
            · cases h
              obtain ⟨hput2, hok2⟩ := compoundValueEnd_puts rfl hend
              obtain ⟨herror, hok1⟩ := eaten_ok (hok2 hok)
              have hroots : v.roots = [(eatToplevel children).1] := if_pos hc
              rw [if_pos hc, List.flatMap_singleton, List.flatMap_singleton, hroots]
              refine ⟨hci ▸ hok1, ?_, fun x hx => ?_⟩
              · have htrans := hput.trans ⟨hput2.texts, hput2.trees⟩
                rwa [List.append_nil] at htrans
              · rw [List.mem_singleton.1 hx]
                exact ⟨hf, fun _ => herror⟩
            · cases h
        · dsimp only [bind, Except.bind] at h
          rw [if_neg hc] at h
          cases htr : treated with
          | false =>
            rw [htr] at h
            cases h
          | true =>
            rw [htr] at h ht
            have hf : forbiddenChars v.value = false := forbiddenChars_of_treated ht
            obtain ⟨hci, hput⟩ := treat_puts (v := v) hf ht
            obtain ⟨hok1, hput1, hpass1⟩ := jsonParseChildren_puts entries children path s1 s' h hok
            have hroots : v.roots = [] := if_neg hc
            rw [if_neg hc, List.flatMap_cons, List.flatMap_cons, hroots]
            refine ⟨hci ▸ hok1, hput.trans hput1, fun x hx => ?_⟩
            rcases List.mem_cons.1 hx with rfl | hx
            · exact ⟨hf, fun hyes => absurd hyes hc⟩
            · exact hpass1 x hx
theorem jsonParseChildren_puts (entries : List (Entry D)) : ∀ (children : List (String × PropertyTree)) (path : String)
    (s s' : ParseState (D × List String)), jsonParseChildren (recording entries) path children s = .ok s' →
    s'.ciP.httpStatusCode = .ok →
    s.ciP.httpStatusCode = .ok ∧
    Puts s s' ((visitsChildren path children).flatMap (Visit.texts entries))
      ((visitsChildren path children).flatMap Visit.roots) ∧
    ∀ v ∈ visitsChildren path children, v.Passed
  | [], path, s, s' => by
    intro h hok
    cases h
    exact ⟨hok, Puts.refl s, nofun⟩
  | (name, tree) :: children, path, s, s' => by
    intro h hok
    rw [jsonParseChildren] at h
    cases hone : jsonParse (recording entries) path (cString name) tree s with
    | error stop =>
      rw [hone] at h
      cases h
    | ok s1 =>
      rw [hone] at h
      obtain ⟨hok1, hput1, hpass1⟩ := jsonParseChildren_puts entries children path s1 s' h hok
      obtain ⟨hok0, hput0, hpass0⟩ := jsonParse_puts entries tree path (cString name) s s1 hone hok1
      rw [visitsChildren, List.flatMap_append, List.flatMap_append]
      refine ⟨hok0, hput0.trans hput1, fun v hv => ?_⟩
      rcases List.mem_append.1 hv with hv | hv
      · exact hpass0 v hv
      · exact hpass1 v hv
end

/-- The texts a node puts into the request. -/
def Visit.strings (entries : List (Entry D)) (v : Visit) : List String :=
  v.texts entries ++ v.roots.flatMap CompoundValueNode.strings

theorem Visit.Passed.clean_iff {v : Visit} (h : v.Passed) (entries : List (Entry D)) :
    (∀ t ∈ v.strings entries, hasForbidden t = false) ↔ v.Tight entries := by
  have htexts : (∀ t ∈ v.texts entries, hasForbidden t = false) ↔
      ∀ e ∈ entries.find? (·.node.path == v.path), e.storesValue = true → forbiddenAfterNul v.value = false := by
    have hvalue : hasForbidden v.value = forbiddenAfterNul v.value := by rw [hasForbidden_eq, h.value, Bool.false_or]
    unfold Visit.texts
    cases entries.find? (·.node.path == v.path) with
    | none => exact ⟨fun _ => nofun, fun _ => nofun⟩
    | some e =>
      cases hs : e.storesValue with
      | false => simp [Entry.storing, hs]
      | true => simp [Entry.storing, hs, hvalue]
  have hroots : (∀ t ∈ v.roots.flatMap CompoundValueNode.strings, hasForbidden t = false) ↔
      (isCompound v.path v.value v.children = true → slipsChildren v.children = false) := by
    unfold Visit.roots
    by_cases hc : isCompound v.path v.value v.children = true
    · rw [if_pos hc, List.flatMap_singleton, ← eatToplevel_dirty (h.compound hc), CompoundValueNode.dirty,
        List.any_eq_false]
      simp [hc]
    · rw [if_neg hc]
      exact ⟨fun _ hyes => absurd hyes hc, fun _ => nofun⟩
  unfold Visit.strings
  rw [List.forall_mem_append, htexts, hroots]
  exact ⟨fun hboth => ⟨hboth.1, hboth.2⟩, fun ht => ⟨ht.value, ht.compound⟩⟩

end Json

/-! ## XML -/

namespace Xml

/-- What a treat function stores: the text of the node, or the XML attributes of an `entityId`. -/
inductive Field where
  | nothing
  | value
  | entityId
deriving DecidableEq, Repr

/-- The attributes that `entityIdParse` stores (xmlParse.cpp:367); it returns at one that it does not know. -/
def entityIdTexts : List (String × String) → List String
  | [] => []
  | (name, value) :: attributes =>
    if cString name = "type" ∨ cString name = "isPattern" then cString value :: entityIdTexts attributes else []

def Field.stored : Field → XmlTree → List String
  | .nothing, _ => []
  | .value, node => [cString node.value]
  | .entityId, node => entityIdTexts node.attributes

structure Entry (D : Type) where
  node : ParseNode XmlTree D
  field : Field

def Entry.storing (e : Entry D) : StoringNode XmlTree D where
  node := e.node
  stored := e.field.stored

def recording (entries : List (Entry D)) : List (ParseNode XmlTree (D × List String)) :=
  entries.map fun e => e.storing.recording

structure Visit where
  path : String
  name : String
  value : String
  attributes : List (String × String)
  children : List XmlTree

/-- The node as its treat function gets it. -/
def Visit.node (v : Visit) : XmlTree := stripped (.node v.name v.value v.attributes v.children)

mutual
def visits (fatherPath : String) : XmlTree → List Visit
  | .node nodeName nodeValue attributes children =>
    let path := fatherPath ++ "/" ++ strip nodeName
    ⟨path, nodeName, nodeValue, attributes, children⟩ ::
      if isEmptyValue path nodeValue children then [] else visitsChildren path children
def visitsChildren (path : String) : List XmlTree → List Visit
  | [] => []
  | child :: children =>
    if onlyWs child.name then visitsChildren path children else visits path child ++ visitsChildren path children
end

def Visit.isCompound (v : Visit) : Bool := isEmptyValue v.path v.value v.children && v.children.any isNamed

def Visit.texts (entries : List (Entry D)) (v : Visit) : List String :=
  match entries.find? (·.node.path == v.path) with
  | some e => e.storing.stored v.node
  | none => []

def Visit.roots (v : Visit) : List CompoundValueNode := if v.isCompound then (eatToplevel v.node).1.toList else []

structure Visit.Passed (entries : List (Entry D)) (v : Visit) : Prop where
  value : ∀ e ∈ entries.find? (·.node.path == v.path), isIllegal v.node = false
  compound : v.isCompound = true → (eatToplevel v.node).2 = none

/-- No test looks at the text of a node with XML attributes, and at the names in a compound value. -/
structure Visit.Tight (entries : List (Entry D)) (v : Visit) : Prop where
  value : ∀ e ∈ entries.find? (·.node.path == v.path), e.field = .value → v.attributes ≠ [] →
    forbiddenChars v.node.value = false
  compound : v.isCompound = true → slipsChildren v.children = false

theorem find_recording (entries : List (Entry D)) (path : String) :
    (recording entries).find? (·.path == path) =
      (entries.find? (·.node.path == path)).map fun e => e.storing.recording := by
  unfold recording
  rw [List.find?_map]
  rfl

theorem treat_puts {entries : List (Entry D)} {v : Visit} {s s' : ParseState (D × List String)} {treated : Bool}
    (h : treat v.node v.path (recording entries) s = .ok (treated, s')) (hok : s'.ciP.httpStatusCode = .ok) :
    s'.ciP = s.ciP ∧ Puts s s' (v.texts entries) [] ∧
    ∀ e ∈ entries.find? (·.node.path == v.path), isIllegal v.node = false := by
  rw [treat_eq, find_recording] at h
  unfold Visit.texts
  cases he : entries.find? (·.node.path == v.path) with
  | none =>
    rw [he] at h
    cases h
    exact ⟨rfl, Puts.refl s, nofun⟩
  | some e =>
    rw [he, Option.map_some] at h
    dsimp only at h
    cases hi : isIllegal v.node with
    | true =>
      rw [hi] at h
      cases h
      cases hok
    | false =>
      rw [hi] at h
      cases ht : e.storing.recording.treat v.node s.parseDataP with
      | error stop =>
        simp only [Bool.false_eq_true, if_false, ht] at h
        cases h
      | ok d =>
        simp only [Bool.false_eq_true, if_false, ht] at h
        cases h
        exact ⟨rfl, recording_treat ht, fun _ _ => rfl⟩

theorem eatToplevel_dirty {name value : String} {attributes : List (String × String)} {children : List XmlTree}
    (h : (eatToplevel (.node name value attributes children)).2 = none) :
    ∃ root, (eatToplevel (.node name value attributes children)).1 = some root ∧ root.dirty = slipsChildren children := by
  rw [eatToplevel] at h ⊢
  cases ht : containerType (xmlTypeAttributeGet attributes) with
  | none =>
    rw [ht] at h
    cases h
  | some type =>
    rw [ht] at h
    refine ⟨_, rfl, ?_⟩
    rw [(eatChildren_dirty children _ _ h).2, CompoundValueNode.toplevel, CompoundValueNode.dirty_mk_nil,
      show hasForbidden "toplevel" = false by decide, Bool.false_or]

theorem compound_puts {v : Visit} {s s' : ParseState (D × List String)} (hc : v.isCompound = true)
    (h : compoundValueEnd { s with ciP := s.ciP.eaten (eatToplevel v.node).1 (eatToplevel v.node).2 } = .ok s')
    (hok : s'.ciP.httpStatusCode = .ok) :
    s.ciP.httpStatusCode = .ok ∧ Puts s s' [] v.roots ∧ (eatToplevel v.node).2 = none := by
  cases hroot : (s.ciP.eaten (eatToplevel v.node).1 (eatToplevel v.node).2).compoundValueRoot with
  | none =>
    unfold compoundValueEnd at h
    rw [hroot] at h
    cases h
  | some root =>
    obtain ⟨hput, hok1⟩ := compoundValueEnd_puts hroot h
    obtain ⟨herror, hok0⟩ := eaten_ok (hok1 hok)
    obtain ⟨root', hroot', _⟩ := eatToplevel_dirty herror
    have hsome : (eatToplevel v.node).1 = some root' := hroot'
    rw [ConnectionInfo.eaten_compoundValueRoot, hsome] at hroot
    cases hroot
    have hroots : v.roots = [root] := by rw [Visit.roots, if_pos hc, hsome]; rfl
    rw [hroots]
    exact ⟨hok0, ⟨hput.texts, hput.trees⟩, herror⟩

mutual
theorem xmlParse_puts (entries : List (Entry D)) : ∀ (tree : XmlTree) (fatherPath : String)
    (s s' : ParseState (D × List String)), xmlParse (recording entries) fatherPath tree s = .ok s' →
    s'.ciP.httpStatusCode = .ok →
    s.ciP.httpStatusCode = .ok ∧
    Puts s s' ((visits fatherPath tree).flatMap (Visit.texts entries)) ((visits fatherPath tree).flatMap Visit.roots) ∧
    ∀ v ∈ visits fatherPath tree, v.Passed entries
  | .node nodeName nodeValue attributes children, fatherPath, s, s' => by
    intro h hok
    rw [visits]
    rw [xmlParse] at h
    dsimp only at h ⊢
    obtain ⟨path, hpath⟩ : ∃ path, path = fatherPath ++ "/" ++ strip nodeName := ⟨_, rfl⟩
    rw [← hpath] at h ⊢
    obtain ⟨v, hv⟩ : ∃ v : Visit, v = ⟨path, nodeName, nodeValue, attributes, children⟩ := ⟨_, rfl⟩
    rw [← hv]
    cases ht : treat v.node path (recording entries) s with
    | error stop =>
      rw [hv] at ht
      rw [show treat (stripped _) path (recording entries) s = _ from ht] at h
      cases h
    | ok r =>
      obtain ⟨treated, s1⟩ := r
      have ht' := ht
      rw [hv] at ht'
      rw [show treat (stripped _) path (recording entries) s = _ from ht'] at h
      dsimp only [bind, Except.bind] at h
      have hvp : v.path = path := by rw [hv]
      rw [← hvp] at ht
      by_cases he : isEmptyValue path nodeValue children = true
      · rw [if_pos he] at h ⊢
        rw [List.flatMap_singleton, List.flatMap_singleton]
        by_cases hn : children.any isNamed = true
        · rw [if_pos hn] at h
          have hc : v.isCompound = true := by rw [hv, Visit.isCompound, he, hn]; rfl
          have hnode : v.node = stripped (.node nodeName nodeValue attributes children) := by rw [hv]; rfl
          rw [← hnode] at h
          obtain ⟨hok1, hput1, herror⟩ := compound_puts hc h hok
          obtain ⟨hci, hput, hpass⟩ := treat_puts ht hok1
          refine ⟨hci ▸ hok1, ?_, fun x hx => ?_⟩
          · have htrans := hput.trans hput1
            rwa [List.append_nil] at htrans
          · rw [List.mem_singleton.1 hx]
            exact ⟨hpass, fun _ => herror⟩
        · rw [if_neg hn] at h
          cases h
          have hc : ¬ v.isCompound = true := by rw [hv]; simp [Visit.isCompound, hn]
          obtain ⟨hci, hput, hpass⟩ := treat_puts ht hok
          have hroots : v.roots = [] := if_neg hc
          rw [hroots]
          refine ⟨hci ▸ hok, hput, fun x hx => ?_⟩
          rw [List.mem_singleton.1 hx]
          exact ⟨hpass, fun hyes => absurd hyes hc⟩
      · rw [if_neg he] at h ⊢
        have hc : ¬ v.isCompound = true := by rw [hv]; simp [Visit.isCompound, he]
        have hroots : v.roots = [] := if_neg hc
        cases treated with
        | false =>
          cases h
          cases hok
        | true =>
          obtain ⟨hok1, hput1, hpass1⟩ := xmlParseChildren_puts entries children path s1 s' h hok
          obtain ⟨hci, hput, hpass⟩ := treat_puts ht hok1
          rw [List.flatMap_cons, List.flatMap_cons, hroots]
          refine ⟨hci ▸ hok1, hput.trans hput1, fun x hx => ?_⟩
          rcases List.mem_cons.1 hx with rfl | hx
          · exact ⟨hpass, fun hyes => absurd hyes hc⟩
          · exact hpass1 x hx
theorem xmlParseChildren_puts (entries : List (Entry D)) : ∀ (children : List XmlTree) (path : String)
    (s s' : ParseState (D × List String)), xmlParseChildren (recording entries) path children s = .ok s' →
    s'.ciP.httpStatusCode = .ok →
    s.ciP.httpStatusCode = .ok ∧
    Puts s s' ((visitsChildren path children).flatMap (Visit.texts entries))
      ((visitsChildren path children).flatMap Visit.roots) ∧
    ∀ v ∈ visitsChildren path children, v.Passed entries
  | [], path, s, s' => by
    intro h hok
    cases h
    exact ⟨hok, Puts.refl s, nofun⟩
  | child :: children, path, s, s' => by
    intro h hok
    rw [visitsChildren]
    rw [xmlParseChildren] at h
    by_cases hws : onlyWs child.name = true
    · rw [if_pos hws] at h ⊢
      exact xmlParseChildren_puts entries children path s s' h hok
    · rw [if_neg hws] at h ⊢
      cases hone : xmlParse (recording entries) path child s with
      | error stop =>
        rw [hone] at h
        cases h
      | ok s1 =>
        rw [hone] at h
        obtain ⟨hok1, hput1, hpass1⟩ := xmlParseChildren_puts entries children path s1 s' h hok
        obtain ⟨hok0, hput0, hpass0⟩ := xmlParse_puts entries child path s s1 hone hok1
        rw [List.flatMap_append, List.flatMap_append]
        refine ⟨hok0, hput0.trans hput1, fun v hv => ?_⟩
        rcases List.mem_append.1 hv with hv | hv
        · exact hpass0 v hv
        · exact hpass1 v hv
end

def Visit.strings (entries : List (Entry D)) (v : Visit) : List String :=
  v.texts entries ++ v.roots.flatMap CompoundValueNode.strings

/-- The attributes of an `entityId` are tested. -/
theorem entityIdTexts_clean {attributes : List (String × String)} (h : attributes.any (forbiddenChars ·.2) = false) :
    ∀ t ∈ entityIdTexts attributes, hasForbidden t = false := by
  induction attributes with
  | nil => exact nofun
  | cons a attributes ih =>
    obtain ⟨name, value⟩ := a
    rw [List.any_cons, Bool.or_eq_false_iff] at h
    intro t ht
    unfold entityIdTexts at ht
    split at ht
    · rcases List.mem_cons.1 ht with rfl | ht
      · rw [hasForbidden_cString]
        exact h.1
      · exact ih h.2 t ht
    · cases ht

theorem Visit.Passed.clean_iff {entries : List (Entry D)} {v : Visit} (h : v.Passed entries) :
    (∀ t ∈ v.strings entries, hasForbidden t = false) ↔ v.Tight entries := by
  have htexts : (∀ t ∈ v.texts entries, hasForbidden t = false) ↔
      ∀ e ∈ entries.find? (·.node.path == v.path), e.field = .value → v.attributes ≠ [] →
        forbiddenChars v.node.value = false := by
    have hpass := h.value
    unfold Visit.texts
    cases he : entries.find? (·.node.path == v.path) with
    | none => exact ⟨fun _ => nofun, fun _ => nofun⟩
    | some e =>
      have hlegal : isIllegal v.node = false := hpass e he
      have hattrs : v.node.attributes = v.attributes := rfl
      unfold isIllegal at hlegal
      rw [hattrs] at hlegal
      simp only [Option.mem_def, Option.some.injEq, forall_eq']
      show (∀ t ∈ e.field.stored v.node, hasForbidden t = false) ↔ _
      by_cases hempty : v.attributes = []
      · -- the text is tested
        rw [hempty, List.isEmpty_nil, if_pos rfl] at hlegal
        refine ⟨fun _ _ hne => absurd hempty hne, fun _ t ht => ?_⟩
        cases hfield : e.field with
        | nothing =>
          rw [hfield] at ht
          cases ht
        | value =>
          rw [hfield] at ht
          rw [List.mem_singleton.1 ht, hasForbidden_cString]
          exact hlegal
        | entityId =>
          rw [hfield, Field.stored, hattrs, hempty] at ht
          cases ht
      · -- the attributes are
        have hempty' : v.attributes.isEmpty = false := by simpa using hempty
        rw [hempty', if_neg Bool.false_ne_true] at hlegal
        cases hfield : e.field with
        | nothing =>
          refine ⟨fun _ hv => (by cases hv), fun _ t ht => ?_⟩
          cases ht
        | value =>
          refine ⟨fun ht _ _ => ?_, fun ht t hmem => ?_⟩
          · rw [← hasForbidden_cString]
            exact ht _ List.mem_cons_self
          · rw [List.mem_singleton.1 hmem, hasForbidden_cString]
            exact ht rfl hempty
        | entityId =>
          refine ⟨fun _ hv => (by cases hv), fun _ => ?_⟩
          exact entityIdTexts_clean hlegal
  have hroots : (∀ t ∈ v.roots.flatMap CompoundValueNode.strings, hasForbidden t = false) ↔
      (v.isCompound = true → slipsChildren v.children = false) := by
    unfold Visit.roots
    by_cases hc : v.isCompound = true
    · obtain ⟨root, hroot, hdirty⟩ := eatToplevel_dirty (h.compound hc)
      rw [if_pos hc, show (eatToplevel v.node).1 = some root from hroot, Option.toList_some, List.flatMap_singleton,
        ← hdirty, CompoundValueNode.dirty, List.any_eq_false]
      simp [hc]
    · rw [if_neg hc]
      exact ⟨fun _ hyes => absurd hyes hc, fun _ => nofun⟩
  unfold Visit.strings
  rw [List.forall_mem_append, htexts, hroots]
  exact ⟨fun hboth => ⟨hboth.1, hboth.2⟩, fun ht => ⟨ht.value, ht.compound⟩⟩

end Xml

/-! ## Requests that are accepted -/

/-- The texts of the request, if the parse ends without an error status. -/
def acceptedStrings : Except Stop (ParseState (D × List String)) → Option (List String)
  | .ok s => if s.ciP.httpStatusCode = .ok then some s.strings else none
  | .error _ => none

theorem acceptedStrings_eq_some {result : Except Stop (ParseState (D × List String))} {strings : List String}
    (h : acceptedStrings result = some strings) :
    ∃ s, result = .ok s ∧ s.ciP.httpStatusCode = .ok ∧ s.strings = strings := by
  unfold acceptedStrings at h
  split at h
  · split at h
    · rename_i s hok
      exact ⟨s, rfl, hok, Option.some.inj h⟩
    · cases h
  · cases h

/-- Whatever ends up in the request has been put there. -/
theorem Puts.mem_strings {payloadWord : String} {rest : D} {s : ParseState (D × List String)} {texts : List String}
    {roots : List CompoundValueNode} (h : Puts (.start payloadWord (rest, [])) s texts roots) {t : String}
    (ht : t ∈ s.strings) : t ∈ texts ∨ t ∈ roots.flatMap CompoundValueNode.strings := by
  rcases List.mem_append.1 ht with ht | ht
  · rw [h.texts] at ht
    exact .inl ht
  · obtain ⟨root, hroot, ht⟩ := List.mem_flatMap.1 ht
    rcases h.trees root hroot with hroot | hroot
    · cases hroot
    · exact .inr (List.mem_flatMap.2 ⟨root, hroot, ht⟩)

theorem mem_flatMap_of_or {V : Type} {vs : List V} {texts strings : V → List String} {roots : V → List CompoundValueNode}
    (hs : ∀ v, strings v = texts v ++ (roots v).flatMap CompoundValueNode.strings) {t : String}
    (h : t ∈ vs.flatMap texts ∨ t ∈ (vs.flatMap roots).flatMap CompoundValueNode.strings) : t ∈ vs.flatMap strings := by
  rcases h with h | h
  · obtain ⟨v, hv, ht⟩ := List.mem_flatMap.1 h
    exact List.mem_flatMap.2 ⟨v, hv, by rw [hs]; exact List.mem_append_left _ ht⟩
  · rw [List.flatMap_assoc] at h
    obtain ⟨v, hv, ht⟩ := List.mem_flatMap.1 h
    exact List.mem_flatMap.2 ⟨v, hv, by rw [hs]; exact List.mem_append_right _ ht⟩

theorem forall_mem_flatMap_iff {V : Type} {vs : List V} {strings : V → List String} {P : String → Prop} {Q : V → Prop}
    (h : ∀ v ∈ vs, (∀ t ∈ strings v, P t) ↔ Q v) : (∀ t ∈ vs.flatMap strings, P t) ↔ ∀ v ∈ vs, Q v := by
  constructor
  · intro hall v hv
    exact (h v hv).1 fun t ht => hall t (List.mem_flatMap.2 ⟨v, hv, ht⟩)
  · intro hall t ht
    obtain ⟨v, hv, ht⟩ := List.mem_flatMap.1 ht
    exact (h v hv).2 (hall v hv) t ht

/-- What a JSON payload puts into the request. -/
def Json.putIn (entries : List (Json.Entry D)) (tree : PropertyTree) : List String :=
  (Json.treeVisits tree).flatMap (Json.Visit.strings entries)

def Xml.putIn (entries : List (Xml.Entry D)) (tree : XmlTree) : List String :=
  (Xml.visits "" tree).flatMap (Xml.Visit.strings entries)

/-- **Exactly when nothing forbidden gets in.** Of a payload that ends without an error status, all that is in the
request in the end has been put there on the way, and none of it has a forbidden character if and only if the nodes
that the walk comes to are tight. -/
theorem forbidden_iff (payloadWord : String) (rest : D) :
    (∀ (entries : List (Json.Entry D)) (tree : PropertyTree) (strings : List String),
      acceptedStrings (Json.jsonParseTree (Json.recording entries) tree (.start payloadWord (rest, []))) = some strings →
      (∀ t ∈ strings, t ∈ Json.putIn entries tree) ∧
      ((∀ t ∈ Json.putIn entries tree, hasForbidden t = false) ↔ ∀ v ∈ Json.treeVisits tree, v.Tight entries)) ∧
    (∀ (entries : List (Xml.Entry D)) (tree : XmlTree) (strings : List String),
      acceptedStrings (Xml.xmlParse (Xml.recording entries) "" tree (.start payloadWord (rest, []))) = some strings →
      (∀ t ∈ strings, t ∈ Xml.putIn entries tree) ∧
      ((∀ t ∈ Xml.putIn entries tree, hasForbidden t = false) ↔ ∀ v ∈ Xml.visits "" tree, v.Tight entries)) := by
  constructor
  · intro entries tree strings h
    obtain ⟨data, children⟩ := tree
    obtain ⟨s, hs, hok, rfl⟩ := acceptedStrings_eq_some h
    obtain ⟨_, hput, hpass⟩ := Json.jsonParseChildren_puts entries children "" _ s hs hok
    refine ⟨fun t ht => mem_flatMap_of_or (fun _ => rfl) (hput.mem_strings ht), ?_⟩
    exact forall_mem_flatMap_iff fun v hv => (hpass v hv).clean_iff entries
  · intro entries tree strings h
    obtain ⟨s, hs, hok, rfl⟩ := acceptedStrings_eq_some h
    obtain ⟨_, hput, hpass⟩ := Xml.xmlParse_puts entries tree "" _ s hs hok
    refine ⟨fun t ht => mem_flatMap_of_or (fun _ => rfl) (hput.mem_strings ht), ?_⟩
    exact forall_mem_flatMap_iff fun v hv => (hpass v hv).clean_iff

/-! ## An updateContextRequest -/

/-- The nodes of an updateContextRequest whose treat functions store no text. -/
def jsonUpcrContainers : List String :=
  ["/contextElements", "/contextElements/contextElement", "/contextElements/contextElement/attributes",
   "/contextElements/contextElement/attributes/attribute",
   "/contextElements/contextElement/attributes/attribute/metadatas",
   "/contextElements/contextElement/attributes/attribute/metadatas/metadata",
   "/contextElements/contextElement/domainMetadatas", "/contextElements/contextElement/domainMetadatas/domainMetadata"]

def jsonUpcrEntries : List (Json.Entry (List UpdateContextPointer)) :=
  jsonUpcrParseVector.map fun node => ⟨node, !(jsonUpcrContainers.contains node.path)⟩

def upcrContainers : List String :=
  ["/updateContextRequest", "/updateContextRequest/contextElementList", contextElementPath,
   contextElementPath ++ "/contextAttributeList", contextAttributePath, contextAttributePath ++ "/metadata",
   contextAttributePath ++ "/metadata/contextMetadata", contextElementPath ++ "/domainMetadata",
   contextElementPath ++ "/domainMetadata/contextMetadata"]

def upcrEntries : List (Xml.Entry (List UpdateContextPointer)) :=
  upcrParseVector.map fun node =>
    ⟨node, if upcrContainers.contains node.path then .nothing
      else if node.path = contextElementPath ++ "/entityId" then .entityId else .value⟩

/-- An update of a room, in JSON, with this value for an attribute. -/
def jsonRoomUpdate (value : PropertyTree) : PropertyTree :=
  .node "" [("contextElements", .node "" [("", .node ""
    [("id", .node "Room" []),
     ("attributes", .node "" [("", .node "" [("name", .node "t" []), ("value", value)])])])]),
   ("updateAction", .node "APPEND" [])]

/-- The same in XML, with these XML attributes for the `id` and this text. -/
def xmlRoomUpdate (attributes : List (String × String)) (id : String) : XmlTree :=
  .node "updateContextRequest" "" [] [.node "contextElementList" "" [] [.node "contextElement" "" []
    [.node "entityId" "" [("type", "T")] [.node "id" id attributes []]]]]

/-- The result of the JSON parser. -/
def jsonUpcrStrings (tree : PropertyTree) : Option (List String) :=
  acceptedStrings (Json.jsonParseTree (Json.recording jsonUpcrEntries) tree (.start "updateContextRequest" ([], [])))

def upcrStrings (tree : XmlTree) : Option (List String) :=
  acceptedStrings (Xml.xmlParse (Xml.recording upcrEntries) "" tree (.start "updateContextRequest" ([], [])))

/-- Two updates with nothing forbidden in them. -/
theorem roomUpdates_clean :
    jsonUpcrStrings (jsonRoomUpdate (.node "" [("m", .node "a" [])])) =
      some ["Room", "t", "", "APPEND", "toplevel", "", "m", "a"] ∧
    upcrStrings (xmlRoomUpdate [] "Room") = some ["T", "Room"] ∧
    ((∀ t ∈ Json.putIn jsonUpcrEntries (jsonRoomUpdate (.node "" [("m", .node "a" [])])), hasForbidden t = false) ↔
      ∀ v ∈ Json.treeVisits (jsonRoomUpdate (.node "" [("m", .node "a" [])])), v.Tight jsonUpcrEntries) ∧
    ((∀ t ∈ Xml.putIn upcrEntries (xmlRoomUpdate [] "Room"), hasForbidden t = false) ↔
      ∀ v ∈ Xml.visits "" (xmlRoomUpdate [] "Room"), v.Tight upcrEntries) := by
  have hjson : jsonUpcrStrings (jsonRoomUpdate (.node "" [("m", .node "a" [])])) =
      some ["Room", "t", "", "APPEND", "toplevel", "", "m", "a"] := by decide +kernel
  have hxml : upcrStrings (xmlRoomUpdate [] "Room") = some ["T", "Room"] := by decide +kernel
  obtain ⟨json, xml⟩ := forbidden_iff "updateContextRequest" ([] : List UpdateContextPointer)
  exact ⟨hjson, hxml, (json _ _ _ hjson).2, (xml _ _ _ hxml).2⟩

/-- **Forbidden characters get in.** The item of a JSON vector is not tested, and neither is the text of an XML node that
has an attribute. -/
theorem roomUpdates_forbidden :
    jsonUpcrStrings (jsonRoomUpdate (.node "" [("", .node "a<b" [])])) =
      some ["Room", "t", "", "APPEND", "toplevel", "", "item", "a<b"] ∧
    upcrStrings (xmlRoomUpdate [("x", "y")] "a(b") = some ["T", "a(b"] ∧
    hasForbidden "a<b" = true ∧ hasForbidden "a(b" = true := by
  decide +kernel

end OrionBroker
