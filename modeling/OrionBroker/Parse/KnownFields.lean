import OrionBroker.Parse.Forbidden
import OrionBroker.Parse.UpdateContext

/-!
# The fields a JSON payload may have (jsonParse.cpp:66-151, :296-381)

A node is accepted when its path is in the parse vector, or when it has members and no text and `isCompoundPath` says
yes to its path. That test compares the beginning of the path with the compound roots, without a look at what comes
behind.

| here | there |
| --- | --- |
| `Visit`, `treeVisits` | the calls of `jsonParse`, one for each node outside of a compound value |
| `KnownPath`           | the paths a node may have |
| `Stretches`           | a path that goes on behind a compound root in the middle of a name |

`known_fields_iff` says when only known fields are accepted.
-/

namespace OrionBroker.Json

def bytes (s : String) : List UInt8 := s.toByteArray.data.toList

def slash : UInt8 := 47

/-- A path of the parse vector, a compound root, or a path that goes on behind one with a slash. -/
def KnownPath (paths : List String) (path : String) : Prop :=
  path ∈ paths ∨ path ∈ compoundRootV ∨ ∃ root ∈ compoundRootV, (bytes root ++ [slash]) <+: bytes path

def Stretches (path : String) : Prop :=
  ∃ root ∈ compoundRootV, ∃ b rest, bytes path = bytes root ++ b :: rest ∧ b ≠ slash

/-! ## Paths behind a compound root -/

theorem bytes_inj {s t : String} (h : bytes s = bytes t) : s = t := by
  rw [← String.toByteArray_inj]
  exact ByteArray.ext (Array.toList_inj.1 h)

theorem isCompoundPath_iff (path : String) : isCompoundPath path = true ↔ ∃ root ∈ compoundRootV, bytes root <+: bytes path := by
  simp only [isCompoundPath, hasRoot, List.any_eq_true, List.isPrefixOf_iff_prefix, bytes]

/-- No root is the beginning of another one. -/
theorem roots_apart : ∀ root ∈ compoundRootV, ∀ root' ∈ compoundRootV, bytes root <+: bytes root' → root = root' := by
  have hall : (compoundRootV.all fun root => compoundRootV.all fun root' =>
      !(bytes root).isPrefixOf (bytes root') || root == root') = true := by decide
  intro root hroot root' hroot' h
  have hpair := List.all_eq_true.1 (List.all_eq_true.1 hall root hroot) root' hroot'
  rw [List.isPrefixOf_iff_prefix.2 h] at hpair
  simpa using hpair

/-- A path starts with one root at most. -/
theorem root_unique {path root root' : String} (hroot : root ∈ compoundRootV) (hroot' : root' ∈ compoundRootV)
    (h : bytes root <+: bytes path) (h' : bytes root' <+: bytes path) : root = root' := by
  rcases List.prefix_or_prefix_of_prefix h h' with hpre | hpre
  · exact roots_apart root hroot root' hroot' hpre
  · exact (roots_apart root' hroot' root hroot hpre).symm

theorem known_or_stretches {path : String} (paths : List String) (h : isCompoundPath path = true) :
    KnownPath paths path ∨ Stretches path := by
  obtain ⟨root, hroot, rest, hrest⟩ := (isCompoundPath_iff path).1 h
  cases rest with
  | nil =>
    have hpath : root = path := bytes_inj (by simpa using hrest)
    exact .inl (.inr (.inl (hpath ▸ hroot)))
  | cons b rest =>
    by_cases hb : b = slash
    · subst hb
      exact .inl (.inr (.inr ⟨root, hroot, rest, by rw [← hrest]; simp⟩))
    · exact .inr ⟨root, hroot, b, rest, hrest.symm, hb⟩

/-- A path that stretches a root is only known to the parse vector. -/
theorem Stretches.known_iff {path : String} (h : Stretches path) (paths : List String) :
    KnownPath paths path ↔ path ∈ paths := by
  obtain ⟨root, hroot, b, rest, hpath, hb⟩ := h
  have hpre : bytes root <+: bytes path := ⟨b :: rest, hpath.symm⟩
  refine ⟨?_, fun hmem => .inl hmem⟩
  rintro (hmem | hmem | ⟨root', hroot', hbelow⟩)
  · exact hmem
  · -- it would be the root itself
    obtain rfl := root_unique hroot hmem hpre (List.prefix_refl _)
    simp at hpath
  · obtain rfl := root_unique hroot hroot' hpre ((List.prefix_append _ _).trans hbelow)
    obtain ⟨rest', hrest'⟩ := hbelow
    rw [hpath, List.append_assoc, List.append_cancel_left_eq, List.singleton_append, List.cons.injEq] at hrest'
    exact absurd hrest'.1.symm hb

/-! ## What the walk accepts -/

variable {D : Type}

/-- Only a node whose path is in the parse vector is treated. -/
theorem mem_paths_of_treated {path value : String} {parseVector : List (ParseNode (String × String) D)}
    {s s' : ParseState D} (h : treat path value parseVector s = .ok (true, s')) : path ∈ parseVector.map ParseNode.path := by
  induction parseVector with
  | nil => cases h
  | cons node parseVector ih =>
    rw [treat] at h
    split at h
    · cases h
    · split at h
      · rename_i hpath
        rw [hpath]
        exact List.mem_cons_self
      · exact List.mem_cons_of_mem _ (ih h)

/-- The two ways to be accepted. -/
def Visit.Accepted (paths : List String) (v : Visit) : Prop :=
  v.path ∈ paths ∨ isCompound v.path v.value v.children = true

mutual
theorem jsonParse_accepted (parseVector : List (ParseNode (String × String) D)) : ∀ (tree : PropertyTree)
    (path nodeName : String) (s s' : ParseState D), jsonParse parseVector path nodeName tree s = .ok s' →
    ∀ v ∈ visits path nodeName tree, v.Accepted (parseVector.map ParseNode.path)
  | .node nodeValue children, path, nodeName, s, s' => by
    intro h
    rw [visits]
    rw [jsonParse] at h
    cases hp : nodePath path nodeName with
    | error what =>
      rw [hp] at h
      cases h
    | ok path =>
      rw [hp] at h
      dsimp only at h ⊢
      cases ht : treat path nodeValue parseVector s with
      | error stop =>
        rw [ht] at h
        cases h
      | ok r =>
        obtain ⟨treated, s1⟩ := r
        rw [ht] at h
        dsimp only [bind, Except.bind] at h
        by_cases hc : isCompound path nodeValue children = true
        · rw [if_pos hc, List.forall_mem_singleton]
          exact .inr hc
        · rw [if_neg hc] at h ⊢
          cases treated with
          | false => cases h
          | true =>
            rw [List.forall_mem_cons]
            exact ⟨.inl (mem_paths_of_treated ht), jsonParseChildren_accepted parseVector children path s1 s' h⟩
theorem jsonParseChildren_accepted (parseVector : List (ParseNode (String × String) D)) :
    ∀ (children : List (String × PropertyTree)) (path : String) (s s' : ParseState D),
    jsonParseChildren parseVector path children s = .ok s' →
    ∀ v ∈ visitsChildren path children, v.Accepted (parseVector.map ParseNode.path)
  | [], path, s, s' => by
    intro _
    exact nofun
  | (name, tree) :: children, path, s, s' => by
    intro h
    rw [jsonParseChildren] at h
    cases hone : jsonParse parseVector path (cString name) tree s with
    | error stop =>
      rw [hone] at h
      cases h
    | ok s1 =>
      rw [hone] at h
      rw [visitsChildren, List.forall_mem_append]
      exact ⟨jsonParse_accepted parseVector tree path (cString name) s s1 hone,
        jsonParseChildren_accepted parseVector children path s1 s' h⟩
end

/-- A field outside of the parse vector that is taken for a compound value because of how its name begins. -/
def Visit.Swallowed (paths : List String) (v : Visit) : Prop :=
  v.path ∉ paths ∧ v.value = "" ∧ v.children ≠ [] ∧ Stretches v.path

theorem Visit.Accepted.known_iff {paths : List String} {v : Visit} (h : v.Accepted paths) :
    KnownPath paths v.path ↔ ¬ v.Swallowed paths := by
  constructor
  · rintro hknown ⟨hnot, -, -, hstretches⟩
    exact hnot ((hstretches.known_iff paths).1 hknown)
  · intro hnot
    rcases h with hmem | hcompound
    · exact .inl hmem
    · simp only [isCompound, Bool.and_eq_true, beq_iff_eq, Bool.not_eq_true', List.isEmpty_eq_false_iff] at hcompound
      obtain ⟨⟨hpath, hvalue⟩, hchildren⟩ := hcompound
      rcases known_or_stretches paths hpath with hknown | hstretches
      · exact hknown
      · by_cases hmem : v.path ∈ paths
        · exact .inl hmem
        · exact absurd ⟨hmem, hvalue, hchildren, hstretches⟩ hnot

/-- **Only known fields are accepted** exactly in the payloads with no field outside of the parse vector that has
members, and a name that goes on behind that of a compound root. -/
theorem known_fields_iff (parseVector : List (ParseNode (String × String) D)) (tree : PropertyTree) (s s' : ParseState D)
    (hok : jsonParseTree parseVector tree s = .ok s') :
    (∀ v ∈ treeVisits tree, KnownPath (parseVector.map ParseNode.path) v.path) ↔
      ∀ v ∈ treeVisits tree, ¬ v.Swallowed (parseVector.map ParseNode.path) := by
  have haccepted : ∀ v ∈ treeVisits tree, v.Accepted (parseVector.map ParseNode.path) := by
    obtain ⟨value, children⟩ := tree
    exact jsonParseChildren_accepted parseVector children "" s s' hok
  constructor
  · intro h v hv
    exact (haccepted v hv).known_iff.1 (h v hv)
  · intro h v hv
    exact (haccepted v hv).known_iff.2 (h v hv)

/-- jsonUpdateContextAttributeRequest.cpp:132. -/
def jsonUpcarParseVector : List (ParseNode (String × String) (List UpdateContextPointer)) :=
  [{ path := "/type", fill := nullTreat },
   { path := "/value", use := .upcar, fill := nullTreat },
   { path := "/metadatas", fill := nullTreat },
   { path := "/metadatas/metadata", fill := fillPointers [] [.contextMetadataP] },
   { path := "/metadatas/metadata/name", fill := fillPointers [.contextMetadataP] [] },
   { path := "/metadatas/metadata/type", fill := fillPointers [.contextMetadataP] [] },
   { path := "/metadatas/metadata/value", fill := fillPointers [.contextMetadataP] [] }]

/-- The state before the parse of a new attribute value. -/
def upcarStart : ParseState (List UpdateContextPointer) := .start "updateContextAttributeRequest" []

/-- `{"type": "t", name: {"m": "a"}}`. -/
def valueUnder (name : String) : PropertyTree :=
  .node "" [("type", .node "t" []), (name, .node "" [("m", .node "a" [])])]

def isOk {ε α : Type} : Except ε α → Bool
  | .ok _ => true
  | .error _ => false

theorem exists_ok {ε α : Type} {x : Except ε α} (h : isOk x = true) : ∃ a, x = .ok a := by
  cases x with
  | ok a => exact ⟨a, rfl⟩
  | error e => cases h

theorem value_known :
    isOk (jsonParseTree jsonUpcarParseVector (valueUnder "value") upcarStart) = true ∧
    ∀ v ∈ treeVisits (valueUnder "value"), KnownPath (jsonUpcarParseVector.map ParseNode.path) v.path := by
  have hparsed : isOk (jsonParseTree jsonUpcarParseVector (valueUnder "value") upcarStart) = true := by decide +kernel
  obtain ⟨s', hok⟩ := exists_ok hparsed
  refine ⟨hparsed, (known_fields_iff jsonUpcarParseVector (valueUnder "value") upcarStart s' hok).2 ?_⟩
  have hknown : ((treeVisits (valueUnder "value")).all fun v =>
      (jsonUpcarParseVector.map ParseNode.path).contains v.path) = true := by decide +kernel
  intro v hv hswallowed
  exact hswallowed.1 (List.contains_iff_mem.1 (List.all_eq_true.1 hknown v hv))

/-- **A field named `values`** is accepted as the value of the attribute. -/
theorem values_swallowed :
    isOk (jsonParseTree jsonUpcarParseVector (valueUnder "values") upcarStart) = true ∧
    (treeVisits (valueUnder "values")).map Visit.path = ["/type", "/values"] ∧
    ¬ ∀ v ∈ treeVisits (valueUnder "values"), KnownPath (jsonUpcarParseVector.map ParseNode.path) v.path := by
  have hvisited : (treeVisits (valueUnder "values")).map Visit.path = ["/type", "/values"] := by decide +kernel
  have hstretches : Stretches "/values" := ⟨"/value", by decide, 115, [], by decide, by decide⟩
  refine ⟨by decide +kernel, hvisited, ?_⟩
  intro h
  have hmem : "/values" ∈ (treeVisits (valueUnder "values")).map Visit.path := by
    rw [hvisited]
    simp
  obtain ⟨v, hv, hpath⟩ := List.mem_map.1 hmem
  have hknown := h v hv
  rw [hpath, hstretches.known_iff] at hknown
  exact absurd hknown (by decide)

end OrionBroker.Json
