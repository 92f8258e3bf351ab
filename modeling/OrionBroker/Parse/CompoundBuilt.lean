import OrionBroker.Parse.CompoundClone
import OrionBroker.Parse.Json
import OrionBroker.Parse.Xml

/-!
# The trees of the two readers are built

The readers of `Json` and `Xml` hand on complete trees. Every tree below a container in which only containers have
children comes out of calls of `add`, one for each node (`Built.exists_tree`), and the trees of the readers are such
trees. So what holds of the trees of `Built` holds of theirs.
-/

namespace OrionBroker.NodeHeap

def Node.append (more : List Node) : Node → Node
  | .mk this f childV => .mk this f (childV ++ more)

/-! ## Calls one after the other -/

section Modify

variable {a b : Addr} {g g' h : Node → Node} {P : Addr → Prop}

mutual
theorem modifyAt_absent : ∀ n : Node, (∀ m ∈ n.nodes, m.this ≠ a) → n.modifyAt a g = n
  | .mk this f childV => by
    intro habsent
    rw [Node.nodes, List.forall_mem_cons, Node.this_mk] at habsent
    rw [Node.modifyAt, if_neg habsent.1, modifyAll_absent childV habsent.2]
theorem modifyAll_absent : ∀ childV : List Node, (∀ m ∈ Node.allNodes childV, m.this ≠ a) →
    Node.modifyAll a g childV = childV
  | [] => by
    intro _
    rfl
  | child :: childV => by
    intro habsent
    rw [Node.allNodes, List.forall_mem_append] at habsent
    rw [Node.modifyAll, modifyAt_absent child habsent.1, modifyAll_absent childV habsent.2]
end

mutual
theorem modifyAt_congr (hg : ∀ n : Node, (∀ m ∈ n.nodes, P m.this) → g n = g' n) : ∀ n : Node,
    (∀ m ∈ n.nodes, P m.this) → n.modifyAt a g = n.modifyAt a g'
  | .mk this f childV => by
    intro hn
    rw [Node.modifyAt, Node.modifyAt, hg _ hn]
    rw [Node.nodes, List.forall_mem_cons] at hn
    rw [modifyAll_congr hg childV hn.2]
theorem modifyAll_congr (hg : ∀ n : Node, (∀ m ∈ n.nodes, P m.this) → g n = g' n) : ∀ childV : List Node,
    (∀ m ∈ Node.allNodes childV, P m.this) → Node.modifyAll a g childV = Node.modifyAll a g' childV
  | [] => by
    intro _
    rfl
  | child :: childV => by
    intro hn
    rw [Node.allNodes, List.forall_mem_append] at hn
    rw [Node.modifyAll, Node.modifyAll, modifyAt_congr hg child hn.1, modifyAll_congr hg childV hn.2]
end

mutual
/-- Two calls at the same node. -/
theorem modifyAt_twice (hthis : ∀ n : Node, (h n).this = n.this) : ∀ n : Node,
    (n.modifyAt a h).modifyAt a g = n.modifyAt a fun m => g (h m)
  | .mk this f childV => by
    rw [Node.modifyAt, Node.modifyAt]
    by_cases ha : this = a
    · rw [if_pos ha, if_pos ha]
      have hat := hthis (.mk this f childV)
      generalize h (.mk this f childV) = n at hat ⊢
      obtain ⟨that, f', childV'⟩ := n
      obtain rfl : that = this := hat
      rw [Node.modifyAt, if_pos ha]
    · rw [if_neg ha, if_neg ha, Node.modifyAt, if_neg ha, modifyAll_twice hthis childV]
theorem modifyAll_twice (hthis : ∀ n : Node, (h n).this = n.this) : ∀ childV : List Node,
    Node.modifyAll a g (Node.modifyAll a h childV) = Node.modifyAll a (fun m => g (h m)) childV
  | [] => rfl
  | child :: childV => by
    rw [Node.modifyAll, Node.modifyAll, Node.modifyAll, modifyAt_twice hthis child, modifyAll_twice hthis childV]
end

mutual
/-- A call at a node that the first call made. -/
theorem modifyAt_inside : ∀ n : Node, (∀ m ∈ n.nodes, m.this ≠ b) →
    (n.modifyAt a h).modifyAt b g = n.modifyAt a fun m => (h m).modifyAt b g
  | .mk this f childV => by
    intro habsent
    rw [Node.nodes, List.forall_mem_cons, Node.this_mk] at habsent
    rw [Node.modifyAt, Node.modifyAt]
    by_cases ha : this = a
    · rw [if_pos ha, if_pos ha]
    · rw [if_neg ha, if_neg ha, Node.modifyAt, if_neg habsent.1, modifyAll_inside childV habsent.2]
theorem modifyAll_inside : ∀ childV : List Node, (∀ m ∈ Node.allNodes childV, m.this ≠ b) →
    Node.modifyAll b g (Node.modifyAll a h childV) = Node.modifyAll a (fun m => (h m).modifyAt b g) childV
  | [] => by
    intro _
    rfl
  | child :: childV => by
    intro habsent
    rw [Node.allNodes, List.forall_mem_append] at habsent
    rw [Node.modifyAll, Node.modifyAll, Node.modifyAll, modifyAt_inside child habsent.1,
      modifyAll_inside childV habsent.2]
end

mutual
theorem modifyAt_self (hself : ∀ n : Node, g n = n) : ∀ n : Node, n.modifyAt a g = n
  | .mk this f childV => by
    rw [Node.modifyAt, hself, modifyAll_self hself childV, ite_self]
theorem modifyAll_self (hself : ∀ n : Node, g n = n) : ∀ childV : List Node, Node.modifyAll a g childV = childV
  | [] => rfl
  | child :: childV => by rw [Node.modifyAll, modifyAt_self hself child, modifyAll_self hself childV]
end

theorem modifyAll_append (childV childV' : List Node) :
    Node.modifyAll a g (childV ++ childV') = Node.modifyAll a g childV ++ Node.modifyAll a g childV' := by
  induction childV with
  | nil => rfl
  | cons child childV ih => rw [List.cons_append, Node.modifyAll, Node.modifyAll, ih, List.cons_append]

end Modify

theorem append_this (more : List Node) (n : Node) : (n.append more).this = n.this := by
  cases n
  rfl

theorem append_nil (n : Node) : n.append [] = n := by
  cases n
  rw [Node.append, List.append_nil]

theorem append_append (more more' : List Node) (n : Node) : (n.append more).append more' = n.append (more ++ more') := by
  cases n
  rw [Node.append, Node.append, Node.append, List.append_assoc]

/-! ## Trees with the given children -/

/-- Only a container is added to. -/
def ContainerAt (root : Node) (a : Addr) : Prop := ∀ n ∈ root.nodes, n.this = a → Node.isContainer n.fields = true

/-- After some calls there are more nodes below `a`, which stand for `cs`; `more` is told what they are added to. -/
structure Extends (root : Node) (fresh a : Addr) (cs : List CompoundValueNode) (more : Node → List Node)
    (fresh' : Addr) : Prop where
  built : Built (root.modifyAt a fun me => me.append (more me)) fresh'
  trees : ∀ me, Node.trees (more me) = cs
  addresses : ∀ me, ∀ m ∈ Node.allNodes (more me), fresh ≤ m.this
  fresh : fresh ≤ fresh'

variable {root : Node} {fresh fresh' fresh'' a : Addr} {cs cs' : List CompoundValueNode} {more more' : Node → List Node}

theorem Extends.refl (h : Built root fresh) (a : Addr) : Extends root fresh a [] (fun _ => []) fresh where
  built := by
    rwa [modifyAt_self append_nil root]
  trees _ := rfl
  addresses _ := by simp [Node.allNodes]
  fresh := Nat.le_refl _

theorem Extends.containerAt (h : Extends root fresh a cs more fresh') (ha : a < fresh) (hcontainer : ContainerAt root a) :
    ContainerAt (root.modifyAt a fun me => me.append (more me)) a := by
  refine modifyAt_forall (P := fun x f => x = a → Node.isContainer f = true) (fun n hn => ?_) root hcontainer
  obtain ⟨this, f, childV⟩ := n
  rw [Node.nodes, List.forall_mem_cons] at hn
  rw [Node.append, Node.nodes, allNodes_append, List.forall_mem_cons, List.forall_mem_append]
  refine ⟨hn.1, hn.2, fun m hm hat => ?_⟩
  have hlow := h.addresses _ m hm
  rw [hat] at hlow
  exact absurd hlow (Nat.not_le_of_lt ha)

theorem Extends.trans (h : Extends root fresh a cs more fresh')
    (h' : Extends (root.modifyAt a fun me => me.append (more me)) fresh' a cs' more' fresh'') :
    Extends root fresh a (cs ++ cs') (fun me => more me ++ more' (me.append (more me))) fresh'' where
  built := by
    have hbuilt := h'.built
    rw [modifyAt_twice fun n => append_this (more n) n] at hbuilt
    simpa only [append_append] using hbuilt
  trees me := by rw [trees_eq, List.map_append, ← trees_eq, ← trees_eq, h.trees, h'.trees]
  addresses me := by
    rw [allNodes_append, List.forall_mem_append]
    exact ⟨h.addresses me, fun m hm => Nat.le_trans h.fresh (h'.addresses _ m hm)⟩
  fresh := Nat.le_trans h.fresh h'.fresh

/-- The node that `add` makes. -/
def added (fresh : Addr) (type : NodeType) (name value : String) (me : Node) : Node :=
  (construct fresh me.this me.fields (CompoundValueNode.childPath me.fields.path name) name value me.childV.length
    type).attached me.this me.fields me.childV.length

theorem add_eq_append (fresh : Addr) (type : NodeType) (name value : String) (me : Node) :
    me.add fresh type name value = me.append [added fresh type name value me] := by
  cases me
  rfl

theorem modifyAt_added (g : Node → Node) (fresh : Addr) (type : NodeType) (name value : String) (me : Node) :
    (added fresh type name value me).modifyAt fresh g = g (added fresh type name value me) := by
  rw [added, construct, Node.attached, Node.modifyAt, if_pos rfl]

theorem append_added (more : List Node) (fresh : Addr) (type : NodeType) (name value : String) (me : Node) :
    (added fresh type name value me).append more =
      .mk fresh (added fresh type name value me).fields more := by
  rw [added, construct, Node.attached, Node.append, List.nil_append, Node.fields_mk]

/-- **Nodes below the new one**: the calls for a child and for what is below it are calls for one child. -/
theorem Extends.child {type : NodeType} {name value : String} (hbuilt : Built root fresh)
    (h : Extends (root.modifyAt a (Node.add fresh type name value)) (fresh + 1) fresh cs more fresh') :
    Extends root fresh a [.mk type name value cs]
      (fun me => [(added fresh type name value me).append (more (added fresh type name value me))]) fresh' where
  built := by
    have habsent : ∀ m ∈ root.nodes, m.this ≠ fresh := fun m hm => Nat.ne_of_lt (hbuilt.addresses.2 m hm)
    have hbuilt' := h.built
    rw [modifyAt_inside root habsent] at hbuilt'
    rw [modifyAt_congr (P := (· ≠ fresh)) (fun n hn => ?_) root habsent]
    · exact hbuilt'
    · obtain ⟨this, f, childV⟩ := n
      rw [Node.nodes, List.forall_mem_cons, Node.this_mk] at hn
      rw [add_eq_append, Node.append, Node.append, Node.modifyAt, if_neg hn.1, modifyAll_append,
        modifyAll_absent childV hn.2, Node.modifyAll, Node.modifyAll, modifyAt_added]
  trees me := by
    rw [append_added, Node.trees, Node.tree, h.trees]
    rfl
  addresses me := by
    rw [append_added, Node.allNodes, Node.allNodes, Node.nodes, List.append_nil, List.forall_mem_cons]
    exact ⟨Nat.le_refl _, fun m hm => Nat.le_of_succ_le (h.addresses _ m hm)⟩
  fresh := Nat.le_of_succ_le h.fresh

def isContainerType (type : NodeType) : Bool := type == .vector || type == .object

mutual
/-- Only containers have children. -/
def Filled : CompoundValueNode → Prop
  | .mk type _ _ childV => (childV ≠ [] → isContainerType type = true) ∧ FilledAll childV
def FilledAll : List CompoundValueNode → Prop
  | [] => True
  | child :: childV => Filled child ∧ FilledAll childV
end

/-- The new node is the only one at its address. -/
theorem containerAt_added {type : NodeType} (hbuilt : Built root fresh) (htype : isContainerType type = true)
    (a : Addr) (name value : String) : ContainerAt (root.modifyAt a (Node.add fresh type name value)) fresh := by
  have hroot : ∀ n ∈ root.nodes, n.this = fresh → Node.isContainer n.fields = true := by
    intro n hn hat
    exact absurd hat (Nat.ne_of_lt (hbuilt.addresses.2 n hn))
  refine modifyAt_forall (P := fun x f => x = fresh → Node.isContainer f = true) (fun n hn => ?_) root hroot
  obtain ⟨this, f, childV⟩ := n
  rw [Node.nodes, List.forall_mem_cons] at hn
  rw [add_eq_append, Node.append, Node.nodes, allNodes_append, List.forall_mem_cons, List.forall_mem_append]
  refine ⟨hn.1, hn.2, ?_⟩
  rw [← append_nil (added fresh type name value _), append_added, Node.allNodes, Node.allNodes, Node.nodes,
    Node.allNodes, List.append_nil, List.forall_mem_singleton]
  intro _
  exact htype

mutual
/-- Every node is a call of `add`, and the calls below it come before those for its next sibling. -/
theorem exists_child : ∀ (c : CompoundValueNode), Filled c → ∀ {root : Node} {fresh a : Addr}, Built root fresh →
    ContainerAt root a → ∃ more fresh', Extends root fresh a [c] more fresh'
  | .mk type name value childV => by
    intro hfilled root fresh a hbuilt hcontainer
    rw [Filled] at hfilled
    have hadded := Built.add a type name value hbuilt hcontainer
    obtain ⟨more, fresh', h⟩ := exists_children childV hfilled.2 hadded (Nat.lt_succ_self fresh) fun hne =>
      containerAt_added hbuilt (hfilled.1 hne) a name value
    exact ⟨_, _, h.child hbuilt⟩
theorem exists_children : ∀ (childV : List CompoundValueNode), FilledAll childV → ∀ {root : Node} {fresh a : Addr},
    Built root fresh → a < fresh → (childV ≠ [] → ContainerAt root a) →
    ∃ more fresh', Extends root fresh a childV more fresh'
  | [] => by
    intro _ root fresh a hbuilt _ _
    exact ⟨_, _, .refl hbuilt a⟩
  | child :: childV => by
    intro hfilled root fresh a hbuilt ha hcontainer
    rw [FilledAll] at hfilled
    have hat := hcontainer (List.cons_ne_nil _ _)
    obtain ⟨more, fresh', h⟩ := exists_child child hfilled.1 hbuilt hat
    obtain ⟨more', fresh'', h'⟩ := exists_children childV hfilled.2 h.built (Nat.lt_of_lt_of_le ha h.fresh) fun _ =>
      h.containerAt ha hat
    exact ⟨_, _, h.trans h'⟩
end

/-- **Every tree of this kind is built.** -/
theorem Built.exists_tree {type : NodeType} {childV : List CompoundValueNode}
    (h : Filled (.mk type "toplevel" "" childV)) :
    ∃ root fresh, Built root fresh ∧ root.tree = .mk type "toplevel" "" childV := by
  rw [Filled] at h
  obtain ⟨more, fresh, hmore⟩ := exists_children childV h.2 (.new 0 type) (Nat.lt_succ_self 0) fun hne n hn _ => by
    rw [toplevel, Node.nodes, Node.allNodes, List.mem_singleton] at hn
    rw [hn]
    exact h.1 hne
  refine ⟨_, fresh, hmore.built, ?_⟩
  rw [toplevel, Node.modifyAt, if_pos rfl, Node.append, Node.tree, List.nil_append, hmore.trees]

/-! ## The readers -/

/-- A container under the given name, with what was read below it so far. -/
structure Reading (name value : String) (c : CompoundValueNode) : Prop where
  names : ∃ type childV, c = .mk type name value childV ∧ isContainerType type = true
  filled : Filled c

theorem filledAll_append {childV childV' : List CompoundValueNode} :
    FilledAll (childV ++ childV') ↔ FilledAll childV ∧ FilledAll childV' := by
  induction childV with
  | nil => simp [FilledAll]
  | cons child childV ih => rw [List.cons_append, FilledAll, FilledAll, ih, and_assoc]

namespace Reading

variable {name value : String} {c child : CompoundValueNode}

theorem new {type : NodeType} (htype : isContainerType type = true) (name value : String) :
    Reading name value (.mk type name value []) where
  names := ⟨type, [], rfl, htype⟩
  filled := by
    rw [Filled, FilledAll]
    exact ⟨fun h => absurd rfl h, trivial⟩

theorem push (h : Reading name value c) (hchild : Filled child) : Reading name value (c.push child) := by
  obtain ⟨⟨type, childV, rfl, htype⟩, hfilled⟩ := h
  rw [Filled] at hfilled
  refine ⟨⟨type, _, rfl, htype⟩, ?_⟩
  rw [CompoundValueNode.push, Filled, filledAll_append, FilledAll, FilledAll]
  exact ⟨fun _ => htype, hfilled.2, hchild, trivial⟩

theorem add (h : Reading name value c) (type : NodeType) (name' value' : String) :
    Reading name value (c.add type name' value') := by
  apply h.push
  rw [Filled, FilledAll]
  exact ⟨fun h => absurd rfl h, trivial⟩

theorem toVector (h : Reading name value c) : Reading name value c.toVector := by
  obtain ⟨⟨type, childV, rfl, htype⟩, hfilled⟩ := h
  rw [Filled] at hfilled
  refine ⟨⟨.vector, _, rfl, rfl⟩, ?_⟩
  rw [CompoundValueNode.toVector, Filled]
  exact ⟨fun _ => rfl, hfilled.2⟩

theorem built (h : Reading "toplevel" "" c) : ∃ root fresh, Built root fresh ∧ root.tree = c := by
  obtain ⟨⟨type, childV, rfl, -⟩, hfilled⟩ := h
  exact Built.exists_tree hfilled

end Reading

mutual
theorem json_eatCompound : ∀ (tree : PropertyTree) (nodeName : String) {name value : String}
    (eaten : CompoundValueNode × Option String), Reading name value eaten.1 →
    Reading name value (Json.eatCompound nodeName tree eaten).1
  | .node nodeValue children, nodeName, name, value, (containerP, error) => by
    intro h
    rw [Json.eatCompound]
    split_ifs
    · exact h
    · exact json_eatChildren children _ (h.add _ _ _)
    · exact h.add _ _ _
    · exact h.push (json_eatChildren children _ (.new rfl nodeName "")).filled
    · exact h.toVector.push (json_eatChildren children _ (.new rfl "item" "")).filled
    · exact json_eatChildren children _ (h.toVector.add _ _ _)
theorem json_eatChildren : ∀ (children : List (String × PropertyTree)) {name value : String}
    (eaten : CompoundValueNode × Option String), Reading name value eaten.1 →
    Reading name value (Json.eatChildren children eaten).1
  | [], _, _, _ => by
    intro h
    exact h
  | (name, tree) :: children, _, _, eaten => by
    intro h
    rw [Json.eatChildren]
    exact json_eatChildren children _ (json_eatCompound tree (cString name) eaten h)
end

/-- **The JSON reader's tree is built.** -/
theorem json_built (children : List (String × PropertyTree)) :
    ∃ root fresh, Built root fresh ∧ root.tree = (Json.eatToplevel children).1 :=
  (json_eatChildren children _ (.new rfl "toplevel" "")).built

theorem isContainerType_of_containerType {xmlAttribute : String} {type : NodeType}
    (h : Xml.containerType xmlAttribute = some type) : isContainerType type = true := by
  unfold Xml.containerType at h
  split_ifs at h <;> cases h <;> rfl

mutual
theorem xml_eatCompound : ∀ (e : XmlTree) {name value : String} (eaten : CompoundValueNode × Option String),
    Reading name value eaten.1 → Reading name value (Xml.eatCompound e eaten).1
  | .node nodeName nodeValue attributes children, name, value, (containerP, error) => by
    intro h
    rw [Xml.eatCompound]
    simp only
    split_ifs
    · split
      · rename_i type htype
        exact h.push (xml_eatChildren children _ (.new (isContainerType_of_containerType htype) _ "")).filled
      · exact h
    · exact h
    · exact xml_eatChildren children _ (h.add _ _ _)
theorem xml_eatChildren : ∀ (children : List XmlTree) {name value : String}
    (eaten : CompoundValueNode × Option String), Reading name value eaten.1 →
    Reading name value (Xml.eatChildren children eaten).1
  | [], _, _, _ => by
    intro h
    exact h
  | child :: children, _, _, eaten => by
    intro h
    rw [Xml.eatChildren]
    split_ifs
    · exact xml_eatChildren children _ (xml_eatCompound child eaten h)
    · exact xml_eatChildren children _ h
end

/-- **The XML reader's tree is built.** -/
theorem xml_built {e : XmlTree} {tree : CompoundValueNode} {error : Option String}
    (h : Xml.eatToplevel e = (some tree, error)) : ∃ root fresh, Built root fresh ∧ root.tree = tree := by
  obtain ⟨name, value, attributes, children⟩ := e
  rw [Xml.eatToplevel] at h
  simp only at h
  split at h
  · rename_i type htype
    have hread := xml_eatChildren children (.toplevel type, none)
      (.new (isContainerType_of_containerType htype) "toplevel" "")
    obtain rfl := Option.some.inj (congrArg Prod.fst h)
    exact hread.built
  · cases h

end OrionBroker.NodeHeap
