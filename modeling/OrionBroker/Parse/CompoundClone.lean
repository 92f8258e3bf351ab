import OrionBroker.Parse.CompoundNode
import OrionBroker.Query.Entities

/-!
# Copies of compound trees (CompoundValueNode.cpp:451-465, MongoGlobal.cpp:789-850)

| here | there |
| --- | --- |
| `clone`           | `clone` (:451); `heap` is what the pointers of the original lead to |
| `addCompoundNode` | `addCompoundNode` (MongoGlobal.cpp:789) |
| `objectLoop`      | the loop of `compoundObjectResponse` (:829-834) |
| `vectorLoop`      | the loop of `compoundVectorResponse` (:845-849) |
| `Queried`         | the trees `entitiesQuery` makes of stored values (:1225-1232) |

The children are cloned before they are added to the copy of their container, and `add` sets `rootP` in the node it
adds, not in what is below. `clone_deep_iff` says for which trees that does no harm.
-/

namespace OrionBroker.NodeHeap

open Mongo

mutual
/-- The copy, and the next free address after it. -/
def clone (heap : Addr → NodeFields) (fresh : Addr) : Node → Node × Addr
  | .mk this f childV =>
    let me := if f.rootP = this then toplevel fresh f.type
      else construct fresh f.container (heap f.container) f.path f.name f.value f.siblingNo f.type
    cloneAll heap me (fresh + 1) childV
def cloneAll (heap : Addr → NodeFields) (me : Node) (fresh : Addr) : List Node → Node × Addr
  | [] => (me, fresh)
  | child :: childV =>
    let (copy, fresh) := clone heap fresh child
    cloneAll heap (me.addNode copy) fresh childV
end

/-- What is stored at an address in the tree. -/
def deref (root : Node) (a : Addr) : NodeFields := ((root.nodes.find? (·.this == a)).getD root).fields

def cloneRoot (root : Node) (fresh : Addr) : Node := (clone (deref root) fresh root).1

/-! ## Trees of stored values -/

/-- A toplevel node that gets another name and type. -/
def childNode (fresh : Addr) (type : NodeType) (name value : String) : Node :=
  .mk fresh { (toplevel fresh .object).fields with name := name, type := type, value := value } []

mutual
def addCompoundNode (cvP : Node) (fresh : Addr) (name : String) : Bson → Node × Addr
  | .str s => (cvP.addNode (childNode fresh .string name s), fresh + 1)
  | .obj fs =>
    let (child, fresh) := objectLoop (childNode fresh .object name "") (fresh + 1) fs
    (cvP.addNode child, fresh)
  | .arr xs =>
    let (child, fresh) := vectorLoop (childNode fresh .vector name "") (fresh + 1) 0 xs
    (cvP.addNode child, fresh)
  | .null | .bool _ | .int _ | .double _ | .oid _ => (cvP, fresh)
def objectLoop (cvP : Node) (fresh : Addr) : List (String × Bson) → Node × Addr
  | [] => (cvP, fresh)
  | (name, v) :: fs =>
    let (cvP, fresh) := addCompoundNode cvP fresh name v
    objectLoop cvP fresh fs
def vectorLoop (cvP : Node) (fresh : Addr) (ix : Nat) : List Bson → Node × Addr
  | [] => (cvP, fresh)
  | v :: vs =>
    let (cvP, fresh) := addCompoundNode cvP fresh (toString ix) v
    vectorLoop cvP fresh (ix + 1) vs
end

inductive Queried : Node → Addr → Prop where
  | object (this : Addr) (fs : List (String × Bson)) :
      Queried (objectLoop (toplevel this .object) (this + 1) fs).1 (objectLoop (toplevel this .object) (this + 1) fs).2
  | vector (this : Addr) (xs : List Bson) :
      Queried (vectorLoop (toplevel this .vector) (this + 1) 0 xs).1 (vectorLoop (toplevel this .vector) (this + 1) 0 xs).2

/-! ## Deep copies -/

mutual
/-- The same names, values, types, order and sibling numbers. -/
def Alike : Node → Node → Prop
  | .mk _ f childV, .mk _ f' childV' =>
    (f.name = f'.name ∧ f.value = f'.value ∧ f.type = f'.type ∧ f.siblingNo = f'.siblingNo) ∧ AlikeAll childV childV'
def AlikeAll : List Node → List Node → Prop
  | [], [] => True
  | child :: childV, child' :: childV' => Alike child child' ∧ AlikeAll childV childV'
  | _, _ => False
end

mutual
/-- A node below `container` in a tree whose root is at `rootP`. -/
def Placed (rootP container : Addr) (depth : Nat) : Node → Prop
  | .mk this f childV =>
    (f.container = container ∧ f.rootP = rootP ∧ f.level = depth) ∧ PlacedAll rootP this (depth + 1) childV
def PlacedAll (rootP container : Addr) (depth : Nat) : List Node → Prop
  | [] => True
  | child :: childV => Placed rootP container depth child ∧ PlacedAll rootP container depth childV
end

structure DeepCopy (root copy : Node) : Prop where
  alike : Alike root copy
  placed : Placed copy.this copy.this 0 copy
  /-- No node of the copy is or refers to a node of the original. -/
  apart : ∀ n ∈ copy.nodes, ∀ m ∈ root.nodes,
    n.this ≠ m.this ∧ n.fields.container ≠ m.this ∧ n.fields.rootP ≠ m.this

/-! ## What the originals have in common -/

/-- The nodes that were added to the node at `this`, from sibling number `ix` on. -/
def AddedTo (this rootP : Addr) (ix : Nat) : List Node → Prop
  | [] => True
  | child :: childV =>
    (child.fields.container = this ∧ child.fields.rootP = rootP ∧ child.fields.siblingNo = ix) ∧
      AddedTo this rootP (ix + 1) childV

theorem addedTo_append {this rootP : Addr} {childV more : List Node} {ix : Nat} :
    AddedTo this rootP ix (childV ++ more) ↔
      AddedTo this rootP ix childV ∧ AddedTo this rootP (ix + childV.length) more := by
  induction childV generalizing ix with
  | nil => simp [AddedTo]
  | cons child childV ih =>
    have hix : ix + (child :: childV).length = ix + 1 + childV.length := by
      rw [List.length_cons]
      omega
    simp only [List.cons_append, AddedTo, ih, hix, and_assoc]

theorem LinkedAll.addedTo {this rootP : Addr} {path : String} {level : Nat} {childV : List Node} {ix : Nat}
    (h : LinkedAll this rootP path level ix childV) : AddedTo this rootP ix childV := by
  induction childV generalizing ix with
  | nil => trivial
  | cons child childV ih =>
    rw [LinkedAll] at h
    exact ⟨⟨h.1.container, h.1.rootP, h.1.siblingNo⟩, ih h.2.2⟩

/-- The root, and the nodes right below it, as far as both builders leave them alike. -/
structure Source (root : Node) (fresh : Addr) : Prop where
  asRoot : AsRoot root
  children : AddedTo root.this root.this 0 root.childV
  above : ∀ n ∈ Node.allNodes root.childV, root.this < n.this
  below : ∀ n ∈ root.nodes, n.this < fresh

/-! ### Trees of the parsers -/

theorem allNodes_append (childV more : List Node) :
    Node.allNodes (childV ++ more) = Node.allNodes childV ++ Node.allNodes more := by
  induction childV with
  | nil => rfl
  | cons child childV ih => rw [List.cons_append, Node.allNodes, Node.allNodes, ih, List.append_assoc]

theorem mem_nodes_self (n : Node) : n ∈ n.nodes := by
  cases n
  simp [Node.nodes]

theorem mem_allNodes {childV : List Node} {child : Node} (h : child ∈ childV) : child ∈ Node.allNodes childV := by
  induction childV with
  | nil => simp at h
  | cons first childV ih =>
    rw [Node.allNodes]
    rcases List.mem_cons.1 h with rfl | h
    · exact List.mem_append_left _ (mem_nodes_self child)
    · exact List.mem_append_right _ (ih h)

theorem nodes_attached (this : Addr) (f : NodeFields) (ix : Nat) (n : Node) :
    (n.attached this f ix).nodes = n.attached this f ix :: Node.allNodes n.childV := by
  obtain ⟨that, g, childV⟩ := n
  rw [Node.attached, Node.nodes]
  rfl

section Modify

variable {a : Addr} {g : Node → Node} {P : Addr → NodeFields → Prop}

mutual
/-- What a call makes of nodes of some kind are such nodes, so a tree of them stays one. -/
theorem modifyAt_forall (hg : ∀ n : Node, (∀ m ∈ n.nodes, P m.this m.fields) → ∀ m ∈ (g n).nodes, P m.this m.fields) :
    ∀ n : Node, (∀ m ∈ n.nodes, P m.this m.fields) → ∀ m ∈ (n.modifyAt a g).nodes, P m.this m.fields
  | .mk this f childV => by
    intro h
    rw [Node.modifyAt]
    split
    · exact hg _ h
    · rw [Node.nodes, List.forall_mem_cons] at h ⊢
      exact ⟨h.1, modifyAll_forall hg childV h.2⟩
theorem modifyAll_forall (hg : ∀ n : Node, (∀ m ∈ n.nodes, P m.this m.fields) → ∀ m ∈ (g n).nodes, P m.this m.fields) :
    ∀ childV : List Node, (∀ m ∈ Node.allNodes childV, P m.this m.fields) →
      ∀ m ∈ Node.allNodes (Node.modifyAll a g childV), P m.this m.fields
  | [] => by
    intro h
    exact h
  | child :: childV => by
    intro h
    rw [Node.allNodes, List.forall_mem_append] at h
    rw [Node.modifyAll, Node.allNodes, List.forall_mem_append]
    exact ⟨modifyAt_forall hg child h.1, modifyAll_forall hg childV h.2⟩
end

/-- The root stays where it is, and so does what is below it as long as the call is made there. -/
theorem modifyAt_below (hg : ∀ n : Node, (∀ m ∈ n.nodes, P m.this m.fields) → ∀ m ∈ (g n).nodes, P m.this m.fields)
    (hroot : ∀ n : Node, (∀ m ∈ Node.allNodes n.childV, P m.this m.fields) → ∀ m ∈ Node.allNodes (g n).childV, P m.this m.fields)
    (n : Node) (h : ∀ m ∈ Node.allNodes n.childV, P m.this m.fields) : ∀ m ∈ Node.allNodes (n.modifyAt a g).childV, P m.this m.fields := by
  obtain ⟨this, f, childV⟩ := n
  rw [Node.modifyAt]
  split
  · exact hroot _ h
  · exact modifyAll_forall hg childV h

end Modify

theorem add_below {P : Addr → Prop} {fresh : Addr} (hfresh : P fresh) (type : NodeType) (name value : String) (n : Node)
    (h : ∀ m ∈ Node.allNodes n.childV, P m.this) :
    ∀ m ∈ Node.allNodes (n.add fresh type name value).childV, P m.this := by
  obtain ⟨this, f, childV⟩ := n
  simp only [Node.add, construct, Node.addNode, Node.attached, Node.childV_mk, allNodes_append, Node.allNodes, Node.nodes,
    List.append_nil]
  rw [List.forall_mem_append]
  exact ⟨h, by simpa using hfresh⟩

theorem add_addresses {P : Addr → Prop} {fresh : Addr} (hfresh : P fresh) (type : NodeType) (name value : String)
    (n : Node) (h : ∀ m ∈ n.nodes, P m.this) : ∀ m ∈ (n.add fresh type name value).nodes, P m.this := by
  have hbelow := add_below hfresh type name value n
  obtain ⟨this, f, childV⟩ := n
  rw [Node.nodes, List.forall_mem_cons] at h
  rw [Node.add, construct, Node.addNode, Node.nodes, List.forall_mem_cons]
  exact ⟨h.1, hbelow h.2⟩

theorem toVector_addresses {P : Addr → Prop} (n : Node) (h : ∀ m ∈ n.nodes, P m.this) :
    ∀ m ∈ n.toVector.nodes, P m.this := by
  obtain ⟨this, f, childV⟩ := n
  rw [Node.nodes, List.forall_mem_cons] at h
  rw [Node.toVector, Node.nodes, List.forall_mem_cons]
  exact h

theorem modifyAt_this {a : Addr} {g : Node → Node} (hg : ∀ n : Node, (g n).this = n.this) (n : Node) :
    (n.modifyAt a g).this = n.this := by
  obtain ⟨this, f, childV⟩ := n
  rw [Node.modifyAt]
  split
  · exact hg _
  · rfl

theorem add_this (fresh : Addr) (type : NodeType) (name value : String) (n : Node) :
    (n.add fresh type name value).this = n.this := by
  cases n
  rfl

theorem toVector_this (n : Node) : n.toVector.this = n.this := by
  cases n
  rfl

theorem Built.addresses {root : Node} {fresh : Addr} (h : Built root fresh) :
    (∀ n ∈ Node.allNodes root.childV, root.this < n.this) ∧ ∀ n ∈ root.nodes, n.this < fresh := by
  induction h with
  | new this type => simp [toplevel, Node.nodes, Node.allNodes]
  | @add root fresh a type name value _ _ ih =>
    have hroot : root.this < fresh := ih.2 root (mem_nodes_self root)
    rw [modifyAt_this (add_this fresh type name value)]
    constructor
    · exact modifyAt_below (P := fun x _ => root.this < x) (add_addresses hroot type name value)
        (add_below hroot type name value) root ih.1
    · exact modifyAt_forall (P := fun x _ => x < fresh + 1)
        (add_addresses (P := fun x => x < fresh + 1) (Nat.lt_succ_self fresh) type name value) root fun m hm => Nat.lt_succ_of_lt (ih.2 m hm)
  | @toVector root fresh a _ _ ih =>
    rw [modifyAt_this toVector_this]
    constructor
    · refine modifyAt_below (P := fun x _ => root.this < x) (toVector_addresses (P := fun x => root.this < x)) (fun n h => ?_) root ih.1
      obtain ⟨this, f, childV⟩ := n
      exact h
    · exact modifyAt_forall (P := fun x _ => x < fresh) (toVector_addresses (P := fun x => x < fresh)) root ih.2

theorem Built.source {root : Node} {fresh : Addr} (h : Built root fresh) : Source root fresh := by
  obtain ⟨hlinked, hroot⟩ := h.linked
  have hrootP : root.fields.rootP = root.this := by
    obtain ⟨t, ht⟩ := hroot
    rw [ht]
    rfl
  refine ⟨hroot, ?_, h.addresses.1, h.addresses.2⟩
  obtain ⟨this, f, childV⟩ := root
  rw [Linked] at hlinked
  have hadded := hlinked.2.addedTo
  rw [Node.fields_mk, Node.this_mk] at hrootP
  rwa [hrootP] at hadded

/-! ### Trees of stored values -/

/-- From `cvP` and the free address `fresh` to `res`, with nodes added that stand for `added`. -/
structure Grown (cvP : Node) (fresh : Addr) (added : List CompoundValueNode) (res : Node × Addr) (more : List Node) :
    Prop where
  node : res.1 = .mk cvP.this cvP.fields (cvP.childV ++ more)
  addedTo : AddedTo cvP.this cvP.fields.rootP cvP.childV.length more
  addresses : ∀ n ∈ Node.allNodes more, fresh ≤ n.this ∧ n.this < res.2
  fresh : fresh ≤ res.2
  trees : Node.trees more = added

theorem Grown.refl (cvP : Node) (fresh : Addr) : Grown cvP fresh [] (cvP, fresh) [] where
  node := by
    cases cvP
    simp
  addedTo := trivial
  addresses := by simp [Node.allNodes]
  fresh := Nat.le_refl _
  trees := rfl

theorem Grown.trans {cvP : Node} {fresh : Addr} {added added' : List CompoundValueNode} {res res' : Node × Addr}
    {more more' : List Node} (h : Grown cvP fresh added res more) (h' : Grown res.1 res.2 added' res' more') :
    Grown cvP fresh (added ++ added') res' (more ++ more') where
  node := by rw [h'.node, h.node, Node.this_mk, Node.fields_mk, Node.childV_mk, List.append_assoc]
  addedTo := by
    have haddedTo := h'.addedTo
    rw [h.node, Node.this_mk, Node.fields_mk, Node.childV_mk, List.length_append] at haddedTo
    exact addedTo_append.2 ⟨h.addedTo, haddedTo⟩
  addresses := by
    rw [allNodes_append, List.forall_mem_append]
    refine ⟨fun n hn => ?_, fun n hn => ?_⟩
    · obtain ⟨hlow, hhigh⟩ := h.addresses n hn
      exact ⟨hlow, Nat.lt_of_lt_of_le hhigh h'.fresh⟩
    · obtain ⟨hlow, hhigh⟩ := h'.addresses n hn
      exact ⟨Nat.le_trans h.fresh hlow, hhigh⟩
  fresh := Nat.le_trans h.fresh h'.fresh
  trees := by rw [trees_eq, List.map_append, ← trees_eq, ← trees_eq, h.trees, h'.trees]

/-- A child that has all its own children is added. -/
theorem Grown.addChild {child : Node} {added : List CompoundValueNode} {res : Node × Addr} {more : List Node}
    (h : Grown child (child.this + 1) added res more) (hleaf : child.childV = []) (cvP : Node) :
    Grown cvP child.this [.mk child.type child.name child.fields.value added] (cvP.addNode res.1, res.2)
      [res.1.attached cvP.this cvP.fields cvP.childV.length] where
  node := by
    cases cvP
    rfl
  addedTo := by
    rw [h.node]
    exact ⟨⟨rfl, rfl, rfl⟩, trivial⟩
  addresses := by
    rw [Node.allNodes, Node.allNodes, List.append_nil, nodes_attached, h.node, hleaf, List.forall_mem_cons]
    refine ⟨⟨Nat.le_refl _, h.fresh⟩, fun n hn => ?_⟩
    obtain ⟨hlow, hhigh⟩ := h.addresses n (by simpa using hn)
    exact ⟨Nat.le_of_succ_le hlow, hhigh⟩
  fresh := Nat.le_of_succ_le h.fresh
  trees := by
    have htrees := h.trees
    rw [h.node, hleaf, List.nil_append, Node.attached, Node.trees, Node.tree, htrees]
    rfl

mutual
theorem addCompoundNode_grown : ∀ (v : Bson) (cvP : Node) (fresh : Addr) (name : String),
    ∃ more, Grown cvP fresh (nodeOfBson name v).toList (addCompoundNode cvP fresh name v) more
  | .str s, cvP, fresh, name =>
    ⟨_, (Grown.refl (childNode fresh .string name s) (fresh + 1)).addChild rfl cvP⟩
  | .obj fs, cvP, fresh, name => by
    obtain ⟨more, h⟩ := objectLoop_grown fs (childNode fresh .object name "") (fresh + 1)
    exact ⟨_, h.addChild rfl cvP⟩
  | .arr xs, cvP, fresh, name => by
    obtain ⟨more, h⟩ := vectorLoop_grown xs (childNode fresh .vector name "") (fresh + 1) 0
    exact ⟨_, h.addChild rfl cvP⟩
  | .null, cvP, fresh, _ => ⟨_, Grown.refl cvP fresh⟩
  | .bool _, cvP, fresh, _ => ⟨_, Grown.refl cvP fresh⟩
  | .int _, cvP, fresh, _ => ⟨_, Grown.refl cvP fresh⟩
  | .double _, cvP, fresh, _ => ⟨_, Grown.refl cvP fresh⟩
  | .oid _, cvP, fresh, _ => ⟨_, Grown.refl cvP fresh⟩
theorem objectLoop_grown : ∀ (fs : List (String × Bson)) (cvP : Node) (fresh : Addr),
    ∃ more, Grown cvP fresh (compoundObjectResponse fs) (objectLoop cvP fresh fs) more
  | [], cvP, fresh => ⟨_, Grown.refl cvP fresh⟩
  | (name, v) :: fs, cvP, fresh => by
    obtain ⟨more, h⟩ := addCompoundNode_grown v cvP fresh name
    obtain ⟨more', h'⟩ := objectLoop_grown fs (addCompoundNode cvP fresh name v).1 (addCompoundNode cvP fresh name v).2
    exact ⟨_, h.trans h'⟩
theorem vectorLoop_grown : ∀ (xs : List Bson) (cvP : Node) (fresh : Addr) (ix : Nat),
    ∃ more, Grown cvP fresh (compoundVectorResponse ix xs) (vectorLoop cvP fresh ix xs) more
  | [], cvP, fresh, _ => ⟨_, Grown.refl cvP fresh⟩
  | v :: vs, cvP, fresh, ix => by
    obtain ⟨more, h⟩ := addCompoundNode_grown v cvP fresh (toString ix)
    obtain ⟨more', h'⟩ := vectorLoop_grown vs (addCompoundNode cvP fresh (toString ix) v).1
      (addCompoundNode cvP fresh (toString ix) v).2 (ix + 1)
    exact ⟨_, h.trans h'⟩
end

theorem Grown.source {this : Addr} {type : NodeType} {added : List CompoundValueNode} {res : Node × Addr}
    {more : List Node} (h : Grown (toplevel this type) (this + 1) added res more) : Source res.1 res.2 := by
  have hle := h.fresh
  rw [h.node]
  refine ⟨⟨type, rfl⟩, by simpa [toplevel] using h.addedTo, fun n hn => ?_, ?_⟩
  · exact (h.addresses n hn).1
  · rw [Node.nodes, List.forall_mem_cons]
    exact ⟨hle, fun n hn => (h.addresses n hn).2⟩

theorem Grown.tree {this : Addr} {type : NodeType} {added : List CompoundValueNode} {res : Node × Addr}
    {more : List Node} (h : Grown (toplevel this type) (this + 1) added res more) :
    res.1.tree = .mk type "toplevel" "" added := by
  rw [h.node, ← h.trees]
  rfl

theorem Queried.source {root : Node} {fresh : Addr} (h : Queried root fresh) : Source root fresh := by
  cases h with
  | object this fs =>
    obtain ⟨_, hgrown⟩ := objectLoop_grown fs (toplevel this .object) (this + 1)
    exact hgrown.source
  | vector this xs =>
    obtain ⟨_, hgrown⟩ := vectorLoop_grown xs (toplevel this .vector) (this + 1) 0
    exact hgrown.source

/-- **The tree is the one a query gives for the stored value.** -/
theorem Queried.decoded {root : Node} {fresh : Addr} (h : Queried root fresh) (includeEmpty : Bool) :
    ∃ value, decodedValue includeEmpty (some value) = some ("", some root.tree) := by
  cases h with
  | object this fs =>
    obtain ⟨_, hgrown⟩ := objectLoop_grown fs (toplevel this .object) (this + 1)
    refine ⟨.obj fs, ?_⟩
    rw [decodedValue, hgrown.tree]
  | vector this xs =>
    obtain ⟨_, hgrown⟩ := vectorLoop_grown xs (toplevel this .vector) (this + 1) 0
    refine ⟨.arr xs, ?_⟩
    rw [decodedValue, hgrown.tree]

/-! ## The copy -/

theorem AddedTo.get {this rootP : Addr} {childV : List Node} {ix i : Nat} {child : Node}
    (h : AddedTo this rootP ix childV) (hi : childV[i]? = some child) :
    child.fields.container = this ∧ child.fields.rootP = rootP ∧ child.fields.siblingNo = ix + i := by
  induction childV generalizing ix i with
  | nil => simp at hi
  | cons first childV ih =>
    rw [AddedTo] at h
    cases i with
    | zero =>
      cases hi
      exact h.1
    | succ i =>
      obtain ⟨hcontainer, hrootP, hsibling⟩ := ih h.2 (by simpa using hi)
      exact ⟨hcontainer, hrootP, by omega⟩

mutual
theorem clone_fresh (heap : Addr → NodeFields) : ∀ (n : Node) (fresh : Addr), fresh ≤ (clone heap fresh n).2
  | .mk _ _ childV, fresh => by
    rw [clone]
    exact Nat.le_of_succ_le (cloneAll_fresh heap childV _ (fresh + 1))
theorem cloneAll_fresh (heap : Addr → NodeFields) : ∀ (childV : List Node) (me : Node) (fresh : Addr),
    fresh ≤ (cloneAll heap me fresh childV).2
  | [], _, fresh => Nat.le_refl fresh
  | child :: childV, _, fresh => Nat.le_trans (clone_fresh heap child fresh) (cloneAll_fresh heap childV _ _)
end

/-- The children of the copy are the copies of the children, each as `add` leaves it. -/
theorem cloneAll_eq (heap : Addr → NodeFields) (childV : List Node) (me : Node) (fresh : Addr) :
    ∃ copies, (cloneAll heap me fresh childV).1 = .mk me.this me.fields (me.childV ++ copies) ∧
      copies.length = childV.length ∧
      ∀ (i : Nat) (child : Node), childV[i]? = some child → ∃ at_, fresh ≤ at_ ∧
        copies[i]? = some ((clone heap at_ child).1.attached me.this me.fields (me.childV.length + i)) := by
  induction childV generalizing me fresh with
  | nil =>
    refine ⟨[], ?_, rfl, by simp⟩
    cases me
    simp [cloneAll]
  | cons first childV ih =>
    obtain ⟨copies, hcopy, hlength, hcopies⟩ :=
      ih (me.addNode (clone heap fresh first).1) (clone heap fresh first).2
    obtain ⟨this, f, cs⟩ := me
    rw [Node.addNode] at hcopy hcopies
    simp only [Node.this_mk, Node.fields_mk, Node.childV_mk, List.length_append, List.length_singleton,
      List.append_assoc, List.singleton_append] at hcopy hcopies
    refine ⟨_, hcopy, by rw [List.length_cons, List.length_cons, hlength], fun i child hi => ?_⟩
    cases i with
    | zero =>
      cases hi
      exact ⟨fresh, Nat.le_refl _, rfl⟩
    | succ i =>
      obtain ⟨at_, hat, hget⟩ := hcopies i child (by simpa using hi)
      refine ⟨at_, Nat.le_trans (clone_fresh heap first fresh) hat, ?_⟩
      have hix : cs.length + (i + 1) = cs.length + 1 + i := by omega
      rw [Node.childV_mk, hix]
      simpa using hget

theorem deref_root (root : Node) : deref root root.this = root.fields := by
  obtain ⟨this, f, childV⟩ := root
  simp [deref, Node.nodes]

/-- A child is not a root, so its copy is first made with the container of the original. -/
theorem clone_child {root : Node} {fresh : Addr} (h : Source root fresh) {i : Nat} {child : Node}
    (hi : root.childV[i]? = some child) (at_ : Addr) :
    clone (deref root) at_ child =
      cloneAll (deref root) (construct at_ root.this root.fields child.fields.path child.name child.fields.value i
        child.type) (at_ + 1) child.childV := by
  obtain ⟨hcontainer, hrootP, hsibling⟩ := h.children.get hi
  have habove : root.this < child.this := h.above child (mem_allNodes (List.mem_of_getElem? hi))
  obtain ⟨that, g, childV⟩ := child
  simp only [Node.fields_mk, Node.this_mk] at hcontainer hrootP hsibling habove
  have hne : g.rootP ≠ that := by
    rw [hrootP]
    exact Nat.ne_of_lt habove
  rw [clone, if_neg hne, hcontainer, deref_root, hsibling, Nat.zero_add]
  rfl

theorem cloneRoot_eq {root : Node} {fresh : Addr} (h : Source root fresh) :
    cloneRoot root fresh = (cloneAll (deref root) (toplevel fresh root.type) (fresh + 1) root.childV).1 := by
  obtain ⟨t, ht⟩ := h.asRoot
  obtain ⟨this, f, childV⟩ := root
  have hrootP : f.rootP = this := by
    rw [show f = (toplevel this t).fields from ht]
    rfl
  rw [cloneRoot, clone, if_pos hrootP]
  rfl

theorem placedAll_iff {rootP container : Addr} {depth : Nat} {childV : List Node} :
    PlacedAll rootP container depth childV ↔ ∀ child ∈ childV, Placed rootP container depth child := by
  induction childV with
  | nil => simp [PlacedAll]
  | cons first childV ih => rw [PlacedAll, ih, List.forall_mem_cons]

theorem alikeAll_of_get {childV copies : List Node} (hlength : copies.length = childV.length)
    (h : ∀ (i : Nat) (child copy : Node), childV[i]? = some child → copies[i]? = some copy → Alike child copy) :
    AlikeAll childV copies := by
  induction childV generalizing copies with
  | nil =>
    obtain rfl := List.length_eq_zero_iff.1 hlength
    trivial
  | cons first childV ih =>
    obtain ⟨copy, copies, rfl⟩ := List.exists_cons_of_length_eq_add_one hlength
    refine ⟨h 0 first copy rfl rfl, ih (by simpa using hlength) fun i child c hi hc => ?_⟩
    exact h (i + 1) child c (by simpa using hi) (by simpa using hc)

theorem allNodes_leaves {childV : List Node} (h : ∀ child ∈ childV, child.childV = []) : Node.allNodes childV = childV := by
  induction childV with
  | nil => rfl
  | cons first childV ih =>
    obtain ⟨this, f, cs⟩ := first
    obtain rfl : cs = [] := h _ List.mem_cons_self
    rw [Node.allNodes, Node.nodes, Node.allNodes, ih fun child hc => h child (List.mem_cons_of_mem _ hc)]
    rfl

/-- **Two levels down the copy points into the original**: what is below the copy of a child was added to it while
it still had the `rootP` of the original. -/
theorem grandchild_rootP {root : Node} {fresh : Addr} (h : Source root fresh) {child : Node} (hchild : child ∈ root.childV)
    (hbelow : child.childV ≠ []) : ¬ Placed fresh fresh 0 (cloneRoot root fresh) := by
  intro hplaced
  obtain ⟨i, hi⟩ := List.mem_iff_getElem?.1 hchild
  obtain ⟨first, rest, hfirst⟩ := List.exists_cons_of_ne_nil hbelow
  obtain ⟨copies, hcopy, -, hcopies⟩ := cloneAll_eq (deref root) root.childV (toplevel fresh root.type) (fresh + 1)
  obtain ⟨at_, -, hget⟩ := hcopies i child hi
  obtain ⟨below, hcopy', -, hbelows⟩ := cloneAll_eq (deref root) child.childV
    (construct at_ root.this root.fields child.fields.path child.name child.fields.value i child.type) (at_ + 1)
  obtain ⟨_, -, hget'⟩ := hbelows 0 first (by rw [hfirst]; rfl)
  rw [cloneRoot_eq h, hcopy, Placed] at hplaced
  have hchildcopy := placedAll_iff.1 hplaced.2 _ (List.mem_append_right _ (List.mem_of_getElem? hget))
  rw [clone_child h hi, hcopy', Node.attached, Placed] at hchildcopy
  have hgrandchild := placedAll_iff.1 hchildcopy.2 _ (List.mem_append_right _ (List.mem_of_getElem? hget'))
  obtain ⟨t, ht⟩ := h.asRoot
  have hrootP : root.fields.rootP = root.this := by
    rw [ht]
    rfl
  -- it was added to the copy of the child, whose `rootP` was that of the root
  have heq : root.this = fresh := by
    rw [← hrootP]
    revert hgrandchild
    cases (clone (deref root) _ first).1
    intro hgrandchild
    rw [Node.attached, Placed] at hgrandchild
    exact hgrandchild.1.2.1
  exact absurd heq (Nat.ne_of_lt (h.below root (mem_nodes_self root)))

/-- The copy of a string right below the root. -/
def leafCopy (at_ fresh : Addr) (i : Nat) (child : Node) : Node :=
  .mk at_ { child.fields with container := fresh, rootP := fresh, siblingNo := i, level := 1 } []

theorem cloneRoot_flat {root : Node} {fresh : Addr} (h : Source root fresh)
    (hflat : ∀ child ∈ root.childV, child.childV = []) :
    ∃ copies, cloneRoot root fresh = .mk fresh (toplevel fresh root.type).fields copies ∧
      copies.length = root.childV.length ∧
      ∀ (i : Nat) (child : Node), root.childV[i]? = some child → ∃ at_, fresh ≤ at_ ∧
        copies[i]? = some (leafCopy at_ fresh i child) := by
  obtain ⟨copies, hcopy, hlength, hcopies⟩ :=
    cloneAll_eq (deref root) root.childV (toplevel fresh root.type) (fresh + 1)
  refine ⟨copies, by rw [cloneRoot_eq h, hcopy]; rfl, hlength, fun i child hi => ?_⟩
  obtain ⟨at_, hat, hget⟩ := hcopies i child hi
  refine ⟨at_, Nat.le_of_succ_le hat, ?_⟩
  rw [hget, clone_child h hi, hflat child (List.mem_of_getElem? hi), cloneAll]
  simp [construct, toplevel, Node.attached, leafCopy, Node.name, Node.type]

/-- **A flat tree is copied well.** -/
theorem deepCopy_flat {root : Node} {fresh : Addr} (h : Source root fresh)
    (hflat : ∀ child ∈ root.childV, child.childV = []) : DeepCopy root (cloneRoot root fresh) := by
  obtain ⟨copies, hcopy, hlength, hcopies⟩ := cloneRoot_flat h hflat
  have hmem : ∀ copy ∈ copies, ∃ at_ i child, fresh ≤ at_ ∧ copy = leafCopy at_ fresh i child := by
    intro copy hc
    obtain ⟨i, hi⟩ := List.mem_iff_getElem?.1 hc
    have hlt : i < root.childV.length := by
      rw [← hlength]
      exact (List.getElem?_eq_some_iff.1 hi).1
    obtain ⟨at_, hat, hget⟩ := hcopies i _ (List.getElem?_eq_getElem hlt)
    exact ⟨at_, i, _, hat, Option.some.inj (hi.symm.trans hget)⟩
  rw [hcopy]
  refine ⟨?_, ?_, ?_⟩
  · obtain ⟨t, ht⟩ := h.asRoot
    obtain ⟨this, f, childV⟩ := root
    rw [Node.fields_mk, Node.this_mk] at ht
    subst ht
    refine ⟨⟨rfl, rfl, rfl, rfl⟩, alikeAll_of_get hlength fun i child copy hi hc => ?_⟩
    obtain ⟨at_, -, hget⟩ := hcopies i child hi
    obtain rfl := Option.some.inj (hc.symm.trans hget)
    have hsibling := (h.children.get hi).2.2
    have hleaf := hflat child (List.mem_of_getElem? hi)
    obtain ⟨that, g, cs⟩ := child
    obtain rfl : cs = [] := hleaf
    exact ⟨⟨rfl, rfl, rfl, by simpa [leafCopy] using hsibling⟩, trivial⟩
  · refine ⟨⟨rfl, rfl, rfl⟩, placedAll_iff.2 fun copy hc => ?_⟩
    obtain ⟨at_, i, child, -, rfl⟩ := hmem copy hc
    exact ⟨⟨rfl, rfl, rfl⟩, trivial⟩
  · have hcopies' : ∀ n ∈ (Node.mk fresh (toplevel fresh root.type).fields copies).nodes,
        fresh ≤ n.this ∧ n.fields.container = fresh ∧ n.fields.rootP = fresh := by
      have hleaves : ∀ copy ∈ copies, copy.childV = [] := by
        intro copy hc
        obtain ⟨at_, i, child, -, rfl⟩ := hmem copy hc
        rfl
      rw [Node.nodes, allNodes_leaves hleaves, List.forall_mem_cons]
      refine ⟨⟨Nat.le_refl _, rfl, rfl⟩, fun copy hc => ?_⟩
      obtain ⟨at_, i, child, hat, rfl⟩ := hmem copy hc
      exact ⟨hat, rfl, rfl⟩
    intro n hn m hm
    obtain ⟨hthis, hcontainer, hrootP⟩ := hcopies' n hn
    have hlt := h.below m hm
    rw [hcontainer, hrootP]
    exact ⟨(Nat.ne_of_lt (Nat.lt_of_lt_of_le hlt hthis)).symm, (Nat.ne_of_lt hlt).symm, (Nat.ne_of_lt hlt).symm⟩

/-- **The copy is deep** exactly when no child of the root has children. -/
theorem clone_deep_iff {root : Node} {fresh : Addr} (hsource : Built root fresh ∨ Queried root fresh) :
    DeepCopy root (cloneRoot root fresh) ↔ ∀ child ∈ root.childV, child.childV = [] := by
  have h : Source root fresh := by
    rcases hsource with h | h
    · exact h.source
    · exact h.source
  constructor
  · intro hcopy child hchild
    by_contra hbelow
    have hplaced := hcopy.placed
    rw [show (cloneRoot root fresh).this = fresh from ?_] at hplaced
    · exact grandchild_rootP h hchild hbelow hplaced
    · obtain ⟨copies, hc, -, -⟩ := cloneAll_eq (deref root) root.childV (toplevel fresh root.type) (fresh + 1)
      rw [cloneRoot_eq h, hc]
      rfl
  · exact deepCopy_flat h

/-- `{"a": "1"}`, as the parsers make it. -/
theorem flat_built : Built ((toplevel 0 .object).modifyAt 0 (Node.add 1 .string "a" "1")) 2 :=
  .add 0 .string "a" "1" (.new 0 .object) (by simp [toplevel, Node.nodes, Node.allNodes, Node.isContainer])

theorem flat_copied :
    DeepCopy ((toplevel 0 .object).modifyAt 0 (Node.add 1 .string "a" "1"))
      (cloneRoot ((toplevel 0 .object).modifyAt 0 (Node.add 1 .string "a" "1")) 2) :=
  (clone_deep_iff (.inl flat_built)).2 (by simp [toplevel, Node.modifyAt, Node.add, construct, Node.addNode, Node.attached])

/-- **`{"v": ["1"]}`**: the item of the copied vector points at the root of the original. -/
theorem oneItem_shared :
    ((cloneRoot oneItem 3).nodes.map fun n => (n.this, n.name, n.fields.rootP)) =
      [(3, "toplevel", 3), (4, "v", 3), (5, "item", 0)] ∧
    ¬ DeepCopy oneItem (cloneRoot oneItem 3) := by
  refine ⟨by decide, ?_⟩
  intro h
  have hthis : (cloneRoot oneItem 3).this = 3 := by decide
  have hplaced := h.placed
  rw [hthis] at hplaced
  have hvector : ∃ child ∈ oneItem.childV, child.childV ≠ [] := ⟨_, List.mem_cons_self, List.cons_ne_nil _ _⟩
  obtain ⟨child, hchild, hbelow⟩ := hvector
  exact grandchild_rootP built_oneItem.source hchild hbelow hplaced

end OrionBroker.NodeHeap
