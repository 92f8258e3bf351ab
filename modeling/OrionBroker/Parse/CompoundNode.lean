import Mathlib.Logic.Function.Basic
import OrionBroker.Parse.Compound

/-!
# Compound nodes with their pointers (src/lib/parse/CompoundValueNode.cpp)

A node owns its children, so a tree is a tree. `container` and `rootP` own nothing and are addresses, and the `error`
fields, of which only that of `rootP` is written, are a store of their own.

| here | there |
| --- | --- |
| `NodeFields`    | the fields of `CompoundValueNode` (CompoundValueNode.h:89-108), less `childV` and `error` |
| `toplevel`      | the constructor for the toplevel node (:63) |
| `construct`     | the constructor for the other nodes (:82), which does not look at its `_level` |
| `Node.addNode`  | `add(node)` (:170) |
| `Node.add`      | `add(type, name, value)` (:198) |
| `Node.toVector` | `containerP->type = Vector` (jsonParse.cpp:268, :274) |
| `Node.modifyAt` | a call through a pointer into the tree |
| `Node.check`    | `check` (:316) |
| `Node.finish`   | `finish` (:150) |

`Built` are the trees that come out of any number of these calls, in any order. `finish_exact` says which of them
are accepted.
-/

namespace OrionBroker.NodeHeap

abbrev Addr := Nat

structure NodeFields where
  type : NodeType
  name : String
  value : String
  path : String
  container : Addr
  rootP : Addr
  siblingNo : Nat
  level : Nat
deriving DecidableEq, Repr

inductive Node where
  | mk (this : Addr) (fields : NodeFields) (childV : List Node)
deriving Repr

namespace Node

def this : Node → Addr
  | mk this _ _ => this

def fields : Node → NodeFields
  | mk _ fields _ => fields

def childV : Node → List Node
  | mk _ _ childV => childV

def name (n : Node) : String := n.fields.name

def type (n : Node) : NodeType := n.fields.type

@[simp] theorem this_mk (a : Addr) (f : NodeFields) (cs : List Node) : (mk a f cs).this = a := rfl
@[simp] theorem fields_mk (a : Addr) (f : NodeFields) (cs : List Node) : (mk a f cs).fields = f := rfl
@[simp] theorem childV_mk (a : Addr) (f : NodeFields) (cs : List Node) : (mk a f cs).childV = cs := rfl
@[simp] theorem name_mk (a : Addr) (f : NodeFields) (cs : List Node) : (mk a f cs).name = f.name := rfl
@[simp] theorem type_mk (a : Addr) (f : NodeFields) (cs : List Node) : (mk a f cs).type = f.type := rfl

end Node

def toplevel (this : Addr) (type : NodeType) : Node :=
  .mk this { type := type, name := "toplevel", value := "", path := "/", container := this, rootP := this,
             siblingNo := 0, level := 0 } []

/-- `container` is the address of the container, and `f` what is stored there. -/
def construct (this container : Addr) (f : NodeFields) (path name value : String) (siblingNo : Nat)
    (type : NodeType) : Node :=
  .mk this { type := type, name := name, value := value, path := path, container := container, rootP := f.rootP,
             siblingNo := siblingNo, level := f.level + 1 } []

namespace Node

/-- What `add(node)` makes of `node`: `this` and `f` are the container's. -/
def attached (this : Addr) (f : NodeFields) (siblingNo : Nat) : Node → Node
  | mk that g childV =>
    mk that { g with container := this, level := f.level + 1, siblingNo := siblingNo, rootP := f.rootP } childV

def addNode : Node → Node → Node
  | mk this f childV, node => mk this f (childV ++ [node.attached this f childV.length])

/-- `fresh` is the address of the new node. -/
def add (fresh : Addr) (type : NodeType) (name value : String) (me : Node) : Node :=
  me.addNode (construct fresh me.this me.fields (CompoundValueNode.childPath me.fields.path name) name value
    me.childV.length type)

def toVector : Node → Node
  | mk this f childV => mk this { f with type := .vector } childV

mutual
def modifyAt (a : Addr) (g : Node → Node) : Node → Node
  | mk this f childV => if this = a then g (mk this f childV) else mk this f (modifyAll a g childV)
def modifyAll (a : Addr) (g : Node → Node) : List Node → List Node
  | [] => []
  | child :: childV => child.modifyAt a g :: modifyAll a g childV
end

mutual
/-- All nodes of a tree, the root first. -/
def nodes : Node → List Node
  | mk this f childV => mk this f childV :: allNodes childV
def allNodes : List Node → List Node
  | [] => []
  | child :: childV => child.nodes ++ allNodes childV
end

mutual
/-- The tree without its pointers. -/
def tree : Node → CompoundValueNode
  | mk _ f childV => .mk f.type f.name f.value (trees childV)
def trees : List Node → List CompoundValueNode
  | [] => []
  | child :: childV => child.tree :: trees childV
end

/-- The loops read the names of the children only. -/
def ownError (f : NodeFields) (childV : List Node) : Option String :=
  match f.type with
  | .vector => CompoundValueNode.vectorError (trees childV)
  | .object => CompoundValueNode.objectError f.path (trees childV)
  | _ => none

def isContainer (f : NodeFields) : Bool := f.type == .vector || f.type == .object

mutual
/-- `error` are the `error` fields, by the address of the node. -/
def check : Node → (Addr → String) → Addr → String
  | mk _ f childV, error =>
    if isContainer f then
      match ownError f childV with
      | some e => Function.update error f.rootP e
      | none => checkAll childV error
    else error
def checkAll : List Node → (Addr → String) → Addr → String
  | [], error => error
  | child :: childV, error => checkAll childV (child.check error)
end

def finish (root : Node) (error : Addr → String) : String :=
  root.check (Function.update error root.this "OK") root.this

end Node

/-- The trees of the parsers. The second argument is the next free address; only a vector or an object is added to,
or made a vector. -/
inductive Built : Node → Addr → Prop where
  | new (this : Addr) (type : NodeType) : Built (toplevel this type) (this + 1)
  | add {root : Node} {fresh : Addr} (a : Addr) (type : NodeType) (name value : String) (h : Built root fresh)
      (hcontainer : ∀ n ∈ root.nodes, n.this = a → Node.isContainer n.fields = true) :
      Built (root.modifyAt a (Node.add fresh type name value)) (fresh + 1)
  | toVector {root : Node} {fresh : Addr} (a : Addr) (h : Built root fresh)
      (hcontainer : ∀ n ∈ root.nodes, n.this = a → Node.isContainer n.fields = true) :
      Built (root.modifyAt a Node.toVector) fresh

/-! ## What every tree keeps -/

/-- What `add` sets in a child: `this`, `rootP`, `path` and `level` are those of the container. -/
structure ChildOf (this rootP : Addr) (path : String) (level ix : Nat) (child : NodeFields) : Prop where
  container : child.container = this
  rootP : child.rootP = rootP
  siblingNo : child.siblingNo = ix
  level : child.level = level + 1
  path : child.path = CompoundValueNode.childPath path child.name

mutual
/-- Every node below is the child of its container, and only containers have children. -/
def Linked : Node → Prop
  | .mk this f childV => (Node.isContainer f = true ∨ childV = []) ∧ LinkedAll this f.rootP f.path f.level 0 childV
def LinkedAll (this rootP : Addr) (path : String) (level ix : Nat) : List Node → Prop
  | [] => True
  | child :: childV =>
    ChildOf this rootP path level ix child.fields ∧ Linked child ∧ LinkedAll this rootP path level (ix + 1) childV
end

theorem linkedAll_append {this rootP : Addr} {path : String} {level : Nat} {childV more : List Node} {ix : Nat} :
    LinkedAll this rootP path level ix (childV ++ more) ↔
      LinkedAll this rootP path level ix childV ∧ LinkedAll this rootP path level (ix + childV.length) more := by
  induction childV generalizing ix with
  | nil => simp [LinkedAll]
  | cons child childV ih =>
    have hix : ix + (child :: childV).length = ix + 1 + childV.length := by
      rw [List.length_cons]
      omega
    rw [List.cons_append, LinkedAll, LinkedAll, ih, hix, and_assoc, and_assoc]

/-- The node is what it was, but for its type and what is below it. -/
structure Retyped (n n' : Node) : Prop where
  this : n'.this = n.this
  fields : ∃ t, n'.fields = { n.fields with type := t }

theorem Retyped.refl (n : Node) : Retyped n n := ⟨rfl, n.type, rfl⟩

theorem Retyped.childOf {n n' : Node} (h : Retyped n n') {this rootP : Addr} {path : String} {level ix : Nat}
    (hc : ChildOf this rootP path level ix n.fields) : ChildOf this rootP path level ix n'.fields := by
  obtain ⟨t, ht⟩ := h.fields
  rw [ht]
  exact ⟨hc.container, hc.rootP, hc.siblingNo, hc.level, hc.path⟩

section Modify

variable {a : Addr} {g : Node → Node}

mutual
/-- A call that keeps the links of the node it is made on keeps those of the tree. -/
theorem modifyAt_linked (hg : ∀ n, n.this = a → Node.isContainer n.fields = true → Linked n → Linked (g n) ∧ Retyped n (g n)) :
    ∀ n : Node, (∀ m ∈ n.nodes, m.this = a → Node.isContainer m.fields = true) → Linked n →
      Linked (n.modifyAt a g) ∧ Retyped n (n.modifyAt a g)
  | .mk this f childV, hcontainer, h => by
    rw [Node.modifyAt]
    by_cases hthis : this = a
    · rw [if_pos hthis]
      exact hg _ hthis (hcontainer _ (by simp [Node.nodes]) hthis) h
    · rw [if_neg hthis]
      rw [Linked] at h
      refine ⟨?_, rfl, f.type, rfl⟩
      rw [Linked]
      refine ⟨h.1.imp id ?_, modifyAll_linked hg childV (fun m hm => hcontainer m ?_) h.2⟩
      · rintro rfl
        rfl
      · rw [Node.nodes]
        exact List.mem_cons_of_mem _ hm
theorem modifyAll_linked (hg : ∀ n, n.this = a → Node.isContainer n.fields = true → Linked n → Linked (g n) ∧ Retyped n (g n)) :
    ∀ (childV : List Node) {this rootP : Addr} {path : String} {level ix : Nat},
      (∀ m ∈ Node.allNodes childV, m.this = a → Node.isContainer m.fields = true) →
      LinkedAll this rootP path level ix childV → LinkedAll this rootP path level ix (Node.modifyAll a g childV)
  | [], _, _, _, _, _, _, h => h
  | child :: childV, _, _, _, _, _, hcontainer, h => by
    rw [Node.allNodes] at hcontainer
    rw [LinkedAll] at h
    obtain ⟨hchild, hkept⟩ :=
      modifyAt_linked hg child (fun m hm => hcontainer m (List.mem_append_left _ hm)) h.2.1
    rw [Node.modifyAll, LinkedAll]
    exact ⟨hkept.childOf h.1, hchild,
      modifyAll_linked hg childV (fun m hm => hcontainer m (List.mem_append_right _ hm)) h.2.2⟩
end

end Modify

theorem add_linked (fresh : Addr) (type : NodeType) (name value : String) {n : Node}
    (hcontainer : Node.isContainer n.fields = true) (h : Linked n) :
    Linked (n.add fresh type name value) ∧ Retyped n (n.add fresh type name value) := by
  obtain ⟨this, f, childV⟩ := n
  rw [Linked] at h
  refine ⟨?_, rfl, f.type, rfl⟩
  simp only [Node.add, construct, Node.addNode, Node.attached, Linked, linkedAll_append]
  refine ⟨.inl hcontainer, h.2, ?_⟩
  rw [LinkedAll, LinkedAll, Linked, LinkedAll]
  exact ⟨⟨rfl, rfl, by simp, rfl, rfl⟩, ⟨.inr rfl, trivial⟩, trivial⟩

theorem toVector_linked {n : Node} (h : Linked n) : Linked n.toVector ∧ Retyped n n.toVector := by
  obtain ⟨this, f, childV⟩ := n
  rw [Linked] at h
  refine ⟨?_, rfl, .vector, rfl⟩
  rw [Node.toVector, Linked]
  exact ⟨.inl rfl, h.2⟩

/-- The root is as its constructor left it, but for its type. -/
def AsRoot (root : Node) : Prop := ∃ t, root.fields = (toplevel root.this t).fields

theorem AsRoot.retyped {n n' : Node} (h : AsRoot n) (hr : Retyped n n') : AsRoot n' := by
  obtain ⟨t, ht⟩ := h
  obtain ⟨t', ht'⟩ := hr.fields
  refine ⟨t', ?_⟩
  rw [ht', ht, hr.this]
  rfl

/-- **The pointers are right in every tree that is built.** -/
theorem Built.linked {root : Node} {fresh : Addr} (h : Built root fresh) : Linked root ∧ AsRoot root := by
  induction h with
  | new this type => exact ⟨by simp [toplevel, Linked, LinkedAll], type, rfl⟩
  | add a type name value _ hcontainer ih =>
    obtain ⟨hlinked, hkept⟩ := modifyAt_linked (fun n _ hn h => add_linked _ type name value hn h) _ hcontainer ih.1
    exact ⟨hlinked, ih.2.retyped hkept⟩
  | toVector a _ hcontainer ih =>
    obtain ⟨hlinked, hkept⟩ := modifyAt_linked (fun n _ _ h => toVector_linked h) _ hcontainer ih.1
    exact ⟨hlinked, ih.2.retyped hkept⟩

/-! ## The check without its pointers -/

/-- What is stored in the root after a check that found `found`. -/
def recorded (rootP : Addr) (error : Addr → String) : Option String → Addr → String
  | none => error
  | some e => Function.update error rootP e

theorem recorded_twice (rootP : Addr) (error : Addr → String) (first last : Option String) :
    recorded rootP (recorded rootP error first) last = recorded rootP error (last <|> first) := by
  cases last with
  | none => rfl
  | some e =>
    cases first with
    | none => rfl
    | some e' => simp [recorded]

mutual
/-- All errors of a tree end in one place, and the last one stays. -/
theorem check_eq : ∀ (n : Node) (error : Addr → String), Linked n →
    n.check error = recorded n.fields.rootP error (n.tree.check n.fields.path)
  | .mk this ⟨type, name, value, path, container, rootP, siblingNo, level⟩ childV, error, h => by
    rw [Linked] at h
    have hall := checkAll_eq childV error h.2
    cases type with
    | vector =>
      simp only [Node.check, Node.tree, Node.fields_mk, Node.isContainer, Node.ownError, CompoundValueNode.check]
      cases CompoundValueNode.vectorError (Node.trees childV) with
      | none => simpa using hall
      | some e => simp [recorded]
    | object =>
      simp only [Node.check, Node.tree, Node.fields_mk, Node.isContainer, Node.ownError, CompoundValueNode.check]
      cases CompoundValueNode.objectError path (Node.trees childV) with
      | none => simpa using hall
      | some e => simp [recorded]
    | string => simp [Node.check, Node.tree, Node.isContainer, CompoundValueNode.check, recorded]
    | unknown => simp [Node.check, Node.tree, Node.isContainer, CompoundValueNode.check, recorded]
theorem checkAll_eq : ∀ (childV : List Node) (error : Addr → String) {this rootP : Addr} {path : String}
    {level ix : Nat}, LinkedAll this rootP path level ix childV →
    Node.checkAll childV error = recorded rootP error (CompoundValueNode.checkChildren path (Node.trees childV))
  | [], _, _, _, _, _, _, _ => rfl
  | child :: childV, error, this, rootP, path, level, ix, h => by
    rw [LinkedAll] at h
    have hpath : child.fields.path = CompoundValueNode.childPath path child.tree.name := by
      obtain ⟨a, f, cs⟩ := child
      exact h.1.path
    rw [Node.checkAll, checkAll_eq childV _ h.2.2, check_eq child error h.2.1, h.1.rootP, hpath, recorded_twice]
    rfl
end

/-- **The check of the tree** is the one that `compoundValueEnd` makes. -/
theorem finish_tree {root : Node} (hlinked : Linked root) (hroot : AsRoot root) (error : Addr → String) :
    root.finish error = root.tree.finish := by
  obtain ⟨t, ht⟩ := hroot
  have hrootP : root.fields.rootP = root.this := by
    rw [ht]
    rfl
  have hpath : root.fields.path = "/" := by
    rw [ht]
    rfl
  rw [Node.finish, check_eq root _ hlinked, hrootP, hpath, CompoundValueNode.finish]
  cases root.tree.check "/" with
  | none => simp [recorded]
  | some e => simp [recorded]

/-! ## What is accepted -/

def ItemsAlike (n : Node) : Prop := n.type = .vector → ∀ x ∈ n.childV, ∀ y ∈ n.childV, x.name = y.name

def MembersDistinct (n : Node) : Prop := n.type = .object → (n.childV.map Node.name).Nodup

@[simp] theorem tree_name (n : Node) : n.tree.name = n.name := by
  cases n
  rfl

theorem trees_eq (childV : List Node) : Node.trees childV = childV.map Node.tree := by
  induction childV with
  | nil => rfl
  | cons child childV ih => rw [Node.trees, ih, List.map_cons]

theorem vectorError_trees (childV : List Node) :
    CompoundValueNode.vectorError (Node.trees childV) = none ↔ ∀ x ∈ childV, ∀ y ∈ childV, x.name = y.name := by
  rw [CompoundValueNode.vectorError_eq_none_iff, trees_eq]
  simp

theorem objectError_trees (path : String) (childV : List Node) :
    CompoundValueNode.objectError path (Node.trees childV) = none ↔ (childV.map Node.name).Nodup := by
  rw [CompoundValueNode.objectError_eq_none_iff, trees_eq, List.map_map]
  have hnames : CompoundValueNode.name ∘ Node.tree = Node.name := funext tree_name
  rw [hnames]

mutual
/-- By induction on the tree: below a node that is no container there is nothing to check. -/
theorem check_none_iff : ∀ (n : Node) (path : String), Linked n →
    (n.tree.check path = none ↔ ∀ m ∈ n.nodes, ItemsAlike m ∧ MembersDistinct m)
  | .mk this ⟨type, name, value, p, container, rootP, siblingNo, level⟩ childV, path, h => by
    rw [Linked] at h
    have hall := checkAll_none_iff childV path h.2
    rw [Node.nodes, List.forall_mem_cons, ← hall, Node.tree]
    cases type with
    | vector =>
      rw [CompoundValueNode.check]
      have hown := vectorError_trees childV
      cases hv : CompoundValueNode.vectorError (Node.trees childV) with
      | none => simpa [ItemsAlike, MembersDistinct] using fun _ => hown.1 hv
      | some e =>
        have hnot := mt hown.2 (by simp [hv])
        simpa [ItemsAlike, MembersDistinct] using fun h => absurd h (by simpa using hnot)
    | object =>
      rw [CompoundValueNode.check]
      have hown := objectError_trees path childV
      cases hv : CompoundValueNode.objectError path (Node.trees childV) with
      | none => simpa [ItemsAlike, MembersDistinct] using fun _ => hown.1 hv
      | some e =>
        have hnot := mt hown.2 (by simp [hv])
        simpa [ItemsAlike, MembersDistinct] using fun h => absurd h hnot
    | string =>
      obtain rfl : childV = [] := by simpa [Node.isContainer] using h.1
      simp [CompoundValueNode.check, ItemsAlike, MembersDistinct, Node.trees, CompoundValueNode.checkChildren]
    | unknown =>
      obtain rfl : childV = [] := by simpa [Node.isContainer] using h.1
      simp [CompoundValueNode.check, ItemsAlike, MembersDistinct, Node.trees, CompoundValueNode.checkChildren]
theorem checkAll_none_iff : ∀ (childV : List Node) (path : String) {this rootP : Addr} {p : String}
    {level ix : Nat}, LinkedAll this rootP p level ix childV →
    (CompoundValueNode.checkChildren path (Node.trees childV) = none ↔
      ∀ m ∈ Node.allNodes childV, ItemsAlike m ∧ MembersDistinct m)
  | [], _, _, _, _, _, _, _ => by simp [Node.trees, CompoundValueNode.checkChildren, Node.allNodes]
  | child :: childV, path, _, _, _, _, _, h => by
    rw [LinkedAll] at h
    have hchild := check_none_iff child (CompoundValueNode.childPath path child.tree.name) h.2.1
    have hrest := checkAll_none_iff childV path h.2.2
    rw [Node.trees, Node.allNodes, List.forall_mem_append, ← hchild, ← hrest, CompoundValueNode.checkChildren]
    cases CompoundValueNode.checkChildren path (Node.trees childV) with
    | none => simp
    | some e => simp
end

/-- **The check is exact**: a tree that is built is accepted exactly when the items of every vector have one name,
and the members of every object have different names. -/
theorem finish_exact {root : Node} {fresh : Addr} (hbuilt : Built root fresh) (error : Addr → String) :
    root.finish error = "OK" ↔ ∀ n ∈ root.nodes, ItemsAlike n ∧ MembersDistinct n := by
  obtain ⟨hlinked, hroot⟩ := hbuilt.linked
  rw [finish_tree hlinked hroot, CompoundValueNode.finish_eq_ok_iff]
  exact check_none_iff root "/" hlinked

/-- An object with a vector. -/
theorem built_vector : Built ((toplevel 0 .object).modifyAt 0 (Node.add 1 .vector "v" "")) 2 :=
  .add 0 .vector "v" "" (.new 0 .object) (by simp [toplevel, Node.nodes, Node.allNodes, Node.isContainer])

/-- The same with an item in the vector. -/
def oneItem : Node :=
  ((toplevel 0 .object).modifyAt 0 (Node.add 1 .vector "v" "")).modifyAt 1 (Node.add 2 .string "item" "1")

theorem built_oneItem : Built oneItem 3 := by
  refine .add 1 .string "item" "1" built_vector ?_
  intro n hn
  simp only [toplevel, Node.modifyAt, if_true, Node.add, construct, Node.addNode, Node.attached, Node.nodes, Node.allNodes,
    List.nil_append, List.append_nil, List.mem_cons, List.not_mem_nil, or_false] at hn
  rcases hn with rfl | rfl
  · decide
  · decide

theorem oneItem_accepted :
    (oneItem.finish fun _ => "") = "OK" ∧ ∀ n ∈ oneItem.nodes, ItemsAlike n ∧ MembersDistinct n := by
  have hok : (oneItem.finish fun _ => "") = "OK" := by decide
  exact ⟨hok, (finish_exact built_oneItem fun _ => "").1 hok⟩

end OrionBroker.NodeHeap
