import OrionBroker.Common.CString
import OrionBroker.Ngsi.Types

/-!
# What the two parsers share (src/lib/parse, ParseData.h, ConnectionInfo.h)

| here | there |
| --- | --- |
| `forbiddenChars`            | `forbiddenChars` (forbiddenChars.cpp:36) |
| `CompoundValueNode.add`     | `CompoundValueNode::add` (CompoundValueNode.cpp:198) |
| `CompoundValueNode.check`   | `CompoundValueNode::check` (CompoundValueNode.cpp:316) |
| `CompoundValueNode.finish`  | `CompoundValueNode::finish` (CompoundValueNode.cpp:150) |
| `ConnectionInfo`            | `ConnectionInfo` (ConnectionInfo.h), what the parsers use of it |
| `ParseData`                 | `ParseData` (ParseData.h:326), see below |
| `ParseNode`                 | an entry of a `JsonNode` or `XmlNode` parse vector |
| `compoundValueEnd`          | `compoundValueEnd` (compoundValue.cpp:140) |

A request type is its parse vector. Of `ParseData` the attributes are kept, each with its `compoundValueP`,
and the two pointers at them; everything else a treat function fills is `rest`, of any type. A treat function
is then what it does to `rest` and how it uses the attribute pointers, and it may run into a null pointer of
its own. `inCompoundValue` is left out: only `compoundValueStart`, which nothing calls, sets it.
-/

namespace OrionBroker

/-- The apostrophe is `\x27`. -/
def isForbidden (c : Char) : Bool :=
  c == '<' || c == '>' || c == '"' || c == '\x27' || c == '=' || c == ';' || c == '(' || c == ')'

def forbiddenChars (s : String) : Bool := (cStr s).any isForbidden

/-- The loop of `isCompoundPath` and `isCompoundValuePath`: the bytes of one of the roots start the path. A
root has no NUL in it, so neither has the part of the path that is compared. -/
def hasRoot (roots : List String) (path : String) : Bool :=
  roots.any fun root => root.toByteArray.data.toList.isPrefixOf path.toByteArray.data.toList

/-! ## Compound trees -/

namespace CompoundValueNode

/-- `add(node)`; the child is complete when it is added, since nothing reads the tree while it grows. -/
def push : CompoundValueNode → CompoundValueNode → CompoundValueNode
  | mk type name value childV, child => mk type name value (childV ++ [child])

def add (container : CompoundValueNode) (type : NodeType) (name value : String) : CompoundValueNode :=
  container.push (mk type name value [])

/-- `containerP->type = Vector`. -/
def toVector : CompoundValueNode → CompoundValueNode
  | mk _ name value childV => mk .vector name value childV

/-- The constructor for the toplevel node (CompoundValueNode.cpp:63). -/
def toplevel (type : NodeType) : CompoundValueNode := mk type "toplevel" "" []

/-- The path `add` gives a child. -/
def childPath (path name : String) : String := if path = "/" then path ++ name else path ++ "/" ++ name

/-- The loop over the items of a vector (CompoundValueNode.cpp:325-335). -/
def vectorError : List CompoundValueNode → Option String
  | [] => none
  | first :: items => (items.find? (·.name != first.name)).map fun item =>
    "bad tag-name of vector item: /" ++ item.name ++ "/, should be /" ++ first.name ++ "/"

/-- The two loops over the members of an object (CompoundValueNode.cpp:344-356). -/
def objectError (path : String) : List CompoundValueNode → Option String
  | [] => none
  | member :: members =>
    if members.any (·.name == member.name) then
      some ("duplicated tag-name: /" ++ member.name ++ "/ in path: " ++ path)
    else objectError path members

mutual
/-- What the check writes to `rootP->error`, if anything: of several errors the last one stays. -/
def check (path : String) : CompoundValueNode → Option String
  | mk .vector _ _ childV =>
    match vectorError childV with
    | some error => some error
    | none => checkChildren path childV
  | mk .object _ _ childV =>
    match objectError path childV with
    | some error => some error
    | none => checkChildren path childV
  | mk _ _ _ _ => none
def checkChildren (path : String) : List CompoundValueNode → Option String
  | [] => none
  | child :: childV => checkChildren path childV <|> child.check (childPath path child.name)
end

def finish (root : CompoundValueNode) : String := (root.check "/").getD "OK"

theorem vectorError_eq_none_iff {childV : List CompoundValueNode} :
    vectorError childV = none ↔ ∀ x ∈ childV, ∀ y ∈ childV, x.name = y.name := by
  cases childV with
  | nil => simp [vectorError]
  | cons first items =>
    rw [vectorError, Option.map_eq_none_iff, List.find?_eq_none]
    constructor
    · intro h
      have hfirst : ∀ x ∈ first :: items, x.name = first.name := by
        intro x hx
        rcases List.mem_cons.1 hx with rfl | hx
        · rfl
        · simpa using h x hx
      intro x hx y hy
      rw [hfirst x hx, hfirst y hy]
    · intro h item hitem
      simp [h item (List.mem_cons_of_mem _ hitem) first List.mem_cons_self]

theorem objectError_eq_none_iff {path : String} {childV : List CompoundValueNode} :
    objectError path childV = none ↔ (childV.map name).Nodup := by
  induction childV with
  | nil => simp [objectError]
  | cons member members ih =>
    rw [objectError, List.map_cons, List.nodup_cons, ← ih]
    by_cases h : members.any (·.name == member.name) = true
    · have hmem : member.name ∈ members.map name := by
        obtain ⟨m, hm, he⟩ := List.any_eq_true.1 h
        rw [← eq_of_beq he]
        exact List.mem_map_of_mem hm
      simp [h, hmem]
    · have hnot : member.name ∉ members.map name := by
        intro hmem
        obtain ⟨m, hm, he⟩ := List.mem_map.1 hmem
        exact h (List.any_eq_true.2 ⟨m, hm, by simp [he]⟩)
      simp [h, hnot]

theorem vectorError_ne_ok {childV : List CompoundValueNode} {e : String} (h : vectorError childV = some e) : e ≠ "OK" := by
  cases childV with
  | nil => simp [vectorError] at h
  | cons first items =>
    rw [vectorError, Option.map_eq_some_iff] at h
    obtain ⟨item, _, rfl⟩ := h
    intro he
    simpa using congrArg (fun s => s.toList.head?) he

theorem objectError_ne_ok {path : String} {childV : List CompoundValueNode} {e : String}
    (h : objectError path childV = some e) : e ≠ "OK" := by
  induction childV with
  | nil => simp [objectError] at h
  | cons member members ih =>
    rw [objectError] at h
    split at h
    · rw [← Option.some.inj h]
      intro he
      simpa using congrArg (fun s => s.toList.head?) he
    · exact ih h

mutual
theorem check_ne_ok : ∀ (node : CompoundValueNode) {path e : String}, node.check path = some e → e ≠ "OK"
  | mk type name value childV, path, e, h => by
    cases type with
    | vector =>
      rw [check] at h
      split at h
      · rename_i he
        cases h
        exact vectorError_ne_ok he
      · exact checkChildren_ne_ok childV h
    | object =>
      rw [check] at h
      split at h
      · rename_i he
        cases h
        exact objectError_ne_ok he
      · exact checkChildren_ne_ok childV h
    | string => simp [check] at h
    | unknown => simp [check] at h
theorem checkChildren_ne_ok : ∀ (childV : List CompoundValueNode) {path e : String},
    checkChildren path childV = some e → e ≠ "OK"
  | [], _, _, h => by simp [checkChildren] at h
  | child :: childV, path, e, h => by
    rw [checkChildren] at h
    cases hrest : checkChildren path childV with
    | some e' =>
      rw [hrest] at h
      cases h
      exact checkChildren_ne_ok childV hrest
    | none =>
      rw [hrest] at h
      exact check_ne_ok child h
end

/-- No error is called "OK". -/
theorem finish_eq_ok_iff (root : CompoundValueNode) : root.finish = "OK" ↔ root.check "/" = none := by
  rw [finish]
  cases h : root.check "/" with
  | none => simp
  | some e => simpa using check_ne_ok root h

end CompoundValueNode

/-! ## The state of a parse -/

structure ConnectionInfo where
  payloadWord : String
  httpStatusCode : HttpStatusCode := .ok
  answer : String := ""
  compoundValueRoot : Option CompoundValueNode := none

def ConnectionInfo.bad (ciP : ConnectionInfo) (answer : String) : ConnectionInfo :=
  { ciP with httpStatusCode := .badRequest, answer := answer }

/-- After `eatCompound`, which made the tree `root` and, in case of an error, left `error` as the answer. -/
def ConnectionInfo.eaten (ciP : ConnectionInfo) (root : Option CompoundValueNode) (error : Option String) :
    ConnectionInfo :=
  { error.elim ciP ciP.bad with compoundValueRoot := root.or ciP.compoundValueRoot }

@[simp] theorem ConnectionInfo.eaten_payloadWord (ciP : ConnectionInfo) (root : Option CompoundValueNode)
    (error : Option String) : (ciP.eaten root error).payloadWord = ciP.payloadWord := by
  cases error <;> rfl

@[simp] theorem ConnectionInfo.eaten_compoundValueRoot (ciP : ConnectionInfo) (root : Option CompoundValueNode)
    (error : Option String) : (ciP.eaten root error).compoundValueRoot = root.or ciP.compoundValueRoot := rfl

/-- Where `lastContextAttribute` points: at `upcar.attribute`, or at the attribute created as number `i`. -/
inductive AttributeRef where
  | upcar
  | created (i : Nat)
deriving DecidableEq, Repr

/-- `attributes` and `upcarAttribute` hold the `compoundValueP` of each attribute, `upcarRes` that of
`upcar.res`. A pointer that is set points at an attribute of this payload. -/
structure ParseData (D : Type) where
  attributes : List (Option CompoundValueNode) := []
  upcarAttribute : Option CompoundValueNode := none
  upcarRes : Option CompoundValueNode := none
  attributeP : Option Nat := none
  lastContextAttribute : Option AttributeRef := none
  rest : D
  attributeP_lt : ∀ i, attributeP = some i → i < attributes.length := by simp
  last_lt : ∀ i, lastContextAttribute = some (.created i) → i < attributes.length := by simp

/-- The state both parsers work on; `errorMsg` is what `errorMsgP` points to, which JSON does not have. -/
structure ParseState (D : Type) where
  ciP : ConnectionInfo
  parseDataP : ParseData D
  errorMsg : String := ""

/-- How a parse ends before its last node. -/
inductive Stop where
  /-- `jsonParse` returned something other than "OK". -/
  | rejected (answer : String)
  /-- `std::logic_error`, caught by `jsonTreat`. -/
  | logicError (what : String)
  /-- A treat function follows a null pointer. -/
  | treatFunction
  /-- `ciP->compoundValueRoot->finish()` with no root. -/
  | nullRoot
  /-- `parseDataP->lastContextAttribute->compoundValueP` with no attribute. -/
  | nullAttribute
deriving DecidableEq, Repr

variable {S D : Type}

/-! ## Treat functions -/

/-- How a treat function uses the attribute pointers of its request. -/
inductive AttributeUse where
  | none
  /-- `attributeP = new ContextAttribute()`. -/
  | creates
  /-- `attributeP->...`. -/
  | follows
  /-- `lastContextAttribute = attributeP`, after which `attributeP->value` is set. -/
  | opens
  /-- `lastContextAttribute = &upcar.attribute` (jsonUpdateContextAttributeRequest.cpp:66). -/
  | upcar
deriving DecidableEq, Repr

/-- `S` is what a treat function gets to see of the node; `fill` is `none` at a null pointer. -/
structure ParseNode (S D : Type) where
  path : String
  use : AttributeUse := .none
  fill : S → D → Option D

theorem ParseData.last_lt_append (d : ParseData D) (i : Nat) (h : d.lastContextAttribute = some (.created i)) :
    i < (d.attributes ++ [none]).length := by
  have := d.last_lt i h
  rw [List.length_append]
  omega

theorem ParseData.length_lt_append (d : ParseData D) (i : Nat) (h : some d.attributes.length = some i) :
    i < (d.attributes ++ [none]).length := by
  cases h
  rw [List.length_append]
  exact Nat.lt_succ_self _

theorem ParseData.opened_lt (d : ParseData D) {i : Nat} (h : d.attributeP = some i) (j : Nat)
    (hj : some (AttributeRef.created i) = some (.created j)) : j < d.attributes.length := by
  cases hj
  exact d.attributeP_lt i h

def ParseNode.treat (node : ParseNode S D) (source : S) (d : ParseData D) : Except Stop (ParseData D) :=
  match node.fill source d.rest with
  | none => .error .treatFunction
  | some rest =>
    match node.use, h : d.attributeP with
    | .none, _ => .ok { d with rest := rest }
    | .creates, _ =>
      .ok { d with
        attributes := d.attributes ++ [none], attributeP := some d.attributes.length, rest := rest,
        attributeP_lt := d.length_lt_append
        last_lt := d.last_lt_append }
    | .follows, none => .error .treatFunction
    | .follows, some _ => .ok { d with rest := rest }
    | .opens, none => .error .treatFunction
    | .opens, some i =>
      .ok { d with
        lastContextAttribute := some (.created i), rest := rest,
        last_lt := d.opened_lt h }
    | .upcar, _ => .ok { d with lastContextAttribute := some .upcar, rest := rest, last_lt := nofun }

/-! ## Handing a compound value over -/

/-- `lastContextAttribute->compoundValueP = compoundValueRoot`; `none` when the pointer is null. -/
def ParseData.attach (root : CompoundValueNode) (d : ParseData D) : Option (ParseData D) :=
  match d.lastContextAttribute with
  | none => none
  | some .upcar => some { d with upcarAttribute := some root }
  | some (.created i) =>
    some { d with
      attributes := d.attributes.set i (some root)
      attributeP_lt := by simpa using d.attributeP_lt
      last_lt := by simpa using d.last_lt }

/-- The `ConnectionInfo` as `compoundValueEnd` leaves it. -/
def ConnectionInfo.finished (ciP : ConnectionInfo) (root : CompoundValueNode) : ConnectionInfo :=
  let ciP := if root.finish = "OK" then ciP else ciP.bad ("compound value error: " ++ root.finish)
  { ciP with compoundValueRoot := none }

@[simp] theorem ConnectionInfo.finished_payloadWord (ciP : ConnectionInfo) (root : CompoundValueNode) :
    (ciP.finished root).payloadWord = ciP.payloadWord := by
  unfold finished
  split <;> rfl

def compoundValueEnd (s : ParseState D) : Except Stop (ParseState D) :=
  match s.ciP.compoundValueRoot with
  | none => .error .nullRoot
  | some root =>
    if s.ciP.payloadWord = "updateContextAttributeRequest" then
      .ok { s with ciP := s.ciP.finished root, parseDataP := { s.parseDataP with upcarRes := some root } }
    else
      match s.parseDataP.attach root with
      | none => .error .nullAttribute
      | some d => .ok { s with ciP := s.ciP.finished root, parseDataP := d }

end OrionBroker
