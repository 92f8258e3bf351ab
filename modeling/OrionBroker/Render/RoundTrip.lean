import OrionBroker.Parse.Json
import OrionBroker.Parse.Xml
import OrionBroker.Render.Compound

/-!
# Compound values survive rendering and parsing

`read_json` and rapidxml are not part of the repository. They are parameters of which `ReadsJson` and `ReadsXml`
say what they make of a well-formed text: the tree of its value, or of its element.

* `plain`: the trees at issue. Strings have to be plain text, since nothing undoes the escaping.
* `eatCompound_json`, `eatCompound_xml`: the parser on the tree of a rendered node gives the node back; JSON tells
  a vector by the missing names, XML by the attribute `type`.
* `compoundValue_survives`: both round trips, up to the names of the items of vectors.
-/

namespace OrionBroker

/-! ## The readers -/

mutual
/-- The elements of an array have no name; numbers and literals are kept as they are spelled. -/
def propertyTree : JsonText.Value → PropertyTree
  | .string body => .node (String.ofList body) []
  | .scalar lexeme => .node (String.ofList lexeme) []
  | .array items => .node "" (itemTrees items)
  | .object members => .node "" (memberTrees members)
def itemTrees : List JsonText.Value → List (String × PropertyTree)
  | [] => []
  | v :: vs => ("", propertyTree v) :: itemTrees vs
def memberTrees : List (List Char × JsonText.Value) → List (String × PropertyTree)
  | [] => []
  | (key, v) :: ms => (String.ofList key, propertyTree v) :: memberTrees ms
end

/-- On texts with no escapes. -/
def ReadsJson (readJson : String → Option PropertyTree) : Prop :=
  ∀ text v, JsonText.lex text.toList = some v.tokens → (∀ body, .string body ∈ v.tokens → '\\' ∉ body) →
    readJson text = some (propertyTree v)

def xmlAttributes (attributes : List (List Char × List Char)) : List (String × String) :=
  attributes.map fun (name, value) => (String.ofList name, String.ofList value)

mutual
/-- An element with character data has it as its value and as that of a data node below; layout leaves nothing. -/
def xmlTree : XmlText.Element → XmlTree
  | .leaf name attributes body =>
    .node (String.ofList name) (String.ofList body) (xmlAttributes attributes) [.node "" (String.ofList body) [] []]
  | .node name attributes children => .node (String.ofList name) "" (xmlAttributes attributes) (xmlTrees children)
def xmlTrees : List XmlText.Element → List XmlTree
  | [] => []
  | e :: es => xmlTree e :: xmlTrees es
end

def ReadsXml (readXml : String → Option XmlTree) : Prop :=
  ∀ text e, XmlText.lex text.toList = some e.tokens → readXml text = some (xmlTree e)

def standardJson (text : String) : Option PropertyTree :=
  ((JsonText.lex text.toList).bind JsonText.parse).map propertyTree

theorem standardJson_reads : ReadsJson standardJson := by
  intro text v h _
  simp [standardJson, h, JsonText.parse_tokens]

def standardXml (text : String) : Option XmlTree := ((XmlText.lex text.toList).bind XmlText.parse).map xmlTree

theorem standardXml_reads : ReadsXml standardXml := by
  intro text e h
  simp [standardXml, h, XmlText.parse_tokens]

/-- The document's member "value", as `jsonParse` hands it to `eatCompound`. -/
def eatJsonValue : PropertyTree → Option (CompoundValueNode × Option String)
  | .node _ children => (children.find? (·.1 == "value")).map fun
    | (_, .node _ children) => Json.eatToplevel children

/-! ## Plain text -/

def plainChar (c : Char) : Bool := !JsonText.isControl c && c != '&' && c != '\\' && htmlChar c == [c]

/-- Not empty, with no blank at either end. -/
def plainText (s : String) : Bool :=
  s.toList.all plainChar && s.toList.head?.any (!isWs ·) && s.toList.getLast?.any (!isWs ·)

theorem plainChar_iff {c : Char} (h : plainChar c = true) :
    JsonText.isControl c = false ∧ c ≠ '&' ∧ c ≠ '\\' ∧ htmlChar c = [c] := by
  simpa [plainChar, and_assoc] using h

theorem ne_nul_of_not_control {c : Char} (h : JsonText.isControl c = false) : c ≠ '\x00' := by
  rintro rfl
  exact absurd h (by decide)

theorem cStr_eq_of_ne_nul {s : String} (h : ∀ c ∈ s.toList, c ≠ '\x00') : cStr s = s.toList := by
  unfold cStr
  rw [List.takeWhile_eq_self_iff]
  intro c hc
  simpa using h c hc

theorem htmlEscape_eq_self {s : List Char} (h : ∀ c ∈ s, htmlChar c = [c]) : htmlEscape s = s := by
  induction s with
  | nil => rfl
  | cons c s ih =>
    have ih := ih fun d hd => h d (List.mem_cons_of_mem _ hd)
    simp only [htmlEscape] at ih ⊢
    rw [List.flatMap_cons, h c List.mem_cons_self, ih]
    rfl

theorem isForbidden_of_htmlChar {c : Char} (h : htmlChar c = [c]) : isForbidden c = false := by
  by_contra hf
  simp only [isForbidden, Bool.not_eq_false, Bool.or_eq_true, beq_iff_eq] at hf
  obtain ((((((rfl | rfl) | rfl) | rfl) | rfl) | rfl) | rfl) | rfl := hf <;> exact absurd h (by decide)

/-- A text with no blank at either end is what `wsStrip` leaves of it. -/
theorem wsStrip_eq_self {s : List Char} (hhead : s.head?.any (!isWs ·) = true) (hlast : s.getLast?.any (!isWs ·) = true) :
    wsStrip s = s := by
  have hd : s.dropWhile isWs = s := by
    cases s with
    | nil => rfl
    | cons c s => exact List.dropWhile_cons_of_neg (by simpa using hhead)
  unfold wsStrip
  rw [hd, List.rdropWhile_eq_self_iff]
  intro hne
  rw [List.getLast?_eq_getLast_of_ne_nil hne] at hlast
  simpa using hlast

/-- What the renderer and the two parsers make of a plain text. -/
structure PlainFacts (s : String) : Prop where
  cStr_eq : cStr s = s.toList
  escaped : htmlEscape (cStr s) = s.toList
  noEscape : '\\' ∉ s.toList
  valid : JsonText.validBody s.toList = true
  text : ∀ c ∈ s.toList, XmlText.isTextChar c = true
  notBlank : s.toList.all XmlText.isBlank = false
  allowed : forbiddenChars s = false
  strip_eq : Xml.strip s = s
  ne_empty : s ≠ ""

theorem plainFacts {s : String} (h : plainText s = true) : PlainFacts s := by
  simp only [plainText, Bool.and_eq_true, List.all_eq_true] at h
  obtain ⟨⟨hall, hhead⟩, hlast⟩ := h
  have hchar := fun c hc => plainChar_iff (hall c hc)
  have hc : cStr s = s.toList := cStr_eq_of_ne_nul fun c hc => ne_nul_of_not_control (hchar c hc).1
  have hescaped : htmlEscape s.toList = s.toList := htmlEscape_eq_self fun c hc => (hchar c hc).2.2.2
  have hallowed : ∀ c ∈ s.toList, isForbidden c = false := fun c hc => isForbidden_of_htmlChar (hchar c hc).2.2.2
  have hsigns : ∀ c ∈ s.toList, c ≠ '"' ∧ c ≠ '<' ∧ c ≠ '>' := by
    intro c hc
    have := hallowed c hc
    refine ⟨?_, ?_, ?_⟩ <;> (rintro rfl; exact absurd this (by decide))
  refine ⟨hc, by rw [hc, hescaped], ?_, ?_, ?_, ?_, ?_, ?_, ?_⟩
  · exact fun hmem => (hchar _ hmem).2.2.1 rfl
  · exact JsonText.validBody_of_all fun c hc => ⟨(hsigns c hc).1, (hchar c hc).2.2.1, (hchar c hc).1⟩
  · intro c hc
    obtain ⟨hcontrol, hamp, -, -⟩ := hchar c hc
    have hle : 0x20 ≤ c.toNat := by simpa [JsonText.isControl] using hcontrol
    simp [XmlText.isTextChar, hle, hamp, hsigns c hc]
  · -- a blank that is no control character is a space, which does not stand first
    cases hs : s.toList with
    | nil => rw [hs] at hhead; cases hhead
    | cons c cs =>
      rw [hs] at hhead hchar
      have hcontrol := (hchar c List.mem_cons_self).1
      have hspace : c ≠ ' ' := by
        rintro rfl
        simp [isWs] at hhead
      have hblank : XmlText.isBlank c = false := by
        by_contra hb
        simp only [XmlText.isBlank, Bool.not_eq_false, Bool.or_eq_true, beq_iff_eq] at hb
        obtain ((rfl | rfl) | rfl) | rfl := hb
        · exact hspace rfl
        all_goals exact absurd hcontrol (by decide)
      simp [hblank]
  · rw [forbiddenChars, hc, List.any_eq_false]
    intro c hc
    simpa using hallowed c hc
  · rw [Xml.strip, hc, wsStrip_eq_self hhead hlast, String.ofList_toList]
  · rintro rfl
    cases hhead

/-! ## Names -/

theorem nameChar_facts {c : Char} (h : XmlText.isNameChar c = true) :
    JsonText.isControl c = false ∧ c ≠ '"' ∧ c ≠ '\\' ∧ isWs c = false := by
  have hcontrol : JsonText.isControl c = false := by
    have hlow : ∀ n < 0x20, XmlText.isNameChar (Char.ofNat n) = false := by decide
    by_contra hc
    have hc : c.toNat < 0x20 := by simpa [JsonText.isControl] using hc
    rw [← Char.ofNat_toNat c, hlow _ hc] at h
    cases h
  refine ⟨hcontrol, ?_, ?_, ?_⟩
  · rintro rfl
    exact absurd h (by decide)
  · rintro rfl
    exact absurd h (by decide)
  · by_contra hb
    simp only [isWs, Bool.not_eq_false, Bool.or_eq_true, beq_iff_eq] at hb
    obtain (rfl | rfl) | rfl := hb <;> exact absurd h (by decide)

/-- What the renderer and the two parsers make of a name. -/
structure NameFacts (name : String) : Prop where
  cString_eq : cString name = name
  noEscape : '\\' ∉ name.toList
  valid : JsonText.validBody name.toList = true
  strip_eq : Xml.strip name = name
  ne_empty : name ≠ ""

theorem nameFacts {name : String} (h : XmlText.isName name.toList = true) : NameFacts name := by
  have hchar := fun c hc => nameChar_facts (XmlText.isName_all h c hc)
  have hc : cStr name = name.toList := cStr_eq_of_ne_nul fun c hc => ne_nul_of_not_control (hchar c hc).1
  have hne : name.toList ≠ [] := by
    intro he
    rw [he] at h
    cases h
  have hstrip : wsStrip name.toList = name.toList := by
    refine wsStrip_eq_self ?_ ?_
    · rw [List.head?_eq_some_head hne]
      simpa using (hchar _ (List.head_mem hne)).2.2.2
    · rw [List.getLast?_eq_getLast_of_ne_nil hne]
      simpa using (hchar _ (List.getLast_mem hne)).2.2.2
  refine ⟨?_, fun hmem => (hchar _ hmem).2.2.1 rfl, ?_, ?_, ?_⟩
  · rw [cString, hc, String.ofList_toList]
  · exact JsonText.validBody_of_all fun c hc => ⟨(hchar c hc).2.1, (hchar c hc).2.2.1, (hchar c hc).1⟩
  · rw [Xml.strip, hc, hstrip, String.ofList_toList]
  · rintro rfl
    exact hne rfl

/-! ## The trees -/

namespace CompoundValueNode

mutual
/-- Containers with children and no value of their own, leaves with plain text. -/
def plain : CompoundValueNode → Bool
  | mk .string _ value childV => plainText value && childV.isEmpty
  | mk .object _ value childV => value == "" && !childV.isEmpty && plainChildren true childV
  | mk .vector _ value childV => value == "" && !childV.isEmpty && plainChildren false childV
  | mk .unknown _ _ _ => false
/-- The names of the members of an object are XML names. -/
def plainChildren (isObject : Bool) : List CompoundValueNode → Bool
  | [] => true
  | child :: childV =>
    (!isObject || XmlText.isName child.name.toList) && child.plain && plainChildren isObject childV
end

mutual
/-- The tree with every item of a vector named "item". -/
def itemsNamed : CompoundValueNode → CompoundValueNode
  | mk type name value childV => mk type name value (childrenNamed type childV)
def childrenNamed (container : NodeType) : List CompoundValueNode → List CompoundValueNode
  | [] => []
  | child :: childV =>
    (if container = .vector then child.itemsNamed.named "item" else child.itemsNamed) ::
      childrenNamed container childV
end

/-- Equal up to the names of the items of vectors. -/
def SameUpToItems (a b : CompoundValueNode) : Prop := a.itemsNamed = b.itemsNamed

theorem plain_object {name value : String} {childV : List CompoundValueNode}
    (h : (mk .object name value childV).plain = true) :
    value = "" ∧ childV ≠ [] ∧ plainChildren true childV = true := by
  simpa [plain, and_assoc] using h

theorem plain_vector {name value : String} {childV : List CompoundValueNode}
    (h : (mk .vector name value childV).plain = true) :
    value = "" ∧ childV ≠ [] ∧ plainChildren false childV = true := by
  simpa [plain, and_assoc] using h

theorem plainChildren_cons {isObject : Bool} {child : CompoundValueNode} {childV : List CompoundValueNode}
    (h : plainChildren isObject (child :: childV) = true) :
    (isObject = true → XmlText.isName child.name.toList = true) ∧ child.plain = true ∧
      plainChildren isObject childV = true := by
  simp only [plainChildren, Bool.and_eq_true, Bool.or_eq_true, Bool.not_eq_true', and_assoc] at h
  refine ⟨fun ho => ?_, h.2⟩
  simpa [ho] using h.1

mutual
theorem plain_parts : ∀ (node : CompoundValueNode), node.plain = true →
    node.typed = true ∧ (∀ key ∈ node.keys, XmlText.isName key.toList = true) ∧
      ∀ value ∈ node.leaves, plainText value = true
  | mk .string name value childV, h => by
    simp only [plain, Bool.and_eq_true, List.isEmpty_iff] at h
    obtain ⟨hv, rfl⟩ := h
    simp [typed, typedChildren, keys, leaves, hv]
  | mk .object name value childV, h => by
    obtain ⟨-, -, hc⟩ := plain_object h
    obtain ⟨ht, hnames, hk, hl⟩ := plainChildren_parts childV hc
    refine ⟨by simpa [typed] using ht, ?_, by simpa [leaves] using hl⟩
    rw [keys, List.forall_mem_append, List.forall_mem_map]
    exact ⟨hnames rfl, hk⟩
  | mk .vector name value childV, h => by
    obtain ⟨-, -, hc⟩ := plain_vector h
    obtain ⟨ht, -, hk, hl⟩ := plainChildren_parts childV hc
    exact ⟨by simpa [typed] using ht, by simpa [keys] using hk, by simpa [leaves] using hl⟩
  | mk .unknown _ _ _, h => by simp [plain] at h
theorem plainChildren_parts : ∀ {isObject : Bool} (childV : List CompoundValueNode),
    plainChildren isObject childV = true →
    typedChildren childV = true ∧ (isObject = true → ∀ child ∈ childV, XmlText.isName child.name.toList = true) ∧
      (∀ key ∈ childKeys childV, XmlText.isName key.toList = true) ∧ ∀ value ∈ childLeaves childV, plainText value = true
  | _, [], _ => by simp [typedChildren, childKeys, childLeaves]
  | isObject, child :: childV, h => by
    obtain ⟨hname, hchild, hrest⟩ := plainChildren_cons h
    obtain ⟨ht, hk, hl⟩ := plain_parts child hchild
    obtain ⟨ht', hn', hk', hl'⟩ := plainChildren_parts childV hrest
    refine ⟨by simp [typedChildren, ht, ht'], fun ho => ?_, ?_, ?_⟩
    · exact List.forall_mem_cons.2 ⟨hname ho, hn' ho⟩
    · exact List.forall_mem_append.2 ⟨hk, hk'⟩
    · exact List.forall_mem_append.2 ⟨hl, hl'⟩
end

theorem jsonOk_of_plain {node : CompoundValueNode} (h : node.plain = true) : JsonOk node.keys node.leaves := by
  obtain ⟨-, hk, hl⟩ := plain_parts node h
  refine ⟨fun key hkey => (nameFacts (hk key hkey)).valid, fun value hvalue => ?_⟩
  have hf := plainFacts (hl value hvalue)
  rw [hf.escaped]
  exact hf.valid

theorem xmlOk_of_plain {node : CompoundValueNode} (h : node.plain = true) : XmlOk node.keys node.leaves := by
  obtain ⟨-, hk, hl⟩ := plain_parts node h
  refine ⟨hk, fun value hvalue => ?_⟩
  have hf := plainFacts (hl value hvalue)
  rw [hf.escaped]
  exact ⟨hf.text, hf.notBlank⟩

/-! ## Parsing JSON back -/

theorem named_itemsNamed (name : String) (type : NodeType) (value name' : String) (childV : List CompoundValueNode) :
    (mk type name' value childV).itemsNamed.named name = mk type name value (childrenNamed type childV) := by
  rw [itemsNamed, named]

theorem named_name (node : CompoundValueNode) : node.itemsNamed.named node.name = node.itemsNamed := by
  obtain ⟨type, name, value, childV⟩ := node
  rw [named_itemsNamed, itemsNamed, name_mk]

mutual
/-- A node without a name makes its container a vector. -/
theorem eatCompound_json : ∀ (node : CompoundValueNode), node.plain = true → ∀ (nodeName : String)
    (type : NodeType) (name value : String) (childV : List CompoundValueNode) (error : Option String),
    Json.eatCompound nodeName (propertyTree node.jsonValue) (mk type name value childV, error) =
      if nodeName = "" then (mk .vector name value (childV ++ [node.itemsNamed.named "item"]), error)
      else (mk type name value (childV ++ [node.itemsNamed.named nodeName]), error)
  | mk .string n v cs, h, nodeName, type, name, value, childV, error => by
    simp only [plain, Bool.and_eq_true, List.isEmpty_iff] at h
    obtain ⟨hv, rfl⟩ := h
    have hf := plainFacts hv
    rw [jsonValue_string, propertyTree, hf.escaped, String.ofList_toList, Json.eatCompound]
    by_cases hn : nodeName = ""
    · simp [hn, hf.ne_empty, Json.eatChildren, toVector, add, push, named_itemsNamed, childrenNamed]
    · simp [hn, hf.ne_empty, hf.allowed, Json.eatChildren, add, push, named_itemsNamed, childrenNamed]
  | mk .object n v cs, h, nodeName, type, name, value, childV, error => by
    obtain ⟨rfl, hne, hc⟩ := plain_object h
    have hchildren := fun name => eatMembers_json cs hc .object name "" [] error
    rw [jsonValue, propertyTree, Json.eatCompound]
    by_cases hn : nodeName = ""
    · have hmembers : memberTrees (jsonMembers cs) ≠ [] := by
        cases cs with
        | nil => exact absurd rfl hne
        | cons child cs => simp [jsonMembers, memberTrees]
      simp [hn, hmembers, hchildren, toVector, push, named_itemsNamed]
    · simp [hn, hchildren, push, named_itemsNamed]
  | mk .vector n v cs, h, nodeName, type, name, value, childV, error => by
    obtain ⟨rfl, hne, hc⟩ := plain_vector h
    have hchildren := fun name => eatItems_json cs hne hc .object name "" [] error
    rw [jsonValue, propertyTree, Json.eatCompound]
    by_cases hn : nodeName = ""
    · have hitems : itemTrees (jsonItems cs) ≠ [] := by
        cases cs with
        | nil => exact absurd rfl hne
        | cons child cs => simp [jsonItems, itemTrees]
      simp [hn, hitems, hchildren, toVector, push, named_itemsNamed]
    · simp [hn, hchildren, push, named_itemsNamed]
  | mk .unknown _ _ _, h, _, _, _, _, _, _ => by simp [plain] at h
theorem eatMembers_json : ∀ (cs : List CompoundValueNode), plainChildren true cs = true →
    ∀ (type : NodeType) (name value : String) (childV : List CompoundValueNode) (error : Option String),
    Json.eatChildren (memberTrees (jsonMembers cs)) (mk type name value childV, error) =
      (mk type name value (childV ++ childrenNamed .object cs), error)
  | [], _, type, name, value, childV, error => by
    simp [jsonMembers, memberTrees, Json.eatChildren, childrenNamed]
  | child :: cs, h, type, name, value, childV, error => by
    obtain ⟨hname, hchild, hrest⟩ := plainChildren_cons h
    have hf := nameFacts (hname rfl)
    rw [jsonMembers, memberTrees, Json.eatChildren, String.ofList_toList, hf.cString_eq,
      eatCompound_json child hchild, if_neg hf.ne_empty, eatMembers_json cs hrest, named_name]
    simp [childrenNamed]
theorem eatItems_json : ∀ (cs : List CompoundValueNode), cs ≠ [] → plainChildren false cs = true →
    ∀ (type : NodeType) (name value : String) (childV : List CompoundValueNode) (error : Option String),
    Json.eatChildren (itemTrees (jsonItems cs)) (mk type name value childV, error) =
      (mk .vector name value (childV ++ childrenNamed .vector cs), error)
  | [], h, _, _, _, _, _, _ => absurd rfl h
  | [child], _, h, type, name, value, childV, error => by
    obtain ⟨-, hchild, -⟩ := plainChildren_cons h
    have hempty : cString "" = "" := by decide
    rw [jsonItems, itemTrees, Json.eatChildren, hempty, eatCompound_json child hchild, if_pos rfl]
    simp [jsonItems, itemTrees, Json.eatChildren, childrenNamed]
  | child :: next :: cs, _, h, type, name, value, childV, error => by
    obtain ⟨-, hchild, hrest⟩ := plainChildren_cons h
    have hempty : cString "" = "" := by decide
    rw [jsonItems, itemTrees, Json.eatChildren, hempty, eatCompound_json child hchild, if_pos rfl,
      eatItems_json (next :: cs) (by simp) hrest]
    simp [childrenNamed]
end

/-! ## Parsing XML back -/

theorem containerType_typeAttribute (isVector : Bool) :
    Xml.containerType (Xml.xmlTypeAttributeGet (xmlAttributes (typeAttribute isVector))) =
      some (if isVector then .vector else .object) := by
  cases isVector <;> decide

/-- The tag of a child. -/
def tagName (container : NodeType) (child : CompoundValueNode) : String :=
  if container = .vector then "item" else child.name

theorem childrenNamed_cons (container : NodeType) (child : CompoundValueNode) (childV : List CompoundValueNode) :
    childrenNamed container (child :: childV) =
      child.itemsNamed.named (tagName container child) :: childrenNamed container childV := by
  rw [childrenNamed, tagName]
  split
  · rfl
  · rw [named_name]

theorem isNamed_of_name {name : String} (h : XmlText.isName name.toList = true) (value : String)
    (attributes : List (String × String)) (children : List XmlTree) :
    Xml.isNamed (.node name value attributes children) = true := by
  have hf := nameFacts h
  have hc : cStr name = name.toList := by
    have := congrArg String.toList hf.cString_eq
    simpa [cString] using this
  simp [Xml.isNamed, XmlTree.name, hc, hf.ne_empty]

theorem isNamed_xmlTree {container : NodeType} (child : CompoundValueNode)
    (h : XmlText.isName (tagName container child).toList = true) :
    Xml.isNamed (xmlTree (child.xmlElement container)) = true := by
  obtain ⟨type, name, value, childV⟩ := child
  simp only [tagName, name_mk] at h
  cases type <;> simp [xmlElement, xmlTree, isNamed_of_name h]

mutual
theorem eatCompound_xml : ∀ (node : CompoundValueNode) {container : NodeType}, node.plain = true →
    XmlText.isName (tagName container node).toList = true → ∀ (containerP : CompoundValueNode) (error : Option String),
    Xml.eatCompound (xmlTree (node.xmlElement container)) (containerP, error) =
      (containerP.push (node.itemsNamed.named (tagName container node)), error)
  | mk .string n v cs, container, h, hn, containerP, error => by
    simp only [plain, Bool.and_eq_true, List.isEmpty_iff] at h
    obtain ⟨hv, rfl⟩ := h
    have hf := plainFacts hv
    have hdata : Xml.isNamed (.node "" v [] []) = false := rfl
    simp only [tagName, name_mk] at hn
    simp [xmlElement, xmlTree, Xml.eatCompound, Xml.eatChildren, hf.escaped, hf.strip_eq, hf.ne_empty, hf.allowed,
      (nameFacts hn).strip_eq, hdata, add, tagName, named_itemsNamed, childrenNamed]
  | mk .object n v cs, container, h, hn, containerP, error => by
    obtain ⟨rfl, -, hc⟩ := plain_object h
    have hempty : Xml.strip "" = "" := by decide
    simp only [tagName, name_mk] at hn
    have hchildren := fun name => eatChildren_xml cs (.inl rfl) hc .object name "" [] error
    simp [xmlElement, xmlTree, Xml.eatCompound, hempty, containerType_typeAttribute, (nameFacts hn).strip_eq,
      hchildren, tagName, named_itemsNamed]
  | mk .vector n v cs, container, h, hn, containerP, error => by
    obtain ⟨rfl, -, hc⟩ := plain_vector h
    have hempty : Xml.strip "" = "" := by decide
    simp only [tagName, name_mk] at hn
    have hchildren := fun name => eatChildren_xml cs (.inr rfl) hc .vector name "" [] error
    simp [xmlElement, xmlTree, Xml.eatCompound, hempty, containerType_typeAttribute, (nameFacts hn).strip_eq,
      hchildren, tagName, named_itemsNamed]
  | mk .unknown _ _ _, _, h, _, _, _ => by simp [plain] at h
theorem eatChildren_xml : ∀ (cs : List CompoundValueNode) {container : NodeType},
    container = .object ∨ container = .vector → plainChildren (decide (container = .object)) cs = true →
    ∀ (type : NodeType) (name value : String) (childV : List CompoundValueNode) (error : Option String),
    Xml.eatChildren (xmlTrees (xmlChildren container cs)) (mk type name value childV, error) =
      (mk type name value (childV ++ childrenNamed container cs), error)
  | [], _, _, _, type, name, value, childV, error => by
    simp [xmlChildren, xmlTrees, Xml.eatChildren, childrenNamed]
  | child :: cs, container, hcon, h, type, name, value, childV, error => by
    obtain ⟨hname, hchild, hrest⟩ := plainChildren_cons h
    have htag : XmlText.isName (tagName container child).toList = true := by
      obtain rfl | rfl := hcon
      · exact hname rfl
      · rw [tagName, if_pos rfl]
        decide
    rw [xmlChildren, xmlTrees, Xml.eatChildren, if_pos (isNamed_xmlTree child htag), eatCompound_xml child hchild htag,
      push, eatChildren_xml cs hcon hrest, childrenNamed_cons]
    simp
end

/-! ## The round trips -/

theorem itemsNamed_named (name : String) (node : CompoundValueNode) :
    (node.named name).itemsNamed = node.itemsNamed.named name := by
  obtain ⟨type, name', value, childV⟩ := node
  simp [named, itemsNamed]

theorem named_named (name name' : String) (node : CompoundValueNode) :
    (node.named name).named name' = node.named name' := by
  obtain ⟨type, name'', value, childV⟩ := node
  rfl

mutual
theorem itemsNamed_itemsNamed : ∀ node : CompoundValueNode, node.itemsNamed.itemsNamed = node.itemsNamed
  | mk type name value childV => by rw [itemsNamed, itemsNamed, childrenNamed_childrenNamed type childV]
theorem childrenNamed_childrenNamed : ∀ (container : NodeType) (childV : List CompoundValueNode),
    childrenNamed container (childrenNamed container childV) = childrenNamed container childV
  | _, [] => by simp [childrenNamed]
  | container, child :: childV => by
    rw [childrenNamed, childrenNamed, childrenNamed_childrenNamed container childV]
    split
    · rw [itemsNamed_named, named_named, itemsNamed_itemsNamed child]
    · rw [itemsNamed_itemsNamed child]
end

theorem sameUpToItems_itemsNamed (node : CompoundValueNode) : SameUpToItems node.itemsNamed node :=
  itemsNamed_itemsNamed node

theorem no_escape_of_plain {node : CompoundValueNode} (h : node.plain = true) {body : List Char}
    (hb : .string body ∈ node.jsonValue.tokens) : '\\' ∉ body := by
  obtain ⟨ht, hk, hl⟩ := plain_parts node h
  rcases (string_mem_jsonValue node ht body).1 hb with ⟨key, hkey, rfl⟩ | ⟨value, hvalue, rfl⟩
  · exact (nameFacts (hk key hkey)).noEscape
  · have hf := plainFacts (hl value hvalue)
    rw [hf.escaped]
    exact hf.noEscape

/-- The document that holds the attribute value is read, and its value eaten, in JSON. -/
theorem eatJsonValue_render {readJson : String → Option PropertyTree} (hread : ReadsJson readJson)
    {root : CompoundValueNode} (hroot : root.type = .object ∨ root.type = .vector) (hname : root.name = "toplevel")
    (hplain : root.plain = true) {indent : String} (hi : Indent indent) {rest : String}
    {more : List (List Char × JsonText.Value)} (hrest : JsonText.Spells rest.toList (JsonText.memberTokens false more))
    (hmore : ∀ body, .string body ∈ JsonText.memberTokens false more → '\\' ∉ body) :
    (readJson ("\x7b" ++ renderCompoundValue .json indent (!more.isEmpty) root ++ rest ++ "\x7d")).bind eatJsonValue =
      some (root.itemsNamed, none) := by
  have hvalue := spells_renderCompoundValue hroot (plain_parts root hplain).1 (jsonOk_of_plain hplain) hi (!more.isEmpty)
  have htokens : (JsonText.Value.object (("value".toList, root.jsonValue) :: more)).tokens =
      .lbrace :: .string "value".toList :: .colon :: (root.jsonValue.tokens ++
        (JsonText.commaIf (!more.isEmpty) ++ (JsonText.memberTokens false more ++ [.rbrace]))) := by
    simp [JsonText.Value.tokens, JsonText.memberTokens]
  have hspells : JsonText.Spells
      ("\x7b" ++ renderCompoundValue .json indent (!more.isEmpty) root ++ rest ++ "\x7d").toList
      (JsonText.Value.object (("value".toList, root.jsonValue) :: more)).tokens := by
    have hopen : JsonText.Spells ['{'] [.lbrace] := by simp
    have hclose : JsonText.Spells ['}'] [.rbrace] := by simp
    have h := ((hopen.append hvalue).append hrest).append hclose
    rw [htokens]
    simpa using h
  have hescape : ∀ body, .string body ∈ (JsonText.Value.object (("value".toList, root.jsonValue) :: more)).tokens →
      '\\' ∉ body := by
    intro body hb
    simp only [htokens, List.mem_cons, List.mem_append, reduceCtorEq, List.not_mem_nil, false_or, or_false,
      JsonText.Token.string.injEq, string_mem_commaIf] at hb
    rcases hb with rfl | hb | hb
    · decide
    · exact no_escape_of_plain hplain hb
    · exact hmore body hb
  rw [hread _ _ hspells.lex_eq hescape]
  obtain ⟨type, name, value, childV⟩ := root
  simp only [type_mk, name_mk] at hroot hname
  subst hname
  obtain rfl | rfl := hroot
  · obtain ⟨rfl, -, hc⟩ := plain_object hplain
    have hmembers := eatMembers_json childV hc .object "toplevel" "" [] none
    simp [propertyTree, memberTrees, eatJsonValue, jsonValue, Json.eatToplevel, toplevel, hmembers, itemsNamed]
  · obtain ⟨rfl, hne, hc⟩ := plain_vector hplain
    have hitems := eatItems_json childV hne hc .object "toplevel" "" [] none
    simp [propertyTree, memberTrees, eatJsonValue, jsonValue, Json.eatToplevel, toplevel, hitems, itemsNamed]

/-- The same in XML. -/
theorem eatToplevel_render {readXml : String → Option XmlTree} (hread : ReadsXml readXml)
    {root : CompoundValueNode} (hroot : root.type = .object ∨ root.type = .vector) (hname : root.name = "toplevel")
    (hplain : root.plain = true) {indent : String} (hi : Indent indent) (comma : Bool) :
    (readXml (renderCompoundValue .xml indent comma root)).map Xml.eatToplevel = some (some root.itemsNamed, none) := by
  have hspells := xml_renderCompoundValue hroot (plain_parts root hplain).1 (xmlOk_of_plain hplain) hi comma
  rw [hread _ _ hspells.lex_eq]
  obtain ⟨type, name, value, childV⟩ := root
  simp only [type_mk, name_mk] at hroot hname
  subst hname
  obtain rfl | rfl := hroot
  · obtain ⟨rfl, -, hc⟩ := plain_object hplain
    have hchildren := eatChildren_xml childV (.inl rfl) hc .object "toplevel" "" [] none
    simp [named, xmlElement, xmlTree, Xml.eatToplevel, containerType_typeAttribute, toplevel, hchildren, itemsNamed]
  · obtain ⟨rfl, -, hc⟩ := plain_vector hplain
    have hchildren := eatChildren_xml childV (.inr rfl) hc .vector "toplevel" "" [] none
    simp [named, xmlElement, xmlTree, Xml.eatToplevel, containerType_typeAttribute, toplevel, hchildren, itemsNamed]

end CompoundValueNode

open CompoundValueNode in
/-- A toplevel node is made by the constructor that names it. In JSON the value is a member of an object, with a
comma when there are members behind it. The names of the members need not be distinct: it is `finish`, after
`eatCompound`, that refuses them. -/
theorem compoundValue_survives {readJson : String → Option PropertyTree} {readXml : String → Option XmlTree}
    (hjson : ReadsJson readJson) (hxml : ReadsXml readXml) {root : CompoundValueNode}
    (hroot : root.type = .object ∨ root.type = .vector) (hname : root.name = "toplevel") (hplain : root.plain = true)
    {indent : String} (hi : Indent indent) {rest : String} {more : List (List Char × JsonText.Value)}
    (hrest : JsonText.Spells rest.toList (JsonText.memberTokens false more))
    (hmore : ∀ body, .string body ∈ JsonText.memberTokens false more → '\\' ∉ body) :
    (∃ fromJson, (readJson ("\x7b" ++ renderCompoundValue .json indent (!more.isEmpty) root ++ rest ++ "\x7d")).bind
        eatJsonValue = some (fromJson, none) ∧ SameUpToItems fromJson root) ∧
    ∃ fromXml, (readXml (renderCompoundValue .xml indent (!more.isEmpty) root)).map Xml.eatToplevel =
        some (some fromXml, none) ∧ SameUpToItems fromXml root :=
  ⟨⟨root.itemsNamed, eatJsonValue_render hjson hroot hname hplain hi hrest hmore, sameUpToItems_itemsNamed root⟩,
    root.itemsNamed, eatToplevel_render hxml hroot hname hplain hi _, sameUpToItems_itemsNamed root⟩

/-- A vector in a vector and an object in a vector. -/
def roomTree : CompoundValueNode :=
  .mk .object "toplevel" "" [.mk .string "floor" "1" [],
    .mk .vector "lamps" "" [.mk .vector "row" "" [.mk .string "x" "on" []],
      .mk .object "lamp" "" [.mk .string "state" "off" []]]]

theorem roomTree_survives :
    (∃ fromJson, (standardJson ("\x7b" ++ renderCompoundValue .json "" false roomTree ++ "" ++ "\x7d")).bind
        eatJsonValue = some (fromJson, none) ∧ fromJson.SameUpToItems roomTree) ∧
    ∃ fromXml, (standardXml (renderCompoundValue .xml "" false roomTree)).map Xml.eatToplevel =
        some (some fromXml, none) ∧ fromXml.SameUpToItems roomTree := by
  have htype : roomTree.type = .object ∨ roomTree.type = .vector := .inl rfl
  have hplain : roomTree.plain = true := by decide +kernel
  have hrest : JsonText.Spells "".toList (JsonText.memberTokens false []) := JsonText.Spells.nil
  have hmore : ∀ body, .string body ∈ JsonText.memberTokens false [] → '\\' ∉ body := by
    simp [JsonText.memberTokens]
  have h := compoundValue_survives standardJson_reads standardXml_reads htype rfl hplain Indent.empty hrest hmore
  exact h

end OrionBroker
