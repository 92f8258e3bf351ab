import OrionBroker.Render.Tags

/-!
# Rendering compound values (CompoundValueNode.cpp:377, ContextAttribute.cpp:251-271)

A node asks its container for the type (the items of a vector show no name, and are all called "item" in XML) and
for the number of children (the last of them has no comma).

| here | there |
| --- | --- |
| `CompoundValueNode.render`         | `CompoundValueNode::render`, below the toplevel node |
| `CompoundValueNode.renderToplevel` | the same for the toplevel node, which is its own container |
| `renderCompoundValue`              | the compound value in `ContextAttribute::render` and `renderAsJsonObject` |

* `spells_renderCompoundValue`: in JSON the text is a member with the value `jsonValue`.
* `xml_renderCompoundValue`: in XML it is an element, its children being `xmlChildren`.
-/

namespace OrionBroker

namespace CompoundValueNode

mutual
/-- `container` is the type of the container; `jsonComma` says that the node is not its last child. -/
def render (format : Format) (indent : String) (container : NodeType) (jsonComma : Bool) :
    CompoundValueNode → String
  | mk type name value childV =>
    let tagName := if container = .vector then "item" else name
    match type with
    | .string => valueTag indent tagName value format jsonComma false (decide (container = .vector))
    | .vector =>
      startTag' indent tagName tagName format true (decide (container = .object)) true ++
        renderChildren format (indent ++ "  ") .vector childV ++
        endTag indent tagName format jsonComma true true false
    | .object =>
      if container = .vector then
        startTag' indent "item" "" format false false false ++
          renderChildren format (indent ++ "  ") .object childV ++
          endTag indent "item" format jsonComma false true false
      else
        startTag' indent tagName tagName format false true false ++
          renderChildren format (indent ++ "  ") .object childV ++
          endTag indent tagName format jsonComma false true false
    | .unknown => ""
def renderChildren (format : Format) (indent : String) (container : NodeType) : List CompoundValueNode → String
  | [] => ""
  | child :: childV =>
    child.render format indent container (!childV.isEmpty) ++ renderChildren format indent container childV
end

def renderToplevel (format : Format) (indent : String) : CompoundValueNode → String
  | mk .string name value childV => valueTag indent name value format (decide (1 < childV.length)) false false
  | mk .vector _ _ childV => renderChildren format indent .vector childV
  | mk .object _ _ childV => renderChildren format indent .object childV
  | mk .unknown _ _ _ => ""

end CompoundValueNode

def renderCompoundValue (format : Format) (indent : String) (comma : Bool) (compoundValueP : CompoundValueNode) :
    String :=
  let isCompoundVector := decide (compoundValueP.type = .vector)
  startTag' (indent ++ "  ") "contextValue" "value" format isCompoundVector true isCompoundVector ++
    compoundValueP.renderToplevel format (indent ++ "    ") ++
    endTag (indent ++ "  ") "contextValue" format comma isCompoundVector true false

namespace CompoundValueNode

@[simp] theorem name_mk (type : NodeType) (name value : String) (childV : List CompoundValueNode) :
    (mk type name value childV).name = name := rfl

@[simp] theorem type_mk (type : NodeType) (name value : String) (childV : List CompoundValueNode) :
    (mk type name value childV).type = type := rfl

def named (name : String) : CompoundValueNode → CompoundValueNode
  | mk type _ value childV => mk type name value childV

mutual
/-- A tree of objects, vectors and strings: no node is of unknown type. -/
def typed : CompoundValueNode → Bool
  | mk type _ _ childV => type != .unknown && typedChildren childV
def typedChildren : List CompoundValueNode → Bool
  | [] => true
  | child :: childV => child.typed && typedChildren childV
end

mutual
/-- The member names that show: those of the objects. -/
def keys : CompoundValueNode → List String
  | mk .object _ _ childV => childV.map name ++ childKeys childV
  | mk .vector _ _ childV => childKeys childV
  | mk _ _ _ _ => []
def childKeys : List CompoundValueNode → List String
  | [] => []
  | child :: childV => child.keys ++ childKeys childV
end

mutual
/-- The values that show: those of the strings. -/
def leaves : CompoundValueNode → List String
  | mk .string _ value _ => [value]
  | mk .object _ _ childV => childLeaves childV
  | mk .vector _ _ childV => childLeaves childV
  | mk .unknown _ _ _ => []
def childLeaves : List CompoundValueNode → List String
  | [] => []
  | child :: childV => child.leaves ++ childLeaves childV
end

/-! ## In JSON -/

section Json

open JsonText

mutual
def jsonValue : CompoundValueNode → Value
  | mk .object _ _ childV => .object (jsonMembers childV)
  | mk .vector _ _ childV => .array (jsonItems childV)
  | mk _ _ value _ => .string (htmlEscape (cStr value))
def jsonMembers : List CompoundValueNode → List (List Char × Value)
  | [] => []
  | child :: childV => (child.name.toList, child.jsonValue) :: jsonMembers childV
def jsonItems : List CompoundValueNode → List Value
  | [] => []
  | child :: childV => child.jsonValue :: jsonItems childV
end

/-- The strings of a tree may stand in JSON texts. -/
structure JsonOk (keys leaves : List String) : Prop where
  keys : ∀ key ∈ keys, validBody key.toList = true
  leaves : ∀ value ∈ leaves, validBody (htmlEscape (cStr value)) = true

theorem JsonOk.append {keys keys' leaves leaves' : List String} :
    JsonOk (keys ++ keys') (leaves ++ leaves') ↔ JsonOk keys leaves ∧ JsonOk keys' leaves' := by
  constructor
  · intro h
    exact ⟨⟨fun k hk => h.keys k (List.mem_append_left _ hk), fun v hv => h.leaves v (List.mem_append_left _ hv)⟩,
      ⟨fun k hk => h.keys k (List.mem_append_right _ hk), fun v hv => h.leaves v (List.mem_append_right _ hv)⟩⟩
  · rintro ⟨h, h'⟩
    exact ⟨List.forall_mem_append.2 ⟨h.keys, h'.keys⟩, List.forall_mem_append.2 ⟨h.leaves, h'.leaves⟩⟩

theorem JsonOk.members {name value : String} {childV : List CompoundValueNode}
    (h : JsonOk (CompoundValueNode.mk .object name value childV).keys
      (CompoundValueNode.mk .object name value childV).leaves) :
    (∀ child ∈ childV, validBody child.name.toList = true) ∧ JsonOk (childKeys childV) (childLeaves childV) := by
  refine ⟨fun child hchild => h.keys _ ?_, fun k hk => h.keys k ?_, by simpa [CompoundValueNode.leaves] using h.leaves⟩
  · rw [CompoundValueNode.keys]
    exact List.mem_append_left _ (List.mem_map_of_mem hchild)
  · rw [CompoundValueNode.keys]
    exact List.mem_append_right _ hk

/-- The tokens of a child: a member of an object shows its name. -/
def childTokens (container : NodeType) (child : CompoundValueNode) : List Token :=
  (if container = .vector then [] else [.string child.name.toList, .colon]) ++ child.jsonValue.tokens

def childrenTokens (container : NodeType) (childV : List CompoundValueNode) : List Token :=
  if container = .vector then itemTokens (jsonItems childV) else memberTokens false (jsonMembers childV)

theorem jsonItems_isEmpty (childV : List CompoundValueNode) : (jsonItems childV).isEmpty = childV.isEmpty := by
  cases childV <;> rfl

theorem jsonMembers_isEmpty (childV : List CompoundValueNode) : (jsonMembers childV).isEmpty = childV.isEmpty := by
  cases childV <;> rfl

theorem childrenTokens_cons (container : NodeType) (child : CompoundValueNode) (childV : List CompoundValueNode) :
    childrenTokens container (child :: childV) =
      childTokens container child ++ commaIf (!childV.isEmpty) ++ childrenTokens container childV := by
  unfold childrenTokens childTokens
  split
  · simp [jsonItems, itemTokens, jsonItems_isEmpty]
  · simp [jsonMembers, memberTokens, jsonMembers_isEmpty]

theorem jsonValue_string (name value : String) (childV : List CompoundValueNode) :
    (mk .string name value childV).jsonValue = .string (htmlEscape (cStr value)) := by
  simp [jsonValue]

theorem jsonValue_tokens_object (name value : String) (childV : List CompoundValueNode) :
    (mk .object name value childV).jsonValue.tokens = .lbrace :: (childrenTokens .object childV ++ [.rbrace]) := by
  simp [jsonValue, Value.tokens, childrenTokens]

theorem jsonValue_tokens_vector (name value : String) (childV : List CompoundValueNode) :
    (mk .vector name value childV).jsonValue.tokens = .lbracket :: (childrenTokens .vector childV ++ [.rbracket]) := by
  simp [jsonValue, Value.tokens, childrenTokens]

/-- A container with its children between its brackets. -/
theorem spells_container {indent : String} (hi : Indent indent) (xmlTag tag endName : String)
    (isVector showTag isCompoundVector comma : Bool) (ht : showTag = true → validBody tag.toList = true)
    {children : String} {ts : List Token} (hc : Spells children.toList ts) :
    Spells (startTag' indent xmlTag tag .json isVector showTag isCompoundVector ++ children ++
        endTag indent endName .json comma isVector true false).toList
      ((if showTag then [Token.string tag.toList, Token.colon] else []) ++
        (if isVector then Token.lbracket else Token.lbrace) ::
        (ts ++ [if isVector then Token.rbracket else Token.rbrace]) ++ commaIf comma) := by
  have h := ((spells_startTag' xmlTag hi isVector showTag isCompoundVector ht).append hc).append
    (spells_endTag endName hi comma isVector true)
  simpa using h

mutual
theorem spells_render : ∀ (node : CompoundValueNode) {container : NodeType} {indent : String} (_ : Indent indent)
    (comma : Bool) (_ : container = .object ∨ container = .vector)
    (_ : container = .object → validBody node.name.toList = true) (_ : node.typed = true)
    (_ : JsonOk node.keys node.leaves),
    Spells (node.render .json indent container comma).toList (node.childTokens container ++ commaIf comma)
  | mk .string name value childV, container, indent, hi, comma, hcon, hname, _, hok => by
    have hv := hok.leaves value (by simp [leaves])
    obtain rfl | rfl := hcon
    · simpa [render, childTokens, jsonValue, Value.tokens] using spells_valueTag hi (hname rfl) hv comma
    · simpa [render, childTokens, jsonValue, Value.tokens] using spells_valueTag_item "item" hi hv comma
  | mk .vector name value childV, container, indent, hi, comma, hcon, hname, ht, hok => by
    have hc := spells_renderChildren childV hi.deeper (.inr rfl) (by simp) (by simpa [typed] using ht)
      (by simpa [keys, leaves] using hok)
    obtain rfl | rfl := hcon
    · have h := spells_container hi name name name true true true comma (fun _ => hname rfl) hc
      simpa [render, childTokens, jsonValue_tokens_vector] using h
    · have h := spells_container hi "item" "item" "item" true false true comma (by simp) hc
      simpa [render, childTokens, jsonValue_tokens_vector] using h
  | mk .object name value childV, container, indent, hi, comma, hcon, hname, ht, hok => by
    obtain ⟨hnames, hok⟩ := hok.members
    have hc := spells_renderChildren childV hi.deeper (.inl rfl) (fun _ => hnames) (by simpa [typed] using ht) hok
    obtain rfl | rfl := hcon
    · have h := spells_container hi name name name false true false comma (fun _ => hname rfl) hc
      simpa [render, childTokens, jsonValue_tokens_object] using h
    · have h := spells_container hi "item" "" "item" false false false comma (by simp) hc
      simpa [render, childTokens, jsonValue_tokens_object] using h
  | mk .unknown _ _ _, _, _, _, _, _, _, ht, _ => by simp [typed] at ht
theorem spells_renderChildren : ∀ (childV : List CompoundValueNode) {container : NodeType} {indent : String}
    (_ : Indent indent) (_ : container = .object ∨ container = .vector)
    (_ : container = .object → ∀ child ∈ childV, validBody child.name.toList = true)
    (_ : typedChildren childV = true) (_ : JsonOk (childKeys childV) (childLeaves childV)),
    Spells (renderChildren .json indent container childV).toList (childrenTokens container childV)
  | [], container, _, _, hcon, _, _, _ => by
    obtain rfl | rfl := hcon <;> simp [renderChildren, childrenTokens, jsonMembers, jsonItems, memberTokens, itemTokens]
  | child :: childV, container, indent, hi, hcon, hname, ht, hok => by
    simp only [typedChildren, Bool.and_eq_true] at ht
    obtain ⟨hok, hok'⟩ := JsonOk.append.1 hok
    have hchild := spells_render child hi (!childV.isEmpty) hcon (fun h => hname h child List.mem_cons_self) ht.1 hok
    have hrest := spells_renderChildren childV hi hcon (fun h c hc => hname h c (List.mem_cons_of_mem _ hc)) ht.2 hok'
    rw [childrenTokens_cons, renderChildren, String.toList_append]
    exact hchild.append hrest
end

/-- The compound value of an attribute is a member named "value". -/
theorem spells_renderCompoundValue {root : CompoundValueNode} (hroot : root.type = .object ∨ root.type = .vector)
    (ht : root.typed = true) (hok : JsonOk root.keys root.leaves) {indent : String} (hi : Indent indent)
    (comma : Bool) :
    Spells (renderCompoundValue .json indent comma root).toList
      (.string "value".toList :: .colon :: (root.jsonValue.tokens ++ commaIf comma)) := by
  have hvalue : validBody "value".toList = true := by decide
  obtain ⟨type, name, value, childV⟩ := root
  simp only [type_mk] at hroot
  obtain rfl | rfl := hroot
  · obtain ⟨hnames, hok⟩ := hok.members
    have hc := spells_renderChildren childV hi.deeper2 (.inl rfl) (fun _ => hnames) (by simpa [typed] using ht) hok
    have h := spells_container hi.deeper "contextValue" "value" "contextValue" false true false comma (fun _ => hvalue) hc
    simpa [renderCompoundValue, renderToplevel, jsonValue_tokens_object] using h
  · have hc := spells_renderChildren childV hi.deeper2 (.inr rfl) (by simp) (by simpa [typed] using ht)
      (by simpa [keys, leaves] using hok)
    have h := spells_container hi.deeper "contextValue" "value" "contextValue" true true true comma (fun _ => hvalue) hc
    simpa [renderCompoundValue, renderToplevel, jsonValue_tokens_vector] using h

/-- `body` spells one of the keys or one of the leaves. -/
def Shows (keys leaves : List String) (body : List Char) : Prop :=
  (∃ key ∈ keys, body = key.toList) ∨ ∃ value ∈ leaves, body = htmlEscape (cStr value)

theorem shows_append {keys keys' leaves leaves' : List String} {body : List Char} :
    Shows (keys ++ keys') (leaves ++ leaves') body ↔ Shows keys leaves body ∨ Shows keys' leaves' body := by
  simp only [Shows, List.mem_append, or_and_right, exists_or]
  exact or_or_or_comm

theorem string_mem_commaIf {body : List Char} {more : Bool} : ¬ Token.string body ∈ commaIf more := by
  cases more <;> simp [commaIf]

mutual
/-- The strings of the value are the keys and the leaves of the tree. -/
theorem string_mem_jsonValue : ∀ (node : CompoundValueNode), node.typed = true → ∀ (body : List Char),
    .string body ∈ node.jsonValue.tokens ↔ Shows node.keys node.leaves body
  | mk .string name value childV, _, body => by
    simp [jsonValue_string, Value.tokens, keys, leaves, Shows]
  | mk .object name value childV, ht, body => by
    have hc := string_mem_children childV (by simpa [typed] using ht) .object body
    simp only [jsonValue_tokens_object, List.mem_cons, List.mem_append, List.not_mem_nil, reduceCtorEq, false_or,
      or_false, hc, keys, leaves, not_false_eq_true, true_and, ne_eq]
    simp only [Shows, List.mem_append, List.mem_map, or_and_right, exists_or, exists_exists_and_eq_and, or_assoc]
  | mk .vector name value childV, ht, body => by
    have hc := string_mem_children childV (by simpa [typed] using ht) .vector body
    simp [jsonValue_tokens_vector, hc, keys, leaves]
  | mk .unknown _ _ _, ht, _ => by simp [typed] at ht
theorem string_mem_children : ∀ (childV : List CompoundValueNode), typedChildren childV = true →
    ∀ (container : NodeType) (body : List Char), .string body ∈ childrenTokens container childV ↔
      (container ≠ .vector ∧ ∃ child ∈ childV, body = child.name.toList) ∨ Shows (childKeys childV) (childLeaves childV) body
  | [], _, container, body => by
    have hnone : childrenTokens container [] = [] := by
      unfold childrenTokens
      split <;> simp [jsonItems, jsonMembers, itemTokens, memberTokens]
    simp [hnone, childKeys, childLeaves, Shows]
  | child :: childV, ht, container, body => by
    simp only [typedChildren, Bool.and_eq_true] at ht
    have hself : .string body ∈ childTokens container child ↔
        (container ≠ .vector ∧ body = child.name.toList) ∨ Shows child.keys child.leaves body := by
      rw [← string_mem_jsonValue child ht.1 body, childTokens]
      by_cases hv : container = .vector <;> simp [hv]
    rw [childrenTokens_cons, List.mem_append, List.mem_append, hself, string_mem_children childV ht.2,
      childKeys, childLeaves, shows_append]
    simp only [string_mem_commaIf, or_false, List.exists_mem_cons_iff, and_or_left]
    exact or_or_or_comm
end

end Json

/-! ## In XML -/

section Xml

open XmlText

mutual
/-- The element of a node whose container has the given type. -/
def xmlElement (container : NodeType) : CompoundValueNode → Element
  | mk type name value childV =>
    let tagName := if container = .vector then "item" else name
    match type with
    | .object => .node tagName.toList (typeAttribute false) (xmlChildren .object childV)
    | .vector => .node tagName.toList (typeAttribute true) (xmlChildren .vector childV)
    | _ => .leaf tagName.toList [] (htmlEscape (cStr value))
def xmlChildren (container : NodeType) : List CompoundValueNode → List Element
  | [] => []
  | child :: childV => child.xmlElement container :: xmlChildren container childV
end

/-- The strings of a tree may stand in XML texts; a leaf must not be blank. -/
structure XmlOk (keys leaves : List String) : Prop where
  keys : ∀ key ∈ keys, isName key.toList = true
  leaves : ∀ value ∈ leaves, (∀ c ∈ htmlEscape (cStr value), isTextChar c = true) ∧
    (htmlEscape (cStr value)).all isBlank = false

theorem XmlOk.append {keys keys' leaves leaves' : List String} :
    XmlOk (keys ++ keys') (leaves ++ leaves') ↔ XmlOk keys leaves ∧ XmlOk keys' leaves' := by
  constructor
  · intro h
    exact ⟨⟨fun k hk => h.keys k (List.mem_append_left _ hk), fun v hv => h.leaves v (List.mem_append_left _ hv)⟩,
      ⟨fun k hk => h.keys k (List.mem_append_right _ hk), fun v hv => h.leaves v (List.mem_append_right _ hv)⟩⟩
  · rintro ⟨h, h'⟩
    exact ⟨List.forall_mem_append.2 ⟨h.keys, h'.keys⟩, List.forall_mem_append.2 ⟨h.leaves, h'.leaves⟩⟩

theorem XmlOk.members {name value : String} {childV : List CompoundValueNode}
    (h : XmlOk (CompoundValueNode.mk .object name value childV).keys
      (CompoundValueNode.mk .object name value childV).leaves) :
    (∀ child ∈ childV, isName child.name.toList = true) ∧ XmlOk (childKeys childV) (childLeaves childV) := by
  refine ⟨fun child hchild => h.keys _ ?_, fun k hk => h.keys k ?_, by simpa [CompoundValueNode.leaves] using h.leaves⟩
  · rw [CompoundValueNode.keys]
    exact List.mem_append_left _ (List.mem_map_of_mem hchild)
  · rw [CompoundValueNode.keys]
    exact List.mem_append_right _ hk

/-- A container with its children between its tags. -/
theorem xml_container {indent : String} (hi : Indent indent) {tag : String} (jsonTag : String)
    (isVector showTag isCompoundVector comma : Bool) (ht : isName tag.toList = true) {children : String}
    {ts : List Token} (hc : Spells children.toList ts) :
    Spells (startTag' indent tag jsonTag .xml isVector showTag isCompoundVector ++ children ++
        endTag indent tag .xml comma isVector true false).toList
      (.start tag.toList (typeAttribute isCompoundVector) :: (ts ++ [.stop tag.toList])) := by
  have h := ((xml_startTag' jsonTag hi isVector showTag isCompoundVector ht).append hc).append
    (xml_endTag hi comma isVector true ht)
  simpa using h

mutual
theorem xml_render : ∀ (node : CompoundValueNode) {container : NodeType} {indent : String} (_ : Indent indent)
    (comma : Bool) (_ : container = .object ∨ container = .vector)
    (_ : container = .object → isName node.name.toList = true) (_ : node.typed = true)
    (_ : XmlOk node.keys node.leaves),
    Spells (node.render .xml indent container comma).toList (node.xmlElement container).tokens
  | mk .string name value childV, container, indent, hi, comma, hcon, hname, _, hok => by
    obtain ⟨htext, hblank⟩ := hok.leaves value (by simp [leaves])
    have hitem : isName "item".toList = true := by decide
    obtain rfl | rfl := hcon
    · simpa [render, xmlElement, Element.tokens] using xml_valueTag hi (hname rfl) htext hblank comma false
    · simpa [render, xmlElement, Element.tokens] using xml_valueTag hi hitem htext hblank comma true
  | mk .vector name value childV, container, indent, hi, comma, hcon, hname, ht, hok => by
    have hitem : isName "item".toList = true := by decide
    have hc := xml_renderChildren childV hi.deeper (.inr rfl) (by simp) (by simpa [typed] using ht)
      (by simpa [keys, leaves] using hok)
    obtain rfl | rfl := hcon
    · have h := xml_container hi name true true true comma (hname rfl) hc
      simpa [render, xmlElement, Element.tokens] using h
    · have h := xml_container hi "item" true false true comma hitem hc
      simpa [render, xmlElement, Element.tokens] using h
  | mk .object name value childV, container, indent, hi, comma, hcon, hname, ht, hok => by
    have hitem : isName "item".toList = true := by decide
    obtain ⟨hnames, hok⟩ := hok.members
    have hc := xml_renderChildren childV hi.deeper (.inl rfl) (fun _ => hnames) (by simpa [typed] using ht) hok
    obtain rfl | rfl := hcon
    · have h := xml_container hi name false true false comma (hname rfl) hc
      simpa [render, xmlElement, Element.tokens] using h
    · have h := xml_container hi "" false false false comma hitem hc
      simpa [render, xmlElement, Element.tokens] using h
  | mk .unknown _ _ _, _, _, _, _, _, _, ht, _ => by simp [typed] at ht
theorem xml_renderChildren : ∀ (childV : List CompoundValueNode) {container : NodeType} {indent : String}
    (_ : Indent indent) (_ : container = .object ∨ container = .vector)
    (_ : container = .object → ∀ child ∈ childV, isName child.name.toList = true)
    (_ : typedChildren childV = true) (_ : XmlOk (childKeys childV) (childLeaves childV)),
    Spells (renderChildren .xml indent container childV).toList
      (XmlText.childTokens (xmlChildren container childV))
  | [], _, _, _, _, _, _, _ => by simpa [renderChildren, xmlChildren, XmlText.childTokens] using Spells.nil
  | child :: childV, container, indent, hi, hcon, hname, ht, hok => by
    simp only [typedChildren, Bool.and_eq_true] at ht
    obtain ⟨hok, hok'⟩ := XmlOk.append.1 hok
    have hchild := xml_render child hi (!childV.isEmpty) hcon (fun h => hname h child List.mem_cons_self) ht.1 hok
    have hrest := xml_renderChildren childV hi hcon (fun h c hc => hname h c (List.mem_cons_of_mem _ hc)) ht.2 hok'
    rw [xmlChildren, XmlText.childTokens, renderChildren, String.toList_append]
    exact hchild.append hrest
end

/-- The compound value of an attribute is an element named "contextValue". -/
theorem xml_renderCompoundValue {root : CompoundValueNode} (hroot : root.type = .object ∨ root.type = .vector)
    (ht : root.typed = true) (hok : XmlOk root.keys root.leaves) {indent : String} (hi : Indent indent)
    (comma : Bool) :
    Spells (renderCompoundValue .xml indent comma root).toList
      (root.named "contextValue" |>.xmlElement .object).tokens := by
  have hvalue : isName "contextValue".toList = true := by decide
  obtain ⟨type, name, value, childV⟩ := root
  simp only [type_mk] at hroot
  obtain rfl | rfl := hroot
  · obtain ⟨hnames, hok⟩ := hok.members
    have hc := xml_renderChildren childV hi.deeper2 (.inl rfl) (fun _ => hnames) (by simpa [typed] using ht) hok
    have h := xml_container hi.deeper "value" false true false comma hvalue hc
    simpa [renderCompoundValue, renderToplevel, named, xmlElement, Element.tokens] using h
  · have hc := xml_renderChildren childV hi.deeper2 (.inr rfl) (by simp) (by simpa [typed] using ht)
      (by simpa [keys, leaves] using hok)
    have h := xml_container hi.deeper "value" true true true comma hvalue hc
    simpa [renderCompoundValue, renderToplevel, named, xmlElement, Element.tokens] using h

end Xml

end CompoundValueNode

end OrionBroker
