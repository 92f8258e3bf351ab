import OrionBroker.Query.RoundTrip

/-!
# Copies of an array

What one broker shows of its elements another one can store (`shownAs`). The writes of an APPEND give an element that
shows the same, if the stored one is no further than the shown (`AttrGrows`): the type of an element is never taken
back, its metadata are not dropped, and new elements stand at the end. Items, types and names are compared as they are
read. UPDATE and APPEND only let elements grow
(`grows_run`), so the array shown at some time, appended to a copy of what was shown before, makes a copy of itself
(`run_copies`).
-/

namespace OrionBroker

open Mongo

/-! ## Values -/

mutual
/-- Strings, objects and arrays only, the kinds a broker writes. -/
def textOnly : Bson → Bool
  | .str _ => true
  | .obj fs => textFields fs
  | .arr xs => textItems xs
  | .null | .bool _ | .int _ | .double _ | .oid _ => false
def textFields : List (String × Bson) → Bool
  | [] => true
  | (_, v) :: fs => textOnly v && textFields fs
def textItems : List Bson → Bool
  | [] => true
  | v :: vs => textOnly v && textItems vs
end

mutual
/-- Such a value is shown whole, and stored again as it was. -/
theorem nodeBson_node : ∀ {v : Bson} (name : String), textOnly v = true →
    ∃ c, nodeOfBson name v = some c ∧ nodeBson c = some v
  | .str s, name, _ => ⟨.mk .string name s [], by rw [nodeOfBson], by rw [nodeBson]⟩
  | .obj fs, name, h => by
    rw [textOnly] at h
    exact ⟨_, by rw [nodeOfBson], by rw [nodeBson, compoundValueObj_shown h]⟩
  | .arr xs, name, h => by
    rw [textOnly] at h
    exact ⟨_, by rw [nodeOfBson], by rw [nodeBson, compoundValueArr_shown h 0]⟩
  | .null, _, h | .bool _, _, h | .int _, _, h | .double _, _, h | .oid _, _, h => by simp [textOnly] at h
theorem compoundValueObj_shown : ∀ {fs : List (String × Bson)}, textFields fs = true →
    compoundValueObj (compoundObjectResponse fs) = fs
  | [], _ => by rw [compoundObjectResponse, compoundValueObj]
  | (f, v) :: fs, h => by
    rw [textFields, Bool.and_eq_true] at h
    obtain ⟨c, hc, hv⟩ := nodeBson_node f h.1
    obtain ⟨type, name, value, childV⟩ := c
    have hname : name = f := by
      cases v <;> rw [nodeOfBson] at hc <;> cases hc <;> rfl
    rw [compoundObjectResponse, hc, Option.toList_some, List.singleton_append, compoundValueObj, hv,
      compoundValueObj_shown h.2, hname]
    rfl
theorem compoundValueArr_shown : ∀ {xs : List Bson}, textItems xs = true → ∀ ix,
    compoundValueArr (compoundVectorResponse ix xs) = xs
  | [], _, ix => by rw [compoundVectorResponse, compoundValueArr]
  | v :: vs, h, ix => by
    rw [textItems, Bool.and_eq_true] at h
    obtain ⟨c, hc, hv⟩ := nodeBson_node (toString ix) h.1
    rw [compoundVectorResponse, hc, Option.toList_some, List.singleton_append, compoundValueArr, hv,
      compoundValueArr_shown h.2 (ix + 1)]
    rfl
end

mutual
theorem textOnly_nodeBson : ∀ {c : CompoundValueNode} {v : Bson}, nodeBson c = some v → textOnly v = true
  | .mk .unknown _ _ _, _, h => by simp [nodeBson] at h
  | .mk .string _ value _, _, h => by
    rw [nodeBson] at h
    cases h
    rw [textOnly]
  | .mk .vector _ _ childV, _, h => by
    rw [nodeBson] at h
    cases h
    rw [textOnly]
    exact textItems_compound childV
  | .mk .object _ _ childV, _, h => by
    rw [nodeBson] at h
    cases h
    rw [textOnly]
    exact textFields_compound childV
theorem textItems_compound : ∀ cs : List CompoundValueNode, textItems (compoundValueArr cs) = true
  | [] => by rw [compoundValueArr, textItems]
  | c :: cs => by
    rw [compoundValueArr]
    cases hc : nodeBson c with
    | none => exact textItems_compound cs
    | some v =>
      rw [Option.toList_some, List.singleton_append, textItems, textOnly_nodeBson hc, textItems_compound cs]
      rfl
theorem textFields_compound : ∀ cs : List CompoundValueNode, textFields (compoundValueObj cs) = true
  | [] => by rw [compoundValueObj, textFields]
  | .mk type name value childV :: cs => by
    rw [compoundValueObj]
    cases hc : nodeBson (.mk type name value childV) with
    | none => exact textFields_compound cs
    | some v =>
      rw [Option.map_some, Option.toList_some, List.singleton_append, textFields, textOnly_nodeBson hc,
        textFields_compound cs]
      rfl
end

/-! ## Elements that are shown -/

/-- An item as an answer shows it. -/
def MdDoc.shown (m : MdDoc) : Metadata := ⟨cString m.name, strField m.type, cString m.value⟩

theorem MdDoc.noNul_shown (m : MdDoc) : m.shown.NoNul := ⟨noNul_cString _, noNul_cString _, noNul_cString _⟩

theorem MdDoc.shown_read (m : MdDoc) : m.read.shown = m.shown := by
  unfold MdDoc.shown MdDoc.read
  simp

theorem MdDoc.read_key (m : MdDoc) : m.read.key = m.shown.key := by
  unfold MdDoc.key Metadata.key MdDoc.shown MdDoc.read
  simp

theorem map_shown_read (mds : List MdDoc) : (mds.map MdDoc.read).map MdDoc.shown = mds.map MdDoc.shown := by
  rw [List.map_map]
  exact List.map_congr_left fun m _ => m.shown_read

/-- A request item comes back as it was sent. -/
theorem Metadata.NoNul.toDoc_shown {md : Metadata} (h : md.NoNul) : md.toDoc.shown = md := by
  have hkey := Metadata.toDoc_key h
  rw [MdDoc.key, Metadata.key, Prod.mk.injEq] at hkey
  rw [MdDoc.shown, hkey.2, h.toDoc.name.cString, h.toDoc.value.cString]
  rfl

/-- An element as UPDATE and APPEND write it, of a request attribute with a name and a content. -/
structure Whole (a : AttrDoc) : Prop where
  name : strField a.name ≠ ""
  value : ∃ v, a.value = some v ∧ textOnly v = true ∧ v ≠ .str "" ∧ ∀ s, v = .str s → NoNul s
  custom : ∀ md ∈ a.md.getD [], isNotCustomMetadata (cString md.name) = false

/-- The attribute that stands for the element in an answer. -/
def shownAs (locAttr : String) (a : AttrDoc) : ContextAttribute :=
  let decoded := (decodedValue true a.value).getD ("", none)
  { name := strField a.name, type := strField a.type, value := decoded.1, compoundValueP := decoded.2,
    metadataVector := decodedMetadata locAttr a }

/-- The elements are shown alike. -/
structure SameShown (a b : AttrDoc) : Prop where
  name : strField b.name = strField a.name
  type : strField b.type = strField a.type
  value : b.value = a.value
  id : strField b.id = strField a.id
  md : (b.md.getD []).map MdDoc.shown = (a.md.getD []).map MdDoc.shown

section
variable {a b : AttrDoc} {locAttr locAttr' : String}

theorem contextAttributeOf_whole (h : Whole a) (attrL : List String) (includeEmpty : Bool) :
    contextAttributeOf locAttr attrL includeEmpty a =
      if includedAttribute (strField a.name) attrL then some (shownAs locAttr a) else none := by
  obtain ⟨v, hv, ht, hne, hn⟩ := h.value
  have hdec : decodedValue includeEmpty a.value = some ((decodedValue true a.value).getD ("", none)) := by
    rw [hv]
    cases v with
    | str s =>
      have hs : s ≠ "" := fun e => hne (by rw [e])
      simp [decodedValue, hs, (hn s rfl).cString]
    | obj fs => rfl
    | arr xs => rfl
    | null => simp [textOnly] at ht
    | bool b => simp [textOnly] at ht
    | int n => simp [textOnly] at ht
    | double q => simp [textOnly] at ht
    | oid s => simp [textOnly] at ht
  unfold contextAttributeOf
  rw [hdec, Option.map_some]
  rfl

/-- Elements that are shown alike are so in every answer, where the location is the same. -/
theorem SameShown.contextAttributeOf (h : SameShown a b) (hl : locAttr' = strField a.name ↔ locAttr = strField a.name)
    (attrL : List String) (includeEmpty : Bool) :
    contextAttributeOf locAttr' attrL includeEmpty b = contextAttributeOf locAttr attrL includeEmpty a := by
  have hshown : ((b.md.getD []).map fun md => (⟨cString md.name, strField md.type, cString md.value⟩ : Metadata)) =
      (a.md.getD []).map fun md => ⟨cString md.name, strField md.type, cString md.value⟩ := h.md
  have hmd : decodedMetadata locAttr' b = decodedMetadata locAttr a := by
    unfold decodedMetadata
    rw [h.id, h.name, hshown]
    simp only [hl]
  unfold OrionBroker.contextAttributeOf
  rw [h.name, h.type, h.value, hmd]

theorem SameShown.key (h : SameShown a b) : b.key = a.key := by
  rw [AttrDoc.key, AttrDoc.key, h.name, h.id]

/-! ## Shown attributes as a request -/

theorem decodedMetadata_shown : (shownAs locAttr a).metadataVector =
    ((if strField a.id ≠ "" then [⟨NGSI_MD_ID, "string", strField a.id⟩] else []) ++
      if locAttr = strField a.name then [⟨NGSI_MD_LOCATION, "string", "WGS84"⟩] else []) ++
    (a.md.getD []).map MdDoc.shown := rfl

theorem shownAs_custom (h : Whole a) : ((shownAs locAttr a).metadataVector.filter fun md => !isNotCustomMetadata md.name) =
    (a.md.getD []).map MdDoc.shown := by
  have hcustom : ((a.md.getD []).map MdDoc.shown).filter (fun md => !isNotCustomMetadata md.name) =
      (a.md.getD []).map MdDoc.shown := by
    refine List.filter_eq_self.2 fun md hmd => ?_
    obtain ⟨m, hm, rfl⟩ := List.mem_map.1 hmd
    have hc := h.custom m hm
    show (!isNotCustomMetadata (cString m.name)) = true
    rw [hc]
    rfl
  rw [decodedMetadata_shown, List.filter_append, List.filter_append, hcustom]
  by_cases hid : strField a.id = "" <;> by_cases hl : locAttr = strField a.name <;>
    simp [hid, hl, show isNotCustomMetadata NGSI_MD_ID = true by decide,
      show isNotCustomMetadata NGSI_MD_LOCATION = true by decide]

/-- Of a special name there is no stored item. -/
theorem metadataValue_stored (h : Whole a) {name : String} (hs : isNotCustomMetadata name = true) :
    metadataValue name ((a.md.getD []).map MdDoc.shown) = "" := by
  have hno : ∀ md ∈ (a.md.getD []).map MdDoc.shown, md.name ≠ name := by
    intro md hmd hn
    obtain ⟨m, hm, rfl⟩ := List.mem_map.1 hmd
    have hc : isNotCustomMetadata m.shown.name = false := h.custom m hm
    rw [hn, hs] at hc
    cases hc
  exact (metadataValue_eq_empty_iff fun md hmd hn => absurd hn (hno md hmd)).2 fun ⟨md, hmd, hn⟩ => hno md hmd hn

theorem shownAs_getId (h : Whole a) : (shownAs locAttr a).getId = strField a.id := by
  have hstored := metadataValue_stored h (show isNotCustomMetadata NGSI_MD_ID = true by decide)
  show metadataValue NGSI_MD_ID (shownAs locAttr a).metadataVector = _
  rw [decodedMetadata_shown]
  by_cases hid : strField a.id = "" <;> by_cases hl : locAttr = strField a.name <;>
    simp [hid, hl, metadataValue, hstored, show ¬ NGSI_MD_LOCATION = NGSI_MD_ID by decide]

theorem shownAs_getLocation (h : Whole a) :
    (shownAs locAttr a).getLocation = if locAttr = strField a.name then LOCATION_WGS84 else "" := by
  have hstored := metadataValue_stored h (show isNotCustomMetadata NGSI_MD_LOCATION = true by decide)
  show metadataValue NGSI_MD_LOCATION (shownAs locAttr a).metadataVector = _
  rw [decodedMetadata_shown]
  by_cases hid : strField a.id = "" <;> by_cases hl : locAttr = strField a.name <;>
    simp [hid, hl, metadataValue, hstored, show ¬ NGSI_MD_ID = NGSI_MD_LOCATION by decide, LOCATION_WGS84]

theorem shownAs_key (h : Whole a) : (shownAs locAttr a).key = a.key := by
  rw [ContextAttribute.key, shownAs_getId h]
  rfl

/-- What is shown has been read. -/
theorem shownAs_kept (locAttr : String) (a : AttrDoc) : (shownAs locAttr a).KeptWhole where
  key := ⟨noNul_cString _, noNul_metadataValue NGSI_MD_ID (noNul_decodedMetadata locAttr a)⟩
  type := noNul_cString _
  md md hm _ := noNul_decodedMetadata locAttr a md hm

theorem shownAs_valueBson (h : Whole a) : valueBson (shownAs locAttr a) = a.value := by
  obtain ⟨v, hv, ht, -, hn⟩ := h.value
  unfold valueBson shownAs
  rw [hv]
  cases v with
  | str s => exact congrArg (fun s => some (Bson.str s)) (hn s rfl).cString
  | obj fs =>
    rw [textOnly] at ht
    show nodeBson (.mk .object "toplevel" "" (compoundObjectResponse fs)) = _
    rw [nodeBson, compoundValueObj_shown ht]
  | arr xs =>
    rw [textOnly] at ht
    show nodeBson (.mk .vector "toplevel" "" (compoundVectorResponse 0 xs)) = _
    rw [nodeBson, compoundValueArr_shown ht]
  | null => simp [textOnly] at ht
  | bool b => simp [textOnly] at ht
  | int n => simp [textOnly] at ht
  | double q => simp [textOnly] at ht
  | oid s => simp [textOnly] at ht

end

/-! ## Elements that grow -/

/-- The key stays; the type, once given, is not taken back; no metadata item goes. -/
structure AttrGrows (a a' : AttrDoc) : Prop where
  key : a'.key = a.key
  type : strField a'.type = "" → strField a.type = ""
  md : ∀ m ∈ a.md.getD [], ∃ m' ∈ a'.md.getD [], m'.shown.key = m.shown.key

theorem AttrGrows.refl (a : AttrDoc) : AttrGrows a a := ⟨rfl, id, fun m hm => ⟨m, hm, rfl⟩⟩

theorem AttrGrows.trans {a b c : AttrDoc} (h : AttrGrows a b) (h' : AttrGrows b c) : AttrGrows a c := by
  refine ⟨h'.key.trans h.key, fun ht => h.type (h'.type ht), fun m hm => ?_⟩
  obtain ⟨m1, hm1, hk1⟩ := h.md m hm
  obtain ⟨m2, hm2, hk2⟩ := h'.md m1 hm1
  exact ⟨m2, hm2, hk2.trans hk1⟩

/-- An element that is shown like `a` is no further than what `a` grows to. -/
theorem SameShown.grows {a b a' : AttrDoc} (h : SameShown a b) (hg : AttrGrows a a') : AttrGrows b a' := by
  refine ⟨hg.key.trans h.key.symm, fun ht => h.type.trans (hg.type ht), fun m hm => ?_⟩
  obtain ⟨m1, hm1, hv⟩ := List.mem_map.1 (h.md ▸ List.mem_map_of_mem hm)
  obtain ⟨m2, hm2, hk2⟩ := hg.md m1 hm1
  exact ⟨m2, hm2, hk2.trans (congrArg Metadata.key hv)⟩

section
variable {now : Int} {a b a' : AttrDoc} {locAttr : String}

theorem requestMetadata_shownAs (h : Whole a) :
    (requestMetadata (shownAs locAttr a)).map MdDoc.shown = (a.md.getD []).map MdDoc.shown := by
  rw [requestMetadata, shownAs_custom h, List.map_map, List.map_map]
  exact List.map_congr_left fun m _ => m.noNul_shown.toDoc_shown

/-- The request mentions every stored item. -/
theorem keptMetadata_shownAs (h : Whole a') (hg : AttrGrows b a') :
    keptMetadata (b.md.getD []) (shownAs locAttr a') = [] := by
  rw [keptMetadata, List.filter_eq_nil_iff]
  intro x hx
  obtain ⟨m, hm, rfl⟩ := List.mem_map.1 hx
  obtain ⟨m', hm', hk⟩ := hg.md m hm
  have hmem : m'.shown ∈ (shownAs locAttr a').metadataVector := by
    refine (List.mem_filter.1 (?_ : _ ∈ (shownAs locAttr a').metadataVector.filter
      fun md => !isNotCustomMetadata md.name)).1
    rw [shownAs_custom h]
    exact List.mem_map_of_mem hm'
  have hhas : hasMetadata m.read.name (strField m.read.type) (shownAs locAttr a') = true :=
    mentioned_iff.2 (List.mem_map.2 ⟨_, hmem, hk.trans m.read_key.symm⟩)
  simp [hhas]

/-- What an APPEND makes of an element it finds. -/
theorem sameShown_updated (h : Whole a') (hg : AttrGrows b a') :
    SameShown a' (updatedAttr now b (shownAs locAttr a')) := by
  have hk := hg.key
  rw [AttrDoc.key, AttrDoc.key, Prod.mk.injEq] at hk
  refine ⟨(cString_strField b.name).trans hk.1.symm, ?_, shownAs_valueBson h,
    (strField_copyId b).trans hk.2.symm, ?_⟩
  · have htype : (shownAs locAttr a').type = strField a'.type := rfl
    by_cases ht : strField a'.type = ""
    · simp only [updatedAttr, htype, if_neg (not_not.2 ht), strField_map_cString]
      rw [ht, hg.type ht]
    · simp only [updatedAttr, htype, if_pos ht, strField_some, cString_strField]
  · have hmd : (updatedAttr now b (shownAs locAttr a')).md.getD [] = newMetadata b (shownAs locAttr a') :=
      updatedAttr_mdV now b _
    rw [hmd, newMetadata, keptMetadata_shownAs h hg, List.append_nil, requestMetadata_shownAs h]

theorem appendedAttr_mdV (now : Int) (ca : ContextAttribute) : (appendedAttr now ca).mdV =
    (ca.metadataVector.filter fun md => !isNotCustomMetadata md.name).map fun md => ⟨md.name, some md.type, md.value⟩ :=
  getD_mdField _

/-- What it adds when it finds none; a created element is the same. -/
theorem sameShown_appended (h : Whole a) : SameShown a (appendedAttr now (shownAs locAttr a)) := by
  refine ⟨cString_strField a.name, cString_strField a.type, shownAs_valueBson h, ?_, ?_⟩
  · have hkey := @appendedAttr_key now (shownAs locAttr a) (shownAs_kept locAttr a).key
    rw [AttrDoc.key, ContextAttribute.key, Prod.mk.injEq] at hkey
    exact hkey.2.trans (shownAs_getId h)
  · have hmd : (appendedAttr now (shownAs locAttr a)).md.getD [] = _ := appendedAttr_mdV now _
    rw [hmd, shownAs_custom h, List.map_map, List.map_map]
    refine List.map_congr_left fun m _ => ?_
    show (⟨cString (cString m.name), cString (strField m.type), cString (cString m.value)⟩ : Metadata) = m.shown
    rw [cString_cString, cString_strField, cString_cString]
    rfl

/-- The copy of an element that is not addressed. -/
theorem sameShown_copied (h : Whole a) (hs : SameShown a b) : SameShown a (copiedAttr b) := by
  obtain ⟨v, hv, ht, -, -⟩ := h.value
  have hval : copyValue b.value = b.value := by
    rw [hs.value, hv]
    cases v with
    | str s => rfl
    | obj fs => rfl
    | arr xs => rfl
    | null => simp [textOnly] at ht
    | bool b => simp [textOnly] at ht
    | int n => simp [textOnly] at ht
    | double q => simp [textOnly] at ht
    | oid s => simp [textOnly] at ht
  refine ⟨(cString_strField b.name).trans hs.name, (strField_map_cString b.type).trans hs.type, hval.trans hs.value,
    (strField_copyId b).trans hs.id, ?_⟩
  rw [show (copiedAttr b).md.getD [] = (b.md.getD []).map MdDoc.read from getD_bsonCustomMetadataToBson b,
    map_shown_read]
  exact hs.md

theorem attrGrows_copied (h : AttrGrows b a') : AttrGrows (copiedAttr b) a' := by
  refine ⟨by rw [copiedAttr_key]; exact h.key, fun ht => ?_, fun x hx => ?_⟩
  · exact (strField_map_cString b.type).trans (h.type ht)
  · rw [show (copiedAttr b).md.getD [] = (b.md.getD []).map MdDoc.read from getD_bsonCustomMetadataToBson b] at hx
    obtain ⟨m, hm, rfl⟩ := List.mem_map.1 hx
    rw [MdDoc.shown_read]
    exact h.md m hm

end

/-! ## An APPEND of what is shown -/

/-- The elements are the first of the array, or were before they grew. -/
def ArrayGrows (bs as' : List AttrDoc) : Prop := ∃ pre post, as' = pre ++ post ∧ List.Forall₂ AttrGrows bs pre

theorem ArrayGrows.nil (as' : List AttrDoc) : ArrayGrows [] as' := ⟨[], as', rfl, .nil⟩

theorem attrsGrow_trans {as bs cs : List AttrDoc} (h : List.Forall₂ AttrGrows as bs) (h' : List.Forall₂ AttrGrows bs cs) :
    List.Forall₂ AttrGrows as cs := by
  induction h generalizing cs with
  | nil => exact h'
  | cons hab _ ih =>
    cases h' with
    | cons hbc hrest => exact .cons (hab.trans hbc) (ih hrest)

theorem ArrayGrows.trans {as bs cs : List AttrDoc} (h : ArrayGrows as bs) (h' : ArrayGrows bs cs) : ArrayGrows as cs := by
  obtain ⟨pre, post, rfl, hpre⟩ := h
  obtain ⟨pre', post', rfl, hpre'⟩ := h'
  have hx : List.Forall₂ AttrGrows pre (pre'.take pre.length) := (List.forall₂_take_append pre' pre post hpre'.flip).flip
  refine ⟨pre'.take pre.length, pre'.drop pre.length ++ post', ?_, attrsGrow_trans hpre hx⟩
  rw [← List.append_assoc, List.take_append_drop]

theorem ArrayGrows.filter {as bs : List AttrDoc} (h : ArrayGrows as bs) (p : String → Bool) :
    ArrayGrows (as.filter fun a => p (strField a.name)) (bs.filter fun a => p (strField a.name)) := by
  obtain ⟨pre, post, rfl, hpre⟩ := h
  refine ⟨pre.filter fun a => p (strField a.name), post.filter fun a => p (strField a.name), List.filter_append .., ?_⟩
  induction hpre with
  | nil => exact .nil
  | @cons a a' as pre hg _ ih =>
    have hn : strField a'.name = strField a.name := congrArg Prod.fst hg.key
    rw [List.filter_cons, List.filter_cons, hn]
    split
    · exact .cons hg ih
    · exact ih

section
variable {now : Int} {ca : ContextAttribute} {attrs : List AttrDoc}

theorem checkAndUpdate_others (h : ∀ b ∈ attrs, b.key ≠ ca.key) :
    attrs.map (fun b => (checkAndUpdate now b ca).1) = attrs.map copiedAttr :=
  List.map_congr_left fun b hb => by rw [checkAndUpdate_of_ne (h b hb)]

theorem appendAttribute_absent (h : ∀ b ∈ attrs, b.key ≠ ca.key) :
    (appendAttribute now attrs ca).1 = attrs.map copiedAttr ++ [appendedAttr now ca] := by
  have hno : (updateAttribute now attrs ca).2.1 = false := by
    rw [Bool.eq_false_iff, ne_eq, updateAttribute_updated]
    intro hm
    obtain ⟨b, hb, hk⟩ := List.mem_map.1 hm
    exact h b hb hk
  rw [appendAttribute_attrs, updateAttribute_attrs, checkAndUpdate_others h, hno]
  rfl

theorem appendAttribute_present {pre post : List AttrDoc} {b : AttrDoc} (hb : b.key = ca.key)
    (hpre : ∀ x ∈ pre, x.key ≠ ca.key) (hpost : ∀ x ∈ post, x.key ≠ ca.key) :
    (appendAttribute now (pre ++ b :: post) ca).1 =
      pre.map copiedAttr ++ updatedAttr now b ca :: post.map copiedAttr := by
  have hyes : (updateAttribute now (pre ++ b :: post) ca).2.1 = true := by
    rw [updateAttribute_updated]
    exact List.mem_map.2 ⟨b, by simp, hb⟩
  rw [appendAttribute_attrs, updateAttribute_attrs, hyes, List.map_append, List.map_cons, checkAndUpdate_others hpre,
    checkAndUpdate_others hpost, checkAndUpdate_of_eq hb]
  simp

end

section
variable {env : Env} {now : Int} {locAttr : String}

theorem sameShown_map_copied {as bs : List AttrDoc} (hw : ∀ a ∈ as, Whole a) (h : List.Forall₂ SameShown as bs) :
    List.Forall₂ SameShown as (bs.map copiedAttr) := by
  induction h with
  | nil => exact .nil
  | cons hab _ ih =>
    rw [List.forall_mem_cons] at hw
    exact .cons (sameShown_copied hw.1 hab) (ih hw.2)

theorem attrGrows_map_copied {bs as : List AttrDoc} (h : List.Forall₂ AttrGrows bs as) :
    List.Forall₂ AttrGrows (bs.map copiedAttr) as := by
  induction h with
  | nil => exact .nil
  | cons hab _ ih => exact .cons (attrGrows_copied hab) ih

theorem forall₂_keys {R : AttrDoc → AttrDoc → Prop} (hR : ∀ {a b}, R a b → a.key = b.key) {as bs : List AttrDoc}
    (h : List.Forall₂ R as bs) : as.map AttrDoc.key = bs.map AttrDoc.key := by
  induction h with
  | nil => rfl
  | cons hab _ ih => rw [List.map_cons, List.map_cons, hR hab, ih]

/-- The first part of the array is copied; of the rest the old elements are still there. -/
theorem run_copies_from {rest : List AttrDoc} : ∀ {front done todo : List AttrDoc} {s s' : Work × List String},
    s.1.attrs = done ++ todo → List.Forall₂ SameShown front done → ArrayGrows todo rest →
    ((front ++ rest).map AttrDoc.key).Nodup → (∀ a ∈ front ++ rest, Whole a) →
    Replay.run (runStep env now .append) (rest.map (shownAs locAttr)) s = some s' →
    List.Forall₂ SameShown (front ++ rest) s'.1.attrs := by
  induction rest with
  | nil =>
    intro front done todo s s' hs hfront hgrow _ _ h
    obtain ⟨pre, post, hrest, hpre⟩ := hgrow
    obtain ⟨rfl, rfl⟩ := List.append_eq_nil_iff.1 hrest.symm
    cases hpre
    cases h
    rw [hs, List.append_nil, List.append_nil]
    exact hfront
  | cons a' rest ih =>
    intro front done todo s s' hs hfront hgrow hkeys hwhole h
    obtain ⟨s1, h1, h2⟩ := Option.bind_eq_some_iff.1 h
    have ha' : Whole a' := hwhole a' (by simp)
    have hkey : (shownAs locAttr a').key = a'.key := shownAs_key ha'
    have hattrs : s1.1.attrs = (appendAttribute now s.1.attrs (shownAs locAttr a')).1 := runStep_attrs h1
    have hcopied := sameShown_map_copied (fun a ha => hwhole a (List.mem_append_left _ ha)) hfront
    rw [List.map_append, List.map_cons, List.nodup_append] at hkeys
    have hdone : ∀ b ∈ done, b.key ≠ (shownAs locAttr a').key := by
      intro b hb hk
      rw [hkey] at hk
      have hmem : b.key ∈ front.map AttrDoc.key := by
        rw [forall₂_keys (fun h => h.key.symm) hfront]
        exact List.mem_map_of_mem hb
      exact hkeys.2.2 _ hmem _ (by simp) hk
    have hstep : ∃ done' todo', s1.1.attrs = done' ++ todo' ∧ List.Forall₂ SameShown (front ++ [a']) done' ∧
        ArrayGrows todo' rest := by
      obtain ⟨pre, post, hrest, hpre⟩ := hgrow
      rw [hattrs, hs]
      cases hpre with
      | nil =>
        -- nothing old is left: the element is new
        rw [List.append_nil, appendAttribute_absent hdone]
        exact ⟨_, [], by rw [List.append_nil], List.rel_append hcopied (.cons (sameShown_appended ha') .nil), .nil rest⟩
      | @cons b _ todo' pre' hb hpre' =>
        rw [List.cons_append, List.cons.injEq] at hrest
        obtain ⟨rfl, rfl⟩ := hrest
        have htodo : ∀ x ∈ todo', x.key ≠ (shownAs locAttr a').key := by
          intro x hx hk
          rw [hkey] at hk
          have hmem : x.key ∈ pre'.map AttrDoc.key := by
            rw [← forall₂_keys (fun h => h.key.symm) hpre']
            exact List.mem_map_of_mem hx
          rw [List.map_append, List.nodup_cons] at hkeys
          exact hkeys.2.1.1 (hk ▸ List.mem_append_left _ hmem)
        rw [appendAttribute_present (hb.key.symm.trans hkey.symm) hdone htodo]
        refine ⟨done.map copiedAttr ++ [updatedAttr now b (shownAs locAttr a')], todo'.map copiedAttr, by simp,
          List.rel_append hcopied (.cons (sameShown_updated ha' hb) .nil), ?_⟩
        exact ⟨pre', post, rfl, attrGrows_map_copied hpre'⟩
    obtain ⟨done', todo', hs1, hfront1, hgrow1⟩ := hstep
    have happ : front ++ a' :: rest = (front ++ [a']) ++ rest := by simp
    rw [happ]
    refine ih hs1 hfront1 hgrow1 ?_ (happ ▸ hwhole) h2
    rw [← happ, List.map_append, List.map_cons, List.nodup_append]
    exact hkeys

/-- **An APPEND of what is shown** makes a copy out of an array that grew to it. -/
theorem run_copies {as : List AttrDoc} (hkeys : (as.map AttrDoc.key).Nodup) (hwhole : ∀ a ∈ as, Whole a)
    {s s' : Work × List String} (hgrow : ArrayGrows s.1.attrs as)
    (h : Replay.run (runStep env now .append) (as.map (shownAs locAttr)) s = some s') :
    List.Forall₂ SameShown as s'.1.attrs :=
  @run_copies_from env now locAttr as [] [] s.1.attrs s s' rfl .nil hgrow hkeys hwhole h

/-! ## The location of a copy -/

/-- A marked element makes its name the location attribute; the others leave it. -/
theorem run_copies_loc {as : List AttrDoc} : ∀ {s s' : Work × List String}, (∀ a ∈ as, Whole a) →
    Replay.run (runStep env now .append) (as.map (shownAs locAttr)) s = some s' →
    s'.1.loc.locAttr = if locAttr ∈ as.map (fun a => strField a.name) then locAttr else s.1.loc.locAttr := by
  induction as with
  | nil =>
    intro s s' _ h
    cases h
    rfl
  | cons a as ih =>
    intro s s' hw h
    obtain ⟨s1, h1, h2⟩ := Option.bind_eq_some_iff.1 h
    rw [List.forall_mem_cons] at hw
    have hloc := runStep_loc h1
    have hgl := @shownAs_getLocation a locAttr hw.1
    rw [ih hw.2 h2]
    by_cases ha : locAttr = strField a.name
    · rw [if_pos ha] at hgl
      have hm : s1.1.loc.locAttr = strField a.name :=
        (locAfter_append_marked (by rw [hgl]; decide) hloc).1
      simp [hm, ha]
    · rw [if_neg ha] at hgl
      rw [locAfter_unmarked hgl] at hloc
      simp [← Option.some.inj hloc, ha]

end

/-! ## Growth under UPDATE and APPEND -/

/-- A request attribute with a name and a content, and without NUL. -/
structure Storable (ca : ContextAttribute) : Prop where
  name : ca.name ≠ ""
  content : ca.hasContent = true
  whole : ca.SentWhole

section
variable {now : Int} {ca : ContextAttribute} {a : AttrDoc} {attrs : List AttrDoc}

theorem valueBson_storable (h : Storable ca) :
    ∃ v, valueBson ca = some v ∧ textOnly v = true ∧ v ≠ .str "" ∧ ∀ s, v = .str s → NoNul s := by
  have hc := h.content
  unfold ContextAttribute.hasContent at hc
  unfold valueBson
  cases hroot : ca.compoundValueP with
  | none =>
    rw [hroot] at hc
    have hv : ca.value ≠ "" := by simpa using hc
    exact ⟨_, rfl, by rw [textOnly], fun e => hv (Bson.str.inj e), fun s e => Bson.str.inj e ▸ h.whole.value hroot⟩
  | some root =>
    rw [hroot] at hc
    simp only [Bool.and_eq_true, bne_iff_ne, ne_eq] at hc
    obtain ⟨type, name, value, childV⟩ := root
    cases type with
    | unknown => simp [CompoundValueNode.isTree] at hc
    | string => exact absurd rfl hc.1.2
    | object =>
      refine ⟨.obj (compoundValueObj childV), by simp only [nodeBson], ?_, nofun, nofun⟩
      rw [textOnly]
      exact textFields_compound childV
    | vector =>
      refine ⟨.arr (compoundValueArr childV), by simp only [nodeBson], ?_, nofun, nofun⟩
      rw [textOnly]
      exact textItems_compound childV

theorem requestMetadata_custom (ca : ContextAttribute) : ∀ md ∈ requestMetadata ca, isNotCustomMetadata md.name = false := by
  intro md hmd
  obtain ⟨m, hm, rfl⟩ := List.mem_map.1 hmd
  simpa using (List.mem_filter.1 hm).2

theorem whole_updated (h : Whole a) (hs : Storable ca) : Whole (updatedAttr now a ca) := by
  refine ⟨fun e => h.name ((cString_strField a.name).symm.trans e), valueBson_storable hs, fun md hmd => ?_⟩
  rw [show (updatedAttr now a ca).md.getD [] = newMetadata a ca from getD_mdField _] at hmd
  rw [(noNul_newMetadata hs.whole.md md hmd).name.cString]
  rcases List.mem_append.1 hmd with hmd | hmd
  · exact requestMetadata_custom ca md hmd
  · obtain ⟨m, hm, rfl⟩ := List.mem_map.1 (List.mem_filter.1 hmd).1
    exact h.custom m hm

theorem whole_appended (hs : Storable ca) : Whole (appendedAttr now ca) := by
  refine ⟨fun e => hs.name (hs.whole.key.name.cString.symm.trans e), valueBson_storable hs, fun md hmd => ?_⟩
  obtain ⟨m, hm, hc, rfl⟩ := mem_appended.1 hmd
  show isNotCustomMetadata (cString m.name) = false
  rw [(hs.whole.md m hm hc).name.cString]
  exact hc

/-- An element that is shown like a whole one is whole. -/
theorem Whole.of_sameShown {b : AttrDoc} (h : Whole a) (hs : SameShown a b) : Whole b := by
  refine ⟨hs.name ▸ h.name, hs.value ▸ h.value, fun md hmd => ?_⟩
  obtain ⟨m, hm, hv⟩ := List.mem_map.1 (hs.md ▸ List.mem_map_of_mem hmd)
  have hn : cString m.name = cString md.name := congrArg Metadata.name hv
  rw [← hn]
  exact h.custom m hm

theorem whole_copied (h : Whole a) : Whole (copiedAttr a) :=
  h.of_sameShown (sameShown_copied h ⟨rfl, rfl, rfl, rfl, rfl⟩)

theorem attrGrows_updated (h : Whole a) (hw : ca.KeptWhole) : AttrGrows a (updatedAttr now a ca) := by
  refine ⟨updatedAttr_key now a ca, fun ht => ?_, fun m hm => ?_⟩
  · by_cases hc : ca.type = ""
    · simpa [updatedAttr, hc] using ht
    · simp [updatedAttr, hc, hw.type.cString] at ht
  · rw [show (updatedAttr now a ca).md.getD [] = newMetadata a ca from getD_mdField _, newMetadata]
    by_cases hhas : hasMetadata m.read.name (strField m.read.type) ca = true
    · -- the request has an item for it
      obtain ⟨md, hmd, he⟩ := List.mem_map.1 (mentioned_iff.1 hhas)
      rw [MdDoc.read_key] at he
      have hcustom : isNotCustomMetadata md.name = false := by
        rw [show md.name = cString m.name from congrArg Prod.fst he]
        exact h.custom m hm
      have hmem : md.toDoc ∈ requestMetadata ca := mem_requestMetadata.2 ⟨md, hmd, hcustom, rfl⟩
      exact ⟨md.toDoc, List.mem_append_left _ hmem, by rw [(hw.md md hmd hcustom).toDoc_shown, he]⟩
    · exact ⟨m.read, List.mem_append_right _ (List.mem_filter.2 ⟨List.mem_map_of_mem hm, by simpa using hhas⟩),
        by rw [MdDoc.shown_read]⟩

theorem attrGrows_self_copied (a : AttrDoc) : AttrGrows a (copiedAttr a) := by
  refine ⟨copiedAttr_key a, fun ht => (strField_map_cString a.type).symm.trans ht, fun m hm => ⟨m.read, ?_, ?_⟩⟩
  · rw [show (copiedAttr a).md.getD [] = (a.md.getD []).map MdDoc.read from getD_bsonCustomMetadataToBson a]
    exact List.mem_map_of_mem hm
  · rw [MdDoc.shown_read]

theorem attrsGrow_update (hw : ca.KeptWhole) (h : ∀ a ∈ attrs, Whole a) :
    List.Forall₂ AttrGrows attrs (updateAttribute now attrs ca).1 := by
  rw [updateAttribute_attrs, List.forall₂_map_right_iff, List.forall₂_same]
  intro a ha
  by_cases hk : a.key = ca.key
  · rw [checkAndUpdate_of_eq hk]
    exact attrGrows_updated (h a ha) hw
  · rw [checkAndUpdate_of_ne hk]
    exact attrGrows_self_copied a

/-- What an array keeps: different keys, whole elements. -/
structure WholeArray (attrs : List AttrDoc) : Prop where
  keys : (attrs.map AttrDoc.key).Nodup
  whole : ∀ a ∈ attrs, Whole a

theorem attrsAfter_whole {action : UpdateAction} (ha : UpdateOrAppend action) (hs : Storable ca) (h : WholeArray attrs) :
    WholeArray (attrsAfter now action attrs ca) ∧ ArrayGrows attrs (attrsAfter now action attrs ca) := by
  have hwhole : ∀ x ∈ attrsAfter now action attrs ca, Whole x := by
    intro x hx
    rcases mem_attrsAfter ha hx with ⟨a, hm, _, rfl⟩ | ⟨a, hm, _, rfl⟩ | rfl
    · exact whole_updated (h.whole a hm) hs
    · exact whole_copied (h.whole a hm)
    · exact whole_appended hs
  rcases ha with rfl | rfl
  · refine ⟨⟨?_, hwhole⟩, (updateAttribute now attrs ca).1, [], (List.append_nil _).symm,
      attrsGrow_update hs.whole.toKeptWhole h.whole⟩
    show ((updateAttribute now attrs ca).1.map AttrDoc.key).Nodup
    rw [updateAttribute_keys]
    exact h.keys
  · refine ⟨⟨?_, hwhole⟩, (updateAttribute now attrs ca).1, _, appendAttribute_attrs now attrs ca,
      attrsGrow_update hs.whole.toKeptWhole h.whole⟩
    show ((appendAttribute now attrs ca).1.map AttrDoc.key).Nodup
    rw [appendAttribute_keys hs.whole.key]
    by_cases hk : ca.key ∈ attrs.map AttrDoc.key
    · rw [if_pos hk, List.append_nil]
      exact h.keys
    · rw [if_neg hk]
      exact h.keys.append (List.nodup_singleton _) (List.disjoint_singleton.2 hk)

end

/-! ## Documents -/

/-- `location.attrName`, `""` when there is none. -/
def EntityDoc.locAttr (d : EntityDoc) : String := strField (d.location.map LocDoc.attrName)

/-- Besides the array the location attribute: once there is one, it stays. -/
structure DocGrows (d d' : EntityDoc) : Prop where
  array : ArrayGrows d.attrs d'.attrs
  loc : d.locAttr ≠ "" → d'.locAttr = d.locAttr

theorem DocGrows.refl (d : EntityDoc) : DocGrows d d :=
  ⟨⟨d.attrs, [], (List.append_nil _).symm, List.forall₂_same.2 fun a _ => .refl a⟩, fun _ => rfl⟩

theorem DocGrows.trans {d d' d'' : EntityDoc} (h : DocGrows d d') (h' : DocGrows d' d'') : DocGrows d d'' :=
  ⟨h.array.trans h'.array, fun hl => (h'.loc (h.loc hl ▸ hl)).trans (h.loc hl)⟩

/-- One UPDATE or APPEND that the attribute loop accepts, as it is stored. -/
def Revised (env : Env) (d d' : EntityDoc) : Prop :=
  ∃ ctx ce w work, UpdateOrAppend (updateAction ctx.action) ∧ (∀ ca ∈ ce.contextAttributeVector, Storable ca) ∧
    (vectorOn env ctx ce d w).result = .ok work ∧ d' = applyWork ctx.now work d

section
variable {env : Env} {ctx : Ctx} {ce : ContextElement} {d d' : EntityDoc} {w : World} {work : Work}

theorem startWork_loc (d : EntityDoc) : (startWork d).loc.locAttr = d.locAttr := by
  unfold startWork EntityDoc.locAttr
  cases d.location with
  | none => exact strField_none.symm
  | some l => rfl

theorem applyWork_locAttr (now : Int) {work : Work} (hn : NoNul work.loc.locAttr) (d : EntityDoc) :
    (applyWork now work d).locAttr = work.loc.locAttr := by
  rw [← startWork_loc, startWork_locAttr now hn]

/-- The run behind an accepted vector. -/
theorem vectorOn_run (h : (vectorOn env ctx ce d w).result = .ok work) : ∃ names,
    Replay.run (runStep env ctx.now (updateAction ctx.action)) ce.contextAttributeVector (startWork d, []) =
      some ({ work with subs := (startWork d).subs }, names) := by
  obtain ⟨names, hrun, _⟩ := processContextAttributeVector_run h
  refine ⟨[] ++ names, ?_⟩
  rw [@attributeRun_toOption env ctx (documentEntity d.key), hrun]
  rfl

/-- **UPDATE and APPEND let a document grow.** -/
theorem Revised.grows (h : Revised env d d') (hw : WholeArray d.attrs) : WholeArray d'.attrs ∧ DocGrows d d' := by
  obtain ⟨ctx, ce, w, work, ha, hs, hres, rfl⟩ := h
  obtain ⟨names, hrun⟩ := vectorOn_run hres
  have hinv := Replay.run_invariant (I := fun s : Work × List String => WholeArray s.1.attrs ∧
      ArrayGrows d.attrs s.1.attrs ∧ (d.locAttr ≠ "" → s.1.loc.locAttr = d.locAttr))
    (fun ca hca s s' hI hstep => ?_) ⟨hw, (DocGrows.refl d).array, fun _ => startWork_loc d⟩ hrun
  · have hn : NoNul work.loc.locAttr :=
      run_location_noNul ha (fun ca hca => (hs ca hca).whole.key) hrun (startWork_noNul d)
    refine ⟨hinv.1, hinv.2.1, fun hl => ?_⟩
    rw [applyWork_locAttr ctx.now hn]
    exact hinv.2.2 hl
  · obtain ⟨hwhole, hgrow, hloc⟩ := hI
    obtain ⟨hwhole', hgrow'⟩ := @attrsAfter_whole ctx.now ca s.1.attrs _ ha (hs ca hca) hwhole
    rw [← runStep_attrs hstep] at hwhole' hgrow'
    refine ⟨hwhole', hgrow.trans hgrow', fun hl => ?_⟩
    have hl' := hloc hl
    have hafter := runStep_loc hstep
    rcases ha with ha | ha
    · rw [ha] at hafter
      exact (locReady_update hafter).1.trans hl'
    · rw [ha] at hafter
      exact (locAfter_append_keeps (hl' ▸ hl) hafter).trans hl'

theorem createdDoc_whole {en : EntityId} {caV : List ContextAttribute} {loc : Loc} (hs : ∀ ca ∈ caV, Storable ca)
    (hk : (caV.map ContextAttribute.key).Nodup) : WholeArray (createdDoc ctx en caV loc).attrs := by
  refine ⟨?_, fun a ha => ?_⟩
  · have hkeys : (caV.map (createdAttr ctx.now)).map AttrDoc.key = caV.map ContextAttribute.key := by
      rw [List.map_map]
      exact List.map_congr_left fun ca hca => createdAttr_key ctx.now (hs ca hca).whole.key
    show ((caV.map (createdAttr ctx.now)).map AttrDoc.key).Nodup
    rw [hkeys]
    exact hk
  · obtain ⟨ca, hca, rfl⟩ := List.mem_map.1 ha
    rw [createdAttr_eq_appended]
    exact whole_appended (hs ca hca)

end

/-! ## Copies of documents -/

/-- The elements that an attribute list includes. -/
def EntityDoc.included (d : EntityDoc) (attrL : List String) : List AttrDoc :=
  d.attrs.filter fun a => includedAttribute (strField a.name) attrL

/-- `b` stores what `d` shows of these attributes; its location attribute is that of `d`, where it is one of them. -/
structure Copies (attrL : List String) (d b : EntityDoc) : Prop where
  attrs : List.Forall₂ SameShown (d.included attrL) b.attrs
  loc : b.locAttr = if d.locAttr ∈ (d.included attrL).map (fun a => strField a.name) then d.locAttr else ""

section
variable {attrL : List String} {d d' b : EntityDoc}

theorem included_whole (hw : WholeArray d.attrs) : WholeArray (d.included attrL) :=
  ⟨hw.keys.sublist (List.filter_sublist.map _), fun a ha => hw.whole a (List.mem_filter.1 ha).1⟩

/-- What a notification shows of a document. -/
theorem contextAttributeVector_shown (hw : WholeArray d.attrs) (includeEmpty : Bool) :
    (contextElementResponseOf attrL includeEmpty d).contextAttributeVector =
      (d.included attrL).map (shownAs d.locAttr) := by
  show d.attrs.filterMap (contextAttributeOf d.locAttr attrL includeEmpty) = _
  unfold EntityDoc.included
  have hall := hw.whole
  generalize d.attrs = as at hall
  induction as with
  | nil => rfl
  | cons a as ih =>
    rw [List.forall_mem_cons] at hall
    rw [List.filterMap_cons, contextAttributeOf_whole hall.1, List.filter_cons]
    split
    · rename_i h
      split at h
      · cases h
      · rename_i hn
        rw [if_neg hn]
        exact ih hall.2
    · rename_i h
      split at h
      · rename_i hi
        cases h
        rw [if_pos hi, List.map_cons, ih hall.2]
      · cases h

/-- The mark of the copy is the mark of the original. -/
theorem Copies.marked_iff (hw : WholeArray d.attrs) (h : Copies attrL d b) {a : AttrDoc} (ha : a ∈ d.included attrL) :
    b.locAttr = strField a.name ↔ d.locAttr = strField a.name := by
  rw [h.loc]
  by_cases hm : d.locAttr ∈ (d.included attrL).map fun a => strField a.name
  · rw [if_pos hm]
  · rw [if_neg hm]
    refine iff_of_false (fun e => ((included_whole hw).whole a ha).name e.symm) fun e => hm ?_
    rw [e]
    exact List.mem_map.2 ⟨a, ha, rfl⟩

/-- **A copy answers as the original** does for these attributes. -/
theorem Copies.answers (hw : WholeArray d.attrs) (h : Copies attrL d b) (includeEmpty : Bool) :
    (contextElementResponseOf [] includeEmpty b).contextAttributeVector =
      (contextElementResponseOf attrL includeEmpty d).contextAttributeVector := by
  rw [contextAttributeVector_shown hw]
  show b.attrs.filterMap (contextAttributeOf b.locAttr [] includeEmpty) = _
  have hwhole := (@included_whole attrL d hw).whole
  have hmark := fun a => Copies.marked_iff hw h (a := a)
  have hattrs := h.attrs
  generalize d.included attrL = as at hwhole hmark hattrs
  generalize b.attrs = bs at hattrs
  induction hattrs with
  | nil => rfl
  | @cons a b' as bs hab _ ih =>
    rw [List.forall_mem_cons] at hwhole
    rw [List.filterMap_cons, hab.contextAttributeOf (hmark a (by simp)), contextAttributeOf_whole hwhole.1]
    rw [show includedAttribute (strField a.name) [] = true from rfl, if_pos rfl, List.map_cons,
      ih hwhole.2 fun x hx => hmark x (by simp [hx])]

section
variable {env : Env} {ctx : Ctx} {ce : ContextElement} {w : World} {work : Work}

/-- **An APPEND of what the grown document shows** turns a copy of the old one into a copy of the new one. -/
theorem Copies.appended (h : Copies attrL d b) (hgrow : DocGrows d d') (hw : WholeArray d.attrs) (hw' : WholeArray d'.attrs)
    (happ : updateAction ctx.action = .append)
    (hce : ce.contextAttributeVector = (d'.included attrL).map (shownAs d'.locAttr))
    (hres : (vectorOn env ctx ce b w).result = .ok work) : Copies attrL d' (applyWork ctx.now work b) := by
  obtain ⟨names, hrun⟩ := vectorOn_run hres
  rw [happ, hce] at hrun
  have hincl := @included_whole attrL d' hw'
  have hgrows : ArrayGrows b.attrs (d'.included attrL) := by
    obtain ⟨pre, post, hpost, hpre⟩ := hgrow.array.filter fun n => includedAttribute n attrL
    refine ⟨pre, post, hpost, ?_⟩
    have hback : List.Forall₂ (fun b a => SameShown a b) b.attrs (d.included attrL) := h.attrs.flip
    have hzip : ∀ {bs as cs : List AttrDoc}, List.Forall₂ (fun b a => SameShown a b) bs as →
        List.Forall₂ AttrGrows as cs → List.Forall₂ AttrGrows bs cs := by
      intro bs as cs h1
      induction h1 generalizing cs with
      | nil => exact id
      | cons hab _ ih =>
        intro h2
        cases h2 with
        | cons hbc hrest => exact .cons (hab.grows hbc) (ih hrest)
    exact hzip hback hpre
  refine ⟨run_copies hincl.keys hincl.whole hgrows hrun, ?_⟩
  have hkeys : ∀ ca ∈ (d'.included attrL).map (shownAs d'.locAttr), ca.NoNulKey := by
    intro ca hca
    obtain ⟨a, _, rfl⟩ := List.mem_map.1 hca
    exact (shownAs_kept d'.locAttr a).key
  have hn : NoNul work.loc.locAttr := run_location_noNul (.inr rfl) hkeys hrun (startWork_noNul b)
  rw [applyWork_locAttr ctx.now hn]
  refine (run_copies_loc hincl.whole hrun).trans ?_
  by_cases hm : d'.locAttr ∈ (d'.included attrL).map fun a => strField a.name
  · rw [if_pos hm, if_pos hm]
  · rw [if_neg hm, if_neg hm]
    show (startWork b).loc.locAttr = ""
    rw [startWork_loc, h.loc]
    -- a location attribute that was copied would still be there
    by_cases hold : d.locAttr ∈ (d.included attrL).map fun a => strField a.name
    · obtain ⟨a, ha, hn⟩ := List.mem_map.1 hold
      have hne : d.locAttr ≠ "" := hn ▸ ((included_whole hw).whole a ha).name
      obtain ⟨pre, post, hpost, hpre⟩ := hgrow.array.filter fun n => includedAttribute n attrL
      have hkeys := forall₂_keys (fun h => h.key.symm) hpre
      have hmem : a.key ∈ pre.map AttrDoc.key := hkeys ▸ List.mem_map_of_mem ha
      obtain ⟨a', ha', hk⟩ := List.mem_map.1 hmem
      refine absurd (List.mem_map.2 ⟨a', ?_, ?_⟩) hm
      · show a' ∈ d'.attrs.filter _
        rw [hpost]
        exact List.mem_append_left _ ha'
      · rw [hgrow.loc hne, ← hn]
        exact congrArg Prod.fst hk
    · rw [if_neg hold]

/-- The location of a creation. -/
theorem processLocation_shown {atof : List Char → Rat} {locAttr : String} : ∀ {as : List AttrDoc} {st loc : Loc},
    (∀ a ∈ as, Whole a) →
    (as.map (shownAs locAttr)).foldlM (fun st ca => processLocationAttr atof ca st) st = .ok loc →
    loc.locAttr = if locAttr ∈ as.map (fun a => strField a.name) then locAttr else st.locAttr
  | [], st, loc, _, h => by
    cases h
    rfl
  | a :: as, st, loc, hw, h => by
    rw [List.forall_mem_cons] at hw
    rw [List.map_cons, List.foldlM_cons] at h
    have hmarked : (shownAs locAttr a).Marked ↔ locAttr = strField a.name := by
      have hgl := @shownAs_getLocation a locAttr hw.1
      have hvalues : ∀ md ∈ (shownAs locAttr a).metadataVector, md.name = NGSI_MD_LOCATION → md.value ≠ "" := by
        intro md hmd hn
        rcases List.mem_append.1 hmd with hmd | hmd
        · rcases List.mem_append.1 hmd with hmd | hmd
          · split at hmd
            · rw [List.mem_singleton.1 hmd] at hn
              exact absurd (show NGSI_MD_ID = NGSI_MD_LOCATION from hn) (by decide)
            · cases hmd
          · split at hmd
            · rw [List.mem_singleton.1 hmd]
              decide
            · cases hmd
        · obtain ⟨m, hm, rfl⟩ := List.mem_map.1 hmd
          have hc := hw.1.custom m hm
          rw [show cString m.name = NGSI_MD_LOCATION from hn] at hc
          exact absurd hc (by decide)
      have hiff := metadataValue_eq_empty_iff hvalues
      have hdec : (shownAs locAttr a).getLocation = "" ↔ ¬ locAttr = strField a.name := by
        rw [hgl]
        by_cases he : locAttr = strField a.name
        · rw [if_pos he]
          exact iff_of_false (by decide) (not_not.2 he)
        · rw [if_neg he]
          exact iff_of_true rfl he
      exact not_iff_not.1 (hiff.symm.trans hdec)
    cases hst : processLocationAttr atof (shownAs locAttr a) st with
    | error e =>
      rw [hst] at h
      cases h
    | ok st1 =>
      rw [hst] at h
      have h : (as.map (shownAs locAttr)).foldlM (fun st ca => processLocationAttr atof ca st) st1 = .ok loc := h
      rw [processLocation_shown hw.2 h]
      rcases processLocationAttr_marked hw.1.name hst with ⟨hm, hl⟩ | ⟨hm, rfl⟩
      · have he := hmarked.1 hm
        rw [hl]
        simp [he, shownAs]
      · simp [mt hmarked.2 hm]

/-- **A document that is created from what another shows** is a copy of it. -/
theorem copies_created {en : EntityId} {caV : List ContextAttribute} {loc : Loc} (hw : WholeArray d.attrs)
    (hce : caV = (d.included attrL).map (shownAs d.locAttr)) (hloc : processLocation env.atof caV = .ok loc) :
    Copies attrL d (createdDoc ctx en caV loc) := by
  have hincl := @included_whole attrL d hw
  subst hce
  constructor
  · show List.Forall₂ SameShown _ (((d.included attrL).map (shownAs d.locAttr)).map (createdAttr ctx.now))
    rw [List.map_map, List.forall₂_map_right_iff, List.forall₂_same]
    intro a ha
    rw [Function.comp_apply, createdAttr_eq_appended]
    exact sameShown_appended (hincl.whole a ha)
  · have hn : NoNul loc.locAttr := by
      refine processLocation_noNul (fun ca hca => ?_) hloc
      obtain ⟨a, _, rfl⟩ := List.mem_map.1 hca
      exact (shownAs_kept d.locAttr a).key
    have hl : (createdDoc ctx en ((d.included attrL).map (shownAs d.locAttr)) loc).locAttr = loc.locAttr :=
      (createdDoc_locAttr ctx en _ loc).trans hn.cString
    rw [hl]
    exact processLocation_shown hincl.whole hloc

end

end

end OrionBroker
