import Mathlib.Logic.Function.Basic
import OrionBroker.Lib.KeyMap
import OrionBroker.Update.Change
import OrionBroker.Update.Copies

/-!
# The array of an entity as a map

What an entity is for: under the name and id of each attribute it has a type, a value and metadata (`Contents`).
UPDATE revises what is there, APPEND also adds, DELETE takes away (`Contents.step`). The loop over the request
attributes (MongoCommonUpdate.cpp:1153) does this on the `attrs` array, one attribute after the other
(`run_contents`), and leaves `entityModified` false only when the map is what it was.

The requests are those with string values, typed metadata, no location and no NUL (`OrdinaryRequest`).
-/

namespace OrionBroker

open Mongo

/-! ## The map -/

@[ext] structure Content where
  type : String
  value : String
  metadata : String × String → Option String

abbrev Contents := String × String → Option Content

/-- The metadata that a request gives. -/
def ContextAttribute.given (ca : ContextAttribute) (k : String × String) : Option String :=
  (KeyMap.lookup Metadata.key (ca.metadataVector.filter fun md => !isNotCustomMetadata md.name) k).map Metadata.value

def ContextAttribute.content (ca : ContextAttribute) : Content := ⟨ca.type, ca.value, ca.given⟩

theorem ContextAttribute.content_metadata (ca : ContextAttribute) (k : String × String) :
    ca.content.metadata k = ca.given k := rfl

/-- An empty type and metadata that are not mentioned stay. -/
def Content.revised (c : Content) (ca : ContextAttribute) : Content where
  type := if ca.type = "" then c.type else ca.type
  value := ca.value
  metadata k := (ca.given k).or (c.metadata k)

/-- The map of a vector: of attributes with one key the first. -/
def Contents.of (caV : List ContextAttribute) : Contents := fun k =>
  (KeyMap.lookup ContextAttribute.key caV k).map ContextAttribute.content

/-- The name is used either with ids or without. -/
def Contents.Legal (c : Contents) (ca : ContextAttribute) : Prop :=
  ∀ id, (c (ca.name, id)).isSome = true → (id = "" ↔ ca.getId = "")

open Classical in
/-- One attribute of a request; `none` is a refusal. -/
noncomputable def Contents.step (action : UpdateAction) (ca : ContextAttribute) (c : Contents) : Option Contents :=
  match action with
  | .update => (c ca.key).map fun x => Function.update c ca.key (some (x.revised ca))
  | .append =>
    if c.Legal ca then
      some (Function.update c ca.key (some (((c ca.key).map fun x => x.revised ca).getD ca.content)))
    else none
  | .delete => (c ca.key).map fun _ => Function.update c ca.key none
  | .unknown => none

/-! ## The array -/

def AttrDoc.content (a : AttrDoc) : Content where
  type := strField a.type
  value := strValue a.value
  metadata k := (KeyMap.lookup MdDoc.key a.mdV k).map MdDoc.value

theorem AttrDoc.content_metadata (a : AttrDoc) (k : String × String) :
    a.content.metadata k = (KeyMap.lookup MdDoc.key a.mdV k).map MdDoc.value := rfl

/-- An element with a string, whose metadata all have a type, and which is read as it is stored. -/
structure OrdinaryAttr (a : AttrDoc) : Prop where
  noNul : a.NoNul
  name : strField a.name ≠ ""
  value : ∃ v, a.value = some (.str v) ∧ v ≠ "" ∧ NoNul v
  custom : ∀ md ∈ a.mdV, isNotCustomMetadata md.name = false
  keys : (a.mdV.map MdDoc.key).Nodup
  typed : ∀ md ∈ a.mdV, md.type ≠ some ""

/-- An attribute of a request that makes such elements. -/
structure OrdinaryRequest (ca : ContextAttribute) : Prop where
  noNul : ca.NoNul
  name : ca.name ≠ ""
  string : ca.compoundValueP = none
  unmarked : ∀ md ∈ ca.metadataVector, md.name ≠ NGSI_MD_LOCATION
  keys : (ca.metadataVector.map Metadata.key).Nodup
  typed : ∀ md ∈ ca.metadataVector, isNotCustomMetadata md.name = false → md.type ≠ ""

/-- The array stands for the map. -/
structure Holds (attrs : List AttrDoc) (c : Contents) : Prop where
  keys : (attrs.map AttrDoc.key).Nodup
  ordinary : ∀ a ∈ attrs, OrdinaryAttr a
  entries : ∀ k, (KeyMap.lookup AttrDoc.key attrs k).map AttrDoc.content = c k

section
variable {now : Int} {a : AttrDoc} {ca : ContextAttribute} {attrs : List AttrDoc} {c : Contents}

theorem OrdinaryAttr.simple (h : OrdinaryAttr a) : SimpleAttr a := by
  obtain ⟨v, hv, -⟩ := h.value
  exact ⟨⟨v, hv⟩, h.custom, h.keys⟩

theorem OrdinaryAttr.whole (h : OrdinaryAttr a) : Whole a := by
  obtain ⟨v, hv, hne, hn⟩ := h.value
  refine ⟨h.name, ⟨_, hv, by rw [textOnly], fun e => hne (Bson.str.inj e), fun s e => Bson.str.inj e ▸ hn⟩, ?_⟩
  intro md hmd
  rw [(h.noNul.md md hmd).name.cString]
  exact h.custom md hmd

/-- What the tests compare is read whole. -/
theorem OrdinaryAttr.compared (h : OrdinaryAttr a) (hr : OrdinaryRequest ca) : ComparedWhole a ca := by
  obtain ⟨v, hv, -, hn⟩ := h.value
  refine ⟨h.noNul, fun s hs => ?_, hr.noNul.metadata⟩
  rw [hv, Option.some.injEq, Bson.str.injEq] at hs
  exact hs ▸ hn

theorem OrdinaryRequest.getLocation (h : OrdinaryRequest ca) : ca.getLocation = "" :=
  (metadataValue_eq_empty_iff fun md hmd hn => absurd hn (h.unmarked md hmd)).2
    fun ⟨md, hmd, hn⟩ => h.unmarked md hmd hn

theorem Holds.mem_iff (h : Holds attrs c) (k : String × String) : k ∈ attrs.map AttrDoc.key ↔ (c k).isSome = true := by
  rw [← h.entries, Option.isSome_map, KeyMap.lookup_isSome_iff]

theorem Holds.content (h : Holds attrs c) (ha : a ∈ attrs) : c a.key = some a.content := by
  rw [← h.entries, KeyMap.lookup_of_mem h.keys ha]
  rfl

/-! ### The metadata of an element -/

theorem lookup_requestMetadata (hr : OrdinaryRequest ca) (k : String × String) :
    (KeyMap.lookup MdDoc.key (requestMetadata ca) k).map MdDoc.value = ca.given k := by
  have hmap := @KeyMap.lookup_map _ _ _ _ Metadata.key MdDoc.key
    (ca.metadataVector.filter fun md => !isNotCustomMetadata md.name) k Metadata.toDoc
    fun md hmd => Metadata.toDoc_key (hr.noNul.metadata md (List.mem_filter.1 hmd).1)
  unfold requestMetadata ContextAttribute.given
  rw [show (fun md : Metadata => (⟨md.name, if md.type = "" then none else some md.type, md.value⟩ : MdDoc)) =
    Metadata.toDoc from rfl, hmap, Option.map_map]
  rfl

/-- Of a special name nothing is stored. -/
theorem lookup_special (h : OrdinaryAttr a) {k : String × String} (hk : isNotCustomMetadata k.1 = true) :
    KeyMap.lookup MdDoc.key a.mdV k = none := by
  rw [KeyMap.lookup_eq_none_iff]
  intro hmem
  obtain ⟨md, hmd, rfl⟩ := List.mem_map.1 hmem
  have hc := h.custom md hmd
  rw [show md.key.1 = md.name from rfl, hc] at hk
  cases hk

theorem lookup_newMetadata (h : OrdinaryAttr a) (hr : OrdinaryRequest ca) (k : String × String) :
    (KeyMap.lookup MdDoc.key (newMetadata a ca) k).map MdDoc.value = (ca.given k).or (a.content.metadata k) := by
  have hkept : KeyMap.lookup MdDoc.key (keptMetadata (a.md.getD []) ca) k =
      if (!hasMetadata k.1 k.2 ca) = true then KeyMap.lookup MdDoc.key a.mdV k else none := by
    rw [keptMetadata_of_noNul h.noNul.md]
    exact KeyMap.lookup_filter (fun k : String × String => !hasMetadata k.1 k.2 ca) a.mdV
  rw [newMetadata, KeyMap.lookup_append, Option.map_or, lookup_requestMetadata hr, hkept]
  by_cases hm : hasMetadata k.1 k.2 ca = true
  · rw [if_neg (by simp [hm])]
    -- an item of the request is given, unless its name is a special one
    obtain ⟨md, hmd, hkey⟩ : ∃ md ∈ ca.metadataVector, md.key = k := by
      obtain ⟨md, hmd, he⟩ := List.any_eq_true.1 hm
      rw [Bool.and_eq_true, beq_iff_eq, beq_iff_eq] at he
      exact ⟨md, hmd, Prod.ext he.1 he.2⟩
    by_cases hc : isNotCustomMetadata md.name = true
    · have hnone := @lookup_special a h k (by rw [← hkey]; exact hc)
      show Option.or _ _ = Option.or _ ((KeyMap.lookup MdDoc.key a.mdV k).map MdDoc.value)
      rw [hnone]
    · have hmem : md ∈ ca.metadataVector.filter fun md => !isNotCustomMetadata md.name := by
        rw [List.mem_filter]
        exact ⟨hmd, by simpa using hc⟩
      have hsome : (ca.given k).isSome = true := by
        rw [ContextAttribute.given, Option.isSome_map, KeyMap.lookup_isSome_iff, ← hkey]
        exact List.mem_map_of_mem hmem
      obtain ⟨v, hv⟩ := Option.isSome_iff_exists.1 hsome
      rw [hv]
      rfl
  · rw [if_pos (by simp [hm])]
    rfl

theorem requestMetadata_keys (hr : OrdinaryRequest ca) : ((requestMetadata ca).map MdDoc.key).Nodup := by
  have hmap : (requestMetadata ca).map MdDoc.key =
      (ca.metadataVector.filter fun md => !isNotCustomMetadata md.name).map Metadata.key := by
    rw [requestMetadata, List.map_map]
    exact List.map_congr_left fun r hmem => Metadata.toDoc_key (hr.noNul.metadata r (List.mem_filter.1 hmem).1)
  rw [hmap]
  exact (List.filter_sublist.map _).nodup hr.keys

theorem newMetadata_keys (h : OrdinaryAttr a) (hr : OrdinaryRequest ca) : ((newMetadata a ca).map MdDoc.key).Nodup := by
  rw [newMetadata, List.map_append, List.nodup_append]
  have hkept : ((keptMetadata (a.md.getD []) ca).map MdDoc.key).Nodup := by
    rw [keptMetadata_of_noNul h.noNul.md]
    exact (List.filter_sublist.map _).nodup h.keys
  refine ⟨requestMetadata_keys hr, hkept, ?_⟩
  intro k hk k' hk' e
  obtain ⟨n, hn, rfl⟩ := List.mem_map.1 hk
  obtain ⟨m, hm, rfl⟩ := List.mem_map.1 hk'
  obtain ⟨r, hmem, -, rfl⟩ := mem_requestMetadata.1 hn
  rw [Metadata.toDoc_key (hr.noNul.metadata r hmem)] at e
  exact ((mem_keptMetadata h.noNul.md).1 hm).2 (e ▸ List.mem_map_of_mem hmem)

theorem requestMetadata_typed : ∀ md ∈ requestMetadata ca, md.type ≠ some "" := by
  intro md hmd
  obtain ⟨r, -, -, rfl⟩ := mem_requestMetadata.1 hmd
  exact r.toDoc_type

/-! ### The elements that are written -/

theorem OrdinaryAttr.updated (h : OrdinaryAttr a) (hr : OrdinaryRequest ca) (hv : ca.value ≠ "") :
    OrdinaryAttr (updatedAttr now a ca) := by
  have hkept : ∀ {md}, md ∈ keptMetadata (a.md.getD []) ca ↔ md ∈ a.mdV ∧ md.key ∉ ca.metadataVector.map Metadata.key :=
    mem_keptMetadata h.noNul.md
  refine ⟨⟨?_, ?_, ?_, ?_⟩, ?_, ⟨ca.value, ?_, hv, hr.noNul.value⟩, ?_, ?_, ?_⟩
  · rintro s ⟨⟩
    exact noNul_cString _
  · exact noNul_copyId a
  · intro s hs
    by_cases ht : ca.type ≠ ""
    · rw [show (updatedAttr now a ca).type = some ca.type by simp only [updatedAttr, if_pos ht]] at hs
      cases hs
      exact hr.noNul.type
    · rw [show (updatedAttr now a ca).type = a.type.map cString by simp only [updatedAttr, if_neg ht]] at hs
      obtain ⟨t, -, rfl⟩ := Option.map_eq_some_iff.1 hs
      exact noNul_cString _
  · have hmd : (updatedAttr now a ca).md.getD [] = newMetadata a ca := updatedAttr_mdV now a ca
    rw [hmd]
    exact noNul_newMetadata fun md hmem _ => hr.noNul.metadata md hmem
  · exact fun e => h.name ((cString_strField a.name).symm.trans e)
  · show valueBson ca = _
    rw [valueBson, hr.string]
  · rw [updatedAttr_mdV]
    intro md hmd
    rcases List.mem_append.1 hmd with hmd | hmd
    · exact requestMetadata_custom ca md hmd
    · exact h.custom md (hkept.1 hmd).1
  · rw [updatedAttr_mdV]
    exact newMetadata_keys h hr
  · rw [updatedAttr_mdV]
    intro md hmd
    rcases List.mem_append.1 hmd with hmd | hmd
    · exact requestMetadata_typed md hmd
    · exact h.typed md (hkept.1 hmd).1

theorem updatedAttr_content (h : OrdinaryAttr a) (hr : OrdinaryRequest ca) :
    (updatedAttr now a ca).content = a.content.revised ca := by
  refine Content.ext ?_ ?_ (funext fun k => ?_)
  · show strField (updatedAttr now a ca).type = if ca.type = "" then strField a.type else ca.type
    by_cases ht : ca.type = ""
    · simp [updatedAttr, ht]
    · simp [updatedAttr, ht, hr.noNul.type.cString]
  · show strValue (valueBson ca) = ca.value
    rw [valueBson, hr.string]
    exact hr.noNul.value.cString
  · show (KeyMap.lookup MdDoc.key (updatedAttr now a ca).mdV k).map MdDoc.value = _
    rw [updatedAttr_mdV]
    exact lookup_newMetadata h hr k

/-- An update that is no actual one revises nothing. -/
theorem revised_of_not_actual (h : OrdinaryAttr a) (hr : OrdinaryRequest ca) (hk : a.key = ca.key)
    (hno : isActualUpdate a ca = false) : a.content.revised ca = a.content := by
  have hvis : ¬ VisibleChange a ca := by
    rw [← isActualUpdate_iff_visible (h.compared hr) h.simple ⟨(attrMatch_iff a ca).2 hk, hr.string, hr.keys⟩, hno]
    decide
  unfold VisibleChange at hvis
  simp only [not_or] at hvis
  obtain ⟨hvalue, htype, hnew, hre⟩ := hvis
  refine Content.ext ?_ ?_ (funext fun k => ?_)
  · show (if ca.type = "" then strField a.type else ca.type) = strField a.type
    by_cases ht : ca.type = ""
    · rw [if_pos ht]
    · have he : a.type = some ca.type := not_not.1 fun hne => htype ⟨ht, hne⟩
      rw [if_neg ht, he, strField_some, hr.noNul.type.cString]
  · show ca.value = strValue a.value
    rw [not_not.1 hvalue]
    exact hr.noNul.value.cString.symm
  · show (ca.given k).or (a.content.metadata k) = a.content.metadata k
    cases hg : ca.given k with
    | none => rfl
    | some v =>
      obtain ⟨r, hl, rfl⟩ := Option.map_eq_some_iff.1 hg
      obtain ⟨hmem, rfl⟩ := KeyMap.mem_of_lookup hl
      rw [List.mem_filter] at hmem
      -- it is stored with the same value
      have hin : r.key ∈ a.mdV.map MdDoc.key := not_not.1 fun hout => hnew ⟨r, hmem.1, by simpa using hmem.2, hout⟩
      obtain ⟨md, hmd, hkey⟩ := List.mem_map.1 hin
      have hsame : r.value = md.value :=
        not_not.1 fun hne => hre ⟨md, hmd, h.typed md hmd, r, hmem.1, hkey.symm, hne⟩
      show some r.value = (KeyMap.lookup MdDoc.key a.mdV r.key).map MdDoc.value
      rw [← hkey, KeyMap.lookup_of_mem h.keys hmd, hsame]
      rfl

theorem copiedAttr_mdV (h : OrdinaryAttr a) : (copiedAttr a).mdV = a.mdV :=
  (getD_bsonCustomMetadataToBson a).trans (map_read_of_noNul h.noNul.md)

theorem keptAttr_mdV (h : OrdinaryAttr a) : (keptAttr a).mdV = a.mdV :=
  (getD_bsonCustomMetadataToBson a).trans (map_read_of_noNul h.noNul.md)

/-- An element with the metadata of an ordinary one, and what a copy reads of the rest. -/
theorem OrdinaryAttr.of_copy {b : AttrDoc} (h : OrdinaryAttr a) (hname : b.name = some (strField a.name))
    (hid : b.id = copyId a) (htype : ∀ s ∈ b.type, NoNul s) (hvalue : b.value = a.value) (hmd : b.mdV = a.mdV) :
    OrdinaryAttr b := by
  refine ⟨⟨?_, by rw [hid]; exact noNul_copyId a, htype, fun m hm => ?_⟩, ?_, hvalue ▸ h.value,
    hmd ▸ h.custom, hmd ▸ h.keys, hmd ▸ h.typed⟩
  · rw [hname]
    rintro s ⟨⟩
    exact noNul_cString _
  · have hm : m ∈ b.mdV := hm
    rw [hmd] at hm
    exact h.noNul.md m hm
  · rw [hname, strField_some, cString_strField]
    exact h.name

theorem OrdinaryAttr.copied (h : OrdinaryAttr a) : OrdinaryAttr (copiedAttr a) := by
  obtain ⟨v, hv, -⟩ := h.value
  refine h.of_copy rfl rfl (fun s hs => ?_) ?_ (copiedAttr_mdV h)
  · obtain ⟨t, -, rfl⟩ := Option.map_eq_some_iff.1 hs
    exact noNul_cString _
  · show copyValue a.value = _
    rw [hv]
    rfl

theorem OrdinaryAttr.kept (h : OrdinaryAttr a) : OrdinaryAttr (keptAttr a) := by
  obtain ⟨v, hv, -, hn⟩ := h.value
  refine h.of_copy rfl rfl (fun s hs => ?_) ?_ (keptAttr_mdV h)
  · cases hs
    exact noNul_cString _
  · show some (Bson.str (strValue a.value)) = _
    rw [hv]
    exact congrArg (fun s => some (Bson.str s)) hn.cString

theorem copiedAttr_content (h : OrdinaryAttr a) : (copiedAttr a).content = a.content := by
  obtain ⟨v, hv, -⟩ := h.value
  refine Content.ext (strField_map_cString a.type) ?_ (funext fun k => ?_)
  · show strValue (copyValue a.value) = strValue a.value
    rw [hv]
    rfl
  · show (KeyMap.lookup MdDoc.key (copiedAttr a).mdV k).map MdDoc.value = _
    rw [copiedAttr_mdV h]
    rfl

theorem keptAttr_content (h : OrdinaryAttr a) : (keptAttr a).content = a.content := by
  obtain ⟨v, hv, -, hn⟩ := h.value
  refine Content.ext (cString_strField a.type) ?_ (funext fun k => ?_)
  · show cString (strValue a.value) = strValue a.value
    rw [hv]
    exact cString_cString v
  · show (KeyMap.lookup MdDoc.key (keptAttr a).mdV k).map MdDoc.value = _
    rw [keptAttr_mdV h]
    rfl

theorem OrdinaryAttr.appended (hr : OrdinaryRequest ca) (hv : ca.value ≠ "") : OrdinaryAttr (appendedAttr now ca) := by
  have hmd := appendedAttr_mdV now ca
  have hkey := @appendedAttr_key now ca hr.noNul.key
  refine ⟨⟨?_, ?_, ?_, noNul_appended hr.noNul.kept⟩, ?_, ⟨ca.value, ?_, hv, hr.noNul.value⟩, ?_, ?_, ?_⟩
  · rintro s ⟨⟩
    exact hr.noNul.name
  · intro s hs
    have hid : (appendedAttr now ca).id = if ca.getId ≠ "" then some ca.getId else none := rfl
    rw [hid] at hs
    split at hs
    · cases hs
      exact hr.noNul.key.id
    · cases hs
  · rintro s ⟨⟩
    exact hr.noNul.type
  · exact fun e => hr.name ((congrArg Prod.fst hkey).symm.trans e)
  · show valueBson ca = _
    rw [valueBson, hr.string]
  · rw [hmd]
    intro md hmem
    obtain ⟨r, hr', rfl⟩ := List.mem_map.1 hmem
    simpa using (List.mem_filter.1 hr').2
  · have hkeys : (appendedAttr now ca).mdV.map MdDoc.key =
        (ca.metadataVector.filter fun md => !isNotCustomMetadata md.name).map Metadata.key := by
      rw [hmd, List.map_map]
      exact List.map_congr_left fun md hmem =>
        Prod.ext rfl (hr.noNul.metadata md (List.mem_filter.1 hmem).1).type.cString
    rw [hkeys]
    exact (List.filter_sublist.map _).nodup hr.keys
  · rw [hmd]
    intro md hmem
    obtain ⟨r, hr', rfl⟩ := List.mem_map.1 hmem
    obtain ⟨hr', hc⟩ := List.mem_filter.1 hr'
    exact fun e => hr.typed r hr' (by simpa using hc) (Option.some.inj e)

theorem appendedAttr_content (hr : OrdinaryRequest ca) : (appendedAttr now ca).content = ca.content := by
  refine Content.ext hr.noNul.type.cString ?_ (funext fun k => ?_)
  · show strValue (valueBson ca) = ca.value
    rw [valueBson, hr.string]
    exact hr.noNul.value.cString
  · show (KeyMap.lookup MdDoc.key (appendedAttr now ca).mdV k).map MdDoc.value = ca.given k
    have hmap := @KeyMap.lookup_map _ _ _ _ Metadata.key MdDoc.key
      (ca.metadataVector.filter fun md => !isNotCustomMetadata md.name) k
      (fun md => ⟨md.name, some md.type, md.value⟩) fun md hmem => by
        rw [MdDoc.key, strField_some, (hr.noNul.metadata md (List.mem_filter.1 hmem).1).type.cString]
        rfl
    rw [appendedAttr_mdV, hmap, Option.map_map]
    rfl

/-! ### The whole array -/

/-- The element that a request addresses is revised. -/
theorem Holds.revised (h : Holds attrs c) (hr : OrdinaryRequest ca) (hv : ca.value ≠ "") :
    Holds (attrs.map fun a => (checkAndUpdate now a ca).1)
      (Function.update c ca.key ((c ca.key).map fun x => x.revised ca)) := by
  refine ⟨?_, ?_, fun k => ?_⟩
  · rw [← updateAttribute_attrs, updateAttribute_keys]
    exact h.keys
  · intro a' ha'
    obtain ⟨a, ha, rfl⟩ := List.mem_map.1 ha'
    by_cases hk : a.key = ca.key
    · rw [checkAndUpdate_of_eq hk]
      exact (h.ordinary a ha).updated hr hv
    · rw [checkAndUpdate_of_ne hk]
      exact (h.ordinary a ha).copied
  · rw [KeyMap.lookup_map fun a _ => checkAndUpdate_key a, Option.map_map]
    have hc := h.entries k
    cases hl : KeyMap.lookup AttrDoc.key attrs k with
    | none =>
      rw [hl, Option.map_none] at hc
      rw [Option.map_none]
      by_cases hk : k = ca.key
      · subst hk
        rw [Function.update_self, ← hc, Option.map_none]
      · rw [Function.update_of_ne hk]
        exact hc
    | some a =>
      rw [hl] at hc
      obtain ⟨ha, hak⟩ := KeyMap.mem_of_lookup hl
      by_cases hk : k = ca.key
      · subst hk
        rw [Function.update_self, ← hc]
        simp only [Option.map_some, Function.comp_apply, checkAndUpdate_of_eq hak,
          updatedAttr_content (h.ordinary a ha) hr]
      · have hne : a.key ≠ ca.key := fun e => hk (hak.symm.trans e)
        rw [Function.update_of_ne hk, ← hc]
        simp only [Option.map_some, Function.comp_apply, checkAndUpdate_of_ne hne,
          copiedAttr_content (h.ordinary a ha)]

/-- When no update is an actual one, the map stays. -/
theorem Holds.unrevised (h : Holds attrs c) (hr : OrdinaryRequest ca)
    (hno : (updateAttribute now attrs ca).2.2 = false) : ((c ca.key).map fun x => x.revised ca) = c ca.key := by
  have hc := h.entries ca.key
  cases hl : KeyMap.lookup AttrDoc.key attrs ca.key with
  | none =>
    rw [hl] at hc
    rw [← hc]
    rfl
  | some a =>
    rw [hl] at hc
    obtain ⟨ha, hak⟩ := KeyMap.mem_of_lookup hl
    have hact : isActualUpdate a ca = false := by
      have hall : ∀ b ∈ attrs, (checkAndUpdate now b ca).2.2 = false := by
        simpa [updateAttribute] using hno
      have := hall a ha
      rwa [checkAndUpdate_of_eq hak] at this
    rw [← hc, Option.map_some, Option.map_some, revised_of_not_actual (h.ordinary a ha) hr hak hact]

theorem Holds.update_unrevised (h : Holds attrs c) (hr : OrdinaryRequest ca)
    (hno : (updateAttribute now attrs ca).2.2 = false) {x : Content} (hc : c ca.key = some x) :
    Function.update c ca.key (some (x.revised ca)) = c := by
  have hsame := h.unrevised hr hno
  rw [hc, Option.map_some, ← hc] at hsame
  rw [hsame, Function.update_eq_self]

theorem Holds.appended (h : Holds attrs c) (hr : OrdinaryRequest ca) (hv : ca.value ≠ "")
    (hnew : ca.key ∉ attrs.map AttrDoc.key) :
    Holds (attrs.map copiedAttr ++ [appendedAttr now ca]) (Function.update c ca.key (some ca.content)) := by
  have hkeys : (attrs.map copiedAttr).map AttrDoc.key = attrs.map AttrDoc.key := by
    rw [List.map_map]
    exact List.map_congr_left fun a _ => copiedAttr_key a
  refine ⟨?_, ?_, fun k => ?_⟩
  · rw [List.map_append, hkeys, List.nodup_append]
    refine ⟨h.keys, by simp, fun k hk k' hk' e => ?_⟩
    rw [List.map_singleton, List.mem_singleton, appendedAttr_key hr.noNul.key] at hk'
    rw [e, hk'] at hk
    exact hnew hk
  · intro a ha
    rcases List.mem_append.1 ha with ha | ha
    · obtain ⟨b, hb, rfl⟩ := List.mem_map.1 ha
      exact (h.ordinary b hb).copied
    · rw [List.mem_singleton.1 ha]
      exact .appended hr hv
  · have hold : (KeyMap.lookup AttrDoc.key (attrs.map copiedAttr) k).map AttrDoc.content = c k := by
      rw [KeyMap.lookup_map fun a _ => copiedAttr_key a, Option.map_map, ← h.entries k]
      cases hl : KeyMap.lookup AttrDoc.key attrs k with
      | none => rfl
      | some a => exact congrArg some (copiedAttr_content (h.ordinary a (KeyMap.mem_of_lookup hl).1))
    rw [KeyMap.lookup_append, Option.map_or, hold, KeyMap.lookup_cons, appendedAttr_key hr.noNul.key, KeyMap.lookup_nil]
    by_cases hk : k = ca.key
    · subst hk
      have hnone : c ca.key = none := by
        rw [← Option.not_isSome_iff_eq_none, ← h.mem_iff]
        exact hnew
      rw [Function.update_self, hnone, if_pos rfl, Option.map_some, appendedAttr_content hr]
      rfl
    · rw [Function.update_of_ne hk, if_neg fun e => hk e.symm]
      simp

theorem Holds.deleted (h : Holds attrs c) :
    Holds ((attrs.filter fun a => a.key ≠ ca.key).map keptAttr) (Function.update c ca.key none) := by
  have hkeys : ((attrs.filter fun a => a.key ≠ ca.key).map keptAttr).map AttrDoc.key =
      (attrs.filter fun a => a.key ≠ ca.key).map AttrDoc.key := by
    rw [List.map_map]
    exact List.map_congr_left fun a _ => keptAttr_key a
  refine ⟨?_, ?_, fun k => ?_⟩
  · rw [hkeys]
    exact (List.filter_sublist.map _).nodup h.keys
  · intro a ha
    obtain ⟨b, hb, rfl⟩ := List.mem_map.1 ha
    exact (h.ordinary b (List.mem_filter.1 hb).1).kept
  · have hlookup : KeyMap.lookup AttrDoc.key (attrs.filter fun a => a.key ≠ ca.key) k =
        if decide (k ≠ ca.key) = true then KeyMap.lookup AttrDoc.key attrs k else none :=
      KeyMap.lookup_filter (fun k => decide (k ≠ ca.key)) attrs
    have hcontent : ∀ o : Option AttrDoc, (∀ a ∈ o, a ∈ attrs) →
        o.map (AttrDoc.content ∘ keptAttr) = o.map AttrDoc.content := by
      intro o ho
      cases o with
      | none => rw [Option.map_none, Option.map_none]
      | some a => exact congrArg some (keptAttr_content (h.ordinary a (ho a rfl)))
    rw [KeyMap.lookup_map fun a _ => keptAttr_key a, Option.map_map, hlookup, hcontent]
    rotate_left
    · intro a ha
      split at ha
      · exact (KeyMap.mem_of_lookup ha).1
      · cases ha
    by_cases hk : k = ca.key
    · subst hk
      rw [Function.update_self, if_neg (by simp)]
      rfl
    · rw [Function.update_of_ne hk, if_pos (by simpa using hk), h.entries]

/-! ## One attribute -/

theorem Holds.legal_iff (h : Holds attrs c) : legalIdUsage attrs ca = true ↔ c.Legal ca := by
  rw [legalIdUsage_iff]
  constructor
  · intro hl id hc
    exact hl (ca.name, id) ((h.mem_iff _).2 hc) rfl
  · intro hl k hk hn
    obtain ⟨name, id⟩ := k
    have hn : name = ca.name := hn
    rw [hn] at hk
    exact hl id ((h.mem_iff _).1 hk)

theorem locAfter_ordinary {atof : List Char → Rat} {action : UpdateAction} {loc : Loc} (ha : action ≠ .unknown)
    (hr : OrdinaryRequest ca) (hl : loc.locAttr = "") : locAfter atof action ca loc = some loc := by
  have hg := hr.getLocation
  have hne : ¬ loc.locAttr = ca.name := fun e => hr.name (e.symm.trans hl)
  cases action with
  | update => simp [locAfter, hg, hne]
  | append => simp [locAfter, hg]
  | delete => simp [locAfter, hg, hne]
  | unknown => exact absurd rfl ha

/-- The working copies stand for the map, and the flag tells when it is not the one at the start. -/
structure Carries (c0 : Contents) (s : Work × List String) (c : Contents) : Prop where
  holds : Holds s.1.attrs c
  unlocated : s.1.loc.locAttr = ""
  unmodified : s.1.entityModified = false → c = c0

theorem Holds.present (h : Holds attrs c) : decide (ca.key ∈ attrs.map AttrDoc.key) = (c ca.key).isSome := by
  rw [Bool.eq_iff_iff, decide_eq_true_iff, h.mem_iff]

section
variable {env : Env} {action : UpdateAction} {c0 c' : Contents} {s : Work × List String}

/-- An attribute that is taken: what is left are the new array and the flag. -/
theorem runStep_carries (hr : OrdinaryRequest ca) (h : Carries c0 s c) (ha : action ≠ .unknown)
    (ht : takes action s.1.attrs ca = true) (hh : Holds (attrsAfter now action s.1.attrs ca) c')
    (hm : modifies now action s.1.attrs ca = false → c' = c) :
    Option.Rel (Carries c0) (runStep env now action ca s) (some c') := by
  unfold runStep
  rw [if_pos ht, locAfter_ordinary ha hr h.unlocated]
  refine .some ⟨hh, h.unlocated, fun hn => ?_⟩
  have hn := Bool.or_eq_false_iff.1 hn
  rw [hm hn.1, h.unmodified hn.2]

theorem runStep_refused (ht : takes action s.1.attrs ca = false) :
    Option.Rel (Carries c0) (runStep env now action ca s) none := by
  unfold runStep
  rw [if_neg (by simp [ht])]
  exact .none

theorem update_contents (hr : OrdinaryRequest ca) (hv : ca.value ≠ "") (h : Carries c0 s c) :
    Option.Rel (Carries c0) (runStep env now .update ca s) (Contents.step .update ca c) := by
  unfold Contents.step
  cases hc : c ca.key with
  | none => exact runStep_refused (by rw [takes, h.holds.present, hc]; rfl)
  | some x =>
    have hrev := @Holds.revised now ca s.1.attrs c h.holds hr hv
    rw [hc, Option.map_some, ← updateAttribute_attrs] at hrev
    have ht : takes .update s.1.attrs ca = true := by rw [takes, h.holds.present, hc]; rfl
    exact runStep_carries hr h (by decide) ht hrev fun hm => h.holds.update_unrevised hr hm hc

theorem append_contents (hr : OrdinaryRequest ca) (hv : ca.value ≠ "") (h : Carries c0 s c) :
    Option.Rel (Carries c0) (runStep env now .append ca s) (Contents.step .append ca c) := by
  have hin := h.holds.mem_iff ca.key
  have hupd := @updateAttribute_updated now s.1.attrs ca
  unfold Contents.step
  by_cases hl : c.Legal ca
  · have ht : takes .append s.1.attrs ca = true := h.holds.legal_iff.2 hl
    rw [if_pos hl]
    cases hc : c ca.key with
    | none =>
      have hnew : ca.key ∉ s.1.attrs.map AttrDoc.key := by
        rw [hin, hc]
        decide
      refine runStep_carries hr h (by decide) ht ?_ fun hm => ?_
      · show Holds (appendAttribute now s.1.attrs ca).1 _
        rw [appendAttribute_absent fun b hb e => hnew (e ▸ List.mem_map_of_mem hb)]
        exact h.holds.appended hr hv hnew
      · -- a new element is a modification
        have hm : (appendAttribute now s.1.attrs ca).2 = false := hm
        have hfalse : (updateAttribute now s.1.attrs ca).2.1 = false := Bool.not_eq_true _ ▸ fun e => hnew (hupd.1 e)
        simp [appendAttribute, hfalse] at hm
    | some x =>
      have hold : ca.key ∈ s.1.attrs.map AttrDoc.key := hin.2 (by rw [hc]; rfl)
      have hrev := @Holds.revised now ca s.1.attrs c h.holds hr hv
      rw [hc, Option.map_some] at hrev
      refine runStep_carries hr h (by decide) ht ?_ fun hm => @Holds.update_unrevised now _ _ _ h.holds hr ?_ _ hc
      · rw [attrsAfter_present (.inr rfl) hold]
        exact hrev
      · have hm : (appendAttribute now s.1.attrs ca).2 = false := hm
        unfold appendAttribute at hm
        simpa [hupd.2 hold] using hm
  · rw [if_neg hl]
    exact runStep_refused (Bool.not_eq_true _ ▸ fun ht => hl (h.holds.legal_iff.1 ht))

theorem delete_contents (hr : OrdinaryRequest ca) (h : Carries c0 s c) :
    Option.Rel (Carries c0) (runStep env now .delete ca s) (Contents.step .delete ca c) := by
  unfold Contents.step
  cases hc : c ca.key with
  | none => exact runStep_refused (by rw [takes, h.holds.present, hc]; rfl)
  | some x =>
    have ht : takes .delete s.1.attrs ca = true := by rw [takes, h.holds.present, hc]; rfl
    refine runStep_carries hr h (by decide) ht ?_ fun hm => by simp [modifies] at hm
    show Holds (deleteLoop ca s.1.attrs false).1 _
    rw [deleteLoop_of_nodup h.holds.keys]
    exact h.holds.deleted

/-- **One attribute of a request does on the array what it means on the map.** -/
theorem runStep_contents (hr : OrdinaryRequest ca) (hv : UpdateOrAppend action → ca.value ≠ "") (h : Carries c0 s c) :
    Option.Rel (Carries c0) (runStep env now action ca s) (Contents.step action ca c) := by
  cases action with
  | update => exact update_contents hr (hv (.inl rfl)) h
  | append => exact append_contents hr (hv (.inr rfl)) h
  | delete => exact delete_contents hr h
  | unknown => exact runStep_refused rfl

/-- **The loop over the attributes of an element** does on the array what the attributes mean on the map. -/
theorem run_contents {caV : List ContextAttribute} (hr : ∀ ca ∈ caV, OrdinaryRequest ca)
    (hv : UpdateOrAppend action → ∀ ca ∈ caV, ca.value ≠ "") (h : Carries c0 s c) :
    Option.Rel (Carries c0) (Replay.run (runStep env now action) caV s) (Replay.run (Contents.step action) caV c) :=
  @Replay.run_simulates _ _ _ (Carries c0) (runStep env now action) (Contents.step action) caV
    (fun ca hca _ _ h => runStep_contents (hr ca hca) (fun ha => hv ha ca hca) h) s c h

end

/-! ## Creation and queries -/

theorem holds_created {caV : List ContextAttribute} (hr : ∀ ca ∈ caV, OrdinaryRequest ca)
    (hv : ∀ ca ∈ caV, ca.value ≠ "") (hk : (caV.map ContextAttribute.key).Nodup) :
    Holds (caV.map (createdAttr now)) (Contents.of caV) := by
  have hkeys : (caV.map (createdAttr now)).map AttrDoc.key = caV.map ContextAttribute.key := by
    rw [List.map_map]
    exact List.map_congr_left fun ca hca => createdAttr_key now (hr ca hca).noNul.key
  refine ⟨by rw [hkeys]; exact hk, ?_, fun k => ?_⟩
  · intro a ha
    obtain ⟨ca, hca, rfl⟩ := List.mem_map.1 ha
    rw [createdAttr_eq_appended]
    exact .appended (hr ca hca) (hv ca hca)
  · rw [KeyMap.lookup_map fun ca hca => createdAttr_key now (hr ca hca).noNul.key, Option.map_map]
    unfold Contents.of
    cases hl : KeyMap.lookup ContextAttribute.key caV k with
    | none => rfl
    | some ca =>
      have hca := hr ca (KeyMap.mem_of_lookup hl).1
      simp only [Option.map_some, Function.comp_apply, createdAttr_eq_appended, appendedAttr_content hca]

/-- What a query shows of an element, read as an attribute of a request, has its content. -/
theorem shownAs_content (locAttr : String) (h : OrdinaryAttr a) : (shownAs locAttr a).content = a.content := by
  obtain ⟨v, hv, -, hn⟩ := h.value
  refine Content.ext rfl ?_ (funext fun k => ?_)
  · show ((decodedValue true a.value).getD ("", none)).1 = strValue a.value
    rw [hv]
    rfl
  · rw [ContextAttribute.content_metadata, AttrDoc.content_metadata, ContextAttribute.given, shownAs_custom h.whole,
      @KeyMap.lookup_map _ _ _ _ MdDoc.key Metadata.key (a.md.getD []) k MdDoc.shown
        fun md hmd => Prod.ext (h.noNul.md md hmd).name.cString rfl, Option.map_map]
    cases hl : KeyMap.lookup MdDoc.key (a.md.getD []) k with
    | none => rw [show KeyMap.lookup MdDoc.key a.mdV k = none from hl]; rfl
    | some m =>
      rw [show KeyMap.lookup MdDoc.key a.mdV k = some m from hl]
      exact congrArg some (h.noNul.md m (KeyMap.mem_of_lookup hl).1).value.cString

theorem Holds.shown (h : Holds attrs c) (locAttr : String) : Contents.of (attrs.map (shownAs locAttr)) = c := by
  funext k
  unfold Contents.of
  rw [KeyMap.lookup_map fun a ha => shownAs_key (h.ordinary a ha).whole, Option.map_map, ← h.entries]
  cases hl : KeyMap.lookup AttrDoc.key attrs k with
  | none => rfl
  | some a => exact congrArg some (shownAs_content locAttr (h.ordinary a (KeyMap.mem_of_lookup hl).1))

/-- Without a marked attribute a creation sets no location. -/
theorem processLocation_ordinary (atof : List Char → Rat) {caV : List ContextAttribute}
    (hr : ∀ ca ∈ caV, OrdinaryRequest ca) : processLocation atof caV = .ok {} := by
  have hmds : ∀ (ca : ContextAttribute) (mds : List Metadata) (st : Loc), (∀ md ∈ mds, md.name ≠ NGSI_MD_LOCATION) →
      mds.foldlM (processLocationMd atof ca) st = .ok st := by
    intro ca mds
    induction mds with
    | nil => exact fun _ _ => rfl
    | cons md mds ih =>
      intro st h
      rw [List.forall_mem_cons] at h
      have hone : processLocationMd atof ca st md = .ok st := by simp [processLocationMd, h.1]
      rw [List.foldlM_cons, hone]
      exact ih st h.2
  unfold processLocation
  generalize ({} : Loc) = st
  induction caV with
  | nil => rfl
  | cons ca caV ih =>
    rw [List.forall_mem_cons] at hr
    have hone : processLocationAttr atof ca st = .ok st := hmds ca ca.metadataVector st hr.1.unmarked
    rw [List.foldlM_cons, hone]
    exact ih hr.2

end

end OrionBroker
