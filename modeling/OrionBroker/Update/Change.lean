import Mathlib.Data.List.Nodup
import Mathlib.Data.List.Perm.Subperm
import Mathlib.Tactic.Tauto
import OrionBroker.Update.Attributes

/-!
# What counts as a change of an attribute (MongoCommonUpdate.cpp:203-411)

`checkAndUpdate` compares the stored element with the request: the value, the type, the number of metadata and, for
each stored metadata item, the value of the new one that `matchMetadata` finds for it. An item without counterpart
counts as equal.

`contextAttributeCustomMetadataToBson` stores the type of every item, also an empty one, and `checkAndUpdate` leaves
an empty type out. `matchMetadata` tells the two apart, so an item that was appended with an empty type has no
counterpart in the update that gives it a new value. `checkAndUpdate_exact_iff` says that this is the only change
that can be missed when nothing that is compared has a NUL.
-/

namespace OrionBroker

open Mongo

/-- Name and type; a missing type is an empty one. -/
def MdDoc.key (md : MdDoc) : String × String := (md.name, strField md.type)

def MdDoc.item (md : MdDoc) : (String × String) × String := (md.key, md.value)

def Metadata.key (md : Metadata) : String × String := (md.name, md.type)

def AttrDoc.mdV (attr : AttrDoc) : List MdDoc := attr.md.getD []

/-- The value, the type and the set of metadata are the same. -/
def Unchanged (old new : AttrDoc) : Prop :=
  new.value = old.value ∧ new.type = old.type ∧ ∀ item, item ∈ new.mdV.map MdDoc.item ↔ item ∈ old.mdV.map MdDoc.item

/-- An element with a simple value. -/
structure SimpleAttr (attr : AttrDoc) : Prop where
  value : ∃ v, attr.value = some (.str v)
  custom : ∀ md ∈ attr.mdV, isNotCustomMetadata md.name = false
  keys : (attr.mdV.map MdDoc.key).Nodup

/-- A request attribute with a simple value that addresses the element. -/
structure SimpleRequest (attr : AttrDoc) (ca : ContextAttribute) : Prop where
  addressed : attrMatch attr ca = true
  simple : ca.compoundValueP = none
  keys : (ca.metadataVector.map Metadata.key).Nodup

/-- The strings that are compared are read whole: those of the element and the metadata of the request. -/
structure ComparedWhole (attr : AttrDoc) (ca : ContextAttribute) : Prop where
  stored : attr.NoNul
  value : ∀ s, attr.value = some (.str s) → NoNul s
  request : ∀ md ∈ ca.metadataVector, md.NoNul

/-- The request gives a stored item another value. -/
def Rewritten (ca : ContextAttribute) (md : MdDoc) : Prop :=
  ∃ r ∈ ca.metadataVector, r.key = md.key ∧ r.value ≠ md.value

instance (ca : ContextAttribute) (md : MdDoc) : Decidable (Rewritten ca md) :=
  inferInstanceAs (Decidable (∃ r ∈ ca.metadataVector, _))

/-- Custom metadata of the request that is not stored. -/
def NewItem (attr : AttrDoc) (ca : ContextAttribute) : Prop :=
  ∃ r ∈ ca.metadataVector, isNotCustomMetadata r.name = false ∧ r.key ∉ attr.mdV.map MdDoc.key

instance (attr : AttrDoc) (ca : ContextAttribute) : Decidable (NewItem attr ca) :=
  inferInstanceAs (Decidable (∃ r ∈ ca.metadataVector, _))

/-- The request changes something else than a metadata item whose stored type is present and empty. -/
def VisibleChange (attr : AttrDoc) (ca : ContextAttribute) : Prop :=
  attr.value ≠ some (.str ca.value) ∨ (ca.type ≠ "" ∧ attr.type ≠ some ca.type) ∨ NewItem attr ca ∨
    ∃ md ∈ attr.mdV, md.type ≠ some "" ∧ Rewritten ca md

/-- The request gives another value to an item whose stored type is present and empty. -/
def HiddenChange (attr : AttrDoc) (ca : ContextAttribute) : Prop := ∃ md ∈ attr.mdV, md.type = some "" ∧ Rewritten ca md

/-! ## The new metadata -/

/-- What `requestMetadata` makes of an item. -/
def Metadata.toDoc (md : Metadata) : MdDoc := ⟨md.name, if md.type = "" then none else some md.type, md.value⟩

theorem Metadata.NoNul.toDoc {md : Metadata} (h : md.NoNul) : md.toDoc.NoNul where
  name := h.name
  type t ht := by
    have htype : md.toDoc.type = if md.type = "" then none else some md.type := rfl
    rw [htype] at ht
    split at ht
    · cases ht
    · cases ht
      exact h.type
  value := h.value

theorem Metadata.toDoc_key {md : Metadata} (hn : md.NoNul) : md.toDoc.key = md.key := by
  unfold Metadata.toDoc MdDoc.key Metadata.key
  split
  · rename_i h
    simp [h]
  · rw [strField_some, hn.type.cString]

theorem Metadata.toDoc_type (md : Metadata) : md.toDoc.type ≠ some "" := by
  unfold Metadata.toDoc
  split
  · simp
  · rename_i h
    simpa using h

theorem mem_requestMetadata {ca : ContextAttribute} {n : MdDoc} :
    n ∈ requestMetadata ca ↔ ∃ r ∈ ca.metadataVector, isNotCustomMetadata r.name = false ∧ r.toDoc = n := by
  simp [requestMetadata, Metadata.toDoc, and_assoc]

/-- The request mentions the item. -/
theorem mentioned_iff {ca : ContextAttribute} {md : MdDoc} :
    hasMetadata md.name (strField md.type) ca = true ↔ md.key ∈ ca.metadataVector.map Metadata.key := by
  simp [hasMetadata, MdDoc.key, Metadata.key]

theorem keptMetadata_of_noNul {mdV : List MdDoc} (hn : ∀ md ∈ mdV, md.NoNul) (ca : ContextAttribute) :
    keptMetadata mdV ca = mdV.filter fun md => !hasMetadata md.name (strField md.type) ca := by
  rw [keptMetadata, map_read_of_noNul hn]

theorem mem_keptMetadata {mdV : List MdDoc} (hn : ∀ md ∈ mdV, md.NoNul) {ca : ContextAttribute} {n : MdDoc} :
    n ∈ keptMetadata mdV ca ↔ n ∈ mdV ∧ n.key ∉ ca.metadataVector.map Metadata.key := by
  rw [keptMetadata_of_noNul hn, List.mem_filter, ← mentioned_iff]
  simp

theorem updatedAttr_mdV (now : Int) (attr : AttrDoc) (ca : ContextAttribute) :
    (updatedAttr now attr ca).mdV = newMetadata attr ca := by
  unfold AttrDoc.mdV updatedAttr mdField
  dsimp only
  split
  · rfl
  · rename_i h
    simp only [gt_iff_lt, List.length_pos_iff, not_not] at h
    rw [h]
    rfl

theorem match_iff_of_noNul {md1 md2 : MdDoc} (h1 : md1.NoNul) (h2 : md2.NoNul) :
    matchMetadata md1 md2 = true ↔ md2.type = md1.type ∧ md1.name = md2.name := by
  rw [matchMetadata_iff, h1.read, h2.read]

theorem key_eq_of_match {md1 md2 : MdDoc} (h1 : md1.NoNul) (h2 : md2.NoNul) (h : matchMetadata md1 md2 = true) :
    md2.key = md1.key := by
  obtain ⟨htype, hname⟩ := (match_iff_of_noNul h1 h2).1 h
  rw [MdDoc.key, MdDoc.key, htype, hname]

theorem noNul_newMetadata {attr : AttrDoc} {ca : ContextAttribute}
    (hr : ∀ md ∈ ca.metadataVector, isNotCustomMetadata md.name = false → md.NoNul) :
    ∀ n ∈ newMetadata attr ca, n.NoNul := by
  intro n hn
  rcases List.mem_append.1 hn with hn | hn
  · obtain ⟨r, hmem, hc, rfl⟩ := mem_requestMetadata.1 hn
    exact (hr r hmem hc).toDoc
  · obtain ⟨m, -, rfl⟩ := List.mem_map.1 (List.mem_filter.1 hn).1
    exact m.noNul_read

section

variable {attr : AttrDoc} {ca : ContextAttribute} (hn : ComparedWhole attr ca)
include hn

theorem sent_key {r : Metadata} (hmem : r ∈ ca.metadataVector) : r.toDoc.key = r.key :=
  Metadata.toDoc_key (hn.request r hmem)

theorem newItem_iff : NewItem attr ca ↔
    ¬ (requestMetadata ca).map MdDoc.key ⊆
      (attr.mdV.filter fun md => hasMetadata md.name (strField md.type) ca).map MdDoc.key := by
  constructor
  · rintro ⟨r, hmem, hcustom, hout⟩ hsub
    obtain ⟨md, hmd, hkey⟩ := List.mem_map.1 (hsub (List.mem_map_of_mem (mem_requestMetadata.2 ⟨r, hmem, hcustom, rfl⟩)))
    refine hout (List.mem_map.2 ⟨md, (List.mem_filter.1 hmd).1, ?_⟩)
    rw [hkey, sent_key hn hmem]
  · intro hsub
    by_contra hnew
    refine hsub fun key hkey => ?_
    obtain ⟨n, hn', rfl⟩ := List.mem_map.1 hkey
    obtain ⟨r, hmem, hcustom, rfl⟩ := mem_requestMetadata.1 hn'
    obtain ⟨md, hmd, hkey⟩ := List.mem_map.1 (not_not.1 fun hout => hnew ⟨r, hmem, hcustom, hout⟩)
    refine List.mem_map.2 ⟨md, List.mem_filter.2 ⟨hmd, mentioned_iff.2 ?_⟩, hkey.trans (sent_key hn hmem).symm⟩
    rw [hkey]
    exact List.mem_map_of_mem hmem

variable (ha : SimpleAttr attr)
include ha

omit hn in
/-- An item of the request that a stored one has the name of is a custom one. -/
theorem toDoc_mem_new {md : MdDoc} {r : Metadata} (hmd : md ∈ attr.mdV) (hmem : r ∈ ca.metadataVector)
    (hkey : r.key = md.key) : r.toDoc ∈ newMetadata attr ca := by
  refine List.mem_append_left _ (mem_requestMetadata.2 ⟨r, hmem, ?_, rfl⟩)
  have hname : r.name = md.name := congrArg Prod.fst hkey
  rw [hname]
  exact ha.custom md hmd

/-- Where a new item with the key of a stored one comes from. -/
theorem new_cases {md n : MdDoc} (hmd : md ∈ attr.mdV) (hnew : n ∈ newMetadata attr ca) (hkey : n.key = md.key) :
    (∃ r ∈ ca.metadataVector, r.key = md.key ∧ n = r.toDoc) ∨
      (n = md ∧ md.key ∉ ca.metadataVector.map Metadata.key) := by
  rcases List.mem_append.1 hnew with hnew | hnew
  · obtain ⟨r, hmem, -, rfl⟩ := mem_requestMetadata.1 hnew
    exact .inl ⟨r, hmem, (sent_key hn hmem).symm.trans hkey, rfl⟩
  · obtain ⟨hstored, hout⟩ := (mem_keptMetadata hn.stored.md).1 hnew
    obtain rfl := List.inj_on_of_nodup_map ha.keys hstored hmd hkey
    exact .inr ⟨rfl, hout⟩

/-! ## The number of items -/

variable (hr : SimpleRequest attr ca)
include hr

theorem length_new_iff : (newMetadata attr ca).length ≠ attr.mdV.length ↔ NewItem attr ca := by
  have hsplit := attr.mdV.length_eq_length_filter_add fun md => hasMetadata md.name (strField md.type) ca
  have hrequest : ((requestMetadata ca).map MdDoc.key).Nodup := by
    have hmap : (requestMetadata ca).map MdDoc.key =
        (ca.metadataVector.filter fun md => !isNotCustomMetadata md.name).map Metadata.key := by
      rw [requestMetadata, List.map_map]
      exact List.map_congr_left fun r hr' => sent_key hn (List.mem_filter.1 hr').1
    rw [hmap]
    exact (List.filter_sublist.map _).nodup hr.keys
  have hmentioned : ((attr.mdV.filter fun md => hasMetadata md.name (strField md.type) ca).map MdDoc.key).Nodup :=
    (List.filter_sublist.map _).nodup ha.keys
  -- the stored items that are mentioned have the keys of as many items of the request
  have hsub : (attr.mdV.filter fun md => hasMetadata md.name (strField md.type) ca).map MdDoc.key ⊆
      (requestMetadata ca).map MdDoc.key := by
    intro key hkey
    obtain ⟨md, hmd, rfl⟩ := List.mem_map.1 hkey
    obtain ⟨hmem, hhas⟩ := List.mem_filter.1 hmd
    obtain ⟨r, hr', hkey⟩ := List.mem_map.1 (mentioned_iff.1 hhas)
    refine List.mem_map.2 ⟨r.toDoc, mem_requestMetadata.2 ⟨r, hr', ?_, rfl⟩, (sent_key hn hr').trans hkey⟩
    rw [show r.name = md.name from congrArg Prod.fst hkey]
    exact ha.custom md hmem
  have hperm := hmentioned.subperm hsub
  have hle := hperm.length_le
  have hnew : (newMetadata attr ca).length = (requestMetadata ca).length + (keptMetadata attr.mdV ca).length :=
    List.length_append
  have hkept : keptMetadata attr.mdV ca = attr.mdV.filter fun md => !hasMetadata md.name (strField md.type) ca :=
    keptMetadata_of_noNul hn.stored.md ca
  rw [newItem_iff hn, hnew, hsplit, hkept]
  simp only [List.length_map] at hle
  refine not_congr ⟨fun hlen => ?_, fun hsub' => ?_⟩
  · refine (hperm.perm_of_length_le ?_).symm.subset
    simp only [List.length_map]
    omega
  · have := (hrequest.subperm hsub').length_le
    simp only [List.length_map] at this
    omega

/-! ## The values of the items -/

theorem equalMetadataVectors_iff : equalMetadataVectors attr.mdV (newMetadata attr ca) = true ↔
    ∀ md ∈ attr.mdV, md.type ≠ some "" → ¬ Rewritten ca md := by
  rw [equalMetadataVectors, List.all_eq_true]
  refine forall₂_congr fun md hmd => ?_
  have hmdn : md.NoNul := hn.stored.md md hmd
  cases hfind : (newMetadata attr ca).find? (matchMetadata md) with
  | none =>
    refine iff_of_true rfl fun htype => ?_
    rintro ⟨r, hmem, hkey, -⟩
    have hname : md.name = r.toDoc.name := (congrArg Prod.fst hkey).symm
    have htypes : strField r.toDoc.type = strField md.type := congrArg Prod.snd ((sent_key hn hmem).trans hkey)
    -- both are absent, or present and not empty
    have hsame : r.toDoc.type = md.type := by
      have hne := r.toDoc_type
      rw [strField_of_noNul (hn.request r hmem).toDoc.type, strField_of_noNul hmdn.type] at htypes
      generalize r.toDoc.type = t at hne htypes ⊢
      revert hne htypes htype
      rcases t with - | t <;> rcases md.type with - | t' <;> simp [eq_comm]
    have := List.find?_eq_none.1 hfind _ (toDoc_mem_new ha hmd hmem hkey)
    exact this ((match_iff_of_noNul hmdn (hn.request r hmem).toDoc).2 ⟨hsame, hname⟩)
  | some n =>
    have hmatch := List.find?_some hfind
    have hmem' := List.mem_of_find?_eq_some hfind
    have hnn : n.NoNul := noNul_newMetadata (fun r hr _ => hn.request r hr) n hmem'
    rcases new_cases hn ha hmd hmem' (key_eq_of_match hmdn hnn hmatch) with ⟨r, hmem, hkey, rfl⟩ | ⟨rfl, hout⟩
    · have htype : md.type ≠ some "" := ((match_iff_of_noNul hmdn hnn).1 hmatch).1 ▸ r.toDoc_type
      have hvalue : r.toDoc.value = r.value := rfl
      simp only [hmdn.value.cString, hvalue, (hn.request r hmem).value.cString, beq_iff_eq, htype, ne_eq,
        not_false_eq_true, forall_const]
      constructor
      · rintro heq ⟨r', hmem', hkey', hne⟩
        obtain rfl := List.inj_on_of_nodup_map hr.keys hmem' hmem (hkey'.trans hkey.symm)
        exact hne heq.symm
      · intro hnot
        by_contra hne
        exact hnot ⟨r, hmem, hkey, fun h => hne h.symm⟩
    · refine iff_of_true (by simp) fun _ => ?_
      rintro ⟨r, hmem, hkey, -⟩
      exact hout (hkey ▸ List.mem_map_of_mem hmem)

theorem isActualUpdate_iff_visible : isActualUpdate attr ca = true ↔ VisibleChange attr ca := by
  obtain ⟨v, hv⟩ := ha.value
  have hlen := length_new_iff hn ha hr
  have hequal := equalMetadataVectors_iff hn ha hr
  unfold isActualUpdate VisibleChange
  rw [hr.simple, ← hlen]
  simp only [Bool.or_eq_true, Bool.and_eq_true, bne_iff_ne, Bool.not_eq_true', ← Bool.not_eq_true]
  rw [show attr.md.getD [] = attr.mdV from rfl, hequal, hv]
  have htype : (attr.type.isNone = true ∨ strField attr.type ≠ ca.type) ∧ ca.type ≠ "" ↔
      ca.type ≠ "" ∧ attr.type ≠ some ca.type := by
    cases ht : attr.type with
    | none => simp
    | some t => simp [(hn.stored.type t ht).cString, and_comm]
  rw [and_comm (a := ca.type ≠ ""), htype]
  simp [strValue, (hn.value v hv).cString, or_assoc]

/-! ## The set of items -/

omit hr in
theorem items_same_iff : (∀ item, item ∈ (newMetadata attr ca).map MdDoc.item ↔ item ∈ attr.mdV.map MdDoc.item) ↔
    ¬ NewItem attr ca ∧ ∀ md ∈ attr.mdV, ¬ Rewritten ca md := by
  constructor
  · refine fun hsame => ⟨?_, ?_⟩
    · rintro ⟨r, hmem, hcustom, hout⟩
      have hnew : r.toDoc ∈ newMetadata attr ca := List.mem_append_left _ (mem_requestMetadata.2 ⟨r, hmem, hcustom, rfl⟩)
      obtain ⟨md, hmd, hitem⟩ := List.mem_map.1 ((hsame _).1 (List.mem_map_of_mem hnew))
      refine hout (List.mem_map.2 ⟨md, hmd, ?_⟩)
      exact (congrArg Prod.fst hitem).trans (sent_key hn hmem)
    · rintro md hmd ⟨r, hmem, hkey, hne⟩
      obtain ⟨md', hmd', hitem⟩ := List.mem_map.1 ((hsame _).1 (List.mem_map_of_mem (toDoc_mem_new ha hmd hmem hkey)))
      have hkey' : md'.key = md.key := ((congrArg Prod.fst hitem).trans (sent_key hn hmem)).trans hkey
      obtain rfl := List.inj_on_of_nodup_map ha.keys hmd' hmd hkey'
      exact hne (congrArg Prod.snd hitem).symm
  · rintro ⟨hnew, hrewritten⟩ item
    constructor
    · intro hitem
      obtain ⟨n, hn', rfl⟩ := List.mem_map.1 hitem
      rcases List.mem_append.1 hn' with hn' | hn'
      · obtain ⟨r, hmem, hcustom, rfl⟩ := mem_requestMetadata.1 hn'
        obtain ⟨md, hmd, hkey⟩ := List.mem_map.1 (not_not.1 fun hout => hnew ⟨r, hmem, hcustom, hout⟩)
        have hvalue : r.value = md.value := not_not.1 fun hne => hrewritten md hmd ⟨r, hmem, hkey.symm, hne⟩
        exact List.mem_map.2 ⟨md, hmd, Prod.ext (hkey.trans (sent_key hn hmem).symm) hvalue.symm⟩
      · exact List.mem_map_of_mem ((mem_keptMetadata hn.stored.md).1 hn').1
    · intro hitem
      obtain ⟨md, hmd, rfl⟩ := List.mem_map.1 hitem
      by_cases hin : md.key ∈ ca.metadataVector.map Metadata.key
      · obtain ⟨r, hmem, hkey⟩ := List.mem_map.1 hin
        have hvalue : r.value = md.value := not_not.1 fun hne => hrewritten md hmd ⟨r, hmem, hkey, hne⟩
        exact List.mem_map.2
          ⟨r.toDoc, toDoc_mem_new ha hmd hmem hkey, Prod.ext ((sent_key hn hmem).trans hkey) hvalue⟩
      · exact List.mem_map_of_mem (List.mem_append_right _ ((mem_keptMetadata hn.stored.md).2 ⟨hmd, hin⟩))

theorem unchanged_iff (now : Int) :
    Unchanged attr (updatedAttr now attr ca) ↔ ¬ VisibleChange attr ca ∧ ¬ HiddenChange attr ca := by
  have hvalue : (updatedAttr now attr ca).value = attr.value ↔ ¬ attr.value ≠ some (.str ca.value) := by
    rw [show (updatedAttr now attr ca).value = valueBson ca from rfl, valueBson, hr.simple, not_not]
    exact eq_comm
  have htype : (updatedAttr now attr ca).type = attr.type ↔ ¬ (ca.type ≠ "" ∧ attr.type ≠ some ca.type) := by
    rw [show (updatedAttr now attr ca).type = if ca.type ≠ "" then some ca.type else attr.type.map cString from rfl,
      map_cString_of_noNul hn.stored.type]
    split
    · rename_i h
      simp [h, eq_comm]
    · rename_i h
      simp [h]
  have hitems : (∀ md ∈ attr.mdV, ¬ Rewritten ca md) ↔
      ¬ (∃ md ∈ attr.mdV, md.type ≠ some "" ∧ Rewritten ca md) ∧ ¬ HiddenChange attr ca := by
    constructor
    · intro h
      exact ⟨fun ⟨md, hmd, _, hre⟩ => h md hmd hre, fun ⟨md, hmd, _, hre⟩ => h md hmd hre⟩
    · rintro ⟨h1, h2⟩ md hmd hre
      by_cases htype : md.type = some ""
      · exact h2 ⟨md, hmd, htype, hre⟩
      · exact h1 ⟨md, hmd, htype, hre⟩
  rw [Unchanged, updatedAttr_mdV, items_same_iff hn ha, hvalue, htype, hitems, VisibleChange]
  simp only [not_or, and_assoc]

/-- `actualUpdate` tells whether the element changes unless the only changes are to metadata that was stored with an
empty type, or something that is compared has a NUL. -/
theorem checkAndUpdate_exact_iff (now : Int) :
    ((checkAndUpdate now attr ca).2.2 = false ↔ Unchanged attr (checkAndUpdate now attr ca).1) ↔
      (HiddenChange attr ca → VisibleChange attr ca) := by
  have hupdate : checkAndUpdate now attr ca = (updatedAttr now attr ca, true, isActualUpdate attr ca) := by
    rw [checkAndUpdate, if_pos hr.addressed]
  have hactual := isActualUpdate_iff_visible hn ha hr
  rw [hupdate]
  dsimp only
  rw [unchanged_iff hn ha hr, ← Bool.not_eq_true, hactual]
  tauto

end

/-! ## An attribute that was appended with a metadata item without type -/

def accurate (value : String) : ContextAttribute :=
  { name := "t", type := "T", value := "20", metadataVector := [{ name := "accuracy", type := "", value := value }] }

def storedAccurate : AttrDoc := appendedAttr 100 (accurate "low")

theorem storedAccurate_simple : SimpleAttr storedAccurate where
  value := ⟨"20", rfl⟩
  custom := by decide
  keys := by decide

theorem accurate_whole (value : String) (h : NoNul value) : ComparedWhole storedAccurate (accurate value) where
  stored := by decide
  value s hs := by
    cases hs
    decide
  request md hmd := by
    rw [List.mem_singleton.1 hmd]
    exact ⟨(by decide : NoNul "accuracy"), noNul_empty, h⟩

theorem accurate_missed :
    SimpleAttr storedAccurate ∧ SimpleRequest storedAccurate (accurate "high") ∧
    (checkAndUpdate 200 storedAccurate (accurate "high")).2.2 = false ∧
    ¬ Unchanged storedAccurate (checkAndUpdate 200 storedAccurate (accurate "high")).1 := by
  refine ⟨storedAccurate_simple, ⟨by decide, rfl, by decide⟩, by decide, fun h => ?_⟩
  have := (h.2.2 (("accuracy", ""), "high")).1 (by decide)
  revert this
  decide

theorem accurate_seen :
    ((checkAndUpdate 200 storedAccurate (accurate "low")).2.2 = false ↔
      Unchanged storedAccurate (checkAndUpdate 200 storedAccurate (accurate "low")).1) ∧
    (checkAndUpdate 200 storedAccurate (accurate "low")).2.2 = false := by
  refine ⟨(checkAndUpdate_exact_iff (accurate_whole "low" (by decide)) storedAccurate_simple
    ⟨by decide, rfl, by decide⟩ 200).2 fun h => absurd h ?_, by decide⟩
  rintro ⟨md, hmd, -, hre⟩
  revert md
  decide

end OrionBroker
