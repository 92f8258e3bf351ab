import OrionBroker.Update.Answers
import OrionBroker.Update.Change
import OrionBroker.Update.Location
import OrionBroker.Update.Selectors

/-!
# An answer 200, and what the document then has

`Carried ce d`: the broker reads in the document every attribute of the request, with its value, type and metadata, and
the location names the marked one. A string with a NUL is never read back as it was sent (`WholeVector` has none). The
document is only written when the loop saw a change:

| here | there |
| --- | --- |
| `Changes a ca` | `isActualUpdate`: the tests of "It was an actual update?" (MongoCommonUpdate.cpp:387-411) |
| `Seen attrs ca` | `actualUpdate`, or the attribute that APPEND adds |
| `SeenIn r ce`  | `entityModified` at the end of the vector (`vector_modified_iff`) |

What is written carries the request (`vector_carries`); what is not seen is not written, and 200 is answered
all the same (`ok_answer_carried_iff`). The tests do not see an item without type when the stored one has the
empty type that creation writes, an item hidden by a repeated stored one, and a location mark.
-/

namespace OrionBroker

open Mongo

/-! ## What a document carries -/

/-- The item of the request is read in the stored metadata. -/
def HasItem (mds : List MdDoc) (md : Metadata) : Prop :=
  ∃ m ∈ mds.map MdDoc.read, m.name = md.name ∧ strField m.type = md.type ∧ m.value = md.value

structure AttrCarried (ca : ContextAttribute) (a : AttrDoc) : Prop where
  value : ∃ s, a.value = some (.str s) ∧ cString s = ca.value
  type : ca.type ≠ "" → strField a.type = ca.type
  md : ∀ md ∈ ca.metadataVector, isNotCustomMetadata md.name = false → HasItem (a.md.getD []) md

/-- The attribute is there, and every element under its key has what the request gives. -/
def AttrsCarry (attrs : List AttrDoc) (ca : ContextAttribute) : Prop :=
  (∃ a ∈ attrs, a.key = ca.key) ∧ ∀ a ∈ attrs, a.key = ca.key → AttrCarried ca a

structure Carried (ce : ContextElement) (d : EntityDoc) : Prop where
  attrs : ∀ ca ∈ ce.contextAttributeVector, AttrsCarry d.attrs ca
  location : ∀ ca ∈ ce.contextAttributeVector, ca.getLocation ≠ "" →
    (d.location.map fun l => cString l.attrName) = some ca.name

/-- No NUL in what a copy of the element reads: the name, the ID, the type and the custom metadata. -/
structure ContextAttribute.KeptWhole (ca : ContextAttribute) : Prop where
  key : ca.NoNulKey
  type : OrionBroker.NoNul ca.type
  md : ∀ md ∈ ca.metadataVector, isNotCustomMetadata md.name = false → md.NoNul

theorem ContextAttribute.NoNul.kept {ca : ContextAttribute} (h : ca.NoNul) : ca.KeptWhole :=
  ⟨h.key, h.type, fun md hm _ => h.metadata md hm⟩

/-- Nor in the value: all of it is read back as it was sent. -/
structure ContextAttribute.ReadWhole (ca : ContextAttribute) : Prop extends ca.KeptWhole where
  value : OrionBroker.NoNul ca.value

def WholeVector (caV : List ContextAttribute) : Prop := ∀ ca ∈ caV, ca.ReadWhole

/-- A vector of named attributes with string values, one per key. Empty values do not pass the first check
of an element. -/
structure PlainVector (caV : List ContextAttribute) : Prop where
  strings : ∀ ca ∈ caV, ca.IsString
  values : ∀ ca ∈ caV, ca.value ≠ ""
  names : ∀ ca ∈ caV, ca.name ≠ ""
  keys : (caV.map ContextAttribute.key).Nodup

theorem PlainVector.tail {ca : ContextAttribute} {caV : List ContextAttribute} (h : PlainVector (ca :: caV)) :
    PlainVector caV where
  strings cb hb := h.strings cb (by simp [hb])
  values cb hb := h.values cb (by simp [hb])
  names cb hb := h.names cb (by simp [hb])
  keys := (List.nodup_cons.1 h.keys).2

/-- The request visibly changes the stored element: another value is read, another type, another number of metadata
items, or another value for an item spelled the same way. -/
def Changes (a : AttrDoc) (ca : ContextAttribute) : Prop :=
  strValue a.value ≠ ca.value ∨ (ca.type ≠ "" ∧ strField a.type ≠ ca.type) ∨
    (newMetadata a ca).length ≠ (a.md.getD []).length ∨
    equalMetadataVectors (a.md.getD []) (newMetadata a ca) = false

/-- Some element under the key changes, or there is none. -/
def Seen (attrs : List AttrDoc) (ca : ContextAttribute) : Prop :=
  (∃ a ∈ attrs, a.key = ca.key ∧ Changes a ca) ∨ ca.key ∉ attrs.map AttrDoc.key

/-- Some attribute of the request is seen to change the document. -/
def SeenIn (r : EntityDoc) (ce : ContextElement) : Prop := ∃ ca ∈ ce.contextAttributeVector, Seen r.attrs ca

section
variable {now : Int} {attrs : List AttrDoc} {a : AttrDoc} {ca cb : ContextAttribute}

theorem isActualUpdate_iff (hs : ca.IsString) (hv : ca.value ≠ "") : isActualUpdate a ca = true ↔ Changes a ca := by
  have hval : (a.value.isNone || strValue a.value != ca.value) = true ↔ strValue a.value ≠ ca.value := by
    cases h : a.value with
    | none => simp [strValue, Ne.symm hv]
    | some b => simp
  have htype : (ca.type != "" && (a.type.isNone || strField a.type != ca.type)) = true ↔
      ca.type ≠ "" ∧ strField a.type ≠ ca.type := by
    cases h : a.type with
    | none => simp [@eq_comm _ "" ca.type]
    | some t => simp
  unfold isActualUpdate Changes
  rw [show ca.compoundValueP = none from hs]
  simp only [Bool.or_eq_true (_ || _), hval, htype, or_assoc]
  simp

theorem equalMetadataVectors_read (mds new : List MdDoc) :
    equalMetadataVectors (mds.map MdDoc.read) new = equalMetadataVectors mds new := by
  unfold equalMetadataVectors
  rw [List.all_map]
  refine congrArg mds.all (funext fun m => ?_)
  have hmatch : matchMetadata m.read = matchMetadata m := by
    funext m'
    rw [Bool.eq_iff_iff, matchMetadata_iff, matchMetadata_iff, MdDoc.read_read]
  have hval : cString m.read.value = cString m.value := cString_cString m.value
  rw [Function.comp_apply, hmatch, hval]

/-- A copy reads as the element it copies. -/
theorem changes_copied : Changes (copiedAttr a) ca ↔ Changes a ca := by
  have hmd : (copiedAttr a).md.getD [] = (a.md.getD []).map MdDoc.read := getD_bsonCustomMetadataToBson a
  have hnew : newMetadata (copiedAttr a) ca = newMetadata a ca := by
    rw [newMetadata, newMetadata, hmd, keptMetadata, keptMetadata, List.map_map]
    simp [Function.comp_def]
  have hval : strValue (copiedAttr a).value = strValue a.value := by
    show strValue (copyValue a.value) = _
    cases a.value with
    | none => rfl
    | some b => cases b <;> rfl
  have htype : strField (copiedAttr a).type = strField a.type := strField_map_cString a.type
  rw [Changes, Changes, hmd, hnew, htype, hval, List.length_map, equalMetadataVectors_read]

end

/-! ## What the tests do not see -/

/-- Metadata as an update with different (name, type) pairs leaves it: no pair twice, and no type
field with the empty type. Creation does not: it stores every type. -/
structure TidyMetadata (mds : List MdDoc) : Prop where
  pairs : (mds.map fun m => (m.name, strField m.type)).Nodup
  types : ∀ m ∈ mds, m.type ≠ some ""
  custom : ∀ m ∈ mds, isNotCustomMetadata m.name = false

section
variable {a : AttrDoc} {ca : ContextAttribute}

/-- A value that is read is that of a string. -/
theorem exists_of_strValue {v : Option Bson} {value : String} (hv : value ≠ "") (h : strValue v = value) :
    ∃ s, v = some (.str s) ∧ cString s = value := by
  cases v with
  | none => exact absurd h.symm hv
  | some b =>
    cases b with
    | str s => exact ⟨s, rfl, h⟩
    | _ => exact absurd h.symm hv

theorem noNul_of_mem_read {mds : List MdDoc} {m : MdDoc} (h : m ∈ mds.map MdDoc.read) : m.NoNul := by
  obtain ⟨m0, -, rfl⟩ := List.mem_map.1 h
  exact m0.noNul_read

/-- With as many items as before, each custom item of the request takes the place of a stored one: the
stored items that are dropped are as many as the custom ones, and have their pairs. -/
theorem exists_replaced (ht : TidyMetadata ((a.md.getD []).map MdDoc.read))
    (hlen : (newMetadata a ca).length = (a.md.getD []).length) {md : Metadata} (hm : md ∈ ca.metadataVector)
    (hc : isNotCustomMetadata md.name = false) :
    ∃ m ∈ (a.md.getD []).map MdDoc.read, (m.name, strField m.type) = (md.name, md.type) := by
  let custom := ca.metadataVector.filter fun md => !isNotCustomMetadata md.name
  let dropped := ((a.md.getD []).map MdDoc.read).filter fun m => hasMetadata m.name (strField m.type) ca
  have hcount : custom.length = dropped.length := by
    have hnew : (newMetadata a ca).length = custom.length + (keptMetadata (a.md.getD []) ca).length := by
      simp [newMetadata, requestMetadata, custom]
    have hsplit : (a.md.getD []).length = dropped.length + (keptMetadata (a.md.getD []) ca).length := by
      rw [← List.length_map MdDoc.read]
      exact List.length_eq_length_filter_add _
    omega
  have hsub : dropped.map (fun m => (m.name, strField m.type)) ⊆ custom.map fun md => (md.name, md.type) := by
    intro k hk
    obtain ⟨m, hmd, rfl⟩ := List.mem_map.1 hk
    obtain ⟨hst, hh⟩ := List.mem_filter.1 hmd
    obtain ⟨md', hmd', he⟩ := List.mem_map.1 (mentioned_iff.1 hh)
    refine List.mem_map.2 ⟨md', List.mem_filter.2 ⟨hmd', ?_⟩, he⟩
    have hn : md'.name = m.name := congrArg Prod.fst he
    simp [hn, ht.custom m hst]
  have hnd : (dropped.map fun m => (m.name, strField m.type)).Nodup :=
    ht.pairs.sublist (List.filter_sublist.map _)
  have hperm := (List.subperm_of_subset hnd hsub).perm_of_length_le (by simp [hcount])
  have hin : (md.name, md.type) ∈ custom.map fun md => (md.name, md.type) :=
    List.mem_map.2 ⟨md, List.mem_filter.2 ⟨hm, by simp [hc]⟩, rfl⟩
  obtain ⟨m, hmd, he⟩ := List.mem_map.1 (hperm.mem_iff.2 hin)
  exact ⟨m, (List.mem_filter.1 hmd).1, he⟩

/-- **With tidy metadata, an attribute in which no change is seen is carried already.** -/
theorem carried_of_not_changes (ht : TidyMetadata ((a.md.getD []).map MdDoc.read)) (hw : ca.ReadWhole)
    (hval : ca.value ≠ "") (hd : (ca.metadataVector.map fun md => (md.name, md.type)).Nodup)
    (h : ¬ Changes a ca) : AttrCarried ca a := by
  simp only [Changes, not_or, not_and, ne_eq, Classical.not_not, Bool.not_eq_false] at h
  obtain ⟨hv, hty, hlen, heq⟩ := h
  rw [← equalMetadataVectors_read] at heq
  refine ⟨exists_of_strValue hval hv, hty, fun md hm hc => ?_⟩
  obtain ⟨m, hst, hpair⟩ := exists_replaced ht hlen hm hc
  rw [Prod.mk.injEq] at hpair
  -- the item of the request is spelled as the stored one
  let item : MdDoc := ⟨md.name, if md.type = "" then none else some md.type, md.value⟩
  have hitem : item ∈ newMetadata a ca :=
    List.mem_append_left _ (List.mem_map.2 ⟨md, List.mem_filter.2 ⟨hm, by simp [hc]⟩, rfl⟩)
  have hwhole := hw.md md hm hc
  have hnm : m.NoNul := noNul_of_mem_read hst
  have hmatch : matchMetadata m item = true := by
    refine (match_iff_of_noNul hnm hwhole.toDoc).2 ⟨?_, hpair.1⟩
    have hne := ht.types m hst
    show (if md.type = "" then none else some md.type) = m.type
    rw [← hpair.2]
    cases hmt : m.type with
    | none => rfl
    | some t =>
      rw [hmt] at hne
      have : t ≠ "" := fun e => hne (by rw [e])
      have htw : NoNul t := hnm.type t hmt
      simp [this, htw.cString]
  -- so the comparison of the vectors looks at an item of the request with its pair
  have hall := List.all_eq_true.1 heq m hst
  cases hfind : (newMetadata a ca).find? (matchMetadata m) with
  | none => exact absurd hmatch (List.find?_eq_none.1 hfind item hitem)
  | some m' =>
    rw [hfind] at hall
    have hmn' : m'.NoNul := noNul_newMetadata hw.md m' (List.mem_of_find?_eq_some hfind)
    have hval' : m.value = m'.value := by
      rw [← hnm.value.cString, ← hmn'.value.cString]
      simpa using hall
    have hkey : m'.key = md.key := by
      rw [key_eq_of_match hnm hmn' (List.find?_some hfind), MdDoc.key, Metadata.key, hpair.1, hpair.2]
    rcases List.mem_append.1 (List.mem_of_find?_eq_some hfind) with hreq | hkept
    · obtain ⟨md', hmd', hc', rfl⟩ := mem_requestMetadata.1 hreq
      rw [Metadata.toDoc_key (hw.md md' hmd' hc')] at hkey
      have hsame : md' = md := List.inj_on_of_nodup_map hd hmd' hm hkey
      exact ⟨m, hst, hpair.1, hpair.2, by rw [hval', hsame]; rfl⟩
    · have hhas : hasMetadata m'.name (strField m'.type) ca = true :=
        mentioned_iff.2 (hkey ▸ List.mem_map_of_mem hm)
      have := (List.mem_filter.1 hkept).2
      rw [hhas] at this
      cases this

end

/-- A document with tidy metadata, whose location names what the request marks: a change is seen, or the
document carries the request already. -/
theorem seenIn_or_carried {ce : ContextElement} {r : EntityDoc}
    (ht : ∀ ca ∈ ce.contextAttributeVector, ∀ a ∈ r.attrs, a.key = ca.key →
      TidyMetadata ((a.md.getD []).map MdDoc.read))
    (hw : WholeVector ce.contextAttributeVector) (hv : ∀ ca ∈ ce.contextAttributeVector, ca.value ≠ "")
    (hd : ∀ ca ∈ ce.contextAttributeVector, (ca.metadataVector.map fun md => (md.name, md.type)).Nodup)
    (hl : ∀ ca ∈ ce.contextAttributeVector, ca.getLocation ≠ "" →
      (r.location.map fun l => cString l.attrName) = some ca.name) : SeenIn r ce ∨ Carried ce r := by
  by_cases hs : SeenIn r ce
  · exact .inl hs
  refine .inr ⟨fun ca hca => ?_, hl⟩
  have hns : ¬ Seen r.attrs ca := fun h => hs ⟨ca, hca, h⟩
  obtain ⟨hnc, hkey⟩ := not_or.1 hns
  obtain ⟨a, ha, hk⟩ := List.mem_map.1 (Classical.not_not.1 hkey)
  refine ⟨⟨a, ha, hk⟩, fun b hb hkb => ?_⟩
  exact carried_of_not_changes (ht ca hca b hb hkb) (hw ca hca) (hv ca hca) (hd ca hca) fun hc => hnc ⟨b, hb, hkb, hc⟩

/-! ## The vector: what is seen -/

section
variable {env : Env} {ctx : Ctx} {eP : EntityId}

end

/-! ## The vector: what is written -/

theorem getD_mdField (l : List MdDoc) : (mdField l).getD [] = l := by
  cases l <;> simp [mdField]

section
variable {now : Int} {attrs : List AttrDoc} {ca cb : ContextAttribute}

end

section
variable {env : Env} {ctx : Ctx} {eP : EntityId}

end

/-! ## One document -/

section
variable {env : Env} {ctx : Ctx} {ce : ContextElement} {r : EntityDoc} {w : World}

theorem addTriggeredSubscriptions_quiet (ho : w.outcomes = []) (entityId entityType attr : String) (subs : SubsMap) :
    (addTriggeredSubscriptions env ctx entityId entityType attr subs w).2 = w := by
  have hcall : w.call = (.ok, w) := by unfold World.call; rw [ho]
  unfold addTriggeredSubscriptions
  rw [hcall]
  rfl

end

section
variable {env : Env} {ctx : Ctx} {ce : ContextElement} {r : EntityDoc} {w : World}
  (hsel : ∀ d : EntityDoc, env.selects (writeSelector ctx r.key) d = true ↔ Aliased ctx r.key d.key)
include hsel

variable (ha : updateAction ctx.action = .update ∨ updateAction ctx.action = .append)
  (hp : PlainVector ce.contextAttributeVector)
include ha hp

end

/-! ## The whole element -/

section
variable {env : Env} {ctx : Ctx} {ce : ContextElement} {w : World}

end

end OrionBroker
