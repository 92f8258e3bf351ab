import OrionBroker.Update.Repeat

/-!
# Storing and querying

`createEntity` encodes a request (MongoCommonUpdate.cpp:68-154, :1350-1469) and `entitiesQuery` decodes the
document (MongoGlobal.cpp:789-850, :1165-1276). The answer has the attributes of the
request, in its order; a compound value comes back with the names of its vector items replaced by their
indices, and of the metadata only the custom items, the id and the location mark come back. All of it but the compound
values is read with `STR_FIELD`, so the request comes back exactly when no other string of it has a NUL
(`created_roundTrip_iff`).
-/

namespace OrionBroker

open Mongo

/-! ## Compound values -/

mutual
/-- Strings, vectors and objects only: a string has no children, a container has no value. -/
def CompoundValueNode.isTree : CompoundValueNode → Bool
  | .mk .unknown _ _ _ => false
  | .mk .string _ _ childV => childV.isEmpty
  | .mk .vector _ value childV => value == "" && areTrees childV
  | .mk .object _ value childV => value == "" && areTrees childV
def areTrees : List CompoundValueNode → Bool
  | [] => true
  | c :: cs => c.isTree && areTrees cs
end

mutual
/-- The tree without the names of its vector items. -/
def CompoundValueNode.upToItems (named : Bool) : CompoundValueNode → CompoundValueNode
  | .mk type name value childV => .mk type (if named then name else "") value (childrenUpToItems (type == .object) childV)
def childrenUpToItems (named : Bool) : List CompoundValueNode → List CompoundValueNode
  | [] => []
  | c :: cs => c.upToItems named :: childrenUpToItems named cs
end

/-- The same tree up to the names of vector items. -/
def CompoundValueNode.SameTree (c d : CompoundValueNode) : Prop := c.upToItems true = d.upToItems true

mutual
/-- A node survives under its own name, and as an item under any. -/
theorem node_roundTrip : ∀ {c : CompoundValueNode} {named : Bool} {name : String}, c.isTree = true →
    (named = true → name = c.name) →
    ∃ v d, nodeBson c = some v ∧ nodeOfBson name v = some d ∧ d.upToItems named = c.upToItems named
  | .mk .unknown _ _ _, _, _, h, _ => by simp [CompoundValueNode.isTree] at h
  | .mk .string cname value childV, named, name, h, hn => by
    have hc : childV = [] := by simpa [CompoundValueNode.isTree] using h
    refine ⟨.str value, .mk .string name value [], by rw [nodeBson], by rw [nodeOfBson], ?_⟩
    rw [hc, CompoundValueNode.upToItems, CompoundValueNode.upToItems]
    cases named with
    | false => rfl
    | true => rw [hn rfl]; rfl
  | .mk .vector cname value childV, named, name, h, hn => by
    simp only [CompoundValueNode.isTree, Bool.and_eq_true, beq_iff_eq] at h
    refine ⟨.arr (compoundValueArr childV), .mk .vector name "" _, by rw [nodeBson], by rw [nodeOfBson], ?_⟩
    rw [CompoundValueNode.upToItems, CompoundValueNode.upToItems, h.1, show (NodeType.vector == .object) = false from rfl,
      vector_roundTrip h.2 0]
    cases named with
    | false => rfl
    | true => rw [hn rfl]; rfl
  | .mk .object cname value childV, named, name, h, hn => by
    simp only [CompoundValueNode.isTree, Bool.and_eq_true, beq_iff_eq] at h
    refine ⟨.obj (compoundValueObj childV), .mk .object name "" _, by rw [nodeBson], by rw [nodeOfBson], ?_⟩
    rw [CompoundValueNode.upToItems, CompoundValueNode.upToItems, h.1, show (NodeType.object == .object) = true from rfl,
      object_roundTrip h.2]
    cases named with
    | false => rfl
    | true => rw [hn rfl]; rfl
theorem vector_roundTrip : ∀ {cs : List CompoundValueNode}, areTrees cs = true → ∀ ix,
    childrenUpToItems false (compoundVectorResponse ix (compoundValueArr cs)) = childrenUpToItems false cs
  | [], _, ix => by rw [compoundValueArr, compoundVectorResponse]
  | c :: cs, h, ix => by
    simp only [areTrees, Bool.and_eq_true] at h
    obtain ⟨v, d, hv, hd, hs⟩ := @node_roundTrip c false (toString ix) h.1 nofun
    rw [compoundValueArr, hv, Option.toList_some, List.singleton_append, compoundVectorResponse, hd,
      Option.toList_some, List.singleton_append, childrenUpToItems, childrenUpToItems, hs, vector_roundTrip h.2]
theorem object_roundTrip : ∀ {cs : List CompoundValueNode}, areTrees cs = true →
    childrenUpToItems true (compoundObjectResponse (compoundValueObj cs)) = childrenUpToItems true cs
  | [], _ => by rw [compoundValueObj, compoundObjectResponse]
  | .mk type name value childV :: cs, h => by
    simp only [areTrees, Bool.and_eq_true] at h
    obtain ⟨v, d, hv, hd, hs⟩ := @node_roundTrip (.mk type name value childV) true name h.1 fun _ => rfl
    rw [compoundValueObj, hv, Option.map_some, Option.toList_some, List.singleton_append, compoundObjectResponse, hd,
      Option.toList_some, List.singleton_append, childrenUpToItems, childrenUpToItems, hs, object_roundTrip h.2]
end

/-! ## One attribute -/

/-- A non-empty string, or a compound value: a vector or an object as the parsers build its root. -/
def ContextAttribute.hasContent (ca : ContextAttribute) : Bool :=
  match ca.compoundValueP with
  | none => ca.value != ""
  | some root => root.isTree && root.type != .string && root.name == "toplevel"

/-- The request marks the attribute as the location. -/
def ContextAttribute.Marked (ca : ContextAttribute) : Prop :=
  ∃ md ∈ ca.metadataVector, md.name = NGSI_MD_LOCATION

/-- What of a request attribute the answer gives back. The id is the one the broker reads (`getId`, the first
item); where items have values, as `Metadata::check` asks, there is one exactly when the request sent one. -/
structure GivenBack (ca a : ContextAttribute) : Prop where
  name : a.name = ca.name
  type : a.type = ca.type
  string : ca.compoundValueP = none → a.compoundValueP = none ∧ a.value = ca.value
  compound : ∀ root, ca.compoundValueP = some root → ∃ d, a.compoundValueP = some d ∧ d.SameTree root
  custom : (a.metadataVector.filter fun md => !isNotCustomMetadata md.name) =
    ca.metadataVector.filter fun md => !isNotCustomMetadata md.name
  id : (a.metadataVector.filter fun md => md.name == NGSI_MD_ID) =
    if ca.getId = "" then [] else [⟨NGSI_MD_ID, "string", ca.getId⟩]
  sent : (∀ md ∈ ca.metadataVector, md.name = NGSI_MD_ID → md.value ≠ "") →
    ((∃ md ∈ a.metadataVector, md.name = NGSI_MD_ID) ↔ ∃ md ∈ ca.metadataVector, md.name = NGSI_MD_ID)
  location : (ca.Marked → (a.metadataVector.filter fun md => md.name == NGSI_MD_LOCATION) =
      [⟨NGSI_MD_LOCATION, "string", LOCATION_WGS84⟩]) ∧
    (¬ ca.Marked → (a.metadataVector.filter fun md => md.name == NGSI_MD_LOCATION) = [])

/-- No NUL in what `STR_FIELD` reads of the attribute. -/
structure ContextAttribute.SentWhole (ca : ContextAttribute) : Prop extends ca.KeptWhole where
  value : ca.compoundValueP = none → OrionBroker.NoNul ca.value

section
variable {now : Int} {ca : ContextAttribute} {locAttr : String} {includeEmpty : Bool}

theorem decodedValue_valueBson (hw : ca.compoundValueP = none → NoNul ca.value) (h : ca.hasContent = true) :
    ∃ value d, decodedValue includeEmpty (valueBson ca) = some (value, d) ∧
      (ca.compoundValueP = none → d = none ∧ value = ca.value) ∧
      ∀ root, ca.compoundValueP = some root → ∃ e, d = some e ∧ e.SameTree root := by
  unfold valueBson
  unfold ContextAttribute.hasContent at h
  cases hc : ca.compoundValueP with
  | none =>
    rw [hc] at h
    have hv : ca.value ≠ "" := by simpa using h
    exact ⟨ca.value, none, by simp [decodedValue, hv, (hw hc).cString], fun _ => ⟨rfl, rfl⟩, nofun⟩
  | some root =>
    rw [hc] at h
    simp only [Bool.and_eq_true, bne_iff_ne, ne_eq, beq_iff_eq] at h
    obtain ⟨⟨ht, hs⟩, hn⟩ := h
    obtain ⟨v, d, hv, hd, hsame⟩ := @node_roundTrip root true "toplevel" ht fun _ => hn.symm
    refine ⟨"", some d, ?_, nofun, fun r hr => ⟨d, rfl, Option.some.inj hr ▸ hsame⟩⟩
    obtain ⟨type, name, value, childV⟩ := root
    cases type with
    | unknown => simp [CompoundValueNode.isTree] at ht
    | string => exact absurd rfl hs
    | object =>
      rw [nodeBson] at hv
      cases hv
      rw [nodeOfBson] at hd
      cases hd
      simp [nodeBson, decodedValue]
    | vector =>
      rw [nodeBson] at hv
      cases hv
      rw [nodeOfBson] at hd
      cases hd
      simp [nodeBson, decodedValue]

/-- The custom items come back as they were sent. -/
theorem decoded_custom (hw : ca.KeptWhole) : (((contextAttributeCustomMetadataToBson ca).getD []).map fun md =>
      (⟨cString md.name, strField md.type, cString md.value⟩ : Metadata)) =
    ca.metadataVector.filter fun md => !isNotCustomMetadata md.name := by
  rw [contextAttributeCustomMetadataToBson, getD_mdField, List.map_map]
  conv_rhs => rw [← List.map_id (ca.metadataVector.filter fun md => !isNotCustomMetadata md.name)]
  refine List.map_congr_left fun md hmd => ?_
  obtain ⟨hmem, hc⟩ := List.mem_filter.1 hmd
  have hn := hw.md md hmem (by simpa using hc)
  rw [Function.comp_apply, strField_some, hn.name.cString, hn.type.cString, hn.value.cString]
  rfl

theorem decodedMetadata_created (hw : ca.KeptWhole) : decodedMetadata locAttr (createdAttr now ca) =
    (if ca.getId = "" then [] else [⟨NGSI_MD_ID, "string", ca.getId⟩]) ++
    (if locAttr = ca.name then [⟨NGSI_MD_LOCATION, "string", LOCATION_WGS84⟩] else []) ++
    ca.metadataVector.filter fun md => !isNotCustomMetadata md.name := by
  have hname : strField (createdAttr now ca).name = ca.name := hw.key.name.cString
  have hid : strField (createdAttr now ca).id = ca.getId := congrArg Prod.snd (createdAttr_key now hw.key)
  rw [← decoded_custom hw, decodedMetadata, hname, hid]
  by_cases hid : ca.getId = "" <;> by_cases hl : locAttr = ca.name <;> simp [hid, hl, createdAttr, LOCATION_WGS84]

/-- Of a special name there is no custom item. -/
theorem filter_custom_special {name : String} (h : isNotCustomMetadata name = true) (mds : List Metadata) :
    ((mds.filter fun md => !isNotCustomMetadata md.name).filter fun md => md.name == name) = [] := by
  refine List.filter_eq_nil_iff.2 ?_
  intro md hmd
  have hc := (List.mem_filter.1 hmd).2
  intro he
  rw [beq_iff_eq.1 he, h] at hc
  exact absurd hc (by decide)

/-- With values that are not empty, the id is empty only when there is no item. -/
theorem metadataValue_eq_empty_iff {name : String} {mds : List Metadata}
    (h : ∀ md ∈ mds, md.name = name → md.value ≠ "") : metadataValue name mds = "" ↔ ¬ ∃ md ∈ mds, md.name = name := by
  induction mds with
  | nil => simp [metadataValue]
  | cons md mds ih =>
    rw [metadataValue, List.exists_mem_cons_iff]
    by_cases hn : md.name = name
    · simp [hn, h md (by simp) hn]
    · rw [if_neg hn, ih fun x hx => h x (by simp [hx])]
      simp [hn]

theorem decoded_ids (hw : ca.KeptWhole) :
    ((decodedMetadata locAttr (createdAttr now ca)).filter fun md => md.name == NGSI_MD_ID) =
      if ca.getId = "" then [] else [⟨NGSI_MD_ID, "string", ca.getId⟩] := by
  rw [decodedMetadata_created hw, List.filter_append, List.filter_append, filter_custom_special (by decide)]
  by_cases hid : ca.getId = "" <;> by_cases hl : locAttr = ca.name <;>
    simp [hid, hl, show NGSI_MD_LOCATION ≠ NGSI_MD_ID by decide]

theorem decoded_locations (hw : ca.KeptWhole) :
    ((decodedMetadata locAttr (createdAttr now ca)).filter fun md => md.name == NGSI_MD_LOCATION) =
      if locAttr = ca.name then [⟨NGSI_MD_LOCATION, "string", LOCATION_WGS84⟩] else [] := by
  rw [decodedMetadata_created hw, List.filter_append, List.filter_append, filter_custom_special (by decide)]
  by_cases hid : ca.getId = "" <;> by_cases hl : locAttr = ca.name <;>
    simp [hid, hl, show NGSI_MD_ID ≠ NGSI_MD_LOCATION by decide]

theorem decoded_customs (hw : ca.KeptWhole) :
    ((decodedMetadata locAttr (createdAttr now ca)).filter fun md => !isNotCustomMetadata md.name) =
      ca.metadataVector.filter fun md => !isNotCustomMetadata md.name := by
  rw [decodedMetadata_created hw, List.filter_append, List.filter_append, List.filter_filter]
  by_cases hid : ca.getId = "" <;> by_cases hl : locAttr = ca.name <;>
    simp [hid, hl, show isNotCustomMetadata NGSI_MD_ID = true by decide,
      show isNotCustomMetadata NGSI_MD_LOCATION = true by decide]

theorem created_givenBack (hw : ca.SentWhole) (h : ca.hasContent = true) (hl : locAttr = ca.name ↔ ca.Marked) :
    ∃ a, contextAttributeOf locAttr [] includeEmpty (createdAttr now ca) = some a ∧ GivenBack ca a := by
  obtain ⟨value, d, hdec, hstr, hcomp⟩ := @decodedValue_valueBson ca includeEmpty hw.value h
  have hk := hw.toKeptWhole
  have hincl : includedAttribute (strField (createdAttr now ca).name) [] = true := rfl
  have hval : (createdAttr now ca).value = valueBson ca := rfl
  refine ⟨_, by rw [contextAttributeOf, if_pos hincl, hval, hdec, Option.map_some], ?_⟩
  refine ⟨hk.key.name.cString, hk.type.cString, hstr, hcomp, decoded_customs hk, decoded_ids hk, fun hs => ?_,
    fun hm => ?_, fun hm => ?_⟩
  · rw [show (∃ md ∈ ca.metadataVector, md.name = NGSI_MD_ID) ↔ ca.getId ≠ "" from
      (not_iff_comm.1 (metadataValue_eq_empty_iff hs).symm).symm]
    have hmem : (∃ md ∈ decodedMetadata locAttr (createdAttr now ca), md.name = NGSI_MD_ID) ↔
        ((decodedMetadata locAttr (createdAttr now ca)).filter fun md => md.name == NGSI_MD_ID) ≠ [] := by
      simp [List.filter_eq_nil_iff]
    rw [hmem, decoded_ids hk]
    by_cases hid : ca.getId = "" <;> simp [hid]
  · rw [decoded_locations hk, if_pos (hl.2 hm)]
  · rw [decoded_locations hk, if_neg fun he => hm (hl.1 he)]

theorem noNul_decodedMetadata (locAttr : String) (x : AttrDoc) : ∀ md ∈ decodedMetadata locAttr x, md.NoNul := by
  intro md hm
  unfold decodedMetadata at hm
  rcases List.mem_append.1 hm with hm | hm
  · rcases List.mem_append.1 hm with hm | hm
    · split at hm
      · rw [List.mem_singleton.1 hm]
        exact ⟨(by decide : NoNul NGSI_MD_ID), (by decide : NoNul "string"), noNul_cString _⟩
      · cases hm
    · split at hm
      · rw [List.mem_singleton.1 hm]
        decide
      · cases hm
  · obtain ⟨m, _, rfl⟩ := List.mem_map.1 hm
    exact ⟨noNul_cString _, noNul_cString _, noNul_cString _⟩

theorem noNul_decodedValue {v : Option Bson} {value : String} {d : Option CompoundValueNode}
    (h : decodedValue includeEmpty v = some (value, d)) : NoNul value := by
  unfold decodedValue at h
  split at h
  · split at h
    · cases h
    · cases h
      exact noNul_cString _
  · cases h
    exact noNul_empty
  · cases h
    exact noNul_empty
  · cases h

/-- What is given back has been read. -/
theorem GivenBack.sentWhole {attrL : List String} {x : AttrDoc} {a : ContextAttribute}
    (ha : contextAttributeOf locAttr attrL includeEmpty x = some a) (h : GivenBack ca a) : ca.SentWhole := by
  unfold contextAttributeOf at ha
  split at ha
  · obtain ⟨⟨value, d⟩, hdec, rfl⟩ := Option.map_eq_some_iff.1 ha
    have hmds := noNul_decodedMetadata locAttr x
    refine ⟨⟨⟨h.name ▸ noNul_cString _, ?_⟩, h.type ▸ noNul_cString _, fun md hm hc => ?_⟩, fun hn => ?_⟩
    · by_cases hid : ca.getId = ""
      · rw [hid]
        exact noNul_empty
      · have hmem : (⟨NGSI_MD_ID, "string", ca.getId⟩ : Metadata) ∈
            (decodedMetadata locAttr x).filter fun md => md.name == NGSI_MD_ID := by
          rw [h.id, if_neg hid]
          simp
        exact (hmds _ (List.mem_filter.1 hmem).1).value
    · have hmem : md ∈ (decodedMetadata locAttr x).filter fun md => !isNotCustomMetadata md.name := by
        rw [h.custom]
        exact List.mem_filter.2 ⟨hm, by simp [hc]⟩
      exact hmds md (List.mem_filter.1 hmem).1
    · exact (h.string hn).2 ▸ noNul_decodedValue hdec
  · cases ha

end

/-! ## The location mark -/

section
variable {atof : List Char → Rat} {ca : ContextAttribute} {st st' : Loc}

/-- One attribute sets the location exactly when it is marked. -/
theorem processLocationAttr_marked (hn : ca.name ≠ "") (h : processLocationAttr atof ca st = .ok st') :
    (ca.Marked ∧ st'.locAttr = ca.name) ∨ (¬ ca.Marked ∧ st' = st) := by
  unfold processLocationAttr at h
  unfold ContextAttribute.Marked
  generalize ca.metadataVector = mds at h
  induction mds with
  | nil =>
    simp only [List.foldlM_nil] at h
    cases h
    exact .inr ⟨by simp, rfl⟩
  | cons md mds ih =>
    rw [List.foldlM_cons] at h
    rw [List.exists_mem_cons_iff]
    by_cases hloc : md.name = NGSI_MD_LOCATION
    · refine .inl ⟨.inl hloc, ?_⟩
      cases hmd : processLocationMd atof ca st md with
      | error e => rw [hmd] at h; cases h
      | ok st1 =>
        rw [hmd] at h
        have h1 : st1.locAttr = ca.name := by
          unfold processLocationMd at hmd
          rw [if_neg (fun hne => hne hloc)] at hmd
          split at hmd
          · cases hmd
          · split at hmd
            · cases hmd
            · split at hmd <;> cases hmd
              rfl
        rw [(foldlM_located (by rw [h1]; exact hn) h).2, h1]
    · have hok : processLocationMd atof ca st md = .ok st := by simp [processLocationMd, hloc]
      rw [hok] at h
      simpa [hloc] using ih h

/-- The location attribute of a created entity is the one marked. -/
theorem processLocation_marked {caV : List ContextAttribute} {loc : Loc} (hnames : (caV.map ContextAttribute.name).Nodup)
    (hne : ∀ ca ∈ caV, ca.name ≠ "") (h : processLocation atof caV = .ok loc) :
    ∀ ca ∈ caV, loc.locAttr = ca.name ↔ ca.Marked := by
  have hfrom : loc.locAttr = "" ∨ ∃ ca ∈ caV, ca.Marked ∧ loc.locAttr = ca.name := by
    refine foldlM_ok (P := fun st : Loc => st.locAttr = "" ∨ ∃ ca ∈ caV, ca.Marked ∧ st.locAttr = ca.name) ?_ h
      (.inl rfl)
    intro ca hca st st' hst hP
    rcases processLocationAttr_marked (hne ca hca) hst with ⟨hm, hl⟩ | ⟨_, rfl⟩
    · exact .inr ⟨ca, hca, hm, hl⟩
    · exact hP
  intro ca hca
  constructor
  · intro hl
    rcases hfrom with h0 | ⟨cb, hcb, hm, hb⟩
    · exact absurd (hl.symm.trans h0) (hne ca hca)
    · rw [List.inj_on_of_nodup_map hnames hca hcb (hl.symm.trans hb)]
      exact hm
  · intro hm
    -- the attributes before and after it
    obtain ⟨pre, post, rfl⟩ := List.append_of_mem hca
    unfold processLocation at h
    rw [List.foldlM_append] at h
    cases hpre : pre.foldlM (fun st ca => processLocationAttr atof ca st) ({} : Loc) with
    | error e => rw [hpre] at h; cases h
    | ok st1 =>
      rw [hpre] at h
      have h : (ca :: post).foldlM (fun st ca => processLocationAttr atof ca st) st1 = .ok loc := h
      rw [List.foldlM_cons] at h
      cases hca' : processLocationAttr atof ca st1 with
      | error e => rw [hca'] at h; cases h
      | ok st2 =>
        rw [hca'] at h
        have h2 : st2.locAttr = ca.name := by
          rcases processLocationAttr_marked (hne ca hca) hca' with ⟨_, hl⟩ | ⟨hnm, _⟩
          · exact hl
          · exact absurd hm hnm
        refine foldlM_ok (P := fun st : Loc => st.locAttr = ca.name) ?_ h h2
        intro cb _ st3 st4 hcb h3
        rw [(foldlM_located (by rw [h3]; exact hne ca hca) hcb).2]
        exact h3

end

/-! ## The document -/

theorem createdKey_taken {ctx : Ctx} {en : EntityId} (hcan : ∀ path ∈ ctx.servicePathV, CanonicalPath path) :
    QueryTakes ctx en (createdKey ctx en) := by
  refine ⟨rfl, fun ht => if_neg ht, ?_⟩
  unfold PathTaken createdKey
  cases hv : ctx.servicePathV with
  | nil => nofun
  | cons path rest =>
    obtain ⟨p, hp⟩ := hcan path (by simp [hv])
    refine ⟨p, hp, ?_⟩
    show TextTaken p path.toList
    rw [hp]
    -- a path to everything below is one of the paths below
    by_cases hb : ∃ pre, p.Below pre
    · obtain ⟨pre, hpre⟩ := hb
      refine .inr ⟨pre, hpre, .inr (.inr ⟨['#'], ?_⟩)⟩
      rw [ServicePath.chars_of_below hpre]
      simp
    · exact .inl ⟨fun pre hpre => hb ⟨pre, hpre⟩, .inl rfl⟩

theorem createdDoc_locAttr (ctx : Ctx) (en : EntityId) (caV : List ContextAttribute) (loc : Loc) :
    strField ((createdDoc ctx en caV loc).location.map LocDoc.attrName) = cString loc.locAttr := by
  unfold createdDoc locField
  by_cases h : loc.locAttr = "" <;> simp [h, cString_empty]

theorem forall₂_filterMap {α β γ : Type} {R : α → γ → Prop} {f : β → Option γ} {g : α → β} {l : List α}
    (h : ∀ x ∈ l, ∃ z, f (g x) = some z ∧ R x z) : List.Forall₂ R l ((l.map g).filterMap f) := by
  induction l with
  | nil => exact .nil
  | cons x l ih =>
    obtain ⟨z, hz, hr⟩ := h x (by simp)
    rw [List.map_cons, List.filterMap_cons, hz]
    exact .cons hr (ih fun y hy => h y (by simp [hy]))

/-- Every attribute given back comes from one of the array. -/
theorem forall₂_sentWhole {locAttr : String} {attrL : List String} {includeEmpty : Bool} {attrs : List AttrDoc}
    {caV : List ContextAttribute}
    (h : List.Forall₂ GivenBack caV (attrs.filterMap (contextAttributeOf locAttr attrL includeEmpty))) :
    ∀ ca ∈ caV, ca.SentWhole := by
  intro ca hca
  obtain ⟨n, hn⟩ := List.getElem?_of_mem hca
  obtain ⟨hlen, hall⟩ := List.forall₂_iff_get.1 h
  obtain ⟨hlt, rfl⟩ := List.getElem?_eq_some_iff.1 hn
  have hback := hall n hlt (by rw [← hlen]; exact hlt)
  obtain ⟨x, _, hx⟩ := List.mem_filterMap.1 (List.get_mem _ ⟨n, by rw [← hlen]; exact hlt⟩)
  exact hback.sentWhole hx

/-- **Store and query.** An APPEND that `createEntity` accepts, whose attributes have different names and each a
non-empty string or a compound value: the query for the entity, where nothing else answers it, gives one
element with the entity and its attributes in the order of the request exactly when the id and the type of the entity and
the attributes have no NUL. -/
theorem created_roundTrip_iff {env : Env} {ctx : Ctx} {en : EntityId} {caV : List ContextAttribute} {w w' : World}
    {includeEmpty : Bool} {limit : Nat} (hlen : ctx.servicePathV.length ≤ 1)
    (hcan : ∀ path ∈ ctx.servicePathV, CanonicalPath path) (hpat : en.isPattern ≠ "true") (hlimit : 0 < limit)
    (hnames : (caV.map ContextAttribute.name).Nodup) (hne : ∀ ca ∈ caV, ca.name ≠ "")
    (hcontent : ∀ ca ∈ caV, ca.hasContent = true) (hcreated : (createEntity env ctx en caV w).1 = .created)
    (hold : ∀ d ∈ w.entities.docs, env.selects (entitiesSelector [en] [] ctx.servicePathV) d = false)
    (hw' : w'.entities = (createEntity env ctx en caV w).2.entities) (hcall : w'.call.1.queryError = none) :
    (∃ cer, (entitiesQuery env ctx.tenant [en] [] includeEmpty ctx.servicePathV 0 limit w').1 = .ok [cer] ∧
      cer.entityId = { id := en.id, type := en.type, isPattern := "false",
                       servicePath := ctx.servicePathV.head?.getD "" } ∧
      List.Forall₂ GivenBack caV cer.contextAttributeVector) ↔
    NoNul en.id ∧ NoNul en.type ∧ ∀ ca ∈ caV, ca.SentWhole := by
  have hstep := createEntity_step env ctx en caV w
  rw [hcreated] at hstep
  cases hstep with
  | created loc _ hloc hins _ =>
    have hsel : env.selects (entitiesSelector [en] [] ctx.servicePathV) (createdDoc ctx en caV loc) = true :=
      (entitiesSelector_iff hpat hlen hcan [] (createdDoc ctx en caV loc)).2 ⟨createdKey_taken hcan, by simp⟩
    have hfind : w'.entities.find (env.selects (entitiesSelector [en] [] ctx.servicePathV)) =
        [createdDoc ctx en caV loc] := by
      have hnone : w.entities.docs.filter (env.selects (entitiesSelector [en] [] ctx.servicePathV)) = [] :=
        List.filter_eq_nil_iff.2 fun d hd h => Bool.false_ne_true ((hold d hd).symm.trans h)
      rw [Collection.find, hw', Collection.docs_insert hins, List.filter_append, hnone]
      simp [hsel]
    have hcompiles : (entitiesSelector [en] [] ctx.servicePathV).compiles env.engine = true :=
      entitiesSelector_compiles_iff.2 ⟨by simp, fun e he hp => absurd hp (List.mem_singleton.1 he ▸ hpat),
        fillQueryServicePath_compiles env.engine hcan⟩
    have hcursor : entitiesFind env w' [en] [] ctx.servicePathV 0 limit = [createdDoc ctx en caV loc] := by
      unfold entitiesFind
      rw [show w'.entities.find (fun d => (entitiesSelector [en] [] ctx.servicePathV).matches env.engine d.toBson) =
        _ from hfind]
      simp only [entitiesCursor, List.insertionSort_cons, List.insertionSort_nil, List.orderedInsert_nil,
        List.drop_zero]
      exact List.take_of_length_le hlimit
    have hanswer : (entitiesQuery env ctx.tenant [en] [] includeEmpty ctx.servicePathV 0 limit w').1 =
        .ok [contextElementResponseOf [] includeEmpty (createdDoc ctx en caV loc)] := by
      unfold entitiesQuery
      simp only [hcall, entitiesResponses_of_compiles hcompiles, hcursor, List.map_cons, List.map_nil]
    have hentity : (contextElementResponseOf [] includeEmpty (createdDoc ctx en caV loc)).entityId =
        { id := cString en.id, type := cString en.type, isPattern := "false",
          servicePath := ctx.servicePathV.head?.getD "" } := by
      have htype : strField (createdKey ctx en).type = cString en.type := by
        unfold createdKey
        by_cases ht : en.type = "" <;> simp [ht, cString_empty]
      have hpath : strField (createdKey ctx en).servicePath = ctx.servicePathV.head?.getD "" := by
        unfold createdKey
        cases hv : ctx.servicePathV with
        | nil => exact cString_empty
        | cons path rest => exact (hcan path (by simp [hv])).noNul.cString
      unfold contextElementResponseOf
      simp only [createdDoc, htype, hpath]
      rfl
    rw [hanswer]
    constructor
    · rintro ⟨cer, hcer, hen, hback⟩
      simp only [Except.ok.injEq, List.cons.injEq, and_true] at hcer
      subst hcer
      rw [hentity, EntityId.mk.injEq] at hen
      exact ⟨hen.1 ▸ noNul_cString _, hen.2.1 ▸ noNul_cString _, forall₂_sentWhole hback⟩
    · rintro ⟨hid, htype, hwhole⟩
      refine ⟨_, rfl, by rw [hentity, hid.cString, htype.cString], ?_⟩
      have hmark := processLocation_marked hnames hne hloc
      show List.Forall₂ GivenBack caV (List.filterMap _ _)
      rw [createdDoc_locAttr, (processLocation_noNul (fun ca hca => (hwhole ca hca).key) hloc).cString]
      exact forall₂_filterMap fun ca hca => created_givenBack (hwhole ca hca) (hcontent ca hca) (hmark ca hca)

/-- A car under `/a`: its marked position, and its doors as a vector with an object and a string. -/
def carStored : List ContextAttribute := [
  { name := "position", type := "coords", value := "40.4, -3.7",
    metadataVector := [⟨"location", "string", "WGS84"⟩, ⟨"accuracy", "", "5"⟩, ⟨"ID", "", "gps"⟩] },
  { name := "doors",
    compoundValueP := some (.mk .vector "toplevel" "" [
      .mk .object "item" "" [.mk .string "side" "left" [], .mk .vector "locks" "" [.mk .string "item" "on" []]],
      .mk .string "item" "rear" []]) }]

theorem carStored_roundTrip :
    (createEntity (Env.plain fun _ _ => false) { action := "APPEND", servicePathV := ["/a"] } { id := "Car" }
      carStored {}).1 = .created ∧
    ∀ includeEmpty, ∃ cer, (entitiesQuery (Env.plain fun _ _ => false) "" [{ id := "Car" }] [] includeEmpty ["/a"] 0 20
        (createEntity (Env.plain fun _ _ => false) { action := "APPEND", servicePathV := ["/a"] } { id := "Car" }
          carStored {}).2).1 = .ok [cer] ∧
      cer.entityId = { id := "Car", isPattern := "false", servicePath := "/a" } ∧
      List.Forall₂ GivenBack carStored cer.contextAttributeVector := by
  have hc : (createEntity (Env.plain fun _ _ => false) { action := "APPEND", servicePathV := ["/a"] } { id := "Car" }
      carStored {}).1 = .created := by decide +kernel
  have hwhole : ∀ ca ∈ carStored, ca.SentWhole := by
    intro ca hca
    simp only [carStored, List.mem_cons, List.not_mem_nil, or_false] at hca
    rcases hca with rfl | rfl
    · exact ⟨⟨by decide +kernel, by decide +kernel, by decide +kernel⟩, fun _ => by decide +kernel⟩
    · exact ⟨⟨by decide +kernel, by decide +kernel, by decide +kernel⟩, fun h => by cases h⟩
  refine ⟨hc, fun includeEmpty => ?_⟩
  refine (@created_roundTrip_iff (Env.plain fun _ _ => false) { action := "APPEND", servicePathV := ["/a"] } { id := "Car" }
    carStored {} _ includeEmpty 20 (by decide) ?_ (by decide) (by decide) (by decide) (by decide) (by decide) hc
    (fun d hd => absurd hd List.not_mem_nil) rfl (by decide +kernel)).2 ⟨by decide, by decide, hwhole⟩
  intro path hp
  rw [List.mem_singleton.1 hp]
  exact canonical_a

/-- **A value that comes back cut**: `a\x00b` is stored, and the query answers `a`. -/
theorem nulStored_cut :
    (createEntity (Env.plain fun _ _ => false) { action := "APPEND" } { id := "Car" }
      [{ name := "t", value := "a\x00b" }] {}).1 = .created ∧
    ¬ ∃ cer, (entitiesQuery (Env.plain fun _ _ => false) "" [{ id := "Car" }] [] true [] 0 20
        (createEntity (Env.plain fun _ _ => false) { action := "APPEND" } { id := "Car" }
          [{ name := "t", value := "a\x00b" }] {}).2).1 = .ok [cer] ∧
      List.Forall₂ GivenBack [{ name := "t", value := "a\x00b" }] cer.contextAttributeVector := by
  refine ⟨by decide +kernel, ?_⟩
  rintro ⟨cer, hcer, hback⟩
  have hvalues : (entitiesQuery (Env.plain fun _ _ => false) "" [{ id := "Car" }] [] true [] 0 20
      (createEntity (Env.plain fun _ _ => false) { action := "APPEND" } { id := "Car" }
        [{ name := "t", value := "a\x00b" }] {}).2).1.toOption.map
          (List.map fun cer => cer.contextAttributeVector.map ContextAttribute.value) = some [["a"]] := by
    decide +kernel
  rw [hcer] at hvalues
  have hcut : cer.contextAttributeVector.map ContextAttribute.value = ["a"] := by simpa [Except.toOption] using hvalues
  generalize cer.contextAttributeVector = back at hback hcut
  cases hback with
  | cons h _ =>
    have hval := (h.string rfl).2
    rw [List.map_cons, List.cons.injEq] at hcut
    exact absurd (hval.symm.trans hcut.1) (by decide)

end OrionBroker
