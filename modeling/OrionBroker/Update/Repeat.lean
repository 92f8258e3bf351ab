import OrionBroker.Update.Order

/-!
# Repeating an UPDATE or an APPEND

After a vector was taken, every element it addressed is `Settled`: the tests of "It was an actual update?"
(MongoCommonUpdate.cpp:387-411) see no change when the same attribute comes again. The three ways to write an
element differ in the metadata they store: an update leaves the request's items in front of the kept ones
(:341-378), an appended or created element has every type written out (:549). Settled elements stay settled,
so a repetition takes every attribute again, and modifies nothing. The tests compare what `STR_FIELD` reads with the
request: a name, an ID, a value or a type with a NUL is another one each time (`repetition_silent_iff`).
-/

namespace OrionBroker

open Mongo

/-! ## Equal elements -/

/-- An item as it is read: a missing type is an empty one. -/
def MdDoc.view (m : MdDoc) : String × String × String := (m.name, strField m.type, m.value)

/-- The elements are equal up to the order of the metadata and the presence of their types. -/
structure SameAttr (a b : AttrDoc) : Prop where
  name : a.name = b.name
  type : a.type = b.type
  value : a.value = b.value
  id : a.id = b.id
  md : ((a.md.getD []).map MdDoc.view).Perm ((b.md.getD []).map MdDoc.view)
  creDate : a.creDate = b.creDate
  modDate : a.modDate = b.modDate

theorem SameAttr.refl (a : AttrDoc) : SameAttr a a := ⟨rfl, rfl, rfl, rfl, .refl _, rfl, rfl⟩

theorem SameAttr.trans {a b c : AttrDoc} (h : SameAttr a b) (h' : SameAttr b c) : SameAttr a c :=
  ⟨h.name.trans h'.name, h.type.trans h'.type, h.value.trans h'.value, h.id.trans h'.id, h.md.trans h'.md,
   h.creDate.trans h'.creDate, h.modDate.trans h'.modDate⟩

section
variable {ca : ContextAttribute} {mds : List MdDoc}

end

/-! ## Settled elements -/

/-- The element has what the request gives, as the tests see it, and its metadata are read whole. -/
structure Settled (ca : ContextAttribute) (a : AttrDoc) : Prop where
  whole : ∀ m ∈ a.md.getD [], m.NoNul
  value : a.value = some (.str ca.value)
  type : ca.type ≠ "" → a.type = some ca.type
  items : (newMetadata a ca).map MdDoc.view = (a.md.getD []).map MdDoc.view
  equal : equalMetadataVectors (a.md.getD []) (newMetadata a ca) = true

section
variable {now : Int} {ca : ContextAttribute} {a : AttrDoc}

theorem Settled.copied (h : Settled ca a) (hw : ca.KeptWhole) : Settled ca (copiedAttr a) := by
  have hmd : (copiedAttr a).md.getD [] = a.md.getD [] :=
    (getD_bsonCustomMetadataToBson a).trans (map_read_of_noNul h.whole)
  have hnew : newMetadata (copiedAttr a) ca = newMetadata a ca := by rw [newMetadata, newMetadata, hmd]
  refine ⟨by rw [hmd]; exact h.whole, ?_, fun ht => ?_, by rw [hnew, hmd]; exact h.items, by
    rw [hnew, hmd]; exact h.equal⟩
  · show copyValue a.value = _
    rw [h.value]
    rfl
  · show a.type.map cString = _
    rw [h.type ht, Option.map_some, hw.type.cString]

/-- An item of an appended element: its type is written out. -/
theorem mem_appended {m : MdDoc} : m ∈ (appendedAttr now ca).md.getD [] ↔
    ∃ md ∈ ca.metadataVector, isNotCustomMetadata md.name = false ∧ m = ⟨md.name, some md.type, md.value⟩ := by
  have hmd : (appendedAttr now ca).md.getD [] = _ := getD_mdField _
  rw [hmd]
  simp only [List.mem_map, List.mem_filter, Bool.not_eq_true', and_assoc]
  exact exists_congr fun md => and_congr_right fun _ => and_congr_right fun _ => eq_comm

theorem noNul_appended (hw : ca.KeptWhole) : ∀ m ∈ (appendedAttr now ca).md.getD [], m.NoNul := by
  intro m hm
  obtain ⟨md, hmd, hc, rfl⟩ := mem_appended.1 hm
  have hn := hw.md md hmd hc
  refine ⟨hn.name, ?_, hn.value⟩
  rintro t ⟨⟩
  exact hn.type

end

/-! ## What the first run leaves -/

def UpdateOrAppend (action : UpdateAction) : Prop := action = .update ∨ action = .append

section
variable {env : Env} {now : Int} {action : UpdateAction} {ca cb : ContextAttribute} {attrs : List AttrDoc}
  {caV : List ContextAttribute} {s s' : Work × List String}

theorem runStep_loc (h : runStep env now action ca s = some s') :
    locAfter env.atof action ca s.1.loc = some s'.1.loc := by
  unfold runStep at h
  split at h
  · obtain ⟨loc, hl, rfl⟩ := Option.map_eq_some_iff.1 h
    exact hl
  · cases h

theorem mem_attrsAfter (ha : UpdateOrAppend action) {x : AttrDoc} (h : x ∈ attrsAfter now action attrs ca) :
    (∃ a ∈ attrs, a.key = ca.key ∧ x = updatedAttr now a ca) ∨
    (∃ a ∈ attrs, a.key ≠ ca.key ∧ x = copiedAttr a) ∨ x = appendedAttr now ca := by
  rcases ha with rfl | rfl
  · rcases mem_update h with h | h
    · exact .inl h
    · exact .inr (.inl h)
  · rcases mem_append h with h | h
    · rcases mem_update h with h | h
      · exact .inl h
      · exact .inr (.inl h)
    · exact .inr (.inr h)

/-- `legalIdUsage`: no element of the name has an id when the request has none, or has none when it has. -/
theorem legalIdUsage_iff : legalIdUsage attrs ca = true ↔
    ∀ k ∈ attrs.map AttrDoc.key, k.1 = ca.key.1 → (k.2 = "" ↔ ca.key.2 = "") := by
  refine ⟨legalIdUsage_ids, fun h => ?_⟩
  have hkey : ∀ a ∈ attrs, strField a.name = ca.name → (strField a.id = "" ↔ ca.getId = "") :=
    fun a ha => h a.key (List.mem_map_of_mem ha)
  unfold legalIdUsage
  split
  · rename_i hid
    have : ∀ a ∈ attrs, strField a.name = ca.name → strField a.id = "" := fun a ha hn => (hkey a ha hn).2 hid
    simpa using this
  · rename_i hid
    have : ∀ a ∈ attrs, strField a.name = ca.name → ¬ strField a.id = "" := fun a ha hn e => hid ((hkey a ha hn).1 e)
    simpa using this

end

/-! ## The location under repetition -/

/-- With the location attribute `locAttr` the attribute is taken, and leaves that name. -/
def LocReady (atof : List Char → Rat) (action : UpdateAction) (locAttr : String) (ca : ContextAttribute) : Prop :=
  ∀ loc : Loc, loc.locAttr = locAttr → ∃ loc', locAfter atof action ca loc = some loc' ∧ loc'.locAttr = locAttr

/-- `WGS84`, or its legacy spelling. -/
def IsWGS84 (s : String) : Prop := s = LOCATION_WGS84 ∨ s = LOCATION_WGS84_LEGACY

section
variable {env : Env} {atof : List Char → Rat} {now : Int} {ca cb : ContextAttribute} {caV : List ContextAttribute}
  {s s' : Work × List String} {loc loc' : Loc}

/-- UPDATE keeps the name, and what it takes it takes again. -/
theorem locReady_update (h : locAfter atof .update ca loc = some loc') :
    loc'.locAttr = loc.locAttr ∧ LocReady atof .update loc.locAttr ca := by
  simp only [locAfter] at h
  split at h
  · cases h
  · rename_i hm
    split at h
    · rename_i hn
      obtain ⟨c, hc, rfl⟩ := Option.map_eq_some_iff.1 h
      refine ⟨hn.symm, fun loc2 h2 => ⟨⟨ca.name, c.1, c.2⟩, ?_, hn.symm⟩⟩
      simp only [locAfter, h2]
      rw [if_neg hm, if_pos hn, locatedAt, hc]
      rfl
    · rename_i hn
      cases h
      refine ⟨rfl, fun loc2 h2 => ⟨loc2, ?_, h2⟩⟩
      simp only [locAfter, h2]
      rw [if_neg hm, if_neg hn]

/-- A marked attribute that APPEND takes. -/
theorem locAfter_append_marked (hg : ca.getLocation ≠ "") (h : locAfter atof .append ca loc = some loc') :
    loc'.locAttr = ca.name ∧ IsWGS84 ca.getLocation ∧ ∃ c, coords atof ca.value = some c := by
  simp only [locAfter, hg, if_false] at h
  split at h
  · cases h
  · split at h
    · cases h
    · rename_i hw
      obtain ⟨c, hc, rfl⟩ := Option.map_eq_some_iff.1 h
      refine ⟨rfl, ?_, c, hc⟩
      by_contra hn
      exact hw (not_or.1 hn)

/-- APPEND does not move a location. -/
theorem locAfter_append_keeps (hl : loc.locAttr ≠ "") (h : locAfter atof .append ca loc = some loc') :
    loc'.locAttr = loc.locAttr := by
  by_cases hg : ca.getLocation = ""
  · rw [locAfter_unmarked hg] at h
    cases h
    rfl
  · rw [(locAfter_append_marked hg h).1]
    simp only [locAfter, hg, if_false] at h
    split at h
    · cases h
    · rename_i hn
      by_contra hne
      exact hn ⟨hl, hne⟩

/-- A run of names without NUL leaves one that is read back. -/
theorem run_location_noNul {action : UpdateAction} (ha : UpdateOrAppend action) (hw : ∀ ca ∈ caV, ca.NoNulKey)
    (h : Replay.run (runStep env now action) caV s = some s') (hs : NoNul s.1.loc.locAttr) :
    NoNul s'.1.loc.locAttr := by
  refine Replay.run_invariant (fun ca hca t t' ht hst => ?_)
    (I := fun t : Work × List String => NoNul t.1.loc.locAttr) hs h
  have hloc := runStep_loc hst
  rcases ha with rfl | rfl
  · rw [(locReady_update hloc).1]
    exact ht
  · by_cases hg : ca.getLocation = ""
    · rw [locAfter_unmarked hg, Option.some.injEq] at hloc
      rw [← hloc]
      exact ht
    · rw [(locAfter_append_marked hg hloc).1]
      exact (hw ca hca).name

end

/-! ## The second run -/

section
variable {env : Env} {now : Int} {action : UpdateAction} {ca cb : ContextAttribute} {attrs : List AttrDoc}
  {caV : List ContextAttribute}

/-- An attribute that finds its elements is applied to each of them. -/
theorem attrsAfter_present (ha : UpdateOrAppend action) (hin : ca.key ∈ attrs.map AttrDoc.key) :
    attrsAfter now action attrs ca = attrs.map fun a => (checkAndUpdate now a ca).1 := by
  rcases ha with rfl | rfl
  · exact updateAttribute_attrs now attrs ca
  · show (appendAttribute now attrs ca).1 = _
    rw [appendAttribute_attrs, if_pos (updateAttribute_updated.2 hin), List.append_nil, updateAttribute_attrs]

end

/-! ## The location of a created entity -/

section
variable {atof : List Char → Rat} {ca : ContextAttribute} {st st' : Loc}

/-- A second location item is an error, so there is none. -/
theorem foldlM_located (hl : st.locAttr ≠ "") {mds : List Metadata}
    (h : mds.foldlM (processLocationMd atof ca) st = .ok st') :
    metadataValue NGSI_MD_LOCATION mds = "" ∧ st' = st := by
  induction mds with
  | nil =>
    simp only [List.foldlM_nil] at h
    cases h
    exact ⟨rfl, rfl⟩
  | cons md mds ih =>
    rw [List.foldlM_cons] at h
    by_cases hn : md.name = NGSI_MD_LOCATION
    · have herr : processLocationMd atof ca st md = .error
          "You cannot use more than one location attribute when creating an entity [see Orion user manual]" := by
        simp [processLocationMd, hn, hl]
      rw [herr] at h
      cases h
    · have hok : processLocationMd atof ca st md = .ok st := by simp [processLocationMd, hn]
      rw [hok] at h
      rw [metadataValue, if_neg hn]
      exact ih h

/-- The location attribute of a creation is one of the vector. -/
theorem processLocation_noNul {caV : List ContextAttribute} {loc : Loc} (hw : ∀ ca ∈ caV, ca.NoNulKey)
    (h : processLocation atof caV = .ok loc) : NoNul loc.locAttr := by
  by_cases hne : loc.locAttr = ""
  · rw [hne]
    exact noNul_empty
  · obtain ⟨ca, hca, hn, _⟩ := processLocation_ok h hne
    exact hn ▸ (hw ca hca).name

end

/-! ## The document -/

section
variable {env : Env} {ctx : Ctx} {ce : ContextElement} {r : EntityDoc}

theorem startWork_locAttr (now : Int) {work : Work} (hn : NoNul work.loc.locAttr) :
    (startWork (applyWork now work r)).loc.locAttr = work.loc.locAttr := by
  unfold startWork applyWork locField
  by_cases h : work.loc.locAttr = "" <;> simp [h, hn.cString]

theorem createdAttr_eq_appended (now : Int) (ca : ContextAttribute) : createdAttr now ca = appendedAttr now ca := by
  unfold createdAttr appendedAttr
  by_cases h : ca.getId = "" <;> simp [h]

theorem startWork_noNul (r : EntityDoc) : NoNul (startWork r).loc.locAttr := by
  unfold startWork
  cases r.location with
  | none => exact noNul_empty
  | some l => exact noNul_cString _

end

end OrionBroker
