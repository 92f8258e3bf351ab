import OrionBroker.Lib.Replay
import OrionBroker.Update.Carried

/-!
# One attribute of a request, without the error texts

`processAction` refuses an attribute or changes three things: the array, the location, the flag
`entityModified`. Each of them depends on its own part of the working copies only, and
`processAction_toOption` says how. The laws about whole vectors are proved on this description.

| here | there |
| --- | --- |
| `takes`     | the tests on the array: `updateAttribute` and `deleteAttribute` found the attribute, `legalIdUsage` |
| `locAfter`  | "Check aspects related with location" (MongoCommonUpdate.cpp:1206-1229, :1240-1262, :1283-1297) |
| `modifies`  | what is or-ed into `entityModified` |
| `looksUp`   | `actualUpdate` when the subscriptions are looked up (:1318) |
| `runStep`   | one iteration, on the working copies and the names looked up so far |
-/

namespace OrionBroker

open Mongo

/-! ## The parts -/

def takes (action : UpdateAction) (attrs : List AttrDoc) (ca : ContextAttribute) : Bool :=
  match action with
  | .update => decide (ca.key ∈ attrs.map AttrDoc.key)
  | .append => legalIdUsage attrs ca
  | .delete => decide (ca.key ∈ attrs.map AttrDoc.key)
  | .unknown => false

/-- The location of an attribute's coordinates, when they can be read. -/
def locatedAt (atof : List Char → Rat) (ca : ContextAttribute) : Option Loc :=
  (coords atof ca.value).map fun c => ⟨ca.name, c.1, c.2⟩

/-- `none` is an error. -/
def locAfter (atof : List Char → Rat) (action : UpdateAction) (ca : ContextAttribute) (loc : Loc) : Option Loc :=
  match action with
  | .update =>
    if ca.getLocation ≠ "" ∧ ca.name ≠ loc.locAttr then none
    else if loc.locAttr = ca.name then locatedAt atof ca
    else some loc
  | .append =>
    if ca.getLocation = "" then some loc
    else if loc.locAttr ≠ "" ∧ ca.name ≠ loc.locAttr then none
    else if ca.getLocation ≠ LOCATION_WGS84 ∧ ca.getLocation ≠ LOCATION_WGS84_LEGACY then none
    else locatedAt atof ca
  | .delete =>
    if ca.getLocation ≠ "" then none
    else if loc.locAttr = ca.name then some { loc with locAttr := "" }
    else some loc
  | .unknown => none

def modifies (now : Int) (action : UpdateAction) (attrs : List AttrDoc) (ca : ContextAttribute) : Bool :=
  match action with
  | .update => (updateAttribute now attrs ca).2.2
  | .append => (appendAttribute now attrs ca).2
  | .delete => true
  | .unknown => false

def looksUp (now : Int) (action : UpdateAction) (attrs : List AttrDoc) (ca : ContextAttribute) : Bool :=
  match action with
  | .update => (updateAttribute now attrs ca).2.2
  | _ => true

/-! ## The whole -/

section
variable {env : Env} {ctx : Ctx} {now : Int} {eP : EntityId} {ca : ContextAttribute} {work : Work}

/-- `string2coords` as it is used: the coordinates of the value, or an error. -/
theorem string2coords_cases (atof : List Char → Rat) (ca : ContextAttribute) (latitude longitude : Rat) :
    (∃ lat long, string2coords atof ca.value latitude longitude = (true, lat, long) ∧
      locatedAt atof ca = some ⟨ca.name, lat, long⟩) ∨
    (∃ lat long, string2coords atof ca.value latitude longitude = (false, lat, long) ∧
      locatedAt atof ca = none) := by
  obtain ⟨h1, h2⟩ := string2coords_eq atof ca.value latitude longitude
  unfold locatedAt
  cases hc : coords atof ca.value with
  | some c => exact .inl ⟨c.1, c.2, h1 c hc, rfl⟩
  | none =>
    exact .inr ⟨(string2coords atof ca.value latitude longitude).2.1,
      (string2coords atof ca.value latitude longitude).2.2, by rw [← h2 hc], rfl⟩

theorem processUpdate_toOption : (processUpdate env now eP ca work).toOption =
    if takes .update work.attrs ca then
      (locAfter env.atof .update ca work.loc).map fun loc =>
        ({ work with
            attrs := attrsAfter now .update work.attrs ca
            loc := loc
            entityModified := modifies now .update work.attrs ca || work.entityModified },
          looksUp now .update work.attrs ca)
    else none := by
  have hu : (updateAttribute now work.attrs ca).2.1 = takes .update work.attrs ca := by
    rw [Bool.eq_iff_iff, updateAttribute_updated, takes, decide_eq_true_iff]
  unfold processUpdate
  simp only [hu]
  cases takes .update work.attrs ca with
  | false => rfl
  | true =>
    simp only [Bool.not_true, Bool.false_eq_true, if_false, if_true, locAfter]
    split
    · rfl
    · split
      · rename_i hl
        rcases string2coords_cases env.atof ca work.loc.coordLat work.loc.coordLong with
          ⟨lat, long, hs, hc⟩ | ⟨lat, long, hs, hc⟩
        · rw [hs, hc, ← hl]; rfl
        · rw [hs, hc]; rfl
      · rfl

theorem processAppend_toOption : (processAppend env now eP ca work).toOption =
    if takes .append work.attrs ca then
      (locAfter env.atof .append ca work.loc).map fun loc =>
        ({ work with
            attrs := attrsAfter now .append work.attrs ca
            loc := loc
            entityModified := modifies now .append work.attrs ca || work.entityModified },
          looksUp now .append work.attrs ca)
    else none := by
  unfold processAppend
  cases hl : legalIdUsage work.attrs ca with
  | false => simp only [takes, hl, Bool.false_eq_true, if_false]; rfl
  | true =>
    simp only [takes, hl, if_true]
    by_cases hg : ca.getLocation = ""
    · simp only [hg, locAfter, ne_eq, not_true, if_false, if_true]
      rfl
    · simp only [hg, locAfter, ne_eq, not_false_eq_true, if_true, if_false]
      split
      · rfl
      · split
        · rfl
        · rcases string2coords_cases env.atof ca work.loc.coordLat work.loc.coordLong with
            ⟨lat, long, hs, hc⟩ | ⟨lat, long, hs, hc⟩
          · rw [hs, hc]; rfl
          · rw [hs, hc]; rfl

/-- "Deleted" means that some element has the key. -/
theorem deleteLoop_deleted (attrs : List AttrDoc) (deleted : Bool) :
    (deleteLoop ca attrs deleted).2 = (deleted || decide (ca.key ∈ attrs.map AttrDoc.key)) := by
  induction attrs generalizing deleted with
  | nil => simp [deleteLoop]
  | cons a as ih =>
    by_cases h : a.key = ca.key
    · cases deleted <;> simp [deleteLoop, checkAndDelete_of_eq h, ih, h]
    · simp [deleteLoop, checkAndDelete_of_ne h, ih, Ne.symm h]

theorem processDelete_toOption : (processDelete eP ca work).toOption =
    if takes .delete work.attrs ca then
      (locAfter env.atof .delete ca work.loc).map fun loc =>
        ({ work with
            attrs := attrsAfter now .delete work.attrs ca
            loc := loc
            entityModified := modifies now .delete work.attrs ca || work.entityModified },
          looksUp now .delete work.attrs ca)
    else none := by
  have hd : (deleteAttribute work.attrs ca).2 = takes .delete work.attrs ca := deleteLoop_deleted work.attrs false
  unfold processDelete
  simp only [hd, locAfter, modifies]
  split
  · split
    · rfl
    · split <;> rfl
  · rfl

/-- **What one attribute does.** It is taken when the array and the location allow it. -/
theorem processAction_toOption : (processAction env ctx eP ca work).toOption =
    if takes (updateAction ctx.action) work.attrs ca then
      (locAfter env.atof (updateAction ctx.action) ca work.loc).map fun loc =>
        ({ work with
            attrs := attrsAfter ctx.now (updateAction ctx.action) work.attrs ca
            loc := loc
            entityModified := modifies ctx.now (updateAction ctx.action) work.attrs ca || work.entityModified },
          looksUp ctx.now (updateAction ctx.action) work.attrs ca)
    else none := by
  unfold processAction
  cases ha : updateAction ctx.action with
  | update => exact processUpdate_toOption
  | append => exact processAppend_toOption
  | delete => exact processDelete_toOption
  | unknown => rfl

end

/-! ## Copies

An element is copied at every step that does not address it. A second copy changes nothing, and no step can
tell an element from its copy. -/

/-- A request attribute that UPDATE and APPEND take: with a value (:1575). -/
def ContextAttribute.HasValue (ca : ContextAttribute) : Prop := ca.compoundValueP.isSome = true ∨ ca.value ≠ ""

section
variable {now : Int} {a : AttrDoc} {ca : ContextAttribute}

@[simp] theorem copyValue_copyValue (v : Option Bson) : copyValue (copyValue v) = copyValue v := by
  cases v with
  | none => rfl
  | some b => cases b <;> rfl

@[simp] theorem copyValue_valueBson : copyValue (valueBson ca) = valueBson ca := by
  unfold valueBson
  split
  · rfl
  · rename_i node _
    obtain ⟨type, name, value, childV⟩ := node
    cases type <;> simp [nodeBson, copyValue]

theorem copyId_eq_of_id {b : AttrDoc} (h : b.id = copyId a) : copyId b = copyId a := by
  rw [copyId, h, strField_copyId, copyId]

theorem map_cString_map_cString (f : Option String) : (f.map cString).map cString = f.map cString := by
  cases f with
  | none => rfl
  | some s => exact congrArg some (cString_cString s)

/-- A metadata vector without NUL is copied as it is. -/
theorem bsonCustomMetadata_of_noNul {l : List MdDoc} (hl : ∀ m ∈ l, m.NoNul) (h : a.md = mdField l) :
    bsonCustomMetadataToBson a = mdField l := by
  rw [bsonCustomMetadataToBson, h]
  unfold mdField
  by_cases hn : l.length > 0 <;> simp [hn, map_read_of_noNul hl]

/-- A second copy of the metadata. -/
theorem bsonCustomMetadata_copy {b : AttrDoc} (h : b.md = bsonCustomMetadataToBson a) :
    bsonCustomMetadataToBson b = bsonCustomMetadataToBson a := by
  cases hmd : a.md with
  | none =>
    have hnone : bsonCustomMetadataToBson a = none := by rw [bsonCustomMetadataToBson, hmd]; rfl
    rw [bsonCustomMetadataToBson, h, hnone]
    rfl
  | some l =>
    have hsome : bsonCustomMetadataToBson a = mdField (l.map MdDoc.read) := by rw [bsonCustomMetadataToBson, hmd]; rfl
    rw [hsome] at h ⊢
    exact bsonCustomMetadata_of_noNul (fun m hm => noNul_of_mem_read hm) h

/-- An element that has what its copy reads is its copy. -/
theorem copiedAttr_eq_of {x : AttrDoc} (hname : x.name.map cString = x.name) (hset : x.name.isSome = true)
    (hid : copyId x = x.id) (htype : x.type.map cString = x.type) (hmd : bsonCustomMetadataToBson x = x.md)
    (hval : copyValue x.value = x.value) : copiedAttr x = x := by
  obtain ⟨s, hs⟩ := Option.isSome_iff_exists.1 hset
  have hn : some (strField x.name) = x.name := by rw [← hname, hs]; exact congrArg some (cString_cString s)
  rw [copiedAttr, hn, hid, htype, hmd, hval]

@[simp] theorem copiedAttr_copied : copiedAttr (copiedAttr a) = copiedAttr a := by
  apply copiedAttr_eq_of
  · exact congrArg some (cString_strField a.name)
  · rfl
  · exact copyId_eq_of_id rfl
  · exact map_cString_map_cString a.type
  · exact bsonCustomMetadata_copy rfl
  · exact copyValue_copyValue a.value

theorem copiedAttr_updated (hw : ca.KeptWhole) : copiedAttr (updatedAttr now a ca) = updatedAttr now a ca := by
  apply copiedAttr_eq_of
  · exact congrArg some (cString_strField a.name)
  · rfl
  · exact copyId_eq_of_id rfl
  · by_cases ht : ca.type ≠ ""
    · simp only [updatedAttr, if_pos ht, Option.map_some, hw.type.cString]
    · simp only [updatedAttr, if_neg ht, map_cString_map_cString]
  · exact bsonCustomMetadata_of_noNul (noNul_newMetadata hw.md) rfl
  · exact copyValue_valueBson

theorem copiedAttr_appended (hw : ca.KeptWhole) : copiedAttr (appendedAttr now ca) = appendedAttr now ca := by
  apply copiedAttr_eq_of
  · exact congrArg some hw.key.name.cString
  · rfl
  · unfold copyId appendedAttr
    by_cases h : ca.getId = "" <;> simp [h, hw.key.id.cString]
  · exact congrArg some hw.type.cString
  · refine bsonCustomMetadata_of_noNul (fun m hm => ?_) rfl
    obtain ⟨md, hmd, rfl⟩ := List.mem_map.1 hm
    obtain ⟨hmem, hc⟩ := List.mem_filter.1 hmd
    have hn := hw.md md hmem (by simpa using hc)
    refine ⟨hn.name, ?_, hn.value⟩
    rintro t ⟨⟩
    exact hn.type
  · exact copyValue_valueBson

theorem isActualUpdate_copied (hv : ca.HasValue) : isActualUpdate (copiedAttr a) ca = isActualUpdate a ca := by
  cases hc : ca.compoundValueP with
  | some node => simp [isActualUpdate, hc]
  | none =>
    have hne : ca.value ≠ "" := by
      rcases hv with h | h
      · rw [hc] at h; cases h
      · exact h
    rw [Bool.eq_iff_iff, isActualUpdate_iff hc hne, isActualUpdate_iff hc hne, changes_copied]

theorem updatedAttr_copied (hv : ca.HasValue) : updatedAttr now (copiedAttr a) ca = updatedAttr now a ca := by
  have hid : copyId (copiedAttr a) = copyId a := copyId_eq_of_id rfl
  have hmd : newMetadata (copiedAttr a) ca = newMetadata a ca := by
    have hcopy : (copiedAttr a).md.getD [] = (a.md.getD []).map MdDoc.read := getD_bsonCustomMetadataToBson a
    rw [newMetadata, newMetadata, hcopy, keptMetadata, keptMetadata, List.map_map]
    simp [Function.comp_def]
  have hname : strField (copiedAttr a).name = strField a.name := cString_strField a.name
  have htype : (copiedAttr a).type.map cString = a.type.map cString := map_cString_map_cString a.type
  rw [updatedAttr, hid, hmd, isActualUpdate_copied hv, hname, htype]
  rfl

@[simp] theorem keptAttr_kept : keptAttr (keptAttr a) = keptAttr a := by
  have hid : copyId (keptAttr a) = copyId a := copyId_eq_of_id rfl
  have hmd : bsonCustomMetadataToBson (keptAttr a) = bsonCustomMetadataToBson a := bsonCustomMetadata_copy rfl
  have hname : strField (keptAttr a).name = strField a.name := cString_strField a.name
  have htype : strField (keptAttr a).type = strField a.type := cString_strField a.type
  have hvalue : strValue (keptAttr a).value = strValue a.value := by
    show cString (strValue a.value) = _
    unfold strValue
    split
    · exact cString_cString _
    · exact cString_empty
  rw [keptAttr, hid, hmd, hname, htype, hvalue]
  rfl

/-- The element that UPDATE and APPEND leave in the place of `a` is a copy already. -/
theorem copiedAttr_checkAndUpdate (hw : ca.KeptWhole) :
    copiedAttr (checkAndUpdate now a ca).1 = (checkAndUpdate now a ca).1 := by
  unfold checkAndUpdate
  split
  · exact copiedAttr_updated hw
  · exact copiedAttr_copied

theorem checkAndUpdate_copied (hv : ca.HasValue) : checkAndUpdate now (copiedAttr a) ca = checkAndUpdate now a ca := by
  by_cases h : a.key = ca.key
  · rw [checkAndUpdate_of_eq h, checkAndUpdate_of_eq (by rw [copiedAttr_key, h]), updatedAttr_copied hv,
      isActualUpdate_copied hv]
  · rw [checkAndUpdate_of_ne h, checkAndUpdate_of_ne (by rw [copiedAttr_key]; exact h), copiedAttr_copied]

/-- Two attributes with different keys, in either order. -/
theorem checkAndUpdate_comm {cb : ContextAttribute} (ha : ca.HasValue) (hb : cb.HasValue) (hwa : ca.KeptWhole)
    (hwb : cb.KeptWhole) (hk : ca.key ≠ cb.key) :
    (checkAndUpdate now (checkAndUpdate now a ca).1 cb).1 = (checkAndUpdate now (checkAndUpdate now a cb).1 ca).1 := by
  by_cases hca : a.key = ca.key
  · have hne : a.key ≠ cb.key := by rw [hca]; exact hk
    rw [checkAndUpdate_of_eq hca, checkAndUpdate_of_ne (by rw [updatedAttr_key]; exact hne),
      checkAndUpdate_of_ne hne, checkAndUpdate_copied ha, checkAndUpdate_of_eq hca]
    exact copiedAttr_updated hwa
  · rw [checkAndUpdate_of_ne hca, checkAndUpdate_copied hb]
    by_cases hcb : a.key = cb.key
    · rw [checkAndUpdate_of_eq hcb, checkAndUpdate_of_ne (by rw [updatedAttr_key]; exact hca)]
      exact (copiedAttr_updated hwb).symm
    · rw [checkAndUpdate_of_ne hcb, checkAndUpdate_copied ha, checkAndUpdate_of_ne hca]

end

/-! ## The run of a vector -/

/-- One iteration; the lookups only need the names. -/
def runStep (env : Env) (now : Int) (action : UpdateAction) (ca : ContextAttribute) (s : Work × List String) :
    Option (Work × List String) :=
  if takes action s.1.attrs ca then
    (locAfter env.atof action ca s.1.loc).map fun loc =>
      ({ s.1 with
          attrs := attrsAfter now action s.1.attrs ca
          loc := loc
          entityModified := modifies now action s.1.attrs ca || s.1.entityModified },
        if looksUp now action s.1.attrs ca then s.2 ++ [ca.name] else s.2)
  else none

section
variable {env : Env} {ctx : Ctx} {eP : EntityId}

theorem runStep_eq (ca : ContextAttribute) (work : Work) (names : List String) :
    runStep env ctx.now (updateAction ctx.action) ca (work, names) =
      (processAction env ctx eP ca work).toOption.map fun r =>
        (r.1, if r.2 then names ++ [ca.name] else names) := by
  rw [processAction_toOption, runStep]
  split
  · rw [Option.map_map]; rfl
  · rfl

/-- The loop without lookups is the run of its steps. -/
theorem attributeRun_toOption (caV : List ContextAttribute) (work : Work) (names : List String) :
    Replay.run (runStep env ctx.now (updateAction ctx.action)) caV (work, names) =
      (attributeRun env ctx eP caV work).toOption.map fun r => (r.1, names ++ r.2) := by
  induction caV generalizing work names with
  | nil => simp [attributeRun, Except.toOption]
  | cons ca caV ih =>
    rw [Replay.run_cons, @runStep_eq env ctx eP, attributeRun]
    cases processAction env ctx eP ca work with
    | error f => rfl
    | ok r =>
      obtain ⟨work1, flag⟩ := r
      simp only [Except.toOption, Option.map_some, Option.bind_some, ih]
      cases attributeRun env ctx eP caV work1 with
      | error f => rfl
      | ok r1 => cases flag <;> simp

/-- When every call succeeds, the result of the loop is the run with the subscriptions it looks up. -/
theorem processContextAttributeVector_toOption {w : World} (ho : w.outcomes = []) (caV : List ContextAttribute)
    (work : Work) :
    (processContextAttributeVector env ctx eP caV work w).result.toOption =
      (Replay.run (runStep env ctx.now (updateAction ctx.action)) caV (work, [])).map fun s =>
        { s.1 with subs := collect env ctx eP w s.2 work.subs } := by
  rw [@attributeRun_toOption env ctx eP]
  cases hr : attributeRun env ctx eP caV work with
  | ok r =>
    obtain ⟨final, names⟩ := r
    rw [processContextAttributeVector_of_run ho hr]
    rfl
  | error f =>
    cases hv : (processContextAttributeVector env ctx eP caV work w).result with
    | error f' => rfl
    | ok final =>
      obtain ⟨names, hrun, _⟩ := processContextAttributeVector_run hv
      rw [hr] at hrun
      cases hrun

end

end OrionBroker
