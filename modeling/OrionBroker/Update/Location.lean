import OrionBroker.Update.Keys

/-!
# The location field and the attribute it copies

The location of a document is a copy of an attribute value, kept by name. It agrees with the data when
the coordinates are those of the current value of an attribute of that name (`LocInv`).

UPDATE refreshes the copy, DELETE drops it, a marked APPEND sets it. An APPEND without the location mark
changes the value of an existing attribute and leaves the copy alone (MongoCommonUpdate.cpp:1220-1275):
`StaleAppend` describes the requests that reach this. A name with a NUL is another name once it is read back, so it
can become that of the location attribute.
-/

namespace OrionBroker

open Mongo

/-- Some attribute has the name, and a string value with the coordinates. -/
def Located (atof : List Char → Rat) (attrs : List AttrDoc) (name : String) (c : Rat × Rat) : Prop :=
  NoNul name ∧ ∃ a ∈ attrs, a.name = some name ∧ ∃ s, a.value = some (.str s) ∧ coords atof s = some c

/-- The location of a document agrees with its attributes. -/
def LocInv (atof : List Char → Rat) (d : EntityDoc) : Prop :=
  ∀ l, d.location = some l → Located atof d.attrs l.attrName (l.coordLat, l.coordLong)

/-- The same of the working copies, where an empty name stands for no location. -/
def LocOk (atof : List Char → Rat) (attrs : List AttrDoc) (loc : Loc) : Prop :=
  loc.locAttr ≠ "" → Located atof attrs loc.locAttr (loc.coordLat, loc.coordLong)

theorem startWork_locOk {atof : List Char → Rat} {r : EntityDoc} (h : LocInv atof r) :
    LocOk atof (startWork r).attrs (startWork r).loc := by
  unfold startWork
  cases hl : r.location with
  | none => exact fun hne => absurd rfl hne
  | some l =>
    intro _
    dsimp only
    rw [(h l hl).1.cString]
    exact h l hl

theorem locInv_of_locOk {atof : List Char → Rat} {d : EntityDoc} {loc : Loc}
    (h : LocOk atof d.attrs loc) (hd : d.location = locField loc) : LocInv atof d := by
  intro l hl
  rw [hd] at hl
  unfold locField at hl
  split at hl
  · rename_i hne; cases hl; exact h hne
  · cases hl

/-! ## The attributes after an operation -/

/-- A request attribute with a string value. -/
def ContextAttribute.IsString (ca : ContextAttribute) : Prop := ca.compoundValueP = none

theorem valueBson_string {ca : ContextAttribute} (h : ca.IsString) : valueBson ca = some (.str ca.value) := by
  unfold valueBson; rw [show ca.compoundValueP = none from h]

section
variable {atof : List Char → Rat} {now : Int} {attrs : List AttrDoc} {ca : ContextAttribute}

/-- An element with another key is copied. -/
theorem mem_update_of_ne {a : AttrDoc} (ha : a ∈ attrs) (hk : a.key ≠ ca.key) :
    copiedAttr a ∈ (updateAttribute now attrs ca).1 := by
  rw [updateAttribute_attrs]
  exact List.mem_map.2 ⟨a, ha, by rw [checkAndUpdate_of_ne hk]⟩

theorem mem_update_of_eq {a : AttrDoc} (ha : a ∈ attrs) (hk : a.key = ca.key) :
    updatedAttr now a ca ∈ (updateAttribute now attrs ca).1 := by
  rw [updateAttribute_attrs]
  exact List.mem_map.2 ⟨a, ha, by rw [checkAndUpdate_of_eq hk]⟩

theorem mem_update {x : AttrDoc} (h : x ∈ (updateAttribute now attrs ca).1) :
    (∃ a ∈ attrs, a.key = ca.key ∧ x = updatedAttr now a ca) ∨
    (∃ a ∈ attrs, a.key ≠ ca.key ∧ x = copiedAttr a) := by
  rw [updateAttribute_attrs] at h
  obtain ⟨a, ha, rfl⟩ := List.mem_map.1 h
  by_cases hk : a.key = ca.key
  · exact .inl ⟨a, ha, hk, by rw [checkAndUpdate_of_eq hk]⟩
  · exact .inr ⟨a, ha, hk, by rw [checkAndUpdate_of_ne hk]⟩

theorem mem_append_of_update {x : AttrDoc} (h : x ∈ (updateAttribute now attrs ca).1) :
    x ∈ (appendAttribute now attrs ca).1 := by
  rw [appendAttribute_attrs]; exact List.mem_append_left _ h

theorem mem_append {x : AttrDoc} (h : x ∈ (appendAttribute now attrs ca).1) :
    x ∈ (updateAttribute now attrs ca).1 ∨ x = appendedAttr now ca := by
  rw [appendAttribute_attrs] at h
  rcases List.mem_append.1 h with h | h
  · exact .inl h
  · split at h
    · cases h
    · exact .inr (List.mem_singleton.1 h)

/-- After an accepted UPDATE some element has the key and the value. -/
theorem exists_updated (hu : ca.key ∈ attrs.map AttrDoc.key) (hs : ca.IsString) :
    ∃ x ∈ (updateAttribute now attrs ca).1, x.name = some ca.name ∧ x.value = some (.str ca.value) := by
  obtain ⟨a, ha, hk⟩ := List.mem_map.1 hu
  have hname : strField a.name = ca.name := congrArg Prod.fst hk
  exact ⟨_, mem_update_of_eq ha hk, by rw [← hname]; rfl, valueBson_string hs⟩

theorem exists_appended (hs : ca.IsString) :
    ∃ x ∈ (appendAttribute now attrs ca).1, x.name = some ca.name ∧ x.value = some (.str ca.value) := by
  by_cases hu : ca.key ∈ attrs.map AttrDoc.key
  · obtain ⟨x, hx, hk, hv⟩ := @exists_updated now attrs ca hu hs
    exact ⟨x, mem_append_of_update hx, hk, hv⟩
  · refine ⟨appendedAttr now ca, ?_, rfl, valueBson_string hs⟩
    rw [appendAttribute_attrs, if_neg (mt updateAttribute_updated.1 hu)]
    simp

/-- An element with the name and the value of the request is located under this name. -/
theorem located_of_name {x : AttrDoc} {c : Rat × Rat} (hx : x ∈ attrs) (hn : NoNul ca.name)
    (hname : x.name = some ca.name) (hv : x.value = some (.str ca.value)) (hc : coords atof ca.value = some c) :
    Located atof attrs ca.name c :=
  ⟨hn, x, hx, hname, ca.value, hv, hc⟩

theorem key_ne_of_name {a : AttrDoc} {name : String} (hn : NoNul name) (ha : a.name = some name) (hne : name ≠ ca.name) :
    a.key ≠ ca.key := by
  intro e
  have hfst : strField a.name = ca.name := congrArg Prod.fst e
  rw [ha, strField_some, hn.cString] at hfst
  exact hne hfst

/-- What is located under another name stays, in the copies of an UPDATE. -/
theorem located_update_of_ne {name : String} {c : Rat × Rat} (hn : name ≠ ca.name)
    (h : Located atof attrs name c) : Located atof (updateAttribute now attrs ca).1 name c := by
  obtain ⟨hnul, a, ha, hname, s, hv, hc⟩ := h
  refine ⟨hnul, _, mem_update_of_ne ha (key_ne_of_name hnul hname hn), ?_, s, by rw [copiedAttr, hv]; rfl, hc⟩
  rw [copiedAttr, hname, strField_some, hnul.cString]

theorem located_delete_of_ne {name : String} {c : Rat × Rat} (hn : name ≠ ca.name)
    (h : Located atof attrs name c) : Located atof (deleteAttribute attrs ca).1 name c := by
  obtain ⟨hnul, a, ha, hname, s, hv, hc⟩ := h
  have hk : a.key ≠ ca.key := key_ne_of_name hnul hname hn
  have hm : keptAttr a ∈ (deleteAttribute attrs ca).1 :=
    (sublist_deleteLoop ca attrs false).subset
      (List.mem_map_of_mem (List.mem_filter.2 ⟨ha, by simpa using hk⟩))
  refine ⟨hnul, _, hm, ?_, cString s, by rw [keptAttr, hv]; rfl, ?_⟩
  · rw [keptAttr, hname, strField_some, hnul.cString]
  · rw [coords_cString, hc]

end

/-! ## UPDATE and DELETE keep the agreement -/

section
variable {env : Env} {ctx : Ctx} {eP : EntityId}

theorem processUpdate_locOk {now : Int} {ca : ContextAttribute} {work work' : Work} {flag : Bool}
    (hs : ca.IsString) (h : processUpdate env now eP ca work = .ok (work', flag))
    (hi : LocOk env.atof work.attrs work.loc) : LocOk env.atof work'.attrs work'.loc := by
  obtain ⟨hu, _, hattrs, _, hloc⟩ := processUpdate_ok h
  rw [hattrs]
  rcases hloc with ⟨hn, _, hl⟩ | ⟨_, c, hc, hl⟩
  · rw [hl]
    exact fun hne => located_update_of_ne (Ne.symm hn) (hi hne)
  · rw [hl]
    have hkey := updateAttribute_updated.1 hu
    obtain ⟨a, _, hk⟩ := List.mem_map.1 hkey
    obtain ⟨x, hx, hname, hv⟩ := @exists_updated now _ ca hkey hs
    exact fun _ => located_of_name hx (noNulKey_of_key hk.symm).name hname hv hc

theorem processDelete_locOk {ca : ContextAttribute} {work work' : Work} {flag : Bool}
    (h : processDelete eP ca work = .ok (work', flag)) (hi : LocOk env.atof work.attrs work.loc) :
    LocOk env.atof work'.attrs work'.loc := by
  obtain ⟨_, _, hattrs, _, hloc⟩ := processDelete_ok h
  rw [hattrs]
  rcases hloc with ⟨hn, hl⟩ | hl
  · rw [hl]
    exact fun hne => located_delete_of_ne hn (hi hne)
  · exact fun hne => absurd hl hne

/-- A vector of UPDATE or DELETE. -/
theorem vector_locOk_of_ne_append (ha : updateAction ctx.action ≠ .append) :
    ∀ {caV : List ContextAttribute} {work final : Work} {w : World}, (∀ ca ∈ caV, ca.IsString) →
      (processContextAttributeVector env ctx eP caV work w).result = .ok final →
      LocOk env.atof work.attrs work.loc → LocOk env.atof final.attrs final.loc
  | [], _, _, _, _, h, hi => by simp only [processContextAttributeVector] at h; cases h; exact hi
  | ca :: caV, work, final, w, hs, h, hi => by
    obtain ⟨work1, flag, subs, w1, hact, h1, _⟩ := processContextAttributeVector_cons h
    have hi1 : LocOk env.atof work1.attrs work1.loc := by
      unfold processAction at hact
      split at hact
      · exact processUpdate_locOk (hs ca (by simp)) hact hi
      · rename_i e; exact absurd e ha
      · exact processDelete_locOk hact hi
      · cases hact
    exact vector_locOk_of_ne_append ha (fun cb hb => hs cb (by simp [hb])) h1 hi1

end

/-! ## APPEND to an existing entity -/

/-- The attribute named is the location attribute of `r`, or one that `pre` marks. -/
def LocName (r : EntityDoc) (pre : List ContextAttribute) (name : String) : Prop :=
  (∃ l, r.location = some l ∧ l.attrName = name) ∨ ∃ cb ∈ pre, cb.getLocation ≠ "" ∧ cb.name = name

/-- The value an attribute of `r` has once `pre` is applied: the last one `pre` gives it, or its own. -/
def CurrentValue (r : EntityDoc) (pre : List ContextAttribute) (key : String × String) (s : String) : Prop :=
  (∃ pre1 cb pre2, pre = pre1 ++ cb :: pre2 ∧ cb.key = key ∧ cb.value = s ∧ ∀ cc ∈ pre2, cc.key ≠ key) ∨
  ((∀ cc ∈ pre, cc.key ≠ key) ∧ ∃ a ∈ r.attrs, a.key = key ∧ a.value = some (.str s))

/-- An attribute of the location's name gets a value with other coordinates, without the location mark. -/
def StaleAppend (atof : List Char → Rat) (r : EntityDoc) (caV : List ContextAttribute) : Prop :=
  ∃ pre ca post s, caV = pre ++ ca :: post ∧ ca.getLocation = "" ∧ LocName r pre ca.name ∧
    CurrentValue r pre ca.key s ∧ coords atof s ≠ coords atof ca.value

/-- The working copies against the document and what was applied to it so far. -/
structure AppendInv (atof : List Char → Rat) (r : EntityDoc) (pre : List ContextAttribute) (work : Work) :
    Prop where
  located : LocOk atof work.attrs work.loc
  locName : work.loc.locAttr ≠ "" → LocName r pre work.loc.locAttr
  current : ∀ a ∈ work.attrs, ∀ s, a.value = some (.str s) → CurrentValue r pre a.key s

theorem LocName.snoc {r : EntityDoc} {pre : List ContextAttribute} {ca : ContextAttribute} {name : String}
    (h : LocName r pre name) : LocName r (pre ++ [ca]) name := by
  rcases h with h | ⟨cb, hb, h⟩
  · exact .inl h
  · exact .inr ⟨cb, by simp [hb], h⟩

theorem CurrentValue.snoc {r : EntityDoc} {pre : List ContextAttribute} {ca : ContextAttribute}
    {key : String × String} {s : String} (h : CurrentValue r pre key s) (hk : ca.key ≠ key) :
    CurrentValue r (pre ++ [ca]) key s := by
  rcases h with ⟨pre1, cb, pre2, rfl, hc, hv, hn⟩ | ⟨hn, h⟩
  · refine .inl ⟨pre1, cb, pre2 ++ [ca], by simp, hc, hv, fun cc hcc => ?_⟩
    rcases List.mem_append.1 hcc with hcc | hcc
    · exact hn cc hcc
    · rw [List.mem_singleton.1 hcc]; exact hk
  · refine .inr ⟨fun cc hcc => ?_, h⟩
    rcases List.mem_append.1 hcc with hcc | hcc
    · exact hn cc hcc
    · rw [List.mem_singleton.1 hcc]; exact hk

theorem CurrentValue.self (r : EntityDoc) (pre : List ContextAttribute) (ca : ContextAttribute) :
    CurrentValue r (pre ++ [ca]) ca.key ca.value :=
  .inl ⟨pre, ca, [], by simp, rfl, rfl, by simp⟩

theorem startWork_appendInv {atof : List Char → Rat} {r : EntityDoc} (h : LocInv atof r) :
    AppendInv atof r [] (startWork r) where
  located := startWork_locOk h
  locName hne := by
    unfold startWork at hne ⊢
    cases hl : r.location with
    | none => rw [hl] at hne; exact absurd rfl hne
    | some l => exact .inl ⟨l, hl, (h l hl).1.cString.symm⟩
  current a ha s hv := .inr ⟨by simp, a, ha, rfl, hv⟩

/-- What the elements hold after an APPEND. -/
theorem append_current {r : EntityDoc} {pre : List ContextAttribute} {now : Int} {attrs : List AttrDoc}
    {ca : ContextAttribute} (hs : ca.IsString) (hnul : ca.NoNulKey)
    (hc : ∀ a ∈ attrs, ∀ s, a.value = some (.str s) → CurrentValue r pre a.key s) :
    ∀ x ∈ (appendAttribute now attrs ca).1, ∀ s, x.value = some (.str s) →
      CurrentValue r (pre ++ [ca]) x.key s := by
  have hnew : ∀ x : AttrDoc, x.key = ca.key → x.value = valueBson ca → ∀ s, x.value = some (.str s) →
      CurrentValue r (pre ++ [ca]) x.key s := by
    intro x hk hv s hx
    rw [hv, valueBson_string hs] at hx
    cases hx
    rw [hk]
    exact CurrentValue.self r pre ca
  intro x hx s hv
  rcases mem_append hx with hx | rfl
  · rcases mem_update hx with ⟨a, ha, hk, rfl⟩ | ⟨a, ha, hk, rfl⟩
    · exact hnew _ (by rw [updatedAttr_key, hk]) rfl s hv
    · -- a copied string is the string that was there
      have hav : a.value = some (.str s) := by
        unfold copiedAttr at hv
        simp only [copyValue] at hv
        split at hv
        all_goals first | (rename_i e; rw [e, hv]) | cases hv
      rw [copiedAttr_key]
      exact (hc a ha s hav).snoc (Ne.symm hk)
  · exact hnew _ (appendedAttr_key hnul) rfl s hv

theorem processAppend_appendInv {env : Env} {now : Int} {eP : EntityId} {r : EntityDoc}
    {pre : List ContextAttribute} {ca : ContextAttribute} {work work' : Work} {flag : Bool} (hs : ca.IsString)
    (hnul : ca.NoNulKey)
    (hfresh : ∀ s, ca.getLocation = "" → LocName r pre ca.name → CurrentValue r pre ca.key s →
      coords env.atof s = coords env.atof ca.value)
    (h : processAppend env now eP ca work = .ok (work', flag)) (hi : AppendInv env.atof r pre work) :
    AppendInv env.atof r (pre ++ [ca]) work' := by
  obtain ⟨_, _, hattrs, _, hloc⟩ := processAppend_ok h
  have hcur := @append_current r pre now work.attrs ca hs hnul hi.current
  rw [← hattrs] at hcur
  rcases hloc with ⟨hl, he⟩ | ⟨hl, _, c, hc, he⟩
  · refine ⟨?_, ?_, hcur⟩
    · rw [he, hattrs]
      intro hne
      obtain ⟨hnulLoc, a, ha, hn, s, hv, hc⟩ := hi.located hne
      have hread : strField a.name = work.loc.locAttr := by rw [hn, strField_some, hnulLoc.cString]
      by_cases hk : a.key = ca.key
      · -- the location attribute itself: its new value has the same coordinates
        have hname : ca.name = work.loc.locAttr := by rw [← hread]; exact (congrArg Prod.fst hk).symm
        have heq := hfresh s hl (hname ▸ hi.locName hne) (hk ▸ hi.current a ha s hv)
        refine ⟨hnulLoc, _, mem_append_of_update (mem_update_of_eq ha hk), ?_, ca.value, valueBson_string hs, ?_⟩
        · rw [updatedAttr, hread]
        · rw [← heq]; exact hc
      · refine ⟨hnulLoc, _, mem_append_of_update (mem_update_of_ne ha hk), ?_, s, by rw [copiedAttr, hv]; rfl, hc⟩
        rw [copiedAttr, hread]
    · rw [he]; exact fun hne => (hi.locName hne).snoc
  · refine ⟨?_, ?_, hcur⟩
    · rw [he, hattrs]
      obtain ⟨x, hx, hk, hv⟩ := @exists_appended now work.attrs ca hs
      exact fun _ => located_of_name hx hnul.name hk hv hc
    · rw [he]; exact fun _ => .inr ⟨ca, by simp, hl, rfl⟩

theorem vector_locOk_of_append {env : Env} {ctx : Ctx} {eP : EntityId} {r : EntityDoc}
    (ha : updateAction ctx.action = .append) :
    ∀ {caV pre : List ContextAttribute} {work final : Work} {w : World}, (∀ ca ∈ caV, ca.IsString) →
      (∀ ca ∈ caV, ca.NoNulKey) → ¬ StaleAppend env.atof r (pre ++ caV) →
      (processContextAttributeVector env ctx eP caV work w).result = .ok final →
      AppendInv env.atof r pre work → LocOk env.atof final.attrs final.loc
  | [], _, _, _, _, _, _, _, h, hi => by
    simp only [processContextAttributeVector] at h; cases h; exact hi.located
  | ca :: caV, pre, work, final, w, hs, hnul, hst, h, hi => by
    obtain ⟨work1, flag, subs, w1, hact, h1, _⟩ := processContextAttributeVector_cons h
    unfold processAction at hact
    rw [ha] at hact
    have hi1 : AppendInv env.atof r (pre ++ [ca]) work1 := by
      refine processAppend_appendInv (hs ca (by simp)) (hnul ca (by simp)) (fun s hl hn hc => ?_) hact hi
      by_contra hne
      exact hst ⟨pre, ca, caV, s, rfl, hl, hn, hc, hne⟩
    have hi2 : AppendInv env.atof r (pre ++ [ca]) { work1 with subs := subs } :=
      ⟨hi1.located, hi1.locName, hi1.current⟩
    exact vector_locOk_of_append ha (fun cb hb => hs cb (by simp [hb])) (fun cb hb => hnul cb (by simp [hb]))
      (by simpa using hst) h1 hi2

/-! ## Creation -/

/-- An invariant of the loop of `processLocation`. -/
theorem foldlM_ok {α β ε : Type} {f : β → α → Except ε β} {P : β → Prop} :
    ∀ {l : List α} {b b' : β}, (∀ a ∈ l, ∀ b b', f b a = .ok b' → P b → P b') →
      l.foldlM f b = .ok b' → P b → P b'
  | [], b, b', _, h, hb => by
    simp only [List.foldlM_nil] at h; cases h; exact hb
  | a :: l, b, b', hf, h, hb => by
    rw [List.foldlM_cons] at h
    cases ha : f b a with
    | error e => rw [ha] at h; cases h
    | ok b1 =>
      rw [ha] at h
      exact foldlM_ok (fun x hx => hf x (by simp [hx])) h (hf a (by simp) b b1 ha hb)

/-- The location is that of an attribute of the vector. -/
def LocFrom (atof : List Char → Rat) (caV : List ContextAttribute) (loc : Loc) : Prop :=
  loc.locAttr ≠ "" → ∃ ca ∈ caV, ca.name = loc.locAttr ∧
    coords atof ca.value = some (loc.coordLat, loc.coordLong)

theorem processLocation_ok {atof : List Char → Rat} {caV : List ContextAttribute} {loc : Loc}
    (h : processLocation atof caV = .ok loc) : LocFrom atof caV loc := by
  refine foldlM_ok (P := LocFrom atof caV) ?_ h (fun hne => absurd rfl hne)
  intro ca hca st st' hst hP
  refine foldlM_ok (P := LocFrom atof caV) ?_ hst hP
  intro md _ b b' hb hPb
  unfold processLocationMd at hb
  split at hb
  · cases hb; exact hPb
  · split at hb
    · cases hb
    · split at hb
      · cases hb
      · split at hb
        · rename_i lat long e
          cases hb
          have hc := string2coords_true (h := by rw [e])
          rw [e] at hc
          exact fun _ => ⟨ca, hca, rfl, hc⟩
        · cases hb

theorem createdDoc_locInv {atof : List Char → Rat} {ctx : Ctx} {en : EntityId} {caV : List ContextAttribute}
    {loc : Loc} (hs : ∀ ca ∈ caV, ca.IsString) (hnul : ∀ ca ∈ caV, ca.NoNulKey) (h : processLocation atof caV = .ok loc) :
    LocInv atof (createdDoc ctx en caV loc) := by
  refine @locInv_of_locOk _ _ loc (fun hne => ?_) rfl
  obtain ⟨ca, hca, hn, hc⟩ := processLocation_ok h hne
  refine ⟨hn ▸ (hnul ca hca).name, createdAttr ctx.now ca, List.mem_map_of_mem hca, by rw [← hn]; rfl, ca.value,
    valueBson_string (hs ca hca), hc⟩

/-! ## Runs -/

/-- The element has string values, and an APPEND has no NUL in a name or an ID and leaves no stale location. -/
structure LocatesFreshly (env : Env) (ctx : Ctx) (ce : ContextElement) (w : World) : Prop where
  strings : ∀ ca ∈ ce.contextAttributeVector, ca.IsString
  noNul : updateAction ctx.action = .append → ∀ ca ∈ ce.contextAttributeVector, ca.NoNulKey
  fresh : updateAction ctx.action = .append → ∀ r ∈ foundDocuments env ctx ce w,
    ¬ StaleAppend env.atof r ce.contextAttributeVector

theorem processContextElement_locInv {env : Env} {ctx : Ctx} {ce : ContextElement} {w : World}
    (hok : LocatesFreshly env ctx ce w) (h : ∀ d ∈ w.entities.docs, LocInv env.atof d) :
    ∀ d ∈ (processContextElement env ctx ce w).2.entities.docs, LocInv env.atof d := by
  refine processContextElement_forall ?_ ?_ h
  · intro r hr w1 work d hres
    have hinv := h r (Collection.mem_find.1 hr).1
    refine @locInv_of_locOk _ _ work.loc ?_ rfl
    by_cases ha : updateAction ctx.action = .append
    · exact @vector_locOk_of_append _ _ _ _ ha _ [] _ _ _ hok.strings (hok.noNul ha) (hok.fresh ha r hr) hres
        (startWork_appendInv hinv)
    · exact vector_locOk_of_ne_append ha hok.strings hres (startWork_locOk hinv)
  · intro loc ha _ _ hloc
    exact createdDoc_locInv hok.strings (hok.noNul ha) hloc

/-- **The location agrees with the data in every state reached**, when no APPEND is stale. -/
theorem reachable_locInv {env : Env} {w : World} (h : Reachable env (LocatesFreshly env) w) :
    ∀ d ∈ w.entities.docs, LocInv env.atof d :=
  h.all_docs fun _ _ _ hok hi => processContextElement_locInv hok hi

/-! ## A run with a stale location -/

/-- A car that is created with a location, and then gets a request with the given action. -/
def carAfter (action : String) (ca : ContextAttribute) : World :=
  (mongoUpdateContext (Env.plain fun _ _ => false) { action := action }
    [{ entityId := { id := "Car" }, contextAttributeVector := [ca] }]
    (mongoUpdateContext (Env.plain fun _ _ => false) { action := "APPEND" }
      [{ entityId := { id := "Car" }, contextAttributeVector :=
          [{ name := "pos", value := "1, 2", metadataVector := [⟨"location", "string", "WGS84"⟩] }] }] {}).2).2

theorem carAfter_update_locInv :
    (carAfter "UPDATE" { name := "pos", value := "3, 4" }).entities.docs.map EntityDoc.location =
      [some ⟨"pos", 4, 3⟩] ∧
    ∀ d ∈ (carAfter "UPDATE" { name := "pos", value := "3, 4" }).entities.docs, LocInv decimal d :=
  ⟨by decide +kernel,
   @reachable_locInv (Env.plain fun _ _ => false) _
    (.request _ _
      (.request _ _ (.start rfl)
        ⟨⟨by simp [ContextAttribute.IsString], fun _ => by decide, fun _ r hr => by
            have : foundDocuments (Env.plain fun _ _ => false) { action := "APPEND" }
              { entityId := { id := "Car" }, contextAttributeVector :=
                [{ name := "pos", value := "1, 2", metadataVector := [⟨"location", "string", "WGS84"⟩] }] } {} =
              [] := by decide +kernel
            rw [this] at hr; cases hr⟩, fun _ => trivial⟩)
      ⟨⟨by simp [ContextAttribute.IsString], fun h => absurd h (by decide), fun h => absurd h (by decide)⟩,
        fun _ => trivial⟩)⟩

/-- The car as the second APPEND leaves it. -/
def staleCar : EntityDoc where
  key := ⟨"Car", none, none⟩
  attrs := [{ name := some "pos", type := some "", value := some (.str "3, 4"), creDate := some 0,
              modDate := some 0 }]
  creDate := some 0
  modDate := some 0
  location := some ⟨"pos", 2, 1⟩

/-- **A stale location.** The same request as APPEND changes the position and keeps the old
coordinates. -/
theorem carAfter_append_stale :
    Reachable (Env.plain fun _ _ => false) (fun _ _ _ => True)
      (carAfter "APPEND" { name := "pos", value := "3, 4" }) ∧
    (carAfter "APPEND" { name := "pos", value := "3, 4" }).entities.docs = [staleCar] ∧
    ¬ LocInv decimal staleCar := by
  refine ⟨.request _ _ (.request _ _ (.start rfl) ⟨trivial, fun _ => trivial⟩) ⟨trivial, fun _ => trivial⟩,
    by decide +kernel, fun h => ?_⟩
  obtain ⟨_, a, ha, _, s, hv, hc⟩ := h ⟨"pos", 2, 1⟩ rfl
  rw [staleCar, List.mem_singleton] at ha
  subst ha
  cases hv
  exact absurd hc (by decide +kernel)

end OrionBroker
