import OrionBroker.Update.Steps

/-!
# The attributes a request does not name

Every operation rebuilds the whole array. `AttrView` is an element with its fields as they are stored; `Keeps L attrs`
says that the views `L` are all there, in order. `copiedAttr`, the copy of `checkAndUpdate`, keeps a view whose value is
a string, an object or an array; `keptAttr`, the copy of `checkAndDelete`, reads the value with `STR_FIELD` and keeps
strings only. Both read the other fields with `STR_FIELD`, so a NUL in one of them is lost.
-/

namespace OrionBroker

open Mongo

/-- The fields of an element; an absent string is like an empty one, an absent `md` like an empty one. -/
structure AttrView where
  name : String
  id : String
  type : String
  value : Option Bson
  md : List MdDoc
  creDate : Option Int
  modDate : Option Int
deriving DecidableEq, Repr

def AttrDoc.view (a : AttrDoc) : AttrView where
  name := a.name.getD ""
  id := a.id.getD ""
  type := a.type.getD ""
  value := a.value
  md := a.md.getD []
  creDate := a.creDate
  modDate := a.modDate

def AttrView.key (v : AttrView) : String × String := (v.name, v.id)

/-- No field that `STR_FIELD` reads has a NUL. -/
structure AttrView.NoNul (v : AttrView) : Prop where
  name : OrionBroker.NoNul v.name
  id : OrionBroker.NoNul v.id
  type : OrionBroker.NoNul v.type
  md : ∀ m ∈ v.md, m.NoNul

theorem noNul_getD {f : Option String} : NoNul (f.getD "") ↔ ∀ s ∈ f, NoNul s := by
  cases f with
  | none => simpa using noNul_empty
  | some s => simp

theorem AttrDoc.noNul_view {a : AttrDoc} : a.view.NoNul ↔ a.NoNul := by
  constructor
  · intro h
    exact ⟨noNul_getD.1 h.name, noNul_getD.1 h.id, noNul_getD.1 h.type, h.md⟩
  · intro h
    exact ⟨noNul_getD.2 h.name, noNul_getD.2 h.id, noNul_getD.2 h.type, h.md⟩

theorem AttrDoc.NoNul.view_key {a : AttrDoc} (h : a.NoNul) : a.view.key = a.key := by
  rw [AttrDoc.key, strField_of_noNul h.name, strField_of_noNul h.id]
  rfl

/-- A value of the kinds the broker writes: a string, an object or an array. -/
def IsValue : Option Bson → Prop
  | some (.str _) => True
  | some (.obj _) => True
  | some (.arr _) => True
  | _ => False

/-- A string that `STR_FIELD` reads whole. -/
def IsText : Option Bson → Prop
  | some (.str s) => NoNul s
  | _ => False

/-! ## One element -/

theorem copyId_getD (a : AttrDoc) : (copyId a).getD "" = strField a.id := by
  unfold copyId
  split
  · rfl
  · rename_i h; exact (Classical.not_not.1 h).symm

@[simp] theorem strField_copyId (a : AttrDoc) : strField (copyId a) = strField a.id := by
  rw [strField, copyId_getD, cString_strField]

theorem getD_bsonCustomMetadataToBson (a : AttrDoc) :
    (bsonCustomMetadataToBson a).getD [] = (a.md.getD []).map MdDoc.read := by
  unfold bsonCustomMetadataToBson mdField
  cases a.md with
  | none => rfl
  | some l => cases l <;> simp

theorem attrMatch_iff (a : AttrDoc) (ca : ContextAttribute) : attrMatch a ca = true ↔ a.key = ca.key := by
  simp [attrMatch, smartAttrMatch, AttrDoc.key, ContextAttribute.key]

theorem copiedAttr_view {a : AttrDoc} (h : IsValue a.value) (hn : a.NoNul) : (copiedAttr a).view = a.view := by
  have hv : copyValue a.value = a.value := by
    unfold IsValue at h
    split at h
    all_goals first | contradiction | (rename_i e; rw [e]; rfl)
  simp [copiedAttr, AttrDoc.view, hv, getD_bsonCustomMetadataToBson, copyId_getD, strField_of_noNul hn.name,
    strField_of_noNul hn.id, map_cString_of_noNul hn.type, map_read_of_noNul hn.md]

theorem keptAttr_view {a : AttrDoc} (h : IsText a.value) (hn : a.NoNul) : (keptAttr a).view = a.view := by
  have hv : some (Bson.str (strValue a.value)) = a.value := by
    unfold IsText at h
    split at h
    · rename_i e; rw [e, strValue, NoNul.cString h]
    · contradiction
  simp [keptAttr, AttrDoc.view, hv, getD_bsonCustomMetadataToBson, copyId_getD, strField_of_noNul hn.name,
    strField_of_noNul hn.id, strField_of_noNul hn.type, map_read_of_noNul hn.md]

/-! What a copy has was read. -/

theorem noNul_copyId (a : AttrDoc) : ∀ s ∈ copyId a, NoNul s := by
  intro s hs
  unfold copyId at hs
  split at hs
  · cases hs
    exact noNul_cString _
  · cases hs

theorem noNul_bsonCustomMetadataToBson (a : AttrDoc) : ∀ m ∈ (bsonCustomMetadataToBson a).getD [], m.NoNul := by
  rw [getD_bsonCustomMetadataToBson]
  intro m hm
  obtain ⟨m', -, rfl⟩ := List.mem_map.1 hm
  exact m'.noNul_read

theorem noNul_strField (f : Option String) : ∀ s ∈ some (strField f), NoNul s := by
  intro s hs
  cases hs
  exact noNul_cString _

theorem copiedAttr_noNul (a : AttrDoc) : (copiedAttr a).NoNul where
  name := noNul_strField a.name
  id := noNul_copyId a
  type s hs := by
    obtain ⟨t, -, rfl⟩ := Option.map_eq_some_iff.1 hs
    exact noNul_cString t
  md := noNul_bsonCustomMetadataToBson a

theorem keptAttr_noNul (a : AttrDoc) : (keptAttr a).NoNul where
  name := noNul_strField a.name
  id := noNul_copyId a
  type := noNul_strField a.type
  md := noNul_bsonCustomMetadataToBson a

theorem noNul_strValue (v : Option Bson) : NoNul (strValue v) := by
  unfold strValue
  split
  · exact noNul_cString _
  · exact noNul_empty

/-- An appended element has the name and the ID of the request, as they are. -/
theorem appendedAttr_view_key (now : Int) (ca : ContextAttribute) : (appendedAttr now ca).view.key = ca.key := by
  by_cases h : ca.getId = "" <;> simp [appendedAttr, AttrDoc.view, AttrView.key, ContextAttribute.key, h]

theorem emptyAttr_noNul : ({} : AttrDoc).NoNul where
  name _ h := by cases h
  id _ h := by cases h
  type _ h := by cases h
  md _ h := by cases h

@[simp] theorem copiedAttr_key (a : AttrDoc) : (copiedAttr a).key = a.key := by
  simp [copiedAttr, AttrDoc.key]

@[simp] theorem keptAttr_key (a : AttrDoc) : (keptAttr a).key = a.key := by
  simp [keptAttr, AttrDoc.key]

theorem copiedAttr_view_key (a : AttrDoc) : (copiedAttr a).view.key = a.key := by
  simp [copiedAttr, AttrDoc.view, AttrView.key, AttrDoc.key, copyId_getD]

theorem keptAttr_view_key (a : AttrDoc) : (keptAttr a).view.key = a.key := by
  simp [keptAttr, AttrDoc.view, AttrView.key, AttrDoc.key, copyId_getD]

theorem updatedAttr_view_key (now : Int) (a : AttrDoc) (ca : ContextAttribute) :
    (updatedAttr now a ca).view.key = a.key := by
  simp [updatedAttr, AttrDoc.view, AttrView.key, AttrDoc.key, copyId_getD]

@[simp] theorem updatedAttr_key (now : Int) (a : AttrDoc) (ca : ContextAttribute) :
    (updatedAttr now a ca).key = a.key := by
  simp [updatedAttr, AttrDoc.key]

theorem checkAndUpdate_of_ne {now : Int} {a : AttrDoc} {ca : ContextAttribute} (h : a.key ≠ ca.key) :
    checkAndUpdate now a ca = (copiedAttr a, false, false) := by
  rw [checkAndUpdate, if_neg (fun e => h ((attrMatch_iff a ca).1 e))]

theorem checkAndUpdate_of_eq {now : Int} {a : AttrDoc} {ca : ContextAttribute} (h : a.key = ca.key) :
    checkAndUpdate now a ca = (updatedAttr now a ca, true, isActualUpdate a ca) := by
  rw [checkAndUpdate, if_pos ((attrMatch_iff a ca).2 h)]

theorem checkAndDelete_of_ne {a : AttrDoc} {ca : ContextAttribute} (h : a.key ≠ ca.key) :
    checkAndDelete a ca = (keptAttr a, false) := by
  have hm : attrMatch a ca = false := by simpa using fun e => h ((attrMatch_iff a ca).1 e)
  simp [checkAndDelete, hm]

theorem checkAndDelete_of_eq {a : AttrDoc} {ca : ContextAttribute} (h : a.key = ca.key) :
    checkAndDelete a ca = ({}, true) := by
  simp [checkAndDelete, (attrMatch_iff a ca).2 h]

/-! ## The whole array -/

theorem updateAttribute_attrs (now : Int) (attrs : List AttrDoc) (ca : ContextAttribute) :
    (updateAttribute now attrs ca).1 = attrs.map fun a => (checkAndUpdate now a ca).1 := by
  simp [updateAttribute]

theorem appendAttribute_attrs (now : Int) (attrs : List AttrDoc) (ca : ContextAttribute) :
    (appendAttribute now attrs ca).1 = (updateAttribute now attrs ca).1 ++
      (if (updateAttribute now attrs ca).2.1 then [] else [appendedAttr now ca]) := by
  unfold appendAttribute
  simp only
  cases (updateAttribute now attrs ca).2.1 <;> simp

/-- The elements that do not match are kept, in order. -/
theorem sublist_deleteLoop (ca : ContextAttribute) : ∀ (attrs : List AttrDoc) (deleted : Bool),
    ((attrs.filter fun a => a.key ≠ ca.key).map keptAttr).Sublist (deleteLoop ca attrs deleted).1
  | [], _ => by simp [deleteLoop]
  | a :: as, deleted => by
    by_cases h : a.key = ca.key
    · cases deleted with
      | false =>
        simp only [deleteLoop, checkAndDelete_of_eq h, List.filter_cons]
        simpa [h] using sublist_deleteLoop ca as true
      | true =>
        simp only [deleteLoop, checkAndDelete_of_eq h, List.filter_cons]
        simpa [h] using (sublist_deleteLoop ca as true).cons {}
    · simp only [deleteLoop, checkAndDelete_of_ne h, List.filter_cons]
      simpa [h] using (sublist_deleteLoop ca as deleted).cons_cons (keptAttr a)

/-- An element of the result is a copy of one that does not match, or empty. -/
theorem mem_deleteLoop {ca : ContextAttribute} {x : AttrDoc} : ∀ {attrs : List AttrDoc} {deleted : Bool},
    x ∈ (deleteLoop ca attrs deleted).1 → (∃ a ∈ attrs, a.key ≠ ca.key ∧ x = keptAttr a) ∨ x = {}
  | [], _, h => by simp [deleteLoop] at h
  | a :: as, deleted, h => by
    by_cases hk : a.key = ca.key
    · cases deleted with
      | false =>
        simp only [deleteLoop, checkAndDelete_of_eq hk] at h
        rcases mem_deleteLoop h with ⟨b, hb, hne, rfl⟩ | rfl
        · exact .inl ⟨b, by simp [hb], hne, rfl⟩
        · exact .inr rfl
      | true =>
        simp only [deleteLoop, checkAndDelete_of_eq hk] at h
        rcases List.mem_cons.1 h with rfl | h
        · exact .inr rfl
        · rcases mem_deleteLoop h with ⟨b, hb, hne, rfl⟩ | rfl
          · exact .inl ⟨b, by simp [hb], hne, rfl⟩
          · exact .inr rfl
    · simp only [deleteLoop, checkAndDelete_of_ne hk] at h
      rcases List.mem_cons.1 h with rfl | h
      · exact .inl ⟨a, by simp, hk, rfl⟩
      · rcases mem_deleteLoop h with ⟨b, hb, hne, rfl⟩ | rfl
        · exact .inl ⟨b, by simp [hb], hne, rfl⟩
        · exact .inr rfl

/-! ## Views that survive -/

/-- The views `L` are found in the array, in this order. -/
def Keeps (L : List AttrView) (attrs : List AttrDoc) : Prop := L.Sublist (attrs.map AttrDoc.view)

/-- A copy that keeps the views of a sublist keeps them in the whole array. -/
theorem keeps_map {L : List AttrView} {attrs : List AttrDoc} {f : AttrDoc → AttrDoc}
    (hf : ∀ a ∈ attrs, a.view ∈ L → (f a).view = a.view) (h : Keeps L attrs) : Keeps L (attrs.map f) := by
  obtain ⟨S, hS, rfl⟩ := List.sublist_map_iff.1 h
  have e : (S.map f).map AttrDoc.view = S.map AttrDoc.view := by
    rw [List.map_map]
    exact List.map_congr_left fun a ha => hf a (hS.subset ha) (List.mem_map_of_mem ha)
  rw [Keeps, ← e]
  exact (hS.map f).map AttrDoc.view

section
variable {L : List AttrView} {attrs : List AttrDoc} {ca : ContextAttribute}
  (hk : ∀ v ∈ L, v.key ≠ ca.key) (hn : ∀ v ∈ L, v.NoNul)
include hk hn

/-- An element with one of the views is read with the key of the view. -/
theorem key_ne_of_view {a : AttrDoc} (h : a.view ∈ L) : a.key ≠ ca.key := by
  rw [← (AttrDoc.noNul_view.1 (hn _ h)).view_key]
  exact hk _ h

theorem updateAttribute_keeps (now : Int) (hv : ∀ v ∈ L, IsValue v.value) (h : Keeps L attrs) :
    Keeps L (updateAttribute now attrs ca).1 := by
  rw [updateAttribute_attrs]
  refine keeps_map (fun a _ hl => ?_) h
  rw [checkAndUpdate_of_ne (key_ne_of_view hk hn hl)]
  exact copiedAttr_view (hv _ hl) (AttrDoc.noNul_view.1 (hn _ hl))

theorem appendAttribute_keeps (now : Int) (hv : ∀ v ∈ L, IsValue v.value) (h : Keeps L attrs) :
    Keeps L (appendAttribute now attrs ca).1 := by
  rw [appendAttribute_attrs, Keeps, List.map_append]
  exact (updateAttribute_keeps hk hn now hv h).trans (List.sublist_append_left _ _)

theorem deleteAttribute_keeps (hv : ∀ v ∈ L, IsText v.value) (h : Keeps L attrs) :
    Keeps L (deleteAttribute attrs ca).1 := by
  have h1 : Keeps L (attrs.filter fun a => a.key ≠ ca.key) := by
    obtain ⟨S, hS, rfl⟩ := List.sublist_map_iff.1 h
    have hL : S = S.filter fun a => a.key ≠ ca.key :=
      (List.filter_eq_self.2 fun a ha => decide_eq_true (key_ne_of_view hk hn (List.mem_map_of_mem ha))).symm
    rw [hL]
    exact (hS.filter fun a => decide (a.key ≠ ca.key)).map AttrDoc.view
  have h2 : Keeps L ((attrs.filter fun a => a.key ≠ ca.key).map keptAttr) :=
    keeps_map (fun a _ hl => keptAttr_view (hv _ hl) (AttrDoc.noNul_view.1 (hn _ hl))) h1
  exact h2.trans ((sublist_deleteLoop ca attrs false).map AttrDoc.view)

/-- One operation keeps the views it does not address; DELETE, those with string values. -/
theorem attrsAfter_keeps (now : Int) (action : UpdateAction) (hv : ∀ v ∈ L, IsValue v.value)
    (hs : action = .delete → ∀ v ∈ L, IsText v.value) (h : Keeps L attrs) :
    Keeps L (attrsAfter now action attrs ca) := by
  cases action with
  | update => exact updateAttribute_keeps hk hn now hv h
  | append => exact appendAttribute_keeps hk hn now hv h
  | delete => exact deleteAttribute_keeps hk hn (hs rfl) h
  | unknown => exact h

end

theorem processContextAttributeVector_keeps {env : Env} {ctx : Ctx} {eP : EntityId} {L : List AttrView}
    (hn : ∀ v ∈ L, v.NoNul) (hv : ∀ v ∈ L, IsValue v.value)
    (hs : updateAction ctx.action = .delete → ∀ v ∈ L, IsText v.value) :
    ∀ {caV : List ContextAttribute} {work final : Work} {w : World},
      (∀ v ∈ L, v.key ∉ caV.map ContextAttribute.key) →
      (processContextAttributeVector env ctx eP caV work w).result = .ok final →
      Keeps L work.attrs → Keeps L final.attrs
  | [], work, final, w, _, h, hL => by
    simp only [processContextAttributeVector] at h; cases h; exact hL
  | ca :: caV, work, final, w, hk, h, hL => by
    obtain ⟨work1, flag, subs, w1, ha, h1, _⟩ := processContextAttributeVector_cons h
    refine processContextAttributeVector_keeps hn hv hs (fun v hm => ?_) h1 ?_
    · have := hk v hm; simp only [List.map_cons, List.mem_cons, not_or] at this; exact this.2
    · rw [processAction_attrs ha]
      refine attrsAfter_keeps (fun v hm => ?_) hn _ _ hv hs hL
      have := hk v hm; simp only [List.map_cons, List.mem_cons, not_or] at this; exact this.1

theorem processAction_known {env : Env} {ctx : Ctx} {eP : EntityId} {ca : ContextAttribute} {work : Work}
    {r : Work × Bool} (h : processAction env ctx eP ca work = .ok r) : updateAction ctx.action ≠ .unknown := by
  intro hu
  rw [processAction, hu] at h
  cases h

theorem processContextAttributeVector_known {env : Env} {ctx : Ctx} {eP : EntityId} {caV : List ContextAttribute}
    {work final : Work} {w : World} (hne : caV ≠ [])
    (h : (processContextAttributeVector env ctx eP caV work w).result = .ok final) :
    updateAction ctx.action ≠ .unknown := by
  cases caV with
  | nil => exact absurd rfl hne
  | cons ca caV =>
    obtain ⟨work1, flag, subs, w1, ha, -⟩ := processContextAttributeVector_cons h
    exact processAction_known ha

/-! ## What an operation leaves -/

/-- An element of the result has been read and written again, or has a key of the request. -/
theorem attrsAfter_noNul {now : Int} {action : UpdateAction} (hu : action ≠ .unknown) {attrs : List AttrDoc}
    {ca : ContextAttribute} {x : AttrDoc} (h : x ∈ attrsAfter now action attrs ca) :
    x.NoNul ∨ x.view.key = ca.key := by
  have hupd : ∀ a : AttrDoc, (checkAndUpdate now a ca).1.NoNul ∨ (checkAndUpdate now a ca).1.view.key = ca.key := by
    intro a
    by_cases hk : a.key = ca.key
    · right
      rw [checkAndUpdate_of_eq hk, ← hk]
      exact updatedAttr_view_key now a ca
    · left
      rw [checkAndUpdate_of_ne hk]
      exact copiedAttr_noNul a
  cases action with
  | unknown => exact absurd rfl hu
  | update =>
    rw [attrsAfter, updateAttribute_attrs] at h
    obtain ⟨a, -, rfl⟩ := List.mem_map.1 h
    exact hupd a
  | append =>
    rw [attrsAfter, appendAttribute_attrs, updateAttribute_attrs] at h
    rcases List.mem_append.1 h with h | h
    · obtain ⟨a, -, rfl⟩ := List.mem_map.1 h
      exact hupd a
    · split at h
      · cases h
      · rw [List.mem_singleton.1 h]
        exact .inr (appendedAttr_view_key now ca)
  | delete =>
    rcases mem_deleteLoop h with ⟨a, -, -, rfl⟩ | rfl
    · exact .inl (keptAttr_noNul a)
    · exact .inl emptyAttr_noNul

theorem processContextAttributeVector_noNul {env : Env} {ctx : Ctx} {eP : EntityId} :
    ∀ {caV : List ContextAttribute} {work final : Work} {w : World}, caV ≠ [] →
      (processContextAttributeVector env ctx eP caV work w).result = .ok final →
      ∀ x ∈ final.attrs, x.NoNul ∨ x.view.key ∈ caV.map ContextAttribute.key
  | [], _, _, _, hne, _ => absurd rfl hne
  | ca :: caV, work, final, w, _, h => by
    obtain ⟨work1, flag, subs, w1, ha, h1, _⟩ := processContextAttributeVector_cons h
    cases caV with
    | nil =>
      simp only [processContextAttributeVector] at h1
      cases h1
      intro x hx
      have hw : x ∈ attrsAfter ctx.now (updateAction ctx.action) work.attrs ca := by
        rw [← processAction_attrs ha]
        exact hx
      simpa using attrsAfter_noNul (processAction_known ha) hw
    | cons cb caV =>
      intro x hx
      exact (processContextAttributeVector_noNul (by simp) h1 x hx).imp id (List.mem_cons_of_mem _)

/-- After a DELETE no element has a compound value. -/
theorem deleteAttribute_value {attrs : List AttrDoc} {ca : ContextAttribute} {x : AttrDoc}
    (h : x ∈ (deleteAttribute attrs ca).1) : x.value = none ∨ IsText x.value := by
  rcases mem_deleteLoop h with ⟨a, _, _, rfl⟩ | rfl
  · exact .inr (noNul_strValue a.value)
  · exact .inl rfl

theorem processContextAttributeVector_delete_value {env : Env} {ctx : Ctx} {eP : EntityId}
    (hd : updateAction ctx.action = .delete) :
    ∀ {caV : List ContextAttribute} {work final : Work} {w : World}, caV ≠ [] →
      (processContextAttributeVector env ctx eP caV work w).result = .ok final →
      ∀ x ∈ final.attrs, x.value = none ∨ IsText x.value
  | [], _, _, _, hne, _ => absurd rfl hne
  | ca :: caV, work, final, w, _, h => by
    obtain ⟨work1, flag, subs, w1, ha, h1, _⟩ := processContextAttributeVector_cons h
    have hw : work1.attrs = (deleteAttribute work.attrs ca).1 := by rw [processAction_attrs ha, hd]; rfl
    cases caV with
    | nil =>
      simp only [processContextAttributeVector] at h1
      cases h1
      intro x hx
      exact deleteAttribute_value (by rw [← hw]; exact hx)
    | cons cb caV => exact processContextAttributeVector_delete_value hd (by simp) h1

/-! ## Isolation -/

/-- Every attribute whose key is not in `K` is there afterwards, with the same fields. -/
def Isolated (K : List (String × String)) (attrs attrs' : List AttrDoc) : Prop :=
  Keeps ((attrs.map AttrDoc.view).filter fun v => v.key ∉ K) attrs'

instance (K : List (String × String)) (attrs attrs' : List AttrDoc) : Decidable (Isolated K attrs attrs') :=
  inferInstanceAs (Decidable (List.Sublist _ _))

/-- The attributes that are not named are copied as they are: their fields have no NUL, and for a DELETE their values
are strings without NUL. -/
structure CopiedWhole (action : UpdateAction) (K : List (String × String)) (attrs : List AttrDoc) : Prop where
  fields : action ≠ .unknown → ∀ a ∈ attrs, a.view.key ∉ K → a.NoNul
  value : action = .delete → ∀ a ∈ attrs, a.view.key ∉ K → IsText a.value

theorem mem_isolated_views {K : List (String × String)} {attrs : List AttrDoc} {v : AttrView}
    (h : v ∈ (attrs.map AttrDoc.view).filter fun v => v.key ∉ K) :
    ∃ a ∈ attrs, a.view.key ∉ K ∧ a.view = v := by
  obtain ⟨hm, hk⟩ := List.mem_filter.1 h
  obtain ⟨a, ha, rfl⟩ := List.mem_map.1 hm
  exact ⟨a, ha, of_decide_eq_true hk, rfl⟩

theorem isolated_keeps (K : List (String × String)) (attrs : List AttrDoc) :
    Keeps ((attrs.map AttrDoc.view).filter fun v => v.key ∉ K) attrs := List.filter_sublist

/-- What is isolated has an element of the result for each of its elements. -/
theorem Isolated.exists_view {K : List (String × String)} {attrs attrs' : List AttrDoc} (h : Isolated K attrs attrs')
    {a : AttrDoc} (ha : a ∈ attrs) (hk : a.view.key ∉ K) : ∃ x ∈ attrs', x.view = a.view :=
  List.mem_map.1 (h.subset (List.mem_filter.2 ⟨List.mem_map_of_mem ha, decide_eq_true hk⟩))

/-- What is isolated was copied whole, when the result holds what the operations leave. -/
theorem copiedWhole_of_isolated {action : UpdateAction} {K : List (String × String)} {attrs attrs' : List AttrDoc}
    (hv : ∀ a ∈ attrs, IsValue a.value) (hf : action ≠ .unknown → ∀ x ∈ attrs', x.NoNul ∨ x.view.key ∈ K)
    (hx : action = .delete → ∀ x ∈ attrs', x.value = none ∨ IsText x.value) (h : Isolated K attrs attrs') :
    CopiedWhole action K attrs := by
  constructor
  · intro hu a ha hk
    obtain ⟨x, hx', e⟩ := h.exists_view ha hk
    rcases hf hu x hx' with hn | hin
    · rw [← AttrDoc.noNul_view, ← e, AttrDoc.noNul_view]
      exact hn
    · rw [e] at hin
      exact absurd hin hk
  · intro hd a ha hk
    obtain ⟨x, hx', e⟩ := h.exists_view ha hk
    have he : x.value = a.value := congrArg AttrView.value e
    rcases hx hd x hx' with hn | hs
    · have := hv a ha
      rw [← he, hn] at this
      exact absurd this id
    · rw [← he]
      exact hs

/-- **Isolation, exactly.** One operation, and a whole request vector, leave every attribute they do not
name as it was, unless it has a NUL, or they DELETE while it has a compound value. -/
theorem isolated_iff {attrs : List AttrDoc} (hv : ∀ a ∈ attrs, IsValue a.value) :
    (∀ now (action : UpdateAction) ca,
      (Isolated [ContextAttribute.key ca] attrs (attrsAfter now action attrs ca) ↔
        CopiedWhole action [ca.key] attrs)) ∧
    (∀ env ctx eP caV work final w, work.attrs = attrs → caV ≠ [] →
      (processContextAttributeVector env ctx eP caV work w).result = .ok final →
      (Isolated (caV.map ContextAttribute.key) attrs final.attrs ↔
        CopiedWhole (updateAction ctx.action) (caV.map ContextAttribute.key) attrs)) := by
  constructor
  · intro now action ca
    constructor
    · refine copiedWhole_of_isolated hv (fun hu x hx => ?_) ?_
      · simpa using attrsAfter_noNul hu hx
      · rintro rfl x hx
        exact deleteAttribute_value hx
    · intro h
      by_cases hu : action = .unknown
      · rw [hu]
        exact isolated_keeps _ attrs
      · refine attrsAfter_keeps ?_ ?_ now action ?_ ?_ (isolated_keeps _ attrs)
        · intro v hm
          obtain ⟨a, _, hk, rfl⟩ := mem_isolated_views hm
          simpa using hk
        · intro v hm
          obtain ⟨a, ha, hk, rfl⟩ := mem_isolated_views hm
          exact AttrDoc.noNul_view.2 (h.fields hu a ha hk)
        · intro v hm
          obtain ⟨a, ha, _, rfl⟩ := mem_isolated_views hm
          exact hv a ha
        · intro hd v hm
          obtain ⟨a, ha, hk, rfl⟩ := mem_isolated_views hm
          exact h.value hd a ha hk
  · rintro env ctx eP caV work final w rfl hne hr
    constructor
    · exact copiedWhole_of_isolated hv (fun _ => processContextAttributeVector_noNul hne hr)
        (fun hd => processContextAttributeVector_delete_value hd hne hr)
    · intro h
      have hu : updateAction ctx.action ≠ .unknown := processContextAttributeVector_known hne hr
      refine processContextAttributeVector_keeps ?_ ?_ ?_ ?_ hr (isolated_keeps _ work.attrs)
      · intro v hm
        obtain ⟨a, ha, hk, rfl⟩ := mem_isolated_views hm
        exact AttrDoc.noNul_view.2 (h.fields hu a ha hk)
      · intro v hm
        obtain ⟨a, ha, _, rfl⟩ := mem_isolated_views hm
        exact hv a ha
      · intro hd v hm
        obtain ⟨a, ha, hk, rfl⟩ := mem_isolated_views hm
        exact h.value hd a ha hk
      · intro v hm
        obtain ⟨a, _, hk, rfl⟩ := mem_isolated_views hm
        exact hk

/-- A speed, and a position with a compound value. -/
def speedAndPosition : List AttrDoc := [
  { name := some "speed", type := some "float", value := some (.str "80") },
  { name := some "position", type := some "point",
    value := some (.obj [("x", .str "1"), ("y", .str "2")]) }]

theorem speedAndPosition_update_isolated :
    Isolated [("speed", "")] speedAndPosition
      (attrsAfter 7 .update speedAndPosition { name := "speed", value := "90" }) :=
  ((@isolated_iff speedAndPosition
    (by simp [speedAndPosition, IsValue])).1 7 .update { name := "speed", value := "90" }).2
    ⟨fun _ => by decide, fun h => by cases h⟩

/-- **A compound value lost.** Deleting `speed` replaces the position by the empty string. -/
theorem speedAndPosition_delete_not_isolated :
    ¬ Isolated [("speed", "")] speedAndPosition
      (attrsAfter 7 .delete speedAndPosition { name := "speed" }) ∧
    (attrsAfter 7 .delete speedAndPosition { name := "speed" }).map AttrDoc.value = [some (.str "")] := by
  decide

/-- An update of `b` shortens the name of another attribute. -/
example : (attrsAfter 7 .update [{ name := some "a\x00x", value := some (.str "1") }] { name := "b" }).map AttrDoc.name
    = [some "a"] := by decide

end OrionBroker
