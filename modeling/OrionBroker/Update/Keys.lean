import OrionBroker.Update.Isolation

/-!
# The keys of the attributes, over whole runs

Every stored attribute has a name, no two have the same name and id, and no name occurs both with and
without an id (`KeyInv`). UPDATE, APPEND to an existing entity and DELETE keep this; a creation has it
exactly when the request vector has it, and `legalIdUsageVector` (MongoCommonUpdate.cpp:664) lets vectors
pass that do not: it does not compare two attributes with the same id, and it only compares attributes
of the same type. A name or an ID with a NUL is appended as it is, and the next operation cuts it.
-/

namespace OrionBroker

open Mongo

/-! ## Keys -/

/-- Pairwise different keys, and no name with and without id. -/
structure LegalKeys (ks : List (String × String)) : Prop where
  nodup : ks.Nodup
  ids : ∀ k ∈ ks, ∀ k' ∈ ks, k.1 = k'.1 → (k.2 = "" ↔ k'.2 = "")

theorem LegalKeys.sublist {ks ks' : List (String × String)} (h : LegalKeys ks) (hs : ks'.Sublist ks) :
    LegalKeys ks' :=
  ⟨h.nodup.sublist hs, fun k hk k' hk' => h.ids k (hs.subset hk) k' (hs.subset hk')⟩

theorem LegalKeys.snoc {ks : List (String × String)} {k : String × String} (h : LegalKeys ks) (hk : k ∉ ks)
    (hid : ∀ k' ∈ ks, k'.1 = k.1 → (k'.2 = "" ↔ k.2 = "")) : LegalKeys (ks ++ [k]) where
  nodup := by
    rw [List.nodup_append]
    refine ⟨h.nodup, by simp, fun a ha b hb e => ?_⟩
    rw [List.mem_singleton] at hb
    exact hk (by rw [← hb, ← e]; exact ha)
  ids a ha b hb e := by
    rw [List.mem_append, List.mem_singleton] at ha hb
    rcases ha with ha | rfl
    · rcases hb with hb | rfl
      · exact h.ids a ha b hb e
      · exact hid a ha e
    · rcases hb with hb | rfl
      · exact (hid b hb e.symm).symm
      · exact Iff.rfl

/-- The invariant of an `attrs` array; `whole` says that the keys that are read are those that are stored. -/
structure KeyInv (attrs : List AttrDoc) : Prop where
  named : ∀ a ∈ attrs, a.name.isSome = true
  legal : LegalKeys (attrs.map AttrDoc.key)
  whole : ∀ a ∈ attrs, a.view.key = a.key

/-- A key that was read has no NUL. -/
theorem noNulKey_of_key {ca : ContextAttribute} {a : AttrDoc} (h : ca.key = a.key) : ca.NoNulKey where
  name := by
    rw [show ca.name = strField a.name from congrArg Prod.fst h]
    exact noNul_cString _
  id := by
    rw [show ca.getId = strField a.id from congrArg Prod.snd h]
    exact noNul_cString _

/-! ## The operations keep it -/

section
variable {now : Int} {attrs : List AttrDoc} {ca : ContextAttribute}

theorem checkAndUpdate_key (a : AttrDoc) : (checkAndUpdate now a ca).1.key = a.key := by
  unfold checkAndUpdate
  split
  · exact updatedAttr_key now a ca
  · exact copiedAttr_key a

theorem updateAttribute_keys : (updateAttribute now attrs ca).1.map AttrDoc.key = attrs.map AttrDoc.key := by
  rw [updateAttribute_attrs, List.map_map]
  exact List.map_congr_left fun a _ => checkAndUpdate_key a

theorem updateAttribute_named : ∀ a ∈ (updateAttribute now attrs ca).1, a.name.isSome = true := by
  rw [updateAttribute_attrs]
  intro x hx
  obtain ⟨a, _, rfl⟩ := List.mem_map.1 hx
  unfold checkAndUpdate
  split <;> rfl

/-- "Updated" means that some element has the key. -/
theorem updateAttribute_updated : (updateAttribute now attrs ca).2.1 = true ↔ ca.key ∈ attrs.map AttrDoc.key := by
  simp only [updateAttribute, List.any_map, List.any_eq_true, List.mem_map, Function.comp_apply]
  refine exists_congr fun a => and_congr Iff.rfl ?_
  by_cases h : a.key = ca.key
  · simp [checkAndUpdate_of_eq h, h]
  · simp [checkAndUpdate_of_ne h, h]

theorem updateAttribute_whole : ∀ a ∈ (updateAttribute now attrs ca).1, a.view.key = a.key := by
  rw [updateAttribute_attrs]
  intro x hx
  obtain ⟨a, _, rfl⟩ := List.mem_map.1 hx
  rw [checkAndUpdate_key]
  unfold checkAndUpdate
  split
  · exact updatedAttr_view_key now a ca
  · exact copiedAttr_view_key a

theorem appendedAttr_key (hn : ca.NoNulKey) : (appendedAttr now ca).key = ca.key := by
  unfold appendedAttr AttrDoc.key ContextAttribute.key
  simp only [strField_some, hn.name.cString]
  split
  · rw [strField_some, hn.id.cString]
  · rename_i h; rw [Classical.not_not.1 h, strField_none]

theorem appendAttribute_keys (hn : ca.NoNulKey) : (appendAttribute now attrs ca).1.map AttrDoc.key =
    attrs.map AttrDoc.key ++ (if ca.key ∈ attrs.map AttrDoc.key then [] else [ca.key]) := by
  rw [appendAttribute_attrs, List.map_append, updateAttribute_keys]
  congr 1
  by_cases h : ca.key ∈ attrs.map AttrDoc.key
  · rw [if_pos h, if_pos (updateAttribute_updated.2 h)]; rfl
  · rw [if_neg h, if_neg (mt updateAttribute_updated.1 h)]
    exact congrArg (fun k => [k]) (appendedAttr_key hn)

/-- `legalIdUsage` compares with every element of the name. -/
theorem legalIdUsage_ids (h : legalIdUsage attrs ca = true) :
    ∀ k ∈ attrs.map AttrDoc.key, k.1 = ca.key.1 → (k.2 = "" ↔ ca.key.2 = "") := by
  intro k hk e
  obtain ⟨a, ha, rfl⟩ := List.mem_map.1 hk
  unfold legalIdUsage at h
  split at h
  · rename_i hid
    have h : ∀ a ∈ attrs, strField a.name = ca.name → strField a.id = "" := by simpa using h
    exact ⟨fun _ => hid, fun _ => h a ha e⟩
  · rename_i hid
    have h : ∀ a ∈ attrs, strField a.name = ca.name → ¬ strField a.id = "" := by simpa using h
    exact ⟨fun h0 => absurd h0 (h a ha e), fun h0 => absurd h0 hid⟩

theorem updateAttribute_keyInv (h : KeyInv attrs) : KeyInv (updateAttribute now attrs ca).1 :=
  ⟨updateAttribute_named, by rw [updateAttribute_keys]; exact h.legal, updateAttribute_whole⟩

theorem appendAttribute_keyInv (h : KeyInv attrs) (hn : ca.NoNulKey) (hl : legalIdUsage attrs ca = true) :
    KeyInv (appendAttribute now attrs ca).1 where
  named := by
    rw [appendAttribute_attrs]
    intro a ha
    rcases List.mem_append.1 ha with ha | ha
    · exact updateAttribute_named a ha
    · split at ha
      · cases ha
      · rw [List.mem_singleton.1 ha]; rfl
  legal := by
    rw [appendAttribute_keys hn]
    split
    · rw [List.append_nil]; exact h.legal
    · rename_i hk; exact h.legal.snoc hk (legalIdUsage_ids hl)
  whole := by
    rw [appendAttribute_attrs]
    intro a ha
    rcases List.mem_append.1 ha with ha | ha
    · exact updateAttribute_whole a ha
    · split at ha
      · cases ha
      · rw [List.mem_singleton.1 ha, appendedAttr_key hn, appendedAttr_view_key]

theorem deleteLoop_of_ne : ∀ {as : List AttrDoc} {deleted : Bool}, (∀ a ∈ as, a.key ≠ ca.key) →
    deleteLoop ca as deleted = (as.map keptAttr, deleted)
  | [], _, _ => rfl
  | a :: as, deleted, h => by
    have ha : a.key ≠ ca.key := h a (by simp)
    have hne : ∀ b ∈ as, b.key ≠ ca.key := fun b hb => h b (by simp [hb])
    simp [deleteLoop, checkAndDelete_of_ne ha, deleteLoop_of_ne hne]

/-- With different keys no empty element is left behind. -/
theorem deleteLoop_of_nodup : ∀ {as : List AttrDoc}, (as.map AttrDoc.key).Nodup →
    (deleteLoop ca as false).1 = (as.filter fun a => a.key ≠ ca.key).map keptAttr
  | [], _ => rfl
  | a :: as, h => by
    rw [List.map_cons, List.nodup_cons] at h
    by_cases hk : a.key = ca.key
    · have hne : ∀ b ∈ as, b.key ≠ ca.key := fun b hb e =>
        h.1 (by rw [hk, ← e]; exact List.mem_map_of_mem hb)
      have hf : as.filter (fun a => a.key ≠ ca.key) = as :=
        List.filter_eq_self.2 fun b hb => by simpa using hne b hb
      simp only [deleteLoop, checkAndDelete_of_eq hk, deleteLoop_of_ne hne, List.filter_cons, hf]
      simp [hk]
    · have ih := deleteLoop_of_nodup h.2
      simp only [deleteLoop, checkAndDelete_of_ne hk, List.filter_cons]
      simp [hk, ih]

theorem deleteAttribute_of_keyInv (h : KeyInv attrs) :
    (deleteAttribute attrs ca).1 = (attrs.filter fun a => a.key ≠ ca.key).map keptAttr :=
  deleteLoop_of_nodup h.legal.nodup

theorem deleteAttribute_keyInv (h : KeyInv attrs) : KeyInv (deleteAttribute attrs ca).1 where
  named := by
    rw [deleteAttribute_of_keyInv h]
    intro x hx
    obtain ⟨a, _, rfl⟩ := List.mem_map.1 hx
    rfl
  legal := by
    rw [deleteAttribute_of_keyInv h, List.map_map]
    have e : (attrs.filter fun a => a.key ≠ ca.key).map (AttrDoc.key ∘ keptAttr) =
        (attrs.filter fun a => a.key ≠ ca.key).map AttrDoc.key :=
      List.map_congr_left fun a _ => keptAttr_key a
    rw [e]
    exact h.legal.sublist (List.filter_sublist.map AttrDoc.key)
  whole := by
    rw [deleteAttribute_of_keyInv h]
    intro x hx
    obtain ⟨a, _, rfl⟩ := List.mem_map.1 hx
    rw [keptAttr_key, keptAttr_view_key]

end

/-! ## A vector, a creation, a run -/

section
variable {env : Env} {ctx : Ctx} {eP : EntityId}

theorem processAction_keyInv {ca : ContextAttribute} {work work' : Work} {flag : Bool}
    (h : processAction env ctx eP ca work = .ok (work', flag))
    (hn : updateAction ctx.action = .append → ca.NoNulKey) (hi : KeyInv work.attrs) : KeyInv work'.attrs := by
  rw [processAction_attrs h]
  unfold processAction at h
  split at h
  · rename_i ha; rw [ha]; exact updateAttribute_keyInv hi
  · rename_i ha; rw [ha]; exact appendAttribute_keyInv hi (hn ha) (processAppend_ok h).1
  · rename_i ha; rw [ha]; exact deleteAttribute_keyInv hi
  · cases h

theorem processContextAttributeVector_keyInv : ∀ {caV : List ContextAttribute} {work final : Work} {w : World},
    (processContextAttributeVector env ctx eP caV work w).result = .ok final →
    (updateAction ctx.action = .append → ∀ ca ∈ caV, ca.NoNulKey) → KeyInv work.attrs → KeyInv final.attrs
  | [], _, _, _, h, _, hi => by simp only [processContextAttributeVector] at h; cases h; exact hi
  | ca :: caV, _, _, _, h, hn, hi => by
    obtain ⟨work1, flag, subs, w1, ha, h1, _⟩ := processContextAttributeVector_cons h
    have hi1 := processAction_keyInv ha (fun e => hn e ca (by simp)) hi
    exact processContextAttributeVector_keyInv h1 (fun e c hc => hn e c (by simp [hc])) hi1

theorem createdAttr_view_key (now : Int) (ca : ContextAttribute) : (createdAttr now ca).view.key = ca.key := by
  by_cases h : ca.getId = "" <;> simp [createdAttr, AttrDoc.view, AttrView.key, ContextAttribute.key, h]

theorem createdAttr_key (now : Int) {ca : ContextAttribute} (hn : ca.NoNulKey) :
    (createdAttr now ca).key = ca.key := by
  unfold createdAttr AttrDoc.key ContextAttribute.key
  simp only [strField_some, hn.name.cString]
  split
  · rename_i h; rw [h, strField_none]
  · rw [strField_some, hn.id.cString]

/-- A created document has the invariant exactly when the request vector has legal keys without NUL. -/
theorem createdDoc_keyInv_iff (en : EntityId) (attrsV : List ContextAttribute) (loc : Loc) :
    KeyInv (createdDoc ctx en attrsV loc).attrs ↔
      (∀ ca ∈ attrsV, ca.NoNulKey) ∧ LegalKeys (attrsV.map ContextAttribute.key) := by
  have hk : ∀ hn : ∀ ca ∈ attrsV, ca.NoNulKey,
      (createdDoc ctx en attrsV loc).attrs.map AttrDoc.key = attrsV.map ContextAttribute.key := by
    intro hn
    rw [createdDoc, List.map_map]
    exact List.map_congr_left fun ca hca => createdAttr_key ctx.now (hn ca hca)
  constructor
  · intro h
    have hn : ∀ ca ∈ attrsV, ca.NoNulKey := by
      intro ca hca
      have := h.whole _ (List.mem_map_of_mem hca)
      rw [createdAttr_view_key] at this
      exact noNulKey_of_key this
    exact ⟨hn, hk hn ▸ h.legal⟩
  · rintro ⟨hn, h⟩
    refine ⟨fun a ha => ?_, by rw [hk hn]; exact h, fun a ha => ?_⟩
    · obtain ⟨ca, _, rfl⟩ := List.mem_map.1 ha
      rfl
    · obtain ⟨ca, hca, rfl⟩ := List.mem_map.1 ha
      rw [createdAttr_view_key, createdAttr_key ctx.now (hn ca hca)]

end

/-- An APPEND has no NUL in a name or an ID; when it finds no entity and `legalIdUsageVector` accepts its vector, the
keys are legal. -/
structure AppendsLegally (env : Env) (ctx : Ctx) (ce : ContextElement) (w : World) : Prop where
  noNul : updateAction ctx.action = .append → ∀ ca ∈ ce.contextAttributeVector, ca.NoNulKey
  legal : updateAction ctx.action = .append → foundDocuments env ctx ce w = [] →
    legalIdUsageVector ce.contextAttributeVector = true →
    LegalKeys (ce.contextAttributeVector.map ContextAttribute.key)

theorem processContextElement_keyInv {env : Env} {ctx : Ctx} {ce : ContextElement} {w : World}
    (hc : AppendsLegally env ctx ce w) (h : ∀ d ∈ w.entities.docs, KeyInv d.attrs) :
    ∀ d ∈ (processContextElement env ctx ce w).2.entities.docs, KeyInv d.attrs := by
  refine processContextElement_forall ?_ ?_ h
  · intro r hr w1 work d hok
    exact processContextAttributeVector_keyInv hok hc.noNul (h r (Collection.mem_find.1 hr).1)
  · intro loc ha hf hl _
    exact (createdDoc_keyInv_iff _ _ _).2 ⟨hc.noNul ha, hc.legal ha hf hl⟩

/-- **The keys are in order in every state reached**, when every vector that creates an entity has legal
keys and no APPEND has a NUL in one. -/
theorem reachable_keyInv {env : Env} {w : World} (h : Reachable env (AppendsLegally env) w) :
    ∀ d ∈ w.entities.docs, KeyInv d.attrs :=
  h.all_docs fun _ _ _ hok hi => processContextElement_keyInv hok hi

instance (ks : List (String × String)) : Decidable (LegalKeys ks) :=
  decidable_of_iff (ks.Nodup ∧ ∀ k ∈ ks, ∀ k' ∈ ks, k.1 = k'.1 → (k.2 = "" ↔ k'.2 = ""))
    ⟨fun h => ⟨h.1, h.2⟩, fun h => ⟨h.nodup, h.ids⟩⟩

instance (attrs : List AttrDoc) : Decidable (KeyInv attrs) :=
  decidable_of_iff ((∀ a ∈ attrs, a.name.isSome = true) ∧ LegalKeys (attrs.map AttrDoc.key) ∧
      ∀ a ∈ attrs, a.view.key = a.key)
    ⟨fun h => ⟨h.1, h.2.1, h.2.2⟩, fun h => ⟨h.named, h.legal, h.whole⟩⟩

/-- The state after one APPEND of the given attributes to an empty collection. -/
def afterAppend (caV : List ContextAttribute) : World :=
  (mongoUpdateContext (Env.plain fun _ _ => false) { action := "APPEND" }
    [{ entityId := { id := "Room" }, contextAttributeVector := caV }] {}).2

theorem afterAppend_keyInv :
    (afterAppend [{ name := "t", value := "1" }, { name := "u", value := "2" }]).entities.docs.map EntityDoc.key =
      [⟨"Room", none, none⟩] ∧
    ∀ d ∈ (afterAppend [{ name := "t", value := "1" }, { name := "u", value := "2" }]).entities.docs,
      KeyInv d.attrs :=
  ⟨by decide +kernel,
   @reachable_keyInv (Env.plain fun _ _ => false) _
    (.request _ _ (.start rfl) ⟨⟨fun _ => by decide, fun _ _ _ => by decide⟩, fun _ => trivial⟩)⟩

/-- **A run that breaks the invariant.** Creating `Room` with `t` twice is accepted, and leaves two elements
with one key; a DELETE of `t` then leaves an element without a name. -/
theorem append_twice_breaks_keys :
    Reachable (Env.plain fun _ _ => false) (fun _ _ _ => True)
      (afterAppend [{ name := "t", value := "1" }, { name := "t", value := "2" }]) ∧
    ¬ (∀ d ∈ (afterAppend [{ name := "t", value := "1" }, { name := "t", value := "2" }]).entities.docs,
      KeyInv d.attrs) ∧
    (mongoUpdateContext (Env.plain fun _ _ => false) { action := "DELETE" }
      [{ entityId := { id := "Room" }, contextAttributeVector := [{ name := "t" }] }]
      (afterAppend [{ name := "t", value := "1" }, { name := "t", value := "2" }])).2.entities.docs.map
      (fun d => d.attrs.map AttrDoc.name) = [[none]] :=
  ⟨.request _ _ (.start rfl) ⟨trivial, fun _ => trivial⟩, by decide +kernel, by decide +kernel⟩

end OrionBroker
