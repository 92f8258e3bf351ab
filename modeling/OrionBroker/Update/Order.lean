import OrionBroker.Update.ActionSpec
import OrionBroker.Update.Scope

/-!
# The order of the attributes in a request

Attributes with different names do not get in each other's way: what one of them finds and what it leaves
does not depend on the others, up to the copies that every step makes of the elements it does not address
(`norm`). So the steps commute (`runStep_swap`), and a vector may be reordered. A copy cuts a string at its first NUL, so
`Plain` asks for attributes without one where they are stored.

One thing is left: DELETE writes an empty element for every further element under the key it deletes
(MongoCommonUpdate.cpp:739-755), and the copy that the next step makes of it has fields. Which elements end
up empty depends on the attribute that comes last (`attribute_order_iff`).
-/

namespace OrionBroker

open Mongo

/-! ## Arrays up to copies -/

/-- The copy an action makes of an element it does not address. -/
def norm : UpdateAction → AttrDoc → AttrDoc
  | .delete => keptAttr
  | _ => copiedAttr

@[simp] theorem norm_key (action : UpdateAction) (a : AttrDoc) : (norm action a).key = a.key := by
  cases action <;> simp [norm]

theorem map_norm_keys (action : UpdateAction) (attrs : List AttrDoc) :
    (attrs.map (norm action)).map AttrDoc.key = attrs.map AttrDoc.key := by
  rw [List.map_map]
  exact List.map_congr_left fun a _ => norm_key action a

/-- What an action does to an array of copies, up to the order of the elements. -/
def normAfter (now : Int) (action : UpdateAction) (ca : ContextAttribute) (attrs : List AttrDoc) : List AttrDoc :=
  match action with
  | .update => attrs.map fun a => (checkAndUpdate now a ca).1
  | .append => (attrs.map fun a => (checkAndUpdate now a ca).1) ++
      if ca.key ∈ attrs.map AttrDoc.key then [] else [appendedAttr now ca]
  | .delete => (attrs.filter fun a => a.key ≠ ca.key) ++
      List.replicate ((attrs.map AttrDoc.key).count ca.key - 1) (keptAttr {})
  | .unknown => attrs

/-- What is asked of a request attribute: a name, and unless it is to be deleted a value, and that a copy of its element
reads all of it. -/
structure Plain (action : UpdateAction) (ca : ContextAttribute) : Prop where
  name : ca.name ≠ ""
  value : action ≠ .delete → ca.HasValue
  whole : action ≠ .delete → ca.KeptWhole

theorem key_ne_of_names {ca cb : ContextAttribute} (h : ca.name ≠ cb.name) : ca.key ≠ cb.key :=
  fun e => h (congrArg Prod.fst e)

section
variable {now : Int} {action : UpdateAction} {ca cb : ContextAttribute} {attrs attrs' : List AttrDoc}

theorem normAfter_perm (h : attrs.Perm attrs') :
    (normAfter now action ca attrs).Perm (normAfter now action ca attrs') := by
  have hk := h.map AttrDoc.key
  cases action with
  | update => exact h.map _
  | append =>
    have hm : ca.key ∈ attrs.map AttrDoc.key ↔ ca.key ∈ attrs'.map AttrDoc.key := hk.mem_iff
    simp only [normAfter, hm]
    exact (h.map _).append_right _
  | delete =>
    simp only [normAfter, hk.count_eq]
    exact (h.filter _).append_right _
  | unknown => exact h

/-- The loop of `deleteAttribute`, with its empty elements copied. -/
theorem deleteLoop_norm (attrs : List AttrDoc) (deleted : Bool) :
    ((deleteLoop ca attrs deleted).1.map keptAttr).Perm
      (((attrs.map keptAttr).filter fun a => a.key ≠ ca.key) ++
        List.replicate ((attrs.map AttrDoc.key).count ca.key - if deleted then 0 else 1) (keptAttr {})) := by
  induction attrs generalizing deleted with
  | nil => simp [deleteLoop]
  | cons a as ih =>
    by_cases h : a.key = ca.key
    · cases deleted with
      | false =>
        have := ih true
        simp only [deleteLoop, checkAndDelete_of_eq h]
        simpa [h] using this
      | true =>
        have := (ih true).cons (keptAttr {})
        simp only [deleteLoop, checkAndDelete_of_eq h]
        simp only [if_true, Nat.sub_zero] at this
        simp only [Bool.not_true, Bool.and_false, Bool.false_eq_true, if_false, List.map_cons, h,
          List.count_cons_self, if_true, Nat.sub_zero, List.replicate_succ]
        rw [List.filter_cons_of_neg (by simp [h])]
        exact this.trans List.perm_middle.symm
    · have := (ih deleted).cons (keptAttr a)
      simp only [deleteLoop, checkAndDelete_of_ne h]
      simpa [h, Ne.symm h] using this

/-- Every step leaves, up to copies, what `normAfter` says. -/
theorem map_norm_attrsAfter (hp : Plain action ca) : ((attrsAfter now action attrs ca).map (norm action)).Perm
    (normAfter now action ca (attrs.map (norm action))) := by
  have helem : action ≠ .delete → ((updateAttribute now attrs ca).1.map copiedAttr) =
      (attrs.map copiedAttr).map fun a => (checkAndUpdate now a ca).1 := by
    intro hd
    rw [updateAttribute_attrs, List.map_map, List.map_map]
    apply List.map_congr_left
    intro a _
    simp [checkAndUpdate_copied (hp.value hd), copiedAttr_checkAndUpdate (hp.whole hd)]
  cases action with
  | update => rw [show (attrsAfter now .update attrs ca).map (norm .update) = _ from helem (by decide)]; rfl
  | append =>
    have happ : (attrsAfter now .append attrs ca).map copiedAttr =
        ((updateAttribute now attrs ca).1.map copiedAttr) ++
          if ca.key ∈ attrs.map AttrDoc.key then [] else [appendedAttr now ca] := by
      show (appendAttribute now attrs ca).1.map copiedAttr = _
      rw [appendAttribute_attrs, List.map_append]
      congr 1
      by_cases hk : ca.key ∈ attrs.map AttrDoc.key
      · rw [if_pos hk, if_pos (updateAttribute_updated.2 hk)]; rfl
      · rw [if_neg hk, if_neg (mt updateAttribute_updated.1 hk), List.map_singleton,
          copiedAttr_appended (hp.whole (by decide))]
    show ((attrsAfter now .append attrs ca).map copiedAttr).Perm _
    rw [happ, helem (by decide), normAfter, map_norm_keys]
    rfl
  | delete =>
    have h := @deleteLoop_norm ca attrs false
    rw [normAfter, map_norm_keys]
    exact h
  | unknown => exact List.Perm.refl _

theorem attrsAfter_perm (hp : Plain action ca) (h : (attrs.map (norm action)).Perm (attrs'.map (norm action))) :
    ((attrsAfter now action attrs ca).map (norm action)).Perm
      ((attrsAfter now action attrs' ca).map (norm action)) :=
  (map_norm_attrsAfter hp).trans ((normAfter_perm h).trans (map_norm_attrsAfter hp).symm)

/-- The copy of an empty element answers to no name. -/
theorem keptAttr_empty_key (hn : ca.name ≠ "") : (keptAttr {}).key ≠ ca.key :=
  fun e => hn (congrArg Prod.fst e).symm

/-- Other keys are found as often after the step as before. -/
theorem count_normAfter (hp : Plain action ca) (hn : cb.name ≠ "") (hk : cb.key ≠ ca.key) :
    ((normAfter now action ca attrs).map AttrDoc.key).count cb.key = (attrs.map AttrDoc.key).count cb.key := by
  have hmap : (attrs.map fun a => (checkAndUpdate now a ca).1).map AttrDoc.key = attrs.map AttrDoc.key := by
    rw [List.map_map]
    exact List.map_congr_left fun a _ => checkAndUpdate_key a
  cases action with
  | update => rw [normAfter, hmap]
  | append =>
    rw [normAfter, List.map_append, hmap, List.count_append]
    split
    · simp
    · have h0 : [ca.key].count cb.key = 0 := List.count_eq_zero.2 (by simpa using hk)
      rw [List.map_singleton, appendedAttr_key (hp.whole (by decide)).key, h0, Nat.add_zero]
  | delete =>
    have hrep : ((List.replicate ((attrs.map AttrDoc.key).count ca.key - 1) (keptAttr {})).map
        AttrDoc.key).count cb.key = 0 := by
      rw [List.map_replicate, List.count_eq_zero]
      intro hm
      exact keptAttr_empty_key hn (List.eq_of_mem_replicate hm).symm
    have hfil : ((attrs.filter fun a => a.key ≠ ca.key).map AttrDoc.key).count cb.key =
        (attrs.map AttrDoc.key).count cb.key := by
      have he : (attrs.filter fun a => a.key ≠ ca.key).map AttrDoc.key =
          (attrs.map AttrDoc.key).filter fun k => k ≠ ca.key := by rw [List.filter_map]; rfl
      rw [he, List.count_filter (by simpa using hk)]
    rw [normAfter, List.map_append, List.count_append, hrep, hfil, Nat.add_zero]
  | unknown => rfl

theorem mem_normAfter (hp : Plain action ca) (hn : cb.name ≠ "") (hk : cb.key ≠ ca.key) :
    cb.key ∈ (normAfter now action ca attrs).map AttrDoc.key ↔ cb.key ∈ attrs.map AttrDoc.key := by
  rw [← List.count_pos_iff, count_normAfter hp hn hk, List.count_pos_iff]

theorem normAfter_comm (ha : Plain action ca) (hb : Plain action cb) (hk : ca.key ≠ cb.key) :
    (normAfter now action cb (normAfter now action ca attrs)).Perm
      (normAfter now action ca (normAfter now action cb attrs)) := by
  have hmap : action ≠ .delete → (attrs.map fun a => (checkAndUpdate now a ca).1).map
      (fun a => (checkAndUpdate now a cb).1) =
      (attrs.map fun a => (checkAndUpdate now a cb).1).map fun a => (checkAndUpdate now a ca).1 := by
    intro hd
    rw [List.map_map, List.map_map]
    exact List.map_congr_left fun a _ => checkAndUpdate_comm (ha.value hd) (hb.value hd) (ha.whole hd) (hb.whole hd) hk
  cases action with
  | update => rw [normAfter, normAfter, normAfter, normAfter, hmap (by decide)]
  | append =>
    have hma := @mem_normAfter now .append ca cb attrs ha hb.name hk.symm
    have hmb := @mem_normAfter now .append cb ca attrs hb ha.name hk
    -- the element that one of them adds is only copied by the other
    have hadd : ∀ c d : ContextAttribute, Plain .append c → c.key ≠ d.key →
        (if c.key ∈ attrs.map AttrDoc.key then [] else [appendedAttr now c]).map
          (fun a => (checkAndUpdate now a d).1) =
        if c.key ∈ attrs.map AttrDoc.key then [] else [appendedAttr now c] := by
      intro c d hc hcd
      have hw := hc.whole (by decide)
      split
      · rfl
      · rw [List.map_singleton, checkAndUpdate_of_ne (by rw [appendedAttr_key hw.key]; exact hcd),
          copiedAttr_appended hw]
    simp only [normAfter] at hma hmb
    simp only [normAfter, hma, hmb]
    simp only [List.map_append, hadd ca cb ha hk, hadd cb ca hb hk.symm, hmap (by decide)]
    rw [List.append_assoc, List.append_assoc]
    exact List.perm_append_comm.append_left _
  | delete =>
    have hca := @count_normAfter now .delete ca cb attrs ha hb.name hk.symm
    have hcb := @count_normAfter now .delete cb ca attrs hb ha.name hk
    simp only [normAfter] at hca hcb
    have hrep : ∀ (c : ContextAttribute) (n : Nat), c.name ≠ "" →
        (List.replicate n (keptAttr {})).filter (fun a => a.key ≠ c.key) = List.replicate n (keptAttr {}) := by
      intro c n hc
      rw [List.filter_eq_self]
      intro x hx
      rw [List.eq_of_mem_replicate hx]
      simpa using keptAttr_empty_key hc
    simp only [normAfter, hca, hcb, List.filter_append, hrep ca _ ha.name, hrep cb _ hb.name]
    rw [List.filter_filter, List.filter_filter, List.append_assoc, List.append_assoc]
    simp only [Bool.and_comm]
    exact List.perm_append_comm.append_left _
  | unknown => exact List.Perm.refl _

theorem attrsAfter_comm (ha : Plain action ca) (hb : Plain action cb) (hk : ca.key ≠ cb.key) :
    ((attrsAfter now action (attrsAfter now action attrs ca) cb).map (norm action)).Perm
      ((attrsAfter now action (attrsAfter now action attrs cb) ca).map (norm action)) := by
  have h1 := (@map_norm_attrsAfter now action cb (attrsAfter now action attrs ca) hb).trans
    (normAfter_perm (map_norm_attrsAfter ha))
  have h2 := (@map_norm_attrsAfter now action ca (attrsAfter now action attrs cb) ha).trans
    (normAfter_perm (map_norm_attrsAfter hb))
  exact h1.trans ((normAfter_comm ha hb hk).trans h2.symm)

/-! ## What a step finds -/

theorem attrsAfter_keys (hp : Plain action ca) : ((attrsAfter now action attrs ca).map AttrDoc.key).Perm
    ((normAfter now action ca (attrs.map (norm action))).map AttrDoc.key) := by
  rw [← map_norm_keys action (attrsAfter now action attrs ca)]
  exact (map_norm_attrsAfter hp).map AttrDoc.key

/-- The tests on the array only look at the elements with the name. -/
theorem takes_congr (h : ∀ id, (ca.name, id) ∈ attrs.map AttrDoc.key ↔ (ca.name, id) ∈ attrs'.map AttrDoc.key) :
    takes action attrs ca = takes action attrs' ca := by
  have hkey : ca.key ∈ attrs.map AttrDoc.key ↔ ca.key ∈ attrs'.map AttrDoc.key := h ca.getId
  have hany : ∀ (p : String → Bool) (l : List AttrDoc), l.any (fun a => strField a.name == ca.name && p (strField a.id)) =
      true ↔ ∃ id, (ca.name, id) ∈ l.map AttrDoc.key ∧ p id = true := by
    intro p l
    simp only [List.any_eq_true, Bool.and_eq_true, beq_iff_eq, List.mem_map]
    constructor
    · rintro ⟨a, ha, hn, hp⟩
      exact ⟨strField a.id, ⟨a, ha, by rw [AttrDoc.key, hn]⟩, hp⟩
    · rintro ⟨id, ⟨a, ha, hk⟩, hp⟩
      rw [AttrDoc.key, Prod.mk.injEq] at hk
      exact ⟨a, ha, hk.1, by rw [hk.2]; exact hp⟩
  have hsame : ∀ p : String → Bool, attrs.any (fun a => strField a.name == ca.name && p (strField a.id)) =
      attrs'.any fun a => strField a.name == ca.name && p (strField a.id) := by
    intro p
    rw [Bool.eq_iff_iff, hany, hany]
    exact exists_congr fun id => and_congr (h id) Iff.rfl
  cases action with
  | update => simp only [takes, hkey]
  | append =>
    simp only [takes, legalIdUsage]
    rw [hsame (fun id => id != ""), hsame (fun id => id == "")]
  | delete => simp only [takes, hkey]
  | unknown => rfl

theorem takes_perm (h : (attrs.map (norm action)).Perm (attrs'.map (norm action))) :
    takes action attrs ca = takes action attrs' ca := by
  apply takes_congr
  intro id
  rw [← map_norm_keys action attrs, ← map_norm_keys action attrs']
  exact (h.map AttrDoc.key).mem_iff

/-- An attribute with another name changes nothing for the tests. -/
theorem takes_after (ha : Plain action ca) (hb : Plain action cb) (hn : cb.name ≠ ca.name) :
    takes action (attrsAfter now action attrs ca) cb = takes action attrs cb := by
  apply takes_congr
  intro id
  have hne : (cb.name, id) ≠ ca.key := fun e => hn (congrArg Prod.fst e)
  -- `cb` only lends its name here: the key may have any id
  have h := @mem_normAfter now action ca { cb with metadataVector := [⟨NGSI_MD_ID, "", id⟩] }
    (attrs.map (norm action)) ha hb.name hne
  rw [(attrsAfter_keys ha).mem_iff, ← map_norm_keys action attrs]
  exact h

theorem updateAttribute_actual_any :
    (updateAttribute now attrs ca).2.2 = attrs.any fun a => (checkAndUpdate now a ca).2.2 := by
  simp [updateAttribute, List.any_map, Function.comp_def]

theorem appendAttribute_modified_any : (appendAttribute now attrs ca).2 =
    (decide (ca.key ∉ attrs.map AttrDoc.key) || attrs.any fun a => (checkAndUpdate now a ca).2.2) := by
  rw [← updateAttribute_actual_any]
  by_cases h : ca.key ∈ attrs.map AttrDoc.key
  · simp [appendAttribute, updateAttribute_updated.2 h, h]
  · have hu : (updateAttribute now attrs ca).2.1 = false := by simpa using mt updateAttribute_updated.1 h
    simp [appendAttribute, hu, h]

theorem actual_perm (hv : ca.HasValue) (h : (attrs.map copiedAttr).Perm (attrs'.map copiedAttr)) :
    (attrs.any fun a => (checkAndUpdate now a ca).2.2) = attrs'.any fun a => (checkAndUpdate now a ca).2.2 := by
  have hc : ∀ l : List AttrDoc, (l.any fun a => (checkAndUpdate now a ca).2.2) =
      (l.map copiedAttr).any fun a => (checkAndUpdate now a ca).2.2 := by
    intro l
    rw [List.any_map]
    exact congrArg _ (funext fun a => by rw [Function.comp_apply, checkAndUpdate_copied hv])
  rw [hc attrs, hc attrs', h.any_eq]

/-- Another attribute leaves the change that is seen. -/
theorem actual_update (hv : cb.HasValue) (hk : ca.key ≠ cb.key) :
    ((updateAttribute now attrs ca).1.any fun a => (checkAndUpdate now a cb).2.2) =
      attrs.any fun a => (checkAndUpdate now a cb).2.2 := by
  rw [updateAttribute_attrs, List.any_map]
  refine congrArg _ (funext fun a => ?_)
  rw [Function.comp_apply]
  by_cases h : a.key = ca.key
  · have hne : a.key ≠ cb.key := by rw [h]; exact hk
    rw [checkAndUpdate_of_eq h, checkAndUpdate_of_ne (by rw [updatedAttr_key]; exact hne), checkAndUpdate_of_ne hne]
  · rw [checkAndUpdate_of_ne h, checkAndUpdate_copied hv]

theorem modifies_perm (hp : Plain action ca) (h : (attrs.map (norm action)).Perm (attrs'.map (norm action))) :
    modifies now action attrs ca = modifies now action attrs' ca := by
  cases action with
  | update =>
    simp only [modifies, updateAttribute_actual_any]
    exact actual_perm (hp.value (by decide)) h
  | append =>
    have hk : ca.key ∈ attrs.map AttrDoc.key ↔ ca.key ∈ attrs'.map AttrDoc.key := by
      rw [← map_norm_keys .append attrs, ← map_norm_keys .append attrs']
      exact (h.map AttrDoc.key).mem_iff
    simp only [modifies, appendAttribute_modified_any, hk]
    rw [actual_perm (hp.value (by decide)) h]
  | delete => rfl
  | unknown => rfl

theorem modifies_after (ha : Plain action ca) (hb : Plain action cb) (hk : cb.key ≠ ca.key) :
    modifies now action (attrsAfter now action attrs ca) cb = modifies now action attrs cb := by
  cases action with
  | update =>
    simp only [modifies, updateAttribute_actual_any]
    exact actual_update (hb.value (by decide)) hk.symm
  | append =>
    have hm : cb.key ∈ (attrsAfter now .append attrs ca).map AttrDoc.key ↔ cb.key ∈ attrs.map AttrDoc.key := by
      rw [(attrsAfter_keys ha).mem_iff, mem_normAfter ha hb.name hk, map_norm_keys]
    have hany : ((attrsAfter now .append attrs ca).any fun a => (checkAndUpdate now a cb).2.2) =
        attrs.any fun a => (checkAndUpdate now a cb).2.2 := by
      show ((appendAttribute now attrs ca).1.any _) = _
      rw [appendAttribute_attrs, List.any_append, actual_update (hb.value (by decide)) hk.symm]
      split
      · simp
      · rw [List.any_cons, checkAndUpdate_of_ne (by rw [appendedAttr_key (ha.whole (by decide)).key]; exact hk.symm)]
        simp
    simp only [modifies, appendAttribute_modified_any, hm, hany]
  | delete => rfl
  | unknown => rfl

theorem looksUp_perm (hp : Plain action ca) (h : (attrs.map (norm action)).Perm (attrs'.map (norm action))) :
    looksUp now action attrs ca = looksUp now action attrs' ca := by
  cases action with
  | update => exact modifies_perm hp h
  | append => rfl
  | delete => rfl
  | unknown => rfl

theorem looksUp_after (ha : Plain action ca) (hb : Plain action cb) (hk : cb.key ≠ ca.key) :
    looksUp now action (attrsAfter now action attrs ca) cb = looksUp now action attrs cb := by
  cases action with
  | update => exact modifies_after ha hb hk
  | append => rfl
  | delete => rfl
  | unknown => rfl

section
variable {atof : List Char → Rat}

theorem locAfter_unmarked (hg : ca.getLocation = "") : locAfter atof .append ca = some := by
  funext loc
  simp only [locAfter, hg, if_true]

/-- Two marked attributes with different names are one too many. -/
theorem locAfter_both {loc : Loc} (hga : ca.getLocation ≠ "") (hgb : cb.getLocation ≠ "") (ha : ca.name ≠ "")
    (hn : ca.name ≠ cb.name) : (locAfter atof .append ca loc).bind (locAfter atof .append cb) = none := by
  rw [Option.bind_eq_none_iff]
  intro loc' h
  have hloc : loc'.locAttr = ca.name := by
    simp only [locAfter, hga, if_false] at h
    split at h
    · cases h
    · split at h
      · cases h
      · obtain ⟨p, _, rfl⟩ := Option.map_eq_some_iff.1 h
        rfl
  simp [locAfter, hgb, hloc, ha, Ne.symm hn]

/-- The location: at most one of two attributes with different names has to do with it, or both are
refused. -/
theorem locAfter_comm (ha : ca.name ≠ "") (hb : cb.name ≠ "") (hn : ca.name ≠ cb.name)
    (loc : Loc) : (locAfter atof action ca loc).bind (locAfter atof action cb) =
      (locAfter atof action cb loc).bind (locAfter atof action ca) := by
  have hn' := hn.symm
  cases action with
  | update =>
    by_cases h1 : loc.locAttr = ca.name
    · have h2 : loc.locAttr ≠ cb.name := by rw [h1]; exact hn
      cases hc : coords atof ca.value <;> by_cases hg : cb.getLocation = "" <;>
        simp [locAfter, locatedAt, h1, hn, hn', hc, hg]
    · by_cases h2 : loc.locAttr = cb.name
      · cases hc : coords atof cb.value <;> by_cases hg : ca.getLocation = "" <;>
          simp [locAfter, locatedAt, h2, hn, hn', hc, hg]
      · have h1' : ca.name ≠ loc.locAttr := fun e => h1 e.symm
        have h2' : cb.name ≠ loc.locAttr := fun e => h2 e.symm
        by_cases hg : ca.getLocation = "" <;> by_cases hg' : cb.getLocation = "" <;>
          simp [locAfter, h1, h2, h1', h2', hg, hg']
  | append =>
    by_cases hg : ca.getLocation = ""
    · rw [locAfter_unmarked hg, Option.bind_some, Option.bind_fun_some]
    · by_cases hg' : cb.getLocation = ""
      · rw [locAfter_unmarked hg', Option.bind_some, Option.bind_fun_some]
      · rw [locAfter_both hg hg' ha hn, locAfter_both hg' hg hb hn']
  | delete =>
    by_cases hg : ca.getLocation = "" <;> by_cases hg' : cb.getLocation = "" <;>
      by_cases h1 : loc.locAttr = ca.name <;> by_cases h2 : loc.locAttr = cb.name <;>
        simp [locAfter, h1, h2, hg, hg', hn, hn', Ne.symm ha, Ne.symm hb]
  | unknown => rfl

end

end

/-! ## The steps commute -/

/-- Working copies and names looked up, up to copies and order. -/
structure Similar (action : UpdateAction) (s t : Work × List String) : Prop where
  attrs : (s.1.attrs.map (norm action)).Perm (t.1.attrs.map (norm action))
  loc : s.1.loc = t.1.loc
  subs : s.1.subs = t.1.subs
  modified : s.1.entityModified = t.1.entityModified
  names : s.2.Perm t.2

theorem similar_equivalence (action : UpdateAction) : Equivalence (Similar action) where
  refl _ := ⟨.refl _, rfl, rfl, rfl, .refl _⟩
  symm h := ⟨h.attrs.symm, h.loc.symm, h.subs.symm, h.modified.symm, h.names.symm⟩
  trans h h' := ⟨h.attrs.trans h'.attrs, h.loc.trans h'.loc, h.subs.trans h'.subs,
    h.modified.trans h'.modified, h.names.trans h'.names⟩

section
variable {env : Env} {now : Int} {action : UpdateAction} {ca cb : ContextAttribute}

theorem runStep_respects (s t : Work × List String) (hp : Plain action ca) (h : Similar action s t) :
    Replay.Agree (Similar action) (runStep env now action ca s) (runStep env now action ca t) := by
  unfold runStep
  rw [takes_perm h.attrs, h.loc, modifies_perm hp h.attrs, looksUp_perm hp h.attrs, h.modified]
  split
  · cases locAfter env.atof action ca t.1.loc with
    | none => exact .none
    | some loc =>
      refine .some ⟨attrsAfter_perm hp h.attrs, rfl, h.subs, rfl, ?_⟩
      simp only
      split
      · exact h.names.append_right _
      · exact h.names
  · exact .none

/-- Two steps with different names, as one. -/
theorem runStep_bind (s : Work × List String) (ha : Plain action ca) (hb : Plain action cb)
    (hn : ca.name ≠ cb.name) :
    (runStep env now action ca s).bind (runStep env now action cb) =
      if takes action s.1.attrs ca && takes action s.1.attrs cb then
        ((locAfter env.atof action ca s.1.loc).bind (locAfter env.atof action cb)).map fun loc =>
          ({ s.1 with
              attrs := attrsAfter now action (attrsAfter now action s.1.attrs ca) cb
              loc := loc
              entityModified := modifies now action s.1.attrs cb ||
                (modifies now action s.1.attrs ca || s.1.entityModified) },
            s.2 ++ ((if looksUp now action s.1.attrs ca then [ca.name] else []) ++
              if looksUp now action s.1.attrs cb then [cb.name] else []))
      else none := by
  have hk : cb.key ≠ ca.key := key_ne_of_names (Ne.symm hn)
  by_cases hta : takes action s.1.attrs ca = true
  · rw [hta, Bool.true_and]
    rw [show runStep env now action ca s = _ from if_pos hta]
    cases locAfter env.atof action ca s.1.loc with
    | none => simp
    | some loc =>
      simp only [Option.map_some, Option.bind_some]
      unfold runStep
      simp only
      rw [takes_after ha hb (Ne.symm hn), modifies_after ha hb hk, looksUp_after ha hb hk]
      split
      · refine congrArg (fun f => Option.map f _) (funext fun loc' => ?_)
        cases looksUp now action s.1.attrs ca <;> cases looksUp now action s.1.attrs cb <;> simp
      · rfl
  · simp [runStep, hta]

theorem runStep_swap (s : Work × List String) (ha : Plain action ca) (hb : Plain action cb)
    (hn : ca.name ≠ cb.name) :
    Replay.Agree (Similar action) ((runStep env now action ca s).bind (runStep env now action cb))
      ((runStep env now action cb s).bind (runStep env now action ca)) := by
  rw [runStep_bind s ha hb hn, runStep_bind s hb ha (Ne.symm hn), locAfter_comm ha.name hb.name hn, Bool.and_comm]
  split
  · cases (locAfter env.atof action cb s.1.loc).bind (locAfter env.atof action ca) with
    | none => exact .none
    | some loc =>
      refine .some ⟨attrsAfter_comm ha hb (key_ne_of_names hn), rfl, rfl, ?_, ?_⟩
      · simp only [Bool.or_left_comm]
      · exact List.perm_append_comm.append_left _
  · exact .none

/-- **A vector may be reordered, up to copies.** -/
theorem run_reordered {caV caV' : List ContextAttribute} (hperm : caV.Perm caV')
    (hp : ∀ ca ∈ caV, Plain action ca) (hn : (caV.map ContextAttribute.name).Nodup) (s : Work × List String) :
    Replay.Agree (Similar action) (Replay.run (runStep env now action) caV s)
      (Replay.run (runStep env now action) caV' s) := by
  have hpw : caV.Pairwise fun ca cb => ca.name ≠ cb.name := List.pairwise_map.1 hn
  exact @Replay.run_perm _ _ (Similar action) (runStep env now action) (Plain action)
    (fun ca cb => ca.name ≠ cb.name) (fun _ s t hca h => runStep_respects s t hca h)
    (similar_equivalence action) (fun _ _ h => Ne.symm h) (fun _ _ s ha hb h => runStep_swap s ha hb h)
    _ _ hperm hp hpw s s ((similar_equivalence action).refl s)

end

/-! ## The last step -/

section
variable {env : Env} {now : Int} {action : UpdateAction} {ca cb : ContextAttribute} {s s' : Work × List String}

theorem runStep_attrs (h : runStep env now action ca s = some s') :
    s'.1.attrs = attrsAfter now action s.1.attrs ca := by
  unfold runStep at h
  split at h
  · obtain ⟨loc, _, rfl⟩ := Option.map_eq_some_iff.1 h
    rfl
  · cases h

/-- Keys that are not addressed are as frequent after a vector as before. -/
theorem run_count {pre : List ContextAttribute} (hp : ∀ ca ∈ pre, Plain action ca)
    (hn : ∀ ca ∈ pre, cb.name ≠ ca.name) (hb : cb.name ≠ "")
    (h : Replay.run (runStep env now action) pre s = some s') :
    (s'.1.attrs.map AttrDoc.key).count cb.key = (s.1.attrs.map AttrDoc.key).count cb.key := by
  refine Replay.run_invariant (fun ca hca t t' ht hst => ?_) (I := fun t : Work × List String =>
    (t.1.attrs.map AttrDoc.key).count cb.key = (s.1.attrs.map AttrDoc.key).count cb.key) rfl h
  rw [runStep_attrs hst, (attrsAfter_keys (hp ca hca)).count_eq,
    count_normAfter (hp ca hca) hb (key_ne_of_names (hn ca hca)), map_norm_keys]
  exact ht

/-- After a step of UPDATE or APPEND every element is a copy. -/
theorem attrsAfter_copies (ha : action = .update ∨ action = .append) (hw : ca.KeptWhole) (attrs : List AttrDoc) :
    (attrsAfter now action attrs ca).map (norm action) = attrsAfter now action attrs ca := by
  have hup : (updateAttribute now attrs ca).1.map copiedAttr = (updateAttribute now attrs ca).1 := by
    rw [updateAttribute_attrs, List.map_map]
    exact List.map_congr_left fun a _ => copiedAttr_checkAndUpdate hw
  rcases ha with rfl | rfl
  · exact hup
  · show (appendAttribute now attrs ca).1.map copiedAttr = (appendAttribute now attrs ca).1
    rw [appendAttribute_attrs, List.map_append, hup]
    split
    · rfl
    · rw [List.map_singleton, copiedAttr_appended hw]

/-- The empty elements DELETE leaves: one for each further element under the key. -/
theorem count_empty_deleteLoop (attrs : List AttrDoc) (deleted : Bool) :
    (deleteLoop ca attrs deleted).1.count {} =
      (attrs.map AttrDoc.key).count ca.key - if deleted then 0 else 1 := by
  induction attrs generalizing deleted with
  | nil => simp [deleteLoop]
  | cons a as ih =>
    by_cases h : a.key = ca.key
    · cases deleted with
      | false =>
        simp only [deleteLoop, checkAndDelete_of_eq h]
        simpa [h] using ih true
      | true =>
        simp only [deleteLoop, checkAndDelete_of_eq h]
        simpa [h] using ih true
    · have hne : keptAttr a ≠ {} := by simp [keptAttr]
      simp only [deleteLoop, checkAndDelete_of_ne h]
      simpa [h, hne, List.count_cons] using ih deleted

/-- Arrays of copies and empty elements that agree up to copies are the same when they have as many empty
elements. -/
theorem perm_iff_count_empty {l l' : List AttrDoc} (hl : ∀ x ∈ l, x = {} ∨ keptAttr x = x)
    (hl' : ∀ x ∈ l', x = {} ∨ keptAttr x = x) (h : (l.map keptAttr).Perm (l'.map keptAttr)) :
    l.Perm l' ↔ l.count {} = l'.count {} := by
  have hsplit : ∀ m : List AttrDoc, (List.replicate (m.count {}) ({} : AttrDoc) ++ m.filter (· != ({} : AttrDoc))).Perm m := by
    intro m
    have := List.filter_append_perm (fun x : AttrDoc => x == {}) m
    rwa [List.filter_beq] at this
  have hmap : ∀ m : List AttrDoc, (∀ x ∈ m, x = {} ∨ keptAttr x = x) →
      (m.map keptAttr).Perm (List.replicate (m.count {}) (keptAttr {}) ++ m.filter (· != ({} : AttrDoc))) := by
    intro m hm
    have hfix : (m.filter (· != ({} : AttrDoc))).map keptAttr = m.filter (· != ({} : AttrDoc)) := by
      conv_rhs => rw [← List.map_id (m.filter (· != ({} : AttrDoc)))]
      refine List.map_congr_left fun x hx => ?_
      obtain ⟨hxm, hne⟩ := List.mem_filter.1 hx
      exact (hm x hxm).resolve_left (by simpa using hne)
    have := (hsplit m).symm.map keptAttr
    rwa [List.map_append, List.map_replicate, hfix] at this
  constructor
  · intro hp; exact hp.count_eq {}
  · intro hc
    have h1 := (hmap l hl).symm.trans (h.trans (hmap l' hl'))
    rw [hc] at h1
    have h2 := (List.perm_append_left_iff _).1 h1
    refine (hsplit l).symm.trans (List.Perm.trans ?_ (hsplit l'))
    rw [hc]
    exact h2.append_left _

end

/-! ## Two orders of one vector -/

/-- The same elements, location, flag and subscriptions. -/
structure SameWork (f f' : Work) : Prop where
  attrs : f.attrs.Perm f'.attrs
  loc : f.loc = f'.loc
  modified : f.entityModified = f'.entityModified
  subs : ∀ k, k ∈ f.subs.keys ↔ k ∈ f'.subs.keys

/-- Both vectors are refused, or both are taken with the same result. -/
def SameResult (v v' : VectorResult) : Prop := Replay.Agree SameWork v.result.toOption v'.result.toOption

/-- A DELETE of the attribute is taken (:1278-1289). -/
def Deletable (attrs : List AttrDoc) (ca : ContextAttribute) : Prop :=
  ca.key ∈ attrs.map AttrDoc.key ∧ ca.getLocation = ""

/-- How many elements the array has under the key of the last attribute, besides the one that goes. -/
def lastSurplus (attrs : List AttrDoc) (caV : List ContextAttribute) : Nat :=
  match caV.getLast? with
  | some ca => (attrs.map AttrDoc.key).count ca.key - 1
  | none => 0

section
variable {env : Env} {now : Int}

theorem runStep_delete {ca : ContextAttribute} {s : Work × List String} :
    (∃ s', runStep env now .delete ca s = some s') ↔ Deletable s.1.attrs ca := by
  unfold runStep Deletable
  by_cases hk : ca.key ∈ s.1.attrs.map AttrDoc.key
  · by_cases hg : ca.getLocation = ""
    · by_cases hl : s.1.loc.locAttr = ca.name <;> simp [takes, locAfter, hk, hg, hl]
    · simp [takes, locAfter, hg]
  · simp [takes, hk]

theorem deletable_after {ca cb : ContextAttribute} {s s' : Work × List String} (ha : Plain .delete ca)
    (hb : Plain .delete cb) (hn : cb.name ≠ ca.name) (h : runStep env now .delete ca s = some s') :
    Deletable s'.1.attrs cb ↔ Deletable s.1.attrs cb := by
  have ht := @takes_after now .delete ca cb s.1.attrs ha hb hn
  simp only [takes, decide_eq_decide] at ht
  rw [Deletable, Deletable, runStep_attrs h, ht]

/-- A vector of deletions is taken when each of them is, on the array as it was. -/
theorem run_delete_iff {caV : List ContextAttribute} (hp : ∀ ca ∈ caV, Plain .delete ca)
    (hn : (caV.map ContextAttribute.name).Nodup) (s : Work × List String) :
    (∃ s', Replay.run (runStep env now .delete) caV s = some s') ↔ ∀ ca ∈ caV, Deletable s.1.attrs ca := by
  induction caV generalizing s with
  | nil => simp
  | cons ca caV ih =>
    rw [List.map_cons, List.nodup_cons] at hn
    have hrest : ∀ s1, runStep env now .delete ca s = some s1 →
        ((∃ s', Replay.run (runStep env now .delete) caV s1 = some s') ↔ ∀ cb ∈ caV, Deletable s.1.attrs cb) := by
      intro s1 h1
      rw [ih (fun cb hb => hp cb (by simp [hb])) hn.2]
      refine forall_congr' fun cb => forall_congr' fun hb => ?_
      have hne : cb.name ≠ ca.name := fun e => hn.1 (by rw [← e]; exact List.mem_map_of_mem hb)
      exact deletable_after (hp ca (by simp)) (hp cb (by simp [hb])) hne h1
    rw [List.forall_mem_cons, Replay.run_cons]
    constructor
    · rintro ⟨s', h⟩
      obtain ⟨s1, h1, h2⟩ := Option.bind_eq_some_iff.1 h
      exact ⟨runStep_delete.1 ⟨s1, h1⟩, (hrest s1 h1).1 ⟨s', h2⟩⟩
    · rintro ⟨hca, hcaV⟩
      obtain ⟨s1, h1⟩ := (@runStep_delete env now ca s).2 hca
      obtain ⟨s', h2⟩ := (hrest s1 h1).2 hcaV
      exact ⟨s', by rw [h1]; exact h2⟩

/-- What a vector of deletions leaves: copies, and the empty elements of its last attribute. -/
theorem run_delete_attrs {caV : List ContextAttribute} (hp : ∀ ca ∈ caV, Plain .delete ca)
    (hn : (caV.map ContextAttribute.name).Nodup) (hne : caV ≠ []) {s s' : Work × List String}
    (h : Replay.run (runStep env now .delete) caV s = some s') :
    (∀ x ∈ s'.1.attrs, x = {} ∨ keptAttr x = x) ∧ s'.1.attrs.count {} = lastSurplus s.1.attrs caV := by
  obtain ⟨pre, ca, s1, rfl, h1, h2⟩ := Replay.run_last hne h
  have hattrs : s'.1.attrs = (deleteLoop ca s1.1.attrs false).1 := runStep_attrs h2
  have hca := hp ca (by simp)
  have hnot : ∀ cb ∈ pre, ca.name ≠ cb.name := by
    intro cb hb e
    rw [List.map_append, List.map_singleton, List.nodup_append] at hn
    exact hn.2.2 cb.name (List.mem_map_of_mem hb) ca.name (by simp) e.symm
  refine ⟨?_, ?_⟩
  · intro x hx
    rw [hattrs] at hx
    rcases mem_deleteLoop hx with ⟨a, _, _, rfl⟩ | rfl
    · exact .inr keptAttr_kept
    · exact .inl rfl
  · rw [hattrs, count_empty_deleteLoop, run_count (fun cb hb => hp cb (by simp [hb])) hnot hca.name h1,
      lastSurplus, List.getLast?_concat]
    rfl

/-- The elements after two orders of one vector agree; for DELETE, when both leave as many empty ones. -/
theorem similar_attrs_iff {action : UpdateAction} (ha : action ≠ .unknown) {caV caV' : List ContextAttribute}
    (hperm : caV.Perm caV') (hp : ∀ ca ∈ caV, Plain action ca) (hn : (caV.map ContextAttribute.name).Nodup)
    {s t t' : Work × List String} (h : Replay.run (runStep env now action) caV s = some t)
    (h' : Replay.run (runStep env now action) caV' s = some t') (hs : Similar action t t') :
    t.1.attrs.Perm t'.1.attrs ↔
      (action = .delete → lastSurplus s.1.attrs caV = lastSurplus s.1.attrs caV') := by
  by_cases hne : caV = []
  · subst hne
    rw [hperm.nil_eq] at h
    rw [h] at h'
    cases h'
    simp [hperm.nil_eq]
  have hne' : caV' ≠ [] := fun e => hne (by rw [e] at hperm; exact hperm.eq_nil)
  by_cases hd : action = .delete
  · subst hd
    have hp' : ∀ ca ∈ caV', Plain .delete ca := fun ca hca => hp ca (hperm.mem_iff.2 hca)
    have hn' : (caV'.map ContextAttribute.name).Nodup := (hperm.map _).nodup_iff.1 hn
    obtain ⟨hx, hc⟩ := run_delete_attrs hp hn hne h
    obtain ⟨hx', hc'⟩ := run_delete_attrs hp' hn' hne' h'
    rw [perm_iff_count_empty hx hx' hs.attrs, hc, hc']
    simp
  · have hcopy : ∀ {l : List ContextAttribute} {u : Work × List String}, l ≠ [] → (∀ ca ∈ l, ca.KeptWhole) →
        Replay.run (runStep env now action) l s = some u → u.1.attrs.map (norm action) = u.1.attrs := by
      intro l u hl hw hu
      obtain ⟨pre, ca, s1, rfl, _, h2⟩ := Replay.run_last hl hu
      rw [runStep_attrs h2]
      refine attrsAfter_copies ?_ (hw ca (by simp)) s1.1.attrs
      cases action <;> simp_all
    have hw : ∀ ca ∈ caV, ca.KeptWhole := fun ca hca => (hp ca hca).whole hd
    have hsame := hs.attrs
    rw [hcopy hne hw h, hcopy hne' (fun ca hca => hw ca (hperm.mem_iff.2 hca)) h'] at hsame
    simp [hsame, hd]

/-- **When the order of the attributes matters.** For a stored document and a vector of attributes with different
names, read whole when they are copied, all calls succeeding: any other order gives the same result, unless a DELETE
that is taken ends with an attribute that the document has more often, or less often, than the one the other order
ends with. -/
theorem attribute_order_iff {ctx : Ctx} {eP : EntityId} {r : EntityDoc} {w : World}
    {caV caV' : List ContextAttribute} (hperm : caV.Perm caV') (hn : (caV.map ContextAttribute.name).Nodup)
    (ha : updateAction ctx.action ≠ .unknown) (hp : ∀ ca ∈ caV, Plain (updateAction ctx.action) ca)
    (ho : w.outcomes = []) :
    SameResult (processContextAttributeVector env ctx eP caV (startWork r) w)
        (processContextAttributeVector env ctx eP caV' (startWork r) w) ↔
      (updateAction ctx.action = .delete → (∀ ca ∈ caV, Deletable r.attrs ca) →
        lastSurplus r.attrs caV = lastSurplus r.attrs caV') := by
  unfold SameResult
  rw [processContextAttributeVector_toOption ho, processContextAttributeVector_toOption ho]
  have hagree := @run_reordered env ctx.now (updateAction ctx.action) caV caV' hperm hp hn (startWork r, [])
  cases hrun : Replay.run (runStep env ctx.now (updateAction ctx.action)) caV (startWork r, []) with
  | none =>
    rw [hrun] at hagree
    cases hrun' : Replay.run (runStep env ctx.now (updateAction ctx.action)) caV' (startWork r, []) with
    | some t' => rw [hrun'] at hagree; cases hagree
    | none =>
      refine ⟨fun _ hd hall => ?_, fun _ => .none⟩
      -- deletions that are all possible are not refused
      rw [hd] at hrun hp
      obtain ⟨t, ht⟩ := (run_delete_iff hp hn (startWork r, [])).2 hall
      rw [hrun] at ht
      cases ht
  | some t =>
    rw [hrun] at hagree
    cases hrun' : Replay.run (runStep env ctx.now (updateAction ctx.action)) caV' (startWork r, []) with
    | none => rw [hrun'] at hagree; cases hagree
    | some t' =>
      rw [hrun'] at hagree
      have hs : Similar (updateAction ctx.action) t t' := by cases hagree; assumption
      have hiff := similar_attrs_iff ha hperm hp hn hrun hrun' hs
      have hsubs : ∀ k, k ∈ (collect env ctx eP w t.2 (startWork r).subs).keys ↔
          k ∈ (collect env ctx eP w t'.2 (startWork r).subs).keys := by
        intro k
        rw [mem_keys_collect, mem_keys_collect]
        refine or_congr Iff.rfl (exists_congr fun n => and_congr hs.names.mem_iff Iff.rfl)
      constructor
      · intro h hd _
        simp only [Option.map_some] at h
        cases h with
        | some rel => exact hiff.1 rel.attrs hd
      · intro h
        refine .some ⟨hiff.2 fun hd => h hd ?_, hs.loc, hs.modified, hsubs⟩
        rw [hd] at hrun hp
        exact (run_delete_iff hp hn (startWork r, [])).1 ⟨t, hrun⟩

theorem SameResult.perm {v v' : VectorResult} (h : SameResult v v') {l l' : List AttrDoc}
    (hl : v.result.toOption.map Work.attrs = some l) (hl' : v'.result.toOption.map Work.attrs = some l') :
    l.Perm l' := by
  unfold SameResult at h
  obtain ⟨f, hf, rfl⟩ := Option.map_eq_some_iff.1 hl
  obtain ⟨f', hf', rfl⟩ := Option.map_eq_some_iff.1 hl'
  rw [hf, hf'] at h
  cases h with
  | some rel => exact rel.attrs

/-- `Room` as an APPEND of `t` twice and `u` creates it. -/
def twiceRoom : EntityDoc :=
  createdDoc { action := "APPEND" } { id := "Room" }
    [{ name := "t", value := "1" }, { name := "t", value := "2" }, { name := "u", value := "3" }] {}

/-- An UPDATE of both attributes, in two orders. -/
theorem twiceRoom_update_order :
    ((processContextAttributeVector (Env.plain fun _ _ => false) { action := "UPDATE" } { id := "Room" }
        [{ name := "t", value := "8" }, { name := "u", value := "9" }] (startWork twiceRoom) {}).result.toOption.map
          fun f => f.attrs.map AttrDoc.value) = some [some (.str "8"), some (.str "8"), some (.str "9")] ∧
    SameResult
      (processContextAttributeVector (Env.plain fun _ _ => false) { action := "UPDATE" } { id := "Room" }
        [{ name := "t", value := "8" }, { name := "u", value := "9" }] (startWork twiceRoom) {})
      (processContextAttributeVector (Env.plain fun _ _ => false) { action := "UPDATE" } { id := "Room" }
        [{ name := "u", value := "9" }, { name := "t", value := "8" }] (startWork twiceRoom) {}) :=
  ⟨by decide +kernel,
   (attribute_order_iff (List.Perm.swap _ _ _) (by decide) (by decide)
    (by
      intro ca hca
      simp only [List.mem_cons, List.not_mem_nil, or_false] at hca
      rcases hca with rfl | rfl
      · exact ⟨by decide, fun _ => .inr (by decide),
          fun _ => ⟨by decide +kernel, by decide +kernel, by decide +kernel⟩⟩
      · exact ⟨by decide, fun _ => .inr (by decide),
          fun _ => ⟨by decide +kernel, by decide +kernel, by decide +kernel⟩⟩)
    rfl).2 (fun h => absurd h (by decide))⟩

/-- **Two orders with two results.** A DELETE: `t`, stored twice, deleted before `u` leaves an element with
empty fields; deleted after `u`, an element without any. An APPEND with a NUL: `a` after `a\x00x` finds the element of
that attribute, and before it does not. -/
theorem twiceRoom_delete_order :
    (afterAppend [{ name := "t", value := "1" }, { name := "t", value := "2" },
      { name := "u", value := "3" }]).entities.docs = [twiceRoom] ∧
    ¬ SameResult
      (processContextAttributeVector (Env.plain fun _ _ => false) { action := "DELETE" } { id := "Room" }
        [{ name := "t" }, { name := "u" }] (startWork twiceRoom) {})
      (processContextAttributeVector (Env.plain fun _ _ => false) { action := "DELETE" } { id := "Room" }
        [{ name := "u" }, { name := "t" }] (startWork twiceRoom) {}) ∧
    ¬ SameResult
      (processContextAttributeVector (Env.plain fun _ _ => false) { action := "APPEND" } { id := "Room" }
        [{ name := "a\x00x", value := "1" }, { name := "a", value := "2" }]
        (startWork { key := ⟨"Room", none, none⟩ }) {})
      (processContextAttributeVector (Env.plain fun _ _ => false) { action := "APPEND" } { id := "Room" }
        [{ name := "a", value := "2" }, { name := "a\x00x", value := "1" }]
        (startWork { key := ⟨"Room", none, none⟩ }) {}) := by
  refine ⟨by decide +kernel, fun h => ?_, fun h => ?_⟩
  · have hperm : [({ name := some "", type := some "", value := some (.str "") } : AttrDoc)].Perm [{}] :=
      h.perm (by decide +kernel) (by decide +kernel)
    exact absurd hperm (by decide)
  · let stored : String → String → AttrDoc := fun name value =>
      { name := some name, type := some "", value := some (.str value), creDate := some 0, modDate := some 0 }
    have hperm : [stored "a" "2"].Perm [stored "a" "2", stored "a\x00x" "1"] :=
      h.perm (by decide +kernel) (by decide +kernel)
    exact absurd hperm.length_eq (by decide)

end

end OrionBroker
