import OrionBroker.Update.Repeat

/-!
# APPEND of existing attributes

"APPEND with existing attribute equals to UPDATE" (MongoCommonUpdate.cpp:580). For the array this is so: both
apply `checkAndUpdate` to every element (`attrsAfter_present`), and modify the entity when one of them
changes. Two things around it differ:

* UPDATE reads the coordinates of an attribute with the name of the location attribute, and refuses it when
  there are none (:1216-1226); APPEND only looks at attributes that the request marks (:1240);
* UPDATE looks up the subscriptions of the attributes that changed, APPEND of all (:1180, :1318).

A third thing is that names and IDs are read as C strings: an attribute stored with a NUL is not found under its name,
so UPDATE refuses it and APPEND adds it once more. `append_as_update_iff` says when all this makes no difference.
-/

namespace OrionBroker

open Mongo

/-! ## The two runs -/

/-- The names of the attributes that change their element, each on the array its predecessors leave. -/
def changedNames (now : Int) : List AttrDoc → List ContextAttribute → List String
  | _, [] => []
  | attrs, ca :: caV =>
    (if modifies now .update attrs ca then [ca.name] else []) ++
      changedNames now (attrsAfter now .update attrs ca) caV

/-- The array and the flag after a vector of existing attributes. -/
def arrayAfter (now : Int) (caV : List ContextAttribute) (attrs : List AttrDoc) : List AttrDoc :=
  caV.foldl (attrsAfter now .update) attrs

section
variable {env : Env} {now : Int} {ca : ContextAttribute} {attrs : List AttrDoc} {caV : List ContextAttribute}

/-- What the vector names is read in the array, and no name in it once with and once without ID. -/
structure Existing (attrs : List AttrDoc) (caV : List ContextAttribute) : Prop where
  present : ∀ ca ∈ caV, ca.key ∈ attrs.map AttrDoc.key
  unmixed : ∀ ca ∈ caV, legalIdUsage attrs ca = true

/-- With the invariant the keys need only be there. -/
theorem KeyInv.existing (h : KeyInv attrs) (hin : ∀ ca ∈ caV, ca.key ∈ attrs.map AttrDoc.key) : Existing attrs caV where
  present := hin
  unmixed ca hca := legalIdUsage_iff.2 fun k hk hn => h.legal.ids k hk ca.key (hin ca hca) hn

/-- `legalIdUsage` only sees which keys are read. -/
theorem legalIdUsage_congr {attrs' : List AttrDoc} (h : ∀ k, k ∈ attrs'.map AttrDoc.key ↔ k ∈ attrs.map AttrDoc.key)
    (ca : ContextAttribute) : legalIdUsage attrs' ca = legalIdUsage attrs ca := by
  rw [Bool.eq_iff_iff, legalIdUsage_iff, legalIdUsage_iff]
  simp only [h]

theorem Existing.tail (h : Existing attrs (ca :: caV)) : Existing (attrsAfter now .update attrs ca) caV := by
  have hkeys : (attrsAfter now .update attrs ca).map AttrDoc.key = attrs.map AttrDoc.key := updateAttribute_keys
  refine ⟨fun cb hb => ?_, fun cb hb => ?_⟩
  · rw [hkeys]
    exact h.present cb (by simp [hb])
  · exact (legalIdUsage_congr (fun k => by rw [hkeys]) cb).trans (h.unmixed cb (by simp [hb]))

theorem Existing.takes (h : Existing attrs caV) (hca : ca ∈ caV) {action : UpdateAction}
    (ha : UpdateOrAppend action) : takes action attrs ca = true := by
  rcases ha with rfl | rfl
  · simpa [OrionBroker.takes] using h.present ca hca
  · exact h.unmixed ca hca

/-- APPEND on an existing attribute does to the array what UPDATE does. -/
theorem Existing.append_eq (h : Existing attrs caV) (hca : ca ∈ caV) :
    attrsAfter now .append attrs ca = attrsAfter now .update attrs ca ∧
      modifies now .append attrs ca = modifies now .update attrs ca := by
  have hin := h.present ca hca
  refine ⟨?_, ?_⟩
  · rw [attrsAfter_present (.inr rfl) hin, attrsAfter_present (.inl rfl) hin]
  · rw [modifies, modifies, appendAttribute_modified_any, updateAttribute_actual_any]
    simp [hin]

theorem run_append_existing (hg : ∀ ca ∈ caV, ca.getLocation = "") (s : Work × List String)
    (h : Existing s.1.attrs caV) :
    Replay.run (runStep env now .append) caV s = some
      ({ s.1 with
          attrs := arrayAfter now caV s.1.attrs
          entityModified := !(changedNames now s.1.attrs caV).isEmpty || s.1.entityModified },
        s.2 ++ caV.map ContextAttribute.name) := by
  induction caV generalizing s with
  | nil => simp [arrayAfter, changedNames]
  | cons ca caV ih =>
    obtain ⟨hattrs, hmod⟩ := @Existing.append_eq now ca s.1.attrs _ h (by simp)
    have hstep : runStep env now .append ca s = some
        ({ s.1 with
            attrs := attrsAfter now .update s.1.attrs ca
            entityModified := modifies now .update s.1.attrs ca || s.1.entityModified }, s.2 ++ [ca.name]) := by
      rw [runStep, h.takes (by simp) (.inr rfl), locAfter_unmarked (hg ca (by simp)), hattrs, hmod]
      rfl
    rw [Replay.run_cons, hstep, Option.bind_some, ih (fun cb hb => hg cb (by simp [hb])) _ h.tail]
    cases hm : modifies now .update s.1.attrs ca <;> simp [arrayAfter, changedNames, hm]

theorem run_update_existing (s : Work × List String) (h : Existing s.1.attrs caV) :
    Replay.run (runStep env now .update) caV s =
      (Replay.run (locAfter env.atof .update) caV s.1.loc).map fun loc =>
        ({ s.1 with
            attrs := arrayAfter now caV s.1.attrs
            loc := loc
            entityModified := !(changedNames now s.1.attrs caV).isEmpty || s.1.entityModified },
          s.2 ++ changedNames now s.1.attrs caV) := by
  induction caV generalizing s with
  | nil => simp [arrayAfter, changedNames]
  | cons ca caV ih =>
    rw [Replay.run_cons, Replay.run_cons, runStep, h.takes (by simp) (.inl rfl), if_pos rfl]
    cases locAfter env.atof .update ca s.1.loc with
    | none => rfl
    | some loc =>
      rw [Option.map_some, Option.bind_some, Option.bind_some, ih _ h.tail]
      refine congrArg (fun f => Option.map f _) (funext fun loc' => ?_)
      have hlook : looksUp now .update s.1.attrs ca = modifies now .update s.1.attrs ca := rfl
      cases hm : modifies now .update s.1.attrs ca <;> simp [arrayAfter, changedNames, hlook, hm]

/-! The runs of vectors that name what is stored, whatever is read of it. -/

/-- A key as it is read. -/
def cutKey (k : String × String) : String × String := (cString k.1, cString k.2)

theorem key_eq_cutKey (a : AttrDoc) : a.key = cutKey a.view.key := by
  cases hn : a.name <;> cases hi : a.id <;>
    simp [AttrDoc.key, AttrDoc.view, AttrView.key, cutKey, hn, hi, strField, cString_empty]

/-- What is stored under the key of the request is read up to the NULs. -/
theorem cutKey_mem (h : ca.key ∈ attrs.map fun a => a.view.key) : cutKey ca.key ∈ attrs.map AttrDoc.key := by
  obtain ⟨a, ha, hk⟩ := List.mem_map.1 h
  exact List.mem_map.2 ⟨a, ha, by rw [key_eq_cutKey, hk]⟩

/-- An APPEND of something stored adds no key that is read, though it may add an element. -/
theorem append_stored_keys (h : cutKey ca.key ∈ attrs.map AttrDoc.key) (k : String × String) :
    k ∈ (attrsAfter now .append attrs ca).map AttrDoc.key ↔ k ∈ attrs.map AttrDoc.key := by
  rw [show attrsAfter now .append attrs ca = (appendAttribute now attrs ca).1 from rfl, appendAttribute_attrs,
    List.map_append, List.mem_append, updateAttribute_keys, or_iff_left_iff_imp]
  split
  · simp
  · rw [List.map_singleton, List.mem_singleton, key_eq_cutKey, appendedAttr_view_key]
    rintro rfl
    exact h

theorem run_append_isSome (hg : ∀ ca ∈ caV, ca.getLocation = "") (s : Work × List String)
    (h : ∀ ca ∈ caV, cutKey ca.key ∈ s.1.attrs.map AttrDoc.key) :
    (Replay.run (runStep env now .append) caV s).isSome = true ↔ ∀ ca ∈ caV, legalIdUsage s.1.attrs ca = true := by
  induction caV generalizing s with
  | nil => simp
  | cons ca caV ih =>
    have hkeys := @append_stored_keys now ca s.1.attrs (h ca (by simp))
    rw [Replay.run_cons, List.forall_mem_cons, runStep, locAfter_unmarked (hg ca (by simp)),
      show takes .append s.1.attrs ca = legalIdUsage s.1.attrs ca from rfl]
    by_cases hl : legalIdUsage s.1.attrs ca = true
    · rw [if_pos hl, Option.map_some, Option.bind_some, ih (fun cb hb => hg cb (by simp [hb])) _ fun cb hb =>
        (hkeys _).2 (h cb (by simp [hb]))]
      simp only [hl, true_and, legalIdUsage_congr hkeys]
    · simp [hl]

theorem run_update_isSome (s : Work × List String) :
    (Replay.run (runStep env now .update) caV s).isSome = true ↔
      (∀ ca ∈ caV, ca.key ∈ s.1.attrs.map AttrDoc.key) ∧
        (Replay.run (locAfter env.atof .update) caV s.1.loc).isSome = true := by
  induction caV generalizing s with
  | nil => simp
  | cons ca caV ih =>
    rw [Replay.run_cons, Replay.run_cons, List.forall_mem_cons, runStep,
      show takes .update s.1.attrs ca = decide (ca.key ∈ s.1.attrs.map AttrDoc.key) from rfl]
    by_cases hk : ca.key ∈ s.1.attrs.map AttrDoc.key
    · rw [if_pos (decide_eq_true hk)]
      cases locAfter env.atof .update ca s.1.loc with
      | none => simp
      | some loc =>
        rw [Option.map_some, Option.bind_some, Option.bind_some, ih,
          show attrsAfter now .update s.1.attrs ca = (updateAttribute now s.1.attrs ca).1 from rfl, updateAttribute_keys]
        simp only [hk, true_and]
    · simp [hk]

end

/-! ## The location -/

/-- Every attribute of the vector with the name of the location attribute has coordinates, and the last of
them those of the location. -/
structure LocUnmoved (atof : List Char → Rat) (caV : List ContextAttribute) (loc : Loc) : Prop where
  readable : ∀ ca ∈ caV, ca.name = loc.locAttr → (coords atof ca.value).isSome = true
  last : ∀ ca, (caV.filter fun ca => ca.name = loc.locAttr).getLast? = some ca →
    coords atof ca.value = some (loc.coordLat, loc.coordLong)

section
variable {atof : List Char → Rat} {caV : List ContextAttribute} {loc : Loc}

/-- Without marks, UPDATE only follows the attribute with the name. -/
theorem locAfter_update_unmarked {ca : ContextAttribute} (hg : ca.getLocation = "") :
    locAfter atof .update ca loc = if ca.name = loc.locAttr then locatedAt atof ca else some loc := by
  simp only [locAfter, hg, ne_eq, not_true, false_and, if_false, eq_comm]

/-- The location after an UPDATE: that of the last attribute with the name. -/
theorem run_locAfter_update (hg : ∀ ca ∈ caV, ca.getLocation = "") :
    Replay.run (locAfter atof .update) caV loc =
      if ∀ ca ∈ caV, ca.name = loc.locAttr → (coords atof ca.value).isSome = true then
        match (caV.filter fun ca => ca.name = loc.locAttr).getLast? with
        | some ca => locatedAt atof ca
        | none => some loc
      else none := by
  induction caV using List.reverseRecOn with
  | nil => simp
  | append_singleton caV ca ih =>
    have hca := hg ca (by simp)
    have hsplit : (∀ cb ∈ caV ++ [ca], cb.name = loc.locAttr → (coords atof cb.value).isSome = true) ↔
        (∀ cb ∈ caV, cb.name = loc.locAttr → (coords atof cb.value).isSome = true) ∧
          (ca.name = loc.locAttr → (coords atof ca.value).isSome = true) := by
      rw [List.forall_mem_append, List.forall_mem_singleton]
    rw [Replay.run_append, ih fun cb hb => hg cb (by simp [hb])]
    by_cases hall : ∀ cb ∈ caV, cb.name = loc.locAttr → (coords atof cb.value).isSome = true
    · -- what the vector before leaves has the name
      obtain ⟨loc1, hl1, hn1⟩ : ∃ loc1, (match (caV.filter fun ca => ca.name = loc.locAttr).getLast? with
          | some ca => locatedAt atof ca
          | none => some loc) = some loc1 ∧ loc1.locAttr = loc.locAttr := by
        cases hf : (caV.filter fun ca => ca.name = loc.locAttr).getLast? with
        | none => exact ⟨loc, rfl, rfl⟩
        | some cb =>
          obtain ⟨hb, hn⟩ := List.mem_filter.1 (List.mem_of_getLast? hf)
          obtain ⟨c, hc⟩ := Option.isSome_iff_exists.1 (hall cb hb (by simpa using hn))
          exact ⟨⟨cb.name, c.1, c.2⟩, by simp [locatedAt, hc], by simpa using hn⟩
      rw [if_pos hall, hl1, Option.bind_some, Replay.run_cons, locAfter_update_unmarked hca, hn1]
      have hbind : ∀ x : Option Loc, x.bind (Replay.run (locAfter atof .update) []) = x := fun x => by cases x <;> rfl
      rw [hbind]
      by_cases hn : ca.name = loc.locAttr
      · rw [if_pos hn, List.filter_append, List.filter_cons_of_pos (by simpa using hn), List.filter_nil,
          List.getLast?_concat]
        cases hc : coords atof ca.value with
        | some c => rw [if_pos (hsplit.2 ⟨hall, fun _ => by simp [hc]⟩)]
        | none =>
          rw [if_neg (fun h => by simpa [hc] using (hsplit.1 h).2 hn)]
          simp [locatedAt, hc]
      · rw [if_neg hn, if_pos (hsplit.2 ⟨hall, fun h => absurd h hn⟩), List.filter_append,
          List.filter_cons_of_neg (by simpa using hn), List.filter_nil, List.append_nil, hl1]
    · rw [if_neg hall, if_neg (fun h => hall (hsplit.1 h).1)]
      rfl

theorem run_locAfter_isSome (hg : ∀ ca ∈ caV, ca.getLocation = "") :
    (Replay.run (locAfter atof .update) caV loc).isSome = true ↔
      ∀ ca ∈ caV, ca.name = loc.locAttr → (coords atof ca.value).isSome = true := by
  rw [run_locAfter_update hg]
  by_cases hall : ∀ ca ∈ caV, ca.name = loc.locAttr → (coords atof ca.value).isSome = true
  · rw [if_pos hall]
    refine iff_of_true ?_ hall
    cases hf : (caV.filter fun ca => ca.name = loc.locAttr).getLast? with
    | none => rfl
    | some cb =>
      obtain ⟨hb, hn⟩ := List.mem_filter.1 (List.mem_of_getLast? hf)
      simp [locatedAt, hall cb hb (by simpa using hn)]
  · rw [if_neg hall]
    exact iff_of_false (by simp) hall

theorem run_locAfter_iff (hg : ∀ ca ∈ caV, ca.getLocation = "") :
    Replay.run (locAfter atof .update) caV loc = some loc ↔ LocUnmoved atof caV loc := by
  rw [run_locAfter_update hg]
  by_cases hall : ∀ ca ∈ caV, ca.name = loc.locAttr → (coords atof ca.value).isSome = true
  · rw [if_pos hall]
    cases hf : (caV.filter fun ca => ca.name = loc.locAttr).getLast? with
    | none => exact ⟨fun _ => ⟨hall, by rw [hf]; simp⟩, fun _ => rfl⟩
    | some cb =>
      have hn : cb.name = loc.locAttr := by
        simpa using (List.mem_filter.1 (List.mem_of_getLast? hf)).2
      have hval : locatedAt atof cb = some loc ↔ coords atof cb.value = some (loc.coordLat, loc.coordLong) := by
        obtain ⟨locAttr, lat, long⟩ := loc
        simp only at hn
        cases hc : coords atof cb.value with
        | none => simp [locatedAt, hc]
        | some c => simp [locatedAt, hc, hn, Prod.ext_iff]
      simp only
      rw [hval]
      refine ⟨fun h => ⟨hall, ?_⟩, fun h => h.last cb hf⟩
      rw [hf]
      rintro ca' ⟨⟩
      exact h
  · rw [if_neg hall]
    refine ⟨fun h => ?_, fun h => absurd h.readable hall⟩
    cases h

end

/-! ## The subscriptions -/

/-- The element after the attributes before. -/
def elementAfter (now : Int) (pre : List ContextAttribute) (a : AttrDoc) : AttrDoc :=
  pre.foldl (fun a ca => (checkAndUpdate now a ca).1) a

/-- `ca` changes its element, on the document with `pre` applied. -/
def ChangesAfter (now : Int) (attrs : List AttrDoc) (pre : List ContextAttribute) (ca : ContextAttribute) : Prop :=
  ∃ a ∈ attrs, a.key = ca.key ∧ isActualUpdate (elementAfter now pre a) ca = true

theorem mem_changedNames {now : Int} {attrs : List AttrDoc} {caV : List ContextAttribute} {n : String} :
    n ∈ changedNames now attrs caV ↔
      ∃ pre ca post, caV = pre ++ ca :: post ∧ n = ca.name ∧ ChangesAfter now attrs pre ca := by
  have hmod : ∀ (attrs : List AttrDoc) (ca : ContextAttribute), modifies now .update attrs ca = true ↔
      ChangesAfter now attrs [] ca := by
    intro attrs ca
    rw [modifies, updateAttribute_actual_any, List.any_eq_true]
    refine exists_congr fun a => and_congr Iff.rfl ?_
    by_cases hk : a.key = ca.key
    · simp [checkAndUpdate_of_eq hk, hk, elementAfter]
    · simp [checkAndUpdate_of_ne hk, hk]
  have hcons : ∀ (attrs : List AttrDoc) (ca : ContextAttribute) (pre : List ContextAttribute) (cb : ContextAttribute),
      ChangesAfter now (attrsAfter now .update attrs ca) pre cb ↔ ChangesAfter now attrs (ca :: pre) cb := by
    intro attrs ca pre cb
    show (∃ x ∈ (updateAttribute now attrs ca).1, _) ↔ _
    rw [updateAttribute_attrs]
    constructor
    · rintro ⟨x, hx, hk, hu⟩
      obtain ⟨a, ha, rfl⟩ := List.mem_map.1 hx
      rw [checkAndUpdate_key] at hk
      exact ⟨a, ha, hk, hu⟩
    · rintro ⟨a, ha, hk, hu⟩
      exact ⟨_, List.mem_map_of_mem ha, by rw [checkAndUpdate_key]; exact hk, hu⟩
  induction caV generalizing attrs with
  | nil => simp [changedNames]
  | cons ca caV ih =>
    rw [changedNames, List.mem_append]
    refine (or_congr Iff.rfl ih).trans ?_
    constructor
    · rintro (h | ⟨pre, cb, post, rfl, rfl, hch⟩)
      · split at h
        · rename_i hm
          rw [List.mem_singleton.1 h]
          exact ⟨[], ca, caV, rfl, rfl, (hmod attrs ca).1 hm⟩
        · cases h
      · exact ⟨ca :: pre, cb, post, rfl, rfl, (hcons attrs ca pre cb).1 hch⟩
    · rintro ⟨pre, cb, post, he, rfl, hch⟩
      cases pre with
      | nil =>
        rw [List.nil_append, List.cons.injEq] at he
        obtain ⟨rfl, rfl⟩ := he
        rw [if_pos ((hmod attrs ca).2 hch)]
        simp
      | cons c pre =>
        rw [List.cons_append, List.cons.injEq] at he
        obtain ⟨rfl, rfl⟩ := he
        exact .inr ⟨pre, cb, post, rfl, rfl, (hcons attrs ca pre cb).2 hch⟩

/-- A subscription that some attribute of the vector triggers is triggered by one that changes its
element. -/
def TriggeredByChanges (env : Env) (ctx : Ctx) (eP : EntityId) (w : World) (attrs : List AttrDoc)
    (caV : List ContextAttribute) : Prop :=
  ∀ ca ∈ caV, ∀ sub ∈ triggeredFind env ctx eP.id eP.type ca.name w,
    ∃ pre cb post, caV = pre ++ cb :: post ∧ ChangesAfter ctx.now attrs pre cb ∧
      sub.oid ∈ (triggeredFind env ctx eP.id eP.type cb.name w).map SubDoc.oid

/-- The lookups of all attributes find what those of the attributes that change find. -/
theorem triggeredByChanges_iff {env : Env} {ctx : Ctx} {eP : EntityId} {w : World} {attrs : List AttrDoc}
    {caV : List ContextAttribute} :
    (∀ k, (∃ n ∈ caV.map ContextAttribute.name, k ∈ (triggeredFind env ctx eP.id eP.type n w).map SubDoc.oid) ↔
      ∃ n ∈ changedNames ctx.now attrs caV, k ∈ (triggeredFind env ctx eP.id eP.type n w).map SubDoc.oid) ↔
    TriggeredByChanges env ctx eP w attrs caV := by
  constructor
  · intro h ca hca sub hsub
    obtain ⟨n, hn, hk⟩ := (h sub.oid).1 ⟨ca.name, List.mem_map_of_mem hca, List.mem_map_of_mem hsub⟩
    obtain ⟨pre, cb, post, he, rfl, hch⟩ := mem_changedNames.1 hn
    exact ⟨pre, cb, post, he, hch, hk⟩
  · intro h k
    constructor
    · rintro ⟨n, hn, hk⟩
      obtain ⟨ca, hca, rfl⟩ := List.mem_map.1 hn
      obtain ⟨sub, hsub, rfl⟩ := List.mem_map.1 hk
      obtain ⟨pre, cb, post, he, hch, hk'⟩ := h ca hca sub hsub
      exact ⟨cb.name, mem_changedNames.2 ⟨pre, cb, post, he, rfl, hch⟩, hk'⟩
    · rintro ⟨n, hn, hk⟩
      obtain ⟨pre, cb, post, rfl, rfl, _⟩ := mem_changedNames.1 hn
      exact ⟨cb.name, List.mem_map_of_mem (by simp), hk⟩

/-! ## The comparison -/

/-- The same array, location, flag and subscriptions. -/
structure EqualWork (f f' : Work) : Prop where
  attrs : f.attrs = f'.attrs
  loc : f.loc = f'.loc
  modified : f.entityModified = f'.entityModified
  subs : ∀ k, k ∈ f.subs.keys ↔ k ∈ f'.subs.keys

/-- The same status, and the same working copies when both are taken. -/
def EqualResult (v v' : VectorResult) : Prop :=
  match v.result, v'.result with
  | .ok f, .ok f' => EqualWork f f'
  | .error e, .error e' => e.statusCode.code = e'.statusCode.code
  | _, _ => False

/-- With no failing call, what UPDATE and APPEND refuse they refuse with one code. -/
theorem vector_error_code {env : Env} {ctx : Ctx} {eP : EntityId} (ha : UpdateOrAppend (updateAction ctx.action)) :
    ∀ {caV : List ContextAttribute} {work : Work} {w : World} {f : Failure},
    w.outcomes = [] → (processContextAttributeVector env ctx eP caV work w).result = .error f →
      f.statusCode.code = .invalidParameter
  | [], work, w, f, _, h => by cases h
  | ca :: caV, work, w, f, ho, h => by
    have hcode : ∀ f, processAction env ctx eP ca work = .error f → f.statusCode.code = .invalidParameter := by
      intro f hf
      unfold processAction at hf
      rcases ha with ha | ha <;> rw [ha] at hf
      · unfold processUpdate at hf
        simp only at hf
        split at hf
        · cases hf; rfl
        · split at hf
          · cases hf; rfl
          · split at hf
            · split at hf <;> cases hf
              rfl
            · cases hf
      · unfold processAppend at hf
        simp only at hf
        split at hf
        · split at hf
          · split at hf
            · cases hf; rfl
            · split at hf
              · cases hf; rfl
              · split at hf <;> cases hf
                rfl
          · cases hf
        · cases hf; rfl
    unfold processContextAttributeVector processContextAttribute at h
    cases hp : processAction env ctx eP ca work with
    | error f' =>
      simp only [hp] at h
      cases h
      exact hcode _ hp
    | ok r =>
      obtain ⟨work1, flag⟩ := r
      simp only [hp] at h
      cases flag with
      | false =>
        simp only [Bool.false_eq_true, if_false] at h
        exact vector_error_code ha ho h
      | true =>
        have hadd : addTriggeredSubscriptions env ctx eP.id eP.type ca.name work1.subs w =
            (.ok (work1.subs.addAll (triggeredFind env ctx eP.id eP.type ca.name w)), w) := by
          unfold addTriggeredSubscriptions
          rw [show w.call = (.ok, w) by unfold World.call; rw [ho]]
          rfl
        simp only [if_true, hadd] at h
        exact vector_error_code ha ho h

/-- Both are refused: APPEND for a name that is read with and without ID, UPDATE for a key that is not read or a location
without coordinates. -/
structure BothRefused (atof : List Char → Rat) (attrs : List AttrDoc) (caV : List ContextAttribute) (loc : Loc) :
    Prop where
  mixed : ∃ ca ∈ caV, legalIdUsage attrs ca = false
  unread : (∃ ca ∈ caV, ca.key ∉ attrs.map AttrDoc.key) ∨
    ∃ ca ∈ caV, ca.name = loc.locAttr ∧ coords atof ca.value = none

section
variable {env : Env} {ctx : Ctx} {append update : String} (happ : updateAction append = .append)
  (hupd : updateAction update = .update) {eP : EntityId} {r : EntityDoc} {w : World} (ho : w.outcomes = [])
  {caV : List ContextAttribute} (hg : ∀ ca ∈ caV, ca.getLocation = "")
include happ hupd ho hg

/-- Attributes that are read as the vector names them. -/
theorem equalResult_existing (hex : Existing r.attrs caV) :
    EqualResult (processContextAttributeVector env { ctx with action := append } eP caV (startWork r) w)
        (processContextAttributeVector env { ctx with action := update } eP caV (startWork r) w) ↔
      LocUnmoved env.atof caV (startWork r).loc ∧ TriggeredByChanges env ctx eP w r.attrs caV := by
  have ha := @processContextAttributeVector_toOption env { ctx with action := append } eP w ho caV (startWork r)
  have hu := @processContextAttributeVector_toOption env { ctx with action := update } eP w ho caV (startWork r)
  rw [show updateAction ({ ctx with action := append } : Ctx).action = .append from happ,
    run_append_existing hg _ hex] at ha
  rw [show updateAction ({ ctx with action := update } : Ctx).action = .update from hupd,
    run_update_existing _ hex] at hu
  obtain ⟨f, hfa, hf⟩ : ∃ f, (processContextAttributeVector env { ctx with action := append } eP caV
      (startWork r) w).result = .ok f ∧ some f = _ := by
    cases hv : (processContextAttributeVector env { ctx with action := append } eP caV (startWork r) w).result with
    | error e => rw [hv] at ha; cases ha
    | ok f => rw [hv] at ha; exact ⟨f, rfl, ha⟩
  simp only [Option.map_some, Option.some.injEq] at hf
  subst hf
  unfold EqualResult
  rw [hfa]
  rw [← run_locAfter_iff hg]
  cases hv : (processContextAttributeVector env { ctx with action := update } eP caV (startWork r) w).result with
  | error e =>
    rw [hv] at hu
    have hnone : Replay.run (locAfter env.atof .update) caV (startWork r).loc = none := by
      simpa [Except.toOption] using hu.symm
    simp [hnone]
  | ok f' =>
    rw [hv] at hu
    obtain ⟨t, ht, hf'⟩ := Option.map_eq_some_iff.1 hu.symm
    obtain ⟨loc, hloc, rfl⟩ := Option.map_eq_some_iff.1 ht
    subst hf'
    rw [hloc, Option.some.injEq]
    have hsubs : (∀ k, k ∈ (collect env { ctx with action := append } eP w
        ([] ++ caV.map ContextAttribute.name) (startWork r).subs).keys ↔
        k ∈ (collect env { ctx with action := update } eP w
          ([] ++ changedNames ctx.now r.attrs caV) (startWork r).subs).keys) ↔
        TriggeredByChanges env ctx eP w r.attrs caV := by
      have hnil : ∀ k, k ∉ (startWork r).subs.keys := fun k => List.not_mem_nil
      simp only [mem_keys_collect, List.nil_append, hnil, false_or]
      exact triggeredByChanges_iff
    constructor
    · intro h
      exact ⟨h.loc.symm, hsubs.1 h.subs⟩
    · rintro ⟨hl, ht⟩
      exact ⟨rfl, hl.symm, rfl, hsubs.2 ht⟩

/-- **When APPEND of existing attributes is UPDATE.** The vector only names attributes that are stored and marks none, and
all calls succeed. Then the two give the same result exactly when the attributes are read as they are named, the
coordinates in the vector are those of the location, and the attributes that do not change trigger nothing that the
others do not; or when both are refused. -/
theorem append_as_update_iff (hin : ∀ ca ∈ caV, ca.key ∈ r.attrs.map fun a => a.view.key) :
    EqualResult (processContextAttributeVector env { ctx with action := append } eP caV (startWork r) w)
        (processContextAttributeVector env { ctx with action := update } eP caV (startWork r) w) ↔
      (Existing r.attrs caV ∧ LocUnmoved env.atof caV (startWork r).loc ∧
        TriggeredByChanges env ctx eP w r.attrs caV) ∨
      BothRefused env.atof r.attrs caV (startWork r).loc := by
  have hmixed : (∃ ca ∈ caV, legalIdUsage r.attrs ca = false) ↔ ¬ ∀ ca ∈ caV, legalIdUsage r.attrs ca = true := by
    simp
  by_cases hex : Existing r.attrs caV
  · have hnot : ¬ BothRefused env.atof r.attrs caV (startWork r).loc := fun h => hmixed.1 h.mixed hex.unmixed
    rw [equalResult_existing happ hupd ho hg hex]
    simp only [hex, hnot, true_and, or_false]
  have ha := @processContextAttributeVector_toOption env { ctx with action := append } eP w ho caV (startWork r)
  have hu := @processContextAttributeVector_toOption env { ctx with action := update } eP w ho caV (startWork r)
  rw [show updateAction ({ ctx with action := append } : Ctx).action = .append from happ] at ha
  rw [show updateAction ({ ctx with action := update } : Ctx).action = .update from hupd] at hu
  have happend : (Replay.run (runStep env ctx.now .append) caV (startWork r, [])).isSome = true ↔
      ∀ ca ∈ caV, legalIdUsage r.attrs ca = true :=
    run_append_isSome hg (startWork r, []) fun ca hca => cutKey_mem (hin ca hca)
  have hupdate : (Replay.run (runStep env ctx.now .update) caV (startWork r, [])).isSome = true ↔
      (∀ ca ∈ caV, ca.key ∈ r.attrs.map AttrDoc.key) ∧
        ∀ ca ∈ caV, ca.name = (startWork r).loc.locAttr → (coords env.atof ca.value).isSome = true :=
    (run_update_isSome (startWork r, [])).trans (and_congr Iff.rfl (run_locAfter_isSome hg))
  have hsomeA := congrArg Option.isSome ha
  have hsomeU := congrArg Option.isSome hu
  rw [Option.isSome_map] at hsomeA hsomeU
  have hrefused : BothRefused env.atof r.attrs caV (startWork r).loc ↔
      (processContextAttributeVector env { ctx with action := append } eP caV (startWork r) w).result.toOption.isSome =
          false ∧
        (processContextAttributeVector env { ctx with action := update } eP caV (startWork r) w).result.toOption.isSome =
          false := by
    rw [hsomeA, hsomeU, ← Bool.not_eq_true, ← Bool.not_eq_true, happend, hupdate, ← hmixed]
    constructor
    · rintro ⟨hm, hn⟩
      refine ⟨hm, fun ⟨hp, hl⟩ => ?_⟩
      rcases hn with ⟨ca, hca, hk⟩ | ⟨ca, hca, hname, hc⟩
      · exact hk (hp ca hca)
      · have := hl ca hca hname
        rw [hc] at this
        cases this
    · rintro ⟨hm, hn⟩
      refine ⟨hm, ?_⟩
      by_contra hno
      rw [not_or] at hno
      refine hn ⟨fun ca hca => ?_, fun ca hca hname => ?_⟩
      · by_contra hk
        exact hno.1 ⟨ca, hca, hk⟩
      · rw [Option.isSome_iff_ne_none]
        exact fun hc => hno.2 ⟨ca, hca, hname, hc⟩
  rw [hrefused]
  have hnot : ¬ (Existing r.attrs caV ∧ LocUnmoved env.atof caV (startWork r).loc ∧
      TriggeredByChanges env ctx eP w r.attrs caV) := fun h => hex h.1
  simp only [hnot, false_or]
  unfold EqualResult
  cases hva : (processContextAttributeVector env { ctx with action := append } eP caV (startWork r) w).result with
  | ok f =>
    have hok : (processContextAttributeVector env { ctx with action := update } eP caV (startWork r) w).result.toOption =
        none := by
      -- APPEND takes the vector, so some key is not read
      rw [hva] at hsomeA
      have hlegal := happend.1 hsomeA.symm
      have hnone : ¬ ((Replay.run (runStep env ctx.now .update) caV (startWork r, [])).isSome = true) := fun h =>
        hex ⟨(hupdate.1 h).1, hlegal⟩
      rw [hu, Option.not_isSome_iff_eq_none.1 hnone]
      rfl
    cases hvu : (processContextAttributeVector env { ctx with action := update } eP caV (startWork r) w).result with
    | ok f' => rw [hvu] at hok; cases hok
    | error e' => simp [Except.toOption]
  | error e =>
    cases hvu : (processContextAttributeVector env { ctx with action := update } eP caV (startWork r) w).result with
    | ok f' => simp [Except.toOption]
    | error e' =>
      have hcode := @vector_error_code env { ctx with action := append } eP (.inr happ) _ _ _ _ ho hva
      have hcode' := @vector_error_code env { ctx with action := update } eP (.inl hupd) _ _ _ _ ho hvu
      simp only [Except.toOption, Option.isSome_none, and_self, iff_true]
      exact hcode.trans hcode'.symm

end

theorem EqualResult.map_eq {α : Type} {v v' : VectorResult} (h : EqualResult v v') (g : Work → α)
    (hg : ∀ f f', EqualWork f f' → g f = g f') : v.result.toOption.map g = v'.result.toOption.map g := by
  unfold EqualResult at h
  cases hv : v.result with
  | error e =>
    cases hv' : v'.result with
    | error e' => rfl
    | ok f' => rw [hv, hv'] at h; exact absurd h id
  | ok f =>
    cases hv' : v'.result with
    | error e' => rw [hv, hv'] at h; exact absurd h id
    | ok f' =>
      rw [hv, hv'] at h
      exact congrArg some (hg f f' h)

/-- A car with its position and a speed. -/
def parkedCar : EntityDoc where
  key := ⟨"Car", none, none⟩
  attrs := [{ name := some "pos", value := some (.str "1, 2") }, { name := some "speed", value := some (.str "0") }]
  location := some ⟨"pos", 2, 1⟩

/-- A subscription to the speed of the car. -/
def speedSub : Collection SubDoc String SubDoc.oid where
  docs := [{ oid := "51c0ac9ed714fb3b37d7d5a8", expiration := 100, reference := "http://host/notify",
             entities := [⟨"Car", none, "false"⟩], conditions := [.onChange ["speed"]] }]
  nodup := by decide

/-- A change of the speed alone. -/
theorem parkedCar_append_speed :
    ((processContextAttributeVector (Env.plain fun _ _ => false) { action := "APPEND" } { id := "Car" }
        [{ name := "speed", value := "9" }] (startWork parkedCar) { csubs := speedSub }).result.toOption.map
          fun f => (f.entityModified, f.subs.keys)) = some (true, ["51c0ac9ed714fb3b37d7d5a8"]) ∧
    EqualResult
      (processContextAttributeVector (Env.plain fun _ _ => false) { action := "APPEND" } { id := "Car" }
        [{ name := "speed", value := "9" }] (startWork parkedCar) { csubs := speedSub })
      (processContextAttributeVector (Env.plain fun _ _ => false) { action := "UPDATE" } { id := "Car" }
        [{ name := "speed", value := "9" }] (startWork parkedCar) { csubs := speedSub }) := by
  refine ⟨by decide +kernel, (@append_as_update_iff (Env.plain fun _ _ => false) { action := "" } "APPEND" "UPDATE"
    (by decide) (by decide) { id := "Car" } parkedCar { csubs := speedSub } rfl [{ name := "speed", value := "9" }]
    (by decide) (by decide)).2 (.inl ⟨?_, ⟨?_, ?_⟩, ?_⟩)⟩
  · exact KeyInv.existing ⟨by decide, ⟨by decide, by decide⟩, by decide⟩ (by decide)
  · intro ca hca hn
    rw [List.mem_singleton.1 hca] at hn
    exact absurd hn (by decide)
  · intro ca h
    have hnone : ([{ name := "speed", value := "9" }] : List ContextAttribute).filter
        (fun ca => ca.name = (startWork parkedCar).loc.locAttr) = [] := by decide
    rw [hnone] at h
    cases h
  · intro ca hca sub hsub
    rw [List.mem_singleton.1 hca] at hsub
    exact ⟨[], _, [], rfl, ⟨{ name := some "speed", value := some (.str "0") }, by decide, by decide, by decide⟩,
      List.mem_map_of_mem hsub⟩

/-- **Where the two part.** An APPEND of a new position leaves the location where it was, an UPDATE moves it;
an APPEND of the speed the car has triggers the subscription to the speed, an UPDATE does not. And an attribute whose name
has a NUL is there, but not found: an UPDATE refuses it, an APPEND adds it. -/
theorem parkedCar_append_not_update :
    ¬ EqualResult
      (processContextAttributeVector (Env.plain fun _ _ => false) { action := "APPEND" } { id := "Car" }
        [{ name := "pos", value := "3, 4" }] (startWork parkedCar) {})
      (processContextAttributeVector (Env.plain fun _ _ => false) { action := "UPDATE" } { id := "Car" }
        [{ name := "pos", value := "3, 4" }] (startWork parkedCar) {}) ∧
    ¬ EqualResult
      (processContextAttributeVector (Env.plain fun _ _ => false) { action := "APPEND" } { id := "Car" }
        [{ name := "speed", value := "0" }] (startWork parkedCar) { csubs := speedSub })
      (processContextAttributeVector (Env.plain fun _ _ => false) { action := "UPDATE" } { id := "Car" }
        [{ name := "speed", value := "0" }] (startWork parkedCar) { csubs := speedSub }) ∧
    ¬ EqualResult
      (processContextAttributeVector (Env.plain fun _ _ => false) { action := "APPEND" } { id := "Car" }
        [{ name := "a\x00x", value := "2" }]
        (startWork { key := ⟨"Car", none, none⟩, attrs := [{ name := some "a\x00x", value := some (.str "1") }] }) {})
      (processContextAttributeVector (Env.plain fun _ _ => false) { action := "UPDATE" } { id := "Car" }
        [{ name := "a\x00x", value := "2" }]
        (startWork { key := ⟨"Car", none, none⟩, attrs := [{ name := some "a\x00x", value := some (.str "1") }] })
        {}) := by
  refine ⟨?_, ?_, ?_⟩
  · intro h
    have hl := h.map_eq Work.loc fun _ _ he => he.loc
    exact absurd hl (by decide +kernel)
  · intro h
    have hs := h.map_eq (fun f => decide ("51c0ac9ed714fb3b37d7d5a8" ∈ f.subs.keys))
      fun _ _ he => decide_eq_decide.2 (he.subs _)
    exact absurd hs (by decide +kernel)
  · intro h
    have hn := h.map_eq (fun f => f.attrs.length) fun _ _ he => congrArg List.length he.attrs
    exact absurd hn (by decide +kernel)

end OrionBroker
