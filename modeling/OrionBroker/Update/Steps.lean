import OrionBroker.Update.Element

/-!
# What the update code can do to the world, step by step

One iteration of the document loop, one creation and one element are each described once, with all their
outcomes; the invariants and the frame results are derived from these descriptions.

| here | about |
| --- | --- |
| `DocumentStep`, `processDocument_step`         | one iteration of the document loop |
| `CreationStep`, `createEntity_step`            | `createEntity` |
| `processDocuments_forall`, `processContextElement_forall`, `processContextElements_forall` | a property of every document, over the loop, the element and the request |
-/

namespace OrionBroker

open Mongo

/-! ## The attribute loop leaves the world alone -/

theorem processContextAttribute_same (env : Env) (ctx : Ctx) (eP : EntityId) (ca : ContextAttribute)
    (work : Work) (w : World) : World.Same w (processContextAttribute env ctx eP ca work w).2 := by
  unfold processContextAttribute
  split
  · exact World.Same.refl w
  · rename_i work' actualUpdate _
    split
    · have h := addTriggeredSubscriptions_same env ctx eP.id eP.type ca.name work'.subs w
      split
      · rename_i e; rw [e] at h; exact h
      · rename_i e; rw [e] at h; exact h
    · exact World.Same.refl w

theorem processContextAttributeVector_same (env : Env) (ctx : Ctx) (eP : EntityId) :
    ∀ (caV : List ContextAttribute) (work : Work) (w : World),
      World.Same w (processContextAttributeVector env ctx eP caV work w).world
  | [], _, w => World.Same.refl w
  | ca :: caV, work, w => by
    unfold processContextAttributeVector
    have h := processContextAttribute_same env ctx eP ca work w
    split
    · rename_i e; rw [e] at h; exact h
    · rename_i work1 w1 e
      rw [e] at h
      exact h.trans (processContextAttributeVector_same env ctx eP caV work1 w1)

/-! ## A failure is never reported as 200 -/

def Failure.Bad (f : Failure) : Prop := f.statusCode.code ≠ .ok

theorem attrFailure_bad {action : String} {eP : EntityId} {ca : ContextAttribute} {text : String} {why : Nat} :
    (attrFailure action eP ca text why).Bad := by
  simp [Failure.Bad, attrFailure]

theorem processUpdate_bad {env : Env} {now : Int} {eP : EntityId} {ca : ContextAttribute} {work : Work}
    {f : Failure} (h : processUpdate env now eP ca work = .error f) : f.Bad := by
  unfold processUpdate at h
  simp only at h
  split at h
  · cases h; exact attrFailure_bad
  · split at h
    · cases h; exact attrFailure_bad
    · split at h
      · split at h
        · cases h
        · cases h; exact attrFailure_bad
      · cases h

theorem processAppend_bad {env : Env} {now : Int} {eP : EntityId} {ca : ContextAttribute} {work : Work}
    {f : Failure} (h : processAppend env now eP ca work = .error f) : f.Bad := by
  unfold processAppend at h
  simp only at h
  split at h
  · split at h
    · split at h
      · cases h; exact attrFailure_bad
      · split at h
        · cases h; exact attrFailure_bad
        · split at h
          · cases h
          · cases h; exact attrFailure_bad
    · cases h
  · cases h; exact attrFailure_bad

theorem processDelete_bad {eP : EntityId} {ca : ContextAttribute} {work : Work} {f : Failure}
    (h : processDelete eP ca work = .error f) : f.Bad := by
  unfold processDelete at h
  simp only at h
  split at h
  · split at h
    · cases h; exact attrFailure_bad
    · split at h
      · cases h
      · cases h
  · cases h; exact attrFailure_bad

theorem processAction_bad {env : Env} {ctx : Ctx} {eP : EntityId} {ca : ContextAttribute} {work : Work}
    {f : Failure} (h : processAction env ctx eP ca work = .error f) : f.Bad := by
  unfold processAction at h
  split at h
  · exact processUpdate_bad h
  · exact processAppend_bad h
  · exact processDelete_bad h
  · cases h; simp [Failure.Bad]

theorem processContextAttribute_bad {env : Env} {ctx : Ctx} {eP : EntityId} {ca : ContextAttribute}
    {work : Work} {w : World} {f : Failure}
    (h : (processContextAttribute env ctx eP ca work w).1 = .error f) : f.Bad := by
  unfold processContextAttribute at h
  split at h
  · rename_i e; cases h; exact processAction_bad e
  · split at h
    · split at h
      · cases h; simp [Failure.Bad]
      · cases h
    · cases h

theorem processContextAttributeVector_bad {env : Env} {ctx : Ctx} {eP : EntityId} {f : Failure} :
    ∀ {caV : List ContextAttribute} {work : Work} {w : World},
      (processContextAttributeVector env ctx eP caV work w).result = .error f → f.Bad
  | [], _, _, h => by simp [processContextAttributeVector] at h
  | ca :: caV, work, w, h => by
    unfold processContextAttributeVector at h
    split at h
    · rename_i f' w' e
      cases h
      exact processContextAttribute_bad (by rw [e])
    · exact processContextAttributeVector_bad h

/-! ## What an attribute that is accepted does to the working copies -/

section
variable {env : Env} {ctx : Ctx} {now : Int} {eP : EntityId} {ca : ContextAttribute} {work work' : Work}
  {flag : Bool}

/-- UPDATE: the location follows when the attribute is the location attribute. -/
theorem processUpdate_ok (h : processUpdate env now eP ca work = .ok (work', flag)) :
    (updateAttribute now work.attrs ca).2.1 = true ∧ flag = (updateAttribute now work.attrs ca).2.2 ∧
    work'.attrs = (updateAttribute now work.attrs ca).1 ∧
    work'.entityModified = (flag || work.entityModified) ∧
    ((ca.name ≠ work.loc.locAttr ∧ ca.getLocation = "" ∧ work'.loc = work.loc) ∨
     (ca.name = work.loc.locAttr ∧ ∃ c, coords env.atof ca.value = some c ∧
        work'.loc = ⟨ca.name, c.1, c.2⟩)) := by
  unfold processUpdate at h
  simp only at h
  split at h
  · cases h
  · rename_i hu
    split at h
    · cases h
    · rename_i hl
      split at h
      · rename_i hn
        split at h
        · rename_i lat long e
          cases h
          have hc := string2coords_true (h := by rw [e])
          rw [e] at hc
          exact ⟨by simpa using hu, rfl, rfl, rfl, .inr ⟨hn.symm, _, hc, by rw [← hn]⟩⟩
        · cases h
      · rename_i hn
        cases h
        have hne : ca.name ≠ work.loc.locAttr := fun e => hn e.symm
        exact ⟨by simpa using hu, rfl, rfl, rfl, .inl ⟨hne, by simpa [hne] using hl, rfl⟩⟩

/-- APPEND: the location follows when the request marks the attribute, and only then. -/
theorem processAppend_ok (h : processAppend env now eP ca work = .ok (work', flag)) :
    legalIdUsage work.attrs ca = true ∧ flag = true ∧ work'.attrs = (appendAttribute now work.attrs ca).1 ∧
    work'.entityModified = ((appendAttribute now work.attrs ca).2 || work.entityModified) ∧
    ((ca.getLocation = "" ∧ work'.loc = work.loc) ∨
     (ca.getLocation ≠ "" ∧ (work.loc.locAttr = "" ∨ ca.name = work.loc.locAttr) ∧
        ∃ c, coords env.atof ca.value = some c ∧ work'.loc = ⟨ca.name, c.1, c.2⟩)) := by
  unfold processAppend at h
  simp only at h
  split at h
  · rename_i hl
    split at h
    · rename_i hloc
      split at h
      · cases h
      · rename_i hn
        split at h
        · cases h
        · split at h
          · rename_i lat long e
            cases h
            have hc := string2coords_true (h := by rw [e])
            rw [e] at hc
            have hor : work.loc.locAttr = "" ∨ ca.name = work.loc.locAttr := by
              by_contra hne
              exact hn (not_or.1 hne)
            exact ⟨hl, rfl, rfl, rfl, .inr ⟨hloc, hor, _, hc, rfl⟩⟩
          · cases h
    · rename_i hloc
      cases h
      exact ⟨hl, rfl, rfl, rfl, .inl ⟨by simpa using hloc, rfl⟩⟩
  · cases h

/-- DELETE: the location goes with an attribute of its name. -/
theorem processDelete_ok (h : processDelete eP ca work = .ok (work', flag)) :
    (deleteAttribute work.attrs ca).2 = true ∧ flag = true ∧ work'.attrs = (deleteAttribute work.attrs ca).1 ∧
    work'.entityModified = true ∧
    ((work.loc.locAttr ≠ ca.name ∧ work'.loc = work.loc) ∨ work'.loc.locAttr = "") := by
  unfold processDelete at h
  simp only at h
  split at h
  · rename_i hd
    split at h
    · cases h
    · split at h
      · cases h; exact ⟨hd, rfl, rfl, rfl, .inr rfl⟩
      · rename_i hn
        cases h; exact ⟨hd, rfl, rfl, rfl, .inl ⟨hn, rfl⟩⟩
  · cases h

/-- The action on the attributes alone. -/
def attrsAfter (now : Int) (action : UpdateAction) (attrs : List AttrDoc) (ca : ContextAttribute) :
    List AttrDoc :=
  match action with
  | .update => (updateAttribute now attrs ca).1
  | .append => (appendAttribute now attrs ca).1
  | .delete => (deleteAttribute attrs ca).1
  | .unknown => attrs

theorem processAction_attrs (h : processAction env ctx eP ca work = .ok (work', flag)) :
    work'.attrs = attrsAfter ctx.now (updateAction ctx.action) work.attrs ca := by
  unfold processAction at h
  split at h
  · rename_i ha; rw [ha]; exact (processUpdate_ok h).2.2.1
  · rename_i ha; rw [ha]; exact (processAppend_ok h).2.2.1
  · rename_i ha; rw [ha]; exact (processDelete_ok h).2.2.1
  · cases h

theorem addTriggeredSubscriptions_ok {entityId entityType attr : String} {subs m : SubsMap} {w w' : World}
    (h : addTriggeredSubscriptions env ctx entityId entityType attr subs w = (.ok m, w')) :
    m = subs.addAll (triggeredFind env ctx entityId entityType attr w) := by
  unfold addTriggeredSubscriptions at h
  simp only at h
  split at h
  · cases h
  · cases h; rfl

/-- A vector is accepted attribute by attribute; the lookups in between only fill the map. -/
theorem processContextAttributeVector_cons {caV : List ContextAttribute} {w : World} {final : Work}
    (h : (processContextAttributeVector env ctx eP (ca :: caV) work w).result = .ok final) :
    ∃ work1 flag subs w1, processAction env ctx eP ca work = .ok (work1, flag) ∧
      (processContextAttributeVector env ctx eP caV { work1 with subs := subs } w1).result = .ok final ∧
      w1.csubs = w.csubs ∧
      subs = if flag then work1.subs.addAll (triggeredFind env ctx eP.id eP.type ca.name w) else work1.subs := by
  unfold processContextAttributeVector at h
  split at h
  · cases h
  · rename_i work2 w2 e
    have hsame := processContextAttribute_same env ctx eP ca work w
    rw [e] at hsame
    unfold processContextAttribute at e
    split at e
    · cases e
    · rename_i work1 flag ea
      split at e
      · rename_i hflag
        split at e
        · cases e
        · rename_i subs1 w1 ea1
          cases e
          refine ⟨work1, flag, subs1, w2, ea, h, hsame.csubs, ?_⟩
          rw [hflag, if_pos rfl, addTriggeredSubscriptions_ok ea1]
      · rename_i hflag
        cases e
        exact ⟨work2, flag, work2.subs, _, ea, h, rfl, by rw [if_neg hflag]⟩

end

/-! ## The loop without its lookups -/

/-- The working copies after the vector, and the names of the attributes that are looked up. -/
def attributeRun (env : Env) (ctx : Ctx) (eP : EntityId) :
    List ContextAttribute → Work → Except Failure (Work × List String)
  | [], work => .ok (work, [])
  | ca :: caV, work =>
    match processAction env ctx eP ca work with
    | .error f => .error f
    | .ok (work1, actualUpdate) =>
      match attributeRun env ctx eP caV work1 with
      | .error f => .error f
      | .ok (final, names) => .ok (final, if actualUpdate then ca.name :: names else names)

/-- The subscriptions of several lookups. -/
def collect (env : Env) (ctx : Ctx) (eP : EntityId) (w : World) (names : List String) (subs : SubsMap) : SubsMap :=
  names.foldl (fun m name => m.addAll (triggeredFind env ctx eP.id eP.type name w)) subs

section
variable {env : Env} {ctx : Ctx} {eP : EntityId}

theorem processAction_subs (ca : ContextAttribute) (work : Work) (subs : SubsMap) :
    processAction env ctx eP ca { work with subs := subs } =
      (processAction env ctx eP ca work).map fun r => ({ r.1 with subs := subs }, r.2) := by
  unfold processAction
  split
  · unfold processUpdate
    simp only
    split
    · rfl
    · split
      · rfl
      · split
        · split <;> rfl
        · rfl
  · unfold processAppend
    simp only
    split
    · split
      · split
        · rfl
        · split
          · rfl
          · split <;> rfl
      · rfl
    · rfl
  · unfold processDelete
    simp only
    split
    · split
      · rfl
      · split <;> rfl
    · rfl
  · rfl

theorem attributeRun_subs : ∀ (caV : List ContextAttribute) (work : Work) (subs : SubsMap),
    attributeRun env ctx eP caV { work with subs := subs } =
      (attributeRun env ctx eP caV work).map fun r => ({ r.1 with subs := subs }, r.2)
  | [], _, _ => rfl
  | ca :: caV, work, subs => by
    unfold attributeRun
    rw [processAction_subs]
    cases processAction env ctx eP ca work with
    | error f => rfl
    | ok r =>
      obtain ⟨work1, flag⟩ := r
      simp only [Except.map]
      rw [attributeRun_subs caV work1 subs]
      cases attributeRun env ctx eP caV work1 <;> rfl

theorem triggeredFind_csubs {w w' : World} (h : w'.csubs = w.csubs) (entityId entityType attr : String) :
    triggeredFind env ctx entityId entityType attr w' = triggeredFind env ctx entityId entityType attr w := by
  unfold triggeredFind; rw [h]

theorem collect_csubs {w w' : World} (h : w'.csubs = w.csubs) (names : List String) (subs : SubsMap) :
    collect env ctx eP w' names subs = collect env ctx eP w names subs := by
  unfold collect
  simp only [triggeredFind_csubs h]

theorem processAction_keeps_subs {ca : ContextAttribute} {work work1 : Work} {flag : Bool}
    (h : processAction env ctx eP ca work = .ok (work1, flag)) : work1.subs = work.subs := by
  have h0 : processAction env ctx eP ca work = _ := processAction_subs ca work work.subs
  rw [h] at h0
  simp only [Except.map, Except.ok.injEq, Prod.mk.injEq] at h0
  rw [h0.1]

/-- **An accepted vector** leaves the working copies of the run, and the subscriptions of its lookups. -/
theorem processContextAttributeVector_run : ∀ {caV : List ContextAttribute} {work final : Work} {w : World},
    (processContextAttributeVector env ctx eP caV work w).result = .ok final →
    ∃ names, attributeRun env ctx eP caV work = .ok ({ final with subs := work.subs }, names) ∧
      final.subs = collect env ctx eP w names work.subs
  | [], work, final, w, h => by
    simp only [processContextAttributeVector] at h
    cases h
    exact ⟨[], rfl, rfl⟩
  | ca :: caV, work, final, w, h => by
    obtain ⟨work1, flag, subs, w1, ha, h1, hcs, hsubs⟩ := processContextAttributeVector_cons h
    obtain ⟨names, hrun, hcol⟩ := processContextAttributeVector_run h1
    have hkeep := processAction_keeps_subs ha
    have hrun1 : attributeRun env ctx eP caV work1 = .ok ({ final with subs := work1.subs }, names) := by
      have h2 : attributeRun env ctx eP caV work1 = _ :=
        attributeRun_subs caV { work1 with subs := subs } work1.subs
      rw [hrun] at h2
      exact h2
    refine ⟨if flag then ca.name :: names else names, ?_, ?_⟩
    · unfold attributeRun
      rw [ha]
      simp only [hrun1, hkeep]
    · rw [hcol, collect_csubs hcs]
      simp only [hsubs, hkeep]
      cases flag <;> rfl

/-- When every call succeeds, the run is all there is. -/
theorem processContextAttributeVector_of_run : ∀ {caV : List ContextAttribute} {work final : Work}
    {names : List String} {w : World}, w.outcomes = [] →
    attributeRun env ctx eP caV work = .ok (final, names) →
    (processContextAttributeVector env ctx eP caV work w).result =
      .ok { final with subs := collect env ctx eP w names work.subs }
  | [], work, final, names, w, _, h => by
    simp only [attributeRun] at h
    cases h
    rfl
  | ca :: caV, work, final, names, w, ho, h => by
    unfold attributeRun at h
    split at h
    · cases h
    · rename_i work1 flag ha
      split at h
      · cases h
      · rename_i final1 names1 hr
        cases h
        have hkeep := processAction_keeps_subs ha
        have hcall : w.call = (.ok, w) := by unfold World.call; rw [ho]
        unfold processContextAttributeVector processContextAttribute
        rw [ha]
        cases flag with
        | false =>
          simp only [Bool.false_eq_true, if_false]
          rw [processContextAttributeVector_of_run ho hr, hkeep]
        | true =>
          have hadd : addTriggeredSubscriptions env ctx eP.id eP.type ca.name work1.subs w =
              (.ok (work1.subs.addAll (triggeredFind env ctx eP.id eP.type ca.name w)), w) := by
            unfold addTriggeredSubscriptions
            rw [hcall]
            rfl
          simp only [if_true, hadd]
          have hr2 := @attributeRun_subs env ctx eP caV work1
            (work1.subs.addAll (triggeredFind env ctx eP.id eP.type ca.name w))
          rw [hr] at hr2
          rw [processContextAttributeVector_of_run ho hr2, hkeep]
          rfl

/-- The run does not see the service path. -/
theorem attributeRun_servicePath (servicePathV : List String) : ∀ (caV : List ContextAttribute) (work : Work),
    attributeRun env { ctx with servicePathV := servicePathV } eP caV work = attributeRun env ctx eP caV work
  | [], _ => rfl
  | ca :: caV, work => by
    have ha : processAction env { ctx with servicePathV := servicePathV } eP ca work =
        processAction env ctx eP ca work := rfl
    unfold attributeRun
    rw [ha]
    cases processAction env ctx eP ca work with
    | error f => rfl
    | ok r => simp only [attributeRun_servicePath servicePathV caV]

end

/-! ## One document -/

/-- What the attribute loop makes of a document. -/
abbrev vectorOn (env : Env) (ctx : Ctx) (ce : ContextElement) (r : EntityDoc) (w : World) : VectorResult :=
  processContextAttributeVector env ctx (documentEntity r.key) ce.contextAttributeVector (startWork r) w

/-- Everything one iteration of the document loop can do, and the status it answers. -/
inductive DocumentStep (env : Env) (ctx : Ctx) (ce : ContextElement) (r : EntityDoc) (w w' : World)
    (status : StatusCode) : Prop where
  | removed (action : updateAction ctx.action = .delete) (vector : ce.contextAttributeVector = [])
      (code : status.code = .ok)
      (entities : w'.entities = w.entities.remove (env.selects (removeSelector r.key)))
      (trace : w'.trace = w.trace ++ [.entityRemove r.key])
  | removeFailed (action : updateAction ctx.action = .delete) (vector : ce.contextAttributeVector = [])
      (code : status.code ≠ .ok) (same : World.Same w w')
  | failed (f : Failure) (result : (vectorOn env ctx ce r w).result = .error f) (code : status.code ≠ .ok)
      (same : World.Same w w')
  | unmodified (work : Work) (result : (vectorOn env ctx ce r w).result = .ok work)
      (modified : work.entityModified = false) (code : status.code = .ok) (same : World.Same w w')
  | updateFailed (work : Work) (result : (vectorOn env ctx ce r w).result = .ok work)
      (modified : work.entityModified = true) (code : status.code ≠ .ok) (same : World.Same w w')
  | updated (work : Work) (pick : Nat) (sent : List Event)
      (result : (vectorOn env ctx ce r w).result = .ok work)
      (modified : work.entityModified = true) (code : status.code = .ok)
      (entities : w'.entities = w.entities.updateOne (env.selects (writeSelector ctx r.key)) pick
        (applyWork ctx.now work) fun _ => rfl)
      (trace : w'.trace = w.trace ++ (.entityUpdate r.key :: sent))
      (notify : ∀ e ∈ sent, e.isNotify = true)

theorem removeEntity_step (env : Env) (ctx : Ctx) (ce : ContextElement) (r : EntityDoc) (w : World)
    (ha : updateAction ctx.action = .delete) (hv : ce.contextAttributeVector = []) :
    DocumentStep env ctx ce r w (removeEntity env ctx r.key w).2 (removeEntity env ctx r.key w).1 := by
  have hc := w.call_same
  unfold removeEntity
  simp only
  split
  · exact .removeFailed ha hv (by simp) hc
  · exact .removed ha hv rfl (by rw [World.emit, hc.entities]) (by rw [World.emit, hc.trace])

/-- The update fails and changes nothing, or modifies a matching document. -/
theorem updateEntity_cases (env : Env) (ctx : Ctx) (key : EntityKey) (work : Work) (w : World) :
    (∃ err w', updateEntity env ctx key work w = (some err, w') ∧ World.Same w w') ∨
    (∃ w' pick, updateEntity env ctx key work w = (none, w') ∧
      w'.entities = w.entities.updateOne (env.selects (writeSelector ctx key)) pick
        (applyWork ctx.now work) (fun _ => rfl) ∧
      w'.trace = w.trace ++ [.entityUpdate key]) := by
  have hc := w.call_same
  unfold updateEntity
  simp only
  split
  · exact .inl ⟨_, _, rfl, hc⟩
  · have hp := hc.trans w.call.2.pick_same
    exact .inr ⟨_, w.call.2.pick.1, rfl, by rw [World.emit, hp.entities], by rw [World.emit, hp.trace]⟩

theorem processDocument_step (env : Env) (ctx : Ctx) (ce : ContextElement) (r : EntityDoc) (w : World) :
    DocumentStep env ctx ce r w (processDocument env ctx ce r w).2.2
      (processDocument env ctx ce r w).1.statusCode := by
  unfold processDocument
  simp only
  split
  · rename_i h
    exact removeEntity_step env ctx ce r w h.1 (List.length_eq_zero_iff.1 h.2)
  · have hv := processContextAttributeVector_same env ctx (documentEntity r.key) ce.contextAttributeVector
      (startWork r) w
    split
    · rename_i f hf
      exact .failed f hf (processContextAttributeVector_bad hf) hv
    · rename_i work hw
      split
      · rename_i hm
        exact .unmodified work hw (by simpa using hm) rfl hv
      · rename_i hm
        have hm' : work.entityModified = true := by simpa using hm
        rcases updateEntity_cases env ctx r.key work (vectorOn env ctx ce r w).world with
          ⟨err, w1, e, hs⟩ | ⟨w1, pick, e, he, ht⟩
        · rw [e]
          exact .updateFailed work hw hm' (by simp) (hv.trans hs)
        · rw [e]
          obtain ⟨sent, hn⟩ := processSubscriptions_notifies env ctx ce.entityId work.subs w1
          refine .updated work pick sent hw hm' rfl ?_ ?_ hn.notify
          · rw [hn.entities, he, hv.entities]
          · rw [hn.trace, ht, hv.trace]; simp

/-! ## On APPEND every document counts -/

theorem processAppend_why {env : Env} {now : Int} {eP : EntityId} {ca : ContextAttribute} {work : Work}
    {f : Failure} (h : processAppend env now eP ca work = .error f) : f.why = 0 := by
  unfold processAppend at h
  simp only at h
  split at h
  · split at h
    · split at h
      · cases h; rfl
      · split at h
        · cases h; rfl
        · split at h
          · cases h
          · cases h; rfl
    · cases h
  · cases h; rfl

theorem processContextAttribute_why {env : Env} {ctx : Ctx} {eP : EntityId} {ca : ContextAttribute}
    {work : Work} {w : World} {f : Failure} (ha : updateAction ctx.action = .append)
    (h : (processContextAttribute env ctx eP ca work w).1 = .error f) : f.why = 0 := by
  unfold processContextAttribute processAction at h
  rw [ha] at h
  simp only at h
  split at h
  · rename_i e; cases h; exact processAppend_why e
  · split at h
    · split at h
      · cases h; rfl
      · cases h
    · cases h

theorem processContextAttributeVector_why {env : Env} {ctx : Ctx} {eP : EntityId} {f : Failure}
    (ha : updateAction ctx.action = .append) : ∀ {caV : List ContextAttribute} {work : Work} {w : World},
      (processContextAttributeVector env ctx eP caV work w).result = .error f → f.why = 0
  | [], _, _, h => by simp [processContextAttributeVector] at h
  | ca :: caV, work, w, h => by
    unfold processContextAttributeVector at h
    split at h
    · rename_i f' w' e
      cases h
      exact processContextAttribute_why ha (by rw [e])
    · exact processContextAttributeVector_why ha h

theorem processDocument_counted {env : Env} {ctx : Ctx} {ce : ContextElement} {r : EntityDoc} {w : World}
    (ha : updateAction ctx.action = .append) : (processDocument env ctx ce r w).2.1 = true := by
  unfold processDocument
  simp only
  split
  · rfl
  · split
    · rename_i f hf
      simp [processContextAttributeVector_why ha hf, ATTRIBUTE_NOT_FOUND]
    · split
      · rfl
      · split <;> rfl

/-- An APPEND creates only when it finds nothing. -/
theorem processDocuments_none {env : Env} {ctx : Ctx} {ce : ContextElement} {rs : List EntityDoc} {w : World}
    (ha : updateAction ctx.action = .append) (h : (processDocuments env ctx ce rs w).2.1 = 0) : rs = [] := by
  cases rs with
  | nil => rfl
  | cons r rs => simp [processDocuments, processDocument_counted ha] at h

/-! ## Creation -/

/-- Everything `createEntity` can do. -/
inductive CreationStep (env : Env) (ctx : Ctx) (en : EntityId) (attrsV : List ContextAttribute)
    (w w' : World) : Creation → Prop where
  | escaped (same : World.Same w w') : CreationStep env ctx en attrsV w w' .escaped
  | failed (errDetail : String) (same : World.Same w w') : CreationStep env ctx en attrsV w w' (.failed errDetail)
  | created (loc : Loc) (legal : legalIdUsageVector attrsV = true)
      (location : processLocation env.atof attrsV = .ok loc)
      (insert : w.entities.insert (createdDoc ctx en attrsV loc) = some w'.entities)
      (trace : w'.trace = w.trace ++ [.entityInsert (createdKey ctx en)]) :
      CreationStep env ctx en attrsV w w' .created

theorem ensureLocationIndex_same (env : Env) (w : World) : World.Same w (ensureLocationIndex env w).2 := by
  unfold ensureLocationIndex
  split
  · exact w.call_same
  · exact World.Same.refl w

theorem createEntity_step (env : Env) (ctx : Ctx) (en : EntityId) (attrsV : List ContextAttribute)
    (w : World) :
    CreationStep env ctx en attrsV w (createEntity env ctx en attrsV w).2
      (createEntity env ctx en attrsV w).1 := by
  have hi := ensureLocationIndex_same env w
  unfold createEntity
  split
  · rename_i w1 e; rw [e] at hi; exact .escaped hi
  · rename_i w1 e
    rw [e] at hi
    have hi : World.Same w w1 := hi
    split
    · exact .failed _ hi
    · rename_i hl
      split
      · exact .failed _ hi
      · rename_i loc hloc
        have hc := hi.trans w1.call_same
        unfold insertEntity
        simp only
        split
        · exact .failed _ hc
        · split
          · exact .failed _ hc
          · rename_i entities hins
            refine .created loc (by simpa using hl) hloc ?_ ?_
            · rw [← hc.entities]; exact hins
            · rw [World.emit, hc.trace]; rfl

theorem createdTriggers_same (env : Env) (ctx : Ctx) (en : EntityId) :
    ∀ (caV : List ContextAttribute) (subs : SubsMap) (w : World),
      World.Same w (createdTriggers env ctx en caV subs w).2
  | [], _, w => World.Same.refl w
  | ca :: caV, subs, w => by
    unfold createdTriggers
    have h := addTriggeredSubscriptions_same env ctx en.id en.type ca.name subs w
    split
    · rename_i e; rw [e] at h; exact h
    · rename_i subs1 w1 e
      rw [e] at h
      exact h.trans (createdTriggers_same env ctx en caV subs1 w1)

/-- The creation branch does to the entities what `createEntity` does. -/
theorem createdResponse_entities (env : Env) (ctx : Ctx) (ce : ContextElement) (w : World) :
    (createdResponse env ctx ce w).2.entities =
      (createEntity env ctx ce.entityId ce.contextAttributeVector w).2.entities := by
  unfold createdResponse
  simp only
  split
  · rename_i e; rw [e]
  · rename_i e; rw [e]
  · rename_i w1 e
    rw [e]
    have ht := createdTriggers_same env ctx ce.entityId ce.contextAttributeVector [] w1
    split
    · rename_i e1; rw [e1] at ht; exact ht.entities
    · rename_i subs w2 e1
      rw [e1] at ht
      obtain ⟨sent, hn⟩ := processSubscriptions_notifies env ctx ce.entityId subs w2
      exact hn.entities.trans ht.entities

/-! ## A property of every document -/

section
variable {P : EntityDoc → Prop} {env : Env} {ctx : Ctx}

theorem processDocument_forall {ce : ContextElement} {r : EntityDoc} {w : World}
    (hstep : ∀ w work d, (vectorOn env ctx ce r w).result = .ok work → P (applyWork ctx.now work d))
    (h : ∀ d ∈ w.entities.docs, P d) :
    ∀ d ∈ (processDocument env ctx ce r w).2.2.entities.docs, P d := by
  cases processDocument_step env ctx ce r w with
  | removed _ _ _ he _ => rw [he]; exact Collection.remove_forall h
  | removeFailed _ _ _ hs => rw [hs.entities]; exact h
  | failed _ _ _ hs => rw [hs.entities]; exact h
  | unmodified _ _ _ _ hs => rw [hs.entities]; exact h
  | updateFailed _ _ _ _ hs => rw [hs.entities]; exact h
  | updated work pick sent hr _ _ he _ _ =>
    rw [he]
    exact Collection.updateOne_forall h fun d _ => hstep w work d hr

theorem processDocuments_forall {ce : ContextElement} {rs : List EntityDoc} {w : World}
    (hstep : ∀ r ∈ rs, ∀ w work d, (vectorOn env ctx ce r w).result = .ok work → P (applyWork ctx.now work d))
    (h : ∀ d ∈ w.entities.docs, P d) :
    ∀ d ∈ (processDocuments env ctx ce rs w).2.2.entities.docs, P d := by
  induction rs generalizing w with
  | nil => exact h
  | cons r rs ih =>
    have h1 := processDocument_forall (hstep r (by simp)) h
    rw [processDocuments_cons_world]
    exact ih (fun r' hr' => hstep r' (by simp [hr'])) h1

theorem createdResponse_forall {ce : ContextElement} {w : World}
    (hcreate : ∀ loc, legalIdUsageVector ce.contextAttributeVector = true →
      processLocation env.atof ce.contextAttributeVector = .ok loc →
      P (createdDoc ctx ce.entityId ce.contextAttributeVector loc))
    (h : ∀ d ∈ w.entities.docs, P d) :
    ∀ d ∈ (createdResponse env ctx ce w).2.entities.docs, P d := by
  rw [createdResponse_entities]
  have hs := createEntity_step env ctx ce.entityId ce.contextAttributeVector w
  generalize (createEntity env ctx ce.entityId ce.contextAttributeVector w).1 = c at hs
  cases hs with
  | escaped hs => rw [hs.entities]; exact h
  | failed _ hs => rw [hs.entities]; exact h
  | created loc hl hloc hi _ => exact Collection.insert_forall hi h (hcreate loc hl hloc)

/-- **The rule for one element.** What holds of every document keeps holding when the attribute loop keeps
it on the documents it starts from, and the documents that are created have it. -/
theorem processContextElement_forall {ce : ContextElement} {w : World}
    (hstep : ∀ r ∈ foundDocuments env ctx ce w, ∀ w work d, (vectorOn env ctx ce r w).result = .ok work →
      P (applyWork ctx.now work d))
    (hcreate : ∀ loc, updateAction ctx.action = .append → foundDocuments env ctx ce w = [] →
      legalIdUsageVector ce.contextAttributeVector = true →
      processLocation env.atof ce.contextAttributeVector = .ok loc →
      P (createdDoc ctx ce.entityId ce.contextAttributeVector loc))
    (h : ∀ d ∈ w.entities.docs, P d) :
    ∀ d ∈ (processContextElement env ctx ce w).2.entities.docs, P d := by
  unfold processContextElement
  simp only
  split
  · exact h
  · split
    · exact h
    · have hc : ∀ d ∈ w.call.2.entities.docs, P d := by rw [w.call_same.entities]; exact h
      split
      · exact hc
      · have hd := processDocuments_forall hstep hc
        split
        · rename_i hn
          split
          · exact hd
          · rename_i hap
            have hap : updateAction ctx.action = .append := by simpa using hap
            have hcr := createdResponse_forall (fun loc => hcreate loc hap (processDocuments_none hap hn)) hd
            split
            · rename_i e; rw [e] at hcr; exact hcr
            · rename_i e; rw [e] at hcr; exact hcr
        · exact hd

end

/-! ## Runs -/

/-- `Ok` holds of every element of the request that is processed, in the state it is processed in. -/
def ElementsOk (env : Env) (Ok : Ctx → ContextElement → World → Prop) (ctx : Ctx) :
    List ContextElement → World → Prop
  | [], _ => True
  | ce :: ces, w =>
    Ok ctx ce w ∧ ((processContextElement env ctx ce w).1.isSome →
      ElementsOk env Ok ctx ces (processContextElement env ctx ce w).2)

/-- The states that `updateContext` requests lead to from an empty collection, when `Ok` holds of every
element. Between two requests everything but the entities may change: the subscriptions, the outcomes of
the calls to come, the picks. -/
inductive Reachable (env : Env) (Ok : Ctx → ContextElement → World → Prop) : World → Prop where
  | start {w : World} (entities : w.entities = .empty) : Reachable env Ok w
  | other {w w' : World} (before : Reachable env Ok w) (entities : w'.entities = w.entities) :
      Reachable env Ok w'
  | request {w : World} (ctx : Ctx) (contextElementVector : List ContextElement)
      (before : Reachable env Ok w) (ok : ElementsOk env Ok ctx contextElementVector w) :
      Reachable env Ok (mongoUpdateContext env ctx contextElementVector w).2

section
variable {P : EntityDoc → Prop} {env : Env} {Ok : Ctx → ContextElement → World → Prop}
  (hstep : ∀ ctx ce w, Ok ctx ce w → (∀ d ∈ w.entities.docs, P d) →
    ∀ d ∈ (processContextElement env ctx ce w).2.entities.docs, P d)
include hstep

theorem processContextElements_forall {ctx : Ctx} : ∀ {ces : List ContextElement} {w : World},
    ElementsOk env Ok ctx ces w → (∀ d ∈ w.entities.docs, P d) →
    ∀ d ∈ (processContextElements env ctx ces w).2.entities.docs, P d
  | [], _, _, h => h
  | ce :: ces, w, hok, h => by
    have h1 := hstep ctx ce w hok.1 h
    have hok1 := hok.2
    unfold processContextElements
    split
    · rename_i e; rw [e] at h1; exact h1
    · rename_i cers w1 e
      rw [e] at h1 hok1
      have h2 := processContextElements_forall (hok1 rfl) h1
      split
      · rename_i e2; rw [e2] at h2; exact h2
      · rename_i e2; rw [e2] at h2; exact h2

/-- **The rule for runs.** What every element keeps holds in every state reached. -/
theorem Reachable.all_docs {w : World} (hr : Reachable env Ok w) : ∀ d ∈ w.entities.docs, P d := by
  induction hr with
  | start he => rw [he]; simp [Collection.empty]
  | other _ he ih => rw [he]; exact ih
  | request ctx ces _ hok ih =>
    have h := processContextElements_forall hstep hok ih
    unfold mongoUpdateContext
    split
    · exact ih
    · split
      · rename_i e; rw [e] at h; exact h
      · rename_i e; rw [e] at h; exact h

end

end OrionBroker
