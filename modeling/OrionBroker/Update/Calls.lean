import OrionBroker.Update.Steps

/-!
# The subscriptions a request notifies, one after the other

An update request does three kinds of things to the world: it reads and writes entities, it looks up
subscriptions, and it runs the loop of `processSubscriptions` on what it found. Only the last touches the
subscriptions or sends anything. `updateCalls` lists the iterations of these loops over a whole request, with the
world each one starts in; `update_induct` is the rule it gives: what quiet steps and the iterations keep, the
request keeps.

The map of an iteration is fresh (`FreshMap`): its fields are those of the documents as they are then, since the
lookups see the same documents and each key comes up once.
-/

namespace OrionBroker

open Mongo

/-! ## The iterations -/

/-- An iteration of the loop of `processSubscriptions`. -/
structure SubscriptionCall where
  en : EntityId
  sub : String × TriggeredSubscription
  world : World

def subscriptionsCalls (env : Env) (ctx : Ctx) (en : EntityId) : SubsMap → World → List SubscriptionCall
  | [], _ => []
  | sub :: subs, w =>
    ⟨notifiedEntity en, sub, w⟩ ::
      subscriptionsCalls env ctx en subs (processSubscription env ctx (notifiedEntity en) sub w).2

def documentCalls (env : Env) (ctx : Ctx) (ce : ContextElement) (r : EntityDoc) (w : World) : List SubscriptionCall :=
  if updateAction ctx.action = .delete ∧ ce.contextAttributeVector.length = 0 then []
  else
    let v := vectorOn env ctx ce r w
    match v.result with
    | .error _ => []
    | .ok work =>
      if !work.entityModified then []
      else
        match updateEntity env ctx r.key work v.world with
        | (some _, _) => []
        | (none, w) => subscriptionsCalls env ctx ce.entityId work.subs w

def documentsCalls (env : Env) (ctx : Ctx) (ce : ContextElement) : List EntityDoc → World → List SubscriptionCall
  | [], _ => []
  | r :: rs, w => documentCalls env ctx ce r w ++ documentsCalls env ctx ce rs (processDocument env ctx ce r w).2.2

def createdCalls (env : Env) (ctx : Ctx) (ce : ContextElement) (w : World) : List SubscriptionCall :=
  match createEntity env ctx ce.entityId ce.contextAttributeVector w with
  | (.escaped, _) => []
  | (.failed _, _) => []
  | (.created, w) =>
    match createdTriggers env ctx ce.entityId ce.contextAttributeVector [] w with
    | (.error _, _) => []
    | (.ok subs, w) => subscriptionsCalls env ctx ce.entityId subs w

def elementCalls (env : Env) (ctx : Ctx) (ce : ContextElement) (w : World) : List SubscriptionCall :=
  if isTrue ce.entityId.isPattern then []
  else
    match emptyAttribute ctx ce with
    | some _ => []
    | none =>
      let docs := foundDocuments env ctx ce w
      let (o, w) := w.call
      match o.queryError with
      | some _ => []
      | none =>
        let after := processDocuments env ctx ce docs w
        documentsCalls env ctx ce docs w ++
          if after.2.1 = 0 ∧ updateAction ctx.action = .append then createdCalls env ctx ce after.2.2 else []

def elementsCalls (env : Env) (ctx : Ctx) : List ContextElement → World → List SubscriptionCall
  | [], _ => []
  | ce :: ces, w =>
    elementCalls env ctx ce w ++
      match processContextElement env ctx ce w with
      | (none, _) => []
      | (some _, w) => elementsCalls env ctx ces w

/-- The iterations of a whole request. -/
def updateCalls (env : Env) (ctx : Ctx) (contextElementVector : List ContextElement) (w : World) :
    List SubscriptionCall :=
  if ctx.servicePathV.length > 1 then [] else elementsCalls env ctx contextElementVector w

/-! ## Quiet steps -/

/-- The notifications sent so far. -/
def World.notified (w : World) : List Notification :=
  w.trace.filterMap fun
    | .notify n => some n
    | _ => none

/-- Nothing is sent and the subscriptions stay. -/
structure World.Quiet (w w' : World) : Prop where
  csubs : w'.csubs = w.csubs
  threads : w'.threads = w.threads
  notified : w'.notified = w.notified

theorem World.Quiet.trans {w w' w'' : World} (h : w.Quiet w') (h' : w'.Quiet w'') : w.Quiet w'' :=
  ⟨h'.csubs.trans h.csubs, h'.threads.trans h.threads, h'.notified.trans h.notified⟩

theorem World.Same.quiet {w w' : World} (h : World.Same w w') : w.Quiet w' :=
  ⟨h.csubs, h.threads, by unfold World.notified; rw [h.trace]⟩

theorem quiet_emit {w : World} {e : Event} (he : e.isNotify = false) : w.Quiet (w.emit e) := by
  refine ⟨rfl, rfl, ?_⟩
  unfold World.notified World.emit
  rw [List.filterMap_append]
  cases e with
  | notify n => cases he
  | _ => simp

theorem quiet_entities (w : World) (entities : Collection EntityDoc EntityKey EntityDoc.key) :
    w.Quiet { w with entities := entities } := ⟨rfl, rfl, rfl⟩

theorem removeEntity_quiet (env : Env) (ctx : Ctx) (key : EntityKey) (w : World) :
    w.Quiet (removeEntity env ctx key w).2 := by
  unfold removeEntity
  simp only
  split
  · exact w.call_same.quiet
  · exact w.call_same.quiet.trans ((quiet_entities _ _).trans (quiet_emit rfl))

theorem updateEntity_quiet (env : Env) (ctx : Ctx) (key : EntityKey) (work : Work) (w : World) :
    w.Quiet (updateEntity env ctx key work w).2 := by
  unfold updateEntity
  simp only
  split
  · exact w.call_same.quiet
  · exact (w.call_same.trans w.call.2.pick_same).quiet.trans ((quiet_entities _ _).trans (quiet_emit rfl))

theorem createEntity_quiet (env : Env) (ctx : Ctx) (en : EntityId) (attrsV : List ContextAttribute) (w : World) :
    w.Quiet (createEntity env ctx en attrsV w).2 := by
  have hi := ensureLocationIndex_same env w
  unfold createEntity
  split
  · rename_i w1 e
    rw [e] at hi
    exact hi.quiet
  · rename_i w1 e
    rw [e] at hi
    have hi : World.Same w w1 := hi
    split
    · exact hi.quiet
    · split
      · exact hi.quiet
      · have hc := (hi.trans w1.call_same).quiet
        unfold insertEntity
        simp only
        split
        · exact hc
        · split
          · exact hc
          · exact hc.trans ((quiet_entities _ _).trans (quiet_emit rfl))

/-! ## Fresh maps -/

/-- The entry of a stored subscription, with its fields as stored. -/
def Fresh (p : String × TriggeredSubscription) (w : World) : Prop :=
  ∃ s ∈ w.csubs.docs, p = (s.oid, triggeredSubscription s)

structure FreshMap (subs : SubsMap) (w : World) : Prop where
  fresh : ∀ p ∈ subs, Fresh p w
  nodup : subs.keys.Nodup

theorem FreshMap.nil (w : World) : FreshMap [] w := ⟨nofun, List.nodup_nil⟩

theorem FreshMap.csubs {subs : SubsMap} {w w' : World} (h : FreshMap subs w) (hc : w'.csubs = w.csubs) :
    FreshMap subs w' := by
  refine ⟨fun p hp => ?_, h.nodup⟩
  unfold Fresh
  rw [hc]
  exact h.fresh p hp

theorem FreshMap.insert {subs : SubsMap} {w : World} (h : FreshMap subs w) {s : SubDoc} (hs : s ∈ w.csubs.docs) :
    FreshMap (subs.insert (s.oid, triggeredSubscription s)) w := by
  unfold SubsMap.insert
  split
  · exact h
  · rename_i hk
    have hperm := List.perm_orderedInsert (fun a b : String × TriggeredSubscription => a.1 ≤ b.1)
      (s.oid, triggeredSubscription s) subs
    refine ⟨fun p hp => ?_, ?_⟩
    · rcases List.mem_cons.1 (hperm.mem_iff.1 hp) with rfl | hp
      · exact ⟨s, hs, rfl⟩
      · exact h.fresh p hp
    · have hkeys := (hperm.map Prod.fst).nodup_iff
      exact hkeys.2 (List.nodup_cons.2 ⟨hk, h.nodup⟩)

theorem FreshMap.addAll {found : List SubDoc} {w : World} (hf : ∀ s ∈ found, s ∈ w.csubs.docs) :
    ∀ {subs : SubsMap}, FreshMap subs w → FreshMap (subs.addAll found) w := by
  induction found with
  | nil => exact fun h => h
  | cons s found ih =>
    intro subs h
    exact ih (fun x hx => hf x (List.mem_cons_of_mem s hx)) (h.insert (hf s List.mem_cons_self))

theorem mem_triggeredFind {env : Env} {ctx : Ctx} {entityId entityType attr : String} {w : World} {s : SubDoc}
    (h : s ∈ triggeredFind env ctx entityId entityType attr w) : s ∈ w.csubs.docs := (Collection.mem_found.1 h).2.1

theorem FreshMap.collect {env : Env} {ctx : Ctx} {eP : EntityId} {w : World} (names : List String) :
    ∀ {subs : SubsMap}, FreshMap subs w → FreshMap (collect env ctx eP w names subs) w := by
  induction names with
  | nil => exact fun h => h
  | cons name names ih =>
    intro subs h
    exact ih (h.addAll fun s hs => mem_triggeredFind hs)

theorem createdTriggers_fresh {env : Env} {ctx : Ctx} {en : EntityId} : ∀ {caV : List ContextAttribute}
    {subs subs' : SubsMap} {w w' : World}, FreshMap subs w →
    createdTriggers env ctx en caV subs w = (.ok subs', w') → FreshMap subs' w'
  | [], subs, subs', w, w', h, he => by
    cases he
    exact h
  | ca :: caV, subs, subs', w, w', h, he => by
    unfold createdTriggers at he
    have hsame := addTriggeredSubscriptions_same env ctx en.id en.type ca.name subs w
    split at he
    · cases he
    · rename_i subs1 w1 e
      rw [e] at hsame
      have hadd : FreshMap subs1 w := by
        unfold addTriggeredSubscriptions at e
        simp only at e
        split at e
        · cases e
        · cases e
          exact h.addAll fun s hs => mem_triggeredFind hs
      exact createdTriggers_fresh (hadd.csubs hsame.csubs) he

/-! ## One iteration -/

/-- Everything one iteration can do. `w1` is the world after the entities are read. -/
theorem processSubscription_cases (env : Env) (ctx : Ctx) (en : EntityId) (sub : String × TriggeredSubscription)
    (w : World) :
    let res := (processSubscription env ctx en sub w).2
    w.Quiet res ∨
    (blockedByThrottling ctx.now sub.2 = false ∧ ∃ w1 n, World.Same w w1 ∧ n.subscriptionId = sub.1 ∧
      (processOnChangeCondition env ctx.tenant [en] sub.2.attrL none sub.1 sub.2.reference sub.2.format
        ctx.servicePathV w) = (true, w1.emit (.notify n)) ∧
      ((w1.emit (.notify n)).call.1.writeError = none →
        res = (w1.emit (.notify n)).call.2.updateCsub sub.1 (bumpCount ctx.now) fun _ => rfl) ∧
      ((w1.emit (.notify n)).call.1.writeError ≠ none → res = (w1.emit (.notify n)).call.2)) := by
  intro res
  obtain ⟨subId, trigs⟩ := sub
  by_cases hb : blockedByThrottling ctx.now trigs = true
  · have hres : res = w := by
      show (processSubscription env ctx en (subId, trigs) w).2 = w
      simp only [processSubscription, hb, if_true]
    rw [hres]
    exact .inl (World.Same.refl w).quiet
  · have hb : blockedByThrottling ctx.now trigs = false := by simpa using hb
    rcases processOnChangeCondition_cases env ctx.tenant [en] trigs.attrL none subId trigs.reference trigs.format
      ctx.servicePathV w with ⟨hr, hw⟩ | ⟨hr, w1, n, hw, hn, he⟩
    · have hres : res = (processOnChangeCondition env ctx.tenant [en] trigs.attrL none subId trigs.reference
          trigs.format ctx.servicePathV w).2 := by
        show (processSubscription env ctx en (subId, trigs) w).2 = _
        simp only [processSubscription, hb, Bool.false_eq_true, if_false]
        split
        · rename_i e; rw [e]
        · rename_i e; rw [e] at hr; cases hr
      rw [hres]
      exact .inl hw.quiet
    · have hpair : processOnChangeCondition env ctx.tenant [en] trigs.attrL none subId trigs.reference trigs.format
          ctx.servicePathV w = (true, w1.emit (.notify n)) := Prod.ext hr he
      have hres : res = (match (w1.emit (.notify n)).call.1.writeError with
          | some _ => (false, (w1.emit (.notify n)).call.2)
          | none => (true, (w1.emit (.notify n)).call.2.updateCsub subId (bumpCount ctx.now) fun _ => rfl)).2 := by
        show (processSubscription env ctx en (subId, trigs) w).2 = _
        rewrite [processSubscription, if_neg (by rw [hb]; decide), hpair]
        rfl
      refine .inr ⟨hb, w1, n, hw, hn, hpair, fun hok => ?_, fun hno => ?_⟩
      · rw [hres, hok]
      · rw [hres]
        obtain ⟨what, hwhat⟩ := Option.ne_none_iff_exists'.1 hno
        rw [hwhat]

theorem mem_updateCsub {w : World} {oid : String} {f : SubDoc → SubDoc} (hf : ∀ s, (f s).oid = s.oid) {s : SubDoc} :
    s ∈ (w.updateCsub oid f hf).csubs.docs ↔
      (s ∈ w.csubs.docs ∧ s.oid ≠ oid) ∨ ∃ d ∈ w.csubs.docs, d.oid = oid ∧ s = f d :=
  @Collection.mem_modify _ _ _ _ w.csubs oid f hf s

/-- An iteration touches the document of its own key only. -/
theorem mem_csubs_processSubscription {env : Env} {ctx : Ctx} {en : EntityId} {sub : String × TriggeredSubscription}
    {w : World} {s : SubDoc} (hk : s.oid ≠ sub.1) :
    s ∈ (processSubscription env ctx en sub w).2.csubs.docs ↔ s ∈ w.csubs.docs := by
  rcases processSubscription_cases env ctx en sub w with hq | ⟨_, w1, n, hsame, _, _, hok, hno⟩
  · rw [hq.csubs]
  · have hcs : (w1.emit (.notify n)).call.2.csubs = w.csubs :=
      (w1.emit (.notify n)).call_same.csubs.trans hsame.csubs
    by_cases he : (w1.emit (.notify n)).call.1.writeError = none
    · rw [hok he]
      refine (mem_updateCsub (f := bumpCount ctx.now) fun _ => rfl).trans ?_
      rw [hcs]
      constructor
      · rintro (⟨hs, _⟩ | ⟨d, _, hd, rfl⟩)
        · exact hs
        · exact absurd hd hk
      · exact fun hs => .inl ⟨hs, hk⟩
    · rw [hno he, hcs]

theorem FreshMap.tail {env : Env} {ctx : Ctx} {en : EntityId} {sub : String × TriggeredSubscription} {subs : SubsMap}
    {w : World} (h : FreshMap (sub :: subs) w) : FreshMap subs (processSubscription env ctx en sub w).2 := by
  have hnd := List.nodup_cons.1 h.nodup
  refine ⟨fun p hp => ?_, hnd.2⟩
  obtain ⟨s, hs, hps⟩ := h.fresh p (List.mem_cons_of_mem sub hp)
  have hk : s.oid ≠ sub.1 := by
    intro he
    apply hnd.1
    rw [← he]
    have : p.1 = s.oid := by rw [hps]
    rw [← this]
    exact List.mem_map_of_mem hp
  exact ⟨s, (mem_csubs_processSubscription hk).2 hs, hps⟩

/-! ## The rule -/

section
variable {env : Env} {ctx : Ctx} {Q : World → Prop}

theorem subscriptionsCalls_en (en : EntityId) : ∀ (subs : SubsMap) (w : World),
    ∀ c ∈ subscriptionsCalls env ctx en subs w, c.en = notifiedEntity en
  | [], _, c, hc => by cases hc
  | sub :: subs, w, c, hc => by
    rcases List.mem_cons.1 hc with rfl | hc
    · rfl
    · exact subscriptionsCalls_en en subs _ c hc

theorem subscriptions_induct (en : EntityId) : ∀ {subs : SubsMap} {w : World}, FreshMap subs w →
    (∀ c ∈ subscriptionsCalls env ctx en subs w, Fresh c.sub c.world → Q c.world →
      Q (processSubscription env ctx c.en c.sub c.world).2) →
    Q w → Q (processSubscriptions env ctx en subs w).2
  | [], _, _, _, h => h
  | sub :: subs, w, hf, hcall, h => by
    have hone : Q (processSubscription env ctx (notifiedEntity en) sub w).2 :=
      hcall ⟨notifiedEntity en, sub, w⟩ List.mem_cons_self (hf.fresh sub List.mem_cons_self) h
    have hrest : Q (processSubscriptions env ctx en subs (processSubscription env ctx (notifiedEntity en) sub w).2).2 :=
      subscriptions_induct en hf.tail (fun c hc => hcall c (List.mem_cons_of_mem _ hc)) hone
    exact hrest

variable (quiet : ∀ {w w' : World}, w.Quiet w' → Q w → Q w')
include quiet

theorem document_induct {ce : ContextElement} {r : EntityDoc} {w : World}
    (hcall : ∀ c ∈ documentCalls env ctx ce r w, Fresh c.sub c.world → Q c.world →
      Q (processSubscription env ctx c.en c.sub c.world).2) (h : Q w) :
    Q (processDocument env ctx ce r w).2.2 := by
  have hv := processContextAttributeVector_same env ctx (documentEntity r.key) ce.contextAttributeVector
    (startWork r) w
  unfold processDocument
  unfold documentCalls at hcall
  simp only
  split
  · exact quiet (removeEntity_quiet env ctx r.key w) h
  · rename_i hdel
    rw [if_neg hdel] at hcall
    dsimp only at hcall
    split
    · exact quiet hv.quiet h
    · rename_i work hw
      rw [hw] at hcall
      dsimp only at hcall
      split
      · exact quiet hv.quiet h
      · rename_i hm
        rw [if_neg hm] at hcall
        have hu := updateEntity_quiet env ctx r.key work (vectorOn env ctx ce r w).world
        -- the lookups saw the documents that are there now
        obtain ⟨names, _, hsubs⟩ := processContextAttributeVector_run hw
        have hfresh : FreshMap work.subs w := by
          rw [hsubs]
          exact FreshMap.collect names (FreshMap.nil w)
        split
        · rename_i e
          rw [e] at hu
          exact quiet (hv.quiet.trans hu) h
        · rename_i w1 e
          rw [e] at hu hcall
          have hq := hv.quiet.trans hu
          exact subscriptions_induct ce.entityId (hfresh.csubs hq.csubs) hcall (quiet hq h)

theorem documents_induct {ce : ContextElement} {rs : List EntityDoc} {w : World}
    (hcall : ∀ c ∈ documentsCalls env ctx ce rs w, Fresh c.sub c.world → Q c.world →
      Q (processSubscription env ctx c.en c.sub c.world).2)
    (h : Q w) : Q (processDocuments env ctx ce rs w).2.2 := by
  induction rs generalizing w with
  | nil => exact h
  | cons r rs ih =>
    have hone : Q (processDocument env ctx ce r w).2.2 :=
      document_induct quiet (fun c hc => hcall c (List.mem_append_left _ hc)) h
    rw [processDocuments_cons_world]
    exact ih (fun c hc => hcall c (List.mem_append_right _ hc)) hone

theorem created_induct {ce : ContextElement} {w : World}
    (hcall : ∀ c ∈ createdCalls env ctx ce w, Fresh c.sub c.world → Q c.world →
      Q (processSubscription env ctx c.en c.sub c.world).2) (h : Q w) :
    Q (createdResponse env ctx ce w).2 := by
  have hq := createEntity_quiet env ctx ce.entityId ce.contextAttributeVector w
  unfold createdResponse
  unfold createdCalls at hcall
  simp only
  split
  · rename_i e
    rw [e] at hq
    exact quiet hq h
  · rename_i e
    rw [e] at hq
    exact quiet hq h
  · rename_i w1 e
    rw [e] at hq hcall
    have ht := createdTriggers_same env ctx ce.entityId ce.contextAttributeVector [] w1
    split
    · rename_i e1
      rw [e1] at ht
      exact quiet (hq.trans ht.quiet) h
    · rename_i subs w2 e1
      rw [e1] at ht
      dsimp only at hcall
      rw [e1] at hcall
      exact subscriptions_induct ce.entityId (createdTriggers_fresh (FreshMap.nil w1) e1) hcall
        (quiet (hq.trans ht.quiet) h)

theorem element_induct {ce : ContextElement} {w : World}
    (hcall : ∀ c ∈ elementCalls env ctx ce w, Fresh c.sub c.world → Q c.world →
      Q (processSubscription env ctx c.en c.sub c.world).2) (h : Q w) :
    Q (processContextElement env ctx ce w).2 := by
  unfold processContextElement
  unfold elementCalls at hcall
  split
  · exact h
  · rename_i hp
    rw [if_neg hp] at hcall
    split
    · exact h
    · rename_i ha
      rw [ha] at hcall
      dsimp only at hcall ⊢
      have hc := quiet w.call_same.quiet h
      split
      · exact hc
      · rename_i ho
        rw [ho] at hcall
        dsimp only at hcall
        have hd := documents_induct quiet (fun c hc => hcall c (List.mem_append_left _ hc)) hc
        split
        · rename_i hn
          split
          · exact hd
          · rename_i hact
            have hact : updateAction ctx.action = .append := by simpa using hact
            rw [if_pos ⟨hn, hact⟩] at hcall
            have hcr := created_induct quiet (fun c hc => hcall c (List.mem_append_right _ hc)) hd
            split
            · rename_i e
              rw [e] at hcr
              exact hcr
            · rename_i e
              rw [e] at hcr
              exact hcr
        · exact hd

theorem elements_induct : ∀ {ces : List ContextElement} {w : World},
    (∀ c ∈ elementsCalls env ctx ces w, Fresh c.sub c.world → Q c.world →
      Q (processSubscription env ctx c.en c.sub c.world).2) →
    Q w → Q (processContextElements env ctx ces w).2
  | [], _, _, h => h
  | ce :: ces, w, hcall, h => by
    have hone := element_induct quiet (fun c hc => hcall c (List.mem_append_left _ hc)) h
    have hrest := fun c hc => hcall c (List.mem_append_right _ hc)
    unfold processContextElements
    split
    · rename_i e
      rw [e] at hone
      exact hone
    · rename_i cers w1 e
      rw [e] at hone
      rw [e] at hrest
      have ih := elements_induct hrest hone
      split
      · rename_i e1
        rw [e1] at ih
        exact ih
      · rename_i e1
        rw [e1] at ih
        exact ih

/-- **What a request keeps.** A property of the world that quiet steps keep, and each iteration of the request on
its fresh entry, holds after the request when it holds before. -/
theorem update_induct {contextElementVector : List ContextElement} {w : World}
    (hcall : ∀ c ∈ updateCalls env ctx contextElementVector w, Fresh c.sub c.world → Q c.world →
      Q (processSubscription env ctx c.en c.sub c.world).2) (h : Q w) :
    Q (mongoUpdateContext env ctx contextElementVector w).2 := by
  unfold mongoUpdateContext
  unfold updateCalls at hcall
  split
  · exact h
  · rename_i hlen
    rw [if_neg hlen] at hcall
    have hall := elements_induct quiet hcall h
    split
    · rename_i e
      rw [e] at hall
      exact hall
    · rename_i e
      rw [e] at hall
      exact hall

end

end OrionBroker
