import Mathlib.Data.List.Flatten
import OrionBroker.Query.PathFilter
import OrionBroker.Update.NotifyContext
import OrionBroker.Update.Calls

/-!
# Two brokers, one entity

One broker has the entity; a subscription of it tells a second one, which stores what it is told. `Origin` is a run of
the first, `Replica` of the second, and the notifications the second takes are some of those the first sent, in their
order: a notification that is lost is not sent again. The rendering of a notification and its parsing are left out.

The first broker keeps, next to the log of the notifications, that the documents in the log grew one after the other up
to the document it has (`Showing`). So what the second has is what one notification showed, whole, and not a mixture of
several (`replica_shows_notified`).
-/

namespace OrionBroker

open Mongo

/-- What the notifications of a subscription showed so far. -/
def notifiedOf (subId : String) (w : World) : List (List ContextElementResponse) :=
  (w.notified.filter fun n => decide (n.subscriptionId = subId)).map Notification.contextElementResponseVector

/-- The attributes the subscription asks for. -/
def AttrsOf (subId : String) (attrL : List String) (w : World) : Prop :=
  ∀ s ∈ w.csubs.docs, s.oid = subId → s.attrs = attrL

/-- What a request of UPDATE or APPEND says about the entity: values for attributes with different keys. -/
structure Revises (E : EntityName) (ctx : Ctx) (ce : ContextElement) : Prop where
  action : UpdateOrAppend (updateAction ctx.action)
  names : E.Names ctx ce
  storable : ∀ ca ∈ ce.contextAttributeVector, Storable ca
  keys : (ce.contextAttributeVector.map ContextAttribute.key).Nodup

/-- The query is answered, or what is sent for it is not about the entity. -/
def ErrorElsewhere (env : Env) (E : EntityName) (enV : List EntityId) (attrL servicePathV : List String) : Prop :=
  (entitiesSelector enV attrL servicePathV).compiles env.engine = true ∨ (errorResponse enV).entityId.id ≠ E.id

/-- A run of the notifying broker. The subscription is looked up and notified by the updates (`updated`), but also on
its creation and by its threads (`sent`): a query that the server refuses shows an error, which is about the entity when
the entity is all that was asked for. Elements about an id that reads as that of the entity are about the entity. -/
inductive Origin (env : Env) (E : EntityName) (attrL : List String) (subId : String) : World → Prop where
  | start {w : World} (entity : docsOf E.id w = [] ∨ ∃ d, docsOf E.id w = [d] ∧ d.key = E.key ∧ WholeArray d.attrs)
      (silent : notifiedOf subId w = []) (attrs : AttrsOf subId attrL w) : Origin env E attrL subId w
  | updated {w : World} (ctx : Ctx) (ces : List ContextElement) (before : Origin env E attrL subId w)
      (revises : ∀ ce ∈ ces, cString ce.entityId.id = E.id → Revises E ctx ce) :
      Origin env E attrL subId (mongoUpdateContext env ctx ces w).2
  | sent {w : World} (tenant : String) (enV : List EntityId) (condValues : Option (List String)) (notifyUrl : String)
      (format : Format) (servicePathV : List String) (before : Origin env E attrL subId w)
      (answered : ErrorElsewhere env E enV attrL servicePathV) :
      Origin env E attrL subId
        (processOnChangeCondition env tenant enV attrL condValues subId notifyUrl format servicePathV w).2
  | other {w w' : World} (before : Origin env E attrL subId w) (entities : w'.entities = w.entities)
      (notified : notifiedOf subId w' = notifiedOf subId w) (attrs : AttrsOf subId attrL w') :
      Origin env E attrL subId w'

/-! ## The log -/

/-- The documents `rs` that the log shows grew one after the other, up to those the broker has. -/
structure Showing (E : EntityName) (attrL : List String) (subId : String) (rs : List EntityDoc) (w : World) : Prop where
  log : ((notifiedOf subId w).flatten.filter fun cer => decide (cer.entityId.id = E.id)) =
    rs.map (contextElementResponseOf attrL false)
  whole : ∀ r ∈ rs, WholeArray r.attrs
  grows : rs.Pairwise DocGrows
  entity : (docsOf E.id w = [] ∧ rs = []) ∨
    ∃ d, docsOf E.id w = [d] ∧ d.key = E.key ∧ WholeArray d.attrs ∧ ∀ r ∈ rs, DocGrows r d
  attrs : AttrsOf subId attrL w

section
variable {env : Env} {ctx : Ctx} {E : EntityName} {attrL : List String} {subId : String} {rs : List EntityDoc} {w w' : World}

theorem notifiedOf_quiet (h : w.Quiet w') : notifiedOf subId w' = notifiedOf subId w := by
  rw [notifiedOf, notifiedOf, h.notified]

theorem Showing.silent (h : Showing E attrL subId rs w) (hd : docsOf E.id w' = docsOf E.id w)
    (hn : notifiedOf subId w' = notifiedOf subId w) (ha : AttrsOf subId attrL w') : Showing E attrL subId rs w' :=
  ⟨by rw [hn]; exact h.log, h.whole, h.grows, by rw [hd]; exact h.entity, ha⟩

theorem Showing.quiet (h : Showing E attrL subId rs w) (hq : w.Quiet w') (hd : docsOf E.id w' = docsOf E.id w) :
    Showing E attrL subId rs w' :=
  h.silent hd (notifiedOf_quiet hq) (by unfold AttrsOf; rw [hq.csubs]; exact h.attrs)

/-- The document grew. -/
theorem Showing.grown (h : Showing E attrL subId rs w) (hq : w.Quiet w') {d d' : EntityDoc} (hd : docsOf E.id w = [d])
    (hd' : docsOf E.id w' = [d']) (hk : d'.key = d.key)
    (hg : WholeArray d.attrs → WholeArray d'.attrs ∧ DocGrows d d') : Showing E attrL subId rs w' := by
  refine ⟨by rw [notifiedOf_quiet hq]; exact h.log, h.whole, h.grows, ?_, by unfold AttrsOf; rw [hq.csubs]; exact h.attrs⟩
  rcases h.entity with ⟨hnone, _⟩ | ⟨x, hx, hkx, hw, hr⟩
  · rw [hnone] at hd
    cases hd
  · obtain rfl : x = d := by
      rw [hx, List.cons.injEq] at hd
      exact hd.1
    obtain ⟨hw', hg'⟩ := hg hw
    exact .inr ⟨d', hd', hk.trans hkx, hw', fun r hr' => (hr r hr').trans hg'⟩

/-- The entity was created: nothing was shown before. -/
theorem Showing.created (h : Showing E attrL subId rs w) (hq : w.Quiet w') {d : EntityDoc} (hnone : docsOf E.id w = [])
    (hd : docsOf E.id w' = [d]) (hk : d.key = E.key) (hw : WholeArray d.attrs) : Showing E attrL subId rs w' := by
  refine ⟨by rw [notifiedOf_quiet hq]; exact h.log, h.whole, h.grows, ?_, by unfold AttrsOf; rw [hq.csubs]; exact h.attrs⟩
  rcases h.entity with ⟨_, rfl⟩ | ⟨x, hx, _⟩
  · exact .inr ⟨d, hd, hk, hw, by simp⟩
  · rw [hnone] at hx
    cases hx

/-! ## One notification -/

theorem entitiesQuery_reads {tenant : String} {enV : List EntityId} {attrL servicePathV : List String} {offset limit : Nat}
    {cerV : List ContextElementResponse}
    (h : entitiesQuery env tenant enV attrL false servicePathV offset limit w = (.ok cerV, w')) :
    cerV = entitiesResponses env w enV attrL false servicePathV offset limit := by
  unfold entitiesQuery at h
  simp only at h
  split at h
  · cases h
  · cases h
    rfl

theorem mem_entitiesFind {enV : List EntityId} {attrL servicePathV : List String} {offset limit : Nat} {d : EntityDoc}
    (h : d ∈ entitiesFind env w enV attrL servicePathV offset limit) : d ∈ w.entities.docs := by
  have h := List.mem_of_mem_drop (List.mem_of_mem_take h)
  rw [List.mem_insertionSort] at h
  exact (Collection.mem_find.1 h).1

/-- What a query shows about the entity are documents of its id. -/
theorem ErrorElsewhere.shown {enV : List EntityId} {attrL servicePathV : List String}
    (h : ErrorElsewhere env E enV attrL servicePathV) (w : World) (offset limit : Nat) :
    ∃ ds : List EntityDoc, (∀ d ∈ ds, d ∈ docsOf E.id w) ∧
      ((entitiesResponses env w enV attrL false servicePathV offset limit).filter fun cer =>
        decide (cer.entityId.id = E.id)) = ds.map (contextElementResponseOf attrL false) := by
  by_cases hc : (entitiesSelector enV attrL servicePathV).compiles env.engine = true
  · refine ⟨(entitiesFind env w enV attrL servicePathV offset limit).filter fun d => decide (cString d.key.id = E.id),
      fun d hd => ?_, ?_⟩
    · obtain ⟨hfound, hid⟩ := List.mem_filter.1 hd
      exact List.mem_filter.2 ⟨mem_entitiesFind hfound, hid⟩
    · rw [entitiesResponses_of_compiles hc, List.filter_map]
      rfl
  · have hother := h.resolve_left hc
    refine ⟨[], by simp, ?_⟩
    rw [entitiesResponses_of_refused hc]
    simp [hother]

/-- Nothing is sent, or a notification of what the query was answered. -/
theorem processOnChangeCondition_reads (env : Env) (tenant : String) (enV : List EntityId) (attrL : List String)
    (condValues : Option (List String)) (subId notifyUrl : String) (format : Format) (servicePathV : List String)
    (w : World) :
    let res := (processOnChangeCondition env tenant enV attrL condValues subId notifyUrl format servicePathV w).2
    World.Same w res ∨ ∃ (w1 : World) (n : Notification), World.Same w w1 ∧ n.subscriptionId = subId ∧
      res = w1.emit (.notify n) ∧ n.contextElementResponseVector = entitiesResponses env w enV attrL false servicePathV
        DEFAULT_PAGINATION_OFFSET_INT DEFAULT_PAGINATION_LIMIT_INT := by
  have h1 := entitiesQuery_same env tenant enV attrL false servicePathV DEFAULT_PAGINATION_OFFSET_INT
    DEFAULT_PAGINATION_LIMIT_INT w
  unfold processOnChangeCondition
  simp only
  split
  · rename_i e1
    rw [e1] at h1
    exact .inl h1
  · rename_i cerV w1 e1
    rw [e1] at h1
    have hread := entitiesQuery_reads e1
    split
    · split
      · exact .inr ⟨w1, _, h1, rfl, rfl, hread⟩
      · have h2 := entitiesQuery_same env tenant enV [] false servicePathV DEFAULT_PAGINATION_OFFSET_INT
          DEFAULT_PAGINATION_LIMIT_INT w1
        split
        · rename_i e2
          rw [e2] at h2
          exact .inl (h1.trans h2)
        · rename_i w2 e2
          rw [e2] at h2
          split
          · exact .inr ⟨w2, _, h1.trans h2, rfl, rfl, hread⟩
          · exact .inl (h1.trans h2)
    · exact .inl h1

theorem notifiedOf_emit (w : World) (n : Notification) : notifiedOf subId (w.emit (.notify n)) =
    notifiedOf subId w ++ if n.subscriptionId = subId then [n.contextElementResponseVector] else [] := by
  have hn : (w.emit (.notify n)).notified = w.notified ++ [n] := by
    unfold World.notified World.emit
    rw [List.filterMap_append]
    rfl
  rw [notifiedOf, notifiedOf, hn, List.filter_append, List.map_append]
  by_cases h : n.subscriptionId = subId <;> simp [h]

/-- What a notification shows about the entity is the one document there is. -/
theorem Showing.emitted (h : Showing E attrL subId rs w) {n : Notification} {ds : List EntityDoc} {attrL' : List String}
    (hds : ∀ d ∈ ds, d ∈ docsOf E.id w)
    (hn : (n.contextElementResponseVector.filter fun cer => decide (cer.entityId.id = E.id)) =
      ds.map (contextElementResponseOf attrL' false))
    (ha : n.subscriptionId = subId → attrL' = attrL) : ∃ rs', Showing E attrL subId rs' (w.emit (.notify n)) := by
  by_cases hs : n.subscriptionId = subId
  · obtain rfl := ha hs
    have hlog : ((notifiedOf subId (w.emit (.notify n))).flatten.filter fun cer => decide (cer.entityId.id = E.id)) =
        (rs ++ ds).map (contextElementResponseOf attrL' false) := by
      rw [notifiedOf_emit, if_pos hs, List.flatten_append, List.filter_append, h.log, List.flatten_singleton, hn,
        List.map_append]
    rcases h.entity with ⟨hnone, rfl⟩ | ⟨d, hd, hk, hw, hr⟩
    · have hempty : ds = [] := by
        refine List.eq_nil_iff_forall_not_mem.2 fun d hd => ?_
        rw [hnone] at hds
        cases hds d hd
      rw [hempty] at hlog
      exact ⟨[], hlog, by simp, .nil, .inl ⟨hnone, rfl⟩, h.attrs⟩
    · rw [hd] at hds
      have hsame : ∀ x ∈ ds, x = d := fun x hx => List.mem_singleton.1 (hds x hx)
      refine ⟨_, hlog, ?_, ?_, .inr ⟨d, hd, hk, hw, ?_⟩, h.attrs⟩
      · intro r hr'
        rcases List.mem_append.1 hr' with hr' | hr'
        · exact h.whole r hr'
        · exact hsame r hr' ▸ hw
      · rw [List.pairwise_append]
        refine ⟨h.grows, List.pairwise_of_forall_mem_list fun x hx y hy => ?_, fun x hx y hy => ?_⟩
        · rw [hsame x hx, hsame y hy]
          exact .refl d
        · rw [hsame y hy]
          exact hr x hx
      · intro r hr'
        rcases List.mem_append.1 hr' with hr' | hr'
        · exact hr r hr'
        · exact hsame r hr' ▸ .refl d
  · refine ⟨rs, h.silent rfl ?_ h.attrs⟩
    rw [notifiedOf_emit, if_neg hs, List.append_nil]

theorem Showing.same (h : Showing E attrL subId rs w) (hs : World.Same w w') : Showing E attrL subId rs w' :=
  h.quiet hs.quiet (docsOf_entities hs.entities)

theorem Showing.onChange (h : Showing E attrL subId rs w) {tenant : String} {enV : List EntityId} {attrL' : List String}
    {condValues : Option (List String)} {subId' notifyUrl : String} {format : Format} {servicePathV : List String}
    (hans : ErrorElsewhere env E enV attrL' servicePathV) (ha : subId' = subId → attrL' = attrL) :
    ∃ rs', Showing E attrL subId rs'
      (processOnChangeCondition env tenant enV attrL' condValues subId' notifyUrl format servicePathV w).2 := by
  rcases processOnChangeCondition_reads env tenant enV attrL' condValues subId' notifyUrl format servicePathV w with
    hs | ⟨w1, n, hs, hid, he, hn⟩
  · exact ⟨rs, h.same hs⟩
  · obtain ⟨ds, hds, hshown⟩ := hans.shown w DEFAULT_PAGINATION_OFFSET_INT DEFAULT_PAGINATION_LIMIT_INT
    rw [he]
    refine (h.same hs).emitted (fun d hd => ?_) (by rw [hn]; exact hshown) fun hsub => ha (hid.symm.trans hsub)
    rw [docsOf_entities hs.entities]
    exact hds d hd

/-- One iteration of the loop over the subscriptions, on the entry of a stored one. -/
theorem Showing.iteration (h : Showing E attrL subId rs w) {en : EntityId} {sub : String × TriggeredSubscription}
    (hans : ∀ attrL, ErrorElsewhere env E [en] attrL ctx.servicePathV) (hf : Fresh sub w) :
    ∃ rs', Showing E attrL subId rs' (processSubscription env ctx en sub w).2 := by
  obtain ⟨s, hs, rfl⟩ := hf
  obtain ⟨rs', h'⟩ := @Showing.onChange env E attrL subId rs w h ctx.tenant [en] s.attrs none s.oid
    (triggeredSubscription s).reference (triggeredSubscription s).format ctx.servicePathV (hans _) (h.attrs s hs)
  unfold processSubscription
  simp only
  split
  · exact ⟨rs, h⟩
  · split
    · rename_i e
      rw [show (triggeredSubscription s).attrL = s.attrs from rfl] at e
      rw [e] at h'
      exact ⟨rs', h'⟩
    · rename_i w1 e
      rw [show (triggeredSubscription s).attrL = s.attrs from rfl] at e
      rw [e] at h'
      have hcall := h'.same w1.call_same
      split
      · exact ⟨rs', hcall⟩
      · refine ⟨rs', hcall.silent rfl rfl ?_⟩
        intro x hx hxid
        rcases (mem_updateCsub (f := bumpCount ctx.now) fun _ => rfl).1 hx with ⟨hx, _⟩ | ⟨d, hd, _, rfl⟩
        · exact hcall.attrs x hx hxid
        · exact hcall.attrs d hd hxid

theorem Showing.subscriptions (h : Showing E attrL subId rs w) {en : EntityId} {subs : SubsMap}
    (hans : ∀ attrL, ErrorElsewhere env E [notifiedEntity en] attrL ctx.servicePathV) (hf : FreshMap subs w) :
    ∃ rs', Showing E attrL subId rs' (processSubscriptions env ctx en subs w).2 :=
  @subscriptions_induct env ctx (fun w => ∃ rs, Showing E attrL subId rs w) en subs w hf
    (fun c hc hf h => by
      obtain ⟨rs, h⟩ := h
      rw [subscriptionsCalls_en en subs w c hc]
      exact h.iteration hans hf) ⟨rs, h⟩

/-! ## One element -/

/-- The notification of an element is answered: the paths are those of the entity, or the element names another one. -/
theorem answered_notified {en : EntityId} (hp : isTrue en.isPattern = false)
    (hs : cString en.id = E.id → ctx.servicePathV = E.servicePathV) (attrL : List String) :
    ErrorElsewhere env E [notifiedEntity en] attrL ctx.servicePathV := by
  by_cases hid : en.id = E.id
  · refine .inl (entitiesSelector_compiles_iff.2 ⟨by simp, fun e he ht => ?_, ?_⟩)
    · rw [List.mem_singleton.1 he] at ht
      have ht : en.isPattern = "true" := ht
      rw [ht] at hp
      cases hp
    · rw [hs (by rw [hid, E.cString_id])]
      exact fillQueryServicePath_compiles _ E.canonical
  · exact .inr hid

/-- What an element means for the entity: nothing, or it revises the only document. -/
theorem Showing.document (h : Showing E attrL subId rs w) {ce : ContextElement} {r : EntityDoc}
    (hans : ∀ attrL, ErrorElsewhere env E [notifiedEntity ce.entityId] attrL ctx.servicePathV)
    (hr : cString r.key.id = E.id → Revises E ctx ce ∧ docsOf E.id w = [r]) :
    ∃ rs', Showing E attrL subId rs' (processDocument env ctx ce r w).2.2 := by
  have hv := processContextAttributeVector_same env ctx (documentEntity r.key) ce.contextAttributeVector
    (startWork r) w
  unfold processDocument
  simp only
  split
  · rename_i hdel
    have hid : cString r.key.id ≠ E.id := by
      intro hid
      rcases (hr hid).1.action with ha | ha <;> rw [hdel.1] at ha <;> cases ha
    refine ⟨rs, h.quiet (removeEntity_quiet env ctx r.key w) ?_⟩
    have hdocs := @processDocument_docsOf_other env ctx E.id ce r w hid
    unfold processDocument at hdocs
    rwa [if_pos hdel] at hdocs
  · split
    · exact ⟨rs, h.same hv⟩
    · rename_i work hw
      split
      · exact ⟨rs, h.same hv⟩
      · have hq := updateEntity_quiet env ctx r.key work (vectorOn env ctx ce r w).world
        rcases updateEntity_cases env ctx r.key work (vectorOn env ctx ce r w).world with
          ⟨err, w1, e, hs⟩ | ⟨w1, pick, e, he, _⟩
        · rw [e]
          exact ⟨rs, h.same (hv.trans hs)⟩
        · rw [e] at hq ⊢
          obtain ⟨names, _, hsubs⟩ := processContextAttributeVector_run hw
          have hfresh : FreshMap work.subs w := by
            rw [hsubs]
            exact FreshMap.collect names (FreshMap.nil w)
          have hquiet := hv.quiet.trans hq
          have h1 : Showing E attrL subId rs w1 := by
            rw [hv.entities] at he
            by_cases hid : cString r.key.id = E.id
            · obtain ⟨hrev, hd⟩ := hr hid
              rcases @filter_updateOne_only E.id w.entities (env.selects (writeSelector ctx r.key)) pick
                (applyWork ctx.now work) (fun _ => rfl) r hd (fun x hx => (selects_write_id hx).trans hid) with hsame | hnew
              · exact h.quiet hquiet (by unfold docsOf; rw [he, hsame]; exact hd.symm)
              · have hd' : docsOf E.id w1 = [applyWork ctx.now work r] := by
                  unfold docsOf
                  rw [he, hnew]
                have hrevised : Revised env r (applyWork ctx.now work r) :=
                  ⟨ctx, ce, w, work, hrev.action, hrev.storable, hw, rfl⟩
                exact h.grown hquiet hd hd' rfl hrevised.grows
            · refine h.quiet hquiet ?_
              unfold docsOf
              rw [he]
              exact filter_updateOne_other fun d hd => by rw [selects_write_id hd]; exact hid
          exact h1.subscriptions hans (hfresh.csubs hquiet.csubs)

theorem Showing.documents {ce : ContextElement}
    (hans : ∀ attrL, ErrorElsewhere env E [notifiedEntity ce.entityId] attrL ctx.servicePathV) :
    ∀ {ds : List EntityDoc} {rs : List EntityDoc} {w : World},
    Showing E attrL subId rs w → (∀ r ∈ ds, cString r.key.id ≠ E.id) →
    ∃ rs', Showing E attrL subId rs' (processDocuments env ctx ce ds w).2.2
  | [], rs, _, h, _ => ⟨rs, h⟩
  | r :: ds, _, w, h, hds => by
    rw [List.forall_mem_cons] at hds
    obtain ⟨rs1, h1⟩ := @Showing.document env ctx E attrL subId _ w h ce r hans fun hid => absurd hid hds.1
    rw [processDocuments_cons_world]
    exact h1.documents hans hds.2

theorem Showing.creation (h : Showing E attrL subId rs w) {ce : ContextElement}
    (hans : ∀ attrL, ErrorElsewhere env E [notifiedEntity ce.entityId] attrL ctx.servicePathV)
    (hr : cString ce.entityId.id = E.id → Revises E ctx ce ∧ docsOf E.id w = []) :
    ∃ rs', Showing E attrL subId rs' (createdResponse env ctx ce w).2 := by
  have hq := createEntity_quiet env ctx ce.entityId ce.contextAttributeVector w
  have hs := createEntity_step env ctx ce.entityId ce.contextAttributeVector w
  unfold createdResponse
  simp only
  split
  · rename_i w1 e
    rw [e] at hq hs
    cases hs with
    | escaped hs => exact ⟨rs, h.same hs⟩
  · rename_i w1 e
    rw [e] at hq hs
    cases hs with
    | failed _ hs => exact ⟨rs, h.same hs⟩
  · rename_i w1 e
    rw [e] at hq hs
    have h1 : Showing E attrL subId rs w1 := by
      cases hs with
      | created loc _ hloc hi _ =>
        have hdocs : docsOf E.id w1 = docsOf E.id w ++
            [createdDoc ctx ce.entityId ce.contextAttributeVector loc].filter fun d => decide (cString d.key.id = E.id) := by
          unfold docsOf
          rw [Collection.docs_insert hi, List.filter_append]
        have hkey : (createdDoc ctx ce.entityId ce.contextAttributeVector loc).key.id = ce.entityId.id := rfl
        by_cases hid : cString ce.entityId.id = E.id
        · obtain ⟨hrev, hnone⟩ := hr hid
          refine h.created hq hnone ?_ hrev.names.createdKey (@createdDoc_whole ctx ce.entityId _ loc hrev.storable hrev.keys)
          rw [hdocs, hnone, List.filter_singleton, hkey, hid]
          simp
        · refine h.quiet hq ?_
          rw [hdocs, List.filter_singleton, hkey]
          simp [hid]
    have ht := createdTriggers_same env ctx ce.entityId ce.contextAttributeVector [] w1
    split
    · rename_i e1
      rw [e1] at ht
      exact ⟨rs, h1.same ht⟩
    · rename_i subs w2 e1
      rw [e1] at ht
      exact (h1.same ht).subscriptions hans (createdTriggers_fresh (FreshMap.nil w1) e1)

theorem Showing.element (h : Showing E attrL subId rs w) {ce : ContextElement}
    (hr : cString ce.entityId.id = E.id → Revises E ctx ce) :
    ∃ rs', Showing E attrL subId rs' (processContextElement env ctx ce w).2 := by
  have hc := h.same w.call_same
  unfold processContextElement
  simp only
  split
  · exact ⟨rs, h⟩
  · rename_i hpat
    have hans := @answered_notified env ctx E ce.entityId (by simpa using hpat) fun hid => (hr hid).names.servicePathV
    have hd : ∃ rs', Showing E attrL subId rs'
        (processDocuments env ctx ce (foundDocuments env ctx ce w) w.call.2).2.2 := by
      by_cases hid : cString ce.entityId.id = E.id
      · rcases hc.entity with ⟨hnone, _⟩ | ⟨d, hd, hk, _⟩
        · have hfound : foundDocuments env ctx ce w = [] := by
            rw [foundDocuments_docsOf, hid, ← docsOf_entities w.call_same.entities, hnone]
            rfl
          rw [hfound]
          exact ⟨rs, hc⟩
        · rw [(hr hid).names.found ((docsOf_entities w.call_same.entities).symm.trans hd) hk, processDocuments_cons_world]
          exact hc.document hans fun _ => ⟨hr hid, hd⟩
      · exact hc.documents hans fun r hr => by rw [foundDocuments_id r hr]; exact hid
    have hcr : updateAction ctx.action = .append → foundDocuments env ctx ce w = [] →
        ∃ rs', Showing E attrL subId rs'
          (createdResponse env ctx ce (processDocuments env ctx ce (foundDocuments env ctx ce w) w.call.2).2.2).2 := by
      intro _ hnone
      rw [hnone]
      refine hc.creation hans fun hid => ⟨hr hid, ?_⟩
      rcases hc.entity with ⟨he, _⟩ | ⟨d, hd, hk, _⟩
      · exact he
      · rw [(hr hid).names.found ((docsOf_entities w.call_same.entities).symm.trans hd) hk] at hnone
        cases hnone
    split
    · exact ⟨rs, h⟩
    · split
      · exact ⟨rs, hc⟩
      · split
        · rename_i hn
          split
          · exact hd
          · rename_i hap
            have hap : updateAction ctx.action = .append := by simpa using hap
            have hcr := hcr hap (processDocuments_none hap hn)
            split
            · rename_i e
              rw [e] at hcr
              exact hcr
            · rename_i e
              rw [e] at hcr
              exact hcr
        · exact hd

theorem Showing.elements : ∀ {ces : List ContextElement} {rs : List EntityDoc} {w : World}, Showing E attrL subId rs w →
    (∀ ce ∈ ces, cString ce.entityId.id = E.id → Revises E ctx ce) →
    ∃ rs', Showing E attrL subId rs' (processContextElements env ctx ces w).2
  | [], rs, _, h, _ => ⟨rs, h⟩
  | ce :: ces, _, w, h, hr => by
    rw [List.forall_mem_cons] at hr
    obtain ⟨rs1, h1⟩ := @Showing.element env ctx E attrL subId _ w h ce hr.1
    unfold processContextElements
    split
    · rename_i e
      rw [e] at h1
      exact ⟨rs1, h1⟩
    · rename_i e
      rw [e] at h1
      have ih := h1.elements hr.2
      split
      · rename_i e1
        rw [e1] at ih
        exact ih
      · rename_i e1
        rw [e1] at ih
        exact ih

theorem Showing.update (h : Showing E attrL subId rs w) {ces : List ContextElement}
    (hr : ∀ ce ∈ ces, cString ce.entityId.id = E.id → Revises E ctx ce) :
    ∃ rs', Showing E attrL subId rs' (mongoUpdateContext env ctx ces w).2 := by
  have hall := @Showing.elements env ctx E attrL subId ces rs w h hr
  unfold mongoUpdateContext
  split
  · exact ⟨rs, h⟩
  · split
    · rename_i e
      rw [e] at hall
      exact hall
    · rename_i e
      rw [e] at hall
      exact hall

/-- **Along a run of the notifying broker** the documents of the log grow. -/
theorem Origin.showing (h : Origin env E attrL subId w) : ∃ rs, Showing E attrL subId rs w := by
  induction h with
  | start hent hsilent hattrs =>
    refine ⟨[], by rw [hsilent]; rfl, by simp, .nil, ?_, hattrs⟩
    rcases hent with h | ⟨d, hd, hk, hw⟩
    · exact .inl ⟨h, rfl⟩
    · exact .inr ⟨d, hd, hk, hw, by simp⟩
  | updated ctx ces _ hr ih =>
    obtain ⟨rs, h⟩ := ih
    exact h.update hr
  | sent tenant enV condValues notifyUrl format servicePathV _ hans ih =>
    obtain ⟨rs, h⟩ := ih
    exact h.onChange hans fun _ => rfl
  | other _ he hn ha ih =>
    obtain ⟨rs, h⟩ := ih
    exact ⟨rs, h.silent (docsOf_entities he) hn ha⟩

end

/-! ## The two brokers -/

/-- **What the second broker has, one notification showed.** Whatever the two brokers did, in whatever order, and
whichever notifications were lost: the second one has nothing under the id, or one document, and a query for it gets
exactly the attributes that one of the notifications it took had. -/
theorem replica_shows_notified {env env' : Env} {E : EntityName} {attrL : List String} {subId : String}
    {wA wB : World} {ns : List (List ContextElementResponse)} (hA : Origin env E attrL subId wA)
    (hB : Replica env' E ns wB) (hsub : ns.Sublist (notifiedOf subId wA)) :
    docsOf E.id wB = [] ∨
    ∃ b, docsOf E.id wB = [b] ∧ b.key = E.key ∧ ∃ cer ∈ ns.flatten, cer.entityId.id = E.id ∧
      ∀ includeEmpty, (contextElementResponseOf [] includeEmpty b).contextAttributeVector = cer.contextAttributeVector := by
  obtain ⟨rs, hshow⟩ := hA.showing
  -- what was taken are some of the documents of the log
  have hlog := (hsub.flatten.filter fun cer => decide (cer.entityId.id = E.id))
  rw [hshow.log, List.sublist_map_iff] at hlog
  obtain ⟨rs', hrs', hmap⟩ := hlog
  have hcopy := hB.copies hmap (fun r hr => hshow.whole r (hrs'.subset hr)) (hshow.grows.sublist hrs')
  rcases hcopy with hnone | ⟨b, hb, hk, r, hr, hc⟩
  · exact .inl hnone
  · have hw := hshow.whole r (hrs'.subset hr)
    have hmem : contextElementResponseOf attrL false r ∈
        ns.flatten.filter fun cer => decide (cer.entityId.id = E.id) := by
      rw [hmap]
      exact List.mem_map_of_mem hr
    rw [List.mem_filter, decide_eq_true_iff] at hmem
    refine .inr ⟨b, hb, hk, _, hmem.1, hmem.2, fun includeEmpty => ?_⟩
    rw [hc.answers hw, contextAttributeVector_shown hw, contextAttributeVector_shown hw]

/-- `Room1`, whose temperature is created and updated; each time the subscription is notified. -/
def roomName : EntityName where
  id := "Room1"
  type := "Room"
  nonempty := by decide
  canonical := by simp
  noNul := by decide

def roomWith (temperature : String) : ContextElement where
  entityId := { id := "Room1", type := "Room" }
  contextAttributeVector := [{ name := "temperature", type := "float", value := temperature }]

def roomTold (w : World) : World :=
  (processOnChangeCondition (Env.plain fun _ _ => false) "" [{ id := "Room1", type := "Room" }] ["temperature"] none "sub"
    "http://localhost:1028/accumulate" .json [] w).2

def roomOrigin : World :=
  roomTold (mongoUpdateContext (Env.plain fun _ _ => false) { action := "UPDATE" } [roomWith "24"]
    (roomTold (mongoUpdateContext (Env.plain fun _ _ => false) { action := "APPEND" } [roomWith "23"] {}).2)).2

/-- The second broker takes what it is told. -/
def takeAll (env : Env) (E : EntityName) (ns : List (List ContextElementResponse)) (w : World) : World :=
  ns.foldl (fun w cerV => (mongoNotifyContext env cerV "" E.servicePathV 0 w).2) w

theorem Replica.takeAll {env : Env} {E : EntityName} : ∀ {ns' ns : List (List ContextElementResponse)} {w : World},
    Replica env E ns w → (∀ cerV ∈ ns', ∀ cer ∈ cerV, cString cer.entityId.id = E.id →
      cer.entityId.id = E.id ∧ cer.entityId.type = E.type) →
    Replica env E (ns ++ ns') (takeAll env E ns' w)
  | [], ns, w, h, _ => by
    rw [List.append_nil]
    exact h
  | cerV :: ns', ns, w, h, hn => by
    rw [List.forall_mem_cons] at hn
    have h1 := Replica.notified cerV "" E.servicePathV 0 h fun cer hc hid =>
      ⟨(hn.1 cer hc hid).1, (hn.1 cer hc hid).2, rfl⟩
    have ih := h1.takeAll hn.2
    rw [List.append_assoc] at ih
    exact ih

theorem roomWith_revises (action temperature : String) (ha : UpdateOrAppend (updateAction action))
    (ht : temperature ≠ "" ∧ NoNul temperature) :
    ∀ ce ∈ [roomWith temperature], cString ce.entityId.id = roomName.id → Revises roomName { action := action } ce := by
  intro ce hce _
  rw [List.mem_singleton.1 hce]
  refine ⟨ha, ⟨rfl, rfl, rfl, rfl⟩, ?_, by simp [roomWith]⟩
  intro ca hca
  rw [List.mem_singleton.1 hca]
  exact ⟨by simp, by simpa [ContextAttribute.hasContent] using ht.1,
    { key := ⟨show NoNul "temperature" by decide, noNul_empty⟩, type := show NoNul "float" by decide,
      md := by simp, value := fun _ => ht.2 }⟩

theorem roomOrigin_run : Origin (Env.plain fun _ _ => false) roomName ["temperature"] "sub" roomOrigin := by
  have hstart : Origin (Env.plain fun _ _ => false) roomName ["temperature"] "sub" {} :=
    .start (.inl rfl) rfl (by intro s hs; cases hs)
  have hcreated := hstart.updated { action := "APPEND" } [roomWith "23"]
    (roomWith_revises "APPEND" "23" (.inr (by decide)) (by decide))
  have hanswered : ErrorElsewhere (Env.plain fun _ _ => false) roomName [{ id := "Room1", type := "Room" }]
      ["temperature"] [] := .inl (by decide)
  have htold := hcreated.sent "" [{ id := "Room1", type := "Room" }] none "http://localhost:1028/accumulate" .json []
    hanswered
  have hupdated := htold.updated { action := "UPDATE" } [roomWith "24"]
    (roomWith_revises "UPDATE" "24" (.inl (by decide)) (by decide))
  exact hupdated.sent "" [{ id := "Room1", type := "Room" }] none "http://localhost:1028/accumulate" .json []
    hanswered

theorem roomCopy_shows :
    ∃ b, docsOf "Room1" (takeAll (Env.plain fun _ _ => false) roomName (notifiedOf "sub" roomOrigin) {}) = [b] ∧
      b.attrs.map AttrDoc.value = [some (.str "24")] ∧ b.key = roomName.key ∧
      ∃ cer ∈ (notifiedOf "sub" roomOrigin).flatten, cer.entityId.id = "Room1" ∧
        ∀ includeEmpty, (contextElementResponseOf [] includeEmpty b).contextAttributeVector = cer.contextAttributeVector := by
  have hnames : ∀ cerV ∈ notifiedOf "sub" roomOrigin, ∀ cer ∈ cerV, cString cer.entityId.id = roomName.id →
      cer.entityId.id = roomName.id ∧ cer.entityId.type = roomName.type := by decide +kernel
  have hrun := @Replica.takeAll (Env.plain fun _ _ => false) roomName (notifiedOf "sub" roomOrigin) [] {} (.start rfl) hnames
  have hvalues : (docsOf "Room1" (takeAll (Env.plain fun _ _ => false) roomName (notifiedOf "sub" roomOrigin) {})).map
      (fun b => b.attrs.map AttrDoc.value) = [[some (.str "24")]] := by decide +kernel
  rcases replica_shows_notified roomOrigin_run hrun (List.Sublist.refl _) with hnone | ⟨b, hb, hk, hshow⟩
  · rw [show roomName.id = "Room1" from rfl] at hnone
    rw [hnone] at hvalues
    cases hvalues
  · rw [show roomName.id = "Room1" from rfl] at hb
    rw [hb] at hvalues
    exact ⟨b, hb, List.cons.inj hvalues |>.1, hk, hshow⟩

end OrionBroker
