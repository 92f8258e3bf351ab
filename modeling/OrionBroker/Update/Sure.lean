import OrionBroker.Update.Calls

/-!
# When every database call succeeds

With no outcome left that is a failure, no call of an update fails, and none of what comes after it:
`mongoUpdateContext_sure` for the request, `updateCalls_sure` for the iterations of `processSubscriptions`.
-/

namespace OrionBroker

open Mongo

section
variable (env : Env) (ctx : Ctx) {w : World} (h : w.Sure)
include h

theorem entitiesQuery_sure (tenant : String) (enV : List EntityId) (attrL : List String) (includeEmpty : Bool)
    (servicePath : List String) (offset limit : Nat) :
    entitiesQuery env tenant enV attrL includeEmpty servicePath offset limit w =
      (.ok (entitiesResponses env w enV attrL includeEmpty servicePath offset limit), w) := by
  unfold entitiesQuery
  rw [h.call]
  rfl

theorem processOnChangeCondition_sure (tenant : String) (enV : List EntityId) (attrL : List String)
    (condValues : Option (List String)) (subId notifyUrl : String) (format : Format) (servicePathV : List String) :
    (processOnChangeCondition env tenant enV attrL condValues subId notifyUrl format servicePathV w).2.Sure := by
  unfold processOnChangeCondition
  rw [entitiesQuery_sure env h]
  dsimp only
  split
  · split
    · exact h
    · rw [entitiesQuery_sure env h]
      dsimp only
      split
      · exact h
      · exact h
  · exact h

theorem processSubscription_sure (en : EntityId) (sub : String × TriggeredSubscription) :
    (processSubscription env ctx en sub w).2.Sure := by
  have hn := processOnChangeCondition_sure env h ctx.tenant [en] sub.2.attrL none sub.1 sub.2.reference
    sub.2.format ctx.servicePathV
  unfold processSubscription
  dsimp only
  split
  · exact h
  · split
    · rename_i e
      rw [e] at hn
      exact hn
    · rename_i w1 e
      rw [e] at hn
      have hn : w1.Sure := hn
      rw [hn.call]
      exact hn

theorem addTriggeredSubscriptions_sure (entityId entityType attr : String) (subs : SubsMap) :
    addTriggeredSubscriptions env ctx entityId entityType attr subs w =
      (.ok (subs.addAll (triggeredFind env ctx entityId entityType attr w)), w) := by
  unfold addTriggeredSubscriptions
  rw [h.call]
  rfl

theorem processContextAttribute_sure (eP : EntityId) (ca : ContextAttribute) (work : Work) :
    (processContextAttribute env ctx eP ca work w).2.Sure := by
  unfold processContextAttribute
  split
  · exact h
  · split
    · rw [addTriggeredSubscriptions_sure env ctx h]
      exact h
    · exact h

theorem removeEntity_sure (key : EntityKey) : (removeEntity env ctx key w).2.Sure := by
  unfold removeEntity
  rw [h.call]
  exact h

theorem updateEntity_sure (key : EntityKey) (work : Work) : (updateEntity env ctx key work w).2.Sure := by
  unfold updateEntity
  rw [h.call]
  exact h.pick

theorem createEntity_sure (en : EntityId) (attrsV : List ContextAttribute) : (createEntity env ctx en attrsV w).2.Sure := by
  have hi : ensureLocationIndex env w = (true, w) := by
    unfold ensureLocationIndex
    rw [h.call]
    split <;> rfl
  unfold createEntity
  rw [hi]
  dsimp only
  split
  · exact h
  · split
    · exact h
    · unfold insertEntity
      rw [h.call]
      dsimp only [Outcome.writeError]
      split <;> exact h

end

section
variable (env : Env) (ctx : Ctx)

theorem processSubscriptions_sure (en : EntityId) : ∀ (subs : SubsMap) {w : World}, w.Sure →
    (processSubscriptions env ctx en subs w).2.Sure
  | [], _, h => h
  | sub :: subs, _, h => processSubscriptions_sure en subs (processSubscription_sure env ctx h (notifiedEntity en) sub)

theorem processContextAttributeVector_sure (eP : EntityId) : ∀ (caV : List ContextAttribute) (work : Work) {w : World},
    w.Sure → (processContextAttributeVector env ctx eP caV work w).world.Sure
  | [], _, _, h => h
  | ca :: caV, work, w, h => by
    have hone := processContextAttribute_sure env ctx h eP ca work
    unfold processContextAttributeVector
    split
    · rename_i e
      rw [e] at hone
      exact hone
    · rename_i work1 w1 e
      rw [e] at hone
      exact processContextAttributeVector_sure eP caV work1 hone

theorem createdTriggers_sure (en : EntityId) : ∀ (caV : List ContextAttribute) (subs : SubsMap) {w : World}, w.Sure →
    (createdTriggers env ctx en caV subs w).2.Sure
  | [], _, _, h => h
  | ca :: caV, subs, w, h => by
    unfold createdTriggers
    rw [addTriggeredSubscriptions_sure env ctx h]
    exact createdTriggers_sure en caV _ h

theorem processDocument_sure (ce : ContextElement) (r : EntityDoc) {w : World} (h : w.Sure) :
    (processDocument env ctx ce r w).2.2.Sure := by
  have hv := processContextAttributeVector_sure env ctx (documentEntity r.key)
    ce.contextAttributeVector (startWork r) h
  unfold processDocument
  dsimp only
  split
  · exact removeEntity_sure env ctx h r.key
  · split
    · exact hv
    · rename_i work _
      split
      · exact hv
      · have hu := updateEntity_sure env ctx hv r.key work
        split
        · rename_i e
          rw [e] at hu
          exact hu
        · rename_i e
          rw [e] at hu
          exact processSubscriptions_sure env ctx ce.entityId work.subs hu

theorem processDocuments_sure (ce : ContextElement) (rs : List EntityDoc) {w : World} (h : w.Sure) :
    (processDocuments env ctx ce rs w).2.2.Sure := by
  induction rs generalizing w with
  | nil => exact h
  | cons r rs ih =>
    rw [processDocuments_cons_world]
    exact ih (processDocument_sure env ctx ce r h)

theorem createdResponse_sure (ce : ContextElement) {w : World} (h : w.Sure) :
    (createdResponse env ctx ce w).2.Sure := by
  have hc := createEntity_sure env ctx h ce.entityId ce.contextAttributeVector
  unfold createdResponse
  dsimp only
  split
  · rename_i e
    rw [e] at hc
    exact hc
  · rename_i e
    rw [e] at hc
    exact hc
  · rename_i w1 e
    rw [e] at hc
    have ht := createdTriggers_sure env ctx ce.entityId ce.contextAttributeVector [] hc
    split
    · rename_i e1
      rw [e1] at ht
      exact ht
    · rename_i subs w2 e1
      rw [e1] at ht
      exact processSubscriptions_sure env ctx ce.entityId subs ht

theorem processContextElement_sure (ce : ContextElement) {w : World} (h : w.Sure) :
    (processContextElement env ctx ce w).2.Sure := by
  unfold processContextElement
  split
  · exact h
  · split
    · exact h
    · rw [h.call]
      have hd := processDocuments_sure env ctx ce (foundDocuments env ctx ce w) h
      dsimp only [Outcome.queryError]
      split
      · split
        · exact hd
        · have hc := createdResponse_sure env ctx ce hd
          split
          · rename_i e
            rw [e] at hc
            exact hc
          · rename_i e
            rw [e] at hc
            exact hc
      · exact hd

/-- The world after a request. -/
theorem mongoUpdateContext_sure (ces : List ContextElement) {w : World} (h : w.Sure) :
    (mongoUpdateContext env ctx ces w).2.Sure := by
  have hall : ∀ (ces : List ContextElement) {w : World}, w.Sure → (processContextElements env ctx ces w).2.Sure := by
    intro ces
    induction ces with
    | nil => exact fun h => h
    | cons ce ces ih =>
      intro w h
      have hone := processContextElement_sure env ctx ce h
      unfold processContextElements
      split
      · rename_i e
        rw [e] at hone
        exact hone
      · rename_i w1 e
        rw [e] at hone
        have hrest := ih hone
        split
        · rename_i e1
          rw [e1] at hrest
          exact hrest
        · rename_i e1
          rw [e1] at hrest
          exact hrest
  unfold mongoUpdateContext
  split
  · exact h
  · have hr := hall ces h
    split
    · rename_i e
      rw [e] at hr
      exact hr
    · rename_i e
      rw [e] at hr
      exact hr

/-! ## The iterations -/

theorem subscriptionsCalls_sure (en : EntityId) : ∀ (subs : SubsMap) {w : World}, w.Sure →
    ∀ c ∈ subscriptionsCalls env ctx en subs w, c.world.Sure
  | [], _, _, _, hc => by cases hc
  | sub :: subs, w, h, c, hc => by
    rcases List.mem_cons.1 hc with rfl | hc
    · exact h
    · exact subscriptionsCalls_sure en subs (processSubscription_sure env ctx h (notifiedEntity en) sub) c hc

theorem documentCalls_sure (ce : ContextElement) (r : EntityDoc) {w : World} (h : w.Sure) :
    ∀ c ∈ documentCalls env ctx ce r w, c.world.Sure := by
  have hv : (vectorOn env ctx ce r w).world.Sure :=
    processContextAttributeVector_sure env ctx (documentEntity r.key) ce.contextAttributeVector (startWork r) h
  intro c hc
  unfold documentCalls at hc
  dsimp only at hc
  split at hc
  · cases hc
  · split at hc
    · cases hc
    · rename_i work _
      split at hc
      · cases hc
      · have hu := updateEntity_sure env ctx hv r.key work
        split at hc
        · cases hc
        · rename_i e
          rw [e] at hu
          exact subscriptionsCalls_sure env ctx ce.entityId work.subs hu c hc

theorem documentsCalls_sure (ce : ContextElement) : ∀ (rs : List EntityDoc) {w : World}, w.Sure →
    ∀ c ∈ documentsCalls env ctx ce rs w, c.world.Sure
  | [], _, _, _, hc => by cases hc
  | r :: rs, w, h, c, hc => by
    rcases List.mem_append.1 hc with hc | hc
    · exact documentCalls_sure env ctx ce r h c hc
    · exact documentsCalls_sure ce rs (processDocument_sure env ctx ce r h) c hc

theorem createdCalls_sure (ce : ContextElement) {w : World} (h : w.Sure) :
    ∀ c ∈ createdCalls env ctx ce w, c.world.Sure := by
  have hcr := createEntity_sure env ctx h ce.entityId ce.contextAttributeVector
  intro c hc
  unfold createdCalls at hc
  split at hc
  · cases hc
  · cases hc
  · rename_i w1 e
    rw [e] at hcr
    have ht := createdTriggers_sure env ctx ce.entityId ce.contextAttributeVector [] hcr
    split at hc
    · cases hc
    · rename_i subs w2 e1
      rw [e1] at ht
      exact subscriptionsCalls_sure env ctx ce.entityId subs ht c hc

theorem elementCalls_sure (ce : ContextElement) {w : World} (h : w.Sure) :
    ∀ c ∈ elementCalls env ctx ce w, c.world.Sure := by
  intro c hc
  unfold elementCalls at hc
  split at hc
  · cases hc
  · split at hc
    · cases hc
    · rw [h.call] at hc
      dsimp only [Outcome.queryError] at hc
      rcases List.mem_append.1 hc with hc | hc
      · exact documentsCalls_sure env ctx ce _ h c hc
      · split at hc
        · exact createdCalls_sure env ctx ce (processDocuments_sure env ctx ce _ h) c hc
        · cases hc

theorem elementsCalls_sure : ∀ (ces : List ContextElement) {w : World}, w.Sure →
    ∀ c ∈ elementsCalls env ctx ces w, c.world.Sure
  | [], _, _, _, hc => by cases hc
  | ce :: ces, w, h, c, hc => by
    have hone := processContextElement_sure env ctx ce h
    rcases List.mem_append.1 hc with hc | hc
    · exact elementCalls_sure env ctx ce h c hc
    · split at hc
      · cases hc
      · rename_i w1 e
        rw [e] at hone
        exact elementsCalls_sure ces hone c hc

/-- The world every iteration starts in. -/
theorem updateCalls_sure (ces : List ContextElement) {w : World} (h : w.Sure) :
    ∀ c ∈ updateCalls env ctx ces w, c.world.Sure := by
  intro c hc
  unfold updateCalls at hc
  split at hc
  · cases hc
  · exact elementsCalls_sure env ctx ces h c hc

end

end OrionBroker
