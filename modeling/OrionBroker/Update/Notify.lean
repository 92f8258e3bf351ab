import OrionBroker.Update.Triggers

/-!
# Sending the notifications of an update (MongoCommonUpdate.cpp:987, MongoGlobal.cpp:1538-1684)

| here | there |
| --- | --- |
| `isCondValueInContextElementResponse` | the same (MongoGlobal.cpp:1540) |
| `processOnChangeCondition`            | the same (MongoGlobal.cpp:1618) |
| `blockedByThrottling`                 | the test at MongoCommonUpdate.cpp:1008-1022, which compares with `1` |
| `processSubscription`                 | one iteration of the loop of `processSubscriptions` |
| `processSubscriptions`                | the same (MongoCommonUpdate.cpp:987) |

A step only adds notifications to the trace (`Notifies`), and leaves the entities alone.
-/

namespace OrionBroker

open Mongo

def isCondValueInContextElementResponse (condValues : List String) (cerV : List ContextElementResponse) : Bool :=
  condValues.any fun v => cerV.any fun cer => cer.contextAttributeVector.any fun ca => ca.name == v

/-- Returns whether the notification was sent. `condValues` is `none` when called from an update. -/
def processOnChangeCondition (env : Env) (tenant : String) (enV : List EntityId) (attrL : List String)
    (condValues : Option (List String)) (subId notifyUrl : String) (format : Format)
    (servicePathV : List String) (w : World) : Bool × World :=
  match entitiesQuery env tenant enV attrL false servicePathV DEFAULT_PAGINATION_OFFSET_INT
      DEFAULT_PAGINATION_LIMIT_INT w with
  | (.error _, w) => (false, w)
  | (.ok cerV, w) =>
    let ncr : Notification := ⟨subId, cerV, notifyUrl, format⟩
    if cerV.length > 0 then
      match condValues with
      | none => (true, w.emit (.notify ncr))
      | some condValues =>
        -- all attributes of the entities are asked for, whatever `attrL` is
        match entitiesQuery env tenant enV [] false servicePathV DEFAULT_PAGINATION_OFFSET_INT
            DEFAULT_PAGINATION_LIMIT_INT w with
        | (.error _, w) => (false, w)
        | (.ok allCerV, w) =>
          if isCondValueInContextElementResponse condValues allCerV then (true, w.emit (.notify ncr))
          else (false, w)
    else (false, w)

/-- The throttling test; it is skipped when one of the two numbers is `1`. -/
def blockedByThrottling (now : Int) (t : TriggeredSubscription) : Bool :=
  t.throttling != 1 && t.lastNotification != 1 && decide (t.throttling > now - t.lastNotification)

/-- `{$set: {lastNotification: now}, $inc: {count: 1}}`. -/
def bumpCount (now : Int) (s : SubDoc) : SubDoc :=
  { s with lastNotification := some now, count := some (s.count.getD 0 + 1) }

def World.updateCsub (w : World) (oid : String) (f : SubDoc → SubDoc) (hf : ∀ s, (f s).oid = s.oid) : World :=
  { w with csubs := w.csubs.modify oid f hf }

def processSubscription (env : Env) (ctx : Ctx) (en : EntityId) (sub : String × TriggeredSubscription)
    (w : World) : Bool × World :=
  let (subId, trigs) := sub
  if blockedByThrottling ctx.now trigs then (true, w)
  else
    match processOnChangeCondition env ctx.tenant [en] trigs.attrL none subId trigs.reference trigs.format
        ctx.servicePathV w with
    | (false, w) => (true, w)
    | (true, w) =>
      let (o, w) := w.call
      match o.writeError with
      | some _ => (false, w)
      | none => (true, w.updateCsub subId (bumpCount ctx.now) fun _ => rfl)

/-- The entity of the request stands for the modified one (:1027). -/
def notifiedEntity (en : EntityId) : EntityId := { id := en.id, type := en.type, isPattern := en.isPattern }

def processSubscriptions (env : Env) (ctx : Ctx) (en : EntityId) : SubsMap → World → Bool × World
  | [], w => (true, w)
  | sub :: subs, w =>
    let (r, w) := processSubscription env ctx (notifiedEntity en) sub w
    let (rs, w) := processSubscriptions env ctx en subs w
    (r && rs, w)

/-! ## What sending does to the world -/

/-- `w'` comes from `w` by sending notifications and writing to the subscriptions. -/
structure Notifies (w w' : World) (sent : List Event) : Prop where
  entities : w'.entities = w.entities
  trace : w'.trace = w.trace ++ sent
  notify : ∀ e ∈ sent, e.isNotify = true

theorem World.Same.notifies {w w' : World} (h : World.Same w w') : Notifies w w' [] :=
  ⟨h.entities, by simp [h.trace], by simp⟩

theorem Notifies.trans {w w' w'' : World} {s s' : List Event} (h : Notifies w w' s) (h' : Notifies w' w'' s') :
    Notifies w w'' (s ++ s') where
  entities := h'.entities.trans h.entities
  trace := by rw [h'.trace, h.trace, List.append_assoc]
  notify e he := by
    rcases List.mem_append.1 he with he | he
    · exact h.notify e he
    · exact h'.notify e he

theorem notifies_emit (w : World) (n : Notification) : Notifies w (w.emit (.notify n)) [.notify n] :=
  ⟨rfl, rfl, by simp [Event.isNotify]⟩

/-- Nothing is sent, or one notification of the subscription. -/
theorem processOnChangeCondition_cases (env : Env) (tenant : String) (enV : List EntityId)
    (attrL : List String) (condValues : Option (List String)) (subId notifyUrl : String) (format : Format)
    (servicePathV : List String) (w : World) :
    let res := processOnChangeCondition env tenant enV attrL condValues subId notifyUrl format servicePathV w
    (res.1 = false ∧ World.Same w res.2) ∨
      (res.1 = true ∧ ∃ w1 n, World.Same w w1 ∧ n.subscriptionId = subId ∧ res.2 = w1.emit (.notify n)) := by
  intro res
  have hres : res = processOnChangeCondition env tenant enV attrL condValues subId notifyUrl format
    servicePathV w := rfl
  unfold processOnChangeCondition at hres
  have h1 := entitiesQuery_same env tenant enV attrL false servicePathV DEFAULT_PAGINATION_OFFSET_INT
    DEFAULT_PAGINATION_LIMIT_INT w
  split at hres
  · rename_i e1
    rw [e1] at h1
    rw [hres]; exact .inl ⟨rfl, h1⟩
  · rename_i cerV w1 e1
    rw [e1] at h1
    split at hres
    · split at hres
      · rw [hres]; exact .inr ⟨rfl, w1, _, h1, rfl, rfl⟩
      · have h2 := entitiesQuery_same env tenant enV [] false servicePathV DEFAULT_PAGINATION_OFFSET_INT
          DEFAULT_PAGINATION_LIMIT_INT w1
        split at hres
        · rename_i e2
          rw [e2] at h2
          rw [hres]; exact .inl ⟨rfl, h1.trans h2⟩
        · rename_i w2 e2
          rw [e2] at h2
          split at hres
          · rw [hres]; exact .inr ⟨rfl, w2, _, h1.trans h2, rfl, rfl⟩
          · rw [hres]; exact .inl ⟨rfl, h1.trans h2⟩
    · rw [hres]; exact .inl ⟨rfl, h1⟩

theorem processOnChangeCondition_notifies (env : Env) (tenant : String) (enV : List EntityId)
    (attrL : List String) (condValues : Option (List String)) (subId notifyUrl : String) (format : Format)
    (servicePathV : List String) (w : World) :
    ∃ sent, Notifies w (processOnChangeCondition env tenant enV attrL condValues subId notifyUrl format
      servicePathV w).2 sent := by
  rcases processOnChangeCondition_cases env tenant enV attrL condValues subId notifyUrl format servicePathV w
    with ⟨_, h⟩ | ⟨_, w1, n, h, _, e⟩
  · exact ⟨[], h.notifies⟩
  · rw [e]
    exact ⟨_, h.notifies.trans (notifies_emit w1 n)⟩

theorem processSubscription_notifies (env : Env) (ctx : Ctx) (en : EntityId)
    (sub : String × TriggeredSubscription) (w : World) :
    ∃ sent, Notifies w (processSubscription env ctx en sub w).2 sent := by
  unfold processSubscription
  split
  rename_i subId trigs
  split
  · exact ⟨[], (World.Same.refl w).notifies⟩
  · obtain ⟨sent, h⟩ := processOnChangeCondition_notifies env ctx.tenant [en] trigs.attrL none subId
      trigs.reference trigs.format ctx.servicePathV w
    split
    · rename_i e; rw [e] at h; exact ⟨sent, h⟩
    · rename_i w1 e
      rw [e] at h
      have hc := w1.call_same.notifies
      simp only
      split
      · exact ⟨_, h.trans hc⟩
      · -- the write of the subscription touches neither entities nor trace
        have hu : Notifies w1.call.2 (w1.call.2.updateCsub subId (bumpCount ctx.now) fun _ => rfl) [] :=
          ⟨rfl, by simp [World.updateCsub], by simp⟩
        exact ⟨_, (h.trans hc).trans hu⟩

theorem processSubscriptions_notifies (env : Env) (ctx : Ctx) (en : EntityId) :
    ∀ (subs : SubsMap) (w : World), ∃ sent, Notifies w (processSubscriptions env ctx en subs w).2 sent
  | [], w => ⟨[], (World.Same.refl w).notifies⟩
  | sub :: subs, w => by
    obtain ⟨s1, h1⟩ := processSubscription_notifies env ctx (notifiedEntity en) sub w
    obtain ⟨s2, h2⟩ := processSubscriptions_notifies env ctx en subs
      (processSubscription env ctx (notifiedEntity en) sub w).2
    exact ⟨_, h1.trans h2⟩

end OrionBroker
