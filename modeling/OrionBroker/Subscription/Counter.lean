import OrionBroker.Update.Sure
import OrionBroker.Subscription.Interval

/-!
# The notification counter

`count` is advanced by `$inc` for a change of an entity and in an interval thread, and written anew by a
subscription and by its update: there by one for all the notifications of the request, which sends one for each
ONCHANGE condition that is met.

| here | there |
| --- | --- |
| `doNotification` | the same (onTimeIntervalThread.cpp:46), not interrupted |
| `conditionMet`   | when `processOnChangeCondition` sends for a condition, if no call fails |
| `World.sentTo`   | the calls of `sendNotifyContextRequest` for a subscription |
| `Counted`        | what should hold, with what the steps need |

`count_exact_iff`: the broker lives through a run with exact counters if and only if the interval conditions of the
requests have their values, no request meets more than one condition, and no update meets a counter that has outgrown
`int`.
-/

namespace OrionBroker

open Mongo

/-! ## The thread, uninterrupted -/

def doNotification (env : Env) (tenant subId : String) (now : Int) (stack : ContextSubscriptionInfo) (w : World) :
    World :=
  let (csi, w) := mongoGetContextSubscriptionInfo subId stack w
  if now < csi.expiration then
    if throttlingPassed csi now = true then
      let (cerV, w) := mongoGetContextElementResponses env tenant csi.entityIdVector csi.attributeList w
      if cerV.length > 0 then
        match mongoUpdateCsubNewNotification subId now w with
        | (true, w) => w.emit (.notify ⟨subId, cerV, csi.url, csi.format⟩)
        | (false, w) => w
      else w
    else w
  else w

/-- The steps of a thread, one after the other. -/
def IntervalThread.steps (env : Env) (tenant : String) (now : Int) (stack : ContextSubscriptionInfo) :
    Nat → IntervalThread × World → IntervalThread × World
  | 0, tw => tw
  | n + 1, tw => IntervalThread.steps env tenant now stack n (tw.1.step env tenant now stack tw.2)

/-- It is what a thread that has just woken up does, when nothing comes between its steps: five at most. -/
theorem doNotification_eq_steps (env : Env) (tenant subId : String) (now : Int) (stack : ContextSubscriptionInfo)
    (w : World) :
    doNotification env tenant subId now stack w =
      (IntervalThread.steps env tenant now stack 5 ({ subId := subId, place := .awake }, w)).2 := by
  have first : IntervalThread.step env tenant now stack { subId := subId, place := .awake } w =
      ({ subId := subId, place := .informed (mongoGetContextSubscriptionInfo subId stack w).1 },
        (mongoGetContextSubscriptionInfo subId stack w).2) := rfl
  unfold doNotification
  simp only [IntervalThread.steps, first]
  generalize (mongoGetContextSubscriptionInfo subId stack w).1 = csi
  generalize (mongoGetContextSubscriptionInfo subId stack w).2 = w1
  have second : IntervalThread.step env tenant now stack { subId := subId, place := .informed csi } w1 =
      if now < csi.expiration ∧ throttlingPassed csi now = true then ({ subId := subId, place := .allowed csi }, w1)
      else ({ subId := subId, place := .finished }, w1) := rfl
  rw [second]
  by_cases he : now < csi.expiration
  · by_cases ht : throttlingPassed csi now = true
    · have hboth : now < csi.expiration ∧ throttlingPassed csi now = true := ⟨he, ht⟩
      rw [if_pos he, if_pos ht, if_pos hboth]
      obtain ⟨answer, hanswer⟩ :
          ∃ answer, mongoGetContextElementResponses env tenant csi.entityIdVector csi.attributeList w1 = answer := ⟨_, rfl⟩
      have third : IntervalThread.step env tenant now stack { subId := subId, place := .allowed csi } w1 =
          if answer.1.length > 0 then ({ subId := subId, place := .answered csi answer.1 }, answer.2)
          else ({ subId := subId, place := .finished }, answer.2) := by
        rw [← hanswer]
        rfl
      rw [third, hanswer]
      by_cases hlen : answer.1.length > 0
      · rw [if_pos hlen, if_pos hlen]
        dsimp only [IntervalThread.step]
        cases mongoUpdateCsubNewNotification subId now answer.2 with
        | mk written w3 =>
          cases written with
          | false => rfl
          | true => rfl
      · rw [if_neg hlen, if_neg hlen]
        rfl
    · have hnot : ¬ (now < csi.expiration ∧ throttlingPassed csi now = true) := fun h => ht h.2
      rw [if_pos he, if_neg ht, if_neg hnot]
      rfl
  · have hnot : ¬ (now < csi.expiration ∧ throttlingPassed csi now = true) := fun h => he h.1
    rw [if_neg he, if_neg hnot]
    rfl

/-! ## What is sent to a subscription -/

/-- The notifications among `ns` that are for the subscription, in whatever spelling of its identifier. -/
def addressed (oid : String) (ns : List Notification) : Nat :=
  ns.countP fun n => decide (oidOf n.subscriptionId = some oid)

/-- The notifications sent to a subscription. -/
def World.sentTo (w : World) (oid : String) : Nat := addressed oid w.notified

theorem sentTo_sends {w w' : World} {ns : List Notification} (h : Sends w w' ns) (oid : String) :
    w'.sentTo oid = w.sentTo oid + addressed oid ns := by
  unfold World.sentTo addressed
  rw [h, List.countP_append]

theorem addressed_own {oid : String} {ns : List Notification} (h : ∀ n ∈ ns, oidOf n.subscriptionId = some oid) :
    addressed oid ns = ns.length :=
  List.countP_eq_length.2 fun n hn => decide_eq_true (h n hn)

theorem addressed_other {oid id : String} {ns : List Notification} (h : ∀ n ∈ ns, oidOf n.subscriptionId = some id)
    (hne : oid ≠ id) : addressed oid ns = 0 := by
  refine List.countP_eq_zero.2 fun n hn => ?_
  rw [h n hn]
  simpa using fun e : id = oid => hne e.symm

/-- **The counter is exact.** A missing field stands for 0. -/
def CountExact (w : World) : Prop := ∀ s ∈ w.csubs.docs, s.count.getD 0 = (w.sentTo s.oid : Int)

instance (w : World) : Decidable (CountExact w) := inferInstanceAs (Decidable (∀ s ∈ w.csubs.docs, _ = _))

/-- The invariant of the runs. Identifiers are stored in the spelling of the driver. -/
structure Counted (w : World) : Prop where
  spelled : ∀ s ∈ w.csubs.docs, oidOf s.oid = some s.oid
  exact : CountExact w

section
variable {w w' : World}

theorem Counted.quiet (h : Counted w) (hq : w.Quiet w') : Counted w' := by
  refine ⟨by rw [hq.csubs]; exact h.spelled, fun s hs => ?_⟩
  rw [hq.csubs] at hs
  rw [h.exact s hs, sentTo_sends hq.sends]
  rfl

/-- One notification and one `$inc` under the same identifier, stored or not. -/
theorem Counted.notified (h : Counted w) {n : Notification} {id : String} (now : Int)
    (hsend : Sends w w' [n]) (hid : oidOf n.subscriptionId = some id)
    (hcsubs : w'.csubs = w.csubs.modify id (bumpCount now) fun _ => rfl) : Counted w' := by
  have hall : ∀ m ∈ [n], oidOf m.subscriptionId = some id := fun m hm => by rw [List.mem_singleton.1 hm]; exact hid
  have hmem : ∀ s ∈ w'.csubs.docs,
      (s ∈ w.csubs.docs ∧ s.oid ≠ id) ∨ ∃ d ∈ w.csubs.docs, d.oid = id ∧ s = bumpCount now d := by
    intro s hs
    rw [hcsubs] at hs
    exact Collection.mem_modify.1 hs
  refine ⟨fun s hs => ?_, fun s hs => ?_⟩
  · rcases hmem s hs with ⟨hs, _⟩ | ⟨d, hd, _, rfl⟩
    · exact h.spelled s hs
    · exact h.spelled d hd
  · rw [sentTo_sends hsend]
    rcases hmem s hs with ⟨hs, hne⟩ | ⟨d, hd, rfl, rfl⟩
    · rw [addressed_other hall hne, h.exact s hs]
      rfl
    · have hold := h.exact d hd
      show d.count.getD 0 + 1 = ((w.sentTo d.oid + addressed d.oid [n] : Nat) : Int)
      rw [addressed_own hall, hold]
      rfl

end

/-! ## Changes of entities and interval threads -/

theorem iteration_counted {env : Env} {ctx : Ctx} {en : EntityId} {sub : String × TriggeredSubscription} {w : World}
    (hsure : w.Sure) (h : Counted w) (hf : Fresh sub w) : Counted (processSubscription env ctx en sub w).2 := by
  obtain ⟨s, hs, rfl⟩ := hf
  rcases processSubscription_cases env ctx en (s.oid, triggeredSubscription s) w with
    hq | ⟨_, w1, n, hsame, hn, he, hok, _⟩
  · exact h.quiet hq
  · have hw1 : (w1.emit (.notify n)).Sure := by
      have hpoc := processOnChangeCondition_sure env hsure ctx.tenant [en] (triggeredSubscription s).attrL none s.oid
        (triggeredSubscription s).reference (triggeredSubscription s).format ctx.servicePathV
      rw [he] at hpoc
      exact hpoc
    have hres := hok (by rw [hw1.call]; rfl)
    rw [hw1.call] at hres
    have hsend : Sends w (w1.emit (.notify n)) [n] := hsame.quiet.sends.trans (sends_emit w1 n)
    rw [hres]
    have hid : oidOf n.subscriptionId = some s.oid := by
      rw [hn]
      exact h.spelled s hs
    exact h.notified ctx.now hsend hid (by rw [← hsame.csubs]; rfl)

/-- A request on entities, whatever it does. -/
theorem mongoUpdateContext_counted (env : Env) (ctx : Ctx) (ces : List ContextElement) {w : World} (hsure : w.Sure)
    (h : Counted w) : Counted (mongoUpdateContext env ctx ces w).2 := by
  refine update_induct (Q := Counted) (fun hq h => h.quiet hq) (fun c hc hf h => ?_) h
  exact iteration_counted (updateCalls_sure env ctx ces hsure c hc) h hf

/-- A thread, whatever it reads. -/
theorem doNotification_counted (env : Env) (tenant subId : String) (now : Int) (stack : ContextSubscriptionInfo)
    {w : World} (hsure : w.Sure) (h : Counted w) :
    (doNotification env tenant subId now stack w).Sure ∧ Counted (doNotification env tenant subId now stack w) := by
  have hread : (mongoGetContextSubscriptionInfo subId stack w).2 = w := by
    unfold mongoGetContextSubscriptionInfo
    rw [hsure.call]
    dsimp only
    split
    · rfl
    · split <;> rfl
  unfold doNotification
  dsimp only
  rw [hread]
  generalize (mongoGetContextSubscriptionInfo subId stack w).1 = csi
  have hask : (mongoGetContextElementResponses env tenant csi.entityIdVector csi.attributeList w).2 = w := by
    unfold mongoGetContextElementResponses
    rw [entitiesQuery_sure env hsure]
  rw [hask]
  split
  · split
    · split
      · unfold mongoUpdateCsubNewNotification
        rw [hsure.call]
        cases hid : oidOf subId with
        | none => exact ⟨hsure, h⟩
        | some id => exact ⟨hsure, h.notified _ (sends_emit _ _) hid rfl⟩
      · exact ⟨hsure, h⟩
    · exact ⟨hsure, h⟩
  · exact ⟨hsure, h⟩

/-! ## Conditions -/

/-- The answer for the entities of the subscription that have one of its attributes, and the attributes of the condition
among all of theirs. -/
def conditionMet (env : Env) (args : ConditionArgs) (w : World) (nc : NotifyCondition) : Bool :=
  decide (nc.type = ON_CHANGE_CONDITION) &&
  (decide ((entitiesResponses env w args.enV args.attrL false args.servicePathV DEFAULT_PAGINATION_OFFSET_INT
      DEFAULT_PAGINATION_LIMIT_INT).length > 0) &&
    isCondValueInContextElementResponse nc.condValueList
      (entitiesResponses env w args.enV [] false args.servicePathV DEFAULT_PAGINATION_OFFSET_INT
        DEFAULT_PAGINATION_LIMIT_INT))

def metConditions (env : Env) (args : ConditionArgs) (ncs : List NotifyCondition) (w : World) : Nat :=
  ncs.countP (conditionMet env args w)

/-- The entities alone decide. -/
theorem metConditions_congr {env : Env} {args : ConditionArgs} {ncs : List NotifyCondition} {w w' : World}
    (h : w'.entities = w.entities) : metConditions env args ncs w' = metConditions env args ncs w := by
  unfold metConditions conditionMet entitiesResponses entitiesAnswer
  rw [h]

/-- What conditions that send `met` notifications under `subId` leave. -/
structure SendsTo (subId : String) (met : Nat) (w w' : World) : Prop where
  sure : w'.Sure
  sent : ∃ ns, Sends w w' ns ∧ (∀ n ∈ ns, n.subscriptionId = subId) ∧ ns.length = met

theorem SendsTo.trans {subId : String} {m m' : Nat} {w w' w'' : World} (h : SendsTo subId m w w')
    (h' : SendsTo subId m' w' w'') : SendsTo subId (m + m') w w'' := by
  obtain ⟨ns, hs, hids, hlen⟩ := h.sent
  obtain ⟨ns', hs', hids', hlen'⟩ := h'.sent
  refine ⟨h'.sure, ns ++ ns', hs.trans hs', fun n hn => ?_, by rw [List.length_append, hlen, hlen']⟩
  rcases List.mem_append.1 hn with hn | hn
  · exact hids n hn
  · exact hids' n hn

/-- The counters of the worlds. -/
theorem SendsTo.sentTo {subId id : String} {met : Nat} {w w' : World} (h : SendsTo subId met w w')
    (hid : oidOf subId = some id) :
    w'.sentTo id = w.sentTo id + met ∧ ∀ oid, oid ≠ id → w'.sentTo oid = w.sentTo oid := by
  obtain ⟨ns, hs, hids, hlen⟩ := h.sent
  have hall : ∀ n ∈ ns, oidOf n.subscriptionId = some id := fun n hn => by rw [hids n hn]; exact hid
  refine ⟨?_, fun oid hne => ?_⟩
  · rw [sentTo_sends hs, addressed_own hall, hlen]
  · rw [sentTo_sends hs, addressed_other hall hne]
    rfl

theorem processCondition_sendsTo {env : Env} {args : ConditionArgs} {nc : NotifyCondition} {w w' : World} {sent : Bool}
    (h : w.Sure) (hrun : processCondition env args nc w = some (sent, w')) :
    sent = conditionMet env args w nc ∧ SendsTo args.subId (conditionMet env args w nc).toNat w w' := by
  have hnone : SendsTo args.subId 0 w w := ⟨h, [], (World.Same.refl w).quiet.sends, nofun, rfl⟩
  unfold processCondition at hrun
  unfold conditionMet
  by_cases hi : nc.type = ON_TIMEINTERVAL_CONDITION
  · have hc : ¬ nc.type = ON_CHANGE_CONDITION := by rw [hi]; decide
    rw [if_pos hi] at hrun
    obtain ⟨v, _, he⟩ := Option.map_eq_some_iff.1 hrun
    cases he
    rw [decide_eq_false hc]
    exact ⟨rfl, ⟨h, [], (by unfold Sends; rw [List.append_nil]; rfl), nofun, rfl⟩⟩
  rw [if_neg hi] at hrun
  by_cases hc : nc.type = ON_CHANGE_CONDITION
  · rw [if_pos hc, Option.some.injEq] at hrun
    rw [decide_eq_true hc]
    unfold processOnChangeCondition at hrun
    rw [entitiesQuery_sure env h] at hrun
    dsimp only at hrun
    rw [entitiesQuery_sure env h] at hrun
    generalize entitiesResponses env w args.enV args.attrL false args.servicePathV DEFAULT_PAGINATION_OFFSET_INT
      DEFAULT_PAGINATION_LIMIT_INT = cerV at hrun ⊢
    by_cases hlen : cerV.length > 0
    · rw [if_pos hlen] at hrun
      rw [decide_eq_true hlen]
      dsimp only at hrun
      split at hrun
      · rename_i hv
        cases hrun
        rw [hv]
        exact ⟨rfl, h, [_], sends_emit _ _, fun n hn => by rw [List.mem_singleton.1 hn], rfl⟩
      · rename_i hv
        rw [Bool.not_eq_true] at hv
        cases hrun
        rw [hv]
        exact ⟨rfl, hnone⟩
    · rw [if_neg hlen] at hrun
      cases hrun
      rw [decide_eq_false hlen]
      exact ⟨rfl, hnone⟩
  · rw [if_neg hc] at hrun
    cases hrun
    rw [decide_eq_false hc]
    exact ⟨rfl, hnone⟩

/-- The loop sends one notification for each condition that is met, unless it dies. -/
theorem processConditionVector_sendsTo {env : Env} {args : ConditionArgs} (ncs : List NotifyCondition) {w : World}
    (h : w.Sure) (hv : Valued ncs) :
    ((processConditionVector env args ncs w).notificationDone = decide (0 < metConditions env args ncs w)) ∧
    SendsTo args.subId (metConditions env args ncs w) w (processConditionVector env args ncs w).world := by
  induction ncs generalizing w with
  | nil => exact ⟨rfl, h, [], (World.Same.refl w).quiet.sends, nofun, rfl⟩
  | cons nc ncs ih =>
    obtain ⟨hvone, hvrest⟩ := valued_cons_iff.1 hv
    obtain ⟨⟨sent, w1⟩, hrun⟩ := Option.ne_none_iff_exists'.1
      fun hnone => (processCondition_eq_none env args nc w).1 hnone hvone
    obtain ⟨hone, hsone⟩ := processCondition_sendsTo h hrun
    obtain ⟨hrest, hsrest⟩ := ih hsone.sure hvrest
    have hent : w1.entities = w.entities := (processCondition_run hrun).entities
    rw [metConditions_congr hent] at hrest hsrest
    have hcount : metConditions env args (nc :: ncs) w =
        (conditionMet env args w nc).toNat + metConditions env args ncs w := by
      unfold metConditions
      rw [List.countP_cons, Nat.add_comm]
      cases conditionMet env args w nc <;> rfl
    rw [hcount, processConditionVector, hrun]
    refine ⟨?_, hsone.trans hsrest⟩
    show (sent || (processConditionVector env args ncs w1).notificationDone) = _
    rw [hone, hrest]
    cases conditionMet env args w nc with
    | false => simp
    | true => exact (decide_eq_true (by simp only [Bool.toNat_true]; omega)).symm

/-! ## One subscription request -/

def subscribeArgs (requestP : SubscribeContextRequest) (tenant notifyFormat : String) (servicePathV : List String)
    (oid : String) : ConditionArgs where
  enV := requestP.entityIdVector
  attrL := requestP.attributeList
  subId := oid
  url := requestP.reference
  format := if notifyFormat = "XML" then .xml else .json
  tenant := tenant
  servicePathV := servicePathV

def updateArgs (sub : SubDoc) (requestP : UpdateContextSubscriptionRequest) (inFormat : Format) (tenant : String)
    (servicePathV : List String) : ConditionArgs where
  enV := subToEntityIdVector sub
  attrL := subToAttributeList sub
  subId := requestP.subscriptionId
  url := cString sub.reference
  format := inFormat
  tenant := tenant
  servicePathV := servicePathV

/-- When a request is answered, and keeps the counter exact. -/
def SubscriptionRequest.KeepsCount (env : Env) (tenant : String) (w : World) : SubscriptionRequest → Prop
  | .subscribe requestP notifyFormat servicePathV _ oid =>
    Valued requestP.notifyConditionVector ∧
      metConditions env (subscribeArgs requestP tenant notifyFormat servicePathV oid)
        requestP.notifyConditionVector w ≤ 1
  | .update requestP inFormat servicePathV _ =>
    ∀ s ∈ w.csubs.docs, oidOf requestP.subscriptionId = some s.oid →
      Valued requestP.notifyConditionVector ∧
      metConditions env (updateArgs s requestP inFormat tenant servicePathV) requestP.notifyConditionVector w ≤ 1 ∧
      s.count.getD 0 + metConditions env (updateArgs s requestP inFormat tenant servicePathV)
        requestP.notifyConditionVector w < 2 ^ 31
  | .unsubscribe _ => True

/-- An identifier that the driver makes is new: nothing is stored under it, and nothing has been sent to it. -/
def SubscriptionRequest.New (w : World) : SubscriptionRequest → Prop
  | .subscribe _ _ _ _ oid =>
    oidOf oid = some oid ∧ (∀ s ∈ w.csubs.docs, s.oid ≠ oid) ∧ w.sentTo oid = 0
  | .update .. => True
  | .unsubscribe _ => True

section
variable {env : Env} {tenant : String} {w : World}

theorem subscribe_sure (h : w.Sure) (requestP : SubscribeContextRequest) (notifyFormat : String)
    (servicePathV : List String) (now : Int) {oid : String} (hnew : ∀ s ∈ w.csubs.docs, s.oid ≠ oid)
    (hv : Valued requestP.notifyConditionVector) :
    let w' := (mongoSubscribeContext env requestP tenant notifyFormat servicePathV now oid w).2
    let met := metConditions env (subscribeArgs requestP tenant notifyFormat servicePathV oid)
      requestP.notifyConditionVector w
    SendsTo oid met w w' ∧ ∃ doc : SubDoc, doc.oid = oid ∧ doc.count.getD 0 = min met 1 ∧
      w'.csubs.docs = w.csubs.docs ++ [doc] := by
  intro w' met
  let args := subscribeArgs requestP tenant notifyFormat servicePathV oid
  obtain ⟨hdone, hsend⟩ := @processConditionVector_sendsTo env args requestP.notifyConditionVector w h hv
  have hcsubs := (processConditionVector_run env args requestP.notifyConditionVector w).csubs
  have halive := (processConditionVector_run env args requestP.notifyConditionVector w).alive.2 hv
  obtain ⟨c, hc⟩ : ∃ c, processConditionVector env args requestP.notifyConditionVector w = c := ⟨_, rfl⟩
  rw [hc] at hdone hsend hcsubs halive
  let doc := subscribedDoc requestP notifyFormat servicePathV now oid c
  have hfresh : doc.oid ∉ c.world.csubs.docs.map SubDoc.oid := by
    rw [hcsubs]
    intro hmem
    obtain ⟨s, hs, he⟩ := List.mem_map.1 hmem
    exact hnew s hs he
  obtain ⟨csubs, hins⟩ : ∃ csubs, c.world.csubs.insert doc = some csubs := ⟨_, dif_neg hfresh⟩
  have hw' : w' = { c.world with csubs := csubs } := by
    have hc : processConditionVector env
        { enV := requestP.entityIdVector, attrL := requestP.attributeList, subId := oid, url := requestP.reference,
          format := if notifyFormat = "XML" then .xml else .json, tenant := tenant, servicePathV := servicePathV }
        requestP.notifyConditionVector w = c := hc
    show (mongoSubscribeContext env requestP tenant notifyFormat servicePathV now oid w).2 = _
    unfold mongoSubscribeContext
    simp only [hc, halive]
    rw [if_neg Bool.false_ne_true, hsend.sure.call]
    dsimp only [Outcome.writeError]
    rw [show c.world.csubs.insert _ = some csubs from hins]
  obtain ⟨ns, hs, hids, hlen⟩ := hsend.sent
  refine ⟨?_, doc, rfl, ?_, ?_⟩
  · rw [hw']
    exact ⟨hsend.sure, ns, hs, hids, hlen⟩
  · show (if c.notificationDone then some 1 else none : Option Int).getD 0 = _
    rw [hdone]
    by_cases hmet : 0 < met
    · have hmin : min met 1 = 1 := by omega
      rw [hmin, decide_eq_true hmet]
      rfl
    · have hmin : min met 1 = 0 := by omega
      rw [hmin, decide_eq_false hmet]
      rfl
  · rw [hw', Collection.docs_insert hins, hcsubs]

theorem updatedConditions_sendsTo (h : w.Sure) (s : SubDoc) (requestP : UpdateContextSubscriptionRequest)
    (inFormat : Format) (servicePathV : List String) (hv : Valued requestP.notifyConditionVector) :
    let c := updatedConditions env s requestP inFormat tenant servicePathV w
    let met := metConditions env (updateArgs s requestP inFormat tenant servicePathV) requestP.notifyConditionVector w
    c.died = false ∧ c.notificationDone = decide (0 < met) ∧ SendsTo requestP.subscriptionId met w c.world := by
  intro c met
  by_cases hnil : requestP.notifyConditionVector.length = 0
  · have hmet : met = 0 := by
      show metConditions env _ requestP.notifyConditionVector w = 0
      rw [List.length_eq_zero_iff.1 hnil]
      rfl
    have hc : c = ⟨s.conditions, false, w, false⟩ := if_pos hnil
    rw [hc, hmet]
    exact ⟨rfl, rfl, h, [], (World.Same.refl w).quiet.sends, nofun, rfl⟩
  · have hc : c = processConditionVector env (updateArgs s requestP inFormat tenant servicePathV)
        requestP.notifyConditionVector (w.destroyOntimeIntervalThreads requestP.subscriptionId) := if_neg hnil
    rw [hc]
    have hmet : metConditions env (updateArgs s requestP inFormat tenant servicePathV) requestP.notifyConditionVector
        (w.destroyOntimeIntervalThreads requestP.subscriptionId) = met := metConditions_congr rfl
    obtain ⟨hdone, hsend⟩ := @processConditionVector_sendsTo env (updateArgs s requestP inFormat tenant servicePathV)
      requestP.notifyConditionVector (w.destroyOntimeIntervalThreads requestP.subscriptionId) h hv
    rw [hmet] at hdone hsend
    have halive := (processConditionVector_run env (updateArgs s requestP inFormat tenant servicePathV)
      requestP.notifyConditionVector (w.destroyOntimeIntervalThreads requestP.subscriptionId)).alive.2 hv
    exact ⟨halive, hdone, hsend.sure, hsend.sent⟩

/-- The new document has the next counter, as an `int`. -/
theorem update_sure (h : w.Sure) {s : SubDoc} (hs : s ∈ w.csubs.docs) (requestP : UpdateContextSubscriptionRequest)
    (inFormat : Format) (servicePathV : List String) (now : Int) (hid : oidOf requestP.subscriptionId = some s.oid)
    (hv : Valued requestP.notifyConditionVector) :
    let w' := (mongoUpdateContextSubscription env requestP inFormat tenant servicePathV now w).2
    let met := metConditions env (updateArgs s requestP inFormat tenant servicePathV) requestP.notifyConditionVector w
    SendsTo requestP.subscriptionId met w w' ∧ ∃ doc : SubDoc, doc.oid = s.oid ∧
      doc.count = (if 0 < met then some (toInt32 ((s.count.map getIntField).getD 0 + 1)) else s.count.map getIntField) ∧
      ∀ x, x ∈ w'.csubs.docs ↔ (x ∈ w.csubs.docs ∧ x.oid ≠ s.oid) ∨ x = doc := by
  intro w' met
  obtain ⟨halive, hdone, hsend⟩ := @updatedConditions_sendsTo env tenant w h s requestP inFormat servicePathV hv
  have hcsubs := (@updatedConditions_run env requestP inFormat tenant servicePathV w s).1
  obtain ⟨c, hc⟩ : ∃ c, updatedConditions env s requestP inFormat tenant servicePathV w = c := ⟨_, rfl⟩
  rw [hc] at halive hdone hsend hcsubs
  let update := newSub s requestP inFormat now c.conds c.notificationDone
  have hw' : w' = c.world.updateCsub s.oid update.replacedBy fun _ => rfl := by
    show (mongoUpdateContextSubscription env requestP inFormat tenant servicePathV now w).2 = _
    rw [update_found hs hid (by rw [h.call]), h.call]
    unfold replaceSubscription
    simp only [hc, halive]
    rw [if_neg Bool.false_ne_true, hsend.sure.call]
    rfl
  obtain ⟨ns, hns, hids, hlen⟩ := hsend.sent
  refine ⟨?_, update.replacedBy s, rfl, ?_, fun x => ?_⟩
  · rw [hw']
    exact ⟨hsend.sure, ns, hns, hids, hlen⟩
  · show (if c.notificationDone then _ else _) = _
    rw [hdone]
    simp only [decide_eq_true_eq]
    rfl
  · rw [hw']
    refine (mem_updateCsub (f := update.replacedBy) fun _ => rfl).trans ?_
    rw [hcsubs]
    refine or_congr_right ⟨?_, fun hx => ⟨s, hs, rfl, hx⟩⟩
    rintro ⟨d, hd, hdoid, rfl⟩
    rw [w.csubs.eq_of_key hd hs hdoid]

/-- One document is new or replaced, and all that is sent is sent to it. -/
theorem countExact_iff_of_sendsTo {w' : World} {subId : String} {doc : SubDoc} {met : Nat} (h : Counted w)
    (hsend : SendsTo subId met w w') (hid : oidOf subId = some doc.oid)
    (hdocs : ∀ x, x ∈ w'.csubs.docs ↔ (x ∈ w.csubs.docs ∧ x.oid ≠ doc.oid) ∨ x = doc) :
    CountExact w' ↔ doc.count.getD 0 = (w.sentTo doc.oid : Int) + met := by
  obtain ⟨hown, hother⟩ := hsend.sentTo hid
  constructor
  · intro hexact
    rw [hexact doc ((hdocs doc).2 (.inr rfl)), hown]
    rfl
  · intro hcount x hx
    rcases (hdocs x).1 hx with ⟨hx, hne⟩ | rfl
    · rw [hother x.oid hne]
      exact h.exact x hx
    · rw [hcount, hown]
      rfl

/-- The counter that an update writes. -/
theorem updatedCount_iff {count : Option Int} {sent met : Nat} (hcount : count.getD 0 = (sent : Int)) :
    (if 0 < met then some (toInt32 ((count.map getIntField).getD 0 + 1)) else count.map getIntField).getD 0 =
      (sent : Int) + met ↔ met ≤ 1 ∧ count.getD 0 + met < 2 ^ 31 := by
  have hread : (count.map getIntField).getD 0 = getIntField (sent : Int) := by
    cases count with
    | none => rw [← hcount]; rfl
    | some v => rw [← hcount]; rfl
  have hmin : INT_MIN = -2 ^ 31 := rfl
  rw [hcount]
  by_cases hmet : 0 < met
  · rw [if_pos hmet, hread]
    rw [Option.getD_some]
    have hrange := toInt32_range (getIntField sent + 1)
    unfold IsInt32 at hrange
    constructor
    · intro he
      rw [he] at hrange
      have hfits : getIntField (sent : Int) = sent := if_pos ⟨by omega, by omega⟩
      rw [hfits] at he
      rw [toInt32_of_range ⟨by omega, by omega⟩] at he
      omega
    · rintro ⟨hone, hlt⟩
      have hfits : getIntField (sent : Int) = sent := if_pos ⟨by omega, by omega⟩
      rw [hfits, toInt32_of_range ⟨by omega, by omega⟩]
      omega
  · rw [if_neg hmet, hread]
    have hzero : met = 0 := by omega
    subst hzero
    constructor
    · intro he
      refine ⟨by omega, ?_⟩
      unfold getIntField at he
      split at he
      · rename_i hfits
        exact hfits.2
      · omega
    · rintro ⟨_, hlt⟩
      rw [getIntField, if_pos ⟨by omega, by omega⟩]
      rfl

/-- **Exactly when a request keeps the counter**, and the broker alive. -/
theorem request_count_iff (hsure : w.Sure) (h : Counted w) {r : SubscriptionRequest} (hnew : r.New w) :
    (∃ w' ∈ r.run env tenant w, CountExact w') ↔ r.KeepsCount env tenant w := by
  have hok : w.call.1 = .ok := by rw [hsure.call]
  cases r with
  | subscribe requestP notifyFormat servicePathV now oid =>
    obtain ⟨hoid, hfresh, hzero⟩ := hnew
    unfold SubscriptionRequest.KeepsCount SubscriptionRequest.run
    simp only [mem_answered, subscribe_alive, and_assoc, exists_and_left, exists_eq_left]
    refine and_congr_right fun hv => ?_
    obtain ⟨hsend, doc, rfl, hcount, hdocs⟩ :=
      @subscribe_sure env tenant w hsure requestP notifyFormat servicePathV now oid hfresh hv
    refine (countExact_iff_of_sendsTo h hsend hoid fun x => ?_).trans ?_
    · rw [hdocs, List.mem_append, List.mem_singleton]
      exact or_congr_left ⟨fun hx => ⟨hx, hfresh x hx⟩, fun hx => hx.1⟩
    · rw [hcount, hzero]
      omega
  | update requestP inFormat servicePathV now =>
    unfold SubscriptionRequest.KeepsCount SubscriptionRequest.run
    simp only [mem_answered, update_alive, and_assoc, exists_and_left, exists_eq_left]
    by_cases hf : ∃ s ∈ w.csubs.docs, oidOf requestP.subscriptionId = some s.oid
    · obtain ⟨s, hs, hid⟩ := hf
      -- the conditions are about this document only
      have hone : ∀ {P : SubDoc → Prop},
          (∀ x ∈ w.csubs.docs, oidOf requestP.subscriptionId = some x.oid → P x) ↔ P s := by
        intro P
        refine ⟨fun hall => hall s hs hid, fun hp x hx hxid => ?_⟩
        rw [hid] at hxid
        rwa [w.csubs.eq_of_key hx hs (Option.some.inj hxid).symm]
      have hvalued : (w.call.1 = .ok → requestP.notifyConditionVector ≠ [] → Valued requestP.notifyConditionVector) ↔
          Valued requestP.notifyConditionVector := by
        refine ⟨fun hv => ?_, fun hv _ _ => hv⟩
        by_cases hnil : requestP.notifyConditionVector = []
        · rw [hnil]
          exact nofun
        · exact hv hok hnil
      rw [hone, hone, hvalued]
      refine and_congr_right fun hv => ?_
      obtain ⟨hsend, doc, hdoid, hcount, hdocs⟩ :=
        @update_sure env tenant w hsure s hs requestP inFormat servicePathV now hid hv
      rw [← hdoid] at hdocs
      refine (countExact_iff_of_sendsTo h hsend (by rw [hdoid]; exact hid) hdocs).trans ?_
      rw [hcount, hdoid]
      exact updatedCount_iff (h.exact s hs)
    · have hnone : ∀ s ∈ w.csubs.docs, oidOf requestP.subscriptionId ≠ some s.oid := fun s hs hid => hf ⟨s, hs, hid⟩
      have hsame := (@update_notFound env tenant w requestP inFormat servicePathV now
        fun s hs hid => absurd hid (hnone s hs)).2
      exact iff_of_true ⟨fun s hs hid => absurd hid (hnone s hs), (h.quiet hsame.quiet).exact⟩
        fun s hs hid => absurd hid (hnone s hs)
  | unsubscribe subscriptionId =>
    obtain ⟨hsend, hdocs, _⟩ := mongoUnsubscribeContext_effect env subscriptionId tenant w
    refine iff_of_true ⟨_, rfl, fun s hs => ?_⟩ trivial
    have hsent := sentTo_sends hsend s.oid
    rw [h.exact s (hdocs s hs)]
    exact congrArg Int.ofNat hsent.symm

theorem request_sure (hsure : w.Sure) {r : SubscriptionRequest} (hnew : r.New w) {w' : World}
    (hw : w' ∈ r.run env tenant w) : w'.Sure := by
  cases r with
  | subscribe requestP notifyFormat servicePathV now oid =>
    obtain ⟨ha, rfl⟩ := mem_answered.1 hw
    exact (subscribe_sure hsure requestP notifyFormat servicePathV now hnew.2.1
      ((subscribe_alive requestP notifyFormat servicePathV now oid).1 ha)).1.sure
  | update requestP inFormat servicePathV now =>
    obtain ⟨ha, rfl⟩ := mem_answered.1 hw
    by_cases hf : ∃ s ∈ w.csubs.docs, oidOf requestP.subscriptionId = some s.oid
    · obtain ⟨s, hs, hid⟩ := hf
      have hv : Valued requestP.notifyConditionVector := by
        by_cases hnil : requestP.notifyConditionVector = []
        · rw [hnil]
          exact nofun
        · exact (update_alive now).1 ha s hs hid (by rw [hsure.call]) hnil
      exact (update_sure hsure hs requestP inFormat servicePathV now hid hv).1.sure
    · unfold mongoUpdateContextSubscription
      rw [hsure.call]
      cases hid : oidOf requestP.subscriptionId with
      | none => exact hsure
      | some id =>
        dsimp only
        split
        · exact hsure
        · rename_i s hfound
          have hk : s.oid = id := by simpa using List.find?_some hfound
          exact absurd ⟨s, List.mem_of_find?_eq_some hfound, by rw [hid, hk]⟩ hf
  | unsubscribe subscriptionId =>
    obtain rfl := (Option.some.inj hw).symm
    unfold mongoUnsubscribeContext
    rw [hsure.call]
    cases oidOf subscriptionId with
    | none => exact hsure
    | some id =>
      dsimp only
      split
      · exact hsure
      · rw [hsure.call]
        exact hsure

theorem request_counted (hsure : w.Sure) (h : Counted w) {r : SubscriptionRequest} (hnew : r.New w)
    (hk : r.KeepsCount env tenant w) {w' : World} (hw : w' ∈ r.run env tenant w) : Counted w' := by
  have hsp : r.Spelled := by
    cases r with
    | subscribe => exact hnew.1
    | update => trivial
    | unsubscribe => trivial
  obtain ⟨w1, hw1, hexact⟩ := (request_count_iff hsure h hnew).2 hk
  rw [Option.mem_unique hw1 hw] at hexact
  exact ⟨run_spelled hsp h.spelled hw, hexact⟩

end

/-! ## Runs -/

inductive BrokerStep where
  | request (r : SubscriptionRequest)
  | updateContext (ctx : Ctx) (contextElementVector : List ContextElement)
  | doNotification (subId : String) (now : Int) (stack : ContextSubscriptionInfo)

/-- `none` when the broker has died. -/
def BrokerStep.run (env : Env) (tenant : String) (w : World) : BrokerStep → Option World
  | .request r => r.run env tenant w
  | .updateContext ctx contextElementVector =>
    some (mongoUpdateContext env { ctx with tenant := tenant } contextElementVector w).2
  | .doNotification subId now stack => some (OrionBroker.doNotification env tenant subId now stack w)

def BrokerStep.New (w : World) : BrokerStep → Prop
  | .request r => r.New w
  | .updateContext .. => True
  | .doNotification .. => True

/-- Changes of entities and threads need nothing. -/
def BrokerStep.KeepsCount (env : Env) (tenant : String) (w : World) : BrokerStep → Prop
  | .request r => r.KeepsCount env tenant w
  | .updateContext .. => True
  | .doNotification .. => True

/-- `none` when the broker has died on the way. -/
def runSteps (env : Env) (tenant : String) (w : World) : List BrokerStep → Option World
  | [] => some w
  | a :: steps => (a.run env tenant w).bind fun w => runSteps env tenant w steps

/-- A property of each step of a run, in the state that it finds. -/
def AlongSteps (env : Env) (tenant : String) (P : World → BrokerStep → Prop) : World → List BrokerStep → Prop
  | _, [] => True
  | w, a :: steps => P w a ∧ ∀ w' ∈ a.run env tenant w, AlongSteps env tenant P w' steps

instance (env : Env) (tenant : String) (w : World) : (a : BrokerStep) → Decidable (a.KeepsCount env tenant w)
  | .request (.subscribe ..) => inferInstanceAs (Decidable (_ ∧ _ ≤ _))
  | .request (.update ..) => inferInstanceAs (Decidable (∀ s ∈ w.csubs.docs, _ → _ ∧ _ ∧ _))
  | .request (.unsubscribe _) => .isTrue trivial
  | .updateContext .. => .isTrue trivial
  | .doNotification .. => .isTrue trivial

instance (w : World) : (a : BrokerStep) → Decidable (a.New w)
  | .request (.subscribe ..) => inferInstanceAs (Decidable (_ ∧ (∀ s ∈ w.csubs.docs, _) ∧ _))
  | .request (.update ..) => .isTrue trivial
  | .request (.unsubscribe _) => .isTrue trivial
  | .updateContext .. => .isTrue trivial
  | .doNotification .. => .isTrue trivial

instance decidableAlongSteps (env : Env) (tenant : String) (P : World → BrokerStep → Prop)
    [∀ w a, Decidable (P w a)] : (w : World) → (steps : List BrokerStep) → Decidable (AlongSteps env tenant P w steps)
  | _, [] => .isTrue trivial
  | w, a :: steps =>
    have : Decidable (∀ w' ∈ a.run env tenant w, AlongSteps env tenant P w' steps) :=
      match h : a.run env tenant w with
      | none => .isTrue nofun
      | some w' =>
        have := decidableAlongSteps env tenant P w' steps
        decidable_of_iff (AlongSteps env tenant P w' steps) (by simp)
    inferInstanceAs (Decidable (_ ∧ _))

section
variable {env : Env} {tenant : String} {w : World}

theorem step_count_iff (hsure : w.Sure) (h : Counted w) {a : BrokerStep} (hnew : a.New w) :
    (∃ w' ∈ a.run env tenant w, CountExact w') ↔ a.KeepsCount env tenant w := by
  cases a with
  | request r => exact request_count_iff hsure h hnew
  | updateContext ctx ces =>
    exact iff_of_true
      ⟨_, rfl, (mongoUpdateContext_counted env { ctx with tenant := tenant } ces hsure h).exact⟩ trivial
  | doNotification subId now stack =>
    exact iff_of_true ⟨_, rfl, (doNotification_counted env tenant subId now stack hsure h).2.exact⟩ trivial

/-- Step: the calls go on to succeed, and a step that keeps the counter keeps the invariant. -/
theorem step_counted (hsure : w.Sure) (h : Counted w) {a : BrokerStep} (hnew : a.New w)
    (hk : a.KeepsCount env tenant w) {w' : World} (hw : w' ∈ a.run env tenant w) : w'.Sure ∧ Counted w' := by
  cases a with
  | request r => exact ⟨request_sure hsure hnew hw, request_counted hsure h hnew hk hw⟩
  | updateContext ctx ces =>
    obtain rfl := (Option.some.inj hw).symm
    exact ⟨mongoUpdateContext_sure env { ctx with tenant := tenant } ces hsure,
      mongoUpdateContext_counted env { ctx with tenant := tenant } ces hsure h⟩
  | doNotification subId now stack =>
    obtain rfl := (Option.some.inj hw).symm
    exact doNotification_counted env tenant subId now stack hsure h

/-- **Exactly when the counter is exact all along.** Every call of a run succeeds and every identifier that the driver
makes is new. Then the broker is alive after every part of the run, and in every state that it reaches each `count` is
the number of notifications sent to its subscription, if and only if each step meets its condition in the state it
finds. -/
theorem count_exact_iff (hsure : w.Sure) (h : Counted w) (steps : List BrokerStep)
    (hnew : AlongSteps env tenant (fun w a => a.New w) w steps) :
    (∀ p, p <+: steps → ∃ w' ∈ runSteps env tenant w p, CountExact w') ↔
      AlongSteps env tenant (fun w a => a.KeepsCount env tenant w) w steps := by
  induction steps generalizing w with
  | nil =>
    refine ⟨fun _ => trivial, fun _ p hp => ?_⟩
    rw [List.prefix_nil.1 hp]
    exact ⟨w, rfl, h.exact⟩
  | cons a steps ih =>
    obtain ⟨ha, hrest⟩ := hnew
    constructor
    · intro hall
      have hk : a.KeepsCount env tenant w := by
        obtain ⟨w1, hw1, hone⟩ := hall [a] ⟨steps, rfl⟩
        obtain ⟨w2, hw2, hrun⟩ := Option.bind_eq_some_iff.1 hw1
        cases hrun
        exact (step_count_iff hsure h ha).1 ⟨w1, hw2, hone⟩
      refine ⟨hk, fun w' hw => ?_⟩
      obtain ⟨hsure', h'⟩ := step_counted hsure h ha hk hw
      refine (ih hsure' h' (hrest w' hw)).1 fun p hp => ?_
      obtain ⟨w1, hw1, hone⟩ := hall (a :: p) (List.prefix_cons_iff.2 (.inr ⟨p, rfl, hp⟩))
      obtain ⟨w2, hw2, hrun⟩ := Option.bind_eq_some_iff.1 hw1
      rw [Option.mem_unique hw hw2]
      exact ⟨w1, hrun, hone⟩
    · rintro ⟨hk, hks⟩ p hp
      rcases List.prefix_cons_iff.1 hp with rfl | ⟨q, rfl, hq⟩
      · exact ⟨w, rfl, h.exact⟩
      · obtain ⟨w1, hw1, -⟩ := (step_count_iff hsure h ha).2 hk
        obtain ⟨hsure', h'⟩ := step_counted hsure h ha hk hw1
        obtain ⟨w2, hw2, hone⟩ := (ih hsure' h' (hrest w1 hw1)).2 (hks w1 hw1) q hq
        exact ⟨w2, Option.bind_eq_some_iff.2 ⟨w1, hw1, hw2⟩, hone⟩

/-- An empty collection. -/
theorem Counted.ofEmpty (hc : w.csubs.docs = []) : Counted w := by
  have hnone : ∀ s, s ∉ w.csubs.docs := fun s hs => List.not_mem_nil (hc ▸ hs)
  exact ⟨fun s hs => absurd hs (hnone s), fun s hs => absurd hs (hnone s)⟩

end

/-! ## Two runs -/

/-- A subscription to the room under these conditions. -/
def subscribeRoom (conditions : List NotifyCondition) : BrokerStep :=
  .request (.subscribe
    { entityIdVector := [{ id := "Room", type := "T", isPattern := "false" }], reference := "http://host/notify",
      notifyConditionVector := conditions }
    "JSON" [] 100 "51c0ac9ed714fb3b37d7d5a8")

/-- The first notification, a change, a thread, and the first notification of another condition. -/
def countedRun : List BrokerStep :=
  [subscribeRoom [⟨"ONCHANGE", ["t"]⟩, ⟨"ONTIMEINTERVAL", ["PT5S"]⟩],
   .updateContext { action := "UPDATE", now := 110 }
    [{ entityId := { id := "Room", type := "T", isPattern := "false" },
       contextAttributeVector := [{ name := "t", value := "2" }] }],
   .doNotification "51c0ac9ed714fb3b37d7d5a8" 120 emptyStack,
   .request (.update { subscriptionId := "51c0ac9ed714fb3b37d7d5a8",
                       notifyConditionVector := [⟨"ONCHANGE", ["t"]⟩] } .json [] 130)]

theorem countedRun_exact :
    (runSteps roomEnv "" { entities := oneRoom } countedRun).map (fun w => w.csubs.docs.map SubDoc.count) =
      some [some 4] ∧
    ∀ p, p <+: countedRun → ∃ w' ∈ runSteps roomEnv "" { entities := oneRoom } p, CountExact w' :=
  ⟨by decide +kernel,
   (@count_exact_iff roomEnv "" { entities := oneRoom } rfl (.ofEmpty rfl) countedRun (by decide +kernel)).2
    (by decide +kernel)⟩

/-- **Two notifications, counted once.** The subscription has two conditions that the room meets. -/
theorem subscribeRoom_twice :
    (runSteps roomEnv "" { entities := oneRoom } [subscribeRoom [⟨"ONCHANGE", ["t"]⟩, ⟨"ONCHANGE", ["t"]⟩]]).map
      (fun w => w.sentTo "51c0ac9ed714fb3b37d7d5a8") = some 2 ∧
    (runSteps roomEnv "" { entities := oneRoom } [subscribeRoom [⟨"ONCHANGE", ["t"]⟩, ⟨"ONCHANGE", ["t"]⟩]]).map
      (fun w => w.csubs.docs.map fun s => (s.oid, s.count)) = some [("51c0ac9ed714fb3b37d7d5a8", some 1)] ∧
    ∀ w' ∈ runSteps roomEnv "" { entities := oneRoom }
      [subscribeRoom [⟨"ONCHANGE", ["t"]⟩, ⟨"ONCHANGE", ["t"]⟩]], ¬ CountExact w' :=
  ⟨by decide +kernel, by decide +kernel, by decide +kernel⟩

end OrionBroker
