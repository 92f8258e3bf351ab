import OrionBroker.Common.Duration
import OrionBroker.Update.Notify

/-!
# Subscribing and updating a subscription

| here | there |
| --- | --- |
| `subToEntityIdVector`, `subToAttributeList` | the same (MongoGlobal.cpp:1564, :1585) |
| `processCondition`               | one iteration of the loop of `processConditionVector` |
| `processConditionVector`         | the same (MongoGlobal.cpp:1700) |
| `createIntervalThread`, `destroyOntimeIntervalThreads` | the thread map of the notifier (Notifier.cpp:216, :243) |
| `subscribedDoc`                  | the document `mongoSubscribeContext` builds |
| `mongoSubscribeContext`          | the same (mongoSubscribeContext.cpp:43) |
| `newSub`                         | the document `mongoUpdateContextSubscription` builds (:124-210) |
| `mongoUpdateContextSubscription` | the same (mongoUpdateContextSubscription.cpp:43) |

The clock stands still during a request. An interval condition without values makes the broker die, as it reads the
first of them (`ConditionValueList::get`); `none` in the place of an answer stands for that. `ConditionsRun` says what
the conditions of a request do: they create threads and send notifications, and touch no collection.
-/

namespace OrionBroker

open Mongo

/-! ## The interval threads -/

def World.createIntervalThread (w : World) (subId : String) (interval : Int) : World :=
  { w with threads := w.threads ++ [(subId, interval)] }

def World.destroyOntimeIntervalThreads (w : World) (subId : String) : World :=
  { w with threads := w.threads.filter fun t => t.1 != subId }

/-! ## Conditions -/

def ON_TIMEINTERVAL_CONDITION : String := "ONTIMEINTERVAL"
def ON_CHANGE_CONDITION : String := "ONCHANGE"

def subToEntityIdVector (sub : SubDoc) : List EntityId :=
  sub.entities.map fun e => { id := cString e.id, type := strField e.type, isPattern := cString e.isPattern }

def subToAttributeList (sub : SubDoc) : List String := sub.attrs

/-- The arguments of `processConditionVector` besides the vector. -/
structure ConditionArgs where
  enV : List EntityId
  attrL : List String
  subId : String
  url : String
  format : Format
  tenant : String
  servicePathV : List String

/-- What a condition is stored as. -/
def storedCondition (nc : NotifyCondition) : Option SubCond :=
  if nc.type = ON_TIMEINTERVAL_CONDITION then nc.condValueList.head?.map fun v => .onTimeInterval (parse8601 v)
  else if nc.type = ON_CHANGE_CONDITION then some (.onChange nc.condValueList)
  else none

/-- Whether a notification was sent, and the world. `condValueList.get(0)` looks at no length: `none` is the death of the
broker there. -/
def processCondition (env : Env) (args : ConditionArgs) (nc : NotifyCondition) (w : World) : Option (Bool × World) :=
  if nc.type = ON_TIMEINTERVAL_CONDITION then
    nc.condValueList.head?.map fun v => (false, w.createIntervalThread args.subId (toInt32 (parse8601 v)))
  else if nc.type = ON_CHANGE_CONDITION then
    some (processOnChangeCondition env args.tenant args.enV args.attrL (some nc.condValueList) args.subId args.url
      args.format args.servicePathV w)
  -- ONVALUE is not implemented
  else some (false, w)

structure Conditions where
  conds : List SubCond
  notificationDone : Bool
  world : World
  died : Bool := false

def processConditionVector (env : Env) (args : ConditionArgs) : List NotifyCondition → World → Conditions
  | [], w => ⟨[], false, w, false⟩
  | nc :: ncs, w =>
    match processCondition env args nc w with
    | none => ⟨[], false, w, true⟩
    | some (sent, w) =>
      let rest := processConditionVector env args ncs w
      ⟨(storedCondition nc).toList ++ rest.conds, sent || rest.notificationDone, rest.world, rest.died⟩

/-- The interval conditions have a value. -/
def Valued (ncs : List NotifyCondition) : Prop :=
  ∀ nc ∈ ncs, nc.type = ON_TIMEINTERVAL_CONDITION → nc.condValueList ≠ []

instance (ncs : List NotifyCondition) : Decidable (Valued ncs) :=
  inferInstanceAs (Decidable (∀ nc ∈ ncs, nc.type = ON_TIMEINTERVAL_CONDITION → nc.condValueList ≠ []))

theorem valued_cons_iff {nc : NotifyCondition} {ncs : List NotifyCondition} :
    Valued (nc :: ncs) ↔ Valued [nc] ∧ Valued ncs := by
  simp [Valued]

/-- The seconds of an interval condition. -/
def requestedInterval (nc : NotifyCondition) : Option Int :=
  if nc.type = ON_TIMEINTERVAL_CONDITION then nc.condValueList.head?.map parse8601 else none

/-- The seconds of the interval conditions, as they are stored. -/
def requestedSeconds (ncs : List NotifyCondition) : List Int := ncs.filterMap requestedInterval

/-- The threads the interval conditions create. -/
def createdThreads (subId : String) (ncs : List NotifyCondition) : List (String × Int) :=
  (requestedSeconds ncs).map fun n => (subId, toInt32 n)

/-- What the conditions of a request do. -/
structure ConditionsRun (subId : String) (ncs : List NotifyCondition) (w : World) (c : Conditions) : Prop where
  died : c.died = true ↔ ¬ Valued ncs
  entities : c.world.entities = w.entities
  csubs : c.world.csubs = w.csubs
  threads : c.died = false → c.world.threads = w.threads ++ createdThreads subId ncs
  conds : c.died = false → c.conds = ncs.filterMap storedCondition
  sent : ∃ ns : List Notification, c.world.trace = w.trace ++ ns.map Event.notify ∧
    (∀ n ∈ ns, n.subscriptionId = subId) ∧ (c.notificationDone = true ↔ ns ≠ [])

theorem ConditionsRun.alive {subId : String} {ncs : List NotifyCondition} {w : World} {c : Conditions}
    (h : ConditionsRun subId ncs w c) : c.died = false ↔ Valued ncs := by
  rw [← Bool.not_eq_true, h.died, not_not]

/-- A condition without the value it needs. -/
theorem processCondition_eq_none (env : Env) (args : ConditionArgs) (nc : NotifyCondition) (w : World) :
    processCondition env args nc w = none ↔ ¬ Valued [nc] := by
  unfold processCondition Valued
  by_cases hi : nc.type = ON_TIMEINTERVAL_CONDITION
  · simp [hi]
  · rw [if_neg hi]
    simp only [List.forall_mem_singleton, hi, false_imp_iff, not_true_eq_false, iff_false]
    split <;> simp

theorem processCondition_run {env : Env} {args : ConditionArgs} {nc : NotifyCondition} {w w' : World} {sent : Bool}
    (h : processCondition env args nc w = some (sent, w')) :
    ConditionsRun args.subId [nc] w ⟨(storedCondition nc).toList, sent, w', false⟩ := by
  have hvalued : Valued [nc] := by
    by_contra hn
    rw [(processCondition_eq_none env args nc w).2 hn] at h
    cases h
  have hdied : false = true ↔ ¬ Valued [nc] := by simp [hvalued]
  have hconds : (storedCondition nc).toList = [nc].filterMap storedCondition := by
    cases h : storedCondition nc <;> simp [h]
  unfold processCondition at h
  by_cases hi : nc.type = ON_TIMEINTERVAL_CONDITION
  · rw [if_pos hi] at h
    obtain ⟨v, hv, he⟩ := Option.map_eq_some_iff.1 h
    cases he
    have hthreads : createdThreads args.subId [nc] = [(args.subId, toInt32 (parse8601 v))] := by
      simp [createdThreads, requestedSeconds, requestedInterval, hi, hv]
    exact ⟨hdied, rfl, rfl, fun _ => by rw [hthreads]; rfl, fun _ => hconds, [], by
      simp [World.createIntervalThread]⟩
  · have hthreads : createdThreads args.subId [nc] = [] := by
      simp [createdThreads, requestedSeconds, requestedInterval, hi]
    rw [if_neg hi] at h
    by_cases hc : nc.type = ON_CHANGE_CONDITION
    · rw [if_pos hc, Option.some.injEq] at h
      have hcases := processOnChangeCondition_cases env args.tenant args.enV args.attrL (some nc.condValueList)
        args.subId args.url args.format args.servicePathV w
      dsimp only at hcases
      rw [h] at hcases
      rcases hcases with ⟨hr, hw⟩ | ⟨hr, w1, n, hw, hn, e⟩
      · exact ⟨hdied, hw.entities, hw.csubs, fun _ => by rw [hthreads, List.append_nil]; exact hw.threads,
          fun _ => hconds, [], by
            have htrace : w'.trace = w.trace := hw.trace
            have hsent : sent = false := hr
            simp [htrace, hsent]⟩
      · dsimp only at hr e
        subst hr e
        refine ⟨hdied, hw.entities, hw.csubs, fun _ => ?_, fun _ => hconds, [n], ?_, ?_, by simp⟩
        · rw [hthreads, List.append_nil]; exact hw.threads
        · rw [← hw.trace]; rfl
        · intro m hm; rw [List.mem_singleton.1 hm]; exact hn
    · rw [if_neg hc] at h
      cases h
      exact ⟨hdied, rfl, rfl, fun _ => by simp [hthreads], fun _ => hconds, [], by simp⟩

/-- One spec for the loop: the runs of the conditions one after the other. -/
theorem processConditionVector_run (env : Env) (args : ConditionArgs) (ncs : List NotifyCondition) (w : World) :
    ConditionsRun args.subId ncs w (processConditionVector env args ncs w) := by
  induction ncs generalizing w with
  | nil => exact ⟨by simp [processConditionVector, Valued], rfl, rfl, fun _ => by
      simp [createdThreads, requestedSeconds, processConditionVector], fun _ => rfl, [], by simp [processConditionVector]⟩
  | cons nc ncs ih =>
    unfold processConditionVector
    split
    · rename_i hnone
      have hn := (processCondition_eq_none env args nc w).1 hnone
      exact ⟨iff_of_true rfl fun h => hn (valued_cons_iff.1 h).1, rfl, rfl, nofun, nofun, [], by simp⟩
    · rename_i sent w1 hone
      have h1 := processCondition_run hone
      have h2 := ih w1
      obtain ⟨ns1, ht1, hs1, hd1⟩ := h1.sent
      obtain ⟨ns2, ht2, hs2, hd2⟩ := h2.sent
      refine ⟨?_, h2.entities.trans h1.entities, h2.csubs.trans h1.csubs, fun ha => ?_, fun ha => ?_, ns1 ++ ns2, ?_, ?_,
        ?_⟩
      · rw [valued_cons_iff, h2.died]
        simp [h1.alive.1 rfl]
      · have h := (h2.threads ha).trans (congrArg (· ++ createdThreads args.subId ncs) (h1.threads rfl))
        rw [List.append_assoc, createdThreads, createdThreads, ← List.map_append, requestedSeconds, requestedSeconds,
          ← List.filterMap_append] at h
        exact h
      · have h := congrArg₂ (· ++ ·) (h1.conds rfl) (h2.conds ha)
        rw [← List.filterMap_append] at h
        exact h
      · have h := ht2.trans (congrArg (· ++ ns2.map Event.notify) ht1)
        rw [List.append_assoc, ← List.map_append] at h
        exact h
      · intro n hn
        rcases List.mem_append.1 hn with hn | hn
        · exact hs1 n hn
        · exact hs2 n hn
      · dsimp only
        have happend : ns1 ++ ns2 ≠ [] ↔ ns1 ≠ [] ∨ ns2 ≠ [] := by
          rw [ne_eq, List.append_eq_nil_iff, not_and_or]
        rw [Bool.or_eq_true, hd2, happend]
        exact or_congr hd1 Iff.rfl

/-! ## Subscribing -/

def DEFAULT_DURATION : String := "PT24H"

/-- `requestP->duration`, after the default is filled in. -/
def subscribeDuration (requestP : SubscribeContextRequest) : String :=
  if requestP.duration = "" then DEFAULT_DURATION else requestP.duration

def subscribedEntity (en : EntityId) : SubEntity := ⟨en.id, some en.type, en.isPattern⟩

def subscribedDoc (requestP : SubscribeContextRequest) (notifyFormat : String) (servicePathV : List String)
    (now : Int) (oid : String) (c : Conditions) : SubDoc where
  oid := oid
  expiration := now + parse8601 (subscribeDuration requestP)
  reference := requestP.reference
  throttling := if requestP.throttling = "" then none else some (parse8601 requestP.throttling)
  servicePath := if servicePathV.headD "" = "" then none else some (servicePathV.headD "")
  entities := requestP.entityIdVector.map subscribedEntity
  attrs := requestP.attributeList
  conditions := c.conds
  lastNotification := if c.notificationDone then some now else none
  count := if c.notificationDone then some 1 else none
  format := some notifyFormat

def subInsertErrorText (env : Env) (tenant : String) (doc : SubDoc) (what : String) : String :=
  "collection: " ++ getSubscribeContextCollectionName env tenant ++ " - insert(): " ++ env.docText doc.toBson ++
  " - exception: " ++ what

/-- `oid` is the identifier the driver makes up. -/
def mongoSubscribeContext (env : Env) (requestP : SubscribeContextRequest) (tenant notifyFormat : String)
    (servicePathV : List String) (now : Int) (oid : String) (w : World) : Option SubscriptionResponse × World :=
  let c := processConditionVector env
    { enV := requestP.entityIdVector, attrL := requestP.attributeList, subId := oid, url := requestP.reference,
      format := if notifyFormat = "XML" then .xml else .json, tenant := tenant, servicePathV := servicePathV }
    requestP.notifyConditionVector w
  if c.died then (none, c.world)
  else
    let doc := subscribedDoc requestP notifyFormat servicePathV now oid c
    let (o, w) := c.world.call
    match o.writeError with
    | some what => (some { subscribeError := ⟨.receiverInternalError, subInsertErrorText env tenant doc what⟩ }, w)
    | none =>
      match w.csubs.insert doc with
      | none =>
        (some { subscribeError :=
            ⟨.receiverInternalError, subInsertErrorText env tenant doc "E11000 duplicate key error"⟩ }, w)
      | some csubs =>
        (some { subscribeResponse := ⟨oid, subscribeDuration requestP, requestP.throttling⟩ },
          { w with csubs := csubs })

/-! ## Updating -/

def isHexDigit (c : Char) : Bool :=
  c.isDigit || ('a' ≤ c && c ≤ 'f') || ('A' ≤ c && c ≤ 'F')

/-- `OID(string)`, in the spelling of `toString`; `none` is the assertion for anything but 24 hexadecimal
digits. -/
def oidOf (s : String) : Option String :=
  if s.toList.length = 24 ∧ s.toList.all isHexDigit = true then some (String.ofList (s.toList.map Char.toLower))
  else none

def INT_MIN : Int := -2 ^ 31

def IsInt32 (n : Int) : Prop := INT_MIN ≤ n ∧ n < 2 ^ 31

instance (n : Int) : Decidable (IsInt32 n) := inferInstanceAs (Decidable (_ ∧ _))

/-- `getIntField` of a number: the value as an `int`. -/
def getIntField (n : Int) : Int := if IsInt32 n then n else INT_MIN

/-- The document that replaces `sub`. -/
def newSub (sub : SubDoc) (requestP : UpdateContextSubscriptionRequest) (inFormat : Format) (now : Int)
    (conds : List SubCond) (notificationDone : Bool) : SubDoc where
  oid := sub.oid
  entities := sub.entities
  attrs := sub.attrs
  reference := cString sub.reference
  expiration := if requestP.duration = "" then sub.expiration else now + parse8601 requestP.duration
  throttling :=
    if requestP.throttling ≠ "" then
      -- a throttling of 0 removes it
      if parse8601 requestP.throttling ≠ 0 then some (parse8601 requestP.throttling) else none
    else sub.throttling
  conditions := conds
  lastNotification := if notificationDone then some now else sub.lastNotification.map getIntField
  count :=
    if notificationDone then some (toInt32 ((sub.count.map getIntField).getD 0 + 1))
    else sub.count.map getIntField
  format := some (formatToString inFormat)

/-- The conditions the new document gets: those of `sub`, or those of the request, whose threads replace
the old ones. -/
def updatedConditions (env : Env) (sub : SubDoc) (requestP : UpdateContextSubscriptionRequest)
    (inFormat : Format) (tenant : String) (servicePathV : List String) (w : World) : Conditions :=
  if requestP.notifyConditionVector.length = 0 then ⟨sub.conditions, false, w, false⟩
  else
    processConditionVector env
      { enV := subToEntityIdVector sub, attrL := subToAttributeList sub, subId := requestP.subscriptionId,
        url := cString sub.reference, format := inFormat, tenant := tenant, servicePathV := servicePathV }
      requestP.notifyConditionVector (w.destroyOntimeIntervalThreads requestP.subscriptionId)

def findOneErrorText (env : Env) (tenant subscriptionId what : String) : String :=
  "collection: " ++ getSubscribeContextCollectionName env tenant ++ " - findOne() _id: " ++ subscriptionId ++
  " - exception: " ++ what

def subUpdateErrorText (env : Env) (tenant subscriptionId : String) (doc : SubDoc) (what : String) : String :=
  "collection: " ++ getSubscribeContextCollectionName env tenant ++ " - update() _id: " ++ subscriptionId ++
  " - update() doc: " ++ env.docText (.obj doc.fields) ++ " - exception: " ++ what

def subscribeErrorResponse (code : HttpStatusCode) (details : String) : SubscriptionResponse :=
  { subscribeError := ⟨code, details⟩ }

/-- A replacement keeps the `_id`. -/
def SubDoc.replacedBy (update s : SubDoc) : SubDoc := { update with oid := s.oid }

/-- Building the new document and replacing the old one (:115-260). -/
def replaceSubscription (env : Env) (sub : SubDoc) (requestP : UpdateContextSubscriptionRequest)
    (inFormat : Format) (tenant : String) (servicePathV : List String) (now : Int) (w : World) :
    Option SubscriptionResponse × World :=
  let c := updatedConditions env sub requestP inFormat tenant servicePathV w
  if c.died then (none, c.world)
  else
    let update := newSub sub requestP inFormat now c.conds c.notificationDone
    let (o, w) := c.world.call
    match o.writeError with
    | some what =>
      (some (subscribeErrorResponse .receiverInternalError
        (subUpdateErrorText env tenant requestP.subscriptionId update what)), w)
    | none =>
      (some { subscribeResponse := ⟨requestP.subscriptionId, requestP.duration, requestP.throttling⟩ },
        w.updateCsub sub.oid update.replacedBy fun _ => rfl)

/-- A null cursor inside `findOne` is an assertion, like a malformed identifier. -/
def mongoUpdateContextSubscription (env : Env) (requestP : UpdateContextSubscriptionRequest) (inFormat : Format)
    (tenant : String) (servicePathV : List String) (now : Int) (w : World) : Option SubscriptionResponse × World :=
  match oidOf requestP.subscriptionId with
  | none => (some (subscribeErrorResponse .contextElementNotFound ""), w)
  | some id =>
    let (o, w) := w.call
    match o with
    | .nullCursor => (some (subscribeErrorResponse .contextElementNotFound ""), w)
    | .dbException what =>
      (some (subscribeErrorResponse .receiverInternalError
        (findOneErrorText env tenant requestP.subscriptionId what)), w)
    | .otherException =>
      (some (subscribeErrorResponse .receiverInternalError
        (findOneErrorText env tenant requestP.subscriptionId "generic")), w)
    | .ok =>
      match w.csubs.docs.find? fun s => s.oid == id with
      | none => (some (subscribeErrorResponse .contextElementNotFound ""), w)
      | some sub => replaceSubscription env sub requestP inFormat tenant servicePathV now w

end OrionBroker
