import OrionBroker.Update.TriggerSpec
import OrionBroker.Subscription.Frame

/-!
# Interval threads and stored subscriptions

The notifier keeps one thread for each ONTIMEINTERVAL condition in a map of its own, beside the database.
`processConditionVector` creates the threads before the document is written, under the identifier as the
request spells it; unsubscribing and start-up go by the database.

| here | there |
| --- | --- |
| `mongoUnsubscribeContext`      | the same (mongoUnsubscribeContext.cpp:41) |
| `recoverOnTimeIntervalThread`  | the same (MongoGlobal.cpp:521) |
| `recoverOntimeIntervalThreads` | the same, with `treatOnTimeIntervalSubscriptions` (MongoGlobal.cpp:469, :564) |
| `ThreadsAgree`                 | what should hold between the two |

`threads_agree_iff`: when one request keeps the agreement, and that it holds along every run of such requests.
-/

namespace OrionBroker

open Mongo

/-! ## Unsubscribing -/

structure UnsubscribeContextResponse where
  subscriptionId : String
  statusCode : StatusCode
deriving DecidableEq, Repr

def removeErrorText (env : Env) (tenant subscriptionId what : String) : String :=
  "collection: " ++ getSubscribeContextCollectionName env tenant ++ " - remove() _id: " ++ subscriptionId ++
  " - exception: " ++ what

/-- A null cursor inside `findOne` is an assertion, like a malformed identifier. -/
def mongoUnsubscribeContext (env : Env) (subscriptionId tenant : String) (w : World) :
    UnsubscribeContextResponse × World :=
  match oidOf subscriptionId with
  | none => (⟨subscriptionId, ⟨.contextElementNotFound, ""⟩⟩, w)
  | some id =>
    let (o, w) := w.call
    match o with
    | .nullCursor => (⟨subscriptionId, ⟨.contextElementNotFound, ""⟩⟩, w)
    | .dbException what =>
      (⟨subscriptionId, ⟨.receiverInternalError, findOneErrorText env tenant subscriptionId what⟩⟩, w)
    | .otherException =>
      (⟨subscriptionId, ⟨.receiverInternalError, findOneErrorText env tenant subscriptionId "generic"⟩⟩, w)
    | .ok =>
      match w.csubs.docs.find? fun s => s.oid == id with
      | none => (⟨subscriptionId, ⟨.contextElementNotFound, "subscriptionId: /" ++ subscriptionId ++ "/"⟩⟩, w)
      | some _ =>
        let (o, w) := w.call
        match o.writeError with
        | some what =>
          (⟨subscriptionId, ⟨.receiverInternalError, removeErrorText env tenant subscriptionId what⟩⟩, w)
        | none =>
          (⟨subscriptionId, ⟨.ok, ""⟩⟩,
            { w with csubs := w.csubs.remove fun s => s.oid == id }.destroyOntimeIntervalThreads subscriptionId)

/-! ## Start-up -/

def recoverOnTimeIntervalThread (sub : SubDoc) (w : World) : World :=
  sub.conditions.foldl (fun w c =>
    match c with
    | .onTimeInterval seconds => w.createIntervalThread sub.oid (getIntField seconds)
    | .onChange _ => w) w

def intervalSubscriptions : Query := .field ["conditions", "type"] (.eq (.str ON_TIMEINTERVAL_CONDITION))

def recoverOntimeIntervalThreads (env : Env) (w : World) : World :=
  let (o, w) := w.call
  match o.queryError with
  | some _ => w
  | none =>
    (w.csubs.find fun s => intervalSubscriptions.matches env.engine s.toBson).foldl
      (fun w s => recoverOnTimeIntervalThread s w) w

/-- The broker starts again on the same database. -/
def World.restarted (env : Env) (w : World) : World := recoverOntimeIntervalThreads env { w with threads := [] }

/-! ## The agreement -/

/-- The interval conditions of a stored subscription. -/
def SubDoc.intervals (s : SubDoc) : List (String × Int) :=
  s.conditions.filterMap fun
    | .onTimeInterval seconds => some (s.oid, seconds)
    | .onChange _ => none

def storedIntervals (csubs : Collection SubDoc String SubDoc.oid) : List (String × Int) :=
  csubs.docs.flatMap SubDoc.intervals

/-- The same threads as stored conditions, as multisets. -/
def ThreadsAgree (w : World) : Prop := w.threads.Perm (storedIntervals w.csubs)

theorem fst_intervals {s : SubDoc} {t : String × Int} (h : t ∈ s.intervals) : t.1 = s.oid := by
  obtain ⟨c, _, hc⟩ := List.mem_filterMap.1 h
  cases c with
  | onTimeInterval seconds => cases hc; rfl
  | onChange _ => cases hc

/-! ## What start-up creates -/

theorem recoverOnTimeIntervalThread_eq (sub : SubDoc) (w : World) :
    recoverOnTimeIntervalThread sub w =
      { w with threads := w.threads ++ sub.intervals.map fun t => (t.1, getIntField t.2) } := by
  unfold recoverOnTimeIntervalThread SubDoc.intervals
  generalize sub.conditions = conds
  induction conds generalizing w with
  | nil => simp
  | cons c conds ih =>
    cases c with
    | onChange _ =>
      simp only [List.foldl_cons, List.filterMap_cons]
      exact ih w
    | onTimeInterval seconds =>
      simp only [List.foldl_cons, List.filterMap_cons, List.map_cons]
      rw [ih]
      simp [World.createIntervalThread]

theorem recoverAll_threads (subs : List SubDoc) (w : World) :
    (subs.foldl (fun w s => recoverOnTimeIntervalThread s w) w).threads =
      w.threads ++ (subs.flatMap SubDoc.intervals).map fun t => (t.1, getIntField t.2) := by
  induction subs generalizing w with
  | nil => simp
  | cons s subs ih =>
    rw [List.foldl_cons, ih, recoverOnTimeIntervalThread_eq]
    simp

/-- A subscription with an interval is found. -/
theorem intervalSubscriptions_matches {E : Engine} {s : SubDoc} (h : s.intervals ≠ []) :
    intervalSubscriptions.matches E s.toBson = true := by
  obtain ⟨t, ht⟩ := List.exists_mem_of_ne_nil _ h
  obtain ⟨c, hc, hct⟩ := List.mem_filterMap.1 ht
  cases c with
  | onChange _ => cases hct
  | onTimeInterval seconds =>
    simp only [intervalSubscriptions, Query.matches, Cond.holds, sub_at_conditions, List.any_eq_true, List.mem_flatMap]
    exact ⟨.str "ONTIMEINTERVAL", ⟨_, hc, by simp [SubCond.toBson, Bson.sub]⟩, by
      simp [Bson.leaves, ON_TIMEINTERVAL_CONDITION]⟩

theorem restarted_threads (env : Env) {w : World} (hq : w.call.1.queryError = none) :
    (w.restarted env).threads = (storedIntervals w.csubs).map fun t => (t.1, getIntField t.2) := by
  have hcall : ({ w with threads := [] } : World).call.1 = w.call.1 := by
    unfold World.call
    cases w.outcomes <;> rfl
  have hsame := ({ w with threads := [] } : World).call_same
  unfold World.restarted recoverOntimeIntervalThreads
  simp only [hcall, hq]
  rw [recoverAll_threads, hsame.threads, hsame.csubs, List.nil_append, storedIntervals]
  congr 1
  -- what is not found has no intervals
  unfold Collection.find
  generalize w.csubs.docs = docs
  induction docs with
  | nil => rfl
  | cons s docs ih =>
    by_cases hm : intervalSubscriptions.matches env.engine s.toBson = true
    · simp [hm, ih]
    · have hs : s.intervals = [] := by
        by_contra h
        exact hm (intervalSubscriptions_matches h)
      simp [hm, hs, ih]

/-! ## The intervals of a request -/

/-- A document with the conditions of a request. -/
theorem intervals_requested {s : SubDoc} {ncs : List NotifyCondition}
    (h : s.conditions = ncs.filterMap storedCondition) :
    s.intervals = (requestedSeconds ncs).map fun n => (s.oid, n) := by
  rw [SubDoc.intervals, h, requestedSeconds, List.filterMap_filterMap, List.map_filterMap]
  refine List.filterMap_congr fun nc _ => ?_
  unfold storedCondition requestedInterval
  by_cases hi : nc.type = ON_TIMEINTERVAL_CONDITION
  · rw [if_pos hi, if_pos hi]
    cases nc.condValueList.head? <;> rfl
  · rw [if_neg hi, if_neg hi]
    by_cases hc : nc.type = ON_CHANGE_CONDITION
    · rw [if_pos hc]; rfl
    · rw [if_neg hc]; rfl

theorem toInt32_range (n : Int) : IsInt32 (toInt32 n) := by
  unfold IsInt32 INT_MIN toInt32
  have h1 := @Int.le_bmod n (2 ^ 32) (by decide)
  have h2 := @Int.bmod_lt n (2 ^ 32) (by decide)
  omega

theorem toInt32_of_range {n : Int} (h : IsInt32 n) : toInt32 n = n := by
  unfold IsInt32 INT_MIN at h
  unfold toInt32
  apply Int.bmod_eq_of_le <;> omega

/-- Cut to `int`, the seconds are as before exactly when all fit. -/
theorem perm_toInt32_iff {subId : String} {l : List Int} :
    (l.map fun n => (subId, toInt32 n)).Perm (l.map fun n => (subId, n)) ↔ ∀ n ∈ l, IsInt32 n := by
  constructor
  · intro h n hn
    obtain ⟨k, _, hk⟩ := List.mem_map.1 (h.mem_iff.2 (List.mem_map_of_mem hn))
    rw [← (Prod.mk.inj hk).2]
    exact toInt32_range k
  · intro h
    rw [List.map_congr_left fun n hn => by rw [toInt32_of_range (h n hn)]]

/-! ## What a request does to threads and documents -/

section
variable {env : Env} {tenant : String} {w : World}

/-- The outcome that the insert of `mongoSubscribeContext` meets, after the calls of the conditions. -/
def insertOutcome (env : Env) (tenant : String) (requestP : SubscribeContextRequest) (notifyFormat : String)
    (servicePathV : List String) (oid : String) (w : World) : Outcome :=
  (processConditionVector env
    { enV := requestP.entityIdVector, attrL := requestP.attributeList, subId := oid, url := requestP.reference,
      format := if notifyFormat = "XML" then .xml else .json, tenant := tenant, servicePathV := servicePathV }
    requestP.notifyConditionVector w).world.call.1

/-- The insert takes effect: no exception, and the identifier is new. -/
def Inserts (env : Env) (tenant : String) (requestP : SubscribeContextRequest) (notifyFormat : String)
    (servicePathV : List String) (oid : String) (w : World) : Prop :=
  (insertOutcome env tenant requestP notifyFormat servicePathV oid w).writeError = none ∧
    oid ∉ w.csubs.docs.map SubDoc.oid

theorem subscribe_alive (requestP : SubscribeContextRequest) (notifyFormat : String) (servicePathV : List String)
    (now : Int) (oid : String) :
    (mongoSubscribeContext env requestP tenant notifyFormat servicePathV now oid w).1.isSome = true ↔
      Valued requestP.notifyConditionVector := by
  unfold mongoSubscribeContext
  extract_lets c doc
  have hrun : ConditionsRun oid requestP.notifyConditionVector w c := processConditionVector_run env
    { enV := requestP.entityIdVector, attrL := requestP.attributeList, subId := oid, url := requestP.reference,
      format := if notifyFormat = "XML" then .xml else .json, tenant := tenant, servicePathV := servicePathV }
    requestP.notifyConditionVector w
  rw [← hrun.alive]
  split
  · rename_i hd
    simp [hd]
  · rename_i hd
    refine iff_of_true ?_ (by simpa using hd)
    dsimp only
    split
    · rfl
    · split <;> rfl

theorem subscribe_step (requestP : SubscribeContextRequest) (notifyFormat : String) (servicePathV : List String)
    (now : Int) (oid : String) (hv : Valued requestP.notifyConditionVector) :
    (mongoSubscribeContext env requestP tenant notifyFormat servicePathV now oid w).2.threads =
      w.threads ++ createdThreads oid requestP.notifyConditionVector ∧
    (Inserts env tenant requestP notifyFormat servicePathV oid w →
      storedIntervals (mongoSubscribeContext env requestP tenant notifyFormat servicePathV now oid w).2.csubs =
          storedIntervals w.csubs ++ (requestedSeconds requestP.notifyConditionVector).map (fun n => (oid, n)) ∧
        ∀ s ∈ (mongoSubscribeContext env requestP tenant notifyFormat servicePathV now oid w).2.csubs.docs,
          s ∈ w.csubs.docs ∨ s.oid = oid) ∧
    (¬ Inserts env tenant requestP notifyFormat servicePathV oid w →
      (mongoSubscribeContext env requestP tenant notifyFormat servicePathV now oid w).2.csubs = w.csubs) := by
  unfold Inserts insertOutcome mongoSubscribeContext
  extract_lets c doc
  have hrun := processConditionVector_run env
    { enV := requestP.entityIdVector, attrL := requestP.attributeList, subId := oid, url := requestP.reference,
      format := if notifyFormat = "XML" then .xml else .json, tenant := tenant, servicePathV := servicePathV }
    requestP.notifyConditionVector w
  have hd : c.died = false := hrun.alive.2 hv
  have hcsubs : c.world.call.2.csubs = w.csubs := c.world.call_same.csubs.trans hrun.csubs
  have hthreads : c.world.call.2.threads = w.threads ++ createdThreads oid requestP.notifyConditionVector :=
    c.world.call_same.threads.trans (hrun.threads hd)
  have hdoc : doc.intervals = (requestedSeconds requestP.notifyConditionVector).map fun n => (oid, n) :=
    intervals_requested (s := doc) (hrun.conds hd)
  rw [if_neg (by simp [hd])]
  dsimp only
  split
  · rename_i what he
    refine ⟨hthreads, fun h => ?_, fun _ => hcsubs⟩
    cases h.1.symm.trans he
  · rename_i he
    split
    · rename_i hi
      -- the identifier exists
      have hmem : oid ∈ w.csubs.docs.map SubDoc.oid := by
        unfold Collection.insert at hi
        rw [hcsubs] at hi
        split at hi
        · assumption
        · cases hi
      exact ⟨hthreads, fun h => absurd hmem h.2, fun _ => hcsubs⟩
    · rename_i csubs hi
      have hdocs : csubs.docs = w.csubs.docs ++ [doc] := by
        rw [Collection.docs_insert hi, hcsubs]
      refine ⟨hthreads, fun _ => ⟨?_, ?_⟩, fun hno => absurd ⟨he, ?_⟩ hno⟩
      · show csubs.docs.flatMap SubDoc.intervals = _
        rw [hdocs, List.flatMap_append, List.flatMap_singleton, hdoc]
        rfl
      · intro s hs
        have hs : s ∈ csubs.docs := hs
        rw [hdocs] at hs
        rcases List.mem_append.1 hs with hs | hs
        · exact .inl hs
        · rw [List.mem_singleton.1 hs]; exact .inr rfl
      · intro hmem
        have hmem : doc.oid ∈ w.csubs.docs.map SubDoc.oid := hmem
        unfold Collection.insert at hi
        rw [hcsubs, dif_pos hmem] at hi
        cases hi

/-- The intervals of the other subscriptions. -/
def otherIntervals (w : World) (oid : String) : List (String × Int) :=
  (w.csubs.docs.filter fun s => decide (s.oid ≠ oid)).flatMap SubDoc.intervals

theorem storedIntervals_perm {s : SubDoc} (hs : s ∈ w.csubs.docs) :
    (storedIntervals w.csubs).Perm (otherIntervals w s.oid ++ s.intervals) := by
  have h := (w.csubs.perm_others hs).flatMap_right SubDoc.intervals
  rw [List.flatMap_append, List.flatMap_singleton] at h
  exact h

/-- The outcome that the update of `mongoUpdateContextSubscription` meets, after `findOne` and the calls of the
conditions. -/
def replaceOutcome (env : Env) (tenant : String) (requestP : UpdateContextSubscriptionRequest) (inFormat : Format)
    (servicePathV : List String) (s : SubDoc) (w : World) : Outcome :=
  (updatedConditions env s requestP inFormat tenant servicePathV w.call.2).world.call.1

theorem updatedConditions_effect {requestP : UpdateContextSubscriptionRequest} {inFormat : Format}
    {servicePathV : List String} {s : SubDoc} (hne : requestP.notifyConditionVector ≠ []) :
    ((updatedConditions env s requestP inFormat tenant servicePathV w).died = false ↔
      Valued requestP.notifyConditionVector) ∧
    (Valued requestP.notifyConditionVector →
      (updatedConditions env s requestP inFormat tenant servicePathV w).world.threads =
        (w.threads.filter fun t => t.1 != requestP.subscriptionId) ++
          createdThreads requestP.subscriptionId requestP.notifyConditionVector ∧
      (updatedConditions env s requestP inFormat tenant servicePathV w).conds =
        requestP.notifyConditionVector.filterMap storedCondition) := by
  have hlen : requestP.notifyConditionVector.length ≠ 0 := fun h => hne (List.length_eq_zero_iff.1 h)
  have hrun := processConditionVector_run env
    { enV := subToEntityIdVector s, attrL := subToAttributeList s, subId := requestP.subscriptionId,
      url := cString s.reference, format := inFormat, tenant := tenant, servicePathV := servicePathV }
    requestP.notifyConditionVector (w.destroyOntimeIntervalThreads requestP.subscriptionId)
  unfold updatedConditions
  rw [if_neg hlen]
  exact ⟨hrun.alive, fun hv => ⟨hrun.threads (hrun.alive.2 hv), hrun.conds (hrun.alive.2 hv)⟩⟩

section
variable {requestP : UpdateContextSubscriptionRequest} {inFormat : Format} {servicePathV : List String} {now : Int}
  {s : SubDoc}

theorem update_found (hs : s ∈ w.csubs.docs) (hid : oidOf requestP.subscriptionId = some s.oid)
    (hok : w.call.1 = .ok) :
    mongoUpdateContextSubscription env requestP inFormat tenant servicePathV now w =
      replaceSubscription env s requestP inFormat tenant servicePathV now w.call.2 := by
  have hs1 : s ∈ w.call.2.csubs.docs := by rw [w.call_same.csubs]; exact hs
  unfold mongoUpdateContextSubscription
  rw [hid]
  dsimp only
  rw [hok]
  dsimp only
  rw [findOne_csubs hs1]

theorem update_notFound (h : ∀ s ∈ w.csubs.docs, oidOf requestP.subscriptionId = some s.oid → w.call.1 ≠ .ok) :
    (mongoUpdateContextSubscription env requestP inFormat tenant servicePathV now w).1.isSome = true ∧
    World.Same w (mongoUpdateContextSubscription env requestP inFormat tenant servicePathV now w).2 := by
  unfold mongoUpdateContextSubscription
  cases hid : oidOf requestP.subscriptionId with
  | none => exact ⟨rfl, World.Same.refl w⟩
  | some id =>
    dsimp only
    split
    · exact ⟨rfl, w.call_same⟩
    · exact ⟨rfl, w.call_same⟩
    · exact ⟨rfl, w.call_same⟩
    · rename_i hok
      split
      · exact ⟨rfl, w.call_same⟩
      · rename_i s hf
        have hs : s ∈ w.csubs.docs := by
          rw [← w.call_same.csubs]
          exact List.mem_of_find?_eq_some hf
        have hk : s.oid = id := by simpa using List.find?_some hf
        exact absurd hok (h s hs (by rw [hid, hk]))

/-- Replacing the document of `s`, on threads and intervals. -/
theorem replace_effect (hs : s ∈ w.csubs.docs)
    (ha : (updatedConditions env s requestP inFormat tenant servicePathV w).died = false) :
    let c := updatedConditions env s requestP inFormat tenant servicePathV w
    let w' := (replaceSubscription env s requestP inFormat tenant servicePathV now w).2
    w'.threads = c.world.threads ∧
    (c.world.call.1.writeError = none → ∃ d : SubDoc, d.oid = s.oid ∧ d.conditions = c.conds ∧
      w'.csubs.docs.Perm ((w.csubs.docs.filter fun x => decide (x.oid ≠ s.oid)) ++ [d])) ∧
    (c.world.call.1.writeError ≠ none → w'.csubs = w.csubs) := by
  intro c w'
  have hcsubs : c.world.call.2.csubs = w.csubs := c.world.call_same.csubs.trans updatedConditions_run.1
  have hthreads : c.world.call.2.threads = c.world.threads := c.world.call_same.threads
  rcases @replaceSubscription_cases env requestP inFormat tenant servicePathV now w s with
    ⟨hd, _⟩ | ⟨_, he, _, _, hw'⟩ | ⟨_, he, _, hw'⟩
  · rw [hd] at ha
    cases ha
  · have hw' : w' = c.world.call.2 := hw'
    rw [hw']
    exact ⟨hthreads, fun hn => absurd hn he, fun _ => hcsubs⟩
  · let update := newSub s requestP inFormat now c.conds c.notificationDone
    have hw' : w' = c.world.call.2.updateCsub s.oid update.replacedBy fun _ => rfl := hw'
    rw [hw']
    refine ⟨hthreads, fun _ => ⟨update.replacedBy s, rfl, rfl, ?_⟩, fun h => absurd he h⟩
    show (c.world.call.2.csubs.modify s.oid update.replacedBy fun _ => rfl).docs.Perm _
    rw [hcsubs]
    exact Collection.perm_modify hs

theorem replace_alive :
    (replaceSubscription env s requestP inFormat tenant servicePathV now w).1.isSome = true ↔
      (updatedConditions env s requestP inFormat tenant servicePathV w).died = false := by
  rcases @replaceSubscription_cases env requestP inFormat tenant servicePathV now w s with
    ⟨hd, he⟩ | ⟨hd, _, _, hsome, _⟩ | ⟨hd, _, ⟨r, hr, _⟩, _⟩
  · rw [he, hd]
    simp
  · exact iff_of_true hsome hd
  · exact iff_of_true (by rw [hr]; rfl) hd

end

/-! ## Unsubscribing -/

theorem unsubscribe_found {subscriptionId : String} {s : SubDoc} (hs : s ∈ w.csubs.docs)
    (hid : oidOf subscriptionId = some s.oid) (hok : w.call.1 = .ok) (hrem : w.call.2.call.1.writeError = none) :
    (mongoUnsubscribeContext env subscriptionId tenant w).2.threads =
      (w.threads.filter fun t => t.1 != subscriptionId) ∧
    (mongoUnsubscribeContext env subscriptionId tenant w).2.csubs.docs =
      w.csubs.docs.filter fun x => decide (x.oid ≠ s.oid) := by
  have hs1 : s ∈ w.call.2.csubs.docs := by rw [w.call_same.csubs]; exact hs
  have hsame := w.call_same.trans w.call.2.call_same
  unfold mongoUnsubscribeContext
  rw [hid]
  dsimp only
  rw [hok]
  dsimp only
  rw [findOne_csubs hs1]
  dsimp only
  rw [hrem]
  refine ⟨?_, ?_⟩
  · show (w.call.2.call.2.threads.filter _) = _
    rw [hsame.threads]
  · show (w.call.2.call.2.csubs.docs.filter fun x => !(x.oid == s.oid)) = _
    rw [hsame.csubs]
    exact List.filter_congr fun x _ => by by_cases h : x.oid = s.oid <;> simp [h]

theorem unsubscribe_notFound {subscriptionId : String}
    (h : ∀ s ∈ w.csubs.docs, oidOf subscriptionId = some s.oid → w.call.1 = .ok →
      w.call.2.call.1.writeError ≠ none) :
    World.Same w (mongoUnsubscribeContext env subscriptionId tenant w).2 := by
  have hsame := w.call_same.trans w.call.2.call_same
  unfold mongoUnsubscribeContext
  cases hid : oidOf subscriptionId with
  | none => exact World.Same.refl w
  | some id =>
    dsimp only
    split
    · exact w.call_same
    · exact w.call_same
    · exact w.call_same
    · rename_i hok
      split
      · exact w.call_same
      · rename_i s hf
        have hs : s ∈ w.csubs.docs := by
          rw [← w.call_same.csubs]
          exact List.mem_of_find?_eq_some hf
        have hk : s.oid = id := by simpa using List.find?_some hf
        split
        · exact hsame
        · rename_i hrem
          exact absurd hrem (h s hs (by rw [hid, hk]) hok)

end

/-! ## One request -/

inductive SubscriptionRequest where
  | subscribe (requestP : SubscribeContextRequest) (notifyFormat : String) (servicePathV : List String) (now : Int)
      (oid : String)
  | update (requestP : UpdateContextSubscriptionRequest) (inFormat : Format) (servicePathV : List String) (now : Int)
  | unsubscribe (subscriptionId : String)
deriving DecidableEq, Repr

/-- The world after an answer; without one the broker has died. -/
def answered {α : Type} (r : Option α × World) : Option World := r.1.map fun _ => r.2

theorem mem_answered {α : Type} {r : Option α × World} {w' : World} :
    w' ∈ answered r ↔ r.1.isSome = true ∧ w' = r.2 := by
  unfold answered
  cases h : r.1 with
  | none => simp
  | some a => simp [eq_comm]

/-- `none` when the broker has died. -/
def SubscriptionRequest.run (env : Env) (tenant : String) (w : World) : SubscriptionRequest → Option World
  | .subscribe requestP notifyFormat servicePathV now oid =>
    answered (mongoSubscribeContext env requestP tenant notifyFormat servicePathV now oid w)
  | .update requestP inFormat servicePathV now =>
    answered (mongoUpdateContextSubscription env requestP inFormat tenant servicePathV now w)
  | .unsubscribe subscriptionId => some (mongoUnsubscribeContext env subscriptionId tenant w).2

/-- When a request leaves threads and documents in agreement. An interval condition has a value, without which the
broker dies. Intervals that are stored fit in an `int`. A subscription that is not stored has none. An update under the
stored spelling of the identifier that fails asks for the intervals it had; under another spelling it concerns no
interval, old or new. Unsubscribing under another spelling concerns none either. -/
def SubscriptionRequest.KeepsThreads (env : Env) (tenant : String) (w : World) : SubscriptionRequest → Prop
  | .subscribe requestP notifyFormat servicePathV _ oid =>
    Valued requestP.notifyConditionVector ∧
    (Inserts env tenant requestP notifyFormat servicePathV oid w →
      ∀ n ∈ requestedSeconds requestP.notifyConditionVector, IsInt32 n) ∧
    (¬ Inserts env tenant requestP notifyFormat servicePathV oid w →
      requestedSeconds requestP.notifyConditionVector = [])
  | .update requestP inFormat servicePathV _ =>
    ∀ s ∈ w.csubs.docs, oidOf requestP.subscriptionId = some s.oid → w.call.1 = .ok →
      requestP.notifyConditionVector ≠ [] →
      Valued requestP.notifyConditionVector ∧
      (requestP.subscriptionId = s.oid →
        ((replaceOutcome env tenant requestP inFormat servicePathV s w).writeError = none →
          ∀ n ∈ requestedSeconds requestP.notifyConditionVector, IsInt32 n) ∧
        ((replaceOutcome env tenant requestP inFormat servicePathV s w).writeError ≠ none →
          (createdThreads s.oid requestP.notifyConditionVector).Perm s.intervals)) ∧
      (requestP.subscriptionId ≠ s.oid →
        requestedSeconds requestP.notifyConditionVector = [] ∧
        ((replaceOutcome env tenant requestP inFormat servicePathV s w).writeError = none → s.intervals = []))
  | .unsubscribe subscriptionId =>
    ∀ s ∈ w.csubs.docs, oidOf subscriptionId = some s.oid → w.call.1 = .ok →
      w.call.2.call.1.writeError = none → subscriptionId = s.oid ∨ s.intervals = []

instance (env : Env) (tenant : String) (requestP : SubscribeContextRequest) (notifyFormat : String)
    (servicePathV : List String) (oid : String) (w : World) :
    Decidable (Inserts env tenant requestP notifyFormat servicePathV oid w) :=
  inferInstanceAs (Decidable (_ ∧ _))

instance (env : Env) (tenant : String) (w : World) (r : SubscriptionRequest) :
    Decidable (r.KeepsThreads env tenant w) :=
  match r with
  | .subscribe .. => inferInstanceAs (Decidable (_ ∧ _))
  | .update .. => inferInstanceAs (Decidable (∀ s ∈ _, _))
  | .unsubscribe _ => inferInstanceAs (Decidable (∀ s ∈ _, _))

/-- The agreement, with what it needs: the stored intervals fit in an `int`, and identifiers are spelled as
`OID::toString` does. -/
structure ThreadsInv (w : World) : Prop where
  agree : ThreadsAgree w
  fits : ∀ t ∈ storedIntervals w.csubs, IsInt32 t.2
  spelled : ∀ s ∈ w.csubs.docs, oidOf s.oid = some s.oid

theorem perm_append_iff {α : Type} {a b c d : List α} (h : a.Perm b) : (a ++ c).Perm (b ++ d) ↔ c.Perm d := by
  rw [← @List.perm_append_left_iff _ c d b]
  exact ⟨fun hp => (h.symm.append_right c).trans hp, fun hp => (h.append_right c).trans hp⟩

section
variable {env : Env} {tenant : String} {w : World}

/-- The threads of the other subscriptions. -/
theorem ThreadsInv.others (h : ThreadsInv w) {s : SubDoc} (hs : s ∈ w.csubs.docs) :
    (w.threads.filter fun t => t.1 != s.oid).Perm (otherIntervals w s.oid) := by
  have hp := (h.agree.trans (storedIntervals_perm hs)).filter fun t => t.1 != s.oid
  have hown : (s.intervals.filter fun t => t.1 != s.oid) = [] :=
    List.filter_eq_nil_iff.2 fun t ht => by simp [fst_intervals ht]
  have hothers : ((otherIntervals w s.oid).filter fun t => t.1 != s.oid) = otherIntervals w s.oid := by
    refine List.filter_eq_self.2 fun t ht => ?_
    obtain ⟨x, hx, hxt⟩ := List.mem_flatMap.1 ht
    have hne := (List.mem_filter.1 hx).2
    rw [fst_intervals hxt]
    simpa using hne
  rw [List.filter_append, hown, hothers, List.append_nil] at hp
  exact hp

/-- No thread has an identifier in another spelling. -/
theorem ThreadsInv.unspelled (h : ThreadsInv w) {subId id : String} (hid : oidOf subId = some id) (hne : subId ≠ id) :
    (w.threads.filter fun t => t.1 != subId) = w.threads := by
  refine List.filter_eq_self.2 fun t ht => ?_
  obtain ⟨x, hx, hxt⟩ := List.mem_flatMap.1 (h.agree.mem_iff.1 ht)
  have hk := fst_intervals hxt
  have hne' : t.1 ≠ subId := by
    intro he
    have hsp := h.spelled x hx
    rw [← hk, he, hid] at hsp
    exact hne (Option.some.inj hsp).symm
  simpa using hne'

theorem subscribe_agree_iff (h : ThreadsInv w) (requestP : SubscribeContextRequest) (notifyFormat : String)
    (servicePathV : List String) (now : Int) (oid : String) :
    (∃ w' ∈ (SubscriptionRequest.subscribe requestP notifyFormat servicePathV now oid).run env tenant w, ThreadsAgree w') ↔
      (SubscriptionRequest.subscribe requestP notifyFormat servicePathV now oid).KeepsThreads env tenant w := by
  unfold SubscriptionRequest.KeepsThreads SubscriptionRequest.run
  simp only [mem_answered, subscribe_alive, and_assoc, exists_and_left, exists_eq_left]
  refine and_congr_right fun hv => ?_
  obtain ⟨hthreads, hins, hno⟩ := @subscribe_step env tenant w requestP notifyFormat servicePathV now oid hv
  unfold ThreadsAgree
  rw [hthreads]
  by_cases hi : Inserts env tenant requestP notifyFormat servicePathV oid w
  · rw [(hins hi).1, perm_append_iff h.agree, createdThreads, perm_toInt32_iff]
    exact ⟨fun hf => ⟨fun _ => hf, fun hn => absurd hi hn⟩, fun hf => hf.1 hi⟩
  · rw [hno hi]
    have hp := @perm_append_iff _ w.threads (storedIntervals w.csubs)
      (createdThreads oid requestP.notifyConditionVector) [] h.agree
    rw [List.append_nil] at hp
    rw [hp, List.perm_nil, createdThreads, List.map_eq_nil_iff]
    exact ⟨fun hf => ⟨fun hy => absurd hy hi, fun _ => hf⟩, fun hf => hf.2 hi⟩

theorem unsubscribe_agree_iff (h : ThreadsInv w) (subscriptionId : String) :
    ThreadsAgree (mongoUnsubscribeContext env subscriptionId tenant w).2 ↔
      (SubscriptionRequest.unsubscribe subscriptionId).KeepsThreads env tenant w := by
  unfold SubscriptionRequest.KeepsThreads
  by_cases hf : ∃ s ∈ w.csubs.docs, oidOf subscriptionId = some s.oid ∧ w.call.1 = .ok ∧
      w.call.2.call.1.writeError = none
  · obtain ⟨s, hs, hid, hok, hrem⟩ := hf
    obtain ⟨hthreads, hcsubs⟩ := @unsubscribe_found env tenant w subscriptionId s hs hid hok hrem
    have hstored : storedIntervals (mongoUnsubscribeContext env subscriptionId tenant w).2.csubs =
        otherIntervals w s.oid := by rw [storedIntervals, hcsubs]; rfl
    have hone : ∀ x ∈ w.csubs.docs, oidOf subscriptionId = some x.oid → x = s := by
      intro x hx hxid
      rw [hid] at hxid
      exact w.csubs.eq_of_key hx hs (Option.some.inj hxid).symm
    unfold ThreadsAgree
    rw [hthreads, hstored]
    by_cases hsp : subscriptionId = s.oid
    · rw [hsp]
      refine ⟨fun _ x hx hxid _ _ => ?_, fun _ => h.others hs⟩
      rw [← hsp] at hxid
      rw [hone x hx hxid]
      exact .inl rfl
    · rw [h.unspelled hid hsp]
      have hp := @perm_append_iff _ _ _ s.intervals [] (List.Perm.refl (otherIntervals w s.oid))
      rw [List.append_nil, List.perm_nil] at hp
      constructor
      · intro ha x hx hxid _ _
        rw [hone x hx hxid]
        exact .inr (hp.1 ((h.agree.trans (storedIntervals_perm hs)).symm.trans ha))
      · intro hk
        have hnil : s.intervals = [] := (hk s hs hid hok hrem).resolve_left hsp
        have hst := storedIntervals_perm hs
        rw [hnil, List.append_nil] at hst
        exact h.agree.trans hst
  · have hnf : ∀ s ∈ w.csubs.docs, oidOf subscriptionId = some s.oid → w.call.1 = .ok →
        w.call.2.call.1.writeError ≠ none := fun s hs hid hok hrem => hf ⟨s, hs, hid, hok, hrem⟩
    have hsame := @unsubscribe_notFound env tenant w subscriptionId hnf
    unfold ThreadsAgree
    rw [hsame.threads, hsame.csubs]
    exact ⟨fun _ s hs hid hok hrem => absurd hrem (hnf s hs hid hok), fun _ => h.agree⟩

/-- What an update of a stored subscription leaves of the threads and of the intervals. -/
theorem update_effect {requestP : UpdateContextSubscriptionRequest} {inFormat : Format} {servicePathV : List String}
    {s : SubDoc} (now : Int) (hs : s ∈ w.csubs.docs) (hid : oidOf requestP.subscriptionId = some s.oid)
    (hok : w.call.1 = .ok) (hne : requestP.notifyConditionVector ≠ []) (hv : Valued requestP.notifyConditionVector) :
    let w' := (mongoUpdateContextSubscription env requestP inFormat tenant servicePathV now w).2
    w'.threads = (w.threads.filter fun t => t.1 != requestP.subscriptionId) ++
      createdThreads requestP.subscriptionId requestP.notifyConditionVector ∧
    ((replaceOutcome env tenant requestP inFormat servicePathV s w).writeError = none →
      (storedIntervals w'.csubs).Perm (otherIntervals w s.oid ++
        (requestedSeconds requestP.notifyConditionVector).map fun n => (s.oid, n))) ∧
    ((replaceOutcome env tenant requestP inFormat servicePathV s w).writeError ≠ none → w'.csubs = w.csubs) := by
  intro w'
  have hw' : w' = (replaceSubscription env s requestP inFormat tenant servicePathV now w.call.2).2 :=
    congrArg Prod.snd (update_found hs hid hok)
  have hs1 : s ∈ w.call.2.csubs.docs := by rw [w.call_same.csubs]; exact hs
  obtain ⟨halive, heffect⟩ := @updatedConditions_effect env tenant w.call.2 requestP inFormat servicePathV s hne
  obtain ⟨hthreads, hconds⟩ := heffect hv
  obtain ⟨hth, hins, hno⟩ :=
    @replace_effect env tenant w.call.2 requestP inFormat servicePathV now s hs1 (halive.2 hv)
  rw [← hw'] at hth hins hno
  rw [w.call_same.threads] at hthreads
  rw [w.call_same.csubs] at hins hno
  refine ⟨hth.trans hthreads, fun he => ?_, hno⟩
  obtain ⟨d, hdoid, hdconds, hp⟩ := hins he
  have hd := intervals_requested (hdconds.trans hconds)
  rw [hdoid] at hd
  have hperm := hp.flatMap_right SubDoc.intervals
  rw [List.flatMap_append, List.flatMap_singleton, hd] at hperm
  exact hperm

/-- A condition without its value in an update of a stored subscription, and only that, is the death of the broker. -/
theorem update_alive {requestP : UpdateContextSubscriptionRequest} {inFormat : Format} {servicePathV : List String}
    (now : Int) :
    (mongoUpdateContextSubscription env requestP inFormat tenant servicePathV now w).1.isSome = true ↔
      ∀ s ∈ w.csubs.docs, oidOf requestP.subscriptionId = some s.oid → w.call.1 = .ok →
        requestP.notifyConditionVector ≠ [] → Valued requestP.notifyConditionVector := by
  by_cases hf : ∃ s ∈ w.csubs.docs, oidOf requestP.subscriptionId = some s.oid ∧ w.call.1 = .ok
  · obtain ⟨s, hs, hid, hok⟩ := hf
    rw [update_found hs hid hok, replace_alive]
    by_cases hnil : requestP.notifyConditionVector = []
    · have hc : updatedConditions env s requestP inFormat tenant servicePathV w.call.2 =
          ⟨s.conditions, false, w.call.2, false⟩ := by
        unfold updatedConditions
        rw [hnil]
        rfl
      rw [hc]
      exact iff_of_true rfl fun _ _ _ _ hne => absurd hnil hne
    · rw [(updatedConditions_effect hnil).1]
      exact ⟨fun hv _ _ _ _ _ => hv, fun h => h s hs hid hok hnil⟩
  · have hnf : ∀ s ∈ w.csubs.docs, oidOf requestP.subscriptionId = some s.oid → w.call.1 ≠ .ok :=
      fun s hs hid hok => hf ⟨s, hs, hid, hok⟩
    exact iff_of_true (update_notFound hnf).1 fun s hs hid hok => absurd hok (hnf s hs hid)

/-- An update without conditions. -/
theorem update_noConditions {requestP : UpdateContextSubscriptionRequest} {inFormat : Format}
    {servicePathV : List String} (now : Int) (hnil : requestP.notifyConditionVector = []) :
    let w' := (mongoUpdateContextSubscription env requestP inFormat tenant servicePathV now w).2
    w'.threads = w.threads ∧ (storedIntervals w'.csubs).Perm (storedIntervals w.csubs) := by
  intro w'
  by_cases hf : ∃ s ∈ w.csubs.docs, oidOf requestP.subscriptionId = some s.oid ∧ w.call.1 = .ok
  · obtain ⟨s, hs, hid, hok⟩ := hf
    have hw' : w' = (replaceSubscription env s requestP inFormat tenant servicePathV now w.call.2).2 :=
      congrArg Prod.snd (update_found hs hid hok)
    have hs1 : s ∈ w.call.2.csubs.docs := by rw [w.call_same.csubs]; exact hs
    have hc : updatedConditions env s requestP inFormat tenant servicePathV w.call.2 =
        ⟨s.conditions, false, w.call.2, false⟩ := by
      unfold updatedConditions
      rw [hnil]
      rfl
    obtain ⟨hth, hins, hno⟩ :=
      @replace_effect env tenant w.call.2 requestP inFormat servicePathV now s hs1 (by rw [hc])
    rw [← hw', hc] at hth hins hno
    rw [w.call_same.csubs] at hins hno
    refine ⟨hth.trans w.call_same.threads, ?_⟩
    by_cases he : w.call.2.call.1.writeError = none
    · obtain ⟨d, hdoid, hdconds, hp⟩ := hins he
      have hd : d.intervals = s.intervals := by
        unfold SubDoc.intervals
        rw [hdoid, hdconds]
      have hperm := hp.flatMap_right SubDoc.intervals
      rw [List.flatMap_append, List.flatMap_singleton, hd] at hperm
      exact hperm.trans (storedIntervals_perm hs).symm
    · rw [hno he]
  · have hsame := (@update_notFound env tenant w requestP inFormat servicePathV now
      fun s hs hid hok => hf ⟨s, hs, hid, hok⟩).2
    rw [hsame.threads, hsame.csubs]
    exact ⟨rfl, .refl _⟩

/-- Old intervals under the stored spelling and new threads under another are the new intervals only when there
are none. -/
theorem perm_spelled_iff {s : SubDoc} {subId : String} (hne : subId ≠ s.oid) {f : Int → Int} {l : List Int} :
    (s.intervals ++ l.map fun n => (subId, f n)).Perm (l.map fun n => (s.oid, n)) ↔ l = [] ∧ s.intervals = [] := by
  constructor
  · intro h
    have hl : l = [] := by
      refine List.eq_nil_iff_forall_not_mem.2 fun n hn => ?_
      have hmem := h.mem_iff.1 (List.mem_append_right s.intervals (List.mem_map_of_mem hn))
      obtain ⟨m, _, hm⟩ := List.mem_map.1 hmem
      exact hne (Prod.mk.inj hm).1.symm
    rw [hl, List.map_nil, List.map_nil, List.append_nil, List.perm_nil] at h
    exact ⟨hl, h⟩
  · rintro ⟨rfl, h⟩
    rw [h, List.map_nil, List.map_nil, List.append_nil]

theorem update_agree_iff (h : ThreadsInv w) (requestP : UpdateContextSubscriptionRequest) (inFormat : Format)
    (servicePathV : List String) (now : Int) :
    (∃ w' ∈ (SubscriptionRequest.update requestP inFormat servicePathV now).run env tenant w, ThreadsAgree w') ↔
      (SubscriptionRequest.update requestP inFormat servicePathV now).KeepsThreads env tenant w := by
  unfold SubscriptionRequest.KeepsThreads SubscriptionRequest.run
  simp only [mem_answered, update_alive, and_assoc, exists_and_left, exists_eq_left]
  by_cases hnil : requestP.notifyConditionVector = []
  · obtain ⟨hthreads, hstored⟩ := @update_noConditions env tenant w requestP inFormat servicePathV now hnil
    unfold ThreadsAgree
    rw [hthreads]
    exact ⟨fun _ _ _ _ _ hne => absurd hnil hne,
      fun _ => ⟨fun _ _ _ _ hne => absurd hnil hne, h.agree.trans hstored.symm⟩⟩
  by_cases hf : ∃ s ∈ w.csubs.docs, oidOf requestP.subscriptionId = some s.oid ∧ w.call.1 = .ok
  · obtain ⟨s, hs, hid, hok⟩ := hf
    -- the condition is about this document only
    have hone : ∀ {P : SubDoc → Prop}, (∀ x ∈ w.csubs.docs, oidOf requestP.subscriptionId = some x.oid →
        w.call.1 = .ok → requestP.notifyConditionVector ≠ [] → P x) ↔ P s := by
      intro P
      refine ⟨fun hall => hall s hs hid hok hnil, fun hp x hx hxid _ _ => ?_⟩
      rw [hid] at hxid
      rwa [w.csubs.eq_of_key hx hs (Option.some.inj hxid).symm]
    refine Iff.trans (and_congr_left fun _ => hone (P := fun _ => Valued requestP.notifyConditionVector)) ?_
    rw [hone]
    refine and_congr_right fun hv => ?_
    obtain ⟨hthreads, hins, hno⟩ :=
      @update_effect env tenant w requestP inFormat servicePathV s now hs hid hok hnil hv
    have hold := storedIntervals_perm hs
    unfold ThreadsAgree
    rw [hthreads]
    by_cases hsp : requestP.subscriptionId = s.oid
    · have hothers : (w.threads.filter fun t => t.1 != requestP.subscriptionId).Perm (otherIntervals w s.oid) := by
        rw [hsp]
        exact h.others hs
      by_cases he : (replaceOutcome env tenant requestP inFormat servicePathV s w).writeError = none
      · rw [(hins he).congr_right, perm_append_iff hothers, createdThreads, hsp, perm_toInt32_iff]
        exact ⟨fun hfit => ⟨fun _ => ⟨fun _ => hfit, fun hn => absurd he hn⟩, fun hn => absurd rfl hn⟩,
          fun hk => (hk.1 rfl).1 he⟩
      · rw [hno he, hold.congr_right, perm_append_iff hothers, hsp]
        exact ⟨fun hp => ⟨fun _ => ⟨fun hn => absurd hn he, fun _ => hp⟩, fun hn => absurd rfl hn⟩,
          fun hk => (hk.1 rfl).2 he⟩
    · rw [h.unspelled hid hsp]
      by_cases he : (replaceOutcome env tenant requestP inFormat servicePathV s w).writeError = none
      · have hth : (w.threads ++ createdThreads requestP.subscriptionId requestP.notifyConditionVector).Perm
            (otherIntervals w s.oid ++
              (s.intervals ++ createdThreads requestP.subscriptionId requestP.notifyConditionVector)) := by
          rw [← List.append_assoc]
          exact (h.agree.trans hold).append_right _
        rw [(hins he).congr_right, hth.congr_left, perm_append_iff (.refl _), createdThreads,
          perm_spelled_iff hsp]
        exact ⟨fun hp => ⟨fun hn => absurd hn hsp, fun _ => ⟨hp.1, fun _ => hp.2⟩⟩,
          fun hk => ⟨(hk.2 hsp).1, (hk.2 hsp).2 he⟩⟩
      · have hp := @perm_append_iff _ w.threads (storedIntervals w.csubs)
          (createdThreads requestP.subscriptionId requestP.notifyConditionVector) [] h.agree
        rw [List.append_nil] at hp
        rw [hno he, hp, List.perm_nil, createdThreads, List.map_eq_nil_iff]
        exact ⟨fun hl => ⟨fun hn => absurd hn hsp, fun _ => ⟨hl, fun hn => absurd hn he⟩⟩, fun hk => (hk.2 hsp).1⟩
  · have hnf : ∀ s ∈ w.csubs.docs, oidOf requestP.subscriptionId = some s.oid → w.call.1 ≠ .ok :=
      fun s hs hid hok => hf ⟨s, hs, hid, hok⟩
    have hsame := (@update_notFound env tenant w requestP inFormat servicePathV now hnf).2
    unfold ThreadsAgree
    rw [hsame.threads, hsame.csubs]
    exact ⟨fun _ s hs hid hok => absurd hok (hnf s hs hid),
      fun _ => ⟨fun s hs hid hok => absurd hok (hnf s hs hid), h.agree⟩⟩

/-- **Exactly when a request keeps the agreement**, and the broker alive. -/
theorem request_agree_iff (h : ThreadsInv w) (r : SubscriptionRequest) :
    (∃ w' ∈ r.run env tenant w, ThreadsAgree w') ↔ r.KeepsThreads env tenant w := by
  cases r with
  | subscribe requestP notifyFormat servicePathV now oid =>
    exact subscribe_agree_iff h requestP notifyFormat servicePathV now oid
  | update requestP inFormat servicePathV now => exact update_agree_iff h requestP inFormat servicePathV now
  | unsubscribe subscriptionId =>
    have hone : (∃ w' ∈ (SubscriptionRequest.unsubscribe subscriptionId).run env tenant w, ThreadsAgree w') ↔
        ThreadsAgree (mongoUnsubscribeContext env subscriptionId tenant w).2 := by
      simp [SubscriptionRequest.run]
    exact hone.trans (unsubscribe_agree_iff h subscriptionId)

/-! ## Runs -/

/-- The identifier that the driver makes for a new subscription: 24 hexadecimal digits in lower case. -/
def SubscriptionRequest.Spelled : SubscriptionRequest → Prop
  | .subscribe _ _ _ _ oid => oidOf oid = some oid
  | .update .. => True
  | .unsubscribe _ => True

theorem createdThreads_fit {subId : String} {ncs : List NotifyCondition} {t : String × Int}
    (h : t ∈ createdThreads subId ncs) : IsInt32 t.2 := by
  rw [createdThreads] at h
  obtain ⟨n, _, rfl⟩ := List.mem_map.1 h
  exact toInt32_range n

/-- A thread that a request leaves was there, or has an interval of type `int`. -/
theorem run_threads (r : SubscriptionRequest) {w' : World} (hw : w' ∈ r.run env tenant w) :
    ∀ t ∈ w'.threads, t ∈ w.threads ∨ IsInt32 t.2 := by
  intro t ht
  cases r with
  | subscribe requestP notifyFormat servicePathV now oid =>
    obtain ⟨ha, rfl⟩ := mem_answered.1 hw
    rw [(subscribe_step requestP notifyFormat servicePathV now oid
      ((subscribe_alive requestP notifyFormat servicePathV now oid).1 ha)).1] at ht
    exact (List.mem_append.1 ht).imp_right createdThreads_fit
  | update requestP inFormat servicePathV now =>
    obtain ⟨ha, rfl⟩ := mem_answered.1 hw
    by_cases hnil : requestP.notifyConditionVector = []
    · rw [(update_noConditions now hnil).1] at ht
      exact .inl ht
    by_cases hf : ∃ s ∈ w.csubs.docs, oidOf requestP.subscriptionId = some s.oid ∧ w.call.1 = .ok
    · obtain ⟨s, hs, hid, hok⟩ := hf
      rw [(update_effect now hs hid hok hnil ((update_alive now).1 ha s hs hid hok hnil)).1] at ht
      exact (List.mem_append.1 ht).imp (fun h => List.mem_of_mem_filter h) createdThreads_fit
    · rw [(update_notFound fun s hs hid hok => hf ⟨s, hs, hid, hok⟩).2.threads] at ht
      exact .inl ht
  | unsubscribe subscriptionId =>
    obtain rfl := (Option.some.inj hw).symm
    by_cases hf : ∃ s ∈ w.csubs.docs, oidOf subscriptionId = some s.oid ∧ w.call.1 = .ok ∧
        w.call.2.call.1.writeError = none
    · obtain ⟨s, hs, hid, hok, hrem⟩ := hf
      rw [(unsubscribe_found hs hid hok hrem).1] at ht
      exact .inl (List.mem_of_mem_filter ht)
    · rw [(unsubscribe_notFound fun s hs hid hok hrem => hf ⟨s, hs, hid, hok, hrem⟩).threads] at ht
      exact .inl ht

/-- Documents keep their identifiers; a new one has the identifier of its request. -/
theorem run_spelled {r : SubscriptionRequest} (hr : r.Spelled) (h : ∀ s ∈ w.csubs.docs, oidOf s.oid = some s.oid)
    {w' : World} (hw : w' ∈ r.run env tenant w) : ∀ s ∈ w'.csubs.docs, oidOf s.oid = some s.oid := by
  intro x hx
  cases r with
  | subscribe requestP notifyFormat servicePathV now oid =>
    obtain ⟨ha, rfl⟩ := mem_answered.1 hw
    obtain ⟨_, hins, hno⟩ := @subscribe_step env tenant w requestP notifyFormat servicePathV now oid
      ((subscribe_alive requestP notifyFormat servicePathV now oid).1 ha)
    by_cases hi : Inserts env tenant requestP notifyFormat servicePathV oid w
    · rcases (hins hi).2 x hx with hx | hx
      · exact h x hx
      · rw [hx]; exact hr
    · rw [hno hi] at hx
      exact h x hx
  | update requestP inFormat servicePathV now =>
    obtain ⟨ha, rfl⟩ := mem_answered.1 hw
    by_cases hf : ∃ s ∈ w.csubs.docs, oidOf requestP.subscriptionId = some s.oid ∧ w.call.1 = .ok
    · obtain ⟨s, hs, hid, hok⟩ := hf
      have hs1 : s ∈ w.call.2.csubs.docs := by rw [w.call_same.csubs]; exact hs
      rw [update_found hs hid hok] at hx ha
      obtain ⟨_, hins, hno⟩ :=
        @replace_effect env tenant w.call.2 requestP inFormat servicePathV now s hs1 (replace_alive.1 ha)
      rw [w.call_same.csubs] at hins hno
      by_cases he :
          (updatedConditions env s requestP inFormat tenant servicePathV w.call.2).world.call.1.writeError = none
      · obtain ⟨d, hdoid, _, hp⟩ := hins he
        rcases List.mem_append.1 (hp.mem_iff.1 hx) with hx | hx
        · exact h x (List.mem_of_mem_filter hx)
        · rw [List.mem_singleton.1 hx, hdoid]
          exact h s hs
      · rw [hno he] at hx
        exact h x hx
    · rw [(update_notFound fun s hs hid hok => hf ⟨s, hs, hid, hok⟩).2.csubs] at hx
      exact h x hx
  | unsubscribe subscriptionId =>
    obtain rfl := (Option.some.inj hw).symm
    by_cases hf : ∃ s ∈ w.csubs.docs, oidOf subscriptionId = some s.oid ∧ w.call.1 = .ok ∧
        w.call.2.call.1.writeError = none
    · obtain ⟨s, hs, hid, hok, hrem⟩ := hf
      rw [(unsubscribe_found hs hid hok hrem).2] at hx
      exact h x (List.mem_of_mem_filter hx)
    · rw [(unsubscribe_notFound fun s hs hid hok hrem => hf ⟨s, hs, hid, hok, hrem⟩).csubs] at hx
      exact h x hx

/-- Step: a request that keeps the agreement keeps the invariant. -/
theorem run_inv (h : ThreadsInv w) {r : SubscriptionRequest} (hr : r.Spelled) (hk : r.KeepsThreads env tenant w)
    {w' : World} (hw : w' ∈ r.run env tenant w) : ThreadsInv w' := by
  have hagree : ThreadsAgree w' := by
    obtain ⟨w1, h1, hagree⟩ := (request_agree_iff h r).2 hk
    rwa [Option.mem_unique hw h1]
  refine ⟨hagree, fun t ht => ?_, run_spelled hr h.spelled hw⟩
  rcases run_threads r hw t (hagree.mem_iff.2 ht) with hold | hfit
  · exact h.fits t (h.agree.mem_iff.1 hold)
  · exact hfit

/-- An empty database and no threads. -/
theorem ThreadsInv.ofEmpty (hc : w.csubs.docs = []) (ht : w.threads = []) : ThreadsInv w := by
  have hs : storedIntervals w.csubs = [] := by rw [storedIntervals, hc]; rfl
  refine ⟨?_, ?_, ?_⟩
  · rw [ThreadsAgree, ht, hs]
  · rw [hs]; exact nofun
  · intro s hmem
    rw [hc] at hmem
    cases hmem

/-- Start-up gives the threads back. -/
theorem ThreadsInv.restarted (h : ThreadsInv w) (hq : w.call.1.queryError = none) :
    (w.restarted env).threads.Perm w.threads := by
  rw [restarted_threads env hq]
  have hid : ((storedIntervals w.csubs).map fun t => (t.1, getIntField t.2)) = storedIntervals w.csubs := by
    conv_rhs => rw [← List.map_id (storedIntervals w.csubs)]
    refine List.map_congr_left fun t ht => ?_
    have hfit : getIntField t.2 = t.2 := if_pos (h.fits t ht)
    rw [hfit]
    rfl
  rw [hid]
  exact h.agree.symm

/-- `none` when the broker has died on the way. -/
def runRequests (env : Env) (tenant : String) (w : World) : List SubscriptionRequest → Option World
  | [] => some w
  | r :: rs => (r.run env tenant w).bind fun w => runRequests env tenant w rs

/-- Every request of a run meets its condition, in the state it finds. -/
def KeepsAll (env : Env) (tenant : String) : World → List SubscriptionRequest → Prop
  | _, [] => True
  | w, r :: rs => r.KeepsThreads env tenant w ∧ ∀ w' ∈ r.run env tenant w, KeepsAll env tenant w' rs

instance decidableKeepsAll (env : Env) (tenant : String) :
    (w : World) → (rs : List SubscriptionRequest) → Decidable (KeepsAll env tenant w rs)
  | _, [] => .isTrue trivial
  | w, r :: rs =>
    have : Decidable (∀ w' ∈ r.run env tenant w, KeepsAll env tenant w' rs) :=
      match h : r.run env tenant w with
      | none => .isTrue nofun
      | some w' =>
        have := decidableKeepsAll env tenant w' rs
        decidable_of_iff (KeepsAll env tenant w' rs) (by simp)
    inferInstanceAs (Decidable (_ ∧ _))

/-- The threads are those of the documents, and start-up on these documents creates the same. -/
def ThreadsConsistent (env : Env) (w : World) : Prop :=
  ThreadsAgree w ∧ (w.call.1.queryError = none → (w.restarted env).threads.Perm w.threads)

theorem ThreadsInv.consistent (h : ThreadsInv w) : ThreadsConsistent env w := ⟨h.agree, h.restarted⟩

/-- **Exactly when the threads agree with the database all along.** The broker is alive after every part of a run, and
in every state that it reaches the threads are those of the stored conditions and start-up creates the same, if and only
if each request meets its condition in the state it finds. -/
theorem threads_agree_iff (h : ThreadsInv w) (rs : List SubscriptionRequest) (hsp : ∀ r ∈ rs, r.Spelled) :
    (∀ p, p <+: rs → ∃ w' ∈ runRequests env tenant w p, ThreadsConsistent env w') ↔ KeepsAll env tenant w rs := by
  induction rs generalizing w with
  | nil =>
    refine ⟨fun _ => trivial, fun _ p hp => ?_⟩
    rw [List.prefix_nil.1 hp]
    exact ⟨w, rfl, h.consistent⟩
  | cons r rs ih =>
    have hr : r.Spelled := hsp r List.mem_cons_self
    have hrs : ∀ x ∈ rs, x.Spelled := fun x hx => hsp x (List.mem_cons_of_mem r hx)
    constructor
    · intro hall
      have hk : r.KeepsThreads env tenant w := by
        obtain ⟨w1, hw1, hone⟩ := hall [r] ⟨rs, rfl⟩
        obtain ⟨w2, hw2, hrun⟩ := Option.bind_eq_some_iff.1 hw1
        cases hrun
        exact (request_agree_iff h r).1 ⟨w1, hw2, hone.1⟩
      refine ⟨hk, fun w' hw => (ih (run_inv h hr hk hw) hrs).1 fun p hp => ?_⟩
      obtain ⟨w1, hw1, hone⟩ := hall (r :: p) (List.prefix_cons_iff.2 (.inr ⟨p, rfl, hp⟩))
      obtain ⟨w2, hw2, hrun⟩ := Option.bind_eq_some_iff.1 hw1
      rw [Option.mem_unique hw hw2]
      exact ⟨w1, hrun, hone⟩
    · rintro ⟨hk, hks⟩ p hp
      rcases List.prefix_cons_iff.1 hp with rfl | ⟨q, rfl, hq⟩
      · exact ⟨w, rfl, h.consistent⟩
      · obtain ⟨w1, hw1, -⟩ := (request_agree_iff h r).2 hk
        obtain ⟨w2, hw2, hone⟩ := (ih (run_inv h hr hk hw1) hrs).2 (hks w1 hw1) q hq
        exact ⟨w2, Option.bind_eq_some_iff.2 ⟨w1, hw1, hw2⟩, hone⟩

end

/-! ## Two runs -/

/-- A subscription to one room with an interval. -/
def subscribeAtInterval (interval : String) : SubscriptionRequest :=
  .subscribe
    { entityIdVector := [{ id := "Room", type := "T", isPattern := "false" }], reference := "http://host/notify",
      notifyConditionVector := [⟨"ONTIMEINTERVAL", [interval]⟩] }
    "JSON" [] 100 "51c0ac9ed714fb3b37d7d5a8"

/-- Subscribe, change the interval, unsubscribe. -/
def intervalRun : List SubscriptionRequest :=
  [subscribeAtInterval "PT5S",
   .update { subscriptionId := "51c0ac9ed714fb3b37d7d5a8",
             notifyConditionVector := [⟨"ONTIMEINTERVAL", ["PT10S"]⟩] } .json [] 200,
   .unsubscribe "51c0ac9ed714fb3b37d7d5a8"]

theorem intervalRun_agrees :
    KeepsAll (Env.plain fun _ _ => false) "" {} intervalRun ∧
    (runRequests (Env.plain fun _ _ => false) "" {} (intervalRun.take 2)).map World.threads =
      some [("51c0ac9ed714fb3b37d7d5a8", 10)] ∧
    ∀ p, p <+: intervalRun → ∃ w' ∈ runRequests (Env.plain fun _ _ => false) "" {} p,
      ThreadsConsistent (Env.plain fun _ _ => false) w' := by
  have hsp : ∀ r ∈ intervalRun, r.Spelled := by
    intro r hr
    simp only [intervalRun, List.mem_cons, List.not_mem_nil, or_false] at hr
    rcases hr with rfl | rfl | rfl
    · show oidOf "51c0ac9ed714fb3b37d7d5a8" = _
      decide
    · trivial
    · trivial
  have hk : KeepsAll (Env.plain fun _ _ => false) "" {} intervalRun := by decide +kernel
  exact ⟨hk, by decide +kernel, (threads_agree_iff (ThreadsInv.ofEmpty rfl rfl) intervalRun hsp).2 hk⟩

/-- **A failed insert leaves a thread.** The subscription is answered with an error and not stored; its thread
goes on. -/
theorem failedInsert_thread :
    ThreadsAgree { outcomes := [.dbException "not master"] } ∧
    ∃ w ∈ runRequests (Env.plain fun _ _ => false) "" { outcomes := [.dbException "not master"] }
        [subscribeAtInterval "PT5S"],
      w.threads = [("51c0ac9ed714fb3b37d7d5a8", 5)] ∧ w.csubs.docs = [] ∧ ¬ ThreadsAgree w := by
  refine ⟨(ThreadsInv.ofEmpty rfl rfl).agree, _, rfl, by decide +kernel, by decide +kernel, ?_⟩
  unfold ThreadsAgree
  decide +kernel

/-- An interval condition without values is the end of the broker. -/
example : runRequests (Env.plain fun _ _ => false) "" {}
    [.subscribe { entityIdVector := [], notifyConditionVector := [⟨"ONTIMEINTERVAL", []⟩] } "JSON" [] 100
      "51c0ac9ed714fb3b37d7d5a8"] = none := rfl

end OrionBroker
