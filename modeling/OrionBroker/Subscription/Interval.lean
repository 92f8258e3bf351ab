import OrionBroker.Update.Answers
import OrionBroker.Update.Calls
import OrionBroker.Subscription.Threads

/-!
# Interval threads at work

A thread of an ONTIMEINTERVAL condition wakes up, reads its subscription, tests it, queries the entities, writes
the new notification to the subscription and sends it. The first, third and fourth of these are sections of the
request semaphore; between two of them anything may happen.

| here | there |
| --- | --- |
| `ContextSubscriptionInfo`         | the same (ContextSubscriptionInfo.h:33) |
| `mongoGetContextSubscriptionInfo` | the same (mongoOntimeintervalOperations.cpp:42) |
| `mongoGetContextElementResponses` | the same (:122) |
| `mongoUpdateCsubNewNotification`  | the same (:153) |
| `Place`                           | the places of `startOnIntervalThread` and `doNotification` between two steps |
| `IntervalThread.step`             | the next step of a thread (onTimeIntervalThread.cpp:46, :147) |
| `Broker`                          | the data, the clock and the threads |
| `Broker.step`                     | a section, a step outside of them, or the clock |

`ContextSubscriptionInfo` has no constructor: when the subscription cannot be read, the numbers are what the stack
holds, and the vectors are empty. Such a thread goes on as its numbers say: the server refuses the query for no
entities, the answer to that is one response, and a notification goes to the empty url.
`destroyOntimeIntervalThreads` frees the parameters of a thread that may still use them; here they keep their
values. A thread may wake up at any time.
-/

namespace OrionBroker

open Mongo

/-! ## The three sections -/

structure ContextSubscriptionInfo where
  entityIdVector : List EntityId := []
  attributeList : List String := []
  url : String := ""
  format : Format
  lastNotification : Int
  expiration : Int
  throttling : Int
deriving DecidableEq, Repr

/-- What the stack holds, with the fields that have a constructor empty. -/
def ContextSubscriptionInfo.unread (stack : ContextSubscriptionInfo) : ContextSubscriptionInfo :=
  { stack with entityIdVector := [], attributeList := [], url := "" }

/-- `lastNotification` as the section reads it. -/
def lastNotificationOf (sub : SubDoc) : Int := (sub.lastNotification.map getIntField).getD (-1)

def contextSubscriptionInfo (sub : SubDoc) : ContextSubscriptionInfo where
  entityIdVector := subToEntityIdVector sub
  attributeList := subToAttributeList sub
  url := cString sub.reference
  format := match sub.format with
    | some f => stringToFormat (cString f)
    | none => .xml
  lastNotification := lastNotificationOf sub
  expiration := sub.expiration
  throttling := sub.throttling.getD (-1)

/-- Always `SccOk`, also when nothing is read (github issue 575). -/
def mongoGetContextSubscriptionInfo (subId : String) (stack : ContextSubscriptionInfo) (w : World) :
    ContextSubscriptionInfo × World :=
  match oidOf subId with
  | none => (stack.unread, w)
  | some id =>
    let (o, w) := w.call
    match o with
    | .ok =>
      match w.csubs.docs.find? fun s => s.oid == id with
      | none => (stack.unread, w)
      | some sub => (contextSubscriptionInfo sub, w)
    | .nullCursor => (stack.unread, w)
    | .dbException _ => (stack.unread, w)
    | .otherException => (stack.unread, w)

/-- Always `SccOk`; a failed query leaves nothing. -/
def mongoGetContextElementResponses (env : Env) (tenant : String) (enV : List EntityId) (attrL : List String)
    (w : World) : List ContextElementResponse × World :=
  match entitiesQuery env tenant enV attrL true [] DEFAULT_PAGINATION_OFFSET_INT DEFAULT_PAGINATION_LIMIT_INT w with
  | (.error _, w) => ([], w)
  | (.ok cerV, w) => (cerV, w)

/-- Whether it is `SccOk`. The identifier is converted outside the `try`; it has been read before. -/
def mongoUpdateCsubNewNotification (subId : String) (now : Int) (w : World) : Bool × World :=
  match oidOf subId with
  | none => (false, w)
  | some id =>
    let (o, w) := w.call
    match o.writeError with
    | some _ => (false, w)
    | none => (true, w.updateCsub id (bumpCount now) fun _ => rfl)

/-! ## The thread -/

/-- Where a thread is. Cancelling is disabled from `awake` to `finished`; `sleep` is the cancellation point. -/
inductive Place where
  | started
  | awake
  | informed (csi : ContextSubscriptionInfo)
  | allowed (csi : ContextSubscriptionInfo)
  | answered (csi : ContextSubscriptionInfo) (cerV : List ContextElementResponse)
  /-- With the second that it wrote to the subscription. -/
  | recorded (csi : ContextSubscriptionInfo) (cerV : List ContextElementResponse) (second : Int)
  | finished
  | asleep
  | terminated

structure IntervalThread where
  subId : String
  place : Place := .started
  cancelled : Bool := false

/-- The throttling test of `doNotification`. -/
def throttlingPassed (csi : ContextSubscriptionInfo) (current : Int) : Bool :=
  decide (csi.throttling < 0) || decide (csi.lastNotification < 0) ||
    decide (addInt64 csi.lastNotification csi.throttling < current)

def IntervalThread.step (env : Env) (tenant : String) (now : Int) (stack : ContextSubscriptionInfo)
    (t : IntervalThread) (w : World) : IntervalThread × World :=
  match t.place with
  | .started => ({ t with place := .awake }, w)
  | .awake =>
    let (csi, w) := mongoGetContextSubscriptionInfo t.subId stack w
    ({ t with place := .informed csi }, w)
  | .informed csi =>
    if now < csi.expiration ∧ throttlingPassed csi now = true then ({ t with place := .allowed csi }, w)
    else ({ t with place := .finished }, w)
  | .allowed csi =>
    let (cerV, w) := mongoGetContextElementResponses env tenant csi.entityIdVector csi.attributeList w
    if cerV.length > 0 then ({ t with place := .answered csi cerV }, w) else ({ t with place := .finished }, w)
  | .answered csi cerV =>
    match mongoUpdateCsubNewNotification t.subId now w with
    | (true, w) => ({ t with place := .recorded csi cerV now }, w)
    | (false, w) => ({ t with place := .finished }, w)
  | .recorded csi cerV _ => ({ t with place := .finished }, w.emit (.notify ⟨t.subId, cerV, csi.url, csi.format⟩))
  | .finished => ({ t with place := .asleep }, w)
  | .asleep => if t.cancelled then ({ t with place := .terminated }, w) else ({ t with place := .started }, w)
  | .terminated => (t, w)

/-! ## The broker -/

/-- The notifications sent so far have the text of their subscription, and the second. -/
structure Broker where
  world : World
  clock : Int
  threads : List IntervalThread
  sent : List (String × Int) := []

/-- The world of a step, with the notifications it sent. -/
def Broker.becomes (b : Broker) (w : World) : Broker :=
  { b with world := w,
           sent := b.sent ++ (w.notified.drop b.world.notified.length).map fun n => (n.subscriptionId, b.clock) }

def cancelThreads (subscriptionId : String) (threads : List IntervalThread) : List IntervalThread :=
  threads.map fun t => if t.subId = subscriptionId then { t with cancelled := true } else t

inductive Act where
  | tick (seconds : Nat)
  | update (ctx : Ctx) (contextElementVector : List ContextElement)
  | unsubscribe (subscriptionId : String)
  | thread (i : Nat) (stack : ContextSubscriptionInfo)

/-- The request of an act, at the time of the broker. -/
def Broker.context (b : Broker) (tenant : String) (ctx : Ctx) : Ctx := { ctx with tenant := tenant, now := b.clock }

def Broker.step (env : Env) (tenant : String) (b : Broker) : Act → Broker
  | .tick seconds => { b with clock := b.clock + seconds }
  | .update ctx contextElementVector =>
    b.becomes (mongoUpdateContext env (b.context tenant ctx) contextElementVector b.world).2
  | .unsubscribe subscriptionId =>
    let (response, w) := mongoUnsubscribeContext env subscriptionId tenant b.world
    let b := b.becomes w
    if response.statusCode.code = .ok then { b with threads := cancelThreads subscriptionId b.threads } else b
  | .thread i stack =>
    match b.threads[i]? with
    | none => b
    | some t =>
      let (t, w) := t.step env tenant b.clock stack b.world
      { b.becomes w with threads := b.threads.set i t }

def Broker.run (env : Env) (tenant : String) (b : Broker) (acts : List Act) : Broker :=
  acts.foldl (fun b a => b.step env tenant a) b

/-! ## What a step of a thread can do -/

/-- A place without anything read. -/
def Place.idle : Place → Bool
  | .informed _ => false
  | .allowed _ => false
  | .answered _ _ => false
  | .recorded _ _ _ => false
  | _ => true

/-- The second that is recorded and for which nothing is sent yet. -/
def Place.recordedAt : Place → Option Int
  | .recorded _ _ second => some second
  | _ => none

/-- Everything a thread of `subId` can do to its place and to the world. -/
inductive Moves (now : Int) (stack : ContextSubscriptionInfo) (subId : String) (w : World) :
    Place → Place → World → Prop where
  | idle {place place' : Place} {w' : World} (unrecorded : place.recordedAt = none) (idle : place'.idle = true)
      (quiet : w.Quiet w') :
      Moves now stack subId w place place' w'
  | read {w' : World} (sub : SubDoc) (mem : sub ∈ w.csubs.docs) (id : oidOf subId = some sub.oid)
      (quiet : w.Quiet w') : Moves now stack subId w .awake (.informed (contextSubscriptionInfo sub)) w'
  | unread {w' : World} (quiet : w.Quiet w') : Moves now stack subId w .awake (.informed stack.unread) w'
  | allow (csi : ContextSubscriptionInfo) (unexpired : now < csi.expiration) (passed : throttlingPassed csi now = true) :
      Moves now stack subId w (.informed csi) (.allowed csi) w
  | answer {w' : World} (csi : ContextSubscriptionInfo) (cerV : List ContextElementResponse) (quiet : w.Quiet w') :
      Moves now stack subId w (.allowed csi) (.answered csi cerV) w'
  | record (csi : ContextSubscriptionInfo) (cerV : List ContextElementResponse) (id : String)
      (hid : oidOf subId = some id) (written : w.call.1.writeError = none) :
      Moves now stack subId w (.answered csi cerV) (.recorded csi cerV now)
        (w.call.2.updateCsub id (bumpCount now) fun _ => rfl)
  | send (csi : ContextSubscriptionInfo) (cerV : List ContextElementResponse) (second : Int) :
      Moves now stack subId w (.recorded csi cerV second) .finished
        (w.emit (.notify ⟨subId, cerV, csi.url, csi.format⟩))

theorem mongoGetContextSubscriptionInfo_cases (subId : String) (stack : ContextSubscriptionInfo) (w : World) :
    w.Quiet (mongoGetContextSubscriptionInfo subId stack w).2 ∧
    ((∃ sub ∈ w.csubs.docs, oidOf subId = some sub.oid ∧
        (mongoGetContextSubscriptionInfo subId stack w).1 = contextSubscriptionInfo sub) ∨
      (mongoGetContextSubscriptionInfo subId stack w).1 = stack.unread) := by
  unfold mongoGetContextSubscriptionInfo
  cases hid : oidOf subId with
  | none => exact ⟨(World.Same.refl w).quiet, .inr rfl⟩
  | some id =>
    have hc := w.call_same
    dsimp only
    split
    · split
      · exact ⟨hc.quiet, .inr rfl⟩
      · rename_i sub hf
        have hs : sub ∈ w.csubs.docs := by
          rw [← hc.csubs]
          exact List.mem_of_find?_eq_some hf
        have hk : sub.oid = id := by simpa using List.find?_some hf
        exact ⟨hc.quiet, .inl ⟨sub, hs, by rw [hk], rfl⟩⟩
    · exact ⟨hc.quiet, .inr rfl⟩
    · exact ⟨hc.quiet, .inr rfl⟩
    · exact ⟨hc.quiet, .inr rfl⟩

theorem mongoGetContextElementResponses_same (env : Env) (tenant : String) (enV : List EntityId) (attrL : List String)
    (w : World) : World.Same w (mongoGetContextElementResponses env tenant enV attrL w).2 := by
  have h := entitiesQuery_same env tenant enV attrL true [] DEFAULT_PAGINATION_OFFSET_INT
    DEFAULT_PAGINATION_LIMIT_INT w
  unfold mongoGetContextElementResponses
  split
  · rename_i e
    rw [e] at h
    exact h
  · rename_i e
    rw [e] at h
    exact h

theorem IntervalThread.step_moves (env : Env) (tenant : String) (now : Int) (stack : ContextSubscriptionInfo)
    (t : IntervalThread) (w : World) :
    (t.step env tenant now stack w).1.subId = t.subId ∧
    Moves now stack t.subId w t.place (t.step env tenant now stack w).1.place (t.step env tenant now stack w).2 := by
  have hrefl := (World.Same.refl w).quiet
  unfold IntervalThread.step
  cases hp : t.place with
  | started => exact ⟨rfl, .idle rfl rfl hrefl⟩
  | awake =>
    obtain ⟨hq, ⟨sub, hs, hid, he⟩ | he⟩ := mongoGetContextSubscriptionInfo_cases t.subId stack w
    · refine ⟨rfl, ?_⟩
      dsimp only
      rw [he]
      exact .read sub hs hid hq
    · refine ⟨rfl, ?_⟩
      dsimp only
      rw [he]
      exact .unread hq
  | informed csi =>
    dsimp only
    split
    · rename_i h
      exact ⟨rfl, .allow csi h.1 h.2⟩
    · exact ⟨rfl, .idle rfl rfl hrefl⟩
  | allowed csi =>
    have hsame := mongoGetContextElementResponses_same env tenant csi.entityIdVector csi.attributeList w
    dsimp only
    split
    · exact ⟨rfl, .answer csi _ hsame.quiet⟩
    · exact ⟨rfl, .idle rfl rfl hsame.quiet⟩
  | answered csi cerV =>
    have hc := w.call_same.quiet
    unfold mongoUpdateCsubNewNotification
    cases hid : oidOf t.subId with
    | none => exact ⟨rfl, .idle rfl rfl hrefl⟩
    | some id =>
      dsimp only
      cases he : w.call.1.writeError with
      | some what => exact ⟨rfl, .idle rfl rfl hc⟩
      | none => exact ⟨rfl, .record csi cerV id hid he⟩
  | recorded csi cerV second => exact ⟨rfl, .send csi cerV second⟩
  | finished => exact ⟨rfl, .idle rfl rfl hrefl⟩
  | asleep =>
    dsimp only
    split
    · exact ⟨rfl, .idle rfl rfl hrefl⟩
    · exact ⟨rfl, .idle rfl rfl hrefl⟩
  | terminated => exact ⟨rfl, .idle rfl (by rw [hp]; rfl) hrefl⟩

/-! ## What is sent -/

/-- The notifications of a subscription, in whatever spelling. -/
def Broker.sentTo (oid : String) (b : Broker) : List (String × Int) :=
  b.sent.filter fun p => decide (oidOf p.1 = some oid)

/-- The worlds of a step, when it sends `ns`. -/
def Sends (w w' : World) (ns : List Notification) : Prop := w'.notified = w.notified ++ ns

theorem World.Quiet.sends {w w' : World} (h : w.Quiet w') : Sends w w' [] := by
  unfold Sends
  rw [List.append_nil]
  exact h.notified

theorem Sends.trans {w w' w'' : World} {ns ns' : List Notification} (h : Sends w w' ns) (h' : Sends w' w'' ns') :
    Sends w w'' (ns ++ ns') := by
  unfold Sends at h h' ⊢
  rw [h', h, List.append_assoc]

theorem sends_emit (w : World) (n : Notification) : Sends w (w.emit (.notify n)) [n] := by
  unfold Sends World.notified World.emit
  rw [List.filterMap_append]
  rfl

theorem Broker.sent_becomes {b : Broker} {w : World} {ns : List Notification} (h : Sends b.world w ns) :
    (b.becomes w).sent = b.sent ++ ns.map fun n => (n.subscriptionId, b.clock) := by
  unfold Broker.becomes
  rw [h, List.drop_left]

/-- An iteration of the request's loop, for the subscriptions and what is sent. -/
theorem processSubscription_sends (env : Env) (ctx : Ctx) (en : EntityId) (sub : String × TriggeredSubscription)
    (w : World) :
    ∃ ns, Sends w (processSubscription env ctx en sub w).2 ns ∧ ∀ n ∈ ns, n.subscriptionId = sub.1 := by
  rcases processSubscription_cases env ctx en sub w with hq | ⟨_, w1, n, hsame, hn, _, hok, hno⟩
  · exact ⟨[], hq.sends, nofun⟩
  · have hs : Sends w (w1.emit (.notify n)).call.2 [n] := by
      have h := (hsame.quiet.sends.trans (sends_emit w1 n)).trans (w1.emit (.notify n)).call_same.quiet.sends
      exact h
    refine ⟨[n], ?_, fun m hm => by rw [List.mem_singleton.1 hm]; exact hn⟩
    by_cases he : (w1.emit (.notify n)).call.1.writeError = none
    · rw [hok he]
      exact hs
    · rw [hno he]
      exact hs

/-- An iteration keeps the identifiers. -/
theorem oid_of_mem_processSubscription {env : Env} {ctx : Ctx} {en : EntityId} {sub : String × TriggeredSubscription}
    {w : World} {s : SubDoc} (hs : s ∈ (processSubscription env ctx en sub w).2.csubs.docs) :
    ∃ d ∈ w.csubs.docs, s.oid = d.oid := by
  by_cases hk : s.oid = sub.1
  · rcases processSubscription_cases env ctx en sub w with hq | ⟨_, w1, n, hsame, _, _, hok, hno⟩
    · rw [hq.csubs] at hs
      exact ⟨s, hs, rfl⟩
    · have hcs : (w1.emit (.notify n)).call.2.csubs = w.csubs :=
        (w1.emit (.notify n)).call_same.csubs.trans hsame.csubs
      by_cases he : (w1.emit (.notify n)).call.1.writeError = none
      · rw [hok he] at hs
        rcases (mem_updateCsub (f := bumpCount ctx.now) fun _ => rfl).1 hs with ⟨hs, _⟩ | ⟨d, hd, _, rfl⟩
        · rw [hcs] at hs
          exact ⟨s, hs, rfl⟩
        · rw [hcs] at hd
          exact ⟨d, hd, rfl⟩
      · rw [hno he, hcs] at hs
        exact ⟨s, hs, rfl⟩
  · exact ⟨s, (mem_csubs_processSubscription hk).1 hs, rfl⟩

/-- A request keeps the identifiers, and notifies subscriptions that are stored. -/
theorem mongoUpdateContext_effect (env : Env) (ctx : Ctx) (ces : List ContextElement) (w : World) :
    (∀ s ∈ (mongoUpdateContext env ctx ces w).2.csubs.docs, ∃ d ∈ w.csubs.docs, s.oid = d.oid) ∧
    ∃ ns, Sends w (mongoUpdateContext env ctx ces w).2 ns ∧
      ∀ n ∈ ns, ∃ d ∈ w.csubs.docs, n.subscriptionId = d.oid := by
  let Q : World → Prop := fun w' =>
    (∀ s ∈ w'.csubs.docs, ∃ d ∈ w.csubs.docs, s.oid = d.oid) ∧
      ∃ ns, Sends w w' ns ∧ ∀ n ∈ ns, ∃ d ∈ w.csubs.docs, n.subscriptionId = d.oid
  refine update_induct (Q := Q) ?_ ?_ ?_
  · rintro w1 w2 hq ⟨hdocs, ns, hs, hns⟩
    refine ⟨by rw [hq.csubs]; exact hdocs, ns, ?_, hns⟩
    have htrans := hs.trans hq.sends
    rwa [List.append_nil] at htrans
  · rintro c _ ⟨s, hs, hsub⟩ ⟨hdocs, ns, hns, hof⟩
    refine ⟨fun x hx => ?_, ?_⟩
    · obtain ⟨d, hd, hoid⟩ := oid_of_mem_processSubscription hx
      rw [hoid]
      exact hdocs d hd
    · -- the entry is one of the documents
      obtain ⟨ms, hms, hmsub⟩ := processSubscription_sends env ctx c.en c.sub c.world
      refine ⟨ns ++ ms, hns.trans hms, fun n hn => ?_⟩
      rcases List.mem_append.1 hn with hn | hn
      · exact hof n hn
      · obtain ⟨d, hd, hoid⟩ := hdocs s hs
        refine ⟨d, hd, ?_⟩
        rw [hmsub n hn, hsub]
        exact hoid
  · exact ⟨fun s hs => ⟨s, hs, rfl⟩, [], (World.Same.refl _).quiet.sends, nofun⟩

/-- Unsubscribing sends nothing, and only takes documents away. -/
theorem mongoUnsubscribeContext_effect (env : Env) (subscriptionId tenant : String) (w : World) :
    Sends w (mongoUnsubscribeContext env subscriptionId tenant w).2 [] ∧
    (∀ s ∈ (mongoUnsubscribeContext env subscriptionId tenant w).2.csubs.docs, s ∈ w.csubs.docs) ∧
    ((mongoUnsubscribeContext env subscriptionId tenant w).1.statusCode.code = .ok →
      ∀ id, oidOf subscriptionId = some id →
        ∀ s ∈ (mongoUnsubscribeContext env subscriptionId tenant w).2.csubs.docs, s.oid ≠ id) := by
  have hc1 := w.call_same
  have hc2 := w.call_same.trans w.call.2.call_same
  unfold mongoUnsubscribeContext
  cases hid : oidOf subscriptionId with
  | none => exact ⟨(World.Same.refl w).quiet.sends, fun _ hs => hs, fun h => by cases h⟩
  | some id =>
    dsimp only
    split
    · exact ⟨hc1.quiet.sends, fun s hs => hc1.csubs ▸ hs, fun h => by cases h⟩
    · exact ⟨hc1.quiet.sends, fun s hs => hc1.csubs ▸ hs, fun h => by cases h⟩
    · exact ⟨hc1.quiet.sends, fun s hs => hc1.csubs ▸ hs, fun h => by cases h⟩
    · split
      · exact ⟨hc1.quiet.sends, fun s hs => hc1.csubs ▸ hs, fun h => by cases h⟩
      · split
        · exact ⟨hc2.quiet.sends, fun s hs => hc2.csubs ▸ hs, fun h => by cases h⟩
        · refine ⟨hc2.quiet.sends, fun s hs => ?_, fun _ id' hid' s hs => ?_⟩
          · rw [← hc2.csubs]
            exact List.mem_of_mem_filter hs
          · have hne := (List.mem_filter.1 hs).2
            rw [← Option.some.inj hid']
            simpa using hne

theorem cancelThreads_mem {subscriptionId : String} {threads : List IntervalThread} {t : IntervalThread}
    (h : t ∈ cancelThreads subscriptionId threads) : ∃ t' ∈ threads, t.subId = t'.subId ∧ t.place = t'.place := by
  obtain ⟨t', ht', rfl⟩ := List.mem_map.1 h
  refine ⟨t', ht', ?_⟩
  by_cases hs : t'.subId = subscriptionId
  · rw [if_pos hs]; exact ⟨rfl, rfl⟩
  · rw [if_neg hs]; exact ⟨rfl, rfl⟩

/-- A thread keeps the identifiers, and sends under its own text. -/
theorem Moves.effect {now : Int} {stack : ContextSubscriptionInfo} {subId : String} {w w' : World}
    {place place' : Place} (h : Moves now stack subId w place place' w') :
    (∀ s ∈ w'.csubs.docs, ∃ d ∈ w.csubs.docs, s.oid = d.oid) ∧
    ∃ ns, Sends w w' ns ∧ ∀ n ∈ ns, n.subscriptionId = subId := by
  cases h with
  | idle _ _ hq => exact ⟨fun s hs => ⟨s, hq.csubs ▸ hs, rfl⟩, [], hq.sends, nofun⟩
  | read _ _ _ hq => exact ⟨fun s hs => ⟨s, hq.csubs ▸ hs, rfl⟩, [], hq.sends, nofun⟩
  | unread hq => exact ⟨fun s hs => ⟨s, hq.csubs ▸ hs, rfl⟩, [], hq.sends, nofun⟩
  | allow _ _ _ => exact ⟨fun s hs => ⟨s, hs, rfl⟩, [], (World.Same.refl _).quiet.sends, nofun⟩
  | answer _ _ hq => exact ⟨fun s hs => ⟨s, hq.csubs ▸ hs, rfl⟩, [], hq.sends, nofun⟩
  | record _ _ id _ _ =>
    refine ⟨fun s hs => ?_, [], w.call_same.quiet.sends, nofun⟩
    rcases (mem_updateCsub (f := bumpCount now) fun _ => rfl).1 hs with ⟨hs, _⟩ | ⟨d, hd, _, rfl⟩
    · rw [w.call_same.csubs] at hs
      exact ⟨s, hs, rfl⟩
    · rw [w.call_same.csubs] at hd
      exact ⟨d, hd, rfl⟩
  | send _ _ _ =>
    exact ⟨fun s hs => ⟨s, hs, rfl⟩, _, sends_emit _ _, fun n hn => by rw [List.mem_singleton.1 hn]⟩

/-- No act makes a subscription. -/
theorem Broker.step_oids (env : Env) (tenant : String) (b : Broker) (a : Act) :
    ∀ s ∈ (b.step env tenant a).world.csubs.docs, ∃ d ∈ b.world.csubs.docs, s.oid = d.oid := by
  cases a with
  | tick seconds => exact fun s hs => ⟨s, hs, rfl⟩
  | update ctx ces => exact (mongoUpdateContext_effect env (b.context tenant ctx) ces b.world).1
  | unsubscribe subscriptionId =>
    have hdocs := (mongoUnsubscribeContext_effect env subscriptionId tenant b.world).2.1
    unfold Broker.step
    dsimp only
    split
    · exact fun s hs => ⟨s, hdocs s hs, rfl⟩
    · exact fun s hs => ⟨s, hdocs s hs, rfl⟩
  | thread i stack =>
    unfold Broker.step
    dsimp only
    cases b.threads[i]? with
    | none => exact fun s hs => ⟨s, hs, rfl⟩
    | some t => exact (t.step_moves env tenant b.clock stack b.world).2.effect.1

/-! ## One room -/

/-- A subscription at an interval and on a change, not more often than every ten seconds. -/
def throttledSub : SubDoc where
  oid := "51c0ac9ed714fb3b37d7d5a8"
  expiration := 86500
  reference := "http://host/notify"
  throttling := some 10
  entities := [⟨"Room", some "T", "false"⟩]
  conditions := [.onTimeInterval 5, .onChange ["t"]]
  format := some "JSON"

/-- The room, the subscription, and the given number of threads that have just been created. -/
def roomBroker (threads : Nat) : Broker where
  world :=
    { entities := oneRoom
      csubs := { docs := [throttledSub], nodup := by simp } }
  clock := 100
  threads := List.replicate threads { subId := "51c0ac9ed714fb3b37d7d5a8" }

def roomEnv : Env := Env.plain fun _ _ => false

/-- Nothing on the stack. -/
def emptyStack : ContextSubscriptionInfo where
  format := .xml
  lastNotification := 0
  expiration := 0
  throttling := 0

/-- Some steps of one thread in a row. -/
def threadSteps (i steps : Nat) : List Act := List.replicate steps (.thread i emptyStack)

end OrionBroker
