import OrionBroker.Subscription.Interval

/-!
# After an unsubscription

`mongoUnsubscribeContext` removes the document and cancels the threads of the subscription, but a thread that
cancelling finds inside `doNotification` runs on, and joining a detached thread does not wait for it. What such a
thread still sends depends on what it has read, and one that reads too late goes by the numbers its stack holds.

* `gone_step`: without the document, a thread that holds nothing will hold nothing after a step that finds a harmless
  stack, and neither a thread nor a request sends anything to the subscription.
* `unsubscribed_silent`: when no thread holds the subscription at the time of the answer, and those that read after it
  find harmless stacks, nothing is sent after the answer.
* `unsubscribedRoom_notified`: a thread that has written its notification sends it after the answer.
-/

namespace OrionBroker

open Mongo

/-! ## Holding a subscription -/

/-- The tests of `doNotification` can still be passed. -/
def ContextSubscriptionInfo.Passable (clock : Int) (csi : ContextSubscriptionInfo) : Prop :=
  ∃ second, clock ≤ second ∧ second < csi.expiration ∧ throttlingPassed csi second = true

/-- The thread is behind the reading of the subscription and may still send: it can pass the tests ahead of it. -/
def Place.Holding (clock : Int) : Place → Prop
  | .informed csi => csi.Passable clock
  | .allowed _ => True
  | .answered _ _ => True
  | .recorded _ _ _ => True
  | _ => False

theorem not_holding_of_idle {clock : Int} {place : Place} (h : place.idle = true) : ¬ place.Holding clock := by
  cases place <;> first | exact fun hh => hh | cases h

/-- A test that can be passed later can be passed from now on. -/
theorem Place.Holding.earlier {clock clock' : Int} (hc : clock ≤ clock') {place : Place}
    (h : place.Holding clock') : place.Holding clock := by
  cases place with
  | informed csi =>
    obtain ⟨second, hs, htest⟩ := h
    exact ⟨second, hc.trans hs, htest⟩
  | _ => exact h

/-- With the numbers of this stack a thread of the subscription that is about to read gets no further. -/
def Act.Harmless (id : String) (b : Broker) : Act → Prop
  | .thread i stack => ∀ t ∈ b.threads[i]?, oidOf t.subId = some id → t.place = .awake → ¬ stack.Passable b.clock
  | _ => True

/-- Every act of a run, in the state it finds. -/
def HarmlessAll (env : Env) (tenant id : String) : Broker → List Act → Prop
  | _, [] => True
  | b, a :: acts => a.Harmless id b ∧ HarmlessAll env tenant id (b.step env tenant a) acts

theorem ContextSubscriptionInfo.not_passable {csi : ContextSubscriptionInfo} {clock : Int}
    (h : csi.expiration ≤ clock) : ¬ csi.Passable clock := by
  rintro ⟨second, hs, hexp, _⟩
  omega

theorem Broker.clock_le_step (env : Env) (tenant : String) (b : Broker) (a : Act) :
    b.clock ≤ (b.step env tenant a).clock := by
  cases a with
  | tick seconds =>
    show b.clock ≤ b.clock + (seconds : Int)
    omega
  | update ctx ces => exact le_refl _
  | unsubscribe subscriptionId =>
    unfold Broker.step
    dsimp only
    split <;> exact le_refl _
  | thread i stack =>
    unfold Broker.step
    dsimp only
    split <;> exact le_refl _

/-- Stacks that hold nothing but the past. -/
theorem harmlessAll_of_expired {env : Env} {tenant id : String} (acts : List Act) : ∀ {b : Broker},
    (∀ i stack, .thread i stack ∈ acts → stack.expiration ≤ b.clock) → HarmlessAll env tenant id b acts := by
  induction acts with
  | nil => exact fun _ => trivial
  | cons a acts ih =>
    intro b h
    refine ⟨?_, ih fun i stack hs => (h i stack (List.mem_cons_of_mem a hs)).trans (b.clock_le_step env tenant a)⟩
    cases a with
    | thread i stack =>
      exact fun _ _ _ _ => ContextSubscriptionInfo.not_passable (h i stack List.mem_cons_self)
    | _ => trivial

/-- The documents have identifiers in the spelling of `OID::toString`, and not this one. -/
structure Removed (id : String) (w : World) : Prop where
  spelled : ∀ s ∈ w.csubs.docs, oidOf s.oid = some s.oid
  removed : ∀ s ∈ w.csubs.docs, s.oid ≠ id

/-- No thread of the subscription holds it. -/
def Unheld (id : String) (b : Broker) : Prop :=
  ∀ t ∈ b.threads, oidOf t.subId = some id → ¬ t.place.Holding b.clock

section
variable {env : Env} {tenant id : String} {b : Broker}

theorem Removed.oid_ne {w : World} (h : Removed id w) {s : SubDoc} (hs : s ∈ w.csubs.docs) :
    oidOf s.oid ≠ some id := by
  rw [h.spelled s hs]
  exact fun he => h.removed s hs (Option.some.inj he)

theorem removed_step (h : Removed id b.world) (a : Act) : Removed id (b.step env tenant a).world := by
  refine ⟨fun s hs => ?_, fun s hs => ?_⟩
  · obtain ⟨d, hd, hoid⟩ := b.step_oids env tenant a s hs
    rw [hoid]
    exact h.spelled d hd
  · obtain ⟨d, hd, hoid⟩ := b.step_oids env tenant a s hs
    rw [hoid]
    exact h.removed d hd

theorem removed_run (acts : List Act) : ∀ {b : Broker}, Removed id b.world →
    Removed id (b.run env tenant acts).world := by
  induction acts with
  | nil => exact fun h => h
  | cons a acts ih => exact fun h => ih (removed_step h a)

theorem sentTo_becomes {w : World} {ns : List Notification} (h : Sends b.world w ns)
    (hns : ∀ n ∈ ns, oidOf n.subscriptionId ≠ some id) : (b.becomes w).sentTo id = b.sentTo id := by
  unfold Broker.sentTo
  rw [Broker.sent_becomes h, List.filter_append]
  have hnil : ((ns.map fun n => (n.subscriptionId, b.clock)).filter fun p => decide (oidOf p.1 = some id)) = [] := by
    refine List.filter_eq_nil_iff.2 fun p hp => ?_
    obtain ⟨n, hn, rfl⟩ := List.mem_map.1 hp
    simpa using hns n hn
  rw [hnil, List.append_nil]

/-- What a thread does without the document. -/
theorem unheld_moves {stack : ContextSubscriptionInfo} {subId : String} {w' : World} {place place' : Place}
    (h : Removed id b.world) (hid : oidOf subId = some id) (hfree : ¬ place.Holding b.clock)
    (hstack : place = .awake → ¬ stack.Passable b.clock) (hm : Moves b.clock stack subId b.world place place' w') :
    ¬ place'.Holding b.clock ∧ Sends b.world w' [] := by
  cases hm with
  | idle _ hidle hq => exact ⟨not_holding_of_idle hidle, hq.sends⟩
  | read sub hsub hid' hq =>
    rw [hid] at hid'
    exact absurd (Option.some.inj hid').symm (h.removed sub hsub)
  | unread hq => exact ⟨hstack rfl, hq.sends⟩
  | allow csi hexp hpass => exact absurd ⟨b.clock, le_refl _, hexp, hpass⟩ hfree
  | answer csi cerV hq => exact absurd trivial hfree
  | record csi cerV k hk written => exact absurd trivial hfree
  | send csi cerV second => exact absurd trivial hfree

theorem unheld_thread (h : Removed id b.world) (hu : Unheld id b) {i : Nat} {stack : ContextSubscriptionInfo}
    (hs : (Act.thread i stack).Harmless id b) :
    Unheld id (b.step env tenant (.thread i stack)) ∧
      (b.step env tenant (.thread i stack)).sentTo id = b.sentTo id := by
  unfold Broker.step
  dsimp only
  cases ht : b.threads[i]? with
  | none => exact ⟨hu, rfl⟩
  | some t =>
    have hmem : t ∈ b.threads := List.mem_of_getElem? ht
    obtain ⟨hsub, hmoves⟩ := t.step_moves env tenant b.clock stack b.world
    refine ⟨fun x hx hid => ?_, ?_⟩
    · rcases List.mem_or_eq_of_mem_set hx with hx | rfl
      · exact hu x hx hid
      · rw [hsub] at hid
        exact (unheld_moves h hid (hu t hmem hid) (hs t ht hid) hmoves).1
    · by_cases hid : oidOf t.subId = some id
      · have hnone := (unheld_moves h hid (hu t hmem hid) (hs t ht hid) hmoves).2
        exact sentTo_becomes hnone nofun
      · obtain ⟨_, ns, hns, hof⟩ := hmoves.effect
        refine sentTo_becomes hns fun n hn => ?_
        rw [hof n hn]
        exact hid

theorem unheld_unsubscribe (hu : Unheld id b) (subscriptionId : String) :
    Unheld id (b.step env tenant (.unsubscribe subscriptionId)) ∧
      (b.step env tenant (.unsubscribe subscriptionId)).sentTo id = b.sentTo id := by
  obtain ⟨hs, _, _⟩ := mongoUnsubscribeContext_effect env subscriptionId tenant b.world
  have hsent := @sentTo_becomes id b _ [] hs nofun
  unfold Broker.step
  dsimp only
  split
  · refine ⟨fun t ht hid => ?_, hsent⟩
    obtain ⟨t', ht', hsub, hplace⟩ := cancelThreads_mem ht
    rw [hsub] at hid
    rw [hplace]
    exact hu t' ht' hid
  · exact ⟨hu, hsent⟩

/-- Step: a subscription that is gone and not held is not held after a harmless act, and nothing is sent to it. -/
theorem gone_step (h : Removed id b.world) (hu : Unheld id b) {a : Act} (ha : a.Harmless id b) :
    Unheld id (b.step env tenant a) ∧ (b.step env tenant a).sentTo id = b.sentTo id := by
  cases a with
  | tick seconds =>
    refine ⟨fun t ht hid hh => hu t ht hid (hh.earlier ?_), rfl⟩
    show b.clock ≤ b.clock + (seconds : Int)
    omega
  | update ctx ces =>
    obtain ⟨_, ns, hns, hof⟩ := mongoUpdateContext_effect env (b.context tenant ctx) ces b.world
    refine ⟨hu, sentTo_becomes hns fun n hn => ?_⟩
    obtain ⟨d, hd, hoid⟩ := hof n hn
    rw [hoid]
    exact h.oid_ne hd
  | unsubscribe subscriptionId => exact unheld_unsubscribe hu subscriptionId
  | thread i stack => exact unheld_thread h hu ha

theorem gone_run (acts : List Act) : ∀ {b : Broker}, Removed id b.world → Unheld id b →
    HarmlessAll env tenant id b acts → (b.run env tenant acts).sentTo id = b.sentTo id := by
  induction acts with
  | nil => exact fun _ _ _ => rfl
  | cons a acts ih =>
    intro b h hu ha
    obtain ⟨hu', hs⟩ := gone_step h hu ha.1
    exact (ih (removed_step h a) hu' ha.2).trans hs

/-- **Silence after the answer.** After an unsubscription that is answered with 200, in every interleaving, nothing
is sent to the subscription after the answer when no thread holds it at the time of the answer, and a thread that
reads after the answer finds numbers on its stack that do not pass the tests. -/
theorem unsubscribed_silent {subscriptionId : String} (hspelled : ∀ s ∈ b.world.csubs.docs, oidOf s.oid = some s.oid)
    (hid : oidOf subscriptionId = some id)
    (hok : (mongoUnsubscribeContext env subscriptionId tenant b.world).1.statusCode.code = .ok)
    (untilAnswer after : List Act)
    (hfree : Unheld id ((b.step env tenant (.unsubscribe subscriptionId)).run env tenant untilAnswer))
    (hstacks : HarmlessAll env tenant id ((b.step env tenant (.unsubscribe subscriptionId)).run env tenant untilAnswer)
      after) :
    (((b.step env tenant (.unsubscribe subscriptionId)).run env tenant untilAnswer).run env tenant after).sentTo id =
      ((b.step env tenant (.unsubscribe subscriptionId)).run env tenant untilAnswer).sentTo id := by
  have hremoved : Removed id (b.step env tenant (.unsubscribe subscriptionId)).world := by
    obtain ⟨_, hdocs, hgone⟩ := mongoUnsubscribeContext_effect env subscriptionId tenant b.world
    unfold Broker.step
    dsimp only
    rw [if_pos hok]
    exact ⟨fun s hs => hspelled s (hdocs s hs), hgone hok id hid⟩
  exact gone_run after (removed_run untilAnswer hremoved) hfree hstacks

end

/-! ## Two runs -/

/-- The thread takes some steps, and the room is unsubscribed. -/
def unsubscribedRoom (steps : Nat) : Broker :=
  ((roomBroker 1).run roomEnv "" (threadSteps 0 steps)).step roomEnv "" (.unsubscribe "51c0ac9ed714fb3b37d7d5a8")

/-- The subscription is notified, then unsubscribed; the thread wakes up once more, and ends. -/
theorem unsubscribedRoom_silent :
    (unsubscribedRoom 7).sentTo "51c0ac9ed714fb3b37d7d5a8" = [("51c0ac9ed714fb3b37d7d5a8", 100)] ∧
    ((unsubscribedRoom 7).run roomEnv "" (.tick 60 :: threadSteps 0 7)).sentTo "51c0ac9ed714fb3b37d7d5a8" =
      (unsubscribedRoom 7).sentTo "51c0ac9ed714fb3b37d7d5a8" := by
  refine ⟨by decide +kernel, ?_⟩
  refine @unsubscribed_silent roomEnv "" _ ((roomBroker 1).run roomEnv "" (threadSteps 0 7))
    "51c0ac9ed714fb3b37d7d5a8" (by decide +kernel) (by decide) (by decide +kernel) []
    (.tick 60 :: threadSteps 0 7) (fun t ht _ => ?_) (harmlessAll_of_expired _ fun i stack hs => ?_)
  · have hidle : ∀ t ∈ (unsubscribedRoom 7).threads, t.place.idle = true := by decide +kernel
    exact not_holding_of_idle (hidle t ht)
  · obtain ⟨_, rfl⟩ : i = 0 ∧ stack = emptyStack := by simpa [threadSteps, List.mem_replicate] using hs
    decide +kernel

/-- **A notification after the answer.** The thread has written the notification to the subscription when the
unsubscription comes; it is answered with 200, the document is gone and the thread cancelled, and then the
notification is sent. -/
theorem unsubscribedRoom_notified :
    (mongoUnsubscribeContext roomEnv "51c0ac9ed714fb3b37d7d5a8" ""
      ((roomBroker 1).run roomEnv "" (threadSteps 0 5)).world).1.statusCode.code = .ok ∧
    (unsubscribedRoom 5).world.csubs.docs = [] ∧
    (unsubscribedRoom 5).threads.map IntervalThread.cancelled = [true] ∧
    (unsubscribedRoom 5).sentTo "51c0ac9ed714fb3b37d7d5a8" = [] ∧
    ((unsubscribedRoom 5).run roomEnv "" (.tick 1 :: threadSteps 0 1)).sentTo "51c0ac9ed714fb3b37d7d5a8" =
      [("51c0ac9ed714fb3b37d7d5a8", 101)] := by
  decide +kernel

/-- A thread that reads too late, with numbers on its stack that pass the tests, sends as well. -/
example :
    ((unsubscribedRoom 1).run roomEnv ""
      (.thread 0 { emptyStack with expiration := 200, throttling := -1 } :: threadSteps 0 4)).sentTo
      "51c0ac9ed714fb3b37d7d5a8" = [("51c0ac9ed714fb3b37d7d5a8", 100)] := by
  decide +kernel

end OrionBroker
