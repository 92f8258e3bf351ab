import OrionBroker.Lib.Throttle
import OrionBroker.Subscription.Interval

/-!
# Throttling across threads

A notification goes out from an update request, which tests `lastNotification`, sends and writes it in one section,
or from an interval thread, which reads it in one section, writes it in another and sends after that. The record of
`Throttle.State` is `lastNotification`, its agents are the threads, and a run of the broker follows a run of it
(`Follows`, `follows_step`) as long as

* the write of an update request, which comes after the sending, does not fail;
* a thread finds at its write the throttling and the `lastNotification` that it tested, or a `lastNotification` that is
  old enough;
* a thread sends in the second in which it wrote.

`throttled_run`: then the notifications of a subscription are as far apart as it asks for.
`roomBroker_unthrottled`: two threads that read before either writes send in the same second.
`throttling_rule_iff`: when the tests of the request and of the thread are the same rule.
-/

namespace OrionBroker

open Mongo

/-! ## The condition -/

/-- The write after the notification of this iteration takes effect. -/
def SubscriptionCall.Written (env : Env) (ctx : Ctx) (c : SubscriptionCall) : Prop :=
  blockedByThrottling ctx.now c.sub.2 = false →
  (processOnChangeCondition env ctx.tenant [c.en] c.sub.2.attrL none c.sub.1 c.sub.2.reference c.sub.2.format
    ctx.servicePathV c.world).1 = true →
  (processOnChangeCondition env ctx.tenant [c.en] c.sub.2.attrL none c.sub.1 c.sub.2.reference c.sub.2.format
    ctx.servicePathV c.world).2.call.1.writeError = none

/-- The thread has tested the numbers of the subscription, and nothing has been recorded since, or nothing too recent. -/
def Undisturbed (oid : String) (T : Int) (b : Broker) : Place → Prop
  | .answered csi _ => b.world.call.1.writeError = none → ∃ s ∈ b.world.csubs.docs, s.oid = oid ∧
      (¬ (csi.throttling = T ∧ csi.lastNotification = lastNotificationOf s) →
        ∀ last ∈ s.lastNotification, last + T ≤ b.clock)
  | .recorded _ _ second => second = b.clock
  | _ => True

/-- When an act keeps the notifications of a subscription apart. The clock is an `int`. -/
def Act.KeepsApart (env : Env) (tenant oid : String) (T : Int) (b : Broker) : Act → Prop
  | .tick seconds => b.clock + seconds < 2 ^ 31
  | .update ctx ces => ∀ c ∈ updateCalls env (b.context tenant ctx) ces b.world, c.sub.1 = oid →
      c.Written env (b.context tenant ctx)
  | .unsubscribe _ => True
  | .thread i _ => ∀ t ∈ b.threads[i]?, oidOf t.subId = some oid → Undisturbed oid T b t.place

/-- Every act of a run, in the state it finds. -/
def KeepsApartAll (env : Env) (tenant oid : String) (T : Int) : Broker → List Act → Prop
  | _, [] => True
  | b, a :: acts => a.KeepsApart env tenant oid T b ∧ KeepsApartAll env tenant oid T (b.step env tenant a) acts

instance (env : Env) (ctx : Ctx) (c : SubscriptionCall) : Decidable (c.Written env ctx) :=
  inferInstanceAs (Decidable (_ = false → _ = true → _ = none))

instance (oid : String) (T : Int) (b : Broker) (place : Place) : Decidable (Undisturbed oid T b place) :=
  match place with
  | .answered _ _ => inferInstanceAs (Decidable (_ = none → ∃ s ∈ _, _ ∧ _))
  | .recorded _ _ second => inferInstanceAs (Decidable (second = b.clock))
  | .started => .isTrue trivial
  | .awake => .isTrue trivial
  | .informed _ => .isTrue trivial
  | .allowed _ => .isTrue trivial
  | .finished => .isTrue trivial
  | .asleep => .isTrue trivial
  | .terminated => .isTrue trivial

instance (env : Env) (tenant oid : String) (T : Int) (b : Broker) (a : Act) :
    Decidable (a.KeepsApart env tenant oid T b) :=
  match a with
  | .tick _ => inferInstanceAs (Decidable (_ < _))
  | .update _ _ => inferInstanceAs (Decidable (∀ c ∈ _, _ = _ → _))
  | .unsubscribe _ => .isTrue trivial
  | .thread _ _ => inferInstanceAs (Decidable (∀ t ∈ _, _ = _ → _))

instance decidableKeepsApartAll (env : Env) (tenant oid : String) (T : Int) :
    (b : Broker) → (acts : List Act) → Decidable (KeepsApartAll env tenant oid T b acts)
  | _, [] => .isTrue trivial
  | b, a :: acts =>
    have := decidableKeepsApartAll env tenant oid T (b.step env tenant a) acts
    inferInstanceAs (Decidable (_ ∧ _))

/-! ## The abstract run -/

/-- The seconds of the notifications of a subscription. -/
def Broker.times (oid : String) (b : Broker) : List Int := (b.sentTo oid).map Prod.snd

def IntervalThread.recordedFor (oid : String) (t : IntervalThread) : Option Int :=
  if oidOf t.subId = some oid then t.place.recordedAt else none

def pendingOf (oid : String) (threads : List IntervalThread) (i : Nat) : Option Int :=
  threads[i]?.bind (IntervalThread.recordedFor oid)

/-- What a thread has tested. -/
def Place.Tested (clock : Int) : Place → Prop
  | .allowed csi => ∃ c ≤ clock, throttlingPassed csi c = true
  | .answered csi _ => ∃ c ≤ clock, throttlingPassed csi c = true
  | _ => True

/-- A stored subscription, with throttling `T` and the recorded time. -/
structure Stored (oid : String) (T : Int) (record : Option Int) (w : World) : Prop where
  spelled : ∀ s ∈ w.csubs.docs, oidOf s.oid = some s.oid
  throttling : ∀ s ∈ w.csubs.docs, s.oid = oid → s.throttling = some T
  last : ∀ s ∈ w.csubs.docs, s.oid = oid → ∀ l, record = some l → s.lastNotification = some l

/-- The broker follows the abstract run. -/
structure Follows (oid : String) (T : Int) (w : World) (clock : Int) (times : List Int)
    (threads : List IntervalThread) (a : Throttle.State Nat) : Prop where
  now : a.clock = clock
  sent : a.sent = times
  pending : a.pending = pendingOf oid threads
  stored : Stored oid T a.record w
  late : ∀ l, a.record = some l → 1 < l ∧ l ≤ clock
  int : 1 < clock ∧ clock < 2 ^ 31
  tested : ∀ t ∈ threads, oidOf t.subId = some oid → t.place.Tested clock

abbrev Broker.FollowsRun (oid : String) (T : Int) (b : Broker) (a : Throttle.State Nat) : Prop :=
  Follows oid T b.world b.clock (b.times oid) b.threads a

/-! ## What a step does to each part -/

section
variable {oid : String} {T : Int} {w w' : World} {record : Option Int}

theorem Stored.csubs (h : Stored oid T record w) (hc : w'.csubs = w.csubs) : Stored oid T record w' := by
  refine ⟨?_, ?_, ?_⟩
  · rw [hc]; exact h.spelled
  · rw [hc]; exact h.throttling
  · rw [hc]; exact h.last

/-- A notification is recorded. -/
theorem Stored.bumped (h : Stored oid T record w) (now : Int) :
    Stored oid T (some now) (w.updateCsub oid (bumpCount now) fun _ => rfl) := by
  have hmem : ∀ s ∈ (w.updateCsub oid (bumpCount now) fun _ => rfl).csubs.docs,
      (s ∈ w.csubs.docs ∧ s.oid ≠ oid) ∨ ∃ d ∈ w.csubs.docs, d.oid = oid ∧ s = bumpCount now d :=
    fun s hs => (mem_updateCsub (f := bumpCount now) fun _ => rfl).1 hs
  refine ⟨fun s hs => ?_, fun s hs hk => ?_, fun s hs hk l hl => ?_⟩
  · rcases hmem s hs with ⟨hs, _⟩ | ⟨d, hd, _, rfl⟩
    · exact h.spelled s hs
    · exact h.spelled d hd
  · rcases hmem s hs with ⟨_, hne⟩ | ⟨d, hd, hdk, rfl⟩
    · exact absurd hk hne
    · exact h.throttling d hd hdk
  · rcases hmem s hs with ⟨_, hne⟩ | ⟨d, _, _, rfl⟩
    · exact absurd hk hne
    · rw [← Option.some.inj hl]
      rfl

/-- Only other subscriptions change. -/
theorem Stored.others (h : Stored oid T record w) (hoid : ∀ s ∈ w'.csubs.docs, ∃ d ∈ w.csubs.docs, s.oid = d.oid)
    (hsame : ∀ s ∈ w'.csubs.docs, s.oid = oid → s ∈ w.csubs.docs) : Stored oid T record w' := by
  refine ⟨fun s hs => ?_, fun s hs hk => h.throttling s (hsame s hs hk) hk, fun s hs hk => h.last s (hsame s hs hk) hk⟩
  obtain ⟨d, hd, he⟩ := hoid s hs
  rw [he]
  exact h.spelled d hd

/-- The seconds of the notifications `ns` that are for the subscription. -/
def stamped (oid : String) (clock : Int) (ns : List Notification) : List Int :=
  (ns.filter fun n => decide (oidOf n.subscriptionId = some oid)).map fun _ => clock

theorem stamped_append (clock : Int) (ns ms : List Notification) :
    stamped oid clock (ns ++ ms) = stamped oid clock ns ++ stamped oid clock ms := by
  unfold stamped
  rw [List.filter_append, List.map_append]

theorem stamped_other {clock : Int} {ns : List Notification} (h : ∀ n ∈ ns, oidOf n.subscriptionId ≠ some oid) :
    stamped oid clock ns = [] := by
  unfold stamped
  rw [List.filter_eq_nil_iff.2 fun n hn => by simpa using h n hn]
  rfl

theorem stamped_own {clock : Int} {n : Notification} (h : oidOf n.subscriptionId = some oid) :
    stamped oid clock [n] = [clock] := by
  simp [stamped, h]

theorem times_becomes {b : Broker} {ns : List Notification} (h : Sends b.world w ns) :
    (b.becomes w).times oid = b.times oid ++ stamped oid b.clock ns := by
  unfold Broker.times Broker.sentTo stamped
  rw [Broker.sent_becomes h, List.filter_append, List.map_append, List.filter_map, List.map_map]
  rfl

theorem pendingOf_set {threads : List IntervalThread} {i : Nat} {t : IntervalThread} (hi : i < threads.length) :
    pendingOf oid (threads.set i t) = Function.update (pendingOf oid threads) i (t.recordedFor oid) := by
  funext j
  by_cases hj : j = i
  · subst hj
    rw [Function.update_self, pendingOf, List.getElem?_set_self hi]
    rfl
  · rw [Function.update_of_ne hj, pendingOf, pendingOf, List.getElem?_set_ne (Ne.symm hj)]

theorem pendingOf_set_same {threads : List IntervalThread} {i : Nat} {t t' : IntervalThread}
    (ht : threads[i]? = some t) (h : t'.recordedFor oid = t.recordedFor oid) :
    pendingOf oid (threads.set i t') = pendingOf oid threads := by
  have hi : i < threads.length := (List.getElem?_eq_some_iff.1 ht).1
  have hown : pendingOf oid threads i = t.recordedFor oid := by rw [pendingOf, ht]; rfl
  rw [pendingOf_set hi, h, ← hown, Function.update_eq_self]

theorem Place.Tested.later {clock clock' : Int} (hc : clock ≤ clock') {place : Place} (h : place.Tested clock) :
    place.Tested clock' := by
  cases place with
  | allowed csi =>
    obtain ⟨c, hcc, hp⟩ := h
    exact ⟨c, hcc.trans hc, hp⟩
  | answered csi cerV =>
    obtain ⟨c, hcc, hp⟩ := h
    exact ⟨c, hcc.trans hc, hp⟩
  | _ => trivial

theorem tested_of_idle {clock : Int} {place : Place} (h : place.idle = true) : place.Tested clock := by
  cases place <;> trivial

/-- A step of a thread passes the test it makes. -/
theorem Moves.tested {now : Int} {stack : ContextSubscriptionInfo} {subId : String} {place place' : Place}
    (hm : Moves now stack subId w place place' w') (h : place.Tested now) : place'.Tested now := by
  cases hm with
  | idle _ hidle _ => exact tested_of_idle hidle
  | read _ _ _ _ => trivial
  | unread _ => trivial
  | allow _ _ hpassed => exact ⟨now, le_refl _, hpassed⟩
  | answer _ _ _ => exact h
  | record _ _ _ _ _ => trivial
  | send _ _ _ => trivial

end

/-! ## An update request -/

section
variable {env : Env} {ctx : Ctx} {oid : String} {T : Int} {clock : Int} {times : List Int}
  {threads : List IntervalThread} {a : Throttle.State Nat} {w w' : World}

theorem Follows.quiet (h : Follows oid T w clock times threads a) (hq : w.Quiet w') :
    Follows oid T w' clock times threads a := { h with stored := h.stored.csubs hq.csubs }

/-- The test of the request lets nothing through that is too early. -/
theorem elapsed_of_unblocked (hT : 2 ≤ T) (h : Follows oid T w clock times threads a) {s : SubDoc}
    (hs : s ∈ w.csubs.docs) (hk : s.oid = oid) (hb : blockedByThrottling clock (triggeredSubscription s) = false) :
    Throttle.Elapsed T a := by
  intro l hl
  have hlast : s.lastNotification = some l := h.stored.last s hs hk l hl
  have hthrottling : s.throttling = some T := h.stored.throttling s hs hk
  have hlate := h.late l hl
  unfold blockedByThrottling triggeredSubscription at hb
  rw [hlast, hthrottling] at hb
  simp only [Option.getD_some, Bool.and_eq_false_iff, bne_eq_false_iff_eq, decide_eq_false_iff_not] at hb
  rw [h.now]
  rcases hb with (hb | hb) | hb <;> omega

/-- The request writes and sends at once. -/
theorem Follows.notified (h : Follows oid T w clock times threads a) (hstored : Stored oid T (some clock) w') :
    Follows oid T w' clock (times ++ [clock]) threads
      { a with record := some a.clock, sent := a.sent ++ [a.clock] } where
  now := h.now
  sent := by rw [h.now, h.sent]
  pending := h.pending
  stored := by rw [h.now]; exact hstored
  late l hl := by
    rw [← Option.some.inj hl, h.now]
    exact ⟨h.int.1, le_refl _⟩
  int := h.int
  tested := h.tested

/-- One iteration of the request's loop. -/
theorem follows_iteration (hT : 2 ≤ T) (hnow : ctx.now = clock) (h : Follows oid T w clock times threads a)
    {c : SubscriptionCall} (hw : c.world = w) (hf : Fresh c.sub w) (hc : c.sub.1 = oid → c.Written env ctx) :
    ∃ a' ns, Throttle.Steps T a a' ∧ Sends w (processSubscription env ctx c.en c.sub c.world).2 ns ∧
      Follows oid T (processSubscription env ctx c.en c.sub c.world).2 clock (times ++ stamped oid clock ns) threads
        a' := by
  obtain ⟨s, hs, hsub⟩ := hf
  have hkey : c.sub.1 = s.oid := by rw [hsub]
  rw [hw]
  by_cases hk : s.oid = oid
  · rcases processSubscription_cases env ctx c.en c.sub w with hq | ⟨hb, w1, n, hsame, hn, hpair, hok, _⟩
    · refine ⟨a, [], .refl, hq.sends, ?_⟩
      rw [show stamped oid clock [] = [] from rfl, List.append_nil]
      exact h.quiet hq
    · -- the write takes effect
      have hwritten : (w1.emit (.notify n)).call.1.writeError = none := by
        have hc := hc (hkey.trans hk) hb
        rw [hw, hpair] at hc
        exact hc rfl
      have hres := hok hwritten
      have hsends : Sends w (w1.emit (.notify n)).call.2 [n] :=
        (hsame.quiet.sends.trans (sends_emit w1 n)).trans (w1.emit (.notify n)).call_same.quiet.sends
      have hb : blockedByThrottling clock (triggeredSubscription s) = false := by
        rw [← hnow, ← show c.sub.2 = triggeredSubscription s by rw [hsub]]
        exact hb
      have hown : oidOf n.subscriptionId = some oid := by
        rw [hn, hkey, h.stored.spelled s hs, hk]
      have hcsubs : (w1.emit (.notify n)).call.2.csubs = w.csubs :=
        (w1.emit (.notify n)).call_same.csubs.trans hsame.csubs
      refine ⟨_, [n], .single (.notify a (elapsed_of_unblocked hT h hs hk hb)), ?_, ?_⟩
      · rw [hres]
        exact hsends
      · rw [stamped_own hown, hres, hkey, hk, hnow]
        exact h.notified ((h.stored.csubs hcsubs).bumped clock)
  · obtain ⟨ns, hns, hof⟩ := processSubscription_sends env ctx c.en c.sub w
    have hother : stamped oid clock ns = [] := by
      refine stamped_other fun n hn => ?_
      rw [hof n hn, hkey, h.stored.spelled s hs]
      exact fun he => hk (Option.some.inj he)
    refine ⟨a, ns, .refl, hns, ?_⟩
    rw [hother, List.append_nil]
    refine { h with stored := h.stored.others (fun x hx => oid_of_mem_processSubscription hx) fun x hx hxk => ?_ }
    have hne : x.oid ≠ c.sub.1 := by
      rw [hxk, hkey]
      exact fun he => hk he.symm
    exact (mem_csubs_processSubscription hne).1 hx

theorem follows_update (hT : 2 ≤ T) (hnow : ctx.now = clock) (h : Follows oid T w clock times threads a)
    {ces : List ContextElement} (hc : ∀ c ∈ updateCalls env ctx ces w, c.sub.1 = oid → c.Written env ctx) :
    ∃ a' ns, Throttle.Steps T a a' ∧ Sends w (mongoUpdateContext env ctx ces w).2 ns ∧
      Follows oid T (mongoUpdateContext env ctx ces w).2 clock (times ++ stamped oid clock ns) threads a' := by
  let Q : World → Prop := fun w' =>
    ∃ a' ns, Throttle.Steps T a a' ∧ Sends w w' ns ∧ Follows oid T w' clock (times ++ stamped oid clock ns) threads a'
  refine update_induct (Q := Q) ?_ ?_ ?_
  · rintro w1 w2 hq ⟨a', ns, hsteps, hns, hf⟩
    have hsends := hns.trans hq.sends
    rw [List.append_nil] at hsends
    exact ⟨a', ns, hsteps, hsends, hf.quiet hq⟩
  · rintro c hmem hfresh ⟨a1, ns, hsteps, hns, hf⟩
    obtain ⟨a2, ms, hsteps2, hms, hf2⟩ := @follows_iteration env ctx _ _ _ _ _ _ _ hT hnow hf c rfl hfresh (hc c hmem)
    refine ⟨a2, ns ++ ms, hsteps.trans hsteps2, hns.trans hms, ?_⟩
    rw [stamped_append, ← List.append_assoc]
    exact hf2
  · refine ⟨a, [], .refl, (World.Same.refl w).quiet.sends, ?_⟩
    rw [show stamped oid clock [] = [] from rfl, List.append_nil]
    exact h

end

/-! ## A thread -/

section
variable {oid : String} {T : Int} {b : Broker} {a : Throttle.State Nat} {w' : World} {i : Nat}
  {t t' : IntervalThread}

/-- The test of the thread, and what it found at its write. -/
theorem elapsed_of_undisturbed (hT : 2 ≤ T) (hT' : T ≤ 2 ^ 63 - 2 ^ 31) (h : b.FollowsRun oid T a)
    {csi : ContextSubscriptionInfo} {cerV : List ContextElementResponse}
    (htested : (Place.answered csi cerV).Tested b.clock) (hcall : b.world.call.1.writeError = none)
    (hu : Undisturbed oid T b (.answered csi cerV)) : Throttle.Elapsed T a := by
  intro l hl
  obtain ⟨s, hs, hk, hrecent⟩ := hu hcall
  have hlast : s.lastNotification = some l := h.stored.last s hs hk l hl
  obtain ⟨hlate, hpast⟩ := h.late l hl
  have hint := h.int
  rw [h.now]
  by_cases hsame : csi.throttling = T ∧ csi.lastNotification = lastNotificationOf s
  · -- the thread's own test was about what is stored now
    obtain ⟨hthrottling, hsame⟩ := hsame
    obtain ⟨c, hc, hpassed⟩ := htested
    have hread : csi.lastNotification = l := by
      have hl32 : IsInt32 l := by
        unfold IsInt32 INT_MIN
        omega
      rw [hsame, lastNotificationOf, hlast]
      exact if_pos hl32
    have hsum : addInt64 l T = l + T := by
      unfold addInt64
      apply Int.bmod_eq_of_le <;> omega
    unfold throttlingPassed at hpassed
    rw [hread, hthrottling, hsum] at hpassed
    simp only [Bool.or_eq_true, decide_eq_true_eq] at hpassed
    omega
  · exact hrecent hsame l hlast

/-- The parts of the broker that do not see the thread. -/
theorem follows_set (h : b.FollowsRun oid T a) {times : List Int} {a' : Throttle.State Nat} (hnow : a'.clock = a.clock)
    (hsent : a'.sent = times) (hpending : a'.pending = pendingOf oid (b.threads.set i t')) (hstored : Stored oid T a'.record w')
    (hlate : ∀ l, a'.record = some l → 1 < l ∧ l ≤ b.clock)
    (htested : oidOf t'.subId = some oid → t'.place.Tested b.clock) :
    Follows oid T w' b.clock times (b.threads.set i t') a' where
  now := hnow.trans h.now
  sent := hsent
  pending := hpending
  stored := hstored
  late := hlate
  int := h.int
  tested x hx hid := by
    rcases List.mem_or_eq_of_mem_set hx with hx | rfl
    · exact h.tested x hx hid
    · exact htested hid

/-- A thread of another subscription. -/
theorem follows_otherThread {stack : ContextSubscriptionInfo} (h : b.FollowsRun oid T a)
    (hti : b.threads[i]? = some t) (hsub : t'.subId = t.subId) (hid : oidOf t.subId ≠ some oid)
    (hm : Moves b.clock stack t.subId b.world t.place t'.place w') :
    ∃ ns, Sends b.world w' ns ∧
      Follows oid T w' b.clock (b.times oid ++ stamped oid b.clock ns) (b.threads.set i t') a := by
  obtain ⟨hoids, ns, hns, hof⟩ := hm.effect
  have hnone : stamped oid b.clock ns = [] := stamped_other fun n hn => by rw [hof n hn]; exact hid
  have hrec : t'.recordedFor oid = t.recordedFor oid := by
    unfold IntervalThread.recordedFor
    rw [hsub, if_neg hid, if_neg hid]
  refine ⟨ns, hns, ?_⟩
  rw [hnone, List.append_nil]
  refine follows_set h rfl h.sent ?_ (h.stored.others hoids fun s hs hk => ?_) h.late fun hid' => ?_
  · rw [pendingOf_set_same hti hrec]
    exact h.pending
  · -- the document is not the thread's
    generalize t.place = place at hm
    generalize t'.place = place' at hm
    cases hm with
    | idle _ _ hq => exact hq.csubs ▸ hs
    | read _ _ _ hq => exact hq.csubs ▸ hs
    | unread hq => exact hq.csubs ▸ hs
    | allow _ _ _ => exact hs
    | answer _ _ hq => exact hq.csubs ▸ hs
    | record _ _ id hid' _ =>
      rcases (mem_updateCsub (f := bumpCount b.clock) fun _ => rfl).1 hs with ⟨hs, _⟩ | ⟨d, _, hd, rfl⟩
      · rw [b.world.call_same.csubs] at hs
        exact hs
      · have hkd : d.oid = oid := hk
        rw [hid', ← hd, hkd] at hid
        exact absurd rfl hid
    | send _ _ _ => exact hs
  · rw [hsub] at hid'
    exact absurd hid' hid

/-- A thread of the subscription. -/
theorem follows_ownThread {stack : ContextSubscriptionInfo} (hT : 2 ≤ T) (hT' : T ≤ 2 ^ 63 - 2 ^ 31)
    (h : b.FollowsRun oid T a) (hti : b.threads[i]? = some t) (hsub : t'.subId = t.subId)
    (hid : oidOf t.subId = some oid) (hu : Undisturbed oid T b t.place)
    (hm : Moves b.clock stack t.subId b.world t.place t'.place w') :
    ∃ a' ns, Throttle.Steps T a a' ∧ Sends b.world w' ns ∧
      Follows oid T w' b.clock (b.times oid ++ stamped oid b.clock ns) (b.threads.set i t') a' := by
  have hi : i < b.threads.length := (List.getElem?_eq_some_iff.1 hti).1
  have htested := h.tested t (List.mem_of_getElem? hti) hid
  have htested' := hm.tested htested
  have hrec : t.recordedFor oid = t.place.recordedAt := if_pos hid
  have hrec' : t'.recordedFor oid = t'.place.recordedAt := by
    unfold IntervalThread.recordedFor
    rw [hsub, if_pos hid]
  have hown : a.pending i = t.place.recordedAt := by
    rw [h.pending, pendingOf, hti]
    exact hrec
  -- a quiet step, without anything recorded before or after
  have hquiet : t.place.recordedAt = none → t'.place.recordedAt = none → b.world.Quiet w' →
      ∃ a' ns, Throttle.Steps T a a' ∧ Sends b.world w' ns ∧
        Follows oid T w' b.clock (b.times oid ++ stamped oid b.clock ns) (b.threads.set i t') a' := by
    intro hn hn' hq
    refine ⟨a, [], .refl, hq.sends, ?_⟩
    rw [show stamped oid b.clock [] = [] from rfl, List.append_nil]
    refine follows_set h rfl h.sent ?_ (h.stored.csubs hq.csubs) h.late fun _ => htested'
    rw [pendingOf_set_same hti (by rw [hrec, hrec', hn, hn'])]
    exact h.pending
  obtain ⟨subId, place, cancelled⟩ := t
  obtain ⟨subId', place', cancelled'⟩ := t'
  dsimp only at *
  cases hm with
  | idle hn hidle hq =>
    refine hquiet hn ?_ hq
    cases place' <;> first | rfl | cases hidle
  | read sub hmem hoid hq => exact hquiet rfl rfl hq
  | unread hq => exact hquiet rfl rfl hq
  | allow csi _ hpassed => exact hquiet rfl rfl (World.Same.refl _).quiet
  | answer csi cerV hq => exact hquiet rfl rfl hq
  | record csi cerV id hoid hcall =>
    have hk : id = oid := Option.some.inj (hoid.symm.trans hid)
    subst hk
    refine ⟨_, [], .single (.record a i (elapsed_of_undisturbed hT hT' h htested hcall hu)),
      b.world.call_same.quiet.sends, ?_⟩
    rw [show stamped id b.clock [] = [] from rfl, List.append_nil]
    refine follows_set h rfl h.sent ?_ ?_ (fun l hl => ?_) fun _ => htested'
    · show Function.update a.pending i (some a.clock) = _
      rw [pendingOf_set hi, hrec', h.pending, h.now]
      rfl
    · show Stored id T (some a.clock) _
      rw [h.now]
      exact (h.stored.csubs b.world.call_same.csubs).bumped b.clock
    · rw [← Option.some.inj hl, h.now]
      exact ⟨h.int.1, le_refl _⟩
  | send csi cerV second =>
    have hsecond : second = b.clock := hu
    have hpend : a.pending i = some a.clock := by
      rw [hown, h.now, ← hsecond]
      rfl
    have hstamp : stamped oid b.clock [⟨subId, cerV, csi.url, csi.format⟩] = [b.clock] :=
      stamped_own (n := ⟨subId, cerV, csi.url, csi.format⟩) hid
    refine ⟨_, _, .single (.send a i hpend), sends_emit _ _, ?_⟩
    rw [hstamp]
    refine follows_set h rfl ?_ ?_ (h.stored.csubs rfl) h.late fun _ => htested'
    · rw [h.sent, h.now]
    · show Function.update a.pending i none = _
      rw [pendingOf_set hi, hrec', h.pending]
      rfl

end

/-! ## Runs -/

section
variable {env : Env} {tenant oid : String} {T : Int} {b : Broker} {a : Throttle.State Nat}

theorem follows_thread (hT : 2 ≤ T) (hT' : T ≤ 2 ^ 63 - 2 ^ 31) (h : b.FollowsRun oid T a) {i : Nat}
    {stack : ContextSubscriptionInfo} (hk : (Act.thread i stack).KeepsApart env tenant oid T b) :
    ∃ a', Throttle.Steps T a a' ∧ (b.step env tenant (.thread i stack)).FollowsRun oid T a' := by
  unfold Broker.step
  dsimp only
  cases hti : b.threads[i]? with
  | none => exact ⟨a, .refl, h⟩
  | some t =>
    obtain ⟨hsub, hmoves⟩ := t.step_moves env tenant b.clock stack b.world
    by_cases hid : oidOf t.subId = some oid
    · obtain ⟨a', ns, hsteps, hns, hf⟩ := follows_ownThread hT hT' h hti hsub hid (hk t hti hid) hmoves
      rw [← times_becomes hns] at hf
      exact ⟨a', hsteps, hf⟩
    · obtain ⟨ns, hns, hf⟩ := follows_otherThread h hti hsub hid hmoves
      rw [← times_becomes hns] at hf
      exact ⟨a, .refl, hf⟩

theorem pendingOf_cancelThreads (subscriptionId : String) (threads : List IntervalThread) :
    pendingOf oid (cancelThreads subscriptionId threads) = pendingOf oid threads := by
  funext i
  unfold pendingOf cancelThreads
  rw [List.getElem?_map, Option.bind_map]
  congr 1
  funext t
  by_cases hs : t.subId = subscriptionId
  · simp only [Function.comp, if_pos hs]
    rfl
  · simp only [Function.comp, if_neg hs]

theorem follows_unsubscribe (h : b.FollowsRun oid T a) (subscriptionId : String) :
    (b.step env tenant (.unsubscribe subscriptionId)).FollowsRun oid T a := by
  obtain ⟨hs, hdocs, _⟩ := mongoUnsubscribeContext_effect env subscriptionId tenant b.world
  have htimes := @times_becomes oid _ b [] hs
  rw [show stamped oid b.clock [] = [] from rfl, List.append_nil] at htimes
  have hstored : Stored oid T a.record (mongoUnsubscribeContext env subscriptionId tenant b.world).2 :=
    h.stored.others (fun s hs => ⟨s, hdocs s hs, rfl⟩) fun s hs _ => hdocs s hs
  unfold Broker.step
  dsimp only
  split
  · refine ⟨h.now, h.sent.trans htimes.symm, ?_, hstored, h.late, h.int, fun t ht hid => ?_⟩
    · exact h.pending.trans (pendingOf_cancelThreads subscriptionId b.threads).symm
    · obtain ⟨t', ht', hsub, hplace⟩ := cancelThreads_mem ht
      rw [hsub] at hid
      rw [hplace]
      exact h.tested t' ht' hid
  · exact ⟨h.now, h.sent.trans htimes.symm, h.pending, hstored, h.late, h.int, h.tested⟩

/-- Step: an act that meets the condition follows steps of the abstract run. -/
theorem follows_step (hT : 2 ≤ T) (hT' : T ≤ 2 ^ 63 - 2 ^ 31) (h : b.FollowsRun oid T a) {act : Act}
    (hk : act.KeepsApart env tenant oid T b) :
    ∃ a', Throttle.Steps T a a' ∧ (b.step env tenant act).FollowsRun oid T a' := by
  cases act with
  | tick seconds =>
    have hlt : b.clock + (seconds : Int) < 2 ^ 31 := hk
    have hint := h.int
    refine ⟨_, .single (.tick a seconds), ?_, h.sent, h.pending, h.stored, fun l hl => ?_, ?_, fun t ht hid => ?_⟩
    · show a.clock + (seconds : Int) = b.clock + seconds
      rw [h.now]
    · have := h.late l hl
      show 1 < l ∧ l ≤ b.clock + (seconds : Int)
      omega
    · show 1 < b.clock + (seconds : Int) ∧ b.clock + (seconds : Int) < 2 ^ 31
      omega
    · refine (h.tested t ht hid).later ?_
      show b.clock ≤ b.clock + (seconds : Int)
      omega
  | update ctx ces =>
    obtain ⟨a', ns, hsteps, hns, hf⟩ := @follows_update env (b.context tenant ctx) oid T b.clock _ _ _ _ hT rfl h ces hk
    rw [← times_becomes hns] at hf
    exact ⟨a', hsteps, hf⟩
  | unsubscribe subscriptionId => exact ⟨a, .refl, follows_unsubscribe h subscriptionId⟩
  | thread i stack => exact follows_thread hT hT' h hk

theorem follows_run (hT : 2 ≤ T) (hT' : T ≤ 2 ^ 63 - 2 ^ 31) (acts : List Act) :
    ∀ {b : Broker} {a : Throttle.State Nat}, b.FollowsRun oid T a → KeepsApartAll env tenant oid T b acts →
      ∃ a', Throttle.Steps T a a' ∧ (b.run env tenant acts).FollowsRun oid T a' := by
  induction acts with
  | nil => exact fun h _ => ⟨_, .refl, h⟩
  | cons act acts ih =>
    intro b a h hk
    obtain ⟨a1, hsteps, h1⟩ := follows_step hT hT' h hk.1
    obtain ⟨a2, hsteps2, h2⟩ := ih h1 hk.2
    exact ⟨a2, hsteps.trans hsteps2, h2⟩

/-- A subscription with throttling `T`, whose threads have read nothing yet, and no notification so far. -/
structure Begins (oid : String) (T : Int) (b : Broker) : Prop where
  spelled : ∀ s ∈ b.world.csubs.docs, oidOf s.oid = some s.oid
  throttling : ∀ s ∈ b.world.csubs.docs, s.oid = oid → s.throttling = some T
  idle : ∀ t ∈ b.threads, oidOf t.subId = some oid → t.place.idle = true
  unsent : b.sentTo oid = []
  clock : 1 < b.clock ∧ b.clock < 2 ^ 31

theorem recordedAt_of_idle {place : Place} (h : place.idle = true) : place.recordedAt = none := by
  cases place <;> first | rfl | cases h

theorem Begins.follows (h : Begins oid T b) : b.FollowsRun oid T { clock := b.clock } where
  now := rfl
  sent := by
    show [] = (b.sentTo oid).map Prod.snd
    rw [h.unsent]
    rfl
  pending := by
    funext i
    show none = b.threads[i]?.bind (IntervalThread.recordedFor oid)
    cases hti : b.threads[i]? with
    | none => rfl
    | some t =>
      show none = t.recordedFor oid
      unfold IntervalThread.recordedFor
      split
      · rename_i hid
        exact (recordedAt_of_idle (h.idle t (List.mem_of_getElem? hti) hid)).symm
      · rfl
  stored := ⟨h.spelled, h.throttling, fun _ _ _ _ hl => (nomatch hl)⟩
  late := nofun
  int := h.clock
  tested t ht hid := tested_of_idle (h.idle t ht hid)

/-- **Throttling, across threads.** In every interleaving of update requests, unsubscriptions and interval threads
whose acts meet the condition, any two notifications of a subscription with throttling `T` are at least `T` seconds
apart. -/
theorem throttled_run (hT : 2 ≤ T) (hT' : T ≤ 2 ^ 63 - 2 ^ 31) (h : Begins oid T b) (acts : List Act)
    (hk : KeepsApartAll env tenant oid T b acts) :
    ((b.run env tenant acts).times oid).Pairwise fun first second => first + T ≤ second := by
  obtain ⟨a', hsteps, hf⟩ := follows_run hT hT' acts h.follows hk
  rw [← hf.sent]
  exact Throttle.spaced_of_steps (by omega) hsteps

end

/-! ## The two tests

What `processSubscriptions` reads as absent is `-1`, and its test leaves out `1`; `doNotification` leaves out negative
numbers, and asks for one second more. -/

/-- Nothing to wait for: no throttling, no notification so far, or long enough ago. -/
def SubDoc.ThrottlingOver (s : SubDoc) (now : Int) : Prop :=
  ∀ t ∈ s.throttling, ∀ l ∈ s.lastNotification, t ≤ now - l

/-- The numbers of a subscription at the time `now`: the throttling is an `int64_t`, and the last notification, if
any, was earlier. -/
structure SubDoc.Timed (s : SubDoc) (now : Int) : Prop where
  clock : 0 ≤ now ∧ now < 2 ^ 31
  throttling : ∀ t ∈ s.throttling, 0 ≤ t ∧ t < 2 ^ 63
  last : ∀ l ∈ s.lastNotification, 0 ≤ l ∧ l ≤ now

/-- Where the two tests do not go wrong. -/
def SubDoc.ClearCut (s : SubDoc) (now : Int) : Prop :=
  match s.throttling, s.lastNotification with
  | none, _ => True
  | some t, none => t ≤ now + 1
  | some t, some l => t < now - l ∨ (now - l < t ∧ t ≠ 1 ∧ l ≠ 1 ∧ l + t < 2 ^ 63)

section

variable {s : SubDoc} {now : Int}

theorem lastNotificationOf_some {l : Int} (h : s.Timed now) (hl : s.lastNotification = some l) : lastNotificationOf s = l := by
  have hlast := h.last l hl
  have hnow := h.clock
  rw [lastNotificationOf, hl, Option.map_some, Option.getD_some, getIntField, if_pos]
  exact ⟨by unfold INT_MIN; omega, by omega⟩

/-- The test of an update request. -/
theorem blocked_iff (h : s.Timed now) : blockedByThrottling now (triggeredSubscription s) = true ↔
    ∃ t ∈ s.throttling, t ≠ 1 ∧ s.lastNotification ≠ some 1 ∧ now - s.lastNotification.getD (-1) < t := by
  have hclock := h.clock
  simp only [blockedByThrottling, triggeredSubscription, Bool.and_eq_true, bne_iff_ne, decide_eq_true_eq, gt_iff_lt,
    Option.mem_def]
  cases ht : s.throttling with
  | none =>
    refine iff_of_false (fun hblocked => ?_) (by simp)
    cases hl : s.lastNotification with
    | none =>
      rw [hl] at hblocked
      simp at hblocked
      omega
    | some l =>
      have hlast := h.last l hl
      rw [hl] at hblocked
      simp at hblocked
      omega
  | some t =>
    cases hl : s.lastNotification with
    | none => simp
    | some l => simp [and_assoc]

/-- The test of an interval thread. -/
theorem passed_iff (h : s.Timed now) : throttlingPassed (contextSubscriptionInfo s) now = true ↔
    ∀ t ∈ s.throttling, ∀ l ∈ s.lastNotification, addInt64 l t < now := by
  have hread : ∀ l, s.lastNotification = some l → (contextSubscriptionInfo s).lastNotification = l :=
    fun l hl => lastNotificationOf_some h hl
  simp only [throttlingPassed, Bool.or_eq_true, decide_eq_true_eq, Option.mem_def]
  cases ht : s.throttling with
  | none => simp [contextSubscriptionInfo, ht]
  | some t =>
    have hpos := h.throttling t ht
    have hthrottling : (contextSubscriptionInfo s).throttling = t := by simp [contextSubscriptionInfo, ht]
    rw [hthrottling]
    cases hl : s.lastNotification with
    | none => simp [contextSubscriptionInfo, lastNotificationOf, hl]
    | some l =>
      have hlast := h.last l hl
      rw [hread l hl]
      simp only [Option.some.injEq, forall_eq']
      omega

theorem addInt64_lt_iff {l t : Int} (hnow : 0 ≤ now ∧ now < 2 ^ 31) (hl : 0 ≤ l ∧ l ≤ now) (ht : 0 ≤ t ∧ t < 2 ^ 63) :
    addInt64 l t < now ↔ t < now - l ∨ 2 ^ 63 ≤ l + t := by
  unfold addInt64
  by_cases hover : 2 ^ 63 ≤ l + t
  · have hwrap : Int.bmod (l + t) (2 ^ 64) = l + t - 2 ^ 64 := by
      rw [Int.bmod_def]
      omega
    omega
  · have hsame : Int.bmod (l + t) (2 ^ 64) = l + t := by
      rw [Int.bmod_def]
      omega
    omega

/-- **One rule.** When the two tests are the rule, and with it the same. -/
theorem throttling_rule_iff (h : s.Timed now) :
    ((blockedByThrottling now (triggeredSubscription s) = false ↔ s.ThrottlingOver now) ∧
      (throttlingPassed (contextSubscriptionInfo s) now = true ↔ s.ThrottlingOver now)) ↔ s.ClearCut now := by
  have hclock := h.clock
  rw [← Bool.not_eq_true, blocked_iff h, passed_iff h]
  unfold SubDoc.ThrottlingOver SubDoc.ClearCut
  cases ht : s.throttling with
  | none => simp
  | some t =>
    have hpos := h.throttling t ht
    cases hl : s.lastNotification with
    | none =>
      simp only [Option.mem_def, Option.some.injEq, reduceCtorEq, Option.getD_none, false_implies, implies_true,
        iff_true, and_true, ne_eq, not_false_eq_true, true_and, exists_eq_left']
      omega
    | some l =>
      have hlast := h.last l hl
      simp only [Option.mem_def, Option.some.injEq, Option.getD_some, forall_eq', exists_eq_left', ne_eq,
        addInt64_lt_iff hclock hlast hpos]
      omega

end

/-- Notified 10 seconds ago. -/
def tenSecondsAgo (throttling : Int) : SubDoc :=
  { oid := "51c0ac9ed714fb3b37d7d5a8", expiration := 1000, reference := "http://a", throttling := some throttling,
    lastNotification := some 90 }

/-- With a throttling of 10 an update is notified and an interval is not. -/
theorem tenSecondsAgo_disputed :
    (tenSecondsAgo 10).Timed 100 ∧
    blockedByThrottling 100 (triggeredSubscription (tenSecondsAgo 10)) = false ∧
    throttlingPassed (contextSubscriptionInfo (tenSecondsAgo 10)) 100 = false ∧
    (tenSecondsAgo 10).ThrottlingOver 100 := by
  refine ⟨⟨by decide, ?_, ?_⟩, by decide, by decide, ?_⟩
  · rintro t ⟨⟩
    decide
  · rintro l ⟨⟩
    decide
  · rintro t ⟨⟩ l ⟨⟩
    decide

theorem tenSecondsAgo_clear :
    (blockedByThrottling 100 (triggeredSubscription (tenSecondsAgo 20)) = false ↔ (tenSecondsAgo 20).ThrottlingOver 100) ∧
    (throttlingPassed (contextSubscriptionInfo (tenSecondsAgo 20)) 100 = true ↔ (tenSecondsAgo 20).ThrottlingOver 100) := by
  refine (throttling_rule_iff ⟨by decide, ?_, ?_⟩).2 (.inr (by decide))
  · rintro t ⟨⟩
    decide
  · rintro l ⟨⟩
    decide

/-! ## Two runs -/

/-- A new value for the room. -/
def roomChange (value : String) : Act :=
  .update { action := "UPDATE" }
    [{ entityId := { id := "Room", type := "T", isPattern := "false" },
       contextAttributeVector := [{ name := "t", value := value }] }]

/-- The thread notifies; an update is held back, a later one is notified, and the thread is held back. -/
def throttledRun : List Act :=
  threadSteps 0 7 ++ [.tick 5, roomChange "2", .tick 6, roomChange "3"] ++ threadSteps 0 7

theorem throttledRun_apart :
    ((roomBroker 1).run roomEnv "" throttledRun).times "51c0ac9ed714fb3b37d7d5a8" = [100, 111] ∧
    (((roomBroker 1).run roomEnv "" throttledRun).times "51c0ac9ed714fb3b37d7d5a8").Pairwise
      fun first second => first + 10 ≤ second :=
  ⟨by decide +kernel,
   @throttled_run roomEnv "" "51c0ac9ed714fb3b37d7d5a8" 10 (roomBroker 1) (by decide) (by decide)
    ⟨by decide +kernel, by decide +kernel, by decide +kernel, rfl, by decide⟩ throttledRun (by decide +kernel)⟩

/-- **Two notifications in one second.** The thread has read the subscription and passed its test when an update is
notified; then it writes and sends as well. -/
theorem roomBroker_unthrottled :
    Begins "51c0ac9ed714fb3b37d7d5a8" 10 (roomBroker 1) ∧
    ((roomBroker 1).run roomEnv "" (threadSteps 0 4 ++ [roomChange "2"] ++ threadSteps 0 2)).times
      "51c0ac9ed714fb3b37d7d5a8" = [100, 100] ∧
    ¬ (((roomBroker 1).run roomEnv "" (threadSteps 0 4 ++ [roomChange "2"] ++ threadSteps 0 2)).times
      "51c0ac9ed714fb3b37d7d5a8").Pairwise fun first second => first + 10 ≤ second :=
  ⟨⟨by decide +kernel, by decide +kernel, by decide +kernel, rfl, by decide⟩, by decide +kernel, by decide +kernel⟩

end OrionBroker
