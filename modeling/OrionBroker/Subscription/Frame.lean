import OrionBroker.Subscription.Operations

/-!
# What an update of a subscription keeps

`Kept` is the frame of `mongoUpdateContextSubscription`: the fields no request can carry, the ones this
request does not carry, and the notification fields when it sent nothing. The document is rebuilt field by
field; the service path is not among the fields copied, and the reference passes through a C string:
`subscription_kept_iff`.

* `StoredInts` - `lastNotification` and `count` are stored as `int`; `mongoSubscribeContext_storedInts`.
* `replaced` - what a successful update leaves in the collection.
-/

namespace OrionBroker

open Mongo

/-- `s'`, the document after the request, has what the request did not change. The trace only grows by the
notifications the request sends. -/
structure Kept (requestP : UpdateContextSubscriptionRequest) (w w' : World) (s s' : SubDoc) : Prop where
  entities : s'.entities = s.entities
  attrs : s'.attrs = s.attrs
  reference : s'.reference = s.reference
  servicePath : s'.servicePath = s.servicePath
  expiration : requestP.duration = "" → s'.expiration = s.expiration
  throttling : requestP.throttling = "" → s'.throttling = s.throttling
  conditions : requestP.notifyConditionVector = [] → s'.conditions = s.conditions
  notified : w'.trace = w.trace → s'.count = s.count ∧ s'.lastNotification = s.lastNotification

/-- `lastNotification` and `count` fit in an `int`. -/
structure StoredInts (s : SubDoc) : Prop where
  lastNotification : ∀ n ∈ s.lastNotification, IsInt32 n
  count : ∀ n ∈ s.count, IsInt32 n

theorem map_getIntField {v : Option Int} (h : ∀ n ∈ v, IsInt32 n) : v.map getIntField = v := by
  cases v with
  | none => rfl
  | some n => simp [getIntField, h n rfl]

/-- What `mongoSubscribeContext` stores; the clock is an `int`. -/
theorem mongoSubscribeContext_storedInts (env : Env) (requestP : SubscribeContextRequest)
    (tenant notifyFormat : String) (servicePathV : List String) {now : Int} (oid : String) {w : World}
    (hn : IsInt32 now) (h : ∀ s ∈ w.csubs.docs, StoredInts s) :
    ∀ s ∈ (mongoSubscribeContext env requestP tenant notifyFormat servicePathV now oid w).2.csubs.docs,
      StoredInts s := by
  have hdoc : ∀ c : Conditions, StoredInts (subscribedDoc requestP notifyFormat servicePathV now oid c) := by
    intro c
    refine ⟨fun n hm => ?_, fun n hm => ?_⟩
    · unfold subscribedDoc at hm
      dsimp only at hm
      split at hm
      · cases hm; exact hn
      · cases hm
    · unfold subscribedDoc at hm
      dsimp only at hm
      split at hm
      · cases hm; decide
      · cases hm
  unfold mongoSubscribeContext
  extract_lets c doc
  have hrun : c.world.csubs = w.csubs := (processConditionVector_run env _ _ w).csubs
  have hcall : c.world.call.2.csubs = w.csubs := c.world.call_same.csubs.trans hrun
  split
  · rw [hrun]; exact h
  · dsimp only
    split
    · rw [hcall]; exact h
    · split
      · rw [hcall]; exact h
      · rename_i csubs hi
        rw [hcall] at hi
        exact Collection.insert_forall hi h (hdoc c)

/-! ## A successful update -/

section
variable {env : Env} {requestP : UpdateContextSubscriptionRequest} {inFormat : Format} {tenant : String}
  {servicePathV : List String} {now : Int} {w : World} {s : SubDoc}

/-- The conditions leave the subscriptions alone, and report a notification exactly when one was sent. -/
theorem updatedConditions_run :
    let c := updatedConditions env s requestP inFormat tenant servicePathV w
    c.world.csubs = w.csubs ∧ (c.notificationDone = true ↔ c.world.trace ≠ w.trace) ∧
      (requestP.notifyConditionVector = [] → c.conds = s.conditions) := by
  intro c
  by_cases hv : requestP.notifyConditionVector = []
  · have hc : c = ⟨s.conditions, false, w, false⟩ := by
      show updatedConditions env s requestP inFormat tenant servicePathV w = _
      simp [updatedConditions, hv]
    rw [hc]
    exact ⟨rfl, by simp, fun _ => rfl⟩
  · have hlen : requestP.notifyConditionVector.length ≠ 0 := fun h => hv (List.length_eq_zero_iff.1 h)
    have hc : c = processConditionVector env _ requestP.notifyConditionVector _ := if_neg hlen
    have hrun := processConditionVector_run env
      { enV := subToEntityIdVector s, attrL := subToAttributeList s, subId := requestP.subscriptionId,
        url := cString s.reference, format := inFormat, tenant := tenant, servicePathV := servicePathV }
      requestP.notifyConditionVector (w.destroyOntimeIntervalThreads requestP.subscriptionId)
    rw [← hc] at hrun
    obtain ⟨ns, ht, _, hd⟩ := hrun.sent
    refine ⟨hrun.csubs, ?_, fun h => absurd h hv⟩
    rw [hd, ht]
    simp [World.destroyOntimeIntervalThreads]

/-- `findOne` on the identifier of a stored subscription. -/
theorem findOne_csubs (hs : s ∈ w.csubs.docs) : w.csubs.docs.find? (fun d => d.oid == s.oid) = some s := by
  cases hf : w.csubs.docs.find? fun d => d.oid == s.oid with
  | none =>
    have := List.find?_eq_none.1 hf s hs
    simp at this
  | some d =>
    have hk : d.oid = s.oid := by simpa using List.find?_some hf
    rw [w.csubs.eq_of_key (List.mem_of_find?_eq_some hf) hs hk]

/-- The answer of a request that took effect. -/
def Succeeded (answer : Option SubscriptionResponse) : Prop := ∃ r, answer = some r ∧ r.subscribeError.code = .none

instance (answer : Option SubscriptionResponse) : Decidable (Succeeded answer) :=
  match answer with
  | none => .isFalse (by rintro ⟨r, h, -⟩; cases h)
  | some r => decidable_of_iff (r.subscribeError.code = .none) (by simp [Succeeded])

/-- How a replacement ends: the broker dies in the conditions, the write fails, or the document is replaced. -/
theorem replaceSubscription_cases :
    let c := updatedConditions env s requestP inFormat tenant servicePathV w
    let res := replaceSubscription env s requestP inFormat tenant servicePathV now w
    (c.died = true ∧ res = (none, c.world)) ∨
    (c.died = false ∧ c.world.call.1.writeError ≠ none ∧ ¬ Succeeded res.1 ∧ res.1.isSome = true ∧
      res.2 = c.world.call.2) ∨
    (c.died = false ∧ c.world.call.1.writeError = none ∧ Succeeded res.1 ∧
      res.2 = c.world.call.2.updateCsub s.oid
        (newSub s requestP inFormat now c.conds c.notificationDone).replacedBy fun _ => rfl) := by
  intro c res
  have hres : res = replaceSubscription env s requestP inFormat tenant servicePathV now w := rfl
  unfold replaceSubscription at hres
  dsimp only at hres
  split at hres
  · rename_i hd
    exact .inl ⟨hd, hres⟩
  · rename_i hd
    have hd : c.died = false := by simpa using hd
    split at hres
    · rename_i what he
      refine .inr (.inl ⟨hd, ?_, ?_, by rw [hres]; rfl, by rw [hres]⟩)
      · exact fun hn => by cases hn.symm.trans he
      · rw [hres]
        rintro ⟨r, h, hcode⟩
        cases h
        cases hcode
    · rename_i he
      exact .inr (.inr ⟨hd, he, by rw [hres]; exact ⟨_, rfl, rfl⟩, by rw [hres]⟩)

theorem replaceSubscription_ok (hs : s ∈ w.csubs.docs)
    (hok : Succeeded (replaceSubscription env s requestP inFormat tenant servicePathV now w).1) :
    let c := updatedConditions env s requestP inFormat tenant servicePathV w
    newSub s requestP inFormat now c.conds c.notificationDone ∈
        (replaceSubscription env s requestP inFormat tenant servicePathV now w).2.csubs.docs ∧
      (replaceSubscription env s requestP inFormat tenant servicePathV now w).2.trace = c.world.trace := by
  intro c
  have hlast := c.world.call_same
  have hmem : s ∈ c.world.call.2.csubs.docs := by
    rw [hlast.csubs, updatedConditions_run.1]
    exact hs
  rcases @replaceSubscription_cases env requestP inFormat tenant servicePathV now w s with
    ⟨_, he⟩ | ⟨_, _, hno, _⟩ | ⟨_, _, _, he⟩
  · rw [he] at hok
    obtain ⟨r, h, -⟩ := hok
    cases h
  · exact absurd hok hno
  · rw [he]
    let update := newSub s requestP inFormat now c.conds c.notificationDone
    have hmod : update.replacedBy s ∈ (c.world.call.2.csubs.modify s.oid update.replacedBy fun _ => rfl).docs :=
      Collection.mem_modify.2 (.inr ⟨s, hmem, rfl, rfl⟩)
    exact ⟨hmod, hlast.trace⟩

/-- **What a successful update leaves**: the new document under the old identifier, and the notifications
its conditions sent. -/
theorem replaced (hs : s ∈ w.csubs.docs) (hid : oidOf requestP.subscriptionId = some s.oid)
    (hok : Succeeded (mongoUpdateContextSubscription env requestP inFormat tenant servicePathV now w).1) :
    ∃ conds notificationDone,
      newSub s requestP inFormat now conds notificationDone ∈
        (mongoUpdateContextSubscription env requestP inFormat tenant servicePathV now w).2.csubs.docs ∧
      (notificationDone = true ↔
        (mongoUpdateContextSubscription env requestP inFormat tenant servicePathV now w).2.trace ≠ w.trace) ∧
      (requestP.notifyConditionVector = [] → conds = s.conditions) := by
  unfold mongoUpdateContextSubscription at hok ⊢
  rw [hid] at hok ⊢
  have hcall := w.call_same
  have hs1 : s ∈ w.call.2.csubs.docs := by rw [hcall.csubs]; exact hs
  dsimp only at hok ⊢
  have hfail : ∀ code details, code ≠ .none → ¬ Succeeded (some (subscribeErrorResponse code details)) := by
    rintro code details hne ⟨r, he, hcode⟩
    cases he
    exact hne hcode
  -- the three exceptions of `findOne` are errors
  split at hok
  · exact absurd hok (hfail _ _ (by decide))
  · exact absurd hok (hfail _ _ (by decide))
  · exact absurd hok (hfail _ _ (by decide))
  · rw [findOne_csubs hs1] at hok ⊢
    obtain ⟨_, hdone, hconds⟩ := @updatedConditions_run env requestP inFormat tenant servicePathV w.call.2 s
    obtain ⟨hnew, htrace⟩ := replaceSubscription_ok hs1 hok
    refine ⟨_, _, hnew, ?_, hconds⟩
    rw [hdone, hcall.trace]
    show _ ↔ (replaceSubscription env s requestP inFormat tenant servicePathV now w.call.2).2.trace ≠ _
    rw [htrace]

/-- **The update keeps what the request does not carry exactly when the subscription has no service path and no NUL in
its reference.** -/
theorem subscription_kept_iff (hs : s ∈ w.csubs.docs) (hid : oidOf requestP.subscriptionId = some s.oid)
    (hint : StoredInts s)
    (hok : Succeeded (mongoUpdateContextSubscription env requestP inFormat tenant servicePathV now w).1) :
    ∃ s' ∈ (mongoUpdateContextSubscription env requestP inFormat tenant servicePathV now w).2.csubs.docs,
      s'.oid = s.oid ∧
      (Kept requestP w (mongoUpdateContextSubscription env requestP inFormat tenant servicePathV now w).2 s s' ↔
        s.servicePath = none ∧ NoNul s.reference) := by
  obtain ⟨conds, done, hmem, hdone, hconds⟩ := replaced hs hid hok
  refine ⟨_, hmem, rfl, ?_⟩
  constructor
  · intro h
    exact ⟨h.servicePath.symm, (cString_eq_iff _).1 h.reference⟩
  · rintro ⟨hp, hnul⟩
    refine ⟨rfl, rfl, hnul.cString, hp.symm, fun h => ?_, fun h => ?_, hconds, fun htrace => ?_⟩
    · simp [newSub, h]
    · simp [newSub, h]
    · have hfalse : done = false := by
        cases done with
        | false => rfl
        | true => exact absurd htrace (hdone.1 rfl)
      subst hfalse
      exact ⟨map_getIntField hint.count, map_getIntField hint.lastNotification⟩

end

/-! ## Two subscriptions -/

/-- The state after subscribing to `Room` under the given paths. -/
def afterSubscribe (servicePathV : List String) : World :=
  (mongoSubscribeContext (Env.plain fun _ _ => false)
    { entityIdVector := [{ id := "Room", type := "T", isPattern := "false" }], reference := "http://host/notify",
      notifyConditionVector := [⟨"ONCHANGE", ["t"]⟩], throttling := "PT5S" }
    "" "JSON" servicePathV 100 "51c0ac9ed714fb3b37d7d5a8" {}).2

/-- A request that only prolongs it. -/
def prolong : UpdateContextSubscriptionRequest := { subscriptionId := "51c0ac9ed714fb3b37d7d5a8", duration := "P1D" }

/-- The subscription stored. -/
def roomSub (servicePath : Option String) : SubDoc where
  oid := "51c0ac9ed714fb3b37d7d5a8"
  expiration := 86500
  reference := "http://host/notify"
  throttling := some 5
  servicePath := servicePath
  entities := [⟨"Room", some "T", "false"⟩]
  conditions := [.onChange ["t"]]
  format := some "JSON"

theorem roomSub_kept :
    (afterSubscribe []).csubs.docs = [roomSub none] ∧
    ∃ s' ∈ (mongoUpdateContextSubscription (Env.plain fun _ _ => false) prolong .json "" [] 200
        (afterSubscribe [])).2.csubs.docs,
      s'.oid = (roomSub none).oid ∧
      (Kept prolong (afterSubscribe []) (mongoUpdateContextSubscription (Env.plain fun _ _ => false) prolong .json
        "" [] 200 (afterSubscribe [])).2 (roomSub none) s' ↔
          (roomSub none).servicePath = none ∧ NoNul (roomSub none).reference) :=
  ⟨by decide +kernel,
   @subscription_kept_iff (Env.plain fun _ _ => false) prolong .json "" [] 200 (afterSubscribe []) (roomSub none)
    (by decide +kernel) (by decide +kernel) ⟨by simp [roomSub], by simp [roomSub]⟩ (by decide +kernel)⟩

/-- **The service path is lost.** A subscription under `/a` that is only prolonged has no service path
afterwards. -/
theorem roomSub_path_lost :
    (afterSubscribe ["/a"]).csubs.docs = [roomSub (some "/a")] ∧
    Succeeded (mongoUpdateContextSubscription (Env.plain fun _ _ => false) prolong .json "" ["/a"] 200
      (afterSubscribe ["/a"])).1 ∧
    (mongoUpdateContextSubscription (Env.plain fun _ _ => false) prolong .json "" ["/a"] 200
      (afterSubscribe ["/a"])).2.csubs.docs.map SubDoc.oid = [(roomSub none).oid] ∧
    ∀ s' ∈ (mongoUpdateContextSubscription (Env.plain fun _ _ => false) prolong .json "" ["/a"] 200
        (afterSubscribe ["/a"])).2.csubs.docs,
      ¬ Kept prolong (afterSubscribe ["/a"]) (mongoUpdateContextSubscription (Env.plain fun _ _ => false) prolong
        .json "" ["/a"] 200 (afterSubscribe ["/a"])).2 (roomSub (some "/a")) s' := by
  refine ⟨by decide +kernel, by decide +kernel, by decide +kernel, fun s' hs' hk => ?_⟩
  have hlost : ∀ d ∈ (mongoUpdateContextSubscription (Env.plain fun _ _ => false) prolong .json "" ["/a"] 200
      (afterSubscribe ["/a"])).2.csubs.docs, d.servicePath = none := by decide +kernel
  have hp := hk.servicePath
  rw [hlost s' hs'] at hp
  cases hp

end OrionBroker
