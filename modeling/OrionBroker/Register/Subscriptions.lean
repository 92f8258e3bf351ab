import Mathlib.Logic.Relation
import OrionBroker.Register.Availability
import OrionBroker.Subscription.Threads

/-!
# Availability subscriptions and the requests on the registry

| here | there |
| --- | --- |
| `mongoSubscribeContextAvailability`          | the same (mongoSubscribeContextAvailability.cpp:43) |
| `newCasub`                                   | the document of the update (mongoUpdateContextAvailabilitySubscription.cpp:107-156) |
| `mongoUpdateContextAvailabilitySubscription` | the same (:41) |
| `mongoUnsubscribeContextAvailability`        | the same (mongoUnsubscribeContextAvailability.cpp:41) |
| `mongoRegisterContext`                       | the same (mongoRegisterContext.cpp:46) |
| `mongoNotifyContextAvailability`             | the same (mongoNotifyContextAvailability.cpp:37) |
| `RegistryRequest`, `serve`          | the requests that write the registry, served one at a time |

An update notifies under the identifier as the client spelled it and counts under the document's. A broker that
died on a null cursor has left what it had written; the next request finds a broker that was started again.

`Change` lists what can happen to the subscriptions and to the notifications sent; `serve_served` takes every
request apart into changes, and the results about runs are about changes only.
-/

namespace OrionBroker

/-- The notifications sent to a subscription, in whatever spelling of its identifier. -/
def Registry.sentTo (r : Registry) (oid : String) : Nat :=
  r.sent.countP fun n => decide (oidOf n.subscriptionId = some oid)

/-- A subscription is stored under `id` with the address `url`, up to the first NUL. -/
def Registry.Address (r : Registry) (id url : String) : Prop :=
  ∃ s ∈ r.casubs.docs, s.oid = id ∧ cString s.reference = cString url

/-- No database call to come fails. -/
def Registry.Sure (r : Registry) : Prop := r.outcomes = []

instance (r : Registry) : Decidable r.Sure := inferInstanceAs (Decidable (r.outcomes = []))

/-- The subscriptions and what was sent stay, and calls are used up at most. -/
structure Registry.Quiet (r r' : Registry) : Prop where
  casubs : r'.casubs = r.casubs
  sent : r'.sent = r.sent
  outcomes : r'.outcomes <:+ r.outcomes

theorem Registry.Quiet.refl (r : Registry) : Registry.Quiet r r := ⟨rfl, rfl, List.suffix_refl _⟩

theorem Registry.Quiet.trans {r r' r'' : Registry} (h : Registry.Quiet r r') (h' : Registry.Quiet r' r'') :
    Registry.Quiet r r'' :=
  ⟨h'.casubs.trans h.casubs, h'.sent.trans h.sent, h'.outcomes.trans h.outcomes⟩

theorem Registry.Quiet.address {r r' : Registry} (h : Registry.Quiet r r') {id url : String}
    (ha : r.Address id url) : r'.Address id url := by
  rw [Registry.Address, h.casubs]
  exact ha

theorem Registry.call_quiet (r : Registry) : Registry.Quiet r r.call.2 := by
  refine ⟨r.call_same.casubs, r.call_same.sent, ?_⟩
  unfold Registry.call
  cases h : r.outcomes with
  | nil => simp [h]
  | cons o os => exact List.suffix_cons o os

theorem Registry.Sure.call {r : Registry} (h : r.Sure) : r.call = (.ok, r) := by
  unfold Registry.Sure at h
  unfold Registry.call
  rw [h]

end OrionBroker

namespace OrionBroker.Register

open Mongo

/-! ## Subscribing -/

structure SubscribeContextAvailabilityRequest where
  entityIdVector : List EntityId
  attributeList : List String := []
  reference : String := ""
  duration : String := ""
deriving DecidableEq, Repr

/-- Also the response of an update; without an error the code stays `none`. -/
structure SubscribeContextAvailabilityResponse where
  subscriptionId : String := ""
  duration : String := ""
  errorCode : StatusCode := {}
deriving DecidableEq, Repr

/-- An empty type is left out. -/
def casubSubEntity (en : EntityId) : SubEntity :=
  ⟨en.id, if en.type = "" then none else some en.type, en.isPattern⟩

def availabilityDuration (requestP : SubscribeContextAvailabilityRequest) : String :=
  if requestP.duration = "" then DEFAULT_DURATION else requestP.duration

def subscribedCasub (requestP : SubscribeContextAvailabilityRequest) (inFormat : Format) (now : Int) (oid : String) :
    CasubDoc where
  oid := oid
  expiration := now + parse8601 (availabilityDuration requestP)
  reference := requestP.reference
  entities := requestP.entityIdVector.map casubSubEntity
  attrs := requestP.attributeList
  format := some (formatToString inFormat)

def casubInsertErrorText (env : Env) (tenant : String) (doc : CasubDoc) (what : String) : String :=
  "collection: " ++ getSubscribeContextAvailabilityCollectionName env tenant ++ " - insert(): " ++
  env.docText doc.toBson ++ " - exception: " ++ what

/-- `oid` is the identifier the driver makes up. -/
def mongoSubscribeContextAvailability (env : Env) (regcomp : Regcomp) (tenant : String) (now : Int) (oid : String)
    (requestP : SubscribeContextAvailabilityRequest) (inFormat : Format) (r : Registry) :
    Option SubscribeContextAvailabilityResponse × Registry :=
  let doc := subscribedCasub requestP inFormat now oid
  let (o, r) := r.call
  match o.writeError with
  | some what =>
    (some { errorCode := ⟨.receiverInternalError, casubInsertErrorText env tenant doc what⟩ }, r)
  | none =>
    match r.casubs.insert doc with
    | none =>
      (some { errorCode :=
        ⟨.receiverInternalError, casubInsertErrorText env tenant doc "E11000 duplicate key error"⟩ }, r)
    | some casubs =>
      match processAvailabilitySubscription env regcomp tenant now requestP.entityIdVector requestP.attributeList oid
          requestP.reference inFormat { r with casubs := casubs } with
      | (none, r) => (none, r)
      | (some _, r) => (some { subscriptionId := oid, duration := availabilityDuration requestP }, r)

/-! ## Updating -/

structure UpdateContextAvailabilitySubscriptionRequest where
  subscriptionId : String
  entityIdVector : List EntityId
  attributeList : List String := []
  duration : String := ""
deriving DecidableEq, Repr

/-- The document that replaces `sub`. -/
def newCasub (sub : CasubDoc) (requestP : UpdateContextAvailabilitySubscriptionRequest) (inFormat : Format)
    (now : Int) : CasubDoc where
  oid := sub.oid
  entities := requestP.entityIdVector.map casubSubEntity
  attrs := requestP.attributeList
  expiration := if requestP.duration = "" then sub.expiration else now + parse8601 requestP.duration
  reference := cString sub.reference
  lastNotification := sub.lastNotification.map getIntField
  count := sub.count.map getIntField
  format := some (formatToString inFormat)

/-- A replacement keeps the `_id`. -/
def CasubDoc.replacedBy (update s : CasubDoc) : CasubDoc := { update with oid := s.oid }

/-- The fields of the update, without the `_id`. -/
def CasubDoc.fields (s : CasubDoc) : List (String × Bson) :=
  [("entities", .arr (s.entities.map casubEntity)), ("attrs", .arr (s.attrs.map .str)),
    ("expiration", .int s.expiration), ("reference", .str s.reference)] ++
  (optField "lastNotification" (s.lastNotification.map .int) ++ optField "count" (s.count.map .int) ++
    optField "format" (s.format.map .str))

/-- What the three error texts of a subscription start with. -/
def casubErrorText (env : Env) (tenant call subscriptionId what : String) : String :=
  "collection: " ++ getSubscribeContextAvailabilityCollectionName env tenant ++ " - " ++ call ++ "() _id: " ++
  subscriptionId ++ what

def casubFindOneErrorText (env : Env) (tenant subscriptionId what : String) : String :=
  casubErrorText env tenant "findOne" subscriptionId (" - exception: " ++ what)

def casubUpdateErrorText (env : Env) (tenant subscriptionId : String) (doc : CasubDoc) (what : String) : String :=
  casubErrorText env tenant "update" subscriptionId
    (" - update() doc: " ++ env.docText (.obj (CasubDoc.fields doc)) ++ " - exception: " ++ what)

def casubRemoveErrorText (env : Env) (tenant subscriptionId what : String) : String :=
  casubErrorText env tenant "remove" subscriptionId (" - exception: " ++ what)

/-- The `findOne` of the two requests on a stored subscription: the document, or the status of the failure. A null
cursor inside `findOne` is an assertion, like a malformed identifier. -/
def findCasub (env : Env) (tenant subscriptionId : String) (r : Registry) :
    Except StatusCode (Option CasubDoc) × Registry :=
  match oidOf subscriptionId with
  | none => (.error ⟨.contextElementNotFound, ""⟩, r)
  | some id =>
    let (o, r) := r.call
    match o with
    | .nullCursor => (.error ⟨.contextElementNotFound, ""⟩, r)
    | .dbException what => (.error ⟨.receiverInternalError, casubFindOneErrorText env tenant subscriptionId what⟩, r)
    | .otherException =>
      (.error ⟨.receiverInternalError, casubFindOneErrorText env tenant subscriptionId "generic"⟩, r)
    | .ok => (.ok (r.casubs.docs.find? fun s => s.oid == id), r)

/-- `processAvailabilitySubscription` when the notification carries another spelling than the document's. -/
def processAvailabilitySubscriptionAs (env : Env) (regcomp : Regcomp) (tenant : String) (now : Int)
    (enV : List EntityId) (attrL : List String) (subId oid notifyUrl : String) (format : Format) (r : Registry) :
    Option Bool × Registry :=
  match registrationsQuery env regcomp tenant now enV attrL [] DEFAULT_PAGINATION_OFFSET_INT
      DEFAULT_PAGINATION_LIMIT_INT false r with
  | (.crashed, r) => (none, r)
  | (.failed _, r) => (some false, r)
  | (.found crrV _, r) =>
    if crrV.length > 0 then
      (some true, mongoUpdateCasubNewNotification now oid { r with sent := r.sent ++ [⟨subId, crrV, notifyUrl, format⟩] })
    else (some false, r)

theorem processAvailabilitySubscriptionAs_self (env : Env) (regcomp : Regcomp) (tenant : String) (now : Int)
    (enV : List EntityId) (attrL : List String) (oid notifyUrl : String) (format : Format) (r : Registry) :
    processAvailabilitySubscriptionAs env regcomp tenant now enV attrL oid oid notifyUrl format r =
      processAvailabilitySubscription env regcomp tenant now enV attrL oid notifyUrl format r := rfl

def mongoUpdateContextAvailabilitySubscription (env : Env) (regcomp : Regcomp) (tenant : String) (now : Int)
    (requestP : UpdateContextAvailabilitySubscriptionRequest) (inFormat : Format) (r : Registry) :
    Option SubscribeContextAvailabilityResponse × Registry :=
  match findCasub env tenant requestP.subscriptionId r with
  | (.error code, r) => (some { errorCode := code }, r)
  | (.ok none, r) => (some { errorCode := ⟨.contextElementNotFound, ""⟩ }, r)
  | (.ok (some sub), r) =>
    let update := newCasub sub requestP inFormat now
    let (o, r) := r.call
    match o.writeError with
    | some what =>
      (some { errorCode :=
        ⟨.receiverInternalError, casubUpdateErrorText env tenant requestP.subscriptionId update what⟩ }, r)
    | none =>
      let casubs := r.casubs.modify sub.oid (CasubDoc.replacedBy update) fun _ => rfl
      match processAvailabilitySubscriptionAs env regcomp tenant now requestP.entityIdVector requestP.attributeList
          requestP.subscriptionId sub.oid (cString sub.reference) inFormat { r with casubs := casubs } with
      | (none, r) => (none, r)
      | (some _, r) =>
        (some { subscriptionId := requestP.subscriptionId, duration := requestP.duration }, r)

/-! ## Unsubscribing -/

/-- The identifier of the answer is the one of the request, whatever happens. -/
def mongoUnsubscribeContextAvailability (env : Env) (tenant subscriptionId : String) (r : Registry) :
    UnsubscribeContextResponse × Registry :=
  match findCasub env tenant subscriptionId r with
  | (.error code, r) => (⟨subscriptionId, code⟩, r)
  | (.ok none, r) => (⟨subscriptionId, ⟨.contextElementNotFound, ""⟩⟩, r)
  | (.ok (some sub), r) =>
    let (o, r) := r.call
    match o.writeError with
    | some what => (⟨subscriptionId, ⟨.receiverInternalError, casubRemoveErrorText env tenant subscriptionId what⟩⟩, r)
    | none => (⟨subscriptionId, ⟨.ok, ""⟩⟩, { r with casubs := r.casubs.remove fun s => s.oid == sub.oid })

/-! ## Registering -/

def regFindOneErrorText (env : Env) (tenant registrationId what : String) : String :=
  "collection: " ++ getRegistrationsCollectionName env tenant ++ " - findOne() _id: " ++ registrationId ++
  " - exception: " ++ what

/-- `newOid` is for a new registration; with a `registrationId` the registration is looked for, in the service path
of the request, and replaced. -/
def mongoRegisterContext (env : Env) (regcomp : Regcomp) (tenant servicePath : String) (now : Int) (newOid : String)
    (requestP : RegisterContextRequest) (r : Registry) : Option RegisterContextResponse × Registry :=
  let sPath := if servicePath = "" then "/" else servicePath
  if requestP.registrationId = "" then processRegisterContext env regcomp tenant sPath now newOid requestP r
  else
    match oidOf requestP.registrationId with
    | none =>
      (some { registrationId := requestP.registrationId, errorCode := { code := .contextElementNotFound } }, r)
    | some id =>
      let (o, r) := r.call
      match o with
      | .nullCursor =>
        (some { registrationId := requestP.registrationId, errorCode := { code := .contextElementNotFound } }, r)
      | .dbException what =>
        (some { errorCode :=
          ⟨.receiverInternalError, regFindOneErrorText env tenant requestP.registrationId what⟩ }, r)
      | .otherException =>
        (some { errorCode :=
          ⟨.receiverInternalError, regFindOneErrorText env tenant requestP.registrationId "generic"⟩ }, r)
      | .ok =>
        if r.registrations.docs.any fun d => d.oid == id && d.servicePath == some sPath then
          processRegisterContext env regcomp tenant sPath now id requestP r
        else
          (some { registrationId := requestP.registrationId,
                  errorCode := ⟨.contextElementNotFound, "registration id: /" ++ requestP.registrationId ++ "/"⟩ }, r)

/-- The registrations of a notification, as a new registration; its answer is not looked at. -/
def mongoNotifyContextAvailability (env : Env) (regcomp : Regcomp) (tenant servicePath : String) (now : Int)
    (oid : String) (crV : List ContextRegistration) (r : Registry) : Option StatusCode × Registry :=
  match processRegisterContext env regcomp tenant servicePath now oid
      { contextRegistrationVector := crV, duration := DEFAULT_DURATION } r with
  | (none, r) => (none, r)
  | (some _, r) => (some { code := .ok }, r)

/-! ## Requests -/

inductive RegistryRequest where
  | register (servicePath newOid : String) (requestP : RegisterContextRequest)
  | notifyAvailability (servicePath newOid : String) (crV : List ContextRegistration)
  | subscribe (newOid : String) (requestP : SubscribeContextAvailabilityRequest) (inFormat : Format)
  | updateSubscription (requestP : UpdateContextAvailabilitySubscriptionRequest) (inFormat : Format)
  | unsubscribe (subscriptionId : String)

section
variable (env : Env) (regcomp : Regcomp) (tenant : String)

/-- The registry after a request that comes at `now`. -/
def serve (now : Int) (req : RegistryRequest) (r : Registry) : Registry :=
  match req with
  | .register servicePath newOid requestP =>
    (mongoRegisterContext env regcomp tenant servicePath now newOid requestP r).2
  | .notifyAvailability servicePath newOid crV =>
    (mongoNotifyContextAvailability env regcomp tenant servicePath now newOid crV r).2
  | .subscribe newOid requestP inFormat =>
    (mongoSubscribeContextAvailability env regcomp tenant now newOid requestP inFormat r).2
  | .updateSubscription requestP inFormat =>
    (mongoUpdateContextAvailabilitySubscription env regcomp tenant now requestP inFormat r).2
  | .unsubscribe subscriptionId => (mongoUnsubscribeContextAvailability env tenant subscriptionId r).2

/-- The requests one after the other, each with the time it comes at. -/
def serveAll : List (Int × RegistryRequest) → Registry → Registry
  | [], r => r
  | (now, req) :: reqs, r => serveAll reqs (serve env regcomp tenant now req r)

end

/-- The identifier and the address of the subscription a request may create. -/
def RegistryRequest.created : RegistryRequest → Option (String × String)
  | .subscribe newOid requestP _ => some (newOid, requestP.reference)
  | _ => none

/-! ## What happens to the subscriptions -/

theorem SubsMap.mem_foldl {β : Type} (f : β → String × TriggeredSubscription) {p : String × TriggeredSubscription} :
    ∀ {found : List β} {m : SubsMap}, p ∈ found.foldl (fun m x => SubsMap.insert m (f x)) m →
      p ∈ m ∨ ∃ x ∈ found, p = f x
  | [], m, h => .inl h
  | x :: found, m, h => by
    rw [List.foldl_cons] at h
    rcases SubsMap.mem_foldl f h with h | ⟨y, hy, rfl⟩
    · unfold SubsMap.insert at h
      split at h
      · exact .inl h
      · rcases (List.mem_orderedInsert _).1 h with rfl | h
        · exact .inr ⟨x, List.mem_cons_self, rfl⟩
        · exact .inl h
    · exact .inr ⟨y, List.mem_cons_of_mem _ hy, rfl⟩

theorem sure_of_suffix {r r' : Registry} (h : r'.outcomes <:+ r.outcomes) (hs : r.Sure) : r'.Sure := by
  unfold Registry.Sure at hs
  rw [hs] at h
  exact List.suffix_nil.1 h

/-- `$set` and `$inc` of a notification. -/
def bumpCasub (now : Int) (s : CasubDoc) : CasubDoc :=
  { s with lastNotification := some now, count := some (s.count.getD 0 + 1) }

/-- One change of the subscriptions and the notifications sent, other than a new subscription. -/
inductive Change (r r' : Registry) : Prop where
  | quiet (same : Registry.Quiet r r')
  | notified (n : AvailabilityNotification) (id : String) (now : Int) (spelled : oidOf n.subscriptionId = some id)
      (stored : r.Address id n.url) (sent : r'.sent = r.sent ++ [n])
      (casubs : r'.casubs = r.casubs.modify id (bumpCasub now) (fun _ => rfl) ∨ (r'.casubs = r.casubs ∧ ¬ r.Sure))
      (outcomes : r'.outcomes <:+ r.outcomes)
  | replaced (id : String) (f : CasubDoc → CasubDoc) (key : ∀ s, (f s).oid = s.oid)
      (reference : ∀ s ∈ r.casubs.docs, s.oid = id → cString (f s).reference = cString s.reference)
      (count : ∀ s ∈ r.casubs.docs, s.oid = id → (f s).count = s.count.map getIntField)
      (casubs : r'.casubs = r.casubs.modify id f key) (sent : r'.sent = r.sent) (outcomes : r'.outcomes <:+ r.outcomes)
  | removed (id : String) (casubs : r'.casubs = r.casubs.remove fun s => s.oid == id) (sent : r'.sent = r.sent)
      (outcomes : r'.outcomes <:+ r.outcomes)

abbrev Changes : Registry → Registry → Prop := Relation.ReflTransGen Change

/-- A new subscription, not counted yet. -/
structure Creates (s : CasubDoc) (r r' : Registry) : Prop where
  count : s.count = none
  casubs : r.casubs.insert s = some r'.casubs
  sent : r'.sent = r.sent
  outcomes : r'.outcomes = r.outcomes

/-- What a request comes to: changes, with at most one new subscription between them. -/
inductive Served (created : Option (String × String)) (r r' : Registry) : Prop where
  | changes (h : Changes r r')
  | creates (s : CasubDoc) (new : created = some (s.oid, s.reference)) (r1 r2 : Registry) (before : Changes r r1)
      (insert : Creates s r1 r2) (after : Changes r2 r')

theorem Changes.of_quiet {r r' : Registry} (h : Registry.Quiet r r') : Changes r r' := .single (.quiet h)

theorem Change.outcomes {r r' : Registry} (h : Change r r') : r'.outcomes <:+ r.outcomes := by
  cases h with
  | quiet same => exact same.outcomes
  | notified n id now spelled stored sent casubs outcomes => exact outcomes
  | replaced id f key reference count casubs sent outcomes => exact outcomes
  | removed id casubs sent outcomes => exact outcomes

/-- Identifiers are stored in the spelling of the driver. -/
def Spelled (r : Registry) : Prop := ∀ s ∈ r.casubs.docs, oidOf s.oid = some s.oid

/-- A modification that keeps the reference keeps the addresses. -/
theorem address_modify {r r' : Registry} {k : String} {f : CasubDoc → CasubDoc} {hf : ∀ s, (f s).oid = s.oid}
    (hr : ∀ s ∈ r.casubs.docs, s.oid = k → cString (f s).reference = cString s.reference)
    (h : r'.casubs = r.casubs.modify k f hf) {id url : String} (ha : r.Address id url) : r'.Address id url := by
  obtain ⟨s, hs, rfl, hurl⟩ := ha
  rw [Registry.Address, h]
  by_cases hk : s.oid = k
  · exact ⟨f s, Collection.mem_modify.2 (.inr ⟨s, hs, hk, rfl⟩), hf s, (hr s hs hk).trans hurl⟩
  · exact ⟨s, Collection.mem_modify.2 (.inl ⟨hs, hk⟩), rfl, hurl⟩

/-- Sending a notification and counting it. -/
theorem notified_changes {r : Registry} {n : AvailabilityNotification} {oid : String} (now : Int)
    (hspelled : oidOf n.subscriptionId = some oid) (hstored : r.Address oid n.url) :
    Changes r (mongoUpdateCasubNewNotification now oid { r with sent := r.sent ++ [n] }) ∧
    ∀ id url, r.Address id url →
      (mongoUpdateCasubNewNotification now oid { r with sent := r.sent ++ [n] }).Address id url := by
  have hcall := Registry.call_quiet { r with sent := r.sent ++ [n] }
  have hsure : r.Sure → Registry.call { r with sent := r.sent ++ [n] } = (.ok, { r with sent := r.sent ++ [n] }) :=
    fun h => Registry.Sure.call h
  unfold mongoUpdateCasubNewNotification
  generalize Registry.call { r with sent := r.sent ++ [n] } = c at hcall hsure
  obtain ⟨o, r2⟩ := c
  dsimp only at hcall ⊢
  split
  · rename_i what ho
    refine ⟨.single (.notified n oid now hspelled hstored hcall.sent (.inr ⟨hcall.casubs, fun h => ?_⟩) hcall.outcomes),
      fun id url ha => hcall.address ha⟩
    cases hsure h
    cases ho
  · have hmod : r2.casubs.modify oid (bumpCasub now) (fun _ => rfl) = r.casubs.modify oid (bumpCasub now) fun _ => rfl := by
      rw [hcall.casubs]
    refine ⟨.single (.notified n oid now hspelled hstored hcall.sent (.inl hmod) hcall.outcomes), fun id url ha => ?_⟩
    exact @address_modify r _ oid (bumpCasub now) (fun _ => rfl) (fun _ _ _ => rfl) hmod id url ha

/-! ## Taking the requests apart -/

section
variable (env : Env) (regcomp : Regcomp) (tenant : String) (now : Int)

theorem registrationsCursor_quiet (enV : List EntityId) (attrL servicePathV : List String) (offset limit : Nat)
    (count : Int) (r : Registry) : Registry.Quiet r
      (registrationsCursor env regcomp tenant now enV attrL servicePathV offset limit count r).2 := by
  unfold registrationsCursor
  simp only
  split <;> exact r.call_quiet

theorem registrationsQuery_quiet (enV : List EntityId) (attrL servicePathV : List String) (offset limit : Nat)
    (details : Bool) (r : Registry) : Registry.Quiet r
      (registrationsQuery env regcomp tenant now enV attrL servicePathV offset limit details r).2 := by
  unfold registrationsQuery
  split
  · simp only
    split
    · exact r.call_quiet
    · exact r.call_quiet.trans (registrationsCursor_quiet _ _ _ _ _ _ _ _ _ _ _)
  · exact registrationsCursor_quiet _ _ _ _ _ _ _ _ _ _ _

theorem addTriggeredSubscriptions_quiet (cr : ContextRegistration) (subs : SubsMap) (r : Registry) :
    Registry.Quiet r (addTriggeredSubscriptions env tenant now cr subs r).2 := by
  unfold addTriggeredSubscriptions
  simp only
  split <;> exact r.call_quiet

theorem insertAssociation_quiet (doc : AssocDoc) (r : Registry) : Registry.Quiet r (insertAssociation doc r).2 := by
  have h := r.call_quiet
  unfold insertAssociation
  generalize r.call = c at h
  obtain ⟨o, r'⟩ := c
  cases o with
  | dbException what => exact h
  | otherException => exact h
  | ok | nullCursor =>
    dsimp only
    split
    · exact h
    · exact h.trans ⟨rfl, rfl, List.suffix_refl _⟩

theorem processAssociations_quiet : ∀ (mdV : List RegistrationMetadata) (r : Registry),
    Registry.Quiet r (processAssociations mdV r).2
  | [], r => .refl r
  | md :: mdV, r => by
    rw [processAssociations]
    split
    · exact processAssociations_quiet mdV r
    · have h := insertAssociation_quiet (assocDoc md) r
      split
      · rename_i err r' e
        rwa [e] at h
      · rename_i r' e
        rw [e] at h
        exact h.trans (processAssociations_quiet mdV r')

/-- Each entry of the map has the address of a stored subscription. -/
def Addressed (subs : SubsMap) (r : Registry) : Prop := ∀ p ∈ subs, r.Address p.1 p.2.reference

theorem Addressed.quiet {subs : SubsMap} {r r' : Registry} (h : Addressed subs r) (hq : Registry.Quiet r r') :
    Addressed subs r' := fun p hp => hq.address (h p hp)

theorem addTriggeredSubscriptions_addressed {cr : ContextRegistration} {subs m : SubsMap} {r : Registry}
    (hs : Addressed subs r) (h : (addTriggeredSubscriptions env tenant now cr subs r).1 = .ok m) : Addressed m r := by
  unfold addTriggeredSubscriptions at h
  dsimp only at h
  split at h
  · cases h
  · cases h
    intro p hp
    rcases SubsMap.mem_foldl (fun sub => (sub.oid, triggeredCasub sub)) hp with hp | ⟨s, hs', rfl⟩
    · exact hs p hp
    · exact ⟨s, (Collection.mem_found.1 hs').2.1, rfl, (cString_cString s.reference).symm⟩

/-- The loop over the elements of a registration: it only reads the subscriptions, and collects stored ones. -/
theorem processContextRegistrations_quiet : ∀ (crV : List ContextRegistration) {subs : SubsMap} {r : Registry},
    Addressed subs r →
    Registry.Quiet r (processContextRegistrations env tenant now crV subs r).2 ∧
    ∀ m, (processContextRegistrations env tenant now crV subs r).1 = .ok m →
      Addressed m (processContextRegistrations env tenant now crV subs r).2
  | [], subs, r, h => ⟨.refl r, fun m hm => by cases hm; exact h⟩
  | cr :: crV, subs, r, h => by
    have ha := processAssociations_quiet cr.registrationMetadataVector r
    rw [processContextRegistrations]
    split
    · rename_i err r1 e
      rw [e] at ha
      exact ⟨ha, nofun⟩
    · rename_i r1 e
      rw [e] at ha
      have hq := addTriggeredSubscriptions_quiet env tenant now cr subs r1
      split
      · rename_i err r2 e2
        rw [e2] at hq
        exact ⟨ha.trans hq, nofun⟩
      · rename_i subs' r2 e2
        rw [e2] at hq
        have hadd : (addTriggeredSubscriptions env tenant now cr subs r1).1 = .ok subs' := by rw [e2]
        have hsubs' := (addTriggeredSubscriptions_addressed env tenant now (h.quiet ha) hadd).quiet hq
        obtain ⟨hrest, hm⟩ := processContextRegistrations_quiet crV hsubs'
        exact ⟨(ha.trans hq).trans hrest, hm⟩

/-- One notification at most, counted unless the write fails; the documents keep their addresses. -/
theorem processAvailabilitySubscriptionAs_changes (enV : List EntityId) (attrL : List String)
    {subId oid notifyUrl : String} (format : Format) {r : Registry} (hid : oidOf subId = some oid)
    (hstored : r.Address oid notifyUrl) :
    Changes r
      (processAvailabilitySubscriptionAs env regcomp tenant now enV attrL subId oid notifyUrl format r).2 ∧
    ∀ id url, r.Address id url →
      (processAvailabilitySubscriptionAs env regcomp tenant now enV attrL subId oid notifyUrl format r).2.Address id url := by
  have hq := registrationsQuery_quiet env regcomp tenant now enV attrL [] DEFAULT_PAGINATION_OFFSET_INT
    DEFAULT_PAGINATION_LIMIT_INT false r
  unfold processAvailabilitySubscriptionAs
  split
  · rename_i r1 e
    rw [e] at hq
    exact ⟨.of_quiet hq, fun id url => hq.address⟩
  · rename_i err r1 e
    rw [e] at hq
    exact ⟨.of_quiet hq, fun id url => hq.address⟩
  · rename_i crrV count r1 e
    rw [e] at hq
    split
    · obtain ⟨hc, haddr⟩ := @notified_changes r1 ⟨subId, crrV, notifyUrl, format⟩ oid now hid (hq.address hstored)
      exact ⟨(Changes.of_quiet hq).trans hc, fun id url ha => haddr id url (hq.address ha)⟩
    · exact ⟨.of_quiet hq, fun id url => hq.address⟩

theorem processSubscriptions_changes (triggerEntitiesV : List EntityId) : ∀ (subs : SubsMap) {r : Registry},
    (∀ p ∈ subs, oidOf p.1 = some p.1) → Addressed subs r →
    Changes r (processSubscriptions env regcomp tenant now triggerEntitiesV subs r).2
  | [], r, _, _ => .refl
  | (mapSubId, trigs) :: subs, r, hid, hsubs => by
    obtain ⟨hone, haddr⟩ := processAvailabilitySubscriptionAs_changes env regcomp tenant now triggerEntitiesV trigs.attrL
      trigs.format (hid _ List.mem_cons_self) (hsubs _ List.mem_cons_self)
    rw [processAvailabilitySubscriptionAs_self] at hone haddr
    rw [processSubscriptions]
    split
    · rename_i r1 e
      rwa [e] at hone
    · rename_i sent r1 e
      rw [e] at hone haddr
      have hrest := processSubscriptions_changes triggerEntitiesV subs (r := r1)
        (fun p hp => hid p (List.mem_cons_of_mem _ hp)) fun p hp => haddr _ _ (hsubs p (List.mem_cons_of_mem _ hp))
      split
      · rename_i r2 e2
        rw [e2] at hrest
        exact hone.trans hrest
      · rename_i ret r2 e2
        rw [e2] at hrest
        exact hone.trans hrest

/-- A registration, whatever becomes of it. -/
theorem processRegisterContext_changes (servicePath oid : String) (requestP : RegisterContextRequest) {r : Registry}
    (hs : Spelled r) :
    Changes r (processRegisterContext env regcomp tenant servicePath now oid requestP r).2 := by
  obtain ⟨hq, hm⟩ := @processContextRegistrations_quiet env tenant now requestP.contextRegistrationVector [] r nofun
  unfold processRegisterContext
  dsimp only
  split
  · rename_i code r1 e
    rw [e] at hq
    exact .of_quiet hq
  · rename_i subs r1 e
    rw [e] at hq hm
    have hcall := hq.trans r1.call_quiet
    generalize r1.call = c at hcall
    obtain ⟨o, r2⟩ := c
    dsimp only at hcall ⊢
    split
    · exact .of_quiet hcall
    · -- the document is written, then the subscriptions are told
      generalize hdoc : regDoc oid _ servicePath requestP.contextRegistrationVector = doc
      have hup : Registry.Quiet r { r2 with registrations := r2.registrations.upsert doc } :=
        hcall.trans ⟨rfl, rfl, List.suffix_refl _⟩
      generalize ({ r2 with registrations := r2.registrations.upsert doc } : Registry) = r3 at hup
      have hid : ∀ p ∈ subs, oidOf p.1 = some p.1 := by
        intro p hp
        obtain ⟨s, hs', ho, _⟩ := hm subs rfl p hp
        rw [hq.casubs] at hs'
        rw [← ho]
        exact hs s hs'
      have hsubs : Addressed subs r3 := by
        intro p hp
        obtain ⟨s, hs', ho⟩ := hm subs rfl p hp
        rw [hq.casubs] at hs'
        exact hup.address ⟨s, hs', ho⟩
      have hp := processSubscriptions_changes env regcomp tenant now
        (requestP.contextRegistrationVector.flatMap ContextRegistration.entityIdVector) subs hid hsubs
      split
      · rename_i r4 e4
        rw [e4] at hp
        exact (Changes.of_quiet hup).trans hp
      · rename_i ret r4 e4
        rw [e4] at hp
        exact (Changes.of_quiet hup).trans hp

theorem mongoRegisterContext_changes (servicePath newOid : String) (requestP : RegisterContextRequest) {r : Registry}
    (hs : Spelled r) :
    Changes r (mongoRegisterContext env regcomp tenant servicePath now newOid requestP r).2 := by
  unfold mongoRegisterContext
  dsimp only
  generalize (if servicePath = "" then "/" else servicePath) = sPath
  split
  · exact processRegisterContext_changes env regcomp tenant now sPath newOid requestP hs
  · split
    · exact .refl
    · rename_i id _
      have hcall := r.call_quiet
      generalize r.call = c at hcall
      obtain ⟨o, r1⟩ := c
      cases o with
      | nullCursor => exact .of_quiet hcall
      | dbException what => exact .of_quiet hcall
      | otherException => exact .of_quiet hcall
      | ok =>
        dsimp only
        split
        · have hs1 : Spelled r1 := by
            unfold Spelled
            rw [hcall.casubs]
            exact hs
          exact (Changes.of_quiet hcall).trans
            (processRegisterContext_changes env regcomp tenant now sPath id requestP hs1)
        · exact .of_quiet hcall

theorem mongoNotifyContextAvailability_changes (servicePath oid : String) (crV : List ContextRegistration)
    {r : Registry} (hs : Spelled r) :
    Changes r (mongoNotifyContextAvailability env regcomp tenant servicePath now oid crV r).2 := by
  have h := processRegisterContext_changes env regcomp tenant now servicePath oid
    { contextRegistrationVector := crV, duration := DEFAULT_DURATION } hs
  unfold mongoNotifyContextAvailability
  split
  · rename_i r1 e
    rwa [e] at h
  · rename_i answer r1 e
    rwa [e] at h

theorem mongoSubscribeContextAvailability_served {oid : String} (requestP : SubscribeContextAvailabilityRequest)
    (inFormat : Format) (r : Registry) (hoid : oidOf oid = some oid) :
    Served (some (oid, requestP.reference)) r
      (mongoSubscribeContextAvailability env regcomp tenant now oid requestP inFormat r).2 := by
  have hcall := r.call_quiet
  unfold mongoSubscribeContextAvailability
  generalize r.call = c at hcall
  obtain ⟨o, r1⟩ := c
  dsimp only at hcall ⊢
  split
  · exact .changes (.of_quiet hcall)
  · split
    · exact .changes (.of_quiet hcall)
    · rename_i casubs hi
      have hstored : Registry.Address { r1 with casubs := casubs } oid requestP.reference :=
        ⟨_, Collection.mem_insert hi, rfl, rfl⟩
      have hp := (processAvailabilitySubscriptionAs_changes env regcomp tenant now requestP.entityIdVector
        requestP.attributeList inFormat hoid hstored).1
      rw [processAvailabilitySubscriptionAs_self] at hp
      have hserved := Served.creates (subscribedCasub requestP inFormat now oid) rfl r1 { r1 with casubs := casubs }
        (.of_quiet hcall) ⟨rfl, hi, rfl, rfl⟩ hp
      split
      · rename_i r2 e
        rwa [e] at hserved
      · rename_i sent r2 e
        rwa [e] at hserved

/-- The lookup reads only, and what it answers is stored under the identifier. -/
theorem findCasub_quiet (subscriptionId : String) (r : Registry) :
    Registry.Quiet r (findCasub env tenant subscriptionId r).2 ∧
    ∀ sub, (findCasub env tenant subscriptionId r).1 = .ok (some sub) →
      sub ∈ r.casubs.docs ∧ oidOf subscriptionId = some sub.oid := by
  have hcall := r.call_quiet
  unfold findCasub
  cases hid : oidOf subscriptionId with
  | none => exact ⟨.refl r, nofun⟩
  | some id =>
    generalize r.call = c at hcall
    obtain ⟨o, r1⟩ := c
    cases o with
    | nullCursor => exact ⟨hcall, nofun⟩
    | dbException what => exact ⟨hcall, nofun⟩
    | otherException => exact ⟨hcall, nofun⟩
    | ok =>
      refine ⟨hcall, fun sub h => ?_⟩
      have hf : r1.casubs.docs.find? (fun s => s.oid == id) = some sub := Except.ok.inj h
      have hmem := List.mem_of_find?_eq_some hf
      rw [hcall.casubs] at hmem
      have hkey := List.find?_some hf
      rw [beq_iff_eq] at hkey
      exact ⟨hmem, by rw [hkey]⟩

theorem mongoUpdateContextAvailabilitySubscription_changes
    (requestP : UpdateContextAvailabilitySubscriptionRequest) (inFormat : Format) (r : Registry) :
    Changes r
      (mongoUpdateContextAvailabilitySubscription env regcomp tenant now requestP inFormat r).2 := by
  obtain ⟨hq, hfound⟩ := findCasub_quiet env tenant requestP.subscriptionId r
  unfold mongoUpdateContextAvailabilitySubscription
  split
  · rename_i code r1 e
    rw [e] at hq
    exact .of_quiet hq
  · rename_i r1 e
    rw [e] at hq
    exact .of_quiet hq
  · rename_i sub r1 e
    rw [e] at hq hfound
    obtain ⟨hsub, hid⟩ := hfound sub rfl
    have hcall := hq.trans r1.call_quiet
    generalize r1.call = c at hcall
    obtain ⟨o, r2⟩ := c
    dsimp only at hcall ⊢
    split
    · exact .of_quiet hcall
    · generalize hupdate : newCasub sub requestP inFormat now = update
      have hsame : ∀ s ∈ r2.casubs.docs, s.oid = sub.oid → s = sub := by
        intro s hs ho
        rw [hcall.casubs] at hs
        exact r.casubs.eq_of_key hs hsub ho
      have hrep : Change r2
          { r2 with casubs := r2.casubs.modify sub.oid (CasubDoc.replacedBy update) fun _ => rfl } := by
        refine .replaced sub.oid (CasubDoc.replacedBy update) (fun _ => rfl) (fun s hs ho => ?_) (fun s hs ho => ?_)
          rfl rfl (List.suffix_refl _)
        · rw [hsame s hs ho, ← hupdate]
          exact cString_cString sub.reference
        · rw [hsame s hs ho, ← hupdate]
          rfl
      have hstored : Registry.Address
          { r2 with casubs := r2.casubs.modify sub.oid (CasubDoc.replacedBy update) fun _ => rfl } sub.oid
          (cString sub.reference) := by
        refine @address_modify r2 _ sub.oid (CasubDoc.replacedBy update) (fun _ => rfl) (fun s hs ho => ?_) rfl _ _
          ⟨sub, by rw [hcall.casubs]; exact hsub, rfl, (cString_cString sub.reference).symm⟩
        rw [hsame s hs ho, ← hupdate]
        exact cString_cString sub.reference
      have hp := (processAvailabilitySubscriptionAs_changes env regcomp tenant now requestP.entityIdVector
        requestP.attributeList inFormat hid hstored).1
      have hall := ((Changes.of_quiet hcall).tail hrep).trans hp
      split
      · rename_i r3 e3
        rwa [e3] at hall
      · rename_i sent r3 e3
        rwa [e3] at hall

theorem mongoUnsubscribeContextAvailability_changes (subscriptionId : String) (r : Registry) :
    Changes r (mongoUnsubscribeContextAvailability env tenant subscriptionId r).2 := by
  have hq := (findCasub_quiet env tenant subscriptionId r).1
  unfold mongoUnsubscribeContextAvailability
  split
  · rename_i code r1 e
    rw [e] at hq
    exact .of_quiet hq
  · rename_i r1 e
    rw [e] at hq
    exact .of_quiet hq
  · rename_i sub r1 e
    rw [e] at hq
    have hcall := hq.trans r1.call_quiet
    generalize r1.call = c at hcall
    obtain ⟨o, r2⟩ := c
    dsimp only at hcall ⊢
    split
    · exact .of_quiet hcall
    · exact (Changes.of_quiet hcall).tail (.removed sub.oid rfl rfl (List.suffix_refl _))

/-- **Every request**, taken apart. -/
theorem serve_served (req : RegistryRequest) {r : Registry} (hs : Spelled r)
    (hnew : ∀ c, req.created = some c → oidOf c.1 = some c.1) :
    Served req.created r (serve env regcomp tenant now req r) := by
  cases req with
  | register servicePath newOid requestP =>
    exact .changes (mongoRegisterContext_changes env regcomp tenant now servicePath newOid requestP hs)
  | notifyAvailability servicePath newOid crV =>
    exact .changes (mongoNotifyContextAvailability_changes env regcomp tenant now servicePath newOid crV hs)
  | subscribe newOid requestP inFormat =>
    exact mongoSubscribeContextAvailability_served env regcomp tenant now requestP inFormat r (hnew _ rfl)
  | updateSubscription requestP inFormat =>
    exact .changes (mongoUpdateContextAvailabilitySubscription_changes env regcomp tenant now requestP inFormat r)
  | unsubscribe subscriptionId =>
    exact .changes (mongoUnsubscribeContextAvailability_changes env tenant subscriptionId r)

end

end OrionBroker.Register
