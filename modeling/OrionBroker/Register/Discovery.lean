import OrionBroker.Register.Associations
import OrionBroker.Register.Providers
import OrionBroker.Register.Subscriptions

/-!
# Discovery (mongoDiscoverContextAvailability.cpp:173-383)

| here | there |
| --- | --- |
| `associatedRegistrations`                | the loop over the associations found (:201-236) |
| `associationsDiscoverContextAvailability`| the same (:176) |
| `conventionalDiscoverContextAvailability`| the same (:257) |
| `mongoDiscoverContextAvailability`       | the same (:325); `offset`, `limit` and `details` as read from the URI |
| `Exchange`                               | a registration request with its answer, as the client sees them |
| `directory`                              | the purpose of the registry: the last registration accepted under each identifier |

* `registrations_directory`: whatever a run does and whatever fails in it, the registrations collection is the
  directory of its exchanges.
* `discovery_pages`: the pages of a discovery, one after the other, are the answer without paging.
* `discovery_of_directory`: an element is on one of the pages exactly when it comes from an unexpired registration of
  the directory that the request selects.
-/

namespace OrionBroker.Register

open Mongo

/-! ## The operation -/

def SCOPE_TYPE_ASSOC : String := "IncludeAssociations"
def SCOPE_VALUE_ASSOC_ALL : String := "ALL"

structure Scope where
  type : String
  value : String
deriving DecidableEq, Repr

structure DiscoverContextAvailabilityRequest where
  entityIdVector : List EntityId
  attributeList : List String := []
  scopeVector : List Scope := []
deriving DecidableEq, Repr

/-- An element of the answer; the last one of an association discovery has the metadata. -/
structure DiscoveredRegistration where
  contextRegistration : ContextRegistrationResponse
  registrationMetadataVector : List RegistrationMetadata := []
deriving DecidableEq, Repr

structure DiscoverContextAvailabilityResponse where
  responseVector : List DiscoveredRegistration := []
  errorCode : StatusCode := {}
deriving DecidableEq, Repr

/-- The entity and the attributes whose registrations are looked for. -/
def associatedEntity (scope : String) (md : RegistrationMetadata) : EntityId :=
  if scope = SCOPE_VALUE_ASSOC_SOURCE then { id := md.association.source.id, type := md.association.source.type }
  else { id := md.association.target.id, type := md.association.target.type }

def associatedAttributes (scope : String) (md : RegistrationMetadata) : List String :=
  md.association.attributeAssociationList.map fun a => if scope = SCOPE_VALUE_ASSOC_SOURCE then a.source else a.target

/-- What has been found so far and the error that ended the loop; `none` when the broker dies. -/
def associatedRegistrations (env : Env) (regcomp : Regcomp) (tenant : String) (now : Int) (scope : String)
    (servicePathV : List String) : List RegistrationMetadata → Registry →
    Option (List ContextRegistrationResponse × Option String) × Registry
  | [], r => (some ([], none), r)
  | md :: mdV, r =>
    match registrationsQuery env regcomp tenant now [associatedEntity scope md] (associatedAttributes scope md)
        servicePathV DEFAULT_PAGINATION_OFFSET_INT DEFAULT_PAGINATION_LIMIT_INT false r with
    | (.crashed, r) => (none, r)
    | (.failed err, r) => (some ([], some err), r)
    | (.found crrV _, r) =>
      match associatedRegistrations env regcomp tenant now scope servicePathV mdV r with
      | (none, r) => (none, r)
      | (some (more, err), r) => (some (crrV ++ more, err), r)

/-- The registrations found before an error stay in the answer. -/
def associationsDiscoverContextAvailability (env : Env) (regcomp : Regcomp) (tenant : String) (now : Int)
    (requestP : DiscoverContextAvailabilityRequest) (scope : String) (servicePathV : List String) (offset limit : Nat)
    (r : Registry) : Option DiscoverContextAvailabilityResponse × Registry :=
  if scope = SCOPE_VALUE_ASSOC_ALL then
    (some { errorCode := ⟨.notImplemented, "Not supported scope: '" ++ SCOPE_VALUE_ASSOC_ALL ++ "'"⟩ }, r)
  else
    match associationsQuery env tenant requestP.entityIdVector requestP.attributeList scope offset limit r with
    | (.error err, r) => (some { errorCode := ⟨.receiverInternalError, "Database error: " ++ err⟩ }, r)
    | (.ok mdV, r) =>
      match associatedRegistrations env regcomp tenant now scope servicePathV mdV r with
      | (none, r) => (none, r)
      | (some (crrV, some err), r) =>
        (some { responseVector := crrV.map fun crr => { contextRegistration := crr },
                errorCode := ⟨.receiverInternalError, err⟩ }, r)
      | (some (crrV, none), r) =>
        if crrV.length = 0 then
          (some { errorCode :=
            ⟨.contextElementNotFound, "Could not query association with combination of entity/attribute"⟩ }, r)
        else
          (some { responseVector := crrV.map (fun crr => { contextRegistration := crr }) ++
            [{ contextRegistration := ⟨[], [], "http://www.fi-ware.eu/NGSI/association"⟩,
               registrationMetadataVector := mdV }] }, r)

/-- The status of an empty answer: with `details`, an offset behind the last registration is reported. -/
def emptyDiscoveryStatus (details : Bool) (count : Int) (offset : Nat) : StatusCode :=
  if details && decide (count > 0 ∧ (offset : Int) ≥ count) then
    ⟨.contextElementNotFound,
      "Number of matching registrations: " ++ toString count ++ ". Offset is " ++ toString offset⟩
  else ⟨.contextElementNotFound, ""⟩

def conventionalDiscoverContextAvailability (env : Env) (regcomp : Regcomp) (tenant : String) (now : Int)
    (requestP : DiscoverContextAvailabilityRequest) (servicePathV : List String) (offset limit : Nat) (details : Bool)
    (r : Registry) : Option DiscoverContextAvailabilityResponse × Registry :=
  match registrationsQuery env regcomp tenant now requestP.entityIdVector requestP.attributeList servicePathV offset
      limit details r with
  | (.crashed, r) => (none, r)
  | (.failed err, r) => (some { errorCode := ⟨.receiverInternalError, err⟩ }, r)
  | (.found crrV count, r) =>
    if crrV.length = 0 then (some { errorCode := emptyDiscoveryStatus details count offset }, r)
    else
      (some { responseVector := crrV.map fun crr => { contextRegistration := crr },
              errorCode := if details then ⟨.ok, "Count: " ++ toString count⟩ else {} }, r)

/-- Only the first scope is looked at. -/
def mongoDiscoverContextAvailability (env : Env) (regcomp : Regcomp) (tenant : String) (now : Int)
    (requestP : DiscoverContextAvailabilityRequest) (servicePathV : List String) (offset limit : Nat) (details : Bool)
    (r : Registry) : Option DiscoverContextAvailabilityResponse × Registry :=
  match requestP.scopeVector.head? with
  | some scope =>
    if scope.type = SCOPE_TYPE_ASSOC then
      associationsDiscoverContextAvailability env regcomp tenant now requestP scope.value servicePathV offset limit r
    else
      conventionalDiscoverContextAvailability env regcomp tenant now requestP servicePathV offset limit details r
  | none => conventionalDiscoverContextAvailability env regcomp tenant now requestP servicePathV offset limit details r

/-! ## Pages -/

section
variable (env : Env) (regcomp : Regcomp) (tenant : String) (now : Int)

theorem registrationsQuery_sure (enV : List EntityId) (attrL servicePathV : List String) (offset limit : Nat)
    (details : Bool) {r : Registry} (hr : r.Sure) :
    registrationsQuery env regcomp tenant now enV attrL servicePathV offset limit details r =
      (.found (registrationsAnswer regcomp enV attrL
          (registrationsFind env r enV attrL servicePathV now offset limit))
        (if details then (registrationsFound env r enV attrL servicePathV now).length else -1), r) := by
  unfold registrationsQuery registrationsCursor
  cases details with
  | false => simp [hr.call]
  | true => simp [hr.call, Outcome.writeError]

/-- The registrations a request asks for, in the order of their identifiers. -/
def sortedFound (enV : List EntityId) (attrL servicePathV : List String) (r : Registry) : List RegDoc :=
  (registrationsFound env r enV attrL servicePathV now).insertionSort fun a b => a.oid ≤ b.oid

/-- No association is asked for. -/
def DiscoverContextAvailabilityRequest.Conventional (requestP : DiscoverContextAvailabilityRequest) : Prop :=
  ∀ scope, requestP.scopeVector.head? = some scope → scope.type ≠ SCOPE_TYPE_ASSOC

theorem mongoDiscoverContextAvailability_conventional {requestP : DiscoverContextAvailabilityRequest}
    (h : requestP.Conventional) (servicePathV : List String) (offset limit : Nat) (details : Bool) (r : Registry) :
    mongoDiscoverContextAvailability env regcomp tenant now requestP servicePathV offset limit details r =
      conventionalDiscoverContextAvailability env regcomp tenant now requestP servicePathV offset limit details r := by
  unfold mongoDiscoverContextAvailability
  split
  · rename_i scope hs
    rw [if_neg (h scope hs)]
  · rfl

/-- The elements of the answer to a discovery, of no answer none. -/
def discovered (requestP : DiscoverContextAvailabilityRequest) (servicePathV : List String) (offset limit : Nat)
    (details : Bool) (r : Registry) : List ContextRegistrationResponse :=
  match (mongoDiscoverContextAvailability env regcomp tenant now requestP servicePathV offset limit details r).1 with
  | some response => response.responseVector.map DiscoveredRegistration.contextRegistration
  | none => []

theorem discovered_sure {requestP : DiscoverContextAvailabilityRequest} (h : requestP.Conventional)
    (servicePathV : List String) (offset limit : Nat) (details : Bool) {r : Registry} (hr : r.Sure) :
    discovered env regcomp tenant now requestP servicePathV offset limit details r =
      registrationsAnswer regcomp requestP.entityIdVector requestP.attributeList
        (page offset limit (sortedFound env now requestP.entityIdVector requestP.attributeList servicePathV r)) := by
  unfold discovered
  rw [mongoDiscoverContextAvailability_conventional env regcomp tenant now h]
  unfold conventionalDiscoverContextAvailability
  rw [registrationsQuery_sure env regcomp tenant now _ _ _ _ _ _ hr]
  unfold sortedFound registrationsFind
  generalize registrationsAnswer regcomp requestP.entityIdVector requestP.attributeList _ = answer
  cases answer with
  | nil => rfl
  | cons crr crrV => simp [Function.comp_def]

theorem registrationsAnswer_pages (enV : List EntityId) (attrL : List String) {limit : Nat} (hl : 0 < limit) {n : Nat}
    {docs : List RegDoc} (hn : docs.length ≤ n * limit) :
    (List.range n).flatMap (fun i => registrationsAnswer regcomp enV attrL (page (i * limit) limit docs)) =
      registrationsAnswer regcomp enV attrL docs := by
  conv_rhs => rw [← flatMap_page hl hn, registrationsAnswer, List.flatMap_assoc]
  rfl

/-- **The pages of a discovery** tile: asked for one after the other with one limit, over a registry that does not
change and whose calls do not fail, they are the answer without a limit; no element is lost, repeated or moved. -/
theorem discovery_pages {requestP : DiscoverContextAvailabilityRequest} (h : requestP.Conventional)
    (servicePathV : List String) {limit : Nat} (hl : 0 < limit) (details : Bool) {r : Registry} (hr : r.Sure) {n : Nat}
    (hn : (registrationsFound env r requestP.entityIdVector requestP.attributeList servicePathV now).length ≤ n * limit) :
    (List.range n).flatMap (fun i =>
        discovered env regcomp tenant now requestP servicePathV (i * limit) limit details r) =
      discovered env regcomp tenant now requestP servicePathV 0 0 details r := by
  have hlen : (sortedFound env now requestP.entityIdVector requestP.attributeList servicePathV r).length ≤ n * limit := by
    rw [sortedFound, List.length_insertionSort]
    exact hn
  have hall : page 0 0 (sortedFound env now requestP.entityIdVector requestP.attributeList servicePathV r) =
      sortedFound env now requestP.entityIdVector requestP.attributeList servicePathV r := by
    rw [page, if_pos rfl, List.drop_zero]
  rw [discovered_sure env regcomp tenant now h servicePathV 0 0 details hr, hall]
  simp only [discovered_sure env regcomp tenant now h servicePathV _ _ details hr]
  exact registrationsAnswer_pages regcomp requestP.entityIdVector requestP.attributeList hl hlen

end

/-- `Room` of type `T`, with the given provider. -/
def roomProvider (app : String) : ContextRegistration where
  entityIdVector := [{ id := "Room", type := "T", isPattern := "false" }]
  providingApplication := app

/-- Two providers, the first of which registers anew. -/
def providerRequests : List (Int × RegistryRequest) :=
  [(100, .register "/" "51c0ac9ed714fb3b37d7d5b1" { contextRegistrationVector := [roomProvider "http://p1"] }),
   (101, .register "/" "51c0ac9ed714fb3b37d7d5b2" { contextRegistrationVector := [roomProvider "http://p2"] }),
   (102, .register "/" "51c0ac9ed714fb3b37d7d5b3"
      { contextRegistrationVector := [roomProvider "http://p3"], registrationId := "51C0AC9ED714FB3B37D7D5B1" })]

/-- The registry after them. -/
def providerRegistry : Registry := serveAll (Env.plain fun _ _ => false) (fun _ => none) "" providerRequests {}

def roomRequest : DiscoverContextAvailabilityRequest where
  entityIdVector := [{ id := "Room", type := "T", isPattern := "false" }]

theorem roomRequest_conventional : roomRequest.Conventional := nofun

/-- Page by page with a limit of 1. -/
theorem providerRegistry_pages :
    (discovered (Env.plain fun _ _ => false) (fun _ => none) "" 200 roomRequest [] 0 0 true providerRegistry).map
      ContextRegistrationResponse.providingApplication = ["http://p3", "http://p2"] ∧
    (List.range 2).flatMap (fun i => discovered (Env.plain fun _ _ => false) (fun _ => none) "" 200 roomRequest []
        (i * 1) 1 true providerRegistry) =
      discovered (Env.plain fun _ _ => false) (fun _ => none) "" 200 roomRequest [] 0 0 true providerRegistry :=
  ⟨by decide +kernel, discovery_pages _ _ _ _ roomRequest_conventional [] (by decide) true (by decide +kernel)
    (by decide +kernel)⟩

/-! ## What a request does to the registrations -/

section
variable (env : Env) (regcomp : Regcomp) (tenant : String) (now : Int)

theorem mongoUpdateCasubNewNotification_registrations (oid : String) (r : Registry) :
    (mongoUpdateCasubNewNotification now oid r).registrations = r.registrations := by
  have h := r.call_same
  unfold mongoUpdateCasubNewNotification
  generalize r.call = c at h
  obtain ⟨o, r'⟩ := c
  dsimp only
  split <;> exact h.registrations

theorem processAvailabilitySubscriptionAs_registrations (enV : List EntityId) (attrL : List String)
    (subId oid notifyUrl : String) (format : Format) (r : Registry) :
    (processAvailabilitySubscriptionAs env regcomp tenant now enV attrL subId oid notifyUrl format r).2.registrations =
      r.registrations := by
  have h := registrationsQuery_same env regcomp tenant now enV attrL [] DEFAULT_PAGINATION_OFFSET_INT
    DEFAULT_PAGINATION_LIMIT_INT false r
  unfold processAvailabilitySubscriptionAs
  split
  · rename_i r1 e
    rw [e] at h
    exact h.registrations
  · rename_i err r1 e
    rw [e] at h
    exact h.registrations
  · rename_i crrV count r1 e
    rw [e] at h
    split
    · exact (mongoUpdateCasubNewNotification_registrations _ _ _).trans h.registrations
    · exact h.registrations

theorem processSubscriptions_registrations (triggerEntitiesV : List EntityId) : ∀ (subs : SubsMap) (r : Registry),
    (processSubscriptions env regcomp tenant now triggerEntitiesV subs r).2.registrations = r.registrations
  | [], _ => rfl
  | (mapSubId, trigs) :: subs, r => by
    have hone := processAvailabilitySubscriptionAs_registrations env regcomp tenant now triggerEntitiesV trigs.attrL
      mapSubId mapSubId trigs.reference trigs.format r
    rw [processAvailabilitySubscriptionAs_self] at hone
    rw [processSubscriptions]
    split
    · rename_i r1 e
      rwa [e] at hone
    · rename_i sent r1 e
      rw [e] at hone
      have hrest := processSubscriptions_registrations triggerEntitiesV subs r1
      split
      · rename_i r2 e2
        rw [e2] at hrest
        exact hrest.trans hone
      · rename_i ret r2 e2
        rw [e2] at hrest
        exact hrest.trans hone

/-- The document a registration stores. -/
def registeredDoc (sPath oid : String) (requestP : RegisterContextRequest) : RegDoc :=
  regDoc oid (now + parse8601 (if requestP.duration = "" then DEFAULT_DURATION else requestP.duration)) sPath
    requestP.contextRegistrationVector

/-- The answer to a registration, `none` of a broker that died, stands for a document that is written. -/
def accepted : Option RegisterContextResponse → Bool
  | some responseP => responseP.errorCode.code == .ok
  | none => true

theorem processContextRegistrations_error : ∀ (crV : List ContextRegistration) (subs : SubsMap) (r : Registry)
    (code : StatusCode), (processContextRegistrations env tenant now crV subs r).1 = .error code →
      code.code = .receiverInternalError
  | [], _, _, _, h => by cases h
  | cr :: crV, subs, r, code, h => by
    rw [processContextRegistrations] at h
    split at h
    · cases h
      rfl
    · split at h
      · cases h
        rfl
      · exact processContextRegistrations_error crV _ _ code h

/-- One spec: the document is written, or the registrations are as they were, and the answer tells which. -/
theorem processRegisterContext_registrations {sPath oid : String} {requestP : RegisterContextRequest} {r r' : Registry}
    {answer : Option RegisterContextResponse}
    (h : processRegisterContext env regcomp tenant sPath now oid requestP r = (answer, r')) :
    r'.registrations =
      if accepted answer then r.registrations.upsert (registeredDoc now sPath oid requestP) else r.registrations := by
  have hadds := (processContextRegistrations_adds env tenant now requestP.contextRegistrationVector [] r).registrations
  have herr := processContextRegistrations_error env tenant now requestP.contextRegistrationVector [] r
  unfold processRegisterContext at h
  dsimp only at h
  split at h
  · rename_i code r1 e
    rw [e] at hadds herr
    cases h
    simp only [accepted, herr code rfl]
    exact hadds
  · rename_i subs r1 e
    rw [e] at hadds
    have hcall := r1.call_same.registrations.trans hadds
    split at h
    · cases h
      exact hcall
    · have hsubs := processSubscriptions_registrations env regcomp tenant now
        (requestP.contextRegistrationVector.flatMap ContextRegistration.entityIdVector) subs
        { r1.call.2 with registrations := r1.call.2.registrations.upsert (registeredDoc now sPath oid requestP) }
      unfold registeredDoc at hsubs ⊢
      split at h
      · rename_i r3 e3
        rw [e3, hcall] at hsubs
        cases h
        exact hsubs
      · rename_i ret r3 e3
        rw [e3, hcall] at hsubs
        cases h
        exact hsubs

/-! ## The directory -/

/-- `id` is the identifier the registration is for. The answer to a notification is the one the broker throws away. -/
structure Exchange where
  now : Int
  sPath : String
  id : String
  requestP : RegisterContextRequest
  answer : Option RegisterContextResponse

def Exchange.registered (x : Exchange) : Option RegDoc :=
  if accepted x.answer then some (registeredDoc x.now x.sPath x.id x.requestP) else none

def exchange : RegistryRequest → Registry → Option Exchange
  | .register servicePath newOid requestP, r =>
    some { now := now, sPath := if servicePath = "" then "/" else servicePath,
           id := if requestP.registrationId = "" then newOid else (oidOf requestP.registrationId).getD "",
           requestP := requestP,
           answer := (mongoRegisterContext env regcomp tenant servicePath now newOid requestP r).1 }
  | .notifyAvailability servicePath newOid crV, r =>
    some { now := now, sPath := servicePath, id := newOid,
           requestP := { contextRegistrationVector := crV, duration := DEFAULT_DURATION },
           answer := (processRegisterContext env regcomp tenant servicePath now newOid
             { contextRegistrationVector := crV, duration := DEFAULT_DURATION } r).1 }
  | _, _ => none

end

/-- The registrations of a run, in their order. -/
def exchanges (env : Env) (regcomp : Regcomp) (tenant : String) : List (Int × RegistryRequest) → Registry → List Exchange
  | [], _ => []
  | (now, req) :: reqs, r =>
    (exchange env regcomp tenant now req r).toList ++
      exchanges env regcomp tenant reqs (serve env regcomp tenant now req r)

/-- What an exchange does to the directory. -/
def Exchange.record (x : Exchange) (d : String → Option RegDoc) : String → Option RegDoc :=
  match x.registered with
  | some doc => Function.update d x.id (some doc)
  | none => d

/-- The last accepted registration under each identifier. -/
def directory (xs : List Exchange) (d : String → Option RegDoc) : String → Option RegDoc :=
  xs.foldl (fun d x => x.record d) d

section
variable (env : Env) (regcomp : Regcomp) (tenant : String) (now : Int)

theorem processRegisterContext_record {sPath id : String} {requestP : RegisterContextRequest} {r r' : Registry}
    {answer : Option RegisterContextResponse}
    (h : processRegisterContext env regcomp tenant sPath now id requestP r = (answer, r')) :
    r'.registrations.lookup = Exchange.record ⟨now, sPath, id, requestP, answer⟩ r.registrations.lookup := by
  rw [processRegisterContext_registrations env regcomp tenant now h]
  unfold Exchange.record Exchange.registered
  dsimp only
  split
  · exact Collection.lookup_upsert _ _
  · rfl

/-- An answer that is no acceptance, over registrations that are as they were. -/
theorem record_refused {r r' : Registry} {x : Exchange} (hx : accepted x.answer = false)
    (h : r'.registrations = r.registrations) : r'.registrations.lookup = x.record r.registrations.lookup := by
  unfold Exchange.record Exchange.registered
  rw [hx, h]
  rfl

theorem mongoRegisterContext_record (servicePath newOid : String) (requestP : RegisterContextRequest) (r : Registry) :
    ∀ x, exchange env regcomp tenant now (.register servicePath newOid requestP) r = some x →
      (mongoRegisterContext env regcomp tenant servicePath now newOid requestP r).2.registrations.lookup =
        x.record r.registrations.lookup := by
  rintro x hx
  obtain ⟨answer, r', h⟩ : ∃ answer r',
      mongoRegisterContext env regcomp tenant servicePath now newOid requestP r = (answer, r') := ⟨_, _, rfl⟩
  rw [exchange, h, Option.some.injEq] at hx
  rw [h, ← hx]
  clear hx
  unfold mongoRegisterContext at h
  dsimp only at h ⊢
  generalize (if servicePath = "" then "/" else servicePath) = sPath at h ⊢
  by_cases hnew : requestP.registrationId = ""
  · rw [if_pos hnew] at h ⊢
    exact processRegisterContext_record env regcomp tenant now h
  · rw [if_neg hnew] at h ⊢
    cases hid : oidOf requestP.registrationId with
    | none =>
      rw [hid] at h
      cases h
      exact record_refused rfl rfl
    | some id =>
      rw [hid] at h
      have hcall := r.call_same.registrations
      generalize r.call = c at h hcall
      obtain ⟨o, r1⟩ := c
      cases o with
      | nullCursor =>
        cases h
        exact record_refused rfl hcall
      | dbException what =>
        cases h
        exact record_refused rfl hcall
      | otherException =>
        cases h
        exact record_refused rfl hcall
      | ok =>
        dsimp only at h hcall
        split at h
        · rw [processRegisterContext_record env regcomp tenant now h, hcall]
          rfl
        · cases h
          exact record_refused rfl hcall

theorem findCasub_registrations (subscriptionId : String) (r : Registry) :
    (findCasub env tenant subscriptionId r).2.registrations = r.registrations := by
  have hcall := r.call_same.registrations
  unfold findCasub
  split
  · rfl
  · generalize r.call = c at hcall
    obtain ⟨o, r1⟩ := c
    cases o <;> exact hcall

/-- The other requests leave the registrations alone. -/
theorem serve_registrations {req : RegistryRequest} {r : Registry} (h : exchange env regcomp tenant now req r = none) :
    (serve env regcomp tenant now req r).registrations = r.registrations := by
  cases req with
  | register servicePath newOid requestP => cases h
  | notifyAvailability servicePath newOid crV => cases h
  | subscribe newOid requestP inFormat =>
    have hcall := r.call_same.registrations
    simp only [serve, mongoSubscribeContextAvailability]
    generalize r.call = c at hcall
    obtain ⟨o, r1⟩ := c
    dsimp only at hcall ⊢
    split
    · exact hcall
    · split
      · exact hcall
      · rename_i casubs _
        have hp := processAvailabilitySubscriptionAs_registrations env regcomp tenant now requestP.entityIdVector
          requestP.attributeList newOid newOid requestP.reference inFormat { r1 with casubs := casubs }
        rw [processAvailabilitySubscriptionAs_self] at hp
        split
        · rename_i r2 e
          rw [e] at hp
          exact hp.trans hcall
        · rename_i sent r2 e
          rw [e] at hp
          exact hp.trans hcall
  | updateSubscription requestP inFormat =>
    have hfind := findCasub_registrations env tenant requestP.subscriptionId r
    simp only [serve, mongoUpdateContextAvailabilitySubscription]
    split
    · rename_i code r1 e
      rwa [e] at hfind
    · rename_i r1 e
      rwa [e] at hfind
    · rename_i sub r1 e
      rw [e] at hfind
      have hcall := r1.call_same.registrations.trans hfind
      generalize r1.call = c at hcall
      obtain ⟨o, r2⟩ := c
      dsimp only at hcall ⊢
      split
      · exact hcall
      · generalize hupdate : newCasub sub requestP inFormat now = update
        have hp := processAvailabilitySubscriptionAs_registrations env regcomp tenant now requestP.entityIdVector
          requestP.attributeList requestP.subscriptionId sub.oid (cString sub.reference) inFormat
          { r2 with casubs := r2.casubs.modify sub.oid (CasubDoc.replacedBy update) fun _ => rfl }
        split
        · rename_i r3 e3
          rw [e3] at hp
          exact hp.trans hcall
        · rename_i sent r3 e3
          rw [e3] at hp
          exact hp.trans hcall
  | unsubscribe subscriptionId =>
    have hfind := findCasub_registrations env tenant subscriptionId r
    simp only [serve, mongoUnsubscribeContextAvailability]
    split
    · rename_i code r1 e
      rwa [e] at hfind
    · rename_i r1 e
      rwa [e] at hfind
    · rename_i sub r1 e
      rw [e] at hfind
      have hcall := r1.call_same.registrations.trans hfind
      generalize r1.call = c at hcall
      obtain ⟨o, r2⟩ := c
      dsimp only at hcall ⊢
      split <;> exact hcall

/-- Step: a request records its exchange. -/
theorem serve_record (req : RegistryRequest) (r : Registry) :
    (serve env regcomp tenant now req r).registrations.lookup =
      directory (exchange env regcomp tenant now req r).toList r.registrations.lookup := by
  cases hx : exchange env regcomp tenant now req r with
  | none =>
    rw [serve_registrations env regcomp tenant now hx]
    rfl
  | some x =>
    cases req with
    | register servicePath newOid requestP =>
      exact mongoRegisterContext_record env regcomp tenant now servicePath newOid requestP r x hx
    | notifyAvailability servicePath newOid crV =>
      rw [exchange, Option.some.injEq] at hx
      rw [← hx]
      simp only [serve, mongoNotifyContextAvailability]
      split
      · rename_i r1 e
        rw [e]
        exact processRegisterContext_record env regcomp tenant now e
      · rename_i answer r1 e
        rw [e]
        exact processRegisterContext_record env regcomp tenant now e
    | subscribe newOid requestP inFormat => cases hx
    | updateSubscription requestP inFormat => cases hx
    | unsubscribe subscriptionId => cases hx

end

section
variable (env : Env) (regcomp : Regcomp) (tenant : String)

/-- **The registry is a directory.** After every run of requests, whatever fails in it and also when the broker dies on
the way, the registration stored under an identifier is the one of the last request for it that was accepted. -/
theorem registrations_directory : ∀ (reqs : List (Int × RegistryRequest)) (r : Registry),
    (serveAll env regcomp tenant reqs r).registrations.lookup =
      directory (exchanges env regcomp tenant reqs r) r.registrations.lookup
  | [], _ => rfl
  | (now, req) :: reqs, r => by
    rw [serveAll, registrations_directory reqs, exchanges, serve_record, directory, directory, directory,
      List.foldl_append]

/-- **Discovery answers the directory.** After every run, the elements on the pages of a discovery are those of the
registrations in the directory that are selected by the request, filtered by its entities and attributes. -/
theorem discovery_of_directory {reqs : List (Int × RegistryRequest)} {r₀ : Registry}
    (hr : (serveAll env regcomp tenant reqs r₀).Sure) {requestP : DiscoverContextAvailabilityRequest}
    (h : requestP.Conventional) (servicePathV : List String) (now : Int) {limit : Nat} (hl : 0 < limit)
    (details : Bool) {n : Nat}
    (hn : (registrationsFound env (serveAll env regcomp tenant reqs r₀) requestP.entityIdVector requestP.attributeList
      servicePathV now).length ≤ n * limit) (crr : ContextRegistrationResponse) :
    crr ∈ (List.range n).flatMap (fun i => discovered env regcomp tenant now requestP servicePathV (i * limit) limit
        details (serveAll env regcomp tenant reqs r₀)) ↔
      ∃ id d, directory (exchanges env regcomp tenant reqs r₀) r₀.registrations.lookup id = some d ∧
        Selected env.engine requestP.entityIdVector requestP.attributeList servicePathV now d ∧
        ∃ cr ∈ d.contextRegistration,
          processContextRegistrationElement regcomp requestP.entityIdVector requestP.attributeList cr = some crr := by
  have hlen : (sortedFound env now requestP.entityIdVector requestP.attributeList servicePathV
      (serveAll env regcomp tenant reqs r₀)).length ≤ n * limit := by
    rw [sortedFound, List.length_insertionSort]
    exact hn
  simp only [discovered_sure env regcomp tenant now h servicePathV _ _ details hr]
  rw [registrationsAnswer_pages regcomp requestP.entityIdVector requestP.attributeList hl hlen]
  simp only [registrationsAnswer, List.mem_flatMap, List.mem_filterMap, sortedFound, List.mem_insertionSort,
    mem_registrationsFound, ← registrations_directory, Collection.lookup_eq_some]
  constructor
  · rintro ⟨d, ⟨hd, hsel⟩, hcr⟩
    exact ⟨d.oid, d, ⟨hd, rfl⟩, hsel, hcr⟩
  · rintro ⟨id, d, ⟨hd, rfl⟩, hsel, hcr⟩
    exact ⟨d, ⟨hd, hsel⟩, hcr⟩

end

/-- The first provider as it is after its second registration. -/
theorem providerRegistry_directory :
    ∃ id d, directory (exchanges (Env.plain fun _ _ => false) (fun _ => none) "" providerRequests {})
        (Registry.registrations {}).lookup id = some d ∧
      Selected (Env.plain fun _ _ => false).engine roomRequest.entityIdVector roomRequest.attributeList [] 200 d ∧
      ∃ cr ∈ d.contextRegistration, processContextRegistrationElement (fun _ => none) roomRequest.entityIdVector
        roomRequest.attributeList cr =
          some ⟨[{ id := "Room", type := "T", isPattern := "false" }], [], "http://p3"⟩ :=
  (@discovery_of_directory (Env.plain fun _ _ => false) (fun _ => none) "" providerRequests {} (by decide +kernel)
    roomRequest roomRequest_conventional [] 200 1 (by decide) true 2 (by decide +kernel) _).1 (by decide +kernel)

end OrionBroker.Register
