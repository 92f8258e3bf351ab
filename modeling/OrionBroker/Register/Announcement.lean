import OrionBroker.Register.Discovery
import OrionBroker.Register.SubscriptionRuns

/-!
# What availability notifications say

The content of a notification is a `registrationsQuery` with the default page: the first 20 of the selected
registrations, in the order of their identifiers, and no service path.

* `registration_announced`: an accepted registration notifies each subscription it triggers at most once, with the
  first 20 of the registrations selected after it; the new one is among them exactly when fewer than 20 have a
  smaller identifier.
* `discovery_mirrored`: a broker that stores what it is notified answers a discovery as the notifier does.
-/

namespace OrionBroker.Register

open Mongo

/-! ## The notifications of a registration -/

section
variable (env : Env) (regcomp : Regcomp) (tenant : String) (now : Int)

/-- The registrations a notification is made from. -/
def shown (enV : List EntityId) (attrL : List String) (r : Registry) : List RegDoc :=
  page DEFAULT_PAGINATION_OFFSET_INT DEFAULT_PAGINATION_LIMIT_INT (sortedFound env now enV attrL [] r)

/-- The notification to an entry of the map; none when its content would be empty. -/
def announcement (enV : List EntityId) (r : Registry) (p : String × TriggeredSubscription) :
    Option AvailabilityNotification :=
  let crrV := registrationsAnswer regcomp enV p.2.attrL (shown env now enV p.2.attrL r)
  if crrV.length > 0 then some ⟨p.1, crrV, p.2.reference, p.2.format⟩ else none

theorem shown_congr {enV : List EntityId} {attrL : List String} {r r' : Registry}
    (h : r'.registrations = r.registrations) : shown env now enV attrL r' = shown env now enV attrL r := by
  unfold shown sortedFound registrationsFound
  rw [h]

theorem announcement_congr {enV : List EntityId} {r r' : Registry} (h : r'.registrations = r.registrations) :
    announcement env regcomp now enV r' = announcement env regcomp now enV r := by
  funext p
  unfold announcement
  rw [shown_congr env now h]

/-- The map of the subscriptions that the elements of a registration trigger. -/
def triggeredBy (crV : List ContextRegistration) (subs : SubsMap) (r : Registry) : SubsMap :=
  crV.foldl (fun subs cr => addCasubs subs (casubsFound env cr now r)) subs

theorem triggeredBy_congr {r r' : Registry} (h : r'.casubs = r.casubs) (crV : List ContextRegistration)
    (subs : SubsMap) : triggeredBy env now crV subs r' = triggeredBy env now crV subs r := by
  unfold triggeredBy casubsFound
  rw [h]

/-- With no failing call. -/
theorem mongoUpdateCasubNewNotification_sure (oid : String) {r : Registry} (hr : r.Sure) :
    (mongoUpdateCasubNewNotification now oid r).Sure ∧
    (mongoUpdateCasubNewNotification now oid r).registrations = r.registrations ∧
    (mongoUpdateCasubNewNotification now oid r).sent = r.sent := by
  unfold mongoUpdateCasubNewNotification
  rw [hr.call]
  exact ⟨hr, rfl, rfl⟩

/-- What notifications leave when no call fails. -/
structure Told (sent : List AvailabilityNotification) (r r' : Registry) : Prop where
  sure : r'.Sure
  registrations : r'.registrations = r.registrations
  sent : r'.sent = r.sent ++ sent

theorem processAvailabilitySubscriptionAs_told (enV : List EntityId) (attrL : List String)
    (subId oid notifyUrl : String) (format : Format) {r : Registry} (hr : r.Sure) :
    let crrV := registrationsAnswer regcomp enV attrL (shown env now enV attrL r)
    (processAvailabilitySubscriptionAs env regcomp tenant now enV attrL subId oid notifyUrl format r).1 =
      some (decide (crrV.length > 0)) ∧
    Told (if crrV.length > 0 then [⟨subId, crrV, notifyUrl, format⟩] else []) r
      (processAvailabilitySubscriptionAs env regcomp tenant now enV attrL subId oid notifyUrl format r).2 := by
  have hfind : registrationsFind env r enV attrL [] now DEFAULT_PAGINATION_OFFSET_INT DEFAULT_PAGINATION_LIMIT_INT =
      shown env now enV attrL r := rfl
  unfold processAvailabilitySubscriptionAs
  rw [registrationsQuery_sure env regcomp tenant now _ _ _ _ _ _ hr, hfind]
  dsimp only
  generalize registrationsAnswer regcomp enV attrL (shown env now enV attrL r) = crrV
  by_cases h : crrV.length > 0
  · rw [if_pos h, if_pos h]
    obtain ⟨hs, hreg, hsent⟩ := @mongoUpdateCasubNewNotification_sure now oid
      { r with sent := r.sent ++ [⟨subId, crrV, notifyUrl, format⟩] } hr
    exact ⟨by simp [h], hs, hreg, hsent⟩
  · rw [if_neg h, if_neg h]
    exact ⟨by simp [h], hr, rfl, (List.append_nil _).symm⟩

/-- The loop tells the entries of the map one after the other. -/
theorem processSubscriptions_told (enV : List EntityId) : ∀ (subs : SubsMap) {r : Registry}, r.Sure →
    (∃ ret, (processSubscriptions env regcomp tenant now enV subs r).1 = some ret) ∧
    Told (subs.filterMap (announcement env regcomp now enV r)) r
      (processSubscriptions env regcomp tenant now enV subs r).2
  | [], r, hr => ⟨⟨true, rfl⟩, hr, rfl, (List.append_nil _).symm⟩
  | (mapSubId, trigs) :: subs, r, hr => by
    obtain ⟨hret, htold⟩ := processAvailabilitySubscriptionAs_told env regcomp tenant now enV trigs.attrL mapSubId
      mapSubId trigs.reference trigs.format hr
    rw [processAvailabilitySubscriptionAs_self] at hret htold
    rw [processSubscriptions]
    generalize processAvailabilitySubscription env regcomp tenant now enV trigs.attrL mapSubId trigs.reference
      trigs.format r = one at hret htold
    obtain ⟨ret, r1⟩ := one
    dsimp only at hret htold
    obtain ⟨⟨rest, hrest⟩, htold'⟩ := processSubscriptions_told enV subs htold.sure
    have hsame := @announcement_congr env regcomp now enV _ _ htold.registrations
    have hall : Told (((mapSubId, trigs) :: subs).filterMap (announcement env regcomp now enV r)) r
        (processSubscriptions env regcomp tenant now enV subs r1).2 := by
      refine ⟨htold'.sure, htold'.registrations.trans htold.registrations, ?_⟩
      rw [htold'.sent, htold.sent, hsame, List.append_assoc, List.filterMap_cons]
      unfold announcement
      dsimp only
      split <;> rfl
    have htwo : processSubscriptions env regcomp tenant now enV subs r1 =
        (some rest, (processSubscriptions env regcomp tenant now enV subs r1).2) := Prod.ext hrest rfl
    rw [hret]
    dsimp only
    rw [htwo]
    exact ⟨⟨_, rfl⟩, hall⟩

/-- With no failing call the lookups of the elements collect the map. -/
theorem processContextRegistrations_triggered : ∀ {crV : List ContextRegistration} {subs m : SubsMap} {r : Registry},
    r.Sure → (processContextRegistrations env tenant now crV subs r).1 = .ok m → m = triggeredBy env now crV subs r
  | [], _, _, _, _, h => by
    cases h
    rfl
  | cr :: crV, subs, m, r, hr, h => by
    have hq := processAssociations_quiet cr.registrationMetadataVector r
    rw [processContextRegistrations] at h
    split at h
    · cases h
    · rename_i r1 e
      rw [e] at hq
      have hr1 : r1.Sure := sure_of_suffix hq.outcomes hr
      unfold addTriggeredSubscriptions at h
      rw [hr1.call] at h
      dsimp only [Outcome.queryError] at h
      rw [processContextRegistrations_triggered hr1 h, triggeredBy_congr env now hq.casubs]
      unfold triggeredBy casubsFound
      rw [List.foldl_cons, hq.casubs]

/-- The subscriptions and what was sent are as they were before the loop over the elements. -/
theorem processContextRegistrations_sure (crV : List ContextRegistration) {r : Registry} (hr : r.Sure) :
    (processContextRegistrations env tenant now crV [] r).2.Sure ∧
    (processContextRegistrations env tenant now crV [] r).2.sent = r.sent := by
  have hq := (@processContextRegistrations_quiet env tenant now crV [] r nofun).1
  exact ⟨sure_of_suffix hq.outcomes hr, hq.sent⟩

/-- The place of a registration on the first page. -/
theorem mem_shown_iff {enV : List EntityId} {attrL : List String} {r : Registry} {d : RegDoc} :
    d ∈ shown env now enV attrL r ↔
      (d ∈ r.registrations.docs ∧ Selected env.engine enV attrL [] now d) ∧
        (registrationsFound env r enV attrL [] now).countP (fun x => decide (x.oid < d.oid)) < 20 := by
  have hn : ((registrationsFound env r enV attrL [] now).map RegDoc.oid).Nodup := r.registrations.find_nodup _
  rw [shown, mem_page_iff, sortedFound, ← mem_registrationsFound]
  constructor
  · rintro ⟨i, hi, _, hl⟩
    obtain ⟨hd, rfl⟩ := (getElem?_insertionSort_iff hn).1 hi
    refine ⟨hd, ?_⟩
    unfold DEFAULT_PAGINATION_OFFSET_INT DEFAULT_PAGINATION_LIMIT_INT at hl
    omega
  · rintro ⟨hd, hl⟩
    refine ⟨_, (getElem?_insertionSort_iff hn).2 ⟨hd, rfl⟩, Nat.zero_le _, .inr ?_⟩
    unfold DEFAULT_PAGINATION_OFFSET_INT DEFAULT_PAGINATION_LIMIT_INT
    omega

/-- **What a registration announces.** With no failing call, an accepted registration sends to the subscriptions its
elements trigger, in the order of their identifiers, one notification each, of the first 20 of the registrations
selected after it, or none when that would be empty; the new registration is among them exactly when it is selected
and fewer than 20 selected ones have a smaller identifier. -/
theorem registration_announced {sPath oid : String} {requestP : RegisterContextRequest} {r r' : Registry}
    {answer : Option RegisterContextResponse} (hr : r.Sure)
    (h : processRegisterContext env regcomp tenant sPath now oid requestP r = (answer, r'))
    (hok : accepted answer = true) :
    r'.sent = r.sent ++ (triggeredBy env now requestP.contextRegistrationVector [] r).filterMap
      (announcement env regcomp now (requestP.contextRegistrationVector.flatMap ContextRegistration.entityIdVector) r') ∧
    ∀ p ∈ triggeredBy env now requestP.contextRegistrationVector [] r,
      (registeredDoc now sPath oid requestP ∈
        shown env now (requestP.contextRegistrationVector.flatMap ContextRegistration.entityIdVector) p.2.attrL r' ↔
        Selected env.engine (requestP.contextRegistrationVector.flatMap ContextRegistration.entityIdVector) p.2.attrL []
          now (registeredDoc now sPath oid requestP) ∧
        (registrationsFound env r' (requestP.contextRegistrationVector.flatMap ContextRegistration.entityIdVector)
          p.2.attrL [] now).countP (fun d => decide (d.oid < oid)) < 20) := by
  generalize henV : requestP.contextRegistrationVector.flatMap ContextRegistration.entityIdVector = enV
  constructor
  · obtain ⟨hs, hsent⟩ := processContextRegistrations_sure env tenant now requestP.contextRegistrationVector hr
    have herr := processContextRegistrations_error env tenant now requestP.contextRegistrationVector [] r
    have htrig := fun m => @processContextRegistrations_triggered env tenant now requestP.contextRegistrationVector [] m r hr
    unfold processRegisterContext at h
    rw [henV] at h
    dsimp only at h
    split at h
    · rename_i code r1 e
      rw [e] at herr
      cases h
      simp [accepted, herr code rfl] at hok
    · rename_i subs r1 e
      rw [e] at hs hsent htrig
      rw [← htrig subs rfl, ← hsent]
      dsimp only at hs hsent
      rw [Registry.Sure.call hs] at h
      dsimp only [Outcome.writeError] at h
      generalize hdoc : regDoc oid _ sPath requestP.contextRegistrationVector = doc at h
      obtain ⟨⟨ret, hret⟩, htold⟩ := @processSubscriptions_told env regcomp tenant now enV subs
        { r1 with registrations := r1.registrations.upsert doc } hs
      have htwo : processSubscriptions env regcomp tenant now enV subs
          { r1 with registrations := r1.registrations.upsert doc } =
          (some ret, (processSubscriptions env regcomp tenant now enV subs
            { r1 with registrations := r1.registrations.upsert doc }).2) := Prod.ext hret rfl
      rw [htwo] at h
      cases h
      rw [htold.sent, announcement_congr env regcomp now htold.registrations]
  · intro p _
    have hreg := processRegisterContext_registrations env regcomp tenant now h
    rw [if_pos hok] at hreg
    have hmem : registeredDoc now sPath oid requestP ∈ r'.registrations.docs := by
      rw [hreg]
      exact Collection.mem_upsert.2 (.inl rfl)
    rw [mem_shown_iff, and_iff_right hmem]
    rfl

end

/-- A second provider of the room registers. -/
def roomAnnounced : Option RegisterContextResponse × Registry :=
  processRegisterContext (Env.plain fun _ _ => false) (fun _ => none) "" "/" 103 "51c0ac9ed714fb3b37d7d5b9"
    { contextRegistrationVector := [roomProvider "http://p2"] } roomRegistry

theorem roomRegistry_announced :
    (roomAnnounced.2.sent.drop 2).map (fun n => (n.subscriptionId,
        n.contextRegistrationResponseVector.map ContextRegistrationResponse.providingApplication)) =
      [("51c0ac9ed714fb3b37d7d5a8", ["http://provider", "http://p2"])] ∧
    roomAnnounced.2.sent = roomRegistry.sent ++
      (triggeredBy (Env.plain fun _ _ => false) 103 [roomProvider "http://p2"] [] roomRegistry).filterMap
        (announcement (Env.plain fun _ _ => false) (fun _ => none) 103
          ([roomProvider "http://p2"].flatMap ContextRegistration.entityIdVector) roomAnnounced.2) :=
  ⟨by decide +kernel, (@registration_announced (Env.plain fun _ _ => false) (fun _ => none) "" 103 "/"
    "51c0ac9ed714fb3b37d7d5b9" { contextRegistrationVector := [roomProvider "http://p2"] } roomRegistry roomAnnounced.2
    roomAnnounced.1 (by decide +kernel) rfl (by decide +kernel)).1⟩

/-! ## A second broker -/

/-- The element of a notification as the receiving broker registers it. -/
def asContextRegistration (crr : ContextRegistrationResponse) : ContextRegistration where
  entityIdVector := crr.entityIdVector
  contextRegistrationAttributeVector := crr.contextRegistrationAttributeVector
  providingApplication := crr.providingApplication

section
variable (regcomp : Regcomp)

theorem strField_regEntity (en : EntityId) : strField (regEntity en).type = cString en.type := by
  unfold regEntity
  dsimp only
  split
  · rename_i h0
    rw [h0, strField_none, cString_empty]
  · rw [strField_some]

theorem processEntity_mirrored {enV : List EntityId} {entity : RegEntity} {en : EntityId}
    (h : processEntity regcomp enV entity = some en) : processEntity regcomp enV (regEntity en) = some en := by
  unfold processEntity at h
  dsimp only at h
  split at h
  · rename_i hinc
    obtain rfl := Option.some.inj h
    have hid : cString (regEntity { id := cString entity.id, type := strField entity.type, isPattern := "false" }).id =
        cString entity.id := cString_cString entity.id
    unfold processEntity
    rw [hid, strField_regEntity]
    dsimp only
    rw [cString_strField, if_pos hinc]
  · cases h

/-- What a loop keeps, it keeps when it is run again. -/
theorem filterMap_again {α β : Type} {f : α → Option β} {g : β → Option β} (h : ∀ a b, f a = some b → g b = some b)
    (l : List α) : (l.filterMap f).filterMap g = l.filterMap f := by
  rw [List.filterMap_filterMap]
  refine List.filterMap_congr fun a _ => ?_
  cases ha : f a with
  | none => rfl
  | some b => exact h a b ha

theorem processAttribute_eq {attrL : List String} {attr attr' : ContextRegistrationAttribute}
    (h : processAttribute attrL attr = some attr') : processAttribute attrL attr' = some attr' := by
  unfold processAttribute at h
  dsimp only at h
  split at h
  · rename_i hinc
    obtain rfl := Option.some.inj h
    unfold processAttribute
    simp only [cString_cString, hinc, if_true]
  · cases h

/-- What an answer names was read from a document. -/
theorem name_of_processed {enV : List EntityId} {attrL : List String} {cr : RegElement}
    {crr : ContextRegistrationResponse} (h : processContextRegistrationElement regcomp enV attrL cr = some crr)
    {attr : ContextRegistrationAttribute} (ha : attr ∈ crr.contextRegistrationAttributeVector) :
    cString attr.name = attr.name := by
  have hin : ∃ a ∈ cr.attrs, processAttribute attrL a = some attr := by
    unfold processContextRegistrationElement at h
    dsimp only at h
    split at h
    · cases h
    · rename_i hne
      have hpos : (cr.entities.filterMap (processEntity regcomp enV)).length > 0 := by omega
      rw [if_pos hpos] at h
      split at h
      · obtain rfl := Option.some.inj h
        exact List.mem_filterMap.1 ha
      · cases h
  obtain ⟨a, -, hread⟩ := hin
  unfold processAttribute at hread
  dsimp only at hread
  split at hread
  · obtain rfl := Option.some.inj hread
    exact cString_cString a.name
  · cases hread

/-- An element that passed the filter of one broker passes it unchanged at the next. -/
theorem element_mirrored {enV : List EntityId} {attrL : List String} {cr : RegElement}
    {crr : ContextRegistrationResponse} (h : processContextRegistrationElement regcomp enV attrL cr = some crr) :
    processContextRegistrationElement regcomp enV attrL (regElement (asContextRegistration crr)) = some crr := by
  unfold processContextRegistrationElement at h ⊢
  dsimp only at h ⊢
  split at h
  · cases h
  · rename_i hne
    have hpos : (cr.entities.filterMap (processEntity regcomp enV)).length > 0 := by omega
    rw [if_pos hpos] at h
    split at h
    · rename_i hattrs
      cases h
      have hents : ((cr.entities.filterMap (processEntity regcomp enV)).map regEntity).filterMap
          (processEntity regcomp enV) = cr.entities.filterMap (processEntity regcomp enV) := by
        rw [List.filterMap_map]
        exact filterMap_again (fun _ _ => processEntity_mirrored regcomp) cr.entities
      have hatt : (cr.attrs.filterMap (processAttribute attrL)).filterMap (processAttribute attrL) =
          cr.attrs.filterMap (processAttribute attrL) := filterMap_again (fun _ _ => processAttribute_eq) cr.attrs
      simp only [regElement, asContextRegistration, hents, hatt, if_neg hne, if_pos hpos, if_pos hattrs,
        cString_cString]
    · cases h

theorem answer_mirrored (enV : List EntityId) (attrL : List String) (docs : List RegDoc) :
    (registrationsAnswer regcomp enV attrL docs).filterMap (fun crr =>
      processContextRegistrationElement regcomp enV attrL (regElement (asContextRegistration crr))) =
    registrationsAnswer regcomp enV attrL docs := by
  have hall : ∀ crr ∈ registrationsAnswer regcomp enV attrL docs,
      processContextRegistrationElement regcomp enV attrL (regElement (asContextRegistration crr)) = some crr := by
    intro crr hcrr
    obtain ⟨d, _, hcrr⟩ := List.mem_flatMap.1 hcrr
    obtain ⟨cr, _, h⟩ := List.mem_filterMap.1 hcrr
    exact element_mirrored regcomp h
  rw [List.filterMap_congr hall]
  exact List.filterMap_some

/-- What the second broker stores. -/
def mirroredDoc (now : Int) (sPath oid : String) (crrV : List ContextRegistrationResponse) : RegDoc :=
  registeredDoc now sPath oid
    { contextRegistrationVector := crrV.map asContextRegistration, duration := DEFAULT_DURATION }

theorem mirroredDoc_answer (now : Int) (sPath oid : String) (enV : List EntityId) (attrL : List String)
    (docs : List RegDoc) :
    registrationsAnswer regcomp enV attrL [mirroredDoc now sPath oid (registrationsAnswer regcomp enV attrL docs)] =
      registrationsAnswer regcomp enV attrL docs := by
  conv_rhs => rw [← answer_mirrored]
  rw [registrationsAnswer, List.flatMap_singleton]
  unfold mirroredDoc registeredDoc regDoc
  simp only [List.filterMap_map, Function.comp_def]

/-- The entities of a notification. -/
def notifiedEntities (crrV : List ContextRegistrationResponse) : List RegEntity :=
  crrV.flatMap fun crr => crr.entityIdVector.map regEntity

/-- What is stored of a notification is selected by the entities alone: the attributes are there. -/
theorem mirroredDoc_selected (E : Engine) {now later : Int} {sPath oid : String} {enV : List EntityId}
    {attrL servicePathV : List String} {docs : List RegDoc} (hlater : later < now + parse8601 DEFAULT_DURATION)
    (hpath : (fillQueryServicePath servicePathV).holds E [.str sPath] = true) :
    Selected E enV attrL servicePathV later
        (mirroredDoc now sPath oid (registrationsAnswer regcomp enV attrL docs)) ↔
      ∃ en ∈ enV, NamesEntity E en (notifiedEntities (registrationsAnswer regcomp enV attrL docs)) := by
  generalize hcrrV : registrationsAnswer regcomp enV attrL docs = crrV
  have hents : RegDoc.entities (mirroredDoc now sPath oid crrV) = notifiedEntities crrV := by
    unfold RegDoc.entities mirroredDoc registeredDoc regDoc notifiedEntities
    rw [List.map_map, List.flatMap_map]
    rfl
  have hattrs : RegDoc.attrs (mirroredDoc now sPath oid crrV) =
      crrV.flatMap ContextRegistrationResponse.contextRegistrationAttributeVector := by
    unfold RegDoc.attrs mirroredDoc registeredDoc regDoc
    rw [List.map_map, List.flatMap_map]
    rfl
  constructor
  · intro h
    rw [← hents]
    exact h.entity
  · rintro ⟨en, hen, hnames⟩
    refine ⟨⟨hlater, ?_⟩, ⟨en, hen, by rwa [hents]⟩, ?_⟩
    · have hat : (mirroredDoc now sPath oid crrV).toBson.at ["servicePath"] = [.str sPath] := by
        simp [mirroredDoc, registeredDoc, regDoc, RegDoc.toBson, Bson.at, Bson.step, Bson.sub, optField, List.lookup_cons]
      rw [hat]
      exact hpath
    · rw [hattrs]
      -- there is an element, and it passed the filter
      obtain ⟨crr, hcrr⟩ : ∃ crr, crr ∈ crrV := by
        cases crrV with
        | nil => exact absurd hnames (by simp [NamesEntity, notifiedEntities])
        | cons crr crrV => exact ⟨crr, List.mem_cons_self⟩
      have hpass := hcrr
      rw [← hcrrV] at hpass
      obtain ⟨d, _, hd⟩ := List.mem_flatMap.1 hpass
      obtain ⟨cr, _, hpass⟩ := List.mem_filterMap.1 hd
      have hprov := (element_included_iff regcomp enV attrL (regElement (asContextRegistration crr))).1
        (by rw [element_mirrored regcomp hpass]; rfl)
      rcases hprov.2 with h | ⟨a, ha, hname⟩
      · exact .inl h
      · rw [name_of_processed regcomp hpass ha] at hname
        exact .inr ⟨a, List.mem_flatMap.2 ⟨crr, hcrr, ha⟩, hname⟩

end

section
variable (env : Env) (regcomp : Regcomp) (tenant : String) (now : Int)

theorem processContextRegistrations_plain : ∀ {crV : List ContextRegistration} {subs : SubsMap} {r : Registry}, r.Sure →
    (∀ cr ∈ crV, cr.registrationMetadataVector = []) →
    processContextRegistrations env tenant now crV subs r = (.ok (triggeredBy env now crV subs r), r)
  | [], _, _, _, _ => rfl
  | cr :: crV, subs, r, hr, hmd => by
    rw [processContextRegistrations, hmd cr List.mem_cons_self, processAssociations]
    unfold addTriggeredSubscriptions
    dsimp only
    rw [hr.call]
    dsimp only [Outcome.queryError]
    rw [processContextRegistrations_plain hr fun cr hcr => hmd cr (List.mem_cons_of_mem _ hcr)]
    rfl

/-- With no failing call and no associations a registration is stored. -/
theorem processRegisterContext_plain {sPath oid : String} {requestP : RegisterContextRequest} {r : Registry}
    (hr : r.Sure) (hmd : ∀ cr ∈ requestP.contextRegistrationVector, cr.registrationMetadataVector = []) :
    (∃ rcr, (processRegisterContext env regcomp tenant sPath now oid requestP r).1 = some rcr ∧
      rcr.registrationId = oid ∧ accepted (some rcr) = true) ∧
    (processRegisterContext env regcomp tenant sPath now oid requestP r).2.Sure ∧
    (processRegisterContext env regcomp tenant sPath now oid requestP r).2.registrations =
      r.registrations.upsert (registeredDoc now sPath oid requestP) := by
  unfold processRegisterContext registeredDoc
  dsimp only
  rw [processContextRegistrations_plain env tenant now hr hmd]
  dsimp only
  rw [hr.call]
  dsimp only [Outcome.writeError]
  generalize hdoc : regDoc oid _ sPath requestP.contextRegistrationVector = doc
  obtain ⟨⟨ret, hret⟩, htold⟩ := @processSubscriptions_told env regcomp tenant now
    (requestP.contextRegistrationVector.flatMap ContextRegistration.entityIdVector)
    (triggeredBy env now requestP.contextRegistrationVector [] r) { r with registrations := r.registrations.upsert doc } hr
  split
  · rename_i r' e
    rw [e] at hret
    cases hret
  · rename_i ret' r' e
    rw [e] at htold
    exact ⟨⟨_, rfl, rfl, rfl⟩, htold.sure, htold.registrations⟩

theorem mongoNotifyContextAvailability_sure {sPath oid : String} (crrV : List ContextRegistrationResponse) {r : Registry}
    (hr : r.Sure) :
    (serve env regcomp tenant now (.notifyAvailability sPath oid (crrV.map asContextRegistration)) r).Sure ∧
    (serve env regcomp tenant now (.notifyAvailability sPath oid (crrV.map asContextRegistration)) r).registrations =
      r.registrations.upsert (mirroredDoc now sPath oid crrV) := by
  have h := @processRegisterContext_plain env regcomp tenant now sPath oid
    { contextRegistrationVector := crrV.map asContextRegistration, duration := DEFAULT_DURATION } r hr (by
      intro cr hcr
      obtain ⟨crr, _, rfl⟩ := List.mem_map.1 hcr
      rfl)
  simp only [serve, mongoNotifyContextAvailability]
  split
  · rename_i r' e
    rw [e] at h
    exact h.2
  · rename_i response r' e
    rw [e] at h
    exact h.2

/-- A new subscription is told what a discovery answers. -/
theorem subscribe_told {oid : String} {subP : SubscribeContextAvailabilityRequest} {inFormat : Format} {r : Registry}
    (hr : r.Sure) {n : AvailabilityNotification}
    (hn : (serve env regcomp tenant now (.subscribe oid subP inFormat) r).sent = r.sent ++ [n]) :
    n.contextRegistrationResponseVector =
      registrationsAnswer regcomp subP.entityIdVector subP.attributeList
        (shown env now subP.entityIdVector subP.attributeList r) := by
  simp only [serve, mongoSubscribeContextAvailability] at hn
  rw [hr.call] at hn
  dsimp only [Outcome.writeError] at hn
  cases hi : r.casubs.insert (subscribedCasub subP inFormat now oid) with
  | none =>
    rw [hi] at hn
    simp at hn
  | some casubs =>
    rw [hi] at hn
    dsimp only at hn
    obtain ⟨_, htold⟩ := @processAvailabilitySubscriptionAs_told env regcomp tenant now subP.entityIdVector
      subP.attributeList oid oid subP.reference inFormat { r with casubs := casubs } hr
    rw [processAvailabilitySubscriptionAs_self, @shown_congr env now _ _ r { r with casubs := casubs } rfl] at htold
    have hsent := htold.sent
    split at hn
    · rename_i r' e
      rw [e] at hsent
      rw [hn] at hsent
      have hone := List.append_cancel_left hsent
      split at hone
      · rw [List.singleton_inj] at hone
        rw [hone]
      · cases hone
    · rename_i ret r' e
      rw [e] at hsent
      rw [hn] at hsent
      have hone := List.append_cancel_left hsent
      split at hone
      · rw [List.singleton_inj] at hone
        rw [hone]
      · cases hone

end

/-- **A second broker** that is notified of what a new subscription finds answers it from then on: with no failing
call, its discovery of the same entities and attributes, taken without pages, is the one it had with the elements of
the notification put in as one block, as they stood in the answer of the first broker; they are found when one of the
entities asked for names one of theirs, and else the answer stays what it was. -/
theorem discovery_mirrored {envA envB : Env} {regcomp : Regcomp} {tenantA tenantB : String} {nowA nowB later : Int}
    {oidA oidB sPath : String} {subP : SubscribeContextAvailabilityRequest} {inFormat : Format} {rA rB : Registry}
    (hA : rA.Sure) {n : AvailabilityNotification}
    (hn : (serve envA regcomp tenantA nowA (.subscribe oidA subP inFormat) rA).sent = rA.sent ++ [n])
    (hB : rB.Sure) (hnew : rB.registrations.lookup oidB = none)
    {requestP : DiscoverContextAvailabilityRequest} (h : requestP.Conventional)
    (hent : requestP.entityIdVector = subP.entityIdVector) (hattr : requestP.attributeList = subP.attributeList)
    {servicePathV : List String} (hlater : later < nowB + parse8601 DEFAULT_DURATION)
    (hpath : (fillQueryServicePath servicePathV).holds envB.engine [.str sPath] = true) (details : Bool) :
    n.contextRegistrationResponseVector = discovered envA regcomp tenantA nowA requestP [] DEFAULT_PAGINATION_OFFSET_INT
        DEFAULT_PAGINATION_LIMIT_INT details rA ∧
    ∃ before after,
      discovered envB regcomp tenantB later requestP servicePathV 0 0 details rB = before ++ after ∧
      ((∃ en ∈ subP.entityIdVector,
          NamesEntity envB.engine en (notifiedEntities n.contextRegistrationResponseVector)) →
        discovered envB regcomp tenantB later requestP servicePathV 0 0 details
          (serve envB regcomp tenantB nowB (.notifyAvailability sPath oidB
            (n.contextRegistrationResponseVector.map asContextRegistration)) rB) =
          before ++ n.contextRegistrationResponseVector ++ after) ∧
      ((¬ ∃ en ∈ subP.entityIdVector,
          NamesEntity envB.engine en (notifiedEntities n.contextRegistrationResponseVector)) →
        discovered envB regcomp tenantB later requestP servicePathV 0 0 details
          (serve envB regcomp tenantB nowB (.notifyAvailability sPath oidB
            (n.contextRegistrationResponseVector.map asContextRegistration)) rB) = before ++ after) := by
  have hcrrV := subscribe_told envA regcomp tenantA nowA hA hn
  refine ⟨?_, ?_⟩
  · rw [discovered_sure envA regcomp tenantA nowA h _ _ _ _ hA, hent, hattr]
    exact hcrrV
  · generalize hlist : shown envA nowA subP.entityIdVector subP.attributeList rA = docs at hcrrV
    rw [hcrrV]
    obtain ⟨hS, hreg⟩ := @mongoNotifyContextAvailability_sure envB regcomp tenantB nowB sPath oidB
      (registrationsAnswer regcomp subP.entityIdVector subP.attributeList docs) rB hB
    have hsel := @mirroredDoc_selected regcomp envB.engine nowB later sPath oidB subP.entityIdVector subP.attributeList
      servicePathV docs hlater hpath
    have hanswer := mirroredDoc_answer regcomp nowB sPath oidB subP.entityIdVector subP.attributeList docs
    have hkey : (mirroredDoc nowB sPath oidB
        (registrationsAnswer regcomp subP.entityIdVector subP.attributeList docs)).oid = oidB := rfl
    generalize serve envB regcomp tenantB nowB _ rB = rB' at hS hreg ⊢
    generalize mirroredDoc nowB sPath oidB
      (registrationsAnswer regcomp subP.entityIdVector subP.attributeList docs) = doc at hsel hanswer hreg hkey
    have hdocs : rB'.registrations.docs = rB.registrations.docs ++ [doc] := by
      rw [hreg]
      exact Collection.docs_upsert (by rw [hkey]; exact hnew)
    -- the document is found when it is selected
    have hfound : registrationsFound envB rB' subP.entityIdVector subP.attributeList servicePathV later =
        registrationsFound envB rB subP.entityIdVector subP.attributeList servicePathV later ++
          [doc].filter fun d =>
            (registrationsSelector subP.entityIdVector subP.attributeList servicePathV later).matches envB.engine d.toBson := by
      unfold registrationsFound Collection.find
      rw [hdocs, List.filter_append]
    have hnodup := rB'.registrations.find_nodup fun d =>
      (registrationsSelector subP.entityIdVector subP.attributeList servicePathV later).matches envB.engine d.toBson
    rw [show rB'.registrations.find _ = registrationsFound envB rB' subP.entityIdVector subP.attributeList servicePathV
      later from rfl, hfound] at hnodup
    rw [discovered_sure envB regcomp tenantB later h _ _ _ _ hB, discovered_sure envB regcomp tenantB later h _ _ _ _ hS,
      hent, hattr]
    unfold sortedFound
    rw [hfound]
    by_cases hs : (registrationsSelector subP.entityIdVector subP.attributeList servicePathV later).matches envB.engine
        doc.toBson = true
    · have hone : ([doc].filter fun d => (registrationsSelector subP.entityIdVector subP.attributeList servicePathV
          later).matches envB.engine d.toBson) = [doc] := by simp [hs]
      rw [hone] at hnodup ⊢
      obtain ⟨before, after, hb, ha⟩ := insertionSort_insert hnodup
      rw [hb, ha]
      have hnames := hsel.1 ((registrationSelected_iff _ _ _ _ _ _).1 hs)
      refine ⟨registrationsAnswer regcomp subP.entityIdVector subP.attributeList before,
        registrationsAnswer regcomp subP.entityIdVector subP.attributeList after, ?_, fun _ => ?_, fun hno => ?_⟩
      · exact List.flatMap_append
      · rw [← hanswer, page, if_pos rfl, List.drop_zero, ← List.singleton_append, ← List.append_assoc]
        unfold registrationsAnswer
        rw [List.flatMap_append, List.flatMap_append]
      · exact absurd hnames hno
    · have hnone : ([doc].filter fun d => (registrationsSelector subP.entityIdVector subP.attributeList servicePathV
          later).matches envB.engine d.toBson) = [] := by simp [hs]
      rw [hnone, List.append_nil]
      refine ⟨_, [], (List.append_nil _).symm, fun hnames => ?_, fun _ => (List.append_nil _).symm⟩
      exact absurd ((registrationSelected_iff _ _ _ _ _ _).2 (hsel.2 hnames)) hs

/-- What a broker with two providers tells a new subscription. -/
def roomNotification : AvailabilityNotification where
  subscriptionId := "51c0ac9ed714fb3b37d7d5c1"
  contextRegistrationResponseVector :=
    [⟨[{ id := "Room", type := "T", isPattern := "false" }], [], "http://p3"⟩,
     ⟨[{ id := "Room", type := "T", isPattern := "false" }], [], "http://p2"⟩]
  url := "http://second"
  format := .json

theorem roomNotification_mirrored :
    roomNotification.contextRegistrationResponseVector =
      discovered (Env.plain fun _ _ => false) (fun _ => none) "" 200 roomRequest [] DEFAULT_PAGINATION_OFFSET_INT
        DEFAULT_PAGINATION_LIMIT_INT false providerRegistry ∧
    ∃ before after,
      discovered (Env.plain fun _ _ => false) (fun _ => none) "" 300 roomRequest [] 0 0 false roomRegistry =
        before ++ after ∧
      discovered (Env.plain fun _ _ => false) (fun _ => none) "" 300 roomRequest [] 0 0 false
          (serve (Env.plain fun _ _ => false) (fun _ => none) "" 250 (.notifyAvailability "/" "51c0ac9ed714fb3b37d7d5d1"
            (roomNotification.contextRegistrationResponseVector.map asContextRegistration)) roomRegistry) =
        before ++ roomNotification.contextRegistrationResponseVector ++ after := by
  have h := @discovery_mirrored (Env.plain fun _ _ => false) (Env.plain fun _ _ => false) (fun _ => none) "" "" 200 250
    300 "51c0ac9ed714fb3b37d7d5c1" "51c0ac9ed714fb3b37d7d5d1" "/"
    { entityIdVector := [{ id := "Room", type := "T", isPattern := "false" }], reference := "http://second" } .json
    providerRegistry roomRegistry (by decide +kernel) roomNotification (by decide +kernel) (by decide +kernel)
    (by decide +kernel) roomRequest roomRequest_conventional rfl rfl [] (by decide +kernel) (by decide +kernel) false
  obtain ⟨hcrrV, before, after, hb, hnamed, _⟩ := h
  refine ⟨hcrrV, before, after, hb, hnamed ⟨_, List.mem_singleton.2 rfl, ?_⟩⟩
  exact ⟨{ id := "Room", type := some "T" }, by decide +kernel, rfl, .inr rfl⟩

end OrionBroker.Register
