import OrionBroker.Register.Forwarding

/-!
# The second broker as a mirror of the first

A run of registrations in which no call fails, nothing is lost and no association is registered. `ForwardStep` lists
what a request can do to the two brokers, `Mirrored` is what the steps keep.

* `forwarded_mirror`: every registration has its counterpart with the same content, and besides these the second
  broker has one registration for each update of an unknown registration.
* `forwarded_discovery`: every element that is discovered here is discovered there.
-/

namespace OrionBroker.Register

open Mongo

/-! ## When nothing fails -/

theorem registered_iff {r : Registry} {id sPath : String} :
    (r.registrations.docs.any fun d => d.oid == id && d.servicePath == some sPath) = true ↔
      ∃ d, r.registrations.lookup id = some d ∧ d.servicePath = some sPath := by
  simp only [List.any_eq_true, Bool.and_eq_true, beq_iff_eq, Collection.lookup_eq_some, and_assoc]

section
variable (env : Env) (regcomp : Regcomp) (tenant : String) (now : Int)

/-- A new registration, or the update of one that is there, is stored. -/
theorem mongoRegisterContext_stores {servicePath newOid : String} {requestP : RegisterContextRequest} {r : Registry}
    (hr : r.Sure) (hmd : ∀ cr ∈ requestP.contextRegistrationVector, cr.registrationMetadataVector = [])
    (h : requestP.registrationId ≠ "" → ∃ id d, oidOf requestP.registrationId = some id ∧
      r.registrations.lookup id = some d ∧ d.servicePath = some (if servicePath = "" then "/" else servicePath)) :
    (∃ rcr, (mongoRegisterContext env regcomp tenant servicePath now newOid requestP r).1 = some rcr ∧
      rcr.registrationId = registeredId newOid requestP ∧ accepted (some rcr) = true) ∧
    (mongoRegisterContext env regcomp tenant servicePath now newOid requestP r).2.Sure := by
  unfold mongoRegisterContext registeredId
  dsimp only
  generalize (if servicePath = "" then "/" else servicePath) = sPath at h ⊢
  by_cases hnew : requestP.registrationId = ""
  · rw [if_pos hnew, if_pos hnew]
    obtain ⟨hrcr, hsure, _⟩ := @processRegisterContext_plain env regcomp tenant now sPath newOid requestP r hr hmd
    exact ⟨hrcr, hsure⟩
  · obtain ⟨id, d, hid, hd, hs⟩ := h hnew
    obtain ⟨hrcr, hsure, _⟩ := @processRegisterContext_plain env regcomp tenant now sPath id requestP r hr hmd
    rw [if_neg hnew, if_neg hnew, hid, hr.call]
    dsimp only
    rw [if_pos (registered_iff.2 ⟨d, hd, hs⟩)]
    exact ⟨hrcr, hsure⟩

/-- The update of a registration that is not there is refused. -/
theorem mongoRegisterContext_refuses {servicePath newOid : String} {requestP : RegisterContextRequest} {r : Registry}
    (hr : r.Sure) (hold : requestP.registrationId ≠ "")
    (h : ∀ id d, oidOf requestP.registrationId = some id → r.registrations.lookup id = some d →
      d.servicePath ≠ some (if servicePath = "" then "/" else servicePath)) :
    ∃ rcr, mongoRegisterContext env regcomp tenant servicePath now newOid requestP r = (some rcr, r) ∧
      rcr.registrationId = requestP.registrationId ∧ accepted (some rcr) = false := by
  unfold mongoRegisterContext
  dsimp only
  generalize (if servicePath = "" then "/" else servicePath) = sPath at h ⊢
  rw [if_neg hold]
  cases hid : oidOf requestP.registrationId with
  | none => exact ⟨_, rfl, rfl, rfl⟩
  | some id =>
    rw [hr.call]
    dsimp only
    rw [if_neg]
    · exact ⟨_, rfl, rfl, rfl⟩
    · rw [registered_iff]
      rintro ⟨d, hd, hs⟩
      exact h id d hid hd hs

end

section
variable {c : ConfMan} (hc : c.registry.Sure) {regId id f : String} (hid : oidOf regId = some id)
include hc hid

theorem mongoGetFwdRegId_there {d : RegDoc} (hd : c.registry.registrations.lookup id = some d) :
    mongoGetFwdRegId regId c = ((c.fwdRegId id).getD "", c) := by
  simp [mongoGetFwdRegId, hid, hc.call, hd]

theorem mongoGetFwdRegId_absent (hd : c.registry.registrations.lookup id = none) : mongoGetFwdRegId regId c = ("", c) := by
  simp [mongoGetFwdRegId, hid, hc.call, hd]

theorem mongoSetFwdRegId_there {d : RegDoc} (hd : c.registry.registrations.lookup id = some d) :
    mongoSetFwdRegId regId f c = { c with fwdRegId := Function.update c.fwdRegId id (some f) } := by
  simp [mongoSetFwdRegId, hid, hc.call, Outcome.writeError, hd]

theorem mongoSetFwdRegId_absent (hd : c.registry.registrations.lookup id = none) : mongoSetFwdRegId regId f c = c := by
  simp [mongoSetFwdRegId, hid, hc.call, Outcome.writeError, hd]

end

/-- The service path as it is stored. -/
def Forwarding.sPath (x : Forwarding) : String := if x.servicePath = "" then "/" else x.servicePath

/-- The document is the same whether the duration stands in the request or not, and whatever identifier does. -/
theorem registeredDoc_forwarded (now : Int) (sPath oid regId : String) (requestP : RegisterContextRequest) :
    registeredDoc now sPath oid { durationSet requestP with registrationId := regId } =
      registeredDoc now sPath oid requestP ∧
    registeredDoc now sPath oid { requestP with registrationId := regId } = registeredDoc now sPath oid requestP := by
  refine ⟨?_, rfl⟩
  unfold registeredDoc durationSet
  dsimp only
  congr 3
  by_cases h : requestP.duration = ""
  · rw [if_pos h, if_neg (by decide)]
  · rw [if_neg h, if_neg h]

/-- The request is for a registration that is not there. -/
def Forwarding.unknown (x : Forwarding) (c : ConfMan) : Bool :=
  x.requestP.registrationId != "" && ((oidOf x.requestP.registrationId).bind c.registry.registrations.lookup).isNone

/-- What one request does to the two brokers. -/
inductive ForwardStep (x : Forwarding) (c c' : ConfMan) (fwd fwd' : Registry) : Prop where
  | created (hknown : x.unknown c = false)
      (hreg : c'.registry.registrations.lookup = Function.update c.registry.registrations.lookup x.newOid
        (some (registeredDoc x.now x.sPath x.newOid x.requestP)))
      (hid : c'.fwdRegId = Function.update c.fwdRegId x.newOid (some x.fwdOid))
      (hfwd : fwd'.registrations.lookup = Function.update fwd.registrations.lookup x.fwdOid
        (some (registeredDoc x.fwdNow x.sPath x.fwdOid x.requestP)))
  | updated (hknown : x.unknown c = false) (id f : String) (d : RegDoc)
      (hd : c.registry.registrations.lookup id = some d) (hf : c.fwdRegId id = some f)
      (hreg : c'.registry.registrations.lookup = Function.update c.registry.registrations.lookup id
        (some (registeredDoc x.now x.sPath id x.requestP)))
      (hid : c'.fwdRegId = c.fwdRegId)
      (hfwd : fwd'.registrations.lookup = Function.update fwd.registrations.lookup f
        (some (registeredDoc x.fwdNow x.sPath f x.requestP)))
  | refused (hknown : x.unknown c = false) (hc : c' = c) (hfwd : fwd' = fwd)
  | orphaned (hunknown : x.unknown c = true) (hc : c' = c)
      (hfwd : fwd'.registrations.lookup = Function.update fwd.registrations.lookup x.fwdOid
        (some (registeredDoc x.fwdNow x.sPath x.fwdOid x.requestP)))

/-- The request and its answer arrive, the identifiers are spelled by the driver, and no association is registered. -/
structure Forwarding.Plain (x : Forwarding) : Prop where
  delivered : x.delivered = true
  answered : x.answered = true
  newOid : oidOf x.newOid = some x.newOid
  fwdOid : oidOf x.fwdOid = some x.fwdOid
  associations : ∀ cr ∈ x.requestP.contextRegistrationVector, cr.registrationMetadataVector = []

section
variable (envF : Env) (regcomp : Regcomp) (tenant : String)

/-- The second broker makes a new registration. -/
theorem fordwardRegisterContext_creates {x : Forwarding} (hx : x.Plain) {payload : RegisterContextRequest}
    {fwd : Registry} (hf : fwd.Sure) (hnew : payload.registrationId = "")
    (hcr : payload.contextRegistrationVector = x.requestP.contextRegistrationVector) :
    (fordwardRegisterContext envF regcomp tenant x payload fwd).1 = some x.fwdOid ∧
    (fordwardRegisterContext envF regcomp tenant x payload fwd).2.Sure ∧
    (fordwardRegisterContext envF regcomp tenant x payload fwd).2.registrations.lookup =
      Function.update fwd.registrations.lookup x.fwdOid (some (registeredDoc x.fwdNow x.sPath x.fwdOid payload)) := by
  obtain ⟨⟨rcr, hrcr, hid, hacc⟩, hsure⟩ := @mongoRegisterContext_stores envF regcomp tenant x.fwdNow x.servicePath
    x.fwdOid payload fwd hf (by rw [hcr]; exact hx.associations) (fun h => absurd hnew h)
  have hlookup := mongoRegisterContext_lookup envF regcomp tenant x.fwdNow x.servicePath x.fwdOid payload fwd
  rw [hrcr, if_pos hacc] at hlookup
  unfold fordwardRegisterContext
  rw [if_pos hx.delivered]
  generalize mongoRegisterContext envF regcomp tenant x.servicePath x.fwdNow x.fwdOid payload fwd = res at hrcr hsure hlookup
  obtain ⟨answer, fwd'⟩ := res
  dsimp only at hrcr hsure hlookup
  rw [hrcr]
  dsimp only
  rw [registeredId, if_pos hnew] at hid hlookup
  have hne : x.fwdOid ≠ "" := by
    intro h0
    have h := hx.fwdOid
    rw [h0, show oidOf "" = none by decide] at h
    cases h
  have hrender : renderedRegistrationId rcr = x.fwdOid := by
    rw [renderedRegistrationId, hid, if_neg hne]
  rw [if_pos hx.answered, hrender]
  exact ⟨rfl, hsure, hlookup⟩

end

instance (x : Forwarding) : Decidable x.Plain :=
  decidable_of_iff (x.delivered = true ∧ x.answered = true ∧ oidOf x.newOid = some x.newOid ∧
      oidOf x.fwdOid = some x.fwdOid ∧ ∀ cr ∈ x.requestP.contextRegistrationVector, cr.registrationMetadataVector = [])
    ⟨fun ⟨h1, h2, h3, h4, h5⟩ => ⟨h1, h2, h3, h4, h5⟩, fun ⟨h1, h2, h3, h4, h5⟩ => ⟨h1, h2, h3, h4, h5⟩⟩

/-- The same content, for at least as long. -/
structure Counterpart (d d' : RegDoc) : Prop where
  contextRegistration : d'.contextRegistration = d.contextRegistration
  servicePath : d'.servicePath = d.servicePath
  expiration : d.expiration ≤ d'.expiration

/-- The two brokers after some requests: `initial` are the registrations the second one started with. -/
structure Mirrored (initial : String → Option RegDoc) (used usedFwd orphans : List String) (c : ConfMan) (fwd : Registry) :
    Prop where
  sure : c.registry.Sure
  fwdSure : fwd.Sure
  counterpart : ∀ id d, c.registry.registrations.lookup id = some d → ∃ f d', c.fwdRegId id = some f ∧
    oidOf f = some f ∧ fwd.registrations.lookup f = some d' ∧ Counterpart d d'
  once : ∀ id id' f, (c.registry.registrations.lookup id).isSome = true →
    (c.registry.registrations.lookup id').isSome = true → c.fwdRegId id = some f → c.fwdRegId id' = some f → id = id'
  made : ∀ id, (c.registry.registrations.lookup id).isSome = true → id ∈ used
  madeFwd : ∀ f, (fwd.registrations.lookup f).isSome = true → (initial f).isSome = true ∨ f ∈ usedFwd
  there : ∀ f, (fwd.registrations.lookup f).isSome = true ↔ (initial f).isSome = true ∨
    (∃ id, (c.registry.registrations.lookup id).isSome = true ∧ c.fwdRegId id = some f) ∨ f ∈ orphans
  kept : ∀ f d, initial f = some d → fwd.registrations.lookup f = some d
  apart : ∀ id f, (c.registry.registrations.lookup id).isSome = true → c.fwdRegId id = some f → initial f = none

section
variable (env envF : Env) (regcomp : Regcomp) (tenant : String)

/-- The local broker stores a registration; its `fwdRegId` is gone. -/
theorem register_stores {x : Forwarding} (hx : x.Plain) {c : ConfMan} (hc : c.registry.Sure)
    (h : x.requestP.registrationId ≠ "" → ∃ id d, oidOf x.requestP.registrationId = some id ∧
      c.registry.registrations.lookup id = some d ∧ d.servicePath = some x.sPath) :
    ∃ rcr c1, c.register env regcomp tenant x = (some rcr, c1) ∧
      rcr.registrationId = registeredId x.newOid x.requestP ∧ c1.registry.Sure ∧
      c1.fwdRegId = Function.update c.fwdRegId (registeredId x.newOid x.requestP) none ∧
      c1.registry.registrations.lookup =
        Function.update c.registry.registrations.lookup (registeredId x.newOid x.requestP)
          (some (registeredDoc x.now x.sPath (registeredId x.newOid x.requestP) x.requestP)) := by
  obtain ⟨⟨rcr, hrcr, hid, hacc⟩, hsure⟩ := @mongoRegisterContext_stores env regcomp tenant x.now x.servicePath
    x.newOid x.requestP c.registry hc hx.associations h
  have hlookup := mongoRegisterContext_lookup env regcomp tenant x.now x.servicePath x.newOid x.requestP c.registry
  rw [hrcr, if_pos hacc] at hlookup
  unfold ConfMan.register
  generalize mongoRegisterContext env regcomp tenant x.servicePath x.now x.newOid x.requestP c.registry = res at *
  obtain ⟨answer, r⟩ := res
  dsimp only at hrcr hsure hlookup
  rw [hrcr]
  refine ⟨rcr, _, rfl, hid, hsure, ?_, hlookup⟩
  dsimp only
  rw [if_pos hacc]

/-- The local broker refuses an update. -/
theorem register_refuses {x : Forwarding} {c : ConfMan} (hc : c.registry.Sure) (hold : x.requestP.registrationId ≠ "")
    (h : ∀ id d, oidOf x.requestP.registrationId = some id → c.registry.registrations.lookup id = some d →
      d.servicePath ≠ some x.sPath) :
    ∃ rcr, c.register env regcomp tenant x = (some rcr, c) ∧ rcr.registrationId = x.requestP.registrationId := by
  obtain ⟨rcr, hres, hid, hacc⟩ := @mongoRegisterContext_refuses env regcomp tenant x.now x.servicePath x.newOid
    x.requestP c.registry hc hold h
  refine ⟨rcr, ?_, hid⟩
  unfold ConfMan.register
  rw [hres]
  dsimp only
  rw [hacc]
  rfl

/-- A new registration. -/
theorem registerContextForward_created {x : Forwarding} (hx : x.Plain) {c : ConfMan} {fwd : Registry}
    (hc : c.registry.Sure) (hf : fwd.Sure) (hnew : x.requestP.registrationId = "") :
    (registerContextForward env envF regcomp tenant x c fwd).2.1.registry.Sure ∧
    (registerContextForward env envF regcomp tenant x c fwd).2.2.Sure ∧
    ForwardStep x c (registerContextForward env envF regcomp tenant x c fwd).2.1 fwd
      (registerContextForward env envF regcomp tenant x c fwd).2.2 := by
  obtain ⟨rcr, c1, hres, hid, hsure, hfid, hlookup⟩ := register_stores env regcomp tenant hx hc fun h => absurd hnew h
  rw [registeredId, if_pos hnew] at hid hfid hlookup
  obtain ⟨hback, hsureF, hlookupF⟩ := @fordwardRegisterContext_creates envF regcomp tenant x hx
    (durationSet x.requestP) fwd hf hnew rfl
  have hdoc := (registeredDoc_forwarded x.fwdNow x.sPath x.fwdOid x.requestP.registrationId x.requestP).1
  rw [show ({ durationSet x.requestP with registrationId := x.requestP.registrationId } : RegisterContextRequest) =
    durationSet x.requestP from rfl] at hdoc
  rw [hdoc] at hlookupF
  have hset : mongoSetFwdRegId rcr.registrationId x.fwdOid c1 =
      { c1 with fwdRegId := Function.update c1.fwdRegId x.newOid (some x.fwdOid) } := by
    rw [hid]
    exact mongoSetFwdRegId_there hsure hx.newOid (by rw [hlookup]; exact Function.update_self _ _ _)
  unfold registerContextForward
  rw [if_pos hnew, hres]
  dsimp only
  generalize fordwardRegisterContext envF regcomp tenant x (durationSet x.requestP) fwd = res at hback hsureF hlookupF
  obtain ⟨back, fwd1⟩ := res
  dsimp only at hback hsureF hlookupF
  rw [hback]
  dsimp only
  rw [hset]
  refine ⟨hsure, hsureF, .created ?_ hlookup ?_ hlookupF⟩
  · unfold Forwarding.unknown
    simp [hnew]
  · dsimp only
    rw [hfid, Function.update_idem]

/-- The update of a registration that is there under another service path; the second broker refuses it too. -/
theorem registerContextForward_refused {x : Forwarding} (hx : x.Plain) {c : ConfMan} {fwd : Registry}
    (hc : c.registry.Sure) (hf : fwd.Sure) (hold : x.requestP.registrationId ≠ "") {id f : String} {d d' : RegDoc}
    (hid : oidOf x.requestP.registrationId = some id) (hd : c.registry.registrations.lookup id = some d)
    (hpath : d.servicePath ≠ some x.sPath) (hfid : c.fwdRegId id = some f) (hof : oidOf f = some f)
    (hd' : fwd.registrations.lookup f = some d') (hcp : Counterpart d d') :
    (registerContextForward env envF regcomp tenant x c fwd).2 = (c, fwd) := by
  obtain ⟨rcr, hres, hrid⟩ := @register_refuses env regcomp tenant x c hc hold (by
    intro id' e hid' he
    rw [hid, Option.some.injEq] at hid'
    rw [← hid', hd, Option.some.injEq] at he
    rw [← he]
    exact hpath)
  have hfne : f ≠ "" := by
    intro h0
    rw [h0, show oidOf "" = none by decide] at hof
    cases hof
  have hset : mongoSetFwdRegId rcr.registrationId f c = c := by
    rw [hrid, mongoSetFwdRegId_there hc hid hd]
    rw [show Function.update c.fwdRegId id (some f) = c.fwdRegId by rw [← hfid, Function.update_eq_self]]
  unfold registerContextForward
  rw [if_neg hold, mongoGetFwdRegId_there hc hid hd, hfid]
  dsimp only
  rw [hres]
  dsimp only
  rw [Option.getD_some, hset]
  refine Prod.ext rfl ?_
  dsimp only
  generalize (if reached x.servicePath x.requestP c.registry then durationSet x.requestP else x.requestP) = payload
  obtain ⟨rcrF, hresF, _⟩ := @mongoRegisterContext_refuses envF regcomp tenant x.fwdNow x.servicePath x.fwdOid
    { payload with registrationId := f } fwd hf hfne (by
      intro id' e hid' he
      rw [hof, Option.some.injEq] at hid'
      rw [← hid', hd', Option.some.injEq] at he
      rw [← he, hcp.servicePath]
      exact hpath)
  unfold fordwardRegisterContext
  rw [if_pos hx.delivered, hresF]

/-- The update of a registration that is there. -/
theorem registerContextForward_updated {x : Forwarding} (hx : x.Plain) {c : ConfMan} {fwd : Registry}
    (hc : c.registry.Sure) (hf : fwd.Sure) (hold : x.requestP.registrationId ≠ "") {id f : String} {d d' : RegDoc}
    (hid : oidOf x.requestP.registrationId = some id) (hd : c.registry.registrations.lookup id = some d)
    (hpath : d.servicePath = some x.sPath) (hfid : c.fwdRegId id = some f) (hof : oidOf f = some f)
    (hd' : fwd.registrations.lookup f = some d') (hcp : Counterpart d d') :
    (registerContextForward env envF regcomp tenant x c fwd).2.1.registry.Sure ∧
    (registerContextForward env envF regcomp tenant x c fwd).2.2.Sure ∧
    ForwardStep x c (registerContextForward env envF regcomp tenant x c fwd).2.1 fwd
      (registerContextForward env envF regcomp tenant x c fwd).2.2 := by
  obtain ⟨rcr, c1, hres, hrid, hsure, hfid1, hlookup⟩ := register_stores env regcomp tenant hx hc fun _ =>
    ⟨id, d, hid, hd, hpath⟩
  have hrid' : registeredId x.newOid x.requestP = id := by
    rw [registeredId, if_neg hold, hid]
    rfl
  rw [hrid'] at hrid hfid1 hlookup
  have hfne : f ≠ "" := by
    intro h0
    rw [h0, show oidOf "" = none by decide] at hof
    cases hof
  have hset : mongoSetFwdRegId rcr.registrationId f c1 =
      { c1 with fwdRegId := Function.update c1.fwdRegId id (some f) } := by
    rw [hrid]
    exact mongoSetFwdRegId_there hsure (oidOf_oidOf hid) (by rw [hlookup]; exact Function.update_self _ _ _)
  have hreached : reached x.servicePath x.requestP c.registry = true := by
    unfold reached
    rw [if_neg hold, hid, hc.call]
    dsimp only
    rw [Bool.and_eq_true]
    exact ⟨rfl, registered_iff.2 ⟨d, hd, hpath⟩⟩
  have hunknown : x.unknown c = false := by
    unfold Forwarding.unknown
    rw [hid, Option.bind_some, hd]
    simp
  obtain ⟨⟨rcrF, hrcrF, _, haccF⟩, hsureF⟩ := @mongoRegisterContext_stores envF regcomp tenant x.fwdNow x.servicePath
    x.fwdOid { durationSet x.requestP with registrationId := f } fwd hf hx.associations
    fun _ => ⟨f, d', hof, hd', hcp.servicePath.trans hpath⟩
  have hlookupF := mongoRegisterContext_lookup envF regcomp tenant x.fwdNow x.servicePath x.fwdOid
    { durationSet x.requestP with registrationId := f } fwd
  have hridF : registeredId x.fwdOid { durationSet x.requestP with registrationId := f } = f := by
    rw [registeredId, if_neg hfne, hof]
    rfl
  rw [hrcrF, if_pos haccF, hridF, (registeredDoc_forwarded _ _ _ _ _).1] at hlookupF
  have hfwd : (fordwardRegisterContext envF regcomp tenant x { durationSet x.requestP with registrationId := f } fwd).2 =
      (mongoRegisterContext envF regcomp tenant x.servicePath x.fwdNow x.fwdOid
        { durationSet x.requestP with registrationId := f } fwd).2 := by
    unfold fordwardRegisterContext
    rw [if_pos hx.delivered]
    split <;> rename_i e <;> rw [e]
  unfold registerContextForward
  rw [if_neg hold, mongoGetFwdRegId_there hc hid hd, hfid]
  dsimp only
  rw [hreached, if_pos rfl, hres]
  dsimp only
  rw [Option.getD_some, hset, hfwd]
  refine ⟨hsure, hsureF, .updated hunknown id f d hd hfid hlookup ?_ hlookupF⟩
  dsimp only
  rw [hfid1, Function.update_idem, ← hfid, Function.update_eq_self]

/-- The update of a registration that is not there: the second broker makes a new one. -/
theorem registerContextForward_orphaned {x : Forwarding} (hx : x.Plain) {c : ConfMan} {fwd : Registry}
    (hc : c.registry.Sure) (hf : fwd.Sure) (hunknown : x.unknown c = true) :
    (registerContextForward env envF regcomp tenant x c fwd).2.1 = c ∧
    (registerContextForward env envF regcomp tenant x c fwd).2.2.Sure ∧
    (registerContextForward env envF regcomp tenant x c fwd).2.2.registrations.lookup =
      Function.update fwd.registrations.lookup x.fwdOid
        (some (registeredDoc x.fwdNow x.sPath x.fwdOid x.requestP)) := by
  unfold Forwarding.unknown at hunknown
  rw [Bool.and_eq_true, bne_iff_ne, Option.isNone_iff_eq_none] at hunknown
  obtain ⟨hold, hnone⟩ := hunknown
  have hno : ∀ id, oidOf x.requestP.registrationId = some id → c.registry.registrations.lookup id = none := by
    intro id hid
    rw [hid] at hnone
    exact hnone
  obtain ⟨rcr, hres, hrid⟩ := @register_refuses env regcomp tenant x c hc hold (by
    intro id d hid hd
    rw [hno id hid] at hd
    cases hd)
  have hget : mongoGetFwdRegId x.requestP.registrationId c = ("", c) := by
    cases hid : oidOf x.requestP.registrationId with
    | none =>
      unfold mongoGetFwdRegId
      rw [hid]
    | some id => exact mongoGetFwdRegId_absent hc hid (hno id hid)
  have hset : mongoSetFwdRegId rcr.registrationId "" c = c := by
    rw [hrid]
    cases hid : oidOf x.requestP.registrationId with
    | none =>
      unfold mongoSetFwdRegId
      rw [hid]
    | some id => exact mongoSetFwdRegId_absent hc hid (hno id hid)
  have hreached : reached x.servicePath x.requestP c.registry = false := by
    unfold reached
    rw [if_neg hold]
    cases hid : oidOf x.requestP.registrationId with
    | none => rfl
    | some id =>
      dsimp only
      rw [Bool.and_eq_false_iff]
      refine .inr (Bool.not_eq_true _ ▸ fun h => ?_)
      obtain ⟨d, hd, _⟩ := registered_iff.1 h
      rw [hno id hid] at hd
      cases hd
  obtain ⟨_, hsureF, hlookupF⟩ := @fordwardRegisterContext_creates envF regcomp tenant x hx
    { x.requestP with registrationId := "" } fwd hf rfl rfl
  rw [(registeredDoc_forwarded _ _ _ _ _).2] at hlookupF
  unfold registerContextForward
  rw [if_neg hold, hget]
  dsimp only
  rw [hreached, if_neg Bool.false_ne_true, hres]
  dsimp only
  rw [hset]
  exact ⟨rfl, hsureF, hlookupF⟩

/-- **What one request does** to two brokers of which every registration of the first has its counterpart. -/
theorem registerContextForward_step {x : Forwarding} (hx : x.Plain) {c : ConfMan} {fwd : Registry}
    (hc : c.registry.Sure) (hf : fwd.Sure)
    (hcp : ∀ id d, c.registry.registrations.lookup id = some d → ∃ f d', c.fwdRegId id = some f ∧
      oidOf f = some f ∧ fwd.registrations.lookup f = some d' ∧ Counterpart d d') :
    (registerContextForward env envF regcomp tenant x c fwd).2.1.registry.Sure ∧
    (registerContextForward env envF regcomp tenant x c fwd).2.2.Sure ∧
    ForwardStep x c (registerContextForward env envF regcomp tenant x c fwd).2.1 fwd
      (registerContextForward env envF regcomp tenant x c fwd).2.2 := by
  by_cases hnew : x.requestP.registrationId = ""
  · exact registerContextForward_created env envF regcomp tenant hx hc hf hnew
  · cases hu : x.unknown c with
    | true =>
      obtain ⟨hc', hf', hlookup⟩ := registerContextForward_orphaned env envF regcomp tenant hx hc hf hu
      rw [hc']
      exact ⟨hc, hf', .orphaned hu rfl hlookup⟩
    | false =>
      obtain ⟨id, d, hid, hd⟩ : ∃ id d, oidOf x.requestP.registrationId = some id ∧
          c.registry.registrations.lookup id = some d := by
        unfold Forwarding.unknown at hu
        rw [Bool.and_eq_false_iff, bne_eq_false_iff_eq, Option.isNone_eq_false_iff, Option.isSome_iff_exists] at hu
        obtain ⟨d, hd⟩ := hu.resolve_left hnew
        obtain ⟨id, hid, hd⟩ := Option.bind_eq_some_iff.1 hd
        exact ⟨id, d, hid, hd⟩
      obtain ⟨f, d', hfid, hof, hd', hcd⟩ := hcp id d hd
      by_cases hpath : d.servicePath = some x.sPath
      · exact registerContextForward_updated env envF regcomp tenant hx hc hf hnew hid hd hpath hfid hof hd' hcd
      · rw [registerContextForward_refused env envF regcomp tenant hx hc hf hnew hid hd hpath hfid hof hd' hcd]
        exact ⟨hc, hf, .refused hu rfl rfl⟩

end

/-! ## The mirror -/

theorem counterpart_registeredDoc (x : Forwarding) (id f : String) (h : x.now ≤ x.fwdNow) :
    Counterpart (registeredDoc x.now x.sPath id x.requestP) (registeredDoc x.fwdNow x.sPath f x.requestP) :=
  ⟨rfl, rfl, Int.add_le_add_right h _⟩

theorem isSome_update_iff {κ α : Type} [DecidableEq κ] {m m' : κ → Option α} {k : κ} {a : α}
    (h : m' = Function.update m k (some a)) (k' : κ) : (m' k').isSome = true ↔ k' = k ∨ (m k').isSome = true := by
  rw [h, Function.update_apply]
  split <;> simp [*]

section
variable {initial : String → Option RegDoc} {used usedFwd orphans : List String} {x : Forwarding} {c c' : ConfMan}
  {fwd fwd' : Registry}

/-- Nobody has an identifier that is not there. -/
theorem Mirrored.nobody (h : Mirrored initial used usedFwd orphans c fwd)
    (hR : (fwd.registrations.lookup x.fwdOid).isSome = false) {id : String}
    (hd : (c.registry.registrations.lookup id).isSome = true) : c.fwdRegId id ≠ some x.fwdOid := by
  intro hfid
  rw [(h.there x.fwdOid).2 (.inr (.inl ⟨id, hd, hfid⟩))] at hR
  cases hR

/-- What the second broker started with is under other identifiers than the new one. -/
theorem Mirrored.initial_fresh (h : Mirrored initial used usedFwd orphans c fwd)
    (hR : (fwd.registrations.lookup x.fwdOid).isSome = false) : initial x.fwdOid = none := by
  cases hi : initial x.fwdOid with
  | none => rfl
  | some d =>
    rw [h.kept _ _ hi] at hR
    cases hR

/-- A new registration at the second broker leaves those it started with. -/
theorem Mirrored.kept_new (h : Mirrored initial used usedFwd orphans c fwd)
    (hR : (fwd.registrations.lookup x.fwdOid).isSome = false) {d0 : RegDoc}
    (hfwd : fwd'.registrations.lookup = Function.update fwd.registrations.lookup x.fwdOid (some d0)) (f : String)
    (d : RegDoc) (hi : initial f = some d) : fwd'.registrations.lookup f = some d := by
  have hne : f ≠ x.fwdOid := by
    rintro rfl
    rw [h.initial_fresh hR] at hi
    cases hi
  rw [hfwd, Function.update_of_ne hne, h.kept f d hi]

/-- What was made stays so when two identifiers are used up. -/
theorem Mirrored.use (h : Mirrored initial used usedFwd orphans c fwd) (n f : String) :
    Mirrored initial (n :: used) (f :: usedFwd) orphans c fwd :=
  { h with
    made := fun id hd => List.mem_cons_of_mem _ (h.made id hd)
    madeFwd := fun f' hd => (h.madeFwd f' hd).imp_right (List.mem_cons_of_mem _) }

theorem Mirrored.created (h : Mirrored initial used usedFwd orphans c fwd) (hc : c'.registry.Sure) (hf : fwd'.Sure)
    (hof : oidOf x.fwdOid = some x.fwdOid) (hnow : x.now ≤ x.fwdNow)
    (hL : (c.registry.registrations.lookup x.newOid).isSome = false)
    (hR : (fwd.registrations.lookup x.fwdOid).isSome = false)
    (hreg : c'.registry.registrations.lookup = Function.update c.registry.registrations.lookup x.newOid
      (some (registeredDoc x.now x.sPath x.newOid x.requestP)))
    (hid : c'.fwdRegId = Function.update c.fwdRegId x.newOid (some x.fwdOid))
    (hfwd : fwd'.registrations.lookup = Function.update fwd.registrations.lookup x.fwdOid
      (some (registeredDoc x.fwdNow x.sPath x.fwdOid x.requestP))) :
    Mirrored initial (x.newOid :: used) (x.fwdOid :: usedFwd) orphans c' fwd' := by
  have hne : ∀ id, (c.registry.registrations.lookup id).isSome = true → id ≠ x.newOid := by
    rintro id hd rfl
    rw [hL] at hd
    cases hd
  have hsome := isSome_update_iff hreg
  have hsomeF := isSome_update_iff hfwd
  refine ⟨hc, hf, fun id d hd => ?_, fun id id' f hd hd' hfid hfid' => ?_, fun id hd => ?_, fun f hd => ?_, fun f => ?_,
    h.kept_new hR hfwd, fun id f hd hfid => ?_⟩
  · rw [hreg, Function.update_apply] at hd
    rw [hid, hfwd]
    split at hd
    · rename_i hk
      cases hd
      rw [hk]
      exact ⟨x.fwdOid, _, Function.update_self _ _ _, hof, Function.update_self _ _ _,
        counterpart_registeredDoc x _ _ hnow⟩
    · rename_i hk
      obtain ⟨f, d', hfid, hof', hd', hcd⟩ := h.counterpart id d hd
      have hfne : f ≠ x.fwdOid := by
        rintro rfl
        exact h.nobody hR (by rw [hd]; rfl) hfid
      exact ⟨f, d', by rw [Function.update_of_ne hk, hfid], hof', by rw [Function.update_of_ne hfne, hd'], hcd⟩
  · rw [hid, Function.update_apply] at hfid hfid'
    rw [hsome] at hd hd'
    split at hfid
    · rename_i hk
      cases hfid
      split at hfid'
      · rename_i hk'
        rw [hk, hk']
      · rename_i hk'
        exact absurd hfid' (h.nobody hR (hd'.resolve_left hk'))
    · rename_i hk
      split at hfid'
      · cases hfid'
        exact absurd hfid (h.nobody hR (hd.resolve_left hk))
      · rename_i hk'
        exact h.once id id' f (hd.resolve_left hk) (hd'.resolve_left hk') hfid hfid'
  · rcases (hsome id).1 hd with rfl | hd
    · exact List.mem_cons_self
    · exact List.mem_cons_of_mem _ (h.made id hd)
  · rcases (hsomeF f).1 hd with rfl | hd
    · exact .inr List.mem_cons_self
    · exact (h.madeFwd f hd).imp_right (List.mem_cons_of_mem _)
  · rw [hsomeF, h.there f, hid]
    constructor
    · rintro (rfl | hi | ⟨id, hd, hfid⟩ | ho)
      · exact .inr (.inl ⟨x.newOid, (hsome _).2 (.inl rfl), Function.update_self _ _ _⟩)
      · exact .inl hi
      · exact .inr (.inl ⟨id, (hsome _).2 (.inr hd), by rw [Function.update_of_ne (hne id hd), hfid]⟩)
      · exact .inr (.inr ho)
    · rintro (hi | ⟨id, hd, hfid⟩ | ho)
      · exact .inr (.inl hi)
      · rw [Function.update_apply] at hfid
        split at hfid
        · cases hfid
          exact .inl rfl
        · rename_i hk
          exact .inr (.inr (.inl ⟨id, ((hsome _).1 hd).resolve_left hk, hfid⟩))
      · exact .inr (.inr (.inr ho))
  · rw [hid, Function.update_apply] at hfid
    split at hfid
    · cases hfid
      exact h.initial_fresh hR
    · rename_i hk
      exact h.apart id f (((hsome id).1 hd).resolve_left hk) hfid

theorem Mirrored.updated (h : Mirrored initial used usedFwd orphans c fwd) (hc : c'.registry.Sure) (hf : fwd'.Sure)
    (hnow : x.now ≤ x.fwdNow) {id0 f0 : String} {d0 : RegDoc}
    (hd0 : c.registry.registrations.lookup id0 = some d0) (hf0 : c.fwdRegId id0 = some f0)
    (hreg : c'.registry.registrations.lookup = Function.update c.registry.registrations.lookup id0
      (some (registeredDoc x.now x.sPath id0 x.requestP)))
    (hid : c'.fwdRegId = c.fwdRegId)
    (hfwd : fwd'.registrations.lookup = Function.update fwd.registrations.lookup f0
      (some (registeredDoc x.fwdNow x.sPath f0 x.requestP))) :
    Mirrored initial used usedFwd orphans c' fwd' := by
  have hthere : (fwd.registrations.lookup f0).isSome = true :=
    (h.there f0).2 (.inr (.inl ⟨id0, by rw [hd0]; rfl, hf0⟩))
  have hsome : ∀ id, (c'.registry.registrations.lookup id).isSome = true ↔
      (c.registry.registrations.lookup id).isSome = true := by
    intro id
    rw [isSome_update_iff hreg, or_iff_right_of_imp]
    rintro rfl
    rw [hd0]
    rfl
  have hsomeF : ∀ f, (fwd'.registrations.lookup f).isSome = true ↔ (fwd.registrations.lookup f).isSome = true := by
    intro f
    rw [isSome_update_iff hfwd, or_iff_right_of_imp]
    rintro rfl
    exact hthere
  refine ⟨hc, hf, fun id d hd => ?_, fun id id' f hd hd' hfid hfid' => ?_, fun id hd => h.made id ((hsome id).1 hd),
    fun f hd => h.madeFwd f ((hsomeF f).1 hd), fun f => ?_, fun f d hi => ?_, fun id f hd hfid => ?_⟩
  · rw [hreg, Function.update_apply] at hd
    rw [hid, hfwd]
    split at hd
    · rename_i hk
      cases hd
      obtain ⟨f, d', hfid, hof', _⟩ := h.counterpart id0 d0 hd0
      rw [hf0, Option.some.injEq] at hfid
      rw [hk, hfid]
      exact ⟨f, _, by rw [hf0, hfid], hof', Function.update_self _ _ _, counterpart_registeredDoc x _ _ hnow⟩
    · rename_i hk
      obtain ⟨f, d', hfid, hof', hd', hcd⟩ := h.counterpart id d hd
      have hfne : f ≠ f0 := by
        rintro rfl
        exact hk (h.once id id0 f (by rw [hd]; rfl) (by rw [hd0]; rfl) hfid hf0)
      exact ⟨f, d', hfid, hof', by rw [Function.update_of_ne hfne, hd'], hcd⟩
  · rw [hid] at hfid hfid'
    exact h.once id id' f ((hsome id).1 hd) ((hsome id').1 hd') hfid hfid'
  · rw [hsomeF, h.there f, hid]
    simp only [hsome]
  · have hne : f ≠ f0 := by
      rintro rfl
      rw [h.apart id0 f (by rw [hd0]; rfl) hf0] at hi
      cases hi
    rw [hfwd, Function.update_of_ne hne, h.kept f d hi]
  · rw [hid] at hfid
    exact h.apart id f ((hsome id).1 hd) hfid

theorem Mirrored.orphaned (h : Mirrored initial used usedFwd orphans c fwd) (hf : fwd'.Sure)
    (hR : (fwd.registrations.lookup x.fwdOid).isSome = false)
    (hfwd : fwd'.registrations.lookup = Function.update fwd.registrations.lookup x.fwdOid
      (some (registeredDoc x.fwdNow x.sPath x.fwdOid x.requestP))) :
    Mirrored initial used (x.fwdOid :: usedFwd) (x.fwdOid :: orphans) c fwd' := by
  have hsomeF := isSome_update_iff hfwd
  refine ⟨h.sure, hf, fun id d hd => ?_, h.once, h.made, fun f hd => ?_, fun f => ?_, h.kept_new hR hfwd, h.apart⟩
  · obtain ⟨f, d', hfid, hof', hd', hcd⟩ := h.counterpart id d hd
    have hfne : f ≠ x.fwdOid := by
      rintro rfl
      exact h.nobody hR (by rw [hd]; rfl) hfid
    exact ⟨f, d', hfid, hof', by rw [hfwd, Function.update_of_ne hfne, hd'], hcd⟩
  · rcases (hsomeF f).1 hd with rfl | hd
    · exact .inr List.mem_cons_self
    · exact (h.madeFwd f hd).imp_right (List.mem_cons_of_mem _)
  · rw [hsomeF, h.there f, List.mem_cons]
    constructor
    · rintro (rfl | hi | hc | ho)
      · exact .inr (.inr (.inl rfl))
      · exact .inl hi
      · exact .inr (.inl hc)
      · exact .inr (.inr (.inr ho))
    · rintro (hi | hc | rfl | ho)
      · exact .inr (.inl hi)
      · exact .inr (.inr (.inl hc))
      · exact .inl rfl
      · exact .inr (.inr (.inr ho))

/-- Step: two fresh identifiers are used up, and the update of an unknown registration leaves an orphan. -/
theorem Mirrored.step (h : Mirrored initial used usedFwd orphans c fwd) (hs : ForwardStep x c c' fwd fwd')
    (hc : c'.registry.Sure) (hf : fwd'.Sure) (hof : oidOf x.fwdOid = some x.fwdOid) (hnow : x.now ≤ x.fwdNow)
    (hnew : x.newOid ∉ used) (hfresh : (initial x.fwdOid).isSome = false) (hnewF : x.fwdOid ∉ usedFwd) :
    Mirrored initial (x.newOid :: used) (x.fwdOid :: usedFwd) (if x.unknown c then x.fwdOid :: orphans else orphans)
      c' fwd' := by
  have hL : (c.registry.registrations.lookup x.newOid).isSome = false :=
    Bool.not_eq_true _ ▸ fun hd => hnew (h.made _ hd)
  have hR : (fwd.registrations.lookup x.fwdOid).isSome = false := by
    refine Bool.not_eq_true _ ▸ fun hd => ?_
    rcases h.madeFwd _ hd with hi | hu
    · exact Bool.false_ne_true (hfresh.symm.trans hi)
    · exact hnewF hu
  cases hs with
  | created hknown hreg hid hfwd =>
    rw [hknown, if_neg Bool.false_ne_true]
    exact h.created hc hf hof hnow hL hR hreg hid hfwd
  | updated hknown id0 f0 d0 hd0 hf0 hreg hid hfwd =>
    rw [hknown, if_neg Bool.false_ne_true]
    exact (h.updated hc hf hnow hd0 hf0 hreg hid hfwd).use x.newOid x.fwdOid
  | refused hknown hcc hff =>
    rw [hknown, if_neg Bool.false_ne_true, hcc, hff]
    exact h.use x.newOid x.fwdOid
  | orphaned hunknown hcc hfwd =>
    rw [hunknown, if_pos rfl, hcc]
    have ho := h.orphaned hf hR hfwd
    exact { ho with made := fun id hd => List.mem_cons_of_mem _ (ho.made id hd) }

end

section
variable (env envF : Env) (regcomp : Regcomp) (tenant : String)

/-- The identifiers of the registrations that updates of unknown registrations leave at the second broker. -/
def orphans : List Forwarding → ConfMan × Registry → List String
  | [], _ => []
  | x :: xs, s =>
    orphans xs (registerContextForward env envF regcomp tenant x s.1 s.2).2 ++ (if x.unknown s.1 then [x.fwdOid] else [])

/-- Run. -/
theorem forwardAll_mirrored {initial : String → Option RegDoc} : ∀ {xs : List Forwarding} {s : ConfMan × Registry}
    {used usedFwd left : List String}, Mirrored initial used usedFwd left s.1 s.2 →
    (∀ x ∈ xs, x.Plain ∧ x.now ≤ x.fwdNow ∧ (initial x.fwdOid).isSome = false) →
    (xs.map Forwarding.newOid).Nodup → (∀ x ∈ xs, x.newOid ∉ used) →
    (xs.map Forwarding.fwdOid).Nodup → (∀ x ∈ xs, x.fwdOid ∉ usedFwd) →
    ∃ used' usedFwd', Mirrored initial used' usedFwd' (orphans env envF regcomp tenant xs s ++ left)
      (forwardAll env envF regcomp tenant xs s).1 (forwardAll env envF regcomp tenant xs s).2
  | [], s, used, usedFwd, left, h, _, _, _, _, _ => ⟨used, usedFwd, h⟩
  | x :: xs, s, used, usedFwd, left, h, hx, hn, hnew, hnF, hnewF => by
    obtain ⟨hp, hnow, hfresh⟩ := hx x List.mem_cons_self
    rw [List.map_cons, List.nodup_cons] at hn hnF
    obtain ⟨hc, hf, hs⟩ := registerContextForward_step env envF regcomp tenant hp h.sure h.fwdSure h.counterpart
    have h1 := h.step hs hc hf hp.fwdOid hnow (hnew x List.mem_cons_self) hfresh (hnewF x List.mem_cons_self)
    obtain ⟨used', usedFwd', hrun⟩ := forwardAll_mirrored h1 (fun y hy => hx y (List.mem_cons_of_mem _ hy)) hn.2
      (fun y hy hmem => by
        rcases List.mem_cons.1 hmem with he | hmem
        · exact hn.1 (List.mem_map.2 ⟨y, hy, he⟩)
        · exact hnew y (List.mem_cons_of_mem _ hy) hmem) hnF.2
      (fun y hy hmem => by
        rcases List.mem_cons.1 hmem with he | hmem
        · exact hnF.1 (List.mem_map.2 ⟨y, hy, he⟩)
        · exact hnewF y (List.mem_cons_of_mem _ hy) hmem)
    refine ⟨used', usedFwd', ?_⟩
    rw [orphans, List.append_assoc]
    rwa [show (if x.unknown s.1 then x.fwdOid :: left else left) = (if x.unknown s.1 then [x.fwdOid] else []) ++ left by
      split <;> rfl] at hrun

theorem forwardAll_mirrored_empty {c : ConfMan} {fwd : Registry} (hc : c.registry.Sure) (hf : fwd.Sure)
    (hempty : c.registry.registrations = .empty) {xs : List Forwarding}
    (hx : ∀ x ∈ xs, x.Plain ∧ x.now ≤ x.fwdNow ∧ fwd.registrations.lookup x.fwdOid = none)
    (hn : (xs.map Forwarding.newOid).Nodup) (hnF : (xs.map Forwarding.fwdOid).Nodup) :
    ∃ used usedFwd, Mirrored fwd.registrations.lookup used usedFwd (orphans env envF regcomp tenant xs (c, fwd))
      (forwardAll env envF regcomp tenant xs (c, fwd)).1 (forwardAll env envF regcomp tenant xs (c, fwd)).2 := by
  have hnone : ∀ id, c.registry.registrations.lookup id = none := by
    intro id
    rw [hempty]
    rfl
  have h0 : Mirrored fwd.registrations.lookup [] [] [] c fwd := by
    refine ⟨hc, hf, fun id d hd => ?_, fun id id' f hd => ?_, fun id hd => ?_, fun f hd => .inl hd, fun f => ?_,
      fun _ _ hi => hi, fun id f hd => ?_⟩
    · rw [hnone] at hd
      cases hd
    · rw [hnone] at hd
      cases hd
    · rw [hnone] at hd
      cases hd
    · simp [hnone]
    · rw [hnone] at hd
      cases hd
  have h := @forwardAll_mirrored env envF regcomp tenant _ xs (c, fwd) [] [] [] h0
    (fun x hm => ⟨(hx x hm).1, (hx x hm).2.1, by rw [(hx x hm).2.2]; rfl⟩) hn (fun _ _ => List.not_mem_nil) hnF
    fun _ _ => List.not_mem_nil
  rwa [List.append_nil] at h

/-- **The mirror.** The first broker starts without registrations, and its clock is not ahead of the other. In every run
of requests that reach the second broker, without failing calls and associations, with fresh identifiers on both sides:
every registration of the first broker has its counterpart at the second one, under the identifier stored with it; and
what the second broker has besides are the registrations it started with, as they were, and one for each update of a
registration that the first broker does not have. -/
theorem forwarded_mirror {c : ConfMan} {fwd : Registry} (hc : c.registry.Sure) (hf : fwd.Sure)
    (hempty : c.registry.registrations = .empty) {xs : List Forwarding}
    (hx : ∀ x ∈ xs, x.Plain ∧ x.now ≤ x.fwdNow ∧ fwd.registrations.lookup x.fwdOid = none)
    (hn : (xs.map Forwarding.newOid).Nodup) (hnF : (xs.map Forwarding.fwdOid).Nodup) :
    (∀ id d, (forwardAll env envF regcomp tenant xs (c, fwd)).1.registry.registrations.lookup id = some d →
      ∃ f d', (forwardAll env envF regcomp tenant xs (c, fwd)).1.fwdRegId id = some f ∧
        (forwardAll env envF regcomp tenant xs (c, fwd)).2.registrations.lookup f = some d' ∧ Counterpart d d') ∧
    (∀ f, ((forwardAll env envF regcomp tenant xs (c, fwd)).2.registrations.lookup f).isSome = true ↔
      (fwd.registrations.lookup f).isSome = true ∨
      (∃ id, ((forwardAll env envF regcomp tenant xs (c, fwd)).1.registry.registrations.lookup id).isSome = true ∧
        (forwardAll env envF regcomp tenant xs (c, fwd)).1.fwdRegId id = some f) ∨
      f ∈ orphans env envF regcomp tenant xs (c, fwd)) ∧
    ∀ f d, fwd.registrations.lookup f = some d →
      (forwardAll env envF regcomp tenant xs (c, fwd)).2.registrations.lookup f = some d := by
  obtain ⟨used, usedFwd, h⟩ := forwardAll_mirrored_empty env envF regcomp tenant hc hf hempty hx hn hnF
  refine ⟨fun id d hd => ?_, h.there, h.kept⟩
  obtain ⟨f, d', hfid, _, hd', hcd⟩ := h.counterpart id d hd
  exact ⟨f, d', hfid, hd', hcd⟩

end

/-! ## Discovery at the second broker -/

theorem reg_at_servicePath (d : RegDoc) : d.toBson.at ["servicePath"] = (d.servicePath.map Bson.str).toList := by
  cases hp : d.servicePath <;> simp [RegDoc.toBson, Bson.at, Bson.step, Bson.sub, optField, List.lookup_cons, hp]

/-- Who asks for a registration gets its counterpart. -/
theorem Selected.counterpart {E : Engine} {enV : List EntityId} {attrL servicePathV : List String} {now : Int}
    {d d' : RegDoc} (h : Selected E enV attrL servicePathV now d) (hc : Counterpart d d') :
    Selected E enV attrL servicePathV now d' := by
  have hents : RegDoc.entities d' = RegDoc.entities d := by rw [RegDoc.entities, hc.contextRegistration, RegDoc.entities]
  have hattrs : RegDoc.attrs d' = RegDoc.attrs d := by rw [RegDoc.attrs, hc.contextRegistration, RegDoc.attrs]
  refine ⟨⟨lt_of_lt_of_le h.reach.expiration hc.expiration, ?_⟩, ?_, ?_⟩
  · have hp := h.reach.servicePath
    rw [reg_at_servicePath] at hp ⊢
    rwa [hc.servicePath]
  · rw [hents]
    exact h.entity
  · rw [hattrs]
    exact h.attr

theorem mem_discovered_iff {env : Env} {regcomp : Regcomp} {tenant : String} {now : Int}
    {requestP : DiscoverContextAvailabilityRequest} (h : requestP.Conventional) {servicePathV : List String}
    {details : Bool} {r : Registry} (hr : r.Sure) {crr : ContextRegistrationResponse} :
    crr ∈ discovered env regcomp tenant now requestP servicePathV 0 0 details r ↔
      ∃ d ∈ r.registrations.docs,
        Selected env.engine requestP.entityIdVector requestP.attributeList servicePathV now d ∧
        ∃ cr ∈ d.contextRegistration,
          processContextRegistrationElement regcomp requestP.entityIdVector requestP.attributeList cr = some crr := by
  rw [discovered_sure env regcomp tenant now h _ _ _ _ hr, page, if_pos rfl, List.drop_zero]
  simp only [registrationsAnswer, List.mem_flatMap, List.mem_filterMap, sortedFound, List.mem_insertionSort,
    mem_registrationsFound, and_assoc]

/-- **The second broker knows as much.** After such a run, at any time and for every request, what the first broker
discovers the second one discovers too, where their databases match patterns alike. -/
theorem forwarded_discovery {env envF : Env} (hE : envF.engine = env.engine) {regcomp : Regcomp} {tenant : String}
    {c : ConfMan} {fwd : Registry} (hc : c.registry.Sure) (hf : fwd.Sure)
    (hempty : c.registry.registrations = .empty) {xs : List Forwarding}
    (hx : ∀ x ∈ xs, x.Plain ∧ x.now ≤ x.fwdNow ∧ fwd.registrations.lookup x.fwdOid = none)
    (hn : (xs.map Forwarding.newOid).Nodup) (hnF : (xs.map Forwarding.fwdOid).Nodup)
    {requestP : DiscoverContextAvailabilityRequest} (h : requestP.Conventional) (servicePathV : List String) (now : Int)
    (details : Bool) :
    ∀ crr ∈ discovered env regcomp tenant now requestP servicePathV 0 0 details
        (forwardAll env envF regcomp tenant xs (c, fwd)).1.registry,
      crr ∈ discovered envF regcomp tenant now requestP servicePathV 0 0 details
        (forwardAll env envF regcomp tenant xs (c, fwd)).2 := by
  obtain ⟨used, usedFwd, hm⟩ := forwardAll_mirrored_empty env envF regcomp tenant hc hf hempty hx hn hnF
  intro crr hcrr
  obtain ⟨d, hd, hsel, cr, hcr, hpass⟩ := (mem_discovered_iff h hm.sure).1 hcrr
  obtain ⟨f, d', _, _, hd', hcd⟩ := hm.counterpart d.oid d (Collection.lookup_eq_some.2 ⟨hd, rfl⟩)
  refine (mem_discovered_iff h hm.fwdSure).2 ⟨d', (Collection.lookup_eq_some.1 hd').1, ?_, cr, ?_, hpass⟩
  · rw [hE]
    exact hsel.counterpart hcd
  · rw [hcd.contextRegistration]
    exact hcr

theorem roomForwardings_plain : ∀ x ∈ roomForwardings,
    x.Plain ∧ x.now ≤ x.fwdNow ∧ (Registry.registrations {}).lookup x.fwdOid = none := by decide +kernel

/-- The update of nothing is at the second broker only. -/
theorem roomForwarded_mirror :
    roomForwarded.1.registry.registrations.docs.length = 1 ∧ roomForwarded.2.registrations.docs.length = 2 ∧
    ∀ f, (roomForwarded.2.registrations.lookup f).isSome = true ↔
      ((Registry.registrations {}).lookup f).isSome = true ∨
      (∃ id, (roomForwarded.1.registry.registrations.lookup id).isSome = true ∧ roomForwarded.1.fwdRegId id = some f) ∨
      f ∈ orphans (Env.plain fun _ _ => false) (Env.plain fun _ _ => false) (fun _ => none) "" roomForwardings ({}, {}) := by
  refine ⟨by decide +kernel, by decide +kernel, ?_⟩
  unfold roomForwarded
  exact (@forwarded_mirror (Env.plain fun _ _ => false) (Env.plain fun _ _ => false) (fun _ => none) "" {} {} rfl rfl
    rfl roomForwardings roomForwardings_plain (by decide) (by decide)).2.1

theorem roomForwarded_discovery :
    (⟨[{ id := "Room", type := "T", isPattern := "false" }], [], "http://p2"⟩ : ContextRegistrationResponse) ∈
      discovered (Env.plain fun _ _ => false) (fun _ => none) "" 200 roomRequest [] 0 0 false roomForwarded.2 := by
  have hlocal : (⟨[{ id := "Room", type := "T", isPattern := "false" }], [], "http://p2"⟩ :
      ContextRegistrationResponse) ∈
      discovered (Env.plain fun _ _ => false) (fun _ => none) "" 200 roomRequest [] 0 0 false roomForwarded.1.registry := by
    decide +kernel
  unfold roomForwarded at hlocal ⊢
  exact @forwarded_discovery (Env.plain fun _ _ => false) (Env.plain fun _ _ => false) rfl (fun _ => none) "" {} {} rfl
    rfl rfl roomForwardings roomForwardings_plain (by decide) (by decide) roomRequest roomRequest_conventional [] 200
    false _ hlocal

end OrionBroker.Register
