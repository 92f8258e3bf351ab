import OrionBroker.Register.Announcement

/-!
# Registrations forwarded to a configuration manager (postRegisterContext.cpp, mongoConfManOperations.cpp)

With `-fwdPort` the broker registers locally and sends the registration on to a second broker, whose identifier it
stores in the field `fwdRegId` of its own document; an update is sent on under that identifier.

| here | there |
| --- | --- |
| `mongoGetFwdRegId`, `mongoSetFwdRegId` | the same (mongoConfManOperations.cpp:90, :40) |
| `renderedRegistrationId`  | `RegistrationId::render` in an answer (RegistrationId.cpp:118) |
| `fordwardRegisterContext` | the same (postRegisterContext.cpp:49) with the second broker behind it |
| `registerContextForward`  | the same (:89) |
| `Forwarding`              | a request with what the network does to it |

The payload is read as it was rendered or not at all (`delivered`): a JSON request goes out as XML and is not read.
The field `fwdRegId` stands beside the registry, since nothing else reads it; a document that is written anew is
without it.

`forwarded_once`: whatever fails and gets lost, an identifier stands for a registration of the second broker, and no
two registrations share one, so an update never goes to the registration of another.
-/

namespace OrionBroker.Register

open Mongo

/-! ## The two brokers -/

/-- The broker with `-fwdPort`; `fwdRegId` is the field of the registration under an identifier. -/
structure ConfMan where
  registry : Registry := {}
  fwdRegId : String → Option String := fun _ => none

/-- Every exception leaves the text empty, and `STR_FIELD` of no document is empty. -/
def mongoGetFwdRegId (regId : String) (c : ConfMan) : String × ConfMan :=
  match oidOf regId with
  | none => ("", c)
  | some id =>
    let (o, r) := c.registry.call
    match o with
    | .ok =>
      match r.registrations.lookup id with
      | some _ => ((c.fwdRegId id).getD "", { c with registry := r })
      | none => ("", { c with registry := r })
    | .nullCursor | .dbException _ | .otherException => ("", { c with registry := r })

/-- `$set`, which does nothing without a document; every exception is only logged. -/
def mongoSetFwdRegId (regId fwdRegId : String) (c : ConfMan) : ConfMan :=
  match oidOf regId with
  | none => c
  | some id =>
    let (o, r) := c.registry.call
    match o.writeError with
    | some _ => { c with registry := r }
    | none =>
      match r.registrations.lookup id with
      | some _ => { registry := r, fwdRegId := Function.update c.fwdRegId id (some fwdRegId) }
      | none => { c with registry := r }

/-- What comes back when the identifier of an answer is empty. -/
def noRegistrationId : String := "000000000000000000000000"

def renderedRegistrationId (rcr : RegisterContextResponse) : String :=
  if rcr.registrationId = "" then noRegistrationId else rcr.registrationId

/-- The request of a client with the times and new identifiers of the two brokers. -/
structure Forwarding where
  now : Int
  servicePath : String
  newOid : String
  requestP : RegisterContextRequest
  delivered : Bool := true
  answered : Bool := true
  fwdNow : Int
  fwdOid : String

/-- The identifier a registration is stored under. -/
def registeredId (newOid : String) (requestP : RegisterContextRequest) : String :=
  if requestP.registrationId = "" then newOid else (oidOf requestP.registrationId).getD ""

/-- `processRegisterContext` is reached, which puts the duration into the request. -/
def reached (servicePath : String) (requestP : RegisterContextRequest) (r : Registry) : Bool :=
  if requestP.registrationId = "" then true
  else
    match oidOf requestP.registrationId with
    | none => false
    | some id =>
      r.call.1 == .ok && r.registrations.docs.any fun d =>
        d.oid == id && d.servicePath == some (if servicePath = "" then "/" else servicePath)

def durationSet (requestP : RegisterContextRequest) : RegisterContextRequest :=
  { requestP with duration := if requestP.duration = "" then DEFAULT_DURATION else requestP.duration }

section
variable (env envF : Env) (regcomp : Regcomp) (tenant : String)

/-- The local registration. -/
def ConfMan.register (x : Forwarding) (c : ConfMan) : Option RegisterContextResponse × ConfMan :=
  let (answer, r) := mongoRegisterContext env regcomp tenant x.servicePath x.now x.newOid x.requestP c.registry
  (answer,
    { registry := r
      fwdRegId :=
        if accepted answer then Function.update c.fwdRegId (registeredId x.newOid x.requestP) none else c.fwdRegId })

/-- The identifier read from the answer, if one comes back. -/
def fordwardRegisterContext (x : Forwarding) (payload : RegisterContextRequest) (fwd : Registry) :
    Option String × Registry :=
  if x.delivered then
    match mongoRegisterContext envF regcomp tenant x.servicePath x.fwdNow x.fwdOid payload fwd with
    | (none, fwd) => (none, fwd)
    | (some rcr, fwd) => (if x.answered then some (renderedRegistrationId rcr) else none, fwd)
  else (none, fwd)

/-- A broker that died on the way sends nothing on. -/
def registerContextForward (x : Forwarding) (c : ConfMan) (fwd : Registry) :
    Option RegisterContextResponse × ConfMan × Registry :=
  if x.requestP.registrationId = "" then
    match c.register env regcomp tenant x with
    | (none, c) => (none, c, fwd)
    | (some rcr, c) =>
      match fordwardRegisterContext envF regcomp tenant x (durationSet x.requestP) fwd with
      | (none, fwd) => (some rcr, c, fwd)
      | (some fwdRegId, fwd) => (some rcr, mongoSetFwdRegId rcr.registrationId fwdRegId c, fwd)
  else
    let (fwdRegId, c) := mongoGetFwdRegId x.requestP.registrationId c
    let requestP := if reached x.servicePath x.requestP c.registry then durationSet x.requestP else x.requestP
    match c.register env regcomp tenant x with
    | (none, c) => (none, c, fwd)
    | (some rcr, c) =>
      let c := mongoSetFwdRegId rcr.registrationId fwdRegId c
      let (_, fwd) := fordwardRegisterContext envF regcomp tenant x { requestP with registrationId := fwdRegId } fwd
      (some rcr, c, fwd)

def forwardAll : List Forwarding → ConfMan × Registry → ConfMan × Registry
  | [], s => s
  | x :: xs, s => forwardAll xs (registerContextForward env envF regcomp tenant x s.1 s.2).2

end

/-! ## Identifiers -/

theorem hexDigit_toLower {c : Char} (h : isHexDigit c = true) :
    isHexDigit c.toLower = true ∧ c.toLower.toLower = c.toLower := by
  have hn : c.toNat < 128 := by
    unfold isHexDigit Char.isDigit at h
    simp only [Bool.or_eq_true, Bool.and_eq_true, decide_eq_true_eq] at h
    rcases h with (⟨_, h⟩ | ⟨_, h⟩) | ⟨_, h⟩ <;> exact lt_of_le_of_lt (UInt32.le_iff_toNat_le.1 h) (by decide)
  have hall : ((List.range 128).all fun n => !isHexDigit (Char.ofNat n) || (isHexDigit (Char.ofNat n).toLower &&
      (Char.ofNat n).toLower.toLower == (Char.ofNat n).toLower)) = true := by decide +kernel
  have hc := List.all_eq_true.1 hall c.toNat (List.mem_range.2 hn)
  rw [Char.ofNat_toNat, h] at hc
  simpa using hc

/-- The spelling of the driver is spelled as it is. -/
theorem oidOf_oidOf {s id : String} (h : oidOf s = some id) : oidOf id = some id := by
  unfold oidOf at h
  split at h
  · rename_i hs
    cases h
    unfold oidOf
    rw [String.toList_ofList, List.length_map, List.map_map, if_pos]
    · congr 2
      exact List.map_congr_left fun c hc => (hexDigit_toLower (List.all_eq_true.1 hs.2 c hc)).2
    · refine ⟨hs.1, ?_⟩
      rw [List.all_map, List.all_eq_true]
      exact fun c hc => (hexDigit_toLower (List.all_eq_true.1 hs.2 c hc)).1
  · cases h

/-! ## One registration -/

section
variable (env : Env) (regcomp : Regcomp) (tenant : String) (now : Int)

theorem processRegisterContext_registrationId {sPath oid : String} {requestP : RegisterContextRequest} {r : Registry}
    {rcr : RegisterContextResponse}
    (h : (processRegisterContext env regcomp tenant sPath now oid requestP r).1 = some rcr) :
    rcr.registrationId = "" ∨ rcr.registrationId = oid ∧ accepted (some rcr) = true := by
  unfold processRegisterContext at h
  dsimp only at h
  split at h
  · cases h
    exact .inl rfl
  · split at h
    · cases h
      exact .inl rfl
    · split at h
      · cases h
      · cases h
        exact .inr ⟨rfl, rfl⟩

/-- The identifier in the answer to a new registration. -/
theorem mongoRegisterContext_new {servicePath newOid : String} {requestP : RegisterContextRequest} {r : Registry}
    {rcr : RegisterContextResponse} (hnew : requestP.registrationId = "")
    (h : (mongoRegisterContext env regcomp tenant servicePath now newOid requestP r).1 = some rcr) :
    rcr.registrationId = "" ∨ rcr.registrationId = newOid ∧ accepted (some rcr) = true := by
  unfold mongoRegisterContext at h
  dsimp only at h
  rw [if_pos hnew] at h
  exact processRegisterContext_registrationId env regcomp tenant now h

/-- The answer to an update has the identifier of the request, in some spelling. -/
theorem mongoRegisterContext_update {servicePath newOid : String} {requestP : RegisterContextRequest} {r : Registry}
    {rcr : RegisterContextResponse} (hold : requestP.registrationId ≠ "")
    (h : (mongoRegisterContext env regcomp tenant servicePath now newOid requestP r).1 = some rcr) :
    rcr.registrationId = "" ∨ oidOf rcr.registrationId = oidOf requestP.registrationId := by
  unfold mongoRegisterContext at h
  dsimp only at h
  rw [if_neg hold] at h
  generalize (if servicePath = "" then "/" else servicePath) = sPath at h
  cases hid : oidOf requestP.registrationId with
  | none =>
    rw [hid] at h
    cases h
    exact .inr hid
  | some id =>
    rw [hid] at h
    generalize r.call = c at h
    obtain ⟨o, r1⟩ := c
    cases o with
    | nullCursor =>
      cases h
      exact .inr hid
    | dbException what =>
      cases h
      exact .inl rfl
    | otherException =>
      cases h
      exact .inl rfl
    | ok =>
      dsimp only at h
      split at h
      · rcases processRegisterContext_registrationId env regcomp tenant now h with h0 | ⟨h1, _⟩
        · exact .inl h0
        · rw [h1]
          exact .inr (oidOf_oidOf hid)
      · cases h
        exact .inr hid

/-- What the registrations are afterwards. -/
theorem mongoRegisterContext_lookup (servicePath newOid : String) (requestP : RegisterContextRequest) (r : Registry) :
    (mongoRegisterContext env regcomp tenant servicePath now newOid requestP r).2.registrations.lookup =
      if accepted (mongoRegisterContext env regcomp tenant servicePath now newOid requestP r).1 = true then
        Function.update r.registrations.lookup (registeredId newOid requestP)
          (some (registeredDoc now (if servicePath = "" then "/" else servicePath) (registeredId newOid requestP) requestP))
      else r.registrations.lookup := by
  rw [mongoRegisterContext_record env regcomp tenant now servicePath newOid requestP r _ rfl]
  unfold Exchange.record Exchange.registered
  dsimp only
  by_cases hacc : accepted (mongoRegisterContext env regcomp tenant servicePath now newOid requestP r).1 = true
  · rw [if_pos hacc, if_pos hacc]
    rfl
  · rw [if_neg hacc, if_neg hacc]

/-- No registration is lost. -/
theorem mongoRegisterContext_grows (servicePath newOid : String) (requestP : RegisterContextRequest) (r : Registry)
    {k : String} (hk : (r.registrations.lookup k).isSome = true) :
    ((mongoRegisterContext env regcomp tenant servicePath now newOid requestP r).2.registrations.lookup k).isSome =
      true := by
  rw [mongoRegisterContext_lookup]
  split
  · rw [Function.update_apply]
    split
    · rfl
    · exact hk
  · exact hk

end

/-! ## One counterpart each -/

/-- Neither empty nor what stands for an empty identifier. -/
def Real (f : String) : Prop := f ≠ "" ∧ f ≠ noRegistrationId

theorem mongoGetFwdRegId_cases (regId : String) (c : ConfMan) :
    (mongoGetFwdRegId regId c).2.fwdRegId = c.fwdRegId ∧
    ((mongoGetFwdRegId regId c).1 = "" ∨
      ∃ id, oidOf regId = some id ∧ c.fwdRegId id = some (mongoGetFwdRegId regId c).1) := by
  unfold mongoGetFwdRegId
  cases hid : oidOf regId with
  | none => exact ⟨rfl, .inl rfl⟩
  | some id =>
    generalize c.registry.call = call
    obtain ⟨o, r⟩ := call
    cases o with
    | nullCursor => exact ⟨rfl, .inl rfl⟩
    | dbException what => exact ⟨rfl, .inl rfl⟩
    | otherException => exact ⟨rfl, .inl rfl⟩
    | ok =>
      dsimp only
      cases r.registrations.lookup id with
      | none => exact ⟨rfl, .inl rfl⟩
      | some d =>
        cases hf : c.fwdRegId id with
        | none => exact ⟨rfl, .inl rfl⟩
        | some f => exact ⟨rfl, .inr ⟨id, rfl, hf⟩⟩

theorem mongoSetFwdRegId_cases (regId fwdRegId : String) (c : ConfMan) :
    (mongoSetFwdRegId regId fwdRegId c).fwdRegId = c.fwdRegId ∨
    ∃ id, oidOf regId = some id ∧
      (mongoSetFwdRegId regId fwdRegId c).fwdRegId = Function.update c.fwdRegId id (some fwdRegId) := by
  unfold mongoSetFwdRegId
  cases hid : oidOf regId with
  | none => exact .inl rfl
  | some id =>
    generalize c.registry.call = call
    obtain ⟨o, r⟩ := call
    dsimp only
    split
    · exact .inl rfl
    · split
      · exact .inr ⟨id, rfl, rfl⟩
      · exact .inl rfl

/-- A stored identifier is one the second broker gave out, it is there, and no other registration has it. -/
structure Owned (issued : List String) (c : ConfMan) (fwd : Registry) : Prop where
  given : ∀ id f, c.fwdRegId id = some f → Real f → f ∈ issued
  stored : ∀ id f, c.fwdRegId id = some f → Real f → (fwd.registrations.lookup f).isSome = true
  once : ∀ id id' f, c.fwdRegId id = some f → c.fwdRegId id' = some f → Real f → id = id'

section
variable {issued issued' : List String} {c c' : ConfMan} {fwd fwd' : Registry}

theorem Owned.drop (h : Owned issued c fwd) (hsub : ∀ id f, c'.fwdRegId id = some f → c.fwdRegId id = some f) :
    Owned issued c' fwd :=
  ⟨fun id f hf => h.given id f (hsub id f hf), fun id f hf => h.stored id f (hsub id f hf),
   fun id id' f hf hf' => h.once id id' f (hsub id f hf) (hsub id' f hf')⟩

theorem Owned.grow (h : Owned issued c fwd) (hi : issued ⊆ issued')
    (hg : ∀ k, (fwd.registrations.lookup k).isSome = true → (fwd'.registrations.lookup k).isSome = true) :
    Owned issued' c fwd' :=
  ⟨fun id f hf hr => hi (h.given id f hf hr), fun id f hf hr => hg f (h.stored id f hf hr), h.once⟩

/-- Setting an identifier that nobody else has. -/
theorem Owned.set (h : Owned issued c fwd) {regId f : String}
    (hf : ∀ id, oidOf regId = some id → Real f →
      f ∈ issued ∧ (fwd.registrations.lookup f).isSome = true ∧ ∀ id', c.fwdRegId id' = some f → id' = id) :
    Owned issued (mongoSetFwdRegId regId f c) fwd := by
  obtain heq | ⟨id, hid, heq⟩ := mongoSetFwdRegId_cases regId f c
  · exact h.drop fun id' f' h' => by rwa [heq] at h'
  · have hcases : ∀ id' f', (mongoSetFwdRegId regId f c).fwdRegId id' = some f' →
        (id' = id ∧ f' = f) ∨ c.fwdRegId id' = some f' := by
      intro id' f' h'
      rw [heq, Function.update_apply] at h'
      split at h'
      · rename_i hk
        cases h'
        exact .inl ⟨hk, rfl⟩
      · exact .inr h'
    refine ⟨fun id' f' h' hr => ?_, fun id' f' h' hr => ?_, fun id1 id2 f' h1 h2 hr => ?_⟩
    · rcases hcases id' f' h' with ⟨_, rfl⟩ | h'
      · exact (hf id hid hr).1
      · exact h.given id' f' h' hr
    · rcases hcases id' f' h' with ⟨_, rfl⟩ | h'
      · exact (hf id hid hr).2.1
      · exact h.stored id' f' h' hr
    · rcases hcases id1 f' h1 with ⟨rfl, rfl⟩ | h1'
      · rcases hcases id2 f' h2 with ⟨rfl, _⟩ | h2'
        · rfl
        · exact ((hf id1 hid hr).2.2 id2 h2').symm
      · rcases hcases id2 f' h2 with ⟨rfl, rfl⟩ | h2'
        · exact (hf id2 hid hr).2.2 id1 h1'
        · exact h.once id1 id2 f' h1' h2' hr

end

section
variable (env envF : Env) (regcomp : Regcomp) (tenant : String)

/-- A registration that is written anew has no identifier of the second broker. -/
theorem register_fwdRegId (x : Forwarding) (c : ConfMan) {id f : String}
    (h : (c.register env regcomp tenant x).2.fwdRegId id = some f) : c.fwdRegId id = some f := by
  unfold ConfMan.register at h
  dsimp only at h
  split at h
  · rw [Function.update_apply] at h
    split at h
    · cases h
    · exact h
  · exact h

theorem fordwardRegisterContext_grows (x : Forwarding) (payload : RegisterContextRequest) (fwd : Registry) {k : String}
    (hk : (fwd.registrations.lookup k).isSome = true) :
    ((fordwardRegisterContext envF regcomp tenant x payload fwd).2.registrations.lookup k).isSome = true := by
  have h := mongoRegisterContext_grows envF regcomp tenant x.fwdNow x.servicePath x.fwdOid payload fwd hk
  unfold fordwardRegisterContext
  split
  · split
    · rename_i fwd' e
      rwa [e] at h
    · rename_i rcr fwd' e
      rwa [e] at h
  · exact hk

/-- The identifier that comes back for a new registration. -/
theorem fordwardRegisterContext_new {x : Forwarding} {payload : RegisterContextRequest} {fwd : Registry} {f : String}
    (hnew : payload.registrationId = "")
    (h : (fordwardRegisterContext envF regcomp tenant x payload fwd).1 = some f) (hf : Real f) :
    f = x.fwdOid ∧
      ((fordwardRegisterContext envF regcomp tenant x payload fwd).2.registrations.lookup f).isSome = true := by
  have hlookup := mongoRegisterContext_lookup envF regcomp tenant x.fwdNow x.servicePath x.fwdOid payload fwd
  have hid := @mongoRegisterContext_new envF regcomp tenant x.fwdNow x.servicePath x.fwdOid payload fwd
  unfold fordwardRegisterContext at h ⊢
  split at h
  · rename_i hdel
    rw [if_pos hdel]
    split at h
    · cases h
    · rename_i rcr fwd' e
      rw [e] at hlookup hid
      dsimp only at h hlookup hid ⊢
      split at h
      · cases h
        rcases hid hnew rfl with h0 | ⟨h1, hacc⟩
        · exact absurd (show renderedRegistrationId rcr = noRegistrationId by rw [renderedRegistrationId, if_pos h0]) hf.2
        · have hr : renderedRegistrationId rcr = x.fwdOid := by
            unfold renderedRegistrationId at hf ⊢
            split
            · rename_i h0
              rw [if_pos h0] at hf
              exact absurd rfl hf.2
            · exact h1
          rw [hr, hlookup, if_pos hacc, registeredId, if_pos hnew, Function.update_self]
          exact ⟨rfl, rfl⟩
      · cases h
  · cases h

/-- Step: one request with a fresh identifier at the second broker. -/
theorem registerContextForward_owned {issued : List String} {c : ConfMan} {fwd : Registry} (x : Forwarding)
    (h : Owned issued c fwd) (hx : x.fwdOid ∉ issued) :
    Owned (x.fwdOid :: issued) (registerContextForward env envF regcomp tenant x c fwd).2.1
      (registerContextForward env envF regcomp tenant x c fwd).2.2 := by
  have hsub : issued ⊆ x.fwdOid :: issued := List.subset_cons_self x.fwdOid issued
  have hreg : ∀ c : ConfMan, Owned issued c fwd → Owned issued (c.register env regcomp tenant x).2 fwd :=
    fun c h => h.drop fun id f => register_fwdRegId env regcomp tenant x c
  unfold registerContextForward
  split
  · rename_i hnew
    have h1 := hreg c h
    split
    · rename_i c1 e
      rw [e] at h1
      exact h1.grow hsub fun _ => id
    · rename_i rcr c1 e
      rw [e] at h1
      have hg := fun k => @fordwardRegisterContext_grows envF regcomp tenant x (durationSet x.requestP) fwd k
      have hn := fun f => @fordwardRegisterContext_new envF regcomp tenant x (durationSet x.requestP) fwd f hnew
      split
      · rename_i fwd1 e1
        rw [e1] at hg
        exact h1.grow hsub hg
      · rename_i f fwd1 e1
        rw [e1] at hg hn
        refine (h1.grow hsub hg).set fun id _ hf => ?_
        obtain ⟨rfl, hs⟩ := hn f rfl hf
        -- nobody has the fresh identifier
        exact ⟨List.mem_cons_self, hs, fun id' h' => absurd (h1.given id' _ h' hf) hx⟩
  · rename_i hold
    obtain ⟨hsame, hget⟩ := mongoGetFwdRegId_cases x.requestP.registrationId c
    generalize mongoGetFwdRegId x.requestP.registrationId c = get at hsame hget
    obtain ⟨f, c0⟩ := get
    dsimp only at hsame hget ⊢
    have h0 : Owned issued c0 fwd := h.drop fun id f hf => by rwa [hsame] at hf
    have h1 := hreg c0 h0
    have hback := @register_fwdRegId env regcomp tenant x c0
    have hid := @mongoRegisterContext_update env regcomp tenant x.now x.servicePath x.newOid x.requestP c0.registry
    rw [show (mongoRegisterContext env regcomp tenant x.servicePath x.now x.newOid x.requestP c0.registry).1 =
      (c0.register env regcomp tenant x).1 from rfl] at hid
    split
    · rename_i c1 e
      rw [e] at h1
      exact h1.grow hsub fun _ => id
    · rename_i rcr c1 e
      rw [e] at h1 hback hid
      have hset : Owned issued (mongoSetFwdRegId rcr.registrationId f c1) fwd := by
        refine h1.set fun id hreg' hf => ?_
        obtain ⟨id0, hid0, hc⟩ := hget.resolve_left hf.1
        have hsid : id = id0 := by
          rcases hid hold rfl with he | he
          · rw [he, show oidOf "" = none by decide] at hreg'
            cases hreg'
          · rw [he, hid0] at hreg'
            exact (Option.some.inj hreg').symm
        subst hsid
        refine ⟨h.given id f hc hf, h.stored id f hc hf, fun id' h' => ?_⟩
        have hback' := hback h'
        rw [hsame] at hback'
        exact h.once id' id f hback' hc hf
      exact hset.grow hsub fun k => fordwardRegisterContext_grows envF regcomp tenant x _ fwd

/-- Run. -/
theorem forwardAll_owned {issued : List String} : ∀ {xs : List Forwarding} {s : ConfMan × Registry},
    Owned issued s.1 s.2 → (xs.map Forwarding.fwdOid).Nodup → (∀ x ∈ xs, x.fwdOid ∉ issued) →
    Owned ((xs.map Forwarding.fwdOid).reverse ++ issued) (forwardAll env envF regcomp tenant xs s).1
      (forwardAll env envF regcomp tenant xs s).2
  | [], _, h, _, _ => h
  | x :: xs, s, h, hn, hnew => by
    rw [List.map_cons, List.nodup_cons] at hn
    rw [forwardAll, List.map_cons, List.reverse_cons, List.append_assoc, List.singleton_append]
    refine forwardAll_owned (registerContextForward_owned env envF regcomp tenant x h (hnew x List.mem_cons_self)) hn.2
      fun y hy hmem => ?_
    rcases List.mem_cons.1 hmem with he | hmem
    · exact hn.1 (List.mem_map.2 ⟨y, hy, he⟩)
    · exact hnew y (List.mem_cons_of_mem _ hy) hmem

/-- **One counterpart each.** In every run whose identifiers at the second broker are different, whatever calls fail and
whatever requests and answers get lost: an identifier stored with a registration, unless it is one of the two texts that
stand for none, is that of a registration of the second broker, which it made for a request of the run, and no other
registration has it. -/
theorem forwarded_once {c : ConfMan} (hc : ∀ id, c.fwdRegId id = none) (fwd : Registry) {xs : List Forwarding}
    (hdist : (xs.map Forwarding.fwdOid).Nodup) :
    ∀ id f, (forwardAll env envF regcomp tenant xs (c, fwd)).1.fwdRegId id = some f → f ≠ "" → f ≠ noRegistrationId →
      (∃ x ∈ xs, x.fwdOid = f) ∧
      (∃ d, (forwardAll env envF regcomp tenant xs (c, fwd)).2.registrations.lookup f = some d) ∧
      ∀ id', (forwardAll env envF regcomp tenant xs (c, fwd)).1.fwdRegId id' = some f → id' = id := by
  intro id f hf h1 h2
  have h0 : Owned [] c fwd :=
    ⟨fun id f h => by simp [hc] at h, fun id f h => by simp [hc] at h, fun id id' f h => by simp [hc] at h⟩
  have h := @forwardAll_owned env envF regcomp tenant [] xs (c, fwd) h0 hdist fun _ _ => List.not_mem_nil
  refine ⟨?_, Option.isSome_iff_exists.1 (h.stored id f hf ⟨h1, h2⟩), fun id' h' => h.once id' id f h' hf ⟨h1, h2⟩⟩
  have hmem := h.given id f hf ⟨h1, h2⟩
  rw [List.append_nil, List.mem_reverse] at hmem
  exact List.mem_map.1 hmem

end

/-- A registration, its update in another spelling, and the update of a registration nobody made. -/
def roomForwardings : List Forwarding :=
  [{ now := 100, servicePath := "", newOid := "51c0ac9ed714fb3b37d7d5b1", fwdNow := 101,
     fwdOid := "51c0ac9ed714fb3b37d7d5f1", requestP := { contextRegistrationVector := [roomProvider "http://p1"] } },
   { now := 102, servicePath := "/", newOid := "51c0ac9ed714fb3b37d7d5b2", fwdNow := 103,
     fwdOid := "51c0ac9ed714fb3b37d7d5f2",
     requestP :=
      { contextRegistrationVector := [roomProvider "http://p2"], registrationId := "51C0AC9ED714FB3B37D7D5B1" } },
   { now := 104, servicePath := "/", newOid := "51c0ac9ed714fb3b37d7d5b3", fwdNow := 105,
     fwdOid := "51c0ac9ed714fb3b37d7d5f3",
     requestP :=
      { contextRegistrationVector := [roomProvider "http://p3"], registrationId := "51c0ac9ed714fb3b37d7d5b9" } }]

/-- The two brokers after them. -/
def roomForwarded : ConfMan × Registry :=
  forwardAll (Env.plain fun _ _ => false) (Env.plain fun _ _ => false) (fun _ => none) "" roomForwardings ({}, {})

theorem roomForwarded_once :
    roomForwarded.1.fwdRegId "51c0ac9ed714fb3b37d7d5b1" = some "51c0ac9ed714fb3b37d7d5f1" ∧
    ∀ id', roomForwarded.1.fwdRegId id' = some "51c0ac9ed714fb3b37d7d5f1" → id' = "51c0ac9ed714fb3b37d7d5b1" := by
  have hid : roomForwarded.1.fwdRegId "51c0ac9ed714fb3b37d7d5b1" = some "51c0ac9ed714fb3b37d7d5f1" := by decide +kernel
  refine ⟨hid, ?_⟩
  unfold roomForwarded at hid ⊢
  exact (@forwarded_once (Env.plain fun _ _ => false) (Env.plain fun _ _ => false) (fun _ => none) "" {} (fun _ => rfl)
    {} roomForwardings (by decide) _ _ hid (by decide) (by decide)).2.2

end OrionBroker.Register
