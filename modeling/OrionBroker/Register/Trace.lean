import OrionBroker.Register.Operations

/-!
# What a failed registration leaves behind

The registration is written last, the associations on the way: the insert of an association that took effect
stays when a later call fails (MongoCommonRegister.cpp:448-455).

* `associations_unchanged_iff`: the loop over the elements of the request leaves the associations alone
  exactly when it stops before the insert of the first association, or there (`NothingStored`).
* `failed_registration_iff`: the same of an answer with an error code.
-/

namespace OrionBroker.Register

open Mongo

/-- The outcome of the `i`-th database call from here. -/
def outcomeAt (r : Registry) (i : Nat) : Outcome := r.outcomes[i]?.getD .ok

theorem call_outcome (r : Registry) : r.call.1 = outcomeAt r 0 := by
  unfold Registry.call outcomeAt
  cases r.outcomes <;> rfl

theorem outcomeAt_call (r : Registry) (i : Nat) : outcomeAt r.call.2 i = outcomeAt r (i + 1) := by
  unfold Registry.call outcomeAt
  cases h : r.outcomes with
  | nil => simp [h]
  | cons o os => simp

/-! ## Inserts -/

/-- The next call, as the insert of an association, fails. -/
def InsertFails (r : Registry) (i : Nat) (name : String) : Prop :=
  (outcomeAt r i).writeError.isSome = true ∨ name ∈ r.associations.docs.map AssocDoc.name

instance (r : Registry) (i : Nat) (name : String) : Decidable (InsertFails r i name) := by
  unfold InsertFails; infer_instance

theorem insertAssociation_fails {doc : AssocDoc} {r : Registry} (h : InsertFails r 0 doc.name) :
    ∃ err, insertAssociation doc r = (.error err, r.call.2) := by
  have hs := r.call_same
  unfold insertAssociation
  rw [InsertFails, ← call_outcome] at h
  generalize r.call = c at h hs
  obtain ⟨o, r'⟩ := c
  cases o with
  | dbException what => exact ⟨_, rfl⟩
  | otherException => exact ⟨_, rfl⟩
  | ok | nullCursor =>
    have hm := h.resolve_left (by simp [Outcome.writeError])
    have hi : r'.associations.insert doc = none := by
      rw [hs.associations]
      exact dif_pos hm
    simp only [hi]
    exact ⟨_, rfl⟩

theorem insertAssociation_stores {doc : AssocDoc} {r : Registry} (h : ¬ InsertFails r 0 doc.name) :
    ∃ c, insertAssociation doc r = (.ok (), { r.call.2 with associations := c }) ∧
      c.docs = r.associations.docs ++ [doc] := by
  have hs := r.call_same
  unfold insertAssociation
  rw [InsertFails, ← call_outcome, not_or] at h
  generalize r.call = c at h hs
  obtain ⟨o, r'⟩ := c
  cases o with
  | dbException what => exact absurd rfl h.1
  | otherException => exact absurd rfl h.1
  | ok | nullCursor =>
    obtain ⟨c, hc⟩ : ∃ c, r'.associations.insert doc = some c := by
      rw [hs.associations]
      exact ⟨_, dif_neg h.2⟩
    simp only [hc]
    refine ⟨c, rfl, ?_⟩
    rw [Collection.docs_insert hc, hs.associations]

/-- What a step of the loop may do: associations are added at the end, the registrations stay. -/
structure Adds (r r' : Registry) : Prop where
  registrations : r'.registrations = r.registrations
  associations : r.associations.docs <+: r'.associations.docs

theorem Adds.refl (r : Registry) : Adds r r := ⟨rfl, List.prefix_refl _⟩

theorem Adds.trans {r r' r'' : Registry} (h : Adds r r') (h' : Adds r' r'') : Adds r r'' :=
  ⟨h'.registrations.trans h.registrations, h.associations.trans h'.associations⟩

theorem Adds.of_same {r r' : Registry} (h : Registry.Same r r') : Adds r r' :=
  ⟨h.registrations, by rw [h.associations]⟩

theorem insertAssociation_adds (doc : AssocDoc) (r : Registry) : Adds r (insertAssociation doc r).2 := by
  by_cases h : InsertFails r 0 doc.name
  · obtain ⟨err, e⟩ := insertAssociation_fails h
    rw [e]
    exact .of_same r.call_same
  · obtain ⟨c, e, hc⟩ := insertAssociation_stores h
    rw [e]
    refine ⟨r.call_same.registrations, ?_⟩
    rw [hc]
    exact List.prefix_append _ _

theorem processAssociations_adds : ∀ (mdV : List RegistrationMetadata) (r : Registry),
    Adds r (processAssociations mdV r).2
  | [], r => .refl r
  | md :: mdV, r => by
    rw [processAssociations]
    split
    · exact processAssociations_adds mdV r
    · have h := insertAssociation_adds (assocDoc md) r
      split
      · rename_i err r' e
        rwa [e] at h
      · rename_i r' e
        rw [e] at h
        exact h.trans (processAssociations_adds mdV r')

theorem addTriggeredSubscriptions_same (env : Env) (tenant : String) (now : Int) (cr : ContextRegistration)
    (subs : SubsMap) (r : Registry) :
    Registry.Same r (addTriggeredSubscriptions env tenant now cr subs r).2 := by
  unfold addTriggeredSubscriptions
  simp only
  split <;> exact r.call_same

/-- After the associations of an element, the rest of the loop only adds. -/
theorem element_adds {env : Env} {tenant : String} {now : Int} {cr : ContextRegistration}
    {crV : List ContextRegistration} {subs : SubsMap} {r r' : Registry}
    (ih : ∀ subs r, Adds r (processContextRegistrations env tenant now crV subs r).2)
    (h : Adds r' (processAssociations cr.registrationMetadataVector r).2) :
    Adds r' (processContextRegistrations env tenant now (cr :: crV) subs r).2 := by
  rw [processContextRegistrations]
  split
  · rename_i err r1 e
    rwa [e] at h
  · rename_i r1 e
    rw [e] at h
    have h2 := addTriggeredSubscriptions_same env tenant now cr subs r1
    split
    · rename_i err r2 e2
      rw [e2] at h2
      exact h.trans (.of_same h2)
    · rename_i subs' r2 e2
      rw [e2] at h2
      exact (h.trans (.of_same h2)).trans (ih subs' r2)

theorem processContextRegistrations_adds (env : Env) (tenant : String) (now : Int) :
    ∀ (crV : List ContextRegistration) (subs : SubsMap) (r : Registry),
      Adds r (processContextRegistrations env tenant now crV subs r).2
  | [], _, r => .refl r
  | _ :: crV, _, _ =>
    element_adds (processContextRegistrations_adds env tenant now crV) (processAssociations_adds _ _)

/-! ## The first association -/

/-- The first metadata item that is stored. -/
def firstAssociation (mdV : List RegistrationMetadata) : Option RegistrationMetadata :=
  mdV.find? fun md => md.type == "Association"

theorem processAssociations_none {mdV : List RegistrationMetadata} (h : firstAssociation mdV = none)
    (r : Registry) : processAssociations mdV r = (.ok (), r) := by
  induction mdV with
  | nil => rfl
  | cons md mdV ih =>
    rw [firstAssociation, List.find?_cons] at h
    split at h
    · cases h
    · rename_i ht
      rw [processAssociations, if_pos (by simpa using ht)]
      exact ih h

theorem processAssociations_fails {mdV : List RegistrationMetadata} {md : RegistrationMetadata} {r : Registry}
    (h : firstAssociation mdV = some md) (hi : InsertFails r 0 md.name) :
    ∃ err, processAssociations mdV r = (.error err, r.call.2) := by
  induction mdV with
  | nil => cases h
  | cons md' mdV ih =>
    rw [firstAssociation, List.find?_cons] at h
    rw [processAssociations]
    split at h
    · rename_i ht
      obtain rfl := Option.some.inj h
      have hd : InsertFails r 0 (assocDoc md').name := hi
      obtain ⟨err, e⟩ := insertAssociation_fails hd
      rw [if_neg (by simpa using ht), e]
      exact ⟨err, rfl⟩
    · rename_i ht
      rw [if_pos (by simpa using ht)]
      exact ih h

theorem processAssociations_stores {mdV : List RegistrationMetadata} {md : RegistrationMetadata} {r : Registry}
    (h : firstAssociation mdV = some md) (hi : ¬ InsertFails r 0 md.name) :
    ∃ c rest, processAssociations mdV r = processAssociations rest { r.call.2 with associations := c } ∧
      c.docs = r.associations.docs ++ [assocDoc md] := by
  induction mdV with
  | nil => cases h
  | cons md' mdV ih =>
    rw [firstAssociation, List.find?_cons] at h
    rw [processAssociations]
    split at h
    · rename_i ht
      obtain rfl := Option.some.inj h
      have hd : ¬ InsertFails r 0 (assocDoc md').name := hi
      obtain ⟨c, e, hc⟩ := insertAssociation_stores hd
      rw [if_neg (by simpa using ht), e]
      exact ⟨c, mdV, rfl, hc⟩
    · rename_i ht
      rw [if_pos (by simpa using ht)]
      exact ih h

/-- The calls stop before the first association is stored. `i` is the call that comes next: each element
without associations makes one, the lookup of subscriptions. -/
def NothingStored (r : Registry) : Nat → List ContextRegistration → Prop
  | _, [] => True
  | i, cr :: crV =>
    match firstAssociation cr.registrationMetadataVector with
    | some md => InsertFails r i md.name
    | none => (outcomeAt r i).queryError.isSome = true ∨ NothingStored r (i + 1) crV

theorem nothingStored_call (r : Registry) : ∀ (i : Nat) (crV : List ContextRegistration),
    NothingStored r.call.2 i crV ↔ NothingStored r (i + 1) crV
  | _, [] => Iff.rfl
  | i, cr :: crV => by
    simp only [NothingStored]
    split
    · rw [InsertFails, InsertFails, outcomeAt_call, r.call_same.associations]
    · rw [outcomeAt_call, nothingStored_call r (i + 1) crV]

theorem associations_ne_of_adds {r r' r'' : Registry} {doc : AssocDoc} (ha : Adds r' r'')
    (h : r'.associations.docs = r.associations.docs ++ [doc]) : r''.associations ≠ r.associations := by
  intro e
  have hl := ha.associations.length_le
  rw [e, h, List.length_append, List.length_singleton] at hl
  omega

theorem addTriggeredSubscriptions_fails (env : Env) (tenant : String) (now : Int) (cr : ContextRegistration)
    (subs : SubsMap) {r : Registry} (h : (outcomeAt r 0).queryError.isSome = true) :
    ∃ err, addTriggeredSubscriptions env tenant now cr subs r = (.error err, r.call.2) := by
  obtain ⟨what, ho⟩ := Option.isSome_iff_exists.1 h
  rw [← call_outcome] at ho
  unfold addTriggeredSubscriptions
  simp only [ho]
  exact ⟨_, rfl⟩

theorem addTriggeredSubscriptions_finds (env : Env) (tenant : String) (now : Int) (cr : ContextRegistration)
    (subs : SubsMap) {r : Registry} (h : ¬ (outcomeAt r 0).queryError.isSome = true) :
    addTriggeredSubscriptions env tenant now cr subs r =
      (.ok (addCasubs subs (casubsFound env cr now r)), r.call.2) := by
  have ho := Option.not_isSome_iff_eq_none.1 h
  rw [← call_outcome] at ho
  unfold addTriggeredSubscriptions
  simp only [ho]

/-- **The loop** leaves the associations as they were exactly when nothing was stored before it stopped. -/
theorem associations_unchanged_iff (env : Env) (tenant : String) (now : Int) :
    ∀ (crV : List ContextRegistration) (subs : SubsMap) (r : Registry),
      (processContextRegistrations env tenant now crV subs r).2.associations = r.associations ↔
        NothingStored r 0 crV
  | [], _, r => by simp [processContextRegistrations, NothingStored]
  | cr :: crV, subs, r => by
    rw [NothingStored]
    cases hf : firstAssociation cr.registrationMetadataVector with
    | none =>
      rw [processContextRegistrations, processAssociations_none hf]
      simp only
      -- the lookup of subscriptions is the only call of this element
      by_cases ho : (outcomeAt r 0).queryError.isSome = true
      · obtain ⟨err, e⟩ := addTriggeredSubscriptions_fails env tenant now cr subs ho
        simp only [e, ho, true_or, iff_true]
        exact r.call_same.associations
      · rw [addTriggeredSubscriptions_finds env tenant now cr subs ho, or_iff_right ho, ← nothingStored_call,
          ← associations_unchanged_iff env tenant now crV _ r.call.2, r.call_same.associations]
    | some md =>
      by_cases hi : InsertFails r 0 md.name
      · obtain ⟨err, e⟩ := processAssociations_fails hf hi
        rw [processContextRegistrations, e]
        simp only [hi, iff_true]
        exact r.call_same.associations
      · obtain ⟨c, rest, e, hc⟩ := processAssociations_stores hf hi
        simp only [hi, iff_false]
        have hadds : Adds { r.call.2 with associations := c } (processAssociations cr.registrationMetadataVector r).2 := by
          rw [e]
          exact processAssociations_adds _ _
        exact associations_ne_of_adds (element_adds (processContextRegistrations_adds env tenant now crV) hadds) hc

/-! ## The answer -/

/-- An answer with an error code comes before the registration is written. -/
theorem processRegisterContext_error {env : Env} {regcomp : Regcomp} {tenant servicePath : String} {now : Int}
    {oid : String} {requestP : RegisterContextRequest} {r r' : Registry} {responseP : RegisterContextResponse}
    (h : processRegisterContext env regcomp tenant servicePath now oid requestP r = (some responseP, r'))
    (he : responseP.errorCode.code ≠ .ok) :
    Registry.Same (processContextRegistrations env tenant now requestP.contextRegistrationVector [] r).2 r' := by
  unfold processRegisterContext at h
  simp only at h
  split at h
  · rename_i code r1 e
    rw [e]
    cases h
    exact .refl _
  · rename_i subs r1 e
    rw [e]
    split at h
    · cases h
      exact r1.call_same
    · split at h
      · cases h
      · cases h
        exact absurd rfl he

/-- **A failed registration**, exactly: for every request and every outcome of the database calls, an answer
with an error code leaves the registrations and the associations as they were if and only if no association
of the request was stored before the failure. -/
theorem failed_registration_iff {env : Env} {regcomp : Regcomp} {tenant servicePath : String} {now : Int}
    {oid : String} {requestP : RegisterContextRequest} {r r' : Registry} {responseP : RegisterContextResponse}
    (h : processRegisterContext env regcomp tenant servicePath now oid requestP r = (some responseP, r'))
    (he : responseP.errorCode.code ≠ .ok) :
    (r'.registrations = r.registrations ∧ r'.associations = r.associations) ↔
      NothingStored r 0 requestP.contextRegistrationVector := by
  have hs := processRegisterContext_error h he
  have hr := (processContextRegistrations_adds env tenant now requestP.contextRegistrationVector [] r).registrations
  rw [hs.registrations, hr, hs.associations, associations_unchanged_iff]
  exact and_iff_right rfl

/-- `Room` of type `T` with the association `a1` to `Door`. -/
def roomRegistration : ContextRegistration where
  entityIdVector := [{ id := "Room", type := "T", isPattern := "false" }]
  registrationMetadataVector := [⟨"a1", "Association", "", { id := "Room", type := "T" }, { id := "Door", type := "T" }, []⟩]
  providingApplication := "http://provider"

/-- Its registration, with the given outcomes of the database calls. -/
def registerRoom (outcomes : List Outcome) : Option RegisterContextResponse × Registry :=
  processRegisterContext (Env.plain fun _ _ => false) (fun _ => none) "" "/" 0 "r1"
    { contextRegistrationVector := [roomRegistration] } { outcomes := outcomes }

/-- The insert of `a1` throws. -/
theorem registerRoom_refused :
    (registerRoom [.dbException "down"]).1 = some { errorCode := { code := .receiverInternalError } } ∧
    (registerRoom [.dbException "down"]).2.registrations = .empty ∧
    (registerRoom [.dbException "down"]).2.associations = .empty := by
  have h : registerRoom [.dbException "down"] =
      (some { errorCode := { code := .receiverInternalError } }, (registerRoom [.dbException "down"]).2) := rfl
  have hn : NothingStored { outcomes := [.dbException "down"] } 0 [roomRegistration] := .inl rfl
  exact ⟨rfl, (failed_registration_iff h (by decide)).2 hn⟩

/-- **Left behind**: `a1` is stored, then the lookup of subscriptions finds the database down. -/
theorem registerRoom_leaves_association :
    (registerRoom [.ok, .nullCursor]).1.map (fun a => a.errorCode.code) = some .receiverInternalError ∧
    ¬ ((registerRoom [.ok, .nullCursor]).2.registrations = .empty ∧
      (registerRoom [.ok, .nullCursor]).2.associations = .empty) := by
  refine ⟨rfl, fun h => ?_⟩
  have hd : (registerRoom [.ok, .nullCursor]).2.associations.docs.length = 1 := rfl
  rw [h.2] at hd
  cases hd

end OrionBroker.Register
