import OrionBroker.Backend.Semaphores

/-!
# The semaphores are given back

`operations_balanced`: with identifiers that `OID()` accepts, and as long as the calls outside the `try` blocks
go through, every operation leaves both semaphores as it found them, and no value above 1 is ever reached.
With an identifier that `OID()` rejects the mongo semaphore is given without having been taken.
-/

namespace OrionBroker

open Locks

/-- An answer that a call outside the `try` blocks can take: `ensureIndex` returns, `registrationsQuery` gets a
cursor, and reading a cursor does not throw. -/
def Quiet : Site → Answer → Prop
  | _, .returns reads => ∀ r ∈ reads, r = none
  | site, .null => site ≠ .registrations
  | site, .throws _ => site ≠ .ensureIndex

def semValues (req mongo : Nat) : Sem → Nat
  | .req => req
  | .mongo => mongo

/-- Both semaphores have the given values, nothing above 1 was seen, and the answers to come are quiet. -/
abbrev Held (req mongo : Nat) : Machine Sem Site Answer → Prop := At Quiet 1 (semValues req mongo)

theorem update_req (r k n : Nat) : Function.update (semValues r k) .req n = semValues n k := by
  funext s
  cases s <;> simp [semValues]

theorem update_mongo (r k n : Nat) : Function.update (semValues r k) .mongo n = semValues r n := by
  funext s
  cases s <;> simp [semValues]

section
variable {r k : Nat}

theorem runs_reqSemTake : Runs (Held 1 k) reqSemTake fun _ => Held 0 k := by
  have h := @runs_take Sem Site Answer Exn Quiet 1 (semValues 1 k) _ .req 0 rfl (by decide)
  rw [update_req] at h
  exact h

theorem runs_reqSemGive : Runs (Held 0 k) reqSemGive fun _ => Held 1 k := by
  have h := @runs_give Sem Site Answer Exn Quiet 1 (semValues 0 k) _ .req 0 rfl (by decide)
  rw [update_req] at h
  exact h

theorem runs_mongoSemTake : Runs (Held r 1) mongoSemTake fun _ => Held r 0 := by
  have h := @runs_take Sem Site Answer Exn Quiet 1 (semValues r 1) _ .mongo 0 rfl (by decide)
  rw [update_mongo] at h
  exact h

theorem runs_mongoSemGive : Runs (Held r 0) mongoSemGive fun _ => Held r 1 := by
  have h := @runs_give Sem Site Answer Exn Quiet 1 (semValues r 0) _ .mongo 0 rfl (by decide)
  rw [update_mongo] at h
  exact h

/-! ## Calls -/

/-- The reads of a cursor that do not throw. -/
def QuietReads (reads : List (Option Exn)) : Prop := ∀ x ∈ reads, x = none

theorem tries_callOf {site : Site} :
    Tries (Held r k) (callOf site)
      (fun o m => ((∀ reads, o = some reads → QuietReads reads) ∧ (site = .registrations → o ≠ none)) ∧ Held r k m)
      fun _ m => site ≠ .ensureIndex ∧ Held r k m := by
  refine (runs_ask (fun _ h => nomatch h)).tries.bind fun a => Tries.of_fact fun ha => ?_
  cases a with
  | returns reads =>
    exact Tries.pure fun m hm => ⟨⟨fun reads' h => by cases h; exact ha, nofun⟩, hm⟩
  | null => exact Tries.pure fun m hm => ⟨⟨nofun, fun h => absurd h ha⟩, hm⟩
  | throws e => exact Tries.throw fun m hm => ⟨ha, hm⟩

theorem tries_writeCall : Tries (Held r k) writeCall (fun _ => Held r k) fun _ => Held r k := by
  refine (tries_callOf.mono (fun _ _ h => h) fun _ _ h => h.2).bind fun o => Tries.of_fact fun _ => ?_
  exact Tries.pure fun m hm => hm

theorem tries_queryCall :
    Tries (Held r k) queryCall (fun reads m => QuietReads reads ∧ Held r k m) fun _ => Held r k := by
  refine (tries_callOf.mono (fun _ _ h => h) fun _ _ h => h.2).bind fun o => Tries.of_fact fun ho => ?_
  cases o with
  | none => exact Tries.throw fun m hm => hm
  | some reads => exact Tries.pure fun m hm => ⟨ho.1 reads rfl, hm⟩

theorem tries_findOneCall : Tries (Held r k) findOneCall (fun _ => Held r k) fun _ => Held r k := by
  refine (tries_callOf.mono (fun _ _ h => h) fun _ _ h => h.2).bind fun o => Tries.of_fact fun _ => ?_
  cases o with
  | none => exact Tries.throw fun m hm => hm
  | some reads => exact Tries.pure fun m hm => hm

theorem runs_number : Runs (Held r k) number fun _ => Held r k := by
  refine (runs_ask (fun _ h => nomatch h)).bind fun a => Runs.of_fact fun _ => ?_
  cases a <;> exact Runs.pure fun m hm => hm

theorem runs_test : Runs (Held r k) test fun _ => Held r k :=
  runs_number.bind fun _ => Runs.pure fun _ hm => hm

/-- A branch on the data. -/
theorem runs_ifTest {α : Type} {c d : Op α} {Q : α → Machine Sem Site Answer → Prop} (hc : Runs (Held r k) c Q)
    (hd : Runs (Held r k) d Q) : Runs (Held r k) (do if ← test then c else d) Q := by
  refine runs_test.bind fun b => ?_
  cases b with
  | true => exact hc
  | false => exact hd

theorem runs_whileMore {body : Op Bool} (h : Runs (Held r k) body fun _ => Held r k) {reads : List (Option Exn)}
    (hq : QuietReads reads) : Runs (Held r k) (whileMore body reads) fun _ => Held r k := by
  induction reads with
  | nil => exact Runs.pure fun m hm => hm
  | cons x reads ih =>
    have hx : x = none := hq x (by simp)
    subst hx
    refine h.bind fun b => ?_
    cases b with
    | true => exact ih fun y hy => hq y (by simp [hy])
    | false => exact Runs.pure fun m hm => hm

/-! ## The guarded calls -/

section
variable {α : Type} {c : Op α} {G : α → Prop}

/-- The mongo semaphore is given on both ways out. -/
theorem runs_given (hc : Tries (Held r 0) c (fun a m => G a ∧ Held r 0 m) fun _ => Held r 0) :
    Runs (Held r 0) (Cmd.orElse (do
      let a ← c
      mongoSemGive
      pure (some a)) fun _ => do
        mongoSemGive
        pure none) fun o m => (∀ a, o = some a → G a) ∧ Held r 1 m := by
  refine Runs.orElse (hc.bind fun a => Tries.of_fact fun ha => ?_) fun e => ?_
  · exact (runs_mongoSemGive.bind fun _ => Runs.pure fun m hm => ⟨fun b hb => by cases hb; exact ha, hm⟩).tries
  · exact runs_mongoSemGive.bind fun _ => Runs.pure fun m hm => ⟨nofun, hm⟩

theorem runs_takenMongoSem (hc : Tries (Held r 0) c (fun a m => G a ∧ Held r 0 m) fun _ => Held r 0) :
    Runs (Held r 1) (takenMongoSem c) fun o m => (∀ a, o = some a → G a) ∧ Held r 1 m :=
  runs_mongoSemTake.bind fun _ => runs_given hc

theorem runs_inMongoSem (hc : Tries (Held r 0) c (fun a m => G a ∧ Held r 0 m) fun _ => Held r 0) :
    Runs (Held r 1) (inMongoSem c) fun o m => (∀ a, o = some a → G a) ∧ Held r 1 m := by
  refine Runs.orElse (runs_mongoSemTake.tries.bind fun _ => hc.bind fun a => Tries.of_fact fun ha => ?_) fun e => ?_
  · exact (runs_mongoSemGive.bind fun _ => Runs.pure fun m hm => ⟨fun b hb => by cases hb; exact ha, hm⟩).tries
  · exact runs_mongoSemGive.bind fun _ => Runs.pure fun m hm => ⟨nofun, hm⟩

end

theorem runs_takenWrite : Runs (Held r 1) (takenMongoSem writeCall) fun _ => Held r 1 := by
  have hw := (@tries_writeCall r 0).mono (fun _ _ h => (⟨trivial, h⟩ : True ∧ _)) fun _ _ h => h
  exact (runs_takenMongoSem hw).mono fun _ _ h => h.2

theorem runs_inWrite : Runs (Held r 1) (inMongoSem writeCall) fun _ => Held r 1 := by
  have hw := (@tries_writeCall r 0).mono (fun _ _ h => (⟨trivial, h⟩ : True ∧ _)) fun _ _ h => h
  exact (runs_inMongoSem hw).mono fun _ _ h => h.2

theorem runs_inQuery :
    Runs (Held r 1) (inMongoSem queryCall) fun o m => (∀ reads, o = some reads → QuietReads reads) ∧ Held r 1 m :=
  runs_inMongoSem tries_queryCall

/-- Asking for the count first. -/
theorem tries_counted {α : Type} {c : Op α} {Q : α → Machine Sem Site Answer → Prop}
    (hc : Tries (Held r k) c Q fun _ => Held r k) :
    Tries (Held r k) (do
      if ← test then writeCall
      c) Q fun _ => Held r k := by
  refine runs_test.tries.bind fun b => ?_
  cases b with
  | true => exact tries_writeCall.bind fun _ => hc
  | false => exact hc

/-- With an identifier that `OID()` accepts. -/
theorem runs_findOneById {id : String} (hid : (oidOf id).isSome = true) :
    Runs (Held r 1) (findOneById id) fun _ => Held r 1 := by
  have hoid : oidCall id = pure () := by rw [oidCall, if_pos hid]
  unfold findOneById
  rw [hoid]
  refine Runs.orElse ((Runs.pure fun m hm => hm).tries.bind fun _ => runs_mongoSemTake.tries.bind fun _ =>
    tries_findOneCall.bind fun found => ?_) fun e => ?_
  · exact runs_mongoSemGive.tries.bind fun _ => Tries.pure fun m hm => hm
  · exact runs_mongoSemGive.bind fun _ => Runs.pure fun m hm => hm

/-! ## The functions the operations share -/

theorem runs_entitiesQuery : Runs (Held r 1) entitiesQueryCalls fun _ => Held r 1 := by
  refine (runs_takenMongoSem (tries_counted tries_queryCall)).bind fun o => Runs.of_fact fun ho => ?_
  cases o with
  | none => exact Runs.pure fun m hm => hm
  | some reads => exact (runs_whileMore runs_test (ho reads rfl)).bind fun _ => Runs.pure fun m hm => hm

theorem runs_registrationsQuery : Runs (Held r 1) registrationsQueryCalls fun _ => Held r 1 := by
  have hcall := (@tries_callOf r 0 .registrations).mono (fun _ _ h => h) fun _ _ h => h.2
  refine (runs_takenMongoSem (tries_counted hcall)).bind fun o => Runs.of_fact fun ho => ?_
  cases o with
  | none => exact Runs.pure fun m hm => hm
  | some o =>
    cases o with
    | none => exact absurd rfl ((ho none rfl).2 rfl)
    | some reads =>
      have hbody : Runs (Held r 1) (pure true : Op Bool) fun _ => Held r 1 := Runs.pure fun m hm => hm
      exact (runs_whileMore hbody ((ho _ rfl).1 reads rfl)).bind fun _ =>
        runs_test.bind fun _ => Runs.pure fun m hm => hm

theorem runs_processOnChangeCondition {condValues : Bool} :
    Runs (Held r 1) (processOnChangeConditionCalls condValues) fun _ => Held r 1 := by
  refine runs_entitiesQuery.bind fun o => ?_
  rcases o with _ | _ | _
  · exact Runs.pure fun m hm => hm
  · exact Runs.pure fun m hm => hm
  · cases condValues with
    | false => exact Runs.pure fun m hm => hm
    | true =>
      refine runs_entitiesQuery.bind fun o => ?_
      cases o with
      | none => exact Runs.pure fun m hm => hm
      | some _ => exact runs_test

theorem runs_processConditionVector : Runs (Held r 1) processConditionVectorCalls fun _ => Held r 1 := by
  refine runs_number.bind fun size => (Runs.times (runs_ifTest ?_ ?_) size).bind fun _ => Runs.pure fun m hm => hm
  · exact runs_processOnChangeCondition.bind fun _ => Runs.pure fun m hm => hm
  · exact Runs.pure fun m hm => hm

theorem runs_processAvailabilitySubscription :
    Runs (Held r 1) processAvailabilitySubscriptionCalls fun _ => Held r 1 := by
  refine runs_registrationsQuery.bind fun o => ?_
  rcases o with _ | _ | _
  · exact Runs.pure fun m hm => hm
  · exact Runs.pure fun m hm => hm
  · exact runs_takenWrite.bind fun _ => Runs.pure fun m hm => hm

theorem runs_addTriggeredSubscriptions : Runs (Held r 1) addTriggeredSubscriptionsCalls fun _ => Held r 1 := by
  refine runs_inQuery.bind fun o => Runs.of_fact fun ho => ?_
  cases o with
  | none => exact Runs.pure fun m hm => hm
  | some reads =>
    have hbody : Runs (Held r 1) (pure true : Op Bool) fun _ => Held r 1 := Runs.pure fun m hm => hm
    exact (runs_whileMore hbody (ho reads rfl)).bind fun _ => Runs.pure fun m hm => hm

/-! ## Updating entities -/

theorem runs_processSubscriptions : Runs (Held r 1) processSubscriptionsCalls fun _ => Held r 1 := by
  refine runs_number.bind fun subs => (Runs.times (runs_ifTest ?_ ?_) subs).bind fun _ => Runs.pure fun m hm => hm
  · exact Runs.pure fun m hm => hm
  · refine runs_processOnChangeCondition.bind fun sent => ?_
    cases sent with
    | true => exact runs_inWrite.bind fun _ => Runs.pure fun m hm => hm
    | false => exact Runs.pure fun m hm => hm

theorem runs_processContextAttributeVector :
    Runs (Held r 1) processContextAttributeVectorCalls fun _ => Held r 1 := by
  refine runs_number.bind fun size => (Runs.times (runs_ifTest ?_ (runs_ifTest ?_ ?_)) size).bind fun processed => ?_
  · exact Runs.pure fun m hm => hm
  · exact runs_addTriggeredSubscriptions
  · exact Runs.pure fun m hm => hm
  · cases processed with
    | true => exact runs_test
    | false => exact Runs.pure fun m hm => hm

theorem runs_ensureIndex : Runs (Held r k) (callOf .ensureIndex) fun _ => Held r k :=
  (tries_callOf.runs fun _ _ h => h.1 rfl).mono fun _ _ h => h.2

theorem runs_createEntity : Runs (Held r 1) createEntityCalls fun _ => Held r 1 := by
  have hrest : Runs (Held r 1) (do
      if ← test then pure false
      else do
        let inserted ← takenMongoSem writeCall
        pure inserted.isSome : Op Bool) fun _ => Held r 1 :=
    runs_ifTest (Runs.pure fun m hm => hm) (runs_takenWrite.bind fun _ => Runs.pure fun m hm => hm)
  refine runs_test.bind fun b => ?_
  cases b with
  | true => exact runs_ensureIndex.bind fun _ => hrest
  | false => exact hrest

theorem runs_processDocument : Runs (Held r 1) processDocumentCalls fun _ => Held r 1 := by
  refine runs_ifTest (Runs.pure fun m hm => hm) (runs_ifTest ?_ ?_)
  · exact runs_inWrite.bind fun _ => Runs.pure fun m hm => hm
  · refine runs_processContextAttributeVector.bind fun modified => ?_
    cases modified with
    | false => exact Runs.pure fun m hm => hm
    | true =>
      refine runs_inWrite.bind fun o => ?_
      cases o with
      | none => exact Runs.pure fun m hm => hm
      | some _ => exact runs_processSubscriptions.bind fun _ => Runs.pure fun m hm => hm

theorem runs_processNoDocument : Runs (Held r 1) processNoDocumentCalls fun _ => Held r 1 := by
  refine runs_ifTest ?_ ?_
  · exact runs_registrationsQuery.bind fun _ => Runs.pure fun m hm => hm
  · refine runs_createEntity.bind fun created => ?_
    cases created with
    | false => exact Runs.pure fun m hm => hm
    | true =>
      refine runs_number.bind fun size => (Runs.times runs_addTriggeredSubscriptions size).bind fun added => ?_
      cases added with
      | true => exact runs_processSubscriptions
      | false => exact Runs.pure fun m hm => hm

theorem runs_processContextElement : Runs (Held r 1) processContextElementCalls fun _ => Held r 1 := by
  refine runs_ifTest (Runs.pure fun m hm => hm) (runs_inQuery.bind fun o => Runs.of_fact fun ho => ?_)
  cases o with
  | none => exact Runs.pure fun m hm => hm
  | some reads =>
    refine (runs_whileMore runs_processDocument (ho reads rfl)).bind fun _ => ?_
    exact runs_ifTest runs_processNoDocument (Runs.pure fun m hm => hm)

/-! ## Registering and discovering -/

theorem runs_processAssociations : Runs (Held r 1) processAssociationsCalls fun _ => Held r 1 := by
  refine runs_number.bind fun size => Runs.times (runs_ifTest ?_ ?_) size
  · exact runs_inWrite.bind fun _ => Runs.pure fun m hm => hm
  · exact Runs.pure fun m hm => hm

theorem runs_processRegisterContext : Runs (Held r 1) processRegisterContextCalls fun _ => Held r 1 := by
  refine runs_number.bind fun size => (Runs.times (runs_processAssociations.bind fun b => ?_) size).bind fun b => ?_
  · cases b with
    | true => exact runs_addTriggeredSubscriptions
    | false => exact Runs.pure fun m hm => hm
  · cases b with
    | false => exact Runs.pure fun m hm => hm
    | true =>
      refine runs_inWrite.bind fun o => ?_
      cases o with
      | none => exact Runs.pure fun m hm => hm
      | some _ =>
        refine runs_number.bind fun subs => (Runs.times ?_ subs).bind fun _ => Runs.pure fun m hm => hm
        exact runs_processAvailabilitySubscription.bind fun _ => Runs.pure fun m hm => hm

theorem runs_associationsDiscover : Runs (Held r 1) associationsDiscoverCalls fun _ => Held r 1 := by
  refine runs_ifTest (Runs.pure fun m hm => hm) (runs_inQuery.bind fun o => Runs.of_fact fun ho => ?_)
  cases o with
  | none => exact Runs.pure fun m hm => hm
  | some reads =>
    have hbody : Runs (Held r 1) (pure true : Op Bool) fun _ => Held r 1 := Runs.pure fun m hm => hm
    refine (runs_whileMore hbody (ho reads rfl)).bind fun _ => runs_number.bind fun size => ?_
    refine (Runs.times ?_ size).bind fun _ => Runs.pure fun m hm => hm
    exact runs_registrationsQuery.bind fun _ => Runs.pure fun m hm => hm

end

/-! ## The operations -/

theorem runs_onFound {id : String} (hid : (oidOf id).isSome = true) {next : Op Unit}
    (hn : Runs (Held 0 1) next fun _ => Held 1 1) : Runs (Held 1 1) (onFound id next) fun _ => Held 1 1 := by
  refine runs_reqSemTake.bind fun _ => (runs_findOneById hid).bind fun o => ?_
  rcases o with _ | _ | _
  · exact runs_reqSemGive
  · exact runs_reqSemGive
  · exact hn

theorem runs_writeThen {rest : Op Unit} (h : Runs (Held 0 1) rest fun _ => Held 0 1) :
    Runs (Held 0 1) (writeThen rest) fun _ => Held 1 1 := by
  refine runs_inWrite.bind fun o => ?_
  cases o with
  | none => exact runs_reqSemGive
  | some _ => exact h.bind fun _ => runs_reqSemGive

/-- The identifier that the operation gives to `OID()`. -/
def Operation.oid : Operation → Option String
  | .updateContextSubscription id | .unsubscribeContext id => some id
  | .updateContextAvailabilitySubscription id | .unsubscribeContextAvailability id => some id
  | .registerContext id => if id = "" then none else some id
  | .subscribeContext | .subscribeContextAvailability | .queryContext | .updateContext => none
  | .discoverContextAvailability => none

/-- `OID()` accepts the identifier, if there is one. -/
def Operation.IdAccepted (op : Operation) : Prop := ∀ id, op.oid = some id → (oidOf id).isSome = true

instance (op : Operation) : Decidable op.IdAccepted :=
  match h : op.oid with
  | none => .isTrue fun id hid => by rw [h] at hid; cases hid
  | some id =>
    decidable_of_iff ((oidOf id).isSome = true)
      ⟨fun hi id' hid => by rw [h] at hid; cases hid; exact hi, fun hi => hi id h⟩

theorem runs_operation {op : Operation} (h : op.IdAccepted) : Runs (Held 1 1) op.calls fun _ => Held 1 1 := by
  have hnothing : Runs (Held 0 1) (pure () : Op Unit) fun _ => Held 0 1 := Runs.pure fun m hm => hm
  cases op with
  | subscribeContext =>
    exact runs_reqSemTake.bind fun _ => runs_processConditionVector.bind fun _ => runs_writeThen hnothing
  | updateContextSubscription id =>
    refine runs_onFound (h id rfl) (runs_test.bind fun b => ?_)
    cases b with
    | true => exact runs_processConditionVector.bind fun _ => runs_writeThen hnothing
    | false => exact runs_writeThen hnothing
  | unsubscribeContext id => exact runs_onFound (h id rfl) (runs_writeThen hnothing)
  | subscribeContextAvailability =>
    exact runs_reqSemTake.bind fun _ => runs_writeThen runs_processAvailabilitySubscription
  | updateContextAvailabilitySubscription id =>
    exact runs_onFound (h id rfl) (runs_writeThen runs_processAvailabilitySubscription)
  | unsubscribeContextAvailability id => exact runs_onFound (h id rfl) (runs_writeThen hnothing)
  | registerContext id =>
    unfold Operation.calls
    by_cases hid : id = ""
    · simp only [hid, if_true]
      exact runs_reqSemTake.bind fun _ => runs_processRegisterContext.bind fun _ => runs_reqSemGive
    · simp only [hid, if_false]
      exact runs_onFound (h id (if_neg hid)) (runs_processRegisterContext.bind fun _ => runs_reqSemGive)
  | queryContext =>
    refine runs_reqSemTake.bind fun _ => runs_entitiesQuery.bind fun found => runs_reqSemGive.bind fun _ => ?_
    by_cases hf : found = some false
    · simp only [hf, if_true]
      exact runs_registrationsQuery.bind fun _ => Runs.pure fun m hm => hm
    · simp only [hf, if_false]
      exact Runs.pure fun m hm => hm
  | updateContext =>
    refine runs_reqSemTake.bind fun _ => runs_ifTest runs_reqSemGive (runs_number.bind fun size => ?_)
    refine (Runs.times ?_ size).bind fun _ => runs_reqSemGive
    exact runs_processContextElement.bind fun _ => Runs.pure fun m hm => hm
  | discoverContextAvailability =>
    refine runs_reqSemTake.bind fun _ => runs_ifTest ?_ ?_
    · exact runs_associationsDiscover.bind fun _ => runs_reqSemGive
    · exact runs_registrationsQuery.bind fun _ => runs_reqSemGive

/-! ## An identifier that `OID()` rejects -/

/-- The handlers give the mongo semaphore, which was not taken. -/
theorem onFound_rejected {id : String} (hid : (oidOf id).isSome = false) (next : Op Unit)
    {m : Machine Sem Site Answer} (hm : m.value .req ≠ 0) :
    ∃ m', onFound id next m = (.returns (), m') ∧ m'.value .mongo = m.value .mongo + 1 := by
  have hoid : oidCall id = Cmd.throw .assertion := by simp [oidCall, hid]
  have htake : reqSemTake m = (.returns (), m.set .req (m.value .req - 1)) := by simp [reqSemTake, take, hm]
  have hfind : ∀ m : Machine Sem Site Answer,
      findOneById id m = (.returns none, m.set .mongo (m.value .mongo + 1)) := by
    intro m
    unfold findOneById
    rw [hoid]
    exact orElse_throws (bind_throws rfl)
  unfold onFound
  rw [bind_returns htake, bind_returns (hfind _)]
  refine ⟨_, rfl, ?_⟩
  simp [Machine.set]

theorem operation_rejected {op : Operation} {id : String} (ho : op.oid = some id) (hid : (oidOf id).isSome = false)
    {m : Machine Sem Site Answer} (hm : m.value .req ≠ 0) :
    ∃ m', op.calls m = (.returns (), m') ∧ m'.value .mongo = m.value .mongo + 1 := by
  cases op with
  | updateContextSubscription _ => cases ho; exact onFound_rejected hid _ hm
  | unsubscribeContext _ => cases ho; exact onFound_rejected hid _ hm
  | updateContextAvailabilitySubscription _ => cases ho; exact onFound_rejected hid _ hm
  | unsubscribeContextAvailability _ => cases ho; exact onFound_rejected hid _ hm
  | registerContext id' =>
    unfold Operation.oid at ho
    by_cases he : id' = ""
    · simp [he] at ho
    · simp only [he, if_false, Option.some.injEq] at ho
      subst ho
      unfold Operation.calls
      simp only [he, if_false]
      exact onFound_rejected hid _ hm
  | subscribeContext => cases ho
  | subscribeContextAvailability => cases ho
  | queryContext => cases ho
  | updateContext => cases ho
  | discoverContextAvailability => cases ho

/-! ## Runs -/

/-- The answers a request meets are quiet. -/
def QuietAnswers (answers : Site → List Answer) : Prop := ∀ site, ∀ a ∈ answers site, Quiet site a

/-- Both semaphores are free and have never been above 1. -/
def Free (m : Machine Sem Site Answer) : Prop := m.value = semValues 1 1 ∧ ∀ n ∈ m.noted, n ≤ 1

theorem serve_free {m : Machine Sem Site Answer} (hm : Free m) {request : Operation × (Site → List Answer)}
    (hid : request.1.IdAccepted) (hq : QuietAnswers request.2) :
    (serve m request).1 = .returns () ∧ Free (serve m request).2 := by
  obtain ⟨a, m', h, hh⟩ := runs_operation hid { m with answers := request.2 } ⟨hm.1, hq, hm.2⟩
  rw [serve, h]
  exact ⟨rfl, hh.value, hh.noted⟩

theorem serveAll_free {requests : List (Operation × (Site → List Answer))}
    (h : ∀ request ∈ requests, request.1.IdAccepted ∧ QuietAnswers request.2) {m : Machine Sem Site Answer}
    (hm : Free m) : ∀ out ∈ serveAll m requests, out.1 = .returns () ∧ Free out.2 := by
  induction requests generalizing m with
  | nil => simp [serveAll]
  | cons request requests ih =>
    have hr := h request (by simp)
    have hs := serve_free hm hr.1 hr.2
    intro out hout
    rcases List.mem_cons.1 hout with rfl | hout
    · exact hs
    · exact ih (fun q hq => h q (by simp [hq])) hs.2 out hout

theorem semInit_free (answers : Site → List Answer) : Free (semInit answers) := by
  refine ⟨?_, nofun⟩
  funext s
  cases s <;> rfl

/-- **The semaphores stay balanced**, when the calls outside the `try` blocks go through. One operation gives both
semaphores back exactly when `OID()` accepts its identifier. In any sequence of operations whose identifiers
it accepts, each one returns with both semaphores free, and none was ever above 1. -/
theorem operations_balanced (op : Operation) (answers : Site → List Answer)
    (requests : List (Operation × (Site → List Answer))) :
    (QuietAnswers answers →
      ((serve (semInit answers) (op, answers)).2.value = (semInit answers).value ↔ op.IdAccepted)) ∧
    ((∀ request ∈ requests, request.1.IdAccepted ∧ QuietAnswers request.2) →
      ∀ out ∈ serveAll (semInit answers) requests, out.1 = .returns () ∧ Free out.2) := by
  constructor
  · intro hq
    constructor
    · intro hv id ho
      by_contra hid
      obtain ⟨m', h, hn⟩ := operation_rejected ho (Bool.not_eq_true _ ▸ hid) (m := semInit answers) Nat.one_ne_zero
      have hm := congrFun hv .mongo
      rw [show serve (semInit answers) (op, answers) = op.calls (semInit answers) from rfl, h, hn] at hm
      exact absurd hm (Nat.succ_ne_self _)
    · intro hid
      rw [(serve_free (semInit_free answers) hid hq).2.1, (semInit_free answers).1]
  · intro h
    exact serveAll_free h (semInit_free answers)

/-- Answers by site; a decision is given by its number. -/
def answersOf (ensureIndex registrations database : List Answer) (data : List Nat) : Site → List Answer
  | .ensureIndex => ensureIndex
  | .registrations => registrations
  | .database => database
  | .data => data.map fun n => .returns (List.replicate n none)

/-- An insert that fails, a query that finds two entities, an unsubscription, and an APPEND of a new entity. -/
def fourRequests : List (Operation × (Site → List Answer)) := [
  (.subscribeContext, answersOf [] [] [.throws .db] []),
  (.queryContext, answersOf [] [] [.returns [none, none]] [0, 1, 1]),
  (.unsubscribeContext "0123456789abcdef01234567", answersOf [] [] [.returns [none], .throws .other] []),
  (.updateContext, answersOf [.returns []] [] [] [0, 1, 0, 1, 0, 1, 0, 1])]

theorem fourRequests_quiet : ∀ request ∈ fourRequests, request.1.IdAccepted ∧ QuietAnswers request.2 := by
  intro request hr
  simp only [fourRequests, List.mem_cons, List.not_mem_nil, or_false] at hr
  rcases hr with rfl | rfl | rfl | rfl <;> refine ⟨by decide, fun site => ?_⟩ <;> cases site <;>
    simp [answersOf, Quiet]

theorem fourRequests_balanced :
    (serveAll (semInit fun _ => []) fourRequests).length = 4 ∧
    (∀ out ∈ serveAll (semInit fun _ => []) fourRequests, out.1 = .returns () ∧ Free out.2) ∧
    ((serve (semInit fun _ => []) (.unsubscribeContext "0123456789abcdef01234567", fun _ => [])).2.value =
        (semInit fun _ => []).value) :=
  have h := operations_balanced (.unsubscribeContext "0123456789abcdef01234567") (fun _ => []) fourRequests
  ⟨by decide, h.2 fourRequests_quiet, (h.1 nofun).2 (by decide)⟩

/-- An unsubscription with the identifier `1` leaves the mongo semaphore at 2; an APPEND of a new entity whose
`ensureIndex` throws leaves the request semaphore taken, and the next request waits for it. -/
theorem rejected_id_unbalanced :
    ((serve (semInit fun _ => []) (.unsubscribeContext "1", fun _ => [])).1 = .returns () ∧
      (serve (semInit fun _ => []) (.unsubscribeContext "1", fun _ => [])).2.value .mongo = 2) ∧
    ((serveAll (semInit fun _ => [])
        [(.updateContext, answersOf [.throws .db] [] [] [0, 1, 0, 1, 0, 1]), (.queryContext, fun _ => [])]).map
      fun out => (out.1, out.2.value .req)) = [(.throws .db, 0), (.stuck, 0)] := by
  decide

end OrionBroker
