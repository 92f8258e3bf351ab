import OrionBroker.Backend.Balance

/-!
# Every failure of the database is answered

A call that throws or yields no cursor is to end in an answer of the operation. Two calls of the service
operations are outside of that: `registrationsQuery` reads its cursor without a test for null
(MongoGlobal.cpp:1513), and `ensureLocationIndex` of `createEntity` is in no `try` (MongoGlobal.cpp:461,
MongoCommonUpdate.cpp:1355). The queries for types read the `result` of the aggregation outside the `try`
(mongoQueryTypes.cpp:129): an error reply has none.

`failures_answered_iff`: which answers the database may give such that a request always returns.
-/

namespace OrionBroker

open Locks

/-! ## The requests -/

/-- `mongoEntityTypes` and `mongoAttributesForEntityType` (mongoQueryTypes.cpp:42, :208) make the same calls;
`null` is a reply without `result`. -/
def aggregationCalls : Op Unit := do
  reqSemTake
  match ← takenMongoSem (callOf .database) with
  | none => reqSemGive
  | some none => Cmd.throw .assertion
  | some (some _) => reqSemGive

inductive Request where
  | operation (op : Operation)
  | entityTypes
  | attributesForEntityType
deriving DecidableEq, Repr

def Request.calls : Request → Op Unit
  | .operation op => op.calls
  | .entityTypes => aggregationCalls
  | .attributesForEntityType => aggregationCalls

/-- Whether the request can come to ask the site. -/
def Request.asks : Request → Site → Bool
  | _, .database => true
  | _, .data => true
  | .operation .subscribeContextAvailability, .registrations => true
  | .operation (.updateContextAvailabilitySubscription id), .registrations => (oidOf id).isSome
  | .operation (.registerContext id), .registrations => id == "" || (oidOf id).isSome
  | .operation .queryContext, .registrations => true
  | .operation .updateContext, .registrations => true
  | .operation .discoverContextAvailability, .registrations => true
  | .operation .updateContext, .ensureIndex => true
  | _, _ => false

def Request.aggregates : Request → Bool
  | .operation _ => false
  | .entityTypes => true
  | .attributesForEntityType => true

/-- What the database may answer: any documents, read without an exception, and some of the failures. -/
structure Behaviour where
  may : Site → Answer → Prop
  returns : ∀ site reads, may site (.returns reads) ↔ QuietReads reads

/-- The answers are ones that the database may give, to calls the request can make. -/
def Request.Meets (request : Request) (b : Behaviour) (answers : Site → List Answer) : Prop :=
  ∀ site, ∀ a ∈ answers site, request.asks site = true ∧ b.may site a

/-- The failures that are not answered do not happen. -/
structure Request.Spared (request : Request) (b : Behaviour) : Prop where
  registrations : request.asks .registrations = true → ¬ b.may .registrations .null
  ensureIndex : request.asks .ensureIndex = true → ∀ e, ¬ b.may .ensureIndex (.throws e)
  aggregation : request.aggregates = true → ¬ b.may .database .null

/-! ## What is answered -/

theorem quietAnswers_of_meets {request : Request} {b : Behaviour} (hs : request.Spared b)
    {answers : Site → List Answer} (h : request.Meets b answers) : QuietAnswers answers := by
  intro site a ha
  obtain ⟨hk, hm⟩ := h site a ha
  cases a with
  | returns reads => exact (b.returns site reads).1 hm
  | null =>
    rintro rfl
    exact hs.registrations hk hm
  | throws e =>
    rintro rfl
    exact hs.ensureIndex hk e hm

/-- With an identifier that `OID()` rejects nothing is asked, and the operation returns. -/
theorem operation_rejected_returns {op : Operation} (h : ¬ op.IdAccepted) (answers : Site → List Answer) :
    (op.calls (semInit answers)).1 = .returns () := by
  unfold Operation.IdAccepted at h
  push Not at h
  obtain ⟨id, ho, hid⟩ := h
  obtain ⟨m', hm, _⟩ := operation_rejected ho (Bool.eq_false_iff.2 hid) (m := semInit answers) Nat.one_ne_zero
  rw [hm]

theorem aggregation_returns {answers : Site → List Answer} (h : ∀ a ∈ answers .database, a ≠ .null) :
    (aggregationCalls (semInit answers)).1 = .returns () := by
  cases hd : answers .database with
  | nil =>
    unfold aggregationCalls takenMongoSem callOf
    simp [bind, pure, reqSemTake, mongoSemTake, take, semInit, ask, Cmd.orElse, Machine.set, hd, mongoSemGive, give,
      reqSemGive]
  | cons a as =>
    have ha := h a (by simp [hd])
    unfold aggregationCalls takenMongoSem callOf
    cases a with
    | null => exact absurd rfl ha
    | returns reads =>
      simp [bind, pure, reqSemTake, mongoSemTake, take, semInit, ask, Cmd.orElse, Machine.set, hd, mongoSemGive, give,
        reqSemGive]
    | throws e =>
      simp [bind, pure, reqSemTake, mongoSemTake, take, semInit, ask, Cmd.orElse, Machine.set, hd, mongoSemGive, give,
        reqSemGive, Cmd.throw]

/-- With the spared failures, every request returns. -/
theorem spared_returns {request : Request} {b : Behaviour} (hs : request.Spared b) {answers : Site → List Answer}
    (h : request.Meets b answers) : (request.calls (semInit answers)).1 = .returns () := by
  have hagg : request.aggregates = true → ∀ a ∈ answers .database, a ≠ .null := by
    rintro hk a ha rfl
    exact hs.aggregation hk (h .database .null ha).2
  cases request with
  | operation op =>
    by_cases hid : op.IdAccepted
    · have hacc : (op, answers).1.IdAccepted := hid
      exact (serve_free (semInit_free answers) hacc (quietAnswers_of_meets hs h)).1
    · exact operation_rejected_returns hid answers
  | entityTypes => exact aggregation_returns (hagg rfl)
  | attributesForEntityType => exact aggregation_returns (hagg rfl)

/-! ## What is not answered -/

/-- On the way to a null cursor of `registrationsQuery`: documents are found by identifier, one registered element
has one subscription to notify, no entity is found. -/
def nullAnswers : Operation → Site → List Answer
  | .updateContextAvailabilitySubscription _ => answersOf [] [.null] [.returns [none]] []
  | .registerContext id =>
    if id = "" then answersOf [] [.null] [.returns [none]] [1, 0, 1]
    else answersOf [] [.null] [.returns [none], .returns [none]] [1, 0, 1]
  | .updateContext => answersOf [] [.null] [] [0, 1, 0, 1, 1]
  | _ => answersOf [] [.null] [] []

theorem null_crashes {op : Operation} (h : (Request.operation op).asks .registrations = true) :
    (op.calls (semInit (nullAnswers op))).1 = .stuck := by
  have hoid : ∀ {id}, (oidOf id).isSome = true → oidCall id = pure () := by
    intro id hid
    simp [oidCall, hid]
  cases op with
  | subscribeContextAvailability => rfl
  | updateContextAvailabilitySubscription id =>
    show (onFound id (writeThen processAvailabilitySubscriptionCalls) _).1 = _
    unfold onFound findOneById
    rw [hoid h]
    rfl
  | registerContext id =>
    unfold Operation.calls nullAnswers
    by_cases hid : id = ""
    · simp only [hid, if_true]
      rfl
    · simp only [hid, if_false]
      unfold onFound findOneById
      rw [hoid (by simpa [Request.asks, hid] using h)]
      rfl
  | queryContext => rfl
  | updateContext => rfl
  | discoverContextAvailability => rfl
  | subscribeContext => cases h
  | updateContextSubscription _ => cases h
  | unsubscribeContext _ => cases h
  | unsubscribeContextAvailability _ => cases h

/-- An APPEND of a new entity. -/
def appendAnswers (e : Exn) : Site → List Answer := answersOf [.throws e] [] [] [0, 1, 0, 1, 0, 1]

theorem ensureIndex_escapes (e : Exn) :
    ((Operation.updateContext).calls (semInit (appendAnswers e))).1 = .throws e := rfl

theorem aggregation_escapes :
    (aggregationCalls (semInit (answersOf [] [] [.null] []))).1 = .throws .assertion := rfl

/-- The answers of `answersOf`, when the failures in them may happen. -/
theorem meets_answersOf {request : Request} {b : Behaviour} {ensureIndex registrations database : List Answer}
    (data : List Nat) (he : ∀ a ∈ ensureIndex, request.asks .ensureIndex = true ∧ b.may .ensureIndex a)
    (hr : ∀ a ∈ registrations, request.asks .registrations = true ∧ b.may .registrations a)
    (hd : ∀ a ∈ database, b.may .database a) :
    request.Meets b (answersOf ensureIndex registrations database data) := by
  intro site a ha
  cases site with
  | ensureIndex => exact he a ha
  | registrations => exact hr a ha
  | database => exact ⟨by cases request <;> rfl, hd a ha⟩
  | data =>
    obtain ⟨n, _, rfl⟩ := List.mem_map.1 ha
    refine ⟨by cases request <;> rfl, (b.returns _ _).2 fun x hx => ?_⟩
    exact List.eq_of_mem_replicate hx

theorem meets_nullAnswers {op : Operation} {b : Behaviour} (hk : (Request.operation op).asks .registrations = true)
    (hm : b.may .registrations .null) : (Request.operation op).Meets b (nullAnswers op) := by
  have hnull : ∀ a ∈ [Answer.null], (Request.operation op).asks .registrations = true ∧ b.may .registrations a := by
    intro a ha
    rw [List.mem_singleton.1 ha]
    exact ⟨hk, hm⟩
  have hfound : ∀ n, ∀ a ∈ List.replicate n (Answer.returns [none]), b.may .database a := by
    intro n a ha
    rw [List.eq_of_mem_replicate ha, b.returns]
    exact fun x hx => List.mem_singleton.1 hx
  unfold nullAnswers
  split
  · exact meets_answersOf [] nofun hnull (hfound 1)
  · split
    · exact meets_answersOf [1, 0, 1] nofun hnull (hfound 1)
    · exact meets_answersOf [1, 0, 1] nofun hnull (hfound 2)
  · exact meets_answersOf [0, 1, 0, 1, 1] nofun hnull (hfound 0)
  · exact meets_answersOf [] nofun hnull (hfound 0)

/-- **Failures are answered**, exactly: whatever failures of its calls the database may show, a request returns in
every run with such answers if and only if, where it can come to make these calls, the query of the
registrations never yields a null cursor, `ensureIndex` never throws and the reply to an aggregation has a
result. -/
theorem failures_answered_iff (request : Request) (b : Behaviour) :
    (∀ answers, request.Meets b answers → (request.calls (semInit answers)).1 = .returns ()) ↔ request.Spared b := by
  constructor
  · intro h
    refine ⟨fun hk hm => ?_, fun hk e hm => ?_, fun hk hm => ?_⟩
    · cases request with
      | operation op =>
        have hr := h _ (meets_nullAnswers hk hm)
        rw [Request.calls, null_crashes hk] at hr
        cases hr
      | entityTypes => cases hk
      | attributesForEntityType => cases hk
    · have hop : request = .operation .updateContext := by
        cases request with
        | operation op => cases op <;> first | rfl | cases hk
        | entityTypes => cases hk
        | attributesForEntityType => cases hk
      subst hop
      have hmeets : (Request.operation .updateContext).Meets b (appendAnswers e) := by
        refine meets_answersOf _ (fun a ha => ?_) nofun nofun
        rw [List.mem_singleton.1 ha]
        exact ⟨rfl, hm⟩
      have hr := h _ hmeets
      rw [Request.calls, ensureIndex_escapes] at hr
      cases hr
    · have hmeets : request.Meets b (answersOf [] [] [.null] []) := by
        refine meets_answersOf _ nofun nofun fun a ha => ?_
        rw [List.mem_singleton.1 ha]
        exact hm
      have hr := h _ hmeets
      cases request with
      | operation op => cases hk
      | entityTypes =>
        rw [Request.calls, aggregation_escapes] at hr
        cases hr
      | attributesForEntityType =>
        rw [Request.calls, aggregation_escapes] at hr
        cases hr
  · intro hs answers hm
    exact spared_returns hs hm

/-- A database that may fail in every way. -/
def anyFailure : Behaviour where
  may _ a := ∀ reads, a = .returns reads → QuietReads reads
  returns site reads := ⟨fun h => h reads rfl, fun h reads' e => by cases e; exact h⟩

/-- **Not answered**: a query whose lookup of providers gets a null cursor, and an APPEND whose `ensureIndex`
throws. -/
theorem query_and_append_unanswered :
    ((Request.operation .queryContext).Meets anyFailure (nullAnswers .queryContext) ∧
      ((Operation.queryContext).calls (semInit (nullAnswers .queryContext))).1 = .stuck) ∧
    ((Request.operation .updateContext).Meets anyFailure (appendAnswers .db) ∧
      ((Operation.updateContext).calls (semInit (appendAnswers .db))).1 = .throws .db) := by
  refine ⟨⟨meets_nullAnswers rfl nofun, null_crashes rfl⟩, meets_answersOf _ (fun a ha => ?_) nofun nofun, rfl⟩
  rw [List.mem_singleton.1 ha]
  exact ⟨rfl, nofun⟩

end OrionBroker
