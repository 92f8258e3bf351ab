import OrionBroker.Common.Url
import OrionBroker.Render.Answers

/-!
# Responses from elsewhere (postUpdateContext.cpp:184-341, AppendContextElementResponse.cpp, UpdateContextElementResponse.cpp)

A response has an error code or a vector of context element responses. Three functions take element 0 of the vector:
`postUpdateContext`, of what a context provider answers, and two `fill` functions, of what `postUpdateContext` leaves.

| here | there |
| --- | --- |
| `Provider`                | the socket and the XML parser, whatever they give |
| `redirect`                | step 6 of the loop (postUpdateContext.cpp:328-338) |
| `forward`                 | one turn of the loop (:184-339) |
| `forwardLoop`             | the loop |
| `settledErrorCode`        | the end of both `fill` functions (AppendContextElementResponse.cpp:151-190) |
| `AppendContextElementResponse.fill` | the same (AppendContextElementResponse.cpp:139), of a new object |
| `UpdateContextElementResponse.fill` | the same (UpdateContextElementResponse.cpp:134), of a new object |

`operator[]` returns NULL behind the end of the vector. Only `UpdateContextElementResponse.fill` keeps away from it;
and the provider's error code is read by nobody.
-/

namespace OrionBroker.Answer

open Url

/-! ## `postUpdateContext` -/

structure Provider where
  /-- The text that `sendHttpSocket` returns for an update with this action and this element. -/
  sendHttpSocket : UrlParts → (resource : List Char) → (updateActionType : String) → ContextElement → String
  /-- What `xmlTreat` makes of the text when it returns `OK`. -/
  xmlTreat : List Char → Option UpdateContextResponse

inductive Fault
  /-- A member of the NULL element. -/
  | nullElement
  /-- A token of a url that is not there. -/
  | urlToken
deriving DecidableEq

inductive Forwarded
  /-- The element of the vector afterwards. -/
  | element (cer : ContextElementResponse)
  /-- The function returns with this. -/
  | answer (ucrs : UpdateContextResponse)

/-- What stands from the first occurrence on. -/
def strstr (text word : List Char) : Option (List Char) := text.tails.find? word.isPrefixOf

def ContextElement.fill (ce : ContextElement) : ContextElement :=
  { entityId := { id := ce.entityId.id, type := ce.entityId.type, isPattern := ce.entityId.isPattern }
    attributeDomainName := ce.attributeDomainName
    contextAttributeVector := ce.contextAttributeVector
    domainMetadataVector := ce.domainMetadataVector }

/-- `StatusCode::fill` of another status code. -/
def StatusCode.copy (s : StatusCode) : StatusCode := StatusCode.fill s.code s.details

def redirect (provUpcrsP : UpdateContextResponse) (parts : UrlParts) : Option ContextElementResponse := do
  let element ← provUpcrsP.contextElementResponseVector[0]?
  let statusCode := element.statusCode.copy
  some
    { contextElement := element.contextElement.fill
      statusCode :=
        if statusCode.details = "" then
          { statusCode with
            details := "Redirected to context provider " ++ String.ofList parts.host ++ ":" ++ toString parts.port ++
              String.ofList parts.path }
        else statusCode }

def forward (provider : Provider) (updateActionType : String) (cerP : ContextElementResponse) : Except Fault Forwarded :=
  if cerP.statusCode.code ≠ 302 then .ok (.element cerP)
  else
    match parseUrl cerP.statusCode.details {} with
    | none => .error .urlToken
    | some (false, _) =>
      .ok (.element { cerP with statusCode := StatusCode.fill 500 "error parsing providing application" })
    | some (true, parts) =>
      let resource := parts.path ++ "/updateContext".toList
      let out := provider.sendHttpSocket parts resource updateActionType cerP.contextElement.fill
      if out = "error" ∨ out = "" then .ok (.element { cerP with statusCode := StatusCode.fill 404 "" })
      else
        match strstr (cStr out) "<updateContextResponse>".toList with
        | none => .ok (.answer { errorCode := StatusCode.fill 404 "invalid context provider response" })
        | some cleanPayload =>
          match provider.xmlTreat cleanPayload with
          | none => .ok (.element { cerP with statusCode := StatusCode.fill 404 "" })
          | some provUpcrsP =>
            match redirect provUpcrsP parts with
            | none => .error .nullElement
            | some cer => .ok (.element cer)

/-- `done` is the part of the vector the loop has passed. -/
def forwardLoop (provider : Provider) (updateActionType : String) (done : List ContextElementResponse) :
    List ContextElementResponse → Except Fault UpdateContextResponse
  | [] => .ok { contextElementResponseVector := done }
  | cerP :: vec =>
    match forward provider updateActionType cerP with
    | .error fault => .error fault
    | .ok (.answer ucrs) => .ok ucrs
    | .ok (.element cer) => forwardLoop provider updateActionType (done ++ [cer]) vec

/-! ## The `fill` functions -/

structure ContextAttributeResponse where
  contextAttributeVector : List ContextAttribute := []
  statusCode : StatusCode := {}

/-- `ContextAttributeResponseVector::fill` of an empty vector (ContextAttributeResponseVector.cpp:162). -/
def contextAttributeResponses (cer : ContextElementResponse) : List ContextAttributeResponse :=
  [{ contextAttributeVector := cer.contextElement.contextAttributeVector, statusCode := cer.statusCode.copy }]

/-- Neither `SccNone` nor `SccOk`. -/
def StatusCode.isError (s : StatusCode) : Prop := s.code ≠ 0 ∧ s.code ≠ 200

instance (s : StatusCode) : Decidable s.isError := inferInstanceAs (Decidable (_ ∧ _))

def settledErrorCode (ucrsP : UpdateContextResponse) (vec : List ContextAttributeResponse) : StatusCode :=
  let errorCode := ucrsP.errorCode.copy
  let errorCode :=
    match vec with
    | [] => if errorCode.code ≠ 404 then StatusCode.fill 404 "" else errorCode
    | [r] =>
      if errorCode.code ≠ 404 ∧ r.statusCode.code = 404 then StatusCode.fill 404 ""
      else if ¬ errorCode.isError ∧ r.statusCode.isError then r.statusCode.copy
      else errorCode
    | _ => errorCode
  match ucrsP.contextElementResponseVector with
  | [cer] =>
    if errorCode.code = 404 ∧ errorCode.details = "" then
      { errorCode with details := cer.contextElement.entityId.id }
    else errorCode
  | _ => errorCode

structure AppendContextElementResponse where
  errorCode : StatusCode := {}
  entity : EntityId := emptyEntity
  contextAttributeResponseVector : List ContextAttributeResponse := []

/-- The entity is taken from element 0 outside the test on the size. -/
def AppendContextElementResponse.fill (ucrsP : UpdateContextResponse) : Option AppendContextElementResponse := do
  let vec ←
    if ucrsP.contextElementResponseVector.length ≠ 0 then do
      let cerP ← ucrsP.contextElementResponseVector[0]?
      some (contextAttributeResponses cerP)
    else some []
  let cerP ← ucrsP.contextElementResponseVector[0]?
  some
    { contextAttributeResponseVector := vec
      entity := cerP.contextElement.fill.entityId
      errorCode := settledErrorCode ucrsP vec }

structure UpdateContextElementResponse where
  errorCode : StatusCode := {}
  contextAttributeResponseVector : List ContextAttributeResponse := []

def UpdateContextElementResponse.fill (ucrsP : UpdateContextResponse) : Option UpdateContextElementResponse := do
  let vec ←
    if ucrsP.contextElementResponseVector.length ≠ 0 then do
      let cerP ← ucrsP.contextElementResponseVector[0]?
      some (contextAttributeResponses cerP)
    else some []
  some { contextAttributeResponseVector := vec, errorCode := settledErrorCode ucrsP vec }

/-! ## What comes out -/

/-- The response carries an error, or nothing at all. -/
def UpdateContextResponse.failed (ucrs : UpdateContextResponse) : Prop :=
  ucrs.errorCode.isError ∨ ucrs.contextElementResponseVector = []

/-- The three functions that take element 0. -/
inductive Consumer
  | postUpdateContext (parts : UrlParts)
  | append
  | update

/-- The status that shows whether the resulting response carries an error: that of the element, as it is rendered at
the end of `postUpdateContext`, or the error code. -/
def Consumer.status : Consumer → UpdateContextResponse → Option StatusCode
  | .postUpdateContext parts, given => (redirect given parts).map fun cer => cer.statusCode.settled
  | .append, given => (AppendContextElementResponse.fill given).map fun response => response.errorCode
  | .update, given => (UpdateContextElementResponse.fill given).map fun response => response.errorCode

/-- NULL is not dereferenced, and an error stays an error. -/
def Handled (consumer : Consumer) (given : UpdateContextResponse) : Prop :=
  ∃ status, consumer.status given = some status ∧ (given.failed → status.isError)

/-- There is an element; and for `postUpdateContext` there is no error code, or the element has an error itself. -/
def HandledCondition : Consumer → UpdateContextResponse → Prop
  | .postUpdateContext _, given =>
    ∃ cer, given.contextElementResponseVector.head? = some cer ∧
      (given.errorCode.isError → cer.statusCode.code ≠ 200)
  | .append, given => given.contextElementResponseVector ≠ []
  | .update, _ => True

section Fill

variable {given : UpdateContextResponse} {vec : List ContextAttributeResponse}

theorem isError_fill_404 (details : String) : (StatusCode.fill 404 details).isError := by
  constructor <;> simp [StatusCode.fill]

theorem isError_copy {s : StatusCode} : s.copy.isError ↔ s.isError := Iff.rfl

theorem isError_settled {s : StatusCode} : s.settled.isError ↔ s.code ≠ 200 := by
  unfold StatusCode.settled StatusCode.isError
  by_cases h : s.code = 0
  · simp [h, StatusCode.fill]
  · simp [h]

/-- The details that are put in at the end change nothing. -/
theorem isError_settledErrorCode (h : vec = [] ∨ given.errorCode.isError) : (settledErrorCode given vec).isError := by
  have hwith : ∀ (s : StatusCode) (text : String), s.isError → StatusCode.isError { s with details := text } :=
    fun _ _ hs => hs
  have hnamed : ∀ s : StatusCode, s.isError →
      (match given.contextElementResponseVector with
        | [cer] =>
          if s.code = 404 ∧ s.details = "" then { s with details := cer.contextElement.entityId.id } else s
        | _ => s).isError := by
    intro s hs
    split
    · split_ifs
      · exact hwith s _ hs
      · exact hs
    · exact hs
  unfold settledErrorCode
  apply hnamed
  rcases vec with _ | ⟨r, _ | ⟨r', rest⟩⟩
  · dsimp only
    split_ifs with hcode
    · exact isError_fill_404 ""
    · rw [not_not] at hcode
      simp [StatusCode.isError, hcode]
  · have herr : given.errorCode.copy.isError := isError_copy.mpr (h.resolve_left (by simp))
    dsimp only
    split_ifs with hnotFound hmoved
    · exact isError_fill_404 ""
    · exact absurd herr hmoved.1
    · exact herr
  · exact isError_copy.mpr (h.resolve_left (by simp))

theorem fill_append_eq_none (h : given.contextElementResponseVector = []) :
    AppendContextElementResponse.fill given = none := by
  simp [AppendContextElementResponse.fill, h]

theorem fill_append_eq_some {cer : ContextElementResponse} {rest : List ContextElementResponse}
    (h : given.contextElementResponseVector = cer :: rest) :
    AppendContextElementResponse.fill given =
      some
        { contextAttributeResponseVector := contextAttributeResponses cer
          entity := cer.contextElement.fill.entityId
          errorCode := settledErrorCode given (contextAttributeResponses cer) } := by
  simp [AppendContextElementResponse.fill, h]

theorem failed_iff_of_cons {cer : ContextElementResponse} {rest : List ContextElementResponse}
    (h : given.contextElementResponseVector = cer :: rest) : given.failed ↔ given.errorCode.isError := by
  simp [UpdateContextResponse.failed, h]

theorem handled_append_iff : Handled .append given ↔ given.contextElementResponseVector ≠ [] := by
  simp only [Handled, Consumer.status]
  rcases hvec : given.contextElementResponseVector with _ | ⟨cer, rest⟩
  · simp [fill_append_eq_none hvec]
  · refine iff_of_true ⟨_, by rw [fill_append_eq_some hvec]; rfl, fun hfailed => ?_⟩ (by simp)
    exact isError_settledErrorCode (.inr ((failed_iff_of_cons hvec).mp hfailed))

theorem fill_update_eq_of_nil (h : given.contextElementResponseVector = []) :
    UpdateContextElementResponse.fill given = some { errorCode := settledErrorCode given [] } := by
  simp [UpdateContextElementResponse.fill, h]

theorem fill_update_eq_some {cer : ContextElementResponse} {rest : List ContextElementResponse}
    (h : given.contextElementResponseVector = cer :: rest) :
    UpdateContextElementResponse.fill given =
      some
        { contextAttributeResponseVector := contextAttributeResponses cer
          errorCode := settledErrorCode given (contextAttributeResponses cer) } := by
  simp [UpdateContextElementResponse.fill, h]

theorem handled_update : Handled .update given := by
  simp only [Handled, Consumer.status]
  rcases hvec : given.contextElementResponseVector with _ | ⟨cer, rest⟩
  · exact ⟨_, by rw [fill_update_eq_of_nil hvec]; rfl, fun _ => isError_settledErrorCode (.inl rfl)⟩
  · refine ⟨_, by rw [fill_update_eq_some hvec]; rfl, fun hfailed => ?_⟩
    exact isError_settledErrorCode (.inr ((failed_iff_of_cons hvec).mp hfailed))

theorem redirect_eq_none {parts : UrlParts} (h : given.contextElementResponseVector = []) :
    redirect given parts = none := by
  simp [redirect, h]

/-- The status of element 0 is taken over, but for the details; the error code is not looked at. -/
theorem redirect_code (parts : UrlParts) {cer : ContextElementResponse} {rest : List ContextElementResponse}
    (h : given.contextElementResponseVector = cer :: rest) :
    ∃ cer', redirect given parts = some cer' ∧ cer'.statusCode.code = cer.statusCode.code := by
  refine ⟨_, by rw [redirect, h]; rfl, ?_⟩
  dsimp only
  split_ifs <;> rfl

theorem handled_postUpdateContext_iff {parts : UrlParts} :
    Handled (.postUpdateContext parts) given ↔ HandledCondition (.postUpdateContext parts) given := by
  unfold Handled HandledCondition Consumer.status
  rcases hvec : given.contextElementResponseVector with _ | ⟨cer, rest⟩
  · simp [redirect_eq_none hvec, hvec]
  · obtain ⟨cer', hredirect, hcode⟩ := redirect_code parts hvec
    simp [hredirect, failed_iff_of_cons hvec, isError_settled, hcode, hvec]

end Fill

/-- **A response is handled exactly when there is an element 0, and in `postUpdateContext` no error code is hidden by its
200.** `UpdateContextElementResponse.fill` handles every response. -/
theorem handled_iff (consumer : Consumer) (given : UpdateContextResponse) :
    Handled consumer given ↔ HandledCondition consumer given := by
  cases consumer with
  | postUpdateContext parts => exact handled_postUpdateContext_iff
  | append => exact handled_append_iff
  | update => exact iff_of_true handled_update trivial

/-- An error code without elements, and an error code beside an element that has none. -/
theorem handled_fails :
    ¬ Handled .append { errorCode := StatusCode.fill 404 "" } ∧
      ¬ Handled (.postUpdateContext {}) { errorCode := StatusCode.fill 404 "" } ∧
      ¬ Handled (.postUpdateContext {})
        { errorCode := StatusCode.fill 404 ""
          contextElementResponseVector :=
            [{ contextElement := { entityId := emptyEntity }, statusCode := StatusCode.fill 200 "" }] } := by
  refine ⟨fun h => ?_, fun h => ?_, fun h => ?_⟩
  · exact absurd rfl (handled_append_iff.mp h)
  · obtain ⟨cer, hcer, -⟩ := handled_postUpdateContext_iff.mp h
    simp at hcer
  · obtain ⟨cer, hcer, hcode⟩ := handled_postUpdateContext_iff.mp h
    simp only [List.head?_cons, Option.some.injEq] at hcer
    subst hcer
    exact hcode (isError_fill_404 "") rfl

/-! ## The loop

The outside is a parameter, so this is about every answer of every provider: where all are handled, the loop
dereferences nothing, and every element for which somebody answered with an error has an error in the end.
-/

section Loop

variable {provider : Provider} {updateActionType : String} {cerP cer : ContextElementResponse}
variable {given : UpdateContextResponse} {parts : UrlParts}

/-- The provider of this element has answered so that step 6 is reached. -/
structure Answered (provider : Provider) (updateActionType : String) (cerP : ContextElementResponse)
    (given : UpdateContextResponse) (parts : UrlParts) : Prop where
  found : cerP.statusCode.code = 302
  parsed : parseUrl cerP.statusCode.details {} = some (true, parts)
  treated : ∃ out payload,
    out = provider.sendHttpSocket parts (parts.path ++ "/updateContext".toList) updateActionType cerP.contextElement.fill ∧
      out ≠ "error" ∧ out ≠ "" ∧ strstr (cStr out) "<updateContextResponse>".toList = some payload ∧
      provider.xmlTreat payload = some given

/-- What may become of an element: nothing, if it is not to be found elsewhere; an error; what a provider answered, if
that was none. -/
inductive Settled (provider : Provider) (updateActionType : String) (cerP : ContextElementResponse) :
    ContextElementResponse → Prop
  | here (hfound : cerP.statusCode.code ≠ 302) : Settled provider updateActionType cerP cerP
  | error {cer : ContextElementResponse} (herror : cer.statusCode.settled.isError) :
      Settled provider updateActionType cerP cer
  | elsewhere {given : UpdateContextResponse} {parts : UrlParts} {cer : ContextElementResponse}
      (hanswered : Answered provider updateActionType cerP given parts)
      (hgiven : ¬ given.failed) (hcer : redirect given parts = some cer) : Settled provider updateActionType cerP cer

theorem forward_of_answered (h : Answered provider updateActionType cerP given parts) :
    forward provider updateActionType cerP =
      match redirect given parts with
      | none => .error .nullElement
      | some cer => .ok (.element cer) := by
  obtain ⟨hfound, hparsed, out, payload, rfl, herror, hempty, hclean, htreated⟩ := h
  unfold forward
  rw [if_neg (not_not.mpr hfound), hparsed]
  dsimp only
  rw [if_neg (not_or.mpr ⟨herror, hempty⟩), hclean]
  dsimp only
  rw [htreated]

/-- What a turn can do: it leaves the element, the url has a token too few, the element or the whole response becomes an
error, or the provider's answer comes in its place. -/
theorem forward_cases (provider : Provider) (updateActionType : String) (cerP : ContextElementResponse) :
    forward provider updateActionType cerP = .ok (.element cerP) ∧ cerP.statusCode.code ≠ 302 ∨
    forward provider updateActionType cerP = .error .urlToken ∨
    (∃ code details, code ≠ 0 ∧ code ≠ 200 ∧
      forward provider updateActionType cerP =
        .ok (.element { cerP with statusCode := StatusCode.fill code details })) ∨
    (∃ ucrs, ucrs.errorCode.isError ∧ forward provider updateActionType cerP = .ok (.answer ucrs)) ∨
    ∃ given parts, Answered provider updateActionType cerP given parts := by
  unfold forward
  by_cases hfound : cerP.statusCode.code = 302
  · rw [if_neg (not_not.mpr hfound)]
    rcases hparsed : parseUrl cerP.statusCode.details {} with _ | ⟨_ | _, parts⟩
    · exact .inr (.inl rfl)
    · exact .inr (.inr (.inl ⟨500, "error parsing providing application", by decide, by decide, rfl⟩))
    · dsimp only
      generalize hout : provider.sendHttpSocket parts _ updateActionType cerP.contextElement.fill = out
      by_cases hsent : out = "error" ∨ out = ""
      · rw [if_pos hsent]
        exact .inr (.inr (.inl ⟨404, "", by decide, by decide, rfl⟩))
      · rw [if_neg hsent]
        rcases hclean : strstr (cStr out) "<updateContextResponse>".toList with _ | payload
        · exact .inr (.inr (.inr (.inl ⟨_, isError_fill_404 "invalid context provider response", rfl⟩)))
        · dsimp only
          rcases htreated : provider.xmlTreat payload with _ | given
          · exact .inr (.inr (.inl ⟨404, "", by decide, by decide, rfl⟩))
          · rw [not_or] at hsent
            exact .inr (.inr (.inr (.inr
              ⟨given, parts, hfound, hparsed, out, payload, hout.symm, hsent.1, hsent.2, hclean, htreated⟩)))
  · exact .inl ⟨if_pos hfound, hfound⟩

theorem isError_settled_fill {code : Int} {details : String} (h : code ≠ 200) :
    (StatusCode.fill code details).settled.isError := isError_settled.mpr h

/-- Step 6, where the answer is handled. -/
theorem settled_of_answered (h : Answered provider updateActionType cerP given parts)
    (hgiven : HandledCondition (.postUpdateContext parts) given) :
    ∃ cer, forward provider updateActionType cerP = .ok (.element cer) ∧ Settled provider updateActionType cerP cer := by
  obtain ⟨status, hstatus, herror⟩ := handled_postUpdateContext_iff.mpr hgiven
  rw [Consumer.status, Option.map_eq_some_iff] at hstatus
  obtain ⟨cer, hcer, rfl⟩ := hstatus
  refine ⟨cer, by rw [forward_of_answered h, hcer], ?_⟩
  by_cases hfailed : given.failed
  · exact .error (herror hfailed)
  · exact .elsewhere h hfailed hcer

/-- One turn. -/
theorem forward_settled (hgiven : ∀ given parts, Answered provider updateActionType cerP given parts →
      HandledCondition (.postUpdateContext parts) given) :
    forward provider updateActionType cerP = .error .urlToken ∨
    (∃ ucrs, ucrs.errorCode.isError ∧ forward provider updateActionType cerP = .ok (.answer ucrs)) ∨
    ∃ cer, forward provider updateActionType cerP = .ok (.element cer) ∧ Settled provider updateActionType cerP cer := by
  obtain ⟨h, hcode⟩ | h | ⟨code, details, -, hcode, h⟩ | h | ⟨given, parts, h⟩ :=
    forward_cases provider updateActionType cerP
  · exact .inr (.inr ⟨cerP, h, .here hcode⟩)
  · exact .inl h
  · exact .inr (.inr ⟨_, h, .error (isError_settled_fill hcode)⟩)
  · exact .inr (.inl h)
  · exact .inr (.inr (settled_of_answered h (hgiven given parts h)))

/-- Every turn: `done` is settled, and each of the others becomes so. -/
theorem forwardLoop_settled (done vec : List ContextElementResponse)
    (hgiven : ∀ cerP ∈ vec, ∀ given parts, Answered provider updateActionType cerP given parts →
      HandledCondition (.postUpdateContext parts) given) :
    forwardLoop provider updateActionType done vec = .error .urlToken ∨
    ∃ ucrs, forwardLoop provider updateActionType done vec = .ok ucrs ∧
      (ucrs.errorCode.isError ∨
        ∃ cers, ucrs.contextElementResponseVector = done ++ cers ∧
          List.Forall₂ (Settled provider updateActionType) vec cers) := by
  induction vec generalizing done with
  | nil => exact .inr ⟨_, rfl, .inr ⟨[], by simp, .nil⟩⟩
  | cons cerP vec ih =>
    obtain h | ⟨ucrs, herror, h⟩ | ⟨cer, h, hcer⟩ := forward_settled (hgiven cerP (by simp))
    · exact .inl (by rw [forwardLoop, h])
    · exact .inr ⟨ucrs, by rw [forwardLoop, h], .inl herror⟩
    · rw [forwardLoop, h]
      obtain hrest | ⟨ucrs, hrest, hucrs⟩ := ih (done ++ [cer]) fun cerP hcerP => hgiven cerP (by simp [hcerP])
      · exact .inl hrest
      · refine .inr ⟨ucrs, hrest, hucrs.imp_right ?_⟩
        rintro ⟨cers, hvec, hcers⟩
        exact ⟨cer :: cers, by rw [hvec, List.append_assoc, List.singleton_append], .cons hcer hcers⟩

end Loop

/-- A provider that updates every element. -/
def agreeingProvider : Provider where
  sendHttpSocket _ _ _ _ := "<updateContextResponse>"
  xmlTreat _ := some
    { contextElementResponseVector :=
        [{ contextElement := { entityId := emptyEntity }, statusCode := StatusCode.fill 200 "" }] }

/-- An element that is elsewhere, and one that was updated here. -/
def foundAndUpdated : List ContextElementResponse :=
  [{ contextElement := { entityId := emptyEntity }, statusCode := StatusCode.fill 302 "http://cp:1028/ngsi10" },
   { contextElement := { entityId := emptyEntity }, statusCode := StatusCode.fill 200 "" }]

theorem foundAndUpdated_settled :
    forwardLoop agreeingProvider "UPDATE" [] foundAndUpdated = .error .urlToken ∨
    ∃ ucrs, forwardLoop agreeingProvider "UPDATE" [] foundAndUpdated = .ok ucrs ∧
      (ucrs.errorCode.isError ∨
        ∃ cers, ucrs.contextElementResponseVector = [] ++ cers ∧
          List.Forall₂ (Settled agreeingProvider "UPDATE") foundAndUpdated cers) := by
  refine forwardLoop_settled [] foundAndUpdated fun cerP _ given parts h => ?_
  obtain ⟨_, _, _, _, _, _, _, _, hgiven⟩ := h
  cases hgiven
  exact ⟨_, rfl, fun herror => absurd rfl herror.1⟩

end OrionBroker.Answer
