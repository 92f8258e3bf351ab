import OrionBroker.Lib.Relay
import OrionBroker.Register.Providers
import OrionBroker.Register.Subscriptions
import OrionBroker.Rest.Routes
import OrionBroker.Update.Forward
import OrionBroker.Update.Sure

/-!
# Queries for entities that are elsewhere (postQueryContext.cpp, mongoQueryContext.cpp)

A query that finds no entity is sent on to a providing application, which may be another broker, and its answer is
waited for.

| here | there |
| --- | --- |
| `StatusCode.ofBackend`, `QueryContextResponse.ofBackend` | the codes of `HttpStatusCode` (HttpStatusCode.h:35) |
| `Paging`             | the URI parameters that `mongoQueryContext` reads (mongoQueryContext.cpp:53-56) |
| `QueryContextRequest` | the same (QueryContextRequest.h) less its restriction, with the tenant and the service paths it comes with |
| `EntityIdVector.render` | `EntityIdVector::render` (EntityIdVector.cpp:42) |
| `AttributeList.render` | `AttributeList::render` (AttributeList.cpp:42) |
| `QueryContextRequest.render` | `QueryContextRequest::render` (QueryContextRequest.cpp:59) |
| `queryTurn`          | `postQueryContext` up to the socket (postQueryContext.cpp:75-128) |
| `queryReply`         | what comes after it (:172-253) |
| `redirectedTo`       | step 6 (:232-250) |
| `servesQueries`      | whether the route table leads a resource to `postQueryContext` |
| `Asked`              | a request as it arrives at a server: the payload, the headers, the URI parameters |
| `Federation`         | the brokers by the parts of their urls; all other servers; the parser of requests; the XML parser of responses |
| `Federation.turn`    | the whole of `postQueryContext`, of any server |

The request is forwarded as it is rendered, without the URI parameters: behind the first broker they have their
defaults. What the next broker reads of the text need not be what was rendered, since `htmlEscape` leaves `&` as it is
and ends at a NUL. The test on the rendered request (:140) is left out, which begins with the tag looked for.
-/

namespace OrionBroker.Answer

open Register Url

/-! ## `postQueryContext` -/

def httpStatusNumber : HttpStatusCode → Int
  | .none => 0
  | .ok => 200
  | .found => 302
  | .badRequest => 400
  | .contextElementNotFound => 404
  | .invalidParameter => 472
  | .receiverInternalError => 500
  | .notImplemented => 501

/-- A status code that was never filled has no reason phrase. -/
def StatusCode.ofBackend (s : OrionBroker.StatusCode) : StatusCode :=
  if s.code = .none then { details := s.details } else StatusCode.fill (httpStatusNumber s.code) s.details

def ContextElementResponse.ofBackend (cer : OrionBroker.ContextElementResponse) : ContextElementResponse where
  contextElement := { entityId := cer.entityId, contextAttributeVector := cer.contextAttributeVector }
  statusCode := .ofBackend cer.statusCode

def QueryContextResponse.ofBackend (r : Register.QueryContextResponse) : QueryContextResponse where
  contextElementResponseVector := r.contextElementResponseVector.map .ofBackend
  errorCode := .ofBackend r.errorCode

structure Paging where
  offset : Nat := DEFAULT_PAGINATION_OFFSET_INT
  limit : Nat := DEFAULT_PAGINATION_LIMIT_INT
  details : Bool := false
deriving DecidableEq, Repr

structure QueryContextRequest where
  tenant : String := ""
  servicePathV : List String := []
  entityIdVector : List EntityId
  attributeList : List String := []
deriving DecidableEq, Repr

/-- A broker whose database answers, so that a query leaves it as it is (`Broker.query_same`). -/
structure Broker where
  env : Env
  regcomp : Regcomp
  now : Int
  world : World
  registry : Registry
  worldSure : world.Sure
  registrySure : registry.Sure

def Broker.query (b : Broker) (request : QueryContextRequest) (paging : Paging) :
    Option Register.QueryContextResponse × World × Registry :=
  mongoQueryContext b.env b.regcomp request.tenant b.now request.entityIdVector request.attributeList
    request.servicePathV paging.offset paging.limit paging.details b.world b.registry

def EntityIdVector.render (format : Format) (indent : String) (comma : Bool) (vec : List EntityId) : String :=
  if vec.isEmpty then ""
  else
    startTag' indent "entityIdList" "entities" format true true false ++
      renderEach (fun comma e => EntityId.render format (indent ++ "  ") "entityId" comma true "" e) vec ++
      endTag indent "entityIdList" format comma true true false

def AttributeList.render (format : Format) (indent : String) (comma : Bool) (attributeV : List String) : String :=
  if attributeV.isEmpty then ""
  else
    startTag indent "attributeList" format true false ++
      renderEach (fun comma name => valueTag (indent ++ "  ") "attribute" name format comma false false) attributeV ++
      endTag indent "attributeList" format comma false true false

def QueryContextRequest.render (format : Format) (indent : String) (request : QueryContextRequest) : String :=
  startTag indent "queryContextRequest" format false false ++
    EntityIdVector.render format (indent ++ "  ") (!request.attributeList.isEmpty) request.entityIdVector ++
    AttributeList.render format (indent ++ "  ") false request.attributeList ++
    endTag indent "queryContextRequest" format false false true false

inductive QueryTurn
  | answer (qcr : QueryContextResponse)
  | forward (parts : UrlParts)
  /-- The broker dies. -/
  | died

def notFound (details : String) : QueryContextResponse := { errorCode := StatusCode.fill 404 details }

/-- `res` is what `mongoQueryContext` answered. -/
def queryTurn (res : Option Register.QueryContextResponse) : QueryTurn :=
  match res with
  | none => .died
  | some res =>
    let qcrP := QueryContextResponse.ofBackend res
    if qcrP.errorCode.code ≠ 302 then
      if qcrP.contextElementResponseVector.length = 0 then
        .answer { qcrP with errorCode := StatusCode.fill 404 "" }
      else .answer qcrP
    else
      match parseUrl qcrP.errorCode.details {} with
      | none => .died
      | some (false, _) => .answer { qcrP with errorCode := StatusCode.fill 404 "" }
      | some (true, parts) => .forward parts

/-- The provider goes into the error code, if that is an error, and else into the first element. -/
def redirectedTo (parts : UrlParts) (qcrsP : QueryContextResponse) : QueryContextResponse :=
  let text := "Redirected to context provider " ++ String.ofList parts.host ++ ":" ++ toString parts.port ++
    String.ofList parts.path
  if (qcrsP.errorCode.code ≠ 200 ∧ qcrsP.errorCode.code ≠ 0) ∧ qcrsP.errorCode.details = "" then
    { qcrsP with errorCode := { qcrsP.errorCode with details := text } }
  else
    match qcrsP.contextElementResponseVector with
    | [] => qcrsP
    | cer :: cers =>
      if cer.statusCode.details = "" then
        { qcrsP with contextElementResponseVector :=
            { cer with statusCode := { cer.statusCode with details := text } } :: cers }
      else qcrsP

def queryReply (xmlTreat : List Char → Option QueryContextResponse) (parts : UrlParts) (out : String) :
    QueryContextResponse :=
  if out = "error" ∨ out = "" then notFound ""
  else
    match strstr (cStr out) "<queryContextResponse>".toList with
    | none => notFound "invalid context provider response"
    | some cleanPayload =>
      match xmlTreat cleanPayload with
      | none => notFound ""
      | some qcrsP => redirectedTo parts qcrsP

/-! ## A broker that is asked -/

section

variable (b : Broker) (request : QueryContextRequest) (paging : Paging)

/-- The documents of the entities asked for. -/
def Broker.found : List EntityDoc :=
  b.world.entities.find fun d => (entitiesSelector request.entityIdVector request.attributeList
    request.servicePathV).matches b.env.engine d.toBson

def Broker.elements (docs : List EntityDoc) : List OrionBroker.ContextElementResponse :=
  docs.map (contextElementResponseOf request.attributeList true)

/-- The elements of the answer; a query that the server refuses gets its error. -/
def Broker.page : List OrionBroker.ContextElementResponse :=
  entitiesResponses b.env b.world request.entityIdVector request.attributeList true request.servicePathV paging.offset
    paging.limit

/-- The application whose registration comes first. -/
def Broker.provider : Option String :=
  providerOf (providerLookup b.env b.regcomp request.tenant b.now request.entityIdVector request.attributeList
    request.servicePathV b.registry).1

/-- The server takes the query for the entities. -/
def Broker.TakesQuery : Prop :=
  (entitiesSelector request.entityIdVector request.attributeList request.servicePathV).compiles b.env.engine = true

/-- The server takes the query for the registrations. It need not when it takes the other one, which has only the
patterns that are spelled `true`. -/
def Broker.TakesLookup : Prop :=
  (registrationsSelector request.entityIdVector request.attributeList request.servicePathV b.now).compiles
    b.env.engine = true

instance : Decidable (b.TakesQuery request) := inferInstanceAs (Decidable (_ = true))

instance : Decidable (b.TakesLookup request) := inferInstanceAs (Decidable (_ = true))

/-- An error document has no registrations: reading them throws (MongoGlobal.cpp:1516). -/
def Broker.turn : QueryTurn :=
  if (b.page request paging).isEmpty ∧ ¬ b.TakesLookup request then .died else queryTurn (b.query request paging).1

/-- The error code beside elements: their number, if it is asked for. -/
def Broker.countCode : OrionBroker.StatusCode :=
  if paging.details then ⟨.ok, "Count: " ++ toString ((b.found request).length : Int)⟩ else {}

/-- The registrations are looked up without a failure. -/
theorem Broker.lookup_eq : ∃ crrV count,
    providerLookup b.env b.regcomp request.tenant b.now request.entityIdVector request.attributeList
      request.servicePathV b.registry = (.found crrV count, b.registry) := by
  have hcall : b.registry.call = (.ok, b.registry) := by
    have h := b.registrySure
    unfold Registry.Sure at h
    unfold Registry.call
    rw [h]
  unfold providerLookup registrationsQuery registrationsCursor
  rw [if_neg (by decide), hcall]
  exact ⟨_, _, rfl⟩

variable {b request paging}

theorem Broker.page_of_refused (h : ¬ b.TakesQuery request) :
    b.page request paging = [errorResponse request.entityIdVector] := entitiesResponses_of_refused h ..

theorem Broker.takesQuery_of_page (h : b.page request paging = []) : b.TakesQuery request := by
  by_contra hno
  rw [Broker.page_of_refused hno] at h
  cases h

theorem Broker.query_elements {cer : OrionBroker.ContextElementResponse}
    {cers : List OrionBroker.ContextElementResponse} (ht : paging.details = true → b.TakesQuery request)
    (h : b.page request paging = cer :: cers) : b.query request paging =
      (some { contextElementResponseVector := cer :: cers, errorCode := b.countCode request paging },
        b.world, b.registry) := by
  unfold Broker.page at h
  unfold Broker.TakesQuery at ht
  unfold Broker.query mongoQueryContext Broker.countCode Broker.found
  cases hd : paging.details with
  | false => simp [Outcome.writeError, entitiesQuery_sure b.env b.worldSure, h]
  | true => simp [b.worldSure.call, Outcome.writeError, entitiesQuery_sure b.env b.worldSure, h, ht hd]

/-- The count of a query that the server refuses throws. -/
theorem Broker.query_refused (hd : paging.details = true) (ht : ¬ b.TakesQuery request) :
    ∃ text, b.query request paging =
      (some { errorCode := ⟨.receiverInternalError, text⟩ }, b.world, b.registry) := by
  unfold Broker.TakesQuery at ht
  rw [Bool.not_eq_true] at ht
  unfold Broker.query mongoQueryContext
  rw [hd]
  simp [b.worldSure.call, Outcome.writeError, ht]

theorem Broker.query_nothing (h : b.page request paging = []) :
    ∃ code, b.query request paging = (some { errorCode := code }, b.world, b.registry) ∧
      (∀ app, b.provider request = some app → code = ⟨.found, app⟩) ∧
      (b.provider request = none → code.code = .contextElementNotFound) := by
  obtain ⟨crrV, count, hlookup⟩ := b.lookup_eq request
  have ht := Broker.takesQuery_of_page h
  unfold Broker.TakesQuery at ht
  unfold Broker.page at h
  have hquery : ∃ n, b.query request paging =
      ((emptyQueryStatus (.found crrV count) paging.details n paging.offset).map fun code => { errorCode := code },
        b.world, b.registry) := by
    unfold Broker.query mongoQueryContext
    cases paging.details <;>
      exact ⟨_, by simp [b.worldSure.call, Outcome.writeError, entitiesQuery_sure b.env b.worldSure, h, ht, hlookup]; rfl⟩
  obtain ⟨n, hquery⟩ := hquery
  rw [hquery]
  unfold Broker.provider
  rw [hlookup]
  unfold emptyQueryStatus
  cases hp : providerOf (.found crrV count) with
  | some app =>
    refine ⟨_, rfl, fun app' happ => by cases happ; rfl, ?_⟩
    intro hn
    cases hn
  | none =>
    have hno : ∀ (code : OrionBroker.StatusCode) (app : String), none = some app → code = ⟨.found, app⟩ := by
      intro _ _ happ
      cases happ
    dsimp only
    split
    · exact ⟨_, rfl, hno _, fun _ => rfl⟩
    · exact ⟨_, rfl, hno _, fun _ => rfl⟩

/-- A query leaves the broker as it is. -/
theorem Broker.query_same : (b.query request paging).2 = (b.world, b.registry) := by
  by_cases hrefused : paging.details = true ∧ ¬ b.TakesQuery request
  · obtain ⟨text, hquery⟩ := Broker.query_refused hrefused.1 hrefused.2
    rw [hquery]
  · cases h : b.page request paging with
    | nil =>
      obtain ⟨code, hquery, -⟩ := Broker.query_nothing h
      rw [hquery]
    | cons cer cers => rw [Broker.query_elements (fun hd => not_not.1 fun ht => hrefused ⟨hd, ht⟩) h]

theorem Broker.turn_elements (ht : paging.details = true → b.TakesQuery request) (h : b.page request paging ≠ []) :
    b.turn request paging =
      .answer (.ofBackend { contextElementResponseVector := b.page request paging,
                            errorCode := b.countCode request paging }) := by
  obtain ⟨cer, cers, hpage⟩ := List.exists_cons_of_ne_nil h
  have hcode : (StatusCode.ofBackend (b.countCode request paging)).code ≠ 302 := by
    unfold Broker.countCode
    split <;> simp [StatusCode.ofBackend, StatusCode.fill, httpStatusNumber]
  rw [Broker.turn, if_neg (by simp [hpage]), Broker.query_elements ht hpage, hpage]
  unfold queryTurn
  dsimp only [QueryContextResponse.ofBackend]
  rw [if_pos hcode, if_neg (by simp)]

theorem Broker.turn_refused (hd : paging.details = true) (ht : ¬ b.TakesQuery request) :
    b.turn request paging = .answer (notFound "") := by
  obtain ⟨text, hquery⟩ := Broker.query_refused hd ht
  rw [Broker.turn, if_neg (by simp [Broker.page_of_refused ht]), hquery]
  rfl

theorem Broker.turn_provider {app : String} (h : b.page request paging = []) (hl : b.TakesLookup request)
    (happ : b.provider request = some app) : b.turn request paging =
      match parseUrl app {} with
      | none => .died
      | some (false, _) => .answer (notFound "")
      | some (true, parts) => .forward parts := by
  obtain ⟨code, hquery, hfound, -⟩ := Broker.query_nothing h
  rw [Broker.turn, if_neg fun hno => hno.2 hl, hquery, hfound app happ]
  rfl

theorem Broker.turn_nothing (h : b.page request paging = []) (hl : b.TakesLookup request)
    (hnone : b.provider request = none) : b.turn request paging = .answer (notFound "") := by
  obtain ⟨code, hquery, -, hcode⟩ := Broker.query_nothing h
  rw [Broker.turn, if_neg fun hno => hno.2 hl, hquery]
  unfold queryTurn
  dsimp only [QueryContextResponse.ofBackend, StatusCode.ofBackend]
  rw [hcode hnone]
  rfl

theorem Broker.answers_of_page (h : b.page request paging ≠ []) : ∃ qcr, b.turn request paging = .answer qcr := by
  by_cases hrefused : paging.details = true ∧ ¬ b.TakesQuery request
  · exact ⟨_, Broker.turn_refused hrefused.1 hrefused.2⟩
  · exact ⟨_, Broker.turn_elements (fun hd => not_not.1 fun ht => hrefused ⟨hd, ht⟩) h⟩

/-- The request goes on exactly when the page is empty and the first provider has a url. -/
theorem Broker.forwards_iff {parts : UrlParts} : b.turn request paging = .forward parts ↔
    b.page request paging = [] ∧ b.TakesLookup request ∧
      ∃ app, b.provider request = some app ∧ parseUrl app {} = some (true, parts) := by
  by_cases hpage : b.page request paging = []
  · by_cases hl : b.TakesLookup request
    · cases hp : b.provider request with
      | none => simp [Broker.turn_nothing hpage hl hp]
      | some app =>
        rw [Broker.turn_provider hpage hl hp]
        rcases hurl : parseUrl app {} with _ | ⟨_ | _, parts'⟩ <;> simp [hpage, hl, hurl]
    · simp [Broker.turn, hpage, hl]
  · obtain ⟨qcr, hqcr⟩ := Broker.answers_of_page hpage
    simp [hqcr, hpage]

/-- The page is empty, and there are no registrations to read or no host in the url of the first provider. -/
def Broker.Dies (b : Broker) (request : QueryContextRequest) (paging : Paging) : Prop :=
  b.page request paging = [] ∧
    (¬ b.TakesLookup request ∨ ∃ app, b.provider request = some app ∧ parseUrl app {} = none)

theorem Broker.dies_iff : b.turn request paging = .died ↔ b.Dies request paging := by
  unfold Broker.Dies
  by_cases hpage : b.page request paging = []
  · by_cases hl : b.TakesLookup request
    · cases hp : b.provider request with
      | none => simp [Broker.turn_nothing hpage hl hp, hl]
      | some app =>
        rw [Broker.turn_provider hpage hl hp]
        rcases hurl : parseUrl app {} with _ | ⟨_ | _, parts'⟩ <;> simp [hpage, hl, hurl]
    · simp [Broker.turn, hpage, hl]
  · obtain ⟨qcr, hqcr⟩ := Broker.answers_of_page hpage
    simp [hqcr, hpage]

/-! ## Pages -/

variable (b request)

/-- The documents in the order of the cursor. -/
def Broker.sorted : List EntityDoc := (b.found request).insertionSort fun a c => creDateLe a c = true

variable {b request}

theorem Broker.page_eq (ht : b.TakesQuery request) (offset : Nat) {limit : Nat} (hl : 0 < limit) (details : Bool) :
    b.page request ⟨offset, limit, details⟩ = Broker.elements request (Mongo.page offset limit (b.sorted request)) := by
  unfold Broker.page
  rw [entitiesResponses_of_compiles ht]
  unfold Mongo.page
  rw [if_neg (Nat.pos_iff_ne_zero.1 hl)]
  rfl

theorem Broker.page_eq_nil_iff (ht : b.TakesQuery request) (offset : Nat) {limit : Nat} (hl : 0 < limit) (details : Bool) :
    b.page request ⟨offset, limit, details⟩ = [] ↔ (b.found request).length ≤ offset := by
  have hlen : (b.sorted request).length = (b.found request).length := List.length_insertionSort _ _
  rw [Broker.page_eq ht offset hl details]
  unfold Broker.elements Mongo.page
  rw [if_neg (Nat.pos_iff_ne_zero.1 hl), List.map_eq_nil_iff, List.take_eq_nil_iff, List.drop_eq_nil_iff, hlen]
  exact or_iff_right (Nat.pos_iff_ne_zero.1 hl)

end

/-! ## The federation -/

/-- The requests with this resource are `postQueryContext`'s. -/
def servesQueries (resource : List Char) : Bool :=
  match Rest.dispatch (Rest.restServiceV false) "POST" (String.ofList resource) with
  | some (.treated r) => r.treat == .postQueryContext
  | _ => false

/-- A request as it arrives at a server. -/
structure Asked where
  parts : UrlParts
  tenant : String := ""
  servicePathV : List String := []
  inFormat : Format := .xml
  payload : String
  paging : Paging := {}
  outFormat : Format := .xml
deriving DecidableEq

def Asked.resource (asked : Asked) : List Char := asked.parts.path ++ "/queryContext".toList

/-- The request behind the first broker. -/
def QueryContextRequest.sentTo (request : QueryContextRequest) (parts : UrlParts) : Asked where
  parts := parts
  tenant := request.tenant
  servicePathV := request.servicePathV
  payload := request.render .xml ""

structure Federation where
  /-- The broker that listens at a host and a port. -/
  brokerAt : UrlParts → Option Broker
  /-- What a broker reads of a payload, if it takes it. -/
  read : Format → String → Option (List EntityId × List String)
  /-- The answer to a payload that it does not take. -/
  refusal : Asked → String
  /-- The text a broker's client gets from its socket, with the HTTP headers. -/
  reply : Format → QueryContextResponse → String
  /-- The same from any other server, or from a broker that has something else there; `none` if nothing comes. -/
  sendHttpSocket : Asked → Option String
  xmlTreat : List Char → Option QueryContextResponse

/-- The broker that is asked for its entities: nothing is sent to no host or to port 0 (clientSocketHttp.cpp:135-147). -/
def Federation.serverOf (fed : Federation) (asked : Asked) : Option Broker :=
  if asked.parts.host ≠ [] ∧ asked.parts.port % 2 ^ 16 ≠ 0 ∧ servesQueries asked.resource = true then
    fed.brokerAt asked.parts
  else none

def Federation.requestOf (fed : Federation) (asked : Asked) : Option QueryContextRequest :=
  (fed.read asked.inFormat asked.payload).map fun (entityIdVector, attributeList) =>
    { tenant := asked.tenant, servicePathV := asked.servicePathV, entityIdVector, attributeList }

/-- The request is read back as it is rendered. -/
def Federation.ReadsBack (fed : Federation) (request : QueryContextRequest) : Prop :=
  fed.read .xml (request.render .xml "") = some (request.entityIdVector, request.attributeList)

/-- A broker that dies closes the connection: its client gets no answer, and to a broker this is an empty one. -/
def Federation.turn (fed : Federation) (asked : Asked) :
    Option String ⊕ Asked × (Option String → Option String) :=
  match fed.serverOf asked with
  | none => .inl (fed.sendHttpSocket asked)
  | some b =>
    match fed.requestOf asked with
    | none => .inl (some (fed.refusal asked))
    | some request =>
      match b.turn request asked.paging with
      | .answer qcr => .inl (some (fed.reply asked.outFormat qcr))
      | .died => .inl none
      | .forward parts =>
        .inr (request.sentTo parts,
          fun out => some (fed.reply asked.outFormat (queryReply fed.xmlTreat parts (out.getD ""))))

/-! ## Chains of brokers

The relation `SendsOn` is about what the brokers store: where the registrations lead a request. -/

section

variable {fed : Federation} {request : QueryContextRequest} {asked next : Asked} {b : Broker}

/-- Nothing of the page is stored here, and the first provider has the url of the next server. -/
def Federation.SendsOn (fed : Federation) (asked next : Asked) : Prop :=
  ∃ b request app parts, fed.serverOf asked = some b ∧ fed.requestOf asked = some request ∧
    b.page request asked.paging = [] ∧ b.TakesLookup request ∧ b.provider request = some app ∧
    parseUrl app {} = some (true, parts) ∧ next = request.sentTo parts

section

variable (hb : fed.serverOf asked = some b) (hread : fed.requestOf asked = some request)
include hb hread

theorem turn_answer {qcr : QueryContextResponse} (h : b.turn request asked.paging = .answer qcr) :
    fed.turn asked = .inl (some (fed.reply asked.outFormat qcr)) := by
  simp [Federation.turn, hb, hread, h]

theorem turn_died (h : b.turn request asked.paging = .died) : fed.turn asked = .inl none := by
  simp [Federation.turn, hb, hread, h]

theorem turn_forward {parts : UrlParts} (h : b.turn request asked.paging = .forward parts) :
    fed.turn asked = .inr (request.sentTo parts,
      fun out => some (fed.reply asked.outFormat (queryReply fed.xmlTreat parts (out.getD "")))) := by
  simp [Federation.turn, hb, hread, h]

end

theorem handsOn_iff : Relay.HandsOn fed.turn asked next ↔ fed.SendsOn asked next := by
  constructor
  · rintro ⟨back, h⟩
    cases hb : fed.serverOf asked with
    | none => simp [Federation.turn, hb] at h
    | some b =>
      cases hread : fed.requestOf asked with
      | none => simp [Federation.turn, hb, hread] at h
      | some request =>
        cases hturn : b.turn request asked.paging with
        | answer qcr =>
          rw [turn_answer hb hread hturn] at h
          cases h
        | died =>
          rw [turn_died hb hread hturn] at h
          cases h
        | forward parts =>
          rw [turn_forward hb hread hturn] at h
          cases h
          obtain ⟨hpage, hl, app, happ, hurl⟩ := Broker.forwards_iff.1 hturn
          exact ⟨b, request, app, parts, hb, hread, hpage, hl, happ, hurl, rfl⟩
  · rintro ⟨b, request, app, parts, hb, hread, hpage, hl, happ, hurl, rfl⟩
    exact ⟨_, turn_forward hb hread (Broker.forwards_iff.2 ⟨hpage, hl, app, happ, hurl⟩)⟩

theorem returns_iff : Relay.Returns fed.turn asked ↔
    ∃ y, Relation.ReflTransGen fed.SendsOn asked y ∧ Relation.TransGen fed.SendsOn y y := by
  have hrel : Relay.HandsOn fed.turn = fed.SendsOn := by
    funext x y
    exact propext handsOn_iff
  unfold Relay.Returns
  rw [hrel]

theorem requestOf_sentTo (h : fed.ReadsBack request) (parts : UrlParts) :
    fed.requestOf (request.sentTo parts) = some request := by
  have h : fed.read (request.sentTo parts).inFormat (request.sentTo parts).payload = _ := h
  rw [Federation.requestOf, h]
  rfl

/-- A request that is read back stays the same along the chain. -/
theorem reached_request (hread : fed.requestOf asked = some request) (h : fed.ReadsBack request) {y : Asked}
    (hy : Relation.ReflTransGen (Relay.HandsOn fed.turn) asked y) :
    y = asked ∨ ∃ parts, y = request.sentTo parts := by
  induction hy with
  | refl => exact .inl rfl
  | tail _ hstep ih =>
    obtain ⟨b, request', app, parts, -, hread', -, -, -, -, rfl⟩ := handsOn_iff.1 hstep
    have hsame : request' = request := by
      rcases ih with rfl | ⟨parts', rfl⟩
      · rw [hread] at hread'
        exact (Option.some.inj hread').symm
      · rw [requestOf_sentTo h] at hread'
        exact (Option.some.inj hread').symm
    exact .inr ⟨parts, by rw [hsame]⟩

/-- The servers that send a request on are the first one and those at the addresses. -/
theorem sendsOn_within {addresses : Finset UrlParts} (haddr : ∀ parts, (fed.brokerAt parts).isSome → parts ∈ addresses)
    (hread : fed.requestOf asked = some request) (h : fed.ReadsBack request) (y z : Asked)
    (hy : Relation.ReflTransGen (Relay.HandsOn fed.turn) asked y) (hz : Relay.HandsOn fed.turn y z) :
    y ∈ insert asked (addresses.image request.sentTo) := by
  rcases reached_request hread h hy with rfl | ⟨parts, rfl⟩
  · exact Finset.mem_insert_self _ _
  · obtain ⟨b, _, _, _, hb, -⟩ := handsOn_iff.1 hz
    have hat : fed.brokerAt parts = some b := by
      rw [Federation.serverOf] at hb
      split at hb
      · exact hb
      · cases hb
    exact Finset.mem_insert_of_mem (Finset.mem_image_of_mem _ (haddr parts (by rw [hat]; rfl)))

/-- The first broker gives an answer, unless it dies. -/
theorem run_text (hb : fed.serverOf asked = some b) (hread : fed.requestOf asked = some request)
    (hlives : ¬ b.Dies request asked.paging) {n : Nat} {out : Option String} (h : Relay.run fed.turn n asked = some out) :
    ∃ text, out = some text := by
  cases n with
  | zero => cases h
  | succ n =>
    cases hturn : b.turn request asked.paging with
    | answer qcr =>
      rw [Relay.run_here (turn_answer hb hread hturn)] at h
      cases h
      exact ⟨_, rfl⟩
    | died => exact absurd (Broker.dies_iff.1 hturn) hlives
    | forward parts =>
      rw [Relay.run_through (turn_forward hb hread hturn), Option.map_eq_some_iff] at h
      obtain ⟨_, -, rfl⟩ := h
      exact ⟨_, rfl⟩

/-- **A federated query is answered or goes round for ever**, or the broker that is asked dies. In a federation with
brokers at finitely many addresses, a request that is read back as it is rendered is answered exactly when the providers
of the brokers asked one after the other do not lead back to one of them, and the url of the first one's provider has
a host; then after at most one turn for each address and two more. -/
theorem federatedQuery_answered_iff {addresses : Finset UrlParts}
    (haddr : ∀ parts, (fed.brokerAt parts).isSome → parts ∈ addresses) (hb : fed.serverOf asked = some b)
    (hread : fed.requestOf asked = some request) (hback : fed.ReadsBack request) :
    ((∃ n text, Relay.run fed.turn n asked = some (some text)) ↔
      (¬ ∃ y, Relation.ReflTransGen fed.SendsOn asked y ∧ Relation.TransGen fed.SendsOn y y) ∧
      ¬ b.Dies request asked.paging) ∧
    ((∃ n text, Relay.run fed.turn n asked = some (some text)) →
      ∃ text, Relay.run fed.turn (addresses.card + 2) asked = some (some text)) := by
  have hwithin := sendsOn_within haddr hread hback
  have hcard : (insert asked (addresses.image request.sentTo)).card ≤ addresses.card + 1 :=
    (Finset.card_insert_le _ _).trans (Nat.add_le_add_right Finset.card_image_le 1)
  -- a chain without return that begins at a broker which lives
  have hends : ¬ Relay.Returns fed.turn asked → ¬ b.Dies request asked.paging →
      ∃ text, Relay.run fed.turn (addresses.card + 2) asked = some (some text) := by
    intro hno hlives
    obtain ⟨out, hout⟩ := Relay.answered_within hwithin hno
    have hrun := Relay.run_mono hout (show _ ≤ addresses.card + 2 by omega)
    obtain ⟨text, rfl⟩ := run_text hb hread hlives hrun
    exact ⟨text, hrun⟩
  have hanswered : (∃ n text, Relay.run fed.turn n asked = some (some text)) →
      ¬ Relay.Returns fed.turn asked ∧ ¬ b.Dies request asked.paging := by
    rintro ⟨n, text, hrun⟩
    refine ⟨(Relay.answered_iff hwithin).1 ⟨n, _, hrun⟩, fun hdies => ?_⟩
    cases n with
    | zero => cases hrun
    | succ n =>
      rw [Relay.run_here (turn_died hb hread (Broker.dies_iff.2 hdies))] at hrun
      cases hrun
  rw [← returns_iff]
  refine ⟨⟨hanswered, fun ⟨hno, hlives⟩ => ?_⟩, fun hex => ?_⟩
  · obtain ⟨text, hrun⟩ := hends hno hlives
    exact ⟨_, text, hrun⟩
  · exact hends (hanswered hex).1 (hanswered hex).2

/-- **Paging through a query with a provider.** Where a broker has a provider for what it stores itself, the pages show
each of its own elements once, in the order of the cursor; every page behind the last of them is what the provider
answers to the request as it is rendered, without the page that was asked for: the same again and again. -/
theorem pagedQuery_behind {next : UrlParts} {app : String} (hb : fed.serverOf asked = some b)
    (hread : fed.requestOf asked = some request) (ht : b.TakesQuery request) (hlookup : b.TakesLookup request)
    (happ : b.provider request = some app) (hurl : parseUrl app {} = some (true, next)) {limit : Nat} (hl : 0 < limit)
    (details : Bool) :
    (∀ n, (b.found request).length ≤ n * limit →
      (List.range n).flatMap (fun i => b.page request ⟨i * limit, limit, details⟩) =
        Broker.elements request (b.sorted request)) ∧
    (∀ offset, offset < (b.found request).length → ∀ n,
      Relay.run fed.turn (n + 1) { asked with paging := ⟨offset, limit, details⟩ } =
        some (some (fed.reply asked.outFormat (.ofBackend
          { contextElementResponseVector := b.page request ⟨offset, limit, details⟩
            errorCode := b.countCode request ⟨offset, limit, details⟩ })))) ∧
    ∀ offset, (b.found request).length ≤ offset → ∀ n,
      Relay.run fed.turn (n + 1) { asked with paging := ⟨offset, limit, details⟩ } =
        (Relay.run fed.turn n (request.sentTo next)).map fun out =>
          some (fed.reply asked.outFormat (queryReply fed.xmlTreat next (out.getD ""))) := by
  have hb' : ∀ paging, fed.serverOf { asked with paging := paging } = some b := fun _ => hb
  have hread' : ∀ paging, fed.requestOf { asked with paging := paging } = some request := fun _ => hread
  refine ⟨fun n hn => ?_, fun offset ho n => ?_, fun offset ho n => ?_⟩
  · have hsorted : (b.sorted request).length ≤ n * limit := by
      rw [Broker.sorted, List.length_insertionSort]
      exact hn
    conv_rhs => rw [← Mongo.flatMap_page hl hsorted, Broker.elements, List.map_flatMap]
    exact List.flatMap_congr fun i _ => Broker.page_eq ht (i * limit) hl details
  · have hpage : b.page request ⟨offset, limit, details⟩ ≠ [] := fun h =>
      absurd ((Broker.page_eq_nil_iff ht offset hl details).1 h) (Nat.not_le.2 ho)
    exact Relay.run_here (turn_answer (hb' _) (hread' _) (Broker.turn_elements (fun _ => ht) hpage)) n
  · have hpage := (Broker.page_eq_nil_iff ht offset hl details).2 ho
    exact Relay.run_through
      (turn_forward (hb' _) (hread' _) (Broker.forwards_iff.2 ⟨hpage, hlookup, app, happ, hurl⟩)) n

end

/-! ## Two federations of one broker -/

def roomQuery : QueryContextRequest where
  entityIdVector := [{ id := "Room", type := "T", isPattern := "false" }]
  attributeList := ["t"]

def providerParts : UrlParts := { host := "p2".toList, port := 80, path := "/v1".toList, protocol := "http:".toList }

/-- It knows a provider of the room, and stores the rooms given. -/
def roomBroker (rooms : Mongo.Collection EntityDoc EntityKey EntityDoc.key) : Broker where
  env := Env.plain fun _ _ => false
  regcomp _ := none
  now := 5
  world := { entities := rooms }
  registry :=
    { registrations := ⟨[{ roomDoc with contextRegistration := [oneAttr "Room" "t" "http://p2/v1"] }], by decide⟩ }
  worldSure := rfl
  registrySure := rfl

/-- Only this one request is read. -/
def aloneAt (parts : UrlParts) (b : Broker) : Federation where
  brokerAt p := if p = parts then some b else none
  read _ payload :=
    if payload = roomQuery.render .xml "" then some (roomQuery.entityIdVector, roomQuery.attributeList) else none
  refusal _ := "<queryContextResponse>"
  reply _ _ := "<queryContextResponse>"
  sendHttpSocket _ := none
  xmlTreat _ := some {}

example : roomQuery.render .xml "" =
    "<queryContextRequest>\n  <entityIdList>\n    <entityId type=\"T\" isPattern=\"false\">\n      <id>Room</id>\n" ++
    "    </entityId>\n  </entityIdList>\n  <attributeList>\n    <attribute>t</attribute>\n  </attributeList>\n" ++
    "</queryContextRequest>\n" := by decide +kernel

theorem aloneAt_serverOf (b : Broker) :
    (aloneAt providerParts b).serverOf (roomQuery.sentTo providerParts) = some b := by
  rw [Federation.serverOf, if_pos (by decide +kernel)]
  simp [aloneAt, QueryContextRequest.sentTo]

theorem aloneAt_readsBack (parts : UrlParts) (b : Broker) : (aloneAt parts b).ReadsBack roomQuery := by
  unfold Federation.ReadsBack aloneAt
  generalize roomQuery.render .xml "" = payload
  exact if_pos rfl

/-- Asked for a room it does not store, a broker that is registered as its own provider asks itself for ever. -/
theorem ownProvider_unanswered : ¬ ∃ n text,
    Relay.run (aloneAt providerParts (roomBroker .empty)).turn n (roomQuery.sentTo providerParts) =
      some (some text) := by
  have hback := aloneAt_readsBack providerParts (roomBroker .empty)
  have hread := requestOf_sentTo hback providerParts
  have hself : (aloneAt providerParts (roomBroker .empty)).SendsOn (roomQuery.sentTo providerParts)
      (roomQuery.sentTo providerParts) :=
    ⟨roomBroker .empty, roomQuery, "http://p2/v1", providerParts, aloneAt_serverOf _, hread, by decide +kernel,
      by decide +kernel, by decide +kernel, by decide +kernel, rfl⟩
  have haddr : ∀ parts, ((aloneAt providerParts (roomBroker .empty)).brokerAt parts).isSome →
      parts ∈ ({providerParts} : Finset UrlParts) := by
    intro parts h
    by_cases hp : parts = providerParts
    · exact Finset.mem_singleton.2 hp
    · simp [aloneAt, hp] at h
  rw [(federatedQuery_answered_iff haddr (aloneAt_serverOf _) hread hback).1]
  exact fun h => h.1 ⟨_, .refl, .single hself⟩

def storedRoom : Mongo.Collection EntityDoc EntityKey EntityDoc.key :=
  ⟨[{ key := { id := "Room", type := some "T" }, attrs := [{ name := some "t" }] }], by decide⟩

/-- One page shows the room, and every page after it is the provider's answer to the query without a page. -/
theorem storedRoom_paged :
    ((roomBroker storedRoom).found roomQuery).length = 1 ∧
    ∀ offset, ((roomBroker storedRoom).found roomQuery).length ≤ offset → ∀ n,
      Relay.run (aloneAt providerParts (roomBroker storedRoom)).turn (n + 1)
          { roomQuery.sentTo providerParts with paging := ⟨offset, 1, true⟩ } =
        (Relay.run (aloneAt providerParts (roomBroker storedRoom)).turn n (roomQuery.sentTo providerParts)).map fun out =>
          some ((aloneAt providerParts (roomBroker storedRoom)).reply .xml
            (queryReply (aloneAt providerParts (roomBroker storedRoom)).xmlTreat providerParts (out.getD ""))) := by
  have hread := requestOf_sentTo (aloneAt_readsBack providerParts (roomBroker storedRoom)) providerParts
  have happ : (roomBroker storedRoom).provider roomQuery = some "http://p2/v1" := by decide +kernel
  have hurl : parseUrl "http://p2/v1" {} = some (true, providerParts) := by decide +kernel
  exact ⟨by decide +kernel, (pagedQuery_behind (aloneAt_serverOf _) hread (by decide +kernel) (by decide +kernel) happ
    hurl (by decide) true).2.2⟩

end OrionBroker.Answer
