import Vetting.Http.Message
import Vetting.Http.Request
import Vetting.StatusQuery
import Vetting.Submission
import Vetting.Token

/-!
The endpoints of the service and their handlers. Main definition: `handle`, the answer to a request.
A job endpoint lets its caller in first, and looks at paths and bodies after that.
-/
namespace Vetting.Http

open Json

/-- What requests can be made to. -/
inductive Endpoint
  | health
  | submitFaceMatch
  | submitOcr
  /-- The result of a job, with the type and the id as the path has them. -/
  | result (type id : List UInt8)
  | metrics
  deriving DecidableEq, Repr

namespace Endpoint

/-- The endpoint at a path. The parts that stand for a type and an id must not be empty. -/
def ofPath? (path : List UInt8) : Option Endpoint :=
  if path = ascii "/health" then some .health
  else if path = ascii "/metrics" then some .metrics
  else if path = ascii "/api/v1/face-match-async" then some .submitFaceMatch
  else if path = ascii "/api/v1/ocr-async" then some .submitOcr
  else
    match Request.splitPath path with
    | [root, api, version, name, type, id] =>
      if [root, api, version, name] = ["", "api", "v1", "result"].map ascii ∧ type ≠ [] ∧ id ≠ []
      then some (.result type id)
      else none
    | _ => none

/-- The method that an endpoint is for. -/
def isPost : Endpoint → Bool
  | .submitFaceMatch | .submitOcr => true
  | .health | .result .. | .metrics => false

/-- The methods of an endpoint, as an answer lists them. -/
def allow (e : Endpoint) : String := if e.isPost then "POST" else "GET,HEAD"

end Endpoint

/-- What handlers know beside the request: the secret of tokens, the second that it is, and the id
that a new job would get. -/
structure Context where
  secret : List UInt8
  now : Nat
  drawn : JobId

/-- The client that sent a request. -/
def authenticate (context : Context) (r : Request) : Except AuthError Int :=
  match r.token? with
  | none => .error .missingToken
  | some token => Token.verify context.secret context.now token

/-- The longest body that is read. -/
def longestBody : Nat := 2097152

/-- The value that the body of a request holds. -/
def readBody {α : Type} (codec : Codec α) (r : Request) : Except ApiError α :=
  if !r.hasJson then
    .error (.badRequest "Expected request with `Content-Type: application/json`")
  else if r.body.length > longestBody then
    .error (.badRequest "Failed to buffer the request body: length limit exceeded")
  else
    match codec.decode r.body with
    | .ok a => .ok a
    | .error fault =>
      let lead := match fault.category with
        | .unfit => "Failed to deserialize the JSON body into the target type: "
        | .malformed | .ended => "Failed to parse the request body as JSON: "
      .error (.badRequest (lead ++ fault.message r.body))

/-- A request is good if its report is empty. -/
def checkReport (report : String) : Except ApiError Unit :=
  if report = "" then .ok () else .error (.badRequest report)

/-- The error that a failed submission is answered with. -/
def ApiError.ofSubmit (e : SubmitError) : ApiError :=
  if e.isValidation then .badRequest e.message else .internal

/-- The error that a failed query is answered with: a foreign job is as good as missing. -/
def ApiError.ofQuery (e : QueryError) : ApiError := if e.isNotFound then .notFound else .internal

/-- The answer to a submission of references that were read from the body. -/
def submitReferences (context : Context) (client : Int) (type : JobType) :
    Except ApiError (List String) → Service Response
  | .error e => return e.response
  | .ok references => do
    match ← Submission.submit context.drawn type client references with
    | .ok id => return .json 200 (SubmitResponse.codec.toTree ⟨id⟩)
    | .error e => return (ApiError.ofSubmit e).response

/-- The references of the request to compare faces. -/
def faceReferences (r : Request) : Except ApiError (List String) := do
  let request ← readBody FaceMatchRequest.codec r
  checkReport request.report
  return [request.image1, request.image2]

/-- The reference of the request to read a card. -/
def cardReference (r : Request) : Except ApiError (List String) := do
  let request ← readBody OcrRequest.codec r
  checkReport request.report
  return [request.image]

/-- A part of the path as text. -/
def pathText (name : String) (part : List UInt8) : Except Response String :=
  match Utf8.decode (Percent.decode part) with
  | some text => .ok text
  | none => .error (.text 400 ("Invalid URL: Invalid UTF-8 in `" ++ name ++ "`"))

/-- The answer that tells the status of a job. -/
def statusResponse (id : JobId) (view : StatusView) : Response :=
  .json 200 (.object (("job_id", .text id.text) :: ("message", .text view.message) :: view.members))

/-- The answer to a client that asks for a job by type and id. -/
def tellResult (client : Int) (typeName idText : String) : Service Response := do
  match JobType.ofName? typeName with
  | none => return (ApiError.badRequest ("unknown job type " ++ Quoted.quote typeName)).response
  | some type =>
    match ← StatusQuery.status idText type client with
    | .error e => return (ApiError.ofQuery e).response
    | .ok view =>
      match JobId.parse? idText with
      | none => return ApiError.notFound.response
      | some id => return statusResponse id view

/-- The answer to a client that asks for a job by a path. -/
def resultAt (client : Int) (type id : List UInt8) : Service Response :=
  match pathText "job_type" type, pathText "job_id" id with
  | .error response, _ => return response
  | .ok _, .error response => return response
  | .ok typeName, .ok idText => tellResult client typeName idText

/-- How a component is, as the answer on health tells it. -/
def componentTree (latency : Option Span) : Tree :=
  .object [("status", .text (if latency.isSome then "ok" else "error")),
    ("latency_ms", match latency with
      | some span => .ofInt span.millis
      | none => .null)]

/-- The version of the service. -/
def version : String := "0.1.0"

/-- The answer on health: well if both the store and the queue can be reached. -/
def health : Service Response := do
  let database := (← Service.checkStore).toOption
  let broker := (← Service.checkQueue).toOption
  let well := database.isSome && broker.isSome
  return .json (if well then 200 else 503) (.object [
    ("status", .text (if well then "ok" else "degraded")), ("version", .text version),
    ("checks", .object [("database", componentTree database), ("redis", componentTree broker)])])

/-- The answer for a monitor. -/
def exposition : Service Response := do
  let lines ← Service.metrics
  return .text 200 (String.join (lines.map (· ++ "\n")))

/-- The answer of a job endpoint to a caller who may not have been let in. -/
def jobEndpoint (context : Context) (r : Request) (serve : Int → Service Response) :
    Service Response :=
  match authenticate context r with
  | .error _ => return ApiError.unauthorized.response
  | .ok client => serve client

/-- The answer of an endpoint to a request with its method. -/
def serve (context : Context) (r : Request) : Endpoint → Service Response
  | .health => health
  | .metrics => exposition
  | .submitFaceMatch =>
    jobEndpoint context r fun client =>
      submitReferences context client .faceMatch (faceReferences r)
  | .submitOcr =>
    jobEndpoint context r fun client => submitReferences context client .ocr (cardReference r)
  | .result type id => jobEndpoint context r fun client => resultAt client type id

/-- The answer to a request. -/
def handle (context : Context) (r : Request) : Service Response :=
  match Endpoint.ofPath? r.path with
  | none => return .noEndpoint
  | some endpoint =>
    if endpoint.isPost then
      if r.method = "POST" then serve context r endpoint
      else return .methodNotAllowed endpoint.allow
    else if r.method = "GET" then serve context r endpoint
    else if r.method = "HEAD" then do return (← serve context r endpoint).head
    else return .methodNotAllowed endpoint.allow

end Vetting.Http
