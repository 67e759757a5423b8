import Vetting.Job
import Vetting.Json.Record
import Vetting.Json.Tree
import Vetting.Text.Quoted

/-!
The bodies of requests and answers of the job endpoints, answers, and the errors that handlers answer
with. An error says no more than a client may know.
-/
namespace Vetting.Http

open Json

/-- The request to compare two uploaded faces. -/
structure FaceMatchRequest where
  image1 : String
  image2 : String
  deriving DecidableEq, Repr

/-- The request to read an uploaded identity card. -/
structure OcrRequest where
  image : String
  deriving DecidableEq, Repr

namespace FaceMatchRequest

def schema : Schema := [⟨"image1", String, .text⟩, ⟨"image2", String, .text⟩]

def codec : Codec FaceMatchRequest :=
  (Codec.record "FaceMatchRequest" schema).map (fun (image1, image2, ()) => ⟨image1, image2⟩)
    fun request => (request.image1, request.image2, ())

end FaceMatchRequest

namespace OcrRequest

def schema : Schema := [⟨"image", String, .text⟩]

def codec : Codec OcrRequest :=
  (Codec.record "OcrRequest" schema).map (fun (image, ()) => ⟨image⟩)
    fun request => (request.image, ())

end OcrRequest

/-- The bounds on the length of a reference, in bytes. -/
def shortestReference : Nat := 1
def longestReference : Nat := 128

/-- What is wrong with the length of a reference; a line, or nothing. -/
def lengthReport (name reference : String) : String :=
  let length := reference.utf8ByteSize
  if length < shortestReference then name ++ ": length is lower than 1\n"
  else if length > longestReference then name ++ ": length is greater than 128\n"
  else ""

/-- What is wrong with the references of a request, in order. -/
def FaceMatchRequest.report (request : FaceMatchRequest) : String :=
  lengthReport "image1" request.image1 ++ lengthReport "image2" request.image2

def OcrRequest.report (request : OcrRequest) : String := lengthReport "image" request.image

/-- The answer to a submission, the same for new and for known work. -/
structure SubmitResponse where
  id : JobId
  deriving DecidableEq

namespace SubmitResponse

def schema : Schema := [⟨"id", JobId, JobId.codec⟩]

def codec : Codec SubmitResponse :=
  (Codec.record "SubmitResponse" schema).map (fun (id, ()) => ⟨id⟩) fun answer => (answer.id, ())

end SubmitResponse

structure Response where
  status : Nat
  contentType : Option String
  /-- The methods that an endpoint has. -/
  allow : Option String
  body : List UInt8
  deriving DecidableEq, Repr

namespace Response

/-- An answer in JSON. -/
def json (status : Nat) (body : Tree) : Response :=
  ⟨status, some "application/json", none, body.write⟩

/-- An answer in plain text. -/
def text (status : Nat) (body : String) : Response :=
  ⟨status, some "text/plain; charset=utf-8", none, Utf8.encode body⟩

/-- The answer for a path that has no endpoint. -/
def noEndpoint : Response := ⟨404, none, none, []⟩

/-- The answer for a method that an endpoint has not. -/
def methodNotAllowed (allow : String) : Response := ⟨405, none, some allow, []⟩

/-- The answer without its body. -/
def head (r : Response) : Response := { r with body := [] }

end Response

/-- The errors of handlers. -/
inductive ApiError
  | badRequest (message : String)
  | unauthorized
  | notFound
  | internal
  deriving DecidableEq, Repr

namespace ApiError

def status : ApiError → Nat
  | .badRequest _ => 400
  | .unauthorized => 401
  | .notFound => 404
  | .internal => 500

/-- The wording of an error. -/
def message : ApiError → String
  | .badRequest message => message
  | .unauthorized => "unauthorized"
  | .notFound => "job not found"
  | .internal => "Unexpected server error occurred"

/-- The answer that tells an error. -/
def response (e : ApiError) : Response :=
  .json e.status (.object [("errorMessage", .text e.message)])

end ApiError

end Vetting.Http
