import Vetting.Digest
import Vetting.Json.Codec
import Vetting.Json.Record
import Vetting.Time

/-!
Jobs: a request to compare two faces or to read an identity card, its progress, and what came of it, with
the uploaded images that it is about. A job id is sixteen bytes, written as hexadecimal digits in groups of
8, 4, 4, 4 and 12; reading also takes the digits without hyphens, in braces or as a resource name, in either
case. Two submissions of the same work have one fingerprint, in which the order of the images makes no
difference; `Fingerprint.source` is the text that is hashed.
-/
namespace Vetting

/-- The identity of a job. -/
structure JobId where
  bytes : List UInt8
  length_eq : bytes.length = 16
  deriving DecidableEq

namespace JobId

/-- The id with these bytes, if they are sixteen. -/
def ofBytes? (bytes : List UInt8) : Option JobId :=
  if h : bytes.length = 16 then some ⟨bytes, h⟩ else none

/-- The digits, without hyphens. -/
def digits (id : JobId) : List Char := Hex.encode id.bytes

/-- Hyphens after the groups of digits. -/
def hyphenate (digits : List Char) : List Char :=
  digits.take 8 ++ '-' :: (digits.drop 8).take 4 ++ '-' :: (digits.drop 12).take 4 ++
    '-' :: (digits.drop 16).take 4 ++ '-' :: digits.drop 20

/-- The written form. -/
def text (id : JobId) : String := String.ofList (hyphenate id.digits)

instance : ToString JobId := ⟨text⟩

/-- Thirty-two digits. -/
def ofDigits? (digits : List Char) : Option JobId := (Hex.decode digits).bind ofBytes?

/-- Digits in groups of 8, 4, 4, 4 and 12 with single hyphens between them. -/
def ofHyphenated? (text : List Char) : Option JobId :=
  let digits := text.take 8 ++ (text.drop 9).take 4 ++ (text.drop 14).take 4 ++
    (text.drop 19).take 4 ++ text.drop 24
  if hyphenate digits = text then ofDigits? digits else none

/-- What a resource name has before the hyphenated form, in any case. -/
def resourceName : List Char := "urn:uuid:".toList

/-- The id that a text spells in one of the four forms. -/
def parse? (text : String) : Option JobId :=
  let cs := text.toList
  match cs.length with
  | 32 => ofDigits? cs
  | 36 => ofHyphenated? cs
  | 38 =>
    if cs.head? = some (Char.ofNat 123) ∧ cs.getLast? = some (Char.ofNat 125) then
      ofHyphenated? ((cs.drop 1).take 36)
    else none
  | 45 =>
    if (cs.take 9).map Char.toLower = resourceName then ofHyphenated? (cs.drop 9) else none
  | _ => none

/-- The form of an id in JSON. -/
def codec : Json.Codec JobId := .parsed "a formatted job id" parse? text

end JobId

/-- What an image shows, fixed when it is uploaded. -/
inductive ImageKind
  | face
  | idCard
  deriving DecidableEq, Repr

namespace ImageKind

/-- The name of a kind. -/
def name : ImageKind → String
  | .face => "face"
  | .idCard => "id_card"

instance : ToString ImageKind := ⟨name⟩

def all : List ImageKind := [.face, .idCard]

/-- The kind with a name. -/
def ofName? (text : String) : Option ImageKind := all.find? fun kind => kind.name = text

/-- The form of a kind in JSON: its name. -/
def codec : Json.Codec ImageKind := .choice (all.map fun kind => (kind.name, kind)) name

end ImageKind

/-- What is known of an uploaded image. It never changes. -/
structure Image where
  id : Int
  /-- The name that the client was given for the image. -/
  reference : String
  kind : ImageKind
  client : Int
  storagePath : String
  sizeKb : Int
  deriving DecidableEq, Repr

namespace Image

open Json

/-- The members of an image in JSON. -/
def schema : Schema :=
  [⟨"id", Int, .int64⟩, ⟨"reference", String, .text⟩, ⟨"kind", ImageKind, ImageKind.codec⟩,
    ⟨"client_id", Int, .int64⟩, ⟨"storage_path", String, .text⟩, ⟨"size_kb", Int, .int64⟩]

def ofRecord : Record schema → Image
  | (id, reference, kind, client, storagePath, sizeKb, ()) =>
    ⟨id, reference, kind, client, storagePath, sizeKb⟩

def toRecord (image : Image) : Record schema :=
  (image.id, image.reference, image.kind, image.client, image.storagePath, image.sizeKb, ())

/-- The form of an image in JSON. -/
def codec : Codec Image := (Codec.record "UploadedImage" schema).map ofRecord toRecord

end Image

/-- The operation that a job asks for. -/
inductive JobType
  | faceMatch
  | ocr
  deriving DecidableEq, Repr

namespace JobType

/-- The name of a type. -/
def name : JobType → String
  | .faceMatch => "face_match"
  | .ocr => "ocr"

instance : ToString JobType := ⟨name⟩

def all : List JobType := [.faceMatch, .ocr]

/-- The type with a name. -/
def ofName? (text : String) : Option JobType := all.find? fun type => type.name = text

/-- The number of images that a job of this type works on. -/
def imageCount : JobType → Nat
  | .faceMatch => 2
  | .ocr => 1

/-- What those images must show. -/
def imageKind : JobType → ImageKind
  | .faceMatch => .face
  | .ocr => .idCard

/-- The form of a type in JSON: its name. -/
def codec : Json.Codec JobType := .choice (all.map fun type => (type.name, type)) name

end JobType

/-- The progress of a job. Nothing follows completion or failure. -/
inductive JobStatus
  | created
  | processing
  | completed
  | failed
  deriving DecidableEq, Repr

namespace JobStatus

/-- The name of a status. -/
def name : JobStatus → String
  | .created => "created"
  | .processing => "processing"
  | .completed => "completed"
  | .failed => "failed"

instance : ToString JobStatus := ⟨name⟩

def all : List JobStatus := [.created, .processing, .completed, .failed]

/-- The status with a name. -/
def ofName? (text : String) : Option JobStatus := all.find? fun status => status.name = text

/-- Whether the job is over. -/
def isTerminal : JobStatus → Bool
  | .completed | .failed => true
  | .created | .processing => false

/-- How far a job has come; the two ends are equally far. -/
def rank : JobStatus → Nat
  | .created => 0
  | .processing => 1
  | .completed | .failed => 2

/-- The form of a status in JSON: its name. -/
def codec : Json.Codec JobStatus := .choice (all.map fun status => (status.name, status)) name

end JobStatus

open Json

/-- What an identity card says. -/
structure OcrDetails where
  name : String
  gender : String
  dateOfBirth : String
  idNumber : String
  addressLine1 : String
  addressLine2 : String
  pincode : String
  deriving DecidableEq, Repr

namespace OcrDetails

/-- The members of the details in JSON. -/
def schema : Schema :=
  ["name", "gender", "dateOfBirth", "idNumber", "addressLine1", "addressLine2", "pincode"].map
    fun name => ⟨name, String, .text⟩

def ofRecord : Record schema → OcrDetails
  | (name, gender, dateOfBirth, idNumber, addressLine1, addressLine2, pincode, ()) =>
    ⟨name, gender, dateOfBirth, idNumber, addressLine1, addressLine2, pincode⟩

def toRecord (d : OcrDetails) : Record schema :=
  (d.name, d.gender, d.dateOfBirth, d.idNumber, d.addressLine1, d.addressLine2, d.pincode, ())

/-- The form of the details in JSON. -/
def codec : Codec OcrDetails := (Codec.record "OcrDetails" schema).map ofRecord toRecord

end OcrDetails

/-- What a completed job found. -/
inductive JobResult
  /-- How alike two faces are, from 1 to 100. -/
  | faceMatch (score : Int)
  | ocr (details : OcrDetails)
  deriving DecidableEq, Repr

namespace JobResult

/-- The type of the jobs that have such a result. -/
def jobType : JobResult → JobType
  | .faceMatch _ => .faceMatch
  | .ocr _ => .ocr

def ofSum : Int ⊕ OcrDetails → JobResult
  | .inl score => .faceMatch score
  | .inr details => .ocr details

def toSum : JobResult → Int ⊕ OcrDetails
  | .faceMatch score => .inl score
  | .ocr details => .inr details

/-- The form of a result in JSON: a bare number or an object, without a word for which. -/
def codec : Codec JobResult := (Codec.either "JobResult" .int32 OcrDetails.codec).map ofSum toSum

end JobResult

/-- The form of an instant in JSON. -/
def Instant.codec : Codec Instant := .parsed "an RFC 3339 formatted date and time" parse? text

/-- The record of a job. -/
structure Job where
  id : JobId
  type : JobType
  client : Int
  imageIds : List Int
  status : JobStatus
  createdAt : Instant
  processedAt : Option Instant
  completedAt : Option Instant
  failedAt : Option Instant
  failedReason : Option String
  result : Option JobResult
  deriving DecidableEq

namespace Job

/-- The members of a job in JSON. -/
def schema : Schema :=
  [⟨"job_id", JobId, JobId.codec⟩, ⟨"job_type", JobType, JobType.codec⟩,
    ⟨"client_id", Int, .int64⟩, ⟨"input_image_ids", List Int, .list .int64⟩,
    ⟨"status", JobStatus, JobStatus.codec⟩, ⟨"created_at", Instant, Instant.codec⟩,
    ⟨"processed_at", Option Instant, .optional Instant.codec⟩,
    ⟨"completed_at", Option Instant, .optional Instant.codec⟩,
    ⟨"failed_at", Option Instant, .optional Instant.codec⟩,
    ⟨"failed_reason", Option String, .optional .text⟩,
    ⟨"result", Option JobResult, .optional JobResult.codec⟩]

def ofRecord : Record schema → Job
  | (id, type, client, imageIds, status, createdAt, processedAt, completedAt, failedAt,
      failedReason, result, ()) =>
    ⟨id, type, client, imageIds, status, createdAt, processedAt, completedAt, failedAt,
      failedReason, result⟩

def toRecord (job : Job) : Record schema :=
  (job.id, job.type, job.client, job.imageIds, job.status, job.createdAt, job.processedAt,
    job.completedAt, job.failedAt, job.failedReason, job.result, ())

/-- The form of a job in JSON. -/
def codec : Codec Job := (Codec.record "Job" schema).map ofRecord toRecord

/-- A job that has just been accepted. -/
def fresh (id : JobId) (type : JobType) (client : Int) (imageIds : List Int) (now : Instant) : Job :=
  { id, type, client, imageIds, status := .created, createdAt := now, processedAt := none,
    completedAt := none, failedAt := none, failedReason := none, result := none }

end Job

/-- What a store is given to record a job. -/
structure NewJob where
  id : JobId
  type : JobType
  client : Int
  imageIds : List Int
  /-- The key under which no two jobs may be recorded. -/
  fingerprint : String
  deriving DecidableEq

/-- The digest of a submission, as sixty-four hexadecimal digits. -/
structure Fingerprint where
  text : String
  deriving DecidableEq, Repr

namespace Fingerprint

/-- What one image contributes: the job type, the client and the reference, joined by colons. -/
def key (type : JobType) (client : Int) (reference : String) : String :=
  type.name ++ ":" ++ toString client ++ ":" ++ reference

/-- Texts in ascending order of their code points. -/
def sorted (keys : List String) : List String := keys.mergeSort fun a b => decide (¬ b < a)

/-- The keys of the images, sorted and a line each; a single key stands alone. -/
def source (type : JobType) (client : Int) (references : List String) : String :=
  "\n".intercalate (sorted (references.map (key type client)))

/-- The fingerprint of a submission. -/
def compute (type : JobType) (client : Int) (references : List String) : Fingerprint :=
  ⟨String.ofList (Hex.encode (Sha256.digest (Utf8.encode (source type client references))))⟩

end Fingerprint

end Vetting
