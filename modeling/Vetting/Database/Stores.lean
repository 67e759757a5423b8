import Vetting.Assoc
import Vetting.Database.Statement
import Vetting.Service

/-!
The stores of images and jobs on a database. What rows say is read by `JobRow.toJob` and
`ImageRow.toImage`, which take the columns in a fixed order and report the first that cannot be read;
`resultColumns` are the columns in which a result is kept. A job takes a step by one statement, which names
the statuses that the step starts from; where nothing was changed, a second statement asks for the status.
-/
namespace Vetting.Database

/-- What a column says that must not be null. -/
def required {α : Type} (column : String) : Option α → Except StoreError α
  | some a => .ok a
  | none =>
    .error (.database ("error occurred while decoding column \"" ++ column ++
      "\": unexpected null; try decoding as an `Option`"))

/-- The status with a name. -/
def status (name : String) : Except StoreError JobStatus :=
  match JobStatus.ofName? name with
  | some status => .ok status
  | none => .error (.decode ("unknown job status '" ++ name ++ "'"))

/-- The columns of the score and of the details for a result. -/
def resultColumns : JobResult → Option Int × Option Json.Tree
  | .faceMatch score => (some score, none)
  | .ocr details => (none, some (OcrDetails.codec.toTree details))

/-- A document as it is kept: the members in the order of their names, of one name the last. -/
def arranged : Json.Tree → Json.Tree
  | .object members =>
    let latest := members.foldl (fun kept (name, value) => Assoc.put name value kept) []
    .object (latest.mergeSort fun a b => decide (¬ b.1 < a.1))
  | tree => tree

/-- The details in a document. -/
def details (document : Json.Tree) : Except StoreError OcrDetails :=
  (OcrDetails.codec.ofTree (arranged document)).mapError .serialize

namespace JobRow

/-- The result of a job of a type; only a completed one has any. -/
def result (row : JobRow) : JobStatus → JobType → Except StoreError (Option JobResult)
  | .completed, .faceMatch => .ok (row.matchScore.map .faceMatch)
  | .completed, .ocr =>
    match row.ocrDetails with
    | none => .ok none
    | some document => (details document).map fun d => some (.ocr d)
  | .created, _ | .processing, _ | .failed, _ => .ok none

/-- The job of a type that a row tells of. -/
def toJob (row : JobRow) (type : JobType) : Except StoreError Job := do
  let status ← Database.status (← required "status" row.status)
  let result ← row.result status type
  let id ← required "job_id" row.jobId
  let client ← required "client_id" row.client
  let imageIds ← (← required "input_image_ids" row.imageIds).mapM (required "input_image_ids")
  let createdAt ← required "created_at" row.createdAt
  return {
    id, type, client, imageIds, status, createdAt, result
    processedAt := row.processedAt
    completedAt := row.completedAt
    failedAt := row.failedAt
    failedReason := row.failedReason }

end JobRow

/-- The image that a row tells of. -/
def ImageRow.toImage (row : ImageRow) : Except StoreError Image := do
  let name ← required "kind" row.kind
  let id ← required "id" row.id
  let reference ← required "reference" row.reference
  let kind ← match ImageKind.ofName? name with
    | some kind => .ok kind
    | none => .error (.decode ("unknown image kind '" ++ name ++ "'"))
  let client ← required "client_id" row.client
  let storagePath ← required "storage_path" row.storagePath
  let sizeKb ← required "size_kb" row.sizeKb
  return { id, reference, kind, client, storagePath, sizeKb }

/-- A refusal of the database as an error of the store. -/
def refused (words : String) : StoreError :=
  .database ("error returned from database: " ++ words)

/-- Sends a statement. -/
def send (s : Statement) : Client (Except StoreError s.Row) :=
  .call s fun reply => .done (reply.mapError refused)

/-- Records a job unless its fingerprint is taken, and tells the job that has it. -/
def create (job : NewJob) : Client (Except StoreError Creation) := do
  match ← send (.insertJob job) with
  | .error e => return .error e
  | .ok true => return .ok .created
  | .ok false =>
    match ← send (.jobOfFingerprint job.fingerprint) with
    | .error e => return .error e
    | .ok none => return .error (.conflict job.fingerprint)
    | .ok (some id) => return (required "job_id" id).map .existing

/-- Fails a job that was never queued and gives its fingerprint free. -/
def abandon (id : JobId) (reason : String) : Client (Except StoreError Unit) :=
  send (.abandon id reason)

/-- The status that a row tells. -/
def statusIn : Option (Option String) → Except StoreError (Option JobStatus)
  | none => .ok none
  | some name => do return some (← status (← required "status" name))

/-- What became of a step: if no row was changed, the status tells why. -/
def outcome (id : JobId) : Except StoreError Bool → Client (Except StoreError Transition)
  | .error e => return .error e
  | .ok true => return .ok .applied
  | .ok false => do
    match ← send (.statusOf id) with
    | .error e => return .error e
    | .ok found => return (statusIn found).map .skipped

/-- Takes a job into processing, again if need be. -/
def start (id : JobId) : Client (Except StoreError Transition) := do
  outcome id (← send (.start id))

/-- Records the result of a job in processing. -/
def complete (id : JobId) (result : JobResult) : Client (Except StoreError Transition) := do
  let (score, details) := resultColumns result
  outcome id (← send (.complete id score details))

/-- Records the failure of a job that is not over. -/
def fail (id : JobId) (reason : String) : Client (Except StoreError Transition) := do
  outcome id (← send (.fail id reason))

/-- The job with an id, if it is of the type. -/
def find (id : JobId) (type : JobType) : Client (Except StoreError (Option Job)) := do
  match ← send (.findJob id type) with
  | .error e => return .error e
  | .ok none => return .ok none
  | .ok (some row) => return (row.toJob type).map some

/-- The image with a reference. -/
def findImage (reference : String) : Client (Except StoreError (Option Image)) := do
  match ← send (.findImage reference) with
  | .error e => return .error e
  | .ok none => return .ok none
  | .ok (some row) => return row.toImage.map some

/-- Whether the database answers. -/
def check : Client (Except StoreError Unit) := send .check

end Vetting.Database
