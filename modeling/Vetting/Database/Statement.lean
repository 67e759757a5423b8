import Vetting.Job
import Vetting.Program

/-!
The statements that the stores of images and jobs send to the database: their text, the values that go
with them, and what comes back. Main definitions: `Statement`, `Statement.sql`, `Statement.values` and
`Statement.Reply`. A row holds what its columns hold, any of which may be null.
-/
namespace Vetting.Database

/-- A value that goes with a statement. -/
inductive Value
  | jobId (id : JobId)
  | text (s : String)
  | integer (n : Int)
  | integers (ns : List Int)
  | score (score : Option Int)
  | document (tree : Option Json.Tree)

/-- The form of a value in JSON. -/
def Value.toTree : Value → Json.Tree
  | .jobId id => .text id.text
  | .text s => .text s
  | .integer n => .ofInt n
  | .integers ns => .list (ns.map .ofInt)
  | .score n => (n.map .ofInt).getD .null
  | .document tree => tree.getD .null

/-- A row of the table of jobs. -/
structure JobRow where
  jobId : Option JobId
  client : Option Int
  imageIds : Option (List (Option Int))
  status : Option String
  createdAt : Option Instant
  processedAt : Option Instant
  completedAt : Option Instant
  failedAt : Option Instant
  failedReason : Option String
  matchScore : Option Int
  ocrDetails : Option Json.Tree

/-- A row of the table of images. -/
structure ImageRow where
  id : Option Int
  reference : Option String
  kind : Option String
  client : Option Int
  storagePath : Option String
  sizeKb : Option Int

/-- A statement. -/
inductive Statement
  /-- Records a job unless its fingerprint is taken. -/
  | insertJob (job : NewJob)
  | jobOfFingerprint (fingerprint : String)
  /-- Fails a job that has not started, and gives its fingerprint free. -/
  | abandon (id : JobId) (reason : String)
  | start (id : JobId)
  | complete (id : JobId) (score : Option Int) (details : Option Json.Tree)
  | fail (id : JobId) (reason : String)
  | statusOf (id : JobId)
  | findJob (id : JobId) (type : JobType)
  | findImage (reference : String)
  /-- Asks for nothing. -/
  | check

namespace Statement

/-- The text of a statement, with blanks where lines end. -/
def sql : Statement → String
  | .insertJob _ =>
    "INSERT INTO jobs (job_id, job_type, client_id, input_image_ids, fingerprint, status) " ++
      "VALUES ($1, $2, $3, $4, $5, 'created') ON CONFLICT (fingerprint) DO NOTHING RETURNING job_id"
  | .jobOfFingerprint _ => "SELECT job_id FROM jobs WHERE fingerprint = $1"
  | .abandon .. =>
    "UPDATE jobs SET status = 'failed', failed_at = NOW(), failed_reason = $2, fingerprint = NULL " ++
      "WHERE job_id = $1 AND status = 'created'"
  | .start _ =>
    "UPDATE jobs SET status = 'processing', processed_at = NOW() " ++
      "WHERE job_id = $1 AND status IN ('created', 'processing') RETURNING job_id"
  | .complete .. =>
    "UPDATE jobs SET status = 'completed', completed_at = NOW(), match_score = $2, " ++
      "ocr_details = $3 WHERE job_id = $1 AND status = 'processing' RETURNING job_id"
  | .fail .. =>
    "UPDATE jobs SET status = 'failed', failed_at = NOW(), failed_reason = $2 " ++
      "WHERE job_id = $1 AND status IN ('created', 'processing') RETURNING job_id"
  | .statusOf _ => "SELECT status FROM jobs WHERE job_id = $1"
  | .findJob .. =>
    "SELECT job_id, job_type, client_id, input_image_ids, status, created_at, processed_at, " ++
      "completed_at, failed_at, failed_reason, match_score, ocr_details FROM jobs " ++
      "WHERE job_id = $1 AND job_type = $2"
  | .findImage _ =>
    "SELECT id, reference, kind, client_id, storage_path, size_kb FROM uploads WHERE reference = $1"
  | .check => "SELECT 1"

/-- The values that go with a statement, in the order of their numbers. -/
def values : Statement → List Value
  | .insertJob job =>
    [.jobId job.id, .text job.type.name, .integer job.client, .integers job.imageIds,
      .text job.fingerprint]
  | .jobOfFingerprint fingerprint => [.text fingerprint]
  | .abandon id reason => [.jobId id, .text reason]
  | .start id => [.jobId id]
  | .complete id score details => [.jobId id, .score score, .document details]
  | .fail id reason => [.jobId id, .text reason]
  | .statusOf id => [.jobId id]
  | .findJob id type => [.jobId id, .text type.name]
  | .findImage reference => [.text reference]
  | .check => []

/-- What comes back if the statement is carried out: whether there is a row if that is all that
counts, or the first row if there is one. -/
def Row : Statement → Type
  | .insertJob _ | .start _ | .complete .. | .fail .. => Bool
  | .jobOfFingerprint _ => Option (Option JobId)
  | .statusOf _ => Option (Option String)
  | .findJob .. => Option JobRow
  | .findImage _ => Option ImageRow
  | .abandon .. | .check => Unit

/-- What comes back, or the words in which the database refuses. -/
abbrev Reply (s : Statement) : Type := Except String s.Row

end Statement

/-- A program that talks to the database. -/
abbrev Client := Program Statement Statement.Reply

end Vetting.Database
