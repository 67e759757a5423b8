import Vetting.Service

/-!
Status queries: what a client is told of a job. Only the owner is told anything; to others a job is
as good as missing.
-/
namespace Vetting

/-- What is told of a job: as much as its status has to say. -/
inductive StatusView
  | created (createdAt : Instant)
  | processing (processedAt : Instant)
  | failed (failedAt : Instant) (reason : String)
  | completed (completedAt : Instant) (result : JobResult)
  deriving DecidableEq

namespace StatusView

/-- The status that is told. -/
def status : StatusView → JobStatus
  | .created _ => .created
  | .processing _ => .processing
  | .failed .. => .failed
  | .completed .. => .completed

/-- The status in a sentence. -/
def message : StatusView → String
  | .created _ => "job is created"
  | .processing _ => "job is still running"
  | .failed .. => "job is failed"
  | .completed .. => "job is completed"

/-- The members of a view in JSON: the status and what belongs to it. -/
def members (view : StatusView) : List (String × Json.Tree) :=
  ("status", .text view.status.name) ::
    match view with
    | .created t => [("created_at", .text t.text)]
    | .processing t => [("processed_at", .text t.text)]
    | .failed t reason => [("failed_at", .text t.text), ("failed_reason", .text reason)]
    | .completed t result => [("completed_at", .text t.text), ("result", JobResult.codec.toTree result)]

end StatusView

/-- Why a query is not answered. -/
inductive QueryError
  | notFound
  /-- The job is another client's. -/
  | accessDenied
  /-- The record lacks what its status needs. -/
  | inconsistent (id : JobId)
  | store (error : StoreError)
  deriving DecidableEq

namespace QueryError

/-- The wording of an error. -/
def message : QueryError → String
  | .notFound => "job not found"
  | .accessDenied => "job belongs to another client"
  | .inconsistent id => "job " ++ id.text ++ " is missing fields for its status"
  | .store error => "job store error: " ++ error.message

/-- Whether a client must not tell the error from a missing job. -/
def isNotFound : QueryError → Bool
  | .notFound | .accessDenied => true
  | .inconsistent _ | .store _ => false

end QueryError

namespace StatusQuery

/-- The view of a job, if its record has what its status needs; a result must be of the job's
type. -/
def view (job : Job) : Except QueryError StatusView :=
  let required {α : Type} : Option α → Except QueryError α
    | some a => .ok a
    | none => .error (.inconsistent job.id)
  match job.status with
  | .created => .ok (.created job.createdAt)
  | .processing => (required job.processedAt).map .processing
  | .failed => (required job.failedAt).map fun t => .failed t (job.failedReason.getD "")
  | .completed => do
    let t ← required job.completedAt
    let result ← required (job.result.filter fun result => result.jobType = job.type)
    return .completed t result

/-- What a client is told of the job that a store found. -/
def viewFor (client : Int) : Except StoreError (Option Job) → Except QueryError StatusView
  | .error e => .error (.store e)
  | .ok none => .error .notFound
  | .ok (some job) => if job.client ≠ client then .error .accessDenied else view job

/-- Tells a client the status of a job that it names by any text, where jobs are found by `find`. -/
def statusBy {m : Type → Type} [Monad m] (find : JobId → JobType → m (Except StoreError (Option Job)))
    (idText : String) (type : JobType) (client : Int) : m (Except QueryError StatusView) := do
  match JobId.parse? idText with
  | none => return .error .notFound
  | some id => return viewFor client (← find id type)

/-- Tells a client the status of a job that it names by any text. -/
def status : String → JobType → Int → Service (Except QueryError StatusView) := statusBy Service.find

end StatusQuery

end Vetting
