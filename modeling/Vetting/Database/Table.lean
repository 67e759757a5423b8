import Vetting.Database.Stores

/-!
The tables of the database and what the statements do to them, each in one step. No two jobs have one
id or one fingerprint, though any number may have no fingerprint, and a score is from 1 to 100. A
statement with a value that the database cannot hold is refused before anything is looked at. Main
definitions: `Tables.perform` and `Tables.run`.
-/
namespace Vetting.Database

/-- The character that no text in the database may have. -/
def holdsNul (s : String) : Bool := s.toList.contains '\x00'

/-- The words in which a value is refused, if it is. -/
def Value.refusal? : Value → Option String
  | .text s => if holdsNul s then some "invalid byte sequence for encoding \"UTF8\": 0x00" else none
  | .document (some tree) =>
    if tree.texts.any holdsNul then some "unsupported Unicode escape sequence" else none
  | .jobId _ | .integer _ | .integers _ | .score _ | .document none => none

/-- A job in its table. -/
structure Record where
  jobId : JobId
  type : JobType
  client : Int
  imageIds : List Int
  fingerprint : Option String
  status : JobStatus
  createdAt : Instant
  processedAt : Option Instant
  completedAt : Option Instant
  failedAt : Option Instant
  failedReason : Option String
  matchScore : Option Int
  ocrDetails : Option Json.Tree

namespace Record

/-- What is recorded of a job at first. -/
def ofNew (now : Instant) (job : NewJob) : Record :=
  { jobId := job.id, type := job.type, client := job.client, imageIds := job.imageIds
    fingerprint := some job.fingerprint, status := .created, createdAt := now, processedAt := none
    completedAt := none, failedAt := none, failedReason := none, matchScore := none
    ocrDetails := none }

/-- The columns that a search for a job gives. -/
def row (r : Record) : JobRow :=
  { jobId := some r.jobId, client := some r.client, imageIds := some (r.imageIds.map some)
    status := some r.status.name, createdAt := some r.createdAt, processedAt := r.processedAt
    completedAt := r.completedAt, failedAt := r.failedAt, failedReason := r.failedReason
    matchScore := r.matchScore, ocrDetails := r.ocrDetails }

end Record

/-- The columns that a search for an image gives. -/
def ImageRow.ofImage (image : Image) : ImageRow :=
  { id := some image.id, reference := some image.reference, kind := some image.kind.name
    client := some image.client, storagePath := some image.storagePath, sizeKb := some image.sizeKb }

/-- The tables. -/
structure Tables where
  jobs : List Record
  images : List Image

namespace Tables

def empty : Tables := ⟨[], []⟩

/-- The refusal of a job whose id is there. -/
def idTaken : String := "duplicate key value violates unique constraint \"jobs_job_id_key\""

/-- The refusal of a score that is out of range. -/
def scoreRefused : String :=
  "new row for relation \"jobs\" violates check constraint \"jobs_match_score_check\""

/-- Adds a job, unless its fingerprint is taken. An id that is there is an error. -/
def insert (now : Instant) (job : NewJob) (t : Tables) : Except String Bool × Tables :=
  if t.jobs.any fun r => r.fingerprint = some job.fingerprint then (.ok false, t)
  else if t.jobs.any fun r => r.jobId = job.id then (.error idTaken, t)
  else (.ok true, { t with jobs := t.jobs ++ [.ofNew now job] })

/-- Whether a job has an id and one of the statuses. -/
def isAt (id : JobId) (sources : List JobStatus) (r : Record) : Bool :=
  r.jobId = id && sources.contains r.status

/-- Changes the jobs that have an id and one of the statuses; tells whether there is one. -/
def update (id : JobId) (sources : List JobStatus) (change : Record → Record) (t : Tables) :
    Bool × Tables :=
  (t.jobs.any (isAt id sources),
    { t with jobs := t.jobs.map fun r => if isAt id sources r then change r else r })

/-- A record of a failed job. -/
def failed (now : Instant) (reason : String) (r : Record) : Record :=
  { r with status := .failed, failedAt := some now, failedReason := some reason }

/-- Whether a score may be recorded. -/
def isScore : Option Int → Bool
  | some score => 1 ≤ score && score ≤ 100
  | none => true

/-- Records a result, unless it breaks the rule for scores. -/
def complete (now : Instant) (id : JobId) (score : Option Int) (details : Option Json.Tree)
    (t : Tables) : Except String Bool × Tables :=
  let (found, changed) := t.update id [.processing] fun r =>
    { r with status := .completed, completedAt := some now, matchScore := score, ocrDetails := details }
  if found && !isScore score then (.error scoreRefused, t) else (.ok found, changed)

/-- What comes back for a statement that is carried out, and the tables after it. -/
def carryOut (now : Instant) : (s : Statement) → Tables → s.Reply × Tables
  | .insertJob job, t => t.insert now job
  | .jobOfFingerprint fingerprint, t =>
    (.ok ((t.jobs.find? fun r => r.fingerprint = some fingerprint).map fun r => some r.jobId), t)
  | .abandon id reason, t =>
    (.ok (), (t.update id [.created] fun r =>
      { failed now reason r with fingerprint := none }).2)
  | .start id, t =>
    let (found, t) := t.update id [.created, .processing] fun r =>
      { r with status := .processing, processedAt := some now }
    (.ok found, t)
  | .complete id score details, t => t.complete now id score details
  | .fail id reason, t =>
    let (found, t) := t.update id [.created, .processing] (failed now reason)
    (.ok found, t)
  | .statusOf id, t =>
    (.ok ((t.jobs.find? fun r => r.jobId = id).map fun r => some r.status.name), t)
  | .findJob id type, t =>
    (.ok ((t.jobs.find? fun r => r.jobId = id && r.type = type).map Record.row), t)
  | .findImage reference, t =>
    (.ok ((t.images.find? fun image => image.reference = reference).map .ofImage), t)
  | .check, t => (.ok (), t)

/-- What comes back for a statement, and the tables after it. -/
def perform (now : Instant) (s : Statement) (t : Tables) : s.Reply × Tables :=
  match s.values.findSome? Value.refusal? with
  | some words => (.error words, t)
  | none => carryOut now s t

/-- Runs a program on the tables. -/
def run {α : Type} (now : Instant) : Client α → Tables → α × Tables
  | .done a, t => (a, t)
  | .call s next, t =>
    let (reply, t) := t.perform now s
    run now (next reply) t

end Tables

end Vetting.Database
