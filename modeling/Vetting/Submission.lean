import Vetting.Service

/-!
Submissions: a client asks for an operation on images it has uploaded. Work that is known already is
answered with the id of its job; new work is recorded and queued. Main definition: `submit`.
-/
namespace Vetting

/-- Why a submission is not accepted. -/
inductive SubmitError
  | imageCount (type : JobType) (actual : Nat)
  | unknownImage (reference : String)
  | foreignImage
  | wrongKind (expected : ImageKind) (reference : String)
  | store (error : StoreError)
  | queue (error : QueueError)
  deriving DecidableEq

namespace SubmitError

/-- The wording of an error. A missing and a foreign image read the same. -/
def message : SubmitError → String
  | .imageCount type actual =>
    type.name ++ " expects " ++ toString type.imageCount ++ " image id(s), got " ++ toString actual
  | .unknownImage _ => "invalid or missing image id"
  | .foreignImage => "invalid or missing image id"
  | .wrongKind expected reference => "image " ++ reference ++ " is not a " ++ expected.name ++ " image"
  | .store error => "job store error: " ++ error.message
  | .queue error => "task queue error: " ++ error.message

/-- Whether the client is at fault, and not a service. -/
def isValidation : SubmitError → Bool
  | .store _ | .queue _ => false
  | _ => true

end SubmitError

namespace Submission

/-- What is recorded as the reason of a job that did not reach the queue. -/
def unqueuedReason : String := "job could not be queued"

/-- The images with these references; the first that is missing is told. -/
def findImages : List String → Service (Except SubmitError (List Image))
  | [] => return .ok []
  | reference :: rest => do
    match ← Service.findImage reference with
    | .error e => return .error (.store e)
    | .ok none => return .error (.unknownImage reference)
    | .ok (some image) => return (← findImages rest).map (image :: ·)

/-- All images must be the client's; if they are, all must be of the kind that the type needs. -/
def checkImages (type : JobType) (client : Int) (images : List Image) : Except SubmitError Unit :=
  if images.any fun image => image.client ≠ client then .error .foreignImage
  else
    match images.find? fun image => image.kind ≠ type.imageKind with
    | some image => .error (.wrongKind type.imageKind image.reference)
    | none => .ok ()

/-- The images of a submission: their number, their presence, their owner and their kind are checked
in this order. -/
def validate (type : JobType) (client : Int) (references : List String) :
    Service (Except SubmitError (List Image)) := do
  if references.length ≠ type.imageCount then
    return .error (.imageCount type references.length)
  match ← findImages references with
  | .error e => return .error e
  | .ok images =>
    match checkImages type client images with
    | .error e => return .error e
    | .ok () => return .ok images

/-- Whether work on a job has begun. A job that is only recorded may still be abandoned by the
submission that recorded it. -/
def hasStarted (id : JobId) (type : JobType) : Service Bool := do
  match ← Service.find id type with
  | .ok (some job) => return job.status ≠ .created
  | .ok none => return false
  | .error _ => return false

/-- The end of a submission whose job was there already. -/
def answerExisting (type : JobType) (fingerprint : Fingerprint) (existing : JobId) :
    Service (Except SubmitError JobId) := do
  Service.count (.deduplicated type)
  if ← hasStarted existing type then
    Service.remember fingerprint existing
  return .ok existing

/-- The end of a submission whose job was recorded, after the attempt to queue it. -/
def afterPublish (type : JobType) (fingerprint : Fingerprint) (id : JobId) :
    Except QueueError Unit → Service (Except SubmitError JobId)
  | .error e => do
    let _ ← Service.abandon id unqueuedReason
    return .error (.queue e)
  | .ok () => do
    Service.remember fingerprint id
    Service.count (.submitted type)
    return .ok id

/-- The part of a submission after the attempt to record its job. -/
def afterCreate (type : JobType) (fingerprint : Fingerprint) (task : Task) :
    Except StoreError Creation → Service (Except SubmitError JobId)
  | .error e => return .error (.store e)
  | .ok (.existing existing) => answerExisting type fingerprint existing
  | .ok .created => do
    let queued ← Service.publish task.encode
    afterPublish type fingerprint task.jobId queued

/-- The part of a submission after its images are found good. -/
def record (drawn : JobId) (type : JobType) (client : Int) (references : List String)
    (images : List Image) : Service (Except SubmitError JobId) := do
  let fingerprint := Fingerprint.compute type client references
  match ← Service.lookup fingerprint with
  | some id =>
    Service.count (.deduplicated type)
    return .ok id
  | none =>
    match Task.ofImages? type drawn references with
    | none => return .error (.imageCount type references.length)
    | some task =>
      let job : NewJob :=
        { id := drawn, type, client, imageIds := images.map (·.id), fingerprint := fingerprint.text }
      let outcome ← Service.create job
      afterCreate type fingerprint task outcome

/-- Submits work. A new job gets the id `drawn`; work that was submitted before, with the images in
any order, is answered with the id of its job. -/
def submit (drawn : JobId) (type : JobType) (client : Int) (references : List String) :
    Service (Except SubmitError JobId) := do
  match ← validate type client references with
  | .error e => return .error e
  | .ok images => record drawn type client references images

end Submission

end Vetting
