import Vetting.Executor
import Vetting.Job
import Vetting.Metrics
import Vetting.Program

/-!
The services that submissions, queries and workers call on: the stores of images and jobs, the cache
of fingerprints, the task queue, the executors and the counters. A call and its reply are one atomic
step.
-/
namespace Vetting

/-- Why a store gave no answer. -/
inductive StoreError
  | database (text : String)
  | decode (text : String)
  | serialize (cause : Json.Cause)
  /-- The fingerprint is taken, and no job holds it. -/
  | conflict (fingerprint : String)
  deriving DecidableEq, Repr

/-- The wording of an error. -/
def StoreError.message : StoreError → String
  | .database text => "Database error: " ++ text
  | .decode text => "Failed to decode stored job: " ++ text
  | .serialize cause => "Result serialization error: " ++ cause.message
  | .conflict fingerprint => "Fingerprint " ++ fingerprint ++ " conflicted but no job holds it"

/-- Why the queue gave no answer. -/
inductive QueueError
  | broker (text : String)
  | serialize (fault : Json.Fault)
  /-- Another live consumer holds the id. -/
  | consumerIdInUse (consumer : String)
  deriving DecidableEq, Repr

/-- The wording of an error. -/
def QueueError.message : QueueError → String
  | .broker text => "Redis error: " ++ text
  | .serialize fault => "Serialization error: " ++ fault.cause.message
  | .consumerIdInUse consumer =>
    "Consumer id " ++ Quoted.quote consumer ++ " is held by another live consumer"

/-- What became of a job that was to be recorded. -/
inductive Creation
  | created
  /-- A job with the fingerprint is there already. -/
  | existing (id : JobId)
  deriving DecidableEq

/-- What became of a step in a job's progress. -/
inductive Transition
  | applied
  /-- The job may not take the step from the status it has, or is not there. -/
  | skipped (status : Option JobStatus)
  deriving DecidableEq

/-- A payload that was handed out, and whether the queue will hear how it was settled. -/
structure Delivery where
  payload : List UInt8
  settles : Bool
  deriving DecidableEq, Repr

/-- How a delivery is settled: done with, or given back, to be queued again or not. -/
inductive Verdict
  | ack
  | reject (requeue : Bool)
  deriving DecidableEq, Repr

/-- A call on a service. -/
inductive Call
  | findImage (reference : String)
  | lookup (fingerprint : Fingerprint)
  | remember (fingerprint : Fingerprint) (id : JobId)
  | create (job : NewJob)
  | abandon (id : JobId) (reason : String)
  | start (id : JobId)
  | complete (id : JobId) (result : JobResult)
  | fail (id : JobId) (reason : String)
  | find (id : JobId) (type : JobType)
  | checkStore
  | publish (payload : List UInt8)
  | consume
  | settle (delivery : Delivery) (verdict : Verdict)
  | checkQueue
  | execute (task : Task)
  | wait (span : Span)
  | count (counter : Counter)
  | metrics

/-- The reply to a call. -/
def Call.Reply : Call → Type
  | .findImage _ => Except StoreError (Option Image)
  | .lookup _ => Option JobId
  | .remember .. => Unit
  | .create _ => Except StoreError Creation
  | .abandon .. => Except StoreError Unit
  | .start _ => Except StoreError Transition
  | .complete .. => Except StoreError Transition
  | .fail .. => Except StoreError Transition
  | .find .. => Except StoreError (Option Job)
  | .checkStore => Except StoreError Span
  | .publish _ => Except QueueError Unit
  | .consume => Except QueueError (List (Except QueueError Delivery))
  | .settle .. => Except QueueError Unit
  | .checkQueue => Except QueueError Span
  | .execute _ => Except ExecutionError JobResult
  | .wait _ => Unit
  | .count _ => Unit
  | .metrics => List String

/-- A program that calls on the services. -/
abbrev Service := Program Call Call.Reply

namespace Service

/-- The image with a reference. -/
def findImage (reference : String) : Service (Except StoreError (Option Image)) :=
  .call (.findImage reference) .done

/-- The job that the cache has for a fingerprint; a cache that fails has none. -/
def lookup (fingerprint : Fingerprint) : Service (Option JobId) := .call (.lookup fingerprint) .done

/-- Tells the cache the job of a fingerprint. -/
def remember (fingerprint : Fingerprint) (id : JobId) : Service Unit :=
  .call (.remember fingerprint id) .done

/-- Records a job, unless its fingerprint is taken. -/
def create (job : NewJob) : Service (Except StoreError Creation) := .call (.create job) .done

/-- Fails a job that was never queued and gives its fingerprint free. -/
def abandon (id : JobId) (reason : String) : Service (Except StoreError Unit) :=
  .call (.abandon id reason) .done

/-- Takes a job into processing, again if need be. -/
def start (id : JobId) : Service (Except StoreError Transition) := .call (.start id) .done

/-- Records the result of a job in processing. -/
def complete (id : JobId) (result : JobResult) : Service (Except StoreError Transition) :=
  .call (.complete id result) .done

/-- Records the failure of a job that is not over. -/
def fail (id : JobId) (reason : String) : Service (Except StoreError Transition) :=
  .call (.fail id reason) .done

/-- The job with an id, if it is of the type. -/
def find (id : JobId) (type : JobType) : Service (Except StoreError (Option Job)) :=
  .call (.find id type) .done

/-- Whether the store of jobs can be reached, and how long it took to tell. -/
def checkStore : Service (Except StoreError Span) := .call .checkStore .done

/-- Puts a payload into the queue. -/
def publish (payload : List UInt8) : Service (Except QueueError Unit) :=
  .call (.publish payload) .done

/-- What the queue hands out, with the errors on the way. -/
def consume : Service (Except QueueError (List (Except QueueError Delivery))) := .call .consume .done

/-- Settles a delivery. -/
def settle (delivery : Delivery) (verdict : Verdict) : Service (Except QueueError Unit) :=
  .call (.settle delivery verdict) .done

/-- Whether the queue can be reached, and how long it took to tell. -/
def checkQueue : Service (Except QueueError Span) := .call .checkQueue .done

/-- Runs the operation of a task. -/
def execute (task : Task) : Service (Except ExecutionError JobResult) := .call (.execute task) .done

/-- Lets time pass. -/
def wait (span : Span) : Service Unit := .call (.wait span) .done

/-- Counts once more. -/
def count (counter : Counter) : Service Unit := .call (.count counter) .done

/-- The lines of the counts for a monitor. -/
def metrics : Service (List String) := .call .metrics .done

end Service

end Vetting
