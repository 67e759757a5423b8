import Vetting.Assoc
import Vetting.Service

/-!
Services in memory: stores, cache, queue and counters as plain data, executors as functions, virtual
time, and switches that make each service fail. A table of jobs has the records in the order in which they
were made, of which each id has one, and the fingerprints that are taken; a job takes a step only from the
statuses that the step starts from. Main definition: `World.perform`, the reply to a call and the world
after it.
-/
namespace Vetting.Memory

/-- The records and the fingerprints that are taken. -/
structure JobTable where
  jobs : List (JobId × Job)
  fingerprints : List (String × JobId)

namespace JobTable

def empty : JobTable := ⟨[], []⟩

/-- The record of a job. -/
def job? (t : JobTable) (id : JobId) : Option Job := t.jobs.lookup id

/-- Records a job unless its fingerprint is taken. The record takes the place of one with its id. -/
def create (now : Instant) (new : NewJob) (t : JobTable) : Creation × JobTable :=
  match t.fingerprints.lookup new.fingerprint with
  | some existing => (.existing existing, t)
  | none =>
    (.created,
      { jobs := Assoc.renew new.id (Job.fresh new.id new.type new.client new.imageIds now) t.jobs
        fingerprints := t.fingerprints ++ [(new.fingerprint, new.id)] })

/-- Changes a job that has one of the statuses. -/
def change (id : JobId) (sources : List JobStatus) (apply : Job → Job) (t : JobTable) :
    Transition × JobTable :=
  match t.job? id with
  | none => (.skipped none, t)
  | some job =>
    if job.status ∈ sources then (.applied, { t with jobs := Assoc.put id (apply job) t.jobs })
    else (.skipped (some job.status), t)

/-- Takes a job into processing; a job that is there already starts again. -/
def start (now : Instant) (id : JobId) (t : JobTable) : Transition × JobTable :=
  t.change id [.created, .processing] fun job =>
    { job with status := .processing, processedAt := some now }

/-- Records a result. -/
def complete (now : Instant) (id : JobId) (result : JobResult) (t : JobTable) :
    Transition × JobTable :=
  t.change id [.processing] fun job =>
    { job with status := .completed, completedAt := some now, result := some result }

/-- A job with its failure. -/
def failed (now : Instant) (reason : String) (job : Job) : Job :=
  { job with status := .failed, failedAt := some now, failedReason := some reason }

/-- Records a failure. -/
def fail (now : Instant) (id : JobId) (reason : String) (t : JobTable) : Transition × JobTable :=
  t.change id [.created, .processing] (failed now reason)

/-- Fails a job that has not started, and gives its fingerprints free. -/
def abandon (now : Instant) (id : JobId) (reason : String) (t : JobTable) : JobTable :=
  match t.change id [.created] (failed now reason) with
  | (.applied, t) => { t with fingerprints := t.fingerprints.filter fun (_, held) => held ≠ id }
  | (.skipped _, t) => t

/-- The job with an id, if it is of the type. -/
def find (id : JobId) (type : JobType) (t : JobTable) : Option Job :=
  (t.job? id).filter fun job => job.type = type

end JobTable

/-- What can be made to fail, or to answer as it seldom does. -/
inductive Switch
  /-- The store of images. -/
  | images
  /-- The recording of jobs, as an error or as a conflict; the conflict is told first. -/
  | create
  | createConflict
  | abandon
  /-- The start of jobs, as an error or as a refusal. -/
  | processing
  | refuseProcessing
  /-- The recording of results and failures. -/
  | terminalWrites
  /-- The finding of jobs, as an error of the store or of a record; the former is told first. -/
  | find
  | findDecode
  | storeHealth
  /-- The cache: it has nothing and keeps nothing. -/
  | cache
  | publish
  /-- The handing out of deliveries, as a whole. -/
  | consume
  /-- One error before the deliveries. -/
  | receive
  /-- The settling of deliveries; there is no such failure together with one on receiving. -/
  | settle
  | queueHealth
  deriving DecidableEq, Repr

/-- The switches that are on. -/
abbrev Faults := Switch → Bool

/-- How a delivery was settled. -/
inductive Settlement
  | acked (payload : List UInt8)
  | rejected (payload : List UInt8) (requeue : Bool)
  deriving DecidableEq, Repr

/-- What others do while an operation runs. -/
inductive Interruption
  | completes (id : JobId)
  | fails (id : JobId)
  | breaksWrites
  deriving DecidableEq

/-- All the services, and the time. -/
structure World where
  images : List (String × Image)
  store : JobTable
  cache : List (Fingerprint × JobId)
  pending : List (List UInt8)
  settlements : List Settlement
  metrics : Metrics
  /-- Whether the meaning of the counts is told. -/
  described : Bool
  faults : Faults
  /-- Records that are found in place of the stored ones, whatever type is asked for. -/
  rows : List (JobId × Job)
  executors : Executors
  /-- What happens to the operations of some types, so long after their start. -/
  interruptions : List (JobType × Span × Interruption)
  now : Instant
  /-- The nanoseconds that were waited. -/
  waited : Nat

namespace World

/-- The error of a store whose switch is on. -/
def storeFailure : StoreError :=
  .database "pool timed out while waiting for an open connection"

/-- The error of a queue whose switch is on. -/
def brokerFailure : QueueError := .broker "broker unavailable- IoError"

/-- The error of a worker whose id is taken. -/
def consumerFailure : QueueError := .consumerIdInUse "worker \"1\""

/-- A world with nothing in it. -/
def empty (executors : Executors) (now : Instant) : World where
  images := []
  store := .empty
  cache := []
  pending := []
  settlements := []
  metrics := .zero
  described := false
  faults := fun _ => false
  rows := []
  executors
  interruptions := []
  now
  waited := 0

/-- Adds an image, whose id is one more than the number of images. -/
def addImage (reference : String) (kind : ImageKind) (client : Int) (w : World) : Image × World :=
  let image : Image :=
    { id := w.images.length + 1, reference, kind, client
      storagePath := toString client ++ "/" ++ reference ++ ".png", sizeKb := 120 }
  (image, { w with images := Assoc.put reference image w.images })

/-- Turns a switch. -/
def turn (switch : Switch) (on : Bool) (w : World) : World :=
  { w with faults := fun s => if s = switch then on else w.faults s }

/-- Replaces the store by what a transition leaves. -/
def stored (w : World) (outcome : Transition × JobTable) :
    Except StoreError Transition × World :=
  (.ok outcome.1, { w with store := outcome.2 })

def create (new : NewJob) (w : World) : Except StoreError Creation × World :=
  if w.faults .createConflict then (.error (.conflict new.fingerprint), w)
  else if w.faults .create then (.error storeFailure, w)
  else
    let (outcome, store) := w.store.create w.now new
    (.ok outcome, { w with store })

def abandon (id : JobId) (reason : String) (w : World) : Except StoreError Unit × World :=
  if w.faults .abandon then (.error storeFailure, w)
  else (.ok (), { w with store := w.store.abandon w.now id reason })

def start (id : JobId) (w : World) : Except StoreError Transition × World :=
  if w.faults .processing then (.error storeFailure, w)
  else if w.faults .refuseProcessing then w.stored (w.store.change id [] fun job => job)
  else w.stored (w.store.start w.now id)

def complete (id : JobId) (result : JobResult) (w : World) :
    Except StoreError Transition × World :=
  if w.faults .terminalWrites then (.error storeFailure, w)
  else w.stored (w.store.complete w.now id result)

def fail (id : JobId) (reason : String) (w : World) : Except StoreError Transition × World :=
  if w.faults .terminalWrites then (.error storeFailure, w)
  else w.stored (w.store.fail w.now id reason)

def find (id : JobId) (type : JobType) (w : World) : Except StoreError (Option Job) :=
  if w.faults .find then .error storeFailure
  else if w.faults .findDecode then .error (.decode "unknown job status 'paused'")
  else
    match w.rows.lookup id with
    | some job => .ok (some job)
    | none => .ok (w.store.find id type)

def publish (payload : List UInt8) (w : World) : Except QueueError Unit × World :=
  if w.faults .publish then (.error brokerFailure, w)
  else (.ok (), { w with pending := w.pending ++ [payload] })

/-- Hands out all that is pending. -/
def consume (w : World) : Except QueueError (List (Except QueueError Delivery)) × World :=
  if w.faults .consume then (.error consumerFailure, w)
  else
    let settles := w.faults .receive || !w.faults .settle
    let deliveries := w.pending.map fun payload => .ok ⟨payload, settles⟩
    (.ok (if w.faults .receive then .error brokerFailure :: deliveries else deliveries),
      { w with pending := [] })

/-- Notes how a delivery was settled; one that goes back into the queue is pending again. -/
def settle (delivery : Delivery) (verdict : Verdict) (w : World) : Except QueueError Unit × World :=
  if !delivery.settles then (.error brokerFailure, w)
  else
    match verdict with
    | .ack => (.ok (), { w with settlements := w.settlements ++ [.acked delivery.payload] })
    | .reject requeue =>
      (.ok (), { w with
        pending := if requeue then w.pending ++ [delivery.payload] else w.pending
        settlements := w.settlements ++ [.rejected delivery.payload requeue] })

/-- What an interruption does. -/
def interrupt (w : World) : Interruption → World
  | .completes id => (w.complete id (.faceMatch 1)).2
  | .fails id => (w.fail id "settled elsewhere").2
  | .breaksWrites => w.turn .terminalWrites true

/-- Runs an operation; the interruption of its type happens if the operation still runs by then. -/
def execute (task : Task) (w : World) : Option (Except ExecutionError JobResult × World) :=
  match w.executors.execute task with
  | .hangs => none
  | .answers latency outcome =>
    let w := { w with waited := w.waited + latency.nanos }
    match w.interruptions.lookup task.jobType with
    | some (moment, interruption) =>
      some (outcome, if moment.nanos ≤ latency.nanos then w.interrupt interruption else w)
    | none => some (outcome, w)

/-- The reply to a call and the world after it; nothing for an operation that never ends. -/
def perform : (c : Call) → World → Option (c.Reply × World)
  | .findImage reference, w =>
    some (if w.faults .images then .error storeFailure else .ok (w.images.lookup reference), w)
  | .lookup fingerprint, w =>
    some (if w.faults .cache then none else w.cache.lookup fingerprint, w)
  | .remember fingerprint id, w =>
    some ((), if w.faults .cache then w else { w with cache := Assoc.put fingerprint id w.cache })
  | .create job, w => some (w.create job)
  | .abandon id reason, w => some (w.abandon id reason)
  | .start id, w => some (w.start id)
  | .complete id result, w => some (w.complete id result)
  | .fail id reason, w => some (w.fail id reason)
  | .find id type, w => some (w.find id type, w)
  | .checkStore, w => some (if w.faults .storeHealth then .error storeFailure else .ok .zero, w)
  | .publish payload, w => some (w.publish payload)
  | .consume, w => some w.consume
  | .settle delivery verdict, w => some (w.settle delivery verdict)
  | .checkQueue, w => some (if w.faults .queueHealth then .error brokerFailure else .ok .zero, w)
  | .execute task, w => w.execute task
  | .wait span, w => some ((), { w with waited := w.waited + span.nanos })
  | .count counter, w => some ((), { w with metrics := w.metrics.increment counter })
  | .metrics, w => some (w.metrics.lines w.described, w)

/-- Runs a program in a world. -/
def run {α : Type} (program : Service α) (w : World) : Option (α × World) :=
  Program.run perform program w

/-- Forgets all that the cache has. -/
def clearCache (w : World) : World := { w with cache := [] }

end World

end Vetting.Memory
