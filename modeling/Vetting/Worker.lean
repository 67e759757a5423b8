import Vetting.Service

/-!
Workers: they take tasks from the queue, run the operations and record what came of them. Every
delivery is settled once, whatever happens to it. Main definitions: `handle`, for one delivery, and
`work`, for all that the queue hands out.
-/
namespace Vetting

/-- What became of a delivery. -/
inductive DeliveryOutcome
  | completed
  | failed
  /-- The payload carries no task. -/
  | poison
  /-- The job was over already or is not there. -/
  | skipped
  deriving DecidableEq, Repr

/-- The name of an outcome. -/
def DeliveryOutcome.name : DeliveryOutcome → String
  | .completed => "Completed"
  | .failed => "Failed"
  | .poison => "Poison"
  | .skipped => "Skipped"

namespace Worker

/-- How long a worker waits after the queue failed to hand out a delivery. -/
def backoff : Span := .ofSeconds 1

/-- Settles a delivery and ends with an outcome; a queue that does not hear of it changes nothing. -/
def settled (delivery : Delivery) (verdict : Verdict) (outcome : DeliveryOutcome) :
    Service DeliveryOutcome := do
  let _ ← Service.settle delivery verdict
  return outcome

/-- Records that a job failed, and counts it if that was news. -/
def markFailed (task : Task) (reason : String) : Service Unit := do
  match ← Service.fail task.jobId reason with
  | .ok .applied => Service.count (.failed task.jobType)
  | .ok (.skipped _) => return ()
  | .error _ => return ()

/-- The end of a delivery whose operation gave a result, after the attempt to record it. -/
def afterComplete (delivery : Delivery) (task : Task) :
    Except StoreError Transition → Service DeliveryOutcome
  | .ok .applied => do
    Service.count (.completed task.jobType)
    settled delivery .ack .completed
  | .ok (.skipped _) => settled delivery .ack .skipped
  | .error _ => settled delivery (.reject false) .failed

/-- The part of a delivery after its operation. -/
def afterExecute (delivery : Delivery) (task : Task) :
    Except ExecutionError JobResult → Service DeliveryOutcome
  | .ok result => do
    let outcome ← Service.complete task.jobId result
    afterComplete delivery task outcome
  | .error e => do
    markFailed task e.message
    settled delivery (.reject false) .failed

/-- The part of a delivery after the attempt to start its job. A job that is over is done with; one
that may not start for another reason is dropped. -/
def afterStart (delivery : Delivery) (task : Task) :
    Except StoreError Transition → Service DeliveryOutcome
  | .ok .applied => do
    let outcome ← Service.execute task
    Service.count (.executed task.jobType)
    afterExecute delivery task outcome
  | .ok (.skipped (some status)) =>
    settled delivery (if status.isTerminal then .ack else .reject false) .skipped
  | .ok (.skipped none) => settled delivery (.reject false) .skipped
  | .error e => do
    markFailed task e.message
    settled delivery (.reject false) .failed

/-- Handles one delivery and settles it. -/
def handle (delivery : Delivery) : Service DeliveryOutcome := do
  match Task.decode delivery.payload with
  | .error _ =>
    Service.count .poison
    settled delivery (.reject false) .poison
  | .ok task =>
    let outcome ← Service.start task.jobId
    afterStart delivery task outcome

/-- Handles what was received, in order; after an error the worker waits a little. -/
def handleAll : List (Except QueueError Delivery) → Service Unit
  | [] => return ()
  | .ok delivery :: rest => do
    let _ ← handle delivery
    handleAll rest
  | .error _ :: rest => do
    Service.wait backoff
    handleAll rest

/-- Handles all that the queue hands out. -/
def work : Service (Except QueueError Unit) := do
  match ← Service.consume with
  | .error e => return .error e
  | .ok received =>
    handleAll received
    return .ok ()

end Worker

end Vetting
