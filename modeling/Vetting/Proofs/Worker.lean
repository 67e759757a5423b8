import Vetting.Worker
import Vetting.Proofs.World

/-!
Where a worker is between two calls (`Worker.Handling` within one delivery, `Worker.Duty` within all
that it received), and all that one call can do to it and to the world. A worker makes no calls but
its own (`Handling.Moves.ofWorker`, `Duty.Moves.ofWorker`).
-/
namespace Vetting.Worker

open Memory

/-- Where the handling of a delivery is, named for the call that comes next. No verdict gives a
delivery back. -/
inductive Handling (d : Delivery)
  | starting (task : Task)
  | executing (task : Task)
  /-- The operation is over and is counted. -/
  | tallying (task : Task) (outcome : Except ExecutionError JobResult)
  | completing (task : Task) (result : JobResult)
  | failing (task : Task) (reason : String)
  /-- Nothing but a count and the settlement is left. -/
  | counting (counter : Counter) (done : Bool) (outcome : DeliveryOutcome)
  | settling (done : Bool) (outcome : DeliveryOutcome)
  | finished (outcome : DeliveryOutcome)

/-- How a delivery is settled that is done with, or that is dropped. -/
def verdict (done : Bool) : Verdict := if done then .ack else .reject false

/-- Whether a delivery is done with whose job may not start. -/
def isOver : Option JobStatus → Bool
  | some status => status.isTerminal
  | none => false

/-- The end of a delivery after the attempt to record its failure. -/
def afterFail (d : Delivery) (task : Task) : Except StoreError Transition → Service DeliveryOutcome
  | .ok .applied => .call (.count (.failed task.jobType)) fun _ => settled d (.reject false) .failed
  | .ok (.skipped _) | .error _ => settled d (.reject false) .failed

namespace Handling

variable {d : Delivery}

/-- The rest of a delivery at a stage. -/
def program : Handling d → Service DeliveryOutcome
  | .starting task => .call (.start task.jobId) (afterStart d task)
  | .executing task =>
    .call (.execute task) fun outcome =>
      .call (.count (.executed task.jobType)) fun _ => afterExecute d task outcome
  | .tallying task outcome =>
    .call (.count (.executed task.jobType)) fun _ => afterExecute d task outcome
  | .completing task result => .call (.complete task.jobId result) (afterComplete d task)
  | .failing task reason => .call (.fail task.jobId reason) (afterFail d task)
  | .counting counter done outcome =>
    .call (.count counter) fun _ => .call (.settle d (verdict done)) fun _ => .done outcome
  | .settling done outcome => .call (.settle d (verdict done)) fun _ => .done outcome
  | .finished outcome => .done outcome

/-- The outcome of a delivery that is settled. -/
def outcome? : Handling d → Option DeliveryOutcome
  | .finished outcome => some outcome
  | _ => none

private theorem result?_program {stage : Handling d} (busy : stage.outcome? = none) :
    stage.program.result? = none := by
  cases stage with
  | finished outcome => cases busy
  | _ => rfl

/-- The stage after the operation of a task was counted. -/
def recording (task : Task) : Except ExecutionError JobResult → Handling d
  | .ok result => .completing task result
  | .error e => .failing task e.message

/-- The stage of a delivery that was just received. -/
def opening (d : Delivery) : Handling d :=
  match Task.decode d.payload with
  | .error _ => .counting .poison false .poison
  | .ok task => .starting task

theorem markFailed_bind (task : Task) (reason : String) :
    ((markFailed task reason).bind fun _ => settled d (.reject false) .failed) =
      .call (.fail task.jobId reason) (afterFail d task) := by
  refine congrArg (Program.call (Call.fail task.jobId reason)) (funext fun reply => ?_)
  match reply with
  | .ok .applied => rfl
  | .ok (.skipped _) => rfl
  | .error _ => rfl

@[simp] theorem program_recording (task : Task) (outcome : Except ExecutionError JobResult) :
    (recording task outcome : Handling d).program = afterExecute d task outcome := by
  cases outcome with
  | ok result => rfl
  | error e => exact (markFailed_bind task e.message).symm

@[simp] theorem program_opening (d : Delivery) : (opening d).program = handle d := by
  unfold opening handle
  cases Task.decode d.payload with
  | error e => rfl
  | ok task => rfl

/-- What one call does to a delivery and to the world. -/
inductive Moves (w : World) : Handling d → Event → Handling d → World → Prop
  | started {task : Task} {job : Job} (found : job ∈ w.store.job? task.jobId)
      (source : job.status ∈ [.created, .processing])
      (made : w.start task.jobId = (.ok .applied, { w with store := (w.store.start w.now task.jobId).2 })) :
      Moves w (.starting task) ⟨w, .start task.jobId, .ok .applied⟩ (.executing task)
        { w with store := (w.store.start w.now task.jobId).2 }
  | refused {task : Task} {status : Option JobStatus}
      (made : w.start task.jobId = (.ok (.skipped status), w))
      (idle : w.faults .refuseProcessing = true ∨
        ∀ job ∈ w.store.job? task.jobId, job.status ∉ [.created, .processing]) :
      Moves w (.starting task) ⟨w, .start task.jobId, .ok (.skipped status)⟩
        (.settling (isOver status) .skipped) w
  | unstarted {task : Task} {error : StoreError} (broken : w.faults .processing = true)
      (made : w.start task.jobId = (.error error, w)) :
      Moves w (.starting task) ⟨w, .start task.jobId, .error error⟩ (.failing task error.message) w
  | executed {task : Task} {outcome : Except ExecutionError JobResult} {after : World}
      (ran : w.execute task = some (outcome, after)) :
      Moves w (.executing task) ⟨w, .execute task, outcome⟩ (.tallying task outcome) after
  | tallied {task : Task} {outcome : Except ExecutionError JobResult} :
      Moves w (.tallying task outcome) ⟨w, .count (.executed task.jobType), ()⟩
        (recording task outcome) (w.counted (.executed task.jobType))
  | completed {task : Task} {result : JobResult} {job : Job} (found : job ∈ w.store.job? task.jobId)
      (source : job.status ∈ [.processing])
      (made : w.complete task.jobId result =
        (.ok .applied, { w with store := (w.store.complete w.now task.jobId result).2 })) :
      Moves w (.completing task result) ⟨w, .complete task.jobId result, .ok .applied⟩
        (.counting (.completed task.jobType) true .completed)
        { w with store := (w.store.complete w.now task.jobId result).2 }
  | outrun {task : Task} {result : JobResult} {status : Option JobStatus}
      (made : w.complete task.jobId result = (.ok (.skipped status), w))
      (idle : ∀ job ∈ w.store.job? task.jobId, job.status ∉ [.processing]) :
      Moves w (.completing task result) ⟨w, .complete task.jobId result, .ok (.skipped status)⟩
        (.settling true .skipped) w
  | unrecorded {task : Task} {result : JobResult} {error : StoreError}
      (broken : w.faults .terminalWrites = true)
      (made : w.complete task.jobId result = (.error error, w)) :
      Moves w (.completing task result) ⟨w, .complete task.jobId result, .error error⟩
        (.settling false .failed) w
  | failed {task : Task} {reason : String} {job : Job} (found : job ∈ w.store.job? task.jobId)
      (source : job.status ∈ [.created, .processing])
      (made : w.fail task.jobId reason =
        (.ok .applied, { w with store := (w.store.fail w.now task.jobId reason).2 })) :
      Moves w (.failing task reason) ⟨w, .fail task.jobId reason, .ok .applied⟩
        (.counting (.failed task.jobType) false .failed)
        { w with store := (w.store.fail w.now task.jobId reason).2 }
  | unfailed {task : Task} {reason : String} {reply : Except StoreError Transition}
      (made : w.fail task.jobId reason = (reply, w)) (news : reply ≠ .ok .applied)
      (idle : w.faults .terminalWrites = true ∨
        ∀ job ∈ w.store.job? task.jobId, job.status ∉ [.created, .processing]) :
      Moves w (.failing task reason) ⟨w, .fail task.jobId reason, reply⟩ (.settling false .failed) w
  | counted {counter : Counter} {done : Bool} {outcome : DeliveryOutcome} :
      Moves w (.counting counter done outcome) ⟨w, .count counter, ()⟩ (.settling done outcome)
        (w.counted counter)
  | settled {done : Bool} {outcome : DeliveryOutcome} {reply : Except QueueError Unit} {after : World}
      (made : w.settle d (verdict done) = (reply, after)) :
      Moves w (.settling done outcome) ⟨w, .settle d (verdict done), reply⟩ (.finished outcome) after

variable {w after : World} {event : Event}

/-- A call takes a delivery from one stage to the next as told, and in no other way. -/
theorem moves_of_turnOf {stage : Handling d} {rest : Service DeliveryOutcome}
    (turned : w.turnOf stage.program = some (event, rest, after)) :
    ∃ later : Handling d, rest = later.program ∧ Moves w stage event later after := by
  cases stage with
  | starting task =>
    obtain ⟨reply, answered, rfl, rfl⟩ := World.turnOf_call turned
    have made : w.start task.jobId = (reply, after) := Option.some.inj answered
    rcases World.start_cases task.jobId w with
      ⟨broken, error⟩ | ⟨status, skips, idle⟩ | ⟨job, found, source, applied⟩
    · cases made.symm.trans error
      exact ⟨.failing task _, markFailed_bind task _, .unstarted broken error⟩
    · cases made.symm.trans skips
      refine ⟨.settling (isOver status) .skipped, ?_, .refused skips idle⟩
      cases status <;> rfl
    · cases made.symm.trans applied
      exact ⟨.executing task, rfl, .started found source applied⟩
  | executing task =>
    obtain ⟨reply, answered, rfl, rfl⟩ := World.turnOf_call turned
    exact ⟨.tallying task reply, rfl, .executed answered⟩
  | tallying task outcome =>
    obtain ⟨reply, answered, rfl, rfl⟩ := World.turnOf_call turned
    cases answered
    exact ⟨recording task outcome, (program_recording task outcome).symm, .tallied⟩
  | completing task result =>
    obtain ⟨reply, answered, rfl, rfl⟩ := World.turnOf_call turned
    have made : w.complete task.jobId result = (reply, after) := Option.some.inj answered
    rcases World.terminal_cases (rfl : w.complete task.jobId result = _) with
      ⟨broken, error⟩ | ⟨status, skips, idle⟩ | ⟨job, found, source, applied⟩
    · cases made.symm.trans error
      exact ⟨.settling false .failed, rfl, .unrecorded broken error⟩
    · cases made.symm.trans skips
      exact ⟨.settling true .skipped, rfl, .outrun skips idle⟩
    · cases made.symm.trans applied
      exact ⟨.counting (.completed task.jobType) true .completed, rfl, .completed found source applied⟩
  | failing task reason =>
    obtain ⟨reply, answered, rfl, rfl⟩ := World.turnOf_call turned
    have made : w.fail task.jobId reason = (reply, after) := Option.some.inj answered
    rcases World.terminal_cases (rfl : w.fail task.jobId reason = _) with
      ⟨broken, error⟩ | ⟨status, skips, idle⟩ | ⟨job, found, source, applied⟩
    · cases made.symm.trans error
      exact ⟨.settling false .failed, rfl, .unfailed error nofun (.inl broken)⟩
    · cases made.symm.trans skips
      exact ⟨.settling false .failed, rfl, .unfailed skips nofun (.inr idle)⟩
    · cases made.symm.trans applied
      exact ⟨.counting (.failed task.jobType) false .failed, rfl, .failed found source applied⟩
  | counting counter done outcome =>
    obtain ⟨reply, answered, rfl, rfl⟩ := World.turnOf_call turned
    cases answered
    exact ⟨.settling done outcome, rfl, .counted⟩
  | settling done outcome =>
    obtain ⟨reply, answered, rfl, rfl⟩ := World.turnOf_call turned
    exact ⟨.finished outcome, rfl, .settled (Option.some.inj answered)⟩
  | finished outcome => cases turned

theorem Moves.perform_eq {stage later : Handling d} (moves : Moves w stage event later after) :
    event.before = w ∧ w.perform event.call = some (event.reply, after) := by
  cases moves with
  | started _ _ made => exact ⟨rfl, congrArg some made⟩
  | refused made _ => exact ⟨rfl, congrArg some made⟩
  | unstarted _ made => exact ⟨rfl, congrArg some made⟩
  | executed ran => exact ⟨rfl, ran⟩
  | tallied => exact ⟨rfl, rfl⟩
  | completed _ _ made => exact ⟨rfl, congrArg some made⟩
  | outrun made _ => exact ⟨rfl, congrArg some made⟩
  | unrecorded _ made => exact ⟨rfl, congrArg some made⟩
  | failed _ _ made => exact ⟨rfl, congrArg some made⟩
  | unfailed made _ _ => exact ⟨rfl, congrArg some made⟩
  | counted => exact ⟨rfl, rfl⟩
  | settled made => exact ⟨rfl, congrArg some made⟩

theorem Moves.ofWorker {stage later : Handling d} (moves : Moves w stage event later after) :
    event.call.OfWorker := by
  cases moves <;> exact trivial

end Handling

/-- The rest of a worker that has received these deliveries. -/
def handleRest (received : List (Except QueueError Delivery)) : Service (Except QueueError Unit) :=
  (handleAll received).bind fun _ => .done (.ok ())

section Run

variable {w mid after : World} {rest received : List (Except QueueError Delivery)}

theorem run_handleAll_cons {d : Delivery} {outcome : DeliveryOutcome}
    (ran : w.run (handle d) = some (outcome, mid)) :
    w.run (handleAll (.ok d :: rest)) = mid.run (handleAll rest) := by
  show w.run ((handle d).bind fun _ => handleAll rest) = _
  rw [World.run, Program.run_bind, ← World.run, ran]
  rfl

/-- A worker that receives is done when it has handled all that it received. -/
theorem run_work_received (made : w.consume = (.ok received, mid))
    (ran : mid.run (handleAll received) = some ((), after)) : w.run work = some (.ok (), after) := by
  have answered : w.perform .consume = some (.ok received, mid) := congrArg some made
  refine (World.run_answered answered).trans ?_
  show mid.run (handleRest received) = _
  rw [handleRest, World.run, Program.run_bind, ← World.run, ran]
  rfl

end Run

/-- Where a worker is: before it receives, within a delivery, waiting after an error, or done. -/
inductive Duty
  | receiving
  | handling (d : Delivery) (stage : Handling d) (busy : stage.outcome? = none)
      (rest : List (Except QueueError Delivery))
  | waiting (rest : List (Except QueueError Delivery))
  | finished (result : Except QueueError Unit)

namespace Duty

/-- The rest of a worker's program. -/
def program : Duty → Service (Except QueueError Unit)
  | .receiving => work
  | .handling _ stage _ rest => stage.program.bind fun _ => handleRest rest
  | .waiting rest => .call (.wait backoff) fun _ => handleRest rest
  | .finished result => .done result

@[simp] theorem outcome?_opening (d : Delivery) : (Handling.opening d).outcome? = none := by
  unfold Handling.opening
  split <;> rfl

/-- Turns to the next of the deliveries. -/
def resume : List (Except QueueError Delivery) → Duty
  | [] => .finished (.ok ())
  | .ok d :: rest => .handling d (.opening d) (outcome?_opening d) rest
  | .error _ :: rest => .waiting rest

/-- Goes on with a delivery, or with the next one if it is settled. -/
def proceed (d : Delivery) (stage : Handling d) (rest : List (Except QueueError Delivery)) : Duty :=
  if busy : stage.outcome? = none then .handling d stage busy rest else resume rest

@[simp] theorem program_resume (received : List (Except QueueError Delivery)) :
    (resume received).program = handleRest received := by
  match received with
  | [] => rfl
  | .ok d :: rest =>
    show (Handling.opening d).program.bind _ = ((handle d).bind fun _ => handleAll rest).bind _
    rw [Handling.program_opening, Program.bind_assoc]
    rfl
  | .error _ :: rest => rfl

@[simp] theorem program_proceed (d : Delivery) (stage : Handling d)
    (rest : List (Except QueueError Delivery)) :
    (proceed d stage rest).program = stage.program.bind fun _ => handleRest rest := by
  unfold proceed
  cases stage with
  | finished outcome => exact program_resume rest
  | _ => rfl

/-- A worker with a delivery that is not settled is not done. -/
theorem eq_finished {duty : Duty} {result : Except QueueError Unit}
    (done : duty.program = .done result) : duty = .finished result := by
  cases duty with
  | handling d stage busy rest =>
    have running := Handling.result?_program busy
    cases left : stage.program with
    | done outcome =>
      rw [left] at running
      cases running
    | call c next =>
      rw [program, left] at done
      cases done
  | receiving => cases done
  | waiting rest => cases done
  | finished other =>
    cases done
    rfl

/-- What one call does to a worker and to the world. -/
inductive Moves (w : World) : Duty → Event → Duty → World → Prop
  | barred {error : QueueError} {after : World} (made : w.consume = (.error error, after)) :
      Moves w .receiving ⟨w, .consume, .error error⟩ (.finished (.error error)) after
  | received {received : List (Except QueueError Delivery)} {after : World}
      (made : w.consume = (.ok received, after)) :
      Moves w .receiving ⟨w, .consume, .ok received⟩ (resume received) after
  | handled {d : Delivery} {stage later : Handling d} {busy : stage.outcome? = none} {event : Event}
      {after : World} {rest : List (Except QueueError Delivery)}
      (moves : Handling.Moves w stage event later after) :
      Moves w (.handling d stage busy rest) event (proceed d later rest) after
  | waited {rest : List (Except QueueError Delivery)} :
      Moves w (.waiting rest) ⟨w, .wait backoff, ()⟩ (resume rest)
        { w with waited := w.waited + backoff.nanos }

variable {w after : World} {event : Event}

theorem moves_of_turnOf {duty : Duty} {rest : Service (Except QueueError Unit)}
    (turned : w.turnOf duty.program = some (event, rest, after)) :
    ∃ later : Duty, rest = later.program ∧ Moves w duty event later after := by
  cases duty with
  | receiving =>
    obtain ⟨reply, answered, rfl, rfl⟩ := World.turnOf_call turned
    have made : w.consume = (reply, after) := Option.some.inj answered
    cases reply with
    | error e => exact ⟨.finished (.error e), rfl, .barred made⟩
    | ok received => exact ⟨resume received, (program_resume received).symm, .received made⟩
  | handling d stage busy rest =>
    obtain ⟨left, within, rfl⟩ := World.turnOf_bind (Handling.result?_program busy) turned
    obtain ⟨later, rfl, moves⟩ := Handling.moves_of_turnOf within
    exact ⟨proceed d later rest, (program_proceed d later rest).symm, .handled moves⟩
  | waiting rest =>
    obtain ⟨reply, answered, rfl, rfl⟩ := World.turnOf_call turned
    cases answered
    exact ⟨resume rest, (program_resume rest).symm, .waited⟩
  | finished result => cases turned

theorem Moves.perform_eq {duty later : Duty} (moves : Moves w duty event later after) :
    event.before = w ∧ w.perform event.call = some (event.reply, after) := by
  cases moves with
  | barred made => exact ⟨rfl, congrArg some made⟩
  | received made => exact ⟨rfl, congrArg some made⟩
  | handled moves => exact moves.perform_eq
  | waited => exact ⟨rfl, rfl⟩

theorem Moves.ofWorker {duty later : Duty} (moves : Moves w duty event later after) :
    event.call.OfWorker := by
  cases moves with
  | handled moves => exact moves.ofWorker
  | _ => exact trivial

end Duty

end Vetting.Worker
