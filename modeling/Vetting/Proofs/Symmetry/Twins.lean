import Vetting.Proofs.Task
import Vetting.Proofs.Worker
import Vetting.Proofs.Symmetry.Reordering

/-!
Deliveries that differ in the order of a pair. A worker makes the same calls for either, but for the pair
that it has compared and for the payload that it settles (`Twins`); so it treats either alike if the executor
that compares faces does (`Executors.Evenhanded`), and leaves worlds that are the same but for the images of
records and the payloads that were settled (`World.work_alike`).
-/
namespace Vetting

open Memory

namespace Task

/-- The task with its pair in the other order. -/
def swapped : Task → Task
  | .faceMatch task => .faceMatch ⟨task.jobId, task.image2, task.image1⟩
  | .ocr task => .ocr task

/-- Whether tasks are the same but for the order of their pair. -/
def Turns (task other : Task) : Prop := other = task ∨ other = task.swapped

variable {task other : Task}

private theorem Turns.jobId_eq (turns : task.Turns other) : other.jobId = task.jobId := by
  rcases turns with rfl | rfl
  · rfl
  · cases task <;> rfl

private theorem Turns.jobType_eq (turns : task.Turns other) : other.jobType = task.jobType := by
  rcases turns with rfl | rfl
  · rfl
  · cases task <;> rfl

/-- Whether payloads are the same, or carry tasks that are the same but for the order of their pair. -/
inductive Carries : List UInt8 → List UInt8 → Prop
  | same (payload : List UInt8) : Carries payload payload
  | turned {payload mirrored : List UInt8} {task : Task} (carried : decode payload = .ok task)
      (also : decode mirrored = .ok task.swapped) : Carries payload mirrored

end Task

/-- Whether the order of a pair makes no difference to its comparison. -/
def Executors.Evenhanded (executors : Executors) : Prop :=
  ∀ image1 image2, executors.matchFaces image1 image2 = executors.matchFaces image2 image1

private theorem Executors.Evenhanded.execute_eq {executors : Executors} (even : executors.Evenhanded)
    {task other : Task} (turns : task.Turns other) : executors.execute other = executors.execute task := by
  rcases turns with rfl | rfl
  · rfl
  · cases task with
    | faceMatch task =>
      exact congrArg (fun course => (course.map checkScore).limited executors.limit)
        (even task.image2 task.image1)
    | ocr task => rfl

namespace Worker

/-- Whether two programs make the same calls, but for the order of a pair that is to be compared and for
which of two deliveries they settle that the queue hears of alike. -/
inductive Twins {α : Type} : Service α → Service α → Prop
  | done (a : α) : Twins (.done a) (.done a)
  | call {c : Call} {next also : c.Reply → Service α} (own : c.OfDelivery)
      (rest : ∀ reply, Twins (next reply) (also reply)) : Twins (.call c next) (.call c also)
  | execute {task other : Task} {next : (Call.execute task).Reply → Service α}
      {also : (Call.execute other).Reply → Service α} (turns : task.Turns other)
      (rest : ∀ outcome : Except ExecutionError JobResult, Twins (next outcome) (also outcome)) :
      Twins (.call (.execute task) next) (.call (.execute other) also)
  | settle {d other : Delivery} {verdict : Verdict} {next : (Call.settle d verdict).Reply → Service α}
      {also : (Call.settle other verdict).Reply → Service α} (hears : other.settles = d.settles)
      (rest : ∀ reply : Except QueueError Unit, Twins (next reply) (also reply)) :
      Twins (.call (.settle d verdict) next) (.call (.settle other verdict) also)

namespace Twins

variable {α β : Type}

private theorem bind {p q : Service α} {f g : α → Service β} (first : Twins p q)
    (second : ∀ a, Twins (f a) (g a)) : Twins (p.bind f) (q.bind g) := by
  induction first with
  | done a => exact second a
  | call own _ ih => exact .call own ih
  | execute turns _ ih => exact .execute turns ih
  | settle hears _ ih => exact .settle hears ih

/-- Twins go alike in worlds that are the same but for the images of a record, what is pending and how
deliveries were settled. -/
theorem run_alike {id : JobId} {p q : Service α} (twins : Twins p q) :
    ∀ {w v : World}, v.executors.Evenhanded → w.bare id = v.bare id →
      (w.run p).map (World.bareEnd id) = (v.run q).map (World.bareEnd id) := by
  induction twins with
  | done a => exact fun _ same => congrArg (fun u => some (a, u)) same
  | @call c next also own _ ih =>
    intro w v even same
    rw [World.run_call, World.run_call]
    refine World.bind_alike (World.perform_alike own same) fun reply after later answered alike => ?_
    exact ih reply (World.perform_executors answered ▸ even) alike
  | @execute task other next also turns _ ih =>
    intro w v even same
    have called : v.perform (.execute other) = v.perform (.execute task) := by
      show v.execute other = v.execute task
      rw [World.execute, World.execute, even.execute_eq turns, turns.jobType_eq]
    rw [World.run_call, World.run_call, called]
    refine World.bind_alike (World.perform_alike (c := .execute task) trivial same)
      fun outcome after later answered alike => ?_
    exact ih outcome (World.perform_executors (c := .execute task) answered ▸ even) alike
  | @settle d other verdict next also hears _ ih =>
    intro w v even same
    have settles : (w.perform (.settle d verdict)).map (World.bareEnd id) =
        (v.perform (.settle other verdict)).map (World.bareEnd id) :=
      congrArg some (World.settle_alike hears same verdict)
    rw [World.run_call, World.run_call]
    refine World.bind_alike settles fun reply after later answered alike => ?_
    exact ih reply (World.perform_executors (c := .settle other verdict) answered ▸ even) alike

end Twins

section Delivery

variable {d other : Delivery} {task turned : Task}

private theorem twins_settled (hears : other.settles = d.settles) (verdict : Verdict)
    (outcome : DeliveryOutcome) : Twins (settled d verdict outcome) (settled other verdict outcome) :=
  .settle hears fun _ => .done outcome

private theorem twins_markFailed (hears : other.settles = d.settles) (turns : task.Turns turned)
    (reason : String) : Twins ((markFailed task reason).bind fun _ => settled d (.reject false) .failed)
      ((markFailed turned reason).bind fun _ => settled other (.reject false) .failed) := by
  rw [Handling.markFailed_bind, Handling.markFailed_bind, turns.jobId_eq]
  refine .call trivial fun reply => ?_
  match reply with
  | .ok .applied =>
    rw [afterFail, afterFail, turns.jobType_eq]
    exact .call trivial fun _ => twins_settled hears _ _
  | .ok (.skipped _) => exact twins_settled hears _ _
  | .error _ => exact twins_settled hears _ _

private theorem twins_afterExecute (hears : other.settles = d.settles) (turns : task.Turns turned)
    (outcome : Except ExecutionError JobResult) :
    Twins (afterExecute d task outcome) (afterExecute other turned outcome) := by
  cases outcome with
  | error e => exact twins_markFailed hears turns e.message
  | ok result =>
    show Twins (.call (.complete task.jobId result) (afterComplete d task))
      (.call (.complete turned.jobId result) (afterComplete other turned))
    rw [turns.jobId_eq]
    refine .call trivial fun reply => ?_
    match reply with
    | .ok .applied =>
      show Twins (.call (.count (.completed task.jobType)) fun _ => settled d .ack .completed)
        (.call (.count (.completed turned.jobType)) fun _ => settled other .ack .completed)
      rw [turns.jobType_eq]
      exact .call trivial fun _ => twins_settled hears _ _
    | .ok (.skipped _) => exact twins_settled hears _ _
    | .error _ => exact twins_settled hears _ _

private theorem twins_afterStart (hears : other.settles = d.settles) (turns : task.Turns turned)
    (reply : Except StoreError Transition) :
    Twins (afterStart d task reply) (afterStart other turned reply) := by
  match reply with
  | .ok .applied =>
    refine .execute turns fun outcome => ?_
    show Twins (.call (.count (.executed task.jobType)) fun _ => afterExecute d task outcome)
      (.call (.count (.executed turned.jobType)) fun _ => afterExecute other turned outcome)
    rw [turns.jobType_eq]
    exact .call trivial fun _ => twins_afterExecute hears turns outcome
  | .ok (.skipped (some _)) => exact twins_settled hears _ _
  | .ok (.skipped none) => exact twins_settled hears _ _
  | .error e => exact twins_markFailed hears turns e.message

private theorem twins_handle (hears : other.settles = d.settles)
    (carries : Task.Carries d.payload other.payload) : Twins (handle d) (handle other) := by
  have starts : ∀ {task turned : Task}, task.Turns turned →
      Twins (.call (.start task.jobId) (afterStart d task))
        (.call (.start turned.jobId) (afterStart other turned)) := by
    intro task turned turns
    rw [turns.jobId_eq]
    exact .call trivial fun reply => twins_afterStart hears turns reply
  unfold handle
  generalize d.payload = payload at carries
  generalize other.payload = mirrored at carries
  cases carries with
  | turned carried also =>
    rw [carried, also]
    exact starts (.inr rfl)
  | same =>
    cases Task.decode payload with
    | error e => exact .call trivial fun _ => twins_settled hears _ _
    | ok task => exact starts (.inl rfl)

end Delivery

/-- Whether a worker receives the same, but for the order of a pair. -/
inductive Receives : Except QueueError Delivery → Except QueueError Delivery → Prop
  | error (e : QueueError) : Receives (.error e) (.error e)
  | ok {payload mirrored : List UInt8} (carries : Task.Carries payload mirrored) (settles : Bool) :
      Receives (.ok ⟨payload, settles⟩) (.ok ⟨mirrored, settles⟩)

private theorem twins_handleAll {received others : List (Except QueueError Delivery)}
    (receives : List.Forall₂ Receives received others) : Twins (handleAll received) (handleAll others) := by
  induction receives with
  | nil => exact .done ()
  | cons first _ ih =>
    cases first with
    | error e => exact .call trivial fun _ => ih
    | @ok payload mirrored carries settles =>
      have first : Twins (handle ⟨payload, settles⟩) (handle ⟨mirrored, settles⟩) := twins_handle rfl carries
      exact first.bind fun _ => ih

end Worker

namespace Memory.World

variable {w v : World} {id : JobId}

/-- Queues that hold the same but for the order of a pair hand out the same but for that order. -/
theorem consume_alike (same : w.bare id = v.bare id)
    (carries : List.Forall₂ Task.Carries w.pending v.pending) :
    (∃ e, w.consume = (.error e, w) ∧ v.consume = (.error e, v)) ∨
      ∃ received others, w.consume = (.ok received, { w with pending := [] }) ∧
        v.consume = (.ok others, { v with pending := [] }) ∧
        List.Forall₂ Worker.Receives received others := by
  have faults : (w.bare id).faults = (v.bare id).faults := congrArg World.faults same
  replace faults : w.faults = v.faults := faults
  unfold consume
  rw [faults]
  by_cases broken : v.faults .consume = true
  · exact .inl ⟨_, if_pos broken, if_pos broken⟩
  have received : ∀ settles, List.Forall₂ Worker.Receives
      (w.pending.map fun payload => .ok ⟨payload, settles⟩)
      (v.pending.map fun payload => .ok ⟨payload, settles⟩) := by
    intro settles
    rw [List.forall₂_map_left_iff, List.forall₂_map_right_iff]
    exact carries.imp fun _ _ carried => .ok carried settles
  refine .inr ⟨_, _, if_neg broken, if_neg broken, ?_⟩
  split
  · exact .cons (.error _) (received _)
  · exact received _

/-- A worker treats what it takes from either queue alike. -/
theorem work_alike (even : v.executors.Evenhanded) (same : w.bare id = v.bare id)
    (carries : List.Forall₂ Task.Carries w.pending v.pending) :
    (w.run Worker.work).map (bareEnd id) = (v.run Worker.work).map (bareEnd id) := by
  rcases consume_alike same carries with ⟨e, made, also⟩ | ⟨received, others, made, also, receives⟩
  · have ends : ∀ {u : World}, u.consume = (.error e, u) → u.run Worker.work = some (.error e, u) :=
      fun {u} made => run_answered (c := .consume) (congrArg some made)
    rw [ends made, ends also, Option.map_some, Option.map_some, bareEnd, bareEnd, same]
  · have goes : ∀ {u : World} {received}, u.consume = (.ok received, { u with pending := [] }) →
        u.run Worker.work = World.run (Worker.handleRest received) { u with pending := [] } :=
      fun {u received} made => run_answered (c := .consume) (congrArg some made)
    rw [goes made, goes also]
    have twins : Worker.Twins (Worker.handleRest received) (Worker.handleRest others) :=
      (Worker.twins_handleAll receives).bind fun _ => .done _
    have emptied :
        ({ w with pending := [] } : World).bare id = ({ v with pending := [] } : World).bare id := same
    exact twins.run_alike (v := { v with pending := [] }) even emptied

end Memory.World

end Vetting
