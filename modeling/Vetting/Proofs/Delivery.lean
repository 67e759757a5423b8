import Vetting.Proofs.Ledger
import Vetting.Proofs.Opening
import Vetting.Proofs.Settlement

/-!
A worker that has a world to itself. It takes all that the queue has and ends; every payload is settled
once and for good, in turn, whatever it holds and whatever fails in the store, each that carries no task
is counted as such, and no job changes but those that the payloads name (`work_settles`).

What one delivery has done is told stage by stage (`Handling.Underway`), and the deliveries after one
another add up (`World.Settles.append`).
-/
namespace Vetting

open Memory

/-- Whether a payload carries no task. -/
def Task.unreadable (payload : List UInt8) : Bool := (decode payload).toOption.isNone

namespace Memory

/-- Whether a payload was settled for good: acknowledged, or dropped without another try. -/
inductive Settlement.Closes (payload : List UInt8) : Settlement → Prop
  | acked : Closes payload (.acked payload)
  | dropped : Closes payload (.rejected payload false)

/-- What a worker makes of a world by deliveries of these payloads. -/
structure World.Settles (payloads : List (List UInt8)) (w after : World) : Prop where
  executors : after.executors = w.executors
  interruptions : after.interruptions = w.interruptions
  pending : after.pending = w.pending
  settled : ∃ settlements, after.settlements = w.settlements ++ settlements ∧
    List.Forall₂ Settlement.Closes payloads settlements
  poison : after.metrics.count .poison =
    w.metrics.count .poison + payloads.countP Task.unreadable
  jobs : ∀ id, (∀ payload ∈ payloads, Task.named? payload ≠ some id) →
    (∀ entry ∈ w.interruptions, entry.2.2.named? ≠ some id) → after.store.job? id = w.store.job? id

namespace World.Settles

variable {w mid after : World} {payloads others : List (List UInt8)}

private theorem nil (w : World) : Settles [] w w where
  executors := rfl
  interruptions := rfl
  pending := rfl
  settled := ⟨[], (List.append_nil _).symm, .nil⟩
  poison := rfl
  jobs _ _ _ := rfl

private theorem append (first : Settles payloads w mid) (second : Settles others mid after) :
    Settles (payloads ++ others) w after where
  executors := second.executors.trans first.executors
  interruptions := second.interruptions.trans first.interruptions
  pending := second.pending.trans first.pending
  settled := by
    obtain ⟨front, grown, closed⟩ := first.settled
    obtain ⟨back, grows, closes⟩ := second.settled
    refine ⟨front ++ back, ?_, List.rel_append closed closes⟩
    rw [grows, grown, List.append_assoc]
  poison := by
    rw [second.poison, first.poison, List.countP_append]
    omega
  jobs id unnamed undisturbed := by
    have before := first.jobs id (fun payload mem => unnamed payload (List.mem_append_left _ mem)) undisturbed
    rw [← first.interruptions] at undisturbed
    have later := second.jobs id (fun payload mem => unnamed payload (List.mem_append_right _ mem)) undisturbed
    exact later.trans before

end World.Settles

end Memory

namespace Worker

variable {w after : World} {event : Event}

namespace Handling

variable {d : Delivery} {stage later : Handling d}

/-- The payloads that a delivery has settled. -/
def closed : Handling d → List (List UInt8)
  | .finished _ => [d.payload]
  | _ => []

/-- How often a delivery is about to raise a counter. -/
def due (counter : Counter) : Handling d → Nat
  | .counting other _ _ => if other = counter then 1 else 0
  | _ => 0

@[simp] theorem due_opening (d : Delivery) :
    (opening d).due .poison = [d.payload].countP Task.unreadable := by
  rw [List.countP_singleton, Task.unreadable, opening]
  cases Task.decode d.payload with
  | error e => rfl
  | ok task => rfl

@[simp] theorem closed_opening (d : Delivery) : (opening d).closed = [] := by
  unfold opening
  split <;> rfl

/-- A delivery that goes on is not settled. -/
theorem Moves.closed_eq (moves : Moves w stage event later after) : stage.closed = [] := by
  cases moves <;> rfl

/-- What a call for a delivery leaves as it was, and what it settles. -/
theorem Moves.settles (hears : d.settles = true) (moves : Moves w stage event later after) :
    after.executors = w.executors ∧ after.interruptions = w.interruptions ∧ after.pending = w.pending ∧
      ∃ settlements, after.settlements = w.settlements ++ settlements ∧
        List.Forall₂ Settlement.Closes later.closed settlements := by
  have quiet : later.closed = [] → after.settlements = w.settlements →
      ∃ settlements, after.settlements = w.settlements ++ settlements ∧
        List.Forall₂ Settlement.Closes later.closed settlements := by
    intro unsettled same
    refine ⟨[], by rw [same, List.append_nil], ?_⟩
    rw [unsettled]
    exact .nil
  cases moves with
  | executed ran =>
    obtain ⟨_, _, _, changed, _⟩ := World.execute_changes ran
    subst changed
    exact ⟨rfl, rfl, rfl, quiet rfl rfl⟩
  | @tallied task outcome =>
    refine ⟨rfl, rfl, rfl, quiet ?_ rfl⟩
    cases outcome <;> rfl
  | @settled done outcome reply after made =>
    simp only [World.settle, hears] at made
    cases done with
    | true =>
      cases made
      exact ⟨rfl, rfl, rfl, _, rfl, .cons .acked .nil⟩
    | false =>
      cases made
      exact ⟨rfl, rfl, rfl, _, rfl, .cons .dropped .nil⟩
  | _ => exact ⟨rfl, rfl, rfl, quiet rfl rfl⟩

/-- A counter that tells neither of ends nor of running times grows when a delivery is about to raise it. -/
theorem Moves.due_eq (moves : Moves w stage event later after) {counter : Counter}
    (aside : ¬ counter.OfEnd) (untimed : ∀ type, counter ≠ .executed type) :
    after.metrics.count counter + later.due counter = w.metrics.count counter + stage.due counter := by
  obtain ⟨_, answered⟩ := moves.perform_eq
  have grows := World.perform_metrics answered counter
  rw [grows]
  cases moves with
  | @tallied task outcome =>
    have other : ¬ Counter.executed task.jobType = counter := (untimed _).symm
    cases outcome <;> simp [Call.counter?, other, recording, due]
  | @completed task =>
    have other : ¬ Counter.completed task.jobType = counter := by
      rintro rfl
      exact aside trivial
    simp [Call.counter?, due, other]
  | @failed task =>
    have other : ¬ Counter.failed task.jobType = counter := by
      rintro rfl
      exact aside trivial
    simp [Call.counter?, due, other]
  | counted => simp [Call.counter?, due]
  | _ => rfl

private theorem exists_task_of_debt? {debt : Debt} (owes : debt ∈ stage.debt?) :
    ∃ task, stage.task? = some task ∧ task.jobId = debt.id := by
  cases stage with
  | counting | settling | finished => cases owes
  | _ =>
    cases owes
    exact ⟨_, rfl, rfl⟩

/-- What a delivery that is at a stage has made of a world. -/
structure Underway (start w : World) (stage : Handling d) : Prop where
  executors : w.executors = start.executors
  interruptions : w.interruptions = start.interruptions
  pending : w.pending = start.pending
  settled : ∃ settlements, w.settlements = start.settlements ++ settlements ∧
    List.Forall₂ Settlement.Closes stage.closed settlements
  poison : w.metrics.count .poison + stage.due .poison =
    start.metrics.count .poison + [d.payload].countP Task.unreadable
  task : ∀ task, stage.task? = some task → Task.named? d.payload = some task.jobId
  jobs : ∀ id, Task.named? d.payload ≠ some id →
    (∀ entry ∈ start.interruptions, entry.2.2.named? ≠ some id) → w.store.job? id = start.store.job? id

private theorem underway_opening (w : World) (d : Delivery) : Underway w w (opening d) where
  executors := rfl
  interruptions := rfl
  pending := rfl
  settled := by
    refine ⟨[], (List.append_nil _).symm, ?_⟩
    rw [closed_opening]
    exact .nil
  poison := by rw [due_opening]
  task := (sound_opening w d).task
  jobs _ _ _ := rfl

private theorem Underway.moves {start : World} (hears : d.settles = true) (underway : stage.Underway start w)
    (moves : Moves w stage event later after) : later.Underway start after := by
  obtain ⟨executors, interruptions, pending, more, grows, closes⟩ := moves.settles hears
  refine ⟨executors.trans underway.executors, interruptions.trans underway.interruptions,
    pending.trans underway.pending, ?_, ?_, ?_, ?_⟩
  · obtain ⟨settlements, grown, closed⟩ := underway.settled
    rw [moves.closed_eq] at closed
    cases closed
    refine ⟨more, ?_, closes⟩
    rw [grows, grown, List.append_nil]
  · have aside : ¬ Counter.poison.OfEnd := id
    rw [moves.due_eq aside nofun, underway.poison]
  · intro task left
    exact underway.task task (moves.task? left)
  · intro id unnamed undisturbed
    have before := underway.jobs id unnamed undisturbed
    rw [← underway.interruptions] at undisturbed
    refine (moves.job?_other ?_ undisturbed).trans before
    rintro debt owes rfl
    obtain ⟨task, left, same⟩ := exists_task_of_debt? owes
    exact unnamed (same ▸ underway.task task left)

private theorem Underway.settles {start : World} {outcome : DeliveryOutcome}
    (underway : (Handling.finished outcome : Handling d).Underway start w) :
    start.Settles [d.payload] w where
  executors := underway.executors
  interruptions := underway.interruptions
  pending := underway.pending
  settled := underway.settled
  poison := underway.poison
  jobs id unnamed := underway.jobs id (unnamed d.payload List.mem_cons_self)

end Handling

/-- A delivery whose operation ends is settled, whatever its payload is. -/
theorem run_handle {d : Delivery} (hears : d.settles = true) (answering : w.Answering) :
    ∃ outcome after, w.run (handle d) = some (outcome, after) ∧ w.Settles [d.payload] after := by
  obtain ⟨outcome, after, ran⟩ := World.exists_run (handle d) answering
  let Holds (reached : World) (rest : Service DeliveryOutcome) : Prop :=
    ∃ stage : Handling d, rest = stage.program ∧ stage.Underway w reached
  have keeps : ∀ {reached rest event later next}, Holds reached rest →
      reached.turnOf rest = some (event, later, next) → Holds next later := by
    rintro reached rest event later next ⟨stage, rfl, underway⟩ turned
    obtain ⟨following, rfl, moves⟩ := Handling.moves_of_turnOf turned
    exact ⟨following, rfl, underway.moves hears moves⟩
  have begins : Holds w (handle d) :=
    ⟨.opening d, (Handling.program_opening d).symm, Handling.underway_opening w d⟩
  obtain ⟨stage, done, underway⟩ := World.run_keeps Holds keeps (handle d) begins ran
  cases stage with
  | finished last => exact ⟨outcome, after, ran, underway.settles⟩
  | _ => cases done

/-- The deliveries that a queue hands out which hears of their settlement. -/
def deliveries (payloads : List (List UInt8)) : List (Except QueueError Delivery) :=
  payloads.map fun payload => .ok ⟨payload, true⟩

theorem run_handleAll (payloads : List (List UInt8)) :
    ∀ {w : World}, w.Answering → ∃ after, w.run (handleAll (deliveries payloads)) = some ((), after) ∧
      w.Settles payloads after := by
  induction payloads with
  | nil => exact fun {w} _ => ⟨w, rfl, .nil w⟩
  | cons payload rest ih =>
    intro w answering
    obtain ⟨outcome, mid, ran, settles⟩ := run_handle (d := ⟨payload, true⟩) rfl answering
    have answers : mid.Answering := by
      rw [World.Answering, settles.executors]
      exact answering
    obtain ⟨after, goes, settled⟩ := ih answers
    exact ⟨after, (run_handleAll_cons ran).trans goes, settles.append settled⟩

/-- An error on the way to the deliveries takes time and nothing else. -/
theorem run_received {payloads : List (List UInt8)} (answering : w.Answering)
    {received : List (Except QueueError Delivery)}
    (comes : received = deliveries payloads ∨ ∃ error, received = .error error :: deliveries payloads) :
    ∃ after, w.run (handleAll received) = some ((), after) ∧ w.Settles payloads after := by
  rcases comes with rfl | ⟨error, rfl⟩
  · exact run_handleAll payloads answering
  · let waiting : World := { w with waited := w.waited + backoff.nanos }
    have answers : waiting.Answering := answering
    obtain ⟨after, ran, settles⟩ := run_handleAll payloads answers
    refine ⟨after, ?_, ?_⟩
    · have waited : w.perform (.wait backoff) = some ((), waiting) := rfl
      exact (World.run_answered waited).trans ran
    · exact ⟨settles.executors, settles.interruptions, settles.pending, settles.settled, settles.poison,
        settles.jobs⟩

end Worker

namespace Memory

/-- A worker settles every payload once and for good, in turn, and none keeps it from the next, if the queue
itself hands out what it has and hears what becomes of it. Whatever else fails makes no difference. -/
theorem work_settles {w : World} (answering : w.Answering) (hands : w.faults .consume = false)
    (hears : w.faults .settle = false) :
    ∃ after settlements, w.run Worker.work = some (.ok (), after) ∧ after.pending = [] ∧
      after.settlements = w.settlements ++ settlements ∧
      List.Forall₂ (fun payload settlement =>
        settlement = .acked payload ∨ settlement = .rejected payload false) w.pending settlements ∧
      after.metrics.count .poison = w.metrics.count .poison + w.pending.countP Task.unreadable ∧
      ∀ id, (∀ payload ∈ w.pending, Task.named? payload ≠ some id) →
        (∀ entry ∈ w.interruptions, entry.2.2.named? ≠ some id) →
          after.store.job? id = w.store.job? id := by
  let emptied : World := { w with pending := [] }
  have answers : emptied.Answering := answering
  obtain ⟨received, made, among⟩ : ∃ received, w.consume = (.ok received, emptied) ∧
      (received = Worker.deliveries w.pending ∨
        ∃ error, received = .error error :: Worker.deliveries w.pending) := by
    simp only [World.consume, hands, hears, Bool.not_false, Bool.or_true]
    cases w.faults .receive with
    | true => exact ⟨_, rfl, .inr ⟨_, rfl⟩⟩
    | false => exact ⟨_, rfl, .inl rfl⟩
  obtain ⟨after, ran, settles⟩ := Worker.run_received answers among
  obtain ⟨settlements, grown, closes⟩ := settles.settled
  refine ⟨after, settlements, Worker.run_work_received made ran, settles.pending, grown, ?_, settles.poison,
    settles.jobs⟩
  refine closes.imp fun payload settlement closed => ?_
  cases closed with
  | acked => exact .inl rfl
  | dropped => exact .inr rfl

/-- The queue holds an empty payload, and twice the task of a card that was never recorded. -/
theorem work_settles_repeated : ∃ (w after : World) (settlements : List Settlement),
    w.pending.length = 3 ∧ w.run Worker.work = some (.ok (), after) ∧ after.pending = [] ∧
      after.settlements = settlements ∧ settlements.length = 3 ∧ after.metrics.count .poison = 1 ∧
      after.store.job? (Pool.cardRequest 2).drawn = none := by
  let task : Task := .ocr ⟨(Pool.cardRequest 1).drawn, "card"⟩
  let w : World := { Pool.deskWorld fun _ => false with pending := [[], task.encode, task.encode] }
  have answering : w.Answering := by
    intro task
    cases task <;> exact ⟨_, _, rfl⟩
  obtain ⟨after, settlements, ran, empty, grown, closes, poison, jobs⟩ :=
    work_settles answering rfl rfl
  have named : Task.named? task.encode = some (Pool.cardRequest 1).drawn := Task.named?_encode task
  have nameless : Task.named? [] = none := by decide
  refine ⟨w, after, settlements, rfl, ran, empty, grown, closes.length_eq.symm, ?_, ?_⟩
  · rw [poison]
    have readable : Task.unreadable task.encode = false := by
      rw [Task.unreadable, Task.decode_encode]
      rfl
    have torn : Task.unreadable [] = true := by decide
    simp [w, readable, torn, Pool.deskWorld, World.empty, Metrics.zero]
  · refine jobs _ ?_ nofun
    simp only [w, List.mem_cons, List.not_mem_nil, or_false]
    rintro payload (rfl | rfl | rfl)
    · rw [nameless]
      nofun
    · rw [named]
      decide
    · rw [named]
      decide

end Memory

end Vetting
