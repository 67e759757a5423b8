import Vetting.Proofs.History
import Vetting.Proofs.Task

/-!
Deliveries that several workers have in hand at once (`Workshop`), the same message as often as may be.
Whatever turns their calls take, whatever operations give and whatever fails, the end of a job is
recorded and counted at most once, and it is the end that the record tells; an operation runs only after
its delivery found the job not over; and a delivery is acknowledged only when its job is over
(`end_recorded_once`).

What carries this is that a record which has reached its end stays as it is: a delivery that records an
end has found the job before its end (`Handling.Moves.ends`), so none had recorded one before.
-/
namespace Vetting

/-- Whether a counter is one of those that tell how jobs ended. -/
def Counter.OfEnd : Counter → Prop
  | .completed _ | .failed _ => True
  | _ => False

instance : DecidablePred Counter.OfEnd := fun c => by
  cases c <;> simp only [Counter.OfEnd] <;> infer_instance

/-- Whether a call neither records the end of a job nor counts one. -/
def Call.Aside : Call → Prop
  | .complete .. | .fail .. => False
  | .count counter => ¬ counter.OfEnd
  | _ => True

namespace Memory

namespace Event

/-- The job whose end a call recorded. -/
def ended? : Event → Option JobId
  | ⟨_, .complete id _, .ok .applied⟩ => some id
  | ⟨_, .fail id _, .ok .applied⟩ => some id
  | _ => none

/-- Whether a call counted the end of a job. -/
def CountsEnd (event : Event) : Prop := ∃ counter ∈ event.call.counter?, counter.OfEnd

instance : DecidablePred CountsEnd := fun event =>
  inferInstanceAs (Decidable (∃ counter ∈ event.call.counter?, counter.OfEnd))

/-- Whether the record of a job tells the end that a call recorded. -/
def Told (t : JobTable) : Event → Prop
  | ⟨_, .complete id result, .ok .applied⟩ =>
    ∃ job, t.job? id = some job ∧ job.status = .completed ∧ job.result = some result
  | ⟨_, .fail id reason, .ok .applied⟩ =>
    ∃ job, t.job? id = some job ∧ job.status = .failed ∧ job.failedReason = some reason
  | _ => True

end Event

/-- A delivery that a worker has in hand: what is left to do for it, and the calls that were made for
it. -/
structure Handler where
  delivery : Delivery
  rest : Service DeliveryOutcome
  calls : List Event

/-- The job that a delivery is for. -/
def Handler.job? (h : Handler) : Option JobId := Task.named? h.delivery.payload

/-- A world, and the deliveries that were taken in hand. -/
structure Workshop where
  world : World
  handlers : List Handler

namespace Workshop

/-- The calls that were made for deliveries. -/
def calls (s : Workshop) : List Event := s.handlers.flatMap Handler.calls

/-- The jobs whose ends were recorded. -/
def ended (s : Workshop) : List JobId := s.calls.filterMap Event.ended?

/-- The calls that were made for deliveries of one job. -/
def callsFor (s : Workshop) (id : JobId) : List Event :=
  (s.handlers.filter fun h => h.job? = some id).flatMap Handler.calls

/-- One step: a worker takes any delivery in hand, or makes the next call for one, or others do
something else. -/
inductive Step (s : Workshop) : Workshop → Prop
  | take (d : Delivery) : Step s { s with handlers := s.handlers ++ [⟨d, Worker.handle d, []⟩] }
  | turn {front back : List Handler} {h : Handler} {event : Event} {rest : Service DeliveryOutcome}
      {world : World} (handlers : s.handlers = front ++ h :: back)
      (turned : s.world.turnOf h.rest = some (event, rest, world)) :
      Step s ⟨world, front ++ { h with rest, calls := h.calls ++ [event] } :: back⟩
  | call {c : Call} {reply : c.Reply} {world : World} (aside : c.Aside)
      (unused : ∀ new, c = .create new → s.world.store.job? new.id = none)
      (answered : s.world.perform c = some (reply, world)) : Step s { s with world }
  | disturb (change : Disturbance) : Step s { s with world := change.apply s.world }

/-- The workshops that come of a world in which nothing is in hand. -/
def Reachable (start : World) : Workshop → Prop := Relation.ReflTransGen Step ⟨start, []⟩

/-- What makes it safe to handle deliveries again and again. -/
structure Safe (start : World) (s : Workshop) : Prop where
  /-- The end of a job is recorded at most once. -/
  once : ∀ id, s.ended.count id ≤ 1
  /-- For one job an end is counted at most once. -/
  counted : ∀ id, (s.callsFor id).countP (·.CountsEnd) ≤ 1
  /-- The counts of ends grow by these calls only. -/
  counts : ∀ counter : Counter, counter.OfEnd → s.world.metrics.count counter =
    start.metrics.count counter + s.calls.countP fun event => event.call.counter? = some counter
  told : ∀ event ∈ s.calls, event.Told s.world.store
  /-- An operation is run for a delivery that has found its job not over. -/
  executed : ∀ h ∈ s.handlers, ∀ earlier w task reply later,
    h.calls = earlier ++ ⟨w, .execute task, reply⟩ :: later →
      ∃ before job, ⟨before, .start task.jobId, .ok .applied⟩ ∈ earlier ∧
        before.store.job? task.jobId = some job ∧ ¬ job.status.isTerminal
  /-- A delivery is acknowledged when its job is over. -/
  acked : ∀ h ∈ s.handlers, ∀ w d reply, ⟨w, .settle d .ack, reply⟩ ∈ h.calls →
    ∃ id, h.job? = some id ∧ w.store.Over id

end Workshop

/-! ## One call for one delivery -/

section Keeping

variable {w after : World}

/-- Whether all records of a world stay and move on. -/
def World.Keeps (w after : World) : Prop :=
  ∀ id job, w.store.job? id = some job → ∃ later, after.store.job? id = some later ∧ job.Advances later

private theorem World.Happens.keeps (happens : w.Happens after) : w.Keeps after :=
  fun _ _ found => happens.advances found

private theorem World.Keeps.terminal (keeps : w.Keeps after) {id : JobId} {job : Job}
    (found : w.store.job? id = some job) (terminal : job.status.isTerminal) :
    after.store.job? id = some job := by
  obtain ⟨later, stays, advances⟩ := keeps id job found
  rw [stays, advances.frozen terminal]

private theorem JobTable.Over.kept {id : JobId} (ended : w.store.Over id) (keeps : w.Keeps after) :
    after.store.Over id := by
  obtain ⟨job, found, terminal⟩ := ended
  exact ⟨job, keeps.terminal found terminal, terminal⟩

private theorem Event.Told.kept {event : Event} (told : event.Told w.store) (keeps : w.Keeps after) :
    event.Told after.store := by
  unfold Event.Told at told ⊢
  split
  · obtain ⟨job, found, status, result⟩ := told
    exact ⟨job, keeps.terminal found (by rw [status]; rfl), status, result⟩
  · obtain ⟨job, found, status, reason⟩ := told
    exact ⟨job, keeps.terminal found (by rw [status]; rfl), status, reason⟩
  · trivial

private theorem Event.Told.over {t : JobTable} {event : Event} (told : event.Told t) {id : JobId}
    (ended : event.ended? = some id) : t.Over id := by
  unfold Event.ended? at ended
  split at ended
  · cases ended
    obtain ⟨job, found, status, _⟩ := told
    exact ⟨job, found, by rw [status]; rfl⟩
  · cases ended
    obtain ⟨job, found, status, _⟩ := told
    exact ⟨job, found, by rw [status]; rfl⟩
  · cases ended

private theorem Event.told_of_ended?_none {t : JobTable} {event : Event} (none : event.ended? = none) :
    event.Told t := by
  unfold Event.Told
  split
  · cases none
  · cases none
  · trivial

end Keeping

end Memory

namespace Worker.Handling

open Memory

variable {d : Delivery} {stage later : Handling d} {w after : World} {event : Event} {task : Task}

/-- The task that work is still to be done for. -/
def task? : Handling d → Option Task
  | .starting task | .executing task | .tallying task _ | .completing task _ | .failing task _ => some task
  | .counting .. | .settling .. | .finished _ => none

/-- The task whose job was started. -/
def running? : Handling d → Option Task
  | .executing task | .tallying task _ | .completing task _ => some task
  | .starting _ | .failing .. | .counting .. | .settling .. | .finished _ => none

/-- Whether the delivery is to be acknowledged. -/
def Concludes : Handling d → Prop
  | .counting _ done _ | .settling done _ => done = true
  | _ => False

/-- How many ends were recorded and are yet to be counted. -/
def uncounted : Handling d → Nat
  | .counting counter _ _ => if counter.OfEnd then 1 else 0
  | _ => 0

@[simp] theorem task?_recording (task : Task) (outcome : Except ExecutionError JobResult) :
    (recording task outcome : Handling d).task? = some task := by
  cases outcome <;> rfl

theorem Moves.task? (moves : Moves w stage event later after) (left : later.task? = some task) :
    stage.task? = some task := by
  cases moves with
  | started | unstarted | executed => exact left
  | tallied => rwa [task?_recording] at left
  | _ => cases left

/-- A delivery counts each end that it records, in its next call. -/
theorem Moves.tally (moves : Moves w stage event later after) :
    (if event.CountsEnd then 1 else 0) + later.uncounted =
      event.ended?.toList.length + stage.uncounted := by
  cases moves with
  | unfailed _ news =>
    next reply _ _ =>
    match reply with
    | .ok .applied => exact absurd rfl news
    | .ok (.skipped _) => rfl
    | .error _ => rfl
  | @tallied task outcome => cases outcome <;> rfl
  | @counted counter => simp [Event.CountsEnd, Call.counter?, Event.ended?, uncounted]
  | _ => rfl

/-- A delivery that records an end has found the job before its end, and the record tells that end
then. -/
theorem Moves.ends (moves : Moves w stage event later after) {id : JobId}
    (ended : event.ended? = some id) :
    (∃ task, stage.task? = some task ∧ task.jobId = id) ∧ ¬ w.store.Over id ∧
      event.Told after.store := by
  have unended : ∀ {job : Job}, w.store.job? id = some job → ¬ job.status.isTerminal →
      ¬ w.store.Over id := by
    rintro job found running ⟨other, same, terminal⟩
    cases found.symm.trans same
    exact running terminal
  cases moves with
  | completed found source =>
    cases ended
    have processing := List.mem_singleton.1 source
    refine ⟨⟨_, rfl, rfl⟩, unended found (by simp [processing, JobStatus.isTerminal]), ?_⟩
    exact ⟨_, JobTable.job?_change_self found source, rfl, rfl⟩
  | @failed _ _ job found source =>
    cases ended
    refine ⟨⟨_, rfl, rfl⟩, unended found ?_, _, JobTable.job?_change_self found source, rfl, rfl⟩
    revert source
    cases job.status <;> simp [JobStatus.isTerminal]
  | @unfailed _ _ reply _ news =>
    cases reply with
    | error => cases ended
    | ok transition =>
      cases transition with
      | applied => exact absurd rfl news
      | skipped => cases ended
  | _ => cases ended

/-- A job is running when its delivery has started it, or had before. -/
theorem Moves.running? (moves : Moves w stage event later after) (running : later.running? = some task) :
    stage.running? = some task ∨
      ∃ job, event = ⟨w, .start task.jobId, .ok .applied⟩ ∧ w.store.job? task.jobId = some job ∧
        ¬ job.status.isTerminal ∧
        ∃ next, after.store.job? task.jobId = some next ∧ next.status ≠ .created := by
  cases moves with
  | @started _ job found source =>
    cases running
    refine .inr ⟨job, rfl, found, ?_, _, JobTable.job?_change_self found source, nofun⟩
    revert source
    cases job.status <;> simp [JobStatus.isTerminal]
  | executed => exact .inl running
  | @tallied _ outcome =>
    cases outcome with
    | ok result => exact .inl running
    | error e => cases running
  | _ => cases running

private theorem Moves.execute (moves : Moves w stage event later after) (call : event.call = .execute task) :
    stage.running? = some task := by
  cases moves with
  | executed =>
    cases call
    rfl
  | _ => cases call

private theorem Moves.ack (moves : Moves w stage event later after) {delivery : Delivery}
    (call : event.call = .settle delivery .ack) : stage.Concludes := by
  cases moves with
  | @settled done =>
    cases done with
    | true => rfl
    | false => cases call
  | _ => cases call

/-- A delivery is to be acknowledged once its job is over: it has brought it there, or found it
there. -/
theorem Moves.concludes (moves : Moves w stage event later after)
    (begun : ∀ task, stage.running? = some task →
      ∃ job, w.store.job? task.jobId = some job ∧ job.status ≠ .created)
    (concludes : later.Concludes) :
    stage.Concludes ∨ ∃ task, stage.task? = some task ∧ after.store.Over task.jobId := by
  cases moves with
  | @refused task status made _ =>
    obtain ⟨status, rfl, terminal⟩ : ∃ known, status = some known ∧ known.isTerminal := by
      cases status with
      | none => cases concludes
      | some known => exact ⟨known, rfl, concludes⟩
    obtain ⟨job, found, rfl⟩ := World.start_skipped made
    exact .inr ⟨task, rfl, job, found, terminal⟩
  | @tallied task outcome => cases outcome <;> cases concludes
  | @completed task result job found source =>
    exact .inr ⟨task, rfl, _, JobTable.job?_change_self found source, rfl⟩
  | @outrun task result status made idle =>
    -- The job was started by this delivery, so one that is not in processing has come further.
    obtain ⟨job, found, started⟩ := begun task rfl
    refine .inr ⟨task, rfl, job, found, ?_⟩
    have processing := idle job found
    revert started processing
    cases job.status <;> simp [JobStatus.isTerminal]
  | counted => exact .inl concludes
  | _ => cases concludes

/-- What the calls that were made for a delivery have brought about when it is at a stage. -/
structure Sound (w : World) (calls : List Event) (stage : Handling d) : Prop where
  task : ∀ task, stage.task? = some task → Task.named? d.payload = some task.jobId
  ended : ∀ event ∈ calls, ∀ id, event.ended? = some id → Task.named? d.payload = some id
  tally : calls.countP (·.CountsEnd) + stage.uncounted = (calls.filterMap Event.ended?).length
  running : ∀ task, stage.running? = some task →
    (∃ before job, ⟨before, .start task.jobId, .ok .applied⟩ ∈ calls ∧
      before.store.job? task.jobId = some job ∧ ¬ job.status.isTerminal) ∧
    ∃ job, w.store.job? task.jobId = some job ∧ job.status ≠ .created
  concluded : stage.Concludes → ∃ id, Task.named? d.payload = some id ∧ w.store.Over id
  executed : ∀ earlier before task reply later,
    calls = earlier ++ ⟨before, .execute task, reply⟩ :: later →
      ∃ found job, ⟨found, .start task.jobId, .ok .applied⟩ ∈ earlier ∧
        found.store.job? task.jobId = some job ∧ ¬ job.status.isTerminal
  acked : ∀ before delivery reply, ⟨before, .settle delivery .ack, reply⟩ ∈ calls →
    ∃ id, Task.named? d.payload = some id ∧ before.store.Over id

theorem sound_opening (w : World) (d : Delivery) : Sound w [] (opening d) := by
  unfold opening
  cases carried : Task.decode d.payload with
  | error e =>
    exact ⟨by simp [task?], by simp, rfl, by simp [running?], Bool.false_ne_true.elim, by simp,
      by simp⟩
  | ok task =>
    refine ⟨?_, by simp, rfl, by simp [running?], False.elim, by simp, by simp⟩
    rintro _ ⟨⟩
    rw [Task.named?, carried]
    rfl

variable {calls : List Event}

/-- What others do leaves a delivery sound. -/
theorem Sound.kept (sound : stage.Sound w calls) (keeps : w.Keeps after) : stage.Sound after calls where
  task := sound.task
  ended := sound.ended
  tally := sound.tally
  running task running := by
    obtain ⟨started, job, found, begun⟩ := sound.running task running
    obtain ⟨later, stays, advances⟩ := keeps _ job found
    exact ⟨started, later, stays, advances.started begun⟩
  concluded concludes := by
    obtain ⟨id, named, ended⟩ := sound.concluded concludes
    exact ⟨id, named, ended.kept keeps⟩
  executed := sound.executed
  acked := sound.acked

private theorem Sound.moves (sound : stage.Sound w calls) (keeps : w.Keeps after)
    (moves : Moves w stage event later after) : later.Sound after (calls ++ [event]) where
  task task left := sound.task task (moves.task? left)
  ended other mem id ended := by
    rcases List.mem_append.1 mem with old | new
    · exact sound.ended other old id ended
    · cases List.mem_singleton.1 new
      obtain ⟨⟨task, left, rfl⟩, _⟩ := moves.ends ended
      exact sound.task task left
  tally := by
    have before := sound.tally
    have grows := moves.tally
    have ends : ([event].filterMap Event.ended?).length = event.ended?.toList.length := by
      cases told : event.ended? <;> simp [told]
    rw [List.countP_append, List.filterMap_append, List.length_append, ends, List.countP_singleton]
    simp only [decide_eq_true_eq]
    omega
  running task running := by
    rcases moves.running? running with was | ⟨job, rfl, found, running, begun⟩
    · obtain ⟨⟨before, job, started, found⟩, begun⟩ := (sound.kept keeps).running task was
      exact ⟨⟨before, job, List.mem_append_left _ started, found⟩, begun⟩
    · exact ⟨⟨w, job, by simp, found, running⟩, begun⟩
  concluded concludes := by
    rcases moves.concludes (fun task running => (sound.running task running).2) concludes with
      already | ⟨task, left, ended⟩
    · exact (sound.kept keeps).concluded already
    · exact ⟨task.jobId, sound.task task left, ended⟩
  executed earlier before task reply rest split := by
    -- With nothing after it, the operation is the call just made; else it is among the earlier calls.
    rcases List.eq_nil_or_concat rest with rfl | ⟨rest, last, rfl⟩
    · obtain ⟨rfl, same⟩ := List.append_inj' split rfl
      have call : event.call = .execute task := by rw [List.singleton_inj.1 same]
      exact (sound.running task (moves.execute call)).1
    · rw [List.concat_eq_append, ← List.cons_append, ← List.append_assoc] at split
      exact sound.executed earlier before task reply rest (List.append_inj' split rfl).1
  acked before delivery reply mem := by
    rcases List.mem_append.1 mem with old | new
    · exact sound.acked before delivery reply old
    · cases List.mem_singleton.1 new
      obtain ⟨rfl, _⟩ := moves.perform_eq
      exact sound.concluded (moves.ack rfl)

end Worker.Handling

namespace Memory

/-! ## All deliveries -/

namespace Workshop

variable {start : World} {s later : Workshop}

/-- What the steps of a workshop keep. -/
structure Sound (start : World) (s : Workshop) : Prop where
  staged : ∀ h ∈ s.handlers, ∃ stage : Worker.Handling h.delivery,
    h.rest = stage.program ∧ stage.Sound s.world h.calls
  once : ∀ id, s.ended.count id ≤ 1
  told : ∀ event ∈ s.calls, event.Told s.world.store
  counts : ∀ counter : Counter, counter.OfEnd → s.world.metrics.count counter =
    start.metrics.count counter + s.calls.countP fun event => event.call.counter? = some counter

private theorem sound_start (start : World) : Sound start ⟨start, []⟩ :=
  ⟨by simp, by simp [ended, calls], by simp [calls], by simp [calls]⟩

/-- What happens to the world and is not done for a delivery in hand leaves a workshop sound. -/
theorem Sound.happens (sound : s.Sound start) {world : World} (happens : s.world.Happens world)
    (same : ∀ counter : Counter, counter.OfEnd →
      world.metrics.count counter = s.world.metrics.count counter) :
    Sound start { s with world } where
  staged h mem := by
    obtain ⟨stage, rest, staged⟩ := sound.staged h mem
    exact ⟨stage, rest, staged.kept happens.keeps⟩
  once := sound.once
  told event mem := (sound.told event mem).kept happens.keeps
  counts counter ofEnd := (same counter ofEnd).trans (sound.counts counter ofEnd)

/-- The calls after one more was made for a delivery. -/
theorem calls_turn (front back : List Handler) (h : Handler) (rest : Service DeliveryOutcome)
    (event : Event) (before world : World) :
    (calls ⟨world, front ++ { h with rest, calls := h.calls ++ [event] } :: back⟩).Perm
      (event :: calls ⟨before, front ++ h :: back⟩) := by
  simp only [calls, List.flatMap_append, List.flatMap_cons, List.append_assoc, List.singleton_append]
  rw [← List.append_assoc, ← List.append_assoc]
  exact List.perm_middle

private theorem Sound.turn {front back : List Handler} {h : Handler} {event : Event}
    {rest : Service DeliveryOutcome} {world : World} (sound : s.Sound start)
    (handlers : s.handlers = front ++ h :: back)
    (turned : s.world.turnOf h.rest = some (event, rest, world)) :
    Sound start ⟨world, front ++ { h with rest, calls := h.calls ++ [event] } :: back⟩ := by
  obtain ⟨w, all⟩ := s
  subst handlers
  have grown := calls_turn front back h rest event w world
  obtain ⟨stage, program, staged⟩ := sound.staged h (by simp)
  rw [program] at turned
  obtain ⟨next, rfl, moves⟩ := Worker.Handling.moves_of_turnOf turned
  obtain ⟨_, answered⟩ := moves.perform_eq
  have once : ∀ id, ((calls ⟨w, front ++ h :: back⟩).filterMap Event.ended?).count id ≤ 1 := sound.once
  have keeps : w.Keeps world := by
    refine World.Happens.keeps (.call ?_ answered)
    intro new call
    have ofWorker := moves.ofWorker
    rw [call] at ofWorker
    exact ofWorker.elim
  refine ⟨?_, ?_, ?_, ?_⟩
  · intro other mem
    rcases List.mem_append.1 mem with old | old
    · obtain ⟨at', left, held⟩ := sound.staged other (List.mem_append_left _ old)
      exact ⟨at', left, held.kept keeps⟩
    rcases List.mem_cons.1 old with rfl | old
    · exact ⟨next, rfl, staged.moves keeps moves⟩
    · obtain ⟨at', left, held⟩ := sound.staged other (by simp [old])
      exact ⟨at', left, held.kept keeps⟩
  · intro id
    rw [ended, (grown.filterMap Event.ended?).count_eq, List.filterMap_cons]
    cases new : event.ended? with
    | none => exact once id
    | some ended =>
      obtain ⟨_, running, _⟩ := moves.ends new
      rw [List.count_cons]
      by_cases same : ended = id
      · -- An end that was recorded before would have been told by the record already.
        subst same
        have unended :
            ((calls ⟨w, front ++ h :: back⟩).filterMap Event.ended?).count ended = 0 := by
          refine List.count_eq_zero.2 fun mem => ?_
          obtain ⟨earlier, made, told⟩ := List.mem_filterMap.1 mem
          exact running ((sound.told earlier made).over told)
        exact (congrArg (· + _) unended).trans_le (by simp)
      · simpa [same] using once id
  · intro other mem
    rcases List.mem_cons.1 (grown.mem_iff.1 mem) with rfl | old
    · cases new : other.ended? with
      | none => exact Event.told_of_ended?_none new
      | some id => exact (moves.ends new).2.2
    · exact (sound.told other old).kept keeps
  · intro counter ofEnd
    have counted : world.metrics.count counter = w.metrics.count counter + _ :=
      World.perform_metrics answered counter
    have before : w.metrics.count counter = _ := sound.counts counter ofEnd
    rw [grown.countP_eq, List.countP_cons]
    simp only [decide_eq_true_eq]
    omega

private theorem Sound.step (sound : s.Sound start) (step : s.Step later) : later.Sound start := by
  cases step with
  | take d =>
    have same : calls { s with handlers := s.handlers ++ [⟨d, Worker.handle d, []⟩] } = s.calls := by
      simp [calls]
    refine ⟨?_, ?_, same ▸ sound.told, same ▸ sound.counts⟩
    · intro h mem
      rcases List.mem_append.1 mem with old | new
      · exact sound.staged h old
      · cases List.mem_singleton.1 new
        exact ⟨.opening d, (Worker.Handling.program_opening d).symm,
          Worker.Handling.sound_opening s.world d⟩
    · rw [ended, same]
      exact sound.once
  | turn handlers turned => exact sound.turn handlers turned
  | @call c reply world aside unused answered =>
    refine sound.happens (.call unused answered) fun counter ofEnd => ?_
    have counted : world.metrics.count counter = _ := World.perform_metrics answered counter
    rw [counted, if_neg, Nat.add_zero]
    intro told
    cases c with
    | count other =>
      cases told
      exact aside ofEnd
    | _ => cases told
  | disturb change =>
    refine sound.happens (.disturb change) fun counter _ => ?_
    cases change <;> rfl

private theorem Reachable.answered (front back : List Handler) {d : Delivery} {calls : List Event} {c : Call}
    {reply : c.Reply} {next : c.Reply → Service DeliveryOutcome} {w world : World}
    (reach : Reachable start ⟨w, front ++ ⟨d, .call c next, calls⟩ :: back⟩)
    (answered : w.perform c = some (reply, world)) :
    Reachable start ⟨world, front ++ ⟨d, next reply, calls ++ [⟨w, c, reply⟩]⟩ :: back⟩ := by
  have turned : Step ⟨w, front ++ ⟨d, .call c next, calls⟩ :: back⟩ _ :=
    .turn rfl (World.turnOf_answered answered)
  exact reach.tail turned

private theorem Sound.of_reachable (reach : Reachable start s) : s.Sound start := by
  induction reach with
  | refl => exact sound_start start
  | tail _ step sound => exact sound.step step

/-- For a job ends are counted no more often than they are recorded. -/
theorem Sound.counted_le (sound : s.Sound start) (id : JobId) :
    (s.callsFor id).countP (·.CountsEnd) ≤ s.ended.count id := by
  have staged := sound.staged
  simp only [callsFor, ended, calls]
  generalize s.handlers = handlers at staged ⊢
  induction handlers with
  | nil => exact Nat.zero_le _
  | cons h rest ih =>
    have others := ih fun other mem => staged other (List.mem_cons_of_mem h mem)
    -- A delivery records ends of its own job only, and has counted no more of them than it recorded.
    obtain ⟨stage, _, sound⟩ := staged h List.mem_cons_self
    rw [List.flatMap_cons, List.filterMap_append, List.count_append]
    by_cases named : h.job? = some id
    · have all : (h.calls.filterMap Event.ended?).count id = (h.calls.filterMap Event.ended?).length := by
        refine List.count_eq_length.2 fun other mem => ?_
        obtain ⟨event, made, told⟩ := List.mem_filterMap.1 mem
        exact Option.some.inj (named.symm.trans (sound.ended event made other told))
      have own := sound.tally
      rw [List.filter_cons_of_pos (by simpa using named), List.flatMap_cons, List.countP_append]
      omega
    · rw [List.filter_cons_of_neg (by simpa using named)]
      omega

end Workshop

/-- However many deliveries are in hand, whatever turns they take and whatever fails, the end of each
job is recorded and counted at most once and its record tells that end. -/
theorem end_recorded_once {start : World} {s : Workshop} (reach : Workshop.Reachable start s) :
    s.Safe start := by
  have sound := Workshop.Sound.of_reachable reach
  refine ⟨sound.once, fun id => (sound.counted_le id).trans (sound.once id), sound.counts, sound.told,
    ?_, ?_⟩
  · intro h mem
    obtain ⟨_, _, staged⟩ := sound.staged h mem
    exact staged.executed
  · intro h mem
    obtain ⟨_, _, staged⟩ := sound.staged h mem
    exact staged.acked

/-- The card's message is handed out twice, and both deliveries find the job not over and read the card.
The second to record its end finds the job completed, and is acknowledged too. -/
theorem end_recorded_once_card : ∃ (start : World) (s : Workshop), Workshop.Reachable start s ∧
    s.handlers.map (·.rest.result?) = [some .completed, some .skipped] ∧
    s.ended = [(Pool.cardRequest 1).drawn] ∧ s.Safe start := by
  let task : Task := .ocr ⟨(Pool.cardRequest 1).drawn, "card"⟩
  let start := ((Pool.deskWorld fun _ => false).create ((Pool.cardRequest 1).job [Pool.card])).2
  let d : Delivery := ⟨task.encode, true⟩
  have program : Worker.handle d = .call (.start task.jobId) (Worker.afterStart d task) := by
    rw [Worker.handle, Task.decode_encode]
    rfl
  have taken : Workshop.Reachable start ⟨start, [⟨d, Worker.handle d, []⟩, ⟨d, Worker.handle d, []⟩]⟩ :=
    .tail (.tail .refl (.take d)) (.take d)
  rw [program] at taken
  have started := taken.answered [] [_] rfl
  have both := started.answered [_] [] rfl
  have executed := both.answered [] [_] rfl
  have tallied := executed.answered [] [_] rfl
  have completed := tallied.answered [] [_] rfl
  have counted := completed.answered [] [_] rfl
  have acked := counted.answered [] [_] rfl
  have again := acked.answered [_] [] rfl
  have talliedAgain := again.answered [_] [] rfl
  have skipped := talliedAgain.answered [_] [] rfl
  have finished := skipped.answered [_] [] rfl
  exact ⟨start, _, finished, rfl, rfl, end_recorded_once finished⟩

end Memory

end Vetting
