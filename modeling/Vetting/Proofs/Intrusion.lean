import Vetting.Proofs.Ledger
import Vetting.Proofs.Shape

/-!
Payloads that others put into the queue. A worker takes from the payload what is to be done, and the store
takes the result of a job in processing whatever its type. So a payload that names a job under the other
type can complete it with a result of that type, and its owner is no longer told where it stands
(`Job.Misled`).

No more than this comes of such payloads: whatever others put into the queue, every record has the shape
that its status calls for or is misled so; and every job that is not over can be misled
(`record_formed_or_misled`).

What carries the first half is where a result comes from. A delivery records a result that fits the task
which it carries (`Handling.Moves.completes`), and every payload that is pending or in hand was put there by
others or is for a job of its type (`Crew.Guarded`).
-/
namespace Vetting

open Memory

/-- Whether a job was completed for a task of the other type that others put into the queue. But for its
type the record has what its status calls for. -/
structure Job.Misled (put : List (List UInt8)) (id : JobId) (job : Job) : Prop where
  completed : job.status = .completed
  foreign : ∃ payload ∈ put, ∃ task, Task.decode payload = .ok task ∧ task.jobId = id ∧
    task.jobType ≠ job.type ∧ { job with type := task.jobType }.Formed

section Records

variable {put more : List (List UInt8)} {id : JobId} {job : Job}

private theorem Job.Misled.mono (misled : job.Misled put id) (grows : put ⊆ more) : job.Misled more id := by
  obtain ⟨payload, mem, task, carried⟩ := misled.foreign
  exact ⟨misled.completed, payload, grows mem, task, carried⟩

/-- A job that is not over was not misled. -/
theorem Job.formed_of_unended (either : job.Formed ∨ job.Misled put id)
    (source : job.status ∈ [.created, .processing]) : job.Formed := by
  refine either.resolve_right fun misled => ?_
  rw [misled.completed] at source
  simp at source

private theorem StatusQuery.view_misled (misled : job.Misled put id) :
    view job = .error (.inconsistent job.id) := by
  obtain ⟨payload, _, task, _, _, other, formed⟩ := misled.foreign
  have completed := misled.completed
  simp only [Job.Formed, completed] at formed
  obtain ⟨_, ends, ⟨result, has, type, _⟩, _⟩ := formed
  obtain ⟨time, at'⟩ := Option.isSome_iff_exists.1 ends
  have foreign : job.result.filter (fun result => decide (result.jobType = job.type)) = none := by
    rw [has, Option.filter_some, decide_eq_false (type ▸ other), if_neg Bool.false_ne_true]
  unfold view
  simp only [completed]
  rw [at', foreign]
  rfl

end Records

namespace Worker

variable {w after : World} {event : Event} {id : JobId} {result : JobResult}

namespace Handling

variable {d : Delivery} {stage later : Handling d}

/-- Whether a delivery works on the task that it carries, and has a result that fits the task. -/
def Faithful : Handling d → Prop
  | .starting task | .executing task | .failing task _ => Task.decode d.payload = .ok task
  | .tallying task outcome =>
    Task.decode d.payload = .ok task ∧ ∀ result, outcome = .ok result → result.Fits task.jobType
  | .completing task result => Task.decode d.payload = .ok task ∧ result.Fits task.jobType
  | .counting .. | .settling .. | .finished _ => True

private theorem faithful_opening (d : Delivery) : (opening d).Faithful := by
  unfold opening
  cases carried : Task.decode d.payload with
  | error e => trivial
  | ok task => exact carried

private theorem Moves.faithful (moves : Moves w stage event later after) (calm : w.interruptions = [])
    (faithful : stage.Faithful) : later.Faithful := by
  cases moves with
  | started | unstarted => exact faithful
  | executed ran =>
    refine ⟨faithful, ?_⟩
    rintro result rfl
    obtain ⟨_, answers, _⟩ := World.execute_eq calm ran
    exact Executors.execute_fits answers
  | @tallied task outcome =>
    cases outcome with
    | ok result => exact ⟨faithful.1, faithful.2 result rfl⟩
    | error e => exact faithful.1
  | _ => trivial

/-- A result is recorded for the job that the payload names, and fits the task that it carries. -/
theorem Moves.completes (moves : Moves w stage event later after) (faithful : stage.Faithful)
    (call : event.call = .complete id result) :
    ∃ task, Task.decode d.payload = .ok task ∧ task.jobId = id ∧ result.Fits task.jobType := by
  cases moves with
  | completed | outrun | unrecorded =>
    cases call
    exact ⟨_, faithful.1, rfl, faithful.2⟩
  | _ => cases call

end Handling

namespace Duty

variable {duty later : Duty}

def Faithful : Duty → Prop
  | .handling _ stage _ _ => stage.Faithful
  | .receiving | .waiting _ | .finished _ => True

private theorem faithful_resume (received : List (Except QueueError Delivery)) :
    (resume received).Faithful := by
  match received with
  | [] => trivial
  | .ok d :: _ => exact Handling.faithful_opening d
  | .error _ :: _ => trivial

private theorem Moves.faithful (moves : Moves w duty event later after) (calm : w.interruptions = [])
    (faithful : duty.Faithful) : later.Faithful := by
  cases moves with
  | barred => trivial
  | received | waited => exact faithful_resume _
  | handled moves =>
    unfold proceed
    split
    · exact moves.faithful calm faithful
    · exact faithful_resume _

private theorem Moves.completes (moves : Moves w duty event later after) (faithful : duty.Faithful)
    (call : event.call = .complete id result) :
    ∃ d task, .ok d ∈ duty.left ∧ Task.decode d.payload = .ok task ∧ task.jobId = id ∧
      result.Fits task.jobType := by
  cases moves with
  | @handled d _ _ _ _ _ _ moves =>
    obtain ⟨task, carried⟩ := moves.completes faithful call
    exact ⟨d, task, List.mem_cons_self, carried⟩
  | _ => cases call

end Duty

end Worker

namespace Memory

namespace Member

variable {w after : World} {event : Event} {member later : Member} {t : JobTable}

/-- Whether a program has a delivery in hand. -/
def Holds (d : Delivery) : Member → Prop
  | .submission .. => False
  | .worker duty => .ok d ∈ duty.left
  | .handler other _ => other = d

/-- Whether a program queues payloads for jobs of their types only, and records results that fit the tasks
which its deliveries carry. -/
def Faithful (t : JobTable) : Member → Prop
  | .submission _ stage => stage.Typed t
  | .worker duty => duty.Faithful
  | .handler _ stage => stage.Faithful

private theorem Faithful.kept {t' : JobTable} (faithful : member.Faithful t) (keeps : t.Keeps t') :
    member.Faithful t' := by
  cases member with
  | submission r stage =>
    have typed : (Member.submission r stage).Typed t := faithful
    exact typed.kept keeps
  | worker | handler => exact faithful

private theorem Moves.faithful (moves : Moves w member event later after) (calm : w.interruptions = [])
    (faithful : member.Faithful w.store) : later.Faithful after.store := by
  cases moves with
  | submission moves => exact moves.typed
  | worker moves => exact moves.faithful calm faithful
  | handler moves => exact moves.faithful calm faithful

/-- What a program has in hand was its own before, or was pending. -/
theorem Moves.holds (moves : Moves w member event later after) {d : Delivery} (holds : later.Holds d) :
    member.Holds d ∨ d.payload ∈ w.pending := by
  cases moves with
  | submission => exact holds.elim
  | worker moves => exact moves.left holds
  | handler => exact .inl holds

/-- What a program puts into the queue is for a job of its type. -/
theorem Moves.queues (moves : Moves w member event later after) (faithful : member.Faithful w.store)
    {payload : List UInt8} (queued : payload ∈ event.queued?) :
    ∃ task, Task.decode payload = .ok task ∧ w.store.Knows task := by
  rcases moves.submission_or_ofWorker with ⟨r, stage, next, rfl, rfl, stepped⟩ | ⟨_, _, ofWorker⟩
  · exact stepped.carries faithful queued
  · rw [(Event.plain_ofWorker ofWorker).queued] at queued
    cases queued

private theorem Moves.completes (moves : Moves w member event later after)
    (faithful : member.Faithful w.store)
    {id : JobId} {result : JobResult} (call : event.call = .complete id result) :
    ∃ d task, member.Holds d ∧ Task.decode d.payload = .ok task ∧ task.jobId = id ∧
      result.Fits task.jobType := by
  cases moves with
  | submission moves => cases moves <;> cases call
  | worker moves => exact moves.completes faithful call
  | @handler d _ _ _ _ moves =>
    obtain ⟨task, carried⟩ := moves.completes faithful call
    exact ⟨d, task, rfl, carried⟩

end Member

/-! ## Runs in which others put payloads into the queue -/

/-- Whether a payload was put into the queue by others, or is for a job of its type. -/
def JobTable.Vouches (put : List (List UInt8)) (t : JobTable) (payload : List UInt8) : Prop :=
  payload ∈ put ∨ ∃ task, Task.decode payload = .ok task ∧ t.Knows task

private theorem JobTable.Vouches.kept {put more : List (List UInt8)} {t after : JobTable}
    {payload : List UInt8}
    (vouches : t.Vouches put payload) (grows : put ⊆ more) (keeps : t.Keeps after) :
    after.Vouches more payload := by
  rcases vouches with foreign | ⟨task, carried, knows⟩
  · exact .inl (grows foreign)
  · exact .inr ⟨task, carried, knows.kept keeps⟩

namespace Pool

/-- A pool in whose queue others have put a payload. -/
def slip (payload : List UInt8) (p : Pool) : Pool :=
  { p with world := { p.world with pending := p.world.pending ++ [payload] } }

/-- Leave for every action, but deliveries are of payloads that submissions or others put into the
queue. -/
def Supplies (put : List (List UInt8)) (p : Pool) : Action → Prop
  | .deliver d => d.payload ∈ p.queued ∨ d.payload ∈ put
  | .submit _ | .drain | .turn | .disturb _ => True

/-- The pools that come of a world in which nothing has begun when others put these payloads into the
queue. -/
inductive Exposed (start : World) : List (List UInt8) → Pool → Prop
  | start : Exposed start [] ⟨start, [], []⟩
  | act {put : List (List UInt8)} {p later : Pool} {action : Action} (before : Exposed start put p)
      (allowed : p.Supplies put action) (step : p.Step action later) : Exposed start put later
  | put {put : List (List UInt8)} {p : Pool} (payload : List UInt8) (before : Exposed start put p) :
      Exposed start (put ++ [payload]) (p.slip payload)

end Pool

namespace Crew

/-- Crews in which all that is pending or in hand was put there by others or is for a job of its type, and in
which every record has its shape or was misled. -/
structure Guarded (put : List (List UInt8)) (s : Crew) : Prop where
  orderly : s.Orderly
  queued : ∀ payload ∈ queuedIn s.trace, s.world.store.Vouches put payload
  pending : ∀ payload ∈ s.world.pending, s.world.store.Vouches put payload
  held : ∀ member ∈ s.members, ∀ d, member.Holds d → s.world.store.Vouches put d.payload
  faithful : ∀ member ∈ s.members, member.Faithful s.world.store
  records : ∀ id job, s.world.store.job? id = some job → job.Formed ∨ job.Misled put id

variable {put : List (List UInt8)} {s later : Crew}

private theorem guarded_start {start : World} (fresh : start.Fresh) : Guarded [] ⟨start, [], []⟩ := by
  refine ⟨orderly_start fresh, by simp [queuedIn], ?_, by simp, by simp, ?_⟩
  · simp [fresh.pending]
  · intro id job found
    simp [fresh.store, JobTable.empty, JobTable.job?] at found

private theorem Guarded.joined (guarded : s.Guarded put) {member : Member}
    (orderly : Orderly { s with members := s.members ++ [member] })
    (held : ∀ d, member.Holds d → s.world.store.Vouches put d.payload)
    (faithful : member.Faithful s.world.store) :
    Guarded put { s with members := s.members ++ [member] } := by
  refine ⟨orderly, guarded.queued, guarded.pending, ?_, ?_, guarded.records⟩
  · intro other mem
    rcases List.mem_append.1 mem with old | new
    · exact guarded.held other old
    · rw [List.mem_singleton.1 new]
      exact held
  · intro other mem
    rcases List.mem_append.1 mem with old | new
    · exact guarded.faithful other old
    · rw [List.mem_singleton.1 new]
      exact faithful

section Turn

variable {front back : List Member} {member next : Member} {event : Event} {world : World}

/-- A record that a turn leaves has its shape or was misled: a result of the other type was recorded for a
payload that no submission queued. -/
theorem Guarded.record (guarded : s.Guarded put) (members : s.members = front ++ member :: back)
    (moves : Member.Moves s.world member event next world) {id : JobId} {later : Job}
    (found : world.store.job? id = some later) : later.Formed ∨ later.Misled put id := by
  obtain ⟨_, answered⟩ := moves.perform_eq
  have here : member ∈ s.members := members ▸ mem_turn.2 (.inl rfl)
  cases World.perform_leaves guarded.orderly.calm answered found with
  | kept found => exact guarded.records id later found
  | recorded _ _ made =>
    rw [made]
    exact .inl (Job.formed_fresh _ _ _ _ _)
  | started found source made =>
    rw [made]
    exact .inl ((Job.formed_of_unended (guarded.records id _ found) source).started source _)
  | failed found source made =>
    rw [made]
    exact .inl ((Job.formed_of_unended (guarded.records id _ found) source).failed source _ _)
  | @completed job result call found processing made =>
    have formed : job.Formed :=
      Job.formed_of_unended (guarded.records id job found) (by simp [processing])
    obtain ⟨d, task, holds, carried, names, fits⟩ := moves.completes (guarded.faithful member here) call
    rw [made]
    by_cases own : task.jobType = job.type
    · exact .inl (formed.completed processing _ (own ▸ fits))
    · rcases guarded.held member here d holds with foreign | ⟨other, known, there, same, type⟩
      · -- But for its type the record is in shape.
        have retyped : { job with type := task.jobType }.Formed := by
          simpa only [Job.Formed, processing] using formed
        exact .inr ⟨rfl, d.payload, foreign, task, carried, names, own,
          retyped.completed processing _ fits⟩
      · -- The task is for a job of its type, so the result cannot be of the other.
        cases carried.symm.trans known
        rw [names, found] at same
        cases same
        exact absurd type.symm own

private theorem Guarded.turn (guarded : s.Guarded put) (members : s.members = front ++ member :: back)
    (moves : Member.Moves s.world member event next world)
    (orderly : Orderly ⟨world, s.trace ++ [event], front ++ next :: back⟩) :
    Guarded put ⟨world, s.trace ++ [event], front ++ next :: back⟩ := by
  have calm := guarded.orderly.calm
  have here : member ∈ s.members := members ▸ mem_turn.2 (.inl rfl)
  have keeps : s.world.store.Keeps world.store := fun _ _ =>
    guarded.orderly.keeps_job members moves
  have kept : ∀ {payload}, s.world.store.Vouches put payload → world.store.Vouches put payload :=
    fun vouches => vouches.kept (List.Subset.refl put) keeps
  have queues : ∀ payload ∈ event.queued?, world.store.Vouches put payload := by
    intro payload queued
    exact kept (.inr (moves.queues (guarded.faithful member here) queued))
  refine ⟨orderly, ?_, ?_, ?_, ?_, fun id job found => guarded.record members moves found⟩
  · intro payload mem
    rw [queuedIn_append, queuedIn_singleton, List.mem_append, Option.mem_toList] at mem
    exact mem.elim (fun old => kept (guarded.queued payload old)) (queues payload)
  · intro payload mem
    exact (moves.pending calm mem).elim (fun old => kept (guarded.pending payload old)) (queues payload)
  · intro other mem d holds
    rcases mem_turn.1 mem with rfl | elsewhere
    · refine (moves.holds holds).elim (fun old => ?_) fun pending => ?_
      · exact kept (guarded.held member here d old)
      · exact kept (guarded.pending _ pending)
    · exact kept (guarded.held other (members ▸ mem_turn.2 (.inr elsewhere)) d holds)
  · intro other mem
    rcases mem_turn.1 mem with rfl | elsewhere
    · exact moves.faithful calm (guarded.faithful member here)
    · exact (guarded.faithful other (members ▸ mem_turn.2 (.inr elsewhere))).kept keeps

end Turn

private theorem Guarded.step {action : Action} (guarded : s.Guarded put)
    (allowed : s.pool.Supplies put action) (step : s.Step action later) : later.Guarded put := by
  have orderly := guarded.orderly.step step
  cases step with
  | submit fresh asking => exact guarded.joined orderly (fun _ => False.elim) (asking.typed _)
  | drain => exact guarded.joined orderly (by simp [Member.Holds, Worker.Duty.left]) trivial
  | deliver =>
    refine guarded.joined orderly ?_ (Worker.Handling.faithful_opening _)
    rintro _ rfl
    exact allowed.elim (guarded.queued _) .inl
  | turn members moves => exact guarded.turn members moves orderly
  | @disturb change =>
    obtain ⟨store, _, _, pending⟩ := change.apply_keeps s.world
    refine ⟨orderly, ?_, ?_, ?_, ?_, ?_⟩
    · simpa only [store] using guarded.queued
    · simpa only [store, pending] using guarded.pending
    · simpa only [store] using guarded.held
    · simpa only [store] using guarded.faithful
    · simpa only [store] using guarded.records

/-- A record whose result is of the other type was misled. -/
theorem Guarded.misled (guarded : s.Guarded put) {id : JobId} {job : Job} {result : JobResult}
    (found : s.world.store.job? id = some job) (completed : job.status = .completed)
    (has : job.result = some result) (other : result.jobType ≠ job.type) : job.Misled put id := by
  refine (guarded.records id job found).resolve_left fun formed => ?_
  simp only [Job.Formed, completed] at formed
  obtain ⟨_, _, ⟨_, stored, type, _⟩, _⟩ := formed
  cases has.symm.trans stored
  exact other type

/-- Others leave all as it is but for their payload. -/
theorem Guarded.slip (guarded : s.Guarded put) (payload : List UInt8) : Guarded (put ++ [payload])
    { s with world := { s.world with pending := s.world.pending ++ [payload] } } := by
  have grows : put ⊆ put ++ [payload] := List.subset_append_left put [payload]
  have kept : ∀ {old}, s.world.store.Vouches put old → s.world.store.Vouches (put ++ [payload]) old :=
    fun vouches => vouches.kept grows fun _ job found => ⟨job, found, .refl job⟩
  have orderly := guarded.orderly
  refine ⟨⟨orderly.calm, orderly.rows, orderly.distinct, orderly.stored, orderly.early⟩, ?_, ?_, ?_,
    guarded.faithful, ?_⟩
  · exact fun old mem => kept (guarded.queued old mem)
  · intro other mem
    rcases List.mem_append.1 mem with old | new
    · exact kept (guarded.pending other old)
    · exact .inl (List.mem_append_right put new)
  · exact fun member mem d holds => kept (guarded.held member mem d holds)
  · exact fun id job found => (guarded.records id job found).imp_right fun misled => misled.mono grows

end Crew

namespace Pool.Exposed

variable {start : World} {put : List (List UInt8)} {p later : Pool}

private theorem exists_guarded (fresh : start.Fresh) (exposed : Exposed start put p) :
    ∃ s : Crew, p = s.pool ∧ s.Guarded put := by
  induction exposed with
  | start => exact ⟨_, rfl, Crew.guarded_start fresh⟩
  | act _ allowed step ih =>
    obtain ⟨s, rfl, guarded⟩ := ih
    obtain ⟨later, rfl, stepped⟩ := Crew.step_of_pool step
    exact ⟨later, rfl, guarded.step allowed stepped⟩
  | put payload _ ih =>
    obtain ⟨s, rfl, guarded⟩ := ih
    exact ⟨_, rfl, guarded.slip payload⟩

private theorem misled (fresh : start.Fresh) (exposed : Exposed start put p) {id : JobId} {job : Job}
    {result : JobResult} (found : p.world.store.job? id = some job) (completed : job.status = .completed)
    (has : job.result = some result) (other : result.jobType ≠ job.type) : job.Misled put id := by
  obtain ⟨s, rfl, guarded⟩ := exposed.exists_guarded fresh
  exact guarded.misled found completed has other

private theorem turns (exposed : Exposed start put p) (taken : p.Turns later) :
    Exposed start put later := by
  induction taken with
  | refl => exact exposed
  | @tail mid _ _ step reached =>
    have allowed : mid.Supplies put .turn := trivial
    exact .act reached allowed step

/-- Where others put nothing into the queue, deliveries are of payloads of submissions. -/
theorem of_reachable (reach : Reachable Genuine start p) : Exposed start [] p := by
  induction reach with
  | start => exact .start
  | @act p later action _ allowed step reached =>
    refine .act reached ?_ step
    cases action with
    | deliver d => exact .inl allowed
    | _ => trivial

end Pool.Exposed

namespace World

/-- A store that starts jobs and takes their results. -/
structure Works (w : World) : Prop where
  starts : w.faults .processing = false
  accepts : w.faults .refuseProcessing = false
  writes : w.faults .terminalWrites = false

variable {w : World} {id : JobId} {job : Job}

private theorem Works.start_eq (works : w.Works) (found : w.store.job? id = some job)
    (source : job.status ∈ [.created, .processing]) :
    w.start id = (.ok .applied, { w with store := (w.store.start w.now id).2 }) := by
  rcases start_cases id w with ⟨broken, _⟩ | ⟨_, _, refuses | idle⟩ | ⟨_, _, _, made⟩
  · simp [works.starts] at broken
  · simp [works.accepts] at refuses
  · exact absurd source (idle job found)
  · exact made

private theorem Works.complete_eq (works : w.Works) (found : w.store.job? id = some job)
    (source : job.status ∈ [.processing]) (result : JobResult) : w.complete id result =
      (.ok .applied, { w with store := (w.store.complete w.now id result).2 }) := by
  rcases terminal_cases (rfl : w.complete id result = _) with ⟨broken, _⟩ | ⟨_, _, idle⟩ | ⟨_, _, _, made⟩
  · simp [works.writes] at broken
  · exact absurd source (idle job found)
  · exact made

private theorem execute_answers (calm : w.interruptions = []) {task : Task} {latency : Span}
    {outcome : Except ExecutionError JobResult}
    (answers : w.executors.execute task = .answers latency outcome) :
    w.execute task = some (outcome, { w with waited := w.waited + latency.nanos }) := by
  simp [execute, answers, calm]

end World

end Memory

namespace Worker

variable {w : World} {d : Delivery} {task : Task} {job : Job}

/-- A delivery whose operation answers completes the job that it names, whatever the type of the job. -/
theorem exists_run_handle (works : w.Works) (calm : w.interruptions = [])
    (carried : Task.decode d.payload = .ok task) (found : w.store.job? task.jobId = some job)
    (source : job.status ∈ [.created, .processing]) {latency : Span} {result : JobResult}
    (answers : w.executors.execute task = .answers latency (.ok result)) :
    ∃ after later, w.run (handle d) = some (.completed, after) ∧
      after.store.job? task.jobId = some later ∧ later.status = .completed ∧
      later.result = some result ∧ job.Advances later := by
  have handled : handle d = .call (.start task.jobId) (afterStart d task) := by
    rw [handle, carried]
    rfl
  let started : World := { w with store := (w.store.start w.now task.jobId).2 }
  let ran : World := { started with waited := started.waited + latency.nanos }
  let tallied : World := ran.counted (.executed task.jobType)
  let ended : World := { tallied with store := (tallied.store.complete w.now task.jobId result).2 }
  let counted : World := ended.counted (.completed task.jobType)
  have starts : w.perform (.start task.jobId) = some (.ok .applied, started) :=
    congrArg some (works.start_eq found source)
  have executes : started.perform (.execute task) = some (.ok result, ran) :=
    World.execute_answers (w := started) calm answers
  have here : tallied.store.job? task.jobId =
      some { job with status := .processing, processedAt := some w.now } :=
    JobTable.job?_change_self found source
  have still : tallied.Works := ⟨works.starts, works.accepts, works.writes⟩
  have completes : tallied.perform (.complete task.jobId result) = some (.ok .applied, ended) :=
    congrArg some (still.complete_eq here (List.mem_singleton.2 rfl) result)
  have settles : counted.settle d (verdict true) =
      ((counted.settle d .ack).1, (counted.settle d .ack).2) := rfl
  obtain ⟨store, _⟩ := settle_keeps settles
  refine ⟨(counted.settle d .ack).2, _, ?_, ?_, rfl, rfl,
    (JobTable.advances_start w.now job source).trans
      (JobTable.advances_complete w.now result _ (List.mem_singleton.2 rfl))⟩
  · calc w.run (handle d)
      _ = started.run (afterStart d task (.ok .applied)) := by
        rw [handled]
        exact World.run_answered starts
      _ = tallied.run (afterExecute d task (.ok result)) :=
        (World.run_answered executes).trans (World.run_answered rfl)
      _ = ended.run (afterComplete d task (.ok .applied)) := World.run_answered completes
      _ = some (.completed, (counted.settle d .ack).2) :=
        (World.run_answered rfl).trans (World.run_answered (c := .settle d .ack) rfl)
  · rw [store]
    exact JobTable.job?_change_self here (List.mem_singleton.2 rfl)

end Worker

/-- The stand-in gives scores that count. -/
theorem simulatedScore_inRange (image1 image2 : String) :
    leastScore ≤ simulatedScore image1 image2 ∧ simulatedScore image1 image2 ≤ greatestScore := by
  unfold simulatedScore leastScore greatestScore
  generalize (if image2 < image1 then (image2, image1) else (image1, image2)) = pair
  dsimp only
  split
  · omega
  · omega

namespace Memory

/-! ## All runs -/

/-- Whether the owner of a job who asks for it is given an answer, under every text that names it; if the
store does not answer, then that is told. -/
def World.TellsOwner (w : World) (id : JobId) (job : Job) (answer : Except QueryError StatusView) : Prop :=
  ∀ text, JobId.parse? text = some id →
    w.run (StatusQuery.status text job.type job.client) = some (answer, w) ∨
      ∃ e, w.find id job.type = .error e ∧
        w.run (StatusQuery.status text job.type job.client) = some (.error (.store e), w)

private theorem World.tellsOwner_view {w : World} (rows : w.rows = []) {id : JobId} {job : Job}
    (found : w.store.job? id = some job) : w.TellsOwner id job (StatusQuery.view job) := by
  intro text names
  rw [World.run_status w names]
  rcases World.find_own rows found with ⟨e, fails⟩ | finds
  · rw [fails]
    exact .inr ⟨e, rfl, rfl⟩
  · rw [finds, StatusQuery.viewFor, if_neg (not_not_intro rfl)]
    exact .inl rfl

/-- A payload that names a job under the other type leads to a pool in which the job is misled. -/
theorem Pool.Exposed.misleads {start : World} {put : List (List UInt8)} {p : Pool}
    (fresh : start.Fresh) (exposed : Exposed start put p) (works : p.world.Works) {payload : List UInt8}
    {task : Task} {job : Job} (carried : Task.decode payload = .ok task)
    (found : p.world.store.job? task.jobId = some job) (running : ¬ job.status.isTerminal)
    (other : task.jobType ≠ job.type) {latency : Span} {result : JobResult}
    (answers : p.world.executors.execute task = .answers latency (.ok result)) :
    ∃ later misled, Exposed start (put ++ [payload]) later ∧
      later.world.store.job? task.jobId = some misled ∧ job.Advances misled ∧
      misled.Misled (put ++ [payload]) task.jobId := by
  have source : job.status ∈ [.created, .processing] := by
    revert running
    cases job.status <;> simp [JobStatus.isTerminal]
  have calm : p.world.interruptions = [] := by
    obtain ⟨s, rfl, guarded⟩ := exposed.exists_guarded fresh
    exact guarded.orderly.calm
  let d : Delivery := ⟨payload, true⟩
  have slipped := exposed.put payload
  have allowed : (p.slip payload).Supplies (put ++ [payload]) (.deliver d) :=
    .inr (List.mem_append_right put (List.mem_singleton.2 rfl))
  have still : (p.slip payload).world.Works := ⟨works.starts, works.accepts, works.writes⟩
  obtain ⟨after, misled, ran, there, completed, has, advances⟩ :=
    Worker.exists_run_handle (d := d) still calm carried found source answers
  obtain ⟨more, taken⟩ := exists_turns Thread.handler (fun _ _ => rfl) p.threads [] (Worker.handle d)
    p.trace ran
  have exposed' := (slipped.act allowed .deliver).turns taken
  refine ⟨_, misled, exposed', there, advances, exposed'.misled fresh there completed has ?_⟩
  rw [(Executors.execute_fits answers).1, advances.type]
  exact other

/-- However submissions and workers take turns, whatever fails, and whatever others put into the queue: a
record has what its status calls for and its owner is told where it stands, or a payload that others put has
misled its job and its owner is told that the record is not consistent. And every job that is not over can
be misled where the store works, by any payload that names it under the other type and whose operation gives
a result. -/
theorem record_formed_or_misled {start : World} (fresh : start.Fresh) :
    (∀ put p, Pool.Exposed start put p → ∀ id job, p.world.store.job? id = some job →
      (job.Formed ∧ ∃ told : StatusView, told.Tells job ∧ p.world.TellsOwner id job (.ok told)) ∨
        (job.Misled put id ∧ p.world.TellsOwner id job (.error (.inconsistent job.id)))) ∧
    (∀ put p, Pool.Exposed start put p → p.world.Works → ∀ payload task job,
      Task.decode payload = .ok task → p.world.store.job? task.jobId = some job →
      ¬ job.status.isTerminal → task.jobType ≠ job.type →
      (∃ latency result, p.world.executors.execute task = .answers latency (.ok result)) →
      ∃ later misled, Pool.Exposed start (put ++ [payload]) later ∧
        later.world.store.job? task.jobId = some misled ∧ job.Advances misled ∧
        misled.Misled (put ++ [payload]) task.jobId) := by
  constructor
  · intro put p exposed id job found
    obtain ⟨s, rfl, guarded⟩ := exposed.exists_guarded fresh
    have rows : s.pool.world.rows = [] := guarded.orderly.rows
    have told := World.tellsOwner_view rows found
    rcases guarded.records id job found with formed | misled
    · obtain ⟨view, views, tells⟩ := StatusQuery.view_formed formed
      rw [views] at told
      exact .inl ⟨formed, view, tells, told⟩
    · rw [StatusQuery.view_misled misled] at told
      exact .inr ⟨misled, told⟩
  · rintro put p exposed works payload task job carried found running other ⟨latency, result, answers⟩
    exact exposed.misleads fresh works carried found running other answers

namespace Pool

/-- The desk when the job of the card is recorded. -/
def recordedDesk : World :=
  { deskWorld fun _ => false with
    store := JobTable.empty.recorded (deskWorld fun _ => false).now ((cardRequest 1).job [card]) }

private theorem exposed_recordedDesk : ∃ trace threads,
    Exposed (deskWorld fun _ => false) [] ⟨recordedDesk, trace, threads⟩ := by
  obtain ⟨task, fits⟩ := Request.exists_task (r := cardRequest 1) rfl
  have begun : Reachable Genuine (deskWorld fun _ => false) _ := .start
  obtain ⟨_, _, _, _, publishing⟩ := begun.records fits (fun _ => trivial) (fun _ => trivial)
    (valid_cardRequest rfl 1) rfl rfl ⟨rfl, rfl⟩ (by simp [requests])
  exact ⟨_, _, .of_reachable publishing⟩

/-- A comparison of faces under the id of the card's job. -/
def strayTask : Task := .faceMatch ⟨(cardRequest 1).drawn, "card", "card"⟩

private theorem execute_strayTask : ∃ latency result,
    recordedDesk.executors.execute strayTask = .answers latency (.ok result) := by
  refine ⟨.zero, .faceMatch (simulatedScore "card" "card"), ?_⟩
  show Course.answers _ (Executors.checkScore (.ok _)) = _
  rw [Executors.checkScore, if_pos (simulatedScore_inRange _ _)]

end Pool

/-- While the card's job waits for the queue its record is in shape. Then others put a comparison under its
id into the queue, and it is misled. -/
theorem record_formed_or_misled_card : ∃ (p later : Pool) (job misled : Job) (put : List (List UInt8)),
    Pool.Exposed (Pool.deskWorld fun _ => false) [] p ∧
    p.world.store.job? (Pool.cardRequest 1).drawn = some job ∧ job.Formed ∧
    Pool.Exposed (Pool.deskWorld fun _ => false) put later ∧
    later.world.store.job? (Pool.cardRequest 1).drawn = some misled ∧
    misled.Misled put (Pool.cardRequest 1).drawn ∧
    later.world.TellsOwner (Pool.cardRequest 1).drawn misled (.error (.inconsistent misled.id)) := by
  obtain ⟨tells, misleads⟩ := record_formed_or_misled (Pool.fresh_deskWorld fun _ => false)
  obtain ⟨trace, threads, exposed⟩ := Pool.exposed_recordedDesk
  obtain ⟨job, found, created, type⟩ : ∃ job, Pool.recordedDesk.store.job? Pool.strayTask.jobId = some job ∧
      job.status = .created ∧ job.type = .ocr := ⟨_, rfl, rfl, rfl⟩
  have formed : job.Formed := by
    rcases tells _ _ exposed _ job found with ⟨formed, _⟩ | ⟨misled, _⟩
    · exact formed
    · cases created.symm.trans misled.completed
  obtain ⟨later, misled, reached, there, _, foreign⟩ := misleads _ _ exposed ⟨rfl, rfl, rfl⟩
    Pool.strayTask.encode Pool.strayTask job (Task.decode_encode _) found
    (by simp [created, JobStatus.isTerminal]) (by simp [type, Pool.strayTask, Task.jobType])
    Pool.execute_strayTask
  refine ⟨_, later, job, misled, _, exposed, found, formed, reached, there, foreign, ?_⟩
  rcases tells _ _ reached _ misled there with ⟨other, _⟩ | ⟨_, told⟩
  · obtain ⟨view, views, _⟩ := StatusQuery.view_formed other
    cases views.symm.trans (StatusQuery.view_misled foreign)
  · exact told

/-- A worker that finds one payload in the queue handles it. -/
theorem World.run_work_single {w after : World} {payload : List UInt8} {outcome : DeliveryOutcome}
    (working : w.faults .consume = false) (receiving : w.faults .receive = false)
    (pending : w.pending = [payload])
    (ran : { w with pending := [] }.run (Worker.handle ⟨payload, !w.faults .settle⟩) = some (outcome, after)) :
    w.run Worker.work = some (.ok (), after) := by
  let d : Delivery := ⟨payload, !w.faults .settle⟩
  have made : w.consume = (.ok [.ok d], { w with pending := [] }) := by
    simp only [World.consume, working, receiving, pending, d]
    rfl
  exact Worker.run_work_received made (Worker.run_handleAll_cons ran)

/-- A card is to be read, and others put a comparison under the id of its job into the queue. A worker that
takes all that the queue has completes the job with a score, and its owner is told that the record is not
consistent. -/
theorem record_misled : ∃ (start : World) (put : List (List UInt8)) (p : Pool) (id : JobId) (job : Job)
    (result : JobResult), start.Fresh ∧ Pool.Exposed start put p ∧
    p.world.store.job? id = some job ∧ job.status = .completed ∧
    job.result = some result ∧ result.jobType ≠ job.type ∧
    p.world.run (StatusQuery.status id.text job.type job.client) =
      some (.error (.inconsistent job.id), p.world) := by
  have fresh := Pool.fresh_deskWorld fun _ => false
  obtain ⟨trace, threads, exposed⟩ := Pool.exposed_recordedDesk
  obtain ⟨latency, result, answers⟩ := Pool.execute_strayTask
  obtain ⟨job, found, created, type⟩ : ∃ job, Pool.recordedDesk.store.job? Pool.strayTask.jobId = some job ∧
      job.status = .created ∧ job.type = .ocr := ⟨_, rfl, rfl, rfl⟩
  have works : Pool.recordedDesk.Works := ⟨rfl, rfl, rfl⟩
  obtain ⟨after, later, ran, there, completed, has, advances⟩ :=
    Worker.exists_run_handle (d := ⟨Pool.strayTask.encode, true⟩) works rfl (Task.decode_encode _) found
      (by simp [created]) answers
  let slipped : Pool := Pool.slip Pool.strayTask.encode ⟨Pool.recordedDesk, trace, threads⟩
  have drained : slipped.world.run Worker.work = some (.ok (), after) := World.run_work_single rfl rfl rfl ran
  have allowed : slipped.Supplies [Pool.strayTask.encode] .drain := trivial
  obtain ⟨more, taken⟩ := Pool.exists_turns Thread.worker (fun _ _ => rfl) threads [] Worker.work trace
    drained
  have reached := ((exposed.put Pool.strayTask.encode).act allowed .drain).turns taken
  have other : result.jobType ≠ later.type := by
    rw [(Executors.execute_fits answers).1, advances.type, type]
    simp [Pool.strayTask, Task.jobType]
  have misled := reached.misled fresh there completed has other
  have settings := World.run_settings (w := Pool.recordedDesk) rfl ran
  have faults : after.faults = fun _ => false := settings.faults
  have rows : after.rows = [] := settings.rows
  refine ⟨_, _, _, Pool.strayTask.jobId, later, result, fresh, reached, there, completed, has, other, ?_⟩
  rcases World.tellsOwner_view rows there _ (JobId.parse?_text _) with told | ⟨e, fails, _⟩
  · rw [StatusQuery.view_misled misled] at told
    exact told
  · simp [World.find, faults, rows] at fails

end Memory

end Vetting
