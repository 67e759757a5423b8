import Vetting.Proofs.Ledger
import Vetting.Proofs.Ownership

/-!
The shape of records: a job has the times, the result and the reason that its status calls for and no
others, and a result is one of its own type (`Job.Formed`). This holds of every record in every run in
which workers get payloads from submissions only, whatever operations answer and whatever fails, so a
client that asks for its job is told where it stands (`record_formed`).

That a result fits its job rests on a chain: a payload is of the type of the job that it was queued for
(`Crew.Sourced.queued`), the executor of a task answers with a result of the task's type
(`Executors.execute_fits`), and a record keeps its type.
-/
namespace Vetting

/-- Whether jobs of a type can have a result: it is of the type, and a score is in its range. -/
def JobResult.Fits (type : JobType) (result : JobResult) : Prop :=
  result.jobType = type ∧
    ∀ score, result = .faceMatch score → leastScore ≤ score ∧ score ≤ greatestScore

namespace Job

/-- Whether a record has what its status calls for, and nothing that belongs to another status. -/
def Formed (job : Job) : Prop :=
  match job.status with
  | .created =>
    job.processedAt = none ∧ job.completedAt = none ∧ job.failedAt = none ∧ job.failedReason = none ∧
      job.result = none
  | .processing =>
    job.processedAt.isSome ∧ job.completedAt = none ∧ job.failedAt = none ∧ job.failedReason = none ∧
      job.result = none
  | .completed =>
    job.processedAt.isSome ∧ job.completedAt.isSome ∧
      (∃ result, job.result = some result ∧ result.Fits job.type) ∧
      job.failedAt = none ∧ job.failedReason = none
  | .failed =>
    job.failedAt.isSome ∧ job.failedReason.isSome ∧ job.completedAt = none ∧ job.result = none

variable {job : Job}

private theorem Formed.processing (formed : job.Formed) (processing : job.status = .processing) :
    job.processedAt.isSome ∧ job.completedAt = none ∧ job.failedAt = none ∧
      job.failedReason = none ∧ job.result = none := by
  simpa only [Formed, processing] using formed

/-- A job that is not over has nothing of those that are. -/
theorem Formed.unended (formed : job.Formed) (source : job.status ∈ [.created, .processing]) :
    job.completedAt = none ∧ job.failedAt = none ∧ job.failedReason = none ∧ job.result = none := by
  rcases List.mem_cons.1 source with created | processing
  · simp only [Formed, created] at formed
    exact formed.2
  · exact (formed.processing (List.mem_singleton.1 processing)).2

theorem formed_fresh (id : JobId) (type : JobType) (client : Int) (imageIds : List Int)
    (now : Instant) : (Job.fresh id type client imageIds now).Formed :=
  ⟨rfl, rfl, rfl, rfl, rfl⟩

theorem Formed.started (formed : job.Formed) (source : job.status ∈ [.created, .processing])
    (now : Instant) : { job with status := .processing, processedAt := some now : Job }.Formed :=
  ⟨rfl, formed.unended source⟩

theorem Formed.completed (formed : job.Formed) (source : job.status = .processing) (now : Instant)
    {result : JobResult} (fits : result.Fits job.type) :
    { job with status := .completed, completedAt := some now, result := some result : Job }.Formed := by
  obtain ⟨processed, _, failed, reason, _⟩ := formed.processing source
  exact ⟨processed, rfl, ⟨result, rfl, fits⟩, failed, reason⟩

theorem Formed.failed (formed : job.Formed) (source : job.status ∈ [.created, .processing])
    (now : Instant) (reason : String) : (Memory.JobTable.failed now reason job).Formed := by
  obtain ⟨completed, _, _, result⟩ := formed.unended source
  exact ⟨rfl, rfl, completed, result⟩

end Job

/-- Whether a view tells of a record what its status has to say. -/
def StatusView.Tells (job : Job) : StatusView → Prop
  | .created at' => job.status = .created ∧ job.createdAt = at'
  | .processing at' => job.status = .processing ∧ job.processedAt = some at'
  | .failed at' reason =>
    job.status = .failed ∧ job.failedAt = some at' ∧ job.failedReason = some reason
  | .completed at' result =>
    job.status = .completed ∧ job.completedAt = some at' ∧ job.result = some result ∧
      result.jobType = job.type

theorem StatusQuery.view_formed {job : Job} (formed : job.Formed) :
    ∃ told, view job = .ok told ∧ told.Tells job := by
  unfold Job.Formed at formed
  unfold view
  cases status : job.status with
  | created => exact ⟨_, rfl, status, rfl⟩
  | processing =>
    simp only [status] at formed ⊢
    obtain ⟨time, at'⟩ := Option.isSome_iff_exists.1 formed.1
    exact ⟨.processing time, by rw [at']; rfl, status, at'⟩
  | completed =>
    simp only [status] at formed ⊢
    obtain ⟨_, completed, ⟨result, has, type, _⟩, _⟩ := formed
    obtain ⟨time, at'⟩ := Option.isSome_iff_exists.1 completed
    have own : job.result.filter (fun result => decide (result.jobType = job.type)) = some result := by
      rw [has, Option.filter_some, decide_eq_true type, if_pos rfl]
    refine ⟨.completed time result, ?_, status, at', has, type⟩
    rw [at', own]
    rfl
  | failed =>
    simp only [status] at formed ⊢
    obtain ⟨failed, reason, _⟩ := formed
    obtain ⟨time, at'⟩ := Option.isSome_iff_exists.1 failed
    obtain ⟨text, why⟩ := Option.isSome_iff_exists.1 reason
    exact ⟨.failed time text, by rw [at', why]; rfl, status, at', why⟩

private theorem Course.of_limited {α : Type} {limit : Option Span} {course : Course α} {latency : Span}
    {a : α} (answers : course.limited limit = .answers latency (.ok a)) :
    ∃ latency, course = .answers latency (.ok a) := by
  unfold limited at answers
  split at answers
  · exact ⟨latency, answers⟩
  · cases answers
  · split at answers
    · cases answers
      exact ⟨_, rfl⟩
    · cases answers

private theorem Course.of_map {α β : Type} {f : Except ExecutionError α → Except ExecutionError β}
    {course : Course α} {latency : Span} {outcome : Except ExecutionError β}
    (answers : course.map f = .answers latency outcome) : ∃ inner, outcome = f inner := by
  cases course with
  | hangs => cases answers
  | answers latency inner =>
    cases answers
    exact ⟨inner, rfl⟩

theorem Executors.execute_fits {executors : Executors} {task : Task} {latency : Span}
    {result : JobResult} (answers : executors.execute task = .answers latency (.ok result)) :
    result.Fits task.jobType := by
  obtain ⟨latency, answers⟩ := Course.of_limited answers
  cases task with
  | faceMatch task =>
    obtain ⟨score, checked⟩ := Course.of_map answers
    unfold checkScore at checked
    split at checked
    · cases checked
    · split at checked
      · next inRange =>
        cases checked
        refine ⟨rfl, ?_⟩
        rintro _ ⟨⟩
        exact inRange
      · cases checked
  | ocr task =>
    obtain ⟨details, read⟩ := Course.of_map answers
    cases details with
    | error e => cases read
    | ok details =>
      cases read
      exact ⟨rfl, nofun⟩

namespace Memory

namespace JobTable

/-- Whether all records have the shape that their status calls for. -/
def Formed (t : JobTable) : Prop := ∀ id job, t.job? id = some job → job.Formed

/-- Whether the job of a task is there and of its type. -/
def Knows (t : JobTable) (task : Task) : Prop :=
  ∃ job, t.job? task.jobId = some job ∧ job.type = task.jobType

/-- Whether all records of a table are in another, where they have moved on. -/
def Keeps (t after : JobTable) : Prop :=
  ∀ id job, t.job? id = some job → ∃ later, after.job? id = some later ∧ job.Advances later

variable {t : JobTable} {id : JobId} {now : Instant}

private theorem Formed.change {sources : List JobStatus} {apply : Job → Job} (formed : t.Formed)
    (applied : ∀ job, t.job? id = some job → job.status ∈ sources → job.Formed → (apply job).Formed) :
    (t.change id sources apply).2.Formed := by
  intro other job found
  rw [job?_change] at found
  by_cases same : other = id
  · rw [if_pos same, Option.map_eq_some_iff] at found
    obtain ⟨old, there, rfl⟩ := found
    split
    · next source => exact applied old there source (formed id old there)
    · exact formed id old there
  · rw [if_neg same] at found
    exact formed other job found

private theorem Formed.start (formed : t.Formed) : (t.start now id).2.Formed :=
  formed.change fun _ _ source shape => shape.started source now

private theorem Formed.complete {task : Task} {result : JobResult} (formed : t.Formed) (knows : t.Knows task)
    (fits : result.Fits task.jobType) : (t.complete now task.jobId result).2.Formed := by
  obtain ⟨known, there, type⟩ := knows
  refine formed.change fun job found source shape => ?_
  cases there.symm.trans found
  exact shape.completed (List.mem_singleton.1 source) now (type ▸ fits)

private theorem Formed.fail {reason : String} (formed : t.Formed) : (t.fail now id reason).2.Formed :=
  formed.change fun _ _ source shape => shape.failed source now reason

private theorem Formed.abandon {reason : String} (formed : t.Formed) :
    (t.abandon now id reason).Formed := by
  intro other job found
  rw [job?_abandon] at found
  refine formed.change (fun job _ source shape => shape.failed ?_ now reason) other job found
  exact List.mem_cons.2 (.inl (List.mem_singleton.1 source))

private theorem Formed.recorded {new : NewJob} (formed : t.Formed) : (t.recorded now new).Formed := by
  intro other job found
  rw [job?_recorded] at found
  split at found
  · cases found
    exact Job.formed_fresh _ _ _ _ _
  · exact formed other job found

theorem Knows.kept {after : JobTable} {task : Task} (knows : t.Knows task) (keeps : t.Keeps after) :
    after.Knows task := by
  obtain ⟨job, found, type⟩ := knows
  obtain ⟨later, there, advances⟩ := keeps _ job found
  exact ⟨later, there, advances.type.trans type⟩

end JobTable

end Memory

open Memory

/-! ## One call of a program -/

section Calls

variable {w after : World} {event : Event}

namespace Submission

variable {r : Request} {stage later : Stage r}

/-- Whether the payload that is about to be queued is for a job of its type. -/
def Stage.Typed (t : JobTable) : Stage r → Prop
  | .publishing task _ => t.Knows task
  | _ => True

theorem Stage.Asking.typed (asking : stage.Asking) (t : JobTable) : stage.Typed t := by
  cases asking <;> trivial

theorem Moves.typed (moves : Moves w stage event later after) : later.Typed after.store := by
  cases moves with
  | asked _ asking _ => exact asking.typed _
  | @recorded images task fits =>
    refine ⟨_, JobTable.job?_recorded.trans (if_pos (Request.jobId_task fits)), ?_⟩
    exact (Request.jobType_task fits).symm
  | _ => trivial

private theorem Moves.formed (moves : Moves w stage event later after) (formed : w.store.Formed) :
    after.store.Formed := by
  cases moves with
  | recorded => exact formed.recorded
  | withdrawn => exact formed.abandon
  | remembered | renewed => rwa [(World.noted_keeps _ _).1]
  | _ => exact formed

theorem Moves.carries {payload : List UInt8} (moves : Moves w stage event later after)
    (typed : stage.Typed w.store) (queued : event.queued? = some payload) :
    ∃ task, Task.decode payload = .ok task ∧ w.store.Knows task := by
  cases moves with
  | @queued task =>
    cases queued
    exact ⟨task, task.decode_encode, typed⟩
  | _ => cases queued

end Submission

namespace Worker

namespace Handling

variable {d : Delivery} {stage later : Handling d}

/-- Whether a delivery works for a job of its task's type, and has a result that fits. -/
def Typed (t : JobTable) : Handling d → Prop
  | .starting task | .executing task | .failing task _ => t.Knows task
  | .tallying task outcome => t.Knows task ∧ ∀ result, outcome = .ok result → result.Fits task.jobType
  | .completing task result => t.Knows task ∧ result.Fits task.jobType
  | .counting .. | .settling .. | .finished _ => True

private theorem typed_opening {t : JobTable}
    (carries : ∃ task, Task.decode d.payload = .ok task ∧ t.Knows task) : (opening d).Typed t := by
  obtain ⟨task, decoded, knows⟩ := carries
  rw [opening, decoded]
  exact knows

private theorem Typed.kept {t after : JobTable} (typed : stage.Typed t) (keeps : t.Keeps after) :
    stage.Typed after := by
  cases stage with
  | starting | executing | failing => exact JobTable.Knows.kept typed keeps
  | tallying | completing => exact ⟨typed.1.kept keeps, typed.2⟩
  | _ => trivial

private theorem Moves.typed (moves : Moves w stage event later after) (calm : w.interruptions = [])
    (keeps : w.store.Keeps after.store) (typed : stage.Typed w.store) : later.Typed after.store := by
  cases moves with
  | started | unstarted => exact JobTable.Knows.kept typed keeps
  | executed ran =>
    refine ⟨JobTable.Knows.kept typed keeps, ?_⟩
    rintro result rfl
    obtain ⟨_, answers, _⟩ := World.execute_eq calm ran
    exact Executors.execute_fits answers
  | @tallied task outcome =>
    cases outcome with
    | ok result => exact ⟨typed.1.kept keeps, typed.2 result rfl⟩
    | error e => exact typed.1.kept keeps
  | _ => trivial

private theorem Moves.formed (moves : Moves w stage event later after) (calm : w.interruptions = [])
    (typed : stage.Typed w.store) (formed : w.store.Formed) : after.store.Formed := by
  cases moves with
  | started => exact formed.start
  | completed => exact formed.complete typed.1 typed.2
  | failed => exact formed.fail
  | executed ran =>
    obtain ⟨_, _, rfl⟩ := World.execute_eq calm ran
    exact formed
  | @settled done _ _ _ made =>
    have same := congrArg (fun made => made.2.store) made
    simp only [World.settle] at same
    rw [← same]
    repeat' split
    all_goals exact formed
  | _ => exact formed

end Handling

namespace Duty

variable {duty later : Duty}

/-- The deliveries that a worker has received and not finished. -/
def left : Duty → List (Except QueueError Delivery)
  | .handling d _ _ rest => .ok d :: rest
  | .waiting rest => rest
  | .receiving | .finished _ => []

def Typed (t : JobTable) : Duty → Prop
  | .handling _ stage _ _ => stage.Typed t
  | .receiving | .waiting _ | .finished _ => True

private theorem left_resume {received : List (Except QueueError Delivery)} {d : Delivery}
    (mem : .ok d ∈ (resume received).left) : .ok d ∈ received := by
  match received with
  | [] => cases mem
  | .ok _ :: _ => exact mem
  | .error _ :: _ => exact List.mem_cons_of_mem _ mem

private theorem left_proceed {d other : Delivery} {stage : Handling d}
    {rest : List (Except QueueError Delivery)} (mem : .ok other ∈ (proceed d stage rest).left) :
    .ok other ∈ Except.ok d :: rest := by
  unfold proceed at mem
  split at mem
  · exact mem
  · exact List.mem_cons_of_mem _ (left_resume mem)

private theorem typed_resume {t : JobTable} {received : List (Except QueueError Delivery)}
    (carries : ∀ d, .ok d ∈ (resume received).left →
      ∃ task, Task.decode d.payload = .ok task ∧ t.Knows task) : (resume received).Typed t := by
  match received with
  | [] => trivial
  | .ok d :: _ => exact Handling.typed_opening (carries d List.mem_cons_self)
  | .error _ :: _ => trivial

/-- What a worker has yet to handle was its own before, or was pending. -/
theorem Moves.left (moves : Moves w duty event later after) {d : Delivery} (mem : .ok d ∈ later.left) :
    .ok d ∈ duty.left ∨ d.payload ∈ w.pending := by
  cases moves with
  | barred => cases mem
  | @received received _ made =>
    right
    unfold World.consume at made
    split at made
    · cases made
    · cases made
      have among := left_resume mem
      split at among
      · rcases List.mem_cons.1 among with same | among
        · cases same
        · obtain ⟨payload, pending, same⟩ := List.mem_map.1 among
          cases same
          exact pending
      · obtain ⟨payload, pending, same⟩ := List.mem_map.1 among
        cases same
        exact pending
  | handled => exact .inl (left_proceed mem)
  | waited => exact .inl (left_resume mem)

private theorem Moves.typed (moves : Moves w duty event later after) (calm : w.interruptions = [])
    (keeps : w.store.Keeps after.store) (typed : duty.Typed w.store)
    (carries : ∀ d, .ok d ∈ later.left →
      ∃ task, Task.decode d.payload = .ok task ∧ after.store.Knows task) : later.Typed after.store := by
  cases moves with
  | barred => trivial
  | received | waited => exact typed_resume carries
  | handled moves =>
    unfold proceed at carries ⊢
    split at carries
    · next busy =>
      rw [dif_pos busy]
      exact moves.typed calm keeps typed
    · next idle =>
      rw [dif_neg idle]
      exact typed_resume carries

private theorem Moves.formed (moves : Moves w duty event later after) (calm : w.interruptions = [])
    (typed : duty.Typed w.store) (formed : w.store.Formed) : after.store.Formed := by
  cases moves with
  | barred made | received made =>
    have same := congrArg (fun made => made.2.store) made
    rw [← same]
    unfold World.consume
    split <;> exact formed
  | handled moves => exact moves.formed calm typed formed
  | waited => exact formed

private theorem Moves.pending (moves : Moves w duty event later after) (calm : w.interruptions = [])
    {payload : List UInt8} (mem : payload ∈ after.pending) : payload ∈ w.pending := by
  cases moves with
  | barred made | received made =>
    rw [← congrArg (fun made => made.2.pending) made] at mem
    unfold World.consume at mem
    split at mem
    · exact mem
    · cases mem
  | handled moves => exact moves.pending_eq calm ▸ mem
  | waited => exact mem

end Duty

end Worker

end Calls

/-! ## Runs -/

namespace Memory

namespace Member

/-- Whether a program works for jobs of its tasks' types. -/
def Typed (t : JobTable) : Member → Prop
  | .submission _ stage => stage.Typed t
  | .worker duty => duty.Typed t
  | .handler _ stage => stage.Typed t

/-- The deliveries that a program is to handle after the one that it handles. -/
def left : Member → List (Except QueueError Delivery)
  | .worker duty => duty.left
  | .submission .. | .handler .. => []

variable {w after : World} {event : Event} {member later : Member} {t : JobTable}

theorem Typed.kept {t' : JobTable} (typed : member.Typed t) (keeps : t.Keeps t') : member.Typed t' := by
  cases member with
  | submission r stage =>
    cases stage with
    | publishing => exact JobTable.Knows.kept typed keeps
    | _ => trivial
  | worker duty =>
    cases duty with
    | handling => exact Worker.Handling.Typed.kept typed keeps
    | _ => trivial
  | handler d stage => exact Worker.Handling.Typed.kept typed keeps

private theorem Moves.typed (moves : Moves w member event later after) (calm : w.interruptions = [])
    (keeps : w.store.Keeps after.store) (typed : member.Typed w.store)
    (carries : ∀ d, .ok d ∈ later.left →
      ∃ task, Task.decode d.payload = .ok task ∧ after.store.Knows task) : later.Typed after.store := by
  cases moves with
  | submission moves => exact moves.typed
  | worker moves => exact moves.typed calm keeps typed carries
  | handler moves => exact moves.typed calm keeps typed

private theorem Moves.formed (moves : Moves w member event later after) (calm : w.interruptions = [])
    (typed : member.Typed w.store) (formed : w.store.Formed) : after.store.Formed := by
  cases moves with
  | submission moves => exact moves.formed formed
  | worker moves => exact moves.formed calm typed formed
  | handler moves => exact moves.formed calm typed formed

private theorem Moves.left (moves : Moves w member event later after) {d : Delivery}
    (mem : .ok d ∈ later.left) : .ok d ∈ member.left ∨ d.payload ∈ w.pending := by
  cases moves with
  | submission | handler => cases mem
  | worker moves => exact moves.left mem

theorem Moves.pending (moves : Moves w member event later after) (calm : w.interruptions = [])
    {payload : List UInt8} (mem : payload ∈ after.pending) :
    payload ∈ w.pending ∨ payload ∈ event.queued? := by
  cases moves with
  | submission moves =>
    rw [moves.pending_eq, List.mem_append, Option.mem_toList] at mem
    exact mem
  | worker moves => exact .inl (moves.pending calm mem)
  | handler moves => exact .inl (moves.pending_eq calm ▸ mem)

private theorem Moves.carries (moves : Moves w member event later after) (typed : member.Typed w.store)
    {payload : List UInt8} (queued : payload ∈ event.queued?) :
    ∃ task, Task.decode payload = .ok task ∧ w.store.Knows task := by
  cases moves with
  | submission moves => exact moves.carries typed queued
  | worker moves =>
    rw [(Event.plain_ofWorker moves.ofWorker).queued] at queued
    cases queued
  | handler moves =>
    rw [(Event.plain_ofWorker moves.ofWorker).queued] at queued
    cases queued

end Member

namespace Crew

/-- Whether all that is queued, and all that is worked on, is for jobs of the right types. -/
structure Sourced (s : Crew) : Prop where
  orderly : s.Orderly
  queued : ∀ payload ∈ queuedIn s.trace,
    ∃ task, Task.decode payload = .ok task ∧ s.world.store.Knows task
  pending : ∀ payload ∈ s.world.pending, payload ∈ queuedIn s.trace
  received : ∀ member ∈ s.members, ∀ d, .ok d ∈ member.left → d.payload ∈ queuedIn s.trace
  typed : ∀ member ∈ s.members, member.Typed s.world.store
  formed : s.world.store.Formed

variable {s later : Crew}

theorem sourced_start {start : World} (fresh : start.Fresh) : Sourced ⟨start, [], []⟩ := by
  refine ⟨orderly_start fresh, by simp [queuedIn], ?_, by simp, by simp, ?_⟩
  · simp [fresh.pending]
  · intro id job found
    simp [fresh.store, JobTable.empty, JobTable.job?] at found

/-- A program that begins has received nothing but what it is given. -/
theorem Sourced.joined (sourced : s.Sourced) {member : Member}
    (orderly : Orderly { s with members := s.members ++ [member] }) (left : member.left = [])
    (typed : member.Typed s.world.store) : Sourced { s with members := s.members ++ [member] } := by
  refine ⟨orderly, sourced.queued, sourced.pending, ?_, ?_, sourced.formed⟩
  · intro other mem d among
    rcases List.mem_append.1 mem with old | new
    · exact sourced.received other old d among
    · rw [List.mem_singleton.1 new, left] at among
      cases among
  · intro other mem
    rcases List.mem_append.1 mem with old | new
    · exact sourced.typed other old
    · rw [List.mem_singleton.1 new]
      exact typed

private theorem Sourced.turn (sourced : s.Sourced) {front back : List Member} {member next : Member}
    {event : Event} {world : World} (members : s.members = front ++ member :: back)
    (moves : Member.Moves s.world member event next world)
    (orderly : Orderly ⟨world, s.trace ++ [event], front ++ next :: back⟩) :
    Sourced ⟨world, s.trace ++ [event], front ++ next :: back⟩ := by
  have calm := sourced.orderly.calm
  have keeps : s.world.store.Keeps world.store := fun _ _ =>
    sourced.orderly.keeps_job members moves
  have here : member ∈ s.members := members ▸ mem_turn.2 (.inl rfl)
  have typed := sourced.typed member here
  have grows : ∀ payload ∈ queuedIn s.trace, payload ∈ queuedIn (s.trace ++ [event]) := by
    intro payload mem
    simp [mem]
  have queued : ∀ payload ∈ queuedIn (s.trace ++ [event]),
      ∃ task, Task.decode payload = .ok task ∧ world.store.Knows task := by
    intro payload mem
    rw [queuedIn_append, queuedIn_singleton, List.mem_append, Option.mem_toList] at mem
    obtain ⟨task, decoded, knows⟩ := mem.elim (sourced.queued payload) (moves.carries typed)
    exact ⟨task, decoded, knows.kept keeps⟩
  have received : ∀ d, .ok d ∈ next.left → d.payload ∈ queuedIn (s.trace ++ [event]) := by
    intro d mem
    refine grows _ ?_
    rcases moves.left mem with old | pending
    · exact sourced.received member here d old
    · exact sourced.pending _ pending
  refine ⟨orderly, queued, ?_, ?_, ?_, moves.formed calm typed sourced.formed⟩
  · intro payload mem
    rcases moves.pending calm mem with old | new
    · exact grows _ (sourced.pending payload old)
    · simp [Option.mem_def.1 new]
  · intro other mem d among
    rcases mem_turn.1 mem with rfl | elsewhere
    · exact received d among
    · exact grows _ (sourced.received other (members ▸ mem_turn.2 (.inr elsewhere)) d among)
  · intro other mem
    rcases mem_turn.1 mem with rfl | elsewhere
    · exact moves.typed calm keeps typed fun d among => queued _ (received d among)
    · exact (sourced.typed other (members ▸ mem_turn.2 (.inr elsewhere))).kept keeps

end Crew

/-- Leave for every action, but deliveries are of payloads that submissions put into the queue. -/
def Pool.Genuine (p : Pool) : Action → Prop
  | .deliver d => d.payload ∈ p.queued
  | .submit _ | .drain | .turn | .disturb _ => True

theorem Crew.Sourced.step {s later : Crew} {action : Action} (sourced : s.Sourced)
    (genuine : s.pool.Genuine action) (step : s.Step action later) : later.Sourced := by
  have orderly := sourced.orderly.step step
  cases step with
  | submit fresh asking => exact sourced.joined orderly rfl (asking.typed _)
  | drain => exact sourced.joined orderly rfl trivial
  | deliver =>
    exact sourced.joined orderly rfl (Worker.Handling.typed_opening (sourced.queued _ genuine))
  | turn members moves => exact sourced.turn members moves orderly
  | @disturb change =>
    obtain ⟨store, _, _, pending⟩ := change.apply_keeps s.world
    refine ⟨orderly, ?_, ?_, sourced.received, ?_, ?_⟩
    · simpa only [store] using sourced.queued
    · simpa only [pending] using sourced.pending
    · simpa only [store] using sourced.typed
    · simpa only [store] using sourced.formed

/-- However submissions and workers take turns, whatever operations answer and whatever fails, if workers
get the payloads of submissions: every record has what its status calls for and no more. Its owner who
asks for it is told where it stands, under every text that names it; if the store does not answer, then
that is told. -/
theorem record_formed {start : World} {p : Pool} (fresh : start.Fresh)
    (reach : Pool.Reachable Pool.Genuine start p) {id : JobId} {job : Job}
    (found : p.world.store.job? id = some job) :
    job.Formed ∧ ∃ told : StatusView, told.Tells job ∧
      ∀ text, JobId.parse? text = some id →
        ∃ answer, p.world.run (StatusQuery.status text job.type job.client) = some (answer, p.world) ∧
          (answer = .ok told ∨
            ∃ e, p.world.find id job.type = .error e ∧ answer = .error (.store e)) := by
  obtain ⟨s, rfl, sourced⟩ := reach.induct Crew.Sourced (Crew.sourced_start fresh)
    fun sourced genuine step => sourced.step genuine step
  have formed := sourced.formed id job found
  obtain ⟨told, views, tells⟩ := StatusQuery.view_formed formed
  refine ⟨formed, told, tells, ?_⟩
  intro text names
  refine ⟨_, World.run_status _ names, ?_⟩
  have rows : s.pool.world.rows = [] := sourced.orderly.rows
  rcases World.find_own rows found with ⟨e, fails⟩ | finds
  · rw [fails]
    exact .inr ⟨e, rfl, rfl⟩
  · rw [finds, StatusQuery.viewFor, if_neg (not_not_intro rfl), views]
    exact .inl rfl

/-- A card is submitted and queued, and a worker gets the payload and completes the job. -/
theorem record_formed_card : ∃ (p : Pool) (job : Job),
    Pool.Reachable Pool.Genuine (Pool.deskWorld fun _ => false) p ∧
    p.world.store.job? (Pool.cardRequest 1).drawn = some job ∧ job.status = .completed ∧
    job.Formed ∧ ∃ told : StatusView, told.Tells job ∧
      p.world.run (StatusQuery.status (Pool.cardRequest 1).drawn.text .ocr 1) =
        some (.ok told, p.world) := by
  let task : OcrTask := ⟨(Pool.cardRequest 1).drawn, "card"⟩
  have turns : ∀ p : Pool, p.Genuine .turn := fun _ => trivial
  have opens : ∀ p : Pool, p.Genuine (.submit (Pool.cardRequest 1)) := fun _ => trivial
  have begun : Pool.Reachable Pool.Genuine (Pool.deskWorld fun _ => false) _ := .start
  have fits : (Pool.cardRequest 1).task? = some (.ocr task) := rfl
  obtain ⟨more, _, _, _, publishing⟩ := begun.records fits turns opens (Pool.valid_cardRequest rfl 1) rfl
    rfl ⟨rfl, rfl⟩ (by simp [Pool.requests])
  have queued := publishing.moves [] [] turns (.queued rfl)
  obtain ⟨w, trace, first, delivered, after, job, ran, found, completed, type, client, finds⟩ : ∃ w trace first,
      Pool.Reachable Pool.Genuine (Pool.deskWorld fun _ => false)
        ⟨w, trace, [first] ++ [.handler (Worker.handle ⟨(Task.ocr task).encode, true⟩)]⟩ ∧
      ∃ after job, w.run (Worker.handle ⟨(Task.ocr task).encode, true⟩) = some (.completed, after) ∧
        after.store.job? (Pool.cardRequest 1).drawn = some job ∧ job.status = .completed ∧
        job.type = .ocr ∧ job.client = 1 ∧ ∀ e, after.find (Pool.cardRequest 1).drawn job.type ≠ .error e := by
    refine ⟨_, _, _, .act queued
      (?_ : Pool.Genuine _ (.deliver ⟨(Task.ocr task).encode, true⟩)) .deliver, ?_⟩
    · show _ ∈ queuedIn _
      rw [queuedIn_append]
      exact List.mem_append_right _ (List.mem_singleton.2 rfl)
    · rw [← Worker.Handling.program_opening, Worker.Handling.opening, Task.decode_encode]
      refine ⟨_, _, rfl, rfl, rfl, rfl, rfl, ?_⟩
      rintro e ⟨⟩
  obtain ⟨_, handled⟩ := delivered.run Thread.handler (fun _ _ => rfl) turns _ ran
  obtain ⟨formed, told, tells, answers⟩ := record_formed (Pool.fresh_deskWorld _) handled found
  refine ⟨_, job, handled, found, completed, formed, told, tells, ?_⟩
  obtain ⟨answer, asked, answered⟩ := answers _ (JobId.parse?_text _)
  rw [type, client] at asked
  rcases answered with rfl | ⟨e, fails, _⟩
  · exact asked
  · exact absurd fails (finds e)

end Memory

end Vetting
