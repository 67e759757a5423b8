import Vetting.Memory.World
import Vetting.Proofs.JobTable
import Vetting.Proofs.Program

/-!
What a call leaves of a world: its settings stay (`perform_settings`), every job stays and moves on
(`perform_advances`), a record that was not there before is one that the call made (`perform_leaves`), and
the calls of a worker touch neither fingerprints nor cache (`perform_ofWorker`). A call is always answered
unless its operation never ends (`exists_perform`).
-/
namespace Vetting

/-- Whether a worker makes such a call. -/
def Call.OfWorker : Call → Prop
  | .consume | .start _ | .complete .. | .fail .. | .settle .. | .execute _ | .wait _ | .count _ => True
  | _ => False

/-- Whether a call only asks. -/
def Call.Asks : Call → Prop
  | .findImage _ | .lookup _ | .find .. | .checkStore | .checkQueue | .metrics => True
  | _ => False

/-- What a call counts. -/
def Call.counter? : Call → Option Counter
  | .count counter => some counter
  | _ => none

namespace Memory

/-- The job that an interruption is about. -/
def Interruption.named? : Interruption → Option JobId
  | .completes id | .fails id => some id
  | .breaksWrites => none

/-- A call, its reply and the world in which it was made. -/
structure Event where
  before : World
  call : Call
  reply : call.Reply

namespace Event

/-- The job that a call recorded. -/
def recorded? : Event → Option JobId
  | ⟨_, .create job, .ok .created⟩ => some job.id
  | _ => none

/-- The job that a call abandoned; one that has started is not. -/
def abandoned? : Event → Option JobId
  | ⟨w, .abandon id _, .ok ()⟩ => if w.store.Unstarted id then some id else none
  | _ => none

/-- The payload that a call put into the queue. -/
def queued? : Event → Option (List UInt8)
  | ⟨_, .publish payload, .ok ()⟩ => some payload
  | _ => none

/-- A call that records no job, abandons none and queues nothing. -/
structure Plain (event : Event) : Prop where
  recorded : event.recorded? = none
  abandoned : event.abandoned? = none
  queued : event.queued? = none

theorem plain_ofWorker {event : Event} (ofWorker : event.call.OfWorker) : event.Plain := by
  obtain ⟨w, c, reply⟩ := event
  cases c <;> first | exact ofWorker.elim | exact ⟨rfl, rfl, rfl⟩

end Event

/-- The ids of the jobs that were recorded by the calls of a trace. -/
def recordedIn (trace : List Event) : List JobId := trace.filterMap Event.recorded?

/-- The ids of the jobs that were abandoned. -/
def abandonedIn (trace : List Event) : List JobId := trace.filterMap Event.abandoned?

/-- The payloads that the queue accepted. -/
def queuedIn (trace : List Event) : List (List UInt8) := trace.filterMap Event.queued?

section Traces

variable {trace : List Event} {event : Event}

@[simp] theorem recordedIn_append (front back : List Event) :
    recordedIn (front ++ back) = recordedIn front ++ recordedIn back := List.filterMap_append

@[simp] theorem recordedIn_singleton (event : Event) : recordedIn [event] = event.recorded?.toList := by
  cases told : event.recorded? <;> simp [recordedIn, told]

@[simp] theorem abandonedIn_append (front back : List Event) :
    abandonedIn (front ++ back) = abandonedIn front ++ abandonedIn back := List.filterMap_append

@[simp] theorem abandonedIn_singleton (event : Event) : abandonedIn [event] = event.abandoned?.toList := by
  cases told : event.abandoned? <;> simp [abandonedIn, told]

@[simp] theorem queuedIn_append (front back : List Event) :
    queuedIn (front ++ back) = queuedIn front ++ queuedIn back := List.filterMap_append

@[simp] theorem queuedIn_singleton (event : Event) : queuedIn [event] = event.queued?.toList := by
  cases told : event.queued? <;> simp [queuedIn, told]

theorem Event.Plain.recordedIn (plain : event.Plain) :
    recordedIn (trace ++ [event]) = recordedIn trace := by
  simp [plain.recorded]

theorem Event.Plain.abandonedIn (plain : event.Plain) :
    abandonedIn (trace ++ [event]) = abandonedIn trace := by
  simp [plain.abandoned]

theorem recordedIn_of_plain (plain : ∀ event ∈ trace, event.Plain) : Memory.recordedIn trace = [] :=
  List.filterMap_eq_nil_iff.2 fun event mem => (plain event mem).recorded

theorem abandonedIn_of_plain (plain : ∀ event ∈ trace, event.Plain) : Memory.abandonedIn trace = [] :=
  List.filterMap_eq_nil_iff.2 fun event mem => (plain event mem).abandoned

theorem queuedIn_of_plain (plain : ∀ event ∈ trace, event.Plain) : Memory.queuedIn trace = [] :=
  List.filterMap_eq_nil_iff.2 fun event mem => (plain event mem).queued

end Traces

namespace World

/-- A world to which nothing was submitted yet, and in which all operations run undisturbed. -/
structure Fresh (w : World) : Prop where
  store : w.store = .empty
  cache : w.cache = []
  pending : w.pending = []
  rows : w.rows = []
  interruptions : w.interruptions = []

/-- Two worlds with the same images, switches, executors and time. -/
structure SameSettings (w other : World) : Prop where
  images : other.images = w.images
  faults : other.faults = w.faults
  rows : other.rows = w.rows
  executors : other.executors = w.executors
  interruptions : other.interruptions = w.interruptions
  now : other.now = w.now

private theorem SameSettings.refl (w : World) : SameSettings w w := ⟨rfl, rfl, rfl, rfl, rfl, rfl⟩

private theorem SameSettings.trans {w mid last : World} (first : SameSettings w mid)
    (second : SameSettings mid last) : SameSettings w last :=
  ⟨second.images.trans first.images, second.faults.trans first.faults, second.rows.trans first.rows,
    second.executors.trans first.executors, second.interruptions.trans first.interruptions,
    second.now.trans first.now⟩

/-- Executors that answer every task. -/
def Answering (w : World) : Prop :=
  ∀ task, ∃ latency outcome, w.executors.execute task = .answers latency outcome

variable {w after : World} {c : Call} {reply : c.Reply}

/-- What an operation does in a world without interruptions. -/
theorem execute_eq {task : Task} {outcome : Except ExecutionError JobResult}
    (calm : w.interruptions = []) (ran : w.execute task = some (outcome, after)) :
    ∃ latency, w.executors.execute task = .answers latency outcome ∧
      after = { w with waited := w.waited + latency.nanos } := by
  unfold execute at ran
  cases course : w.executors.execute task with
  | hangs => simp [course] at ran
  | answers latency answer =>
    simp only [course, calm, List.lookup_nil, Option.some.injEq, Prod.mk.injEq] at ran
    obtain ⟨rfl, rfl⟩ := ran
    exact ⟨latency, rfl, by simp [calm]⟩

theorem perform_settings {answer : c.Reply × World} (calm : w.interruptions = [])
    (answered : perform c w = some answer) : SameSettings w answer.2 := by
  cases c with
  | execute task =>
    obtain ⟨_, _, equal⟩ := execute_eq calm answered
    rw [equal]
    exact ⟨rfl, rfl, rfl, rfl, rfl, rfl⟩
  | _ =>
    cases answered
    simp only [create, abandon, start, complete, fail, publish, consume, settle, stored]
    repeat' split
    all_goals exact ⟨rfl, rfl, rfl, rfl, rfl, rfl⟩

/-- What was counted grows with the calls that count. -/
theorem perform_metrics {answer : c.Reply × World} (answered : perform c w = some answer)
    (counter : Counter) : answer.2.metrics.count counter =
      w.metrics.count counter + if c.counter? = some counter then 1 else 0 := by
  have silent : c.counter? = none → answer.2.metrics = w.metrics := by
    intro other
    cases c with
    | count counter => cases other
    | execute task =>
      simp only [perform, execute] at answered
      split at answered
      · cases answered
      split at answered
      · cases answered
        dsimp only
        split
        · next interruption _ _ =>
          cases interruption <;> simp only [interrupt, complete, fail, stored, turn] <;> split <;> rfl
        · rfl
      · cases answered
        rfl
    | _ =>
      cases answered
      simp only [create, abandon, start, complete, fail, publish, consume, settle, stored]
      repeat' split
      all_goals rfl
  cases told : c.counter? with
  | none => simp [silent told]
  | some other =>
    cases c with
    | count same =>
      cases answered
      cases told
      simp only [Metrics.count_increment, Option.some.injEq, eq_comm]
      split <;> rfl
    | _ => cases told

/-- The calls of a worker change neither what is known of fingerprints nor the cache. -/
theorem perform_ofWorker {answer : c.Reply × World} (calm : w.interruptions = [])
    (answered : perform c w = some answer) (ofWorker : c.OfWorker) :
    answer.2.store.fingerprints = w.store.fingerprints ∧ answer.2.cache = w.cache := by
  cases c with
  | execute task =>
    obtain ⟨_, _, equal⟩ := execute_eq calm answered
    rw [equal]
    exact ⟨rfl, rfl⟩
  | start _ | complete _ _ | fail _ _ =>
    cases answered
    simp only [start, complete, fail, stored, JobTable.start, JobTable.complete, JobTable.fail]
    repeat' split
    all_goals simp only [JobTable.fingerprints_change, and_self]
  | settle _ _ =>
    cases answered
    simp only [settle]
    repeat' split
    all_goals exact ⟨rfl, rfl⟩
  | consume =>
    cases answered
    simp only [consume]
    split <;> exact ⟨rfl, rfl⟩
  | wait _ | count _ =>
    cases answered
    exact ⟨rfl, rfl⟩
  | _ => exact ofWorker.elim

private theorem complete_advances (w : World) (other : JobId) (result : JobResult) {id : JobId} {job : Job}
    (found : w.store.job? id = some job) :
    ∃ later, (w.complete other result).2.store.job? id = some later ∧ job.Advances later := by
  simp only [complete, stored]
  split
  · exact ⟨job, found, .refl job⟩
  · exact JobTable.advances_change found (JobTable.advances_complete w.now result)

private theorem fail_advances (w : World) (other : JobId) (reason : String) {id : JobId} {job : Job}
    (found : w.store.job? id = some job) :
    ∃ later, (w.fail other reason).2.store.job? id = some later ∧ job.Advances later := by
  simp only [fail, stored]
  split
  · exact ⟨job, found, .refl job⟩
  · exact JobTable.advances_change found (JobTable.advances_failed w.now reason)

/-- An operation takes no job back, whoever interrupts it. -/
theorem execute_advances {task : Task} {outcome : Except ExecutionError JobResult} {id : JobId}
    {job : Job} (ran : w.execute task = some (outcome, after)) (found : w.store.job? id = some job) :
    ∃ later, after.store.job? id = some later ∧ job.Advances later := by
  have stays : ∃ later, w.store.job? id = some later ∧ job.Advances later := ⟨job, found, .refl job⟩
  unfold execute at ran
  cases course : w.executors.execute task with
  | hangs => simp [course] at ran
  | answers latency answer =>
    simp only [course] at ran
    split at ran
    · next moment interruption _ =>
      simp only [Option.some.injEq, Prod.mk.injEq] at ran
      obtain ⟨_, rfl⟩ := ran
      split
      · cases interruption with
        | completes other => exact complete_advances _ other _ found
        | fails other => exact fail_advances _ other _ found
        | breaksWrites => exact stays
      · exact stays
    · simp only [Option.some.injEq, Prod.mk.injEq] at ran
      obtain ⟨_, rfl⟩ := ran
      exact stays

/-- Every job stays and moves on, but for one that is recorded anew. -/
theorem perform_advances {answer : c.Reply × World} (answered : perform c w = some answer) {id : JobId}
    {job : Job} (other : ∀ new, c = .create new → new.id ≠ id) (found : w.store.job? id = some job) :
    ∃ later, answer.2.store.job? id = some later ∧ job.Advances later := by
  have stays : ∃ later, w.store.job? id = some later ∧ job.Advances later := ⟨job, found, .refl job⟩
  cases c with
  | execute task => exact execute_advances answered found
  | create new =>
    cases answered
    simp only [create]
    split
    · exact stays
    split
    · exact stays
    cases taken : w.store.fingerprints.lookup new.fingerprint with
    | some existing => simpa only [JobTable.create_taken taken] using stays
    | none =>
      simp only [JobTable.create_free taken, JobTable.job?_recorded]
      rw [if_neg fun same => other new rfl same.symm]
      exact stays
  | abandon _ reason =>
    cases answered
    simp only [abandon]
    split
    · exact stays
    · exact JobTable.advances_abandon w.now reason found
  | start _ =>
    cases answered
    simp only [start, stored]
    split
    · exact stays
    split
    · exact JobTable.advances_change found (by simp)
    · exact JobTable.advances_change found (JobTable.advances_start w.now)
  | complete _ result =>
    cases answered
    exact complete_advances w _ result found
  | fail _ reason =>
    cases answered
    exact fail_advances w _ reason found
  | _ =>
    cases answered
    simp only [publish, consume, settle]
    repeat' split
    all_goals exact stays

/-- How a record came about that a call left: it was there before, or the call made it, or made it of the one
that was there. -/
inductive Leaves (w : World) (c : Call) (id : JobId) (later : Job) : Prop
  | kept (found : w.store.job? id = some later)
  | recorded {new : NewJob} (call : c = .create new) (same : new.id = id)
      (made : later = Job.fresh new.id new.type new.client new.imageIds w.now)
  | started {job : Job} (found : w.store.job? id = some job)
      (source : job.status ∈ [.created, .processing])
      (made : later = { job with status := .processing, processedAt := some w.now })
  | completed {job : Job} {result : JobResult} (call : c = .complete id result)
      (found : w.store.job? id = some job) (source : job.status = .processing)
      (made : later = { job with
        status := .completed, completedAt := some w.now, result := some result })
  | failed {job : Job} {reason : String} (found : w.store.job? id = some job)
      (source : job.status ∈ [.created, .processing]) (made : later = JobTable.failed w.now reason job)

theorem perform_leaves {answer : c.Reply × World} (calm : w.interruptions = [])
    (answered : perform c w = some answer) {id : JobId} {later : Job}
    (found : answer.2.store.job? id = some later) : w.Leaves c id later := by
  cases c with
  | execute task =>
    obtain ⟨_, _, equal⟩ := execute_eq calm answered
    rw [equal] at found
    exact .kept found
  | create new =>
    cases answered
    simp only [create] at found
    split at found
    · exact .kept found
    split at found
    · exact .kept found
    cases taken : w.store.fingerprints.lookup new.fingerprint with
    | some existing =>
      rw [JobTable.create_taken taken] at found
      exact .kept found
    | none =>
      rw [JobTable.create_free taken, JobTable.job?_recorded] at found
      split at found
      · next same => exact .recorded rfl same.symm (Option.some.inj found).symm
      · exact .kept found
  | abandon other reason =>
    cases answered
    simp only [abandon] at found
    split at found
    · exact .kept found
    · rw [JobTable.job?_abandon] at found
      rcases JobTable.left_of_change found with old | ⟨rfl, job, there, source, made⟩
      · exact .kept old
      · exact .failed there (List.mem_cons.2 (.inl (List.mem_singleton.1 source))) made
  | start other =>
    cases answered
    simp only [start, stored] at found
    split at found
    · exact .kept found
    split at found
    · rcases JobTable.left_of_change found with old | ⟨_, _, _, source, _⟩
      · exact .kept old
      · cases source
    · rcases JobTable.left_of_change found with old | ⟨rfl, job, there, source, made⟩
      · exact .kept old
      · exact .started there source made
  | complete other result =>
    cases answered
    simp only [complete, stored] at found
    split at found
    · exact .kept found
    · rcases JobTable.left_of_change found with old | ⟨rfl, job, there, source, made⟩
      · exact .kept old
      · exact .completed rfl there (List.mem_singleton.1 source) made
  | fail other reason =>
    cases answered
    simp only [fail, stored] at found
    split at found
    · exact .kept found
    · rcases JobTable.left_of_change found with old | ⟨rfl, job, there, source, made⟩
      · exact .kept old
      · exact .failed there source made
  | _ =>
    cases answered
    simp only [publish, consume, settle] at found
    repeat' split at found
    all_goals exact .kept found

/-- No call makes up a job but the one that records it. -/
theorem perform_absent {answer : c.Reply × World} (calm : w.interruptions = [])
    (answered : perform c w = some answer) {id : JobId} (other : ∀ new, c = .create new → new.id ≠ id)
    (absent : w.store.job? id = none) : answer.2.store.job? id = none := by
  refine Option.eq_none_iff_forall_not_mem.2 fun later there => ?_
  cases perform_leaves calm answered there with
  | recorded call same _ => exact other _ call same
  | kept found | started found _ _ | completed _ found _ _ | failed found _ _ =>
    rw [absent] at found
    cases found

/-- An interruption changes no job but the one that it names. -/
theorem interrupt_changes (w : World) (interruption : Interruption) :
    ∃ store faults, w.interrupt interruption = { w with store, faults } ∧
      ∀ id, interruption.named? ≠ some id → store.job? id = w.store.job? id := by
  cases interruption with
  | completes named =>
    simp only [interrupt, complete]
    split
    · exact ⟨_, _, rfl, fun _ _ => rfl⟩
    · refine ⟨_, _, rfl, fun id other => JobTable.job?_change_other fun same => other ?_⟩
      exact congrArg some same.symm
  | fails named =>
    simp only [interrupt, fail]
    split
    · exact ⟨_, _, rfl, fun _ _ => rfl⟩
    · refine ⟨_, _, rfl, fun id other => JobTable.job?_change_other fun same => other ?_⟩
      exact congrArg some same.symm
  | breaksWrites => exact ⟨_, _, rfl, fun _ _ => rfl⟩

/-- An operation takes its time, and changes what the interruption of its type does. -/
theorem execute_changes {task : Task} {outcome : Except ExecutionError JobResult}
    (ran : w.execute task = some (outcome, after)) :
    ∃ store faults waited, after = { w with store, faults, waited } ∧
      ∀ id, (∀ entry ∈ w.interruptions, entry.2.2.named? ≠ some id) →
        store.job? id = w.store.job? id := by
  unfold execute at ran
  cases course : w.executors.execute task with
  | hangs => simp [course] at ran
  | answers latency answer =>
    simp only [course] at ran
    cases entry : w.interruptions.lookup task.jobType with
    | none =>
      rw [entry] at ran
      cases ran
      exact ⟨_, _, _, rfl, fun _ _ => rfl⟩
    | some interruption =>
      rw [entry] at ran
      cases ran
      split
      · obtain ⟨store, faults, changed, kept⟩ :=
          interrupt_changes { w with waited := w.waited + latency.nanos } interruption.2
        rw [changed]
        exact ⟨_, _, _, rfl, fun id named => kept id (named _ (Assoc.mem_of_lookup entry))⟩
      · exact ⟨_, _, _, rfl, fun _ _ => rfl⟩

theorem perform_executors {answer : c.Reply × World} (answered : perform c w = some answer) :
    answer.2.executors = w.executors := by
  cases c with
  | execute task =>
    obtain ⟨_, _, _, changed, _⟩ := execute_changes answered
    rw [changed]
  | _ =>
    cases answered
    simp only [create, abandon, start, complete, fail, publish, consume, settle, stored]
    repeat' split
    all_goals rfl

theorem exists_perform (answering : w.Answering) (c : Call) : ∃ answer, perform c w = some answer := by
  cases c with
  | execute task =>
    obtain ⟨latency, outcome, course⟩ := answering task
    simp only [perform, execute, course]
    split
    · exact ⟨_, rfl⟩
    · exact ⟨_, rfl⟩
  | _ => exact ⟨_, rfl⟩

/-! ## Single calls -/

/-- What the cache tells of a fingerprint; one that fails tells nothing. -/
def cached (w : World) (fingerprint : Fingerprint) : Option JobId :=
  if w.faults .cache then none else w.cache.lookup fingerprint

/-- A world whose cache was told of a job. -/
def noted (w : World) (fingerprint : Fingerprint) (id : JobId) : World :=
  if w.faults .cache then w else { w with cache := Assoc.put fingerprint id w.cache }

/-- A world that counts once more. -/
def counted (w : World) (counter : Counter) : World :=
  { w with metrics := w.metrics.increment counter }

theorem lookup_of_cached {fingerprint : Fingerprint} {id : JobId}
    (known : w.cached fingerprint = some id) : w.cache.lookup fingerprint = some id := by
  unfold cached at known
  split at known
  · cases known
  · exact known

/-- A cache that was told of a job names it, or what it named before. -/
theorem lookup_noted {fingerprint told : Fingerprint} {id known : JobId}
    (found : (w.noted told id).cache.lookup fingerprint = some known) :
    w.cache.lookup fingerprint = some known ∨ (fingerprint = told ∧ known = id) := by
  unfold noted at found
  split at found
  · exact .inl found
  · rw [Assoc.lookup_put] at found
    split at found
    · next same => exact .inr ⟨same, (Option.some.inj found).symm⟩
    · exact .inl found

theorem noted_keeps (told : Fingerprint) (id : JobId) :
    (w.noted told id).store = w.store ∧ (w.noted told id).pending = w.pending := by
  unfold noted
  split <;> exact ⟨rfl, rfl⟩

theorem publish_working (working : w.faults .publish = false) (payload : List UInt8) :
    w.publish payload = (.ok (), { w with pending := w.pending ++ [payload] }) := by
  simp [publish, working]

theorem publish_broken (broken : w.faults .publish = true) (payload : List UInt8) :
    w.publish payload = (.error brokerFailure, w) := by
  simp [publish, broken]

theorem abandon_working (working : w.faults .abandon = false) (id : JobId) (reason : String) :
    w.abandon id reason = (.ok (), { w with store := w.store.abandon w.now id reason }) := by
  simp [abandon, working]

theorem abandon_broken (broken : w.faults .abandon = true) (id : JobId) (reason : String) :
    w.abandon id reason = (.error storeFailure, w) := by
  simp [abandon, broken]

/-- What comes of an attempt to record a job. -/
theorem create_cases (new : NewJob) (w : World) :
    (∃ error, w.create new = (.error error, w)) ∨
      (∃ id, w.store.fingerprints.lookup new.fingerprint = some id ∧
        w.create new = (.ok (.existing id), w)) ∨
      (w.store.fingerprints.lookup new.fingerprint = none ∧
        w.create new = (.ok .created, { w with store := w.store.recorded w.now new })) := by
  unfold create
  split
  · exact .inl ⟨_, rfl⟩
  split
  · exact .inl ⟨_, rfl⟩
  cases taken : w.store.fingerprints.lookup new.fingerprint with
  | some id => exact .inr (.inl ⟨id, rfl, by simp only [JobTable.create_taken taken]⟩)
  | none => exact .inr (.inr ⟨rfl, by simp only [JobTable.create_free taken]⟩)

theorem find_of_found {id : JobId} {type : JobType} {job : Job} (rows : w.rows = [])
    (found : w.find id type = .ok (some job)) : w.store.find id type = some job := by
  unfold find at found
  split at found
  · cases found
  split at found
  · cases found
  simp only [rows, List.lookup_nil, Except.ok.injEq] at found
  exact found

/-- A store that records jobs. -/
structure Records (w : World) : Prop where
  peaceful : w.faults .createConflict = false
  working : w.faults .create = false

theorem Records.create_eq {new : NewJob} (records : w.Records) :
    w.create new =
      (.ok (w.store.create w.now new).1, { w with store := (w.store.create w.now new).2 }) := by
  simp [create, records.peaceful, records.working]

/-- What comes of a change of one job: the job is not there or its status is not one that the change starts
from, and nothing happens, or it is changed. -/
theorem stored_cases (id : JobId) (sources : List JobStatus) (apply : Job → Job) (w : World) :
    (∃ status, w.stored (w.store.change id sources apply) = (.ok (.skipped status), w) ∧
        ∀ job ∈ w.store.job? id, job.status ∉ sources) ∨
      ∃ job ∈ w.store.job? id, job.status ∈ sources ∧ w.stored (w.store.change id sources apply) =
        (.ok .applied, { w with store := (w.store.change id sources apply).2 }) := by
  rcases JobTable.change_cases id sources apply w.store with ⟨status, skips, idle⟩ | ⟨job, found, source, applied⟩
  · refine .inl ⟨status, ?_, idle⟩
    simp only [stored, skips]
  · refine .inr ⟨job, found, source, ?_⟩
    simp only [stored, applied]

/-- What comes of an attempt to start a job. -/
theorem start_cases (id : JobId) (w : World) :
    (w.faults .processing = true ∧ w.start id = (.error storeFailure, w)) ∨
      (∃ status, w.start id = (.ok (.skipped status), w) ∧ (w.faults .refuseProcessing = true ∨
        ∀ job ∈ w.store.job? id, job.status ∉ [.created, .processing])) ∨
      (∃ job ∈ w.store.job? id, job.status ∈ [.created, .processing] ∧
        w.start id = (.ok .applied, { w with store := (w.store.start w.now id).2 })) := by
  unfold start
  split
  · next broken => exact .inl ⟨broken, rfl⟩
  split
  · next refuses =>
    obtain ⟨status, skips⟩ := JobTable.change_unlisted id (fun job => job) w.store
    refine .inr (.inl ⟨status, ?_, .inl refuses⟩)
    simp only [stored, skips]
  · rcases stored_cases id [.created, .processing] _ w with ⟨status, skips, idle⟩ | applied
    · exact .inr (.inl ⟨status, skips, .inr idle⟩)
    · exact .inr (.inr applied)

theorem start_skipped {id : JobId} {status : JobStatus}
    (made : w.start id = (.ok (.skipped (some status)), after)) :
    ∃ job, w.store.job? id = some job ∧ job.status = status := by
  have told := congrArg Prod.fst made
  unfold start at told
  split at told
  · cases told
  split at told
  · exact JobTable.status_of_skipped (Except.ok.inj told)
  · exact JobTable.status_of_skipped (Except.ok.inj told)

/-- What comes of a write that ends a job, whatever it writes. -/
theorem terminal_cases {id : JobId} {sources : List JobStatus} {apply : Job → Job} {w : World}
    {outcome : Except StoreError Transition × World}
    (written : outcome = if w.faults .terminalWrites then (.error storeFailure, w)
      else w.stored (w.store.change id sources apply)) :
    (w.faults .terminalWrites = true ∧ outcome = (.error storeFailure, w)) ∨
      (∃ status, outcome = (.ok (.skipped status), w) ∧ ∀ job ∈ w.store.job? id, job.status ∉ sources) ∨
      ∃ job ∈ w.store.job? id, job.status ∈ sources ∧
        outcome = (.ok .applied, { w with store := (w.store.change id sources apply).2 }) := by
  subst written
  split
  · next broken => exact .inl ⟨broken, rfl⟩
  · exact .inr (stored_cases id sources apply w)

/-- The next call of a program: the reply, what is left of the program, and the world then. -/
def turnOf {α : Type} (w : World) : Service α → Option (Event × Service α × World)
  | .done _ => none
  | .call c next => (perform c w).map fun (reply, after) => (⟨w, c, reply⟩, next reply, after)

theorem turnOf_answered {α : Type} {next : c.Reply → Service α}
    (answered : perform c w = some (reply, after)) :
    w.turnOf (.call c next) = some (⟨w, c, reply⟩, next reply, after) := by
  rw [turnOf, answered]
  rfl

theorem turnOf_bind {α β : Type} {p : Service α} {f : α → Service β} {event : Event}
    {rest : Service β} (running : p.result? = none)
    (turned : w.turnOf (p.bind f) = some (event, rest, after)) :
    ∃ later, w.turnOf p = some (event, later, after) ∧ rest = later.bind f := by
  cases p with
  | done a => cases running
  | call c next =>
    simp only [Program.bind, turnOf, Option.map_eq_some_iff, Prod.mk.injEq] at turned
    obtain ⟨⟨reply, _⟩, answered, rfl, rfl, rfl⟩ := turned
    exact ⟨next reply, turnOf_answered answered, rfl⟩

theorem turnOf_call {α : Type} {c : Call} {next : c.Reply → Service α} {event : Event}
    {rest : Service α} (turned : w.turnOf (.call c next) = some (event, rest, after)) :
    ∃ reply, perform c w = some (reply, after) ∧ event = ⟨w, c, reply⟩ ∧ rest = next reply := by
  simp only [turnOf, Option.map_eq_some_iff, Prod.mk.injEq] at turned
  obtain ⟨⟨reply, _⟩, answered, rfl, rfl, rfl⟩ := turned
  exact ⟨reply, answered, rfl, rfl⟩

theorem perform_of_turnOf {α : Type} {p rest : Service α} {event : Event}
    (turned : w.turnOf p = some (event, rest, after)) :
    event.before = w ∧ w.perform event.call = some (event.reply, after) := by
  cases p with
  | done a => cases turned
  | call c next =>
    obtain ⟨reply, answered, rfl, rfl⟩ := turnOf_call turned
    exact ⟨rfl, answered⟩

/-! ## Whole programs -/

theorem run_answered {α : Type} {next : c.Reply → Service α}
    (answered : perform c w = some (reply, after)) : w.run (.call c next) = after.run (next reply) := by
  rw [run, Program.run, answered]
  rfl

/-- A program ends if every operation does. -/
theorem exists_run {α : Type} (program : Service α) :
    ∀ {w : World}, w.Answering → ∃ result after, w.run program = some (result, after) := by
  induction program with
  | done a => exact fun {w} _ => ⟨a, w, rfl⟩
  | call c next ih =>
    intro w answering
    obtain ⟨⟨reply, mid⟩, answered⟩ := exists_perform answering c
    have answers : mid.Answering := by
      rw [Answering, perform_executors answered]
      exact answering
    rw [run_answered answered]
    exact ih reply answers

theorem run_settings {α : Type} {program : Service α} :
    ∀ {w : World} {result : α} {after : World}, w.interruptions = [] →
      w.run program = some (result, after) → SameSettings w after := by
  induction program with
  | done a =>
    intro w result after _ ran
    cases ran
    exact .refl w
  | call c next ih =>
    intro w result after calm ran
    cases answered : w.perform c with
    | none => simp [run, Program.run, answered] at ran
    | some answer =>
      obtain ⟨reply, mid⟩ := answer
      have settings : SameSettings w mid := perform_settings calm answered
      rw [run_answered answered] at ran
      exact settings.trans (ih reply (settings.interruptions.trans calm) ran)

/-- A program that only asks ends and leaves the world. -/
theorem run_asking {α : Type} {program : Service α} (asks : program.Within Call.Asks) (w : World) :
    ∃ result, w.run program = some (result, w) := by
  induction program with
  | done a => exact ⟨a, rfl⟩
  | call c next ih =>
    have answered : ∃ reply, w.perform c = some (reply, w) := by
      cases c <;> first | exact asks.1.elim | exact ⟨_, rfl⟩
    obtain ⟨reply, answered⟩ := answered
    rw [run_answered answered]
    exact ih reply (asks.2 reply)

/-- What every call of a program keeps holds where the program is stopped. -/
theorem runUntil_keeps {α : Type} {stop : Call → Bool} (Holds : World → Service α → Prop)
    (keeps : ∀ {w rest event later after}, Holds w rest → w.turnOf rest = some (event, later, after) →
      Holds after later) (program : Service α) :
    ∀ {w : World} {rest : Service α} {after : World}, Holds w program →
      program.runUntil stop perform w = some (rest, after) → Holds after rest := by
  induction program with
  | done a =>
    intro w rest after holds ran
    cases ran
    exact holds
  | call c next ih =>
    intro w rest after holds ran
    rw [Program.runUntil] at ran
    by_cases stopped : stop c = true
    · rw [if_pos stopped] at ran
      cases ran
      exact holds
    · rw [if_neg stopped] at ran
      cases answered : w.perform c with
      | none => simp [answered] at ran
      | some answer =>
        obtain ⟨reply, mid⟩ := answer
        rw [answered] at ran
        exact ih reply (keeps holds (turnOf_answered answered)) ran

/-- What every call of a program keeps holds when the program is done. -/
theorem run_keeps {α : Type} (Holds : World → Service α → Prop)
    (keeps : ∀ {w rest event later after}, Holds w rest → w.turnOf rest = some (event, later, after) →
      Holds after later) (program : Service α) {w : World} {result : α} {after : World}
    (holds : Holds w program) (ran : w.run program = some (result, after)) :
    Holds after (.done result) := by
  refine runUntil_keeps Holds keeps program holds (?_ : program.runUntil (fun _ => false) perform w = _)
  have runs : program.run perform w = some (result, after) := ran
  rw [Program.runUntil_never, runs, Option.map_some]

end World

end Memory

end Vetting
