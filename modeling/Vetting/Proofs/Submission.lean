import Vetting.Proofs.World
import Vetting.Submission

/-!
Where a submission is between two calls (`Submission.Stage`), and all that one call can do to it and
to the world (`Submission.Moves`). A submission that begins is at a stage (`exists_stage_program`), and
a call takes it from one stage to the next (`moves_of_turnOf`, `turnOf_of_moves`).

The checks of a submission are a function of the world (`World.checked`). They ask for images and change
nothing (`World.run_validate`), and only what they let pass is recorded (`World.run_program`).
-/
namespace Vetting

open Memory

/-- What a client asks for, and the id that a new job would get. -/
structure Request where
  drawn : JobId
  type : JobType
  client : Int
  references : List String

namespace Request

/-- Whether a submission asks for some work: the order of the images makes no difference. -/
def AsksFor (r : Request) (type : JobType) (client : Int) (references : List String) : Prop :=
  r.type = type ∧ r.client = client ∧ r.references.Perm references

/-- Whether two submissions ask for the same work. -/
def SameWork (r other : Request) : Prop := r.AsksFor other.type other.client other.references

def fingerprint (r : Request) : Fingerprint := .compute r.type r.client r.references

/-- The text that is hashed for a submission. -/
def source (r : Request) : String := Fingerprint.source r.type r.client r.references

/-- The task of a new job. -/
def task? (r : Request) : Option Task := Task.ofImages? r.type r.drawn r.references

/-- What is recorded for a new job. -/
def job (r : Request) (images : List Image) : NewJob :=
  { id := r.drawn, type := r.type, client := r.client, imageIds := images.map (·.id)
    fingerprint := r.fingerprint.text }

def program (r : Request) : Service (Except SubmitError JobId) :=
  Submission.submit r.drawn r.type r.client r.references

theorem jobId_task {r : Request} {task : Task} (fits : r.task? = some task) : task.jobId = r.drawn := by
  unfold task? Task.ofImages? at fits
  split at fits <;> cases fits <;> rfl

theorem jobType_task {r : Request} {task : Task} (fits : r.task? = some task) :
    task.jobType = r.type := by
  unfold task? Task.ofImages? at fits
  split at fits
  · next equal _ => cases fits; exact equal.symm
  · next equal _ => cases fits; exact equal.symm
  · cases fits

theorem fits_of_task {r : Request} {task : Task} (fits : r.task? = some task) :
    r.references.length = r.type.imageCount := by
  unfold task? Task.ofImages? at fits
  split at fits
  · next types references => rw [types, references]; rfl
  · next types references => rw [types, references]; rfl
  · cases fits

theorem exists_task {r : Request} (fits : r.references.length = r.type.imageCount) :
    ∃ task, r.task? = some task := by
  obtain ⟨drawn, type, client, references⟩ := r
  cases type with
  | faceMatch =>
    obtain ⟨first, second, rfl⟩ := List.length_eq_two.1 fits
    exact ⟨_, rfl⟩
  | ocr =>
    obtain ⟨reference, rfl⟩ := List.length_eq_one_iff.1 fits
    exact ⟨_, rfl⟩

/-- Whether a submission passes the checks of its images, and which images they are. -/
structure Valid (r : Request) (w : World) (images : List Image) : Prop where
  fits : r.references.length = r.type.imageCount
  working : w.faults .images = false
  found : List.Forall₂ (fun reference image => w.images.lookup reference = some image) r.references images
  good : Submission.checkImages r.type r.client images = .ok ()

end Request

namespace Submission

/-! ## Stages -/

/-- Where a submission is, named for the call that comes next. -/
inductive Stage (r : Request)
  /-- Some images are found, the next is asked for, and others are left. -/
  | finding (found : List Image) (next : String) (left : List String)
  | looking (images : List Image)
  | creating (images : List Image) (task : Task) (fits : r.task? = some task)
  | publishing (task : Task) (fits : r.task? = some task)
  | withdrawing (error : QueueError)
  | remembering
  /-- The job was there already; it is counted, its progress is asked for, and the cache is told. -/
  | recognising (id : JobId)
  | inspecting (id : JobId)
  | renewing (id : JobId)
  /-- Nothing but a count is left. -/
  | counting (counter : Counter) (id : JobId)
  | finished (result : Except SubmitError JobId)

/-- The rest of a submission after its images were asked for. -/
def afterFinding (r : Request) :
    Except SubmitError (List Image) → Service (Except SubmitError JobId)
  | .error e => .done (.error e)
  | .ok images =>
    match checkImages r.type r.client images with
    | .error e => .done (.error e)
    | .ok () => record r.drawn r.type r.client r.references images

/-- The rest of a submission that has found some images. -/
def findMore (r : Request) (found : List Image) (left : List String) :
    Service (Except SubmitError JobId) :=
  (findImages left).bind fun more => afterFinding r (more.map (found ++ ·))

/-- The rest of a submission that hears of an image. -/
def afterImage (r : Request) (found : List Image) (next : String) (left : List String) :
    Except StoreError (Option Image) → Service (Except SubmitError JobId)
  | .error e => .done (.error (.store e))
  | .ok none => .done (.error (.unknownImage next))
  | .ok (some image) => findMore r (found ++ [image]) left

/-- The rest of a submission that hears from the cache. -/
def afterLookup (r : Request) (images : List Image) :
    Option JobId → Service (Except SubmitError JobId)
  | some id => .call (.count (.deduplicated r.type)) fun _ => .done (.ok id)
  | none =>
    match r.task? with
    | none => .done (.error (.imageCount r.type r.references.length))
    | some task => .call (.create (r.job images)) (afterCreate r.type r.fingerprint task)

/-- The rest of a submission that hears of the job that was there. -/
def afterFind (r : Request) (id : JobId) :
    Except StoreError (Option Job) → Service (Except SubmitError JobId)
  | .ok (some job) =>
    if job.status ≠ .created then .call (.remember r.fingerprint id) fun _ => .done (.ok id)
    else .done (.ok id)
  | .ok none | .error _ => .done (.ok id)

/-- The rest of a submission at a stage. -/
def Stage.program {r : Request} : Stage r → Service (Except SubmitError JobId)
  | .finding found next left => findMore r found (next :: left)
  | .looking images => record r.drawn r.type r.client r.references images
  | .creating images task _ =>
    .call (.create (r.job images)) (afterCreate r.type r.fingerprint task)
  | .publishing task _ =>
    .call (.publish task.encode) (afterPublish r.type r.fingerprint r.drawn)
  | .withdrawing error => .call (.abandon r.drawn unqueuedReason) fun _ => .done (.error (.queue error))
  | .remembering =>
    .call (.remember r.fingerprint r.drawn) fun _ =>
      .call (.count (.submitted r.type)) fun _ => .done (.ok r.drawn)
  | .recognising id => answerExisting r.type r.fingerprint id
  | .inspecting id => .call (.find id r.type) (afterFind r id)
  | .renewing id => .call (.remember r.fingerprint id) fun _ => .done (.ok id)
  | .counting counter id => .call (.count counter) fun _ => .done (.ok id)
  | .finished result => .done result

/-- The stages of a submission that has done nothing yet but ask. -/
inductive Stage.Asking {r : Request} : Stage r → Prop
  | finding (found : List Image) (next : String) (left : List String) : Asking (.finding found next left)
  | looking (images : List Image) : Asking (.looking images)
  | refused (e : SubmitError) : Asking (.finished (.error e))

@[simp] theorem findMore_cons (r : Request) (found : List Image) (next : String) (left : List String) :
    findMore r found (next :: left) = .call (.findImage next) (afterImage r found next left) := by
  refine congrArg (Program.call (Call.findImage next)) (funext fun reply => ?_)
  match reply with
  | .error e => rfl
  | .ok none => rfl
  | .ok (some image) =>
    show ((findImages left).bind fun more => Program.done (more.map (image :: ·))).bind
      (fun more => afterFinding r (more.map (found ++ ·))) = _
    rw [Program.bind_assoc]
    refine congrArg (findImages left).bind (funext fun more => ?_)
    cases more with
    | error e => rfl
    | ok images => simp [Program.bind, Except.map]

@[simp] theorem record_eq (r : Request) (images : List Image) :
    record r.drawn r.type r.client r.references images =
      .call (.lookup r.fingerprint) (afterLookup r images) := by
  refine congrArg (Program.call (Call.lookup r.fingerprint)) (funext fun reply => ?_)
  cases reply with
  | some id => rfl
  | none =>
    show (match r.task? with | none => _ | some task => _) = _
    rw [afterLookup]
    cases r.task? <;> rfl

theorem afterCreate_created {r : Request} {task : Task} (fits : r.task? = some task) :
    afterCreate r.type r.fingerprint task (.ok .created) =
      .call (.publish task.encode) (afterPublish r.type r.fingerprint r.drawn) := by
  rw [← Request.jobId_task fits]
  rfl

@[simp] theorem answerExisting_eq (r : Request) (id : JobId) :
    answerExisting r.type r.fingerprint id =
      .call (.count (.deduplicated r.type)) fun _ => .call (.find id r.type) (afterFind r id) := by
  refine congrArg (Program.call (Call.count (.deduplicated r.type))) (funext fun _ => ?_)
  refine congrArg (Program.call (Call.find id r.type)) (funext fun reply => ?_)
  match reply with
  | .error e => rfl
  | .ok none => rfl
  | .ok (some job) =>
    show (if decide (job.status ≠ .created) = true then _ else _) = _
    by_cases begun : job.status = .created
    · simp [afterFind, begun]
      rfl
    · simp [afterFind, begun]
      rfl

variable {r : Request}

private theorem exists_stage_afterFinding (found : Except SubmitError (List Image)) :
    ∃ stage : Stage r, stage.Asking ∧ afterFinding r found = stage.program := by
  cases found with
  | error e => exact ⟨.finished (.error e), .refused e, rfl⟩
  | ok images =>
    unfold afterFinding
    cases checked : checkImages r.type r.client images with
    | error e => exact ⟨.finished (.error e), .refused e, by simp only [checked]; rfl⟩
    | ok _ => exact ⟨.looking images, .looking images, by simp only [checked]; rfl⟩

private theorem exists_stage_findMore (found : List Image) (left : List String) :
    ∃ stage : Stage r, stage.Asking ∧ findMore r found left = stage.program := by
  cases left with
  | nil => exact exists_stage_afterFinding (.ok (found ++ []))
  | cons next left => exact ⟨.finding found next left, .finding found next left, rfl⟩

/-- A submission with as many images as its type needs asks for them first. -/
theorem program_eq_findMore (fits : r.references.length = r.type.imageCount) :
    r.program = findMore r [] r.references := by
  unfold Request.program submit validate
  rw [if_neg (not_not_intro fits)]
  show ((findImages r.references).bind _).bind _ = _
  rw [Program.bind_assoc]
  refine congrArg (findImages r.references).bind (funext fun more => ?_)
  cases more with
  | error e => rfl
  | ok images =>
    show _ = afterFinding r (.ok images)
    simp only [afterFinding]
    cases checkImages r.type r.client images <;> rfl

/-- One with another number of images is refused at once. -/
theorem program_eq_refused (unfit : r.references.length ≠ r.type.imageCount) :
    r.program = .done (.error (.imageCount r.type r.references.length)) := by
  unfold Request.program submit validate
  rw [if_pos unfit]
  rfl

theorem exists_stage_program (r : Request) :
    ∃ stage : Stage r, stage.Asking ∧ r.program = stage.program := by
  by_cases fits : r.references.length = r.type.imageCount
  · rw [program_eq_findMore fits]
    exact exists_stage_findMore [] r.references
  · exact ⟨.finished (.error (.imageCount r.type r.references.length)), .refused _, program_eq_refused fits⟩

private theorem exists_stage_afterImage (found : List Image) (next : String) (left : List String)
    (reply : Except StoreError (Option Image)) :
    ∃ stage : Stage r, stage.Asking ∧ afterImage r found next left reply = stage.program := by
  match reply with
  | .error e => exact ⟨.finished (.error (.store e)), .refused _, rfl⟩
  | .ok none => exact ⟨.finished (.error (.unknownImage next)), .refused _, rfl⟩
  | .ok (some image) => exact exists_stage_findMore (found ++ [image]) left

/-! ## Moves -/

/-- What one call does to a submission and to the world. -/
inductive Moves (w : World) : Stage r → Event → Stage r → World → Prop
  | asked {found : List Image} {next : String} {left : List String}
      {reply : Except StoreError (Option Image)} {later : Stage r}
      (answered : w.perform (.findImage next) = some (reply, w)) (asking : later.Asking)
      (goes : afterImage r found next left reply = later.program) :
      Moves w (.finding found next left) ⟨w, .findImage next, reply⟩ later w
  | hit {images : List Image} {id : JobId} (known : w.cached r.fingerprint = some id) :
      Moves w (.looking images) ⟨w, .lookup r.fingerprint, some id⟩
        (.counting (.deduplicated r.type) id) w
  | missed {images : List Image} {task : Task} {fits : r.task? = some task}
      (unknown : w.cached r.fingerprint = none) :
      Moves w (.looking images) ⟨w, .lookup r.fingerprint, none⟩ (.creating images task fits) w
  | misfit {images : List Image} (unfit : r.task? = none)
      (unknown : w.cached r.fingerprint = none) :
      Moves w (.looking images) ⟨w, .lookup r.fingerprint, none⟩
        (.finished (.error (.imageCount r.type r.references.length))) w
  | unrecorded {images : List Image} {task : Task} {fits : r.task? = some task} {error : StoreError}
      (failed : w.create (r.job images) = (.error error, w)) :
      Moves w (.creating images task fits) ⟨w, .create (r.job images), .error error⟩
        (.finished (.error (.store error))) w
  | duplicate {images : List Image} {task : Task} {fits : r.task? = some task} {id : JobId}
      (made : w.create (r.job images) = (.ok (.existing id), w))
      (taken : w.store.fingerprints.lookup r.fingerprint.text = some id) :
      Moves w (.creating images task fits) ⟨w, .create (r.job images), .ok (.existing id)⟩
        (.recognising id) w
  | recorded {images : List Image} {task : Task} {fits : r.task? = some task}
      (made : w.create (r.job images) =
        (.ok .created, { w with store := w.store.recorded w.now (r.job images) }))
      (free : w.store.fingerprints.lookup r.fingerprint.text = none) :
      Moves w (.creating images task fits) ⟨w, .create (r.job images), .ok .created⟩
        (.publishing task fits) { w with store := w.store.recorded w.now (r.job images) }
  | queued {task : Task} {fits : r.task? = some task} (working : w.faults .publish = false) :
      Moves w (.publishing task fits) ⟨w, .publish task.encode, .ok ()⟩ .remembering
        { w with pending := w.pending ++ [task.encode] }
  | unqueued {task : Task} {fits : r.task? = some task} (broken : w.faults .publish = true) :
      Moves w (.publishing task fits) ⟨w, .publish task.encode, .error World.brokerFailure⟩
        (.withdrawing World.brokerFailure) w
  | withdrawn {error : QueueError} (working : w.faults .abandon = false) :
      Moves w (.withdrawing error) ⟨w, .abandon r.drawn unqueuedReason, .ok ()⟩
        (.finished (.error (.queue error)))
        { w with store := w.store.abandon w.now r.drawn unqueuedReason }
  | stuck {error : QueueError} (broken : w.faults .abandon = true) :
      Moves w (.withdrawing error) ⟨w, .abandon r.drawn unqueuedReason, .error World.storeFailure⟩
        (.finished (.error (.queue error))) w
  | remembered :
      Moves w .remembering ⟨w, .remember r.fingerprint r.drawn, ()⟩
        (.counting (.submitted r.type) r.drawn) (w.noted r.fingerprint r.drawn)
  | recognised {id : JobId} :
      Moves w (.recognising id) ⟨w, .count (.deduplicated r.type), ()⟩ (.inspecting id)
        (w.counted (.deduplicated r.type))
  | started {id : JobId} {job : Job} (found : w.find id r.type = .ok (some job))
      (begun : job.status ≠ .created) :
      Moves w (.inspecting id) ⟨w, .find id r.type, .ok (some job)⟩ (.renewing id) w
  | unstarted {id : JobId} {reply : Except StoreError (Option Job)} (found : w.find id r.type = reply)
      (idle : ∀ job, reply = .ok (some job) → job.status = .created) :
      Moves w (.inspecting id) ⟨w, .find id r.type, reply⟩ (.finished (.ok id)) w
  | renewed {id : JobId} :
      Moves w (.renewing id) ⟨w, .remember r.fingerprint id, ()⟩ (.finished (.ok id))
        (w.noted r.fingerprint id)
  | counted {counter : Counter} {id : JobId} :
      Moves w (.counting counter id) ⟨w, .count counter, ()⟩ (.finished (.ok id)) (w.counted counter)

variable {w after : World} {event : Event}

/-- A call takes a submission from one stage to the next as told, and in no other way. -/
theorem moves_of_turnOf {stage : Stage r} {rest : Service (Except SubmitError JobId)}
    (turned : w.turnOf stage.program = some (event, rest, after)) :
    ∃ later : Stage r, rest = later.program ∧ Moves w stage event later after := by
  cases stage with
  | finding found next left =>
    rw [Stage.program, findMore_cons] at turned
    obtain ⟨reply, answered, rfl, rfl⟩ := World.turnOf_call turned
    obtain ⟨later, asking, goes⟩ := exists_stage_afterImage found next left reply
    have same : after = w := by cases answered; rfl
    subst same
    exact ⟨later, goes, .asked answered asking goes⟩
  | looking images =>
    rw [Stage.program, record_eq] at turned
    obtain ⟨reply, answered, rfl, rfl⟩ := World.turnOf_call turned
    have told : w.cached r.fingerprint = reply ∧ w = after := by cases answered; exact ⟨rfl, rfl⟩
    obtain ⟨told, rfl⟩ := told
    cases reply with
    | some id => exact ⟨.counting (.deduplicated r.type) id, rfl, .hit told⟩
    | none =>
      cases fits : r.task? with
      | some task =>
        exact ⟨.creating images task fits, by rw [afterLookup, fits]; rfl, .missed told⟩
      | none => exact ⟨.finished _, by rw [afterLookup, fits]; rfl, .misfit fits told⟩
  | creating images task fits =>
    obtain ⟨reply, answered, rfl, rfl⟩ := World.turnOf_call turned
    have made : w.create (r.job images) = (reply, after) := Option.some.inj answered
    rcases World.create_cases (r.job images) w with
      ⟨error, failed⟩ | ⟨id, taken, known⟩ | ⟨free, recorded⟩
    · cases made.symm.trans failed
      exact ⟨.finished _, rfl, .unrecorded failed⟩
    · cases made.symm.trans known
      exact ⟨.recognising id, rfl, .duplicate known taken⟩
    · cases made.symm.trans recorded
      exact ⟨.publishing task fits, afterCreate_created fits, .recorded recorded free⟩
  | publishing task fits =>
    obtain ⟨reply, answered, rfl, rfl⟩ := World.turnOf_call turned
    have published : w.publish task.encode = (reply, after) := Option.some.inj answered
    cases broken : w.faults .publish with
    | true =>
      cases published.symm.trans (World.publish_broken broken task.encode)
      exact ⟨.withdrawing _, rfl, .unqueued broken⟩
    | false =>
      cases published.symm.trans (World.publish_working broken task.encode)
      exact ⟨.remembering, rfl, .queued broken⟩
  | withdrawing error =>
    obtain ⟨reply, answered, rfl, rfl⟩ := World.turnOf_call turned
    have abandoned : w.abandon r.drawn unqueuedReason = (reply, after) := Option.some.inj answered
    cases broken : w.faults .abandon with
    | true =>
      cases abandoned.symm.trans (World.abandon_broken broken r.drawn unqueuedReason)
      exact ⟨.finished _, rfl, .stuck broken⟩
    | false =>
      cases abandoned.symm.trans (World.abandon_working broken r.drawn unqueuedReason)
      exact ⟨.finished _, rfl, .withdrawn broken⟩
  | remembering =>
    obtain ⟨reply, answered, rfl, rfl⟩ := World.turnOf_call turned
    cases answered
    exact ⟨.counting (.submitted r.type) r.drawn, rfl, .remembered⟩
  | recognising id =>
    rw [Stage.program, answerExisting_eq] at turned
    obtain ⟨reply, answered, rfl, rfl⟩ := World.turnOf_call turned
    cases answered
    exact ⟨.inspecting id, rfl, .recognised⟩
  | inspecting id =>
    obtain ⟨reply, answered, rfl, rfl⟩ := World.turnOf_call turned
    have found : w.find id r.type = reply ∧ w = after := by cases answered; exact ⟨rfl, rfl⟩
    obtain ⟨found, rfl⟩ := found
    match reply with
    | .error e => exact ⟨.finished (.ok id), rfl, .unstarted found (by simp)⟩
    | .ok none => exact ⟨.finished (.ok id), rfl, .unstarted found (by simp)⟩
    | .ok (some job) =>
      by_cases begun : job.status = .created
      · exact ⟨.finished (.ok id), if_neg (not_not_intro begun), .unstarted found (by simp [begun])⟩
      · exact ⟨.renewing id, if_pos begun, .started found begun⟩
  | renewing id =>
    obtain ⟨reply, answered, rfl, rfl⟩ := World.turnOf_call turned
    cases answered
    exact ⟨.finished (.ok id), rfl, .renewed⟩
  | counting counter id =>
    obtain ⟨reply, answered, rfl, rfl⟩ := World.turnOf_call turned
    cases answered
    exact ⟨.finished (.ok id), rfl, .counted⟩
  | finished result => cases turned

theorem turnOf_of_moves {stage later : Stage r} (moves : Moves w stage event later after) :
    w.turnOf stage.program = some (event, later.program, after) := by
  cases moves with
  | @asked found next left reply later answered asking goes =>
    rw [← goes, Stage.program, findMore_cons]
    exact World.turnOf_answered answered
  | hit known =>
    rw [Stage.program, record_eq]
    exact World.turnOf_answered (congrArg (fun told => some (told, w)) known)
  | @missed images task fits unknown =>
    rw [Stage.program, record_eq]
    have answered : w.perform (.lookup r.fingerprint) = some (none, w) :=
      congrArg (fun told => some (told, w)) unknown
    refine (World.turnOf_answered answered).trans ?_
    rw [afterLookup, fits]
    rfl
  | misfit unfit unknown =>
    rw [Stage.program, record_eq]
    have answered : w.perform (.lookup r.fingerprint) = some (none, w) :=
      congrArg (fun told => some (told, w)) unknown
    refine (World.turnOf_answered answered).trans ?_
    rw [afterLookup, unfit]
    rfl
  | unrecorded failed => exact World.turnOf_answered (congrArg some failed)
  | duplicate made taken => exact World.turnOf_answered (congrArg some made)
  | @recorded images task fits made free =>
    have answered : w.perform (.create (r.job images)) = _ := congrArg some made
    refine (World.turnOf_answered answered).trans ?_
    rw [afterCreate_created fits]
    rfl
  | queued working => exact World.turnOf_answered (congrArg some (World.publish_working working _))
  | unqueued broken => exact World.turnOf_answered (congrArg some (World.publish_broken broken _))
  | withdrawn working =>
    exact World.turnOf_answered (congrArg some (World.abandon_working working _ _))
  | stuck broken => exact World.turnOf_answered (congrArg some (World.abandon_broken broken _ _))
  | remembered => rfl
  | @recognised id =>
    rw [Stage.program, answerExisting_eq]
    rfl
  | @started id job found begun =>
    have answered : w.perform (.find id r.type) = some (.ok (some job), w) :=
      congrArg (fun reply => some (reply, w)) found
    refine (World.turnOf_answered answered).trans ?_
    rw [afterFind, if_pos begun]
    rfl
  | @unstarted id reply found idle =>
    have answered : w.perform (.find id r.type) = some (reply, w) :=
      congrArg (fun reply => some (reply, w)) found
    refine (World.turnOf_answered answered).trans ?_
    match reply with
    | .error e => rfl
    | .ok none => rfl
    | .ok (some job) =>
      rw [afterFind, if_neg (not_not_intro (idle job rfl))]
      rfl
  | renewed => rfl
  | counted => rfl

theorem Moves.perform_eq {stage later : Stage r} (moves : Moves w stage event later after) :
    event.before = w ∧ w.perform event.call = some (event.reply, after) :=
  World.perform_of_turnOf (turnOf_of_moves moves)

theorem eq_finished {stage : Stage r} {result : Except SubmitError JobId}
    (done : stage.program = .done result) : stage = .finished result := by
  cases stage with
  | finding found next left =>
    rw [Stage.program, findMore_cons] at done
    cases done
  | looking images =>
    rw [Stage.program, record_eq] at done
    cases done
  | recognising id =>
    rw [Stage.program, answerExisting_eq] at done
    cases done
  | finished other =>
    cases done
    rfl
  | _ => cases done

/-- The stages before the job is recorded. -/
inductive Stage.Early : Stage r → Prop
  | finding (found : List Image) (next : String) (left : List String) : Early (.finding found next left)
  | looking (images : List Image) : Early (.looking images)
  | creating (images : List Image) (task : Task) (fits : r.task? = some task) :
      Early (.creating images task fits)

/-- Only the stage before a job's progress is asked for makes such a call. -/
theorem eq_inspecting {stage : Stage r} {id : JobId} {type : JobType}
    {next : Except StoreError (Option Job) → Service (Except SubmitError JobId)}
    (asks : stage.program = .call (.find id type) next) : type = r.type ∧ stage = .inspecting id := by
  cases stage with
  | finding found reference left =>
    rw [Stage.program, findMore_cons] at asks
    cases asks
  | looking images =>
    rw [Stage.program, record_eq] at asks
    cases asks
  | recognising known =>
    rw [Stage.program, answerExisting_eq] at asks
    cases asks
  | inspecting known =>
    cases asks
    exact ⟨rfl, rfl⟩
  | _ => cases asks

/-- The stages of a submission that may yet abandon its job. -/
inductive Stage.Open : Stage r → Prop
  | early {stage : Stage r} (early : stage.Early) : Open stage
  | publishing (task : Task) (fits : r.task? = some task) : Open (.publishing task fits)
  | withdrawing (error : QueueError) : Open (.withdrawing error)

/-- A submission records no job but its own, and only from an early stage. -/
theorem Moves.create_eq {stage later : Stage r} (moves : Moves w stage event later after) {new : NewJob}
    (call : event.call = .create new) : new.id = r.drawn ∧ stage.Early ∧ ¬ later.Early := by
  cases moves with
  | unrecorded | duplicate | recorded =>
    cases call
    exact ⟨rfl, .creating _ _ _, nofun⟩
  | _ => cases call

theorem Moves.early {stage later : Stage r} (moves : Moves w stage event later after)
    (early : later.Early) : stage.Early := by
  cases moves with
  | asked => exact .finding _ _ _
  | missed => exact .looking _
  | _ => cases early

theorem Moves.open {stage later : Stage r} (moves : Moves w stage event later after)
    (mayAbandon : later.Open) : stage.Open := by
  cases moves with
  | recorded => exact .early (.creating _ _ _)
  | unqueued => exact .publishing _ _
  | asked => exact .early (.finding _ _ _)
  | missed => exact .early (.looking _)
  | _ =>
    cases mayAbandon with
    | early early => cases early

/-- The job that a submission is about to tell the cache of. -/
def Stage.tells? : Stage r → Option JobId
  | .remembering => some r.drawn
  | .renewing id => some id
  | _ => none

/-- A submission is about to tell the cache of its own job when that is queued, and of another when
it has found that to be more than recorded. -/
theorem Moves.tells {stage later : Stage r} (moves : Moves w stage event later after) {id : JobId}
    (tells : later.tells? = some id) :
    (id = r.drawn ∧ stage.Open ∧ ¬ later.Open ∧ event.abandoned? = none) ∨
      ∃ job, stage = .inspecting id ∧ w.find id r.type = .ok (some job) ∧ job.status ≠ .created := by
  cases moves with
  | queued =>
    cases tells
    refine .inl ⟨rfl, .publishing _ _, ?_, rfl⟩
    rintro ⟨⟨⟩⟩
  | started found begun =>
    cases tells
    exact .inr ⟨_, rfl, found, begun⟩
  | asked _ asking _ => cases asking <;> cases tells
  | _ => cases tells

/-- The cache learns of no job but the one that a submission tells. -/
theorem Moves.cached {stage later : Stage r} (moves : Moves w stage event later after)
    {fingerprint : Fingerprint} {id : JobId} (found : after.cache.lookup fingerprint = some id) :
    w.cache.lookup fingerprint = some id ∨ (fingerprint = r.fingerprint ∧ stage.tells? = some id) := by
  cases moves with
  | remembered =>
    rcases World.lookup_noted found with old | ⟨same, rfl⟩
    · exact .inl old
    · exact .inr ⟨same, rfl⟩
  | renewed =>
    rcases World.lookup_noted found with old | ⟨same, rfl⟩
    · exact .inl old
    · exact .inr ⟨same, rfl⟩
  | _ => exact .inl found

/-- A submission abandons no job but its own, and only before it has started. -/
theorem Moves.abandoned_eq {stage later : Stage r} (moves : Moves w stage event later after) {id : JobId}
    (abandoned : event.abandoned? = some id) :
    id = r.drawn ∧ stage.Open ∧ ¬ later.Open ∧ w.store.Unstarted id ∧
      after.store = w.store.abandon w.now id unqueuedReason := by
  cases moves with
  | withdrawn =>
    simp only [Event.abandoned?] at abandoned
    split at abandoned
    · next unstarted =>
      cases abandoned
      refine ⟨rfl, .withdrawing _, ?_, unstarted, rfl⟩
      rintro ⟨⟨⟩⟩
    · cases abandoned
  | _ => cases abandoned

end Submission

end Vetting

namespace Vetting.Memory.World

/-- The images with these references, or why one of them is not told. -/
def found (w : World) : List String → Except SubmitError (List Image)
  | [] => .ok []
  | reference :: rest =>
    if w.faults .images then .error (.store storeFailure)
    else
      match w.images.lookup reference with
      | none => .error (.unknownImage reference)
      | some image => (w.found rest).map (image :: ·)

/-- The images of a submission, or why it is refused. -/
def checked (w : World) (r : Request) : Except SubmitError (List Image) :=
  if r.references.length ≠ r.type.imageCount then .error (.imageCount r.type r.references.length)
  else
    match w.found r.references with
    | .error e => .error e
    | .ok images =>
      match Submission.checkImages r.type r.client images with
      | .error e => .error e
      | .ok () => .ok images

variable {w : World}

@[simp] theorem run_findImages (w : World) (references : List String) :
    w.run (Submission.findImages references) = some (w.found references, w) := by
  induction references with
  | nil => rfl
  | cons reference rest ih =>
    by_cases broken : w.faults .images = true
    · have answered : w.perform (.findImage reference) = some (.error storeFailure, w) := by
        simp [perform, broken]
      rw [found, if_pos broken]
      exact run_answered answered
    have answered : w.perform (.findImage reference) = some (.ok (w.images.lookup reference), w) := by
      simp [perform, broken]
    rw [found, if_neg broken]
    refine (run_answered answered).trans ?_
    cases known : w.images.lookup reference with
    | none => rfl
    | some image =>
      show w.run ((Submission.findImages rest).bind fun more => .done (more.map (image :: ·))) = _
      rw [run, Program.run_bind, ← run, ih]
      rfl

/-- A store that works finds all images, or tells of one that is missing. -/
theorem found_cases (working : w.faults .images = false) (references : List String) :
    (∃ reference ∈ references, w.images.lookup reference = none ∧
        w.found references = .error (.unknownImage reference)) ∨
      ∃ images, w.found references = .ok images ∧
        List.Forall₂ (fun reference image => w.images.lookup reference = some image) references images := by
  induction references with
  | nil => exact .inr ⟨[], rfl, .nil⟩
  | cons reference rest ih =>
    cases known : w.images.lookup reference with
    | none => exact .inl ⟨reference, List.mem_cons_self, known, by simp [found, working, known]⟩
    | some image =>
      have step : w.found (reference :: rest) = (w.found rest).map (image :: ·) := by
        simp [found, working, known]
      rcases ih with ⟨missing, mem, absent, told⟩ | ⟨images, told, all⟩
      · exact .inl ⟨missing, List.mem_cons_of_mem _ mem, absent, by rw [step, told]; rfl⟩
      · exact .inr ⟨image :: images, by rw [step, told]; rfl, .cons known all⟩

@[simp] theorem run_validate (w : World) (r : Request) :
    w.run (Submission.validate r.type r.client r.references) = some (w.checked r, w) := by
  unfold Submission.validate checked
  by_cases fits : r.references.length = r.type.imageCount
  · rw [if_neg (not_not_intro fits), if_neg (not_not_intro fits)]
    show w.run ((Submission.findImages r.references).bind _) = _
    rw [run, Program.run_bind, ← run, run_findImages]
    cases w.found r.references with
    | error e => rfl
    | ok images =>
      dsimp only [Option.bind_some]
      cases Submission.checkImages r.type r.client images <;> rfl
  · rw [if_pos fits, if_pos fits]
    rfl

/-- A submission that is refused leaves the world, another one goes on to be recorded. -/
theorem run_program (w : World) (r : Request) :
    w.run r.program = match w.checked r with
      | .error e => some (.error e, w)
      | .ok images => w.run (Submission.record r.drawn r.type r.client r.references images) := by
  show w.run ((Submission.validate r.type r.client r.references).bind _) = _
  rw [run, Program.run_bind, ← run, run_validate]
  cases w.checked r <;> rfl

theorem fits_of_checked {r : Request} {images : List Image} (passed : w.checked r = .ok images) :
    r.references.length = r.type.imageCount := by
  unfold checked at passed
  split at passed
  · cases passed
  · next fits => exact not_not.1 fits

end Vetting.Memory.World
