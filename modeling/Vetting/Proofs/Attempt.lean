import Vetting.Proofs.Opening
import Vetting.Proofs.Submission

/-!
Submissions that come to nothing. `World.submitted` tells what comes of a submission that no other
program interrupts (`run_request`): one that is refused, or whose job cannot be recorded, leaves the world
as it was, and one whose job cannot be queued leaves a single failed job more, whose id nothing else
names (`attempt_undone`).

A job that nothing names makes no difference to later submissions: what they do to a world they do to
the world without it (`submitted_without`). So the next attempt goes as if the failed one had never
been made.
-/
namespace Vetting

namespace Assoc

variable {κ α : Type} [DecidableEq κ] {key other : κ}

private theorem drop_put (different : other ≠ key) (value : α) (pairs : List (κ × α)) :
    drop key (put other value pairs) = put other value (drop key pairs) := by
  unfold drop
  induction pairs with
  | nil => simp [put, different]
  | cons pair rest ih =>
    obtain ⟨k, old⟩ := pair
    by_cases same : k = other
    · subst same
      simp [put, different]
    · rw [put, if_neg same]
      by_cases dropped : k = key
      · subst dropped
        rw [List.filter_cons_of_neg (by simp), List.filter_cons_of_neg (by simp), ih]
      · rw [List.filter_cons_of_pos (by simpa using dropped), List.filter_cons_of_pos (by simpa using dropped),
          ih, put, if_neg same]

private theorem put_append {front : List (κ × α)} (absent : ∀ pair ∈ front, pair.1 ≠ key) (old new : α) :
    put key new (front ++ [(key, old)]) = front ++ [(key, new)] := by
  induction front with
  | nil => simp [put]
  | cons pair rest ih =>
    obtain ⟨k, value⟩ := pair
    obtain ⟨other, absent⟩ := List.forall_mem_cons.1 absent
    rw [List.cons_append, put, if_neg other, ih absent, List.cons_append]

end Assoc

namespace Memory

namespace JobTable

variable {t : JobTable} {id other : JobId} {now : Instant} {new : NewJob}

/-- Whether neither a record nor a fingerprint names a job. -/
structure Unused (t : JobTable) (id : JobId) : Prop where
  absent : t.job? id = none
  unheld : ∀ entry ∈ t.fingerprints, entry.2 ≠ id

/-- A store without the record of a job. -/
def without (id : JobId) (t : JobTable) : JobTable :=
  { t with jobs := Assoc.drop id t.jobs }

/-- A store with one record more. -/
def withRow (id : JobId) (job : Job) (t : JobTable) : JobTable :=
  { t with jobs := t.jobs ++ [(id, job)] }

private theorem Unused.keys (unused : t.Unused id) : ∀ entry ∈ t.jobs, entry.1 ≠ id := by
  intro entry mem same
  have absent := List.lookup_eq_none_iff.1 unused.absent entry mem
  simp [same] at absent

private theorem Unused.without_eq (unused : t.Unused id) : t.without id = t := by
  rw [without, Assoc.drop_eq_self unused.keys]

private theorem Unused.without_withRow (unused : t.Unused id) (job : Job) :
    (t.withRow id job).without id = t := by
  have kept := unused.without_eq
  unfold without Assoc.drop at kept ⊢
  rw [withRow, List.filter_append]
  simpa using kept

private theorem job?_withRow (absent : t.job? id = none) (job : Job) :
    (t.withRow id job).job? id = some job := by
  rw [job?, withRow, List.lookup_append, ← job?, absent]
  simp

private theorem job?_without (different : other ≠ id) : (t.without id).job? other = t.job? other :=
  (Assoc.lookup_drop id other t.jobs).trans (if_neg different)

private theorem change_without (different : other ≠ id) (sources : List JobStatus) (apply : Job → Job) :
    (t.without id).change other sources apply =
      ((t.change other sources apply).1, (t.change other sources apply).2.without id) := by
  unfold change
  rw [job?_without different]
  cases t.job? other with
  | none => rfl
  | some job =>
    dsimp only
    split
    · simp only [without, Assoc.drop_put different]
    · rfl

private theorem abandon_without (different : other ≠ id) (reason : String) :
    (t.without id).abandon now other reason = (t.abandon now other reason).without id := by
  rw [abandon, change_without different, abandon]
  rcases t.change other [.created] (failed now reason) with ⟨transition, after⟩
  cases transition <;> rfl

private theorem create_without (different : new.id ≠ id) :
    (t.without id).create now new = ((t.create now new).1, (t.create now new).2.without id) := by
  unfold create
  have same : (t.without id).fingerprints = t.fingerprints := rfl
  rw [same]
  cases t.fingerprints.lookup new.fingerprint with
  | some existing => rfl
  | none =>
    simp only [without, Assoc.renew, Assoc.drop, List.filter_append, List.filter_filter, Bool.and_comm]
    simp [different]

/-- A job that is recorded and abandoned leaves its failed record and nothing else. -/
theorem abandon_recorded (unused : t.Unused new.id) (reason : String) :
    (t.recorded now new).abandon now new.id reason =
      t.withRow new.id (failed now reason (Job.fresh new.id new.type new.client new.imageIds now)) := by
  have found : (t.recorded now new).job? new.id = some _ := job?_recorded.trans (if_pos rfl)
  have jobs : (t.recorded now new).jobs =
      t.jobs ++ [(new.id, Job.fresh new.id new.type new.client new.imageIds now)] := by
    rw [recorded, Assoc.renew, Assoc.drop_eq_self unused.keys]
  have released : (t.recorded now new).fingerprints.filter (fun entry => entry.2 ≠ new.id) =
      t.fingerprints := by
    rw [recorded, List.filter_append,
      List.filter_eq_self.2 fun entry mem => decide_eq_true (unused.unheld entry mem)]
    simp
  have fresh : (Job.fresh new.id new.type new.client new.imageIds now).status ∈ [JobStatus.created] :=
    List.mem_singleton.2 rfl
  rw [abandon, change, found]
  simp only [if_pos fresh]
  rw [released, jobs, Assoc.put_append unused.keys]
  rfl

end JobTable

namespace World

/-- Whether the record that was found is of a job that has started. -/
def toldBegun : Except StoreError (Option Job) → Bool
  | .ok (some job) => job.status ≠ .created
  | .ok none | .error _ => false

/-- The world after a submission was answered with a job that was recorded before. -/
def recognised (w : World) (r : Request) (id : JobId) : World :=
  let w := w.counted (.deduplicated r.type)
  if toldBegun (w.find id r.type) then w.noted r.fingerprint id else w

/-- What comes of a submission whose job was just recorded. -/
def enqueued (w : World) (r : Request) (task : Task) : Except SubmitError JobId × World :=
  if w.faults .publish then
    (.error (.queue brokerFailure), (w.abandon r.drawn Submission.unqueuedReason).2)
  else
    (.ok r.drawn, ({ w with pending := w.pending ++ [task.encode] }.noted r.fingerprint r.drawn).counted
      (.submitted r.type))

/-- What comes of a submission whose images are good. -/
def attempted (w : World) (r : Request) (images : List Image) : Except SubmitError JobId × World :=
  match w.cached r.fingerprint with
  | some id => (.ok id, w.counted (.deduplicated r.type))
  | none =>
    match r.task? with
    | none => (.error (.imageCount r.type r.references.length), w)
    | some task =>
      match w.create (r.job images) with
      | (.error e, w) => (.error (.store e), w)
      | (.ok (.existing id), w) => (.ok id, w.recognised r id)
      | (.ok .created, w) => w.enqueued r task

/-- What comes of a submission that no other program interrupts. -/
def submitted (w : World) (r : Request) : Except SubmitError JobId × World :=
  match w.checked r with
  | .error e => (.error e, w)
  | .ok images => w.attempted r images

variable {w : World} {r : Request}

private theorem run_afterFind (w : World) (r : Request) (id : JobId)
    (reply : Except StoreError (Option Job)) : w.run (Submission.afterFind r id reply) =
      some (.ok id, if toldBegun reply then w.noted r.fingerprint id else w) := by
  match reply with
  | .error e => rfl
  | .ok none => rfl
  | .ok (some job) =>
    by_cases idle : job.status = .created
    · have told : toldBegun (.ok (some job)) = false := by simp [toldBegun, idle]
      rw [Submission.afterFind, if_neg (not_not_intro idle), told]
      rfl
    · have told : toldBegun (.ok (some job)) = true := by simp [toldBegun, idle]
      rw [Submission.afterFind, if_pos idle, told]
      rfl

private theorem run_answerExisting (w : World) (r : Request) (id : JobId) :
    w.run (Submission.answerExisting r.type r.fingerprint id) = some (.ok id, w.recognised r id) := by
  rw [Submission.answerExisting_eq]
  let w' := w.counted (.deduplicated r.type)
  have counts : w.perform (.count (.deduplicated r.type)) = some ((), w') := rfl
  have finds : w'.perform (.find id r.type) = some (w'.find id r.type, w') := rfl
  exact (run_answered counts).trans ((run_answered finds).trans (run_afterFind w' r id _))

private theorem run_publish (w : World) (r : Request) (task : Task) :
    w.run (.call (.publish task.encode) (Submission.afterPublish r.type r.fingerprint r.drawn)) =
      some (w.enqueued r task) := by
  unfold enqueued
  by_cases broken : w.faults .publish = true
  · rw [if_pos broken]
    have answered : w.perform (.publish task.encode) = some (.error brokerFailure, w) :=
      congrArg some (publish_broken broken task.encode)
    exact run_answered answered
  · rw [if_neg broken]
    have working : w.faults .publish = false := Bool.not_eq_true _ ▸ broken
    have answered : w.perform (.publish task.encode) =
        some (.ok (), { w with pending := w.pending ++ [task.encode] }) :=
      congrArg some (publish_working working task.encode)
    exact run_answered answered

private theorem run_record (w : World) (r : Request) (images : List Image) :
    w.run (Submission.record r.drawn r.type r.client r.references images) =
      some (w.attempted r images) := by
  rw [Submission.record_eq]
  have answered : w.perform (.lookup r.fingerprint) = some (w.cached r.fingerprint, w) := rfl
  refine (run_answered answered).trans ?_
  unfold attempted
  cases w.cached r.fingerprint with
  | some id => rfl
  | none =>
    simp only [Submission.afterLookup]
    cases fits : r.task? with
    | none => rfl
    | some task =>
      obtain ⟨reply, mid, made⟩ : ∃ reply mid, w.create (r.job images) = (reply, mid) := ⟨_, _, rfl⟩
      have recorded : w.perform (.create (r.job images)) = some (reply, mid) := congrArg some made
      refine (run_answered recorded).trans ?_
      simp only [made]
      cases reply with
      | error e => rfl
      | ok creation =>
        cases creation with
        | existing id => exact run_answerExisting mid r id
        | created =>
          rw [Submission.afterCreate_created fits]
          exact run_publish mid r task

/-- A submission that no other program interrupts comes to an end. -/
theorem run_request (w : World) (r : Request) : w.run r.program = some (w.submitted r) := by
  rw [run_program, submitted]
  cases w.checked r with
  | error e => rfl
  | ok images => exact run_record w r images

/-- A world without the record of a job. -/
def without (id : JobId) (w : World) : World := { w with store := w.store.without id }

/-- A world with one record more. -/
def withRow (id : JobId) (job : Job) (w : World) : World := { w with store := w.store.withRow id job }

variable {id other : JobId}

private theorem checked_without (id : JobId) (w : World) (r : Request) :
    (w.without id).checked r = w.checked r := by
  have found : ∀ references, (w.without id).found references = w.found references := by
    intro references
    induction references with
    | nil => rfl
    | cons reference rest ih => rw [World.found, World.found, ih]; rfl
  rw [checked, checked, found]

private theorem noted_without (id : JobId) (w : World) (fingerprint : Fingerprint) (known : JobId) :
    (w.without id).noted fingerprint known = (w.noted fingerprint known).without id := by
  unfold noted
  have same : (w.without id).faults = w.faults := rfl
  rw [same]
  split <;> rfl

private theorem find_without (different : other ≠ id) (type : JobType) :
    (w.without id).find other type = w.find other type := by
  have stored : (w.without id).store.find other type = w.store.find other type := by
    rw [JobTable.find, without, JobTable.job?_without different, JobTable.find]
  rw [find, stored]
  rfl

private theorem create_without {new : NewJob} (different : new.id ≠ id) :
    (w.without id).create new = ((w.create new).1, (w.create new).2.without id) := by
  have stored : (w.without id).store.create (w.without id).now new =
      ((w.store.create w.now new).1, (w.store.create w.now new).2.without id) :=
    JobTable.create_without different
  have same : (w.without id).faults = w.faults := rfl
  rw [create, create, stored, same]
  split
  · rfl
  split
  · rfl
  · rfl

private theorem abandon_without (different : other ≠ id) (reason : String) :
    ((w.without id).abandon other reason).2 = (w.abandon other reason).2.without id := by
  have stored : (w.without id).store.abandon (w.without id).now other reason =
      (w.store.abandon w.now other reason).without id := JobTable.abandon_without different reason
  have same : (w.without id).faults = w.faults := rfl
  rw [abandon, abandon, stored, same]
  split <;> rfl

private theorem recognised_without (different : other ≠ id) :
    (w.without id).recognised r other = (w.recognised r other).without id := by
  have counted : (w.without id).counted (.deduplicated r.type) =
      (w.counted (.deduplicated r.type)).without id := rfl
  simp only [recognised, counted, find_without different, noted_without]
  split <;> rfl

private theorem enqueued_without (different : r.drawn ≠ id) (task : Task) :
    (w.without id).enqueued r task = ((w.enqueued r task).1, (w.enqueued r task).2.without id) := by
  have same : (w.without id).faults = w.faults := rfl
  rw [enqueued, enqueued, same, abandon_without different]
  split
  · rfl
  · have noted := noted_without id { w with pending := w.pending ++ [task.encode] } r.fingerprint r.drawn
    exact congrArg (fun w : World => ((.ok r.drawn : Except SubmitError JobId), w.counted (.submitted r.type)))
      noted

/-- A job that no fingerprint names makes no difference to a submission that draws another id. -/
theorem submitted_without (different : r.drawn ≠ id) (unheld : ∀ entry ∈ w.store.fingerprints, entry.2 ≠ id) :
    (w.without id).submitted r = ((w.submitted r).1, (w.submitted r).2.without id) := by
  have attempted : ∀ images, (w.without id).attempted r images =
      ((w.attempted r images).1, (w.attempted r images).2.without id) := by
    intro images
    unfold attempted
    have cached : (w.without id).cached r.fingerprint = w.cached r.fingerprint := rfl
    rw [cached]
    cases w.cached r.fingerprint with
    | some known => rfl
    | none =>
      cases r.task? with
      | none => rfl
      | some task =>
        have creates : (w.without id).create (r.job images) = _ := create_without different
        simp only [creates]
        rcases create_cases (r.job images) w with
          ⟨error, made⟩ | ⟨existing, taken, made⟩ | ⟨_, made⟩
        · simp only [made]
        · have named : existing ≠ id := unheld _ (Assoc.mem_of_lookup taken)
          simp only [made, recognised_without named]
        · simp only [made, enqueued_without different]
  rw [submitted, submitted, checked_without]
  cases w.checked r with
  | error e => rfl
  | ok images => exact attempted images

private theorem error_of_found {references : List String} {e : SubmitError}
    (told : w.found references = .error e) :
    e = .store storeFailure ∨ ∃ reference, e = .unknownImage reference := by
  induction references with
  | nil => cases told
  | cons reference rest ih =>
    rw [found] at told
    split at told
    · cases told
      exact .inl rfl
    split at told
    · cases told
      exact .inr ⟨reference, rfl⟩
    · cases more : w.found rest with
      | error other =>
        rw [more] at told
        cases told
        exact ih more
      | ok images =>
        rw [more] at told
        cases told

/-- No check speaks of the queue. -/
theorem checked_ne_queue (w : World) (r : Request) (error : QueueError) :
    w.checked r ≠ .error (.queue error) := by
  intro told
  rw [checked] at told
  split at told
  · cases told
  cases more : w.found r.references with
  | error e =>
    rw [more] at told
    cases told
    rcases error_of_found more with other | ⟨reference, other⟩
    · cases other
    · cases other
  | ok images =>
    simp only [more, Submission.checkImages] at told
    split at told
    · next refused =>
      split at refused
      · cases refused
        cases told
      · split at refused
        · cases refused
          cases told
        · cases refused
    · cases told

/-- All that can come of a submission. -/
inductive Comes (w : World) (r : Request) : Except SubmitError JobId → World → Prop
  | refused {e : SubmitError} (checked : w.checked r = .error e) : Comes w r (.error e) w
  | hit {id : JobId} (known : w.cached r.fingerprint = some id) :
      Comes w r (.ok id) (w.counted (.deduplicated r.type))
  | unrecorded {e : StoreError} : Comes w r (.error (.store e)) w
  | recognised {id : JobId} (taken : w.store.fingerprints.lookup r.fingerprint.text = some id) :
      Comes w r (.ok id) (w.recognised r id)
  | unqueued {images : List Image} (broken : w.faults .publish = true) :
      Comes w r (.error (.queue brokerFailure))
        ({ w with store := w.store.recorded w.now (r.job images) }.abandon r.drawn
          Submission.unqueuedReason).2
  | queued {images : List Image} {task : Task} (fits : r.task? = some task)
      (working : w.faults .publish = false) :
      Comes w r (.ok r.drawn)
        (({ w with
          store := w.store.recorded w.now (r.job images)
          pending := w.pending ++ [task.encode] }.noted r.fingerprint r.drawn).counted
            (.submitted r.type))

private theorem comes_submitted (w : World) (r : Request) :
    w.Comes r (w.submitted r).1 (w.submitted r).2 := by
  rw [submitted]
  cases passed : w.checked r with
  | error e => exact .refused passed
  | ok images =>
    unfold attempted
    cases known : w.cached r.fingerprint with
    | some id => exact .hit known
    | none =>
      obtain ⟨task, fits⟩ := Request.exists_task (fits_of_checked passed)
      simp only [fits]
      rcases create_cases (r.job images) w with ⟨error, made⟩ | ⟨existing, taken, made⟩ | ⟨_, made⟩
      · simp only [made]
        exact .unrecorded
      · simp only [made]
        exact .recognised taken
      · simp only [made, enqueued]
        split
        · next broken => exact .unqueued broken
        · next working => exact .queued fits (Bool.not_eq_true _ ▸ working)

/-- A submission that fails for another reason than the queue leaves the world as it was. -/
theorem Comes.eq_of_refused {after : World} {e : SubmitError} (comes : w.Comes r (.error e) after)
    (other : ∀ error, e ≠ .queue error) : after = w := by
  cases comes with
  | refused => rfl
  | unrecorded => rfl
  | unqueued => exact absurd rfl (other _)

/-- A submission whose job cannot be queued leaves one job more, which has failed. -/
theorem Comes.eq_withRow {after : World} {error : QueueError}
    (comes : w.Comes r (.error (.queue error)) after)
    (works : w.faults .abandon = false) (unused : w.store.Unused r.drawn) :
    ∃ images, after = w.withRow r.drawn (JobTable.failed w.now Submission.unqueuedReason
      (Job.fresh r.drawn r.type r.client images w.now)) := by
  cases comes with
  | refused checked => exact absurd checked (checked_ne_queue w r error)
  | @unqueued images =>
    refine ⟨images.map (·.id), ?_⟩
    have abandoned : (w.store.recorded w.now (r.job images)).abandon w.now r.drawn _ = _ :=
      JobTable.abandon_recorded unused Submission.unqueuedReason
    have working := abandon_working (w := { w with store := w.store.recorded w.now (r.job images) }) works
      r.drawn Submission.unqueuedReason
    rw [working]
    exact congrArg (fun store : JobTable => { w with store }) abandoned

/-- A submission changes no job but the one that it records. -/
theorem Comes.job?_eq {result : Except SubmitError JobId} {after : World} (comes : w.Comes r result after)
    (different : id ≠ r.drawn) : after.store.job? id = w.store.job? id := by
  have recorded : ∀ images, (w.store.recorded w.now (r.job images)).job? id = w.store.job? id :=
    fun images => JobTable.job?_recorded.trans (if_neg different)
  cases comes with
  | refused | hit | unrecorded => rfl
  | recognised =>
    rw [World.recognised]
    split
    · exact congrArg (·.job? id) (noted_keeps _ _).1
    · rfl
  | @unqueued images =>
    rw [abandon]
    split
    · exact recorded images
    · exact (JobTable.job?_abandon_other _ _ different).trans (recorded images)
  | @queued images =>
    rw [counted, (noted_keeps _ _).1]
    exact recorded images

end World

/-- A submission that fails leaves the world as it was. If its job could not be queued, there is one failed
job more, and whatever is submitted once the queue works goes as if that job were not there. -/
theorem attempt_undone {w : World} {r : Request} (works : w.faults .abandon = false)
    (unused : w.store.Unused r.drawn) :
    ∃ result after, w.run r.program = some (result, after) ∧
      (∀ e, result = .error e → (∀ error, e ≠ .queue error) → after = w) ∧
      ∀ error, result = .error (.queue error) →
        (∃ job : Job, after = w.withRow r.drawn job ∧ after.store.job? r.drawn = some job ∧
          job.id = r.drawn ∧ job.type = r.type ∧ job.client = r.client ∧ job.status = .failed ∧
          job.failedReason = some Submission.unqueuedReason) ∧
        ∀ again : Request, again.drawn ≠ r.drawn → ∃ answer last,
          (after.turn .publish false).run again.program = some (answer, last) ∧
          (w.turn .publish false).run again.program = some (answer, last.without r.drawn) ∧
          last.store.job? r.drawn = after.store.job? r.drawn := by
  have comes := w.comes_submitted r
  refine ⟨(w.submitted r).1, (w.submitted r).2, w.run_request r, ?_, ?_⟩
  · intro e told other
    rw [told] at comes
    exact comes.eq_of_refused other
  · intro error told
    rw [told] at comes
    obtain ⟨images, left⟩ := comes.eq_withRow works unused
    rw [left]
    have named := JobTable.job?_withRow unused.absent (JobTable.failed w.now Submission.unqueuedReason
      (Job.fresh r.drawn r.type r.client images w.now))
    refine ⟨⟨_, rfl, named, rfl, rfl, rfl, rfl, rfl⟩, fun again different => ?_⟩
    generalize JobTable.failed w.now Submission.unqueuedReason
      (Job.fresh r.drawn r.type r.client images w.now) = job at named ⊢
    let after : World := (w.withRow r.drawn job).turn .publish false
    have before : after.without r.drawn = w.turn .publish false :=
      congrArg (fun store : JobTable => { w.turn .publish false with store }) (unused.without_withRow job)
    have unheld : ∀ entry ∈ after.store.fingerprints, entry.2 ≠ r.drawn := unused.unheld
    refine ⟨(after.submitted again).1, (after.submitted again).2, after.run_request again, ?_, ?_⟩
    · rw [← before, World.run_request, World.submitted_without different unheld]
    · exact (after.comes_submitted again).job?_eq different.symm

/-- The card is submitted while the queue does not work, and again when it does. -/
theorem attempt_undone_card : ∃ (w after last : World) (answer : JobId) (job : Job),
    w.run (Pool.cardRequest 1).program = some (.error (.queue World.brokerFailure), after) ∧
      after = w.withRow (Pool.cardRequest 1).drawn job ∧ job.status = .failed ∧
      (after.turn .publish false).run (Pool.cardRequest 2).program = some (.ok answer, last) ∧
      (w.turn .publish false).run (Pool.cardRequest 2).program =
        some (.ok answer, last.without (Pool.cardRequest 1).drawn) := by
  let w := Pool.deskWorld fun switch => switch = .publish
  obtain ⟨result, after, ran, _, unqueued⟩ :=
    attempt_undone (w := w) (r := Pool.cardRequest 1) rfl ⟨rfl, nofun⟩
  have failed : result = .error (.queue World.brokerFailure) := by
    have told : w.run (Pool.cardRequest 1).program = some (.error (.queue World.brokerFailure), _) := rfl
    exact congrArg Prod.fst (Option.some.inj (ran.symm.trans told))
  subst failed
  obtain ⟨⟨job, left, _, _, _, _, status, _⟩, retry⟩ := unqueued _ rfl
  obtain ⟨answer, last, again, first, _⟩ := retry (Pool.cardRequest 2) (by decide)
  have answered : answer = .ok (Pool.cardRequest 2).drawn := by
    have told : (w.turn .publish false).run (Pool.cardRequest 2).program =
      some (.ok (Pool.cardRequest 2).drawn, _) := rfl
    exact congrArg Prod.fst (Option.some.inj (first.symm.trans told))
  subst answered
  exact ⟨w, after, last, _, job, ran, left, status, again, first⟩

end Memory

end Vetting
