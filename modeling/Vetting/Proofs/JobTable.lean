import Mathlib
import Vetting.Memory.World

/-!
What the operations of a store in memory leave of a record: it stays under its id, it keeps what it
was made with, and its status only moves on (`Job.Advances`). A job is recorded only under a
fingerprint that none holds (`create_taken`, `create_free`), and is then found under it
(`lookup_recorded`).
-/
namespace Vetting

/-- A later record of the same job. -/
structure Job.Advances (job later : Job) : Prop where
  id : later.id = job.id
  type : later.type = job.type
  client : later.client = job.client
  imageIds : later.imageIds = job.imageIds
  createdAt : later.createdAt = job.createdAt
  rank : job.status.rank ≤ later.status.rank
  frozen : job.status.isTerminal → later = job

namespace Job.Advances

theorem refl (job : Job) : Advances job job :=
  ⟨rfl, rfl, rfl, rfl, rfl, le_rfl, fun _ => rfl⟩

theorem trans {job later last : Job} (first : Advances job later) (second : Advances later last) :
    Advances job last := by
  refine ⟨second.id.trans first.id, second.type.trans first.type, second.client.trans first.client,
    second.imageIds.trans first.imageIds, second.createdAt.trans first.createdAt,
    first.rank.trans second.rank, fun terminal => ?_⟩
  obtain rfl := first.frozen terminal
  exact second.frozen terminal

theorem started {job later : Job} (advances : Advances job later) (begun : job.status ≠ .created) :
    later.status ≠ .created := by
  have rank := advances.rank
  intro same
  rw [same] at rank
  revert begun rank
  cases job.status <;> decide

end Job.Advances

namespace Memory.JobTable

variable {t : JobTable} {id other : JobId} {sources : List JobStatus} {apply : Job → Job}

theorem job?_of_find {type : JobType} {job : Job} (found : t.find id type = some job) :
    t.job? id = some job := (Option.filter_eq_some_iff.1 found).1

@[simp] theorem job?_change :
    (t.change id sources apply).2.job? other =
      if other = id then (t.job? id).map fun job => if job.status ∈ sources then apply job else job
      else t.job? other := by
  unfold change
  cases found : t.job? id with
  | none =>
    by_cases same : other = id
    · simp [same, found]
    · simp [same]
  | some job =>
    by_cases allowed : job.status ∈ sources
    · simp only [allowed, ↓reduceIte, job?, Assoc.lookup_put, Option.map_some]
    · by_cases same : other = id
      · simp [allowed, same, found]
      · simp [allowed, same]

theorem job?_change_other (different : other ≠ id) :
    (t.change id sources apply).2.job? other = t.job? other := by
  rw [job?_change, if_neg different]

theorem job?_change_self {job : Job} (found : t.job? id = some job) (source : job.status ∈ sources) :
    (t.change id sources apply).2.job? id = some (apply job) := by
  rw [job?_change, if_pos rfl, found, Option.map_some, if_pos source]

/-- A record that a change left was there before, or is what the change made of one. -/
theorem left_of_change {later : Job} (found : (t.change id sources apply).2.job? other = some later) :
    t.job? other = some later ∨
      other = id ∧ ∃ job, t.job? other = some job ∧ job.status ∈ sources ∧ later = apply job := by
  rw [job?_change] at found
  by_cases same : other = id
  · subst same
    rw [if_pos rfl, Option.map_eq_some_iff] at found
    obtain ⟨job, there, rfl⟩ := found
    by_cases allowed : job.status ∈ sources
    · exact .inr ⟨rfl, job, there, allowed, if_pos allowed⟩
    · rw [if_neg allowed]
      exact .inl there
  · rw [if_neg same] at found
    exact .inl found

@[simp] theorem fingerprints_change : (t.change id sources apply).2.fingerprints = t.fingerprints := by
  unfold change
  cases t.job? id with
  | none => rfl
  | some job => dsimp only; split <;> rfl

/-- What comes of a change: it is skipped and leaves the table, or it is applied to the job. -/
theorem change_cases (id : JobId) (sources : List JobStatus) (apply : Job → Job) (t : JobTable) :
    (∃ status, t.change id sources apply = (.skipped status, t) ∧
      ∀ job ∈ t.job? id, job.status ∉ sources) ∨
    (∃ job ∈ t.job? id, job.status ∈ sources ∧ (t.change id sources apply).1 = .applied) := by
  unfold change
  cases t.job? id with
  | none => exact .inl ⟨none, rfl, by simp⟩
  | some job =>
    by_cases allowed : job.status ∈ sources
    · exact .inr ⟨job, rfl, allowed, by simp [allowed]⟩
    · exact .inl ⟨some job.status, by simp [allowed], by simpa using allowed⟩

/-- A change that is skipped tells the status that the job has. -/
theorem status_of_skipped {status : JobStatus}
    (skips : (t.change id sources apply).1 = .skipped (some status)) :
    ∃ job, t.job? id = some job ∧ job.status = status := by
  unfold change at skips
  cases found : t.job? id with
  | none => simp [found] at skips
  | some job =>
    simp only [found] at skips
    split at skips
    · cases skips
    · cases skips
      exact ⟨job, rfl, rfl⟩

theorem change_unlisted (id : JobId) (apply : Job → Job) (t : JobTable) :
    ∃ status, t.change id [] apply = (.skipped status, t) := by
  rcases change_cases id [] apply t with
    ⟨status, skips, _⟩ | ⟨job, _, source, _⟩
  · exact ⟨status, skips⟩
  · cases source

/-- A change that takes a job on takes every job on. -/
theorem advances_change {job : Job} (found : t.job? other = some job)
    (forward : ∀ job : Job, job.status ∈ sources → job.Advances (apply job)) :
    ∃ later, (t.change id sources apply).2.job? other = some later ∧ job.Advances later := by
  rw [job?_change]
  by_cases same : other = id
  · subst same
    refine ⟨_, by rw [if_pos rfl, found, Option.map_some], ?_⟩
    by_cases allowed : job.status ∈ sources
    · rw [if_pos allowed]
      exact forward job allowed
    · rw [if_neg allowed]
      exact .refl job
  · exact ⟨job, by rw [if_neg same, found], .refl job⟩

theorem advances_start (now : Instant) (job : Job) (source : job.status ∈ [.created, .processing]) :
    job.Advances { job with status := .processing, processedAt := some now } := by
  refine ⟨rfl, rfl, rfl, rfl, rfl, ?_, ?_⟩ <;>
    · revert source
      cases job.status <;> simp [JobStatus.rank, JobStatus.isTerminal]

theorem advances_complete (now : Instant) (result : JobResult) (job : Job)
    (source : job.status ∈ [.processing]) :
    job.Advances { job with status := .completed, completedAt := some now, result := some result } := by
  refine ⟨rfl, rfl, rfl, rfl, rfl, ?_, ?_⟩ <;>
    · revert source
      cases job.status <;> simp [JobStatus.rank, JobStatus.isTerminal]

theorem advances_failed (now : Instant) (reason : String) (job : Job)
    (source : job.status ∈ [.created, .processing]) : job.Advances (failed now reason job) := by
  refine ⟨rfl, rfl, rfl, rfl, rfl, ?_, ?_⟩ <;>
    · revert source
      simp only [failed]
      cases job.status <;> simp [JobStatus.rank, JobStatus.isTerminal]

/-- Whether a job is only recorded, so that it can be abandoned. -/
def Unstarted (t : JobTable) (id : JobId) : Prop := ∃ job ∈ t.job? id, job.status = .created

instance : Decidable (t.Unstarted id) :=
  inferInstanceAs (Decidable (∃ job ∈ t.job? id, job.status = .created))

/-- Whether a job is over. -/
def Over (t : JobTable) (id : JobId) : Prop := ∃ job, t.job? id = some job ∧ job.status.isTerminal

/-- What comes of abandoning a job: nothing, or its failure and its fingerprints given free. -/
theorem abandon_cases (now : Instant) (id : JobId) (reason : String) (t : JobTable) :
    (¬ t.Unstarted id ∧ t.abandon now id reason = t) ∨
    (t.Unstarted id ∧ t.abandon now id reason =
      { jobs := (t.change id [.created] (failed now reason)).2.jobs
        fingerprints := t.fingerprints.filter fun (_, held) => held ≠ id }) := by
  have kept : (t.change id [.created] (failed now reason)).2.fingerprints = t.fingerprints :=
    fingerprints_change
  rcases change_cases id [.created] (failed now reason) t with
    ⟨status, skips, idle⟩ | ⟨job, found, source, applied⟩
  · refine .inl ⟨?_, by simp only [abandon, skips]⟩
    rintro ⟨job, found, created⟩
    exact idle job found (List.mem_singleton.2 created)
  · refine .inr ⟨⟨job, found, List.mem_singleton.1 source⟩, ?_⟩
    rw [abandon, show t.change id [.created] (failed now reason) = (.applied, _) from Prod.ext applied rfl]
    simp only [kept]

@[simp] theorem job?_abandon (now : Instant) (reason : String) :
    (t.abandon now id reason).job? other =
      (t.change id [.created] (failed now reason)).2.job? other := by
  rcases abandon_cases now id reason t with ⟨started, same⟩ | ⟨_, equal⟩
  · rw [same, job?_change]
    split
    · next here =>
      subst here
      cases found : t.job? other with
      | none => rfl
      | some job =>
        have begun : job.status ∉ [JobStatus.created] := fun source =>
          started ⟨job, found, List.mem_singleton.1 source⟩
        rw [Option.map_some, if_neg begun]
    · rfl
  · rw [equal]
    rfl

theorem job?_abandon_other (now : Instant) (reason : String) (different : other ≠ id) :
    (t.abandon now id reason).job? other = t.job? other := by
  rw [job?_abandon, job?_change_other different]

theorem job?_abandon_self (now : Instant) (reason : String) {job : Job} (found : t.job? id = some job)
    (created : job.status = .created) :
    (t.abandon now id reason).job? id = some (failed now reason job) := by
  rw [job?_abandon, job?_change_self found (List.mem_singleton.2 created)]

theorem advances_abandon (now : Instant) (reason : String) {job : Job}
    (found : t.job? other = some job) :
    ∃ later, (t.abandon now id reason).job? other = some later ∧ job.Advances later := by
  rw [job?_abandon]
  refine advances_change found fun job source => advances_failed now reason job ?_
  exact List.mem_cons.2 (.inl (List.mem_singleton.1 source))

variable {now : Instant} {new : NewJob}

/-- The table after a job was recorded. -/
def recorded (now : Instant) (new : NewJob) (t : JobTable) : JobTable where
  jobs := Assoc.renew new.id (Job.fresh new.id new.type new.client new.imageIds now) t.jobs
  fingerprints := t.fingerprints ++ [(new.fingerprint, new.id)]

theorem create_taken {existing : JobId} (taken : t.fingerprints.lookup new.fingerprint = some existing) :
    t.create now new = (.existing existing, t) := by
  simp [create, taken]

theorem create_free (free : t.fingerprints.lookup new.fingerprint = none) :
    t.create now new = (.created, t.recorded now new) := by
  simp [create, free, recorded]

@[simp] theorem job?_recorded :
    (t.recorded now new).job? other =
      if other = new.id then some (Job.fresh new.id new.type new.client new.imageIds now)
      else t.job? other := by
  simp only [recorded, job?, Assoc.lookup_renew]

theorem lookup_recorded (free : t.fingerprints.lookup new.fingerprint = none) (fingerprint : String) :
    (t.recorded now new).fingerprints.lookup fingerprint =
      if fingerprint = new.fingerprint then some new.id else t.fingerprints.lookup fingerprint := by
  simp only [recorded, List.lookup_append, Assoc.lookup_cons, List.lookup_nil]
  by_cases same : fingerprint = new.fingerprint
  · simp [same, free]
  · simp [same]

end Memory.JobTable

end Vetting
