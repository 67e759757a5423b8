import Vetting.Proofs.Database.Row
import Vetting.Proofs.Opening

/-!
The store of jobs in memory stands in for the one on a database. A row of the table and a job of the
map say the same (`Tells`), and the fingerprints that are taken in memory are those of the rows, in
their order (`Mirrors`). Every call keeps that and comes out alike (`Mirrors.answered`), so a sequence
of calls does too (`answers_agree`). The two stores tell the time by clocks of their own, so the
moments in a job that was found are not compared, only whether there is one.
-/
namespace Vetting

/-- A call on a store of jobs. -/
inductive StoreCall
  | create (job : NewJob)
  | abandon (id : JobId) (reason : String)
  | start (id : JobId)
  | complete (id : JobId) (result : JobResult)
  | fail (id : JobId) (reason : String)
  | find (id : JobId) (type : JobType)

/-- What comes of a call on a store of jobs. -/
inductive StoreOutcome
  | creation (outcome : Creation)
  | abandonment
  | transition (outcome : Transition)
  | found (job : Option Job)

/-- A job with one moment in place of each of its own. -/
def Job.timed (moment : Instant) (job : Job) : Job :=
  { job with
    createdAt := moment
    processedAt := job.processedAt.map fun _ => moment
    completedAt := job.completedAt.map fun _ => moment
    failedAt := job.failedAt.map fun _ => moment }

/-- An outcome with one moment in place of each that it tells. -/
def StoreOutcome.timed (moment : Instant) : StoreOutcome → StoreOutcome
  | .found job => .found (job.map (Job.timed moment))
  | outcome => outcome

namespace StoreCall

/-- A call as services answer it. -/
def service : StoreCall → Service (Except StoreError StoreOutcome)
  | .create job => Except.map .creation <$> Service.create job
  | .abandon id reason => Except.map (fun _ => .abandonment) <$> Service.abandon id reason
  | .start id => Except.map .transition <$> Service.start id
  | .complete id result => Except.map .transition <$> Service.complete id result
  | .fail id reason => Except.map .transition <$> Service.fail id reason
  | .find id type => Except.map .found <$> Service.find id type

/-- A call as the statements that make it up. -/
def client : StoreCall → Database.Client (Except StoreError StoreOutcome)
  | .create job => Except.map .creation <$> Database.create job
  | .abandon id reason => Except.map (fun _ => .abandonment) <$> Database.abandon id reason
  | .start id => Except.map .transition <$> Database.start id
  | .complete id result => Except.map .transition <$> Database.complete id result
  | .fail id reason => Except.map .transition <$> Database.fail id reason
  | .find id type => Except.map .found <$> Database.find id type

/-- The id that a call asks to record. -/
def newId? : StoreCall → Option JobId
  | .create job => some job.id
  | _ => none

/-- The texts that a call hands to the store. -/
def texts : StoreCall → List String
  | .create job => [job.fingerprint]
  | .abandon _ reason | .fail _ reason => [reason]
  | .complete _ (.ocr d) =>
    [d.name, d.gender, d.dateOfBirth, d.idNumber, d.addressLine1, d.addressLine2, d.pincode]
  | .complete _ (.faceMatch _) | .start _ | .find .. => []

/-- What a caller owes a store: texts that can be kept, a score within its bounds, and a result of the
type of the job. -/
structure Proper (store : Memory.JobTable) (c : StoreCall) : Prop where
  texts : ∀ s ∈ c.texts, '\x00' ∉ s.toList
  score : ∀ id score, c = .complete id (.faceMatch score) → 1 ≤ score ∧ score ≤ 100
  type : ∀ id result, c = .complete id result → ∀ job ∈ store.job? id, result.jobType = job.type

end StoreCall

/-- What the services of a world answer to calls, one after another, each at its time. -/
def Memory.World.answers : List (Instant × StoreCall) → World →
    Option (List (Except StoreError StoreOutcome) × World)
  | [], w => some ([], w)
  | (now, c) :: rest, w => do
    let (answer, w) ← { w with now }.run c.service
    let (answers, w) ← answers rest w
    return (answer :: answers, w)

/-- Whether each of the calls on a world is proper when it is made. -/
def Memory.World.Proper : List (Instant × StoreCall) → World → Prop
  | [], _ => True
  | (now, c) :: rest, w =>
    c.Proper w.store ∧
      ∀ answer after, { w with now }.run c.service = some (answer, after) → after.Proper rest

/-- What the tables answer to calls, one after another, each at its time. -/
def Database.Tables.answers : List (Instant × StoreCall) → Tables →
    List (Except StoreError StoreOutcome) × Tables
  | [], t => ([], t)
  | (now, c) :: rest, t =>
    let (answer, t) := t.run now c.client
    let (answers, t) := answers rest t
    (answer :: answers, t)

namespace Database

private theorem plain_text {s : String} (plain : '\x00' ∉ s.toList) :
    (Value.text s).refusal? = none := by
  simp [Value.refusal?, holdsNul, plain]

@[simp] theorem plain_type (type : JobType) : (Value.text type.name).refusal? = none := by
  cases type <;> exact plain_text (by decide)

@[simp] theorem kept_find (id : JobId) (type : JobType) :
    (Statement.findJob id type).values.findSome? Value.refusal? = none := by
  simp only [Statement.values, List.findSome?, plain_type]
  rfl

namespace Tables

variable {now : Instant} {t after : Tables}

private theorem run_bind {α β : Type} {p : Client α} {f : α → Client β} {a : α} :
    ∀ {t : Tables}, t.run now p = (a, after) → t.run now (p.bind f) = after.run now (f a) := by
  induction p with
  | done b =>
    intro t first
    cases first
    rfl
  | call s next ih => exact fun {t} first => ih _ first

private theorem run_map {α β : Type} {f : α → β} {p : Client α} {a : α} (first : t.run now p = (a, after)) :
    t.run now (f <$> p) = (f a, after) := run_bind first

private theorem run_send {s : Statement} {row : s.Row} (kept : s.values.findSome? Value.refusal? = none)
    (carried : t.carryOut now s = (.ok row, after)) : t.run now (send s) = (.ok row, after) := by
  rw [send, run, perform, kept]
  simp only [carried]
  rfl

private theorem run_outcome (id : JobId) (found : Bool) :
    t.run now (outcome id (.ok found)) =
      (.ok (if found then .applied
        else .skipped ((t.jobs.find? fun r => r.jobId = id).map Record.status)), t) := by
  cases found with
  | true => rfl
  | false =>
    refine (run_bind (p := send (.statusOf id)) (run_send rfl rfl)).trans ?_
    cases t.jobs.find? fun r => r.jobId = id with
    | none => rfl
    | some r =>
      simp only [Option.map_some, statusIn, required, bind, Except.bind, status_name]
      rfl

private theorem run_create_taken {job : NewJob} {r : Record}
    (kept : (Statement.insertJob job).values.findSome? Value.refusal? = none)
    (asked : (Statement.jobOfFingerprint job.fingerprint).values.findSome? Value.refusal? = none)
    (taken : (t.jobs.find? fun r => r.fingerprint = some job.fingerprint) = some r) :
    t.run now (Database.create job) = (.ok (.existing r.jobId), t) := by
  have any : (t.jobs.any fun r => r.fingerprint = some job.fingerprint) = true := by
    rw [List.any_eq_true]
    exact ⟨r, List.mem_of_find?_eq_some taken,
      List.find?_some (p := fun r : Record => decide (r.fingerprint = some job.fingerprint)) taken⟩
  have inserted : t.carryOut now (.insertJob job) = (.ok false, t) := by
    show t.insert now job = _
    rw [insert, if_pos any]
    rfl
  have told : t.carryOut now (.jobOfFingerprint job.fingerprint) = (.ok (some (some r.jobId)), t) := by
    rw [carryOut, taken]
    rfl
  exact (run_bind (run_send kept inserted)).trans ((run_bind (run_send asked told)).trans rfl)

private theorem run_create_free {job : NewJob}
    (kept : (Statement.insertJob job).values.findSome? Value.refusal? = none)
    (free : (t.jobs.find? fun r => r.fingerprint = some job.fingerprint) = none)
    (new : job.id ∉ t.jobs.map Record.jobId) :
    t.run now (Database.create job) = (.ok .created, { t with jobs := t.jobs ++ [.ofNew now job] }) := by
  have unheld : ¬ (t.jobs.any fun r => r.fingerprint = some job.fingerprint) = true := by
    rw [Bool.not_eq_true, List.any_eq_false]
    exact List.find?_eq_none.1 free
  have unused : ¬ (t.jobs.any fun r => r.jobId = job.id) = true := by
    rw [Bool.not_eq_true, List.any_eq_false]
    intro r mem
    simpa using fun same : r.jobId = job.id => new (same ▸ List.mem_map_of_mem mem)
  have inserted : t.carryOut now (.insertJob job) =
      (.ok true, { t with jobs := t.jobs ++ [.ofNew now job] }) := by
    show t.insert now job = _
    rw [insert, if_neg unheld, if_neg unused]
    rfl
  exact (run_bind (run_send kept inserted)).trans rfl

private theorem complete_scored {id : JobId} {score : Option Int} {details : Option Json.Tree}
    (scored : isScore score = true) :
    t.complete now id score details =
      (.ok (t.update id [.processing] fun r => { r with
          status := .completed, completedAt := some now, matchScore := score, ocrDetails := details }).1,
        (t.update id [.processing] fun r => { r with
          status := .completed, completedAt := some now, matchScore := score, ocrDetails := details }).2) := by
  simp [complete, scored]

private theorem run_find {id : JobId} {type : JobType} {r : Record} {job : Job}
    (found : (t.jobs.find? fun r => r.jobId = id && r.type = type) = some r)
    (read : r.row.toJob type = .ok job) : t.run now (Database.find id type) = (.ok (some job), t) := by
  have told : t.carryOut now (.findJob id type) = (.ok (some r.row), t) := by
    rw [carryOut, found]
    rfl
  refine (run_bind (run_send (kept_find id type) told)).trans ?_
  simp only [read]
  rfl

private theorem run_find_absent {id : JobId} {type : JobType}
    (absent : (t.jobs.find? fun r => r.jobId = id && r.type = type) = none) :
    t.run now (Database.find id type) = (.ok none, t) := by
  have told : t.carryOut now (.findJob id type) = (.ok none, t) := by
    rw [carryOut, absent]
    rfl
  exact (run_bind (run_send (kept_find id type) told)).trans rfl

end Tables

/-! ## Records and jobs -/

/-- A record and a job under a key that say the same. -/
structure Tells (r : Record) (entry : JobId × Job) : Prop where
  key : entry.1 = r.jobId
  id : entry.2.id = r.jobId
  type : entry.2.type = r.type
  client : entry.2.client = r.client
  imageIds : entry.2.imageIds = r.imageIds
  status : entry.2.status = r.status
  processed : entry.2.processedAt.isSome = r.processedAt.isSome
  completed : entry.2.completedAt.isSome = r.completedAt.isSome
  failed : entry.2.failedAt.isSome = r.failedAt.isSome
  reason : entry.2.failedReason = r.failedReason
  result : r.row.result r.status r.type = .ok entry.2.result

namespace Tells

variable {r : Record} {id : JobId} {job : Job}

private theorem fresh (now later : Instant) (new : NewJob) :
    Tells (.ofNew later new) (new.id, Job.fresh new.id new.type new.client new.imageIds now) :=
  ⟨rfl, rfl, rfl, rfl, rfl, rfl, rfl, rfl, rfl, rfl, rfl⟩

private theorem result_none (tells : Tells r (id, job)) (unfinished : job.status ≠ .completed) :
    job.result = none := by
  have read := tells.result
  rw [← tells.status, result_unfinished unfinished] at read
  exact (Except.ok.inj read).symm

private theorem started (tells : Tells r (id, job)) (now later : Instant)
    (unfinished : job.status ≠ .completed) :
    Tells { r with status := .processing, processedAt := some later }
      (id, { job with status := .processing, processedAt := some now }) :=
  { tells with
    status := rfl
    processed := rfl
    result := congrArg Except.ok (tells.result_none unfinished).symm }

private theorem ended (tells : Tells r (id, job)) (now later : Instant) (reason : String)
    (unfinished : job.status ≠ .completed) (fingerprint : Option String) :
    Tells { Tables.failed later reason r with fingerprint } (id, Memory.JobTable.failed now reason job) :=
  { tells with
    status := rfl
    failed := rfl
    reason := rfl
    result := congrArg Except.ok (tells.result_none unfinished).symm }

private theorem finished (tells : Tells r (id, job)) (now later : Instant) {result : JobResult}
    (fits : result.jobType = job.type) :
    Tells { r with status := .completed, completedAt := some later
                   matchScore := (resultColumns result).1, ocrDetails := (resultColumns result).2 }
      (id, { job with status := .completed, completedAt := some now, result := some result }) :=
  { tells with
    status := rfl
    completed := rfl
    result := by
      rw [← fits.trans tells.type]
      exact result_columns result rfl }

/-- The job that is read from the row of a record is the job that says the same, but for its moments. -/
theorem toJob (tells : Tells r (id, job)) (moment : Instant) :
    (r.row.toJob r.type).map (Job.timed moment) = .ok (job.timed moment) := by
  have same : ∀ {a b : Option Instant}, a.isSome = b.isSome →
      b.map (fun _ => moment) = a.map fun _ => moment := by
    intro a b both
    cases a <;> cases b <;> first | rfl | cases both
  rw [toJob_row, tells.result]
  obtain ⟨key, type, client, imageIds, status, createdAt, processedAt, completedAt, failedAt,
    failedReason, result⟩ := job
  obtain ⟨rfl, rfl, rfl, rfl, rfl, rfl, processed, completed, failed, rfl, _⟩ := tells
  simp only [Except.map, Job.timed, same processed, same completed, same failed]

end Tells

section Lists

variable {rs : List Record} {js : List (JobId × Job)} {id : JobId}

private theorem keys_eq (tells : List.Forall₂ Tells rs js) : js.map Prod.fst = rs.map Record.jobId := by
  induction tells with
  | nil => rfl
  | cons tell _ ih => rw [List.map_cons, List.map_cons, tell.key, ih]

/-- A record and a job are found under the same ids. -/
theorem find_tells (tells : List.Forall₂ Tells rs js) (id : JobId) :
    ((rs.find? fun r => r.jobId = id) = none ∧ js.lookup id = none) ∨
      ∃ r job, (rs.find? fun r => r.jobId = id) = some r ∧ js.lookup id = some job ∧
        Tells r (id, job) := by
  induction tells with
  | nil => exact .inl ⟨rfl, rfl⟩
  | @cons r entry rs js tell _ ih =>
    obtain ⟨key, job⟩ := entry
    have keyed : key = r.jobId := tell.key
    rw [Assoc.lookup_cons, List.find?_cons]
    by_cases here : id = key
    · have found : decide (r.jobId = id) = true := by simp [here, keyed]
      rw [if_pos here, found]
      exact .inr ⟨r, job, rfl, rfl, here ▸ tell⟩
    · have passed : decide (r.jobId = id) = false := by simpa [keyed] using Ne.symm here
      rw [if_neg here, passed]
      exact ih

private theorem update_tells (tells : List.Forall₂ Tells rs js) (distinct : (rs.map Record.jobId).Nodup)
    {job : Job} (found : js.lookup id = some job) {sources : List JobStatus}
    (source : job.status ∈ sources) {change : Record → Record} {apply : Job → Job}
    (changed : ∀ r, Tells r (id, job) → Tells (change r) (id, apply job)) :
    List.Forall₂ Tells (rs.map fun r => if Tables.isAt id sources r then change r else r)
      (Assoc.put id (apply job) js) := by
  induction tells with
  | nil => cases found
  | @cons r entry rs js tell rest ih =>
    obtain ⟨key, other⟩ := entry
    have keyed : key = r.jobId := tell.key
    rw [List.map_cons, List.nodup_cons] at distinct
    rw [Assoc.lookup_cons] at found
    rw [List.map_cons, Assoc.put]
    by_cases here : key = id
    · subst here
      rw [if_pos rfl, Option.some.injEq] at found
      subst found
      have meets : Tables.isAt key sources r = true := by
        simp [Tables.isAt, ← keyed, ← tell.status, source]
      have others : ∀ r' ∈ rs, (if Tables.isAt key sources r' then change r' else r') = r' := by
        intro r' mem
        have different : r'.jobId ≠ key := fun same =>
          distinct.1 (List.mem_map.2 ⟨r', mem, same.trans keyed⟩)
        simp [Tables.isAt, different]
      rw [if_pos meets, if_pos rfl, List.map_congr_left others, List.map_id']
      exact .cons (changed r tell) rest
    · rw [if_neg (Ne.symm here)] at found
      have passed : Tables.isAt id sources r = false := by
        simp [Tables.isAt, ← keyed, here]
      rw [passed, if_neg here]
      exact .cons tell (ih distinct.2 found)

private theorem eq_of_found (distinct : (rs.map Record.jobId).Nodup) {r other : Record}
    (found : (rs.find? fun r => r.jobId = id) = some r) (mem : other ∈ rs) (same : other.jobId = id) :
    other = r := by
  have keyed : r.jobId = id := by
    simpa using List.find?_some (p := fun r : Record => decide (r.jobId = id)) found
  exact List.inj_on_of_nodup_map distinct mem (List.mem_of_find?_eq_some found) (same.trans keyed.symm)

/-- Of the records with an id there is one, so its type may as well be looked at afterwards. -/
theorem find?_typed (distinct : (rs.map Record.jobId).Nodup) (id : JobId) (type : JobType) :
    (rs.find? fun r => r.jobId = id && r.type = type) =
      (rs.find? fun r => r.jobId = id).filter fun r => r.type = type := by
  cases both : rs.find? fun r => r.jobId = id && r.type = type with
  | none =>
    have no := List.find?_eq_none.1 both
    cases found : rs.find? fun r => r.jobId = id with
    | none => rfl
    | some r =>
      have keyed : r.jobId = id := by
        simpa using List.find?_some (p := fun r : Record => decide (r.jobId = id)) found
      have other : r.type ≠ type := by
        simpa [keyed] using no r (List.mem_of_find?_eq_some found)
      simp [Option.filter_some, other]
  | some r =>
    obtain ⟨keyed, typed⟩ : r.jobId = id ∧ r.type = type := by
      simpa using List.find?_some
        (p := fun r : Record => decide (r.jobId = id) && decide (r.type = type)) both
    have mem := List.mem_of_find?_eq_some both
    cases found : rs.find? fun r => r.jobId = id with
    | none => exact absurd keyed (by simpa using List.find?_eq_none.1 found r mem)
    | some other =>
      obtain rfl := eq_of_found distinct found mem keyed
      simp [Option.filter_some, typed]

end Lists

/-- Tables and a store in memory that say the same. -/
structure Mirrors (t : Tables) (m : Memory.JobTable) : Prop where
  tells : List.Forall₂ Tells t.jobs m.jobs
  distinct : (t.jobs.map Record.jobId).Nodup
  taken : m.fingerprints = t.jobs.filterMap fun r => r.fingerprint.map fun held => (held, r.jobId)

namespace Mirrors

variable {t : Tables} {m : Memory.JobTable} {now later : Instant} {id : JobId}

private theorem empty : Mirrors .empty .empty := ⟨.nil, List.nodup_nil, rfl⟩

/-- A guarded change is applied to the record and to the job, or to neither. -/
theorem change_cases (mirrors : Mirrors t m) {sources : List JobStatus} {change : Record → Record}
    {apply : Job → Job}
    (changed : ∀ r, ∀ job ∈ m.job? id, Tells r (id, job) → job.status ∈ sources →
      Tells (change r) (id, apply job)) :
    (m.change id sources apply =
        (.skipped ((t.jobs.find? fun r => r.jobId = id).map Record.status), m) ∧
      t.update id sources change = (false, t)) ∨
    ((m.change id sources apply).1 = .applied ∧ (t.update id sources change).1 = true ∧
      List.Forall₂ Tells (t.update id sources change).2.jobs (m.change id sources apply).2.jobs ∧
      ∀ r ∈ t.jobs, r.jobId = id → r.status ∈ sources) := by
  have idle : (∀ r ∈ t.jobs, Tables.isAt id sources r = false) →
      t.update id sources change = (false, t) := by
    intro none
    have any : t.jobs.any (Tables.isAt id sources) = false := by
      rw [List.any_eq_false]
      intro r mem
      rw [none r mem]
      exact Bool.false_ne_true
    have same : ∀ r ∈ t.jobs, (if Tables.isAt id sources r then change r else r) = r := by
      intro r mem
      rw [none r mem]
      rfl
    rw [Tables.update, any, List.map_congr_left same, List.map_id']
  rcases find_tells mirrors.tells id with ⟨absent, missing⟩ | ⟨r, job, found, held, tell⟩
  · refine .inl ⟨?_, idle fun r mem => ?_⟩
    · rw [Memory.JobTable.change, Memory.JobTable.job?, missing, absent]
      rfl
    · have different := List.find?_eq_none.1 absent r mem
      simp only [decide_eq_true_eq] at different
      simp [Tables.isAt, different]
  · have status : job.status = r.status := tell.status
    have others : ∀ other ∈ t.jobs, other.jobId = id → other = r :=
      fun other mem same => eq_of_found mirrors.distinct found mem same
    by_cases source : job.status ∈ sources
    · refine .inr ⟨?_, ?_, ?_, ?_⟩
      · simp [Memory.JobTable.change, Memory.JobTable.job?, held, source]
      · rw [Tables.update, List.any_eq_true]
        refine ⟨r, List.mem_of_find?_eq_some found, ?_⟩
        simp [Tables.isAt, ← status, source, ← tell.key]
      · have applied : (m.change id sources apply).2.jobs = Assoc.put id (apply job) m.jobs := by
          simp [Memory.JobTable.change, Memory.JobTable.job?, held, source]
        rw [applied]
        exact update_tells mirrors.tells mirrors.distinct held source fun r tell =>
          changed r job held tell source
      · intro other mem same
        rw [others other mem same, ← status]
        exact source
    · rw [status] at source
      refine .inl ⟨?_, idle fun other mem => ?_⟩
      · simp [Memory.JobTable.change, Memory.JobTable.job?, held, source, found, status]
      · by_cases same : other.jobId = id
        · obtain rfl := others other mem same
          simp [Tables.isAt, source]
        · simp [Tables.isAt, same]

private theorem ids_update {sources : List JobStatus} {change : Record → Record}
    (keeps : ∀ r, (change r).jobId = r.jobId) :
    (t.update id sources change).2.jobs.map Record.jobId = t.jobs.map Record.jobId := by
  rw [Tables.update, List.map_map]
  refine List.map_congr_left fun r _ => ?_
  simp only [Function.comp_apply]
  split
  · exact keeps r
  · rfl

/-- A program on the tables comes out as a step of the store in memory does, the tables then say what
the store says, and no job comes in but a new one. -/
def Follows {α : Type} (now : Instant) (t : Tables) (p : Client (Except StoreError α))
    (step : α × Memory.JobTable) (new : Option JobId) : Prop :=
  ∃ after, t.run now p = (.ok step.1, after) ∧ Mirrors after step.2 ∧
    ∀ id ∈ after.jobs.map Record.jobId, id ∈ t.jobs.map Record.jobId ∨ new = some id

/-- A step of a job comes out alike: the answer is told by the rows after the step. -/
theorem guarded (mirrors : Mirrors t m) {p : Client (Except StoreError Bool)}
    {sources : List JobStatus} {change : Record → Record} {apply : Job → Job}
    (sent : t.run now p = (.ok (t.update id sources change).1, (t.update id sources change).2))
    (keeps : ∀ r, (change r).jobId = r.jobId ∧ (change r).fingerprint = r.fingerprint)
    (changed : ∀ r, ∀ job ∈ m.job? id, Tells r (id, job) → job.status ∈ sources →
      Tells (change r) (id, apply job)) :
    Follows now t (p.bind (outcome id)) (m.change id sources apply) none := by
  have ids : (t.update id sources change).2.jobs.map Record.jobId = t.jobs.map Record.jobId :=
    ids_update fun r => (keeps r).1
  refine ⟨_, (Tables.run_bind sent).trans ?_, ?_, fun other mem => .inl (ids ▸ mem)⟩
  · rcases mirrors.change_cases changed with ⟨skips, idle⟩ | ⟨applied, found, _, _⟩
    · rw [Tables.run_outcome, skips, idle]
      rfl
    · rw [Tables.run_outcome, found, applied, if_pos rfl]
  · rcases mirrors.change_cases changed with ⟨skips, idle⟩ | ⟨_, _, tells, _⟩
    · rw [skips, idle]
      exact mirrors
    · refine ⟨tells, ids ▸ mirrors.distinct, ?_⟩
      rw [Memory.JobTable.fingerprints_change, mirrors.taken, Tables.update, List.filterMap_map]
      refine List.filterMap_congr fun r _ => ?_
      simp only [Function.comp_apply]
      split
      · rw [(keeps r).1, (keeps r).2]
      · rfl

/-! ## The calls -/

private theorem plain_columns {result : JobResult}
    (plain : ∀ s ∈ (StoreCall.complete id result).texts, '\x00' ∉ s.toList) :
    (Statement.complete id (resultColumns result).1 (resultColumns result).2).values.findSome?
      Value.refusal? = none := by
  cases result with
  | faceMatch score => rfl
  | ocr d =>
    have texts : (OcrDetails.codec.toTree d).texts.any holdsNul = false := by
      rw [toTree_details]
      simpa [Json.Tree.texts, Json.Tree.textsOfMembers, holdsNul, StoreCall.texts] using plain
    simp only [resultColumns, Statement.values, List.findSome?, Value.refusal?, texts]
    rfl

private theorem start (mirrors : Mirrors t m) :
    Follows now t (Database.start id) (m.start later id) none := by
  refine mirrors.guarded (Tables.run_send rfl rfl) (fun r => ⟨rfl, rfl⟩) ?_
  intro r job found tells source
  exact tells.started later now (by rintro done; simp [done] at source)

private theorem fail (mirrors : Mirrors t m) {reason : String} (plain : '\x00' ∉ reason.toList) :
    Follows now t (Database.fail id reason) (m.fail later id reason) none := by
  have kept : (Statement.fail id reason).values.findSome? Value.refusal? = none := by
    simp only [Statement.values, List.findSome?, plain_text plain]
    rfl
  refine mirrors.guarded (Tables.run_send kept rfl) (fun r => ⟨rfl, rfl⟩) ?_
  intro r job found tells source
  exact tells.ended later now reason (by rintro done; simp [done] at source) r.fingerprint

private theorem complete (mirrors : Mirrors t m) {result : JobResult}
    (proper : (StoreCall.complete id result).Proper m) :
    Follows now t (Database.complete id result) (m.complete later id result) none := by
  have scored : Tables.isScore (resultColumns result).1 = true := by
    cases result with
    | faceMatch score => simpa [resultColumns, Tables.isScore] using proper.score id score rfl
    | ocr d => rfl
  refine mirrors.guarded (Tables.run_send (plain_columns proper.texts) (Tables.complete_scored scored))
    (fun r => ⟨rfl, rfl⟩) ?_
  intro r job found tells source
  exact tells.finished later now (proper.type id result rfl job found)

private theorem abandon (mirrors : Mirrors t m) {reason : String} (plain : '\x00' ∉ reason.toList) :
    Follows now t (Database.abandon id reason) ((), m.abandon later id reason) none := by
  have kept : (Statement.abandon id reason).values.findSome? Value.refusal? = none := by
    simp only [Statement.values, List.findSome?, plain_text plain]
    rfl
  have sent : t.run now (Database.abandon id reason) = (.ok (), _) := Tables.run_send kept rfl
  have ids : (t.update id [.created] fun r =>
      { Tables.failed now reason r with fingerprint := none }).2.jobs.map Record.jobId =
        t.jobs.map Record.jobId := ids_update fun r => rfl
  refine ⟨_, sent, ?_, fun other mem => .inl (ids ▸ mem)⟩
  have changed : ∀ r, ∀ job ∈ m.job? id, Tells r (id, job) → job.status ∈ [.created] →
      Tells { Tables.failed now reason r with fingerprint := none }
        (id, Memory.JobTable.failed later reason job) := by
    intro r job _ tells source
    exact tells.ended later now reason (by rintro done; simp [done] at source) none
  rcases mirrors.change_cases changed with ⟨skips, idle⟩ | ⟨applied, _, tells, started⟩
  · rw [idle, Memory.JobTable.abandon, skips]
    exact mirrors
  · have abandoned : m.abandon later id reason =
        { jobs := (m.change id [.created] (Memory.JobTable.failed later reason)).2.jobs
          fingerprints := m.fingerprints.filter fun pair => pair.2 ≠ id } := by
      rw [Memory.JobTable.abandon,
        show m.change id [.created] (Memory.JobTable.failed later reason) = (.applied, _) from
          Prod.ext applied rfl]
      simp only [Memory.JobTable.fingerprints_change]
    rw [abandoned]
    refine ⟨tells, ids ▸ mirrors.distinct, ?_⟩
    simp only [mirrors.taken, Tables.update, List.filterMap_map, List.filter_filterMap]
    refine List.filterMap_congr fun r mem => ?_
    simp only [Function.comp_apply]
    by_cases same : r.jobId = id
    · have meets : Tables.isAt id [.created] r = true := by
        simpa [Tables.isAt, same] using started r mem same
      cases r.fingerprint <;> simp [meets, same]
    · have passed : Tables.isAt id [.created] r = false := by simp [Tables.isAt, same]
      cases held : r.fingerprint <;> simp [held, passed, same]

private theorem lookup_taken (mirrors : Mirrors t m) (fingerprint : String) :
    m.fingerprints.lookup fingerprint =
      (t.jobs.find? fun r => r.fingerprint = some fingerprint).map Record.jobId := by
  rw [mirrors.taken]
  induction t.jobs with
  | nil => rfl
  | cons r rest ih =>
    rw [List.find?_cons]
    cases held : r.fingerprint with
    | none => simpa [held] using ih
    | some other =>
      simp only [List.filterMap_cons, held, Option.map_some, Assoc.lookup_cons]
      by_cases same : fingerprint = other
      · simp [same]
      · simpa [same, Ne.symm same] using ih

private theorem create (mirrors : Mirrors t m) {new : NewJob} (plain : '\x00' ∉ new.fingerprint.toList)
    (unused : new.id ∉ t.jobs.map Record.jobId) :
    Follows now t (Database.create new) (m.create later new) (some new.id) := by
  have kept : (Statement.insertJob new).values.findSome? Value.refusal? = none := by
    simp only [Statement.values, List.findSome?, plain_text plain, plain_type]
    rfl
  have asked : (Statement.jobOfFingerprint new.fingerprint).values.findSome? Value.refusal? = none := by
    simp only [Statement.values, List.findSome?, plain_text plain]
  have held := mirrors.lookup_taken new.fingerprint
  cases found : t.jobs.find? fun r => r.fingerprint = some new.fingerprint with
  | some r =>
    rw [found] at held
    rw [Memory.JobTable.create_taken held]
    exact ⟨t, Tables.run_create_taken kept asked found, mirrors, fun id mem => .inl mem⟩
  | none =>
    rw [found] at held
    rw [Memory.JobTable.create_free held]
    refine ⟨_, Tables.run_create_free kept found unused, ⟨?_, ?_, ?_⟩, ?_⟩
    · have others : Assoc.drop new.id m.jobs = m.jobs := Assoc.drop_eq_self fun pair mem same => by
        have key : pair.1 ∈ m.jobs.map Prod.fst := List.mem_map_of_mem mem
        exact unused (keys_eq mirrors.tells ▸ same ▸ key)
      simp only [Memory.JobTable.recorded, Assoc.renew, others]
      exact List.rel_append mirrors.tells (.cons (.fresh later now new) .nil)
    · rw [List.map_append, List.nodup_append]
      refine ⟨mirrors.distinct, by simp, ?_⟩
      rintro id old _ fresh rfl
      obtain rfl := List.mem_singleton.1 fresh
      exact unused old
    · rw [List.filterMap_append, ← mirrors.taken]
      rfl
    · intro id mem
      rw [List.map_append, List.mem_append] at mem
      refine mem.imp_right fun fresh => ?_
      rw [List.mem_singleton.1 fresh]
      rfl

/-- A search finds the same job, but for its moments. -/
theorem find (mirrors : Mirrors t m) (type : JobType) (moment : Instant) :
    ∃ found, t.run now (Database.find id type) = (.ok found, t) ∧
      found.map (Job.timed moment) = (m.find id type).map (Job.timed moment) := by
  have both := find?_typed mirrors.distinct id type
  rcases find_tells mirrors.tells id with ⟨absent, missing⟩ | ⟨r, job, found, held, tell⟩
  · rw [absent, Option.filter_none] at both
    refine ⟨none, Tables.run_find_absent both, ?_⟩
    rw [Memory.JobTable.find, Memory.JobTable.job?, missing]
    rfl
  · rw [found, Option.filter_some] at both
    rw [Memory.JobTable.find, Memory.JobTable.job?, held, Option.filter_some, tell.type]
    by_cases same : r.type = type
    · subst same
      obtain ⟨read, decoded, alike⟩ : ∃ read, r.row.toJob r.type = .ok read ∧
          read.timed moment = job.timed moment := by
        have told := tell.toJob moment
        cases decoded : r.row.toJob r.type with
        | error e =>
          rw [decoded] at told
          cases told
        | ok read =>
          rw [decoded] at told
          exact ⟨read, rfl, Except.ok.inj told⟩
      simp only [decide_true, ↓reduceIte] at both ⊢
      exact ⟨some read, Tables.run_find both decoded, congrArg some alike⟩
    · simp only [same, decide_false, Bool.false_eq_true, ↓reduceIte] at both ⊢
      exact ⟨none, Tables.run_find_absent both, rfl⟩

/-- One call comes out alike, and then the tables say what the store in memory says. -/
theorem answered (now : Instant) {w : Memory.World} {c : StoreCall} (mirrors : Mirrors t w.store)
    (steady : w.faults = fun _ => false) (rows : w.rows = []) (proper : c.Proper w.store)
    (unused : ∀ id, c.newId? = some id → id ∉ t.jobs.map Record.jobId) (moment : Instant) :
    ∃ outcome alike store after,
      w.run c.service = some (.ok outcome, { w with store }) ∧
      t.run now c.client = (.ok alike, after) ∧ alike.timed moment = outcome.timed moment ∧
      Mirrors after store ∧
      ∀ id ∈ after.jobs.map Record.jobId, id ∈ t.jobs.map Record.jobId ∨ c.newId? = some id := by
  cases c with
  | create new =>
    obtain ⟨after, ran, mirrored, ids⟩ :
        Follows now t (Database.create new) (w.store.create w.now new) (some new.id) :=
      mirrors.create (proper.texts _ (List.mem_singleton.2 rfl)) (unused _ rfl)
    refine ⟨_, _, _, after, ?_, Tables.run_map ran, rfl, mirrored, ids⟩
    show some ((w.create new).1.map _, (w.create new).2) = _
    simp only [Memory.World.create, steady]
    rfl
  | abandon id reason =>
    obtain ⟨after, ran, mirrored, ids⟩ :
        Follows now t (Database.abandon id reason) ((), w.store.abandon w.now id reason) none :=
      mirrors.abandon (proper.texts _ (List.mem_singleton.2 rfl))
    refine ⟨_, _, _, after, ?_, Tables.run_map ran, rfl, mirrored, ids⟩
    show some ((w.abandon id reason).1.map _, (w.abandon id reason).2) = _
    simp only [Memory.World.abandon, steady]
    rfl
  | start id =>
    obtain ⟨after, ran, mirrored, ids⟩ :
        Follows now t (Database.start id) (w.store.start w.now id) none := mirrors.start
    refine ⟨_, _, _, after, ?_, Tables.run_map ran, rfl, mirrored, ids⟩
    show some ((w.start id).1.map _, (w.start id).2) = _
    simp only [Memory.World.start, Memory.World.stored, steady]
    rfl
  | complete id result =>
    obtain ⟨after, ran, mirrored, ids⟩ :
        Follows now t (Database.complete id result) (w.store.complete w.now id result) none :=
      mirrors.complete proper
    refine ⟨_, _, _, after, ?_, Tables.run_map ran, rfl, mirrored, ids⟩
    show some ((w.complete id result).1.map _, (w.complete id result).2) = _
    simp only [Memory.World.complete, Memory.World.stored, steady]
    rfl
  | fail id reason =>
    obtain ⟨after, ran, mirrored, ids⟩ :
        Follows now t (Database.fail id reason) (w.store.fail w.now id reason) none :=
      mirrors.fail (proper.texts _ (List.mem_singleton.2 rfl))
    refine ⟨_, _, _, after, ?_, Tables.run_map ran, rfl, mirrored, ids⟩
    show some ((w.fail id reason).1.map _, (w.fail id reason).2) = _
    simp only [Memory.World.fail, Memory.World.stored, steady]
    rfl
  | find id type =>
    obtain ⟨found, ran, alike⟩ : ∃ found, t.run now (Database.find id type) = (.ok found, t) ∧
        found.map (Job.timed moment) = (w.store.find id type).map (Job.timed moment) :=
      mirrors.find type moment
    refine ⟨.found (w.store.find id type), .found found, w.store, t, ?_, Tables.run_map ran,
      congrArg StoreOutcome.found alike, mirrors, fun id mem => .inl mem⟩
    have finds : w.find id type = .ok (w.store.find id type) := by
      simp [Memory.World.find, steady, rows]
    show some ((w.find id type).map _, w) = _
    rw [finds]
    rfl

private theorem answers {inMemory inDatabase : List (Instant × StoreCall)}
    (same : inMemory.map Prod.snd = inDatabase.map Prod.snd)
    (distinct : ((inMemory.map Prod.snd).filterMap StoreCall.newId?).Nodup) (moment : Instant) :
    ∀ {w : Memory.World} {t : Tables}, Mirrors t w.store → w.faults = (fun _ => false) → w.rows = [] →
      w.Proper inMemory →
      (∀ id ∈ t.jobs.map Record.jobId, id ∉ (inMemory.map Prod.snd).filterMap StoreCall.newId?) →
      ∃ (outcomes : List StoreOutcome) (after : Memory.World),
        w.answers inMemory = some (outcomes.map .ok, after) ∧
        (t.answers inDatabase).1.map (Except.map (StoreOutcome.timed moment)) =
          outcomes.map fun outcome => .ok (outcome.timed moment) := by
  induction inMemory generalizing inDatabase with
  | nil =>
    intro w t _ _ _ _ _
    obtain rfl := List.map_eq_nil_iff.1 same.symm
    exact ⟨[], w, rfl, rfl⟩
  | cons first rest ih =>
    obtain ⟨later, c⟩ := first
    intro w t mirrors steady rows proper unused
    obtain ⟨⟨now, c⟩, others, rfl, rfl, rest_same⟩ := List.map_eq_cons_iff.1 same.symm
    have split : ((((later, c) :: rest).map Prod.snd).filterMap StoreCall.newId?) =
        c.newId?.toList ++ (rest.map Prod.snd).filterMap StoreCall.newId? := by
      rw [List.map_cons, List.filterMap_cons]
      cases c.newId? <;> rfl
    rw [split, List.nodup_append] at distinct
    simp only [split, List.mem_append, Option.mem_toList, not_or] at unused
    obtain ⟨outcome, alike, store, after, ran, sent, equal, mirrored, ids⟩ :=
      mirrors.answered now (w := { w with now := later }) steady rows proper.1
        (fun id new old => (unused id old).1 new) moment
    have later_unused : ∀ id ∈ after.jobs.map Record.jobId,
        id ∉ (rest.map Prod.snd).filterMap StoreCall.newId? := by
      intro id mem again
      rcases ids id mem with old | new
      · exact (unused id old).2 again
      · exact distinct.2.2 id (Option.mem_toList.2 new) id again rfl
    obtain ⟨outcomes, last, answered, agree⟩ :=
      ih rest_same.symm distinct.2.1 (w := { w with now := later, store }) mirrored steady rows
        (proper.2 _ _ ran) later_unused
    refine ⟨outcome :: outcomes, last, ?_, ?_⟩
    · simp only [Memory.World.answers, ran, answered, Option.bind_eq_bind, Option.bind_some]
      rfl
    · simp only [Tables.answers, sent]
      rw [List.map_cons, List.map_cons, agree]
      exact congrArg (· :: _) (congrArg Except.ok equal)

end Mirrors

end Database

/-- From an empty table and an empty map, calls that are proper and never use an id again come out alike
in the database and in memory: none fails, and each has the same outcome, up to the moments in a job
that was found. -/
theorem Memory.World.answers_agree (executors : Executors) (opening : Instant)
    (inMemory inDatabase : List (Instant × StoreCall))
    (same : inMemory.map Prod.snd = inDatabase.map Prod.snd)
    (distinct : ((inMemory.map Prod.snd).filterMap StoreCall.newId?).Nodup)
    (proper : (World.empty executors opening).Proper inMemory) (moment : Instant) :
    ∃ (outcomes : List StoreOutcome) (after : World),
      (World.empty executors opening).answers inMemory = some (outcomes.map .ok, after) ∧
        (Database.Tables.empty.answers inDatabase).1.map (Except.map (StoreOutcome.timed moment)) =
          outcomes.map fun outcome => .ok (outcome.timed moment) :=
  Database.Mirrors.answers same distinct moment .empty rfl rfl proper (by simp [Database.Tables.empty])

private theorem Memory.World.Proper.cons {w after : World} {now : Instant} {c : StoreCall}
    {answer : Except StoreError StoreOutcome} {rest : List (Instant × StoreCall)}
    (proper : c.Proper w.store) (ran : { w with now }.run c.service = some (answer, after))
    (later : after.Proper rest) : w.Proper ((now, c) :: rest) := by
  refine ⟨proper, fun answer' after' ran' => ?_⟩
  obtain ⟨rfl, rfl⟩ := Prod.ext_iff.1 (Option.some.inj (ran.symm.trans ran'))
  exact later

/-- An hour of the day on which a card is read. -/
def cardHour (hour : Fin 24) : Instant :=
  { (Memory.Pool.deskWorld fun _ => false).now with hour, hour_lt := hour.isLt }

/-- The job of a card. -/
def cardJob (byte : UInt8) : JobId := (Memory.Pool.cardRequest byte).drawn

/-- A card is submitted twice, read once and found; a failure comes too late. -/
def cardCalls : List StoreCall :=
  [.create ⟨cardJob 1, .ocr, 1, [1], "card"⟩, .create ⟨cardJob 2, .ocr, 1, [1], "card"⟩,
    .start (cardJob 1), .complete (cardJob 1) (.ocr ⟨"A", "F", "1990", "7", "", "", "560001"⟩),
    .fail (cardJob 1) "too late", .find (cardJob 1) .ocr]

theorem Memory.World.answers_agree_card :
    ∃ (outcomes : List StoreOutcome) (after : World),
      (World.empty ⟨simulatedMatch .zero, simulatedRead .zero, none⟩ (cardHour 0)).answers
          (cardCalls.map ((cardHour 12, ·))) = some (outcomes.map .ok, after) ∧
        (Database.Tables.empty.answers (cardCalls.map ((cardHour 18, ·)))).1.map
            (Except.map (StoreOutcome.timed (cardHour 0))) =
          outcomes.map fun outcome => .ok (outcome.timed (cardHour 0)) := by
  refine answers_agree _ (cardHour 0) (cardCalls.map ((cardHour 12, ·)))
    (cardCalls.map ((cardHour 18, ·))) rfl (by decide) ?_ (cardHour 0)
  refine .cons ⟨by decide, nofun, nofun⟩ rfl ?_
  refine .cons ⟨by decide, nofun, nofun⟩ rfl ?_
  refine .cons ⟨by decide, nofun, nofun⟩ rfl ?_
  refine .cons ⟨by decide, nofun, ?_⟩ rfl ?_
  · rintro _ _ ⟨⟩ job found
    cases found
    rfl
  refine .cons ⟨by decide, nofun, nofun⟩ rfl ?_
  exact .cons ⟨by decide, nofun, nofun⟩ rfl trivial

end Vetting
