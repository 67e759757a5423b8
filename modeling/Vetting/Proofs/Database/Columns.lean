import Vetting.Proofs.Database.Row
import Vetting.Proofs.Models

/-!
The columns of a job, as they are written and as they are read (`columns_roundtrip`). A result is bound as a
score or as a document, never as both or neither (`resultColumns_one`), and reading undoes that. What any row
at all is read as is said column by column (`toJob_eq_ok_iff`): a column that must not be null, the status and,
of a completed row, the document of a result are what can go wrong, and a column that belongs to the other
type counts for nothing.
-/
namespace Vetting.Database

private theorem bind_eq_ok_iff {ε α β : Type} {x : Except ε α} {f : α → Except ε β} {b : β} :
    x >>= f = .ok b ↔ ∃ a, x = .ok a ∧ f a = .ok b := by
  cases x with
  | error e =>
    constructor
    · intro same
      cases same
    · rintro ⟨a, same, _⟩
      cases same
  | ok a =>
    constructor
    · intro same
      exact ⟨a, rfl, same⟩
    · rintro ⟨_, ⟨⟩, same⟩
      exact same

@[simp] theorem required_eq_ok_iff {α : Type} {column : String} {value : Option α} {a : α} :
    required column value = .ok a ↔ value = some a := by
  cases value with
  | none => simp [required]
  | some b => simp [required]

/-- A list of numbers is read if none of them is null. -/
theorem mapM_required_eq_ok_iff {column : String} {values : List (Option Int)} {numbers : List Int} :
    values.mapM (required column) = .ok numbers ↔ values = numbers.map some := by
  constructor
  · intro read
    induction values generalizing numbers with
    | nil =>
      cases read
      rfl
    | cons value values ih =>
      rw [List.mapM_cons, bind_eq_ok_iff] at read
      obtain ⟨number, first, read⟩ := read
      obtain ⟨rest, others, same⟩ := bind_eq_ok_iff.1 read
      cases same
      rw [List.map_cons, required_eq_ok_iff.1 first, ih others]
  · rintro rfl
    exact mapM_required column numbers

@[simp] theorem status_eq_ok_iff {name : String} {s : JobStatus} :
    Database.status name = .ok s ↔ name = s.name := by
  constructor
  · intro read
    rw [Database.status] at read
    split at read
    · next found =>
      cases read
      have named := List.find?_some found
      exact (of_decide_eq_true named).symm
    · cases read
  · rintro rfl
    exact status_name s

/-- A word that names no status is told as such. -/
theorem status_unknown {name : String} (unknown : ∀ s : JobStatus, name ≠ s.name) :
    Database.status name = .error (.decode ("unknown job status '" ++ name ++ "'")) := by
  have missing : JobStatus.ofName? name = none := by
    rw [JobStatus.ofName?, List.find?_eq_none]
    intro s _ same
    exact unknown s (of_decide_eq_true same).symm
  rw [Database.status, missing]

namespace JobRow

variable {row : JobRow} {type : JobType} {job : Job}

/-- What a row holds as the result of a job of a status and a type. -/
inductive Holds (row : JobRow) : JobStatus → JobType → Option JobResult → Prop
  | unfinished {status : JobStatus} {type : JobType} (going : status ≠ .completed) : Holds row status type none
  | score : Holds row .completed .faceMatch (row.matchScore.map .faceMatch)
  | noDetails (null : row.ocrDetails = none) : Holds row .completed .ocr none
  | details {document : Json.Tree} {d : OcrDetails} (kept : row.ocrDetails = some document)
    (read : details document = .ok d) : Holds row .completed .ocr (some (.ocr d))

private theorem result_eq_ok_iff {status : JobStatus} {result : Option JobResult} :
    row.result status type = .ok result ↔ row.Holds status type result := by
  constructor
  · intro read
    by_cases done : status = .completed
    · subst done
      cases type with
      | faceMatch =>
        cases read
        exact .score
      | ocr =>
        cases kept : row.ocrDetails with
        | none =>
          rw [JobRow.result, kept] at read
          cases read
          exact .noDetails kept
        | some document =>
          rw [JobRow.result, kept] at read
          cases found : Database.details document with
          | error e =>
            simp only [found] at read
            cases read
          | ok d =>
            simp only [found] at read
            cases read
            exact .details kept found
    · rw [result_unfinished done] at read
      cases read
      exact .unfinished done
  · intro holds
    cases holds with
    | unfinished unfinished => exact result_unfinished unfinished type
    | score => rfl
    | noDetails null => rw [JobRow.result, null]
    | details kept read =>
      rw [JobRow.result, kept]
      simp only [read]
      rfl

/-- A result that a row holds is that of a completed job, and of the job's type. -/
theorem Holds.completed {status : JobStatus} {r : JobResult} (holds : row.Holds status type (some r)) :
    status = .completed ∧ r.jobType = type := by
  generalize found : some r = result at holds
  cases holds with
  | unfinished _ => cases found
  | score =>
    obtain ⟨score, _, rfl⟩ := Option.map_eq_some_iff.1 found.symm
    exact ⟨rfl, rfl⟩
  | noDetails _ => cases found
  | details _ _ =>
    cases found
    exact ⟨rfl, rfl⟩

/-- What a row tells of a job: every column but that of the result, and what it holds as the result. -/
structure Tells (row : JobRow) (job : Job) : Prop where
  id : row.jobId = some job.id
  client : row.client = some job.client
  imageIds : row.imageIds = some (job.imageIds.map some)
  status : row.status = some job.status.name
  createdAt : row.createdAt = some job.createdAt
  processedAt : row.processedAt = job.processedAt
  completedAt : row.completedAt = job.completedAt
  failedAt : row.failedAt = job.failedAt
  failedReason : row.failedReason = job.failedReason
  result : row.Holds job.status job.type job.result

/-- A row is read as the job that it tells of, and as nothing else. -/
theorem toJob_eq_ok_iff : row.toJob type = .ok job ↔ job.type = type ∧ row.Tells job := by
  simp only [toJob, bind_eq_ok_iff, required_eq_ok_iff, status_eq_ok_iff, mapM_required_eq_ok_iff, result_eq_ok_iff]
  constructor
  · rintro ⟨_, named, status, rfl, result, holds, id, known, client, owned, _, listed, images, rfl,
      createdAt, made, same⟩
    cases same
    exact ⟨rfl, ⟨known, owned, listed, named, made, rfl, rfl, rfl, rfl, holds⟩⟩
  · rintro ⟨rfl, tells⟩
    refine ⟨_, tells.status, _, rfl, _, tells.result, _, tells.id, _, tells.client, _, tells.imageIds, _, rfl, _,
      tells.createdAt, ?_⟩
    rw [tells.processedAt, tells.completedAt, tells.failedAt, tells.failedReason]
    rfl

/-- Whether no column of a row is null that must not be, as in every row of the table (`Record.row`). -/
structure Filled (row : JobRow) : Prop where
  id : ∃ id, row.jobId = some id
  client : ∃ client, row.client = some client
  imageIds : ∃ numbers : List Int, row.imageIds = some (numbers.map some)
  createdAt : ∃ moment, row.createdAt = some moment

/-- A completed row that holds the columns of a result tells of a job with that result. -/
theorem toJob_completed (filled : row.Filled) (completed : row.status = some "completed") {r : JobResult}
    (written : (row.matchScore, row.ocrDetails) = resultColumns r) :
    ∃ job, row.toJob r.jobType = .ok job ∧ job.result = some r := by
  obtain ⟨⟨id, known⟩, ⟨client, owned⟩, ⟨numbers, listed⟩, ⟨moment, made⟩⟩ := filled
  refine ⟨⟨id, r.jobType, client, numbers, .completed, moment, row.processedAt, row.completedAt, row.failedAt,
    row.failedReason, some r⟩, ?_, rfl⟩
  rw [toJob_eq_ok_iff]
  have holds := result_eq_ok_iff.1 (result_columns r written)
  exact ⟨rfl, ⟨known, owned, listed, completed, made, rfl, rfl, rfl, rfl, holds⟩⟩

private theorem toJob_of_unknown {text : String} (told : row.status = some text)
    (unknown : ∀ s : JobStatus, text ≠ s.name) :
    row.toJob type = .error (.decode ("unknown job status '" ++ text ++ "'")) := by
  rw [toJob, told]
  simp only [required, bind, Except.bind, status_unknown unknown]

end JobRow

/-- One of the two columns of a result is null, and the other one is not. -/
theorem resultColumns_one (r : JobResult) : (resultColumns r).1 = none ↔ (resultColumns r).2 ≠ none := by
  cases r with
  | faceMatch score => simp [resultColumns]
  | ocr d => simp [resultColumns]

/-- What is sent for a completed job are a score or a document, and never both or neither, and a completed row of
the result's type that holds them is read as a job with that result. Whatever a row holds, it is read as a job
of the type that is asked for, if at all, and a result in it is that of a completed row and of that type; a
status that is none of the four, or null, is not read. -/
theorem columns_roundtrip :
    (∀ id r, ∃ score details next, complete id r = .call (.complete id score details) next ∧
      (score = none ↔ details ≠ none) ∧
      ∀ row : JobRow, row.Filled → row.status = some "completed" → row.matchScore = score →
        row.ocrDetails = details → ∃ job, row.toJob r.jobType = .ok job ∧ job.result = some r) ∧
    (∀ (row : JobRow) type job, row.toJob type = .ok job →
      job.type = type ∧ ∀ r, job.result = some r →
        row.status = some "completed" ∧ job.status = .completed ∧ r.jobType = type) ∧
    ∀ (row : JobRow) type,
      (∀ text, row.status = some text → text ∉ ["created", "processing", "completed", "failed"] →
        row.toJob type = .error (.decode ("unknown job status '" ++ text ++ "'"))) ∧
      (row.status = none → ∃ e, row.toJob type = .error e) := by
  refine ⟨?_, ?_, ?_⟩
  · intro id r
    refine ⟨(resultColumns r).1, (resultColumns r).2, _, rfl, resultColumns_one r, ?_⟩
    intro row filled completed score details
    exact JobRow.toJob_completed filled completed (Prod.ext score details)
  · intro row type job read
    obtain ⟨rfl, tells⟩ := JobRow.toJob_eq_ok_iff.1 read
    refine ⟨rfl, ?_⟩
    intro r found
    have holds := tells.result
    rw [found] at holds
    obtain ⟨completed, typed⟩ := holds.completed
    have told := tells.status
    rw [completed] at told
    exact ⟨told, completed, typed⟩
  · intro row type
    constructor
    · intro text told unknown
      refine JobRow.toJob_of_unknown told ?_
      rintro s rfl
      cases s <;> simp [JobStatus.name] at unknown
    · intro null
      rw [JobRow.toJob, null]
      exact ⟨_, rfl⟩

/-- A row of a status that holds what a card says, and a score that does not belong to it or none. -/
def cardRow (status : String) (score : Option Int) : JobRow where
  jobId := some leapJob.id
  client := some (-1)
  imageIds := some [some 5]
  status := some status
  createdAt := some leapMoment
  processedAt := none
  completedAt := none
  failedAt := none
  failedReason := none
  matchScore := score
  ocrDetails := some (OcrDetails.codec.toTree ⟨"\"\n", "", "", "", "", "", ""⟩)

/-- The card is read back from its row. With a score beside it the row is read as a comparison too, but not as
both at once, and under another status it is not read at all. -/
theorem columns_roundtrip_cardRow :
    (∃ job, (cardRow "completed" none).toJob .ocr = .ok job ∧
      job.result = some (.ocr ⟨"\"\n", "", "", "", "", "", ""⟩)) ∧
    (∀ job, (cardRow "completed" (some 55)).toJob .faceMatch = .ok job →
      job.type = .faceMatch ∧ ∀ r, job.result = some r → r.jobType = .faceMatch) ∧
    (cardRow "Completed" none).toJob .ocr = .error (.decode "unknown job status 'Completed'") := by
  obtain ⟨written, read, refused⟩ := columns_roundtrip
  refine ⟨?_, ?_, ?_⟩
  · obtain ⟨score, details, next, sends, _, back⟩ :=
      written leapJob.id (.ocr ⟨"\"\n", "", "", "", "", "", ""⟩)
    cases sends
    exact back (cardRow "completed" none) ⟨⟨_, rfl⟩, ⟨_, rfl⟩, ⟨[5], rfl⟩, ⟨_, rfl⟩⟩ rfl rfl rfl
  · intro job ok
    obtain ⟨typed, result⟩ := read _ _ job ok
    exact ⟨typed, fun r found => (result r found).2.2⟩
  · exact (refused _ _).1 "Completed" rfl (by decide)

end Vetting.Database
