import Vetting.Http.Message
import Vetting.Proofs.Instant
import Vetting.Proofs.Json.Tree
import Vetting.Proofs.Task
import Vetting.Token

/-!
What the records of the service are in JSON: jobs, results, what a card says, images, claims and answers
to submissions read back from what is written for them (`models_roundtrip`), if their numbers are words
of their size and their times lie in years of four digits. A result is written without a word for what it
is; that nothing is found, a score and a card are told apart by their form.
-/
namespace Vetting

open Json

private theorem readsBack_status (depth : Nat) (status : JobStatus) :
    ReadsBack JobStatus.codec depth status :=
  readsBack_choice depth (by cases status <;> decide)

private theorem readsBack_kind (depth : Nat) (kind : ImageKind) : ReadsBack ImageKind.codec depth kind :=
  readsBack_choice depth (by cases kind <;> decide)

/-- Whether the year of an instant has four digits. -/
def Instant.Ordinary (t : Instant) : Prop := 0 ≤ t.date.year ∧ t.date.year ≤ 9999

private theorem readsBack_instant (depth : Nat) {t : Instant} (ordinary : t.Ordinary) :
    ReadsBack Instant.codec depth t := by
  rw [Instant.codec]
  apply readsBack_parsed
  exact t.parse?_text ordinary.1 ordinary.2

namespace OcrDetails

private theorem readsBack (details : OcrDetails) : ReadsBack codec 1 details := by
  apply ReadsBack.map
  · apply readsBack_record
    · decide
    · simp only [schema, List.map, toRecord, Record.All]
      exact ⟨readsBack_text 0 _, readsBack_text 0 _, readsBack_text 0 _, readsBack_text 0 _,
        readsBack_text 0 _, readsBack_text 0 _, readsBack_text 0 _, trivial⟩
  · rfl

@[simp] theorem ofTree_toTree (details : OcrDetails) :
    codec.ofTree (codec.toTree details) = .ok details := rfl

private theorem kept (details : OcrDetails) : (codec.toTree details).Kept 1 := by
  have all : (toRecord details).All fun field a => (field.codec.toTree a).Kept 0 :=
    ⟨trivial, trivial, trivial, trivial, trivial, trivial, trivial, trivial⟩
  exact kept_record "OcrDetails" all

end OcrDetails

namespace JobResult

/-- Whether a score is a word of its size. -/
def Ordinary : JobResult → Prop
  | .faceMatch score => IsInt32 score
  | .ocr _ => True

private theorem readsBack {result : JobResult} (ordinary : result.Ordinary) : ReadsBack codec 1 result := by
  apply ReadsBack.map
  · cases result with
    | faceMatch score =>
      have word : IsInt32 score := ordinary
      apply readsBack_inl
      · exact kept_ofInt 1 word.fits
      · simp only [Codec.int32, Codec.integer, Tree.ofInt, Codec.bounded, Number.toInt?_ofInt, word.1, word.2,
          and_self, if_true]
    | ocr details =>
      apply readsBack_inr
      · exact details.kept
      · rfl
      · exact details.ofTree_toTree
  · cases result <;> rfl

private theorem kept {result : JobResult} (ordinary : result.Ordinary) :
    (codec.toTree result).Kept 1 ∧ codec.toTree result ≠ .null := by
  cases result with
  | faceMatch score =>
    constructor
    · exact kept_ofInt 1 (show IsInt32 score from ordinary).fits
    · intro null
      cases null
  | ocr details =>
    constructor
    · exact details.kept
    · intro null
      cases null

private theorem readsBack_maybe {result : Option JobResult} (ordinary : ∀ r, result = some r → r.Ordinary) :
    ReadsBack (.optional codec) 1 result := by
  apply readsBack_optional
  · intro r same
    exact readsBack (ordinary r same)
  · intro r same
    exact kept (ordinary r same)

end JobResult

private theorem Instant.readsBack_maybe (depth : Nat) {moment : Option Instant}
    (ordinary : ∀ t, moment = some t → t.Ordinary) : ReadsBack (.optional codec) depth moment := by
  apply readsBack_optional
  · intro t same
    exact readsBack_instant depth (ordinary t same)
  · intro t _
    constructor
    · cases depth <;> exact trivial
    · intro null
      cases null

private theorem readsBack_maybeText (depth : Nat) (text : Option String) :
    ReadsBack (.optional .text) depth text := by
  apply readsBack_optional
  · intro t _
    exact readsBack_text depth t
  · intro t _
    constructor
    · cases depth <;> exact trivial
    · intro null
      cases null

namespace Job

/-- Whether the numbers of a job are words of their size and its times lie in years of four digits. -/
structure Ordinary (job : Job) : Prop where
  client : IsInt64 job.client
  imageIds : ∀ id ∈ job.imageIds, IsInt64 id
  createdAt : job.createdAt.Ordinary
  processedAt : ∀ t, job.processedAt = some t → t.Ordinary
  completedAt : ∀ t, job.completedAt = some t → t.Ordinary
  failedAt : ∀ t, job.failedAt = some t → t.Ordinary
  result : ∀ r, job.result = some r → r.Ordinary

private theorem readsBack {job : Job} (ordinary : job.Ordinary) : ReadsBack codec 2 job := by
  have images : ReadsBack (.list .int64) 1 job.imageIds := by
    apply readsBack_list
    intro id mem
    exact ⟨readsBack_int64 0 (ordinary.imageIds id mem), kept_ofInt 0 (ordinary.imageIds id mem).fits⟩
  apply ReadsBack.map
  · apply readsBack_record
    · decide
    · simp only [schema, toRecord, Record.All]
      refine ⟨readsBack_jobId 1 _, readsBack_jobType 1 _, readsBack_int64 1 ordinary.client, @images, ?_, ?_, ?_, ?_,
        ?_, ?_, ?_, trivial⟩
      · exact readsBack_status 1 job.status
      · exact readsBack_instant 1 ordinary.createdAt
      · exact Instant.readsBack_maybe 1 ordinary.processedAt
      · exact Instant.readsBack_maybe 1 ordinary.completedAt
      · exact Instant.readsBack_maybe 1 ordinary.failedAt
      · exact readsBack_maybeText 1 job.failedReason
      · exact JobResult.readsBack_maybe ordinary.result
  · rfl

end Job

namespace Image

/-- Whether the numbers of an image are words of their size. -/
structure Ordinary (image : Image) : Prop where
  id : IsInt64 image.id
  client : IsInt64 image.client
  sizeKb : IsInt64 image.sizeKb

private theorem readsBack {image : Image} (ordinary : image.Ordinary) : ReadsBack codec 1 image := by
  apply ReadsBack.map
  · apply readsBack_record
    · decide
    · simp only [schema, toRecord, Record.All]
      refine ⟨readsBack_int64 0 ordinary.id, readsBack_text 0 _, ?_, readsBack_int64 0 ordinary.client,
        readsBack_text 0 _, readsBack_int64 0 ordinary.sizeKb, trivial⟩
      exact readsBack_kind 0 image.kind
  · rfl

end Image

theorem Claims.readsBack {claims : Claims} (word : claims.expiry ≤ Decimal.maxNat64) :
    ReadsBack codec 1 claims := by
  apply ReadsBack.map
  · apply readsBack_record
    · decide
    · simp only [schema, Record.All]
      exact ⟨readsBack_text 0 _, readsBack_nat64 0 word, trivial⟩
  · rfl

private theorem Http.SubmitResponse.readsBack (answer : SubmitResponse) : ReadsBack codec 1 answer := by
  apply ReadsBack.map
  · apply readsBack_record
    · decide
    · simp only [schema, Record.All]
      exact ⟨readsBack_jobId 0 _, trivial⟩
  · rfl

/-- Every record of the service is what its text in JSON holds, if its numbers are words of their size and
its times lie in years of four digits. A result that is missing, a score and a card have different texts. -/
theorem models_roundtrip :
    (∀ job : Job, job.Ordinary → Job.codec.decode (Job.codec.write job) = .ok job) ∧
      (∀ result : JobResult, result.Ordinary →
        JobResult.codec.decode (JobResult.codec.write result) = .ok result) ∧
      (∀ details : OcrDetails, OcrDetails.codec.decode (OcrDetails.codec.write details) = .ok details) ∧
      (∀ image : Image, image.Ordinary → Image.codec.decode (Image.codec.write image) = .ok image) ∧
      (∀ claims : Claims, claims.expiry ≤ Decimal.maxNat64 →
        Claims.codec.decode (Claims.codec.write claims) = .ok claims) ∧
      (∀ answer : Http.SubmitResponse,
        Http.SubmitResponse.codec.decode (Http.SubmitResponse.codec.write answer) = .ok answer) ∧
      ∀ score details, IsInt32 score →
        ([none, some (.faceMatch score), some (.ocr details)].map (Codec.optional JobResult.codec).write).Nodup := by
  have shallow : 1 ≤ maxNesting := by decide
  refine ⟨?_, ?_, ?_, ?_, ?_, ?_, ?_⟩
  · intro job ordinary
    exact decode_written (Job.readsBack ordinary) (by decide)
  · intro result ordinary
    exact decode_written (JobResult.readsBack ordinary) shallow
  · intro details
    exact decode_written details.readsBack shallow
  · intro image ordinary
    exact decode_written (Image.readsBack ordinary) shallow
  · intro claims word
    exact decode_written (Claims.readsBack word) shallow
  · intro answer
    exact decode_written answer.readsBack shallow
  · intro score details word
    have all : ∀ result ∈ [none, some (.faceMatch score), some (.ocr details)],
        (Codec.optional JobResult.codec).decode ((Codec.optional JobResult.codec).write result) =
          .ok result := by
      intro result mem
      have ordinary : ∀ r, result = some r → r.Ordinary := by
        rintro r rfl
        simp only [List.mem_cons, reduceCtorEq, Option.some.injEq, List.not_mem_nil, or_false, false_or] at mem
        rcases mem with rfl | rfl
        · exact word
        · trivial
      exact decode_written (JobResult.readsBack_maybe ordinary) shallow
    refine List.Nodup.map_on ?_ (by simp)
    intro result mem other also same
    have read := all result mem
    rw [same, all other also] at read
    exact (Except.ok.inj read).symm

/-- A moment of a leap second. -/
def leapMoment : Instant where
  date := ⟨2016, 12, 31, by decide, by decide⟩
  hour := 23
  minute := 59
  second := 60
  nano := 123456789
  hour_lt := by decide
  minute_lt := by decide
  second_le := by decide
  nano_lt := by decide

/-- A comparison of faces that was completed at that moment. -/
def leapJob : Job :=
  { Job.fresh ⟨List.replicate 16 7, rfl⟩ .faceMatch Decimal.minInt64 [1, Decimal.maxInt64] leapMoment with
    status := .completed, processedAt := some leapMoment, completedAt := some leapMoment,
    result := some (.faceMatch 87) }

/-- The job, an image, claims that never expire and the score are all read as they were written. -/
theorem models_roundtrip_leapJob : leapJob.Ordinary ∧
    Job.codec.decode (Job.codec.write leapJob) = .ok leapJob ∧
    JobResult.codec.decode (JobResult.codec.write (.faceMatch 87)) = .ok (.faceMatch 87) ∧
    Image.codec.decode (Image.codec.write ⟨1, "card", .idCard, 3, "3/card.png", 120⟩) =
      .ok ⟨1, "card", .idCard, 3, "3/card.png", 120⟩ ∧
    Claims.codec.decode (Claims.codec.write ⟨"3", Decimal.maxNat64⟩) = .ok ⟨"3", Decimal.maxNat64⟩ ∧
    ([none, some (.faceMatch 87), some (.ocr ⟨"", "", "", "", "", "", ""⟩)].map
      (Codec.optional JobResult.codec).write).Nodup := by
  have moment : leapMoment.Ordinary := by
    constructor
    · decide
    · decide
  have moments : ∀ t, some leapMoment = some t → t.Ordinary := by
    rintro t ⟨⟩
    exact moment
  have score : IsInt32 87 := by
    constructor
    · decide
    · decide
  have ordinary : leapJob.Ordinary := by
    refine ⟨?_, ?_, moment, moments, moments, nofun, ?_⟩
    · exact ⟨by decide, by decide⟩
    · intro id mem
      have ids : id = 1 ∨ id = Decimal.maxInt64 := by simpa [leapJob, Job.fresh] using mem
      rcases ids with rfl | rfl
      · exact ⟨by decide, by decide⟩
      · exact ⟨by decide, by decide⟩
    · rintro r ⟨⟩
      exact score
  obtain ⟨jobs, results, _, images, claims, _, distinct⟩ := models_roundtrip
  refine ⟨ordinary, jobs leapJob ordinary, results (.faceMatch 87) score, images _ ?_, claims _ (Nat.le_refl _),
    distinct 87 _ score⟩
  exact ⟨⟨by decide, by decide⟩, ⟨by decide, by decide⟩, ⟨by decide, by decide⟩⟩

end Vetting
