import Vetting.Memory.World
import Vetting.Proofs.Http.Inquiry
import Vetting.Proofs.Tenancy.Requests

/-!
What a client learns of jobs that are not its own (`foreign_as_missing`). Jobs may be found in any way and have
any shape, also one that no job ever gets: whose a job is, is looked at before what it holds, so a job of
another is answered as if it were missing or its id were no id. A client that is answered well is told of a job
of its own, in the same words however it spells the id.
-/
namespace Vetting

open Json

/-- Whether a job shows a view: its record has what its status calls for, and the view tells that. -/
inductive Job.Shows (job : Job) : StatusView → Prop
  | created (status : job.status = .created) : Shows job (.created job.createdAt)
  | processing (status : job.status = .processing) {moment : Instant} (since : job.processedAt = some moment) :
    Shows job (.processing moment)
  | failed (status : job.status = .failed) {moment : Instant} (since : job.failedAt = some moment) :
    Shows job (.failed moment (job.failedReason.getD ""))
  | completed (status : job.status = .completed) {moment : Instant} {result : JobResult}
    (since : job.completedAt = some moment) (found : job.result = some result) (fits : result.jobType = job.type) :
    Shows job (.completed moment result)

namespace StatusQuery

variable {job : Job} {view : StatusView}

private theorem view_eq_ok_iff : StatusQuery.view job = .ok view ↔ job.Shows view := by
  constructor
  · intro told
    rw [StatusQuery.view] at told
    cases status : job.status with
    | created =>
      simp only [status] at told
      cases told
      exact .created status
    | processing =>
      simp only [status] at told
      cases since : job.processedAt with
      | none =>
        rw [since] at told
        cases told
      | some moment =>
        rw [since] at told
        cases told
        exact .processing status since
    | failed =>
      simp only [status] at told
      cases since : job.failedAt with
      | none =>
        rw [since] at told
        cases told
      | some moment =>
        rw [since] at told
        cases told
        exact .failed status since
    | completed =>
      simp only [status] at told
      cases since : job.completedAt with
      | none =>
        rw [since] at told
        cases told
      | some moment =>
        cases kept : job.result.filter fun result => result.jobType = job.type with
        | none =>
          rw [since, kept] at told
          cases told
        | some result =>
          rw [since, kept] at told
          cases told
          obtain ⟨found, fits⟩ := Option.filter_eq_some_iff.1 kept
          exact .completed status since found (of_decide_eq_true fits)
  · rintro (status | ⟨status, since⟩ | ⟨status, since⟩ | ⟨status, since, found, fits⟩)
    · simp only [StatusQuery.view, status]
    · simp only [StatusQuery.view, status, since]
      rfl
    · simp only [StatusQuery.view, status, since]
      rfl
    · simp only [StatusQuery.view, status, since, found, Option.filter, fits, decide_true, if_true]
      rfl

end StatusQuery

namespace Http

/-- The answer to a request in a state of the services; nothing if a reply never comes. -/
def answer? {σ : Type} (perform : Program.Performer Call Call.Reply σ) (s : σ) (context : Context) (r : Request) :
    Option Response :=
  ((handle context r).run perform s).map Prod.fst

/-- Whether the store, in a state of the services, has a job of a type under an id, or has none. -/
def Finds {σ : Type} (perform : Program.Performer Call Call.Reply σ) (s : σ) (id : JobId) (type : JobType)
    (found : Option Job) : Prop :=
  ∃ after, perform (.find id type) s = some (.ok found, after)

variable {σ τ : Type} {perform : Program.Performer Call Call.Reply σ} {s : σ} {context : Context} {r : Request}
  {client : Int} {type : JobType} {text : String} {id : JobId}

private theorem handle_spelled (asks : r.Inquires context client type text)
    (read : JobId.parse? text = some id) :
    handle context r = .call (.find id type) fun reply => .done (tellJob client id reply) := by
  obtain ⟨typePart, idPart, typeName, there, typed, named, spelled⟩ := asks.path
  exact handle_result asks.get there asks.entered typed spelled named read

private theorem handle_unspelled (asks : r.Inquires context client type text)
    (none : JobId.parse? text = none) : handle context r = .done ApiError.notFound.response := by
  obtain ⟨typePart, idPart, typeName, there, typed, named, spelled⟩ := asks.path
  simp only [handle, there, Endpoint.isPost, Bool.false_eq_true, if_false, asks.get, if_true, serve, jobEndpoint,
    asks.entered, resultAt, typed, spelled, tellResult, named, StatusQuery.status, StatusQuery.statusBy, none]
  rfl

/-- A text that is an id is answered by one look at the store. -/
theorem answer?_spelled (asks : r.Inquires context client type text) (read : JobId.parse? text = some id) :
    answer? perform s context r = (perform (.find id type) s).map fun found => tellJob client id found.1 := by
  rw [answer?, handle_spelled asks read, Program.run]
  cases perform (.find id type) s <;> rfl

/-- A text that is no id is answered without one. -/
theorem answer?_unspelled (asks : r.Inquires context client type text) (none : JobId.parse? text = none) :
    answer? perform s context r = some ApiError.notFound.response := by
  rw [answer?, handle_unspelled asks none]
  rfl

/-- A job of another is answered as one that is not there, whatever its record holds. -/
theorem tellJob_foreign {job : Job} (foreign : job.client ≠ client) :
    tellJob client id (.ok (some job)) = ApiError.notFound.response := by
  simp only [tellJob, StatusQuery.viewFor, ne_eq, foreign, not_false_eq_true, if_true]
  rfl

/-- A good answer shows a job of the client. -/
theorem tellJob_good {reply : Except StoreError (Option Job)}
    (good : (tellJob client id reply).status = 200) :
    ∃ job view, reply = .ok (some job) ∧ job.client = client ∧ job.Shows view ∧
      tellJob client id reply = statusResponse id view := by
  cases viewed : StatusQuery.viewFor client reply with
  | error e =>
    -- No error is told with the status of a good answer.
    simp only [tellJob, viewed, ApiError.ofQuery] at good
    split at good <;> cases good
  | ok view =>
    have told : tellJob client id reply = statusResponse id view := by rw [tellJob, viewed]
    cases reply with
    | error e => cases viewed
    | ok found =>
      cases found with
      | none => cases viewed
      | some job =>
        simp only [StatusQuery.viewFor] at viewed
        by_cases own : job.client = client
        · rw [if_neg (Classical.not_not.2 own)] at viewed
          exact ⟨job, view, rfl, own, StatusQuery.view_eq_ok_iff.1 viewed, told⟩
        · rw [if_pos own] at viewed
          cases viewed

/-- The answer where a job of another is found. -/
theorem answer?_foreign (asks : r.Inquires context client type text)
    (read : JobId.parse? text = some id) {job : Job}
    (finds : Finds perform s id type (some job)) (foreign : job.client ≠ client) :
    answer? perform s context r = some ApiError.notFound.response := by
  obtain ⟨after, found⟩ := finds
  rw [answer?_spelled asks read, found, Option.map_some, tellJob_foreign foreign]

/-- The answer where no job is found. -/
theorem answer?_missing (asks : r.Inquires context client type text) (read : JobId.parse? text = some id)
    (finds : Finds perform s id type none) : answer? perform s context r = some ApiError.notFound.response := by
  obtain ⟨after, found⟩ := finds
  rw [answer?_spelled asks read, found]
  rfl

/-- A job of another client, whatever its record holds, is answered as a job that is missing from a store and as
a text that is no id, in status and body. A good answer shows a job that is the client's own, and is the same
for every text that spells its id. -/
theorem foreign_as_missing (perform : Program.Performer Call Call.Reply σ)
    (vacant : Program.Performer Call Call.Reply τ) (client : Int) (type : JobType) :
    (∀ context r text id s job, Request.Inquires context r client type text → JobId.parse? text = some id →
      Finds perform s id type (some job) → job.client ≠ client →
      answer? perform s context r = some ApiError.notFound.response ∧
        (∀ empty, Finds vacant empty id type none →
          answer? vacant empty context r = answer? perform s context r) ∧
        ∀ later q other state, Request.Inquires later q client type other → JobId.parse? other = none →
          answer? perform state later q = answer? perform s context r) ∧
    ∀ context r text s response, Request.Inquires context r client type text →
      answer? perform s context r = some response → response.status = 200 →
      ∃ id job view, JobId.parse? text = some id ∧ Finds perform s id type (some job) ∧
        job.client = client ∧ job.Shows view ∧ response = statusResponse id view ∧
        ∀ later q other, Request.Inquires later q client type other → JobId.parse? other = some id →
          answer? perform s later q = some response := by
  constructor
  · intro context r text id s job asks read finds foreign
    have told := answer?_foreign asks read finds foreign
    refine ⟨told, ?_, ?_⟩
    · intro empty missing
      rw [told, answer?_missing asks read missing]
    · intro later q other state also none
      rw [told, answer?_unspelled also none]
  · intro context r text s response asks answered good
    cases read : JobId.parse? text with
    | none =>
      rw [answer?_unspelled asks read] at answered
      cases answered
      cases good
    | some id =>
      rw [answer?_spelled asks read] at answered
      obtain ⟨⟨reply, after⟩, found, rfl⟩ := Option.map_eq_some_iff.1 answered
      obtain ⟨job, view, rfl, own, shown, told⟩ := tellJob_good good
      refine ⟨id, job, view, rfl, ⟨after, found⟩, own, shown, told, ?_⟩
      intro later q other also same
      rw [answer?_spelled also same, found]
      rfl

def strayId : JobId := leapJob.id

/-- A job of client 9 with the result of a job of another type. If it is completed, it is so at no time. -/
def strayJob (status : JobStatus) : Job :=
  { Job.fresh strayId .ocr 9 [] leapMoment with status, result := some (.faceMatch 50) }

/-- A world in which some record is found, or none. -/
def strayWorld (found : Option Job) : Memory.World :=
  { Memory.World.empty ⟨fun _ _ => .hangs, fun _ => .hangs, none⟩ leapMoment with
    rows := found.toList.map fun job => (job.id, job) }

/-- What handlers know in such a world. -/
def strayContext : Context := ⟨ascii "s3cret", 1700000000, strayId⟩

/-- A client's request for a job that a text names, with a token that still lasts. -/
def strayInquiry (client : Int) (text : String) : Request :=
  inquiry strayContext.secret client 1700000000 .ocr text

private theorem inquires_stray {client : Int} (word : IsInt64 client) (text : String) (filled : text ≠ "")
    (short : (Utf8.encode text).length ≤ 21000) :
    (strayInquiry client text).Inquires strayContext client .ocr text :=
  inquires_inquiry word (by decide) (by decide) filled short

/-- Client 3 cannot tell the record from a missing one or from a text that is no id. If the record is sound, client 9
is told of it, with hyphens in the id or without. -/
theorem foreign_as_missing_stray :
    answer? Memory.World.perform (strayWorld (some (strayJob .completed))) strayContext
        (strayInquiry 3 strayId.text) = some ApiError.notFound.response ∧
      answer? Memory.World.perform (strayWorld none) strayContext (strayInquiry 3 strayId.text) =
        some ApiError.notFound.response ∧
      answer? Memory.World.perform (strayWorld (some (strayJob .completed))) strayContext
        (strayInquiry 3 "card-9") = some ApiError.notFound.response ∧
      answer? Memory.World.perform (strayWorld (some (strayJob .created))) strayContext
        (strayInquiry 9 (String.ofList strayId.digits)) =
          some (statusResponse strayId (.created leapMoment)) := by
  have visitor : IsInt64 3 := by
    constructor
    · decide
    · decide
  have owner : IsInt64 9 := by
    constructor
    · decide
    · decide
  have asks := inquires_stray visitor strayId.text (by decide) (by decide +kernel)
  have unspelled := inquires_stray visitor "card-9" (by decide) (by decide +kernel)
  have spelled := inquires_stray owner strayId.text (by decide) (by decide +kernel)
  have digits := inquires_stray owner (String.ofList strayId.digits) (by decide) (by decide +kernel)
  obtain ⟨foreign, _⟩ := foreign_as_missing Memory.World.perform Memory.World.perform 3 .ocr
  obtain ⟨_, good⟩ := foreign_as_missing Memory.World.perform Memory.World.perform 9 .ocr
  obtain ⟨told, missing, others⟩ := foreign _ _ _ strayId (strayWorld (some (strayJob .completed)))
    (strayJob .completed) asks (JobId.parse?_text _) ⟨_, rfl⟩ (by decide)
  have shown : answer? Memory.World.perform (strayWorld (some (strayJob .created))) strayContext
      (strayInquiry 9 strayId.text) = some (statusResponse strayId (.created leapMoment)) := by
    rw [answer?_spelled spelled (JobId.parse?_text _)]
    rfl
  obtain ⟨id, job, view, read, _, _, _, _, same⟩ := good _ _ _ _ _ spelled shown rfl
  obtain rfl : strayId = id := Option.some.inj ((JobId.parse?_text _).symm.trans read)
  refine ⟨told, ?_, ?_, ?_⟩
  · exact (missing (strayWorld none) ⟨_, rfl⟩).trans told
  · exact (others _ _ _ _ unspelled (by decide)).trans told
  · exact same _ _ _ digits (by decide +kernel)

end Http

end Vetting
