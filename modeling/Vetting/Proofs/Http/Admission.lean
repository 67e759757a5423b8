import Vetting.Proofs.Cache.Transparency
import Vetting.Proofs.Tenancy.Requests

/-!
What a request may change (`admitted_changes`). A request that is answered with a fault of its client, or
that only gets something, leaves every service as it is; and what a job endpoint tells a caller without a
good bearer token depends on nothing else of the request and on no service.

A submission is the only thing that a request can do to a service, and it is refused for a fault of its
client before it has done anything: what it comes to after its checks is never such a fault
(`Submission.not_refused_afterLookup`).
-/
namespace Vetting

namespace Submission

variable {r : Request}

/-- Whether a result is no refusal of what the client sent. -/
def NotRefused (result : Except SubmitError JobId) : Prop :=
  ∀ e, result = .error e → e.isValidation = false

private theorem notRefused_ok (id : JobId) : NotRefused (.ok id) := by
  intro e same
  cases same

private theorem not_refused_answerExisting (r : Request) (id : JobId) :
    (answerExisting r.type r.fingerprint id).Yields NotRefused := by
  rw [answerExisting_eq]
  intro _ found
  match found with
  | .error _ => exact notRefused_ok id
  | .ok none => exact notRefused_ok id
  | .ok (some job) =>
    rw [afterFind]
    by_cases begun : job.status ≠ .created
    · rw [if_pos begun]
      exact fun _ => notRefused_ok id
    · rw [if_neg begun]
      exact notRefused_ok id

private theorem not_refused_afterCreate {task : Task} (fits : r.task? = some task)
    (reply : Except StoreError Creation) :
    (afterCreate r.type r.fingerprint task reply).Yields NotRefused := by
  match reply with
  | .error error =>
    rintro e ⟨⟩
    rfl
  | .ok (.existing id) => exact not_refused_answerExisting r id
  | .ok .created =>
    rw [afterCreate_created fits]
    intro queued
    cases queued with
    | error error =>
      rintro _ e ⟨⟩
      rfl
    | ok _ => exact fun _ _ => notRefused_ok r.drawn

/-- With as many images as its type needs, a submission that asks the cache is not refused any more. -/
theorem not_refused_afterLookup (fits : r.references.length = r.type.imageCount) (images : List Image)
    (told : Option JobId) : (afterLookup r images told).Yields NotRefused := by
  cases told with
  | some id => exact fun _ => notRefused_ok id
  | none =>
    obtain ⟨task, fits⟩ := Request.exists_task fits
    rw [afterLookup, fits]
    exact not_refused_afterCreate fits

end Submission

namespace Memory.World

/-- A submission comes to an end, and if it is refused for what the client sent, it has changed nothing. -/
theorem run_submission (w : World) (s : Vetting.Request) :
    ∃ result after, w.run s.program = some (result, after) ∧
      (Submission.NotRefused result ∨ after = w) := by
  obtain ⟨rest, last, ended⟩ : ∃ rest last, s.program.runUntil (fun _ => false) perform w = some (rest, last) :=
    exists_runUntil (Submission.within_program s) w
  rw [Program.runUntil_never] at ended
  obtain ⟨⟨result, after⟩, ran, _⟩ := Option.map_eq_some_iff.1 ended
  refine ⟨result, after, ran, ?_⟩
  have ran : w.run s.program = some (result, after) := ran
  rw [run_program] at ran
  cases checked : w.checked s with
  | error e =>
    rw [checked] at ran
    cases ran
    exact .inr rfl
  | ok images =>
    left
    have recorded : w.run (Submission.record s.drawn s.type s.client s.references images) =
        some (result, after) := by rwa [checked] at ran
    rw [Submission.record_eq] at recorded
    exact (Submission.not_refused_afterLookup (fits_of_checked checked) images (w.cached s.fingerprint)).run
      ((run_answered rfl).symm.trans recorded)

end Memory.World

namespace Http

open Json Memory

namespace Endpoint

/-- Whether an endpoint serves the jobs of a client. -/
def IsOfJobs : Endpoint → Prop
  | .submitFaceMatch | .submitOcr | .result .. => True
  | .health | .metrics => False

/-- The method that an endpoint is for. -/
def method (e : Endpoint) : String := if e.isPost then "POST" else "GET"

end Endpoint

variable {context : Context} {r : Request} {w : World}

/-- Whether a request has a bearer token that is accepted. -/
def Context.Admits (context : Context) (r : Request) : Prop :=
  ∃ token client, r.token? = some token ∧ Token.verify context.secret context.now token = .ok client

private theorem admits_of_authenticate {client : Int} (entered : authenticate context r = .ok client) :
    context.Admits r := by
  unfold authenticate at entered
  cases sent : r.token? with
  | none =>
    rw [sent] at entered
    cases entered
  | some token =>
    rw [sent] at entered
    exact ⟨token, client, sent, entered⟩

/-- A job endpoint turns a stranger away before it looks at anything else. -/
theorem handle_stranger {endpoint : Endpoint} (there : Endpoint.ofPath? r.path = some endpoint)
    (ofJobs : endpoint.IsOfJobs) (method : r.method = endpoint.method)
    (stranger : ¬ context.Admits r) :
    handle context r = .done ApiError.unauthorized.response := by
  obtain ⟨e, refused⟩ : ∃ e, authenticate context r = .error e := by
    cases entered : authenticate context r with
    | error e => exact ⟨e, rfl⟩
    | ok client => exact absurd (admits_of_authenticate entered) stranger
  cases endpoint with
  | health => exact ofJobs.elim
  | metrics => exact ofJobs.elim
  | submitFaceMatch | submitOcr | result type id =>
    have called : r.method = _ := method
    simp only [Endpoint.method, Endpoint.isPost, Bool.false_eq_true, if_true, if_false] at called
    simp [handle, there, Endpoint.isPost, called, serve, jobEndpoint, refused]
    rfl

/-- Whether an answer blames the client. -/
def Response.Blames (response : Response) : Prop := 400 ≤ response.status ∧ response.status < 500

/-- The answer to a submission blames the client only if it was refused for what the client sent. -/
theorem blames_tellSubmission {result : Except SubmitError JobId}
    (notRefused : Submission.NotRefused result) : ¬ (tellSubmission result).Blames := by
  rintro ⟨low, high⟩
  cases result with
  | ok id => exact absurd low (show ¬ 400 ≤ 200 by decide)
  | error e =>
    have internal : tellSubmission (.error e) = ApiError.internal.response := by
      simp [tellSubmission, ApiError.ofSubmit, notRefused e rfl]
    rw [internal] at high
    exact absurd high (by decide)

/-- A request that makes a submission comes to an answer, and changes nothing if that blames the client. -/
theorem run_handle_submission {s : Vetting.Request} (made : submission? context r = some s) (w : World) :
    ∃ response after, w.run (handle context r) = some (response, after) ∧ (response.Blames → after = w) := by
  obtain ⟨result, after, ran, kept⟩ := w.run_submission s
  refine ⟨tellSubmission result, after, ?_, ?_⟩
  · rw [handle_submission made, World.run, Program.run_bind, ← World.run, ran]
    rfl
  · intro blamed
    rcases kept with notRefused | same
    · exact absurd blamed (blames_tellSubmission notRefused)
    · exact same

/-- Another request comes to an answer and changes nothing. -/
theorem run_handle_silent (silent : submission? context r = none) (w : World) :
    ∃ response, w.run (handle context r) = some (response, w) :=
  World.run_asking (within_handle silent) w

/-- In every state every request is answered. If the answer blames the client, or the request only gets
something, then nothing has changed; if something has, then the request posts and has a token that is
accepted. Whoever calls a job endpoint by its method without such a token gets one and the same answer. -/
theorem admitted_changes (context : Context) (r : Request) (w : World) :
    ∃ response after, w.run (handle context r) = some (response, after) ∧
      (response.Blames ∨ r.method = "GET" → after = w) ∧
      (after ≠ w → r.method = "POST" ∧ context.Admits r) ∧
      ∀ endpoint, Endpoint.ofPath? r.path = some endpoint → endpoint.IsOfJobs → r.method = endpoint.method →
        ¬ context.Admits r → response = ApiError.unauthorized.response ∧ response.status = 401 := by
  have turnedAway : ∀ response after, w.run (handle context r) = some (response, after) →
      ∀ endpoint, Endpoint.ofPath? r.path = some endpoint → endpoint.IsOfJobs → r.method = endpoint.method →
        ¬ context.Admits r → response = ApiError.unauthorized.response ∧ response.status = 401 := by
    intro response after ran endpoint there ofJobs method stranger
    rw [handle_stranger there ofJobs method stranger] at ran
    cases ran
    exact ⟨rfl, rfl⟩
  cases made : submission? context r with
  | none =>
    obtain ⟨response, ran⟩ := run_handle_silent made w
    refine ⟨response, w, ran, fun _ => rfl, ?_, turnedAway response w ran⟩
    intro changed
    exact absurd rfl changed
  | some s =>
    obtain ⟨post, _, entered, _⟩ := submission?_cases made
    obtain ⟨response, after, ran, kept⟩ := run_handle_submission made w
    refine ⟨response, after, ran, ?_, ?_, turnedAway response after ran⟩
    · rintro (blamed | get)
      · exact kept blamed
      · rw [post] at get
        exact absurd get (by decide)
    · intro _
      exact ⟨post, admits_of_authenticate entered⟩

/-- A request to read a card, from nobody and without a body that could be read. -/
def unsigned : Request := ⟨"POST", ascii "/api/v1/ocr-async", [], ascii "not even JSON"⟩

/-- Nobody is turned away, whatever the world has of cards and jobs. -/
theorem admitted_changes_unsigned : ∃ (context : Context) (w : World) (response : Response),
    Endpoint.ofPath? unsigned.path = some .submitOcr ∧ Endpoint.submitOcr.IsOfJobs ∧
      unsigned.method = Endpoint.submitOcr.method ∧ ¬ context.Admits unsigned ∧
      w.run (handle context unsigned) = some (response, w) ∧ response.status = 401 := by
  have there : Endpoint.ofPath? unsigned.path = some .submitOcr := by decide +kernel
  have stranger : ∀ context : Context, ¬ context.Admits unsigned := by
    rintro context ⟨token, client, sent, _⟩
    cases sent
  obtain ⟨response, after, ran, kept, _, turnedAway⟩ :=
    admitted_changes ⟨[], 0, (Pool.cardRequest 1).drawn⟩ unsigned (Pool.deskWorld fun _ => false)
  obtain ⟨_, status⟩ := turnedAway .submitOcr there trivial rfl (stranger _)
  have blamed : response.Blames := by
    rw [Response.Blames, status]
    decide
  rw [kept (.inl blamed)] at ran
  exact ⟨_, _, response, there, trivial, rfl, stranger _, ran, status⟩

end Http

end Vetting
