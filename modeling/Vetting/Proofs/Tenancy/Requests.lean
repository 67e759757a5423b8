import Vetting.Proofs.Tenancy.Submissions

/-!
Requests and a client. A request makes a submission (`submission?`) or only asks (`within_handle`). One
that is not the client's leaves what the client sees (`Sane.handle`); its own are answered alike, up to
times, in worlds in which it sees the same (`Alike.handle`).
-/
namespace Vetting

namespace Http

open Json

/-- The members of an answer that tell a time. -/
def momentNames : List String := ["created_at", "processed_at", "completed_at", "failed_at"]

/-- Whether two members are the same, or tell two times under one name. -/
inductive MemberAlike : String × Tree → String × Tree → Prop
  | same (member : String × Tree) : MemberAlike member member
  | moment {name : String} (timed : name ∈ momentNames) (t u : Instant) :
      MemberAlike (name, .text t.text) (name, .text u.text)

/-- Whether two answers are the same up to times. -/
inductive Response.Alike : Response → Response → Prop
  | same (response : Response) : Alike response response
  | timed {status : Nat} {members others : List (String × Tree)}
      (alike : List.Forall₂ MemberAlike members others) :
      Alike (.json status (.object members)) (.json status (.object others))

private theorem Response.Alike.head {response other : Response} (alike : response.Alike other) :
    response.head.Alike other.head := by
  cases alike with
  | same => exact .same _
  | timed => exact .same _

/-- The type of the jobs that an endpoint takes, and what a request to it names. -/
def Endpoint.references? (r : Request) : Endpoint → Option (JobType × Except ApiError (List String))
  | .submitFaceMatch => some (.faceMatch, faceReferences r)
  | .submitOcr => some (.ocr, cardReference r)
  | .health | .result .. | .metrics => none

/-- The submission that a request makes, if its sender is let in and its body can be read. -/
def submission? (context : Context) (r : Request) : Option Vetting.Request :=
  if r.method = "POST" then
    match (Endpoint.ofPath? r.path).bind (Endpoint.references? r), authenticate context r with
    | some (type, .ok references), .ok client => some { drawn := context.drawn, type, client, references }
    | _, _ => none
  else none

/-- The answer to a submission. -/
def tellSubmission : Except SubmitError JobId → Response
  | .ok id => .json 200 (SubmitResponse.codec.toTree ⟨id⟩)
  | .error e => (ApiError.ofSubmit e).response

/-- The answer to a client that hears of a job. -/
def tellJob (client : Int) (id : JobId) (reply : Except StoreError (Option Job)) : Response :=
  match StatusQuery.viewFor client reply with
  | .error e => (ApiError.ofQuery e).response
  | .ok view => statusResponse id view

variable {context : Context} {r : Request} {s : Vetting.Request}

theorem submission?_cases (made : submission? context r = some s) :
    r.method = "POST" ∧ s.drawn = context.drawn ∧ authenticate context r = .ok s.client ∧
      ∃ endpoint, Endpoint.ofPath? r.path = some endpoint ∧
        endpoint.references? r = some (s.type, .ok s.references) := by
  unfold submission? at made
  split at made
  · next post =>
    split at made
    · next type references client named entered =>
      cases made
      obtain ⟨endpoint, there, named⟩ := Option.bind_eq_some_iff.1 named
      exact ⟨post, rfl, entered, endpoint, there, named⟩
    · cases made
  · cases made

private theorem submitReferences_ok (client : Int) (type : JobType) (references : List String) :
    submitReferences context client type (.ok references) =
      (Vetting.Request.program { drawn := context.drawn, type, client, references }).bind
        fun result => .done (tellSubmission result) := by
  refine congrArg (Program.bind _) (funext fun result => ?_)
  cases result <;> rfl

/-- A request that makes a submission is answered by what comes of that. -/
theorem handle_submission (made : submission? context r = some s) :
    handle context r = s.program.bind fun result => .done (tellSubmission result) := by
  obtain ⟨post, drawn, entered, endpoint, there, named⟩ := submission?_cases made
  obtain ⟨drawn', type, client, references⟩ := s
  subst drawn
  unfold handle
  rw [there]
  cases endpoint with
  | submitFaceMatch =>
    simp only [Endpoint.references?, Option.some.injEq, Prod.mk.injEq] at named
    obtain ⟨rfl, named⟩ := named
    simp only [Endpoint.isPost, if_true, post, serve, jobEndpoint, entered, named]
    exact submitReferences_ok client .faceMatch references
  | submitOcr =>
    simp only [Endpoint.references?, Option.some.injEq, Prod.mk.injEq] at named
    obtain ⟨rfl, named⟩ := named
    simp only [Endpoint.isPost, if_true, post, serve, jobEndpoint, entered, named]
    exact submitReferences_ok client .ocr references
  | _ => cases named

/-- A request is answered at once, or by an endpoint whose method it has, or by the head of that. -/
theorem handle_cases (context : Context) (r : Request) :
    (∃ response, handle context r = .done response) ∨
      ∃ endpoint, Endpoint.ofPath? r.path = some endpoint ∧
        ((handle context r = serve context r endpoint ∧ (endpoint.isPost = true → r.method = "POST")) ∨
          (handle context r = (serve context r endpoint).bind (fun response => .done response.head) ∧
            endpoint.isPost = false)) := by
  unfold handle
  cases there : Endpoint.ofPath? r.path with
  | none => exact .inl ⟨_, rfl⟩
  | some endpoint =>
    dsimp only
    cases post : endpoint.isPost with
    | true =>
      rw [if_pos rfl]
      split
      · next method => exact .inr ⟨endpoint, rfl, .inl ⟨rfl, fun _ => method⟩⟩
      · exact .inl ⟨_, rfl⟩
    | false =>
      rw [if_neg Bool.false_ne_true]
      split
      · exact .inr ⟨endpoint, rfl, .inl ⟨rfl, fun same => absurd (post ▸ same) Bool.false_ne_true⟩⟩
      split
      · exact .inr ⟨endpoint, rfl, .inr ⟨rfl, post⟩⟩
      · exact .inl ⟨_, rfl⟩

private theorem tellResult_eq {client : Int} {typeName idText : String} {type : JobType} {id : JobId}
    (named : JobType.ofName? typeName = some type) (read : JobId.parse? idText = some id) :
    tellResult client typeName idText =
      .call (.find id type) fun reply => .done (tellJob client id reply) := by
  simp only [tellResult, named, StatusQuery.status, StatusQuery.statusBy, read]
  refine congrArg (Program.call (Call.find id type)) (funext fun reply => ?_)
  show (match StatusQuery.viewFor client reply with | .error e => _ | .ok view => _) = _
  unfold tellJob
  cases StatusQuery.viewFor client reply <;> rfl

/-- A result is told at once, or by one look at the store. -/
theorem resultAt_cases (client : Int) (typePart idPart : List UInt8) :
    (∃ response, resultAt client typePart idPart = .done response) ∨
      ∃ id type, resultAt client typePart idPart =
        .call (.find id type) fun reply => .done (tellJob client id reply) := by
  unfold resultAt
  split
  · exact .inl ⟨_, rfl⟩
  · exact .inl ⟨_, rfl⟩
  · next typeName idText _ _ =>
    cases named : JobType.ofName? typeName with
    | none => exact .inl ⟨_, by rw [tellResult, named]; rfl⟩
    | some type =>
      cases read : JobId.parse? idText with
      | none =>
        refine .inl ⟨ApiError.notFound.response, ?_⟩
        simp only [tellResult, named, StatusQuery.status, StatusQuery.statusBy, read]
        rfl
      | some id => exact .inr ⟨id, type, tellResult_eq named read⟩

theorem handle_result {client : Int} {typePart idPart : List UInt8} {typeName idText : String}
    {type : JobType} {id : JobId} (method : r.method = "GET")
    (there : Endpoint.ofPath? r.path = some (.result typePart idPart))
    (entered : authenticate context r = .ok client) (typed : pathText "job_type" typePart = .ok typeName)
    (spelled : pathText "job_id" idPart = .ok idText) (named : JobType.ofName? typeName = some type)
    (read : JobId.parse? idText = some id) :
    handle context r = .call (.find id type) fun reply => .done (tellJob client id reply) := by
  simp only [handle, there, Endpoint.isPost, Bool.false_eq_true, if_false, method, if_true, serve, jobEndpoint,
    entered, resultAt, typed, spelled]
  exact tellResult_eq named read

private theorem within_serve {endpoint : Endpoint}
    (silent : ∀ type references client, endpoint.references? r = some (type, .ok references) →
      authenticate context r ≠ .ok client) : (serve context r endpoint).Within Call.Asks := by
  have refused : ∀ type reading client, endpoint.references? r = some (type, reading) →
      authenticate context r = .ok client →
      (submitReferences context client type reading).Within Call.Asks := by
    intro type reading client named entered
    cases reading with
    | error e => exact trivial
    | ok references => exact absurd entered (silent type references client named)
  cases endpoint with
  | health => exact ⟨trivial, fun _ => ⟨trivial, fun _ => trivial⟩⟩
  | metrics => exact ⟨trivial, fun _ => trivial⟩
  | submitFaceMatch | submitOcr =>
    unfold serve jobEndpoint
    cases entered : authenticate context r with
    | error e => exact trivial
    | ok client => exact refused _ _ client rfl entered
  | result type id =>
    unfold serve jobEndpoint
    cases authenticate context r with
    | error e => exact trivial
    | ok client =>
      rcases resultAt_cases client type id with ⟨response, told⟩ | ⟨id, type, told⟩
      · simp only [told]
        exact trivial
      · simp only [told]
        exact ⟨trivial, fun _ => trivial⟩

/-- An endpoint that a request reaches without making a submission takes none from it. -/
theorem silent_of_submission?_none (none : submission? context r = none) {endpoint : Endpoint}
    (there : Endpoint.ofPath? r.path = some endpoint) (post : endpoint.isPost = true → r.method = "POST")
    (type : JobType) (references : List String) (client : Int)
    (named : endpoint.references? r = some (type, .ok references)) :
    authenticate context r ≠ .ok client := by
  intro entered
  have posted : r.method = "POST" := by
    refine post ?_
    cases endpoint with
    | submitFaceMatch | submitOcr => rfl
    | _ => cases named
  simp [submission?, posted, there, named, entered] at none

/-- A request that makes no submission only asks. -/
theorem within_handle (none : submission? context r = none) : (handle context r).Within Call.Asks := by
  rcases handle_cases context r with ⟨response, told⟩ | ⟨endpoint, there, ⟨served, post⟩ | ⟨served, get⟩⟩
  · rw [told]
    exact trivial
  · rw [served]
    exact within_serve (silent_of_submission?_none none there post)
  · rw [served]
    refine Program.Within.bind ?_ fun _ => trivial
    exact within_serve (silent_of_submission?_none none there fun post =>
      absurd (get.symm.trans post) Bool.false_ne_true)

private theorem moments_cases {t u : Option Instant} (same : t.isSome = u.isSome) :
    (t = none ∧ u = none) ∨ ∃ first second, t = some first ∧ u = some second := by
  cases t <;> cases u <;> simp at same ⊢

/-- Two jobs with one outline are told alike. -/
theorem tellJob_alike {client : Int} {id : JobId} {job other : Job} (same : job.outline = other.outline)
    (mine : job.client = client) (also : other.client = client) :
    (tellJob client id (.ok (some job))).Alike (tellJob client id (.ok (some other))) := by
  simp only [Job.outline, Outline.mk.injEq] at same
  obtain ⟨type, status, processed, completed, failed, reason, result⟩ := same
  have timed : ∀ {view told : StatusView}, view.message = told.message →
      List.Forall₂ MemberAlike view.members told.members →
      (statusResponse id view).Alike (statusResponse id told) := by
    intro view told message members
    unfold statusResponse
    rw [message]
    exact .timed (.cons (.same _) (.cons (.same _) members))
  simp only [tellJob, StatusQuery.viewFor, mine, also, ne_eq, not_true_eq_false, if_false, StatusQuery.view,
    status, type, reason, result]
  cases other.status with
  | created => exact timed rfl (.cons (.same _) (.cons (.moment (by decide) _ _) .nil))
  | processing =>
    rcases moments_cases processed with ⟨none, also⟩ | ⟨t, u, some, also⟩
    · simp only [none, also]
      exact .same _
    · simp only [some, also]
      exact timed rfl (.cons (.same _) (.cons (.moment (by decide) _ _) .nil))
  | failed =>
    rcases moments_cases failed with ⟨none, also⟩ | ⟨t, u, some, also⟩
    · simp only [none, also]
      exact .same _
    · simp only [some, also]
      exact timed rfl (.cons (.same _) (.cons (.moment (by decide) _ _) (.cons (.same _) .nil)))
  | completed =>
    rcases moments_cases completed with ⟨none, also⟩ | ⟨t, u, some, also⟩
    · simp only [none, also]
      exact .same _
    · simp only [some, also]
      cases other.result.filter fun result => decide (result.jobType = other.type) with
      | none => exact .same _
      | some result =>
        exact timed rfl (.cons (.same _) (.cons (.moment (by decide) _ _) (.cons (.same _) .nil)))

end Http

namespace Memory

open Http

variable {share : Share} {texts others : List String} {w v : World} {context : Context}
  {r : Http.Request}

/-- A request with no submission of the client ends and leaves what the client sees. -/
theorem Sane.handle (sane : Sane share texts w)
    (foreign : ∀ s, submission? context r = some s → ∀ images, w.checked s = .ok images →
      Owned share texts False s) :
    ∃ response after, w.run (Http.handle context r) = some (response, after) ∧ Sane share texts after ∧
      after.view share = w.view share := by
  cases made : submission? context r with
  | none =>
    obtain ⟨response, ran⟩ := World.run_asking (within_handle made) w
    exact ⟨response, w, ran, sane, rfl⟩
  | some s =>
    obtain ⟨result, after, ran, stays, same⟩ := sane.submit (foreign s made)
    refine ⟨tellSubmission result, after, ?_, stays, same⟩
    rw [handle_submission made, World.run, Program.run_bind, ← World.run, ran]
    rfl

/-- A job is told alike, and a job of another is not told from a missing one. -/
theorem parallel_tellJob (id : JobId) (type : JobType) :
    Parallel share texts others (.call (.find id type) fun reply => .done (tellJob share.client id reply))
      (.call (.find id type) fun reply => .done (tellJob share.client id reply)) Response.Alike := by
  by_cases mine : id ∈ share.ids
  · exact .find mine (fun _ => .done (.same _)) (.done (.same _))
      fun job other same own also => .done (tellJob_alike same own also)
  · -- A foreign job may be there in one world and missing in the other.
    have hidden : ∀ found : Option Job, (∀ job ∈ found, job.client ≠ share.client) →
        tellJob share.client id (.ok found) = ApiError.notFound.response := by
      intro found foreign
      cases found with
      | none => rfl
      | some job => simp [tellJob, StatusQuery.viewFor, foreign job rfl, ApiError.ofQuery, QueryError.isNotFound]
    refine .find_foreign mine (fun _ => .done (.same _)) fun found there foreign other => .done ?_
    rw [hidden found foreign, hidden there other]
    exact .same _

private theorem parallel_serve {endpoint : Endpoint} (entered : authenticate context r = .ok share.client)
    (unmonitored : endpoint ≠ .metrics)
    (silent : ∀ type references client, endpoint.references? r = some (type, .ok references) →
      authenticate context r ≠ .ok client) :
    Parallel share texts others (serve context r endpoint) (serve context r endpoint) Response.Alike := by
  have refused : ∀ type reading, endpoint.references? r = some (type, reading) →
      ∃ response, submitReferences context share.client type reading = .done response := by
    intro type reading named
    cases reading with
    | error e => exact ⟨_, rfl⟩
    | ok references => exact absurd entered (silent type references share.client named)
  cases endpoint with
  | health =>
    exact .call trivial trivial trivial fun _ => .call trivial trivial trivial fun _ => .done (.same _)
  | metrics => exact absurd rfl unmonitored
  | submitFaceMatch =>
    obtain ⟨response, told⟩ := refused _ _ rfl
    simp only [serve, jobEndpoint, entered, told]
    exact .done (.same _)
  | submitOcr =>
    obtain ⟨response, told⟩ := refused _ _ rfl
    simp only [serve, jobEndpoint, entered, told]
    exact .done (.same _)
  | result type id =>
    simp only [serve, jobEndpoint, entered]
    rcases resultAt_cases share.client type id with ⟨response, told⟩ | ⟨id, type, told⟩
    · rw [told]
      exact .done (.same _)
    · rw [told]
      exact parallel_tellJob id type

/-- The client's request is answered alike in worlds in which the client sees the same. -/
theorem Alike.handle (alike : Alike share texts others w v)
    (entered : authenticate context r = .ok share.client) (unmonitored : Endpoint.ofPath? r.path ≠ some .metrics)
    (own : ∀ s, submission? context r = some s → ∀ images, w.checked s = .ok images →
      Owned share texts True s)
    (also : ∀ s, submission? context r = some s → ∀ images, v.checked s = .ok images →
      Owned share others True s) :
    ∃ response after other later, w.run (Http.handle context r) = some (response, after) ∧
      v.run (Http.handle context r) = some (other, later) ∧ Alike share texts others after later ∧
      response.Alike other := by
  cases made : submission? context r with
  | none =>
    have parallel : Parallel share texts others (Http.handle context r) (Http.handle context r)
        Response.Alike := by
      rcases handle_cases context r with ⟨response, told⟩ | ⟨endpoint, there, ⟨served, post⟩ | ⟨served, get⟩⟩
      · rw [told]
        exact .done (.same _)
      · rw [served]
        refine parallel_serve entered ?_ (silent_of_submission?_none made there post)
        rintro rfl
        exact unmonitored there
      · rw [served]
        refine .bind (parallel_serve entered ?_ (silent_of_submission?_none made there fun post =>
          absurd (get.symm.trans post) Bool.false_ne_true)) fun response other alike => .done alike.head
        rintro rfl
        exact unmonitored there
    obtain ⟨response, after, other, later, ran, goes, stay, related⟩ := parallel alike
    exact ⟨response, after, other, later, ran, goes, stay, related⟩
  | some s =>
    have sender := (submission?_cases made).2.2.1
    have mine : s.client = share.client := Except.ok.inj (sender.symm.trans entered)
    obtain ⟨result, after, other, later, ran, goes, stay, same⟩ := alike.submit mine (own s made) (also s made)
    have told : tellSubmission result = tellSubmission other := by
      cases result <;> cases other <;> simp_all [Except.mapError, tellSubmission]
    refine ⟨tellSubmission result, after, tellSubmission other, later, ?_, ?_, stay, told ▸ .same _⟩
    · rw [handle_submission made, World.run, Program.run_bind, ← World.run, ran]
      rfl
    · rw [handle_submission made, World.run, Program.run_bind, ← World.run, goes]
      rfl

end Memory

end Vetting
