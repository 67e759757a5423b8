import Vetting.Proofs.Ownership

/-!
The checks of a submission and what they make sure of. `Submission.Refuses` tells why a submission is
refused and `Submission.Passes` when it is not, by the images alone and in the order of the checks: a missing
image before one of another client, and that before one of the wrong kind, wherever they stand. The checks
decide as told (`Submission.run_program`). What passes them is what is recorded and what is queued
(`Submission.obeys_program`), so as long as the images stay what they are, every record names images of its
client and of the kind that its type needs (`Pool.Honest`).
-/
namespace Vetting

private theorem Request.images_task {r : Request} {task : Task} (fits : r.task? = some task) :
    task.images = r.references := by
  unfold Request.task? Task.ofImages? at fits
  split at fits
  · next references => cases fits; exact references.symm
  · next references => cases fits; exact references.symm
  · cases fits

namespace Submission

/-- The images of a submission that nothing is wrong with. -/
structure Passes (images : String → Option Image) (r : Request) (found : List Image) : Prop where
  fits : r.references.length = r.type.imageCount
  present : List.Forall₂ (fun reference image => images reference = some image) r.references found
  own : ∀ image ∈ found, image.client = r.client
  kind : ∀ image ∈ found, image.kind = r.type.imageKind

/-- Why a submission is refused. -/
inductive Refuses (images : String → Option Image) (r : Request) : SubmitError → Prop
  | imageCount (misfit : r.references.length ≠ r.type.imageCount) :
      Refuses images r (.imageCount r.type r.references.length)
  /-- The first image that is missing is told. -/
  | unknownImage {front back : List String} {reference : String}
      (fits : r.references.length = r.type.imageCount) (split : r.references = front ++ reference :: back)
      (known : ∀ early ∈ front, (images early).isSome) (missing : images reference = none) :
      Refuses images r (.unknownImage reference)
  | foreignImage {found : List Image} {image : Image} (fits : r.references.length = r.type.imageCount)
      (present : List.Forall₂ (fun reference image => images reference = some image) r.references found)
      (mem : image ∈ found) (foreign : image.client ≠ r.client) : Refuses images r .foreignImage
  /-- The first image of the wrong kind is told. -/
  | wrongKind {front back : List Image} {image : Image} (fits : r.references.length = r.type.imageCount)
      (present : List.Forall₂ (fun reference image => images reference = some image) r.references
        (front ++ image :: back))
      (own : ∀ other ∈ front ++ image :: back, other.client = r.client)
      (right : ∀ early ∈ front, early.kind = r.type.imageKind) (wrong : image.kind ≠ r.type.imageKind) :
      Refuses images r (.wrongKind r.type.imageKind image.reference)

/-- The images with these references, or the first that is missing. -/
def sought (images : String → Option Image) : List String → Except SubmitError (List Image)
  | [] => .ok []
  | reference :: rest =>
    match images reference with
    | none => .error (.unknownImage reference)
    | some image => (sought images rest).map (image :: ·)

/-- The images of a submission, or why it is refused. -/
def judged (images : String → Option Image) (r : Request) : Except SubmitError (List Image) :=
  if r.references.length ≠ r.type.imageCount then .error (.imageCount r.type r.references.length)
  else
    match sought images r.references with
    | .error e => .error e
    | .ok found =>
      match checkImages r.type r.client found with
      | .error e => .error e
      | .ok () => .ok found

variable {images : String → Option Image} {r : Request} {found : List Image} {references : List String}

private theorem sought_present
    (present : List.Forall₂ (fun reference image => images reference = some image) references found) :
    sought images references = .ok found := by
  induction present with
  | nil => rfl
  | cons known _ ih => simp [sought, known, ih, Except.map]

private theorem sought_missing {front back : List String} {reference : String}
    (known : ∀ early ∈ front, (images early).isSome) (missing : images reference = none) :
    sought images (front ++ reference :: back) = .error (.unknownImage reference) := by
  induction front with
  | nil => simp [sought, missing]
  | cons first front ih =>
    obtain ⟨image, here⟩ := Option.isSome_iff_exists.1 (known first List.mem_cons_self)
    have rest := ih fun early mem => known early (List.mem_cons_of_mem _ mem)
    simp [sought, here, rest, Except.map]

/-- All images are there, or one is the first that is missing. -/
theorem present_or_missing (images : String → Option Image) (references : List String) :
    (∃ found, List.Forall₂ (fun reference image => images reference = some image) references found) ∨
      ∃ front reference back, references = front ++ reference :: back ∧
        (∀ early ∈ front, (images early).isSome) ∧ images reference = none := by
  induction references with
  | nil => exact .inl ⟨[], .nil⟩
  | cons first rest ih =>
    cases here : images first with
    | none => exact .inr ⟨[], first, rest, rfl, by simp, here⟩
    | some image =>
      rcases ih with ⟨found, present⟩ | ⟨front, reference, back, rfl, known, missing⟩
      · exact .inl ⟨image :: found, .cons here present⟩
      · refine .inr ⟨first :: front, reference, back, rfl, ?_, missing⟩
        intro early mem
        rcases List.mem_cons.1 mem with rfl | mem
        · simp [here]
        · exact known early mem

private theorem checkImages_foreign {image : Image} (mem : image ∈ found)
    (foreign : image.client ≠ r.client) : checkImages r.type r.client found = .error .foreignImage := by
  rw [checkImages, if_pos]
  exact List.any_eq_true.2 ⟨image, mem, decide_eq_true foreign⟩

private theorem checkImages_own (own : ∀ image ∈ found, image.client = r.client) :
    checkImages r.type r.client found =
      match found.find? fun image => image.kind ≠ r.type.imageKind with
      | some image => .error (.wrongKind r.type.imageKind image.reference)
      | none => .ok () := by
  have none' : ¬ (found.any fun image => image.client ≠ r.client) = true := by
    rw [List.any_eq_true]
    rintro ⟨image, mem, foreign⟩
    exact of_decide_eq_true foreign (own image mem)
  exact if_neg none'

private theorem checkImages_wrong {front back : List Image} {image : Image}
    (own : ∀ other ∈ front ++ image :: back, other.client = r.client)
    (right : ∀ early ∈ front, early.kind = r.type.imageKind) (wrong : image.kind ≠ r.type.imageKind) :
    checkImages r.type r.client (front ++ image :: back) =
      .error (.wrongKind r.type.imageKind image.reference) := by
  have first : (front ++ image :: back).find? (fun image => image.kind ≠ r.type.imageKind) = some image := by
    rw [List.find?_eq_some_iff_append]
    refine ⟨by simpa using wrong, front, back, rfl, ?_⟩
    intro early mem
    simpa using right early mem
  rw [checkImages_own own, first]

private theorem checkImages_good (own : ∀ image ∈ found, image.client = r.client)
    (kind : ∀ image ∈ found, image.kind = r.type.imageKind) :
    checkImages r.type r.client found = .ok () := by
  have none' : found.find? (fun image => image.kind ≠ r.type.imageKind) = none := by
    rw [List.find?_eq_none]
    intro image mem
    simpa using kind image mem
  rw [checkImages_own own, none']

private theorem Refuses.judged_eq {e : SubmitError} (refuses : Refuses images r e) :
    judged images r = .error e := by
  cases refuses with
  | imageCount misfit => rw [judged, if_pos misfit]
  | unknownImage fits split known missing =>
    rw [judged, if_neg (not_not_intro fits), split, sought_missing known missing]
  | foreignImage fits present mem foreign =>
    rw [judged, if_neg (not_not_intro fits), sought_present present]
    simp only [checkImages_foreign mem foreign]
  | wrongKind fits present own right wrong =>
    rw [judged, if_neg (not_not_intro fits), sought_present present]
    simp only [checkImages_wrong own right wrong]

private theorem Passes.judged_eq (passes : Passes images r found) : judged images r = .ok found := by
  rw [judged, if_neg (not_not_intro passes.fits), sought_present passes.present]
  simp only [checkImages_good passes.own passes.kind]

/-- A submission passes, or there is a reason why it is refused. -/
theorem passes_or_refuses (images : String → Option Image) (r : Request) :
    (∃ found, Passes images r found) ∨ ∃ e, Refuses images r e := by
  by_cases fits : r.references.length = r.type.imageCount
  · rcases present_or_missing images r.references with
      ⟨found, present⟩ | ⟨front, reference, back, split, known, missing⟩
    · by_cases own : ∀ image ∈ found, image.client = r.client
      · by_cases kind : ∀ image ∈ found, image.kind = r.type.imageKind
        · exact .inl ⟨found, fits, present, own, kind⟩
        · cases first : found.find? fun image => image.kind ≠ r.type.imageKind with
          | none => exact absurd (by simpa using first) kind
          | some image =>
            obtain ⟨wrong, front, back, rfl, right⟩ := List.find?_eq_some_iff_append.1 first
            refine .inr ⟨_, .wrongKind fits present own ?_ (by simpa using wrong)⟩
            intro early mem
            simpa using right early mem
      · simp only [not_forall] at own
        obtain ⟨image, mem, foreign⟩ := own
        exact .inr ⟨_, .foreignImage fits present mem foreign⟩
    · exact .inr ⟨_, .unknownImage fits split known missing⟩
  · exact .inr ⟨_, .imageCount fits⟩

private theorem refuses_iff {e : SubmitError} : Refuses images r e ↔ judged images r = .error e := by
  constructor
  · exact Refuses.judged_eq
  · intro told
    rcases passes_or_refuses images r with ⟨found, passes⟩ | ⟨other, refuses⟩
    · rw [passes.judged_eq] at told
      cases told
    · rw [refuses.judged_eq] at told
      cases told
      exact refuses

private theorem passes_iff : Passes images r found ↔ judged images r = .ok found := by
  constructor
  · exact Passes.judged_eq
  · intro told
    rcases passes_or_refuses images r with ⟨other, passes⟩ | ⟨e, refuses⟩
    · rw [passes.judged_eq] at told
      cases told
      exact passes
    · rw [refuses.judged_eq] at told
      cases told

/-! ## Checks -/

/-- Whether a reply tells of an image as it is; a store that fails tells of none. -/
def Truthful (images : String → Option Image) : (c : Call) → c.Reply → Prop
  | .findImage reference, .ok (some image) => images reference = some image
  | _, _ => True

/-- The calls of a submission that records and queues nothing but its own. -/
def Permitted (images : String → Option Image) (r : Request) : Call → Prop
  | .create new => ∃ found, Passes images r found ∧ new = r.job found
  | .publish payload => ∃ task, r.task? = some task ∧ payload = task.encode
  | _ => True

private theorem obeys_findImages (images : String → Option Image) (r : Request) (references : List String) :
    (findImages references).Obeys (Truthful images) (Permitted images r) fun outcome =>
      ∀ found, outcome = .ok found →
        List.Forall₂ (fun reference image => images reference = some image) references found := by
  induction references with
  | nil =>
    rintro found ⟨⟩
    exact .nil
  | cons reference rest ih =>
    refine ⟨trivial, fun reply heard => ?_⟩
    match reply with
    | .error e => exact nofun
    | .ok none => exact nofun
    | .ok (some image) =>
      show ((findImages rest).bind _).Obeys _ _ _
      refine ih.bind fun outcome present => ?_
      intro found told
      cases outcome with
      | error e => cases told
      | ok more =>
        cases told
        exact .cons heard (present more rfl)

private theorem obeys_validate (images : String → Option Image) (r : Request) :
    (validate r.type r.client r.references).Obeys (Truthful images) (Permitted images r) fun outcome =>
      ∀ found, outcome = .ok found → Passes images r found := by
  unfold validate
  by_cases fits : r.references.length = r.type.imageCount
  · rw [if_neg (not_not_intro fits)]
    refine Program.Obeys.bind (obeys_findImages images r r.references) fun outcome present => ?_
    cases outcome with
    | error e => exact nofun
    | ok found =>
      have judges : judged images r = (match checkImages r.type r.client found with
          | .error e => .error e
          | .ok () => .ok found) := by
        rw [judged, if_neg (not_not_intro fits), sought_present (present found rfl)]
      show Program.Obeys _ _ _ (match checkImages r.type r.client found with
        | .error e => _
        | .ok () => _)
      cases checked : checkImages r.type r.client found with
      | error e => exact nofun
      | ok _ =>
        rintro _ ⟨⟩
        rw [checked] at judges
        exact passes_iff.2 judges
  · rw [if_pos fits]
    exact nofun

/-- A submission that has passed the checks is not refused for its images any more. -/
theorem obeys_record (Heard : (c : Call) → c.Reply → Prop) (passes : Passes images r found) :
    (record r.drawn r.type r.client r.references found).Obeys Heard (Permitted images r)
      fun outcome => ∀ e, outcome = .error e → e.isValidation = false := by
  obtain ⟨task, fits⟩ := Request.exists_task passes.fits
  have told : ∀ id e, (.ok id : Except SubmitError JobId) = .error e → e.isValidation = false := by
    intro id e same
    cases same
  rw [record_eq]
  refine ⟨trivial, fun reply _ => ?_⟩
  cases reply with
  | some id => exact ⟨trivial, fun _ _ => told id⟩
  | none =>
    simp only [afterLookup, fits]
    refine ⟨⟨found, passes, rfl⟩, fun reply _ => ?_⟩
    rcases reply with e | (_ | id)
    · rintro _ ⟨⟩
      rfl
    · rw [afterCreate_created fits]
      refine ⟨⟨task, fits, rfl⟩, fun reply _ => ?_⟩
      cases reply with
      | error e =>
        refine ⟨trivial, fun _ _ => ?_⟩
        rintro _ ⟨⟩
        rfl
      | ok _ => exact ⟨trivial, fun _ _ => ⟨trivial, fun _ _ => told r.drawn⟩⟩
    · show (answerExisting r.type r.fingerprint id).Obeys _ _ _
      rw [answerExisting_eq]
      refine ⟨trivial, fun _ _ => ⟨trivial, fun reply _ => ?_⟩⟩
      rcases reply with e | (_ | job)
      · exact told id
      · exact told id
      · rw [afterFind]
        split
        · exact ⟨trivial, fun _ _ => told id⟩
        · exact told id

/-- What a submission records and queues are its images and its references, if it is told of the images as
they are. -/
theorem obeys_program (images : String → Option Image) (r : Request) :
    r.program.Obeys (Truthful images) (Permitted images r) fun _ => True := by
  refine (obeys_validate images r).bind fun outcome passes => ?_
  cases outcome with
  | error e => trivial
  | ok found => exact (obeys_record _ (passes found rfl)).imp fun _ _ => trivial

section Run

variable {σ : Type} {perform : Program.Performer Call Call.Reply σ} {Stands : σ → Prop}

/-- Whether a store of images answers, and goes on to, while something stands. -/
def Answers (perform : Program.Performer Call Call.Reply σ) (images : String → Option Image)
    (Stands : σ → Prop) : Prop :=
  ∀ reference s, Stands s →
    ∃ after, perform (.findImage reference) s = some (.ok (images reference), after) ∧ Stands after

private theorem run_findImages (answers : Answers perform images Stands) (references : List String) {s : σ}
    (stands : Stands s) :
    ∃ after, (findImages references).run perform s = some (sought images references, after) := by
  induction references generalizing s with
  | nil => exact ⟨s, rfl⟩
  | cons reference rest ih =>
    obtain ⟨mid, answered, still⟩ := answers reference s stands
    rw [sought]
    cases here : images reference with
    | none =>
      refine ⟨mid, (Program.run_answered answered).trans ?_⟩
      rw [here]
      rfl
    | some image =>
      obtain ⟨after, ran⟩ := ih still
      refine ⟨after, (Program.run_answered answered).trans ?_⟩
      rw [here]
      show ((findImages rest).bind _).run perform mid = _
      rw [Program.run_bind, ran]
      rfl

/-- With a store that answers, a submission is refused as it is judged, or goes on to be recorded. -/
theorem run_program (answers : Answers perform images Stands) (r : Request) {s : σ} (stands : Stands s) :
    ∃ after, (validate r.type r.client r.references).run perform s = some (judged images r, after) ∧
      r.program.run perform s =
        match judged images r with
        | .error e => some (.error e, after)
        | .ok found => (record r.drawn r.type r.client r.references found).run perform after := by
  have validated : ∃ after,
      (validate r.type r.client r.references).run perform s = some (judged images r, after) := by
    unfold validate judged
    by_cases fits : r.references.length = r.type.imageCount
    · rw [if_neg (not_not_intro fits), if_neg (not_not_intro fits)]
      obtain ⟨after, ran⟩ := run_findImages answers r.references stands
      refine ⟨after, ?_⟩
      show ((findImages r.references).bind _).run perform s = _
      rw [Program.run_bind, ran]
      cases sought images r.references with
      | error e => rfl
      | ok found =>
        dsimp only [Option.bind_some]
        cases checkImages r.type r.client found <;> rfl
    · rw [if_pos fits, if_pos fits]
      exact ⟨s, rfl⟩
  obtain ⟨after, ran⟩ := validated
  refine ⟨after, ran, ?_⟩
  show ((validate r.type r.client r.references).bind _).run perform s = _
  rw [Program.run_bind, ran]
  cases judged images r <;> rfl

end Run

end Submission

namespace Memory

/-! ## Runs -/

open Submission

namespace World

variable {w after : World} {images : String → Option Image} {α : Type}

/-- Whether images are known as they are. -/
def Shows (w : World) (images : String → Option Image) : Prop :=
  ∀ reference image, w.images.lookup reference = some image → images reference = some image

private theorem Shows.truthful (shows : w.Shows images) {c : Call} {reply : c.Reply}
    (answered : w.perform c = some (reply, after)) : Truthful images c reply := by
  cases c with
  | findImage reference =>
    by_cases broken : w.faults .images = true
    · simp only [perform, broken] at answered
      cases answered
      trivial
    · simp only [perform, broken] at answered
      cases answered
      cases here : w.images.lookup reference with
      | none => trivial
      | some image => exact shows reference image here
  | _ => trivial

private theorem obeys_turnOf {Heard : (c : Call) → c.Reply → Prop} {Allowed : Call → Prop} {Good : α → Prop}
    {p rest : Service α} {event : Event} (obeys : p.Obeys Heard Allowed Good)
    (turned : w.turnOf p = some (event, rest, after)) (heard : Heard event.call event.reply) :
    Allowed event.call ∧ rest.Obeys Heard Allowed Good := by
  cases p with
  | done a => cases turned
  | call c next =>
    obtain ⟨reply, _, rfl, rfl⟩ := turnOf_call turned
    exact ⟨obeys.1, obeys.2 reply heard⟩

/-- The record of a job that was made for a submission with its images. -/
def Bears (w : World) (images : String → Option Image) (r : Request) : Prop :=
  ∃ found job, Passes images r found ∧ w.store.job? r.drawn = some job ∧ job.type = r.type ∧
    job.client = r.client ∧ job.imageIds = found.map (·.id)

private theorem Bears.advances {r : Request} (bears : w.Bears images r)
    (advances : ∀ job, w.store.job? r.drawn = some job →
      ∃ later, after.store.job? r.drawn = some later ∧ job.Advances later) : after.Bears images r := by
  obtain ⟨found, job, passes, there, type, client, imageIds⟩ := bears
  obtain ⟨later, here, moved⟩ := advances job there
  exact ⟨found, later, passes, here, moved.type.trans type, moved.client.trans client,
    moved.imageIds.trans imageIds⟩

/-- A call that records a job for a submission with its images keeps its record. -/
theorem bears_recorded {r : Request} {event : Event} {id : JobId} (permitted : Permitted images r event.call)
    (answered : w.perform event.call = some (event.reply, after)) (recorded : event.recorded? = some id) :
    r.drawn = id ∧ after.Bears images r := by
  obtain ⟨before, c, reply⟩ := event
  cases c with
  | create new =>
    match reply with
    | .error e => cases recorded
    | .ok (.existing other) => cases recorded
    | .ok .created =>
      cases recorded
      obtain ⟨found, passes, rfl⟩ := permitted
      refine ⟨rfl, found, Job.fresh r.drawn r.type r.client (found.map (·.id)) w.now, passes, ?_, rfl, rfl,
        rfl⟩
      have made : w.create (r.job found) = (.ok .created, after) := Option.some.inj answered
      rcases create_cases (r.job found) w with ⟨error, failed⟩ | ⟨other, _, known⟩ | ⟨_, stored⟩
      · cases made.symm.trans failed
      · cases made.symm.trans known
      · cases made.symm.trans stored
        exact JobTable.job?_recorded.trans (if_pos rfl)
  | _ => cases recorded

private theorem task_queued {r : Request} {event : Event} {payload : List UInt8}
    (permitted : Permitted images r event.call) (queued : event.queued? = some payload) :
    ∃ task, r.task? = some task ∧ payload = task.encode := by
  obtain ⟨before, c, reply⟩ := event
  cases c with
  | publish sent =>
    match reply with
    | .error e => cases queued
    | .ok () =>
      cases queued
      exact permitted
  | _ => cases queued

end World

namespace Pool

/-- Leave for every action but an upload in place of an image that is there. -/
def Unaltered (p : Pool) : Action → Prop
  | .disturb (.upload reference _ _) => p.world.images.lookup reference = none
  | _ => True

/-- Whether all that submissions recorded and queued are their images and their references, and goes on to
be. -/
structure Honest (images : String → Option Image) (p : Pool) : Prop where
  threads : ∀ r rest, .submission r rest ∈ p.threads →
    rest.Obeys (Truthful images) (Permitted images r) fun _ => True
  kept : ∀ id ∈ p.recorded, ∃ r ∈ p.requests, r.drawn = id ∧ p.world.Bears images r
  queued : ∀ payload ∈ p.queued, ∃ r ∈ p.requests, ∃ task, r.task? = some task ∧ payload = task.encode

variable {images : String → Option Image} {p later : Pool}

/-- Programs that begin are submissions, or record and queue nothing. -/
theorem Honest.joined (honest : p.Honest images) {thread : Thread}
    (begins : ∀ r rest, thread = .submission r rest → rest = r.program) :
    Honest images { p with threads := p.threads ++ [thread] } := by
  have requests : ∀ r ∈ p.requests, r ∈ ({ p with threads := p.threads ++ [thread] } : Pool).requests := by
    intro r mem
    rw [Pool.requests, List.filterMap_append]
    exact List.mem_append_left _ mem
  refine ⟨fun r rest mem => ?_, fun id recorded => ?_, fun payload queued => ?_⟩
  · rcases List.mem_append.1 mem with old | new
    · exact honest.threads r rest old
    · rw [begins r rest (List.mem_singleton.1 new).symm]
      exact obeys_program images r
  · obtain ⟨r, mem, drawn, bears⟩ := honest.kept id recorded
    exact ⟨r, requests r mem, drawn, bears⟩
  · obtain ⟨r, mem, task⟩ := honest.queued payload queued
    exact ⟨r, requests r mem, task⟩

/-- A turn records and queues what the submission may whose turn it is. -/
theorem Honest.turn {s : Crew} (consistent : s.Consistent) (honest : s.pool.Honest images)
    (shows : s.world.Shows images) {front back : List Member} {member next : Member} {event : Event}
    {world : World} (members : s.members = front ++ member :: back)
    (moves : Member.Moves s.world member event next world) :
    (Crew.pool ⟨world, s.trace ++ [event], front ++ next :: back⟩).Honest images := by
  obtain ⟨_, answered⟩ := moves.perform_eq
  have requests : (Crew.pool ⟨world, s.trace ++ [event], front ++ next :: back⟩).requests =
      s.pool.requests := by
    rw [Crew.requests_pool, Crew.requests_pool, Crew.requests_turn moves, members]
  -- The call was that of a submission, or of a worker, which records and queues nothing.
  have called : (∀ r rest, next.thread = .submission r rest →
        rest.Obeys (Truthful images) (Permitted images r) fun _ => True) ∧
      ((event.recorded? = none ∧ event.queued? = none) ∨
        ∃ r ∈ s.pool.requests, Permitted images r event.call) := by
    rcases moves.submission_or_ofWorker with ⟨r, stage, later, rfl, rfl, stepped⟩ | ⟨_, other, ofWorker⟩
    · have mem : .submission r stage ∈ s.members := members ▸ Crew.mem_turn.2 (.inl rfl)
      obtain ⟨permitted, obeys⟩ := World.obeys_turnOf (honest.threads r _ (List.mem_map_of_mem mem))
        (turnOf_of_moves stepped) (shows.truthful answered)
      refine ⟨?_, .inr ⟨r, ?_, permitted⟩⟩
      · rintro _ _ ⟨⟩
        exact obeys
      · rw [Crew.requests_pool]
        exact Crew.mem_requests.2 ⟨stage, mem⟩
    · have plain := Event.plain_ofWorker ofWorker
      refine ⟨fun r rest same => ?_, .inl ⟨plain.recorded, plain.queued⟩⟩
      cases next with
      | submission r stage => exact absurd rfl (other r stage)
      | worker duty => cases same
      | handler d stage => cases same
  obtain ⟨goes, made⟩ := called
  refine ⟨fun r rest mem => ?_, fun id recorded => ?_, fun payload queued => ?_⟩
  · obtain ⟨among, there, same⟩ := List.mem_map.1 mem
    rcases Crew.mem_turn.1 there with rfl | old
    · exact goes r rest same
    · refine honest.threads r rest (List.mem_map.2 ⟨among, ?_, same⟩)
      rw [members]
      exact Crew.mem_turn.2 (.inr old)
  · rw [requests]
    change id ∈ recordedIn (s.trace ++ [event]) at recorded
    rw [recordedIn_append, recordedIn_singleton, List.mem_append, Option.mem_toList] at recorded
    rcases recorded with old | now
    · obtain ⟨r, mem, rfl, bears⟩ := honest.kept id old
      exact ⟨r, mem, rfl, bears.advances fun job found => consistent.orderly.keeps_job members moves found⟩
    · rcases made with ⟨none', _⟩ | ⟨r, mem, permitted⟩
      · rw [none'] at now
        cases now
      · obtain ⟨drawn, bears⟩ := World.bears_recorded permitted answered now
        exact ⟨r, mem, drawn, bears⟩
  · rw [requests]
    change payload ∈ queuedIn (s.trace ++ [event]) at queued
    rw [queuedIn_append, queuedIn_singleton, List.mem_append, Option.mem_toList] at queued
    rcases queued with old | now
    · exact honest.queued payload old
    · rcases made with ⟨_, none'⟩ | ⟨r, mem, permitted⟩
      · rw [none'] at now
        cases now
      · exact ⟨r, mem, World.task_queued permitted now⟩

/-- Whatever happens but to the images, every record and every payload is that of a submission that passed
the checks. -/
theorem Reachable.honest {start : World} (fresh : start.Fresh) (reach : Reachable Unaltered start p)
    (shows : p.world.Shows images) : p.Honest images := by
  induction reach with
  | start => exact ⟨by simp, by simp [recorded, recordedIn], by simp [queued, queuedIn]⟩
  | act before allowed step ih =>
    obtain ⟨s, rfl, consistent⟩ := before.induct Crew.Consistent (Crew.consistent_start fresh)
      fun consistent _ step => consistent.step step
    cases step with
    | submit unused =>
      refine (ih shows).joined ?_
      rintro _ _ ⟨⟩
      rfl
    | drain =>
      refine (ih shows).joined ?_
      rintro _ _ ⟨⟩
    | deliver =>
      refine (ih shows).joined ?_
      rintro _ _ ⟨⟩
    | turn threads turned =>
      obtain ⟨front, rest, members, rfl, tail⟩ := List.map_eq_append_iff.1 threads
      obtain ⟨member, back, rfl, rfl, rfl⟩ := List.map_eq_cons_iff.1 tail
      obtain ⟨next, rfl, moves⟩ := Member.moves_of_turn turned
      have settings := World.perform_settings consistent.orderly.calm moves.perform_eq.2
      have before : s.world.Shows images := by
        intro reference image here
        refine shows reference image ?_
        rw [settings.images]
        exact here
      have honest := (ih before).turn consistent before members moves
      simpa [Crew.pool] using honest
    | @disturb change =>
      obtain ⟨store, _, _, _⟩ := change.apply_keeps s.world
      have before : s.world.Shows images := by
        intro reference image here
        refine shows reference image ?_
        cases change with
        | upload uploaded kind client =>
          show (Assoc.put uploaded _ s.world.images).lookup reference = some image
          rw [Assoc.lookup_put, if_neg, here]
          rintro rfl
          rw [show s.world.images.lookup reference = none from allowed] at here
          cases here
        | _ => exact here
      have honest := ih before
      refine ⟨honest.threads, fun id recorded => ?_, honest.queued⟩
      obtain ⟨r, mem, drawn, found, job, passes, there, rest⟩ := honest.kept id recorded
      exact ⟨r, mem, drawn, found, job, passes, (congrArg (·.job? r.drawn) store).trans there, rest⟩

end Pool

/-- A submission is refused for just the reasons that the checks tell, in their order, and passes otherwise.
So while the images stay what they are: a record has as many images as its type needs, those of the
references that were submitted, in their order, all of them its client's and of the kind that its type needs,
and the payload that is queued for it has just these references. -/
theorem checks_decide :
    (∀ {σ : Type} (perform : Program.Performer Call Call.Reply σ) (images : String → Option Image)
      (Stands : σ → Prop), Answers perform images Stands → ∀ (r : Request) (s : σ), Stands s →
        (∀ e, e.isValidation = true →
          ((∃ after, r.program.run perform s = some (.error e, after)) ↔ Refuses images r e)) ∧
        (∀ found, (∃ after, (validate r.type r.client r.references).run perform s = some (.ok found, after)) ↔
          Passes images r found) ∧
        ((∀ e, ¬ Refuses images r e) → ∃ found, Passes images r found)) ∧
    ∀ (start : World) (p : Pool), start.Fresh → Pool.Reachable Pool.Unaltered start p →
      ∀ id ∈ p.recorded, ∃ r ∈ p.requests, r.drawn = id ∧ ∃ found job,
        Passes (p.world.images.lookup ·) r found ∧ p.world.store.job? id = some job ∧
        job.type = r.type ∧ job.client = r.client ∧ job.imageIds = found.map (·.id) ∧
        job.imageIds.length = job.type.imageCount ∧
        ∀ payload ∈ p.queued, Task.named? payload = some id → ∃ task, Task.decode payload = .ok task ∧
          task.jobId = id ∧ task.jobType = job.type ∧ task.images = r.references := by
  constructor
  · intro σ perform images Stands answers r s stands
    obtain ⟨after, validated, ran⟩ := run_program answers r stands
    refine ⟨fun e fault => ?_, fun found => ?_, fun none' => ?_⟩
    · rw [refuses_iff, ran]
      cases judges : judged images r with
      | error other => simp
      | ok found =>
        -- what has passed fails for no such reason, whatever the other services do
        have obeys := obeys_record (fun _ _ => True) (passes_iff.2 judges)
        constructor
        · rintro ⟨later, failed⟩
          have other := obeys.run (fun _ _ _ _ _ => trivial) failed e rfl
          rw [fault] at other
          cases other
        · exact nofun
    · rw [passes_iff, validated]
      constructor
      · rintro ⟨later, same⟩
        exact congrArg Prod.fst (Option.some.inj same)
      · intro judges
        exact ⟨after, by rw [judges]⟩
    · rcases passes_or_refuses images r with passes | ⟨e, refuses⟩
      · exact passes
      · exact absurd refuses (none' e)
  · intro start p fresh reach id recorded
    have honest := reach.honest fresh fun _ _ here => here
    obtain ⟨s, rfl, consistent⟩ := reach.induct Crew.Consistent (Crew.consistent_start fresh)
      fun consistent _ step => consistent.step step
    obtain ⟨r, mem, rfl, found, job, passes, there, type, client, imageIds⟩ := honest.kept id recorded
    refine ⟨r, mem, rfl, found, job, passes, there, type, client, imageIds, ?_, ?_⟩
    · rw [imageIds, List.length_map, ← passes.present.length_eq, passes.fits, type]
    · intro payload queued names
      obtain ⟨other, among, task, fits, rfl⟩ := honest.queued payload queued
      rw [Task.named?_encode, Option.some.injEq, Request.jobId_task fits] at names
      rw [Crew.requests_pool] at mem among
      obtain rfl : other = r := List.inj_on_of_nodup_map consistent.orderly.distinct among mem names
      exact ⟨task, Task.decode_encode task, Request.jobId_task fits,
        (Request.jobType_task fits).trans type.symm, Request.images_task fits⟩

/-- A client that submits the card of another is refused for that; its owner's submission is recorded with
the card and queued. -/
theorem checks_decide_card :
    (∃ after, (Pool.deskWorld fun _ => false).run { Pool.cardRequest 1 with client := 2 }.program =
      some (.error .foreignImage, after)) ∧
    ∃ (p : Pool) (job : Job), p.world.store.job? (Pool.cardRequest 1).drawn = some job ∧ job.imageIds = [1] ∧
      ∃ payload ∈ p.queued, ∃ task, Task.decode payload = .ok task ∧ task.images = ["card"] := by
  obtain ⟨decides, keeps⟩ := checks_decide
  constructor
  · have answers : Answers World.perform ([("card", Pool.card)].lookup ·) fun w =>
        w.faults .images = false ∧ w.images = [("card", Pool.card)] := by
      rintro reference w ⟨working, images⟩
      refine ⟨w, ?_, working, images⟩
      simp [World.perform, working, images]
    obtain ⟨refused, _, _⟩ := decides World.perform _ _ answers { Pool.cardRequest 1 with client := 2 }
      (Pool.deskWorld fun _ => false) ⟨rfl, rfl⟩
    have present : List.Forall₂ (fun reference image => [("card", Pool.card)].lookup reference = some image)
        ["card"] [Pool.card] := .cons List.lookup_cons_self .nil
    exact (refused .foreignImage rfl).2 (.foreignImage rfl present (List.mem_singleton.2 rfl) (by decide))
  · have turns : ∀ p : Pool, p.Unaltered .turn := fun _ => trivial
    have opens : ∀ p : Pool, p.Unaltered (.submit (Pool.cardRequest 1)) := fun _ => trivial
    have begun : Pool.Reachable Pool.Unaltered (Pool.deskWorld fun _ => false) _ := .start
    obtain ⟨task, fits⟩ := Request.exists_task (r := Pool.cardRequest 1) rfl
    obtain ⟨more, recorded, _, _, publishing⟩ := begun.records fits turns opens
      (Pool.valid_cardRequest rfl 1) rfl rfl ⟨rfl, rfl⟩ (by simp [Pool.requests])
    obtain ⟨p, reach, requests, known, made, accepted⟩ : ∃ p : Pool,
        Pool.Reachable Pool.Unaltered (Pool.deskWorld fun _ => false) p ∧
        p.requests = [Pool.cardRequest 1] ∧ p.world.images.lookup "card" = some Pool.card ∧
        (Pool.cardRequest 1).drawn ∈ p.recorded ∧ task.encode ∈ p.queued := by
      refine ⟨_, publishing.moves [] [] turns (.queued rfl), rfl, List.lookup_cons_self, ?_, ?_⟩
      · show _ ∈ recordedIn _
        rw [recordedIn_append, List.nil_append, recorded]
        exact List.mem_cons_self
      · show _ ∈ queuedIn _
        rw [queuedIn_append]
        exact List.mem_append_right _ (List.mem_singleton.2 rfl)
    obtain ⟨r, mem, _, found, job, passes, there, _, _, imageIds, _, carries⟩ :=
      keeps _ p (Pool.fresh_deskWorld _) reach (Pool.cardRequest 1).drawn made
    rw [requests] at mem
    obtain rfl := List.mem_singleton.1 mem
    have names := (Task.named?_encode task).trans (congrArg some (Request.jobId_task fits))
    obtain ⟨sent, decodes, _, _, references⟩ := carries task.encode accepted names
    obtain ⟨image, rest, here, nothing, rfl⟩ := List.forall₂_cons_left_iff.1 passes.present
    cases List.forall₂_nil_left_iff.1 nothing
    cases known.symm.trans here
    exact ⟨p, job, there, imageIds, task.encode, accepted, sent, decodes, references⟩

end Memory

end Vetting
