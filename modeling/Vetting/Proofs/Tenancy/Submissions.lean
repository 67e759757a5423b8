import Vetting.Http.Router
import Vetting.Proofs.Tenancy.Lockstep
import Vetting.Proofs.Submission

/-!
Submissions and a client. Those of others leave what it sees (`Sane.submit`). Its own are refused for
reasons that it sees, a missing image and a foreign one being the same to it (`Sane.refusal?_eq`), and go
alike in worlds in which it sees the same (`Alike.submit`).
-/
namespace Vetting.Memory

open Http Submission

/-- Whether a submission is the client's in all that it brings, or in nothing. -/
structure Owned (share : Share) (texts : List String) (own : Prop) (r : Vetting.Request) : Prop where
  client : r.client = share.client ↔ own
  drawn : r.drawn ∈ share.ids ↔ own
  /-- Only the text of a submission that is not refused is hashed. -/
  text : r.fingerprint.text ∈ texts ↔ own

variable {share : Share} {texts others : List String} {w v : World} {r : Vetting.Request}

private theorem Share.wants_encode (share : Share) (task : Task) :
    share.wants task.encode = decide (task.jobId ∈ share.ids) := by
  rw [Share.wants, Task.named?_encode]
  rfl

private theorem Owned.wants {own : Prop} (owned : Owned share texts own r) {task : Task}
    (fits : r.task? = some task) : share.wants task.encode = true ↔ own := by
  rw [share.wants_encode, decide_eq_true_iff, Request.jobId_task fits]
  exact owned.drawn

private theorem spares_record (foreign : Owned share texts False r) (images : List Image) :
    Spares share texts (record r.drawn r.type r.client r.references images) := by
  rw [record_eq]
  refine .call foreign.text fun known => ?_
  cases known with
  | some id => exact .call trivial fun _ => .done _
  | none =>
    unfold afterLookup
    cases fits : r.task? with
    | none => exact .done _
    | some task =>
      refine .create ⟨foreign.text, foreign.drawn, foreign.client⟩ fun reply other => ?_
      match reply with
      | .error e => exact .done _
      | .ok (.existing known) =>
        rw [afterCreate, answerExisting_eq]
        refine .call trivial fun _ => .call trivial fun reply => ?_
        unfold afterFind
        split
        · split
          · exact .call ⟨foreign.text, iff_of_false (other known rfl) id⟩ fun _ => .done _
          · exact .done _
        · exact .done _
        · exact .done _
      | .ok .created =>
        rw [afterCreate_created fits]
        refine .call (foreign.wants fits) fun queued => ?_
        cases queued with
        | error e => exact .call foreign.drawn fun _ => .done _
        | ok _ => exact .call ⟨foreign.text, foreign.drawn⟩ fun _ => .call trivial fun _ => .done _

/-- The submission of another client ends and leaves what the client sees. -/
theorem Sane.submit (sane : Sane share texts w)
    (foreign : ∀ images, w.checked r = .ok images → Owned share texts False r) :
    ∃ result after, w.run r.program = some (result, after) ∧ Sane share texts after ∧
      after.view share = w.view share := by
  rw [w.run_program r]
  cases passed : w.checked r with
  | error e => exact ⟨_, w, rfl, sane, rfl⟩
  | ok images => exact spares_record (foreign images passed) images sane

/-- How a submission is answered that is refused. -/
def World.refusal? (w : World) (r : Vetting.Request) : Option ApiError :=
  match w.checked r with
  | .error e => some (.ofSubmit e)
  | .ok _ => none

/-- How the client's submission is answered that is refused, as far as it sees: an image that it does
not see is not told from one that is not there. -/
def View.refusal? (view : View) (type : JobType) (references : List String) : Option ApiError :=
  if references.length ≠ type.imageCount then some (.ofSubmit (.imageCount type references.length))
  else if view.faults .images then some .internal
  else if ∃ reference ∈ references, view.kinds reference = none then some (.ofSubmit .foreignImage)
  else
    (references.find? fun reference => view.kinds reference ≠ some type.imageKind).map fun reference =>
      .ofSubmit (.wrongKind type.imageKind reference)

private theorem Sane.kinds_eq (sane : Sane share texts w) {reference : String} {image : Image}
    (known : w.images.lookup reference = some image) :
    image.reference = reference ∧
      (w.view share).kinds reference = if image.client = share.client then some image.kind else none := by
  refine ⟨(sane.images reference image known).1, ?_⟩
  simp only [World.view, known]
  split <;> simp [*]

/-- Images that the client sees are its own, and what they show is what it sees. -/
theorem Sane.seen_images (sane : Sane share texts w) (kind : ImageKind) {references : List String}
    {images : List Image}
    (found : List.Forall₂ (fun reference image => w.images.lookup reference = some image) references images)
    (seen : ∀ reference ∈ references, (w.view share).kinds reference ≠ none) :
    (∀ image ∈ images, image.client = share.client) ∧
      (images.find? fun image => image.kind ≠ kind).map Image.reference =
        references.find? fun reference => (w.view share).kinds reference ≠ some kind := by
  induction found with
  | nil => exact ⟨nofun, rfl⟩
  | @cons reference image rest more known _ ih =>
    obtain ⟨named, shown⟩ := sane.kinds_eq known
    obtain ⟨own, first⟩ := ih fun other mem => seen other (List.mem_cons_of_mem _ mem)
    have mine : image.client = share.client := by
      by_contra foreign
      rw [if_neg foreign] at shown
      exact seen reference List.mem_cons_self shown
    rw [if_pos mine] at shown
    refine ⟨List.forall_mem_cons.2 ⟨mine, own⟩, ?_⟩
    by_cases fits : image.kind = kind
    · rw [List.find?_cons_of_neg (by simp [fits]), List.find?_cons_of_neg (by simp [shown, fits]), first]
    · rw [List.find?_cons_of_pos (by simp [fits]), List.find?_cons_of_pos (by simp [shown, fits]),
        Option.map_some, named]

/-- An image that the client does not see, if it is there, is not the client's. -/
theorem Sane.unseen_image (sane : Sane share texts w) {references : List String} {images : List Image}
    (found : List.Forall₂ (fun reference image => w.images.lookup reference = some image) references images)
    (unseen : ∃ reference ∈ references, (w.view share).kinds reference = none) :
    ∃ image ∈ images, image.client ≠ share.client := by
  induction found with
  | nil => simp at unseen
  | @cons reference image rest more known _ ih =>
    by_cases mine : image.client = share.client
    · have shown := (sane.kinds_eq known).2
      rw [if_pos mine] at shown
      obtain ⟨other, mem, none⟩ := unseen
      have later : other ∈ rest := by
        refine (List.mem_cons.1 mem).resolve_left ?_
        rintro rfl
        rw [shown] at none
        cases none
      obtain ⟨foreign, mem, other⟩ := ih ⟨other, later, none⟩
      exact ⟨foreign, List.mem_cons_of_mem _ mem, other⟩
    · exact ⟨image, List.mem_cons_self, mine⟩

/-- What a refused submission of the client is answered depends on what the client sees. -/
theorem Sane.refusal?_eq (sane : Sane share texts w) (mine : r.client = share.client) :
    w.refusal? r = (w.view share).refusal? r.type r.references := by
  have faults : (w.view share).faults = w.faults := rfl
  unfold World.refusal? World.checked View.refusal?
  by_cases fits : r.references.length = r.type.imageCount
  · rw [if_neg (not_not_intro fits), if_neg (not_not_intro fits), faults]
    cases working : w.faults .images with
    | true =>
      -- Every type needs an image, so the broken store is noticed.
      obtain ⟨reference, rest, more⟩ : ∃ reference rest, r.references = reference :: rest := by
        refine List.exists_cons_of_length_pos ?_
        rw [fits]
        cases r.type <;> decide
      rw [more, World.found, if_pos working]
      rfl
    | false =>
      rw [if_neg Bool.false_ne_true]
      rcases World.found_cases working r.references with ⟨reference, mem, absent, told⟩ | ⟨images, told, found⟩
      · have none : (w.view share).kinds reference = none := by simp [World.view, absent]
        rw [told, if_pos ⟨reference, mem, none⟩]
        rfl
      rw [told, mine]
      dsimp only
      by_cases unseen : ∃ reference ∈ r.references, (w.view share).kinds reference = none
      · obtain ⟨image, mem, foreign⟩ := sane.unseen_image found unseen
        have other : images.any (fun image => decide (image.client ≠ share.client)) = true :=
          List.any_eq_true.2 ⟨image, mem, decide_eq_true foreign⟩
        rw [if_pos unseen, checkImages, if_pos other]
      · obtain ⟨own, first⟩ := sane.seen_images r.type.imageKind found
          fun reference mem none => unseen ⟨reference, mem, none⟩
        have none : images.any (fun image => decide (image.client ≠ share.client)) = false :=
          List.any_eq_false.2 fun image mem => by simp [own image mem]
        rw [if_neg unseen, checkImages, none, if_neg Bool.false_ne_true, ← first]
        cases images.find? fun image => image.kind ≠ r.type.imageKind <;> rfl
  · rw [if_pos fits, if_pos fits]

private theorem parallel_record (own : Owned share texts True r) (also : Owned share others True r)
    (images seen : List Image) :
    Parallel share texts others (record r.drawn r.type r.client r.references images)
      (record r.drawn r.type r.client r.references seen) Eq := by
  rw [record_eq, record_eq]
  refine .call trivial own.text also.text fun known => ?_
  cases known with
  | some id => exact .call trivial trivial trivial fun _ => .done rfl
  | none =>
    unfold afterLookup
    cases fits : r.task? with
    | none => exact .done rfl
    | some task =>
      -- The two records differ in the numbers of the images, which nothing tells.
      refine .create rfl rfl rfl ⟨own.text, own.drawn, own.client⟩ ⟨also.text, also.drawn, also.client⟩
        fun reply mine => ?_
      match reply with
      | .error e => exact .done rfl
      | .ok (.existing known) =>
        have known' : known ∈ share.ids := mine known rfl
        rw [afterCreate, answerExisting_eq]
        refine .call trivial trivial trivial fun _ => .find known' (fun _ => .done rfl) (.done rfl) ?_
        intro job other same _ _
        simp only [afterFind, JobTable.status_eq same]
        split
        · exact .call trivial ⟨own.text, iff_of_true known' trivial⟩ ⟨also.text, iff_of_true known' trivial⟩
            fun _ => .done rfl
        · exact .done rfl
      | .ok .created =>
        rw [afterCreate_created fits]
        refine .call trivial (own.wants fits) (also.wants fits) fun queued => ?_
        cases queued with
        | error e => exact .call trivial own.drawn also.drawn fun _ => .done rfl
        | ok _ =>
          exact .call trivial ⟨own.text, own.drawn⟩ ⟨also.text, also.drawn⟩
            fun _ => .call trivial trivial trivial fun _ => .done rfl

/-- A submission of the client ends alike in worlds in which it sees the same: with the same job, or
with errors that are answered the same. -/
theorem Alike.submit (alike : Alike share texts others w v) (mine : r.client = share.client)
    (own : ∀ images, w.checked r = .ok images → Owned share texts True r)
    (also : ∀ images, v.checked r = .ok images → Owned share others True r) :
    ∃ result after other later, w.run r.program = some (result, after) ∧
      v.run r.program = some (other, later) ∧ Alike share texts others after later ∧
      result.mapError ApiError.ofSubmit = other.mapError ApiError.ofSubmit := by
  have same : w.refusal? r = v.refusal? r := by
    rw [alike.left.refusal?_eq mine, alike.right.refusal?_eq mine, alike.view]
  rw [w.run_program r, v.run_program r]
  unfold World.refusal? at same
  cases passed : w.checked r with
  | error e =>
    cases passes : v.checked r with
    | error e' =>
      rw [passed, passes] at same
      exact ⟨_, w, _, v, rfl, rfl, alike, congrArg Except.error (Option.some.inj same)⟩
    | ok seen =>
      rw [passed, passes] at same
      cases same
  | ok images =>
    cases passes : v.checked r with
    | error e' =>
      rw [passed, passes] at same
      cases same
    | ok seen =>
      obtain ⟨result, after, other, later, ran, goes, stay, equal⟩ :=
        parallel_record (own images passed) (also seen passes) images seen alike
      exact ⟨result, after, other, later, ran, goes, stay, equal ▸ rfl⟩

end Vetting.Memory
