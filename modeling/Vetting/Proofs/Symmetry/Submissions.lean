import Vetting.Proofs.Fingerprint
import Vetting.Proofs.Symmetry.Reordering

/-!
Two submissions of one client that name a pair of faces in either order and draw one id. They are answered
alike, and leave one world, or two that differ in the order of the images of the new job and of the pair in
its payload (`Mirrors`, `World.submitted_pair`). Neither the fingerprint nor the checks depend on the order,
but for the reference that a refusal names.
-/
namespace Vetting

open Memory

/-- An error without the reference that it names. -/
def SubmitError.unnamed : SubmitError → SubmitError
  | .unknownImage _ => .unknownImage ""
  | .wrongKind expected _ => .wrongKind expected ""
  | e => e

/-- A submission of a pair of faces. -/
def Request.ofPair (drawn : JobId) (client : Int) (a b : String) : Request :=
  ⟨drawn, .faceMatch, client, [a, b]⟩

@[simp] theorem Request.fingerprint_ofPair (drawn : JobId) (client : Int) (a b : String) :
    (ofPair drawn client b a).fingerprint = (ofPair drawn client a b).fingerprint := by
  have source : Fingerprint.source .faceMatch client [b, a] = Fingerprint.source .faceMatch client [a, b] :=
    Fingerprint.source_perm (List.Perm.swap a b [])
  simp only [fingerprint, ofPair, Fingerprint.compute, source]

/-- Whether a record is of a comparison for a client and has no result. -/
structure Job.Unscored (client : Int) (job : Job) : Prop where
  type : job.type = .faceMatch
  client : job.client = client
  result : job.result = none

namespace Memory

/-- What comes of two submissions of a client that name a pair in either order and draw one id: the result
of either, and the world that it leaves. -/
inductive Mirrors (start : World) (drawn : JobId) (client : Int) (a b : String) :
    Except SubmitError JobId → World → Except SubmitError JobId → World → Prop
  /-- Both are refused, for the same reason. -/
  | refused {e other : SubmitError} (same : e.unnamed = other.unnamed) :
      Mirrors start drawn client a b (.error e) start (.error other) start
  /-- Both are answered with a job that was there. -/
  | answered {id : JobId} {after : World} (store : after.store = start.store)
      (pending : after.pending = start.pending) :
      Mirrors start drawn client a b (.ok id) after (.ok id) after
  /-- Both record a job that the queue does not take. -/
  | unqueued {error : QueueError} {after : World} {job : Job}
      (found : after.store.job? drawn = some job) (unscored : job.Unscored client)
      (pending : after.pending = start.pending) :
      Mirrors start drawn client a b (.error (.queue error)) after (.error (.queue error))
        (after.withImages drawn List.reverse)
  /-- Both record a job and queue it. -/
  | queued {after : World} {job : Job} (found : after.store.job? drawn = some job)
      (unscored : job.Unscored client) (created : job.status = .created)
      (pending : after.pending = start.pending ++ [Task.encode (.faceMatch ⟨drawn, a, b⟩)]) :
      Mirrors start drawn client a b (.ok drawn) after (.ok drawn)
        { after.withImages drawn List.reverse with
          pending := start.pending ++ [Task.encode (.faceMatch ⟨drawn, b, a⟩)] }

namespace World

variable {w : World} {drawn : JobId} {client : Int} {a b : String}

private theorem found_pair (w : World) (a b : String) :
    (∃ x y, w.found [a, b] = .ok [x, y] ∧ w.found [b, a] = .ok [y, x]) ∨
      ∃ e other, w.found [a, b] = .error e ∧ w.found [b, a] = .error other ∧
        e.unnamed = other.unnamed := by
  by_cases broken : w.faults .images = true
  · exact .inr ⟨_, _, if_pos broken, if_pos broken, rfl⟩
  simp only [found, if_neg broken]
  cases w.images.lookup a with
  | none =>
    cases w.images.lookup b with
    | none => exact .inr ⟨_, _, rfl, rfl, rfl⟩
    | some y => exact .inr ⟨_, _, rfl, rfl, rfl⟩
  | some x =>
    cases w.images.lookup b with
    | none => exact .inr ⟨_, _, rfl, rfl, rfl⟩
    | some y => exact .inl ⟨x, y, rfl, rfl⟩

private theorem checkImages_pair (type : JobType) (client : Int) (x y : Image) :
    (Submission.checkImages type client [x, y] = .ok () ∧
        Submission.checkImages type client [y, x] = .ok ()) ∨
      ∃ e other, Submission.checkImages type client [x, y] = .error e ∧
        Submission.checkImages type client [y, x] = .error other ∧ e.unnamed = other.unnamed := by
  by_cases foreign : x.client ≠ client ∨ y.client ≠ client
  · refine .inr ⟨.foreignImage, .foreignImage, if_pos ?_, if_pos ?_, rfl⟩
    · simpa using foreign
    · simpa using foreign.symm
  have own : x.client = client ∧ y.client = client := by simpa only [not_or, not_not] using foreign
  by_cases left : x.kind = type.imageKind
  · by_cases right : y.kind = type.imageKind
    · exact .inl (by simp [Submission.checkImages, own, left, right])
    · exact .inr (by simp [Submission.checkImages, own, left, right])
  · by_cases right : y.kind = type.imageKind
    · exact .inr (by simp [Submission.checkImages, own, left, right])
    · exact .inr (by simp [Submission.checkImages, own, left, right, SubmitError.unnamed])

/-- The checks let the pair pass in either order, or refuse it for the same reason. -/
theorem checked_pair (w : World) (drawn : JobId) (client : Int) (a b : String) :
    (∃ x y, w.checked (.ofPair drawn client a b) = .ok [x, y] ∧
        w.checked (.ofPair drawn client b a) = .ok [y, x]) ∨
      ∃ e other, w.checked (.ofPair drawn client a b) = .error e ∧
        w.checked (.ofPair drawn client b a) = .error other ∧ e.unnamed = other.unnamed := by
  simp only [checked, Request.ofPair]
  rcases w.found_pair a b with ⟨x, y, found, also⟩ | ⟨e, other, found, also, same⟩
  · simp only [found, also]
    rcases checkImages_pair .faceMatch client x y with ⟨good, fine⟩ | ⟨e, other, refused, too, same⟩
    · simp only [good, fine]
      exact .inl ⟨x, y, rfl, rfl⟩
    · simp only [refused, too]
      exact .inr ⟨e, other, rfl, rfl, same⟩
  · simp only [found, also]
    exact .inr ⟨e, other, rfl, rfl, same⟩

private theorem noted_eq (w : World) (fingerprint : Fingerprint) (id : JobId) : w.noted fingerprint id =
    { w with cache := if w.faults .cache then w.cache else Assoc.put fingerprint id w.cache } := by
  unfold noted
  split <;> rfl

private theorem recognised_ofPair (w : World) (drawn : JobId) (client : Int) (a b : String) (id : JobId) :
    w.recognised (.ofPair drawn client b a) id = w.recognised (.ofPair drawn client a b) id := by
  simp only [recognised, Request.fingerprint_ofPair drawn client a b]
  rfl

private theorem recognised_keeps (w : World) (r : Request) (id : JobId) :
    (w.recognised r id).store = w.store ∧ (w.recognised r id).pending = w.pending := by
  unfold recognised
  dsimp only
  split
  · exact noted_keeps _ _
  · exact ⟨rfl, rfl⟩

private theorem abandon_withImages (id : JobId) (f : List Int → List Int) (w : World) (other : JobId)
    (reason : String) :
    ((w.withImages id f).abandon other reason).2 = (w.abandon other reason).2.withImages id f := by
  have faults : (w.withImages id f).faults = w.faults := rfl
  have stored : (w.withImages id f).store.abandon (w.withImages id f).now other reason =
      (w.store.abandon w.now other reason).withImages id f := JobTable.abandon_withImages reason
  rw [abandon, abandon, stored, faults]
  split <;> rfl

/-- A record that was just made has no result, and has none if it is abandoned. -/
theorem unscored_abandon {job : Job} (found : w.store.job? drawn = some job) (unscored : job.Unscored client)
    (created : job.status = .created) (reason : String) :
    ∃ later, (w.abandon drawn reason).2.store.job? drawn = some later ∧ later.Unscored client := by
  unfold abandon
  split
  · exact ⟨job, found, unscored⟩
  · exact ⟨_, JobTable.job?_abandon_self w.now reason found created,
      unscored.type, unscored.client, unscored.result⟩

private theorem enqueued_pair {job : Job} (found : w.store.job? drawn = some job)
    (unscored : job.Unscored client)
    (created : job.status = .created) {start : World} (pending : w.pending = start.pending) :
    Mirrors start drawn client a b
      (w.enqueued (.ofPair drawn client a b) (.faceMatch ⟨drawn, a, b⟩)).1
      (w.enqueued (.ofPair drawn client a b) (.faceMatch ⟨drawn, a, b⟩)).2
      ((w.withImages drawn List.reverse).enqueued (.ofPair drawn client b a)
        (.faceMatch ⟨drawn, b, a⟩)).1
      ((w.withImages drawn List.reverse).enqueued (.ofPair drawn client b a)
        (.faceMatch ⟨drawn, b, a⟩)).2 := by
  have faults : (w.withImages drawn List.reverse).faults = w.faults := rfl
  rw [enqueued, enqueued, faults, abandon_withImages, Request.fingerprint_ofPair drawn client a b]
  split
  · obtain ⟨later, there, still⟩ := unscored_abandon found unscored created Submission.unqueuedReason
    refine .unqueued there still ?_
    rw [← pending]
    show (w.abandon drawn _).2.pending = w.pending
    unfold abandon
    split <;> rfl
  · let payload : List UInt8 := Task.encode (.faceMatch ⟨drawn, a, b⟩)
    let other : List UInt8 := Task.encode (.faceMatch ⟨drawn, b, a⟩)
    let fingerprint := (Request.ofPair drawn client a b).fingerprint
    let offered : World := { w with pending := w.pending ++ [payload] }
    let after := (offered.noted fingerprint drawn).counted (.submitted .faceMatch)
    obtain ⟨store, queue⟩ := noted_keeps (w := offered) fingerprint drawn
    -- Neither the cache nor the counts depend on what the queue was offered.
    have mirrored : ({ w.withImages drawn List.reverse with
          pending := w.pending ++ [other] }.noted fingerprint drawn).counted (.submitted .faceMatch) =
        { after.withImages drawn List.reverse with pending := start.pending ++ [other] } := by
      simp only [after, offered, noted_eq, ← pending]
      rfl
    show Mirrors start drawn client a b (.ok drawn) after (.ok drawn)
      (({ w.withImages drawn List.reverse with
          pending := w.pending ++ [other] }.noted fingerprint drawn).counted (.submitted .faceMatch))
    rw [mirrored]
    refine .queued ?_ unscored created ?_
    · exact (congrArg (·.job? drawn) store).trans found
    · exact queue.trans (congrArg (· ++ [payload]) pending)

/-- Records with one fingerprint are both made, or neither is. -/
theorem create_pair (w : World) (new : NewJob) :
    (∃ error, w.create new = (.error error, w) ∧
        w.create { new with imageIds := new.imageIds.reverse } = (.error error, w)) ∨
      (∃ id, w.create new = (.ok (.existing id), w) ∧
        w.create { new with imageIds := new.imageIds.reverse } = (.ok (.existing id), w)) ∨
      (w.create new = (.ok .created, { w with store := w.store.recorded w.now new }) ∧
        w.create { new with imageIds := new.imageIds.reverse } =
          (.ok .created, { w with store := w.store.recorded w.now new }.withImages new.id List.reverse)) := by
  unfold create
  split
  · exact .inl ⟨_, rfl, rfl⟩
  split
  · exact .inl ⟨_, rfl, rfl⟩
  cases taken : w.store.fingerprints.lookup new.fingerprint with
  | some id =>
    have also : w.store.create w.now { new with imageIds := new.imageIds.reverse } =
      (.existing id, w.store) := JobTable.create_taken taken
    refine .inr (.inl ⟨id, ?_, ?_⟩)
    · rw [JobTable.create_taken taken]
    · rw [also]
  | none =>
    have also : w.store.create w.now { new with imageIds := new.imageIds.reverse } =
      (.created, (w.store.recorded w.now new).withImages new.id List.reverse) := by
      rw [JobTable.recorded_withImages]
      exact JobTable.create_free taken
    refine .inr (.inr ⟨?_, ?_⟩)
    · rw [JobTable.create_free taken]
    · rw [also]
      rfl

private theorem attempted_pair (w : World) (drawn : JobId) (client : Int) (a b : String) (x y : Image) :
    Mirrors w drawn client a b (w.attempted (.ofPair drawn client a b) [x, y]).1
      (w.attempted (.ofPair drawn client a b) [x, y]).2 (w.attempted (.ofPair drawn client b a) [y, x]).1
      (w.attempted (.ofPair drawn client b a) [y, x]).2 := by
  unfold attempted
  rw [Request.fingerprint_ofPair drawn client a b]
  cases w.cached (Request.ofPair drawn client a b).fingerprint with
  | some id => exact .answered rfl rfl
  | none =>
    -- What the store is given has one fingerprint, so the store takes both or neither.
    have other : (Request.ofPair drawn client b a).job [y, x] =
        { (Request.ofPair drawn client a b).job [x, y] with
          imageIds := ((Request.ofPair drawn client a b).job [x, y]).imageIds.reverse } := by
      simp only [Request.job, Request.fingerprint_ofPair drawn client a b]
      rfl
    have fits : (Request.ofPair drawn client a b).task? = some (.faceMatch ⟨drawn, a, b⟩) := rfl
    have also : (Request.ofPair drawn client b a).task? = some (.faceMatch ⟨drawn, b, a⟩) := rfl
    simp only [fits, also, other]
    rcases create_pair w ((Request.ofPair drawn client a b).job [x, y]) with
      ⟨error, made, too⟩ | ⟨id, made, too⟩ | ⟨made, too⟩
    · simp only [made, too]
      exact .refused rfl
    · simp only [made, too, w.recognised_ofPair drawn client a b]
      obtain ⟨store, pending⟩ := recognised_keeps w (.ofPair drawn client a b) id
      exact .answered store pending
    · simp only [made, too]
      have found :
          (w.store.recorded w.now ((Request.ofPair drawn client a b).job [x, y])).job? drawn = some _ :=
        JobTable.job?_recorded.trans (if_pos rfl)
      refine enqueued_pair found ?_ ?_ ?_
      · exact ⟨rfl, rfl, rfl⟩
      · rfl
      · rfl

/-- Two submissions that name a pair in either order come to the same. -/
theorem submitted_pair (w : World) (drawn : JobId) (client : Int) (a b : String) :
    Mirrors w drawn client a b (w.submitted (.ofPair drawn client a b)).1
      (w.submitted (.ofPair drawn client a b)).2 (w.submitted (.ofPair drawn client b a)).1
      (w.submitted (.ofPair drawn client b a)).2 := by
  unfold submitted
  rcases w.checked_pair drawn client a b with ⟨x, y, passed, also⟩ | ⟨e, other, refused, also, same⟩
  · simp only [passed, also]
    exact w.attempted_pair drawn client a b x y
  · simp only [refused, also]
    exact .refused same

end World

namespace Mirrors

variable {start after later : World} {drawn : JobId} {client : Int} {a b : String}
  {result other : Except SubmitError JobId}

theorem result_eq (mirrors : Mirrors start drawn client a b result after other later) :
    result.mapError SubmitError.unnamed = other.mapError SubmitError.unnamed := by
  cases mirrors with
  | refused same => exact congrArg Except.error same
  | _ => rfl

theorem metrics_eq (mirrors : Mirrors start drawn client a b result after other later) :
    later.metrics = after.metrics := by
  cases mirrors <;> rfl

theorem cache_eq (mirrors : Mirrors start drawn client a b result after other later) :
    later.cache = after.cache := by
  cases mirrors <;> rfl

theorem fingerprints_eq (mirrors : Mirrors start drawn client a b result after other later) :
    later.store.fingerprints = after.store.fingerprints := by
  cases mirrors <;> rfl

end Mirrors

end Memory

end Vetting
