import Vetting.Proofs.Pool

/-!
How far a submission gets by itself. One whose images pass their checks looks for its work
(`Reachable.looks`); new work is recorded and waits for the queue (`Reachable.records`), and work whose
job is there already is recognised (`Reachable.recognises`).
-/
namespace Vetting.Memory.Pool

open Submission (Stage)

theorem Step.moves {p : Pool} {front back : List Thread} {r : Request} {stage later : Stage r}
    {event : Event} {after : World} (threads : p.threads = front ++ .submission r stage.program :: back)
    (moves : Submission.Moves p.world stage event later after) :
    p.Step .turn ⟨after, p.trace ++ [event], front ++ .submission r later.program :: back⟩ := by
  refine .turn threads ?_
  rw [Thread.turn, Submission.turnOf_of_moves moves]
  rfl

namespace Reachable

variable {Allowed : Pool → Action → Prop} {start w : World} {trace : List Event}
  {front back threads : List Thread} {r : Request}

private theorem calls {rest left : Service (Except SubmitError JobId)} {event : Event} {after : World}
    (allowed : ∀ p, Allowed p .turn) (turned : w.turnOf rest = some (event, left, after))
    (reach : Reachable Allowed start ⟨w, trace, front ++ .submission r rest :: back⟩) :
    Reachable Allowed start ⟨after, trace ++ [event], front ++ .submission r left :: back⟩ := by
  refine .act reach (allowed _) (.turn rfl ?_)
  rw [Thread.turn, turned]
  rfl

theorem moves (front back : List Thread) {stage later : Stage r} {event : Event} {after : World}
    (allowed : ∀ p, Allowed p .turn) (moves : Submission.Moves w stage event later after)
    (reach : Reachable Allowed start ⟨w, trace, front ++ .submission r stage.program :: back⟩) :
    Reachable Allowed start
      ⟨after, trace ++ [event], front ++ .submission r later.program :: back⟩ :=
  .act reach (allowed _) (.moves rfl moves)

private theorem finds (allowed : ∀ p, Allowed p .turn) (working : w.faults .images = false)
    {left : List String} {images : List Image}
    (found : List.Forall₂ (fun reference image => w.images.lookup reference = some image) left images) :
    ∀ {trace : List Event} {before : List Image},
      Reachable Allowed start
        ⟨w, trace, front ++ .submission r (Submission.findMore r before left) :: back⟩ →
      ∃ more, (∀ event ∈ more, event.Plain) ∧ Reachable Allowed start ⟨w, trace ++ more,
        front ++ .submission r (Submission.afterFinding r (.ok (before ++ images))) :: back⟩ := by
  induction found with
  | nil => exact fun reach => ⟨[], by simp, by rwa [List.append_nil]⟩
  | @cons reference image left images here _ ih =>
    intro trace before reach
    have answered : w.perform (.findImage reference) = some (.ok (some image), w) := by
      simp only [World.perform, working, Bool.false_eq_true, ↓reduceIte, here]
    rw [Submission.findMore_cons] at reach
    obtain ⟨more, plain, reached⟩ := ih (calls allowed (World.turnOf_answered answered) reach)
    refine ⟨⟨w, .findImage reference, .ok (some image)⟩ :: more, ?_, by simpa using reached⟩
    exact List.forall_mem_cons.2 ⟨⟨rfl, rfl, rfl⟩, plain⟩

theorem looks {images : List Image} (allowed : ∀ p, Allowed p .turn)
    (opens : ∀ p, Allowed p (.submit r)) (valid : r.Valid w images)
    (reach : Reachable Allowed start ⟨w, trace, threads⟩)
    (fresh : ∀ other ∈ requests ⟨w, trace, threads⟩, r.drawn ≠ other.drawn) :
    ∃ more, (∀ event ∈ more, event.Plain) ∧ Reachable Allowed start ⟨w, trace ++ more,
      threads ++ [.submission r (Stage.looking images : Stage r).program]⟩ := by
  have begun := Reachable.act reach (opens _) (.submit fresh)
  rw [Submission.program_eq_findMore valid.fits] at begun
  obtain ⟨more, plain, reached⟩ := finds allowed valid.working valid.found begun
  refine ⟨more, plain, ?_⟩
  rw [Submission.afterFinding, List.nil_append, valid.good] at reached
  exact reached

theorem records {images : List Image} {task : Task} (fits : r.task? = some task)
    (allowed : ∀ p, Allowed p .turn) (opens : ∀ p, Allowed p (.submit r)) (valid : r.Valid w images)
    (unknown : w.cached r.fingerprint = none)
    (free : w.store.fingerprints.lookup r.fingerprint.text = none) (working : w.Records)
    (reach : Reachable Allowed start ⟨w, trace, threads⟩)
    (fresh : ∀ other ∈ requests ⟨w, trace, threads⟩, r.drawn ≠ other.drawn) :
    ∃ more, recordedIn more = [r.drawn] ∧ abandonedIn more = [] ∧ queuedIn more = [] ∧
      Reachable Allowed start
        ⟨{ w with store := w.store.recorded w.now (r.job images) }, trace ++ more,
          threads ++ [.submission r (Stage.publishing task fits).program]⟩ := by
  obtain ⟨more, plain, looking⟩ := looks allowed opens valid reach fresh
  have vacant : w.store.fingerprints.lookup (r.job images).fingerprint = none := free
  have made : w.create (r.job images) =
      (.ok .created, { w with store := w.store.recorded w.now (r.job images) }) := by
    rw [working.create_eq, JobTable.create_free vacant]
  have missed : Submission.Moves w (.looking images) ⟨w, .lookup r.fingerprint, none⟩
      (.creating images task fits) w := .missed unknown
  have creating := looking.moves threads [] allowed missed
  have publishing := creating.moves threads [] allowed (.recorded made free)
  rw [List.append_assoc, List.append_assoc] at publishing
  refine ⟨_, ?_, ?_, ?_, publishing⟩
  · rw [recordedIn_append, recordedIn_of_plain plain]
    rfl
  · rw [abandonedIn_append, abandonedIn_of_plain plain]
    rfl
  · rw [queuedIn_append, queuedIn_of_plain plain]
    rfl

theorem recognises {images : List Image} {id : JobId} (allowed : ∀ p, Allowed p .turn)
    (opens : ∀ p, Allowed p (.submit r)) (valid : r.Valid w images)
    (unknown : w.cached r.fingerprint = none)
    (taken : w.store.fingerprints.lookup r.fingerprint.text = some id) (working : w.Records)
    (reach : Reachable Allowed start ⟨w, trace, threads⟩)
    (fresh : ∀ other ∈ requests ⟨w, trace, threads⟩, r.drawn ≠ other.drawn) :
    ∃ more, (∀ event ∈ more, event.Plain) ∧
      Reachable Allowed start
        ⟨w.counted (.deduplicated r.type), trace ++ more,
          threads ++ [.submission r (Stage.inspecting id : Stage r).program]⟩ := by
  obtain ⟨more, plain, looking⟩ := looks allowed opens valid reach fresh
  have made : w.create (r.job images) = (.ok (.existing id), w) := by
    have held : w.store.fingerprints.lookup (r.job images).fingerprint = some id := taken
    rw [working.create_eq, JobTable.create_taken held]
  obtain ⟨task, fits⟩ := Request.exists_task valid.fits
  have missed : Submission.Moves w (.looking images) ⟨w, .lookup r.fingerprint, none⟩
      (.creating images task fits) w := .missed unknown
  have creating := looking.moves threads [] allowed missed
  have recognising := creating.moves threads [] allowed (.duplicate made taken)
  have inspecting := recognising.moves threads [] allowed .recognised
  rw [List.append_assoc, List.append_assoc, List.append_assoc] at inspecting
  refine ⟨_, ?_, inspecting⟩
  intro event mem
  simp only [List.mem_append, List.mem_cons, List.not_mem_nil, or_false] at mem
  rcases mem with old | rfl | rfl | rfl
  · exact plain event old
  · exact ⟨rfl, rfl, rfl⟩
  · exact ⟨rfl, rfl, rfl⟩
  · exact ⟨rfl, rfl, rfl⟩

/-- A submission is answered with a job that is only recorded, and does not tell the cache. -/
theorem answers (front back : List Thread) {id : JobId} (allowed : ∀ p, Allowed p .turn)
    (idle : ∀ job, w.find id r.type = .ok (some job) → job.status = .created)
    (reach : Reachable Allowed start
      ⟨w, trace, front ++ .submission r (Stage.inspecting id : Stage r).program :: back⟩) :
    ∃ event : Event, event.Plain ∧ Reachable Allowed start
      ⟨w, trace ++ [event], front ++ .submission r (.done (.ok id)) :: back⟩ :=
  ⟨⟨w, .find id r.type, w.find id r.type⟩, ⟨rfl, rfl, rfl⟩,
    reach.moves front back allowed (.unstarted rfl idle)⟩

/-- A submission whose job cannot be queued abandons it. -/
theorem withdraws (front back : List Thread) {task : Task} {fits : r.task? = some task}
    (allowed : ∀ p, Allowed p .turn)
    (broken : w.faults .publish = true) (working : w.faults .abandon = false)
    (unstarted : w.store.Unstarted r.drawn)
    (reach : Reachable Allowed start
      ⟨w, trace, front ++ .submission r (Stage.publishing task fits).program :: back⟩) :
    ∃ more, recordedIn more = [] ∧ abandonedIn more = [r.drawn] ∧ queuedIn more = [] ∧
      Reachable Allowed start
        ⟨{ w with store := w.store.abandon w.now r.drawn Submission.unqueuedReason }, trace ++ more,
          front ++ .submission r (.done (.error (.queue World.brokerFailure))) :: back⟩ := by
  have withdrawing := reach.moves front back allowed (.unqueued broken)
  have finished := withdrawing.moves front back allowed (.withdrawn working)
  rw [List.append_assoc] at finished
  have told : Event.abandoned? ⟨w, .abandon r.drawn Submission.unqueuedReason, .ok ()⟩ = some r.drawn :=
    if_pos unstarted
  refine ⟨_, rfl, ?_, rfl, finished⟩
  exact (List.filterMap_cons_none rfl).trans (List.filterMap_cons_some told)

/-- Work is submitted again while its job waits for the queue: the second submission is about to ask
for the progress of that job. -/
theorem races {first : Request} (second : Request) {images : List Image} {task : Task}
    (fits : first.task? = some task) (same : second.fingerprint = first.fingerprint)
    (different : second.drawn ≠ first.drawn) (allowed : ∀ p, Allowed p .turn)
    (opens : ∀ p r, Allowed p (.submit r)) (fresh : start.Fresh) (working : start.Records)
    (valid : first.Valid start images) (again : second.Valid start images) :
    ∃ trace, recordedIn trace = [first.drawn] ∧ abandonedIn trace = [] ∧ queuedIn trace = [] ∧
      Reachable Allowed start
        ⟨{ start with store := start.store.recorded start.now (first.job images) }.counted
            (.deduplicated second.type), trace,
          [.submission first (Stage.publishing task fits).program,
            .submission second (Stage.inspecting first.drawn : Stage second).program]⟩ := by
  have free : start.store.fingerprints.lookup first.fingerprint.text = none := by
    rw [fresh.store]
    rfl
  have unknown : ∀ fingerprint, start.cached fingerprint = none := by
    intro fingerprint
    unfold World.cached
    rw [fresh.cache]
    split <;> rfl
  obtain ⟨opening, recorded, abandoned, queued, waiting⟩ := records fits allowed (opens · first) valid
    (unknown _) free working .start (by simp [requests])
  have held : (start.store.recorded start.now (first.job images)).fingerprints.lookup
      second.fingerprint.text = some first.drawn := by
    have vacant : start.store.fingerprints.lookup (first.job images).fingerprint = none := free
    rw [same, JobTable.lookup_recorded vacant]
    exact if_pos rfl
  obtain ⟨more, plain, inspecting⟩ := recognises
    (w := { start with store := start.store.recorded start.now (first.job images) }) allowed
    (opens · second) ⟨again.fits, again.working, again.found, again.good⟩ (unknown _) held
    ⟨working.peaceful, working.working⟩ waiting (by simpa [requests] using different)
  refine ⟨_, ?_, ?_, ?_, inspecting⟩
  · simpa [recordedIn_of_plain plain] using recorded
  · simpa [abandonedIn_of_plain plain] using abandoned
  · simpa [queuedIn_of_plain plain] using queued

end Reachable

/-- A card that client 1 has uploaded. -/
def card : Image := ⟨1, "card", .idCard, 1, "1/card.png", 120⟩

/-- A world with the card and with these faults. -/
def deskWorld (faults : Faults) : World :=
  { World.empty ⟨simulatedMatch .zero, simulatedRead .zero, none⟩
      ⟨⟨2024, 6, 1, by decide, by decide⟩, 12, 0, 0, 0, by decide, by decide, by decide, by decide⟩ with
    images := [("card", card)], faults }

/-- A submission of the card that draws an id of equal bytes. -/
def cardRequest (byte : UInt8) : Request :=
  ⟨⟨List.replicate 16 byte, List.length_replicate⟩, .ocr, 1, ["card"]⟩

theorem fresh_deskWorld (faults : Faults) : (deskWorld faults).Fresh := ⟨rfl, rfl, rfl, rfl, rfl⟩

theorem valid_cardRequest {faults : Faults} (working : faults .images = false) (byte : UInt8) :
    (cardRequest byte).Valid (deskWorld faults) [card] := by
  refine ⟨rfl, working, ?_, rfl⟩
  exact .cons List.lookup_cons_self .nil

end Vetting.Memory.Pool
