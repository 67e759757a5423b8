import Vetting.Proofs.Delivery
import Vetting.Proofs.Intrusion
import Vetting.Proofs.Symmetry.Submissions
import Vetting.Proofs.Symmetry.Twins

/-!
The order of a pair of faces makes no difference (`pair_order_indifferent`), neither to its submission nor to
what a worker makes of it whose stand-in compares faces: the stand-in puts the pair in order itself
(`simulatedScore_comm`). Whatever fails on the way, a score is in its range (`Worker.scored_work`), and where
nothing hinders the worker there is one (`World.Serves.drained_eq`).
-/
namespace Vetting

open Memory

theorem simulatedScore_comm (image1 image2 : String) :
    simulatedScore image1 image2 = simulatedScore image2 image1 := by
  have same : (if image2 < image1 then (image2, image1) else (image1, image2)) =
      if image1 < image2 then (image1, image2) else (image2, image1) := by
    rcases lt_trichotomy image1 image2 with less | rfl | greater
    · rw [if_neg (lt_asymm less), if_pos less]
    · rfl
    · rw [if_pos greater, if_neg (lt_asymm greater)]
  rw [simulatedScore, simulatedScore, same]

namespace Memory

namespace World

variable {w v : World} {id : JobId}

/-- A world whose stand-in compares faces, in so much time. -/
def matching (latency : Span) (w : World) : World :=
  { w with executors := { w.executors with matchFaces := simulatedMatch latency } }

/-- How a drain ends, and the status and the result with which it leaves a job. -/
def drained (w : World) (id : JobId) :
    Option (Except QueueError Unit × Option (JobStatus × Option JobResult)) :=
  (w.run Worker.work).map fun (outcome, after) =>
    (outcome, (after.store.job? id).map fun job => (job.status, job.result))

private theorem evenhanded_matching (latency : Span) (w : World) :
    (w.matching latency).executors.Evenhanded := by
  intro image1 image2
  show simulatedMatch latency image1 image2 = simulatedMatch latency image2 image1
  rw [simulatedMatch, simulatedMatch, simulatedScore_comm]

private theorem drained_alike (even : v.executors.Evenhanded) (same : w.bare id = v.bare id)
    (carries : List.Forall₂ Task.Carries w.pending v.pending) : w.drained id = v.drained id := by
  -- What is told of the job can be told of what is left of the world.
  have told : ∀ u : World, u.drained id =
      ((u.run Worker.work).map (bareEnd id)).map fun (outcome, after) =>
        (outcome, (after.store.job? id).map fun job => (job.status, job.result)) := by
    intro u
    rw [drained, Option.map_map]
    refine congrArg (fun f => Option.map f (u.run Worker.work)) (funext fun (outcome, after) => ?_)
    have there : (after.bare id).store.job? id =
        (after.store.job? id).map fun job => job.withImages fun _ => [] := by
      refine (JobTable.job?_withImages (t := after.store)).trans ?_
      simp only [if_true]
    simp only [Function.comp, bareEnd, there, Option.map_map]
    rfl
  rw [told, told, work_alike even same carries]

end World

/-- What two submissions of a pair leave is drained alike. -/
theorem Mirrors.drained_eq {start after later : World} {drawn : JobId} {client : Int} {a b : String}
    {result other : Except SubmitError JobId}
    (mirrors : Mirrors start drawn client a b result after other later) (latency : Span) :
    (after.matching latency).drained drawn = (later.matching latency).drained drawn := by
  have self : ∀ payloads, List.Forall₂ Task.Carries payloads payloads :=
    fun payloads => List.forall₂_same.2 fun payload _ => .same payload
  cases mirrors with
  | refused => rfl
  | answered => rfl
  | unqueued =>
    refine World.drained_alike (World.evenhanded_matching latency _) ?_ (self after.pending)
    exact (World.bare_withImages (w := after.matching latency)).symm
  | queued _ _ _ pending =>
    refine World.drained_alike (World.evenhanded_matching latency _) ?_ ?_
    · exact (World.bare_withImages (w := after.matching latency)).symm
    · show List.Forall₂ Task.Carries after.pending _
      rw [pending]
      exact List.rel_append (self start.pending)
        (.cons (.turned (Task.decode_encode _) (Task.decode_encode _)) .nil)

end Memory

/-- Whether a result is in the range of scores, if it is a score. -/
def JobResult.InRange (result : JobResult) : Prop :=
  ∀ score, result = .faceMatch score → leastScore ≤ score ∧ score ≤ greatestScore

namespace Memory

/-- Whether a job that is recorded has no score, or one that is in the range. -/
def World.Scored (w : World) (id : JobId) : Prop :=
  ∀ job ∈ w.store.job? id, ∀ result ∈ job.result, result.InRange

namespace World

variable {w : World} {id : JobId}

private theorem Scored.change (scored : w.Scored id) {other : JobId} {sources : List JobStatus}
    {apply : Job → Job} (ranges : ∀ job : Job, (∀ result ∈ job.result, result.InRange) →
      ∀ result ∈ (apply job).result, result.InRange) :
    ({ w with store := (w.store.change other sources apply).2 } : World).Scored id := by
  intro later found
  rcases JobTable.left_of_change found with there | ⟨_, job, there, _, rfl⟩
  · exact scored later there
  · exact ranges job (scored job there)

private theorem Scored.complete (scored : w.Scored id) {result : JobResult} (inRange : result.InRange)
    (other : JobId) : (w.complete other result).2.Scored id := by
  unfold World.complete
  split
  · exact scored
  · refine scored.change fun job _ told same => ?_
    cases same
    exact inRange

private theorem Scored.fail (scored : w.Scored id) (reason : String) (other : JobId) :
    (w.fail other reason).2.Scored id := by
  unfold World.fail
  split
  · exact scored
  · exact scored.change fun job ranges => ranges

private theorem Scored.execute {after : World} (scored : w.Scored id) {task : Task}
    {outcome : Except ExecutionError JobResult} (ran : w.execute task = some (outcome, after)) :
    after.Scored id ∧ ∀ result, outcome = .ok result → result.InRange := by
  unfold World.execute at ran
  cases course : w.executors.execute task with
  | hangs => simp [course] at ran
  | answers latency answer =>
    have ranges : ∀ result, answer = .ok result → result.InRange := by
      rintro result rfl
      exact (Executors.execute_fits course).2
    have kept : ∀ interruption,
        (World.interrupt { w with waited := w.waited + latency.nanos } interruption).Scored id := by
      intro interruption
      have still : ({ w with waited := w.waited + latency.nanos } : World).Scored id := scored
      cases interruption with
      | completes other =>
        refine still.complete ?_ other
        rintro score ⟨⟩
        decide
      | fails other => exact still.fail _ other
      | breaksWrites => exact still
    simp only [course] at ran
    split at ran
    · cases ran
      refine ⟨?_, ranges⟩
      split
      · exact kept _
      · exact scored
    · cases ran
      exact ⟨scored, ranges⟩

end World

end Memory

namespace Worker

variable {w after : World} {event : Event} {id : JobId}

/-- Whether what a delivery is about to record is in the range of scores. -/
def Handling.InRange {d : Delivery} : Handling d → Prop
  | .tallying _ outcome => ∀ result, outcome = .ok result → result.InRange
  | .completing _ result => result.InRange
  | _ => True

private theorem Handling.inRange_opening (d : Delivery) : (opening d).InRange := by
  unfold opening
  split <;> exact trivial

private theorem Handling.Moves.scored {d : Delivery} {stage later : Handling d}
    (moves : Moves w stage event later after) (inRange : stage.InRange) (scored : w.Scored id) :
    later.InRange ∧ after.Scored id := by
  cases moves with
  | started => exact ⟨trivial, scored.change fun _ ranges => ranges⟩
  | executed ran =>
    obtain ⟨still, ranges⟩ := scored.execute ran
    exact ⟨ranges, still⟩
  | @tallied task outcome =>
    refine ⟨?_, scored⟩
    cases outcome with
    | ok result => exact inRange result rfl
    | error e => trivial
  | @completed task result =>
    refine ⟨trivial, scored.change fun job _ told same => ?_⟩
    cases same
    exact inRange
  | failed => exact ⟨trivial, scored.change fun _ ranges => ranges⟩
  | settled made =>
    refine ⟨trivial, ?_⟩
    intro job found
    rw [(settle_keeps made).1] at found
    exact scored job found
  | _ => exact ⟨trivial, scored⟩

def Duty.InRange : Duty → Prop
  | .handling _ stage _ _ => stage.InRange
  | .receiving | .waiting _ | .finished _ => True

private theorem Duty.inRange_resume (received : List (Except QueueError Delivery)) :
    (resume received).InRange := by
  match received with
  | [] => trivial
  | .ok d :: _ => exact Handling.inRange_opening d
  | .error _ :: _ => trivial

private theorem Duty.Moves.scored {duty later : Duty} (moves : Moves w duty event later after)
    (inRange : duty.InRange) (scored : w.Scored id) : later.InRange ∧ after.Scored id := by
  have kept : ∀ {reply}, w.consume = (reply, after) → after.Scored id := by
    intro reply made
    unfold World.consume at made
    split at made
    · cases made
      exact scored
    · cases made
      exact scored
  cases moves with
  | barred made => exact ⟨trivial, kept made⟩
  | received made => exact ⟨inRange_resume _, kept made⟩
  | waited => exact ⟨inRange_resume _, scored⟩
  | handled moves =>
    obtain ⟨ranges, still⟩ := moves.scored inRange scored
    refine ⟨?_, still⟩
    unfold proceed
    split
    · exact ranges
    · exact inRange_resume _

/-- Whatever a worker is handed and whatever fails, a job that has no score out of range gets none. -/
theorem scored_work (scored : w.Scored id) {outcome : Except QueueError Unit}
    (ran : w.run work = some (outcome, after)) : after.Scored id := by
  let Holds (reached : World) (rest : Service (Except QueueError Unit)) : Prop :=
    ∃ duty : Duty, rest = duty.program ∧ duty.InRange ∧ reached.Scored id
  have keeps : ∀ {reached rest event later next}, Holds reached rest →
      reached.turnOf rest = some (event, later, next) → Holds next later := by
    rintro reached rest event later next ⟨duty, rfl, inRange, scored⟩ turned
    obtain ⟨following, rfl, moves⟩ := Duty.moves_of_turnOf turned
    exact ⟨following, rfl, moves.scored inRange scored⟩
  have begins : Holds w work := ⟨.receiving, rfl, trivial, scored⟩
  obtain ⟨_, _, _, still⟩ := World.run_keeps Holds keeps work begins ran
  exact still

end Worker

private theorem Worker.handleAll_append (received more : List (Except QueueError Delivery)) :
    handleAll (received ++ more) = (handleAll received).bind fun _ => handleAll more := by
  induction received with
  | nil => rfl
  | cons first rest ih =>
    cases first with
    | error e =>
      show (Program.call (.wait backoff) fun _ => handleAll (rest ++ more)) = _
      rw [ih]
      rfl
    | ok d =>
      show ((handle d).bind fun _ => handleAll (rest ++ more)) =
        ((handle d).bind fun _ => handleAll rest).bind _
      rw [ih, Program.bind_assoc]

private theorem Worker.run_handleAll_append {w mid : World}
    {received more : List (Except QueueError Delivery)}
    (ran : w.run (handleAll received) = some ((), mid)) :
    w.run (handleAll (received ++ more)) = mid.run (handleAll more) := by
  rw [handleAll_append, World.run, Program.run_bind, ← World.run, ran]
  rfl

/-- The stand-in answers in time with the score of the pair. -/
theorem Executors.execute_simulated {executors : Executors} {latency : Span}
    (simulated : executors.matchFaces = simulatedMatch latency)
    (inTime : ∀ limit ∈ executors.limit, latency.nanos ≤ limit.nanos) (task : FaceMatchTask) :
    executors.execute (.faceMatch task) =
      .answers latency (.ok (.faceMatch (simulatedScore task.image1 task.image2))) := by
  have checked : checkScore (.ok (simulatedScore task.image1 task.image2)) = .ok (.faceMatch _) :=
    if_pos (simulatedScore_inRange _ _)
  rw [execute, dispatch, simulated, simulatedMatch, Course.map, checked]
  cases limit : executors.limit with
  | none => rfl
  | some limit' => rw [Course.limited, if_pos (inTime limit' limit)]

namespace Memory

/-- Whether nothing hinders a worker in a world whose stand-in takes so much time: the store and the queue
work, nobody interrupts, every operation ends, and a comparison does so in time. -/
structure World.Serves (latency : Span) (w : World) : Prop where
  works : w.Works
  hands : w.faults .consume = false
  receives : w.faults .receive = false
  hears : w.faults .settle = false
  calm : w.interruptions = []
  answering : (w.matching latency).Answering
  inTime : ∀ limit ∈ w.executors.limit, latency.nanos ≤ limit.nanos

private theorem World.Works.kept {w after : World} (works : w.Works) (faults : after.faults = w.faults) :
    after.Works :=
  ⟨faults ▸ works.starts, faults ▸ works.accepts, faults ▸ works.writes⟩

private theorem World.Serves.kept {w after : World} {latency : Span} (serves : w.Serves latency)
    (settings : w.SameSettings after) : after.Serves latency where
  works := serves.works.kept settings.faults
  hands := settings.faults ▸ serves.hands
  receives := settings.faults ▸ serves.receives
  hears := settings.faults ▸ serves.hears
  calm := settings.interruptions.trans serves.calm
  answering := by
    have answering := serves.answering
    unfold Answering matching at answering ⊢
    rw [settings.executors]
    exact answering
  inTime := settings.executors ▸ serves.inTime

/-- The last of the pending payloads is compared, if none before it is for the same job. -/
theorem World.Serves.drained_eq {w : World} {latency : Span} (serves : w.Serves latency)
    {earlier : List (List UInt8)} {task : FaceMatchTask} {job : Job}
    (pending : w.pending = earlier ++ [Task.encode (.faceMatch task)])
    (unnamed : ∀ payload ∈ earlier, Task.named? payload ≠ some task.jobId)
    (found : w.store.job? task.jobId = some job) (created : job.status = .created) :
    (w.matching latency).drained task.jobId =
      some (.ok (), some (.completed, some (.faceMatch (simulatedScore task.image1 task.image2)))) := by
  let emptied : World := { w.matching latency with pending := [] }
  have made : (w.matching latency).consume = (.ok (Worker.deliveries w.pending), emptied) := by
    simp only [World.consume, matching, serves.hands, serves.receives, serves.hears]
    rfl
  have answering : emptied.Answering := serves.answering
  obtain ⟨mid, ran, settles⟩ := Worker.run_handleAll earlier answering
  have calm : emptied.interruptions = [] := serves.calm
  have settings := World.run_settings calm ran
  have works : mid.Works := serves.works.kept settings.faults
  -- The payloads before leave the job as it was recorded.
  have here : mid.store.job? task.jobId = some job := by
    refine (settles.jobs task.jobId unnamed ?_).trans found
    simp [calm]
  have simulated : mid.executors.matchFaces = simulatedMatch latency := by
    rw [settings.executors]
    rfl
  have inTime : ∀ limit ∈ mid.executors.limit, latency.nanos ≤ limit.nanos := by
    rw [settings.executors]
    exact serves.inTime
  obtain ⟨after, later, handled, there, completed, result, _⟩ :=
    Worker.exists_run_handle (d := ⟨Task.encode (.faceMatch task), true⟩) works
      (settings.interruptions.trans calm) (Task.decode_encode _) here (by simp [created])
      (Executors.execute_simulated simulated inTime task)
  have drains : (w.matching latency).run Worker.work = some (.ok (), after) := by
    refine Worker.run_work_received made ?_
    rw [pending, Worker.deliveries, List.map_append]
    exact (Worker.run_handleAll_append ran).trans (Worker.run_handleAll_cons handled)
  replace there : after.store.job? task.jobId = some later := there
  simp only [drained, drains, Option.map_some, there, completed, result]

/-- In whatever order a client names a pair: it is answered alike, the counts, the cache and the fingerprints
are the same, and so are the jobs and the queue but for the order of the images of the new job and of the pair
in its payload. Once a worker whose stand-in compares faces has drained the queue, the job has one status and
one score; a job that had no score has none out of range; and where nothing hinders the worker, the job that
was queued is completed with the score of the pair. -/
theorem pair_order_indifferent (w : World) (drawn : JobId) (client : Int) (a b : String) :
    ∃ result after other later,
      w.run (Submission.submit drawn .faceMatch client [a, b]) = some (result, after) ∧
      w.run (Submission.submit drawn .faceMatch client [b, a]) = some (other, later) ∧
      result.mapError SubmitError.unnamed = other.mapError SubmitError.unnamed ∧
      Mirrors w drawn client a b result after other later ∧
      later.metrics = after.metrics ∧ later.cache = after.cache ∧
      later.store.fingerprints = after.store.fingerprints ∧
      ∀ latency,
        (after.matching latency).drained drawn = (later.matching latency).drained drawn ∧
        ((∀ job ∈ after.store.job? drawn, job.result = none) → ∀ outcome status score,
          (after.matching latency).drained drawn = some (outcome, some (status, some (.faceMatch score))) →
          leastScore ≤ score ∧ score ≤ greatestScore) ∧
        (w.Serves latency → (∀ payload ∈ w.pending, Task.named? payload ≠ some drawn) →
          after.pending ≠ w.pending → (after.matching latency).drained drawn =
            some (.ok (), some (.completed, some (.faceMatch (simulatedScore a b))))) := by
  have mirrors := w.submitted_pair drawn client a b
  have ran := w.run_request (.ofPair drawn client a b)
  have also := w.run_request (.ofPair drawn client b a)
  generalize w.submitted (.ofPair drawn client a b) = first at mirrors ran
  generalize w.submitted (.ofPair drawn client b a) = second at mirrors also
  obtain ⟨result, after⟩ := first
  obtain ⟨other, later⟩ := second
  refine ⟨result, after, other, later, ran, also, mirrors.result_eq, mirrors, mirrors.metrics_eq,
    mirrors.cache_eq, mirrors.fingerprints_eq, fun latency => ⟨mirrors.drained_eq latency, ?_, ?_⟩⟩
  · intro unscored outcome status score told
    have scored : (after.matching latency).Scored drawn := by
      intro job found result has
      rw [unscored job found] at has
      cases has
    obtain ⟨⟨_, last⟩, drained, equal⟩ := Option.map_eq_some_iff.1 told
    obtain ⟨_, record⟩ := Prod.mk.inj equal
    obtain ⟨job, found, same⟩ := Option.map_eq_some_iff.1 record
    exact Worker.scored_work scored drained job found _ (Prod.mk.inj same).2 score rfl
  · intro serves unnamed queued
    have settings := World.run_settings serves.calm ran
    cases mirrors with
    | refused => exact absurd rfl queued
    | answered _ pending => exact absurd pending queued
    | unqueued _ _ pending => exact absurd pending queued
    | queued found _ created pending =>
      exact (serves.kept settings).drained_eq pending unnamed found created

namespace Pool

/-- The desk with two photos of faces. -/
def photoDesk : World :=
  { deskWorld fun _ => false with
    images := [("left", ⟨1, "left", .face, 1, "1/left.png", 80⟩),
      ("right", ⟨2, "right", .face, 1, "1/right.png", 90⟩)] }

private theorem serves_photoDesk : photoDesk.Serves .zero where
  works := ⟨rfl, rfl, rfl⟩
  hands := rfl
  receives := rfl
  hears := rfl
  calm := rfl
  answering := by
    intro task
    cases task <;> exact ⟨_, _, rfl⟩
  inTime := nofun

end Pool

/-- Two photos are submitted in either order, and compared. -/
theorem pair_order_indifferent_photos : ∃ (after later : World) (score : Int),
    Pool.photoDesk.run (Submission.submit (Pool.cardRequest 1).drawn .faceMatch 1 ["left", "right"]) =
      some (.ok (Pool.cardRequest 1).drawn, after) ∧
    Pool.photoDesk.run (Submission.submit (Pool.cardRequest 1).drawn .faceMatch 1 ["right", "left"]) =
      some (.ok (Pool.cardRequest 1).drawn, later) ∧
    (after.matching .zero).drained (Pool.cardRequest 1).drawn =
      some (.ok (), some (.completed, some (.faceMatch score))) ∧
    (later.matching .zero).drained (Pool.cardRequest 1).drawn =
      some (.ok (), some (.completed, some (.faceMatch score))) ∧
    leastScore ≤ score ∧ score ≤ greatestScore := by
  obtain ⟨result, after, other, later, ran, also, _, mirrors, _, _, _, drains⟩ :=
    pair_order_indifferent Pool.photoDesk (Pool.cardRequest 1).drawn 1 "left" "right"
  have told : ∀ x y, (x, y) ∈ [("left", "right"), ("right", "left")] → ∃ left,
      Pool.photoDesk.run (Submission.submit (Pool.cardRequest 1).drawn .faceMatch 1 [x, y]) =
        some (.ok (Pool.cardRequest 1).drawn, left) ∧ left.pending ≠ [] := by
    simp only [List.mem_cons, List.not_mem_nil, or_false, Prod.mk.injEq]
    rintro x y (⟨rfl, rfl⟩ | ⟨rfl, rfl⟩)
    · exact ⟨_, rfl, List.cons_ne_nil _ _⟩
    · exact ⟨_, rfl, List.cons_ne_nil _ _⟩
  obtain ⟨_, first, queued⟩ := told "left" "right" (by simp)
  obtain ⟨_, second, _⟩ := told "right" "left" (by simp)
  cases ran.symm.trans first
  cases also.symm.trans second
  obtain ⟨alike, ranges, compared⟩ := drains .zero
  replace compared := compared Pool.serves_photoDesk nofun queued
  refine ⟨after, later, _, ran, also, compared, alike ▸ compared, ?_⟩
  cases mirrors with
  | answered _ pending => exact absurd pending queued
  | queued found unscored =>
    refine ranges (fun job there => ?_) _ _ _ compared
    cases found.symm.trans there
    exact unscored.result

end Memory

end Vetting
