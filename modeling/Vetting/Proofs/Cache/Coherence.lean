import Vetting.Proofs.Pool

/-!
Whether the cache agrees with the store, in runs in which one submission or drain comes after another
(`Desk`). A submission may be held before it hands its payload to the queue, and goes on later; that is
the only pause in which others do something.

A cached fingerprint is held in the store by the job that the cache names (`Coherent`). What could part
them is a held submission that abandons its job; but such a job is not cached unless it has started
(`Waits`), and then it cannot be abandoned.
-/
namespace Vetting

/-- Whether a call puts a payload into the queue. -/
def Call.publishes : Call → Bool
  | .publish _ => true
  | _ => false

namespace Memory

/-- Whether a job has started, or is over. -/
def JobTable.Begun (t : JobTable) (id : JobId) : Prop := ∃ job, t.job? id = some job ∧ job.status ≠ .created

private theorem JobTable.Begun.kept {w : World} {c : Call} {answer : c.Reply × World} {id : JobId}
    (begun : w.store.Begun id) (answered : w.perform c = some answer)
    (other : ∀ new, c = .create new → new.id ≠ id) : answer.2.store.Begun id := by
  obtain ⟨job, found, status⟩ := begun
  obtain ⟨later, there, advances⟩ := World.perform_advances answered other found
  exact ⟨later, there, advances.started status⟩

/-- Whether the jobs that the cache names hold their fingerprints. -/
structure World.Coherent (w : World) : Prop where
  calm : w.interruptions = []
  rows : w.rows = []
  agrees : ∀ fingerprint id, w.cache.lookup fingerprint = some id →
    w.store.fingerprints.lookup fingerprint.text = some id

/-- Whether the job of a submission holds its fingerprint and is cached only if it has started. -/
structure World.Waits (w : World) (r : Request) : Prop where
  held : w.store.fingerprints.lookup r.fingerprint.text = some r.drawn
  begun : ∀ fingerprint, w.cache.lookup fingerprint = some r.drawn → w.store.Begun r.drawn

end Memory

namespace Submission

open Memory

variable {r other : Request} {w after : World} {event : Event} {stage later : Stage r}

/-- What the stage of a submission tells of the world. -/
def Stage.Stands (w : World) : Stage r → Prop
  | .finding .. | .looking _ | .creating .. => ∀ pair ∈ w.store.fingerprints, pair.2 ≠ r.drawn
  | .publishing .. | .withdrawing _ => w.Waits r
  | .remembering => w.store.fingerprints.lookup r.fingerprint.text = some r.drawn
  | .recognising id | .inspecting id => w.store.fingerprints.lookup r.fingerprint.text = some id
  | .renewing id => w.store.fingerprints.lookup r.fingerprint.text = some id ∧ w.store.Begun id
  | .counting .. | .finished _ => True

private theorem Stage.Stands.tells {id : JobId} (stands : stage.Stands w) (tells : stage.tells? = some id) :
    w.store.fingerprints.lookup r.fingerprint.text = some id := by
  cases stage with
  | remembering =>
    cases tells
    exact stands
  | renewing known =>
    cases tells
    exact stands.1
  | _ => cases tells

/-- A fingerprint stays with its job, unless the submission abandons that. -/
theorem Moves.held (moves : Moves w stage event later after) {text : String} {id : JobId}
    (held : w.store.fingerprints.lookup text = some id) :
    after.store.fingerprints.lookup text = some id ∨
      (id = r.drawn ∧ w.store.Unstarted id ∧ ∃ error, stage = .withdrawing error) := by
  cases moves with
  | @recorded images task fits made free =>
    have vacant : w.store.fingerprints.lookup (r.job images).fingerprint = none := free
    left
    show (w.store.recorded w.now (r.job images)).fingerprints.lookup text = some id
    rw [JobTable.lookup_recorded vacant]
    by_cases same : text = (r.job images).fingerprint
    · rw [same, vacant] at held
      cases held
    · rwa [if_neg same]
  | @withdrawn error working =>
    rcases JobTable.abandon_cases w.now r.drawn unqueuedReason w.store with
      ⟨_, left⟩ | ⟨unstarted, left⟩
    · exact .inl (by rwa [left])
    · by_cases own : id = r.drawn
      · exact .inr ⟨own, own ▸ unstarted, error, rfl⟩
      · rw [left]
        exact .inl (Assoc.lookup_filter held (decide_eq_true own))
  | remembered =>
    rw [(World.noted_keeps _ _).1]
    exact .inl held
  | renewed =>
    rw [(World.noted_keeps _ _).1]
    exact .inl held
  | _ => exact .inl held

private theorem Moves.coherent (moves : Moves w stage event later after) (coherent : w.Coherent)
    (stands : stage.Stands w) : after.Coherent := by
  obtain ⟨_, answered⟩ := moves.perform_eq
  have settings := World.perform_settings coherent.calm answered
  refine ⟨settings.interruptions.trans coherent.calm, settings.rows.trans coherent.rows, ?_⟩
  intro fingerprint id found
  rcases moves.cached found with old | ⟨rfl, tells⟩
  · rcases moves.held (coherent.agrees fingerprint id old) with kept | ⟨rfl, unstarted, error, rfl⟩
    · exact kept
    · -- A submission that is about to abandon its job finds that started if it is cached.
      obtain ⟨job, here, begun⟩ := stands.begun fingerprint old
      obtain ⟨other, there, created⟩ := unstarted
      cases here.symm.trans there
      exact absurd created begun
  · rcases moves.held (stands.tells tells) with kept | ⟨_, _, error, rfl⟩
    · exact kept
    · cases tells

private theorem Moves.stands (moves : Moves w stage event later after) (coherent : w.Coherent)
    (stands : stage.Stands w) : later.Stands after := by
  cases moves with
  | asked _ asking _ =>
    cases asking with
    | finding _ _ _ => exact stands
    | looking _ => exact stands
    | refused _ => trivial
  | missed unknown => exact stands
  | duplicate made taken => exact taken
  | @recorded images task fits made free =>
    have vacant : w.store.fingerprints.lookup (r.job images).fingerprint = none := free
    constructor
    · exact (JobTable.lookup_recorded vacant _).trans (if_pos rfl)
    · intro fingerprint cached
      have named := Assoc.mem_of_lookup (coherent.agrees fingerprint _ cached)
      exact absurd rfl (stands _ named)
  | queued working => exact stands.held
  | unqueued broken => exact stands
  | recognised => exact stands
  | started found begun =>
    exact ⟨stands, _, JobTable.job?_of_find (World.find_of_found coherent.rows found), begun⟩
  | _ => trivial

private theorem Moves.named (moves : Moves w stage event later after) {pair : String × JobId}
    (mem : pair ∈ after.store.fingerprints) : pair ∈ w.store.fingerprints ∨ pair.2 = r.drawn := by
  cases moves with
  | recorded made free =>
    rcases List.mem_append.1 mem with old | new
    · exact .inl old
    · cases List.mem_singleton.1 new
      exact .inr rfl
  | withdrawn working =>
    rcases JobTable.abandon_cases w.now r.drawn unqueuedReason w.store with ⟨_, left⟩ | ⟨_, left⟩
    · exact .inl (left ▸ mem)
    · rw [left] at mem
      exact .inl (List.mem_of_mem_filter mem)
  | remembered =>
    rw [(World.noted_keeps _ _).1] at mem
    exact .inl mem
  | renewed =>
    rw [(World.noted_keeps _ _).1] at mem
    exact .inl mem
  | _ => exact .inl mem

/-- A submission does not disturb another that waits. -/
theorem Moves.waits (moves : Moves w stage event later after) (stands : stage.Stands w)
    (different : other.drawn ≠ r.drawn) (waits : w.Waits other) : after.Waits other := by
  obtain ⟨_, answered⟩ := moves.perform_eq
  have keeps : w.store.Begun other.drawn → after.store.Begun other.drawn := by
    refine fun begun => begun.kept answered ?_
    intro new call same
    exact different (same.symm.trans (moves.create_eq call).1)
  constructor
  · rcases moves.held waits.held with kept | ⟨own, _⟩
    · exact kept
    · exact absurd own different
  · intro fingerprint found
    rcases moves.cached found with old | ⟨_, tells⟩
    · exact keeps (waits.begun fingerprint old)
    · cases stage with
      | remembering => exact absurd (Option.some.inj tells).symm different
      | renewing id =>
        cases tells
        exact keeps stands.2
      | _ => cases tells

/-- The stage before a job is queued is the only one that is followed by such a call. -/
theorem eq_publishing {stage : Stage r} {c : Call} {next : c.Reply → Service (Except SubmitError JobId)}
    (calls : stage.program = .call c next) (publishes : c.publishes = true) :
    ∃ task fits, stage = .publishing task fits := by
  cases stage with
  | publishing task fits => exact ⟨task, fits, rfl⟩
  | finding found reference left =>
    rw [Stage.program, findMore_cons] at calls
    cases calls
    cases publishes
  | looking images =>
    rw [Stage.program, record_eq] at calls
    cases calls
    cases publishes
  | recognising id =>
    rw [Stage.program, answerExisting_eq] at calls
    cases calls
    cases publishes
  | finished result => cases calls
  | _ =>
    cases calls
    cases publishes

end Submission

namespace Memory

open Submission (Stage)

/-- A submission; one that is held stops before it hands its payload to the queue. -/
def World.submit (held : Bool) (r : Request) (w : World) :
    Option (Service (Except SubmitError JobId) × World) :=
  r.program.runUntil (fun c => held && c.publishes) World.perform w

/-- A world, what is left of the submissions that were made, and the ids that they drew. -/
structure Desk where
  world : World
  waiting : List (Request × Service (Except SubmitError JobId))
  drawn : List JobId

namespace Desk

/-- One thing after another: a submission, held or not, draws an id that no other has drawn; a held one
goes on to its end; a worker handles all that is queued; or something changes that no program makes. -/
inductive Step (d : Desk) : Desk → Prop
  | submits {held : Bool} {r : Request} {rest : Service (Except SubmitError JobId)} {after : World}
      (fresh : r.drawn ∉ d.drawn) (ran : d.world.submit held r = some (rest, after)) :
      Step d ⟨after, d.waiting ++ [(r, rest)], d.drawn ++ [r.drawn]⟩
  | releases (front back : List (Request × Service (Except SubmitError JobId))) {r : Request}
      {rest : Service (Except SubmitError JobId)} {result : Except SubmitError JobId} {after : World}
      (waiting : d.waiting = front ++ (r, rest) :: back) (ran : d.world.run rest = some (result, after)) :
      Step d ⟨after, front ++ back, d.drawn⟩
  | drains {result : Except QueueError Unit} {after : World}
      (ran : d.world.run Worker.work = some (result, after)) : Step d { d with world := after }
  | disturbed {change : Disturbance} : Step d { d with world := change.apply d.world }

/-- Whatever comes of a world in which nothing was submitted. -/
def Reachable (start : World) (d : Desk) : Prop := Relation.ReflTransGen Step ⟨start, [], []⟩ d

end Desk

/-- What is left of a submission between runs: nothing, or it stands before the queue. -/
inductive World.Pauses (w : World) (r : Request) : Service (Except SubmitError JobId) → Prop
  | done (result : Except SubmitError JobId) : Pauses w r (.done result)
  | waits {task : Task} (fits : r.task? = some task) (waits : w.Waits r) :
      Pauses w r (Stage.publishing task fits : Stage r).program

/-- What holds while others pause, in terms of the ids that were drawn. -/
structure World.Tidy (others : List (Request × Service (Except SubmitError JobId))) (drawn : List JobId)
    (w : World) : Prop where
  coherent : w.Coherent
  named : ∀ pair ∈ w.store.fingerprints, pair.2 ∈ drawn
  pauses : ∀ other ∈ others, w.Pauses other.1 other.2

variable {w after : World} {r : Request} {drawn : List JobId}
  {others : List (Request × Service (Except SubmitError JobId))}

private theorem World.Waits.pauses {rest : Service (Except SubmitError JobId)} (pauses : w.Pauses r rest)
    (keeps : w.Waits r → after.Waits r) : after.Pauses r rest := by
  cases pauses with
  | done result => exact .done result
  | waits fits waits => exact .waits fits (keeps waits)

namespace World.Tidy

private theorem submission (tidy : w.Tidy others drawn) {stage later : Stage r} {event : Event}
    (own : r.drawn ∈ drawn) (apart : ∀ other ∈ others, other.1.drawn ≠ r.drawn)
    (stands : stage.Stands w) (moves : Submission.Moves w stage event later after) :
    after.Tidy others drawn where
  coherent := moves.coherent tidy.coherent stands
  named pair mem := by
    rcases moves.named mem with old | new
    · exact tidy.named pair old
    · exact new ▸ own
  pauses other mem := Waits.pauses (tidy.pauses other mem) (moves.waits stands (apart other mem))

/-- A submission that is run to its end or its pause leaves the others tidy, and pauses itself. -/
theorem runUntil (tidy : w.Tidy others drawn) (own : r.drawn ∈ drawn)
    (apart : ∀ other ∈ others, other.1.drawn ≠ r.drawn) {stage : Stage r} (stands : stage.Stands w)
    {held : Bool} {rest : Service (Except SubmitError JobId)}
    (ran : stage.program.runUntil (fun c => held && c.publishes) perform w = some (rest, after)) :
    after.Tidy others drawn ∧ after.Pauses r rest := by
  have kept : after.Tidy others drawn ∧ ∃ later : Stage r, rest = later.program ∧ later.Stands after := by
    refine runUntil_keeps (fun w rest => w.Tidy others drawn ∧
      ∃ later : Stage r, rest = later.program ∧ later.Stands w) ?_ stage.program
      ⟨tidy, stage, rfl, stands⟩ ran
    rintro w _ event left after ⟨tidy, stage, rfl, stands⟩ turned
    obtain ⟨later, rfl, moves⟩ := Submission.moves_of_turnOf turned
    exact ⟨tidy.submission own apart stands moves, later, rfl, moves.stands tidy.coherent stands⟩
  obtain ⟨tidy, later, rfl, stands⟩ := kept
  refine ⟨tidy, ?_⟩
  rcases Program.stops_of_runUntil ran with ⟨result, done⟩ | ⟨c, next, calls, stopped⟩
  · rw [done]
    exact .done result
  · obtain ⟨task, fits, rfl⟩ := Submission.eq_publishing calls (Bool.and_eq_true_iff.1 stopped).2
    exact .waits fits stands

private theorem ofWorker (tidy : w.Tidy others drawn) {c : Call} {answer : c.Reply × World}
    (answered : perform c w = some answer) (ofWorker : c.OfWorker) : answer.2.Tidy others drawn := by
  have settings := perform_settings tidy.coherent.calm answered
  obtain ⟨fingerprints, cache⟩ := perform_ofWorker tidy.coherent.calm answered ofWorker
  refine ⟨⟨settings.interruptions.trans tidy.coherent.calm, settings.rows.trans tidy.coherent.rows, ?_⟩,
    ?_, ?_⟩
  · rw [fingerprints, cache]
    exact tidy.coherent.agrees
  · rw [fingerprints]
    exact tidy.named
  · intro other mem
    refine Waits.pauses (tidy.pauses other mem) fun waits => ⟨?_, ?_⟩
    · rw [fingerprints]
      exact waits.held
    · intro fingerprint found
      rw [cache] at found
      refine (waits.begun fingerprint found).kept answered ?_
      rintro new rfl
      exact ofWorker.elim

private theorem work (tidy : w.Tidy others drawn) {result : Except QueueError Unit}
    (ran : w.run Worker.work = some (result, after)) : after.Tidy others drawn := by
  refine (run_keeps (fun w rest => w.Tidy others drawn ∧ ∃ duty : Worker.Duty, rest = duty.program) ?_
    Worker.work ⟨tidy, .receiving, rfl⟩ ran).1
  rintro w _ event left after ⟨tidy, duty, rfl⟩ turned
  obtain ⟨later, rfl, moves⟩ := Worker.Duty.moves_of_turnOf turned
  exact ⟨tidy.ofWorker moves.perform_eq.2 moves.ofWorker, later, rfl⟩

private theorem disturbed (tidy : w.Tidy others drawn) (change : Disturbance) :
    (change.apply w).Tidy others drawn := by
  obtain ⟨store, interruptions, rows, _⟩ := change.apply_keeps w
  have cached : ∀ fingerprint id, (change.apply w).cache.lookup fingerprint = some id →
      w.cache.lookup fingerprint = some id := by
    intro fingerprint id found
    cases change with
    | clearCache => cases found
    | _ => exact found
  refine ⟨⟨interruptions.trans tidy.coherent.calm, rows.trans tidy.coherent.rows, ?_⟩, ?_, ?_⟩
  · intro fingerprint id found
    rw [store]
    exact tidy.coherent.agrees fingerprint id (cached fingerprint id found)
  · rw [store]
    exact tidy.named
  · intro other mem
    refine Waits.pauses (tidy.pauses other mem) fun waits => ⟨?_, ?_⟩
    · rw [store]
      exact waits.held
    · intro fingerprint found
      rw [store]
      exact waits.begun fingerprint (cached fingerprint _ found)

end World.Tidy

namespace Desk

/-- Whether a desk is tidy, and each submission that pauses has an id of its own. -/
structure Sound (d : Desk) : Prop where
  tidy : d.world.Tidy d.waiting d.drawn
  drawn : ∀ held ∈ d.waiting, held.1.drawn ∈ d.drawn
  distinct : d.waiting.Pairwise fun held other => held.1.drawn ≠ other.1.drawn

variable {d later : Desk}

private theorem sound_start {start : World} (fresh : start.Fresh) : Sound ⟨start, [], []⟩ := by
  refine ⟨⟨⟨fresh.interruptions, fresh.rows, ?_⟩, ?_, by simp⟩, by simp, .nil⟩
  · intro fingerprint id found
    simp [fresh.cache] at found
  · simp [fresh.store, JobTable.empty]

private theorem Sound.step (sound : d.Sound) (step : d.Step later) : later.Sound := by
  cases step with
  | @submits held r rest after fresh ran =>
    have apart : ∀ other ∈ d.waiting, other.1.drawn ≠ r.drawn := by
      intro other mem same
      exact fresh (same ▸ sound.drawn other mem)
    have wider : d.world.Tidy d.waiting (d.drawn ++ [r.drawn]) :=
      ⟨sound.tidy.coherent, fun pair mem => List.mem_append_left _ (sound.tidy.named pair mem),
        sound.tidy.pauses⟩
    obtain ⟨stage, asking, program⟩ := Submission.exists_stage_program r
    have stands : stage.Stands d.world := by
      have unnamed : ∀ pair ∈ d.world.store.fingerprints, pair.2 ≠ r.drawn :=
        fun pair mem same => fresh (same ▸ sound.tidy.named pair mem)
      cases asking with
      | finding _ _ _ => exact unnamed
      | looking _ => exact unnamed
      | refused _ => trivial
    rw [World.submit, program] at ran
    obtain ⟨tidy, pauses⟩ := wider.runUntil (List.mem_append_right _ List.mem_cons_self) apart stands ran
    refine ⟨⟨tidy.coherent, tidy.named, ?_⟩, ?_, ?_⟩
    · exact List.forall_mem_append.2 ⟨tidy.pauses, List.forall_mem_singleton.2 pauses⟩
    · refine List.forall_mem_append.2 ⟨?_, by simp⟩
      exact fun other mem => List.mem_append_left _ (sound.drawn other mem)
    · exact List.pairwise_append.2 ⟨sound.distinct, List.pairwise_singleton _ _, by simpa using apart⟩
  | @releases front back r rest result after waiting ran =>
    have split := sound.distinct
    rw [waiting, List.pairwise_append, List.pairwise_cons] at split
    obtain ⟨first, ⟨behind, last⟩, across⟩ := split
    have among : ∀ {other}, other ∈ front ++ back → other ∈ d.waiting := by
      intro other mem
      rw [waiting]
      exact (List.Sublist.append_left (List.sublist_cons_self _ _) _).subset mem
    have here : (r, rest) ∈ d.waiting := by
      rw [waiting]
      exact List.mem_append_right _ List.mem_cons_self
    have apart : ∀ other ∈ front ++ back, other.1.drawn ≠ r.drawn := by
      intro other mem
      rcases List.mem_append.1 mem with before | beyond
      · exact across other before _ List.mem_cons_self
      · exact (behind other beyond).symm
    have tidy : d.world.Tidy (front ++ back) d.drawn :=
      ⟨sound.tidy.coherent, sound.tidy.named, fun other mem => sound.tidy.pauses other (among mem)⟩
    obtain ⟨stage, program, stands⟩ : ∃ stage : Stage r, rest = stage.program ∧ stage.Stands d.world := by
      have paused : d.world.Pauses r rest := sound.tidy.pauses (r, rest) here
      cases paused with
      | done result => exact ⟨.finished result, rfl, trivial⟩
      | waits fits waits => exact ⟨.publishing _ fits, rfl, waits⟩
    have runs : stage.program.runUntil (fun c => false && c.publishes) World.perform d.world =
        some (.done result, after) := by
      rw [← program]
      exact (Program.runUntil_never rest d.world).trans (congrArg (Option.map _) ran)
    refine ⟨(tidy.runUntil (sound.drawn _ here) apart stands runs).1, ?_, ?_⟩
    · exact fun other mem => sound.drawn other (among mem)
    · refine List.pairwise_append.2 ⟨first, last, fun other before another beyond => ?_⟩
      exact across other before another (List.mem_cons_of_mem _ beyond)
  | drains ran => exact ⟨sound.tidy.work ran, sound.drawn, sound.distinct⟩
  | @disturbed change => exact ⟨sound.tidy.disturbed change, sound.drawn, sound.distinct⟩

theorem Reachable.sound {start : World} (fresh : start.Fresh) (reach : Reachable start d) : d.Sound := by
  induction reach with
  | refl => exact sound_start fresh
  | tail _ step ih => exact ih.step step

end Desk

end Memory

end Vetting
