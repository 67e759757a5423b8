import Vetting.Proofs.Cache.Coherence
import Vetting.Proofs.Opening

/-!
What the cache is good for: nothing that a client or a worker could tell (`cache_transparent`). A
submission that the cache answers is answered with the same job as one that the store answers, and the
store, the queue and the counts are the same afterwards, if the cache agrees with the store.

Worlds are compared by what is left of them without a cache (`World.cacheless`): a call that does not
ask the cache goes in a world as it goes without a cache (`perform_cacheless`), so there is one call to
look at (`record_cacheless`).
-/
namespace Vetting

/-- Whether a submission makes such a call. -/
def Call.OfSubmission : Call → Prop
  | .findImage _ | .lookup _ | .remember .. | .create _ | .abandon .. | .find .. | .publish _ | .count _ => True
  | _ => False

/-- Whether a submission makes such a call, other than to ask the cache. -/
def Call.Uncached : Call → Prop
  | .lookup _ => False
  | c => c.OfSubmission

private theorem Call.Uncached.ofSubmission {c : Call} (uncached : c.Uncached) : c.OfSubmission := by
  cases c with
  | lookup fingerprint => trivial
  | _ => exact uncached

namespace Memory

namespace World

/-- A world without its cache. -/
def cacheless (w : World) : World := (w.turn .cache true).clearCache

variable {w other : World} {c : Call}

@[simp] theorem cacheless_turn (w : World) : (w.turn .cache true).cacheless = w.cacheless := by
  refine congrArg clearCache ?_
  simp only [turn, World.mk.injEq, true_and, and_true]
  funext switch
  by_cases same : switch = .cache
  · rw [if_pos same, if_pos same]
  · rw [if_neg same]

private theorem faults_cacheless {switch : Switch} (other : switch ≠ .cache) :
    w.cacheless.faults switch = w.faults switch := if_neg other

@[simp] theorem cacheless_noted (w : World) (fingerprint : Fingerprint) (id : JobId) :
    (w.noted fingerprint id).cacheless = w.cacheless := by
  unfold noted
  split <;> rfl

/-- A call that does not ask the cache goes as if there were none. -/
theorem perform_cacheless (w : World) (uncached : c.Uncached) :
    perform c w.cacheless = (perform c w).map fun (reply, after) => (reply, after.cacheless) := by
  cases c with
  | lookup fingerprint => exact uncached.elim
  | remember fingerprint id =>
    exact congrArg (fun after => some ((), after)) (w.cacheless_noted fingerprint id).symm
  | findImage reference => rfl
  | create job =>
    simp only [perform, create, faults_cacheless (show Switch.createConflict ≠ .cache by decide),
      faults_cacheless (show Switch.create ≠ .cache by decide)]
    split
    · rfl
    · split <;> rfl
  | abandon id reason =>
    simp only [perform, abandon, faults_cacheless (show Switch.abandon ≠ .cache by decide)]
    split <;> rfl
  | find id type => rfl
  | publish payload =>
    simp only [perform, publish, faults_cacheless (show Switch.publish ≠ .cache by decide)]
    split <;> rfl
  | count counter => rfl
  | _ => exact uncached.elim

/-- So does a program that does not ask the cache. -/
theorem runUntil_cacheless {α : Type} {stop : Call → Bool} {p : Service α} (uncached : p.Within Call.Uncached)
    (w : World) : p.runUntil stop perform w.cacheless =
      (p.runUntil stop perform w).map fun (rest, after) => (rest, after.cacheless) := by
  induction p generalizing w with
  | done a => rfl
  | call c next ih =>
    rw [Program.runUntil, Program.runUntil]
    by_cases stopped : stop c = true
    · rw [if_pos stopped, if_pos stopped]
      rfl
    · rw [if_neg stopped, if_neg stopped, w.perform_cacheless uncached.1]
      cases perform c w with
      | none => rfl
      | some answer => exact ih answer.1 (uncached.2 answer.1) answer.2

/-- Every call of a submission is answered. -/
theorem exists_runUntil {α : Type} {stop : Call → Bool} {p : Service α} (within : p.Within Call.OfSubmission)
    (w : World) : ∃ rest after, p.runUntil stop perform w = some (rest, after) := by
  induction p generalizing w with
  | done a => exact ⟨.done a, w, rfl⟩
  | call c next ih =>
    rw [Program.runUntil]
    by_cases stopped : stop c = true
    · rw [if_pos stopped]
      exact ⟨_, w, rfl⟩
    · rw [if_neg stopped]
      obtain ⟨⟨reply, after⟩, answered⟩ : ∃ answer, perform c w = some answer := by
        cases c <;> first | exact within.1.elim | exact ⟨_, rfl⟩
      rw [answered]
      exact ih reply (within.2 reply) after

end World

end Memory

namespace Submission

open Memory

variable {r : Request}

private theorem within_answerExisting (r : Request) (id : JobId) :
    (answerExisting r.type r.fingerprint id).Within Call.Uncached := by
  rw [answerExisting_eq]
  refine ⟨trivial, fun _ => ⟨trivial, fun found => ?_⟩⟩
  match found with
  | .error e => trivial
  | .ok none => trivial
  | .ok (some job) =>
    rw [afterFind]
    split
    · exact ⟨trivial, fun _ => trivial⟩
    · trivial

private theorem within_afterCreate {task : Task} (fits : r.task? = some task)
    (reply : Except StoreError Creation) :
    (afterCreate r.type r.fingerprint task reply).Within Call.Uncached := by
  match reply with
  | .error e => trivial
  | .ok (.existing id) => exact within_answerExisting r id
  | .ok .created =>
    rw [afterCreate_created fits]
    refine ⟨trivial, fun queued => ?_⟩
    cases queued with
    | error e => exact ⟨trivial, fun _ => trivial⟩
    | ok _ => exact ⟨trivial, fun _ => ⟨trivial, fun _ => trivial⟩⟩

/-- After it has asked the cache, a submission does so no more. -/
theorem within_afterLookup (images : List Image) (told : Option JobId) :
    (afterLookup r images told).Within Call.Uncached := by
  cases told with
  | some id => exact ⟨trivial, fun _ => trivial⟩
  | none =>
    cases fits : r.task? with
    | none =>
      rw [afterLookup, fits]
      trivial
    | some task =>
      rw [afterLookup, fits]
      exact ⟨trivial, within_afterCreate fits⟩

private theorem within_afterFinding (found : Except SubmitError (List Image)) :
    (afterFinding r found).Within Call.OfSubmission := by
  cases found with
  | error e => trivial
  | ok images =>
    rw [afterFinding]
    split
    · trivial
    · rw [record_eq]
      exact ⟨trivial, fun told => (within_afterLookup images told).imp fun _ => Call.Uncached.ofSubmission⟩

private theorem within_findMore (found : List Image) (left : List String) :
    (findMore r found left).Within Call.OfSubmission := by
  induction left generalizing found with
  | nil => exact within_afterFinding (.ok (found ++ []))
  | cons next left ih =>
    rw [findMore_cons]
    refine ⟨trivial, fun reply => ?_⟩
    match reply with
    | .error e => trivial
    | .ok none => trivial
    | .ok (some image) => exact ih (found ++ [image])

theorem within_program (r : Request) : r.program.Within Call.OfSubmission := by
  by_cases fits : r.references.length = r.type.imageCount
  · rw [program_eq_findMore fits]
    exact within_findMore [] r.references
  · rw [program_eq_refused fits]
    trivial

variable {w : World} {stop : Call → Bool}

/-- A submission that finds its work recorded, and has no cache to tell of it, only counts. -/
theorem answerExisting_cacheless (goes : ∀ c, c.publishes = false → stop c = false) (r : Request)
    (id : JobId) : (answerExisting r.type r.fingerprint id).runUntil stop World.perform w.cacheless =
      some (.done (.ok id), (w.counted (.deduplicated r.type)).cacheless) := by
  rw [answerExisting_eq]
  refine (Program.runUntil_answered (goes _ rfl) rfl).trans ?_
  refine (Program.runUntil_answered (goes _ rfl) rfl).trans ?_
  match (w.counted (.deduplicated r.type)).cacheless.find id r.type with
  | .error e => rfl
  | .ok none => rfl
  | .ok (some job) =>
    rw [afterFind]
    split
    · exact Program.runUntil_answered (goes _ rfl) rfl
    · rfl

/-- A submission that asks the cache is answered as if there were none. -/
theorem record_cacheless (goes : ∀ c, c.publishes = false → stop c = false) (coherent : w.Coherent)
    (records : w.Records) (images : List Image) {task : Task} (fits : r.task? = some task) :
    (record r.drawn r.type r.client r.references images).runUntil stop World.perform w.cacheless =
      ((record r.drawn r.type r.client r.references images).runUntil stop World.perform w).map
        fun (rest, after) => (rest, after.cacheless) := by
  have asks : (record r.drawn r.type r.client r.references images).runUntil stop World.perform w =
      (afterLookup r images (w.cached r.fingerprint)).runUntil stop World.perform w := by
    rw [record_eq]
    exact Program.runUntil_answered (goes _ rfl) rfl
  have misses : (record r.drawn r.type r.client r.references images).runUntil stop World.perform w.cacheless =
      (afterLookup r images none).runUntil stop World.perform w.cacheless := by
    rw [record_eq]
    exact Program.runUntil_answered (goes _ rfl) rfl
  rw [asks, misses]
  cases known : w.cached r.fingerprint with
  | none => exact World.runUntil_cacheless (within_afterLookup images none) w
  | some id =>
    -- The store names the job that the cache names.
    have taken : w.cacheless.store.fingerprints.lookup (r.job images).fingerprint = some id :=
      coherent.agrees r.fingerprint id (World.lookup_of_cached known)
    have recording : w.cacheless.Records := ⟨records.peaceful, records.working⟩
    have finds : World.perform (.create (r.job images)) w.cacheless =
        some (.ok (.existing id), w.cacheless) := by
      refine congrArg some ?_
      rw [recording.create_eq, JobTable.create_taken taken]
      rfl
    have counts : (afterLookup r images (some id)).runUntil stop World.perform w =
        some (.done (.ok id), w.counted (.deduplicated r.type)) :=
      Program.runUntil_answered (goes _ rfl) rfl
    calc (afterLookup r images none).runUntil stop World.perform w.cacheless
      _ = (Program.call (.create (r.job images)) (afterCreate r.type r.fingerprint task)).runUntil stop
            World.perform w.cacheless := by rw [afterLookup, fits]
      _ = (answerExisting r.type r.fingerprint id).runUntil stop World.perform w.cacheless :=
          Program.runUntil_answered (goes _ rfl) finds
      _ = some (.done (.ok id), (w.counted (.deduplicated r.type)).cacheless) :=
          answerExisting_cacheless goes r id
      _ = ((afterLookup r images (some id)).runUntil stop World.perform w).map
            fun (rest, after) => (rest, after.cacheless) := by rw [counts, Option.map_some]

private theorem findMore_cacheless (goes : ∀ c, c.publishes = false → stop c = false) (coherent : w.Coherent)
    (records : w.Records) {task : Task} (fits : r.task? = some task) (found : List Image) (left : List String) :
    (findMore r found left).runUntil stop World.perform w.cacheless =
      ((findMore r found left).runUntil stop World.perform w).map
        fun (rest, after) => (rest, after.cacheless) := by
  induction left generalizing found with
  | nil =>
    show (afterFinding r (.ok (found ++ []))).runUntil _ _ _ =
      ((afterFinding r (.ok (found ++ []))).runUntil _ _ _).map _
    rw [afterFinding]
    split
    · rfl
    · exact record_cacheless goes coherent records _ fits
  | cons next left ih =>
    have finds : ∀ v : World, (findMore r found (next :: left)).runUntil stop World.perform v =
        (afterImage r found next left (if v.faults .images then .error World.storeFailure
          else .ok (v.images.lookup next))).runUntil stop World.perform v := by
      intro v
      rw [findMore_cons]
      exact Program.runUntil_answered (goes _ rfl) rfl
    rw [finds, finds, World.faults_cacheless (by decide)]
    by_cases broken : w.faults .images = true
    · rw [if_pos broken, if_pos broken]
      rfl
    · rw [if_neg broken, if_neg broken]
      show (afterImage r found next left (.ok (w.images.lookup next))).runUntil _ _ _ = _
      cases w.images.lookup next with
      | none => rfl
      | some image => exact ih (found ++ [image])

private theorem program_cacheless (goes : ∀ c, c.publishes = false → stop c = false) (coherent : w.Coherent)
    (records : w.Records) (r : Request) : r.program.runUntil stop World.perform w.cacheless =
      (r.program.runUntil stop World.perform w).map fun (rest, after) => (rest, after.cacheless) := by
  by_cases fits : r.references.length = r.type.imageCount
  · obtain ⟨task, fitting⟩ := Request.exists_task fits
    rw [program_eq_findMore fits]
    exact findMore_cacheless goes coherent records fitting [] r.references
  · rw [program_eq_refused fits]
    rfl

end Submission

namespace Memory

/-- Whether two runs end alike: with one result, and with the same jobs and fingerprints, the same queue
and the same counts. -/
def EndsAlike {α : Type} (run other : Option (α × World)) : Prop :=
  ∃ result after later, run = some (result, after) ∧ other = some (result, later) ∧
    later.store = after.store ∧ later.pending = after.pending ∧ later.metrics = after.metrics

variable {α : Type} {w other : World}

private theorem EndsAlike.of_cacheless {run also : Option (α × World)}
    (ends : ∃ result after, run = some (result, after))
    (same : (also.map fun (result, after) => (result, after.cacheless)) =
      run.map fun (result, after) => (result, after.cacheless)) : EndsAlike run also := by
  obtain ⟨result, after, rfl⟩ := ends
  obtain ⟨⟨_, later⟩, ran, equal⟩ := Option.map_eq_some_iff.1 same
  obtain ⟨rfl, worlds⟩ := Prod.mk.inj equal
  exact ⟨_, after, later, rfl, ran, (congrArg World.store worlds :), (congrArg World.pending worlds :),
    (congrArg World.metrics worlds :)⟩

/-- Programs that nothing stops. -/
theorem EndsAlike.run {p : Service α} (alike : EndsAlike (p.runUntil (fun _ => false) World.perform w)
    (p.runUntil (fun _ => false) World.perform other)) : EndsAlike (w.run p) (other.run p) := by
  rw [Program.runUntil_never, Program.runUntil_never] at alike
  obtain ⟨rest, after, later, ran, also, kept⟩ := alike
  obtain ⟨⟨result, _⟩, first, equal⟩ := Option.map_eq_some_iff.1 ran
  cases equal
  obtain ⟨⟨_, _⟩, second, same⟩ := Option.map_eq_some_iff.1 also
  cases same
  exact ⟨result, after, later, first, second, kept⟩

/-- Submissions in two worlds that differ in nothing but their caches, and these agree with the store. -/
theorem World.Coherent.alike (coherent : w.Coherent) (also : other.Coherent) (records : w.Records)
    (recording : other.Records) (same : other.cacheless = w.cacheless) {stop : Call → Bool}
    (goes : ∀ c, c.publishes = false → stop c = false) (r : Request) :
    EndsAlike (r.program.runUntil stop perform w) (r.program.runUntil stop perform other) := by
  refine .of_cacheless (exists_runUntil (Submission.within_program r) w) ?_
  rw [← Submission.program_cacheless goes also recording r, same,
    Submission.program_cacheless goes coherent records r]

/-- A submission that pauses goes on alike whatever the cache names. -/
theorem World.Pauses.alike {r : Request} {rest : Service (Except SubmitError JobId)}
    (pauses : w.Pauses r rest)
    (same : other.cacheless = w.cacheless) : EndsAlike (w.run rest) (other.run rest) := by
  have uncached : rest.Within Call.Uncached := by
    cases pauses with
    | done result => trivial
    | waits fits waits =>
      have goes := Submission.within_afterCreate fits (.ok .created)
      rw [Submission.afterCreate_created fits] at goes
      exact goes
  refine .run (.of_cacheless (exists_runUntil (uncached.imp fun _ => Call.Uncached.ofSubmission) w) ?_)
  rw [← runUntil_cacheless uncached, same, runUntil_cacheless uncached]

/-- In every run of submissions, held or not, and of drains, whatever fails on the way and however often
the cache is emptied or broken, the cache agrees with the store. A submission that follows is answered
alike, and leaves the same jobs, fingerprints, queue and counts, whether the cache is left as it is,
emptied or broken, if the store records jobs; and so is one that was held and goes on. -/
theorem cache_transparent {start : World} {d : Desk} (fresh : start.Fresh) (reach : Desk.Reachable start d) :
    (∀ fingerprint id, d.world.cache.lookup fingerprint = some id →
      d.world.store.fingerprints.lookup fingerprint.text = some id) ∧
    ∀ other ∈ [d.world.clearCache, d.world.turn .cache true],
      (d.world.Records → ∀ r, EndsAlike (d.world.run r.program) (other.run r.program) ∧
        EndsAlike (d.world.submit true r) (other.submit true r)) ∧
      ∀ r rest, (r, rest) ∈ d.waiting → EndsAlike (d.world.run rest) (other.run rest) := by
  have sound := Desk.Reachable.sound fresh reach
  have coherent := sound.tidy.coherent
  refine ⟨coherent.agrees, fun other mem => ?_⟩
  have also : other.Coherent ∧ other.cacheless = d.world.cacheless ∧ (d.world.Records → other.Records) := by
    rcases List.mem_cons.1 mem with rfl | mem
    · refine ⟨⟨coherent.calm, coherent.rows, ?_⟩, rfl, fun records => ⟨records.peaceful, records.working⟩⟩
      intro fingerprint id found
      cases found
    · cases List.mem_singleton.1 mem
      exact ⟨⟨coherent.calm, coherent.rows, coherent.agrees⟩, d.world.cacheless_turn,
        fun records => ⟨records.peaceful, records.working⟩⟩
  obtain ⟨agrees, same, keeps⟩ := also
  constructor
  · intro records r
    constructor
    · exact .run (coherent.alike agrees records (keeps records) same (fun _ _ => rfl) r)
    · refine coherent.alike agrees records (keeps records) same (fun c silent => ?_) r
      rw [silent, Bool.and_false]
  · intro r rest waiting
    exact World.Pauses.alike (sound.tidy.pauses (r, rest) waiting) same

/-- A card is submitted, held and released; then the cache names its job. Released or submitted again,
it makes no difference whether the cache is emptied first. -/
theorem cache_transparent_card : ∃ held d : Desk, Desk.Reachable (Pool.deskWorld fun _ => false) held ∧
    held.Step d ∧
    (∃ rest, (Pool.cardRequest 1, rest) ∈ held.waiting ∧ rest.result? = none ∧
      EndsAlike (held.world.run rest) (held.world.clearCache.run rest)) ∧
    d.world.cache.lookup (Pool.cardRequest 2).fingerprint = some (Pool.cardRequest 1).drawn ∧
    EndsAlike (d.world.run (Pool.cardRequest 2).program) (d.world.clearCache.run (Pool.cardRequest 2).program) := by
  obtain ⟨rest, mid, ran, paused, released⟩ : ∃ rest mid,
      (Pool.deskWorld fun _ => false).submit true (Pool.cardRequest 1) = some (rest, mid) ∧
      rest.result? = none ∧ ∃ after result, mid.run rest = some (result, after) ∧
        after.cache = [((Pool.cardRequest 1).fingerprint, (Pool.cardRequest 1).drawn)] ∧ after.Records := by
    exact ⟨_, _, rfl, rfl, _, _, rfl, rfl, rfl, rfl⟩
  obtain ⟨after, result, going, cache, records⟩ := released
  have fresh := Pool.fresh_deskWorld fun _ => false
  have first : Desk.Reachable (Pool.deskWorld fun _ => false)
      ⟨mid, [(Pool.cardRequest 1, rest)], [(Pool.cardRequest 1).drawn]⟩ :=
    .single (.submits (d := ⟨_, [], []⟩) List.not_mem_nil ran)
  have release : Desk.Step ⟨mid, [(Pool.cardRequest 1, rest)], [(Pool.cardRequest 1).drawn]⟩
      ⟨after, [], [(Pool.cardRequest 1).drawn]⟩ := .releases [] [] rfl going
  obtain ⟨_, before⟩ := cache_transparent fresh first
  obtain ⟨_, alike⟩ := cache_transparent fresh (.tail first release)
  refine ⟨_, _, first, release, ⟨rest, List.mem_cons_self, paused, ?_⟩, ?_, ?_⟩
  · exact (before _ List.mem_cons_self).2 _ _ List.mem_cons_self
  · show after.cache.lookup (Pool.cardRequest 2).fingerprint = _
    rw [cache]
    exact List.lookup_cons_self
  · exact ((alike _ List.mem_cons_self).1 records _).1

end Memory

end Vetting
