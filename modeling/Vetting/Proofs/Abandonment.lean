import Vetting.Proofs.Opening

/-!
Whether the cache names a job that was abandoned. A submission that is told of a job asks for its
progress in a call of its own, and takes every job that is not merely recorded for one that has
started. If the job is abandoned between the two calls the submission is late: it finds a failed job,
and tells the cache of it. Where no submission is late the cache names no abandoned job, and a late one
leads there in two calls (`cached_not_abandoned`).

What carries the first half is that a job the cache is told of cannot be abandoned any more
(`Crew.Safe`): no submission that may yet abandon it is left, or it has started.
-/
namespace Vetting.Memory

/-- Whether a submission is about to be told of a job that was abandoned since it was made. -/
def Pool.Late (p : Pool) : Prop :=
  ∃ r id type next job, .submission r (.call (.find id type) next) ∈ p.threads ∧ id ∈ p.abandoned ∧
    p.world.find id type = .ok (some job)

namespace Crew

variable {s later : Crew}

private theorem late_of_inspecting {r : Request} {id : JobId}
    (mem : .submission r (.inspecting id) ∈ s.members) (abandoned : id ∈ abandonedIn s.trace)
    {job : Job} (found : s.world.find id r.type = .ok (some job)) : s.pool.Late :=
  ⟨r, id, r.type, Submission.afterFind r id, job, List.mem_map_of_mem mem, abandoned, found⟩

private theorem inspecting_of_late (late : s.pool.Late) :
    ∃ r id, .submission r (.inspecting id) ∈ s.members ∧ id ∈ abandonedIn s.trace ∧
      ∃ job, s.world.find id r.type = .ok (some job) := by
  obtain ⟨r, id, type, next, job, mem, abandoned, found⟩ := late
  obtain ⟨member, among, equal⟩ := List.mem_map.1 mem
  cases member with
  | submission request stage =>
    simp only [Member.thread, Thread.submission.injEq] at equal
    obtain ⟨rfl, asks⟩ := equal
    obtain ⟨rfl, rfl⟩ := Submission.eq_inspecting asks
    exact ⟨_, id, among, abandoned, job, found⟩
  | worker duty => cases equal
  | handler delivery stage => cases equal

/-- A job that has started, or is over. -/
def Begun (s : Crew) (id : JobId) : Prop := ∃ job, s.world.store.job? id = some job ∧ job.status ≠ .created

/-- Crews in which the jobs that were abandoned are over, and so are their submissions. -/
structure Settled (s : Crew) : Prop where
  orderly : s.Orderly
  begun : ∀ id ∈ abandonedIn s.trace, s.Begun id
  own : ∀ r stage, .submission r stage ∈ s.members → stage.Open → r.drawn ∉ abandonedIn s.trace

section Turn

variable {front back : List Member} {member next : Member} {event : Event} {world : World}

private theorem Begun.turn {id : JobId} (begun : s.Begun id) (orderly : s.Orderly)
    (members : s.members = front ++ member :: back)
    (moves : Member.Moves s.world member event next world) :
    Begun ⟨world, s.trace ++ [event], front ++ next :: back⟩ id := by
  obtain ⟨job, found, status⟩ := begun
  obtain ⟨later, kept, advances⟩ := orderly.keeps_job members moves found
  exact ⟨later, kept, advances.started status⟩

/-- A call abandons only the job of its own submission. -/
theorem abandoned_turn (moves : Member.Moves s.world member event next world) {id : JobId}
    (mem : id ∈ abandonedIn (s.trace ++ [event])) :
    id ∈ abandonedIn s.trace ∨
      ∃ (r : Request) (stage after : Submission.Stage r), member = .submission r stage ∧
        next = .submission r after ∧ id = r.drawn ∧ stage.Open ∧ ¬ after.Open ∧
        s.world.store.Unstarted id ∧
        world.store = s.world.store.abandon s.world.now id Submission.unqueuedReason := by
  rw [abandonedIn_append, abandonedIn_singleton, List.mem_append, Option.mem_toList] at mem
  refine mem.imp_right fun abandoned => ?_
  rcases moves.submission_or_ofWorker with ⟨r, stage, after, rfl, rfl, stepped⟩ | ⟨_, _, ofWorker⟩
  · exact ⟨r, stage, after, rfl, rfl, stepped.abandoned_eq abandoned⟩
  · rw [(Event.plain_ofWorker ofWorker).abandoned] at abandoned
    cases abandoned

private theorem Settled.turn (settled : s.Settled) (members : s.members = front ++ member :: back)
    (moves : Member.Moves s.world member event next world)
    (orderly : Orderly ⟨world, s.trace ++ [event], front ++ next :: back⟩) :
    Settled ⟨world, s.trace ++ [event], front ++ next :: back⟩ := by
  have distinct := settled.orderly.distinct
  rw [members] at distinct
  refine ⟨orderly, fun id mem => ?_, fun other place mem opens abandoned => ?_⟩
  · rcases abandoned_turn moves mem with old | ⟨r, stage, after, rfl, rfl, rfl, _, _, unstarted, store⟩
    · exact (settled.begun id old).turn settled.orderly members moves
    · obtain ⟨job, found, created⟩ := unstarted
      refine ⟨JobTable.failed s.world.now Submission.unqueuedReason job, ?_, by simp [JobTable.failed]⟩
      show world.store.job? r.drawn = _
      rw [store]
      exact JobTable.job?_abandon_self _ _ found created
  · rcases abandoned_turn moves abandoned with old | ⟨r, stage, after, rfl, rfl, same, _, shut, _, _⟩
    · rcases mem_turn.1 mem with rfl | elsewhere
      · cases moves with
        | submission moves =>
          exact settled.own other _ (members ▸ mem_turn.2 (.inl rfl)) (moves.open opens) old
      · exact settled.own other place (members ▸ mem_turn.2 (.inr elsewhere)) opens old
    · rcases mem_turn.1 mem with equal | elsewhere
      · cases equal
        exact shut opens
      · exact drawn_ne distinct elsewhere same

end Turn

theorem settled_start {start : World} (fresh : start.Fresh) : Settled ⟨start, [], []⟩ :=
  ⟨orderly_start fresh, by simp [abandonedIn], by simp⟩

theorem Settled.step {action : Action} (settled : s.Settled) (step : s.Step action later) :
    later.Settled := by
  have orderly := settled.orderly.step step
  cases step with
  | turn members moves => exact settled.turn members moves orderly
  | @disturb change =>
    obtain ⟨store, _, _⟩ := change.apply_keeps s.world
    refine ⟨orderly, fun id mem => ?_, settled.own⟩
    obtain ⟨job, found, status⟩ := settled.begun id mem
    exact ⟨job, (congrArg (JobTable.job? · id) store).trans found, status⟩
  | @submit r stage fresh asking =>
    refine ⟨orderly, settled.begun, fun other place mem opens => ?_⟩
    rcases List.mem_append.1 mem with old | new
    · exact settled.own other place old opens
    · cases List.mem_singleton.1 new
      intro abandoned
      obtain ⟨job, found, _⟩ := settled.begun _ abandoned
      obtain ⟨owner, among, drawn⟩ := settled.orderly.stored _ job found
      exact fresh owner among drawn.symm
  | drain => exact ⟨orderly, settled.begun, by simpa using settled.own⟩
  | deliver => exact ⟨orderly, settled.begun, by simpa using settled.own⟩

/-- Whether a job can no longer be abandoned: it was not, and if its submission might still do so, it
has started before. -/
structure Safe (s : Crew) (id : JobId) : Prop where
  kept : id ∉ abandonedIn s.trace
  known : ∃ r ∈ requests s.members, r.drawn = id
  shut : ∀ r stage, .submission r stage ∈ s.members → r.drawn = id → stage.Open → s.Begun id

/-- Crews in which the cache is told of jobs that can no longer be abandoned. -/
structure Clean (s : Crew) : Prop where
  settled : s.Settled
  told : ∀ r stage, .submission r stage ∈ s.members → ∀ id, stage.tells? = some id → s.Safe id
  cached : ∀ fingerprint id, s.world.cache.lookup fingerprint = some id → s.Safe id

section Turn

variable {front back : List Member} {member next : Member} {event : Event} {world : World}

private theorem Safe.turn {id : JobId} (safe : s.Safe id) (orderly : s.Orderly)
    (members : s.members = front ++ member :: back)
    (moves : Member.Moves s.world member event next world) :
    Safe ⟨world, s.trace ++ [event], front ++ next :: back⟩ id := by
  refine ⟨fun abandoned => ?_, ?_, fun other place mem drawn opens => ?_⟩
  · rcases abandoned_turn moves abandoned with old | ⟨r, stage, after, rfl, rfl, same, opens, _, unstarted, _⟩
    · exact safe.kept old
    · obtain ⟨job, found, begun⟩ := safe.shut r stage (members ▸ mem_turn.2 (.inl rfl)) same.symm opens
      obtain ⟨other, equal, created⟩ := unstarted
      cases found.symm.trans equal
      exact begun created
  · rw [requests_turn moves, ← members]
    exact safe.known
  · refine Begun.turn ?_ orderly members moves
    rcases mem_turn.1 mem with rfl | elsewhere
    · cases moves with
      | submission moves =>
        exact safe.shut other _ (members ▸ mem_turn.2 (.inl rfl)) drawn (moves.open opens)
    · exact safe.shut other place (members ▸ mem_turn.2 (.inr elsewhere)) drawn opens

private theorem Clean.turn (clean : s.Clean) (prompt : ¬ s.pool.Late)
    (members : s.members = front ++ member :: back)
    (moves : Member.Moves s.world member event next world)
    (settled : Settled ⟨world, s.trace ++ [event], front ++ next :: back⟩) :
    Clean ⟨world, s.trace ++ [event], front ++ next :: back⟩ := by
  have orderly := clean.settled.orderly
  have distinct := orderly.distinct
  rw [members] at distinct
  refine ⟨settled, fun r stage mem id tells => ?_, fun fingerprint id found => ?_⟩
  · rcases mem_turn.1 mem with rfl | elsewhere
    · cases moves with
      | @submission _ place _ _ _ moves =>
        have own : .submission r place ∈ s.members := members ▸ mem_turn.2 (.inl rfl)
        rcases moves.tells tells with ⟨rfl, opens, shut, plain⟩ | ⟨job, rfl, found, begun⟩
        · refine ⟨?_, ?_, fun other at' mem drawn opens => ?_⟩
          · simpa [plain] using clean.settled.own r place own opens
          · rw [requests_turn (.submission moves), ← members]
            exact ⟨r, mem_requests.2 ⟨place, own⟩, rfl⟩
          · rcases mem_turn.1 mem with equal | elsewhere
            · cases equal
              exact absurd opens shut
            · exact absurd drawn (drawn_ne distinct elsewhere)
        · -- What was found is not merely recorded; it was not abandoned, or the submission is late.
          have job? := JobTable.job?_of_find (World.find_of_found orderly.rows found)
          refine Safe.turn ⟨?_, orderly.stored id job job?, ?_⟩ orderly members (.submission moves)
          · exact fun abandoned => prompt (late_of_inspecting own abandoned found)
          · exact fun _ _ _ _ _ => ⟨job, job?, begun⟩
    · refine Safe.turn ?_ orderly members moves
      exact clean.told r stage (members ▸ mem_turn.2 (.inr elsewhere)) id tells
  · refine Safe.turn ?_ orderly members moves
    rcases moves.submission_or_ofWorker with ⟨r, stage, after, rfl, rfl, stepped⟩ | ⟨_, _, ofWorker⟩
    · rcases stepped.cached found with old | ⟨_, tells⟩
      · exact clean.cached fingerprint id old
      · exact clean.told r stage (members ▸ mem_turn.2 (.inl rfl)) id tells
    · obtain ⟨_, answered⟩ := moves.perform_eq
      have same := (World.perform_ofWorker orderly.calm answered ofWorker).2
      exact clean.cached fingerprint id (same ▸ found)

end Turn

/-- An action that makes no call and no submission. -/
theorem Clean.aside (clean : s.Clean) (settled : later.Settled) {more : List Request}
    (requests : requests later.members = Crew.requests s.members ++ more)
    (members : ∀ r stage, .submission r stage ∈ later.members → .submission r stage ∈ s.members)
    (trace : later.trace = s.trace) (store : later.world.store = s.world.store)
    (cache : ∀ fingerprint id, later.world.cache.lookup fingerprint = some id →
      s.world.cache.lookup fingerprint = some id) : later.Clean := by
  have safe : ∀ id, s.Safe id → later.Safe id := by
    intro id safe
    obtain ⟨owner, among, drawn⟩ := safe.known
    refine ⟨trace ▸ safe.kept, ⟨owner, ?_, drawn⟩, fun r stage mem same opens => ?_⟩
    · rw [requests]
      exact List.mem_append_left _ among
    · obtain ⟨job, found, begun⟩ := safe.shut r stage (members r stage mem) same opens
      exact ⟨job, store ▸ found, begun⟩
  refine ⟨settled, fun r stage mem id tells => ?_, fun fingerprint id found => ?_⟩
  · exact safe id (clean.told r stage (members r stage mem) id tells)
  · exact safe id (clean.cached fingerprint id (cache fingerprint id found))

private theorem Clean.step {action : Action} (clean : s.Clean) (prompt : ¬ s.pool.Late)
    (step : s.Step action later) : later.Clean := by
  have settled := clean.settled.step step
  cases step with
  | turn members moves => exact clean.turn prompt members moves settled
  | @submit r stage fresh asking =>
    have safe : ∀ id, s.Safe id → Safe { s with members := s.members ++ [.submission r stage] } id := by
      intro id safe
      obtain ⟨owner, among, drawn⟩ := safe.known
      refine ⟨safe.kept, ⟨owner, ?_, drawn⟩, fun other place mem same opens => ?_⟩
      · rw [requests_append]
        exact List.mem_append_left _ among
      · rcases List.mem_append.1 mem with old | new
        · exact safe.shut other place old same opens
        · cases List.mem_singleton.1 new
          exact absurd (same.trans drawn.symm) (fresh owner among)
    refine ⟨settled, fun other place mem id tells => ?_, fun fingerprint id found => ?_⟩
    · rcases List.mem_append.1 mem with old | new
      · exact safe id (clean.told other place old id tells)
      · cases List.mem_singleton.1 new
        cases asking <;> cases tells
    · exact safe id (clean.cached fingerprint id found)
  | drain =>
    refine clean.aside settled (requests_append _ _) ?_ rfl rfl fun _ _ found => found
    simp
  | deliver =>
    refine clean.aside settled (requests_append _ _) ?_ rfl rfl fun _ _ found => found
    simp
  | @disturb change =>
    obtain ⟨store, _, _⟩ := change.apply_keeps s.world
    refine clean.aside settled (List.append_nil _).symm (fun _ _ mem => mem) rfl store ?_
    intro fingerprint id found
    cases change with
    | clearCache => cases found
    | _ => exact found

private theorem clean_start {start : World} (fresh : start.Fresh) : Clean ⟨start, [], []⟩ := by
  refine ⟨settled_start fresh, by simp, fun fingerprint id found => ?_⟩
  simp [fresh.cache] at found

/-- A late submission tells the cache of an abandoned job in its next two calls. -/
theorem Settled.late (settled : s.Settled) (late : s.pool.Late) (cache : s.world.faults .cache = false) :
    ∃ mid after, s.pool.Step .turn mid ∧ mid.Step .turn after ∧
      ∃ fingerprint id, after.world.cache.lookup fingerprint = some id ∧ id ∈ after.abandoned := by
  obtain ⟨r, id, mem, abandoned, job, found⟩ := inspecting_of_late late
  obtain ⟨other, held, begun⟩ := settled.begun id abandoned
  cases held.symm.trans (JobTable.job?_of_find (World.find_of_found settled.orderly.rows found))
  obtain ⟨front, back, members⟩ := List.append_of_mem mem
  have threads : s.pool.threads = front.map Member.thread ++
      .submission r (Submission.Stage.inspecting id : Submission.Stage r).program ::
        back.map Member.thread := by
    simp [pool, members, Member.thread]
  refine ⟨_, _, .moves threads (.started found begun), .moves rfl .renewed, r.fingerprint, id, ?_, ?_⟩
  · show (s.world.noted r.fingerprint id).cache.lookup r.fingerprint = some id
    simp [World.noted, cache]
  · show id ∈ abandonedIn _
    rw [abandonedIn_append, abandonedIn_append]
    exact List.mem_append_left _ (List.mem_append_left _ abandoned)

end Crew

/-- However the calls of submissions and workers take turns and whatever fails, the cache names no
abandoned job unless a submission was late, and a late submission makes it name one if the cache
works. -/
theorem cached_not_abandoned {start : World} (fresh : start.Fresh) :
    (∀ p, Pool.Reachable (fun p _ => ¬ p.Late) start p → ∀ fingerprint id,
      p.world.cache.lookup fingerprint = some id → id ∉ p.abandoned) ∧
    (∀ p, Pool.Reachable Pool.Anything start p → p.Late → p.world.faults .cache = false →
      ∃ mid after, p.Step .turn mid ∧ mid.Step .turn after ∧
        ∃ fingerprint id, after.world.cache.lookup fingerprint = some id ∧ id ∈ after.abandoned) := by
  constructor
  · intro p reach fingerprint id found
    obtain ⟨s, rfl, clean⟩ := reach.induct Crew.Clean (Crew.clean_start fresh) Crew.Clean.step
    exact (clean.cached fingerprint id found).kept
  · intro p reach late cache
    obtain ⟨s, rfl, settled⟩ := reach.induct Crew.Settled (Crew.settled_start fresh)
      fun settled _ step => settled.step step
    exact settled.late late cache

/-- Leave for every action but to break the abandoning of jobs. -/
def Pool.Abandoning (_ : Pool) (action : Action) : Prop := action ≠ .disturb (.turn .abandon true)

/-- A card is submitted while the queue is broken, and again before the first submission gives up; the
second is late. -/
theorem Pool.exists_late (Allowed : Pool → Action → Prop) (allowed : ∀ p, Allowed p .turn)
    (opens : ∀ p r, Allowed p (.submit r)) :
    ∃ p, Reachable Allowed (deskWorld fun s => s = .publish) p ∧ p.Late ∧
      p.world.faults = fun s => decide (s = .publish) := by
  obtain ⟨task, fits⟩ := Request.exists_task (r := cardRequest 1) rfl
  obtain ⟨trace, _, _, _, inspecting⟩ := Reachable.races (cardRequest 2) fits rfl (by decide) allowed
    opens (fresh_deskWorld fun s => s = .publish) ⟨rfl, rfl⟩ (valid_cardRequest rfl 1)
    (valid_cardRequest rfl 2)
  obtain ⟨more, _, abandoned, _, reach⟩ := inspecting.withdraws [] _ allowed rfl rfl ⟨_, rfl, rfl⟩
  refine ⟨_, reach, ⟨cardRequest 2, (cardRequest 1).drawn, .ocr,
    Submission.afterFind (cardRequest 2) (cardRequest 1).drawn, _, ?_, ?_, rfl⟩, rfl⟩
  · exact List.mem_cons_of_mem _ (List.mem_singleton.2 rfl)
  · show (cardRequest 1).drawn ∈ abandonedIn (trace ++ more)
    simp [abandoned]

theorem cached_not_abandoned_card : ∃ p mid after, Pool.Reachable Pool.Anything
      (Pool.deskWorld fun s => s = .publish) p ∧ p.Late ∧ p.Step .turn mid ∧ mid.Step .turn after ∧
      (∃ fingerprint id, after.world.cache.lookup fingerprint = some id ∧ id ∈ after.abandoned) ∧
      ∀ q, Pool.Reachable (fun p _ => ¬ p.Late) (Pool.deskWorld fun s => s = .publish) q →
        ∀ fingerprint id, q.world.cache.lookup fingerprint = some id → id ∉ q.abandoned := by
  obtain ⟨prompt, tardy⟩ := cached_not_abandoned (Pool.fresh_deskWorld fun s => s = .publish)
  obtain ⟨p, reach, late, faults⟩ := Pool.exists_late Pool.Anything
    (Pool.anything · .turn) (Pool.anything · <| .submit ·)
  obtain ⟨mid, after, first, second, named⟩ := tardy p reach late (by rw [faults]; rfl)
  exact ⟨p, mid, after, reach, late, first, second, named, prompt⟩

/-- A cache that names an abandoned job, although jobs could be abandoned at all times. -/
theorem cached_abandoned : ∃ (start : World) (p : Pool), start.Fresh ∧ start.faults .abandon = false ∧
    Pool.Reachable Pool.Abandoning start p ∧
      ∃ fingerprint id, p.world.cache.lookup fingerprint = some id ∧ id ∈ p.abandoned := by
  obtain ⟨p, reach, late, faults⟩ := Pool.exists_late Pool.Abandoning (by simp [Pool.Abandoning])
    (by simp [Pool.Abandoning])
  obtain ⟨s, rfl, settled⟩ := reach.induct Crew.Settled
    (Crew.settled_start (Pool.fresh_deskWorld _)) fun settled _ step => settled.step step
  have worlds : s.world.faults = fun t => decide (t = .publish) := faults
  obtain ⟨mid, after, first, second, named⟩ := settled.late late (by rw [worlds]; rfl)
  have allowed : ∀ p, Pool.Abandoning p .turn := by simp [Pool.Abandoning]
  exact ⟨_, after, Pool.fresh_deskWorld _, rfl, .act (.act reach (allowed _) first) (allowed _) second,
    named⟩

end Vetting.Memory
