import Vetting.Proofs.Fingerprint
import Vetting.Proofs.Opening
import Vetting.Proofs.Task

/-!
Work that is submitted again is not done again. Whatever programs take turns and whatever fails, the
jobs that were recorded for one piece of work are abandoned but for one, submissions of it that are
answered with different jobs name an abandoned one, and the queue accepts one payload for a job
(`submit_idempotent`).

What carries this is that a job which was recorded and not abandoned holds the fingerprint of its
work (`Crew.Consistent.holds`): no second job can be recorded for the work while it does.
-/
namespace Vetting

theorem Request.AsksFor.fingerprint {r : Request} {type : JobType} {client : Int}
    {references : List String} (asks : r.AsksFor type client references) :
    r.fingerprint = .compute type client references := by
  obtain ⟨types, clients, perm⟩ := asks
  simp only [Request.fingerprint, Fingerprint.compute, types, clients, Fingerprint.source_perm perm]

namespace Memory

/-- The jobs that accepted payloads are for. -/
def queuedIds (trace : List Event) : List JobId := (queuedIn trace).filterMap Task.named?

@[simp] theorem queuedIds_append (front back : List Event) :
    queuedIds (front ++ back) = queuedIds front ++ queuedIds back := by
  simp [queuedIds]

@[simp] theorem queuedIds_singleton (event : Event) :
    queuedIds [event] = event.queued?.toList.filterMap Task.named? := by
  simp [queuedIds]

theorem queuedIds_plain {trace : List Event} {event : Event} (plain : event.Plain) :
    queuedIds (trace ++ [event]) = queuedIds trace := by
  simp [plain.queued]

namespace Crew

/-- Whether a job was recorded for work with a fingerprint. -/
def Names (s : Crew) (fingerprint : String) (id : JobId) : Prop :=
  ∃ r ∈ requests s.members, r.fingerprint.text = fingerprint ∧ r.drawn = id ∧ id ∈ recordedIn s.trace

/-- What the stage of a submission tells: its own job is recorded before it is queued and queued
once, and a job that it answers with was recorded for the same work. -/
def Sound (s : Crew) {r : Request} : Submission.Stage r → Prop
  | .finding .. | .looking _ | .creating .. => r.drawn ∉ queuedIds s.trace
  | .publishing .. => r.drawn ∈ recordedIn s.trace ∧ r.drawn ∉ queuedIds s.trace
  | .remembering => r.drawn ∈ recordedIn s.trace
  | .recognising id | .inspecting id | .renewing id | .counting _ id | .finished (.ok id) =>
    s.Names r.fingerprint.text id
  | .withdrawing _ | .finished (.error _) => True

structure Consistent (s : Crew) : Prop where
  orderly : s.Orderly
  /-- A job that is not abandoned holds the fingerprint of its work. -/
  holds : ∀ r ∈ requests s.members, r.drawn ∈ recordedIn s.trace → r.drawn ∉ abandonedIn s.trace →
    s.world.store.fingerprints.lookup r.fingerprint.text = some r.drawn
  taken : ∀ fingerprint id, (fingerprint, id) ∈ s.world.store.fingerprints → s.Names fingerprint id
  cached : ∀ fingerprint id, s.world.cache.lookup fingerprint = some id → s.Names fingerprint.text id
  recorded : ∀ id ∈ recordedIn s.trace, ∃ r ∈ requests s.members, r.drawn = id
  queued : ∀ id ∈ queuedIds s.trace, ∃ r ∈ requests s.members, r.drawn = id
  once : (queuedIds s.trace).Nodup
  staged : ∀ r stage, .submission r stage ∈ s.members → s.Sound stage

variable {s later : Crew}

private theorem Sound.mono {r : Request} {stage : Submission.Stage r}
    (names : ∀ fingerprint id, s.Names fingerprint id → later.Names fingerprint id)
    (recorded : ∀ id ∈ recordedIn s.trace, id ∈ recordedIn later.trace)
    (queued : r.drawn ∈ queuedIds later.trace → r.drawn ∈ queuedIds s.trace)
    (sound : s.Sound stage) : later.Sound stage := by
  cases stage with
  | finding found next left => exact mt queued sound
  | looking images => exact mt queued sound
  | creating images task fits => exact mt queued sound
  | publishing task fits => exact ⟨recorded _ sound.1, mt queued sound.2⟩
  | withdrawing error => trivial
  | remembering => exact recorded _ sound
  | finished result =>
    cases result with
    | error e => trivial
    | ok id => exact names _ _ sound
  | _ => exact names _ _ sound

private theorem Names.mono {fingerprint : String} {id : JobId}
    (requests : ∀ r ∈ requests s.members, r ∈ Crew.requests later.members)
    (recorded : ∀ id ∈ recordedIn s.trace, id ∈ recordedIn later.trace)
    (names : s.Names fingerprint id) : later.Names fingerprint id := by
  obtain ⟨r, mem, text, drawn, known⟩ := names
  exact ⟨r, requests r mem, text, drawn, recorded id known⟩

theorem consistent_start {start : World} (fresh : start.Fresh) : Consistent ⟨start, [], []⟩ := by
  refine ⟨orderly_start fresh, by simp [requests], ?_, ?_, by simp [recordedIn], by simp [queuedIds, queuedIn],
    List.nodup_nil, by simp⟩
  · intro fingerprint id mem
    simp [fresh.store, JobTable.empty] at mem
  · intro fingerprint id found
    simp [fresh.cache] at found

/-- A crew in which others stand at the stages they stood at is consistent if nothing else changed. -/
theorem Consistent.still (consistent : s.Consistent) (orderly : later.Orderly)
    (requests : requests later.members = Crew.requests s.members)
    (fingerprints : later.world.store.fingerprints = s.world.store.fingerprints)
    (cached : ∀ fingerprint id, later.world.cache.lookup fingerprint = some id →
      later.Names fingerprint.text id)
    (recorded : recordedIn later.trace = recordedIn s.trace)
    (abandoned : abandonedIn later.trace = abandonedIn s.trace)
    (queued : queuedIds later.trace = queuedIds s.trace)
    (staged : ∀ r stage, .submission r stage ∈ later.members → later.Sound stage) :
    later.Consistent := by
  refine ⟨orderly, ?_, ?_, cached, ?_, ?_, ?_, staged⟩
  · rw [requests, recorded, abandoned, fingerprints]
    exact consistent.holds
  · intro fingerprint id mem
    rw [fingerprints] at mem
    exact (consistent.taken fingerprint id mem).mono (by rw [requests]; simp) (by rw [recorded]; simp)
  · rw [recorded, requests]
    exact consistent.recorded
  · rw [queued, requests]
    exact consistent.queued
  · rw [queued]
    exact consistent.once

section Turn

variable {front back : List Member} {r : Request} {stage next : Submission.Stage r} {event : Event}
  {world : World}

private theorem requests_moved (members : s.members = front ++ .submission r stage :: back) :
    requests (front ++ .submission r next :: back) = requests s.members := by
  rw [members]
  simp [requests]

private theorem Names.turn (members : s.members = front ++ .submission r stage :: back) {fingerprint : String}
    {id : JobId} (names : s.Names fingerprint id) :
    Names ⟨world, s.trace ++ [event], front ++ .submission r next :: back⟩ fingerprint id := by
  refine names.mono ?_ ?_
  · simp [requests_moved members]
  · simp +contextual

/-- The stages of all submissions after one of them has moved. -/
theorem Consistent.staged_turn (consistent : s.Consistent)
    (members : s.members = front ++ .submission r stage :: back)
    (queued : ∀ id ∈ queuedIds (s.trace ++ [event]), id = r.drawn ∨ id ∈ queuedIds s.trace)
    (sound : Sound ⟨world, s.trace ++ [event], front ++ .submission r next :: back⟩ next) :
    ∀ other place, .submission other place ∈ front ++ .submission r next :: back →
      Sound ⟨world, s.trace ++ [event], front ++ .submission r next :: back⟩ place := by
  intro other place mem
  rcases mem_turn.1 mem with same | elsewhere
  · cases same
    exact sound
  · refine (consistent.staged other place (members ▸ mem_turn.2 (.inr elsewhere))).mono ?_ ?_ ?_
    · exact fun _ _ => Names.turn members
    · simp +contextual
    · intro mem
      have distinct := consistent.orderly.distinct
      rw [members] at distinct
      exact (queued _ mem).resolve_left (drawn_ne distinct elsewhere)

/-- A call that records no job, abandons none and queues nothing. -/
theorem Consistent.quiet (consistent : s.Consistent)
    (members : s.members = front ++ .submission r stage :: back)
    (orderly : Orderly ⟨world, s.trace ++ [event], front ++ .submission r next :: back⟩)
    (plain : event.Plain) (fingerprints : world.store.fingerprints = s.world.store.fingerprints)
    (cached : ∀ fingerprint id, world.cache.lookup fingerprint = some id →
      s.Names fingerprint.text id) (sound : s.Sound next) :
    Consistent ⟨world, s.trace ++ [event], front ++ .submission r next :: back⟩ := by
  refine consistent.still orderly (requests_moved members) fingerprints ?_ plain.recordedIn
    plain.abandonedIn (queuedIds_plain plain) ?_
  · intro fingerprint id found
    exact (cached fingerprint id found).turn members
  · refine consistent.staged_turn members ?_ (sound.mono (fun _ _ => Names.turn members) ?_ ?_)
    · intro id mem
      exact .inr (queuedIds_plain plain ▸ mem)
    · simp [plain.recordedIn]
    · rw [queuedIds_plain plain]
      exact id

/-- A recorded job takes the fingerprint of its work, which no job held. -/
theorem Consistent.record (consistent : s.Consistent)
    (members : s.members = front ++ .submission r stage :: back)
    {images : List Image} {task : Task} {fits : r.task? = some task}
    (free : s.world.store.fingerprints.lookup r.fingerprint.text = none)
    (unqueued : r.drawn ∉ queuedIds s.trace)
    (orderly : Orderly ⟨{ s.world with store := s.world.store.recorded s.world.now (r.job images) },
      s.trace ++ [⟨s.world, .create (r.job images), .ok .created⟩],
      front ++ .submission r (.publishing task fits) :: back⟩) :
    Consistent ⟨{ s.world with store := s.world.store.recorded s.world.now (r.job images) },
      s.trace ++ [⟨s.world, .create (r.job images), .ok .created⟩],
      front ++ .submission r (.publishing task fits) :: back⟩ := by
  have among : r ∈ requests s.members := mem_requests.2 ⟨stage, members ▸ mem_turn.2 (.inl rfl)⟩
  have recorded : recordedIn (s.trace ++ [⟨s.world, .create (r.job images), .ok .created⟩]) =
      recordedIn s.trace ++ [r.drawn] := recordedIn_append ..
  have abandoned : abandonedIn (s.trace ++ [⟨s.world, .create (r.job images), .ok .created⟩]) =
      abandonedIn s.trace := by simp [Event.abandoned?]
  have queued : queuedIds (s.trace ++ [⟨s.world, .create (r.job images), .ok .created⟩]) =
      queuedIds s.trace := by simp [Event.queued?]
  refine ⟨orderly, ?_, ?_, ?_, ?_, ?_, ?_, ?_⟩
  · intro other mem known kept
    rw [requests_moved members] at mem
    rw [abandoned] at kept
    rw [recorded] at known
    rw [JobTable.lookup_recorded free]
    rcases List.mem_append.1 known with old | new
    · have held := consistent.holds other mem old kept
      by_cases equal : other.fingerprint.text = r.fingerprint.text
      · rw [equal, free] at held
        cases held
      · exact (if_neg equal).trans held
    · cases List.inj_on_of_nodup_map consistent.orderly.distinct mem among (List.mem_singleton.1 new)
      exact if_pos rfl
  · intro fingerprint id mem
    rcases List.mem_append.1 mem with old | new
    · exact (consistent.taken fingerprint id old).turn members
    · cases List.mem_singleton.1 new
      have own : r.drawn ∈ recordedIn s.trace ++ [r.drawn] := by simp
      exact ⟨r, requests_moved members ▸ among, rfl, rfl, recorded ▸ own⟩
  · intro fingerprint id found
    exact (consistent.cached fingerprint id found).turn members
  · intro id mem
    rw [recorded] at mem
    rw [requests_moved members]
    rcases List.mem_append.1 mem with old | new
    · exact consistent.recorded id old
    · exact ⟨r, among, (List.mem_singleton.1 new).symm⟩
  · rw [queued, requests_moved members]
    exact consistent.queued
  · rw [queued]
    exact consistent.once
  · refine consistent.staged_turn members ?_ ?_
    · intro id mem
      exact .inr (queued ▸ mem)
    · exact ⟨by simp [recorded], queued ▸ unqueued⟩

/-- A payload is queued for a job that none was queued for. -/
theorem Consistent.queue (consistent : s.Consistent)
    (members : s.members = front ++ .submission r stage :: back) {task : Task}
    (fits : r.task? = some task) (known : r.drawn ∈ recordedIn s.trace)
    (unqueued : r.drawn ∉ queuedIds s.trace)
    (orderly : Orderly ⟨{ s.world with pending := s.world.pending ++ [task.encode] },
      s.trace ++ [⟨s.world, .publish task.encode, .ok ()⟩],
      front ++ .submission r .remembering :: back⟩) :
    Consistent ⟨{ s.world with pending := s.world.pending ++ [task.encode] },
      s.trace ++ [⟨s.world, .publish task.encode, .ok ()⟩],
      front ++ .submission r .remembering :: back⟩ := by
  have among : r ∈ requests s.members := mem_requests.2 ⟨stage, members ▸ mem_turn.2 (.inl rfl)⟩
  have recorded : recordedIn (s.trace ++ [⟨s.world, .publish task.encode, .ok ()⟩]) =
      recordedIn s.trace := by simp [Event.recorded?]
  have abandoned : abandonedIn (s.trace ++ [⟨s.world, .publish task.encode, .ok ()⟩]) =
      abandonedIn s.trace := by simp [Event.abandoned?]
  have queued : queuedIds (s.trace ++ [⟨s.world, .publish task.encode, .ok ()⟩]) =
      queuedIds s.trace ++ [r.drawn] := by
    simp [Event.queued?, Request.jobId_task fits]
  refine ⟨orderly, ?_, ?_, ?_, ?_, ?_, ?_, ?_⟩
  · rw [requests_moved members, recorded, abandoned]
    exact consistent.holds
  · intro fingerprint id mem
    exact (consistent.taken fingerprint id mem).turn members
  · intro fingerprint id found
    exact (consistent.cached fingerprint id found).turn members
  · rw [recorded, requests_moved members]
    exact consistent.recorded
  · intro id mem
    rw [queued] at mem
    rw [requests_moved members]
    rcases List.mem_append.1 mem with old | new
    · exact consistent.queued id old
    · exact ⟨r, among, (List.mem_singleton.1 new).symm⟩
  · rw [queued]
    refine List.nodup_append.2 ⟨consistent.once, by simp, ?_⟩
    rintro id old other new rfl
    exact unqueued (List.mem_singleton.1 new ▸ old)
  · refine consistent.staged_turn members ?_ ?_
    · intro id mem
      rw [queued] at mem
      exact (List.mem_append.1 mem).symm.imp_left List.mem_singleton.1
    · show r.drawn ∈ recordedIn _
      rw [recorded]
      exact known

/-- A job that is abandoned gives its fingerprint free, and no other job does. -/
theorem Consistent.withdraw (consistent : s.Consistent) {error : QueueError}
    (members : s.members = front ++ .submission r stage :: back)
    (unstarted : s.world.store.Unstarted r.drawn)
    (fingerprints : world.store.fingerprints =
      s.world.store.fingerprints.filter fun (_, held) => held ≠ r.drawn)
    (cache : world.cache = s.world.cache)
    (orderly : Orderly ⟨world,
      s.trace ++ [⟨s.world, .abandon r.drawn Submission.unqueuedReason, .ok ()⟩],
      front ++ .submission r (.finished (.error (.queue error))) :: back⟩) :
    Consistent ⟨world, s.trace ++ [⟨s.world, .abandon r.drawn Submission.unqueuedReason, .ok ()⟩],
      front ++ .submission r (.finished (.error (.queue error))) :: back⟩ := by
  have recorded : recordedIn (s.trace ++
      [⟨s.world, .abandon r.drawn Submission.unqueuedReason, .ok ()⟩]) = recordedIn s.trace := by
    simp [Event.recorded?]
  have abandoned : abandonedIn (s.trace ++
      [⟨s.world, .abandon r.drawn Submission.unqueuedReason, .ok ()⟩]) =
        abandonedIn s.trace ++ [r.drawn] := by
    simp [Event.abandoned?, unstarted]
  have queued : queuedIds (s.trace ++
      [⟨s.world, .abandon r.drawn Submission.unqueuedReason, .ok ()⟩]) = queuedIds s.trace := by
    simp [Event.queued?]
  refine ⟨orderly, ?_, ?_, ?_, ?_, ?_, ?_, ?_⟩
  · intro other mem known kept
    rw [requests_moved members] at mem
    rw [recorded] at known
    rw [abandoned] at kept
    rw [fingerprints]
    simp only [List.mem_append, List.mem_singleton, not_or] at kept
    exact Assoc.lookup_filter (consistent.holds other mem known kept.1) (by simp [kept.2])
  · intro fingerprint id mem
    rw [fingerprints] at mem
    exact (consistent.taken fingerprint id (List.mem_of_mem_filter mem)).turn members
  · intro fingerprint id found
    rw [cache] at found
    exact (consistent.cached fingerprint id found).turn members
  · rw [recorded, requests_moved members]
    exact consistent.recorded
  · rw [queued, requests_moved members]
    exact consistent.queued
  · rw [queued]
    exact consistent.once
  · refine consistent.staged_turn members ?_ trivial
    intro id mem
    exact .inr (queued ▸ mem)

private theorem Consistent.turn (consistent : s.Consistent)
    (members : s.members = front ++ .submission r stage :: back)
    (moves : Submission.Moves s.world stage event next world)
    (orderly : Orderly ⟨world, s.trace ++ [event], front ++ .submission r next :: back⟩) :
    Consistent ⟨world, s.trace ++ [event], front ++ .submission r next :: back⟩ := by
  have own : s.Sound stage := consistent.staged r stage (members ▸ mem_turn.2 (.inl rfl))
  have among : r ∈ requests s.members := mem_requests.2 ⟨stage, members ▸ mem_turn.2 (.inl rfl)⟩
  have distinct := consistent.orderly.distinct
  -- Calls of the cache name only the job that the submission answers with.
  have noted : ∀ id, s.Names r.fingerprint.text id → ∀ fingerprint known,
      (s.world.noted r.fingerprint id).cache.lookup fingerprint = some known →
      s.Names fingerprint.text known := by
    intro id names fingerprint known found
    rcases World.lookup_noted found with old | ⟨rfl, rfl⟩
    · exact consistent.cached fingerprint known old
    · exact names
  have store : ∀ id, (s.world.noted r.fingerprint id).store = s.world.store := fun id =>
    (World.noted_keeps r.fingerprint id).1
  cases moves with
  | asked answered asking goes =>
    refine consistent.quiet members orderly ⟨rfl, rfl, rfl⟩ rfl consistent.cached ?_
    cases asking with
    | finding found next left => exact own
    | looking images => exact own
    | refused e => trivial
  | hit known =>
    refine consistent.quiet members orderly ⟨rfl, rfl, rfl⟩ rfl consistent.cached ?_
    exact consistent.cached r.fingerprint _ (World.lookup_of_cached known)
  | missed unknown =>
    exact consistent.quiet members orderly ⟨rfl, rfl, rfl⟩ rfl consistent.cached own
  | misfit unfit unknown =>
    exact consistent.quiet members orderly ⟨rfl, rfl, rfl⟩ rfl consistent.cached trivial
  | unrecorded failed =>
    exact consistent.quiet members orderly ⟨rfl, rfl, rfl⟩ rfl consistent.cached trivial
  | duplicate made taken =>
    refine consistent.quiet members orderly ⟨rfl, rfl, rfl⟩ rfl consistent.cached ?_
    exact consistent.taken r.fingerprint.text _ (Assoc.mem_of_lookup taken)
  | recorded made free => exact consistent.record members free own orderly
  | @queued task fits working => exact consistent.queue members fits own.1 own.2 orderly
  | unqueued broken =>
    exact consistent.quiet members orderly ⟨rfl, rfl, rfl⟩ rfl consistent.cached trivial
  | withdrawn working =>
    rcases JobTable.abandon_cases s.world.now r.drawn Submission.unqueuedReason s.world.store with
      ⟨started, left⟩ | ⟨unstarted, left⟩
    · refine consistent.quiet members orderly ⟨rfl, ?_, rfl⟩ (by rw [left]) consistent.cached trivial
      simp only [Event.abandoned?, started, if_false]
    · exact consistent.withdraw members unstarted (by rw [left]) rfl orderly
  | stuck broken =>
    exact consistent.quiet members orderly ⟨rfl, rfl, rfl⟩ rfl consistent.cached trivial
  | remembered =>
    have names : s.Names r.fingerprint.text r.drawn := ⟨r, among, rfl, rfl, own⟩
    exact consistent.quiet members orderly ⟨rfl, rfl, rfl⟩ (by rw [store]) (noted _ names) names
  | recognised =>
    exact consistent.quiet members orderly ⟨rfl, rfl, rfl⟩ rfl consistent.cached own
  | started found begun =>
    exact consistent.quiet members orderly ⟨rfl, rfl, rfl⟩ rfl consistent.cached own
  | unstarted found idle =>
    exact consistent.quiet members orderly ⟨rfl, rfl, rfl⟩ rfl consistent.cached own
  | renewed =>
    exact consistent.quiet members orderly ⟨rfl, rfl, rfl⟩ (by rw [store]) (noted _ own) own
  | counted =>
    exact consistent.quiet members orderly ⟨rfl, rfl, rfl⟩ rfl consistent.cached own

end Turn

/-- An action that makes no submission and no call of one. -/
theorem Consistent.aside (consistent : s.Consistent) (orderly : later.Orderly)
    (requests : requests later.members = Crew.requests s.members)
    (fingerprints : later.world.store.fingerprints = s.world.store.fingerprints)
    (cached : ∀ fingerprint id, later.world.cache.lookup fingerprint = some id →
      s.world.cache.lookup fingerprint = some id)
    (recorded : recordedIn later.trace = recordedIn s.trace)
    (abandoned : abandonedIn later.trace = abandonedIn s.trace)
    (queued : queuedIds later.trace = queuedIds s.trace)
    (members : ∀ r stage, .submission r stage ∈ later.members → .submission r stage ∈ s.members) :
    later.Consistent := by
  have names : ∀ fingerprint id, s.Names fingerprint id → later.Names fingerprint id := by
    intro fingerprint id names
    exact names.mono (by simp [requests]) (by simp [recorded])
  refine consistent.still orderly requests fingerprints ?_ recorded abandoned queued ?_
  · intro fingerprint id found
    exact names _ _ (consistent.cached fingerprint id (cached fingerprint id found))
  · intro r stage mem
    exact (consistent.staged r stage (members r stage mem)).mono names (by simp [recorded])
      (by simp [queued])

private theorem Consistent.submit (consistent : s.Consistent) {r : Request} {stage : Submission.Stage r}
    (fresh : ∀ other ∈ requests s.members, r.drawn ≠ other.drawn) (asking : stage.Asking)
    (orderly : Orderly { s with members := s.members ++ [.submission r stage] }) :
    Consistent { s with members := s.members ++ [.submission r stage] } := by
  have grown : requests (s.members ++ [.submission r stage]) = requests s.members ++ [r] :=
    requests_append _ _
  have names : ∀ fingerprint id, s.Names fingerprint id →
      Names { s with members := s.members ++ [.submission r stage] } fingerprint id := by
    intro fingerprint id names
    refine Names.mono ?_ ?_ names
    · simp +contextual [grown]
    · exact fun _ mem => mem
  have wider : ∀ {id : JobId}, (∃ other ∈ requests s.members, other.drawn = id) →
      ∃ other ∈ requests (s.members ++ [.submission r stage]), other.drawn = id := by
    rintro id ⟨other, mem, drawn⟩
    exact ⟨other, by rw [grown]; exact List.mem_append_left _ mem, drawn⟩
  refine ⟨orderly, ?_, ?_, ?_, ?_, ?_, consistent.once, ?_⟩
  · intro other mem known kept
    rw [grown] at mem
    rcases List.mem_append.1 mem with old | new
    · exact consistent.holds other old known kept
    · cases List.mem_singleton.1 new
      obtain ⟨owner, among, drawn⟩ := consistent.recorded _ known
      exact absurd drawn.symm (fresh owner among)
  · intro fingerprint id mem
    exact names _ _ (consistent.taken fingerprint id mem)
  · intro fingerprint id found
    exact names _ _ (consistent.cached fingerprint id found)
  · intro id mem
    exact wider (consistent.recorded id mem)
  · intro id mem
    exact wider (consistent.queued id mem)
  · intro other place mem
    rcases List.mem_append.1 mem with old | new
    · exact (consistent.staged other place old).mono names (fun _ => id) id
    · cases List.mem_singleton.1 new
      have unqueued : r.drawn ∉ queuedIds s.trace := by
        intro known
        obtain ⟨owner, among, drawn⟩ := consistent.queued _ known
        exact fresh owner among drawn.symm
      cases asking with
      | finding found next left => exact unqueued
      | looking images => exact unqueued
      | refused e => trivial

theorem Consistent.step {action : Action} (consistent : s.Consistent) (step : s.Step action later) :
    later.Consistent := by
  have orderly := consistent.orderly.step step
  cases step with
  | submit fresh asking => exact consistent.submit fresh asking orderly
  | drain =>
    refine consistent.aside orderly ?_ rfl (fun _ _ => id) rfl rfl rfl (by simp)
    rw [requests_append]
    exact List.append_nil _
  | deliver =>
    refine consistent.aside orderly ?_ rfl (fun _ _ => id) rfl rfl rfl (by simp)
    rw [requests_append]
    exact List.append_nil _
  | @turn front back member next event world members moves =>
    rcases moves.submission_or_ofWorker with
      ⟨r, stage, following, rfl, rfl, stepped⟩ | ⟨old, new, ofWorker⟩
    · exact consistent.turn members stepped orderly
    · obtain ⟨_, answered⟩ := moves.perform_eq
      have plain := Event.plain_ofWorker ofWorker
      obtain ⟨fingerprints, cache⟩ :=
        World.perform_ofWorker consistent.orderly.calm answered ofWorker
      refine consistent.aside orderly ?_ fingerprints ?_ plain.recordedIn plain.abandonedIn
        (queuedIds_plain plain) ?_
      · rw [requests_turn moves, members]
      · exact fun fingerprint id found => cache ▸ found
      · intro r stage mem
        rw [members]
        refine mem_turn.2 (.inr ((mem_turn.1 mem).resolve_left ?_))
        exact fun same => new r stage same.symm
  | @disturb change =>
    obtain ⟨store, _, _⟩ := change.apply_keeps s.world
    refine consistent.aside orderly rfl (by rw [store]) ?_ rfl rfl rfl fun _ _ => id
    intro fingerprint id found
    cases change with
    | clearCache => cases found
    | _ => exact found

/-- Two jobs that were recorded for one fingerprint and not abandoned are one. -/
theorem Consistent.drawn_eq (consistent : s.Consistent) {r other : Request}
    (mem : r ∈ requests s.members) (among : other ∈ requests s.members)
    (same : r.fingerprint = other.fingerprint) (known : r.drawn ∈ recordedIn s.trace)
    (kept : r.drawn ∉ abandonedIn s.trace) (made : other.drawn ∈ recordedIn s.trace)
    (left : other.drawn ∉ abandonedIn s.trace) : r.drawn = other.drawn := by
  have held := consistent.holds r mem known kept
  rw [same, consistent.holds other among made left] at held
  exact (Option.some.inj held).symm

/-- Of two jobs that answer submissions with one fingerprint, one is abandoned. -/
theorem Consistent.abandoned_of_answers (consistent : s.Consistent) {r other : Request} {id answer : JobId}
    (mem : .submission r (.finished (.ok id)) ∈ s.members)
    (among : .submission other (.finished (.ok answer)) ∈ s.members)
    (same : r.fingerprint = other.fingerprint) (different : id ≠ answer) :
    id ∈ abandonedIn s.trace ∨ answer ∈ abandonedIn s.trace := by
  obtain ⟨owner, owns, text, rfl, known⟩ := consistent.staged r _ mem
  obtain ⟨fellow, shares, alike, rfl, made⟩ := consistent.staged other _ among
  have texts : owner.fingerprint = fellow.fingerprint := by
    rw [Fingerprint.mk.injEq, text, alike]
    exact congrArg Fingerprint.text same
  by_contra neither
  rw [not_or] at neither
  exact different (consistent.drawn_eq owns shares texts known neither.1 made neither.2)

end Crew

/-- What makes it safe to submit work again. -/
structure Pool.Idempotent (p : Pool) : Prop where
  /-- Of the jobs recorded for one piece of work at most one is not abandoned. -/
  single : ∀ type client references,
    {id | ∃ r ∈ p.requests, r.AsksFor type client references ∧ r.drawn = id ∧ id ∈ p.recorded ∧
      id ∉ p.abandoned}.Subsingleton
  /-- Two submissions of it that are answered with different jobs name an abandoned one. -/
  answered : ∀ (r other : Request) (id answer : JobId),
    .submission r (.done (.ok id)) ∈ p.threads → .submission other (.done (.ok answer)) ∈ p.threads →
      r.SameWork other → id ≠ answer → id ∈ p.abandoned ∨ answer ∈ p.abandoned
  /-- The queue accepts at most one payload for a job. -/
  queued : ∀ id, (p.queued.countP fun payload => Task.named? payload = some id) ≤ 1

/-- Whatever is submitted, however the calls of submissions and workers take turns, and whatever
fails, it is safe to submit work again. -/
theorem submit_idempotent {start : World} {p : Pool} (fresh : start.Fresh)
    (reach : Pool.Reachable Pool.Anything start p) : p.Idempotent := by
  obtain ⟨s, rfl, consistent⟩ := reach.induct Crew.Consistent (Crew.consistent_start fresh)
    fun consistent _ step => consistent.step step
  refine ⟨?_, ?_, ?_⟩
  · rintro type client references id ⟨r, mem, work, rfl, known, kept⟩ _
      ⟨other, among, others, rfl, made, left⟩
    rw [Crew.requests_pool] at mem among
    have same := work.fingerprint.trans others.fingerprint.symm
    exact consistent.drawn_eq mem among same known kept made left
  · intro r other id answer mem among work different
    exact consistent.abandoned_of_answers (Crew.mem_of_done mem) (Crew.mem_of_done among)
      (Request.AsksFor.fingerprint work) different
  · intro id
    have once := List.nodup_iff_count_le_one.1 consistent.once id
    rw [queuedIds, List.count_filterMap] at once
    simp only [beq_eq_decide] at once
    exact once

/-- A card is submitted, and again while its job waits for the queue; the second submission is
answered with that job, which is then abandoned. -/
theorem submit_idempotent_card : ∃ p : Pool, p.Idempotent ∧
    p.recorded = [(Pool.cardRequest 1).drawn] ∧ p.abandoned = [(Pool.cardRequest 1).drawn] ∧
    .submission (Pool.cardRequest 2) (.done (.ok (Pool.cardRequest 1).drawn)) ∈ p.threads := by
  obtain ⟨task, fits⟩ := Request.exists_task (r := Pool.cardRequest 1) rfl
  have turns := fun p => Pool.anything p .turn
  obtain ⟨trace, recorded, abandoned, _, inspecting⟩ := Pool.Reachable.races (Pool.cardRequest 2) fits rfl
    (by decide) turns (fun p r => Pool.anything p (.submit r))
    (Pool.fresh_deskWorld fun s => s = .publish) ⟨rfl, rfl⟩ (Pool.valid_cardRequest rfl 1)
    (Pool.valid_cardRequest rfl 2)
  obtain ⟨event, plain, answered⟩ := inspecting.answers [_] [] turns (by rintro job ⟨⟩; rfl)
  obtain ⟨more, unrecorded, withdrawn, _, reach⟩ :=
    answered.withdraws [] _ turns rfl rfl ⟨_, rfl, rfl⟩
  refine ⟨_, submit_idempotent (Pool.fresh_deskWorld _) reach, ?_, ?_, ?_⟩
  · show recordedIn _ = _
    rw [recordedIn_append, unrecorded, plain.recordedIn, recorded]
    rfl
  · show abandonedIn _ = _
    rw [abandonedIn_append, withdrawn, plain.abandonedIn, abandoned]
    rfl
  · exact List.mem_cons_of_mem _ (List.mem_singleton.2 rfl)

end Memory

end Vetting
