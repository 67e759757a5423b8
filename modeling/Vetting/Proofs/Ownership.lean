import Vetting.Proofs.Idempotency
import Vetting.StatusQuery

/-!
Whose job a submission is answered with (`answered_own`): whatever programs take turns and whatever
fails, a client that is told a job finds one of its own there, of the type that it asked for.

The cache and the store tell a job by its fingerprint alone and look at no owner. So this rests on the
text that is hashed, which tells the type and the client (`Fingerprint.head_of_source_eq`), and on the
record of a job being made for the submission that drew its id (`Crew.Owned`).
-/
namespace Vetting

namespace StatusQuery

private theorem view_error {job : Job} {e : QueryError} :
    view job = .error e → e = .inconsistent job.id := by
  unfold view
  split
  · rintro ⟨⟩
  · cases job.processedAt with
    | none =>
      rintro ⟨⟩
      rfl
    | some t => rintro ⟨⟩
  · cases job.failedAt with
    | none =>
      rintro ⟨⟩
      rfl
    | some t => rintro ⟨⟩
  · cases job.completedAt with
    | none =>
      rintro ⟨⟩
      rfl
    | some t =>
      dsimp only
      cases job.result.filter fun result => result.jobType = job.type with
      | none =>
        rintro ⟨⟩
        rfl
      | some result => rintro ⟨⟩

end StatusQuery

namespace Memory

/-- Whether a job is there that is of a type and a client's. -/
def JobTable.OwnedBy (client : Int) (type : JobType) (id : JobId) (t : JobTable) : Prop :=
  ∃ job, t.job? id = some job ∧ job.type = type ∧ job.client = client

variable {t : JobTable} {client : Int} {type : JobType} {id : JobId}

theorem World.run_status (w : World) {text : String} (names : JobId.parse? text = some id) :
    w.run (StatusQuery.status text type client) =
      some (StatusQuery.viewFor client (w.find id type), w) := by
  simp only [StatusQuery.status, StatusQuery.statusBy, names]
  rfl

/-- A store in which a job is finds it, or does not answer. -/
theorem World.find_own {w : World} (rows : w.rows = []) {job : Job}
    (found : w.store.job? id = some job) :
    (∃ e, w.find id job.type = .error e) ∨ w.find id job.type = .ok (some job) := by
  unfold World.find
  by_cases broken : w.faults .find = true
  · rw [if_pos broken]
    exact .inl ⟨_, rfl⟩
  rw [if_neg broken]
  by_cases garbled : w.faults .findDecode = true
  · rw [if_pos garbled]
    exact .inl ⟨_, rfl⟩
  have here : w.store.find id job.type = some job := by
    rw [JobTable.find, found]
    exact Option.filter_eq_some_iff.2 ⟨rfl, decide_eq_true rfl⟩
  rw [if_neg garbled, rows, List.lookup_nil]
  exact .inr (congrArg Except.ok here)

/-- A client that names a job of its own is told of it, unless the store fails or the record lacks
something. -/
theorem World.status_ownedBy {w : World} (rows : w.rows = []) (owned : w.store.OwnedBy client type id)
    {text : String} (names : JobId.parse? text = some id) :
    ∃ told, w.run (StatusQuery.status text type client) = some (told, w) ∧
      ∀ e, told = .error e → e.isNotFound = false := by
  obtain ⟨job, found, rfl, clients⟩ := owned
  refine ⟨_, w.run_status names, ?_⟩
  rcases World.find_own rows found with ⟨_, fails⟩ | finds
  · rw [fails]
    rintro e ⟨⟩
    rfl
  · rw [finds, StatusQuery.viewFor, if_neg (not_not_intro clients)]
    intro e refused
    rw [StatusQuery.view_error refused]
    rfl

/-- A job whose record moves on stays its owner's. -/
theorem JobTable.OwnedBy.advances {after : JobTable} (owned : t.OwnedBy client type id)
    (keeps : ∀ job, t.job? id = some job → ∃ later, after.job? id = some later ∧ job.Advances later) :
    after.OwnedBy client type id := by
  obtain ⟨job, found, types, clients⟩ := owned
  obtain ⟨later, there, advances⟩ := keeps job found
  exact ⟨later, there, advances.type.trans types, advances.client.trans clients⟩

end Memory

open Memory in
/-- A submission records a job of its type and its client's. -/
theorem Submission.Moves.makes {r : Request} {w after : World} {event : Event} {stage later : Stage r}
    {id : JobId} (moves : Moves w stage event later after) (recorded : event.recorded? = some id) :
    id = r.drawn ∧ r.references.length = r.type.imageCount ∧ after.store.OwnedBy r.client r.type id := by
  cases moves with
  | @recorded images task fits made free =>
    cases recorded
    refine ⟨rfl, Request.fits_of_task fits,
      Job.fresh r.drawn r.type r.client (images.map (·.id)) w.now, ?_, rfl, rfl⟩
    exact JobTable.job?_recorded.trans (if_pos rfl)
  | _ => cases recorded

namespace Memory

namespace Crew

/-- Whether every job is of the type and the client's that the submission which recorded it was for. -/
structure Owned (s : Crew) : Prop where
  consistent : s.Consistent
  fits : ∀ r ∈ requests s.members, r.drawn ∈ recordedIn s.trace → r.references.length = r.type.imageCount
  kept : ∀ r ∈ requests s.members, r.drawn ∈ recordedIn s.trace →
    s.world.store.OwnedBy r.client r.type r.drawn

variable {s later : Crew}

private theorem owned_start {start : World} (fresh : start.Fresh) : Owned ⟨start, [], []⟩ :=
  ⟨consistent_start fresh, by simp [requests], by simp [requests]⟩

/-- An action that records no job and leaves the store. -/
theorem Owned.aside (owned : s.Owned) (consistent : later.Consistent)
    (known : ∀ r ∈ requests later.members, r.drawn ∈ recordedIn later.trace →
      r ∈ requests s.members ∧ r.drawn ∈ recordedIn s.trace)
    (store : later.world.store = s.world.store) : later.Owned := by
  refine ⟨consistent, ?_, ?_⟩
  · intro r mem recorded
    obtain ⟨old, before⟩ := known r mem recorded
    exact owned.fits r old before
  · intro r mem recorded
    obtain ⟨old, before⟩ := known r mem recorded
    rw [store]
    exact owned.kept r old before

private theorem Owned.turn (owned : s.Owned) {front back : List Member} {member next : Member} {event : Event}
    {world : World} (members : s.members = front ++ member :: back)
    (moves : Member.Moves s.world member event next world)
    (consistent : Consistent ⟨world, s.trace ++ [event], front ++ next :: back⟩) :
    Owned ⟨world, s.trace ++ [event], front ++ next :: back⟩ := by
  have same : requests (front ++ next :: back) = requests s.members := by
    rw [requests_turn moves, members]
  -- What is recorded was so before, or this call recorded it for the submission that drew its id.
  have grown : ∀ r ∈ requests s.members, r.drawn ∈ recordedIn (s.trace ++ [event]) →
      r.drawn ∈ recordedIn s.trace ∨
        (r.references.length = r.type.imageCount ∧ world.store.OwnedBy r.client r.type r.drawn) := by
    intro r mem recorded
    rw [recordedIn_append, recordedIn_singleton, List.mem_append, Option.mem_toList] at recorded
    refine recorded.imp_right fun now => ?_
    rcases moves.submission_or_ofWorker with ⟨maker, stage, _, rfl, _, stepped⟩ | ⟨_, _, ofWorker⟩
    · obtain ⟨drawn, fits, kept⟩ := stepped.makes now
      have among : maker ∈ requests s.members :=
        mem_requests.2 ⟨stage, members ▸ mem_turn.2 (.inl rfl)⟩
      cases List.inj_on_of_nodup_map owned.consistent.orderly.distinct mem among drawn
      exact ⟨fits, kept⟩
    · rw [(Event.plain_ofWorker ofWorker).recorded] at now
      cases now
  refine ⟨consistent, ?_, ?_⟩
  · intro r mem recorded
    rcases grown r (same ▸ mem) recorded with old | ⟨fits, _⟩
    · exact owned.fits r (same ▸ mem) old
    · exact fits
  · intro r mem recorded
    rcases grown r (same ▸ mem) recorded with old | ⟨_, kept⟩
    · exact (owned.kept r (same ▸ mem) old).advances fun job found =>
        owned.consistent.orderly.keeps_job members moves found
    · exact kept

private theorem Owned.step {action : Action} (owned : s.Owned) (step : s.Step action later) :
    later.Owned := by
  have consistent := owned.consistent.step step
  cases step with
  | @submit r stage fresh asking =>
    refine owned.aside consistent ?_ rfl
    intro other mem recorded
    rw [requests_append] at mem
    rcases List.mem_append.1 mem with old | new
    · exact ⟨old, recorded⟩
    · -- An id that is drawn now was not recorded before.
      cases List.mem_singleton.1 new
      obtain ⟨owner, among, drawn⟩ := owned.consistent.recorded _ recorded
      exact absurd drawn.symm (fresh owner among)
  | drain =>
    refine owned.aside consistent ?_ rfl
    intro r mem recorded
    rw [requests_append] at mem
    exact ⟨(List.mem_append.1 mem).resolve_right (by simp [requests]), recorded⟩
  | deliver =>
    refine owned.aside consistent ?_ rfl
    intro r mem recorded
    rw [requests_append] at mem
    exact ⟨(List.mem_append.1 mem).resolve_right (by simp [requests]), recorded⟩
  | turn members moves => exact owned.turn members moves consistent
  | @disturb change =>
    exact owned.aside consistent (fun r mem recorded => ⟨mem, recorded⟩) (change.apply_keeps s.world).1

end Crew

/-- Whether a submission recorded a job or was told one; the texts of all of these are hashed. -/
def Pool.Hashed (p : Pool) (r : Request) : Prop :=
  r ∈ p.requests ∧ (r.drawn ∈ p.recorded ∨ ∃ id, .submission r (.done (.ok id)) ∈ p.threads)

/-- Whether no two texts of a pool have one digest. -/
def Pool.CollisionFree (p : Pool) : Prop :=
  ∀ r other, p.Hashed r → p.Hashed other →
    Sha256.digest (Utf8.encode r.source) = Sha256.digest (Utf8.encode other.source) →
      r.source = other.source

/-- Whatever is submitted, however the calls of submissions and workers take turns, and whatever
fails: the job that a submission is answered with is there ever after, of the type that was asked for
and the client's, and the client is told of it under every text that names it. -/
theorem answered_own {start : World} {p : Pool} (fresh : start.Fresh)
    (reach : Pool.Reachable Pool.Anything start p) (free : p.CollisionFree) {r : Request} {id : JobId}
    (answered : .submission r (.done (.ok id)) ∈ p.threads) :
    p.world.store.OwnedBy r.client r.type id ∧
      ∀ text, JobId.parse? text = some id →
        ∃ told, p.world.run (StatusQuery.status text r.type r.client) = some (told, p.world) ∧
          ∀ e, told = .error e → e.isNotFound = false := by
  obtain ⟨s, rfl, owned⟩ := reach.induct Crew.Owned (Crew.owned_start fresh)
    fun owned _ step => owned.step step
  have finished := Crew.mem_of_done answered
  obtain ⟨owner, among, same, rfl, recorded⟩ := owned.consistent.staged r _ finished
  have hashed : s.pool.Hashed r := by
    refine ⟨?_, .inr ⟨_, answered⟩⟩
    rw [Crew.requests_pool]
    exact Crew.mem_requests.2 ⟨_, finished⟩
  have hashes : s.pool.Hashed owner := ⟨Crew.requests_pool s ▸ among, .inl recorded⟩
  -- The fingerprints are one, so the texts are, and these begin with the type and the client.
  have texts : r.source = owner.source :=
    free r owner hashed hashes (Fingerprint.digest_eq_of_text_eq same.symm)
  obtain ⟨types, clients⟩ :=
    Fingerprint.head_of_source_eq (owned.fits owner among recorded) texts
  have own : s.pool.world.store.OwnedBy r.client r.type owner.drawn := by
    rw [types, clients]
    exact owned.kept owner among recorded
  exact ⟨own, fun text names => World.status_ownedBy owned.consistent.orderly.rows own names⟩

/-- A card is submitted, and again while its job waits for the queue; the second submission is
answered with the job of the first, and the client is told of it. -/
theorem answered_own_card : ∃ p : Pool, p.CollisionFree ∧
    .submission (Pool.cardRequest 2) (.done (.ok (Pool.cardRequest 1).drawn)) ∈ p.threads ∧
    p.world.store.OwnedBy 1 .ocr (Pool.cardRequest 1).drawn ∧
    ∃ told, p.world.run (StatusQuery.status (Pool.cardRequest 1).drawn.text .ocr 1) = some (told, p.world) ∧
      ∀ e, told = .error e → e.isNotFound = false := by
  obtain ⟨task, fits⟩ := Request.exists_task (r := Pool.cardRequest 1) rfl
  have turns := fun p => Pool.anything p .turn
  obtain ⟨trace, _, _, _, inspecting⟩ := Pool.Reachable.races (Pool.cardRequest 2) fits rfl
    (by decide) turns (fun p r => Pool.anything p (.submit r))
    (Pool.fresh_deskWorld fun _ => false) ⟨rfl, rfl⟩ (Pool.valid_cardRequest rfl 1)
    (Pool.valid_cardRequest rfl 2)
  obtain ⟨event, _, answered⟩ := inspecting.answers [_] [] turns (by rintro job ⟨⟩; rfl)
  obtain ⟨p, requests, told, reach⟩ : ∃ p : Pool, p.requests = [Pool.cardRequest 1, Pool.cardRequest 2] ∧
      .submission (Pool.cardRequest 2) (.done (.ok (Pool.cardRequest 1).drawn)) ∈ p.threads ∧
      Pool.Reachable Pool.Anything (Pool.deskWorld fun _ => false) p :=
    ⟨_, rfl, List.mem_cons_of_mem _ (List.mem_singleton.2 rfl), answered⟩
  have free : p.CollisionFree := by
    have text : ∀ r, p.Hashed r → r.source = "ocr:1:card" := by
      rintro r ⟨mem, _⟩
      rw [requests] at mem
      rcases List.mem_cons.1 mem with rfl | mem
      · cbv
      · cases List.mem_singleton.1 mem
        cbv
    intro r other hashed also _
    rw [text r hashed, text other also]
  obtain ⟨own, tells⟩ := answered_own (Pool.fresh_deskWorld _) reach free told
  exact ⟨p, free, told, own, tells _ (JobId.parse?_text _)⟩

end Memory

end Vetting
