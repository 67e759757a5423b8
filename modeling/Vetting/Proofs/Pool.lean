import Vetting.Proofs.Submission
import Vetting.Proofs.Worker

/-!
Submissions and workers that take turns in one world (`Pool`). A turn is one call of one program;
between turns programs begin and others change the world. A submission that stands before its call of
`publish` for a while is one that is held in the queue, and one that takes all its turns in a row is one
that is not disturbed (`Reachable.run`).

Every program of a pool is at a stage of its own (`Crew`), so what holds of all pools is shown by
looking at the moves of one stage (`Reachable.induct`).
-/
namespace Vetting.Memory

/-- A program that has begun, and what is left of it. A handler works on one delivery, wherever it
came from. -/
inductive Thread
  | submission (request : Request) (rest : Service (Except SubmitError JobId))
  | worker (rest : Service (Except QueueError Unit))
  | handler (rest : Service DeliveryOutcome)

/-- The next call of a program. -/
def Thread.turn (w : World) : Thread → Option (Event × Thread × World)
  | .submission request rest =>
    (w.turnOf rest).map fun (event, rest, after) => (event, .submission request rest, after)
  | .worker rest => (w.turnOf rest).map fun (event, rest, after) => (event, .worker rest, after)
  | .handler rest => (w.turnOf rest).map fun (event, rest, after) => (event, .handler rest, after)

/-- A change that no program makes. -/
inductive Disturbance
  | turn (switch : Switch) (on : Bool)
  | clearCache
  | upload (reference : String) (kind : ImageKind) (client : Int)
  | replace (executors : Executors)
  | clock (now : Instant)

/-- The world after a change. -/
def Disturbance.apply : Disturbance → World → World
  | .turn switch on, w => w.turn switch on
  | .clearCache, w => w.clearCache
  | .upload reference kind client, w => (w.addImage reference kind client).2
  | .replace executors, w => { w with executors }
  | .clock now, w => { w with now }

theorem Disturbance.apply_keeps (change : Disturbance) (w : World) :
    (change.apply w).store = w.store ∧ (change.apply w).interruptions = w.interruptions ∧
      (change.apply w).rows = w.rows ∧ (change.apply w).pending = w.pending := by
  cases change <;> exact ⟨rfl, rfl, rfl, rfl⟩

/-- What can happen to a pool. -/
inductive Action
  | submit (request : Request)
  | drain
  | deliver (delivery : Delivery)
  | turn
  | disturb (change : Disturbance)

/-- A world, the calls that led to it, and the programs that work in it. -/
structure Pool where
  world : World
  trace : List Event
  threads : List Thread

namespace Pool

/-- The submissions that were made. -/
def requests (p : Pool) : List Request :=
  p.threads.filterMap fun
    | .submission request _ => some request
    | _ => none

/-- The ids of the jobs that were recorded. -/
def recorded (p : Pool) : List JobId := recordedIn p.trace

/-- The ids of the jobs that were abandoned. -/
def abandoned (p : Pool) : List JobId := abandonedIn p.trace

/-- The payloads that the queue accepted. -/
def queued (p : Pool) : List (List UInt8) := queuedIn p.trace

/-- One action. A submission draws an id that no other has drawn. -/
inductive Step (p : Pool) : Action → Pool → Prop
  | submit {request : Request} (fresh : ∀ other ∈ p.requests, request.drawn ≠ other.drawn) :
      Step p (.submit request) { p with threads := p.threads ++ [.submission request request.program] }
  | drain : Step p .drain { p with threads := p.threads ++ [.worker Worker.work] }
  | deliver {delivery : Delivery} :
      Step p (.deliver delivery) { p with threads := p.threads ++ [.handler (Worker.handle delivery)] }
  | turn {front back : List Thread} {thread later : Thread} {event : Event} {world : World}
      (threads : p.threads = front ++ thread :: back)
      (turned : thread.turn p.world = some (event, later, world)) :
      Step p .turn ⟨world, p.trace ++ [event], front ++ later :: back⟩
  | disturb {change : Disturbance} :
      Step p (.disturb change) { p with world := change.apply p.world }

/-- The pools that come of a world in which nothing has begun, by actions that are allowed. -/
inductive Reachable (Allowed : Pool → Action → Prop) (start : World) : Pool → Prop
  | start : Reachable Allowed start ⟨start, [], []⟩
  | act {p later : Pool} {action : Action} (before : Reachable Allowed start p)
      (allowed : Allowed p action) (step : Step p action later) : Reachable Allowed start later

/-- Leave for every action. -/
def Anything (_ : Pool) (_ : Action) : Prop := True

theorem anything (p : Pool) (action : Action) : Anything p action := trivial

/-- A pool and one that turns of its programs lead to. -/
def Turns : Pool → Pool → Prop := Relation.ReflTransGen fun p later => p.Step .turn later

private theorem Reachable.turns {Allowed : Pool → Action → Prop} {start : World} {p later : Pool}
    (allowed : ∀ p, Allowed p .turn) (reach : Reachable Allowed start p) (taken : p.Turns later) :
    Reachable Allowed start later := by
  induction taken with
  | refl => exact reach
  | tail _ step reached => exact .act reached (allowed _) step

section Run

variable {α : Type} (thread : Service α → Thread)
  (turns : ∀ w rest, (thread rest).turn w =
    (w.turnOf rest).map fun (event, rest, after) => (event, thread rest, after))

include turns

/-- A program can take all its turns in a row. -/
theorem exists_turns (front back : List Thread) (program : Service α) {result : α} {after : World} :
    ∀ {w : World} (trace : List Event), w.run program = some (result, after) →
      ∃ more, Turns ⟨w, trace, front ++ thread program :: back⟩
        ⟨after, trace ++ more, front ++ thread (.done result) :: back⟩ := by
  induction program with
  | done a =>
    intro w trace ran
    cases ran
    refine ⟨[], ?_⟩
    rw [List.append_nil]
    exact .refl
  | call c next ih =>
    intro w trace ran
    cases answered : w.perform c with
    | none =>
      simp [World.run, Program.run, answered] at ran
    | some answer =>
      obtain ⟨reply, mid⟩ := answer
      have turned : (thread (.call c next)).turn w =
          some (⟨w, c, reply⟩, thread (next reply), mid) := by
        rw [turns, World.turnOf_answered answered]
        rfl
      have first : Step ⟨w, trace, front ++ thread (.call c next) :: back⟩ .turn
          ⟨mid, trace ++ [⟨w, c, reply⟩], front ++ thread (next reply) :: back⟩ := .turn rfl turned
      rw [World.run_answered answered] at ran
      obtain ⟨more, rest⟩ := ih reply (trace ++ [⟨w, c, reply⟩]) ran
      rw [List.append_assoc] at rest
      exact ⟨_, .head first rest⟩

theorem Reachable.run {Allowed : Pool → Action → Prop} {start : World} {front back : List Thread}
    (allowed : ∀ p, Allowed p .turn) (program : Service α) {result : α} {w after : World}
    {trace : List Event} (reach : Reachable Allowed start ⟨w, trace, front ++ thread program :: back⟩)
    (ran : w.run program = some (result, after)) :
    ∃ more, Reachable Allowed start ⟨after, trace ++ more, front ++ thread (.done result) :: back⟩ := by
  obtain ⟨more, taken⟩ := exists_turns thread turns front back program trace ran
  exact ⟨more, reach.turns allowed taken⟩

end Run

end Pool

/-- A program of a pool at its stage. -/
inductive Member
  | submission (request : Request) (stage : Submission.Stage request)
  | worker (duty : Worker.Duty)
  | handler (delivery : Delivery) (stage : Worker.Handling delivery)

namespace Member

/-- The program as the pool has it. -/
def thread : Member → Thread
  | .submission request stage => .submission request stage.program
  | .worker duty => .worker duty.program
  | .handler _ stage => .handler stage.program

/-- What one call does to a program and to the world. -/
inductive Moves (w : World) : Member → Event → Member → World → Prop
  | submission {r : Request} {stage later : Submission.Stage r} {event : Event} {after : World}
      (moves : Submission.Moves w stage event later after) :
      Moves w (.submission r stage) event (.submission r later) after
  | worker {duty later : Worker.Duty} {event : Event} {after : World}
      (moves : Worker.Duty.Moves w duty event later after) :
      Moves w (.worker duty) event (.worker later) after
  | handler {d : Delivery} {stage later : Worker.Handling d} {event : Event} {after : World}
      (moves : Worker.Handling.Moves w stage event later after) :
      Moves w (.handler d stage) event (.handler d later) after

theorem moves_of_turn {member : Member} {w after : World} {event : Event} {rest : Thread}
    (turned : member.thread.turn w = some (event, rest, after)) :
    ∃ later : Member, rest = later.thread ∧ Moves w member event later after := by
  cases member with
  | submission r stage =>
    simp only [thread, Thread.turn, Option.map_eq_some_iff, Prod.mk.injEq] at turned
    obtain ⟨⟨_, left, _⟩, turned, rfl, rfl, rfl⟩ := turned
    obtain ⟨later, rfl, moves⟩ := Submission.moves_of_turnOf turned
    exact ⟨.submission r later, rfl, .submission moves⟩
  | worker duty =>
    simp only [thread, Thread.turn, Option.map_eq_some_iff, Prod.mk.injEq] at turned
    obtain ⟨⟨_, left, _⟩, turned, rfl, rfl, rfl⟩ := turned
    obtain ⟨later, rfl, moves⟩ := Worker.Duty.moves_of_turnOf turned
    exact ⟨.worker later, rfl, .worker moves⟩
  | handler d stage =>
    simp only [thread, Thread.turn, Option.map_eq_some_iff, Prod.mk.injEq] at turned
    obtain ⟨⟨_, left, _⟩, turned, rfl, rfl, rfl⟩ := turned
    obtain ⟨later, rfl, moves⟩ := Worker.Handling.moves_of_turnOf turned
    exact ⟨.handler d later, rfl, .handler moves⟩

variable {w after : World} {event : Event} {member later : Member}

theorem Moves.perform_eq (moves : Moves w member event later after) :
    event.before = w ∧ w.perform event.call = some (event.reply, after) := by
  cases moves with
  | submission moves => exact moves.perform_eq
  | worker moves => exact moves.perform_eq
  | handler moves => exact moves.perform_eq

/-- A program that does not submit makes the calls of a worker. -/
theorem Moves.submission_or_ofWorker (moves : Moves w member event later after) :
    (∃ (r : Request) (stage next : Submission.Stage r), member = .submission r stage ∧
      later = .submission r next ∧ Submission.Moves w stage event next after) ∨
    ((∀ r stage, member ≠ .submission r stage) ∧ (∀ r stage, later ≠ .submission r stage) ∧
      event.call.OfWorker) := by
  cases moves with
  | submission moves => exact .inl ⟨_, _, _, rfl, rfl, moves⟩
  | worker moves => exact .inr ⟨by simp, by simp, moves.ofWorker⟩
  | handler moves => exact .inr ⟨by simp, by simp, moves.ofWorker⟩

private theorem Moves.create_id (moves : Moves w member event later after) {new : NewJob}
    (call : event.call = .create new) :
    ∃ (r : Request) (stage : Submission.Stage r), member = .submission r stage ∧ new.id = r.drawn := by
  rcases moves.submission_or_ofWorker with ⟨r, stage, next, rfl, _, moves⟩ | ⟨_, _, ofWorker⟩
  · exact ⟨r, stage, rfl, (moves.create_eq call).1⟩
  · rw [call] at ofWorker
    exact ofWorker.elim

end Member

/-- A world, the calls that led to it, and the programs that work in it at their stages. -/
structure Crew where
  world : World
  trace : List Event
  members : List Member

namespace Crew

def pool (s : Crew) : Pool := ⟨s.world, s.trace, s.members.map Member.thread⟩

/-- The submissions that were made. -/
def requests (members : List Member) : List Request :=
  members.filterMap fun
    | .submission request _ => some request
    | _ => none

@[simp] theorem requests_pool (s : Crew) : s.pool.requests = requests s.members := by
  simp only [pool, Pool.requests, requests, List.filterMap_map]
  congr 1
  funext member
  cases member <;> rfl

theorem mem_of_done {s : Crew} {r : Request} {result : Except SubmitError JobId}
    (mem : .submission r (.done result) ∈ s.pool.threads) :
    .submission r (.finished result) ∈ s.members := by
  obtain ⟨member, among, equal⟩ := List.mem_map.1 mem
  cases member with
  | submission request stage =>
    simp only [Member.thread, Thread.submission.injEq] at equal
    obtain ⟨rfl, done⟩ := equal
    rw [← Submission.eq_finished done]
    exact among
  | worker duty => cases equal
  | handler delivery stage => cases equal

/-- One action, by stages. -/
inductive Step (s : Crew) : Action → Crew → Prop
  | submit {request : Request} {stage : Submission.Stage request}
      (fresh : ∀ other ∈ requests s.members, request.drawn ≠ other.drawn) (asking : stage.Asking) :
      Step s (.submit request) { s with members := s.members ++ [.submission request stage] }
  | drain : Step s .drain { s with members := s.members ++ [.worker .receiving] }
  | deliver {delivery : Delivery} :
      Step s (.deliver delivery)
        { s with members := s.members ++ [.handler delivery (.opening delivery)] }
  | turn {front back : List Member} {member later : Member} {event : Event} {world : World}
      (members : s.members = front ++ member :: back)
      (moves : Member.Moves s.world member event later world) :
      Step s .turn ⟨world, s.trace ++ [event], front ++ later :: back⟩
  | disturb {change : Disturbance} :
      Step s (.disturb change) { s with world := change.apply s.world }

theorem step_of_pool {s : Crew} {action : Action} {p : Pool} (step : s.pool.Step action p) :
    ∃ later : Crew, p = later.pool ∧ s.Step action later := by
  cases step with
  | @submit request fresh =>
    obtain ⟨stage, asking, program⟩ := Submission.exists_stage_program request
    rw [requests_pool] at fresh
    refine ⟨{ s with members := s.members ++ [.submission request stage] }, ?_, .submit fresh asking⟩
    simp only [pool, List.map_append, List.map_cons, List.map_nil, Member.thread, program]
  | drain =>
    refine ⟨{ s with members := s.members ++ [.worker .receiving] }, ?_, .drain⟩
    simp only [pool, List.map_append, List.map_cons, List.map_nil, Member.thread, Worker.Duty.program]
  | @deliver d =>
    refine ⟨{ s with members := s.members ++ [.handler d (.opening d)] }, ?_, .deliver⟩
    simp only [pool, List.map_append, List.map_cons, List.map_nil, Member.thread,
      Worker.Handling.program_opening]
  | turn threads turned =>
    obtain ⟨front, rest, split, rfl, tail⟩ := List.map_eq_append_iff.1 threads
    obtain ⟨member, back, rfl, rfl, rfl⟩ := List.map_eq_cons_iff.1 tail
    obtain ⟨later, rfl, moves⟩ := Member.moves_of_turn turned
    exact ⟨_, by simp [pool], .turn split moves⟩
  | disturb => exact ⟨_, rfl, .disturb⟩

end Crew

namespace Crew

@[simp] theorem requests_append (front back : List Member) :
    requests (front ++ back) = requests front ++ requests back := List.filterMap_append

private theorem requests_other {member : Member} (other : ∀ r stage, member ≠ .submission r stage)
    (members : List Member) : requests (member :: members) = requests members := by
  cases member with
  | submission r stage => exact absurd rfl (other r stage)
  | _ => rfl

theorem mem_requests {members : List Member} {r : Request} :
    r ∈ requests members ↔ ∃ stage, .submission r stage ∈ members := by
  simp only [requests, List.mem_filterMap]
  constructor
  · rintro ⟨member, mem, told⟩
    cases member with
    | submission request stage =>
      cases told
      exact ⟨stage, mem⟩
    | _ => cases told
  · rintro ⟨stage, mem⟩
    exact ⟨_, mem, rfl⟩

/-- A turn leaves the submissions what they are. -/
theorem requests_turn {w after : World} {event : Event} {member later : Member}
    (moves : Member.Moves w member event later after) (front back : List Member) :
    requests (front ++ later :: back) = requests (front ++ member :: back) := by
  rw [requests_append, requests_append]
  rcases moves.submission_or_ofWorker with ⟨r, stage, next, rfl, rfl, _⟩ | ⟨old, new, _⟩
  · rfl
  · rw [requests_other old, requests_other new]

theorem mem_turn {front back : List Member} {member other : Member} :
    other ∈ front ++ member :: back ↔ other = member ∨ other ∈ front ++ back := by
  simp only [List.mem_append, List.mem_cons]
  tauto

/-- No other submission has drawn the same id. -/
theorem drawn_ne {front back : List Member} {r other : Request} {stage : Submission.Stage r}
    {at' : Submission.Stage other}
    (distinct : ((requests (front ++ .submission r stage :: back)).map Request.drawn).Nodup)
    (mem : .submission other at' ∈ front ++ back) : other.drawn ≠ r.drawn := by
  have split : requests (front ++ .submission r stage :: back) =
      requests front ++ r :: requests back := requests_append _ _
  rw [split, List.map_append, List.map_cons, List.nodup_middle, List.nodup_cons] at distinct
  intro same
  have among : other ∈ requests front ++ requests back := by
    rw [← requests_append]
    exact mem_requests.2 ⟨at', mem⟩
  rw [← List.map_append] at distinct
  exact distinct.1 (same ▸ List.mem_map_of_mem among)

/-- What the calls of all programs and all disturbances keep: each submission has its own id, and the
store has no jobs but theirs. -/
structure Orderly (s : Crew) : Prop where
  calm : s.world.interruptions = []
  rows : s.world.rows = []
  distinct : ((requests s.members).map Request.drawn).Nodup
  stored : ∀ id job, s.world.store.job? id = some job → ∃ r ∈ requests s.members, r.drawn = id
  early : ∀ r stage, .submission r stage ∈ s.members → stage.Early →
    s.world.store.job? r.drawn = none

theorem orderly_start {start : World} (fresh : start.Fresh) : Orderly ⟨start, [], []⟩ := by
  refine ⟨fresh.interruptions, fresh.rows, List.nodup_nil, ?_, by simp⟩
  intro id job found
  simp [fresh.store, JobTable.empty, JobTable.job?] at found

/-- A submission joins that has drawn an id of its own. -/
private theorem Orderly.submit {s : Crew} {r : Request} (orderly : s.Orderly)
    (fresh : ∀ other ∈ requests s.members, r.drawn ≠ other.drawn) (stage : Submission.Stage r) :
    Orderly { s with members := s.members ++ [.submission r stage] } := by
  have grown : requests (s.members ++ [.submission r stage]) = requests s.members ++ [r] :=
    requests_append _ _
  refine ⟨orderly.calm, orderly.rows, ?_, ?_, ?_⟩
  · simp only [grown, List.map_append, List.map_cons, List.map_nil]
    refine List.nodup_append.2 ⟨orderly.distinct, by simp, ?_⟩
    intro id mem drawn new same
    obtain ⟨other, among, rfl⟩ := List.mem_map.1 mem
    exact fresh other among (same.trans (List.mem_singleton.1 new)).symm
  · intro id job found
    obtain ⟨other, among, rfl⟩ := orderly.stored id job found
    exact ⟨other, by rw [grown]; exact List.mem_append_left _ among, rfl⟩
  · intro other at' mem early
    rcases List.mem_append.1 mem with old | new
    · exact orderly.early other at' old early
    · cases List.mem_singleton.1 new
      refine Option.eq_none_iff_forall_not_mem.2 fun job found => ?_
      obtain ⟨other, among, same⟩ := orderly.stored _ job found
      exact fresh other among same.symm

/-- A member joins that is no submission. -/
private theorem Orderly.joined {s : Crew} {member : Member} (orderly : s.Orderly)
    (other : ∀ r stage, member ≠ .submission r stage) :
    Orderly { s with members := s.members ++ [member] } := by
  have same : requests (s.members ++ [member]) = requests s.members := by
    rw [requests_append, requests_other other]
    exact List.append_nil _
  refine ⟨orderly.calm, orderly.rows, same ▸ orderly.distinct, same ▸ orderly.stored, ?_⟩
  intro r stage mem
  refine orderly.early r stage ((List.mem_append.1 mem).resolve_right fun new => ?_)
  exact other r stage (List.mem_singleton.1 new).symm

/-- One call. -/
private theorem Orderly.turn {s : Crew} {front back : List Member} {member later : Member} {event : Event}
    {world : World} (orderly : s.Orderly) (members : s.members = front ++ member :: back)
    (moves : Member.Moves s.world member event later world) :
    Orderly ⟨world, s.trace ++ [event], front ++ later :: back⟩ := by
  obtain ⟨_, answered⟩ := moves.perform_eq
  have settings := World.perform_settings orderly.calm answered
  have same := requests_turn moves front back
  have distinct := orderly.distinct
  have stored := orderly.stored
  rw [members] at distinct stored
  refine ⟨settings.interruptions.trans orderly.calm, settings.rows.trans orderly.rows, ?_, ?_, ?_⟩
  · exact same ▸ distinct
  · intro id job found
    rw [same]
    by_contra unknown
    have absent : s.world.store.job? id = none :=
      Option.eq_none_iff_forall_not_mem.2 fun job known => unknown (stored id job known)
    have other : ∀ new, event.call = .create new → new.id ≠ id := by
      rintro new call rfl
      obtain ⟨r, stage, rfl, drawn⟩ := moves.create_id call
      exact unknown ⟨r, mem_requests.2 ⟨stage, by simp⟩, drawn.symm⟩
    rw [World.perform_absent orderly.calm answered other absent] at found
    cases found
  · -- Only the submission that drew an id can record a job under it, and then it is not early.
    intro r stage mem early
    refine World.perform_absent orderly.calm answered ?_ ?_
    · intro new call
      obtain ⟨owner, old, rfl, drawn⟩ := moves.create_id call
      rcases mem_turn.1 mem with rfl | elsewhere
      · cases moves with
        | submission moves => exact absurd early (moves.create_eq call).2.2
      · rw [drawn]
        exact (drawn_ne distinct elsewhere).symm
    · rcases mem_turn.1 mem with rfl | elsewhere
      · cases moves with
        | submission moves =>
          exact orderly.early r _ (members ▸ mem_turn.2 (.inl rfl)) (moves.early early)
      · exact orderly.early r stage (members ▸ mem_turn.2 (.inr elsewhere)) early

theorem Orderly.step {s later : Crew} {action : Action} (orderly : s.Orderly)
    (step : s.Step action later) : later.Orderly := by
  cases step with
  | submit fresh => exact orderly.submit fresh _
  | drain | deliver => exact orderly.joined (by simp)
  | turn members moves => exact orderly.turn members moves
  | @disturb change =>
    obtain ⟨store, interruptions, rows, _⟩ := change.apply_keeps s.world
    refine ⟨interruptions.trans orderly.calm, rows.trans orderly.rows, orderly.distinct, ?_, ?_⟩
    · simpa only [store] using orderly.stored
    · simpa only [store] using orderly.early

/-- A turn keeps every job that is there. -/
theorem Orderly.keeps_job {s : Crew} (orderly : s.Orderly) {front back : List Member}
    {member later : Member} {event : Event} {world : World}
    (members : s.members = front ++ member :: back)
    (moves : Member.Moves s.world member event later world) {id : JobId} {job : Job}
    (found : s.world.store.job? id = some job) :
    ∃ next, world.store.job? id = some next ∧ job.Advances next := by
  obtain ⟨_, answered⟩ := moves.perform_eq
  refine World.perform_advances answered ?_ found
  rintro new call rfl
  obtain ⟨r, stage, rfl, drawn⟩ := moves.create_id call
  cases moves with
  | submission moves =>
    have absent := orderly.early r stage (members ▸ mem_turn.2 (.inl rfl)) (moves.create_eq call).2.1
    rw [← drawn, found] at absent
    cases absent

end Crew

/-- What holds at the start and is kept by every action of a crew holds of every pool that is
reached. -/
theorem Pool.Reachable.induct {Allowed : Pool → Action → Prop} {start : World} (Holds : Crew → Prop)
    (first : Holds ⟨start, [], []⟩)
    (keeps : ∀ {s later : Crew} {action : Action}, Holds s → Allowed s.pool action →
      s.Step action later → Holds later)
    {p : Pool} (reach : Reachable Allowed start p) : ∃ s : Crew, p = s.pool ∧ Holds s := by
  induction reach with
  | start => exact ⟨_, rfl, first⟩
  | act _ allowed step ih =>
    obtain ⟨s, rfl, holds⟩ := ih
    obtain ⟨later, rfl, stepped⟩ := Crew.step_of_pool step
    exact ⟨later, rfl, keeps holds allowed stepped⟩

end Vetting.Memory
