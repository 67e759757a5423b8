import Vetting.Proofs.Ledger
import Vetting.Proofs.Opening

/-!
No job is lost and none is worked on twice. Where payloads come from submissions only and the end of a
job can be recorded, every job whose submission and worker are at rest waits for the queue, waits in the
queue with one payload, or is over, and a worker that takes all that the queue has brings it to an end
(`work_conserved`).

What carries this is that the jobs which are not over are those that the queue or a program has in its
hands, each in one place (`Crew.Kept`).
-/
namespace Vetting

open Memory

namespace Worker

/-- Whether a worker has taken what the queue had. -/
def Duty.Received : Duty → Prop
  | .receiving => False
  | .finished result => result = .ok ()
  | .handling .. | .waiting _ => True

private theorem Duty.received_resume (received : List (Except QueueError Delivery)) :
    (resume received).Received := by
  match received with
  | [] => rfl
  | .ok _ :: _ => trivial
  | .error _ :: _ => trivial

private theorem Duty.received_proceed (d : Delivery) (stage : Handling d)
    (rest : List (Except QueueError Delivery)) : (proceed d stage rest).Received := by
  unfold proceed
  split
  · trivial
  · exact received_resume rest

private theorem Duty.Moves.after_received {w after : World} {event : Event} {duty later : Duty}
    (calm : w.interruptions = []) (moves : Moves w duty event later after) (received : duty.Received) :
    later.Received ∧ after.pending = w.pending := by
  cases moves with
  | barred => exact received.elim
  | received => exact received.elim
  | handled moves => exact ⟨received_proceed _ _ _, moves.pending_eq calm⟩
  | waited => exact ⟨received_resume _, rfl⟩

/-- What a worker has left of a world: no job is lost, and the queue is empty once it has received. -/
structure Draining (start w : World) (rest : Service (Except QueueError Unit)) : Prop where
  calm : w.interruptions = []
  staged : ∃ duty : Duty, rest = duty.program ∧
    (duty = .receiving ∧ w.faults .consume = false ∨ duty.Received ∧ w.pending = [])
  kept : ∀ id job, start.store.job? id = some job →
    ∃ later, w.store.job? id = some later ∧ job.Advances later

private theorem Draining.turn {start w after : World} {rest later : Service (Except QueueError Unit)}
    {event : Event} (draining : Draining start w rest) (turned : w.turnOf rest = some (event, later, after)) :
    Draining start after later := by
  obtain ⟨calm, ⟨duty, rfl, staged⟩, kept⟩ := draining
  obtain ⟨next, rfl, moves⟩ := Duty.moves_of_turnOf turned
  obtain ⟨_, answered⟩ := moves.perform_eq
  refine ⟨(World.perform_settings calm answered).interruptions.trans calm, ⟨next, rfl, ?_⟩, ?_⟩
  · rcases staged with ⟨rfl, working⟩ | ⟨received, empty⟩
    · cases moves with
      | barred made => simp [World.consume, working] at made
      | received made =>
        exact .inr ⟨Duty.received_resume _, (Duty.owedIn_consume made).2.1⟩
    · obtain ⟨goes, same⟩ := moves.after_received calm received
      exact .inr ⟨goes, same.trans empty⟩
  · intro id job found
    obtain ⟨mid, there, before⟩ := kept id job found
    have other : ∀ new, event.call = .create new → new.id ≠ id := by
      intro new call
      have ofWorker := moves.ofWorker
      rw [call] at ofWorker
      exact ofWorker.elim
    obtain ⟨last, stays, advances⟩ := World.perform_advances answered other there
    exact ⟨last, stays, before.trans advances⟩

/-- A worker whose operations end comes to an end itself. It empties the queue and loses no job. -/
theorem run_work {w : World} (calm : w.interruptions = []) (answering : w.Answering)
    (working : w.faults .consume = false) :
    ∃ after, w.run work = some (.ok (), after) ∧ after.pending = [] ∧
      ∀ id job, w.store.job? id = some job →
        ∃ later, after.store.job? id = some later ∧ job.Advances later := by
  obtain ⟨result, after, ran⟩ := World.exists_run work answering
  have begins : Draining w w work :=
    ⟨calm, ⟨.receiving, rfl, .inl ⟨rfl, working⟩⟩, fun id job found => ⟨job, found, .refl job⟩⟩
  obtain ⟨_, ⟨duty, done, staged⟩, kept⟩ := World.run_keeps (Draining w) Draining.turn work begins ran
  obtain rfl := Duty.eq_finished done.symm
  rcases staged with ⟨unstarted, _⟩ | ⟨received, empty⟩
  · cases unstarted
  · obtain rfl : result = .ok () := received
    exact ⟨after, ran, empty, kept⟩

end Worker

namespace Memory

/-- Whether a program is done, or held before its task is queued. -/
def Thread.Resting : Thread → Prop
  | .submission _ rest =>
    (∃ result, rest = .done result) ∨ ∃ payload next, rest = .call (.publish payload) next
  | .worker rest => ∃ result, rest = .done result
  | .handler rest => ∃ outcome, rest = .done outcome

/-- The debts of a program at rest are those of a submission that is held. -/
theorem Member.resting_debts {member : Member} (resting : member.thread.Resting) {debt : Debt}
    (mem : debt ∈ member.debts) :
    ∃ (r : Request) (task : Task) (fits : r.task? = some task),
      member = .submission r (.publishing task fits) ∧ debt = ⟨r.drawn, r.type, [.created]⟩ := by
  cases member with
  | submission r stage =>
    cases stage with
    | publishing task fits => exact ⟨r, task, fits, rfl, List.mem_singleton.1 mem⟩
    | withdrawing error =>
      rcases resting with ⟨result, done⟩ | ⟨payload, next, asks⟩
      · cases done
      · cases asks
    | _ => exact absurd mem List.not_mem_nil
  | worker duty =>
    obtain ⟨result, done⟩ := resting
    obtain rfl := Worker.Duty.eq_finished done
    exact absurd mem List.not_mem_nil
  | handler d stage =>
    obtain ⟨outcome, done⟩ := resting
    cases stage with
    | finished _ => exact absurd mem List.not_mem_nil
    | _ => cases done

namespace Pool

/-- A pool whose programs are done, or held before their task is queued. -/
def AtRest (p : Pool) : Prop := ∀ thread ∈ p.threads, thread.Resting

/-- Whether the publishing of a job is in progress. -/
def Publishing (p : Pool) (id : JobId) : Prop :=
  ∃ r payload next, .submission r (.call (.publish payload) next) ∈ p.threads ∧ r.drawn = id

/-- The pending payloads for a job. -/
def payloadsOf (p : Pool) (id : JobId) : List (List UInt8) :=
  p.world.pending.filter fun payload => Task.named? payload = some id

/-- Where a job is that no program works on. -/
inductive Standing
  | publishing
  | queued
  | ended

/-- What is true of a job that stands so. -/
def Stands (p : Pool) (id : JobId) (job : Job) : Standing → Prop
  | .publishing => job.status = .created ∧ p.Publishing id ∧ p.payloadsOf id = []
  | .queued => job.status = .created ∧ ∃ payload task, p.payloadsOf id = [payload] ∧
      Task.decode payload = .ok task ∧ task.jobId = id ∧ task.jobType = job.type
  | .ended => job.status.isTerminal ∧ p.payloadsOf id = []

private theorem Stands.standing_eq {p : Pool} {id : JobId} {job : Job} {standing : Standing}
    (stands : p.Stands id job standing) :
    standing =
      if job.status.isTerminal then .ended
      else if p.payloadsOf id = [] then .publishing
      else .queued := by
  cases standing with
  | publishing =>
    obtain ⟨created, _, none⟩ := stands
    simp [created, none, JobStatus.isTerminal]
  | queued =>
    obtain ⟨created, payload, _, one, _⟩ := stands
    simp [created, one, JobStatus.isTerminal]
  | ended => exact (if_pos stands.1).symm

/-- Leave for every action that neither brings a payload from elsewhere nor keeps a job from its
end. -/
def Sheltered (_ : Pool) : Action → Prop
  | .deliver _ => False
  | .disturb (.turn switch true) => switch ∉ [.refuseProcessing, .terminalWrites, .abandon]
  | _ => True

end Pool

namespace Crew

variable {s later : Crew}

/-- The jobs that the queue or a program has in its hands. -/
def owed (s : Crew) : List Debt := s.world.owed ++ s.members.flatMap Member.debts

/-- Crews that have all jobs that are not over in their hands, each once. -/
structure Kept (s : Crew) : Prop where
  orderly : s.Orderly
  steady : s.world.Steady
  readable : s.world.Readable
  balanced : Balanced s.world.store s.owed

private theorem owed_perm (world : World) (front back : List Member) (member : Member) :
    (world.owed ++ (front ++ member :: back).flatMap Member.debts).Perm
      (member.debts ++ (world.owed ++ (front ++ back).flatMap Member.debts)) := by
  simp only [List.flatMap_append, List.flatMap_cons]
  rw [← List.append_assoc, ← List.append_assoc world.owed]
  exact List.perm_append_comm_assoc _ _ _

private theorem kept_start {start : World} (fresh : start.Fresh) (steady : start.Steady) :
    Kept ⟨start, [], []⟩ := by
  refine ⟨orderly_start fresh, steady, ?_, ?_⟩
  · simp [World.Readable, fresh.pending]
  · simpa [owed, World.owed, fresh.pending, fresh.store] using Balanced.empty

private theorem steady_disturb {w : World} {change : Disturbance} {p : Pool} (steady : w.Steady)
    (allowed : p.Sheltered (.disturb change)) : (change.apply w).Steady := by
  obtain ⟨starts, writes, abandons⟩ := steady
  cases change with
  | turn switch on =>
    cases on with
    | false => constructor <;> simp [Disturbance.apply, World.turn, starts, writes, abandons]
    | true =>
      simp only [Pool.Sheltered, List.mem_cons, List.not_mem_nil, or_false, not_or] at allowed
      obtain ⟨first, second, third⟩ := allowed
      constructor
      · simpa [Disturbance.apply, World.turn, Ne.symm first] using starts
      · simpa [Disturbance.apply, World.turn, Ne.symm second] using writes
      · simpa [Disturbance.apply, World.turn, Ne.symm third] using abandons
  | _ => exact ⟨starts, writes, abandons⟩

private theorem Kept.step {action : Action} (kept : s.Kept) (allowed : s.pool.Sheltered action)
    (step : s.Step action later) : later.Kept := by
  have orderly := kept.orderly.step step
  cases step with
  | @submit r stage fresh asking =>
    refine ⟨orderly, kept.steady, kept.readable, ?_⟩
    simpa [owed, Member.debts, asking.debt?_eq] using kept.balanced
  | drain =>
    refine ⟨orderly, kept.steady, kept.readable, ?_⟩
    simpa [owed, Member.debts, Worker.Duty.debts] using kept.balanced
  | deliver => exact allowed.elim
  | @turn front back member next event world members moves =>
    obtain ⟨_, answered⟩ := moves.perform_eq
    have calm := kept.orderly.calm
    have settings := World.perform_settings calm answered
    have owes := owed_perm s.world front back member
    rw [← members] at owes
    refine ⟨orderly, ?_, moves.readable calm kept.readable, ?_⟩
    · obtain ⟨starts, writes, abandons⟩ := kept.steady
      rw [← settings.faults] at starts writes abandons
      exact ⟨starts, writes, abandons⟩
    · refine Balanced.perm ?_ (owed_perm world front back next).symm
      refine moves.balanced calm kept.steady ?_ (kept.balanced.perm owes)
      rintro r stage rfl
      exact kept.orderly.early r stage (members ▸ mem_turn.2 (.inl rfl))
  | @disturb change =>
    obtain ⟨store, _, _, pending⟩ := change.apply_keeps s.world
    refine ⟨orderly, steady_disturb kept.steady allowed, kept.readable.congr pending, ?_⟩
    show Balanced (change.apply s.world).store ((change.apply s.world).owed ++ _)
    rw [store, World.owed_congr pending]
    exact kept.balanced

private theorem length_payloadsOf (s : Crew) (id : JobId) :
    (s.pool.payloadsOf id).length = (s.world.owed.map Debt.id).count id := by
  have names : s.world.owed.map Debt.id = s.world.pending.filterMap Task.named? := by
    rw [World.owed, List.map_filterMap]
    simp only [Debt.map_id_ofPayload?]
  rw [names, List.count_filterMap, List.countP_eq_length_filter]
  simp only [beq_eq_decide]
  rfl

/-- Where no program is at work, every job stands somewhere. -/
theorem Kept.exists_stands (kept : s.Kept) (rest : s.pool.AtRest) {id : JobId} {job : Job}
    (found : s.world.store.job? id = some job) : ∃ standing, s.pool.Stands id job standing := by
  have distinct := kept.balanced.distinct
  rw [owed, List.map_append, List.nodup_append] at distinct
  by_cases waits : id ∈ s.world.owed.map Debt.id
  · obtain ⟨debt, mem, rfl⟩ := List.mem_map.1 waits
    obtain ⟨payload, pending, told⟩ := List.mem_filterMap.1 mem
    obtain ⟨task, decoded, rfl⟩ := Debt.ofPayload?_eq_some told
    obtain ⟨held, there, type, created⟩ := kept.balanced.held _ (List.mem_append_left _ mem)
    cases found.symm.trans there
    -- Two payloads for the job would be two debts.
    have single : (s.pool.payloadsOf task.jobId).length = 1 := by
      rw [length_payloadsOf]
      exact List.count_eq_one_of_mem distinct.1 waits
    obtain ⟨only, one⟩ := List.length_eq_one_iff.1 single
    have among : payload ∈ s.pool.payloadsOf task.jobId := by
      refine List.mem_filter.2 ⟨pending, decide_eq_true ?_⟩
      rw [← Debt.map_id_ofPayload?, told]
      rfl
    rw [one, List.mem_singleton] at among
    subst among
    exact ⟨.queued, List.mem_singleton.1 created, payload, task, one, decoded, rfl, type.symm⟩
  · have none : s.pool.payloadsOf id = [] := by
      rw [← List.length_eq_zero_iff, length_payloadsOf]
      exact List.count_eq_zero.2 waits
    rcases kept.balanced.ended id job found with terminal | owes
    · exact ⟨.ended, terminal, none⟩
    · rw [owed, List.map_append, List.mem_append] at owes
      obtain ⟨debt, mem, rfl⟩ := List.mem_map.1 (owes.resolve_left waits)
      obtain ⟨held, there, _, created⟩ := kept.balanced.held debt (List.mem_append_right _ mem)
      cases found.symm.trans there
      obtain ⟨member, among, has⟩ := List.mem_flatMap.1 mem
      have resting := rest _ (List.mem_map_of_mem among)
      obtain ⟨r, task, fits, rfl, rfl⟩ := Member.resting_debts resting has
      have publishing : s.pool.Publishing r.drawn :=
        ⟨r, task.encode, Submission.afterPublish r.type r.fingerprint r.drawn,
          List.mem_map_of_mem among, rfl⟩
      exact ⟨.publishing, List.mem_singleton.1 created, publishing, none⟩

private theorem Kept.exists_job (kept : s.Kept) {payload : List UInt8} (mem : payload ∈ s.world.pending) :
    ∃ task job, Task.decode payload = .ok task ∧ s.world.store.job? task.jobId = some job ∧
      job.type = task.jobType := by
  obtain ⟨task, decoded⟩ := kept.readable payload mem
  have told : Debt.ofPayload? payload = some (.ofTask task [.created]) := by
    rw [Debt.ofPayload?, decoded]
    rfl
  have among : Debt.ofTask task [.created] ∈ s.owed :=
    List.mem_append_left _ (List.mem_filterMap.2 ⟨payload, mem, told⟩)
  obtain ⟨job, found, type, _⟩ := kept.balanced.held _ among
  exact ⟨task, job, decoded, found, type⟩

end Crew

/-- What a worker leaves of a pool in which it takes all that the queue has. -/
structure Pool.Drained (p : Pool) (after : World) : Prop where
  emptied : after.pending = []
  kept : ∀ id job, p.world.store.job? id = some job →
    ∃ later, after.store.job? id = some later ∧ job.Advances later
  /-- A job that is not over is one whose publishing is in progress. -/
  ended : ∀ id job, after.store.job? id = some job →
    job.status.isTerminal ∨ job.status = .created ∧ p.Publishing id

/-- No job is lost, and none is to be worked on twice. -/
structure Pool.Conserved (p : Pool) : Prop where
  stands : ∀ id job, p.world.store.job? id = some job → ∃! standing, p.Stands id job standing
  named : ∀ payload ∈ p.world.pending, ∃ task job, Task.decode payload = .ok task ∧
    p.world.store.job? task.jobId = some job ∧ job.type = task.jobType
  drained : p.world.Answering → p.world.faults .consume = false →
    ∃ after, p.world.run Worker.work = some (.ok (), after) ∧ p.Drained after

namespace Pool.Reachable

variable {start : World} {p : Pool}

private theorem exists_kept (fresh : start.Fresh) (steady : start.Steady)
    (reach : Reachable Sheltered start p) : ∃ s : Crew, p = s.pool ∧ s.Kept :=
  reach.induct Crew.Kept (Crew.kept_start fresh steady) Crew.Kept.step

private theorem exists_stands (fresh : start.Fresh) (steady : start.Steady)
    (reach : Reachable Sheltered start p)
    (rest : p.AtRest) {id : JobId} {job : Job} (found : p.world.store.job? id = some job) :
    ∃ standing, p.Stands id job standing := by
  obtain ⟨s, rfl, kept⟩ := reach.exists_kept fresh steady
  exact kept.exists_stands rest found

/-- Where no other program is at work, a worker brings every job to an end that is not held. -/
theorem exists_drained (fresh : start.Fresh) (steady : start.Steady)
    (reach : Reachable Sheltered start p) (rest : p.AtRest) (answering : p.world.Answering)
    (working : p.world.faults .consume = false) :
    ∃ after, p.world.run Worker.work = some (.ok (), after) ∧ p.Drained after := by
  obtain ⟨s, rfl, kept⟩ := reach.exists_kept fresh steady
  obtain ⟨after, ran, empty, stays⟩ := Worker.run_work kept.orderly.calm answering working
  have allowed : s.pool.Sheltered .drain := trivial
  have drains : Reachable Sheltered start
      ⟨s.world, s.trace, s.pool.threads ++ .worker Worker.work :: []⟩ := .act reach allowed .drain
  obtain ⟨more, reached⟩ := drains.run .worker (fun _ _ => rfl) (fun _ => trivial) Worker.work ran
  have rests : AtRest ⟨after, s.trace ++ more, s.pool.threads ++ .worker (.done (.ok ())) :: []⟩ := by
    intro thread mem
    rcases List.mem_append.1 mem with old | new
    · exact rest thread old
    · rw [List.mem_singleton.1 new]
      exact ⟨_, rfl⟩
  refine ⟨after, ran, empty, stays, fun id job found => ?_⟩
  obtain ⟨standing, stands⟩ := reached.exists_stands fresh steady rests found
  cases standing with
  | publishing =>
    obtain ⟨created, ⟨r, payload, next, mem, drawn⟩, _⟩ := stands
    refine .inr ⟨created, r, payload, next, ?_, drawn⟩
    simpa using mem
  | queued =>
    obtain ⟨_, payload, _, one, _⟩ := stands
    simp [payloadsOf, empty] at one
  | ended => exact .inl stands.1

end Pool.Reachable

/-- However the calls of submissions and workers take turns and whatever else fails, no job is lost
and none is to be worked on twice, and a worker brings every job to an end that is not held. -/
theorem work_conserved {start : World} {p : Pool} (fresh : start.Fresh) (steady : start.Steady)
    (reach : Pool.Reachable Pool.Sheltered start p) (rest : p.AtRest) : p.Conserved := by
  refine ⟨fun id job found => ?_, fun payload mem => ?_, reach.exists_drained fresh steady rest⟩
  · obtain ⟨standing, stands⟩ := reach.exists_stands fresh steady rest found
    exact ⟨standing, stands, fun other too => too.standing_eq.trans stands.standing_eq.symm⟩
  · obtain ⟨s, rfl, kept⟩ := reach.exists_kept fresh steady
    exact kept.exists_job mem

/-- A card is submitted and queued, and a worker takes it. -/
theorem work_conserved_card : ∃ (p : Pool) (after : World) (job later : Job), p.Conserved ∧
    p.world.store.job? (Pool.cardRequest 1).drawn = some job ∧ job.status = .created ∧
    p.world.run Worker.work = some (.ok (), after) ∧
    after.store.job? (Pool.cardRequest 1).drawn = some later ∧ later.status.isTerminal := by
  obtain ⟨task, fits⟩ := Request.exists_task (r := Pool.cardRequest 1) rfl
  have turns : ∀ p : Pool, p.Sheltered .turn := fun _ => trivial
  have opens : ∀ p : Pool, p.Sheltered (.submit (Pool.cardRequest 1)) := fun _ => trivial
  have begun : Pool.Reachable Pool.Sheltered (Pool.deskWorld fun _ => false) _ := .start
  obtain ⟨more, _, _, _, publishing⟩ := begun.records fits turns opens (Pool.valid_cardRequest rfl 1) rfl
    rfl ⟨rfl, rfl⟩ (by simp [Pool.requests])
  have remembering := publishing.moves [] [] turns (.queued rfl)
  have counting := remembering.moves [] [] turns .remembered
  have finished := counting.moves [] [] turns .counted
  have conserved := work_conserved (Pool.fresh_deskWorld _) ⟨rfl, rfl, rfl⟩ finished (by
    intro thread mem
    rw [List.mem_singleton.1 mem]
    exact .inl ⟨_, rfl⟩)
  have answering : ∀ task, ∃ latency outcome,
      (Pool.deskWorld fun _ => false).executors.execute task = .answers latency outcome := by
    intro task
    cases task <;> exact ⟨_, _, rfl⟩
  obtain ⟨after, ran, drained⟩ := conserved.drained answering rfl
  obtain ⟨later, stays, _⟩ := drained.kept (Pool.cardRequest 1).drawn _ rfl
  refine ⟨_, after, _, later, conserved, rfl, rfl, ran, stays, ?_⟩
  refine (drained.ended _ _ stays).resolve_right ?_
  rintro ⟨_, r, payload, next, mem, _⟩
  cases List.mem_singleton.1 mem

end Memory

end Vetting
