import Vetting.Proofs.Abandonment
import Vetting.Proofs.Idempotency
import Vetting.Proofs.Ledger

/-!
Submissions of work whose job did not reach the queue. Such a job is abandoned, so that the work can be
submitted again; but if it cannot be abandoned either, it is stranded (`Pool.Stranded`): it holds the
fingerprint of its work, and nobody will ever queue it. Where no program is at work, a submission that
was answered with a job names one that is over, was queued or is stranded, and the work of a stranded job
is answered with it again and again (`answered_unless_stranded`).

What carries the first half is that a worker has nothing in hand but jobs that were queued
(`Crew.Supplied`), so a job that was not queued stays as it was recorded.
-/
namespace Vetting

open Memory

namespace Memory

/-- The job that a call failed to abandon. -/
def Event.unabandoned? : Event → Option JobId
  | ⟨_, .abandon id _, .error _⟩ => some id
  | _ => none

/-- The jobs that could not be abandoned. -/
def unabandonedIn (trace : List Event) : List JobId := trace.filterMap Event.unabandoned?

@[simp] theorem unabandonedIn_append (front back : List Event) :
    unabandonedIn (front ++ back) = unabandonedIn front ++ unabandonedIn back := List.filterMap_append

@[simp] theorem unabandonedIn_singleton (event : Event) :
    unabandonedIn [event] = event.unabandoned?.toList := by
  cases told : event.unabandoned? <;> simp [unabandonedIn, told]

private theorem Event.unabandoned?_ofWorker {event : Event} (ofWorker : event.call.OfWorker) :
    event.unabandoned? = none := by
  obtain ⟨w, c, reply⟩ := event
  cases c <;> first | exact ofWorker.elim | rfl

namespace Pool

/-- Whether a job is only recorded, was not queued, and could not be abandoned. -/
structure Stranded (p : Pool) (id : JobId) : Prop where
  recorded : id ∈ p.recorded
  unstarted : p.world.store.Unstarted id
  unqueued : id ∉ queuedIds p.trace
  unabandoned : id ∈ unabandonedIn p.trace

/-- Calls that neither queue nor change a job leave it stranded. -/
theorem Stranded.quiet {p later : Pool} {id : JobId} {more : List Event} (stranded : p.Stranded id)
    (store : later.world.store = p.world.store) (trace : later.trace = p.trace ++ more)
    (plain : ∀ event ∈ more, event.Plain) : later.Stranded id where
  recorded := by
    show id ∈ recordedIn _
    rw [trace, recordedIn_append]
    exact List.mem_append_left _ stranded.recorded
  unstarted := store ▸ stranded.unstarted
  unqueued := by
    simpa [trace, queuedIds, queuedIn_of_plain plain] using stranded.unqueued
  unabandoned := by
    rw [trace, unabandonedIn_append]
    exact List.mem_append_left _ stranded.unabandoned

/-- Leave for every action that brings no payload from elsewhere. -/
def Supplied (_ : Pool) : Action → Prop
  | .deliver _ => False
  | _ => True

/-- A pool with no submission in progress. -/
def Idle (p : Pool) : Prop :=
  ∀ r rest, .submission r rest ∈ p.threads → ∃ result, rest = .done result

end Pool

end Memory

namespace Worker

variable {w after : World} {event : Event}

namespace Handling

variable {d : Delivery} {stage later : Handling d}

private theorem Moves.debt?_id (moves : Moves w stage event later after) {debt : Debt}
    (owes : debt ∈ later.debt?) : ∃ earlier ∈ stage.debt?, earlier.id = debt.id := by
  cases moves with
  | started | unstarted | executed =>
    cases owes
    exact ⟨_, rfl, rfl⟩
  | @tallied task outcome =>
    cases outcome <;>
    · cases owes
      exact ⟨_, rfl, rfl⟩
  | _ => cases owes

end Handling

namespace Duty

variable {duty later : Duty}

private theorem Moves.debts_id (moves : Moves w duty event later after) {debt : Debt}
    (owes : debt ∈ later.debts) : ∃ earlier ∈ duty.debts ++ w.owed, earlier.id = debt.id := by
  cases moves with
  | barred => cases owes
  | received made =>
    rw [debts_resume, (owedIn_consume made).1] at owes
    exact ⟨debt, owes, rfl⟩
  | @handled _ stage _ _ _ _ rest moves =>
    rw [debts_proceed] at owes
    rcases List.mem_append.1 owes with here | left
    · obtain ⟨earlier, owed, same⟩ := moves.debt?_id (Option.mem_toList.1 here)
      exact ⟨earlier, by simp [debts, Option.mem_toList.2 owed], same⟩
    · exact ⟨debt, by simp [debts, left], rfl⟩
  | waited =>
    rw [debts_resume] at owes
    exact ⟨debt, List.mem_append_left _ owes, rfl⟩

private theorem Moves.owed_subset (calm : w.interruptions = []) (moves : Moves w duty event later after) :
    after.owed ⊆ w.owed := by
  cases moves with
  | barred made =>
    unfold World.consume at made
    split at made <;> cases made
    exact List.Subset.refl _
  | received made =>
    rw [World.owed, (owedIn_consume made).2.1]
    exact List.nil_subset _
  | handled moves =>
    rw [World.owed_congr (moves.pending_eq calm)]
    exact List.Subset.refl _
  | waited => exact List.Subset.refl _

private theorem Moves.job?_other (calm : w.interruptions = []) (moves : Moves w duty event later after)
    {id : JobId} (other : ∀ debt ∈ duty.debts, debt.id ≠ id) :
    after.store.job? id = w.store.job? id := by
  cases moves with
  | barred made =>
    unfold World.consume at made
    split at made <;> cases made
    rfl
  | received made => rw [(owedIn_consume made).2.2]
  | handled moves =>
    refine moves.job?_other (fun debt owes => other debt ?_) (by simp [calm])
    simp [debts, Option.mem_toList.2 owes]
  | waited => rfl

end Duty

end Worker

namespace Submission

variable {r : Request} {w after : World} {event : Event} {stage later : Stage r}

/-- A submission changes no job but its own. -/
theorem Moves.job?_other (moves : Moves w stage event later after) {id : JobId} (other : id ≠ r.drawn) :
    after.store.job? id = w.store.job? id := by
  cases moves with
  | recorded => exact JobTable.job?_recorded.trans (if_neg other)
  | withdrawn => exact JobTable.job?_abandon_other _ _ other
  | remembered => rw [(w.noted_keeps _ _).1]
  | renewed => rw [(w.noted_keeps _ _).1]
  | _ => rfl

private theorem Moves.recorded_eq (moves : Moves w stage event later after) {id : JobId}
    (recorded : event.recorded? = some id) : id = r.drawn := by
  cases moves with
  | recorded =>
    cases recorded
    rfl
  | _ => cases recorded

private theorem Moves.queued_eq (moves : Moves w stage event later after) {payload : List UInt8}
    (queued : event.queued? = some payload) : Task.named? payload = some r.drawn := by
  cases moves with
  | @queued task fits =>
    cases queued
    rw [Task.named?_encode, Request.jobId_task fits]
  | _ => cases queued

/-- The job of a submission that does not queue it: it is over, or only recorded, and then its
submission still has to do with it or could not abandon it. -/
theorem Moves.fate (moves : Moves w stage event later after) (silent : event.queued? = none)
    (unabandoned : Prop) (before : event.recorded? = none → w.store.Over r.drawn ∨
      w.store.Unstarted r.drawn ∧ (stage.debt?.isSome ∨ unabandoned)) :
    after.store.Over r.drawn ∨ after.store.Unstarted r.drawn ∧
      (later.debt?.isSome ∨ unabandoned ∨ event.unabandoned? = some r.drawn) := by
  cases moves with
  | asked _ asking _ =>
    rw [asking.debt?_eq]
    simpa [Stage.debt?, Event.unabandoned?] using before rfl
  | recorded =>
    exact .inr ⟨⟨_, JobTable.job?_recorded.trans (if_pos rfl), rfl⟩, .inl rfl⟩
  | queued => cases silent
  | unqueued => exact (before rfl).imp_right fun unstarted => ⟨unstarted.1, .inl rfl⟩
  | withdrawn =>
    -- A job that is over already is left as it is.
    left
    rcases before rfl with ⟨job, found, terminal⟩ | ⟨⟨job, found, created⟩, _⟩
    · obtain ⟨later, stays, advances⟩ := JobTable.advances_abandon w.now unqueuedReason found
      exact ⟨job, by rw [stays, advances.frozen terminal], terminal⟩
    · exact ⟨_, JobTable.job?_abandon_self w.now unqueuedReason found created, rfl⟩
  | stuck => exact (before rfl).imp_right fun unstarted => ⟨unstarted.1, .inr (.inr rfl)⟩
  | remembered | renewed =>
    rw [(w.noted_keeps _ _).1]
    simpa [Stage.debt?, Event.unabandoned?] using before rfl
  | _ => simpa [Stage.debt?, Event.unabandoned?, World.counted] using before rfl

end Submission

namespace Memory

namespace Crew

variable {s later : Crew}

/-- Whether a submission is about to queue a job or to abandon it. -/
def Held (s : Crew) (id : JobId) : Prop :=
  ∃ r stage, .submission r stage ∈ s.members ∧ r.drawn = id ∧ stage.debt?.isSome

/-- Crews whose workers have nothing in hand but jobs that were queued, and whose other jobs are over or
only recorded. -/
structure Supplied (s : Crew) : Prop where
  consistent : s.Consistent
  pending : ∀ debt ∈ s.world.owed, debt.id ∈ queuedIds s.trace
  hands : ∀ duty, .worker duty ∈ s.members → ∀ debt ∈ duty.debts, debt.id ∈ queuedIds s.trace
  alone : ∀ d stage, .handler d stage ∉ s.members
  unqueued : ∀ id ∈ recordedIn s.trace, id ∉ queuedIds s.trace →
    s.world.store.Over id ∨ s.world.store.Unstarted id ∧ (s.Held id ∨ id ∈ unabandonedIn s.trace)

private theorem supplied_start {start : World} (fresh : start.Fresh) : Supplied ⟨start, [], []⟩ := by
  refine ⟨consistent_start fresh, ?_, by simp, by simp, by simp [recordedIn]⟩
  simp [World.owed, fresh.pending]

section Turn

variable {front back : List Member} {r : Request} {stage next : Submission.Stage r} {event : Event}
  {world : World}

/-- What is queued after a call. -/
private theorem queuedIds_moved (s : Crew) (event : Event) : queuedIds (s.trace ++ [event]) =
    queuedIds s.trace ++ event.queued?.toList.filterMap Task.named? := by
  simp

private theorem mem_queuedIds_moved {id : JobId} (mem : id ∈ queuedIds s.trace) (event : Event) :
    id ∈ queuedIds (s.trace ++ [event]) := by
  rw [queuedIds_moved]
  exact List.mem_append_left _ mem

/-- The fate of the job of the submission that makes the call is told by the call. -/
private theorem Supplied.own (supplied : s.Supplied)
    (members : s.members = front ++ .submission r stage :: back)
    (moves : Submission.Moves s.world stage event next world)
    (recorded : r.drawn ∈ recordedIn (s.trace ++ [event]))
    (unqueued : r.drawn ∉ queuedIds (s.trace ++ [event])) :
    world.store.Over r.drawn ∨ world.store.Unstarted r.drawn ∧
      (Held ⟨world, s.trace ++ [event], front ++ .submission r next :: back⟩ r.drawn ∨
        r.drawn ∈ unabandonedIn (s.trace ++ [event])) := by
  have distinct := supplied.consistent.orderly.distinct
  rw [members] at distinct
  have silent : event.queued? = none := by
    refine Option.eq_none_iff_forall_not_mem.2 fun payload queued => unqueued ?_
    rw [queuedIds_moved]
    exact List.mem_append_right _ (List.mem_filterMap.2
      ⟨payload, Option.mem_toList.2 queued, moves.queued_eq queued⟩)
  have before : event.recorded? = none → s.world.store.Over r.drawn ∨
      s.world.store.Unstarted r.drawn ∧ (stage.debt?.isSome ∨ r.drawn ∈ unabandonedIn s.trace) := by
    intro unrecorded
    have known : r.drawn ∈ recordedIn s.trace := by simpa [unrecorded] using recorded
    refine (supplied.unqueued _ known (mt (mem_queuedIds_moved · event) unqueued)).imp_right
      (And.imp_right fun left => left.imp_left ?_)
    rintro ⟨other, place, mem, drawn, owes⟩
    rw [members] at mem
    rcases mem_turn.1 mem with same | elsewhere
    · cases same
      exact owes
    · exact absurd drawn (drawn_ne distinct elsewhere)
  refine (moves.fate silent _ before).imp_right (And.imp_right fun left => ?_)
  rw [unabandonedIn_append, unabandonedIn_singleton, List.mem_append, Option.mem_toList]
  exact left.imp_left fun owes => ⟨r, next, mem_turn.2 (.inl rfl), rfl, owes⟩

/-- Any other job keeps its fate, with the submission that held it. -/
private theorem Supplied.other (supplied : s.Supplied)
    (members : s.members = front ++ .submission r stage :: back)
    (moves : Submission.Moves s.world stage event next world) {id : JobId} (other : id ≠ r.drawn)
    (recorded : id ∈ recordedIn (s.trace ++ [event]))
    (unqueued : id ∉ queuedIds (s.trace ++ [event])) :
    world.store.Over id ∨ world.store.Unstarted id ∧
      (Held ⟨world, s.trace ++ [event], front ++ .submission r next :: back⟩ id ∨
        id ∈ unabandonedIn (s.trace ++ [event])) := by
  have known : id ∈ recordedIn s.trace := by
    rw [recordedIn_append, recordedIn_singleton, List.mem_append, Option.mem_toList] at recorded
    exact recorded.resolve_right fun made => other (moves.recorded_eq made)
  have same := moves.job?_other other
  simp only [JobTable.Over, JobTable.Unstarted, same, unabandonedIn_append, List.mem_append]
  refine (supplied.unqueued id known (mt (mem_queuedIds_moved · event) unqueued)).imp_right
    (And.imp_right fun left => left.imp ?_ .inl)
  rintro ⟨holder, place, mem, rfl, owes⟩
  rw [members] at mem
  refine ⟨holder, place, mem_turn.2 (.inr ((mem_turn.1 mem).resolve_left ?_)), rfl, owes⟩
  rintro ⟨⟩
  exact other rfl

/-- One call of a submission. -/
theorem Supplied.turn (supplied : s.Supplied)
    (members : s.members = front ++ .submission r stage :: back)
    (moves : Submission.Moves s.world stage event next world)
    (consistent : Consistent ⟨world, s.trace ++ [event], front ++ .submission r next :: back⟩) :
    Supplied ⟨world, s.trace ++ [event], front ++ .submission r next :: back⟩ := by
  have others : ∀ member, (∀ at', member ≠ .submission r at') → member ∈ front ++ .submission r next :: back →
      member ∈ s.members := by
    intro member other mem
    rw [members]
    exact mem_turn.2 (.inr ((mem_turn.1 mem).resolve_left (other next)))
  refine ⟨consistent, ?_, ?_, ?_, ?_⟩
  · intro debt owes
    rw [World.owed, moves.pending_eq, List.filterMap_append, ← World.owed] at owes
    rcases List.mem_append.1 owes with old | new
    · exact mem_queuedIds_moved (supplied.pending debt old) event
    · obtain ⟨payload, queued, told⟩ := List.mem_filterMap.1 new
      rw [queuedIds_moved]
      refine List.mem_append_right _ (List.mem_filterMap.2 ⟨payload, queued, ?_⟩)
      rw [← Debt.map_id_ofPayload?, told]
      rfl
  · intro duty mem debt owes
    exact mem_queuedIds_moved (supplied.hands duty (others _ (by simp) mem) debt owes) event
  · exact fun d stage mem => supplied.alone d stage (others _ (by simp) mem)
  · intro id recorded unqueued
    by_cases mine : id = r.drawn
    · subst mine
      exact supplied.own members moves recorded unqueued
    · exact supplied.other members moves mine recorded unqueued

end Turn

/-- An action that is no call of a submission. -/
theorem Supplied.aside (supplied : s.Supplied) (consistent : later.Consistent)
    (recorded : recordedIn later.trace = recordedIn s.trace)
    (queued : queuedIds later.trace = queuedIds s.trace)
    (unabandoned : unabandonedIn later.trace = unabandonedIn s.trace)
    (pending : later.world.owed ⊆ s.world.owed)
    (hands : ∀ duty, .worker duty ∈ later.members → ∀ debt ∈ duty.debts, debt.id ∈ queuedIds s.trace)
    (alone : ∀ d stage, .handler d stage ∉ later.members)
    (jobs : ∀ id, id ∉ queuedIds s.trace → later.world.store.job? id = s.world.store.job? id)
    (members : ∀ r stage, .submission r stage ∈ s.members → .submission r stage ∈ later.members) :
    later.Supplied := by
  refine ⟨consistent, ?_, ?_, alone, ?_⟩
  · rw [queued]
    exact fun debt owes => supplied.pending debt (pending owes)
  · rw [queued]
    exact hands
  · rw [recorded, queued, unabandoned]
    intro id known unqueued
    simp only [JobTable.Over, JobTable.Unstarted, jobs id unqueued]
    refine (supplied.unqueued id known unqueued).imp_right fun ⟨unstarted, left⟩ =>
      ⟨unstarted, left.imp_left ?_⟩
    rintro ⟨r, stage, mem, drawn, owes⟩
    exact ⟨r, stage, members r stage mem, drawn, owes⟩

private theorem Supplied.step {action : Action} (supplied : s.Supplied) (allowed : s.pool.Supplied action)
    (step : s.Step action later) : later.Supplied := by
  have consistent := supplied.consistent.step step
  have calm := supplied.consistent.orderly.calm
  cases step with
  | submit =>
    refine supplied.aside consistent rfl rfl rfl (List.Subset.refl _) ?_ ?_ (fun _ _ => rfl) ?_
    · simpa using supplied.hands
    · simpa using supplied.alone
    · simp +contextual
  | drain =>
    refine supplied.aside consistent rfl rfl rfl (List.Subset.refl _) ?_ ?_ (fun _ _ => rfl) ?_
    · intro duty mem debt owes
      rcases List.mem_append.1 mem with old | new
      · exact supplied.hands duty old debt owes
      · cases List.mem_singleton.1 new
        cases owes
    · simpa using supplied.alone
    · simp +contextual
  | deliver => exact allowed.elim
  | @turn front back member next event world members moves =>
    cases moves with
    | submission moves => exact supplied.turn members moves consistent
    | @worker duty left event after moves =>
      have plain := Event.plain_ofWorker moves.ofWorker
      have own := supplied.hands duty (members ▸ mem_turn.2 (.inl rfl))
      refine supplied.aside consistent plain.recordedIn (queuedIds_plain plain) ?_
        (moves.owed_subset calm) ?_ ?_ (fun id unqueued => moves.job?_other calm ?_) ?_
      · simp [Event.unabandoned?_ofWorker moves.ofWorker]
      · intro other mem debt owes
        rcases mem_turn.1 mem with same | elsewhere
        · cases same
          obtain ⟨earlier, owed, same⟩ := moves.debts_id owes
          rw [← same]
          exact (List.mem_append.1 owed).elim (own earlier) (supplied.pending earlier)
        · exact supplied.hands other (members ▸ mem_turn.2 (.inr elsewhere)) debt owes
      · intro d stage mem
        exact supplied.alone d stage (members ▸ mem_turn.2 (.inr ((mem_turn.1 mem).resolve_left nofun)))
      · rintro debt owes rfl
        exact unqueued (own debt owes)
      · intro r stage mem
        rw [members] at mem
        exact mem_turn.2 (.inr ((mem_turn.1 mem).resolve_left nofun))
    | handler moves => exact absurd (members ▸ mem_turn.2 (.inl rfl)) (supplied.alone _ _)
  | @disturb change =>
    obtain ⟨store, _, _, pending⟩ := change.apply_keeps s.world
    refine supplied.aside consistent rfl rfl rfl ?_ supplied.hands supplied.alone ?_ fun _ _ mem => mem
    · rw [World.owed_congr pending]
      exact List.Subset.refl _
    · intro id _
      rw [store]

/-- The work of a stranded job is answered with it, and it stays stranded. -/
theorem Consistent.exists_retry {start : World} (consistent : s.Consistent) (settled : s.Settled)
    (reach : Pool.Reachable Pool.Supplied start s.pool) {owner r : Request} {images : List Image}
    (among : owner ∈ s.pool.requests) (stranded : s.pool.Stranded owner.drawn) (same : r.SameWork owner)
    (fresh : ∀ other ∈ s.pool.requests, r.drawn ≠ other.drawn) (valid : r.Valid s.world images)
    (records : s.world.Records) (unknown : s.world.cached r.fingerprint = none) :
    ∃ later, Pool.Reachable Pool.Supplied start later ∧
      later.threads = s.pool.threads ++ [.submission r (.done (.ok owner.drawn))] ∧
      later.world = s.world.counted (.deduplicated r.type) ∧ later.Stranded owner.drawn := by
  obtain ⟨job, found, created⟩ := stranded.unstarted
  -- An abandoned job is no longer created, and only an abandoned one gives up its fingerprint.
  have kept : owner.drawn ∉ abandonedIn s.trace := by
    intro abandoned
    obtain ⟨other, there, begun⟩ := settled.begun _ abandoned
    cases found.symm.trans there
    exact begun created
  rw [requests_pool] at among
  have held := consistent.holds owner among stranded.recorded kept
  rw [← show r.fingerprint = owner.fingerprint from Request.AsksFor.fingerprint same] at held
  have turns : ∀ p : Pool, p.Supplied .turn := fun _ => trivial
  obtain ⟨more, plain, inspecting⟩ := Pool.Reachable.recognises turns (fun _ => trivial) valid unknown held
    records reach fresh
  obtain ⟨event, last, answered⟩ := inspecting.answers s.pool.threads [] turns (by
    intro other told
    have there := JobTable.job?_of_find (World.find_of_found consistent.orderly.rows told)
    cases found.symm.trans there
    exact created)
  refine ⟨_, answered, rfl, rfl, stranded.quiet rfl (List.append_assoc _ _ _) ?_⟩
  intro other mem
  rcases List.mem_append.1 mem with old | new
  · exact plain other old
  · rw [List.mem_singleton.1 new]
    exact last

end Crew

private theorem Pool.Reachable.exists_supplied {start : World} {p : Pool} (fresh : start.Fresh)
    (reach : Reachable Supplied start p) : ∃ s : Crew, p = s.pool ∧ s.Supplied ∧ s.Settled :=
  reach.induct (fun s => s.Supplied ∧ s.Settled) ⟨Crew.supplied_start fresh, Crew.settled_start fresh⟩
    fun holds allowed step => ⟨holds.1.step allowed step, holds.2.step step⟩

/-- Whatever else is submitted and whatever fails, where no submission is in progress each one that was
answered with a job names one that is over, was queued or is stranded; and the work of a stranded job is
answered with it when it is submitted again. -/
theorem answered_unless_stranded {start : World} {p : Pool} (fresh : start.Fresh)
    (reach : Pool.Reachable Pool.Supplied start p) (idle : p.Idle) :
    (∀ r id, .submission r (.done (.ok id)) ∈ p.threads →
      p.world.store.Over id ∨ id ∈ queuedIds p.trace ∨ p.Stranded id) ∧
    ∀ owner ∈ p.requests, p.Stranded owner.drawn → ∀ (r : Request) (images : List Image),
      r.SameWork owner → (∀ other ∈ p.requests, r.drawn ≠ other.drawn) → r.Valid p.world images →
      p.world.Records → p.world.cached r.fingerprint = none →
      ∃ later, Pool.Reachable Pool.Supplied start later ∧
        later.threads = p.threads ++ [.submission r (.done (.ok owner.drawn))] ∧
        later.world = p.world.counted (.deduplicated r.type) ∧ later.Stranded owner.drawn := by
  obtain ⟨s, rfl, supplied, settled⟩ := reach.exists_supplied fresh
  constructor
  · intro r id mem
    obtain ⟨owner, _, _, rfl, known⟩ := supplied.consistent.staged r _ (Crew.mem_of_done mem)
    by_cases queued : owner.drawn ∈ queuedIds s.trace
    · exact .inr (.inl queued)
    rcases supplied.unqueued _ known queued with ended | ⟨unstarted, held | unabandoned⟩
    · exact .inl ended
    · obtain ⟨other, stage, among, _, owes⟩ := held
      obtain ⟨result, done⟩ := idle other _ (List.mem_map_of_mem among)
      rw [Submission.eq_finished done] at owes
      cases owes
    · exact .inr (.inr ⟨known, unstarted, queued, unabandoned⟩)
  · intro owner among stranded r images same unused valid records unknown
    exact supplied.consistent.exists_retry settled reach among stranded same unused valid records unknown

/-- A card is submitted while jobs can be neither queued nor abandoned; then all is well again. -/
theorem Pool.exists_stranded : ∃ p, Reachable Supplied
      (deskWorld fun s => s = .publish ∨ s = .abandon) p ∧ p.Idle ∧ p.requests = [cardRequest 1] ∧
      p.Stranded (cardRequest 1).drawn ∧ (cardRequest 2).Valid p.world [card] ∧ p.world.Records ∧
      p.world.cached (cardRequest 2).fingerprint = none ∧ p.world.faults .publish = false := by
  obtain ⟨task, fits⟩ := Request.exists_task (r := cardRequest 1) rfl
  have turns : ∀ p : Pool, p.Supplied .turn := fun _ => trivial
  have changes : ∀ (p : Pool) change, p.Supplied (.disturb change) := fun _ _ => trivial
  have begun : Reachable Supplied (deskWorld fun s => s = .publish ∨ s = .abandon) _ := .start
  obtain ⟨more, recorded, _, queued, publishing⟩ := begun.records fits turns (fun _ => trivial)
    (valid_cardRequest rfl 1) rfl rfl ⟨rfl, rfl⟩ (by simp [requests])
  have withdrawing := publishing.moves [] [] turns (.unqueued rfl)
  have failed := withdrawing.moves [] [] turns (.stuck rfl)
  have publishes := failed.act (changes _ (.turn .publish false)) .disturb
  have abandons := publishes.act (changes _ (.turn .abandon false)) .disturb
  refine ⟨_, abandons, ?_, rfl, ⟨?_, ⟨_, rfl, rfl⟩, ?_, ?_⟩,
    ⟨rfl, rfl, .cons List.lookup_cons_self .nil, rfl⟩, ⟨rfl, rfl⟩, rfl, rfl⟩
  · intro r rest mem
    cases List.mem_singleton.1 mem
    exact ⟨_, rfl⟩
  · show (cardRequest 1).drawn ∈ recordedIn (more ++ [_] ++ [_])
    rw [recordedIn_append, recordedIn_append, recorded]
    simp
  · show (cardRequest 1).drawn ∉ queuedIds (more ++ [_] ++ [_])
    rw [queuedIds, queuedIn_append, queuedIn_append, queued]
    simp [Event.queued?]
  · show (cardRequest 1).drawn ∈ unabandonedIn (more ++ [_] ++ [_])
    rw [unabandonedIn_append, unabandonedIn_singleton]
    exact List.mem_append_right _ List.mem_cons_self

theorem answered_unless_stranded_card : ∃ p later : Pool, p.Stranded (Pool.cardRequest 1).drawn ∧
    later.threads = p.threads ++
      [.submission (Pool.cardRequest 2) (.done (.ok (Pool.cardRequest 1).drawn))] ∧
    later.Stranded (Pool.cardRequest 1).drawn := by
  obtain ⟨p, reach, idle, requests, stranded, valid, records, unknown, _⟩ := Pool.exists_stranded
  obtain ⟨_, retried⟩ := answered_unless_stranded (Pool.fresh_deskWorld _) reach idle
  obtain ⟨later, _, threads, _, still⟩ := retried (Pool.cardRequest 1) (by simp [requests]) stranded
    (Pool.cardRequest 2) [Pool.card] ⟨rfl, rfl, .refl _⟩ (by rw [requests]; decide) valid records unknown
  exact ⟨p, later, stranded, threads, still⟩

/-- A submission that is answered, while the queue works and no other is in progress, with a job that is
only recorded and was never queued. -/
theorem answered_stranded : ∃ (start : World) (p : Pool) (r : Request) (id : JobId), start.Fresh ∧
    Pool.Reachable Pool.Supplied start p ∧ p.Idle ∧ p.world.faults .publish = false ∧
    .submission r (.done (.ok id)) ∈ p.threads ∧ ¬ p.world.store.Over id ∧ id ∉ queuedIds p.trace := by
  obtain ⟨p, reach, idle, requests, stranded, valid, records, unknown, working⟩ := Pool.exists_stranded
  obtain ⟨s, rfl, supplied, settled⟩ := reach.exists_supplied (Pool.fresh_deskWorld _)
  obtain ⟨later, reached, threads, world, still⟩ := supplied.consistent.exists_retry (r := Pool.cardRequest 2)
    settled reach (by simp [requests]) stranded ⟨rfl, rfl, .refl _⟩ (by rw [requests]; decide) valid records unknown
  refine ⟨_, later, Pool.cardRequest 2, _, Pool.fresh_deskWorld _, reached, ?_, ?_, ?_, ?_, still.unqueued⟩
  · intro r rest mem
    rw [threads] at mem
    rcases List.mem_append.1 mem with old | new
    · exact idle r rest old
    · cases List.mem_singleton.1 new
      exact ⟨_, rfl⟩
  · rw [world]
    exact working
  · simp [threads]
  · rintro ⟨job, found, terminal⟩
    obtain ⟨other, there, created⟩ := still.unstarted
    cases found.symm.trans there
    rw [created] at terminal
    cases terminal

end Memory

end Vetting
