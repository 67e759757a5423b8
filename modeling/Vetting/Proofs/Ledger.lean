import Vetting.Proofs.Pool
import Vetting.Proofs.Task

/-!
The jobs that somebody has yet to bring to an end (`Debt`). Such a job waits for the queue, waits in the
queue or is in the hands of a worker, and all others are over (`Balanced`). A call hands a job on or
brings it to its end, and loses none (`Member.Moves.balanced`).
-/
namespace Vetting

open Memory

/-- A job that somebody is to bring to an end, and the statuses that it can have until then. -/
structure Debt where
  id : JobId
  type : JobType
  statuses : List JobStatus

namespace Debt

def ofTask (task : Task) (statuses : List JobStatus) : Debt := ⟨task.jobId, task.jobType, statuses⟩

/-- What a payload stands for: its job waits to be started. -/
def ofPayload? (payload : List UInt8) : Option Debt :=
  (Task.decode payload).toOption.map (ofTask · [.created])

@[simp] theorem ofPayload?_encode (task : Task) :
    ofPayload? task.encode = some (ofTask task [.created]) := by
  rw [ofPayload?, Task.decode_encode]
  rfl

theorem ofPayload?_eq_some {payload : List UInt8} {debt : Debt} (told : ofPayload? payload = some debt) :
    ∃ task, Task.decode payload = .ok task ∧ debt = ofTask task [.created] := by
  rw [ofPayload?, Option.map_eq_some_iff] at told
  obtain ⟨task, read, rfl⟩ := told
  refine ⟨task, ?_, rfl⟩
  cases decoded : Task.decode payload with
  | error e =>
    rw [decoded] at read
    cases read
  | ok other =>
    rw [decoded] at read
    cases read
    rfl

@[simp] theorem map_id_ofPayload? (payload : List UInt8) :
    (ofPayload? payload).map Debt.id = Task.named? payload := by
  rw [ofPayload?, Task.named?, Option.map_map]
  rfl

/-- Whether the job of a debt is there as told. -/
def Held (t : JobTable) (debt : Debt) : Prop :=
  ∃ job, t.job? debt.id = some job ∧ job.type = debt.type ∧ job.status ∈ debt.statuses

end Debt

namespace Memory

/-- A store in which all jobs are over but for the debts, each of which is owed once. -/
structure Balanced (t : JobTable) (debts : List Debt) : Prop where
  distinct : (debts.map Debt.id).Nodup
  held : ∀ debt ∈ debts, debt.Held t
  ended : ∀ id job, t.job? id = some job → job.status.isTerminal ∨ id ∈ debts.map Debt.id

namespace Balanced

variable {t later : JobTable} {debt next : Debt} {debts others : List Debt}

theorem empty : Balanced .empty [] :=
  ⟨List.nodup_nil, by simp, by simp [JobTable.empty, JobTable.job?]⟩

theorem perm (balanced : Balanced t debts) (same : debts.Perm others) : Balanced t others := by
  have ids := same.map Debt.id
  refine ⟨ids.nodup_iff.1 balanced.distinct, ?_, ?_⟩
  · exact fun debt mem => balanced.held debt (same.mem_iff.2 mem)
  · exact fun id job found => (balanced.ended id job found).imp_right ids.mem_iff.1

/-- A change of one job leaves the debts of others. -/
theorem held_elsewhere (balanced : Balanced t (debt :: debts))
    (elsewhere : ∀ id ≠ debt.id, later.job? id = t.job? id) : ∀ other ∈ debts, other.Held later := by
  intro other mem
  have different : other.id ≠ debt.id := by
    intro same
    exact (List.nodup_cons.1 balanced.distinct).1 (same ▸ List.mem_map_of_mem mem)
  rw [Debt.Held, elsewhere _ different]
  exact balanced.held other (List.mem_cons_of_mem _ mem)

private theorem incur (balanced : Balanced t debts) (absent : t.job? debt.id = none)
    (elsewhere : ∀ id ≠ debt.id, later.job? id = t.job? id) (held : debt.Held later) :
    Balanced later (debt :: debts) := by
  have new : ∀ other ∈ debts, other.id ≠ debt.id := by
    intro other mem same
    obtain ⟨job, found, _⟩ := balanced.held other mem
    rw [same, absent] at found
    cases found
  refine ⟨List.nodup_cons.2 ⟨?_, balanced.distinct⟩, ?_, ?_⟩
  · intro mem
    obtain ⟨other, among, same⟩ := List.mem_map.1 mem
    exact new other among same
  · refine List.forall_mem_cons.2 ⟨held, fun other mem => ?_⟩
    rw [Debt.Held, elsewhere _ (new other mem)]
    exact balanced.held other mem
  · intro id job found
    by_cases same : id = debt.id
    · exact .inr (same ▸ List.mem_cons_self)
    · rw [elsewhere id same] at found
      exact (balanced.ended id job found).imp_right (List.mem_cons_of_mem _)

private theorem hand (balanced : Balanced t (debt :: debts)) (same : next.id = debt.id)
    (elsewhere : ∀ id ≠ debt.id, later.job? id = t.job? id) (held : next.Held later) :
    Balanced later (next :: debts) := by
  have ids : (next :: debts).map Debt.id = (debt :: debts).map Debt.id := by
    rw [List.map_cons, List.map_cons, same]
  refine ⟨ids ▸ balanced.distinct, ?_, fun id job found => ?_⟩
  · exact List.forall_mem_cons.2 ⟨held, balanced.held_elsewhere elsewhere⟩
  · rw [ids]
    by_cases here : id = debt.id
    · exact .inr (here ▸ List.mem_cons_self)
    · rw [elsewhere id here] at found
      exact balanced.ended id job found

/-- A debt is paid when its job is over. -/
theorem pay (balanced : Balanced t (debt :: debts))
    (elsewhere : ∀ id ≠ debt.id, later.job? id = t.job? id)
    (ended : ∀ job, later.job? debt.id = some job → job.status.isTerminal) : Balanced later debts := by
  refine ⟨(List.nodup_cons.1 balanced.distinct).2, balanced.held_elsewhere elsewhere, ?_⟩
  intro id job found
  by_cases here : id = debt.id
  · subst here
    exact .inl (ended job found)
  · rw [elsewhere id here] at found
    refine (balanced.ended id job found).imp_right fun mem => ?_
    exact (List.mem_cons.1 mem).resolve_left here

end Balanced

/-- A world in which jobs are not kept from their end: they can start, and what comes of them can be
recorded. -/
structure World.Steady (w : World) : Prop where
  starts : w.faults .refuseProcessing = false
  writes : w.faults .terminalWrites = false
  abandons : w.faults .abandon = false

/-- A world whose queue holds nothing but tasks. -/
def World.Readable (w : World) : Prop := ∀ payload ∈ w.pending, ∃ task, Task.decode payload = .ok task

theorem World.Readable.congr {w after : World} (readable : w.Readable) (same : after.pending = w.pending) :
    after.Readable := by
  rw [Readable, same]
  exact readable

/-- The debts of the queue. -/
def World.owed (w : World) : List Debt := w.pending.filterMap Debt.ofPayload?

theorem World.owed_congr {w after : World} (same : after.pending = w.pending) : after.owed = w.owed := by
  rw [owed, same, owed]

end Memory

namespace Submission

variable {r : Request} {w after : World} {event : Event} {stage later : Stage r} {others : List Debt}

/-- The job of a submission that is recorded and not yet queued. -/
def Stage.debt? : Stage r → Option Debt
  | .publishing _ _ | .withdrawing _ => some ⟨r.drawn, r.type, [.created]⟩
  | _ => none

theorem Stage.Asking.debt?_eq (asking : stage.Asking) : stage.debt? = none := by
  cases asking <;> rfl

private theorem Moves.balanced (steady : w.Steady) (absent : stage.Early → w.store.job? r.drawn = none)
    (moves : Moves w stage event later after)
    (balanced : Balanced w.store (stage.debt?.toList ++ (w.owed ++ others))) :
    Balanced after.store (later.debt?.toList ++ (after.owed ++ others)) := by
  cases moves with
  | asked _ asking _ =>
    rw [asking.debt?_eq]
    exact balanced
  | recorded =>
    refine balanced.incur (absent (.creating _ _ _)) (fun id other => ?_) ?_
    · exact JobTable.job?_recorded.trans (if_neg other)
    · exact ⟨_, JobTable.job?_recorded.trans (if_pos rfl), rfl, List.mem_singleton.2 rfl⟩
  | @queued task fits _ =>
    refine balanced.perm ?_
    have grown : World.owed { w with pending := w.pending ++ [task.encode] } =
        w.owed ++ [⟨r.drawn, r.type, [.created]⟩] := by
      rw [World.owed, List.filterMap_append, ← World.owed]
      simp [Debt.ofTask, Request.jobId_task fits, Request.jobType_task fits]
    rw [grown, List.append_assoc]
    show (_ :: (w.owed ++ others)).Perm (w.owed ++ _ :: others)
    exact List.perm_middle.symm
  | withdrawn =>
    obtain ⟨job, found, _, created⟩ := balanced.held _ List.mem_cons_self
    have failed := JobTable.job?_abandon_self w.now unqueuedReason found (List.mem_singleton.1 created)
    refine balanced.pay (fun id other => JobTable.job?_abandon_other _ _ other) fun later stored => ?_
    cases failed.symm.trans stored
    rfl
  | stuck broken =>
    rw [steady.abandons] at broken
    cases broken
  | remembered =>
    obtain ⟨store, pending⟩ := w.noted_keeps r.fingerprint r.drawn
    rw [store, World.owed_congr pending]
    exact balanced
  | @renewed id =>
    obtain ⟨store, pending⟩ := w.noted_keeps r.fingerprint id
    rw [store, World.owed_congr pending]
    exact balanced
  | _ => exact balanced

theorem Moves.pending_eq (moves : Moves w stage event later after) :
    after.pending = w.pending ++ event.queued?.toList := by
  cases moves with
  | queued => rfl
  | remembered | renewed => exact ((w.noted_keeps _ _).2).trans (List.append_nil _).symm
  | _ => exact (List.append_nil _).symm

/-- A submission queues nothing but its task. -/
theorem Moves.readable (moves : Moves w stage event later after) (readable : w.Readable) :
    after.Readable := by
  cases moves with
  | @queued task =>
    intro payload mem
    rcases List.mem_append.1 mem with old | new
    · exact readable payload old
    · rw [List.mem_singleton.1 new]
      exact ⟨task, Task.decode_encode task⟩
  | remembered => exact readable.congr (w.noted_keeps _ _).2
  | renewed => exact readable.congr (w.noted_keeps _ _).2
  | _ => exact readable

end Submission

namespace Worker

variable {w after : World} {event : Event} {others : List Debt}

theorem settle_keeps {d : Delivery} {done : Bool} {reply : Except QueueError Unit}
    (made : w.settle d (verdict done) = (reply, after)) :
    after.store = w.store ∧ after.pending = w.pending := by
  unfold World.settle at made
  split at made
  · cases made
    exact ⟨rfl, rfl⟩
  · cases done <;> cases made <;> exact ⟨rfl, rfl⟩

namespace Handling

variable {d : Delivery} {stage later : Handling d}

/-- The job of a delivery that is not settled. -/
def debt? : Handling d → Option Debt
  | .starting task => some (.ofTask task [.created])
  | .executing task | .tallying task _ | .completing task _ => some (.ofTask task [.processing])
  | .failing task _ => some (.ofTask task [.created, .processing])
  | .counting .. | .settling .. | .finished _ => none

@[simp] theorem debt?_opening (d : Delivery) : (opening d).debt? = Debt.ofPayload? d.payload := by
  unfold opening Debt.ofPayload?
  cases Task.decode d.payload <;> rfl

/-- No delivery is given back, so a worker leaves what is pending. -/
theorem Moves.pending_eq (calm : w.interruptions = []) (moves : Moves w stage event later after) :
    after.pending = w.pending := by
  cases moves with
  | executed ran =>
    obtain ⟨_, _, equal⟩ := World.execute_eq calm ran
    rw [equal]
  | settled made => exact (settle_keeps made).2
  | _ => rfl

/-- A delivery changes no job but its own. -/
theorem Moves.job?_other (moves : Moves w stage event later after) {id : JobId}
    (other : ∀ debt ∈ stage.debt?, debt.id ≠ id)
    (undisturbed : ∀ entry ∈ w.interruptions, entry.2.2.named? ≠ some id) :
    after.store.job? id = w.store.job? id := by
  cases moves with
  | started | completed | failed => exact JobTable.job?_change_other (other _ rfl).symm
  | executed ran =>
    obtain ⟨_, _, _, changed, kept⟩ := World.execute_changes ran
    rw [changed]
    exact kept id undisturbed
  | settled made => rw [(settle_keeps made).1]
  | _ => rfl

private theorem Moves.balanced (calm : w.interruptions = []) (steady : w.Steady)
    (moves : Moves w stage event later after)
    (balanced : Balanced w.store (stage.debt?.toList ++ others)) :
    Balanced after.store (later.debt?.toList ++ others) := by
  cases moves with
  | @started task =>
    obtain ⟨job, found, type, created⟩ := balanced.held _ List.mem_cons_self
    have source : job.status ∈ [.created, .processing] := List.mem_cons.2 (.inl (List.mem_singleton.1 created))
    refine balanced.hand rfl (fun id other => JobTable.job?_change_other other) ?_
    exact ⟨_, JobTable.job?_change_self found source, type, List.mem_singleton.2 rfl⟩
  | refused _ idle =>
    -- The job of a debt is there and only recorded, so its start is not refused.
    obtain ⟨job, found, _, created⟩ := balanced.held _ List.mem_cons_self
    rcases idle with refuses | idle
    · rw [steady.starts] at refuses
      cases refuses
    · refine absurd ?_ (idle job found)
      exact List.mem_cons.2 (.inl (List.mem_singleton.1 created))
  | unstarted =>
    obtain ⟨job, found, type, created⟩ := balanced.held _ List.mem_cons_self
    refine balanced.hand rfl (fun _ _ => rfl) ⟨job, found, type, ?_⟩
    exact List.mem_cons.2 (.inl (List.mem_singleton.1 created))
  | executed ran =>
    obtain ⟨_, _, equal⟩ := World.execute_eq calm ran
    rw [equal]
    exact balanced
  | @tallied task outcome =>
    cases outcome with
    | ok result => exact balanced
    | error e =>
      -- A failure is recorded of a job that has not started as well.
      obtain ⟨job, found, type, processing⟩ := balanced.held _ List.mem_cons_self
      refine balanced.hand rfl (fun _ _ => rfl) ⟨job, found, type, ?_⟩
      exact List.mem_cons_of_mem _ processing
  | completed =>
    obtain ⟨job, found, _, processing⟩ := balanced.held _ List.mem_cons_self
    refine balanced.pay (fun id other => JobTable.job?_change_other other) fun later stored => ?_
    cases (JobTable.job?_change_self found processing).symm.trans stored
    rfl
  | outrun _ idle =>
    obtain ⟨job, found, _, processing⟩ := balanced.held _ List.mem_cons_self
    exact absurd processing (idle job found)
  | unrecorded broken =>
    rw [steady.writes] at broken
    cases broken
  | failed =>
    obtain ⟨job, found, _, source⟩ := balanced.held _ List.mem_cons_self
    refine balanced.pay (fun id other => JobTable.job?_change_other other) fun later stored => ?_
    cases (JobTable.job?_change_self found source).symm.trans stored
    rfl
  | unfailed _ _ idle =>
    obtain ⟨job, found, _, source⟩ := balanced.held _ List.mem_cons_self
    rcases idle with broken | idle
    · rw [steady.writes] at broken
      cases broken
    · exact absurd source (idle job found)
  | settled made =>
    rw [(settle_keeps made).1]
    exact balanced
  | counted => exact balanced

end Handling

namespace Duty

variable {duty later : Duty}

/-- The jobs of deliveries that are not yet handled. -/
def owedIn (received : List (Except QueueError Delivery)) : List Debt :=
  received.filterMap fun
    | .ok d => Debt.ofPayload? d.payload
    | .error _ => none

/-- The jobs that a worker has taken from the queue. -/
def debts : Duty → List Debt
  | .handling _ stage _ rest => stage.debt?.toList ++ owedIn rest
  | .waiting rest => owedIn rest
  | .receiving | .finished _ => []

@[simp] theorem debts_resume (received : List (Except QueueError Delivery)) :
    (resume received).debts = owedIn received := by
  match received with
  | [] => rfl
  | .error _ :: rest => rfl
  | .ok d :: rest =>
    show (Handling.opening d).debt?.toList ++ owedIn rest = _
    rw [Handling.debt?_opening]
    cases opened : Debt.ofPayload? d.payload <;> simp [owedIn, opened]

@[simp] theorem debts_proceed (d : Delivery) (stage : Handling d) (rest : List (Except QueueError Delivery)) :
    (proceed d stage rest).debts = stage.debt?.toList ++ owedIn rest := by
  unfold proceed
  cases stage with
  | finished outcome => exact debts_resume rest
  | _ => rfl

/-- What the queue hands out is what it owed. -/
theorem owedIn_consume {received : List (Except QueueError Delivery)}
    (made : w.consume = (.ok received, after)) :
    owedIn received = w.owed ∧ after.pending = [] ∧ after.store = w.store := by
  have handed : ∀ settles, owedIn (w.pending.map fun payload => .ok ⟨payload, settles⟩) = w.owed := by
    intro settles
    rw [owedIn, List.filterMap_map]
    rfl
  unfold World.consume at made
  split at made
  · cases made
  · cases made
    refine ⟨?_, rfl, rfl⟩
    split
    · exact handed _
    · exact handed _

private theorem Moves.balanced (calm : w.interruptions = []) (steady : w.Steady)
    (moves : Moves w duty event later after)
    (balanced : Balanced w.store (duty.debts ++ (w.owed ++ others))) :
    Balanced after.store (later.debts ++ (after.owed ++ others)) := by
  cases moves with
  | barred made =>
    unfold World.consume at made
    split at made
    · cases made
      exact balanced
    · cases made
  | received made =>
    obtain ⟨handed, empty, store⟩ := owedIn_consume made
    have cleared : after.owed = [] := by
      rw [World.owed, empty]
      rfl
    rw [debts_resume, handed, cleared, store]
    exact balanced
  | @handled _ stage _ _ _ _ rest moves =>
    rw [debts_proceed, List.append_assoc, World.owed_congr (moves.pending_eq calm)]
    refine moves.balanced calm steady ?_
    rw [← List.append_assoc]
    exact balanced
  | waited =>
    rw [debts_resume]
    exact balanced

private theorem Moves.readable (calm : w.interruptions = []) (moves : Moves w duty event later after)
    (readable : w.Readable) : after.Readable := by
  cases moves with
  | barred made =>
    unfold World.consume at made
    split at made <;> cases made
    exact readable
  | received made =>
    obtain ⟨_, empty, _⟩ := owedIn_consume made
    rw [World.Readable, empty]
    exact fun payload mem => absurd mem List.not_mem_nil
  | handled moves => exact readable.congr (moves.pending_eq calm)
  | waited => exact readable

end Duty

end Worker

namespace Memory.Member

/-- The jobs that are in the hands of a program. -/
def debts : Member → List Debt
  | .submission _ stage => stage.debt?.toList
  | .worker duty => duty.debts
  | .handler _ stage => stage.debt?.toList

/-- A call loses no debt: one that the program or the queue had is still there, or is paid. -/
theorem Moves.balanced {w after : World} {event : Event} {member later : Member} {others : List Debt}
    (calm : w.interruptions = []) (steady : w.Steady)
    (absent : ∀ (r : Request) (stage : Submission.Stage r), member = .submission r stage → stage.Early →
      w.store.job? r.drawn = none)
    (moves : Moves w member event later after)
    (balanced : Balanced w.store (member.debts ++ (w.owed ++ others))) :
    Balanced after.store (later.debts ++ (after.owed ++ others)) := by
  cases moves with
  | submission moves => exact moves.balanced steady (absent _ _ rfl) balanced
  | worker moves => exact moves.balanced calm steady balanced
  | handler moves =>
    rw [World.owed_congr (moves.pending_eq calm)]
    exact moves.balanced calm steady balanced

theorem Moves.readable {w after : World} {event : Event} {member later : Member}
    (calm : w.interruptions = []) (moves : Moves w member event later after) (readable : w.Readable) :
    after.Readable := by
  cases moves with
  | submission moves => exact moves.readable readable
  | worker moves => exact moves.readable calm readable
  | handler moves => exact readable.congr (moves.pending_eq calm)

end Memory.Member

end Vetting
