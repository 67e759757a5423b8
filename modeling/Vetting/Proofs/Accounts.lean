import Vetting.Proofs.Delivery
import Vetting.Proofs.Retry
import Vetting.Proofs.Shape

/-!
What the counters tell of a system in which workers get payloads from submissions only. Where no
submission is in progress and no worker is between an end that it recorded and its count, the counters
are the books of the store and of the queue (`counters_account`).

A count follows what it tells of, one call or two behind. So the books are balanced in between as well,
if what a program is about to count is added to what is counted (`Crew.Accounted`): each call leaves the
two sides equal, or adds one to both.
-/
namespace Vetting

/-- Whether a payload carries a task of a type. -/
def Task.carried (type : JobType) (payload : List UInt8) : Bool :=
  match decode payload with
  | .ok task => task.jobType = type
  | .error _ => false

@[simp] theorem Task.carried_encode (type : JobType) (task : Task) :
    carried type task.encode = decide (task.jobType = type) := by
  rw [carried, decode_encode]

namespace Counter

/-- Whether a counter tells of the end that a record has. Abandoned jobs never got to a worker, and
their failures are not counted. -/
def counts (counter : Counter) (abandoned : List JobId) (id : JobId) (job : Job) : Bool :=
  match counter with
  | .completed type => job.type = type ∧ job.status = .completed
  | .failed type => job.type = type ∧ job.status = .failed ∧ id ∉ abandoned
  | .submitted _ | .deduplicated _ | .executed _ | .poison => false

variable {abandoned : List JobId} {id : JobId} {job : Job}

private theorem counts_unended (counter : Counter) (abandoned : List JobId) (id : JobId)
    (source : job.status ∈ [.created, .processing]) : counter.counts abandoned id job = false := by
  have unended : job.status ≠ .completed ∧ job.status ≠ .failed := by
    revert source
    cases job.status <;> decide
  cases counter <;> simp [counts, unended]

private theorem counts_completed (counter : Counter) (abandoned : List JobId) (id : JobId)
    (status : job.status = .completed) :
    (counter.counts abandoned id job).toNat = if .completed job.type = counter then 1 else 0 := by
  cases counter with
  | completed type => by_cases same : job.type = type <;> simp [counts, status, same]
  | _ => simp [counts, status]

private theorem counts_failed (counter : Counter) (status : job.status = .failed) (kept : id ∉ abandoned) :
    (counter.counts abandoned id job).toNat = if .failed job.type = counter then 1 else 0 := by
  cases counter with
  | failed type => by_cases same : job.type = type <;> simp [counts, status, kept, same]
  | _ => simp [counts, status]

private theorem counts_abandoned (counter : Counter) (status : job.status = .failed) (mem : id ∈ abandoned) :
    counter.counts abandoned id job = false := by
  cases counter <;> simp [counts, status, mem]

/-- That a job was abandoned makes no difference to another. -/
theorem counts_append (counter : Counter) {other : JobId} (different : id ≠ other) :
    counter.counts (abandoned ++ [other]) id job = counter.counts abandoned id job := by
  cases counter <;> simp [counts, different]

end Counter

namespace Memory

namespace JobTable

variable {t after : JobTable} {id : JobId} {keep : JobId → Job → Bool}

/-- The jobs whose records are as asked. -/
def select (keep : JobId → Job → Bool) (t : JobTable) : Finset JobId :=
  (t.jobs.map Prod.fst).toFinset.filter fun id => (t.job? id).any (keep id)

private theorem mem_select : id ∈ t.select keep ↔ ∃ job, t.job? id = some job ∧ keep id job = true := by
  simp only [select, Finset.mem_filter, List.mem_toFinset, Option.any_eq_true]
  constructor
  · rintro ⟨_, job, found, kept⟩
    exact ⟨job, found, kept⟩
  · rintro ⟨job, found, kept⟩
    exact ⟨List.mem_map_of_mem (Assoc.mem_of_lookup found), job, found, kept⟩

private theorem notMem_select {job : Job} (found : t.job? id = some job) (unkept : keep id job = false) :
    id ∉ t.select keep := by
  rw [mem_select]
  rintro ⟨other, same, kept⟩
  cases found.symm.trans same
  rw [unkept] at kept
  cases kept

/-- Two tables that differ in one record, which is not as asked in the first. -/
theorem card_select (others : ∀ other, other ≠ id → after.job? other = t.job? other)
    (absent : id ∉ t.select keep) :
    (after.select keep).card = (t.select keep).card + ((after.job? id).any (keep id)).toNat := by
  have elsewhere : ∀ other, other ≠ id → (other ∈ after.select keep ↔ other ∈ t.select keep) := by
    intro other different
    rw [mem_select, mem_select, others other different]
  cases told : (after.job? id).any (keep id) with
  | false =>
    have lacks : id ∉ after.select keep := by
      simpa only [select, Finset.mem_filter, told, Bool.false_eq_true, and_false] using not_false
    have same : after.select keep = t.select keep := by
      ext other
      by_cases here : other = id
      · rw [here]
        exact iff_of_false lacks absent
      · exact elsewhere other here
    rw [same]
    rfl
  | true =>
    have has : id ∈ after.select keep := mem_select.2 ((Option.any_eq_true _ _).1 told)
    have grown : after.select keep = insert id (t.select keep) := by
      ext other
      rw [Finset.mem_insert]
      by_cases here : other = id
      · rw [here]
        exact iff_of_true has (.inl rfl)
      · rw [elsewhere other here]
        exact (or_iff_right here).symm
    rw [grown, Finset.card_insert_of_notMem absent]
    rfl

private theorem card_change {job : Job} {sources : List JobStatus} {apply : Job → Job}
    (found : t.job? id = some job) (source : job.status ∈ sources) (unkept : keep id job = false) :
    ((t.change id sources apply).2.select keep).card =
      (t.select keep).card + (keep id (apply job)).toNat := by
  refine (card_select (fun other different => job?_change_other different)
    (notMem_select found unkept)).trans ?_
  rw [job?_change_self found source]
  rfl

section Ends

variable {job : Job} {abandoned : List JobId}

private theorem card_start (found : t.job? id = some job) (source : job.status ∈ [.created, .processing])
    (now : Instant) (counter : Counter) (abandoned : List JobId) :
    ((t.start now id).2.select (counter.counts abandoned)).card =
      (t.select (counter.counts abandoned)).card := by
  refine (card_change found source (counter.counts_unended abandoned id source)).trans ?_
  rw [counter.counts_unended abandoned id (by simp)]
  rfl

/-- A job that completes is one more for the counter of its type. -/
theorem card_complete (found : t.job? id = some job) (source : job.status ∈ [.processing])
    (now : Instant) (result : JobResult) (counter : Counter) (abandoned : List JobId) :
    ((t.complete now id result).2.select (counter.counts abandoned)).card =
      (t.select (counter.counts abandoned)).card + if .completed job.type = counter then 1 else 0 := by
  have running : job.status ∈ [.created, .processing] := List.mem_cons_of_mem _ source
  refine (card_change found source (counter.counts_unended abandoned id running)).trans ?_
  rw [counter.counts_completed abandoned id rfl]

/-- A job that fails is one more for the counter of its type, unless it was abandoned. -/
theorem card_fail (found : t.job? id = some job) (source : job.status ∈ [.created, .processing])
    (kept : id ∉ abandoned) (now : Instant) (reason : String) (counter : Counter) :
    ((t.fail now id reason).2.select (counter.counts abandoned)).card =
      (t.select (counter.counts abandoned)).card + if .failed job.type = counter then 1 else 0 := by
  refine (card_change found source (counter.counts_unended abandoned id source)).trans ?_
  rw [counter.counts_failed rfl kept]
  rfl

/-- A job that is not over was not abandoned, if those that were are. -/
theorem notMem_of_unended (closed : ∀ id ∈ abandoned, t.Over id) (found : t.job? id = some job)
    (source : job.status ∈ [.created, .processing]) : id ∉ abandoned := by
  intro mem
  obtain ⟨other, same, terminal⟩ := closed id mem
  cases found.symm.trans same
  revert source terminal
  cases job.status <;> decide

private theorem card_recorded {now : Instant} {new : NewJob} (unknown : t.job? new.id = none)
    (counter : Counter) (abandoned : List JobId) :
    ((t.recorded now new).select (counter.counts abandoned)).card =
      (t.select (counter.counts abandoned)).card := by
  have absent : new.id ∉ t.select (counter.counts abandoned) := by
    rw [mem_select, unknown]
    rintro ⟨_, ⟨⟩, _⟩
  have others : ∀ other, other ≠ new.id → (t.recorded now new).job? other = t.job? other :=
    fun other different => job?_recorded.trans (if_neg different)
  have own : (t.recorded now new).job? new.id = some _ := job?_recorded.trans (if_pos rfl)
  rw [card_select others absent, own, Option.any_some,
    counter.counts_unended abandoned new.id (by simp [Job.fresh])]
  rfl

/-- The failure of a job that is abandoned is not one that is counted. -/
theorem card_abandon (unstarted : t.Unstarted id) (now : Instant) (reason : String) (counter : Counter)
    (abandoned : List JobId) :
    ((t.abandon now id reason).select (counter.counts (abandoned ++ [id]))).card =
      (t.select (counter.counts abandoned)).card := by
  obtain ⟨job, found, created⟩ := unstarted
  have absent : ∀ abandoned, id ∉ t.select (counter.counts abandoned) := fun abandoned =>
    notMem_select found (counter.counts_unended abandoned id (by simp [created]))
  have same : t.select (counter.counts (abandoned ++ [id])) = t.select (counter.counts abandoned) := by
    ext other
    by_cases own : other = id
    · rw [own]
      exact iff_of_false (absent _) (absent _)
    · simp only [mem_select, counter.counts_append own]
  have mem : id ∈ abandoned ++ [id] := List.mem_append_right _ (List.mem_singleton.2 rfl)
  rw [card_select (fun other different => job?_abandon_other now reason different) (absent _),
    job?_abandon_self now reason found created, Option.any_some, counter.counts_abandoned rfl mem, same]
  rfl

end Ends

end JobTable

end Memory

open Memory

variable {w after : World} {event : Event} {abandoned : List JobId}

/-! ## What one call posts -/

/-- The account of one call of a worker, which was about to count what `due` tells and is then about to
count what `later` tells: the two together with what is counted grow with the ends in the store. -/
structure Memory.World.Posts (w after : World) (due later : Counter → Nat) : Prop where
  aside : ∀ counter : Counter, ¬ counter.OfEnd → (∀ type, counter ≠ .executed type) →
    after.metrics.count counter + later counter = w.metrics.count counter + due counter
  ended : ∀ (abandoned : List JobId), (∀ id ∈ abandoned, w.store.Over id) →
    ∀ counter : Counter, counter.OfEnd →
      after.metrics.count counter + later counter + (w.store.select (counter.counts abandoned)).card =
        w.metrics.count counter + due counter + (after.store.select (counter.counts abandoned)).card

private theorem Memory.World.consume_keeps (w : World) :
    w.consume.2.store = w.store ∧ w.consume.2.metrics = w.metrics := by
  unfold consume
  split <;> exact ⟨rfl, rfl⟩

namespace Worker

namespace Handling

variable {d : Delivery} {stage later : Handling d}

private theorem due_opening_readable {task : Task} (readable : Task.decode d.payload = .ok task)
    (counter : Counter) : (opening d).due counter = 0 := by
  rw [opening, readable]
  rfl

private theorem Moves.posts (moves : Moves w stage event later after) (calm : w.interruptions = [])
    (typed : stage.Typed w.store) : w.Posts after stage.due later.due := by
  refine ⟨fun _ => moves.due_eq, fun abandoned closed counter ofEnd => ?_⟩
  obtain ⟨_, answered⟩ := moves.perform_eq
  have grows := World.perform_metrics answered counter
  cases moves with
  | started found source =>
    rw [grows, JobTable.card_start found source]
    rfl
  | @tallied task outcome =>
    have other : Counter.executed task.jobType ≠ counter := by
      rintro rfl
      exact ofEnd
    have idle : (recording task outcome : Handling d).due counter = 0 := by cases outcome <;> rfl
    have uncounted : (Call.count (.executed task.jobType)).counter? ≠ some counter :=
      fun same => other (Option.some.inj same)
    rw [grows, idle, if_neg uncounted]
    rfl
  | completed found source =>
    obtain ⟨known, there, type⟩ := typed.1
    cases there.symm.trans found
    rw [grows, JobTable.card_complete found source, type, Nat.add_right_comm, Nat.add_assoc]
    rfl
  | failed found source =>
    obtain ⟨known, there, type⟩ := typed
    cases there.symm.trans found
    have kept := JobTable.notMem_of_unended closed found source
    rw [grows, JobTable.card_fail found source kept, type, Nat.add_right_comm, Nat.add_assoc]
    rfl
  | @counted other =>
    have still : (w.counted other).store = w.store := rfl
    rw [grows, still]
    simp [Call.counter?, due]
  | settled made =>
    rw [grows, (settle_keeps made).1]
    rfl
  | executed ran =>
    obtain ⟨_, _, same⟩ := World.execute_eq calm ran
    rw [grows, same]
    rfl
  | _ =>
    rw [grows]
    rfl

end Handling

namespace Duty

variable {duty later : Duty}

/-- How often a worker is about to raise a counter. -/
def due (counter : Counter) : Duty → Nat
  | .handling _ stage _ _ => stage.due counter
  | .receiving | .waiting _ | .finished _ => 0

private theorem due_resume {received : List (Except QueueError Delivery)}
    (readable : ∀ d, .ok d ∈ (resume received).left → ∃ task, Task.decode d.payload = .ok task)
    (counter : Counter) : (resume received).due counter = 0 := by
  match received with
  | [] => rfl
  | .ok d :: _ =>
    obtain ⟨task, decoded⟩ := readable d List.mem_cons_self
    exact Handling.due_opening_readable decoded counter
  | .error _ :: _ => rfl

private theorem due_proceed {d : Delivery} {stage : Handling d} {rest : List (Except QueueError Delivery)}
    (readable : ∀ other, .ok other ∈ (proceed d stage rest).left →
      ∃ task, Task.decode other.payload = .ok task)
    (counter : Counter) : (proceed d stage rest).due counter = stage.due counter := by
  unfold proceed at readable ⊢
  split at readable
  · next busy =>
    rw [dif_pos busy]
    rfl
  · next idle =>
    rw [dif_neg idle, due_resume readable]
    cases stage with
    | finished outcome => rfl
    | _ => exact absurd rfl idle

private theorem Moves.posts (moves : Moves w duty event later after) (calm : w.interruptions = [])
    (typed : duty.Typed w.store)
    (readable : ∀ d, .ok d ∈ later.left → ∃ task, Task.decode d.payload = .ok task) :
    w.Posts after duty.due later.due := by
  have quiet : after.store = w.store ∧ after.metrics = w.metrics → (∀ counter, duty.due counter = 0) →
      (∀ counter, later.due counter = 0) → w.Posts after duty.due later.due := by
    rintro ⟨store, metrics⟩ before next
    refine ⟨fun counter _ _ => ?_, fun abandoned _ counter _ => ?_⟩
    · rw [metrics, before, next]
    · rw [metrics, store, before, next]
  cases moves with
  | barred made =>
    have kept := World.consume_keeps w
    rw [made] at kept
    exact quiet kept (fun _ => rfl) fun _ => rfl
  | received made =>
    have kept := World.consume_keeps w
    rw [made] at kept
    exact quiet kept (fun _ => rfl) (due_resume readable)
  | @handled d stage next busy event after rest moves =>
    have posts := moves.posts calm typed
    have same : (proceed d next rest).due = next.due := funext (due_proceed readable)
    rw [same]
    exact posts
  | waited => exact quiet ⟨rfl, rfl⟩ (fun _ => rfl) (due_resume readable)

end Duty

end Worker

namespace Submission

variable {r : Request} {stage later : Stage r}

/-- How often a submission is about to raise a counter. -/
def Stage.due (counter : Counter) : Stage r → Nat
  | .remembering => if .submitted r.type = counter then 1 else 0
  | .recognising _ => if .deduplicated r.type = counter then 1 else 0
  | .counting other _ => if other = counter then 1 else 0
  | _ => 0

/-- Whether a submission of a type has a job to be answered with. -/
def Stage.sure (type : JobType) : Stage r → Bool
  | .remembering | .recognising _ | .inspecting _ | .renewing _ | .counting .. | .finished (.ok _) =>
    r.type = type
  | .finding .. | .looking _ | .creating .. | .publishing .. | .withdrawing _ | .finished (.error _) =>
    false

private theorem Stage.Asking.due_eq (asking : stage.Asking) (counter : Counter) :
    stage.due counter = 0 := by
  cases asking <;> rfl

private theorem Stage.Asking.sure_eq (asking : stage.Asking) (type : JobType) :
    stage.sure type = false := by
  cases asking <;> rfl

/-- A submission counts a payload that it has queued. -/
theorem Moves.accepts (moves : Moves w stage event later after) (type : JobType) :
    after.metrics.count (.submitted type) + later.due (.submitted type) =
      w.metrics.count (.submitted type) + stage.due (.submitted type) +
        event.queued?.toList.countP (Task.carried type) := by
  obtain ⟨_, answered⟩ := moves.perform_eq
  have grows := World.perform_metrics answered (.submitted type)
  rw [grows]
  cases moves with
  | asked _ asking _ => rw [asking.due_eq]; rfl
  | @queued task fits =>
    simp [Call.counter?, Stage.due, Event.queued?, Request.jobType_task fits]
  | recognised | counted => simp [Call.counter?, Stage.due, Event.queued?]
  | _ => rfl

/-- A submission that is sure to be answered with a job counts that, as a new one or as one that was there. -/
theorem Moves.answers (moves : Moves w stage event later after) (type : JobType) :
    after.metrics.count (.submitted type) + later.due (.submitted type) +
        (after.metrics.count (.deduplicated type) + later.due (.deduplicated type)) +
        (stage.sure type).toNat =
      w.metrics.count (.submitted type) + stage.due (.submitted type) +
        (w.metrics.count (.deduplicated type) + stage.due (.deduplicated type)) +
        (later.sure type).toNat := by
  obtain ⟨_, answered⟩ := moves.perform_eq
  rw [World.perform_metrics answered, World.perform_metrics answered]
  cases moves with
  | asked _ asking _ => rw [asking.due_eq, asking.due_eq, asking.sure_eq]; rfl
  | queued | hit | duplicate =>
    by_cases own : r.type = type
    · simp only [Stage.due, Stage.sure, own, reduceCtorEq, ↓reduceIte, decide_true, Bool.toNat_true,
        Call.counter?, Bool.toNat_false]
      omega
    · simp [Call.counter?, Stage.due, Stage.sure, own]
  | recognised | counted => simp [Call.counter?, Stage.due, Stage.sure]
  | _ => rfl

/-- No submission counts ends. -/
theorem Moves.due_eq (moves : Moves w stage event later after) {counter : Counter}
    (submitted : ∀ type, counter ≠ .submitted type) (deduplicated : ∀ type, counter ≠ .deduplicated type) :
    after.metrics.count counter + later.due counter = w.metrics.count counter + stage.due counter := by
  obtain ⟨_, answered⟩ := moves.perform_eq
  rw [World.perform_metrics answered]
  have unqueued := (submitted r.type).symm
  have unknown := (deduplicated r.type).symm
  cases moves with
  | asked _ asking _ => rw [asking.due_eq]; rfl
  | queued | hit | duplicate | recognised | counted =>
    simp [Call.counter?, Stage.due, unqueued, unknown]
  | remembered => simp [Call.counter?, Stage.due, unqueued]
  | _ => rfl

/-- No submission changes what there is of ends that are counted: its own job is abandoned, if it fails. -/
theorem Moves.card_select_eq (moves : Moves w stage event later after)
    (early : stage.Early → w.store.job? r.drawn = none) (counter : Counter) (abandoned : List JobId) :
    (after.store.select (counter.counts (abandoned ++ event.abandoned?.toList))).card =
      (w.store.select (counter.counts abandoned)).card := by
  have still : event.abandoned? = none → after.store = w.store →
      (after.store.select (counter.counts (abandoned ++ event.abandoned?.toList))).card =
        (w.store.select (counter.counts abandoned)).card := by
    intro kept same
    rw [kept, same, Option.toList_none, List.append_nil]
  cases moves with
  | @recorded images task fits =>
    have unknown : w.store.job? (r.job images).id = none := early (.creating images task fits)
    show ((w.store.recorded w.now (r.job images)).select (counter.counts (abandoned ++ []))).card = _
    rw [List.append_nil]
    exact JobTable.card_recorded unknown counter abandoned
  | withdrawn =>
    by_cases unstarted : w.store.Unstarted r.drawn
    · have told : Event.abandoned? ⟨w, .abandon r.drawn unqueuedReason, .ok ()⟩ = some r.drawn :=
        if_pos unstarted
      rw [told]
      exact JobTable.card_abandon unstarted w.now unqueuedReason counter abandoned
    · -- A worker has started the job, so it is left to that worker and counts if it fails.
      have told : Event.abandoned? ⟨w, .abandon r.drawn unqueuedReason, .ok ()⟩ = none := if_neg unstarted
      refine still told ?_
      rcases JobTable.abandon_cases w.now r.drawn unqueuedReason w.store with ⟨_, same⟩ | ⟨would, _⟩
      · exact same
      · exact absurd would unstarted
  | remembered | renewed => exact still rfl (World.noted_keeps _ _).1
  | _ => exact still rfl rfl

end Submission

namespace Memory

namespace Member

variable {member later : Member}

/-- How often a program is about to raise a counter. -/
def due (counter : Counter) : Member → Nat
  | .submission _ stage => stage.due counter
  | .worker duty => duty.due counter
  | .handler _ stage => stage.due counter

/-- Whether a program is a submission of a type that has a job to be answered with. -/
def sure (type : JobType) : Member → Bool
  | .submission _ stage => stage.sure type
  | .worker _ | .handler .. => false

/-- What one call of a program does to the books: what the program has counted or is about to count
grows by what the call adds to the queue, to the answers and to the ends. -/
structure Balances (w : World) (member : Member) (event : Event) (later : Member) (after : World) :
    Prop where
  accepts : ∀ type, after.metrics.count (.submitted type) + later.due (.submitted type) =
    w.metrics.count (.submitted type) + member.due (.submitted type) +
      event.queued?.toList.countP (Task.carried type)
  answers : ∀ type, after.metrics.count (.submitted type) + later.due (.submitted type) +
      (after.metrics.count (.deduplicated type) + later.due (.deduplicated type)) +
      (member.sure type).toNat =
    w.metrics.count (.submitted type) + member.due (.submitted type) +
      (w.metrics.count (.deduplicated type) + member.due (.deduplicated type)) + (later.sure type).toNat
  ends : ∀ abandoned : List JobId, (∀ id ∈ abandoned, w.store.Over id) → ∀ counter : Counter,
    counter.OfEnd →
      after.metrics.count counter + later.due counter + (w.store.select (counter.counts abandoned)).card =
        w.metrics.count counter + member.due counter +
          (after.store.select (counter.counts (abandoned ++ event.abandoned?.toList))).card
  poison : after.metrics.count .poison + later.due .poison = w.metrics.count .poison + member.due .poison

private theorem balances_of_posts (posts : w.Posts after member.due later.due) (plain : event.Plain)
    (unsure : ∀ type, member.sure type = false ∧ later.sure type = false) :
    Balances w member event later after where
  accepts type := by
    rw [plain.queued]
    exact posts.aside (.submitted type) id nofun
  answers type := by
    have submitted := posts.aside (.submitted type) id nofun
    have deduplicated := posts.aside (.deduplicated type) id nofun
    rw [(unsure type).1, (unsure type).2, submitted, deduplicated]
  ends abandoned closed counter ofEnd := by
    rw [plain.abandoned, Option.toList_none, List.append_nil]
    exact posts.ended abandoned closed counter ofEnd
  poison := posts.aside .poison id nofun

private theorem Moves.balances (moves : Moves w member event later after) (calm : w.interruptions = [])
    (early : ∀ r stage, member = .submission r stage → stage.Early → w.store.job? r.drawn = none)
    (typed : member.Typed w.store)
    (readable : ∀ d, .ok d ∈ later.left → ∃ task, Task.decode d.payload = .ok task) :
    Balances w member event later after := by
  cases moves with
  | worker moves =>
    exact balances_of_posts (moves.posts calm typed readable) (Event.plain_ofWorker moves.ofWorker)
      fun _ => ⟨rfl, rfl⟩
  | handler moves =>
    exact balances_of_posts (moves.posts calm typed) (Event.plain_ofWorker moves.ofWorker)
      fun _ => ⟨rfl, rfl⟩
  | @submission r stage next event after moves =>
    refine ⟨moves.accepts, moves.answers, fun abandoned _ counter ofEnd => ?_, ?_⟩
    · have unposted : ∀ type, counter ≠ .submitted type ∧ counter ≠ .deduplicated type := by
        intro type
        constructor <;>
          · rintro rfl
            exact ofEnd
      have counted := moves.due_eq (fun type => (unposted type).1) fun type => (unposted type).2
      have stored := moves.card_select_eq (early r stage rfl) counter abandoned
      rw [stored]
      exact congrArg (· + _) counted
    · exact moves.due_eq nofun nofun

end Member

namespace Crew

variable {s later : Crew}

/-- What is counted, and what the programs are about to count. -/
def booked (s : Crew) (counter : Counter) : Nat :=
  s.world.metrics.count counter + (s.members.map (Member.due counter)).sum

/-- The books of a crew. -/
structure Accounted (s : Crew) : Prop where
  sourced : s.Sourced
  closed : ∀ id ∈ abandonedIn s.trace, s.world.store.Over id
  submitted : ∀ type, s.booked (.submitted type) = (queuedIn s.trace).countP (Task.carried type)
  answered : ∀ type, s.booked (.submitted type) + s.booked (.deduplicated type) =
    s.members.countP (Member.sure type)
  ended : ∀ counter : Counter, counter.OfEnd →
    s.booked counter = (s.world.store.select (counter.counts (abandonedIn s.trace))).card
  poison : s.booked .poison = 0

private theorem accounted_start {start : World} (fresh : start.Fresh) (zero : start.metrics = .zero) :
    Accounted ⟨start, [], []⟩ := by
  have none : ∀ counter, booked ⟨start, [], []⟩ counter = 0 := by
    intro counter
    simp [booked, zero, Metrics.zero]
  refine ⟨sourced_start fresh, by simp [abandonedIn], ?_, ?_, ?_, none _⟩
  · intro type
    exact none _
  · intro type
    rw [none, none]
    rfl
  · intro counter _
    rw [none]
    show 0 = (start.store.select _).card
    rw [fresh.store]
    rfl

/-- A program that begins has nothing to count yet. -/
theorem Accounted.joined (accounted : s.Accounted) {member : Member}
    (sourced : Sourced { s with members := s.members ++ [member] }) (due : ∀ counter, member.due counter = 0)
    (sure : ∀ type, member.sure type = false) : Accounted { s with members := s.members ++ [member] } := by
  have same : ∀ counter, booked { s with members := s.members ++ [member] } counter = s.booked counter := by
    intro counter
    simp [booked, due]
  refine ⟨sourced, accounted.closed, ?_, ?_, ?_, (same _).trans accounted.poison⟩
  · intro type
    rw [same]
    exact accounted.submitted type
  · intro type
    rw [same, same, accounted.answered, List.countP_append, List.countP_singleton, sure]
    rfl
  · intro counter ofEnd
    rw [same]
    exact accounted.ended counter ofEnd

section Turn

variable {front back : List Member} {member next : Member} {event : Event} {world : World}

private theorem booked_turn (event : Event) (next : Member) (world : World)
    (members : s.members = front ++ member :: back) (counter : Counter) :
    booked ⟨world, s.trace ++ [event], front ++ next :: back⟩ counter +
        (s.world.metrics.count counter + member.due counter) =
      s.booked counter + (world.metrics.count counter + next.due counter) := by
  simp only [booked, members, List.map_append, List.map_cons, List.sum_append, List.sum_cons]
  omega

private theorem sure_turn (front back : List Member) (member next : Member) (type : JobType) :
    (front ++ next :: back).countP (Member.sure type) + (member.sure type).toNat =
      (front ++ member :: back).countP (Member.sure type) + (next.sure type).toNat := by
  simp only [List.countP_append, List.countP_cons]
  cases member.sure type <;> cases next.sure type <;> simp <;> omega

/-- Abandoned jobs are over. -/
theorem Accounted.closed_turn (accounted : s.Accounted) (members : s.members = front ++ member :: back)
    (moves : Member.Moves s.world member event next world) :
    ∀ id ∈ abandonedIn (s.trace ++ [event]), world.store.Over id := by
  intro id mem
  rcases abandoned_turn moves mem with old | ⟨r, stage, after, rfl, rfl, rfl, _, _, unstarted, store⟩
  · obtain ⟨job, found, terminal⟩ := accounted.closed id old
    obtain ⟨later, kept, advances⟩ := accounted.sourced.orderly.keeps_job members moves found
    obtain rfl := advances.frozen terminal
    exact ⟨later, kept, terminal⟩
  · obtain ⟨job, found, created⟩ := unstarted
    rw [store]
    exact ⟨_, JobTable.job?_abandon_self _ _ found created, rfl⟩

private theorem Accounted.turn (accounted : s.Accounted) (members : s.members = front ++ member :: back)
    (moves : Member.Moves s.world member event next world)
    (sourced : Sourced ⟨world, s.trace ++ [event], front ++ next :: back⟩) :
    Accounted ⟨world, s.trace ++ [event], front ++ next :: back⟩ := by
  have here : member ∈ s.members := members ▸ mem_turn.2 (.inl rfl)
  have orderly := accounted.sourced.orderly
  have readable : ∀ d, .ok d ∈ next.left → ∃ task, Task.decode d.payload = .ok task := by
    intro d mem
    have queued := sourced.received next (mem_turn.2 (.inl rfl)) d mem
    obtain ⟨task, decoded, _⟩ := sourced.queued _ queued
    exact ⟨task, decoded⟩
  have early : ∀ r stage, member = .submission r stage → stage.Early →
      s.world.store.job? r.drawn = none := by
    rintro r stage rfl
    exact orderly.early r stage here
  have balances := moves.balances orderly.calm early (accounted.sourced.typed member here) readable
  have grows := booked_turn event next world members
  refine ⟨sourced, accounted.closed_turn members moves, ?_, ?_, ?_, ?_⟩
  · intro type
    have before := accounted.submitted type
    have posted := balances.accepts type
    have booked := grows (.submitted type)
    simp only [queuedIn_append, queuedIn_singleton, List.countP_append]
    omega
  · intro type
    have before := accounted.answered type
    have posted := balances.answers type
    have submitted := grows (.submitted type)
    have deduplicated := grows (.deduplicated type)
    have sure := sure_turn front back member next type
    rw [← members] at sure
    show booked _ _ + booked _ _ = (front ++ next :: back).countP _
    omega
  · intro counter ofEnd
    have before := accounted.ended counter ofEnd
    have posted := balances.ends _ accounted.closed counter ofEnd
    have booked := grows counter
    simp only [abandonedIn_append, abandonedIn_singleton]
    omega
  · have before := accounted.poison
    have posted := balances.poison
    have booked := grows .poison
    omega

end Turn

private theorem Accounted.step {action : Action} (accounted : s.Accounted) (genuine : s.pool.Genuine action)
    (step : s.Step action later) : later.Accounted := by
  have sourced := accounted.sourced.step genuine step
  cases step with
  | submit _ asking => exact accounted.joined sourced asking.due_eq asking.sure_eq
  | drain => exact accounted.joined sourced (fun _ => rfl) fun _ => rfl
  | deliver =>
    obtain ⟨task, decoded, _⟩ := accounted.sourced.queued _ genuine
    exact accounted.joined sourced (Worker.Handling.due_opening_readable decoded) fun _ => rfl
  | turn members moves => exact accounted.turn members moves sourced
  | @disturb change =>
    obtain ⟨store, _⟩ := change.apply_keeps s.world
    have metrics : (change.apply s.world).metrics = s.world.metrics := by cases change <;> rfl
    have same : ∀ counter, booked { s with world := change.apply s.world } counter = s.booked counter := by
      intro counter
      simp only [booked, metrics]
    refine ⟨sourced, ?_, ?_, ?_, ?_, (same _).trans accounted.poison⟩
    · simpa only [store] using accounted.closed
    · simpa only [same] using accounted.submitted
    · simpa only [same] using accounted.answered
    · simpa only [same, store] using accounted.ended

end Crew

/-! ## All runs -/

/-- Whether a program is about to count. -/
def Thread.Counts : Thread → Prop
  | .submission _ rest => ∃ counter next, rest = .call (.count counter) next
  | .worker rest => ∃ counter next, rest = .call (.count counter) next
  | .handler rest => ∃ counter next, rest = .call (.count counter) next

/-- Whether a program is a submission of a type that was answered with a job. -/
def Thread.answered (type : JobType) : Thread → Bool
  | .submission request (.done (.ok _)) => request.type = type
  | _ => false

private theorem Member.due_eq_zero {member : Member} (uncounted : ¬ member.thread.Counts)
    (done : ∀ r stage, member = .submission r stage → ∃ result, stage = .finished result)
    (counter : Counter) : member.due counter = 0 := by
  cases member with
  | submission r stage =>
    obtain ⟨result, rfl⟩ := done r stage rfl
    rfl
  | worker duty =>
    cases duty with
    | handling d stage busy rest =>
      cases stage with
      | counting other => exact absurd ⟨other, _, rfl⟩ uncounted
      | _ => rfl
    | _ => rfl
  | handler d stage =>
    cases stage with
    | counting other => exact absurd ⟨other, _, rfl⟩ uncounted
    | _ => rfl

private theorem Member.sure_eq_answered {member : Member}
    (done : ∀ r stage, member = .submission r stage → ∃ result, stage = .finished result)
    (type : JobType) : member.sure type = member.thread.answered type := by
  cases member with
  | submission r stage =>
    obtain ⟨result, rfl⟩ := done r stage rfl
    cases result <;> rfl
  | worker | handler => rfl

/-- A pool whose counters tell what is in the queue, in the answers and in the store. -/
structure Pool.Accounted (p : Pool) : Prop where
  submitted : ∀ type, p.world.metrics.count (.submitted type) = p.queued.countP (Task.carried type)
  answered : ∀ type,
    p.world.metrics.count (.submitted type) + p.world.metrics.count (.deduplicated type) =
      p.threads.countP (Thread.answered type)
  completed : ∀ type, p.world.metrics.count (.completed type) =
    (p.world.store.select fun _ job => job.type = type ∧ job.status = .completed).card
  failed : ∀ type, p.world.metrics.count (.failed type) =
    (p.world.store.select fun id job =>
      job.type = type ∧ job.status = .failed ∧ id ∉ p.abandoned).card
  poison : p.world.metrics.count .poison = 0

/-- However submissions and workers take turns and whatever fails, if workers get the payloads of
submissions: where no submission is in progress, the counters account for the queue, the answers and the
store. A worker that has recorded an end counts it in its next call; one that is done, or is anywhere else,
owes no count. -/
theorem counters_account {start : World} {p : Pool} (fresh : start.Fresh) (zero : start.metrics = .zero)
    (reach : Pool.Reachable Pool.Genuine start p) (idle : p.Idle)
    (counted : ∀ thread ∈ p.threads, ¬ thread.Counts) : p.Accounted := by
  obtain ⟨s, rfl, accounted⟩ := reach.induct Crew.Accounted (Crew.accounted_start fresh zero)
    fun accounted genuine step => accounted.step genuine step
  have done : ∀ member ∈ s.members, ∀ r stage, member = .submission r stage →
      ∃ result, stage = .finished result := by
    rintro _ mem r stage rfl
    obtain ⟨result, done⟩ := idle r stage.program (List.mem_map_of_mem mem)
    exact ⟨result, Submission.eq_finished done⟩
  have settled : ∀ counter, s.booked counter = s.world.metrics.count counter := by
    intro counter
    have nothing : (s.members.map (Member.due counter)).sum = 0 := by
      refine List.sum_eq_zero fun due mem => ?_
      obtain ⟨member, among, rfl⟩ := List.mem_map.1 mem
      exact Member.due_eq_zero (counted _ (List.mem_map_of_mem among)) (done member among) counter
    rw [Crew.booked, nothing, Nat.add_zero]
  have told : ∀ type, s.members.countP (Member.sure type) = s.pool.threads.countP (Thread.answered type) := by
    intro type
    rw [Crew.pool, List.countP_map]
    refine List.countP_congr fun member mem => ?_
    rw [Member.sure_eq_answered (done member mem) type]
    rfl
  refine ⟨fun type => ?_, fun type => ?_, fun type => ?_, fun type => ?_, ?_⟩
  · exact (settled _).symm.trans (accounted.submitted type)
  · rw [← told, ← accounted.answered, settled, settled]
    rfl
  · exact (settled _).symm.trans (accounted.ended (.completed type) trivial)
  · exact (settled _).symm.trans (accounted.ended (.failed type) trivial)
  · exact (settled _).symm.trans accounted.poison

/-- A card is submitted twice, and a worker completes its job. -/
theorem counters_account_card : ∃ p : Pool,
    Pool.Reachable Pool.Genuine (Pool.deskWorld fun _ => false) p ∧ p.Accounted ∧
      p.world.metrics.count (.submitted .ocr) = 1 ∧ p.world.metrics.count (.deduplicated .ocr) = 1 ∧
      p.world.metrics.count (.completed .ocr) = 1 := by
  let first := Pool.cardRequest 1
  let second := Pool.cardRequest 2
  let task : Task := .ocr ⟨first.drawn, "card"⟩
  let w := Pool.deskWorld fun _ => false
  let queued : World :=
    { w with store := w.store.recorded w.now (first.job [Pool.card]), pending := [task.encode] }
  let told : World := (queued.noted first.fingerprint first.drawn).counted (.submitted .ocr)
  let again : World := told.counted (.deduplicated .ocr)
  have turns : ∀ p : Pool, p.Genuine .turn := fun _ => trivial
  have drains : ∀ p : Pool, p.Genuine .drain := fun _ => trivial
  have begun : Pool.Reachable Pool.Genuine w _ := .start
  have fits : first.task? = some task := rfl
  obtain ⟨_, _, _, _, publishing⟩ := begun.records fits turns (fun _ => trivial)
    (Pool.valid_cardRequest rfl 1) rfl rfl ⟨rfl, rfl⟩ (by simp [Pool.requests])
  have remembering := publishing.moves [] [] turns (.queued rfl)
  have counting := remembering.moves [] [] turns .remembered
  have finished : Pool.Reachable Pool.Genuine w
      ⟨told, _, [.submission first (.done (.ok first.drawn))]⟩ := counting.moves [] [] turns .counted
  have known : told.cached second.fingerprint = some first.drawn :=
    (Assoc.lookup_put _ _ _ _).trans (if_pos rfl)
  have valid : second.Valid told [Pool.card] := ⟨rfl, rfl, .cons List.lookup_cons_self .nil, rfl⟩
  have different : second.drawn ≠ first.drawn := by decide
  obtain ⟨_, _, looking⟩ := finished.looks turns (fun _ => trivial) valid
    (by simpa [Pool.requests] using different)
  have hit := looking.moves _ [] turns (.hit known)
  have both : Pool.Reachable Pool.Genuine w ⟨again, _, [.submission first (.done (.ok first.drawn)),
      .submission second (.done (.ok first.drawn))]⟩ := hit.moves _ [] turns .counted
  have drain := both.act (drains _) .drain
  let d : Delivery := ⟨task.encode, true⟩
  let emptied : World := { again with pending := [] }
  have made : again.consume = (.ok [.ok d], emptied) := rfl
  have opening : Worker.handle d = (Worker.Handling.starting task : Worker.Handling d).program := by
    rw [← Worker.Handling.program_opening, Worker.Handling.opening, Task.decode_encode]
  obtain ⟨after, ran, counts⟩ : ∃ after, emptied.run (Worker.handleAll [.ok d]) = some ((), after) ∧
      after.metrics.count (.submitted .ocr) = 1 ∧ after.metrics.count (.deduplicated .ocr) = 1 ∧
      after.metrics.count (.completed .ocr) = 1 := by
    show ∃ after, emptied.run ((Worker.handle d).bind fun _ => Worker.handleAll []) = _ ∧ _
    rw [opening]
    exact ⟨_, rfl, rfl, rfl, rfl⟩
  have worked := Worker.run_work_received made ran
  obtain ⟨_, done⟩ := drain.run Thread.worker (fun _ _ => rfl) turns Worker.work worked
  refine ⟨_, done, counters_account (Pool.fresh_deskWorld _) rfl done ?_ ?_, counts⟩
  · rintro r rest (_ | ⟨_, _ | ⟨_, _ | ⟨_, ⟨⟩⟩⟩⟩)
    · exact ⟨_, rfl⟩
    · exact ⟨_, rfl⟩
  · rintro thread (_ | ⟨_, _ | ⟨_, _ | ⟨_, ⟨⟩⟩⟩⟩)
    · rintro ⟨_, _, ⟨⟩⟩
    · rintro ⟨_, _, ⟨⟩⟩
    · rintro ⟨_, _, ⟨⟩⟩

end Memory

end Vetting
