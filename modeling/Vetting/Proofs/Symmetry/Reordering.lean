import Vetting.Proofs.Attempt

/-!
Worlds with the images of one record changed (`World.withImages`), say their order. No call of a worker
looks at the images of a record, so each goes in such a world as it goes without the change
(`perform_alike`); the only calls that do are the recording and the finding of jobs.
-/
namespace Vetting

/-- Whether a worker makes such a call for a delivery. -/
def Call.OfDelivery : Call → Prop
  | .start _ | .complete .. | .fail .. | .settle .. | .execute _ | .wait _ | .count _ => True
  | _ => False

namespace Assoc

variable {κ α : Type} [DecidableEq κ] {key : κ} {f g : α → α}

/-- Changes what is under a key. -/
def adjust (key : κ) (f : α → α) (pairs : List (κ × α)) : List (κ × α) :=
  pairs.map fun (k, value) => (k, if k = key then f value else value)

@[simp] theorem lookup_adjust (other : κ) (pairs : List (κ × α)) :
    (adjust key f pairs).lookup other =
      (pairs.lookup other).map fun value => if other = key then f value else value := by
  induction pairs with
  | nil => rfl
  | cons pair rest ih =>
    obtain ⟨k, value⟩ := pair
    show ((k, if k = key then f value else value) :: adjust key f rest).lookup other = _
    rw [lookup_cons, lookup_cons, ih]
    by_cases same : other = k
    · subst same
      rw [if_pos rfl, if_pos rfl, Option.map_some]
    · rw [if_neg same, if_neg same]

@[simp] theorem adjust_put (other : κ) (value : α) (pairs : List (κ × α)) :
    adjust key f (put other value pairs) =
      put other (if other = key then f value else value) (adjust key f pairs) := by
  induction pairs with
  | nil => rfl
  | cons pair rest ih =>
    obtain ⟨k, old⟩ := pair
    by_cases same : k = other
    · subst same
      simp [adjust, put]
    · simp only [adjust, List.map_cons, put, if_neg same] at ih ⊢
      rw [ih]

/-- A value that was put under the key in place of all others is the only one that changes. -/
@[simp] theorem adjust_renew (value : α) (pairs : List (κ × α)) :
    adjust key f (renew key value pairs) = renew key (f value) pairs := by
  have kept : adjust key f (drop key pairs) = drop key pairs := by
    refine (List.map_congr_left fun pair mem => ?_).trans (List.map_id _)
    have other : pair.1 ≠ key := by simpa using (List.mem_filter.1 mem).2
    simp only [if_neg other, id]
  rw [renew, adjust, List.map_append, ← adjust, kept]
  simp [renew]

@[simp] theorem adjust_adjust (pairs : List (κ × α)) :
    adjust key f (adjust key g pairs) = adjust key (f ∘ g) pairs := by
  simp only [adjust, List.map_map]
  refine List.map_congr_left fun pair _ => ?_
  by_cases same : pair.1 = key
  · simp [same]
  · simp [same]

end Assoc

/-- A record with its images changed. -/
def Job.withImages (f : List Int → List Int) (job : Job) : Job := { job with imageIds := f job.imageIds }

namespace Memory

namespace JobTable

variable {t : JobTable} {id other : JobId} {f g : List Int → List Int} {now : Instant}

/-- A store in which the images of one record are changed. -/
def withImages (id : JobId) (f : List Int → List Int) (t : JobTable) : JobTable :=
  { t with jobs := Assoc.adjust id (Job.withImages f) t.jobs }

@[simp] theorem job?_withImages : (t.withImages id f).job? other =
    (t.job? other).map fun job => if other = id then job.withImages f else job :=
  Assoc.lookup_adjust other t.jobs

@[simp] theorem withImages_withImages : (t.withImages id g).withImages id f = t.withImages id (f ∘ g) :=
  congrArg (fun jobs => { t with jobs }) (Assoc.adjust_adjust t.jobs)

/-- A change that leaves the images goes as it goes without them. -/
theorem change_withImages (sources : List JobStatus) {apply : Job → Job}
    (spares : ∀ job, apply (job.withImages f) = (apply job).withImages f) :
    (t.withImages id f).change other sources apply =
      ((t.change other sources apply).1, (t.change other sources apply).2.withImages id f) := by
  unfold change
  rw [job?_withImages]
  cases t.job? other with
  | none => rfl
  | some job =>
    have status : (if other = id then job.withImages f else job).status = job.status := by
      split <;> rfl
    have applied : apply (if other = id then job.withImages f else job) =
        if other = id then (apply job).withImages f else apply job := by
      split
      · exact spares job
      · rfl
    simp only [Option.map_some, status, applied]
    split
    · simp only [withImages, Assoc.adjust_put]
    · rfl

theorem abandon_withImages (reason : String) :
    (t.withImages id f).abandon now other reason = (t.abandon now other reason).withImages id f := by
  have changed : (t.withImages id f).change other [.created] (failed now reason) = _ :=
    change_withImages [.created] fun _ => rfl
  rw [abandon, changed, abandon]
  rcases t.change other [.created] (failed now reason) with ⟨transition, after⟩
  cases transition <;> rfl

theorem recorded_withImages (new : NewJob) : (t.recorded now new).withImages new.id f =
    t.recorded now { new with imageIds := f new.imageIds } := by
  simp only [recorded, withImages, Assoc.adjust_renew]
  rfl

end JobTable

namespace World

variable {w v : World} {id : JobId} {f g : List Int → List Int}

/-- A world in which the images of one record are changed. -/
def withImages (id : JobId) (f : List Int → List Int) (w : World) : World :=
  { w with store := w.store.withImages id f }

/-- A world without the images of a record, and without what is pending and how deliveries were settled. -/
def bare (id : JobId) (w : World) : World :=
  { w.withImages id fun _ => [] with pending := [], settlements := [] }

/-- The end of a run, of whose world only that much is left. -/
def bareEnd {α : Type} (id : JobId) : α × World → α × World
  | (a, after) => (a, after.bare id)

@[simp] theorem bare_withImages : (w.withImages id f).bare id = w.bare id :=
  congrArg (fun store : JobTable => { w with store, pending := [], settlements := [] })
    JobTable.withImages_withImages

/-- What a change of one job leaves, if the change leaves its images. -/
private theorem stored_bare {other : JobId} (sources : List JobStatus) {apply : Job → Job}
    (spares : ∀ job, apply (job.withImages fun _ => []) = (apply job).withImages fun _ => []) :
    (w.bare id).stored ((w.bare id).store.change other sources apply) =
      ((w.stored (w.store.change other sources apply)).1,
        (w.stored (w.store.change other sources apply)).2.bare id) := by
  have changed : (w.bare id).store.change other sources apply = _ :=
    JobTable.change_withImages sources spares
  rw [changed]
  rfl

@[simp] theorem start_bare (other : JobId) :
    (w.bare id).start other = ((w.start other).1, (w.start other).2.bare id) := by
  have faults : (w.bare id).faults = w.faults := rfl
  rw [start, start, faults]
  split
  · rfl
  split
  · exact stored_bare [] fun _ => rfl
  · exact stored_bare [.created, .processing] fun _ => rfl

/-- What a write that ends a job leaves, whatever it writes. -/
private theorem terminal_bare {outcome bared : Except StoreError Transition × World} {other : JobId}
    {sources : List JobStatus} {apply : Job → Job}
    (written : outcome = if w.faults .terminalWrites then (.error storeFailure, w)
      else w.stored (w.store.change other sources apply))
    (also : bared = if (w.bare id).faults .terminalWrites then (.error storeFailure, w.bare id)
      else (w.bare id).stored ((w.bare id).store.change other sources apply))
    (spares : ∀ job, apply (job.withImages fun _ => []) = (apply job).withImages fun _ => []) :
    bared = (outcome.1, outcome.2.bare id) := by
  have faults : (w.bare id).faults = w.faults := rfl
  rw [also, written, faults]
  split
  · rfl
  · exact stored_bare sources spares

@[simp] theorem complete_bare (other : JobId) (result : JobResult) :
    (w.bare id).complete other result =
      ((w.complete other result).1, (w.complete other result).2.bare id) :=
  terminal_bare rfl rfl fun _ => rfl

@[simp] theorem fail_bare (other : JobId) (reason : String) :
    (w.bare id).fail other reason = ((w.fail other reason).1, (w.fail other reason).2.bare id) :=
  terminal_bare rfl rfl fun _ => rfl

@[simp] theorem interrupt_bare (interruption : Interruption) :
    (w.bare id).interrupt interruption = (w.interrupt interruption).bare id := by
  cases interruption with
  | completes other => exact congrArg Prod.snd (complete_bare other (.faceMatch 1))
  | fails other => exact congrArg Prod.snd (fail_bare other "settled elsewhere")
  | breaksWrites => rfl

@[simp] theorem execute_bare (task : Task) :
    (w.bare id).execute task = (w.execute task).map (bareEnd id) := by
  have executors : (w.bare id).executors = w.executors := rfl
  have interruptions : (w.bare id).interruptions = w.interruptions := rfl
  unfold execute
  rw [executors]
  cases w.executors.execute task with
  | hangs => rfl
  | answers latency outcome =>
    let later : World := { w with waited := w.waited + latency.nanos }
    dsimp only
    rw [interruptions]
    cases w.interruptions.lookup task.jobType with
    | none => rfl
    | some entry =>
      dsimp only [Option.map_some]
      split
      · exact congrArg (fun u => some (outcome, u)) (interrupt_bare (w := later) entry.2)
      · rfl

@[simp] theorem settle_bare (d : Delivery) (verdict : Verdict) :
    (w.settle d verdict).2.bare id = w.bare id := by
  unfold settle
  split
  · rfl
  · cases verdict <;> rfl

/-- The settling of either of two deliveries that the queue hears of alike. -/
theorem settle_alike {d other : Delivery} (hears : other.settles = d.settles)
    (same : w.bare id = v.bare id) (verdict : Verdict) :
    bareEnd id (w.settle d verdict) = bareEnd id (v.settle other verdict) := by
  have reply : (w.settle d verdict).1 = (v.settle other verdict).1 := by
    unfold settle
    rw [hears]
    split
    · rfl
    · cases verdict <;> rfl
  refine Prod.ext reply ?_
  show (w.settle d verdict).2.bare id = (v.settle other verdict).2.bare id
  rw [settle_bare, settle_bare, same]

private theorem alike_of_commutes {c : Call}
    (commutes : ∀ u : World, (u.bare id).perform c = (u.perform c).map (bareEnd id))
    (same : w.bare id = v.bare id) : (w.perform c).map (bareEnd id) = (v.perform c).map (bareEnd id) := by
  rw [← commutes, ← commutes, same]

/-- A call for a delivery goes alike in worlds that are the same but for the images of a record, what is
pending and how deliveries were settled. -/
theorem perform_alike {c : Call} (own : c.OfDelivery) (same : w.bare id = v.bare id) :
    (w.perform c).map (bareEnd id) = (v.perform c).map (bareEnd id) := by
  cases c with
  | start other => exact alike_of_commutes (fun u => congrArg some (start_bare other)) same
  | complete other result =>
    exact alike_of_commutes (fun u => congrArg some (complete_bare other result)) same
  | fail other reason =>
    exact alike_of_commutes (fun u => congrArg some (fail_bare other reason)) same
  | settle d verdict => exact congrArg some (settle_alike rfl same verdict)
  | execute task => exact alike_of_commutes (fun u => execute_bare task) same
  | wait span => exact alike_of_commutes (fun u => rfl) same
  | count counter => exact alike_of_commutes (fun u => rfl) same
  | _ => exact own.elim

variable {α : Type}

@[simp] theorem run_call {c : Call} {next : c.Reply → Service α} :
    w.run (.call c next) = (w.perform c).bind fun (reply, after) => after.run (next reply) := by
  rw [run, Program.run]
  cases w.perform c with
  | none => rfl
  | some answer => rfl

/-- What goes on alike after calls that were answered alike. -/
theorem bind_alike {ρ : Type} {first second : Option (ρ × World)}
    (same : first.map (bareEnd id) = second.map (bareEnd id)) {f g : ρ × World → Option (α × World)}
    (rest : ∀ reply after later, second = some (reply, later) → after.bare id = later.bare id →
      (f (reply, after)).map (bareEnd id) = (g (reply, later)).map (bareEnd id)) :
    (first.bind f).map (bareEnd id) = (second.bind g).map (bareEnd id) := by
  cases first with
  | none =>
    rw [Option.map_none, eq_comm, Option.map_eq_none_iff] at same
    rw [same]
    rfl
  | some end' =>
    obtain ⟨⟨reply, later⟩, answered, equal⟩ := Option.map_eq_some_iff.1 same.symm
    obtain ⟨told, after⟩ := end'
    obtain ⟨rfl, worlds⟩ := Prod.mk.inj equal
    subst answered
    exact rest reply after later rfl worlds.symm

end World

end Memory

end Vetting
