import Vetting.Proofs.Task
import Vetting.Proofs.World

/-!
What of a world belongs to one client (`Share`), and what of it the client could ever learn
(`World.view`): what its images show, the outlines of its jobs, its entries among fingerprints, cache and
queue, and the switches. In a world that keeps clients apart (`Sane`) a call that names nothing of the
client leaves its view as it is (`Sane.view_spared`).
-/
namespace Vetting

/-- What a client can learn from the record of its job, but for times. -/
structure Outline where
  type : JobType
  status : JobStatus
  processed : Bool
  completed : Bool
  failed : Bool
  failedReason : Option String
  result : Option JobResult

def Job.outline (job : Job) : Outline where
  type := job.type
  status := job.status
  processed := job.processedAt.isSome
  completed := job.completedAt.isSome
  failed := job.failedAt.isSome
  failedReason := job.failedReason
  result := job.result

namespace Memory

/-- What belongs to a client: the ids that its submissions draw, and the references of its images. -/
structure Share where
  client : Int
  ids : List JobId
  references : List String

/-- Whether a payload is for a job of the client. -/
def Share.wants (share : Share) (payload : List UInt8) : Bool :=
  (Task.named? payload).any fun id => decide (id ∈ share.ids)

/-- What a client could ever learn of a world. -/
@[ext]
structure View where
  faults : Faults
  executors : Executors
  kinds : String → Option ImageKind
  outlines : JobId → Option Outline
  fingerprints : List (String × JobId)
  cached : Fingerprint → Option JobId
  pending : List (List UInt8)

/-- The record of a job in outline. -/
def JobTable.outline? (t : JobTable) (id : JobId) : Option Outline := (t.job? id).map Job.outline

def World.view (share : Share) (w : World) : View where
  faults := w.faults
  executors := w.executors
  kinds reference := ((w.images.lookup reference).filter (·.client = share.client)).map Image.kind
  outlines id := if id ∈ share.ids then w.store.outline? id else none
  fingerprints := w.store.fingerprints.filter fun entry => decide (entry.2 ∈ share.ids)
  cached fingerprint := (w.cache.lookup fingerprint).filter fun id => decide (id ∈ share.ids)
  pending := w.pending.filter share.wants

/-- A world that keeps a client apart from the others: what lies under its references, ids and
fingerprints is its own, and nothing else is. The fingerprints are those with these texts. -/
structure Sane (share : Share) (texts : List String) (w : World) : Prop where
  calm : w.interruptions = []
  rows : w.rows = []
  answering : w.Answering
  images : ∀ reference image, w.images.lookup reference = some image →
    image.reference = reference ∧ (image.client = share.client ↔ reference ∈ share.references)
  stored : ∀ id job, w.store.job? id = some job → (job.client = share.client ↔ id ∈ share.ids)
  taken : ∀ text id, (text, id) ∈ w.store.fingerprints → (text ∈ texts ↔ id ∈ share.ids)
  cached : ∀ fingerprint id, w.cache.lookup fingerprint = some id →
    (fingerprint.text ∈ texts ↔ id ∈ share.ids)

/-- Whether all that a call names is the client's, or nothing of it is. -/
def Names (share : Share) (texts : List String) (own : Prop) : Call → Prop
  | .lookup fingerprint => fingerprint.text ∈ texts ↔ own
  | .remember fingerprint id => (fingerprint.text ∈ texts ↔ own) ∧ (id ∈ share.ids ↔ own)
  | .create new => (new.fingerprint ∈ texts ↔ own) ∧ (new.id ∈ share.ids ↔ own) ∧
      (new.client = share.client ↔ own)
  | .abandon id _ | .start id | .complete id _ | .fail id _ => id ∈ share.ids ↔ own
  | .publish payload => share.wants payload = true ↔ own
  | .settle _ verdict => verdict ≠ .reject true
  | .consume => False
  | _ => True

/-- The job whose record a call can change. -/
def subject? : Call → Option JobId
  | .create new => some new.id
  | .abandon id _ | .start id | .complete id _ | .fail id _ => some id
  | _ => none

namespace World

variable {w : World} {c : Call} {answer : c.Reply × World}

private theorem perform_job?_other (calm : w.interruptions = []) (answered : perform c w = some answer)
    {id : JobId} (other : subject? c ≠ some id) : answer.2.store.job? id = w.store.job? id := by
  cases c with
  | execute task =>
    obtain ⟨_, _, equal⟩ := execute_eq calm answered
    rw [equal]
  | create new =>
    have different : id ≠ new.id := fun same => other (congrArg some same.symm)
    rcases create_cases new w with ⟨error, made⟩ | ⟨_, _, made⟩ | ⟨_, made⟩
    all_goals
      cases answered
      rw [made]
    exact JobTable.job?_recorded.trans (if_neg different)
  | abandon changed _ =>
    have different : id ≠ changed := fun same => other (congrArg some same.symm)
    cases answered
    simp only [abandon]
    split
    · rfl
    · exact JobTable.job?_abandon_other _ _ different
  | start changed | complete changed _ | fail changed _ =>
    have different : id ≠ changed := fun same => other (congrArg some same.symm)
    cases answered
    simp only [start, complete, fail, stored]
    repeat' split
    all_goals first
      | rfl
      | exact JobTable.job?_change_other different
  | _ =>
    cases answered
    simp only [publish, consume, settle]
    repeat' split
    all_goals rfl

/-- The jobs of a store after a call: they were there, or the call recorded one. -/
theorem perform_client (calm : w.interruptions = []) (answered : perform c w = some answer) {id : JobId}
    {job : Job} (found : answer.2.store.job? id = some job) :
    (∃ earlier, w.store.job? id = some earlier ∧ job.client = earlier.client) ∨
      ∃ new, c = .create new ∧ id = new.id ∧ job.client = new.client := by
  by_cases made : ∃ new, c = .create new ∧ id = new.id
  · obtain ⟨new, rfl, rfl⟩ := made
    rcases create_cases new w with ⟨error, made⟩ | ⟨_, _, made⟩ | ⟨_, made⟩
    all_goals
      cases answered
      rw [made] at found
    · exact .inl ⟨job, found, rfl⟩
    · exact .inl ⟨job, found, rfl⟩
    · rw [JobTable.job?_recorded, if_pos rfl] at found
      cases found
      exact .inr ⟨new, rfl, rfl, rfl⟩
  · have other : ∀ new, c = .create new → new.id ≠ id := fun new call same => made ⟨new, call, same.symm⟩
    cases known : w.store.job? id with
    | none =>
      rw [perform_absent calm answered other known] at found
      cases found
    | some earlier =>
      obtain ⟨later, stays, advances⟩ := perform_advances answered other known
      cases found.symm.trans stays
      exact .inl ⟨earlier, rfl, advances.client⟩

/-- No call takes a fingerprint but the one that records a job. -/
theorem perform_fingerprints (calm : w.interruptions = []) (answered : perform c w = some answer)
    {entry : String × JobId} (mem : entry ∈ answer.2.store.fingerprints) :
    entry ∈ w.store.fingerprints ∨ ∃ new, c = .create new ∧ entry = (new.fingerprint, new.id) := by
  cases c with
  | create new =>
    rcases create_cases new w with ⟨error, made⟩ | ⟨_, _, made⟩ | ⟨_, made⟩
    all_goals
      cases answered
      rw [made] at mem
    · exact .inl mem
    · exact .inl mem
    · exact (List.mem_append.1 mem).imp_right fun last => ⟨new, rfl, List.mem_singleton.1 last⟩
  | abandon id reason =>
    cases answered
    simp only [abandon] at mem
    split at mem
    · exact .inl mem
    rcases JobTable.abandon_cases w.now id reason w.store with ⟨_, left⟩ | ⟨_, left⟩
    · rw [left] at mem
      exact .inl mem
    · rw [left] at mem
      exact .inl (List.mem_of_mem_filter mem)
  | start _ | complete _ _ | fail _ _ | consume | settle _ _ | execute _ | wait _ | count _ =>
    rw [(perform_ofWorker calm answered trivial).1] at mem
    exact .inl mem
  | _ =>
    cases answered
    simp only [publish] at mem
    repeat' split at mem
    all_goals exact .inl mem

/-- The cache learns nothing but what it is told. -/
theorem perform_cache (calm : w.interruptions = []) (answered : perform c w = some answer)
    {fingerprint : Fingerprint} {id : JobId} (found : answer.2.cache.lookup fingerprint = some id) :
    w.cache.lookup fingerprint = some id ∨ c = .remember fingerprint id := by
  cases c with
  | remember told known =>
    cases answered
    dsimp only at found
    split at found
    · exact .inl found
    rw [Assoc.lookup_put] at found
    split at found
    · next same =>
      cases found
      exact .inr (by rw [same])
    · exact .inl found
  | start _ | complete _ _ | fail _ _ | consume | settle _ _ | execute _ | wait _ | count _ =>
    rw [(perform_ofWorker calm answered trivial).2] at found
    exact .inl found
  | _ =>
    cases answered
    simp only [create, abandon, publish] at found
    repeat' split at found
    all_goals exact .inl found

end World

namespace Sane

variable {share : Share} {texts : List String} {w : World} {c : Call} {answer : c.Reply × World}

/-- A world keeps a client apart as long as each call names what is the client's or what is not. -/
theorem perform {own : Prop} (sane : Sane share texts w) (names : Names share texts own c)
    (answered : w.perform c = some answer) : Sane share texts answer.2 := by
  have settings := World.perform_settings sane.calm answered
  refine ⟨settings.interruptions.trans sane.calm, settings.rows.trans sane.rows, ?_, ?_, ?_, ?_, ?_⟩
  · rw [World.Answering, settings.executors]
    exact sane.answering
  · rw [settings.images]
    exact sane.images
  · intro id job found
    rcases World.perform_client sane.calm answered found with ⟨earlier, known, client⟩ | ⟨new, rfl, rfl, client⟩
    · rw [client]
      exact sane.stored id earlier known
    · rw [client]
      exact names.2.2.trans names.2.1.symm
  · intro text id mem
    rcases World.perform_fingerprints sane.calm answered mem with old | ⟨new, rfl, same⟩
    · exact sane.taken text id old
    · cases same
      exact names.1.trans names.2.1.symm
  · intro fingerprint id found
    rcases World.perform_cache sane.calm answered found with old | rfl
    · exact sane.cached fingerprint id old
    · exact names.1.trans names.2.symm

private theorem fingerprints_spared (sane : Sane share texts w) (spares : Names share texts False c)
    (answered : w.perform c = some answer) :
    answer.2.store.fingerprints.filter (fun entry => decide (entry.2 ∈ share.ids)) =
      w.store.fingerprints.filter fun entry => decide (entry.2 ∈ share.ids) := by
  cases c with
  | create new =>
    have other : new.id ∉ share.ids := fun mine => spares.2.1.1 mine
    rcases World.create_cases new w with ⟨error, made⟩ | ⟨_, _, made⟩ | ⟨_, made⟩
    all_goals
      cases answered
      rw [made]
    simp [JobTable.recorded, other]
  | abandon id reason =>
    have other : id ∉ share.ids := fun mine => spares.1 mine
    cases answered
    simp only [World.abandon]
    split
    · rfl
    rcases JobTable.abandon_cases w.now id reason w.store with ⟨_, left⟩ | ⟨_, left⟩
    · rw [left]
    · rw [left, List.filter_filter]
      refine List.filter_congr fun entry _ => ?_
      by_cases mine : entry.2 ∈ share.ids
      · have different : entry.2 ≠ id := fun same => other (same ▸ mine)
        simp [mine, different]
      · simp [mine]
  | start _ | complete _ _ | fail _ _ | consume | settle _ _ | execute _ | wait _ | count _ =>
    rw [(World.perform_ofWorker sane.calm answered trivial).1]
  | remember _ _ | publish _ =>
    cases answered
    simp only [World.publish]
    split <;> rfl
  | _ =>
    cases answered
    rfl

private theorem cached_spared (sane : Sane share texts w) (spares : Names share texts False c)
    (answered : w.perform c = some answer) (fingerprint : Fingerprint) :
    (answer.2.cache.lookup fingerprint).filter (fun id => decide (id ∈ share.ids)) =
      (w.cache.lookup fingerprint).filter fun id => decide (id ∈ share.ids) := by
  cases c with
  | remember told id =>
    cases answered
    dsimp only
    split
    · rfl
    rw [Assoc.lookup_put]
    split
    · next same =>
      -- What the cache had under the fingerprint is not the client's either.
      subst same
      have other : id ∉ share.ids := fun mine => spares.2.1 mine
      cases known : w.cache.lookup fingerprint with
      | none => simp [other]
      | some earlier =>
        have foreign : earlier ∉ share.ids := fun mine =>
          spares.1.1 ((sane.cached fingerprint earlier known).2 mine)
        rw [Option.filter_some_neg (by simpa using other), Option.filter_some_neg (by simpa using foreign)]
    · rfl
  | start _ | complete _ _ | fail _ _ | consume | settle _ _ | execute _ | wait _ | count _ =>
    rw [(World.perform_ofWorker sane.calm answered trivial).2]
  | create _ | abandon _ _ | publish _ =>
    cases answered
    simp only [World.create, World.abandon, World.publish]
    repeat' split
    all_goals rfl
  | _ =>
    cases answered
    rfl

private theorem pending_spared (sane : Sane share texts w) (spares : Names share texts False c)
    (answered : w.perform c = some answer) :
    answer.2.pending.filter share.wants = w.pending.filter share.wants := by
  cases c with
  | execute task =>
    obtain ⟨_, _, equal⟩ := World.execute_eq sane.calm answered
    rw [equal]
  | publish payload =>
    have other : share.wants payload = false := Bool.eq_false_iff.2 fun mine => spares.1 mine
    cases answered
    simp only [World.publish]
    split
    · rfl
    · simp [other]
  | settle d verdict =>
    cases answered
    simp only [World.settle]
    split
    · rfl
    split
    · rfl
    · next requeue =>
      cases requeue with
      | true => exact absurd rfl spares
      | false => rfl
  | consume => exact spares.elim
  | _ =>
    cases answered
    simp only [World.create, World.abandon, World.start, World.complete, World.fail, World.stored]
    repeat' split
    all_goals rfl

/-- A call that names nothing of the client leaves its view. -/
theorem view_spared (sane : Sane share texts w) (spares : Names share texts False c)
    (answered : w.perform c = some answer) : answer.2.view share = w.view share := by
  have settings := World.perform_settings sane.calm answered
  ext1
  · exact settings.faults
  · exact settings.executors
  · simp only [World.view, settings.images]
  · funext id
    simp only [World.view]
    split
    · next mine =>
      have other : subject? c ≠ some id := by
        intro same
        cases c with
        | create new =>
          cases same
          exact spares.2.1.1 mine
        | abandon _ _ | start _ | complete _ _ | fail _ _ =>
          cases same
          exact spares.1 mine
        | _ => cases same
      rw [JobTable.outline?, World.perform_job?_other sane.calm answered other, JobTable.outline?]
    · rfl
  · exact sane.fingerprints_spared spares answered
  · exact funext (sane.cached_spared spares answered)
  · exact sane.pending_spared spares answered

end Sane

/-- Whether a program ends and leaves what a client sees. -/
def Spares {α : Type} (share : Share) (texts : List String) (p : Service α) : Prop :=
  ∀ ⦃w⦄, Sane share texts w → ∃ a after, w.run p = some (a, after) ∧ Sane share texts after ∧
    after.view share = w.view share

namespace Spares

variable {α : Type} {share : Share} {texts : List String}

theorem done (a : α) : Spares share texts (.done a) := fun w sane => ⟨a, w, rfl, sane, rfl⟩

theorem call {c : Call} {f : c.Reply → Service α} (spares : Names share texts False c)
    (next : ∀ reply, Spares share texts (f reply)) : Spares share texts (.call c f) := by
  intro w sane
  obtain ⟨⟨reply, mid⟩, answered⟩ := World.exists_perform sane.answering c
  obtain ⟨a, after, ran, stays, same⟩ := next reply (sane.perform spares answered)
  exact ⟨a, after, (World.run_answered answered).trans ran, stays,
    same.trans (sane.view_spared spares answered)⟩

/-- A job that is there already and has the fingerprint is as foreign as the one to be recorded. -/
theorem create {new : NewJob} {f : Except StoreError Creation → Service α}
    (spares : Names share texts False (.create new))
    (next : ∀ reply, (∀ known, reply = .ok (.existing known) → known ∉ share.ids) →
      Spares share texts (f reply)) : Spares share texts (.call (.create new) f) := by
  intro w sane
  have answered : w.perform (.create new) = some (w.create new) := rfl
  have foreign : ∀ known, (w.create new).1 = .ok (.existing known) → known ∉ share.ids := by
    intro known told mine
    rcases World.create_cases new w with ⟨error, made⟩ | ⟨id, taken, made⟩ | ⟨_, made⟩
    · rw [made] at told
      cases told
    · rw [made] at told
      cases told
      exact spares.1.1 ((sane.taken _ _ (Assoc.mem_of_lookup taken)).2 mine)
    · rw [made] at told
      cases told
  obtain ⟨a, after, ran, stays, same⟩ := next _ foreign (sane.perform spares answered)
  exact ⟨a, after, (World.run_answered answered).trans ran, stays,
    same.trans (sane.view_spared spares answered)⟩

theorem of_within {p : Service α} (spares : p.Within (Names share texts False)) :
    Spares share texts p := by
  induction p with
  | done a => exact .done a
  | call c next ih => exact .call spares.1 fun reply => ih reply (spares.2 reply)

end Spares

end Memory

end Vetting
