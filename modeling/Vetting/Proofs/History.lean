import Vetting.Proofs.Opening

/-!
Histories of the store of jobs. Whatever operations are made on it, in whatever order, whatever fails and
whatever time it is, a record that is there stays, keeps what it was made with and only moves on, and the
record of a job that is over never changes again (`record_advances`).
-/
namespace Vetting.Memory

namespace World

/-- What comes next in the life of a world: a call on a service, which records no job under an id that is
taken, or a change that no call makes. -/
inductive Happens (w : World) : World → Prop
  | call {c : Call} {reply : c.Reply} {after : World}
      (unused : ∀ new, c = .create new → w.store.job? new.id = none)
      (answered : w.perform c = some (reply, after)) : Happens w after
  | disturb (change : Disturbance) : Happens w (change.apply w)

/-- Two worlds, the second of which comes of the first. -/
def History : World → World → Prop := Relation.ReflTransGen Happens

variable {w after : World} {id : JobId} {job : Job}

theorem Happens.advances (happens : w.Happens after) (found : w.store.job? id = some job) :
    ∃ later, after.store.job? id = some later ∧ job.Advances later := by
  cases happens with
  | call unused answered =>
    refine perform_advances answered ?_ found
    rintro new rfl rfl
    rw [unused new rfl] at found
    cases found
  | disturb change => exact ⟨job, by rw [(change.apply_keeps w).1, found], .refl job⟩

end World

/-- Every record stays, keeps what it was made with and never goes back, and once its job is over it does
not change. -/
theorem record_advances {w after : World} (history : w.History after) {id : JobId} {job : Job}
    (found : w.store.job? id = some job) :
    ∃ later, after.store.job? id = some later ∧ job.Advances later := by
  induction history with
  | refl => exact ⟨job, found, .refl job⟩
  | tail _ happens ih =>
    obtain ⟨mid, there, first⟩ := ih
    obtain ⟨later, stays, second⟩ := happens.advances there
    exact ⟨later, stays, first.trans second⟩

/-- The job of a card is started and completed. After that it is failed and abandoned, and then taken up
again, all of which leaves its record as it is. -/
theorem record_advances_card : ∃ (fresh done after : World) (created completed : Job),
    fresh.History done ∧ done.History after ∧
    fresh.store.job? (Pool.cardRequest 1).drawn = some created ∧ created.status = .created ∧
    done.store.job? (Pool.cardRequest 1).drawn = some completed ∧ completed.status = .completed ∧
    created.Advances completed ∧ after.store.job? (Pool.cardRequest 1).drawn = some completed := by
  let id := (Pool.cardRequest 1).drawn
  let fresh := ((Pool.deskWorld fun _ => false).create ((Pool.cardRequest 1).job [Pool.card])).2
  let done := ((fresh.start id).2.complete id (.ocr simulatedDetails)).2
  let after := (((done.fail id "late").2.abandon id "late").2.start id).2
  have begins : fresh.History done :=
    .tail (.tail .refl (.call (c := .start id) nofun rfl))
      (.call (c := .complete id (.ocr simulatedDetails)) nofun rfl)
  have goesOn : done.History after :=
    .tail (.tail (.tail .refl (.call (c := .fail id "late") nofun rfl))
      (.call (c := .abandon id "late") nofun rfl)) (.call (c := .start id) nofun rfl)
  have recorded : fresh.store.job? id = some _ := rfl
  obtain ⟨completed, there, advances⟩ := record_advances begins recorded
  have status : completed.status = .completed := by
    cases (show done.store.job? id = some _ from rfl).symm.trans there
    rfl
  obtain ⟨later, stays, same⟩ := record_advances goesOn there
  refine ⟨fresh, done, after, _, completed, begins, goesOn, recorded, rfl, there, status, advances, ?_⟩
  rw [stays, same.frozen (by rw [status]; rfl)]

end Vetting.Memory
