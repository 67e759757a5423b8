import Vetting.Proofs.Tenancy.Lockstep
import Vetting.Proofs.Worker

/-!
Drains of the queue and a client. A worker's calls for a delivery are all about the job that it names
(`within_delivery`), so deliveries for others leave what the client sees, and a drain goes alike in worlds
in which it sees the same (`Alike.work`), whatever else is in their queues.
-/
namespace Vetting.Memory

open Worker

/-- Two lists that differ in elements that are not chosen only. -/
inductive Interleaved {α : Type} (chosen : α → Bool) : List α → List α → Prop
  | nil : Interleaved chosen [] []
  | left {a : α} {l m : List α} (other : chosen a = false) (rest : Interleaved chosen l m) :
      Interleaved chosen (a :: l) m
  | right {a : α} {l m : List α} (other : chosen a = false) (rest : Interleaved chosen l m) :
      Interleaved chosen l (a :: m)
  | both {a : α} {l m : List α} (common : chosen a = true) (rest : Interleaved chosen l m) :
      Interleaved chosen (a :: l) (a :: m)

theorem interleaved_of_filter_eq {α : Type} {chosen : α → Bool} {l m : List α}
    (same : l.filter chosen = m.filter chosen) : Interleaved chosen l m := by
  induction l generalizing m with
  | nil =>
    induction m with
    | nil => exact .nil
    | cons b m ih =>
      cases also : chosen b with
      | true => simp [also] at same
      | false => exact .right also (ih (by simpa [also] using same))
  | cons a l ih =>
    cases common : chosen a with
    | false => exact .left common (ih (by simpa [common] using same))
    | true =>
      induction m with
      | nil => simp [common] at same
      | cons b m ihm =>
        cases also : chosen b with
        | false => exact .right also (ihm (by simpa [also] using same))
        | true =>
          simp only [List.filter_cons_of_pos common, List.filter_cons_of_pos also, List.cons.injEq] at same
          obtain ⟨rfl, same⟩ := same
          exact .both common (ih same)

variable {share : Share} {texts others : List String} {w v : World}

/-- Whether a call is about a client's job, or not at all, and tells of no time. -/
def Concerns (share : Share) (own : Prop) (c : Call) : Prop := Timeless c ∧ ∀ texts, Names share texts own c

private theorem within_settled {own : Prop} (d : Delivery) {verdict : Verdict} (outcome : DeliveryOutcome)
    (kept : verdict ≠ .reject true) : (settled d verdict outcome).Within (Concerns share own) :=
  ⟨⟨trivial, fun _ => kept⟩, fun _ => trivial⟩

private theorem within_markFailed {own : Prop} (d : Delivery) {task : Task} (reason : String)
    (named : task.jobId ∈ share.ids ↔ own) :
    ((markFailed task reason).bind fun _ => settled d (.reject false) .failed).Within (Concerns share own) := by
  refine ⟨⟨trivial, fun _ => named⟩, fun reply => ?_⟩
  match reply with
  | .ok .applied => exact ⟨⟨trivial, fun _ => trivial⟩, fun _ => within_settled d _ (by decide)⟩
  | .ok (.skipped _) => exact within_settled d _ (by decide)
  | .error _ => exact within_settled d _ (by decide)

private theorem within_afterExecute {own : Prop} (d : Delivery) {task : Task}
    (named : task.jobId ∈ share.ids ↔ own) (outcome : Except ExecutionError JobResult) :
    (afterExecute d task outcome).Within (Concerns share own) := by
  cases outcome with
  | error e => exact within_markFailed d e.message named
  | ok result =>
    refine ⟨⟨trivial, fun _ => named⟩, fun reply => ?_⟩
    match reply with
    | .ok .applied => exact ⟨⟨trivial, fun _ => trivial⟩, fun _ => within_settled d _ (by decide)⟩
    | .ok (.skipped _) => exact within_settled d _ (by decide)
    | .error _ => exact within_settled d _ (by decide)

/-- What a worker does about a delivery is about the job that the payload names. -/
theorem within_delivery (share : Share) (d : Delivery) :
    (handle d).Within (Concerns share (share.wants d.payload = true)) := by
  unfold handle
  cases read : Task.decode d.payload with
  | error e => exact ⟨⟨trivial, fun _ => trivial⟩, fun _ => within_settled d _ (by decide)⟩
  | ok task =>
    have named : task.jobId ∈ share.ids ↔ share.wants d.payload = true := by
      simp [Share.wants, Task.named?, read, Except.toOption]
    refine ⟨⟨trivial, fun _ => named⟩, fun reply => ?_⟩
    cases reply with
    | error e => exact within_markFailed d e.message named
    | ok transition =>
      cases transition with
      | applied =>
        exact ⟨⟨trivial, fun _ => trivial⟩, fun outcome => ⟨⟨trivial, fun _ => trivial⟩,
          fun _ => within_afterExecute d named outcome⟩⟩
      | skipped status =>
        cases status with
        | none => exact within_settled d _ (by decide)
        | some status =>
          refine within_settled d _ ?_
          cases status.isTerminal <;> decide

private theorem spares_handle {d : Delivery} (foreign : share.wants d.payload = false) :
    Spares share texts (handle d) := by
  have within := within_delivery share d
  rw [foreign, eq_false Bool.false_ne_true] at within
  exact .of_within (within.imp fun c concerns => concerns.2 texts)

private theorem parallel_handle {d : Delivery} (mine : share.wants d.payload = true) :
    Parallel share texts others (handle d) (handle d) Eq := by
  have within := within_delivery share d
  rw [eq_true mine] at within
  exact .of_within (within.imp fun c concerns => ⟨concerns.1, concerns.2 texts, concerns.2 others⟩)

/-- Whether what was received is for the client; an error is for all. -/
def Share.awaits (share : Share) : Except QueueError Delivery → Bool
  | .ok d => share.wants d.payload
  | .error _ => true

private theorem parallel_handleAll {received also : List (Except QueueError Delivery)}
    (interleaved : Interleaved share.awaits received also) :
    Parallel share texts others (handleAll received) (handleAll also) fun _ _ => True := by
  induction interleaved with
  | nil => exact .done trivial
  | @left entry l m other _ ih =>
    cases entry with
    | error e => cases other
    | ok d => exact .left (spares_handle other) fun _ => ih
  | @right entry l m other _ ih =>
    cases entry with
    | error e => cases other
    | ok d => exact .right (spares_handle other) fun _ => ih
  | @both entry l m common _ ih =>
    cases entry with
    | error e => exact .call trivial trivial trivial fun _ => ih
    | ok d => exact .bind (parallel_handle common) fun _ _ _ => ih

private theorem Sane.emptied (sane : Sane share texts w) : Sane share texts { w with pending := [] } :=
  ⟨sane.calm, sane.rows, sane.answering, sane.images, sane.stored, sane.taken, sane.cached⟩

/-- What a queue hands out that works. -/
def World.received (w : World) : List (Except QueueError Delivery) :=
  let deliveries := w.pending.map fun payload => .ok ⟨payload, w.faults .receive || !w.faults .settle⟩
  if w.faults .receive then .error World.brokerFailure :: deliveries else deliveries

private theorem World.consume_broken (broken : w.faults .consume = true) :
    w.consume = (.error World.consumerFailure, w) := by
  simp [World.consume, broken]

private theorem World.consume_working (working : w.faults .consume = false) :
    w.consume = (.ok w.received, { w with pending := [] }) := by
  rw [World.consume, working, if_neg Bool.false_ne_true]
  rfl

/-- Of what the queues hand out the client awaits the same. -/
theorem Alike.received (alike : Alike share texts others w v) :
    w.received.filter share.awaits = v.received.filter share.awaits := by
  have pending : ∀ settles, (w.pending.map fun payload => Except.ok ⟨payload, settles⟩).filter share.awaits =
      (v.pending.map fun payload => Except.ok ⟨payload, settles⟩).filter share.awaits := by
    intro settles
    rw [List.filter_map, List.filter_map]
    exact congrArg (List.map _) alike.pending_eq
  simp only [World.received, alike.fault_eq]
  split
  · exact congrArg (.error World.brokerFailure :: ·) (pending _)
  · exact pending _

/-- A drain goes alike in worlds in which the client sees the same. -/
theorem Alike.work (alike : Alike share texts others w v) :
    ∃ result after other later, w.run Worker.work = some (result, after) ∧
      v.run Worker.work = some (other, later) ∧ Alike share texts others after later := by
  cases barred : w.faults .consume with
  | true =>
    have too : v.faults .consume = true := alike.fault_eq .consume ▸ barred
    have here : w.perform .consume = some (_, _) := congrArg some (World.consume_broken barred)
    have there : v.perform .consume = some (_, _) := congrArg some (World.consume_broken too)
    exact ⟨_, w, _, v, World.run_answered here, World.run_answered there, alike⟩
  | false =>
    have too : v.faults .consume = false := alike.fault_eq .consume ▸ barred
    have here : w.perform .consume = some (_, _) := congrArg some (World.consume_working barred)
    have there : v.perform .consume = some (_, _) := congrArg some (World.consume_working too)
    have emptied : Alike share texts others { w with pending := [] } { v with pending := [] } := by
      refine ⟨alike.left.emptied, alike.right.emptied, ?_⟩
      ext1
      · exact alike.faults_eq
      · exact alike.executors_eq
      · exact alike.kinds_eq
      · exact alike.outlines_eq
      · exact alike.fingerprints_eq
      · exact alike.cached_eq
      · rfl
    have rests : Parallel share texts others (handleRest w.received) (handleRest v.received)
        fun _ _ => True :=
      .bind (parallel_handleAll (interleaved_of_filter_eq alike.received)) fun _ _ _ => .done trivial
    obtain ⟨result, after, other, later, ran, goes, stay, _⟩ := rests emptied
    exact ⟨result, after, other, later, (World.run_answered here).trans ran,
      (World.run_answered there).trans goes, stay⟩

end Vetting.Memory
