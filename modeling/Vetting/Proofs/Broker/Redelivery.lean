import Vetting.Proofs.Broker.Fleet

/-!
The order in which messages are handed out after a crash. One consumer takes messages and settles them
while others publish. What is in flight with it stands in the order of the deliveries that are not settled,
the newest first (`Shift.Step.tallied`), and the recovery moves the newest first to where it is the next to
be handed out. So the messages that were not settled come again, in their order, and before all others
(`Shift.Reachable.recover_order`). Main definitions: `Store.Receives` and `Store.Hands`, by which an order
is one that can be seen, and `Shift.Step`.
-/
namespace Vetting.Broker

@[simp] theorem Queue.pendingKey_ne (q : Queue) : q.pendingKey ≠ q.inFlightKey :=
  Store.pending_ne (isInFlight_inFlightKey q)

@[simp] theorem Queue.inFlightKey_ne (q : Queue) : q.inFlightKey ≠ q.pendingKey := q.pendingKey_ne.symm

namespace Store

variable {s mid after : Store} {q : Queue} {payload : Payload} {payloads : List Payload}

@[simp] theorem run_publish (q : Queue) (payload : Payload) (s : Store) :
    (q.publish payload).run perform s =
      some (.ok (), s.putList q.pendingKey (payload :: s.list q.pendingKey)) := rfl

@[simp] theorem run_settle (q : Queue) (payload : Payload) (verdict : Verdict) (s : Store) :
    (q.settle payload verdict).run perform s =
      some (.ok (), s.settled q.name q.inFlightKey payload (verdict = .reject true)) := by
  obtain ⟨answer, removed⟩ := execute_remove q.inFlightKey payload s
  rw [Queue.settle_eq]
  cases verdict with
  | ack =>
    simp only [Program.run, perform, Queue.settling, removed, Option.map_some]
    rfl
  | reject requeue =>
    cases requeue with
    | false =>
      simp only [Program.run, perform, Queue.settling, executeAll, Queue.rejection, List.foldl_cons,
        List.foldl_nil, removed, Bool.false_eq_true, if_false]
      rfl
    | true =>
      simp only [Program.run, perform, Queue.settling, executeAll, Queue.rejection, List.foldl_cons,
        List.foldl_nil, removed, if_true]
      rfl

/-- A settlement adds to what waits just what it queues again. -/
@[simp] theorem pending_settled (q : Queue) (item : Payload) (requeue : Bool) :
    (s.settled q.name q.inFlightKey item requeue).list q.pendingKey =
      if requeue then item :: s.list q.pendingKey else s.list q.pendingKey := by
  have key : q.name ++ ":pending" = q.pendingKey := rfl
  cases requeue with
  | false => simp [settled]
  | true => simp [settled, key]

/-- The consumer is handed out a message in a turn of its stream. -/
def Receives (q : Queue) (s : Store) (payload : Payload) (after : Store) : Prop :=
  ∃ stream next, (Queue.Stream.turn q false stream).run perform s = some (.item next (.ok payload), after)

/-- The consumer is handed out messages, one after the other. -/
inductive Hands (q : Queue) : Store → List Payload → Store → Prop
  | nothing (s : Store) : Hands q s [] s
  | more {s mid after : Store} {payload : Payload} {payloads : List Payload}
      (receives : s.Receives q payload mid) (rest : Hands q mid payloads after) :
      Hands q s (payload :: payloads) after

@[simp] theorem run_turn (q : Queue) (stream : Queue.Stream) (s : Store) :
    (stream.turn q false).run perform s =
      (s.move q.pendingKey q.inFlightKey .right .left).map fun (payload, after) =>
        (.item ⟨true⟩ (.ok payload), after) := by
  have received : q.receive.run perform s =
      (s.move q.pendingKey q.inFlightKey .right .left).map fun (payload, after) =>
        (.item ⟨true⟩ (.ok payload), after) := by
    simp only [Queue.receive, Program.run, perform, execute]
    cases s.move q.pendingKey q.inFlightKey .right .left <;> rfl
  rw [← received]
  unfold Queue.Stream.turn
  cases stream.connected <;> rfl

private theorem receives_iff :
    s.Receives q payload after ↔ s.move q.pendingKey q.inFlightKey .right .left = some (payload, after) := by
  constructor
  · rintro ⟨stream, next, ran⟩
    rw [run_turn] at ran
    obtain ⟨⟨item, store⟩, moved, same⟩ := Option.map_eq_some_iff.1 ran
    cases same
    exact moved
  · intro moved
    refine ⟨.fresh, ⟨true⟩, ?_⟩
    rw [run_turn, moved]
    rfl

/-- A message is taken from the right end of those that wait to the left end of those in flight. -/
theorem Receives.lists (receives : s.Receives q payload after) :
    s.list q.pendingKey = after.list q.pendingKey ++ [payload] ∧
      after.list q.inFlightKey = payload :: s.list q.inFlightKey ∧
        ∀ key, key ≠ q.pendingKey → key ≠ q.inFlightKey → after.list key = s.list key := by
  have moved := receives_iff.1 receives
  refine ⟨?_, ?_, fun key other aside => list_move other aside moved⟩
  all_goals
    simp only [move, Option.map_eq_some_iff, Prod.mk.injEq] at moved
    obtain ⟨⟨item, rest⟩, taken, rfl, rfl⟩ := moved
  · simpa [Side.add] using (Side.add_of_take? taken).symm
  · simp [Side.add]

/-- A message that waits to the right of all others is handed out. -/
theorem exists_receives (rest : List Payload) (waits : s.list q.pendingKey = rest ++ [payload]) :
    ∃ after, s.Receives q payload after ∧ after.list q.pendingKey = rest := by
  have taken : Side.right.take? (s.list q.pendingKey) = some (payload, rest) := by
    rw [waits]
    cases rest with
    | nil => rfl
    | cons first others => simp [Side.take?, List.dropLast_cons_of_ne_nil]
  have moved : s.move q.pendingKey q.inFlightKey .right .left = some (payload,
      (s.putList q.pendingKey rest).putList q.inFlightKey
        (payload :: (s.putList q.pendingKey rest).list q.inFlightKey)) := by
    rw [move, taken]
    rfl
  have receives := receives_iff.2 moved
  refine ⟨_, receives, ?_⟩
  have lists := receives.lists.1
  rw [waits] at lists
  exact (List.append_inj_left' lists rfl).symm

/-- What is handed out comes from the right end of what waits, and is in flight now, the newest first. -/
theorem Hands.lists (hands : s.Hands q payloads after) :
    s.list q.pendingKey = after.list q.pendingKey ++ payloads.reverse ∧
      after.list q.inFlightKey = payloads.reverse ++ s.list q.inFlightKey ∧
        ∀ key, key ≠ q.pendingKey → key ≠ q.inFlightKey → after.list key = s.list key := by
  induction hands with
  | nothing s => simp
  | more receives _ ih =>
    obtain ⟨waited, taken, aside⟩ := receives.lists
    obtain ⟨rest, inFlight, others⟩ := ih
    refine ⟨?_, ?_, fun key other mine => ?_⟩
    · rw [waited, rest, List.reverse_cons, List.append_assoc]
    · rw [inFlight, taken, List.reverse_cons, List.append_assoc, List.singleton_append]
    · rw [others key other mine, aside key other mine]

/-- All that waits can be handed out, from right to left. -/
theorem hands_all (q : Queue) (s : Store) :
    ∃ after, s.Hands q (s.list q.pendingKey).reverse after ∧ after.list q.pendingKey = [] := by
  generalize waiting : s.list q.pendingKey = items
  induction items using List.reverseRecOn generalizing s with
  | nil => exact ⟨s, .nothing s, waiting⟩
  | append_singleton rest payload ih =>
    obtain ⟨mid, receives, left⟩ := exists_receives rest waiting
    obtain ⟨after, hands, empty⟩ := ih mid left
    refine ⟨after, ?_, empty⟩
    rw [List.reverse_append]
    exact .more receives hands

/-- Messages that were moved back are all to the right of those that waited. -/
theorem list_restored {source target : String} (apart : target ≠ source) {left : List Payload} {s : Store}
    (list : s.list source = left) :
    (s.restored source target left).list source = [] ∧
      (s.restored source target left).list target = s.list target ++ left ∧
        ∀ key, key ≠ target → key ≠ source → (s.restored source target left).list key = s.list key := by
  induction left generalizing s with
  | nil => simp [restored, list]
  | cons item rest ih =>
    obtain ⟨emptied, queued, aside⟩ := ih
      (s := (s.putList source rest).putList target (s.list target ++ [item])) (by simp [apart.symm])
    refine ⟨emptied, ?_, fun key other mine => ?_⟩
    · simp [restored, queued]
    · simp [restored, aside key other mine, other, mine]

/-- The loop of the recovery ends when it has found nothing more: after one move for each message in
flight, and one that is in vain. -/
theorem restore_loop (q : Queue) {left : List Payload} {s : Store} (list : s.list q.inFlightKey = left)
    (count spare : Nat) :
    (Program.loop q.restore (left.length + 1 + spare) count).run perform s =
        some (.inr (.ok (count + left.length)), s.restored q.inFlightKey q.pendingKey left) ∧
      (Program.loop q.restore (left.length + 1 + spare) count).calls perform s =
        List.replicate (left.length + 1) (.send (Operation.restoring q)) := by
  induction left generalizing s count with
  | nil =>
    have nothing : s.perform (.send (Operation.restoring q)) = some (.ok .nil, s) := by
      simp [perform, Operation.restoring, execute, move, list, Side.take?]
    rw [List.length_nil, Nat.zero_add, Nat.add_comm]
    simp only [Program.loop, Queue.restore, Program.bind, Program.run, Program.calls]
    rw [show Command.move q.inFlightKey q.pendingKey .left .right = Operation.restoring q from rfl, nothing]
    simp [Answer.payload?, Program.run, Program.calls, restored]
  | cons item rest ih =>
    obtain ⟨ran, called⟩ := ih
      (s := (s.putList q.inFlightKey rest).putList q.pendingKey (s.list q.pendingKey ++ [item]))
      (by simp) (count + 1)
    rw [List.length_cons, show rest.length + 1 + 1 + spare = rest.length + 1 + spare + 1 by omega]
    simp only [Program.loop, Queue.restore, Program.bind, Program.run, Program.calls]
    rw [show Command.move q.inFlightKey q.pendingKey .left .right = Operation.restoring q from rfl,
      perform_restoring list]
    simp only [Answer.payload?]
    rw [ran, called, restored, show count + 1 + rest.length = count + (rest.length + 1) by omega]
    exact ⟨rfl, rfl⟩

/-- The recovery moves back all that is in flight and tells how many messages it was. -/
theorem run_recover (q : Queue) (s : Store) (turns : Nat)
    (enough : (s.list q.inFlightKey).length < turns) :
    (q.recover turns).run perform s = some (some (.ok (s.list q.inFlightKey).length),
        s.restored q.inFlightKey q.pendingKey (s.list q.inFlightKey)) ∧
      (q.recover turns).calls perform s =
        .connect :: List.replicate ((s.list q.inFlightKey).length + 1) (.send (Operation.restoring q)) := by
  obtain ⟨spare, rfl⟩ := Nat.exists_eq_add_of_le (Nat.succ_le_of_lt enough)
  obtain ⟨ran, called⟩ := restore_loop q (s := s) rfl 0 spare
  rw [Nat.zero_add] at ran
  constructor
  · show (Program.bind _ _).run perform s = _
    rw [Program.run_bind, ran]
    rfl
  · show Call.connect :: (Program.bind _ _).calls perform s = _
    rw [Program.calls_bind, ran, called]
    exact congrArg (Call.connect :: ·) (List.append_nil _)

/-- Taking messages and crashing leaves every list as it was. -/
theorem Hands.recovered (hands : s.Hands q payloads after) (idle : s.list q.inFlightKey = []) (key : String) :
    (after.restored q.inFlightKey q.pendingKey (after.list q.inFlightKey)).list key = s.list key := by
  obtain ⟨waited, inFlight, aside⟩ := hands.lists
  obtain ⟨emptied, queued, others⟩ := list_restored q.pendingKey_ne (s := after) rfl
  rw [idle, List.append_nil] at inFlight
  by_cases pending : key = q.pendingKey
  · rw [pending, queued, inFlight, waited]
  · by_cases mine : key = q.inFlightKey
    · rw [mine, emptied, idle]
    · rw [others key pending mine, aside key pending mine]

end Store

/-- A message that was handed out, and how it was settled, if it was. -/
structure Handed where
  payload : Payload
  verdict : Option Verdict

/-- Whether a message was queued again. -/
def Handed.givenBack (d : Handed) : Bool := d.verdict = some (.reject true)

/-- The broker, the payloads that were ever queued, and the deliveries to a consumer in their order. -/
structure Shift where
  store : Store
  known : List Payload
  deliveries : List Handed

namespace Shift

/-- A consumer that was handed out nothing yet. -/
def opening (q : Queue) (s : Store) : Shift := ⟨s, s.list q.pendingKey, []⟩

/-- What can happen next: a payload is queued that never was, the consumer is handed out a message, or it
settles one that it was handed out. -/
inductive Step (q : Queue) : Shift → Shift → Prop
  | publishes {n : Shift} {publisher : Queue} {payload : Payload} {after : Store}
      (named : publisher.name = q.name) (fresh : payload ∉ n.known)
      (ran : (publisher.publish payload).run Store.perform n.store = some (.ok (), after)) :
      Step q n { n with store := after, known := payload :: n.known }
  | receives {n : Shift} {payload : Payload} {after : Store} (receives : n.store.Receives q payload after) :
      Step q n { n with store := after, deliveries := n.deliveries ++ [⟨payload, none⟩] }
  | settles {s after : Store} {known : List Payload} (front back : List Handed) {payload : Payload}
      (verdict : Verdict)
      (ran : (q.settle payload verdict).run Store.perform s = some (.ok (), after)) :
      Step q ⟨s, known, front ++ ⟨payload, none⟩ :: back⟩
        ⟨after, known, front ++ ⟨payload, some verdict⟩ :: back⟩

/-- What can come about in any number of steps. -/
abbrev Reachable (q : Queue) (start : Store) (n : Shift) : Prop :=
  Relation.ReflTransGen (Step q) (opening q start) n

/-- The payloads of the deliveries that are not settled, in the order of these deliveries. -/
def unsettled (n : Shift) : List Payload := (n.deliveries.filter (·.verdict = none)).map Handed.payload

/-- The payloads that were handed out. -/
def delivered (n : Shift) : List Payload := n.deliveries.map Handed.payload

/-- Whether payloads are in the order in which they were handed out for the first time. -/
def InFirstOrder (n : Shift) (payloads : List Payload) : Prop :=
  payloads.Pairwise fun a b => n.delivered.idxOf a < n.delivered.idxOf b

/-- How often a payload was handed out and not queued again. -/
def keeps (n : Shift) (payload : Payload) : Nat :=
  n.deliveries.countP fun d => !d.givenBack && d.payload = payload

/-- The deliveries account for what the broker has of the queue. -/
structure Tallied (q : Queue) (n : Shift) : Prop where
  inFlight : n.store.list q.inFlightKey = n.unsettled.reverse
  account : ∀ payload, (n.store.list q.pendingKey).count payload + n.keeps payload = n.known.count payload
  distinct : n.known.Nodup

variable {q : Queue} {start : Store} {n later : Shift}

private theorem count_unsettled_le (n : Shift) (payload : Payload) :
    n.unsettled.count payload ≤ n.keeps payload := by
  simp only [unsettled, keeps, List.count, List.countP_map, List.countP_filter]
  refine List.countP_mono_left fun d _ open' => ?_
  simp only [Function.comp_apply, Bool.and_eq_true, beq_iff_eq, decide_eq_true_eq] at open'
  simp [Handed.givenBack, open'.1, open'.2]

/-- No payload is in hand twice. -/
theorem Tallied.keeps_le (tallied : Tallied q n) (payload : Payload) : n.keeps payload ≤ 1 := by
  have account := tallied.account payload
  have known := List.nodup_iff_count_le_one.1 tallied.distinct payload
  omega

private theorem Tallied.nodup (tallied : Tallied q n) : n.unsettled.Nodup := by
  rw [List.nodup_iff_count_le_one]
  exact fun payload => (n.count_unsettled_le payload).trans (tallied.keeps_le payload)

/-- What is in flight stays in the order of the deliveries, whatever is settled between them. -/
theorem Step.tallied (step : Step q n later) (tallied : Tallied q n) : Tallied q later := by
  cases step with
  | @publishes _ publisher payload _ named fresh ran =>
    rw [Store.run_publish] at ran
    cases ran
    have key : publisher.pendingKey = q.pendingKey := by rw [Queue.pendingKey, named, Queue.pendingKey]
    refine ⟨?_, fun item => ?_, List.nodup_cons.2 ⟨fresh, tallied.distinct⟩⟩
    · rw [key, Store.list_putList, if_neg q.inFlightKey_ne]
      exact tallied.inFlight
    · rw [key, Store.list_putList, if_pos rfl, List.count_cons, List.count_cons, ← tallied.account item]
      exact Nat.add_right_comm _ _ _
  | @receives _ payload _ receives =>
    obtain ⟨waited, taken, _⟩ := receives.lists
    refine ⟨?_, fun item => ?_, tallied.distinct⟩
    · rw [taken, tallied.inFlight]
      simp [unsettled, List.filter_append]
    · rw [← tallied.account item, waited]
      simp only [keeps, List.countP_append, List.count_append, List.countP_singleton, List.count_singleton,
        Handed.givenBack]
      simp only [reduceCtorEq, decide_false, Bool.not_false, Bool.true_and, decide_eq_true_eq, beq_iff_eq]
      omega
  | @settles s _ known front back payload verdict ran =>
    rw [Store.run_settle] at ran
    cases ran
    have inFlight := tallied.inFlight
    have nodup := tallied.nodup
    have open' : (⟨s, known, front ++ ⟨payload, none⟩ :: back⟩ : Shift).unsettled =
        unsettled ⟨s, known, front⟩ ++ payload :: unsettled ⟨s, known, back⟩ := by
      simp [unsettled, List.filter_append]
    have closed : ∀ store, (⟨store, known, front ++ ⟨payload, some verdict⟩ :: back⟩ : Shift).unsettled =
        unsettled ⟨s, known, front⟩ ++ unsettled ⟨s, known, back⟩ := by
      intro store
      simp [unsettled, List.filter_append]
    rw [open'] at inFlight nodup
    have later' : payload ∉ unsettled ⟨s, known, back⟩ :=
      (List.nodup_cons.1 (List.nodup_append.1 nodup).2.1).1
    refine ⟨?_, fun item => ?_, tallied.distinct⟩
    · -- the copy nearest to the left end is the one that is settled: no newer delivery has the payload
      rw [Store.list_settled (isInFlight_inFlightKey q), if_pos rfl, inFlight, closed, List.reverse_append,
        List.reverse_cons, List.append_assoc, List.singleton_append,
        List.erase_append_right _ (by rwa [List.mem_reverse]), List.erase_cons_head, List.reverse_append]
    · rw [← tallied.account item, Store.pending_settled]
      simp only [keeps, List.countP_append, List.countP_cons, Handed.givenBack]
      by_cases queued : verdict = .reject true
      · subst queued
        simp only [decide_true, if_true, List.count_cons, reduceCtorEq, decide_false, Bool.not_true,
          Bool.not_false, Bool.false_and, Bool.true_and, Bool.false_eq_true, if_false, beq_iff_eq,
          decide_eq_true_eq]
        omega
      · simp [queued]

private theorem tallied_opening (idle : start.list q.inFlightKey = [])
    (distinct : (start.list q.pendingKey).Nodup) : Tallied q (opening q start) :=
  ⟨idle, fun _ => rfl, distinct⟩

private theorem Reachable.tallied (reach : Reachable q start n) (idle : start.list q.inFlightKey = [])
    (distinct : (start.list q.pendingKey).Nodup) : Tallied q n := by
  induction reach with
  | refl => exact tallied_opening idle distinct
  | tail _ step ih => exact step.tallied ih

/-- Deliveries whose payloads were handed out just once come in the order of the first deliveries. -/
theorem pairwise_idxOf {deliveries : List Handed}
    (once : ∀ d ∈ deliveries, d.verdict = none → (deliveries.map Handed.payload).count d.payload ≤ 1) :
    ((deliveries.filter (·.verdict = none)).map Handed.payload).Pairwise fun a b =>
      (deliveries.map Handed.payload).idxOf a < (deliveries.map Handed.payload).idxOf b := by
  induction deliveries with
  | nil => exact .nil
  | cons d rest ih =>
    -- the first delivery is not that of an open one after it, so an index moves up by one
    have other : ∀ e ∈ rest, e.verdict = none → d.payload ≠ e.payload := by
      intro e mem open' same
      have few := once e (List.mem_cons_of_mem _ mem) open'
      have again := List.count_pos_iff.2 (List.mem_map_of_mem (f := Handed.payload) mem)
      rw [List.map_cons, same, List.count_cons_self] at few
      omega
    have shifted : ∀ e ∈ rest, e.verdict = none →
        (d.payload :: rest.map Handed.payload).idxOf e.payload =
          (rest.map Handed.payload).idxOf e.payload + 1 := by
      intro e mem open'
      exact List.idxOf_cons_ne _ (other e mem open')
    have fewer : ∀ e ∈ rest, e.verdict = none → (rest.map Handed.payload).count e.payload ≤ 1 := by
      intro e mem open'
      have few := once e (List.mem_cons_of_mem _ mem) open'
      rw [List.map_cons, List.count_cons_of_ne (other e mem open')] at few
      exact few
    have opens : ∀ payload ∈ (rest.filter (·.verdict = none)).map Handed.payload,
        ∃ e ∈ rest, e.verdict = none ∧ e.payload = payload := by
      intro payload mem
      obtain ⟨e, among, rfl⟩ := List.mem_map.1 mem
      obtain ⟨present, open'⟩ := List.mem_filter.1 among
      exact ⟨e, present, of_decide_eq_true open', rfl⟩
    have tail : ((rest.filter (·.verdict = none)).map Handed.payload).Pairwise fun a b =>
        (d.payload :: rest.map Handed.payload).idxOf a < (d.payload :: rest.map Handed.payload).idxOf b := by
      refine (ih fewer).imp_of_mem fun {a b} first second before => ?_
      obtain ⟨e, mem, open', rfl⟩ := opens a first
      obtain ⟨f, among, still, rfl⟩ := opens b second
      rw [shifted e mem open', shifted f among still]
      exact Nat.succ_lt_succ before
    by_cases open' : d.verdict = none
    · rw [List.filter_cons_of_pos (by simpa using open'), List.map_cons, List.map_cons, List.pairwise_cons]
      refine ⟨fun payload mem => ?_, tail⟩
      obtain ⟨e, among, still, rfl⟩ := opens payload mem
      rw [shifted e among still, List.idxOf_cons_self]
      exact Nat.succ_pos _
    · rw [List.filter_cons_of_neg (by simpa using open'), List.map_cons]
      exact tail

/-- Payloads that are in flight and were never queued again are there in the order of their first
deliveries. -/
theorem Tallied.inFirstOrder (tallied : Tallied q n)
    (kept : ∀ d ∈ n.deliveries, d.givenBack → d.payload ∉ n.unsettled) : n.InFirstOrder n.unsettled := by
  refine pairwise_idxOf fun d mem open' => ?_
  have inHand : d.payload ∈ n.unsettled :=
    List.mem_map_of_mem (List.mem_filter.2 ⟨mem, decide_eq_true open'⟩)
  refine le_trans ?_ (tallied.keeps_le d.payload)
  rw [keeps, List.count, List.countP_map]
  refine List.countP_mono_left fun e among same => ?_
  rw [Function.comp_apply, beq_iff_eq] at same
  cases back : e.givenBack with
  | false => simp [same]
  | true => exact absurd (same ▸ inHand) (kept e among back)

/-- After whatever was queued, handed out and settled, the recovery ends with one move for each delivery
that is not settled and one in vain, and tells their number. They are handed out again in their order,
which is that of their first deliveries if none of them had been queued again, and then all others as they
would have been. A consumer that took messages and crashed leaves all lists as they were. -/
theorem recover_order (reach : Reachable q start n) (idle : start.list q.inFlightKey = [])
    (distinct : (start.list q.pendingKey).Nodup) :
    (∀ turns, n.unsettled.length < turns → ∃ after others,
      (q.recover turns).run Store.perform n.store = some (some (.ok n.unsettled.length), after) ∧
      (q.recover turns).calls Store.perform n.store =
        .connect :: List.replicate (n.unsettled.length + 1) (.send (Operation.restoring q)) ∧
      after.list q.inFlightKey = [] ∧
      (∃ last, n.store.Hands q others last ∧ last.list q.pendingKey = []) ∧
      ∃ last, after.Hands q (n.unsettled ++ others) last ∧ last.list q.pendingKey = []) ∧
    ((∀ d ∈ n.deliveries, d.givenBack → d.payload ∉ n.unsettled) → n.InFirstOrder n.unsettled) ∧
    ∀ payloads mid, start.Hands q payloads mid → ∀ turns, payloads.length < turns → ∃ after,
      (q.recover turns).run Store.perform mid = some (some (.ok payloads.length), after) ∧
      ∀ key, after.list key = start.list key := by
  have tallied := reach.tallied idle distinct
  have inFlight := tallied.inFlight
  refine ⟨fun turns enough => ?_, tallied.inFirstOrder, fun payloads mid hands turns enough => ?_⟩
  · have length : (n.store.list q.inFlightKey).length = n.unsettled.length := by
      rw [inFlight, List.length_reverse]
    obtain ⟨ran, called⟩ := Store.run_recover q n.store turns (by omega)
    obtain ⟨emptied, queued, _⟩ := Store.list_restored q.pendingKey_ne (s := n.store) rfl
    rw [length] at ran called
    refine ⟨_, (n.store.list q.pendingKey).reverse, ran, called, emptied, Store.hands_all q n.store, ?_⟩
    have all := Store.hands_all q (n.store.restored q.inFlightKey q.pendingKey (n.store.list q.inFlightKey))
    rw [queued, List.reverse_append] at all
    rw [inFlight, List.reverse_reverse] at all
    rw [inFlight]
    exact all
  · have taken : (mid.list q.inFlightKey).length = payloads.length := by
      rw [hands.lists.2.1, idle, List.append_nil, List.length_reverse]
    obtain ⟨ran, _⟩ := Store.run_recover q mid turns (by omega)
    rw [taken] at ran
    exact ⟨_, ran, hands.recovered idle⟩

/-- A consumer, and a store in which two messages wait for it. -/
def lone : Queue := ⟨"kyc", "w1", "one", .ofSeconds 30⟩
def older : Payload := Utf8.encode "a"
def newer : Payload := Utf8.encode "b"
def pair : Store := Store.empty.putList lone.pendingKey [newer, older]

private theorem idle_pair : pair.list lone.inFlightKey = [] := by
  simp [pair]
  rfl

private theorem waiting_pair : pair.list lone.pendingKey = [newer, older] := by
  simp [pair]

private theorem distinct_pair : (pair.list lone.pendingKey).Nodup := by
  rw [waiting_pair]
  decide

/-- Both messages are handed out, and the older one is settled. -/
theorem exists_settled (verdict : Verdict) : ∃ s,
    Reachable lone pair ⟨s, [newer, older], [⟨older, some verdict⟩, ⟨newer, none⟩]⟩ ∧
      s.list lone.pendingKey = if verdict = .reject true then [older] else [] := by
  obtain ⟨_, first, left⟩ := Store.exists_receives [newer] waiting_pair
  obtain ⟨s, second, empty⟩ := Store.exists_receives [] left
  have opened : Reachable lone pair ⟨pair, [newer, older], []⟩ := by
    rw [Reachable, opening, waiting_pair]
  have handed := (opened.tail (.receives first)).tail (.receives second)
  refine ⟨_, handed.tail (.settles [] _ verdict (Store.run_settle _ _ _ _)), ?_⟩
  rw [Store.pending_settled, empty]
  simp

theorem recover_order_lone : ∃ n, Reachable lone pair n ∧ n.delivered = [older, newer] ∧ ∃ after others,
    (lone.recover 2).run Store.perform n.store = some (some (.ok 1), after) ∧
      ∃ last, after.Hands lone ([newer] ++ others) last ∧ last.list lone.pendingKey = [] := by
  obtain ⟨s, reach, _⟩ := exists_settled .ack
  obtain ⟨recovers, _, _⟩ := recover_order reach idle_pair distinct_pair
  obtain ⟨after, others, ran, _, _, _, hands⟩ := recovers 2 (Nat.lt_succ_self 1)
  exact ⟨_, reach, rfl, after, others, ran, hands⟩

/-- A message that was queued again and handed out again comes after those that were handed out in between,
though it was handed out first. -/
theorem exists_out_of_first_order : ∃ n after, Reachable lone pair n ∧
    n.delivered = [older, newer, older] ∧ n.unsettled = [newer, older] ∧
    (lone.recover 3).run Store.perform n.store = some (some (.ok 2), after) ∧
      ∀ payloads last, after.Hands lone payloads last → last.list lone.pendingKey = [] →
        payloads = [newer, older] ∧ ¬ n.InFirstOrder payloads := by
  obtain ⟨s, reach, queued⟩ := exists_settled (.reject true)
  rw [if_pos rfl] at queued
  obtain ⟨mid, again, empty⟩ := Store.exists_receives [] queued
  have reach : Reachable lone pair ⟨mid, [newer, older],
      [⟨older, some (.reject true)⟩, ⟨newer, none⟩, ⟨older, none⟩]⟩ := reach.tail (.receives again)
  have inFlight : mid.list lone.inFlightKey = [older, newer] :=
    (reach.tallied idle_pair distinct_pair).inFlight
  obtain ⟨ran, _⟩ := Store.run_recover lone mid 3 (by rw [inFlight]; decide)
  rw [inFlight] at ran
  refine ⟨_, _, reach, rfl, rfl, ran, fun payloads last hands all => ?_⟩
  obtain ⟨waited, _⟩ := hands.lists
  rw [(Store.list_restored lone.pendingKey_ne inFlight).2.1, empty, all] at waited
  obtain rfl : payloads = [newer, older] := by
    rw [← List.reverse_reverse payloads, ← List.nil_append payloads.reverse, ← waited]
    rfl
  refine ⟨rfl, fun ordered => ?_⟩
  have before : [older, newer, older].idxOf newer < [older, newer, older].idxOf older :=
    (List.pairwise_cons.1 ordered).1 older List.mem_cons_self
  revert before
  decide

end Shift

end Vetting.Broker
