import Vetting.Proofs.Broker.Custody

/-!
What carrying out a call does to the lists of a queue (`Effect`). A call takes effect in one of few ways,
whoever made it and whatever else the broker keeps (`Deed.Proper.effect_on`), and each way is known by how
it moves the copies of a payload between the pending list and the lists in flight.
-/
namespace Vetting.Broker

/-- What becomes of the lists of a queue when a call is carried out. -/
inductive Effect
  | nothing
  | publishes (payload : Payload)
  /-- A message in flight goes back to where it is the next to be handed out. -/
  | restores (payload : Payload) (key : String)
  /-- Nothing was left in flight. -/
  | clears (key : String)
  /-- A message is handed out, and is in flight now. -/
  | receives (payload : Payload) (key : String)
  /-- A message is taken from those in flight, if it is there, and queued again if it is to be. -/
  | settles (payload : Payload) (key : String) (requeue : Bool)
  deriving DecidableEq

/-- The effect of a command that was answered so. -/
def Command.effect : Command → Answer → Effect
  | .push _ payload, _ => .publishes payload
  | .move source .., .bytes payload => .restores payload source
  | .move source .., .nil => .clears source
  | .awaitMove _ target .., .bytes payload => .receives payload target
  | .remove key payload, _ => .settles payload key false
  | _, _ => .nothing

/-- The effect of a call that was answered so; one that failed is not known to have any. -/
def Call.effect : (c : Call) → c.Reply → Effect
  | .send c, .ok answer => c.effect answer
  | .sendGroup (.remove key payload :: rest), .ok _ => .settles payload key !rest.isEmpty
  | .connect, _ | .send _, .error _ | .sendGroup _, _ => .nothing

@[simp] theorem Call.effect_broken (c : Call) (failure : Failure) :
    c.effect (c.broken failure) = .nothing := by
  cases c with
  | sendGroup commands =>
    match commands with
    | [] => rfl
    | command :: _ => cases command <;> rfl
  | _ => rfl

namespace Store

/-- The store without one copy of an item. -/
def without (key : String) (item : Payload) (s : Store) : Store :=
  if (s.list key).contains item then s.putList key ((s.list key).erase item) else s

/-- The store after a message was taken from a list and, maybe, queued again. -/
def settled (name key : String) (item : Payload) (requeue : Bool) (s : Store) : Store :=
  let removed := s.without key item
  if requeue then
    removed.putList (name ++ ":pending") (item :: removed.list (name ++ ":pending"))
  else removed

end Store

namespace Effect

/-- The lists of the queue with a name before and after. -/
def On (name : String) (s after : Store) : Effect → Prop
  | .nothing => after.lists = s.lists
  | .publishes payload =>
    after = s.putList (name ++ ":pending") (payload :: s.list (name ++ ":pending"))
  | .restores payload key =>
    isInFlight name key ∧ s.move key (name ++ ":pending") .left .right = some (payload, after)
  | .clears key => s.list key = [] ∧ after.lists = s.lists
  | .receives payload key =>
    isInFlight name key ∧ s.move (name ++ ":pending") key .right .left = some (payload, after)
  | .settles payload key requeue =>
    isInFlight name key ∧ after = s.settled name key payload requeue

end Effect

section Deeds

variable {name : String} {s after : Store} {q : Queue}

theorem isInFlight_inFlightKey (q : Queue) : isInFlight q.name q.inFlightKey :=
  isInFlight_iff.2 ⟨q.consumer, rfl⟩

private theorem Store.answered_of_perform {c : Command} {reply : (Call.send c).Reply}
    (carried : s.perform (.send c) = some (reply, after)) :
    ∃ answer, reply = .ok answer ∧ s.execute c = some (answer, after) := by
  simp only [perform, Option.map_eq_some_iff] at carried
  obtain ⟨⟨answer, _⟩, done, same⟩ := carried
  cases same
  exact ⟨answer, rfl, done⟩

private theorem Store.lists_claim {key token : String} {millis : Nat} {reply : Answer}
    (done : s.execute (.lease key token millis) = some (reply, after)) : after.lists = s.lists := by
  simp only [execute] at done
  split at done <;>
    · cases done
      rfl

private theorem effect_connect {reply : Call.connect.Reply}
    (carried : s.perform .connect = some (reply, after)) :
    (Call.effect .connect reply).On name s after := by
  cases carried
  rfl

private theorem effect_claim {reply : (Call.send q.lease.command).Reply}
    (carried : s.perform (.send q.lease.command) = some (reply, after)) :
    (Call.effect (.send q.lease.command) reply).On name s after := by
  obtain ⟨_, rfl, done⟩ := Store.answered_of_perform carried
  exact Store.lists_claim done

private theorem effect_restore {reply : (Call.send (Operation.restoring q)).Reply}
    (carried : s.perform (.send (Operation.restoring q)) = some (reply, after)) :
    (∃ payload, reply = .ok (.bytes payload) ∧
      s.move q.inFlightKey q.pendingKey .left .right = some (payload, after)) ∨
    (reply = .ok .nil ∧ s.list q.inFlightKey = [] ∧ after = s) := by
  obtain ⟨_, rfl, done⟩ := Store.answered_of_perform carried
  simp only [Operation.restoring, Store.execute] at done
  cases moved : s.move q.inFlightKey q.pendingKey .left .right with
  | some pair =>
    rw [moved] at done
    cases done
    exact .inl ⟨pair.1, rfl, rfl⟩
  | none =>
    rw [moved] at done
    cases done
    refine .inr ⟨rfl, ?_, rfl⟩
    simp only [Store.move, Option.map_eq_none_iff] at moved
    cases items : s.list q.inFlightKey with
    | nil => rfl
    | cons item rest => simp [items, Side.take?] at moved

private theorem effect_receive {reply : (Call.send (Operation.receiving q)).Reply}
    (carried : s.perform (.send (Operation.receiving q)) = some (reply, after)) :
    ∃ payload, reply = .ok (.bytes payload) ∧
      s.move q.pendingKey q.inFlightKey .right .left = some (payload, after) := by
  obtain ⟨_, rfl, done⟩ := Store.answered_of_perform carried
  simp only [Operation.receiving, Store.execute, Option.map_eq_some_iff] at done
  obtain ⟨⟨payload, _⟩, moved, same⟩ := done
  cases same
  exact ⟨payload, rfl, moved⟩

theorem Store.execute_remove (key : String) (item : Payload) (s : Store) :
    ∃ answer, s.execute (.remove key item) = some (answer, s.without key item) := by
  simp only [execute, without, List.contains_iff_mem]
  split <;> exact ⟨_, rfl⟩

private theorem effect_settle {payload : Payload} {verdict : Verdict} {c : Call} {reply : c.Reply}
    (sends : c ∈ (Operation.settle q payload verdict).calls)
    (carried : s.perform c = some (reply, after)) :
    ∃ requeue, c.effect reply = .settles payload q.inFlightKey requeue ∧
      (requeue = true → verdict = .reject true) ∧ (c.effect reply).On q.name s after := by
  cases verdict with
  | ack =>
    obtain rfl := List.mem_singleton.1 sends
    obtain ⟨_, rfl, done⟩ := Store.answered_of_perform carried
    obtain ⟨_, removed⟩ := Store.execute_remove q.inFlightKey payload s
    cases done.symm.trans removed
    exact ⟨false, rfl, nofun, isInFlight_inFlightKey q, rfl⟩
  | reject requeue =>
    obtain rfl := List.mem_singleton.1 sends
    obtain ⟨_, removed⟩ := Store.execute_remove q.inFlightKey payload s
    cases carried
    refine ⟨requeue, by cases requeue <;> rfl, fun same => same ▸ rfl, ?_⟩
    cases requeue with
    | false =>
      refine ⟨isInFlight_inFlightKey q, ?_⟩
      simp [Store.executeAll, Queue.rejection, removed, Store.settled]
    | true =>
      refine ⟨isInFlight_inFlightKey q, ?_⟩
      simp only [Store.executeAll, Queue.rejection, ↓reduceIte, List.foldl_cons, List.foldl_nil,
        removed, Store.settled]
      rfl

/-- What an operation on the queue has carried out takes effect on the lists as told. -/
theorem Deed.Proper.effect_on {deed : Deed} (proper : deed.Proper name) {reply : deed.call.Reply}
    (carried : s.perform deed.call = some (reply, after)) :
    (deed.call.effect reply).On name s after := by
  obtain ⟨op, c⟩ := deed
  obtain ⟨named, rfl | sends⟩ := proper
  · exact effect_connect carried
  have restores : ∀ q : Queue, q.name = name → c = .send (Operation.restoring q) →
      (c.effect reply).On name s after := by
    rintro q rfl rfl
    rcases effect_restore carried with ⟨payload, rfl, moved⟩ | ⟨rfl, empty, rfl⟩
    · exact ⟨isInFlight_inFlightKey q, moved⟩
    · exact ⟨empty, rfl⟩
  cases op with
  | publish q payload =>
    obtain rfl : q.name = name := named
    obtain rfl := List.mem_singleton.1 sends
    obtain ⟨_, rfl, done⟩ := Store.answered_of_perform carried
    cases done
    rfl
  | depth q | checkHealth q =>
    obtain rfl := List.mem_singleton.1 sends
    cases carried
    rfl
  | recover q turns => exact restores q named (List.mem_singleton.1 sends)
  | consume q turns =>
    rcases List.mem_cons.1 sends with rfl | sends
    · exact effect_claim carried
    · exact restores q named (List.mem_singleton.1 sends)
  | refresh q =>
    obtain rfl := List.mem_singleton.1 sends
    exact effect_claim carried
  | turn q lost stream =>
    obtain rfl : q.name = name := named
    obtain rfl := List.mem_singleton.1 sends
    obtain ⟨payload, rfl, moved⟩ := effect_receive carried
    exact ⟨isInFlight_inFlightKey q, moved⟩
  | settle q payload verdict =>
    obtain rfl : q.name = name := named
    obtain ⟨_, _, _, on⟩ := effect_settle sends carried
    exact on

end Deeds

namespace Store

variable {name : String} {s after : Store} {source target key other : String} {item payload : Payload}
  {takes adds : Side}

theorem pending_ne (inFlight : isInFlight name key) : name ++ ":pending" ≠ key := by
  rintro rfl
  rw [not_isInFlight_pending] at inFlight
  cases inFlight

/-- Two lists of a queue have no more copies than are held. -/
theorem count_add_count_le (s : Store) (first : OfQueue name key) (second : OfQueue name other)
    (different : other ≠ key) (payload : Payload) :
    (s.list key).count payload + (s.list other).count payload ≤ s.held name payload := by
  have emptied := held_putList (s := s) first [] payload
  have more := held_putList (s := s.putList key []) second [] payload
  simp only [list_putList, different, if_false, List.count_nil] at emptied more
  omega

theorem count_le_held (s : Store) (of : OfQueue name key) (payload : Payload) :
    (s.list key).count payload ≤ s.held name payload := by
  have emptied := held_putList (s := s) of [] payload
  simp only [List.count_nil] at emptied
  omega

theorem count_source (different : source ≠ target)
    (moved : s.move source target takes adds = some (item, after)) (payload : Payload) :
    (s.list source).count payload =
      (after.list source).count payload + if item = payload then 1 else 0 := by
  simp only [move, Option.map_eq_some_iff, Prod.mk.injEq] at moved
  obtain ⟨⟨handed, rest⟩, taken, rfl, rfl⟩ := moved
  simpa [different] using Side.count_of_take? taken payload

theorem count_target (different : source ≠ target)
    (moved : s.move source target takes adds = some (item, after)) (payload : Payload) :
    (after.list target).count payload =
      (s.list target).count payload + if item = payload then 1 else 0 := by
  simp only [move, Option.map_eq_some_iff, Prod.mk.injEq] at moved
  obtain ⟨⟨handed, rest⟩, taken, rfl, rfl⟩ := moved
  simp [different.symm]

theorem list_move (ofSource : other ≠ source) (ofTarget : other ≠ target)
    (moved : s.move source target takes adds = some (item, after)) : after.list other = s.list other := by
  simp only [move, Option.map_eq_some_iff, Prod.mk.injEq] at moved
  obtain ⟨⟨handed, rest⟩, taken, rfl, rfl⟩ := moved
  simp [ofTarget, ofSource]

/-- A message that is queued is held once more. -/
theorem held_queued (s : Store) (name : String) (item payload : Payload) :
    (s.putList (name ++ ":pending") (item :: s.list (name ++ ":pending"))).held name payload =
      s.held name payload + if item = payload then 1 else 0 :=
  held_push (.inl rfl) rfl payload

private theorem held_without (s : Store) (of : OfQueue name key) (item payload : Payload) :
    (s.without key item).held name payload +
        (if item = payload ∧ 0 < (s.list key).count payload then 1 else 0) = s.held name payload := by
  by_cases present : item ∈ s.list key
  · have removed := held_putList (s := s) of ((s.list key).erase item) payload
    rw [List.count_erase] at removed
    simp only [beq_iff_eq] at removed
    rw [without, if_pos (List.contains_iff_mem.2 present)]
    by_cases same : item = payload
    · subst same
      have counted := List.count_pos_iff.2 present
      simp only [counted, if_true, and_self] at removed ⊢
      omega
    · simp only [same, if_false, false_and] at removed ⊢
      omega
  · rw [without, if_neg fun found => present (List.contains_iff_mem.1 found)]
    by_cases same : item = payload
    · subst same
      simp [List.count_eq_zero.2 present]
    · simp [same]

@[simp] theorem list_without :
    (s.without key item).list other =
      if other = key then (s.list key).erase item else s.list other := by
  unfold without
  by_cases present : item ∈ s.list key
  · rw [if_pos (List.contains_iff_mem.2 present), list_putList]
  · rw [if_neg fun found => present (List.contains_iff_mem.1 found), List.erase_of_not_mem present]
    split
    · next same => rw [same]
    · rfl

theorem list_settled (inFlight : isInFlight name other) (requeue : Bool) :
    (s.settled name key item requeue).list other =
      if other = key then (s.list key).erase item else s.list other := by
  have aside := (pending_ne inFlight).symm
  unfold settled
  cases requeue with
  | false => exact list_without
  | true => simp [aside]

private theorem count_settled (inFlight : isInFlight name key) (requeue : Bool) (payload : Payload) :
    ((s.settled name key item requeue).list key).count payload =
      (s.list key).count payload - if item = payload then 1 else 0 := by
  rw [list_settled inFlight, if_pos rfl, List.count_erase]
  simp only [beq_iff_eq]

private theorem held_settled (s : Store) (inFlight : isInFlight name key) (item : Payload) (requeue : Bool)
    (payload : Payload) :
    (s.settled name key item requeue).held name payload +
        (if item = payload ∧ 0 < (s.list key).count payload then 1 else 0) =
      s.held name payload + if item = payload ∧ requeue then 1 else 0 := by
  have removed := s.held_without (.inr inFlight) item payload
  unfold settled
  cases requeue with
  | false => simpa using removed
  | true =>
    rw [if_pos rfl, held_queued]
    simp only [and_true]
    omega

end Store

namespace Effect

variable {name : String} {s after : Store} {effect : Effect} {key : String}

/-- The copies of a payload that come to those that are held. -/
def gains (payload : Payload) : Effect → Nat
  | .publishes item | .settles item _ true => if item = payload then 1 else 0
  | _ => 0

/-- The copies of a payload that are no longer held. -/
def loses (payload : Payload) (s : Store) : Effect → Nat
  | .settles item key _ => if item = payload ∧ 0 < (s.list key).count payload then 1 else 0
  | _ => 0

/-- The copies of a payload that come into the list of a consumer. -/
def enters (payload : Payload) (key : String) (effect : Effect) : Nat :=
  if effect = .receives payload key then 1 else 0

/-- The copies of a payload that leave the list of a consumer if there are any. -/
def leaves (payload : Payload) (key : String) : Effect → Nat
  | .restores item source | .settles item source _ => if item = payload ∧ source = key then 1 else 0
  | _ => 0

theorem On.held (on : effect.On name s after) (payload : Payload) :
    after.held name payload + effect.loses payload s = s.held name payload + effect.gains payload := by
  cases effect with
  | nothing =>
    have lists : after.lists = s.lists := on
    simp only [Store.held, Store.inFlight, Store.list, lists, loses, gains]
  | clears => simp only [Store.held, Store.inFlight, Store.list, on.2, loses, gains]
  | publishes item =>
    obtain rfl : after = _ := on
    exact Store.held_queued s name item payload
  | restores item source => exact Store.held_move (.inr on.1) (.inl rfl) on.2 payload
  | receives item target => exact Store.held_move (.inl rfl) (.inr on.1) on.2 payload
  | settles item target requeue =>
    obtain ⟨inFlight, rfl⟩ := on
    have settled := s.held_settled inFlight item requeue payload
    cases requeue with
    | false => simpa [loses, gains] using settled
    | true => simpa [loses, gains] using settled

theorem On.count (on : effect.On name s after) (inFlight : isInFlight name key) (payload : Payload) :
    (after.list key).count payload =
      (s.list key).count payload + effect.enters payload key - effect.leaves payload key := by
  have aside := Store.pending_ne inFlight
  cases effect with
  | nothing =>
    have lists : after.lists = s.lists := on
    simp [Store.list, lists, enters, leaves]
  | clears => simp [Store.list, on.2, enters, leaves]
  | publishes item =>
    obtain rfl : after = _ := on
    simp [aside.symm, enters, leaves]
  | restores item source =>
    by_cases own : key = source
    · subst own
      have fewer := Store.count_source aside.symm on.2 payload
      simp only [enters, leaves, reduceCtorEq, if_false, and_true]
      omega
    · simp [Store.list_move own aside.symm on.2, enters, leaves, Ne.symm own]
  | receives item target =>
    by_cases own : key = target
    · subst own
      simp [Store.count_target aside on.2 payload, enters, leaves]
    · simp [Store.list_move aside.symm own on.2, enters, leaves, Ne.symm own]
  | settles item target requeue =>
    obtain ⟨_, rfl⟩ := on
    by_cases own : key = target
    · subst own
      simp [Store.count_settled inFlight, enters, leaves]
    · simp [Store.list_settled inFlight, enters, leaves, own, Ne.symm own]

end Effect

end Vetting.Broker
