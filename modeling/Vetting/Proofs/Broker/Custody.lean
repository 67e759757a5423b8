import Vetting.Proofs.Broker.Network

/-!
The queue loses nothing. A payload that was published is in the pending list, in flight with some
consumer, or settled for good; settling removes by value, so a copy that is gone may have been that of
another delivery, but every removal is a settlement (`published_le`). Each command that an operation
sends moves a copy from one list to another, adds one that is published or given back, or takes one that
is settled away (`Deed.Proper.balance`).
-/
namespace Vetting.Broker

namespace Side

variable {side : Side} {item : Payload} {items rest : List Payload}

@[simp] theorem count_add (payload : Payload) :
    (side.add item items).count payload = items.count payload + if item = payload then 1 else 0 := by
  cases side with
  | left => simp [add, List.count_cons]
  | right => simp [add, List.count_append, List.count_singleton]

theorem count_of_take? (taken : side.take? items = some (item, rest)) (payload : Payload) :
    items.count payload = rest.count payload + if item = payload then 1 else 0 := by
  rw [← add_of_take? taken, count_add]

end Side

/-- Whether a key is that of the messages in flight with some consumer of the queue. -/
def isInFlight (name key : String) : Bool := (name ++ ":in_flight:").toList.isPrefixOf key.toList

theorem isInFlight_iff {name key : String} :
    isInFlight name key ↔ ∃ consumer, key = name ++ ":in_flight:" ++ consumer := by
  rw [isInFlight, List.isPrefixOf_iff_prefix]
  constructor
  · rintro ⟨rest, same⟩
    refine ⟨String.ofList rest, ?_⟩
    rw [← String.toList_inj, String.toList_append, String.toList_ofList, same]
  · rintro ⟨consumer, rfl⟩
    exact ⟨consumer.toList, String.toList_append.symm⟩

@[simp] theorem not_isInFlight_pending (name : String) : isInFlight name (name ++ ":pending") = false := by
  rw [Bool.eq_false_iff]
  intro inFlight
  obtain ⟨consumer, same⟩ := isInFlight_iff.1 inFlight
  have tails := congrArg String.toList same
  simp only [String.toList_append, List.append_assoc, List.append_cancel_left_eq] at tails
  simp at tails

namespace Store

variable {s : Store} {name : String}

/-- The copies of a payload that the consumers of a queue have in flight. -/
def inFlight (s : Store) (name : String) (payload : Payload) : Nat :=
  ∑ key ∈ (s.lists.map Prod.fst).toFinset with isInFlight name key, (s.list key).count payload

/-- The copies of a payload that wait or are in flight. -/
def held (s : Store) (name : String) (payload : Payload) : Nat :=
  (s.list (name ++ ":pending")).count payload + s.inFlight name payload

private theorem list_eq_nil {key : String} (absent : key ∉ s.lists.map Prod.fst) : s.list key = [] := by
  have unknown : s.lists.lookup key = none := by
    rw [List.lookup_eq_none_iff]
    intro pair mem
    simpa using fun same : key = pair.1 => absent (same ▸ List.mem_map_of_mem mem)
  rw [list, unknown]
  rfl

private theorem inFlight_eq (keys : Finset String) (all : ∀ key ∈ s.lists.map Prod.fst, key ∈ keys)
    (payload : Payload) :
    s.inFlight name payload = ∑ key ∈ keys with isInFlight name key, (s.list key).count payload := by
  refine Finset.sum_subset (Finset.filter_subset_filter _ fun key mem => all key (List.mem_toFinset.1 mem)) ?_
  intro key mem absent
  rw [list_eq_nil fun present => absent ?_, List.count_nil]
  exact Finset.mem_filter.2 ⟨List.mem_toFinset.2 present, (Finset.mem_filter.1 mem).2⟩

private theorem mem_putList {key other : String} {items : List Payload}
    (mem : other ∈ (s.putList key items).lists.map Prod.fst) :
    other = key ∨ other ∈ s.lists.map Prod.fst := by
  obtain ⟨pair, put, rfl⟩ := List.mem_map.1 mem
  rw [putList] at put
  split at put
  · exact .inr (List.mem_map_of_mem (List.mem_filter.1 put).1)
  · rcases Assoc.mem_put put with rfl | old
    · exact .inl rfl
    · exact .inr (List.mem_map_of_mem old)

private theorem inFlight_putList {key : String} (items : List Payload) (payload : Payload) :
    (s.putList key items).inFlight name payload +
        (if isInFlight name key then (s.list key).count payload else 0) =
      s.inFlight name payload + if isInFlight name key then items.count payload else 0 := by
  have after : (s.putList key items).inFlight name payload = _ :=
    inFlight_eq (insert key (s.lists.map Prod.fst).toFinset)
      (fun other mem => by simpa using mem_putList mem) payload
  have before : s.inFlight name payload = _ :=
    inFlight_eq (insert key (s.lists.map Prod.fst).toFinset) (fun other mem => by simp [mem]) payload
  have same : ∀ other ∈ ((insert key (s.lists.map Prod.fst).toFinset).filter (isInFlight name ·)).erase key,
      ((s.putList key items).list other).count payload = (s.list other).count payload := by
    intro other mem
    rw [list_putList, if_neg (Finset.ne_of_mem_erase mem)]
  rw [after, before]
  split
  · next meets =>
    have mem : key ∈ (insert key (s.lists.map Prod.fst).toFinset).filter (isInFlight name ·) := by
      simp [meets]
    rw [← Finset.add_sum_erase _ _ mem, ← Finset.add_sum_erase _ _ mem, Finset.sum_congr rfl same,
      list_putList, if_pos rfl]
    omega
  · next passes =>
    have absent : key ∉ (insert key (s.lists.map Prod.fst).toFinset).filter (isInFlight name ·) := by
      simp [passes]
    rw [← Finset.erase_eq_of_notMem absent, Finset.sum_congr rfl same]

/-- Whether a key is that of a list of the queue. -/
def OfQueue (name key : String) : Prop := key = name ++ ":pending" ∨ isInFlight name key = true

theorem held_putList {key : String} (of : OfQueue name key) (items : List Payload) (payload : Payload) :
    (s.putList key items).held name payload + (s.list key).count payload =
      s.held name payload + items.count payload := by
  have inFlight : (s.putList key items).inFlight name payload + (if isInFlight name key then _ else 0) = _ :=
    inFlight_putList items payload
  rw [held, held, list_putList]
  rcases of with rfl | meets
  · rw [not_isInFlight_pending] at inFlight
    rw [if_pos rfl]
    simp only [Bool.false_eq_true, ↓reduceIte] at inFlight
    omega
  · have other : name ++ ":pending" ≠ key := by
      rintro rfl
      rw [not_isInFlight_pending] at meets
      cases meets
    rw [if_pos meets, if_pos meets] at inFlight
    rw [if_neg other]
    omega

variable {after : Store} {reply : Answer} {source target key : String} {value : Payload}

theorem held_move {takes adds : Side} {item : Payload} (ofSource : OfQueue name source)
    (ofTarget : OfQueue name target) (moved : s.move source target takes adds = some (item, after))
    (payload : Payload) : after.held name payload = s.held name payload := by
  simp only [move, Option.map_eq_some_iff, Prod.mk.injEq] at moved
  obtain ⟨⟨handed, rest⟩, taken, rfl, rfl⟩ := moved
  have first := held_putList (s := s) ofSource rest payload
  have second := held_putList (s := s.putList source rest) ofTarget
    (adds.add handed ((s.putList source rest).list target)) payload
  rw [Side.count_of_take? taken] at first
  rw [Side.count_add] at second
  dsimp only at first second ⊢
  omega

private theorem held_restore {takes adds : Side} (ofSource : OfQueue name source)
    (ofTarget : OfQueue name target)
    (done : s.execute (.move source target takes adds) = some (reply, after)) (payload : Payload) :
    after.held name payload = s.held name payload := by
  simp only [execute] at done
  split at done
  · next moved =>
    cases done
    exact held_move ofSource ofTarget moved payload
  · cases done
    rfl

private theorem held_receive {takes adds : Side} (ofSource : OfQueue name source)
    (ofTarget : OfQueue name target)
    (done : s.execute (.awaitMove source target takes adds) = some (reply, after)) (payload : Payload) :
    after.held name payload = s.held name payload := by
  simp only [execute, Option.map_eq_some_iff, Prod.mk.injEq] at done
  obtain ⟨⟨item, _⟩, moved, _, rfl⟩ := done
  exact held_move ofSource ofTarget moved payload

private theorem held_claim {token : String} {millis : Nat}
    (done : s.execute (.lease key token millis) = some (reply, after)) (payload : Payload) :
    after.held name payload = s.held name payload := by
  simp only [execute] at done
  split at done <;>
    · cases done
      rfl

theorem held_push (of : OfQueue name key) (done : s.execute (.push key value) = some (reply, after))
    (payload : Payload) :
    after.held name payload = s.held name payload + if value = payload then 1 else 0 := by
  simp only [execute, Option.some.injEq, Prod.mk.injEq] at done
  obtain ⟨_, rfl⟩ := done
  have put := held_putList (s := s) of (value :: s.list key) payload
  rw [List.count_cons] at put
  simp only [beq_iff_eq] at put
  omega

private theorem held_remove (of : OfQueue name key)
    (done : s.execute (.remove key value) = some (reply, after)) (payload : Payload) :
    s.held name payload ≤ after.held name payload + if value = payload then 1 else 0 := by
  simp only [execute] at done
  split at done
  · simp only [Option.some.injEq, Prod.mk.injEq] at done
    obtain ⟨_, rfl⟩ := done
    have put := held_putList (s := s) of ((s.list key).erase value) payload
    rw [List.count_erase] at put
    simp only [beq_iff_eq] at put
    have present : value = payload → 0 < (s.list key).count payload := by
      rintro rfl
      exact List.count_pos_iff.2 ‹_›
    split at put
    · next same => rw [if_pos same]; have := present same; omega
    · next other => rw [if_neg other]; omega
  · cases done
    omega

private theorem execute_of_perform {command : Command} {reply : (Call.send command).Reply}
    (carried : s.perform (.send command) = some (reply, after)) :
    ∃ answer, s.execute command = some (answer, after) := by
  simp only [perform, Option.map_eq_some_iff] at carried
  obtain ⟨⟨answer, _⟩, done, same⟩ := carried
  obtain ⟨_, rfl⟩ := Prod.ext_iff.1 same
  exact ⟨answer, done⟩

end Store

namespace Deed

/-- Whether a deed pushes a payload that is published. -/
def publishes (payload : Payload) : Deed → Bool
  | ⟨.publish _ published, .send (.push ..)⟩ => published = payload
  | _ => false

/-- Whether a deed settles a payload for good. -/
def settles (payload : Payload) : Deed → Bool
  | ⟨.settle _ settled .ack, .send (.remove ..)⟩ => settled = payload
  | ⟨.settle _ settled (.reject false), .sendGroup _⟩ => settled = payload
  | _ => false

variable {name : String} {s after : Store} {payload : Payload}

private theorem ofQueue_pending (q : Queue) : Store.OfQueue q.name q.pendingKey := .inl rfl

private theorem ofQueue_inFlight (q : Queue) : Store.OfQueue q.name q.inFlightKey :=
  .inr (isInFlight_iff.2 ⟨q.consumer, rfl⟩)

private theorem held_rejection (q : Queue) (given : Payload) (requeue : Bool) (payload : Payload) :
    s.held q.name payload ≤ (s.executeAll (q.rejection given requeue)).held q.name payload +
      if given = payload ∧ requeue = false then 1 else 0 := by
  obtain ⟨reply, removed, taken⟩ : ∃ reply removed,
      s.execute (.remove q.inFlightKey given) = some (reply, removed) := by
    simp only [Store.execute]
    split <;> exact ⟨_, _, rfl⟩
  have lost := Store.held_remove (ofQueue_inFlight q) taken payload
  cases requeue with
  | false => simpa [Store.executeAll, Queue.rejection, taken] using lost
  | true =>
    have back := Store.held_push (ofQueue_pending q)
      (show removed.execute (.push q.pendingKey given) = some _ from rfl) payload
    have all : s.executeAll (q.rejection given true) =
        removed.putList q.pendingKey (given :: removed.list q.pendingKey) := by
      simp only [Store.executeAll, Queue.rejection, ↓reduceIte, List.foldl_cons, List.foldl_nil, taken]
      rfl
    rw [all]
    omega

/-- What is carried out for an operation keeps the account: a copy that was held or is published is
held or settled. -/
theorem Proper.balance {deed : Deed} (proper : deed.Proper name)
    {reply : deed.call.Reply} (carried : s.perform deed.call = some (reply, after)) (payload : Payload) :
    s.held name payload + (if deed.publishes payload then 1 else 0) ≤
      after.held name payload + if deed.settles payload then 1 else 0 := by
  obtain ⟨op, c⟩ := deed
  obtain ⟨named, rfl | sends⟩ := proper
  · cases carried
    cases op <;> simp [publishes, settles]
  cases op with
  | publish q published =>
    obtain rfl : q.name = name := named
    obtain rfl := List.mem_singleton.1 sends
    obtain ⟨_, done⟩ := Store.execute_of_perform carried
    rw [Store.held_push (ofQueue_pending q) done payload]
    simp [publishes, settles]
  | depth q | checkHealth q =>
    obtain rfl := List.mem_singleton.1 sends
    cases carried
    simp [publishes, settles]
  | recover q turns =>
    obtain rfl : q.name = name := named
    obtain rfl := List.mem_singleton.1 sends
    obtain ⟨_, done⟩ := Store.execute_of_perform carried
    rw [Store.held_restore (ofQueue_inFlight q) (ofQueue_pending q) done payload]
    simp [publishes, settles]
  | consume q turns =>
    obtain rfl : q.name = name := named
    rcases List.mem_cons.1 sends with rfl | sends
    · obtain ⟨_, done⟩ := Store.execute_of_perform carried
      rw [Store.held_claim done payload]
      simp [publishes, settles]
    · obtain rfl := List.mem_singleton.1 sends
      obtain ⟨_, done⟩ := Store.execute_of_perform carried
      rw [Store.held_restore (ofQueue_inFlight q) (ofQueue_pending q) done payload]
      simp [publishes, settles]
  | refresh q =>
    obtain rfl : q.name = name := named
    obtain rfl := List.mem_singleton.1 sends
    obtain ⟨_, done⟩ := Store.execute_of_perform carried
    rw [Store.held_claim done payload]
    simp [publishes, settles]
  | turn q lost stream =>
    obtain rfl : q.name = name := named
    obtain rfl := List.mem_singleton.1 sends
    obtain ⟨_, done⟩ := Store.execute_of_perform carried
    rw [Store.held_receive (ofQueue_pending q) (ofQueue_inFlight q) done payload]
    simp [publishes, settles]
  | settle q given verdict =>
    obtain rfl : q.name = name := named
    cases verdict with
    | ack =>
      obtain rfl := List.mem_singleton.1 sends
      obtain ⟨_, done⟩ := Store.execute_of_perform carried
      simpa [publishes, settles] using Store.held_remove (ofQueue_inFlight q) done payload
    | reject requeue =>
      obtain rfl := List.mem_singleton.1 sends
      cases carried
      have kept := held_rejection (s := s) q given requeue payload
      cases requeue <;> simpa [publishes, settles] using kept

end Deed

namespace Network

/-- How often a payload was pushed to be published. -/
def published (payload : Payload) (n : Network) : Nat := n.done.countP (Deed.publishes payload)

/-- How often a payload was settled for good. -/
def settled (payload : Payload) (n : Network) : Nat := n.done.countP (Deed.settles payload)

/-- Nothing is lost: every copy that was pushed to be published waits, is in flight, or is accounted for
by a settlement, whoever came and went and whatever connections broke. -/
theorem published_le {name : String} {start : Store} {n : Network} (reach : Reachable name start n)
    (payload : Payload) :
    n.published payload ≤
      (n.store.list (name ++ ":pending")).count payload + n.store.inFlight name payload +
        n.settled payload := by
  refine reach.induct (fun n => n.published payload ≤ n.store.held name payload + n.settled payload)
    (Nat.zero_le _) ?_
  intro n later account kept
  rcases kept with ⟨done, lists⟩ | ⟨deed, reply, proper, done, carried⟩
  · have held : later.store.held name payload = n.store.held name payload := by
      simp only [Store.held, Store.inFlight, Store.list, lists]
    rw [published, settled, done, held]
    exact account
  · have balance := proper.balance carried payload
    simp only [published, settled, done, List.countP_append, List.countP_singleton] at account ⊢
    omega

/-- A consumer. -/
def firstWorker : Queue := ⟨"tasks", "worker-1", "token", .ofSeconds 30⟩

/-- A message is published, and the connection breaks over which the consumer waits for it. The broker
hands it out all the same: nobody has heard of it, but it is in flight. -/
theorem published_le_unheard :
    ∃ n, Reachable "tasks" .empty n ∧ n.published [1] = 1 ∧
      n.store.list firstWorker.inFlightKey = [[1]] ∧
      n.published [1] ≤ (n.store.list ("tasks" ++ ":pending")).count [1] + n.store.inFlight "tasks" [1] +
        n.settled [1] := by
  have publishing : Reachable "tasks" .empty _ := .single (.begins (.publish firstWorker [1]) rfl)
  have connected := publishing.tail (.answered [] [] (c := .connect) rfl)
  have pushed := connected.tail (.answered [] [] (c := .send (.push firstWorker.pendingKey [1])) rfl)
  have waiting := pushed.tail (.begins (.turn firstWorker false ⟨true⟩) rfl)
  have broken := waiting.tail (.breaks [_] [] (c := .send (Operation.receiving firstWorker)) .hungUp)
  have handed := broken.tail (.arrives [] [] ⟨_, .send (Operation.receiving firstWorker)⟩ rfl)
  exact ⟨_, handed, by decide, by decide, published_le handed [1]⟩

end Network

end Vetting.Broker
