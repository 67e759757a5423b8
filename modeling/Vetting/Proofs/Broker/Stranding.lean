import Vetting.Proofs.Broker.Fleet

/-!
What stays in flight with a running consumer. Every message in its list was handed out to it and is not
settled, or the connection broke over which it would have been handed out (`in_flight_le`).
-/
namespace Vetting.Broker

namespace Session

variable {S T : Session} {effect : Effect}

/-- Of a consumer whose stream is open after it has heard, all that is in flight is accounted for if it
was before. -/
theorem heard_covers {name : String} {s after : Store} {key : String} (on : effect.On name s after)
    (hears : effect.Heard S T) (own : S.queue.inFlightKey = key) (inFlight : isInFlight name key)
    (live : T.Live) {spare : Payload → Nat}
    (covers : S.Live → ∀ payload, (s.list key).count payload ≤ S.unsettled payload + spare payload)
    (payload : Payload) : (after.list key).count payload ≤ T.unsettled payload + spare payload := by
  have counted := on.count inFlight payload
  simp only [Effect.enters] at counted
  cases effect with
  | nothing | publishes =>
    have before := covers (hears.live live) payload
    have more := hears.unsettled payload
    simp only [reduceCtorEq, if_false] at counted
    omega
  | restores =>
    obtain ⟨_, _, _, eases⟩ := hears
    have before := covers (eases.live live) payload
    have more := eases.unsettled payload
    simp only [reduceCtorEq, if_false] at counted
    omega
  | clears target =>
    obtain ⟨rfl, _⟩ := hears
    rw [own] at on
    simp only [on.1, List.count_nil, reduceCtorEq, if_false] at counted
    omega
  | receives item target =>
    obtain ⟨rfl, _, still, _, handouts⟩ := hears
    have before := covers still payload
    have more : T.unsettled payload = S.unsettled payload + if item = payload then 1 else 0 := by
      simp [unsettled, handouts, List.countP_append, List.countP_singleton, Handout.unsettled]
    simp only [Effect.receives.injEq, own, and_true] at counted
    omega
  | settles item target requeue =>
    obtain ⟨rfl, _, phase, front, verdict, rest, back, outcome, was, is⟩ := hears
    have before := covers (by rwa [Live, ← phase]) payload
    simp only [Effect.leaves, own, and_true, reduceCtorEq, if_false] at counted
    have fewer : S.unsettled payload ≤ T.unsettled payload + if item = payload then 1 else 0 := by
      simp only [unsettled, was, is, List.countP_append, List.countP_cons, Handout.unsettled,
        decide_eq_true_eq]
      split <;> omega
    omega

end Session

namespace Fleet

variable {name : String} {n later : Fleet} {key : String} {payload : Payload}

/-- The consumers with one list. -/
def on (n : Fleet) (key : String) : List Session := n.sessions.filter (·.queue.inFlightKey = key)

/-- How many copies of a payload came into flight without anybody hearing of it. -/
def unheard (n : Fleet) (key : String) (payload : Payload) : Nat :=
  n.log.countP fun note => note.effect = .receives payload key ∧ note.hearer.isNone

/-- When one consumer has moved on and some list has one consumer, it is that consumer or another. -/
theorem on_moved {front back : List Session} {S T only : Session}
    (before : n.sessions = front ++ S :: back) (after : later.sessions = front ++ T :: back)
    (queue : T.queue = S.queue) (alone : later.on key = [only]) :
    S.queue.inFlightKey = key ∧ only = T ∧ n.on key = [S] ∨
      S.queue.inFlightKey ≠ key ∧ n.on key = [only] := by
  simp only [on, before, after, List.filter_append, List.filter_cons, queue] at alone ⊢
  by_cases own : S.queue.inFlightKey = key
  · simp only [own, decide_true, if_true, true_and, ne_eq, not_true, false_and, or_false] at alone ⊢
    have lengths := congrArg List.length alone
    simp only [List.length_append, List.length_cons, List.length_nil] at lengths
    have first : front.filter (·.queue.inFlightKey = key) = [] := List.length_eq_zero_iff.1 (by omega)
    have last : back.filter (·.queue.inFlightKey = key) = [] := List.length_eq_zero_iff.1 (by omega)
    rw [first, last] at alone ⊢
    exact ⟨(List.cons.inj alone).1.symm, rfl⟩
  · simp only [own, decide_false, Bool.false_eq_true, if_false, false_and, false_or, ne_eq,
      not_false_eq_true, true_and] at alone ⊢
    exact alone

/-- All that is in flight with the one consumer of a list is accounted for. -/
def Covered (name : String) (n : Fleet) : Prop :=
  ∀ key, isInFlight name key → ∀ S, n.on key = [S] → S.Live → ∀ payload,
    (n.store.list key).count payload ≤ S.unsettled payload + n.unheard key payload

private theorem unheard_append {note : Note} (key : String) (payload : Payload)
    (log : later.log = n.log ++ [note]) : later.unheard key payload = n.unheard key payload +
      if note.effect = .receives payload key ∧ note.hearer.isNone then 1 else 0 := by
  simp [unheard, log, List.countP_append, List.countP_singleton]

private theorem Covered.change (covered : Covered name n) (change : Change name n later) :
    Covered name later := by
  intro key inFlight only alone live payload
  have same (lists : later.store.lists = n.store.lists) : later.store.list key = n.store.list key := by
    rw [Store.list, Store.list, lists]
  cases change with
  | still lists sessions log =>
    rw [on, sessions] at alone
    rw [same lists, unheard, log]
    exact covered key inFlight only alone live payload
  | joins q turns lists sessions log =>
    rw [on, sessions, List.filter_append] at alone
    rw [same lists, unheard, log]
    refine covered key inFlight only ?_ live payload
    by_cases own : q.inFlightKey = key
    · -- the one who joins would be the only one, but has no stream yet
      have lengths := congrArg List.length alone
      simp only [Session.begin, List.filter_cons, List.filter_nil, own, decide_true, if_true,
        List.length_append, List.length_cons, List.length_nil] at lengths
      have first : n.sessions.filter (·.queue.inFlightKey = key) = [] :=
        List.length_eq_zero_iff.1 (by omega)
      simp only [first, Session.begin, List.filter_cons, List.filter_nil, own, decide_true, if_true,
        List.nil_append, List.cons.injEq, and_true] at alone
      subst alone
      exact live.elim
    · simpa [on, Session.begin, own] using alone
  | eases lists before after log eases =>
    rw [same lists, unheard, log]
    rcases on_moved before after eases.queue alone with ⟨_, rfl, was⟩ | ⟨_, was⟩
    · exact (covered key inFlight _ was (eases.live live) payload).trans
        (Nat.add_le_add_right (eases.unsettled payload) _)
    · exact covered key inFlight only was live payload
  | @heard effect _ _ S T before after log on hears =>
    have nobody := unheard_append key payload log
    simp only [Option.isNone_some, Bool.false_eq_true, and_false, if_false, add_zero] at nobody
    rw [nobody]
    rcases on_moved before after hears.keeps.1 alone with ⟨own, rfl, was⟩ | ⟨other, was⟩
    · exact Session.heard_covers on hears own inFlight live (covered key inFlight S was) payload
    · have counted := on.count inFlight payload
      have given : effect ≠ .receives payload key := by
        rintro rfl
        exact other hears.1.symm
      rw [Effect.enters, if_neg given, add_zero] at counted
      exact counted.le.trans ((Nat.sub_le _ _).trans (covered key inFlight only was live payload))
  | late sessions log on =>
    have counted := on.count inFlight payload
    have more := unheard_append key payload log
    simp only [Option.isNone_none, and_true] at more
    rw [Effect.enters] at counted
    rw [Fleet.on, sessions] at alone
    have before := covered key inFlight only alone live payload
    omega

/-- Whatever is in flight with a consumer that has a stream and its list to itself was handed out to it and
not settled with success, or the reply was lost that would have handed it out. -/
theorem in_flight_le {start : Store} (reach : Reachable name start n) {S : Session}
    (alone : n.on S.queue.inFlightKey = [S]) (live : S.Live) (payload : Payload) :
    (n.store.list S.queue.inFlightKey).count payload ≤
      S.unsettled payload + n.unheard S.queue.inFlightKey payload := by
  have opens : Covered name (.opening start) := by
    intro key _ only none'
    cases none'
  obtain ⟨orderly, covered⟩ := reach.induct (Covered name) opens fun _ => Covered.change
  have among : S ∈ n.on S.queue.inFlightKey := by simp [alone]
  obtain rfl := (orderly.sessions S (List.mem_filter.1 among).1).named
  exact covered _ (isInFlight_inFlightKey S.queue) S alone live payload

/-- Whenever a consumer waits for a message and there is one, its connection can break between the move and
the reply. The message is in flight then, and the consumer was not handed it and goes on. -/
theorem Reachable.strands {start s after : Store} (front back : List Session) {adrift : List Deed}
    {log : List Note} {S : Session} {stream : Queue.Stream}
    (reach : Reachable name start ⟨s, front ++ S :: back, adrift, log⟩)
    (asks : S.phase = .asking stream S.queue.receive)
    (moved : s.move S.queue.pendingKey S.queue.inFlightKey .right .left = some (payload, after)) :
    ∃ note, note.effect = .receives payload S.queue.inFlightKey ∧ note.hearer = none ∧
      Reachable name start
        ⟨after, front ++ { S with phase := .idle .fresh } :: back, adrift, log ++ [note]⟩ := by
  have broke := reach.tail (.breaks front back (.asking asks) .hungUp)
  have carried : s.perform (.send (Operation.receiving S.queue)) = some (.ok (.bytes payload), after) := by
    simp [Store.perform, Operation.receiving, Store.execute, moved]
  have moved := broke.tail (.arrives adrift [] _ carried)
  rw [List.append_nil] at moved
  exact ⟨_, rfl, rfl, moved⟩

/-- After a message was published, and handed out to the consumer that asked for it. -/
theorem in_flight_le_handed :
    ∃ n S, Reachable "tasks" .empty n ∧ n.on S.queue.inFlightKey = [S] ∧ S.Live ∧
      (n.store.list S.queue.inFlightKey).count [1] ≤
        S.unsettled [1] + n.unheard S.queue.inFlightKey [1] ∧
      n.store.list S.queue.inFlightKey = [[1]] ∧ S.unsettled [1] = 1 ∧
      n.unheard S.queue.inFlightKey [1] = 0 := by
  have begins : Reachable "tasks" .empty (opening .empty) := .refl
  obtain ⟨notes, opens, opened⟩ := begins.opens Lease.holder rfl (by simp) (.inl rfl)
  obtain ⟨note, nothing, asked⟩ := opened.asks [] [] rfl rfl
  have published := asked.tail (.publishes Lease.holder [1] rfl (.inr (.head _)) rfl)
  have received := published.tail (.answered [] [] (.asking rfl) rfl)
  let S : Session := ⟨Lease.holder, .idle ⟨true⟩, false, none, [.held [1]]⟩
  refine ⟨_, S, received, rfl, trivial, in_flight_le (S := S) received rfl trivial [1], rfl, rfl, ?_⟩
  refine List.countP_eq_zero.2 fun other mem => ?_
  simp only [List.nil_append, List.append_assoc, List.cons_append, List.mem_append, List.mem_cons,
    List.not_mem_nil, or_false] at mem
  rcases mem with mem | rfl | rfl | rfl
  · simp [(opens other mem).quiet [1]]
  · simp [nothing]
  · simp [Call.effect, Command.effect]
  · simp

/-- The consumer has its lease and a stream on which it waits for a message, and a message is in flight
with it that it was never handed out. -/
theorem in_flight_stranded :
    ∃ n S, Reachable "tasks" .empty n ∧ n.sessions = [S] ∧
      n.store.value? S.queue.lease.key = some (Utf8.encode S.queue.token) ∧
      S.phase = .asking .fresh S.queue.receive ∧
      n.store.list S.queue.inFlightKey = [[1]] ∧ S.handouts = [] := by
  have begins : Reachable "tasks" .empty (opening .empty) := .refl
  obtain ⟨_, _, opened⟩ := begins.opens Lease.holder rfl (by simp) (.inl rfl)
  obtain ⟨_, _, asked⟩ := opened.asks [] [] rfl rfl
  have published := asked.tail (.publishes Lease.holder [1] rfl (.inr (.head _)) rfl)
  obtain ⟨_, _, _, parked⟩ := Reachable.strands [] [] published rfl rfl
  obtain ⟨_, _, again⟩ := parked.asks [] [] rfl rfl
  let S : Session := ⟨Lease.holder, .asking .fresh Lease.holder.receive, false, none, []⟩
  exact ⟨_, S, again, rfl, rfl, rfl, rfl, rfl⟩

end Fleet

end Vetting.Broker
