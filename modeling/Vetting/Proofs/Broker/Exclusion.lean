import Vetting.Proofs.Broker.Fleet

/-!
Who has a message in hand. A message that was published once is in hand with one consumer at a time as
long as what moves it takes effect in time: what a consumer left in flight is moved back while the leases
of all who have it in hand are in force, and a message is given back by the one who has it in hand
(`Note.Timely`, `in_hand_le_one`). Then a message that is in hand has all its copies in the list of the one
who has it (`Sole`). Without it two consumers with one id have the message in hand
(`in_hand_twice`): a stream goes on when its lease has run out, and another that claims the id moves back
what is still being worked on.
-/
namespace Vetting.Broker

/-- A consumer has its lease. -/
def Session.InForce (S : Session) (s : Store) : Prop :=
  s.value? S.queue.lease.key = some (Utf8.encode S.queue.token)

/-- What was done to a message was done in time. It was moved back by a consumer with its lease, from
consumers that had theirs, or nobody had it in hand; and it was given back by the one who had it in hand, or
it was in flight and nobody had it in hand. -/
def Note.Timely (payload : Payload) (note : Note) : Prop :=
  match note.effect with
  | .restores item key => item = payload →
    ∀ S ∈ note.sessions, S.queue.inFlightKey = key → 0 < S.inHand payload →
      S.InForce note.store ∧ ∃ R ∈ note.hearer, R.InForce note.store
  | .settles item key true => item = payload →
    (∃ R ∈ note.hearer, 0 < R.inHand payload) ∨
      payload ∈ note.store.list key ∧
        ∀ S ∈ note.sessions, S.queue.inFlightKey = key → S.inHand payload = 0
  | _ => True

namespace Session

variable {S T : Session} {effect : Effect} {payload : Payload}

private theorem inHand_settled {item : Payload} {key : String} {requeue : Bool}
    (hears : (Effect.settles item key requeue).Heard S T) (payload : Payload) :
    T.inHand payload + (if S.Live ∧ item = payload then 1 else 0) = S.inHand payload := by
  obtain ⟨_, _, phase, front, verdict, rest, back, outcome, was, is⟩ := hears
  have same : T.Live ↔ S.Live := by rw [Live, Live, phase]
  simp only [inHand, same, was, is, List.countP_append, List.countP_cons, Handout.inHand,
    decide_eq_true_eq, Bool.false_eq_true, if_false]
  by_cases live : S.Live
  · simp only [live, if_true, true_and]
    omega
  · simp [live]

private theorem inHand_heard (hears : effect.Heard S T) (handed : ∀ key, effect ≠ .receives payload key) :
    T.inHand payload ≤ S.inHand payload := by
  cases effect with
  | nothing | publishes => exact hears.inHand payload
  | restores => exact hears.2.2.2.inHand payload
  | clears => simp [inHand, hears.2.2.2.2]
  | receives item key =>
    obtain ⟨_, _, before, now, handouts⟩ := hears
    have other : item ≠ payload := fun own => handed key (own ▸ rfl)
    simp [inHand, before, now, handouts, List.countP_append, Handout.inHand, other]
  | settles => exact Nat.le_of_add_right_le (inHand_settled hears payload).le

private theorem inHand_received {item : Payload} {key : String}
    (hears : (Effect.receives item key).Heard S T) : T.inHand item = S.inHand item + 1 := by
  obtain ⟨_, _, before, now, handouts⟩ := hears
  simp [inHand, before, now, handouts, List.countP_append, Handout.inHand]

private theorem live_of_inHand (has : 0 < S.inHand payload) : S.Live := by
  by_contra closed
  simp [inHand, closed] at has

/-- Consumers with one list have one lease. -/
theorem lease_key_eq (name : S.queue.name = T.queue.name)
    (list : S.queue.inFlightKey = T.queue.inFlightKey) : S.queue.lease.key = T.queue.lease.key := by
  rw [Queue.inFlightKey, Queue.inFlightKey, name, String.append_right_inj] at list
  rw [Queue.lease, Queue.lease, name, list]

end Session

namespace Fleet

variable {name : String} {n later : Fleet} {payload : Payload} {key : String}

/-- How many copies of a payload were published. -/
def pushed (n : Fleet) (payload : Payload) : Nat := n.log.countP (·.effect = .publishes payload)

/-- How many copies of a payload are in hand with consumers whose streams are open. -/
def inHand (n : Fleet) (payload : Payload) : Nat := (n.sessions.map (·.inHand payload)).sum

private theorem inHand_le {S : Session} (mem : S ∈ n.sessions) (payload : Payload) :
    S.inHand payload ≤ n.inHand payload :=
  List.le_sum_of_mem (List.mem_map_of_mem mem)

private theorem inHand_moved {front back : List Session} {S T : Session}
    (before : n.sessions = front ++ S :: back)
    (after : later.sessions = front ++ T :: back) (payload : Payload) :
    later.inHand payload + S.inHand payload = n.inHand payload + T.inHand payload := by
  simp only [inHand, before, after, List.map_append, List.map_cons, List.sum_append, List.sum_cons]
  omega

/-- Nobody was handed a copy. -/
structure Fewer (payload : Payload) (n later : Fleet) : Prop where
  inHand : later.inHand payload ≤ n.inHand payload
  holder : ∀ T ∈ later.sessions, 0 < T.inHand payload →
    ∃ S ∈ n.sessions, S.queue = T.queue ∧ 0 < S.inHand payload

private theorem Fewer.of_sessions (sessions : later.sessions = n.sessions) : Fewer payload n later := by
  refine ⟨?_, fun T mem has => ?_⟩
  · rw [Fleet.inHand, Fleet.inHand, sessions]
  · exact ⟨T, sessions ▸ mem, rfl, has⟩

private theorem Fewer.of_begin {q : Queue} {turns : Nat}
    (sessions : later.sessions = n.sessions ++ [.begin q turns]) : Fewer payload n later := by
  have nothing : (Session.begin q turns).inHand payload = 0 := rfl
  refine ⟨?_, fun T mem has => ?_⟩
  · simp [Fleet.inHand, sessions, nothing]
  · rw [sessions] at mem
    rcases List.mem_append.1 mem with old | new
    · exact ⟨T, old, rfl, has⟩
    · rw [List.mem_singleton.1 new, nothing] at has
      cases has

private theorem Fewer.of_moved {front back : List Session} {S T : Session}
    (before : n.sessions = front ++ S :: back) (after : later.sessions = front ++ T :: back)
    (queue : T.queue = S.queue) (less : T.inHand payload ≤ S.inHand payload) : Fewer payload n later := by
  refine ⟨?_, fun other mem has => ?_⟩
  · have moved := inHand_moved before after payload
    omega
  · rw [after] at mem
    rw [before]
    rcases List.mem_append.1 mem with first | last
    · exact ⟨other, List.mem_append_left _ first, rfl, has⟩
    rcases List.mem_cons.1 last with rfl | last
    · exact ⟨S, List.mem_append_right _ List.mem_cons_self, queue.symm, by omega⟩
    · exact ⟨other, List.mem_append_right _ (List.mem_cons_of_mem _ last), rfl, has⟩

/-- There are no more copies than were published, and if one is in hand, they are all in the list of the one
who has it. -/
structure Sole (name : String) (payload : Payload) (n : Fleet) : Prop where
  held : n.store.held name payload ≤ n.pushed payload
  inHand : n.inHand payload ≤ n.pushed payload
  kept : ∀ S ∈ n.sessions, 0 < S.inHand payload →
    n.store.held name payload ≤ (n.store.list S.queue.inFlightKey).count payload

private theorem Sole.of_fewer (fewer : Fewer payload n later)
    (held : later.store.held name payload ≤ later.pushed payload)
    (inHand : n.inHand payload ≤ later.pushed payload)
    (kept : ∀ S ∈ n.sessions, 0 < S.inHand payload →
      later.store.held name payload ≤ (later.store.list S.queue.inFlightKey).count payload) :
    Sole name payload later := by
  refine ⟨held, fewer.inHand.trans inHand, fun T mem has => ?_⟩
  obtain ⟨S, before, queue, had⟩ := fewer.holder T mem has
  rw [← queue]
  exact kept S before had

private theorem Orderly.inFlight (orderly : Orderly name n) {S : Session} (mem : S ∈ n.sessions) :
    isInFlight name S.queue.inFlightKey := by
  obtain rfl := (orderly.sessions S mem).named
  exact isInFlight_inFlightKey S.queue

section Steps

variable (orderly : Orderly name n) (sole : Sole name payload n)
include sole

/-- The message is given back by the one who has it in hand. -/
theorem Sole.returned {front back : List Session} {R T : Session} (once : n.pushed payload ≤ 1)
    (before : n.sessions = front ++ R :: back) (after : later.sessions = front ++ T :: back)
    (pushed : later.pushed payload = n.pushed payload)
    (on : (Effect.settles payload key true).On name n.store later.store)
    (hears : (Effect.settles payload key true).Heard R T) (has : 0 < R.inHand payload) :
    Sole name payload later := by
  have mem : R ∈ n.sessions := by simp [before]
  have bound := sole.held
  have only := sole.inHand
  have kept := sole.kept R mem has
  have mine := inHand_le mem payload
  have settles := Session.inHand_settled hears payload
  rw [if_pos ⟨Session.live_of_inHand has, rfl⟩] at settles
  have moved := inHand_moved before after payload
  have held := on.held payload
  simp only [Effect.gains, Effect.loses, true_and, if_true, hears.1] at held
  -- if the message was gone, it is there again, and nobody has it in hand now
  refine ⟨?_, by omega, fun S among still => ?_⟩
  · split at held <;> omega
  · have le := inHand_le among payload
    omega

include orderly

/-- The message waits, so nobody has it in hand. -/
theorem Sole.waits (on : (Effect.receives payload key).On name n.store later.store)
    (once : n.pushed payload ≤ 1) :
    n.inHand payload = 0 ∧ later.store.held name payload = 1 ∧ n.pushed payload = 1 := by
  have held := on.held payload
  have pending := Store.count_source (Store.pending_ne on.1) on.2 payload
  have within := n.store.count_le_held (.inl (Eq.refl (name ++ ":pending"))) payload
  have bound := sole.held
  simp only [Effect.gains, Effect.loses, add_zero] at held
  rw [if_pos rfl] at pending
  refine ⟨?_, by omega, by omega⟩
  rw [Fleet.inHand, List.sum_eq_zero_iff]
  intro count mem
  obtain ⟨S, among, rfl⟩ := List.mem_map.1 mem
  by_contra has
  have kept := sole.kept S among (Nat.pos_of_ne_zero has)
  have both := n.store.count_add_count_le (.inl rfl) (.inr (orderly.inFlight among))
    (Store.pending_ne (orderly.inFlight among)).symm payload
  omega

/-- The message is handed out. -/
theorem Sole.received {front back : List Session} {R T : Session} (once : n.pushed payload ≤ 1)
    (before : n.sessions = front ++ R :: back) (after : later.sessions = front ++ T :: back)
    (pushed : later.pushed payload = n.pushed payload)
    (on : (Effect.receives payload key).On name n.store later.store)
    (hears : (Effect.receives payload key).Heard R T) : Sole name payload later := by
  obtain ⟨nobody, one, published⟩ := sole.waits orderly on once
  have gets := Session.inHand_received hears
  have moved := inHand_moved before after payload
  have mine := inHand_le (n := n) (S := R) (by simp [before]) payload
  obtain ⟨own, queue, _⟩ := hears
  refine ⟨by omega, by omega, fun S among has => ?_⟩
  rw [after] at among
  have others : S ∈ front ∨ S ∈ back → 0 < n.inHand payload := by
    intro other
    refine has.trans_le (inHand_le ?_ payload)
    rw [before]
    rcases other with first | last
    · exact List.mem_append_left _ first
    · exact List.mem_append_right _ (List.mem_cons_of_mem _ last)
  rcases List.mem_append.1 among with first | last
  · exact absurd (others (.inl first)) (by omega)
  rcases List.mem_cons.1 last with rfl | last
  · rw [one, queue, ← own, Store.count_target (Store.pending_ne on.1) on.2, if_pos rfl]
    omega
  · exact absurd (others (.inr last)) (by omega)

/-- A step by which no copies are added, and none is moved from under somebody. -/
theorem Sole.of_stays {effect : Effect} (fewer : Fewer payload n later)
    (pushed : n.pushed payload ≤ later.pushed payload) (on : effect.On name n.store later.store)
    (less : later.store.held name payload ≤ n.store.held name payload)
    (stays : ∀ S ∈ n.sessions, 0 < S.inHand payload → effect.leaves payload S.queue.inFlightKey = 0) :
    Sole name payload later := by
  refine .of_fewer fewer (less.trans (sole.held.trans pushed)) (sole.inHand.trans pushed) fun S mem has => ?_
  have kept := sole.kept S mem has
  have count := on.count (orderly.inFlight mem) payload
  rw [stays S mem has] at count
  omega

/-- A message is taken away, whoever has it in hand. -/
theorem Sole.removes {item : Payload} (fewer : Fewer payload n later)
    (pushed : later.pushed payload = n.pushed payload)
    (on : (Effect.settles item key false).On name n.store later.store) : Sole name payload later := by
  have held := on.held payload
  have bound := sole.held
  simp only [Effect.gains, Effect.loses, add_zero] at held
  refine .of_fewer fewer (by omega) (pushed ▸ sole.inHand) fun S mem has => ?_
  have kept := sole.kept S mem has
  have count := on.count (orderly.inFlight mem) payload
  simp only [Effect.enters, Effect.leaves, reduceCtorEq, if_false, add_zero] at count
  by_cases own : item = payload ∧ key = S.queue.inFlightKey
  · obtain ⟨rfl, rfl⟩ := own
    simp only [true_and, and_self, if_true] at held count
    split at held <;> omega
  · rw [if_neg own] at count
    omega

/-- Whatever takes effect without handing out the message keeps its copies together, unless it is moved from
under somebody. -/
theorem Sole.of_effect {effect : Effect} (fewer : Fewer payload n later) (once : later.pushed payload ≤ 1)
    (pushed : later.pushed payload = n.pushed payload + if effect = .publishes payload then 1 else 0)
    (on : effect.On name n.store later.store)
    (restored : ∀ key, effect = .restores payload key →
      ∀ S ∈ n.sessions, S.queue.inFlightKey = key → S.inHand payload = 0)
    (returned : ∀ key, effect = .settles payload key true → payload ∈ n.store.list key ∧
      ∀ S ∈ n.sessions, S.queue.inFlightKey = key → S.inHand payload = 0) :
    Sole name payload later := by
  have held := on.held payload
  have more : n.pushed payload ≤ later.pushed payload := by omega
  cases effect with
  | nothing | clears | receives =>
    exact sole.of_stays orderly fewer more on held.le fun _ _ _ => rfl
  | publishes item =>
    simp only [Effect.gains, Effect.loses, Effect.publishes.injEq, add_zero] at held pushed
    by_cases own : item = payload
    · -- it was not published before, so nobody has it in hand
      have bound := sole.held
      have inHand := sole.inHand
      rw [if_pos own] at held pushed
      refine .of_fewer fewer (by omega) (by omega) fun S mem has => ?_
      have le := inHand_le mem payload
      omega
    · rw [if_neg own] at held
      exact sole.of_stays orderly fewer more on held.le fun _ _ _ => rfl
  | restores item key =>
    refine sole.of_stays orderly fewer more on held.le fun S mem has => if_neg ?_
    rintro ⟨rfl, own⟩
    have nobody := restored key rfl S mem own.symm
    omega
  | settles item key requeue =>
    have same : later.pushed payload = n.pushed payload := by simpa using pushed
    cases requeue with
    | false => exact sole.removes orderly fewer same on
    | true =>
      refine sole.of_stays orderly fewer more on ?_ fun S mem has => if_neg ?_
      · by_cases own : item = payload
        · subst own
          obtain ⟨present, _⟩ := returned key rfl
          simp only [Effect.gains, Effect.loses, List.count_pos_iff.2 present, and_self, if_true] at held
          omega
        · simp only [Effect.gains, Effect.loses, own, false_and, if_false] at held
          omega
      · rintro ⟨rfl, own⟩
        have nobody := (returned key rfl).2 S mem own.symm
        omega

end Steps

private theorem pushed_append {note : Note} (payload : Payload) (log : later.log = n.log ++ [note]) :
    later.pushed payload = n.pushed payload + if note.effect = .publishes payload then 1 else 0 := by
  simp [pushed, log, List.countP_append, List.countP_singleton]

/-- Two consumers that have their leases in force do not have the same list. -/
theorem Orderly.rivals (orderly : Orderly name n) {R S : Session} (one : R ∈ n.sessions)
    (other : S ∈ n.sessions) (different : S ≠ R) (active : R.Active) (live : S.Live)
    (list : S.queue.inFlightKey = R.queue.inFlightKey) (mine : R.InForce n.store) :
    ¬ S.InForce n.store := by
  intro theirs
  have named := (orderly.sessions S other).named.trans (orderly.sessions R one).named.symm
  rw [Session.InForce, Session.lease_key_eq named list, mine, Option.some.injEq] at theirs
  have symm : Std.Symm fun S T : Session => S.Active → T.Active → S.queue.token ≠ T.queue.token :=
    ⟨fun S T apart is has same => apart has is same.symm⟩
  have apart := orderly.apart.forall other one different (Session.active_of_live live) active
  exact apart (Utf8.encode_injective theirs).symm

/-- The message was published once at most and everything was done to it in time, so its copies are
together. -/
def Together (name : String) (payload : Payload) (n : Fleet) : Prop :=
  n.pushed payload ≤ 1 → (∀ note ∈ n.log, note.Timely payload) → Sole name payload n

/-- Nobody has in hand what a consumer moves back in time. -/
theorem Orderly.restored (orderly : Orderly name n) {R T : Session} (mem : R ∈ n.sessions)
    (hears : (Effect.restores payload key).Heard R T)
    (timely : Note.Timely payload ⟨.restores payload key, n.store, n.sessions, some R⟩) :
    ∀ S ∈ n.sessions, S.queue.inFlightKey = key → S.inHand payload = 0 := by
  obtain ⟨rfl, active, none', _⟩ := hears
  intro S other list
  by_contra has
  have has := Nat.pos_of_ne_zero has
  obtain ⟨theirs, _, here, mine⟩ := timely rfl S other list has
  cases Option.mem_some.1 here
  have different : S ≠ R := by
    rintro rfl
    simp [Session.inHand, none'] at has
  exact orderly.rivals mem other different active (Session.live_of_inHand has) list mine theirs

private theorem Together.change (orderly : Orderly name n) (together : Together name payload n)
    (change : Change name n later) : Together name payload later := by
  intro once timely
  have same (lists : later.store.lists = n.store.lists) (log : later.log = n.log)
      (fewer : Fewer payload n later) : Sole name payload later := by
    have pushed : later.pushed payload = n.pushed payload := by rw [Fleet.pushed, Fleet.pushed, log]
    have quiet : Effect.nothing.On name n.store later.store := lists
    exact (together (pushed ▸ once) (log ▸ timely)).of_effect orderly fewer once (by simp [pushed]) quiet
      nofun nofun
  cases change with
  | still lists sessions log => exact same lists log (.of_sessions sessions)
  | joins q turns lists sessions log => exact same lists log (.of_begin sessions)
  | eases lists before after log eases =>
    exact same lists log (.of_moved before after eases.queue (eases.inHand payload))
  | @heard effect front back R T before after log on hears =>
    have pushed := pushed_append payload log
    rw [log, List.forall_mem_append, List.forall_mem_singleton] at timely
    obtain ⟨earlier, now⟩ := timely
    have sole := together (by omega) earlier
    have mem : R ∈ n.sessions := by simp [before]
    by_cases handed : ∃ key, effect = .receives payload key
    · obtain ⟨key, rfl⟩ := handed
      simp only [reduceCtorEq, if_false, add_zero] at pushed
      exact sole.received orderly (pushed ▸ once) before after pushed on hears
    have less := Session.inHand_heard hears fun key is => handed ⟨key, is⟩
    have fewer := Fewer.of_moved before after hears.keeps.1 less
    by_cases gives : (∃ key, effect = .settles payload key true) ∧ 0 < R.inHand payload
    · obtain ⟨⟨key, rfl⟩, has⟩ := gives
      simp only [reduceCtorEq, if_false, add_zero] at pushed
      exact sole.returned (pushed ▸ once) before after pushed on hears has
    refine sole.of_effect orderly fewer once pushed on ?_ ?_
    · rintro key rfl
      exact orderly.restored mem hears now
    · rintro key rfl
      rcases now rfl with ⟨_, here, has⟩ | aside
      · cases Option.mem_some.1 here
        exact absurd ⟨⟨key, rfl⟩, has⟩ gives
      · exact aside
  | @late effect sessions log on =>
    have pushed := pushed_append payload log
    rw [log, List.forall_mem_append, List.forall_mem_singleton] at timely
    obtain ⟨earlier, now⟩ := timely
    refine (together (by omega) earlier).of_effect orderly (.of_sessions sessions) once pushed on ?_ ?_
    · rintro key rfl S mem list
      by_contra has
      obtain ⟨_, _, nobody, _⟩ := now rfl S mem list (Nat.pos_of_ne_zero has)
      cases nobody
    · rintro key rfl
      rcases now rfl with ⟨_, nobody, _⟩ | aside
      · cases nobody
      · exact aside

/-- A message that was not there at first and was published once, to which everything is done in time, is
never in hand twice: no two consumers with open streams have it, and none has two copies of it. -/
theorem in_hand_le_one {start : Store} (reach : Reachable name start n) (payload : Payload)
    (new : start.held name payload = 0) (once : n.pushed payload ≤ 1)
    (timely : ∀ note ∈ n.log, note.Timely payload) : n.inHand payload ≤ 1 := by
  have opens : Together name payload (.opening start) := by
    intro _ _
    exact ⟨new.le, Nat.le_refl _, by simp [opening]⟩
  obtain ⟨_, together⟩ := reach.induct (Together name payload) opens Together.change
  exact (together once timely).inHand.trans once

/-- The message in flight with the holder of the lease, which it has for thirty seconds. -/
def handed : Store :=
  ⟨[("tasks:in_flight:worker-1", [[1]])],
    [("tasks:consumer:worker-1", ⟨Utf8.encode "token-1", some 30000⟩)], 0⟩

private theorem Opens.timely {q : Queue} {sessions : List Session} {note : Note}
    (opens : Opens q sessions note)
    (nobody : ∀ S ∈ sessions, S.inHand payload = 0) : note.Timely payload := by
  unfold Opens at opens
  unfold Note.Timely
  split at opens
  · next nothing => simp [nothing]
  · next clears => simp [clears]
  · next restores =>
    obtain ⟨_, R, none', sessions⟩ := opens
    simp only [restores, sessions]
    intro _ S mem _ has
    rcases List.mem_append.1 mem with other | own
    · exact absurd (nobody S other) (Nat.ne_of_gt has)
    · simp [List.mem_singleton.1 own, Session.inHand, none'] at has
  · cases opens
  · cases opens
  · cases opens

private theorem pushed_opens {q : Queue} {sessions : List Session} {notes : List Note}
    (opens : ∀ note ∈ notes, Opens q sessions note) (payload : Payload) :
    notes.countP (·.effect = .publishes payload) = 0 := by
  refine List.countP_eq_zero.2 fun note mem => ?_
  simpa using ((opens note mem).quiet payload).1

/-- The holder was handed the only message. -/
theorem reach_handed :
    ∃ log, Reachable "tasks" .empty
        ⟨handed, [⟨Lease.holder, .idle ⟨true⟩, false, none, [.held [1]]⟩], [], log⟩ ∧
      log.countP (·.effect = .publishes [1]) = 1 ∧ ∀ note ∈ log, note.Timely [1] := by
  have begins : Reachable "tasks" .empty (opening .empty) := .refl
  obtain ⟨notes, opens, opened⟩ := begins.opens Lease.holder rfl (by simp) (.inl rfl)
  obtain ⟨note, nothing, asked⟩ := opened.asks [] [] rfl rfl
  have published := asked.tail (.publishes Lease.holder [1] rfl (.inr (.head _)) rfl)
  have received := published.tail (.answered [] [] (.asking rfl) rfl)
  have silent := pushed_opens opens [1]
  refine ⟨_, received, ?_, ?_⟩
  · simp [List.countP_append, silent, nothing, Call.effect, Command.effect]
  · simp only [List.nil_append, List.forall_mem_append, List.forall_mem_singleton]
    refine ⟨⟨⟨fun other mem => (opens other mem).timely (by simp), ?_⟩, ?_⟩, ?_⟩
    · simp [Note.Timely, nothing]
    · trivial
    · trivial

private theorem handed_expired : Lease.challenger.lease.Open (handed.later 30000) := .inl (by decide)

/-- The holder is gone and its lease has run out, and the other has the message in hand. -/
theorem in_hand_le_one_recovered :
    ∃ n, Reachable "tasks" .empty n ∧ Store.empty.held "tasks" [1] = 0 ∧ n.pushed [1] ≤ 1 ∧
      (∀ note ∈ n.log, note.Timely [1]) ∧ n.inHand [1] ≤ 1 ∧ n.inHand [1] = 1 := by
  obtain ⟨log, reached, once, timely⟩ := reach_handed
  have closed := reached.tail (.closes [] [])
  have expired := closed.tail (.passes 30000)
  obtain ⟨notes, opens, opened⟩ :=
    Reachable.opens expired Lease.challenger rfl (by simp [Session.close]; decide) handed_expired
  obtain ⟨note, nothing, asked⟩ := opened.asks [_] [] rfl rfl
  have received := asked.tail (.answered [_] [] (.asking rfl) rfl)
  have silent := pushed_opens opens [1]
  refine ⟨_, received, rfl, ?once, ?inTime, in_hand_le_one received [1] rfl ?once ?inTime, rfl⟩
  case once =>
    simp [pushed, List.countP_append, once, silent, nothing, Call.effect, Command.effect]
  case inTime =>
    simp only [List.forall_mem_append, List.forall_mem_singleton]
    refine ⟨⟨⟨timely, fun other mem => (opens other mem).timely (List.forall_mem_singleton.2 rfl)⟩, ?_⟩, ?_⟩
    · simp [Note.Timely, nothing]
    · trivial

/-- The holder works on the message, its lease has run out, and it goes on: the other has claimed the id and
has the message in hand as well, and after that the holder was handed another. -/
theorem in_hand_twice :
    ∃ n A B, Reachable "tasks" .empty n ∧ n.sessions = [A, B] ∧ A.Live ∧ B.Live ∧
      A.queue.inFlightKey = B.queue.inFlightKey ∧ B.InForce n.store ∧
      n.pushed [1] = 1 ∧ n.inHand [1] = 2 ∧ A.handouts = [.held [1], .held [2]] ∧
      B.handouts = [.held [1]] := by
  obtain ⟨log, reached, once, _⟩ := reach_handed
  have expired := reached.tail (.passes 30000)
  obtain ⟨notes, opens, opened⟩ :=
    Reachable.opens expired Lease.challenger rfl (by simp; decide) handed_expired
  obtain ⟨note, nothing, asked⟩ := opened.asks [_] [] rfl rfl
  have received := asked.tail (.answered [_] [] (.asking rfl) rfl)
  have published := received.tail (.publishes Lease.challenger [2] rfl (.inr (.head _)) rfl)
  have polled := published.tail (.polls [] [_] rfl)
  have received := polled.tail (.answered [] [_] (.asking rfl) rfl)
  have silent := pushed_opens opens [1]
  let A : Session := ⟨Lease.holder, .idle ⟨true⟩, false, none, [.held [1], .held [2]]⟩
  let B : Session := ⟨Lease.challenger, .idle ⟨true⟩, false, none, [.held [1]]⟩
  have inForce : B.InForce (Lease.challenger.lease.granted (handed.later 30000)) := by
    unfold Session.InForce
    decide
  refine ⟨_, A, B, received, rfl, trivial, trivial, rfl, inForce, ?_, rfl, rfl, rfl⟩
  simp [pushed, List.countP_append, once, silent, nothing, Call.effect, Command.effect]

end Fleet

end Vetting.Broker
