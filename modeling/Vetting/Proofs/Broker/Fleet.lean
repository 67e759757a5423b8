import Vetting.Proofs.Broker.Effect
import Vetting.Proofs.Broker.Tenure

/-!
Consumers of one queue with their streams, and the broker between them and the publishers. A consumer
claims its id and moves back what an earlier run left (`Phase.opening`), asks for one message after the
other, and claims its id again in the meantime. What it was handed out is settled at any time, also when
its stream is over. Connections break, and what was sent over them may be carried out later. Main
definitions: `Session`, `Fleet.Step` and `Fleet.Reachable`; every step is of one of few kinds
(`Fleet.Change`).
-/
namespace Vetting.Broker

/-- A message that was handed out, and how far its settlement is. -/
inductive Handout
  | held (payload : Payload)
  | settling (payload : Payload) (verdict : Verdict) (rest : Client (Except QueueError Unit))
  | settled (payload : Payload) (outcome : Except QueueError Unit)

namespace Handout

/-- Whether a copy of a payload is worked on. -/
def inHand (payload : Payload) : Handout → Bool
  | .held item | .settling item .. => item = payload
  | .settled .. => false

/-- Whether a copy of a payload was not settled with success. -/
def unsettled (payload : Payload) : Handout → Bool
  | .held item | .settling item .. | .settled item (.error _) => item = payload
  | .settled _ (.ok _) => false

/-- A settlement that goes on, or is over. -/
def after (payload : Payload) (verdict : Verdict) : Client (Except QueueError Unit) → Handout
  | .done outcome => .settled payload outcome
  | .call c next => .settling payload verdict (.call c next)

end Handout

/-- Where a consumer is: it opens its stream, has nothing asked, waits for a message, or is done. -/
inductive Phase
  | opening (turns : Nat) (rest : Client (Option (Except QueueError Queue.Stream)))
  | idle (stream : Queue.Stream)
  | asking (stream : Queue.Stream) (rest : Client Queue.Turn)
  | over

/-- One run of a consumer. -/
structure Session where
  queue : Queue
  phase : Phase
  /-- Whether it has seen that another has its lease. -/
  lost : Bool
  refreshing : Option (Client Bool)
  handouts : List Handout

namespace Session

/-- Whether there is an open stream. -/
def Live (S : Session) : Prop :=
  match S.phase with
  | .idle _ | .asking .. => True
  | .opening .. | .over => False

instance : DecidablePred Live := fun S => by
  unfold Live
  split <;> infer_instance

/-- Whether it may still do something but settle. -/
def Active (S : Session) : Prop := S.phase ≠ .over

/-- How many copies of a payload an open stream has handed out that are worked on. -/
def inHand (S : Session) (payload : Payload) : Nat :=
  if S.Live then S.handouts.countP (·.inHand payload) else 0

/-- How many copies of a payload were handed out and not settled with success. -/
def unsettled (S : Session) (payload : Payload) : Nat := S.handouts.countP (·.unsettled payload)

def begin (q : Queue) (turns : Nat) : Session := ⟨q, .opening turns (q.consume turns), false, none, []⟩

/-- The stream is over, and the lease is not claimed again. -/
def close (S : Session) : Session := { S with phase := .over, refreshing := none }

/-- The opening goes on, or is over. -/
def opened (S : Session) (turns : Nat) : Client (Option (Except QueueError Queue.Stream)) → Session
  | .call c next => { S with phase := .opening turns (.call c next) }
  | .done (some (.ok stream)) => { S with phase := .idle stream }
  | .done _ => S.close

/-- A turn of the stream goes on, or is over. -/
def heard (S : Session) (stream : Queue.Stream) : Client Queue.Turn → Session
  | .call c next => { S with phase := .asking stream (.call c next) }
  | .done .ended => S.close
  | .done (.again next) | .done (.item next (.error _)) => { S with phase := .idle next }
  | .done (.item next (.ok payload)) =>
    { S with phase := .idle next, handouts := S.handouts ++ [.held payload] }

/-- The claiming goes on, or is over. -/
def refreshed (S : Session) : Client Bool → Session
  | .call c next => { S with refreshing := some (.call c next) }
  | .done lost => { S with refreshing := none, lost }

/-- Waits for the reply to a call, and what becomes of it with one. -/
inductive Waits (S : Session) : (op : Operation) → (c : Call) → (c.Reply → Session) → Prop
  | opening {turns : Nat} {c : Call} {next : c.Reply → Client (Option (Except QueueError Queue.Stream))}
      (phase : S.phase = .opening turns (.call c next)) :
      Waits S (.consume S.queue turns) c fun reply => S.opened turns (next reply)
  | asking {stream : Queue.Stream} {c : Call} {next : c.Reply → Client Queue.Turn}
      (phase : S.phase = .asking stream (.call c next)) :
      Waits S (.turn S.queue false stream) c fun reply => S.heard stream (next reply)
  | refreshing {c : Call} {next : c.Reply → Client Bool} (claims : S.refreshing = some (.call c next)) :
      Waits S (.refresh S.queue) c fun reply => S.refreshed (next reply)
  | settling {front back : List Handout} {payload : Payload} {verdict : Verdict} {c : Call}
      {next : c.Reply → Client (Except QueueError Unit)}
      (handouts : S.handouts = front ++ .settling payload verdict (.call c next) :: back) :
      Waits S (.settle S.queue payload verdict) c fun reply =>
        { S with handouts := front ++ .after payload verdict (next reply) :: back }

/-- The calls that are under way for a stream and its lease. -/
def underway (S : Session) : List Deed :=
  (match S.phase with
    | .opening turns (.call c _) => [⟨.consume S.queue turns, c⟩]
    | .asking stream (.call c _) => [⟨.turn S.queue false stream, c⟩]
    | _ => []) ++
  match S.refreshing with
    | some (.call c _) => [⟨.refresh S.queue, c⟩]
    | _ => []

end Session

/-! ## Runs -/

/-- An effect, what there was before it, and the consumer that heard of it. -/
structure Note where
  effect : Effect
  store : Store
  sessions : List Session
  hearer : Option Session

/-- The broker, the consumers, the calls that nobody waits for any more, and what took effect. -/
structure Fleet where
  store : Store
  sessions : List Session
  adrift : List Deed
  log : List Note

namespace Fleet

def opening (store : Store) : Fleet := ⟨store, [], [], []⟩

/-- What can happen next among those who use the queue with a name. -/
inductive Step (name : String) : Fleet → Fleet → Prop
  /-- What a publisher sends is carried out, whether or not it hears of it. -/
  | publishes {n : Fleet} (q : Queue) (payload : Payload) {c : Call} {reply : c.Reply} {after : Store}
      (named : q.name = name) (sends : (Operation.publish q payload).Sends c)
      (carried : n.store.perform c = some (reply, after)) :
      Step name n
        { n with store := after, log := n.log ++ [⟨c.effect reply, n.store, n.sessions, none⟩] }
  /-- A consumer begins. Its token is its own, and it has one open stream at a time. -/
  | consumes {n : Fleet} (q : Queue) (turns : Nat) (named : q.name = name)
      (alone : ∀ other ∈ n.sessions, other.queue.token = q.token → other.queue = q ∧ ¬ other.Active) :
      Step name n { n with sessions := n.sessions ++ [.begin q turns] }
  | polls {s : Store} (front back : List Session) {adrift : List Deed} {log : List Note} {S : Session}
      {stream : Queue.Stream} (idle : S.phase = .idle stream) :
      Step name ⟨s, front ++ S :: back, adrift, log⟩
        ⟨s, front ++ S.heard stream (stream.turn S.queue S.lost) :: back, adrift, log⟩
  /-- The lease is claimed again, soon or late, until it is seen to be lost. -/
  | refreshes {s : Store} (front back : List Session) {adrift : List Deed} {log : List Note}
      {S : Session} (live : S.Live) (kept : S.lost = false) (resting : S.refreshing = none) :
      Step name ⟨s, front ++ S :: back, adrift, log⟩
        ⟨s, front ++ { S with refreshing := some S.queue.lease.refresh } :: back, adrift, log⟩
  | settles {s : Store} (front back : List Session) {adrift : List Deed} {log : List Note} {S : Session}
      {before rest : List Handout} {payload : Payload}
      (handouts : S.handouts = before ++ .held payload :: rest) (verdict : Verdict) :
      Step name ⟨s, front ++ S :: back, adrift, log⟩
        ⟨s, front ++ { S with
          handouts := before ++ .settling payload verdict (S.queue.settle payload verdict) :: rest } :: back,
          adrift, log⟩
  /-- A stream is dropped. -/
  | closes {s : Store} (front back : List Session) {adrift : List Deed} {log : List Note} {S : Session} :
      Step name ⟨s, front ++ S :: back, adrift, log⟩
        ⟨s, front ++ S.close :: back, adrift ++ S.underway, log⟩
  /-- A call is carried out and answered. -/
  | answered {s after : Store} (front back : List Session) {adrift : List Deed} {log : List Note}
      {S : Session} {op : Operation} {c : Call} {go : c.Reply → Session} {reply : c.Reply}
      (waits : S.Waits op c go) (carried : s.perform c = some (reply, after)) :
      Step name ⟨s, front ++ S :: back, adrift, log⟩
        ⟨after, front ++ go reply :: back, adrift,
          log ++ [⟨c.effect reply, s, front ++ S :: back, some S⟩]⟩
  /-- No message came in time. -/
  | expires {s : Store} (front back : List Session) {adrift : List Deed} {log : List Note} {S : Session}
      {op : Operation} {source target : String} {takes adds : Side}
      {go : Except Failure Answer → Session}
      (waits : S.Waits op (.send (.awaitMove source target takes adds)) go) :
      Step name ⟨s, front ++ S :: back, adrift, log⟩ ⟨s, front ++ go (.ok .nil) :: back, adrift, log⟩
  /-- The connection of a call breaks. -/
  | breaks {s : Store} (front back : List Session) {adrift : List Deed} {log : List Note} {S : Session}
      {op : Operation} {c : Call} {go : c.Reply → Session} (waits : S.Waits op c go) (failure : Failure) :
      Step name ⟨s, front ++ S :: back, adrift, log⟩
        ⟨s, front ++ go (c.broken failure) :: back, adrift ++ [⟨op, c⟩], log⟩
  /-- A call that nobody waits for any more is carried out all the same. -/
  | arrives {s after : Store} {sessions : List Session} (front back : List Deed) {log : List Note}
      (deed : Deed) {reply : deed.call.Reply} (carried : s.perform deed.call = some (reply, after)) :
      Step name ⟨s, sessions, front ++ deed :: back, log⟩
        ⟨after, sessions, front ++ back, log ++ [⟨deed.call.effect reply, s, sessions, none⟩]⟩
  | passes {n : Fleet} (millis : Nat) : Step name n { n with store := n.store.later millis }

/-- What can come about in any number of steps. -/
abbrev Reachable (name : String) (start : Store) (n : Fleet) : Prop :=
  Relation.ReflTransGen (Step name) (opening start) n

end Fleet

/-- The store after messages were moved from the left end of a list to the right end of another. -/
def Store.restored (source target : String) : List Payload → Store → Store
  | [], s => s
  | item :: rest, s =>
    ((s.putList source rest).putList target (s.list target ++ [item])).restored source target rest

theorem Store.perform_restoring {q : Queue} {s : Store} {item : Payload} {rest : List Payload}
    (left : s.list q.inFlightKey = item :: rest) :
    s.perform (.send (Operation.restoring q)) =
      some (.ok (.bytes item),
        (s.putList q.inFlightKey rest).putList q.pendingKey (s.list q.pendingKey ++ [item])) := by
  have apart : q.pendingKey ≠ q.inFlightKey := Store.pending_ne (isInFlight_inFlightKey q)
  simp [perform, Operation.restoring, execute, move, left, Side.take?, Side.add, apart]

namespace Queue

/-- The end of a settlement, over a connection. -/
def settling (q : Queue) (payload : Payload) : Verdict → Client (Except QueueError Unit)
  | .ack =>
    .call (.send (.remove q.inFlightKey payload)) fun
      | .error failure => .done (.error (failed failure))
      | .ok _ => .done (.ok ())
  | .reject requeue =>
    .call (.sendGroup (q.rejection payload requeue)) fun reply => .done (reply.mapError failed)

/-- A turn of a stream that has no connection. -/
def connecting (q : Queue) : Client Turn :=
  .call .connect fun
    | .error failure => .done (.item ⟨false⟩ (.error failure))
    | .ok _ => q.receive

/-- Whether a program gives no stream but right after it has found nothing in flight. -/
def Careful (q : Queue) : Client (Option (Except QueueError Stream)) → Prop
  | .done outcome => ∀ stream, outcome ≠ some (.ok stream)
  | .call c next => ∀ reply,
    (c.effect reply = .clears q.inFlightKey ∧ ∃ outcome, next reply = .done outcome) ∨
      q.Careful (next reply)

variable {q : Queue}

theorem settle_eq (q : Queue) (payload : Payload) (verdict : Verdict) :
    q.settle payload verdict =
      .call .connect fun
        | .error failure => .done (.error (failed failure))
        | .ok _ => q.settling payload verdict := by
  cases verdict with
  | ack =>
    refine congrArg (Program.call Call.connect) (funext fun reply => ?_)
    match reply with
    | .error failure => rfl
    | .ok _ =>
      refine congrArg (Program.call (Call.send (.remove q.inFlightKey payload))) (funext fun reply => ?_)
      match reply with
      | .error failure => rfl
      | .ok _ => rfl
  | reject requeue =>
    refine congrArg (Program.call Call.connect) (funext fun reply => ?_)
    match reply with
    | .error failure => rfl
    | .ok _ => rfl

/-- A settlement over a connection is one call, which settles the message if it is heard of. -/
theorem settling_cases {payload : Payload} {verdict : Verdict} {c : Call}
    {next : c.Reply → Client (Except QueueError Unit)}
    (settling : q.settling payload verdict = .call c next) :
    c ∈ (Operation.settle q payload verdict).calls ∧ ∀ reply,
      (c.effect reply = .nothing ∧ ∃ error, next reply = .done (.error error)) ∨
      ∃ requeue, c.effect reply = .settles payload q.inFlightKey requeue ∧ next reply = .done (.ok ()) := by
  cases verdict with
  | ack =>
    cases settling
    refine ⟨List.mem_singleton.2 rfl, fun reply => ?_⟩
    match reply with
    | .error failure => exact .inl ⟨rfl, _, rfl⟩
    | .ok answer => exact .inr ⟨_, rfl, rfl⟩
  | reject requeue =>
    cases settling
    refine ⟨List.mem_singleton.2 rfl, fun reply => ?_⟩
    match reply with
    | .error failure => exact .inl ⟨rfl, _, rfl⟩
    | .ok _ => exact .inr ⟨_, rfl, rfl⟩

private theorem turn_cases (q : Queue) (lost : Bool) (stream : Stream) :
    stream.turn q lost = .done .ended ∨ stream.turn q lost = q.connecting ∨
      stream.turn q lost = q.receive := by
  unfold Stream.turn
  split
  · exact .inl rfl
  split
  · exact .inr (.inr rfl)
  · exact .inr (.inl rfl)

private theorem careful_bind {β : Type} (p : Client β)
    {f : β → Client (Option (Except QueueError Stream))} (careful : ∀ b, q.Careful (f b)) :
    q.Careful (p.bind f) := by
  induction p with
  | done b => exact careful b
  | call c next ih => exact fun reply => .inr (ih reply)

/-- The recovery ends well only when the last move found nothing. -/
theorem careful_loop {finish : Nat ⊕ Except Failure Nat → Client (Option (Except QueueError Stream))}
    (cut : ∀ count, q.Careful (finish (.inl count)))
    (failed : ∀ failure, q.Careful (finish (.inr (.error failure))))
    (ends : ∀ count, ∃ outcome, finish (.inr (.ok count)) = .done outcome) (turns count : Nat) :
    q.Careful ((Program.loop q.restore turns count).bind finish) := by
  induction turns generalizing count with
  | zero => exact cut count
  | succ turns ih =>
    intro reply
    match reply with
    | .error failure => exact .inr (failed failure)
    | .ok (.bytes _) => exact .inr (ih (count + 1))
    | .ok .nil => exact .inl ⟨rfl, ends count⟩
    | .ok (.status _) => exact .inr (failed .unexpected)
    | .ok (.integer _) => exact .inr (failed .unexpected)

private theorem careful_consume (q : Queue) (turns : Nat) : q.Careful (q.consume turns) := by
  refine careful_bind q.lease.claim fun claimed => ?_
  match claimed with
  | .error failure => exact fun stream => by simp
  | .ok false => exact fun stream => by simp
  | .ok true =>
    intro reply
    match reply with
    | .error failure => exact .inr fun stream => by simp [Except.map]
    | .ok _ =>
      right
      show q.Careful (((Program.loop q.restore turns 0).bind _).bind _)
      rw [Program.bind_assoc]
      refine careful_loop ?_ ?_ ?_ turns 0
      · exact fun count => nofun
      · exact fun failure => nofun
      · exact fun count => ⟨_, rfl⟩

end Queue

/-! ## Steps of one consumer -/

private theorem Handout.after_settling (q : Queue) (payload : Payload) (verdict : Verdict) :
    Handout.after payload verdict (q.settling payload verdict) =
      .settling payload verdict (q.settling payload verdict) := by
  cases verdict <;> rfl

namespace Session

variable {name : String} {S T : Session}

/-- A consumer all of whose calls are those of its operations. -/
structure Tidy (name : String) (S : Session) : Prop where
  named : S.queue.name = name
  opening : ∀ turns rest, S.phase = .opening turns rest →
    rest.Within (Operation.consume S.queue turns).Sends ∧ S.handouts = [] ∧
      (S.queue.Careful rest ∨ ∃ outcome, rest = .done outcome)
  asking : ∀ stream rest, S.phase = .asking stream rest →
    rest = S.queue.connecting ∨ rest = S.queue.receive
  refreshing : ∀ rest, S.refreshing = some rest → rest.Within (Operation.refresh S.queue).Sends
  settling : ∀ payload verdict rest, .settling payload verdict rest ∈ S.handouts →
    rest = S.queue.settle payload verdict ∨ rest = S.queue.settling payload verdict

/-- A step in which a consumer is handed out nothing and settles nothing with success. -/
structure Eases (S T : Session) : Prop where
  queue : T.queue = S.queue
  live : T.Live → S.Live
  active : T.Active → S.Active
  inHand : ∀ payload, T.inHand payload ≤ S.inHand payload
  unsettled : ∀ payload, S.unsettled payload ≤ T.unsettled payload

theorem active_of_live (live : S.Live) : S.Active := by
  intro done
  rw [Live, done] at live
  exact live

private theorem inHand_le_of_handouts (handouts : T.handouts = S.handouts) (live : T.Live → S.Live)
    (payload : Payload) : T.inHand payload ≤ S.inHand payload := by
  unfold inHand
  rw [handouts]
  split
  · next still => rw [if_pos (live still)]
  · exact Nat.zero_le _

private theorem eases_of_handouts (queue : T.queue = S.queue) (handouts : T.handouts = S.handouts)
    (live : T.Live → S.Live) (active : T.Active → S.Active) : S.Eases T := by
  refine ⟨queue, live, active, inHand_le_of_handouts handouts live, fun payload => ?_⟩
  simp only [Session.unsettled, handouts, le_refl]

private theorem eases_close (S : Session) : S.Eases S.close :=
  eases_of_handouts rfl rfl False.elim fun active => (active rfl).elim

private theorem Tidy.close (tidy : S.Tidy name) : S.close.Tidy name :=
  ⟨tidy.named, nofun, nofun, nofun, tidy.settling⟩

private theorem tidy_begin (q : Queue) (turns : Nat) : (begin q turns).Tidy q.name := by
  refine ⟨rfl, ?_, nofun, nofun, fun payload verdict rest mem => by cases mem⟩
  rintro _ _ ⟨⟩
  exact ⟨(Operation.consume q turns).within_client, rfl, .inl (q.careful_consume turns)⟩

private theorem opened_keeps (S : Session) (turns : Nat)
    (rest : Client (Option (Except QueueError Queue.Stream))) :
    (S.opened turns rest).queue = S.queue ∧ (S.opened turns rest).handouts = S.handouts := by
  unfold opened
  split <;> exact ⟨rfl, rfl⟩

private theorem eases_opened {turns : Nat} {old rest : Client (Option (Except QueueError Queue.Stream))}
    (phase : S.phase = .opening turns old) (careful : S.queue.Careful rest) :
    S.Eases (S.opened turns rest) := by
  match rest with
  | .call c next =>
    refine eases_of_handouts rfl rfl False.elim fun _ done => ?_
    rw [phase] at done
    cases done
  | .done (some (.ok stream)) => exact absurd rfl (careful stream)
  | .done none => exact eases_close S
  | .done (some (.error _)) => exact eases_close S

private theorem Tidy.opened (tidy : S.Tidy name) {turns : Nat}
    {rest : Client (Option (Except QueueError Queue.Stream))} (none' : S.handouts = [])
    (within : rest.Within (Operation.consume S.queue turns).Sends)
    (careful : S.queue.Careful rest ∨ ∃ outcome, rest = .done outcome) :
    (S.opened turns rest).Tidy name := by
  match rest with
  | .call c next =>
    refine ⟨tidy.named, ?_, nofun, tidy.refreshing, tidy.settling⟩
    rintro _ _ ⟨⟩
    exact ⟨within, none', careful⟩
  | .done (some (.ok stream)) => exact ⟨tidy.named, nofun, nofun, tidy.refreshing, tidy.settling⟩
  | .done none => exact tidy.close
  | .done (some (.error _)) => exact tidy.close

private theorem live_of_asking {stream : Queue.Stream} {rest : Client Queue.Turn}
    (phase : S.phase = .asking stream rest) : S.Live := by
  rw [Live, phase]
  trivial

private theorem live_of_idle {stream : Queue.Stream} (phase : S.phase = .idle stream) : S.Live := by
  rw [Live, phase]
  trivial

private theorem Tidy.asks (tidy : S.Tidy name) {stream : Queue.Stream} {rest : Client Queue.Turn}
    (asks : rest = S.queue.connecting ∨ rest = S.queue.receive) :
    { S with phase := .asking stream rest }.Tidy name := by
  refine ⟨tidy.named, nofun, ?_, tidy.refreshing, tidy.settling⟩
  rintro _ _ ⟨⟩
  exact asks

private theorem Tidy.rests (tidy : S.Tidy name) (stream : Queue.Stream) :
    { S with phase := .idle stream }.Tidy name :=
  ⟨tidy.named, nofun, nofun, tidy.refreshing, tidy.settling⟩

private theorem eases_phase {phase : Phase} (live : S.Live) : S.Eases { S with phase } :=
  eases_of_handouts rfl rfl (fun _ => live) fun _ => active_of_live live

private theorem Tidy.polls (tidy : S.Tidy name) (live : S.Live) (stream : Queue.Stream) :
    (S.heard stream (stream.turn S.queue S.lost)).Tidy name ∧
      S.Eases (S.heard stream (stream.turn S.queue S.lost)) := by
  rcases S.queue.turn_cases S.lost stream with ended | asks | asks
  · rw [ended]
    exact ⟨tidy.close, eases_close S⟩
  · rw [asks]
    exact ⟨tidy.asks (.inl rfl), eases_phase live⟩
  · rw [asks]
    exact ⟨tidy.asks (.inr rfl), eases_phase live⟩

private theorem Tidy.refreshed (tidy : S.Tidy name) {rest : Client Bool}
    (within : rest.Within (Operation.refresh S.queue).Sends) : (S.refreshed rest).Tidy name := by
  unfold Session.refreshed
  split
  · refine ⟨tidy.named, tidy.opening, tidy.asking, ?_, tidy.settling⟩
    rintro _ ⟨⟩
    exact within
  · exact ⟨tidy.named, tidy.opening, tidy.asking, nofun, tidy.settling⟩

private theorem eases_handout {front back : List Handout} {old new : Handout}
    (handouts : S.handouts = front ++ old :: back)
    (inHand : ∀ payload, new.inHand payload → old.inHand payload)
    (unsettled : ∀ payload, old.unsettled payload → new.unsettled payload) :
    S.Eases { S with handouts := front ++ new :: back } := by
  refine ⟨rfl, id, id, fun payload => ?_, fun payload => ?_⟩
  · by_cases live : S.Live
    · have less := inHand payload
      have same : { S with handouts := front ++ new :: back }.Live := live
      simp only [Session.inHand, live, same, handouts, List.countP_append, List.countP_cons, if_true]
      cases held : new.inHand payload with
      | false => simp
      | true => simp [less held]
    · have same : ¬ { S with handouts := front ++ new :: back }.Live := live
      simp [Session.inHand, same]
  · have more := unsettled payload
    simp only [Session.unsettled, handouts, List.countP_append, List.countP_cons]
    cases left : old.unsettled payload with
    | false => simp
    | true => simp [more left]

private theorem Tidy.handout (tidy : S.Tidy name) {front back : List Handout} {old new : Handout}
    (handouts : S.handouts = front ++ old :: back)
    (settling : ∀ payload verdict rest, new = .settling payload verdict rest →
      rest = S.queue.settle payload verdict ∨ rest = S.queue.settling payload verdict) :
    { S with handouts := front ++ new :: back }.Tidy name := by
  refine ⟨tidy.named, fun turns rest phase => ?_, tidy.asking, tidy.refreshing, ?_⟩
  · have none' := (tidy.opening turns rest phase).2.1
    rw [handouts] at none'
    simp at none'
  · intro payload verdict rest mem
    rcases List.mem_append.1 mem with first | last
    · exact tidy.settling _ _ _ (handouts ▸ List.mem_append_left _ first)
    rcases List.mem_cons.1 last with same | last
    · exact settling payload verdict rest same.symm
    · exact tidy.settling _ _ _ (handouts ▸ List.mem_append_right _ (List.mem_cons_of_mem _ last))

end Session

/-- What a consumer makes of an effect that it hears of. -/
def Effect.Heard (S T : Session) : Effect → Prop
  | .nothing | .publishes _ => S.Eases T
  | .restores _ key => key = S.queue.inFlightKey ∧ S.Active ∧ S.handouts = [] ∧ S.Eases T
  | .clears key =>
    key = S.queue.inFlightKey ∧ T.queue = S.queue ∧ (T.Active → S.Active) ∧ S.handouts = [] ∧
      T.handouts = []
  | .receives payload key =>
    key = S.queue.inFlightKey ∧ T.queue = S.queue ∧ S.Live ∧ T.Live ∧
      T.handouts = S.handouts ++ [.held payload]
  | .settles payload key _ =>
    key = S.queue.inFlightKey ∧ T.queue = S.queue ∧ T.phase = S.phase ∧
      ∃ front verdict rest back outcome,
        S.handouts = front ++ .settling payload verdict rest :: back ∧
        T.handouts = front ++ .settled payload outcome :: back

namespace Session

variable {name : String} {S : Session} {op : Operation} {c : Call} {go : c.Reply → Session}

private theorem effect_consume {q : Queue} {turns : Nat} (sends : (Operation.consume q turns).Sends c)
    (reply : c.Reply) :
    c.effect reply = .nothing ∨ (∃ payload, c.effect reply = .restores payload q.inFlightKey) ∨
      c.effect reply = .clears q.inFlightKey := by
  rcases sends with rfl | sends
  · exact .inl rfl
  rcases List.mem_cons.1 sends with rfl | sends
  · cases reply <;> exact .inl rfl
  obtain rfl := List.mem_singleton.1 sends
  match reply with
  | .error _ => exact .inl rfl
  | .ok (.bytes payload) => exact .inr (.inl ⟨payload, rfl⟩)
  | .ok .nil => exact .inr (.inr rfl)
  | .ok (.status _) => exact .inl rfl
  | .ok (.integer _) => exact .inl rfl

/-- A call is one of the operation of a consumer, and the consumer makes of the reply what its effect
tells. -/
def Hears (name : String) (S : Session) (op : Operation) (c : Call) (go : c.Reply → Session) : Prop :=
  Deed.Proper name ⟨op, c⟩ ∧ ∀ reply, (go reply).Tidy name ∧ (c.effect reply).Heard S (go reply)

private theorem Tidy.hears_opening (tidy : S.Tidy name) {turns : Nat}
    {next : c.Reply → Client (Option (Except QueueError Queue.Stream))}
    (phase : S.phase = .opening turns (.call c next)) :
    S.Hears name (.consume S.queue turns) c fun reply => S.opened turns (next reply) := by
  obtain ⟨within, none', careful⟩ := tidy.opening turns _ phase
  have careful := careful.resolve_right (by simp)
  refine ⟨⟨tidy.named, within.1⟩, fun reply => ?_⟩
  have active : S.Active := by
    intro done
    rw [phase] at done
    cases done
  obtain ⟨queue, handouts⟩ := S.opened_keeps turns (next reply)
  have cleared : (Effect.clears S.queue.inFlightKey).Heard S (S.opened turns (next reply)) :=
    ⟨rfl, queue, fun _ => active, none', handouts.trans none'⟩
  rcases careful reply with ⟨clears, outcome, done⟩ | careful
  · refine ⟨tidy.opened none' (within.2 reply) (.inr ⟨outcome, done⟩), ?_⟩
    rw [clears]
    exact cleared
  · have eases := eases_opened phase careful
    refine ⟨tidy.opened none' (within.2 reply) (.inl careful), ?_⟩
    rcases effect_consume within.1 reply with nothing | ⟨payload, restores⟩ | clears
    · rw [nothing]
      exact eases
    · rw [restores]
      exact ⟨rfl, active, none', eases⟩
    · rw [clears]
      exact cleared

private theorem Tidy.hears_asking (tidy : S.Tidy name) {stream : Queue.Stream}
    {next : c.Reply → Client Queue.Turn} (phase : S.phase = .asking stream (.call c next)) :
    S.Hears name (.turn S.queue false stream) c fun reply => S.heard stream (next reply) := by
  have live := live_of_asking phase
  rcases tidy.asking stream _ phase with asks | asks
  · cases asks
    refine ⟨⟨tidy.named, .inl rfl⟩, fun reply => ?_⟩
    match reply with
    | .error failure => exact ⟨tidy.rests _, eases_phase live⟩
    | .ok _ => exact ⟨tidy.asks (.inr rfl), eases_phase live⟩
  · cases asks
    refine ⟨⟨tidy.named, .inr (List.mem_singleton.2 rfl)⟩, fun reply => ?_⟩
    match reply with
    | .error failure => exact ⟨tidy.rests _, eases_phase live⟩
    | .ok .nil => exact ⟨tidy.rests _, eases_phase live⟩
    | .ok (.status _) => exact ⟨tidy.rests _, eases_phase live⟩
    | .ok (.integer _) => exact ⟨tidy.rests _, eases_phase live⟩
    | .ok (.bytes payload) =>
      refine ⟨⟨tidy.named, nofun, nofun, tidy.refreshing, ?_⟩, rfl, rfl, live, trivial, rfl⟩
      intro payload verdict rest mem
      exact tidy.settling payload verdict rest ((List.mem_append.1 mem).resolve_right (by simp))

private theorem Tidy.hears_refreshing (tidy : S.Tidy name) {next : c.Reply → Client Bool}
    (claims : S.refreshing = some (.call c next)) :
    S.Hears name (.refresh S.queue) c fun reply => S.refreshed (next reply) := by
  have within := tidy.refreshing _ claims
  refine ⟨⟨tidy.named, within.1⟩, fun reply => ?_⟩
  have eases : S.Eases (S.refreshed (next reply)) := by
    unfold Session.refreshed
    split <;> exact eases_of_handouts rfl rfl id id
  have nothing : c.effect reply = .nothing := by
    rcases within.1 with rfl | sends
    · rfl
    · obtain rfl := List.mem_singleton.1 sends
      cases reply <;> rfl
  exact ⟨tidy.refreshed (within.2 reply), nothing ▸ eases⟩

private theorem Tidy.hears_settling (tidy : S.Tidy name) {front back : List Handout} {payload : Payload}
    {verdict : Verdict} {next : c.Reply → Client (Except QueueError Unit)}
    (handouts : S.handouts = front ++ .settling payload verdict (.call c next) :: back) :
    S.Hears name (.settle S.queue payload verdict) c fun reply =>
      { S with handouts := front ++ .after payload verdict (next reply) :: back } := by
  have here : .settling payload verdict (.call c next) ∈ S.handouts := by simp [handouts]
  have failed (error : QueueError) :
      { S with handouts := front ++ Handout.settled payload (.error error) :: back }.Tidy name ∧
        S.Eases { S with handouts := front ++ Handout.settled payload (.error error) :: back } :=
    ⟨tidy.handout handouts nofun, eases_handout handouts nofun fun _ => id⟩
  rcases tidy.settling payload verdict _ here with asks | asks
  · rw [Queue.settle_eq] at asks
    cases asks
    refine ⟨⟨tidy.named, .inl rfl⟩, fun reply => ?_⟩
    match reply with
    | .error failure => exact failed _
    | .ok _ =>
      simp only [Handout.after_settling]
      refine ⟨tidy.handout handouts ?_, eases_handout handouts (fun _ => id) fun _ => id⟩
      rintro _ _ _ ⟨⟩
      exact .inr rfl
  · obtain ⟨sends, hears⟩ := Queue.settling_cases asks.symm
    refine ⟨⟨tidy.named, .inr sends⟩, fun reply => ?_⟩
    rcases hears reply with ⟨nothing, error, done⟩ | ⟨requeue, settles, done⟩
    · simp only [nothing, done]
      exact failed error
    · simp only [settles, done]
      exact ⟨tidy.handout handouts nofun, rfl, rfl, rfl, front, _, _, back, .ok (), handouts, rfl⟩

/-- What a consumer waits for is a call of its own, and it makes of the reply what its effect tells. -/
theorem Waits.hears (waits : S.Waits op c go) (tidy : S.Tidy name) : S.Hears name op c go := by
  cases waits with
  | opening phase => exact tidy.hears_opening phase
  | asking phase => exact tidy.hears_asking phase
  | refreshing claims => exact tidy.hears_refreshing claims
  | settling handouts => exact tidy.hears_settling handouts

end Session

/-! ## Steps of a fleet -/

theorem Effect.Heard.keeps {effect : Effect} {S T : Session} (hears : effect.Heard S T) :
    T.queue = S.queue ∧ (T.Active → S.Active) := by
  cases effect with
  | nothing | publishes => exact ⟨hears.queue, hears.active⟩
  | restores => exact ⟨hears.2.2.2.queue, hears.2.2.2.active⟩
  | clears => exact ⟨hears.2.1, hears.2.2.1⟩
  | receives => exact ⟨hears.2.1, fun _ => Session.active_of_live hears.2.2.1⟩
  | settles =>
    obtain ⟨_, queue, phase, _⟩ := hears
    exact ⟨queue, fun active done => active (phase.trans done)⟩

namespace Fleet

variable {name : String} {n later : Fleet}

/-- A fleet in which everyone does what a consumer does, and no two at work have one token. -/
structure Orderly (name : String) (n : Fleet) : Prop where
  sessions : ∀ S ∈ n.sessions, S.Tidy name
  adrift : ∀ deed ∈ n.adrift, deed.Proper name
  apart : n.sessions.Pairwise fun S T => S.Active → T.Active → S.queue.token ≠ T.queue.token

/-- What a step can be, as far as messages go. -/
inductive Change (name : String) (n later : Fleet) : Prop
  | still (lists : later.store.lists = n.store.lists) (sessions : later.sessions = n.sessions)
    (log : later.log = n.log)
  | joins (q : Queue) (turns : Nat) (lists : later.store.lists = n.store.lists)
    (sessions : later.sessions = n.sessions ++ [.begin q turns]) (log : later.log = n.log)
  | eases {front back : List Session} {S T : Session} (lists : later.store.lists = n.store.lists)
    (before : n.sessions = front ++ S :: back) (after : later.sessions = front ++ T :: back)
    (log : later.log = n.log) (eases : S.Eases T)
  | heard {effect : Effect} {front back : List Session} {S T : Session}
    (before : n.sessions = front ++ S :: back) (after : later.sessions = front ++ T :: back)
    (log : later.log = n.log ++ [⟨effect, n.store, n.sessions, some S⟩])
    (on : effect.On name n.store later.store) (hears : effect.Heard S T)
  | late {effect : Effect} (sessions : later.sessions = n.sessions)
    (log : later.log = n.log ++ [⟨effect, n.store, n.sessions, none⟩])
    (on : effect.On name n.store later.store)

private theorem Orderly.opening (store : Store) : Orderly name (opening store) :=
  ⟨by simp [Fleet.opening], by simp [Fleet.opening], .nil⟩

private theorem Orderly.moved {s after : Store} {front back : List Session} {adrift rest : List Deed}
    {log more : List Note} {S T : Session} (orderly : Orderly name ⟨s, front ++ S :: back, adrift, log⟩)
    (tidy : T.Tidy name) (queue : T.queue = S.queue) (active : T.Active → S.Active)
    (proper : ∀ deed ∈ rest, deed.Proper name) :
    Orderly name ⟨after, front ++ T :: back, rest, more⟩ := by
  refine ⟨fun other mem => ?_, proper, ?_⟩
  · rcases List.mem_append.1 mem with first | last
    · exact orderly.sessions other (List.mem_append_left _ first)
    rcases List.mem_cons.1 last with rfl | last
    · exact tidy
    · exact orderly.sessions other (List.mem_append_right _ (List.mem_cons_of_mem _ last))
  · have apart := orderly.apart
    rw [List.pairwise_append, List.pairwise_cons] at apart ⊢
    obtain ⟨before, ⟨here, after⟩, between⟩ := apart
    refine ⟨before, ⟨fun other mem is => ?_, after⟩, fun other mem some' among is => ?_⟩
    · rw [queue]
      exact here other mem (active is)
    · rcases List.mem_cons.1 among with rfl | among
      · rw [queue]
        exact fun alive => between other mem S List.mem_cons_self is (active alive)
      · exact between other mem some' (List.mem_cons_of_mem _ among) is

private theorem Orderly.tidy {s : Store} {front back : List Session} {adrift : List Deed} {log : List Note}
    {S : Session} (orderly : Orderly name ⟨s, front ++ S :: back, adrift, log⟩) : S.Tidy name :=
  orderly.sessions S (List.mem_append_right _ List.mem_cons_self)

private theorem proper_underway {S : Session} (tidy : S.Tidy name) :
    ∀ deed ∈ S.underway, deed.Proper name := by
  intro deed mem
  rcases List.mem_append.1 mem with asks | claims
  · split at asks
    · next phase =>
      rw [List.mem_singleton.1 asks]
      exact ((Session.Waits.opening phase).hears tidy).1
    · next phase =>
      rw [List.mem_singleton.1 asks]
      exact ((Session.Waits.asking phase).hears tidy).1
    · cases asks
  · split at claims
    · next refreshing =>
      rw [List.mem_singleton.1 claims]
      exact ((Session.Waits.refreshing refreshing).hears tidy).1
    · cases claims

/-- Nothing happens but what consumers and publishers do, and it is of one of the kinds told. -/
theorem Orderly.step (orderly : Orderly name n) (step : Step name n later) :
    Orderly name later ∧ Change name n later := by
  cases step with
  | publishes q payload named sends carried =>
    have proper : Deed.Proper name ⟨.publish q payload, _⟩ := ⟨named, sends⟩
    exact ⟨⟨orderly.sessions, orderly.adrift, orderly.apart⟩, .late rfl rfl (proper.effect_on carried)⟩
  | consumes q turns named alone =>
    refine ⟨⟨fun S mem => ?_, orderly.adrift, ?_⟩, .joins q turns rfl rfl rfl⟩
    · rcases List.mem_append.1 mem with old | new
      · exact orderly.sessions S old
      · rw [List.mem_singleton.1 new, ← named]
        exact Session.tidy_begin q turns
    · refine List.pairwise_append.2 ⟨orderly.apart, List.pairwise_singleton _ _, ?_⟩
      intro S mem T new active _ same
      rw [List.mem_singleton.1 new] at same
      exact (alone S mem same).2 active
  | polls front back idle =>
    obtain ⟨tidy, eases⟩ := orderly.tidy.polls (Session.live_of_idle idle) _
    exact ⟨orderly.moved tidy eases.queue eases.active orderly.adrift, .eases rfl rfl rfl rfl eases⟩
  | @refreshes s front back _ _ S live kept resting =>
    have tidy : { S with refreshing := some S.queue.lease.refresh }.Tidy name := by
      refine ⟨orderly.tidy.named, orderly.tidy.opening, orderly.tidy.asking, ?_, orderly.tidy.settling⟩
      rintro _ ⟨⟩
      exact (Operation.refresh S.queue).within_client
    exact ⟨orderly.moved tidy rfl id orderly.adrift,
      .eases rfl rfl rfl rfl (Session.eases_of_handouts rfl rfl id id)⟩
  | settles front back handouts verdict =>
    refine ⟨orderly.moved (orderly.tidy.handout handouts ?_) rfl id orderly.adrift,
      .eases rfl rfl rfl rfl (Session.eases_handout handouts (fun _ => id) fun _ => id)⟩
    rintro _ _ _ ⟨⟩
    exact .inl rfl
  | @closes s front back _ _ S =>
    refine ⟨orderly.moved orderly.tidy.close rfl (fun active => (active rfl).elim) ?_,
      .eases rfl rfl rfl rfl S.eases_close⟩
    intro deed mem
    rcases List.mem_append.1 mem with old | new
    · exact orderly.adrift deed old
    · exact proper_underway orderly.tidy deed new
  | answered front back waits carried =>
    obtain ⟨proper, hears⟩ := waits.hears orderly.tidy
    obtain ⟨tidy, heard⟩ := hears _
    obtain ⟨queue, active⟩ := heard.keeps
    exact ⟨orderly.moved tidy queue active orderly.adrift,
      .heard rfl rfl rfl (proper.effect_on carried) heard⟩
  | expires front back waits =>
    obtain ⟨tidy, eases⟩ := (waits.hears orderly.tidy).2 (.ok .nil)
    exact ⟨orderly.moved tidy eases.queue eases.active orderly.adrift, .eases rfl rfl rfl rfl eases⟩
  | @breaks s front back _ _ S op c go waits failure =>
    obtain ⟨proper, hears⟩ := waits.hears orderly.tidy
    obtain ⟨tidy, eases⟩ := hears (c.broken failure)
    rw [c.effect_broken] at eases
    refine ⟨orderly.moved tidy eases.queue eases.active ?_, .eases rfl rfl rfl rfl eases⟩
    intro deed mem
    rcases List.mem_append.1 mem with old | new
    · exact orderly.adrift deed old
    · rw [List.mem_singleton.1 new]
      exact proper
  | arrives front back deed carried =>
    have proper := orderly.adrift _ (List.mem_append_right _ List.mem_cons_self)
    refine ⟨⟨orderly.sessions, fun other mem => orderly.adrift other ?_, orderly.apart⟩,
      .late rfl rfl (proper.effect_on carried)⟩
    rcases List.mem_append.1 mem with first | last
    · exact List.mem_append_left _ first
    · exact List.mem_append_right _ (List.mem_cons_of_mem _ last)
  | passes millis => exact ⟨⟨orderly.sessions, orderly.adrift, orderly.apart⟩, .still rfl rfl rfl⟩

/-- What holds at the opening and is kept by every step holds ever after. -/
theorem Reachable.induct {start : Store} (Holds : Fleet → Prop) (opens : Holds (Fleet.opening start))
    (keeps : ∀ {n later}, Orderly name n → Holds n → Change name n later → Holds later)
    (reach : Reachable name start n) : Orderly name n ∧ Holds n := by
  induction reach with
  | refl => exact ⟨.opening start, opens⟩
  | tail _ step ih =>
    obtain ⟨orderly, change⟩ := ih.1.step step
    exact ⟨orderly, keeps ih.1 ih.2 change⟩

variable {start s : Store} {sessions : List Session} {adrift : List Deed} {log : List Note}

/-- What takes effect while a consumer that has nothing opens its stream. -/
def Opens (q : Queue) (sessions : List Session) (note : Note) : Prop :=
  match note.effect with
  | .nothing => True
  | .clears key => key = q.inFlightKey
  | .restores _ key =>
    key = q.inFlightKey ∧ ∃ S : Session, S.handouts = [] ∧ note.sessions = sessions ++ [S]
  | .publishes _ | .receives .. | .settles .. => False

theorem Opens.quiet {q : Queue} {note : Note} (opens : Opens q sessions note) (payload : Payload) :
    note.effect ≠ .publishes payload ∧ ∀ key, note.effect ≠ .receives payload key := by
  unfold Opens at opens
  split at opens
  · next nothing => simp [nothing]
  · next clears => simp [clears]
  · next restores => simp [restores]
  · cases opens
  · cases opens
  · cases opens

/-- A consumer that has its id moves back what was left in flight, and its stream is open. -/
theorem Reachable.restores {q : Queue} {turns : Nat}
    {finish : Nat ⊕ Except Failure Nat → Client (Option (Except QueueError Queue.Stream))}
    (ends : ∀ count, finish (.inr (.ok count)) = .done (some (.ok .fresh))) {left : List Payload}
    (list : s.list q.inFlightKey = left) (count : Nat)
    (reach : Reachable name start ⟨s, sessions ++
      [⟨q, .opening turns ((Program.loop q.restore (left.length + 1) count).bind finish), false, none, []⟩],
      adrift, log⟩) :
    ∃ notes, (∀ note ∈ notes, Opens q sessions note) ∧
      Reachable name start ⟨s.restored q.inFlightKey q.pendingKey left,
        sessions ++ [⟨q, .idle .fresh, false, none, []⟩], adrift, log ++ notes⟩ := by
  have apart : q.inFlightKey ≠ q.pendingKey := (Store.pending_ne (isInFlight_inFlightKey q)).symm
  induction left generalizing s count log with
  | nil =>
    have nothing : s.perform (.send (Operation.restoring q)) = some (.ok .nil, s) := by
      simp [Store.perform, Operation.restoring, Store.execute, Store.move, list, Side.take?]
    let S : Session := ⟨q, .opening turns ((Program.loop q.restore 1 count).bind finish), false, none, []⟩
    have moved := reach.tail (.answered sessions [] (.opening rfl) nothing)
    have opened : Reachable name start
        ⟨s, sessions ++ [S.opened turns (finish (.inr (.ok count)))], adrift,
          log ++ [⟨.clears q.inFlightKey, s, sessions ++ [S], some S⟩]⟩ := moved
    rw [ends] at opened
    refine ⟨_, ?_, opened⟩
    exact List.forall_mem_singleton.2 rfl
  | cons item rest ih =>
    have moved := reach.tail (.answered sessions [] (.opening rfl) (Store.perform_restoring list))
    obtain ⟨notes, opens, opened⟩ := ih (by simp [apart]) (count + 1) moved
    rw [List.append_assoc] at opened
    refine ⟨_, ?_, opened⟩
    exact List.forall_mem_cons.2 ⟨⟨rfl, _, rfl, rfl⟩, opens⟩

/-- A consumer opens its stream when its id is free. -/
theorem Reachable.opens (reach : Reachable name start ⟨s, sessions, adrift, log⟩) (q : Queue)
    (named : q.name = name) (others : ∀ other ∈ sessions, other.queue.token ≠ q.token)
    (free : q.lease.Open s) :
    ∃ notes, (∀ note ∈ notes, Opens q sessions note) ∧
      Reachable name start
        ⟨(q.lease.granted s).restored q.inFlightKey q.pendingKey (s.list q.inFlightKey),
          sessions ++ [⟨q, .idle .fresh, false, none, []⟩], adrift, log ++ notes⟩ := by
  have begun := reach.tail (.consumes q ((s.list q.inFlightKey).length + 1) named
    fun other mem same => absurd same (others other mem))
  have connected := begun.tail (.answered sessions [] (.opening rfl) rfl)
  have claimed := connected.tail (.answered sessions [] (.opening rfl)
    (Option.map_eq_some_iff.2 ⟨_, Lease.execute_open free, rfl⟩))
  have connected := claimed.tail (.answered sessions [] (.opening rfl) rfl)
  have unchanged : (q.lease.granted s).list q.inFlightKey = s.list q.inFlightKey := rfl
  obtain ⟨notes, opens, opened⟩ := Reachable.restores (fun _ => rfl) unchanged 0 (by
    rw [← Program.bind_assoc]
    exact connected)
  simp only [List.append_assoc] at opened
  refine ⟨_, ?_, opened⟩
  simp only [List.cons_append, List.nil_append, List.forall_mem_cons]
  exact ⟨trivial, trivial, trivial, opens⟩

/-- A consumer without a connection connects and asks for a message. -/
theorem Reachable.asks (front back : List Session) {S : Session}
    (reach : Reachable name start ⟨s, front ++ S :: back, adrift, log⟩) (idle : S.phase = .idle .fresh)
    (kept : S.lost = false) :
    ∃ note, note.effect = .nothing ∧
      Reachable name start
        ⟨s, front ++ { S with phase := .asking .fresh S.queue.receive } :: back, adrift, log ++ [note]⟩ := by
  obtain ⟨queue, phase, lost, refreshing, handouts⟩ := S
  cases idle
  cases kept
  have polled := reach.tail (.polls front back rfl)
  have connected := polled.tail (.answered front back (.asking rfl) rfl)
  exact ⟨_, rfl, connected⟩

end Fleet

end Vetting.Broker
