import Vetting.Broker.Client
import Vetting.Service
import Vetting.Time

/-!
The task queue on a broker. A message waits in the pending list; a consumer moves it in one step into
an in-flight list of its own, and removes it there when it is settled. A consumer that starts moves
back what an earlier run of it left in flight. An in-flight list belongs to one live consumer, which
holds the lease of its id: a token holds a key for a while, claims it again well before the while is
over, and gives up when another token has it. Main definitions: `publish`, `consume`, `Stream.turn`,
`ack` and `reject`.
-/
namespace Vetting.Broker

/-- A key, the token that wants to hold it, and for how long a claim holds. -/
structure Lease where
  key : String
  token : String
  ttl : Span
  deriving DecidableEq

namespace Lease

/-- How long a claim holds unless it is told otherwise. -/
def usual : Span := .ofSeconds 30

/-- The milliseconds for which a claim holds, as a word of sixty-four bits. -/
def millis (lease : Lease) : UInt64 := UInt64.ofNat (max lease.ttl.millis 1)

/-- The command by which a lease is claimed. -/
def command (lease : Lease) : Command := .lease lease.key lease.token lease.millis.toNat

/-- Claims the key, or claims it again; tells whether the token now has it. -/
def claim (lease : Lease) : Client (Except Failure Bool) :=
  .ask lease.command fun answer => answer.int64.map fun n => n = 1

/-- The time from one claim to the next. -/
def period (lease : Lease) : Span := lease.ttl.third

/-- Whether a claim shows that another token has the key. A claim that failed shows nothing. -/
def isLost : Except Failure Bool → Bool
  | .ok held => !held
  | .error _ => false

/-- Claims the key again and tells whether the lease is lost. -/
def refresh (lease : Lease) : Client Bool := do return isLost (← lease.claim)

end Lease

/-- A queue as one consumer sees it. -/
structure Queue where
  name : String
  consumer : String
  /-- What tells this consumer from others with its id. -/
  token : String
  /-- How long a claim of the id holds. -/
  ttl : Span
  deriving DecidableEq

namespace Queue

/-- The list of the messages that wait. The next to be handed out is at its right end. -/
def pendingKey (q : Queue) : String := q.name ++ ":pending"

/-- The list of the messages that this consumer has in hand. The newest is at its left end. -/
def inFlightKey (q : Queue) : String := q.name ++ ":in_flight:" ++ q.consumer

/-- The lease on the consumer id. -/
def lease (q : Queue) : Lease := ⟨q.name ++ ":consumer:" ++ q.consumer, q.token, q.ttl⟩

/-- The consumer with a lease that holds for another time. -/
def lasting (q : Queue) (ttl : Span) : Queue := { q with ttl }

/-- A failure of the broker as an error of the queue. -/
def failed (failure : Failure) : QueueError := .broker failure.message

/-- Puts a message into the queue. -/
def publish (q : Queue) (payload : Payload) : Client (Except QueueError Unit) := do
  return (← Client.tell (.push q.pendingKey payload)).mapError failed

/-- How many messages wait. -/
def depth (q : Queue) : Client (Except QueueError Nat) := do
  return (← Client.ask (.length q.pendingKey) Answer.nat64).mapError failed

/-- Whether the broker answers. -/
def checkHealth : Client (Except QueueError Unit) := do
  return (← Client.ask .ping fun answer => answer.text.map fun _ => ()).mapError failed

/-- Moves the newest message in flight to where it is the next to be handed out. `count` tells how
many were moved before; the result is their number when there is none left. -/
def restore (q : Queue) (count : Nat) : Client (Nat ⊕ Except Failure Nat) :=
  .call (.send (.move q.inFlightKey q.pendingKey .left .right)) fun reply =>
    .done <|
      match reply with
      | .error failure => .inr (.error failure)
      | .ok answer =>
        match answer.payload? with
        | .error failure => .inr (.error failure)
        | .ok (some _) => .inl (count + 1)
        | .ok none => .inr (.ok count)

/-- Moves all that is in flight back and tells how many messages it was. Nothing if there is more to
be done after so many turns. -/
def recover (q : Queue) (turns : Nat) : Client (Option (Except QueueError Nat)) :=
  .call .connect fun
    | .error failure => .done (some (.error (failed failure)))
    | .ok _ => do
      match ← Program.loop q.restore turns 0 with
      | .inl _ => return none
      | .inr outcome => return some (outcome.mapError failed)

/-- What a consumer keeps between two turns: whether it has a connection to wait on. -/
structure Stream where
  connected : Bool
  deriving DecidableEq, Repr

/-- A stream from which nothing was asked yet. -/
def Stream.fresh : Stream := ⟨false⟩

/-- Claims the consumer id, moves back what an earlier run left in flight, and opens a stream. If
another live consumer has the id, no list is touched. Nothing if the recovery is not over after so
many turns. -/
def consume (q : Queue) (turns : Nat) : Client (Option (Except QueueError Stream)) := do
  match ← q.lease.claim with
  | .error failure => return some (.error (failed failure))
  | .ok false => return some (.error (.consumerIdInUse q.consumer))
  | .ok true => return (← q.recover turns).map fun outcome => outcome.map fun _ => .fresh

/-- What a turn of a stream comes to. -/
inductive Turn
  /-- The lease is lost, and the stream is over. -/
  | ended
  /-- No message came in time. -/
  | again (next : Stream)
  | item (next : Stream) (outcome : Except Failure Payload)

/-- Waits for a message over the connection at hand. A failure costs the connection. -/
def receive (q : Queue) : Client Turn :=
  .call (.send (.awaitMove q.pendingKey q.inFlightKey .right .left)) fun reply =>
    .done <|
      match reply with
      | .error failure => .item ⟨false⟩ (.error failure)
      | .ok answer =>
        match answer.payload? with
        | .error failure => .item ⟨false⟩ (.error failure)
        | .ok none => .again ⟨true⟩
        | .ok (some payload) => .item ⟨true⟩ (.ok payload)

/-- One turn of a stream. Whether the lease is lost is looked at before anything else; a lost
connection is made anew. -/
def Stream.turn (q : Queue) (lost : Bool) (stream : Stream) : Client Turn :=
  if lost then .done .ended
  else if stream.connected then q.receive
  else .call .connect fun
    | .error failure => .done (.item ⟨false⟩ (.error failure))
    | .ok _ => q.receive

/-- Turns until one brings more than a wait that was in vain; the stream if none of so many did. -/
def Stream.next (q : Queue) (lost : Bool) (turns : Nat) (stream : Stream) : Client (Stream ⊕ Turn) :=
  Program.loop
    (fun stream => do
      match ← stream.turn q lost with
      | .again next => return .inl next
      | turn => return .inr turn)
    turns stream

/-- Done with a message. -/
def ack (q : Queue) (payload : Payload) : Client (Except QueueError Unit) := do
  return (← Client.tell (.remove q.inFlightKey payload)).mapError failed

/-- The commands that give a message back, to be queued again or not. -/
def rejection (q : Queue) (payload : Payload) (requeue : Bool) : List Command :=
  .remove q.inFlightKey payload :: if requeue then [.push q.pendingKey payload] else []

/-- Gives a message back. Its removal and its return to the queue are one step. -/
def reject (q : Queue) (payload : Payload) (requeue : Bool) : Client (Except QueueError Unit) := do
  return (← Client.tellGroup (q.rejection payload requeue)).mapError failed

/-- Settles a message. -/
def settle (q : Queue) (payload : Payload) : Verdict → Client (Except QueueError Unit)
  | .ack => q.ack payload
  | .reject requeue => q.reject payload requeue

end Queue

end Vetting.Broker
