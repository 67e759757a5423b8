import Mathlib
import Vetting.Broker.Queue
import Vetting.Broker.Store
import Vetting.Proofs.Program

/-!
Any number of publishers and consumers of one queue and the broker between them. An operation on the
queue begins at any time and goes on call by call. The broker carries out one command or one group as a
whole. A connection may break at any call: the client hears of a failure, and the broker may have carried
out the command, do so later, or never. An operation that is not heard of again is that of a client that
crashed. Main definitions: `Operation`, `Network.Step` and `Network.Reachable`.
-/
namespace Vetting.Broker

/-- What a publisher or a consumer does with its queue. A consumer opens a stream and takes one turn of
it after another; its lease is claimed again in the meantime, and what it was handed out is settled. -/
inductive Operation
  | publish (q : Queue) (payload : Payload)
  | depth (q : Queue)
  | checkHealth (q : Queue)
  | recover (q : Queue) (turns : Nat)
  | consume (q : Queue) (turns : Nat)
  | refresh (q : Queue)
  | turn (q : Queue) (lost : Bool) (stream : Queue.Stream)
  | settle (q : Queue) (payload : Payload) (verdict : Verdict)

namespace Operation

/-- The queue as the one who acts sees it. -/
def queue : Operation → Queue
  | .publish q _ | .depth q | .checkHealth q | .recover q _ | .consume q _ | .refresh q | .turn q ..
  | .settle q .. => q

/-- What an operation comes to. -/
def Result : Operation → Type
  | .publish .. | .checkHealth _ | .settle .. => Except QueueError Unit
  | .depth _ => Except QueueError Nat
  | .recover .. => Option (Except QueueError Nat)
  | .consume .. => Option (Except QueueError Queue.Stream)
  | .refresh _ => Bool
  | .turn .. => Queue.Turn

/-- The calls of an operation. -/
def client : (op : Operation) → Client op.Result
  | .publish q payload => q.publish payload
  | .depth q => q.depth
  | .checkHealth _ => Queue.checkHealth
  | .recover q turns => q.recover turns
  | .consume q turns => q.consume turns
  | .refresh q => q.lease.refresh
  | .turn q lost stream => stream.turn q lost
  | .settle q payload verdict => q.settle payload verdict

/-- The command that moves one message of an earlier run back. -/
def restoring (q : Queue) : Command := .move q.inFlightKey q.pendingKey .left .right

/-- The command that waits for a message. -/
def receiving (q : Queue) : Command := .awaitMove q.pendingKey q.inFlightKey .right .left

/-- What an operation can have the broker carry out. -/
def calls : Operation → List Call
  | .publish q payload => [.send (.push q.pendingKey payload)]
  | .depth q => [.send (.length q.pendingKey)]
  | .checkHealth _ => [.send .ping]
  | .recover q _ => [.send (restoring q)]
  | .consume q _ => [.send q.lease.command, .send (restoring q)]
  | .refresh q => [.send q.lease.command]
  | .turn q .. => [.send (receiving q)]
  | .settle q payload .ack => [.send (.remove q.inFlightKey payload)]
  | .settle q payload (.reject requeue) => [.sendGroup (q.rejection payload requeue)]

/-- Whether an operation makes a call: it connects, and has something carried out. -/
def Sends (op : Operation) (c : Call) : Prop := c = .connect ∨ c ∈ op.calls

section Sends

variable {α : Type} {Allowed : Call → Prop}

private theorem within_ask {c : Command} {read : Answer → Except Failure α} (connects : Allowed .connect)
    (allowed : Allowed (.send c)) : (Client.ask c read).Within Allowed := by
  refine ⟨connects, fun reply => ?_⟩
  cases reply with
  | error failure => trivial
  | ok _ =>
    refine ⟨allowed, fun reply => ?_⟩
    cases reply <;> trivial

private theorem within_restore (q : Queue) (allowed : Allowed (.send (restoring q))) (count : Nat) :
    (q.restore count).Within Allowed :=
  ⟨allowed, fun _ => trivial⟩

private theorem within_recover (q : Queue) (turns : Nat) (connects : Allowed .connect)
    (allowed : Allowed (.send (restoring q))) : (q.recover turns).Within Allowed := by
  refine ⟨connects, fun reply => ?_⟩
  cases reply with
  | error failure => trivial
  | ok _ =>
    refine .bind (.loop (within_restore q allowed) turns 0) fun outcome => ?_
    cases outcome <;> trivial

private theorem within_receive (q : Queue) (allowed : Allowed (.send (receiving q))) :
    q.receive.Within Allowed :=
  ⟨allowed, fun _ => trivial⟩

end Sends

/-- An operation makes no calls but its own, whatever it hears. -/
theorem within_client (op : Operation) : op.client.Within op.Sends := by
  have connects : op.Sends .connect := .inl rfl
  have first : ∀ {c rest}, op.calls = c :: rest → op.Sends c := by
    intro c rest calls
    exact .inr (calls ▸ List.mem_cons_self)
  cases op with
  | publish q payload => exact .bind (within_ask connects (first rfl)) fun _ => trivial
  | depth q => exact .bind (within_ask connects (first rfl)) fun _ => trivial
  | checkHealth q => exact .bind (within_ask connects (first rfl)) fun _ => trivial
  | recover q turns => exact within_recover q turns connects (first rfl)
  | consume q turns =>
    refine .bind (within_ask connects (first rfl)) fun claimed => ?_
    rcases claimed with failure | held
    · trivial
    cases held with
    | false => trivial
    | true =>
      have restores : (Operation.consume q turns).Sends (.send (restoring q)) := .inr (by simp [calls])
      exact .bind (within_recover q turns connects restores) fun _ => trivial
  | refresh q => exact .bind (within_ask connects (first rfl)) fun _ => trivial
  | turn q lost stream =>
    show (stream.turn q lost).Within _
    unfold Queue.Stream.turn
    split
    · trivial
    split
    · exact within_receive q (first rfl)
    · refine ⟨connects, fun reply => ?_⟩
      cases reply with
      | error failure => trivial
      | ok _ => exact within_receive q (first rfl)
  | settle q payload verdict =>
    cases verdict with
    | ack => exact .bind (within_ask connects (first rfl)) fun _ => trivial
    | reject requeue =>
      refine .bind ⟨connects, fun reply => ?_⟩ fun _ => trivial
      cases reply with
      | error failure => trivial
      | ok _ => exact ⟨first rfl, fun _ => trivial⟩

end Operation

/-- The reply to a call that the broker carries out and the store after it; nothing while the call
waits. -/
def Store.perform : Program.Performer Call Call.Reply Store
  | .connect, s => some (.ok (), s)
  | .send c, s => (s.execute c).map fun (answer, s) => (.ok answer, s)
  | .sendGroup cs, s => some (.ok (), s.executeAll cs)

/-- What is heard of a call whose connection breaks. -/
def Call.broken (failure : Failure) : (c : Call) → c.Reply
  | .connect => .error failure
  | .send _ => .error failure
  | .sendGroup _ => .error failure

/-- An operation and what is left of it. -/
structure Party where
  operation : Operation
  rest : Client operation.Result

/-- A call and the operation that made it. -/
structure Deed where
  operation : Operation
  call : Call

/-- A call that an operation on the queue with a name can make. -/
def Deed.Proper (name : String) (deed : Deed) : Prop :=
  deed.operation.queue.name = name ∧ deed.operation.Sends deed.call

/-- The broker, those who talk to it, the calls whose connections broke, and the calls that were carried
out, in their order. -/
structure Network where
  store : Store
  parties : List Party
  adrift : List Deed
  done : List Deed

namespace Network

/-- A network in which nothing has happened. -/
def opening (store : Store) : Network := ⟨store, [], [], []⟩

/-- What can happen next among those who use the queue with a name. -/
inductive Step (name : String) : Network → Network → Prop
  | begins {n : Network} (op : Operation) (named : op.queue.name = name) :
    Step name n { n with parties := n.parties ++ [⟨op, op.client⟩] }
  /-- A call is carried out and answered. -/
  | answered {s after : Store} (front back : List Party) {adrift done : List Deed} {op : Operation}
    {c : Call} {next : c.Reply → Client op.Result} {reply : c.Reply}
    (carried : s.perform c = some (reply, after)) :
    Step name ⟨s, front ++ ⟨op, .call c next⟩ :: back, adrift, done⟩
      ⟨after, front ++ ⟨op, next reply⟩ :: back, adrift, done ++ [⟨op, c⟩]⟩
  /-- No item came while a move waited. -/
  | expires {s : Store} (front back : List Party) {adrift done : List Deed} {op : Operation}
    {source target : String} {takes adds : Side}
    {next : Except Failure Answer → Client op.Result} :
    Step name
      ⟨s, front ++ ⟨op, .call (.send (.awaitMove source target takes adds)) next⟩ :: back, adrift, done⟩
      ⟨s, front ++ ⟨op, next (.ok .nil)⟩ :: back, adrift, done⟩
  /-- The connection of a call breaks. -/
  | breaks {s : Store} (front back : List Party) {adrift done : List Deed} {op : Operation} {c : Call}
    {next : c.Reply → Client op.Result} (failure : Failure) :
    Step name ⟨s, front ++ ⟨op, .call c next⟩ :: back, adrift, done⟩
      ⟨s, front ++ ⟨op, next (c.broken failure)⟩ :: back, adrift ++ [⟨op, c⟩], done⟩
  /-- A call whose connection broke is carried out all the same. -/
  | arrives {s after : Store} {parties : List Party} (front back : List Deed) {done : List Deed}
    (deed : Deed) {reply : deed.call.Reply} (carried : s.perform deed.call = some (reply, after)) :
    Step name ⟨s, parties, front ++ deed :: back, done⟩
      ⟨after, parties, front ++ back, done ++ [deed]⟩
  | passes {n : Network} (millis : Nat) : Step name n { n with store := n.store.later millis }

/-- What can come about in any number of steps. -/
abbrev Reachable (name : String) (start : Store) (n : Network) : Prop :=
  Relation.ReflTransGen (Step name) (opening start) n

/-- A network in which everyone does what an operation on the queue does. -/
structure Orderly (name : String) (n : Network) : Prop where
  parties : ∀ party ∈ n.parties, party.operation.queue.name = name ∧
    party.rest.Within party.operation.Sends
  adrift : ∀ deed ∈ n.adrift, deed.Proper name

/-- What a step leaves of what is kept: all of it, or what the call leaves that was carried out. -/
def Keeps (name : String) (n later : Network) : Prop :=
  (later.done = n.done ∧ later.store.lists = n.store.lists) ∨
    ∃ deed reply, deed.Proper name ∧ later.done = n.done ++ [deed] ∧
      n.store.perform deed.call = some (reply, later.store)

variable {name : String} {n later : Network}

private theorem Orderly.opening (store : Store) : Orderly name (opening store) :=
  ⟨by simp [Network.opening], by simp [Network.opening]⟩

/-- Nothing happens but what the operations do. -/
theorem Orderly.step (orderly : Orderly name n) (step : Step name n later) :
    Orderly name later ∧ Keeps name n later := by
  -- a party that goes on takes its place among the others
  have goes : ∀ {s after : Store} {front back : List Party} {adrift rest done more : List Deed}
      {op : Operation} {old new : Client op.Result},
      Orderly name ⟨s, front ++ ⟨op, old⟩ :: back, adrift, done⟩ →
      new.Within op.Sends → (∀ deed ∈ rest, deed.Proper name) →
      Orderly name ⟨after, front ++ ⟨op, new⟩ :: back, rest, more⟩ := by
    intro s after front back adrift rest done more op old new orderly within proper
    refine ⟨fun party mem => ?_, proper⟩
    rcases List.mem_append.1 mem with first | last
    · exact orderly.parties party (List.mem_append_left _ first)
    rcases List.mem_cons.1 last with rfl | last
    · exact ⟨(orderly.parties ⟨op, old⟩ (by simp)).1, within⟩
    · exact orderly.parties party (by simp [last])
  cases step with
  | begins op named =>
    refine ⟨⟨fun party mem => ?_, orderly.adrift⟩, .inl ⟨rfl, rfl⟩⟩
    rcases List.mem_append.1 mem with old | new
    · exact orderly.parties party old
    · rw [List.mem_singleton.1 new]
      exact ⟨named, op.within_client⟩
  | answered front back carried =>
    obtain ⟨named, sends, within⟩ := orderly.parties _ (List.mem_append_right _ List.mem_cons_self)
    exact ⟨goes orderly (within _) orderly.adrift, .inr ⟨_, _, ⟨named, sends⟩, rfl, carried⟩⟩
  | expires front back =>
    obtain ⟨_, _, within⟩ := orderly.parties _ (List.mem_append_right _ List.mem_cons_self)
    exact ⟨goes orderly (within _) orderly.adrift, .inl ⟨rfl, rfl⟩⟩
  | breaks front back failure =>
    obtain ⟨named, sends, within⟩ := orderly.parties _ (List.mem_append_right _ List.mem_cons_self)
    refine ⟨goes orderly (within _) fun deed mem => ?_, .inl ⟨rfl, rfl⟩⟩
    rcases List.mem_append.1 mem with old | new
    · exact orderly.adrift deed old
    · rw [List.mem_singleton.1 new]
      exact ⟨named, sends⟩
  | arrives front back deed carried =>
    have proper := orderly.adrift _ (List.mem_append_right _ List.mem_cons_self)
    refine ⟨⟨orderly.parties, fun deed mem => orderly.adrift deed ?_⟩, .inr ⟨_, _, proper, rfl, carried⟩⟩
    rcases List.mem_append.1 mem with first | last
    · exact List.mem_append_left _ first
    · exact List.mem_append_right _ (List.mem_cons_of_mem _ last)
  | passes millis => exact ⟨⟨orderly.parties, orderly.adrift⟩, .inl ⟨rfl, rfl⟩⟩

/-- What holds at the opening and is kept by whatever the operations have carried out holds ever after. -/
theorem Reachable.induct {start : Store} (Holds : Network → Prop) (opens : Holds (opening start))
    (keeps : ∀ {n later}, Holds n → Keeps name n later → Holds later)
    (reach : Reachable name start n) : Holds n := by
  have both : Orderly name n ∧ Holds n := by
    induction reach with
    | refl => exact ⟨.opening start, opens⟩
    | tail _ step ih =>
      obtain ⟨orderly, kept⟩ := ih.1.step step
      exact ⟨orderly, keeps ih.2 kept⟩
  exact both.2

end Network

end Vetting.Broker
