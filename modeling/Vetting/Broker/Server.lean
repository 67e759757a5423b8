import Vetting.Broker.Client
import Vetting.Broker.Queue
import Vetting.Broker.Store

/-!
A broker as its clients meet it: a store, replies that are given in place of the store's, a door for
new connections that can be shut, and a list of the commands that arrived. Main definitions:
`Server.reply`, what a client hears to a call; `Server.advance`, which runs a client until it is done
or waits; and `Server.serve`, by which a waiting client goes on.
-/
namespace Vetting.Broker

/-- A broker. -/
structure Server where
  store : Store
  /-- Replies to the next arrivals of the commands with some verbs. Such a command has no effect. -/
  script : List (String × Except Failure Answer)
  /-- Whether there are new connections to be had. -/
  accepting : Bool
  /-- The commands that arrived, in words. -/
  received : List (List Payload)

namespace Server

/-- A broker with nothing in its store and no replies of its own. -/
def empty (accepting : Bool) : Server := ⟨.empty, [], accepting, []⟩

/-- A command arrives; a reply that is there for its verb is used up. -/
def arrive (verb : String) (words : List Payload) (s : Server) :
    Option (Except Failure Answer) × Server :=
  let s := { s with received := s.received ++ [words] }
  match Assoc.take? verb s.script with
  | some (reply, script) => (some reply, { s with script })
  | none => (none, s)

/-- The reply to one command; nothing while it waits. -/
def send (c : Command) (s : Server) : Option (Except Failure Answer) × Server :=
  match s.arrive c.verb c.words with
  | (some reply, s) => (some reply, s)
  | (none, s) =>
    match s.store.execute c with
    | some (answer, store) => (some (.ok answer), { s with store })
    | none => (none, s)

/-- What a server makes of the commands of a group before it carries them out: those that it will, the
first failure among the replies, and whether the connection still stands. -/
structure Enqueued where
  commands : List Command
  failure : Option Failure
  stands : Bool

/-- The commands of a group arrive. One that is replied to by script is not carried out. -/
def enqueue : List Command → Server → Enqueued × Server
  | [], s => (⟨[], none, true⟩, s)
  | c :: rest, s =>
    match s.arrive c.verb c.words with
    | (none, s) =>
      let (e, s) := enqueue rest s
      ({ e with commands := c :: e.commands }, s)
    | (some (.ok _), s) => enqueue rest s
    | (some (.error .hungUp), s) => (⟨[], some .hungUp, false⟩, s)
    | (some (.error failure), s) =>
      let (e, s) := enqueue rest s
      ({ e with failure := some failure }, s)

/-- The error of a group that ends where none began. -/
def notBegun : Failure := .refused "EXEC without MULTI"

/-- The commands of a group that has not begun: each takes effect by itself, and the call fails. -/
def ungrouped (cs : List Command) (first : Failure) (s : Server) : Except Failure Unit × Server :=
  let s := cs.foldl (fun s c => (s.send c).2) s
  (.error first, (s.arrive "EXEC" [Utf8.encode "EXEC"]).2)

/-- The reply to a group of commands, between a word that begins it and a word that ends it. -/
def sendGroup (cs : List Command) (s : Server) : Except Failure Unit × Server :=
  match s.arrive "MULTI" [Utf8.encode "MULTI"] with
  | (some (.error .hungUp), s) => (.error .hungUp, s)
  | (some (.error failure), s) => s.ungrouped cs failure
  | (some (.ok _), s) => s.ungrouped cs notBegun
  | (none, s) =>
    match s.enqueue cs with
    | (⟨_, failure, false⟩, s) => (.error (failure.getD .hungUp), s)
    | (⟨commands, failure, true⟩, s) =>
      match s.arrive "EXEC" [Utf8.encode "EXEC"], failure with
      | (some (.error ended), s), failure => (.error (failure.getD ended), s)
      | (some (.ok .nil), s), none => (.ok (), s)
      | (some (.ok _), s), failure => (.error (failure.getD .unexpected), s)
      | (none, s), none => (.ok (), { s with store := s.store.executeAll commands })
      | (none, s), some failure => (.error failure, { s with store := s.store.executeAll commands })

/-- What a client hears to a call, and the server after it; nothing while the call waits. -/
def reply : (c : Call) → Server → Option c.Reply × Server
  | .connect, s => (some (if s.accepting then .ok () else .error .unreachable), s)
  | .send c, s => s.send c
  | .sendGroup cs, s =>
    let (outcome, s) := s.sendGroup cs
    (some outcome, s)

variable {α : Type}

/-- Runs a client until it is done or waits for the reply to a call that has arrived. -/
def advance : Client α → Server → Client α × Server
  | .done a, s => (.done a, s)
  | .call c next, s =>
    match s.reply c with
    | (some reply, s) => advance (next reply) s
    | (none, s) => (.call c next, s)

/-- A client that waits for an item goes on if there is one by now. -/
def serve : Client α → Server → Client α × Server
  | .call (.send c) next, s =>
    match s.store.execute c with
    | some (answer, store) => advance (next (.ok answer)) { s with store }
    | none => (.call (.send c) next, s)
  | client, s => (client, s)

/-- The result of a client that does not wait for anything that others do. -/
def run (client : Client α) (s : Server) : Option α × Server :=
  let (client, s) := advance client s
  (client.result?, s)

/-- How many turns a loop over a list can need: one for each of its items, one for each reply that is
given in place of the store's, and one to see that there is nothing left. -/
def turns (key : String) (s : Server) : Nat := (s.store.list key).length + s.script.length + 1

/-- Moves back all that a consumer has in flight. -/
def recover (q : Queue) (s : Server) : Option (Except QueueError Nat) × Server :=
  let (outcome, s) := s.run (q.recover (s.turns q.inFlightKey))
  (outcome.join, s)

/-- Opens the stream of a consumer. -/
def consume (q : Queue) (s : Server) : Option (Except QueueError Queue.Stream) × Server :=
  let (outcome, s) := s.run (q.consume (s.turns q.inFlightKey))
  (outcome.join, s)

end Server

end Vetting.Broker
