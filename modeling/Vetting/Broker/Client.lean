import Vetting.Broker.Command
import Vetting.Job
import Vetting.Program
import Vetting.Time

/-!
Programs that talk to a broker: they connect, and send commands one by one or as a group that takes
effect as a whole. After a call that failed, a connection is not used again. The cache of fingerprints is
such a program. It is never relied on: whatever fails, and whatever is not a job id, is as if there were
nothing.
-/
namespace Vetting.Broker

/-- What a client does. -/
inductive Call
  | connect
  | send (command : Command)
  /-- Either all the commands take effect, with nothing between them, or the call fails. -/
  | sendGroup (commands : List Command)
  deriving DecidableEq, Repr

/-- What a client hears. -/
def Call.Reply : Call → Type
  | .connect => Except Failure Unit
  | .send _ => Except Failure Answer
  | .sendGroup _ => Except Failure Unit

/-- A program that talks to a broker. -/
abbrev Client := Program Call Call.Reply

namespace Client

variable {α : Type}

/-- Sends a command over the connection at hand and reads the answer. -/
def send (c : Command) (read : Answer → Except Failure α) : Client (Except Failure α) :=
  .call (.send c) fun
    | .error failure => .done (.error failure)
    | .ok answer => .done (read answer)

/-- Goes on over a new connection. -/
def connected (next : Client (Except Failure α)) : Client (Except Failure α) :=
  .call .connect fun
    | .error failure => .done (.error failure)
    | .ok _ => next

/-- Connects, sends a command and reads the answer. -/
def ask (c : Command) (read : Answer → Except Failure α) : Client (Except Failure α) :=
  connected (send c read)

/-- Connects and sends a command whose answer does not matter. -/
def tell (c : Command) : Client (Except Failure Unit) := ask c fun _ => .ok ()

/-- Connects and sends a group of commands. -/
def tellGroup (cs : List Command) : Client (Except Failure Unit) :=
  connected (.call (.sendGroup cs) .done)

end Client

/-- A cache, and how long it keeps what it is told, if not for good. -/
structure Cache where
  ttl : Option Span
  deriving DecidableEq

namespace Cache

/-- The key of a fingerprint. -/
def key (fingerprint : Fingerprint) : String := "kyc_jobs:fingerprint:" ++ fingerprint.text

/-- The job id in what was found, if there is one. -/
def found : Except Failure (Option String) → Option JobId
  | .ok (some text) => JobId.parse? text
  | .ok none => none
  | .error _ => none

/-- The job of a fingerprint. -/
def lookup (fingerprint : Fingerprint) : Client (Option JobId) := do
  return found (← Client.ask (.get (key fingerprint)) Answer.text?)

/-- The command that keeps the job of a fingerprint, for a second at least. -/
def storing (cache : Cache) (fingerprint : Fingerprint) (id : JobId) : Command :=
  match cache.ttl with
  | some ttl => .setFor (key fingerprint) (max ttl.seconds 1) (Utf8.encode id.text)
  | none => .set (key fingerprint) (Utf8.encode id.text)

/-- Keeps the job of a fingerprint; nobody hears if that fails. -/
def remember (cache : Cache) (fingerprint : Fingerprint) (id : JobId) : Client Unit := do
  let _ ← Client.tell (cache.storing fingerprint id)

end Cache

end Vetting.Broker
