import Vetting.Text

/-!
Commands to a broker, which keeps lists and values under keys, and its answers. Main definitions:
`Command`, with the words that are sent for it, and the readings of an `Answer`, each of which takes
the kinds of answer that can stand for what is wanted.
-/
namespace Vetting.Broker

/-- What is kept in lists and under keys. -/
abbrev Payload := List UInt8

/-- An end of a list. -/
inductive Side
  | left
  | right
  deriving DecidableEq, Repr

namespace Side

def name : Side → String
  | .left => "LEFT"
  | .right => "RIGHT"

/-- The item at an end, and the others. -/
def take? {α : Type} : Side → List α → Option (α × List α)
  | _, [] => none
  | .left, item :: rest => some (item, rest)
  | .right, item :: rest => some ((item :: rest).getLast (by simp), (item :: rest).dropLast)

/-- One more item at an end. -/
def add {α : Type} : Side → α → List α → List α
  | .left, item, items => item :: items
  | .right, item, items => items ++ [item]

theorem add_of_take? {α : Type} {side : Side} {item : α} {items rest : List α}
    (taken : side.take? items = some (item, rest)) : side.add item rest = items := by
  cases items with
  | nil => cases side <;> simp [take?] at taken
  | cons head tail =>
    cases side with
    | left => simp_all [take?, add]
    | right =>
      simp only [take?, Option.some.injEq, Prod.mk.injEq] at taken
      obtain ⟨rfl, rfl⟩ := taken
      exact List.dropLast_concat_getLast _

end Side

/-- What a broker can be told to do. -/
inductive Command
  | ping
  | get (key : String)
  | set (key : String) (value : Payload)
  /-- As `set`, for so many seconds. -/
  | setFor (key : String) (seconds : Nat) (value : Payload)
  /-- Adds at the left end. -/
  | push (key : String) (value : Payload)
  | length (key : String)
  | move (source target : String) (takes adds : Side)
  /-- As `move`, but waits for an item if there is none. -/
  | awaitMove (source target : String) (takes adds : Side)
  /-- Removes one copy, the one nearest to the left end. -/
  | remove (key : String) (value : Payload)
  /-- Takes a key for so many milliseconds if it is free, or still if the token has it. -/
  | lease (key token : String) (millis : Nat)
  deriving DecidableEq, Repr

namespace Command

/-- The name under which a command arrives. A lease is claimed by a script. -/
def verb : Command → String
  | .ping => "PING"
  | .get _ => "GET"
  | .set .. => "SET"
  | .setFor .. => "SETEX"
  | .push .. => "LPUSH"
  | .length _ => "LLEN"
  | .move .. => "LMOVE"
  | .awaitMove .. => "BLMOVE"
  | .remove .. => "LREM"
  | .lease .. => "EVALSHA"

/-- How many seconds a move waits for an item, as it is written. -/
def patience : String := "5.0"

/-- The words of a command; the script of a lease goes by its purpose. -/
def words (c : Command) : List Payload :=
  let sent (word : String) (more : List String) : List Payload := (word :: more).map Utf8.encode
  match c with
  | .ping => sent c.verb []
  | .get key => sent c.verb [key]
  | .set key value => sent c.verb [key] ++ [value]
  | .setFor key seconds value => sent c.verb [key, toString seconds] ++ [value]
  | .push key value => sent c.verb [key] ++ [value]
  | .length key => sent c.verb [key]
  | .move source target takes adds => sent c.verb [source, target, takes.name, adds.name]
  | .awaitMove source target takes adds =>
    sent c.verb [source, target, takes.name, adds.name, patience]
  | .remove key value => sent c.verb [key, "1"] ++ [value]
  | .lease key token millis => sent "LEASE" [key, token, toString millis]

end Command

/-- Why a command came to nothing. -/
inductive Failure
  /-- There is no connection to be had. -/
  | unreachable
  /-- The connection ended before the answer. -/
  | hungUp
  /-- The broker answered that it will not. -/
  | refused (text : String)
  /-- The answer is of a kind that was not asked for. -/
  | unexpected
  deriving DecidableEq, Repr

/-- The wording of a failure. -/
def Failure.message : Failure → String
  | .unreachable => "connection refused"
  | .hungUp => "connection closed"
  | .refused text => text
  | .unexpected => "unexpected kind of answer"

/-- What a broker answers to a command that it carries out. -/
inductive Answer
  | nil
  | status (text : String)
  | integer (value : Int)
  | bytes (value : Payload)
  deriving DecidableEq, Repr

namespace Answer

/-- Bytes, or nothing. -/
def payload? : Answer → Except Failure (Option Payload)
  | .nil => .ok none
  | .bytes value => .ok (some value)
  | .status _ | .integer _ => .error .unexpected

/-- Text, or nothing; an integer is its decimal text. -/
def text? : Answer → Except Failure (Option String)
  | .nil => .ok none
  | .status text => .ok (some text)
  | .integer value => .ok (some (toString value))
  | .bytes value =>
    match Utf8.decode value with
    | some text => .ok (some text)
    | none => .error .unexpected

/-- Text. -/
def text (answer : Answer) : Except Failure String :=
  match answer.text? with
  | .ok (some text) => .ok text
  | .ok none => .error .unexpected
  | .error failure => .error failure

/-- An integer, or what its decimal text gives. -/
def integer? (read : List Char → Except Decimal.Refusal Int) : Answer → Except Failure Int
  | .integer value => .ok value
  | .nil => .error .unexpected
  | answer => do
    match read (← answer.text).toList with
    | .ok value => .ok value
    | .error _ => .error .unexpected

/-- A signed word of sixty-four bits. -/
def int64 : Answer → Except Failure Int := integer? Decimal.int64?

/-- An unsigned word of sixty-four bits, into which an integer below zero wraps. -/
def nat64 (answer : Answer) : Except Failure Nat := do
  let value ← answer.integer? fun text => (Decimal.natural? Decimal.maxNat64 text).map Int.ofNat
  return (value % (Decimal.maxNat64 + 1)).toNat

end Answer

end Vetting.Broker
