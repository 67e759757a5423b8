import Vetting.Assoc
import Vetting.Broker.Command

/-!
What a broker keeps, and how commands change it: each command is one step, and so is a group of
commands that is sent as one. Lists and values are kept apart. A value may have an end, after which it
is not there. Main definition: `Store.execute`.
-/
namespace Vetting.Broker

/-- A value, and the millisecond from which it is gone. -/
structure Entry where
  value : Payload
  gone : Option Nat
  deriving DecidableEq, Repr

/-- Lists and values under keys, and the time in milliseconds. -/
structure Store where
  lists : List (String × List Payload)
  values : List (String × Entry)
  now : Nat

namespace Store

/-- A store with nothing in it, at the beginning of time. -/
def empty : Store := ⟨[], [], 0⟩

/-- The list under a key, from left to right. -/
def list (s : Store) (key : String) : List Payload := (s.lists.lookup key).getD []

/-- Puts a list under a key. A list without items is not kept. -/
def putList (s : Store) (key : String) (items : List Payload) : Store :=
  { s with lists := if items = [] then Assoc.drop key s.lists else Assoc.put key items s.lists }

/-- The value under a key, unless it is gone. -/
def value? (s : Store) (key : String) : Option Payload :=
  match s.values.lookup key with
  | some ⟨value, some gone⟩ => if gone ≤ s.now then none else some value
  | some ⟨value, none⟩ => some value
  | none => none

/-- Puts a value under a key, for so many milliseconds or for good. -/
def putValue (s : Store) (key : String) (value : Payload) (millis : Option Nat) : Store :=
  { s with values := Assoc.put key ⟨value, millis.map (s.now + ·)⟩ s.values }

/-- Removes what is under a key. -/
def erase (s : Store) (key : String) : Store :=
  { s with
    lists := Assoc.drop key s.lists
    values := Assoc.drop key s.values }

/-- Lets milliseconds pass. -/
def later (s : Store) (millis : Nat) : Store := { s with now := s.now + millis }

@[simp] theorem list_putList (s : Store) (key other : String) (items : List Payload) :
    (s.putList key items).list other = if other = key then items else s.list other := by
  by_cases none : items = []
  · rw [list, putList, if_pos none, Assoc.lookup_drop, none]
    split <;> rfl
  · rw [list, putList, if_neg none, Assoc.lookup_put]
    split <;> rfl

/-- Moves an item from one list to another, or to another place of one list. -/
def move (s : Store) (source target : String) (takes adds : Side) : Option (Payload × Store) :=
  (takes.take? (s.list source)).map fun (item, rest) =>
    let s := s.putList source rest
    (item, s.putList target (adds.add item (s.list target)))

/-- The answer to a command and the store after it; nothing while the command waits. -/
def execute : Command → Store → Option (Answer × Store)
  | .ping, s => some (.status "PONG", s)
  | .get key, s =>
    match s.value? key with
    | some value => some (.bytes value, s)
    | none => some (.nil, s)
  | .set key value, s => some (.status "OK", s.putValue key value none)
  | .setFor key seconds value, s =>
    some (.status "OK", s.putValue key value (some (seconds * 1000)))
  | .push key value, s =>
    let items := value :: s.list key
    some (.integer items.length, s.putList key items)
  | .length key, s => some (.integer (s.list key).length, s)
  | .move source target takes adds, s =>
    match s.move source target takes adds with
    | some (item, s) => some (.bytes item, s)
    | none => some (.nil, s)
  | .awaitMove source target takes adds, s =>
    (s.move source target takes adds).map fun (item, s) => (.bytes item, s)
  | .remove key value, s =>
    let items := s.list key
    if value ∈ items then some (.integer 1, s.putList key (items.erase value))
    else some (.integer 0, s)
  | .lease key token millis, s =>
    let holder := s.value? key
    if holder = none ∨ holder = some (Utf8.encode token) then
      some (.integer 1, s.putValue key (Utf8.encode token) (some millis))
    else some (.integer 0, s)

/-- The store after commands of which none waits, one after the other. -/
def executeAll (commands : List Command) (s : Store) : Store :=
  commands.foldl (fun s c =>
    match execute c s with
    | some (_, s) => s
    | none => s) s

end Store

end Vetting.Broker
