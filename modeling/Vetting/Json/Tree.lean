import Vetting.Json.Fault
import Vetting.Number.Double
import Vetting.Text

/-!
JSON values and their one written form: no blanks, members in the order they are held, and no
escapes but those that JSON demands.
-/
namespace Vetting.Json

/-- A number as a text can hold it: integers of sixty-four bits stay whole. -/
inductive Number
  | natural (n : Nat)
  | negative (magnitude : Nat)
  | decimal (minus : Bool) (magnitude : Double)
  deriving DecidableEq, Repr

namespace Number

/-- The whole number with this value. -/
def ofInt (n : Int) : Number :=
  if n < 0 then .negative n.natAbs else .natural n.natAbs

/-- The value, if the number is whole. -/
def toInt? : Number → Option Int
  | .natural n => some n
  | .negative n => some (-n)
  | .decimal .. => none

@[simp] theorem toInt?_ofInt (n : Int) : (ofInt n).toInt? = some n := by
  unfold ofInt
  split <;> simp only [toInt?] <;> congr 1 <;> omega

/-- The written form. -/
def text : Number → String
  | .natural n => toString n
  | .negative n => "-" ++ toString n
  | .decimal minus x => (if minus then "-" else "") ++ x.text

/-- How a message names the number. -/
def found : Number → Found
  | .natural n => .integer n
  | .negative n => .integer (-n)
  | .decimal minus x => .decimal (text (.decimal minus x))

end Number

/-- A JSON value. -/
inductive Tree
  | null
  | boolean (b : Bool)
  | number (n : Number)
  | text (s : String)
  | list (items : List Tree)
  | object (members : List (String × Tree))
  deriving Repr

namespace Tree

/-- How a message names the value. -/
def found : Tree → Found
  | .null => .null
  | .boolean b => .boolean b
  | .number n => n.found
  | .text s => .text s
  | .list _ => .list
  | .object _ => .object

/-- The whole number with this value. -/
def ofInt (n : Int) : Tree := .number (.ofInt n)

end Tree

/-- ASCII text as bytes. -/
def ascii (text : String) : List UInt8 := text.toList.map fun c => UInt8.ofNat c.toNat

/-- How a character is written inside a string. -/
def escape (c : Char) : List UInt8 :=
  if c = '"' then [92, 34]
  else if c = '\\' then [92, 92]
  else if c.toNat = 8 then [92, 98]
  else if c.toNat = 9 then [92, 116]
  else if c.toNat = 10 then [92, 110]
  else if c.toNat = 12 then [92, 102]
  else if c.toNat = 13 then [92, 114]
  else if c.toNat < 32 then
    [92, 117, 48, 48] ++ (Hex.byte (UInt8.ofNat c.toNat)).map fun d => UInt8.ofNat d.toNat
  else String.utf8EncodeChar c

/-- A string between quotes. -/
def writeText (s : String) : List UInt8 := 34 :: s.toList.flatMap escape ++ [34]

namespace Tree

mutual

/-- The written form. -/
def write : Tree → List UInt8
  | .null => ascii "null"
  | .boolean b => ascii (if b then "true" else "false")
  | .number n => ascii n.text
  | .text s => writeText s
  | .list [] => [91, 93]
  | .list (item :: items) => 91 :: write item ++ writeItems items
  | .object [] => [123, 125]
  | .object ((name, value) :: members) =>
    123 :: writeText name ++ 58 :: write value ++ writeMembers members

/-- The items after the first, and the bracket. -/
def writeItems : List Tree → List UInt8
  | [] => [93]
  | item :: items => 44 :: write item ++ writeItems items

/-- The members after the first, and the brace. -/
def writeMembers : List (String × Tree) → List UInt8
  | [] => [125]
  | (name, value) :: members => 44 :: writeText name ++ 58 :: write value ++ writeMembers members

end

mutual

/-- All texts in a value, the names of members among them. -/
def texts : Tree → List String
  | .null | .boolean _ | .number _ => []
  | .text s => [s]
  | .list items => textsOfItems items
  | .object members => textsOfMembers members

def textsOfItems : List Tree → List String
  | [] => []
  | item :: items => texts item ++ textsOfItems items

def textsOfMembers : List (String × Tree) → List String
  | [] => []
  | (name, value) :: members => name :: (texts value ++ textsOfMembers members)

end

end Tree

end Vetting.Json
