import Vetting.Json.Reader

/-!
How values of one type stand in JSON: read from a text, read from a tree, written as a tree. A codec
is lawful if it reads back what it writes, from the text and from the tree. Values whose meaning depends on
something that comes later are kept as trees. Kept values are limited: at most a given number of containers
may be open at once, numbers must be finite, and strings must be Unicode text.
-/
namespace Vetting.Json

/-- The number of containers that may be open at once in a kept value. -/
def maxNesting : Nat := 127

/-- One more item of a list whose items so far are held last first. -/
def itemStep {α : Type} (item : Reader α) (done : List α) : Reader (Round (List α) (List α)) :=
  fun s =>
    match nextItem done.isEmpty s with
    | .error fault => .error fault
    | .ok none => .ok (.done done.reverse, s)
    | .ok (some s) =>
      match within ("[" ++ toString done.length ++ "]") item s with
      | .error fault => .error fault
      | .ok (a, rest) => .ok (.more (a :: done), rest)

/-- The items of a list, after its bracket, and the closing bracket. -/
def items {α : Type} (item : Reader α) : Reader (List α) := fun s =>
  match iterate (itemStep item) [] s with
  | .error fault => .error (fault.leaving pastList s)
  | .ok (found, rest) =>
    match closeList rest with
    | .error fault => .error fault
    | .ok rest => .ok (found, rest)

/-- One more member of an object whose members so far are held last first. -/
def memberStep {α : Type} (value : Reader α) (done : List (String × α)) :
    Reader (Round (List (String × α)) (List (String × α))) := fun s =>
  match nextKey done.isEmpty s with
  | .error fault => .error fault
  | .ok none => .ok (.done done.reverse, s)
  | .ok (some s) =>
    match textBody s with
    | .error fault => .error fault
    | .ok (key, rest) =>
      match colon rest with
      | .error fault => .error fault
      | .ok rest =>
        match within key value rest with
        | .error fault => .error fault
        | .ok (a, rest) => .ok (.more ((key, a) :: done), rest)

/-- The members of an object, after its brace, and the closing brace. -/
def members {α : Type} (value : Reader α) : Reader (List (String × α)) := fun s =>
  match iterate (memberStep value) [] s with
  | .error fault => .error (fault.leaving pastObject s)
  | .ok (found, rest) =>
    match closeObject rest with
    | .error fault => .error fault
    | .ok rest => .ok (found, rest)

/-- A value whose items and members, if any are allowed, are read by `inner`. -/
def treeOver (inner : Option (Reader Tree)) : Reader Tree := fun s =>
  let literal (value : Tree) : Except Fault Input → Parsed Tree
    | .error fault => .error fault
    | .ok rest => .ok (value, rest)
  match blanks s with
  | [] => .error (.on (.ended .value) [])
  | b :: rest =>
    if b = 110 then literal .null (nullEnd rest)
    else if b = 116 then literal (.boolean true) (trueEnd rest)
    else if b = 102 then literal (.boolean false) (falseEnd rest)
    else if b = 34 then (textBody rest).map fun (text, rest) => (.text text, rest)
    else if startsNumber b then (number (b :: rest)).map fun (n, rest) => (.number n, rest)
    else if b = 91 then
      match inner with
      | none => .error (.on .tooDeep (b :: rest))
      | some inner => (items inner rest).map fun (found, rest) => (.list found, rest)
    else if b = 123 then
      match inner with
      | none => .error (.on .tooDeep (b :: rest))
      | some inner => (members inner rest).map fun (found, rest) => (.object found, rest)
    else .error (.on .valueExpected (b :: rest))

/-- A value with at most `nesting` containers open at once. -/
def tree : Nat → Reader Tree
  | 0 => treeOver none
  | nesting + 1 => treeOver (some (tree nesting))

/-- The JSON form of a type. `read nesting` reads a value that may have `nesting` containers open at
once; `absent` is what a missing member stands for, if it may be missing. -/
structure Codec (α : Type) where
  read : Nat → Reader α
  ofTree : Tree → Except Cause α
  toTree : α → Tree
  absent : Option α := none

namespace Codec

/-- The written form of a value. -/
def write {α : Type} (codec : Codec α) (a : α) : List UInt8 := (codec.toTree a).write

/-- Reads a whole text. -/
def decode {α : Type} (codec : Codec α) (s : Input) : Except Fault α :=
  readAll (codec.read maxNesting) s

/-- The same form for a type that corresponds to another. -/
def map {α β : Type} (codec : Codec α) (f : α → β) (g : β → α) : Codec β where
  read nesting s := (codec.read nesting s).map fun (a, rest) => (f a, rest)
  ofTree t := (codec.ofTree t).map f
  toTree b := codec.toTree (g b)
  absent := codec.absent.map f

/-- Any text. -/
def text : Codec String where
  read _ := Json.text "a string"
  ofTree
    | .text s => .ok s
    | t => .error (.wrongType t.found "a string")
  toTree := .text

/-- Texts that a parser accepts, written by its inverse. -/
def parsed {α : Type} (wanted : String) (parse : String → Option α) (print : α → String) :
    Codec α where
  read _ s :=
    match Json.text wanted s with
    | .error fault => .error fault
    | .ok (t, rest) =>
      match parse t with
      | some a => .ok (a, rest)
      | none => .error (.before (.wrongValue (.text t) wanted) rest)
  ofTree
    | .text s =>
      match parse s with
      | some a => .ok a
      | none => .error (.wrongValue (.text s) wanted)
    | t => .error (.wrongType t.found wanted)
  toTree a := .text (print a)

/-- The whole number that a number is, if it is within the bounds. -/
def bounded (wanted : String) (low high : Int) (n : Number) : Except Cause Int :=
  match n.toInt? with
  | none => .error (.wrongType n.found wanted)
  | some v => if low ≤ v ∧ v ≤ high then .ok v else .error (.wrongValue n.found wanted)

/-- Whole numbers within bounds. -/
def integer (wanted : String) (low high : Int) : Codec Int where
  read _ s :=
    match blanks s with
    | [] => .error (.on (.ended .value) [])
    | b :: rest =>
      if startsNumber b then
        match number (b :: rest) with
        | .error fault => .error fault
        | .ok (n, rest) =>
          match bounded wanted low high n with
          | .error cause => .error (.before cause rest)
          | .ok v => .ok (v, rest)
      else .error (mismatch wanted (b :: rest))
  ofTree
    | .number n => bounded wanted low high n
    | t => .error (.wrongType t.found wanted)
  toTree := .ofInt

/-- Signed words of sixty-four and of thirty-two bits, and unsigned ones of sixty-four. -/
def int64 : Codec Int := integer "i64" Decimal.minInt64 Decimal.maxInt64
def int32 : Codec Int := integer "i32" Decimal.minInt32 Decimal.maxInt32
def nat64 : Codec Nat := (integer "u64" 0 Decimal.maxNat64).map Int.toNat Int.ofNat

/-- A value or `null`; a missing member stands for `null`. -/
def optional {α : Type} (codec : Codec α) : Codec (Option α) where
  read nesting s :=
    match blanks s with
    | 110 :: rest =>
      match nullEnd rest with
      | .error fault => .error fault
      | .ok rest => .ok (none, rest)
    | s => (codec.read nesting s).map fun (a, rest) => (some a, rest)
  ofTree
    | .null => .ok none
    | t => (codec.ofTree t).map some
  toTree
    | none => .null
    | some a => codec.toTree a
  absent := some none

/-- A value if it can be read. If it cannot, reading goes on where the attempt stopped. -/
def attempt {α : Type} (codec : Codec α) : Codec (Option α) where
  read nesting s :=
    match codec.read nesting s with
    | .ok (a, rest) => .ok (some a, rest)
    | .error fault => .ok (none, fault.leftOf s)
  ofTree t := .ok (codec.ofTree t).toOption
  toTree
    | none => .null
    | some a => codec.toTree a
  absent := some codec.absent

/-- The value that a name stands for. -/
def named {α : Type} (names : List (String × α)) (name : String) : Except Cause α :=
  match names.lookup name with
  | some a => .ok a
  | none => .error (.unknownName name (names.map Prod.fst))

/-- One of several names, as a string or as the only key of an object that maps it to `null`. -/
def choice {α : Type} (names : List (String × α)) (print : α → String) : Codec α where
  read nesting s :=
    match blanks s with
    | 34 :: rest =>
      match textBody rest with
      | .error fault => .error fault
      | .ok (name, rest) =>
        match named names name with
        | .error cause => .error (.before cause rest)
        | .ok a => .ok (a, rest)
    | 123 :: rest =>
      if nesting = 0 then .error (.on .tooDeep (123 :: rest))
      else
        match nextKey true rest with
        | .error fault => .error fault
        | .ok none => .error (.on .valueExpected (blanks rest))
        | .ok (some rest) =>
          match textBody rest with
          | .error fault => .error fault
          | .ok (name, rest) =>
            match named names name with
            | .error cause => .error (.before cause rest)
            | .ok a =>
              match colon rest with
              | .error fault => .error fault
              | .ok rest =>
                match blanks rest with
                | 110 :: rest =>
                  match nullEnd rest with
                  | .error fault => .error fault
                  | .ok rest =>
                    match blanks rest with
                    | [] => .error (.before (.ended .object) [])
                    | 125 :: rest => .ok (a, rest)
                    | rest => .error (.before .valueExpected rest)
                | rest => .error (mismatch "unit" rest)
    | [] => .error (.on (.ended .value) [])
    | s => .error (.on .valueExpected s)
  ofTree
    | .text name => named names name
    | .object [(name, value)] =>
      match named names name, value with
      | .error cause, _ => .error cause
      | .ok a, .null => .ok a
      | .ok _, value => .error (.wrongType value.found "unit variant")
    | .object _ => .error (.wrongValue .object "map with a single key")
    | t => .error (.wrongType t.found "string or map")
  toTree a := .text (print a)

/-- Values of two kinds that their form tells apart: the value is kept as a tree, and the second
kind is tried if it is not of the first. -/
def either {α β : Type} (type : String) (first : Codec α) (second : Codec β) : Codec (α ⊕ β) :=
  let ofTree (t : Tree) : Except Cause (α ⊕ β) :=
    match first.ofTree t, second.ofTree t with
    | .ok a, _ => .ok (.inl a)
    | _, .ok b => .ok (.inr b)
    | _, _ => .error (.noAlternative type)
  { read nesting s :=
      match tree nesting s with
      | .error fault => .error fault
      | .ok (t, rest) =>
        match ofTree t with
        | .error cause => .error (.before cause rest)
        | .ok value => .ok (value, rest)
    ofTree
    toTree
      | .inl a => first.toTree a
      | .inr b => second.toTree b }

/-- The values of the trees of a list. -/
def ofTrees {α : Type} (codec : Codec α) : List Tree → Except Cause (List α)
  | [] => .ok []
  | t :: ts =>
    match codec.ofTree t with
    | .error cause => .error cause
    | .ok a => (ofTrees codec ts).map (a :: ·)

/-- Any number of values. -/
def list {α : Type} (codec : Codec α) : Codec (List α) where
  read nesting s :=
    match blanks s with
    | 91 :: rest =>
      match nesting with
      | 0 => .error (.on .tooDeep (91 :: rest))
      | nesting + 1 => items (codec.read nesting) rest
    | s => .error (mismatch "a sequence" s)
  ofTree
    | .list ts => ofTrees codec ts
    | t => .error (.wrongType t.found "a sequence")
  toTree as := .list (as.map codec.toTree)

end Codec

end Vetting.Json
