import Vetting.Json.Codec
import Vetting.Json.Reader

/-!
Records: objects with known members. A schema lists the members in the order in which they are
written. Reading takes them in any order, passes over members it does not know, and refuses a
member that comes twice or is missing; a list of the values in the schema's order is as good. Of a member
that is passed over the syntax is checked, at any depth and number size, and nothing is kept.
-/
namespace Vetting.Json

/-- A container that is open. -/
inductive Bracket
  | list
  | object
  deriving DecidableEq, Repr

namespace Bracket

def unfinished : Bracket → Unfinished
  | .list => .list
  | .object => .object

def closer : Bracket → UInt8
  | .list => 93
  | .object => 125

def commaExpected : Bracket → Cause
  | .list => .listCommaExpected
  | .object => .objectCommaExpected

end Bracket

/-- What comes next: a value, or a comma or closer after a value. The containers that are open are
listed innermost first. -/
inductive SkipState
  | value (opened : List Bracket)
  | after (opened : List Bracket)

/-- The round after a value has ended: the end, if no container is open. -/
def valueEnded (opened : List Bracket) (rest : Input) : Parsed (Round SkipState Unit) :=
  match opened with
  | [] => .ok (.done (), rest)
  | _ => .ok (.more (.after opened), rest)

/-- The start of an item: in an object its key and colon are passed over. -/
def skipToValue (opened : List Bracket) (s : Input) : Parsed (Round SkipState Unit) :=
  match opened with
  | .object :: _ =>
    match blanks s with
    | [] => .error (.on (.ended .object) [])
    | 34 :: rest =>
      match skipTextBody rest with
      | .error fault => .error fault
      | .ok rest =>
        match colon rest with
        | .error fault => .error fault
        | .ok rest => .ok (.more (.value opened), rest)
    | s => .error (.on .keyNotText s)
  | _ => .ok (.more (.value opened), s)

/-- A container just opened: it ends at once or its first item starts. -/
def skipOpened (bracket : Bracket) (opened : List Bracket) (s : Input) :
    Parsed (Round SkipState Unit) :=
  match blanks s with
  | [] => .error (.on (.ended bracket.unfinished) [])
  | b :: rest =>
    if b = bracket.closer then valueEnded opened rest
    else skipToValue (bracket :: opened) (b :: rest)

/-- One round: a scalar, an opening, a closing, or a comma with what introduces the next value. -/
def skipStep : SkipState → Reader (Round SkipState Unit)
  | .value opened, s =>
    let ended : Except Fault Input → Parsed (Round SkipState Unit)
      | .error fault => .error fault
      | .ok rest => valueEnded opened rest
    match blanks s with
    | [] => .error (.on (.ended .value) [])
    | b :: rest =>
      if b = 110 then ended (nullEnd rest)
      else if b = 116 then ended (trueEnd rest)
      else if b = 102 then ended (falseEnd rest)
      else if b = 34 then ended (skipTextBody rest)
      else if startsNumber b then ended (skipNumber (b :: rest))
      else if b = 91 then skipOpened .list opened rest
      else if b = 123 then skipOpened .object opened rest
      else .error (.on .valueExpected (b :: rest))
  | .after [], s => .ok (.done (), s)
  | .after (bracket :: opened), s =>
    match blanks s with
    | [] => .error (.on (.ended bracket.unfinished) [])
    | b :: rest =>
      if b = 44 then skipToValue (bracket :: opened) rest
      else if b = bracket.closer then valueEnded opened rest
      else .error (.on bracket.commaExpected (b :: rest))

/-- Passes over one value. -/
def skip : Reader Unit := iterate skipStep (.value [])

/-- A member of a record: its name, the type of its value, and that type's form. -/
structure Field where
  name : String
  Value : Type
  codec : Codec Value

abbrev Schema := List Field

/-- A value for each member. -/
def Record : Schema → Type
  | [] => Unit
  | field :: schema => field.Value × Record schema

/-- The values found so far. -/
def Draft : Schema → Type
  | [] => Unit
  | field :: schema => Option field.Value × Draft schema

namespace Draft

/-- Nothing found yet. -/
def empty : (schema : Schema) → Draft schema
  | [] => ()
  | _ :: schema => (none, empty schema)

/-- The record, if no member is missing that may not be; the first missing one is told. -/
def complete : {schema : Schema} → Draft schema → Except Cause (Record schema)
  | [], _ => .ok ()
  | field :: _, (value, draft) =>
    match value <|> field.codec.absent with
    | none => .error (.missingMember field.name)
    | some a => (complete draft).map fun record => (a, record)

/-- Takes the value of a known member with `take`, which is given the member's form; nothing if the
name is unknown. -/
def store {ε ρ : Type} (take : (field : Field) → Except ε (field.Value × ρ))
    (repeated : String → ε) (name : String) :
    {schema : Schema} → Draft schema → Option (Except ε (Draft schema × ρ))
  | [], _ => none
  | field :: _, (value, draft) =>
    if field.name = name then
      match value with
      | some _ => some (.error (repeated name))
      | none => some ((take field).map fun (a, rest) => ((some a, draft), rest))
    else
      (store take repeated name draft).map fun stored =>
        stored.map fun (draft, rest) => ((value, draft), rest)

end Draft

namespace Record

/-- The members as they are written. -/
def toMembers : {schema : Schema} → Record schema → List (String × Tree)
  | [], _ => []
  | field :: _, (a, record) => (field.name, field.codec.toTree a) :: toMembers record

/-- What a message calls a record with these members. -/
def wantedLength (type : String) (schema : Schema) : String :=
  "struct " ++ type ++ " with " ++ toString schema.length ++
    (if schema.length = 1 then " element" else " elements")

/-- One more member: after its key, the colon and the value are read by the member's form, or passed
over if the key is unknown. -/
def memberStep (schema : Schema) (nesting : Nat) (state : Bool × Draft schema) :
    Reader (Round (Bool × Draft schema) (Draft schema)) := fun s =>
  let (first, draft) := state
  match nextKey first s with
  | .error fault => .error fault
  | .ok none => .ok (.done draft, s)
  | .ok (some s) =>
    match textBody s with
    | .error fault => .error fault
    | .ok (key, rest) =>
      let value {α : Type} (reader : Reader α) : Parsed α :=
        match colon rest with
        | .error fault => .error fault
        | .ok rest => within key reader rest
      let repeated (name : String) : Fault := .atEnd (.repeatedMember name) pastObject rest
      match draft.store (fun field => value (field.codec.read nesting)) repeated key with
      | some (.error fault) => .error fault
      | some (.ok (draft, rest)) => .ok (.more (false, draft), rest)
      | none => (value skip).map fun (_, rest) => (.more (false, draft), rest)

/-- The members of an object, after its brace, and the closing brace. -/
def readObject (schema : Schema) (nesting : Nat) : Reader (Record schema) := fun s =>
  match iterate (memberStep schema nesting) (true, Draft.empty schema) s with
  | .error fault => .error (fault.leaving pastObject s)
  | .ok (draft, rest) =>
    match draft.complete with
    | .error cause => .error (.before cause (pastObject rest))
    | .ok record =>
      match closeObject rest with
      | .error fault => .error fault
      | .ok rest => .ok (record, rest)

/-- The values of a list in the schema's order; `count` of them have been read. -/
def readItems (short : Nat → Cause) (nesting : Nat) (count : Nat) :
    (schema : Schema) → Reader (Record schema)
  | [], s => .ok ((), s)
  | field :: schema, s =>
    match nextItem (count = 0) s with
    | .error fault => .error fault
    | .ok none => .error (.atEnd (short count) pastList s)
    | .ok (some s) =>
      match within ("[" ++ toString count ++ "]") (field.codec.read nesting) s with
      | .error fault => .error fault
      | .ok (a, rest) =>
        (readItems short nesting (count + 1) schema rest).map fun (record, rest) =>
          ((a, record), rest)

/-- The values of a list, after its bracket, and the closing bracket. -/
def readList (type : String) (schema : Schema) (nesting : Nat) : Reader (Record schema) := fun s =>
  let short (count : Nat) : Cause := .wrongLength count (wantedLength type schema)
  match readItems short nesting 0 schema s with
  | .error fault => .error (fault.leaving pastList s)
  | .ok (record, rest) =>
    match closeList rest with
    | .error fault => .error fault
    | .ok rest => .ok (record, rest)

/-- A record in either form. -/
def read (type : String) (schema : Schema) : Nat → Reader (Record schema)
  | nesting, s =>
    match blanks s, nesting with
    | 123 :: rest, 0 => .error (.on .tooDeep (123 :: rest))
    | 91 :: rest, 0 => .error (.on .tooDeep (91 :: rest))
    | 123 :: rest, nesting + 1 => readObject schema nesting rest
    | 91 :: rest, nesting + 1 => readList type schema nesting rest
    | s, _ => .error (mismatch ("struct " ++ type) s)

/-- Takes the members of a tree in their order. -/
def ofMembers {schema : Schema} (draft : Draft schema) :
    List (String × Tree) → Except Cause (Draft schema)
  | [] => .ok draft
  | (key, value) :: members =>
    match draft.store (fun field => (field.codec.ofTree value).map (·, ())) .repeatedMember key with
    | some (.error cause) => .error cause
    | some (.ok (draft, _)) => ofMembers draft members
    | none => ofMembers draft members

/-- Takes the items of a tree in the schema's order. -/
def ofItems (short : Nat → Cause) (long : Nat → Cause) (count : Nat) :
    (schema : Schema) → List Tree → Except Cause (Record schema)
  | [], [] => .ok ()
  | [], rest => .error (long (count + rest.length))
  | _ :: _, [] => .error (short count)
  | field :: schema, t :: ts =>
    match field.codec.ofTree t with
    | .error cause => .error cause
    | .ok a => (ofItems short long (count + 1) schema ts).map (a, ·)

/-- A record in either form, as a tree. -/
def ofTree (type : String) (schema : Schema) : Tree → Except Cause (Record schema)
  | .object members =>
    match ofMembers (Draft.empty schema) members with
    | .error cause => .error cause
    | .ok draft => draft.complete
  | .list ts =>
    ofItems (fun n => .wrongLength n (wantedLength type schema))
      (fun n => .wrongLength n "fewer elements in array") 0 schema ts
  | t => .error (.wrongType t.found ("struct " ++ type))

end Record

/-- The form of a record. -/
def Codec.record (type : String) (schema : Schema) : Codec (Record schema) where
  read := Record.read type schema
  ofTree := Record.ofTree type schema
  toTree record := .object record.toMembers

end Vetting.Json
