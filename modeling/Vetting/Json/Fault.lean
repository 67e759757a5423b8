import Vetting.Text.Quoted

/-!
What can be wrong with a JSON text: a cause, the place where it is told, the place where the reader
stopped, and the members on the way to it. A cause belongs to one of three categories: the text ended too early,
it is malformed, or it is well formed and says something else than was wanted.
-/
namespace Vetting.Json

/-- What the text was in when it ended. -/
inductive Unfinished
  | value
  | string
  | list
  | object
  deriving DecidableEq, Repr

/-- What was found where something else was wanted. -/
inductive Found
  | null
  | boolean (b : Bool)
  | integer (n : Int)
  | decimal (text : String)
  | text (s : String)
  | list
  | object
  deriving DecidableEq, Repr

inductive Cause
  /-- The text ends too early. -/
  | ended (inside : Unfinished)
  /-- The text is malformed. -/
  | valueExpected
  | literalExpected
  | colonExpected
  | listCommaExpected
  | objectCommaExpected
  | keyNotText
  | trailingComma
  | trailingCharacters
  | invalidEscape
  | loneSurrogate
  | tornSurrogatePair
  | invalidNumber
  | numberOutOfRange
  | notUnicode
  | controlCharacter
  | tooDeep
  /-- The text is well formed and does not fit. -/
  | wrongType (found : Found) (wanted : String)
  | wrongValue (found : Found) (wanted : String)
  | wrongLength (count : Nat) (wanted : String)
  | unknownName (name : String) (known : List String)
  | missingMember (name : String)
  | repeatedMember (name : String)
  | noAlternative (type : String)
  deriving DecidableEq, Repr

inductive Category
  | ended
  | malformed
  | unfit
  deriving DecidableEq, Repr

/-- The category of a cause. -/
def Cause.category : Cause → Category
  | .ended _ => .ended
  | .wrongType .. | .wrongValue .. | .wrongLength .. | .unknownName .. | .missingMember _
  | .repeatedMember _ | .noAlternative _ => .unfit
  | _ => .malformed

/-- The word for a category in answers. -/
def Category.name : Category → String
  | .ended => "eof"
  | .malformed => "syntax"
  | .unfit => "data"

def Unfinished.phrase : Unfinished → String
  | .value => "a value"
  | .string => "a string"
  | .list => "a list"
  | .object => "an object"

def Found.phrase : Found → String
  | .null => "null"
  | .boolean b => "boolean `" ++ toString b ++ "`"
  | .integer n => "integer `" ++ toString n ++ "`"
  | .decimal digits => "floating point `" ++ digits ++ "`"
  | .text s => "string " ++ Quoted.quote s
  | .list => "sequence"
  | .object => "map"

/-- Alternatives in running text. -/
def alternatives : List String → String
  | [] => "there are no variants"
  | [a] => "expected `" ++ a ++ "`"
  | [a, b] => "expected `" ++ a ++ "` or `" ++ b ++ "`"
  | names => "expected one of " ++ String.intercalate ", " (names.map fun n => "`" ++ n ++ "`")

/-- The wording of a cause. -/
def Cause.message : Cause → String
  | .ended inside => "EOF while parsing " ++ inside.phrase
  | .valueExpected => "expected value"
  | .literalExpected => "expected ident"
  | .colonExpected => "expected `:`"
  | .listCommaExpected => "expected `,` or `]`"
  | .objectCommaExpected => "expected `,` or `\x7d`"
  | .keyNotText => "key must be a string"
  | .trailingComma => "trailing comma"
  | .trailingCharacters => "trailing characters"
  | .invalidEscape => "invalid escape"
  | .loneSurrogate => "lone leading surrogate in hex escape"
  | .tornSurrogatePair => "unexpected end of hex escape"
  | .invalidNumber => "invalid number"
  | .numberOutOfRange => "number out of range"
  | .notUnicode => "invalid unicode code point"
  | .controlCharacter => "control character (\\u0000-\\u001F) found while parsing a string"
  | .tooDeep => "recursion limit exceeded"
  | .wrongType found wanted => "invalid type: " ++ found.phrase ++ ", expected " ++ wanted
  | .wrongValue found wanted => "invalid value: " ++ found.phrase ++ ", expected " ++ wanted
  | .wrongLength count wanted => "invalid length " ++ toString count ++ ", expected " ++ wanted
  | .unknownName name known => "unknown variant `" ++ name ++ "`, " ++ alternatives known
  | .missingMember name => "missing field `" ++ name ++ "`"
  | .repeatedMember name => "duplicate field `" ++ name ++ "`"
  | .noAlternative type => "data did not match any variant of untagged enum " ++ type

/-- A cause with its places. -/
structure Fault where
  cause : Cause
  /-- The number of bytes after the place where the fault is told. -/
  unread : Nat
  /-- The number of bytes that the reader had not taken when it stopped. -/
  left : Nat
  /-- The members and list positions that lead to the value it was found in, outermost first. -/
  path : List String
  deriving DecidableEq, Repr

namespace Fault

/-- A fault before the rest of the text. -/
def before (cause : Cause) (rest : List UInt8) : Fault := ⟨cause, rest.length, rest.length, []⟩

/-- A fault at the next byte, which was seen and not taken; at the end of the text there is none. -/
def on (cause : Cause) (rest : List UInt8) : Fault := ⟨cause, rest.length - 1, rest.length, []⟩

/-- A fault of a container as a whole, found before the rest of the text and told where its reader
stops, which passes over `past` before that. -/
def atEnd (cause : Cause) (past : List UInt8 → List UInt8) (rest : List UInt8) : Fault :=
  ⟨cause, (past rest).length, rest.length, []⟩

/-- The part of a text that the reader had not taken when it stopped. -/
def leftOf (text : List UInt8) (f : Fault) : List UInt8 := text.drop (text.length - f.left)

/-- A fault found inside a container, whose reader passes over `past` before it stops. -/
def leaving (past : List UInt8 → List UInt8) (text : List UInt8) (f : Fault) : Fault :=
  { f with left := (past (f.leftOf text)).length }

/-- A fault found inside a member or list position. -/
def inside (step : String) (f : Fault) : Fault := { f with path := step :: f.path }

def category (f : Fault) : Category := f.cause.category

/-- The line, from one, and the column, the number of bytes read of that line. -/
def position (text : List UInt8) (f : Fault) : Nat × Nat :=
  let read := text.take (text.length - f.unread)
  (1 + read.count 10, (read.reverse.takeWhile (· ≠ 10)).length)

/-- The steps of a path, joined by points; list positions stand in brackets without one. -/
def pathText : List String → String
  | [] => ""
  | [step] => step
  | step :: next :: rest =>
    step ++ (if next.toList.head? = some '[' then "" else ".") ++ pathText (next :: rest)

/-- The wording of a fault in `text`, led by its path. -/
def message (text : List UInt8) (f : Fault) : String :=
  let (line, column) := f.position text
  (if f.path = [] then "" else pathText f.path ++ ": ") ++ f.cause.message ++
    " at line " ++ toString line ++ " column " ++ toString column

end Fault

end Vetting.Json
