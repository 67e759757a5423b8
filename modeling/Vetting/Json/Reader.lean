import Vetting.Json.Tree
import Vetting.Text

/-!
The parts that readers of JSON text are made of: blanks, literals, strings, numbers, and the
punctuation of lists and objects. A reader takes the unread bytes and gives a value and the bytes
after it, or the first fault that reading from left to right meets.
-/
namespace Vetting.Json

/-- The unread part of a text. -/
abbrev Input := List UInt8

/-- A value with what follows it, or a fault. -/
abbrev Parsed (α : Type) := Except Fault (α × Input)

/-- A way to read one value. -/
abbrev Reader (α : Type) := Input → Parsed α

/-- What one round of a loop comes to. -/
inductive Round (σ β : Type)
  | more (state : σ)
  | done (result : β)

/-- At most `rounds` rounds. -/
def iterateFor {σ β : Type} (step : σ → Reader (Round σ β)) : Nat → σ → Reader β
  | 0, _, s => .error (.on (.ended .value) s)
  | rounds + 1, state, s =>
    match step state s with
    | .error fault => .error fault
    | .ok (.more state, rest) => iterateFor step rounds state rest
    | .ok (.done result, rest) => .ok (result, rest)

/-- Repeats a step that reads at least one byte whenever it asks for another round; so there are no
more rounds than unread bytes. -/
def iterate {σ β : Type} (step : σ → Reader (Round σ β)) (state : σ) : Reader β :=
  fun s => iterateFor step (s.length + 1) state s

/-- Space, line feed, carriage return and tab. -/
def isBlank (b : UInt8) : Bool := b == 32 || b == 10 || b == 13 || b == 9

/-- Drops leading blanks. -/
def blanks (s : Input) : Input := s.dropWhile isBlank

/-- The rest of a literal. -/
def literal : List UInt8 → Input → Except Fault Input
  | [], s => .ok s
  | _ :: _, [] => .error (.before (.ended .value) [])
  | w :: ws, b :: rest => if b = w then literal ws rest else .error (.before .literalExpected rest)

/-- The rest of `null`, of `true` and of `false` after their first letters. -/
def nullEnd (s : Input) : Except Fault Input := literal (ascii "ull") s
def trueEnd (s : Input) : Except Fault Input := literal (ascii "rue") s
def falseEnd (s : Input) : Except Fault Input := literal (ascii "alse") s

/-- The value of four hexadecimal digits. -/
def hex? (a b c d : UInt8) : Option Nat :=
  match Hex.digit? (Char.ofNat a.toNat), Hex.digit? (Char.ofNat b.toNat),
      Hex.digit? (Char.ofNat c.toNat), Hex.digit? (Char.ofNat d.toNat) with
  | some a, some b, some c, some d => some (((a * 16 + b) * 16 + c) * 16 + d)
  | _, _, _, _ => none

/-- What the byte after a backslash stands for, unless it is `u`. -/
def simpleEscape? (b : UInt8) : Option UInt8 :=
  if b = 34 ∨ b = 92 ∨ b = 47 then some b
  else if b = 98 then some 8
  else if b = 102 then some 12
  else if b = 110 then some 10
  else if b = 114 then some 13
  else if b = 116 then some 9
  else none

/-- The first and the second half of a surrogate pair. -/
def isLeading (n : Nat) : Bool := 0xD800 ≤ n && n ≤ 0xDBFF
def isTrailing (n : Nat) : Bool := 0xDC00 ≤ n && n ≤ 0xDFFF

/-- The bytes of a string up to its closing quote, with every escape replaced by what it stands
for. The bytes so far are held last first. -/
def unescape (done : List UInt8) : Input → Parsed (List UInt8)
  | [] => .error (.before (.ended .string) [])
  | b :: rest =>
    if b = 34 then .ok (done.reverse, rest)
    else if b = 92 then
      match rest with
      | [] => .error (.before (.ended .string) [])
      | e :: rest =>
        if e = 117 then
          match rest with
          | p :: q :: r :: t :: rest =>
            match hex? p q r t with
            | none => .error (.before .invalidEscape rest)
            | some n =>
              if isTrailing n then .error (.before .loneSurrogate rest)
              else if isLeading n then
                match rest with
                | [] => .error (.before (.ended .string) [])
                | c :: rest =>
                  if c = 92 then
                    match rest with
                    | [] => .error (.before (.ended .string) [])
                    | u :: rest =>
                      if u = 117 then
                        match rest with
                        | p :: q :: r :: t :: rest =>
                          match hex? p q r t with
                          | none => .error (.before .invalidEscape rest)
                          | some m =>
                            if isTrailing m then
                              let c := Char.ofNat ((n - 0xD800) * 1024 + (m - 0xDC00) + 0x10000)
                              unescape ((String.utf8EncodeChar c).reverse ++ done) rest
                            else .error (.before .loneSurrogate rest)
                        | _ => .error (.before (.ended .string) [])
                      else .error (.before .tornSurrogatePair rest)
                  else .error (.before .tornSurrogatePair rest)
              else unescape ((String.utf8EncodeChar (Char.ofNat n)).reverse ++ done) rest
          | _ => .error (.before (.ended .string) [])
        else
          match simpleEscape? e with
          | some b => unescape (b :: done) rest
          | none => .error (.before .invalidEscape rest)
    else if b < 32 then .error (.before .controlCharacter rest)
    else unescape (b :: done) rest

/-- The text of a string, after its opening quote. If it is none, the fault is told as far before the
rest as the bytes reach from the first one that begins no character. -/
def textBody : Reader String := fun s =>
  match unescape [] s with
  | .error fault => .error fault
  | .ok (bytes, rest) =>
    match Utf8.read bytes with
    | .ok text => .ok (text, rest)
    | .error bad => .error ⟨.notUnicode, rest.length + bad, rest.length, []⟩

/-- Passes over a string, after its opening quote; escapes are looked at, the text is not. -/
def skipTextBody : Input → Except Fault Input
  | [] => .error (.before (.ended .string) [])
  | b :: rest =>
    if b = 34 then .ok rest
    else if b = 92 then
      match rest with
      | [] => .error (.before (.ended .string) [])
      | e :: rest =>
        if e = 117 then
          match rest with
          | p :: q :: r :: t :: rest =>
            match hex? p q r t with
            | none => .error (.before .invalidEscape rest)
            | some _ => skipTextBody rest
          | _ => .error (.before (.ended .string) [])
        else
          match simpleEscape? e with
          | some _ => skipTextBody rest
          | none => .error (.before .invalidEscape rest)
    else if b < 32 then .error (.before .controlCharacter (b :: rest))
    else skipTextBody rest

def isDigit (b : UInt8) : Bool := 48 ≤ b && b ≤ 57

/-- Whether a digit comes next. -/
def digitNext : Input → Bool
  | [] => false
  | b :: _ => isDigit b

/-- Takes in digits for as long as the value stays within the limit. -/
def digitsWithin (limit : Nat) (value : Nat) : Input → Nat × Input
  | [] => (value, [])
  | b :: rest =>
    if isDigit b ∧ value * 10 + (b.toNat - 48) ≤ limit then
      digitsWithin limit (value * 10 + (b.toNat - 48)) rest
    else (value, b :: rest)

/-- Drops digits. -/
def dropDigits (s : Input) : Input := s.dropWhile isDigit

/-- A value divided by a power of ten, by at most three hundred and eight places at a time. -/
def descend (x : Double) (places : Nat) : Double :=
  if places ≤ 308 then (x.overTen places).getD .zero
  else if x.significand = 0 then x
  else descend ((x.overTen 308).getD .zero) (places - 308)
termination_by places

/-- The double for a significand of sixty-four bits and a power of ten, if it is finite. -/
def decimal? (significand : Nat) (power : Int) : Option Double :=
  match Double.round significand 1 with
  | none => none
  | some x =>
    if power < 0 then some (descend x power.natAbs)
    else if power ≤ 308 then x.timesTen power.natAbs
    else if x.significand = 0 then some x
    else none

/-- A number with a fraction or an exponent, at its end. -/
def decimalEnd (minus : Bool) (significand : Nat) (power : Int) : Reader Number := fun s =>
  match decimal? significand power with
  | some x => .ok (.decimal minus x, s)
  | none => .error (.before .numberOutOfRange s)

/-- An exponent, after its letter. -/
def exponentEnd (minus : Bool) (significand : Nat) (power : Int) : Reader Number := fun s =>
  let (up, s) := match s with
    | 43 :: rest => (true, rest)
    | 45 :: rest => (false, rest)
    | s => (true, s)
  match s with
  | [] => .error (.before (.ended .value) [])
  | b :: rest =>
    if isDigit b then
      let (n, rest) := digitsWithin 2147483647 (b.toNat - 48) rest
      if digitNext rest then
        if up ∧ significand ≠ 0 then .error (.before .numberOutOfRange (rest.drop 1))
        else .ok (.decimal minus .zero, dropDigits rest)
      else decimalEnd minus significand (if up then power + n else power - n) rest
    else .error (.before .invalidNumber rest)

/-- What may follow the digits of a number that is no integer any more. -/
def exponentOrEnd (minus : Bool) (significand : Nat) (power : Int) : Reader Number := fun s =>
  match s with
  | 101 :: rest => exponentEnd minus significand power rest
  | 69 :: rest => exponentEnd minus significand power rest
  | s => decimalEnd minus significand power s

/-- A fraction, after its point. Digits that no longer fit the significand are dropped. -/
def fractionEnd (minus : Bool) (significand : Nat) (power : Int) : Reader Number := fun s =>
  let (value, rest) := digitsWithin Decimal.maxNat64 significand s
  let power := power - ((s.length - rest.length : Nat) : Int)
  if digitNext rest then exponentOrEnd minus value power (dropDigits rest)
  else if rest.length = s.length then
    .error (.on (if rest = [] then .ended .value else .invalidNumber) rest)
  else exponentOrEnd minus value power rest

/-- A whole number with its sign; what does not fit becomes a double, and so does minus zero. -/
def whole (minus : Bool) (n : Nat) : Number :=
  if ¬minus then .natural n
  else if n = 0 ∨ n > 9223372036854775808 then
    .decimal true ((Double.round n 1).getD .zero)
  else .negative n

/-- The end of a number after its whole digits, of which `dropped` did not fit. -/
def wholeEnd (minus : Bool) (significand : Nat) (dropped : Option Nat) : Reader Number := fun s =>
  let power : Int := (dropped.getD 0 : Nat)
  match s with
  | 46 :: rest => fractionEnd minus significand power rest
  | 101 :: rest => exponentEnd minus significand power rest
  | 69 :: rest => exponentEnd minus significand power rest
  | s =>
    match dropped with
    | some _ => decimalEnd minus significand power s
    | none => .ok (whole minus significand, s)

/-- A number, after its sign. -/
def numberBody (minus : Bool) : Reader Number
  | [] => .error (.before (.ended .value) [])
  | b :: rest =>
    if b = 48 then
      if digitNext rest then .error (.on .invalidNumber rest) else wholeEnd minus 0 none rest
    else if isDigit b then
      let (n, rest) := digitsWithin Decimal.maxNat64 (b.toNat - 48) rest
      if digitNext rest then
        let tail := dropDigits rest
        wholeEnd minus n (some (rest.length - tail.length)) tail
      else wholeEnd minus n none rest
    else .error (.before .invalidNumber rest)

/-- A number that starts here. -/
def number : Reader Number
  | 45 :: rest => numberBody true rest
  | s => numberBody false s

/-- Passes over an exponent, after its letter. -/
def skipExponent (s : Input) : Except Fault Input :=
  let s := match s with
    | 43 :: rest => rest
    | 45 :: rest => rest
    | s => s
  match s with
  | [] => .error (.before .invalidNumber [])
  | b :: rest => if isDigit b then .ok (dropDigits rest) else .error (.before .invalidNumber rest)

/-- Passes over what may follow the whole digits of a number. -/
def skipNumberEnd (s : Input) : Except Fault Input :=
  let s : Except Fault Input := match s with
    | 46 :: rest => if digitNext rest then .ok (dropDigits rest) else .error (.on .invalidNumber rest)
    | s => .ok s
  match s with
  | .error fault => .error fault
  | .ok (101 :: rest) => skipExponent rest
  | .ok (69 :: rest) => skipExponent rest
  | .ok s => .ok s

/-- Passes over a number that starts here; its size does not matter. -/
def skipNumber (s : Input) : Except Fault Input :=
  let s := match s with
    | 45 :: rest => rest
    | s => s
  match s with
  | [] => .error (.before .invalidNumber [])
  | b :: rest =>
    if b = 48 then
      if digitNext rest then .error (.on .invalidNumber rest) else skipNumberEnd rest
    else if isDigit b then skipNumberEnd (dropDigits rest)
    else .error (.before .invalidNumber rest)

/-- Whether a number starts with this byte. -/
def startsNumber (b : UInt8) : Bool := b == 45 || isDigit b

/-- What is said of a value of another kind than the wanted one, at its first byte. A scalar is read
to its end, and may turn out malformed; a list or an object is only seen. -/
def mismatch (wanted : String) (s : Input) : Fault :=
  let wrong (found : Found) : Except Fault Input → Fault
    | .error fault => fault
    | .ok rest => .before (.wrongType found wanted) rest
  match s with
  | [] => .on (.ended .value) []
  | b :: rest =>
    if b = 110 then wrong .null (nullEnd rest)
    else if b = 116 then wrong (.boolean true) (trueEnd rest)
    else if b = 102 then wrong (.boolean false) (falseEnd rest)
    else if b = 34 then
      match textBody rest with
      | .error fault => fault
      | .ok (text, rest) => .before (.wrongType (.text text) wanted) rest
    else if startsNumber b then
      match number s with
      | .error fault => fault
      | .ok (n, rest) => .before (.wrongType n.found wanted) rest
    else if b = 91 then .before (.wrongType .list wanted) s
    else if b = 123 then .before (.wrongType .object wanted) s
    else .on .valueExpected s

/-- A string. -/
def text (wanted : String) : Reader String := fun s =>
  match blanks s with
  | 34 :: rest => textBody rest
  | s => .error (mismatch wanted s)

/-- The start of the next item of a list, or nothing at its end, which stays unread. -/
def nextItem (first : Bool) (s : Input) : Except Fault (Option Input) :=
  match blanks s with
  | [] => .error (.on (.ended .list) [])
  | 93 :: _ => .ok none
  | b :: rest =>
    if first then .ok (some (b :: rest))
    else if b = 44 then
      match blanks rest with
      | [] => .error (.on (.ended .value) [])
      | 93 :: rest => .error (.on .trailingComma (93 :: rest))
      | s => .ok (some s)
    else .error (.on .listCommaExpected (b :: rest))

/-- The rest after a list that wants no more items. -/
def closeList (s : Input) : Except Fault Input :=
  match blanks s with
  | [] => .error (.on (.ended .list) [])
  | 93 :: rest => .ok rest
  | 44 :: rest =>
    match blanks rest with
    | 93 :: rest => .error (.on .trailingComma (93 :: rest))
    | s => .error (.on .trailingCharacters s)
  | s => .error (.on .trailingCharacters s)

/-- What follows the opening quote of the next key, or nothing at the end of the object, which stays
unread. -/
def nextKey (first : Bool) (s : Input) : Except Fault (Option Input) :=
  match blanks s with
  | [] => .error (.on (.ended .object) [])
  | 125 :: _ => .ok none
  | b :: rest =>
    if first then
      if b = 34 then .ok (some rest) else .error (.on .keyNotText (b :: rest))
    else if b = 44 then
      match blanks rest with
      | [] => .error (.on (.ended .value) [])
      | 34 :: rest => .ok (some rest)
      | 125 :: rest => .error (.on .trailingComma (125 :: rest))
      | s => .error (.on .keyNotText s)
    else .error (.on .objectCommaExpected (b :: rest))

/-- The rest after the colon between a key and its value. -/
def colon (s : Input) : Except Fault Input :=
  match blanks s with
  | [] => .error (.on (.ended .object) [])
  | 58 :: rest => .ok rest
  | s => .error (.on .colonExpected s)

/-- The rest after an object that wants no more members. -/
def closeObject (s : Input) : Except Fault Input :=
  match blanks s with
  | [] => .error (.on (.ended .object) [])
  | 125 :: rest => .ok rest
  | 44 :: rest => .error (.on .trailingComma (44 :: rest))
  | s => .error (.on .trailingCharacters s)

/-- Where the reader of a faulty object stops: past its brace, if that comes next. -/
def pastObject (s : Input) : Input :=
  match blanks s with
  | 125 :: rest => rest
  | s => s

/-- Where the reader of a faulty list stops: past its bracket or a comma, if one comes next. -/
def pastList (s : Input) : Input :=
  match blanks s with
  | 93 :: rest => rest
  | 44 :: rest => blanks rest
  | s => s

/-- A whole text must hold one value and blanks. -/
def readAll {α : Type} (reader : Reader α) (s : Input) : Except Fault α :=
  match reader s with
  | .error fault => .error fault
  | .ok (a, rest) =>
    match blanks rest with
    | [] => .ok a
    | rest => .error (.on .trailingCharacters rest)

/-- The faults of a reader, as found inside a member or list position. -/
def within {α : Type} (step : String) (reader : Reader α) : Reader α := fun s =>
  (reader s).mapError (Fault.inside step)

end Vetting.Json
