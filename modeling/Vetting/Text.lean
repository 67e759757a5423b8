/-!
How bytes and numbers stand in texts. `Utf8` gives the bytes of a text: a byte list stands for at most
one text, and only when it is that text's encoding, so overlong forms, surrogates and torn characters stand
for nothing. `Hex`, `Percent` and `Base64Url` write bytes in plain characters; unpadded base 64 is read only
if it is what writing produces. `Decimal` reads integers and names the reason for a refusal, because settings
report it. `Blank` is white space as the Unicode character database lists it.
-/
namespace Vetting.Utf8

/-- The bytes of a text. -/
def encode (text : String) : List UInt8 := text.toList.flatMap String.utf8EncodeChar

/-- The code point that the payload bits of one to four bytes spell. -/
def codePoint : List UInt8 → Nat
  | [a] => a.toNat
  | [a, b] => a.toNat % 32 * 64 + b.toNat % 64
  | [a, b, c] => (a.toNat % 16 * 64 + b.toNat % 64) * 64 + c.toNat % 64
  | [a, b, c, d] => ((a.toNat % 8 * 64 + b.toNat % 64) * 64 + c.toNat % 64) * 64 + d.toNat % 64
  | _ => 0

/-- The character whose encoding is exactly these bytes. -/
def char? (bytes : List UInt8) : Option Char :=
  let c := Char.ofNat (codePoint bytes)
  if String.utf8EncodeChar c = bytes then some c else none

/-- Decodes after the characters `done`, which are held last first. The lead byte tells how many
bytes belong to the next character. The error is the number of bytes from the first one that begins
no character. -/
def readAfter (done : List Char) : List UInt8 → Except Nat (List Char)
  | [] => .ok done.reverse
  | a :: rest =>
    if a < 0x80 then
      match char? [a] with
      | some c => readAfter (c :: done) rest
      | none => .error (rest.length + 1)
    else if a < 0xE0 then
      match rest with
      | b :: rest =>
        match char? [a, b] with
        | some c => readAfter (c :: done) rest
        | none => .error (rest.length + 2)
      | _ => .error (rest.length + 1)
    else if a < 0xF0 then
      match rest with
      | b :: c :: rest =>
        match char? [a, b, c] with
        | some c => readAfter (c :: done) rest
        | none => .error (rest.length + 3)
      | _ => .error (rest.length + 1)
    else
      match rest with
      | b :: c :: d :: rest =>
        match char? [a, b, c, d] with
        | some c => readAfter (c :: done) rest
        | none => .error (rest.length + 4)
      | _ => .error (rest.length + 1)

/-- The text that the bytes encode, or how many of them are left at the first that begins no
character. -/
def read (bytes : List UInt8) : Except Nat String := (readAfter [] bytes).map String.ofList

/-- The text that the bytes encode, if they encode one. -/
def decode (bytes : List UInt8) : Option String := (read bytes).toOption

end Vetting.Utf8

namespace Vetting.Hex

/-- The lower-case digit of a value below sixteen. -/
def digit (n : Nat) : Char := if n < 10 then Char.ofNat (48 + n) else Char.ofNat (87 + n)

/-- The value of a digit in either case. -/
def digit? (c : Char) : Option Nat :=
  let n := c.toNat
  if 48 ≤ n ∧ n ≤ 57 then some (n - 48)
  else if 97 ≤ n ∧ n ≤ 102 then some (n - 87)
  else if 65 ≤ n ∧ n ≤ 70 then some (n - 55)
  else none

/-- Both digits of a byte, the high one first. -/
def byte (b : UInt8) : List Char := [digit (b.toNat / 16), digit (b.toNat % 16)]

/-- The text of a list of bytes. -/
def encode (bytes : List UInt8) : List Char := bytes.flatMap byte

/-- The bytes written by pairs of digits; nothing if a digit is missing or is none. -/
def decode : List Char → Option (List UInt8)
  | [] => some []
  | [_] => none
  | high :: low :: rest =>
    match digit? high, digit? low, decode rest with
    | some h, some l, some bytes => some (UInt8.ofNat (h * 16 + l) :: bytes)
    | _, _, _ => none

/-- The digits of a number, the fewest that write it. -/
def ofNat (n : Nat) : String := String.ofList ((Nat.toDigits 16 n))

end Vetting.Hex

namespace Vetting.Percent

/-- The hexadecimal value of an ASCII byte. -/
def digit? (b : UInt8) : Option Nat := Hex.digit? (Char.ofNat b.toNat)

/-- Replaces each encoded byte by the byte. -/
def decode : List UInt8 → List UInt8
  | 37 :: high :: low :: rest =>
    match digit? high, digit? low with
    | some h, some l => UInt8.ofNat (h * 16 + l) :: decode rest
    | _, _ => 37 :: decode (high :: low :: rest)
  | b :: rest => b :: decode rest
  | [] => []

end Vetting.Percent

namespace Vetting.Base64Url

/-- The character of a six-bit value. -/
def symbol (n : Nat) : Char :=
  if n < 26 then Char.ofNat (65 + n)
  else if n < 52 then Char.ofNat (71 + n)
  else if n < 62 then Char.ofNat (n - 4)
  else if n = 62 then '-' else '_'

/-- The six-bit value of a character. -/
def value? (c : Char) : Option Nat :=
  let n := c.toNat
  if 65 ≤ n ∧ n ≤ 90 then some (n - 65)
  else if 97 ≤ n ∧ n ≤ 122 then some (n - 71)
  else if 48 ≤ n ∧ n ≤ 57 then some (n + 4)
  else if c = '-' then some 62
  else if c = '_' then some 63
  else none

/-- Three bytes become four characters; one or two left over become two or three. -/
def encode : List UInt8 → List Char
  | [] => []
  | [a] => [symbol (a.toNat / 4), symbol (a.toNat % 4 * 16)]
  | [a, b] =>
    [symbol (a.toNat / 4), symbol (a.toNat % 4 * 16 + b.toNat / 16), symbol (b.toNat % 16 * 4)]
  | a :: b :: c :: rest =>
    symbol (a.toNat / 4) :: symbol (a.toNat % 4 * 16 + b.toNat / 16) ::
      symbol (b.toNat % 16 * 4 + c.toNat / 64) :: symbol (c.toNat % 64) :: encode rest

/-- The bytes of four, three or two characters; the bits that belong to no byte must be zero. -/
def decode : List Char → Option (List UInt8)
  | [] => some []
  | [_] => none
  | [p, q] =>
    match value? p, value? q with
    | some p, some q => if q % 16 = 0 then some [UInt8.ofNat (p * 4 + q / 16)] else none
    | _, _ => none
  | [p, q, r] =>
    match value? p, value? q, value? r with
    | some p, some q, some r =>
      if r % 4 = 0 then some [UInt8.ofNat (p * 4 + q / 16), UInt8.ofNat (q % 16 * 16 + r / 4)]
      else none
    | _, _, _ => none
  | p :: q :: r :: s :: rest =>
    match value? p, value? q, value? r, value? s, decode rest with
    | some p, some q, some r, some s, some bytes =>
      some (UInt8.ofNat (p * 4 + q / 16) :: UInt8.ofNat (q % 16 * 16 + r / 4) ::
        UInt8.ofNat (r % 4 * 64 + s) :: bytes)
    | _, _, _, _, _ => none

end Vetting.Base64Url

namespace Vetting.Decimal

/-- Why a text is no integer of the wanted range. -/
inductive Refusal
  | empty
  | notADigit
  | tooLarge
  | tooSmall
  deriving DecidableEq, Repr

/-- The wording of a refusal. -/
def Refusal.message : Refusal → String
  | .empty => "cannot parse integer from empty string"
  | .notADigit => "invalid digit found in string"
  | .tooLarge => "number too large to fit in target type"
  | .tooSmall => "number too small to fit in target type"

/-- The value of an ASCII digit. -/
def digit? (c : Char) : Option Nat :=
  if 48 ≤ c.toNat ∧ c.toNat ≤ 57 then some (c.toNat - 48) else none

/-- Reads digits from left to right and stops at the first character that is none or that takes
the value over `limit`. -/
def digits (limit : Nat) (excess : Refusal) (value : Nat) : List Char → Except Refusal Nat
  | [] => .ok value
  | c :: rest =>
    match digit? c with
    | none => .error .notADigit
    | some d => if limit < value * 10 + d then .error excess else digits limit excess (value * 10 + d) rest

/-- A number of at most `limit`, with at least one digit and an optional leading plus. -/
def natural? (limit : Nat) : List Char → Except Refusal Nat
  | [] => .error .empty
  | ['+'] => .error .notADigit
  | '+' :: rest => digits limit .tooLarge 0 rest
  | text => digits limit .tooLarge 0 text

/-- The bounds of a signed word of sixty-four bits. -/
def minInt64 : Int := -9223372036854775808
def maxInt64 : Int := 9223372036854775807
/-- The bounds of a signed word of thirty-two bits. -/
def minInt32 : Int := -2147483648
def maxInt32 : Int := 2147483647
/-- The largest unsigned word of sixty-four bits. -/
def maxNat64 : Nat := 18446744073709551615

/-- A signed word of sixty-four bits, with at least one digit and an optional sign. -/
def int64? : List Char → Except Refusal Int
  | [] => .error .empty
  | ['+'] => .error .notADigit
  | ['-'] => .error .notADigit
  | '+' :: rest => (digits maxInt64.toNat .tooLarge 0 rest).map Int.ofNat
  | '-' :: rest => (digits (maxInt64.toNat + 1) .tooSmall 0 rest).map fun n => -Int.ofNat n
  | text => (digits maxInt64.toNat .tooLarge 0 text).map Int.ofNat

end Vetting.Decimal

namespace Vetting.Blank

/-- Whether a character is white space. -/
def isBlank (c : Char) : Bool :=
  let n := c.toNat
  (9 ≤ n && n ≤ 13) || n == 0x20 || n == 0x85 || n == 0xa0 || n == 0x1680 ||
    (0x2000 ≤ n && n ≤ 0x200a) || n == 0x2028 || n == 0x2029 || n == 0x202f || n == 0x205f ||
    n == 0x3000

/-- Drops leading white space. -/
def skip (text : List Char) : List Char := text.dropWhile isBlank

/-- Drops white space at both ends. -/
def trim (text : List Char) : List Char := (skip (skip text).reverse).reverse

end Vetting.Blank
