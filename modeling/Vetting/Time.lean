import Vetting.Text

/-!
Days of the proleptic Gregorian calendar, points in universal time to the nanosecond, a leap second
included, and lengths of time. Writing a point has one form, `2024-06-01T10:20:30.5Z` with as many thousands
of fraction digits as needed; reading also takes blanks around the parts, one-digit parts, a small `t` or a
blank before the time, and an offset, which it subtracts. The text of a length has the largest unit of which
there is at least one, and a fraction without trailing zeros.
-/
namespace Vetting

/-- Years divisible by four are leap years, centuries only if divisible by four hundred. -/
def isLeapYear (year : Int) : Bool := year % 4 == 0 && (year % 100 != 0 || year % 400 == 0)

/-- The number of days of a month. -/
def daysInMonth (year : Int) (month : Nat) : Nat :=
  if month = 2 then (if isLeapYear year then 29 else 28)
  else if month = 4 ∨ month = 6 ∨ month = 9 ∨ month = 11 then 30
  else 31

private theorem one_le_daysInMonth (year : Int) (month : Nat) : 1 ≤ daysInMonth year month := by
  unfold daysInMonth
  repeat' split
  all_goals omega

/-- A day that the calendar has. -/
structure Date where
  year : Int
  month : Nat
  day : Nat
  month_mem : 1 ≤ month ∧ month ≤ 12
  day_mem : 1 ≤ day ∧ day ≤ daysInMonth year month
  deriving DecidableEq, Repr

namespace Date

/-- The day with this year, month and day of the month, if there is one. -/
def ofParts? (year : Int) (month day : Nat) : Option Date :=
  if hm : 1 ≤ month ∧ month ≤ 12 then
    if hd : 1 ≤ day ∧ day ≤ daysInMonth year month then some ⟨year, month, day, hm, hd⟩ else none
  else none

/-- The following day. -/
def next (d : Date) : Date :=
  if h : d.day < daysInMonth d.year d.month then
    ⟨d.year, d.month, d.day + 1, d.month_mem, by omega⟩
  else if hm : d.month < 12 then
    ⟨d.year, d.month + 1, 1, by omega, Nat.le_refl 1, one_le_daysInMonth _ _⟩
  else ⟨d.year + 1, 1, 1, by omega, Nat.le_refl 1, one_le_daysInMonth _ _⟩

/-- The day before. -/
def previous (d : Date) : Date :=
  if h : 1 < d.day then
    ⟨d.year, d.month, d.day - 1, d.month_mem, by have := d.day_mem; omega⟩
  else if hm : 1 < d.month then
    ⟨d.year, d.month - 1, daysInMonth d.year (d.month - 1),
      by have := d.month_mem; omega, one_le_daysInMonth _ _, Nat.le_refl _⟩
  else ⟨d.year - 1, 12, daysInMonth (d.year - 1) 12, by omega, one_le_daysInMonth _ _, Nat.le_refl _⟩

end Date

/-- A day and a time of that day; second sixty is a leap second. -/
structure Instant where
  date : Date
  hour : Nat
  minute : Nat
  second : Nat
  nano : Nat
  hour_lt : hour < 24
  minute_lt : minute < 60
  second_le : second ≤ 60
  nano_lt : nano < 1000000000
  deriving DecidableEq, Repr

namespace Instant

/-- The years that can be told. -/
def firstYear : Int := -262143
def lastYear : Int := 262142

/-- A number in at least so many digits. -/
def padded (width n : Nat) : String :=
  let digits := Nat.toDigits 10 n
  String.ofList (List.replicate (width - digits.length) '0' ++ digits)

/-- Years of four digits are written bare, others with a sign. -/
def yearText (year : Int) : String :=
  if 0 ≤ year ∧ year ≤ 9999 then padded 4 year.toNat
  else (if year < 0 then "-" else "+") ++ padded 4 year.natAbs

/-- No fraction, or three, six or nine digits of it, the fewest that lose nothing. -/
def fractionText (nano : Nat) : String :=
  if nano = 0 then ""
  else if nano % 1000000 = 0 then "." ++ padded 3 (nano / 1000000)
  else if nano % 1000 = 0 then "." ++ padded 6 (nano / 1000)
  else "." ++ padded 9 nano

/-- The written form. -/
def text (t : Instant) : String :=
  yearText t.date.year ++ "-" ++ padded 2 t.date.month ++ "-" ++ padded 2 t.date.day ++ "T" ++
    padded 2 t.hour ++ ":" ++ padded 2 t.minute ++ ":" ++ padded 2 t.second ++
    fractionText t.nano ++ "Z"

/-- A number in one to `width` digits, after blanks, and what follows it. -/
def number (width : Nat) (text : List Char) : Option (Nat × List Char) :=
  let text := Blank.skip text
  match (text.take width).takeWhile (fun c => (Decimal.digit? c).isSome) with
  | [] => none
  | digits =>
    some (digits.foldl (fun n c => n * 10 + (Decimal.digit? c).getD 0) 0, text.drop digits.length)

/-- The rest after one given character, which blanks may precede. -/
def mark (c : Char) (text : List Char) : Option (List Char) :=
  match Blank.skip text with
  | d :: rest => if d = c then some rest else none
  | [] => none

/-- A signed year takes all its digits, a bare one at most four. -/
def year (text : List Char) : Option (Int × List Char) :=
  match Blank.skip text with
  | '-' :: c :: rest =>
    if Blank.isBlank c then none
    else (number (rest.length + 1) (c :: rest)).map fun (n, rest) => (-(n : Int), rest)
  | '+' :: c :: rest =>
    if Blank.isBlank c then none
    else (number (rest.length + 1) (c :: rest)).map fun (n, rest) => ((n : Int), rest)
  | text => (number 4 text).map fun (n, rest) => ((n : Int), rest)

/-- The billionths that up to nine digits of a fraction spell; further digits are dropped. -/
def fraction : List Char → Option (Nat × List Char)
  | '.' :: c :: rest =>
    let isDigit (c : Char) : Bool := (Decimal.digit? c).isSome
    if isDigit c then
      let digits := (c :: rest).takeWhile isDigit
      let kept := digits.take 9
      let value := kept.foldl (fun n c => n * 10 + (Decimal.digit? c).getD 0) 0
      some (value * Nat.pow 10 (9 - kept.length), (c :: rest).drop digits.length)
    else none
  | ['.'] => none
  | text => some (0, text)

/-- The minutes that an offset is ahead of universal time: `Z`, `UTC`, or a sign, two digits of
hours, colons or blanks, and two digits of minutes. Blanks around it do not count. -/
def offset (text : List Char) : Option Int :=
  match Blank.trim text with
  | [c] => if c = 'Z' ∨ c = 'z' then some 0 else none
  | [a, b, c] => if [a, b, c].map Char.toUpper = ['U', 'T', 'C'] then some 0 else none
  | sign :: h :: i :: rest =>
    let negative := sign = '-' ∨ sign = Char.ofNat 0x2212
    if sign = '+' ∨ negative then
      match Decimal.digit? h, Decimal.digit? i,
          (rest.dropWhile fun c => c = ':' ∨ Blank.isBlank c).map Decimal.digit? with
      | some h, some i, [some m, some n] =>
        let minutes : Int := ((h * 10 + i) * 60 + m * 10 + n : Nat)
        if m < 6 ∧ minutes < 1440 then some (if negative then -minutes else minutes) else none
      | _, _, _ => none
    else none
  | _ => none

/-- The instant at a local day and time that is `ahead` minutes ahead of universal time. -/
def ofLocal (date : Date) (hour minute second nano : Nat) (ahead : Int) : Option Instant :=
  if h : hour < 24 ∧ minute < 60 ∧ second ≤ 60 ∧ nano < 1000000000 then
    let minutes : Int := ((hour * 60 + minute : Nat) : Int) - ahead
    let date := if minutes < 0 then date.previous else if minutes ≥ 1440 then date.next else date
    let ofDay := (minutes % 1440).toNat
    if firstYear ≤ date.year ∧ date.year ≤ lastYear then
      some ⟨date, ofDay / 60, ofDay % 60, second, nano, by omega, by omega, h.2.2.1, h.2.2.2⟩
    else none
  else none

/-- Reads the text of an instant. -/
def parse? (text : String) : Option Instant := do
  let (year, rest) ← year text.toList
  let (month, rest) ← number 2 (← mark '-' rest)
  let (day, rest) ← number 2 (← mark '-' rest)
  let date ← Date.ofParts? year month day
  if year < firstYear ∨ lastYear < year then none
  match rest with
  | [] => none
  | separator :: rest =>
    if separator = 'T' ∨ separator = 't' ∨ separator = ' ' then
      let (hour, rest) ← number 2 rest
      let (minute, rest) ← number 2 (← mark ':' rest)
      let (second, rest) ← number 2 (← mark ':' rest)
      let (nano, rest) ← fraction rest
      ofLocal date hour minute second nano (← offset rest)
    else none

end Instant

/-- A length of time of less than 2 ^ 64 seconds. -/
structure Span where
  nanos : Nat
  nanos_lt : nanos < 18446744073709551616 * 1000000000
  deriving DecidableEq, Repr

namespace Span

def zero : Span := ⟨0, by decide⟩

/-- Whole milliseconds, of which a 64-bit word holds no more than a span can have. -/
def ofMillis (n : UInt64) : Span := ⟨n.toNat * 1000000, by have := n.toNat_lt; omega⟩

/-- Whole seconds. -/
def ofSeconds (n : UInt64) : Span := ⟨n.toNat * 1000000000, by have := n.toNat_lt; omega⟩

/-- The whole seconds of a span, and its whole milliseconds. -/
def seconds (s : Span) : Nat := s.nanos / 1000000000
def millis (s : Span) : Nat := s.nanos / 1000000

/-- A third of a span, in whole nanoseconds. -/
def third (s : Span) : Span := ⟨s.nanos / 3, by have := s.nanos_lt; omega⟩

/-- `count` of a unit, and the part of a further one as a decimal fraction of `places` digits. -/
def decimalText (count part places : Nat) (unit : String) : String :=
  let fraction := ((Instant.padded places part).toList.reverse.dropWhile (· = '0')).reverse
  toString count ++ (if fraction = [] then "" else "." ++ String.ofList fraction) ++ unit

/-- The text of a span. -/
def text (s : Span) : String :=
  if s.nanos ≥ 1000000000 then decimalText (s.nanos / 1000000000) (s.nanos % 1000000000) 9 "s"
  else if s.nanos ≥ 1000000 then decimalText (s.nanos / 1000000) (s.nanos % 1000000) 6 "ms"
  else if s.nanos ≥ 1000 then decimalText (s.nanos / 1000) (s.nanos % 1000) 3 "µs"
  else toString s.nanos ++ "ns"

end Span

end Vetting
