/-!
Magnitudes of double precision: a significand of at most fifty-three bits and a power of two.
Main definitions: `round`, the nearest magnitude to a fraction, a half going to the even
significand, and `shortest`, the fewest decimal digits that round back.
-/
namespace Vetting

/-- The magnitude `significand * 2 ^ exponent`. -/
structure Double where
  significand : Nat
  exponent : Int
  deriving DecidableEq, Repr

namespace Double

def zero : Double := ⟨0, -1074⟩

/-- The fraction `num / den` times `base ^ exponent`. -/
def scale (base num den : Nat) (exponent : Int) : Nat × Nat :=
  if exponent < 0 then (num, den * Nat.pow base exponent.natAbs)
  else (num * Nat.pow base exponent.natAbs, den)

/-- A double as a fraction. -/
def fraction (x : Double) : Nat × Nat := scale 2 x.significand 1 x.exponent

/-- The quotient rounded to the nearest number, a half to the even one. -/
def nearest (num den : Nat) : Nat :=
  let q := num / den
  let twice := 2 * (num % den)
  if twice > den ∨ (twice = den ∧ q % 2 = 1) then q + 1 else q

/-- The power of two at which the fraction's whole part has fifty-three bits, or the smallest
power if the fraction is too small for that. -/
def unit (num den : Nat) : Int :=
  let guess : Int := (Nat.log2 num : Int) - (Nat.log2 den : Int) - 52
  let (n, d) := scale 2 num den (-guess)
  let exact := if n / d < Nat.pow 2 52 then guess - 1 else if n / d ≥ Nat.pow 2 53 then guess + 1 else guess
  max exact (-1074)

/-- The double nearest to `num / den`; nothing if it is beyond the largest. -/
def round (num den : Nat) : Option Double :=
  if num = 0 then some zero
  else
    let e := unit num den
    let (n, d) := scale 2 num den (-e)
    let m := nearest n d
    let (m, e) := if m = Nat.pow 2 53 then (Nat.pow 2 52, e + 1) else (m, e)
    if e > 971 then none else some ⟨m, e⟩

/-- The product and the quotient with a power of ten that is itself rounded. -/
def timesTen (x : Double) (k : Nat) : Option Double :=
  (round (Nat.pow 10 k) 1).bind fun p =>
    let (a, b) := x.fraction
    let (c, d) := p.fraction
    round (a * c) (b * d)

def overTen (x : Double) (k : Nat) : Option Double :=
  (round (Nat.pow 10 k) 1).bind fun p =>
    let (a, b) := x.fraction
    let (c, d) := p.fraction
    round (a * d) (b * c)

/-- Digits and the power of ten that the first of them stands for. -/
structure Digits where
  digits : List Char
  power : Int
  deriving Repr

/-- The power of ten of a fraction's first digit. -/
def leadingPower (num den : Nat) : Int :=
  let guess : Int := ((Nat.toDigits 10 num).length : Int) - ((Nat.toDigits 10 den).length : Int)
  let (n, d) := scale 10 num den (-guess)
  if n < d then guess - 1 else guess

/-- The point of the grid with `count` digits that is nearest to the double and reads back as it,
if one of its two neighbours on that grid does. -/
def onGrid (x : Double) (count : Nat) : Option Digits :=
  let (num, den) := x.fraction
  let first := leadingPower num den
  let step := first - (count : Int) + 1
  let (n, d) := scale 10 num den (-step)
  let low := n / d
  let readsBack (k : Nat) : Bool :=
    let (p, q) := scale 10 k 1 step
    round p q == some x
  let nearer := nearest n d
  let other := if nearer = low then low + 1 else low
  let write (k : Nat) : Digits :=
    let text := Nat.toDigits 10 k
    ⟨text, step + (text.length : Int) - 1⟩
  if readsBack nearer then some (write nearer)
  else if readsBack other then some (write other)
  else none

/-- The fewest digits that read back as the double; seventeen always do. -/
def shortest (x : Double) : Digits :=
  if x.significand = 0 then ⟨['0'], 0⟩
  else
    match (List.range 17).findSome? fun i => onGrid x (i + 1) with
    | some found => found
    | none => ⟨['0'], 0⟩

/-- Trailing zeros say nothing after the point. -/
def trimZeros (digits : List Char) : List Char :=
  (digits.reverse.dropWhile (· = '0')).reverse

/-- Powers from -5 to 15 are written out with a point; others as one digit, a fraction and a
signed power. -/
def text (x : Double) : String :=
  let ⟨digits, power⟩ := shortest x
  let digits := match trimZeros digits with
    | [] => ['0']
    | kept => kept
  if -5 ≤ power ∧ power ≤ 15 then
    if power < 0 then
      "0." ++ String.ofList (List.replicate (power.natAbs - 1) '0' ++ digits)
    else
      let whole := power.natAbs + 1
      let left := digits.take whole ++ List.replicate (whole - digits.length) '0'
      let right := match digits.drop whole with
        | [] => ['0']
        | kept => kept
      String.ofList left ++ "." ++ String.ofList right
  else
    let fraction := match digits.drop 1 with
      | [] => ""
      | kept => "." ++ String.ofList kept
    String.ofList (digits.take 1) ++ fraction ++ "e" ++
      (if power < 0 then "-" else "+") ++ toString power.natAbs

end Double

end Vetting
