import Mathlib
import Vetting.Proofs.Json.Codec

/-!
Whole numbers of sixty-four bits read back as they were written, whatever value or bracket follows
(`number_written`). The digits are those of the value (`digitsWithin_digits`), and the first of them is
no zero unless the number is zero (`exists_leading`), so the reader neither refuses nor rounds.
-/
namespace Vetting.Json

/-- A character of ASCII text as a byte. -/
abbrev byteOf (c : Char) : UInt8 := UInt8.ofNat c.toNat

theorem toNat_of_isDigit {c : Char} (digit : c.isDigit = true) : 48 ≤ c.toNat ∧ c.toNat ≤ 57 := by
  simpa [Char.isDigit, UInt32.le_iff_toNat_le] using digit

theorem toNat_byteOf {c : Char} (digit : c.isDigit = true) : (byteOf c).toNat = c.toNat := by
  have bounds := toNat_of_isDigit digit
  rw [UInt8.toNat_ofNat']
  omega

theorem isDigit_byteOf {c : Char} (digit : c.isDigit = true) : isDigit (byteOf c) = true := by
  have bounds := toNat_of_isDigit digit
  have value := toNat_byteOf digit
  simp only [isDigit, Bool.and_eq_true, decide_eq_true_eq, UInt8.le_iff_toNat_le, UInt8.reduceToNat]
  omega

theorem le_ofDigitChars (digits : List Char) (value : Nat) : value ≤ Nat.ofDigitChars 10 digits value := by
  induction digits generalizing value with
  | nil => exact Nat.le_refl value
  | cons c digits ih =>
    rw [Nat.ofDigitChars_cons]
    have := ih (10 * value + (c.toNat - '0'.toNat))
    omega

/-- Digits that stay within the limit are all taken in. -/
theorem digitsWithin_digits {limit : Nat} {rest : Input} (ends : digitNext rest = false)
    {digits : List Char} (all : ∀ c ∈ digits, c.isDigit = true) {value : Nat}
    (fits : Nat.ofDigitChars 10 digits value ≤ limit) :
    digitsWithin limit value (digits.map byteOf ++ rest) = (Nat.ofDigitChars 10 digits value, rest) := by
  induction digits generalizing value with
  | nil =>
    cases rest with
    | nil => rfl
    | cons b rest =>
      have other : isDigit b = false := ends
      simp [digitsWithin, other]
  | cons c digits ih =>
    have digit := all c List.mem_cons_self
    have zero : '0'.toNat = 48 := rfl
    rw [Nat.ofDigitChars_cons] at fits
    have next : value * 10 + ((byteOf c).toNat - 48) = 10 * value + (c.toNat - '0'.toNat) := by
      rw [toNat_byteOf digit]
      omega
    have within : 10 * value + (c.toNat - '0'.toNat) ≤ limit := (le_ofDigitChars digits _).trans fits
    rw [List.map_cons, List.cons_append, digitsWithin, next, if_pos ⟨isDigit_byteOf digit, within⟩,
      ih (fun d mem => all d (List.mem_cons_of_mem c mem)) fits, Nat.ofDigitChars_cons]

/-- The digits of a positive number do not start with a zero. -/
theorem exists_leading {n : Nat} (positive : 0 < n) :
    ∃ c digits, Nat.toDigits 10 n = c :: digits ∧ c ≠ '0' := by
  induction n using Nat.strongRecOn with
  | ind n ih =>
    by_cases short : n < 10
    · refine ⟨n.digitChar, [], Nat.toDigits_of_lt_base short, ?_⟩
      have other : ∀ k : Fin 10, 0 < k.val → k.val.digitChar ≠ '0' := by decide
      exact other ⟨n, short⟩ positive
    · obtain ⟨c, digits, same, other⟩ := ih (n / 10) (by omega) (by omega)
      refine ⟨c, digits ++ [(n % 10).digitChar], ?_, other⟩
      rw [Nat.toDigits_of_base_le (by decide) (by omega), same, List.cons_append]

/-- Whether a number is whole and of sixty-four bits, so that it stays whole when it is read. -/
def Number.Fits : Number → Prop
  | .natural n => n ≤ Decimal.maxNat64
  | .negative n => 0 < n ∧ n ≤ 9223372036854775808
  | .decimal .. => False

theorem fits_ofInt {v : Int} (low : Decimal.minInt64 ≤ v) (high : v ≤ Decimal.maxNat64) :
    (Number.ofInt v).Fits := by
  simp only [Decimal.minInt64, Decimal.maxNat64] at low high
  unfold Number.ofInt
  by_cases minus : v < 0
  · rw [if_pos minus]
    constructor
    · omega
    · omega
  · rw [if_neg minus]
    show v.natAbs ≤ Decimal.maxNat64
    simp only [Decimal.maxNat64]
    omega

theorem Ends.digitNext {rest : Input} (ends : Ends rest) : digitNext rest = false := by
  cases rest with
  | nil => rfl
  | cons b rest => rcases ends b rfl with rfl | rfl | rfl <;> rfl

private theorem wholeEnd_ends {rest : Input} (ends : Ends rest) (minus : Bool) (n : Nat) :
    wholeEnd minus n none rest = .ok (whole minus n, rest) := by
  cases rest with
  | nil => rfl
  | cons b rest => rcases ends b rfl with rfl | rfl | rfl <;> rfl

/-- The digits of a number are read as its value. -/
theorem numberBody_digits {rest : Input} (ends : Ends rest) (minus : Bool) {n : Nat}
    (fits : n ≤ Decimal.maxNat64) :
    numberBody minus ((Nat.toDigits 10 n).map byteOf ++ rest) = .ok (whole minus n, rest) := by
  by_cases zero : n = 0
  · subst zero
    show (if digitNext rest = true then _ else wholeEnd minus 0 none rest) = _
    rw [ends.digitNext, if_neg Bool.false_ne_true]
    exact wholeEnd_ends ends minus 0
  · obtain ⟨c, digits, spelled, other⟩ := exists_leading (Nat.pos_of_ne_zero zero)
    have all : ∀ d ∈ c :: digits, d.isDigit = true := by
      intro d mem
      rw [← spelled] at mem
      exact Nat.isDigit_of_mem_toDigits (by decide) (by decide) mem
    have digit := all c List.mem_cons_self
    have value : Nat.ofDigitChars 10 digits (c.toNat - 48) = n := by
      have whole := Nat.ofDigitChars_ten_toDigits (n := n)
      rw [spelled, Nat.ofDigitChars_cons, Nat.mul_zero, Nat.zero_add] at whole
      exact whole
    have leads : byteOf c ≠ 48 := by
      intro same
      have code := congrArg UInt8.toNat same
      rw [toNat_byteOf digit] at code
      exact other (Char.toNat_inj.1 code)
    have taken := digitsWithin_digits ends.digitNext (fun d mem => all d (List.mem_cons_of_mem c mem))
      (value.symm ▸ fits : Nat.ofDigitChars 10 digits (c.toNat - 48) ≤ Decimal.maxNat64)
    rw [spelled, List.map_cons, List.cons_append, numberBody, if_neg leads, if_pos (isDigit_byteOf digit),
      toNat_byteOf digit, taken, value]
    dsimp only
    rw [ends.digitNext, if_neg Bool.false_ne_true]
    exact wholeEnd_ends ends minus n

theorem text_natural (n : Nat) : ascii (Number.natural n).text = (Nat.toDigits 10 n).map byteOf := by
  rw [ascii, Number.text, Nat.toString_eq_repr, Nat.toList_repr]

theorem text_negative (n : Nat) :
    ascii (Number.negative n).text = 45 :: (Nat.toDigits 10 n).map byteOf := by
  rw [ascii, Number.text, Nat.toString_eq_repr, String.toList_append, Nat.toList_repr, List.map_append]
  rfl

theorem exists_digits (n : Nat) : ∃ c digits, Nat.toDigits 10 n = c :: digits ∧ c.isDigit = true := by
  cases spelled : Nat.toDigits 10 n with
  | nil => exact absurd spelled Nat.toDigits_ne_nil
  | cons c digits =>
    refine ⟨c, digits, rfl, Nat.isDigit_of_mem_toDigits (b := 10) (n := n) (by decide) (by decide) ?_⟩
    rw [spelled]
    exact List.mem_cons_self

/-- A number begins with a sign or a digit. -/
theorem exists_start {n : Number} (fits : n.Fits) :
    ∃ b tail, ascii n.text = b :: tail ∧ startsNumber b = true := by
  cases n with
  | natural n =>
    obtain ⟨c, digits, spelled, digit⟩ := exists_digits n
    refine ⟨byteOf c, digits.map byteOf, by rw [text_natural, spelled, List.map_cons], ?_⟩
    rw [startsNumber, isDigit_byteOf digit, Bool.or_true]
  | negative n => exact ⟨45, _, text_negative n, rfl⟩
  | decimal minus x => exact fits.elim

/-- A number reads back from its text. -/
theorem number_written {n : Number} (fits : n.Fits) {rest : Input} (ends : Ends rest) :
    number (ascii n.text ++ rest) = .ok (n, rest) := by
  cases n with
  | natural n =>
    obtain ⟨c, digits, spelled, digit⟩ := exists_digits n
    have unsigned : byteOf c ≠ 45 := by
      intro same
      have digit := isDigit_byteOf digit
      rw [same] at digit
      exact absurd digit (by decide)
    have body := numberBody_digits ends false fits
    rw [text_natural, spelled, List.map_cons, List.cons_append]
    rw [spelled, List.map_cons, List.cons_append] at body
    rw [number.eq_def]
    split
    · next same => exact absurd (List.cons.inj same).1 unsigned
    · exact body
  | negative n =>
    obtain ⟨positive, bound⟩ := fits
    have body := numberBody_digits ends true (n := n) (by simp only [Decimal.maxNat64]; omega)
    have kept : whole true n = .negative n := by
      have zero : ¬ (n = 0 ∨ n > 9223372036854775808) := by omega
      simp [whole, zero]
    rw [text_negative, List.cons_append, number, body, kept]
  | decimal minus x => exact fits.elim

theorem startsNumber_solid {b : UInt8} (start : startsNumber b = true) : isBlank b = false := by
  revert b
  decide +kernel

/-- A whole number within the bounds of its codec reads back. -/
theorem readsBack_integer {wanted : String} {low high v : Int} (depth : Nat) (least : low ≤ v)
    (most : v ≤ high) (fits : (Number.ofInt v).Fits) : ReadsBack (.integer wanted low high) depth v := by
  intro nesting rest _ ends
  have written : (Codec.integer wanted low high).write v = ascii (Number.ofInt v).text := by
    simp [Codec.write, Codec.integer, Tree.ofInt, Tree.write]
  obtain ⟨b, tail, spelled, start⟩ := exists_start fits
  have read := number_written fits ends
  rw [written]
  rw [spelled, List.cons_append] at read ⊢
  simp only [Codec.integer, blanks_cons (startsNumber_solid start), start, if_true, read, Codec.bounded,
    Number.toInt?_ofInt, least, most, and_self]

/-- Whether a number is a signed word of sixty-four bits. -/
def IsInt64 (v : Int) : Prop := Decimal.minInt64 ≤ v ∧ v ≤ Decimal.maxInt64

/-- Whether a number is a signed word of thirty-two bits. -/
def IsInt32 (v : Int) : Prop := Decimal.minInt32 ≤ v ∧ v ≤ Decimal.maxInt32

theorem IsInt64.fits {v : Int} (word : IsInt64 v) : (Number.ofInt v).Fits := by
  obtain ⟨low, high⟩ := word
  refine fits_ofInt low ?_
  simp only [Decimal.maxInt64, Decimal.maxNat64] at high ⊢
  omega

theorem IsInt32.fits {v : Int} (word : IsInt32 v) : (Number.ofInt v).Fits := by
  obtain ⟨low, high⟩ := word
  simp only [Decimal.minInt32, Decimal.maxInt32] at low high
  apply fits_ofInt
  · simp only [Decimal.minInt64]
    omega
  · simp only [Decimal.maxNat64]
    omega

theorem readsBack_int64 (depth : Nat) {v : Int} (word : IsInt64 v) : ReadsBack .int64 depth v :=
  readsBack_integer depth word.1 word.2 word.fits

theorem readsBack_nat64 (depth : Nat) {n : Nat} (most : n ≤ Decimal.maxNat64) :
    ReadsBack .nat64 depth n := by
  have high : (Int.ofNat n) ≤ (Decimal.maxNat64 : Int) := Int.ofNat_le.2 most
  have fits : (Number.ofInt (Int.ofNat n)).Fits := by
    refine fits_ofInt ?_ high
    simp only [Decimal.minInt64, Int.ofNat_eq_natCast]
    omega
  apply ReadsBack.map
  · intro nesting rest deep ends
    exact readsBack_integer depth (Int.natCast_nonneg n) high fits deep ends
  · rfl

end Vetting.Json
