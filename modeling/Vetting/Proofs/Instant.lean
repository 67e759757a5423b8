import Vetting.Proofs.Json.Number
import Vetting.Time

/-!
The text of an instant is that of no other, to the nanosecond and with its leap seconds: it reads back as
it was written (`parse?_text`). That holds of the years that have four digits. Numbers are written with as
many digits as the reader takes (`Spells`), so each ends where the next mark stands, and a fraction
that is cut to three or six digits is read with the power of ten that it lacks.
-/
namespace Vetting

theorem Decimal.digit?_of_isDigit {c : Char} (digit : c.isDigit = true) :
    Decimal.digit? c = some (c.toNat - 48) := by
  have bounds := Json.toNat_of_isDigit digit
  rw [Decimal.digit?, if_pos bounds]

theorem Blank.skip_cons {c : Char} (solid : Blank.isBlank c = false) (rest : List Char) :
    Blank.skip (c :: rest) = c :: rest := by
  simp [Blank.skip, solid]

private theorem Blank.isBlank_of_isDigit {c : Char} (digit : c.isDigit = true) :
    Blank.isBlank c = false := by
  have bounds := Json.toNat_of_isDigit digit
  simp only [Blank.isBlank, Bool.or_eq_false_iff, Bool.and_eq_false_iff, beq_eq_false_iff_ne,
    decide_eq_false_iff_not]
  omega

namespace Date

private theorem ofParts?_parts (d : Date) : ofParts? d.year d.month d.day = some d := by
  rw [ofParts?, dif_pos d.month_mem, dif_pos d.day_mem]

end Date

namespace Instant

/-- Digits that spell a number in so many places. -/
structure Spells (width n : Nat) (digits : List Char) : Prop where
  length : digits.length = width
  digit : ∀ c ∈ digits, c.isDigit = true
  value : Nat.ofDigitChars 10 digits 0 = n

private theorem spells_padded (width : Nat) {n : Nat} (places : 0 < width) (fits : n < 10 ^ width) :
    Spells width n (padded width n).toList := by
  have short : (Nat.toDigits 10 n).length ≤ width := (Nat.length_toDigits_le_iff (by decide) places).2 fits
  have list : (padded width n).toList =
      List.replicate (width - (Nat.toDigits 10 n).length) '0' ++ Nat.toDigits 10 n := String.toList_ofList
  rw [list]
  constructor
  · rw [List.length_append, List.length_replicate]
    omega
  · intro c mem
    rcases List.mem_append.1 mem with zero | digit
    · rw [List.eq_of_mem_replicate zero]
      rfl
    · exact Nat.isDigit_of_mem_toDigits (by decide) (by decide) digit
  · rw [Nat.ofDigitChars_append, Nat.ofDigitChars_replicate_zero, Nat.mul_zero, Nat.ofDigitChars_ten_toDigits]

private theorem foldl_digits {digits : List Char} (all : ∀ c ∈ digits, c.isDigit = true) (value : Nat) :
    digits.foldl (fun n c => n * 10 + (Decimal.digit? c).getD 0) value = Nat.ofDigitChars 10 digits value := by
  induction digits generalizing value with
  | nil => rfl
  | cons c digits ih =>
    have zero : '0'.toNat = 48 := rfl
    rw [List.foldl_cons, Nat.ofDigitChars_cons, ih fun d mem => all d (List.mem_cons_of_mem c mem),
      Decimal.digit?_of_isDigit (all c List.mem_cons_self), Option.getD_some, Nat.mul_comm, zero]

private theorem takeWhile_digits {digits : List Char} (all : ∀ c ∈ digits, c.isDigit = true)
    (rest : List Char) (ends : ∀ c ∈ rest.head?, Decimal.digit? c = none) :
    (digits ++ rest).takeWhile (fun c => (Decimal.digit? c).isSome) = digits := by
  have read : ∀ c ∈ digits, (Decimal.digit? c).isSome = true := by
    intro c mem
    rw [Decimal.digit?_of_isDigit (all c mem), Option.isSome_some]
  rw [List.takeWhile_append_of_pos read]
  cases rest with
  | nil => simp
  | cons c rest => simp [ends c rfl]

variable {width n : Nat} {digits : List Char}

/-- A number is read from exactly as many digits as it is spelled in. -/
theorem number_spelled (spells : Spells (width + 1) n digits) (rest : List Char) :
    number (width + 1) (digits ++ rest) = some (n, rest) := by
  have length := spells.length
  have read := foldl_digits spells.digit 0
  rw [spells.value] at read
  cases digits with
  | nil => simp at length
  | cons c digits =>
    have solid := Blank.isBlank_of_isDigit (spells.digit c List.mem_cons_self)
    have taken : ((c :: digits ++ rest).take (width + 1)).takeWhile (fun c => (Decimal.digit? c).isSome) =
        c :: digits := by
      have all := takeWhile_digits spells.digit [] (by simp)
      rw [List.append_nil] at all
      rw [← length, List.take_left, all]
    have skipped : Blank.skip (c :: digits ++ rest) = c :: digits ++ rest :=
      Blank.skip_cons solid (digits ++ rest)
    simp only [number, skipped, taken, read, List.drop_left]

private theorem mark_cons {c : Char} (solid : Blank.isBlank c = false) (rest : List Char) :
    mark c (c :: rest) = some rest := by
  rw [mark, Blank.skip_cons solid]
  exact if_pos rfl

private theorem year_written {y : Int} (first : 0 ≤ y) (last : y ≤ 9999) (rest : List Char) :
    year ((yearText y).toList ++ rest) = some (y, rest) := by
  have spells : Spells 4 y.toNat (padded 4 y.toNat).toList := spells_padded 4 (by decide) (by omega)
  have bare : yearText y = padded 4 y.toNat := if_pos ⟨first, last⟩
  have read := number_spelled spells rest
  rw [bare]
  have length := spells.length
  have digit := spells.digit
  generalize (padded 4 y.toNat).toList = digits at read length digit
  cases digits with
  | nil => simp at length
  | cons c digits =>
    have digit := digit c List.mem_cons_self
    have unsigned : c ≠ '-' ∧ c ≠ '+' := by
      constructor
      · rintro rfl
        exact absurd digit (by decide)
      · rintro rfl
        exact absurd digit (by decide)
    rw [year, List.cons_append, Blank.skip_cons (Blank.isBlank_of_isDigit digit)]
    rw [List.cons_append] at read
    split
    · next same => exact absurd (List.cons.inj same).1 unsigned.1
    · next same => exact absurd (List.cons.inj same).1 unsigned.2
    · rw [read, Option.map_some]
      exact congrArg (fun value => some (value, rest)) (Int.toNat_of_nonneg first)

/-- Up to nine digits after a point are billionths, if as many zeros are added as nine digits need. -/
theorem fraction_spelled (spells : Spells (width + 1) n digits) (short : width + 1 ≤ 9) :
    fraction ('.' :: (digits ++ ['Z'])) = some (n * 10 ^ (9 - (width + 1)), ['Z']) := by
  have length := spells.length
  have read := foldl_digits spells.digit 0
  rw [spells.value] at read
  cases digits with
  | nil => simp at length
  | cons c digits =>
    have first := Decimal.digit?_of_isDigit (spells.digit c List.mem_cons_self)
    have taken := takeWhile_digits spells.digit ['Z'] (by simp [Decimal.digit?])
    have whole : (c :: digits).take 9 = c :: digits := List.take_of_length_le (by omega)
    simp only [List.cons_append] at taken
    have left : (c :: (digits ++ ['Z'])).drop (width + 1) = ['Z'] := by
      rw [← length]
      exact List.drop_left
    simp only [fraction, List.cons_append, first, Option.isSome_some, if_true, taken, whole, read, length, left,
      Nat.pow_eq]

private theorem fraction_written {nano : Nat} (bound : nano < 1000000000) :
    fraction ((fractionText nano).toList ++ ['Z']) = some (nano, ['Z']) := by
  have point : ∀ digits : String, ("." ++ digits).toList ++ ['Z'] = '.' :: (digits.toList ++ ['Z']) := by
    intro digits
    rw [String.toList_append]
    rfl
  unfold fractionText
  by_cases none : nano = 0
  · rw [if_pos none, none]
    rfl
  · rw [if_neg none]
    by_cases milli : nano % 1000000 = 0
    · rw [if_pos milli, point,
        fraction_spelled (spells_padded 3 (by decide) (by omega)) (by decide)]
      simp only [Option.some.injEq, Prod.mk.injEq, and_true]
      omega
    · rw [if_neg milli]
      by_cases micro : nano % 1000 = 0
      · rw [if_pos micro, point,
          fraction_spelled (spells_padded 6 (by decide) (by omega)) (by decide)]
        simp only [Option.some.injEq, Prod.mk.injEq, and_true]
        omega
      · rw [if_neg micro, point,
          fraction_spelled (spells_padded 9 (by decide) (by omega)) (by decide)]
        simp

/-- Without an offset the time is as it was read. -/
theorem ofLocal_universal (t : Instant) (first : firstYear ≤ t.date.year) (last : t.date.year ≤ lastYear) :
    ofLocal t.date t.hour t.minute t.second t.nano 0 = some t := by
  have hour := t.hour_lt
  have minute := t.minute_lt
  rw [ofLocal, dif_pos ⟨t.hour_lt, t.minute_lt, t.second_le, t.nano_lt⟩]
  have early : ¬ ((t.hour * 60 + t.minute : Nat) : Int) - 0 < 0 := by omega
  have late : ¬ ((t.hour * 60 + t.minute : Nat) : Int) - 0 ≥ 1440 := by omega
  simp only [if_neg early, if_neg late, if_pos (And.intro first last), Option.some.injEq]
  obtain ⟨date, h, m, s, nano, _, _, _, _⟩ := t
  simp only [Instant.mk.injEq, true_and, and_true]
  dsimp only at hour minute
  constructor
  · omega
  · omega

private theorem toList_text (t : Instant) : t.text.toList =
    (yearText t.date.year).toList ++ '-' :: ((padded 2 t.date.month).toList ++
      '-' :: ((padded 2 t.date.day).toList ++ 'T' :: ((padded 2 t.hour).toList ++
        ':' :: ((padded 2 t.minute).toList ++ ':' :: ((padded 2 t.second).toList ++
          ((fractionText t.nano).toList ++ ['Z'])))))) := by
  simp [text]

/-- An instant of a year of four digits reads back from its text. -/
theorem parse?_text (t : Instant) (first : 0 ≤ t.date.year) (last : t.date.year ≤ 9999) :
    parse? t.text = some t := by
  have pair : ∀ {n : Nat} {rest : List Char}, n < 100 →
      number 2 ((padded 2 n).toList ++ rest) = some (n, rest) := by
    intro n rest small
    exact number_spelled (spells_padded 2 (by decide) small) rest
  have month := t.date.month_mem
  have day : t.date.day < 100 := by
    have most : ∀ year month, daysInMonth year month < 100 := by
      intro year month
      unfold daysInMonth
      repeat' split
      all_goals decide
    exact Nat.lt_of_le_of_lt t.date.day_mem.2 (most _ _)
  have early : firstYear ≤ t.date.year := by
    simp only [firstYear]
    omega
  have late : t.date.year ≤ lastYear := by
    simp only [lastYear]
    omega
  have between : ¬ (t.date.year < firstYear ∨ lastYear < t.date.year) := by omega
  have hour := t.hour_lt
  have minute := t.minute_lt
  have second := t.second_le
  have dash : ∀ rest, mark '-' ('-' :: rest) = some rest := mark_cons rfl
  have colon : ∀ rest, mark ':' (':' :: rest) = some rest := mark_cons rfl
  have zulu : offset ['Z'] = some 0 := by decide
  have passes : ∀ {α β : Type} {o : Option α} {a : α} {f : α → Option β} {b : Option β},
      o = some a → f a = b → o.bind f = b := by
    rintro α β _ a f _ rfl rfl
    rfl
  rw [parse?, toList_text]
  refine passes (year_written first last _) ?_
  refine passes (dash _) (passes (pair (by omega)) ?_)
  refine passes (dash _) (passes (pair day) ?_)
  refine passes t.date.ofParts?_parts ?_
  rw [if_neg between]
  show (if 'T' = 'T' ∨ 'T' = 't' ∨ 'T' = ' ' then _ else _) = _
  rw [if_pos (.inl rfl)]
  refine passes (pair (by omega)) ?_
  refine passes (colon _) (passes (pair (by omega)) ?_)
  refine passes (colon _) (passes (pair (by omega)) ?_)
  refine passes (fraction_written t.nano_lt) ?_
  exact passes zulu (t.ofLocal_universal early late)

end Instant

end Vetting
