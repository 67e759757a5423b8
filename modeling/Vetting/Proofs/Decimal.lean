import Vetting.Proofs.Instant

/-!
Which texts are read as numbers within a limit, and as which (`natural?_eq_ok_iff`): digits, with a plus
before them or none. Any other text is refused for the first thing that is wrong with it
(`natural?_eq_error_iff`). The same for signed words of sixty-four bits (`int64?_eq_ok_iff`), and the written
form of a word is one that is read (`int64?_toString`).
-/
namespace Vetting.Decimal

open Json

private theorem digit?_eq_some_iff {c : Char} {d : Nat} :
    digit? c = some d ↔ c.isDigit = true ∧ c.toNat - 48 = d := by
  constructor
  · intro read
    rw [digit?] at read
    split at read
    · next bounds =>
      constructor
      · simpa [Char.isDigit, UInt32.le_iff_toNat_le] using bounds
      · exact Option.some.inj read
    · cases read
  · rintro ⟨digit, rfl⟩
    exact digit?_of_isDigit digit

/-- Why digits after a value cannot be read to their end: there is a character that is none, with a value
within the limit before it, or the digits at the beginning take the value over the limit. -/
inductive Stops (limit : Nat) (excess : Refusal) (value : Nat) : List Char → Refusal → Prop
  | stray {front rest : List Char} {c : Char} (all : ∀ d ∈ front, d.isDigit = true)
    (fits : Nat.ofDigitChars 10 front value ≤ limit) (other : c.isDigit = false) :
    Stops limit excess value (front ++ c :: rest) .notADigit
  | exceeds {front rest : List Char} (all : ∀ d ∈ front, d.isDigit = true)
    (large : limit < Nat.ofDigitChars 10 front value) : Stops limit excess value (front ++ rest) excess

variable {limit value n : Nat} {excess refusal : Refusal} {front rest text : List Char} {c : Char}

private theorem digit?_eq_none (other : c.isDigit = false) : digit? c = none := by
  cases read : digit? c with
  | none => rfl
  | some d =>
    have digit := (digit?_eq_some_iff.1 read).1
    rw [other] at digit
    cases digit

/-- Reading goes past digits at the beginning, unless they take the value over the limit. -/
theorem digits_append (all : ∀ c ∈ front, c.isDigit = true) (fits : value ≤ limit) :
    digits limit excess value (front ++ rest) =
      if limit < Nat.ofDigitChars 10 front value then .error excess
      else digits limit excess (Nat.ofDigitChars 10 front value) rest := by
  induction front generalizing value with
  | nil =>
    rw [Nat.ofDigitChars_nil, if_neg (by omega)]
    rfl
  | cons c front ih =>
    have digit := digit?_of_isDigit (all c List.mem_cons_self)
    have later := fun d mem => all d (List.mem_cons_of_mem c mem)
    have next : value * 10 + (c.toNat - 48) = 10 * value + (c.toNat - '0'.toNat) := by
      have zero : '0'.toNat = 48 := rfl
      omega
    rw [List.cons_append, digits, digit, Nat.ofDigitChars_cons]
    dsimp only
    rw [next]
    by_cases large : limit < 10 * value + (c.toNat - '0'.toNat)
    · have more := le_ofDigitChars front (10 * value + (c.toNat - '0'.toNat))
      rw [if_pos large, if_pos (by omega)]
    · rw [if_neg large, ih later (Nat.not_lt.1 large)]

/-- What reading digits after a value has to come to: the value that digits only give, if it is within the
limit, or else why it stops. -/
def Scanned (limit : Nat) (excess : Refusal) (value : Nat) (text : List Char) : Except Refusal Nat → Prop
  | .ok n => (∀ c ∈ text, c.isDigit = true) ∧ Nat.ofDigitChars 10 text value = n ∧ n ≤ limit
  | .error refusal => Stops limit excess value text refusal

private theorem scanned_digits (excess : Refusal) (text : List Char) (fits : value ≤ limit) :
    Scanned limit excess value text (digits limit excess value text) := by
  have all : ∀ c ∈ text.takeWhile Char.isDigit, c.isDigit = true := fun c mem => List.mem_takeWhile_imp mem
  rw [← List.takeWhile_append_dropWhile (p := Char.isDigit) (l := text), digits_append all fits]
  by_cases large : limit < Nat.ofDigitChars 10 (text.takeWhile Char.isDigit) value
  · rw [if_pos large]
    exact .exceeds all large
  · rw [if_neg large]
    cases left : text.dropWhile Char.isDigit with
    | nil =>
      rw [List.append_nil]
      exact ⟨all, rfl, Nat.not_lt.1 large⟩
    | cons c rest =>
      have stray : c.isDigit = false := by
        have first := List.head_dropWhile_not Char.isDigit (l := text) (by simp [left])
        simpa [left] using first
      rw [digits, digit?_eq_none stray]
      exact .stray all (Nat.not_lt.1 large) stray

private theorem digits_eq_iff {outcome : Except Refusal Nat} (fits : value ≤ limit) :
    digits limit excess value text = outcome ↔ Scanned limit excess value text outcome := by
  constructor
  · rintro rfl
    exact scanned_digits excess text fits
  · cases outcome with
    | ok n =>
      rintro ⟨all, rfl, least⟩
      rw [← List.append_nil text, digits_append all fits, List.append_nil, if_neg (Nat.not_lt.2 least)]
      rfl
    | error refusal =>
      intro stops
      cases stops with
      | stray all within stray =>
        rw [digits_append all fits, if_neg (Nat.not_lt.2 within), digits, digit?_eq_none stray]
      | exceeds all large => rw [digits_append all fits, if_pos large]

/-- Reading takes digits only, and gives their value if that is within the limit. -/
theorem digits_eq_ok_iff (fits : value ≤ limit) :
    digits limit excess value text = .ok n ↔
      (∀ c ∈ text, c.isDigit = true) ∧ Nat.ofDigitChars 10 text value = n ∧ n ≤ limit :=
  digits_eq_iff fits

private theorem digits_eq_error_iff (fits : value ≤ limit) :
    digits limit excess value text = .error refusal ↔ Stops limit excess value text refusal :=
  digits_eq_iff fits

private theorem Stops.ne_nil (stops : Stops limit excess value text refusal) (fits : value ≤ limit) :
    text ≠ [] := by
  rintro rfl
  have refused := (digits_eq_error_iff fits).2 stops
  cases refused

/-- Whether a text spells a number: one digit at least, after a plus or nothing. -/
inductive Numeral : List Char → Nat → Prop
  | plain {digits : List Char} (filled : digits ≠ []) (all : ∀ c ∈ digits, c.isDigit = true) :
    Numeral digits (Nat.ofDigitChars 10 digits 0)
  | plus {digits : List Char} (filled : digits ≠ []) (all : ∀ c ∈ digits, c.isDigit = true) :
    Numeral ('+' :: digits) (Nat.ofDigitChars 10 digits 0)

/-- Why a text is not read as a number within a limit. -/
inductive Refuses (limit : Nat) : List Char → Refusal → Prop
  | empty : Refuses limit [] .empty
  | bare : Refuses limit ['+'] .notADigit
  | plus {text : List Char} {refusal : Refusal} (stops : Stops limit .tooLarge 0 text refusal) :
    Refuses limit ('+' :: text) refusal
  | plain {text : List Char} {refusal : Refusal} (signless : ∀ rest, text ≠ '+' :: rest)
    (stops : Stops limit .tooLarge 0 text refusal) : Refuses limit text refusal

/-- A text is read as a number if it spells it and the number is within the limit. -/
theorem natural?_eq_ok_iff : natural? limit text = .ok n ↔ Numeral text n ∧ n ≤ limit := by
  constructor
  · fun_cases natural? limit text with
    | case3 rest filled =>
      intro read
      obtain ⟨all, rfl, least⟩ := (digits_eq_ok_iff (Nat.zero_le limit)).1 read
      exact ⟨.plus filled all, least⟩
    | case4 _ filled =>
      intro read
      obtain ⟨all, rfl, least⟩ := (digits_eq_ok_iff (Nat.zero_le limit)).1 read
      exact ⟨.plain filled all, least⟩
    | _ => nofun
  · rintro ⟨numeral, least⟩
    cases numeral with
    | plain filled all =>
      have signless : ∀ rest, text ≠ '+' :: rest := by
        rintro rest rfl
        exact absurd (all '+' List.mem_cons_self) (by decide)
      rw [natural?]
      · exact (digits_eq_ok_iff (Nat.zero_le limit)).2 ⟨all, rfl, least⟩
      · exact filled
      · exact signless []
      · exact signless
    | plus filled all =>
      rw [natural?]
      · exact (digits_eq_ok_iff (Nat.zero_le limit)).2 ⟨all, rfl, least⟩
      · exact filled

/-- A text spells one number at most. -/
theorem Numeral.unique {m : Nat} (numeral : Numeral text n) (other : Numeral text m) : n = m := by
  have read := natural?_eq_ok_iff.2 ⟨numeral, Nat.le_max_left n m⟩
  rw [natural?_eq_ok_iff.2 ⟨other, Nat.le_max_right n m⟩] at read
  exact (Except.ok.inj read).symm

theorem natural?_eq_error_iff : natural? limit text = .error refusal ↔ Refuses limit text refusal := by
  constructor
  · fun_cases natural? limit text with
    | case1 =>
      intro refused
      cases refused
      exact .empty
    | case2 =>
      intro refused
      cases refused
      exact .bare
    | case3 rest filled => exact fun refused => .plus ((digits_eq_error_iff (Nat.zero_le limit)).1 refused)
    | case4 _ _ _ signless =>
      exact fun refused => .plain signless ((digits_eq_error_iff (Nat.zero_le limit)).1 refused)
  · intro refuses
    cases refuses with
    | empty => rfl
    | bare => rfl
    | plus stops =>
      rw [natural?]
      · exact (digits_eq_error_iff (Nat.zero_le limit)).2 stops
      · exact stops.ne_nil (Nat.zero_le limit)
    | plain signless stops =>
      rw [natural?]
      · exact (digits_eq_error_iff (Nat.zero_le limit)).2 stops
      · exact stops.ne_nil (Nat.zero_le limit)
      · exact signless []
      · exact signless

/-- Whether a text spells a whole number: one digit at least, after a sign or none. -/
inductive Spelled : List Char → Int → Prop
  | plain {digits : List Char} (filled : digits ≠ []) (all : ∀ c ∈ digits, c.isDigit = true) :
    Spelled digits (Nat.ofDigitChars 10 digits 0)
  | plus {digits : List Char} (filled : digits ≠ []) (all : ∀ c ∈ digits, c.isDigit = true) :
    Spelled ('+' :: digits) (Nat.ofDigitChars 10 digits 0)
  | minus {digits : List Char} (filled : digits ≠ []) (all : ∀ c ∈ digits, c.isDigit = true) :
    Spelled ('-' :: digits) (-Nat.ofDigitChars 10 digits 0)

variable {f : Nat → Int} {v : Int}

private theorem map_digits_eq_ok_iff : (digits limit excess 0 text).map f = .ok v ↔
    (∀ c ∈ text, c.isDigit = true) ∧ f (Nat.ofDigitChars 10 text 0) = v ∧ Nat.ofDigitChars 10 text 0 ≤ limit := by
  cases read : digits limit excess 0 text with
  | error refusal =>
    constructor
    · intro same
      cases same
    · rintro ⟨all, _, least⟩
      rw [(digits_eq_ok_iff (Nat.zero_le limit)).2 ⟨all, rfl, least⟩] at read
      cases read
  | ok n =>
    obtain ⟨all, rfl, least⟩ := (digits_eq_ok_iff (Nat.zero_le limit)).1 read
    constructor
    · intro same
      exact ⟨all, Except.ok.inj same, least⟩
    · rintro ⟨_, rfl, _⟩
      rfl

/-- A text is read as a word if it spells it. -/
theorem int64?_eq_ok_iff : int64? text = .ok v ↔ Spelled text v ∧ IsInt64 v := by
  have high : maxInt64 = 9223372036854775807 := rfl
  have low : minInt64 = -9223372036854775808 := rfl
  constructor
  · fun_cases int64? text with
    | case4 rest filled =>
      intro read
      obtain ⟨all, rfl, least⟩ := map_digits_eq_ok_iff.1 read
      refine ⟨.plus filled all, ?_, ?_⟩
      all_goals
        simp only [Int.ofNat_eq_natCast]
        omega
    | case5 rest filled =>
      intro read
      obtain ⟨all, rfl, least⟩ := map_digits_eq_ok_iff.1 read
      refine ⟨.minus filled all, ?_, ?_⟩
      all_goals
        simp only [Int.ofNat_eq_natCast]
        omega
    | case6 _ filled =>
      intro read
      obtain ⟨all, rfl, least⟩ := map_digits_eq_ok_iff.1 read
      refine ⟨.plain filled all, ?_, ?_⟩
      all_goals
        simp only [Int.ofNat_eq_natCast]
        omega
    | _ => nofun
  · rintro ⟨spelled, least, most⟩
    cases spelled with
    | plain filled all =>
      have mark : ∀ {c : Char}, c.isDigit = false → ∀ rest, text ≠ c :: rest := by
        rintro c other rest rfl
        rw [all c List.mem_cons_self] at other
        cases other
      rw [int64?]
      · rw [map_digits_eq_ok_iff]
        refine ⟨all, rfl, ?_⟩
        omega
      · exact filled
      · exact mark rfl []
      · exact mark rfl []
      · exact mark rfl
      · exact mark rfl
    | @plus digits filled all =>
      rw [int64?]
      · rw [map_digits_eq_ok_iff]
        refine ⟨all, rfl, ?_⟩
        omega
      · exact filled
    | @minus digits filled all =>
      rw [int64?]
      · rw [map_digits_eq_ok_iff]
        refine ⟨all, rfl, ?_⟩
        omega
      · exact filled

/-- The written form of a number spells it. -/
theorem spelled_toString (v : Int) : Spelled (toString v).toList v := by
  have filled (n : Nat) : Nat.toDigits 10 n ≠ [] := Nat.toDigits_ne_nil
  have all (n : Nat) : ∀ c ∈ Nat.toDigits 10 n, c.isDigit = true := fun c mem =>
    Nat.isDigit_of_mem_toDigits (by decide) (by decide) mem
  rw [Int.toString_eq_repr, Int.repr_eq_if]
  by_cases negative : v < 0
  · have spelled := Spelled.minus (filled (-v).toNat) (all _)
    have value : -((-v).toNat : Int) = v := by omega
    rw [Nat.ofDigitChars_ten_toDigits, value] at spelled
    rw [if_neg (Int.not_le.2 negative), String.toList_append, Nat.toList_repr]
    exact spelled
  · have spelled := Spelled.plain (filled v.toNat) (all _)
    have value : (v.toNat : Int) = v := by omega
    rw [Nat.ofDigitChars_ten_toDigits, value] at spelled
    rw [if_pos (Int.not_lt.1 negative), Nat.toList_repr]
    exact spelled

theorem int64?_toString (word : IsInt64 v) : int64? (toString v).toList = .ok v :=
  int64?_eq_ok_iff.2 ⟨spelled_toString v, word⟩

end Vetting.Decimal
