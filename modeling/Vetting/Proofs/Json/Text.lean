import Mathlib
import Vetting.Json.Reader

/-!
Texts read back as they were written, whatever follows them: the bytes of a character stand for it
alone (`read_encode`), every escape is undone (`unescape_escape`), and so the reader of a string gives
the text and stops after the closing quote (`textBody_written`).
-/
namespace Vetting

namespace Utf8

/-- The bytes of the character with a number: one byte for a number below 128, else a lead byte that
tells how many bytes there are, and bytes of six bits each. -/
inductive Encoding (n : Nat) : List UInt8 → Prop
  | one {a : UInt8} : n < 128 → a.toNat = n → Encoding n [a]
  | two {a b : UInt8} : 128 ≤ n → a.toNat = n / 64 + 192 → a.toNat < 224 → b.toNat = n % 64 + 128 →
      Encoding n [a, b]
  | three {a b c : UInt8} : 128 ≤ n → a.toNat = n / 4096 + 224 → a.toNat < 240 →
      b.toNat = n / 64 % 64 + 128 → c.toNat = n % 64 + 128 → Encoding n [a, b, c]
  | four {a b c d : UInt8} : 128 ≤ n → a.toNat = n / 262144 + 240 → a.toNat < 248 →
      b.toNat = n / 4096 % 64 + 128 → c.toNat = n / 64 % 64 + 128 → d.toNat = n % 64 + 128 →
      Encoding n [a, b, c, d]

private theorem encoding (c : Char) : Encoding c.toNat (String.utf8EncodeChar c) := by
  have bound : c.toNat < 1114112 := by
    have valid := c.valid
    simp only [UInt32.isValidChar, Nat.isValidChar] at valid
    show c.val.toNat < _
    omega
  have value : c.val.toNat = c.toNat := rfl
  unfold String.utf8EncodeChar
  simp only [value]
  split
  · refine .one (by omega) ?_
    simp; omega
  split
  · refine .two (by omega) ?_ ?_ ?_
    all_goals simp; omega
  split
  · refine .three (by omega) ?_ ?_ ?_ ?_
    all_goals simp; omega
  · refine .four (by omega) ?_ ?_ ?_ ?_ ?_
    all_goals simp; omega

private theorem codePoint_eq {n : Nat} {bytes : List UInt8} (encoded : Encoding n bytes) :
    codePoint bytes = n := by
  cases encoded <;> simp only [codePoint] <;> omega

@[simp] theorem char?_encode (c : Char) : char? (String.utf8EncodeChar c) = some c := by
  simp [char?, codePoint_eq (encoding c), Char.ofNat_toNat]

private theorem readAfter_encodeChar (done : List Char) (c : Char) (rest : List UInt8) :
    readAfter done (String.utf8EncodeChar c ++ rest) = readAfter (c :: done) rest := by
  have back := char?_encode c
  have bytes := encoding c
  generalize String.utf8EncodeChar c = encoded at back bytes
  cases bytes with
  | @one a low lead =>
    have short : a < 0x80 := by simp only [UInt8.lt_iff_toNat_lt, UInt8.reduceToNat]; omega
    rw [List.singleton_append, readAfter.eq_def]
    simp only [short, ↓reduceIte, back]
  | @two a b high lead bound _ =>
    have long : ¬ a < 0x80 := by simp only [UInt8.lt_iff_toNat_lt, UInt8.reduceToNat]; omega
    have pair : a < 0xE0 := by simp only [UInt8.lt_iff_toNat_lt, UInt8.reduceToNat]; omega
    simp only [List.cons_append, List.nil_append]
    rw [readAfter]
    simp only [long, pair, ↓reduceIte, back]
  | @three a b d high lead bound _ _ =>
    have long : ¬ a < 0x80 := by simp only [UInt8.lt_iff_toNat_lt, UInt8.reduceToNat]; omega
    have more : ¬ a < 0xE0 := by simp only [UInt8.lt_iff_toNat_lt, UInt8.reduceToNat]; omega
    have triple : a < 0xF0 := by simp only [UInt8.lt_iff_toNat_lt, UInt8.reduceToNat]; omega
    simp only [List.cons_append, List.nil_append]
    rw [readAfter]
    simp only [long, more, triple, ↓reduceIte, back]
  | @four a b d e high lead bound _ _ _ =>
    have long : ¬ a < 0x80 := by simp only [UInt8.lt_iff_toNat_lt, UInt8.reduceToNat]; omega
    have more : ¬ a < 0xE0 := by simp only [UInt8.lt_iff_toNat_lt, UInt8.reduceToNat]; omega
    have most : ¬ a < 0xF0 := by simp only [UInt8.lt_iff_toNat_lt, UInt8.reduceToNat]; omega
    simp only [List.cons_append, List.nil_append]
    rw [readAfter]
    simp only [long, more, most, ↓reduceIte, back]

@[simp] theorem readAfter_encode (done chars : List Char) :
    readAfter done (chars.flatMap String.utf8EncodeChar) = .ok (done.reverse ++ chars) := by
  induction chars generalizing done with
  | nil => simp [readAfter]
  | cons c chars ih => rw [List.flatMap_cons, readAfter_encodeChar, ih]; simp

@[simp] theorem read_encode (text : String) :
    read (text.toList.flatMap String.utf8EncodeChar) = .ok text := by
  rw [read, readAfter_encode]
  simp [Except.map]

theorem encode_injective {text other : String} (same : encode text = encode other) : text = other := by
  have read : (.ok text : Except Nat String) = .ok other := by
    rw [← read_encode text, ← read_encode other]
    exact congrArg Utf8.read same
  injection read

/-- The bytes of a character that is no quote, no backslash and no control character need no escape. -/
theorem plain_of_mem_encodeChar {c : Char} {b : UInt8} (quote : c ≠ '"') (backslash : c ≠ '\\')
    (printed : 32 ≤ c.toNat) (mem : b ∈ String.utf8EncodeChar c) : b ≠ 34 ∧ b ≠ 92 ∧ ¬ b < 32 := by
  have notQuote : c.toNat ≠ 34 := fun same => quote (Char.toNat_inj.1 same)
  have notBackslash : c.toNat ≠ 92 := fun same => backslash (Char.toNat_inj.1 same)
  have bytes := encoding c
  generalize String.utf8EncodeChar c = encoded at bytes mem
  rw [← UInt8.toNat_inj.ne, ← UInt8.toNat_inj.ne, UInt8.lt_iff_toNat_lt]
  simp only [UInt8.reduceToNat]
  cases bytes <;> simp only [List.mem_cons, List.not_mem_nil, or_false] at mem
  · subst mem; omega
  · rcases mem with rfl | rfl <;> omega
  · rcases mem with rfl | rfl | rfl <;> omega
  · rcases mem with rfl | rfl | rfl | rfl <;> omega

end Utf8

namespace Json

theorem unescape_plain {done rest : List UInt8} {bytes : List UInt8}
    (plain : ∀ b ∈ bytes, b ≠ 34 ∧ b ≠ 92 ∧ ¬ b < 32) :
    unescape done (bytes ++ rest) = unescape (bytes.reverse ++ done) rest := by
  induction bytes generalizing done with
  | nil => rfl
  | cons b bytes ih =>
    obtain ⟨quote, backslash, printed⟩ := plain b (by simp)
    rw [List.cons_append, unescape.eq_def]
    simp only [quote, backslash, printed, ↓reduceIte]
    rw [ih fun b mem => plain b (by simp [mem])]
    simp

private theorem unescape_simple {done rest : List UInt8} {e b : UInt8} (letter : e ≠ 117)
    (known : simpleEscape? e = some b) :
    unescape done (92 :: e :: rest) = unescape (b :: done) rest := by
  rw [unescape.eq_def]
  simp [letter, known]

private theorem unescape_hex {done rest : List UInt8} {p q r t : UInt8} {n : Nat}
    (value : hex? p q r t = some n) (low : n < 32) :
    unescape done (92 :: 117 :: p :: q :: r :: t :: rest) =
      unescape ((String.utf8EncodeChar (Char.ofNat n)).reverse ++ done) rest := by
  have trailing : isTrailing n = false := by simp only [isTrailing, Bool.and_eq_false_iff]; simp; omega
  have leading : isLeading n = false := by simp only [isLeading, Bool.and_eq_false_iff]; simp; omega
  rw [unescape.eq_def]
  simp [value, trailing, leading]

private theorem hex?_digits : ∀ n : Fin 32,
    hex? 48 48 (UInt8.ofNat (Hex.digit ((UInt8.ofNat n).toNat / 16)).toNat)
      (UInt8.ofNat (Hex.digit ((UInt8.ofNat n).toNat % 16)).toNat) = some n.val := by
  decide

@[simp] theorem unescape_escape (done rest : List UInt8) (c : Char) :
    unescape done (escape c ++ rest) = unescape ((String.utf8EncodeChar c).reverse ++ done) rest := by
  have short : ∀ {n : Nat} {e : UInt8}, c.toNat = n → e ≠ 117 →
      simpleEscape? e = some (UInt8.ofNat n) → String.utf8EncodeChar (Char.ofNat n) = [UInt8.ofNat n] →
      unescape done ([92, e] ++ rest) = unescape ((String.utf8EncodeChar c).reverse ++ done) rest := by
    intro n e number letter known byte
    rw [← Char.ofNat_toNat c, number, byte]
    exact unescape_simple letter known
  unfold escape
  split
  · next same => exact short (congrArg Char.toNat same) (by decide) (by decide) (by decide)
  split
  · next same => exact short (congrArg Char.toNat same) (by decide) (by decide) (by decide)
  split
  · next number => exact short number (by decide) (by decide) (by decide)
  split
  · next number => exact short number (by decide) (by decide) (by decide)
  split
  · next number => exact short number (by decide) (by decide) (by decide)
  split
  · next number => exact short number (by decide) (by decide) (by decide)
  split
  · next number => exact short number (by decide) (by decide) (by decide)
  split
  · next low =>
    have digits := hex?_digits ⟨c.toNat, low⟩
    exact (unescape_hex digits low).trans (by rw [Char.ofNat_toNat]; rfl)
  · next quote backslash _ _ _ _ _ printed =>
    exact unescape_plain fun b mem => Utf8.plain_of_mem_encodeChar quote backslash (by omega) mem

@[simp] theorem unescape_written (done rest : List UInt8) (chars : List Char) :
    unescape done (chars.flatMap escape ++ 34 :: rest) =
      .ok (done.reverse ++ chars.flatMap String.utf8EncodeChar, rest) := by
  induction chars generalizing done with
  | nil => rw [List.flatMap_nil, List.nil_append, unescape.eq_def]; simp
  | cons c chars ih =>
    rw [List.flatMap_cons, List.append_assoc, unescape_escape, ih]
    simp

/-- A written text reads back, and the reader stops after its quote. -/
@[simp] theorem textBody_written (text : String) (rest : Input) :
    textBody (text.toList.flatMap escape ++ 34 :: rest) = .ok (text, rest) := by
  rw [textBody, unescape_written]
  simp

@[simp] theorem writeText_append (text : String) (rest : Input) :
    writeText text ++ rest = 34 :: (text.toList.flatMap escape ++ 34 :: rest) := by
  simp [writeText]

@[simp] theorem text_written (wanted text : String) (rest : Input) :
    Json.text wanted (writeText text ++ rest) = .ok (text, rest) := by
  rw [writeText_append, Json.text]
  simp [blanks, isBlank]

end Json

end Vetting
