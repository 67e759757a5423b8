import Vetting.Text

/-!
The URL-safe base-64 text of bytes and its reading undo each other (`decode_eq_some_iff`): no two texts
stand for the same bytes, and only the alphabet occurs in a text that is read.
-/
namespace Vetting.Base64Url

private theorem value?_symbol : ∀ n : Fin 64, value? (symbol n) = some n.val := by decide

private theorem value?_symbol_of_lt {n : Nat} (small : n < 64) :
    value? (symbol n) = some n := value?_symbol ⟨n, small⟩

private theorem symbol_of_value? {c : Char} {n : Nat} (read : value? c = some n) :
    n < 64 ∧ symbol n = c := by
  have back := Char.ofNat_toNat c
  simp only [value?] at read
  split at read
  · next upper =>
    cases read
    constructor
    · omega
    · rw [symbol, if_pos (by omega), show 65 + (c.toNat - 65) = c.toNat by omega, back]
  split at read
  · next lower =>
    cases read
    constructor
    · omega
    · rw [symbol, if_neg (by omega), if_pos (by omega), show 71 + (c.toNat - 71) = c.toNat by omega, back]
  split at read
  · next digit =>
    cases read
    constructor
    · omega
    · rw [symbol, if_neg (by omega), if_neg (by omega), if_pos (by omega), show c.toNat + 4 - 4 = c.toNat by omega,
        back]
  split at read
  · next dash =>
    cases read
    exact ⟨by decide, dash.symm⟩
  split at read
  · next line =>
    cases read
    exact ⟨by decide, line.symm⟩
  · cases read

/-- Bytes are read back from their text. -/
@[simp] theorem decode_encode (bytes : List UInt8) : decode (encode bytes) = some bytes := by
  fun_induction encode bytes with
  | case1 => rfl
  | case2 a =>
    have := a.toNat_lt
    have whole : a.toNat / 4 * 4 + a.toNat % 4 * 16 / 16 = a.toNat := by omega
    have clean : a.toNat % 4 * 16 % 16 = 0 := by omega
    simp (disch := omega) only [decode, value?_symbol_of_lt, whole, clean, if_true, UInt8.ofNat_toNat]
  | case3 a b =>
    have := a.toNat_lt
    have := b.toNat_lt
    have first : a.toNat / 4 * 4 + (a.toNat % 4 * 16 + b.toNat / 16) / 16 = a.toNat := by omega
    have second : (a.toNat % 4 * 16 + b.toNat / 16) % 16 * 16 + b.toNat % 16 * 4 / 4 = b.toNat := by omega
    have clean : b.toNat % 16 * 4 % 4 = 0 := by omega
    simp (disch := omega) only [decode, value?_symbol_of_lt, first, second, clean, if_true, UInt8.ofNat_toNat]
  | case4 a b c rest ih =>
    have := a.toNat_lt
    have := b.toNat_lt
    have := c.toNat_lt
    have first : a.toNat / 4 * 4 + (a.toNat % 4 * 16 + b.toNat / 16) / 16 = a.toNat := by omega
    have second : (a.toNat % 4 * 16 + b.toNat / 16) % 16 * 16 + (b.toNat % 16 * 4 + c.toNat / 64) / 4 =
        b.toNat := by omega
    have third : (b.toNat % 16 * 4 + c.toNat / 64) % 4 * 64 + c.toNat % 64 = c.toNat := by omega
    simp (disch := omega) only [decode, value?_symbol_of_lt, ih, first, second, third, UInt8.ofNat_toNat]

/-- A text that is read is what writing produces. -/
theorem encode_of_decode {text : List Char} {bytes : List UInt8} (read : decode text = some bytes) :
    encode bytes = text := by
  have size : UInt8.size = 256 := rfl
  fun_induction decode text generalizing bytes with
  | case1 =>
    cases read
    rfl
  | case3 c d p q hq hp clean =>
    cases read
    obtain ⟨_, rfl⟩ := symbol_of_value? hp
    obtain ⟨_, rfl⟩ := symbol_of_value? hq
    rw [encode, UInt8.toNat_ofNat_of_lt' (by omega)]
    congr 3
    · omega
    · omega
  | case6 c d e p q r hr hq hp clean =>
    cases read
    obtain ⟨_, rfl⟩ := symbol_of_value? hp
    obtain ⟨_, rfl⟩ := symbol_of_value? hq
    obtain ⟨_, rfl⟩ := symbol_of_value? hr
    rw [encode, UInt8.toNat_ofNat_of_lt' (by omega), UInt8.toNat_ofNat_of_lt' (by omega)]
    congr 3
    · omega
    · omega
    · congr 1
      omega
  | case9 c d e f rest p q r s bytes others hs hr hq hp ih =>
    cases read
    obtain ⟨_, rfl⟩ := symbol_of_value? hp
    obtain ⟨_, rfl⟩ := symbol_of_value? hq
    obtain ⟨_, rfl⟩ := symbol_of_value? hr
    obtain ⟨_, rfl⟩ := symbol_of_value? hs
    rw [encode, UInt8.toNat_ofNat_of_lt' (by omega), UInt8.toNat_ofNat_of_lt' (by omega),
      UInt8.toNat_ofNat_of_lt' (by omega), ih others]
    congr 3
    · omega
    · omega
    · congr 1
      omega
    · congr 2
      omega
  | _ => cases read

/-- Reading is the exact inverse of writing. -/
theorem decode_eq_some_iff {text : List Char} {bytes : List UInt8} :
    decode text = some bytes ↔ text = encode bytes := by
  constructor
  · intro read
    exact (encode_of_decode read).symm
  · rintro rfl
    exact decode_encode bytes

/-- What is true of the alphabet is true of every character of a text. -/
theorem forall_mem_encode {P : Char → Prop} (all : ∀ n < 64, P (symbol n)) (bytes : List UInt8) :
    ∀ c ∈ encode bytes, P c := by
  fun_induction encode bytes with
  | case1 => exact fun c mem => absurd mem List.not_mem_nil
  | case2 a =>
    have := a.toNat_lt
    rw [List.forall_mem_cons, List.forall_mem_singleton]
    exact ⟨all _ (by omega), all _ (by omega)⟩
  | case3 a b =>
    have := a.toNat_lt
    have := b.toNat_lt
    rw [List.forall_mem_cons, List.forall_mem_cons, List.forall_mem_singleton]
    exact ⟨all _ (by omega), all _ (by omega), all _ (by omega)⟩
  | case4 a b c rest ih =>
    have := a.toNat_lt
    have := b.toNat_lt
    have := c.toNat_lt
    rw [List.forall_mem_cons, List.forall_mem_cons, List.forall_mem_cons, List.forall_mem_cons]
    exact ⟨all _ (by omega), all _ (by omega), all _ (by omega), all _ (by omega), ih⟩

/-- The alphabet lies between the blanks and the end of ASCII, and has no point. -/
theorem symbol_printed :
    ∀ n : Fin 64, 32 < (symbol n).toNat ∧ (symbol n).toNat < 127 ∧ symbol n ≠ '.' := by decide

/-- A point stands in no text of bytes, so it can part them. -/
theorem point_not_mem_encode (bytes : List UInt8) : '.' ∉ encode bytes := by
  have others : ∀ c ∈ encode bytes, c ≠ '.' :=
    forall_mem_encode (fun n small => (symbol_printed ⟨n, small⟩).2.2) bytes
  intro mem
  exact others '.' mem rfl

end Vetting.Base64Url
