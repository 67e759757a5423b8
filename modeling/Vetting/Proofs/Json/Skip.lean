import Vetting.Proofs.Json.Tree

/-!
Values that nobody wants. What is read as a string is passed over to the same place
(`skipTextBody_of_unescape`), and so is every written value that holds no others (`skips_scalar`). So an
object whose members are all unknown gives what a record stands for of which nothing was found
(`readObject_unknown`).
-/
namespace Vetting.Json

/-- A string is passed over as far as it is read. -/
theorem skipTextBody_of_unescape {done s bytes rest : List UInt8}
    (read : unescape done s = .ok (bytes, rest)) : skipTextBody s = .ok rest := by
  fun_induction unescape done s with
  | case2 done rest =>
    cases read
    rw [skipTextBody.eq_def]
    simp
  | case9 done p q r t n value _ _ p' q' r' t' rest m other _ c notQuote ih =>
    -- Of a pair of surrogates each half is passed over by itself.
    have second : skipTextBody (92 :: 117 :: p' :: q' :: r' :: t' :: rest) = skipTextBody rest := by
      rw [skipTextBody.eq_def]
      simp [other]
    rw [skipTextBody.eq_def]
    simp [value, second, ih read]
  | case14 done p q r t rest n value _ _ notQuote ih =>
    rw [skipTextBody.eq_def]
    simp [value, ih read]
  | case16 done e rest notHex b known notQuote ih =>
    rw [skipTextBody.eq_def]
    simp [notHex, known, ih read]
  | case19 done b rest notQuote notEscape printed ih =>
    rw [skipTextBody.eq_def]
    simp [notQuote, notEscape, printed, ih read]
  | _ => cases read

private theorem skipTextBody_written (text : String) (rest : Input) :
    skipTextBody (text.toList.flatMap escape ++ 34 :: rest) = .ok rest :=
  skipTextBody_of_unescape (unescape_written [] rest text.toList)

private theorem Ends.skipNumberEnd {rest : Input} (ends : Ends rest) : skipNumberEnd rest = .ok rest := by
  cases rest with
  | nil => rfl
  | cons b rest => rcases ends b rfl with rfl | rfl | rfl <;> rfl

private theorem dropDigits_digits {rest : Input} (ends : digitNext rest = false) {digits : List Char}
    (all : ∀ c ∈ digits, c.isDigit = true) : dropDigits (digits.map byteOf ++ rest) = rest := by
  induction digits with
  | nil =>
    cases rest with
    | nil => rfl
    | cons b rest =>
      have other : isDigit b = false := ends
      simp [dropDigits, other]
  | cons c digits ih =>
    have digit := isDigit_byteOf (all c List.mem_cons_self)
    have left := ih fun d mem => all d (List.mem_cons_of_mem c mem)
    rw [dropDigits] at left
    rw [dropDigits, List.map_cons, List.cons_append, List.dropWhile_cons_of_pos digit, left]

/-- The digits of a number are passed over, whatever its size, and so is a sign before them. -/
theorem skipNumber_digits {rest : Input} (ends : Ends rest) (n : Nat) :
    skipNumber ((Nat.toDigits 10 n).map byteOf ++ rest) = .ok rest ∧
      skipNumber (45 :: (Nat.toDigits 10 n).map byteOf ++ rest) = .ok rest := by
  obtain ⟨c, digits, spelled, digit⟩ := exists_digits n
  have all : ∀ d ∈ digits, d.isDigit = true := by
    intro d mem
    refine Nat.isDigit_of_mem_toDigits (b := 10) (n := n) (by decide) (by decide) ?_
    rw [spelled]
    exact List.mem_cons_of_mem c mem
  have left := dropDigits_digits ends.digitNext all
  have mark := isDigit_byteOf digit
  -- A leading zero is the whole number.
  have alone : byteOf c = 48 → digits = [] := by
    intro leads
    by_cases zero : n = 0
    · subst zero
      exact (List.cons.inj spelled).2.symm
    · obtain ⟨first, more, also, other⟩ := exists_leading (Nat.pos_of_ne_zero zero)
      have code : c.toNat = '0'.toNat := (toNat_byteOf digit).symm.trans (congrArg UInt8.toNat leads)
      have same : first = c := (List.cons.inj (also.symm.trans spelled)).1
      exact absurd (same.trans (Char.toNat_inj.1 code)) other
  have body : (if byteOf c = 48 then
        if digitNext (digits.map byteOf ++ rest) then
          Except.error (Fault.on .invalidNumber (digits.map byteOf ++ rest))
        else skipNumberEnd (digits.map byteOf ++ rest)
      else if isDigit (byteOf c) then skipNumberEnd (dropDigits (digits.map byteOf ++ rest))
      else .error (.before .invalidNumber (digits.map byteOf ++ rest))) = .ok rest := by
    by_cases leads : byteOf c = 48
    · rw [if_pos leads, alone leads, List.map_nil, List.nil_append, ends.digitNext, if_neg Bool.false_ne_true,
        ends.skipNumberEnd]
    · rw [if_neg leads, if_pos mark, left, ends.skipNumberEnd]
  have unsigned : byteOf c ≠ 45 := by
    intro same
    rw [same] at mark
    exact absurd mark (by decide)
  rw [spelled, List.map_cons, List.cons_append]
  constructor
  · rw [skipNumber]
    · exact body
    · intro more same
      exact unsigned (List.cons.inj same).1
  · exact body

/-- Whether a value is passed over where it is written, whatever value or bracket follows. -/
def Tree.Skips (t : Tree) : Prop := ∀ {rest : Input}, Ends rest → skip (t.write ++ rest) = .ok ((), rest)

/-- A value that one round passes over. -/
theorem skip_of_step {s rest : Input} (passes : skipStep (.value []) s = .ok (.done (), rest)) :
    skip s = .ok ((), rest) := by
  rw [skip, iterate, iterateFor, passes]

/-- A value that holds no others is passed over. -/
theorem skips_scalar {t : Tree} (kept : t.Kept 0) : t.Skips := by
  intro rest ends
  apply skip_of_step
  cases t with
  | null => simp [skipStep, Tree.write, ascii, blanks, isBlank, nullEnd, literal, valueEnded]
  | boolean b =>
    cases b with
    | false => simp [skipStep, Tree.write, ascii, blanks, isBlank, falseEnd, literal, valueEnded]
    | true => simp [skipStep, Tree.write, ascii, blanks, isBlank, trueEnd, literal, valueEnded]
  | text s =>
    rw [Tree.write, writeText_append, skipStep]
    simp [blanks_cons (b := 34) rfl, skipTextBody_written, valueEnded]
  | number n =>
    obtain ⟨b, tail, written, start⟩ := exists_start kept
    have letters : b ≠ 110 ∧ b ≠ 116 ∧ b ≠ 102 ∧ b ≠ 34 := by
      refine ⟨?_, ?_, ?_, ?_⟩
      all_goals
        rintro rfl
        exact absurd start (by decide)
    have passed : skipNumber (ascii n.text ++ rest) = .ok rest := by
      cases n with
      | natural n => exact text_natural n ▸ (skipNumber_digits ends n).1
      | negative n => exact text_negative n ▸ (skipNumber_digits ends n).2
      | decimal minus x => exact kept.elim
    rw [written, List.cons_append] at passed
    rw [Tree.write, written, List.cons_append, skipStep]
    simp [blanks_cons (startsNumber_solid start), letters, start, passed, valueEnded]
  | list items => exact kept.elim
  | object members => exact kept.elim

/-- A draft has no place for a member that its schema does not know. -/
theorem Draft.store_unknown {ε ρ : Type} (take : (field : Field) → Except ε (field.Value × ρ))
    (repeated : String → ε) {name : String} : {schema : Schema} → (draft : Draft schema) →
    name ∉ schema.map Field.name → store take repeated name draft = none
  | [], _, _ => rfl
  | field :: schema, (value, draft), unknown => by
    simp only [List.map_cons, List.mem_cons, not_or] at unknown
    refine (store_cons_of_ne (Ne.symm unknown.1) value draft).trans ?_
    rw [store_unknown take repeated draft unknown.2]
    rfl

namespace Record

variable {schema : Schema} {nesting : Nat}

/-- One round passes over a member that is not known. -/
theorem memberStep_unknown (first : Bool) {name : String} {value : Tree}
    (unknown : name ∉ schema.map Field.name) (skips : value.Skips) (draft : Draft schema)
    (members : List (String × Tree)) (after : Input) :
    memberStep schema nesting (first, draft) (membersText first ((name, value) :: members) ++ after) =
      .ok (.more (false, draft), membersText false members ++ after) := by
  have passed := skips (ends_members members after)
  simp only [memberStep, nextKey_member, textBody_written, colon_next, within, passed,
    Draft.store_unknown _ _ draft unknown]
  rfl

private theorem iterateFor_unknown (draft : Draft schema) (after : Input) (members : List (String × Tree))
    (all : ∀ member ∈ members, member.1 ∉ schema.map Field.name ∧ member.2.Skips) (first : Bool) {rounds : Nat}
    (enough : members.length < rounds) :
    iterateFor (memberStep schema nesting) rounds (first, draft) (membersText first members ++ after) =
      .ok (draft, 125 :: after) := by
  induction members generalizing first rounds with
  | nil =>
    obtain ⟨rounds, rfl⟩ := Nat.exists_eq_add_of_lt enough
    rw [iterateFor, memberStep_end]
  | cons member members ih =>
    obtain ⟨name, value⟩ := member
    obtain ⟨unknown, skips⟩ := all (name, value) List.mem_cons_self
    cases rounds with
    | zero => exact absurd enough (Nat.not_lt_zero _)
    | succ rounds =>
      rw [iterateFor, memberStep_unknown first unknown skips]
      exact ih (fun other mem => all other (List.mem_cons_of_mem _ mem)) false (Nat.lt_of_succ_lt_succ enough)

/-- An object of unknown members is read as the record of which nothing was found. -/
theorem readObject_unknown {record : Record schema} (blank : (Draft.empty schema).complete = .ok record)
    {members : List (String × Tree)}
    (all : ∀ member ∈ members, member.1 ∉ schema.map Field.name ∧ member.2.Skips) (after : Input) :
    readObject schema nesting (membersText true members ++ after) = .ok (record, after) := by
  have rounds : members.length < (membersText true members ++ after).length + 1 := by
    have := length_le_membersText true members
    rw [List.length_append]
    omega
  have passed : iterateFor (memberStep schema nesting) _ (true, Draft.empty schema)
      (membersText true members ++ after) = .ok (Draft.empty schema, 125 :: after) :=
    iterateFor_unknown (Draft.empty schema) after members all true rounds
  rw [readObject, iterate, passed]
  simp [blank, closeObject, blanks_cons (b := 125) rfl]

end Record

end Vetting.Json
