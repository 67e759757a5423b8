import Vetting.Proofs.Json.Codec

/-!
Written texts that break off. Wherever a written string is cut, be it within an escape or between the
bytes of a character, its reader misses the rest (`ended_textBody`), and so does the reader of a record,
whose members are read as they were written up to the cut (`tears_record`). In particular it finds no
other fault first.
-/
namespace Vetting.Json

/-- A text that breaks off before the end of another. -/
def Torn (torn whole : List UInt8) : Prop := ∃ b lost, torn ++ b :: lost = whole

/-- Whether a reader found that its text ended too early. -/
def Ended {α : Type} (outcome : Except Fault α) : Prop :=
  ∃ fault, outcome = .error fault ∧ fault.category = .ended

/-- A value whose written form cannot be torn without notice where `depth` containers may be opened. -/
def Tears {α : Type} (codec : Codec α) (depth : Nat) (a : α) : Prop :=
  ∀ {nesting : Nat} {torn : Input}, depth ≤ nesting → Torn torn (codec.write a) →
    Ended (codec.read nesting torn)

section Torn

variable {torn whole front back : List UInt8}

theorem torn_iff : Torn torn whole ↔ torn <+: whole ∧ torn ≠ whole := by
  constructor
  · rintro ⟨b, lost, rfl⟩
    exact ⟨List.prefix_append _ _, by simp⟩
  · rintro ⟨⟨lost, rfl⟩, shorter⟩
    cases lost with
    | nil => exact absurd (List.append_nil torn).symm shorter
    | cons b lost => exact ⟨b, lost, rfl⟩

private theorem not_torn_nil : ¬ Torn torn [] := by
  rintro ⟨b, lost, same⟩
  simp at same

/-- A torn text breaks off before its first byte or later. -/
theorem torn_cons {b : UInt8} (cut : Torn torn (b :: whole)) :
    torn = [] ∨ ∃ rest, torn = b :: rest ∧ Torn rest whole := by
  obtain ⟨next, lost, same⟩ := cut
  cases torn with
  | nil => exact .inl rfl
  | cons first rest =>
    obtain ⟨rfl, rfl⟩ := List.cons_eq_cons.1 same
    exact .inr ⟨rest, rfl, next, lost, rfl⟩

/-- A torn text breaks off in the first of two parts or in the second. -/
theorem torn_append (cut : Torn torn (front ++ back)) :
    Torn torn front ∨ ∃ rest, torn = front ++ rest ∧ Torn rest back := by
  induction front generalizing torn with
  | nil => exact .inr ⟨torn, rfl, cut⟩
  | cons b front ih =>
    rcases torn_cons cut with rfl | ⟨rest, rfl, left⟩
    · exact .inl ⟨b, front, rfl⟩
    · rcases ih left with ⟨next, lost, rfl⟩ | ⟨rest, rfl, later⟩
      · exact .inl ⟨next, lost, rfl⟩
      · exact .inr ⟨rest, rfl, later⟩

end Torn

namespace Ended

variable {α β : Type} {outcome : Except Fault α}

theorem error {fault : Fault} (ended : fault.category = .ended) : Ended (.error fault : Except Fault α) :=
  ⟨fault, rfl, ended⟩

theorem map {f : α → β} (ended : Ended outcome) : Ended (outcome.map f) := by
  obtain ⟨fault, rfl, ended⟩ := ended
  exact .error ended

private theorem within {reader : Reader α} {step : String} {s : Input} (ended : Ended (reader s)) :
    Ended (within step reader s) := by
  obtain ⟨fault, told, ended⟩ := ended
  rw [Json.within, told]
  exact .error ended

end Ended

private theorem ended_unescape_nil (done : List UInt8) : Ended (unescape done []) := by
  rw [unescape.eq_def]
  exact .error rfl

/-- A character is written as a backslash and a letter, as a backslash and a number, or as it is. -/
theorem escape_cases (c : Char) :
    (∃ e, escape c = [92, e]) ∨ (∃ high low, escape c = [92, 117, 48, 48, high, low]) ∨
      ∀ b ∈ escape c, b ≠ 34 ∧ b ≠ 92 ∧ ¬ b < 32 := by
  unfold escape
  split
  · exact .inl ⟨_, rfl⟩
  split
  · exact .inl ⟨_, rfl⟩
  split
  · exact .inl ⟨_, rfl⟩
  split
  · exact .inl ⟨_, rfl⟩
  split
  · exact .inl ⟨_, rfl⟩
  split
  · exact .inl ⟨_, rfl⟩
  split
  · exact .inl ⟨_, rfl⟩
  split
  · exact .inr (.inl ⟨_, _, rfl⟩)
  · next quote backslash _ _ _ _ _ printed =>
    exact .inr (.inr fun b mem => Utf8.plain_of_mem_encodeChar quote backslash (by omega) mem)

private theorem ended_unescape_escape {c : Char} {torn : Input} (done : List UInt8)
    (cut : Torn torn (escape c)) : Ended (unescape done torn) := by
  have backslash : Ended (unescape done [92]) := by
    rw [unescape.eq_def]
    exact .error rfl
  rcases escape_cases c with ⟨e, written⟩ | ⟨high, low, written⟩ | plain
  · rw [written] at cut
    rcases torn_cons cut with rfl | ⟨letter, rfl, left⟩
    · exact ended_unescape_nil done
    rcases torn_cons left with rfl | ⟨none, rfl, past⟩
    · exact backslash
    · exact absurd past not_torn_nil
  · rw [written] at cut
    rcases torn_cons cut with rfl | ⟨letter, rfl, left⟩
    · exact ended_unescape_nil done
    rcases torn_cons left with rfl | ⟨digits, rfl, short⟩
    · exact backslash
    -- Fewer than four digits are left.
    have few : digits.length < 4 := by
      obtain ⟨b, lost, same⟩ := short
      have count := congrArg List.length same
      simp only [List.length_append, List.length_cons, List.length_nil] at count
      omega
    rw [unescape.eq_def]
    obtain _ | ⟨first, _ | ⟨second, _ | ⟨third, _ | ⟨fourth, more⟩⟩⟩⟩ := digits
    · exact .error rfl
    · exact .error rfl
    · exact .error rfl
    · exact .error rfl
    · simp only [List.length_cons] at few
      omega
  · obtain ⟨b, lost, whole⟩ := cut
    have kept : ∀ b ∈ torn, b ≠ 34 ∧ b ≠ 92 ∧ ¬ b < 32 := by
      intro b mem
      exact plain b (whole ▸ List.mem_append_left _ mem)
    rw [← List.append_nil torn, unescape_plain kept]
    exact ended_unescape_nil _

private theorem ended_unescape {chars : List Char} {torn : Input} (done : List UInt8)
    (cut : Torn torn (chars.flatMap escape ++ [34])) : Ended (unescape done torn) := by
  induction chars generalizing done torn with
  | nil =>
    rcases torn_cons cut with rfl | ⟨rest, rfl, past⟩
    · exact ended_unescape_nil done
    · exact absurd past not_torn_nil
  | cons c chars ih =>
    rw [List.flatMap_cons, List.append_assoc] at cut
    rcases torn_append cut with within | ⟨rest, rfl, later⟩
    · exact ended_unescape_escape done within
    · rw [unescape_escape]
      exact ih _ later

/-- Wherever a written string is cut, its end is missed. -/
theorem ended_textBody {text : String} {torn : Input}
    (cut : Torn torn (text.toList.flatMap escape ++ [34])) : Ended (textBody torn) := by
  obtain ⟨fault, told, ended⟩ := ended_unescape [] cut
  rw [textBody, told]
  exact .error ended

private theorem writeText_eq (text : String) : writeText text = 34 :: (text.toList.flatMap escape ++ [34]) := rfl

private theorem ended_text {wanted text : String} {torn : Input} (cut : Torn torn (writeText text)) :
    Ended (Json.text wanted torn) := by
  rcases torn_cons cut with rfl | ⟨rest, rfl, left⟩
  · exact .error rfl
  · rw [Json.text, blanks_cons (b := 34) rfl]
    exact ended_textBody left

theorem tears_text (depth : Nat) (text : String) : Tears .text depth text :=
  fun _ cut => ended_text cut

theorem tears_parsed {α : Type} {wanted : String} {parse : String → Option α} {print : α → String}
    (depth : Nat) (a : α) : Tears (.parsed wanted parse print) depth a := by
  intro nesting torn _ cut
  obtain ⟨fault, told, ended⟩ : Ended (Json.text wanted torn) := ended_text cut
  simp only [Codec.parsed, told]
  exact .error ended

theorem tears_choice {α : Type} {names : List (String × α)} {print : α → String} (depth : Nat) (a : α) :
    Tears (.choice names print) depth a := by
  intro nesting torn _ cut
  rcases torn_cons cut with rfl | ⟨rest, rfl, left⟩
  · exact .error rfl
  · obtain ⟨fault, told, ended⟩ := ended_textBody left
    simp only [Codec.choice, blanks_cons (b := 34) rfl, told]
    exact .error ended

theorem Tears.map {α β : Type} {codec : Codec α} {f : α → β} {g : β → α} {depth : Nat} {b : β}
    (tears : Tears codec depth (g b)) : Tears (codec.map f g) depth b :=
  fun deep cut => (tears deep cut).map

private theorem Torn.ends {torn whole : Input} (cut : Torn torn whole) (ends : Ends whole) : Ends torn := by
  obtain ⟨b, lost, rfl⟩ := cut
  intro first mem
  cases torn with
  | nil => cases mem
  | cons next rest => exact ends first mem

/-- Where a text breaks off that starts with a member: before its name, in its name, before its colon,
in its value, or later. -/
inductive TornMember (first : Bool) (name : String) (value : Tree) (members : List (String × Tree))
    (torn : Input) : Prop
  | key (ended : Ended (nextKey first torn))
  | name {key : Input} (found : nextKey first torn = .ok (some key)) (ended : Ended (textBody key))
  | colon {key after : Input} (found : nextKey first torn = .ok (some key))
      (named : textBody key = .ok (name, after)) (ended : Ended (colon after))
  | value {key after left : Input} (found : nextKey first torn = .ok (some key))
      (named : textBody key = .ok (name, after)) (passed : colon after = .ok left)
      (cut : Torn left value.write)
  | later {key after left : Input} (found : nextKey first torn = .ok (some key))
      (named : textBody key = .ok (name, after)) (passed : colon after = .ok (value.write ++ left))
      (cut : Torn left (membersText false members))

private theorem ended_nextKey_nil (first : Bool) : Ended (nextKey first []) := .error rfl

private theorem torn_member {first : Bool} {name : String} {value : Tree} {members : List (String × Tree)}
    {torn : Input} (cut : Torn torn (membersText first ((name, value) :: members))) :
    TornMember first name value members torn := by
  -- What remains once the quote is found at which the name starts.
  have inside : ∀ {key : Input}, nextKey first torn = .ok (some key) →
      Torn key ((name.toList.flatMap escape ++ [34]) ++
        58 :: (value.write ++ membersText false members)) →
      TornMember first name value members torn := by
    intro key found left
    rcases torn_append left with within | ⟨after, rfl, behind⟩
    · exact .name found (ended_textBody within)
    have named : textBody (name.toList.flatMap escape ++ [34] ++ after) = .ok (name, after) := by
      rw [List.append_assoc]
      exact textBody_written name after
    rcases torn_cons behind with rfl | ⟨rest, rfl, beyond⟩
    · exact .colon found named (.error rfl)
    rcases torn_append beyond with within | ⟨later, rfl, further⟩
    · exact .value found named (colon_next rest) within
    · exact .later found named (colon_next _) further
  rw [membersText_false] at inside
  simp only [membersText, writeText_eq, List.cons_append] at cut
  cases first with
  | true =>
    rcases torn_cons cut with rfl | ⟨key, rfl, left⟩
    · exact .key (ended_nextKey_nil true)
    · refine inside ?_ left
      simp [nextKey, blanks_cons (b := 34) rfl]
  | false =>
    rcases torn_cons cut with rfl | ⟨quote, rfl, behind⟩
    · exact .key (ended_nextKey_nil false)
    rcases torn_cons behind with rfl | ⟨key, rfl, left⟩
    · exact .key (.error rfl)
    · refine inside ?_ left
      simp [nextKey, blanks_cons (b := 34) rfl, blanks_cons (b := 44) rfl]

private theorem ended_iterateFor {σ β : Type} {step : σ → Reader (Round σ β)} {state : σ} {torn : Input}
    (ended : Ended (step state torn)) (rounds : Nat) : Ended (iterateFor step rounds state torn) := by
  cases rounds with
  | zero => exact .error rfl
  | succ rounds =>
    obtain ⟨fault, told, ended⟩ := ended
    rw [iterateFor, told]
    exact .error ended

/-- Rounds that take the member of one name: they look for a key, read it, pass over the colon and read
the value. -/
structure TakesMember {σ β γ : Type} (step : σ → Reader (Round σ β)) (first : Bool) (state : σ)
    (name : String) (reader : Reader γ) (next : γ → σ) : Prop where
  keyless : ∀ {s : Input} {fault : Fault}, nextKey first s = .error fault → step state s = .error fault
  nameless : ∀ {s key : Input} {fault : Fault}, nextKey first s = .ok (some key) →
    textBody key = .error fault → step state s = .error fault
  taken : ∀ {s key after : Input}, nextKey first s = .ok (some key) → textBody key = .ok (name, after) →
    step state s =
      (match colon after with
        | .error fault => Except.error fault
        | .ok value => reader value).map fun (c, left) => (.more (next c), left)

/-- A text that breaks off is missed at the cut, if it is missed there in the value of the first member
and in the members after it. -/
theorem TakesMember.ended {σ β γ : Type} {step : σ → Reader (Round σ β)} {first : Bool} {state : σ}
    {name : String} {reader : Reader γ} {next : γ → σ} {value : Tree} {c : γ}
    {members : List (String × Tree)} {torn : Input}
    (takes : TakesMember step first state name reader next)
    (tears : ∀ left, Torn left value.write → Ended (reader left))
    (reads : ∀ left, Ends left → reader (value.write ++ left) = .ok (c, left))
    (later : ∀ rounds left, Torn left (membersText false members) →
      Ended (iterateFor step rounds (next c) left))
    (rounds : Nat) (cut : Torn torn (membersText first ((name, value) :: members))) :
    Ended (iterateFor step rounds state torn) := by
  cases torn_member cut with
  | key ended =>
    obtain ⟨fault, told, ended⟩ := ended
    exact ended_iterateFor ⟨fault, takes.keyless told, ended⟩ rounds
  | name found ended =>
    obtain ⟨fault, told, ended⟩ := ended
    exact ended_iterateFor ⟨fault, takes.nameless found told, ended⟩ rounds
  | colon found named ended =>
    refine ended_iterateFor ?_ rounds
    obtain ⟨fault, told, ended⟩ := ended
    rw [takes.taken found named, told]
    exact .error ended
  | value found named passed cut =>
    refine ended_iterateFor ?_ rounds
    rw [takes.taken found named, passed]
    exact (tears _ cut).map
  | @later key after left found named passed cut =>
    cases rounds with
    | zero => exact .error rfl
    | succ rounds =>
      have ends : Ends left := by
        refine cut.ends ?_
        rw [← List.append_nil (membersText false members)]
        exact ends_members members []
      rw [iterateFor, takes.taken found named, passed]
      simp only [reads left ends, Except.map]
      exact later rounds left cut

/-- A text that breaks off where its object should end is missed there. -/
theorem ended_end {σ β : Type} {step : σ → Reader (Round σ β)} {first : Bool} {state : σ} {torn : Input}
    (key : ∀ {s fault}, nextKey first s = .error fault → step state s = .error fault)
    (rounds : Nat) (cut : Torn torn (membersText first [])) : Ended (iterateFor step rounds state torn) := by
  refine ended_iterateFor ?_ rounds
  rcases torn_cons cut with rfl | ⟨rest, rfl, past⟩
  · obtain ⟨fault, told, ended⟩ := ended_nextKey_nil first
    exact ⟨fault, key told, ended⟩
  · exact absurd past not_torn_nil

namespace Record

variable {schema : Schema} {nesting depth : Nat}

/-- Whether the members of a record read back and tear with notice. -/
def Firm (depth : Nat) (record : Record schema) : Prop :=
  record.All fun field a => ReadsBack field.codec depth a ∧ Tears field.codec depth a

private theorem memberStep_key {first : Bool} {draft : Draft schema} {s : Input} {fault : Fault}
    (told : nextKey first s = .error fault) :
    memberStep schema nesting (first, draft) s = .error fault := by
  rw [memberStep, told]

private theorem takesMember {field : Field} {rest : Schema} {embed : Draft (field :: rest) → Draft schema}
    (passes : Draft.Passes embed) (first : Bool) (draft : Draft rest) :
    TakesMember (memberStep schema nesting) first (first, embed (.cons none draft)) field.name
      (within field.name (field.codec.read nesting)) fun a => (false, embed (.cons (some a) draft)) where
  keyless := memberStep_key
  nameless found told := by simp only [memberStep, found, told]
  taken found named := memberStep_eq passes found named draft

/-- The members up to the cut are taken into their places, and the one at the cut is missed. -/
theorem ended_members (deep : depth ≤ nesting) :
    (rest : Schema) → (record : Record rest) → {embed : Draft rest → Draft schema} →
    Draft.Passes embed → (rest.map Field.name).Nodup → record.Firm depth → (first : Bool) →
    (rounds : Nat) → {torn : Input} → Torn torn (membersText first record.toMembers) →
    Ended (iterateFor (memberStep schema nesting) rounds (first, embed (Draft.empty rest)) torn)
  | [], (), embed, _, _, _, first, rounds, torn, cut => ended_end memberStep_key rounds cut
  | field :: rest, (a, record), embed, passes, distinct, firm, first, rounds, torn, cut => by
    simp only [List.map_cons, List.nodup_cons] at distinct
    obtain ⟨⟨back, tears⟩, firm⟩ := firm
    have takes : TakesMember (memberStep schema nesting) first _ _ _ _ :=
      takesMember passes first (.empty rest)
    refine takes.ended (c := a) (fun left cut => (tears deep cut).within) ?_ ?_ rounds cut
    · intro left ends
      have read := back deep ends
      rw [Codec.write] at read
      rw [within, read]
      rfl
    · intro rounds left cut
      exact ended_members deep rest record (passes.tail (some a) distinct.1) distinct.2 firm false rounds cut

private theorem ended_readObject {record : Record schema} (distinct : (schema.map Field.name).Nodup)
    (firm : record.Firm depth) (deep : depth ≤ nesting) {torn : Input}
    (cut : Torn torn (membersText true record.toMembers)) : Ended (readObject schema nesting torn) := by
  obtain ⟨fault, told, ended⟩ := ended_members deep schema record (Draft.passes_id schema) distinct firm
    true (torn.length + 1) cut
  rw [readObject, iterate, told]
  exact .error ended

end Record

theorem tears_record {type : String} {schema : Schema} {depth : Nat} {record : Record schema}
    (distinct : (schema.map Field.name).Nodup) (firm : record.Firm depth) :
    Tears (.record type schema) (depth + 1) record := by
  intro nesting torn deep cut
  obtain ⟨nesting, rfl⟩ := Nat.exists_eq_add_of_lt (show 0 < nesting by omega)
  simp only [Codec.write, Codec.record, write_object] at cut
  simp only [Codec.record]
  rcases torn_cons cut with rfl | ⟨members, rfl, left⟩
  · rw [Record.read.eq_def]
    exact .error rfl
  · rw [Record.read.eq_def]
    simp only [blanks_cons (b := 123) rfl, Nat.zero_add]
    exact Record.ended_readObject distinct firm (by omega) left

end Vetting.Json
