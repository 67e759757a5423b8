import Vetting.Json.Record
import Vetting.Proofs.Json.Text

/-!
Values that read back from the text that is written for them, whatever value or bracket follows
(`ReadsBack`). Scalars do by their own laws, and a record does if each of its members does and no two
members have one name (`readsBack_record`): the reader takes the members in the order in which they
are written, and each finds its own place still empty.
-/
namespace Vetting.Json

/-- What may follow a value: nothing, a comma or a closing bracket. -/
def Ends (rest : Input) : Prop := ∀ b ∈ rest.head?, b = 44 ∨ b = 93 ∨ b = 125

/-- A value that is read back from its text where `depth` containers may be opened. -/
def ReadsBack {α : Type} (codec : Codec α) (depth : Nat) (a : α) : Prop :=
  ∀ {nesting : Nat} {rest : Input}, depth ≤ nesting → Ends rest →
    codec.read nesting (codec.write a ++ rest) = .ok (a, rest)

theorem blanks_cons {b : UInt8} (mark : isBlank b = false) (rest : Input) :
    blanks (b :: rest) = b :: rest := by
  simp [blanks, mark]

theorem readsBack_text (depth : Nat) (text : String) : ReadsBack .text depth text :=
  fun _ _ => text_written "a string" text _

theorem readsBack_parsed {α : Type} {wanted : String} {parse : String → Option α} {print : α → String}
    {a : α} (depth : Nat) (inverse : parse (print a) = some a) :
    ReadsBack (.parsed wanted parse print) depth a := by
  intro nesting rest _ _
  simp only [Codec.parsed, Codec.write, Tree.write, text_written, inverse]

theorem readsBack_choice {α : Type} {names : List (String × α)} {print : α → String} {a : α}
    (depth : Nat) (known : names.lookup (print a) = some a) :
    ReadsBack (.choice names print) depth a := by
  intro nesting rest _ _
  simp only [Codec.choice, Codec.write, Tree.write, writeText_append, blanks_cons (b := 34) rfl,
    textBody_written, Codec.named, known]

theorem ReadsBack.map {α β : Type} {codec : Codec α} {f : α → β} {g : β → α} {depth : Nat} {b : β}
    (back : ReadsBack codec depth (g b)) (inverse : f (g b) = b) :
    ReadsBack (codec.map f g) depth b := by
  intro nesting rest deep ends
  have read := back deep ends
  simp only [Codec.write] at read
  simp only [Codec.map, Codec.write, read, Except.map, inverse]

/-- The text of the members from here on and of the brace. Before other members than the first there
is a comma. -/
def membersText (first : Bool) : List (String × Tree) → List UInt8
  | [] => [125]
  | (name, value) :: members =>
    (if first then [] else [44]) ++ (writeText name ++ 58 :: (value.write ++ Tree.writeMembers members))

@[simp] theorem membersText_false (members : List (String × Tree)) :
    membersText false members = Tree.writeMembers members := by
  cases members <;> simp [membersText, Tree.writeMembers]

@[simp] theorem write_object (members : List (String × Tree)) :
    (Tree.object members).write = 123 :: membersText true members := by
  cases members <;> simp [membersText, Tree.write]

theorem ends_members (members : List (String × Tree)) (rest : Input) :
    Ends (membersText false members ++ rest) := by
  cases members <;> simp [Ends, membersText]

private theorem length_lt_writeMembers (members : List (String × Tree)) :
    members.length < (Tree.writeMembers members).length := by
  induction members with
  | nil => exact Nat.one_pos
  | cons member members ih =>
    simp only [Tree.writeMembers, List.length_cons, List.length_append]
    omega

/-- There are no more members than bytes. -/
theorem length_le_membersText (first : Bool) (members : List (String × Tree)) :
    members.length ≤ (membersText first members).length := by
  cases members with
  | nil => exact Nat.zero_le _
  | cons member members =>
    have := length_lt_writeMembers members
    simp only [membersText, List.length_cons, List.length_append]
    omega

/-- The key of the next member is found, and after it come its colon and its value. -/
@[simp] theorem nextKey_member (first : Bool) (name : String) (value : Tree) (members : List (String × Tree))
    (rest : Input) :
    nextKey first (membersText first ((name, value) :: members) ++ rest) =
      .ok (some (name.toList.flatMap escape ++
        34 :: 58 :: (value.write ++ (membersText false members ++ rest)))) := by
  rw [membersText_false]
  cases first with
  | true => simp [nextKey, membersText, writeText, blanks_cons (b := 34) rfl]
  | false =>
    simp [nextKey, membersText, writeText, blanks_cons (b := 34) rfl, blanks_cons (b := 44) rfl]

@[simp] theorem nextKey_end (first : Bool) (rest : Input) :
    nextKey first (membersText first [] ++ rest) = .ok none := by
  simp [nextKey, membersText, blanks_cons (b := 125) rfl]

@[simp] theorem colon_next (rest : Input) : colon (58 :: rest) = .ok rest := by
  simp [colon, blanks_cons (b := 58) rfl]

namespace Draft

/-- A draft of one more member. -/
def cons {field : Field} {schema : Schema} (value : Option field.Value) (draft : Draft schema) :
    Draft (field :: schema) := (value, draft)

/-- A draft in which no member is missing. -/
def full : {schema : Schema} → Record schema → Draft schema
  | [], _ => ()
  | _ :: _, (a, record) => cons (some a) (full record)

private theorem complete_full : {schema : Schema} → (record : Record schema) →
    (full record).complete = .ok record
  | [], () => rfl
  | _ :: _, (a, record) => by simp [full, cons, complete, complete_full record, Except.map]

variable {ε ρ : Type} {take : (field : Field) → Except ε (field.Value × ρ)} {repeated : String → ε}

theorem store_cons_self {field : Field} {schema : Schema} (draft : Draft schema) :
    store take repeated field.name (cons none draft : Draft (field :: schema)) =
      some ((take field).map fun (a, x) => (cons (some a) draft, x)) := by
  simp [store, cons]

theorem store_cons_of_ne {field : Field} {schema : Schema} {name : String} (other : field.name ≠ name)
    (value : Option field.Value) (draft : Draft schema) :
    store take repeated name (cons value draft) =
      (store take repeated name draft).map fun stored =>
        stored.map fun (draft, x) => (cons value draft, x) := by
  simp [store, cons, other]

/-- A way to put a draft of some members into a draft of all: the look for one of those members
passes over the others. -/
def Passes {schema rest : Schema} (embed : Draft rest → Draft schema) : Prop :=
  ∀ {ε ρ : Type} (take : (field : Field) → Except ε (field.Value × ρ)) (repeated : String → ε)
    (name : String) (draft : Draft rest), name ∈ rest.map Field.name →
    store take repeated name (embed draft) =
      (store take repeated name draft).map fun stored => stored.map fun (draft, x) => (embed draft, x)

theorem passes_id (schema : Schema) : Passes (fun draft : Draft schema => draft) := by
  intro ε ρ take repeated name draft _
  cases store take repeated name draft with
  | none => rfl
  | some stored => cases stored <;> rfl

theorem Passes.tail {schema rest : Schema} {field : Field} {embed : Draft (field :: rest) → Draft schema}
    (passes : Passes embed) (value : Option field.Value) (other : field.name ∉ rest.map Field.name) :
    Passes fun draft : Draft rest => embed (cons value draft) := by
  intro ε ρ take repeated name draft mem
  have different : field.name ≠ name := fun same => other (same ▸ mem)
  rw [passes take repeated name (cons value draft) (by simp [mem]), store_cons_of_ne different]
  cases store take repeated name draft with
  | none => rfl
  | some stored => cases stored <;> rfl

end Draft

namespace Record

/-- Whether each member of a record has a property. -/
def All (P : (field : Field) → field.Value → Prop) : {schema : Schema} → Record schema → Prop
  | [], _ => True
  | field :: _, (a, record) => P field a ∧ All P record

variable {schema : Schema} {nesting depth : Nat}

/-- One round reads the value of a member that has its place still empty. -/
theorem memberStep_eq {field : Field} {rest : Schema} {embed : Draft (field :: rest) → Draft schema}
    (passes : Draft.Passes embed) {first : Bool} {s key after : Input}
    (found : nextKey first s = .ok (some key)) (named : textBody key = .ok (field.name, after))
    (draft : Draft rest) :
    memberStep schema nesting (first, embed (.cons none draft)) s =
      (match colon after with
        | .error fault => Except.error fault
        | .ok value => within field.name (field.codec.read nesting) value).map
          fun (a, left) => (.more (false, embed (.cons (some a) draft)), left) := by
  have mem : field.name ∈ (field :: rest).map Field.name := by simp
  simp only [memberStep, found, named]
  rw [passes _ _ _ _ mem, Draft.store_cons_self]
  cases colon after with
  | error fault => rfl
  | ok value =>
    simp only [Option.map_some]
    cases within field.name (field.codec.read nesting) value <;> rfl

/-- One round takes one member into its place. -/
theorem memberStep_member {field : Field} {rest : Schema} {embed : Draft (field :: rest) → Draft schema}
    (passes : Draft.Passes embed) (first : Bool) {a : field.Value}
    (back : ReadsBack field.codec depth a) (deep : depth ≤ nesting)
    (draft : Draft rest) (members : List (String × Tree)) (after : Input) :
    memberStep schema nesting (first, embed (.cons none draft))
      (membersText first ((field.name, field.codec.toTree a) :: members) ++ after) =
      .ok (.more (false, embed (.cons (some a) draft)), membersText false members ++ after) := by
  have value := back deep (ends_members members after)
  rw [Codec.write] at value
  rw [memberStep_eq passes (nextKey_member first _ _ _ _) (textBody_written _ _)]
  simp only [colon_next, within, value, Except.mapError, Except.map]

theorem memberStep_end (first : Bool) (draft : Draft schema) (after : Input) :
    memberStep schema nesting (first, draft) (membersText first [] ++ after) =
      .ok (.done draft, 125 :: after) := by
  simp only [memberStep, nextKey_end]
  simp [membersText]

private theorem iterateFor_members (deep : depth ≤ nesting) (after : Input) :
    (rest : Schema) → (record : Record rest) → {embed : Draft rest → Draft schema} →
    Draft.Passes embed → (rest.map Field.name).Nodup →
    record.All (fun field => ReadsBack field.codec depth) → (first : Bool) → {rounds : Nat} →
    rest.length < rounds →
    iterateFor (memberStep schema nesting) rounds (first, embed (Draft.empty rest))
      (membersText first record.toMembers ++ after) = .ok (embed (Draft.full record), 125 :: after)
  | [], (), embed, _, _, _, first, rounds + 1, _ => by
    simp only [iterateFor, toMembers, Draft.empty, memberStep_end, Draft.full]
  | field :: rest, (a, record), embed, passes, distinct, all, first, rounds + 1, enough => by
    simp only [List.map_cons, List.nodup_cons] at distinct
    simp only [iterateFor, toMembers, Draft.full]
    rw [show Draft.empty (field :: rest) = .cons none (.empty rest) from rfl,
      memberStep_member passes first all.1 deep]
    exact iterateFor_members deep after rest record (passes.tail (some a) distinct.1) distinct.2 all.2
      false (Nat.lt_of_succ_lt_succ enough)

private theorem length_toMembers : {schema : Schema} → (record : Record schema) →
    record.toMembers.length = schema.length
  | [], () => rfl
  | _ :: _, (_, record) => by rw [toMembers, List.length_cons, length_toMembers record, List.length_cons]

private theorem readObject_written {record : Record schema} (distinct : (schema.map Field.name).Nodup)
    (all : record.All fun field => ReadsBack field.codec depth) (deep : depth ≤ nesting) (after : Input) :
    readObject schema nesting (membersText true record.toMembers ++ after) = .ok (record, after) := by
  have rounds : schema.length < (membersText true record.toMembers ++ after).length + 1 := by
    have := length_le_membersText true record.toMembers
    rw [length_toMembers] at this
    rw [List.length_append]
    omega
  have members := iterateFor_members deep after schema record (Draft.passes_id schema) distinct all true
    rounds
  rw [readObject, iterate, members]
  simp [Draft.complete_full, closeObject, blanks_cons (b := 125) rfl]

end Record

theorem readsBack_record {type : String} {schema : Schema} {depth : Nat} {record : Record schema}
    (distinct : (schema.map Field.name).Nodup)
    (all : record.All fun field => ReadsBack field.codec depth) :
    ReadsBack (.record type schema) (depth + 1) record := by
  intro nesting rest deep _
  obtain ⟨nesting, rfl⟩ := Nat.exists_eq_add_of_lt (show 0 < nesting by omega)
  simp only [Codec.write, Codec.record, write_object, List.cons_append]
  rw [Record.read.eq_def]
  simp only [blanks_cons (b := 123) rfl, Nat.zero_add]
  exact Record.readObject_written distinct all (by omega) rest

end Vetting.Json
