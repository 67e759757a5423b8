import Vetting.Proofs.Json.Number

/-!
Values that are kept as trees read back as trees (`tree_written`), as far as their numbers fit and
no more containers are open at once than may be (`Tree.Kept`). From this lists, optional values and values
of two kinds read back: a written value never begins like a blank or a closing bracket, and only `null`
begins like `null` (`exists_first`).
-/
namespace Vetting.Json

/-- The text of the items from here on and of the bracket. Before other items than the first there is a
comma. -/
def itemsText (first : Bool) : List Tree → List UInt8
  | [] => [93]
  | item :: items => (if first then [] else [44]) ++ (item.write ++ Tree.writeItems items)

@[simp] theorem itemsText_false (items : List Tree) : itemsText false items = Tree.writeItems items := by
  cases items <;> simp [itemsText, Tree.writeItems]

@[simp] theorem write_list (items : List Tree) : (Tree.list items).write = 91 :: itemsText true items := by
  cases items <;> simp [itemsText, Tree.write]

private theorem ends_items (items : List Tree) (rest : Input) : Ends (itemsText false items ++ rest) := by
  cases items <;> simp [Ends, itemsText]

private theorem length_lt_writeItems (items : List Tree) :
    items.length < (Tree.writeItems items).length := by
  induction items with
  | nil => exact Nat.one_pos
  | cons item items ih =>
    simp only [Tree.writeItems, List.length_cons, List.length_append]
    omega

/-- There are no more items than bytes. -/
theorem length_le_itemsText (first : Bool) (items : List Tree) :
    items.length ≤ (itemsText first items).length := by
  cases items with
  | nil => exact Nat.zero_le _
  | cons item items =>
    have := length_lt_writeItems items
    simp only [itemsText, List.length_cons, List.length_append]
    omega

/-- Whether a value is kept as it is written: its numbers fit, and it has at most `depth` containers open
at once. -/
def Tree.Kept : Nat → Tree → Prop
  | _, .null | _, .boolean _ | _, .text _ => True
  | _, .number n => n.Fits
  | 0, .list _ | 0, .object _ => False
  | depth + 1, .list items => ∀ item ∈ items, Kept depth item
  | depth + 1, .object members => ∀ member ∈ members, Kept depth member.2

theorem kept_ofInt {v : Int} (depth : Nat) (fits : (Number.ofInt v).Fits) : (Tree.ofInt v).Kept depth := by
  cases depth <;> exact fits

variable {depth : Nat} {t : Tree}

/-- The first byte of a written value is neither a blank nor a closing bracket, and tells `null` apart. -/
theorem exists_first (kept : t.Kept depth) :
    ∃ b tail, t.write = b :: tail ∧ isBlank b = false ∧ b ≠ 93 ∧ (b = 110 → t = .null) := by
  cases t with
  | null => exact ⟨110, ascii "ull", rfl, rfl, by decide, fun _ => rfl⟩
  | boolean b =>
    cases b with
    | false => exact ⟨102, ascii "alse", rfl, rfl, by decide, fun same => absurd same (by decide)⟩
    | true => exact ⟨116, ascii "rue", rfl, rfl, by decide, fun same => absurd same (by decide)⟩
  | number n =>
    have fits : n.Fits := by cases depth <;> exact kept
    obtain ⟨b, tail, written, start⟩ := exists_start fits
    have others : b ≠ 93 ∧ b ≠ 110 := by
      constructor
      · rintro rfl
        exact absurd start (by decide)
      · rintro rfl
        exact absurd start (by decide)
    refine ⟨b, tail, by rw [Tree.write, written], startsNumber_solid start, others.1, ?_⟩
    exact fun same => absurd same others.2
  | text s =>
    refine ⟨34, s.toList.flatMap escape ++ [34], ?_, rfl, by decide, fun same => absurd same (by decide)⟩
    rw [Tree.write, writeText, List.cons_append]
  | list items =>
    exact ⟨91, _, write_list items, rfl, by decide, fun same => absurd same (by decide)⟩
  | object members => exact ⟨123, _, write_object members, rfl, by decide, fun same => absurd same (by decide)⟩

private theorem nextItem_item (first : Bool) (kept : t.Kept depth) (items : List Tree) (rest : Input) :
    nextItem first (itemsText first (t :: items) ++ rest) =
      .ok (some (t.write ++ (itemsText false items ++ rest))) := by
  obtain ⟨b, tail, written, solid, opens, _⟩ := exists_first kept
  rw [itemsText_false]
  cases first with
  | true => simp [nextItem, itemsText, written, blanks_cons solid]
  | false => simp [nextItem, itemsText, written, blanks_cons solid, blanks_cons (b := 44) rfl, opens]

@[simp] theorem nextItem_end (first : Bool) (rest : Input) :
    nextItem first (itemsText first [] ++ rest) = .ok none := by
  simp [nextItem, itemsText, blanks_cons (b := 93) rfl]

/-- Whether a reader gives a value back that was written in this form. -/
def Recovers {α : Type} (reader : Reader α) (form : α → Tree) (a : α) : Prop :=
  ∀ rest, Ends rest → reader ((form a).write ++ rest) = .ok (a, rest)

section Items

variable {α : Type} {reader : Reader α} {form : α → Tree}

/-- One round takes one item. -/
theorem itemStep_item {a : α} (recovers : Recovers reader form a) (kept : (form a).Kept depth)
    (done as : List α) (rest : Input) :
    itemStep reader done (itemsText done.isEmpty ((a :: as).map form) ++ rest) =
      .ok (.more (a :: done), itemsText false (as.map form) ++ rest) := by
  have read := recovers _ (ends_items (as.map form) rest)
  rw [List.map_cons, itemStep, nextItem_item done.isEmpty kept]
  simp only [within, read, Except.mapError]

private theorem itemStep_end (done : List α) (rest : Input) :
    itemStep reader done (itemsText done.isEmpty [] ++ rest) = .ok (.done done.reverse, 93 :: rest) := by
  rw [itemStep, nextItem_end]
  rfl

private theorem iterateFor_items (as : List α) (rest : Input)
    (all : ∀ a ∈ as, Recovers reader form a ∧ ∃ depth, (form a).Kept depth) (done : List α) {rounds : Nat}
    (enough : as.length < rounds) :
    iterateFor (itemStep reader) rounds done (itemsText done.isEmpty (as.map form) ++ rest) =
      .ok (done.reverse ++ as, 93 :: rest) := by
  induction as generalizing done rounds with
  | nil =>
    obtain ⟨rounds, rfl⟩ := Nat.exists_eq_add_of_lt enough
    rw [iterateFor, List.map_nil, itemStep_end, List.append_nil]
  | cons a as ih =>
    obtain ⟨recovers, depth, kept⟩ := all a List.mem_cons_self
    obtain ⟨rounds, rfl⟩ := Nat.exists_eq_add_of_lt enough
    rw [iterateFor, itemStep_item recovers kept]
    dsimp only
    have later := ih (fun b mem => all b (List.mem_cons_of_mem a mem)) (a :: done)
      (show as.length < (a :: as).length + rounds by simp only [List.length_cons]; omega)
    rw [List.isEmpty_cons] at later
    rw [later]
    simp

private theorem items_written {as : List α}
    (all : ∀ a ∈ as, Recovers reader form a ∧ ∃ depth, (form a).Kept depth)
    (rest : Input) : items reader (itemsText true (as.map form) ++ rest) = .ok (as, rest) := by
  have rounds : as.length < (itemsText true (as.map form) ++ rest).length + 1 := by
    have := length_le_itemsText true (as.map form)
    rw [List.length_map] at this
    rw [List.length_append]
    omega
  have found := iterateFor_items as rest all [] rounds
  rw [List.isEmpty_nil] at found
  rw [items, iterate, found]
  simp [closeList, blanks_cons (b := 93) rfl]

end Items

private theorem memberStep_pair {reader : Reader Tree} {name : String} {value : Tree}
    (recovers : Recovers reader id value) (done members : List (String × Tree)) (rest : Input) :
    memberStep reader done (membersText done.isEmpty ((name, value) :: members) ++ rest) =
      .ok (.more ((name, value) :: done), membersText false members ++ rest) := by
  have read := recovers _ (ends_members members rest)
  simp only [id] at read
  simp only [memberStep, nextKey_member, textBody_written, colon_next, within, read, Except.mapError]

private theorem memberStep_stop (reader : Reader Tree) (done : List (String × Tree)) (rest : Input) :
    memberStep reader done (membersText done.isEmpty [] ++ rest) = .ok (.done done.reverse, 125 :: rest) := by
  rw [memberStep, nextKey_end]
  rfl

private theorem iterateFor_pairs {reader : Reader Tree} (members : List (String × Tree)) (rest : Input)
    (all : ∀ member ∈ members, Recovers reader id member.2) (done : List (String × Tree)) {rounds : Nat}
    (enough : members.length < rounds) :
    iterateFor (memberStep reader) rounds done (membersText done.isEmpty members ++ rest) =
      .ok (done.reverse ++ members, 125 :: rest) := by
  induction members generalizing done rounds with
  | nil =>
    obtain ⟨rounds, rfl⟩ := Nat.exists_eq_add_of_lt enough
    rw [iterateFor, memberStep_stop, List.append_nil]
  | cons member members ih =>
    obtain ⟨rounds, rfl⟩ := Nat.exists_eq_add_of_lt enough
    rw [iterateFor, memberStep_pair (all member List.mem_cons_self)]
    dsimp only
    have later := ih (fun other mem => all other (List.mem_cons_of_mem member mem)) (member :: done)
      (show members.length < (member :: members).length + rounds by simp only [List.length_cons]; omega)
    rw [List.isEmpty_cons] at later
    rw [later]
    simp

private theorem members_written {reader : Reader Tree} {members : List (String × Tree)}
    (all : ∀ member ∈ members, Recovers reader id member.2) (rest : Input) :
    Json.members reader (membersText true members ++ rest) = .ok (members, rest) := by
  have rounds : members.length < (membersText true members ++ rest).length + 1 := by
    have := length_le_membersText true members
    rw [List.length_append]
    omega
  have found := iterateFor_pairs members rest all [] rounds
  rw [List.isEmpty_nil] at found
  rw [Json.members, iterate, found]
  simp [closeObject, blanks_cons (b := 125) rfl]

/-- A value that holds no others reads back wherever it stands. -/
theorem treeOver_scalar (inner : Option (Reader Tree)) (kept : t.Kept 0) {rest : Input} (ends : Ends rest) :
    treeOver inner (t.write ++ rest) = .ok (t, rest) := by
  cases t with
  | null => simp [treeOver, Tree.write, ascii, blanks, isBlank, nullEnd, literal]
  | boolean b =>
    cases b with
    | false => simp [treeOver, Tree.write, ascii, blanks, isBlank, falseEnd, literal]
    | true => simp [treeOver, Tree.write, ascii, blanks, isBlank, trueEnd, literal]
  | number n =>
    obtain ⟨b, tail, written, start⟩ := exists_start kept
    have read := number_written kept ends
    have letters : b ≠ 110 ∧ b ≠ 116 ∧ b ≠ 102 ∧ b ≠ 34 := by
      refine ⟨?_, ?_, ?_, ?_⟩
      all_goals
        rintro rfl
        exact absurd start (by decide)
    rw [written, List.cons_append] at read
    rw [Tree.write, written, List.cons_append, treeOver]
    simp [blanks_cons (startsNumber_solid start), letters, start, read, Except.map]
  | text s =>
    rw [Tree.write, writeText_append, treeOver]
    simp [blanks_cons (b := 34) rfl, Except.map]
  | list items => exact kept.elim
  | object members => exact kept.elim

/-- A value reads back as it was written if it may be kept. -/
theorem tree_written (kept : t.Kept depth) {nesting : Nat} (deep : depth ≤ nesting) :
    Recovers (tree nesting) id t := by
  induction depth generalizing t nesting with
  | zero =>
    intro rest ends
    cases nesting with
    | zero => exact treeOver_scalar none kept ends
    | succ nesting => exact treeOver_scalar (some (tree nesting)) kept ends
  | succ depth ih =>
    obtain ⟨nesting, rfl⟩ := Nat.exists_eq_add_of_lt (show 0 < nesting by omega)
    intro rest ends
    rw [Nat.zero_add, tree]
    cases t with
    | list items =>
      have all : ∀ item ∈ items, Recovers (tree nesting) id item ∧ ∃ depth, (id item : Tree).Kept depth :=
        fun item mem => ⟨ih (kept item mem) (by omega), depth, kept item mem⟩
      have read := items_written all rest
      rw [List.map_id] at read
      simp [treeOver, blanks_cons (b := 91) rfl, startsNumber, isDigit, read, Except.map]
    | object members =>
      have all : ∀ member ∈ members, Recovers (tree nesting) id member.2 :=
        fun member mem => ih (kept member mem) (by omega)
      have read := members_written all rest
      simp [treeOver, blanks_cons (b := 123) rfl, startsNumber, isDigit, read, Except.map]
    | null => exact treeOver_scalar (t := .null) _ trivial ends
    | boolean b => exact treeOver_scalar (t := .boolean b) _ trivial ends
    | text s => exact treeOver_scalar (t := .text s) _ trivial ends
    | number n => exact treeOver_scalar (t := .number n) _ kept ends

/-- A record is kept if each of its members is. -/
theorem kept_record (type : String) : {schema : Schema} → {record : Record schema} →
    (record.All fun field a => (field.codec.toTree a).Kept depth) →
    ((Codec.record type schema).toTree record).Kept (depth + 1)
  | [], (), _ => fun _ mem => absurd mem List.not_mem_nil
  | _ :: _, (_, record), all => by
    intro member mem
    rcases List.mem_cons.1 mem with rfl | later
    · exact all.1
    · exact kept_record type all.2 member later

variable {α β : Type} {codec : Codec α}

/-- A list reads back if each of its items does. -/
theorem readsBack_list {as : List α}
    (all : ∀ a ∈ as, ReadsBack codec depth a ∧ (codec.toTree a).Kept depth) :
    ReadsBack (.list codec) (depth + 1) as := by
  intro nesting rest deep ends
  obtain ⟨nesting, rfl⟩ := Nat.exists_eq_add_of_lt (show 0 < nesting by omega)
  have items : ∀ a ∈ as, Recovers (codec.read nesting) codec.toTree a ∧ ∃ depth, (codec.toTree a).Kept depth := by
    intro a mem
    obtain ⟨back, kept⟩ := all a mem
    exact ⟨fun rest ends => back (by omega) ends, depth, kept⟩
  have read := items_written items rest
  rw [Nat.zero_add]
  simp only [Codec.list, Codec.write, write_list, List.cons_append, blanks_cons (b := 91) rfl, read]

/-- A value that may be missing reads back if the value does and is not written as `null`. -/
theorem readsBack_optional {value : Option α}
    (back : ∀ a, value = some a → ReadsBack codec depth a)
    (kept : ∀ a, value = some a → (codec.toTree a).Kept depth ∧ codec.toTree a ≠ .null) :
    ReadsBack (.optional codec) depth value := by
  intro nesting rest deep ends
  cases value with
  | none => simp [Codec.optional, Codec.write, Tree.write, ascii, blanks, isBlank, nullEnd, literal]
  | some a =>
    have read := back a rfl deep ends
    obtain ⟨whole, something⟩ := kept a rfl
    obtain ⟨b, tail, written, solid, _, null⟩ := exists_first whole
    have other : b ≠ 110 := fun same => something (null same)
    rw [Codec.write, written, List.cons_append] at read
    simp only [Codec.optional, Codec.write, written, List.cons_append, blanks_cons solid]
    split
    · next same => exact absurd (List.cons.inj same).1 other
    · rw [read]
      rfl

variable {first : Codec α} {second : Codec β} {type : String}

/-- A value of the first kind reads back if its tree does. -/
theorem readsBack_inl {a : α} (kept : (first.toTree a).Kept depth)
    (own : first.ofTree (first.toTree a) = .ok a) :
    ReadsBack (.either type first second) depth (.inl a) := by
  intro nesting rest deep ends
  have read := tree_written kept deep rest ends
  simp only [id] at read
  simp only [Codec.either, Codec.write, read, own]

/-- A value of the second kind reads back if its tree does, and none of the first kind is so written. -/
theorem readsBack_inr {b : β} {e : Cause} (kept : (second.toTree b).Kept depth)
    (other : first.ofTree (second.toTree b) = .error e)
    (own : second.ofTree (second.toTree b) = .ok b) :
    ReadsBack (.either type first second) depth (.inr b) := by
  intro nesting rest deep ends
  have read := tree_written kept deep rest ends
  simp only [id] at read
  simp only [Codec.either, Codec.write, read, other, own]

/-- What reads back within the limit of containers is what its text holds. -/
theorem decode_written {a : α} (back : ReadsBack codec depth a) (deep : depth ≤ maxNesting) :
    codec.decode (codec.write a) = .ok a := by
  have ends : Ends [] := by
    intro b mem
    cases mem
  have read := back deep ends
  rw [List.append_nil] at read
  rw [Codec.decode, readAll, read]
  rfl

end Vetting.Json
