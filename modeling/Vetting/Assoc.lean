/-!
Values under keys, as a list of pairs in the order in which the keys came. `List.lookup` finds the
value of a key; `lookup_put`, `lookup_drop` and `lookup_renew` say what it finds after a change.
-/
namespace Vetting.Assoc

variable {κ α : Type} [DecidableEq κ]

/-- Puts a value under a key: in place of the one that is there, or else at the end. -/
def put (key : κ) (value : α) : List (κ × α) → List (κ × α)
  | [] => [(key, value)]
  | (k, v) :: rest => if k = key then (key, value) :: rest else (k, v) :: put key value rest

/-- Leaves out what is under a key. -/
def drop (key : κ) (pairs : List (κ × α)) : List (κ × α) := pairs.filter fun pair => pair.1 ≠ key

/-- Puts a value under a key at the end, whether or not one was there. -/
def renew (key : κ) (value : α) (pairs : List (κ × α)) : List (κ × α) := drop key pairs ++ [(key, value)]

/-- Takes the first value under a key out of the list. -/
def take? (key : κ) : List (κ × α) → Option (α × List (κ × α))
  | [] => none
  | (k, v) :: rest =>
    if k = key then some (v, rest)
    else (take? key rest).map fun (value, rest) => (value, (k, v) :: rest)

@[simp] theorem lookup_cons (key other : κ) (value : α) (pairs : List (κ × α)) :
    ((key, value) :: pairs).lookup other = if other = key then some value else pairs.lookup other := by
  by_cases same : other = key
  · subst same
    rw [List.lookup_cons_self, if_pos rfl]
  · rw [List.lookup_cons, beq_eq_false_iff_ne.2 same, if_neg same]

@[simp] theorem lookup_put (key other : κ) (value : α) (pairs : List (κ × α)) :
    (put key value pairs).lookup other = if other = key then some value else pairs.lookup other := by
  induction pairs with
  | nil => rw [put, lookup_cons]
  | cons pair rest ih =>
    obtain ⟨k, v⟩ := pair
    by_cases found : k = key
    · subst found
      rw [put, if_pos rfl, lookup_cons, lookup_cons]
      split <;> rfl
    · rw [put, if_neg found, lookup_cons, lookup_cons, ih]
      by_cases same : other = k
      · simp [same, found]
      · simp [same]

@[simp] theorem lookup_drop (key other : κ) (pairs : List (κ × α)) :
    (drop key pairs).lookup other = if other = key then none else pairs.lookup other := by
  induction pairs with
  | nil => simp [drop]
  | cons pair rest ih =>
    obtain ⟨k, v⟩ := pair
    rw [lookup_cons k other]
    by_cases dropped : k = key
    · rw [drop, List.filter_cons_of_neg (by simp [dropped]), ← drop, ih]
      by_cases same : other = key
      · simp [same]
      · simp [same, dropped]
    · rw [drop, List.filter_cons_of_pos (by simp [dropped]), ← drop, lookup_cons, ih]
      by_cases same : other = k
      · simp [same, dropped]
      · simp [same]

@[simp] theorem lookup_renew (key other : κ) (value : α) (pairs : List (κ × α)) :
    (renew key value pairs).lookup other =
      if other = key then some value else pairs.lookup other := by
  rw [renew, List.lookup_append, lookup_drop, lookup_cons, List.lookup_nil]
  by_cases same : other = key
  · simp [same]
  · simp [same]

theorem mem_of_lookup {key : κ} {value : α} {pairs : List (κ × α)}
    (found : pairs.lookup key = some value) : (key, value) ∈ pairs := by
  obtain ⟨front, back, rfl, _⟩ := List.lookup_eq_some_iff.1 found
  simp

/-- What is found under a key is found still if others are left out. -/
theorem lookup_filter {key : κ} {value : α} {keep : κ × α → Bool} {pairs : List (κ × α)}
    (found : pairs.lookup key = some value) (kept : keep (key, value) = true) :
    (pairs.filter keep).lookup key = some value := by
  induction pairs with
  | nil => simp at found
  | cons pair rest ih =>
    obtain ⟨k, v⟩ := pair
    rw [lookup_cons] at found
    by_cases same : key = k
    · subst same
      rw [if_pos rfl, Option.some.injEq] at found
      subst found
      rw [List.filter_cons_of_pos kept, List.lookup_cons_self]
    · rw [if_neg same] at found
      by_cases stays : keep (k, v) = true
      · rw [List.filter_cons_of_pos stays, lookup_cons, if_neg same, ih found]
      · rw [List.filter_cons_of_neg stays, ih found]

theorem drop_eq_self {key : κ} {pairs : List (κ × α)} (absent : ∀ pair ∈ pairs, pair.1 ≠ key) :
    drop key pairs = pairs :=
  List.filter_eq_self.2 fun pair mem => decide_eq_true (absent pair mem)

theorem mem_put {key : κ} {value : α} {pair : κ × α} {pairs : List (κ × α)}
    (mem : pair ∈ put key value pairs) : pair = (key, value) ∨ pair ∈ pairs := by
  induction pairs with
  | nil => exact .inl (List.mem_singleton.1 mem)
  | cons first rest ih =>
    obtain ⟨k, v⟩ := first
    rw [put] at mem
    split at mem
    · exact (List.mem_cons.1 mem).imp_right (List.mem_cons_of_mem _)
    · rcases List.mem_cons.1 mem with rfl | later
      · exact .inr List.mem_cons_self
      · exact (ih later).imp_right (List.mem_cons_of_mem _)

end Vetting.Assoc
