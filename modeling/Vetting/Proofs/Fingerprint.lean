import Mathlib
import Vetting.Job
import Vetting.Proofs.Task

/-!
What the hashed text tells of a submission. The text begins with the type and the client and tells
both apart (`source_inj_head`), and it does not depend on the order of the references (`source_perm`).
The references themselves are joined by a line break and a prefix that may occur inside a reference:
two pairs of references have one text exactly if they are the same pair or the joined text can be cut
in two places (`source_eq_iff`).
-/
namespace Vetting.Fingerprint

private theorem pairwise_sorted (keys : List String) :
    (sorted keys).Pairwise fun a b => decide (¬ b < a) := by
  refine List.pairwise_mergeSort ?_ ?_ keys
  · intro a b c ab bc
    simp only [decide_eq_true_eq, not_lt] at *
    exact ab.trans bc
  · intro a b
    simp only [Bool.or_eq_true, decide_eq_true_eq, not_lt]
    exact le_total a b

private theorem sorted_perm (keys : List String) : (sorted keys).Perm keys := List.mergeSort_perm keys _

private theorem sorted_eq_iff {keys others : List String} :
    sorted keys = sorted others ↔ keys.Perm others := by
  constructor
  · intro same
    exact (sorted_perm keys).symm.trans (same ▸ sorted_perm others)
  · intro perm
    refine List.Perm.eq_of_pairwise ?_ (pairwise_sorted keys) (pairwise_sorted others)
      ((sorted_perm keys).trans (perm.trans (sorted_perm others).symm))
    intro a b _ _ ab ba
    simp only [decide_eq_true_eq, not_lt] at ab ba
    exact le_antisymm ab ba

private theorem append_lt_append_iff (first a b : String) : first ++ a < first ++ b ↔ a < b := by
  simp only [String.lt_iff_toList_lt, String.toList_append]
  induction first.toList with
  | nil => rfl
  | cons c rest ih => simpa [List.cons_lt_cons_iff] using ih

/-- What the key of every image of a submission starts with. -/
def opening (type : JobType) (client : Int) : String := type.name ++ ":" ++ toString client ++ ":"

private theorem key_eq (type : JobType) (client : Int) (reference : String) :
    key type client reference = opening type client ++ reference := by
  simp [key, opening, String.append_assoc]

private theorem digit_of_mem_repr {n : Nat} {c : Char} (mem : c ∈ n.repr.toList) : c.isDigit = true := by
  rw [Nat.toList_repr] at mem
  exact Nat.isDigit_of_mem_toDigits (by decide) (by decide) mem

private theorem repr_injective {m n : Nat} (same : m.repr = n.repr) : m = n := by
  have digits : Nat.toDigits 10 m = Nat.toDigits 10 n := by
    rw [← Nat.toList_repr, ← Nat.toList_repr, same]
  rw [← Nat.ofDigitChars_ten_toDigits (n := m), digits, Nat.ofDigitChars_ten_toDigits]

private theorem toString_injective {m n : Int} (same : toString m = toString n) : m = n := by
  have signed : ∀ a b : Nat, a.repr ≠ "-" ++ b.repr := by
    intro a b same
    have minus : '-' ∈ a.repr.toList := by rw [same, String.toList_append]; simp
    exact absurd (digit_of_mem_repr minus) (by decide)
  simp only [Int.toString_eq_repr, Int.repr_eq_if] at same
  split at same <;> split at same
  · have := repr_injective same
    omega
  · exact absurd same (signed _ _)
  · exact absurd same.symm (signed _ _)
  · have := repr_injective (String.append_right_inj "-" |>.1 same)
    omega

private theorem not_mem_toString {c : Char} (other : c.isDigit = false) (plus : c ≠ '-') (n : Int) :
    c ∉ (toString n).toList := by
  have digits : ∀ m : Nat, c ∉ m.repr.toList := fun m mem => by simp [digit_of_mem_repr mem] at other
  rw [Int.toString_eq_repr, Int.repr_eq_if]
  split
  · exact digits _
  · simpa [plus] using digits _

/-- A word ends at the first colon after it. -/
theorem eq_of_append_colon {word other rest more : List Char} (pure : ':' ∉ word) (clean : ':' ∉ other)
    (same : word ++ ':' :: rest = other ++ ':' :: more) : word = other ∧ rest = more := by
  rcases List.append_eq_append_iff.1 same with ⟨gap, rfl, tail⟩ | ⟨gap, rfl, tail⟩
  · cases gap with
    | nil => simpa using tail
    | cons c gap =>
      simp only [List.cons_append, List.cons.injEq] at tail
      simp [← tail.1] at clean
  · cases gap with
    | nil => simpa using tail.symm
    | cons c gap =>
      simp only [List.cons_append, List.cons.injEq] at tail
      simp [← tail.1] at pure

private theorem opening_inj {type other : JobType} {client owner : Int} {rest more : String}
    (same : opening type client ++ rest = opening other owner ++ more) :
    type = other ∧ client = owner ∧ rest = more := by
  have named : ∀ t : JobType, ':' ∉ t.name.toList := by rintro (_ | _) <;> decide
  have chars := congrArg String.toList same
  simp only [opening, String.toList_append, List.append_assoc] at chars
  obtain ⟨names, tail⟩ := eq_of_append_colon (named type) (named other) chars
  obtain ⟨clients, rests⟩ :=
    eq_of_append_colon (not_mem_toString rfl (by decide) client)
      (not_mem_toString rfl (by decide) owner) tail
  have types : type = other := by
    revert names
    cases type <;> cases other <;> decide
  exact ⟨types, toString_injective (String.toList_inj.1 clients), String.toList_inj.1 rests⟩

private theorem break_not_mem_opening (type : JobType) (client : Int) :
    '\n' ∉ (opening type client).toList := by
  have named : '\n' ∉ type.name.toList := by cases type <;> decide
  have numbered := not_mem_toString (c := '\n') rfl (by decide) client
  rw [Int.toString_eq_repr] at numbered
  simp [opening, named, numbered]

private theorem sorted_map_key (type : JobType) (client : Int) (references : List String) :
    sorted (references.map (key type client)) = (sorted references).map (key type client) := by
  refine (List.map_mergeSort ?_).symm
  intro a _ b _
  simp only [key_eq, append_lt_append_iff]

theorem source_perm {type : JobType} {client : Int} {references others : List String}
    (perm : references.Perm others) : source type client references = source type client others := by
  rw [source, source, sorted_eq_iff.2 (perm.map _)]

/-- What stands between two references in the joined text. -/
def gap (type : JobType) (client : Int) : String := "\n" ++ opening type client

private theorem source_pair {type : JobType} {client : Int} {references : List String} {low high : String}
    (pair : sorted references = [low, high]) :
    source type client references = opening type client ++ (low ++ gap type client ++ high) := by
  simp [source, sorted_map_key, pair, key_eq, gap, String.append_assoc]

private theorem source_single (type : JobType) (client : Int) (reference : String) :
    source type client [reference] = opening type client ++ reference := by
  simp [source, sorted, key_eq]

/-- The text of as many references as the type needs starts with the prefix. -/
theorem source_eq_opening {type : JobType} {references : List String} (client : Int)
    (fits : references.length = type.imageCount) :
    ∃ rest, source type client references = opening type client ++ rest := by
  have length := (sorted_perm references).length_eq
  cases type with
  | ocr =>
    obtain ⟨reference, rfl⟩ := List.length_eq_one_iff.1 fits
    exact ⟨reference, source_single .ocr client reference⟩
  | faceMatch =>
    obtain ⟨low, high, pair⟩ := List.length_eq_two.1 (length.trans fits)
    exact ⟨_, source_pair pair⟩

theorem source_inj_head {type other : JobType} {client owner : Int} {references others : List String}
    (fits : references.length = type.imageCount) (fit : others.length = other.imageCount)
    (same : source type client references = source other owner others) :
    type = other ∧ client = owner := by
  obtain ⟨rest, begins⟩ := source_eq_opening client fits
  obtain ⟨more, starts⟩ := source_eq_opening owner fit
  obtain ⟨types, clients, _⟩ := opening_inj (begins.symm.trans (same.trans starts))
  exact ⟨types, clients⟩

/-- A text is empty or starts with the prefix. -/
theorem source_cases (type : JobType) (client : Int) (references : List String) :
    source type client references = "" ∨
      ∃ rest, source type client references = opening type client ++ rest := by
  rw [source, sorted_map_key]
  cases sorted references with
  | nil => exact .inl rfl
  | cons low others =>
    right
    cases others with
    | nil =>
      refine ⟨low, ?_⟩
      simp [key_eq]
    | cons high others =>
      refine ⟨low ++ ("\n" ++ "\n".intercalate ((high :: others).map (key type client))), ?_⟩
      simp [key_eq, String.intercalate_cons_cons, String.append_assoc]

/-- A text that is the text of as many references as their type needs tells that type and the client,
whatever it was made of. -/
theorem head_of_source_eq {type other : JobType} {client owner : Int} {references others : List String}
    (fit : others.length = other.imageCount)
    (same : source type client references = source other owner others) :
    type = other ∧ client = owner := by
  obtain ⟨more, starts⟩ := source_eq_opening owner fit
  rcases source_cases type client references with empty | ⟨rest, begins⟩
  · have chars := congrArg String.toList (empty.symm.trans (same.trans starts))
    simp [opening] at chars
  · obtain ⟨types, clients, _⟩ := opening_inj (begins.symm.trans (same.trans starts))
    exact ⟨types, clients⟩

/-- Fingerprints that read the same are of texts with one digest. -/
theorem digest_eq_of_text_eq {type other : JobType} {client owner : Int} {references others : List String}
    (same : (compute type client references).text = (compute other owner others).text) :
    Sha256.digest (Utf8.encode (source type client references)) =
      Sha256.digest (Utf8.encode (source other owner others)) := by
  have bytes := congrArg Hex.decode (String.ofList_injective same)
  rw [Hex.decode_encode, Hex.decode_encode] at bytes
  exact Option.some.inj bytes

/-- A separator that starts with a mark which it holds only once cannot overlap itself; so a text
that holds it can be cut at two places only if the separator occurs twice. -/
theorem cut_cases {mark : Char} {sep low high bottom top : List Char} (once : mark ∉ sep)
    (same : low ++ mark :: sep ++ high = bottom ++ mark :: sep ++ top) :
    (low = bottom ∧ high = top) ∨
      (∃ middle, bottom = low ++ mark :: sep ++ middle ∧ high = middle ++ mark :: sep ++ top) ∨
      (∃ middle, low = bottom ++ mark :: sep ++ middle ∧ top = middle ++ mark :: sep ++ high) := by
  -- One of the two cuts comes first; `shift` is the part of the text between them.
  have ordered : ∀ {low high bottom top shift : List Char}, bottom = low ++ shift →
      mark :: sep ++ high = shift ++ (mark :: sep ++ top) → (low = bottom ∧ high = top) ∨
        ∃ middle, bottom = low ++ mark :: sep ++ middle ∧ high = middle ++ mark :: sep ++ top := by
    intro low high bottom top shift grown rest
    cases shift with
    | nil => exact .inl ⟨by simpa using grown.symm, by simpa using rest⟩
    | cons c shift =>
      rcases List.append_eq_append_iff.1 rest with ⟨middle, whole, right⟩ | ⟨overlap, whole, right⟩
      · exact .inr ⟨middle, by simp [grown, whole], by simpa using right⟩
      · simp only [List.cons_append, List.cons.injEq] at whole
        cases overlap with
        | nil => exact .inr ⟨[], by simp [grown, whole], by simpa using right.symm⟩
        | cons d overlap =>
          simp only [List.cons_append, List.cons.injEq] at right
          exact absurd (by simp [whole.2, right.1]) once
  simp only [List.append_assoc] at same
  rcases List.append_eq_append_iff.1 same with ⟨shift, grown, rest⟩ | ⟨shift, grown, rest⟩
  · rcases ordered grown rest with equal | later
    · exact .inl equal
    · exact .inr (.inl later)
  · rcases ordered grown rest with ⟨lows, highs⟩ | later
    · exact .inl ⟨lows.symm, highs.symm⟩
    · exact .inr (.inr later)

/-- Whether the text of the first pair can be cut at another place, which gives the second pair: the
lower reference of the first holds what separates two references. -/
def Recut (type : JobType) (client : Int) (references others : List String) : Prop :=
  ∃ low middle high, sorted references = [low ++ gap type client ++ middle, high] ∧
    sorted others = [low, middle ++ gap type client ++ high]

private theorem source_eq_of_recut {type : JobType} {client : Int} {references others : List String}
    (recut : Recut type client references others) :
    source type client references = source type client others := by
  obtain ⟨low, middle, high, pair, other⟩ := recut
  simp only [source_pair pair, source_pair other, String.append_assoc]

/-- Two submissions of one type by one client with one text. -/
theorem perm_or_recut {type : JobType} {client : Int} {references others : List String}
    (fits : references.length = type.imageCount) (fit : others.length = type.imageCount)
    (same : source type client references = source type client others) :
    references.Perm others ∨ Recut type client references others ∨
      Recut type client others references := by
  cases type with
  | ocr =>
    obtain ⟨reference, rfl⟩ := List.length_eq_one_iff.1 fits
    obtain ⟨other, rfl⟩ := List.length_eq_one_iff.1 fit
    rw [source_single, source_single, String.append_right_inj] at same
    exact .inl (same ▸ .refl _)
  | faceMatch =>
    obtain ⟨low, high, pair⟩ :=
      List.length_eq_two.1 ((sorted_perm references).length_eq.trans fits)
    obtain ⟨bottom, top, other⟩ := List.length_eq_two.1 ((sorted_perm others).length_eq.trans fit)
    rw [source_pair pair, source_pair other, String.append_right_inj] at same
    have chars := congrArg String.toList same
    simp only [gap, String.toList_append] at chars
    rcases cut_cases (break_not_mem_opening .faceMatch client) chars with
      ⟨lows, highs⟩ | ⟨middle, left, right⟩ | ⟨middle, left, right⟩
    · refine .inl (sorted_eq_iff.1 ?_)
      rw [pair, other, String.toList_inj.1 lows, String.toList_inj.1 highs]
    · refine .inr (.inr ⟨low, .ofList middle, top, ?_, ?_⟩)
      · rw [other, List.cons.injEq]
        exact ⟨String.toList_inj.1 (by simpa [gap] using left), rfl⟩
      · rw [pair, List.cons.injEq, List.cons.injEq]
        exact ⟨rfl, String.toList_inj.1 (by simpa [gap] using right), rfl⟩
    · refine .inr (.inl ⟨bottom, .ofList middle, high, ?_, ?_⟩)
      · rw [pair, List.cons.injEq]
        exact ⟨String.toList_inj.1 (by simpa [gap] using left), rfl⟩
      · rw [other, List.cons.injEq, List.cons.injEq]
        exact ⟨rfl, String.toList_inj.1 (by simpa [gap] using right), rfl⟩

/-- A pair whose text can be cut at another place has a reference with a line break. -/
theorem exists_break_of_recut {type : JobType} {client : Int} {references others : List String}
    (recut : Recut type client references others) : ∃ reference ∈ references, '\n' ∈ reference.toList := by
  obtain ⟨low, middle, high, pair, _⟩ := recut
  refine ⟨low ++ gap type client ++ middle, ?_, by simp [gap]⟩
  rw [← (sorted_perm references).mem_iff, pair]
  simp

/-- The text identifies the type and the client, and it identifies the references up to their order
unless the text can be cut at another place; where no reference has a line break, it cannot. -/
theorem source_eq_iff {type other : JobType} {client owner : Int} {references others : List String}
    (fits : references.length = type.imageCount) (fit : others.length = other.imageCount) :
    (source type client references = source other owner others ↔
      type = other ∧ client = owner ∧ (references.Perm others ∨
        Recut type client references others ∨ Recut type client others references)) ∧
    ((∀ reference ∈ references ++ others, '\n' ∉ reference.toList) →
      (source type client references = source other owner others ↔
        type = other ∧ client = owner ∧ references.Perm others)) := by
  have exact : source type client references = source other owner others ↔
      type = other ∧ client = owner ∧ (references.Perm others ∨
        Recut type client references others ∨ Recut type client others references) := by
    constructor
    · intro same
      obtain ⟨rfl, rfl⟩ := source_inj_head fits fit same
      exact ⟨rfl, rfl, perm_or_recut fits fit same⟩
    · rintro ⟨rfl, rfl, perm | recut | recut⟩
      · exact source_perm perm
      · exact source_eq_of_recut recut
      · exact (source_eq_of_recut recut).symm
  refine ⟨exact, fun plain => exact.trans ?_⟩
  have uncut : ∀ pair more : List String, (∀ r ∈ pair, r ∈ references ++ others) →
      ¬ Recut type client pair more := by
    intro pair more among recut
    obtain ⟨reference, mem, line⟩ := exists_break_of_recut recut
    exact plain reference (among reference mem) line
  have first := uncut references others (by simp +contextual)
  have second := uncut others references (by simp +contextual)
  simp [first, second]

theorem source_eq_iff_pairs :
    (source .faceMatch 3 ["c", "a\nface_match:3:b"] = source .faceMatch 3 ["a", "b\nface_match:3:c"] ↔
      JobType.faceMatch = .faceMatch ∧ (3 : Int) = 3 ∧
        (["c", "a\nface_match:3:b"].Perm ["a", "b\nface_match:3:c"] ∨
          Recut .faceMatch 3 ["c", "a\nface_match:3:b"] ["a", "b\nface_match:3:c"] ∨
          Recut .faceMatch 3 ["a", "b\nface_match:3:c"] ["c", "a\nface_match:3:b"])) ∧
    (source .faceMatch 3 ["b:1", "a"] = source .faceMatch 3 ["a", "b:1"] ↔
      JobType.faceMatch = .faceMatch ∧ (3 : Int) = 3 ∧ ["b:1", "a"].Perm ["a", "b:1"]) :=
  ⟨(source_eq_iff rfl rfl).1, (source_eq_iff rfl rfl).2 (by decide)⟩

/-- Two different pairs of references with one text. -/
theorem source_collision :
    source .faceMatch 3 ["a\nface_match:3:b", "c"] = source .faceMatch 3 ["a", "b\nface_match:3:c"] ∧
      ¬ ["a\nface_match:3:b", "c"].Perm ["a", "b\nface_match:3:c"] :=
  ⟨by cbv, by decide⟩

end Vetting.Fingerprint
