import Vetting.Proofs.Base64Url
import Vetting.Proofs.Decimal
import Vetting.Proofs.Json.Skip
import Vetting.Proofs.Models

/-!
Which tokens are good, and whose they are (`verify_sound_complete`). A token that is taken consists of three
parts of which the last is the code of the exact text before it, its header names the one algorithm, and its
claims have not expired and spell the client. The token that is issued to a client is taken as that client's,
whatever word of sixty-four bits the client is. A text without a point is what the last part must be, so there
is one way to part a token.
-/
namespace Vetting

open Json

namespace Json.Record

variable {field : Field} {schema : Schema}

private theorem filter_of_ofMembers {value value' : Option field.Value} {draft draft' : Draft schema}
    {members : List (String × Tree)}
    (read : ofMembers (Draft.cons value draft) members = .ok (Draft.cons value' draft')) :
    value' = value ∧ members.filter (fun member => member.1 = field.name) = [] ∨
      value = none ∧ ∃ t a, value' = some a ∧ field.codec.ofTree t = .ok a ∧
        members.filter (fun member => member.1 = field.name) = [(field.name, t)] := by
  induction members generalizing value draft with
  | nil =>
    have same := Prod.mk.inj (Except.ok.inj read)
    left
    exact ⟨same.1.symm, rfl⟩
  | cons member members ih =>
    obtain ⟨key, t⟩ := member
    by_cases own : field.name = key
    · subst own
      cases value with
      | some a =>
        exfalso
        simp [ofMembers, Draft.store, Draft.cons] at read
      | none =>
        rw [ofMembers, Draft.store_cons_self] at read
        cases taken : field.codec.ofTree t with
        | error cause => simp [taken, Except.map] at read
        | ok a =>
          simp only [taken, Except.map] at read
          rcases ih read with ⟨same, others⟩ | ⟨same, _⟩
          · right
            refine ⟨rfl, t, a, same, taken, ?_⟩
            simp [others]
          · cases same
    · have skipped : ((key, t) :: members).filter (fun member => member.1 = field.name) =
          members.filter fun member => member.1 = field.name := by
        simp [Ne.symm own]
      rw [skipped]
      rw [ofMembers, Draft.store_cons_of_ne own] at read
      cases stored : draft.store (fun field => (field.codec.ofTree t).map (·, ())) Cause.repeatedMember key with
      | none =>
        rw [stored] at read
        exact ih read
      | some outcome =>
        cases outcome with
        | error cause =>
          rw [stored] at read
          cases read
        | ok next =>
          rw [stored] at read
          exact ih read

/-- A first member that may not be missing stands in the object once, with the value that is read. -/
theorem head_of_ofTree {type : String} {members : List (String × Tree)} {record : Record (field :: schema)}
    (required : field.codec.absent = none) (read : ofTree type (field :: schema) (.object members) = .ok record) :
    ∃ t, field.codec.ofTree t = .ok record.1 ∧
      members.filter (fun member => member.1 = field.name) = [(field.name, t)] := by
  rw [ofTree] at read
  split at read
  · cases read
  · next draft taken =>
    obtain ⟨value, draft⟩ := draft
    rcases filter_of_ofMembers taken with ⟨missing, _⟩ | ⟨_, t, a, found, stands, only⟩
    · subst missing
      simp only [Draft.complete, required] at read
      cases read
    · subst found
      refine ⟨t, ?_, only⟩
      simp only [Draft.complete] at read
      cases rest : draft.complete with
      | error cause =>
        rw [rest] at read
        cases read
      | ok others =>
        rw [rest] at read
        cases read
        exact stands

end Json.Record

/-- A choice among words that stand for themselves is made by naming one. -/
theorem Json.Codec.name?_of_choice {names : List String} {t : Tree} {name : String}
    (read : (Codec.choice (names.map fun name => (name, name)) id).ofTree t = .ok name) :
    Token.Key.name? t = some name := by
  have own : ∀ {key word : String}, Codec.named (names.map fun name => (name, name)) key = .ok word →
      word = key := by
    intro key word found
    rw [Codec.named] at found
    split at found
    · next same =>
      cases found
      obtain ⟨front, back, split, _⟩ := List.lookup_eq_some_iff.1 same
      have mem : (key, word) ∈ names.map fun name => (name, name) := by
        rw [split]
        exact List.mem_append_right front List.mem_cons_self
      obtain ⟨_, _, pair⟩ := List.mem_map.1 mem
      cases pair
      rfl
    · cases found
  simp only [Codec.choice] at read
  split at read
  · next key =>
    rw [own read]
    rfl
  · next key value =>
    split at read
    · cases read
    · next named =>
      cases read
      rw [own named]
      rfl
    · cases read
  · cases read
  · cases read

namespace Token

private theorem ne_point {text : List Char} (pure : '.' ∉ text) :
    ∀ c ∈ text.reverse, decide (c ≠ '.') = true := by
  intro c mem
  rw [decide_eq_true_iff]
  rintro rfl
  exact pure (List.mem_reverse.1 mem)

private theorem splitLast?_append {front last : List Char} (pure : '.' ∉ last) :
    splitLast? (front ++ '.' :: last) = some (front, last) := by
  have ends : (front ++ '.' :: last).reverse.takeWhile (· ≠ '.') = last.reverse := by
    rw [List.reverse_append, List.reverse_cons, List.append_assoc, List.takeWhile_append_of_pos (ne_point pure)]
    simp
  have cut : (front ++ '.' :: last).length - last.length = front.length + 1 := by
    simp only [List.length_append, List.length_cons]
    omega
  simp only [splitLast?, ends, List.reverse_reverse, cut]
  simp [List.take_append]

private theorem splitLast?_pure {text : List Char} (pure : '.' ∉ text) : splitLast? text = none := by
  have ends : text.reverse.takeWhile (· ≠ '.') = text.reverse := List.takeWhile_eq_self_iff.2 (ne_point pure)
  simp only [splitLast?, ends, List.reverse_reverse]
  simp

/-- A text is parted at its last point. -/
theorem splitLast?_eq_some_iff {text front last : List Char} :
    splitLast? text = some (front, last) ↔ text = front ++ '.' :: last ∧ '.' ∉ last := by
  constructor
  · intro parted
    by_cases mem : '.' ∈ text
    · obtain ⟨after, before, same, pure⟩ := List.eq_append_cons_of_mem (List.mem_reverse.2 mem)
      have back : text = before.reverse ++ '.' :: after.reverse := by
        rw [← List.reverse_reverse text, same]
        simp
      have clean : '.' ∉ after.reverse := by simpa using pure
      rw [back, splitLast?_append clean] at parted
      cases parted
      exact ⟨back, clean⟩
    · rw [splitLast?_pure mem] at parted
      cases parted
  · rintro ⟨rfl, pure⟩
    exact splitLast?_append pure

/-- Whether bytes are a header that names an algorithm: an object in which one member, and no other of that
name, tells it. -/
def Names (bytes : List UInt8) (name : String) : Prop :=
  ∃ members value, readAll (tree maxNesting) bytes = .ok (.object members) ∧
    members.filter (fun member => member.1 = "alg") = [("alg", value)] ∧ Key.name? value = some name

private theorem names_of_headerAlgorithm? {bytes : List UInt8} {name : String}
    (read : headerAlgorithm? bytes = some name) : Names bytes name := by
  rw [headerAlgorithm?] at read
  split at read
  · next members object =>
    split at read
    · split at read
      · next record complete =>
        cases read
        obtain ⟨t, chosen, only⟩ := Record.head_of_ofTree rfl complete
        exact ⟨members, t, object, only, Codec.name?_of_choice chosen⟩
      · cases read
    · cases read
  · cases read

/-- What makes three parts a token that is good at a second. -/
structure Vouches (secret : List UInt8) (now : Nat) (header payload signature : List Char) (said : Claims) :
    Prop where
  headed : ∃ bytes, Base64Url.decode header = some bytes ∧ headerAlgorithm? bytes = some algorithm ∧
    Names bytes algorithm
  signed : Base64Url.decode signature =
    some (Hmac.code secret (Utf8.encode (String.ofList (header ++ '.' :: payload))))
  stated : ∃ bytes, Base64Url.decode payload = some bytes ∧ Claims.codec.decode bytes = .ok said ∧
    namesAudience? bytes = some false
  current : now ≤ said.expiry + leeway

private theorem claims_eq_ok_iff {secret : List UInt8} {now : Nat} {token : String} {said : Claims} :
    claims secret now token = .ok said ↔ ∃ header payload signature,
      token.toList = header ++ '.' :: payload ++ '.' :: signature ∧ '.' ∉ payload ∧ '.' ∉ signature ∧
        Vouches secret now header payload signature said := by
  constructor
  · intro read
    simp only [claims, bind, Except.bind, throw, throwThe, MonadExceptOf.throw] at read
    -- Every question is answered well, in the order in which they are asked.
    split at read
    case h_2 => cases read
    next signed signature outer =>
    split at read
    case h_2 => cases read
    next header payload inner =>
    split at read
    case h_2 => cases read
    next head decoded =>
    split at read
    case h_2 => cases read
    next named names =>
    split at read
    case isTrue => cases read
    next same =>
    split at read
    case h_2 => cases read
    next code coded =>
    split at read
    case isTrue => cases read
    next genuine =>
    split at read
    case h_2 => cases read
    next body plain =>
    split at read
    case h_2 => cases read
    next claims stated =>
    split at read
    case h_2 => cases read
    next hasAudience audience =>
    split at read
    case isTrue => cases read
    next current =>
    split at read
    case isTrue => cases read
    next anyone =>
    cases read
    obtain ⟨text, clean⟩ := splitLast?_eq_some_iff.1 outer
    obtain ⟨rfl, pure⟩ := splitLast?_eq_some_iff.1 inner
    obtain rfl := Classical.not_not.1 same
    obtain rfl := Classical.not_not.1 genuine
    obtain rfl := Bool.eq_false_iff.2 anyone
    refine ⟨header, payload, signature, text, pure, clean, ?_⟩
    exact ⟨⟨head, decoded, names, names_of_headerAlgorithm? names⟩, coded, ⟨body, plain, stated, audience⟩,
      Nat.not_lt.1 current⟩
  · rintro ⟨header, payload, signature, text, pure, clean, vouches⟩
    obtain ⟨bytes, decoded, alg, _⟩ := vouches.headed
    obtain ⟨body, plain, stated, audience⟩ := vouches.stated
    have current := Nat.not_lt.2 vouches.current
    have outer := splitLast?_eq_some_iff.2 ⟨text, clean⟩
    have inner : splitLast? (header ++ '.' :: payload) = some (header, payload) := splitLast?_append pure
    simp only [claims, bind, Except.bind, throw, throwThe, MonadExceptOf.throw, outer, inner, decoded, alg,
      vouches.signed, plain, stated, audience, current, ne_eq, not_true_eq_false, if_false, Bool.false_eq_true]
    rfl

variable {secret : List UInt8} {now : Nat}

private theorem verify_eq_ok_iff {token : String} {client : Int} :
    verify secret now token = .ok client ↔
      ∃ said, claims secret now token = .ok said ∧ Decimal.int64? said.subject.toList = .ok client := by
  rw [verify]
  constructor
  · intro read
    split at read
    · cases read
    · next said stated =>
      split at read
      · next client number =>
        cases read
        exact ⟨said, stated, number⟩
      · cases read
  · rintro ⟨said, stated, number⟩
    rw [stated]
    dsimp only
    rw [number]

private theorem namesAudience?_write (said : Claims) (word : said.expiry ≤ Decimal.maxNat64) :
    namesAudience? (Claims.codec.write said) = some false := by
  have members : Claims.codec.write said =
      123 :: (membersText true [("sub", .text said.subject), ("exp", .ofInt said.expiry)] ++ []) := by
    rw [List.append_nil, ← write_object]
    rfl
  have text : (Tree.text said.subject).Skips := skips_scalar (t := .text said.subject) trivial
  have number : (Tree.ofInt said.expiry).Kept 0 := by
    have low : Decimal.minInt64 = -9223372036854775808 := rfl
    apply kept_ofInt 0 (fits_ofInt _ _)
    · omega
    · omega
  have all : ∀ member ∈ [("sub", Tree.text said.subject), ("exp", .ofInt said.expiry)],
      member.1 ∉ restrictionSchema.map Field.name ∧ member.2.Skips := by
    intro member mem
    simp only [List.mem_cons, List.not_mem_nil, or_false] at mem
    rcases mem with rfl | rfl
    · exact ⟨show "sub" ∉ _ by decide, text⟩
    · exact ⟨show "exp" ∉ _ by decide, skips_scalar number⟩
  have read : Record.readObject restrictionSchema (maxNesting - 1)
      (membersText true [("sub", .text said.subject), ("exp", .ofInt said.expiry)] ++ []) = .ok (_, []) :=
    Record.readObject_unknown rfl all []
  rw [members, namesAudience?, blanks_cons rfl]
  simp only [readAll, read]
  rfl

private theorem headerAlgorithm?_write :
    headerAlgorithm? (Tree.object [("typ", .text "JWT"), ("alg", .text algorithm)]).write = some algorithm := by
  decide +kernel

/-- A client's token is taken as that client's, up to the last second of its leeway. -/
theorem verify_issue {client : Int} {expiry : Nat} (word : IsInt64 client) (fits : expiry ≤ Decimal.maxNat64)
    (current : now ≤ expiry + leeway) : verify secret now (issue secret client expiry) = .ok client := by
  have stated : Claims.codec.decode (Claims.codec.write ⟨toString client, expiry⟩) =
      .ok ⟨toString client, expiry⟩ := decode_written (Claims.readsBack fits) (by decide)
  have named := names_of_headerAlgorithm? headerAlgorithm?_write
  rw [verify_eq_ok_iff]
  refine ⟨⟨toString client, expiry⟩, ?_, Decimal.int64?_toString word⟩
  rw [claims_eq_ok_iff]
  refine ⟨_, _, _, String.toList_ofList, ?_, ?_, ?_⟩
  · exact Base64Url.point_not_mem_encode _
  · exact Base64Url.point_not_mem_encode _
  · exact ⟨⟨_, Base64Url.decode_encode _, headerAlgorithm?_write, named⟩,
      Base64Url.decode_encode _, ⟨_, Base64Url.decode_encode _, stated, namesAudience?_write _ fits⟩, current⟩

/-- A token is taken as a client's if, and only if, it is three parts with points between them: the last is the
code under the secret of the exact text before its point, the first names the one algorithm and no other, and
the claims between them are meant for nobody in particular, have not expired beyond the leeway and spell the
client. The token that is issued to any client is taken as that client's until then. -/
theorem verify_sound_complete (secret : List UInt8) (now : Nat) :
    (∀ token client, verify secret now token = .ok client ↔ ∃ header payload signature said,
      token.toList = header ++ '.' :: payload ++ '.' :: signature ∧ '.' ∉ payload ∧ '.' ∉ signature ∧
        Vouches secret now header payload signature said ∧
        Decimal.Spelled said.subject.toList client ∧ IsInt64 client) ∧
      ∀ client expiry, IsInt64 client → expiry ≤ Decimal.maxNat64 → now ≤ expiry + leeway →
        verify secret now (issue secret client expiry) = .ok client := by
  constructor
  · intro token client
    rw [verify_eq_ok_iff]
    constructor
    · rintro ⟨said, stated, number⟩
      obtain ⟨header, payload, signature, text, pure, clean, vouches⟩ := claims_eq_ok_iff.1 stated
      exact ⟨header, payload, signature, said, text, pure, clean, vouches, Decimal.int64?_eq_ok_iff.1 number⟩
    · rintro ⟨header, payload, signature, said, text, pure, clean, vouches, number⟩
      refine ⟨said, ?_, Decimal.int64?_eq_ok_iff.2 number⟩
      exact claims_eq_ok_iff.2 ⟨header, payload, signature, text, pure, clean, vouches⟩
  · intro client expiry word fits current
    exact verify_issue word fits current

/-- The token of the least client, in the last second of its leeway. -/
theorem verify_sound_complete_least :
    IsInt64 Decimal.minInt64 ∧ 1700000000 ≤ Decimal.maxNat64 ∧ 1700000060 ≤ 1700000000 + leeway ∧
      verify (ascii "s3cret") 1700000060 (issue (ascii "s3cret") Decimal.minInt64 1700000000) =
        .ok Decimal.minInt64 ∧
      ∃ header payload signature said,
        (issue (ascii "s3cret") Decimal.minInt64 1700000000).toList =
          header ++ '.' :: payload ++ '.' :: signature ∧
        Vouches (ascii "s3cret") 1700000060 header payload signature said ∧
        Decimal.Spelled said.subject.toList Decimal.minInt64 := by
  have word : IsInt64 Decimal.minInt64 := by
    constructor
    · decide
    · decide
  have fits : 1700000000 ≤ Decimal.maxNat64 := by decide
  have current : 1700000060 ≤ 1700000000 + leeway := by decide
  obtain ⟨sound, complete⟩ := verify_sound_complete (ascii "s3cret") 1700000060
  have good := complete Decimal.minInt64 1700000000 word fits current
  obtain ⟨header, payload, signature, said, text, _, _, vouches, spelled, _⟩ := (sound _ _).1 good
  exact ⟨word, fits, current, good, header, payload, signature, said, text, vouches, spelled⟩

end Token

end Vetting
