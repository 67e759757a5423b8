import Vetting.Proofs.Json.Codec
import Vetting.Task

/-!
Payloads: the bytes that carry a task carry no other, whatever the references hold
(`decode_encode`, `payload_roundtrip`). On the way, a job id reads back from its written form (`parse?_text`).
-/
namespace Vetting

namespace Hex

private theorem digit?_digit : ∀ n : Fin 16, digit? (digit n) = some n.val := by decide

@[simp] theorem decode_encode (bytes : List UInt8) : decode (encode bytes) = some bytes := by
  induction bytes with
  | nil => rfl
  | cons b bytes ih =>
    have high : b.toNat / 16 < 16 := by have := b.toNat_lt; omega
    have low : b.toNat % 16 < 16 := Nat.mod_lt _ (by decide)
    have digits : encode (b :: bytes) = digit (b.toNat / 16) :: digit (b.toNat % 16) :: encode bytes := rfl
    have whole : b.toNat / 16 * 16 + b.toNat % 16 = b.toNat := by omega
    rw [digits, decode, digit?_digit ⟨_, high⟩, digit?_digit ⟨_, low⟩, ih]
    simp [whole]

@[simp] theorem length_encode (bytes : List UInt8) : (encode bytes).length = 2 * bytes.length := by
  induction bytes with
  | nil => rfl
  | cons b bytes ih => rw [encode, List.flatMap_cons, List.length_append, ← encode, ih]; simp [byte]; omega

end Hex

namespace JobId

@[simp] theorem length_digits (id : JobId) : id.digits.length = 32 := by
  rw [digits, Hex.length_encode, id.length_eq]

@[simp] theorem ofDigits?_digits (id : JobId) : ofDigits? id.digits = some id := by
  rw [ofDigits?, digits, Hex.decode_encode]
  simp [ofBytes?, id.length_eq]

private theorem length_hyphenate {digits : List Char} (length : digits.length = 32) :
    (hyphenate digits).length = 36 := by
  simp [hyphenate, length]

private theorem ofHyphenated?_hyphenate {digits : List Char} (length : digits.length = 32) :
    ofHyphenated? (hyphenate digits) = ofDigits? digits := by
  have groups : ∃ a b c d e : List Char, digits = a ++ (b ++ (c ++ (d ++ e))) ∧
      a.length = 8 ∧ b.length = 4 ∧ c.length = 4 ∧ d.length = 4 ∧ e.length = 12 := by
    refine ⟨digits.take 8, (digits.drop 8).take 4, (digits.drop 12).take 4, (digits.drop 16).take 4,
      digits.drop 20, ?_, by simp [length], by simp [length], by simp [length], by simp [length],
      by simp [length]⟩
    have join : ∀ m n : Nat, (digits.drop m).take n ++ digits.drop (m + n) = digits.drop m := by
      intro m n
      rw [← List.drop_drop, List.take_append_drop]
    rw [join 16 4, join 12 4, join 8 4, List.take_append_drop]
  obtain ⟨a, b, c, d, e, rfl, la, lb, lc, ld, le⟩ := groups
  have spread : hyphenate (a ++ (b ++ (c ++ (d ++ e)))) =
      a ++ '-' :: (b ++ '-' :: (c ++ '-' :: (d ++ '-' :: e))) := by
    simp (disch := omega) [hyphenate, List.drop_append, la, lb, lc, List.drop_of_length_le]
  rw [ofHyphenated?, spread]
  simp (disch := omega) [List.drop_append, la, lb, lc, ld, List.drop_of_length_le, spread]

private theorem parse?_of_length {text : String} (length : text.toList.length = 36) :
    parse? text = ofHyphenated? text.toList := by
  simp only [parse?, length]

@[simp] theorem parse?_text (id : JobId) : parse? id.text = some id := by
  have length := length_hyphenate id.length_digits
  have list : id.text.toList = hyphenate id.digits := String.toList_ofList
  rw [parse?_of_length (by rw [list, length]), list, ofHyphenated?_hyphenate id.length_digits,
    ofDigits?_digits]

end JobId

open Json

theorem readsBack_jobId (depth : Nat) (id : JobId) : ReadsBack JobId.codec depth id := by
  rw [JobId.codec]
  apply readsBack_parsed
  exact id.parse?_text

theorem readsBack_jobType (depth : Nat) (type : JobType) : ReadsBack JobType.codec depth type :=
  readsBack_choice depth (by cases type <;> decide)

namespace Task

private theorem readsBack_faceMatch (task : FaceMatchTask) : ReadsBack FaceMatchTask.codec 1 task := by
  apply ReadsBack.map
  · apply readsBack_record
    · decide
    · simp only [FaceMatchTask.schema, Record.All]
      refine ⟨readsBack_jobId 0 _, ?_, ?_, trivial⟩
      · exact readsBack_text 0 task.image1
      · exact readsBack_text 0 task.image2
  · rfl

private theorem readsBack_ocr (task : OcrTask) : ReadsBack OcrTask.codec 1 task := by
  apply ReadsBack.map
  · apply readsBack_record
    · decide
    · simp only [OcrTask.schema, Record.All]
      exact ⟨readsBack_jobId 0 _, readsBack_text 0 task.image, trivial⟩
  · rfl

/-- The content of an envelope. -/
def content : Task → Tree
  | .faceMatch task => FaceMatchTask.codec.toTree task
  | .ocr task => OcrTask.codec.toTree task

private theorem toTree_eq (task : Task) :
    task.toTree = .object [(Part.type.name, JobType.codec.toTree task.jobType),
      (Part.content.name, task.content)] := by
  cases task <;> rfl

private theorem readContent_written (task : Task) {nesting : Nat} {rest : Input} (deep : 1 ≤ nesting)
    (ends : Ends rest) :
    readContent nesting task.jobType (task.content.write ++ rest) = .ok (task, rest) := by
  cases task with
  | faceMatch task =>
    have read := readsBack_faceMatch task deep ends
    rw [Codec.write] at read
    simp only [readContent, jobType, content, read, Except.map]
  | ocr task =>
    have read := readsBack_ocr task deep ends
    rw [Codec.write] at read
    simp only [readContent, jobType, content, read, Except.map]

@[simp] theorem Part.ofName?_name (part : Part) : ofName? part.name = some part := by
  cases part <;> decide

/-- One round reads the value of a member that has not come before. -/
theorem envelopeStep_eq {nesting : Nat} {first : Bool} {envelope : Envelope} {part : Part}
    {s key after : Input} (found : nextKey first s = .ok (some key))
    (named : textBody key = .ok (part.name, after)) (fresh : envelope.repeats part = false) :
    envelopeStep nesting (first, envelope) s =
      (match colon after with
        | .error fault => Except.error fault
        | .ok value => envelope.readPart nesting part value).map
          fun (envelope, left) => (.more (false, envelope), left) := by
  simp only [envelopeStep, found, named, Part.ofName?_name, fresh, Bool.false_eq_true, ↓reduceIte]
  cases colon after with
  | error fault => rfl
  | ok value => rfl

theorem readPart_empty (nesting : Nat) (s : Input) : Envelope.empty.readPart nesting .type s =
    (JobType.codec.read nesting s).map fun (type, rest) => (.typed type, rest) := rfl

theorem readPart_type (task : Task) (nesting : Nat) {rest : Input} (ends : Ends rest) :
    Envelope.empty.readPart nesting .type ((JobType.codec.toTree task.jobType).write ++ rest) =
      .ok (.typed task.jobType, rest) := by
  have read := readsBack_jobType 0 task.jobType (Nat.zero_le nesting) ends
  rw [Codec.write] at read
  rw [readPart_empty, read]
  rfl

theorem readPart_content (task : Task) {nesting : Nat} (deep : 1 ≤ nesting) {rest : Input}
    (ends : Ends rest) :
    (Envelope.typed task.jobType).readPart nesting .content (task.content.write ++ rest) =
      .ok (.full task, rest) := by
  rw [Envelope.readPart, readContent_written task deep ends]
  rfl

/-- The members of an envelope. -/
def members (task : Task) : List (String × Tree) :=
  [(Part.type.name, JobType.codec.toTree task.jobType), (Part.content.name, task.content)]

theorem encode_eq (task : Task) : task.encode = 123 :: membersText true task.members := by
  rw [encode, toTree_eq, write_object, members]

private theorem readObject_written (task : Task) {nesting : Nat} (deep : 1 ≤ nesting) (rest : Input) :
    readObject nesting (membersText true task.members ++ rest) = .ok (task, rest) := by
  have first : envelopeStep nesting (true, .empty) (membersText true task.members ++ rest) = .ok
      (.more (false, .typed task.jobType),
        membersText false [(Part.content.name, task.content)] ++ rest) := by
    rw [members, envelopeStep_eq (nextKey_member true _ _ _ _) (textBody_written _ _) rfl, colon_next]
    simp only [readPart_type task nesting (ends_members _ rest), Except.map]
  have second : envelopeStep nesting (false, .typed task.jobType)
      (membersText false [(Part.content.name, task.content)] ++ rest) =
      .ok (.more (false, .full task), membersText false [] ++ rest) := by
    rw [envelopeStep_eq (nextKey_member false _ _ _ _) (textBody_written _ _) rfl, colon_next]
    simp only [readPart_content task deep (ends_members _ rest), Except.map]
  have third : envelopeStep nesting (false, .full task) (membersText false [] ++ rest) =
      .ok (.done (.full task), 125 :: rest) := by
    simp only [envelopeStep, nextKey_end]
    simp [membersText]
  have rounds : ∃ more, (membersText true task.members ++ rest).length + 1 = more + 3 :=
    ⟨_, (Nat.sub_add_cancel (by simp [members, membersText, writeText]; omega)).symm⟩
  obtain ⟨more, rounds⟩ := rounds
  rw [readObject, iterate, rounds]
  simp only [iterateFor, first, second, third, Envelope.complete]
  simp [closeObject, blanks_cons (b := 125) rfl]

/-- A task is read from its payload, whatever follows. -/
@[simp] theorem read_encode (task : Task) (rest : Input) :
    read maxNesting (task.encode ++ rest) = .ok (task, rest) := by
  rw [encode_eq, List.cons_append, read.eq_def]
  simp only [blanks_cons (b := 123) rfl]
  exact readObject_written task (by decide) rest

/-- Every task reads back from its payload. -/
@[simp] theorem decode_encode (task : Task) : decode task.encode = .ok task := by
  have read := read_encode task []
  rw [List.append_nil] at read
  rw [decode, readAll, read]
  rfl

/-- Every task reads back from its payload, so no two tasks have one payload. A payload that others wrote,
in whatever form, carries the same task as the payload that is written for what it carries. -/
theorem payload_roundtrip : (∀ task, decode task.encode = .ok task) ∧ Function.Injective encode ∧
    ∀ payload task, decode payload = .ok task → decode task.encode = decode payload := by
  refine ⟨decode_encode, ?_, ?_⟩
  · intro task other same
    have read : Except.ok task = (Except.ok other : Except Fault Task) :=
      calc Except.ok task
        _ = decode task.encode := (decode_encode task).symm
        _ = decode other.encode := by rw [same]
        _ = Except.ok other := decode_encode other
    exact Except.ok.inj read
  · intro payload task carried
    rw [carried]
    exact decode_encode task

/-- An envelope in a list, with blanks, an escape, a member more, and an id without hyphens. -/
def foreignPayload : List UInt8 :=
  ascii " [\"ocr\", \x7b\"more\": [1], \"image\": \"\\u0063ard\", \"job_id\": \"0A000000000000000000000000000000\"\x7d]"

/-- What it carries is written otherwise, and reads back. -/
theorem payload_roundtrip_foreign : ∃ task, decode foreignPayload = .ok task ∧ task.images = ["card"] ∧
    task.encode ≠ foreignPayload ∧ decode task.encode = .ok task := by
  have carried : decode foreignPayload = .ok (.ocr ⟨⟨10 :: List.replicate 15 0, rfl⟩, "card"⟩) := by
    decide +kernel
  refine ⟨_, carried, rfl, by decide +kernel, ?_⟩
  exact (payload_roundtrip.2.2 foreignPayload _ carried).trans carried

/-- The job that a payload is for. -/
def named? (payload : List UInt8) : Option JobId := (decode payload).toOption.map jobId

@[simp] theorem named?_encode (task : Task) : named? task.encode = some task.jobId := by
  rw [named?, decode_encode]
  rfl

end Task

end Vetting
