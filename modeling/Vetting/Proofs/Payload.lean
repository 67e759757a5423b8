import Vetting.Proofs.Json.Truncation
import Vetting.Proofs.Task

/-!
Payloads that were cut short, and payloads that something was added to (`Task.payload_delimited`). A
payload that breaks off anywhere carries no task, and the reader misses its end; blanks after a payload
change nothing, and with anything else after it the payload carries no task either. So no payload starts
another, and several in a row are not taken for one.
-/
namespace Vetting

open Json

namespace Task

private theorem firm_id (id : JobId) : ReadsBack JobId.codec 0 id ∧ Tears JobId.codec 0 id :=
  ⟨readsBack_jobId 0 id, tears_parsed 0 id⟩

private theorem firm_text (text : String) : ReadsBack .text 0 text ∧ Tears .text 0 text :=
  ⟨readsBack_text 0 text, tears_text 0 text⟩

private theorem tears_faceMatch (task : FaceMatchTask) : Tears FaceMatchTask.codec 1 task := by
  apply Tears.map
  apply tears_record
  · decide
  · exact ⟨firm_id task.jobId, firm_text task.image1, firm_text task.image2, trivial⟩

private theorem tears_ocr (task : OcrTask) : Tears OcrTask.codec 1 task := by
  apply Tears.map
  apply tears_record
  · decide
  · exact ⟨firm_id task.jobId, firm_text task.image, trivial⟩

variable {nesting : Nat} {torn : Input}

private theorem ended_readContent (task : Task) (deep : 1 ≤ nesting) (cut : Torn torn task.content.write) :
    Ended (readContent nesting task.jobType torn) := by
  cases task with
  | faceMatch task => exact (tears_faceMatch task deep cut).map
  | ocr task => exact (tears_ocr task deep cut).map

private theorem envelopeStep_key {first : Bool} {envelope : Envelope} {s : Input} {fault : Fault}
    (told : nextKey first s = .error fault) :
    envelopeStep nesting (first, envelope) s = .error fault := by
  rw [envelopeStep, told]

private theorem takesMember (first : Bool) {envelope : Envelope} {part : Part}
    (fresh : envelope.repeats part = false) :
    TakesMember (envelopeStep nesting) first (first, envelope) part.name
      (envelope.readPart nesting part) fun envelope => (false, envelope) where
  keyless := envelopeStep_key
  nameless found told := by simp only [envelopeStep, found, told]
  taken found named := envelopeStep_eq found named fresh

private theorem ended_readPart_type (task : Task)
    (cut : Torn torn (JobType.codec.toTree task.jobType).write) :
    Ended (Envelope.empty.readPart nesting .type torn) := by
  rw [readPart_empty]
  exact (tears_choice 0 task.jobType (Nat.zero_le nesting) cut).map

private theorem ended_readPart_content (task : Task) (deep : 1 ≤ nesting)
    (cut : Torn torn task.content.write) :
    Ended ((Envelope.typed task.jobType).readPart nesting .content torn) :=
  (ended_readContent task deep cut).map

/-- An envelope is cut in its type, in its content or before its brace. -/
theorem ended_readObject (task : Task) (deep : 1 ≤ nesting)
    (cut : Torn torn (membersText true task.members)) : Ended (readObject nesting torn) := by
  have type : TakesMember (envelopeStep nesting) true (true, .empty) Part.type.name
      (Envelope.empty.readPart nesting .type) fun envelope => (false, envelope) := takesMember true rfl
  have content : TakesMember (envelopeStep nesting) false (false, .typed task.jobType) Part.content.name
      ((Envelope.typed task.jobType).readPart nesting .content) fun envelope => (false, envelope) :=
    takesMember false rfl
  have missed : Ended (iterateFor (envelopeStep nesting) (torn.length + 1) (true, .empty) torn) := by
    refine type.ended (fun left => ended_readPart_type task)
      (fun left => readPart_type task nesting) ?_ _ cut
    intro rounds left cut
    refine content.ended (fun left => ended_readPart_content task deep)
      (fun left => readPart_content task deep) ?_ rounds cut
    intro rounds left cut
    exact ended_end envelopeStep_key rounds cut
  obtain ⟨fault, told, ended⟩ := missed
  rw [readObject, iterate, told]
  exact .error ended

/-- A payload that breaks off is missed at the cut. -/
theorem ended_decode (task : Task) (cut : Torn torn task.encode) : Ended (decode torn) := by
  have missed : Ended (read maxNesting torn) := by
    rw [encode_eq] at cut
    rcases torn_cons cut with rfl | ⟨members, rfl, left⟩
    · rw [read.eq_def]
      exact .error rfl
    · rw [read.eq_def]
      simp only [blanks_cons (b := 123) rfl]
      exact ended_readObject task (by decide) left
  obtain ⟨fault, told, ended⟩ := missed
  rw [decode, readAll, told]
  exact .error ended

private theorem decode_padded (task : Task) {more : Input} (blank : ∀ b ∈ more, isBlank b = true) :
    decode (task.encode ++ more) = .ok task := by
  have none : blanks more = [] := List.dropWhile_eq_nil_iff.2 blank
  simp only [decode, readAll, read_encode, none]

private theorem decode_extended (task : Task) {more : Input} (marked : ∃ b ∈ more, isBlank b = false) :
    ∃ fault, decode (task.encode ++ more) = .error fault ∧ fault.category = .malformed := by
  obtain ⟨b, mem, mark⟩ := marked
  have left : blanks more ≠ [] := by
    intro none
    have blank := List.dropWhile_eq_nil_iff.1 none b mem
    rw [mark] at blank
    cases blank
  obtain ⟨first, rest, found⟩ := List.exists_cons_of_ne_nil left
  refine ⟨.on .trailingCharacters (first :: rest), ?_, rfl⟩
  simp only [decode, readAll, read_encode, found]

/-- No payload is taken for another one, or for part of one. -/
structure Delimited (task : Task) : Prop where
  cut : ∀ torn, torn <+: task.encode → torn ≠ task.encode →
    ∃ fault, decode torn = .error fault ∧ fault.category = .ended
  padded : ∀ more, (∀ b ∈ more, isBlank b = true) → decode (task.encode ++ more) = .ok task
  extended : ∀ more, (∃ b ∈ more, isBlank b = false) →
    ∃ fault, decode (task.encode ++ more) = .error fault ∧ fault.category = .malformed
  apart : ∀ other : Task, task.encode <+: other.encode → task = other
  joined : ∀ (other : Task) (more : List UInt8),
    ∃ fault, decode (task.encode ++ (other.encode ++ more)) = .error fault ∧ fault.category = .malformed

/-- Wherever the payload of a task is cut its end is missed, and nothing but blanks may follow it. -/
theorem payload_delimited (task : Task) : task.Delimited where
  cut torn before shorter := task.ended_decode (torn_iff.2 ⟨before, shorter⟩)
  padded more blank := task.decode_padded blank
  extended more marked := task.decode_extended marked
  apart other starts := by
    by_cases same : task.encode = other.encode
    · have read : Except.ok task = (Except.ok other : Except Fault Task) := by
        rw [← decode_encode task, same, decode_encode other]
      exact Except.ok.inj read
    · obtain ⟨fault, told, _⟩ := other.ended_decode (torn_iff.2 ⟨starts, same⟩)
      rw [decode_encode] at told
      cases told
  joined other more := by
    refine task.decode_extended ⟨123, ?_, rfl⟩
    rw [encode_eq]
    exact List.mem_cons_self

end Task

end Vetting
