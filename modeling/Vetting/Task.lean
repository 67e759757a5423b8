import Vetting.Job

/-!
Tasks: what a worker is asked to do, and the envelope in which the queue carries it, an object with
the job type under `type` and the rest under `msg`. Main definitions: `Task.encode` and
`Task.decode`.
-/
namespace Vetting

open Json

/-- The comparison of two faces. -/
structure FaceMatchTask where
  jobId : JobId
  image1 : String
  image2 : String
  deriving DecidableEq

/-- The reading of an identity card. -/
structure OcrTask where
  jobId : JobId
  image : String
  deriving DecidableEq

namespace FaceMatchTask

def schema : Schema :=
  [⟨"job_id", JobId, JobId.codec⟩, ⟨"image1", String, .text⟩, ⟨"image2", String, .text⟩]

def codec : Codec FaceMatchTask :=
  (Codec.record "FaceMatchTask" schema).map (fun (id, image1, image2, ()) => ⟨id, image1, image2⟩)
    fun task => (task.jobId, task.image1, task.image2, ())

end FaceMatchTask

namespace OcrTask

def schema : Schema := [⟨"job_id", JobId, JobId.codec⟩, ⟨"image", String, .text⟩]

def codec : Codec OcrTask :=
  (Codec.record "OcrTask" schema).map (fun (id, image, ()) => ⟨id, image⟩)
    fun task => (task.jobId, task.image, ())

end OcrTask

/-- What a worker is asked to do for one job. -/
inductive Task
  | faceMatch (task : FaceMatchTask)
  | ocr (task : OcrTask)
  deriving DecidableEq

namespace Task

/-- The task of a job over its images, if they are as many as the type needs. -/
def ofImages? (type : JobType) (id : JobId) (images : List String) : Option Task :=
  match type, images with
  | .faceMatch, [image1, image2] => some (.faceMatch ⟨id, image1, image2⟩)
  | .ocr, [image] => some (.ocr ⟨id, image⟩)
  | _, _ => none

/-- The job that the task belongs to. -/
def jobId : Task → JobId
  | .faceMatch task => task.jobId
  | .ocr task => task.jobId

def jobType : Task → JobType
  | .faceMatch _ => .faceMatch
  | .ocr _ => .ocr

/-- The images to work on, in order. -/
def images : Task → List String
  | .faceMatch task => [task.image1, task.image2]
  | .ocr task => [task.image]

/-- The content of an envelope of the given type, from the text. -/
def readContent (nesting : Nat) : JobType → Reader Task
  | .faceMatch, s => (FaceMatchTask.codec.read nesting s).map fun (t, rest) => (.faceMatch t, rest)
  | .ocr, s => (OcrTask.codec.read nesting s).map fun (t, rest) => (.ocr t, rest)

/-- The content of an envelope of the given type, from a tree. -/
def contentOfTree (t : Tree) : JobType → Except Cause Task
  | .faceMatch => (FaceMatchTask.codec.ofTree t).map .faceMatch
  | .ocr => (OcrTask.codec.ofTree t).map .ocr

/-- The two members that an envelope needs. -/
inductive Part
  | type
  | content
  deriving DecidableEq

namespace Part

def name : Part → String
  | .type => "type"
  | .content => "msg"

def ofName? (text : String) : Option Part :=
  if text = "type" then some .type else if text = "msg" then some .content else none

end Part

/-- What has been read of an envelope. A content that comes before its type is kept as a tree until
the type is known. -/
inductive Envelope
  | empty
  | typed (type : JobType)
  | kept (content : Tree)
  | full (task : Task)

namespace Envelope

/-- The member that may not come again. -/
def repeats : Envelope → Part → Bool
  | .empty, _ => false
  | .typed _, part => part = .type
  | .kept _, part => part = .content
  | .full _, _ => true

/-- The task, or the member that is missing. -/
def complete : Envelope → Except Cause Task
  | .empty => .error (.missingMember Part.type.name)
  | .typed _ => .error (.missingMember Part.content.name)
  | .kept _ => .error (.missingMember Part.type.name)
  | .full task => .ok task

/-- Reads the value of a member that has not come before. A fault of a kept content, which has no
place of its own, is told at the end of the object. -/
def readPart (nesting : Nat) (part : Part) (envelope : Envelope) : Reader Envelope := fun s =>
  match part, envelope with
  | .content, .typed type => (readContent nesting type s).map fun (task, rest) => (.full task, rest)
  | .content, _ => (tree nesting s).map fun (content, rest) => (.kept content, rest)
  | .type, .kept content =>
    match JobType.codec.read nesting s with
    | .error fault => .error fault
    | .ok (type, rest) =>
      match contentOfTree content type with
      | .error cause => .error (.atEnd cause pastObject rest)
      | .ok task => .ok (.full task, rest)
  | .type, _ => (JobType.codec.read nesting s).map fun (type, rest) => (.typed type, rest)

end Envelope

/-- One more member of an envelope; members with other names are passed over. -/
def envelopeStep (nesting : Nat) (state : Bool × Envelope) :
    Reader (Round (Bool × Envelope) Envelope) := fun s =>
  let (first, envelope) := state
  match nextKey first s with
  | .error fault => .error fault
  | .ok none => .ok (.done envelope, s)
  | .ok (some s) =>
    match textBody s with
    | .error fault => .error fault
    | .ok (key, rest) =>
      match Part.ofName? key with
      | some part =>
        if envelope.repeats part then
          .error (.atEnd (.repeatedMember part.name) pastObject rest)
        else
          match colon rest with
          | .error fault => .error fault
          | .ok rest =>
            (envelope.readPart nesting part rest).map fun (envelope, rest) =>
              (.more (false, envelope), rest)
      | none =>
        match colon rest with
        | .error fault => .error fault
        | .ok rest => (skip rest).map fun (_, rest) => (.more (false, envelope), rest)

/-- An envelope as an object, after its brace. -/
def readObject (nesting : Nat) : Reader Task := fun s =>
  match iterate (envelopeStep nesting) (true, .empty) s with
  | .error fault => .error (fault.leaving pastObject s)
  | .ok (envelope, rest) =>
    match envelope.complete with
    | .error cause => .error (.before cause (pastObject rest))
    | .ok task =>
      match closeObject rest with
      | .error fault => .error fault
      | .ok rest => .ok (task, rest)

/-- The name of a type, as a string only. -/
def readTypeName : Reader JobType := fun s =>
  match text "variant identifier" s with
  | .error fault => .error fault
  | .ok (name, rest) =>
    match Codec.named (JobType.all.map fun type => (type.name, type)) name with
    | .error cause => .error (.before cause rest)
    | .ok type => .ok (type, rest)

/-- The type and the content in a list. -/
def readItems (nesting : Nat) : Reader Task := fun s =>
  let short (count : Nat) : Cause := .wrongLength count "adjacently tagged enum TaskMessage"
  match nextItem true s with
  | .error fault => .error fault
  | .ok none => .error (.atEnd (short 0) pastList s)
  | .ok (some s) =>
    match readTypeName s with
    | .error fault => .error fault
    | .ok (type, s) =>
      match nextItem false s with
      | .error fault => .error fault
      | .ok none => .error (.atEnd (short 1) pastList s)
      | .ok (some s) => readContent nesting type s

/-- An envelope as a list of type and content, after its bracket. -/
def readList (nesting : Nat) : Reader Task := fun s =>
  match readItems nesting s with
  | .error fault => .error (fault.leaving pastList s)
  | .ok (task, rest) =>
    match closeList rest with
    | .error fault => .error fault
    | .ok rest => .ok (task, rest)

/-- An envelope in either form. -/
def read : Nat → Reader Task
  | nesting, s =>
    match blanks s, nesting with
    | 123 :: rest, 0 => .error (.on .tooDeep (123 :: rest))
    | 91 :: rest, 0 => .error (.on .tooDeep (91 :: rest))
    | 123 :: rest, nesting + 1 => readObject nesting rest
    | 91 :: rest, nesting + 1 => readList nesting rest
    | s, _ => .error (mismatch "adjacently tagged enum TaskMessage" s)

/-- The envelope of a task. -/
def toTree (task : Task) : Tree :=
  let content := match task with
    | .faceMatch t => FaceMatchTask.codec.toTree t
    | .ocr t => OcrTask.codec.toTree t
  .object [(Part.type.name, JobType.codec.toTree task.jobType), (Part.content.name, content)]

/-- The payload that carries a task. -/
def encode (task : Task) : List UInt8 := task.toTree.write

/-- The task that a payload carries. -/
def decode (payload : List UInt8) : Except Fault Task := readAll (read maxNesting) payload

end Task

end Vetting
