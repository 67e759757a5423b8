import Vetting.Digest
import Vetting.Task
import Vetting.Time

/-!
Executors: what compares faces and reads cards, how long that takes, and the limit on it. An
operation that is still running at the limit is given up; one that answers just then is in time.
-/
namespace Vetting

/-- Why an operation gave no result. -/
inductive ExecutionError
  | failed (message : String)
  | scoreOutOfRange (score : Int)
  | timedOut (limit : Span)
  deriving DecidableEq

/-- The wording of an error. -/
def ExecutionError.message : ExecutionError → String
  | .failed message => message
  | .scoreOutOfRange score => "face match score " ++ toString score ++ " is outside 1..=100"
  | .timedOut limit => "operation timed out after " ++ limit.text

/-- How an operation goes: it answers after some time, or never does. -/
inductive Course (α : Type)
  | answers (latency : Span) (outcome : Except ExecutionError α)
  | hangs

namespace Course

/-- The same course with the outcome worked on. -/
def map {α β : Type} (f : Except ExecutionError α → Except ExecutionError β) : Course α → Course β
  | .answers latency outcome => .answers latency (f outcome)
  | .hangs => .hangs

/-- Gives an operation up at the limit. -/
def limited {α : Type} (limit : Option Span) (course : Course α) : Course α :=
  match limit, course with
  | none, course => course
  | some limit, .hangs => .answers limit (.error (.timedOut limit))
  | some limit, .answers latency outcome =>
    if latency.nanos ≤ limit.nanos then .answers latency outcome
    else .answers limit (.error (.timedOut limit))

end Course

/-- The least and the greatest score of a comparison. -/
def leastScore : Int := 1
def greatestScore : Int := 100

/-- What runs the operations, and the longest that one may take. -/
structure Executors where
  matchFaces : String → String → Course Int
  readCard : String → Course OcrDetails
  limit : Option Span

namespace Executors

/-- A score counts only within its range. -/
def checkScore : Except ExecutionError Int → Except ExecutionError JobResult
  | .error e => .error e
  | .ok score =>
    if leastScore ≤ score ∧ score ≤ greatestScore then .ok (.faceMatch score)
    else .error (.scoreOutOfRange score)

/-- The operation of a task without the limit. -/
def dispatch (executors : Executors) : Task → Course JobResult
  | .faceMatch task => (executors.matchFaces task.image1 task.image2).map checkScore
  | .ocr task => (executors.readCard task.image).map fun outcome => outcome.map .ocr

/-- The operation of a task. -/
def execute (executors : Executors) (task : Task) : Course JobResult :=
  (executors.dispatch task).limited executors.limit

end Executors

/-- The score of a pair from the digest of the two references in order, one a line: its first two
bytes, taken modulo one hundred, and one. -/
def simulatedScore (image1 image2 : String) : Int :=
  let (low, high) := if image2 < image1 then (image2, image1) else (image1, image2)
  match Sha256.digest (Utf8.encode (low ++ "\n" ++ high)) with
  | a :: b :: _ => ((a.toNat * 256 + b.toNat) % 100 + 1 : Nat)
  | _ => 1

/-- The identity that the stand-in reads on every card. -/
def simulatedDetails : OcrDetails where
  name := "John Adams"
  gender := "Male"
  dateOfBirth := "1990-01-24"
  idNumber := "1234-1234-1234"
  addressLine1 := "A2, 201, Amar Villa"
  addressLine2 := "MG Road, Pune"
  pincode := "411004"

/-- A comparison that takes its score from the references, and a reader that knows one identity. -/
def simulatedMatch (latency : Span) (image1 image2 : String) : Course Int :=
  .answers latency (.ok (simulatedScore image1 image2))

def simulatedRead (latency : Span) (_ : String) : Course OcrDetails :=
  .answers latency (.ok simulatedDetails)

end Vetting
