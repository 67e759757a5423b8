import Vetting.Job

/-!
What is counted, and how the counts are told to a monitor: a line each, with lines on the kind of a
metric and, where wanted, on its meaning. A metric that was never counted is not told.
-/
namespace Vetting

/-- What is counted. -/
inductive Counter
  /-- Jobs accepted and queued. -/
  | submitted (type : JobType)
  /-- Submissions answered with an id that was there before. -/
  | deduplicated (type : JobType)
  | completed (type : JobType)
  | failed (type : JobType)
  /-- Payloads that carry no task. -/
  | poison
  /-- Operations that ran to an end or to their limit. -/
  | executed (type : JobType)
  deriving DecidableEq, Repr

namespace Counter

/-- All counters, in the order of their lines. -/
def all : List Counter :=
  [.executed .faceMatch, .executed .ocr, .completed .faceMatch, .completed .ocr,
    .deduplicated .faceMatch, .deduplicated .ocr, .failed .faceMatch, .failed .ocr,
    .submitted .faceMatch, .submitted .ocr, .poison]

/-- The name of the metric. -/
def metric : Counter → String
  | .submitted _ => "kyc_jobs_submitted_total"
  | .deduplicated _ => "kyc_jobs_deduplicated_total"
  | .completed _ => "kyc_jobs_completed_total"
  | .failed _ => "kyc_jobs_failed_total"
  | .poison => "kyc_poison_messages_total"
  | .executed _ => "kyc_job_processing_seconds"

/-- The meaning of the metric. -/
def help : Counter → String
  | .submitted _ => "Jobs accepted and queued"
  | .deduplicated _ => "Submissions answered with an existing job id"
  | .completed _ => "Jobs that reached completed"
  | .failed _ => "Jobs that reached failed"
  | .poison => "Queue messages discarded because they could not be parsed"
  | .executed _ => "Time spent running a job's operation"

/-- The kind of the metric: running times are summarised, of which the count is told here. -/
def kind : Counter → String
  | .executed _ => "summary"
  | _ => "counter"

/-- The job type that a count is about. -/
def jobType? : Counter → Option JobType
  | .submitted t | .deduplicated t | .completed t | .failed t | .executed t => some t
  | .poison => none

/-- The name of the count in its line. -/
def series (c : Counter) : String :=
  c.metric ++ (match c with
    | .executed _ => "_count"
    | _ => "") ++
  match c.jobType? with
    | some t => "\x7bjob_type=\"" ++ t.name ++ "\"\x7d"
    | none => ""

end Counter

/-- The counts so far. -/
structure Metrics where
  count : Counter → Nat

namespace Metrics

/-- Nothing counted. -/
def zero : Metrics := ⟨fun _ => 0⟩

/-- Counts once more. -/
def increment (m : Metrics) (c : Counter) : Metrics :=
  ⟨fun d => if d = c then m.count d + 1 else m.count d⟩

@[simp] theorem count_increment (m : Metrics) (c d : Counter) :
    (m.increment c).count d = if d = c then m.count d + 1 else m.count d := rfl

/-- The lines for a monitor, in ascending order and each once; `described` tells whether the meaning
of metrics is told too. -/
def lines (described : Bool) (m : Metrics) : List String :=
  let counted := Counter.all.filter fun c => m.count c > 0
  let told (line : Counter → String) : List String := (counted.map line).eraseDups
  (if described then told fun c => "# HELP " ++ c.metric ++ " " ++ c.help else []) ++
    (told fun c => "# TYPE " ++ c.metric ++ " " ++ c.kind) ++
    counted.map fun c => c.series ++ " " ++ toString (m.count c)

end Metrics

end Vetting
