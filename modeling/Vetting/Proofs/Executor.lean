import Vetting.Proofs.Shape

/-!
Operations and their limit. Whoever waits for an operation looks at each moment whether it has answered, and
after that whether the limit is reached; so an operation that answers at the limit is in time. What such a
wait comes to is what `Course.limited` says (`Course.awaited_iff`). With that, what the operation of a task
comes to is settled for every way in which the executors go about it (`Executors.execute_settles`).
-/
namespace Vetting

namespace Course

variable {α : Type} {limit : Option Span} {course : Course α} {outcome : Except ExecutionError α}

/-- What an operation has answered by a moment. -/
def answered? (moment : Nat) : Course α → Option (Except ExecutionError α)
  | .answers latency outcome => if latency.nanos ≤ moment then some outcome else none
  | .hangs => none

/-- Whether a limit is reached at a moment. -/
def Reached (limit : Option Span) (moment : Nat) : Prop := ∃ l, limit = some l ∧ l.nanos ≤ moment

/-- A wait that goes on at a moment ends at another one with an outcome. The operation is looked at before
the limit. -/
inductive Awaited (limit : Option Span) (course : Course α) : Nat → Nat → Except ExecutionError α → Prop
  | answered {moment : Nat} {outcome : Except ExecutionError α}
    (found : course.answered? moment = some outcome) :
    Awaited limit course moment moment outcome
  | givenUp {moment : Nat} {l : Span} (busy : course.answered? moment = none) (limited : limit = some l)
    (late : l.nanos ≤ moment) : Awaited limit course moment moment (.error (.timedOut l))
  | later {moment last : Nat} {outcome : Except ExecutionError α} (busy : course.answered? moment = none)
    (early : ¬ Reached limit moment) (rest : Awaited limit course (moment + 1) last outcome) :
    Awaited limit course moment last outcome

/-- Whether a wait has come to a moment: neither the answer nor the limit was there before. -/
def Waits (limit : Option Span) (course : Course α) (moment : Nat) : Prop :=
  ∀ earlier < moment, course.answered? earlier = none ∧ ¬ Reached limit earlier

private theorem Waits.next {moment : Nat} (waits : Waits limit course moment)
    (busy : course.answered? moment = none)
    (early : ¬ Reached limit moment) : Waits limit course (moment + 1) := by
  intro earlier before
  by_cases now : earlier = moment
  · subst now
    exact ⟨busy, early⟩
  · exact waits earlier (by omega)

private theorem Waits.le_limit {moment : Nat} {l : Span} (waits : Waits (some l) course moment) :
    moment ≤ l.nanos := by
  by_contra after
  exact (waits l.nanos (by omega)).2 ⟨l, rfl, Nat.le_refl _⟩

private theorem Waits.le_latency {moment : Nat} {latency : Span}
    (waits : Waits limit (.answers latency outcome) moment) : moment ≤ latency.nanos := by
  by_contra after
  have busy := (waits latency.nanos (by omega)).1
  simp [answered?] at busy

/-- A wait ends as the limited operation says. -/
theorem Awaited.limited {start last : Nat} (awaited : Awaited limit course start last outcome)
    (waits : Waits limit course start) :
    ∃ latency, course.limited limit = .answers latency outcome ∧ latency.nanos = last := by
  induction awaited with
  | @answered moment outcome found =>
    cases course with
    | hangs => cases found
    | answers latency other =>
      simp only [answered?] at found
      split at found
      · next early =>
        cases found
        have late := waits.le_latency
        refine ⟨latency, ?_, by omega⟩
        cases limit with
        | none => rfl
        | some l =>
          have inTime := waits.le_limit
          rw [Course.limited, if_pos (by omega)]
      · cases found
  | @givenUp moment l busy limited late =>
    subst limited
    have inTime := waits.le_limit
    refine ⟨l, ?_, by omega⟩
    cases course with
    | hangs => rfl
    | answers latency other =>
      simp only [answered?] at busy
      split at busy
      · cases busy
      · rw [Course.limited, if_neg (by omega)]
  | later busy early _ ih => exact ih (waits.next busy early)

private theorem answered?_early {latency : Span} {moment : Nat} (early : moment < latency.nanos) :
    (answers latency outcome).answered? moment = none := if_neg (by omega)

private theorem answered?_late {latency : Span} {moment : Nat} (late : latency.nanos ≤ moment) :
    (answers latency outcome).answered? moment = some outcome := if_pos late

private theorem not_reached_none {moment : Nat} : ¬ Reached none moment := by
  rintro ⟨l, same, _⟩
  cases same

private theorem not_reached_some {l : Span} {moment : Nat} (early : moment < l.nanos) :
    ¬ Reached (some l) moment := by
  rintro ⟨_, ⟨⟩, late⟩
  omega

/-- Before anything has happened a wait goes on. -/
theorem Awaited.earlier {start moment last : Nat} (before : start ≤ moment)
    (waits : Waits limit course moment)
    (awaited : Awaited limit course moment last outcome) : Awaited limit course start last outcome := by
  obtain ⟨gap, rfl⟩ := Nat.exists_eq_add_of_le before
  induction gap with
  | zero => exact awaited
  | succ gap ih =>
    obtain ⟨busy, early⟩ := waits (start + gap) (by omega)
    apply ih (by omega)
    · intro earlier sooner
      exact waits earlier (by omega)
    · exact .later busy early awaited

/-- The limited operation is waited for until it answers. -/
theorem awaited_of_limited {latency : Span} (limited : course.limited limit = .answers latency outcome) :
    Awaited limit course 0 latency.nanos outcome := by
  cases limit with
  | none =>
    obtain rfl : course = .answers latency outcome := limited
    refine Awaited.earlier (Nat.zero_le _) ?_ (.answered (answered?_late (Nat.le_refl _)))
    intro earlier before
    exact ⟨answered?_early before, not_reached_none⟩
  | some l =>
    cases course with
    | hangs =>
      cases limited
      refine Awaited.earlier (Nat.zero_le _) ?_ (.givenUp rfl rfl (Nat.le_refl _))
      intro earlier before
      exact ⟨rfl, not_reached_some before⟩
    | answers due given =>
      rw [Course.limited] at limited
      by_cases inTime : due.nanos ≤ l.nanos
      · rw [if_pos inTime] at limited
        cases limited
        refine Awaited.earlier (Nat.zero_le _) ?_ (.answered (answered?_late (Nat.le_refl _)))
        intro earlier before
        exact ⟨answered?_early before, not_reached_some (by omega)⟩
      · rw [if_neg inTime] at limited
        cases limited
        refine Awaited.earlier (Nat.zero_le _) ?_ (.givenUp (answered?_early (by omega)) rfl (Nat.le_refl _))
        intro earlier before
        exact ⟨answered?_early (by omega), not_reached_some before⟩

/-- A wait for an operation ends when the limited operation answers, and with its outcome. -/
theorem awaited_iff {last : Nat} : Awaited limit course 0 last outcome ↔
    ∃ latency, course.limited limit = .answers latency outcome ∧ latency.nanos = last := by
  constructor
  · intro awaited
    exact awaited.limited nofun
  · rintro ⟨latency, limited, rfl⟩
    exact awaited_of_limited limited

end Course

namespace Executors

/-- The same executors without a limit. -/
def unlimited (executors : Executors) : Executors := { executors with limit := none }

/-- Whether others do what a task asks for as these do it. What they do of the other type does not count. -/
def AgreeOn (executors other : Executors) : Task → Prop
  | .faceMatch task => other.matchFaces task.image1 task.image2 = executors.matchFaces task.image1 task.image2
  | .ocr task => other.readCard task.image = executors.readCard task.image

variable {executors other : Executors} {task : Task} {latency l : Span}

private theorem dispatch_congr (agree : executors.AgreeOn other task) :
    other.dispatch task = executors.dispatch task := by
  cases task with
  | faceMatch task => exact congrArg (Course.map checkScore) agree
  | ocr task => exact congrArg (Course.map fun outcome => outcome.map JobResult.ocr) agree

private theorem execute_of_inTime {outcome : Except ExecutionError JobResult}
    (answers : executors.dispatch task = .answers latency outcome)
    (inTime : ∀ l, executors.limit = some l → latency.nanos ≤ l.nanos) :
    executors.execute task = .answers latency outcome := by
  rw [execute, answers]
  cases limited : executors.limit with
  | none => rfl
  | some l => exact if_pos (inTime l limited)

private theorem execute_of_late (limited : executors.limit = some l)
    (late : ∀ latency outcome, executors.dispatch task = .answers latency outcome → l.nanos < latency.nanos) :
    executors.execute task = .answers l (.error (.timedOut l)) := by
  rw [execute, limited]
  cases course : executors.dispatch task with
  | hangs => rfl
  | answers latency outcome => exact if_neg (Nat.not_le.2 (late latency outcome course))

/-- Whatever the executors do, a result is of the type of the task and a score is in its range; a score beyond
it is told as such. With a limit a task comes to what it comes to without, if it does so by the limit, and is
given up at the limit if not. What the executors do of the other type makes no difference, and who waits for
the task under that limit is told the outcome at that moment. -/
theorem execute_settles (executors : Executors) (task : Task) :
    (∀ latency result, executors.execute task = .answers latency (.ok result) →
      result.jobType = task.jobType ∧ ∀ score, result = .faceMatch score → 1 ≤ score ∧ score ≤ 100) ∧
    (∀ faces latency score, task = .faceMatch faces →
      executors.matchFaces faces.image1 faces.image2 = .answers latency (.ok score) →
      ¬ (1 ≤ score ∧ score ≤ 100) → (∀ l, executors.limit = some l → latency.nanos ≤ l.nanos) →
      executors.execute task = .answers latency (.error (.scoreOutOfRange score))) ∧
    (∀ l, executors.limit = some l →
      (∀ latency outcome, executors.unlimited.execute task = .answers latency outcome →
        latency.nanos ≤ l.nanos → executors.execute task = .answers latency outcome) ∧
      ((∀ latency outcome, executors.unlimited.execute task = .answers latency outcome →
        l.nanos < latency.nanos) → executors.execute task = .answers l (.error (.timedOut l)))) ∧
    (∀ other, other.limit = executors.limit → executors.AgreeOn other task →
      other.execute task = executors.execute task) ∧
    ∀ moment outcome, (executors.dispatch task).Awaited executors.limit 0 moment outcome ↔
      ∃ latency, executors.execute task = .answers latency outcome ∧ latency.nanos = moment := by
  refine ⟨?_, ?_, ?_, ?_, ?_⟩
  · intro latency result answers
    exact execute_fits answers
  · rintro faces latency score rfl scored beyond inTime
    refine execute_of_inTime ?_ inTime
    have checked : checkScore (.ok score) = .error (.scoreOutOfRange score) := if_neg beyond
    rw [dispatch, scored, Course.map, checked]
  · intro l limited
    constructor
    · intro latency outcome answers early
      refine execute_of_inTime answers ?_
      intro m same
      obtain rfl : m = l := Option.some.inj (same.symm.trans limited)
      exact early
    · intro late
      exact execute_of_late limited late
  · intro other same agree
    rw [execute, execute, same, dispatch_congr agree]
  · intro moment outcome
    exact Course.awaited_iff

/-- Executors whose comparison answers just at the limit, and whose reader never answers. -/
def slowExecutors (score : Int) : Executors where
  matchFaces _ _ := .answers (.ofSeconds 30) (.ok score)
  readCard _ := .hangs
  limit := some (.ofSeconds 30)

/-- A score beyond the range is told as such and not as late, the greatest score is a result, and the reader is
given up. -/
theorem execute_settles_slowExecutors :
    (slowExecutors 101).execute (.faceMatch ⟨⟨List.replicate 16 7, rfl⟩, "left", "right"⟩) =
        .answers (.ofSeconds 30) (.error (.scoreOutOfRange 101)) ∧
      (slowExecutors 100).execute (.faceMatch ⟨⟨List.replicate 16 7, rfl⟩, "left", "right"⟩) =
        .answers (.ofSeconds 30) (.ok (.faceMatch 100)) ∧
      (slowExecutors 100).execute (.ocr ⟨⟨List.replicate 16 7, rfl⟩, "card"⟩) =
        .answers (.ofSeconds 30) (.error (.timedOut (.ofSeconds 30))) ∧
      ((slowExecutors 100).dispatch (.ocr ⟨⟨List.replicate 16 7, rfl⟩, "card"⟩)).Awaited
        (some (.ofSeconds 30)) 0 30000000000 (.error (.timedOut (.ofSeconds 30))) := by
  obtain ⟨_, beyond, _⟩ := execute_settles (slowExecutors 101)
    (.faceMatch ⟨⟨List.replicate 16 7, rfl⟩, "left", "right"⟩)
  obtain ⟨_, _, compared, _⟩ := execute_settles (slowExecutors 100)
    (.faceMatch ⟨⟨List.replicate 16 7, rfl⟩, "left", "right"⟩)
  obtain ⟨_, _, read, _, awaited⟩ := execute_settles (slowExecutors 100)
    (.ocr ⟨⟨List.replicate 16 7, rfl⟩, "card"⟩)
  have atLimit : ∀ l, (slowExecutors 101).limit = some l → (Span.ofSeconds 30).nanos ≤ l.nanos := by
    rintro l ⟨⟩
    exact Nat.le_refl _
  have givenUp := (read (.ofSeconds 30) rfl).2 nofun
  refine ⟨beyond _ _ 101 rfl rfl (by decide) atLimit, ?_, givenUp, ?_⟩
  · exact (compared (.ofSeconds 30) rfl).1 _ _ rfl (Nat.le_refl _)
  · exact (awaited _ _).2 ⟨_, givenUp, rfl⟩

end Executors

end Vetting
