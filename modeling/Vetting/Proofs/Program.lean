import Vetting.Program

/-!
The calls that a program can make and the results that it can come to, whatever it is answered
(`Program.Within`, `Program.Yields`) or when what it hears is true (`Program.Obeys`), the calls that it makes
when it is run (`Program.calls`), and where a program that is stopped before a call comes to rest
(`stops_of_runUntil`).
-/
namespace Vetting.Program

variable {Call : Type} {Reply : Call → Type} {σ α β : Type}

/-- Whether a program makes no calls but such. -/
def Within (Allowed : Call → Prop) : Program Call Reply α → Prop
  | .done _ => True
  | .call c next => Allowed c ∧ ∀ reply, (next reply).Within Allowed

namespace Within

variable {Allowed Wider : Call → Prop} {p : Program Call Reply α}

theorem bind {f : α → Program Call Reply β} (first : p.Within Allowed)
    (second : ∀ a, (f a).Within Allowed) : (p.bind f).Within Allowed := by
  induction p with
  | done a => exact second a
  | call c next ih => exact ⟨first.1, fun reply => ih reply (first.2 reply)⟩

theorem imp (within : p.Within Allowed) (wider : ∀ c, Allowed c → Wider c) : p.Within Wider := by
  induction p with
  | done a => trivial
  | call c next ih => exact ⟨wider c within.1, fun reply => ih reply (within.2 reply)⟩

theorem loop {turn : σ → Program Call Reply (σ ⊕ α)} (turns : ∀ s, (turn s).Within Allowed)
    (count : Nat) (s : σ) : (Program.loop turn count s).Within Allowed := by
  induction count generalizing s with
  | zero => trivial
  | succ count ih =>
    refine bind (turns s) fun outcome => ?_
    cases outcome with
    | inl s => exact ih s
    | inr a => trivial

end Within

/-- Whether a program comes to no results but such. -/
def Yields (Good : α → Prop) : Program Call Reply α → Prop
  | .done a => Good a
  | .call _ next => ∀ reply, (next reply).Yields Good

theorem Yields.run {Good : α → Prop} {perform : Performer Call Reply σ} {p : Program Call Reply α}
    (yields : p.Yields Good) {s after : σ} {a : α} (ran : p.run perform s = some (a, after)) : Good a := by
  induction p generalizing s with
  | done b =>
    cases ran
    exact yields
  | call c next ih =>
    rw [Program.run] at ran
    cases answered : perform c s with
    | none => simp [answered] at ran
    | some answer =>
      rw [answered] at ran
      exact ih answer.1 (yields answer.1) ran

/-- Whether a program that hears only such replies makes only such calls and comes to such a result. -/
def Obeys (Heard : (c : Call) → Reply c → Prop) (Allowed : Call → Prop) (Good : α → Prop) :
    Program Call Reply α → Prop
  | .done a => Good a
  | .call c next => Allowed c ∧ ∀ reply, Heard c reply → (next reply).Obeys Heard Allowed Good

namespace Obeys

variable {Heard : (c : Call) → Reply c → Prop} {Allowed : Call → Prop} {Good : α → Prop}
  {p : Program Call Reply α}

theorem bind {Fine : β → Prop} {f : α → Program Call Reply β} (first : p.Obeys Heard Allowed Good)
    (second : ∀ a, Good a → (f a).Obeys Heard Allowed Fine) : (p.bind f).Obeys Heard Allowed Fine := by
  induction p with
  | done a => exact second a first
  | call c next ih => exact ⟨first.1, fun reply heard => ih reply (first.2 reply heard)⟩

theorem imp {Fine : α → Prop} (obeys : p.Obeys Heard Allowed Good) (fine : ∀ a, Good a → Fine a) :
    p.Obeys Heard Allowed Fine := by
  induction p with
  | done a => exact fine a obeys
  | call c next ih => exact ⟨obeys.1, fun reply heard => ih reply (obeys.2 reply heard)⟩

theorem run {perform : Performer Call Reply σ} (obeys : p.Obeys Heard Allowed Good)
    (told : ∀ c s reply after, perform c s = some (reply, after) → Heard c reply) {s after : σ} {a : α}
    (ran : p.run perform s = some (a, after)) : Good a := by
  induction p generalizing s with
  | done b =>
    cases ran
    exact obeys
  | call c next ih =>
    rw [Program.run] at ran
    cases answered : perform c s with
    | none => simp [answered] at ran
    | some answer =>
      rw [answered] at ran
      exact ih answer.1 (obeys.2 answer.1 (told c s answer.1 answer.2 answered)) ran

end Obeys

/-- The calls that a program makes, up to the first to which the reply never comes. -/
def calls (perform : Performer Call Reply σ) : Program Call Reply α → σ → List Call
  | .done _, _ => []
  | .call c next, s =>
    c :: match perform c s with
      | none => []
      | some (reply, s) => (next reply).calls perform s

/-- One program after another makes the calls of both, if the first comes to its end. -/
@[simp] theorem calls_bind (perform : Performer Call Reply σ) (p : Program Call Reply α)
    (f : α → Program Call Reply β) (s : σ) :
    (p.bind f).calls perform s =
      p.calls perform s ++ (p.run perform s).elim [] fun (a, after) => (f a).calls perform after := by
  induction p generalizing s with
  | done a => rfl
  | call c next ih =>
    simp only [bind, calls, run]
    cases perform c s with
    | none => rfl
    | some answer => simp [ih]

variable {perform : Performer Call Reply σ} {stop : Call → Bool} {p rest : Program Call Reply α} {s after : σ}

theorem run_answered {c : Call} {next : Reply c → Program Call Reply α} {reply : Reply c}
    (answered : perform c s = some (reply, after)) :
    (Program.call c next).run perform s = (next reply).run perform after := by
  rw [run, answered]

theorem runUntil_answered {c : Call} {next : Reply c → Program Call Reply α} {reply : Reply c}
    (goes : stop c = false) (answered : perform c s = some (reply, after)) :
    (Program.call c next).runUntil stop perform s = (next reply).runUntil stop perform after := by
  rw [runUntil, goes, if_neg Bool.false_ne_true, answered]

/-- A program that nothing stops runs to its end. -/
@[simp] theorem runUntil_never (p : Program Call Reply α) (s : σ) :
    p.runUntil (fun _ => false) perform s = (p.run perform s).map fun (a, after) => (.done a, after) := by
  induction p generalizing s with
  | done a => rfl
  | call c next ih =>
    rw [runUntil, run, if_neg Bool.false_ne_true]
    cases perform c s with
    | none => rfl
    | some answer => exact ih answer.1 answer.2

theorem stops_of_runUntil (ran : p.runUntil stop perform s = some (rest, after)) :
    (∃ a, rest = .done a) ∨ ∃ c next, rest = .call c next ∧ stop c = true := by
  induction p generalizing s with
  | done a =>
    cases ran
    exact .inl ⟨a, rfl⟩
  | call c next ih =>
    rw [runUntil] at ran
    by_cases stopped : stop c = true
    · rw [if_pos stopped] at ran
      cases ran
      exact .inr ⟨c, next, rfl, stopped⟩
    · rw [if_neg stopped] at ran
      cases answered : perform c s with
      | none => simp [answered] at ran
      | some answer =>
        rw [answered] at ran
        exact ih answer.1 ran

end Vetting.Program
