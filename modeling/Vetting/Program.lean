/-!
Programs that call on services: a program is done, or it makes a call and goes on with the reply. One
call is one atomic step, so several programs can take turns between calls. Main definitions: `run`,
which answers every call until the program is done, and `runUntil`, which stops before a call.
-/
namespace Vetting

/-- A program with calls of type `Call`, each answered by its `Reply`. -/
inductive Program (Call : Type) (Reply : Call → Type) (α : Type)
  | done (result : α)
  | call (c : Call) (next : Reply c → Program Call Reply α)

namespace Program

variable {Call : Type} {Reply : Call → Type} {σ α β : Type}

/-- One program after another. -/
def bind : Program Call Reply α → (α → Program Call Reply β) → Program Call Reply β
  | .done a, f => f a
  | .call c next, f => .call c fun reply => (next reply).bind f

instance : Monad (Program Call Reply) where
  pure := .done
  bind := bind

/-- What answers calls in a state; nothing if the reply never comes. -/
abbrev Performer (Call : Type) (Reply : Call → Type) (σ : Type) :=
  (c : Call) → σ → Option (Reply c × σ)

/-- The result of a program and the state after it; nothing if a reply never comes. -/
def run (perform : Performer Call Reply σ) : Program Call Reply α → σ → Option (α × σ)
  | .done a, s => some (a, s)
  | .call c next, s =>
    match perform c s with
    | none => none
    | some (reply, s) => (next reply).run perform s

/-- Runs a program until it is about to make a call that `stop` tells, or is done. -/
def runUntil (stop : Call → Bool) (perform : Performer Call Reply σ) :
    Program Call Reply α → σ → Option (Program Call Reply α × σ)
  | .done a, s => some (.done a, s)
  | .call c next, s =>
    if stop c then some (.call c next, s)
    else
      match perform c s with
      | none => none
      | some (reply, s) => (next reply).runUntil stop perform s

/-- Repeats a turn until it gives a result, at most so many times. A loop that is not over leaves the
state of its next turn. -/
def loop (turn : σ → Program Call Reply (σ ⊕ α)) : Nat → σ → Program Call Reply (σ ⊕ α)
  | 0, s => .done (.inl s)
  | turns + 1, s => (turn s).bind fun
    | .inl s => loop turn turns s
    | .inr a => .done (.inr a)

/-- The result of a program that is done. -/
def result? : Program Call Reply α → Option α
  | .done a => some a
  | .call _ _ => none

@[simp] theorem bind_done (p : Program Call Reply α) : p.bind .done = p := by
  induction p with
  | done a => rfl
  | call c next ih => simp [bind, ih]

@[simp] theorem bind_assoc {γ : Type} (p : Program Call Reply α) (f : α → Program Call Reply β)
    (g : β → Program Call Reply γ) : (p.bind f).bind g = p.bind fun a => (f a).bind g := by
  induction p with
  | done a => rfl
  | call c next ih => simp [bind, ih]

instance : LawfulMonad (Program Call Reply) :=
  LawfulMonad.mk' _ (fun p => bind_done p) (fun _ _ => rfl) fun p f g => bind_assoc p f g

@[simp] theorem run_bind (perform : Performer Call Reply σ) (p : Program Call Reply α)
    (f : α → Program Call Reply β) (s : σ) :
    (p.bind f).run perform s = (p.run perform s).bind fun (a, s) => (f a).run perform s := by
  induction p generalizing s with
  | done a => rfl
  | call c next ih =>
    simp only [bind, run]
    cases perform c s with
    | none => rfl
    | some answer => exact ih _ _

end Program

end Vetting
