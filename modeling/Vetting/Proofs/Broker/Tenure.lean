import Mathlib
import Vetting.Proofs.Broker.Network
import Vetting.Proofs.Json.Text

/-!
A lease excludes all others while it lasts. Any number of instances claim one key, first and again, while
time passes and lists change. Once a claim was made good, no other token has the key before the claim's
time is over, a consumer that is refused for that touches no list, and the holder can claim the key again,
which never takes time away from it (`claim_excludes`).
-/
namespace Vetting.Broker

namespace Lease

/-- Instances that want one key. Each has a token of its own and claims for a time of its own. -/
structure Rivals (key : String) (crew : Set Lease) : Prop where
  key : ∀ lease ∈ crew, lease.key = key
  token : ∀ lease ∈ crew, ∀ other ∈ crew, lease.token = other.token → lease = other

/-- What can happen to a store. A claim is the same command at first and as a refresh, and it is carried
out whether or not the one who sent it hears of it. -/
inductive Step (crew : Set Lease) : Store → Store → Prop
  | passes {s : Store} (millis : Nat) : Step crew s (s.later millis)
  | claims {s after : Store} (lease : Lease) {answer : Answer} (member : lease ∈ crew)
    (carried : s.execute lease.command = some (answer, after)) : Step crew s after
  | works {s after : Store} (values : after.values = s.values) (now : after.now = s.now) :
    Step crew s after

/-- Whether a key is free for a lease, or has its token. -/
def Open (lease : Lease) (s : Store) : Prop :=
  s.value? lease.key = none ∨ s.value? lease.key = some (Utf8.encode lease.token)

/-- The store in which a claim was made good. -/
def granted (lease : Lease) (s : Store) : Store :=
  s.putValue lease.key (Utf8.encode lease.token) (some lease.millis.toNat)

/-- A lease has its key, and until a certain time at least. -/
def Stands (lease : Lease) (least : Nat) (s : Store) : Prop :=
  ∃ gone, s.values.lookup lease.key = some ⟨Utf8.encode lease.token, some gone⟩ ∧ least ≤ gone

/-- Whatever has the token of a lease under its key ends no later than a claim of now would. -/
def Fits (lease : Lease) (s : Store) : Prop :=
  ∀ entry, s.values.lookup lease.key = some entry → entry.value = Utf8.encode lease.token →
    ∃ gone, entry.gone = some gone ∧ gone ≤ s.now + lease.millis.toNat

variable {key : String} {crew : Set Lease} {lease other : Lease} {least : Nat}
  {s before later after : Store} {answer : Answer}

theorem execute_open (free : lease.Open s) :
    s.execute lease.command = some (.integer 1, lease.granted s) := by
  simp only [command, Store.execute]
  exact if_pos free

theorem execute_held (held : ¬ lease.Open s) : s.execute lease.command = some (.integer 0, s) := by
  simp only [command, Store.execute]
  exact if_neg held

theorem claim_run_open (free : lease.Open s) :
    lease.claim.run Store.perform s = some (.ok true, lease.granted s) := by
  simp only [claim, Client.ask, Client.connected, Client.send, Program.run, Store.perform,
    execute_open free]
  rfl

private theorem claim_run_held (held : ¬ lease.Open s) :
    lease.claim.run Store.perform s = some (.ok false, s) := by
  simp only [claim, Client.ask, Client.connected, Client.send, Program.run, Store.perform,
    execute_held held]
  rfl

theorem granted_of_run (ran : lease.claim.run Store.perform before = some (.ok true, s)) :
    s = lease.granted before := by
  by_cases free : lease.Open before
  · rw [claim_run_open free] at ran
    cases ran
    rfl
  · rw [claim_run_held free] at ran
    cases ran

@[simp] theorem lookup_granted :
    (lease.granted s).values.lookup lease.key =
      some ⟨Utf8.encode lease.token, some (s.now + lease.millis.toNat)⟩ := by
  simp [granted, Store.putValue]

theorem Stands.value? (stands : lease.Stands least s) (early : s.now < least) :
    s.value? lease.key = some (Utf8.encode lease.token) := by
  obtain ⟨gone, found, late⟩ := stands
  rw [Store.value?, found]
  simp only
  rw [if_neg (by omega)]

private theorem lookup_of_value? {value : Payload} (has : s.value? key = some value) :
    ∃ gone, s.values.lookup key = some ⟨value, gone⟩ := by
  simp only [Store.value?] at has
  split at has
  · next found =>
    split at has
    · cases has
    · cases has
      exact ⟨_, found⟩
  · next found =>
    cases has
    exact ⟨_, found⟩
  · cases has

/-- The key is not open to another token before the time is over. -/
theorem Stands.closed (stands : lease.Stands least s) (early : s.now < least)
    (key : other.key = lease.key) (rival : other.token ≠ lease.token) : ¬ other.Open s := by
  rw [Open, key, stands.value? early]
  rintro (free | own)
  · cases free
  · exact rival (Utf8.encode_injective (Option.some.inj own)).symm

theorem Step.now_le (step : Step crew s later) : s.now ≤ later.now := by
  cases step with
  | passes millis => exact Nat.le_add_right _ _
  | works values now => rw [now]
  | claims lease _ carried =>
    by_cases free : lease.Open s
    · rw [execute_open free] at carried
      cases carried
      exact Nat.le_refl _
    · rw [execute_held free] at carried
      cases carried
      exact Nat.le_refl _

/-- Before its time is over nothing takes the key from a lease; its own claims only add time. -/
theorem Stands.step (rivals : Rivals key crew) (member : lease ∈ crew) (stands : lease.Stands least s)
    (step : Step crew s later) (fits : least ≤ later.now + lease.millis.toNat)
    (early : s.now < least) : lease.Stands least later := by
  cases step with
  | passes millis => exact stands
  | works values now =>
    obtain ⟨gone, found, late⟩ := stands
    exact ⟨gone, by rw [values, found], late⟩
  | claims other claims carried =>
    by_cases own : other.token = lease.token
    · obtain rfl := rivals.token other claims lease member own
      have free : other.Open s := .inr (stands.value? early)
      rw [execute_open free] at carried
      cases carried
      exact ⟨_, lookup_granted, fits⟩
    · have key : other.key = lease.key := (rivals.key other claims).trans (rivals.key lease member).symm
      rw [execute_held (stands.closed early key own)] at carried
      cases carried
      exact stands

private theorem Fits.granted (lease : Lease) (s : Store) : lease.Fits (lease.granted s) := by
  intro entry found _
  rw [lookup_granted] at found
  cases found
  exact ⟨_, rfl, Nat.le_refl _⟩

private theorem Fits.step (rivals : Rivals key crew) (member : lease ∈ crew) (fits : lease.Fits s)
    (step : Step crew s later) : lease.Fits later := by
  cases step with
  | passes millis =>
    intro entry found own
    obtain ⟨gone, ends, bound⟩ := fits entry found own
    exact ⟨gone, ends, by simp only [Store.later]; omega⟩
  | works values now =>
    intro entry found own
    rw [values] at found
    rw [now]
    exact fits entry found own
  | claims other claims carried =>
    by_cases free : other.Open s
    · rw [execute_open free] at carried
      cases carried
      by_cases own : other.token = lease.token
      · obtain rfl := rivals.token other claims lease member own
        exact .granted other s
      · -- the key has another token now, so there is nothing to show
        have key : lease.key = other.key := (rivals.key lease member).trans (rivals.key other claims).symm
        intro entry found same
        rw [key, lookup_granted] at found
        cases found
        exact absurd (Utf8.encode_injective same) own
    · rw [execute_held free] at carried
      cases carried
      exact fits

end Lease

namespace Queue

variable {σ : Type} {perform : Program.Performer Call Call.Reply σ} {q : Queue} {s opened after : σ}

/-- A consumer that is told that another token has its id is done, whoever answers it. -/
theorem consume_refused (turns : Nat) (connects : perform .connect s = some (.ok (), opened))
    (refused : perform (.send q.lease.command) opened = some (.ok (.integer 0), after)) :
    (q.consume turns).run perform s = some (some (.error (.consumerIdInUse q.consumer)), after) ∧
      (q.consume turns).calls perform s = [.connect, .send q.lease.command] := by
  have reads : (Answer.integer 0).int64.map (fun n => decide (n = 1)) = .ok false := rfl
  constructor
  · show ((q.lease.claim.bind _).run perform s) = _
    simp only [Lease.claim, Client.ask, Client.connected, Client.send, Program.bind, Program.run,
      connects, refused, reads]
    rfl
  · show ((q.lease.claim.bind _).calls perform s) = _
    simp only [Lease.claim, Client.ask, Client.connected, Client.send, Program.bind, Program.calls,
      connects, refused, reads]
    rfl

end Queue

namespace Lease

/-- After a claim that was made good, and for the time that it was made for: the key has its token, every
claim by another token fails, and a consumer that is refused says so, has sent nothing but its claim and
left all lists as they were. As long as the key has the token, be it longer, a claim by it is made good,
and the key is not freed earlier for that. -/
theorem claim_excludes {key : String} {crew : Set Lease} (rivals : Rivals key crew) {lease : Lease}
    (member : lease ∈ crew) {before s later : Store}
    (claimed : lease.claim.run Store.perform before = some (.ok true, s))
    (history : Relation.ReflTransGen (Step crew) s later) :
    (later.now < s.now + lease.millis.toNat →
      later.value? key = some (Utf8.encode lease.token) ∧
      ∀ other ∈ crew, other ≠ lease →
        other.claim.run Store.perform later = some (.ok false, later) ∧
        ∀ q : Queue, q.lease = other → ∀ turns,
          (q.consume turns).run Store.perform later =
            some (some (.error (.consumerIdInUse q.consumer)), later) ∧
          (q.consume turns).calls Store.perform later = [.connect, .send other.command]) ∧
    (later.value? key = some (Utf8.encode lease.token) →
      ∃ after gone renewed, lease.claim.run Store.perform later = some (.ok true, after) ∧
        later.values.lookup key = some ⟨Utf8.encode lease.token, some gone⟩ ∧
        after.values.lookup key = some ⟨Utf8.encode lease.token, some renewed⟩ ∧ gone ≤ renewed) := by
  obtain rfl := granted_of_run claimed
  have ofKey := rivals.key lease member
  have kept : (later.now < before.now + lease.millis.toNat →
      lease.Stands (before.now + lease.millis.toNat) later) ∧ lease.Fits later ∧
      before.now ≤ later.now := by
    induction history with
    | refl => exact ⟨fun _ => ⟨_, lookup_granted, Nat.le_refl _⟩, .granted lease before, Nat.le_refl _⟩
    | @tail mid later _ step ih =>
      obtain ⟨stands, fits, past⟩ := ih
      have onwards := step.now_le
      refine ⟨fun early => ?_, fits.step rivals member step, by omega⟩
      exact (stands (by omega)).step rivals member step (by omega) (by omega)
  obtain ⟨stands, fits, _⟩ := kept
  constructor
  · intro early
    have holds := stands early
    refine ⟨ofKey ▸ holds.value? early, ?_⟩
    intro other rival different
    have closed : ¬ other.Open later := by
      refine holds.closed early ((rivals.key other rival).trans ofKey.symm) fun same => ?_
      exact different (rivals.token other rival lease member same)
    refine ⟨claim_run_held closed, ?_⟩
    rintro q rfl turns
    refine Queue.consume_refused turns rfl ?_
    simp only [Store.perform, execute_held closed]
    rfl
  · intro has
    rw [← ofKey] at has ⊢
    obtain ⟨gone, found⟩ := lookup_of_value? has
    obtain ⟨ends, rfl, bound⟩ := fits _ found rfl
    exact ⟨_, ends, _, claim_run_open (.inr has), found, lookup_granted, bound⟩

/-- A consumer of a queue, and another with the same id. -/
def holder : Queue := ⟨"tasks", "worker-1", "token-1", .ofSeconds 30⟩
def challenger : Queue := { holder with token := "token-2" }

theorem rivals_holder : Rivals holder.lease.key {holder.lease, challenger.lease} := by
  constructor
  · rintro lease (rfl | rfl) <;> rfl
  · rintro lease (rfl | rfl) other (rfl | rfl) same
    · rfl
    · exact absurd same (by decide)
    · exact absurd same (by decide)
    · rfl

/-- Twenty seconds after the claim, when a consume by the other was refused once already. -/
theorem claim_excludes_challenger :
    ∃ later, Relation.ReflTransGen (Step {holder.lease, challenger.lease})
        (holder.lease.granted .empty) later ∧
      later.now < 30000 ∧
      (challenger.consume 1).run Store.perform later =
        some (some (.error (.consumerIdInUse "worker-1")), later) ∧
      ∃ after gone renewed, holder.lease.claim.run Store.perform later = some (.ok true, after) ∧
        later.values.lookup "tasks:consumer:worker-1" = some ⟨Utf8.encode "token-1", some gone⟩ ∧
        after.values.lookup "tasks:consumer:worker-1" = some ⟨Utf8.encode "token-1", some renewed⟩ ∧
        gone ≤ renewed := by
  have waited : Relation.ReflTransGen (Step {holder.lease, challenger.lease})
      (holder.lease.granted .empty) _ := .single (.passes 20000)
  have refused := waited.tail (.claims challenger.lease (.inr rfl)
    (execute_held (by unfold Open; decide)))
  have made := claim_excludes rivals_holder (.inl rfl) (claim_run_open (.inl rfl)) refused
  obtain ⟨has, others⟩ := made.1 (by decide)
  exact ⟨_, refused, by decide, ((others challenger.lease (.inr rfl) (by decide)).2 challenger rfl 1).1,
    made.2 has⟩

end Lease

end Vetting.Broker
