import Vetting.Proofs.Broker.Tenure

/-!
A lease is claimed again before a claim of it ends. The time that a claim asks for and the time to the next
claim are both made from the length of the lease, the one in whole milliseconds in a word, the other in
nanoseconds. They fit together if the length is of three nanoseconds at least and its milliseconds fit into a
word, and for no other length (`inTime_iff`). On a clock of whole milliseconds a lease of two of them that is
claimed at each tick never lapses, whatever else is claimed (`Tended.stands`).
Main statement: `renewed_in_time`.
-/
namespace Vetting.Broker

namespace Lease

/-- Whether the claims of a lease follow each other in time. A claim asks for a millisecond at least, and for
the whole milliseconds of the lease if there is one; there is a time from one claim to the next, and it is
shorter than what a claim asks for. -/
structure InTime (lease : Lease) : Prop where
  lasts : 1 ≤ lease.millis.toNat
  whole : 1 ≤ lease.ttl.millis → lease.millis.toNat = lease.ttl.millis
  ticks : lease.period ≠ .zero
  early : lease.period.nanos < lease.millis.toNat * 1000000

/-- The millisecond at which a lease is claimed for the k-th time after the first, which was at so many
nanoseconds. -/
def tick (lease : Lease) (start k : Nat) : Nat := (start + k * lease.period.nanos) / 1000000

/-- A lease is claimed, and then again at each tick; at some store it was claimed again so many times. Between
the ticks anything can happen that can happen to the store. -/
inductive Tended (crew : Set Lease) (lease : Lease) (start : Nat) : Nat → Store → Prop
  | begins {before s : Store} (time : before.now = lease.tick start 0)
    (claimed : lease.claim.run Store.perform before = some (.ok true, s)) : Tended crew lease start 0 s
  | passes {k : Nat} {s later : Store} (tended : Tended crew lease start k s) (step : Step crew s later) :
    Tended crew lease start k later
  | ticks {k : Nat} {s after : Store} {lost : Bool} (tended : Tended crew lease start k s)
    (time : s.now = lease.tick start (k + 1)) (refreshed : lease.refresh.run Store.perform s = some (lost, after)) :
    Tended crew lease start (k + 1) after

variable {key : String} {crew : Set Lease} {lease : Lease} {start k : Nat} {s : Store}

private theorem toNat_millis (lease : Lease) : lease.millis.toNat = max lease.ttl.millis 1 % 2 ^ 64 :=
  UInt64.toNat_ofNat'

private theorem toNat_millis_of_lt (fits : lease.ttl.millis < 2 ^ 64) :
    lease.millis.toNat = max lease.ttl.millis 1 := by
  rw [toNat_millis, Nat.mod_eq_of_lt]
  omega

private theorem period_eq_zero_iff : lease.period = .zero ↔ lease.ttl.nanos < 3 := by
  rw [period, Span.third, Span.zero, Span.mk.injEq]
  omega

theorem inTime_iff : lease.InTime ↔ 3 ≤ lease.ttl.nanos ∧ lease.ttl.millis < 2 ^ 64 := by
  constructor
  · intro inTime
    constructor
    · by_contra short
      exact inTime.ticks (period_eq_zero_iff.2 (by omega))
    · -- a longer lease asks for less than it has, since the word wraps
      by_contra long
      have whole := inTime.whole (by omega)
      have word := lease.millis.toNat_lt
      omega
  · rintro ⟨long, fits⟩
    have asked := toNat_millis_of_lt fits
    constructor
    · omega
    · omega
    · intro zero
      have short := period_eq_zero_iff.1 zero
      omega
    · have third : lease.period.nanos = lease.ttl.nanos / 3 := rfl
      have whole : lease.ttl.millis = lease.ttl.nanos / 1000000 := rfl
      omega

/-- The clock of the broker does not come to the end of a claim before the next one: the time between them
leaves a millisecond, which is what the clock can be behind. -/
theorem tick_succ_lt (start k : Nat) (least : 2 ≤ lease.ttl.millis) (fits : lease.ttl.millis < 2 ^ 64) :
    lease.tick start (k + 1) < lease.tick start k + lease.millis.toNat := by
  have asked := toNat_millis_of_lt fits
  have third : lease.period.nanos = lease.ttl.nanos / 3 := rfl
  have whole : lease.ttl.millis = lease.ttl.nanos / 1000000 := rfl
  have next :
      start + (k + 1) * lease.period.nanos = start + k * lease.period.nanos + lease.period.nanos := by
    ring
  rw [tick, tick, next]
  omega

private theorem refresh_run_open (free : lease.Open s) :
    lease.refresh.run Store.perform s = some (false, lease.granted s) := by
  show ((lease.claim.bind _).run Store.perform s) = _
  rw [Program.run_bind, claim_run_open free]
  rfl

/-- From one tick to the next the lease stands, for as long as the last claim asked for. -/
theorem Tended.stands (rivals : Rivals key crew) (member : lease ∈ crew) (least : 2 ≤ lease.ttl.millis)
    (fits : lease.ttl.millis < 2 ^ 64) (tended : Tended crew lease start k s) :
    lease.tick start k ≤ s.now ∧
      (s.now ≤ lease.tick start (k + 1) → lease.Stands (lease.tick start k + lease.millis.toNat) s) := by
  induction tended with
  | begins time claimed =>
    obtain rfl := granted_of_run claimed
    rw [← time]
    exact ⟨Nat.le_refl _, fun _ => ⟨_, lookup_granted, Nat.le_refl _⟩⟩
  | @passes k s later _ step ih =>
    obtain ⟨past, stands⟩ := ih
    have onwards := step.now_le
    have ends := tick_succ_lt start k least fits
    refine ⟨by omega, fun early => ?_⟩
    exact (stands (by omega)).step rivals member step (by omega) (by omega)
  | @ticks k s after lost _ time refreshed ih =>
    have ends := tick_succ_lt start k least fits
    have stands := ih.2 (by omega)
    rw [refresh_run_open (.inr (stands.value? (by omega)))] at refreshed
    cases refreshed
    rw [← time]
    exact ⟨Nat.le_refl _, fun _ => ⟨_, lookup_granted, Nat.le_refl _⟩⟩

private theorem Tended.value? (rivals : Rivals key crew) (member : lease ∈ crew)
    (least : 2 ≤ lease.ttl.millis)
    (fits : lease.ttl.millis < 2 ^ 64) (tended : Tended crew lease start k s)
    (before : s.now ≤ lease.tick start (k + 1)) : s.value? lease.key = some (Utf8.encode lease.token) := by
  have ends := tick_succ_lt start k least fits
  exact ((tended.stands rivals member least fits).2 before).value? (by omega)

/-- Over any connection a claim is one command, which asks for the milliseconds of the lease. -/
theorem claim_calls {σ : Type} {perform : Program.Performer Call Call.Reply σ} {s opened : σ}
    (connects : perform .connect s = some (.ok (), opened)) :
    lease.claim.calls perform s = [.connect, .send (.lease lease.key lease.token lease.millis.toNat)] := by
  simp only [claim, command, Client.ask, Client.connected, Client.send, Program.calls, connects]
  cases perform (.send (.lease lease.key lease.token lease.millis.toNat)) opened with
  | none => rfl
  | some answer =>
    obtain ⟨reply, after⟩ := answer
    cases reply <;> rfl

/-- For which lengths a lease is claimed again before it ends. A claim asks for some milliseconds, whatever the
broker answers. These and the time between two claims are as they should be if and only if the length is of three
nanoseconds at least and its milliseconds fit into a word. On a clock of whole milliseconds, if it is of two of
them at least and the lease is claimed at every tick, the key has its token up to the next tick, when it is claimed
again and not found lost, whatever others claim in between. -/
theorem renewed_in_time (q : Queue) (ttl : Span) :
    (∀ {σ : Type} (perform : Program.Performer Call Call.Reply σ) (s opened : σ),
      perform .connect s = some (.ok (), opened) → (q.lasting ttl).lease.claim.calls perform s =
        [.connect, .send (.lease q.lease.key q.lease.token (q.lasting ttl).lease.millis.toNat)]) ∧
    ((q.lasting ttl).lease.InTime ↔ 3 ≤ ttl.nanos ∧ ttl.millis < 2 ^ 64) ∧
    (2 ≤ ttl.millis → ttl.millis < 2 ^ 64 → ∀ crew, Rivals q.lease.key crew → (q.lasting ttl).lease ∈ crew →
      ∀ start k s, Tended crew (q.lasting ttl).lease start k s →
        s.now ≤ (q.lasting ttl).lease.tick start (k + 1) →
        s.value? q.lease.key = some (Utf8.encode q.lease.token) ∧
          (q.lasting ttl).lease.refresh.run Store.perform s = some (false, (q.lasting ttl).lease.granted s)) := by
  refine ⟨fun perform s opened connects => claim_calls connects, inTime_iff, ?_⟩
  intro least fits crew rivals member start k s tended before
  have has := tended.value? rivals member least fits before
  exact ⟨has, refresh_run_open (.inr has)⟩

/-- A claim and a refresh ten seconds later, and again ten seconds in which another claims the id in vain. -/
theorem renewed_in_time_half_minute :
    holder.lease.InTime ∧ ∃ s, Tended {holder.lease, challenger.lease} holder.lease 0 1 s ∧ s.now = 20000 ∧
      s.value? holder.lease.key = some (Utf8.encode "token-1") ∧
      holder.lease.refresh.run Store.perform s = some (false, holder.lease.granted s) := by
  obtain ⟨_, inTime, kept⟩ := renewed_in_time holder (.ofSeconds 30)
  have first : Tended {holder.lease, challenger.lease} holder.lease 0 0 (holder.lease.granted .empty) :=
    .begins rfl (claim_run_open (.inl rfl))
  have again := (first.passes (.passes 10000)).ticks rfl (refresh_run_open (.inr rfl))
  have refused := again.passes (.claims challenger.lease (.inr rfl) (execute_held (by unfold Open; decide)))
  have later := refused.passes (.passes 10000)
  refine ⟨inTime.2 (by decide), _, later, rfl, ?_⟩
  exact kept (by decide) (by decide) _ rivals_holder (.inl rfl) 0 1 _ later (by decide)

/-- As many milliseconds as a word can count, and one more. -/
def beyond : Span := ⟨18446744073709551616 * 1000000, by decide⟩

/-- Of a lease without length there is no time from one claim to the next, and one whose milliseconds are beyond a
word is claimed for none. -/
theorem not_inTime_extremes :
    (¬ (holder.lasting .zero).lease.InTime ∧ (holder.lasting .zero).lease.period = .zero) ∧
    ¬ (holder.lasting beyond).lease.InTime ∧
      (holder.lasting beyond).lease.command = .lease holder.lease.key holder.lease.token 0 := by
  refine ⟨⟨fun inTime => inTime.ticks rfl, rfl⟩, fun inTime => ?_, rfl⟩
  exact absurd inTime.lasts (by decide)

end Lease

end Vetting.Broker
