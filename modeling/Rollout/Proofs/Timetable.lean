import Rollout.Renewal

/-!
# The timetable of a renewal loop

When the renewals of a loop begin follows from its interval and from how long each of them takes:
the next one begins at its tick, or where that has passed as soon as the last one is over. What is
logged about a failed one depends on how many have failed in a row with it. Both are described here
for any sequence of outcomes, as what a loop is to be measured by.
-/

namespace Rollout

/-- What comes of a renewal, and after how many milliseconds. -/
structure RenewalOutcome where
  takes : Nat
  failure : Option Failure := none

namespace RenewalOutcome

/-- How the acquisition ends for the one who reacts to it, -/
def final (o : RenewalOutcome) : Reaction Unit :=
  match o.failure with
  | none => .succeed ()
  | some failure => .fail failure

/-- and for the one who made the call. -/
def reply (o : RenewalOutcome) : Reply Unit :=
  match o.failure with
  | none => .ok ()
  | some failure => .failed failure

def failed (o : RenewalOutcome) : Bool := o.failure.isSome

theorem settle_final (o : RenewalOutcome) : o.final.settle = ([], .ended o.reply) := by
  rw [final, reply]
  cases o.failure <;> rfl

end RenewalOutcome

section Failures

variable (outcome : Nat → RenewalOutcome)

/-- How many renewals have failed in a row up to the `k`-th. -/
def streak : Nat → Nat
  | 0 => 0
  | k + 1 => if (outcome (k + 1)).failed then streak k + 1 else 0

/-- The last `n` renewals up to the `k`-th have failed, and the one before them has not. -/
structure FailuresUpTo (k n : Nat) : Prop where
  within : n ≤ k
  failed : ∀ j, k - n < j → j ≤ k → (outcome j).failed = true
  before : n < k → (outcome (k - n)).failed = false

def FailedRepeatedly (k : Nat) : Prop :=
  4 ≤ k ∧ ∀ j, k < j + 4 → j ≤ k → (outcome j).failed = true

variable {outcome} {k n : Nat}

theorem streak_succ_of_failed (failed : (outcome (k + 1)).failed = true) :
    streak outcome (k + 1) = streak outcome k + 1 := if_pos failed

theorem streak_succ_of_renewed (renewed : (outcome (k + 1)).failed = false) :
    streak outcome (k + 1) = 0 := if_neg (by simp [renewed])

theorem failuresUpTo_streak (k : Nat) : FailuresUpTo outcome k (streak outcome k) := by
  induction k with
  | zero => exact ⟨Nat.le_refl _, fun j _ _ => by omega, fun _ => by omega⟩
  | succ k ih =>
    cases failed : (outcome (k + 1)).failed with
    | false =>
      rw [streak_succ_of_renewed failed]
      exact ⟨Nat.zero_le _, fun j _ _ => by omega, fun _ => failed⟩
    | true =>
      rw [streak_succ_of_failed failed]
      have within := ih.within
      refine ⟨by omega, fun j after upTo => ?_, fun more => ?_⟩
      · rcases Nat.lt_or_eq_of_le upTo with earlier | rfl
        · exact ih.failed j (by omega) (by omega)
        · exact failed
      · have same : k + 1 - (streak outcome k + 1) = k - streak outcome k := by omega
        rw [same]
        exact ih.before (by omega)

theorem four_le_streak_iff : 4 ≤ streak outcome k ↔ FailedRepeatedly outcome k := by
  have spec : FailuresUpTo outcome k (streak outcome k) := failuresUpTo_streak k
  have within := spec.within
  constructor
  · exact fun four => ⟨by omega, fun j after upTo => spec.failed j (by omega) upTo⟩
  · rintro ⟨four, failed⟩
    refine Nat.le_of_not_lt fun few => ?_
    have renewed := spec.before (by omega)
    rw [failed _ (by omega) (by omega)] at renewed
    cases renewed

end Failures

namespace Renewal

variable (r : Renewal) (outcome : Nat → RenewalOutcome)

def report (k : Nat) : LogRecord :=
  match (outcome k).failure with
  | none => ⟨.debug, "Leases renewed", [("machine_count", .count r.machines.length)]⟩
  | some failure => failureLog (streak outcome k) failure

inductive Reports (k : Nat) : LogRecord → Prop
  | renewed (succeeded : (outcome k).failure = none) :
    Reports k ⟨.debug, "Leases renewed", [("machine_count", .count r.machines.length)]⟩
  | failed {failure : Failure} {n : Nat} (because : (outcome k).failure = some failure)
      (inRow : FailuresUpTo outcome k n) (few : ¬ FailedRepeatedly outcome k) :
    Reports k ⟨.warn, "Lease renewal failed",
      [("error", .text failure.message), ("consecutive_failures", .count n)]⟩
  | failedRepeatedly {failure : Failure} {n : Nat} (because : (outcome k).failure = some failure)
      (inRow : FailuresUpTo outcome k n) (many : FailedRepeatedly outcome k) :
    Reports k ⟨.error, "Lease renewal failed repeatedly",
      [("error", .text failure.message), ("consecutive_failures", .count n)]⟩

theorem reports_report (k : Nat) : r.Reports outcome k (r.report outcome k) := by
  have inRow : FailuresUpTo outcome k (streak outcome k) := failuresUpTo_streak k
  rw [report]
  split
  · rename_i succeeded
    exact .renewed succeeded
  · rename_i failure because
    rw [failureLog]
    split
    · exact .failed because inRow (by rw [← four_le_streak_iff]; omega)
    · exact .failedRepeatedly because inRow (four_le_streak_iff.mp (by omega))

/-- When the `k`-th renewal is over. Before the first one this is when the loop starts. -/
def completes : Nat → Nat
  | 0 => r.start
  | k + 1 => max (r.tickTime (k + 1)) (completes k) + (outcome (k + 1)).takes

/-- When the `k`-th renewal begins: at its tick, or once the one before it is over. -/
def begins (k : Nat) : Nat := max (r.tickTime k) (r.completes outcome (k - 1))

variable {r outcome} {j k t : Nat}

theorem completes_succ (k : Nat) : r.completes outcome (k + 1) =
    r.begins outcome (k + 1) + (outcome (k + 1)).takes := rfl

theorem tickTime_mono (le : j ≤ k) : r.tickTime j ≤ r.tickTime k := by
  have product : j * r.interval.nanos ≤ k * r.interval.nanos := Nat.mul_le_mul_right _ le
  simp only [tickTime, Duration.ceilMillis, Duration.times]
  omega

theorem completes_mono (le : j ≤ k) : r.completes outcome j ≤ r.completes outcome k := by
  induction le with
  | refl => exact Nat.le_refl _
  | @step k _ ih =>
    have later : r.completes outcome k ≤ r.completes outcome (k + 1) := by
      rw [completes]
      omega
    exact Nat.le_trans ih later

theorem begins_mono (le : j ≤ k) : r.begins outcome j ≤ r.begins outcome k := by
  have ticks := tickTime_mono (r := r) le
  have ended : r.completes outcome (j - 1) ≤ r.completes outcome (k - 1) :=
    completes_mono (by omega)
  simp only [begins]
  omega

theorem lt_of_completes_lt (lt : r.completes outcome j < r.completes outcome k) : j < k :=
  Nat.lt_of_not_le fun le => Nat.not_le.mpr lt (completes_mono le)

theorem lt_of_begins_lt (lt : r.begins outcome j < r.begins outcome k) : j < k :=
  Nat.lt_of_not_le fun le => Nat.not_le.mpr lt (begins_mono le)

theorem begins_le_completes (positive : 0 < k) : r.begins outcome k ≤ r.completes outcome k := by
  obtain ⟨k, rfl⟩ := Nat.exists_eq_succ_of_ne_zero (Nat.pos_iff_ne_zero.mp positive)
  exact Nat.le_add_right _ _

/-- A renewal takes its own tick, so no more can begin than ticks have come. -/
theorem le_of_begins_le (positive : 0 < r.interval.nanos) (begun : r.begins outcome k ≤ t) :
    k ≤ (Duration.ofMillis (t - r.start)).nanos / r.interval.nanos := by
  have ticked : r.tickTime k ≤ t := Nat.le_trans (Nat.le_max_left _ _) begun
  rw [Nat.le_div_iff_mul_le positive]
  simp only [tickTime, Duration.ceilMillis, Duration.times, Duration.ofMillis] at ticked ⊢
  omega

/-- Whether renewals fail shifts none of them. -/
theorem begins_congr {outcome' : Nat → RenewalOutcome}
    (same : ∀ k, (outcome' k).takes = (outcome k).takes) (k : Nat) :
    r.begins outcome' k = r.begins outcome k := by
  have ended : ∀ k, r.completes outcome' k = r.completes outcome k := by
    intro k
    induction k with
    | zero => rfl
    | succ k ih => rw [completes, completes, ih, same]
  rw [begins, begins, ended]

end Renewal

end Rollout
