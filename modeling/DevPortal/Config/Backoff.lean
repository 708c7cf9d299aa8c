import DevPortal.Config.Settings
import DevPortal.Machinery.FixedWidth

/-!
# Config/Backoff — how long to wait after a failure

    attempts (i32) ▸ exponent in 0..30 ▸ base · 2ᵉ, saturating ▸ at most the maximum

The words are `boundedRetryBackoffSecondsI64`; the numbers are `boundedRetryBackoffSeconds`, and
`boundedRetryBackoffSecondsI64_toInt` says that no word is ever too short for its number.  What the
numbers do (`BackoffBounds`) is then arithmetic in `ℤ`.
-/

namespace DevPortal

open FixedWidth
open ConnectorRunRepository (recoverUpdate)

/-! ## The function -/

/-- `bounded_retry_backoff_seconds`, in its own words; `none` is a shift that overflows. -/
def boundedRetryBackoffSecondsI64 (attemptCount : Int32) (baseSeconds maxSeconds : Int64) :
    Option Int64 := do
  let baseSeconds := max baseSeconds 1
  let maxSeconds := max maxSeconds baseSeconds
  let exponent := (clamp32 (saturatingSub32 attemptCount 1) 0 30).toUInt32
  let factor ← shl64 1 exponent
  return min (saturatingMul64 baseSeconds factor) maxSeconds

/-- The exponent of `boundedRetryBackoffSeconds`. -/
def backoffExponent (attemptCount : Int) : Nat :=
  (min (max (saturatingSubOne attemptCount) 0) 30).toNat

theorem backoffExponent_le (attemptCount : Int) : backoffExponent attemptCount ≤ 30 := by
  simp only [backoffExponent]
  omega

theorem backoffExponent_monotone {n m : Int} (h : n ≤ m) :
    backoffExponent n ≤ backoffExponent m := by
  simp only [backoffExponent, saturatingSubOne]
  omega

/-- Inside its range it is the number of failures before this one. -/
theorem backoffExponent_eq {n : Int} (hpos : 1 ≤ n) (hle : n - 1 ≤ 30) :
    backoffExponent n = (n - 1).toNat := by
  simp only [backoffExponent, saturatingSubOne]
  omega

theorem exponent_toNat (attemptCount : Int32) :
    ((clamp32 (saturatingSub32 attemptCount 1) 0 30).toUInt32).toNat
      = backoffExponent attemptCount.toInt := by
  have hvalue : (clamp32 (saturatingSub32 attemptCount 1) 0 30).toInt
      = min (max (saturatingSubOne attemptCount.toInt) 0) 30 := by
    obtain ⟨hlow, hhigh⟩ := toInt32_bounds attemptCount
    have hzero : (0 : Int32).toInt = 0 := rfl
    have hone : (1 : Int32).toInt = 1 := rfl
    have hthirty : (30 : Int32).toInt = 30 := rfl
    rw [toInt_clamp32, saturatingSub32, toInt_ofIntClamp32, hzero, hone, hthirty]
    simp only [clampInt, saturatingSubOne]
    omega
  have hnonneg : 0 ≤ (clamp32 (saturatingSub32 attemptCount 1) 0 30).toInt := by
    rw [hvalue]
    omega
  have hcast := toNat_toUInt32 hnonneg
  rw [hvalue] at hcast
  rw [backoffExponent]
  omega

/-- **The words are the numbers**: nothing overflows, and only the product saturates. -/
theorem boundedRetryBackoffSecondsI64_toInt (attemptCount : Int32) (base most : Int64) :
    ∃ backoff, boundedRetryBackoffSecondsI64 attemptCount base most = some backoff ∧
      backoff.toInt = boundedRetryBackoffSeconds attemptCount.toInt base.toInt most.toInt := by
  have hexponent := exponent_toNat attemptCount
  have hle := backoffExponent_le attemptCount.toInt
  obtain ⟨factor, hfactor, hpower⟩ :=
    shl64_one (clamp32 (saturatingSub32 attemptCount 1) 0 30).toUInt32 (by omega)
  have hone : (1 : Int64).toInt = 1 := rfl
  refine ⟨min (saturatingMul64 (max base 1) factor) (max most (max base 1)), ?_, ?_⟩
  · simp only [boundedRetryBackoffSecondsI64, hfactor, Option.pure_def, Option.bind_eq_bind,
      Option.bind_some]
  · have hproduct : 0 ≤ max base.toInt 1 * 2 ^ backoffExponent attemptCount.toInt := by positivity
    rw [toInt_min64, toInt_max64, saturatingMul64, toInt_ofIntClamp64, toInt_max64, hone, hpower,
      hexponent]
    simp only [boundedRetryBackoffSeconds, clampInt, ← backoffExponent.eq_1, i64Max]
    generalize max base.toInt 1 * 2 ^ backoffExponent attemptCount.toInt = product at hproduct
    omega

/-! ## The numbers -/

section Bounds

variable {n base most : Int}

/-- The saturation of the product is not seen: the maximum is an `i64`. -/
theorem boundedRetryBackoffSeconds_eq (hbase : base ≤ i64Max) (hmost : most ≤ i64Max) :
    boundedRetryBackoffSeconds n base most
      = min (max 1 base * 2 ^ backoffExponent n) (max (max 1 base) most) := by
  simp only [boundedRetryBackoffSeconds, ← backoffExponent.eq_1, i64Max] at *
  rw [max_comm base 1]
  generalize max 1 base * 2 ^ backoffExponent n = product
  omega

/-- **It lies between the base and the maximum.** -/
theorem boundedRetryBackoffSeconds_bounds (hbase : base ≤ i64Max) (hmost : most ≤ i64Max) :
    max 1 base ≤ boundedRetryBackoffSeconds n base most ∧
      boundedRetryBackoffSeconds n base most ≤ max (max 1 base) most := by
  have hpower : max 1 base * 1 ≤ max 1 base * 2 ^ backoffExponent n :=
    mul_le_mul_of_nonneg_left (one_le_pow₀ (by decide)) (by omega)
  rw [boundedRetryBackoffSeconds_eq hbase hmost]
  omega

/-- **It grows with the attempts.** -/
theorem boundedRetryBackoffSeconds_monotone {m : Int} (hbase : base ≤ i64Max)
    (hmost : most ≤ i64Max) (h : n ≤ m) :
    boundedRetryBackoffSeconds n base most ≤ boundedRetryBackoffSeconds m base most := by
  have hpower : max 1 base * 2 ^ backoffExponent n ≤ max 1 base * 2 ^ backoffExponent m :=
    mul_le_mul_of_nonneg_left (pow_le_pow_right₀ (by decide) (backoffExponent_monotone h))
      (by omega)
  rw [boundedRetryBackoffSeconds_eq hbase hmost, boundedRetryBackoffSeconds_eq hbase hmost]
  omega

end Bounds

/-- **It is positive, and is itself as a `u64`.** -/
theorem boundedRetryBackoffSecondsI64_pos (attemptCount : Int32) (base most : Int64) :
    ∃ backoff, boundedRetryBackoffSecondsI64 attemptCount base most = some backoff ∧
      backoff.toInt = boundedRetryBackoffSeconds attemptCount.toInt base.toInt most.toInt ∧
      0 < backoff.toInt ∧ (backoff.toUInt64.toNat : Int) = backoff.toInt := by
  obtain ⟨backoff, hbackoff, hvalue⟩ := boundedRetryBackoffSecondsI64_toInt attemptCount base most
  have hlow := (boundedRetryBackoffSeconds_bounds (n := attemptCount.toInt)
    (toInt64_bounds base).2 (toInt64_bounds most).2).1
  have hpos : 0 < backoff.toInt := by omega
  exact ⟨backoff, hbackoff, hvalue, hpos, toNat_toUInt64 hpos.le⟩

/-! ## The schedule of the retention -/

/-- The last `Instant`, where its seconds are an `i64` as on Linux. -/
def lastInstant : Instant := fromSecs (2 ^ 63) - 1

/-- `Instant + Duration`; `none` is a panic. -/
def addDuration (now : Instant) (duration : Nat) : Option Instant :=
  if now + duration ≤ lastInstant then some (now + duration) else none

theorem addDuration_eq_some {now duration later : Nat} (h : addDuration now duration = some later) :
    later = now + duration := by
  unfold addDuration at h
  split at h
  · exact (Option.some.inj h).symm
  · cases h

/-- `RetentionAttemptOutcome`. -/
inductive RetentionAttemptOutcome
  | completed
  | skippedLockBusy
  | skippedRecentlyCompleted
  | failed
  deriving DecidableEq

/-- `RetentionAttemptSchedule`. -/
structure RetentionAttemptSchedule where
  nextAttemptAt : Instant
  consecutiveFailures : Int32

namespace RetentionAttemptSchedule

/-- `RetentionAttemptSchedule::due_immediately`. -/
def dueImmediately (now : Instant) : RetentionAttemptSchedule := ⟨now, 0⟩

/-- `RetentionAttemptSchedule::is_due`. -/
def isDue (schedule : RetentionAttemptSchedule) (now : Instant) : Bool :=
  schedule.nextAttemptAt ≤ now

/-- `RetentionAttemptSchedule::record_outcome`; `from_secs` takes the backoff as a `u64`. -/
def recordOutcome (schedule : RetentionAttemptSchedule) (outcome : RetentionAttemptOutcome)
    (policy : ConnectorRetentionPolicy) (now : Instant) : Option RetentionAttemptSchedule :=
  match outcome with
  | .completed | .skippedLockBusy | .skippedRecentlyCompleted =>
    (addDuration now (fromSecs policy.cleanupInterval.val)).map fun next => ⟨next, 0⟩
  | .failed => do
    let consecutiveFailures := saturatingAdd32 schedule.consecutiveFailures 1
    let backoff ← boundedRetryBackoffSecondsI64 consecutiveFailures 30 300
    (addDuration now (fromSecs backoff.toUInt64.toNat)).map fun next => ⟨next, consecutiveFailures⟩

/-- **Whatever the outcome, a second at least is added**, and nothing but that can panic. -/
theorem recordOutcome_eq (schedule : RetentionAttemptSchedule) (outcome : RetentionAttemptOutcome)
    (policy : ConnectorRetentionPolicy) (now : Instant) :
    ∃ delay consecutiveFailures, 0 < delay ∧ schedule.recordOutcome outcome policy now =
      (addDuration now (fromSecs delay)).map fun next => ⟨next, consecutiveFailures⟩ := by
  have hinterval : 0 < policy.cleanupInterval.val := policy.cleanupInterval.property.1
  cases outcome with
  | completed | skippedLockBusy | skippedRecentlyCompleted =>
    exact ⟨policy.cleanupInterval.val, 0, hinterval, rfl⟩
  | failed =>
    obtain ⟨backoff, hbackoff, -, hpos, hcast⟩ :=
      boundedRetryBackoffSecondsI64_pos (saturatingAdd32 schedule.consecutiveFailures 1) 30 300
    have hlong : 0 < backoff.toUInt64.toNat := by omega
    refine ⟨backoff.toUInt64.toNat, saturatingAdd32 schedule.consecutiveFailures 1, hlong, ?_⟩
    simp only [recordOutcome, hbackoff, Option.bind_eq_bind]
    rw [Option.bind_some]

/-- So the next attempt is not due at once. -/
theorem recordOutcome_later {schedule next : RetentionAttemptSchedule}
    {outcome : RetentionAttemptOutcome} {policy : ConnectorRetentionPolicy} {now : Instant}
    (h : schedule.recordOutcome outcome policy now = some next) :
    now + fromSecs 1 ≤ next.nextAttemptAt ∧ next.isDue now = false := by
  obtain ⟨delay, failures, hpos, heq⟩ := schedule.recordOutcome_eq outcome policy now
  obtain ⟨later, hlater, rfl⟩ := Option.map_eq_some_iff.mp (heq.symm.trans h)
  obtain rfl := addDuration_eq_some hlater
  have hsecond : fromSecs 1 ≤ fromSecs delay := Nat.mul_le_mul_right _ hpos
  have hone : 0 < fromSecs 1 := by decide
  refine ⟨Nat.add_le_add_left hsecond now, decide_eq_false (Nat.not_le.mpr ?_)⟩
  exact Nat.lt_add_of_pos_right (Nat.lt_of_lt_of_le hone hsecond)

end RetentionAttemptSchedule

/-! ## Both callers -/

/-- What a recovery adds to now is the backoff of the row's attempts, a positive number. -/
theorem recoverUpdate_later (now : DateTime) (base most : Int64) (run : ConnectorRun)
    (attemptCount : Int32) (hattempts : run.attemptCount = attemptCount.toInt) :
    recoverUpdate now base.toInt most.toInt run = .recoverCancelled now ∨
      recoverUpdate now base.toInt most.toInt run = .recoverFailed now ∨
      ∃ backoff, boundedRetryBackoffSecondsI64 attemptCount base most = some backoff ∧
        recoverUpdate now base.toInt most.toInt run = .recoverQueued now backoff.toInt ∧
        0 < backoff.toInt ∧ ∀ later, offset now backoff.toInt = some later →
          now < later ∧ ((RunUpdate.recoverQueued now backoff.toInt).set run).nextAttemptAt = later := by
  obtain ⟨backoff, hbackoff, hvalue, hpos, -⟩ :=
    boundedRetryBackoffSecondsI64_pos attemptCount base most
  rw [recoverUpdate]
  split
  · exact .inl rfl
  · split
    · exact .inr (.inl rfl)
    · refine .inr (.inr ⟨backoff, hbackoff, ?_, hpos, fun later hlater => ?_⟩)
      · rw [hattempts, hvalue]
      · obtain ⟨rfl, -⟩ := offset_eq_some hlater
        have hlater : 0 < backoff.toInt * 1000000 := Int.mul_pos hpos (by decide)
        exact ⟨Int.lt_add_of_pos_right now hlater, rfl⟩

/-- **The backoff is bounded and monotone**: no operation overflows, it lies between its base and its
maximum and grows with the attempts, it is the power of two as long as the exponent is not clamped,
and both callers add a positive number: an instant in range lies ahead. -/
theorem retry_backoff_bounded_monotone (attemptCount : Int32) (base most : Int64) :
    (∃ backoff, boundedRetryBackoffSecondsI64 attemptCount base most = some backoff ∧
      max 1 base.toInt ≤ backoff.toInt ∧
      backoff.toInt ≤ max (max 1 base.toInt) most.toInt ∧
      (∀ later, attemptCount ≤ later →
        ∃ longer, boundedRetryBackoffSecondsI64 later base most = some longer ∧ backoff ≤ longer) ∧
      (1 ≤ attemptCount → attemptCount.toInt - 1 ≤ 30 →
        backoff.toInt = min (max 1 base.toInt * 2 ^ (attemptCount.toInt - 1).toNat)
          (max (max 1 base.toInt) most.toInt)) ∧
      (backoff.toUInt64.toNat : Int) = backoff.toInt ∧ 0 < backoff.toUInt64.toNat) ∧
    (∀ (now : DateTime) (run : ConnectorRun), run.attemptCount = attemptCount.toInt →
      recoverUpdate now base.toInt most.toInt run = .recoverCancelled now ∨
      recoverUpdate now base.toInt most.toInt run = .recoverFailed now ∨
      ∃ backoff, boundedRetryBackoffSecondsI64 attemptCount base most = some backoff ∧
        recoverUpdate now base.toInt most.toInt run = .recoverQueued now backoff.toInt ∧
        0 < backoff.toInt ∧ ∀ later, offset now backoff.toInt = some later →
          now < later ∧
          ((RunUpdate.recoverQueued now backoff.toInt).set run).nextAttemptAt = later) ∧
    (∀ (schedule : RetentionAttemptSchedule) (outcome : RetentionAttemptOutcome)
      (policy : ConnectorRetentionPolicy) (now : Instant),
      (∃ delay consecutiveFailures, 0 < delay ∧ schedule.recordOutcome outcome policy now =
        (addDuration now (fromSecs delay)).map fun next => ⟨next, consecutiveFailures⟩) ∧
      ∀ next, schedule.recordOutcome outcome policy now = some next →
        now + fromSecs 1 ≤ next.nextAttemptAt ∧ next.isDue now = false) := by
  refine ⟨?_, ?_, ?_⟩
  · obtain ⟨backoff, hbackoff, hvalue, hpos, hcast⟩ :=
      boundedRetryBackoffSecondsI64_pos attemptCount base most
    obtain ⟨hlow, hhigh⟩ := boundedRetryBackoffSeconds_bounds (n := attemptCount.toInt)
      (toInt64_bounds base).2 (toInt64_bounds most).2
    refine ⟨backoff, hbackoff, by rw [hvalue]; exact hlow, by rw [hvalue]; exact hhigh, ?_, ?_,
      hcast, by omega⟩
    · intro later hle
      obtain ⟨longer, hlonger, hvalue', -, -⟩ := boundedRetryBackoffSecondsI64_pos later base most
      refine ⟨longer, hlonger, Int64.le_iff_toInt_le.mpr ?_⟩
      rw [hvalue, hvalue']
      exact boundedRetryBackoffSeconds_monotone (toInt64_bounds base).2 (toInt64_bounds most).2
        (Int32.le_iff_toInt_le.mp hle)
    · intro hone hle
      have hone' : 1 ≤ attemptCount.toInt := Int32.le_iff_toInt_le.mp hone
      rw [hvalue, boundedRetryBackoffSeconds_eq (toInt64_bounds base).2 (toInt64_bounds most).2,
        backoffExponent_eq hone' hle]
  · intro now run hattempts
    exact recoverUpdate_later now base most run attemptCount hattempts
  · intro schedule outcome policy now
    exact ⟨schedule.recordOutcome_eq outcome policy now,
      fun _ => RetentionAttemptSchedule.recordOutcome_later⟩

/-- A third attempt over a base of five seconds. -/
theorem retry_backoff_third :
    ∃ backoff, boundedRetryBackoffSecondsI64 3 5 300 = some backoff ∧ backoff.toInt = 20 := by
  obtain ⟨⟨backoff, hbackoff, -, -, -, hexact, -⟩, -, -⟩ := retry_backoff_bounded_monotone 3 5 300
  have hvalue := hexact (by decide) (by decide)
  exact ⟨backoff, hbackoff, hvalue⟩

end DevPortal
