import DevPortal.Config.Durations
import DevPortal.Config.Settings

/-!
# Config/DateRange — the instants that are computed with the settings

    2000 ──────── now ──────── 2100
    ◂─ window, cutoffs          expiries, lockout, lease, retry ─▸

A setting that is accepted may be any positive number of its type; the instants of a `DateTime` end
260 000 years away.  What every now of the century allows is the smaller of the two distances
(`secondsBehind`, `secondsAhead`).
-/

namespace DevPortal

/-! ## The century -/

/-- An instant of the years 2000 to 2100. -/
def ThisCentury (now : DateTime) : Prop := seconds 946684800 ≤ now ∧ now < seconds 4133980800

instance (now : DateTime) : Decidable (ThisCentury now) := inferInstanceAs (Decidable (_ ∧ _))

/-- The seconds from its end to the last instant. -/
def secondsAhead : Int := 8206132896000

/-- The seconds from the first instant to its beginning. -/
def secondsBehind : Int := 8335547913600

/-- An instant was computed, and it lies ahead. -/
def Ahead (now : DateTime) (t : Option DateTime) : Prop := ∃ t', t = some t' ∧ now < t'

/-- An instant was computed, and it lies behind. -/
def Behind (now : DateTime) (t : Option DateTime) : Prop := ∃ t', t = some t' ∧ t' < now

theorem thisCentury_iff {now : Int} :
    ThisCentury now ↔ 946684800000000 ≤ now ∧ now < 4133980800000000 := Iff.rfl

theorem representable_iff {t : Int} :
    Representable t ↔ -8334601228800000000 ≤ t ∧ t ≤ 8210266876799999999 := Iff.rfl

/-- An offset that is in range, and so is what it leads to. -/
theorem offset_eq {t n : Int} (hn : -9223372036854775 ≤ n ∧ n ≤ 9223372036854775)
    (h : Representable (t + n * 1000000)) : offset t n = some (t + n * 1000000) := if_pos ⟨hn, h⟩

theorem lt_add_seconds {t n : Int} (h : 0 < n) : t < t + n * 1000000 := by omega

theorem add_neg_seconds_lt {t n : Int} (h : 0 < n) : t + -n * 1000000 < t := by omega

/-- **How far ahead every instant of the century can look.** -/
theorem ahead_iff {n : Int} :
    (∀ now, ThisCentury now → Ahead now (offset now n)) ↔ 0 < n ∧ n ≤ secondsAhead := by
  have hdef : secondsAhead = 8206132896000 := rfl
  constructor
  · intro h
    -- the last instant of the century has the least ahead of it
    obtain ⟨t, ht, hlt⟩ := h 4133980799999999 (by decide)
    obtain ⟨rfl, hrep⟩ := offset_eq_some ht
    rw [representable_iff] at hrep
    have hlt : (4133980799999999 : Int) < 4133980799999999 + n * 1000000 := hlt
    omega
  · rintro ⟨hpos, hle⟩ now hnow
    rw [thisCentury_iff] at hnow
    have hrep : Representable (now + n * 1000000) := by
      rw [representable_iff]
      omega
    exact ⟨_, offset_eq ⟨by omega, by omega⟩ hrep, lt_add_seconds hpos⟩

/-- …and how far behind. -/
theorem behind_iff {n : Int} :
    (∀ now, ThisCentury now → Behind now (offset now (-n))) ↔ 0 < n ∧ n ≤ secondsBehind := by
  have hdef : secondsBehind = 8335547913600 := rfl
  constructor
  · intro h
    obtain ⟨t, ht, hlt⟩ := h 946684800000000 (by decide)
    obtain ⟨rfl, hrep⟩ := offset_eq_some ht
    rw [representable_iff] at hrep
    have hlt : (946684800000000 : Int) + -n * 1000000 < 946684800000000 := hlt
    omega
  · rintro ⟨hpos, hle⟩ now hnow
    rw [thisCentury_iff] at hnow
    have hrep : Representable (now + -n * 1000000) := by
      rw [representable_iff]
      omega
    exact ⟨_, offset_eq ⟨by omega, by omega⟩ hrep, add_neg_seconds_lt hpos⟩

/-! ## Instants -/

/-- `expires_at` of `establish_session`. -/
def sessionExpiresAt (now : DateTime) (config : AppConfig) : Option DateTime :=
  offset now config.authTokenTtlSeconds.val

/-- Where the window of `record_failure` starts. -/
def loginWindowStart (now : DateTime) (config : AppConfig) : Option DateTime :=
  offset now (-config.windowSeconds.val)

/-- Where the lockout of `record_failure` ends. -/
def loginLockoutEnd (now : DateTime) (config : AppConfig) : Option DateTime :=
  offset now config.lockoutSeconds.val

/-- `expires_at` of `start_entra_login`. -/
def loginTransactionExpiresAt (now : DateTime) (entra : EntraSettings) : Option DateTime :=
  offset now entra.transactionTtlSeconds.val

/-- `lease_expires_at` of `claim_next_queued` and `renew_lease`. -/
def leaseExpiresAt (now : DateTime) (policy : ConnectorRunLeasePolicy) : Option DateTime :=
  offset now policy.leaseSeconds

/-- `next_attempt_at` of `recover_expired_leases`. -/
def retryAt (now : DateTime) (policy : ConnectorRunLeasePolicy) (attemptCount : Int) :
    Option DateTime :=
  offset now
    (boundedRetryBackoffSeconds attemptCount policy.retryBaseSeconds policy.retryMaxSeconds)

/-- `now - Duration::days(days)`, of `cleanup_connector_retention`. -/
def retentionCutoff (now : DateTime) (days : Positive i64Max) : Option DateTime :=
  offset now (-(days.val * 86400))

/-- The days a policy keeps things for. -/
def ConnectorRetentionPolicy.days (policy : ConnectorRetentionPolicy) : List (Positive i64Max) :=
  policy.healthRetentionDays.toList ++ policy.runRetentionDays.toList
    ++ policy.auditLogRetentionDays.toList

/-- The row a failure leaves is computed with the window and the lockout. -/
theorem failed_isSome {now : DateTime} {config : AppConfig}
    (hwindow : (loginWindowStart now config).isSome) (hlockout : (loginLockoutEnd now config).isSome)
    (bucket : LoginThrottleBucket) (maxFailures : Int) :
    (bucket.failed now maxFailures config.windowSeconds.val config.lockoutSeconds.val).isSome := by
  obtain ⟨start, hstart⟩ := Option.isSome_iff_exists.mp hwindow
  obtain ⟨until', huntil⟩ := Option.isSome_iff_exists.mp hlockout
  rw [loginWindowStart] at hstart
  rw [loginLockoutEnd] at huntil
  simp only [LoginThrottleBucket.failed, hstart, huntil, Option.bind_some, Option.isSome_map,
    Option.map_some]
  split <;> split <;> rfl

/-- What a claim and a renewal write is what was computed. -/
theorem lease_written {now t : DateTime} {policy : ConnectorRunLeasePolicy}
    (h : leaseExpiresAt now policy = some t) (workerId : String) (r : ConnectorRun) :
    ((RunUpdate.claim now workerId policy.leaseSeconds).set r).leaseExpiresAt = some t ∧
      ((RunUpdate.renew now workerId policy.leaseSeconds).set r).leaseExpiresAt = some t := by
  obtain ⟨rfl, -⟩ := offset_eq_some h
  exact ⟨rfl, rfl⟩

/-- And what a recovery writes. -/
theorem retry_written {now t : DateTime} {policy : ConnectorRunLeasePolicy} {r : ConnectorRun}
    (h : retryAt now policy r.attemptCount = some t) :
    ((RunUpdate.recoverQueued now (boundedRetryBackoffSeconds r.attemptCount policy.retryBaseSeconds
      policy.retryMaxSeconds)).set r).nextAttemptAt = t := by
  obtain ⟨rfl, -⟩ := offset_eq_some h
  rfl

/-! ## What a now allows -/

/-- **The settings are in range** at an instant: every conversion keeps its value, and every instant
that is computed is one, on its side of now. -/
structure WorkerSettings.InRange (s : WorkerSettings) (now : DateTime) : Prop where
  leaseCast : s.lease.policy.leaseSeconds = s.lease.leaseSeconds.val
  retryBaseCast : s.lease.policy.retryBaseSeconds = s.lease.retryBaseSeconds.val
  retryMaxCast : s.lease.policy.retryMaxSeconds = s.lease.retryMaxSeconds.val
  session : Ahead now (sessionExpiresAt now s.app)
  window : Behind now (loginWindowStart now s.app)
  lockout : Ahead now (loginLockoutEnd now s.app)
  transaction : ∀ entra ∈ s.app.entra, Ahead now (loginTransactionExpiresAt now entra)
  lease : Ahead now (leaseExpiresAt now s.lease.policy)
  retry : ∀ attemptCount, isI32 attemptCount → Ahead now (retryAt now s.lease.policy attemptCount)
  cutoffs : ∀ days ∈ s.retention.days, Behind now (retentionCutoff now days)

/-- **Settings that are moderate**: what is looked ahead or behind by is not more than the century
allows, and a `u64` is an `i64`. -/
structure WorkerSettings.Moderate (s : WorkerSettings) : Prop where
  session : s.app.authTokenTtlSeconds.val ≤ secondsAhead
  window : s.app.windowSeconds.val ≤ secondsBehind
  lockout : s.app.lockoutSeconds.val ≤ secondsAhead
  lease : (s.lease.leaseSeconds.val : Int) ≤ secondsAhead
  retryMax : (s.lease.retryMaxSeconds.val : Int) ≤ i64Max
  retry : min ((s.lease.retryBaseSeconds.val : Int) * 2 ^ 30) (s.lease.retryMaxSeconds.val : Int) ≤
    secondsAhead
  cutoffs : ∀ days ∈ s.retention.days, days.val * 86400 ≤ secondsBehind

/-- A conversion keeps its value if it fits. -/
theorem castI64_eq_iff {n : Nat} : castI64 n = n ↔ (n : Int) ≤ i64Max := by
  unfold castI64
  simp only [u64Max]
  split
  · next h => exact ⟨fun _ => h, fun _ => rfl⟩
  · next h => exact ⟨fun heq => by omega, fun hle => absurd hle h⟩

section Backoff

variable {attemptCount base most : Int}

theorem boundedRetryBackoffSeconds_pos (hbase : 0 < base) (hmost : base ≤ most) :
    0 < boundedRetryBackoffSeconds attemptCount base most := by
  have hpow : ∀ e : Nat, 0 < base * 2 ^ e := fun e => mul_pos hbase (pow_pos (by decide) e)
  have hbase' : max base 1 = base := max_eq_left hbase
  have hmost' : max most base = most := max_eq_left hmost
  simp only [boundedRetryBackoffSeconds, hbase', hmost']
  exact lt_min (lt_min (hpow _) (by decide)) (hbase.trans_le hmost)

/-- The backoff grows up to the thirty-first attempt. -/
theorem boundedRetryBackoffSeconds_le (hbase : 0 < base) (hmost : base ≤ most) :
    boundedRetryBackoffSeconds attemptCount base most ≤ min (base * 2 ^ 30) most := by
  have hbase' : max base 1 = base := max_eq_left hbase
  have hmost' : max most base = most := max_eq_left hmost
  simp only [boundedRetryBackoffSeconds, hbase', hmost']
  refine min_le_min_right most ((min_le_left _ _).trans ?_)
  refine mul_le_mul_of_nonneg_left (pow_le_pow_right₀ (by decide) ?_) hbase.le
  omega

theorem boundedRetryBackoffSeconds_last (hbase : 0 < base) (hmost : base ≤ most)
    (hrange : most ≤ i64Max) :
    boundedRetryBackoffSeconds 31 base most = min (base * 2 ^ 30) most := by
  have hbase' : max base 1 = base := max_eq_left hbase
  have hmost' : max most base = most := max_eq_left hmost
  have hexponent : (min (max (saturatingSubOne 31) 0) 30).toNat = 30 := by decide
  simp only [boundedRetryBackoffSeconds, hbase', hmost', hexponent]
  rw [min_assoc, min_eq_right hrange]

end Backoff

namespace WorkerSettings

variable {s : WorkerSettings}

/-- What an accepted setting of the lease is, without its type. -/
theorem retryBase_le (s : WorkerSettings) :
    0 < (s.lease.retryBaseSeconds.val : Int) ∧
      (s.lease.retryBaseSeconds.val : Int) ≤ s.lease.retryMaxSeconds.val :=
  ⟨Int.natCast_pos.mpr s.lease.retryBaseSeconds.property.1, Int.ofNat_le.mpr s.lease.ordered⟩

theorem moderate_of_inRange (h : ∀ now, ThisCentury now → s.InRange now) : s.Moderate := by
  have hone := h 946684800000000 (by decide)
  have hmax : (s.lease.retryMaxSeconds.val : Int) ≤ i64Max :=
    castI64_eq_iff.mp hone.retryMaxCast
  obtain ⟨hbase, hmost⟩ := s.retryBase_le
  refine ⟨(ahead_iff.mp fun now hnow => (h now hnow).session).2,
    (behind_iff.mp fun now hnow => (h now hnow).window).2,
    (ahead_iff.mp fun now hnow => (h now hnow).lockout).2, ?_, hmax, ?_, fun days hdays => ?_⟩
  · rw [← hone.leaseCast]
    exact (ahead_iff.mp fun now hnow => (h now hnow).lease).2
  · have hretry := (ahead_iff.mp fun now hnow => (h now hnow).retry 31 (by decide)).2
    rwa [hone.retryBaseCast, hone.retryMaxCast, boundedRetryBackoffSeconds_last hbase hmost hmax]
      at hretry
  · exact (behind_iff.mp fun now hnow => (h now hnow).cutoffs days hdays).2

theorem inRange_of_moderate (h : s.Moderate) {now : DateTime} (hnow : ThisCentury now) :
    s.InRange now := by
  have hlease : castI64 s.lease.leaseSeconds.val = s.lease.leaseSeconds.val :=
    castI64_eq_iff.mpr (h.lease.trans (by decide))
  have hmax : castI64 s.lease.retryMaxSeconds.val = s.lease.retryMaxSeconds.val :=
    castI64_eq_iff.mpr h.retryMax
  obtain ⟨hpos, hmost⟩ := s.retryBase_le
  have hbase : castI64 s.lease.retryBaseSeconds.val = s.lease.retryBaseSeconds.val :=
    castI64_eq_iff.mpr (hmost.trans h.retryMax)
  refine ⟨hlease, hbase, hmax, ?_, ?_, ?_, fun entra _ => ?_, ?_, fun attemptCount _ => ?_,
    fun days hdays => ?_⟩
  · exact ahead_iff.mpr ⟨s.app.authTokenTtlSeconds.property.1, h.session⟩ now hnow
  · exact behind_iff.mpr ⟨s.app.windowSeconds.property.1, h.window⟩ now hnow
  · exact ahead_iff.mpr ⟨s.app.lockoutSeconds.property.1, h.lockout⟩ now hnow
  · have hbounds := entra.transactionTtlSeconds.property
    exact ahead_iff.mpr ⟨lt_of_lt_of_le (by decide) hbounds.1, hbounds.2.trans (by decide)⟩ now hnow
  · refine ahead_iff.mpr ⟨?_, ?_⟩ now hnow
    · rw [LeaseReadings.policy, hlease]
      exact Int.natCast_pos.mpr s.lease.leaseSeconds.property.1
    · rw [LeaseReadings.policy, hlease]
      exact h.lease
  · refine ahead_iff.mpr ⟨?_, ?_⟩ now hnow
    · simp only [LeaseReadings.policy, hbase, hmax]
      exact boundedRetryBackoffSeconds_pos hpos hmost
    · simp only [LeaseReadings.policy, hbase, hmax]
      exact (boundedRetryBackoffSeconds_le hpos hmost).trans h.retry
  · exact behind_iff.mpr ⟨mul_pos days.property.1 (by decide), h.cutoffs days hdays⟩ now hnow

end WorkerSettings

/-- **What an accepted environment allows.**  All that is computed with its settings is in range, at
every instant of the century, just if the settings are moderate. -/
theorem settings_in_range_iff (parsers : SettingParsers) (env : Environment) :
    (∀ settings, WorkerSettings.fromEnv parsers env = .ok settings →
      ∀ now, ThisCentury now → settings.InRange now) ↔
    ∀ settings, WorkerSettings.fromEnv parsers env = .ok settings → settings.Moderate :=
  forall_congr' fun _ => imp_congr_right fun _ =>
    ⟨WorkerSettings.moderate_of_inRange, fun h _ => WorkerSettings.inRange_of_moderate h⟩

/-! ## The largest numbers -/

namespace Largest

/-- Nothing is parsed here but numbers. -/
def parsers : SettingParsers := ⟨fun _ => none, fun _ => none⟩

/-- Three settings are the largest of their types, and the others are absent. -/
def env : Environment := fun name =>
  if name = "AUTH_TOKEN_TTL_SECONDS" then .value "9223372036854775807"
  else if name = "CONNECTOR_RUN_LEASE_SECONDS" then .value "18446744073709551615"
  else if name = "CONNECTOR_RUN_RETENTION_DAYS" then .value "9223372036854775807"
  else .notPresent

theorem accepted : ((WorkerSettings.fromEnv parsers env).toOption.map fun s =>
    (s.app.authTokenTtlSeconds.val, s.lease.policy.leaseSeconds,
      s.retention.runRetentionDays.map Subtype.val))
      = some (9223372036854775807, -1, some 9223372036854775807) := by
  decide +kernel

end Largest

open Largest in
/-- **Settings that are accepted and out of range**, on the first of May 2026: a session has no
expiry, a lease ends before it begins, and the runs have no cutoff. -/
theorem largest_settings_overflow :
    ∃ settings, WorkerSettings.fromEnv parsers env = .ok settings ∧
      sessionExpiresAt (seconds 1777622400) settings.app = none ∧
      leaseExpiresAt (seconds 1777622400) settings.lease.policy = some (seconds 1777622399) ∧
      (∃ days ∈ settings.retention.runRetentionDays,
        retentionCutoff (seconds 1777622400) days = none) ∧
      ¬ ∀ now, ThisCentury now → settings.InRange now := by
  obtain ⟨settings, hsettings, hread⟩ := Option.map_eq_some_iff.mp accepted
  obtain ⟨httl, hlease, hdays⟩ : _ ∧ _ ∧ _ := by simpa only [Prod.mk.injEq] using hread
  obtain ⟨days, hdays, hval⟩ := Option.map_eq_some_iff.mp hdays
  have hok : WorkerSettings.fromEnv parsers env = .ok settings := by
    cases hfrom : WorkerSettings.fromEnv parsers env with
    | error e =>
      rw [hfrom] at hsettings
      cases hsettings
    | ok s =>
      rw [hfrom] at hsettings
      rw [Option.some.inj hsettings]
  have hsession : sessionExpiresAt (seconds 1777622400) settings.app = none := by
    rw [sessionExpiresAt, httl]
    decide
  refine ⟨settings, hok, hsession, ?_, ⟨days, hdays, ?_⟩, fun h => ?_⟩
  · rw [leaseExpiresAt, hlease]
    decide
  · rw [retentionCutoff, hval]
    decide
  · obtain ⟨t, ht, -⟩ := (h (seconds 1777622400) (by decide)).session
    rw [hsession] at ht
    cases ht

end DevPortal
