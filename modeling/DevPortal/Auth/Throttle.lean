import DevPortal.Machinery.Table
import DevPortal.Machinery.Text
import DevPortal.Runs.Repository

/-!
# Auth/Throttle — the buckets of failed logins

    failure at t      count ▸ 1 if the window has passed, else count + 1      limit ▸ locked until t + lockout
    prune at t        buckets of before t - 1 day that are not locked then ▸ deleted

A bucket that is pruned had not been touched for a day.  Whether anyone can tell depends on the window:
up to a day it had passed anyway, and the next failure starts a new one with or without the bucket; a
longer one may still have been open, and its failures are forgotten.
-/

namespace DevPortal

/-! ## Settings -/

/-- `ConfigError`. -/
abbrev ConfigError := String

/-- The positive values of an integer type. -/
abbrev Positive (largest : Int) := { n : Int // 0 < n ∧ n ≤ largest }

/-- `parse_positive_i32` and `parse_positive_i64`. -/
def parsePositive {largest : Int} (name : String) (value : Option String) (default : Positive largest) :
    Except ConfigError (Positive largest) :=
  match value with
  | some value =>
    match Text.parseInt value with
    | some n => if h : 0 < n ∧ n ≤ largest then .ok ⟨n, h⟩
      else .error (name ++ " must be a positive integer")
    | none => .error (name ++ " must be a positive integer")
  | none => .ok default

/-- The values between two bounds. -/
abbrev Between (minimum maximum : Int) := { n : Int // minimum ≤ n ∧ n ≤ maximum }

/-- `parse_bounded_positive_i64`. -/
def parseBoundedPositiveI64 (name : String) (value : Option String) (default : Positive i64Max)
    (minimum maximum : Int) : Except ConfigError (Between minimum maximum) := do
  let value ← (parsePositive name value default : Except ConfigError (Positive i64Max))
  if h : minimum ≤ value.val ∧ value.val ≤ maximum then
    return ⟨value.val, h⟩
  else
    throw (name ++ s!" must be between {minimum} and {maximum}")

/-- The settings of the login throttle in `AppConfig`. -/
structure LoginThrottleConfig where
  maxFailures : Positive i32Max
  accountMaxFailures : Positive i32Max
  windowSeconds : Positive i64Max
  lockoutSeconds : Positive i64Max
  twice : maxFailures.val * 2 ≤ accountMaxFailures.val

/-- What `AppConfig::from_source` does for them. -/
def LoginThrottleConfig.fromSource (read : String → Except ConfigError (Option String)) :
    Except ConfigError LoginThrottleConfig := do
  let maxFailures ← parsePositive "AUTH_LOGIN_MAX_FAILURES" (← read "AUTH_LOGIN_MAX_FAILURES")
    ⟨5, by decide⟩
  let accountMaxFailures ← parsePositive "AUTH_LOGIN_ACCOUNT_MAX_FAILURES"
    (← read "AUTH_LOGIN_ACCOUNT_MAX_FAILURES") ⟨50, by decide⟩
  if twice : maxFailures.val * 2 ≤ accountMaxFailures.val then
    let windowSeconds ← parsePositive "AUTH_LOGIN_WINDOW_SECONDS" (← read "AUTH_LOGIN_WINDOW_SECONDS")
      ⟨900, by decide⟩
    let lockoutSeconds ← parsePositive "AUTH_LOGIN_LOCKOUT_SECONDS"
      (← read "AUTH_LOGIN_LOCKOUT_SECONDS") ⟨900, by decide⟩
    return ⟨maxFailures, accountMaxFailures, windowSeconds, lockoutSeconds, twice⟩
  else
    throw "AUTH_LOGIN_ACCOUNT_MAX_FAILURES must be at least twice AUTH_LOGIN_MAX_FAILURES"

/-! ## Instants that are computed -/

/-- `DateTime::<Utc>::MIN_UTC`. -/
def minUtc : Int := seconds (-8334601228800)

/-- `DateTime::<Utc>::MAX_UTC`. -/
def maxUtc : Int := seconds 8210266876799 + 999999

/-- An instant a `DateTime` can be. -/
def Representable (t : Int) : Prop := minUtc ≤ t ∧ t ≤ maxUtc

instance (t : Int) : Decidable (Representable t) := inferInstanceAs (Decidable (_ ∧ _))

/-- `t + Duration::seconds(n)` and `t - Duration::seconds(-n)`, which panic out of the range of a
`Duration` or of a `DateTime`. -/
def offset (t n : Int) : Option DateTime :=
  if (-(i64Max / 1000) ≤ n ∧ n ≤ i64Max / 1000) ∧ Representable (t + seconds n) then some (t + seconds n)
  else none

theorem offset_eq_some {t t' n : Int} (h : offset t n = some t') :
    t' = t + n * 1000000 ∧ Representable t' := by
  unfold offset at h
  split at h
  · next hrange =>
    obtain rfl := Option.some.inj h
    exact ⟨rfl, hrange.2⟩
  · cases h

/-- `Duration::num_seconds`, at least 1. -/
def secondsUntil (lockedUntil now : DateTime) : Int := max ((lockedUntil - now).tdiv 1000000) 1

/-! ## Buckets -/

/-- A row of `login_throttle_buckets`. -/
structure LoginThrottleBucket where
  bucketHash : String
  failureCount : Int
  windowStartedAt : DateTime
  lockedUntil : Option DateTime
  updatedAt : DateTime
  deriving DecidableEq, Repr

abbrev Buckets := List LoginThrottleBucket

/-- The row of a bucket. -/
abbrev Buckets.find (hash : String) (t : Buckets) : Option LoginThrottleBucket :=
  Table.lookup (·.bucketHash) hash t

/-- The row `record_failure` inserts when there is none. -/
def LoginThrottleBucket.fresh (hash : String) (now : DateTime) : LoginThrottleBucket :=
  ⟨hash, 0, now, none, now⟩

/-- The row with one more failure; no row where an instant is out of range. -/
def LoginThrottleBucket.failed (now : DateTime) (maxFailures windowSeconds lockoutSeconds : Int)
    (bucket : LoginThrottleBucket) : Option LoginThrottleBucket :=
  (offset now (-windowSeconds)).bind fun start =>
    let windowExpired := bucket.windowStartedAt ≤ start
    let failureCount := if windowExpired then 1 else min (bucket.failureCount + 1) i32Max
    let windowStartedAt := if windowExpired then now else bucket.windowStartedAt
    let lockedUntil := if maxFailures ≤ failureCount then (offset now lockoutSeconds).map some
      else some (bucket.lockedUntil.filter (now < ·))
    lockedUntil.map fun lockedUntil =>
      ⟨bucket.bucketHash, failureCount, windowStartedAt, lockedUntil, now⟩

namespace LoginThrottleRepository

/-- `retry_after_seconds`. -/
def retryAfterSeconds (hash : String) (now : DateTime) (t : Buckets) : Option Int :=
  (((t.find hash).bind (·.lockedUntil)).filter (now < ·)).map fun u => secondsUntil u now

/-- `record_failure`: the row is inserted unless it is there, locked, read and updated.  A panic rolls
the transaction back. -/
def recordFailure (hash : String) (now : DateTime) (maxFailures windowSeconds lockoutSeconds : Int)
    (t : Buckets) : Option (Option Int × Buckets) := do
  let t := if (t.find hash).isSome then t else t ++ [.fresh hash now]
  let bucket ← t.find hash
  let bucket ← bucket.failed now maxFailures windowSeconds lockoutSeconds
  return (bucket.lockedUntil.map fun u => secondsUntil u now,
    Table.update (·.bucketHash = hash) (fun _ => bucket) t)

/-- `clear`. -/
def clear (hash : String) (t : Buckets) : Buckets := Table.delete (·.bucketHash = hash) t

/-- `prune_before`. -/
def pruneBefore (cutoff : DateTime) (t : Buckets) : Buckets :=
  Table.delete (fun b => b.updatedAt < cutoff && b.lockedUntil.all (· < cutoff)) t

end LoginThrottleRepository

/-! ## Reading a bucket after each call -/

namespace LoginThrottleBucket

variable {now maxFailures windowSeconds lockoutSeconds : Int}
  {b b' : LoginThrottleBucket}

/-- **The row after a failure**: it is as of now, in a new window or in the one it was in, and locked
if the failures are too many. -/
theorem failed_cases (h : b.failed now maxFailures windowSeconds lockoutSeconds = some b') :
    ∃ start, offset now (-windowSeconds) = some start
      ∧ b'.bucketHash = b.bucketHash ∧ b'.updatedAt = now
      ∧ (b.windowStartedAt ≤ start ∧ b'.windowStartedAt = now ∧ b'.failureCount = 1
        ∨ ¬ b.windowStartedAt ≤ start ∧ b'.windowStartedAt = b.windowStartedAt
          ∧ b'.failureCount = min (b.failureCount + 1) i32Max)
      ∧ (maxFailures ≤ b'.failureCount →
        ∃ u, offset now lockoutSeconds = some u ∧ b'.lockedUntil = some u) := by
  simp only [failed, Option.bind_eq_some_iff, Option.map_eq_some_iff] at h
  obtain ⟨start, hstart, lockedUntil, hlock, rfl⟩ := h
  refine ⟨start, hstart, rfl, rfl, ?_, fun hmax => ?_⟩
  · by_cases hexpired : b.windowStartedAt ≤ start
    · exact Or.inl ⟨hexpired, if_pos hexpired, if_pos hexpired⟩
    · exact Or.inr ⟨hexpired, if_neg hexpired, if_neg hexpired⟩
  · rw [if_pos hmax] at hlock
    obtain ⟨u, hu, rfl⟩ := Option.map_eq_some_iff.mp hlock
    exact ⟨u, hu, rfl⟩

/-- **A bucket whose window has passed and that is not locked counts like none.** -/
theorem failed_of_stale (hwindow : 0 < windowSeconds)
    (hexpired : ∀ start, offset now (-windowSeconds) = some start → b.windowStartedAt ≤ start)
    (hlock : ∀ u ∈ b.lockedUntil, u ≤ now) :
    b.failed now maxFailures windowSeconds lockoutSeconds
      = (fresh b.bucketHash now).failed now maxFailures windowSeconds lockoutSeconds := by
  have hfree : b.lockedUntil.filter (now < ·) = none := by
    rw [Option.filter_eq_none_iff]
    intro u hu
    have := hlock u hu
    simpa using this
  cases hstart : offset now (-windowSeconds) with
  | none => simp [failed, hstart]
  | some start =>
    have hopen : ¬ now ≤ start := by
      rw [(offset_eq_some hstart).1]
      omega
    simp [failed, fresh, hstart, hexpired start hstart, hopen, hfree, i32Max]

end LoginThrottleBucket

namespace LoginThrottleRepository

variable {hash : String} {now : DateTime} {maxFailures windowSeconds lockoutSeconds : Int}

/-- **A failure, read off the row of its bucket.** -/
theorem recordFailure_eq (t : Buckets) :
    recordFailure hash now maxFailures windowSeconds lockoutSeconds t
      = (((t.find hash).getD (.fresh hash now)).failed now maxFailures windowSeconds
          lockoutSeconds).map fun b => (b.lockedUntil.map fun u => secondsUntil u now,
            Table.update (·.bucketHash = hash) (fun _ => b)
              (if (t.find hash).isSome then t else t ++ [.fresh hash now])) := by
  cases h : t.find hash with
  | none =>
    have hfind : (t ++ [LoginThrottleBucket.fresh hash now]).find hash = some (.fresh hash now) := by
      rw [Buckets.find, Table.lookup_concat, show Table.lookup _ hash t = none from h]
      simp [LoginThrottleBucket.fresh]
    simp only [recordFailure, h, Option.isSome_none, Bool.false_eq_true, if_false, hfind,
      Option.map_eq_bind]
    rfl
  | some b =>
    simp only [recordFailure, h, Option.isSome_some, if_true, Option.map_eq_bind]
    rfl

/-- **What a failure leaves**: the row of its bucket is new, the others are as they were. -/
theorem recordFailure_spec {t t' : Buckets} {r : Option Int}
    (h : recordFailure hash now maxFailures windowSeconds lockoutSeconds t = some (r, t')) :
    ∃ b, ((t.find hash).getD (.fresh hash now)).failed now maxFailures windowSeconds lockoutSeconds
        = some b
      ∧ r = b.lockedUntil.map (fun u => secondsUntil u now)
      ∧ (∀ k, t'.find k = if k = hash then some b else t.find k)
      ∧ (Table.Keyed (·.bucketHash) t → Table.Keyed (·.bucketHash) t') := by
  rw [recordFailure_eq] at h
  obtain ⟨b, hb, heq⟩ := Option.map_eq_some_iff.mp h
  obtain ⟨rfl, rfl⟩ := Prod.mk.inj heq
  have hhash : b.bucketHash = hash := by
    obtain ⟨-, -, hsame, -⟩ := LoginThrottleBucket.failed_cases hb
    rw [hsame]
    cases hfind : t.find hash with
    | none => rfl
    | some b' => exact Table.key_of_lookup hfind
  refine ⟨b, hb, rfl, fun k => ?_, fun ht => Table.keyed_replace hhash ?_⟩
  · rw [Buckets.find, Table.lookup_replace hhash]
    split
    · next hk =>
      subst hk
      cases hfind : t.find k with
      | none =>
        simp [Table.lookup_concat, show Table.lookup _ k t = none from hfind,
          LoginThrottleBucket.fresh]
      | some b' => simp [hfind]
    · next hk =>
      cases hfind : t.find hash with
      | none => simp [Buckets.find, Table.lookup_concat, LoginThrottleBucket.fresh, Ne.symm hk]
      | some b' => simp
  · split
    · exact ht
    · next hnone =>
      exact Table.keyed_concat ht (Option.not_isSome_iff_eq_none.mp hnone)

/-- A bucket that is pruned. -/
theorem find_pruneBefore {cutoff : DateTime} {t : Buckets} (ht : Table.Keyed (·.bucketHash) t)
    (k : String) :
    (pruneBefore cutoff t).find k = (t.find k).filter fun b =>
      !(b.updatedAt < cutoff && b.lockedUntil.all (· < cutoff)) :=
  Table.lookup_delete ht k

end LoginThrottleRepository

/-! ## Runs, with and without pruning -/

/-- The two buckets a failure goes to. -/
inductive ThrottleScope
  | client | account
  deriving DecidableEq, Repr

/-- The limit of a bucket. -/
def LoginThrottleConfig.limit (config : LoginThrottleConfig) : ThrottleScope → Int
  | .client => config.maxFailures.val
  | .account => config.accountMaxFailures.val

/-- A call on the buckets. -/
inductive ThrottleCall
  | recordFailure (scope : ThrottleScope) (hash : String) (now : DateTime)
  | retryAfterSeconds (hash : String) (now : DateTime)
  | clear (hash : String)

/-- Who prunes: a login, or the retention cleanup. -/
inductive Pruner
  | login | retentionCleanup
  deriving DecidableEq, Repr

/-- The days a bucket is kept; the second is `DEFAULT_LOGIN_THROTTLE_RETENTION_DAYS`. -/
def Pruner.days : Pruner → Int
  | login => 1
  | retentionCleanup => 30

/-- What happens to the buckets. -/
inductive ThrottleEvent
  | call (c : ThrottleCall)
  | prune (by' : Pruner) (now : DateTime)

/-- What a call returns; a failure that panics returns nothing. -/
inductive ThrottleResult
  | recorded (r : Option (Option Int))
  | retryAfter (r : Option Int)
  | cleared
  deriving DecidableEq, Repr

open LoginThrottleRepository

/-- One call. -/
def ThrottleCall.exec (config : LoginThrottleConfig) (t : Buckets) :
    ThrottleCall → ThrottleResult × Buckets
  | recordFailure scope hash now =>
    match LoginThrottleRepository.recordFailure hash now (config.limit scope)
        config.windowSeconds.val config.lockoutSeconds.val t with
    | some (r, t') => (.recorded (some r), t')
    | none => (.recorded none, t)
  | retryAfterSeconds hash now => (.retryAfter (LoginThrottleRepository.retryAfterSeconds hash now t), t)
  | clear hash => (.cleared, LoginThrottleRepository.clear hash t)

/-- `prune_before`, `days` before `now`; where that is out of range nothing happens. -/
def Pruner.exec (by' : Pruner) (now : DateTime) (t : Buckets) : Buckets :=
  match offset now (-(by'.days * 86400)) with
  | some cutoff => pruneBefore cutoff t
  | none => t

/-- What the calls return, one after the other. -/
def throttleResults (config : LoginThrottleConfig) : Buckets → List ThrottleEvent → List ThrottleResult
  | _, [] => []
  | t, .call c :: events => (c.exec config t).1 :: throttleResults config (c.exec config t).2 events
  | t, .prune by' now :: events => throttleResults config (by'.exec now t) events

/-- The instant of a call. -/
def ThrottleCall.time : ThrottleCall → Option DateTime
  | recordFailure _ _ now | retryAfterSeconds _ now => some now
  | clear _ => none

namespace ThrottleEvent

/-- The event is a call. -/
def isCall : ThrottleEvent → Bool
  | call _ => true
  | prune .. => false

/-- The instant of an event. -/
def time : ThrottleEvent → Option DateTime
  | call c => c.time
  | prune _ now => some now

/-- The instant of an event that is a call. -/
def callTime : ThrottleEvent → Option DateTime
  | call c => c.time
  | prune .. => none

end ThrottleEvent

/-- The instants of the calls. -/
def callTimes (events : List ThrottleEvent) : List DateTime := events.filterMap (·.callTime)

/-- **Time does not go back**: no call is at an earlier instant than what came before it. -/
def InOrder (events : List ThrottleEvent) : Prop :=
  events.Pairwise fun e e' => ∀ now ∈ e.time, ∀ now' ∈ e'.callTime, now ≤ now'

/-- The rows of a table that calls at the instants `times` may find. -/
structure BucketsBefore (times : List DateTime) (t : Buckets) : Prop where
  keyed : Table.Keyed (·.bucketHash) t
  started : ∀ b ∈ t, b.windowStartedAt ≤ b.updatedAt
  past : ∀ b ∈ t, ∀ now ∈ times, b.updatedAt ≤ now

/-- **Nobody can tell whether buckets are pruned**: in every run of calls on every table, the calls
return what they return without the prunings in between. -/
def PruningUnobservable (config : LoginThrottleConfig) : Prop :=
  ∀ t events, BucketsBefore (callTimes events) t → InOrder events →
    (∀ e ∈ events, ∀ now ∈ e.time, Representable now) →
    throttleResults config t events = throttleResults config t (events.filter (·.isCall))

/-! ## A pruned table follows the other one -/

/-- The window of the bucket has passed at `now`, and it is not locked. -/
structure LoginThrottleBucket.Stale (config : LoginThrottleConfig) (now : DateTime)
    (b : LoginThrottleBucket) : Prop where
  expired : ∀ start, offset now (-config.windowSeconds.val) = some start → b.windowStartedAt ≤ start
  unlocked : ∀ u ∈ b.lockedUntil, u ≤ now

/-- **The pruned table `t'` has the buckets of `t`, but for some that are stale** at all instants to
come. -/
structure PrunedOf (config : LoginThrottleConfig) (times : List DateTime) (t t' : Buckets) : Prop where
  keyed : Table.Keyed (·.bucketHash) t'
  started : ∀ k b, t.find k = some b → b.windowStartedAt ≤ b.updatedAt
  past : ∀ k b, t.find k = some b → ∀ now ∈ times, b.updatedAt ≤ now
  same : ∀ k, t'.find k = t.find k
    ∨ t'.find k = none ∧ ∀ b, t.find k = some b → ∀ now ∈ times, b.Stale config now

section Simulation

variable {config : LoginThrottleConfig} {times : List DateTime} {t t' : Buckets}

theorem BucketsBefore.prunedOf (ht : BucketsBefore times t) : PrunedOf config times t t :=
  ⟨ht.keyed, fun _ b hb => ht.started b (Table.mem_of_lookup hb),
    fun _ b hb => ht.past b (Table.mem_of_lookup hb), fun _ => Or.inl rfl⟩

/-- Fewer instants to come. -/
theorem PrunedOf.mono (h : PrunedOf config times t t') {times' : List DateTime}
    (hsub : ∀ now ∈ times', now ∈ times) : PrunedOf config times' t t' :=
  ⟨h.keyed, h.started, fun k b hb now hnow => h.past k b hb now (hsub now hnow), fun k =>
    (h.same k).imp_right fun hk => ⟨hk.1, fun b hb now hnow => hk.2 b hb now (hsub now hnow)⟩⟩

/-- The buckets are locked for the same calls. -/
theorem PrunedOf.retryAfterSeconds_eq {now : DateTime} (h : PrunedOf config times t t')
    (hnow : now ∈ times) (k : String) : retryAfterSeconds k now t' = retryAfterSeconds k now t := by
  rcases h.same k with hk | ⟨hk, hstale⟩
  · rw [retryAfterSeconds, hk, retryAfterSeconds]
  · cases hfind : t.find k with
    | none => rw [retryAfterSeconds, hk, retryAfterSeconds, hfind]
    | some b =>
      have hfree : b.lockedUntil.filter (now < ·) = none := by
        rw [Option.filter_eq_none_iff]
        intro u hu
        simpa using (hstale b hfind now hnow).unlocked u hu
      simp [retryAfterSeconds, hk, hfind, hfree]

/-- A failure counts the same. -/
theorem PrunedOf.failed_eq {now : DateTime} (h : PrunedOf config times t t') (hnow : now ∈ times)
    (k : String) (limit : Int) :
    ((t'.find k).getD (.fresh k now)).failed now limit config.windowSeconds.val
        config.lockoutSeconds.val
      = ((t.find k).getD (.fresh k now)).failed now limit config.windowSeconds.val
        config.lockoutSeconds.val := by
  rcases h.same k with hk | ⟨hk, hstale⟩
  · rw [hk]
  · cases hfind : t.find k with
    | none => rw [hk]
    | some b =>
      have hb := hstale b hfind now hnow
      rw [hk, Option.getD_none, Option.getD_some,
        LoginThrottleBucket.failed_of_stale config.windowSeconds.property.1 hb.expired hb.unlocked,
        show b.bucketHash = k from Table.key_of_lookup hfind]

/-- One bucket written in both tables. -/
theorem PrunedOf.write (h : PrunedOf config times t t') {u u' : Buckets} {k : String}
    {r : Option LoginThrottleBucket} (hkeyed : Table.Keyed (·.bucketHash) u')
    (hu : ∀ k', u.find k' = if k' = k then r else t.find k')
    (hu' : ∀ k', u'.find k' = if k' = k then r else t'.find k')
    (hr : ∀ b, r = some b → b.windowStartedAt ≤ b.updatedAt ∧ ∀ now ∈ times, b.updatedAt ≤ now) :
    PrunedOf config times u u' := by
  have hrow : ∀ k' b, u.find k' = some b →
      b.windowStartedAt ≤ b.updatedAt ∧ ∀ now ∈ times, b.updatedAt ≤ now := by
    intro k' b hb
    rw [hu] at hb
    split at hb
    · exact hr b hb
    · exact ⟨h.started k' b hb, h.past k' b hb⟩
  refine ⟨hkeyed, fun k' b hb => (hrow k' b hb).1, fun k' b hb => (hrow k' b hb).2, fun k' => ?_⟩
  rw [hu, hu']
  split
  · exact Or.inl rfl
  · exact h.same k'

/-- **A call returns the same**, and the tables go on together. -/
theorem PrunedOf.exec {c : ThrottleCall} (h : PrunedOf config (c.time.toList ++ times) t t')
    (hlater : ∀ now ∈ c.time, ∀ now' ∈ times, now ≤ now') :
    (c.exec config t').1 = (c.exec config t).1
      ∧ PrunedOf config times (c.exec config t).2 (c.exec config t').2 := by
  have hrest : PrunedOf config times t t' := h.mono fun now hnow => List.mem_append_right _ hnow
  cases c with
  | retryAfterSeconds k now =>
    refine ⟨?_, hrest⟩
    exact congrArg ThrottleResult.retryAfter
      (h.retryAfterSeconds_eq (List.mem_append_left _ (List.mem_singleton.mpr rfl)) k)
  | clear k =>
    exact ⟨rfl, hrest.write (Table.keyed_delete h.keyed) (fun k' => Table.lookup_delete_key k k' t)
      (fun k' => Table.lookup_delete_key k k' t') fun _ hr => nomatch hr⟩
  | recordFailure scope k now =>
    have hnow : now ∈ (ThrottleCall.recordFailure scope k now).time.toList ++ times :=
      List.mem_append_left _ (List.mem_singleton.mpr rfl)
    have hfailed := h.failed_eq hnow k (config.limit scope)
    simp only [ThrottleCall.exec]
    cases hrec : LoginThrottleRepository.recordFailure k now (config.limit scope)
        config.windowSeconds.val config.lockoutSeconds.val t with
    | none =>
      have hrec' : LoginThrottleRepository.recordFailure k now (config.limit scope)
          config.windowSeconds.val config.lockoutSeconds.val t' = none := by
        rw [recordFailure_eq, Option.map_eq_none_iff] at hrec ⊢
        rw [hfailed, hrec]
      rw [hrec']
      exact ⟨rfl, hrest⟩
    | some out =>
      obtain ⟨r, u⟩ := out
      obtain ⟨b, hb, rfl, hu, -⟩ := recordFailure_spec hrec
      obtain ⟨out', hrec'⟩ : ∃ out', LoginThrottleRepository.recordFailure k now (config.limit scope)
          config.windowSeconds.val config.lockoutSeconds.val t' = some out' := by
        rw [recordFailure_eq, hfailed, hb]
        exact ⟨_, rfl⟩
      obtain ⟨r', u'⟩ := out'
      obtain ⟨b', hb', rfl, hu', hkeyed⟩ := recordFailure_spec hrec'
      obtain rfl : b' = b := Option.some.inj (hb'.symm.trans (hfailed.trans hb))
      rw [hrec']
      refine ⟨rfl, hrest.write (hkeyed h.keyed) hu hu' fun b'' hb'' => ?_⟩
      obtain rfl := Option.some.inj hb''
      obtain ⟨_, -, -, hupdated, hstarted, -⟩ := LoginThrottleBucket.failed_cases hb
      refine ⟨?_, fun now' hnow' => hupdated ▸ hlater now (by rfl) now' hnow'⟩
      rcases hstarted with ⟨-, hstarted, -⟩ | ⟨-, hstarted, -⟩
      · rw [hstarted, hupdated]
      · rw [hstarted, hupdated]
        cases hfind : t.find k with
        | none => exact Int.le_refl _
        | some b'' => exact Int.le_trans (h.started k b'' hfind) (h.past k b'' hfind now hnow)

/-- What is pruned is older than a day at every later instant. -/
theorem Pruner.cutoff_le {by' : Pruner} {now now' cutoff : Int}
    (hcutoff : offset now (-(by'.days * 86400)) = some cutoff) (hle : now ≤ now') :
    cutoff ≤ now' - 86400000000 := by
  have hdays : 1 ≤ by'.days := by cases by' <;> decide
  have := (offset_eq_some hcutoff).1
  omega

/-- A window that is computed has started within the last day. -/
theorem LoginThrottleConfig.le_windowStart {now start : Int}
    (hwindow : config.windowSeconds.val ≤ 86400 ∨ maxUtc < minUtc + seconds config.windowSeconds.val)
    (hnow : now ≤ maxUtc) (hstart : offset now (-config.windowSeconds.val) = some start) :
    now - 86400000000 ≤ start := by
  obtain ⟨hval, hmin, -⟩ := offset_eq_some hstart
  simp only [minUtc, maxUtc, seconds] at hwindow hnow hmin
  omega

/-- **A pruning goes unnoticed**, when the window is a day at most or is never computed. -/
theorem PrunedOf.prune (h : PrunedOf config times t t') {by' : Pruner} {now : DateTime}
    (hnow : ∀ now' ∈ times, now ≤ now' ∧ now' ≤ maxUtc)
    (hwindow : config.windowSeconds.val ≤ 86400 ∨ maxUtc < minUtc + seconds config.windowSeconds.val) :
    PrunedOf config times t (by'.exec now t') := by
  unfold Pruner.exec
  split
  · next cutoff hcutoff =>
    refine ⟨Table.keyed_delete h.keyed, h.started, h.past, fun k => ?_⟩
    rw [find_pruneBefore h.keyed]
    rcases h.same k with hk | ⟨hk, hstale⟩
    · cases hfind : t.find k with
      | none => exact Or.inl (by rw [hk, hfind]; rfl)
      | some b =>
        rw [hk, hfind]
        by_cases hpruned : b.updatedAt < cutoff ∧ b.lockedUntil.all (· < cutoff)
        · refine Or.inr ⟨by simp [Option.filter, hpruned], fun b' hb' now' hnow' => ?_⟩
          obtain rfl := Option.some.inj hb'
          obtain ⟨hle, hmax⟩ := hnow now' hnow'
          have hcut := Pruner.cutoff_le hcutoff hle
          refine ⟨fun start hstart => ?_, fun u hu => ?_⟩
          · calc b.windowStartedAt ≤ b.updatedAt := h.started k b hfind
              _ ≤ cutoff := Int.le_of_lt hpruned.1
              _ ≤ now' - 86400000000 := hcut
              _ ≤ start := LoginThrottleConfig.le_windowStart hwindow hmax hstart
          · have hlock : u < cutoff := by
              rw [Option.mem_def.mp hu] at hpruned
              simpa using hpruned.2
            exact Int.le_trans (Int.le_of_lt hlock) (Int.le_trans hcut (Int.sub_le_self _ (by decide)))
        · exact Or.inl (by simp only [Option.filter]; simpa using hpruned)
    · exact Or.inr ⟨by rw [hk]; rfl, hstale⟩
  · exact h

/-- **The two runs, step by step.** -/
theorem PrunedOf.throttleResults_eq {events : List ThrottleEvent}
    (hwindow : config.windowSeconds.val ≤ 86400 ∨ maxUtc < minUtc + seconds config.windowSeconds.val)
    (horder : InOrder events) (hrange : ∀ now ∈ callTimes events, now ≤ maxUtc)
    (h : PrunedOf config (callTimes events) t t') :
    throttleResults config t' events = throttleResults config t (events.filter (·.isCall)) := by
  induction events generalizing t t' with
  | nil => rfl
  | cons e events ih =>
    obtain ⟨hfirst, hrest⟩ := List.pairwise_cons.mp horder
    have hlater : ∀ now ∈ e.time, ∀ now' ∈ callTimes events, now ≤ now' := by
      intro now hnow now' hnow'
      obtain ⟨e', he', htime⟩ := List.mem_filterMap.mp hnow'
      exact hfirst e' he' now hnow now' htime
    have hrange' : ∀ now ∈ callTimes events, now ≤ maxUtc := by
      intro now hnow
      obtain ⟨e', he', htime⟩ := List.mem_filterMap.mp hnow
      exact hrange now (List.mem_filterMap.mpr ⟨e', List.mem_cons_of_mem _ he', htime⟩)
    cases e with
    | call c =>
      have htimes : callTimes (.call c :: events) = c.time.toList ++ callTimes events := by
        cases hc : c.time <;> simp [callTimes, ThrottleEvent.callTime, hc]
      rw [htimes] at h
      obtain ⟨hresult, hnext⟩ := h.exec hlater
      show _ :: _ = _ :: _
      rw [hresult, ih hrest hrange' hnext]
    | prune by' now =>
      have htimes : callTimes (.prune by' now :: events) = callTimes events := rfl
      rw [htimes] at h
      exact ih hrest hrange' (h.prune (fun now' hnow' => ⟨hlater now rfl now' hnow', hrange' now' hnow'⟩)
        hwindow)

end Simulation

/-! ## A window longer than a day -/

section Forgotten

variable (config : LoginThrottleConfig)

/-- A bucket one failure short of the limit, untouched for a day and a microsecond at the last
instant there is. -/
def openBucket : LoginThrottleBucket :=
  ⟨"account", config.accountMaxFailures.val - 1, maxUtc - 86400000001, none, maxUtc - 86400000001⟩

/-- It is pruned, and there is one more failure. -/
def pruneAndFail : List ThrottleEvent :=
  [.prune .login maxUtc, .call (.recordFailure .account "account" maxUtc)]

theorem bucketsBefore_openBucket :
    BucketsBefore (callTimes pruneAndFail) [openBucket config] := by
  refine ⟨List.nodup_singleton _, fun b hb => ?_, fun b hb now hnow => ?_⟩
  · obtain rfl := List.mem_singleton.mp hb
    exact Int.le_refl _
  · obtain rfl := List.mem_singleton.mp hb
    obtain rfl : now = maxUtc := List.mem_singleton.mp hnow
    exact Int.sub_le_self _ (by decide)

variable {config}

/-- A window that can be taken from the last instant. -/
theorem offset_maxUtc_neg {n : Int} (hpos : 0 < n) (hrange : minUtc + seconds n ≤ maxUtc) :
    offset maxUtc (-n) = some (maxUtc - seconds n) := by
  have heq : maxUtc + seconds (-n) = maxUtc - seconds n := by
    simp only [seconds]
    omega
  have hrep : Representable (maxUtc - seconds n) := by
    simp only [seconds] at hrange
    exact ⟨by simp only [seconds]; omega, by simp only [seconds]; omega⟩
  unfold offset
  rw [heq]
  refine if_pos ⟨?_, hrep⟩
  simp only [minUtc, maxUtc, seconds, i64Max] at hrange ⊢
  omega

/-- Nothing comes after the last instant. -/
theorem offset_maxUtc_pos {n : Int} (hpos : 0 < n) : offset maxUtc n = none := by
  refine if_neg fun hr => ?_
  have hle := hr.2.2
  simp only [seconds] at hle
  omega

/-- With the bucket it is the last failure that is allowed, and the end of the lockout is out of
range. -/
theorem failed_openBucket (hday : 86400 < config.windowSeconds.val)
    (hrange : minUtc + seconds config.windowSeconds.val ≤ maxUtc) :
    (openBucket config).failed maxUtc config.accountMaxFailures.val config.windowSeconds.val
      config.lockoutSeconds.val = none := by
  have hopen : ¬ maxUtc - 86400000001 ≤ maxUtc - seconds config.windowSeconds.val := by
    simp only [seconds]
    omega
  have hwindow : ¬ (openBucket config).windowStartedAt ≤ maxUtc - seconds config.windowSeconds.val :=
    hopen
  have hmax := config.accountMaxFailures.property.2
  have hfull : config.accountMaxFailures.val ≤ min ((openBucket config).failureCount + 1) i32Max := by
    simp only [openBucket]
    omega
  simp only [LoginThrottleBucket.failed, offset_maxUtc_neg config.windowSeconds.property.1 hrange,
    Option.bind_some, if_neg hwindow, if_pos hfull,
    offset_maxUtc_pos config.lockoutSeconds.property.1, Option.map_none]

/-- Without it, it is the first. -/
theorem failed_fresh (hrange : minUtc + seconds config.windowSeconds.val ≤ maxUtc) :
    (LoginThrottleBucket.fresh "account" maxUtc).failed maxUtc config.accountMaxFailures.val
      config.windowSeconds.val config.lockoutSeconds.val = some ⟨"account", 1, maxUtc, none, maxUtc⟩ := by
  have hpos := config.windowSeconds.property.1
  have hopen : ¬ maxUtc ≤ maxUtc - seconds config.windowSeconds.val := by
    simp only [seconds]
    omega
  have hcount : ¬ config.accountMaxFailures.val ≤ 1 := by
    have := config.twice
    have := config.maxFailures.property.1
    omega
  simp [LoginThrottleBucket.failed, offset_maxUtc_neg hpos hrange, LoginThrottleBucket.fresh, hopen,
    hcount, i32Max]

theorem pruning_observed (hday : 86400 < config.windowSeconds.val)
    (hrange : minUtc + seconds config.windowSeconds.val ≤ maxUtc) :
    ¬ PruningUnobservable config := by
  intro hsame
  have hresults := hsame [openBucket config] pruneAndFail (bucketsBefore_openBucket config)
    (by simp [InOrder, pruneAndFail, ThrottleEvent.time, ThrottleEvent.callTime, ThrottleCall.time])
    (by simp [pruneAndFail, ThrottleEvent.time, ThrottleCall.time]; decide)
  have hpruned : throttleResults config [openBucket config] pruneAndFail
      = [.recorded (some none)] := by
    show [((ThrottleCall.recordFailure .account "account" maxUtc).exec config []).1] = _
    simp only [ThrottleCall.exec, LoginThrottleConfig.limit, recordFailure_eq, Table.lookup_nil,
      Option.getD_none, failed_fresh hrange]
    rfl
  have hkept : throttleResults config [openBucket config] (pruneAndFail.filter (·.isCall))
      = [.recorded none] := by
    show [((ThrottleCall.recordFailure .account "account" maxUtc).exec config [openBucket config]).1] = _
    have hfind : Buckets.find "account" [openBucket config] = some (openBucket config) := rfl
    simp only [ThrottleCall.exec, LoginThrottleConfig.limit, recordFailure_eq, hfind,
      Option.getD_some, failed_openBucket hday hrange]
    rfl
  rw [hpruned, hkept] at hresults
  cases hresults

end Forgotten

/-- **Pruning is unobservable exactly when the window is a day at most** — or so long that no instant
has one before it, and every failure panics. -/
theorem pruning_unobservable_iff (config : LoginThrottleConfig) :
    PruningUnobservable config
      ↔ config.windowSeconds.val ≤ 86400 ∨ maxUtc < minUtc + seconds config.windowSeconds.val := by
  constructor
  · intro hsame
    by_contra hlong
    obtain ⟨hday, hrange⟩ := not_or.mp hlong
    exact pruning_observed (Int.not_le.mp hday) (Int.not_lt.mp hrange) hsame
  · intro hwindow t events ht horder hrange
    refine ht.prunedOf.throttleResults_eq hwindow horder fun now hnow => ?_
    obtain ⟨e, he, htime⟩ := List.mem_filterMap.mp hnow
    cases e with
    | call c => exact (hrange (.call c) he now htime).2
    | prune => cases htime

/-- A window of two days and two failures: the first one is forgotten after a day, and the second
locks nobody out. -/
theorem pruning_forgets_failure :
    let config : LoginThrottleConfig :=
      ⟨⟨1, by decide⟩, ⟨2, by decide⟩, ⟨172800, by decide⟩, ⟨900, by decide⟩, by decide⟩
    let failures : List ThrottleEvent := [.call (.recordFailure .account "a" 0),
      .prune .login 86400000001, .call (.recordFailure .account "a" 86400000001)]
    throttleResults config [] failures = [.recorded (some none), .recorded (some none)]
      ∧ throttleResults config [] (failures.filter (·.isCall))
        = [.recorded (some none), .recorded (some (some 900))]
      ∧ ¬ PruningUnobservable config := by
  intro config failures
  have hpruned : throttleResults config [] failures
      = [.recorded (some none), .recorded (some none)] := by decide
  have hkept : throttleResults config [] (failures.filter (·.isCall))
      = [.recorded (some none), .recorded (some (some 900))] := by decide
  refine ⟨hpruned, hkept, fun hsame => ?_⟩
  have hresults := hsame [] failures ⟨Table.keyed_nil, by simp, by simp⟩ ?_ ?_
  · rw [hpruned, hkept] at hresults
    cases hresults
  · simp [InOrder, failures, ThrottleEvent.time, ThrottleEvent.callTime, ThrottleCall.time]
  · simp [failures, ThrottleEvent.time, ThrottleCall.time]
    decide

end DevPortal
