import DevPortal.Auth.BruteForce

/-!
# Auth/RetryAfter — how long a locked login is told to wait

    now ├────────────── lock ──────────────┤
        ├── whole seconds, cut off ──┤░░░░░      ░ still locked

What remains of a lock is told in whole seconds, cut off and at least one.  So the time told is
enough just if a whole number of seconds remains, or no more than one (`secondsUntil_enough`).  A
failure that locks the bucket itself is told the whole lockout; one that finds an older lock is told
what remains of that.  Of two buckets the later lock decides.
-/

namespace DevPortal

open LoginThrottleRepository

/-! ## One lock -/

/-- A whole number of seconds remains of the lock, or no more than one. -/
def WholeSeconds (now lockedUntil : Int) : Prop :=
  lockedUntil - now ≤ 1000000 ∨ (lockedUntil - now) % 1000000 = 0

instance (now lockedUntil : Int) : Decidable (WholeSeconds now lockedUntil) :=
  inferInstanceAs (Decidable (_ ∨ _))

/-- **The seconds told reach the end of the lock just if nothing was cut off.** -/
theorem secondsUntil_enough {now lockedUntil : Int} (h : now < lockedUntil) :
    lockedUntil ≤ now + seconds (secondsUntil lockedUntil now) ↔ WholeSeconds now lockedUntil := by
  have hdiv : (lockedUntil - now).tdiv 1000000 = (lockedUntil - now) / 1000000 :=
    Int.tdiv_eq_ediv_of_nonneg (by omega)
  simp only [seconds, secondsUntil, WholeSeconds, hdiv]
  omega

/-- A later lock is told at least as long. -/
theorem secondsUntil_mono {now u v : Int} (h : now < u) (huv : u ≤ v) :
    secondsUntil u now ≤ secondsUntil v now := by
  have hu : (u - now).tdiv 1000000 = (u - now) / 1000000 :=
    Int.tdiv_eq_ediv_of_nonneg (by omega)
  have hv : (v - now).tdiv 1000000 = (v - now) / 1000000 :=
    Int.tdiv_eq_ediv_of_nonneg (by omega)
  simp only [secondsUntil, hu, hv]
  omega

/-- A wait of at least one second lies ahead. -/
theorem lt_add_secondsUntil (now u : Int) : now < now + seconds (secondsUntil u now) := by
  have h : 1 ≤ secondsUntil u now := Int.le_max_right _ _
  simp only [seconds]
  omega

/-- **What is told of a lock is enough just if the lock is past or nothing was cut off.** -/
theorem told_enough (lock : Option Int) (now : Int) :
    (∀ s, lock.map (fun u => secondsUntil u now) = some s →
      lock.filter (now + seconds s < ·) = none) ↔
      ∀ u ∈ lock, now < u → WholeSeconds now u := by
  rcases lock with _ | u
  · simp
  have hsplit : (some u).filter (now + seconds (secondsUntil u now) < ·) = none ↔
      (now < u → WholeSeconds now u) := by
    rw [Option.filter_eq_none_iff]
    simp only [Option.some.injEq, forall_eq', decide_eq_true_eq, Int.not_lt]
    constructor
    · intro h hahead
      exact (secondsUntil_enough hahead).mp h
    · intro h
      rcases Int.lt_or_le now u with hahead | hpast
      · exact (secondsUntil_enough hahead).mpr (h hahead)
      · exact Int.le_trans hpast (Int.le_of_lt (lt_add_secondsUntil now u))
  simpa using hsplit

/-- The lock of a bucket that is still ahead. -/
def activeLock (hash : String) (now : DateTime) (t : Buckets) : Option DateTime :=
  ((t.find hash).bind (·.lockedUntil)).filter (now < ·)

theorem lt_of_activeLock {hash : String} {now u : DateTime} {t : Buckets}
    (h : activeLock hash now t = some u) : now < u := by
  obtain ⟨-, hahead⟩ := Option.filter_eq_some_iff.mp h
  exact of_decide_eq_true hahead

theorem retryAfterSeconds_eq (hash : String) (now : DateTime) (t : Buckets) :
    retryAfterSeconds hash now t = (activeLock hash now t).map fun u => secondsUntil u now := rfl

/-- A lock that is ahead later was ahead before. -/
theorem activeLock_later {hash : String} {now later : Int} (h : now ≤ later) (t : Buckets) :
    activeLock hash later t = (activeLock hash now t).filter (later < ·) := by
  have hboth : (fun u : Int => decide (later < u)) = fun u => decide (now < u) && decide (later < u) := by
    funext u
    by_cases hlater : later < u
    · have hnow : now < u := Int.lt_of_le_of_lt h hlater
      simp [hlater, hnow]
    · simp [hlater]
  unfold activeLock
  rw [Option.filter_filter, hboth]

/-! ## What a caller is told -/

section Sufficient

variable (t : Buckets) (now : DateTime)

/-- What `retry_after_seconds` tells is enough. -/
def RetrySufficient (hash : String) : Prop :=
  ∀ s, retryAfterSeconds hash now t = some s → retryAfterSeconds hash (now + seconds s) t = none

/-- What `record_failure` tells is enough. -/
def FailureSufficient (hash : String) (maxFailures windowSeconds lockoutSeconds : Int) : Prop :=
  ∀ s t', recordFailure hash now maxFailures windowSeconds lockoutSeconds t = some (some s, t') →
    retryAfterSeconds hash (now + seconds s) t' = none

/-- What `login` tells is enough for both buckets. -/
def LoginSufficient (client account : String) : Prop :=
  ∀ s, maxRetryAfter (retryAfterSeconds client now t) (retryAfterSeconds account now t) = some s →
    retryAfterSeconds client (now + seconds s) t = none ∧
      retryAfterSeconds account (now + seconds s) t = none

/-- The failures a bucket counts after one more, in the window that begins after `start`. -/
def nextCount (start : DateTime) (bucket : LoginThrottleBucket) : Int :=
  if bucket.windowStartedAt ≤ start then 1 else min (bucket.failureCount + 1) i32Max

/-- The later of the locks of two buckets. -/
def laterLock (client account : Option DateTime) : Option DateTime := maxRetryAfter client account

end Sufficient

/-- What `retry_after_seconds` tells, by the lock it finds. -/
theorem retrySufficient_iff (t : Buckets) (now : DateTime) (hash : String) :
    RetrySufficient t now hash ↔ ∀ u ∈ activeLock hash now t, WholeSeconds now u := by
  have hold := told_enough (activeLock hash now t) now
  have hahead : ∀ u ∈ activeLock hash now t, now < u := fun u hu => lt_of_activeLock hu
  unfold RetrySufficient
  constructor
  · intro h u hu
    refine hold.mp (fun s hs => ?_) u hu (hahead u hu)
    have hnone := h s hs
    rw [retryAfterSeconds_eq, Option.map_eq_none_iff] at hnone
    obtain ⟨v, -, rfl⟩ := Option.map_eq_some_iff.mp hs
    rwa [activeLock_later (Int.le_of_lt (lt_add_secondsUntil now v))] at hnone
  · intro h s hs
    have hnone := hold.mpr (fun u hu _ => h u hu) s hs
    obtain ⟨v, -, rfl⟩ := Option.map_eq_some_iff.mp hs
    rw [retryAfterSeconds_eq, Option.map_eq_none_iff,
      activeLock_later (Int.le_of_lt (lt_add_secondsUntil now v))]
    exact hnone

/-- **The lock after a failure**: a new one if the failures are too many, else the one that is still
ahead. -/
theorem LoginThrottleBucket.failed_lock {now maxFailures windowSeconds lockoutSeconds : Int}
    {b : LoginThrottleBucket} {start : DateTime} (hstart : offset now (-windowSeconds) = some start) :
    (maxFailures ≤ nextCount start b →
      ∀ b' ∈ b.failed now maxFailures windowSeconds lockoutSeconds,
        b'.lockedUntil = some (now + seconds lockoutSeconds)) ∧
    (¬ maxFailures ≤ nextCount start b →
      ∃ b', b.failed now maxFailures windowSeconds lockoutSeconds = some b' ∧
        b'.lockedUntil = b.lockedUntil.filter (now < ·)) := by
  have hfailed : b.failed now maxFailures windowSeconds lockoutSeconds =
      (if maxFailures ≤ nextCount start b then (offset now lockoutSeconds).map some
        else some (b.lockedUntil.filter (now < ·))).map fun lockedUntil =>
          ⟨b.bucketHash, nextCount start b,
            if b.windowStartedAt ≤ start then now else b.windowStartedAt, lockedUntil, now⟩ := by
    rw [failed, hstart]
    rfl
  constructor
  · intro hmax b' hb'
    rw [hfailed, if_pos hmax] at hb'
    obtain ⟨lock, hlock, rfl⟩ := Option.map_eq_some_iff.mp hb'
    obtain ⟨u, hu, rfl⟩ := Option.map_eq_some_iff.mp hlock
    rw [(offset_eq_some hu).1]
    rfl
  · intro hmax
    rw [hfailed, if_neg hmax]
    exact ⟨_, rfl, rfl⟩

/-- What `record_failure` tells, by the lock it leaves. -/
theorem failureSufficient_iff_left (t : Buckets) (now : DateTime) (hash : String)
    (maxFailures windowSeconds lockoutSeconds : Int) :
    FailureSufficient t now hash maxFailures windowSeconds lockoutSeconds ↔
      ∀ b, ((t.find hash).getD (.fresh hash now)).failed now maxFailures windowSeconds lockoutSeconds
        = some b → ∀ u ∈ b.lockedUntil, now < u → WholeSeconds now u := by
  have hleft : ∀ {r t'} {later : DateTime},
      recordFailure hash now maxFailures windowSeconds lockoutSeconds t = some (r, t') →
      ∃ b, ((t.find hash).getD (.fresh hash now)).failed now maxFailures windowSeconds lockoutSeconds
          = some b ∧ r = b.lockedUntil.map (fun u => secondsUntil u now) ∧
        (retryAfterSeconds hash later t' = none ↔ b.lockedUntil.filter (later < ·) = none) := by
    intro r t' later h
    obtain ⟨b, hb, hr, hfind, -⟩ := recordFailure_spec h
    refine ⟨b, hb, hr, ?_⟩
    rw [retryAfterSeconds, hfind hash, if_pos rfl, Option.bind_some, Option.map_eq_none_iff]
  constructor
  · intro h b hb
    have hrecord : recordFailure hash now maxFailures windowSeconds lockoutSeconds t = _ :=
      recordFailure_eq t
    rw [hb, Option.map_some] at hrecord
    refine (told_enough b.lockedUntil now).mp fun s hs => ?_
    rw [hs] at hrecord
    obtain ⟨b', hb', -, hnone⟩ := @hleft _ _ (now + seconds s) hrecord
    obtain rfl := Option.some.inj (hb.symm.trans hb')
    exact hnone.mp (h s _ hrecord)
  · intro h s t' hrecord
    obtain ⟨b, hb, hs, hnone⟩ := @hleft _ _ (now + seconds s) hrecord
    exact hnone.mpr ((told_enough b.lockedUntil now).mpr (h b hb) s hs.symm)

/-- What `record_failure` tells, by the lock it finds. -/
theorem failureSufficient_iff (t : Buckets) (now : DateTime) (hash : String)
    (maxFailures windowSeconds lockoutSeconds : Int) :
    FailureSufficient t now hash maxFailures windowSeconds lockoutSeconds ↔
      ∀ start, offset now (-windowSeconds) = some start →
        maxFailures ≤ nextCount start ((t.find hash).getD (.fresh hash now)) ∨
          ∀ u ∈ activeLock hash now t, WholeSeconds now u := by
  have hfound : ((t.find hash).getD (.fresh hash now)).lockedUntil.filter (now < ·) =
      activeLock hash now t := by
    unfold activeLock
    rcases t.find hash with _ | b <;> rfl
  rw [failureSufficient_iff_left]
  generalize (t.find hash).getD (.fresh hash now) = bucket at hfound
  constructor
  · intro h start hstart
    by_cases hmax : maxFailures ≤ nextCount start bucket
    · exact .inl hmax
    obtain ⟨b, hb, hlock⟩ := (LoginThrottleBucket.failed_lock hstart).2 hmax
    refine .inr fun u hu => h b hb u ?_ (lt_of_activeLock hu)
    rw [hlock, hfound]
    exact hu
  · intro h b hb u hu hahead
    obtain ⟨start, hstart, -⟩ := LoginThrottleBucket.failed_cases hb
    by_cases hmax : maxFailures ≤ nextCount start bucket
    · -- The lock is new, and as long as the lockout.
      have hnew := (LoginThrottleBucket.failed_lock hstart).1 hmax b hb
      obtain rfl := Option.some.inj (hnew.symm.trans hu)
      exact .inr (by simp only [seconds]; omega)
    · obtain ⟨b', hb', hlock⟩ := (LoginThrottleBucket.failed_lock hstart).2 hmax
      obtain rfl := Option.some.inj (hb.symm.trans hb')
      rw [hlock, hfound] at hu
      exact (h start hstart).resolve_left hmax u hu

/-- The longer wait of two is that for the later lock. -/
theorem maxRetryAfter_map {now : Int} {c a : Option Int} (hc : ∀ u ∈ c, now < u)
    (ha : ∀ u ∈ a, now < u) :
    maxRetryAfter (c.map fun u => secondsUntil u now) (a.map fun u => secondsUntil u now) =
      (laterLock c a).map fun u => secondsUntil u now := by
  rcases c with _ | u
  · rcases a with _ | v <;> rfl
  rcases a with _ | v
  · rfl
  have hu : now < u := hc u rfl
  have hv : now < v := ha v rfl
  simp only [Option.map_some, maxRetryAfter, laterLock, Option.some.injEq]
  rcases Int.le_total u v with h | h
  · rw [Int.max_eq_right h, Int.max_eq_right (secondsUntil_mono hu h)]
  · rw [Int.max_eq_left h, Int.max_eq_left (secondsUntil_mono hv h)]

/-- Both locks are past just if the later one is. -/
theorem laterLock_filter {later : Int} (c a : Option Int) :
    (laterLock c a).filter (later < ·) = none ↔
      c.filter (later < ·) = none ∧ a.filter (later < ·) = none := by
  rcases c with _ | u
  · simp [laterLock, maxRetryAfter]
  rcases a with _ | v
  · simp [laterLock, maxRetryAfter]
  simp only [laterLock, maxRetryAfter, Option.filter_eq_none_iff, Option.some.injEq, forall_eq',
    decide_eq_true_eq]
  omega

/-- The later of two locks that are ahead is ahead. -/
theorem lt_of_laterLock {now : Int} {c a : Option Int} (hc : ∀ u ∈ c, now < u)
    (ha : ∀ u ∈ a, now < u) : ∀ u ∈ laterLock c a, now < u := by
  intro u hu
  rcases c with _ | v
  · exact ha u hu
  rcases a with _ | w
  · exact hc u hu
  obtain rfl : max v w = u := Option.some.inj hu
  exact Int.lt_of_lt_of_le (hc v rfl) (Int.le_max_left v w)

/-- What `login` tells, by the later of the locks it finds. -/
theorem loginSufficient_iff (t : Buckets) (now : DateTime) (client account : String) :
    LoginSufficient t now client account ↔
      ∀ u ∈ laterLock (activeLock client now t) (activeLock account now t), WholeSeconds now u := by
  have hclient : ∀ u ∈ activeLock client now t, now < u := fun u hu => lt_of_activeLock hu
  have haccount : ∀ u ∈ activeLock account now t, now < u := fun u hu => lt_of_activeLock hu
  have hahead := lt_of_laterLock hclient haccount
  have hboth : ∀ {s : Int}, now ≤ now + seconds s →
      ((retryAfterSeconds client (now + seconds s) t = none ∧
        retryAfterSeconds account (now + seconds s) t = none) ↔
      (laterLock (activeLock client now t) (activeLock account now t)).filter (now + seconds s < ·)
        = none) := by
    intro s hs
    rw [retryAfterSeconds_eq, retryAfterSeconds_eq, Option.map_eq_none_iff, Option.map_eq_none_iff,
      activeLock_later hs, activeLock_later hs, laterLock_filter]
  have hold := told_enough (laterLock (activeLock client now t) (activeLock account now t)) now
  unfold LoginSufficient
  rw [retryAfterSeconds_eq, retryAfterSeconds_eq, maxRetryAfter_map hclient haccount]
  constructor
  · intro h u hu
    refine hold.mp (fun s hs => ?_) u hu (hahead u hu)
    have hnone := h s hs
    obtain ⟨v, -, rfl⟩ := Option.map_eq_some_iff.mp hs
    exact (hboth (Int.le_of_lt (lt_add_secondsUntil now v))).mp hnone
  · intro h s hs
    have hnone := hold.mpr (fun u hu _ => h u hu) s hs
    obtain ⟨v, -, rfl⟩ := Option.map_eq_some_iff.mp hs
    exact (hboth (Int.le_of_lt (lt_add_secondsUntil now v))).mpr hnone

/-! ## The time told -/

/-- **The time told is enough just if nothing of a second was cut off the lock it is told of.** -/
theorem retry_after_sufficient_iff (t : Buckets) (now : DateTime) (hash client account : String)
    (maxFailures windowSeconds lockoutSeconds : Int) :
    (RetrySufficient t now hash ↔ ∀ u ∈ activeLock hash now t, WholeSeconds now u) ∧
    (FailureSufficient t now hash maxFailures windowSeconds lockoutSeconds ↔
      ∀ start, offset now (-windowSeconds) = some start →
        maxFailures ≤ nextCount start ((t.find hash).getD (.fresh hash now)) ∨
          ∀ u ∈ activeLock hash now t, WholeSeconds now u) ∧
    (LoginSufficient t now client account ↔
      ∀ u ∈ laterLock (activeLock client now t) (activeLock account now t), WholeSeconds now u) :=
  ⟨retrySufficient_iff t now hash,
    failureSufficient_iff t now hash maxFailures windowSeconds lockoutSeconds,
    loginSufficient_iff t now client account⟩

/-- A second and a half before the end of a lock of fifteen minutes, one second is told. -/
theorem retry_after_too_short :
    ¬ ∀ (t : Buckets) (now : DateTime) (hash : String), RetrySufficient t now hash := by
  intro h
  have htold : retryAfterSeconds "client" 898500000 [⟨"client", 5, 0, some 900000000, 0⟩] = some 1 := by
    decide
  have hlocked : retryAfterSeconds "client" (898500000 + seconds 1)
      [⟨"client", 5, 0, some 900000000, 0⟩] ≠ none := by
    decide
  exact hlocked (h _ 898500000 "client" 1 htold)

end DevPortal
