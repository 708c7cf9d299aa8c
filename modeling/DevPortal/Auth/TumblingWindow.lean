import DevPortal.Auth.RetryAfter
import DevPortal.Machinery.Tumbling

/-!
# Auth/TumblingWindow — what a bucket has counted

    failures of a bucket    t₁ t₂ t₃ │ t₄ t₅          t₁ + window ≤ t₄
    its row                 window_started_at = t₄, failure_count = 2

A bucket keeps the window its failures are in, and nothing of the windows before.  Over every run of
failures, on this bucket and on others, its row is the window that is open at the end (`Counts`),
with the count cut off at the largest `i32`; its lock is only ever moved later or dropped when past.
-/

namespace DevPortal

open LoginThrottleRepository Tumbling

/-! ## Keys -/

/-- What a bucket is for. -/
inductive ThrottleKey
  | client (username address : String)
  | account (username : String)
  deriving DecidableEq, Repr

namespace ThrottleKey

/-- The scope of a key. -/
def scope : ThrottleKey → ThrottleScope
  | client .. => .client
  | account _ => .account

/-- The hash of a key, as `login_throttle_buckets` has it. -/
def hash (sha256 : String → String) : ThrottleKey → String
  | client username address => loginThrottleBucketHash sha256 "username-client" username (some address)
  | account username => loginThrottleBucketHash sha256 "account" username none

/-- The address of a key, if it has one, has no NUL character. -/
def AddressClean : ThrottleKey → Prop
  | client _ address => Text.clean address
  | account _ => True

/-- What stands behind the last of a character determines what stands before it. -/
theorem append_cons_inj {α : Type} {c : α} {x x' y y' : List α} (hy : c ∉ y) (hy' : c ∉ y')
    (h : x ++ c :: y = x' ++ c :: y') : x = x' ∧ y = y' := by
  rcases List.append_eq_append_iff.mp h with ⟨z, hx, hz⟩ | ⟨z, hx, hz⟩
  · rcases z with _ | ⟨d, z⟩
    · simp only [List.nil_append, List.cons.injEq, true_and] at hz
      exact ⟨by simpa using hx.symm, hz⟩
    · rw [List.cons_append] at hz
      have hmem : c ∈ y := by
        rw [(List.cons.inj hz).2]
        simp
      exact absurd hmem hy
  · rcases z with _ | ⟨d, z⟩
    · simp only [List.nil_append, List.cons.injEq, true_and] at hz
      exact ⟨by simpa using hx, hz.symm⟩
    · rw [List.cons_append] at hz
      have hmem : c ∈ y' := by
        rw [(List.cons.inj hz).2]
        simp
      exact absurd hmem hy'

/-- **Keys have different hashes.** -/
theorem hash_inj {sha256 : String → String} (hsha : Function.Injective sha256) {k k' : ThrottleKey}
    (hk : k.AddressClean) (hk' : k'.AddressClean) (h : k.hash sha256 = k'.hash sha256) : k = k' := by
  have htext : ∀ {s t : String}, s = t → s.toList = t.toList := fun h => congrArg _ h
  cases k with
  | client username address =>
    cases k' with
    | client username' address' =>
      have h := htext (hsha h)
      simp only [Option.map_some, Option.getD_some, String.toList_append, List.append_assoc,
        List.append_cancel_left_eq] at h
      obtain ⟨hname, haddress⟩ := append_cons_inj (of_decide_eq_true hk) (of_decide_eq_true hk') h
      rw [String.toList_inj.mp hname, String.toList_inj.mp haddress]
    | account username' =>
      have h := htext (hsha h)
      simp at h
  | account username =>
    cases k' with
    | client username' address' =>
      have h := htext (hsha h)
      simp at h
    | account username' =>
      have h := htext (hsha h)
      simp only [Option.map_none, Option.getD_none, String.toList_append, List.append_assoc,
        List.append_cancel_left_eq, List.append_cancel_right_eq] at h
      rw [String.toList_inj.mp h]

end ThrottleKey

/-! ## Runs of failures -/

/-- A failure at a bucket. -/
structure FailureCall where
  key : ThrottleKey
  now : DateTime

section Runs

variable (config : LoginThrottleConfig) (sha256 : String → String)

/-- `record_failure` for a key, with the limit of its scope. -/
def FailureCall.exec (c : FailureCall) (t : Buckets) : Option (Option Int × Buckets) :=
  recordFailure (c.key.hash sha256) c.now (config.limit c.key.scope) config.windowSeconds.val
    config.lockoutSeconds.val t

/-- The runs of failures from a table: those that were recorded, and the table they lead to.  A call
that panics is rolled back. -/
inductive FailureRuns (t₀ : Buckets) : List FailureCall → Buckets → Prop
  | start : FailureRuns t₀ [] t₀
  | record {calls : List FailureCall} {t t' : Buckets} (c : FailureCall) {r : Option Int}
      (run : FailureRuns t₀ calls t) (h : c.exec config sha256 t = some (r, t')) :
      FailureRuns t₀ (calls ++ [c]) t'
  | panic {calls : List FailureCall} {t : Buckets} (c : FailureCall) (run : FailureRuns t₀ calls t)
      (h : c.exec config sha256 t = none) : FailureRuns t₀ calls t

/-- A failure at `t` lies beyond the window that a failure at `s` opened. -/
def beyondWindow (s t : Int) : Bool := s + seconds config.windowSeconds.val ≤ t

end Runs

/-- The instants of the failures at a key. -/
def timesOf (k : ThrottleKey) (calls : List FailureCall) : List DateTime :=
  (calls.filter (·.key = k)).map (·.now)

/-- **The row of a bucket is the window its failures are in**, the count cut off at the largest
`i32`. -/
def Counts (config : LoginThrottleConfig) (row : Option LoginThrottleBucket) (times : List DateTime) :
    Prop :=
  row.map (fun b => (b.windowStartedAt, b.failureCount)) =
    (current (beyondWindow config) times).map fun w => (w.opened, min (w.count : Int) i32Max)

/-- The failures in the window that is open at the end. -/
def countOf (config : LoginThrottleConfig) (times : List DateTime) : Nat :=
  ((current (beyondWindow config) times).map (·.count)).getD 0

/-- **What is known of the row of a bucket**: its window, its last failure, and that its lock was set
by a failure before. -/
structure Tracks (config : LoginThrottleConfig) (row : Option LoginThrottleBucket)
    (times : List DateTime) : Prop where
  counts : Counts config row times
  updated : row.map (·.updatedAt) = times.getLast?
  locked : ∀ b, row = some b → ∀ u ∈ b.lockedUntil,
    u ≤ b.updatedAt + seconds config.lockoutSeconds.val

/-! ## One failure -/

section Step

variable {config : LoginThrottleConfig} {row : Option LoginThrottleBucket} {times : List DateTime}
  {h : String} {now limit : Int} {b : LoginThrottleBucket}

/-- The row is too old just if the failure lies beyond its window. -/
theorem expired_iff {s now start window : Int} (h : start = now + -window * 1000000) :
    s + seconds window ≤ now ↔ s ≤ start := by
  simp only [seconds]
  omega

theorem not_le_start {now start window : Int} (hwindow : 0 < window)
    (h : start = now + -window * 1000000) : ¬ now ≤ start := by omega

theorem min_min_succ (n largest : Int) : min (min n largest + 1) largest = min (n + 1) largest := by
  omega

/-- The window a failure joins or opens. -/
theorem Counts.failed (hrow : Counts config row times)
    (hb : (row.getD (.fresh h now)).failed now limit config.windowSeconds.val config.lockoutSeconds.val
      = some b) : Counts config (some b) (times ++ [now]) := by
  obtain ⟨start, hstart, -, -, hwindow, -⟩ := LoginThrottleBucket.failed_cases hb
  have hstart := (offset_eq_some hstart).1
  unfold Counts at hrow ⊢
  rw [current_concat]
  rcases row with _ | old
  · have hnone : current (beyondWindow config) times = none := Option.map_eq_none_iff.mp hrow.symm
    rw [hnone]
    rcases hwindow with ⟨hexpired, -, -⟩ | ⟨-, hsame, hcount⟩
    · exact absurd hexpired (not_le_start config.windowSeconds.property.1 hstart)
    · simp only [Option.map_some, hsame, hcount]
      rfl
  · obtain ⟨w, hw, hrow⟩ := Option.map_eq_some_iff.mp hrow.symm
    obtain ⟨hopened, hcount⟩ := Prod.mk.inj hrow
    have hbeyond : beyondWindow config w.opened now = decide (old.windowStartedAt ≤ start) := by
      rw [beyondWindow, hopened, decide_eq_decide]
      exact expired_iff hstart
    rw [hw]
    dsimp only
    rw [hbeyond]
    change old.windowStartedAt ≤ start ∧ _ ∨ ¬ old.windowStartedAt ≤ start ∧ _ at hwindow
    rcases hwindow with ⟨hexpired, hsame, hone⟩ | ⟨hopen, hsame, hnext⟩
    · have hfirst : min (((⟨now, []⟩ : Window Int).count : Nat) : Int) i32Max = 1 := by
        simp only [Window.count, List.length_nil]
        decide
      rw [if_pos (decide_eq_true hexpired), Option.map_some, Option.map_some, hsame, hone, hfirst]
    · have hsame : b.windowStartedAt = old.windowStartedAt := hsame
      have hnext : b.failureCount = min (old.failureCount + 1) i32Max := hnext
      rw [if_neg (by simpa using hopen), Option.map_some, Option.map_some, hsame, hnext, ← hcount,
        ← hopened, Window.join_opened, Window.join_count, min_min_succ, Int.natCast_succ]

/-- The lock of a row is set by the failure, or it was ahead before. -/
theorem lock_cases
    (hb : (row.getD (.fresh h now)).failed now limit config.windowSeconds.val config.lockoutSeconds.val
      = some b) :
    limit ≤ b.failureCount ∧ b.lockedUntil = some (now + seconds config.lockoutSeconds.val) ∨
      ¬ limit ≤ b.failureCount ∧ b.lockedUntil = (row.bind (·.lockedUntil)).filter (now < ·) := by
  have hlock : (row.getD (.fresh h now)).lockedUntil = row.bind (·.lockedUntil) := by
    rcases row with _ | old <;> rfl
  obtain ⟨start, hstart, -, -, hwindow, -⟩ := LoginThrottleBucket.failed_cases hb
  have hcount : b.failureCount = nextCount start (row.getD (.fresh h now)) := by
    unfold nextCount
    rcases hwindow with ⟨hexpired, -, hone⟩ | ⟨hopen, -, hnext⟩
    · rw [if_pos hexpired, hone]
    · rw [if_neg hopen, hnext]
  rw [hcount]
  by_cases hmax : limit ≤ nextCount start (row.getD (.fresh h now))
  · exact .inl ⟨hmax, (LoginThrottleBucket.failed_lock hstart).1 hmax b hb⟩
  · obtain ⟨b', hb', hkept⟩ := (LoginThrottleBucket.failed_lock hstart).2 hmax
    obtain rfl := Option.some.inj (hb.symm.trans hb')
    exact .inr ⟨hmax, by rw [hkept, hlock]⟩

/-- The lock of a row lies within a lockout of any instant after its failures. -/
theorem Tracks.lock_le (hrow : Tracks config row times) (horder : ∀ s ∈ times, s ≤ now) {u : Int}
    (hu : row.bind (·.lockedUntil) = some u) : u ≤ now + seconds config.lockoutSeconds.val := by
  obtain ⟨old, rfl, hlock⟩ := Option.bind_eq_some_iff.mp hu
  have hlast : times.getLast? = some old.updatedAt := hrow.updated.symm
  have hle : old.updatedAt ≤ now := horder _ (List.mem_of_getLast? hlast)
  exact Int.le_trans (hrow.locked old rfl u hlock) (Int.add_le_add_right hle _)

/-- What is known of the row goes on to be known. -/
theorem Tracks.failed (hrow : Tracks config row times) (horder : ∀ s ∈ times, s ≤ now)
    (hb : (row.getD (.fresh h now)).failed now limit config.windowSeconds.val config.lockoutSeconds.val
      = some b) : Tracks config (some b) (times ++ [now]) := by
  obtain ⟨-, -, -, hupdated, -, -⟩ := LoginThrottleBucket.failed_cases hb
  refine ⟨hrow.counts.failed hb, by simp [hupdated], ?_⟩
  rintro b' hb' u hu
  obtain rfl := Option.some.inj hb'
  rw [hupdated]
  rcases lock_cases hb with ⟨-, hlock⟩ | ⟨-, hlock⟩
  · obtain rfl := Option.some.inj (hlock.symm.trans hu)
    exact Int.le_refl _
  · obtain ⟨hold, -⟩ := Option.filter_eq_some_iff.mp (hlock.symm.trans hu)
    exact hrow.lock_le horder hold

end Step

/-! ## Runs -/

section Tracking

variable {config : LoginThrottleConfig} {sha256 : String → String} (hsha : Function.Injective sha256)
  {t₀ t t' : Buckets} {calls : List FailureCall} {k : ThrottleKey} (hk : k.AddressClean)

include hsha hk

/-- A failure at another key leaves the bucket alone. -/
theorem find_exec_of_ne {c : FailureCall} (hc : c.key.AddressClean) (hne : c.key ≠ k) {r : Option Int}
    (h : c.exec config sha256 t = some (r, t')) :
    t'.find (k.hash sha256) = t.find (k.hash sha256) := by
  obtain ⟨b, -, -, hfind, -⟩ := recordFailure_spec h
  rw [hfind, if_neg]
  intro hhash
  exact hne (ThrottleKey.hash_inj hsha hk hc hhash).symm

/-- **In every run, the row of a bucket is the window of its failures.** -/
theorem FailureRuns.tracks (hrun : FailureRuns config sha256 t₀ calls t)
    (hfresh : t₀.find (k.hash sha256) = none) (hclean : ∀ c ∈ calls, c.key.AddressClean)
    (horder : (timesOf k calls).Pairwise (· ≤ ·)) :
    Tracks config (t.find (k.hash sha256)) (timesOf k calls) := by
  induction hrun with
  | start =>
    refine ⟨?_, by simp [hfresh, timesOf], by simp [hfresh]⟩
    simp [Counts, hfresh, timesOf]
  | @record calls t t' c r run h ih =>
    have htimes : timesOf k (calls ++ [c]) = timesOf k calls ++ timesOf k [c] := by simp [timesOf]
    rw [htimes] at horder ⊢
    have ih := ih (fun c hc => hclean c (List.mem_append_left _ hc)) (List.pairwise_append.mp horder).1
    by_cases hkey : c.key = k
    · subst hkey
      have hnow : timesOf c.key [c] = [c.now] := by simp [timesOf]
      rw [hnow] at horder ⊢
      have hlast : ∀ s ∈ timesOf c.key calls, s ≤ c.now := fun s hs =>
        (List.pairwise_append.mp horder).2.2 s hs c.now (by simp)
      obtain ⟨b, hb, -, hfind, -⟩ := recordFailure_spec h
      rw [hfind, if_pos rfl]
      exact ih.failed hlast hb
    · have hnone : timesOf k [c] = [] := by simp [timesOf, hkey]
      rw [hnone, List.append_nil, find_exec_of_ne hsha hk (hclean c (by simp)) hkey h]
      exact ih
  | panic c run h ih => exact ih hclean horder

end Tracking

/-- The failures of a window reach the limit just if what is stored of them does. -/
theorem limit_le_iff (config : LoginThrottleConfig) (scope : ThrottleScope) (n : Int) :
    config.limit scope ≤ min n i32Max ↔ config.limit scope ≤ n := by
  have hlimit : config.limit scope ≤ i32Max := by
    cases scope with
    | client => exact config.maxFailures.property.2
    | account => exact config.accountMaxFailures.property.2
  omega

theorem lt_add_lockout (config : LoginThrottleConfig) (now : Int) :
    now < now + seconds config.lockoutSeconds.val := by
  have h : 0 < config.lockoutSeconds.val := config.lockoutSeconds.property.1
  simp only [seconds]
  omega

/-- **A bucket is a tumbling-window counter.**  After every run of failures: its row is the window that
is open, the count cut off at the largest `i32`; one more failure locks it if the window reaches the
limit, moves no lock that is ahead earlier, drops only one that is past, and returns what is then to be
waited for; and a failure at another key does nothing to it. -/
theorem throttle_bucket_tumbles (config : LoginThrottleConfig) {sha256 : String → String}
    (hsha : Function.Injective sha256) {t₀ t : Buckets} {calls : List FailureCall}
    (hrun : FailureRuns config sha256 t₀ calls t) (hclean : ∀ c ∈ calls, c.key.AddressClean)
    {k : ThrottleKey} (hk : k.AddressClean) (hfresh : t₀.find (k.hash sha256) = none)
    (horder : (timesOf k calls).Pairwise (· ≤ ·)) :
    Counts config (t.find (k.hash sha256)) (timesOf k calls) ∧
    (∀ (now : DateTime) (r : Option Int) (t' : Buckets), (∀ s ∈ timesOf k calls, s ≤ now) →
      (FailureCall.mk k now).exec config sha256 t = some (r, t') →
      ∃ b, t'.find (k.hash sha256) = some b ∧
        (config.limit k.scope ≤ countOf config (timesOf k calls ++ [now]) →
          b.lockedUntil = some (now + seconds config.lockoutSeconds.val)) ∧
        (∀ u ∈ activeLock (k.hash sha256) now t, ∃ u' ∈ b.lockedUntil, u ≤ u') ∧
        (∀ u ∈ (t.find (k.hash sha256)).bind (·.lockedUntil), b.lockedUntil = none → u ≤ now) ∧
        r = retryAfterSeconds (k.hash sha256) now t') ∧
    (∀ (c : FailureCall) (r : Option Int) (t' : Buckets), c.key ≠ k → c.key.AddressClean → c.exec config sha256 t = some (r, t') →
      t'.find (k.hash sha256) = t.find (k.hash sha256)) := by
  have htracks := hrun.tracks hsha hk hfresh hclean horder
  refine ⟨htracks.counts, ?_, fun c r t' hne hc h => find_exec_of_ne hsha hk hc hne h⟩
  intro now r t' hnow h
  obtain ⟨b, hb, hr, hfind, -⟩ := recordFailure_spec h
  have hrow : t'.find (k.hash sha256) = some b := by rw [hfind, if_pos rfl]
  have hlock := lock_cases hb
  refine ⟨b, hrow, fun hlimit => ?_, fun u hu => ?_, fun u hu hnone => ?_, ?_⟩
  · have hcounts := htracks.counts.failed hb
    obtain ⟨w, hw, hwindow⟩ := Option.map_eq_some_iff.mp hcounts.symm
    have hcount : b.failureCount = min (w.count : Int) i32Max := (Prod.mk.inj hwindow).2.symm
    have hopen : countOf config (timesOf k calls ++ [now]) = w.count := by rw [countOf, hw]; rfl
    rw [hopen, ← limit_le_iff, ← hcount] at hlimit
    exact (hlock.resolve_right fun h => h.1 hlimit).2
  · rcases hlock with ⟨-, hnew⟩ | ⟨-, hkept⟩
    · obtain ⟨hold, -⟩ := Option.filter_eq_some_iff.mp hu
      exact ⟨_, hnew, htracks.lock_le hnow hold⟩
    · exact ⟨u, hkept.trans hu, Int.le_refl u⟩
  · rcases hlock with ⟨-, hnew⟩ | ⟨-, hkept⟩
    · rw [hnew] at hnone
      cases hnone
    · rw [hkept] at hnone
      have := Option.filter_eq_none_iff.mp hnone u hu
      simpa using this
  · have hahead : ∀ u ∈ b.lockedUntil, now < u := by
      intro u hu
      rcases hlock with ⟨-, hnew⟩ | ⟨-, hkept⟩
      · obtain rfl := Option.some.inj (hnew.symm.trans hu)
        exact lt_add_lockout config now
      · exact of_decide_eq_true (Option.filter_eq_some_iff.mp (hkept.symm.trans hu)).2
    have hfilter : b.lockedUntil.filter (now < ·) = b.lockedUntil := by
      rcases hlocked : b.lockedUntil with _ | u
      · rfl
      · exact Option.filter_some_pos (decide_eq_true (hahead u hlocked))
    rw [hr, retryAfterSeconds, hrow, Option.bind_some, hfilter]

/-! ### Runs that there are -/

/-- A failure is recorded where its instants are in range. -/
theorem exec_isSome {config : LoginThrottleConfig} (sha256 : String → String) {c : FailureCall}
    (hwindow : (offset c.now (-config.windowSeconds.val)).isSome)
    (hlockout : (offset c.now config.lockoutSeconds.val).isSome) (t : Buckets) :
    ∃ r t', c.exec config sha256 t = some (r, t') := by
  obtain ⟨start, hstart⟩ := Option.isSome_iff_exists.mp hwindow
  obtain ⟨lock, hlock⟩ := Option.isSome_iff_exists.mp hlockout
  have hfailed : ∀ b : LoginThrottleBucket, ∃ b', b.failed c.now (config.limit c.key.scope)
      config.windowSeconds.val config.lockoutSeconds.val = some b' := by
    intro b
    simp only [LoginThrottleBucket.failed, hstart, hlock, Option.bind_some, Option.map_some]
    generalize (if b.windowStartedAt ≤ start then (1 : Int) else min (b.failureCount + 1) i32Max) = n
    by_cases hmax : config.limit c.key.scope ≤ n
    · rw [if_pos hmax]
      exact ⟨_, rfl⟩
    · rw [if_neg hmax]
      exact ⟨_, rfl⟩
  obtain ⟨b, hb⟩ := hfailed ((t.find (c.key.hash sha256)).getD (.fresh (c.key.hash sha256) c.now))
  rw [FailureCall.exec, recordFailure_eq, hb]
  exact ⟨_, _, rfl⟩

/-- Failures whose instants are in range have a run. -/
theorem exists_failureRuns {config : LoginThrottleConfig} (sha256 : String → String) (t₀ : Buckets)
    (calls : List FailureCall)
    (hrange : ∀ c ∈ calls, (offset c.now (-config.windowSeconds.val)).isSome ∧
      (offset c.now config.lockoutSeconds.val).isSome) :
    ∃ t, FailureRuns config sha256 t₀ calls t := by
  induction calls using List.reverseRecOn with
  | nil => exact ⟨t₀, .start⟩
  | append_singleton calls c ih =>
    obtain ⟨t, ht⟩ := ih fun c hc => hrange c (List.mem_append_left _ hc)
    obtain ⟨hwindow, hlockout⟩ := hrange c (by simp)
    obtain ⟨r, t', h⟩ := exec_isSome sha256 hwindow hlockout t
    exact ⟨t', .record c ht h⟩

theorem positive_five : 0 < (5 : Int) ∧ (5 : Int) ≤ i32Max := by decide

theorem positive_fifty : 0 < (50 : Int) ∧ (50 : Int) ≤ i32Max := by decide

theorem twice_five : (5 : Int) * 2 ≤ 50 := by decide

/-- The settings without any variable set. -/
def defaultThrottle : LoginThrottleConfig :=
  ⟨⟨5, positive_five⟩, ⟨50, positive_fifty⟩, ⟨900, Sample.positive_quarterHour⟩,
    ⟨900, Sample.positive_quarterHour⟩, twice_five⟩

/-- Three failures of an account, the last of which opens a window of its own. -/
theorem throttle_bucket_tumbles_account :
    ∃ t, FailureRuns defaultThrottle id []
        [⟨.account "ada", 0⟩, ⟨.account "ada", 5⟩, ⟨.account "ada", 900000000⟩] t ∧
      Counts defaultThrottle (t.find (ThrottleKey.hash id (.account "ada"))) [0, 5, 900000000] := by
  have hrange : ∀ c ∈ [FailureCall.mk (.account "ada") 0, ⟨.account "ada", 5⟩,
      ⟨.account "ada", 900000000⟩], (offset c.now (-defaultThrottle.windowSeconds.val)).isSome ∧
      (offset c.now defaultThrottle.lockoutSeconds.val).isSome := by decide
  obtain ⟨t, ht⟩ := exists_failureRuns id [] _ hrange
  have hclean : ∀ c ∈ [FailureCall.mk (.account "ada") 0, ⟨.account "ada", 5⟩,
      ⟨.account "ada", 900000000⟩], c.key.AddressClean := by simp [ThrottleKey.AddressClean]
  have htimes : timesOf (.account "ada") [⟨.account "ada", 0⟩, ⟨.account "ada", 5⟩,
      ⟨.account "ada", 900000000⟩] = [0, 5, 900000000] := by decide
  have h := throttle_bucket_tumbles defaultThrottle Function.injective_id ht hclean
    (k := .account "ada") trivial rfl (by rw [htimes]; decide)
  rw [htimes] at h
  exact ⟨t, ht, h.1⟩

/-- **A count that is not cut off is not kept**: `2 ^ 31` failures in one window. -/
theorem throttle_count_cut_off :
    ¬ ∀ (config : LoginThrottleConfig) (sha256 : String → String), Function.Injective sha256 →
      ∀ (t₀ t : Buckets) (calls : List FailureCall), FailureRuns config sha256 t₀ calls t →
        (∀ c ∈ calls, c.key.AddressClean) → ∀ k : ThrottleKey, k.AddressClean →
        t₀.find (k.hash sha256) = none → (timesOf k calls).Pairwise (· ≤ ·) →
        (t.find (k.hash sha256)).map (fun b => (b.windowStartedAt, b.failureCount)) =
          (current (beyondWindow config) (timesOf k calls)).map fun w => (w.opened, (w.count : Int)) := by
  intro h
  obtain ⟨n, hn⟩ : ∃ n : Nat, n = 2147483647 := ⟨_, rfl⟩
  have hmem : ∀ c ∈ List.replicate (n + 1) (FailureCall.mk (.account "ada") 0),
      c = ⟨.account "ada", 0⟩ := fun c hc => List.eq_of_mem_replicate hc
  obtain ⟨t, ht⟩ := @exists_failureRuns defaultThrottle id [] _ fun c hc => by
    rw [hmem c hc]
    decide
  have hclean : ∀ c ∈ List.replicate (n + 1) (FailureCall.mk (.account "ada") 0),
      c.key.AddressClean := by
    intro c hc
    rw [hmem c hc]
    trivial
  have htimes : timesOf (.account "ada") (List.replicate (n + 1) (FailureCall.mk (.account "ada") 0)) =
      0 :: List.replicate n 0 := by
    rw [timesOf, List.filter_eq_self.mpr fun c hc => by rw [hmem c hc]; decide, List.map_replicate,
      List.replicate_succ]
  have horder : (0 :: List.replicate n (0 : Int)).Pairwise (· ≤ ·) := by
    rw [← List.replicate_succ, List.pairwise_replicate]
    exact .inr (Int.le_refl 0)
  have hcurrent : current (beyondWindow defaultThrottle) (0 :: List.replicate n (0 : Int)) =
      some ⟨0, List.replicate n 0⟩ := by
    refine current_of_forall _ fun t ht => ?_
    rw [List.eq_of_mem_replicate ht]
    decide
  have hexact := h defaultThrottle id Function.injective_id [] t _ ht hclean (.account "ada") trivial rfl
    (by rw [htimes]; exact horder)
  have hcut := (ht.tracks Function.injective_id (k := .account "ada") trivial rfl hclean
    (by rw [htimes]; exact horder)).counts
  rw [Counts, hexact, htimes, hcurrent] at hcut
  simp only [Option.map_some, Option.some.injEq, Prod.mk.injEq, true_and, Window.count,
    List.length_replicate, i32Max] at hcut
  omega

end DevPortal
