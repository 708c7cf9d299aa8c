import DevPortal.Auth.Throttle
import Mathlib

/-!
# Auth/BruteForce — how many wrong passwords of an account are checked

    login    clock ▸ prune ▸ read client ▸ read account ▸ check ▸ clock ▸ record client ▸ record account
                                               │
                                               └─▸ locked: refused

The account is read at the start of a login and its failure recorded after the check, on another
connection; between the two any number of others read the same bucket.  What bounds the checks is that
a login finds the failures of all those that were let through before it.
-/

namespace DevPortal

open LoginThrottleRepository

/-! ## Logins of one account -/

/-- `LoginThrottleBuckets`. -/
structure LoginThrottleBuckets where
  client : String
  account : String

/-- `login_throttle_bucket_hash`. -/
def loginThrottleBucketHash (sha256 : String → String) (scope username : String)
    (clientIp : Option String) : String :=
  sha256 ("portal-login-throttle:v2\x00" ++ scope ++ "\x00" ++ username
    ++ (clientIp.map ("\x00" ++ ·)).getD "")

/-- `login_throttle_buckets`, for a username that is canonical. -/
def loginThrottleBuckets (sha256 : String → String) (username : String) (clientIp : Option String) :
    LoginThrottleBuckets where
  client := loginThrottleBucketHash sha256 "username-client" username
    (some (clientIp.getD "unknown-client"))
  account := loginThrottleBucketHash sha256 "account" username none

/-- The answer to a login with a wrong password. -/
inductive LoginAnswer
  | rateLimited (retryAfterSeconds : Int)
  | unauthorized
  | failed
  deriving DecidableEq, Repr

/-- Where a login is; `now` is the last instant it read. -/
inductive LoginPhase
  | waiting
  | arrived (now : DateTime)
  | pruned (now : DateTime)
  | clientRead (now : DateTime) (clientRetryAfter : Option Int)
  | passed
  | checked
  | clientRecorded (now : DateTime) (clientRetryAfter : Option Int)
  | answered (answer : LoginAnswer)
  deriving DecidableEq, Repr

/-- The buckets and the logins; beside them, the logins that were let through, those whose password
was checked, and those whose failure is in the account's bucket. -/
structure LoginState (R : Type) where
  buckets : Buckets
  phase : R → LoginPhase
  passed : List R
  checked : List R
  recorded : List R

/-- What happens next, and to which login. -/
inductive LoginEvent (R : Type)
  | arrive (r : R) (now : DateTime)
  | prune (r : R)
  | pruneFails (r : R)
  | readClient (r : R)
  | readAccount (r : R)
  | check (r : R)
  | recordClient (r : R) (now : DateTime)
  | recordAccount (r : R)
  | fail (r : R)

/-- The instant a login reads. -/
def LoginEvent.time {R : Type} : LoginEvent R → Option DateTime
  | arrive _ now | recordClient _ now => some now
  | _ => none

/-- `Option::max`, where nothing is the least. -/
def maxRetryAfter : Option Int → Option Int → Option Int
  | some a, some b => some (max a b)
  | some a, none => some a
  | none, b => b

section Login

variable {R : Type} [DecidableEq R] (config : LoginThrottleConfig) (buckets : R → LoginThrottleBuckets)

/-- Move a login. -/
def LoginState.set (s : LoginState R) (r : R) (phase : LoginPhase) : LoginState R :=
  { s with phase := Function.update s.phase r phase }

/-- The account's bucket is free, or the login is refused. -/
def LoginState.read (s : LoginState R) (r : R) (now : DateTime) (clientRetryAfter : Option Int) :
    LoginState R :=
  match maxRetryAfter clientRetryAfter (retryAfterSeconds (buckets r).account now s.buckets) with
  | some retryAfterSeconds => s.set r (.answered (.rateLimited retryAfterSeconds))
  | none => { s.set r .passed with passed := r :: s.passed }

/-- `record_failure` for one of the two buckets. -/
def LoginState.record (s : LoginState R) (scope : ThrottleScope) (hash : String) (now : DateTime) :
    Option (Option Int × Buckets) :=
  recordFailure hash now (config.limit scope) config.windowSeconds.val config.lockoutSeconds.val
    s.buckets

/-- **One step of `login`**, when the password is wrong.  A login may fail at any point: a query or
the pool returns an error, the queue for the check times out, the client goes away. -/
def LoginState.step (s : LoginState R) : LoginEvent R → Option (LoginState R)
  | .arrive r now =>
    match s.phase r with
    | .waiting => some (s.set r (.arrived now))
    | _ => none
  | .prune r =>
    match s.phase r with
    | .arrived now =>
      -- `now - Duration::days(1)` panics where it is out of range
      match offset now (-(Pruner.login.days * 86400)) with
      | some cutoff => some { s.set r (.pruned now) with buckets := pruneBefore cutoff s.buckets }
      | none => some (s.set r (.answered .failed))
    | _ => none
  | .pruneFails r =>
    match s.phase r with
    | .arrived now => some (s.set r (.pruned now))
    | _ => none
  | .readClient r =>
    match s.phase r with
    | .pruned now =>
      some (s.set r (.clientRead now (retryAfterSeconds (buckets r).client now s.buckets)))
    | _ => none
  | .readAccount r =>
    match s.phase r with
    | .clientRead now clientRetryAfter => some (s.read buckets r now clientRetryAfter)
    | _ => none
  | .check r =>
    match s.phase r with
    | .passed => some { s.set r .checked with checked := r :: s.checked }
    | _ => none
  | .recordClient r now =>
    match s.phase r with
    | .checked =>
      match s.record config .client (buckets r).client now with
      | some (retryAfter, t) => some { s.set r (.clientRecorded now retryAfter) with buckets := t }
      | none => some (s.set r (.answered .failed))
    | _ => none
  | .recordAccount r =>
    match s.phase r with
    | .clientRecorded now clientRetryAfter =>
      match s.record config .account (buckets r).account now with
      | some (retryAfter, t) =>
        let answer := (maxRetryAfter clientRetryAfter retryAfter).elim .unauthorized .rateLimited
        some { s.set r (.answered answer) with buckets := t, recorded := r :: s.recorded }
      | none => some (s.set r (.answered .failed))
    | _ => none
  | .fail r =>
    match s.phase r with
    | .waiting | .answered _ => none
    | _ => some (s.set r (.answered .failed))

/-- Before the first login. -/
def LoginState.initial (t : Buckets) : LoginState R := ⟨t, fun _ => .waiting, [], [], []⟩

/-- **The states reached from `s₀`** by steps that `allowed` allows, in any order. -/
inductive LoginReachable (allowed : LoginState R → LoginEvent R → Prop) (s₀ : LoginState R) :
    LoginState R → Prop
  | refl : LoginReachable allowed s₀ s₀
  | step {s s' : LoginState R} (e : LoginEvent R) : LoginReachable allowed s₀ s → allowed s e →
      s.step config buckets e = some s' → LoginReachable allowed s₀ s'

end Login

/-! ## The bucket of an account within one window -/

section Window

variable (config : LoginThrottleConfig) (start : Int)

/-- The instant lies in the window that starts at `start`. -/
def InWindow (now : Int) : Prop := start ≤ now ∧ now < start + config.windowSeconds.val * 1000000

/-- The row was written in this window: it counts its failures, and is locked to its end if they are
too many. -/
structure OpenBucket (n : Nat) (b : LoginThrottleBucket) : Prop where
  started : start ≤ b.windowStartedAt
  updated : start ≤ b.updatedAt
  counts : (n : Int) ≤ b.failureCount ∨ config.accountMaxFailures.val ≤ b.failureCount
  locks : config.accountMaxFailures.val ≤ b.failureCount →
    ∃ u ∈ b.lockedUntil, start + config.windowSeconds.val * 1000000 ≤ u

/-- **The bucket of the account after `n` failures in the window**: it is of an earlier one and there
were none, or it is open. -/
def AccountBucket (n : Nat) (row : Option LoginThrottleBucket) : Prop :=
  (n = 0 ∧ ∀ b ∈ row, start - config.windowSeconds.val * 1000000 ≥ b.windowStartedAt)
    ∨ ∃ b, row = some b ∧ OpenBucket config start n b

variable {config start}

/-- The account is not locked, so it is short of the limit. -/
theorem AccountBucket.lt_of_free {n : Nat} {row : Option LoginThrottleBucket} {now : Int}
    (h : AccountBucket config start n row) (hnow : InWindow config start now)
    (hfree : ((row.bind (·.lockedUntil)).filter (now < ·)) = none) :
    (n : Int) < config.accountMaxFailures.val := by
  rcases h with ⟨rfl, -⟩ | ⟨b, rfl, hopen⟩
  · exact config.accountMaxFailures.property.1
  · by_contra hge
    have hmax : config.accountMaxFailures.val ≤ b.failureCount := by
      rcases hopen.counts with hn | hmax
      · exact Int.le_trans (Int.not_lt.mp hge) hn
      · exact hmax
    obtain ⟨u, hu, hend⟩ := hopen.locks hmax
    have hlate : now < u := Int.lt_of_lt_of_le hnow.2 hend
    have hpast : u ≤ now := by simpa [Option.mem_def.mp hu] using hfree
    exact Int.not_lt.mpr hpast hlate

/-- **One more failure** in either bucket; it is the account's. -/
theorem AccountBucket.failed {n : Nat} {hash : String} {row : Option LoginThrottleBucket}
    {now limit : Int} {b : LoginThrottleBucket} (h : AccountBucket config start n row)
    (hnow : InWindow config start now)
    (hlockout : config.windowSeconds.val ≤ config.lockoutSeconds.val)
    (hlimit : limit ≤ config.accountMaxFailures.val)
    (hb : (row.getD (.fresh hash now)).failed now limit config.windowSeconds.val
      config.lockoutSeconds.val = some b) :
    OpenBucket config start (n + 1) b := by
  obtain ⟨before, hbefore, -, hupdated, hcount, hlock⟩ := LoginThrottleBucket.failed_cases hb
  obtain rfl : before = now + -config.windowSeconds.val * 1000000 := (offset_eq_some hbefore).1
  have hupdated : start ≤ b.updatedAt := hupdated ▸ hnow.1
  have hlocks : config.accountMaxFailures.val ≤ b.failureCount →
      ∃ u ∈ b.lockedUntil, start + config.windowSeconds.val * 1000000 ≤ u := by
    intro hmax
    obtain ⟨u, hu, huntil⟩ := hlock (Int.le_trans hlimit hmax)
    refine ⟨u, huntil, ?_⟩
    rw [(offset_eq_some hu).1]
    have := hnow.1
    omega
  rcases h with ⟨rfl, hstale⟩ | ⟨b₀, rfl, hopen⟩
  · -- the failure opens the window, whether there is a row of an earlier one or not
    have hone : b.windowStartedAt = now ∧ b.failureCount = 1 := by
      rcases hcount with ⟨-, hstarted, hone⟩ | ⟨hlive, hstarted, hmore⟩
      · exact ⟨hstarted, hone⟩
      · cases row with
        | none => exact ⟨hstarted, hmore⟩
        | some b₀ =>
          have hle : start - config.windowSeconds.val * 1000000
              ≤ now + -config.windowSeconds.val * 1000000 := by
            have := hnow.1
            omega
          exact (hlive (Int.le_trans (hstale b₀ rfl) hle)).elim
    exact ⟨hone.1 ▸ hnow.1, hupdated, Or.inl (by rw [hone.2]; decide), hlocks⟩
  · have hlive : ¬ b₀.windowStartedAt ≤ now + -config.windowSeconds.val * 1000000 := by
      have hlt : now + -config.windowSeconds.val * 1000000 < start := by
        have := hnow.2
        omega
      exact fun hle => Int.not_lt.mpr (Int.le_trans hopen.started hle) hlt
    obtain ⟨-, hstarted, hmore⟩ := hcount.resolve_left fun hexpired => hlive hexpired.1
    rw [Option.getD_some] at hstarted hmore
    refine ⟨hstarted ▸ hopen.started, hupdated, ?_, hlocks⟩
    have hmax := config.accountMaxFailures.property.2
    rcases hopen.counts with hn | hn
    · rw [hmore]
      omega
    · exact Or.inr (by rw [hmore]; omega)

end Window

/-! ## Every state of a run -/

namespace LoginPhase

/-- How far a login is. -/
def rank : LoginPhase → Nat
  | waiting => 0
  | arrived _ => 1
  | pruned _ => 2
  | clientRead .. => 3
  | passed => 4
  | checked => 5
  | clientRecorded .. => 6
  | answered _ => 7

/-- The instant a login goes on with. -/
def now : LoginPhase → Option DateTime
  | arrived now | pruned now | clientRead now _ | clientRecorded now _ => some now
  | _ => none

end LoginPhase

section Runs

variable {R : Type} [DecidableEq R] (config : LoginThrottleConfig) (start : Int) (account : String)

/-- **The invariant of the logins of an account within one window.** -/
structure LoginInv (s : LoginState R) : Prop where
  keyed : Table.Keyed (·.bucketHash) s.buckets
  times : ∀ r, ∀ now ∈ (s.phase r).now, InWindow config start now
  passed_nodup : s.passed.Nodup
  passed_rank : ∀ r ∈ s.passed, 4 ≤ (s.phase r).rank
  mem_passed : ∀ r, s.phase r = .passed → r ∈ s.passed
  checked_nodup : s.checked.Nodup
  checked_rank : ∀ r ∈ s.checked, 5 ≤ (s.phase r).rank
  checked_passed : ∀ r ∈ s.checked, r ∈ s.passed
  bucket : AccountBucket config start s.recorded.length (s.buckets.find account)
  bound : (s.passed.length : Int) ≤ config.accountMaxFailures.val

/-- Every login that was let through has its failure in the account's bucket. -/
def LoginState.Settled (s : LoginState R) : Prop := ∀ r ∈ s.passed, r ∈ s.recorded

/-- **The step is in the window, and a login reads the account's bucket only when the failures of all
that were let through are there.** -/
def SettledInWindow (s : LoginState R) (e : LoginEvent R) : Prop :=
  (∀ now ∈ e.time, InWindow config start now) ∧ ∀ r, e = .readAccount r → s.Settled

variable {config start account} {s : LoginState R}

/-- A login that goes on. -/
theorem LoginInv.set (h : LoginInv config start account s) {r : R} {ph : LoginPhase}
    (hrank : (s.phase r).rank < ph.rank) (htime : ∀ now ∈ ph.now, InWindow config start now)
    (hph : ph ≠ .passed) : LoginInv config start account (s.set r ph) := by
  have hphase : ∀ r', (s.set r ph).phase r' = if r' = r then ph else s.phase r' := fun r' =>
    Function.update_apply ..
  refine ⟨h.keyed, fun r' now hnow => ?_, h.passed_nodup, fun r' hr' => ?_, fun r' hr' => ?_,
    h.checked_nodup, fun r' hr' => ?_, h.checked_passed, h.bucket, h.bound⟩
  · rw [hphase] at hnow
    split at hnow
    · exact htime now hnow
    · exact h.times r' now hnow
  · have hle := h.passed_rank r' hr'
    rw [hphase]
    split
    · next heq =>
      rw [heq] at hle
      omega
    · exact hle
  · rw [hphase] at hr'
    split at hr'
    · exact (hph hr').elim
    · exact h.mem_passed r' hr'
  · have hle := h.checked_rank r' hr'
    rw [hphase]
    split
    · next heq =>
      rw [heq] at hle
      omega
    · exact hle

theorem LoginInv.answered (h : LoginInv config start account s) {r : R}
    (hrank : (s.phase r).rank < 7) (answer : LoginAnswer) :
    LoginInv config start account (s.set r (.answered answer)) :=
  h.set hrank (fun _ hnow => nomatch hnow) (fun heq => nomatch heq)

omit [DecidableEq R] in
/-- The buckets change, and maybe a failure is recorded. -/
theorem LoginInv.write (h : LoginInv config start account s) {t : Buckets} {recorded : List R}
    (hkeyed : Table.Keyed (·.bucketHash) t)
    (hbucket : AccountBucket config start recorded.length (t.find account)) :
    LoginInv config start account { s with buckets := t, recorded := recorded } :=
  ⟨hkeyed, h.times, h.passed_nodup, h.passed_rank, h.mem_passed, h.checked_nodup, h.checked_rank,
    h.checked_passed, hbucket, h.bound⟩

omit [DecidableEq R] in
/-- A failure in the bucket `hash`, which is the account's or not. -/
theorem LoginInv.record (h : LoginInv config start account s)
    (hlockout : config.windowSeconds.val ≤ config.lockoutSeconds.val) {scope : ThrottleScope}
    {hash : String} {now : DateTime} (hnow : InWindow config start now) {retryAfter : Option Int}
    {t : Buckets} (hrec : s.record config scope hash now = some (retryAfter, t)) :
    Table.Keyed (·.bucketHash) t
      ∧ AccountBucket config start s.recorded.length (t.find account)
      ∧ (hash = account → AccountBucket config start (s.recorded.length + 1) (t.find account)) := by
  obtain ⟨b, hb, -, hfind, hkeyed⟩ := recordFailure_spec hrec
  have hlimit : config.limit scope ≤ config.accountMaxFailures.val := by
    cases scope with
    | client =>
      have := config.twice
      have := config.maxFailures.property.1
      show config.maxFailures.val ≤ _
      omega
    | account => exact Int.le_refl _
  refine ⟨hkeyed h.keyed, ?_, ?_⟩
  · rw [hfind]
    split
    · next heq =>
      subst heq
      have hopen := h.bucket.failed hnow hlockout hlimit hb
      refine Or.inr ⟨b, rfl, hopen.started, hopen.updated, ?_, hopen.locks⟩
      exact hopen.counts.imp_left fun hn => by omega
    · exact h.bucket
  · rintro rfl
    rw [hfind, if_pos rfl]
    exact Or.inr ⟨b, rfl, h.bucket.failed hnow hlockout hlimit hb⟩

omit [DecidableEq R] in
/-- Within a window of a day at most, the account's bucket is not pruned. -/
theorem LoginInv.pruneBefore (h : LoginInv config start account s)
    (hday : config.windowSeconds.val ≤ 86400) {now cutoff : DateTime}
    (hnow : InWindow config start now)
    (hcutoff : offset now (-(Pruner.login.days * 86400)) = some cutoff) :
    AccountBucket config start s.recorded.length
      ((LoginThrottleRepository.pruneBefore cutoff s.buckets).find account) := by
  rw [find_pruneBefore h.keyed]
  rcases h.bucket with ⟨hnone, hstale⟩ | ⟨b, hfind, hopen⟩
  · exact Or.inl ⟨hnone, fun b hb => hstale b (Option.mem_filter_iff.mp hb).1⟩
  · have hlive : ¬ b.updatedAt < cutoff := by
      have hle : cutoff ≤ start := by
        have hcut := Pruner.cutoff_le hcutoff (Int.le_refl now)
        have hlt := hnow.2
        refine Int.le_trans hcut ?_
        omega
      exact Int.not_lt.mpr (Int.le_trans hle hopen.updated)
    refine Or.inr ⟨b, ?_, hopen⟩
    rw [hfind]
    simp [Option.filter, hlive]

/-- **A login reads the account's bucket**: if it is let through, it is within the limit. -/
theorem LoginInv.read (h : LoginInv config start account s) {buckets : R → LoginThrottleBuckets}
    (haccount : ∀ r, (buckets r).account = account) (hsettled : s.Settled) {r : R} {now : DateTime}
    {clientRetryAfter : Option Int} (hphase : s.phase r = .clientRead now clientRetryAfter) :
    LoginInv config start account (s.read buckets r now clientRetryAfter) := by
  have hnow : InWindow config start now := h.times r now (by rw [hphase]; rfl)
  unfold LoginState.read
  split
  · exact h.answered (by simp [hphase, LoginPhase.rank]) _
  · next hfree =>
    have hfree : retryAfterSeconds account now s.buckets = none := by
      rw [haccount] at hfree
      cases clientRetryAfter with
      | none => exact hfree
      | some a =>
        revert hfree
        cases retryAfterSeconds account now s.buckets <;> exact fun hfree => nomatch hfree
    have hlt := h.bucket.lt_of_free hnow (Option.map_eq_none_iff.mp hfree)
    have hle : s.passed.length ≤ s.recorded.length :=
      (List.subperm_of_subset h.passed_nodup fun r' hr' => hsettled r' hr').length_le
    have hnew : r ∉ s.passed := fun hr => absurd (h.passed_rank r hr) (by simp [hphase, LoginPhase.rank])
    have hphase' : ∀ r', (s.set r .passed).phase r' = if r' = r then .passed else s.phase r' :=
      fun r' => Function.update_apply ..
    refine ⟨h.keyed, fun r' now' hnow' => ?_, List.nodup_cons.mpr ⟨hnew, h.passed_nodup⟩,
      fun r' hr' => ?_, fun r' hr' => ?_, h.checked_nodup, fun r' hr' => ?_,
      fun r' hr' => List.mem_cons_of_mem _ (h.checked_passed r' hr'), h.bucket, ?_⟩
    · rw [hphase'] at hnow'
      split at hnow'
      · cases hnow'
      · exact h.times r' now' hnow'
    · show 4 ≤ ((s.set r .passed).phase r').rank
      rw [hphase']
      split
      · exact Nat.le_refl _
      · next hne => exact h.passed_rank r' ((List.mem_cons.mp hr').resolve_left hne)
    · rw [hphase'] at hr'
      split at hr'
      · next heq => exact heq ▸ List.mem_cons_self ..
      · exact List.mem_cons_of_mem _ (h.mem_passed r' hr')
    · have hne : r' ≠ r := fun heq => hnew (heq ▸ h.checked_passed r' hr')
      show 5 ≤ ((s.set r .passed).phase r').rank
      rw [hphase', if_neg hne]
      exact h.checked_rank r' hr'
    · simp only [List.length_cons]
      omega

/-- A password is checked. -/
theorem LoginInv.check (h : LoginInv config start account s) {r : R} (hphase : s.phase r = .passed) :
    LoginInv config start account { s.set r .checked with checked := r :: s.checked } := by
  have hset : LoginInv config start account (s.set r .checked) :=
    h.set (by simp [hphase, LoginPhase.rank]) (fun _ hnow => nomatch hnow) (fun heq => nomatch heq)
  have hnew : r ∉ s.checked := fun hr => absurd (h.checked_rank r hr) (by simp [hphase, LoginPhase.rank])
  refine ⟨hset.keyed, hset.times, hset.passed_nodup, hset.passed_rank, hset.mem_passed,
    List.nodup_cons.mpr ⟨hnew, h.checked_nodup⟩, fun r' hr' => ?_, fun r' hr' => ?_, hset.bucket,
    hset.bound⟩
  · rcases List.mem_cons.mp hr' with rfl | hr'
    · show 5 ≤ (Function.update s.phase r' LoginPhase.checked r').rank
      rw [Function.update_self]
      exact Nat.le_refl _
    · exact hset.checked_rank r' hr'
  · rcases List.mem_cons.mp hr' with rfl | hr'
    · exact h.mem_passed r' hphase
    · exact h.checked_passed r' hr'

/-- **One step keeps the invariant.** -/
theorem LoginInv.step (h : LoginInv config start account s) {buckets : R → LoginThrottleBuckets}
    (haccount : ∀ r, (buckets r).account = account)
    (hlockout : config.windowSeconds.val ≤ config.lockoutSeconds.val)
    (hday : config.windowSeconds.val ≤ 86400) {e : LoginEvent R} {s' : LoginState R}
    (hallowed : SettledInWindow config start s e) (hstep : s.step config buckets e = some s') :
    LoginInv config start account s' := by
  cases e with
  | arrive r now =>
    simp only [LoginState.step] at hstep
    split at hstep
    · next hphase =>
      obtain rfl := Option.some.inj hstep
      refine h.set (by simp [hphase, LoginPhase.rank]) (fun now' hnow' => ?_) (fun heq => nomatch heq)
      exact hallowed.1 now' hnow'
    · cases hstep
  | prune r =>
    simp only [LoginState.step] at hstep
    split at hstep
    · next now hphase =>
      have hnow := h.times r now (by rw [hphase]; rfl)
      split at hstep
      · next cutoff hcutoff =>
        obtain rfl := Option.some.inj hstep
        have hset : LoginInv config start account (s.set r (.pruned now)) :=
          h.set (by simp [hphase, LoginPhase.rank]) (fun now' hnow' => Option.some.inj hnow' ▸ hnow)
            (fun heq => nomatch heq)
        exact hset.write (Table.keyed_delete h.keyed) (h.pruneBefore hday hnow hcutoff)
      · obtain rfl := Option.some.inj hstep
        exact h.answered (by simp [hphase, LoginPhase.rank]) _
    · cases hstep
  | pruneFails r =>
    simp only [LoginState.step] at hstep
    split at hstep
    · next now hphase =>
      obtain rfl := Option.some.inj hstep
      have hnow := h.times r now (by rw [hphase]; rfl)
      exact h.set (by simp [hphase, LoginPhase.rank]) (fun now' hnow' => Option.some.inj hnow' ▸ hnow)
        (fun heq => nomatch heq)
    · cases hstep
  | readClient r =>
    simp only [LoginState.step] at hstep
    split at hstep
    · next now hphase =>
      obtain rfl := Option.some.inj hstep
      have hnow := h.times r now (by rw [hphase]; rfl)
      exact h.set (by simp [hphase, LoginPhase.rank]) (fun now' hnow' => Option.some.inj hnow' ▸ hnow)
        (fun heq => nomatch heq)
    · cases hstep
  | readAccount r =>
    simp only [LoginState.step] at hstep
    split at hstep
    · next now clientRetryAfter hphase =>
      obtain rfl := Option.some.inj hstep
      exact h.read haccount (hallowed.2 r rfl) hphase
    · cases hstep
  | check r =>
    simp only [LoginState.step] at hstep
    split at hstep
    · next hphase =>
      obtain rfl := Option.some.inj hstep
      exact h.check hphase
    · cases hstep
  | recordClient r now =>
    simp only [LoginState.step] at hstep
    split at hstep
    · next hphase =>
      have hnow : InWindow config start now := hallowed.1 now rfl
      split at hstep
      · next retryAfter t hrec =>
        obtain rfl := Option.some.inj hstep
        have hset : LoginInv config start account (s.set r (.clientRecorded now retryAfter)) :=
          h.set (by simp [hphase, LoginPhase.rank]) (fun now' hnow' => Option.some.inj hnow' ▸ hnow)
            (fun heq => nomatch heq)
        obtain ⟨hkeyed, hbucket, -⟩ := h.record hlockout hnow hrec
        exact hset.write hkeyed hbucket
      · obtain rfl := Option.some.inj hstep
        exact h.answered (by simp [hphase, LoginPhase.rank]) _
    · cases hstep
  | recordAccount r =>
    simp only [LoginState.step] at hstep
    split at hstep
    · next now clientRetryAfter hphase =>
      have hnow := h.times r now (by rw [hphase]; rfl)
      split at hstep
      · next retryAfter t hrec =>
        obtain rfl := Option.some.inj hstep
        obtain ⟨hkeyed, -, hbucket⟩ := h.record hlockout hnow hrec
        exact (h.answered (by simp [hphase, LoginPhase.rank]) _).write hkeyed (hbucket (haccount r))
      · obtain rfl := Option.some.inj hstep
        exact h.answered (by simp [hphase, LoginPhase.rank]) _
    · cases hstep
  | fail r =>
    simp only [LoginState.step] at hstep
    split at hstep
    · cases hstep
    · cases hstep
    · next hwaiting hanswered =>
      obtain rfl := Option.some.inj hstep
      refine h.answered ?_ _
      cases hphase : s.phase r with
      | answered answer => exact (hanswered answer hphase).elim
      | _ => simp [LoginPhase.rank]

/-- **Every reachable state satisfies the invariant.** -/
theorem LoginInv.reachable {buckets : R → LoginThrottleBuckets}
    (haccount : ∀ r, (buckets r).account = account)
    (hlockout : config.windowSeconds.val ≤ config.lockoutSeconds.val)
    (hday : config.windowSeconds.val ≤ 86400) {s₀ : LoginState R}
    (h₀ : LoginInv config start account s₀)
    (hs : LoginReachable config buckets (SettledInWindow config start) s₀ s) :
    LoginInv config start account s := by
  induction hs with
  | refl => exact h₀
  | step e _ hallowed hstep ih => exact ih.step haccount hlockout hday hallowed hstep

omit [DecidableEq R] in
/-- Before the first login, with a bucket of an earlier window at most. -/
theorem LoginInv.initial {t : Buckets} (hkeyed : Table.Keyed (·.bucketHash) t)
    (hold : ∀ b ∈ t.find account, start - config.windowSeconds.val * 1000000 ≥ b.windowStartedAt) :
    LoginInv config start account (LoginState.initial t : LoginState R) where
  keyed := hkeyed
  times := fun _ _ hnow => nomatch hnow
  passed_nodup := List.nodup_nil
  passed_rank := fun _ hr => nomatch hr
  mem_passed := fun _ hr => nomatch hr
  checked_nodup := List.nodup_nil
  checked_rank := fun _ hr => nomatch hr
  checked_passed := fun _ hr => nomatch hr
  bucket := Or.inl ⟨rfl, hold⟩
  bound := Int.le_of_lt config.accountMaxFailures.property.1

/-- Too many failures are recorded, and a login that reads the bucket is refused. -/
theorem LoginInv.refuses (h : LoginInv config start account s) {buckets : R → LoginThrottleBuckets}
    (haccount : ∀ r, (buckets r).account = account) {r : R} {now : DateTime}
    {clientRetryAfter : Option Int} (hphase : s.phase r = .clientRead now clientRetryAfter)
    (hmax : config.accountMaxFailures.val ≤ s.recorded.length) :
    ∃ n, (s.read buckets r now clientRetryAfter).phase r = .answered (.rateLimited n) := by
  have hnow : InWindow config start now := h.times r now (by rw [hphase]; rfl)
  unfold LoginState.read
  rw [haccount]
  cases hlock : retryAfterSeconds account now s.buckets with
  | none =>
    have hlt := h.bucket.lt_of_free hnow (Option.map_eq_none_iff.mp hlock)
    omega
  | some n =>
    cases clientRetryAfter with
    | none => exact ⟨n, Function.update_self ..⟩
    | some a => exact ⟨max a n, Function.update_self ..⟩

end Runs

/-- **The wrong passwords of an account that are checked in one window.**  The lockout is not shorter
than the window and the window not longer than a day, and a login reads the account's bucket only when
all that were let through before have recorded their failure: then the passwords checked are at most
as many as the account may fail, and once so many failures are recorded every login is refused. -/
theorem checks_within_limit {R : Type} [DecidableEq R] (config : LoginThrottleConfig)
    (sha256 : String → String) (username : String) (clientIp : R → Option String) (start : Int)
    {t : Buckets} (hkeyed : Table.Keyed (·.bucketHash) t)
    (hold : ∀ b ∈ t.find (loginThrottleBuckets sha256 username none).account,
      start - config.windowSeconds.val * 1000000 ≥ b.windowStartedAt)
    (hlockout : config.windowSeconds.val ≤ config.lockoutSeconds.val)
    (hday : config.windowSeconds.val ≤ 86400) {s : LoginState R}
    (hs : LoginReachable config (fun r => loginThrottleBuckets sha256 username (clientIp r))
      (SettledInWindow config start) (.initial t) s) :
    (s.checked.length : Int) ≤ config.accountMaxFailures.val
      ∧ ∀ r now clientRetryAfter, s.phase r = .clientRead now clientRetryAfter →
        config.accountMaxFailures.val ≤ s.recorded.length →
        ∃ n, (s.read (fun r => loginThrottleBuckets sha256 username (clientIp r)) r now
          clientRetryAfter).phase r = .answered (.rateLimited n) := by
  have haccount : ∀ r, (loginThrottleBuckets sha256 username (clientIp r)).account
      = (loginThrottleBuckets sha256 username none).account := fun _ => rfl
  have hinv := (LoginInv.initial hkeyed hold).reachable haccount hlockout hday hs
  refine ⟨?_, fun r now clientRetryAfter hphase hmax => hinv.refuses (fun _ => rfl) hphase hmax⟩
  have hle : s.checked.length ≤ s.passed.length :=
    (List.subperm_of_subset hinv.checked_nodup fun r hr => hinv.checked_passed r hr).length_le
  have := hinv.bound
  omega

section Run

variable {R : Type} [DecidableEq R] {config : LoginThrottleConfig} {buckets : R → LoginThrottleBuckets}

/-- Some steps, one after the other. -/
def LoginState.run (config : LoginThrottleConfig) (buckets : R → LoginThrottleBuckets)
    (s : LoginState R) (events : List (LoginEvent R)) : Option (LoginState R) :=
  events.foldlM (fun s e => s.step config buckets e) s

theorem LoginReachable.run {allowed : LoginState R → LoginEvent R → Prop} {s₀ s s' : LoginState R}
    (hs : LoginReachable config buckets allowed s₀ s) (events : List (LoginEvent R))
    (hallowed : ∀ e ∈ events, ∀ s, allowed s e) (hrun : s.run config buckets events = some s') :
    LoginReachable config buckets allowed s₀ s' := by
  induction events generalizing s with
  | nil =>
    obtain rfl := Option.some.inj hrun
    exact hs
  | cons e events ih =>
    obtain ⟨s₁, hstep, hrest⟩ := Option.bind_eq_some_iff.mp hrun
    exact ih (hs.step e (hallowed e List.mem_cons_self s) hstep)
      (fun e' he' => hallowed e' (List.mem_cons_of_mem _ he')) hrest

end Run

namespace Sample

theorem positive_one : 0 < (1 : Int) ∧ (1 : Int) ≤ i32Max := by decide

theorem positive_two : 0 < (2 : Int) ∧ (2 : Int) ≤ i32Max := by decide

theorem positive_quarterHour : 0 < (900 : Int) ∧ (900 : Int) ≤ i64Max := by decide

theorem twice_one : (1 : Int) * 2 ≤ 2 := by decide

/-- Two failures of an account lock it for a window. -/
def twoFailures : LoginThrottleConfig :=
  ⟨⟨1, positive_one⟩, ⟨2, positive_two⟩, ⟨900, positive_quarterHour⟩, ⟨900, positive_quarterHour⟩,
    twice_one⟩

/-- A login, up to the read of its account. -/
def arrives {R : Type} (r : R) : List (LoginEvent R) := [.arrive r 0, .prune r, .readClient r]

/-- Its events are in the window. -/
theorem inWindow_arrives {R : Type} (r : R) :
    ∀ e ∈ arrives r, ∀ now ∈ e.time, InWindow twoFailures 0 now := by
  intro e he now hnow
  simp only [arrives, List.mem_cons, List.not_mem_nil, or_false] at he
  rcases he with rfl | rfl | rfl
  · obtain rfl : 0 = now := Option.some.inj hnow
    exact ⟨by decide, by decide⟩
  · cases hnow
  · cases hnow

/-- The check of a login, and the record of its failure. -/
def fails {R : Type} (r : R) : List (LoginEvent R) := [.check r, .recordClient r 0, .recordAccount r]

/-- The addresses of three clients. -/
def address : Fin 3 → Option String
  | 0 => some "10.0.0.1"
  | 1 => some "10.0.0.2"
  | 2 => some "10.0.0.3"

/-- What a login does beside the read of its account. -/
theorem settled_beside {R : Type} [DecidableEq R] (r : R) {e : LoginEvent R}
    (he : e ∈ arrives r ∨ e ∈ fails r) (s : LoginState R) : SettledInWindow twoFailures 0 s e := by
  rcases he with he | he
  · refine ⟨inWindow_arrives r e he, fun r' heq => ?_⟩
    simp [arrives, heq] at he
  · simp only [fails, List.mem_cons, List.not_mem_nil, or_false] at he
    rcases he with rfl | rfl | rfl
    · exact ⟨fun _ hnow => (by cases hnow), fun _ heq => (by cases heq)⟩
    · refine ⟨fun now hnow => ?_, fun _ heq => (by cases heq)⟩
      obtain rfl : 0 = now := Option.some.inj hnow
      exact ⟨by decide, by decide⟩
    · exact ⟨fun _ hnow => (by cases hnow), fun _ heq => (by cases heq)⟩

/-- Two logins, one after the other, and a third that is about to read the account. -/
theorem reachable_twoFailed : ∃ s : LoginState (Fin 3),
    LoginReachable twoFailures (fun r => loginThrottleBuckets id "ada" (address r))
      (SettledInWindow twoFailures 0) (.initial []) s ∧ s.checked = [1, 0] ∧ s.recorded = [1, 0]
      ∧ s.phase 2 = .clientRead 0 none := by
  have hread : ∀ (r : Fin 3) (s : LoginState (Fin 3)), s.Settled →
      SettledInWindow twoFailures 0 s (.readAccount r) :=
    fun _ _ hs => ⟨fun _ hnow => (by cases hnow), fun _ _ => hs⟩
  refine ⟨_, ((((((LoginReachable.refl.run _ (fun e he => settled_beside 0 (Or.inl he)) rfl).step _
    (hread 0 _ ?_) rfl).run _ (fun e he => settled_beside 0 (Or.inr he)) rfl).run _
    (fun e he => settled_beside 1 (Or.inl he)) rfl).step _ (hread 1 _ ?_) rfl).run _
    (fun e he => settled_beside 1 (Or.inr he)) rfl).run _
    (fun e he => settled_beside 2 (Or.inl he)) rfl, rfl, rfl, rfl⟩
  · exact fun _ hr => (by cases hr)
  · exact fun _ hr => hr

end Sample

/-- Two passwords are checked, as many as the account may fail, and the third login is refused. -/
theorem checks_within_limit_two :
    ∃ s : LoginState (Fin 3), s.checked = [1, 0]
      ∧ (s.checked.length : Int) ≤ Sample.twoFailures.accountMaxFailures.val
      ∧ ∃ n, (s.read (fun r => loginThrottleBuckets id "ada" (Sample.address r)) 2 0 none).phase 2
        = .answered (.rateLimited n) := by
  obtain ⟨s, hs, hchecked, hrecorded, hphase⟩ := Sample.reachable_twoFailed
  obtain ⟨hlimit, hrefused⟩ := checks_within_limit Sample.twoFailures id "ada" Sample.address 0
    Table.keyed_nil (fun _ hb => (by cases hb)) (by decide) (by decide) hs
  exact ⟨s, hchecked, hlimit, hrefused 2 0 none hphase (by rw [hrecorded]; decide)⟩

/-! ## Logins that overlap -/

/-- **Three logins whose account may fail twice**: all of them read its bucket before one has recorded
a failure, and all three passwords are checked. -/
theorem overlapping_logins_checked :
    ∃ s : LoginState (Fin 3),
      LoginReachable Sample.twoFailures (fun _ => loginThrottleBuckets id "a" none)
        (fun _ e => ∀ now ∈ e.time, InWindow Sample.twoFailures 0 now) (.initial []) s
      ∧ ¬ (s.checked.length : Int) ≤ Sample.twoFailures.accountMaxFailures.val := by
  let events : List (LoginEvent (Fin 3)) :=
    [0, 1, 2].flatMap fun r => Sample.arrives r ++ [.readAccount r, .check r]
  refine ⟨_, LoginReachable.refl.run events ?_ rfl, by decide⟩
  intro e he s now hnow
  obtain ⟨r, -, he⟩ := List.mem_flatMap.mp he
  rcases List.mem_append.mp he with he | he
  · exact Sample.inWindow_arrives r e he now hnow
  · simp only [List.mem_cons, List.not_mem_nil, or_false] at he
    rcases he with rfl | rfl <;> cases hnow

end DevPortal
