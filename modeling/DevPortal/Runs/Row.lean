import Mathlib.Data.Option.Basic
import Mathlib.Tactic.Common

/-!
# Runs/Row — a row of `connector_runs`, and the updates the repository makes to it

    queued ──claim──▸ running ──finalize──▸ success | partial_success | failed
      ▴                  │ ╰──mark / recover──▸ cancelled
      ╰─────recover──────╯

Every statement that changes a row is one `RunUpdate`: its `WHERE` clause (with the match arm it
stands in) is `RunUpdate.allows`, its `SET` clause `RunUpdate.set`.  What a row can look like is
`RunInv`, and `RunInv.set` says an allowed update keeps it — the one case split over the columns
that the rest of the development uses.
-/

namespace DevPortal

/-! ## Instants

`timestamptz` keeps microseconds, so an instant is the number of microseconds since the epoch. -/

/-- `DateTime<Utc>`, in microseconds. -/
abbrev DateTime := Int

/-- `Duration::seconds`. -/
def seconds (n : Int) : Int := n * 1000000

/-- `Duration::num_milliseconds`, which rounds towards zero. -/
def numMilliseconds (d : Int) : Int := d.tdiv 1000

/-! ## The row -/

/-- `connector_runs.status`, under its `CHECK` constraint. -/
inductive RunStatus
  | queued | running | success | partialSuccess | failed | cancelled
  deriving DecidableEq, Repr

/-- The statuses `create_if_no_pending` counts as pending. -/
def RunStatus.pending : RunStatus → Bool
  | .queued | .running => true
  | _ => false

/-- The terminal statuses. -/
def RunStatus.finished (s : RunStatus) : Bool := !s.pending

/-- The terminal statuses, listed. -/
theorem RunStatus.finished_iff {s : RunStatus} :
    s.finished ↔ s ∈ [.success, .partialSuccess, .failed, .cancelled] := by
  cases s <;> decide

/-- `connector_runs.trigger`, under its `CHECK` constraint. -/
inductive RunTrigger
  | manual | scheduled | viaImport | retry
  deriving DecidableEq, Repr

/-- The insertable columns of `connector_runs`. -/
structure NewConnectorRun where
  source : String
  target : String
  status : RunStatus
  successCount : Int
  failureCount : Int
  durationMs : Int
  errorMessage : Option String
  startedAt : DateTime
  finishedAt : Option DateTime
  trigger : RunTrigger
  payload : Option String
  claimedAt : Option DateTime
  workerId : Option String
  attemptCount : Int
  maxAttempts : Int
  nextAttemptAt : DateTime
  leaseExpiresAt : Option DateTime
  heartbeatAt : Option DateTime
  cancelRequestedAt : Option DateTime
  cancelledAt : Option DateTime
  parentRunId : Option Nat
  snapshotComplete : Option Bool
  archivedCount : Int
  deriving DecidableEq, Repr

/-- A row of `connector_runs`. -/
structure ConnectorRun extends NewConnectorRun where
  id : Nat
  deriving DecidableEq, Repr

/-- The columns `finalize_if_active` writes. -/
structure ConnectorRunStateUpdate where
  status : RunStatus
  successCount : Int
  failureCount : Int
  durationMs : Int
  errorMessage : Option String
  finishedAt : Option DateTime
  snapshotComplete : Option Bool
  archivedCount : Int
  deriving DecidableEq, Repr

/-! ## The `WHERE` clauses

A comparison with a `NULL` column is not true, so `lease_expires_at > now` drops an unleased
row. -/

namespace ConnectorRun

/-- `claim_next_queued`'s filter. -/
def claimable (now : DateTime) (r : ConnectorRun) : Bool :=
  r.status = .queued && r.nextAttemptAt ≤ now && r.cancelRequestedAt.isNone
    && r.attemptCount < r.maxAttempts

/-- `renew_lease`'s filter, and the leased arm of `execution_is_active` and
`finalize_if_active`. -/
def leasedBy (now : DateTime) (workerId : String) (r : ConnectorRun) : Bool :=
  r.status = .running && r.workerId = some workerId && r.cancelRequestedAt.isNone
    && r.leaseExpiresAt.any (now < ·)

/-- The filter of `execution_is_active` and `finalize_if_active`: a worker must hold an unexpired
lease, a request (`none`) owns the unleased row it created. -/
def activeFor (now : DateTime) (workerId : Option String) (r : ConnectorRun) : Bool :=
  match workerId with
  | some w => r.leasedBy now w
  | none => r.status = .running && r.workerId = none && r.cancelRequestedAt.isNone

/-- `mark_cancelled_if_requested`'s filter. -/
def cancellableBy (workerId : Option String) (r : ConnectorRun) : Bool :=
  r.status = .running && r.workerId = workerId && r.cancelRequestedAt.isSome

/-- `recover_expired_leases`'s filter. -/
def leaseExpired (now : DateTime) (r : ConnectorRun) : Bool :=
  r.status = .running && r.leaseExpiresAt.any (· ≤ now)

theorem claimable_iff {now : DateTime} {r : ConnectorRun} :
    r.claimable now ↔ r.status = .queued ∧ r.nextAttemptAt ≤ now ∧ r.cancelRequestedAt = none
      ∧ r.attemptCount < r.maxAttempts := by
  simp [claimable, and_assoc]

theorem leasedBy_iff {now : DateTime} {w : String} {r : ConnectorRun} :
    r.leasedBy now w ↔ r.status = .running ∧ r.workerId = some w ∧ r.cancelRequestedAt = none
      ∧ ∃ t, r.leaseExpiresAt = some t ∧ now < t := by
  simp [leasedBy, and_assoc, Option.any_eq_true]

theorem activeFor_iff {now : DateTime} {w : Option String} {r : ConnectorRun} :
    r.activeFor now w ↔ r.status = .running ∧ r.workerId = w ∧ r.cancelRequestedAt = none
      ∧ (w.isSome → ∃ t, r.leaseExpiresAt = some t ∧ now < t) := by
  cases w with
  | none => simp [activeFor, and_assoc]
  | some w => simp [activeFor, leasedBy_iff]

theorem cancellableBy_iff {w : Option String} {r : ConnectorRun} :
    r.cancellableBy w ↔ r.status = .running ∧ r.workerId = w ∧ r.cancelRequestedAt.isSome := by
  simp [cancellableBy, and_assoc]

theorem leaseExpired_iff {now : DateTime} {r : ConnectorRun} :
    r.leaseExpired now ↔ r.status = .running ∧ ∃ t, r.leaseExpiresAt = some t ∧ t ≤ now := by
  simp [leaseExpired, Option.any_eq_true]

end ConnectorRun

/-! ## The updates -/

/-- One `UPDATE connector_runs` statement. -/
inductive RunUpdate
  | claim (now : DateTime) (workerId : String) (leaseSeconds : Int)
  | renew (now : DateTime) (workerId : String) (leaseSeconds : Int)
  | finalize (now : DateTime) (workerId : Option String) (state : ConnectorRunStateUpdate)
  | cancelQueued (now : DateTime)
  | cancelRunning (now : DateTime)
  | markCancelled (now : DateTime) (workerId : Option String)
  | recoverCancelled (now : DateTime)
  | recoverFailed (now : DateTime)
  | recoverQueued (now : DateTime) (backoffSeconds : Int)
  deriving DecidableEq, Repr

namespace RunUpdate

/-- The rows a statement may change: its filter, and the branch of the caller it stands in. -/
def allows : RunUpdate → ConnectorRun → Bool
  | claim now _ _, r => r.claimable now
  | renew now w _, r => r.leasedBy now w
  | finalize now w _, r => r.activeFor now w
  | cancelQueued _, r => r.status = .queued
  | cancelRunning _, r => r.status = .running
  | markCancelled _ w, r => r.cancellableBy w
  | recoverCancelled now, r => r.leaseExpired now && r.cancelRequestedAt.isSome
  | recoverFailed now, r =>
      r.leaseExpired now && r.cancelRequestedAt.isNone && r.maxAttempts ≤ r.attemptCount
  | recoverQueued now _, r =>
      r.leaseExpired now && r.cancelRequestedAt.isNone && r.attemptCount < r.maxAttempts

/-- The columns a statement sets. -/
def set : RunUpdate → ConnectorRun → ConnectorRun
  | claim now w lease, r =>
      { r with
        status := .running
        claimedAt := some now
        workerId := some w
        attemptCount := r.attemptCount + 1
        leaseExpiresAt := some (now + seconds lease)
        heartbeatAt := some now
        finishedAt := none
        cancelledAt := none }
  | renew now _ lease, r =>
      { r with heartbeatAt := some now, leaseExpiresAt := some (now + seconds lease) }
  | finalize now _ state, r =>
      { r with
        status := state.status
        successCount := state.successCount
        failureCount := state.failureCount
        durationMs := state.durationMs
        errorMessage := state.errorMessage
        finishedAt := state.finishedAt
        snapshotComplete := state.snapshotComplete
        archivedCount := state.archivedCount
        leaseExpiresAt := none
        heartbeatAt := some now }
  | cancelQueued now, r =>
      { r with
        status := .cancelled
        cancelRequestedAt := some now
        cancelledAt := some now
        finishedAt := some now
        leaseExpiresAt := none }
  | cancelRunning now, r => { r with cancelRequestedAt := some now }
  | markCancelled now _, r =>
      { r with
        status := .cancelled
        cancelledAt := some now
        finishedAt := some now
        leaseExpiresAt := none
        heartbeatAt := some now
        errorMessage := some "cancelled by operator" }
  | recoverCancelled now, r =>
      { r with
        status := .cancelled
        cancelledAt := some now
        finishedAt := some now
        leaseExpiresAt := none
        errorMessage := some "cancelled after worker lease expired" }
  | recoverFailed now, r =>
      { r with
        status := .failed
        finishedAt := some now
        leaseExpiresAt := none
        errorMessage := some ("worker lease expired after " ++ toString r.attemptCount
          ++ " attempt(s); retry limit reached") }
  | recoverQueued now backoff, r =>
      { r with
        status := .queued
        nextAttemptAt := now + seconds backoff
        claimedAt := none
        workerId := none
        leaseExpiresAt := none
        heartbeatAt := none
        errorMessage := some ("worker lease expired on attempt " ++ toString r.attemptCount
          ++ "; retry scheduled in " ++ toString backoff ++ " second(s)") }

/-- `finish_connector_run_for_owner` finalizes with one of these statuses and a finish time. -/
def Finishes : RunUpdate → Prop
  | finalize _ _ state =>
      state.status ∈ [RunStatus.success, .partialSuccess, .failed] ∧ state.finishedAt.isSome
  | _ => True

@[simp] theorem set_id (u : RunUpdate) (r : ConnectorRun) : (u.set r).id = r.id := by
  cases u <;> rfl

@[simp] theorem set_source (u : RunUpdate) (r : ConnectorRun) : (u.set r).source = r.source := by
  cases u <;> rfl

@[simp] theorem set_target (u : RunUpdate) (r : ConnectorRun) : (u.set r).target = r.target := by
  cases u <;> rfl

@[simp] theorem set_maxAttempts (u : RunUpdate) (r : ConnectorRun) :
    (u.set r).maxAttempts = r.maxAttempts := by cases u <;> rfl

end RunUpdate

/-! ## What a row can look like -/

/-- **The columns agree with the status.** -/
structure RunInv (r : ConnectorRun) : Prop where
  attempts_nonneg : 0 ≤ r.attemptCount
  attempts_le : r.attemptCount ≤ r.maxAttempts
  queued : r.status = .queued → r.attemptCount < r.maxAttempts ∧ r.workerId = none
    ∧ r.leaseExpiresAt = none ∧ r.finishedAt = none ∧ r.cancelRequestedAt = none
  leased : r.status = .running → r.workerId.isSome → r.leaseExpiresAt.isSome
  unleased : r.status = .running → r.workerId = none → r.leaseExpiresAt = none
  finished : r.finishedAt.isSome ↔ r.status.finished

/-- An update changes only pending rows — **a terminal status never changes**. -/
theorem RunUpdate.pending_of_allows {u : RunUpdate} {r : ConnectorRun} (h : u.allows r) :
    r.status.pending := by
  cases u <;> simp only [allows, ConnectorRun.claimable_iff, ConnectorRun.leasedBy_iff,
    ConnectorRun.activeFor_iff, ConnectorRun.cancellableBy_iff, Bool.and_eq_true,
    ConnectorRun.leaseExpired_iff, decide_eq_true_eq] at h <;> simp [h, RunStatus.pending]

/-- **An allowed update keeps the row consistent.** -/
theorem RunInv.set {u : RunUpdate} {r : ConnectorRun} (hr : RunInv r) (h : u.allows r)
    (hu : u.Finishes) : RunInv (u.set r) := by
  obtain ⟨h0, hle, hq, hl, hn, hf⟩ := hr
  cases u with
  | claim now w lease =>
    obtain ⟨_, _, _, hlt⟩ := ConnectorRun.claimable_iff.mp h
    refine ⟨?_, ?_, ?_, ?_, ?_, ?_⟩ <;> simp [RunUpdate.set, RunStatus.finished, RunStatus.pending]
    · omega
    · omega
  | renew now w lease =>
    obtain ⟨hs, hw, _, _⟩ := ConnectorRun.leasedBy_iff.mp h
    exact ⟨h0, hle, by simp [RunUpdate.set, hs], by simp [RunUpdate.set],
      by simp [RunUpdate.set, hw], hf⟩
  | finalize now w state =>
    obtain ⟨hs, hat⟩ := hu
    have hfin : state.status.finished := by
      simp only [List.mem_cons, List.not_mem_nil, or_false] at hs
      rcases hs with hs | hs | hs <;> rw [hs] <;> rfl
    have hnq : state.status ≠ .queued := fun hc => by simp [hc, RunStatus.finished,
      RunStatus.pending] at hfin
    have hnr : state.status ≠ .running := fun hc => by simp [hc, RunStatus.finished,
      RunStatus.pending] at hfin
    exact ⟨h0, hle, by simp [RunUpdate.set, hnq], by simp [RunUpdate.set, hnr],
      by simp [RunUpdate.set], by simp [RunUpdate.set, hat, hfin]⟩
  | cancelQueued now =>
    refine ⟨h0, hle, ?_, ?_, ?_, ?_⟩ <;> simp [RunUpdate.set, RunStatus.finished, RunStatus.pending]
  | cancelRunning now =>
    have hs : r.status = .running := by simpa [RunUpdate.allows] using h
    exact ⟨h0, hle, by simp [RunUpdate.set, hs], hl, hn, hf⟩
  | markCancelled now w =>
    refine ⟨h0, hle, ?_, ?_, ?_, ?_⟩ <;> simp [RunUpdate.set, RunStatus.finished, RunStatus.pending]
  | recoverCancelled now =>
    refine ⟨h0, hle, ?_, ?_, ?_, ?_⟩ <;> simp [RunUpdate.set, RunStatus.finished, RunStatus.pending]
  | recoverFailed now =>
    refine ⟨h0, hle, ?_, ?_, ?_, ?_⟩ <;> simp [RunUpdate.set, RunStatus.finished, RunStatus.pending]
  | recoverQueued now backoff =>
    simp only [RunUpdate.allows, Bool.and_eq_true, ConnectorRun.leaseExpired_iff,
      Option.isNone_iff_eq_none, decide_eq_true_eq] at h
    obtain ⟨⟨⟨hs, _⟩, hc⟩, hlt⟩ := h
    have hfin : r.finishedAt = none := by simpa [hs, RunStatus.finished, RunStatus.pending] using hf
    refine ⟨h0, hle, ?_, ?_, ?_, ?_⟩ <;>
      simp [RunUpdate.set, RunStatus.finished, RunStatus.pending, hlt, hc, hfin]

/-- **The attempt counter moves exactly when the row enters `running`.** -/
theorem RunUpdate.attemptCount_set {u : RunUpdate} {r : ConnectorRun} (h : u.allows r) :
    (u.set r).attemptCount
      = r.attemptCount + (if r.status ≠ .running ∧ (u.set r).status = .running then 1 else 0) := by
  cases u with
  | claim now w lease => simp [set, (ConnectorRun.claimable_iff.mp h).1]
  | finalize now w state => simp [set, (ConnectorRun.activeFor_iff.mp h).1]
  | renew | cancelQueued | cancelRunning | markCancelled | recoverCancelled | recoverFailed
  | recoverQueued => simp [set]

/-- **A cancellation request is final for the row**: whatever is still allowed keeps the request,
and leaves the status alone or makes it `cancelled`. -/
theorem RunUpdate.set_of_cancelRequested {u : RunUpdate} {r : ConnectorRun} (h : u.allows r)
    (hc : r.cancelRequestedAt.isSome) :
    (u.set r).cancelRequestedAt.isSome
      ∧ ((u.set r).status = r.status ∨ (u.set r).status = .cancelled) := by
  obtain ⟨t, ht⟩ := Option.isSome_iff_exists.mp hc
  cases u <;> simp_all [set, allows, ConnectorRun.claimable_iff, ConnectorRun.leasedBy_iff,
    ConnectorRun.activeFor_iff]

/-! ## What one operation can do to one row

`parent_run_id` is `ON DELETE SET NULL`, so a row may lose its parent without being updated. -/

/-- A row as the creating routes insert it: pending, counted, and owned by nobody. -/
structure Created (r : ConnectorRun) : Prop where
  inv : RunInv r
  pending : r.status.pending
  attempts : r.attemptCount = if r.status = .running then 1 else 0
  worker : r.workerId = none
  cancel : r.cancelRequestedAt = none

/-- What a call may issue: the updates, and the rows it inserts. -/
structure Issued where
  update : RunUpdate → Prop
  insert : NewConnectorRun → Prop

/-- **Everything that can happen to the row at one id** when `P` is what may be issued. -/
inductive RowMove (P : Issued) : Option ConnectorRun → Option ConnectorRun → Prop
  | absent : RowMove P none none
  | keep (r : ConnectorRun) : RowMove P (some r) (some r)
  | orphan (r : ConnectorRun) : RowMove P (some r) (some { r with parentRunId := none })
  | update (r : ConnectorRun) (u : RunUpdate) (h : u.allows r) (hu : P.update u) :
      RowMove P (some r) (some (u.set r))
  | create (r : ConnectorRun) (h : Created r) (hr : P.insert r.toNewConnectorRun) :
      RowMove P none (some r)
  | delete (r : ConnectorRun) (h : r.status.finished) : RowMove P (some r) none

namespace RowMove

variable {P : Issued}

theorem refl : ∀ o : Option ConnectorRun, RowMove P o o
  | none => absent
  | some r => keep r

theorem mono {Q : Issued} {o o' : Option ConnectorRun} (h : RowMove P o o')
    (hu : ∀ u, P.update u → Q.update u) (hi : ∀ r, P.insert r → Q.insert r) : RowMove Q o o' := by
  cases h with
  | absent => exact absent
  | keep r => exact keep r
  | orphan r => exact orphan r
  | update r u h hP => exact update r u h (hu u hP)
  | create r h hr => exact create r h (hi _ hr)
  | delete r h => exact delete r h

theorem inv {o : Option ConnectorRun} {r' : ConnectorRun} (h : RowMove P o (some r'))
    (hP : ∀ u, P.update u → u.Finishes) (ho : ∀ r, o = some r → RunInv r) : RunInv r' := by
  cases h with
  | keep => exact ho r' rfl
  | orphan r => exact ⟨(ho r rfl).1, (ho r rfl).2, (ho r rfl).3, (ho r rfl).4, (ho r rfl).5,
      (ho r rfl).6⟩
  | update r u h hu => exact (ho r rfl).set h (hP u hu)
  | create _ h => exact h.inv

/-- **A terminal status never changes.** -/
theorem status_of_finished {r r' : ConnectorRun} (h : RowMove P (some r) (some r'))
    (hr : r.status.finished) : r'.status = r.status := by
  cases h with
  | keep | orphan => rfl
  | update _ u h hu => simp [RunStatus.finished, RunUpdate.pending_of_allows h] at hr

/-- The number of times the row has been in `running`, read off its counter. -/
theorem attemptCount {o : Option ConnectorRun} {r' : ConnectorRun} (h : RowMove P o (some r')) :
    r'.attemptCount = o.elim 0 (·.attemptCount)
      + (if ¬ o.any (·.status = .running) ∧ r'.status = .running then 1 else 0) := by
  cases h with
  | keep | orphan => simp
  | update r u h hu => simpa using RunUpdate.attemptCount_set h
  | create _ h => simpa using h.attempts

/-- **A cancellation request stays.** -/
theorem of_cancelRequested {r r' : ConnectorRun} (h : RowMove P (some r) (some r'))
    (hc : r.cancelRequestedAt.isSome) :
    r'.cancelRequestedAt.isSome ∧ (r'.status = r.status ∨ r'.status = .cancelled) := by
  cases h with
  | keep | orphan => exact ⟨hc, Or.inl rfl⟩
  | update _ u h hu => exact RunUpdate.set_of_cancelRequested h hc

end RowMove

end DevPortal
