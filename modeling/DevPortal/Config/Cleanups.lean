import DevPortal.Access.Dashboard
import DevPortal.Config.Retention
import DevPortal.Runs.Repository

/-!
# Config/Cleanups — workers that clean up

    BEGIN ▸ pg_try_advisory_xact_lock ▸ now ▸ find_latest_success ▸ DELETE … ▸ INSERT ▸ COMMIT
      │             │ busy                        │ recent               │          │
      │             └▸ skipped                    └▸ skipped             └▸ failed  └▸ finished_at
      └ created_at of the record

Who holds the lock is alone behind it, so what it reads is what was committed last — but the latest
success is the one with the latest `created_at`, which is a `BEGIN` that no lock orders.  A call that
nobody overtakes between its `BEGIN` and its lock is behind every commit, because of the lock; where
only such calls go on, the latest `created_at` is the last commit, and the cleanups keep their
distance (`Distant.step`).  All else holds in every run (`CleanupsInv.step`).
-/

namespace DevPortal

open Cascade

/-! ## Records -/

/-- `maintenance_runs`. -/
structure MaintenanceRun where
  task : String
  status : String
  workerId : Option String
  startedAt : DateTime
  finishedAt : DateTime
  durationMs : Int
  healthChecksDeleted : Int
  connectorRunsDeleted : Int
  auditLogsDeleted : Int
  errorMessage : Option String
  createdAt : DateTime
  deriving DecidableEq, Repr

/-- The filters of `find_latest_success`, for `"retention_cleanup"`. -/
def MaintenanceRun.isSuccess (run : MaintenanceRun) : Bool :=
  run.task = "retention_cleanup" && run.status = "success"

/-- **`MaintenanceRunRepository::find_latest_success`**, `ORDER BY created_at DESC`: of several latest
ones any may come first. -/
def FindsLatestSuccess (runs : List MaintenanceRun) : Option MaintenanceRun → Prop
  | none => ∀ run ∈ runs, ¬ run.isSuccess
  | some latest => latest ∈ runs ∧ latest.isSuccess ∧
      ∀ run ∈ runs, run.isSuccess → run.createdAt ≤ latest.createdAt

instance (runs : List MaintenanceRun) : (latest : Option MaintenanceRun) →
    Decidable (FindsLatestSuccess runs latest)
  | none => inferInstanceAs (Decidable (∀ _ ∈ _, _))
  | some _ => inferInstanceAs (Decidable (_ ∧ _ ∧ _))

/-- `cleanup_interval_seconds`. -/
def ConnectorRetentionPolicy.cleanupIntervalSeconds (policy : ConnectorRetentionPolicy) : Int :=
  min policy.cleanupInterval.val i64Max

/-- The latest success is too recent. -/
def recentlyCompleted (policy : ConnectorRetentionPolicy) (now : DateTime)
    (latestSuccess : Option MaintenanceRun) : Bool :=
  latestSuccess.any fun latest => numSeconds (now - latest.finishedAt) < policy.cleanupIntervalSeconds

/-! ## Workers -/

/-- A call of `cleanup_connector_retention`, with its `BEGIN`. -/
structure CleanupCall where
  workerId : String
  startedAt : DateTime
  begunAt : DateTime
  deriving DecidableEq, Repr

/-- A call that goes on: the rows it found, and those it would leave. -/
structure CleanupWork extends CleanupCall where
  now : DateTime
  before : List StampedRow
  view : List StampedRow
  deriving DecidableEq, Repr

/-- The record of a call. -/
def CleanupWork.record (work : CleanupWork) (finishedAt : DateTime) (deleted : List Nat) :
    MaintenanceRun where
  task := "retention_cleanup"
  status := "success"
  workerId := some work.workerId
  startedAt := work.startedAt
  finishedAt := finishedAt
  durationMs := max (numMilliseconds (finishedAt - work.startedAt)) 0
  healthChecksDeleted := countAsI32 (deleted.getD 0 0)
  connectorRunsDeleted := countAsI32 (deleted.getD 1 0)
  auditLogsDeleted := countAsI32 (deleted.getD 2 0)
  errorMessage := none
  createdAt := work.begunAt

/-- How far a call has come. -/
inductive CleanupPhase
  | idle
  | begun (call : CleanupCall)
  | locked (call : CleanupCall)
  | timed (call : CleanupCall) (now : DateTime)
  | deleting (work : CleanupWork) (deleted : List Nat) (todo : List (Option (StampedRow → Bool)))
  | recorded (work : CleanupWork) (record : MaintenanceRun)

/-- It is behind the lock. -/
def CleanupPhase.locks : CleanupPhase → Bool
  | idle | begun _ => false
  | locked _ | timed _ _ | deleting _ _ _ | recorded _ _ => true

/-- It has begun, and has not asked for the lock. -/
def CleanupPhase.waits : CleanupPhase → Bool
  | begun _ => true
  | idle | locked _ | timed _ _ | deleting _ _ _ | recorded _ _ => false

/-- Its call. -/
def CleanupPhase.call : CleanupPhase → Option CleanupCall
  | idle => none
  | begun call | locked call | timed call _ => some call
  | deleting work _ _ | recorded work _ => some work.toCleanupCall

/-- What it writes. -/
def CleanupPhase.work : CleanupPhase → Option CleanupWork
  | deleting work _ _ | recorded work _ => some work
  | idle | begun _ | locked _ | timed _ _ => none

/-- A cleanup that was committed. -/
structure CompletedCleanup extends CleanupWork where
  record : MaintenanceRun
  committedAt : DateTime

/-- A call that finds a latest success was not overtaken, and was begun after every recorded success;
or it ends. -/
def CleanupPhase.InOrder (policy : ConnectorRetentionPolicy) (runs : List MaintenanceRun)
    (overtaken : Bool) (latestSuccess : Option MaintenanceRun) : CleanupPhase → Prop
  | timed call now => recentlyCompleted policy now latestSuccess ∨
      overtaken = false ∧ ∀ run ∈ runs, run.isSuccess → run.createdAt < call.begunAt
  | _ => True

instance (policy : ConnectorRetentionPolicy) (runs : List MaintenanceRun) (overtaken : Bool)
    (latestSuccess : Option MaintenanceRun) :
    (p : CleanupPhase) → Decidable (p.InOrder policy runs overtaken latestSuccess)
  | .timed _ _ => inferInstanceAs (Decidable (_ ∨ _ ∧ _))
  | .idle | .begun _ | .locked _ | .deleting _ _ _ | .recorded _ _ => .isTrue trivial

/-- The workers, the clock, the advisory lock and what is committed.  Two things are only remembered:
which calls were `overtaken`, since another one committed between their `BEGIN` and their lock, and
the `completed` ones. -/
structure Cleanups (W : Type) where
  clock : DateTime
  owner : Option W
  rows : List StampedRow
  maintenanceRuns : List MaintenanceRun
  phase : W → CleanupPhase
  overtaken : W → Bool
  completed : List CompletedCleanup

/-- What can happen.  `fail` is an error or a panic anywhere in a call; the rest of the portal writes
to the tables while no cleanup does, and leaves its runs as they should be. -/
inductive CleanupAction (W : Type)
  | tick (now : DateTime)
  | begin (w : W) (workerId : String) (startedAt : DateTime)
  | tryLock (w : W)
  | readNow (w : W)
  | look (w : W) (latestSuccess : Option MaintenanceRun)
  | delete (w : W)
  | record (w : W)
  | commit (w : W)
  | fail (w : W)
  | portal (rows : List StampedRow)
  | history (run : MaintenanceRun)

section Definitions

variable {W : Type} [DecidableEq W]

namespace Cleanups

def setPhase (s : Cleanups W) (w : W) (phase : CleanupPhase) : Cleanups W :=
  { s with phase := Function.update s.phase w phase }

/-- The end of a transaction. -/
def release (s : Cleanups W) (w : W) : Cleanups W :=
  { s.setPhase w .idle with owner := if s.owner = some w then none else s.owner }

/-- No cleanup has begun to delete. -/
def quiet (s : Cleanups W) : Bool := s.owner.all fun w => (s.phase w).work.isNone

variable (policy : ConnectorRetentionPolicy)

/-- **`cleanup_connector_retention`**, action by action. -/
def step (s : Cleanups W) : CleanupAction W → Option (Cleanups W)
  | .tick now => if s.clock ≤ now then some { s with clock := now } else none
  | .begin w workerId startedAt =>
    match s.phase w with
    | .idle =>
      if startedAt ≤ s.clock then
        some { s.setPhase w (.begun ⟨workerId, startedAt, s.clock⟩) with
          overtaken := Function.update s.overtaken w false }
      else none
    | _ => none
  | .tryLock w =>
    match s.phase w with
    | .begun call =>
      if s.owner = none then some { s.setPhase w (.locked call) with owner := some w }
      else some (s.setPhase w .idle)
    | _ => none
  | .readNow w =>
    match s.phase w with
    | .locked call => some (s.setPhase w (.timed call s.clock))
    | _ => none
  | .look w latestSuccess =>
    match s.phase w with
    | .timed call now =>
      if FindsLatestSuccess s.maintenanceRuns latestSuccess then
        if recentlyCompleted policy now latestSuccess then some (s.release w)
        else match retentionStatements policy now with
          -- a cutoff before the first instant: chrono panics
          | none => some (s.release w)
          | some statements =>
            some (s.setPhase w (.deleting ⟨call, now, s.rows, s.rows⟩ [] statements))
      else none
    | _ => none
  | .delete w =>
    match s.phase w with
    | .deleting work deleted (statement :: todo) =>
      match runStatement work.view statement with
      | none => some (s.release w)
      | some view =>
        some (s.setPhase w (.deleting { work with view := view }
          (deleted ++ [work.view.countP (about statement)]) todo))
    | _ => none
  | .record w =>
    match s.phase w with
    | .deleting work deleted [] =>
      some (s.setPhase w (.recorded work (work.record s.clock deleted)))
    | _ => none
  | .commit w =>
    match s.phase w with
    | .recorded work record =>
      some { s.release w with
        rows := work.view
        maintenanceRuns := s.maintenanceRuns ++ [record]
        overtaken := fun v => s.overtaken v || (s.phase v).waits
        completed := s.completed ++ [⟨work, record, s.clock⟩] }
    | _ => none
  | .fail w =>
    match s.phase w with
    | .idle => none
    | _ => some (s.release w)
  | .portal rows =>
    if s.quiet && rows.all StampedRow.runOk then some { s with rows := rows } else none
  | .history run =>
    if run.isSuccess then none else some { s with maintenanceRuns := s.maintenanceRuns ++ [run] }

/-- **A call goes on only if nobody committed between its `BEGIN` and its lock**, and every success it
could be given was begun before it. -/
def InOrder (s : Cleanups W) : CleanupAction W → Prop
  | .look w latestSuccess =>
    (s.phase w).InOrder policy s.maintenanceRuns (s.overtaken w) latestSuccess
  | _ => True

instance (s : Cleanups W) : (a : CleanupAction W) → Decidable (s.InOrder policy a)
  | .look _ _ => inferInstanceAs (Decidable (CleanupPhase.InOrder _ _ _ _ _))
  | .tick _ | .begin _ _ _ | .tryLock _ | .readNow _ | .delete _ | .record _ | .commit _ | .fail _
  | .portal _ | .history _ => .isTrue trivial

/-- Nobody has called yet. -/
structure Initial (s : Cleanups W) : Prop where
  owner : s.owner = none
  idle : ∀ w, s.phase w = .idle
  completed : s.completed = []
  rows : ∀ r ∈ s.rows, r.runOk

end Cleanups

/-- **Runs**: any number of workers, in any interleaving of what is allowed. -/
inductive CleanupsReachable (policy : ConnectorRetentionPolicy)
    (allowed : Cleanups W → CleanupAction W → Prop) (s₀ : Cleanups W) : Cleanups W → Prop
  | refl : CleanupsReachable policy allowed s₀ s₀
  | step {s s' : Cleanups W} (h : CleanupsReachable policy allowed s₀ s) (a : CleanupAction W)
      (hallowed : allowed s a) (hstep : s.step policy a = some s') :
      CleanupsReachable policy allowed s₀ s'

/-! ## What is claimed -/

namespace Cleanups

/-- What one action changes: a commit all of its call, and every other action nothing. -/
def AllOrNothing (s : Cleanups W) (a : CleanupAction W) (s' : Cleanups W) : Prop :=
  match a with
  | .commit _ => ∃ c : CompletedCleanup, s'.completed = s.completed ++ [c] ∧ c.before = s.rows ∧
      s'.rows = c.view ∧ s'.maintenanceRuns = s.maintenanceRuns ++ [c.record]
  | .portal rows => s'.rows = rows ∧ s'.maintenanceRuns = s.maintenanceRuns ∧ s'.completed = s.completed
  | .history run => s'.rows = s.rows ∧ s'.maintenanceRuns = s.maintenanceRuns ++ [run] ∧
      s'.completed = s.completed
  | _ => s'.rows = s.rows ∧ s'.maintenanceRuns = s.maintenanceRuns ∧ s'.completed = s.completed

/-- **The cleanups are coordinated.** -/
structure Coordinated (policy : ConnectorRetentionPolicy) (s : Cleanups W) : Prop where
  apart : s.completed.Pairwise fun earlier later => earlier.committedAt ≤ later.begunAt
  distant : s.completed.Pairwise fun earlier later =>
    policy.cleanupIntervalSeconds ≤ numSeconds (later.now - earlier.record.finishedAt)
  steps : ∀ a s', s.step policy a = some s' → s.AllOrNothing a s'
  cleaned : ∀ c ∈ s.completed, Cleaned policy c.now c.before c.view
  pending : ∀ c ∈ s.completed, ∀ r ∈ c.before, r.pendingRun →
    ∃ r' ∈ c.view, r'.pendingRun ∧ r'.column "id" = r.column "id"
  accepted : ∀ w work deleted statement todo, s.phase w = .deleting work deleted (statement :: todo) →
    (runStatement work.view statement).isSome

end Cleanups

end Definitions

/-! ## One step -/

section Steps

variable {W : Type} [DecidableEq W] {policy : ConnectorRetentionPolicy} {s s' : Cleanups W} {w v : W}
  {p : CleanupPhase}

namespace Cleanups

@[simp] theorem setPhase_phase : (s.setPhase w p).phase w = p := Function.update_self ..

theorem setPhase_phase_of_ne (h : v ≠ w) : (s.setPhase w p).phase v = s.phase v :=
  Function.update_of_ne h ..

@[simp] theorem release_phase : (s.release w).phase w = .idle := Function.update_self ..

theorem release_phase_of_ne (h : v ≠ w) : (s.release w).phase v = s.phase v :=
  Function.update_of_ne h ..

/-- **How a call comes further**, while its transaction keeps what it has. -/
inductive Moves (policy : ConnectorRetentionPolicy) (s : Cleanups W) (w : W) :
    CleanupAction W → CleanupPhase → Prop
  | busy {call : CleanupCall} (hphase : s.phase w = .begun call) : Moves policy s w (.tryLock w) .idle
  | readNow {call : CleanupCall} (hphase : s.phase w = .locked call) :
      Moves policy s w (.readNow w) (.timed call s.clock)
  | look {call : CleanupCall} {now : DateTime} {latestSuccess : Option MaintenanceRun}
      {statements : List (Option (StampedRow → Bool))} (hphase : s.phase w = .timed call now)
      (hlatest : FindsLatestSuccess s.maintenanceRuns latestSuccess)
      (hrecent : recentlyCompleted policy now latestSuccess = false)
      (hstatements : retentionStatements policy now = some statements) :
      Moves policy s w (.look w latestSuccess) (.deleting ⟨call, now, s.rows, s.rows⟩ [] statements)
  | delete {work : CleanupWork} {deleted : List Nat} {statement : Option (StampedRow → Bool)}
      {todo : List (Option (StampedRow → Bool))} {view : List StampedRow}
      (hphase : s.phase w = .deleting work deleted (statement :: todo))
      (hrun : runStatement work.view statement = some view) :
      Moves policy s w (.delete w) (.deleting { work with view := view }
        (deleted ++ [work.view.countP (about statement)]) todo)
  | record {work : CleanupWork} {deleted : List Nat} (hphase : s.phase w = .deleting work deleted []) :
      Moves policy s w (.record w) (.recorded work (work.record s.clock deleted))

/-- **What a step can do.** -/
inductive Effect (policy : ConnectorRetentionPolicy) (s : Cleanups W) :
    CleanupAction W → Cleanups W → Prop
  | tick {now : DateTime} (h : s.clock ≤ now) : Effect policy s (.tick now) { s with clock := now }
  | begins {w : W} {workerId : String} {startedAt : DateTime} (hphase : s.phase w = .idle) :
      Effect policy s (.begin w workerId startedAt)
        { s.setPhase w (.begun ⟨workerId, startedAt, s.clock⟩) with
          overtaken := Function.update s.overtaken w false }
  | moves {a : CleanupAction W} {w : W} {p : CleanupPhase} (h : Moves policy s w a p) :
      Effect policy s a (s.setPhase w p)
  | locks {w : W} {call : CleanupCall} (hphase : s.phase w = .begun call) (howner : s.owner = none) :
      Effect policy s (.tryLock w) { s.setPhase w (.locked call) with owner := some w }
  | releases {a : CleanupAction W} {w : W}
      (ha : a = .fail w ∨ a = .delete w ∨ ∃ latestSuccess, a = .look w latestSuccess) :
      Effect policy s a (s.release w)
  | commits {w : W} {work : CleanupWork} {record : MaintenanceRun}
      (hphase : s.phase w = .recorded work record) :
      Effect policy s (.commit w) { s.release w with
        rows := work.view
        maintenanceRuns := s.maintenanceRuns ++ [record]
        overtaken := fun v => s.overtaken v || (s.phase v).waits
        completed := s.completed ++ [⟨work, record, s.clock⟩] }
  | portal {rows : List StampedRow} (hquiet : s.quiet) (hrows : ∀ r ∈ rows, r.runOk) :
      Effect policy s (.portal rows) { s with rows := rows }
  | history {run : MaintenanceRun} (hrun : run.isSuccess = false) :
      Effect policy s (.history run) { s with maintenanceRuns := s.maintenanceRuns ++ [run] }

theorem effect_of_step {a : CleanupAction W} (h : s.step policy a = some s') :
    Effect policy s a s' := by
  cases a with
  | tick now =>
    obtain ⟨hle, h⟩ := Option.ite_none_right_eq_some.mp h
    obtain rfl := Option.some.inj h
    exact .tick hle
  | begin w workerId startedAt =>
    simp only [step] at h
    split at h
    · next hphase =>
      obtain ⟨-, h⟩ := Option.ite_none_right_eq_some.mp h
      obtain rfl := Option.some.inj h
      exact .begins hphase
    · cases h
  | tryLock w =>
    simp only [step] at h
    split at h
    · next call hphase =>
      split at h
      · next howner =>
        obtain rfl := Option.some.inj h
        exact .locks hphase howner
      · obtain rfl := Option.some.inj h
        exact .moves (.busy hphase)
    · cases h
  | readNow w =>
    simp only [step] at h
    split at h
    · next call hphase =>
      obtain rfl := Option.some.inj h
      exact .moves (.readNow hphase)
    · cases h
  | look w latestSuccess =>
    simp only [step] at h
    split at h
    · next call now hphase =>
      obtain ⟨hlatest, h⟩ := Option.ite_none_right_eq_some.mp h
      split at h
      · obtain rfl := Option.some.inj h
        exact .releases (.inr (.inr ⟨latestSuccess, rfl⟩))
      · next hrecent =>
        split at h
        · obtain rfl := Option.some.inj h
          exact .releases (.inr (.inr ⟨latestSuccess, rfl⟩))
        · next statements hstatements =>
          obtain rfl := Option.some.inj h
          exact .moves (.look hphase hlatest (Bool.eq_false_iff.mpr hrecent) hstatements)
    · cases h
  | delete w =>
    simp only [step] at h
    split at h
    · next work deleted statement todo hphase =>
      split at h
      · obtain rfl := Option.some.inj h
        exact .releases (.inr (.inl rfl))
      · next view hrun =>
        obtain rfl := Option.some.inj h
        exact .moves (.delete hphase hrun)
    · cases h
  | record w =>
    simp only [step] at h
    split at h
    · next work deleted hphase =>
      obtain rfl := Option.some.inj h
      exact .moves (.record hphase)
    · cases h
  | commit w =>
    simp only [step] at h
    split at h
    · next work record hphase =>
      obtain rfl := Option.some.inj h
      exact .commits hphase
    · cases h
  | fail w =>
    simp only [step] at h
    split at h
    · cases h
    · obtain rfl := Option.some.inj h
      exact .releases (.inl rfl)
  | portal rows =>
    obtain ⟨hguard, h⟩ := Option.ite_none_right_eq_some.mp h
    obtain rfl := Option.some.inj h
    obtain ⟨hquiet, hrows⟩ := (Bool.and_eq_true _ _).mp hguard
    exact .portal hquiet (List.all_eq_true.mp hrows)
  | history run =>
    simp only [step] at h
    split at h
    · cases h
    · next hrun =>
      obtain rfl := Option.some.inj h
      exact .history (Bool.eq_false_iff.mpr hrun)

end Cleanups

/-! ## What holds in every run -/

/-- The state of a call, in its phase. -/
def PhaseOk (policy : ConnectorRetentionPolicy) (s : Cleanups W) (w : W) : CleanupPhase → Prop
  | .idle => True
  | .begun call => call.begunAt ≤ s.clock
  | .locked call => s.owner = some w ∧ call.begunAt ≤ s.clock
  | .timed call now => s.owner = some w ∧ call.begunAt ≤ now ∧ now ≤ s.clock
  | .deleting work _ todo => s.owner = some w ∧ work.begunAt ≤ work.now ∧ work.now ≤ s.clock ∧
      work.before = s.rows ∧ ∃ done, retentionStatements policy work.now = some (done ++ todo) ∧
        runStatements work.before done = some work.view
  | .recorded work record => s.owner = some w ∧ work.begunAt ≤ work.now ∧
      work.now ≤ record.finishedAt ∧ record.finishedAt ≤ s.clock ∧ work.before = s.rows ∧
        Cleaned policy work.now work.before work.view ∧ record.isSuccess ∧
          record.createdAt = work.begunAt

/-- What a cleanup leaves behind. -/
structure CompletedCleanup.Ok (policy : ConnectorRetentionPolicy) (clock : DateTime)
    (c : CompletedCleanup) : Prop where
  begun : c.begunAt ≤ c.now
  finished : c.now ≤ c.record.finishedAt
  committed : c.record.finishedAt ≤ c.committedAt
  past : c.committedAt ≤ clock
  cleaned : Cleaned policy c.now c.before c.view
  rows : ∀ r ∈ c.before, r.runOk

/-- **The invariant of every run.**  A call that nobody overtook was begun after every commit. -/
structure CleanupsInv (policy : ConnectorRetentionPolicy) (s : Cleanups W) : Prop where
  rows : ∀ r ∈ s.rows, r.runOk
  phases : ∀ w, PhaseOk policy s w (s.phase w)
  completed : ∀ c ∈ s.completed, c.Ok policy s.clock
  since : ∀ w, ∀ call ∈ (s.phase w).call, s.overtaken w = false →
    ∀ c ∈ s.completed, c.committedAt ≤ call.begunAt

omit [DecidableEq W] in
theorem PhaseOk.owner (h : PhaseOk policy s w p) (hlocks : p.locks) : s.owner = some w := by
  cases p with
  | idle => cases hlocks
  | begun call => cases hlocks
  | locked call => exact h.1
  | timed call now => exact h.1
  | deleting work deleted todo => exact h.1
  | recorded work record => exact h.1

theorem CleanupPhase.locks_of_work (h : p.work.isSome) : p.locks := by
  cases p with
  | deleting work deleted todo => rfl
  | recorded work record => rfl
  | idle => cases h
  | begun call => cases h
  | locked call => cases h
  | timed call now => cases h

/-- A call that does not wait for the lock is behind it. -/
theorem CleanupPhase.locks_of_call (h : p.call.isSome) (hwaits : p.waits = false) : p.locks := by
  cases p with
  | locked call => rfl
  | timed call now => rfl
  | deleting work deleted todo => rfl
  | recorded work record => rfl
  | idle => cases h
  | begun call => cases hwaits

omit [DecidableEq W] in
/-- A call that comes further is the same call. -/
theorem Cleanups.Moves.call {a : CleanupAction W} (h : s.Moves policy w a p) :
    ∀ call ∈ p.call, call ∈ (s.phase w).call := by
  intro call hcall
  cases h with
  | busy hphase => cases hcall
  | readNow hphase | look hphase | delete hphase | record hphase =>
    rw [hphase]
    exact hcall

/-- Whose call does not change has the call it had; and so have the others. -/
theorem Cleanups.call_of_setPhase {w v : W} (hp : ∀ call ∈ p.call, call ∈ (s.phase w).call)
    {call : CleanupCall} (h : call ∈ ((s.setPhase w p).phase v).call) : call ∈ (s.phase v).call := by
  by_cases hv : v = w
  · subst hv
    rw [Cleanups.setPhase_phase] at h
    exact hp call h
  · rwa [Cleanups.setPhase_phase_of_ne hv] at h

theorem Cleanups.call_of_release {w v : W} {call : CleanupCall}
    (h : call ∈ ((s.release w).phase v).call) : call ∈ (s.phase v).call :=
  Cleanups.call_of_setPhase (p := .idle) (fun _ hcall => by cases hcall) h

omit [DecidableEq W] in
/-- What others do to the lock and the rows does not concern a call that has not come so far. -/
theorem PhaseOk.frame (h : PhaseOk policy s w p) (hclock : s.clock ≤ s'.clock)
    (howner : p.locks → s'.owner = s.owner) (hrows : p.work.isSome → s'.rows = s.rows) :
    PhaseOk policy s' w p := by
  cases p with
  | idle => trivial
  | begun call => exact le_trans h hclock
  | locked call => exact ⟨(howner rfl).trans h.1, le_trans h.2 hclock⟩
  | timed call now => exact ⟨(howner rfl).trans h.1, h.2.1, le_trans h.2.2 hclock⟩
  | deleting work deleted todo =>
    obtain ⟨hown, hbegun, hnow, hbefore, hdone⟩ := h
    exact ⟨(howner rfl).trans hown, hbegun, le_trans hnow hclock, hbefore.trans (hrows rfl).symm, hdone⟩
  | recorded work record =>
    obtain ⟨hown, hbegun, hnow, hfinished, hbefore, hrest⟩ := h
    exact ⟨(howner rfl).trans hown, hbegun, hnow, le_trans hfinished hclock,
      hbefore.trans (hrows rfl).symm, hrest⟩

omit [DecidableEq W] in
/-- **A call comes further as it should.** -/
theorem CleanupsInv.moves (hinv : CleanupsInv policy s) {a : CleanupAction W}
    (h : s.Moves policy w a p) : PhaseOk policy s w p := by
  have hw := hinv.phases w
  cases h with
  | busy hphase => trivial
  | readNow hphase =>
    rw [hphase] at hw
    exact ⟨hw.1, hw.2, le_refl s.clock⟩
  | look hphase hlatest hrecent hstatements =>
    rw [hphase] at hw
    exact ⟨hw.1, hw.2.1, hw.2.2, rfl, [], hstatements, rfl⟩
  | @delete work deleted statement todo view hphase hrun =>
    rw [hphase] at hw
    obtain ⟨howner, hbegun, hnow, hbefore, done, hstatements, hdone⟩ := hw
    refine ⟨howner, hbegun, hnow, hbefore, done ++ [statement], ?_, ?_⟩
    · rw [List.append_assoc]
      exact hstatements
    · rw [runStatements, List.foldlM_append]
      exact Option.bind_eq_some_iff.mpr ⟨work.view, hdone, by simpa using hrun⟩
  | @record work deleted hphase =>
    rw [hphase] at hw
    obtain ⟨howner, hbegun, hnow, hbefore, done, hstatements, hdone⟩ := hw
    rw [List.append_nil] at hstatements
    exact ⟨howner, hbegun, hnow, le_refl s.clock, hbefore,
      cleaned_of_runStatements hstatements hdone, rfl, rfl⟩

omit [DecidableEq W] in
/-- Two workers are not both behind the lock. -/
theorem CleanupsInv.alone (hinv : CleanupsInv policy s) (hw : (s.phase w).locks)
    (hv : (s.phase v).locks) : v = w :=
  Option.some.inj (((hinv.phases v).owner hv).symm.trans ((hinv.phases w).owner hw))

theorem release_owner (h : s.owner ≠ some w) : (s.release w).owner = s.owner := if_neg h

/-- A call that ends does not concern the others. -/
theorem CleanupsInv.release (hinv : CleanupsInv policy s) (hv : v ≠ w) :
    PhaseOk policy (s.release w) v (s.phase v) := by
  refine (hinv.phases v).frame (le_refl s.clock) (fun hlocks => ?_) fun _ => rfl
  refine release_owner fun hw => hv ?_
  exact Option.some.inj (((hinv.phases v).owner hlocks).symm.trans hw)

theorem CompletedCleanup.Ok.later {c : CompletedCleanup} {clock clock' : DateTime}
    (h : c.Ok policy clock) (hle : clock ≤ clock') : c.Ok policy clock' :=
  ⟨h.begun, h.finished, h.committed, le_trans h.past hle, h.cleaned, h.rows⟩

/-- **A call that nobody overtakes stays behind every commit**: who commits holds the lock, so the
others have not asked for it. -/
theorem CleanupsInv.since_step (hinv : CleanupsInv policy s) {a : CleanupAction W}
    (h : s.step policy a = some s') : ∀ v, ∀ call ∈ (s'.phase v).call, s'.overtaken v = false →
      ∀ c ∈ s'.completed, c.committedAt ≤ call.begunAt := by
  cases Cleanups.effect_of_step h with
  | tick hle => exact hinv.since
  | portal hquiet hrows => exact hinv.since
  | history hrun => exact hinv.since
  | @begins w workerId startedAt hphase =>
    intro v call hcall hfree c hc
    by_cases hv : v = w
    · subst hv
      change call ∈ ((s.setPhase v _).phase v).call at hcall
      rw [Cleanups.setPhase_phase] at hcall
      obtain rfl := Option.some.inj hcall
      exact (hinv.completed c hc).past
    · change call ∈ ((s.setPhase w _).phase v).call at hcall
      rw [Cleanups.setPhase_phase_of_ne hv] at hcall
      change Function.update s.overtaken w false v = false at hfree
      rw [Function.update_of_ne hv] at hfree
      exact hinv.since v call hcall hfree c hc
  | moves hmoves =>
    exact fun v call hcall => hinv.since v call (Cleanups.call_of_setPhase hmoves.call hcall)
  | @locks w call hphase howner =>
    have hsame : ∀ call' ∈ (CleanupPhase.locked call).call, call' ∈ (s.phase w).call :=
      fun _ hcall => hphase ▸ hcall
    exact fun v call' hcall => hinv.since v call' (Cleanups.call_of_setPhase hsame hcall)
  | releases ha => exact fun v call hcall => hinv.since v call (Cleanups.call_of_release hcall)
  | @commits w work record hphase =>
    intro v call hcall hfree c hc
    by_cases hv : v = w
    · subst hv
      change call ∈ ((s.release v).phase v).call at hcall
      rw [Cleanups.release_phase] at hcall
      cases hcall
    · change call ∈ ((s.release w).phase v).call at hcall
      rw [Cleanups.release_phase_of_ne hv] at hcall
      have hwaits : (s.phase v).waits = false := (Bool.or_eq_false_iff.mp hfree).2
      have hlocks : (s.phase w).locks := by rw [hphase]; rfl
      exact absurd (hinv.alone hlocks
        (CleanupPhase.locks_of_call (Option.isSome_of_mem hcall) hwaits)) hv

/-- **Every step keeps the invariant.** -/
theorem CleanupsInv.step (hinv : CleanupsInv policy s) {a : CleanupAction W}
    (h : s.step policy a = some s') : CleanupsInv policy s' := by
  have hothers : ∀ {s' : Cleanups W} {w : W}, (∀ v, v ≠ w → s'.phase v = s.phase v) →
      PhaseOk policy s' w (s'.phase w) → (∀ v, v ≠ w → PhaseOk policy s' v (s.phase v)) →
      ∀ v, PhaseOk policy s' v (s'.phase v) := by
    intro s' w hphase hw hothers v
    by_cases hv : v = w
    · exact hv ▸ hw
    · rw [hphase v hv]
      exact hothers v hv
  have hsince := hinv.since_step h
  cases Cleanups.effect_of_step h with
  | tick hle =>
    exact ⟨hinv.rows, fun v => (hinv.phases v).frame hle (fun _ => rfl) fun _ => rfl,
      fun c hc => (hinv.completed c hc).later hle, hsince⟩
  | @begins w workerId startedAt hphase =>
    refine ⟨hinv.rows, hothers (fun v => Cleanups.setPhase_phase_of_ne) ?_ fun v _ => ?_,
      hinv.completed, hsince⟩
    · change PhaseOk policy _ w ((s.setPhase w _).phase w)
      rw [Cleanups.setPhase_phase]
      exact le_refl s.clock
    · exact (hinv.phases v).frame (le_refl s.clock) (fun _ => rfl) fun _ => rfl
  | @moves _ w p hmoves =>
    refine ⟨hinv.rows, hothers (fun v => Cleanups.setPhase_phase_of_ne) ?_ fun v _ => ?_,
      hinv.completed, hsince⟩
    · rw [Cleanups.setPhase_phase]
      exact (hinv.moves hmoves).frame (le_refl s.clock) (fun _ => rfl) fun _ => rfl
    · exact (hinv.phases v).frame (le_refl s.clock) (fun _ => rfl) fun _ => rfl
  | @locks w call hphase howner =>
    refine ⟨hinv.rows, hothers (fun v => Cleanups.setPhase_phase_of_ne) ?_ fun v _ => ?_,
      hinv.completed, hsince⟩
    · have hw := hinv.phases w
      rw [hphase] at hw
      change PhaseOk policy _ w ((s.setPhase w (.locked call)).phase w)
      rw [Cleanups.setPhase_phase]
      exact ⟨rfl, hw⟩
    · refine (hinv.phases v).frame (le_refl s.clock) (fun hlocks => ?_) fun _ => rfl
      rw [(hinv.phases v).owner hlocks] at howner
      cases howner
  | @releases _ w ha =>
    refine ⟨hinv.rows, hothers (fun v => Cleanups.release_phase_of_ne) ?_ fun v hv => hinv.release hv,
      hinv.completed, hsince⟩
    rw [Cleanups.release_phase]
    trivial
  | @commits w work record hphase =>
    have hw := hinv.phases w
    rw [hphase] at hw
    obtain ⟨howner, hbegun, hnow, hfinished, hbefore, hcleaned, -, -⟩ := hw
    have hrows : ∀ r ∈ work.before, r.runOk := hbefore ▸ hinv.rows
    refine ⟨hcleaned.runOk hrows, hothers (fun v => Cleanups.release_phase_of_ne) ?_ fun v hv => ?_,
      ?_, hsince⟩
    · change PhaseOk policy _ w ((s.release w).phase w)
      rw [Cleanups.release_phase]
      trivial
    · have hfree : (s.phase v).locks = false := by
        refine Bool.eq_false_iff.mpr fun hlocks => hv ?_
        exact Option.some.inj (((hinv.phases v).owner hlocks).symm.trans howner)
      refine (hinv.phases v).frame (le_refl s.clock) (fun hlocks => ?_) fun hwork => ?_
      · rw [hfree] at hlocks
        cases hlocks
      · rw [CleanupPhase.locks_of_work hwork] at hfree
        cases hfree
    · intro c hc
      rcases List.mem_append.mp hc with hc | hc
      · exact hinv.completed c hc
      · obtain rfl := List.mem_singleton.mp hc
        exact ⟨hbegun, hnow, hfinished, le_refl s.clock, hcleaned, hrows⟩
  | portal hquiet hrows =>
    refine ⟨hrows, fun v => (hinv.phases v).frame (le_refl s.clock) (fun _ => rfl) fun hwork => ?_,
      hinv.completed, hsince⟩
    have howner := (hinv.phases v).owner (CleanupPhase.locks_of_work hwork)
    rw [Cleanups.quiet, howner, Option.all_some, Option.isNone_iff_eq_none] at hquiet
    rw [hquiet] at hwork
    cases hwork
  | history hrun =>
    exact ⟨hinv.rows, fun v => (hinv.phases v).frame (le_refl s.clock) (fun _ => rfl) fun _ => rfl,
      hinv.completed, hsince⟩

omit [DecidableEq W] in
theorem Cleanups.Initial.inv (h : s.Initial) : CleanupsInv policy s where
  rows := h.rows
  phases := fun w => by
    rw [h.idle w]
    trivial
  completed := fun c hc => by
    rw [h.completed] at hc
    cases hc
  since := fun w call hcall => by
    rw [h.idle w] at hcall
    cases hcall

/-- **…and so does every run.** -/
theorem CleanupsReachable.inv {allowed : Cleanups W → CleanupAction W → Prop} (hs : s.Initial)
    (h : CleanupsReachable policy allowed s s') : CleanupsInv policy s' := by
  induction h with
  | refl => exact hs.inv
  | step _ a _ hstep ih => exact ih.step hstep

/-- A commit is all of its call, and nothing else is anything of one. -/
theorem CleanupsInv.allOrNothing (hinv : CleanupsInv policy s) {a : CleanupAction W}
    (h : s.step policy a = some s') : s.AllOrNothing a s' := by
  cases Cleanups.effect_of_step h with
  | tick hle => exact ⟨rfl, rfl, rfl⟩
  | begins hphase => exact ⟨rfl, rfl, rfl⟩
  | moves hmoves => cases hmoves <;> exact ⟨rfl, rfl, rfl⟩
  | locks hphase howner => exact ⟨rfl, rfl, rfl⟩
  | releases ha => rcases ha with rfl | rfl | ⟨_, rfl⟩ <;> exact ⟨rfl, rfl, rfl⟩
  | @commits w work record hphase =>
    have hw := hinv.phases w
    rw [hphase] at hw
    exact ⟨⟨work, record, s.clock⟩, rfl, hw.2.2.2.2.1, rfl, rfl⟩
  | portal hquiet hrows => exact ⟨rfl, rfl, rfl⟩
  | history hrun => exact ⟨rfl, rfl, rfl⟩

omit [DecidableEq W] in
/-- **No statement of a cleanup is refused.** -/
theorem CleanupsInv.accepted (hinv : CleanupsInv policy s) {work : CleanupWork} {deleted : List Nat}
    {statement : Option (StampedRow → Bool)} {todo : List (Option (StampedRow → Bool))}
    (hphase : s.phase w = .deleting work deleted (statement :: todo)) :
    (runStatement work.view statement).isSome := by
  have hw := hinv.phases w
  rw [hphase] at hw
  obtain ⟨-, -, -, -, done, hstatements, -⟩ := hw
  exact runStatement_isSome hstatements work.view
    (List.mem_append_right done List.mem_cons_self)

/-! ## Cleanups in order -/

/-- A call that writes is behind every success, and far enough. -/
def BehindSuccesses (policy : ConnectorRetentionPolicy) (runs : List MaintenanceRun)
    (completed : List CompletedCleanup) (work : CleanupWork) : Prop :=
  (∀ run ∈ runs, run.isSuccess → run.createdAt < work.begunAt) ∧
    ∀ c ∈ completed, c.committedAt ≤ work.begunAt ∧
      policy.cleanupIntervalSeconds ≤ numSeconds (work.now - c.record.finishedAt)

/-- The last of the cleanups has the latest success, and the latest `finished_at`. -/
structure IsNewest (runs : List MaintenanceRun) (completed : List CompletedCleanup)
    (last : CompletedCleanup) : Prop where
  mem : last.record ∈ runs
  success : last.record.isSuccess
  latest : ∀ run ∈ runs, run.isSuccess → run = last.record ∨ run.createdAt < last.record.createdAt
  finished : ∀ c ∈ completed, c.record.finishedAt ≤ last.record.finishedAt

/-- **The invariant of a run in order.** -/
structure Distant (policy : ConnectorRetentionPolicy) (s : Cleanups W) : Prop where
  apart : s.completed.Pairwise fun earlier later => earlier.committedAt ≤ later.begunAt
  distant : s.completed.Pairwise fun earlier later =>
    policy.cleanupIntervalSeconds ≤ numSeconds (later.now - earlier.record.finishedAt)
  newest : ∀ last ∈ s.completed.getLast?, IsNewest s.maintenanceRuns s.completed last
  behind : ∀ w, ∀ work ∈ (s.phase w).work,
    BehindSuccesses policy s.maintenanceRuns s.completed work

section Records

variable {runs : List MaintenanceRun} {completed : List CompletedCleanup} {last : CompletedCleanup}

/-- **What is found is the last of the cleanups.** -/
theorem IsNewest.found (h : IsNewest runs completed last) {latestSuccess : Option MaintenanceRun}
    (hfound : FindsLatestSuccess runs latestSuccess) : latestSuccess = some last.record := by
  cases latestSuccess with
  | none => exact absurd h.success (hfound _ h.mem)
  | some latest =>
    obtain ⟨hmem, hsuccess, hlatest⟩ := hfound
    rcases h.latest latest hmem hsuccess with rfl | hlt
    · rfl
    · exact absurd (hlatest _ h.mem h.success) (not_le.mpr hlt)

/-- A record that is no success is not found. -/
theorem IsNewest.append (h : IsNewest runs completed last) {run : MaintenanceRun}
    (hrun : run.isSuccess = false) : IsNewest (runs ++ [run]) completed last := by
  refine ⟨List.mem_append_left _ h.mem, h.success, fun run' hmem hsuccess => ?_, h.finished⟩
  rcases List.mem_append.mp hmem with hmem | hmem
  · exact h.latest run' hmem hsuccess
  · obtain rfl := List.mem_singleton.mp hmem
    rw [hrun] at hsuccess
    cases hsuccess

theorem BehindSuccesses.append {work : CleanupWork} (h : BehindSuccesses policy runs completed work)
    {run : MaintenanceRun} (hrun : run.isSuccess = false) :
    BehindSuccesses policy (runs ++ [run]) completed work := by
  refine ⟨fun run' hmem hsuccess => ?_, h.2⟩
  rcases List.mem_append.mp hmem with hmem | hmem
  · exact h.1 run' hmem hsuccess
  · obtain rfl := List.mem_singleton.mp hmem
    rw [hrun] at hsuccess
    cases hsuccess

theorem numSeconds_le {d d' : Int} (h : d ≤ d') : numSeconds d ≤ numSeconds d' :=
  Int.tdiv_le_tdiv (by decide) h

/-- **What goes on is far behind every cleanup**, for it is far behind the last. -/
theorem distant_of_found {now : DateTime} {latestSuccess : Option MaintenanceRun}
    (hnewest : ∀ last ∈ completed.getLast?, IsNewest runs completed last)
    (hfound : FindsLatestSuccess runs latestSuccess)
    (hrecent : recentlyCompleted policy now latestSuccess = false) :
    ∀ c ∈ completed, policy.cleanupIntervalSeconds ≤ numSeconds (now - c.record.finishedAt) := by
  intro c hc
  obtain ⟨last, hlast⟩ : ∃ last, completed.getLast? = some last :=
    ⟨_, List.getLast?_eq_some_getLast (List.ne_nil_of_mem hc)⟩
  have hnew := hnewest last hlast
  rw [hnew.found hfound, recentlyCompleted, Option.any_some, decide_eq_false_iff_not, not_lt] at hrecent
  refine le_trans hrecent (numSeconds_le ?_)
  exact Int.sub_le_sub_left (hnew.finished c hc) now

end Records

/-- **A step in order keeps the distance.** -/
theorem Distant.step (hd : Distant policy s) (hinv : CleanupsInv policy s) {a : CleanupAction W}
    (hallowed : s.InOrder policy a) (h : s.step policy a = some s') : Distant policy s' := by
  have hothers : ∀ {s' : Cleanups W} {w : W}, (∀ v, v ≠ w → s'.phase v = s.phase v) →
      (∀ work ∈ (s'.phase w).work, BehindSuccesses policy s.maintenanceRuns s.completed work) →
      ∀ v, ∀ work ∈ (s'.phase v).work, BehindSuccesses policy s.maintenanceRuns s.completed work := by
    intro s' w hphase hw v
    by_cases hv : v = w
    · exact hv ▸ hw
    · rw [hphase v hv]
      exact hd.behind v
  cases Cleanups.effect_of_step h with
  | tick hle => exact ⟨hd.apart, hd.distant, hd.newest, hd.behind⟩
  | @begins w workerId startedAt hphase =>
    refine ⟨hd.apart, hd.distant, hd.newest, hothers (fun v => Cleanups.setPhase_phase_of_ne) ?_⟩
    change ∀ work ∈ ((s.setPhase w _).phase w).work, _
    rw [Cleanups.setPhase_phase]
    exact fun work hwork => nomatch hwork
  | @moves _ w p hmoves =>
    refine ⟨hd.apart, hd.distant, hd.newest, hothers (fun v => Cleanups.setPhase_phase_of_ne) ?_⟩
    rw [Cleanups.setPhase_phase]
    intro work hwork
    cases hmoves with
    | busy hphase => cases hwork
    | readNow hphase => cases hwork
    | @look call now latestSuccess statements hphase hlatest hrecent hstatements =>
      obtain rfl := Option.some.inj hwork
      simp only [Cleanups.InOrder, CleanupPhase.InOrder, hphase, hrecent, Bool.false_eq_true,
        false_or] at hallowed
      have hdistant := distant_of_found hd.newest hlatest hrecent
      have hsince := hinv.since w call (by rw [hphase]; rfl) hallowed.1
      exact ⟨hallowed.2, fun c hc => ⟨hsince c hc, hdistant c hc⟩⟩
    | @delete work deleted statement todo view hphase hrun =>
      obtain rfl := Option.some.inj hwork
      have hw := hd.behind w
      rw [hphase] at hw
      exact hw work rfl
    | record hphase =>
      obtain rfl := Option.some.inj hwork
      have hw := hd.behind w
      rw [hphase] at hw
      exact hw _ rfl
  | @locks w call hphase howner =>
    refine ⟨hd.apart, hd.distant, hd.newest, hothers (fun v => Cleanups.setPhase_phase_of_ne) ?_⟩
    change ∀ work ∈ ((s.setPhase w (.locked call)).phase w).work, _
    rw [Cleanups.setPhase_phase]
    exact fun work hwork => nomatch hwork
  | @releases _ w ha =>
    refine ⟨hd.apart, hd.distant, hd.newest, hothers (fun v => Cleanups.release_phase_of_ne) ?_⟩
    rw [Cleanups.release_phase]
    exact fun work hwork => nomatch hwork
  | @commits w work record hphase =>
    have hw := hinv.phases w
    rw [hphase] at hw
    obtain ⟨-, hbegun, hnow, -, -, -, hsuccess, hcreated⟩ := hw
    have hbehind := hd.behind w
    rw [hphase] at hbehind
    obtain ⟨hruns, hcompleted⟩ := hbehind work rfl
    have hpairwise : ∀ {r : CompletedCleanup → CompletedCleanup → Prop}
        {last : CompletedCleanup}, s.completed.Pairwise r → (∀ c ∈ s.completed, r c last) →
        (s.completed ++ [last]).Pairwise r := by
      intro r last hr hlast
      refine List.pairwise_append.mpr ⟨hr, List.pairwise_singleton r _, fun c hc c' hc' => ?_⟩
      obtain rfl := List.mem_singleton.mp hc'
      exact hlast c hc
    refine ⟨hpairwise hd.apart fun c hc => (hcompleted c hc).1,
      hpairwise hd.distant fun c hc => (hcompleted c hc).2, fun last hlast => ?_, fun v => ?_⟩
    · change (s.completed ++ [_]).getLast? = some last at hlast
      rw [List.getLast?_concat] at hlast
      obtain rfl := Option.some.inj hlast
      refine ⟨List.mem_append_right _ List.mem_cons_self, hsuccess, fun run hrun hsucc => ?_,
        fun c hc => ?_⟩
      · rcases List.mem_append.mp hrun with hrun | hrun
        · right
          change run.createdAt < record.createdAt
          rw [hcreated]
          exact hruns run hrun hsucc
        · exact .inl (List.mem_singleton.mp hrun)
      · rcases List.mem_append.mp hc with hc | hc
        · calc c.record.finishedAt ≤ c.committedAt := (hinv.completed c hc).committed
            _ ≤ work.begunAt := (hcompleted c hc).1
            _ ≤ work.now := hbegun
            _ ≤ record.finishedAt := hnow
        · obtain rfl := List.mem_singleton.mp hc
          exact le_refl _
    · -- nobody else is behind the lock
      intro work' hwork'
      by_cases hv : v = w
      · subst hv
        change work' ∈ ((s.release v).phase v).work at hwork'
        rw [Cleanups.release_phase] at hwork'
        cases hwork'
      · change work' ∈ ((s.release w).phase v).work at hwork'
        rw [Cleanups.release_phase_of_ne hv] at hwork'
        have hlocks : (s.phase v).locks := CleanupPhase.locks_of_work (Option.isSome_of_mem hwork')
        have hlocks' : (s.phase w).locks := by rw [hphase]; rfl
        exact absurd (hinv.alone hlocks' hlocks) hv
  | portal hquiet hrows => exact ⟨hd.apart, hd.distant, hd.newest, hd.behind⟩
  | history hrun =>
    exact ⟨hd.apart, hd.distant, fun last hlast => (hd.newest last hlast).append hrun,
      fun v work hwork => (hd.behind v work hwork).append hrun⟩

omit [DecidableEq W] in
theorem Cleanups.Initial.distant (h : s.Initial) : Distant policy s where
  apart := h.completed ▸ List.Pairwise.nil
  distant := h.completed ▸ List.Pairwise.nil
  newest := fun last hlast => by
    rw [h.completed] at hlast
    cases hlast
  behind := fun w work hwork => by
    rw [h.idle w] at hwork
    cases hwork

/-- **Cleanups in order keep their distance.** -/
theorem CleanupsReachable.distant (hs : s.Initial)
    (h : CleanupsReachable policy (Cleanups.InOrder policy) s s') : Distant policy s' := by
  induction h with
  | refl => exact hs.distant
  | step hreach a hallowed hstep ih => exact ih.step (hreach.inv hs) hallowed hstep

/-- **Where nobody commits between the `BEGIN` and the lock of a call that goes on**, and every success
was begun before it, **the cleanups are coordinated.** -/
theorem cleanups_coordinated {start : Cleanups W} (hstart : start.Initial)
    (h : CleanupsReachable policy (Cleanups.InOrder policy) start s) : s.Coordinated policy := by
  have hinv := h.inv hstart
  have hd := h.distant hstart
  exact ⟨hd.apart, hd.distant, fun a s' hstep => hinv.allOrNothing hstep,
    fun c hc => (hinv.completed c hc).cleaned,
    fun c hc r hr hpending =>
      (hinv.completed c hc).cleaned.pendingRun (hinv.completed c hc).rows hr hpending,
    fun w work deleted statement todo hphase => hinv.accepted hphase⟩

end Steps

/-! ## Three workers -/

namespace ThreeWorkers

theorem positive_hour : 0 < 3600 ∧ 3600 ≤ u64Max := by decide

/-- A cleanup an hour; nothing goes by age. -/
def hourly : ConnectorRetentionPolicy := ⟨none, none, none, ⟨3600, positive_hour⟩⟩

/-- Three workers, before their first cleanup. -/
def start : Cleanups (Fin 3) := ⟨0, none, [], [], fun _ => .idle, fun _ => false, []⟩

theorem initial_start : start.Initial := ⟨rfl, fun _ => rfl, rfl, by decide⟩

/-- Some steps, one after the other, each of which is allowed. -/
def run (allowed : Cleanups (Fin 3) → CleanupAction (Fin 3) → Bool) (s : Cleanups (Fin 3))
    (actions : List (CleanupAction (Fin 3))) : Option (Cleanups (Fin 3)) :=
  actions.foldlM (fun s a => if allowed s a then s.step hourly a else none) s

theorem reachable_of_run {allowed : Cleanups (Fin 3) → CleanupAction (Fin 3) → Bool}
    {s₀ s s' : Cleanups (Fin 3)}
    (hs : CleanupsReachable hourly (fun s a => allowed s a) s₀ s)
    (actions : List (CleanupAction (Fin 3))) (hrun : run allowed s actions = some s') :
    CleanupsReachable hourly (fun s a => allowed s a) s₀ s' := by
  induction actions generalizing s with
  | nil =>
    obtain rfl := Option.some.inj hrun
    exact hs
  | cons a actions ih =>
    obtain ⟨s₁, hstep, hrest⟩ := Option.bind_eq_some_iff.mp hrun
    obtain ⟨hallowed, hstep⟩ := Option.ite_none_right_eq_some.mp hstep
    exact ih (hs.step a hallowed hstep) hrest

/-- A call from its lock to its commit. -/
def cleansUp (w : Fin 3) (latestSuccess : Option MaintenanceRun) (finishedAt : DateTime) :
    List (CleanupAction (Fin 3)) :=
  [.tryLock w, .readNow w, .look w latestSuccess, .delete w, .delete w, .delete w, .delete w,
    .delete w, .delete w, .tick finishedAt, .record w, .commit w]

/-- The record of a call that found nothing to delete. -/
def recordOf (workerId : String) (startedAt finishedAt : DateTime) : MaintenanceRun :=
  CleanupWork.record ⟨⟨workerId, startedAt, startedAt⟩, startedAt, [], []⟩ finishedAt []

/-- Two cleanups, the second an hour after the first. -/
def twoHours : List (CleanupAction (Fin 3)) :=
  [.begin 0 "a" 0] ++ cleansUp 0 none (seconds 1) ++
    [.tick (seconds 3601), .begin 1 "b" (seconds 3601)] ++
      cleansUp 1 (some (recordOf "a" 0 (seconds 1))) (seconds 3602)

/-- The first one stalls between its `BEGIN` and its lock for more than an hour, in which the second
one cleans up.  The third one finds the second one's record, for it was begun later. -/
def stalled : List (CleanupAction (Fin 3)) :=
  [.begin 0 "a" 0, .tick (seconds 1), .begin 1 "b" (seconds 1)] ++ cleansUp 1 none (seconds 2) ++
    [.tick (seconds 3700)] ++
      cleansUp 0 (some (recordOf "b" (seconds 1) (seconds 2))) (seconds 3701) ++
        [.tick (seconds 3702), .begin 2 "c" (seconds 3702)] ++
          cleansUp 2 (some (recordOf "b" (seconds 1) (seconds 2))) (seconds 3703)

/-- Where the second cleanup is begun an hour after the first, both are made, and they are
coordinated. -/
theorem coordinated_twoHours :
    ∃ s, run (fun s a => decide (s.InOrder hourly a)) start twoHours = some s ∧
      s.completed.length = 2 ∧ s.Coordinated hourly := by
  have hlength : ((run (fun s a => decide (s.InOrder hourly a)) start twoHours).map
      fun s => s.completed.length) = some 2 := by decide +kernel
  obtain ⟨s, hrun, hlength⟩ := Option.map_eq_some_iff.mp hlength
  have hreach := reachable_of_run .refl twoHours hrun
  simp only [decide_eq_true_eq] at hreach
  exact ⟨s, hrun, hlength, cleanups_coordinated initial_start hreach⟩

/-- **The third worker cleans up a second after the first.** -/
theorem not_coordinated_stalled :
    ¬ ∀ (policy : ConnectorRetentionPolicy) (start s : Cleanups (Fin 3)), start.Initial →
      CleanupsReachable policy (fun _ _ => True) start s → s.Coordinated policy := by
  intro h
  have hmoments : ((run (fun _ _ => true) start stalled).map fun s =>
      s.completed.map fun c => (c.now, c.record.finishedAt)) =
      some [(seconds 1, seconds 2), (seconds 3700, seconds 3701), (seconds 3702, seconds 3703)] := by
    decide +kernel
  obtain ⟨s, hrun, hmoments⟩ := Option.map_eq_some_iff.mp hmoments
  have hreach := reachable_of_run .refl stalled hrun
  simp only at hreach
  have hdistant := (h hourly start s initial_start hreach).distant
  have hpairs : (s.completed.map fun c => (c.now, c.record.finishedAt)).Pairwise fun earlier later =>
      hourly.cleanupIntervalSeconds ≤ numSeconds (later.1 - earlier.2) :=
    List.pairwise_map.mpr hdistant
  rw [hmoments] at hpairs
  exact absurd hpairs (by decide)

end ThreeWorkers

end DevPortal
