import DevPortal.Runs.Lifecycle
import Mathlib.Data.Finset.Card

/-!
# Runs/Recovery — which running runs can still be brought to an end

    create_running_run ──▸ running, unleased ──its own request──▸ finished
                                │ the request errs or dies
                                ▾
                           running, unleased, for ever

A leased run is reclaimed by `recover_expired_leases` once its lease is over.  An unleased one
belongs to the request that created it: recovery passes over its `NULL` lease, and
`request_cancel` only sets a flag that the owner would have to act on.  The system below is the
tables together with the requests that are still at work (`SystemState`).
-/

namespace DevPortal

variable {α : Type}

/-! ## The system -/

/-- The tables, and the runs whose creating request is still at work. -/
structure SystemState where
  db : RunDb
  requests : List Nat

/-- The limit every worker passes to `recover_expired_leases`. -/
def recoveryLimit : Nat := 100

/-- The calls that routes and workers make on runs they did not create themselves: they act for a
worker, never for the owner of an unleased run. -/
def RunOp.shared : RunOp α → Bool
  | createRunningRun .. => false
  | finalizeIfActive _ _ w _ _ => w.isSome
  | markCancelledIfRequested _ _ w => w.isSome
  | recoverExpiredLeases _ _ _ _ limit => limit = recoveryLimit
  | _ => true

/-- One step of the system.  `answered` says whether the database answers the statements of the
request's error path: each of them ends in `?`, so a request whose connection fails there returns
its error with the run as it was. -/
inductive SystemOp (α : Type)
  | call (op : RunOp α)
  | request (now : DateTime) (source target : String) (trigger : RunTrigger)
      (payload : Option String)
  | requestFinishes (now : DateTime) (answered : Bool) (run : ConnectorRun)
      (finishedAt : DateTime) (execution : ConnectorExecution α)
  | requestFails (now : DateTime) (answered : Bool) (id : Nat)
  | requestDies (id : Nat)

open ConnectorRunRepository in
/-- The error path of an import: the transaction is rolled back, and the run is settled only if
`cancellation_requested` says so and both statements are answered. -/
def failRequest (now : DateTime) (answered : Bool) (id : Nat) (db : RunDb) : RunDb :=
  if answered && cancellationRequested id db then (updateIf id (.markCancelled now none) db).2
  else db

/-- The system after a step. -/
def SystemOp.exec : SystemOp α → SystemState → SystemState
  | call op, s => if op.shared then { s with db := op.exec s.db } else s
  | request now source target trigger payload, s =>
    match Runtime.createRunningRun now source target trigger payload s.db with
    | .ok (some run, db) => ⟨db, run.id :: s.requests⟩
    | .ok (none, db) => { s with db := db }
    | .error _ => s
  | requestFinishes now answered run finishedAt execution, s =>
    if run.id ∈ s.requests then
      let state := finishState run execution finishedAt
      let requests := s.requests.filter (· ≠ run.id)
      match ConnectorRunRepository.updateIf run.id (.finalize now none state) s.db with
      | (some row, db) =>
        ⟨db.touchRunState now row.source (defaultConnectorKind row.source row.target) row.status
          finishedAt, requests⟩
      | (none, _) => ⟨failRequest now answered run.id s.db, requests⟩
    else s
  | requestFails now answered id, s =>
    if id ∈ s.requests then ⟨failRequest now answered id s.db, s.requests.filter (· ≠ id)⟩ else s
  | requestDies id, s => { s with requests := s.requests.filter (· ≠ id) }

/-- The system after a sequence of steps. -/
def runSystem (ops : List (SystemOp α)) (s : SystemState) : SystemState :=
  ops.foldl (fun s op => op.exec s) s

/-- The system before the first run. -/
def SystemState.fresh (connectors : List Connector) (connectorSeq runSeq : Nat) : SystemState :=
  ⟨RunDb.fresh connectors connectorSeq runSeq, []⟩

/-- **Some sequence of the system's own steps takes the run out of `running`.** -/
def Escapes (α : Type) (s : SystemState) (id : Nat) : Prop :=
  ∃ (ops : List (SystemOp α)) (r : ConnectorRun),
    (runSystem ops s).db.run id = some r ∧ r.status ≠ .running

/-- The step does not lose the owner of an unleased run: no request dies, a request that errs does
so with a cancellation requested, and the statements of an error path are answered. -/
def SystemOp.KeepsOwner (s : SystemState) : SystemOp α → Prop
  | requestFinishes now answered run finishedAt execution =>
    run.id ∈ s.requests →
      (ConnectorRunRepository.updateIf run.id
        (.finalize now none (finishState run execution finishedAt)) s.db).1 = none → answered
  | requestFails _ answered id =>
    id ∈ s.requests → answered ∧ ConnectorRunRepository.cancellationRequested id s.db
  | requestDies id => id ∉ s.requests
  | _ => True

/-- Every step of the sequence keeps the owners. -/
def KeepsOwners : List (SystemOp α) → SystemState → Prop
  | [], _ => True
  | op :: ops, s => op.KeepsOwner s ∧ KeepsOwners ops (op.exec s)

/-! ## What a step does to the rows -/

/-- An update that acts for a worker, or for nobody in particular. -/
def RunUpdate.Shared : RunUpdate → Prop
  | .finalize _ w _ => w.isSome
  | .markCancelled _ w => w.isSome
  | _ => True

/-- What is issued by others than the owner of an unleased run. -/
def sharedIssued : Issued := ⟨fun u => u.Shared ∧ u.Finishes, fun r => r.status = .queued⟩

theorem RunOp.shared_updates {op : RunOp α} (h : op.shared) {u : RunUpdate} (hu : op.Updates u) :
    u.Shared ∧ u.Finishes := by
  refine ⟨?_, finishes_of_updates hu⟩
  cases op with
  | finalizeIfActive | markCancelledIfRequested =>
    cases hu
    exact h
  | claimNextQueued | renewLease =>
    cases hu
    exact trivial
  | requestCancel => rcases hu with rfl | rfl <;> exact trivial
  | recoverExpiredLeases locked now base cap limit =>
    obtain ⟨r, rfl⟩ := hu
    unfold ConnectorRunRepository.recoverUpdate
    split
    · exact trivial
    · split <;> exact trivial
  | createConnector | deleteConnector | createQueuedRun | createQueuedRetryRun | createRunningRun
  | deleteFinishedOlderThan => exact hu.elim

theorem RunOp.shared_inserts {op : RunOp α} (h : op.shared) {new : NewConnectorRun}
    (hn : op.Inserts new) : new.status = .queued := by
  cases op with
  | createQueuedRun | createQueuedRetryRun =>
    cases hn
    rfl
  | createRunningRun => cases h
  | _ => exact hn.elim

theorem RunOp.rowMove_shared {op : RunOp α} (h : op.shared) {db : RunDb} (hdb : db.Wf) (id : Nat) :
    RowMove sharedIssued (db.run id) ((op.exec db).run id) :=
  ((op.moves_exec hdb).move id).mono (fun _ => shared_updates h) fun _ => shared_inserts h

namespace ConnectorRunRepository

/-- An update by primary key leaves the other rows alone. -/
theorem run_updateIf_ne {id k : Nat} (hk : k ≠ id) (u : RunUpdate) (db : RunDb) :
    (updateIf id u db).2.run k = db.run k := by
  unfold updateIf
  split
  · rfl
  · rw [RunDb.run_updateRun, if_neg hk]

theorem runSeq_updateIf (id : Nat) (u : RunUpdate) (db : RunDb) :
    (updateIf id u db).2.runSeq = db.runSeq := by
  unfold updateIf
  split <;> rfl

theorem wf_updateIf (id : Nat) {u : RunUpdate} {db : RunDb} (h : db.Wf) (hu : u.Finishes) :
    (updateIf id u db).2.Wf :=
  h.of_moves (P := ⟨RunUpdate.Finishes, fun _ => False⟩) (fun _ hu => hu) (moves_updateIf h hu)

end ConnectorRunRepository

theorem failRequest_of_ne {now : DateTime} {answered : Bool} {id k : Nat} (hk : k ≠ id)
    (db : RunDb) : (failRequest now answered id db).run k = db.run k := by
  unfold failRequest
  split
  · exact ConnectorRunRepository.run_updateIf_ne hk _ db
  · rfl

theorem wf_failRequest {now : DateTime} {answered : Bool} {id : Nat} {db : RunDb} (h : db.Wf) :
    (failRequest now answered id db).Wf := by
  unfold failRequest
  split
  · exact ConnectorRunRepository.wf_updateIf id h trivial
  · exact h

theorem runSeq_failRequest {now : DateTime} {answered : Bool} {id : Nat} {db : RunDb} :
    (failRequest now answered id db).runSeq = db.runSeq := by
  unfold failRequest
  split
  · exact ConnectorRunRepository.runSeq_updateIf _ _ db
  · rfl

/-- What `create_running_run` leaves behind. -/
theorem Runtime.createRunningRun_ok {now : DateTime} {source target : String} {trigger : RunTrigger}
    {payload : Option String} {db db' : RunDb} {o : Option ConnectorRun} (h : db.Wf)
    (hdb : createRunningRun now source target trigger payload db = .ok (o, db')) :
    db'.Wf ∧ db.runSeq ≤ db'.runSeq ∧ (∀ run, o = some run → run.id = db.runSeq) ∧
      ∀ k, db'.run k = o.elim (db.run k) fun run => if k = run.id then some run else db.run k := by
  have hm := (RunOp.createRunningRun (α := Unit) now source target trigger payload).moves_exec h
  have hwf := (RunOp.createRunningRun (α := Unit) now source target trigger payload).wf_exec h
  rw [show (RunOp.createRunningRun (α := Unit) now source target trigger payload).exec db = db' by
    simp [RunOp.exec, Query.commit, hdb]] at hm hwf
  refine ⟨hwf, hm.seq, ?_⟩
  obtain ⟨hr, hs⟩ := findOrCreateDefault_runs now source (defaultConnectorKind source target) db
  unfold createRunningRun ConnectorRunRepository.createIfNoPending at hdb
  split at hdb
  · cases hdb
  · split at hdb
    · simp only [Except.ok.injEq, Prod.mk.injEq] at hdb
      obtain ⟨rfl, rfl⟩ := hdb
      exact ⟨fun run hrun => (nomatch hrun), fun k => RunDb.run_congr hr⟩
    · simp only [Except.ok.injEq, Prod.mk.injEq] at hdb
      obtain ⟨rfl, rfl⟩ := hdb
      have hnone : db.run db.runSeq = none := Table.lookup_eq_none.mpr fun r hr he => by
        have := h.drawn r hr
        omega
      refine ⟨fun run hrun => Option.some.inj hrun ▸ hs, fun k => ?_⟩
      refine (Table.lookup_concat k _ _).trans ?_
      rw [show Table.lookup ConnectorRun.id k _ = db.run k from RunDb.run_congr hr]
      simp only [RunDb.insertRun, hs, Option.elim_some]
      rcases eq_or_ne k db.runSeq with rfl | hk
      · simp [hnone]
      · simp [hk, hk.symm]

/-- **What one step does**: to a run without a live request, only what others than its owner may
do; and a live request is an old one or belongs to a new run. -/
structure SystemStep (s s' : SystemState) : Prop where
  wf : s'.db.Wf
  seq : s.db.runSeq ≤ s'.db.runSeq
  shared : ∀ id, id < s.db.runSeq → id ∉ s.requests →
    RowMove sharedIssued (s.db.run id) (s'.db.run id)
  requests : ∀ id ∈ s'.requests, id ∈ s.requests ∨ s.db.runSeq ≤ id

theorem SystemStep.refl {s : SystemState} (h : s.db.Wf) : SystemStep s s :=
  ⟨h, le_rfl, fun _ _ _ => RowMove.refl _, fun _ hid => Or.inl hid⟩

/-- A step of a request changes its own run only. -/
theorem SystemStep.of_request {s : SystemState} {id : Nat} (hid : id ∈ s.requests) {db : RunDb}
    (hwf : db.Wf) (hseq : s.db.runSeq = db.runSeq)
    (hrun : ∀ k, k ≠ id → db.run k = s.db.run k) :
    SystemStep s ⟨db, s.requests.filter (· ≠ id)⟩ := by
  refine ⟨hwf, hseq.le, fun k _ hk => ?_, fun k hk => Or.inl (List.mem_filter.mp hk).1⟩
  rw [hrun k fun he => hk (he ▸ hid)]
  exact RowMove.refl _

theorem SystemOp.step (op : SystemOp α) {s : SystemState} (h : s.db.Wf) :
    SystemStep s (op.exec s) := by
  cases op with
  | call op =>
    rw [exec]
    split
    · next hs =>
      exact ⟨op.wf_exec h, (op.moves_exec h).seq, fun id _ _ => op.rowMove_shared hs h id,
        fun _ hid => Or.inl hid⟩
    · exact .refl h
  | request now source target trigger payload =>
    rw [exec]
    split
    · next run db hdb =>
      obtain ⟨hwf, hseq, hid, hrun⟩ := Runtime.createRunningRun_ok h hdb
      have hnew := hid run rfl
      refine ⟨hwf, hseq, fun id hid _ => ?_, fun id hid => ?_⟩
      · rw [hrun id, Option.elim_some, if_neg (by omega)]
        exact RowMove.refl _
      · rcases List.mem_cons.mp hid with rfl | hid
        · exact Or.inr hnew.ge
        · exact Or.inl hid
    · next db hdb =>
      obtain ⟨hwf, hseq, -, hrun⟩ := Runtime.createRunningRun_ok h hdb
      refine ⟨hwf, hseq, fun id _ _ => ?_, fun id hid => Or.inl hid⟩
      rw [hrun id]
      exact RowMove.refl _
    · exact .refl h
  | requestFinishes now answered run finishedAt execution =>
    rw [exec]
    split
    · next hid =>
      dsimp only
      split
      · next row db hdb =>
        obtain rfl : _ = db := congrArg Prod.snd hdb
        have hwf := ConnectorRunRepository.wf_updateIf run.id h
          (finishes_finishState now none run execution finishedAt)
        refine .of_request hid ?_ ?_ fun k hk => ?_
        · exact hwf.of_moves (P := ⟨RunUpdate.Finishes, fun _ => False⟩) (fun _ hu => hu)
            (.of_runs_eq hwf rfl rfl)
        · exact (ConnectorRunRepository.runSeq_updateIf ..).symm
        · rw [RunDb.run_congr rfl]
          exact ConnectorRunRepository.run_updateIf_ne hk _ _
      · exact .of_request hid (wf_failRequest h) runSeq_failRequest.symm
          fun k hk => failRequest_of_ne hk s.db
    · exact .refl h
  | requestFails now answered id =>
    rw [exec]
    split
    · next hid =>
      exact .of_request hid (wf_failRequest h) runSeq_failRequest.symm
        fun k hk => failRequest_of_ne hk s.db
    · exact .refl h
  | requestDies id =>
    exact ⟨h, le_rfl, fun _ _ _ => RowMove.refl _, fun k hk => Or.inl (List.mem_filter.mp hk).1⟩

theorem wf_runSystem (ops : List (SystemOp α)) {s : SystemState} (h : s.db.Wf) :
    (runSystem ops s).db.Wf := by
  induction ops generalizing s with
  | nil => exact h
  | cons op ops ih => exact ih (op.step h).wf

theorem SystemState.wf_fresh (connectors : List Connector) (connectorSeq runSeq : Nat) :
    (SystemState.fresh connectors connectorSeq runSeq).db.Wf :=
  RunDb.wf_fresh connectors connectorSeq runSeq

/-! ## An unleased run that lost its request stays -/

/-- The run at `id` is `running`, leased to nobody, and its request is gone. -/
structure Stuck (s : SystemState) (id : Nat) (source target : String) : Prop where
  wf : s.db.Wf
  lost : id ∉ s.requests
  row : ∃ r, s.db.run id = some r ∧ r.status = .running ∧ r.workerId = none ∧ r.source = source
    ∧ r.target = target

/-- Nobody but the owner moves a `running` row that has no worker, except to flag it. -/
theorem RunUpdate.set_of_unleased {u : RunUpdate} (hu : u.Shared) {r : ConnectorRun}
    (hr : RunInv r) (h : u.allows r) (hs : r.status = .running) (hw : r.workerId = none) :
    (u.set r).status = .running ∧ (u.set r).workerId = none := by
  have hl := hr.unleased hs hw
  cases u with
  | claim now w lease => simp [ConnectorRun.claimable_iff.mp h] at hs
  | renew now w lease => simp [ConnectorRun.leasedBy_iff.mp h] at hw
  | finalize now w state =>
    rw [(ConnectorRun.activeFor_iff.mp h).2.1] at hw
    simp [hw, Shared] at hu
  | cancelQueued now => simp_all [allows]
  | cancelRunning now => exact ⟨hs, hw⟩
  | markCancelled now w =>
    rw [(ConnectorRun.cancellableBy_iff.mp h).2.1] at hw
    simp [hw, Shared] at hu
  | recoverCancelled now | recoverFailed now | recoverQueued now backoff =>
    simp [allows, ConnectorRun.leaseExpired, hl] at h

theorem RowMove.unleased {o' : Option ConnectorRun} {r : ConnectorRun} (hr : RunInv r)
    (h : RowMove sharedIssued (some r) o') (hs : r.status = .running) (hw : r.workerId = none) :
    ∃ r', o' = some r' ∧ r'.status = .running ∧ r'.workerId = none ∧ r'.source = r.source
      ∧ r'.target = r.target := by
  cases h with
  | keep | orphan => exact ⟨_, rfl, hs, hw, rfl, rfl⟩
  | update _ u ha hu =>
    obtain ⟨hs', hw'⟩ := RunUpdate.set_of_unleased hu.1 hr ha hs hw
    exact ⟨_, rfl, hs', hw', u.set_source r, u.set_target r⟩
  | delete _ hf => simp [hs, RunStatus.finished, RunStatus.pending] at hf

/-- **A lost run stays lost**, one step at a time. -/
theorem Stuck.step {s : SystemState} {id : Nat} {source target : String}
    (h : Stuck s id source target) (op : SystemOp α) : Stuck (op.exec s) id source target := by
  obtain ⟨hwf, hlost, r, hr, hs, hw, rfl, rfl⟩ := h
  have hstep := op.step hwf
  have hid : id < s.db.runSeq := by
    obtain ⟨hmem, rfl⟩ := hwf.run_eq_some.mp hr
    exact hwf.drawn r hmem
  have hmove := hstep.shared id hid hlost
  rw [hr] at hmove
  obtain ⟨r', hr', hs', hw', hsrc, htgt⟩ := hmove.unleased (hwf.run_inv hr) hs hw
  refine ⟨hstep.wf, fun hreq => ?_, r', hr', hs', hw', hsrc, htgt⟩
  rcases hstep.requests id hreq with h | h
  · exact hlost h
  · omega

theorem Stuck.run {s : SystemState} {id : Nat} {source target : String}
    (h : Stuck s id source target) (ops : List (SystemOp α)) :
    Stuck (runSystem ops s) id source target := by
  induction ops generalizing s with
  | nil => exact h
  | cons op ops ih => exact ih (h.step op)

theorem Stuck.not_escapes {s : SystemState} {id : Nat} {source target : String}
    (h : Stuck s id source target) : ¬ Escapes α s id := by
  rintro ⟨ops, r', hr', hs'⟩
  obtain ⟨r, hr, hs, -⟩ := (h.run ops).row
  obtain rfl : r = r' := Option.some.inj (hr.symm.trans hr')
  exact hs' hs

/-- **A stuck run blocks its source and target**: no later run is created for them. -/
theorem Stuck.refuses {s : SystemState} {id : Nat} {source target : String}
    (h : Stuck s id source target) (new : NewConnectorRun) (hs : new.source = source)
    (ht : new.target = target) (run : ConnectorRun) (db : RunDb) :
    ConnectorRunRepository.createIfNoPending new s.db ≠ .ok (some run, db) := by
  obtain ⟨hwf, -, r, hr, hrs, -, hsrc, htgt⟩ := h
  have hmem : r ∈ ConnectorRunRepository.pendingFor new.source new.target s.db.runs := by
    refine List.mem_filter.mpr ⟨(hwf.run_eq_some.mp hr).1, ?_⟩
    simp [hs, ht, hsrc, htgt, hrs, RunStatus.pending]
  have hpending : ConnectorRunRepository.hasPending new.source new.target s.db = true := by
    simpa [ConnectorRunRepository.hasPending] using List.length_pos_of_mem hmem
  intro hok
  unfold ConnectorRunRepository.createIfNoPending at hok
  split at hok
  · cases hok
  · simp [hpending] at hok

/-! ## A leased run is recovered

Recovery takes the `recoveryLimit` oldest leases, so a run may wait for several passes; each pass
leaves fewer expired runs. -/

/-- The ids of the runs whose lease is over at `now`. -/
def expiredIds (now : DateTime) (db : RunDb) : Finset Nat :=
  ((db.runs.filter (·.leaseExpired now)).map (·.id)).toFinset

theorem mem_expiredIds {now : DateTime} {db : RunDb} (h : db.Wf) {id : Nat} :
    id ∈ expiredIds now db ↔ ∃ r, db.run id = some r ∧ r.leaseExpired now := by
  simp only [expiredIds, List.mem_toFinset, List.mem_map, List.mem_filter]
  refine ⟨fun ⟨r, ⟨hr, he⟩, hid⟩ => ⟨r, h.run_eq_some.mpr ⟨hr, hid⟩, he⟩, fun ⟨r, hr, he⟩ => ?_⟩
  obtain ⟨hmem, hid⟩ := h.run_eq_some.mp hr
  exact ⟨r, ⟨hmem, he⟩, hid⟩

/-- A recovered row is neither `running` nor expired. -/
theorem ConnectorRunRepository.recoverUpdate_set (now : DateTime) (base cap : Int)
    (r : ConnectorRun) : ((recoverUpdate now base cap r).set r).status ≠ .running := by
  unfold recoverUpdate
  split
  · simp [RunUpdate.set]
  · split <;> simp [RunUpdate.set]

/-- The recovery pass of a worker. -/
def recoverPass (now : DateTime) : SystemOp α :=
  .call (.recoverExpiredLeases [] now 1 1 recoveryLimit)

/-- What a recovery pass leaves at every id. -/
theorem run_recoverPass (now : DateTime) {s : SystemState} (h : s.db.Wf) (k : Nat) :
    ((recoverPass (α := α) now).exec s).db.run k
      = (Table.lookup ConnectorRun.id k
          (ConnectorRunRepository.expiredRuns [] now recoveryLimit s.db.runs)).elim (s.db.run k)
        fun r => some ((ConnectorRunRepository.recoverUpdate now 1 1 r).set r) :=
  (ConnectorRunRepository.run_recoverExpiredLeases h rfl).2.2 k

/-- **A pass reclaims the run, or leaves fewer expired ones.** -/
theorem recoverPass_progress {now : DateTime} {s : SystemState} (h : s.db.Wf) {id : Nat}
    {r : ConnectorRun} (hr : s.db.run id = some r) (he : r.leaseExpired now) :
    (∃ r', ((recoverPass (α := α) now).exec s).db.run id = some r' ∧ r'.status ≠ .running)
    ∨ (((recoverPass (α := α) now).exec s).db.run id = some r
      ∧ (expiredIds now ((recoverPass (α := α) now).exec s).db).card
        < (expiredIds now s.db).card) := by
  have hwf' := ((recoverPass (α := α) now).step h).wf
  set ws := ConnectorRunRepository.expiredRuns [] now recoveryLimit s.db.runs with hws
  have hrun := run_recoverPass (α := α) now h
  cases hl : Table.lookup ConnectorRun.id id ws with
  | some r' =>
    refine Or.inl ⟨_, (hrun id).trans (by rw [← hws, hl]; rfl), ?_⟩
    exact ConnectorRunRepository.recoverUpdate_set now 1 1 r'
  | none =>
    refine Or.inr ⟨(hrun id).trans (by rw [← hws, hl, hr]; rfl), Finset.card_lt_card ?_⟩
    have hselect : r ∈ (s.db.runs.filter fun r => r.leaseExpired now && r.id ∉ ([] : List Nat)) :=
      List.mem_filter.mpr ⟨(h.run_eq_some.mp hr).1, by simpa using he⟩
    have hne : ws ≠ [] := by
      intro hnil
      have hlen := congrArg List.length hnil
      rw [hws, ConnectorRunRepository.expiredRuns, List.length_take, List.length_mergeSort,
        List.length_nil] at hlen
      have := List.length_pos_of_mem hselect
      simp only [recoveryLimit] at hlen
      omega
    obtain ⟨a, ha⟩ := List.exists_mem_of_ne_nil ws hne
    obtain ⟨harun, haexp⟩ := ConnectorRunRepository.run_of_mem_expiredRuns h ha
    refine Finset.ssubset_iff_of_subset (fun k hk => ?_) |>.mpr ⟨a.id, ?_, fun hk => ?_⟩
    · obtain ⟨r', hr', he'⟩ := (mem_expiredIds hwf').mp hk
      rw [hrun k, ← hws] at hr'
      cases hlk : Table.lookup ConnectorRun.id k ws with
      | none =>
        rw [hlk] at hr'
        exact (mem_expiredIds h).mpr ⟨r', hr', he'⟩
      | some b =>
        obtain ⟨hb, hbe⟩ := ConnectorRunRepository.run_of_mem_expiredRuns h (Table.mem_of_lookup hlk)
        exact (mem_expiredIds h).mpr ⟨b, Table.key_of_lookup hlk ▸ hb, hbe⟩
    · exact (mem_expiredIds h).mpr ⟨a, harun, haexp⟩
    · obtain ⟨r', hr', he'⟩ := (mem_expiredIds hwf').mp hk
      have hla : Table.lookup ConnectorRun.id a.id ws = some a :=
        Table.lookup_of_mem (ConnectorRunRepository.keyed_expiredRuns h.keyed) ha
      rw [hrun a.id, ← hws, hla] at hr'
      obtain rfl := Option.some.inj hr'
      exact ConnectorRunRepository.recoverUpdate_set now 1 1 a (ConnectorRun.leaseExpired_iff.mp he').1

theorem escapes_cons {s : SystemState} {id : Nat} (op : SystemOp α)
    (h : Escapes α (op.exec s) id) : Escapes α s id := by
  obtain ⟨ops, r, hr, hs⟩ := h
  exact ⟨op :: ops, r, hr, hs⟩

/-- **A leased run escapes**: enough recovery passes at the end of its lease reclaim it.  The
induction is on the number of expired runs. -/
theorem escapes_of_leaseExpired (now : DateTime) (n : Nat) {s : SystemState} (h : s.db.Wf)
    (hn : (expiredIds now s.db).card ≤ n) {id : Nat} {r : ConnectorRun}
    (hr : s.db.run id = some r) (he : r.leaseExpired now) : Escapes α s id := by
  induction n generalizing s with
  | zero =>
    have hmem := (mem_expiredIds h).mpr ⟨r, hr, he⟩
    have := Finset.card_pos.mpr ⟨id, hmem⟩
    omega
  | succ n ih =>
    rcases recoverPass_progress (α := α) h hr he with ⟨r', hr', hs'⟩ | ⟨hr', hlt⟩
    · exact ⟨[recoverPass now], r', hr', hs'⟩
    · exact escapes_cons (recoverPass now) (ih ((recoverPass (α := α) now).step h).wf (by omega) hr')

/-- **An owned run escapes**: an operator cancels it and its request settles it. -/
theorem escapes_of_request {s : SystemState} {id : Nat} {r : ConnectorRun}
    (hr : s.db.run id = some r) (hs : r.status = .running) (hw : r.workerId = none)
    (hid : id ∈ s.requests) : Escapes α s id := by
  have hcancel : ((SystemOp.call (α := α) (.requestCancel 0 id)).exec s).db
      = s.db.updateRun id (.cancelRunning 0) := by
    simp [SystemOp.exec, RunOp.shared, RunOp.exec, Query.commit,
      ConnectorRunRepository.requestCancel, hr, hs]
  have hrun : (s.db.updateRun id (.cancelRunning 0)).run id
      = some ((RunUpdate.cancelRunning 0).set r) := by
    rw [RunDb.run_updateRun, if_pos rfl, hr]
    rfl
  refine ⟨[.call (.requestCancel 0 id), .requestFails 0 true id],
    (RunUpdate.markCancelled 0 none).set ((RunUpdate.cancelRunning 0).set r), ?_,
    by simp [RunUpdate.set]⟩
  have hreq : id ∈ ((SystemOp.call (α := α) (.requestCancel 0 id)).exec s).requests := by
    simpa [SystemOp.exec, RunOp.shared] using hid
  have hfail : ∀ s' : SystemState, id ∈ s'.requests →
      ((SystemOp.requestFails (α := α) 0 true id).exec s').db = failRequest 0 true id s'.db :=
    fun s' hs' => by rw [SystemOp.exec, if_pos hs']
  show ((SystemOp.requestFails (α := α) 0 true id).exec
    ((SystemOp.call (.requestCancel 0 id)).exec s)).db.run id = _
  rw [hfail _ hreq]
  have hallow : (RunUpdate.markCancelled 0 none).allows ((RunUpdate.cancelRunning 0).set r) := by
    simp [RunUpdate.allows, ConnectorRun.cancellableBy_iff, RunUpdate.set, hs, hw]
  have hflag : ConnectorRunRepository.cancellationRequested id
      (s.db.updateRun id (.cancelRunning 0)) = true := by
    simp [ConnectorRunRepository.cancellationRequested, hrun, RunUpdate.set]
  rw [hcancel, failRequest, if_pos (by simpa using hflag), ConnectorRunRepository.updateIf, hrun]
  simp only [Option.filter_some, hallow, if_true]
  rw [RunDb.run_updateRun, if_pos rfl, hrun]
  rfl

/-! ## Runs that keep their owners -/

/-- Every unleased `running` row still has its request. -/
def Owned (s : SystemState) : Prop :=
  ∀ id r, s.db.run id = some r → r.status = .running → r.workerId = none → id ∈ s.requests

/-- A row that others leave `running` and unleased was so before. -/
theorem RowMove.unleased_back {o : Option ConnectorRun} {r' : ConnectorRun}
    (h : RowMove sharedIssued o (some r')) (hs : r'.status = .running) (hw : r'.workerId = none) :
    ∃ r, o = some r ∧ r.status = .running ∧ r.workerId = none := by
  cases h with
  | keep | orphan => exact ⟨_, rfl, hs, hw⟩
  | create _ _ hq =>
    have hq : r'.status = .queued := hq
    rw [hq] at hs
    cases hs
  | update r u ha hu =>
    refine ⟨r, rfl, ?_⟩
    cases u with
    | claim now w lease => simp [RunUpdate.set] at hw
    | renew now w lease =>
      have : r.workerId = none := hw
      simp [ConnectorRun.leasedBy_iff.mp ha] at this
    | finalize now w state =>
      have hfin := hu.2.1
      have : state.status = .running := hs
      simp [this] at hfin
    | cancelRunning now => exact ⟨hs, hw⟩
    | cancelQueued | markCancelled | recoverCancelled | recoverFailed | recoverQueued =>
      simp [RunUpdate.set] at hs

/-- An error path that is answered settles a run whose cancellation was requested. -/
theorem failRequest_settles {now : DateTime} {answered : Bool} {id : Nat} {db : RunDb}
    (ha : answered) (h : ∀ r, db.run id = some r → r.status = .running → r.workerId = none →
      r.cancelRequestedAt.isSome) {r' : ConnectorRun}
    (hr' : (failRequest now answered id db).run id = some r') (hs : r'.status = .running)
    (hw : r'.workerId = none) : False := by
  unfold failRequest at hr'
  split at hr'
  · unfold ConnectorRunRepository.updateIf at hr'
    split at hr'
    · next hnone =>
      have hc := h r' hr' hs hw
      have hallow : (RunUpdate.markCancelled now none).allows r' := by
        simp [RunUpdate.allows, ConnectorRun.cancellableBy_iff, hs, hw, hc]
      simp [hr', Option.filter_some, hallow] at hnone
    · next r hr =>
      rw [RunDb.run_updateRun, if_pos rfl, (Option.filter_eq_some_iff.mp hr).1] at hr'
      obtain rfl := Option.some.inj hr'
      simp [RunUpdate.set] at hs
  · next hflag =>
    have hc := h r' hr' hs hw
    simp [ha, ConnectorRunRepository.cancellationRequested, hr', hc] at hflag

/-- A request may end once its run is no longer `running` and unleased. -/
theorem Owned.of_request {s : SystemState} (h : Owned s) {id : Nat} {db : RunDb}
    (hrun : ∀ k, k ≠ id → db.run k = s.db.run k)
    (hid : ∀ r, db.run id = some r → r.status = .running → r.workerId = none → False) :
    Owned ⟨db, s.requests.filter (· ≠ id)⟩ := by
  intro k r hr hs hw
  rcases eq_or_ne k id with rfl | hk
  · exact (hid r hr hs hw).elim
  · exact List.mem_filter.mpr ⟨h k r ((hrun k hk).symm.trans hr) hs hw, by simpa using hk⟩

/-- A finalized run is not `running`. -/
theorem ConnectorRunRepository.updateIf_finalize {now : DateTime} {id : Nat} {w : Option String}
    {state : ConnectorRunStateUpdate} (hf : (RunUpdate.finalize now w state).Finishes) {db db' : RunDb}
    {row r : ConnectorRun} (hdb : updateIf id (.finalize now w state) db = (some row, db'))
    (hr : db'.run id = some r) : r.status ≠ .running := by
  unfold updateIf at hdb
  split at hdb
  · cases hdb
  · next r₀ hr₀ =>
    obtain rfl : db.updateRun id _ = db' := congrArg Prod.snd hdb
    rw [RunDb.run_updateRun, if_pos rfl, (Option.filter_eq_some_iff.mp hr₀).1] at hr
    obtain rfl := Option.some.inj hr
    intro hs
    have hs : state.status = .running := hs
    have hfin := hf.1
    simp [hs] at hfin

/-- An unleased run that cannot be finalized by its owner was asked to stop. -/
theorem ConnectorRunRepository.cancelRequested_of_updateIf {now : DateTime} {id : Nat}
    {state : ConnectorRunStateUpdate} {db db' : RunDb} {r : ConnectorRun}
    (hdb : updateIf id (.finalize now none state) db = (none, db')) (hr : db.run id = some r)
    (hs : r.status = .running) (hw : r.workerId = none) : r.cancelRequestedAt.isSome := by
  by_contra hc
  have hactive : r.activeFor now none :=
    ConnectorRun.activeFor_iff.mpr ⟨hs, hw, by simpa using hc, by simp⟩
  have hallow : (RunUpdate.finalize now none state).allows r := hactive
  simp [updateIf, hr, Option.filter_some, hallow] at hdb

/-- **A step that keeps the owners keeps every unleased run owned.** -/
theorem Owned.step {s : SystemState} (h : Owned s) (hwf : s.db.Wf) {op : SystemOp α}
    (hop : op.KeepsOwner s) : Owned (op.exec s) := by
  cases op with
  | call op =>
    rw [SystemOp.exec]
    split
    · next hsh =>
      intro id r' hr' hs hw
      have hmove := op.rowMove_shared hsh hwf id
      rw [show (op.exec s.db).run id = some r' from hr'] at hmove
      obtain ⟨r, hr, hrs, hrw⟩ := hmove.unleased_back hs hw
      exact h id r hr hrs hrw
    · exact h
  | request now source target trigger payload =>
    rw [SystemOp.exec]
    split
    · next run db hdb =>
      obtain ⟨-, -, -, hrun⟩ := Runtime.createRunningRun_ok hwf hdb
      intro id r' hr' hs hw
      rcases eq_or_ne id run.id with rfl | hid
      · exact List.mem_cons_self ..
      · rw [show db.run id = _ from hrun id, Option.elim_some, if_neg hid] at hr'
        exact List.mem_cons_of_mem _ (h id r' hr' hs hw)
    · next db hdb =>
      obtain ⟨-, -, -, hrun⟩ := Runtime.createRunningRun_ok hwf hdb
      exact fun id r' hr' hs hw => h id r' ((hrun id).symm.trans hr') hs hw
    · exact h
  | requestFinishes now answered run finishedAt execution =>
    rw [SystemOp.exec]
    split
    · next hid =>
      dsimp only
      split
      · next row db hdb =>
        refine h.of_request (fun k hk => ?_) fun r hrun hs _ => ?_
        · obtain rfl : _ = db := congrArg Prod.snd hdb
          rw [RunDb.run_congr rfl]
          exact ConnectorRunRepository.run_updateIf_ne hk _ _
        · rw [RunDb.run_congr rfl] at hrun
          exact ConnectorRunRepository.updateIf_finalize
            (finishes_finishState now none run execution finishedAt) hdb hrun hs
      · next hdb =>
        refine h.of_request (fun k hk => failRequest_of_ne hk s.db) fun r => ?_
        refine failRequest_settles (hop hid (congrArg Prod.fst hdb)) fun r hr hs hw => ?_
        exact ConnectorRunRepository.cancelRequested_of_updateIf hdb hr hs hw
    · exact h
  | requestFails now answered id =>
    rw [SystemOp.exec]
    split
    · next hid =>
      refine h.of_request (fun k hk => failRequest_of_ne hk s.db) fun r => ?_
      refine failRequest_settles (hop hid).1 fun r hr _ _ => ?_
      simpa [ConnectorRunRepository.cancellationRequested, hr] using (hop hid).2
    · exact h
  | requestDies id =>
    refine h.of_request (fun k _ => rfl) fun r hr hs hw => ?_
    exact hop (h id r hr hs hw)

theorem Owned.run (ops : List (SystemOp α)) {s : SystemState} (h : Owned s) (hwf : s.db.Wf)
    (hops : KeepsOwners ops s) : Owned (runSystem ops s) := by
  induction ops generalizing s with
  | nil => exact h
  | cons op ops ih => exact ih (h.step hwf hops.1) (op.step hwf).wf hops.2

/-! ## Which runs can be brought to an end -/

/-- **A running run can be brought to an end exactly if a worker leased it or the request that
created it is still at work** — in every state the system reaches.  Where neither holds, no later
run is created for its source and target; and along a run of the system that loses no owner, every
running run can be brought to an end. -/
theorem escapes_iff_leased_or_owned (connectors : List Connector) (connectorSeq runSeq : Nat)
    (ops : List (SystemOp α)) :
    let start := SystemState.fresh connectors connectorSeq runSeq
    let s := runSystem ops start
    (∀ id r, s.db.run id = some r → r.status = .running →
      (Escapes α s id ↔ (r.workerId.isSome ∨ id ∈ s.requests)))
    ∧ (∀ id r, s.db.run id = some r → r.status = .running → r.workerId = none → id ∉ s.requests →
      ∀ (more : List (SystemOp α)) (new : NewConnectorRun), new.source = r.source →
        new.target = r.target → ∀ run db,
          ConnectorRunRepository.createIfNoPending new (runSystem more s).db ≠ .ok (some run, db))
    ∧ (KeepsOwners ops start → ∀ id r, s.db.run id = some r → r.status = .running →
      Escapes α s id) := by
  intro start s
  have hwf : s.db.Wf := wf_runSystem ops (SystemState.wf_fresh connectors connectorSeq runSeq)
  have hescape : ∀ id r, s.db.run id = some r → r.status = .running →
      (r.workerId.isSome ∨ id ∈ s.requests) → Escapes α s id := fun id r hr hs hcase => by
    cases hw : r.workerId with
    | none => exact escapes_of_request hr hs hw (hcase.resolve_left (by simp [hw]))
    | some w =>
      obtain ⟨t, ht⟩ := Option.isSome_iff_exists.mp ((hwf.run_inv hr).leased hs (by simp [hw]))
      exact escapes_of_leaseExpired t _ hwf le_rfl hr
        (ConnectorRun.leaseExpired_iff.mpr ⟨hs, t, ht, le_rfl⟩)
  have hstuck : ∀ id r, s.db.run id = some r → r.status = .running → r.workerId = none →
      id ∉ s.requests → Stuck s id r.source r.target :=
    fun id r hr hs hw hid => ⟨hwf, hid, r, hr, hs, hw, rfl, rfl⟩
  refine ⟨fun id r hr hs => ⟨fun hesc => ?_, hescape id r hr hs⟩,
    fun id r hr hs hw hid more new hsrc htgt run db =>
      ((hstuck id r hr hs hw hid).run more).refuses new hsrc htgt run db,
    fun hkeep id r hr hs => hescape id r hr hs ?_⟩
  · by_contra hcase
    obtain ⟨hw, hid⟩ := not_or.mp hcase
    exact (hstuck id r hr hs (by simpa using hw) hid).not_escapes hesc
  · cases hw : r.workerId with
    | some w => exact Or.inl (by simp)
    | none =>
      have howned : Owned start := fun id r hr => by
        simp [start, SystemState.fresh, RunDb.fresh, RunDb.run] at hr
      exact Or.inr (howned.run ops (SystemState.wf_fresh ..) hkeep id r hr hs hw)

/-- An import whose transaction fails, nobody having asked to cancel it: the run it created is
still `running`. -/
def failedImport : List (SystemOp Unit) :=
  [.request 0 "erp" "work_cards" .viaImport none, .requestFails 1 true 0]

/-- **The run of a failed import is stuck**: no sequence of steps ends it, and no other run of its
source and target is ever created. -/
theorem failed_import_strands_its_run :
    let s := runSystem failedImport (SystemState.fresh [] 0 0)
    (∃ r, s.db.run 0 = some r ∧ r.status = .running) ∧ ¬ Escapes Unit s 0
    ∧ ∀ (more : List (SystemOp Unit)) (new : NewConnectorRun), new.source = "erp" →
      new.target = "work_cards" → ∀ run db,
        ConnectorRunRepository.createIfNoPending new (runSystem more s).db ≠ .ok (some run, db) := by
  have hrun : (runSystem failedImport (SystemState.fresh [] 0 0)).db.run 0
      = some { Runtime.runningRun 0 "erp" "work_cards" .viaImport none with id := 0 } := by
    simp [failedImport, runSystem, SystemOp.exec, SystemState.fresh, RunDb.fresh,
      Runtime.createRunningRun, Runtime.findOrCreateDefault, ConnectorRepository.findBySource,
      ConnectorRepository.defaultConnector, ConnectorRunRepository.createIfNoPending,
      ConnectorRunRepository.hasPending, ConnectorRunRepository.pendingFor, RunDb.insertRun,
      Runtime.runningRun, failRequest, ConnectorRunRepository.cancellationRequested, RunDb.run,
      Table.lookup]
  have hlost : 0 ∉ (runSystem failedImport (SystemState.fresh [] 0 0)).requests := by
    simp [failedImport, runSystem, SystemOp.exec, SystemState.fresh, RunDb.fresh,
      Runtime.createRunningRun, Runtime.findOrCreateDefault, ConnectorRepository.findBySource,
      ConnectorRepository.defaultConnector, ConnectorRunRepository.createIfNoPending,
      ConnectorRunRepository.hasPending, ConnectorRunRepository.pendingFor, RunDb.insertRun,
      Runtime.runningRun]
  have hstuck : Stuck (runSystem failedImport (SystemState.fresh [] 0 0)) 0 "erp" "work_cards" :=
    ⟨wf_runSystem _ (SystemState.wf_fresh [] 0 0), hlost, _, hrun, rfl, rfl, rfl, rfl⟩
  exact ⟨⟨_, hrun, rfl⟩, hstuck.not_escapes, fun more new hs ht run db =>
    (hstuck.run more).refuses new hs ht run db⟩

end DevPortal
