import DevPortal.Runs.Lifecycle

/-!
# Runs/Paused — a paused connector, and the runs it still has

    PUT status = paused ───────▸ paused ──▸ …
    run of the connector         │ finish ▸ active, or error
    lease of its last attempt    │ expires ▸ error
    creator                      read: not paused ──────────▸ create run

Whoever creates a run reads the status of the connector before and refuses a paused one; a run that
is there is not asked.  Its outcome is written over whatever the status is by then.  So a pause lasts
if the connector has no pending run and nobody is about to create one (`Calm`).
-/

namespace DevPortal

variable {α : Type}

/-! ## Outcomes of runs -/

namespace RunDb

/-- `finish_connector_run_for_owner`, in its transaction; a run that is not the caller's any more
rolls it back.  Its callers pass the source and the target of the run. -/
def finishConnectorRunForOwner (now : DateTime) (run : ConnectorRun)
    (execution : ConnectorExecution α) (workerId : Option String) (finishedAt : DateTime)
    (db : RunDb) : RunDb :=
  match ConnectorRunRepository.updateIf run.id
      (.finalize now workerId (finishState run execution finishedAt)) db with
  | (none, _) => db
  | (some row, db) =>
    db.touchRunState now row.source (defaultConnectorKind row.source row.target) row.status
      finishedAt

end RunDb

/-! ## The portal -/

/-- Who creates runs, after a look at the status: `enqueue_due_scheduled_runs`, `run_connector` in
its two modes, and `retry_connector_run`. -/
inductive RunCreator
  | scheduler
  | queue
  | runNow
  | retry (parentRunId : Nat)
  deriving DecidableEq

/-- The call that creates the run. -/
def RunCreator.op (source target : String) (env : Option String) (now : DateTime)
    (payload : Option String) : RunCreator → RunOp α
  | scheduler => .createQueuedRun env now source target .scheduled none
  | queue => .createQueuedRun env now source target .manual payload
  | runNow => .createRunningRun now source target .manual payload
  | retry parentRunId => .createQueuedRetryRun env now source target payload parentRunId

/-- The tables, and the creators that have found a connector not paused. -/
structure Portal where
  db : RunDb
  cleared : List (RunCreator × String)

/-- `ConnectorUpdate`, as an admin sends it. -/
structure AdminUpdate where
  kind : String
  displayName : String
  status : ConnectorStatus

/-- The calls that neither create runs nor finish them. -/
def RunOp.Plain : RunOp α → Prop
  | createQueuedRun .. | createQueuedRetryRun .. | createRunningRun .. | finalizeIfActive .. =>
    False
  | _ => True

/-- A transaction of the portal. -/
inductive PortalOp (α : Type)
  | call (op : { op : RunOp α // op.Plain })
  | finish (now : DateTime) (run : ConnectorRun) (execution : ConnectorExecution α)
      (workerId : Option String) (finishedAt : DateTime)
  | clear (creator : RunCreator) (source : String)
  | dismiss (creator : RunCreator) (source : String)
  | create (creator : RunCreator) (source target : String) (env : Option String) (now : DateTime)
      (payload : Option String)
  | importRun (now : DateTime) (source target : String) (payload : Option String)
  | updateConnector (now : DateTime) (source : String) (update : AdminUpdate)

/-- The connector is paused. -/
def Paused (source : String) (connectors : List Connector) : Prop :=
  ∃ c, ConnectorRepository.findBySource source connectors = some c ∧ c.status = .paused

/-- The portal after a transaction. -/
def PortalOp.exec : PortalOp α → Portal → Portal
  | call op, p => { p with db := op.1.exec p.db }
  | finish now run execution workerId finishedAt, p =>
    { p with db := p.db.finishConnectorRunForOwner now run execution workerId finishedAt }
  | clear creator source, p =>
    match ConnectorRepository.findBySource source p.db.connectors with
    | some connector =>
      if connector.status = .paused then p
      else { p with cleared := (creator, source) :: p.cleared }
    | none => p
  | dismiss creator source, p => { p with cleared := p.cleared.erase (creator, source) }
  | create creator source target env now payload, p =>
    if (creator, source) ∈ p.cleared then
      ⟨(creator.op (α := α) source target env now payload).exec p.db,
        p.cleared.erase (creator, source)⟩
    else p
  | importRun now source target payload, p =>
    { p with db := (RunOp.createRunningRun (α := α) now source target .viaImport payload).exec p.db }
  | updateConnector now source update, p =>
    { p with db := { p.db with
      connectors := Table.update (fun c => c.source = source)
        (fun c => { c with
          kind := update.kind
          displayName := update.displayName
          status := update.status
          updatedAt := now }) p.db.connectors } }

/-- The portal after transactions. -/
def Portal.run (ops : List (PortalOp α)) (p : Portal) : Portal := ops.foldl (fun p op => op.exec p) p

/-- The portal before the first run. -/
def Portal.fresh (connectors : List Connector) (connectorSeq runSeq : Nat) : Portal :=
  ⟨RunDb.fresh connectors connectorSeq runSeq, []⟩

/-! ## What keeps a connector paused -/

/-- The source has no pending run. -/
def Idle (source : String) (db : RunDb) : Prop :=
  ∀ r ∈ db.runs, r.source = source → ¬ r.status.pending

/-- **Nothing is about to write the status**: the connector is paused, it has no pending run, and
nobody has found it otherwise who has yet to create one. -/
structure Calm (source : String) (p : Portal) : Prop where
  paused : Paused source p.db.connectors
  idle : Idle source p.db
  uncleared : ∀ creator, (creator, source) ∉ p.cleared

/-- What may end a pause: an admin, or an import over HTTP. -/
def PortalOp.Frees (source : String) : PortalOp α → Prop
  | updateConnector _ s _ => s = source
  | importRun _ s _ _ => s = source
  | call ⟨.deleteConnector s, _⟩ => s = source
  | _ => False

section Connectors

variable {source : String} {connectors : List Connector}

/-- An update of another connector. -/
theorem Paused.update {s : String} {f : Connector → Connector} (hf : ∀ c, (f c).source = c.source)
    (hs : s ≠ source) (h : Paused source connectors) :
    Paused source (Table.update (fun c => c.source = s) f connectors) := by
  obtain ⟨c, hc, hpaused⟩ := h
  refine ⟨c, ?_, hpaused⟩
  have hlookup : Table.lookup (fun c : Connector => c.source) source
      (Table.update (fun c => c.source = s) f connectors) = _ :=
    Table.lookup_update_key hf s source connectors
  rw [if_neg (Ne.symm hs)] at hlookup
  exact hlookup.trans hc

/-- A new connector. -/
theorem Paused.append (h : Paused source connectors) (c : Connector) :
    Paused source (connectors ++ [c]) := by
  obtain ⟨c', hc', hpaused⟩ := h
  refine ⟨c', ?_, hpaused⟩
  have hlookup : Table.lookup (fun c : Connector => c.source) source (connectors ++ [c]) = _ :=
    Table.lookup_concat source connectors c
  rw [show Table.lookup (fun c : Connector => c.source) source connectors = some c' from hc']
    at hlookup
  exact hlookup

/-- Another connector is gone. -/
theorem Paused.delete {s : String} (hs : s ≠ source) (h : Paused source connectors) :
    Paused source (Table.delete (fun c => c.source = s) connectors) := by
  obtain ⟨c, hc, hpaused⟩ := h
  refine ⟨c, ?_, hpaused⟩
  have hlookup : Table.lookup (fun c : Connector => c.source) source
      (Table.delete (fun c => c.source = s) connectors) = _ :=
    Table.lookup_delete_key s source connectors
  rw [if_neg (Ne.symm hs)] at hlookup
  exact hlookup.trans hc

end Connectors

section Runs

variable {source : String} {db db' : RunDb}

/-- **A source without pending runs gets none by itself.** -/
theorem Idle.moves {P : Issued} (hwf : db.Wf) (hm : RunDb.Moves P db db')
    (hP : ∀ new, P.insert new → new.source ≠ source) (h : Idle source db) : Idle source db' := by
  intro r' hr' hs hpending
  have hmove := hm.move r'.id
  have hrow : db'.run r'.id = some r' := Table.lookup_of_mem hm.keyed hr'
  rw [hrow] at hmove
  generalize hold : db.run r'.id = o at hmove
  cases hmove with
  | keep => exact h r' (hwf.run_eq_some.mp hold).1 hs hpending
  | orphan r => exact h r (hwf.run_eq_some.mp hold).1 hs hpending
  | update r u hallows _ =>
    exact h r (hwf.run_eq_some.mp hold).1 ((u.set_source r).symm.trans hs)
      (RunUpdate.pending_of_allows hallows)
  | create _ _ hnew => exact hP _ hnew hs

/-- A move of the runs does not see the connectors. -/
theorem RunDb.Moves.congr {P : Issued} {db'' : RunDb} (hm : RunDb.Moves P db db')
    (hruns : db''.runs = db'.runs) (hseq : db''.runSeq = db'.runSeq) : RunDb.Moves P db db'' := by
  refine ⟨hruns ▸ hm.keyed, fun r hr => ?_, hseq ▸ hm.seq, fun id => ?_, fun id hid hn => ?_⟩
  · rw [hseq]
    exact hm.drawn r (hruns ▸ hr)
  · rw [RunDb.run_congr hruns]
    exact hm.move id
  · rw [RunDb.run_congr hruns]
    exact hm.gone id hid hn

/-- A turn of the recovery over a run of another source. -/
theorem paused_recoverRun {now : DateTime} {base cap : Int} {run : ConnectorRun}
    (hs : run.source ≠ source) (h : Paused source db.connectors) :
    Paused source (ConnectorRunRepository.recoverRun now base cap db run).connectors := by
  unfold ConnectorRunRepository.recoverRun
  dsimp only
  split
  · exact h.update (fun _ => rfl) hs
  · exact h

theorem paused_recoverExpiredLeases {now : DateTime} {base cap : Int} {runs : List ConnectorRun}
    (hruns : ∀ r ∈ runs, r.source ≠ source) (h : Paused source db.connectors) :
    Paused source
      (runs.foldl (ConnectorRunRepository.recoverRun now base cap) db).connectors := by
  induction runs generalizing db with
  | nil => exact h
  | cons run runs ih =>
    exact ih (fun r hr => hruns r (List.mem_cons_of_mem _ hr))
      (paused_recoverRun (hruns run (List.mem_cons_self ..)) h)

end Runs

section Steps

variable {source : String} {p : Portal}

/-- The outcome of a run of another source. -/
theorem paused_touchRunState {now : DateTime} {s kind : String} {status : RunStatus}
    {finishedAt : DateTime} {db : RunDb} (hs : s ≠ source) (h : Paused source db.connectors) :
    Paused source (db.touchRunState now s kind status finishedAt).connectors := by
  unfold RunDb.touchRunState ConnectorRepository.touchRunState
  cases ConnectorRepository.findBySource s db.connectors with
  | some _ => exact h.update (fun _ => rfl) hs
  | none => exact h.append _

/-- **A finish does nothing, or finds a pending run** and writes its outcome. -/
theorem finishConnectorRunForOwner_cases (now : DateTime) (run : ConnectorRun)
    (execution : ConnectorExecution α) (workerId : Option String) (finishedAt : DateTime)
    (db : RunDb) :
    db.finishConnectorRunForOwner now run execution workerId finishedAt = db
    ∨ ∃ r, db.run run.id = some r
      ∧ (RunUpdate.finalize now workerId (finishState run execution finishedAt)).allows r
      ∧ db.finishConnectorRunForOwner now run execution workerId finishedAt
        = (db.updateRun run.id (.finalize now workerId (finishState run execution finishedAt))
          ).touchRunState now r.source (defaultConnectorKind r.source r.target)
            (finishState run execution finishedAt).status finishedAt := by
  unfold RunDb.finishConnectorRunForOwner ConnectorRunRepository.updateIf
  cases hrow : (db.run run.id).filter
      (RunUpdate.finalize now workerId (finishState run execution finishedAt)).allows with
  | none => exact Or.inl rfl
  | some r =>
    obtain ⟨hr, hallows⟩ := Option.filter_eq_some_iff.mp hrow
    exact Or.inr ⟨r, hr, hallows, rfl⟩

/-- A finish creates no run. -/
def finishIssued : Issued := ⟨RunUpdate.Finishes, fun _ => False⟩

theorem moves_finish (now : DateTime) (run : ConnectorRun) (execution : ConnectorExecution α)
    (workerId : Option String) (finishedAt : DateTime) {db : RunDb} (hwf : db.Wf) :
    RunDb.Moves finishIssued db
      (db.finishConnectorRunForOwner now run execution workerId finishedAt) := by
  rcases finishConnectorRunForOwner_cases now run execution workerId finishedAt db with
    heq | ⟨r, hr, hallows, heq⟩
  · rw [heq]
    exact .of_runs_eq hwf rfl rfl
  · have hm : RunDb.Moves finishIssued db (db.updateRun run.id
        (.finalize now workerId (finishState run execution finishedAt))) :=
      RunDb.Moves.updateRun hwf hr hallows (finishes_finishState now workerId run execution _)
    rw [heq]
    exact hm.congr rfl rfl

/-- **The runs of other sources may be finished.** -/
theorem paused_finish (now : DateTime) (run : ConnectorRun) (execution : ConnectorExecution α)
    (workerId : Option String) (finishedAt : DateTime) {db : RunDb} (hwf : db.Wf)
    (hidle : Idle source db) (h : Paused source db.connectors) :
    Paused source
      (db.finishConnectorRunForOwner now run execution workerId finishedAt).connectors := by
  rcases finishConnectorRunForOwner_cases now run execution workerId finishedAt db with
    heq | ⟨r, hr, hallows, heq⟩
  · rwa [heq]
  · obtain ⟨hmem, -⟩ := hwf.run_eq_some.mp hr
    rw [heq]
    exact paused_touchRunState
      (fun hs => hidle r hmem hs (RunUpdate.pending_of_allows hallows)) h

/-- A call leaves the connectors alone, but for three. -/
theorem connectors_exec {op : RunOp α} (hop : op.Plain) (db : RunDb) :
    (op.exec db).connectors = db.connectors
    ∨ (∃ now new, op = .createConnector now new)
    ∨ (∃ s, op = .deleteConnector s)
    ∨ ∃ locked now base cap limit, op = .recoverExpiredLeases locked now base cap limit := by
  cases op with
  | createConnector now new => exact Or.inr (Or.inl ⟨now, new, rfl⟩)
  | deleteConnector s => exact Or.inr (Or.inr (Or.inl ⟨s, rfl⟩))
  | recoverExpiredLeases locked now base cap limit =>
    exact Or.inr (Or.inr (Or.inr ⟨locked, now, base, cap, limit, rfl⟩))
  | createQueuedRun | createQueuedRetryRun | createRunningRun | finalizeIfActive => exact hop.elim
  | claimNextQueued locked now w lease =>
    refine Or.inl ?_
    simp only [RunOp.exec, Query.commit, ConnectorRunRepository.claimNextQueued]
    cases ConnectorRunRepository.nextQueued locked now db.runs <;> rfl
  | renewLease now id w lease =>
    refine Or.inl ?_
    simp only [RunOp.exec, Query.commit, ConnectorRunRepository.renewLease,
      ConnectorRunRepository.updateIf]
    cases (db.run id).filter (RunUpdate.renew now w lease).allows <;> rfl
  | requestCancel now id =>
    refine Or.inl ?_
    simp only [RunOp.exec, Query.commit, ConnectorRunRepository.requestCancel]
    cases db.run id with
    | none => rfl
    | some r => cases hstatus : r.status <;> simp only [hstatus] <;> rfl
  | markCancelledIfRequested now id w =>
    refine Or.inl ?_
    simp only [RunOp.exec, Query.commit, ConnectorRunRepository.markCancelledIfRequested,
      ConnectorRunRepository.updateIf]
    cases (db.run id).filter (RunUpdate.markCancelled now w).allows <;> rfl
  | deleteFinishedOlderThan before => exact Or.inl rfl

/-- **A call that creates no run keeps the pause**: a lease that expires is that of a pending run. -/
theorem paused_call {op : RunOp α} (hop : op.Plain) (hdelete : op ≠ .deleteConnector source)
    {db : RunDb} (hidle : Idle source db) (h : Paused source db.connectors) :
    Paused source (op.exec db).connectors := by
  rcases connectors_exec hop db with
    heq | ⟨now, new, rfl⟩ | ⟨s, rfl⟩ | ⟨locked, now, base, cap, limit, rfl⟩
  · rwa [heq]
  · simp only [RunOp.exec, Query.commit, ConnectorRepository.create]
    cases ConnectorRepository.findBySource new.source db.connectors with
    | some c => exact h
    | none => exact h.append _
  · exact h.delete fun hs => hdelete (hs ▸ rfl)
  · refine paused_recoverExpiredLeases (fun r hr hs => ?_) h
    obtain ⟨hmem, hexpired⟩ := ConnectorRunRepository.mem_expiredRuns hr
    refine hidle r hmem hs ?_
    rw [(ConnectorRun.leaseExpired_iff.mp hexpired).1]
    rfl

/-- A call that creates no run inserts none. -/
theorem not_inserts_of_plain {op : RunOp α} (hop : op.Plain) (new : NewConnectorRun) :
    ¬ op.issued.insert new := by
  cases op with
  | createQueuedRun | createQueuedRetryRun | createRunningRun | finalizeIfActive => exact hop.elim
  | _ => exact id

/-- The run a creator creates is one of the source it looked at. -/
theorem source_of_creator {creator : RunCreator} {s target : String} {env : Option String}
    {now : DateTime} {payload : Option String} {new : NewConnectorRun}
    (h : (creator.op (α := α) s target env now payload).issued.insert new) : new.source = s := by
  cases creator <;> exact congrArg NewConnectorRun.source h

theorem connectors_createIfNoPending {new : NewConnectorRun} {db db' : RunDb}
    {o : Option ConnectorRun}
    (h : ConnectorRunRepository.createIfNoPending new db = .ok (o, db')) :
    db'.connectors = db.connectors := by
  unfold ConnectorRunRepository.createIfNoPending at h
  split at h
  · cases h
  · split at h
    all_goals rw [← (Prod.mk.inj (Except.ok.inj h)).2]

theorem paused_commit {β : Type} {q : Query β} {db : RunDb} (h : Paused source db.connectors)
    (hq : ∀ b db', q db = .ok (b, db') → Paused source db'.connectors) :
    Paused source (q.commit db).connectors := by
  unfold Query.commit
  split
  · next hok => exact hq _ _ hok
  · exact h

/-- A run that runs at once is created behind its connector. -/
theorem paused_createRunningRun {now : DateTime} {s target : String} {trigger : RunTrigger}
    {payload : Option String} {db : RunDb} (h : Paused source db.connectors) :
    Paused source
      ((RunOp.createRunningRun (α := α) now s target trigger payload).exec db).connectors := by
  refine paused_commit h fun o db' hok => ?_
  rw [connectors_createIfNoPending hok]
  unfold Runtime.findOrCreateDefault
  split
  · exact h
  · exact h.append _

/-- Creating a run leaves the connectors as they are, or adds one. -/
theorem paused_create (creator : RunCreator) {s target : String} {env : Option String}
    {now : DateTime} {payload : Option String} {db : RunDb} (h : Paused source db.connectors) :
    Paused source ((creator.op (α := α) s target env now payload).exec db).connectors := by
  cases creator with
  | scheduler | queue =>
    refine paused_commit h fun o db' hok => ?_
    rwa [connectors_createIfNoPending hok]
  | runNow => exact paused_createRunningRun h
  | retry parent =>
    refine paused_commit h fun o db' hok => ?_
    rwa [connectors_createIfNoPending (ConnectorRunRepository.createRetry_eq hok)]

/-- **A step keeps the calm**, unless it may end the pause. -/
theorem calm_exec (op : PortalOp α) (hop : ¬ op.Frees source) (hwf : p.db.Wf)
    (h : Calm source p) : Calm source (op.exec p) := by
  cases op with
  | call op =>
    obtain ⟨op, hplain⟩ := op
    have hdelete : op ≠ .deleteConnector source := by
      rintro rfl
      exact hop rfl
    exact ⟨paused_call hplain hdelete h.idle h.paused,
      h.idle.moves hwf (op.moves_exec hwf) fun new hnew =>
        (not_inserts_of_plain hplain new hnew).elim, h.uncleared⟩
  | finish now run execution workerId finishedAt =>
    exact ⟨paused_finish now run execution workerId finishedAt hwf h.idle h.paused,
      h.idle.moves hwf (moves_finish now run execution workerId finishedAt hwf) fun _ hno =>
        hno.elim, h.uncleared⟩
  | clear creator s =>
    cases hfound : ConnectorRepository.findBySource s p.db.connectors with
    | none =>
      simp only [PortalOp.exec, hfound]
      exact h
    | some connector =>
      simp only [PortalOp.exec, hfound]
      split
      · exact h
      next hactive =>
      refine ⟨h.paused, h.idle, fun creator' hmem => ?_⟩
      rcases List.mem_cons.mp hmem with heq | hmem
      · -- the connector that was looked at is the paused one
        obtain ⟨rfl, rfl⟩ := Prod.mk.inj heq
        obtain ⟨c, hc, hpaused⟩ := h.paused
        obtain rfl := Option.some.inj (hfound.symm.trans hc)
        exact hactive hpaused
      · exact h.uncleared creator' hmem
  | dismiss creator s =>
    exact ⟨h.paused, h.idle, fun creator' hmem => h.uncleared creator' (List.mem_of_mem_erase hmem)⟩
  | create creator s target env now payload =>
    simp only [PortalOp.exec]
    split
    · next hcleared =>
      have hs : s ≠ source := by
        rintro rfl
        exact h.uncleared creator hcleared
      refine ⟨paused_create creator h.paused, h.idle.moves hwf (RunOp.moves_exec _ hwf)
        fun new hnew => ?_, fun creator' hmem =>
          h.uncleared creator' (List.mem_of_mem_erase hmem)⟩
      rwa [source_of_creator hnew]
    · exact h
  | importRun now s target payload =>
    have hm := (RunOp.createRunningRun (α := α) now s target .viaImport payload).moves_exec hwf
    refine ⟨paused_createRunningRun (α := α) h.paused, h.idle.moves hwf hm fun new hnew => ?_, h.uncleared⟩
    obtain rfl : new = _ := hnew
    exact hop
  | updateConnector now s update =>
    exact ⟨h.paused.update (fun _ => rfl) hop, h.idle, h.uncleared⟩

/-- Every step leaves the tables well formed. -/
theorem wf_exec (op : PortalOp α) (hwf : p.db.Wf) : (op.exec p).db.Wf := by
  cases op with
  | call op => exact op.1.wf_exec hwf
  | finish now run execution workerId finishedAt =>
    exact hwf.of_moves (fun _ hu => hu) (moves_finish now run execution workerId finishedAt hwf)
  | clear creator s =>
    simp only [PortalOp.exec]
    split
    · split
      · exact hwf
      · exact hwf
    · exact hwf
  | dismiss creator s => exact hwf
  | create creator s target env now payload =>
    simp only [PortalOp.exec]
    split
    · exact RunOp.wf_exec _ hwf
    · exact hwf
  | importRun now s target payload =>
    exact (RunOp.createRunningRun (α := α) now s target .viaImport payload).wf_exec hwf
  | updateConnector now s update => exact ⟨hwf.keyed, hwf.drawn, hwf.rows⟩

end Steps

/-! ## Runs -/

theorem wf_portalRun (ops : List (PortalOp α)) {p : Portal} (hwf : p.db.Wf) :
    (Portal.run ops p).db.Wf := by
  induction ops generalizing p with
  | nil => exact hwf
  | cons op ops ih => exact ih (wf_exec op hwf)

theorem calm_portalRun {source : String} {ops : List (PortalOp α)}
    (hops : ∀ op ∈ ops, ¬ op.Frees source) {p : Portal} (hwf : p.db.Wf) (h : Calm source p) :
    Calm source (Portal.run ops p) := by
  induction ops generalizing p with
  | nil => exact h
  | cons op ops ih =>
    exact ih (fun op' hop' => hops op' (List.mem_cons_of_mem _ hop')) (wf_exec op hwf)
      (calm_exec op (hops op (List.mem_cons_self ..)) hwf h)

/-- **A pause in the calm lasts.**  After any run of the portal that leaves the connector calm, and
after any further steps, none of them by an admin or an import over HTTP for this connector, the
connector is paused, and no creator of runs creates one for it. -/
theorem paused_stays_paused (connectors : List Connector) (connectorSeq runSeq : Nat)
    (before after : List (PortalOp α)) (source : String)
    (hcalm : Calm source (Portal.run before (.fresh connectors connectorSeq runSeq)))
    (hafter : ∀ op ∈ after, ¬ op.Frees source) :
    let p := Portal.run (before ++ after) (.fresh connectors connectorSeq runSeq)
    Paused source p.db.connectors
    ∧ ∀ creator target env now payload,
      (PortalOp.create (α := α) creator source target env now payload).exec p = p := by
  intro p
  have hwf : (Portal.run before (.fresh connectors connectorSeq runSeq)).db.Wf :=
    wf_portalRun before (RunDb.wf_fresh connectors connectorSeq runSeq)
  have hrun : p = Portal.run after (Portal.run before (.fresh connectors connectorSeq runSeq)) :=
    List.foldl_append
  have h := calm_portalRun hafter hwf hcalm
  rw [← hrun] at h
  exact ⟨h.paused, fun creator target env now payload => if_neg (h.uncleared creator)⟩

/-! ## A connector that is paused while a worker has a run of it -/

namespace PausedErp

def connector (status : ConnectorStatus) : Connector where
  source := "erp"
  kind := "erp"
  displayName := "ERP"
  status := status
  scopeType := .global
  ownerUserId := none
  maintainerId := none
  id := 0
  lastRunAt := none
  lastSuccessAt := none
  createdAt := 0
  updatedAt := 0

/-- A run is queued and claimed by a worker for a minute, and then an admin pauses the connector. -/
def before : List (PortalOp Unit) :=
  [.clear .queue "erp", .create .queue "erp" "notifications" none 0 none,
    .call ⟨.claimNextQueued [] 1 "worker" 60, trivial⟩,
    .updateConnector 2 "erp" ⟨"erp", "ERP", .paused⟩]

/-- The run as it is queued. -/
def queued : ConnectorRun :=
  { Runtime.queuedRun 3 0 "erp" "notifications" .manual none none with id := 0 }

/-- The run as the worker has it. -/
def claimed : ConnectorRun := (RunUpdate.claim 1 "worker" 60).set queued

/-- The execution that stands for a payload that could not be loaded. -/
def unloaded : ConnectorExecution Unit where
  data := []
  items := []
  errors := [⟨none, "status is paused", none⟩]
  snapshotComplete := none
  archivedCount := 0

def after : List (PortalOp Unit) := [.finish 3 claimed unloaded (some "worker") 3]

theorem run_queued : Portal.run (before.take 2) (.fresh [connector .active] 1 0)
    = ⟨⟨[connector .active], [queued], 1, 1⟩, []⟩ := by
  rfl

theorem nextQueued_queued : ConnectorRunRepository.nextQueued [] 1 [queued] = some queued := by
  have hclaimable : [queued].filter (fun r => r.claimable 1 && r.id ∉ ([] : List Nat)) = [queued] :=
    by decide
  unfold ConnectorRunRepository.nextQueued
  rw [hclaimable, List.mergeSort_singleton]
  rfl

theorem run_before : Portal.run before (.fresh [connector .active] 1 0)
    = ⟨⟨[{ connector .paused with updatedAt := 2 }], [claimed], 1, 1⟩, []⟩ := by
  show Portal.run (before.drop 2) (Portal.run (before.take 2) (.fresh [connector .active] 1 0)) = _
  rw [run_queued]
  simp only [before, List.drop, Portal.run, List.foldl, PortalOp.exec, RunOp.exec, Query.commit,
    ConnectorRunRepository.claimNextQueued, nextQueued_queued]
  rfl

theorem run_after : (Portal.run (before ++ after) (.fresh [connector .active] 1 0)).db.connectors
    = [{ connector .error with lastRunAt := some 3, updatedAt := 3 }] := by
  show (Portal.run after (Portal.run before (.fresh [connector .active] 1 0))).db.connectors = _
  rw [run_before]
  rfl

end PausedErp

open PausedErp in
/-- **A pause is undone by the run a worker has.**  The payload is refused because the connector is
paused, the run fails for it, and the failure is written as the status of the connector. -/
theorem pause_overwritten_by_run :
    Paused "erp" (Portal.run before (.fresh [connector .active] 1 0)).db.connectors
    ∧ (∀ op ∈ after, ¬ op.Frees "erp")
    ∧ ¬ Paused "erp" (Portal.run (before ++ after) (.fresh [connector .active] 1 0)).db.connectors := by
  refine ⟨?_, ?_, ?_⟩
  · rw [run_before]
    exact ⟨_, rfl, rfl⟩
  · intro op hop
    obtain rfl := List.mem_singleton.mp hop
    exact id
  · rw [run_after]
    rintro ⟨c, hc, hpaused⟩
    obtain rfl := Option.some.inj hc
    cases hpaused

open PausedErp in
/-- A connector without runs, paused: the scheduler looks at it, and tries to create a run. -/
theorem paused_stays_paused_without_runs :
    Paused "erp" (Portal.run [PortalOp.clear .scheduler "erp",
      .create (α := Unit) .scheduler "erp" "notifications" none 1 none]
      (.fresh [connector .paused] 1 0)).db.connectors := by
  have hcalm : Calm "erp" (Portal.run ([] : List (PortalOp Unit)) (.fresh [connector .paused] 1 0)) :=
    ⟨⟨connector .paused, rfl, rfl⟩, fun r hr => (List.not_mem_nil hr).elim,
      fun creator => List.not_mem_nil⟩
  refine (paused_stays_paused [connector .paused] 1 0 [] _ "erp" hcalm fun op hop => ?_).1
  rcases List.mem_cons.mp hop with rfl | hop
  · exact id
  · obtain rfl := List.mem_singleton.mp hop
    exact id

end DevPortal
