import DevPortal.Config.Scheduler

/-!
# Config/Starvation — whom the scheduler leaves waiting

    due ─▸  b₁ … bₖ   h  …  c  …        b: left (`blocked`)   h: the first that is not
                      └──▸ moved behind c, by a minute at least

A pass reads ten schedules.  It gets to `h` if `k` is less than ten, and what it does is kept if all
that it moves can be moved (`enqueueDueScheduledRuns_isSome_iff`): then `h` is `c` itself, or one less is ahead of `c`
(`ahead_afterPass_lt`).  So the schedules ahead of it bound the passes that `c` waits (`ScheduleWaits.le`).
Where `k` is ten, or one of the ten has an interval out of reach, every pass ends as it began.
-/

namespace DevPortal

open ConnectorConfigRepository (sooner due findDueForSchedule markScheduled)

/-! ## The order -/

theorem sooner_trans {a b c : ConnectorConfig} (hab : sooner a b) (hbc : sooner b c) :
    sooner a c := by
  unfold sooner at *
  cases ha : a.nextRunAt <;> cases hb : b.nextRunAt <;> cases hc : c.nextRunAt <;>
    simp_all only [decide_eq_true_eq, Bool.false_eq_true]
  exact Int.le_trans hab hbc

theorem sooner_total (a b : ConnectorConfig) : sooner a b || sooner b a := by
  unfold sooner
  cases a.nextRunAt <;> cases b.nextRunAt <;> simp [Int.le_total]

/-- The schedules that are due come in order. -/
theorem pairwise_dueInOrder (now : DateTime) (configs : List ConnectorConfig) :
    (dueInOrder now configs).Pairwise fun a b => sooner a b := by
  refine List.pairwise_mergeSort ?_ sooner_total (configs.filter (due now))
  exact fun _ _ _ => sooner_trans

/-- An interval is a minute at least. -/
theorem le_of_effectiveScheduleIntervalSeconds {schedule : String} {interval : Int}
    (h : effectiveScheduleIntervalSeconds schedule = some interval) : 60 ≤ interval := by
  obtain ⟨k, -, rfl⟩ := Option.map_eq_some_iff.mp h
  exact Int.le_max_right k 60

/-! ## What a turn leaves to the next -/

/-- Runs of one source were added, and nothing else changed. -/
structure RunsAdded (source : String) (db db' : RunDb) : Prop where
  connectors : db'.connectors = db.connectors
  runs : ∃ added, db'.runs = db.runs ++ added ∧ ∀ run ∈ added, run.source = source

namespace RunsAdded

variable {source : String} {rdb rdb' : RunDb}

theorem refl (source : String) (rdb : RunDb) : RunsAdded source rdb rdb :=
  ⟨rfl, [], (List.append_nil _).symm, fun _ h => (List.not_mem_nil h).elim⟩

/-- Another source does not see it. -/
theorem hasPending_eq (h : RunsAdded source rdb rdb') {other : String} (hne : other ≠ source)
    (target : String) : ConnectorRunRepository.hasPending other target rdb'
      = ConnectorRunRepository.hasPending other target rdb := by
  obtain ⟨added, hadded, hsource⟩ := h.runs
  have hnone : ConnectorRunRepository.pendingFor other target added = [] := by
    refine List.filter_eq_nil_iff.mpr fun run hrun => ?_
    simp [hsource run hrun, hne.symm]
  unfold ConnectorRunRepository.hasPending
  unfold ConnectorRunRepository.pendingFor at *
  rw [hadded, List.filter_append, hnone, List.append_nil]

theorem blocked_eq {db db' : SchedulerDb} {config : ConnectorConfig}
    (h : RunsAdded source db.runDb db'.runDb) (hne : config.source ≠ source) :
    blocked db' config = blocked db config := by
  unfold blocked
  rw [h.connectors, h.hasPending_eq hne]

end RunsAdded

section Turns

variable {env : PassEnv} {config : ConnectorConfig} {db db' : SchedulerDb}
  {interval : Int} {enqueued enqueued' : Nat}

/-- A schedule that is moved, and what its turn has left behind it. -/
structure Moved (env : PassEnv) (config : ConnectorConfig) (calls : List ScheduleCall)
    (db db' : SchedulerDb) : Prop where
  moved : ∃ interval runId, 60 ≤ interval ∧ .markScheduled config.source runId ∈ calls ∧
    db'.configs = markScheduled env.transactionNow config.source env.now interval runId db.configs
  runs : RunsAdded config.source db.runDb db'.runDb

theorem moved_markConfig {runId : Option Nat} {calls : List ScheduleCall} {runDb : RunDb}
    (h : (markConfig env config.source interval runId enqueued { db with runDb := runDb }).outcome
      = some (enqueued', db'))
    (hinterval : 60 ≤ interval) (hcall : .markScheduled config.source runId ∈ calls)
    (hruns : RunsAdded config.source db.runDb runDb) : Moved env config calls db db' := by
  obtain ⟨t, -, heq⟩ := Option.map_eq_some_iff.mp h
  obtain ⟨-, rfl⟩ := Prod.mk.inj heq
  exact ⟨⟨interval, runId, hinterval, hcall, rfl⟩, hruns⟩

/-- A run that is created. -/
theorem runsAdded_createQueuedRun {run : ConnectorRun} {runDb : RunDb}
    (h : Runtime.createQueuedRun env.maxAttempts (env.startedAt config.source) config.source
      config.target .scheduled none db.runDb = .ok (some run, runDb)) :
    RunsAdded config.source db.runDb runDb := by
  simp only [Runtime.createQueuedRun, ConnectorRunRepository.createIfNoPending] at h
  split at h
  · cases h
  split at h
  · cases h
  · obtain ⟨-, rfl⟩ := Prod.mk.inj (Except.ok.inj h)
    refine ⟨rfl, [_], rfl, fun run' hrun' => ?_⟩
    obtain rfl := List.mem_singleton.mp hrun'
    rfl

theorem moved_createRun
    (h : (createRun env config interval enqueued db).outcome = some (enqueued', db'))
    (hinterval : 60 ≤ interval) :
    Moved env config (createRun env config interval enqueued db).calls db db' := by
  unfold createRun at h ⊢
  split at h
  · next hcreate =>
    exact moved_markConfig h hinterval (List.mem_cons_of_mem _ (List.mem_singleton.mpr rfl))
      (runsAdded_createQueuedRun hcreate)
  · cases h

/-- **What a turn does that goes through**: it leaves a schedule that is blocked, and moves any
other. -/
theorem enqueueDueConfig_cases
    (h : (enqueueDueConfig env config enqueued db).outcome = some (enqueued', db')) :
    (blocked db config ∧ db' = db) ∨ (blocked db config = false ∧
      Moved env config (enqueueDueConfig env config enqueued db).calls db db') := by
  cases hblocked : blocked db config with
  | true =>
    rw [enqueueDueConfig_of_blocked hblocked] at h
    obtain ⟨-, rfl⟩ := Prod.mk.inj (Option.some.inj h)
    exact .inl ⟨rfl, rfl⟩
  | false =>
    refine .inr ⟨rfl, ?_⟩
    unfold blocked at hblocked
    unfold enqueueDueConfig at h ⊢
    split at hblocked
    · cases hblocked
    next interval hcron =>
    obtain ⟨schedule, -, hread⟩ := Option.bind_eq_some_iff.mp hcron
    have hinterval := le_of_effectiveScheduleIntervalSeconds hread
    simp only [hcron] at h ⊢
    split at hblocked
    · next hconnector =>
      simp only [hconnector] at h ⊢
      exact moved_markConfig h hinterval (List.mem_singleton.mpr rfl) (.refl _ _)
    next connector hconnector =>
    simp only [hconnector] at h ⊢
    split at h
    · next hactive =>
      rw [if_pos hactive]
      exact moved_markConfig h hinterval (List.mem_singleton.mpr rfl) (.refl _ _)
    next hactive =>
    have hfree := (Bool.and_eq_false_iff.mp hblocked).resolve_left (by simpa using hactive)
    rw [if_neg (by simp [hfree])] at h
    rw [if_neg hactive, if_neg (by simp [hfree])]
    exact moved_createRun h hinterval

/-- What a turn left is no more blocked for the others, and no less. -/
theorem blocked_turn_eq {other : ConnectorConfig}
    (h : (enqueueDueConfig env config enqueued db).outcome = some (enqueued', db'))
    (hne : other.source ≠ config.source) : blocked db' other = blocked db other := by
  obtain ⟨-, rfl⟩ | ⟨-, hmoved⟩ := enqueueDueConfig_cases h
  · rfl
  · exact hmoved.runs.blocked_eq hne

/-- **What every turn keeps, a loop keeps.** -/
theorem enqueueDueConfigs_preserves {P : SchedulerDb → Prop} {turns : List ConnectorConfig}
    (hkeeps : ∀ {first db enqueued enqueued' db'},
      (enqueueDueConfig env first enqueued db).outcome = some (enqueued', db') → P db → P db')
    (h : (enqueueDueConfigs env turns enqueued db).outcome = some (enqueued', db')) (hdb : P db) :
    P db' := by
  induction turns generalizing enqueued db with
  | nil =>
    obtain ⟨-, rfl⟩ := Prod.mk.inj (Option.some.inj h)
    exact hdb
  | cons first turns ih =>
    rw [enqueueDueConfigs, Pass.andThen] at h
    cases hturn : (enqueueDueConfig env first enqueued db).outcome with
    | none =>
      simp only [hturn] at h
      cases h
    | some r =>
      simp only [hturn] at h
      exact ih h (hkeeps hturn hdb)

end Turns

/-! ## When a pass is kept -/

/-- The interval is a `Duration`, and the instant so far ahead a `DateTime`. -/
def InReach (now : DateTime) (interval : Int) : Prop :=
  interval ≤ i64Max / 1000 ∧ now + seconds interval ≤ seconds 8210266876799 + 999999

theorem nextRunAt_isSome_iff_inReach {now : DateTime} {interval : Int} :
    (nextRunAt now interval).isSome ↔ InReach now interval := by
  unfold nextRunAt InReach
  split
  · next h => exact ⟨fun _ => h, fun _ => rfl⟩
  · next h => exact ⟨fun hsome => (Bool.false_ne_true hsome).elim, fun hreach => absurd hreach h⟩

/-- The schedule is left, or its interval is in reach. -/
def Movable (now : DateTime) (db : SchedulerDb) (config : ConnectorConfig) : Prop :=
  blocked db config = false →
    ∀ interval ∈ config.scheduleCron.bind effectiveScheduleIntervalSeconds, InReach now interval

section Passes

variable {env : PassEnv} {config c : ConnectorConfig} {db db' : SchedulerDb}
  {configs : List ConnectorConfig} {enqueued : Nat}

theorem enqueueDueConfig_isSome_iff_movable :
    (enqueueDueConfig env config enqueued db).outcome.isSome ↔ Movable env.now db config := by
  unfold Movable
  cases hcron : config.scheduleCron.bind effectiveScheduleIntervalSeconds with
  | none =>
    have hblocked : blocked db config := by
      rw [blocked, hcron]
    rw [enqueueDueConfig_of_blocked hblocked]
    exact ⟨fun _ _ interval h => (Option.not_mem_none interval h).elim, fun _ => rfl⟩
  | some interval =>
    rw [enqueueDueConfig_isSome_iff hcron, nextRunAt_isSome_iff_inReach]
    cases blocked db config <;> simp

/-- **A loop goes through** if it can move what it does not leave: no turn changes that for the
schedules of other connectors. -/
theorem enqueueDueConfigs_isSome_iff (hkeyed : (configs.map ConnectorConfig.source).Nodup) :
    (enqueueDueConfigs env configs enqueued db).outcome.isSome
      ↔ ∀ c ∈ configs, Movable env.now db c := by
  induction configs generalizing enqueued db with
  | nil => exact ⟨fun _ c h => (List.not_mem_nil h).elim, fun _ => rfl⟩
  | cons config configs ih =>
    obtain ⟨hnew, hkeyed⟩ := List.nodup_cons.mp hkeyed
    rw [List.forall_mem_cons, enqueueDueConfigs, Pass.andThen]
    have hfirst : (enqueueDueConfig env config enqueued db).outcome.isSome ↔ Movable env.now db config :=
      enqueueDueConfig_isSome_iff_movable
    rw [← hfirst]
    cases hturn : (enqueueDueConfig env config enqueued db).outcome with
    | none => simp [hturn]
    | some r =>
      obtain ⟨enqueued', db'⟩ := r
      have hsame : ∀ c ∈ configs, (Movable env.now db' c ↔ Movable env.now db c) := fun c hc => by
        have hne : c.source ≠ config.source := fun heq => hnew (heq ▸ List.mem_map_of_mem hc)
        rw [Movable, Movable, blocked_turn_eq hturn hne]
      simp only [Option.isSome_some, true_and]
      rw [ih hkeyed]
      exact forall₂_congr hsame

theorem keyed_dueInOrder (hkeyed : Table.Keyed ConnectorConfig.source configs) (now : DateTime) :
    ((dueInOrder now configs).map ConnectorConfig.source).Nodup :=
  ((List.mergeSort_perm _ _).map _).nodup_iff.mpr
    (hkeyed.sublist (List.filter_sublist.map ConnectorConfig.source))

/-- **A pass gets on**: fewer than ten blocked schedules are due before the first that is not, and
what it would move of the ten has an interval in reach. -/
structure PassClear (env : PassEnv) (db : SchedulerDb) : Prop where
  window : ((dueInOrder env.now db.configs).takeWhile (blocked db)).length < 10
  movable : ∀ c ∈ findDueForSchedule env.now 10 db.configs, Movable env.now db c

/-- The tables after a pass: what an error or a panic rolled back is as it was. -/
def afterPass (env : PassEnv) (db : SchedulerDb) : SchedulerDb :=
  ((enqueueDueScheduledRuns env db).outcome.map Prod.snd).getD db

/-- The pass has created the run of a schedule. -/
def Scheduled (env : PassEnv) (db : SchedulerDb) (config : ConnectorConfig) : Prop :=
  (enqueueDueScheduledRuns env db).outcome.isSome ∧
    .createQueuedRun config.source config.target ∈ (enqueueDueScheduledRuns env db).calls

/-- **When a pass is kept.** -/
theorem enqueueDueScheduledRuns_isSome_iff (hkeyed : Table.Keyed ConnectorConfig.source db.configs) :
    (enqueueDueScheduledRuns env db).outcome.isSome
      ↔ ∀ c ∈ findDueForSchedule env.now 10 db.configs, Movable env.now db c :=
  enqueueDueConfigs_isSome_iff
    ((keyed_dueInOrder hkeyed env.now).sublist ((List.take_sublist 10 _).map ConnectorConfig.source))

/-- A schedule that is ready gets its run. -/
theorem ConfigReady.createQueuedRun_mem (h : ConfigReady env.now db config) :
    .createQueuedRun config.source config.target ∈ (enqueueDueConfig env config enqueued db).calls := by
  obtain ⟨cron, hcron, hinterval⟩ := h.schedule
  obtain ⟨interval, hinterval⟩ := Option.isSome_iff_exists.mp hinterval
  obtain ⟨connector, hconnector, hactive⟩ := h.connector
  have hbind : config.scheduleCron.bind effectiveScheduleIntervalSeconds = some interval := by
    rw [hcron]
    exact hinterval
  simp only [enqueueDueConfig, hbind, hconnector]
  rw [if_neg (by simp [hactive, h.enabled]), if_neg (by simp [h.free])]
  unfold createRun
  split
  · exact List.mem_cons_self ..
  · exact List.mem_singleton.mpr rfl

/-- **The first schedule that is not blocked**: it is among the ten, and comes before any that is
ready, if it is not that. -/
theorem PassClear.first (h : PassClear env db) (hmem : c ∈ db.configs)
    (hready : ConfigReady env.now db c) : ∃ before first rest,
      findDueForSchedule env.now 10 db.configs = before ++ first :: rest ∧
        (∀ b ∈ before, blocked db b) ∧ blocked db first = false ∧ first ∈ db.configs ∧
          (c = first ∨ sooner first c) := by
  obtain ⟨before, first, rest, hdue, ⟨rest', hwindow⟩, hbefore, hfirst, hc⟩ :=
    Table.exists_first_not (hready.mem_dueInOrder hmem) hready.not_blocked h.window
  refine ⟨before, first, rest', hwindow, hbefore, hfirst, ?_, ?_⟩
  · have hin : first ∈ dueInOrder env.now db.configs := by
      rw [hdue]
      exact List.mem_append_right _ (List.mem_cons_self ..)
    exact (mem_dueInOrder.mp hin).1
  · have hsorted := pairwise_dueInOrder env.now db.configs
    rw [hdue] at hsorted
    refine (List.mem_cons.mp hc).imp id fun hrest => ?_
    exact List.rel_of_pairwise_cons (List.pairwise_append.mp hsorted).2.1 hrest

end Passes

/-! ## The schedules ahead of one -/

/-- The schedules of the other connectors that come no later than this one. -/
def ahead (c : ConnectorConfig) (configs : List ConnectorConfig) : List ConnectorConfig :=
  configs.filter fun r => r.source ≠ c.source && sooner r c

section Ahead

variable {env : PassEnv} {c first : ConnectorConfig} {db db' : SchedulerDb} {t : DateTime}
  {configs : List ConnectorConfig} {enqueued enqueued' : Nat}

/-- An update that puts nobody ahead leaves no more of them. -/
theorem length_ahead_update_le {p : ConnectorConfig → Bool} {f : ConnectorConfig → ConnectorConfig}
    (hsource : ∀ r, (f r).source = r.source) (hsooner : ∀ r, sooner (f r) c → sooner r c) :
    (ahead c (Table.update p f configs)).length ≤ (ahead c configs).length := by
  rw [ahead, Table.update, List.filter_map, List.length_map]
  refine (List.monotone_filter_right configs fun r hr => ?_).length_le
  simp only [Function.comp_apply, Bool.and_eq_true] at hr ⊢
  split at hr
  · exact ⟨hsource r ▸ hr.1, hsooner r hr.2⟩
  · exact hr

theorem not_sooner_of_later {r : ConnectorConfig} (hc : c.nextRunAt = some t)
    (hr : ∀ u ∈ r.nextRunAt, t < u) : sooner r c = false := by
  unfold sooner
  rw [hc]
  cases hnext : r.nextRunAt with
  | none => rfl
  | some u => exact decide_eq_false (Int.not_le.mpr (hr u hnext))

/-- **What is moved is no longer ahead.** -/
theorem ahead_markScheduled (hc : c.nextRunAt = some t) {now scheduledAt : DateTime}
    (hdue : t ≤ scheduledAt) {interval : Int} (hinterval : 60 ≤ interval) {source : String}
    {runId : Option Nat} :
    (ahead c (markScheduled now source scheduledAt interval runId configs)).length
      = ((ahead c configs).filter fun r => r.source ≠ source).length := by
  have hpos : 0 < seconds interval :=
    Int.mul_pos (Int.lt_of_lt_of_le (by decide) hinterval) (by decide)
  have hlater : t < scheduledAt + seconds interval :=
    Int.lt_of_le_of_lt hdue (Int.lt_add_of_pos_right _ hpos)
  rw [ahead, markScheduled, Table.update, List.filter_map, List.length_map, ahead, List.filter_filter]
  refine congrArg List.length (List.filter_congr fun r _ => ?_)
  by_cases hsource : r.source = source
  · have hbehind : ∀ r' : ConnectorConfig, r'.nextRunAt = some (scheduledAt + seconds interval) →
        sooner r' c = false := fun r' hr' => not_sooner_of_later hc fun u hu => by
      rw [hr'] at hu
      exact Option.some.inj hu ▸ hlater
    simp [hsource, hbehind]
  · simp [hsource]

/-- A turn puts nobody ahead. -/
theorem ahead_turn_le (hc : c.nextRunAt = some t) (hdue : t ≤ env.now)
    (h : (enqueueDueConfig env first enqueued db).outcome = some (enqueued', db')) :
    (ahead c db'.configs).length ≤ (ahead c db.configs).length := by
  obtain ⟨-, rfl⟩ | ⟨-, hmoved⟩ := enqueueDueConfig_cases h
  · exact Nat.le_refl _
  · obtain ⟨interval, runId, hinterval, -, hconfigs⟩ := hmoved.moved
    rw [hconfigs, ahead_markScheduled hc hdue hinterval]
    exact List.length_filter_le _ _

/-- The turn of one that is ahead leaves one less. -/
theorem ahead_turn_lt (hc : c.nextRunAt = some t) (hdue : t ≤ env.now)
    (h : (enqueueDueConfig env first enqueued db).outcome = some (enqueued', db'))
    (hblocked : blocked db first = false) (hfirst : first ∈ ahead c db.configs) :
    (ahead c db'.configs).length < (ahead c db.configs).length := by
  obtain ⟨htrue, -⟩ | ⟨-, hmoved⟩ := enqueueDueConfig_cases h
  · rw [hblocked] at htrue
    cases htrue
  · obtain ⟨interval, runId, hinterval, -, hconfigs⟩ := hmoved.moved
    rw [hconfigs, ahead_markScheduled hc hdue hinterval]
    exact List.length_filter_lt_length_iff_exists.mpr ⟨first, hfirst, by simp⟩

theorem ahead_turns_le (hc : c.nextRunAt = some t) (hdue : t ≤ env.now)
    {turns : List ConnectorConfig}
    (h : (enqueueDueConfigs env turns enqueued db).outcome = some (enqueued', db')) :
    (ahead c db'.configs).length ≤ (ahead c db.configs).length :=
  enqueueDueConfigs_preserves (P := fun d => (ahead c d.configs).length ≤ (ahead c db.configs).length)
    (fun hturn hle => (ahead_turn_le hc hdue hturn).trans hle) h (Nat.le_refl _)

end Ahead

/-! ## Whom a pass serves -/

/-- The pass has moved a schedule, with or without a run. -/
def Served (env : PassEnv) (db : SchedulerDb) (config : ConnectorConfig) : Prop :=
  (enqueueDueScheduledRuns env db).outcome.isSome ∧
    ∃ runId, .markScheduled config.source runId ∈ (enqueueDueScheduledRuns env db).calls

section Serves

variable {env : PassEnv} {c : ConnectorConfig} {db : SchedulerDb} {t : DateTime}

theorem enqueueDueConfigs_append {before rest : List ConnectorConfig}
    (h : ∀ b ∈ before, blocked db b) (enqueued : Nat) :
    enqueueDueConfigs env (before ++ rest) enqueued db = enqueueDueConfigs env rest enqueued db := by
  induction before with
  | nil => rfl
  | cons b before ih =>
    rw [List.cons_append, enqueueDueConfigs, enqueueDueConfig_of_blocked (h b (List.mem_cons_self ..)),
      Pass.skip_andThen]
    exact ih fun b' hb' => h b' (List.mem_cons_of_mem _ hb')

/-- **The turn a pass gets to**: that of the schedule that is ready, or of one ahead of it. -/
theorem PassClear.turn (h : PassClear env db) (hkeyed : Table.Keyed ConnectorConfig.source db.configs)
    (hmem : c ∈ db.configs) (hready : ConfigReady env.now db c) :
    ∃ first rest enqueued db' r, (c = first ∨ first ∈ ahead c db.configs) ∧ first ∈ db.configs ∧
      blocked db first = false ∧
      (enqueueDueConfig env first 0 db).outcome = some (enqueued, db') ∧
      (enqueueDueConfigs env rest enqueued db').outcome = some r ∧
      enqueueDueScheduledRuns env db
        = ⟨(enqueueDueConfig env first 0 db).calls ++ (enqueueDueConfigs env rest enqueued db').calls,
          some r⟩ := by
  obtain ⟨before, first, rest, hwindow, hbefore, hfirst, hin, hc⟩ := h.first hmem hready
  have hpass : enqueueDueScheduledRuns env db
      = (enqueueDueConfig env first 0 db).andThen (enqueueDueConfigs env rest) := by
    rw [enqueueDueScheduledRuns, hwindow, enqueueDueConfigs_append hbefore, enqueueDueConfigs]
  have hkept : (enqueueDueScheduledRuns env db).outcome.isSome :=
    (enqueueDueScheduledRuns_isSome_iff hkeyed).mpr h.movable
  rw [hpass, Pass.andThen] at hkept ⊢
  cases hturn : (enqueueDueConfig env first 0 db).outcome with
  | none =>
    simp only [hturn] at hkept
    cases hkept
  | some r =>
    obtain ⟨enqueued, db'⟩ := r
    simp only [hturn] at hkept ⊢
    obtain ⟨r, hr⟩ := Option.isSome_iff_exists.mp hkept
    refine ⟨first, rest, enqueued, db', r, ?_, hin, hfirst, hturn, hr, by rw [hr]⟩
    refine (em (c = first)).imp id fun hne => List.mem_filter.mpr ⟨hin, ?_⟩
    have hsource : first.source ≠ c.source := fun heq => hne (Table.eq_of_key_eq hkeyed hmem hin heq.symm)
    simpa [hsource] using hc.resolve_left hne

/-- **A clear pass serves**: it schedules the one that is ready, or moves one that is ahead. -/
theorem PassClear.serves (h : PassClear env db)
    (hkeyed : Table.Keyed ConnectorConfig.source db.configs) (hmem : c ∈ db.configs)
    (hready : ConfigReady env.now db c) :
    (Scheduled env db c ∧ Served env db c) ∨ ∃ r ∈ ahead c db.configs, Served env db r := by
  obtain ⟨first, rest, enqueued, db', r, hc, -, hfirst, hturn, -, hpass⟩ := h.turn hkeyed hmem hready
  have hserved : Served env db first := by
    obtain ⟨htrue, -⟩ | ⟨-, hmoved⟩ := enqueueDueConfig_cases hturn
    · rw [hfirst] at htrue
      cases htrue
    · obtain ⟨interval, runId, -, hcall, -⟩ := hmoved.moved
      rw [Served, hpass]
      exact ⟨rfl, runId, List.mem_append_left _ hcall⟩
  rcases hc with rfl | hahead
  · refine .inl ⟨?_, hserved⟩
    rw [Scheduled, hpass]
    exact ⟨rfl, List.mem_append_left _ hready.createQueuedRun_mem⟩
  · exact .inr ⟨first, hahead, hserved⟩

/-- **One less is ahead** after a clear pass that has not scheduled it. -/
theorem ahead_afterPass_lt (h : PassClear env db)
    (hkeyed : Table.Keyed ConnectorConfig.source db.configs) (hmem : c ∈ db.configs)
    (hready : ConfigReady env.now db c) (hc : c.nextRunAt = some t) (hmissed : ¬ Scheduled env db c) :
    (ahead c (afterPass env db).configs).length < (ahead c db.configs).length := by
  obtain ⟨first, rest, enqueued, db', r, hfirst, -, hblocked, hturn, hrest, hpass⟩ :=
    h.turn hkeyed hmem hready
  have hdue := hready.due t (by rw [hc]; rfl)
  have hafter : afterPass env db = r.2 := by
    rw [afterPass, hpass]
    rfl
  rcases hfirst with rfl | hahead
  · refine absurd ?_ hmissed
    rw [Scheduled, hpass]
    exact ⟨rfl, List.mem_append_left _ hready.createQueuedRun_mem⟩
  · rw [hafter]
    exact Nat.lt_of_le_of_lt (ahead_turns_le hc hdue hrest) (ahead_turn_lt hc hdue hturn hblocked hahead)

end Serves

/-! ## Repeated passes -/

/-- What others write between two passes, after the instant `t`: any connectors and runs; and of the
configs, what the admins save, an authorisation stores, a deletion takes with it and the demo data
postpones. -/
inductive Others (t : DateTime) (db : SchedulerDb) : SchedulerDb → Prop
  | runs (runDb : RunDb) : Others t db { db with runDb := runDb }
  | upsertBySource (now : DateTime) (id : Nat) (source : String) (update : ConnectorConfigUpdate)
      (h : t < now) : Others t db { db with
        configs := ConnectorConfigRepository.upsertBySource now id source update db.configs }
  | updateConfig (now : DateTime) (source config : String) : Others t db { db with
      configs := ConnectorConfigRepository.updateConfig now source config db.configs }
  | deleted (source : String) (runDb : RunDb) : Others t db
      ⟨Table.delete (fun c => c.source = source) db.configs, runDb⟩
  | postponed (now : DateTime) (source : String) (h : t < now) : Others t db { db with
      configs := Table.update (fun c => c.source = source)
        (fun c => { c with nextRunAt := some (now + seconds 900) }) db.configs }

/-- **A schedule that waits**: it is ready before each of `n` passes that satisfy `P`, none of them
schedules it, and others write what they like in between. -/
inductive ScheduleWaits (P : PassEnv → SchedulerDb → Prop) (t : DateTime) (c : ConnectorConfig) :
    Nat → SchedulerDb → SchedulerDb → Prop
  | refl (db : SchedulerDb) : ScheduleWaits P t c 0 db db
  | pass {n : Nat} {db mid : SchedulerDb} (env : PassEnv) (h : ScheduleWaits P t c n db mid)
      (hmem : c ∈ mid.configs) (hready : ConfigReady env.now mid c) (hpass : P env mid)
      (hmissed : ¬ Scheduled env mid c) : ScheduleWaits P t c (n + 1) db (afterPass env mid)
  | others {n : Nat} {db mid db' : SchedulerDb} (h : ScheduleWaits P t c n db mid) (ho : Others t mid db') :
      ScheduleWaits P t c n db db'

section Waiting

variable {env : PassEnv} {c : ConnectorConfig} {db db' : SchedulerDb} {t : DateTime} {n : Nat}

theorem keyed_turn {first : ConnectorConfig} {enqueued enqueued' : Nat}
    (h : (enqueueDueConfig env first enqueued db).outcome = some (enqueued', db'))
    (hkeyed : Table.Keyed ConnectorConfig.source db.configs) :
    Table.Keyed ConnectorConfig.source db'.configs := by
  obtain ⟨-, rfl⟩ | ⟨-, hmoved⟩ := enqueueDueConfig_cases h
  · exact hkeyed
  · obtain ⟨interval, runId, -, -, hconfigs⟩ := hmoved.moved
    rw [hconfigs]
    refine Table.keyed_update ?_ hkeyed
    exact fun _ => rfl

theorem keyed_afterPass (hkeyed : Table.Keyed ConnectorConfig.source db.configs) :
    Table.Keyed ConnectorConfig.source (afterPass env db).configs := by
  unfold afterPass
  cases h : (enqueueDueScheduledRuns env db).outcome with
  | none => exact hkeyed
  | some r =>
    exact enqueueDueConfigs_preserves (P := fun d => Table.Keyed ConnectorConfig.source d.configs)
      keyed_turn h hkeyed

theorem Others.keyed (h : Others t db db') (hkeyed : Table.Keyed ConnectorConfig.source db.configs) :
    Table.Keyed ConnectorConfig.source db'.configs := by
  cases h with
  | runs runDb => exact hkeyed
  | upsertBySource now id source update hlater =>
    show Table.Keyed _ (ConnectorConfigRepository.upsertBySource now id source update db.configs)
    unfold ConnectorConfigRepository.upsertBySource
    split
    · refine Table.keyed_update ?_ hkeyed
      exact fun _ => rfl
    · next hnone => exact Table.keyed_concat hkeyed hnone
  | updateConfig now source config =>
    refine Table.keyed_update ?_ hkeyed
    exact fun _ => rfl
  | deleted source runDb => exact Table.keyed_delete hkeyed
  | postponed now source hlater =>
    refine Table.keyed_update ?_ hkeyed
    exact fun _ => rfl

/-- **The others put nobody ahead.** -/
theorem Others.ahead_le (h : Others t db db') (hc : c.nextRunAt = some t) :
    (ahead c db'.configs).length ≤ (ahead c db.configs).length := by
  -- what is saved is due when it was saved, or never
  have hsaved : ∀ (r : ConnectorConfig) (now : DateTime) (update : ConnectorConfigUpdate),
      r.nextRunAt = (if update.scheduleCron.isSome then some now else none) → t < now →
        sooner r c = false := fun r now update hr hlater => not_sooner_of_later hc fun u hu => by
    rw [hr] at hu
    split at hu
    · exact Option.some.inj hu ▸ hlater
    · cases hu
  cases h with
  | runs runDb => exact Nat.le_refl _
  | upsertBySource now id source update hlater =>
    show (ahead c (ConnectorConfigRepository.upsertBySource now id source update db.configs)).length ≤ _
    unfold ConnectorConfigRepository.upsertBySource
    split
    · refine length_ahead_update_le (fun _ => rfl) fun r hr => ?_
      rw [hsaved _ now update rfl hlater] at hr
      cases hr
    · rw [ahead, List.filter_append, List.filter_cons_of_neg (by rw [hsaved _ now update rfl hlater]; simp)]
      simp [ahead]
  | updateConfig now source config => exact length_ahead_update_le (fun _ => rfl) fun _ hr => hr
  | deleted source runDb => exact (List.filter_sublist.filter _).length_le
  | postponed now source hlater =>
    have hbehind : ∀ u ∈ some (now + seconds 900), t < u := fun u hu =>
      Option.some.inj hu ▸ Int.lt_trans hlater (Int.lt_add_of_pos_right _ (by decide))
    refine length_ahead_update_le (fun _ => rfl) fun r hr => ?_
    rw [not_sooner_of_later hc hbehind] at hr
    cases hr

/-- **How long a schedule waits**: no longer than there are schedules ahead of it. -/
theorem ScheduleWaits.le (h : ScheduleWaits PassClear t c n db db')
    (hkeyed : Table.Keyed ConnectorConfig.source db.configs) (hc : c.nextRunAt = some t) :
    Table.Keyed ConnectorConfig.source db'.configs ∧
      n + (ahead c db'.configs).length ≤ (ahead c db.configs).length := by
  induction h with
  | refl db => exact ⟨hkeyed, by rw [Nat.zero_add]⟩
  | pass env _ hmem hready hclear hmissed ih =>
    obtain ⟨hmid, hle⟩ := ih hkeyed
    have hlt := ahead_afterPass_lt hclear hmid hmem hready hc hmissed
    exact ⟨keyed_afterPass hmid, by omega⟩
  | others _ ho ih =>
    obtain ⟨hmid, hle⟩ := ih hkeyed
    exact ⟨ho.keyed hmid, (Nat.add_le_add_left (ho.ahead_le hc) _).trans hle⟩

end Waiting

namespace Backlog

def sources : List String := ["a", "b", "c", "d", "e", "f", "g", "h", "i", "j"]

def connector (source : String) : Connector where
  source := source
  kind := "erp"
  displayName := source
  status := .active
  scopeType := .global
  ownerUserId := none
  maintainerId := none
  id := 0
  lastRunAt := none
  lastSuccessAt := none
  createdAt := 0
  updatedAt := 0

def config (source : String) (nextRunAt : DateTime) : ConnectorConfig where
  target := "work_cards"
  enabled := true
  scheduleCron := some "@every 5m"
  config := "\x7b\x7d"
  samplePayload := "\x7b\x7d"
  id := 0
  source := source
  createdAt := 0
  updatedAt := 0
  lastScheduledAt := none
  nextRunAt := some nextRunAt
  lastScheduledRunId := none

/-- A run that is queued. -/
def queued (source : String) : ConnectorRun :=
  { Runtime.queuedRun 3 0 source "work_cards" .manual none none with id := 0 }

/-- Ten schedules, due at zero, and one that is due a moment later; some have a queued run. -/
def db (pending : List String) : SchedulerDb where
  configs := sources.map (config · 0) ++ [config "late" 1]
  runDb := ⟨(sources ++ ["late"]).map connector, pending.map queued, 11, 10⟩

def env : PassEnv where
  maxAttempts := none
  now := 1
  transactionNow := 1
  startedAt _ := 1

theorem keyed (pending : List String) : Table.Keyed ConnectorConfig.source (db pending).configs := by
  show ((db []).configs.map ConnectorConfig.source).Nodup
  decide

theorem interval : effectiveScheduleIntervalSeconds "@every 5m" = some 300 := by decide +kernel

/-- What is pending. -/
theorem hasPending_db (pending : List String) (source : String) :
    ConnectorRunRepository.hasPending source "work_cards" (db pending).runDb
      = decide (source ∈ pending) := by
  rw [ConnectorRunRepository.hasPending, decide_eq_decide, List.length_pos_iff_exists_mem]
  simp only [ConnectorRunRepository.pendingFor, db, List.mem_filter, List.mem_map]
  constructor
  · rintro ⟨run, ⟨source', hmem, rfl⟩, hrun⟩
    have hsource : source' = source :=
      of_decide_eq_true (Bool.and_eq_true_iff.mp (Bool.and_eq_true_iff.mp hrun).1).1
    exact hsource ▸ hmem
  · exact fun hmem => ⟨queued source, ⟨source, hmem, rfl⟩, by simp [queued, Runtime.queuedRun, RunStatus.pending]⟩

/-- Whoever has no run is ready. -/
theorem ready (pending : List String) (h : "late" ∉ pending) :
    ConfigReady 1 (db pending) (config "late" 1) where
  enabled := rfl
  schedule := ⟨"@every 5m", rfl, by rw [interval]; rfl⟩
  due := fun t ht => by
    obtain rfl := Option.some.inj ht
    exact Int.le_refl 1
  connector := ⟨connector "late", rfl, fun h => by cases h⟩
  free := (hasPending_db pending "late").trans (decide_eq_false h)

theorem due_config (source : String) {t now : DateTime} (h : t ≤ now) :
    due now (config source t) := by
  simpa [due, config] using h

/-- The order of the schedules is that of the table. -/
theorem dueInOrder_db (pending : List String) {now : DateTime} (h : 1 ≤ now) :
    dueInOrder now (db pending).configs = (db pending).configs := by
  have hdue : (db pending).configs.filter (due now) = (db pending).configs := by
    refine List.filter_eq_self.mpr fun c hc => ?_
    rcases List.mem_append.mp hc with hc | hc
    · obtain ⟨source, -, rfl⟩ := List.mem_map.mp hc
      exact due_config source (Int.le_trans Int.one_nonneg h)
    · obtain rfl := List.mem_singleton.mp hc
      exact due_config "late" h
  have hsorted : (db pending).configs.Pairwise fun a b => sooner a b := by
    show (db []).configs.Pairwise fun a b => sooner a b
    decide
  rw [dueInOrder, hdue, List.mergeSort_of_pairwise hsorted]

/-- The last one is not among the ten. -/
theorem window (pending : List String) {now : DateTime} (h : 1 ≤ now) :
    findDueForSchedule now 10 (db pending).configs = sources.map (config · 0) := by
  show (dueInOrder now (db pending).configs).take 10 = _
  rw [dueInOrder_db pending h]
  rfl

end Backlog

end DevPortal
