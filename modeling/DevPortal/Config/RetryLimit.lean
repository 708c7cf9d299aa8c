import DevPortal.Config.Settings

/-!
# Config/RetryLimit — the retry limit that is validated, and the one that is used

    CONNECTOR_RUN_MAX_ATTEMPTS ▸ trim ▸ u64          (`ConnectorRunLeasePolicy::from_env`)
    CONNECTOR_RUN_MAX_ATTEMPTS ▸ i32, or else 3      (`configured_connector_run_max_attempts`)

Only the first reader trims.  A value in white space is accepted by it, and the runs are queued with
the default.
-/

namespace DevPortal

namespace RetryLimit

/-- The variable both read. -/
def variableName : String := "CONNECTOR_RUN_MAX_ATTEMPTS"

/-! ## The two parsers -/

/-- The decimal digits, as both parsers read them. -/
theorem digits_eq (cs : List Char) :
    (if cs.isEmpty || !cs.all Char.isDigit then none
      else some (cs.foldl (fun n c => 10 * n + (c.toNat - '0'.toNat)) 0)) =
      if !cs.isEmpty && cs.all Char.isDigit then some (Nat.ofDigitChars 10 cs 0) else none := by
  rw [Nat.ofDigitChars_eq_foldl]
  cases cs.isEmpty <;> cases cs.all Char.isDigit <;> rfl

theorem map_cast (digits : Option Nat) : (digits.bind fun n => some (n : Int)) = digits.map Int.ofNat := by
  cases digits <;> rfl

/-- `str::parse::<i32>` is the number, within the range. -/
theorem parseI32_eq (s : String) :
    parseI32 s = (Text.parseInt s).filter fun n => -2147483648 ≤ n && n ≤ i32Max := by
  simp only [parseI32, Text.parseInt, digits_eq, Option.bind_eq_bind, Option.pure_def, map_cast,
    Option.map_id'] <;> rfl

theorem isWhitespace_of_isDigit {c : Char} (h : c.isDigit) : Text.isWhitespace c = false := by
  simp only [Char.isDigit, Bool.and_eq_true, decide_eq_true_eq, ge_iff_le,
    UInt32.le_iff_toNat_le] at h
  have hlow : 48 ≤ c.toNat := h.1
  have hhigh : c.toNat ≤ 57 := h.2
  simp only [Text.isWhitespace, Bool.or_eq_false_iff, Bool.and_eq_false_iff, decide_eq_false_iff_not]
  omega

/-- A number is written without white space. -/
theorem isWhitespace_of_parseInt {s : String} {n : Int} (h : Text.parseInt s = some n) :
    ∀ c ∈ s.toList, Text.isWhitespace c = false := by
  have hdigits : ∀ cs : List Char,
      ((if !cs.isEmpty && cs.all Char.isDigit then some (Nat.ofDigitChars 10 cs 0) else none)
        : Option Nat).isSome → ∀ c ∈ cs, Text.isWhitespace c = false := by
    intro cs hcs c hc
    split at hcs
    · next hall =>
      rw [Bool.and_eq_true, List.all_eq_true] at hall
      exact isWhitespace_of_isDigit (hall.2 c hc)
    · cases hcs
  have hsome : (Text.parseInt s).isSome := by rw [h]; rfl
  simp only [Text.parseInt, Option.bind_eq_bind, Option.pure_def, map_cast] at hsome
  generalize s.toList = cs at hsome ⊢
  split at hsome
  · rw [Option.isSome_map, Option.isSome_map] at hsome
    exact List.forall_mem_cons.mpr ⟨rfl, hdigits _ hsome⟩
  · rw [Option.isSome_map] at hsome
    exact List.forall_mem_cons.mpr ⟨rfl, hdigits _ hsome⟩
  · rw [Option.isSome_map] at hsome
    exact hdigits _ hsome

theorem trim_of_parseInt {s : String} {n : Int} (h : Text.parseInt s = some n) :
    Text.trim s = s := Text.trim_of_forall (isWhitespace_of_parseInt h)

/-! ## What each reader finds -/

theorem of_eq_some {m : Nat} {n : PositiveU64} (h : PositiveU64.of m = some n) : n.val = m := by
  rw [PositiveU64.of] at h
  split at h
  · exact congrArg Subtype.val (Option.some.inj h).symm
  · cases h

/-- What `strict_positive_env_u64` takes from a value is what the trimmed value says. -/
theorem parseInt_of_strictPositive {env : Environment} {name s : String} {default n : PositiveU64}
    (hvar : env name = .value s) (h : strictPositiveEnvU64 env name default = .ok n) :
    Text.parseInt (Text.trim s) = some (n.val : Int) := by
  simp only [strictPositiveEnvU64, hvar] at h
  split at h
  · next m hm =>
    obtain rfl := Except.ok.inj h
    obtain ⟨k, hk, hof⟩ := Option.bind_eq_some_iff.mp hm
    rw [of_eq_some hof]
    rw [parseU64] at hk
    split at hk
    · cases hk
    · next hminus =>
      obtain ⟨i, hi, rfl⟩ := Option.map_eq_some_iff.mp (Option.filter_eq_some_iff.mp hk).1
      rw [hi, Int.toNat_of_nonneg]
      have hpos := m.property.1
      rw [of_eq_some hof] at hpos
      omega
  · cases h

/-- The value of the fifth reading. -/
theorem maxAttempts_eq {env : Environment} {readings : LeaseReadings}
    (h : LeaseReadings.fromEnv env = .ok readings) :
    strictPositiveEnvU64 env variableName (defaultMaxAttempts env) = .ok readings.maxAttempts := by
  simp only [LeaseReadings.fromEnv, bind, Except.bind] at h
  iterate 4 (split at h; · cases h)
  split at h
  · cases h
  · next maxAttempts hread =>
    split at h
    · split at h
      · split at h
        · obtain rfl := Except.ok.inj h
          exact hread
        · cases h
      · cases h
    · cases h

/-- `configured_connector_run_max_attempts`, of a value that says a number it can take. -/
theorem configured_of_parseInt {s : String} {n : Int} (h : Text.parseInt s = some n) (hpos : 0 < n)
    (hle : n ≤ i32Max) : configuredConnectorRunMaxAttempts (some s) = n := by
  have hmin : (-2147483648 : Int) ≤ n := by omega
  have hi32 : parseI32 s = some n := by
    rw [parseI32_eq, h]
    simp [Option.filter, hmin, hle]
  simp [configuredConnectorRunMaxAttempts, hi32, Option.filter, hpos]

/-- And of one it cannot read. -/
theorem configured_of_none {s : String} (h : Text.parseInt s = none) :
    configuredConnectorRunMaxAttempts (some s) = 3 := by
  simp [configuredConnectorRunMaxAttempts, parseI32_eq, h]

/-- **The default of the worker is the limit the runs get.** -/
theorem defaultMaxAttempts_val (env : Environment) (h : env variableName = .notPresent) :
    ((defaultMaxAttempts env).val : Int)
      = configuredConnectorRunMaxAttempts (env variableName).ok := by
  have hvar : env "CONNECTOR_RUN_MAX_ATTEMPTS" = .notPresent := h
  rw [h]
  simp only [defaultMaxAttempts, hvar]
  rfl

/-! ## When they agree -/

/-- **The limit that was validated is the one that is used**: for the setting itself, and for every
run that is queued. -/
def Used (env : Environment) (readings : LeaseReadings) : Prop :=
  (readings.maxAttempts.val : Int) = configuredConnectorRunMaxAttempts (env variableName).ok ∧
    ∀ (startedAt : DateTime) (source target : String) (trigger : RunTrigger)
      (payload : Option String) (db db' : RunDb) (run : ConnectorRun),
      Runtime.createQueuedRun (env variableName).ok startedAt source target trigger payload db
        = .ok (some run, db') → run.maxAttempts = readings.maxAttempts.val

/-- A queued run gets what `configured_connector_run_max_attempts` returns. -/
theorem maxAttempts_createQueuedRun {var : Option String} {startedAt : DateTime}
    {source target : String} {trigger : RunTrigger} {payload : Option String} {db db' : RunDb}
    {run : ConnectorRun}
    (h : Runtime.createQueuedRun var startedAt source target trigger payload db
      = .ok (some run, db')) :
    run.maxAttempts = configuredConnectorRunMaxAttempts var := by
  rw [Runtime.createQueuedRun, ConnectorRunRepository.createIfNoPending] at h
  split at h
  · cases h
  · split at h
    · cases h
    · obtain ⟨hrun, -⟩ := Prod.mk.inj (Except.ok.inj h)
      rw [← Option.some.inj hrun]
      rfl

theorem used_iff {env : Environment} {readings : LeaseReadings} :
    Used env readings ↔
      (readings.maxAttempts.val : Int)
        = configuredConnectorRunMaxAttempts (env variableName).ok := by
  refine ⟨And.left, fun h => ⟨h, ?_⟩⟩
  intro startedAt source target trigger payload db db' run hrun
  rw [maxAttempts_createQueuedRun hrun, h]

/-- The variable is not set, or its value is trimmed, or it says what the default is. -/
def Readable (var : EnvVar) : Prop :=
  ∀ s, var = .value s → Text.trim s = s ∨ Text.parseInt (Text.trim s) = some 3

end RetryLimit

open RetryLimit

/-- **The accepted limit is the one used just if its value is trimmed**, or says three anyway. -/
theorem retry_limit_used_iff (env : Environment) (readings : LeaseReadings)
    (h : LeaseReadings.fromEnv env = .ok readings) :
    Used env readings ↔ RetryLimit.Readable (env variableName) := by
  have hread := maxAttempts_eq h
  rw [used_iff]
  cases hvar : env variableName with
  | notPresent =>
    rw [strictPositiveEnvU64, hvar] at hread
    rw [← Except.ok.inj hread, defaultMaxAttempts_val env hvar, hvar]
    exact ⟨fun _ s hs => (nomatch hs), fun _ => rfl⟩
  | notUnicode =>
    rw [strictPositiveEnvU64, hvar] at hread
    cases hread
  | value s =>
    have hvalue := parseInt_of_strictPositive hvar hread
    have hpos : (0 : Int) < readings.maxAttempts.val := by
      have := readings.maxAttempts.property.1
      omega
    constructor
    · intro heq s' hs'
      obtain rfl := EnvVar.value.inj hs'
      cases hraw : Text.parseInt s with
      | some n => exact .inl (trim_of_parseInt hraw)
      | none =>
        refine .inr ?_
        rw [hvalue, heq]
        exact congrArg some (configured_of_none hraw)
    · intro hreadable
      rcases hreadable s rfl with htrim | hthree
      · rw [htrim] at hvalue
        exact (configured_of_parseInt hvalue hpos readings.attempts).symm
      · cases hraw : Text.parseInt s with
        | some n =>
          rw [trim_of_parseInt hraw] at hvalue
          exact (configured_of_parseInt hvalue hpos readings.attempts).symm
        | none =>
          rw [hthree] at hvalue
          rw [← Option.some.inj hvalue]
          exact (configured_of_none hraw).symm

/-- The value of the variable, and nothing else set. -/
def RetryLimit.environment (value : String) : Environment := fun name =>
  if name = variableName then .value value else .notPresent

/-- The readings of a limit of five. -/
theorem RetryLimit.environment_five :
    ((LeaseReadings.fromEnv (environment " 5 ")).toOption.map fun readings =>
      readings.maxAttempts.val) = some 5 := by decide +kernel

/-- In a blank on either side, a limit of five is accepted, and the runs get three. -/
theorem retry_limit_padded :
    ¬ ∀ env readings, LeaseReadings.fromEnv env = .ok readings → Used env readings := by
  intro h
  have hfive := environment_five
  cases hfrom : LeaseReadings.fromEnv (environment " 5 ") with
  | error e =>
    rw [hfrom] at hfive
    cases hfive
  | ok readings =>
    rw [hfrom] at hfive
    have hval : readings.maxAttempts.val = 5 := Option.some.inj hfive
    have hused := (h _ readings hfrom).1
    rw [hval] at hused
    have hthree : configuredConnectorRunMaxAttempts (environment " 5 " variableName).ok = 3 := by
      decide +kernel
    rw [hthree] at hused
    cases hused

/-- A limit of five, in no blanks. -/
theorem retry_limit_plain :
    ∃ readings, LeaseReadings.fromEnv (environment "5") = .ok readings ∧
      Used (environment "5") readings := by
  have hfive : ((LeaseReadings.fromEnv (environment "5")).toOption.map fun readings =>
      readings.maxAttempts.val) = some 5 := by decide +kernel
  cases hfrom : LeaseReadings.fromEnv (environment "5") with
  | error e =>
    rw [hfrom] at hfive
    cases hfive
  | ok readings =>
    refine ⟨readings, rfl, (retry_limit_used_iff _ readings hfrom).mpr ?_⟩
    intro s hs
    have hvalue : environment "5" variableName = .value "5" := by decide +kernel
    rw [hvalue] at hs
    obtain rfl := EnvVar.value.inj hs
    exact .inl (by decide +kernel)

end DevPortal
