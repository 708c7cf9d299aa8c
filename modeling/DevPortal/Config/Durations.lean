import DevPortal.Auth.Throttle
import DevPortal.Config.Operations
import DevPortal.Config.Validation

/-!
# Config/Durations — how far ahead a schedule and a token may reach

    "@every 5m" ▸ 5 minutes ▸ 300 seconds ▸ now + 300 s
    expires_in  ▸ at least a minute       ▸ now + expires_in

A `DateTime` ends at the end of its year 262142, and what is added to it is not bounded before: a
schedule only by the grammar and by `i64` (`scheduleIntervalSeconds_eq_some_iff`), a token by `i64`.
What is representable is then a matter of how many seconds are left (`secondsLeft`).
-/

namespace DevPortal

open Crypto

/-! ## What a schedule says -/

/-- The unit of an interval. -/
inductive IntervalUnit
  | second
  | minute
  | hour
  deriving DecidableEq

namespace IntervalUnit

/-- How it is written. -/
def suffix : IntervalUnit → Char
  | second => 's'
  | minute => 'm'
  | hour => 'h'

def seconds : IntervalUnit → Int
  | second => 1
  | minute => 60
  | hour => 3600

theorem seconds_pos (unit : IntervalUnit) : 0 < unit.seconds := by
  cases unit <;> decide

end IntervalUnit

/-- A text that says a number of units, in lower case and trimmed. -/
inductive Says : String → Int → IntervalUnit → Prop
  | hourly : Says "@hourly" 1 .hour
  | daily : Says "@daily" 24 .hour
  | every {number : String} {count : Int} (unit : IntervalUnit)
      (h : Text.parseInt number = some count) (hpos : 0 < count) :
      Says ("@every " ++ number.push unit.suffix) count unit
  | bare {number : String} {count : Int} (unit : IntervalUnit)
      (h : Text.parseInt number = some count) (hpos : 0 < count) :
      Says (number.push unit.suffix) count unit

/-- How the reader takes a schedule. -/
def normalizedSchedule (schedule : String) : String := (Text.trim schedule).toLower

theorem stripSuffix_eq_some_iff {s t : String} {c : Char} :
    Text.stripSuffix s c = some t ↔ s = t.push c := by
  rw [Text.stripSuffix, ← String.toList_inj, String.toList_push]
  constructor
  · intro h
    split at h
    · next hlast =>
      obtain rfl := Option.some.inj h
      obtain ⟨init, hinit⟩ := List.getLast?_eq_some_iff.mp hlast
      simp [hinit]
    · cases h
  · intro h
    simp [h]

/-- A number and a unit. -/
theorem durationUnit_eq_some_iff {value number : String} {k : Int} :
    durationUnit value = some (number, k) ↔
      ∃ unit : IntervalUnit, value = number.push unit.suffix ∧ k = unit.seconds := by
  unfold durationUnit
  constructor
  · intro h
    split at h
    · next hs =>
      obtain ⟨rfl, rfl⟩ := Prod.mk.inj (Option.some.inj h)
      exact ⟨.second, stripSuffix_eq_some_iff.mp hs, rfl⟩
    · next hm =>
      obtain ⟨rfl, rfl⟩ := Prod.mk.inj (Option.some.inj h)
      exact ⟨.minute, stripSuffix_eq_some_iff.mp hm, rfl⟩
    · next hh =>
      obtain ⟨rfl, rfl⟩ := Prod.mk.inj (Option.some.inj h)
      exact ⟨.hour, stripSuffix_eq_some_iff.mp hh, rfl⟩
    · cases h
  · rintro ⟨unit, rfl, rfl⟩
    cases unit <;> simp [Text.stripSuffix, IntervalUnit.suffix, IntervalUnit.seconds]

theorem parseI64_eq_some_iff {s : String} {n : Int} :
    parseI64 s = some n ↔ Text.parseInt s = some n ∧ -i64Max - 1 ≤ n ∧ n ≤ i64Max := by
  simp [parseI64, Option.filter_eq_some_iff]

theorem checkedMul_eq_some_iff {a b k : Int} :
    checkedMul a b = some k ↔ k = a * b ∧ -i64Max - 1 ≤ k ∧ k ≤ i64Max := by
  unfold checkedMul
  constructor
  · intro h
    split at h
    · next hrange =>
      obtain rfl := Option.some.inj h
      exact ⟨rfl, hrange⟩
    · cases h
  · rintro ⟨rfl, hrange⟩
    exact if_pos hrange

/-- **The intervals that are read**: a number of units that is positive, and an `i64` of seconds. -/
theorem parseDurationSeconds_eq_some_iff {value : String} {k : Int} :
    parseDurationSeconds value = some k ↔
      ∃ (number : String) (count : Int) (unit : IntervalUnit), value = number.push unit.suffix ∧
        Text.parseInt number = some count ∧ 0 < count ∧ k = count * unit.seconds ∧ k ≤ i64Max := by
  simp only [parseDurationSeconds, Option.bind_eq_some_iff, Option.filter_eq_some_iff,
    parseI64_eq_some_iff, checkedMul_eq_some_iff, Prod.exists, durationUnit_eq_some_iff,
    decide_eq_true_eq]
  constructor
  · rintro ⟨number, -, ⟨unit, rfl, rfl⟩, count, ⟨⟨hparse, -⟩, hpos⟩, rfl, -, hmax⟩
    exact ⟨number, count, unit, rfl, hparse, hpos, rfl, hmax⟩
  · rintro ⟨number, count, unit, rfl, hparse, hpos, rfl, hmax⟩
    -- a factor is no more than the product
    have hle : count ≤ count * unit.seconds := le_mul_of_one_le_right hpos.le unit.seconds_pos
    refine ⟨number, _, ⟨unit, rfl, rfl⟩, count, ⟨⟨hparse, ?_, hle.trans hmax⟩, hpos⟩, rfl, ?_, hmax⟩
    · exact (show -i64Max - 1 ≤ 0 by decide).trans hpos.le
    · exact (show -i64Max - 1 ≤ 0 by decide).trans (hpos.le.trans hle)

/-- A number does not start with an at sign. -/
theorem parseInt_eq_none_of_at {number : String} {cs : List Char} (h : number.toList = '@' :: cs) :
    Text.parseInt number = none := by
  unfold Text.parseInt
  rw [h]
  rfl

/-- An interval without `@every` is none with it. -/
theorem stripPrefix_every_eq_none {number : String} {count : Int} (unit : IntervalUnit)
    (h : Text.parseInt number = some count) :
    Text.stripPrefix (number.push unit.suffix) "@every " = none := by
  by_contra hstrip
  obtain ⟨rest, hrest⟩ := Option.ne_none_iff_exists'.mp hstrip
  have hchars : number.toList ++ [unit.suffix] = '@' :: ("every ".toList ++ rest.toList) := by
    have heq := congrArg String.toList (Text.eq_append_of_stripPrefix hrest)
    rwa [String.toList_push, String.toList_append] at heq
  cases hnumber : number.toList with
  | nil =>
    obtain rfl := String.toList_eq_nil_iff.mp hnumber
    cases h
  | cons c cs =>
    rw [hnumber, List.cons_append] at hchars
    obtain ⟨rfl, -⟩ := List.cons.inj hchars
    rw [parseInt_eq_none_of_at hnumber] at h
    cases h

theorem ne_push_of_stripSuffix {s number : String} {unit : IntervalUnit}
    (h : ∀ unit : IntervalUnit, Text.stripSuffix s unit.suffix = none) : s ≠ number.push unit.suffix := by
  intro heq
  have hnone := h unit
  rw [stripSuffix_eq_some_iff.mpr heq] at hnone
  cases hnone

/-- **The schedules that are read**: they say a positive number of units, and an `i64` of seconds. -/
theorem scheduleIntervalSeconds_eq_some_iff {schedule : String} {k : Int} :
    scheduleIntervalSeconds schedule = some k ↔
      ∃ (count : Int) (unit : IntervalUnit), Says (normalizedSchedule schedule) count unit ∧
        k = count * unit.seconds ∧ k ≤ i64Max := by
  have hread : scheduleIntervalSeconds schedule =
      if normalizedSchedule schedule = "@hourly" then some (60 * 60)
      else if normalizedSchedule schedule = "@daily" then some (24 * 60 * 60)
      else ((Text.stripPrefix (normalizedSchedule schedule) "@every ").bind parseDurationSeconds).or
        (parseDurationSeconds (normalizedSchedule schedule)) := rfl
  rw [hread]
  generalize normalizedSchedule schedule = s
  constructor
  · intro h
    split at h
    · next hs =>
      obtain rfl := Option.some.inj h
      exact ⟨1, .hour, hs ▸ .hourly, rfl, by decide⟩
    split at h
    · next hs =>
      obtain rfl := Option.some.inj h
      exact ⟨24, .hour, hs ▸ .daily, rfl, by decide⟩
    obtain hevery | ⟨-, hbare⟩ := Option.or_eq_some_iff.mp h
    · obtain ⟨value, hvalue, hparse⟩ := Option.bind_eq_some_iff.mp hevery
      obtain ⟨number, count, unit, rfl, hnumber, hpos, hk, hmax⟩ :=
        parseDurationSeconds_eq_some_iff.mp hparse
      exact ⟨count, unit, Text.eq_append_of_stripPrefix hvalue ▸ .every unit hnumber hpos, hk, hmax⟩
    · obtain ⟨number, count, unit, rfl, hnumber, hpos, hk, hmax⟩ :=
        parseDurationSeconds_eq_some_iff.mp hbare
      exact ⟨count, unit, .bare unit hnumber hpos, hk, hmax⟩
  · rintro ⟨count, unit, hsays, rfl, hmax⟩
    cases hsays with
    | hourly => rfl
    | daily => rfl
    | @every number count unit hnumber hpos =>
      have hstrip := Text.stripPrefix_append "@every " (number.push unit.suffix)
      rw [if_neg, if_neg, hstrip, Option.bind_some, parseDurationSeconds_eq_some_iff.mpr
        ⟨_, count, unit, rfl, hnumber, hpos, rfl, hmax⟩, Option.some_or]
      all_goals
        intro heq
        rw [heq] at hstrip
        cases hstrip
    | bare unit hnumber hpos =>
      rw [if_neg (ne_push_of_stripSuffix ?_).symm, if_neg (ne_push_of_stripSuffix ?_).symm,
        stripPrefix_every_eq_none unit hnumber, Option.bind_none, Option.none_or]
      · exact parseDurationSeconds_eq_some_iff.mpr ⟨_, count, unit, rfl, hnumber, hpos, rfl, hmax⟩
      all_goals
        intro unit
        cases unit <;> decide

/-! ## What is left -/

/-- The whole seconds from an instant to the last one. -/
def secondsLeft (now : DateTime) : Int := (maxUtc - now) / 1000000

theorem add_seconds_le_iff {now n : Int} : now + seconds n ≤ maxUtc ↔ n ≤ secondsLeft now := by
  have hdef : secondsLeft now = (maxUtc - now) / 1000000 := rfl
  have hseconds : seconds n = n * 1000000 := rfl
  omega

/-- All of time is short for a `Duration`. -/
theorem secondsLeft_le {now : Int} (hnow : minUtc ≤ now) : secondsLeft now ≤ i64Max / 1000 := by
  have hdef : secondsLeft now = (maxUtc - now) / 1000000 := rfl
  simp only [minUtc, maxUtc, seconds, i64Max] at *
  omega

/-- **When an instant ahead is representable**: when that many seconds are left. -/
theorem offset_isSome_iff {now n : Int} (hnow : Representable now) (hn : 0 ≤ n) :
    (offset now n).isSome ↔ n ≤ secondsLeft now := by
  rw [offset, ← add_seconds_le_iff]
  constructor
  · intro h
    by_contra hover
    rw [if_neg fun hrange => hover hrange.2.2] at h
    cases h
  · intro h
    have hmin : minUtc ≤ now + seconds n := by
      have := hnow.1
      have hseconds : seconds n = n * 1000000 := rfl
      omega
    have hduration : n ≤ i64Max / 1000 := (add_seconds_le_iff.mp h).trans (secondsLeft_le hnow.1)
    have hneg : -(i64Max / 1000) ≤ n := (show -(i64Max / 1000) ≤ 0 by decide).trans hn
    rw [if_pos ⟨⟨hneg, hduration⟩, hmin, h⟩]
    rfl

theorem nextRunAt_isSome_iff {now n : Int} (hnow : minUtc ≤ now) :
    (nextRunAt now n).isSome ↔ n ≤ secondsLeft now := by
  have hiff : n ≤ i64Max / 1000 ∧ now + seconds n ≤ maxUtc ↔ n ≤ secondsLeft now := by
    rw [add_seconds_le_iff]
    exact ⟨And.right, fun h => ⟨h.trans (secondsLeft_le hnow), h⟩⟩
  rw [← hiff]
  show (if n ≤ i64Max / 1000 ∧ now + seconds n ≤ maxUtc then some (now + seconds n) else none).isSome ↔ _
  split
  · next hrange => exact ⟨fun _ => hrange, fun _ => rfl⟩
  · next hrange => exact ⟨fun h => (Bool.false_ne_true h).elim, fun h => absurd h hrange⟩

/-! ## Tokens -/

/-- `Utc::now() + Duration::seconds(expires_in)`, of a token response. -/
def tokenExpiresAt (now : DateTime) (response : GraphTokenResponse) : Option DateTime :=
  offset now response.lifetime

/-- `expires_at` of `refresh_graph_access_token`. -/
def refreshGraphAccessTokenExpiresAt (now : DateTime) (response : GraphTokenResponse) :
    Option DateTime := tokenExpiresAt now response

/-- `expires_at` of `apply_token_response`. -/
def applyTokenResponseExpiresAt (now : DateTime) (response : GraphTokenResponse) :
    Option DateTime := tokenExpiresAt now response

/-- The clock reads an instant, knows those that lie ahead of it, and writes them. -/
structure AdapterClock.Reads (clock : AdapterClock) (now : DateTime) (format : DateTime → String) :
    Prop where
  reaches : ∀ n, clock.reaches n = (offset now n).isSome
  writes : ∀ n t, offset now n = some t → clock.secondsAfter n = format t

section Tokens

variable {clock : AdapterClock} {now t : DateTime} {format : DateTime → String}
  {response : GraphTokenResponse}

/-- A refresh writes the expiry it computes. -/
theorem refreshed_expiry_written (hclock : clock.Reads now format)
    (h : refreshGraphAccessTokenExpiresAt now response = some t) (accessToken : String) :
    ("access_token_expires_at", format t) ∈ tokenFields clock response accessToken := by
  rw [← hclock.writes _ t h]
  simp [tokenFields]

/-- So does the callback that connects. -/
theorem applied_expiry_written {m : Moment} (hclock : m.clock.Reads now format)
    (h : applyTokenResponseExpiresAt now response = some t) (accessToken refreshToken : String) :
    ("access_token_expires_at", format t) ∈ connectedTexts m response accessToken refreshToken := by
  rw [← hclock.writes _ t h]
  simp [connectedTexts]

/-- **A clock reaches just the expiries that can be computed.** -/
theorem reaches_lifetime (hclock : clock.Reads now format) :
    clock.reaches response.lifetime = (refreshGraphAccessTokenExpiresAt now response).isSome :=
  hclock.reaches response.lifetime

theorem tokenExpiresAt_isSome_iff (hnow : Representable now) :
    (tokenExpiresAt now response).isSome ↔
      max (response.expiresIn.getD 3600) 60 ≤ secondsLeft now :=
  offset_isSome_iff hnow (le_max_of_le_right (by decide))

end Tokens

/-! ## Schedules -/

/-- **What the schedule says fits**: so many seconds are left, and a minute is. -/
def FitsBefore (now : DateTime) (schedule : String) : Prop :=
  ∃ (count : Int) (unit : IntervalUnit), Says (normalizedSchedule schedule) count unit ∧
    max (count * unit.seconds) 60 ≤ secondsLeft now

/-- **A schedule that is read can be moved** just if it fits. -/
theorem nextRunAt_isSome_iff_fits {now : DateTime} {schedule : String} {interval : Int}
    (hnow : minUtc ≤ now) (h : effectiveScheduleIntervalSeconds schedule = some interval) :
    (nextRunAt now interval).isSome ↔ FitsBefore now schedule := by
  obtain ⟨k, hk, rfl⟩ := Option.map_eq_some_iff.mp h
  rw [nextRunAt_isSome_iff hnow]
  constructor
  · intro hfits
    obtain ⟨count, unit, hsays, rfl, -⟩ := scheduleIntervalSeconds_eq_some_iff.mp hk
    exact ⟨count, unit, hsays, hfits⟩
  · rintro ⟨count, unit, hsays, hfits⟩
    -- what fits is read, so it is what was read
    have hmax : count * unit.seconds ≤ i64Max :=
      (le_max_left _ 60).trans (hfits.trans ((secondsLeft_le hnow).trans (by decide)))
    have hread := scheduleIntervalSeconds_eq_some_iff.mpr ⟨count, unit, hsays, rfl, hmax⟩
    obtain rfl := Option.some.inj (hk.symm.trans hread)
    exact hfits

section Turns

variable {env : PassEnv} {config : ConnectorConfig} {db : SchedulerDb} {interval : Int}

/-- Every schedule that is read fits. -/
def AllFit (now : DateTime) (configs : List ConnectorConfig) : Prop :=
  ∀ config ∈ configs, ∀ schedule ∈ config.scheduleCron,
    (effectiveScheduleIntervalSeconds schedule).isSome → FitsBefore now schedule

theorem enqueueDueConfigs_isSome (hnow : minUtc ≤ env.now) {configs : List ConnectorConfig}
    (hfit : AllFit env.now configs) (enqueued : Nat) :
    (enqueueDueConfigs env configs enqueued db).outcome.isSome := by
  induction configs generalizing enqueued db with
  | nil => rfl
  | cons config configs ih =>
    have hturn : (enqueueDueConfig env config enqueued db).outcome.isSome := by
      cases hcron : config.scheduleCron.bind effectiveScheduleIntervalSeconds with
      | none =>
        have hblocked : blocked db config := by
          rw [blocked, hcron]
        rw [enqueueDueConfig_of_blocked hblocked]
        rfl
      | some interval =>
        obtain ⟨schedule, hschedule, hinterval⟩ := Option.bind_eq_some_iff.mp hcron
        refine (enqueueDueConfig_isSome_iff hcron enqueued).mpr (Or.inr ?_)
        rw [nextRunAt_isSome_iff_fits hnow hinterval]
        exact hfit config (List.mem_cons_self ..) schedule hschedule (by rw [hinterval]; rfl)
    obtain ⟨⟨enqueued', db'⟩, houtcome⟩ := Option.isSome_iff_exists.mp hturn
    rw [enqueueDueConfigs, Pass.andThen, houtcome]
    exact ih (fun c hc => hfit c (List.mem_cons_of_mem _ hc)) enqueued'

/-- **A pass goes through** if the schedules of the table fit. -/
theorem enqueueDueScheduledRuns_isSome (hnow : minUtc ≤ env.now) (hfit : AllFit env.now db.configs) :
    (enqueueDueScheduledRuns env db).outcome.isSome := by
  refine enqueueDueConfigs_isSome hnow (fun config hconfig => hfit config ?_) 0
  exact (mem_dueInOrder.mp (List.mem_of_mem_take hconfig)).1

end Turns

/-- **What is representable.**  A schedule that is accepted can be moved, and the turn of a pass that
would move it goes through, just if what it says is left; a pass goes through if that is so of all
schedules; and a token's expiry can be computed just if its seconds are left. -/
theorem durations_representable_iff {now : DateTime} (hnow : Representable now) :
    (∀ {ν : Type} (numbers : ConfigNumbers ν) (codec : Codec ν) (update : ConnectorConfigUpdate)
      (schedule : String), update.validate numbers codec = [] → update.scheduleCron = some schedule →
        ∃ interval, effectiveScheduleIntervalSeconds schedule = some interval ∧
          ((nextRunAt now interval).isSome ↔ FitsBefore now schedule) ∧
          ∀ (env : PassEnv) (config : ConnectorConfig) (enqueued : Nat) (db : SchedulerDb),
            env.now = now → config.scheduleCron = some schedule → ¬ blocked db config →
              ((enqueueDueConfig env config enqueued db).outcome.isSome ↔ FitsBefore now schedule)) ∧
    (∀ (env : PassEnv) (db : SchedulerDb), env.now = now → AllFit now db.configs →
      (enqueueDueScheduledRuns env db).outcome.isSome) ∧
    ∀ response : GraphTokenResponse,
      ((refreshGraphAccessTokenExpiresAt now response).isSome ↔
        max (response.expiresIn.getD 3600) 60 ≤ secondsLeft now) ∧
      ((applyTokenResponseExpiresAt now response).isSome ↔
        max (response.expiresIn.getD 3600) 60 ≤ secondsLeft now) := by
  refine ⟨fun numbers codec update schedule hvalid hcron => ?_, ?_, fun response =>
    ⟨tokenExpiresAt_isSome_iff hnow, tokenExpiresAt_isSome_iff hnow⟩⟩
  · have herrors := ConnectorConfigUpdate.scheduleErrors_of_validate hvalid
    rw [hcron] at herrors
    obtain ⟨-, seconds, hseconds, -⟩ :=
      ConnectorConfigUpdate.scheduleErrors_eq_nil_iff.mp herrors
    have hinterval : effectiveScheduleIntervalSeconds schedule
        = some (max seconds minConnectorScheduleIntervalSeconds) := by
      rw [effectiveScheduleIntervalSeconds, hseconds, Option.map_some]
    have hfits := nextRunAt_isSome_iff_fits hnow.1 hinterval
    refine ⟨_, hinterval, hfits, ?_⟩
    rintro env config enqueued db rfl hschedule hblocked
    rw [← hfits, enqueueDueConfig_isSome_iff (by rw [hschedule]; exact hinterval),
      or_iff_right hblocked]
  · rintro env db rfl hfit
    exact enqueueDueScheduledRuns_isSome hnow.1 hfit

/-! ## The longest schedule -/

namespace Longest

theorem wf_empty : (Json.object (ν := Int) []).Wf :=
  .object List.nodup_nil fun _ h => (List.not_mem_nil h).elim

theorem wf_sample : (Json.object (ν := Int) [("items", .array [])]).Wf := by
  refine .object (List.nodup_singleton _) fun kv hkv => ?_
  obtain rfl := List.mem_singleton.mp hkv
  exact .array fun _ h => (List.not_mem_nil h).elim

/-- A codec, as far as two texts go. -/
def codec : Codec Int where
  fromStr text :=
    if text = "\x7b\x7d" then .ok ⟨.object [], wf_empty⟩
    else if text = "\x7b\"items\":[]\x7d" then .ok ⟨.object [("items", .array [])], wf_sample⟩
    else .error "expected value"
  toString _ := .error "not written"

def numbers : ConfigNumbers Int where
  asI64 n := some n
  text n := toString n
  asU64 n := n.toNat?

/-- A request with a schedule and the defaults. -/
def update (schedule : String) : ConnectorConfigUpdate where
  target := "work_cards"
  enabled := true
  scheduleCron := some schedule
  config := "\x7b\x7d"
  samplePayload := "\x7b\"items\":[]\x7d"

/-- Nothing but the schedule can be wrong with it. -/
theorem validate_update (schedule : String) :
    (update schedule).validate numbers codec =
      ConnectorConfigUpdate.scheduleErrors (some schedule) := by
  have hconfig : codec.fromStr "\x7b\x7d" = .ok ⟨.object [], wf_empty⟩ := rfl
  have hsample : ConnectorConfigUpdate.sampleErrors codec "\x7b\"items\":[]\x7d" = [] := by
    rw [ConnectorConfigUpdate.sampleErrors]
    rfl
  have htarget : Validation.required "target" "work_cards" ++
      Validation.maxLen "target" "work_cards" 64 ++
      Validation.oneOf "target" "work_cards"
        ["service_health", "work_cards", "notifications", "calendar_events"] = [] := by decide
  have hsizes : Validation.required "config" "\x7b\x7d" = [] ∧
      Validation.maxLen "config" "\x7b\x7d" 65535 = [] ∧
      Validation.required "sample_payload" "\x7b\"items\":[]\x7d" = [] ∧
      Validation.maxLen "sample_payload" "\x7b\"items\":[]\x7d" 1000000 = [] := by decide
  simp only [ConnectorConfigUpdate.validate, update, htarget, hconfig, hsample, hsizes]
  simp [ConnectorConfigValidation.validateConnectorConfigAdapter, objectMembers,
    ConnectorConfigValidation.adapterName, Json.get, Json.child]

/-- The row it makes, due since zero. -/
def row (schedule : String) : ConnectorConfig :=
  { update schedule with
    id := 0, source := "erp", createdAt := 0, updatedAt := 0, lastScheduledAt := none
    nextRunAt := some 0, lastScheduledRunId := none }

/-- The first of May 2026. -/
def now : DateTime := seconds 1777622400

/-- No instant is so far from another. -/
theorem nextRunAt_longest (t : DateTime) : nextRunAt t 9223372036854775807 = none :=
  if_neg fun h => absurd h.1 (by decide)

theorem findDue_row (schedule : String) {t : DateTime} (h : 0 ≤ t) :
    ConnectorConfigRepository.findDueForSchedule t 10 [row schedule] = [row schedule] := by
  have hdue : ConnectorConfigRepository.due t (row schedule) := by
    simpa [ConnectorConfigRepository.due, row, update] using h
  rw [ConnectorConfigRepository.findDueForSchedule, List.filter_cons_of_pos hdue, List.filter_nil,
    List.mergeSort_singleton]
  rfl

end Longest

open Longest in
theorem five_minutes_fit :
    ∃ interval, effectiveScheduleIntervalSeconds "@every 5m" = some interval ∧
      (nextRunAt 0 interval).isSome := by
  have hvalid : (update "@every 5m").validate numbers codec = [] := by
    rw [validate_update]
    decide +kernel
  have hsays : Says (normalizedSchedule "@every 5m") 5 .minute := by
    have hspelled : normalizedSchedule "@every 5m" = "@every " ++ "5".push IntervalUnit.minute.suffix := by
      decide +kernel
    rw [hspelled]
    exact .every .minute (by decide +kernel) (by decide)
  obtain ⟨interval, hinterval, hfits, -⟩ := (@durations_representable_iff 0 (by decide)).1
    numbers codec (update "@every 5m") "@every 5m" hvalid rfl
  exact ⟨interval, hinterval, hfits.mpr ⟨5, .minute, hsays, by decide⟩⟩

open Longest in
/-- **A schedule and a token that last too long**: the schedule is accepted, and ends every pass from
then on; the expiry of the token is not computed. -/
theorem longest_schedule_overflows :
    (update "@every 9223372036854775807s").validate numbers codec = [] ∧
    effectiveScheduleIntervalSeconds "@every 9223372036854775807s" = some 9223372036854775807 ∧
    nextRunAt now 9223372036854775807 = none ∧
    (∀ env : PassEnv, 0 ≤ env.now →
      (enqueueDueScheduledRuns env ⟨[row "@every 9223372036854775807s"], ⟨[], [], 0, 0⟩⟩).outcome = none) ∧
    refreshGraphAccessTokenExpiresAt now { expiresIn := some 9223372036854775807 } = none ∧
    applyTokenResponseExpiresAt now { expiresIn := some 9223372036854775807 } = none := by
  have hinterval : effectiveScheduleIntervalSeconds "@every 9223372036854775807s"
      = some 9223372036854775807 := by decide +kernel
  refine ⟨?_, hinterval, nextRunAt_longest now, fun env henv => ?_, by decide, by decide⟩
  · rw [validate_update]
    decide +kernel
  · rw [enqueueDueScheduledRuns, findDue_row _ henv, enqueueDueConfigs, Pass.andThen]
    have hcron : (row "@every 9223372036854775807s").scheduleCron.bind
        effectiveScheduleIntervalSeconds = some 9223372036854775807 := hinterval
    have hturn : (enqueueDueConfig env (row "@every 9223372036854775807s") 0
        ⟨[row "@every 9223372036854775807s"], ⟨[], [], 0, 0⟩⟩).outcome = none := by
      rw [← Option.not_isSome_iff_eq_none, enqueueDueConfig_isSome_iff hcron, nextRunAt_longest,
        blocked, hcron]
      rintro (hblocked | hmoved)
      · cases hblocked
      · cases hmoved
    rw [hturn]
    exact hturn

end DevPortal
