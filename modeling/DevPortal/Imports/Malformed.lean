import DevPortal.Adapters.Normalize
import DevPortal.Config.Operations
import DevPortal.Imports.Decode

/-!
# Imports/Malformed — one malformed item of a source, and the other items

    source item ▸ adapter ▸ legacy timestamps ▸ import request

The adapters write the fields of their target in the types it wants, whatever the item holds.  The
exceptions are dates: of a work item and of a sample event a text goes through that is no date, and
then no item of the payload is imported (`readPayload_isSome_iff`).
-/

namespace DevPortal

variable {ν κ υ : Type}

/-! ## Fields behind the legacy timestamps -/

/-- A member of an item, rewritten. -/
def legacyMember (env : ConfigEnv ν κ υ) (fields : List String) (m : String × Json ν) :
    String × Json ν :=
  match m.2 with
  | .str raw =>
    if m.1 ∈ fields then (m.1, .str ((env.normalizeLegacyUtcDatetime raw).getD raw))
    else (m.1, .str raw)
  | value => (m.1, value)

theorem normalizeItem_object (env : ConfigEnv ν κ υ) (fields : List String)
    (members : List (String × Json ν)) :
    normalizeItem env fields (.object members)
      = .object (members.map (legacyMember env fields)) := rfl

section Members

variable {env : ConfigEnv ν κ υ} {fields : List String} {members : List (String × Json ν)}
  {name : String}

theorem legacyMember_str (text : String) :
    legacyMember env fields (name, .str text) = (name, .str
      (if name ∈ fields then (env.normalizeLegacyUtcDatetime text).getD text else text)) := by
  unfold legacyMember
  dsimp only
  split <;> rfl

theorem legacyMember_fst (m : String × Json ν) : (legacyMember env fields m).1 = m.1 := by
  unfold legacyMember
  split
  · split <;> rfl
  · rfl

theorem lookup_legacyMember :
    (members.map (legacyMember env fields)).lookup name =
      (members.lookup name).map fun value => (legacyMember env fields (name, value)).2 := by
  induction members with
  | nil => rfl
  | cons m members ih =>
    obtain ⟨key, value⟩ := m
    rw [List.map_cons, ← Prod.mk.eta (p := legacyMember env fields (key, value)), legacyMember_fst,
      List.lookup_cons, List.lookup_cons, ih]
    by_cases hname : name = key
    · subst hname
      simp
    · simp [beq_eq_false_iff_ne.mpr hname]

/-- A field that is a text stays one. -/
theorem isSome_text (h : ∃ text, members.lookup name = some (.str text)) :
    (requiredField Json.asStr ((members.map (legacyMember env fields)).lookup name)).isSome := by
  obtain ⟨text, h⟩ := h
  rw [lookup_legacyMember, h, Option.map_some, legacyMember_str]
  rfl

theorem isSome_bool (h : ∃ b, members.lookup name = some (.bool b)) :
    (requiredField readBool ((members.map (legacyMember env fields)).lookup name)).isSome := by
  obtain ⟨b, h⟩ := h
  rw [lookup_legacyMember, h]
  rfl

/-- A field that is a text or `null`, as it is rewritten. -/
theorem lookup_optionalText {text : Option String}
    (h : members.lookup name = some (optionalText text)) :
    (members.map (legacyMember env fields)).lookup name = some (optionalText
      (if name ∈ fields then text.map fun t => (env.normalizeLegacyUtcDatetime t).getD t
      else text)) := by
  rw [lookup_legacyMember, h, Option.map_some]
  cases text with
  | none => simp [optionalText, legacyMember]
  | some text =>
    rw [optionalText, legacyMember_str]
    split <;> rfl

theorem isSome_optionalText (h : ∃ text, members.lookup name = some (optionalText text)) :
    (optionalField Json.asStr ((members.map (legacyMember env fields)).lookup name)).isSome := by
  obtain ⟨text, h⟩ := h
  rw [lookup_optionalText h]
  split
  · cases text <;> rfl
  · cases text <;> rfl

/-- A date that is not rewritten is read iff `serde` reads its text. -/
theorem isSome_date (env : ConfigEnv ν κ υ) (fields : List String) (chrono : Chrono)
    {text : Option String} (hname : name ∉ fields)
    (h : members.lookup name = some (optionalText text)) :
    (optionalField (readDateTime chrono)
        ((members.map (legacyMember env fields)).lookup name)).isSome ↔
      ∀ t, text = some t → (chrono.deserialize t).isSome := by
  rw [lookup_optionalText h, if_neg hname]
  cases text with
  | none => simp [optionalField, optionalText]
  | some t => simp [optionalField, optionalText, readDateTime, Json.asStr]

/-- A text that is read as a date behind the legacy timestamps: one that they rewrite, or one that
`serde` reads as it is. -/
def Dated (chrono : Chrono) (text : String) : Prop :=
  (normalizeNaiveDatetime chrono text).isSome ∨ (chrono.deserialize text).isSome

/-- A date that is rewritten is read iff it can be rewritten, or read as it is. -/
theorem isSome_legacyDate (fields : List String) {chrono : Chrono} {text : Option String}
    (henv : env.normalizeLegacyUtcDatetime = normalizeNaiveDatetime chrono) (hname : name ∈ fields)
    (h : members.lookup name = some (optionalText text)) :
    (optionalField (readDateTime chrono)
        ((members.map (legacyMember env fields)).lookup name)).isSome ↔
      ∀ t, text = some t → Dated chrono t := by
  rw [lookup_optionalText h, if_pos hname, henv]
  cases text with
  | none => simp [optionalField, optionalText]
  | some t =>
    cases hnorm : normalizeNaiveDatetime chrono t with
    | none => simp [optionalField, optionalText, readDateTime, Json.asStr, Dated, hnorm]
    | some text =>
      have hread := deserialize_of_normalize hnorm
      simp [optionalField, optionalText, readDateTime, Json.asStr, Dated, hnorm, hread]

end Members

/-! ## Items, adapter by adapter -/

/-- The item of a target can be read. -/
def itemReads (numbers : Numbers ν) (chrono : Chrono) (target : String) (item : Json ν) : Bool :=
  if target = "calendar_events" then (readCalendarEvent chrono item).isSome
  else if target = "work_cards" then (readWorkCard numbers chrono item).isSome
  else if target = "notifications" then (readNotification item).isSome
  else if target = "service_health" then (readServiceHealth numbers chrono item).isSome
  else false

/-- The dates of a work item: its due date, which is rewritten, and its last change. -/
def DatedWorkItem (chrono : Chrono) (config : AzureDevOpsConfig) (item : Json ν) : Prop :=
  (∀ text, workItemDueAt config item = some text → Dated chrono text) ∧
    ∀ text, workItemText item "System.ChangedDate" = some text → (chrono.deserialize text).isSome

/-- The dates of a sample event. -/
def DatedEvent (numbers : Numbers ν) (chrono : Chrono) (item : Json ν) : Prop :=
  ∀ names ∈ [sampleStartNames, sampleEndNames], ∀ text,
    fieldString numbers item names = some text → Dated chrono text

/-- The members of a notification. -/
structure NotificationMembers (members : List (String × Json ν)) : Prop where
  texts : ∀ name ∈ ["external_id", "title", "severity"],
    ∃ text, members.lookup name = some (.str text)
  isRead : ∃ b, members.lookup "is_read" = some (.bool b)
  optional : ∀ name ∈ ["body", "url"], ∃ text, members.lookup name = some (optionalText text)

/-- The members of a calendar event with the given bounds. -/
structure EventMembers (members : List (String × Json ν)) (startsAt endsAt : Option String) :
    Prop where
  texts : ∀ name ∈ ["external_id", "title"], ∃ text, members.lookup name = some (.str text)
  flags : ∀ name ∈ ["is_all_day", "is_cancelled"], ∃ b, members.lookup name = some (.bool b)
  optional : ∀ name ∈ ["body", "organizer", "location", "time_zone", "web_url", "join_url"],
    ∃ text, members.lookup name = some (optionalText text)
  startsAt : members.lookup "starts_at" = some (optionalText startsAt)
  endsAt : members.lookup "ends_at" = some (optionalText endsAt)

section Items

variable {env : ConfigEnv ν κ υ} {numbers : ItemNumbers ν} {chrono : Chrono}

/-- A notification can be read. -/
theorem NotificationMembers.reads {members : List (String × Json ν)}
    (h : NotificationMembers members) :
    itemReads numbers.toNumbers chrono "notifications"
      (normalizeItem env (legacyTimestamps "notifications") (.object members)) := by
  change (readNotification (.object (members.map (legacyMember env _)))).isSome
  rw [readNotification_isSome_iff]
  exact ⟨fun name hname => isSome_text (h.texts name hname), isSome_bool h.isRead,
    fun name hname => isSome_optionalText (h.optional name hname)⟩

/-- A calendar event can be read iff its bounds can. -/
theorem EventMembers.reads_iff {members : List (String × Json ν)} {startsAt endsAt : Option String}
    (henv : env.normalizeLegacyUtcDatetime = normalizeNaiveDatetime chrono)
    (h : EventMembers members startsAt endsAt) :
    itemReads numbers.toNumbers chrono "calendar_events"
        (normalizeItem env (legacyTimestamps "calendar_events") (.object members)) ↔
      (∀ text, startsAt = some text → Dated chrono text) ∧
        ∀ text, endsAt = some text → Dated chrono text := by
  change (readCalendarEvent chrono (.object (members.map (legacyMember env _)))).isSome ↔ _
  have hstarts := isSome_legacyDate (legacyTimestamps "calendar_events") henv
    (by decide) h.startsAt
  have hends := isSome_legacyDate (legacyTimestamps "calendar_events") henv
    (by decide) h.endsAt
  rw [readCalendarEvent_isSome_iff, ← hstarts, ← hends]
  constructor
  · rintro ⟨-, -, -, hdates⟩
    exact ⟨hdates _ (by simp), hdates _ (by simp)⟩
  · intro hdates
    refine ⟨fun name hname => isSome_text (h.texts name hname),
      fun name hname => isSome_bool (h.flags name hname),
      fun name hname => isSome_optionalText (h.optional name hname), ?_⟩
    simpa only [List.forall_mem_cons, List.not_mem_nil, false_implies, implies_true, and_true]
      using hdates

variable (env numbers)

/-- **A work item can be read iff its dates can.** -/
theorem itemReads_workItem {config : AzureDevOpsConfig} (item : Json ν)
    (henv : env.normalizeLegacyUtcDatetime = normalizeNaiveDatetime chrono)
    (hmappings : ∀ m ∈ config.assigneeUserMappings, isI32 m.2) :
    itemReads numbers.toNumbers chrono "work_cards"
        (normalizeItem env (legacyTimestamps "work_cards")
          (normalizeAzureWorkItem numbers config item)) ↔ DatedWorkItem chrono config item := by
  obtain ⟨members, userId, hmembers, htexts, hoptional, huser, hrange, hdue, hchanged⟩ :
      ∃ (members : List (String × Json ν)) (userId : Option Int),
        normalizeAzureWorkItem numbers config item = .object members ∧
        (∀ name ∈ ["external_id", "title", "status", "priority"],
          ∃ text, members.lookup name = some (.str text)) ∧
        (∀ name ∈ ["assignee", "project", "work_item_type", "assignee_source_id", "url"],
          ∃ text, members.lookup name = some (optionalText text)) ∧
        members.lookup "assignee_user_id"
          = some ((userId.map (.number ∘ numbers.ofI32)).getD .null) ∧
        (∀ n ∈ userId, isI32 n) ∧
        members.lookup "due_at" = some (optionalText (workItemDueAt config item)) ∧
        members.lookup "source_updated_at"
          = some (optionalText (workItemText item "System.ChangedDate")) := by
    refine ⟨_, _, rfl, ?_, ?_, rfl, ?_, rfl, rfl⟩
    · simp only [List.forall_mem_cons]
      exact ⟨⟨_, rfl⟩, ⟨_, rfl⟩, ⟨_, rfl⟩, ⟨_, rfl⟩, List.forall_mem_nil _⟩
    · simp only [List.forall_mem_cons]
      exact ⟨⟨_, rfl⟩, ⟨_, rfl⟩, ⟨_, rfl⟩, ⟨_, rfl⟩, ⟨_, rfl⟩, List.forall_mem_nil _⟩
    · intro n hn
      obtain ⟨descriptor, -, hlookup⟩ := Option.bind_eq_some_iff.mp hn
      obtain ⟨before, after, heq, -⟩ := List.lookup_eq_some_iff.mp hlookup
      exact hmappings (descriptor, n) (by rw [heq]; simp)
  rw [hmembers]
  change (readWorkCard _ chrono (.object (members.map (legacyMember env _)))).isSome ↔ _
  have hdue := isSome_legacyDate (legacyTimestamps "work_cards") henv (by decide) hdue
  have hchanged := isSome_date env (legacyTimestamps "work_cards") chrono (by decide) hchanged
  rw [readWorkCard_isSome_iff, DatedWorkItem, ← hdue, ← hchanged]
  constructor
  · rintro ⟨-, -, -, hdates⟩
    exact ⟨hdates _ (by simp), hdates _ (by simp)⟩
  · intro hdates
    refine ⟨fun name hname => isSome_text (htexts name hname),
      fun name hname => isSome_optionalText (hoptional name hname), ?_, ?_⟩
    · rw [lookup_legacyMember, huser]
      cases userId with
      | none => rfl
      | some n =>
        have hn : isI32 n := hrange n rfl
        have hread : readI32 numbers.toNumbers (.number (numbers.ofI32 n)) = some n := by
          rw [readI32, asI64, numbers.asI64_ofI32 n hn, Option.filter_some, if_pos hn]
        change (Option.map some (readI32 numbers.toNumbers (.number (numbers.ofI32 n)))).isSome
        rw [hread]
        rfl
    · simpa only [List.forall_mem_cons, List.not_mem_nil, false_implies, implies_true, and_true]
        using hdates

/-- A service can be read: a date that is none was dropped. -/
theorem itemReads_service {defaultMaintainerId : Option Int} (item : Json ν)
    (henv : env.normalizeLegacyUtcDatetime = normalizeNaiveDatetime chrono)
    (hdefault : ∀ n ∈ defaultMaintainerId, isI32 n) :
    itemReads numbers.toNumbers chrono "service_health"
      (normalizeItem env (legacyTimestamps "service_health")
        (normalizeMonitoringService numbers chrono defaultMaintainerId item)) := by
  obtain ⟨members, maintainerId, checkedAt, hmembers, htexts, hoptional, hmaintainer, hrange,
      hchecked, hdated⟩ :
      ∃ (members : List (String × Json ν)) (maintainerId : Int) (checkedAt : Option String),
        normalizeMonitoringService numbers chrono defaultMaintainerId item = .object members ∧
        (∀ name ∈ ["external_id", "slug", "name", "lifecycle_status", "health_status"],
          ∃ text, members.lookup name = some (.str text)) ∧
        (∀ name ∈ ["description", "repository_url", "dashboard_url", "runbook_url"],
          ∃ text, members.lookup name = some (optionalText text)) ∧
        members.lookup "maintainer_id" = some (.number (numbers.ofI32 maintainerId)) ∧
        isI32 maintainerId ∧
        members.lookup "last_checked_at" = some (optionalText checkedAt) ∧
        ∀ text, checkedAt = some text → (chrono.deserialize text).isSome := by
    refine ⟨_, _, _, rfl, ?_, ?_, rfl, ?_, rfl, ?_⟩
    · simp only [List.forall_mem_cons]
      exact ⟨⟨_, rfl⟩, ⟨_, rfl⟩, ⟨_, rfl⟩, ⟨_, rfl⟩, ⟨_, rfl⟩, List.forall_mem_nil _⟩
    · simp only [List.forall_mem_cons]
      exact ⟨⟨_, rfl⟩, ⟨_, rfl⟩, ⟨_, rfl⟩, ⟨_, rfl⟩, List.forall_mem_nil _⟩
    · cases hfield : fieldI32 numbers.toNumbers item ["maintainer_id"] with
      | some n => exact isI32_of_fieldI32 hfield
      | none =>
        cases defaultMaintainerId with
        | none => decide
        | some n => exact hdefault n rfl
    · intro text htext
      obtain ⟨raw, -, hnorm⟩ := Option.bind_eq_some_iff.mp htext
      exact deserialize_of_normalize hnorm
  rw [hmembers]
  change (readServiceHealth _ chrono (.object (members.map (legacyMember env _)))).isSome
  rw [readServiceHealth_isSome_iff]
  refine ⟨fun name hname => isSome_text (htexts name hname), ?_,
    fun name hname => isSome_optionalText (hoptional name hname), ?_⟩
  · rw [lookup_legacyMember, hmaintainer]
    change (readI32 numbers.toNumbers (.number (numbers.ofI32 maintainerId))).isSome
    rw [readI32, asI64, numbers.asI64_ofI32 _ hrange, Option.filter_some, if_pos hrange]
    rfl
  · exact (isSome_legacyDate (legacyTimestamps "service_health") henv (by decide) hchecked).mpr
      fun text htext => Or.inr (hdated text htext)

end Items

/-! ## Notifications and events -/

/-- The members the adapters write of a notification, and perhaps others behind them. -/
theorem notificationMembers (externalId title severity : String) (body url : Option String)
    (isRead : Bool) (others : List (String × Json ν)) :
    NotificationMembers (("external_id", .str externalId) :: ("title", .str title) ::
      ("body", optionalText body) :: ("severity", .str severity) :: ("is_read", .bool isRead) ::
      ("url", optionalText url) :: others) := by
  refine ⟨?_, ⟨_, rfl⟩, ?_⟩
  · simp only [List.forall_mem_cons]
    exact ⟨⟨_, rfl⟩, ⟨_, rfl⟩, ⟨_, rfl⟩, List.forall_mem_nil _⟩
  · simp only [List.forall_mem_cons]
    exact ⟨⟨_, rfl⟩, ⟨_, rfl⟩, List.forall_mem_nil _⟩

/-- The members they write of an event. -/
theorem eventMembers (externalId title severity : String)
    (body url organizer location startsAt endsAt timeZone webUrl joinUrl : Option String)
    (isRead isAllDay isCancelled : Bool) :
    EventMembers (ν := ν) [("external_id", .str externalId), ("title", .str title),
      ("body", optionalText body), ("severity", .str severity), ("is_read", .bool isRead),
      ("url", optionalText url), ("organizer", optionalText organizer),
      ("location", optionalText location), ("starts_at", optionalText startsAt),
      ("ends_at", optionalText endsAt), ("time_zone", optionalText timeZone),
      ("is_all_day", .bool isAllDay), ("is_cancelled", .bool isCancelled),
      ("web_url", optionalText webUrl), ("join_url", optionalText joinUrl)] startsAt endsAt := by
  refine ⟨?_, ?_, ?_, rfl, rfl⟩
  · simp only [List.forall_mem_cons]
    exact ⟨⟨_, rfl⟩, ⟨_, rfl⟩, List.forall_mem_nil _⟩
  · simp only [List.forall_mem_cons]
    exact ⟨⟨_, rfl⟩, ⟨_, rfl⟩, List.forall_mem_nil _⟩
  · simp only [List.forall_mem_cons]
    exact ⟨⟨_, rfl⟩, ⟨_, rfl⟩, ⟨_, rfl⟩, ⟨_, rfl⟩, ⟨_, rfl⟩, ⟨_, rfl⟩, List.forall_mem_nil _⟩

section Texts

variable {numbers : Numbers ν} {chrono : Chrono} {item : Json ν}

/-- A text that is handed on as a date is one iff it was one. -/
theorem dated_normalizedTimeField {names : List String} :
    (∀ text, normalizedTimeField numbers chrono item names = some text → Dated chrono text) ↔
      ∀ text, fieldString numbers item names = some text → Dated chrono text := by
  unfold normalizedTimeField
  cases fieldString numbers item names with
  | none => simp
  | some value =>
    simp only [Option.map_some, Option.some.injEq, forall_eq']
    cases hnorm : normalizeNaiveDatetime chrono value with
    | none => rfl
    | some text =>
      refine iff_of_true (Or.inr (deserialize_of_normalize hnorm)) (Or.inl ?_)
      rw [hnorm]
      rfl

/-- The bounds of a Graph event that are no dates were dropped. -/
theorem dated_graphEventDatetimeValue {fieldName text : String}
    (h : graphEventDatetimeValue numbers chrono item fieldName = some text) : Dated chrono text := by
  obtain ⟨raw, -, hnorm⟩ := Option.bind_eq_some_iff.mp h
  exact Or.inr (deserialize_of_normalize hnorm)

end Texts

section Events

variable (env : ConfigEnv ν κ υ) (numbers : ItemNumbers ν) {chrono : Chrono} {target : String}

/-- **A sample can be read** as a notification, and as an event iff its bounds can. -/
theorem itemReads_sample {kind : SampleNotificationKind} (item : Json ν)
    (henv : env.normalizeLegacyUtcDatetime = normalizeNaiveDatetime chrono)
    (htarget : target ∈ kind.targets) :
    itemReads numbers.toNumbers chrono target (normalizeItem env (legacyTimestamps target)
        (normalizeSampleNotification numbers.toNumbers chrono kind item)) ↔
      (kind = .calendar → target = "calendar_events" →
        DatedEvent numbers.toNumbers chrono item) := by
  cases kind with
  | calendar =>
    rcases List.mem_cons.mp htarget with rfl | htarget
    · exact iff_of_true (notificationMembers _ _ _ _ _ _ _).reads (fun _ h => nomatch h)
    · obtain rfl := List.mem_singleton.mp htarget
      refine ((eventMembers _ _ _ _ _ _ _ _ _ _ _ _ _ _ _).reads_iff henv).trans ?_
      rw [dated_normalizedTimeField, dated_normalizedTimeField]
      simp [DatedEvent]
  | outlookMail =>
    obtain rfl := List.mem_singleton.mp htarget
    exact iff_of_true (notificationMembers _ _ _ _ _ _ _).reads (fun h => nomatch h)
  | erpMessages =>
    obtain rfl := List.mem_singleton.mp htarget
    exact iff_of_true (notificationMembers _ _ _ _ _ _ _).reads (fun h => nomatch h)

/-- A default sample can be read. -/
theorem itemReads_default {kind : SampleNotificationKind} {now : chrono.Instant} {item : Json ν}
    (henv : env.normalizeLegacyUtcDatetime = normalizeNaiveDatetime chrono)
    (htarget : target ∈ kind.targets) (hitem : item ∈ defaultSampleNotifications chrono now kind) :
    itemReads numbers.toNumbers chrono target (normalizeItem env (legacyTimestamps target) item) := by
  cases kind with
  | calendar =>
    obtain rfl := List.mem_singleton.mp hitem
    rcases List.mem_cons.mp htarget with rfl | htarget
    · exact (notificationMembers _ _ _ (some _) (some _) _ _).reads
    · obtain rfl := List.mem_singleton.mp htarget
      refine ((eventMembers _ _ _ (some _) (some _) (some _) (some _) (some _) (some _) (some _)
        (some _) (some _) _ _ _).reads_iff henv).mpr ⟨?_, ?_⟩
      · intro text htext
        exact Or.inr (Option.some.inj htext ▸ chrono.deserialize_toRfc3339Secs _)
      · intro text htext
        exact Or.inr (Option.some.inj htext ▸ chrono.deserialize_toRfc3339Secs _)
  | outlookMail =>
    obtain rfl := List.mem_singleton.mp hitem
    obtain rfl := List.mem_singleton.mp htarget
    exact (notificationMembers _ _ _ (some _) (some _) _ []).reads
  | erpMessages =>
    obtain rfl := List.mem_singleton.mp hitem
    obtain rfl := List.mem_singleton.mp htarget
    exact (notificationMembers _ _ _ (some _) none _ []).reads

/-- A Graph event can be read, as a notification and as an event. -/
theorem itemReads_graphEvent (item : Json ν)
    (henv : env.normalizeLegacyUtcDatetime = normalizeNaiveDatetime chrono)
    (htarget : target ∈ ["notifications", "calendar_events"]) :
    itemReads numbers.toNumbers chrono target (normalizeItem env (legacyTimestamps target)
      (normalizeGraphCalendarEvent numbers.toNumbers chrono item)) := by
  rcases List.mem_cons.mp htarget with rfl | htarget
  · exact (notificationMembers _ _ _ _ _ _ _).reads
  · obtain rfl := List.mem_singleton.mp htarget
    exact ((eventMembers _ _ _ _ _ _ _ _ _ _ _ _ _ _ _).reads_iff henv).mpr
      ⟨fun _ => dated_graphEventDatetimeValue, fun _ => dated_graphEventDatetimeValue⟩

end Events

/-! ## Payloads -/

/-- The targets of a run. -/
def importTargets : List String :=
  ["calendar_events", "work_cards", "notifications", "service_health"]

/-- **All items, or none**, behind the legacy timestamps. -/
theorem readPayload_isSome_iff {env : ConfigEnv ν κ υ} {numbers : Numbers ν} {chrono : Chrono}
    {target : String} (htarget : target ∈ importTargets) (payload : Payload ν) :
    (readPayload numbers chrono target
        (normalizeLegacyConnectorPayloadTimestamps env target payload.json)).isSome ↔
      ∀ item ∈ payload.items, itemReads numbers chrono target
        (normalizeItem env (legacyTimestamps target) item) := by
  obtain ⟨items, snapshotComplete⟩ := payload
  let fields := legacyTimestamps target
  have hvec : ∀ {ι : Type} (read : Json ν → Option ι),
      (requiredField (readVec read) (some (.array (items.map (normalizeItem env fields))))).isSome
        ↔ ∀ item ∈ items, (read (normalizeItem env fields item)).isSome := by
    intro ι read
    rw [← List.forall_mem_map (P := fun item => (read item).isSome)]
    exact readVec_isSome_iff
  have hrequest : ∀ {ι : Type} (read : Json ν → Option ι),
      (readRequest read (normalizeLegacyConnectorPayloadTimestamps env target
        (Payload.json ⟨items, snapshotComplete⟩))).isSome ↔
        ∀ item ∈ items, (read (normalizeItem env fields item)).isSome := by
    intro ι read
    rw [← hvec read]
    cases snapshotComplete with
    | none => exact readRequest_isSome_iff.trans (and_iff_left rfl)
    | some complete => exact readRequest_isSome_iff.trans (and_iff_left rfl)
  simp only [importTargets, List.mem_cons, List.not_mem_nil, or_false] at htarget
  rcases htarget with rfl | rfl | rfl | rfl
  · exact (Option.isSome_map ..).symm ▸ hrequest (readCalendarEvent chrono)
  · exact (Option.isSome_map ..).symm ▸ hrequest (readWorkCard numbers chrono)
  · exact (Option.isSome_map ..).symm ▸ hrequest readNotification
  · refine (Option.isSome_map ..).symm ▸ ?_
    cases snapshotComplete with
    | none => exact hvec (readServiceHealth numbers chrono)
    | some complete => exact hvec (readServiceHealth numbers chrono)

/-! ## Sources -/

/-- An environment that reads items and instants as the adapters do. -/
def ConfigEnv.reading (env : ConfigEnv ν κ υ) (numbers : ItemNumbers ν) (chrono : Chrono)
    (now : chrono.Instant) : ConfigEnv ν κ υ :=
  { env with
    adapters := { env.adapters with
      numbers := numbers.toNumbers
      normalize := normalizers numbers chrono now }
    normalizeLegacyUtcDatetime := normalizeNaiveDatetime chrono }

theorem ConfigEnv.reading_normalize (env : ConfigEnv ν κ υ) (numbers : ItemNumbers ν)
    (chrono : Chrono) (now : chrono.Instant) :
    (env.reading numbers chrono now).normalizeLegacyUtcDatetime = normalizeNaiveDatetime chrono := by
  rw [ConfigEnv.reading]

/-- What `serde` reads of an `i32` is one. -/
structure Serde.Typed (serde : Serde ν) : Prop where
  mappings : ∀ text config, serde.azureDevOps text = .ok config →
    ∀ m ∈ config.assigneeUserMappings, isI32 m.2
  defaultMaintainerId : ∀ text config, serde.monitoring text = .ok config →
    ∀ n ∈ config.defaultMaintainerId, isI32 n

/-- **The dates of a source can be read**: those of the work items that its batches returned for the
ids they asked for, and those of the events of a sample that is imported as events. -/
structure ReadableDates (serde : Serde ν) (numbers : Numbers ν) (chrono : Chrono)
    (target configJson : String) (log : List (Exchange ν)) : Prop where
  workItems : serde.adapter configJson = .ok (some "azure_devops") →
    ∀ config, serde.azureDevOps configJson = .ok config →
    ∀ url ids fields response values,
      ((.workItemsBatch url ids fields, .answer response) : Exchange ν) ∈ log →
      response.get "value" = some (.array values) →
    ∀ id ∈ ids, ∀ item, lastEntry numbers values id = some item → DatedWorkItem chrono config item
  sampleEvents : ∀ adapter, serde.adapter configJson = .ok (some adapter) →
    sampleKind adapter = some .calendar → target = "calendar_events" →
    ∀ value items, serde.codec.fromStr configJson = .ok value →
      sampleNotificationItems value.1 .calendar = some items →
    ∀ item ∈ items, DatedEvent numbers chrono item

/-- The condition on work items, of the batches that were answered. -/
theorem dated_batches_iff {numbers : Numbers ν} {chrono : Chrono} {config : AzureDevOpsConfig}
    {batches : List (List Int × Exchange ν × List (Json ν))}
    (h : ∀ b ∈ batches, AnsweredBatch numbers b.1 b.2.1 b.2.2) :
    (∀ item ∈ (batches.map (·.2.2)).flatten, DatedWorkItem chrono config item) ↔
      ∀ url ids fields response values,
        ((.workItemsBatch url ids fields, .answer response) : Exchange ν) ∈ batches.map (·.2.1) →
        response.get "value" = some (.array values) →
        ∀ id ∈ ids, ∀ item, lastEntry numbers values id = some item →
          DatedWorkItem chrono config item := by
  constructor
  · intro hdated url ids fields response values hmem hvalues id hid item hitem
    obtain ⟨b, hb, heq⟩ := List.mem_map.mp hmem
    obtain ⟨_, _, response', values', hx, hvalues', -, hitems⟩ := (h b hb).answered
    rw [hx] at heq
    obtain ⟨hrequest, hreply⟩ := Prod.mk.inj heq
    obtain ⟨-, rfl, -⟩ := Request.workItemsBatch.inj hrequest
    obtain rfl := Reply.answer.inj hreply
    obtain rfl := Json.array.inj (Option.some.inj (hvalues.symm.trans hvalues'))
    obtain ⟨item', hmem', hitem'⟩ := exists_of_forall₂ hitems hid
    obtain rfl := Option.some.inj (hitem.symm.trans hitem')
    exact hdated _ (List.mem_flatten_of_mem (List.mem_map_of_mem hb) hmem')
  · intro hdated item hitem
    obtain ⟨_, hmem, hitem⟩ := List.mem_flatten.mp hitem
    obtain ⟨b, hb, rfl⟩ := List.mem_map.mp hmem
    obtain ⟨url, fields, response, values, hx, hvalues, -, hitems⟩ := (h b hb).answered
    obtain ⟨id, hid, hentry⟩ := exists_of_forall₂ hitems.flip hitem
    exact hdated url _ fields response values (List.mem_map.mpr ⟨b, hb, hx⟩) hvalues id hid item
      hentry

/-- A source whose items bring no dates of their own, or only such as are not read. -/
theorem ReadableDates.of_plain {serde : Serde ν} {numbers : Numbers ν} {chrono : Chrono}
    {target configJson adapter : String} {log : List (Exchange ν)}
    (hread : serde.adapter configJson = .ok (some adapter)) (hazure : adapter ≠ "azure_devops")
    (hsample : sampleKind adapter = some .calendar → target ≠ "calendar_events") :
    ReadableDates serde numbers chrono target configJson log where
  workItems := by
    intro h
    exact absurd (Option.some.inj (Except.ok.inj (hread.symm.trans h))) hazure
  sampleEvents := by
    intro adapter' h hkind htarget
    obtain rfl := Option.some.inj (Except.ok.inj (hread.symm.trans h))
    exact absurd htarget (hsample hkind)

/-- An adapter of another list is no sample of events. -/
theorem sampleKind_ne_calendar {names : List String} {adapter : String}
    (hnames : names.all (sampleKind · != some .calendar) = true) (h : adapter ∈ names) :
    sampleKind adapter ≠ some .calendar :=
  bne_iff_ne.mp (List.all_eq_true.mp hnames adapter h)

section Fetched

variable {env : ConfigEnv ν κ υ} {numbers : ItemNumbers ν} {chrono : Chrono} {now : chrono.Instant}
  {target configJson : String} {server : Server Request (Reply ν)} {log log' : List (Exchange ν)}
  {payload : Payload ν} {updated : Option String}

/-- The payload of a board can be read iff the dates of its work items can. -/
theorem readPayload_workItems {read : Except String AzureDevOpsConfig}
    (hmappings : ∀ config, read = .ok config → ∀ m ∈ config.assigneeUserMappings, isI32 m.2)
    (h : fetchAzureDevOpsWorkCards (env.reading numbers chrono now).adapters.web numbers.toNumbers
      (normalizeAzureWorkItem numbers) read server [] = (.ok payload, log)) :
    (readPayload numbers.toNumbers chrono "work_cards" (normalizeLegacyConnectorPayloadTimestamps
        (env.reading numbers chrono now) "work_cards" payload.json)).isSome ↔
      ∀ config, read = .ok config → ∀ url ids fields response values,
        ((.workItemsBatch url ids fields, .answer response) : Exchange ν) ∈ log →
        response.get "value" = some (.array values) →
        ∀ id ∈ ids, ∀ item, lastEntry numbers.toNumbers values id = some item →
          DatedWorkItem chrono config item := by
  obtain ⟨config, _, _, wiqlUrl, query, wiql, _, batches, rfl, -, -, rfl, -, -, -, hanswered, rfl⟩ :=
    fetchAzureDevOpsWorkCards_read h
  have hmappings := hmappings config rfl
  rw [readPayload_isSome_iff (by decide), List.forall_mem_map]
  have hitem := fun item => itemReads_workItem (env.reading numbers chrono now) numbers item
    (env.reading_normalize numbers chrono now) hmappings
  rw [forall₂_congr fun item _ => hitem item, dated_batches_iff hanswered]
  constructor
  · rintro hdated config' hconfig url ids fields response values hmem
    obtain rfl := Except.ok.inj hconfig
    rcases List.mem_cons.mp hmem with heq | hmem
    · cases heq
    · exact hdated url ids fields response values hmem
  · intro hdated url ids fields response values hmem
    exact hdated config rfl url ids fields response values (List.mem_cons_of_mem _ hmem)

/-- The payload of a sample can be read iff the dates of its events can, where they are wanted. -/
theorem readPayload_sample {kind : SampleNotificationKind}
    {value : Except String (Crypto.Value ν)} (htarget : target ∈ kind.targets)
    (h : fetchSampleNotifications (normalizeSampleNotification numbers.toNumbers chrono)
      (defaultSampleNotifications chrono now) kind value = .ok payload) :
    (readPayload numbers.toNumbers chrono target (normalizeLegacyConnectorPayloadTimestamps
        (env.reading numbers chrono now) target payload.json)).isSome ↔
      (kind = .calendar → target = "calendar_events" → ∀ v items, value = .ok v →
        sampleNotificationItems v.1 .calendar = some items →
        ∀ item ∈ items, DatedEvent numbers.toNumbers chrono item) := by
  have hserved : target ∈ importTargets := by
    cases kind <;> simp [SampleNotificationKind.targets] at htarget <;> simp [importTargets, htarget]
    rcases htarget with rfl | rfl <;> simp
  obtain ⟨v, hv, hitems⟩ := Json.Walk.bind_eq_ok.mp h
  obtain rfl := mapError_eq_ok.mp hv
  rw [readPayload_isSome_iff hserved]
  clear h
  split at hitems
  · next items hsome =>
    obtain rfl := Except.ok.inj hitems
    rw [List.forall_mem_map]
    refine (forall₂_congr fun item _ => itemReads_sample (env.reading numbers chrono now) numbers
      item (env.reading_normalize ..) htarget).trans ?_
    constructor
    · rintro hdated rfl rfl v' items' hv' hitems' item hitem
      obtain rfl := Except.ok.inj hv'
      obtain rfl := Option.some.inj (hsome.symm.trans hitems')
      exact hdated item hitem rfl rfl
    · rintro hdated item hitem rfl rfl
      exact hdated rfl rfl v items rfl hsome item hitem
  · next hnone =>
    obtain rfl := Except.ok.inj hitems
    have hdefault : ∀ item ∈ defaultSampleNotifications (ν := ν) chrono now kind,
        itemReads numbers.toNumbers chrono target
          (normalizeItem (env.reading numbers chrono now) (legacyTimestamps target) item) :=
      fun item hitem =>
        itemReads_default (env.reading numbers chrono now) numbers (env.reading_normalize ..) htarget hitem
    refine iff_of_true hdefault ?_
    rintro rfl - v' items hv' hitems'
    obtain rfl := Except.ok.inj hv'
    cases hnone.symm.trans hitems'

/-- What the monitoring adapter makes its payload of. -/
theorem monitoring_payload {web : Web υ} {normalize : Option Int → Json ν → Json ν}
    {read : Except String MonitoringConfig}
    (h : fetchMonitoringServiceHealth web normalize read server log = (.ok payload, log')) :
    ∃ (config : MonitoringConfig) (items : List (Json ν)), read = .ok config ∧
      payload.items = items.map (normalize config.defaultMaintainerId) := by
  obtain ⟨config, hread, h⟩ := Client.ofExcept_bind_ok.mp h
  split at h
  · cases (Client.ofExcept_ok.mp h).1
  obtain ⟨_, -, h⟩ := Client.ofExcept_bind_ok.mp h
  obtain ⟨_, -, h⟩ := Client.ofExcept_bind_ok.mp h
  obtain ⟨_, -, h⟩ := Client.ofExcept_bind_ok.mp h
  obtain ⟨response, mid, -, h⟩ := Client.bind_ok.mp h
  obtain ⟨rfl, -⟩ := Client.pure_ok.mp h
  exact ⟨config, _, mapError_eq_ok.mp hread, rfl⟩

/-- What a Graph adapter makes its payload of. -/
theorem graph_payload {γ : Type} {web : Web υ} {env : TokenEnv ν} {normalize : Json ν → Json ν}
    {configs : Except String (Json ν × γ)} {adapter : γ → Option String}
    {request : γ → GraphRequest}
    (h : (do
        let (configValue, config) ← Client.ofExcept configs
        fetchGraph web env normalize (adapter config) (request config) configValue) server log
      = (.ok ⟨some payload, updated⟩, log')) :
    ∃ items : List (Json ν), payload.items = items.map normalize := by
  obtain ⟨_, -, h⟩ := Client.ofExcept_bind_ok.mp h
  obtain ⟨_, _, collection, -, -, -, -, hpayload⟩ := fetchGraph_ok h
  exact ⟨collection.items, congrArg Payload.items (Option.some.inj hpayload)⟩

/-- **The payload of an adapter can be read iff the dates of its source can.** -/
theorem readPayload_isSome_iff_readableDates (hserde : env.adapters.serde.Typed)
    (h : fetchConnectorPayload (env.reading numbers chrono now).adapters target configJson server []
      = (.ok ⟨some payload, updated⟩, log)) :
    (readPayload numbers.toNumbers chrono target (normalizeLegacyConnectorPayloadTimestamps
        (env.reading numbers chrono now) target payload.json)).isSome ↔
      ReadableDates env.adapters.serde numbers.toNumbers chrono target configJson log := by
  obtain ⟨adapter, hread, h⟩ := Client.ofExcept_bind_ok.mp h
  have hread := mapError_eq_ok.mp hread
  cases adapter with
  | none => cases (Client.pure_ok.mp h).1
  | some adapter =>
  dsimp only at h
  -- an adapter whose items can all be read
  have hplain : target ∈ importTargets → ∀ (items : List (Json ν)) (normalize : Json ν → Json ν),
      payload.items = items.map normalize →
      (∀ item, itemReads numbers.toNumbers chrono target (normalizeItem
        (env.reading numbers chrono now) (legacyTimestamps target) (normalize item))) →
      (readPayload numbers.toNumbers chrono target (normalizeLegacyConnectorPayloadTimestamps
        (env.reading numbers chrono now) target payload.json)).isSome := by
    intro htarget items normalize hitems hreads
    rw [readPayload_isSome_iff htarget, hitems, List.forall_mem_map]
    exact fun item _ => hreads item
  split at h
  · next hazure =>
    subst hazure
    obtain rfl := List.mem_singleton.mp (serving_target h)
    refine (readPayload_workItems (hserde.mappings configJson)
      (adapterPayload_ok (serving_ok h))).trans ⟨fun hdated => ⟨fun _ => hdated, ?_⟩,
        fun hdated => hdated.workItems hread⟩
    intro _ _ _ htarget
    exact absurd htarget (by decide)
  next hazure =>
  split at h
  · next hmonitoring =>
    subst hmonitoring
    obtain rfl := List.mem_singleton.mp (serving_target h)
    obtain ⟨config, items, hconfig, hitems⟩ := monitoring_payload
      (adapterPayload_ok (serving_ok h))
    refine iff_of_true (hplain (by decide) items _ hitems fun item =>
      itemReads_service (env.reading numbers chrono now) numbers item
        (env.reading_normalize numbers chrono now)
        (hserde.defaultMaintainerId configJson config hconfig))
      (.of_plain hread hazure fun _ => by decide)
  next hmonitoring =>
  split at h
  · next hcalendar =>
    have htarget := serving_target h
    obtain ⟨items, hitems⟩ := graph_payload (serving_ok h)
    refine iff_of_true (hplain ?_ items _ hitems fun item =>
      itemReads_graphEvent (env.reading numbers chrono now) numbers item
        (env.reading_normalize numbers chrono now) htarget)
      (.of_plain hread hazure fun hkind => ?_)
    · rcases List.mem_cons.mp htarget with rfl | htarget
      · decide
      · obtain rfl := List.mem_singleton.mp htarget
        decide
    · exact absurd hkind (sampleKind_ne_calendar (by decide) hcalendar)
  next hcalendar =>
  split at h
  · next hmail =>
    obtain rfl := List.mem_singleton.mp (serving_target h)
    obtain ⟨items, hitems⟩ := graph_payload (serving_ok h)
    exact iff_of_true (hplain (by decide) items _ hitems fun item =>
      (notificationMembers _ _ _ _ _ _ _).reads) (.of_plain hread hazure fun _ => by decide)
  next hmail =>
  split at h
  · next herp =>
    obtain rfl := List.mem_singleton.mp (serving_target h)
    obtain ⟨config, url, response, items, -, -, -, -, rfl⟩ := fetchErpPrivateMessages_ok
      (adapterPayload_ok (serving_ok h))
    exact iff_of_true (hplain (by decide) items _ rfl fun item =>
      (notificationMembers _ _ _ _ _ _ _).reads) (.of_plain hread hazure fun _ => by decide)
  next herp =>
  cases hkind : sampleKind adapter with
  | none =>
    rw [hkind] at h
    cases (Client.ofExcept_ok.mp h).1
  | some kind =>
    rw [hkind] at h
    have htarget := serving_target h
    obtain ⟨hsample, -⟩ := Client.ofExcept_ok.mp (adapterPayload_ok (serving_ok h))
    refine (readPayload_sample htarget hsample).trans ?_
    constructor
    · intro hdated
      refine ⟨fun h => ?_, fun adapter' h hkind' => ?_⟩
      · exact absurd (Option.some.inj (Except.ok.inj (hread.symm.trans h))) hazure
      · obtain rfl := Option.some.inj (Except.ok.inj (hread.symm.trans h))
        obtain rfl := Option.some.inj (hkind.symm.trans hkind')
        exact hdated rfl
    · rintro hdated rfl
      exact hdated.sampleEvents adapter hread hkind

end Fetched

/-! ## A board with a work item that was changed soon -/

namespace Sample

/-- A calendar of one instant. -/
def chrono : Chrono where
  Instant := Unit
  parseFromRfc3339 := fun value => if value = "2026-07-10T09:00:00Z" then some () else none
  parseFromStr := fun _ _ => none
  addMinutes := fun _ _ => ()
  toRfc3339 := fun _ => "2026-07-10T09:00:00Z"
  toRfc3339Secs := fun _ => "2026-07-10T09:00:00Z"
  deserialize := fun value =>
    if value = "2026-07-10T09:00:00Z" then some 1783674000000000 else none
  deserialize_toRfc3339 := fun _ => rfl
  deserialize_toRfc3339Secs := fun _ => rfl

/-- Only the adapter, its config and the library matter to the fetch. -/
def boardEnv : ConfigEnv Int Unit String where
  adapters :=
    { web := boardWeb
      numbers := itemNumbers.toNumbers
      clock := ⟨"", fun _ => "", fun _ => "", fun n => n ≤ 86400, fun _ _ => "", fun _ => none⟩
      serde :=
        { codec := ⟨fun _ => .error "", fun _ => .error ""⟩
          adapter := fun _ => .ok (some "azure_devops")
          erp := fun _ => .error ""
          mail := fun _ => .error ""
          calendar := fun _ => .error ""
          azureDevOps := fun _ => .ok boardConfig
          monitoring := fun _ => .error ""
          tokenResponse := fun _ => .error "" }
      normalize := normalizers itemNumbers chrono () }
  cipher := Crypto.wrapping
  secrets := Crypto.development
  encodeState := fun source _ _ => .ok source
  stateSource := some
  normalizeLegacyUtcDatetime := normalizeNaiveDatetime chrono
  validateConfig := fun _ => []

theorem boardEnv_typed : boardEnv.adapters.serde.Typed where
  mappings := by
    intro text config h m hm
    obtain rfl : boardConfig = config := Except.ok.inj h
    cases hm
  defaultMaintainerId := nofun

/-- Two work items, and when the second was changed. -/
def datedServer (changed : String) : Server Request (Reply Int) := fun _ request =>
  let entry (id : Int) (changed : String) : Json Int := .object
    [("id", .number id), ("fields", .object [("System.ChangedDate", .str changed)])]
  match request with
  | .wiql _ _ => .answer (.object [("workItems", .array
      [.object [("id", .number 7)], .object [("id", .number 5)]])])
  | _ => .answer (.object [("value", .array
      [entry 7 "2026-07-10T09:00:00Z", entry 5 changed])])

/-- What is fetched from it. -/
def datedFetch (changed : String) :=
  fetchConnectorPayload (boardEnv.reading itemNumbers chrono ()).adapters "work_cards" ""
    (datedServer changed) []

/-- What is read of a payload. -/
def datedRead (payload : Payload Int) : Option PayloadRequest :=
  readPayload itemNumbers.toNumbers chrono "work_cards" (normalizeLegacyConnectorPayloadTimestamps
    (boardEnv.reading itemNumbers chrono ()) "work_cards" payload.json)

end Sample

/-- **One work item fails the other**: the second was changed "soon", and nothing can be read of a
payload whose first item is in order. -/
theorem changed_soon_fails_all :
    ∃ payload log, Sample.datedFetch "soon" = (.ok ⟨some payload, none⟩, log) ∧
      payload.items.map externalIdOf = [some "7", some "5"] ∧
      (Sample.datedRead ⟨payload.items.take 1, payload.snapshotComplete⟩).isSome ∧
      Sample.datedRead payload = none :=
  ⟨_, _, rfl, rfl, rfl, rfl⟩

/-- With a date that can be read the condition holds, and the payload is read. -/
theorem readable_board :
    ∃ payload log, Sample.datedFetch "2026-07-10T09:00:00Z" = (.ok ⟨some payload, none⟩, log) ∧
      (Sample.datedRead payload).isSome ∧ ReadableDates Sample.boardEnv.adapters.serde
        Sample.itemNumbers.toNumbers Sample.chrono "work_cards" "" log := by
  obtain ⟨payload, log, hfetch, hread⟩ : ∃ payload log, Sample.datedFetch "2026-07-10T09:00:00Z"
      = (.ok ⟨some payload, none⟩, log) ∧ (Sample.datedRead payload).isSome := ⟨_, _, rfl, rfl⟩
  exact ⟨payload, log, hfetch, hread,
    (readPayload_isSome_iff_readableDates Sample.boardEnv_typed hfetch).mp hread⟩

end DevPortal
