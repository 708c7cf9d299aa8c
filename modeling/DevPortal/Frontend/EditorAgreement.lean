import DevPortal.Frontend.ConnectorConfig

/-!
# Frontend/EditorAgreement — the editor's checks and the server's

    config ──editor──▸ no diagnostic          a URL in capital letters, a number with a point,
       └────server───▸ violations             a text of many octets, …

Both ask the same questions in the same order, so each field can be taken for itself: given that the
editor finds nothing wrong with it, the server finds nothing wrong just if it is written in a way that
both read alike (`validateU64Range_iff` and its neighbours).  The two dispatches meet where the adapter
is trimmed alike (`trim_adapter`).
-/

namespace DevPortal

open Validation

/-- How the server reads the numbers of a config. -/
def serdeNumbers (text : JsonNumber → String) : ConfigNumbers JsonNumber :=
  ⟨⟨JsonNumber.asI64, text⟩, JsonNumber.asU64⟩

/-! ## What both read alike -/

namespace WrittenAlike

variable (config : Json JsonNumber)

/-- A URL begins with its scheme in lower case, and two slashes. -/
def Url (field : String) : Prop :=
  ∀ url, ConnectorConfigValidation.fieldString config [field] = some url →
    Text.startsWith url "http://" ∨ Text.startsWith url "https://"

/-- A number is written with its digits alone. -/
def Number (field : String) : Prop := ∀ x, config.get field = some (.number x) → x.Plain

/-- …and fits a word. -/
def Word (field : String) (limit : Nat) : Prop :=
  ∀ x, config.get field = some (.number x) → x.Plain ∧ x.whole < limit

/-- A text is more than white space. -/
def Name (field : String) : Prop :=
  ∀ text, config.get field = some (.str text) → ∃ c ∈ text.toList, Text.isWhitespace c = false

/-- A text has no byte order mark, which only a script trims. -/
def Unmarked (text : String) : Prop := '\ufeff' ∉ text.toList

/-- A text has something in it, and not too many octets. -/
def Bounded (maxLength : Nat) (text : String) : Prop :=
  (∃ c ∈ text.toList, Text.isWhitespace c = false) ∧ (Text.trim text).utf8ByteSize ≤ maxLength

/-- A descriptor of at most 512 octets, and a number with its digits alone. -/
def Mapping (mapping : String × Json JsonNumber) : Prop :=
  (∃ c ∈ mapping.1.toList, Text.isWhitespace c = false) ∧ mapping.1.utf8ByteSize ≤ 512 ∧
    ∀ x, mapping.2 = .number x → x.Plain

/-- The config of Azure DevOps. -/
structure AzureDevOps : Prop where
  urls : ∀ field ∈ ["wiql_url", "work_items_url", "base_url", "web_url_base"], Url config field
  names : ConnectorConfigEditor.hasAllNonEmpty config ["wiql_url", "work_items_url"] ∨
    Name config "organization" ∧ Name config "project"
  timeout : Word config "timeout_seconds" (2 ^ 64)
  maxItems : Number config "max_items"
  dueDate : ∀ text, config.get "due_date_field" = some (.str text) → Bounded 128 text
  mappings : ∀ mappings, config.get "assignee_user_mappings" = some (.object mappings) →
    ∀ mapping ∈ mappings, Mapping mapping

/-- The config of the monitoring. -/
structure Monitoring : Prop where
  url : Url config "url"
  maintainer : Word config "default_maintainer_id" (2 ^ 63)
  timeout : Word config "timeout_seconds" (2 ^ 64)

/-- The config of a calendar or a mailbox. -/
structure Graph (urls numbers : List String) : Prop where
  urls : ∀ field ∈ urls, Url config field
  timeout : Word config "timeout_seconds" (2 ^ 64)
  numbers : ∀ field ∈ numbers, Number config field

/-- The config of the ERP. -/
structure Erp : Prop where
  urls : ∀ field ∈ ["messages_url", "private_messages_url", "url"], Url config field
  timeout : Word config "timeout_seconds" (2 ^ 64)
  numbers : ∀ field ∈ ["top", "limit", "lookback_hours"], Number config field
  header : ∀ text, config.get "api_key_header" = some (.str text) → Unmarked text

/-- The config of an adapter. -/
def Adapter (adapter : String) : Prop :=
  if adapter = "azure_devops" then AzureDevOps config
  else if adapter = "monitoring" then Monitoring config
  else if adapter ∈ ["microsoft_graph_calendar", "graph_calendar", "outlook_calendar"] then
    Graph config ["calendar_view_url", "base_url", "token_url", "authorization_url"]
      ["top", "lookahead_hours", "max_pages", "max_items"]
  else if adapter ∈ ["microsoft_graph_mail", "graph_mail", "outlook_mail"] then
    Graph config ["messages_url", "mail_messages_url", "base_url", "token_url", "authorization_url"]
      ["top", "lookback_hours", "max_pages", "max_items"]
  else if adapter ∈ ["erp_private_messages", "erp_messages_http", "erp_http"] then Erp config
  else True

/-- **A config that both read alike.** -/
def Config : Prop :=
  ∀ adapter, config.get "adapter" = some (.str adapter) →
    Unmarked adapter ∧ Adapter config (Script.trim adapter)

end WrittenAlike

/-! ## Checks -/

section Checks

variable {config : Json JsonNumber} {field : String}

@[simp] theorem diagnose_eq_nil {failed : Bool} {message : String} :
    ConnectorConfigEditor.diagnose failed message = [] ↔ failed = false := by
  cases failed <;> simp [ConnectorConfigEditor.diagnose]

theorem any_not_eq_false {α : Type} {o : Option α} {passes : α → Bool} :
    (o.any fun a => !passes a) = false ↔ ∀ a, o = some a → passes a := by
  cases o with
  | none => simp
  | some a => simp

theorem checkField_eq_nil {ν : Type} {config : Json ν} {passes : Json ν → Bool} {message : String} :
    ConnectorConfigValidation.checkField config field passes message = [] ↔
      ∀ value, config.get field = some value → passes value := by
  rw [ConnectorConfigValidation.checkField, violation_eq_nil, any_not_eq_false]

/-- A whole number that the editor finds is a number of the text. -/
theorem exists_number {value : Json JsonNumber} {p : Int → Bool}
    (h : (ConnectorConfigEditor.integer? value).any p) :
    ∃ x z, value = .number x ∧ x.integer? = some z ∧ p z := by
  obtain ⟨z, hz, hp⟩ := (Option.any_eq_true _ _).mp h
  cases value with
  | number x => exact ⟨x, z, rfl, hz, hp⟩
  | null => cases hz
  | bool b => cases hz
  | str s => cases hz
  | array items => cases hz
  | object fields => cases hz

/-- **A check of a number**: the server's question and the way the number is written. -/
theorem number_iff {p : Int → Bool} {passes : Json JsonNumber → Bool} {Written : JsonNumber → Prop}
    {message : String}
    (hwritten : ∀ x z, x.integer? = some z → p z → (passes (.number x) ↔ Written x))
    (heditor : ∀ value, config.get field = some value → (ConnectorConfigEditor.integer? value).any p) :
    ConnectorConfigValidation.checkField config field passes message = [] ↔
      ∀ x, config.get field = some (.number x) → Written x := by
  rw [checkField_eq_nil]
  constructor
  · intro h x hx
    obtain ⟨x', z, hvalue, hz, hp⟩ := exists_number (heditor _ hx)
    obtain rfl := Json.number.inj hvalue
    exact (hwritten x z hz hp).mp (h _ hx)
  · intro h value hvalue
    obtain ⟨x, z, rfl, hz, hp⟩ := exists_number (heditor _ hvalue)
    exact (hwritten x z hz hp).mpr (h x hvalue)

variable {text : JsonNumber → String} {low high : Nat}

theorem validateU64Range_iff (hlow : 0 < low) (hhigh : high < 2 ^ 53)
    (h : ConnectorConfigEditor.validateIntegerRange config field low high = []) :
    ConnectorConfigValidation.validateU64Range (serdeNumbers text) config field low high = [] ↔
      WrittenAlike.Number config field := by
  refine number_iff (fun x z hz hp => ?_) (any_not_eq_false.mp (diagnose_eq_nil.mp h))
  simp only [Bool.and_eq_true, decide_eq_true_eq] at hp
  exact JsonNumber.any_asU64_range hlow hhigh hz hp.1 hp.2

theorem validateI64Range_iff (hlow : 0 < low) (hhigh : high < 2 ^ 53)
    (h : ConnectorConfigEditor.validateIntegerRange config field low high = []) :
    ConnectorConfigValidation.validateI64Range (serdeNumbers text) config field low high = [] ↔
      WrittenAlike.Number config field := by
  refine number_iff (fun x z hz hp => ?_) (any_not_eq_false.mp (diagnose_eq_nil.mp h))
  simp only [Bool.and_eq_true, decide_eq_true_eq] at hp
  exact JsonNumber.any_asI64_range hlow hhigh hz hp.1 hp.2

theorem validatePositiveU64_iff
    (h : ConnectorConfigEditor.validatePositiveInteger config field = []) :
    ConnectorConfigValidation.validatePositiveU64 (serdeNumbers text) config field = [] ↔
      WrittenAlike.Word config field (2 ^ 64) := by
  refine number_iff (fun x z hz hp => ?_) (any_not_eq_false.mp (diagnose_eq_nil.mp h))
  exact JsonNumber.any_asU64_pos hz (of_decide_eq_true hp)

theorem validatePositiveI64_iff
    (h : ConnectorConfigEditor.validatePositiveInteger config field = []) :
    ConnectorConfigValidation.validatePositiveI64 (serdeNumbers text) config field = [] ↔
      WrittenAlike.Word config field (2 ^ 63) := by
  refine number_iff (fun x z hz hp => ?_) (any_not_eq_false.mp (diagnose_eq_nil.mp h))
  exact JsonNumber.any_asI64_pos hz (of_decide_eq_true hp)

/-! ## Texts -/

theorem fieldString_eq_some {url : String} :
    ConnectorConfigValidation.fieldString config [field] = some url ↔
      ∃ s, config.get field = some (.str s) ∧ Text.trimmed? s = some url := by
  have hfield : DevPortal.field config [field] = config.get field := by
    rw [DevPortal.field, List.findSome?_cons, List.findSome?_nil]
    cases config.get field <;> rfl
  rw [ConnectorConfigValidation.fieldString, hfield]
  cases config.get field with
  | none => simp
  | some value => cases value <;> simp [Json.asStr]

theorem server_hasNonEmpty_iff :
    ConnectorConfigValidation.hasNonEmpty config field ↔
      ∃ s, config.get field = some (.str s) ∧ ∃ c ∈ s.toList, Text.isWhitespace c = false := by
  rw [ConnectorConfigValidation.hasNonEmpty, Option.isSome_iff_exists]
  constructor
  · rintro ⟨url, hurl⟩
    obtain ⟨s, hs, htrim⟩ := fieldString_eq_some.mp hurl
    exact ⟨s, hs, Text.trimmed?_isSome_iff.mp (Option.isSome_iff_exists.mpr ⟨url, htrim⟩)⟩
  · rintro ⟨s, hs, hc⟩
    obtain ⟨url, htrim⟩ := Option.isSome_iff_exists.mp (Text.trimmed?_isSome_iff.mpr hc)
    exact ⟨url, fieldString_eq_some.mpr ⟨s, hs, htrim⟩⟩

theorem editor_hasNonEmpty_iff :
    ConnectorConfigEditor.hasNonEmpty config field ↔
      ∃ s, config.get field = some (.str s) ∧ Script.trim s ≠ "" := by
  rw [ConnectorConfigEditor.hasNonEmpty, decide_eq_true_eq]
  unfold ConnectorConfigEditor.stringField
  constructor
  · intro h
    split at h
    · next s hs => exact ⟨s, hs, h⟩
    · exact absurd rfl h
  · rintro ⟨s, hs, h⟩
    rw [hs]
    exact h

theorem stringField_eq {s : String} (h : config.get field = some (.str s)) :
    ConnectorConfigEditor.stringField config field = Script.trim s := by
  unfold ConnectorConfigEditor.stringField
  rw [h]

theorem isWhitespace_eq_false_of_isAlpha {c : Char} (h : c.isAlpha) : Text.isWhitespace c = false := by
  by_contra hspace
  have hbound : c.toNat < 128 := by
    simp only [Char.isAlpha, Char.isUpper, Char.isLower, Bool.or_eq_true, Bool.and_eq_true,
      decide_eq_true_eq] at h
    rcases h with ⟨-, h⟩ | ⟨-, h⟩
    · exact Nat.lt_of_le_of_lt (UInt32.le_iff_toNat_le.mp h) (by decide)
    · exact Nat.lt_of_le_of_lt (UInt32.le_iff_toNat_le.mp h) (by decide)
  have hall : ∀ n : Fin 128, (!(Char.ofNat n).isAlpha || !Text.isWhitespace (Char.ofNat n)) = true := by
    decide +kernel
  have hc := hall ⟨c.toNat, hbound⟩
  rw [Char.ofNat_toNat, h] at hc
  exact hspace (by simpa using hc)

section Urls

variable {browser : Browser}

/-- The editor has nothing against a URL. -/
def UrlAccepted (browser : Browser) (config : Json JsonNumber) (field : String) : Prop :=
  ConnectorConfigEditor.hasNonEmpty config field →
    ConnectorConfigEditor.isAbsoluteHttpUrl browser (ConnectorConfigEditor.stringField config field)

theorem editor_validateUrlFields {fields : List String}
    (h : ConnectorConfigEditor.validateUrlFields browser config fields = []) :
    ∀ field ∈ fields, UrlAccepted browser config field := by
  intro field hfield hne
  have hnil := List.flatMap_eq_nil_iff.mp h field hfield
  rw [diagnose_eq_nil] at hnil
  rw [ConnectorConfigEditor.hasNonEmpty] at hne
  simpa [hne] using hnil

theorem server_validateUrlFields_iff {fields : List String} :
    ConnectorConfigValidation.validateUrlFields config fields = [] ↔
      ∀ field ∈ fields, WrittenAlike.Url config field := by
  rw [ConnectorConfigValidation.validateUrlFields, List.flatMap_eq_nil_iff]
  refine forall₂_congr fun field _ => ?_
  rw [violation_eq_nil, any_not_eq_false]
  exact forall₂_congr fun url _ => Bool.or_eq_true_iff

/-- A URL that the editor accepts is more than white space. -/
theorem hasNonEmpty_of_accepted (h : UrlAccepted browser config field)
    (hne : ConnectorConfigEditor.hasNonEmpty config field) :
    ConnectorConfigValidation.hasNonEmpty config field := by
  obtain ⟨s, hs, -⟩ := editor_hasNonEmpty_iff.mp hne
  obtain ⟨protocol, hprotocol, -⟩ := (Option.any_eq_true _ _).mp (h hne)
  rw [stringField_eq hs] at hprotocol
  obtain ⟨c, hc, halpha⟩ := browser.urlProtocol_letter hprotocol
  exact server_hasNonEmpty_iff.mpr ⟨s, hs, c, Script.mem_of_mem_trim hc,
    isWhitespace_eq_false_of_isAlpha halpha⟩

/-- **A URL that both accept is there for both.** -/
theorem hasNonEmpty_iff (h : UrlAccepted browser config field) (hurl : WrittenAlike.Url config field) :
    ConnectorConfigValidation.hasNonEmpty config field ↔
      ConnectorConfigEditor.hasNonEmpty config field := by
  refine ⟨fun hne => ?_, hasNonEmpty_of_accepted h⟩
  obtain ⟨url, hfield⟩ := Option.isSome_iff_exists.mp hne
  obtain ⟨s, hs, htrim⟩ := fieldString_eq_some.mp hfield
  have hstart : 'h' ∈ url.toList := by
    have hprefix : ∀ start : String, 'h' ∈ start.toList → Text.startsWith url start →
        'h' ∈ url.toList := fun start hmem hstart =>
      (List.isPrefixOf_iff_prefix.mp hstart).subset hmem
    rcases hurl url hfield with hstart | hstart
    · exact hprefix _ (by decide) hstart
    · exact hprefix _ (by decide) hstart
  have hmem : 'h' ∈ s.toList := by
    have hurl : url = Text.trim s := by
      unfold Text.trimmed? at htrim
      dsimp only at htrim
      split at htrim
      · cases htrim
      · exact (Option.some.inj htrim).symm
    rw [hurl, Text.trim, String.toList_ofList, List.mem_reverse] at hstart
    have hstart := (List.dropWhile_sublist _).mem hstart
    exact (List.dropWhile_sublist _).mem (List.mem_reverse.mp hstart)
  refine editor_hasNonEmpty_iff.mpr ⟨s, hs, fun hempty => ?_⟩
  have hleft := Script.mem_trim hmem (by decide)
  rw [hempty] at hleft
  exact List.not_mem_nil hleft

theorem server_requireUrlAny_iff {fields : List String}
    (h : ConnectorConfigEditor.requireUrlAny browser config fields = []) :
    ConnectorConfigValidation.requireUrlAny config fields = [] ↔
      ∀ field ∈ fields, WrittenAlike.Url config field := by
  unfold ConnectorConfigEditor.requireUrlAny at h
  split at h
  · next hany =>
    obtain ⟨field, hfield, hne⟩ := List.any_eq_true.mp hany
    have hserver : fields.any (ConnectorConfigValidation.hasNonEmpty config) :=
      List.any_eq_true.mpr
        ⟨field, hfield, hasNonEmpty_of_accepted (editor_validateUrlFields h field hfield) hne⟩
    rw [ConnectorConfigValidation.requireUrlAny, if_pos hserver]
    exact server_validateUrlFields_iff
  · cases h

end Urls

/-! ## Adapters -/

theorem server_requireTarget {adapter target expected : String}
    (h : ConnectorConfigEditor.requireTarget adapter target expected = []) :
    ConnectorConfigValidation.requireTarget adapter target expected = [] := by
  rw [ConnectorConfigEditor.requireTarget, diagnose_eq_nil] at h
  rw [ConnectorConfigValidation.requireTarget, violation_eq_nil]
  exact h

theorem server_requireOneOfTargets {adapter target : String} {expected : List String}
    (h : ConnectorConfigEditor.requireOneOfTargets adapter target expected = []) :
    ConnectorConfigValidation.requireOneOfTargets adapter target expected = [] := by
  rw [ConnectorConfigEditor.requireOneOfTargets, diagnose_eq_nil] at h
  rw [ConnectorConfigValidation.requireOneOfTargets, violation_eq_nil]
  exact h

theorem isBlank_eq_false_iff {s : String} :
    Text.isBlank s = false ↔ ∃ c ∈ s.toList, Text.isWhitespace c = false := by
  rw [Text.isBlank, List.all_eq_false]
  simp only [Bool.not_eq_true]

/-- The server's `due_date_field`. -/
theorem validateAzureDueDateField_iff
    (h : ConnectorConfigEditor.validateOptionalBoundedString config "due_date_field" 128 = []) :
    ConnectorConfigValidation.validateAzureDueDateField config = [] ↔
      ∀ text, config.get "due_date_field" = some (.str text) → WrittenAlike.Bounded 128 text := by
  unfold ConnectorConfigEditor.validateOptionalBoundedString at h
  unfold ConnectorConfigValidation.validateAzureDueDateField
  split at h
  · next hnone => simp [hnone]
  · next s hs =>
    simp only [hs, Json.asStr, Option.bind_some, Option.some.injEq, Json.str.injEq, forall_eq']
    rw [WrittenAlike.Bounded, ← Text.trimmed?_isSome_iff]
    cases htrim : Text.trimmed? s with
    | none => simp
    | some field =>
      have hfield : field = Text.trim s := by
        unfold Text.trimmed? at htrim
        dsimp only at htrim
        split at htrim
        · cases htrim
        · exact (Option.some.inj htrim).symm
      simp [hfield]
  · cases h

/-- The server's `assignee_user_mappings`. -/
theorem validateAzureAssigneeMappings_iff
    (h : ConnectorConfigEditor.validateAzureAssigneeMappings config = []) :
    ConnectorConfigValidation.validateAzureAssigneeMappings (serdeNumbers text) config = [] ↔
      ∀ mappings, config.get "assignee_user_mappings" = some (.object mappings) →
        ∀ mapping ∈ mappings, WrittenAlike.Mapping mapping := by
  unfold ConnectorConfigEditor.validateAzureAssigneeMappings at h
  unfold ConnectorConfigValidation.validateAzureAssigneeMappings
  cases hvalue : config.get "assignee_user_mappings" with
  | none => simp
  | some value =>
    rw [hvalue] at h
    cases value with
    | object mappings =>
      simp only [objectMembers, List.flatMap_eq_nil_iff, List.append_eq_nil_iff, diagnose_eq_nil,
        violation_eq_nil, Bool.not_eq_false', Bool.or_eq_false_iff, isBlank_eq_false_iff,
        decide_eq_false_iff_not, not_lt, Option.some.injEq, Json.object.injEq, forall_eq'] at h ⊢
      refine forall₂_congr fun mapping hmem => ?_
      obtain ⟨x, z, hnumber, hz, hp⟩ := exists_number (h mapping hmem).2
      have hvalue : ((asI64 (serdeNumbers text).toNumbers mapping.2).any fun n =>
          1 ≤ n && n ≤ i32Max) ↔ x.Plain := by
        rw [hnumber]
        simp only [Bool.and_eq_true, decide_eq_true_eq] at hp
        exact JsonNumber.any_asI64_range (by decide) (by decide) hz hp.1 hp.2
      rw [hvalue, WrittenAlike.Mapping, hnumber, and_assoc]
      simp
    | null => cases h
    | bool b => cases h
    | number n => cases h
    | str s => cases h
    | array items => cases h

variable {browser : Browser} {target : String}

/-- The names that Azure DevOps needs, unless both URLs are there. -/
theorem names_iff (hurls : ∀ field ∈ ["wiql_url", "work_items_url", "base_url", "web_url_base"],
      UrlAccepted browser config field)
    (hwritten : ∀ field ∈ ["wiql_url", "work_items_url", "base_url", "web_url_base"],
      WrittenAlike.Url config field)
    (h : ConnectorConfigEditor.hasAllNonEmpty config ["wiql_url", "work_items_url"] = false →
      ConnectorConfigEditor.hasNonEmpty config "organization" ∧
        ConnectorConfigEditor.hasNonEmpty config "project") :
    ((["wiql_url", "work_items_url"].all (ConnectorConfigValidation.hasNonEmpty config) ∨
        ConnectorConfigValidation.hasNonEmpty config "organization") ∧
      (["wiql_url", "work_items_url"].all (ConnectorConfigValidation.hasNonEmpty config) ∨
        ConnectorConfigValidation.hasNonEmpty config "project")) ↔
      ConnectorConfigEditor.hasAllNonEmpty config ["wiql_url", "work_items_url"] ∨
        WrittenAlike.Name config "organization" ∧ WrittenAlike.Name config "project" := by
  have hall : ["wiql_url", "work_items_url"].all (ConnectorConfigValidation.hasNonEmpty config) ↔
      ConnectorConfigEditor.hasAllNonEmpty config ["wiql_url", "work_items_url"] := by
    rw [ConnectorConfigEditor.hasAllNonEmpty, List.all_eq_true, List.all_eq_true]
    refine forall₂_congr fun field hfield => ?_
    have hmem : field ∈ ["wiql_url", "work_items_url", "base_url", "web_url_base"] := by
      simp only [List.mem_cons, List.not_mem_nil, or_false] at hfield ⊢
      tauto
    exact hasNonEmpty_iff (hurls field hmem) (hwritten field hmem)
  have hname : ∀ field, ConnectorConfigEditor.hasNonEmpty config field →
      (ConnectorConfigValidation.hasNonEmpty config field ↔ WrittenAlike.Name config field) := by
    intro field hne
    obtain ⟨s, hs, -⟩ := editor_hasNonEmpty_iff.mp hne
    rw [server_hasNonEmpty_iff, WrittenAlike.Name, hs]
    simp
  rw [hall, ← or_and_left]
  refine or_congr_right' fun hnot => ?_
  obtain ⟨horganization, hproject⟩ := h (Bool.eq_false_iff.mpr hnot)
  rw [hname _ horganization, hname _ hproject]

/-- **Azure DevOps.** -/
theorem validateAzureDevOps_iff
    (h : ConnectorConfigEditor.validateAzureDevOpsConfig browser target config = []) :
    ConnectorConfigValidation.validateAzureDevOps (serdeNumbers text) target config = [] ↔
      WrittenAlike.AzureDevOps config := by
  simp only [ConnectorConfigEditor.validateAzureDevOpsConfig, List.append_eq_nil_iff] at h
  obtain ⟨⟨⟨⟨⟨⟨htarget, hnames⟩, hurls⟩, htimeout⟩, hmaxItems⟩, hdueDate⟩, hmappings⟩ := h
  have hneeded : ConnectorConfigEditor.hasAllNonEmpty config ["wiql_url", "work_items_url"] = false →
      ConnectorConfigEditor.hasNonEmpty config "organization" ∧
        ConnectorConfigEditor.hasNonEmpty config "project" := by
    intro hnot
    rw [if_neg (Bool.eq_false_iff.mp hnot)] at hnames
    simpa [ConnectorConfigEditor.requireNonEmpty] using hnames
  have hmissing : ∀ field message,
      ConnectorConfigValidation.requireNonEmptyWhenMissingAll config field
        ["wiql_url", "work_items_url"] message = [] ↔
      (["wiql_url", "work_items_url"].all (ConnectorConfigValidation.hasNonEmpty config) ∨
        ConnectorConfigValidation.hasNonEmpty config field) := by
    intro field message
    rw [ConnectorConfigValidation.requireNonEmptyWhenMissingAll, violation_eq_nil,
      Bool.and_eq_false_iff, Bool.not_eq_false', Bool.not_eq_false']
  simp only [ConnectorConfigValidation.validateAzureDevOps, List.append_eq_nil_iff,
    server_requireTarget htarget, true_and, hmissing, server_validateUrlFields_iff,
    validatePositiveU64_iff htimeout, validateU64Range_iff (by decide) (by decide) hmaxItems,
    validateAzureDueDateField_iff hdueDate, validateAzureAssigneeMappings_iff hmappings]
  constructor
  · rintro ⟨⟨⟨⟨⟨hserver, hwritten⟩, htimeout⟩, hmaxItems⟩, hdueDate⟩, hmappings⟩
    exact ⟨hwritten, (names_iff (editor_validateUrlFields hurls) hwritten hneeded).mp hserver, htimeout,
      hmaxItems, hdueDate, hmappings⟩
  · rintro ⟨hwritten, hnames, htimeout, hmaxItems, hdueDate, hmappings⟩
    exact ⟨⟨⟨⟨⟨(names_iff (editor_validateUrlFields hurls) hwritten hneeded).mpr hnames, hwritten⟩,
      htimeout⟩, hmaxItems⟩, hdueDate⟩, hmappings⟩

/-- **The monitoring.** -/
theorem validateMonitoring_iff
    (h : ConnectorConfigEditor.validateMonitoringConfig browser target config = []) :
    ConnectorConfigValidation.validateMonitoring (serdeNumbers text) target config = [] ↔
      WrittenAlike.Monitoring config := by
  simp only [ConnectorConfigEditor.validateMonitoringConfig, List.append_eq_nil_iff] at h
  obtain ⟨⟨⟨htarget, hurls⟩, hmaintainer⟩, htimeout⟩ := h
  simp only [ConnectorConfigValidation.validateMonitoring, List.append_eq_nil_iff,
    server_requireTarget htarget, true_and, server_requireUrlAny_iff hurls,
    validatePositiveI64_iff hmaintainer, validatePositiveU64_iff htimeout, List.forall_mem_singleton]
  exact ⟨fun ⟨⟨hurl, hmaintainer⟩, htimeout⟩ => ⟨hurl, hmaintainer, htimeout⟩,
    fun ⟨hurl, hmaintainer, htimeout⟩ => ⟨⟨hurl, hmaintainer⟩, htimeout⟩⟩

/-- **The calendar.** -/
theorem validateGraphCalendar_iff
    (h : ConnectorConfigEditor.validateGraphCalendarConfig browser target config = []) :
    ConnectorConfigValidation.validateGraphCalendar (serdeNumbers text) target config = [] ↔
      WrittenAlike.Graph config
        ["calendar_view_url", "base_url", "token_url", "authorization_url"]
        ["top", "lookahead_hours", "max_pages", "max_items"] := by
  simp only [ConnectorConfigEditor.validateGraphCalendarConfig, List.append_eq_nil_iff] at h
  obtain ⟨⟨⟨⟨⟨⟨⟨⟨htarget, -⟩, htimeout⟩, htop⟩, hhours⟩, hpages⟩, hitems⟩, -⟩, -⟩ := h
  simp only [ConnectorConfigValidation.validateGraphCalendar, List.append_eq_nil_iff,
    server_requireOneOfTargets htarget, true_and, server_validateUrlFields_iff,
    validatePositiveU64_iff htimeout, validateU64Range_iff (by decide) (by decide) htop,
    validateU64Range_iff (by decide) (by decide) hpages,
    validateU64Range_iff (by decide) (by decide) hitems]
  have hhours : ConnectorConfigValidation.validateI64Range (serdeNumbers text) config
      "lookahead_hours" 1 168 = [] ↔ WrittenAlike.Number config "lookahead_hours" :=
    validateI64Range_iff (by decide) (by decide) hhours
  rw [hhours]
  constructor
  · rintro ⟨⟨⟨⟨⟨hurls, htimeout⟩, htop⟩, hhours⟩, hpages⟩, hitems⟩
    exact ⟨hurls, htimeout, by simp [htop, hhours, hpages, hitems]⟩
  · rintro ⟨hurls, htimeout, hnumbers⟩
    simp only [List.forall_mem_cons] at hnumbers
    obtain ⟨htop, hhours, hpages, hitems, -⟩ := hnumbers
    exact ⟨⟨⟨⟨⟨hurls, htimeout⟩, htop⟩, hhours⟩, hpages⟩, hitems⟩

/-- **The mailbox.** -/
theorem validateGraphMail_iff
    (h : ConnectorConfigEditor.validateGraphMailConfig browser target config = []) :
    ConnectorConfigValidation.validateGraphMail (serdeNumbers text) target config = [] ↔
      WrittenAlike.Graph config
        ["messages_url", "mail_messages_url", "base_url", "token_url", "authorization_url"]
        ["top", "lookback_hours", "max_pages", "max_items"] := by
  simp only [ConnectorConfigEditor.validateGraphMailConfig, List.append_eq_nil_iff] at h
  obtain ⟨⟨⟨⟨⟨⟨htarget, -⟩, htimeout⟩, htop⟩, hhours⟩, hpages⟩, hitems⟩ := h
  simp only [ConnectorConfigValidation.validateGraphMail, List.append_eq_nil_iff,
    server_requireTarget htarget, true_and, server_validateUrlFields_iff,
    validatePositiveU64_iff htimeout, validateU64Range_iff (by decide) (by decide) htop,
    validateU64Range_iff (by decide) (by decide) hpages,
    validateU64Range_iff (by decide) (by decide) hitems]
  have hhours : ConnectorConfigValidation.validateI64Range (serdeNumbers text) config
      "lookback_hours" 1 720 = [] ↔ WrittenAlike.Number config "lookback_hours" :=
    validateI64Range_iff (by decide) (by decide) hhours
  rw [hhours]
  constructor
  · rintro ⟨⟨⟨⟨⟨hurls, htimeout⟩, htop⟩, hhours⟩, hpages⟩, hitems⟩
    exact ⟨hurls, htimeout, by simp [htop, hhours, hpages, hitems]⟩
  · rintro ⟨hurls, htimeout, hnumbers⟩
    simp only [List.forall_mem_cons] at hnumbers
    obtain ⟨htop, hhours, hpages, hitems, -⟩ := hnumbers
    exact ⟨⟨⟨⟨⟨hurls, htimeout⟩, htop⟩, hhours⟩, hpages⟩, hitems⟩

/-! ## White space around a name -/

/-- A name of ASCII characters, or none. -/
def IsName (name : String) : Prop := ∀ c ∈ name.toList, c.toNat < 128

theorem not_mem_of_isName {name : String} (h : IsName name) {c : Char} (hc : 128 ≤ c.toNat) :
    c ∉ name.toList := fun hmem => Nat.not_le.mpr (h c hmem) hc

/-- **Without a byte order mark, both trim to the same name.** -/
theorem trim_eq_of_unmarked {s : String} (hname : IsName (Script.trim s))
    (h : WrittenAlike.Unmarked s) : Text.trim s = Script.trim s := by
  refine Script.trim_eq_trim fun c hc => Script.isSpace_eq_isWhitespace ?_ ?_
  · rintro rfl
    exact h hc
  · rintro rfl
    exact not_mem_of_isName hname (by decide) (Script.mem_trim hc (by decide))

/-- A byte order mark stays in what the server trims. -/
theorem unmarked_of_isName {s : String} (h : IsName (Text.trim s)) : WrittenAlike.Unmarked s :=
  fun hc => not_mem_of_isName h (by decide) (Text.mem_trim hc (by decide))

theorem isName_of_isHeaderName {name : String}
    (h : ConnectorConfigValidation.validHeaderName name) : IsName name := by
  intro c hc
  have hc := List.all_eq_true.mp h c hc
  simp only [Bool.or_eq_true, Bool.and_eq_true, decide_eq_true_eq] at hc
  rcases hc with ((hmem | ⟨-, hle⟩) | ⟨-, hle⟩) | ⟨-, hle⟩
  · have hall : (['!', '#', '$', '%', '&', '\x27', '*', '+', '-', '.', '^', '_', '\x60', '|', '~'].all
        fun c => c.toNat < 128) = true := by decide
    simpa using List.all_eq_true.mp hall c hmem
  · exact Nat.lt_of_le_of_lt (UInt32.le_iff_toNat_le.mp hle) (by decide)
  · exact Nat.lt_of_le_of_lt (UInt32.le_iff_toNat_le.mp hle) (by decide)
  · exact Nat.lt_of_le_of_lt (UInt32.le_iff_toNat_le.mp hle) (by decide)

/-- The editor's `+` asks for one character, and the same of each. -/
theorem isHeaderName_iff {name : String} :
    ConnectorConfigEditor.isHeaderName name ↔
      name ≠ "" ∧ ConnectorConfigValidation.validHeaderName name := by
  simp [ConnectorConfigEditor.isHeaderName, ConnectorConfigValidation.validHeaderName]

/-- The server's `api_key_header`. -/
theorem header_iff (h : (ConnectorConfigEditor.stringField config "api_key_header" ≠ "" &&
      !ConnectorConfigEditor.isHeaderName
        (ConnectorConfigEditor.stringField config "api_key_header")) = false) :
    ((ConnectorConfigValidation.fieldString config ["api_key_header"]).any fun header =>
        !ConnectorConfigValidation.validHeaderName header) = false ↔
      ∀ text, config.get "api_key_header" = some (.str text) → WrittenAlike.Unmarked text := by
  have htrimmed : ∀ s : String, Text.trimmed? s = if (Text.trim s).isEmpty then none
      else some (Text.trim s) := fun _ => rfl
  rw [any_not_eq_false]
  constructor
  · intro hserver s hs
    by_cases hempty : (Text.trim s).isEmpty
    · refine unmarked_of_isName ?_
      rw [String.isEmpty_iff.mp hempty]
      exact fun c hc => absurd hc List.not_mem_nil
    · refine unmarked_of_isName (isName_of_isHeaderName (hserver _ ?_))
      exact fieldString_eq_some.mpr ⟨s, hs, by rw [htrimmed, if_neg hempty]⟩
  · intro hunmarked header hheader
    obtain ⟨s, hs, htrim⟩ := fieldString_eq_some.mp hheader
    rw [stringField_eq hs, Bool.and_eq_false_iff, decide_eq_false_iff_not, not_not,
      Bool.not_eq_false'] at h
    have hname : IsName (Script.trim s) := by
      rcases h with hempty | hvalid
      · rw [hempty]
        exact fun c hc => absurd hc List.not_mem_nil
      · exact isName_of_isHeaderName (isHeaderName_iff.mp hvalid).2
    rw [htrimmed, trim_eq_of_unmarked hname (hunmarked s hs)] at htrim
    obtain ⟨hne, heq⟩ := Option.ite_none_left_eq_some.mp htrim
    obtain rfl := Option.some.inj heq
    rcases h with hempty | hvalid
    · exact absurd (String.isEmpty_iff.mpr hempty) hne
    · exact (isHeaderName_iff.mp hvalid).2

/-- **The ERP.** -/
theorem validateErpPrivateMessages_iff
    (h : ConnectorConfigEditor.validateErpPrivateMessagesConfig browser target config = []) :
    ConnectorConfigValidation.validateErpPrivateMessages (serdeNumbers text) target config = [] ↔
      WrittenAlike.Erp config := by
  simp only [ConnectorConfigEditor.validateErpPrivateMessagesConfig, List.append_eq_nil_iff,
    diagnose_eq_nil] at h
  obtain ⟨⟨⟨⟨⟨⟨⟨htarget, hurls⟩, htimeout⟩, htop⟩, hlimit⟩, hhours⟩, hcomplete⟩, hheader⟩ := h
  have hcomplete : ConnectorConfigValidation.validateBoolean config "snapshot_complete" = [] := by
    rw [ConnectorConfigEditor.validateBoolean, diagnose_eq_nil] at hcomplete
    rw [ConnectorConfigValidation.validateBoolean, ConnectorConfigValidation.checkField,
      violation_eq_nil]
    exact hcomplete
  have hhours : ConnectorConfigValidation.validateI64Range (serdeNumbers text) config
      "lookback_hours" 1 720 = [] ↔ WrittenAlike.Number config "lookback_hours" :=
    validateI64Range_iff (by decide) (by decide) hhours
  simp only [ConnectorConfigValidation.validateErpPrivateMessages, List.append_eq_nil_iff,
    server_requireTarget htarget, true_and, server_requireUrlAny_iff hurls,
    validatePositiveU64_iff htimeout, validateU64Range_iff (by decide) (by decide) htop,
    validateU64Range_iff (by decide) (by decide) hlimit, hhours, hcomplete, and_true,
    violation_eq_nil, header_iff hheader]
  constructor
  · rintro ⟨⟨⟨⟨⟨hurls, htimeout⟩, htop⟩, hlimit⟩, hhours⟩, hheader⟩
    exact ⟨hurls, htimeout, by simp [htop, hlimit, hhours], hheader⟩
  · rintro ⟨hurls, htimeout, hnumbers, hheader⟩
    simp only [List.forall_mem_cons] at hnumbers
    obtain ⟨htop, hlimit, hhours, -⟩ := hnumbers
    exact ⟨⟨⟨⟨⟨hurls, htimeout⟩, htop⟩, hlimit⟩, hhours⟩, hheader⟩

/-- **The samples.** -/
theorem validateSampleArray_of_editor {itemField : String} {targets : List String}
    (h : ConnectorConfigEditor.validateSampleNotificationConfig browser target config itemField
      targets = []) :
    ConnectorConfigValidation.validateSampleArray target config itemField targets = [] := by
  rw [ConnectorConfigEditor.validateSampleNotificationConfig, List.append_eq_nil_iff] at h
  rw [ConnectorConfigValidation.validateSampleArray, List.append_eq_nil_iff]
  refine ⟨server_requireOneOfTargets h.1, checkField_eq_nil.mpr fun value hvalue => ?_⟩
  have hitems := h.2
  rw [hvalue] at hitems
  dsimp only at hitems
  cases harray : value.asArray with
  | none =>
    rw [harray] at hitems
    cases hitems
  | some items => rfl

/-! ## The form -/

/-- The names of the adapters. -/
def adapterNames : List String :=
  ["azure_devops", "monitoring", "microsoft_graph_calendar", "graph_calendar", "outlook_calendar",
    "microsoft_graph_mail", "graph_mail", "outlook_mail", "erp_private_messages", "erp_messages_http",
    "erp_http", "calendar_sample", "calendar", "outlook_mail_sample", "outlook", "erp_messages_sample",
    "erp_messages", "erp"]

theorem isName_of_mem_adapterNames {name : String} (h : name ∈ adapterNames) : IsName name := by
  have hall : (adapterNames.all fun name => name.toList.all fun c => c.toNat < 128) = true := by
    decide +kernel
  intro c hc
  simpa using List.all_eq_true.mp (List.all_eq_true.mp hall name h) c hc

/-- The editor knows the name it trims to. -/
theorem editor_adapter {adapter : String} (hadapter : config.get "adapter" = some (.str adapter))
    (h : ConnectorConfigEditor.validateAdapterConfig browser target config = []) :
    Script.trim adapter ∈ adapterNames := by
  rw [ConnectorConfigEditor.validateAdapterConfig, hadapter] at h
  dsimp only at h
  by_contra hout
  simp only [adapterNames, List.mem_cons, List.not_mem_nil, or_false, not_or] at hout
  simp only [List.mem_cons, List.not_mem_nil, hout, or_self, if_false] at h
  split at h <;> cases h

/-- And so does the server. -/
theorem server_adapter {numbers : ConfigNumbers JsonNumber} {adapter : String}
    (hadapter : config.get "adapter" = some (.str adapter))
    (h : ConnectorConfigValidation.validateConnectorConfigAdapter numbers target config = []) :
    Text.trim adapter ∈ adapterNames := by
  rw [ConnectorConfigValidation.validateConnectorConfigAdapter] at h
  split at h
  · cases h
  · rw [ConnectorConfigValidation.adapterName, hadapter] at h
    dsimp only [Json.asStr] at h
    by_contra hout
    simp only [adapterNames, List.mem_cons, List.not_mem_nil, or_false, not_or] at hout
    split at h
    · next errors herrors =>
      subst h
      split at herrors
      · cases herrors
      · cases herrors
    · next name hname =>
      split at hname
      · cases hname
      · obtain rfl := Except.ok.inj hname
        simp only [List.mem_cons, List.not_mem_nil, hout, or_self, if_false] at h
        cases h

/-- **Where both trim to the same name, the server accepts just what is written alike.** -/
theorem validate_iff_of_trim {adapter : String} (hobject : (objectMembers config).isSome)
    (hadapter : config.get "adapter" = some (.str adapter))
    (htrim : Text.trim adapter = Script.trim adapter)
    (h : ConnectorConfigEditor.validateAdapterConfig browser target config = []) :
    ConnectorConfigValidation.validateConnectorConfigAdapter (serdeNumbers text) target config = [] ↔
      WrittenAlike.Adapter config (Script.trim adapter) := by
  have hname := editor_adapter hadapter h
  have hne : Script.trim adapter ≠ "" := by
    rintro hempty
    rw [hempty] at hname
    exact absurd hname (by decide)
  have hserver : ConnectorConfigValidation.adapterName config = .ok (Script.trim adapter) := by
    rw [ConnectorConfigValidation.adapterName, hadapter]
    dsimp only [Json.asStr]
    rw [htrim, if_neg (by simpa using hne)]
  have hmembers : (objectMembers config).isNone = false := by
    rw [← Option.not_isSome, hobject]
    rfl
  rw [ConnectorConfigEditor.validateAdapterConfig, hadapter] at h
  dsimp only at h
  rw [if_neg hne] at h
  rw [ConnectorConfigValidation.validateConnectorConfigAdapter, hmembers, hserver]
  simp only [Bool.false_eq_true, if_false]
  unfold WrittenAlike.Adapter
  by_cases hazure : Script.trim adapter = "azure_devops"
  · rw [if_pos hazure] at h ⊢
    rw [if_pos hazure]
    exact validateAzureDevOps_iff h
  rw [if_neg hazure] at h ⊢
  rw [if_neg hazure]
  by_cases hmonitoring : Script.trim adapter = "monitoring"
  · rw [if_pos hmonitoring] at h ⊢
    rw [if_pos hmonitoring]
    exact validateMonitoring_iff h
  rw [if_neg hmonitoring] at h ⊢
  rw [if_neg hmonitoring]
  by_cases hcalendar : Script.trim adapter ∈ ["microsoft_graph_calendar", "graph_calendar",
      "outlook_calendar"]
  · rw [if_pos hcalendar] at h ⊢
    rw [if_pos hcalendar]
    exact validateGraphCalendar_iff h
  rw [if_neg hcalendar] at h ⊢
  rw [if_neg hcalendar]
  by_cases hmail : Script.trim adapter ∈ ["microsoft_graph_mail", "graph_mail", "outlook_mail"]
  · rw [if_pos hmail] at h ⊢
    rw [if_pos hmail]
    exact validateGraphMail_iff h
  rw [if_neg hmail] at h ⊢
  rw [if_neg hmail]
  by_cases herp : Script.trim adapter ∈ ["erp_private_messages", "erp_messages_http", "erp_http"]
  · rw [if_pos herp] at h ⊢
    rw [if_pos herp]
    exact validateErpPrivateMessages_iff h
  rw [if_neg herp] at h ⊢
  rw [if_neg herp]
  -- the samples have nothing that is written differently
  refine iff_of_true ?_ trivial
  by_cases hsample : Script.trim adapter ∈ ["calendar_sample", "calendar"]
  · rw [if_pos hsample] at h ⊢
    exact validateSampleArray_of_editor h
  rw [if_neg hsample] at h ⊢
  by_cases hmessages : Script.trim adapter ∈ ["outlook_mail_sample", "outlook",
      "erp_messages_sample", "erp_messages", "erp"]
  · rw [if_pos hmessages] at h
    split
    · exact validateSampleArray_of_editor h
    · next houtlook =>
      have hmessages : Script.trim adapter ∈ ["outlook_mail_sample", "outlook"] ++
          ["erp_messages_sample", "erp_messages", "erp"] := hmessages
      rw [if_pos ((List.mem_append.mp hmessages).resolve_left houtlook)]
      exact validateSampleArray_of_editor h
  · rw [if_neg hmessages] at h
    exact absurd h (List.cons_ne_nil _ _)

/-- **Of a config that the editor accepts, the server accepts just what both read alike.** -/
theorem validate_iff_of_editor (hobject : (objectMembers config).isSome)
    (h : ConnectorConfigEditor.validateAdapterConfig browser target config = []) :
    ConnectorConfigValidation.validateConnectorConfigAdapter (serdeNumbers text) target config = [] ↔
      WrittenAlike.Config config := by
  cases hvalue : config.get "adapter" with
  | none =>
    have hmembers : (objectMembers config).isNone = false := by
      rw [← Option.not_isSome, hobject]
      rfl
    refine iff_of_true ?_ fun adapter hadapter => ?_
    · rw [ConnectorConfigValidation.validateConnectorConfigAdapter, hmembers,
        ConnectorConfigValidation.adapterName, hvalue]
      rfl
    · rw [hvalue] at hadapter
      cases hadapter
  | some value =>
    obtain ⟨adapter, rfl⟩ : ∃ adapter, value = .str adapter := by
      rw [ConnectorConfigEditor.validateAdapterConfig, hvalue] at h
      cases value with
      | str adapter => exact ⟨adapter, rfl⟩
      | null => cases h
      | bool b => cases h
      | number n => cases h
      | array items => cases h
      | object fields => cases h
    have hname := isName_of_mem_adapterNames (editor_adapter hvalue h)
    constructor
    · intro hserver adapter' hadapter
      obtain rfl := Json.str.inj (Option.some.inj (hvalue.symm.trans hadapter))
      have hunmarked : WrittenAlike.Unmarked adapter :=
        unmarked_of_isName (isName_of_mem_adapterNames (server_adapter hvalue hserver))
      exact ⟨hunmarked,
        (validate_iff_of_trim hobject hvalue (trim_eq_of_unmarked hname hunmarked) h).mp hserver⟩
    · intro hwritten
      obtain ⟨hunmarked, hadapter⟩ := hwritten adapter hvalue
      exact (validate_iff_of_trim hobject hvalue (trim_eq_of_unmarked hname hunmarked) h).mpr hadapter

/-- **The editor and the server.**  Where the editor has nothing against a form, the server has
nothing against its config just if both read it alike; `fromStr` is the server's reader, which reads
no text that the browser reads differently. -/
theorem editor_agrees_iff (fromStr : String → Option (Json JsonNumber))
    (hreads : ∀ text value, fromStr text = some value → browser.parse text = some value)
    {form : ConnectorConfigForm} (hconfig : fromStr form.config = some config)
    (heditor : ConnectorConfigEditor.connectorConfigDiagnostics browser form = []) :
    ConnectorConfigValidation.validateConnectorConfigAdapter (serdeNumbers text) form.target config = []
      ↔ WrittenAlike.Config config := by
  rw [ConnectorConfigEditor.connectorConfigDiagnostics, List.append_eq_nil_iff,
    ConnectorConfigEditor.configDiagnostics] at heditor
  have hdiagnostics := heditor.1
  simp only [ConnectorConfigEditor.parseJsonObject, ConnectorConfigEditor.parseJsonValue,
    hreads _ _ hconfig] at hdiagnostics
  by_cases hrecord : ConnectorConfigEditor.isRecord config
  · simp only [bind, Except.bind, hrecord, if_true, pure, Except.pure] at hdiagnostics
    exact validate_iff_of_editor hrecord hdiagnostics
  · simp only [bind, Except.bind, hrecord] at hdiagnostics
    cases hdiagnostics

end Checks

/-! ## A timeout with a point -/

namespace PointedTimeout

/-- A monitoring that is given 15.0 seconds. -/
def config : Json JsonNumber := .object [("adapter", .str "monitoring"),
  ("url", .str "https://monitoring.test"), ("timeout_seconds", .number ⟨false, 15, some [0], none⟩)]

/-- Its text. -/
def configText : String := "\x7b\x22adapter\x22:\x22monitoring\x22," ++
  "\x22url\x22:\x22https://monitoring.test\x22,\x22timeout_seconds\x22:15.0\x7d"

/-- A reader of this text and of one without items. -/
def read (text : String) : Option (Json JsonNumber) :=
  if text = configText then some config
  else if text = "\x7b\x22items\x22:[]\x7d" then some (.object [("items", .array [])])
  else none

/-- A browser that knows URLs by their beginning. -/
def browser : Browser where
  parse := read
  urlProtocol text := if Text.startsWith text "https://" then some "https:" else none
  dateParse _ := none
  urlProtocol_letter h := by
    have hstart := (Option.ite_none_right_eq_some.mp h).1
    exact ⟨'h', (List.isPrefixOf_iff_prefix.mp hstart).subset (by decide), by decide⟩

/-- **The editor has nothing against it, and the server refuses it.** -/
theorem refused_by_server :
    ConnectorConfigEditor.connectorConfigDiagnostics browser
        ⟨"service_health", configText, "\x7b\x22items\x22:[]\x7d"⟩ = [] ∧
      ConnectorConfigValidation.validateConnectorConfigAdapter (serdeNumbers fun _ => "")
        "service_health" config ≠ [] := by
  have hquiet : ConnectorConfigEditor.connectorConfigDiagnostics browser
      ⟨"service_health", configText, "\x7b\x22items\x22:[]\x7d"⟩ = [] := by decide +kernel
  refine ⟨hquiet, fun hserver => ?_⟩
  have hread : read configText = some config := if_pos rfl
  have hwritten := (editor_agrees_iff read (fun _ _ h => h) hread hquiet).mp hserver
  have hadapter := (hwritten "monitoring" rfl).2
  have hname : Script.trim "monitoring" = "monitoring" := by decide +kernel
  rw [hname] at hadapter
  have hmonitoring : WrittenAlike.Monitoring config := hadapter
  exact absurd (hmonitoring.timeout _ rfl).1 (by decide)

end PointedTimeout

end DevPortal
