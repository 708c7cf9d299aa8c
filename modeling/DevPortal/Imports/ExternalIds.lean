import DevPortal.Imports.Malformed
import DevPortal.Imports.Reconciliation

/-!
# Imports/ExternalIds — which item of a source a record stands for

    item ▸ the first id field that is there ▸ its text, if it is a number or a text ▸ external id
                                            ▸ otherwise: prefix-slug of the title

The adapters take the first field that is there and look at its value afterwards.  So an id behind a
field that holds `null` is not seen, the title stands in for it, and two items under one title are one
record; where no such field stands in front of it, the id is the first that can be used, and two
such ids are two rows.
-/

namespace DevPortal

variable {ν β : Type}

/-! ## The first id that can be used -/

theorem findSome?_eq_of_forall {α γ : Type} {f g : α → Option γ} {l : List α}
    (h : ∀ a ∈ l, f a = g a) : l.findSome? f = l.findSome? g := by
  induction l with
  | nil => rfl
  | cons a l ih =>
    rw [List.findSome?_cons, List.findSome?_cons, h a List.mem_cons_self,
      ih fun b hb => h b (List.mem_cons_of_mem a hb)]

/-- A number, or a text that is not blank. -/
def usableId (numbers : Numbers ν) (value : Json ν) : Option String :=
  (scalarToString numbers value).bind Text.trimmed?

/-- The first of the fields that holds a usable id. -/
def firstUsableId (numbers : Numbers ν) (item : Json ν) (idFields : List String) : Option String :=
  idFields.findSome? fun name => (item.get name).bind (usableId numbers)

/-- **No useless value is in front**: the first of the fields that is there holds a usable id. -/
def Unshadowed (numbers : Numbers ν) (item : Json ν) (idFields : List String) : Prop :=
  ∀ value ∈ field item idFields, (usableId numbers value).isSome

theorem firstUsableId_of_field {numbers : Numbers ν} {item value : Json ν} {idFields : List String}
    {id : String} (hfield : field item idFields = some value) (hid : usableId numbers value = some id) :
    firstUsableId numbers item idFields = some id := by
  induction idFields with
  | nil => cases hfield
  | cons name names ih =>
    rw [field, List.findSome?_cons] at hfield
    rw [firstUsableId, List.findSome?_cons]
    cases hget : item.get name with
    | none =>
      rw [hget] at hfield
      exact ih hfield
    | some first =>
      rw [hget] at hfield
      obtain rfl := Option.some.inj hfield
      rw [Option.bind_some, hid]

/-- A field is there if one of them can be used. -/
theorem exists_field_of_firstUsableId {numbers : Numbers ν} {item : Json ν} {idFields : List String}
    {id : String} (h : firstUsableId numbers item idFields = some id) :
    ∃ value, field item idFields = some value := by
  obtain ⟨name, hname, hid⟩ := List.exists_of_findSome?_eq_some h
  obtain ⟨value, hvalue, -⟩ := Option.bind_eq_some_iff.mp hid
  refine Option.ne_none_iff_exists'.mp fun hnone => ?_
  rw [List.findSome?_eq_none_iff.mp hnone name hname] at hvalue
  cases hvalue

/-- **The field that is taken**: the first usable one, just if none is in front of it. -/
theorem fieldString_eq {numbers : Numbers ν} {item : Json ν} {idFields : List String} {id : String}
    (h : firstUsableId numbers item idFields = some id) :
    (Unshadowed numbers item idFields → fieldString numbers item idFields = some id) ∧
      (¬ Unshadowed numbers item idFields → fieldString numbers item idFields = none) := by
  obtain ⟨value, hvalue⟩ := exists_field_of_firstUsableId h
  have hstring : fieldString numbers item idFields = usableId numbers value := by
    rw [fieldString, hvalue]
    rfl
  have hshadow : Unshadowed numbers item idFields ↔ (usableId numbers value).isSome := by
    rw [Unshadowed, hvalue]
    simp
  rw [hstring, hshadow]
  constructor
  · intro hsome
    obtain ⟨first, hfirst⟩ := Option.isSome_iff_exists.mp hsome
    rw [hfirst, ← firstUsableId_of_field hvalue hfirst, h]
  · exact Option.not_isSome_iff_eq_none.mp

/-! ## The adapters -/

/-- The adapters that bring notifications and events. -/
inductive NotificationAdapter
  | erp | graphMail | graphCalendar | sampleCalendar | sampleMail
  deriving DecidableEq, Repr

namespace NotificationAdapter

/-- What an item becomes; the samples of ERP messages become what the messages do. -/
def normalize (numbers : Numbers ν) (chrono : Chrono) : NotificationAdapter → Json ν → Json ν
  | erp => normalizeErpMessageNotification numbers chrono
  | graphMail => normalizeGraphMailMessage numbers chrono
  | graphCalendar => normalizeGraphCalendarEvent numbers chrono
  | sampleCalendar => normalizeCalendarNotification numbers chrono
  | sampleMail => normalizeOutlookMailNotification numbers

/-- The fields an id is looked for in. -/
def idFields : NotificationAdapter → List String
  | erp => ["external_id", "id", "message_id", "messageId", "request_id", "requestId",
      "approval_id", "approvalId", "task_id", "ticket_id"]
  | graphMail => ["external_id", "id", "message_id", "internetMessageId", "internet_message_id"]
  | graphCalendar => ["external_id", "id", "event_id", "uid", "iCalUId", "ical_uid"]
  | sampleCalendar => ["external_id", "id", "event_id", "uid", "ical_uid"]
  | sampleMail => ["external_id", "id", "message_id", "internet_message_id"]

/-- The fields a title is looked for in. -/
def titleFields : NotificationAdapter → List String
  | erp => ["title", "subject", "summary", "type", "request_type", "requestType"]
  | graphMail | graphCalendar => ["subject", "title"]
  | sampleCalendar => ["title", "subject", "summary", "name"]
  | sampleMail => ["title", "subject"]

/-- The title of an item without one. -/
def defaultTitle : NotificationAdapter → String
  | erp => "ERP message"
  | graphMail | sampleMail => "Outlook mail message"
  | graphCalendar | sampleCalendar => "Calendar event"

/-- What stands in front of a slug. -/
def start : NotificationAdapter → String
  | erp => "erp"
  | graphMail | sampleMail => "mail"
  | graphCalendar | sampleCalendar => "calendar"

theorem externalIdOf_normalize (numbers : Numbers ν) (chrono : Chrono) (a : NotificationAdapter)
    (item : Json ν) :
    externalIdOf (a.normalize numbers chrono item) =
      some (notificationExternalId numbers a.start item a.idFields
        ((fieldString numbers item a.titleFields).getD a.defaultTitle)) := by
  cases a <;> rfl

/-- The field a title is looked for in first. -/
def titleField : NotificationAdapter → String
  | erp | sampleCalendar | sampleMail => "title"
  | graphMail | graphCalendar => "subject"

/-- The other item says the same, but for its title. -/
def SameButTitle (a : NotificationAdapter) (item item' : Json ν) : Prop :=
  ∀ name ∉ a.titleFields, item'.get name = item.get name

theorem not_titleField_of_idField {a : NotificationAdapter} {name : String}
    (h : name ∈ a.idFields) : name ∉ a.titleFields := by
  have hfree : a.idFields.all (· ∉ a.titleFields) = true := by cases a <;> decide
  simpa using List.all_eq_true.mp hfree name h

/-! ## Retitled items -/

/-- The item under another title. -/
def retitled (a : NotificationAdapter) (title : String) : Json ν → Json ν
  | .object members => .object (Json.insertField a.titleField (.str title) members)
  | value => value

theorem sameButTitle_retitled (a : NotificationAdapter) (title : String)
    (members : List (String × Json ν)) :
    a.SameButTitle (.object members) (a.retitled title (.object members)) := by
  intro name hname
  refine (Json.lookup_insertField _ name _ members).trans (if_neg ?_)
  rintro rfl
  revert hname
  cases a <;> decide

theorem titleOf_retitled (numbers : Numbers ν) (a : NotificationAdapter) (title : String)
    (members : List (String × Json ν)) :
    fieldString numbers (a.retitled title (.object members)) a.titleFields
      = Text.trimmed? title := by
  have hget : (a.retitled title (.object members) : Json ν).get a.titleField = some (.str title) :=
    (Json.lookup_insertField _ _ _ members).trans (if_pos rfl)
  have hfield : field (a.retitled title (.object members)) a.titleFields = some (.str title) := by
    cases a
    all_goals
      rw [field, titleFields, List.findSome?_cons]
      rw [titleField] at hget
      rw [hget]
  rw [fieldString, hfield]
  rfl

end NotificationAdapter

/-! ## Rows -/

section Rows

variable {t : RecordTable β} {new : NewRecord β} {now : DateTime}

/-- What an upsert returns stands under the external id it was given, and under no other. -/
theorem RecordTable.externalId_put (hlt : ∀ r ∈ t.rows, r.id < t.nextId) {r : Record β}
    (hr : r ∈ (t.put now new).2.rows) (hid : r.id = (t.put now new).1.id) :
    r.externalId = new.externalId := by
  cases hfind : new.externalId.bind (t.find new.source) with
  | some existing =>
    rw [RecordTable.put, hfind] at hr hid
    obtain ⟨a, -, rfl⟩ := Table.mem_update.mp hr
    by_cases ha : a.id = existing.id
    · rw [if_pos (decide_eq_true ha)]
      rfl
    · rw [if_neg (by simpa using ha)] at hid
      exact absurd hid ha
  | none =>
    rw [RecordTable.put, hfind] at hr hid
    rcases List.mem_append.mp hr with hold | hnew
    · exact absurd hid (hlt r hold).ne
    · rw [List.mem_singleton.mp hnew]
      rfl

theorem RecordTable.put_lt (hlt : ∀ r ∈ t.rows, r.id < t.nextId) :
    (t.put now new).1.id < (t.put now new).2.nextId := by
  unfold RecordTable.put
  split
  next existing hfind =>
    obtain ⟨x, -, hfind⟩ := Option.bind_eq_some_iff.mp hfind
    exact hlt existing (List.mem_of_find?_eq_some hfind)
  next => exact Nat.lt_succ_self t.nextId

/-- **Two external ids are two rows**: what an upsert returns is not the row of another. -/
theorem RecordTable.put_ne (hlt : ∀ r ∈ t.rows, r.id < t.nextId) {new' : NewRecord β}
    (hne : new'.externalId ≠ new.externalId) (now' : DateTime) :
    ((t.put now new).2.put now' new').1.id ≠ (t.put now new).1.id := by
  intro hid
  rw [RecordTable.put] at hid
  split at hid
  next existing hfind =>
    obtain ⟨x, hx, hfind⟩ := Option.bind_eq_some_iff.mp hfind
    have hold := externalId_put hlt (List.mem_of_find?_eq_some hfind) hid
    have hfound : existing.externalId = some x := by
      have hkey := List.find?_some hfind
      simpa using (Bool.and_eq_true_iff.mp hkey).2
    exact hne (hx.trans (hfound.symm.trans hold))
  next => exact absurd hid (put_lt hlt).ne'

end Rows

/-! ## Items -/

section Items

open NotificationAdapter

variable {numbers : Numbers ν} {chrono : Chrono} {a : NotificationAdapter} {item : Json ν}
  {id : String}

/-- An item whose id is not behind a useless value is known by it. -/
theorem externalIdOf_unshadowed (h : firstUsableId numbers item a.idFields = some id)
    (hfree : Unshadowed numbers item a.idFields) :
    externalIdOf (a.normalize numbers chrono item) = some id := by
  rw [externalIdOf_normalize, notificationExternalId, (fieldString_eq h).1 hfree]
  rfl

/-- The id of an item is not looked for in its title. -/
theorem field_sameButTitle {item' : Json ν} (h : a.SameButTitle item item') :
    field item' a.idFields = field item a.idFields :=
  findSome?_eq_of_forall fun name hname => h name (not_titleField_of_idField hname)

theorem firstUsableId_sameButTitle {item' : Json ν} (h : a.SameButTitle item item') :
    firstUsableId numbers item' a.idFields = firstUsableId numbers item a.idFields :=
  findSome?_eq_of_forall fun name hname => by rw [h name (not_titleField_of_idField hname)]

/-- Under a useless value, two titles are two external ids. -/
theorem exists_retitled_ne (chrono : Chrono) (h : firstUsableId numbers item a.idFields = some id)
    (hshadow : ¬ Unshadowed numbers item a.idFields) :
    ∃ item', a.SameButTitle item item' ∧
      externalIdOf (a.normalize numbers chrono item') ≠ some id := by
  obtain ⟨members, rfl⟩ : ∃ members, item = .object members := by
    obtain ⟨value, hvalue⟩ := exists_field_of_firstUsableId h
    obtain ⟨name, -, hget⟩ := List.exists_of_findSome?_eq_some hvalue
    cases item
    case object members => exact ⟨members, rfl⟩
    all_goals cases hget
  have hslug : ∀ title, Text.trimmed? title = some title →
      externalIdOf (a.normalize numbers chrono (a.retitled title (.object members))) =
        some (s!"{a.start}-{stableSlug none [title]}") := by
    intro title htitle
    have hsame := a.sameButTitle_retitled title members
    have hnone : fieldString numbers (a.retitled title (.object members)) a.idFields = none := by
      rw [fieldString, field_sameButTitle hsame]
      exact (fieldString_eq h).2 hshadow
    rw [externalIdOf_normalize, notificationExternalId, hnone, titleOf_retitled, htitle]
    rfl
  by_cases hid : externalIdOf (a.normalize numbers chrono (a.retitled "a" (.object members))) = some id
  · refine ⟨_, a.sameButTitle_retitled "b" members, ?_⟩
    rw [← hid, hslug "a" (by decide), hslug "b" (by decide)]
    cases a <;> decide
  · exact ⟨_, a.sameButTitle_retitled "a" members, hid⟩

/-- **What an item is known by**: with an id that can be used, it is that id, under every title, just
if no useless value is in front of it; and two such ids are two records. -/
theorem keeps_externalId_iff (numbers : Numbers ν) (chrono : Chrono) (a : NotificationAdapter)
    {item : Json ν} {id : String} (h : firstUsableId numbers item a.idFields = some id) :
    ((externalIdOf (a.normalize numbers chrono item) = some id ∧
        ∀ item', a.SameButTitle item item' →
          externalIdOf (a.normalize numbers chrono item') = some id) ↔
      Unshadowed numbers item a.idFields) ∧
    ∀ (second : Json ν) (id' : String), firstUsableId numbers second a.idFields = some id' →
      id' ≠ id → Unshadowed numbers item a.idFields → Unshadowed numbers second a.idFields →
      externalIdOf (a.normalize numbers chrono second) ≠
          externalIdOf (a.normalize numbers chrono item) ∧
        ∀ (t : RecordTable β) (new new' : NewRecord β) (now now' : DateTime),
          (∀ r ∈ t.rows, r.id < t.nextId) →
          new.externalId = externalIdOf (a.normalize numbers chrono item) →
          new'.externalId = externalIdOf (a.normalize numbers chrono second) →
          ((t.put now new).2.put now' new').1.id ≠ (t.put now new).1.id := by
  constructor
  · constructor
    · rintro ⟨-, hkeeps⟩
      by_contra hshadow
      obtain ⟨item', hsame, hne⟩ := exists_retitled_ne chrono h hshadow
      exact hne (hkeeps item' hsame)
    · intro hfree
      refine ⟨externalIdOf_unshadowed h hfree, fun item' hsame => ?_⟩
      refine externalIdOf_unshadowed (firstUsableId_sameButTitle hsame ▸ h) ?_
      rw [Unshadowed, field_sameButTitle hsame]
      exact hfree
  · intro second id' h' hne hfree hfree'
    have hids : externalIdOf (a.normalize numbers chrono second) ≠
        externalIdOf (a.normalize numbers chrono item) := by
      rw [externalIdOf_unshadowed h hfree, externalIdOf_unshadowed h' hfree']
      exact fun heq => hne (Option.some.inj heq)
    refine ⟨hids, fun t new new' now now' hlt hnew hnew' => RecordTable.put_ne hlt ?_ now'⟩
    rw [hnew, hnew']
    exact hids

end Items

namespace Sample

/-- A message of an ERP system. -/
def approval (id : String) : Json Int := .object [("id", .str id), ("title", .str "Approve")]

/-- The same, with a field in front of its id that says nothing. -/
def nulledApproval (id : String) : Json Int :=
  .object [("external_id", .null), ("id", .str id), ("title", .str "Approve")]

/-- The record of an external id. -/
def approvalRecord (externalId : Option String) : NewRecord Unit where
  source := "erp"
  externalId := externalId
  content := ()
  connectorId := some 1
  ownerUserId := none
  maintainerId := some 1
  sourceUpdatedAt := none
  lastSeenRunId := some 1
  archivedAt := none

end Sample

open Sample NotificationAdapter in
theorem approval_keeps_externalId :
    (externalIdOf (erp.normalize itemNumbers.toNumbers chrono (approval "1")) = some "1" ∧
        ∀ item', erp.SameButTitle (approval "1") item' →
          externalIdOf (erp.normalize itemNumbers.toNumbers chrono item') = some "1") ∧
      externalIdOf (erp.normalize itemNumbers.toNumbers chrono (approval "2")) ≠
        externalIdOf (erp.normalize itemNumbers.toNumbers chrono (approval "1")) :=
  have hfirst := @keeps_externalId_iff Int Unit itemNumbers.toNumbers chrono erp (approval "1") "1"
    (by decide)
  have hfree : ∀ id ∈ ["1", "2"], Unshadowed itemNumbers.toNumbers (approval id) erp.idFields := by
    simp only [List.forall_mem_cons, Unshadowed]
    decide
  ⟨hfirst.1.mpr (hfree "1" (by decide)), (hfirst.2 (approval "2") "2" (by decide) (by decide)
    (hfree "1" (by decide)) (hfree "2" (by decide))).1⟩

open Sample NotificationAdapter in
/-- Two messages with ids of their own are one record. -/
theorem nulled_approvals_merge :
    (∀ id ∈ ["1", "2"],
      firstUsableId itemNumbers.toNumbers (nulledApproval id) erp.idFields = some id ∧
        externalIdOf (erp.normalize itemNumbers.toNumbers chrono (nulledApproval id)) =
          some "erp-approve") ∧
      let record := fun id => approvalRecord
        (externalIdOf (erp.normalize itemNumbers.toNumbers chrono (nulledApproval id)))
      let t : RecordTable Unit := ⟨[], 1⟩
      ((t.put 0 (record "1")).2.put 0 (record "2")).1.id = (t.put 0 (record "1")).1.id ∧
        ((t.put 0 (record "1")).2.put 0 (record "2")).2.rows.length = 1 := by
  refine ⟨by decide, ?_⟩
  decide

end DevPortal
