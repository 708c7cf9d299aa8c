import DevPortal.Frontend.Routing
import DevPortal.Access.Requests

/-!
# Frontend/ClientQueries — the queries a page sends, and what the server accepts

    hash ▸ parse ▸ write ──▸ /me/work-cards?…   ──form──▸ MyWorkCardQuery ▸ validate
                         ──▸ /me/notifications?… ──form──▸ InboxQuery      ▸ validate

Both sides normalise the same fields on their own.  The browser bounds texts by code units, keeps
any text as a status, and trims in the sense of ECMAScript; the server counts octets, has four
statuses, and trims in the sense of Unicode.  The other fields agree for every hash, so whether a
request is accepted depends on the free texts only (`myWork_accepted`, `inbox_accepted`).
-/

namespace DevPortal

open Unicode SearchParams Script Validation

/-! ## Requests -/

/-- What the server reads off the request of the work page. -/
def myWorkRequest (p : Units) : MyWorkCardQuery :=
  let path := MyWorkRouting.myWorkApiPath (MyWorkRouting.parseMyWorkQuery (MyWorkRouting.myWorkSearch p))
  .fromForm (formFields (Query.query path.toList))

/-- What the server reads off the parameters of the inbox. -/
def inboxRequest (p : Units) : InboxQuery :=
  let params := InboxRouting.inboxParams (InboxRouting.parseInboxQuery (searchParams p))
  .fromForm (formFields (serialize params).toList)

/-- A number is read as itself. -/
theorem formI64_toString {n : Nat} (h : n ≤ 1000000) : formI64 (some (toString n)) = some (n : Int) := by
  have hdigits := isDigits_toString n
  simp only [isDigits, Bool.and_eq_true, Bool.not_eq_true', List.isEmpty_eq_false_iff,
    List.all_eq_true] at hdigits
  obtain ⟨hne, hall⟩ := hdigits
  have hvalue : Nat.ofDigitChars 10 (toString n).toList 0 = n := by
    simp [Nat.ofDigitChars_ten_toDigits]
  have hparse : Text.parseInt (toString n) = some (n : Int) := by
    obtain ⟨c, cs, hcs⟩ := List.exists_cons_of_ne_nil hne
    have hc := isDigit_cases (hall c (hcs ▸ List.mem_cons_self))
    have hdigit : (!(c :: cs).isEmpty && (c :: cs).all Char.isDigit) = true := by
      rw [hcs] at hall
      simpa using hall
    rw [hcs] at hvalue
    unfold Text.parseInt
    dsimp only
    rw [hcs]
    split
    next h => exact absurd (List.cons.inj h).1 hc.2.1
    next h => exact absurd (List.cons.inj h).1 hc.2.2.1
    next => rw [if_pos hdigit, hvalue]; rfl
  rw [formI64, Option.bind_some, hparse, Option.filter_some_pos]
  simp only [decide_eq_true_eq]
  omega

/-- A text that is left out when it is empty. -/
def textField (s : String) : Option String := if s ≠ "" then some s else none

/-- The form of a written query, field by field. -/
theorem fromForm_myWorkEntries {q : MyWorkQuery} (hpage : q.page ≤ 1000000)
    (hsize : q.pageSize ≤ 1000000) :
    MyWorkCardQuery.fromForm (present (MyWorkRouting.myWorkEntries q true)) =
      ⟨textField q.status, textField q.due, textField q.project, textField q.workItemType,
        textField q.source, some q.sort, some (q.page : Int), some (q.pageSize : Int)⟩ := by
  have hnodup : ((MyWorkRouting.myWorkEntries q true).map (·.2.1)).Nodup := by
    simp [MyWorkRouting.myWorkEntries]
  have htext : ∀ {name value : String},
      (decide (value ≠ ""), name, value) ∈ MyWorkRouting.myWorkEntries q true →
      SearchParams.get (present (MyWorkRouting.myWorkEntries q true)) name = textField value := by
    intro name value h
    rw [get_present hnodup h, textField]
    simp only [decide_eq_true_eq]
  have halways : ∀ {name value : String},
      (true, name, value) ∈ MyWorkRouting.myWorkEntries q true →
      SearchParams.get (present (MyWorkRouting.myWorkEntries q true)) name = some value := by
    intro name value h
    rw [get_present hnodup h, if_pos rfl]
  have hstatus := @htext "status" q.status (by simp [MyWorkRouting.myWorkEntries])
  have hdue := @htext "due" q.due (by simp [MyWorkRouting.myWorkEntries])
  have hproject := @htext "project" q.project (by simp [MyWorkRouting.myWorkEntries])
  have htype := @htext "work_item_type" q.workItemType (by simp [MyWorkRouting.myWorkEntries])
  have hsource := @htext "source" q.source (by simp [MyWorkRouting.myWorkEntries])
  have hsort := @halways "sort" q.sort (by simp [MyWorkRouting.myWorkEntries])
  have hpages := @halways "page" (toString q.page) (by simp [MyWorkRouting.myWorkEntries])
  have hsizes := @halways "page_size" (toString q.pageSize) (by simp [MyWorkRouting.myWorkEntries])
  rw [MyWorkCardQuery.fromForm, hstatus, hdue, hproject, htype, hsource, hsort, hpages, hsizes,
    formI64_toString hpage, formI64_toString hsize]

/-- **The request of the work page.** -/
theorem myWorkRequest_eq {p : Units} {q : MyWorkQuery}
    (h : MyWorkRouting.parseMyWorkQuery (MyWorkRouting.myWorkSearch p) = q) :
    myWorkRequest p =
      ⟨textField q.status, textField q.due, textField q.project, textField q.workItemType,
        textField q.source, some q.sort, some (q.page : Int), some (q.pageSize : Int)⟩ := by
  have hall : ∀ n ∈ MyWorkRouting.myWorkPageSizes, n ≤ 1000000 := by decide
  obtain ⟨⟨-, hpage⟩, hsize⟩ := h ▸ MyWorkRouting.parseMyWorkQuery_bounds (MyWorkRouting.myWorkSearch p)
  have hparams : MyWorkRouting.myWorkParams q true =
      present (MyWorkRouting.myWorkEntries q true) := by
    rw [← h, MyWorkRouting.myWorkParams_parse]
  have hpath : (MyWorkRouting.myWorkApiPath q).toList = "/me/work-cards".toList ++
      '?' :: (serialize (present (MyWorkRouting.myWorkEntries q true))).toList := by
    rw [MyWorkRouting.myWorkApiPath, hparams, String.toList_append]
    rfl
  unfold myWorkRequest
  dsimp only
  rw [h, hpath, query_serialize (by decide) (by decide), formFields_serialize]
  exact fromForm_myWorkEntries hpage (hall _ hsize)

/-- **The parameters of the inbox**, as the server reads them. -/
theorem inboxRequest_eq {p : Units} {q : InboxRouting.InboxQuery}
    (h : InboxRouting.parseInboxQuery (searchParams p) = q) (hpage : q.page ≤ 1000000) :
    inboxRequest p =
      ⟨some q.state, if q.search ≠ [] then some (toText q.search) else none,
        if q.source ≠ [] then some (toText q.source) else none, textField q.severity,
        some (q.page : Int), none⟩ := by
  have hnodup : ((InboxRouting.inboxEntries q).map (·.2.1)).Nodup := by
    simp [InboxRouting.inboxEntries]
  have hstate := @get_present _ hnodup true "state" q.state (by simp [InboxRouting.inboxEntries])
  have hsearch := @get_present _ hnodup (decide (q.search ≠ [])) "search" (toText q.search)
    (by simp [InboxRouting.inboxEntries])
  have hsource := @get_present _ hnodup (decide (q.source ≠ [])) "source" (toText q.source)
    (by simp [InboxRouting.inboxEntries])
  have hseverity := @get_present _ hnodup (decide (q.severity ≠ "")) "severity" q.severity
    (by simp [InboxRouting.inboxEntries])
  have hpages := @get_present _ hnodup true "page" (toString q.page)
    (by simp [InboxRouting.inboxEntries])
  have hsizes : SearchParams.get (present (InboxRouting.inboxEntries q)) "page_size" = none :=
    get_present_none (by simp [InboxRouting.inboxEntries])
  unfold inboxRequest
  dsimp only
  rw [h, InboxRouting.inboxParams_eq, formFields_serialize, InboxQuery.fromForm, hstate, hsearch,
    hsource, hseverity, hpages, hsizes, if_pos rfl, if_pos rfl, formI64_toString hpage, textField]
  simp only [decide_eq_true_eq]
  rfl

/-! ## What is accepted -/

/-- A free text of the work page passes: it is short enough in octets, and not blank. -/
def TextFits (text : String) (max : Nat) : Prop :=
  text.utf8ByteSize ≤ max ∧ (text ≠ "" → Text.isBlank text = false)

instance (text : String) (max : Nat) : Decidable (TextFits text max) :=
  inferInstanceAs (Decidable (_ ∧ _))

theorem maxOptionalLen_textField {field text : String} {max : Nat} :
    maxOptionalLen field (textField text) max = [] ↔ text.utf8ByteSize ≤ max := by
  unfold textField
  split
  · rw [maxOptionalLen, maxLen, violation_eq_nil, decide_eq_false_iff_not, Nat.not_lt]
  next h =>
    rw [Classical.not_not.mp h]
    exact iff_of_true rfl (Nat.zero_le max)

theorem notBlank_textField {field text : String} :
    notBlank field (textField text) = [] ↔ (text ≠ "" → Text.isBlank text = false) := by
  rw [notBlank, violation_eq_nil, textField]
  split
  next h => exact ⟨fun hblank _ => hblank, fun hblank => hblank h⟩
  next h => exact iff_of_true rfl fun hne => absurd hne h

theorem validateOptionalChoice_textField {field text : String} {allowed : List String} :
    validateOptionalChoice field (textField text) allowed = [] ↔
      (text = "" ∨ Text.trim text ∈ allowed) := by
  rw [validateOptionalChoice, violation_eq_nil, textField]
  split
  next h => simp [h]
  next h => exact iff_of_true rfl (.inl (Classical.not_not.mp h))

/-- A value that was chosen from a list that trimming leaves alone. -/
theorem enumValue_trim {value : Option String} {allowed : List String} {fallback : String}
    (htrim : ∀ v ∈ allowed, Text.trim v = v) :
    MyWorkRouting.enumValue value allowed fallback = fallback ∨
      Text.trim (MyWorkRouting.enumValue value allowed fallback) ∈ allowed := by
  unfold MyWorkRouting.enumValue
  dsimp only
  split
  next h =>
    simp only [Bool.and_eq_true, decide_eq_true_eq] at h
    exact .inr (by rw [htrim _ h.2]; exact h.2)
  next => exact .inl rfl

/-- A free text of a hash, as the work page keeps it. -/
def myWorkText (p : Units) (key : String) : String :=
  MyWorkRouting.boundedValue (get (MyWorkRouting.myWorkSearch p) key)

/-- A free text of a hash, as the inbox cuts it. -/
def inboxText (p : Units) (key : String) (max : Nat) : String :=
  toText ((units (trim ((get (searchParams p) key).getD ""))).take max)

/-- **The free texts of a hash pass the server of the work page.** -/
def MyWorkFits (p : Units) : Prop :=
  (myWorkText p "status" = "" ∨ Text.trim (myWorkText p "status") ∈ myWorkStatuses) ∧
    TextFits (myWorkText p "project") 128 ∧ TextFits (myWorkText p "work_item_type") 128 ∧
    TextFits (myWorkText p "source") 64

/-- **The free texts of a hash pass the server of the inbox.** -/
def InboxFits (p : Units) : Prop :=
  (inboxText p "search" 200).utf8ByteSize ≤ 200 ∧ (inboxText p "source" 64).utf8ByteSize ≤ 64

/-- What the work page keeps passes but for its free texts. -/
theorem validate_myWork {q : MyWorkQuery} (hpage : 1 ≤ q.page ∧ q.page ≤ 1000000)
    (hsize : 1 ≤ q.pageSize ∧ q.pageSize ≤ 100)
    (hdue : q.due = "" ∨ Text.trim q.due ∈ ["overdue", "today", "next_7_days", "none"])
    (hsort : Text.trim q.sort ∈ ["attention", "due_asc", "source_updated_desc"]) :
    MyWorkCardQuery.validate
      ⟨textField q.status, textField q.due, textField q.project, textField q.workItemType,
        textField q.source, some q.sort, some (q.page : Int), some (q.pageSize : Int)⟩ = [] ↔
      (q.status = "" ∨ Text.trim q.status ∈ myWorkStatuses) ∧
        TextFits q.project 128 ∧ TextFits q.workItemType 128 ∧ TextFits q.source 64 := by
  have hsorts : validateOptionalChoice "sort" (some q.sort)
      ["attention", "due_asc", "source_updated_desc"] = [] := by
    rw [validateOptionalChoice, violation_eq_nil, Option.any_some, decide_eq_false_iff_not,
      Classical.not_not]
    exact hsort
  have hpages : violation ((some (q.page : Int)).any fun page => !(1 ≤ page ∧ page ≤ 1000000)) "page"
      "must be from 1 to 1000000" = [] := by
    rw [violation_eq_nil, Option.any_some, Bool.not_eq_false', decide_eq_true_eq]
    omega
  have hsizes : violation ((some (q.pageSize : Int)).any fun size => !(1 ≤ size ∧ size ≤ 100))
      "page_size" "must be from 1 to 100" = [] := by
    rw [violation_eq_nil, Option.any_some, Bool.not_eq_false', decide_eq_true_eq]
    omega
  rw [MyWorkCardQuery.validate]
  simp only [List.append_eq_nil_iff, validateOptionalChoice_textField, maxOptionalLen_textField,
    notBlank_textField, hsorts, hpages, hsizes, hdue, TextFits, and_true]
  constructor
  · rintro ⟨⟨⟨⟨⟨⟨hstatus, hproject⟩, htype⟩, hsource⟩, hproject'⟩, htype'⟩, hsource'⟩
    exact ⟨hstatus, ⟨hproject, hproject'⟩, ⟨htype, htype'⟩, hsource, hsource'⟩
  · rintro ⟨hstatus, ⟨hproject, hproject'⟩, ⟨htype, htype'⟩, hsource, hsource'⟩
    exact ⟨⟨⟨⟨⟨⟨hstatus, hproject⟩, htype⟩, hsource⟩, hproject'⟩, htype'⟩, hsource'⟩

/-- The choices of a parsed query are the server's. -/
theorem parseMyWorkQuery_choices (params : Params) :
    ((MyWorkRouting.parseMyWorkQuery params).due = "" ∨
      Text.trim (MyWorkRouting.parseMyWorkQuery params).due ∈
        ["overdue", "today", "next_7_days", "none"]) ∧
    Text.trim (MyWorkRouting.parseMyWorkQuery params).sort ∈
      ["attention", "due_asc", "source_updated_desc"] := by
  have hdue : ∀ v ∈ MyWorkRouting.myWorkDueValues, Text.trim v = v := by decide +kernel
  have hsort : ∀ v ∈ MyWorkRouting.myWorkSortValues, Text.trim v = v := by decide +kernel
  rw [MyWorkRouting.parseMyWorkQuery]
  dsimp only
  refine ⟨enumValue_trim hdue, ?_⟩
  rcases @enumValue_trim (get params "sort") _ MyWorkRouting.defaultMyWorkQuery.sort hsort with h | h
  · rw [h]
    decide +kernel
  · exact h

/-- The request of the work page is accepted just if its free texts are. -/
theorem myWork_accepted (p : Units) : (myWorkRequest p).validate = [] ↔ MyWorkFits p := by
  have hsizes : ∀ n ∈ MyWorkRouting.myWorkPageSizes, 1 ≤ n ∧ n ≤ 100 := by decide
  obtain ⟨hpage, hsize⟩ := MyWorkRouting.parseMyWorkQuery_bounds (MyWorkRouting.myWorkSearch p)
  obtain ⟨hdue, hsort⟩ := parseMyWorkQuery_choices (MyWorkRouting.myWorkSearch p)
  have haccepted := validate_myWork hpage (hsizes _ hsize) hdue hsort
  rw [← @myWorkRequest_eq p _ rfl] at haccepted
  simpa only [MyWorkFits, myWorkText, MyWorkRouting.parseMyWorkQuery] using haccepted

theorem pageOf_bounds (value : Option String) :
    1 ≤ InboxRouting.pageOf value ∧ InboxRouting.pageOf value ≤ 1000000 := by
  unfold InboxRouting.pageOf
  dsimp only
  split
  · omega
  split
  · split
    · omega
    · omega
  · omega

theorem choice_mem {value : Option String} {allowed : List String} {fallback : String} :
    InboxRouting.choice value allowed fallback = fallback ∨
      InboxRouting.choice value allowed fallback ∈ allowed := by
  rw [InboxRouting.choice]
  generalize (if value.getD "" = "" then fallback else value.getD "") = v
  split
  next h => exact .inr h
  next => exact .inl rfl

theorem maxOptionalLen_units {field : String} {value : Units} {max : Nat} :
    maxOptionalLen field (if value ≠ [] then some (toText value) else none) max = [] ↔
      (toText value).utf8ByteSize ≤ max := by
  split
  · rw [maxOptionalLen, maxLen, violation_eq_nil, decide_eq_false_iff_not, Nat.not_lt]
  next h =>
    rw [Classical.not_not.mp h]
    exact iff_of_true rfl (Nat.zero_le max)

/-- What the inbox keeps passes but for its free texts. -/
theorem validate_inbox {q : InboxRouting.InboxQuery} (hpage : 1 ≤ q.page ∧ q.page ≤ 1000000)
    (hstate : q.state ∈ ["unread", "read", "snoozed", "dismissed", "all", "archived"])
    (hseverity : q.severity = "" ∨ q.severity ∈ ["info", "warning", "critical"]) :
    InboxQuery.validate
      ⟨some q.state, if q.search ≠ [] then some (toText q.search) else none,
        if q.source ≠ [] then some (toText q.source) else none, textField q.severity,
        some (q.page : Int), none⟩ = [] ↔
      (toText q.search).utf8ByteSize ≤ 200 ∧ (toText q.source).utf8ByteSize ≤ 64 := by
  have hstates : inboxChoice "state" (some q.state)
      ["unread", "read", "snoozed", "dismissed", "all", "archived"] = [] := by
    rw [inboxChoice, violation_eq_nil, Option.any_some, decide_eq_false_iff_not, Classical.not_not]
    exact hstate
  have hseverities : inboxChoice "severity" (textField q.severity)
      ["info", "warning", "critical"] = [] := by
    rw [inboxChoice, violation_eq_nil, textField]
    rcases hseverity with h | h
    · simp [h]
    · split
      · rw [Option.any_some, decide_eq_false_iff_not, Classical.not_not]
        exact h
      · rfl
  have hpages : violation ((some (q.page : Int)).any fun page => !(1 ≤ page ∧ page ≤ 1000000)) "page"
      "must be from 1 to 1000000" = [] := by
    rw [violation_eq_nil, Option.any_some, Bool.not_eq_false', decide_eq_true_eq]
    omega
  have hsizes : violation ((none : Option Int).any fun size => !(1 ≤ size ∧ size ≤ 100))
      "page_size" "must be from 1 to 100" = [] := rfl
  rw [InboxQuery.validate]
  simp only [List.append_eq_nil_iff, maxOptionalLen_units, hstates, hseverities, hpages, hsizes,
    true_and, and_true]

/-- The parameters of the inbox are accepted just if its free texts are. -/
theorem inbox_accepted (p : Units) : (inboxRequest p).validate = [] ↔ InboxFits p := by
  have hpage : 1 ≤ (InboxRouting.parseInboxQuery (searchParams p)).page ∧
      (InboxRouting.parseInboxQuery (searchParams p)).page ≤ 1000000 := by
    rw [InboxRouting.parseInboxQuery]
    dsimp only
    exact pageOf_bounds (get (searchParams p) "page")
  have hstate : (InboxRouting.parseInboxQuery (searchParams p)).state ∈
      ["unread", "read", "snoozed", "dismissed", "all", "archived"] := by
    rw [InboxRouting.parseInboxQuery]
    dsimp only
    rcases @choice_mem (get (searchParams p) "state") InboxRouting.inboxStates "unread" with h | h
    · rw [h]
      decide
    · exact h
  have hseverity : (InboxRouting.parseInboxQuery (searchParams p)).severity = "" ∨
      (InboxRouting.parseInboxQuery (searchParams p)).severity ∈ ["info", "warning", "critical"] := by
    rw [InboxRouting.parseInboxQuery]
    dsimp only
    exact choice_mem
  have haccepted := validate_inbox hpage hstate hseverity
  rw [← @inboxRequest_eq p _ rfl hpage.2] at haccepted
  simpa only [InboxFits, inboxText, InboxRouting.parseInboxQuery] using haccepted

/-- **A page's requests are accepted just if the free texts of its hash are.** -/
theorem client_queries_accepted_iff (p : Units) :
    ((myWorkRequest p).validate = [] ∧ (inboxRequest p).validate = []) ↔
      MyWorkFits p ∧ InboxFits p :=
  and_congr (myWork_accepted p) (inbox_accepted p)

/-- A status that is none of the four is sent, and refused. -/
theorem client_query_refused :
    ¬ ∀ p : Units, (myWorkRequest p).validate = [] ∧ (inboxRequest p).validate = [] := by
  intro h
  have hfails : (myWorkRequest (units "status=new")).validate ≠ [] := by decide +kernel
  exact hfails (h _).1

end DevPortal
