import DevPortal.Access.Queries
import DevPortal.Access.Requests

/-!
# Access/Facets — the values a work page offers as filters

    column of a card ──distinct──▸ facet ──sent back──▸ validated ▸ trimmed ▸ compared with the column

A facet is a value as it is stored, and a filter is compared after it was trimmed.  So a facet finds
its cards just if it is trimmed already: a padded value finds none of them, or those of another
value.
-/

namespace DevPortal

open Sql

/-! ## The table -/

/-- `work_cards`, with the `CHECK`s and the lengths of its columns. -/
structure WorkCardTable where
  rows : List WorkCard
  statusCheck : ∀ c ∈ rows, c.content.status ∈ workCardStatuses
  scopeCheck : ∀ c ∈ rows, scopeCheck c.ownerUserId c.maintainerId
  sourceLength : ∀ c ∈ rows, c.source.length ≤ 64
  projectLength : ∀ c ∈ rows, ∀ project ∈ c.content.project, project.length ≤ 128
  workItemTypeLength : ∀ c ∈ rows, ∀ kind ∈ c.content.workItemType, kind.length ≤ 128

/-- The user's cards: those the page shows without a filter. -/
def WorkCardTable.myWork (table : WorkCardTable) (access : RecordAccessScope) : List WorkCard :=
  (WorkCardRepository.myWorkBaseQuery access).rows table.rows

/-! ## Facets -/

/-- A column that is offered as a filter. -/
inductive FacetColumn
  | status
  | project
  | workItemType
  | source
  deriving DecidableEq

namespace FacetColumn

/-- The column of a card. -/
def value : FacetColumn → WorkCard → Option String
  | status, c => some c.content.status
  | project, c => c.content.project
  | workItemType, c => c.content.workItemType
  | source, c => some c.source

/-- The conditions of a facet on its column. -/
def conditions : FacetColumn → Where WorkCard
  | status => []
  | project =>
    [fun c => isNotNull c.content.project,
      fun c => compareWith (fun v w => v ≠ w) c.content.project (some "")]
  | workItemType =>
    [fun c => isNotNull c.content.workItemType,
      fun c => compareWith (fun v w => v ≠ w) c.content.workItemType (some "")]
  | source => []

end FacetColumn

namespace WorkCardRepository

/-- `SELECT DISTINCT … ORDER BY … ASC`, under the collation of the database. -/
def distinctValues (collate : String → String → Ordering) (column : FacetColumn)
    (access : RecordAccessScope) (cards : List WorkCard) : List String :=
  let rows := (myWorkBaseQuery access ++ column.conditions).rows cards
  (rows.filterMap column.value).eraseDups.mergeSort fun v w => collate v w != .gt

/-- `MyWorkCardFacetValues`. -/
structure MyWorkCardFacetValues where
  statuses : List String
  projects : List String
  workItemTypes : List String
  sources : List String

/-- `my_work_facets`. -/
def myWorkFacets (collate : String → String → Ordering) (access : RecordAccessScope)
    (cards : List WorkCard) : MyWorkCardFacetValues where
  statuses := distinctValues collate .status access cards
  projects := distinctValues collate .project access cards
  workItemTypes := distinctValues collate .workItemType access cards
  sources := distinctValues collate .source access cards

/-- The facets of a column. -/
def MyWorkCardFacetValues.of (facets : MyWorkCardFacetValues) : FacetColumn → List String
  | .status => facets.statuses
  | .project => facets.projects
  | .workItemType => facets.workItemTypes
  | .source => facets.sources

end WorkCardRepository

/-! ## The route -/

/-- How a query is turned down. -/
inductive QueryRejection
  | validation (errors : List FieldViolation)
  | badRequest

/-- `trimmed`. -/
def trimmedValue (value : Option String) : Option String := value.map Text.trim

namespace MyWorkCardQuery

/-- The due filter of a query. -/
def dueFilter (q : MyWorkCardQuery) : Except QueryRejection (Option WorkCardDueFilter) :=
  match trimmedValue q.due with
  | none => .ok none
  | some due =>
    if due = "overdue" then .ok (some .overdue)
    else if due = "today" then .ok (some .today)
    else if due = "next_7_days" then .ok (some .nextSevenDays)
    else if due = "none" then .ok (some .none)
    else .error .badRequest

/-- The order of a query. -/
def sortOrder (q : MyWorkCardQuery) : Except QueryRejection WorkCardSort :=
  match trimmedValue q.sort with
  | none => .ok .attention
  | some sort =>
    if sort = "due_asc" then .ok .dueAsc
    else if sort = "source_updated_desc" then .ok .sourceUpdatedDesc
    else if sort = "attention" then .ok .attention
    else .error .badRequest

/-- The filters of a query that was accepted. -/
def filters (todayStart : DateTime) (q : MyWorkCardQuery) :
    Except QueryRejection MyWorkCardFilters := do
  let due ← q.dueFilter
  let sort ← q.sortOrder
  return {
    status := trimmedValue q.status
    due
    project := trimmedValue q.project
    workItemType := trimmedValue q.workItemType
    source := trimmedValue q.source
    sort, todayStart
    tomorrowStart := todayStart + seconds 86400
    nextSevenDaysEnd := todayStart + seconds (7 * 86400) }

/-- A query with one filter. -/
def only (column : FacetColumn) (value : String) : MyWorkCardQuery where
  status := if column = .status then some value else none
  due := none
  project := if column = .project then some value else none
  workItemType := if column = .workItemType then some value else none
  source := if column = .source then some value else none
  sort := none
  page := none
  pageSize := none

end MyWorkCardQuery

/-- `MyWorkCardsResponse`. -/
structure MyWorkCardsResponse where
  items : List WorkCard
  total : Nat
  page : Int
  pageSize : Int
  facets : WorkCardRepository.MyWorkCardFacetValues

/-- `get_my_work_cards`, on the day that starts at an instant. -/
def getMyWorkCards (collate : String → String → Ordering) (todayStart : DateTime)
    (access : RecordAccessScope) (cards : List WorkCard) (query : MyWorkCardQuery) :
    Except QueryRejection MyWorkCardsResponse := do
  let errors := query.validate
  if errors.isEmpty then
    let filters ← query.filters todayStart
    let result := WorkCardRepository.findMyWork access filters query.number.toNat query.size.toNat cards
    return ⟨result.items, result.total, query.number, query.size,
      WorkCardRepository.myWorkFacets collate access cards⟩
  else
    throw (.validation errors)

/-! ## One filter -/

/-- The texts a column may be asked for. -/
def FacetColumn.Accepts : FacetColumn → String → Prop
  | .status, v => Text.trim v ∈ myWorkStatuses
  | .project, v => v.utf8ByteSize ≤ 128 ∧ Text.isBlank v = false
  | .workItemType, v => v.utf8ByteSize ≤ 128 ∧ Text.isBlank v = false
  | .source, v => v.utf8ByteSize ≤ 64 ∧ Text.isBlank v = false

/-- The texts a column offers. -/
def FacetColumn.Offers : FacetColumn → String → Prop
  | .project, v => v ≠ ""
  | .workItemType, v => v ≠ ""
  | _, _ => True

/-- What is not empty is offered. -/
theorem FacetColumn.offers_of_ne (column : FacetColumn) {v : String} (h : v ≠ "") :
    column.Offers v := by
  cases column
  · trivial
  · exact h
  · exact h
  · trivial

section OneFilter

variable {column : FacetColumn} {v : String} {c : WorkCard} {todayStart : DateTime}
  {filters : MyWorkCardFilters} {collate : String → String → Ordering} {access : RecordAccessScope}
  {cards : List WorkCard}

theorem validate_only_iff :
    (MyWorkCardQuery.only column v).validate = [] ↔ column.Accepts v := by
  cases column <;>
    simp [MyWorkCardQuery.validate, MyWorkCardQuery.only, FacetColumn.Accepts,
      validateOptionalChoice, notBlank, Validation.violation, Validation.maxOptionalLen,
      Validation.maxLen]

/-- The filters of one column are all there. -/
theorem exists_filters_only (column : FacetColumn) (v : String) (todayStart : DateTime) :
    ∃ filters, (MyWorkCardQuery.only column v).filters todayStart = .ok filters := ⟨_, rfl⟩

/-- **A filter selects by the trimmed text.** -/
theorem selects_only_iff (h : (MyWorkCardQuery.only column v).filters todayStart = .ok filters) :
    (WorkCardRepository.myWorkFilters filters).selects c = true ↔
      column.value c = some (Text.trim v) := by
  obtain rfl := Except.ok.inj h
  cases column <;>
    simp [WorkCardRepository.myWorkFilters, WorkCardRepository.dueFilters, MyWorkCardQuery.only,
      trimmedValue, FacetColumn.value]

theorem mem_myWorkRows_only
    (h : (MyWorkCardQuery.only column v).filters todayStart = .ok filters) :
    c ∈ WorkCardRepository.myWorkRows access filters cards ↔
      c ∈ (WorkCardRepository.myWorkBaseQuery access).rows cards ∧
        column.value c = some (Text.trim v) := by
  rw [WorkCardRepository.myWorkRows, Where.rows_append, List.mem_filter, selects_only_iff h]

/-- The conditions of a facet leave out what it does not offer. -/
theorem selects_conditions_iff (h : column.value c = some v) :
    column.conditions.selects c = true ↔ column.Offers v := by
  cases column <;>
    simp_all [FacetColumn.conditions, FacetColumn.value, FacetColumn.Offers]

/-- **The facets are the values of the user's cards.** -/
theorem mem_facets_iff :
    v ∈ (WorkCardRepository.myWorkFacets collate access cards).of column ↔
      (∃ c ∈ (WorkCardRepository.myWorkBaseQuery access).rows cards, column.value c = some v) ∧
        column.Offers v := by
  have hdistinct : (WorkCardRepository.myWorkFacets collate access cards).of column =
      WorkCardRepository.distinctValues collate column access cards := by
    cases column <;> rfl
  rw [hdistinct, WorkCardRepository.distinctValues, List.mem_mergeSort, List.mem_eraseDups,
    List.mem_filterMap, Where.rows_append]
  constructor
  · rintro ⟨c, hc, hv⟩
    obtain ⟨hrow, hselects⟩ := List.mem_filter.mp hc
    exact ⟨⟨c, hrow, hv⟩, (selects_conditions_iff hv).mp hselects⟩
  · rintro ⟨⟨c, hrow, hv⟩, hoffers⟩
    exact ⟨c, List.mem_filter.mpr ⟨hrow, (selects_conditions_iff hv).mpr hoffers⟩, hv⟩

/-- A query that is accepted is answered, with as many cards as it finds. -/
theorem getMyWorkCards_only (collate : String → String → Ordering) (access : RecordAccessScope)
    (cards : List WorkCard) (haccepts : column.Accepts v)
    (h : (MyWorkCardQuery.only column v).filters todayStart = .ok filters) :
    ∃ response, getMyWorkCards collate todayStart access cards (.only column v) = .ok response ∧
      response.total = (WorkCardRepository.myWorkRows access filters cards).length := by
  rw [getMyWorkCards, validate_only_iff.mpr haccepts, h]
  exact ⟨_, rfl, rfl⟩

theorem accepts_of_getMyWorkCards {response : MyWorkCardsResponse}
    (h : getMyWorkCards collate todayStart access cards (.only column v) = .ok response) :
    column.Accepts v := by
  rw [← validate_only_iff]
  by_contra herrors
  rw [getMyWorkCards, if_neg (by simpa using herrors)] at h
  cases h

end OneFilter

/-! ## Usable facets -/

/-- **The facets are usable filters**: each is accepted and finds a card, and each card of the user
that has a value is found by a facet. -/
structure FacetsUsable (collate : String → String → Ordering) (todayStart : DateTime)
    (access : RecordAccessScope) (table : WorkCardTable) : Prop where
  accepted : ∀ column, ∀ v ∈ (WorkCardRepository.myWorkFacets collate access table.rows).of column,
    ∃ response, getMyWorkCards collate todayStart access table.rows (.only column v) = .ok response ∧
      1 ≤ response.total
  reachable : ∀ column, ∀ card ∈ table.myWork access, ∀ w ∈ column.value card, w ≠ "" →
    ∃ v ∈ (WorkCardRepository.myWorkFacets collate access table.rows).of column, column.Accepts v ∧
      ∃ filters, (MyWorkCardQuery.only column v).filters todayStart = .ok filters ∧
        card ∈ WorkCardRepository.myWorkRows access filters table.rows

/-- A value that is a filter as it stands. -/
def FilterText (limit : Nat) (v : String) : Prop := Text.trim v = v ∧ v.utf8ByteSize ≤ limit

/-- **A card without padding**: its project and its type, where they are not empty, and its source are
trimmed and, in bytes, not too long. -/
structure PlainCard (card : WorkCard) : Prop where
  project : ∀ v ∈ card.content.project, v ≠ "" → FilterText 128 v
  workItemType : ∀ v ∈ card.content.workItemType, v ≠ "" → FilterText 128 v
  source : card.source ≠ "" ∧ FilterText 64 card.source

/-- What a plain card offers is accepted, and is its own trimmed text. -/
theorem PlainCard.accepts {card : WorkCard} (h : PlainCard card)
    (hstatus : card.content.status ∈ workCardStatuses) {column : FacetColumn} {v : String}
    (hv : column.value card = some v) (hoffers : column.Offers v) :
    column.Accepts v ∧ Text.trim v = v := by
  cases column with
  | status =>
    obtain rfl := Option.some.inj hv
    have htrim : ∀ status ∈ workCardStatuses, Text.trim status = status := by decide
    refine ⟨?_, htrim _ hstatus⟩
    show Text.trim card.content.status ∈ myWorkStatuses
    rw [htrim _ hstatus]
    exact hstatus
  | project =>
    obtain ⟨htrim, hsize⟩ := h.project v hv hoffers
    exact ⟨⟨hsize, Text.isBlank_eq_false_of_trim hoffers htrim⟩, htrim⟩
  | workItemType =>
    obtain ⟨htrim, hsize⟩ := h.workItemType v hv hoffers
    exact ⟨⟨hsize, Text.isBlank_eq_false_of_trim hoffers htrim⟩, htrim⟩
  | source =>
    obtain rfl := Option.some.inj hv
    obtain ⟨hne, htrim, hsize⟩ := h.source
    exact ⟨⟨hsize, Text.isBlank_eq_false_of_trim hne htrim⟩, htrim⟩

section Usable

variable {collate : String → String → Ordering} {todayStart : DateTime} {access : RecordAccessScope}
  {table : WorkCardTable}

/-- A value that is offered finds the card it is from, if it is trimmed. -/
theorem found_by_own_value (todayStart : DateTime) {column : FacetColumn} {card : WorkCard}
    {v : String} (hcard : card ∈ table.myWork access) (hv : column.value card = some v)
    (htrim : Text.trim v = v) :
    ∃ filters, (MyWorkCardQuery.only column v).filters todayStart = .ok filters ∧
      card ∈ WorkCardRepository.myWorkRows access filters table.rows := by
  obtain ⟨filters, hfilters⟩ := exists_filters_only column v todayStart
  exact ⟨filters, hfilters, (mem_myWorkRows_only hfilters).mpr ⟨hcard, htrim.symm ▸ hv⟩⟩

theorem status_of_mem_myWork {card : WorkCard} (h : card ∈ table.myWork access) :
    card.content.status ∈ workCardStatuses := table.statusCheck card (List.mem_filter.mp h).1

/-- Among plain cards the facets are usable. -/
theorem usable_of_plain (h : ∀ card ∈ table.myWork access, PlainCard card) :
    FacetsUsable collate todayStart access table := by
  constructor
  · intro column v hv
    obtain ⟨⟨card, hcard, hvalue⟩, hoffers⟩ := mem_facets_iff.mp hv
    obtain ⟨haccepts, htrim⟩ := (h card hcard).accepts (status_of_mem_myWork hcard) hvalue hoffers
    obtain ⟨filters, hfilters, hfound⟩ := found_by_own_value todayStart hcard hvalue htrim
    obtain ⟨response, hresponse, htotal⟩ := getMyWorkCards_only collate access table.rows haccepts hfilters
    exact ⟨response, hresponse, htotal ▸ List.length_pos_of_mem hfound⟩
  · intro column card hcard w hw hne
    have hoffers := column.offers_of_ne hne
    obtain ⟨haccepts, htrim⟩ := (h card hcard).accepts (status_of_mem_myWork hcard) hw hoffers
    exact ⟨w, mem_facets_iff.mpr ⟨⟨card, hcard, hw⟩, hoffers⟩, haccepts,
      found_by_own_value todayStart hcard hw htrim⟩

/-- Among usable facets a value is a filter as it stands. -/
theorem FacetsUsable.trimmed (h : FacetsUsable collate todayStart access table)
    (column : FacetColumn) {card : WorkCard} {w : String} (hcard : card ∈ table.myWork access)
    (hw : column.value card = some w) (hne : w ≠ "") : column.Accepts w ∧ Text.trim w = w := by
  obtain ⟨response, hresponse, -⟩ :=
    h.accepted column w (mem_facets_iff.mpr ⟨⟨card, hcard, hw⟩, column.offers_of_ne hne⟩)
  -- what finds the card was trimmed, so the value of the card is
  obtain ⟨v, -, -, filters, hfilters, hfound⟩ := h.reachable column card hcard w hw hne
  obtain ⟨-, hvalue⟩ := (mem_myWorkRows_only hfilters).mp hfound
  obtain rfl := Option.some.inj (hw.symm.trans hvalue)
  exact ⟨accepts_of_getMyWorkCards hresponse, Text.trim_trim v⟩

theorem plain_of_usable (h : FacetsUsable collate todayStart access table) {card : WorkCard}
    (hcard : card ∈ table.myWork access) : PlainCard card := by
  have hsource : card.source ≠ "" := by
    intro hempty
    have hfacet : "" ∈ (WorkCardRepository.myWorkFacets collate access table.rows).of .source :=
      mem_facets_iff.mpr ⟨⟨card, hcard, congrArg some hempty⟩, trivial⟩
    obtain ⟨response, hresponse, -⟩ := h.accepted .source "" hfacet
    have hblank := (accepts_of_getMyWorkCards hresponse).2
    cases hblank
  refine ⟨fun v hv hne => ?_, fun v hv hne => ?_, hsource, ?_⟩
  · obtain ⟨⟨hsize, -⟩, htrim⟩ := h.trimmed .project hcard hv hne
    exact ⟨htrim, hsize⟩
  · obtain ⟨⟨hsize, -⟩, htrim⟩ := h.trimmed .workItemType hcard hv hne
    exact ⟨htrim, hsize⟩
  · obtain ⟨⟨hsize, -⟩, htrim⟩ := h.trimmed .source hcard rfl hsource
    exact ⟨htrim, hsize⟩

end Usable

/-- **When the facets are usable**: just if all the user's cards are plain. -/
theorem facets_usable_iff (collate : String → String → Ordering) (todayStart : DateTime)
    (access : RecordAccessScope) (table : WorkCardTable) :
    FacetsUsable collate todayStart access table ↔
      ∀ card ∈ table.myWork access, PlainCard card :=
  ⟨fun h _ hcard => plain_of_usable h hcard, usable_of_plain⟩

/-! ## A padded project -/

namespace PaddedProject

/-- An item as an import takes it. -/
def new : NewWorkCard where
  source := "ado"
  externalId := some "7"
  content :=
    { title := "t", status := "todo", priority := "low", assignee := none
      project := some " Portal ", workItemType := none, assigneeSourceId := some "aad.7"
      assigneeUserId := some 7, dueAt := none, url := none }
  connectorId := none
  ownerUserId := none
  maintainerId := none
  sourceUpdatedAt := none
  lastSeenRunId := none
  archivedAt := none

def card : WorkCard := { new with id := 0, createdAt := 0, updatedAt := 0 }

theorem status_card : ∀ c ∈ [card], c.content.status ∈ workCardStatuses := by decide

theorem scope_card : ∀ c ∈ [card], scopeCheck c.ownerUserId c.maintainerId := by
  intro c hc
  obtain rfl := List.mem_singleton.mp hc
  rintro ⟨howner, -⟩
  cases howner

theorem source_card : ∀ c ∈ [card], c.source.length ≤ 64 := by decide

theorem project_card : ∀ c ∈ [card], ∀ project ∈ c.content.project, project.length ≤ 128 := by
  intro c hc project hproject
  obtain rfl := List.mem_singleton.mp hc
  obtain rfl := Option.some.inj hproject
  decide

theorem workItemType_card : ∀ c ∈ [card], ∀ kind ∈ c.content.workItemType, kind.length ≤ 128 := by
  intro c hc kind hkind
  obtain rfl := List.mem_singleton.mp hc
  cases hkind

def table : WorkCardTable := ⟨[card], status_card, scope_card, source_card, project_card,
  workItemType_card⟩

/-- The user it is assigned to. -/
def access : RecordAccessScope := ⟨7, false, []⟩

end PaddedProject

open PaddedProject in
/-- **A facet that finds nothing**: the project is accepted with its padding, it is the one that is
offered, and it is looked for without. -/
theorem padded_project_finds_nothing :
    NewWorkCard.validate new = [] ∧
    (WorkCardRepository.myWorkFacets compare access table.rows).projects = [" Portal "] ∧
    (∃ response, getMyWorkCards compare 0 access table.rows (.only .project " Portal ") = .ok response ∧
      response.total = 0) ∧
    ¬ FacetsUsable compare 0 access table := by
  have hmine : card ∈ table.myWork access := by decide
  have hpadded : Text.trim " Portal " = "Portal" := by decide
  refine ⟨by decide, ?_, ?_, fun h => ?_⟩
  · show ((((WorkCardRepository.myWorkBaseQuery access ++ FacetColumn.project.conditions).rows
      table.rows).filterMap FacetColumn.project.value).eraseDups.mergeSort _) = _
    have hvalues : (((WorkCardRepository.myWorkBaseQuery access ++
        FacetColumn.project.conditions).rows table.rows).filterMap
          FacetColumn.project.value).eraseDups = [" Portal "] := by decide
    rw [hvalues, List.mergeSort_singleton]
  · obtain ⟨filters, hfilters⟩ := exists_filters_only .project " Portal " 0
    have haccepts : FacetColumn.project.Accepts " Portal " := ⟨by decide, by decide⟩
    obtain ⟨response, hresponse, htotal⟩ := getMyWorkCards_only compare access table.rows haccepts
      hfilters
    have hnone : WorkCardRepository.myWorkRows access filters table.rows = [] := by
      refine List.eq_nil_iff_forall_not_mem.mpr fun c hc => ?_
      obtain ⟨hrow, hvalue⟩ := (mem_myWorkRows_only hfilters).mp hc
      obtain rfl := List.mem_singleton.mp (List.mem_filter.mp hrow).1
      rw [hpadded] at hvalue
      revert hvalue
      decide
    exact ⟨response, hresponse, by rw [htotal, hnone]; rfl⟩
  · obtain ⟨htrim, -⟩ := (plain_of_usable h hmine).project " Portal " rfl (by decide)
    rw [hpadded] at htrim
    revert htrim
    decide

end DevPortal
