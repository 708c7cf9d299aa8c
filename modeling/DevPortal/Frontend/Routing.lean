import DevPortal.Machinery.Script
import DevPortal.Machinery.SearchParams

/-!
# Frontend/Routing — routes and their queries in the browser

    #my-work?…        myWorkRouting     parse ▸ normalise ▸ write again
    #inbox?…          inboxRouting      parse ▸ write again
    #connectors?…     authRouting       copy what is bounded

A hash is a script's string; its query is read into parameters, and every route writes the
parameters it knows in an order of its own.  Values that are read off parameters are texts; one
that was cut after a number of code units is a string again until it is written.
-/

namespace DevPortal

open Unicode SearchParams Script

/-- `new URLSearchParams(query)` of a string. -/
def searchParams (query : Units) : Params := parse (toText query)

/-! ## My work -/

/-- `MyWorkQuery`. -/
structure MyWorkQuery where
  status : String
  due : String
  project : String
  workItemType : String
  source : String
  sort : String
  page : Nat
  pageSize : Nat
  deriving DecidableEq, Repr

namespace MyWorkRouting

/-- `MY_WORK_DUE_VALUES`. -/
def myWorkDueValues : List String := ["overdue", "today", "next_7_days", "none"]

/-- `MY_WORK_SORT_VALUES`. -/
def myWorkSortValues : List String := ["attention", "due_asc", "source_updated_desc"]

/-- `MY_WORK_PAGE_SIZES`. -/
def myWorkPageSizes : List Nat := [10, 25, 50, 100]

/-- `DEFAULT_MY_WORK_QUERY`. -/
def defaultMyWorkQuery : MyWorkQuery := ⟨"", "", "", "", "", "attention", 1, 25⟩

/-- `boundedValue`. -/
def boundedValue (value : Option String) : String :=
  let normalized := trim (value.getD "")
  if normalized = "" || 128 < unitLength normalized || hasControl normalized then "" else normalized

/-- `enumValue`. -/
def enumValue (value : Option String) (allowed : List String) (fallback : String) : String :=
  let v := value.getD ""
  if v ≠ "" && v ∈ allowed then v else fallback

/-- `positiveInteger`. -/
def positiveInteger (value : Option String) (fallback : Nat) : Nat :=
  let v := value.getD ""
  if isDigits v.toList then
    match safeInteger? v with
    | some parsed => if 0 < parsed ∧ parsed ≤ 1000000 then parsed.toNat else fallback
    | none => fallback
  else fallback

/-- `pageSize`. -/
def pageSize (value : Option String) : Nat :=
  let parsed := positiveInteger value defaultMyWorkQuery.pageSize
  if parsed ∈ myWorkPageSizes then parsed else defaultMyWorkQuery.pageSize

/-- `parseMyWorkQuery` of parameters. -/
def parseMyWorkQuery (params : Params) : MyWorkQuery where
  status := boundedValue (get params "status")
  due := enumValue (get params "due") myWorkDueValues ""
  project := boundedValue (get params "project")
  workItemType := boundedValue (get params "work_item_type")
  source := boundedValue (get params "source")
  sort := enumValue (get params "sort") myWorkSortValues defaultMyWorkQuery.sort
  page := positiveInteger (get params "page") defaultMyWorkQuery.page
  pageSize := pageSize (get params "page_size")

/-- The parameters `parseMyWorkQuery` reads off a string. -/
def myWorkSearch (input : Units) : Params :=
  searchParams (if input.head? = some 0x3f then input.tail else input)

/-- `setWhenPresent`. -/
def setWhenPresent (params : Params) (key value : String) : Params :=
  if value ≠ "" then set params key value else params

/-- `myWorkParams`. -/
def myWorkParams (query : MyWorkQuery) (includeDefaults : Bool) : Params :=
  let normalized := parseMyWorkQuery
    [("status", query.status), ("due", query.due), ("project", query.project),
      ("work_item_type", query.workItemType), ("source", query.source), ("sort", query.sort),
      ("page", toString query.page), ("page_size", toString query.pageSize)]
  let params := setWhenPresent [] "status" normalized.status
  let params := setWhenPresent params "due" normalized.due
  let params := setWhenPresent params "project" normalized.project
  let params := setWhenPresent params "work_item_type" normalized.workItemType
  let params := setWhenPresent params "source" normalized.source
  let params :=
    if includeDefaults || normalized.sort ≠ defaultMyWorkQuery.sort then
      set params "sort" normalized.sort
    else params
  let params :=
    if includeDefaults || normalized.page ≠ defaultMyWorkQuery.page then
      set params "page" (toString normalized.page)
    else params
  if includeDefaults || normalized.pageSize ≠ defaultMyWorkQuery.pageSize then
    set params "page_size" (toString normalized.pageSize)
  else params

/-- `myWorkHash`. -/
def myWorkHash (query : MyWorkQuery) : String :=
  let search := serialize (myWorkParams query false)
  if search ≠ "" then "#my-work?" ++ search else "#my-work"

/-- `myWorkApiPath`. -/
def myWorkApiPath (query : MyWorkQuery) : String :=
  "/me/work-cards?" ++ serialize (myWorkParams query true)

/-- `split("?", 2)[1] || ""`. -/
def behindQuestion (s : String) : String := String.ofList ((s.toList.splitOn '?')[1]?.getD [])

/-- `safeMyWorkQuery`. -/
def safeMyWorkQuery (query : Units) : String :=
  behindQuestion (myWorkHash (parseMyWorkQuery (myWorkSearch query)))

/-- `safeMyWorkDetailQuery`. -/
def safeMyWorkDetailQuery (query : Units) : String :=
  if get (searchParams query) "from" ≠ some "my-work" then ""
  else
    let safeQuery := safeMyWorkQuery query
    serialize ((parse safeQuery).foldl (fun outgoing p => set outgoing p.1 p.2)
      [("from", "my-work")])

/-! ### Writing a query again -/

theorem boundedValue_boundedValue (value : Option String) :
    boundedValue (some (boundedValue value)) = boundedValue value := by
  have hempty : boundedValue (some "") = "" := by decide
  generalize hv : trim (value.getD "") = v
  have hbounded : boundedValue value =
      if v = "" || 128 < unitLength v || hasControl v then "" else v := by
    rw [boundedValue, hv]
  rw [hbounded]
  split
  next => exact hempty
  next h =>
    rw [boundedValue, Option.getD_some, ← hv, trim_trim, hv, if_neg h]

theorem enumValue_enumValue (value : Option String) (allowed : List String) (fallback : String) :
    enumValue (some (enumValue value allowed fallback)) allowed fallback =
      enumValue value allowed fallback := by
  generalize hv : value.getD "" = v
  have henum : enumValue value allowed fallback = if v ≠ "" && v ∈ allowed then v else fallback := by
    rw [enumValue, hv]
  rw [henum]
  split
  next h => rw [enumValue, Option.getD_some, if_pos h]
  next => exact ite_self _

/-- A page lies in its bounds. -/
theorem positiveInteger_bounds (value : Option String) {fallback : Nat}
    (h : 1 ≤ fallback ∧ fallback ≤ 1000000) :
    1 ≤ positiveInteger value fallback ∧ positiveInteger value fallback ≤ 1000000 := by
  unfold positiveInteger
  dsimp only
  split
  · split
    · split
      · omega
      · exact h
    · exact h
  · exact h

theorem positiveInteger_toString {n : Nat} (h : 1 ≤ n ∧ n ≤ 1000000) (fallback : Nat) :
    positiveInteger (some (toString n)) fallback = n := by
  unfold positiveInteger
  dsimp only [Option.getD_some]
  rw [if_pos (isDigits_toString n), safeInteger?_toString (by omega)]
  dsimp only
  rw [if_pos (by omega), Int.toNat_natCast]

theorem pageSize_mem (value : Option String) : pageSize value ∈ myWorkPageSizes := by
  unfold pageSize
  dsimp only
  split
  next h => exact h
  next => decide

theorem pageSize_toString {n : Nat} (h : n ∈ myWorkPageSizes) :
    pageSize (some (toString n)) = n := by
  have hbounds : 1 ≤ n ∧ n ≤ 1000000 := by
    simp only [myWorkPageSizes, List.mem_cons, List.not_mem_nil, or_false] at h
    omega
  rw [pageSize, positiveInteger_toString hbounds, if_pos h]

/-- The pairs of a query, each with the condition under which it is written. -/
def myWorkEntries (query : MyWorkQuery) (includeDefaults : Bool) : List (Bool × String × String) :=
  [(query.status ≠ "", "status", query.status), (query.due ≠ "", "due", query.due),
    (query.project ≠ "", "project", query.project),
    (query.workItemType ≠ "", "work_item_type", query.workItemType),
    (query.source ≠ "", "source", query.source),
    (includeDefaults || query.sort ≠ defaultMyWorkQuery.sort, "sort", query.sort),
    (includeDefaults || query.page ≠ defaultMyWorkQuery.page, "page", toString query.page),
    (includeDefaults || query.pageSize ≠ defaultMyWorkQuery.pageSize, "page_size",
      toString query.pageSize)]

/-- The page and the size of a parsed query lie in their bounds. -/
theorem parseMyWorkQuery_bounds (params : Params) :
    (1 ≤ (parseMyWorkQuery params).page ∧ (parseMyWorkQuery params).page ≤ 1000000) ∧
      (parseMyWorkQuery params).pageSize ∈ myWorkPageSizes :=
  ⟨positiveInteger_bounds _ (by decide), pageSize_mem _⟩

/-- A query that was parsed is parsed again as itself. -/
theorem parseMyWorkQuery_again (params : Params) :
    let query := parseMyWorkQuery params
    parseMyWorkQuery
      [("status", query.status), ("due", query.due), ("project", query.project),
        ("work_item_type", query.workItemType), ("source", query.source), ("sort", query.sort),
        ("page", toString query.page), ("page_size", toString query.pageSize)] = query := by
  intro query
  obtain ⟨hpage, hsize⟩ := parseMyWorkQuery_bounds params
  have hagain : ∀ a b c d e f g h : String, parseMyWorkQuery
      [("status", a), ("due", b), ("project", c), ("work_item_type", d), ("source", e),
        ("sort", f), ("page", g), ("page_size", h)] =
      ⟨boundedValue (some a), enumValue (some b) myWorkDueValues "", boundedValue (some c),
        boundedValue (some d), boundedValue (some e),
        enumValue (some f) myWorkSortValues defaultMyWorkQuery.sort,
        positiveInteger (some g) defaultMyWorkQuery.page, pageSize (some h)⟩ := by
    intros
    rfl
  rw [hagain, positiveInteger_toString hpage, pageSize_toString hsize]
  simp only [query, parseMyWorkQuery, boundedValue_boundedValue, enumValue_enumValue]

/-- **What the page writes**: the pairs of the parsed query, in a fixed order. -/
theorem myWorkParams_parse (params : Params) (includeDefaults : Bool) :
    myWorkParams (parseMyWorkQuery params) includeDefaults =
      present (myWorkEntries (parseMyWorkQuery params) includeDefaults) := by
  have hnodup : ((([] : Params).map Prod.fst) ++
      (myWorkEntries (parseMyWorkQuery params) includeDefaults).map (·.2.1)).Nodup := by
    simp [myWorkEntries]
  rw [← List.nil_append (present _), ← setEach_eq hnodup]
  unfold myWorkParams
  rw [parseMyWorkQuery_again]
  simp [setEach, myWorkEntries, setWhenPresent]

end MyWorkRouting

/-! ## Inbox -/

namespace InboxRouting

/-- `INBOX_STATES`. -/
def inboxStates : List String := ["unread", "read", "snoozed", "dismissed", "all", "archived"]

/-- `InboxQuery` of the browser. -/
structure InboxQuery where
  state : String
  search : Units
  source : Units
  severity : String
  page : Nat
  deriving DecidableEq, Repr

/-- A value of a list, or a fallback. -/
def choice (value : Option String) (allowed : List String) (fallback : String) : String :=
  let v := if value.getD "" = "" then fallback else value.getD ""
  if v ∈ allowed then v else fallback

/-- The page: `Number` of what stands there, if that is a safe integer in bounds. -/
def pageOf (value : Option String) : Nat :=
  let v := value.getD ""
  if v = "" then 1
  else
    match safeInteger? v with
    | some page => if 1 ≤ page ∧ page ≤ 1000000 then page.toNat else 1
    | none => 1

/-- `parseInboxQuery`. -/
def parseInboxQuery (params : Params) : InboxQuery where
  state := choice (get params "state") inboxStates "unread"
  search := (units (trim ((get params "search").getD ""))).take 200
  source := (units (trim ((get params "source").getD ""))).take 64
  severity := choice (get params "severity") ["info", "warning", "critical"] ""
  page := pageOf (get params "page")

/-- A string under a key, unless it is empty. -/
def setUnits (params : Params) (key : String) (value : Units) : Params :=
  if value ≠ [] then set params key (toText value) else params

/-- `inboxParams`. -/
def inboxParams (query : InboxQuery) : Params :=
  let params := [("state", query.state)]
  let params := setUnits params "search" query.search
  let params := setUnits params "source" query.source
  let params := MyWorkRouting.setWhenPresent params "severity" query.severity
  set params "page" (toString query.page)

/-- `inboxHash`. -/
def inboxHash (query : InboxQuery) : String := "#inbox?" ++ serialize (inboxParams query)

/-- The pairs of an inbox query, each with the condition under which it is written. -/
def inboxEntries (query : InboxQuery) : List (Bool × String × String) :=
  [(true, "state", query.state), (query.search ≠ [], "search", toText query.search),
    (query.source ≠ [], "source", toText query.source),
    (query.severity ≠ "", "severity", query.severity), (true, "page", toString query.page)]

theorem inboxParams_eq (query : InboxQuery) : inboxParams query = present (inboxEntries query) := by
  have hnodup : ((([] : Params).map Prod.fst) ++ (inboxEntries query).map (·.2.1)).Nodup := by
    simp [inboxEntries]
  rw [← List.nil_append (present _), ← setEach_eq hnodup]
  simp [inboxParams, setEach, inboxEntries, setUnits, MyWorkRouting.setWhenPresent, set_of_fresh]

end InboxRouting

/-! ## Sign-in -/

namespace AuthRouting

open MyWorkRouting InboxRouting

/-- `DEFAULT_RETURN_TO`. -/
def defaultReturnTo : String := "/#dashboard"

/-- `TOP_LEVEL_ROUTES`. -/
def topLevelRoutes : List String := ["dashboard", "my-work", "connectors", "catalog", "audit"]

/-- `positiveInteger`. -/
def positiveInteger (value : Option String) : Option Nat :=
  let v := value.getD ""
  if isDigits v.toList then
    match safeInteger? v with
    | some parsed => if 0 < parsed then some parsed.toNat else none
    | none => none
  else none

/-- `positiveIntegerRouteId`.  Half of a pair is no digit, whatever it is read as. -/
def positiveIntegerRouteId (route : Units) (start : String) : Option Nat :=
  if (units start).isPrefixOf route then
    positiveInteger (some (toText (route.drop (units start).length)))
  else none

/-- `positiveIntegerQueryId`. -/
def positiveIntegerQueryId (route query : Units) (expectedRoute : String) : Option Nat :=
  if route = units expectedRoute then positiveInteger (get (searchParams query) "id") else none

/-- `copyBoundedValue`. -/
def copyBoundedValue (incoming outgoing : Params) (key : String) : Params :=
  let value := trim ((get incoming key).getD "")
  if value ≠ "" && unitLength value ≤ 128 && !hasControl value then set outgoing key value
  else outgoing

/-- `safeConnectorQuery`. -/
def safeConnectorQuery (query : Units) : String :=
  let incoming := searchParams query
  let outgoing := copyBoundedValue incoming [] "source"
  let outgoing := copyBoundedValue incoming outgoing "target"
  let outgoing :=
    match positiveInteger ((get incoming "runId").or (get incoming "run_id")) with
    | some runId => set outgoing "runId" (toString runId)
    | none => outgoing
  serialize outgoing

/-- The pairs the connectors page keeps, each with the condition under which it is written. -/
def connectorEntries (incoming : Params) : List (Bool × String × String) :=
  let runId := positiveInteger ((get incoming "runId").or (get incoming "run_id"))
  [(boundedValue (get incoming "source") ≠ "", "source", boundedValue (get incoming "source")),
    (boundedValue (get incoming "target") ≠ "", "target", boundedValue (get incoming "target")),
    (runId.isSome, "runId", toString (runId.getD 0))]

theorem copyBoundedValue_eq (incoming outgoing : Params) (key : String) :
    copyBoundedValue incoming outgoing key =
      setWhenPresent outgoing key (boundedValue (get incoming key)) := by
  unfold copyBoundedValue setWhenPresent boundedValue
  dsimp only
  generalize trim ((SearchParams.get incoming key).getD "") = v
  rcases eq_or_ne v "" with rfl | hv
  · simp
  rcases Nat.lt_or_ge 128 (unitLength v) with hlength | hlength
  · simp [hlength, Nat.not_le.mpr hlength]
  rcases Bool.eq_false_or_eq_true (hasControl v) with hcontrol | hcontrol
  · simp [hcontrol]
  · simp [hv, hlength, Nat.not_lt.mpr hlength, hcontrol]

theorem safeConnectorQuery_eq (query : Units) :
    safeConnectorQuery query = serialize (present (connectorEntries (searchParams query))) := by
  have hnodup : ((([] : Params).map Prod.fst) ++
      (connectorEntries (searchParams query)).map (·.2.1)).Nodup := by
    simp [connectorEntries]
  rw [← List.nil_append (present _), ← setEach_eq hnodup]
  unfold safeConnectorQuery
  dsimp only
  rw [copyBoundedValue_eq, copyBoundedValue_eq]
  unfold setEach connectorEntries
  dsimp only
  rcases positiveInteger _ with _ | runId
  · simp [setWhenPresent]
  · simp [setWhenPresent]

/-- A route with its query, which is left out when it is empty. -/
def withQuery (route query : String) : String :=
  if query ≠ "" then route ++ "?" ++ query else route

/-- `hash.replace(/^#\/?/, "")`. -/
def dropHash (hash : Units) : Units :=
  if hash.head? = some 0x23 then
    if hash.tail.head? = some 0x2f then hash.tail.tail else hash.tail
  else hash

/-- Route and query: `split("?", 2)` of what is left of the hash. -/
def splitHash (hash : Units) : Units × Units :=
  let pieces := (dropHash hash).splitOn 0x3f
  (pieces.headD [], pieces[1]?.getD [])

/-- The routes of `safeReturnToFromHash` that carry a number, in its order. -/
def numberedRoute (route query : Units) : String :=
  match positiveIntegerRouteId route "work-cards/" with
  | some id => withQuery ("/#work-cards/" ++ toString id) (safeMyWorkDetailQuery query)
  | none =>
    match positiveIntegerQueryId route query "work-cards" with
    | some id => "/#work-cards/" ++ toString id
    | none =>
      match (positiveIntegerRouteId route "notifications/").or
          (positiveIntegerQueryId route query "notifications") with
      | some id =>
        let params := searchParams query
        if get params "from" = some "inbox" then
          "/#notifications/" ++ toString id ++ "?from=inbox&" ++
            serialize (inboxParams (parseInboxQuery params))
        else "/#notifications/" ++ toString id
      | none => defaultReturnTo

/-- `safeReturnToFromHash`. -/
def safeReturnToFromHash (hash : Units) : String :=
  if hash = [] || 512 < hash.length || hash.any (fun u => isControl u.toNat) then defaultReturnTo
  else
    let (route, query) := splitHash hash
    if route = units "my-work" then withQuery "/#my-work" (safeMyWorkQuery query)
    else if route = units "inbox" then
      "/" ++ inboxHash (parseInboxQuery (searchParams query))
    else if topLevelRoutes.any (fun r => route = units r) && route ≠ units "connectors" then
      "/#" ++ toText route
    else if route = units "connectors" then withQuery "/#connectors" (safeConnectorQuery query)
    else numberedRoute route query

end AuthRouting

end DevPortal
