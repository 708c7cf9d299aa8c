import DevPortal.Auth.EntraRedirect
import DevPortal.Frontend.RoundTrip
import DevPortal.Machinery.UrlText

/-!
# Frontend/SignInReturn — the page that a sign-in comes back to

    #route ──safeReturnToFromHash──▸ /auth/entra/start?return_to=… ──▸ transaction
       ▴                                                                 ▾
    routeFromHash ◂── #route ◂──urlWithoutAuthCallbackParameters── /?marker#route

The browser sends the route it shows along, the server sends the browser back to it with a marker of
the result, and the browser reads the marker, drops it, and shows the route.  It shows a record under
every positive whole number that a script reads, but keeps for the way back only digits.
-/

namespace DevPortal

namespace SignIn

open Unicode SearchParams Script MyWorkRouting InboxRouting AuthRouting

/-! ## The page of a hash -/

/-- `AppView`. -/
inductive AppView
  | dashboard | myWork | inbox | connectors | catalog | audit | serviceOverview | workCardDetail
  | notificationDetail
  deriving DecidableEq

/-- `AppRoute`. -/
structure AppRoute where
  view : AppView
  params : Params
  recordId : Option Nat

/-- `TOP_LEVEL_VIEWS`. -/
def topLevelViews : List (String × AppView) :=
  [("dashboard", .dashboard), ("my-work", .myWork), ("inbox", .inbox), ("connectors", .connectors),
    ("catalog", .catalog), ("audit", .audit)]

/-- `numericId`. -/
def numericId (value : Option String) : Option Nat :=
  let v := value.getD ""
  if v = "" then none
  else
    match (number? v).bind Decimal.integer? with
    | some id => if 0 < id then some id.toNat else none
    | none => none

/-- The view of the top level. -/
def topLevelView (viewPart : Units) : AppView :=
  ((topLevelViews.find? fun v => viewPart = units v.1).map (·.2)).getD .dashboard

/-- The route of a record, or the dashboard if it has no number. -/
def recordRoute (view : AppView) (params : Params) (recordId : Option Nat) : AppRoute :=
  ⟨if recordId.isSome then view else .dashboard, params, recordId⟩

/-- `routeFromHash` behind the hash. -/
def routeOf (viewPart query : Units) : AppRoute :=
  let params := searchParams query
  if (units "work-cards/").isPrefixOf viewPart then
    recordRoute .workCardDetail params
      (numericId (some (toText (viewPart.drop (units "work-cards/").length))))
  else if (units "notifications/").isPrefixOf viewPart then
    recordRoute .notificationDetail params
      (numericId (some (toText (viewPart.drop (units "notifications/").length))))
  else if viewPart = units "work-cards" then
    recordRoute .workCardDetail params (numericId (get params "id"))
  else if viewPart = units "notifications" then
    recordRoute .notificationDetail params (numericId (get params "id"))
  else ⟨topLevelView viewPart, params, none⟩

/-- `routeFromHash`. -/
def routeFromHash (hash : Units) : AppRoute := routeOf (splitHash hash).1 (splitHash hash).2

/-! ## The way to the server and back -/

/-- `window.location`, of a page of the portal. -/
structure Location where
  pathname : String
  search : String
  hash : String
  deriving DecidableEq

/-- Where a redirect to a path of the portal leads, if nothing in it is to be escaped. -/
def Location.ofReference (reference : String) : Location :=
  let mark (c : Char) (part : List Char) := if part = [] then "" else String.ofList (c :: part)
  ⟨String.ofList (UrlText.beforeQuery reference.toList), mark '?' (Query.query reference.toList),
    mark '#' ((UrlText.fragment reference.toList).getD [])⟩

/-- `AUTH_CALLBACK_QUERY_KEYS`. -/
def authCallbackQueryKeys : List String :=
  ["auth_result", "auth_error", "code", "state", "session_state", "error", "error_description",
    "id_token", "access_token"]

/-- `ENTRA_ERROR_MESSAGES`. -/
def entraErrorMessages : List (String × String) :=
  [("entra_access_denied", "Microsoft sign-in was cancelled or denied."),
    ("entra_account_not_allowed", "This Microsoft account is not allowed to use the portal."),
    ("entra_invalid_state",
      "The Microsoft sign-in request expired or could not be verified. Try again."),
    ("entra_provider_unavailable",
      "Microsoft sign-in is temporarily unavailable. Try again later."),
    ("entra_configuration_error",
      "Microsoft sign-in is not configured correctly. Contact the portal administrator.")]

/-- `EntraAuthCallbackMarker`. -/
inductive EntraAuthCallbackMarker
  | success
  | error (code : Option String) (message : String)
  deriving DecidableEq

/-- `parseEntraAuthCallback`. -/
def parseEntraAuthCallback (search : String) : Option EntraAuthCallbackMarker :=
  let params := parse search
  let errorCode := (get params "auth_error").getD ""
  if errorCode ≠ "" then
    match entraErrorMessages.lookup errorCode with
    | some message => some (.error (some errorCode) message)
    | none => some (.error none "Microsoft sign-in could not be completed. Try again.")
  else if get params "auth_result" = some "entra" then some .success else none

/-- `hasAuthCallbackParameters`. -/
def hasAuthCallbackParameters (search : String) : Bool :=
  authCallbackQueryKeys.any fun key => (parse search).any (·.1 = key)

/-- `urlWithoutAuthCallbackParameters` of the page. -/
def urlWithoutAuthCallbackParameters (url : Location) : String :=
  let query := serialize ((parse url.search).filter fun p => p.1 ∉ authCallbackQueryKeys)
  url.pathname ++ (if query ≠ "" then "?" ++ query else "") ++ url.hash

/-- `entraLoginStartUrl`. -/
def entraLoginStartUrl (hash : Units) : String :=
  "/auth/entra/start?" ++ serialize [("return_to", safeReturnToFromHash hash)]

/-- The `return_to` that the server is sent. -/
def returnToOf (url : String) : Option String :=
  get (formFields (Query.query url.toList)) "return_to"

/-- Where a sign-in that was started at a hash ends, with its transaction. -/
def signInEnd (hash : Units) (result : Except EntraFlowError Unit) : Location :=
  .ofReference (finishRedirect (some (storedReturnTo (returnToOf (entraLoginStartUrl hash)))) result)

/-! ## Hashes that the browser writes -/

theorem question_not_mem_units {s : String} (h : '?' ∉ s.toList) : 0x3f ∉ units s := by
  intro hmem
  obtain ⟨c, hc, hu⟩ := List.mem_flatMap.mp hmem
  rcases encodeUnits_cases c with ⟨u, hunits, -, hscalar⟩ | ⟨u, v, hunits, hhigh, -, hsecond, -⟩
  · rw [hunits, List.mem_singleton] at hu
    rw [← hscalar, ← hu] at hc
    exact h hc
  · rw [hunits, List.mem_pair] at hu
    rcases hu with rfl | rfl
    · exact absurd hhigh (by decide)
    · exact absurd hsecond (by decide)

@[simp] theorem units_append (s t : String) : units (s ++ t) = units s ++ units t := by
  simp [units]

/-- **A hash that is written is cut where it was joined.** -/
theorem splitHash_withQuery {route query : String} (hroute : '?' ∉ route.toList)
    (hslash : (units route).head? ≠ some 0x2f) (hquery : '?' ∉ query.toList) :
    splitHash (units (withQuery ("#" ++ route) query)) = (units route, units query) := by
  have hhash : units "#" = [0x23] := by decide
  have hquestion : units "?" = [0x3f] := by decide
  have hdrop : ∀ rest : String, (units (route ++ rest)).head? ≠ some 0x2f →
      dropHash (units ("#" ++ (route ++ rest))) = units route ++ units rest := by
    intro rest hhead
    rw [units_append "#", hhash, dropHash, List.singleton_append, List.head?_cons, if_pos rfl,
      List.tail_cons, if_neg hhead, units_append]
  unfold splitHash withQuery
  dsimp only
  split
  next hne =>
    have hsome : (units (route ++ ("?" ++ query))).head? ≠ some 0x2f := by
      rw [units_append, List.head?_append]
      cases hhead : (units route).head? with
      | none => simp [hquestion]
      | some u => simpa [hhead] using hslash
    rw [String.append_assoc, String.append_assoc, hdrop _ hsome, units_append, hquestion,
      List.singleton_append, List.splitOn_append_cons_self_of_not_mem (question_not_mem_units hroute),
      List.splitOn_eq_singleton (question_not_mem_units hquery)]
    rfl
  next hempty =>
    obtain rfl := Classical.not_not.mp hempty
    have hend : "#" ++ route = "#" ++ (route ++ "") := by rw [String.append_empty]
    rw [hend, hdrop "" (by rwa [String.append_empty])]
    have hnil : units "" = [] := rfl
    rw [hnil, List.append_nil, List.splitOn_eq_singleton (question_not_mem_units hroute)]
    rfl

theorem not_mem_of_mem_splitOn {α : Type} [BEq α] [LawfulBEq α] {a : α} {xs l : List α}
    (h : l ∈ xs.splitOn a) : a ∉ l := by
  induction xs generalizing l with
  | nil =>
    obtain rfl := List.mem_singleton.mp h
    exact List.not_mem_nil
  | cons x xs ih =>
    rw [List.splitOn_cons_eq_if_modifyHead] at h
    split at h
    · rcases List.mem_cons.mp h with rfl | h
      · exact List.not_mem_nil
      · exact ih h
    next hx =>
      obtain ⟨first, rest, hsplit⟩ := List.exists_cons_of_ne_nil (List.splitOn_ne_nil a xs)
      rw [hsplit, List.modifyHead_cons] at h
      rcases List.mem_cons.mp h with rfl | h
      · refine fun hmem => (List.mem_cons.mp hmem).elim (fun heq => hx (by simp [heq])) ?_
        exact ih (hsplit ▸ List.mem_cons_self)
      · exact ih (hsplit ▸ List.mem_cons_of_mem _ h)

/-- A query has no `?` in front of it. -/
theorem myWorkSearch_splitHash (hash : Units) :
    myWorkSearch (splitHash hash).2 = searchParams (splitHash hash).2 := by
  refine congrArg searchParams (if_neg fun hhead => ?_)
  have hmem : 0x3f ∈ (splitHash hash).2 := List.mem_of_mem_head? hhead
  unfold splitHash at hmem
  dsimp only at hmem
  cases hpiece : ((dropHash hash).splitOn 0x3f)[1]? with
  | none => simp [hpiece] at hmem
  | some piece =>
    rw [hpiece, Option.getD_some] at hmem
    exact not_mem_of_mem_splitOn (List.mem_of_getElem? hpiece) hmem

/-! ## Records -/

/-- The kinds of records that have a page. -/
inductive RecordKind
  | workCard | notification

/-- The start of the routes of a kind. -/
def RecordKind.start : RecordKind → String
  | .workCard => "work-cards/"
  | .notification => "notifications/"

/-- The page of a kind. -/
def RecordKind.view : RecordKind → AppView
  | .workCard => .workCardDetail
  | .notification => .notificationDetail

/-- The record that a route names, with the text of its number. -/
def recordOf (viewPart query : Units) : Option (RecordKind × Option String) :=
  if (units "work-cards/").isPrefixOf viewPart then
    some (.workCard, some (toText (viewPart.drop (units "work-cards/").length)))
  else if (units "notifications/").isPrefixOf viewPart then
    some (.notification, some (toText (viewPart.drop (units "notifications/").length)))
  else if viewPart = units "work-cards" then some (.workCard, get (searchParams query) "id")
  else if viewPart = units "notifications" then some (.notification, get (searchParams query) "id")
  else none

theorem routeOf_eq (viewPart query : Units) :
    routeOf viewPart query =
      match recordOf viewPart query with
      | some (kind, text) => recordRoute kind.view (searchParams query) (numericId text)
      | none => ⟨topLevelView viewPart, searchParams query, none⟩ := by
  unfold routeOf recordOf
  dsimp only
  split_ifs <;> rfl

/-- What the way back keeps, the page reads as it is. -/
theorem numericId_of_positiveInteger {value : Option String} {id : Nat}
    (h : AuthRouting.positiveInteger value = some id) : numericId value = some id := by
  unfold AuthRouting.positiveInteger at h
  dsimp only at h
  split at h
  next hdigits =>
    have hne : value.getD "" ≠ "" := by
      intro hempty
      rw [hempty] at hdigits
      exact absurd hdigits (by decide)
    split at h
    next parsed hparsed =>
      obtain ⟨hnumber, -⟩ := Option.filter_eq_some_iff.mp hparsed
      unfold numericId
      dsimp only
      rw [if_neg hne, hnumber]
      exact h
    · cases h
  · cases h

theorem positiveInteger_of_positiveInteger {value : Option String} {id : Nat}
    (h : AuthRouting.positiveInteger value = some id) :
    AuthRouting.positiveInteger (some (toString id)) = some id := by
  unfold AuthRouting.positiveInteger at h
  dsimp only at h
  split at h
  · split at h
    next parsed hparsed =>
      obtain ⟨-, hsafe⟩ := Option.filter_eq_some_iff.mp hparsed
      have hsafe := of_decide_eq_true hsafe
      split at h
      next hpos =>
        obtain rfl := Option.some.inj h
        unfold AuthRouting.positiveInteger
        dsimp only [Option.getD_some]
        rw [if_pos (isDigits_toString _), safeInteger?_toString (by omega)]
        dsimp only
        rw [if_pos (by omega), Int.toNat_natCast]
      · cases h
    · cases h
  · cases h

/-! ## Where the way back leads -/

/-- View and record of a route. -/
def AppRoute.page (route : AppRoute) : AppView × Option Nat := (route.view, route.recordId)

/-- What is returned to is a hash of the portal that shows a page. -/
def Landing (returnTo : String) (page : AppView × Option Nat) : Prop :=
  ∃ route query : String, '?' ∉ route.toList ∧ (units route).head? ≠ some 0x2f ∧
    '?' ∉ query.toList ∧ returnTo = "/" ++ withQuery ("#" ++ route) query ∧
    (routeOf (units route) (units query)).page = page

theorem Landing.page {fragment : String} {page : AppView × Option Nat}
    (h : Landing ("/#" ++ fragment) page) :
    (routeFromHash (units ("#" ++ fragment))).page = page := by
  obtain ⟨route, query, hroute, hslash, hquery, hreturn, hpage⟩ := h
  have hfragment : "#" ++ fragment = withQuery ("#" ++ route) query := by
    rw [← String.toList_inj] at hreturn ⊢
    simpa using hreturn
  rw [hfragment, routeFromHash, splitHash_withQuery hroute hslash hquery]
  exact hpage

theorem recordOf_top {v : String × AppView} (hv : v ∈ topLevelViews) (query : Units) :
    recordOf (units v.1) query = none := by
  have hroutes : ∀ v ∈ topLevelViews, (units "work-cards/").isPrefixOf (units v.1) = false ∧
      (units "notifications/").isPrefixOf (units v.1) = false ∧ units v.1 ≠ units "work-cards" ∧
      units v.1 ≠ units "notifications" := by decide
  obtain ⟨hcard, hnotification, hcards, hnotifications⟩ := hroutes v hv
  rw [recordOf, if_neg (ne_true_of_eq_false hcard), if_neg (ne_true_of_eq_false hnotification),
    if_neg hcards, if_neg hnotifications]

theorem page_top {v : String × AppView} (hv : v ∈ topLevelViews) (query : Units) :
    (routeOf (units v.1) query).page = (v.2, none) := by
  have hviews : ∀ v ∈ topLevelViews, topLevelView (units v.1) = v.2 := by decide
  rw [routeOf_eq, recordOf_top hv, AppRoute.page, hviews v hv]

theorem landing_top {v : String × AppView} (hv : v ∈ topLevelViews) {query : String}
    (hquery : '?' ∉ query.toList) : Landing ("/" ++ withQuery ("#" ++ v.1) query) (v.2, none) := by
  have hroutes : ∀ v ∈ topLevelViews, '?' ∉ v.1.toList ∧ (units v.1).head? ≠ some 0x2f := by decide
  exact ⟨v.1, query, (hroutes v hv).1, (hroutes v hv).2, hquery, rfl, page_top hv _⟩

theorem landing_default : Landing defaultReturnTo (.dashboard, none) := by
  have h := @landing_top ("dashboard", .dashboard) (by decide) "" (by decide)
  exact h

theorem recordOf_start (kind : RecordKind) (rest query : Units) :
    recordOf (units kind.start ++ rest) query = some (kind, some (toText rest)) := by
  have hstarts : ∀ start : String, (units start).isPrefixOf (units start ++ rest) = true := fun _ =>
    List.isPrefixOf_iff_prefix.mpr (List.prefix_append _ _)
  cases kind with
  | workCard => rw [recordOf, RecordKind.start, if_pos (hstarts _), List.drop_left]
  | notification =>
    have hcard : (units "work-cards/").isPrefixOf (units "notifications/" ++ rest) = false := rfl
    rw [recordOf, RecordKind.start, if_neg (ne_true_of_eq_false hcard), if_pos (hstarts _),
      List.drop_left]

/-- The page of a record, by its number. -/
theorem landing_record (kind : RecordKind) {value : Option String} {id : Nat}
    (hid : AuthRouting.positiveInteger value = some id) {query : String}
    (hquery : '?' ∉ query.toList) :
    Landing ("/" ++ withQuery ("#" ++ (kind.start ++ toString id)) query) (kind.view, some id) := by
  have hroute : '?' ∉ (kind.start ++ toString id).toList := by
    have hdigits := isDigits_toString id
    rw [isDigits, Bool.and_eq_true, List.all_eq_true] at hdigits
    rw [String.toList_append, List.mem_append]
    rintro (hmem | hmem)
    · cases kind <;> exact absurd hmem (by decide)
    · exact absurd (hdigits.2 _ hmem) (by decide)
  have hslash : (units (kind.start ++ toString id)).head? ≠ some 0x2f := by
    have hhead : (units (kind.start ++ toString id)).head? = (units kind.start).head? := by
      rw [units_append]
      cases kind <;> rfl
    rw [hhead]
    cases kind <;> decide
  refine ⟨_, query, hroute, hslash, hquery, rfl, ?_⟩
  rw [routeOf_eq, units_append, recordOf_start, toText_units]
  dsimp only
  rw [numericId_of_positiveInteger (positiveInteger_of_positiveInteger hid)]
  rfl

/-- The record that a route names by a number that the way back keeps. -/
def numbered (route query : Units) : Option (RecordKind × Nat) :=
  (recordOf route query).bind fun p => (AuthRouting.positiveInteger p.2).map (p.1, ·)

/-- The route back to a notification. -/
def notificationRoute (id : Nat) (query : Units) : String :=
  if get (searchParams query) "from" = some "inbox" then
    "/#notifications/" ++ toString id ++ "?from=inbox&" ++
      serialize (inboxParams (parseInboxQuery (searchParams query)))
  else "/#notifications/" ++ toString id

theorem numberedRoute_eq (route query : Units) :
    numberedRoute route query =
      match numbered route query with
      | some (.workCard, id) =>
        withQuery ("/#work-cards/" ++ toString id)
          (if (units "work-cards/").isPrefixOf route then safeMyWorkDetailQuery query else "")
      | some (.notification, id) => notificationRoute id query
      | none => defaultReturnTo := by
  unfold numberedRoute numbered recordOf positiveIntegerRouteId positiveIntegerQueryId
  by_cases hcard : (units "work-cards/").isPrefixOf route = true
  · have hnotification : ¬ (units "notifications/").isPrefixOf route = true := by
      obtain ⟨rest, rfl⟩ := List.isPrefixOf_iff_prefix.mp hcard
      exact Bool.false_ne_true
    have hcards : route ≠ units "work-cards" := by
      rintro rfl
      exact absurd hcard (by decide)
    have hnotifications : route ≠ units "notifications" := by
      rintro rfl
      exact absurd hcard (by decide)
    simp only [if_pos hcard, if_neg hnotification, if_neg hcards, if_neg hnotifications,
      Option.bind_some, Option.or_none]
    cases AuthRouting.positiveInteger _ <;> rfl
  by_cases hnotification : (units "notifications/").isPrefixOf route = true
  · have hcards : route ≠ units "work-cards" := by
      rintro rfl
      exact absurd hnotification (by decide)
    have hnotifications : route ≠ units "notifications" := by
      rintro rfl
      exact absurd hnotification (by decide)
    simp only [if_neg hcard, if_pos hnotification, if_neg hcards, if_neg hnotifications,
      Option.bind_some, Option.or_none]
    cases AuthRouting.positiveInteger _ <;> rfl
  by_cases hcards : route = units "work-cards"
  · have hnotifications : route ≠ units "notifications" := by
      rw [hcards]
      decide
    simp only [if_neg hcard, if_neg hnotification, if_pos hcards, if_neg hnotifications,
      Option.bind_some, Option.or_none]
    cases AuthRouting.positiveInteger _ <;> rfl
  by_cases hnotifications : route = units "notifications"
  · simp only [if_neg hcard, if_neg hnotification, if_neg hcards, if_pos hnotifications,
      Option.bind_some, Option.none_or]
    cases AuthRouting.positiveInteger _ <;> rfl
  · simp only [if_neg hcard, if_neg hnotification, if_neg hcards, if_neg hnotifications,
      Option.bind_none, Option.none_or]

theorem withQuery_slash (route query : String) :
    withQuery ("/#" ++ route) query = "/" ++ withQuery ("#" ++ route) query := by
  have hslash : "/#" ++ route = "/" ++ ("#" ++ route) := by
    rw [← String.append_assoc]
    rfl
  unfold withQuery
  split
  · simp only [hslash, String.append_assoc]
  · exact hslash

theorem question_not_mem_detailQuery (query : Units) :
    '?' ∉ (safeMyWorkDetailQuery query).toList := by
  unfold safeMyWorkDetailQuery
  split
  · exact List.not_mem_nil
  · exact question_not_mem_serialize _

/-- A route that names a record leads to its page if the way back keeps its number. -/
theorem landing_numberedRoute (route query : Units) :
    Landing (numberedRoute route query)
      (match numbered route query with
      | some (kind, id) => (kind.view, some id)
      | none => (.dashboard, none)) := by
  rw [numberedRoute_eq]
  cases hnumbered : numbered route query with
  | none => exact landing_default
  | some p =>
    obtain ⟨kind, id⟩ := p
    obtain ⟨⟨k, text⟩, -, hmap⟩ := Option.bind_eq_some_iff.mp hnumbered
    obtain ⟨n, hid, hn⟩ := Option.map_eq_some_iff.mp hmap
    cases hn
    cases k with
    | workCard =>
      have hcard : "/#work-cards/" ++ toString id = "/#" ++ ("work-cards/" ++ toString id) := by
        rw [← String.append_assoc]
        rfl
      dsimp only
      rw [hcard, withQuery_slash]
      refine landing_record .workCard hid ?_
      split
      · exact question_not_mem_detailQuery query
      · exact List.not_mem_nil
    | notification =>
      have hnotification : "/#notifications/" ++ toString id
          = "/#" ++ ("notifications/" ++ toString id) := by
        rw [← String.append_assoc]
        rfl
      dsimp only
      unfold notificationRoute
      rw [hnotification]
      split
      · have hfrom : "?from=inbox&" = "?" ++ "from=inbox&" := rfl
        generalize inboxParams (parseInboxQuery (searchParams query)) = ps
        have hne : "from=inbox&" ++ serialize ps ≠ "" := by simp
        have hquery : '?' ∉ ("from=inbox&" ++ serialize ps).toList := by
          rw [String.toList_append, List.mem_append]
          rintro (hmem | hmem)
          · exact absurd hmem (by decide)
          · exact question_not_mem_serialize _ hmem
        have hlanding := landing_record .notification hid hquery
        rw [RecordKind.start, ← withQuery_slash, withQuery, if_pos hne] at hlanding
        simpa only [hfrom, String.append_assoc] using hlanding
      · have hempty : '?' ∉ "".toList := List.not_mem_nil
        have hlanding := landing_record .notification hid hempty
        rw [RecordKind.start, ← withQuery_slash] at hlanding
        exact hlanding

/-- The record that a hash names, if it names one, has a number that the way back keeps. -/
def Numbered (hash : Units) : Prop :=
  ∀ kind text, recordOf (splitHash hash).1 (splitHash hash).2 = some (kind, text) →
    (AuthRouting.positiveInteger text).isSome

/-- A hash that the way back looks at. -/
def Bounded (hash : Units) : Prop :=
  hash.length ≤ 512 ∧ hash.any (fun u => isControl u.toNat) = false

/-- A route that is none of the top level. -/
theorem topLevelView_other {route : Units} (h : ∀ v ∈ topLevelViews, route ≠ units v.1) :
    topLevelView route = .dashboard := by
  have hnone : (topLevelViews.find? fun v => route = units v.1) = none :=
    List.find?_eq_none.mpr fun v hv hroute => h v hv (of_decide_eq_true hroute)
  rw [topLevelView, hnone]
  rfl

theorem looked_of_bounded {hash : Units} (hne : hash ≠ []) (hbounded : Bounded hash) :
    ¬ (hash = [] || 512 < hash.length || hash.any (fun u => isControl u.toNat)) = true := by
  simp [hne, hbounded.1, hbounded.2]

/-- What a view of the top level keeps of its query. -/
def keptParams (view : AppView) (query : Units) : Params :=
  match view with
  | .myWork => myWorkKept query
  | .inbox => inboxParams (parseInboxQuery (searchParams query))
  | .connectors => connectorKept query
  | _ => []

/-- A route of the top level is kept, with a query of its own. -/
theorem safe_top {hash : Units} (hbounded : Bounded hash) {v : String × AppView}
    (hv : v ∈ topLevelViews) (hroute : (splitHash hash).1 = units v.1) :
    safeReturnToFromHash hash
      = withQuery ("/#" ++ v.1) (serialize (keptParams v.2 (splitHash hash).2)) := by
  have hne : hash ≠ [] := by
    rintro rfl
    have hempty : ∀ v ∈ topLevelViews, (splitHash []).1 ≠ units v.1 := by decide
    exact hempty v hv hroute
  unfold safeReturnToFromHash
  rw [if_neg (looked_of_bounded hne hbounded)]
  generalize splitHash hash = pieces at hroute
  obtain ⟨route, query⟩ := pieces
  dsimp only at hroute ⊢
  subst hroute
  have hbare : ∀ v ∈ topLevelViews, v.2 ≠ .myWork → v.2 ≠ .inbox → v.2 ≠ .connectors →
      units v.1 ≠ units "my-work" ∧ units v.1 ≠ units "inbox" ∧
        topLevelRoutes.any (fun r => units v.1 = units r) && units v.1 ≠ units "connectors" := by
    decide
  by_cases hwork : v.2 = .myWork
  · obtain rfl : v = ("my-work", .myWork) := by
      revert v
      decide
    rw [if_pos rfl, safeMyWorkQuery_eq]
    rfl
  by_cases hinbox : v.2 = .inbox
  · obtain rfl : v = ("inbox", .inbox) := by
      revert v
      decide
    have hsome : serialize (inboxParams (parseInboxQuery (searchParams query))) ≠ "" := by
      rw [ne_eq, serialize_eq_empty, inboxParams_eq]
      simp [inboxEntries, present]
    rw [if_neg (by decide), if_pos rfl, keptParams, withQuery, if_pos hsome, inboxHash,
      ← String.append_assoc]
    rfl
  by_cases hconnectors : v.2 = .connectors
  · obtain rfl : v = ("connectors", .connectors) := by
      revert v
      decide
    rw [if_neg (by decide), if_neg (by decide), if_neg (by decide), if_pos rfl, safeConnectorQuery_eq]
    rfl
  · have hnone : keptParams v.2 query = [] := by
      unfold keptParams
      split <;> first | contradiction | rfl
    obtain ⟨hwork, hinbox, htop⟩ := hbare v hv hwork hinbox hconnectors
    rw [if_neg hwork, if_neg hinbox, if_pos htop, toText_units, hnone]
    rfl

/-- Another one is kept if it names a record. -/
theorem safe_other {hash : Units} (hne : hash ≠ []) (hbounded : Bounded hash)
    (hroute : ∀ v ∈ topLevelViews, (splitHash hash).1 ≠ units v.1) :
    safeReturnToFromHash hash = numberedRoute (splitHash hash).1 (splitHash hash).2 := by
  have hviews : ∀ r ∈ topLevelRoutes ++ ["inbox"], ∃ v ∈ topLevelViews, v.1 = r := by decide
  have hother : ∀ r ∈ topLevelRoutes ++ ["inbox"], (splitHash hash).1 ≠ units r := by
    intro r hr
    obtain ⟨v, hv, rfl⟩ := hviews r hr
    exact hroute v hv
  have hnone : (topLevelRoutes.any fun r => (splitHash hash).1 = units r) = false :=
    List.any_eq_false.mpr fun r hr => by simpa using hother r (List.mem_append_left _ hr)
  unfold safeReturnToFromHash
  rw [if_neg (looked_of_bounded hne hbounded)]
  dsimp only
  rw [if_neg (hother "my-work" (by decide)), if_neg (hother "inbox" (by decide)), hnone,
    if_neg (by simp), if_neg (hother "connectors" (by decide))]

/-- **The way back leads to the page of the hash**, if it looks at the hash and keeps its record. -/
theorem landing_safe {hash : Units} (hbounded : Bounded hash) (hnumbered : Numbered hash) :
    Landing (safeReturnToFromHash hash) (routeFromHash hash).page := by
  rcases eq_or_ne hash [] with rfl | hne
  · exact landing_default
  by_cases htop : ∃ v ∈ topLevelViews, (splitHash hash).1 = units v.1
  · obtain ⟨v, hv, hroute⟩ := htop
    rw [routeFromHash, hroute, page_top hv, safe_top hbounded hv hroute, withQuery_slash]
    exact landing_top hv (question_not_mem_serialize _)
  · have hroute : ∀ v ∈ topLevelViews, (splitHash hash).1 ≠ units v.1 := fun v hv h =>
      htop ⟨v, hv, h⟩
    rw [safe_other hne hbounded hroute, routeFromHash, routeOf_eq]
    have hlanding := landing_numberedRoute (splitHash hash).1 (splitHash hash).2
    cases hrecord : recordOf (splitHash hash).1 (splitHash hash).2 with
    | none =>
      rw [numbered, hrecord] at hlanding
      rw [topLevelView_other hroute]
      exact hlanding
    | some p =>
      obtain ⟨id, hid⟩ := Option.isSome_iff_exists.mp (hnumbered p.1 p.2 hrecord)
      rw [numbered, hrecord, Option.bind_some, hid] at hlanding
      dsimp only
      rw [numericId_of_positiveInteger hid]
      exact hlanding

/-- **Else it leads to the dashboard.** -/
theorem landing_lost {hash : Units} (hlost : ¬ (Bounded hash ∧ Numbered hash)) :
    safeReturnToFromHash hash = defaultReturnTo := by
  by_cases hlooked : (hash = [] || 512 < hash.length || hash.any (fun u => isControl u.toNat)) = true
  · rw [safeReturnToFromHash, if_pos hlooked]
  simp only [Bool.or_eq_true, decide_eq_true_eq, not_or, Nat.not_lt, Bool.not_eq_true] at hlooked
  obtain ⟨⟨hne, hlength⟩, hcontrol⟩ := hlooked
  have hbounded : Bounded hash := ⟨hlength, hcontrol⟩
  have hrecord : ∃ kind text, recordOf (splitHash hash).1 (splitHash hash).2 = some (kind, text) ∧
      AuthRouting.positiveInteger text = none := by
    by_contra hnone
    refine hlost ⟨hbounded, fun kind text h => Option.isSome_iff_ne_none.mpr fun hid => ?_⟩
    exact hnone ⟨kind, text, h, hid⟩
  obtain ⟨kind, text, hrecord, hid⟩ := hrecord
  have hroute : ∀ v ∈ topLevelViews, (splitHash hash).1 ≠ units v.1 := by
    intro v hv h
    rw [h, recordOf_top hv] at hrecord
    cases hrecord
  rw [safe_other hne hbounded hroute, numberedRoute_eq, numbered, hrecord, Option.bind_some, hid]
  rfl

/-! ## The server -/

/-- The server is sent the way back. -/
theorem returnToOf_entraLoginStartUrl (hash : Units) :
    returnToOf (entraLoginStartUrl hash) = some (safeReturnToFromHash hash) := by
  have hpath : "/auth/entra/start?".toList = "/auth/entra/start".toList ++ ['?'] := by decide
  have hurl : (entraLoginStartUrl hash).toList = "/auth/entra/start".toList ++
      '?' :: (serialize [("return_to", safeReturnToFromHash hash)]).toList := by
    unfold entraLoginStartUrl
    generalize serialize [("return_to", safeReturnToFromHash hash)] = query
    rw [String.toList_append, hpath, List.append_assoc, List.singleton_append]
  rw [returnToOf, hurl, query_serialize (by decide) (by decide), formFields_serialize]
  exact List.lookup_cons_self

theorem ofReference_callback {marker fragment : String} (hmarker : '#' ∉ marker.toList)
    (hne : marker ≠ "") (hfragment : fragment ≠ "") :
    Location.ofReference ("/?" ++ marker ++ "#" ++ fragment)
      = ⟨"/", "?" ++ marker, "#" ++ fragment⟩ := by
  have hchars : ("/?" ++ marker ++ "#" ++ fragment).toList
      = ('/' :: '?' :: marker.toList) ++ '#' :: fragment.toList := by simp
  have hfront : ∀ c ∈ '/' :: '?' :: marker.toList, (c != '#') = true := by
    intro c hc
    refine bne_iff_ne.mpr ?_
    rintro rfl
    simp [hmarker] at hc
  unfold Location.ofReference
  generalize ("/?" ++ marker ++ "#" ++ fragment).toList = url at hchars
  subst hchars
  have hbefore : UrlText.beforeFragment ('/' :: '?' :: marker.toList ++ '#' :: fragment.toList)
      = '/' :: '?' :: marker.toList := by
    rw [UrlText.beforeFragment, List.takeWhile_append_of_pos hfront]
    simp
  have hrest : UrlText.fragment ('/' :: '?' :: marker.toList ++ '#' :: fragment.toList)
      = some fragment.toList := by
    rw [UrlText.fragment, List.dropWhile_append_of_pos hfront]
    rfl
  have hquery : ∀ url, Query.query url = ((UrlText.beforeFragment url).dropWhile (· != '?')).tail :=
    fun _ => rfl
  have hsearch : marker.toList ≠ [] := by simpa using hne
  have hhash : fragment.toList ≠ [] := by simpa using hfragment
  dsimp only
  rw [UrlText.beforeQuery, hquery, hbefore, hrest, Option.getD_some, if_neg hhash]
  simp [hsearch]

/-- The sign-in ends at the start page, with a marker and the route that was stored. -/
theorem signInEnd_eq (hash : Units) (result : Except EntraFlowError Unit) :
    ∃ fragment, normalizeReturnTo (some (safeReturnToFromHash hash)) = "/#" ++ fragment ∧
      signInEnd hash result = ⟨"/", "?" ++ callbackMarker result, "#" ++ fragment⟩ := by
  obtain ⟨fragment, hfragment, hsafe⟩ := exists_safeFragment (some (safeReturnToFromHash hash))
  have hmarkers : ∀ marker ∈ callbackMarkers, '#' ∉ marker.toList ∧ marker ≠ "" := by decide
  obtain ⟨hmarker, hne⟩ := hmarkers _ (callbackMarker_mem result)
  have hstored : normalizeReturnTo (some (storedReturnTo (some (safeReturnToFromHash hash))))
      = "/#" ++ fragment := (normalizeReturnTo_normalizeReturnTo _).trans hfragment
  refine ⟨fragment, hfragment, ?_⟩
  rw [signInEnd, returnToOf_entraLoginStartUrl, finishRedirect, Option.getD_some,
    callbackTarget_fragment hstored, ofReference_callback hmarker hne hsafe.nonempty]

/-! ## Sign-in -/

/-- **The way back of a hash**: the browser looks at it, its record has a number that is kept, and the
server leaves the route alone. -/
structure Returns (hash : Units) : Prop where
  bounded : Bounded hash
  numbered : Numbered hash
  kept : normalizeReturnTo (some (safeReturnToFromHash hash)) = safeReturnToFromHash hash

/-- What the browser is to read of a result: a success, or an error that it has a message for. -/
def ReadAs (result : Except EntraFlowError Unit) (marker : Option EntraAuthCallbackMarker) : Prop :=
  match result with
  | .ok _ => marker = some .success
  | .error _ => ∃ p ∈ entraErrorMessages, callbackMarker result = "auth_error=" ++ p.1 ∧
      marker = some (.error (some p.1) p.2)

theorem readAs_callbackMarker (result : Except EntraFlowError Unit) :
    ReadAs result (parseEntraAuthCallback ("?" ++ callbackMarker result)) := by
  have herror : ∀ p ∈ entraErrorMessages,
      parseEntraAuthCallback ("?" ++ ("auth_error=" ++ p.1)) = some (.error (some p.1) p.2) := by
    decide +kernel
  have hentry : ∀ error, ∃ p ∈ entraErrorMessages,
      callbackMarker (.error error) = "auth_error=" ++ p.1 := by
    intro error
    cases error <;> decide
  rcases result with error | done
  · obtain ⟨p, hp, hmarker⟩ := hentry error
    exact ⟨p, hp, hmarker, by rw [hmarker, herror p hp]⟩
  · have hok : parseEntraAuthCallback "?auth_result=entra" = some .success := by decide +kernel
    exact hok

theorem params_routeOf (viewPart query : Units) :
    (routeOf viewPart query).params = searchParams query := by
  rw [routeOf_eq]
  cases recordOf viewPart query <;> rfl

/-- The dashboard shows no record. -/
theorem page_dashboard {hash : Units} (h : (routeFromHash hash).view = .dashboard) :
    (routeFromHash hash).page = (.dashboard, none) := by
  rw [routeFromHash, routeOf_eq] at h ⊢
  cases hrecord : recordOf (splitHash hash).1 (splitHash hash).2 with
  | none =>
    rw [hrecord] at h
    exact congrArg (·, none) h
  | some p =>
    rw [hrecord] at h
    dsimp only [recordRoute, AppRoute.page] at h ⊢
    cases hid : numericId p.2 with
    | none => rfl
    | some id =>
      rw [hid] at h
      cases hkind : p.1 <;> rw [hkind] at h <;> cases h

/-- A view of the top level that is no dashboard is that of its route. -/
theorem route_of_view {hash : Units} {v : String × AppView} (hv : v ∈ topLevelViews)
    (hdashboard : v.2 ≠ .dashboard) (h : (routeFromHash hash).view = v.2) :
    (splitHash hash).1 = units v.1 := by
  have hrecords : ∀ v ∈ topLevelViews, ∀ kind : RecordKind, v.2 ≠ kind.view := by
    intro v hv kind
    cases kind <;> exact (by decide : ∀ v ∈ topLevelViews, v.2 ≠ _) v hv
  have hviews : ∀ v ∈ topLevelViews, ∀ w ∈ topLevelViews, w.2 = v.2 → w.1 = v.1 := by decide
  rw [routeFromHash, routeOf_eq] at h
  cases hrecord : recordOf (splitHash hash).1 (splitHash hash).2 with
  | none =>
    rw [hrecord] at h
    dsimp only [topLevelView] at h
    cases hfind : topLevelViews.find? fun w => (splitHash hash).1 = units w.1 with
    | none =>
      rw [hfind] at h
      exact absurd h.symm hdashboard
    | some w =>
      rw [hfind] at h
      have hroute := List.find?_some hfind
      rw [of_decide_eq_true hroute, hviews v hv w (List.mem_of_find?_eq_some hfind) h]
  | some p =>
    rw [hrecord] at h
    dsimp only [recordRoute] at h
    split at h
    · exact absurd h.symm (hrecords v hv p.1)
    · exact absurd h.symm hdashboard

/-- A view of the top level is shown with the parameters that were kept. -/
theorem params_of_returns {hash : Units} {fragment : String} (h : Returns hash)
    (hfragment : normalizeReturnTo (some (safeReturnToFromHash hash)) = "/#" ++ fragment)
    {v : String × AppView} (hv : v ∈ topLevelViews) (hroute : (splitHash hash).1 = units v.1) :
    (routeFromHash (units ("#" ++ fragment))).params = keptParams v.2 (splitHash hash).2 := by
  have hroutes : ∀ v ∈ topLevelViews, '?' ∉ v.1.toList ∧ (units v.1).head? ≠ some 0x2f := by decide
  have hwritten : "#" ++ fragment
      = withQuery ("#" ++ v.1) (serialize (keptParams v.2 (splitHash hash).2)) := by
    rw [h.kept, safe_top h.bounded hv hroute, withQuery_slash, ← String.toList_inj] at hfragment
    rw [← String.toList_inj]
    simpa using hfragment.symm
  rw [routeFromHash, params_routeOf, hwritten, splitHash_withQuery (hroutes v hv).1 (hroutes v hv).2
    (question_not_mem_serialize _)]
  exact searchParams_serialize _

theorem page_of_returns {hash : Units} {fragment : String} (h : Returns hash)
    (hfragment : normalizeReturnTo (some (safeReturnToFromHash hash)) = "/#" ++ fragment) :
    (routeFromHash (units ("#" ++ fragment))).page = (routeFromHash hash).page := by
  have hlanding := landing_safe h.bounded h.numbered
  rw [← h.kept, hfragment] at hlanding
  exact hlanding.page

theorem page_of_lost {hash : Units} {fragment : String} (h : ¬ Returns hash)
    (hfragment : normalizeReturnTo (some (safeReturnToFromHash hash)) = "/#" ++ fragment) :
    (routeFromHash (units ("#" ++ fragment))).page = (.dashboard, none) := by
  have hstored : normalizeReturnTo (some (safeReturnToFromHash hash)) = defaultReturnTo := by
    by_cases hlooked : Bounded hash ∧ Numbered hash
    · rcases normalizeReturnTo_cases (some (safeReturnToFromHash hash)) with hreplaced | ⟨hkept, -⟩
      · exact hreplaced
      · exact absurd ⟨hlooked.1, hlooked.2, hkept⟩ h
    · rw [landing_lost hlooked]
      exact normalizeReturnTo_default
  have hlanding := landing_default
  rw [← hstored, hfragment] at hlanding
  exact hlanding.page

/-- **Where a sign-in that was started at a hash leads.** -/
structure Arrives (hash : Units) (result : Except EntraFlowError Unit) (landed : Location) : Prop where
  /-- The browser reads the result. -/
  marker : ReadAs result (parseEntraAuthCallback landed.search)
  /-- It takes the marker for its own. -/
  recognized : landed.pathname = "/" ∧ hasAuthCallbackParameters landed.search
  /-- Without the marker it is at the route that was stored. -/
  cleaned : urlWithoutAuthCallbackParameters landed = storedReturnTo (some (safeReturnToFromHash hash))
  /-- It shows the page it showed before just if that was the dashboard or the hash has a way back. -/
  page : (routeFromHash (units landed.hash)).page = (routeFromHash hash).page ↔
    (routeFromHash hash).view = .dashboard ∨ Returns hash
  /-- My Work shows what it showed. -/
  myWork : Returns hash → (routeFromHash hash).view = .myWork →
    parseMyWorkQuery (routeFromHash (units landed.hash)).params
      = parseMyWorkQuery (routeFromHash hash).params
  /-- The inbox does just if the cuts of what is searched for are clean. -/
  inbox : Returns hash → (routeFromHash hash).view = .inbox →
    (parseInboxQuery (routeFromHash (units landed.hash)).params
        = parseInboxQuery (routeFromHash hash).params ↔
      CleanCut 200 (units (trim ((get (routeFromHash hash).params "search").getD ""))) ∧
        CleanCut 64 (units (trim ((get (routeFromHash hash).params "source").getD ""))))

/-- **A sign-in ends where it began**, as far as the browser and the server keep the way. -/
theorem signInEnd_arrives (hash : Units) (result : Except EntraFlowError Unit) :
    Arrives hash result (signInEnd hash result) := by
  obtain ⟨fragment, hfragment, hend⟩ := signInEnd_eq hash result
  have hmarkers : ∀ marker ∈ callbackMarkers, hasAuthCallbackParameters ("?" ++ marker) = true ∧
      (parse ("?" ++ marker)).filter (fun p => p.1 ∉ authCallbackQueryKeys) = [] := by
    decide +kernel
  obtain ⟨hhas, hnone⟩ := hmarkers _ (callbackMarker_mem result)
  rw [hend]
  refine ⟨readAs_callbackMarker result, ⟨rfl, hhas⟩, ?_, ⟨fun hpage => ?_, fun hback => ?_⟩, ?_, ?_⟩
  · rw [urlWithoutAuthCallbackParameters, hnone, storedReturnTo, hfragment]
    exact (String.append_assoc ..).symm
  · by_cases hreturns : Returns hash
    · exact .inr hreturns
    · exact .inl (congrArg Prod.fst (hpage.symm.trans (page_of_lost hreturns hfragment)))
  · by_cases hreturns : Returns hash
    · exact page_of_returns hreturns hfragment
    · exact (page_of_lost hreturns hfragment).trans
        (page_dashboard (hback.resolve_right hreturns)).symm
  · intro hreturns hview
    have hwork : ("my-work", AppView.myWork) ∈ topLevelViews := by decide
    have hroute := route_of_view hwork (by decide) hview
    rw [params_of_returns hreturns hfragment hwork hroute, routeFromHash, params_routeOf,
      ← myWorkSearch_splitHash]
    exact parseMyWorkQuery_present _
  · intro hreturns hview
    have hinbox : ("inbox", AppView.inbox) ∈ topLevelViews := by decide
    have hroute := route_of_view hinbox (by decide) hview
    rw [params_of_returns hreturns hfragment hinbox hroute, routeFromHash, params_routeOf]
    exact parseInboxQuery_inboxParams _

/-- A number in another base opens a card, and the dashboard after a sign-in. -/
example : (routeFromHash (units "#work-cards/0x10")).page = (.workCardDetail, some 16) ∧
    (routeFromHash (units (signInEnd (units "#work-cards/0x10") (.ok ())).hash)).page
      = (.dashboard, none) := by
  decide +kernel

end SignIn

end DevPortal
