import DevPortal.Adapters.Token

/-!
# Adapters/Graph — mail and calendar, page by page

    token ▸ page ▸ page ▸ … ▸ the last page, or a limit

The loop stops at the first page without a link, at a page that does not fit, or at a limit
(`fetchPages_ok`); only the first is a complete snapshot.
-/

namespace DevPortal

variable {ν υ : Type}

/-! ## Limits -/

def graphDefaultMaxPages : Nat := 20

def graphDefaultMaxItems : Nat := 1000

def graphMaxAllowedPages : Nat := 100

def graphMaxAllowedItems : Nat := 10000

/-- `graph_pagination_limits`. -/
def graphPaginationLimits (adapter : String) (maxPages maxItems : Option Nat) :
    Except String (Nat × Nat) :=
  let maxPages := maxPages.getD graphDefaultMaxPages
  let maxItems := maxItems.getD graphDefaultMaxItems
  if ¬ (1 ≤ maxPages ∧ maxPages ≤ graphMaxAllowedPages) then
    .error s!"{adapter} config max_pages must be an integer from 1 to {graphMaxAllowedPages}"
  else if ¬ (1 ≤ maxItems ∧ maxItems ≤ graphMaxAllowedItems) then
    .error s!"{adapter} config max_items must be an integer from 1 to {graphMaxAllowedItems}"
  else .ok (maxPages, maxItems)

theorem graphPaginationLimits_ok {adapter : String} {maxPages maxItems : Option Nat}
    {limits : Nat × Nat} (h : graphPaginationLimits adapter maxPages maxItems = .ok limits) :
    1 ≤ limits.1 ∧ limits.1 = maxPages.getD graphDefaultMaxPages
      ∧ limits.2 = maxItems.getD graphDefaultMaxItems := by
  unfold graphPaginationLimits at h
  dsimp only at h
  split at h
  · cases h
  next hp =>
  split at h
  · cases h
  obtain rfl := Except.ok.inj h
  rw [not_not] at hp
  exact ⟨hp.1, rfl, rfl⟩

/-! ## A page -/

/-- The loop of `graph_collection_items`. -/
def graphItemsIn (response : Json ν) (adapter : String) (pageNumber : Nat) :
    List String → Except String (List (Json ν))
  | [] => .error s!"{adapter} page {pageNumber} response must include an explicit collection array in value, items, events, or messages"
  | name :: names =>
    match response.get name with
    | some value =>
      match value.asArray with
      | some items => .ok items
      | none => .error s!"{adapter} page {pageNumber} response field {name} must be an array"
    | none => graphItemsIn response adapter pageNumber names

/-- `graph_collection_items`. -/
def graphCollectionItems (response : Json ν) (adapter : String) (pageNumber : Nat) :
    Except String (List (Json ν)) :=
  match response.asArray with
  | some items => .ok items
  | none => graphItemsIn response adapter pageNumber ["value", "items", "events", "messages"]

/-- The names of the link to the next page. -/
def nextLinkNames : List String := ["@odata.nextLink", "odata.nextLink", "nextLink"]

/-- `same_origin`. -/
def sameOrigin (web : Web υ) (left right : υ) : Bool :=
  web.scheme left == web.scheme right && web.host left == web.host right
    && web.port left == web.port right

/-- `url_origin`. -/
def urlOrigin (web : Web υ) (url : υ) : String :=
  let scheme := web.scheme url
  let host := (web.host url).getD "<missing-host>"
  match web.port url with
  | some port => s!"{scheme}://{host}:{port}"
  | none => s!"{scheme}://{host}"

/-- `canonical_url`. -/
def canonicalUrl (web : Web υ) (url : υ) : String := web.text (web.withoutFragment url)

/-- `graph_next_link`. -/
def graphNextLink (web : Web υ) (response : Json ν) (currentUrl initialUrl : υ)
    (adapter : String) : Except String (Option υ) :=
  match field response nextLinkNames with
  | none | some .null => .ok none
  | some (.str link) =>
    match Text.trimmed? link with
    | none => .error s!"{adapter} pagination nextLink must be a non-empty URL string"
    | some nextLink => do
      let nextUrl ← (web.join currentUrl nextLink).mapError fun error =>
        s!"{adapter} pagination nextLink is not a valid URL: {error}"
      let nextUrl := web.withoutFragment nextUrl
      if sameOrigin web initialUrl nextUrl then return some nextUrl
      else
        let origin := urlOrigin web nextUrl
        let initialOrigin := urlOrigin web initialUrl
        .error s!"{adapter} pagination nextLink origin {origin} does not match initial request origin {initialOrigin}"
  | some _ => .error s!"{adapter} pagination nextLink must be a non-empty URL string"

/-! ## The loop -/

/-- `GraphCollection`. -/
structure GraphCollection (ν : Type) where
  items : List (Json ν)
  snapshotComplete : Bool

/-- What the loop is about: the adapter, the URL it started at, and its limits. -/
structure PageLoop (υ : Type) where
  adapter : String
  initialUrl : υ
  maxPages : Nat
  maxItems : Nat

/-- The error of a loop. -/
def loopDetected (web : Web υ) (adapter : String) (url : υ) : String :=
  s!"{adapter} pagination loop detected at {web.text url}"

/-- The loop of `fetch_graph_collection`: `left` pages from the one it is at. -/
def fetchPages (web : Web υ) (l : PageLoop υ) :
    (left pageNumber : Nat) → υ → List String → List (Json ν) → Adapter ν (GraphCollection ν)
  | 0, _, _, _, items => pure ⟨items, false⟩
  | left + 1, pageNumber, currentUrl, visited, items => do
    if canonicalUrl web currentUrl ∈ visited then
      Client.ofExcept (.error (loopDetected web l.adapter currentUrl))
    else
      let visited := canonicalUrl web currentUrl :: visited
      let response ← send s!"{l.adapter} page {pageNumber}" (.get (web.text currentUrl))
      let pageItems ← Client.ofExcept (graphCollectionItems response l.adapter pageNumber)
      let remaining := l.maxItems - items.length
      let pageWasTruncated := remaining < pageItems.length
      let items := items ++ pageItems.take remaining
      let nextUrl ← Client.ofExcept
        (graphNextLink web response currentUrl l.initialUrl l.adapter)
      Client.ofExcept
        (match nextUrl with
          | some nextUrl =>
            if canonicalUrl web nextUrl ∈ visited then
              .error (loopDetected web l.adapter nextUrl)
            else .ok ()
          | none => .ok ())
      if pageWasTruncated then return ⟨items, false⟩
      else
        match nextUrl with
        | none => return ⟨items, true⟩
        | some nextUrl =>
          if l.maxItems ≤ items.length ∨ l.maxPages ≤ pageNumber then return ⟨items, false⟩
          else fetchPages web l left (pageNumber + 1) nextUrl visited items

/-- `fetch_graph_collection`. -/
def fetchGraphCollection (web : Web υ) (initialUrl adapter : String) (maxPages maxItems : Nat) :
    Adapter ν (GraphCollection ν) := do
  let initialUrl ← Client.ofExcept ((web.parse initialUrl).mapError fun error =>
    s!"{adapter} request URL is invalid: {error}")
  fetchPages web ⟨adapter, initialUrl, maxPages, maxItems⟩ maxPages 1 initialUrl [] []

/-! ## What the loop did -/

/-- The items a response holds do not depend on who reads them. -/
theorem graphCollectionItems_ok {response : Json ν} {adapter : String} {pageNumber : Nat}
    {items : List (Json ν)} (h : graphCollectionItems response adapter pageNumber = .ok items)
    (adapter' : String) (pageNumber' : Nat) :
    graphCollectionItems response adapter' pageNumber' = .ok items := by
  unfold graphCollectionItems at h ⊢
  split at h
  · exact h
  generalize ["value", "items", "events", "messages"] = names at h ⊢
  induction names with
  | nil => cases h
  | cons name names ih =>
    simp only [graphItemsIn] at h ⊢
    split at h
    · split at h
      · exact h
      · cases h
    · exact ih h

/-- The loop sees a link: the first name that is present holds something. -/
def seesLink (response : Json ν) : Bool := (field response nextLinkNames).any (!·.isNull)

/-- A page links to the next one, under any of the names. -/
def hasNextLink (response : Json ν) : Bool :=
  nextLinkNames.any fun name => (response.get name).any (!·.isNull)

theorem hasNextLink_of_seesLink {response : Json ν} (h : seesLink response) :
    hasNextLink response := by
  unfold seesLink field at h
  cases hf : nextLinkNames.findSome? response.get with
  | none => simp [hf] at h
  | some value =>
    obtain ⟨name, hmem, hvalue⟩ := List.exists_of_findSome?_eq_some hf
    rw [hf] at h
    exact List.any_eq_true.mpr ⟨name, hmem, by simpa [hvalue] using h⟩

/-- The page links on, and the loop does not see it. -/
def hidesLink (response : Json ν) : Bool := hasNextLink response && !seesLink response

/-- Where the loop sees no link, it finds none, and no fault. -/
theorem graphNextLink_of_not_seesLink {web : Web υ} {response : Json ν}
    {currentUrl initialUrl : υ} {adapter : String} (h : seesLink response = false) :
    graphNextLink web response currentUrl initialUrl adapter = .ok none := by
  unfold seesLink at h
  unfold graphNextLink
  cases hf : field response nextLinkNames with
  | none => rfl
  | some value =>
    rw [hf] at h
    cases value with
    | null => rfl
    | bool | number | str | array | object => cases h

theorem graphNextLink_ok {web : Web υ} {response : Json ν} {currentUrl initialUrl : υ}
    {adapter : String} {next : Option υ}
    (h : graphNextLink web response currentUrl initialUrl adapter = .ok next) :
    next.isSome = seesLink response := by
  unfold graphNextLink at h
  unfold seesLink
  split at h
  · next hf =>
    obtain rfl := Except.ok.inj h
    rw [hf]
    rfl
  · next hf =>
    obtain rfl := Except.ok.inj h
    rw [hf]
    rfl
  · next link hf =>
    rw [hf]
    split at h
    · cases h
    obtain ⟨nextUrl, -, h⟩ := Json.Walk.bind_eq_ok.mp h
    dsimp only at h
    split at h
    · obtain rfl := Except.ok.inj h
      rfl
    · cases h
  · cases h

/-- A page that was read: where, what came back, and its items. -/
structure GraphPage (ν : Type) where
  url : String
  response : Json ν
  items : List (Json ν)
  reads : ∀ adapter pageNumber, graphCollectionItems response adapter pageNumber = .ok items

/-- The exchange that read it. -/
def GraphPage.exchange (page : GraphPage ν) : Exchange ν := (.get page.url, .answer page.response)

/-- The items of pages, in their order. -/
def GraphPage.all (pages : List (GraphPage ν)) : List (Json ν) :=
  (pages.map GraphPage.items).flatten

/-- What the loop did from some items on: it read pages that link on, up to the last one; it kept
what fits; and it is complete iff it saw no link on the last page and everything fits. -/
structure ReadPages (maxItems : Nat) (items : List (Json ν)) (pages : List (GraphPage ν))
    (collection : GraphCollection ν) : Prop where
  linked : ∀ page ∈ pages.dropLast, seesLink page.response
  items_eq : collection.items = (items ++ GraphPage.all pages).take maxItems
  complete_iff : collection.snapshotComplete = true ↔
    (∃ page, pages.getLast? = some page ∧ seesLink page.response = false) ∧
      (items ++ GraphPage.all pages).length ≤ maxItems

/-- One page, and the loop stopped. -/
theorem ReadPages.single {maxItems : Nat} {items : List (Json ν)} (page : GraphPage ν)
    (hfits : items.length ≤ maxItems) {complete : Bool}
    (hcomplete : complete = true ↔
      seesLink page.response = false ∧ page.items.length ≤ maxItems - items.length) :
    ReadPages maxItems items [page]
      ⟨items ++ page.items.take (maxItems - items.length), complete⟩ where
  linked := by simp
  items_eq := by simp [GraphPage.all, List.take_append, List.take_of_length_le hfits]
  complete_iff := by
    simp only [hcomplete, GraphPage.all, List.getLast?_singleton, List.map_cons, List.map_nil,
      List.flatten_cons, List.flatten_nil, List.append_nil, List.length_append, Option.some.injEq,
      exists_eq_left']
    exact and_congr_right fun _ => by omega

/-- A page that links on, and the loop went on behind it. -/
theorem ReadPages.cons {maxItems : Nat} {items : List (Json ν)} (page : GraphPage ν)
    {pages : List (GraphPage ν)} {collection : GraphCollection ν} (hne : pages ≠ [])
    (hlink : seesLink page.response)
    (h : ReadPages maxItems (items ++ page.items) pages collection) :
    ReadPages maxItems items (page :: pages) collection where
  linked := by
    obtain ⟨first, rest, rfl⟩ := List.exists_cons_of_ne_nil hne
    intro p hp
    rw [List.dropLast_cons_cons] at hp
    rcases List.mem_cons.mp hp with rfl | hp
    · exact hlink
    · exact h.linked p hp
  items_eq := by
    rw [h.items_eq]
    simp [GraphPage.all]
  complete_iff := by
    obtain ⟨first, rest, rfl⟩ := List.exists_cons_of_ne_nil hne
    rw [h.complete_iff, List.getLast?_cons_cons]
    simp [GraphPage.all]

/-- **What a loop that returned did.**  The induction is on the pages that are left; a loop that
goes on has not reached its last page. -/
theorem fetchPages_ok {web : Web υ} {l : PageLoop υ} {left pageNumber : Nat} {currentUrl : υ}
    {visited : List String} {items : List (Json ν)} {server : Server Request (Reply ν)}
    {log log' : List (Exchange ν)} {collection : GraphCollection ν}
    (hleft : pageNumber + left = l.maxPages + 1) (hpos : 0 < left)
    (hfits : items.length ≤ l.maxItems)
    (h : fetchPages web l left pageNumber currentUrl visited items server log
      = (.ok collection, log')) :
    ∃ pages, pages ≠ [] ∧ log' = log ++ pages.map GraphPage.exchange ∧
      ReadPages l.maxItems items pages collection := by
  induction left generalizing pageNumber currentUrl visited items log with
  | zero => omega
  | succ left ih =>
    unfold fetchPages at h
    split at h
    · cases (Client.ofExcept_ok.mp h).1
    obtain ⟨response, mid, hsend, h⟩ := Client.bind_ok.mp h
    obtain rfl := send_ok hsend
    obtain ⟨pageItems, hitems, h⟩ := Client.ofExcept_bind_ok.mp h
    obtain ⟨nextUrl, hnext, h⟩ := Client.ofExcept_bind_ok.mp h
    obtain ⟨_, -, h⟩ := Client.ofExcept_bind_ok.mp h
    have hlink := graphNextLink_ok hnext
    let page : GraphPage ν :=
      ⟨web.text currentUrl, response, pageItems, fun a n => graphCollectionItems_ok hitems a n⟩
    have hone : ∀ {complete : Bool},
        (complete = true ↔
          seesLink response = false ∧ pageItems.length ≤ l.maxItems - items.length) →
        ∃ pages, pages ≠ [] ∧ log ++ [(.get (web.text currentUrl), .answer response)]
          = log ++ pages.map GraphPage.exchange ∧ ReadPages l.maxItems items pages
            ⟨items ++ pageItems.take (l.maxItems - items.length), complete⟩ :=
      fun hcomplete => ⟨[page], by simp, rfl, ReadPages.single page hfits hcomplete⟩
    split at h
    · next htrunc =>
      obtain ⟨rfl, rfl⟩ := Client.pure_ok.mp h
      exact hone (by simpa using fun _ => htrunc)
    next htrunc =>
    have hroom : pageItems.length ≤ l.maxItems - items.length := by simpa using htrunc
    cases nextUrl with
    | none =>
      obtain ⟨rfl, rfl⟩ := Client.pure_ok.mp h
      exact hone (by simpa [hroom] using hlink.symm)
    | some nextUrl =>
      have hlink : seesLink response = true := hlink.symm
      dsimp only at h
      split at h
      · obtain ⟨rfl, rfl⟩ := Client.pure_ok.mp h
        exact hone (by simp [hlink])
      next hgo =>
      rw [List.take_of_length_le hroom] at h hgo
      rw [List.length_append] at hgo
      have hfits' : (items ++ pageItems).length ≤ l.maxItems := by
        rw [List.length_append]
        omega
      obtain ⟨pages, hne, hlog, hread⟩ := ih (by omega) (by omega) hfits' h
      refine ⟨page :: pages, by simp, ?_, hread.cons page hne hlink⟩
      rw [hlog, List.append_assoc]
      rfl

/-! ## Mail -/

/-- `MicrosoftGraphMailConfig`. -/
structure MicrosoftGraphMailConfig where
  adapter : Option String := none
  messagesUrl : Option String := none
  mailMessagesUrl : Option String := none
  baseUrl : Option String := none
  userId : Option String := none
  mailFolderId : Option String := none
  folderId : Option String := none
  folder : Option String := none
  receivedAfter : Option String := none
  lookbackHours : Option Int := none
  unreadOnly : Option Bool := none
  filter : Option String := none
  orderby : Option String := none
  top : Option Nat := none
  maxPages : Option Nat := none
  maxItems : Option Nat := none
  timeoutSeconds : Option Nat := none

/-- The page size an adapter asks for. -/
def graphTop (top : Option Nat) : Nat := max 1 (min (top.getD 25) 50)

/-- The mailbox or calendar of a user, under the base URL. -/
def graphUserRoot (baseUrl userId : Option String) : String :=
  let baseUrl := Text.trimEndMatches (baseUrl.getD "https://graph.microsoft.com/v1.0") '/'
  let userId := (userId.bind Text.trimmed?).getD "me"
  if userId.toLower = "me" then s!"{baseUrl}/me"
  else s!"{baseUrl}/users/{encodeUrlComponent userId}"

/-- `microsoft_graph_mail_messages_url`. -/
def microsoftGraphMailMessagesUrl (config : MicrosoftGraphMailConfig) : String :=
  match (config.messagesUrl <|> config.mailMessagesUrl).bind Text.trimmed? with
  | some url => url
  | none =>
    let mailboxRoot := graphUserRoot config.baseUrl config.userId
    match (config.mailFolderId <|> config.folderId <|> config.folder).bind Text.trimmed? with
    | some folder => s!"{mailboxRoot}/mailFolders/{encodeUrlComponent folder}/messages"
    | none => s!"{mailboxRoot}/messages"

/-- The filter of `graph_mail_query_params`. -/
def graphMailFilter (clock : AdapterClock) (config : MicrosoftGraphMailConfig) : String :=
  (config.filter.bind Text.trimmed?).getD
    (let receivedAfter := (config.receivedAfter.bind Text.trimmed?).getD
      (clock.hoursAgo (clampHours (config.lookbackHours.getD 24) 720))
    " and ".intercalate (s!"receivedDateTime ge {receivedAfter}" ::
      if config.unreadOnly.getD true then ["isRead eq false"] else []))

/-- `graph_mail_query_params`. -/
def graphMailQueryParams (clock : AdapterClock) (config : MicrosoftGraphMailConfig) :
    List (String × String) :=
  let filter := graphMailFilter clock config
  [("$select", "id,subject,bodyPreview,importance,isRead,webLink,from,sender,receivedDateTime,internetMessageId,flag"),
    ("$top", toString (graphTop config.top)),
    ("$orderby", (config.orderby.bind Text.trimmed?).getD "receivedDateTime desc")] ++
    if filter.isEmpty then [] else [("$filter", filter)]

/-! ## Calendar -/

/-- `MicrosoftGraphCalendarConfig`. -/
structure MicrosoftGraphCalendarConfig where
  adapter : Option String := none
  calendarViewUrl : Option String := none
  baseUrl : Option String := none
  userId : Option String := none
  startAt : Option String := none
  endAt : Option String := none
  lookaheadHours : Option Int := none
  top : Option Nat := none
  maxPages : Option Nat := none
  maxItems : Option Nat := none
  timeoutSeconds : Option Nat := none

/-- `microsoft_graph_calendar_view_url`. -/
def microsoftGraphCalendarViewUrl (config : MicrosoftGraphCalendarConfig) : String :=
  match config.calendarViewUrl.bind Text.trimmed? with
  | some url => url
  | none =>
    let userRoot := graphUserRoot config.baseUrl config.userId
    s!"{userRoot}/calendarView"

/-- `graph_calendar_time_window`. -/
def graphCalendarTimeWindow (clock : AdapterClock) (config : MicrosoftGraphCalendarConfig) :
    String × String :=
  let startAt := (config.startAt.bind Text.trimmed?).getD clock.now
  let endAt := (config.endAt.bind Text.trimmed?).getD
    (clock.hoursAfter startAt (clampHours (config.lookaheadHours.getD 24) 168))
  (startAt, endAt)

/-- The parameters of a calendar request. -/
def graphCalendarQueryParams (clock : AdapterClock) (config : MicrosoftGraphCalendarConfig) :
    List (String × String) :=
  let (startAt, endAt) := graphCalendarTimeWindow clock config
  [("startDateTime", startAt), ("endDateTime", endAt),
    ("$select", "id,subject,bodyPreview,importance,isAllDay,isCancelled,showAs,webLink,organizer,location,start,end,originalStartTimeZone,originalEndTimeZone,onlineMeetingUrl,onlineMeeting"),
    ("$orderby", "start/dateTime"), ("$top", toString (graphTop config.top))]

/-! ## Fetching -/

/-- What the two adapters differ in. -/
structure GraphRequest where
  names : List String
  adapterName : String
  urlField : String
  url : String
  params : List (String × String)
  scope : String
  maxPages : Option Nat
  maxItems : Option Nat
  timeoutSeconds : Option Nat

/-- The mail request. -/
def MicrosoftGraphMailConfig.request (clock : AdapterClock) (config : MicrosoftGraphMailConfig) :
    GraphRequest where
  names := ["microsoft_graph_mail", "graph_mail", "outlook_mail"]
  adapterName := "microsoft_graph_mail"
  urlField := "messages_url"
  url := microsoftGraphMailMessagesUrl config
  params := graphMailQueryParams clock config
  scope := "https://graph.microsoft.com/Mail.Read offline_access"
  maxPages := config.maxPages
  maxItems := config.maxItems
  timeoutSeconds := config.timeoutSeconds

/-- The calendar request. -/
def MicrosoftGraphCalendarConfig.request (clock : AdapterClock)
    (config : MicrosoftGraphCalendarConfig) : GraphRequest where
  names := ["microsoft_graph_calendar", "graph_calendar", "outlook_calendar"]
  adapterName := "microsoft_graph_calendar"
  urlField := "calendar_view_url"
  url := microsoftGraphCalendarViewUrl config
  params := graphCalendarQueryParams clock config
  scope := "https://graph.microsoft.com/Calendars.Read offline_access"
  maxPages := config.maxPages
  maxItems := config.maxItems
  timeoutSeconds := config.timeoutSeconds

/-- The body that `fetch_microsoft_graph_mail_messages` and `fetch_microsoft_graph_calendar_events`
share, once both readings of the config are there. -/
def fetchGraph (web : Web υ) (env : TokenEnv ν) (normalize : Json ν → Json ν)
    (adapter : Option String) (request : GraphRequest) (configValue : Json ν) :
    Adapter ν (ConnectorAdapterResult ν) := do
  let name := request.adapterName
  if adapter.all (· ∉ request.names) then
    Client.ofExcept (.error s!"{name} config must set adapter to {name}")
  else
    Client.ofExcept (requireUrl request.urlField request.url)
    let (maxPages, maxItems) ← Client.ofExcept
      (graphPaginationLimits name request.maxPages request.maxItems)
    let requestUrl := appendQueryParams request.url request.params
    Client.ofExcept (buildClient web name request.timeoutSeconds)
    let accessToken ← graphAccessToken env ⟨name, request.scope⟩ configValue
    let collection ← fetchGraphCollection web requestUrl name maxPages maxItems
    return ⟨some ⟨collection.items.map normalize, some collection.snapshotComplete⟩,
      accessToken.updatedConfig⟩

/-- **What a fetch did**: perhaps a refresh, and then pages under the limits. -/
theorem fetchGraph_ok {web : Web υ} {env : TokenEnv ν} {normalize : Json ν → Json ν}
    {adapter : Option String} {request : GraphRequest} {configValue : Json ν}
    {server : Server Request (Reply ν)} {log log' : List (Exchange ν)}
    {result : ConnectorAdapterResult ν}
    (h : fetchGraph web env normalize adapter request configValue server log
      = (.ok result, log')) :
    ∃ (tokens : List (Exchange ν)) (pages : List (GraphPage ν)) (collection : GraphCollection ν),
      (∀ x ∈ tokens, ∃ url form, x.1 = .refresh url form) ∧
      log' = log ++ (tokens ++ pages.map GraphPage.exchange) ∧
      ReadPages (request.maxItems.getD graphDefaultMaxItems) [] pages collection ∧ pages ≠ [] ∧
      result.payload = some
        ⟨collection.items.map normalize, some collection.snapshotComplete⟩ := by
  unfold fetchGraph at h
  split at h
  · cases (Client.ofExcept_ok.mp h).1
  obtain ⟨_, -, h⟩ := Client.ofExcept_bind_ok.mp h
  obtain ⟨⟨maxPages, maxItems⟩, hlimits, h⟩ := Client.ofExcept_bind_ok.mp h
  obtain ⟨_, -, h⟩ := Client.ofExcept_bind_ok.mp h
  obtain ⟨token, mid, htoken, h⟩ := Client.bind_ok.mp h
  obtain ⟨collection, mid', hcollection, h⟩ := Client.bind_ok.mp h
  obtain ⟨rfl, rfl⟩ := Client.pure_ok.mp h
  obtain ⟨initialUrl, -, hpages⟩ := Client.ofExcept_bind_ok.mp hcollection
  obtain ⟨hpos, -, rfl⟩ := graphPaginationLimits_ok hlimits
  obtain ⟨pages, hne, rfl, hread⟩ := fetchPages_ok
    (l := ⟨request.adapterName, initialUrl, maxPages, _⟩) (Nat.add_comm ..) hpos (Nat.zero_le _)
    hpages
  rcases graphAccessToken_ok htoken with ⟨rfl, -⟩ | ⟨url, form, value, _, rfl, -⟩
  · exact ⟨[], pages, collection, by simp, by simp, hread, hne, rfl⟩
  · exact ⟨[(.refresh url form, .answer value)], pages, collection, by simp,
      List.append_assoc .., hread, hne, rfl⟩

/-- A config that is handed back comes from a refresh. -/
theorem fetchGraph_updated {web : Web υ} {env : TokenEnv ν} {normalize : Json ν → Json ν}
    {adapter : Option String} {request : GraphRequest} {configValue : Json ν}
    {server : Server Request (Reply ν)} {log log' : List (Exchange ν)}
    {result : ConnectorAdapterResult ν} {text : String}
    (h : fetchGraph web env normalize adapter request configValue server log = (.ok result, log'))
    (hupdated : result.updatedConfig = some text) :
    ∃ response token, applyRefresh env configValue request.adapterName response
      = .ok ⟨token, some text⟩ := by
  unfold fetchGraph at h
  split at h
  · cases (Client.ofExcept_ok.mp h).1
  obtain ⟨_, -, h⟩ := Client.ofExcept_bind_ok.mp h
  obtain ⟨_, -, h⟩ := Client.ofExcept_bind_ok.mp h
  obtain ⟨_, -, h⟩ := Client.ofExcept_bind_ok.mp h
  obtain ⟨⟨token, updatedConfig⟩, mid, htoken, h⟩ := Client.bind_ok.mp h
  obtain ⟨collection, mid', -, h⟩ := Client.bind_ok.mp h
  obtain ⟨rfl, rfl⟩ := Client.pure_ok.mp h
  obtain rfl : updatedConfig = some text := hupdated
  rcases graphAccessToken_ok htoken with ⟨-, hnone⟩ | ⟨_, _, _, response, -, -, happly⟩
  · cases hnone
  · exact ⟨response, token, happly⟩

/-- Both readings of a config, under errors that name the adapter. -/
def readGraphConfig {γ : Type} (name : String) (value : Except String (Crypto.Value ν))
    (config : Except String γ) : Except String (Json ν × γ) := do
  let value ← value.mapError fun error => s!"{name} config is not valid JSON: {error}"
  let config ← config.mapError fun error => s!"{name} config is not valid JSON: {error}"
  return (value.1, config)

/-- `fetch_microsoft_graph_mail_messages`. -/
def fetchMicrosoftGraphMailMessages (web : Web υ) (env : TokenEnv ν) (normalize : Json ν → Json ν)
    (value : Except String (Crypto.Value ν)) (read : Except String MicrosoftGraphMailConfig) :
    Adapter ν (ConnectorAdapterResult ν) := do
  let (configValue, config) ← Client.ofExcept (readGraphConfig "microsoft_graph_mail" value read)
  fetchGraph web env normalize config.adapter (config.request env.clock) configValue

/-- `fetch_microsoft_graph_calendar_events`. -/
def fetchMicrosoftGraphCalendarEvents (web : Web υ) (env : TokenEnv ν)
    (normalize : Json ν → Json ν) (value : Except String (Crypto.Value ν))
    (read : Except String MicrosoftGraphCalendarConfig) :
    Adapter ν (ConnectorAdapterResult ν) := do
  let (configValue, config) ←
    Client.ofExcept (readGraphConfig "microsoft_graph_calendar" value read)
  fetchGraph web env normalize config.adapter (config.request env.clock) configValue

end DevPortal
