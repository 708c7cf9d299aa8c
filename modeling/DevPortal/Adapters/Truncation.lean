import DevPortal.Adapters.Fetch

/-!
# Adapters/Truncation — a complete snapshot, and what can have cut it

    what the source holds ──limits, pages──▸ the replies ──adapter──▸ the payload

`MayHold` says what a source may hold behind the replies it gave: an ERP or WIQL server cuts at a
limit it reads off the URL without saying so, a Graph server links every page to the next one.  A
payload that is declared complete should carry all of it (`Carries`).  It does unless an ERP config
declares a response complete that fills its limit, or a Graph page hides its link behind a `null`
under another name (`HiddenCut`).
-/

namespace DevPortal

variable {ν υ : Type}

/-! ## What a source may hold -/

/-- The adapters that ask a source which may cut its answer. -/
inductive SourceKind
  | azureDevOps
  | calendar
  | mail
  | erp
  deriving DecidableEq

/-- The kind of an adapter, in the order they are told apart. -/
def sourceKind (adapter : String) : Option SourceKind :=
  if adapter = "azure_devops" then some .azureDevOps
  else if adapter = "monitoring" then none
  else if adapter ∈ graphCalendarNames then some .calendar
  else if adapter ∈ graphMailNames then some .mail
  else if adapter ∈ erpAdapterNames then some .erp
  else none

/-- The pages of a collection that was read, each with whether it links on. -/
def graphPages (log : List (Exchange ν)) : List (List (Json ν) × Bool) :=
  log.filterMap fun
    | (.get _, .answer response) =>
      (graphCollectionItems response "" 0).toOption.map fun items => (items, hasNextLink response)
    | _ => none

/-- The source may hold `full`, given the exchanges. -/
def MayHold : SourceKind → List (Exchange ν) → List (Json ν) → Prop
  | .erp, log, full => ∃ url response answer, log = [(.get url, .answer response)] ∧
      erpMessageItems response = .ok answer ∧ Honours (limits erpLimitNames url) full answer
  | .mail, log, full | .calendar, log, full => Paged (graphPages log) full
  | .azureDevOps, log, full => ∃ url query response rows,
      log.head? = some (.wiql url query, .answer response) ∧
      responseArray response "workItems" "azure_devops WIQL" = .ok rows ∧
      Honours (limits wiqlLimitNames url) full rows

/-- The items of a payload are those of everything the source holds: one for each item, and for
rows one for each distinct id. -/
def Carries (env : AdapterEnv ν υ) (configJson : String) :
    SourceKind → List (Json ν) → List (Json ν) → Prop
  | .erp, full, items => items = full.map env.normalize.erpMessage
  | .mail, full, items => items = full.map env.normalize.mailMessage
  | .calendar, full, items => items = full.map env.normalize.calendarEvent
  | .azureDevOps, full, items =>
    ∃ (config : AzureDevOpsConfig) (ids : List Int) (entries : List (Json ν)),
      env.serde.azureDevOps configJson = .ok config ∧
      full.map (itemId env.numbers) = ids.map some ∧
      entries.map (itemId env.numbers) = (firsts [] ids).map some ∧
      items = entries.map (env.normalize.workItem config)

/-! ## What the adapters do not see -/

/-- The last page hides its link, and all items that were read are kept. -/
def HidesLink (log : List (Exchange ν)) (maxItems : Option Nat) : Prop :=
  (∃ url response, log.getLast? = some (.get url, .answer response) ∧ hidesLink response) ∧
    (pageItems (graphPages log)).length ≤ maxItems.getD graphDefaultMaxItems

/-- The ways a cut stays unseen. -/
def HiddenCut (env : AdapterEnv ν υ) (configJson : String) :
    SourceKind → List (Exchange ν) → Prop
  | .erp, log => ∃ config url response answer, env.serde.erp configJson = .ok config ∧
      config.snapshotComplete = some true ∧ log = [(.get url, .answer response)] ∧
      erpMessageItems response = .ok answer ∧ answer.length ∈ limits erpLimitNames url
  | .mail, log => ∃ config, env.serde.mail configJson = .ok config ∧ HidesLink log config.maxItems
  | .calendar, log =>
      ∃ config, env.serde.calendar configJson = .ok config ∧ HidesLink log config.maxItems
  | .azureDevOps, _ => False

/-- A payload that is declared complete carries all that the source may hold. -/
def Honest (env : AdapterEnv ν υ) (configJson : String) (kind : SourceKind)
    (log : List (Exchange ν)) (payload : Payload ν) : Prop :=
  payload.snapshotComplete = some true →
    ∀ full, MayHold kind log full → Carries env configJson kind full payload.items

/-! ## Adapter by adapter -/

section Erp

variable {env : AdapterEnv ν υ} {configJson : String} {server : Server Request (Reply ν)}
  {log : List (Exchange ν)} {payload : Payload ν}

theorem honest_erp_iff
    (h : fetchErpPrivateMessages env.web env.clock env.normalize.erpMessage
      (env.serde.erp configJson) server [] = (.ok payload, log)) :
    Honest env configJson .erp log payload ↔ ¬ HiddenCut env configJson .erp log := by
  obtain ⟨config, url, response, answer, hread, -, rfl, hanswer, rfl⟩ :=
    fetchErpPrivateMessages_ok h
  constructor
  · rintro hhonest ⟨config', url', response', answer', hread', hdeclared, hlog, hanswer', hfills⟩
    obtain rfl := Except.ok.inj (hread.symm.trans hread')
    obtain ⟨rfl, rfl⟩ : url = url' ∧ response = response' := by simpa using hlog
    obtain rfl := Except.ok.inj (hanswer.symm.trans hanswer')
    have : Nonempty (Json ν) := ⟨.null⟩
    obtain ⟨full, hhonours, hlt⟩ := exists_honours_lt.mpr hfills
    have hcarries : answer.map env.normalize.erpMessage = full.map env.normalize.erpMessage :=
      hhonest (by simp [hdeclared]) full ⟨url, response, answer, rfl, hanswer, hhonours⟩
    have hlen := congrArg List.length hcarries
    simp only [List.length_map] at hlen
    omega
  · rintro hfills hdeclared full ⟨url', response', answer', hlog, hanswer', hhonours⟩
    obtain ⟨rfl, rfl⟩ : url = url' ∧ response = response' := by simpa using hlog
    obtain rfl := Except.ok.inj (hanswer.symm.trans hanswer')
    have hdeclared : config.snapshotComplete = some true := by
      rcases hc : config.snapshotComplete with _ | _ | _ <;> simp [hc] at hdeclared ⊢
    by_contra hne
    refine hfills ⟨config, url, response, answer, hread, hdeclared, rfl, hanswer, ?_⟩
    exact (hhonours.length_mem fun heq => hne (heq ▸ rfl)).1

end Erp

section Graph

theorem graphPages_append (log log' : List (Exchange ν)) :
    graphPages (log ++ log') = graphPages log ++ graphPages log' := List.filterMap_append

theorem graphPages_tokens {tokens : List (Exchange ν)}
    (h : ∀ x ∈ tokens, ∃ url form, x.1 = .refresh url form) : graphPages tokens = [] := by
  refine List.filterMap_eq_nil_iff.mpr fun x hx => ?_
  obtain ⟨url, form, hx⟩ := h x hx
  obtain ⟨request, reply⟩ := x
  obtain rfl : request = .refresh url form := hx
  rfl

theorem graphPages_pages (pages : List (GraphPage ν)) :
    graphPages (pages.map GraphPage.exchange) =
      pages.map fun page => (page.items, hasNextLink page.response) := by
  induction pages with
  | nil => rfl
  | cons page pages ih =>
    have hpage : graphPages [page.exchange] = [(page.items, hasNextLink page.response)] := by
      simp [graphPages, GraphPage.exchange, page.reads, Except.toOption]
    rw [List.map_cons, ← List.singleton_append, graphPages_append, ih, hpage]
    rfl

theorem pageItems_graphPages (pages : List (GraphPage ν)) :
    pageItems (pages.map fun page => (page.items, hasNextLink page.response)) =
      GraphPage.all pages := by
  simp [pageItems, GraphPage.all, Function.comp_def]

/-- The honesty of a collection that was read page by page. -/
theorem honest_pages_iff (normalize : Json ν → Json ν) {tokens log : List (Exchange ν)}
    {pages : List (GraphPage ν)} {collection : GraphCollection ν} {maxItems : Option Nat}
    (htokens : ∀ x ∈ tokens, ∃ url form, x.1 = .refresh url form)
    (hlog : log = tokens ++ pages.map GraphPage.exchange) (hne : pages ≠ [])
    (hread : ReadPages (maxItems.getD graphDefaultMaxItems) [] pages collection) :
    (collection.snapshotComplete = true → ∀ full, Paged (graphPages log) full →
      collection.items.map normalize = full.map normalize) ↔ ¬ HidesLink log maxItems := by
  obtain ⟨before, last, rfl⟩ : ∃ before last, pages = before ++ [last] :=
    ⟨_, _, (List.dropLast_append_getLast hne).symm⟩
  have hpages : graphPages log =
      (before ++ [last]).map fun page => (page.items, hasNextLink page.response) := by
    rw [hlog, graphPages_append, graphPages_tokens htokens, graphPages_pages, List.nil_append]
  have hlast : log.getLast? = some (.get last.url, .answer last.response) := by
    rw [hlog, List.map_append, ← List.append_assoc]
    exact List.getLast?_concat
  have hlinked : ∀ page ∈ before, hasNextLink page.response := fun page hpage =>
    hasNextLink_of_seesLink (hread.linked page (by simpa using hpage))
  have hcomplete := hread.complete_iff
  have hitems := hread.items_eq
  simp only [List.nil_append, List.getLast?_concat, Option.some.injEq, exists_eq_left']
    at hcomplete hitems
  have hhides : HidesLink log maxItems ↔ hasNextLink last.response = true ∧
      collection.snapshotComplete = true := by
    unfold HidesLink
    rw [hpages, pageItems_graphPages, hlast, hcomplete]
    constructor
    · rintro ⟨⟨url, response, heq, hhides⟩, hfits⟩
      obtain ⟨-, rfl⟩ : last.url = url ∧ last.response = response := by simpa using heq
      obtain ⟨hlink, hsees⟩ := Bool.and_eq_true_iff.mp hhides
      exact ⟨hlink, by simpa using hsees, hfits⟩
    · rintro ⟨hlink, hsees, hfits⟩
      exact ⟨⟨_, _, rfl, by simp [hidesLink, hlink, hsees]⟩, hfits⟩
  rw [hhides]
  constructor
  · rintro hhonest ⟨hlink, hc⟩
    rw [List.take_of_length_le (hcomplete.mp hc).2] at hitems
    have hall : ∀ page ∈ graphPages log, page.2 = true := by
      intro page hpage
      rw [hpages] at hpage
      obtain ⟨p, hp, rfl⟩ := List.mem_map.mp hpage
      rcases List.mem_append.mp hp with hp | hp
      · exact hlinked p hp
      · rwa [List.mem_singleton.mp hp]
    have hlen := congrArg List.length (hhonest hc _ (paged_append hall [.null]))
    rw [hpages, pageItems_graphPages, hitems] at hlen
    simp at hlen
  · intro hno hc full hfull
    have hlink : hasNextLink last.response = false := by
      rw [← Bool.not_eq_true]
      exact fun hlink => hno ⟨hlink, hc⟩
    have hshape : graphPages log = (before.map fun page =>
        (page.items, hasNextLink page.response)) ++ [(last.items, false)] := by
      rw [hpages, List.map_append, ← hlink]
      rfl
    have hfull : full = pageItems (graphPages log) := by
      rw [hshape] at hfull ⊢
      exact hfull.eq_flatten
    rw [hpages, pageItems_graphPages] at hfull
    rw [hitems, List.take_of_length_le (hcomplete.mp hc).2, hfull]

/-- The honesty of a Graph adapter, for any config it reads. -/
theorem honest_graph_iff {γ : Type} {web : Web υ} {env : TokenEnv ν} {normalize : Json ν → Json ν}
    {name : String} {value : Except String (Crypto.Value ν)} {read : Except String γ}
    {adapter : γ → Option String} {request : γ → GraphRequest}
    {server : Server Request (Reply ν)} {log : List (Exchange ν)} {payload : Payload ν}
    {updated : Option String}
    (h : (do
        let (configValue, config) ← Client.ofExcept (readGraphConfig name value read)
        fetchGraph web env normalize (adapter config) (request config) configValue) server []
      = (.ok ⟨some payload, updated⟩, log)) :
    (payload.snapshotComplete = some true → ∀ full, Paged (graphPages log) full →
      payload.items = full.map normalize) ↔
      ¬ ∃ config, read = .ok config ∧ HidesLink log (request config).maxItems := by
  obtain ⟨⟨configValue, config⟩, hread, h⟩ := Client.ofExcept_bind_ok.mp h
  obtain ⟨_, -, hread⟩ := Json.Walk.bind_eq_ok.mp hread
  obtain ⟨config', hconfig, hread⟩ := Json.Walk.bind_eq_ok.mp hread
  obtain ⟨-, rfl⟩ := Prod.mk.inj (Except.ok.inj hread)
  have hconfig := mapError_eq_ok.mp hconfig
  obtain ⟨tokens, pages, collection, htokens, hlog, hpages, hne, hpayload⟩ := fetchGraph_ok h
  obtain rfl := Option.some.inj hpayload
  have hiff : (∃ config, read = .ok config ∧ HidesLink log (request config).maxItems) ↔
      HidesLink log (request config').maxItems := by
    constructor
    · rintro ⟨config, hread, hhides⟩
      rwa [Except.ok.inj (hconfig.symm.trans hread)]
    · exact fun hhides => ⟨config', hconfig, hhides⟩
  rw [hiff, ← honest_pages_iff normalize htokens hlog hne hpages, Option.some.injEq]

end Graph

section AzureDevOps

theorem honest_azureDevOps {env : AdapterEnv ν υ} {configJson : String}
    {server : Server Request (Reply ν)} {log : List (Exchange ν)} {payload : Payload ν}
    (hweb : env.web.Writes)
    (h : fetchAzureDevOpsWorkCards env.web env.numbers env.normalize.workItem
      (env.serde.azureDevOps configJson) server [] = (.ok payload, log)) :
    Honest env configJson .azureDevOps log payload := by
  obtain ⟨config, maxItems, configured, url, query, response, rows, exchanges, items, hread, hurl,
    rfl, hrows, hids, hitems, rfl⟩ := fetchAzureDevOpsWorkCards_ok h
  rintro hcomplete full ⟨url', query', response', rows', hlog, hrows', hhonours⟩
  obtain ⟨⟨rfl, rfl⟩, rfl⟩ : (url = url' ∧ query = query') ∧ response = response' := by
    simpa using hlog
  obtain rfl := Except.ok.inj (hrows.symm.trans hrows')
  have hlt : rows.length < maxItems := by simpa using hcomplete
  -- the only limit is the one that was not reached
  have hfull : rows.map Prod.snd = full := by
    by_contra hne
    have hmem := (hhonours.length_mem hne).1
    rw [limits_wiqlUrlWithMaxItems hweb hurl, List.length_map, List.mem_singleton] at hmem
    omega
  refine ⟨config, rows.map Prod.fst, items, hread, ?_, ?_, rfl⟩
  · rw [← hfull, List.map_map, List.map_map]
    exact List.map_congr_left hids
  · have hlen := length_firsts_le [] (rows.map Prod.fst)
    rw [List.length_map] at hlen
    rwa [List.take_of_length_le (by omega)] at hitems

end AzureDevOps

/-! ## The adapter of a config -/

/-- **A truncated fetch is declared complete exactly when the cut is hidden**: by an ERP config that
declares a response complete which fills a limit of its URL, or by a Graph page whose link stands
behind a `null` under another name. -/
theorem honest_iff_not_hiddenCut {env : AdapterEnv ν υ} {target configJson adapter : String}
    {kind : SourceKind} {server : Server Request (Reply ν)} {log : List (Exchange ν)}
    {payload : Payload ν} {updated : Option String} (hweb : env.web.Writes)
    (hadapter : env.serde.adapter configJson = .ok (some adapter))
    (hkind : sourceKind adapter = some kind)
    (h : fetchConnectorPayload env target configJson server [] =
      (.ok ⟨some payload, updated⟩, log)) :
    Honest env configJson kind log payload ↔ ¬ HiddenCut env configJson kind log := by
  obtain ⟨adapter', hread, h⟩ := Client.ofExcept_bind_ok.mp h
  obtain rfl := Except.ok.inj (hadapter.symm.trans (mapError_eq_ok.mp hread))
  unfold sourceKind at hkind
  dsimp only at h
  split at hkind
  · next ha =>
    obtain rfl := Option.some.inj hkind
    rw [if_pos ha] at h
    exact iff_of_true (honest_azureDevOps hweb (adapterPayload_ok (serving_ok h))) id
  next ha =>
  rw [if_neg ha] at h
  split at hkind
  · cases hkind
  next hm =>
  rw [if_neg hm] at h
  split at hkind
  · next hc =>
    obtain rfl := Option.some.inj hkind
    rw [if_pos hc] at h
    exact honest_graph_iff (serving_ok h)
  next hc =>
  rw [if_neg hc] at h
  split at hkind
  · next hmail =>
    obtain rfl := Option.some.inj hkind
    rw [if_pos hmail] at h
    exact honest_graph_iff (serving_ok h)
  next hmail =>
  rw [if_neg hmail] at h
  split at hkind
  · next herp =>
    obtain rfl := Option.some.inj hkind
    rw [if_pos herp] at h
    exact honest_erp_iff (adapterPayload_ok (serving_ok h))
  · cases hkind

/-! ## An ERP system with two messages and a limit of one -/

namespace Sample

/-- URLs as texts: pairs are written behind what stands before the query. -/
def web : Web String where
  build := fun _ => .ok ()
  headerName := fun _ => true
  parse := .ok
  join := fun _ link => .ok link
  withoutFragment := id
  text := id
  scheme := fun _ => "http"
  host := fun _ => none
  port := fun _ => none
  queryPairs := fun _ => []
  withQueryPairs := fun ps url => String.ofList
    (url.toList.takeWhile (fun c => c != '#' && c != '?') ++ '?' :: Query.written ps)

theorem web_writes : web.Writes := by
  intro ps url
  have hfree : ∀ c ∈ url.toList.takeWhile (fun c => c != '#' && c != '?'),
      (c != '#' && c != '?') = true := fun c hc =>
    List.mem_takeWhile_imp (p := fun c => c != '#' && c != '?') hc
  have hfrag : '#' ∉ url.toList.takeWhile (fun c => c != '#' && c != '?') := fun h =>
    absurd (hfree _ h) (by decide)
  have hquery : '?' ∉ url.toList.takeWhile (fun c => c != '#' && c != '?') := fun h =>
    absurd (hfree _ h) (by decide)
  have hread := Query.pairs_append_question hfrag ps hquery
  simpa [web] using hread

/-- An ERP config that asks for one message and declares the answer complete. -/
def erpConfig : ErpPrivateMessagesConfig where
  adapter := some "erp_private_messages"
  messagesUrl := some "http://erp.test/messages"
  limit := some 1
  snapshotComplete := some true

def adapterClock : AdapterClock :=
  ⟨"", fun _ => "", fun _ => "", fun n => n ≤ 86400, fun _ _ => "", fun _ => none⟩

theorem erpConfig_baseUrl : erpConfig.baseUrl = .ok "http://erp.test/messages" := rfl

theorem erpConfig_requestUrl :
    erpConfig.requestUrl adapterClock = .ok "http://erp.test/messages?limit=1" := rfl

/-- What is read of a config. -/
def readingEnv (config : ErpPrivateMessagesConfig) : AdapterEnv Int String where
  web := web
  numbers := ⟨some, toString⟩
  clock := adapterClock
  serde :=
    { codec := ⟨fun _ => .error "", fun _ => .error ""⟩
      adapter := fun _ => .ok (some "erp_private_messages")
      erp := fun _ => .ok config
      mail := fun _ => .error ""
      calendar := fun _ => .error ""
      azureDevOps := fun _ => .error ""
      monitoring := fun _ => .error ""
      tokenResponse := fun _ => .error "" }
  normalize := ⟨id, id, id, fun _ => id, fun _ => id, fun _ => id, fun _ => []⟩

def adapterEnv : AdapterEnv Int String := readingEnv erpConfig

def message (id : Int) : Json Int := .object [("id", .number id)]

/-- The request, and the one message it brings. -/
def exchange : Exchange Int :=
  (.get "http://erp.test/messages?limit=1", .answer (.array [message 1]))

/-- A server with that answer. -/
def server : Server Request (Reply Int) := fun _ _ => exchange.2

theorem fetch : fetchConnectorPayload adapterEnv "notifications" "" server [] =
    (.ok ⟨some ⟨[message 1], some true⟩, none⟩, [exchange]) := rfl

end Sample

/-- **The adapter declares a snapshot complete that its own limit has cut**: the system holds two
messages, the request asks for one, and the config says that the answer is complete. -/
theorem erp_limit_declared_complete :
    ∃ payload updated log, fetchConnectorPayload Sample.adapterEnv "notifications" "" Sample.server []
        = (.ok ⟨some payload, updated⟩, log) ∧ payload.snapshotComplete = some true ∧
      ∃ full, MayHold .erp log full ∧ ¬ Carries Sample.adapterEnv "" .erp full payload.items := by
  refine ⟨_, _, _, Sample.fetch, rfl, [Sample.message 1, Sample.message 2], ?_, ?_⟩
  · have hbase : Joinable "http://erp.test/messages" := ⟨by decide, by decide⟩
    have hlimits := limits_requestUrl Sample.erpConfig_baseUrl hbase Sample.erpConfig_requestUrl
    refine ⟨_, _, [Sample.message 1], rfl, rfl, Or.inr ⟨1, ?_, rfl⟩⟩
    rw [hlimits]
    exact List.mem_append_right _ (List.mem_singleton.mpr rfl)
  · intro h
    simpa [Sample.adapterEnv, Sample.readingEnv] using congrArg List.length h

namespace Sample

/-- The config with room for a second message. -/
def widerConfig : ErpPrivateMessagesConfig := { erpConfig with limit := some 2 }

/-- The message comes alone. -/
def widerExchange : Exchange Int :=
  (.get "http://erp.test/messages?limit=2", .answer (.array [message 1]))

theorem fetch_wider : fetchConnectorPayload (readingEnv widerConfig) "notifications" ""
    (fun _ _ => widerExchange.2) [] =
      (.ok ⟨some ⟨[message 1], some true⟩, none⟩, [widerExchange]) := rfl

theorem not_hiddenCut_wider : ¬ HiddenCut (readingEnv widerConfig) "" .erp [widerExchange] := by
  rintro ⟨config, url, response, answer, -, -, hlog, hanswer, hlimit⟩
  obtain ⟨rfl, rfl⟩ : "http://erp.test/messages?limit=2" = url
      ∧ Json.array [message 1] = response := by
    simpa [widerExchange] using hlog
  obtain rfl : [message 1] = answer := Except.ok.inj hanswer
  have hlimits : limits erpLimitNames "http://erp.test/messages?limit=2" = [2] := by decide +kernel
  rw [hlimits] at hlimit
  simp at hlimit

end Sample

/-- A message that leaves room for a second one: its snapshot is declared complete, and honest. -/
theorem honest_iff_not_hiddenCut_erp :
    Honest (Sample.readingEnv Sample.widerConfig) "" .erp [Sample.widerExchange]
      ⟨[Sample.message 1], some true⟩ := by
  have hiff : Honest (Sample.readingEnv Sample.widerConfig) "" .erp [Sample.widerExchange]
      ⟨[Sample.message 1], some true⟩ ↔
        ¬ HiddenCut (Sample.readingEnv Sample.widerConfig) "" .erp [Sample.widerExchange] :=
    honest_iff_not_hiddenCut Sample.web_writes rfl rfl Sample.fetch_wider
  exact hiff.mpr Sample.not_hiddenCut_wider

end DevPortal
