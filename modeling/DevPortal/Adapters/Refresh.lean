import DevPortal.Adapters.Fetch

/-!
# Adapters/Refresh — a fetch that refreshed its token first

    token endpoint ▸ new token ▸ page ▸ page ▸ … ▸ the last page, or a limit

What the answer of the token endpoint brought is handed back with the result of the fetch
(`fetchGraph_refreshed`), so it depends on the pages behind it.  A collection is fetched iff every
page of it can be read (`fetchGraphCollection_iff`).
-/

namespace DevPortal

open Crypto

variable {ν υ : Type}

/-! ## Pages that can be read -/

/-- The loop stops behind a page: there is no next one, the page did not fit, or a limit is
reached. -/
def StopsBehind (l : PageLoop υ) (pageNumber held : Nat) (pageItems : List (Json ν))
    (next : Option υ) : Prop :=
  l.maxItems - held < pageItems.length ∨ next = none
    ∨ l.maxItems ≤ held + pageItems.length ∨ l.maxPages ≤ pageNumber

/-- **The pages from a URL on can be read**, up to where the loop stops: each is answered with a
collection, and its link, if it has one, leads to a page of the same origin that was not visited. -/
inductive Readable (web : Web υ) (l : PageLoop υ) (server : Server Request (Reply ν)) :
    (log : List (Exchange ν)) → (pageNumber held : Nat) → υ → List String → Prop
  | last {log : List (Exchange ν)} {pageNumber held : Nat} {url : υ} {visited : List String}
      {response : Json ν} {pageItems : List (Json ν)} {next : Option υ}
      (answered : server log (.get (web.text url)) = .answer response)
      (collection : graphCollectionItems response l.adapter pageNumber = .ok pageItems)
      (link : graphNextLink web response url l.initialUrl l.adapter = .ok next)
      (unvisited : ∀ u ∈ next, canonicalUrl web u ∉ canonicalUrl web url :: visited)
      (stops : StopsBehind l pageNumber held pageItems next) :
      Readable web l server log pageNumber held url visited
  | more {log : List (Exchange ν)} {pageNumber held : Nat} {url nextUrl : υ}
      {visited : List String} {response : Json ν} {pageItems : List (Json ν)}
      (answered : server log (.get (web.text url)) = .answer response)
      (collection : graphCollectionItems response l.adapter pageNumber = .ok pageItems)
      (link : graphNextLink web response url l.initialUrl l.adapter = .ok (some nextUrl))
      (unvisited : canonicalUrl web nextUrl ∉ canonicalUrl web url :: visited)
      (goes : ¬ StopsBehind l pageNumber held pageItems (some nextUrl))
      (rest : Readable web l server (log ++ [(.get (web.text url), .answer response)])
        (pageNumber + 1) (held + pageItems.length) nextUrl (canonicalUrl web url :: visited)) :
      Readable web l server log pageNumber held url visited

section Pages

variable {web : Web υ} {l : PageLoop υ} {server : Server Request (Reply ν)}

/-- A loop that returned has read its pages. -/
theorem readable_of_fetchPages {left pageNumber : Nat} {url : υ} {visited : List String}
    {items : List (Json ν)} {log log' : List (Exchange ν)} {collection : GraphCollection ν}
    (hleft : pageNumber + left = l.maxPages + 1) (hpos : 0 < left)
    (h : fetchPages web l left pageNumber url visited items server log = (.ok collection, log')) :
    Readable web l server log pageNumber items.length url visited := by
  induction left generalizing pageNumber url visited items log with
  | zero => omega
  | succ left ih =>
    unfold fetchPages at h
    split at h
    · cases (Client.ofExcept_ok.mp h).1
    obtain ⟨response, mid, hsend, h⟩ := Client.bind_ok.mp h
    obtain ⟨hanswer, rfl⟩ := send_eq_ok.mp hsend
    obtain ⟨pageItems, hitems, h⟩ := Client.ofExcept_bind_ok.mp h
    obtain ⟨next, hnext, h⟩ := Client.ofExcept_bind_ok.mp h
    obtain ⟨_, hvisited, h⟩ := Client.ofExcept_bind_ok.mp h
    have hunvisited : ∀ u ∈ next, canonicalUrl web u ∉ canonicalUrl web url :: visited := by
      rintro u rfl hmem
      dsimp only at hvisited
      rw [if_pos hmem] at hvisited
      cases hvisited
    by_cases hstops : StopsBehind l pageNumber items.length pageItems next
    · exact .last hanswer hitems hnext hunvisited hstops
    · have hgoes := hstops
      simp only [StopsBehind, not_or, not_lt, not_le] at hstops
      obtain ⟨hroom, hlink, hheld, hpages⟩ := hstops
      obtain ⟨nextUrl, rfl⟩ := Option.ne_none_iff_exists'.mp hlink
      have hlength : (items ++ pageItems.take (l.maxItems - items.length)).length
          = items.length + pageItems.length := by
        rw [List.take_of_length_le hroom, List.length_append]
      have hstay : ¬ (l.maxItems ≤ (items ++ pageItems.take (l.maxItems - items.length)).length
          ∨ l.maxPages ≤ pageNumber) := by
        omega
      simp only [hroom.not_gt, if_false, hstay] at h
      have hrest := ih (by omega) (by omega) h
      rw [hlength] at hrest
      exact .more hanswer hitems hnext (hunvisited nextUrl rfl) hgoes hrest

/-- What the loop does behind a page that was read. -/
def behindPage (web : Web υ) (l : PageLoop υ) (left pageNumber : Nat) (url : υ)
    (visited : List String) (items pageItems : List (Json ν)) (next : Option υ) :
    Adapter ν (GraphCollection ν) :=
  let items' := items ++ pageItems.take (l.maxItems - items.length)
  if l.maxItems - items.length < pageItems.length then pure ⟨items', false⟩
  else
    match next with
    | none => pure ⟨items', true⟩
    | some nextUrl =>
      if l.maxItems ≤ items'.length ∨ l.maxPages ≤ pageNumber then pure ⟨items', false⟩
      else fetchPages web l left (pageNumber + 1) nextUrl (canonicalUrl web url :: visited) items'

/-- One page that can be read. -/
theorem fetchPages_page {left pageNumber : Nat} {url : υ} {visited : List String}
    {items pageItems : List (Json ν)} {log : List (Exchange ν)} {response : Json ν}
    {next : Option υ} (hurl : canonicalUrl web url ∉ visited)
    (hanswer : server log (.get (web.text url)) = .answer response)
    (hitems : graphCollectionItems response l.adapter pageNumber = .ok pageItems)
    (hnext : graphNextLink web response url l.initialUrl l.adapter = .ok next)
    (hunvisited : ∀ u ∈ next, canonicalUrl web u ∉ canonicalUrl web url :: visited) :
    fetchPages web l (left + 1) pageNumber url visited items server log
      = behindPage web l left pageNumber url visited items pageItems next server
        (log ++ [(.get (web.text url), .answer response)]) := by
  rw [fetchPages, if_neg hurl, Client.bind_of_ok (send_eq_ok.mpr ⟨hanswer, rfl⟩)]
  simp only [hitems, hnext, Client.ofExcept_ok_bind]
  cases next with
  | none => rfl
  | some nextUrl =>
    simp only [if_neg (hunvisited nextUrl rfl)]
    rfl

/-- **A loop whose pages can be read returns.** -/
theorem fetchPages_of_readable {left pageNumber : Nat} {url : υ} {visited : List String}
    (items : List (Json ν)) {log : List (Exchange ν)} {held : Nat}
    (hleft : pageNumber + left = l.maxPages + 1) (hpos : 0 < left) (hheld : items.length = held)
    (hurl : canonicalUrl web url ∉ visited)
    (h : Readable web l server log pageNumber held url visited) :
    ∃ collection log', fetchPages web l left pageNumber url visited items server log
      = (.ok collection, log') := by
  induction h generalizing left items with
  | @last log pageNumber held url visited response pageItems next hanswer hitems hnext hunvisited
      hstops =>
    obtain ⟨left, rfl⟩ := Nat.exists_eq_add_one.mpr hpos
    rw [fetchPages_page hurl hanswer hitems hnext hunvisited]
    unfold behindPage
    split
    · exact ⟨_, _, rfl⟩
    next hroom =>
    cases next with
    | none => exact ⟨_, _, rfl⟩
    | some nextUrl =>
      dsimp only
      split
      · exact ⟨_, _, rfl⟩
      next hgoes =>
      rw [List.take_of_length_le (by omega), List.length_append, hheld] at hgoes
      rw [hheld] at hroom
      simp only [StopsBehind, reduceCtorEq, false_or] at hstops
      exact absurd (hstops.resolve_left hroom) hgoes
  | @more log pageNumber held url nextUrl visited response pageItems hanswer hitems hnext
      hunvisited hgoes hrest ih =>
    obtain ⟨left, rfl⟩ := Nat.exists_eq_add_one.mpr hpos
    rw [fetchPages_page hurl hanswer hitems hnext fun u hu => Option.some.inj hu ▸ hunvisited]
    unfold behindPage
    simp only [StopsBehind, reduceCtorEq, false_or, not_or, not_lt, not_le] at hgoes
    obtain ⟨hroom, hfits, hpages⟩ := hgoes
    rw [← hheld] at hroom hfits
    have hstay : ¬ (l.maxItems ≤ (items ++ pageItems).length ∨ l.maxPages ≤ pageNumber) := by
      rw [List.length_append]
      omega
    rw [List.take_of_length_le hroom]
    simp only [hroom.not_gt, hstay, if_false]
    exact ih _ (by omega) (by omega) (by rw [List.length_append, hheld]) hunvisited

/-- **A collection is fetched iff its pages can be read.** -/
theorem fetchGraphCollection_iff {requestUrl name : String} {maxPages maxItems : Nat}
    (hpages : 1 ≤ maxPages) {log : List (Exchange ν)} :
    (∃ collection log', fetchGraphCollection web requestUrl name maxPages maxItems server log
        = (.ok collection, log'))
      ↔ ∃ initialUrl, web.parse requestUrl = .ok initialUrl
        ∧ Readable web ⟨name, initialUrl, maxPages, maxItems⟩ server log 1 0 initialUrl [] := by
  constructor
  · rintro ⟨collection, log', h⟩
    obtain ⟨initialUrl, hparse, h⟩ := Client.ofExcept_bind_ok.mp h
    exact ⟨initialUrl, mapError_eq_ok.mp hparse,
      readable_of_fetchPages (Nat.add_comm 1 maxPages) hpages h⟩
  · rintro ⟨initialUrl, hparse, h⟩
    obtain ⟨collection, log', hfetch⟩ := fetchPages_of_readable []
      (Nat.add_comm 1 maxPages) hpages rfl List.not_mem_nil h
    exact ⟨collection, log', Client.ofExcept_bind_ok.mpr ⟨initialUrl, mapError_eq_ok.mpr hparse,
      hfetch⟩⟩

/-- A request for a page. -/
def Request.IsGet (request : Request) : Prop := ∃ url, request = .get url

theorem sends_fetchPages (left pageNumber : Nat) (url : υ) (visited : List String)
    (items : List (Json ν)) :
    Client.Sends Request.IsGet (fetchPages web l left pageNumber url visited items) := by
  induction left generalizing pageNumber url visited items with
  | zero => exact .pure _ _
  | succ left ih =>
    unfold fetchPages
    split
    · exact .ofExcept _ _
    have hsend : Client.Sends Request.IsGet
        (send (ν := ν) s!"{l.adapter} page {pageNumber}" (.get (web.text url))) :=
      (Client.Sends.ask ⟨_, rfl⟩).bind fun _ => .ofExcept _ _
    refine hsend.bind fun response => (Client.Sends.ofExcept _ _).bind fun pageItems =>
      (Client.Sends.ofExcept _ _).bind fun next => (Client.Sends.ofExcept _ _).bind fun _ => ?_
    split
    · exact .pure _ _
    split
    · exact .pure _ _
    split
    · exact .pure _ _
    · exact ih _ _ _ _

theorem sends_fetchGraphCollection (requestUrl name : String) (maxPages maxItems : Nat) :
    Client.Sends Request.IsGet
      (fetchGraphCollection (ν := ν) web requestUrl name maxPages maxItems) :=
  (Client.Sends.ofExcept _ _).bind fun _ => sends_fetchPages _ _ _ _ _

end Pages

/-! ## A refresh that brings a token -/

section Refresh

variable {env : TokenEnv ν} {user : TokenUser} {config : Json ν}
  {server : Server Request (Reply ν)} {url : String} {form : List (String × String)}
  {answer : Json ν} {response : GraphTokenResponse} {token : GraphAccessToken}

/-- A refresh that was answered comes to what is made of the answer. -/
theorem refreshGraphAccessToken_asked {refreshToken : String} {result : Except String GraphAccessToken}
    (hasked : (.refresh url form, .answer answer)
      ∈ (refreshGraphAccessToken env user config refreshToken server []).2)
    (hresponse : env.tokenResponse answer = .ok response)
    (happly : applyRefresh env config user.adapterName response = result) :
    refreshGraphAccessToken env user config refreshToken server []
      = (result, [(.refresh url form, .answer answer)]) := by
  unfold refreshGraphAccessToken at hasked ⊢
  obtain ⟨_, hurl, hasked⟩ := Client.ofExcept_bind_asked hasked
  obtain ⟨clientId, hclient, hasked⟩ := Client.ofExcept_bind_asked hasked
  rw [hurl, Client.ofExcept_ok_bind, hclient, Client.ofExcept_ok_bind]
  have hone := Client.bind_asked (p := fun _ => False) (fun reply => (Client.Sends.ofExcept _ _).bind
    fun body => (Client.Sends.ofExcept _ _).bind fun response => .ofExcept _ _) not_false hasked
  have heq := List.mem_singleton.mp hone
  obtain ⟨hrequest, hreply⟩ := Prod.mk.inj heq
  rw [Client.bind_of_ok (Client.ask_ok.mpr ⟨hreply.symm, rfl⟩)]
  simp only [Client.ofExcept_ok_bind, hresponse, Except.mapError, happly, ← hrequest]
  rfl

/-- A refresh needs the refresh token of the config. -/
theorem graphAccessToken_asked
    (hasked : (.refresh url form, .answer answer) ∈ (graphAccessToken env user config server []).2) :
    ∃ refreshToken, fieldString env.numbers config ["refresh_token"] = some refreshToken
      ∧ graphAccessToken env user config = refreshGraphAccessToken env user config refreshToken := by
  unfold graphAccessToken at hasked ⊢
  rcases hr : fieldString env.numbers config ["refresh_token"] with _ | refreshToken <;>
    rcases ha : fieldString env.numbers config ["access_token", "bearer_token", "token"] with
      _ | accessToken <;> simp only [hr, ha] at hasked ⊢
  · cases hasked
  · cases hasked
  · exact ⟨refreshToken, rfl, rfl⟩
  · refine ⟨refreshToken, rfl, ?_⟩
    split at hasked
    · next hneeds => rw [if_pos hneeds]
    · cases hasked

/-- Only an object has fields. -/
theorem object_of_fieldString {numbers : Numbers ν} {names : List String} {text : String}
    (h : fieldString numbers config names = some text) : ∃ fields, config = .object fields := by
  cases config with
  | object fields => exact ⟨fields, rfl⟩
  | null | bool | number | str | array =>
    have hnone : ∀ names : List String, names.findSome? (fun _ => (none : Option (Json ν))) = none :=
      fun names => List.findSome?_eq_none_iff.mpr fun _ _ => rfl
    cases (congrArg (fun x => (x.bind (scalarToString numbers)).bind Text.trimmed?)
      (hnone names)).symm.trans h

/-- What is left of the fetch once the token is there. -/
def fetchBehind (web : Web υ) (normalize : Json ν → Json ν) (request : GraphRequest)
    (updatedConfig : Option String) : Adapter ν (ConnectorAdapterResult ν) := do
  let collection ← fetchGraphCollection web (appendQueryParams request.url request.params)
    request.adapterName (request.maxPages.getD graphDefaultMaxPages)
    (request.maxItems.getD graphDefaultMaxItems)
  return ⟨some ⟨collection.items.map normalize, some collection.snapshotComplete⟩, updatedConfig⟩

/-- A fetch that asked for a token gets it first. -/
theorem fetchGraph_eq_of_asked {web : Web υ} {normalize : Json ν → Json ν} {adapter : Option String}
    {request : GraphRequest} (hasked : (.refresh url form, .answer answer)
      ∈ (fetchGraph web env normalize adapter request config server []).2) :
    1 ≤ request.maxPages.getD graphDefaultMaxPages
      ∧ fetchGraph web env normalize adapter request config server []
        = (graphAccessToken env ⟨request.adapterName, request.scope⟩ config >>= fun token =>
            fetchBehind web normalize request token.updatedConfig) server []
      ∧ (.refresh url form, .answer answer)
        ∈ (graphAccessToken env ⟨request.adapterName, request.scope⟩ config server []).2 := by
  unfold fetchGraph at hasked ⊢
  split at hasked
  · cases hasked
  next hnames =>
  rw [if_neg hnames]
  obtain ⟨_, hurl, hasked⟩ := Client.ofExcept_bind_asked hasked
  obtain ⟨⟨maxPages, maxItems⟩, hlimits, hasked⟩ := Client.ofExcept_bind_asked hasked
  obtain ⟨_, hbuild, hasked⟩ := Client.ofExcept_bind_asked hasked
  have htoken := Client.bind_asked (fun token => (sends_fetchGraphCollection _ _ _ _).bind
    fun collection => .pure _ _) (fun ⟨_, h⟩ => nomatch h) hasked
  obtain ⟨hpos, rfl, rfl⟩ := graphPaginationLimits_ok hlimits
  refine ⟨hpos, ?_, htoken⟩
  rw [hurl, Client.ofExcept_ok_bind, hlimits, Client.ofExcept_ok_bind, hbuild]
  rfl

/-- **A fetch that refreshed its token has the pages before it**, and a config to hand back. -/
theorem fetchGraph_refreshed {web : Web υ} {normalize : Json ν → Json ν} {adapter : Option String}
    {request : GraphRequest} {v : Value ν} (hcodec : env.codec.ReadsBack)
    (hasked : (.refresh url form, .answer answer)
      ∈ (fetchGraph web env normalize adapter request v.1 server []).2)
    (hresponse : env.tokenResponse answer = .ok response) (hfailure : response.failure = none)
    {accessToken : String} (haccess : response.accessToken.bind Text.trimmed? = some accessToken)
    (hreaches : env.clock.reaches response.lifetime) :
    ∃ fields updated, v.1 = .object fields
      ∧ env.codec.toString (.object (insertTexts (tokenFields env.clock response accessToken)
          fields)) = .ok updated
      ∧ 1 ≤ request.maxPages.getD graphDefaultMaxPages
      ∧ fetchGraph web env normalize adapter request v.1 server []
        = fetchBehind web normalize request (some updated) server
          [(.refresh url form, .answer answer)] := by
  obtain ⟨hpos, hfetch, htoken⟩ := fetchGraph_eq_of_asked hasked
  obtain ⟨refreshToken, hfield, hrefresh⟩ := graphAccessToken_asked htoken
  obtain ⟨fields, hfields⟩ := object_of_fieldString hfield
  obtain ⟨updated, hupdated, -⟩ := hcodec
    ⟨_, insertTexts_wf (tokenFields env.clock response accessToken) (hfields ▸ v.2)⟩
  have happly : applyRefresh env v.1 request.adapterName response
      = .ok ⟨accessToken, some updated⟩ := by
    simp only [applyRefresh, hfailure, haccess, hreaches, hfields, hupdated]
    rfl
  rw [hrefresh] at htoken
  have hgot := refreshGraphAccessToken_asked htoken hresponse happly
  rw [← hrefresh] at hgot
  exact ⟨fields, updated, hfields, hupdated, hpos, hfetch.trans (Client.bind_of_ok hgot)⟩

/-- **A fetch whose token lasts too long ends before its pages.** -/
theorem fetchGraph_overflowed {web : Web υ} {normalize : Json ν → Json ν} {adapter : Option String}
    {request : GraphRequest} (hasked : (.refresh url form, .answer answer)
      ∈ (fetchGraph web env normalize adapter request config server []).2)
    (hresponse : env.tokenResponse answer = .ok response) (hfailure : response.failure = none)
    {accessToken : String} (haccess : response.accessToken.bind Text.trimmed? = some accessToken)
    (hreaches : ¬ env.clock.reaches response.lifetime) :
    fetchGraph web env normalize adapter request config server []
      = (.error overflowed, [(.refresh url form, .answer answer)]) := by
  obtain ⟨-, hfetch, htoken⟩ := fetchGraph_eq_of_asked hasked
  obtain ⟨refreshToken, -, hrefresh⟩ := graphAccessToken_asked htoken
  have happly : applyRefresh env config request.adapterName response = .error overflowed := by
    simp only [applyRefresh, hfailure, haccess, hreaches]
    rfl
  rw [hrefresh] at htoken
  have hgot := refreshGraphAccessToken_asked htoken hresponse happly
  rw [← hrefresh] at hgot
  exact hfetch.trans (Client.bind_of_error hgot)

end Refresh

/-- The request of a Graph calendar or mail config. -/
def graphRequest (env : AdapterEnv ν υ) (configJson : String) : Option GraphRequest :=
  match env.serde.adapter configJson with
  | .ok (some adapter) =>
    if adapter ∈ graphCalendarNames then
      (env.serde.calendar configJson).toOption.map fun config => config.request env.clock
    else if adapter ∈ graphMailNames then
      (env.serde.mail configJson).toOption.map fun config => config.request env.clock
    else none
  | _ => none

/-- A request that was asked shows that the adapter serves the target. -/
theorem serving_asked {name : String} {targets : List String} {target : String}
    {fetch : Adapter ν (ConnectorAdapterResult ν)} {server : Server Request (Reply ν)}
    {e : Exchange ν} (h : e ∈ (serving name targets target fetch server []).2) :
    serving name targets target fetch = fetch := by
  unfold serving at h ⊢
  split at h
  · next htarget => rw [if_pos htarget]
  · cases h

theorem toOption_map_eq_some {ε α β : Type} {x : Except ε α} {f : α → β} {b : β}
    (h : x.toOption.map f = some b) : ∃ a, x = .ok a ∧ f a = b := by
  cases x with
  | error e => cases h
  | ok a => exact ⟨a, rfl, Option.some.inj h⟩

/-- A Graph run that asked for anything is a fetch for its request. -/
theorem fetchConnectorPayload_graph {env : AdapterEnv ν υ} {target configJson : String}
    {server : Server Request (Reply ν)} {request : GraphRequest}
    (hgraph : graphRequest env configJson = some request) {v : Value ν}
    (hv : env.serde.codec.fromStr configJson = .ok v) {e : Exchange ν}
    (hasked : e ∈ (fetchConnectorPayload env target configJson server []).2) :
    ∃ normalize adapter, fetchConnectorPayload env target configJson server []
      = fetchGraph env.web env.token normalize adapter request v.1 server [] := by
  unfold graphRequest at hgraph
  unfold fetchConnectorPayload at hasked ⊢
  obtain ⟨adapter, hadapter, hasked⟩ := Client.ofExcept_bind_asked hasked
  rw [mapError_eq_ok.mp hadapter] at hgraph
  rw [hadapter, Client.ofExcept_ok_bind]
  cases adapter with
  | none => cases hgraph
  | some adapter =>
    have hplain : ∀ name, name ∈ graphCalendarNames ++ graphMailNames →
        name ≠ "azure_devops" ∧ name ≠ "monitoring" := by decide
    dsimp only at hgraph hasked ⊢
    split at hgraph
    · next hcalendar =>
      obtain ⟨hazure, hmonitoring⟩ := hplain adapter (List.mem_append_left _ hcalendar)
      obtain ⟨config, hconfig, rfl⟩ := toOption_map_eq_some hgraph
      rw [if_neg hazure, if_neg hmonitoring, if_pos hcalendar] at hasked ⊢
      refine ⟨env.normalize.calendarEvent, config.adapter, ?_⟩
      rw [serving_asked hasked, fetchMicrosoftGraphCalendarEvents, hv, hconfig]
      rfl
    next hcalendar =>
    split at hgraph
    · next hmail =>
      obtain ⟨hazure, hmonitoring⟩ := hplain adapter (List.mem_append_right _ hmail)
      obtain ⟨config, hconfig, rfl⟩ := toOption_map_eq_some hgraph
      rw [if_neg hazure, if_neg hmonitoring, if_neg hcalendar, if_pos hmail] at hasked ⊢
      refine ⟨env.normalize.mailMessage, config.adapter, ?_⟩
      rw [serving_asked hasked, fetchMicrosoftGraphMailMessages, hv, hconfig]
      rfl
    · cases hgraph

end DevPortal
