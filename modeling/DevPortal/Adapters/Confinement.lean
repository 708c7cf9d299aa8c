import DevPortal.Adapters.Graph

/-!
# Adapters/Confinement — where the pages of a collection are asked for

    initial URL ▸ link ▸ link ▸ …      one origin, no URL twice, at most as many as there are pages

The server chooses every link, and the token goes wherever a page is asked for.  What the loop asks
for is fixed before the server answers: a link that leads to another origin or back to a page is an
error before the next request (`asks_fetchPages`).  A collection is called complete where the loop
sees no link; the names of the link are tried up to the first that is present, so that a `null` under
one hides what stands under the next (`hidesLink`).
-/

namespace DevPortal

variable {ν υ : Type}

/-! ## Links -/

theorem sameOrigin_iff {web : Web υ} {left right : υ} :
    sameOrigin web left right = true ↔
      web.scheme left = web.scheme right ∧ web.host left = web.host right
        ∧ web.port left = web.port right := by
  simp [sameOrigin, and_assoc]

/-- A link that is followed stays at the origin. -/
theorem graphNextLink_origin {web : Web υ} {response : Json ν} {currentUrl initialUrl url : υ}
    {adapter : String}
    (h : graphNextLink web response currentUrl initialUrl adapter = .ok (some url)) :
    sameOrigin web initialUrl url = true := by
  unfold graphNextLink at h
  split at h
  · cases h
  · cases h
  · next link hfield =>
    split at h
    · cases h
    obtain ⟨next, -, h⟩ := Json.Walk.bind_eq_ok.mp h
    dsimp only at h
    split at h
    · next horigin =>
      obtain rfl := Option.some.inj (Except.ok.inj h)
      exact horigin
    · cases h
  · cases h

/-! ## What the loop asks for -/

/-- The request for the page at a URL. -/
def pageRequest (web : Web υ) (url : υ) : Request := .get (web.text url)

/-- Requests for at most `left` pages of one origin, no two for the same page and none for a page
that was visited; pages are told apart by their URLs without fragment. -/
def Visits (web : Web υ) (initialUrl : υ) (left : Nat) (visited : List String)
    (requests : List Request) : Prop :=
  ∃ urls : List υ, requests = urls.map (pageRequest web) ∧ urls.length ≤ left ∧
    (urls.map (canonicalUrl web)).Nodup ∧
    ∀ url ∈ urls, canonicalUrl web url ∉ visited ∧ sameOrigin web initialUrl url = true

variable {web : Web υ} {initialUrl : υ} {left : Nat} {visited : List String}

theorem Visits.nil : Visits web initialUrl left visited [] :=
  ⟨[], rfl, Nat.zero_le _, List.nodup_nil, fun _ h => nomatch h⟩

/-- A page that was not visited, and then others. -/
theorem Visits.cons {url : υ} {requests : List Request} (hnew : canonicalUrl web url ∉ visited)
    (horigin : sameOrigin web initialUrl url = true)
    (h : Visits web initialUrl left (canonicalUrl web url :: visited) requests) :
    Visits web initialUrl (left + 1) visited (pageRequest web url :: requests) := by
  obtain ⟨urls, rfl, hlength, hnodup, hurls⟩ := h
  refine ⟨url :: urls, rfl, Nat.succ_le_succ hlength, ?_, ?_⟩
  · rw [List.map_cons, List.nodup_cons]
    refine ⟨?_, hnodup⟩
    intro hmem
    obtain ⟨other, hother, heq⟩ := List.mem_map.mp hmem
    exact (hurls other hother).1 (heq ▸ List.mem_cons_self)
  · intro other hother
    rcases List.mem_cons.mp hother with rfl | hother
    · exact ⟨hnew, horigin⟩
    · exact ⟨fun hmem => (hurls other hother).1 (List.mem_cons_of_mem _ hmem),
        (hurls other hother).2⟩

/-- A request that must be answered, in front of a program. -/
theorem asks_send_bind {α : Type} {p : List Request → Prop} {what : String} {request : Request}
    {f : Json ν → Adapter ν α} (h : p [request])
    (hf : ∀ response, Client.Asks (fun requests => p (request :: requests)) (f response)) :
    Client.Asks p (send what request >>= f) := by
  unfold send
  rw [Client.bind_bind]
  exact .ask_bind fun reply => .ofExcept_bind h fun response _ => hf response

/-- **What the loop asks for**, whatever the server answers. -/
theorem asks_fetchPages (l : PageLoop υ) (left pageNumber : Nat) (url : υ)
    (visited : List String) (items : List (Json ν))
    (horigin : sameOrigin web l.initialUrl url = true) :
    Client.Asks (Visits web l.initialUrl left visited)
      (fetchPages web l left pageNumber url visited items) := by
  induction left generalizing pageNumber url visited items with
  | zero => exact .pure .nil _
  | succ left ih =>
    unfold fetchPages
    split
    · exact .ofExcept .nil _
    next hnew =>
    have hpage : ∀ {requests : List Request},
        Visits web l.initialUrl left (canonicalUrl web url :: visited) requests →
        Visits web l.initialUrl (left + 1) visited (pageRequest web url :: requests) :=
      fun h => h.cons hnew horigin
    refine asks_send_bind (hpage .nil) fun response => ?_
    refine .ofExcept_bind (hpage .nil) fun pageItems _ => ?_
    refine .ofExcept_bind (hpage .nil) fun next hnext => ?_
    refine .ofExcept_bind (hpage .nil) fun _ _ => ?_
    split
    · exact .pure (hpage .nil) _
    cases next with
    | none => exact .pure (hpage .nil) _
    | some next =>
      dsimp only
      split
      · exact .pure (hpage .nil) _
      · exact (ih _ _ _ _ (graphNextLink_origin hnext)).mono fun _ => hpage

/-- A request that must be answered, in front of a program: it fails, or it was answered. -/
theorem ends_send_bind {α : Type} {p : Except String α → List (Exchange ν) → Prop} {what : String}
    {request : Request} {f : Json ν → Adapter ν α}
    (he : ∀ e reply, (∀ value, reply ≠ .answer value) → p (.error e) [(request, reply)])
    (hf : ∀ response, Client.Ends (fun result more => p result ((request, .answer response) :: more))
      (f response)) : Client.Ends p (send what request >>= f) := by
  unfold send
  rw [Client.bind_bind]
  refine .ask_bind fun reply => .ofExcept_bind (fun e hjson => he e reply ?_) fun response hjson => ?_
  · rintro value rfl
    cases hjson
  · obtain rfl := Reply.json_ok.mp hjson
    exact hf response

/-- The last exchange is a page on which the loop sees no link. -/
def AtLastPage (exchanges : List (Exchange ν)) : Prop :=
  ∃ page : GraphPage ν, exchanges.getLast? = some page.exchange ∧ seesLink page.response = false

/-- The only exchange of a loop that is at its last page. -/
theorem AtLastPage.of_singleton {request : Request} {reply : Reply ν}
    (h : AtLastPage [(request, reply)]) : ∃ page : GraphPage ν, reply = .answer page.response
      ∧ seesLink page.response = false := by
  obtain ⟨page, hlast, hlink⟩ := h
  exact ⟨page, (Prod.mk.inj (Option.some.inj hlast)).2, hlink⟩

/-- **A loop whose last exchange is a page without a visible link returns.** -/
theorem ends_fetchPages (l : PageLoop υ) (left pageNumber : Nat) (url : υ) (visited : List String)
    (items : List (Json ν)) :
    Client.Ends (fun result exchanges => AtLastPage exchanges → ∃ collection, result = .ok collection)
      (fetchPages web l left pageNumber url visited items) := by
  induction left generalizing pageNumber url visited items with
  | zero => exact .pure fun _ => ⟨_, rfl⟩
  | succ left ih =>
    unfold fetchPages
    split
    · refine .ofExcept fun hlast => ?_
      obtain ⟨_, hnone, -⟩ := hlast
      cases hnone
    refine ends_send_bind (fun e reply hreply hlast => ?_) fun response => ?_
    · obtain ⟨page, rfl, -⟩ := hlast.of_singleton
      exact (hreply _ rfl).elim
    refine .ofExcept_bind (fun e hitems hlast => ?_) fun pageItems _ => ?_
    · obtain ⟨page, hreply, -⟩ := hlast.of_singleton
      obtain rfl := Reply.answer.inj hreply
      rw [page.reads] at hitems
      cases hitems
    refine .ofExcept_bind (fun e hnext hlast => ?_) fun next hnext => ?_
    · obtain ⟨page, hreply, hlink⟩ := hlast.of_singleton
      obtain rfl := Reply.answer.inj hreply
      rw [graphNextLink_of_not_seesLink hlink] at hnext
      cases hnext
    cases next with
    | none =>
      refine .ofExcept_bind (fun e h => by cases h) fun _ _ => ?_
      split <;> exact .pure fun _ => ⟨_, rfl⟩
    | some next =>
      have hsees : seesLink response = true := (graphNextLink_ok hnext).symm
      have hon : ¬ AtLastPage [(Request.get (web.text url), Reply.answer response)] := by
        intro hlast
        obtain ⟨page, hreply, hlink⟩ := hlast.of_singleton
        rw [← Reply.answer.inj hreply, hsees] at hlink
        cases hlink
      refine .ofExcept_bind (fun e _ hlast => (hon hlast).elim) fun _ _ => ?_
      split
      · exact .pure fun _ => ⟨_, rfl⟩
      dsimp only
      split
      · exact .pure fun _ => ⟨_, rfl⟩
      refine (ih _ _ _ _).mono fun result more h hlast => ?_
      cases more with
      | nil => exact (hon hlast).elim
      | cons e more => exact h hlast

/-! ## Collections -/

/-- **Confined requests**: at most `maxPages` pages, of the origin of the initial URL, no URL twice
up to its fragment. -/
def Confined (web : Web υ) (initialUrl : String) (maxPages : Nat) (requests : List Request) :
    Prop :=
  ∃ urls : List υ, requests = urls.map (pageRequest web) ∧ urls.length ≤ maxPages ∧
    (urls.map (canonicalUrl web)).Nodup ∧
    ∀ url ∈ urls, ∃ initial, web.parse initialUrl = .ok initial ∧
      web.scheme url = web.scheme initial ∧ web.host url = web.host initial ∧
      web.port url = web.port initial

/-- **A bounded collection** of the pages that were read: it starts as they do, it has at most
`maxItems` items, and where it is called complete it has all of them. -/
def BoundedCollection (maxItems : Nat) (pages : List (GraphPage ν))
    (collection : GraphCollection ν) : Prop :=
  collection.items.length ≤ maxItems ∧ collection.items <+: GraphPage.all pages ∧
    (collection.snapshotComplete = true → collection.items = GraphPage.all pages)

/-- **An honest collection**: a bounded one that is called complete only where the last page that was
read has no link to a next one, under any name. -/
def HonestCollection (maxItems : Nat) (exchanges : List (Exchange ν))
    (collection : GraphCollection ν) : Prop :=
  ∃ pages : List (GraphPage ν), exchanges = pages.map GraphPage.exchange ∧
    BoundedCollection maxItems pages collection ∧
    (collection.snapshotComplete = true →
      ∃ page, pages.getLast? = some page ∧ hasNextLink page.response = false)

/-- **The last page hides its link**, and the items of all pages fit. -/
def HidesLastLink (maxItems : Nat) (exchanges : List (Exchange ν)) : Prop :=
  ∃ (pages : List (GraphPage ν)) (page : GraphPage ν),
    exchanges = pages.map GraphPage.exchange ∧ pages.getLast? = some page ∧
      hidesLink page.response ∧ (GraphPage.all pages).length ≤ maxItems

theorem hidesLink_iff {response : Json ν} :
    hidesLink response = true ↔ hasNextLink response = true ∧ seesLink response = false := by
  simp [hidesLink]

/-- An exchange tells its page, up to the proof that it could be read. -/
theorem GraphPage.exchange_injective : Function.Injective (GraphPage.exchange (ν := ν)) := by
  rintro ⟨url, response, items, reads⟩ ⟨url', response', items', again⟩ h
  obtain ⟨hurl, hresponse⟩ := Prod.mk.inj h
  obtain rfl := Request.get.inj hurl
  obtain rfl := Reply.answer.inj hresponse
  obtain rfl := Except.ok.inj ((reads "" 0).symm.trans (again "" 0))
  rfl

theorem Visits.confined {initial : υ} {initialText : String} {requests : List Request}
    (hparse : web.parse initialText = .ok initial) (h : Visits web initial left visited requests) :
    Confined web initialText left requests := by
  obtain ⟨urls, hrequests, hlength, hnodup, hurls⟩ := h
  refine ⟨urls, hrequests, hlength, hnodup, ?_⟩
  intro url hurl
  obtain ⟨hscheme, hhost, hport⟩ := sameOrigin_iff.mp (hurls url hurl).2
  exact ⟨initial, hparse, hscheme.symm, hhost.symm, hport.symm⟩

/-- What a loop that returned did, as a collection. -/
theorem ReadPages.bounded {maxItems : Nat} {pages : List (GraphPage ν)}
    {collection : GraphCollection ν} (h : ReadPages maxItems [] pages collection) :
    BoundedCollection maxItems pages collection := by
  have hitems : collection.items = (GraphPage.all pages).take maxItems := h.items_eq
  refine ⟨?_, ?_, ?_⟩
  · rw [hitems]
    exact List.length_take_le _ _
  · rw [hitems]
    exact List.take_prefix _ _
  · intro hcomplete
    obtain ⟨-, hfits⟩ := h.complete_iff.mp hcomplete
    exact hitems.trans (List.take_of_length_le hfits)

/-- **A collection that was read is honest iff its last page does not hide its link.** -/
theorem ReadPages.honest_iff {maxItems : Nat} {pages : List (GraphPage ν)}
    {collection : GraphCollection ν} (h : ReadPages maxItems [] pages collection) :
    HonestCollection maxItems (pages.map GraphPage.exchange) collection
      ↔ ¬ HidesLastLink maxItems (pages.map GraphPage.exchange) := by
  have hsame : ∀ {pages' : List (GraphPage ν)}, pages.map GraphPage.exchange
      = pages'.map GraphPage.exchange → pages = pages' :=
    fun h => List.map_injective_iff.mpr GraphPage.exchange_injective h
  constructor
  · rintro ⟨pages₁, h₁, -, hlast⟩ ⟨pages₂, page, h₂, hpage, hhides, hfits⟩
    obtain rfl := hsame h₁
    obtain rfl := hsame h₂
    obtain ⟨hlink, hsees⟩ := hidesLink_iff.mp hhides
    obtain ⟨page', hpage', hnone⟩ := hlast (h.complete_iff.mpr ⟨⟨page, hpage, hsees⟩, hfits⟩)
    obtain rfl := Option.some.inj (hpage.symm.trans hpage')
    rw [hnone] at hlink
    cases hlink
  · intro hhides
    refine ⟨pages, rfl, h.bounded, fun hcomplete => ?_⟩
    obtain ⟨⟨page, hpage, hsees⟩, hfits⟩ := h.complete_iff.mp hcomplete
    refine ⟨page, hpage, Bool.eq_false_iff.mpr fun hlink => hhides ?_⟩
    exact ⟨pages, page, rfl, hpage, hidesLink_iff.mpr ⟨hlink, hsees⟩, hfits⟩

/-- **The pages of a collection are bounded and confined**, whatever the server answers; and the
collection is honest exactly if the last page does not hide its link. -/
theorem fetchGraphCollection_confined (web : Web υ) (initialUrl adapter : String)
    {maxPages maxItems : Option Nat} {limits : Nat × Nat}
    (hlimits : graphPaginationLimits adapter maxPages maxItems = .ok limits)
    (server : Server Request (Reply ν)) (log : List (Exchange ν)) :
    ∃ exchanges,
      (fetchGraphCollection web initialUrl adapter limits.1 limits.2 server log).2
        = log ++ exchanges ∧
      Confined web initialUrl limits.1 (exchanges.map Prod.fst) ∧
      (∀ collection,
        (fetchGraphCollection web initialUrl adapter limits.1 limits.2 server log).1
          = .ok collection →
        ∃ pages : List (GraphPage ν), exchanges = pages.map GraphPage.exchange ∧
          BoundedCollection limits.2 pages collection) ∧
      ((∀ collection,
        (fetchGraphCollection web initialUrl adapter limits.1 limits.2 server log).1
          = .ok collection →
        HonestCollection limits.2 exchanges collection) ↔ ¬ HidesLastLink limits.2 exchanges) := by
  obtain ⟨hpos, -, -⟩ := graphPaginationLimits_ok hlimits
  unfold fetchGraphCollection
  cases hparse : web.parse initialUrl with
  | error error =>
    refine ⟨[], (List.append_nil _).symm, ⟨[], rfl, Nat.zero_le _, List.nodup_nil, nofun⟩, nofun,
      iff_of_true nofun ?_⟩
    rintro ⟨pages, page, hpages, hlast, -⟩
    obtain rfl := List.map_eq_nil_iff.mp hpages.symm
    cases hlast
  | ok initial =>
    rw [Except.mapError, Client.ofExcept_ok_bind]
    obtain ⟨exchanges, hlog, hvisits⟩ := asks_fetchPages (ν := ν)
      ⟨adapter, initial, limits.1, limits.2⟩ limits.1 1 initial [] []
      (sameOrigin_iff.mpr ⟨rfl, rfl, rfl⟩) server log
    obtain ⟨exchanges', hlog', hends⟩ := @ends_fetchPages ν _ web
      ⟨adapter, initial, limits.1, limits.2⟩ limits.1 1 initial [] [] server log
    obtain rfl := List.append_cancel_left (hlog'.symm.trans hlog)
    have hfetched : ∀ collection, (fetchPages web ⟨adapter, initial, limits.1, limits.2⟩ limits.1 1
        initial [] [] server log).1 = .ok collection →
        ∃ pages, exchanges' = pages.map GraphPage.exchange ∧ ReadPages limits.2 [] pages collection := by
      intro collection hok
      obtain ⟨pages, -, hpages, hread⟩ := fetchPages_ok
        (l := ⟨adapter, initial, limits.1, limits.2⟩) (Nat.add_comm ..) hpos (Nat.zero_le _)
        (Prod.ext hok hlog)
      exact ⟨pages, List.append_cancel_left hpages, hread⟩
    refine ⟨exchanges', hlog, hvisits.confined hparse, fun collection hok => ?_, ?_⟩
    · obtain ⟨pages, hpages, hread⟩ := hfetched collection hok
      exact ⟨pages, hpages, hread.bounded⟩
    constructor
    · rintro hhonest hhides
      obtain ⟨pages, page, hpages, hpage, hlink, -⟩ := id hhides
      -- a page that hides its link ends the loop, so there is a collection to be honest about
      obtain ⟨collection, hok⟩ := hends ⟨page, by rw [hpages, List.getLast?_map, hpage]; rfl,
        (hidesLink_iff.mp hlink).2⟩
      obtain ⟨pages', rfl, hread⟩ := hfetched collection hok
      exact hread.honest_iff.mp (hhonest collection hok) hhides
    · intro hhides collection hok
      obtain ⟨pages, rfl, hread⟩ := hfetched collection hok
      exact hread.honest_iff.mpr hhides

namespace Sample

/-- Absolute URLs of one host, on its port. -/
def graphWeb : Web String where
  build := fun _ => .ok ()
  headerName := fun _ => true
  parse := .ok
  join := fun _ link => .ok link
  withoutFragment := fun url => String.ofList (url.toList.takeWhile (· != '#'))
  text := fun url => url
  scheme := fun _ => "https"
  host := fun url => ((url.toList.splitOn '/')[2]?).map String.ofList
  port := fun _ => some 443
  queryPairs := fun _ => []
  withQueryPairs := fun _ url => url

/-- Two pages of one item each; the second links to no third. -/
def pagedServer : Server Request (Reply Empty) := fun log _ =>
  match log with
  | [] =>
    .answer (.object
      [("value", .array [.bool true]), ("nextLink", .str "https://graph.test/me?page=2#next")])
  | _ :: _ => .answer (.object [("value", .array [.bool false])])

/-- One page of one item; the first name of the link is there with nothing in it. -/
def shadowingServer : Server Request (Reply Empty) := fun _ _ =>
  .answer (.object
    [("value", .array [.bool true]), ("@odata.nextLink", .null),
      ("nextLink", .str "https://graph.test/me?page=2")])

end Sample

/-- Two pages within the limits: both are asked for, and the collection is complete and honest. -/
theorem confined_two_pages :
    (fetchGraphCollection Sample.graphWeb "https://graph.test/me#top" "graph" 2 3
      Sample.pagedServer []).1 = .ok ⟨[.bool true, .bool false], true⟩ ∧
    ∃ exchanges,
      (fetchGraphCollection Sample.graphWeb "https://graph.test/me#top" "graph" 2 3
        Sample.pagedServer []).2 = [] ++ exchanges ∧
      Confined Sample.graphWeb "https://graph.test/me#top" 2 (exchanges.map Prod.fst) ∧
      HonestCollection 3 exchanges ⟨[.bool true, .bool false], true⟩ := by
  have hlimits : graphPaginationLimits "graph" (some 2) (some 3) = .ok (2, 3) := rfl
  obtain ⟨exchanges, hlog, hconfined, -, hhonest⟩ := fetchGraphCollection_confined Sample.graphWeb
    "https://graph.test/me#top" "graph" hlimits Sample.pagedServer []
  refine ⟨rfl, exchanges, hlog, hconfined, hhonest.mpr ?_ _ rfl⟩
  rintro ⟨pages, page, hpages, hpage, hhides, -⟩
  have hlast : (exchanges.getLast?).map Prod.snd
      = some (.answer (.object [("value", .array [.bool false])])) :=
    congrArg (fun log => (List.getLast? log).map Prod.snd) hlog.symm
  rw [hpages, List.getLast?_map, hpage] at hlast
  rw [Reply.answer.inj (Option.some.inj hlast)] at hhides
  cases hhides

/-- **A link behind an empty one is not followed**, and the collection is called complete. -/
theorem shadowed_link_called_complete :
    ¬ ∃ exchanges,
      (fetchGraphCollection Sample.graphWeb "https://graph.test/me" "graph" 2 3
        Sample.shadowingServer []).2 = [] ++ exchanges ∧
      Confined Sample.graphWeb "https://graph.test/me" 2 (exchanges.map Prod.fst) ∧
      ∀ collection,
        (fetchGraphCollection Sample.graphWeb "https://graph.test/me" "graph" 2 3
          Sample.shadowingServer []).1 = .ok collection →
        HonestCollection 3 exchanges collection := by
  rintro ⟨exchanges, hlog, -, hhonest⟩
  obtain ⟨pages, hpages, -, hcomplete⟩ := hhonest ⟨[.bool true], true⟩ rfl
  obtain ⟨page, hpage, hnone⟩ := hcomplete rfl
  have hlast : (exchanges.getLast?).map Prod.snd = some (Sample.shadowingServer [] (.get "")) :=
    congrArg (fun log => (List.getLast? log).map Prod.snd) hlog.symm
  rw [hpages, List.getLast?_map, hpage] at hlast
  rw [Reply.answer.inj (Option.some.inj hlast)] at hnone
  cases hnone

end DevPortal
