import DevPortal.Adapters.Shared

/-!
# Adapters/AzureDevOps — work items, by a query and then in batches

    WIQL, at most `max_items` rows ▸ their distinct ids ▸ batches of 200 ▸ one item for each id

A response that fills `max_items` counts as incomplete; below it, every id of every row is fetched
(`fetchAzureDevOpsWorkCards_ok`).
-/

namespace DevPortal

variable {ν υ : Type}

def workItemsBatchSize : Nat := 200

def azureDefaultMaxItems : Nat := 1000

def azureMaxAllowedItems : Nat := 10000

/-- `AzureDevOpsConfig`, without its credentials. -/
structure AzureDevOpsConfig where
  adapter : Option String := none
  wiqlUrl : Option String := none
  workItemsUrl : Option String := none
  baseUrl : Option String := none
  organization : Option String := none
  project : Option String := none
  apiVersion : Option String := none
  wiql : Option String := none
  webUrlBase : Option String := none
  dueDateField : Option String := none
  assigneeUserMappings : List (String × Int) := []
  maxItems : Option Nat := none
  timeoutSeconds : Option Nat := none

/-- `azure_devops_url`, of paths that do not start with a slash. -/
def azureDevOpsUrl (baseUrl organization project path apiVersion : String) : String :=
  let base := Text.trimEndMatches baseUrl '/'
  s!"{base}/{organization}/{project}/{path}?api-version={apiVersion}"

/-- The URL of an endpoint. -/
def AzureDevOpsConfig.endpoint (config : AzureDevOpsConfig) (path : String) : String :=
  azureDevOpsUrl (config.baseUrl.getD "https://dev.azure.com") (config.organization.getD "")
    (config.project.getD "") path (config.apiVersion.getD "7.1")

/-- `default_wiql`. -/
def defaultWiql : String :=
  "SELECT [System.Id] FROM WorkItems WHERE [System.TeamProject] = @project ORDER BY [System.ChangedDate] DESC"

/-- `azure_max_items`. -/
def azureMaxItems (value : Option Nat) : Except String Nat :=
  let value := value.getD azureDefaultMaxItems
  if 1 ≤ value ∧ value ≤ azureMaxAllowedItems then .ok value
  else .error s!"azure_devops config max_items must be an integer from 1 to {azureMaxAllowedItems}"

/-- `wiql_url_with_max_items`. -/
def wiqlUrlWithMaxItems (web : Web υ) (url : String) (maxItems : Nat) : Except String String := do
  let url ← (web.parse url).mapError fun error => s!"azure_devops wiql_url is invalid: {error}"
  let existingPairs := (web.queryPairs url).filter (·.1 != "$top")
  return web.text (web.withQueryPairs (existingPairs ++ [("$top", toString maxItems)]) url)

/-- The fields a batch asks for. -/
def requestedFields (config : AzureDevOpsConfig) : List String :=
  let fields := ["System.Id", "System.Title", "System.State", "System.AssignedTo",
    "System.TeamProject", "System.WorkItemType", "System.ChangedDate", "System.BoardLane",
    "Microsoft.VSTS.Common.Priority"]
  match config.dueDateField.bind Text.trimmed? with
  | some dueDateField => if dueDateField ∈ fields then fields else fields ++ [dueDateField]
  | none => fields

/-! ## Ids -/

/-- `item.get("id")`, as an `i64`. -/
def itemId (numbers : Numbers ν) (item : Json ν) : Option Int :=
  (item.get "id").bind fun
    | .number id => numbers.asI64 id
    | _ => none

/-- The array of a response, under errors that say where. -/
def responseArray (response : Json ν) (name where_ : String) : Except String (List (Json ν)) :=
  match response.get name with
  | none => .error s!"{where_} response must include an explicit {name} array"
  | some value =>
    match value.asArray with
    | none => .error s!"{where_} response field {name} must be an array"
    | some items => .ok items

/-- The ids of items, each under an error that counts it. -/
def itemIds (numbers : Numbers ν) (missing : Nat → String) :
    Nat → List (Json ν) → Except String (List (Int × Json ν))
  | _, [] => .ok []
  | index, item :: items => do
    match itemId numbers item with
    | none => .error (missing (index + 1))
    | some id => return (id, item) :: (← itemIds numbers missing (index + 1) items)

/-- The loop over the rows: an id not seen before is kept while there is room. -/
def collectIds (maxItems : Nat) : (seen ids : List Int) → List Int → List Int
  | _, ids, [] => ids
  | seen, ids, id :: rows =>
    if id ∈ seen then collectIds maxItems seen ids rows
    else collectIds maxItems (id :: seen) (if ids.length < maxItems then ids ++ [id] else ids) rows

/-- The values not seen before, at their first places. -/
def firsts : (seen : List Int) → List Int → List Int
  | _, [] => []
  | seen, id :: rows => if id ∈ seen then firsts seen rows else id :: firsts (id :: seen) rows

theorem collectIds_eq (maxItems : Nat) (seen ids rows : List Int) :
    collectIds maxItems seen ids rows = ids ++ (firsts seen rows).take (maxItems - ids.length) := by
  induction rows generalizing seen ids with
  | nil => simp [collectIds, firsts]
  | cons id rows ih =>
    unfold collectIds firsts
    split
    · exact ih seen ids
    rw [ih]
    split
    · next hroom =>
      rw [List.length_append, List.append_assoc, List.length_singleton]
      rw [show maxItems - ids.length = maxItems - (ids.length + 1) + 1 by omega]
      rfl
    · next hfull =>
      rw [show maxItems - ids.length = 0 by omega]
      rfl

theorem length_firsts_le (seen rows : List Int) : (firsts seen rows).length ≤ rows.length := by
  induction rows generalizing seen with
  | nil => simp [firsts]
  | cons id rows ih =>
    unfold firsts
    split
    · exact (ih seen).trans (Nat.le_succ _)
    · exact Nat.succ_le_succ (ih _)

theorem itemIds_ok {numbers : Numbers ν} {missing : Nat → String} {index : Nat}
    {items : List (Json ν)} {entries : List (Int × Json ν)}
    (h : itemIds numbers missing index items = .ok entries) :
    entries.map Prod.snd = items ∧ ∀ e ∈ entries, itemId numbers e.2 = some e.1 := by
  induction items generalizing index entries with
  | nil =>
    obtain rfl := Except.ok.inj h
    simp
  | cons item items ih =>
    unfold itemIds at h
    split at h
    · cases h
    next id hid =>
    obtain ⟨rest, hrest, h⟩ := Json.Walk.bind_eq_ok.mp h
    obtain rfl := Except.ok.inj h
    obtain ⟨hsnd, hids⟩ := ih hrest
    refine ⟨by simp [hsnd], fun e he => ?_⟩
    rcases List.mem_cons.mp he with rfl | he
    · exact hid
    · exact hids e he

/-! ## Batches -/

/-- A map as the source fills it: the last entry of an id stands. -/
def entryMap (entries : List (Int × Json ν)) : List (Int × Json ν) :=
  entries.foldl (fun map e => e :: map.filter (·.1 != e.1)) []

/-- The items of a batch, taken out of the map in the order of the ids. -/
def takeItems (absent : Int → String) :
    List Int → List (Int × Json ν) → Except String (List (Json ν))
  | [], _ => .ok []
  | id :: ids, map => do
    match map.lookup id with
    | none => .error (absent id)
    | some item => return item :: (← takeItems absent ids (map.filter (·.1 != id)))

/-- `chunks`, of `n + 1` values. -/
def chunks {α : Type} (n : Nat) : List α → List (List α)
  | [] => []
  | x :: xs => (x :: (List.toChunksAux n xs n).1) :: (List.toChunksAux n xs n).2

/-- A batch, and the batches behind it. -/
def fetchBatches (numbers : Numbers ν) (config : AzureDevOpsConfig) (workItemsUrl : String)
    (batchCount : Nat) : Nat → List (List Int) → Adapter ν (List (Json ν))
  | _, [] => pure []
  | batchIndex, batchIds :: batches => do
    let batch := s!"azure_devops work item batch {batchIndex + 1}/{batchCount}"
    let response ← Client.mapError (fun error => s!"{batch} failed: {error}")
      (send "azure_devops" (.workItemsBatch workItemsUrl batchIds (requestedFields config)))
    let values ← Client.ofExcept (responseArray response "value" batch)
    let entries ← Client.ofExcept (itemIds numbers
      (fun index => s!"{batch} response item {index} must include a numeric id") 0 values)
    let items ← Client.ofExcept (takeItems
      (fun id => s!"{batch} did not return requested work item id {id}") batchIds
      (entryMap entries))
    return items ++ (← fetchBatches numbers config workItemsUrl batchCount (batchIndex + 1) batches)

/-- `fetch_azure_devops_work_cards`. -/
def fetchAzureDevOpsWorkCards (web : Web υ) (numbers : Numbers ν)
    (normalize : AzureDevOpsConfig → Json ν → Json ν)
    (read : Except String AzureDevOpsConfig) : Adapter ν (Payload ν) := do
  let config ← Client.ofExcept
    (read.mapError fun error => s!"azure_devops config is not valid JSON: {error}")
  if config.adapter ≠ some "azure_devops" then
    Client.ofExcept (.error "azure_devops config must set adapter to azure_devops")
  else
    let wiqlUrl := config.wiqlUrl.getD (config.endpoint "_apis/wit/wiql")
    let workItemsUrl := config.workItemsUrl.getD (config.endpoint "_apis/wit/workitemsbatch")
    Client.ofExcept (requireUrl "wiql_url" wiqlUrl)
    Client.ofExcept (requireUrl "work_items_url" workItemsUrl)
    let maxItems ← Client.ofExcept (azureMaxItems config.maxItems)
    let wiqlUrl ← Client.ofExcept (wiqlUrlWithMaxItems web wiqlUrl maxItems)
    Client.ofExcept (buildClient web "azure_devops" config.timeoutSeconds)
    let response ← Client.mapError (fun error => s!"azure_devops WIQL request failed: {error}")
      (send "azure_devops" (.wiql wiqlUrl (config.wiql.getD defaultWiql)))
    let workItems ← Client.ofExcept (responseArray response "workItems" "azure_devops WIQL")
    let snapshotComplete := decide (workItems.length < maxItems)
    let rows ← Client.ofExcept (itemIds numbers
      (fun index => s!"azure_devops WIQL response workItems item {index} must include a numeric id")
      0 workItems)
    let ids := collectIds maxItems [] [] (rows.map Prod.fst)
    -- without ids there is no batch
    let batches := chunks (workItemsBatchSize - 1) ids
    let items ← fetchBatches numbers config workItemsUrl
      ((ids.length + workItemsBatchSize - 1) / workItemsBatchSize) 0 batches
    return ⟨items.map (normalize config), some snapshotComplete⟩

/-! ## What a fetch did -/

/-- The entry of an answer that stands for an id: the last one that carries it. -/
def lastEntry (numbers : Numbers ν) (values : List (Json ν)) (id : Int) : Option (Json ν) :=
  values.reverse.find? (itemId numbers · == some id)

theorem mem_of_lastEntry {numbers : Numbers ν} {values : List (Json ν)} {id : Int} {item : Json ν}
    (h : lastEntry numbers values id = some item) : item ∈ values ∧ itemId numbers item = some id :=
  ⟨List.mem_reverse.mp (List.mem_of_find?_eq_some h),
    by simpa using List.find?_some (p := (itemId numbers · == some id)) h⟩

theorem lookup_filter_ne (map : List (Int × Json ν)) (id other : Int) :
    (map.filter (·.1 != other)).lookup id = if id = other then none else map.lookup id := by
  induction map with
  | nil => simp
  | cons e map ih =>
    obtain ⟨key, item⟩ := e
    by_cases hkey : key = other
    · subst hkey
      rw [List.filter_cons_of_neg (by simp), ih, List.lookup_cons]
      split
      · rfl
      · next hne => simp [beq_eq_false_iff_ne.mpr hne]
    · rw [List.filter_cons_of_pos (by simpa using hkey), List.lookup_cons, ih, List.lookup_cons]
      by_cases hid : id = key
      · subst hid
        simp [hkey]
      · simp [beq_eq_false_iff_ne.mpr hid]

/-- **The last entry of an id stands.** -/
theorem lookup_entryMap (entries : List (Int × Json ν)) (id : Int) :
    (entryMap entries).lookup id = entries.reverse.lookup id := by
  suffices hfold : ∀ map : List (Int × Json ν),
      (entries.foldl (fun map e => e :: map.filter (·.1 != e.1)) map).lookup id =
        (entries.reverse ++ map).lookup id by simpa [entryMap] using hfold []
  induction entries with
  | nil => exact fun _ => rfl
  | cons e entries ih =>
    intro map
    rw [List.foldl_cons, ih, List.reverse_cons, List.append_assoc, List.lookup_append,
      List.lookup_append]
    congr 1
    obtain ⟨key, item⟩ := e
    rw [List.singleton_append, List.lookup_cons, List.lookup_cons, lookup_filter_ne]
    by_cases hid : id = key
    · simp [hid]
    · simp [beq_eq_false_iff_ne.mpr hid, hid]

/-- What a read answer holds at an id. -/
theorem lookup_reverse_eq_lastEntry {numbers : Numbers ν} {entries : List (Int × Json ν)}
    (h : ∀ e ∈ entries, itemId numbers e.2 = some e.1) (id : Int) :
    entries.reverse.lookup id = lastEntry numbers (entries.map Prod.snd) id := by
  unfold lastEntry
  rw [← List.map_reverse]
  have h : ∀ e ∈ entries.reverse, itemId numbers e.2 = some e.1 := fun e he =>
    h e (List.mem_reverse.mp he)
  generalize entries.reverse = entries at h
  induction entries with
  | nil => rfl
  | cons e entries ih =>
    obtain ⟨key, item⟩ := e
    have hid : itemId numbers item = some key := h _ List.mem_cons_self
    rw [List.lookup_cons, List.map_cons, List.find?_cons, hid,
      ih fun e he => h e (List.mem_cons_of_mem _ he)]
    by_cases heq : id = key
    · simp [heq]
    · rw [beq_eq_false_iff_ne.mpr heq, beq_eq_false_iff_ne.mpr]
      simpa using Ne.symm heq

theorem takeItems_ok {absent : Int → String} {ids : List Int} {map : List (Int × Json ν)}
    {items : List (Json ν)} (h : takeItems absent ids map = .ok items) :
    List.Forall₂ (fun id item => map.lookup id = some item) ids items := by
  induction ids generalizing map items with
  | nil =>
    obtain rfl := Except.ok.inj h
    exact .nil
  | cons id ids ih =>
    unfold takeItems at h
    split at h
    · cases h
    next item hitem =>
    obtain ⟨rest, hrest, h⟩ := Json.Walk.bind_eq_ok.mp h
    obtain rfl := Except.ok.inj h
    refine .cons hitem ((ih hrest).imp ?_)
    intro other item hlookup
    rw [lookup_filter_ne] at hlookup
    split at hlookup
    · cases hlookup
    · exact hlookup

/-- **An answered batch**: an array whose entries all have an id, and the items that stand in it for
the ids that were asked for. -/
structure AnsweredBatch (numbers : Numbers ν) (ids : List Int) (x : Exchange ν)
    (items : List (Json ν)) : Prop where
  answered : ∃ url fields response values, x = (.workItemsBatch url ids fields, .answer response) ∧
    response.get "value" = some (.array values) ∧
    (∀ value ∈ values, (itemId numbers value).isSome) ∧
    List.Forall₂ (fun id item => lastEntry numbers values id = some item) ids items

theorem AnsweredBatch.map_itemId {numbers : Numbers ν} {ids : List Int} {x : Exchange ν}
    {items : List (Json ν)} (h : AnsweredBatch numbers ids x items) :
    items.map (itemId numbers) = ids.map some := by
  obtain ⟨_, _, _, values, -, -, -, hitems⟩ := h.answered
  clear h
  induction hitems with
  | nil => rfl
  | cons hitem _ ih => rw [List.map_cons, List.map_cons, (mem_of_lastEntry hitem).2, ih]

theorem responseArray_ok {response : Json ν} {name where_ : String} {items : List (Json ν)}
    (h : responseArray response name where_ = .ok items) :
    response.get name = some (.array items) := by
  unfold responseArray at h
  split at h
  · cases h
  next value hvalue =>
  split at h
  · cases h
  next items' harray =>
  obtain rfl := Except.ok.inj h
  cases value with
  | array items =>
    obtain rfl := Option.some.inj harray
    exact hvalue
  | _ => cases harray

/-- **Batches bring an item for each of their ids**, out of the answer to the batch it is in. -/
theorem fetchBatches_ok {numbers : Numbers ν} {config : AzureDevOpsConfig} {workItemsUrl : String}
    {batchCount batchIndex : Nat} {batches : List (List Int)} {server : Server Request (Reply ν)}
    {log log' : List (Exchange ν)} {items : List (Json ν)}
    (h : fetchBatches numbers config workItemsUrl batchCount batchIndex batches server log
      = (.ok items, log')) :
    ∃ read : List (List Int × Exchange ν × List (Json ν)), log' = log ++ read.map (·.2.1) ∧
      read.map (·.1) = batches ∧ items = (read.map (·.2.2)).flatten ∧
      ∀ b ∈ read, AnsweredBatch numbers b.1 b.2.1 b.2.2 := by
  induction batches generalizing batchIndex log items with
  | nil =>
    obtain ⟨rfl, rfl⟩ := Client.pure_ok.mp h
    exact ⟨[], by simp, rfl, rfl, by simp⟩
  | cons batchIds batches ih =>
    obtain ⟨response, mid, hsend, h⟩ := Client.bind_ok.mp h
    obtain rfl := send_ok (Client.mapError_ok.mp hsend)
    obtain ⟨values, hvalues, h⟩ := Client.ofExcept_bind_ok.mp h
    obtain ⟨entries, hentries, h⟩ := Client.ofExcept_bind_ok.mp h
    obtain ⟨first, hfirst, h⟩ := Client.ofExcept_bind_ok.mp h
    obtain ⟨rest, mid, hrest, h⟩ := Client.bind_ok.mp h
    obtain ⟨rfl, rfl⟩ := Client.pure_ok.mp h
    obtain ⟨read, rfl, rfl, rfl, hread⟩ := ih hrest
    obtain ⟨rfl, hids⟩ := itemIds_ok hentries
    have hbatch : AnsweredBatch numbers batchIds
        (.workItemsBatch workItemsUrl batchIds (requestedFields config), .answer response) first := by
      refine ⟨_, _, _, _, rfl, responseArray_ok hvalues, ?_, (takeItems_ok hfirst).imp ?_⟩
      · intro value hvalue
        obtain ⟨e, he, rfl⟩ := List.mem_map.mp hvalue
        rw [hids e he]
        rfl
      · intro id item hitem
        rwa [lookup_entryMap, lookup_reverse_eq_lastEntry hids] at hitem
    exact ⟨(batchIds, _, first) :: read, List.append_assoc .., rfl, rfl,
      List.forall_mem_cons.mpr ⟨hbatch, hread⟩⟩

theorem flatten_chunks {α : Type} (n : Nat) (xs : List α) : (chunks n xs).flatten = xs := by
  have haux : ∀ (xs : List α) (i : Nat), (List.toChunksAux n xs i).1 ++
      (List.toChunksAux n xs i).2.flatten = xs := by
    intro xs
    induction xs with
    | nil => exact fun _ => rfl
    | cons x xs ih =>
      intro i
      cases i with
      | zero => simpa [List.toChunksAux] using ih n
      | succ i => simpa [List.toChunksAux] using ih i
  cases xs with
  | nil => rfl
  | cons x xs => simpa [chunks] using haux xs n

/-- The names of the limit of a WIQL request. -/
def wiqlLimitNames : List String := ["$top"]

/-- **Of the URL a WIQL server reads one limit**, whatever the configured one held. -/
theorem limits_wiqlUrlWithMaxItems {web : Web υ} (hweb : web.Writes) {url sent : String}
    {maxItems : Nat} (h : wiqlUrlWithMaxItems web url maxItems = .ok sent) :
    limits wiqlLimitNames sent = [maxItems] := by
  obtain ⟨u, -, h⟩ := Json.Walk.bind_eq_ok.mp h
  obtain rfl := Except.ok.inj h
  have hname : ∀ key, wiqlLimitNames.any (Query.utf8 · == Query.utf8 key) = (key == "$top") := by
    intro key
    change (Query.utf8 "$top" == Query.utf8 key || false) = _
    rw [Bool.or_false, Bool.eq_iff_iff, beq_iff_eq, beq_iff_eq, Query.utf8_inj, eq_comm]
  have hother : ∀ ps : List (String × String), (∀ p ∈ ps, (p.1 != "$top") = true) →
      Query.numbers wiqlLimitNames (ps.map fun p => (Query.utf8 p.1, Query.utf8 p.2)) = [] := by
    intro ps hps
    induction ps with
    | nil => rfl
    | cons p ps ih =>
      have hp : (p.1 == "$top") = false := by simpa using hps p List.mem_cons_self
      rw [List.map_cons, ← List.singleton_append, Query.numbers_append, Query.numbers_singleton,
        hname, hp, ih fun q hq => hps q (List.mem_cons_of_mem p hq)]
      rfl
  rw [limits, hweb, List.map_append, Query.numbers_append,
    hother _ fun p hp => (List.mem_filter.mp hp).2]
  rw [List.map_cons, List.map_nil, Query.numbers_singleton, hname, Query.readNat_toString]
  rfl

/-- **What a fetch did**: one query under the limit, and then batches of the first distinct ids of
its rows; it is complete if the rows stay below the limit. -/
theorem fetchAzureDevOpsWorkCards_read {web : Web υ} {numbers : Numbers ν}
    {normalize : AzureDevOpsConfig → Json ν → Json ν} {read : Except String AzureDevOpsConfig}
    {server : Server Request (Reply ν)} {log log' : List (Exchange ν)} {payload : Payload ν}
    (h : fetchAzureDevOpsWorkCards web numbers normalize read server log = (.ok payload, log')) :
    ∃ (config : AzureDevOpsConfig) (maxItems : Nat) (configured url query : String)
      (response : Json ν) (rows : List (Int × Json ν))
      (batches : List (List Int × Exchange ν × List (Json ν))),
      read = .ok config ∧ azureMaxItems config.maxItems = .ok maxItems ∧
      wiqlUrlWithMaxItems web configured maxItems = .ok url ∧
      log' = log ++ (.wiql url query, .answer response) :: batches.map (·.2.1) ∧
      responseArray response "workItems" "azure_devops WIQL" = .ok (rows.map Prod.snd) ∧
      (∀ row ∈ rows, itemId numbers row.2 = some row.1) ∧
      batches.map (·.1) = chunks (workItemsBatchSize - 1)
        ((firsts [] (rows.map Prod.fst)).take maxItems) ∧
      (∀ b ∈ batches, AnsweredBatch numbers b.1 b.2.1 b.2.2) ∧
      payload = ⟨((batches.map (·.2.2)).flatten).map (normalize config),
        some (decide (rows.length < maxItems))⟩ := by
  obtain ⟨config, hread, h⟩ := Client.ofExcept_bind_ok.mp h
  split at h
  · cases (Client.ofExcept_ok.mp h).1
  obtain ⟨_, -, h⟩ := Client.ofExcept_bind_ok.mp h
  obtain ⟨_, -, h⟩ := Client.ofExcept_bind_ok.mp h
  obtain ⟨maxItems, hmax, h⟩ := Client.ofExcept_bind_ok.mp h
  obtain ⟨url, hurl, h⟩ := Client.ofExcept_bind_ok.mp h
  obtain ⟨_, -, h⟩ := Client.ofExcept_bind_ok.mp h
  obtain ⟨response, mid, hsend, h⟩ := Client.bind_ok.mp h
  obtain rfl := send_ok (Client.mapError_ok.mp hsend)
  obtain ⟨workItems, hitems, h⟩ := Client.ofExcept_bind_ok.mp h
  obtain ⟨rows, hrows, h⟩ := Client.ofExcept_bind_ok.mp h
  obtain ⟨items, mid, hbatches, h⟩ := Client.bind_ok.mp h
  obtain ⟨rfl, rfl⟩ := Client.pure_ok.mp h
  obtain ⟨batches, rfl, hids, rfl, hanswered⟩ := fetchBatches_ok hbatches
  obtain ⟨rfl, hrowIds⟩ := itemIds_ok hrows
  rw [collectIds_eq, List.nil_append, List.length_nil, Nat.sub_zero] at hids
  refine ⟨config, maxItems, _, url, _, response, rows, batches, mapError_eq_ok.mp hread, hmax,
    hurl, List.append_assoc .., hitems, hrowIds, hids, hanswered, ?_⟩
  rw [List.length_map]

/-- The items of answered batches carry the ids that were asked for. -/
theorem map_itemId_flatten {numbers : Numbers ν}
    {batches : List (List Int × Exchange ν × List (Json ν))}
    (h : ∀ b ∈ batches, AnsweredBatch numbers b.1 b.2.1 b.2.2) :
    ((batches.map (·.2.2)).flatten).map (itemId numbers) = (batches.map (·.1)).flatten.map some := by
  rw [List.map_flatten, List.map_flatten, List.map_map, List.map_map]
  exact congrArg List.flatten (List.map_congr_left fun b hb => (h b hb).map_itemId)

/-- The same, of the ids alone. -/
theorem fetchAzureDevOpsWorkCards_ok {web : Web υ} {numbers : Numbers ν}
    {normalize : AzureDevOpsConfig → Json ν → Json ν} {read : Except String AzureDevOpsConfig}
    {server : Server Request (Reply ν)} {log log' : List (Exchange ν)} {payload : Payload ν}
    (h : fetchAzureDevOpsWorkCards web numbers normalize read server log = (.ok payload, log')) :
    ∃ (config : AzureDevOpsConfig) (maxItems : Nat) (configured url query : String)
      (response : Json ν) (rows : List (Int × Json ν)) (exchanges : List (Exchange ν))
      (items : List (Json ν)),
      read = .ok config ∧ wiqlUrlWithMaxItems web configured maxItems = .ok url ∧
      log' = log ++ (.wiql url query, .answer response) :: exchanges ∧
      responseArray response "workItems" "azure_devops WIQL" = .ok (rows.map Prod.snd) ∧
      (∀ row ∈ rows, itemId numbers row.2 = some row.1) ∧
      items.map (itemId numbers) = ((firsts [] (rows.map Prod.fst)).take maxItems).map some ∧
      payload = ⟨items.map (normalize config), some (decide (rows.length < maxItems))⟩ := by
  obtain ⟨config, maxItems, configured, url, query, response, rows, batches, hread, -, hurl, hlog,
    hrows, hrowIds, hids, hanswered, hpayload⟩ := fetchAzureDevOpsWorkCards_read h
  have hitems := map_itemId_flatten hanswered
  rw [hids, flatten_chunks] at hitems
  exact ⟨config, maxItems, configured, url, query, response, rows, _, _, hread, hurl, hlog, hrows,
    hrowIds, hitems, hpayload⟩

end DevPortal
