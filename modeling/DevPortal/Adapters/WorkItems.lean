import Mathlib
import DevPortal.Adapters.AzureDevOps
import DevPortal.Adapters.Fields

/-!
# Adapters/WorkItems — the work cards of a fetch are exactly the ids that were listed

    listed ids ▸ the first `max_items` distinct ones ▸ batches ▸ one card for each, in that order

A card is built from the entry that its batch returned for its id, so its `external_id` is the id
(`externalId_normalizeAzureWorkItem`).  A batch that is not answered in full leaves no card at all.
-/

namespace DevPortal

variable {ν υ : Type}

/-! ## A work card -/

/-- `assignee_display_name`. -/
def assigneeDisplayName (value : Json ν) : Option String :=
  (value.get "displayName").bind Json.asStr <|> value.asStr

/-- `assignee_source_descriptor`. -/
def assigneeSourceDescriptor (value : Json ν) : Option String :=
  ["descriptor", "id"].findSome? fun name =>
    ((value.get name).bind Json.asStr).bind Text.trimmed?

/-- `normalize_azure_state`. -/
def normalizeAzureState (state : String) : String :=
  let state := state.toLower
  if state ∈ ["done", "closed", "removed"] then "done"
  else if state = "blocked" then "blocked"
  else if state ∈ ["active", "committed", "in progress", "resolved"] then "in_progress"
  else "todo"

/-- `normalize_azure_priority`. -/
def normalizeAzurePriority (priority : Option Int) : String :=
  if priority = some 1 then "urgent"
  else if priority = some 2 then "high"
  else if priority = some 3 then "medium"
  else "low"

/-- The id of a card: that of its work item. -/
def workItemId (numbers : Numbers ν) (item : Json ν) : Int := (itemId numbers item).getD 0

/-- `fields`, of a work item. -/
def workItemFields (item : Json ν) : Json ν := (item.get "fields").getD .null

/-- A text among the fields of a work item. -/
def workItemText (item : Json ν) (name : String) : Option String :=
  ((workItemFields item).get name).bind Json.asStr

/-- The status of a card: a lane may block it. -/
def workItemStatus (item : Json ν) : String :=
  if (workItemText item "System.BoardLane").any (·.toLower == "blocked") then "blocked"
  else normalizeAzureState ((workItemText item "System.State").getD "New")

/-- The text of the configured due date, as the source has it. -/
def workItemDueAt (config : AzureDevOpsConfig) (item : Json ν) : Option String :=
  (config.dueDateField.bind Text.trimmed?).bind (workItemText item)

/-- The link of a work item, or one under the configured base. -/
def workItemUrl (numbers : Numbers ν) (config : AzureDevOpsConfig) (item : Json ν) :
    Option String :=
  textAt item ["_links", "html", "href"] <|>
    config.webUrlBase.map fun base =>
      let base := Text.trimEndMatches base '/'
      let id := workItemId numbers item
      s!"{base}/{id}"

/-- `normalize_azure_work_item`. -/
def normalizeAzureWorkItem (numbers : ItemNumbers ν) (config : AzureDevOpsConfig)
    (item : Json ν) : Json ν :=
  let assignedTo := (workItemFields item).get "System.AssignedTo"
  let assigneeSourceId := assignedTo.bind assigneeSourceDescriptor
  let assigneeUserId := assigneeSourceId.bind (List.lookup · config.assigneeUserMappings)
  let priority := ((workItemFields item).get "Microsoft.VSTS.Common.Priority").bind
    (asI64 numbers.toNumbers)
  .object [
    ("external_id", .str (toString (workItemId numbers.toNumbers item))),
    ("title", .str ((workItemText item "System.Title").getD "Untitled work item")),
    ("status", .str (workItemStatus item)),
    ("priority", .str (normalizeAzurePriority priority)),
    ("assignee", optionalText (assignedTo.bind assigneeDisplayName)),
    ("project", optionalText (workItemText item "System.TeamProject")),
    ("work_item_type", optionalText (workItemText item "System.WorkItemType")),
    ("assignee_source_id", optionalText assigneeSourceId),
    ("assignee_user_id", (assigneeUserId.map (.number ∘ numbers.ofI32)).getD .null),
    ("due_at", optionalText (workItemDueAt config item)),
    ("source_updated_at", optionalText (workItemText item "System.ChangedDate")),
    ("url", optionalText (workItemUrl numbers.toNumbers config item))]

/-- The `external_id` of an item of a payload. -/
def externalIdOf (item : Json ν) : Option String := (item.get "external_id").bind Json.asStr

/-- **A card carries the id of its work item.** -/
theorem externalId_normalizeAzureWorkItem {numbers : ItemNumbers ν} {config : AzureDevOpsConfig}
    {item : Json ν} {id : Int} (h : itemId numbers.toNumbers item = some id) :
    externalIdOf (normalizeAzureWorkItem numbers config item) = some (toString id) := by
  have hid : workItemId numbers.toNumbers item = id := by rw [workItemId, h, Option.getD_some]
  change some (toString (workItemId numbers.toNumbers item)) = _
  rw [hid]

/-! ## Distinct ids -/

theorem firsts_eq (seen rows : List Int) :
    firsts seen rows = (rows.filter (· ∉ seen)).eraseDups := by
  induction rows generalizing seen with
  | nil => rfl
  | cons id rows ih =>
    unfold firsts
    split
    · next hseen => rw [ih, List.filter_cons_of_neg (by simpa using hseen)]
    · next hnew =>
      rw [ih, List.filter_cons_of_pos (by simpa using hnew), List.eraseDups_cons,
        List.filter_filter]
      congr 2
      refine List.filter_congr fun other _ => ?_
      rw [Bool.eq_iff_iff]
      simp [not_or]

/-- The values not seen, at their first places. -/
theorem firsts_nil_eq (rows : List Int) : firsts [] rows = rows.eraseDups := by
  rw [firsts_eq]
  simp

theorem nodup_firsts (seen rows : List Int) :
    (firsts seen rows).Nodup ∧ ∀ id ∈ firsts seen rows, id ∉ seen := by
  induction rows generalizing seen with
  | nil => exact ⟨List.nodup_nil, nofun⟩
  | cons id rows ih =>
    unfold firsts
    split
    · exact ih seen
    next hnew =>
    obtain ⟨hnodup, hout⟩ := ih (id :: seen)
    refine ⟨List.nodup_cons.mpr ⟨fun hmem => hout id hmem List.mem_cons_self, hnodup⟩, ?_⟩
    intro other hother
    rcases List.mem_cons.mp hother with rfl | hother
    · exact hnew
    · exact fun hseen => hout other hother (List.mem_cons_of_mem _ hseen)

/-! ## Batches that are not answered in full -/

/-- **What makes a batch useless**: no JSON came back, no array, an entry without an id, or no entry
for an id that was asked for. -/
inductive BadBatch (numbers : Numbers ν) (ids : List Int) : Reply ν → Prop
  | unanswered {reply : Reply ν} (h : ∀ value, reply ≠ .answer value) : BadBatch numbers ids reply
  | noArray {response : Json ν} (h : ∀ values, response.get "value" ≠ some (.array values)) :
    BadBatch numbers ids (.answer response)
  | noId {response : Json ν} {values : List (Json ν)} {value : Json ν}
      (h : response.get "value" = some (.array values)) (hmem : value ∈ values)
      (hid : itemId numbers value = none) : BadBatch numbers ids (.answer response)
  | omitted {response : Json ν} {values : List (Json ν)} {id : Int}
      (h : response.get "value" = some (.array values)) (hid : id ∈ ids)
      (homitted : ∀ value ∈ values, itemId numbers value ≠ some id) :
      BadBatch numbers ids (.answer response)

theorem exists_of_forall₂ {α β : Type} {R : α → β → Prop} {as : List α} {bs : List β}
    (h : List.Forall₂ R as bs) {a : α} (ha : a ∈ as) : ∃ b ∈ bs, R a b := by
  induction h with
  | nil => cases ha
  | cons hab _ ih =>
    rcases List.mem_cons.mp ha with rfl | ha
    · exact ⟨_, List.mem_cons_self, hab⟩
    · obtain ⟨b, hb, hR⟩ := ih ha
      exact ⟨b, List.mem_cons_of_mem _ hb, hR⟩

/-- A batch that was answered is not bad. -/
theorem AnsweredBatch.not_bad {numbers : Numbers ν} {url : String} {ids asked : List Int}
    {fields : List String} {reply : Reply ν} {items : List (Json ν)}
    (h : AnsweredBatch numbers asked (.workItemsBatch url ids fields, reply) items) :
    ¬ BadBatch numbers ids reply := by
  obtain ⟨_, _, response, values, heq, hvalues, hids, hitems⟩ := h.answered
  obtain ⟨hrequest, rfl⟩ := Prod.mk.inj heq
  obtain ⟨-, rfl, -⟩ := Request.workItemsBatch.inj hrequest
  intro hbad
  cases hbad with
  | unanswered h => exact h response rfl
  | noArray h => exact h values hvalues
  | noId h hmem hid =>
    obtain rfl := Json.array.inj (Option.some.inj (hvalues.symm.trans h))
    have hsome := hids _ hmem
    rw [hid] at hsome
    cases hsome
  | @omitted _ _ id h hid homitted =>
    obtain rfl := Json.array.inj (Option.some.inj (hvalues.symm.trans h))
    obtain ⟨item, -, hentry⟩ := exists_of_forall₂ hitems hid
    exact homitted item (mem_of_lastEntry hentry).1 (mem_of_lastEntry hentry).2

/-! ## Requests -/

theorem sends_send (what : String) (request : Request) :
    Client.Sends (fun _ => True) (send what request : Adapter ν (Json ν)) :=
  (Client.Sends.ask trivial).bind fun _ => .ofExcept _ _

theorem sends_fetchBatches (numbers : Numbers ν) (config : AzureDevOpsConfig)
    (workItemsUrl : String) (batchCount batchIndex : Nat) (batches : List (List Int)) :
    Client.Sends (fun _ => True)
      (fetchBatches numbers config workItemsUrl batchCount batchIndex batches) := by
  induction batches generalizing batchIndex with
  | nil => exact .pure _ _
  | cons batchIds batches ih =>
    exact (sends_send _ _).mapError.bind fun _ => (Client.Sends.ofExcept _ _).bind fun _ =>
      (Client.Sends.ofExcept _ _).bind fun _ => (Client.Sends.ofExcept _ _).bind fun _ =>
        (ih _).bind fun _ => .pure _ _

theorem sends_fetchAzureDevOpsWorkCards (web : Web υ) (numbers : Numbers ν)
    (normalize : AzureDevOpsConfig → Json ν → Json ν) (read : Except String AzureDevOpsConfig) :
    Client.Sends (fun _ => True) (fetchAzureDevOpsWorkCards web numbers normalize read) := by
  refine (Client.Sends.ofExcept _ _).bind fun config => ?_
  split
  · exact .ofExcept _ _
  · exact (Client.Sends.ofExcept _ _).bind fun _ => (Client.Sends.ofExcept _ _).bind fun _ =>
      (Client.Sends.ofExcept _ _).bind fun _ => (Client.Sends.ofExcept _ _).bind fun _ =>
        (Client.Sends.ofExcept _ _).bind fun _ => (sends_send _ _).mapError.bind fun _ =>
          (Client.Sends.ofExcept _ _).bind fun _ => (Client.Sends.ofExcept _ _).bind fun _ =>
            (sends_fetchBatches _ _ _ _ _ _).bind fun _ => .pure _ _

/-! ## The cards of a fetch -/

/-- A card built from the entry of a batch that carries an id. -/
def BuiltFrom (numbers : ItemNumbers ν) (config : AzureDevOpsConfig) (batches : List (Exchange ν))
    (id : Int) (item : Json ν) : Prop :=
  ∃ url ids fields response values entry,
    ((.workItemsBatch url ids fields, .answer response) : Exchange ν) ∈ batches ∧
    response.get "value" = some (.array values) ∧ entry ∈ values ∧
    itemId numbers.toNumbers entry = some id ∧ item = normalizeAzureWorkItem numbers config entry

/-- **An exact payload** of listed ids: a card for each of the first `maxItems` distinct ones, in
their order, built from an entry with that id; and it is complete just if the list stays below
`maxItems`, where every listed id has a card. -/
structure ExactWorkItems (numbers : ItemNumbers ν) (config : AzureDevOpsConfig) (maxItems : Nat)
    (listed : List Int) (batches : List (Exchange ν)) (payload : Payload ν) : Prop where
  externalIds : payload.items.map externalIdOf =
    (listed.eraseDups.take maxItems).map fun id => some (toString id)
  nodup : (payload.items.map externalIdOf).Nodup
  built : List.Forall₂ (BuiltFrom numbers config batches) (listed.eraseDups.take maxItems)
    payload.items
  complete_iff : payload.snapshotComplete = some true ↔ listed.length < maxItems
  all_listed : payload.snapshotComplete = some true →
    ∀ id ∈ listed, some (toString id) ∈ payload.items.map externalIdOf

/-- The items of answered batches, as cards. -/
theorem built_flatten {numbers : ItemNumbers ν} (config : AzureDevOpsConfig)
    {batches read : List (List Int × Exchange ν × List (Json ν))} (hread : ∀ b ∈ batches, b ∈ read)
    (h : ∀ b ∈ batches, AnsweredBatch numbers.toNumbers b.1 b.2.1 b.2.2) :
    List.Forall₂ (BuiltFrom numbers config (read.map (·.2.1))) (batches.map (·.1)).flatten
      (((batches.map (·.2.2)).flatten).map (normalizeAzureWorkItem numbers config)) := by
  induction batches with
  | nil => exact .nil
  | cons b batches ih =>
    rw [List.map_cons, List.flatten_cons, List.map_cons, List.flatten_cons, List.map_append]
    refine List.rel_append ?_ (ih (fun b' hb' => hread b' (List.mem_cons_of_mem _ hb'))
      fun b' hb' => h b' (List.mem_cons_of_mem _ hb'))
    have hmem : b.2.1 ∈ read.map (·.2.1) := List.mem_map_of_mem (hread b List.mem_cons_self)
    obtain ⟨url, fields, response, values, hx, hvalues, -, hitems⟩ :=
      (h b List.mem_cons_self).answered
    rw [hx] at hmem
    rw [List.forall₂_map_right_iff]
    refine hitems.imp fun id entry hentry => ?_
    obtain ⟨hentry, hid⟩ := mem_of_lastEntry hentry
    exact ⟨url, _, fields, response, values, entry, hmem, hvalues, hentry, hid, rfl⟩

/-- Cards built for ids carry them. -/
theorem map_externalIdOf {numbers : ItemNumbers ν} {config : AzureDevOpsConfig}
    {batches : List (Exchange ν)} {ids : List Int} {items : List (Json ν)}
    (h : List.Forall₂ (BuiltFrom numbers config batches) ids items) :
    items.map externalIdOf = ids.map fun id => some (toString id) := by
  induction h with
  | nil => rfl
  | cons hbuilt _ ih =>
    obtain ⟨_, _, _, _, _, entry, -, -, -, hid, rfl⟩ := hbuilt
    rw [List.map_cons, List.map_cons, ih, externalId_normalizeAzureWorkItem hid]

/-- The cards of distinct ids below a limit. -/
theorem ExactWorkItems.of_built {numbers : ItemNumbers ν} {config : AzureDevOpsConfig}
    {maxItems : Nat} {listed : List Int} {batches : List (Exchange ν)} {items : List (Json ν)}
    (h : List.Forall₂ (BuiltFrom numbers config batches) (listed.eraseDups.take maxItems) items) :
    ExactWorkItems numbers config maxItems listed batches
      ⟨items, some (decide (listed.length < maxItems))⟩ where
  externalIds := map_externalIdOf h
  nodup := by
    have hnodup : (listed.eraseDups.take maxItems).Nodup := by
      rw [← firsts_nil_eq]
      exact (nodup_firsts [] listed).1.sublist (List.take_sublist _ _)
    rw [map_externalIdOf h]
    exact hnodup.map fun _ _ heq => Int.repr_inj.mp (Option.some.inj heq)
  built := h
  complete_iff := by simp
  all_listed := by
    intro hcomplete id hid
    have hlt : listed.length < maxItems := by simpa using hcomplete
    have hlen := length_firsts_le [] listed
    rw [firsts_nil_eq] at hlen
    have hall : listed.eraseDups.take maxItems = listed.eraseDups :=
      List.take_of_length_le (by omega)
    rw [map_externalIdOf h, hall]
    exact List.mem_map.mpr ⟨id, List.mem_eraseDups.mpr hid, rfl⟩

/-- **A fetch is exact**: a payload has the cards of the listed ids under the accepted limit, and a
batch that is not answered in full leaves no payload. -/
theorem fetchAzureDevOpsWorkCards_exact {web : Web υ} {numbers : ItemNumbers ν}
    {read : Except String AzureDevOpsConfig} {server : Server Request (Reply ν)}
    {log log' : List (Exchange ν)} {result : Except String (Payload ν)}
    (h : fetchAzureDevOpsWorkCards web numbers.toNumbers (normalizeAzureWorkItem numbers) read
      server log = (result, log')) :
    ∃ exchanges, log' = log ++ exchanges ∧
      (∀ payload, result = .ok payload →
        ∃ config maxItems url query response rows listed batches,
          read = .ok config ∧ azureMaxItems config.maxItems = .ok maxItems ∧
          exchanges = (.wiql url query, .answer response) :: batches ∧
          response.get "workItems" = some (.array rows) ∧
          rows.map (itemId numbers.toNumbers) = listed.map some ∧
          ExactWorkItems numbers config maxItems listed batches payload) ∧
      ((∃ url ids fields reply, ((.workItemsBatch url ids fields, reply) : Exchange ν) ∈ exchanges ∧
        BadBatch numbers.toNumbers ids reply) → ∃ error, result = .error error) := by
  obtain ⟨exchanges, hlog, -⟩ := sends_fetchAzureDevOpsWorkCards web numbers.toNumbers
    (normalizeAzureWorkItem numbers) read server log
  rw [h] at hlog
  refine ⟨exchanges, hlog, ?_, ?_⟩
  · rintro payload rfl
    obtain ⟨config, maxItems, _, url, query, response, rows, batches, hread, hmax, -, hlog', hrows,
      hrowIds, hids, hanswered, rfl⟩ := fetchAzureDevOpsWorkCards_read h
    refine ⟨config, maxItems, url, query, response, _, rows.map Prod.fst, _, hread, hmax,
      List.append_cancel_left (hlog.symm.trans hlog'), responseArray_ok hrows, ?_, ?_⟩
    · rw [List.map_map, List.map_map]
      exact List.map_congr_left hrowIds
    · have hbuilt := built_flatten config (fun b (hb : b ∈ batches) => hb) hanswered
      rw [hids, flatten_chunks, firsts_nil_eq] at hbuilt
      simpa using ExactWorkItems.of_built hbuilt
  · rintro ⟨url, ids, fields, reply, hmem, hbad⟩
    cases result with
    | error error => exact ⟨error, rfl⟩
    | ok payload =>
      obtain ⟨_, _, _, _, _, _, _, batches, -, -, -, hlog', -, -, -, hanswered, -⟩ :=
        fetchAzureDevOpsWorkCards_read h
      obtain rfl := List.append_cancel_left (hlog.symm.trans hlog')
      rcases List.mem_cons.mp hmem with heq | hmem
      · cases heq
      obtain ⟨b, hb, heq⟩ := List.mem_map.mp hmem
      have hbatch := hanswered b hb
      rw [heq] at hbatch
      exact (hbatch.not_bad hbad).elim

namespace Sample

/-- Numbers that are integers. -/
def itemNumbers : ItemNumbers Int where
  asI64 := some
  text := toString
  ofI32 := fun n => n
  asI64_ofI32 := fun _ _ => rfl

/-- A library that takes the URLs of the example as they are. -/
def boardWeb : Web String where
  build := fun _ => .ok ()
  headerName := fun _ => true
  parse := .ok
  join := fun _ link => .ok link
  withoutFragment := fun url => url
  text := fun url => url
  scheme := fun _ => "https"
  host := fun _ => some "board.test"
  port := fun _ => some 443
  queryPairs := fun _ => []
  withQueryPairs := fun _ url => url

/-- A board with two work items. -/
def boardConfig : AzureDevOpsConfig where
  adapter := some "azure_devops"
  wiqlUrl := some "https://board.test/wiql"
  workItemsUrl := some "https://board.test/batch"
  maxItems := some 4

/-- The list names one of them twice; the batch returns them in another order, with one more. -/
def boardServer : Server Request (Reply Int) := fun _ request =>
  let entry (id : Int) : Json Int := .object [("id", .number id)]
  match request with
  | .wiql _ _ => .answer (.object [("workItems", .array [entry 7, entry 5, entry 7])])
  | _ => .answer (.object [("value", .array [entry 5, entry 9, entry 7])])

/-- The fetch of the board. -/
def boardFetch : Except String (Payload Int) × List (Exchange Int) :=
  fetchAzureDevOpsWorkCards boardWeb itemNumbers.toNumbers (normalizeAzureWorkItem itemNumbers)
    (.ok boardConfig) boardServer []

end Sample

/-- At a board with a repeated id and a surplus entry: two cards, in the order of the list. -/
theorem exact_board :
    (∃ payload, Sample.boardFetch.1 = .ok payload ∧
      payload.items.map externalIdOf = [some "7", some "5"] ∧
      payload.snapshotComplete = some true) ∧
    ∃ exchanges, Sample.boardFetch.2 = [] ++ exchanges ∧
      (∀ payload, Sample.boardFetch.1 = .ok payload →
        ∃ config maxItems url query response rows listed batches,
          Except.ok Sample.boardConfig = (.ok config : Except String AzureDevOpsConfig) ∧
          azureMaxItems config.maxItems = .ok maxItems ∧
          exchanges = (.wiql url query, .answer response) :: batches ∧
          response.get "workItems" = some (.array rows) ∧
          rows.map (itemId Sample.itemNumbers.toNumbers) = listed.map some ∧
          ExactWorkItems Sample.itemNumbers config maxItems listed batches payload) ∧
      ((∃ url ids fields reply,
        ((.workItemsBatch url ids fields, reply) : Exchange Int) ∈ exchanges ∧
          BadBatch Sample.itemNumbers.toNumbers ids reply) →
        ∃ error, Sample.boardFetch.1 = .error error) := by
  have hfetch : fetchAzureDevOpsWorkCards Sample.boardWeb Sample.itemNumbers.toNumbers
      (normalizeAzureWorkItem Sample.itemNumbers) (.ok Sample.boardConfig) Sample.boardServer []
      = (Sample.boardFetch.1, Sample.boardFetch.2) := rfl
  exact ⟨⟨_, rfl, rfl, rfl⟩, fetchAzureDevOpsWorkCards_exact hfetch⟩

end DevPortal
