import DevPortal.Machinery.Client
import DevPortal.Machinery.Json
import DevPortal.Machinery.Query
import DevPortal.Machinery.Text

/-!
# Adapters/Shared — what the adapters of a connector have in common

An adapter is a client: it asks the source for its items and makes a payload of them.  The HTTP
library is a parameter (`Web`); of the URL it sends, a server reads the query
(`limits_appendQueryParams`).
-/

namespace DevPortal

variable {ν υ : Type}

/-! ## Requests and replies -/

/-- A request, without its credentials. -/
inductive Request
  | get (url : String)
  | refresh (url : String) (form : List (String × String))
  | wiql (url query : String)
  | workItemsBatch (url : String) (ids : List Int) (fields : List String)
  deriving DecidableEq

/-- What comes back: nothing, a status that is no success, a body that is no JSON, or a value. -/
inductive Reply (ν : Type)
  | lost (error : String)
  | refused (status body : String)
  | unreadable (error : String)
  | answer (value : Json ν)

abbrev Exchange (ν : Type) := Request × Reply ν

/-- An adapter's program. -/
abbrev Adapter (ν α : Type) := Client Request (Reply ν) String α

theorem mapError_eq_ok {ε ε' α : Type} {f : ε → ε'} {x : Except ε α} {a : α} :
    x.mapError f = .ok a ↔ x = .ok a := by
  cases x <;> simp [Except.mapError]

theorem except_map_eq_ok {ε α β : Type} {f : α → β} {x : Except ε α} {b : β} :
    x.map f = .ok b ↔ ∃ a, x = .ok a ∧ f a = b := by
  cases x <;> simp [Except.map]

/-- The value of a reply, for an error that names what was asked. -/
def Reply.json (what : String) : Reply ν → Except String (Json ν)
  | lost error => .error s!"{what} request failed: {error}"
  | refused status body => .error s!"{what} request returned {status}: {body}"
  | unreadable error => .error s!"{what} response was not valid JSON: {error}"
  | answer value => .ok value

/-- A request whose reply must be a value. -/
def send (what : String) (request : Request) : Adapter ν (Json ν) := do
  let reply ← Client.ask request
  Client.ofExcept (reply.json what)

theorem Reply.json_ok {what : String} {reply : Reply ν} {value : Json ν} :
    reply.json what = .ok value ↔ reply = .answer value := by
  cases reply <;> simp [Reply.json]

/-- A request succeeds iff it is answered; its exchange is added then. -/
theorem send_eq_ok {what : String} {request : Request} {server : Server Request (Reply ν)}
    {log log' : List (Exchange ν)} {value : Json ν} :
    send what request server log = (.ok value, log')
      ↔ server log request = .answer value ∧ log' = log ++ [(request, .answer value)] := by
  constructor
  · intro h
    obtain ⟨reply, mid, hask, hjson⟩ := Client.bind_ok.mp h
    obtain ⟨hreply, rfl⟩ := Client.ask_ok.mp hask
    obtain ⟨hvalue, rfl⟩ := Client.ofExcept_ok.mp hjson
    obtain rfl := Reply.json_ok.mp hvalue
    exact ⟨hreply, rfl⟩
  · rintro ⟨hreply, rfl⟩
    exact Client.bind_ok.mpr ⟨_, _, Client.ask_ok.mpr ⟨hreply, rfl⟩,
      Client.ofExcept_ok.mpr ⟨Reply.json_ok.mpr rfl, rfl⟩⟩

theorem send_ok {what : String} {request : Request} {server : Server Request (Reply ν)}
    {log log' : List (Exchange ν)} {value : Json ν}
    (h : send what request server log = (.ok value, log')) :
    log' = log ++ [(request, .answer value)] := (send_eq_ok.mp h).2

/-! ## The HTTP library -/

/-- What the adapters use of `reqwest`: a client with a timeout, header names, and URLs. -/
structure Web (υ : Type) where
  build : Nat → Except String Unit
  headerName : String → Bool
  parse : String → Except String υ
  join : υ → String → Except String υ
  withoutFragment : υ → υ
  text : υ → String
  scheme : υ → String
  host : υ → Option String
  port : υ → Option Nat
  queryPairs : υ → List (String × String)
  withQueryPairs : List (String × String) → υ → υ

/-- Pairs written into a URL are the pairs read off it. -/
def Web.Writes (web : Web υ) : Prop :=
  ∀ ps u, Query.pairs (web.text (web.withQueryPairs ps u)).toList =
    ps.map fun p => (Query.utf8 p.1, Query.utf8 p.2)

/-- `timeout_seconds`, for the client. -/
def clientTimeout (timeoutSeconds : Option Nat) : Nat := max (timeoutSeconds.getD 15) 1

/-- `Client::builder`, for the adapter. -/
def buildClient (web : Web υ) (adapter : String) (timeoutSeconds : Option Nat) :
    Except String Unit :=
  (web.build (clientTimeout timeoutSeconds)).mapError fun error =>
    s!"{adapter} HTTP client could not be built: {error}"

/-! ## The clock -/

/-- The instants an adapter asks for, as `format_graph_datetime` writes them: now, some hours before
now, some seconds after now, and some hours after the instant a text names, or after now if it names
none; and how many seconds from now a text says a token expires.  Not every number of seconds leads
to an instant: `reaches` says which do, and the addition panics for the others. -/
structure AdapterClock where
  now : String
  hoursAgo : Int → String
  secondsAfter : Int → String
  reaches : Int → Bool
  hoursAfter : String → Int → String
  expiresIn : String → Option Int

/-- `clamp`, of a number of hours. -/
def clampHours (hours most : Int) : Int := max 1 (min hours most)

/-! ## URLs -/

/-- `require_url`. -/
def requireUrl (field url : String) : Except String Unit :=
  if Text.startsWith url "http://" || Text.startsWith url "https://" then .ok ()
  else .error s!"{field} must be an absolute HTTP URL"

/-- `encode_url_component`. -/
def encodeUrlComponent (value : String) : String := String.ofList (Query.encode value)

/-- What stands before the first parameter. -/
def querySeparator (url : String) : String :=
  if '?' ∈ url.toList then
    if url.toList.getLast? = some '?' || url.toList.getLast? = some '&' then "" else "&"
  else "?"

/-- The loop of `append_query_params`, with the separator it carries. -/
def appendParams (url separator : String) : List (String × String) → String
  | [] => url
  | (key, value) :: params =>
    appendParams (url ++ separator ++ encodeUrlComponent key ++ "=" ++ encodeUrlComponent value)
      "&" params

/-- `append_query_params`. -/
def appendQueryParams (baseUrl : String) (params : List (String × String)) : String :=
  appendParams baseUrl (querySeparator baseUrl) params

/-! ## The limits a server reads -/

/-- The limits that stand in a URL under the given names. -/
def limits (names : List String) (url : String) : List Nat :=
  Query.numbers names (Query.pairs url.toList)

theorem appendParams_cons (url separator : String) (p : String × String)
    (params : List (String × String)) :
    (appendParams url separator (p :: params)).toList =
      url.toList ++ separator.toList ++ Query.written (p :: params) := by
  induction params generalizing url separator p with
  | nil => simp [appendParams, encodeUrlComponent, Query.written, Query.word]
  | cons p' params ih =>
    rw [appendParams, ih]
    simp [encodeUrlComponent, Query.written, Query.word, List.intercalate_cons_cons]

/-- A base URL the parameters can be read behind: no fragment swallows them, and a query does not
end with a `?` of its own. -/
def Joinable (baseUrl : String) : Prop :=
  '#' ∉ baseUrl.toList ∧ (Query.query baseUrl.toList).getLast? ≠ some '?'

/-- The last character of a query is that of the URL. -/
theorem getLast?_query {url : List Char} (hfrag : '#' ∉ url) (hne : Query.query url ≠ []) :
    (Query.query url).getLast? = url.getLast? := by
  have htake : url.takeWhile (· != '#') = url :=
    List.takeWhile_eq_self_iff.mpr fun c hc => bne_iff_ne.mpr fun e => hfrag (e ▸ hc)
  have hsuffix : Query.query url <:+ url := by
    unfold Query.query
    rw [htake]
    exact (List.tail_suffix _).trans (List.dropWhile_suffix _)
  obtain ⟨start, hstart⟩ := hsuffix
  have hlast := List.getLast?_append_of_ne_nil start hne
  rw [← hlast, hstart]

/-- **The parameters are read behind those of the base URL.** -/
theorem pairs_appendQueryParams {baseUrl : String} (h : Joinable baseUrl)
    (params : List (String × String)) :
    Query.pairs (appendQueryParams baseUrl params).toList =
      Query.pairs baseUrl.toList ++ params.map fun p => (Query.utf8 p.1, Query.utf8 p.2) := by
  obtain ⟨hfrag, hquery⟩ := h
  rcases params with _ | ⟨p, params⟩
  · simp [appendQueryParams, appendParams]
  rw [appendQueryParams, appendParams_cons, querySeparator]
  by_cases hq : '?' ∈ baseUrl.toList
  · rw [if_pos hq]
    split
    next hend =>
      have hopen : Query.query baseUrl.toList = [] ∨
          ∃ start, Query.query baseUrl.toList = start ++ ['&'] := by
        rcases eq_or_ne (Query.query baseUrl.toList) [] with hnil | hne
        · exact Or.inl hnil
        rw [getLast?_query hfrag hne] at hquery
        have hamp : baseUrl.toList.getLast? = some '&' := by simpa [hquery] using hend
        rw [← getLast?_query hfrag hne] at hamp
        exact Or.inr (List.getLast?_eq_some_iff.mp hamp)
      simpa using Query.pairs_append_open hfrag (p :: params) hq hopen
    next => simpa using Query.pairs_append_amp hfrag (p :: params) hq
  · have hbase : Query.pairs baseUrl.toList = [] := by
      have hfree : ∀ c ∈ baseUrl.toList.takeWhile (· != '#'), (c != '?') = true := fun c hc =>
        bne_iff_ne.mpr fun e => hq (e ▸ (List.takeWhile_prefix _).subset hc)
      simp [Query.pairs, Query.query, List.dropWhile_eq_nil_iff.mpr hfree, Query.words]
    rw [if_neg hq, hbase]
    simpa using Query.pairs_append_question hfrag (p :: params) hq

/-- The limits of a request are those of its base URL and those of its parameters. -/
theorem limits_appendQueryParams {baseUrl : String} (h : Joinable baseUrl) (names : List String)
    (params : List (String × String)) :
    limits names (appendQueryParams baseUrl params) =
      limits names baseUrl ++
        Query.numbers names (params.map fun p => (Query.utf8 p.1, Query.utf8 p.2)) := by
  rw [limits, pairs_appendQueryParams h, Query.numbers_append, limits]

/-! ## Fields of an item -/

/-- What the adapters ask a number: its `i64`, and its text. -/
structure Numbers (ν : Type) where
  asI64 : ν → Option Int
  text : ν → String

/-- `field`: the first name that is present. -/
def field (item : Json ν) (names : List String) : Option (Json ν) := names.findSome? item.get

/-- `scalar_to_string`. -/
def scalarToString (numbers : Numbers ν) : Json ν → Option String
  | .str value => some value
  | .number value => some (numbers.text value)
  | _ => none

/-- `field_string`. -/
def fieldString (numbers : Numbers ν) (item : Json ν) (names : List String) : Option String :=
  ((field item names).bind (scalarToString numbers)).bind Text.trimmed?

/-- `field_bool`. -/
def fieldBool (numbers : Numbers ν) (item : Json ν) (names : List String) : Option Bool :=
  (field item names).bind fun
    | .bool value => some value
    | .number value => (numbers.asI64 value).map (· != 0)
    | .str value =>
      let value := (Text.trim value).toLower
      if value ∈ ["true", "yes", "1"] then some true
      else if value ∈ ["false", "no", "0"] then some false
      else none
    | _ => none

/-! ## Payloads -/

/-- The payload of an adapter. -/
structure Payload (ν : Type) where
  items : List (Json ν)
  snapshotComplete : Option Bool

/-- `ConnectorAdapterResult`. -/
structure ConnectorAdapterResult (ν : Type) where
  payload : Option (Payload ν)
  updatedConfig : Option String

/-- `adapter_payload`. -/
def adapterPayload (payload : Payload ν) : ConnectorAdapterResult ν := ⟨some payload, none⟩

end DevPortal
