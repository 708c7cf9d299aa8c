import DevPortal.Frontend.Routing
import DevPortal.Machinery.Text

/-!
# Frontend/ReturnTo — the route across sign-in

    hash ──safeReturnToFromHash──▸ /#route?k=v&… ──normalize_return_to──▸ the same, or /#dashboard

The browser bounds the hash it was given and writes its query again; the server bounds what it
receives, by octets and by an alphabet of its own.  Writing a query again makes it longer, and an
asterisk is written as it is although the server does not know it.  So a route comes back just if no
value it keeps has an asterisk and what it writes fits (`normalizeReturnTo_fragment`, `Fits`).
-/

namespace DevPortal

open Unicode SearchParams Script MyWorkRouting InboxRouting AuthRouting

/-! ## The server -/

/-- The characters the server lets through behind `/#`. -/
def isReturnChar (c : Char) : Bool := c.isAlphanum || "/?&=_%.+-".toList.contains c

/-- `char::is_control`. -/
def isControlChar (c : Char) : Bool := c.toNat ≤ 0x1f || (0x7f ≤ c.toNat && c.toNat ≤ 0x9f)

/-- `normalize_return_to`. -/
def normalizeReturnTo (returnTo : Option String) : String :=
  let candidate := returnTo.getD "/#dashboard"
  let fragment := Text.stripPrefix candidate "/#"
  let safe := candidate.utf8ByteSize ≤ 512
    && fragment.any (fun f => f ≠ "")
    && fragment.any (fun f => !f.toList.any fun c => c = '\\' || c = '#')
    && !candidate.toList.any isControlChar
    && (fragment.getD "").toList.all isReturnChar
  if safe then candidate else "/#dashboard"

theorem isReturnChar_ascii {c : Char} (h : isReturnChar c) : c.toNat < 0x80 := by
  simp only [isReturnChar, Bool.or_eq_true] at h
  rcases h with h | h
  · exact isAlphanum_ascii h
  · have hall : ("/?&=_%.+-".toList.all fun c => c.toNat < 0x80) = true := by decide
    simpa using List.all_eq_true.mp hall c (by simpa using h)

/-- What the server lets through is no control character and ends no route. -/
theorem isReturnChar_plain {c : Char} (h : isReturnChar c) :
    isControlChar c = false ∧ c ≠ '\\' ∧ c ≠ '#' := by
  have : ∀ n : Fin 128, isReturnChar (Char.ofNat n) → isControlChar (Char.ofNat n) = false ∧
      Char.ofNat n ≠ '\\' ∧ Char.ofNat n ≠ '#' := by decide +kernel
  simpa using this ⟨c.toNat, isReturnChar_ascii h⟩ (by simpa using h)

/-- The server leaves a route alone just if it is short enough and of its alphabet. -/
theorem normalizeReturnTo_fragment {fragment : String} (hne : fragment ≠ "") :
    normalizeReturnTo (some ("/#" ++ fragment)) = "/#" ++ fragment ↔
      fragment.utf8ByteSize ≤ 510 ∧ ∀ c ∈ fragment.toList, isReturnChar c := by
  have hbytes : ("/#" ++ fragment).utf8ByteSize = 2 + fragment.utf8ByteSize := by
    rw [String.utf8ByteSize_append]
    rfl
  have hchars : ("/#" ++ fragment).toList = '/' :: '#' :: fragment.toList := by simp
  unfold normalizeReturnTo
  dsimp only [Option.getD_some]
  rw [Text.stripPrefix_append, hbytes, hchars]
  constructor
  · intro h
    split at h
    next hsafe =>
      simp only [Bool.and_eq_true, decide_eq_true_eq, Option.getD_some, List.all_eq_true] at hsafe
      exact ⟨by omega, hsafe.2⟩
    next =>
      -- What is not safe is replaced by a route that is.
      obtain rfl : fragment = "dashboard" := by
        rw [← String.toList_inj] at h ⊢
        simpa using h.symm
      exact ⟨by decide, List.all_eq_true.mp (by decide)⟩
  · rintro ⟨hlength, hall⟩
    refine if_pos ?_
    have hplain : ∀ c ∈ fragment.toList, isControlChar c = false ∧ c ≠ '\\' ∧ c ≠ '#' :=
      fun c hc => isReturnChar_plain (hall c hc)
    have hrest : fragment.toList.any isControlChar = false :=
      List.any_eq_false.mpr fun c hc => by simp [(hplain c hc).1]
    have hcontrol : (('/' :: '#' :: fragment.toList).any isControlChar) = false := by
      rw [List.any_cons, List.any_cons, hrest]
      decide
    have hends : (fragment.toList.any fun c => c = '\\' || c = '#') = false := by
      refine List.any_eq_false.mpr fun c hc => ?_
      simp [(hplain c hc).2.1, (hplain c hc).2.2]
    have hfits : decide (2 + fragment.utf8ByteSize ≤ 512) = true := decide_eq_true (by omega)
    rw [Option.any_some, Option.any_some, Option.getD_some, hends, hcontrol, hfits,
      List.all_eq_true.mpr hall, decide_eq_true hne]
    rfl

/-! ## What a route writes -/

/-- **The parameters of a route fit**: no value has an asterisk, and they take no more than what is
left of 512 characters behind the route. -/
def Fits (start : Nat) (params : Params) : Prop :=
  (∀ p ∈ params, '*' ∉ p.2.toList) ∧
    start + ((params.map pairWidth).sum + (params.length - 1)) ≤ 512

/-- What a query is written with, the server lets through, asterisks apart. -/
theorem isReturnChar_of_mem_serialize {ps : Params} {c : Char} (h : c ∈ (serialize ps).toList) :
    isReturnChar c ∨ c = '*' := by
  rcases mem_serialize h with h | rfl | rfl
  · simp only [isFormChar, Bool.or_eq_true, decide_eq_true_eq] at h
    rcases h with (((((h | rfl) | rfl) | rfl) | rfl) | rfl) | rfl
    · exact .inl (by simp [isReturnChar, h])
    · exact .inr rfl
    all_goals exact .inl (by decide)
  all_goals exact .inl (by decide)

/-- **A route with its parameters comes back just if they fit.** -/
theorem normalizeReturnTo_route {route : String} (hroute : ∀ c ∈ route.toList, isReturnChar c)
    {ps : Params} (hnames : ∀ p ∈ ps, '*' ∉ p.1.toList) :
    normalizeReturnTo (some ("/#" ++ (route ++ "?" ++ serialize ps))) =
        "/#" ++ (route ++ "?" ++ serialize ps) ↔
      Fits (route.length + 3) ps := by
  have hquestion : isReturnChar '?' := by decide
  have hascii : ∀ c ∈ (route ++ "?" ++ serialize ps).toList, c.toNat < 0x80 := by
    intro c hc
    simp only [String.toList_append, List.mem_append] at hc
    rcases hc with (hc | hc) | hc
    · exact isReturnChar_ascii (hroute c hc)
    · obtain rfl := List.mem_singleton.mp hc
      decide
    · rcases isReturnChar_of_mem_serialize hc with hc | rfl
      · exact isReturnChar_ascii hc
      · decide
  have hlength : (route ++ "?" ++ serialize ps).length =
      route.length + 1 + ((ps.map pairWidth).sum + (ps.length - 1)) := by
    rw [String.length_append, String.length_append, length_serialize]
    rfl
  have hasterisk : (∀ c ∈ (route ++ "?" ++ serialize ps).toList, isReturnChar c) ↔
      ∀ p ∈ ps, '*' ∉ p.2.toList := by
    constructor
    · intro h p hp hmem
      have hstar : '*' ∈ (serialize ps).toList := (asterisk_mem_serialize ps).mpr ⟨p, hp, .inr hmem⟩
      exact absurd (h '*' (by simp [hstar])) (by decide)
    · intro h c hc
      simp only [String.toList_append, List.mem_append] at hc
      rcases hc with (hc | hc) | hc
      · exact hroute c hc
      · obtain rfl := List.mem_singleton.mp hc
        exact hquestion
      · rcases isReturnChar_of_mem_serialize hc with hc | rfl
        · exact hc
        · obtain ⟨p, hp, hmem⟩ := (asterisk_mem_serialize ps).mp hc
          exact absurd hmem (not_or.mpr ⟨hnames p hp, h p hp⟩)
  rw [normalizeReturnTo_fragment (by simp), Text.utf8ByteSize_ascii hascii, hlength, hasterisk, Fits,
    and_comm]
  exact and_congr_right fun _ => by omega

/-- A route without parameters comes back. -/
theorem normalizeReturnTo_bare {route : String} (hroute : ∀ c ∈ route.toList, isReturnChar c)
    (hne : route ≠ "") (hlength : route.length ≤ 500) :
    normalizeReturnTo (some ("/#" ++ route)) = "/#" ++ route := by
  rw [normalizeReturnTo_fragment hne, Text.utf8ByteSize_ascii fun c hc => isReturnChar_ascii (hroute c hc)]
  exact ⟨by omega, hroute⟩

/-- A route whose query is left out when it is empty comes back just if its parameters fit. -/
theorem normalizeReturnTo_withQuery {route : String} (hroute : ∀ c ∈ route.toList, isReturnChar c)
    (hne : route ≠ "") (hlength : route.length ≤ 500) {ps : Params}
    (hnames : ∀ p ∈ ps, '*' ∉ p.1.toList) :
    normalizeReturnTo (some (withQuery ("/#" ++ route) (serialize ps))) =
        withQuery ("/#" ++ route) (serialize ps) ↔
      Fits (route.length + 3) ps := by
  unfold withQuery
  split
  next h =>
    have happend : "/#" ++ route ++ "?" ++ serialize ps = "/#" ++ (route ++ "?" ++ serialize ps) := by
      simp only [String.append_assoc]
    rw [happend]
    exact normalizeReturnTo_route hroute hnames
  next h =>
    have hnil : ps = [] := serialize_eq_empty.mp (Classical.not_not.mp h)
    refine iff_of_true (normalizeReturnTo_bare hroute hne hlength) ?_
    rw [hnil]
    exact ⟨by simp, by simp; omega⟩

/-! ## What the routes keep -/

/-- The parameters `#my-work` keeps. -/
def myWorkKept (query : Units) : Params :=
  present (myWorkEntries (parseMyWorkQuery (myWorkSearch query)) false)

/-- The parameters `#inbox` keeps. -/
def inboxKept (query : Units) : Params :=
  present (inboxEntries (parseInboxQuery (searchParams query)))

/-- The parameters `#connectors` keeps. -/
def connectorKept (query : Units) : Params := present (connectorEntries (searchParams query))

/-- Only the names of the entries are kept, in their order. -/
theorem names_present (entries : List (Bool × String × String)) :
    ((present entries).map Prod.fst).Sublist (entries.map (·.2.1)) := by
  have hsub : (entries.filter (·.1)).Sublist entries := List.filter_sublist
  simpa [present, Function.comp_def] using hsub.map (·.2.1)

theorem name_of_mem_present {entries : List (Bool × String × String)} {p : String × String}
    (h : p ∈ present entries) : p.1 ∈ entries.map (·.2.1) :=
  (names_present entries).subset (List.mem_map_of_mem h)

theorem asterisk_not_mem_myWorkKept {query : Units} :
    ∀ p ∈ myWorkKept query, '*' ∉ p.1.toList := by
  intro p hp
  have hname := name_of_mem_present hp
  have hall : ∀ name ∈ ["status", "due", "project", "work_item_type", "source", "sort", "page",
      "page_size"], '*' ∉ name.toList := by decide
  exact hall p.1 hname

theorem asterisk_not_mem_inboxKept {query : Units} : ∀ p ∈ inboxKept query, '*' ∉ p.1.toList := by
  intro p hp
  have hname := name_of_mem_present hp
  have hall : ∀ name ∈ ["state", "search", "source", "severity", "page"], '*' ∉ name.toList := by
    decide
  exact hall p.1 hname

theorem asterisk_not_mem_connectorKept {query : Units} :
    ∀ p ∈ connectorKept query, '*' ∉ p.1.toList := by
  intro p hp
  have hname := name_of_mem_present hp
  have hall : ∀ name ∈ ["source", "target", "runId"], '*' ∉ name.toList := by decide
  exact hall p.1 hname

/-- What stands behind the one `?` of a route. -/
theorem behindQuestion_append {route query : String} (hroute : '?' ∉ route.toList)
    (hquery : '?' ∉ query.toList) : behindQuestion (route ++ "?" ++ query) = query := by
  have hjoin : (route ++ "?" ++ query).toList = ['?'].intercalate [route.toList, query.toList] := by
    simp
  have hplain : ∀ l ∈ [route.toList, query.toList], '?' ∉ l := by simp [hroute, hquery]
  rw [behindQuestion, hjoin, List.splitOn_intercalate '?' hplain (by simp)]
  simp

theorem question_not_mem_serialize (ps : Params) : '?' ∉ (serialize ps).toList := by
  intro h
  have := mem_serialize h
  revert this
  decide

/-- A written query stands behind the one `?` of its route. -/
theorem safeMyWorkQuery_eq (query : Units) :
    safeMyWorkQuery query = serialize (myWorkKept query) := by
  unfold safeMyWorkQuery myWorkHash
  dsimp only
  rw [myWorkParams_parse]
  change behindQuestion (if serialize (myWorkKept query) ≠ "" then
    "#my-work?" ++ serialize (myWorkKept query) else "#my-work") = _
  split
  next h =>
    have hroute : '?' ∉ "#my-work".toList := by decide
    have hpath : "#my-work?" = "#my-work" ++ "?" := by decide
    rw [hpath]
    exact behindQuestion_append hroute (question_not_mem_serialize _)
  next h =>
    rw [Classical.not_not.mp h]
    decide

theorem nodup_from_myWorkKept (query : Units) :
    ("from" :: (myWorkKept query).map Prod.fst).Nodup := by
  have hnames := names_present (myWorkEntries (parseMyWorkQuery (myWorkSearch query)) false)
  refine List.Nodup.sublist (hnames.cons_cons "from") ?_
  simp [myWorkEntries]

/-- The parameters set behind where the route came from. -/
theorem foldl_set_myWorkKept (query : Units) :
    (myWorkKept query).foldl (fun outgoing p => SearchParams.set outgoing p.1 p.2)
      [("from", "my-work")] = ("from", "my-work") :: myWorkKept query := by
  have hentries : present ((myWorkKept query).map fun p => (true, p)) = myWorkKept query := by
    simp [present, List.filter_map, Function.comp_def]
  have hnodup : ((([("from", "my-work")] : Params).map Prod.fst) ++
      ((myWorkKept query).map fun p => (true, p)).map (·.2.1)).Nodup := by
    have hmap : ((myWorkKept query).map fun p => (true, p)).map (·.2.1) =
        (myWorkKept query).map Prod.fst := by simp [Function.comp_def]
    rw [hmap, List.map_singleton, List.singleton_append]
    exact nodup_from_myWorkKept query
  have hfold : (myWorkKept query).foldl (fun outgoing p => SearchParams.set outgoing p.1 p.2)
      [("from", "my-work")] =
      setEach [("from", "my-work")] ((myWorkKept query).map fun p => (true, p)) := by
    simp [setEach, List.foldl_map]
  rw [hfold, setEach_eq hnodup, hentries, List.singleton_append]

/-- The detail route writes where it came from in front of the same parameters. -/
theorem safeMyWorkDetailQuery_eq {query : Units}
    (h : get (searchParams query) "from" = some "my-work") :
    safeMyWorkDetailQuery query = serialize (("from", "my-work") :: myWorkKept query) := by
  rw [safeMyWorkDetailQuery, if_neg (fun hne => hne h), safeMyWorkQuery_eq]
  dsimp only
  rw [parse_serialize, foldl_set_myWorkKept]

/-! ## The route across sign-in -/

/-- What a numbered route keeps of its query fits. -/
def NumberedFits (route query : Units) : Prop :=
  match positiveIntegerRouteId route "work-cards/" with
  | some id =>
    get (searchParams query) "from" = some "my-work" →
      Fits (14 + (toString id).length) (("from", "my-work") :: myWorkKept query)
  | none =>
    match (positiveIntegerRouteId route "notifications/").or
        (positiveIntegerQueryId route query "notifications") with
    | some id =>
      get (searchParams query) "from" = some "inbox" →
        Fits (17 + (toString id).length) (("from", "inbox") :: inboxKept query)
    | none => True

/-- **What the route of a hash keeps of its query fits.** -/
def ReturnFits (hash : Units) : Prop :=
  if hash = [] || 512 < hash.length || hash.any (fun u => isControl u.toNat) then True
  else
    let (route, query) := splitHash hash
    if route = units "my-work" then Fits 10 (myWorkKept query)
    else if route = units "inbox" then Fits 8 (inboxKept query)
    else if route = units "connectors" then Fits 13 (connectorKept query)
    else NumberedFits route query

theorem isReturnChar_toString (n : Nat) : ∀ c ∈ (toString n).toList, isReturnChar c := by
  intro c hc
  have hdigits := isDigits_toString n
  simp only [isDigits, Bool.and_eq_true, List.all_eq_true] at hdigits
  have hc := hdigits.2 c hc
  simp [isReturnChar, Char.isAlphanum, hc]

/-- The number of a route has at most sixteen digits. -/
theorem length_toString_le {value : Option String} {id : Nat}
    (h : AuthRouting.positiveInteger value = some id) : (toString id).length ≤ 16 := by
  have hid : id ≤ 2 ^ 53 - 1 := by
    unfold AuthRouting.positiveInteger at h
    dsimp only at h
    split at h
    · split at h
      next parsed hparsed =>
        obtain ⟨-, hsafe⟩ := Option.filter_eq_some_iff.mp hparsed
        have hsafe := of_decide_eq_true hsafe
        split at h
        · obtain rfl := Option.some.inj h
          omega
        · cases h
      · cases h
    · cases h
  refine (Nat.length_repr_le_iff (by decide)).mpr ?_
  omega

/-- The number of a numbered route was read off it. -/
theorem positiveInteger_of_routeId {route : Units} {start : String} {id : Nat}
    (h : positiveIntegerRouteId route start = some id) :
    ∃ value, AuthRouting.positiveInteger value = some id := by
  unfold positiveIntegerRouteId at h
  split at h
  · exact ⟨_, h⟩
  · cases h

theorem positiveInteger_of_queryId {route query : Units} {expectedRoute : String} {id : Nat}
    (h : positiveIntegerQueryId route query expectedRoute = some id) :
    ∃ value, AuthRouting.positiveInteger value = some id := by
  unfold positiveIntegerQueryId at h
  split at h
  · exact ⟨_, h⟩
  · cases h

/-- A work card by its number. -/
theorem normalizeReturnTo_workCard {id : Nat} (hid : (toString id).length ≤ 16) (query : Units) :
    normalizeReturnTo (some (withQuery ("/#work-cards/" ++ toString id) (safeMyWorkDetailQuery query)))
        = withQuery ("/#work-cards/" ++ toString id) (safeMyWorkDetailQuery query) ↔
      (get (searchParams query) "from" = some "my-work" →
        Fits (14 + (toString id).length) (("from", "my-work") :: myWorkKept query)) := by
  have hroute : ∀ c ∈ ("work-cards/" ++ toString id).toList, isReturnChar c := by
    intro c hc
    rw [String.toList_append, List.mem_append] at hc
    rcases hc with hc | hc
    · have hall : "work-cards/".toList.all isReturnChar = true := by decide
      exact List.all_eq_true.mp hall c hc
    · exact isReturnChar_toString id c hc
  have hlength : ("work-cards/" ++ toString id).length = 11 + (toString id).length := by
    rw [String.length_append]
    rfl
  have hne : "work-cards/" ++ toString id ≠ "" := by simp
  have hstart : "/#work-cards/" ++ toString id = "/#" ++ ("work-cards/" ++ toString id) := by
    rw [← String.append_assoc]
    rfl
  rw [hstart]
  by_cases hfrom : SearchParams.get (searchParams query) "from" = some "my-work"
  · have hnames : ∀ p ∈ ("from", "my-work") :: myWorkKept query, '*' ∉ p.1.toList := by
      intro p hp
      rcases List.mem_cons.mp hp with rfl | hp
      · decide
      · exact asterisk_not_mem_myWorkKept p hp
    have hwidth : 14 + (toString id).length = ("work-cards/" ++ toString id).length + 3 := by omega
    rw [safeMyWorkDetailQuery_eq hfrom,
      normalizeReturnTo_withQuery hroute hne (by omega) hnames, hwidth]
    exact ⟨fun h _ => h, fun h => h hfrom⟩
  · have hempty : safeMyWorkDetailQuery query = "" := if_pos hfrom
    rw [hempty]
    exact iff_of_true (normalizeReturnTo_bare hroute hne (by omega)) fun h => absurd h hfrom

/-- A notification by its number. -/
theorem normalizeReturnTo_notification {id : Nat} (hid : (toString id).length ≤ 16)
    (query : Units) :
    let params := searchParams query
    let returnTo :=
      if get params "from" = some "inbox" then
        "/#notifications/" ++ toString id ++ "?from=inbox&" ++
          serialize (inboxParams (parseInboxQuery params))
      else "/#notifications/" ++ toString id
    normalizeReturnTo (some returnTo) = returnTo ↔
      (get params "from" = some "inbox" →
        Fits (17 + (toString id).length) (("from", "inbox") :: inboxKept query)) := by
  intro params returnTo
  have hroute : ∀ c ∈ ("notifications/" ++ toString id).toList, isReturnChar c := by
    intro c hc
    rw [String.toList_append, List.mem_append] at hc
    rcases hc with hc | hc
    · have hall : "notifications/".toList.all isReturnChar = true := by decide
      exact List.all_eq_true.mp hall c hc
    · exact isReturnChar_toString id c hc
  have hlength : ("notifications/" ++ toString id).length = 14 + (toString id).length := by
    rw [String.length_append]
    rfl
  have hne : "notifications/" ++ toString id ≠ "" := by simp
  have hstart : "/#notifications/" ++ toString id = "/#" ++ ("notifications/" ++ toString id) := by
    rw [← String.append_assoc]
    rfl
  by_cases hfrom : SearchParams.get params "from" = some "inbox"
  · have hnames : ∀ p ∈ ("from", "inbox") :: inboxKept query, '*' ∉ p.1.toList := by
      intro p hp
      rcases List.mem_cons.mp hp with rfl | hp
      · decide
      · exact asterisk_not_mem_inboxKept p hp
    have hkept : inboxKept query ≠ [] := by simp [inboxKept, inboxEntries, present]
    have hword : String.ofList (formWord ("from", "inbox")) = "from=inbox" := by decide +kernel
    have hreturn : returnTo = "/#" ++ ("notifications/" ++ toString id ++ "?" ++
        serialize (("from", "inbox") :: inboxKept query)) := by
      have hparams : inboxParams (parseInboxQuery params) = inboxKept query := inboxParams_eq _
      simp only [returnTo, if_pos hfrom, hparams, serialize_cons hkept, hword, hstart,
        String.append_assoc]
      rfl
    have hwidth : 17 + (toString id).length = ("notifications/" ++ toString id).length + 3 := by
      omega
    rw [hreturn, normalizeReturnTo_route hroute hnames, hwidth]
    exact ⟨fun h _ => h, fun h => h hfrom⟩
  · have hreturn : returnTo = "/#" ++ ("notifications/" ++ toString id) := by
      simp only [returnTo, if_neg hfrom, hstart]
    rw [hreturn]
    exact iff_of_true (normalizeReturnTo_bare hroute hne (by omega)) fun h => absurd h hfrom

theorem normalizeReturnTo_default : normalizeReturnTo (some defaultReturnTo) = defaultReturnTo := by
  decide

/-- The numbered routes. -/
theorem normalizeReturnTo_numbered (route query : Units) :
    normalizeReturnTo (some (numberedRoute route query)) = numberedRoute route query ↔
      NumberedFits route query := by
  unfold numberedRoute NumberedFits
  rcases hcard : positiveIntegerRouteId route "work-cards/" with _ | id
  · dsimp only
    rcases hquery : positiveIntegerQueryId route query "work-cards" with _ | id
    · dsimp only
      rcases hnotification : (positiveIntegerRouteId route "notifications/").or
          (positiveIntegerQueryId route query "notifications") with _ | id
      · exact iff_of_true normalizeReturnTo_default trivial
      · obtain ⟨value, hvalue⟩ : ∃ value, AuthRouting.positiveInteger value = some id := by
          rcases Option.or_eq_some_iff.mp hnotification with h | ⟨-, h⟩
          · exact positiveInteger_of_routeId h
          · exact positiveInteger_of_queryId h
        exact normalizeReturnTo_notification (length_toString_le hvalue) query
    · -- The route is the bare word, which names no notification.
      obtain rfl : route = units "work-cards" := by
        unfold positiveIntegerQueryId at hquery
        split at hquery
        · assumption
        · cases hquery
      have hnone : (positiveIntegerRouteId (units "work-cards") "notifications/").or
          (positiveIntegerQueryId (units "work-cards") query "notifications") = none := by
        have hroute : positiveIntegerRouteId (units "work-cards") "notifications/" = none := by
          decide
        have hbare : positiveIntegerQueryId (units "work-cards") query "notifications" = none :=
          if_neg (by decide)
        rw [hroute, hbare]
        rfl
      obtain ⟨value, hvalue⟩ := positiveInteger_of_queryId hquery
      rw [hnone]
      have hfits := (normalizeReturnTo_workCard (length_toString_le hvalue) []).mpr
        fun h => absurd h (by decide)
      have hbare : withQuery ("/#work-cards/" ++ toString id) (safeMyWorkDetailQuery []) =
          "/#work-cards/" ++ toString id := by
        have hempty : safeMyWorkDetailQuery [] = "" := if_pos (by decide)
        rw [hempty]
        rfl
      rw [hbare] at hfits
      exact iff_of_true hfits trivial
  · obtain ⟨value, hvalue⟩ := positiveInteger_of_routeId hcard
    exact normalizeReturnTo_workCard (length_toString_le hvalue) query

/-- A route of the top level names no record. -/
theorem numberedFits_top {route : String} (h : route ∈ topLevelRoutes) (query : Units) :
    NumberedFits (units route) query := by
  have hcard : ∀ r ∈ topLevelRoutes, positiveIntegerRouteId (units r) "work-cards/" = none := by
    decide
  have hroute : ∀ r ∈ topLevelRoutes, positiveIntegerRouteId (units r) "notifications/" = none := by
    decide
  have hbare : ∀ r ∈ topLevelRoutes, units r ≠ units "notifications" := by decide
  unfold NumberedFits
  rw [hcard route h, hroute route h, positiveIntegerQueryId, if_neg (hbare route h)]
  trivial

/-- **A route comes back from sign-in just if what it keeps of its query fits.** -/
theorem return_route_survives_iff (hash : Units) :
    normalizeReturnTo (some (safeReturnToFromHash hash)) = safeReturnToFromHash hash ↔
      ReturnFits hash := by
  unfold safeReturnToFromHash ReturnFits
  split
  · exact iff_of_true normalizeReturnTo_default trivial
  rcases splitHash hash with ⟨route, query⟩
  dsimp only
  split
  · have hroute : "my-work".toList.all isReturnChar = true := by decide
    rw [safeMyWorkQuery_eq]
    exact normalizeReturnTo_withQuery (List.all_eq_true.mp hroute) (by decide) (by decide) asterisk_not_mem_myWorkKept
  split
  · have hinbox : "/" ++ inboxHash (parseInboxQuery (searchParams query)) =
        "/#" ++ ("inbox" ++ "?" ++ serialize (inboxKept query)) := by
      rw [inboxHash, inboxParams_eq, inboxKept]
      simp only [← String.append_assoc]
      rfl
    have hroute : "inbox".toList.all isReturnChar = true := by decide
    rw [hinbox]
    exact normalizeReturnTo_route (List.all_eq_true.mp hroute) asterisk_not_mem_inboxKept
  split
  next htop =>
    simp only [Bool.and_eq_true, List.any_eq_true, decide_eq_true_eq] at htop
    obtain ⟨⟨r, hr, rfl⟩, hconnectors⟩ := htop
    have hall : ∀ r ∈ topLevelRoutes, normalizeReturnTo (some ("/#" ++ r)) = "/#" ++ r := by decide
    rw [if_neg hconnectors, toText_units]
    exact iff_of_true (hall r hr) (numberedFits_top hr query)
  split
  · have hroute : "connectors".toList.all isReturnChar = true := by decide
    rw [safeConnectorQuery_eq]
    exact normalizeReturnTo_withQuery (List.all_eq_true.mp hroute) (by decide) (by decide) asterisk_not_mem_connectorKept
  · exact normalizeReturnTo_numbered route query

/-- An asterisk is searched for, and the dashboard comes back. -/
theorem return_route_replaced :
    ¬ ∀ hash : Units,
      normalizeReturnTo (some (safeReturnToFromHash hash)) = safeReturnToFromHash hash := by
  intro h
  have hfails : normalizeReturnTo (some (safeReturnToFromHash (units "#inbox?search=err*"))) ≠
      safeReturnToFromHash (units "#inbox?search=err*") := by
    decide +kernel
  exact hfails (h _)

end DevPortal
