import DevPortal.Frontend.ClientQueries
import DevPortal.Frontend.ReturnTo

/-!
# Frontend/RoundTrip — a query written by the browser and read again

    query ──parse──▸ values ──write──▸ hash ──parse──▸ values

My Work drops a value that is too long, and what it keeps it reads again as it was.  The inbox cuts
it, after it has trimmed it: what is left may end in white space, which is trimmed when it is read
again, or in half of a pair, which is replaced when it is written.  Nothing else changes
(`parseInboxQuery_inboxParams`).
-/

namespace DevPortal

open Unicode SearchParams Script

/-- A written query, read. -/
theorem searchParams_serialize (ps : Params) : searchParams (units (serialize ps)) = ps := by
  rw [searchParams, toText_units, parse_serialize]

/-! ## My work -/

namespace MyWorkRouting

/-- `ApiId`, as a template writes the number. -/
structure ApiId where
  text : String
  plain : ∀ c ∈ text.toList, c.isAlphanum || c = '.' || c = '+' || c = '-'

/-- The parameters of `myWorkDetailHash`. -/
def myWorkDetailParams (query : MyWorkQuery) : Params :=
  let returnSearch := behindQuestion (myWorkHash query)
  (parse returnSearch).foldl (fun params p => set params p.1 p.2) [("from", "my-work")]

/-- `myWorkDetailHash`. -/
def myWorkDetailHash (workCardId : ApiId) (query : MyWorkQuery) : String :=
  "#work-cards/" ++ workCardId.text ++ "?" ++ serialize (myWorkDetailParams query)

/-- `myWorkReturnHash`. -/
def myWorkReturnHash (params : Params) : Option String :=
  if get params "from" ≠ some "my-work" then none
  else some (myWorkHash (parseMyWorkQuery params))

/-- **What My Work writes, it reads again.** -/
theorem parseMyWorkQuery_present (params : Params) :
    parseMyWorkQuery (present (myWorkEntries (parseMyWorkQuery params) false)) =
      parseMyWorkQuery params := by
  have hagain := parseMyWorkQuery_again params
  generalize parseMyWorkQuery params = query at hagain ⊢
  have hfields : (⟨boundedValue (some query.status), enumValue (some query.due) myWorkDueValues "",
      boundedValue (some query.project), boundedValue (some query.workItemType),
      boundedValue (some query.source),
      enumValue (some query.sort) myWorkSortValues defaultMyWorkQuery.sort,
      positiveInteger (some (toString query.page)) defaultMyWorkQuery.page,
      pageSize (some (toString query.pageSize))⟩ : MyWorkQuery) = query := hagain
  obtain ⟨hstatus, hdue, hproject, htype, hsource, hsort, hpage, hsize⟩ :=
    (MyWorkQuery.mk.injEq ..).mp hfields
  have hnodup : ((myWorkEntries query false).map (·.2.1)).Nodup := by simp [myWorkEntries]
  have htext : ∀ {read : Option String → String} {name value : String}, read none = "" →
      (decide (value ≠ ""), name, value) ∈ myWorkEntries query false → read (some value) = value →
      read (get (present (myWorkEntries query false)) name) = value := by
    intro read name value hnone h hvalue
    refine read_present hnodup h hvalue fun hflag => ?_
    rw [hnone, Classical.not_not.mp (of_decide_eq_false hflag)]
  have hbounded : boundedValue none = "" := by decide
  have hstatus : boundedValue (get (present (myWorkEntries query false)) "status") = query.status :=
    htext hbounded (by simp [myWorkEntries]) hstatus
  have hdue : enumValue (get (present (myWorkEntries query false)) "due") myWorkDueValues "" =
      query.due :=
    @htext (enumValue · myWorkDueValues "") "due" query.due (by decide) (by simp [myWorkEntries]) hdue
  have hproject : boundedValue (get (present (myWorkEntries query false)) "project") =
      query.project := htext hbounded (by simp [myWorkEntries]) hproject
  have htype : boundedValue (get (present (myWorkEntries query false)) "work_item_type") =
      query.workItemType := htext hbounded (by simp [myWorkEntries]) htype
  have hsource : boundedValue (get (present (myWorkEntries query false)) "source") =
      query.source := htext hbounded (by simp [myWorkEntries]) hsource
  have hsort : enumValue (get (present (myWorkEntries query false)) "sort") myWorkSortValues
      defaultMyWorkQuery.sort = query.sort := by
    refine @read_present _ _ hnodup (enumValue · myWorkSortValues defaultMyWorkQuery.sort)
      (decide (query.sort ≠ defaultMyWorkQuery.sort)) "sort" query.sort (by simp [myWorkEntries]) _
      hsort fun hflag => ?_
    rw [Classical.not_not.mp (of_decide_eq_false hflag)]
    decide
  have hpage : positiveInteger (get (present (myWorkEntries query false)) "page")
      defaultMyWorkQuery.page = query.page := by
    refine @read_present _ _ hnodup (positiveInteger · defaultMyWorkQuery.page)
      (decide (query.page ≠ defaultMyWorkQuery.page)) "page" (toString query.page)
      (by simp [myWorkEntries]) _ hpage fun hflag => ?_
    rw [Classical.not_not.mp (of_decide_eq_false hflag)]
    decide
  have hsize : pageSize (get (present (myWorkEntries query false)) "page_size") =
      query.pageSize := by
    refine @read_present _ _ hnodup pageSize
      (decide (query.pageSize ≠ defaultMyWorkQuery.pageSize)) "page_size" (toString query.pageSize)
      (by simp [myWorkEntries]) _ hsize fun hflag => ?_
    rw [Classical.not_not.mp (of_decide_eq_false hflag)]
    decide
  rw [parseMyWorkQuery, hstatus, hdue, hproject, htype, hsource, hsort, hpage, hsize]

/-- A written query has no question mark in front of it. -/
theorem myWorkSearch_serialize (ps : Params) : myWorkSearch (units (serialize ps)) = ps := by
  have hhead : (units (serialize ps)).head? ≠ some 0x3f := by
    intro h
    cases hchars : (serialize ps).toList with
    | nil => simp [units, hchars] at h
    | cons c cs =>
      have hc : isFormChar c ∨ c = '=' ∨ c = '&' := mem_serialize (hchars ▸ List.mem_cons_self)
      rcases encodeUnits_cases c with ⟨u, hunits, -, hscalar⟩ | ⟨u, v, hunits, hhigh, -⟩
      · obtain rfl : u = 0x3f := by simpa [units, hchars, hunits] using h
        rw [← hscalar] at hc
        revert hc
        decide
      · obtain rfl : u = 0x3f := by simpa [units, hchars, hunits] using h
        exact absurd hhigh (by decide)
  rw [myWorkSearch, if_neg hhead, searchParams_serialize]

/-- The parameters of the detail route are those of the list, behind where it came from. -/
theorem myWorkDetailParams_eq (p : Units) :
    myWorkDetailParams (parseMyWorkQuery (myWorkSearch p)) = ("from", "my-work") :: myWorkKept p := by
  have hquery : behindQuestion (myWorkHash (parseMyWorkQuery (myWorkSearch p))) =
      serialize (myWorkKept p) := safeMyWorkQuery_eq p
  rw [myWorkDetailParams, hquery, parse_serialize, foldl_set_myWorkKept]

/-- Where a query came from is no part of it. -/
theorem parseMyWorkQuery_from (value : String) (params : Params) :
    parseMyWorkQuery (("from", value) :: params) = parseMyWorkQuery params := rfl

/-- The detail route has its query behind the one `?`. -/
theorem behindQuestion_myWorkDetailHash (workCardId : ApiId) (query : MyWorkQuery) :
    behindQuestion (myWorkDetailHash workCardId query) = serialize (myWorkDetailParams query) := by
  have hroute : '?' ∉ ("#work-cards/" ++ workCardId.text).toList := by
    intro h
    rw [String.toList_append, List.mem_append] at h
    rcases h with h | h
    · exact absurd h (by decide)
    · exact absurd (workCardId.plain _ h) (by decide)
  exact behindQuestion_append hroute (question_not_mem_serialize _)

end MyWorkRouting

/-! ## Inbox -/

namespace InboxRouting

/-- **Cut after `n` units, a string ends neither in half of a pair nor in white space.** -/
def CleanCut (n : Nat) (us : Units) : Prop :=
  n < us.length → ∀ u ∈ us[n - 1]?, isHigh u = false ∧ isSpace (scalar u) = false

/-- A character of a pair is no white space. -/
theorem isSpace_large {c : Char} (h : 0x10000 ≤ c.toNat) : isSpace c = false := by
  simp only [isSpace, Bool.or_eq_false_iff, Bool.and_eq_false_iff, decide_eq_false_iff_not]
  omega

theorem length_units_trim_le (s : String) : (units (trim s)).length ≤ (units s).length := by
  have hsub : (trim s).toList.Sublist s.toList := by
    rw [trim, String.toList_ofList]
    refine List.Sublist.trans ?_ (List.dropWhile_sublist isSpace)
    rw [← List.reverse_sublist, List.reverse_reverse]
    exact List.dropWhile_sublist isSpace
  exact (hsub.flatMap encodeUnits).length_le

/-- **What is read of a string that was trimmed, cut and written**: what was written, just if the cut
is clean. -/
theorem trim_toText_take {n : Nat} (hn : 0 < n) (s : String) :
    (units (trim (toText ((units (trim s)).take n)))).take n = (units (trim s)).take n ↔
      CleanCut n (units (trim s)) := by
  have htrim : trim (trim s) = trim s := trim_trim s
  generalize trim s = v at htrim
  rcases Nat.lt_or_ge n (units v).length with hlong | hshort
  · obtain ⟨m, rfl⟩ : ∃ m, n = m + 1 := ⟨n - 1, by omega⟩
    obtain ⟨u, hu⟩ : ∃ u, (units v)[m]? = some u := ⟨_, List.getElem?_eq_getElem (by omega)⟩
    have hclean : CleanCut (m + 1) (units v) ↔ isHigh u = false ∧ isSpace (scalar u) = false := by
      simp [CleanCut, hlong, hu]
    have hlast : ((units v).take (m + 1)).getLast? = some u := by
      rw [List.getLast?_take]
      simp [hu]
    rw [hclean]
    generalize hcut : (units v).take (m + 1) = cut at hlast
    have hlength : cut.length = m + 1 := by rw [← hcut, List.length_take]; omega
    constructor
    · intro h
      -- what is read is no longer than the cut, so it is all of it
      have hread : (units (trim (toText cut))).length ≤ m + 1 := by
        rw [← hlength, ← length_units_toText cut]
        exact length_units_trim_le _
      rw [List.take_of_length_le hread] at h
      rw [← h] at hlast
      obtain ⟨c, hc⟩ : ∃ c, (trim (toText cut)).toList.getLast? = some c := by
        cases hchars : (trim (toText cut)).toList with
        | nil => simp [units, hchars] at hlast
        | cons c cs => exact ⟨_, List.getLast?_eq_some_getLast (by simp)⟩
      obtain ⟨u', hu', hhigh, hscalar⟩ := getLast?_units hc
      obtain rfl : u' = u := Option.some.inj (hu'.symm.trans hlast)
      refine ⟨hhigh, ?_⟩
      rcases hscalar with hscalar | ⟨hscalar, -⟩
      · rw [hscalar]
        exact (trim_eq_self_iff.mp (trim_trim _)).2 c hc
      · rw [hscalar]
        decide
    · rintro ⟨hhigh, hspace⟩
      obtain ⟨w, hw, hpre⟩ := exists_units_eq_take hu hhigh
      rw [hcut] at hw
      have hself : trim w = w := by
        refine trim_eq_self_iff.mpr ⟨fun c hc => ?_, fun c hc => ?_⟩
        · obtain ⟨rest, hrest⟩ := hpre
          refine (trim_eq_self_iff.mp htrim).1 c ?_
          rw [← hrest, List.head?_append, Option.mem_def.mp hc]
          rfl
        · obtain ⟨u', hu', -, hscalar⟩ := getLast?_units (Option.mem_def.mp hc)
          rw [hw] at hu'
          obtain rfl : u' = u := Option.some.inj (hu'.symm.trans hlast)
          rcases hscalar with hscalar | ⟨-, hlarge⟩
          · rwa [hscalar] at hspace
          · exact isSpace_large hlarge
      rw [← hw, toText_units, hself, hw, List.take_of_length_le (Nat.le_of_eq hlength)]
  · rw [List.take_of_length_le hshort, toText_units, htrim, List.take_of_length_le hshort]
    exact iff_of_true rfl fun hlong => absurd hlong (Nat.not_lt.mpr hshort)

/-- A choice is made again. -/
theorem choice_choice (value : Option String) {allowed : List String} (hempty : "" ∉ allowed)
    (fallback : String) :
    choice (some (choice value allowed fallback)) allowed fallback = choice value allowed fallback := by
  have hfallback : choice (some fallback) allowed fallback = fallback := by
    unfold choice
    simp
  generalize hchoice : choice value allowed fallback = c
  have hc : c = fallback ∨ c ∈ allowed := hchoice ▸ choice_mem
  rcases hc with rfl | hc
  · exact hfallback
  · have hne : c ≠ "" := fun h => hempty (h ▸ hc)
    unfold choice
    simp [hne, hc]

theorem pageOf_toString {n : Nat} (h : 1 ≤ n ∧ n ≤ 1000000) : pageOf (some (toString n)) = n := by
  have hne : toString n ≠ "" := by
    intro h
    have := isDigits_toString n
    rw [h] at this
    exact absurd this (by decide)
  unfold pageOf
  dsimp only [Option.getD_some]
  rw [if_neg hne, safeInteger?_toString (by omega)]
  dsimp only
  rw [if_pos (by omega), Int.toNat_natCast]

/-- What is read under a key that is left out when its string is empty. -/
theorem get_units {entries : List (Bool × String × String)}
    (hnodup : (entries.map (·.2.1)).Nodup) {name : String} {us : Units}
    (h : (decide (us ≠ []), name, toText us) ∈ entries) :
    (get (present entries) name).getD "" = toText us := by
  rw [get_present hnodup h]
  split
  · rfl
  next hflag =>
    have hus : us = [] := by simpa using hflag
    rw [hus]
    rfl

/-- The parameters of an inbox query, read. -/
theorem parseInboxQuery_present (query : InboxQuery) :
    parseInboxQuery (present (inboxEntries query)) =
      ⟨choice (some query.state) inboxStates "unread",
        (units (trim (toText query.search))).take 200, (units (trim (toText query.source))).take 64,
        choice (some query.severity) ["info", "warning", "critical"] "",
        pageOf (some (toString query.page))⟩ := by
  have hnodup : ((inboxEntries query).map (·.2.1)).Nodup := by simp [inboxEntries]
  have hstate : get (present (inboxEntries query)) "state" = some query.state :=
    @get_present _ hnodup true _ _ (by simp [inboxEntries])
  have hpage : get (present (inboxEntries query)) "page" = some (toString query.page) :=
    @get_present _ hnodup true _ _ (by simp [inboxEntries])
  have hsearch := @get_units _ hnodup "search" query.search (by simp [inboxEntries])
  have hsource := @get_units _ hnodup "source" query.source (by simp [inboxEntries])
  have hseverity : choice (get (present (inboxEntries query)) "severity")
      ["info", "warning", "critical"] "" =
      choice (some query.severity) ["info", "warning", "critical"] "" := by
    refine @read_present _ _ hnodup (choice · ["info", "warning", "critical"] "")
      (decide (query.severity ≠ "")) "severity" query.severity (by simp [inboxEntries]) _ rfl ?_
    intro hflag
    rw [Classical.not_not.mp (of_decide_eq_false hflag)]
    rfl
  rw [parseInboxQuery, hstate, hsearch, hsource, hseverity, hpage]

/-- **The inbox reads its query again just if the cuts are clean.** -/
theorem parseInboxQuery_inboxParams (params : Params) :
    parseInboxQuery (inboxParams (parseInboxQuery params)) = parseInboxQuery params ↔
      CleanCut 200 (units (trim ((get params "search").getD ""))) ∧
        CleanCut 64 (units (trim ((get params "source").getD ""))) := by
  have hstates : "" ∉ inboxStates := by decide
  have hseverities : "" ∉ ["info", "warning", "critical"] := by decide
  rw [inboxParams_eq, parseInboxQuery_present, ← trim_toText_take (by decide),
    ← trim_toText_take (by decide)]
  unfold parseInboxQuery
  dsimp only
  rw [choice_choice _ hstates, choice_choice _ hseverities, pageOf_toString (pageOf_bounds _),
    InboxQuery.mk.injEq]
  simp only [true_and, and_true]

end InboxRouting

/-! ## The state of the browser -/

open MyWorkRouting InboxRouting

/-- **A query that is written is read again**: for My Work always, and for the inbox just if the cuts
of what is searched for are clean. -/
theorem queries_round_trip (p : Units) :
    (let query := parseMyWorkQuery (myWorkSearch p)
     parseMyWorkQuery (myWorkSearch (units (behindQuestion (myWorkHash query)))) = query ∧
       ∀ workCardId, myWorkReturnHash
         (searchParams (units (behindQuestion (myWorkDetailHash workCardId query)))) =
           some (myWorkHash query)) ∧
      (let query := parseInboxQuery (searchParams p)
       parseInboxQuery (searchParams (units (serialize (inboxParams query)))) = query ↔
         CleanCut 200 (units (trim ((get (searchParams p) "search").getD ""))) ∧
           CleanCut 64 (units (trim ((get (searchParams p) "source").getD "")))) := by
  refine ⟨⟨?_, fun workCardId => ?_⟩, ?_⟩
  · have hquery : behindQuestion (myWorkHash (parseMyWorkQuery (myWorkSearch p))) =
        serialize (myWorkKept p) := safeMyWorkQuery_eq p
    rw [hquery, myWorkSearch_serialize]
    exact parseMyWorkQuery_present _
  · rw [behindQuestion_myWorkDetailHash, myWorkDetailParams_eq, searchParams_serialize,
      myWorkReturnHash, if_neg (fun h => h rfl), parseMyWorkQuery_from]
    exact congrArg (some ∘ myWorkHash) (parseMyWorkQuery_present _)
  · intro query
    rw [searchParams_serialize]
    exact parseInboxQuery_inboxParams _

/-- A search with a blank at the place of the cut. -/
def blankAtCut : String := String.ofList (List.replicate 199 'a' ++ [' ', 'b'])

/-- It is another search when it comes back. -/
theorem blankAtCut_does_not_return : ¬ ∀ p : Units,
    parseInboxQuery (searchParams (units (serialize (inboxParams
      (parseInboxQuery (searchParams p)))))) = parseInboxQuery (searchParams p) := by
  intro h
  have hreturn := h (units (serialize [("search", blankAtCut)]))
  rw [searchParams_serialize, searchParams_serialize] at hreturn
  have hclean := ((parseInboxQuery_inboxParams _).mp hreturn).1
  have hcut : ¬ CleanCut 200 (units (trim blankAtCut)) := by
    unfold CleanCut
    decide +kernel
  exact hcut hclean

end DevPortal
