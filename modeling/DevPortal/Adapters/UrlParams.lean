import DevPortal.Adapters.Shared
import DevPortal.Machinery.UrlText

/-!
# Adapters/UrlParams — what a base URL becomes with parameters behind it

    base ─┬─ no `?` ─────────────────▸ base?k=v&…
          ├─ ends in `?` or `&` ─────▸ basek=v&…
          └─ otherwise ──────────────▸ base&k=v&…

The separator is chosen by the characters of the base, and the base is then read as a URL.  The two
agree about a base (`Appendable`) that has no fragment, whose query does not end in a `?` of its own,
and that has no blank behind it which only a reader of URLs drops.
-/

namespace DevPortal

open Query UrlText

/-! ## The copy of the OAuth routes -/

namespace OAuthRoutes

/-- One round of the loop of `encode_url_component`. -/
def pushByte (encoded : String) (byte : UInt8) : String :=
  if isUnreserved byte then encoded.push (Char.ofNat byte.toNat)
  else encoded ++ "%" ++ String.ofList [hexDigit (byte.toNat / 16), hexDigit (byte.toNat % 16)]

/-- `encode_url_component`. -/
def encodeUrlComponent (value : String) : String := value.toUTF8.toList.foldl pushByte ""

/-- One round of the loop of `append_query_params`: the URL so far, and the separator. -/
def pushParam (url : String × String) (param : String × String) : String × String :=
  (url.1 ++ url.2 ++ encodeUrlComponent param.1 ++ "=" ++ encodeUrlComponent param.2, "&")

/-- `append_query_params`. -/
def appendQueryParams (baseUrl : String) (params : List (String × String)) : String :=
  let separator :=
    if '?' ∈ baseUrl.toList then
      if baseUrl.toList.getLast? = some '?' || baseUrl.toList.getLast? = some '&' then "" else "&"
    else "?"
  (params.foldl pushParam (baseUrl, separator)).1

@[simp] theorem toList_pushByte (encoded : String) (byte : UInt8) :
    (pushByte encoded byte).toList = encoded.toList ++ encodeByte byte := by
  rw [pushByte, encodeByte]
  split <;> simp

theorem toList_foldl_pushByte (bytes : List UInt8) (encoded : String) :
    (bytes.foldl pushByte encoded).toList = encoded.toList ++ bytes.flatMap encodeByte := by
  induction bytes generalizing encoded with
  | nil => simp
  | cons byte bytes ih => rw [List.foldl_cons, ih, toList_pushByte, List.flatMap_cons, List.append_assoc]

/-- Octet by octet, it is the other's. -/
theorem encodeUrlComponent_eq (value : String) :
    encodeUrlComponent value = DevPortal.encodeUrlComponent value := by
  rw [← String.toList_inj, encodeUrlComponent, toList_foldl_pushByte, DevPortal.encodeUrlComponent,
    Unicode.toList_toUTF8]
  simp [encode]

theorem foldl_pushParam (params : List (String × String)) (url separator : String) :
    (params.foldl pushParam (url, separator)).1 = appendParams url separator params := by
  induction params generalizing url separator with
  | nil => rfl
  | cons p params ih =>
    rw [List.foldl_cons, pushParam, ih, appendParams, encodeUrlComponent_eq, encodeUrlComponent_eq]

/-- **The two copies agree.** -/
theorem appendQueryParams_eq (baseUrl : String) (params : List (String × String)) :
    appendQueryParams baseUrl params = DevPortal.appendQueryParams baseUrl params :=
  foldl_pushParam params baseUrl _

end OAuthRoutes

/-! ## Which bases take parameters -/

/-- **A base behind which parameters are read.** -/
structure Appendable (baseUrl : String) : Prop where
  noFragment : '#' ∉ baseUrl.toList
  noOwnMark : baseUrl.toList.getLast? = some '?' → query (joined baseUrl.toList) = []
  noBlankEnd : ∀ c ∈ (joined baseUrl.toList).getLast?, isEdge c = false

/-- What the callers check. -/
def IsHttp (baseUrl : String) : Prop :=
  Text.startsWith baseUrl "http://" = true ∨ Text.startsWith baseUrl "https://" = true

theorem requireUrl_ok {field url : String} (h : requireUrl field url = .ok ()) : IsHttp url := by
  rw [requireUrl] at h
  split at h
  · next hstarts => exact (Bool.or_eq_true _ _).mp hstarts
  · cases h

theorem isWeb_of_isHttp {baseUrl : String} (h : IsHttp baseUrl) : IsWeb baseUrl.toList :=
  h.imp List.isPrefixOf_iff_prefix.mp List.isPrefixOf_iff_prefix.mp

section Base

variable {baseUrl : String}

theorem joined_head (h : IsHttp baseUrl) : ∀ c ∈ baseUrl.toList.head?, isEdge c = false := by
  intro c hc
  rcases isWeb_of_isHttp h with ⟨rest, hrest⟩ | ⟨rest, hrest⟩ <;>
  · rw [← hrest, List.head?_append_of_ne_nil _ (by decide)] at hc
    obtain rfl : 'h' = c := Option.some.inj hc
    decide

theorem toList_ne_nil (h : IsHttp baseUrl) : baseUrl.toList ≠ [] := by
  rcases isWeb_of_isHttp h with ⟨rest, hrest⟩ | ⟨rest, hrest⟩ <;>
  · rw [← hrest]
    exact List.append_ne_nil_of_left_ne_nil (by decide) _

/-- The separator, and the last character it is chosen by. -/
theorem querySeparator_cases (baseUrl : String) :
    (querySeparator baseUrl = "?" ∧ '?' ∉ baseUrl.toList) ∨
      (querySeparator baseUrl = "" ∧ '?' ∈ baseUrl.toList ∧
        (baseUrl.toList.getLast? = some '?' ∨ baseUrl.toList.getLast? = some '&')) ∨
      (querySeparator baseUrl = "&" ∧ '?' ∈ baseUrl.toList ∧
        baseUrl.toList.getLast? ≠ some '?' ∧ baseUrl.toList.getLast? ≠ some '&') := by
  unfold querySeparator
  by_cases hq : '?' ∈ baseUrl.toList
  · by_cases hlast : baseUrl.toList.getLast? = some '?' ∨ baseUrl.toList.getLast? = some '&'
    · exact .inr (.inl ⟨by simp [hq, hlast], hq, hlast⟩)
    · exact .inr (.inr ⟨by simp [hq, hlast], hq, not_or.mp hlast⟩)
  · exact .inl ⟨by simp [hq], hq⟩

/-- What a reader of URLs looks at once there are parameters. -/
theorem clean_appendQueryParams (h : IsHttp baseUrl) (p : String × String)
    (ps : List (String × String)) :
    clean (appendQueryParams baseUrl (p :: ps)).toList =
      joined baseUrl.toList ++ ((querySeparator baseUrl).toList ++ written (p :: ps)) := by
  have hseparator : ∀ c ∈ (querySeparator baseUrl).toList, isEdge c = false := by
    have hall : (["?", "", "&"].all fun s => s.toList.all fun c => !isEdge c) = true := by decide
    have hmem : querySeparator baseUrl ∈ ["?", "", "&"] := by
      rcases querySeparator_cases baseUrl with ⟨hs, -⟩ | ⟨hs, -⟩ | ⟨hs, -⟩ <;> simp [hs]
    simpa using List.all_eq_true.mp hall _ hmem
  rw [appendQueryParams, appendParams_cons, List.append_assoc]
  refine clean_append (joined_head h) (toList_ne_nil h) (fun c hc => ?_) ?_
  · exact (List.mem_append.mp hc).elim (hseparator c) (not_isEdge_written _ c)
  · exact List.append_ne_nil_of_right_ne_nil _ (written_ne_nil p ps)

/-- A last character that is no edge stays the last. -/
theorem getLast?_joined {c : Char} (hc : isEdge c = false) (h : baseUrl.toList.getLast? = some c) :
    (joined baseUrl.toList).getLast? = some c := by
  obtain ⟨init, hinit⟩ := List.getLast?_eq_some_iff.mp h
  have hone : joined [c] = [c] := joined_eq_self (by simpa using hc)
  rw [hinit, joined_append, hone, List.getLast?_concat]

theorem mem_joined_iff {c : Char} (hc : isBreak c = false) :
    c ∈ joined baseUrl.toList ↔ c ∈ baseUrl.toList := by
  rw [mem_joined, and_iff_left hc]

/-- A query that ends with the URL's last character. -/
theorem getLast?_query_joined (hfrag : '#' ∉ baseUrl.toList) {c : Char} (hc : isEdge c = false)
    (h : baseUrl.toList.getLast? = some c) (hne : query (joined baseUrl.toList) ≠ []) :
    (query (joined baseUrl.toList)).getLast? = some c := by
  rw [getLast?_query (by rwa [mem_joined_iff rfl]) hne, getLast?_joined hc h]

/-! ## Where the parameters are read -/

theorem dropped_eq_nil (h : Appendable baseUrl) : dropped baseUrl.toList = [] :=
  dropped_eq_nil_iff.mpr h.noBlankEnd

/-- Behind a base that takes them, the pairs are the base's and the parameters. -/
theorem texts_appended (h : Appendable baseUrl) (params : List (String × String)) :
    texts (joined baseUrl.toList ++ ((querySeparator baseUrl).toList ++ written params)) =
      texts (joined baseUrl.toList) ++ params := by
  have hfrag : '#' ∉ joined baseUrl.toList := mt (mem_joined_iff rfl).mp h.noFragment
  rcases querySeparator_cases baseUrl with ⟨hs, hq⟩ | ⟨hs, hq, hlast⟩ | ⟨hs, hq, -⟩
  · have hq : '?' ∉ joined baseUrl.toList := mt (mem_joined_iff rfl).mp hq
    rw [hs, texts_eq_nil hq, List.nil_append]
    exact texts_append_question hfrag hq params
  · have hopen : query (joined baseUrl.toList) = [] ∨
        ∃ start, query (joined baseUrl.toList) = start ++ ['&'] := by
      rcases hlast with hlast | hlast
      · exact .inl (h.noOwnMark hlast)
      · exact or_iff_not_imp_left.mpr fun hne =>
          List.getLast?_eq_some_iff.mp (getLast?_query_joined h.noFragment (by decide) hlast hne)
    rw [hs]
    exact texts_append_open hfrag ((mem_joined_iff rfl).mpr hq) hopen params
  · rw [hs]
    exact texts_append_amp hfrag ((mem_joined_iff rfl).mpr hq) params

/-- What stands before the query is the base's. -/
theorem beforeQuery_appended (h : '#' ∉ baseUrl.toList) (params : List (String × String)) :
    beforeQuery (joined baseUrl.toList ++ ((querySeparator baseUrl).toList ++ written params)) =
      beforeQuery (joined baseUrl.toList) := by
  have hfrag : '#' ∉ joined baseUrl.toList := mt (mem_joined_iff rfl).mp h
  have hwritten : '#' ∉ written params := not_mem_written params (by decide)
  rcases querySeparator_cases baseUrl with ⟨hs, hq⟩ | ⟨hs, hq, -⟩ | ⟨hs, hq, -⟩
  · have hq : '?' ∉ joined baseUrl.toList := mt (mem_joined_iff rfl).mp hq
    rw [hs, beforeQuery_eq_self hfrag hq]
    exact beforeQuery_append_question hfrag hq hwritten
  · rw [hs]
    exact beforeQuery_append hfrag ((mem_joined_iff rfl).mpr hq) hwritten
  · rw [hs]
    exact beforeQuery_append hfrag ((mem_joined_iff rfl).mpr hq) (by simp [hwritten])

theorem not_mem_appended (h : '#' ∉ baseUrl.toList) (params : List (String × String)) :
    '#' ∉ joined baseUrl.toList ++ ((querySeparator baseUrl).toList ++ written params) := by
  have hfrag : '#' ∉ joined baseUrl.toList := mt (mem_joined_iff rfl).mp h
  have hwritten : '#' ∉ written params := not_mem_written params (by decide)
  rcases querySeparator_cases baseUrl with ⟨hs, -⟩ | ⟨hs, -⟩ | ⟨hs, -⟩ <;>
    simp [hs, hfrag, hwritten]

/-! ## Where they are not -/

section Fails

variable (hhttp : IsHttp baseUrl) (p : String × String) (ps : List (String × String))

include hhttp

/-- A fragment takes the parameters. -/
theorem not_mem_of_texts
    (h : texts (joined baseUrl.toList ++ ((querySeparator baseUrl).toList ++ written (p :: ps))) =
      texts (clean baseUrl.toList) ++ p :: ps) : '#' ∉ baseUrl.toList := by
  intro hfrag
  have hjoined : '#' ∈ joined baseUrl.toList := (mem_joined_iff rfl).mpr hfrag
  have hsplit := joined_eq_clean_append (joined_head hhttp)
  have hclean : '#' ∈ clean baseUrl.toList := by
    rw [hsplit] at hjoined
    exact (List.mem_append.mp hjoined).resolve_right fun hd =>
      absurd (mem_dropped hd).1 (by decide)
  have hsame : texts (joined baseUrl.toList ++ ((querySeparator baseUrl).toList ++ written (p :: ps)))
      = texts (clean baseUrl.toList) := by
    rw [hsplit, List.append_assoc]
    exact texts_congr (takeWhile_append_of_mem hclean _)
  rw [hsame] at h
  exact List.cons_ne_nil p ps (List.self_eq_append_right.mp h)

omit hhttp in
/-- A mark that is a part of the query begins the first key. -/
theorem query_eq_nil_of_texts (hfrag : '#' ∉ baseUrl.toList) (hmark : baseUrl.toList.getLast? = some '?')
    (h : texts (joined baseUrl.toList ++ ((querySeparator baseUrl).toList ++ written (p :: ps))) =
      texts (joined baseUrl.toList) ++ p :: ps) : query (joined baseUrl.toList) = [] := by
  by_contra hne
  have hq : '?' ∈ baseUrl.toList := List.mem_of_getLast? hmark
  have hlast := getLast?_query_joined hfrag (by decide) hmark hne
  have hs : querySeparator baseUrl = "" := by simp [querySeparator, hq, hmark]
  have hlength := length_texts_append_mark (mt (mem_joined_iff rfl).mp hfrag)
    ((mem_joined_iff rfl).mpr hq) hlast p ps
  rw [hs] at h
  have hcount := congrArg List.length h
  rw [String.toList_empty, List.nil_append, hlength, List.length_append, List.length_cons] at hcount
  omega

/-- Blanks behind the base are read once something stands behind them. -/
theorem dropped_eq_nil_of_parse {φ : Type} (reader : FrontReader φ) (hfrag : '#' ∉ baseUrl.toList)
    {front : φ} (hfront : reader.read (beforeQuery (clean baseUrl.toList)) = some front)
    (hread : reader.read (beforeQuery
      (joined baseUrl.toList ++ ((querySeparator baseUrl).toList ++ written (p :: ps)))) = some front)
    (h : texts (joined baseUrl.toList ++ ((querySeparator baseUrl).toList ++ written (p :: ps))) =
      texts (clean baseUrl.toList) ++ p :: ps) : dropped baseUrl.toList = [] := by
  by_contra hne
  have hsplit := joined_eq_clean_append (joined_head hhttp)
  have hjoined : '#' ∉ joined baseUrl.toList := mt (mem_joined_iff rfl).mp hfrag
  have hclean : '#' ∉ clean baseUrl.toList := fun hc => hjoined (hsplit ▸ List.mem_append_left _ hc)
  rcases querySeparator_cases baseUrl with ⟨hs, hq⟩ | ⟨hs, -, hlast⟩ | ⟨hs, hq, -⟩
  · -- the blanks are read with the path
    have hq : '?' ∉ joined baseUrl.toList := mt (mem_joined_iff rfl).mp hq
    have hqclean : '?' ∉ clean baseUrl.toList := fun hc => hq (hsplit ▸ List.mem_append_left _ hc)
    rw [beforeQuery_appended hfrag, beforeQuery_eq_self hjoined hq, hsplit] at hread
    rw [beforeQuery_eq_self hclean hqclean] at hfront
    exact reader.read_append _ _ _ (isWeb_clean (isWeb_of_isHttp hhttp)) hne
      (fun _ => mem_dropped) hfront hread
  · -- a base that ends in a mark ends in no blank
    have hedge : ∀ c, baseUrl.toList.getLast? = some c → isEdge c = false → dropped baseUrl.toList = [] :=
      fun c hc hc' => dropped_eq_nil_iff.mpr fun d hd => by
        rw [getLast?_joined hc' hc] at hd
        rwa [← Option.some.inj hd]
    exact hne (hlast.elim (hedge _ · (by decide)) (hedge _ · (by decide)))
  · -- the blanks are read with the last word of the query
    have hqclean : '?' ∈ clean baseUrl.toList := by
      have hmem : '?' ∈ joined baseUrl.toList := (mem_joined_iff rfl).mpr hq
      rw [hsplit] at hmem
      exact (List.mem_append.mp hmem).resolve_right fun hd => absurd (mem_dropped hd).1 (by decide)
    have htexts := texts_append_amp hjoined ((mem_joined_iff rfl).mpr hq) (p :: ps)
    rw [hs] at h
    have hsame := List.append_cancel_right (htexts.symm.trans h)
    rw [hsplit] at hsame
    exact texts_append_blanks (fun _ => mem_dropped) hne hclean hqclean hsame

end Fails

/-! ## The parts -/

variable {φ : Type} {reader : FrontReader φ} {parts : Parts φ}

/-- **Behind a base that takes them, the parameters are all that is added.** -/
theorem parse_appendQueryParams (hhttp : IsHttp baseUrl) (params : List (String × String))
    (h : params = [] ∨ Appendable baseUrl) :
    parse reader (appendQueryParams baseUrl params) =
      (parse reader baseUrl).map (Parts.addPairs · params) := by
  rcases params with _ | ⟨p, ps⟩
  · simp [appendQueryParams, appendParams, Parts.addPairs]
  have h : Appendable baseUrl := h.resolve_left (List.cons_ne_nil p ps)
  have hclean : clean baseUrl.toList = joined baseUrl.toList := by
    rw [joined_eq_clean_append (joined_head hhttp), dropped_eq_nil h, List.append_nil]
  have hfrag : '#' ∉ joined baseUrl.toList := mt (mem_joined_iff rfl).mp h.noFragment
  simp only [parse, hclean, clean_appendQueryParams hhttp, beforeQuery_appended h.noFragment,
    texts_appended h, fragment_eq_none hfrag, fragment_eq_none (not_mem_appended h.noFragment _),
    Option.map_map]
  rfl

theorem appendable_of_parse (hhttp : IsHttp baseUrl) (hparse : parse reader baseUrl = some parts)
    {p : String × String} {ps : List (String × String)}
    (h : parse reader (appendQueryParams baseUrl (p :: ps)) = some (parts.addPairs (p :: ps))) :
    Appendable baseUrl := by
  obtain ⟨front, hfront, rfl⟩ := Option.map_eq_some_iff.mp hparse
  obtain ⟨front', hread, hparts⟩ := Option.map_eq_some_iff.mp h
  rw [clean_appendQueryParams hhttp] at hread hparts
  obtain ⟨rfl, htexts, -⟩ := Parts.mk.inj hparts
  have hfrag := not_mem_of_texts hhttp p ps htexts
  have hdropped := dropped_eq_nil_of_parse hhttp p ps reader hfrag hfront hread htexts
  have hclean : clean baseUrl.toList = joined baseUrl.toList := by
    rw [joined_eq_clean_append (joined_head hhttp), hdropped, List.append_nil]
  rw [hclean] at htexts
  exact ⟨hfrag, fun hmark => query_eq_nil_of_texts p ps hfrag hmark htexts,
    dropped_eq_nil_iff.mp hdropped⟩

/-- **The parameters are all that is added just if there are none, or the base has no fragment, no
`?` of its own at the end of its query and no blank behind it; and the two copies of the writer agree
on every input.** -/
theorem query_params_added_iff {φ : Type} (reader : FrontReader φ) (baseUrl : String)
    (params : List (String × String)) (hhttp : IsHttp baseUrl) :
    (params = [] ∨ Appendable baseUrl →
      parse reader (appendQueryParams baseUrl params) =
        (parse reader baseUrl).map (Parts.addPairs · params)) ∧
    (∀ parts, parse reader baseUrl = some parts →
      (parse reader (appendQueryParams baseUrl params) = some (parts.addPairs params) ↔
        params = [] ∨ Appendable baseUrl)) ∧
    (∀ value, OAuthRoutes.encodeUrlComponent value = DevPortal.encodeUrlComponent value) ∧
    ∀ baseUrl params,
      OAuthRoutes.appendQueryParams baseUrl params = DevPortal.appendQueryParams baseUrl params := by
  refine ⟨parse_appendQueryParams hhttp params, ?_, OAuthRoutes.encodeUrlComponent_eq,
    OAuthRoutes.appendQueryParams_eq⟩
  intro parts hparse
  constructor
  · intro h
    rcases params with _ | ⟨p, ps⟩
    · exact .inl rfl
    · exact .inr (appendable_of_parse hhttp hparse h)
  · intro h
    rw [parse_appendQueryParams hhttp params h, hparse, Option.map_some]

end Base

/-! ## Bases of the ERP -/

namespace ErpUrls

/-- A reader that keeps the text of scheme, host and path. -/
def textReader : FrontReader (List Char) where
  read front := some front
  read_append _ _ _ _ hne _ hread := fun h => by
    obtain rfl := Option.some.inj hread
    exact hne (List.append_right_eq_self.mp (Option.some.inj h))

def limit : List (String × String) := [("limit", "5")]

/-- Behind a query, the limit is added. -/
theorem query_params_added_limit :
    parse textReader (appendQueryParams "https://erp.test/messages?view=all" limit) =
      some ⟨"https://erp.test/messages".toList, [("view", "all"), ("limit", "5")], none⟩ := by
  have hhttp : IsHttp "https://erp.test/messages?view=all" := .inr (by decide +kernel)
  have hlast : (joined "https://erp.test/messages?view=all".toList).getLast? = some 'l' := by
    decide +kernel
  have happendable : Appendable "https://erp.test/messages?view=all" := by
    refine ⟨by decide +kernel, by decide +kernel, fun c hc => ?_⟩
    obtain rfl := Option.some.inj (hlast.symm.trans hc)
    decide
  have hbase : parse textReader "https://erp.test/messages?view=all" =
      some ⟨"https://erp.test/messages".toList, [("view", "all")], none⟩ := by decide +kernel
  have hadded := query_params_added_iff textReader "https://erp.test/messages?view=all" limit hhttp
  exact (hadded.2.1 _ hbase).mpr (.inr happendable)

/-- A fragment takes it. -/
theorem query_params_lost_in_fragment :
    ¬ ∀ {φ : Type} (reader : FrontReader φ) (baseUrl : String) (parts : Parts φ)
      (params : List (String × String)), IsHttp baseUrl → parse reader baseUrl = some parts →
      (∀ p ∈ params, p.1 ≠ "") →
      parse reader (appendQueryParams baseUrl params) = some (parts.addPairs params) := by
  intro h
  have hbase : parse textReader "https://erp.test/messages?view=all#top" =
      some ⟨"https://erp.test/messages".toList, [("view", "all")], some "top".toList⟩ := by decide +kernel
  have hlost : parse textReader (appendQueryParams "https://erp.test/messages?view=all#top" limit) =
      some ⟨"https://erp.test/messages".toList, [("view", "all")], some "top&limit=5".toList⟩ := by
    decide +kernel
  have hadded := h textReader _ _ limit (.inr (by decide +kernel)) hbase (by decide +kernel)
  rw [hlost] at hadded
  exact absurd hadded (by decide)

end ErpUrls

end DevPortal
