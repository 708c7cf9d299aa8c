import DevPortal.Frontend.ReturnTo

/-!
# Auth/EntraRedirect — where a browser goes after signing in at Entra

    return_to ──normalize_return_to──▸ transaction ──callback_target──▸ /?marker#fragment

The route is checked when the login starts and again when it ends; the second check finds nothing,
for what the first one lets through it leaves alone (`normalizeReturnTo_normalizeReturnTo`).
-/

namespace DevPortal

/-- `EntraFlowError`. -/
inductive EntraFlowError
  | accessDenied
  | accountNotAllowed
  | invalidState
  | providerUnavailable
  | configuration
  deriving DecidableEq, Repr

/-- What `callback_target` says about the result. -/
def callbackMarker : Except EntraFlowError Unit → String
  | .ok () => "auth_result=entra"
  | .error .accessDenied => "auth_error=entra_access_denied"
  | .error .accountNotAllowed => "auth_error=entra_account_not_allowed"
  | .error .invalidState => "auth_error=entra_invalid_state"
  | .error .providerUnavailable => "auth_error=entra_provider_unavailable"
  | .error .configuration => "auth_error=entra_configuration_error"

/-- `callback_target`. -/
def callbackTarget (returnTo : String) (result : Except EntraFlowError Unit) : String :=
  let fragment := (Text.stripPrefix (normalizeReturnTo (some returnTo)) "/#").getD "dashboard"
  "/?" ++ callbackMarker result ++ "#" ++ fragment

/-- The markers. -/
def callbackMarkers : List String :=
  ["auth_result=entra", "auth_error=entra_access_denied", "auth_error=entra_account_not_allowed",
    "auth_error=entra_invalid_state", "auth_error=entra_provider_unavailable",
    "auth_error=entra_configuration_error"]

theorem callbackMarker_mem (result : Except EntraFlowError Unit) :
    callbackMarker result ∈ callbackMarkers := by
  cases result with
  | error error => cases error <;> decide
  | ok done => cases done; decide

/-- **A fragment that stays in the portal**: short, of letters, digits and a few signs. -/
structure SafeFragment (fragment : String) : Prop where
  nonempty : fragment ≠ ""
  short : fragment.utf8ByteSize ≤ 510
  plain : ∀ c ∈ fragment.toList, c.isAlphanum ∨ c ∈ ['/', '?', '&', '=', '_', '%', '.', '+', '-']

theorem isReturnChar_iff {c : Char} :
    isReturnChar c ↔ c.isAlphanum ∨ c ∈ ['/', '?', '&', '=', '_', '%', '.', '+', '-'] := by
  have hlist : "/?&=_%.+-".toList = ['/', '?', '&', '=', '_', '%', '.', '+', '-'] := by decide
  rw [isReturnChar, hlist, Bool.or_eq_true, List.contains_iff_mem]

/-- What is not left alone is replaced. -/
theorem normalizeReturnTo_cases (returnTo : Option String) :
    normalizeReturnTo returnTo = "/#dashboard" ∨
      normalizeReturnTo returnTo = returnTo.getD "/#dashboard" ∧
        ∃ fragment, returnTo.getD "/#dashboard" = "/#" ++ fragment ∧ fragment ≠ "" := by
  unfold normalizeReturnTo
  dsimp only
  split
  next hsafe =>
    refine .inr ⟨rfl, ?_⟩
    simp only [Bool.and_eq_true] at hsafe
    obtain ⟨fragment, hfragment, hne⟩ := Option.any_eq_true .. |>.mp hsafe.1.1.1.2
    exact ⟨fragment, Text.eq_append_of_stripPrefix hfragment, by simpa using hne⟩
  next => exact .inl rfl

theorem safeFragment_dashboard : SafeFragment "dashboard" where
  nonempty := by decide
  short := by decide
  plain := by
    have hall : ("dashboard".toList.all fun c => c.isAlphanum) = true := by decide
    exact fun c hc => .inl (List.all_eq_true.mp hall c hc)

/-- **What the server lets through is a safe fragment of the portal.** -/
theorem exists_safeFragment (returnTo : Option String) :
    ∃ fragment, normalizeReturnTo returnTo = "/#" ++ fragment ∧ SafeFragment fragment := by
  rcases normalizeReturnTo_cases returnTo with h | ⟨h, fragment, hfragment, hne⟩
  · exact ⟨"dashboard", h, safeFragment_dashboard⟩
  · have hsome : normalizeReturnTo (some ("/#" ++ fragment)) = "/#" ++ fragment := by
      rw [← hfragment]
      exact h
    obtain ⟨hshort, hplain⟩ := (normalizeReturnTo_fragment hne).mp hsome
    exact ⟨fragment, h.trans hfragment, hne, hshort, fun c hc => isReturnChar_iff.mp (hplain c hc)⟩

theorem normalizeReturnTo_safe {fragment : String} (h : SafeFragment fragment) :
    normalizeReturnTo (some ("/#" ++ fragment)) = "/#" ++ fragment :=
  (normalizeReturnTo_fragment h.nonempty).mpr
    ⟨h.short, fun c hc => isReturnChar_iff.mpr (h.plain c hc)⟩

/-- **The server leaves a route alone just if it is a safe fragment of the portal.** -/
theorem normalizeReturnTo_eq_self_iff {returnTo : String} :
    normalizeReturnTo (some returnTo) = returnTo ↔
      ∃ fragment, returnTo = "/#" ++ fragment ∧ SafeFragment fragment := by
  constructor
  · intro h
    rw [← h]
    exact exists_safeFragment (some returnTo)
  · rintro ⟨fragment, rfl, hsafe⟩
    exact normalizeReturnTo_safe hsafe

/-- The second check finds nothing. -/
theorem normalizeReturnTo_normalizeReturnTo (returnTo : Option String) :
    normalizeReturnTo (some (normalizeReturnTo returnTo)) = normalizeReturnTo returnTo :=
  normalizeReturnTo_eq_self_iff.mpr (exists_safeFragment returnTo)

/-- The target of a route that was stored. -/
theorem callbackTarget_fragment {returnTo fragment : String}
    (h : normalizeReturnTo (some returnTo) = "/#" ++ fragment)
    (result : Except EntraFlowError Unit) :
    callbackTarget returnTo result = "/?" ++ callbackMarker result ++ "#" ++ fragment := by
  rw [callbackTarget, h, Text.stripPrefix_append, Option.getD_some]

/-! ## A login -/

/-- What `start_entra_login` stores of its `return_to`. -/
def storedReturnTo (returnTo : Option String) : String := normalizeReturnTo returnTo

/-- The last redirect of `finish_entra_login`: to the route of the transaction it consumed, or to the
dashboard if it found none. -/
def finishRedirect (consumed : Option String) (result : Except EntraFlowError Unit) : String :=
  callbackTarget (consumed.getD "/#dashboard") result

/-- **No login ends outside of the portal**, and one that was started at a route ends there. -/
theorem signIn_stays_in_portal :
    (∀ returnTo result, ∃ marker ∈ callbackMarkers, ∃ fragment, SafeFragment fragment ∧
      callbackTarget returnTo result = "/?" ++ marker ++ "#" ++ fragment) ∧
    (∀ returnTo, normalizeReturnTo (some (normalizeReturnTo returnTo)) = normalizeReturnTo returnTo) ∧
    (∀ returnTo, normalizeReturnTo (some returnTo) = returnTo ↔
      ∃ fragment, returnTo = "/#" ++ fragment ∧ SafeFragment fragment) ∧
    ∀ returnTo result, ∃ fragment, storedReturnTo returnTo = "/#" ++ fragment ∧
      finishRedirect (some (storedReturnTo returnTo)) result =
        "/?" ++ callbackMarker result ++ "#" ++ fragment := by
  refine ⟨fun returnTo result => ?_, normalizeReturnTo_normalizeReturnTo,
    fun _ => normalizeReturnTo_eq_self_iff, fun returnTo result => ?_⟩
  · obtain ⟨fragment, hfragment, hsafe⟩ := exists_safeFragment (some returnTo)
    exact ⟨_, callbackMarker_mem result, fragment, hsafe, callbackTarget_fragment hfragment result⟩
  · obtain ⟨fragment, hfragment, hsafe⟩ := exists_safeFragment returnTo
    refine ⟨fragment, hfragment, callbackTarget_fragment ?_ result⟩
    exact (normalizeReturnTo_normalizeReturnTo returnTo).trans hfragment

end DevPortal
