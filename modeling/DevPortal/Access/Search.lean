import DevPortal.Access.Queries
import DevPortal.Machinery.Like

/-!
# Access/Search — what a search of the inbox finds

    50%_\   ▸   %50\%\_\\%   ▸   [any, 5, 0, %, _, \, any]

Three replacements, the backslash first, escape every character on its own
(`searchPattern_eq`), so the pattern is the search itself between two `%`.  That holds however
characters are compared, and as well where both sides are lowered before they are matched.
-/

namespace DevPortal

open NotificationRepository Sql

/-! ## The pattern -/

/-- **The replacements escape each character once.** -/
theorem searchPattern_eq (search : String) :
    (searchPattern search).toList = '%' :: (search.toList.flatMap Like.escape ++ ['%']) := by
  have hescape : ∀ c : Char,
      (((if c = '\\' then "\\\\".toList else [c]).flatMap
        fun d => if d = '%' then "\\%".toList else [d]).flatMap
          fun d => if d = '_' then "\\_".toList else [d]) = Like.escape c := by
    intro c
    by_cases hback : c = '\\'
    · subst hback
      rfl
    · by_cases hpercent : c = '%'
      · subst hpercent
        rfl
      · by_cases hscore : c = '_'
        · subst hscore
          rfl
        · simp [Like.escape, Like.special, hback, hpercent, hscore]
  simp only [searchPattern, Text.replace, String.toList_append, String.toList_ofList,
    List.flatMap_assoc]
  simp only [← List.flatMap_assoc, hescape]
  rfl

/-- No character of the search is a wildcard, and none an escape. -/
theorem tokens_searchPattern (search : String) :
    Like.tokens (searchPattern search).toList =
      some (.any :: (search.toList.map .literal ++ [.any])) := by
  rw [searchPattern_eq, Like.tokens_escaped]

/-- **A text matches the pattern just if the search stands in it.** -/
theorem like_searchPattern (same : Char → Char → Bool) (text search : String) :
    Like.like same text (searchPattern search) = true ↔
      Like.Contains same search.toList text.toList := by
  rw [Like.like, tokens_searchPattern, Option.any_some, Like.matches_contains]

/-! ## Lower case -/

/-- A text with its characters in lower case. -/
def lowered (lower : Char → List Char) (text : String) : String :=
  String.ofList (text.toList.flatMap lower)

/-- Where both sides are lowered first, the pattern is that of the lowered search. -/
theorem lowered_searchPattern {lower : Char → List Char} (h : Like.KeepsSpecial lower)
    (search : String) : lowered lower (searchPattern search) = searchPattern (lowered lower search) := by
  have hpercent : lower '%' = ['%'] := h.self '%' (by decide)
  rw [← String.toList_inj, lowered, String.toList_ofList, searchPattern_eq, searchPattern_eq, lowered,
    String.toList_ofList, List.flatMap_cons, List.flatMap_append, Like.flatMap_escape h, hpercent,
    List.flatMap_singleton, hpercent]
  rfl

theorem contains_eq_infix {search text : List Char} :
    Like.Contains (fun c d => c = d) search text ↔ search <:+: text := by
  have heq : ∀ l l' : List Char,
      List.Forall₂ (fun c d => decide (c = d) = true) l l' ↔ l = l' := by
    intro l l'
    simp only [decide_eq_true_eq, List.forall₂_eq_eq_eq]
  constructor
  · rintro ⟨skipped, found, rest, rfl, hfound⟩
    obtain rfl := (heq _ _).mp hfound
    exact ⟨skipped, rest, rfl⟩
  · rintro ⟨skipped, rest, rfl⟩
    exact ⟨skipped, search, rest, rfl, (heq _ _).mpr rfl⟩

/-- **The search of the inbox is literal**: its pattern has no wildcard but the two around it and no
escape of the user's, it matches the texts in which the search stands, compared without regard to
case in whatever way, and the inbox finds the notifications with such a title or body. -/
theorem inbox_search_literal :
    (∀ search, Like.tokens (searchPattern search).toList =
      some (.any :: (search.toList.map .literal ++ [.any]))) ∧
    (∀ same search text, Like.like same text (searchPattern search) = true ↔
      Like.Contains same search.toList text.toList) ∧
    (∀ lower, Like.KeepsSpecial lower → ∀ search text,
      Like.like (fun c d => c = d) (lowered lower text) (lowered lower (searchPattern search)) = true ↔
        (lowered lower search).toList <:+: (lowered lower text).toList) ∧
    (∀ same state search (n : Notification),
      (contentFilters (Like.like same) ⟨state, some search, none, none⟩).selects n = true ↔
        Like.Contains same search.toList n.content.title.toList ∨
          ∃ body ∈ n.content.body, Like.Contains same search.toList body.toList) := by
  refine ⟨tokens_searchPattern, fun same search text => like_searchPattern same text search, ?_, ?_⟩
  · intro lower hlower search text
    rw [lowered_searchPattern hlower, like_searchPattern, contains_eq_infix]
  · intro same state search n
    simp only [contentFilters, Where.optional, Option.map_some, Option.map_none, Option.toList_none,
      Option.toList_some, List.nil_append, Where.selects_cons, Where.selects_nil, and_true,
      Cond.or_holds, compareWith_holds, Option.mem_def, Option.some.injEq, exists_eq_left',
      like_searchPattern]

/-- The capital letters of ASCII in lower case. -/
def Sample.lowerAscii (c : Char) : List Char :=
  if 65 ≤ c.toNat ∧ c.toNat ≤ 90 then [Char.ofNat (c.toNat + 32)] else [c]

theorem Sample.keepsSpecial_lowerAscii : Like.KeepsSpecial Sample.lowerAscii where
  self := by
    intro c hc
    simp only [Like.special, Bool.or_eq_true, decide_eq_true_eq] at hc
    rcases hc with (rfl | rfl) | rfl <;> rfl
  other := by
    intro c hc d hd
    rw [lowerAscii] at hd
    split at hd
    · next hupper =>
      have hall : ∀ n : Fin 26, Like.special (Char.ofNat (n.val + 65 + 32)) = false := by decide
      have hletter := hall ⟨c.toNat - 65, by omega⟩
      simp only [Nat.sub_add_cancel hupper.1] at hletter
      rw [List.mem_singleton.mp hd]
      exact hletter
    · rw [List.mem_singleton.mp hd]
      exact hc

/-- A search for a percent sign finds it, and nothing else. -/
theorem inbox_search_percent :
    Like.like (fun c d => c = d) (lowered Sample.lowerAscii "100% DONE")
        (lowered Sample.lowerAscii (searchPattern "0% d")) = true ∧
      ¬ Like.like (fun c d => c = d) (lowered Sample.lowerAscii "100 done")
        (lowered Sample.lowerAscii (searchPattern "0% d")) = true := by
  have hliteral := inbox_search_literal.2.2.1 Sample.lowerAscii Sample.keepsSpecial_lowerAscii
  rw [hliteral "0% d" "100% DONE", hliteral "0% d" "100 done"]
  decide +kernel

end DevPortal
