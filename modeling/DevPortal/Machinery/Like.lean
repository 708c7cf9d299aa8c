import Mathlib.Data.List.Infix

/-!
# Machinery/Like — the patterns of `LIKE`

    %a\%b_   ▸   [any, a, %, b, one]

A pattern is read as tokens: `%` is any sequence, `_` any character, and a backslash takes what is
behind it literally.  A text escaped character by character is read as itself (`tokens_escaped`), and
between two `%` it matches just the texts it stands in (`matches_contains`).
-/

namespace Like

/-- A pattern, read. -/
inductive Token
  | any
  | one
  | literal (c : Char)
  deriving DecidableEq

/-- The tokens of a pattern; a backslash at its end is an error. -/
def tokens : List Char → Option (List Token)
  | [] => some []
  | c :: rest =>
    if c = '\\' then
      match rest with
      | [] => none
      | d :: rest => (tokens rest).map (.literal d :: ·)
    else if c = '%' then (tokens rest).map (.any :: ·)
    else if c = '_' then (tokens rest).map (.one :: ·)
    else (tokens rest).map (.literal c :: ·)

section Matching

variable (same : Char → Char → Bool)

/-- **A text matches tokens**; `%` is tried with every ending of the text. -/
def matchTokens : List Token → List Char → Bool
  | [], text => text.isEmpty
  | .any :: pattern, text => text.tails.any (matchTokens pattern)
  | .one :: pattern, text =>
    match text with
    | [] => false
    | _ :: text => matchTokens pattern text
  | .literal c :: pattern, text =>
    match text with
    | [] => false
    | d :: text => same c d && matchTokens pattern text

/-- A text matches a pattern. -/
def like (text pattern : String) : Bool :=
  (tokens pattern.toList).any fun pattern => matchTokens same pattern text.toList

variable {same}

theorem matchTokens_any {pattern : List Token} {text : List Char} :
    matchTokens same (.any :: pattern) text = true ↔
      ∃ skipped rest, text = skipped ++ rest ∧ matchTokens same pattern rest = true := by
  rw [matchTokens, List.any_eq_true]
  constructor
  · rintro ⟨rest, hrest, hmatch⟩
    obtain ⟨skipped, rfl⟩ := (List.mem_tails _ _).mp hrest
    exact ⟨skipped, rest, rfl, hmatch⟩
  · rintro ⟨skipped, rest, rfl, hmatch⟩
    exact ⟨rest, (List.mem_tails _ _).mpr (List.suffix_append skipped rest), hmatch⟩

/-- A closing `%` matches what is left. -/
theorem matchTokens_rest (text : List Char) : matchTokens same [.any] text = true :=
  matchTokens_any.mpr ⟨text, [], (List.append_nil text).symm, rfl⟩

/-- Literals match a text that begins with the same characters. -/
theorem matchTokens_literals {literals : List Char} {pattern : List Token} {text : List Char} :
    matchTokens same (literals.map .literal ++ pattern) text = true ↔
      ∃ found rest, text = found ++ rest ∧ List.Forall₂ (fun c d => same c d = true) literals found ∧
        matchTokens same pattern rest = true := by
  induction literals generalizing text with
  | nil =>
    constructor
    · intro h
      exact ⟨[], text, rfl, .nil, h⟩
    · rintro ⟨found, rest, rfl, hfound, h⟩
      cases hfound
      exact h
  | cons c literals ih =>
    rcases text with _ | ⟨d, text⟩
    · constructor
      · intro h
        cases h
      · rintro ⟨found, rest, htext, hfound, -⟩
        cases hfound
        cases htext
    · rw [List.map_cons, List.cons_append, matchTokens, Bool.and_eq_true, ih]
      constructor
      · rintro ⟨hsame, found, rest, rfl, hfound, h⟩
        exact ⟨d :: found, rest, rfl, .cons hsame hfound, h⟩
      · rintro ⟨found, rest, htext, hfound, h⟩
        cases hfound with
        | cons hsame hfound =>
          obtain ⟨rfl, rfl⟩ := List.cons.inj htext
          exact ⟨hsame, _, rest, rfl, hfound, h⟩

/-- Some characters stand in a text one after the other, each the same in the comparison. -/
def Contains (same : Char → Char → Bool) (search text : List Char) : Prop :=
  ∃ skipped found rest, text = skipped ++ found ++ rest ∧
    List.Forall₂ (fun c d => same c d = true) search found

/-- **Between two `%`, literals match the texts they stand in.** -/
theorem matches_contains {search text : List Char} :
    matchTokens same (.any :: (search.map .literal ++ [.any])) text = true ↔
      Contains same search text := by
  rw [matchTokens_any]
  constructor
  · rintro ⟨skipped, rest, rfl, h⟩
    obtain ⟨found, rest, rfl, hfound, -⟩ := matchTokens_literals.mp h
    exact ⟨skipped, found, rest, (List.append_assoc ..).symm, hfound⟩
  · rintro ⟨skipped, found, rest, rfl, hfound⟩
    exact ⟨skipped, found ++ rest, List.append_assoc .., matchTokens_literals.mpr
      ⟨found, rest, rfl, hfound, matchTokens_rest rest⟩⟩

end Matching

/-! ## Escaping -/

/-- The characters that mean something in a pattern. -/
def special (c : Char) : Bool := c = '\\' || c = '%' || c = '_'

/-- A character, taken literally. -/
def escape (c : Char) : List Char := if special c then ['\\', c] else [c]

theorem tokens_escape (c : Char) (rest : List Char) :
    tokens (escape c ++ rest) = (tokens rest).map (.literal c :: ·) := by
  rw [escape]
  split
  · rw [List.cons_append, List.singleton_append, tokens, if_pos rfl]
  · next h =>
    simp only [special, Bool.or_eq_true, decide_eq_true_eq, not_or] at h
    rw [List.singleton_append, tokens.eq_def]
    simp only [h.1.1, h.1.2, h.2, if_false]

/-- **An escaped text is read as itself**, in front of a `%`. -/
theorem tokens_escaped (search : List Char) :
    tokens ('%' :: (search.flatMap escape ++ ['%'])) =
      some (.any :: (search.map .literal ++ [.any])) := by
  have hsearch : tokens (search.flatMap escape ++ ['%']) = some (search.map .literal ++ [.any]) := by
    induction search with
    | nil => rfl
    | cons c search ih =>
      rw [List.flatMap_cons, List.append_assoc, tokens_escape, ih]
      rfl
  rw [tokens.eq_def]
  simp only [hsearch]
  rfl

/-! ## Texts in lower case -/

/-- Lower-casing leaves alone what means something in a pattern, and makes none of it. -/
structure KeepsSpecial (lower : Char → List Char) : Prop where
  self : ∀ c, special c → lower c = [c]
  other : ∀ c, special c = false → ∀ d ∈ lower c, special d = false

theorem flatMap_escape {lower : Char → List Char} (h : KeepsSpecial lower) (search : List Char) :
    (search.flatMap escape).flatMap lower = (search.flatMap lower).flatMap escape := by
  rw [List.flatMap_assoc, List.flatMap_assoc]
  refine List.flatMap_congr fun c _ => ?_
  cases hc : special c with
  | true =>
    have hback : lower '\\' = ['\\'] := h.self '\\' (by decide)
    rw [h.self c hc, escape, hc, if_pos rfl, List.flatMap_cons, List.flatMap_singleton, hback,
      h.self c hc, List.flatMap_singleton, escape, hc, if_pos rfl]
    rfl
  | false =>
    have hplain : ∀ d ∈ lower c, escape d = [d] := fun d hd => by
      rw [escape, h.other c hc d hd, if_neg Bool.false_ne_true]
    rw [escape, hc, if_neg Bool.false_ne_true, List.flatMap_singleton, List.flatMap_congr hplain,
      List.flatMap_singleton']

end Like
