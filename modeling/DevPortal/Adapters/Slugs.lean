import DevPortal.Adapters.Fields
import DevPortal.Machinery.Groups
import DevPortal.Machinery.Unicode

/-!
# Adapters/Slugs — the slugs of records without an id

    value ▸ lower case ▸ groups of letters and digits ▸ joined by dashes

`slugifyLoop` carries the slug so far, which ends in a dash where one is pending; trimmed at the end
it is the groups of the value, joined (`slugify_eq`).  What a slug looks like, that it is its own
slug, and that nothing at either end changes it are then facts about groups.
-/

namespace DevPortal

namespace Slug

open Groups

/-! ## The loop of the source -/

/-- `char::is_ascii_alphanumeric`. -/
def isAsciiAlphanumeric (c : Char) : Bool := c.toNat < 128 && c.isAlphanum

/-- The loop of `slugify`, with its flag. -/
def slugifyFlagged : (slug : List Char) → (lastWasDash : Bool) → List Char → List Char
  | slug, _, [] => slug
  | slug, lastWasDash, c :: cs =>
    if isAsciiAlphanumeric c then slugifyFlagged (c :: slug) false cs
    else if !lastWasDash && !slug.isEmpty then slugifyFlagged ('-' :: slug) true cs
    else slugifyFlagged slug lastWasDash cs

theorem ne_dash {c : Char} (h : isAsciiAlphanumeric c) : c ≠ '-' := by
  rintro rfl
  revert h
  decide

/-- **The flag says that the slug ends in a dash.** -/
theorem slugifyFlagged_eq (slug cs : List Char) :
    slugifyFlagged slug (slug.head? = some '-') cs = slugifyLoop slug cs := by
  induction cs generalizing slug with
  | nil => rfl
  | cons c cs ih =>
    rw [slugifyFlagged, slugifyLoop]
    change (if isAsciiAlphanumeric c then _ else _) = if isAsciiAlphanumeric c then _ else _
    split
    · next hc =>
      have hflag : decide ((c :: slug).head? = some '-') = false :=
        decide_eq_false fun h => ne_dash hc (Option.some.inj h)
      rw [← ih, hflag]
    · rw [← ih, ← ih]
      rcases slug with _ | ⟨d, slug⟩
      · rfl
      · by_cases hd : d = '-'
        · simp [hd]
        · simp [hd]

/-- What the loop looks at. -/
def mark (c : Char) : Option Char := if isAsciiAlphanumeric c then some c else none

theorem slugifyFlagged_congr (slug : List Char) (lastWasDash : Bool) {cs cs' : List Char}
    (h : cs.map mark = cs'.map mark) :
    slugifyFlagged slug lastWasDash cs = slugifyFlagged slug lastWasDash cs' := by
  induction cs generalizing slug lastWasDash cs' with
  | nil =>
    obtain rfl : cs' = [] := by simpa using h.symm
    rfl
  | cons c cs ih =>
    rcases cs' with _ | ⟨c', cs'⟩
    · cases h
    · obtain ⟨hmark, hrest⟩ := List.cons.inj h
      rw [slugifyFlagged, slugifyFlagged]
      rw [mark, mark] at hmark
      split at hmark
      · next hc =>
        split at hmark
        · next hc' =>
          obtain rfl := Option.some.inj hmark
          rw [if_pos hc, if_pos hc, ih _ _ hrest]
        · cases hmark
      · next hc =>
        split at hmark
        · cases hmark
        · next hc' => rw [if_neg hc, if_neg hc', ih _ _ hrest, ih _ _ hrest]

/-- `slugify` over a table of lower-case characters. -/
def slugifyBy (lower : Char → List Char) (value : String) : String :=
  let slug := slugifyFlagged [] false (value.toList.flatMap lower)
  String.ofList ((slug.dropWhile (· == '-')).reverse.dropWhile (· == '-'))

/-- **Only what lower-cases to ASCII matters.** -/
theorem slugifyBy_eq {lower : Char → List Char}
    (h : ∀ c, (lower c).map mark = (toLowercase c).map mark) (value : String) :
    slugifyBy lower value = slugify value := by
  have hmap : (value.toList.flatMap lower).map mark = (value.toList.flatMap toLowercase).map mark := by
    rw [List.map_flatMap, List.map_flatMap]
    exact congrArg (value.toList.flatMap ·) (funext h)
  rw [slugifyBy, slugify, slugifyFlagged_congr [] false hmap, ← slugifyFlagged_eq]
  rfl

/-! ## Groups, joined -/

theorem dash_not_member : isAsciiAlphanumeric '-' = false := by decide

/-- The finished slug, trimmed at its end. -/
def finished (slug : List Char) : List Char := (slug.dropWhile (· == '-')).reverse

theorem finished_cons {c : Char} (h : isAsciiAlphanumeric c) (slug : List Char) :
    finished (c :: slug) = (c :: slug).reverse := by
  rw [finished, List.dropWhile_cons_of_neg (by simpa using ne_dash h)]

theorem finished_dash (slug : List Char) : finished ('-' :: slug) = finished slug := by
  rw [finished, finished, List.dropWhile_cons_of_pos (by decide)]

theorem slugifyLoop_member {c : Char} (h : isAsciiAlphanumeric c) (slug cs : List Char) :
    slugifyLoop slug (c :: cs) = slugifyLoop (c :: slug) cs := by
  rw [slugifyLoop]
  exact if_pos h

/-- The first character that is skipped behind a group leaves a dash. -/
theorem slugifyLoop_dash {c d : Char} (h : isAsciiAlphanumeric d = false)
    (hc : isAsciiAlphanumeric c) (slug cs : List Char) :
    slugifyLoop (c :: slug) (d :: cs) = slugifyLoop ('-' :: c :: slug) cs := by
  rw [slugifyLoop]
  refine (if_neg (ne_true_of_eq_false h)).trans (if_neg ?_)
  simpa using ne_dash hc

/-- The others leave nothing. -/
theorem slugifyLoop_pending {d : Char} (h : isAsciiAlphanumeric d = false) {slug : List Char}
    (hslug : slug = [] ∨ slug.head? = some '-') (cs : List Char) :
    slugifyLoop slug (d :: cs) = slugifyLoop slug cs := by
  rw [slugifyLoop]
  refine (if_neg (ne_true_of_eq_false h)).trans (if_pos ?_)
  rcases hslug with rfl | hslug
  · rfl
  · simp [hslug]

/-- Behind a letter or a digit, and behind a dash.  The induction is on what is left; a dash that is
pending is written as soon as a group follows. -/
theorem finished_slugifyLoop (cs : List Char) {c : Char} (hc : isAsciiAlphanumeric c)
    (slug : List Char) :
    finished (slugifyLoop (c :: slug) cs) = (c :: slug).reverse ++
        ((split isAsciiAlphanumeric cs).1 ++ (split isAsciiAlphanumeric cs).2.flatMap ('-' :: ·)) ∧
      finished (slugifyLoop ('-' :: c :: slug) cs) = (c :: slug).reverse ++
        (groups isAsciiAlphanumeric cs).flatMap ('-' :: ·) := by
  induction cs generalizing c slug with
  | nil =>
    constructor
    · simp [slugifyLoop, finished_cons hc, split]
    · simp [slugifyLoop, finished_dash, finished_cons hc, groups, split, front]
  | cons d cs ih =>
    cases hd : isAsciiAlphanumeric d with
    | true =>
      rw [slugifyLoop_member hd, slugifyLoop_member hd, (ih hd _).1, (ih hd _).1, split_cons_pos hd,
        groups_cons_pos hd]
      constructor <;> simp
    | false =>
      rw [slugifyLoop_dash hd hc, slugifyLoop_pending hd (.inr rfl), (ih hc _).2, split_cons_neg hd,
        groups_cons_neg hd]
      exact ⟨rfl, rfl⟩

/-- From the beginning. -/
theorem finished_slugifyLoop_nil (cs : List Char) :
    finished (slugifyLoop [] cs) = ['-'].intercalate (groups isAsciiAlphanumeric cs) := by
  induction cs with
  | nil => rfl
  | cons c cs ih =>
    cases hc : isAsciiAlphanumeric c with
    | true =>
      rw [slugifyLoop_member hc, (finished_slugifyLoop cs hc []).1, groups_cons_pos hc,
        intercalate_cons]
      simp
    | false => rw [slugifyLoop_pending hc (.inl rfl), ih, groups_cons_neg hc]

/-- The groups of a value in lower case. -/
def slugGroups (value : String) : List (List Char) :=
  groups isAsciiAlphanumeric (value.toList.flatMap toLowercase)

/-- Joined groups begin with no dash. -/
theorem dropWhile_intercalate {parts : List (List Char)}
    (h : ∀ part ∈ parts, IsGroup isAsciiAlphanumeric part) :
    (['-'].intercalate parts).dropWhile (· == '-') = ['-'].intercalate parts := by
  rcases parts with _ | ⟨part, parts⟩
  · rfl
  · rw [List.forall_mem_cons] at h
    obtain ⟨c, cs, rfl⟩ := List.exists_cons_of_ne_nil h.1.1
    have hc : isAsciiAlphanumeric c := h.1.2 c List.mem_cons_self
    rw [intercalate_cons, List.cons_append, List.dropWhile_cons_of_neg (by simpa using ne_dash hc)]

/-- **A slug is the groups of its value, joined.** -/
theorem slugify_eq (value : String) :
    slugify value = String.ofList (['-'].intercalate (slugGroups value)) := by
  have hloop := finished_slugifyLoop_nil (value.toList.flatMap toLowercase)
  rw [finished] at hloop
  simp only [slugify]
  rw [hloop, dropWhile_intercalate fun part hpart => isGroup_of_mem hpart]
  rfl

/-! ## What a slug looks like -/

/-- A small letter or a digit. -/
def isSlugChar (c : Char) : Bool := ('a' ≤ c && c ≤ 'z') || ('0' ≤ c && c ≤ '9')

/-- **One or more groups of small letters and digits, joined by single dashes.** -/
def Formed (slug : String) : Prop :=
  ∃ parts : List (List Char), parts ≠ [] ∧ (∀ part ∈ parts, IsGroup isSlugChar part) ∧
    slug.toList = ['-'].intercalate parts

theorem Formed.ne_empty {slug : String} (h : Formed slug) : slug ≠ "" := by
  rintro rfl
  obtain ⟨parts, hne, hparts, hslug⟩ := h
  obtain ⟨part, parts, rfl⟩ := List.exists_cons_of_ne_nil hne
  rw [intercalate_cons] at hslug
  exact (hparts part List.mem_cons_self).1 (List.append_eq_nil_iff.mp hslug.symm).1

theorem toLowercase_ascii {c : Char} (h : c.toNat < 128) :
    ∀ d ∈ toLowercase c, isAsciiAlphanumeric d = true → isSlugChar d = true := by
  have hall : ∀ n : Fin 128, ((toLowercase (Char.ofNat n)).all fun d =>
      !isAsciiAlphanumeric d || isSlugChar d) = true := by decide +kernel
  have hc := hall ⟨c.toNat, h⟩
  rw [Char.ofNat_toNat, List.all_eq_true] at hc
  intro d hd hmember
  have hd := hc d hd
  rwa [hmember, Bool.not_true, Bool.false_or] at hd

theorem toLower_eq_self {c : Char} (h : 128 ≤ c.toNat) : c.toLower = c := by
  refine dif_neg fun hupper => ?_
  have hle : c.toNat ≤ 90 := UInt32.le_iff_toNat_le.mp hupper.2
  omega

/-- What a lower-case text has of letters and digits belongs in a slug. -/
theorem isSlugChar_of_toLowercase {c d : Char} (hd : d ∈ toLowercase c)
    (hmember : isAsciiAlphanumeric d) : isSlugChar d := by
  by_cases hascii : c.toNat < 128
  · exact toLowercase_ascii hascii d hd hmember
  · rw [toLowercase] at hd
    split at hd
    · obtain rfl := List.mem_singleton.mp hd
      decide
    · split at hd
      · rcases List.mem_cons.mp hd with rfl | hd
        · decide
        · obtain rfl := List.mem_singleton.mp hd
          revert hmember
          decide
      · obtain rfl := List.mem_singleton.mp hd
        rw [toLower_eq_self (Nat.le_of_not_lt hascii)] at hmember
        simp [isAsciiAlphanumeric, hascii] at hmember

theorem isGroup_slugGroups {value : String} {part : List Char} (h : part ∈ slugGroups value) :
    IsGroup isSlugChar part := by
  obtain ⟨hne, hmembers⟩ := isGroup_of_mem h
  refine ⟨hne, fun d hd => ?_⟩
  obtain ⟨c, -, hc⟩ := List.mem_flatMap.mp (subset_of_mem h hd)
  exact isSlugChar_of_toLowercase hc (hmembers d hd)

/-- **A slug is empty or well formed.** -/
theorem formed_slugify (value : String) : slugify value = "" ∨ Formed (slugify value) := by
  by_cases h : slugGroups value = []
  · refine .inl ?_
    rw [slugify_eq, h]
    rfl
  · refine .inr ⟨slugGroups value, h, fun part hpart => isGroup_slugGroups hpart, ?_⟩
    rw [slugify_eq, String.toList_ofList]

/-! ## What does not change a slug -/

theorem mem_intercalate {parts : List (List Char)} {c : Char}
    (h : c ∈ ['-'].intercalate parts) : c = '-' ∨ ∃ part ∈ parts, c ∈ part := by
  induction parts with
  | nil => cases h
  | cons part parts ih =>
    rw [intercalate_cons, List.mem_append] at h
    rcases h with h | h
    · exact .inr ⟨part, List.mem_cons_self, h⟩
    · obtain ⟨next, hnext, h⟩ := List.mem_flatMap.mp h
      rcases List.mem_cons.mp h with rfl | h
      · exact .inl rfl
      · exact .inr ⟨next, List.mem_cons_of_mem _ hnext, h⟩

theorem slugChar_cases {c : Char} (h : isSlugChar c) :
    toLowercase c = [c] ∧ isAsciiAlphanumeric c = true := by
  have hlt : c.toNat < 128 := by
    simp only [isSlugChar, Bool.or_eq_true, Bool.and_eq_true, decide_eq_true_eq] at h
    rcases h with ⟨-, h⟩ | ⟨-, h⟩
    · exact Nat.lt_of_le_of_lt (UInt32.le_iff_toNat_le.mp h) (by decide)
    · exact Nat.lt_of_le_of_lt (UInt32.le_iff_toNat_le.mp h) (by decide)
  have hall : ∀ n : Fin 128, isSlugChar (Char.ofNat n) = true →
      toLowercase (Char.ofNat n) = [Char.ofNat n] ∧ isAsciiAlphanumeric (Char.ofNat n) = true := by
    decide +kernel
  have hc := hall ⟨c.toNat, hlt⟩
  rw [Char.ofNat_toNat] at hc
  exact hc h

/-- Joined groups are their own slug. -/
theorem slugify_formed {slug : String} (h : Formed slug) : slugify slug = slug := by
  obtain ⟨parts, -, hparts, hslug⟩ := h
  have hself : ∀ c ∈ slug.toList, toLowercase c = [c] := by
    intro c hc
    rw [hslug] at hc
    rcases mem_intercalate hc with rfl | ⟨part, hpart, hc⟩
    · decide
    · exact (slugChar_cases ((hparts part hpart).2 c hc)).1
  have hlower : slug.toList.flatMap toLowercase = slug.toList := by
    rw [List.flatMap_congr hself, List.flatMap_singleton']
  have hgroups : slugGroups slug = parts := by
    rw [slugGroups, hlower, hslug]
    exact groups_intercalate dash_not_member fun part hpart =>
      ⟨(hparts part hpart).1, fun c hc => (slugChar_cases ((hparts part hpart).2 c hc)).2⟩
  rw [slugify_eq, hgroups, ← hslug, String.ofList_toList]

theorem slugify_slugify (value : String) : slugify (slugify value) = slugify value := by
  rcases formed_slugify value with h | h
  · rw [h]
    rfl
  · exact slugify_formed h

/-- No character of the text has a letter or a digit of ASCII in lower case. -/
def Silent (text : String) : Prop :=
  ∀ c ∈ text.toList, ∀ d ∈ toLowercase c, isAsciiAlphanumeric d = false

theorem not_member_of_silent {text : String} (h : Silent text) :
    ∀ d ∈ text.toList.flatMap toLowercase, isAsciiAlphanumeric d = false := by
  intro d hd
  obtain ⟨c, hc, hd⟩ := List.mem_flatMap.mp hd
  exact h c hc d hd

theorem slugify_silent {before after : String} (hbefore : Silent before) (hafter : Silent after)
    (value : String) : slugify (before ++ value ++ after) = slugify value := by
  have hgroups : slugGroups (before ++ value ++ after) = slugGroups value := by
    rw [slugGroups, slugGroups, String.toList_append, String.toList_append, List.flatMap_append,
      List.flatMap_append, groups_append (not_member_of_silent hafter),
      groups_append_left (not_member_of_silent hbefore)]
  rw [slugify_eq, slugify_eq, hgroups]

/-! ## Records without an id -/

theorem isSlugChar_hexByte (byte : UInt8) :
    hexByte byte ≠ "" ∧ ∀ c ∈ (hexByte byte).toList, isSlugChar c = true := by
  have hall : ∀ n : Fin 256, (!(hexByte (UInt8.ofNat n)).isEmpty &&
      (hexByte (UInt8.ofNat n)).toList.all isSlugChar) = true := by decide +kernel
  have hbyte := hall ⟨byte.toNat, byte.toNat_lt⟩
  rw [UInt8.ofNat_toNat, Bool.and_eq_true, List.all_eq_true] at hbyte
  exact ⟨by simpa using hbyte.1, hbyte.2⟩

/-- A slug of octets, where there are any. -/
theorem formed_service {bytes : List UInt8} (h : bytes ≠ []) :
    Formed s!"service-{String.join (bytes.map hexByte)}" := by
  have hhex : IsGroup isSlugChar (String.join (bytes.map hexByte)).toList := by
    rw [String.toList_join, List.flatMap_map]
    obtain ⟨b, bytes, rfl⟩ := List.exists_cons_of_ne_nil h
    refine ⟨?_, fun c hc => ?_⟩
    · rw [List.flatMap_cons]
      exact List.append_ne_nil_of_left_ne_nil
        (String.toList_eq_nil_iff.not.mpr (isSlugChar_hexByte b).1) _
    · obtain ⟨byte, -, hc⟩ := List.mem_flatMap.mp hc
      exact (isSlugChar_hexByte byte).2 c hc
  refine ⟨["service".toList, (String.join (bytes.map hexByte)).toList], by simp, ?_, ?_⟩
  · refine List.forall_mem_cons.mpr ⟨⟨by simp, ?_⟩, List.forall_mem_cons.mpr ⟨hhex, by simp⟩⟩
    have hservice : "service".toList.all isSlugChar = true := by decide +kernel
    exact List.all_eq_true.mp hservice
  · have htext : (s!"service-{String.join (bytes.map hexByte)}")
        = "service" ++ "-" ++ String.join (bytes.map hexByte) := by
      rw [← String.toList_inj]
      simp [toString]
    rw [htext, String.toList_append, String.toList_append, List.intercalate_cons_cons,
      List.intercalate_singleton]
    rfl

/-- **Every record gets a slug that is well formed.** -/
theorem formed_stableSlug (preferred : Option String) (fallbacks : List String)
    (h : fallbacks.head? ≠ some "") : Formed (stableSlug preferred fallbacks) := by
  rw [stableSlug]
  split
  · next slug hslug =>
    obtain ⟨value, -, rfl⟩ := List.mem_map.mp (List.mem_of_find?_eq_some hslug)
    have hne := List.find?_some hslug
    rcases formed_slugify value with hempty | hformed
    · rw [hempty] at hne
      cases hne
    · exact hformed
  · refine formed_service ?_
    have hne : fallbacks.head?.getD "service" ≠ "" := by
      cases hhead : fallbacks.head? with
      | none => simp
      | some first => exact fun hfirst => h (hhead.trans (congrArg some hfirst))
    obtain ⟨c, cs, hcs⟩ := List.exists_cons_of_ne_nil (String.toList_eq_nil_iff.not.mpr hne)
    obtain ⟨b, bytes, hbytes⟩ := List.exists_cons_of_ne_nil (String.utf8EncodeChar_ne_nil (c := c))
    rw [Unicode.toList_toUTF8, Query.utf8, hcs, List.flatMap_cons, hbytes]
    simp

end Slug

open Slug

/-- **Slugs are well formed and stable.** -/
theorem slugs_well_formed_and_stable :
    (∀ value, slugify value = "" ∨ Formed (slugify value)) ∧
    (∀ value, slugify (slugify value) = slugify value) ∧
    (∀ before value after, Silent before → Silent after →
      slugify (before ++ value ++ after) = slugify value) ∧
    (∀ preferred fallbacks, fallbacks.head? ≠ some "" → stableSlug preferred fallbacks ≠ "" ∧
      Formed (stableSlug preferred fallbacks)) := by
  refine ⟨formed_slugify, slugify_slugify, ?_, ?_⟩
  · intro before value after hbefore hafter
    exact slugify_silent hbefore hafter value
  · intro preferred fallbacks hfallbacks
    have hformed := formed_stableSlug preferred fallbacks hfallbacks
    exact ⟨hformed.ne_empty, hformed⟩

/-- Blanks and marks around a title, and a title that has nothing else. -/
theorem slugs_of_marks :
    slugify ("¡ " ++ "Build 7" ++ " !") = slugify "Build 7" ∧ Formed (stableSlug none ["é!"]) := by
  have hmarks : (["¡ ", " !"].all fun text => text.toList.all fun c =>
      (toLowercase c).all fun d => !isAsciiAlphanumeric d) = true := by decide +kernel
  simp only [List.all_cons, List.all_nil, Bool.and_true, Bool.and_eq_true, List.all_eq_true,
    Bool.not_eq_true'] at hmarks
  obtain ⟨-, -, hsilent, hstable⟩ := slugs_well_formed_and_stable
  exact ⟨hsilent "¡ " "Build 7" " !" hmarks.1 hmarks.2, (hstable none ["é!"] (by decide)).2⟩

end DevPortal
