import DevPortal.Machinery.Unicode
import Mathlib.Data.List.DropRight

/-!
# Machinery/UrlText — the parts of the text of a URL

    ·https://host/path?a=b&c#part·   ▸   https://host/path   [(a, b), (c, )]   part

A reader of URLs drops controls and blanks at both ends, and tabs and line breaks wherever they are
(`clean`).  What is left is cut at the first `#`, and what stands before it at the first `?`; in
front of that are the scheme, the host and the path, which are read by a function of their own.
Pairs written behind a cleaned base are read behind its own (`texts_append_question` and its
neighbours).
-/

namespace UrlText

open Query Unicode

/-! ## Cleaning -/

/-- A control character or a blank, which is dropped at both ends. -/
def isEdge (c : Char) : Bool := c.toNat ≤ 0x20

/-- A tab or a line break, which is dropped everywhere. -/
def isBreak (c : Char) : Bool := c = '\t' || c = '\n' || c = '\r'

theorem isEdge_of_isBreak {c : Char} (h : isBreak c) : isEdge c := by
  simp only [isBreak, Bool.or_eq_true, decide_eq_true_eq] at h
  rcases h with (rfl | rfl) | rfl <;> decide

/-- Tabs and line breaks dropped. -/
def joined (text : List Char) : List Char := text.filter fun c => !isBreak c

/-- What a reader of URLs looks at. -/
def clean (text : List Char) : List Char :=
  joined ((text.dropWhile isEdge).reverse.dropWhile isEdge).reverse

@[simp] theorem joined_append (text rest : List Char) :
    joined (text ++ rest) = joined text ++ joined rest := List.filter_append ..

theorem joined_eq_self {text : List Char} (h : ∀ c ∈ text, isEdge c = false) : joined text = text := by
  refine List.filter_eq_self.mpr fun c hc => ?_
  rw [Bool.not_eq_true', Bool.eq_false_iff]
  exact fun hbreak => ne_true_of_eq_false (h c hc) (isEdge_of_isBreak hbreak)

theorem mem_joined {text : List Char} {c : Char} : c ∈ joined text ↔ c ∈ text ∧ isBreak c = false := by
  simp [joined]

/-- A text that begins with no edge, behind which comes one that has none. -/
theorem clean_append {text rest : List Char} (hfirst : ∀ c ∈ text.head?, isEdge c = false)
    (hne : text ≠ []) (hrest : ∀ c ∈ rest, isEdge c = false) (hsome : rest ≠ []) :
    clean (text ++ rest) = joined text ++ rest := by
  obtain ⟨c, text, rfl⟩ := List.exists_cons_of_ne_nil hne
  obtain ⟨init, last, rfl⟩ := List.eq_nil_or_concat rest |>.resolve_left hsome
  have hc : isEdge c = false := hfirst c rfl
  have hlast : isEdge last = false := hrest last (by simp)
  have hrest' : ∀ c ∈ init ++ [last], isEdge c = false := by simpa using hrest
  rw [clean, List.cons_append, List.dropWhile_cons_of_neg (ne_true_of_eq_false hc),
    ← List.cons_append, List.concat_eq_append, ← List.append_assoc, List.reverse_append,
    List.reverse_singleton, List.singleton_append,
    List.dropWhile_cons_of_neg (ne_true_of_eq_false hlast), List.reverse_cons, List.reverse_reverse,
    List.append_assoc, joined_append, joined_eq_self hrest']

/-- Behind a text that begins with no edge, only its end is dropped. -/
theorem clean_eq {text : List Char} (hfirst : ∀ c ∈ text.head?, isEdge c = false) :
    clean text = joined (text.rdropWhile isEdge) := by
  have hdrop : text.dropWhile isEdge = text := by
    rcases text with _ | ⟨c, text⟩
    · rfl
    · exact List.dropWhile_cons_of_neg (ne_true_of_eq_false (hfirst c rfl))
  rw [clean, hdrop]
  rfl

/-- What is dropped at the end of a text, tabs and line breaks apart. -/
def dropped (text : List Char) : List Char := joined (text.rtakeWhile isEdge)

theorem joined_eq_clean_append {text : List Char} (hfirst : ∀ c ∈ text.head?, isEdge c = false) :
    joined text = clean text ++ dropped text := by
  rw [clean_eq hfirst, dropped, ← joined_append, List.rdropWhile_append_rtakeWhile]

theorem mem_dropped {text : List Char} {c : Char} (h : c ∈ dropped text) :
    isEdge c = true ∧ isBreak c = false := by
  obtain ⟨hmem, hbreak⟩ := mem_joined.mp h
  exact ⟨List.mem_rtakeWhile_imp hmem, hbreak⟩

/-- Nothing is dropped just if the last character, tabs and line breaks apart, is no edge. -/
theorem dropped_eq_nil_iff {text : List Char} :
    dropped text = [] ↔ ∀ c ∈ (joined text).getLast?, isEdge c = false := by
  have hsplit : joined text = joined (text.rdropWhile isEdge) ++ dropped text := by
    rw [dropped, ← joined_append, List.rdropWhile_append_rtakeWhile]
  constructor
  · intro h c hc
    rw [hsplit, h, List.append_nil] at hc
    by_cases hnil : text.rdropWhile isEdge = []
    · rw [hnil] at hc
      cases hc
    · have hlast := List.rdropWhile_last_not isEdge text hnil
      have hinit := List.dropLast_append_getLast hnil
      have hone : joined [(text.rdropWhile isEdge).getLast hnil]
          = [(text.rdropWhile isEdge).getLast hnil] := joined_eq_self (by simpa using hlast)
      rw [← hinit, joined_append, hone, List.getLast?_concat] at hc
      obtain rfl := Option.some.inj hc
      simpa using hlast
  · intro h
    by_contra hne
    have hmem := List.getLast_mem hne
    have hedge := (mem_dropped hmem).1
    rw [h _ (by rw [hsplit, List.getLast?_append_of_ne_nil _ hne, List.getLast?_eq_some_getLast hne]; rfl)]
      at hedge
    cases hedge

/-! ## Parts -/

/-- What stands before the fragment. -/
def beforeFragment (text : List Char) : List Char := text.takeWhile (· != '#')

/-- What stands before the query. -/
def beforeQuery (text : List Char) : List Char := (beforeFragment text).takeWhile (· != '?')

/-- The fragment, if there is one. -/
def fragment (text : List Char) : Option (List Char) :=
  match text.dropWhile (· != '#') with
  | [] => none
  | _ :: fragment => some fragment

/-- The pairs of the query, as texts. -/
def texts (text : List Char) : List (String × String) :=
  (pairs text).map fun p => (fromUtf8Lossy p.1, fromUtf8Lossy p.2)

/-- The parts of a URL; the scheme, the host and the path are one. -/
structure Parts (φ : Type) where
  front : φ
  queryPairs : List (String × String)
  fragment : Option (List Char)
deriving DecidableEq

/-- The same parts with pairs behind those of the query. -/
def Parts.addPairs {φ : Type} (parts : Parts φ) (ps : List (String × String)) : Parts φ :=
  { parts with queryPairs := parts.queryPairs ++ ps }

/-- The text of a URL of the web. -/
def IsWeb (text : List Char) : Prop :=
  "http://".toList <+: text ∨ "https://".toList <+: text

/-- A reader of scheme, host and path.  Controls and blanks behind those of the web are a part of the
path, or an error. -/
structure FrontReader (φ : Type) where
  read : List Char → Option φ
  read_append : ∀ (front blanks : List Char) (f : φ), IsWeb front → blanks ≠ [] →
    (∀ c ∈ blanks, isEdge c = true ∧ isBreak c = false) → read front = some f →
    read (front ++ blanks) ≠ some f

/-- **A URL, read.** -/
def parse {φ : Type} (reader : FrontReader φ) (text : String) : Option (Parts φ) :=
  let text := clean text.toList
  (reader.read (beforeQuery text)).map fun front => ⟨front, texts text, fragment text⟩

/-- Cleaning leaves the scheme. -/
theorem isWeb_clean {text : List Char} (h : IsWeb text) : IsWeb (clean text) := by
  have hkeep : ∀ scheme : List Char, (∀ c ∈ scheme, isEdge c = false) → scheme ≠ [] →
      scheme <+: text → scheme <+: clean text := by
    rintro scheme hscheme hne ⟨rest, rfl⟩
    have hfirst : ∀ c ∈ (scheme ++ rest).head?, isEdge c = false := by
      intro c hc
      rw [List.head?_append_of_ne_nil _ hne] at hc
      exact hscheme c (List.mem_of_mem_head? hc)
    have hdrop : (scheme ++ rest).rdropWhile isEdge = scheme ++ rest.rdropWhile isEdge := by
      rw [List.rdropWhile, List.rdropWhile, List.reverse_append, List.dropWhile_append]
      split
      · next hnil =>
        have hlast : scheme.rdropWhile isEdge = scheme :=
          List.rdropWhile_eq_self_iff.mpr fun hl =>
            ne_true_of_eq_false (hscheme _ (List.getLast_mem hl))
        rw [List.isEmpty_iff.mp hnil, List.reverse_nil, List.append_nil]
        exact hlast
      · rw [List.reverse_append, List.reverse_reverse]
    rw [clean_eq hfirst, hdrop, joined_append, joined_eq_self hscheme]
    exact List.prefix_append _ _
  have hhttp : ("http://".toList.all fun c => !isEdge c) = true := by decide
  have hhttps : ("https://".toList.all fun c => !isEdge c) = true := by decide
  rcases h with h | h
  · exact .inl (hkeep _ (by simpa using hhttp) (by decide) h)
  · exact .inr (hkeep _ (by simpa using hhttps) (by decide) h)

/-! ## Behind a base -/

section Append

variable {base : List Char}

theorem beforeFragment_eq_self (h : '#' ∉ base) : beforeFragment base = base :=
  List.takeWhile_eq_self_iff.mpr fun _ hc => bne_iff_ne.mpr fun e => h (e ▸ hc)

theorem beforeQuery_eq_self (h : '#' ∉ base) (hq : '?' ∉ base) : beforeQuery base = base := by
  rw [beforeQuery, beforeFragment_eq_self h]
  exact List.takeWhile_eq_self_iff.mpr fun _ hc => bne_iff_ne.mpr fun e => hq (e ▸ hc)

/-- Up to a character that is there, what comes behind does not matter. -/
theorem takeWhile_append_of_mem {c : Char} (h : c ∈ base) (rest : List Char) :
    (base ++ rest).takeWhile (· != c) = base.takeWhile (· != c) := by
  induction base with
  | nil => cases h
  | cons d base ih =>
    by_cases hd : d = c
    · rw [hd, List.cons_append, List.takeWhile_cons_of_neg (by simp),
        List.takeWhile_cons_of_neg (by simp)]
    · have hmem : c ∈ base := (List.mem_cons.mp h).resolve_left fun e => hd e.symm
      rw [List.cons_append, List.takeWhile_cons_of_pos (by simpa using hd),
        List.takeWhile_cons_of_pos (by simpa using hd), ih hmem]

theorem fragment_eq_none (h : '#' ∉ base) : fragment base = none := by
  have hdrop : base.dropWhile (· != '#') = [] :=
    List.dropWhile_eq_nil_iff.mpr fun c hc => bne_iff_ne.mpr fun e => h (e ▸ hc)
  rw [fragment, hdrop]

/-- The pairs stand before the fragment. -/
theorem texts_congr {text text' : List Char} (h : beforeFragment text = beforeFragment text') :
    texts text = texts text' := by
  have hquery : query text = query text' := congrArg (fun l => (l.dropWhile (· != '?')).tail) h
  rw [texts, texts, pairs, pairs, hquery]

theorem map_lossy (ps : List (String × String)) :
    (ps.map fun p => (utf8 p.1, utf8 p.2)).map (fun p => (fromUtf8Lossy p.1, fromUtf8Lossy p.2))
      = ps := by
  rw [List.map_map]
  simp [Function.comp_def]

theorem texts_eq_nil (hq : '?' ∉ base) : texts base = [] := by
  have hquery : query base = [] := by
    have hall : ∀ c ∈ base.takeWhile (· != '#'), (c != '?') = true := fun c hc =>
      bne_iff_ne.mpr fun e => hq (e ▸ (List.takeWhile_subset _ hc))
    rw [query, List.dropWhile_eq_nil_iff.mpr hall]
    rfl
  rw [texts, pairs, hquery]
  rfl

theorem texts_append_question (h : '#' ∉ base) (hq : '?' ∉ base) (ps : List (String × String)) :
    texts (base ++ '?' :: written ps) = ps := by
  rw [texts, pairs_append_question h ps hq, map_lossy]

theorem texts_append_amp (h : '#' ∉ base) (hq : '?' ∈ base) (ps : List (String × String)) :
    texts (base ++ '&' :: written ps) = texts base ++ ps := by
  rw [texts, pairs_append_amp h ps hq, List.map_append, map_lossy, texts]

theorem texts_append_open (h : '#' ∉ base) (hq : '?' ∈ base)
    (hopen : query base = [] ∨ ∃ start, query base = start ++ ['&']) (ps : List (String × String)) :
    texts (base ++ written ps) = texts base ++ ps := by
  rw [texts, pairs_append_open h ps hq hopen, List.map_append, map_lossy, texts]

/-- A query that begins in the base leaves what stands before it. -/
theorem beforeQuery_append (h : '#' ∉ base) (hq : '?' ∈ base) {rest : List Char} (hrest : '#' ∉ rest) :
    beforeQuery (base ++ rest) = beforeQuery base := by
  rw [beforeQuery, beforeQuery, beforeFragment_eq_self h, beforeFragment_eq_self (by simp [h, hrest]),
    takeWhile_append_of_mem hq]

theorem beforeQuery_append_question (h : '#' ∉ base) (hq : '?' ∉ base) {rest : List Char}
    (hrest : '#' ∉ rest) : beforeQuery (base ++ '?' :: rest) = base := by
  have hpath : ∀ c ∈ base, (c != '?') = true := fun c hc => bne_iff_ne.mpr fun e => hq (e ▸ hc)
  rw [beforeQuery, beforeFragment_eq_self (by simp [h, hrest]), List.takeWhile_append_of_pos hpath,
    List.takeWhile_cons_of_neg (by simp), List.append_nil]

end Append

/-! ## What is written has no edges -/

theorem written_cons_cons (p p' : String × String) (ps : List (String × String)) :
    written (p :: p' :: ps) = word p ++ '&' :: written (p' :: ps) := by
  simp [written, List.intercalate_cons_cons]

theorem written_ne_nil (p : String × String) (ps : List (String × String)) :
    written (p :: ps) ≠ [] := by
  rcases ps with _ | ⟨p', ps⟩
  · simp [written, word]
  · simp [written_cons_cons, word]

theorem not_isEdge_encode (s : String) : ∀ c ∈ encode s, isEdge c = false := by
  have hbyte : ∀ n : Fin 256, ((encodeByte (UInt8.ofNat n)).all fun c => !isEdge c) = true := by
    decide +kernel
  intro c hc
  obtain ⟨b, -, hc⟩ := List.mem_flatMap.mp hc
  have hall := hbyte ⟨b.toNat, b.toNat_lt⟩
  simp only [UInt8.ofNat_toNat, List.all_eq_true, Bool.not_eq_true'] at hall
  exact hall c hc

theorem not_isEdge_written (ps : List (String × String)) : ∀ c ∈ written ps, isEdge c = false := by
  have hword : ∀ p : String × String, ∀ c ∈ word p, isEdge c = false := by
    intro p c hc
    rcases List.mem_append.mp hc with hc | hc
    · exact not_isEdge_encode p.1 c hc
    rcases List.mem_cons.mp hc with rfl | hc
    · rfl
    · exact not_isEdge_encode p.2 c hc
  induction ps with
  | nil => exact fun c hc => absurd hc List.not_mem_nil
  | cons p ps ih =>
    rcases ps with _ | ⟨p', ps⟩
    · simpa [written] using hword p
    · intro c hc
      rw [written_cons_cons] at hc
      rcases List.mem_append.mp hc with hc | hc
      · exact hword p c hc
      rcases List.mem_cons.mp hc with rfl | hc
      · rfl
      · exact ih c hc

/-! ## What is read otherwise

Where a base ends in a blank, or in a `?` that belongs to its query, what is written behind it changes
the last of its own words. -/

theorem words_append_amp (front rest : List Char) :
    words (front ++ '&' :: rest) = words front ++ words rest := by
  simp only [words, List.splitOn_append_cons_self, List.filter_append, List.map_append]

theorem words_of_not_mem {word : List Char} (h : '&' ∉ word) :
    words word = if word = [] then [] else [pair word] := by
  rw [words, List.splitOn_eq_singleton h]
  by_cases hne : word = []
  · rw [if_pos hne, hne]
    rfl
  · rw [if_neg hne, List.filter_cons_of_pos (by simpa using hne)]
    rfl

/-- The last word of a query. -/
theorem exists_last_word (text : List Char) :
    ∃ word, '&' ∉ word ∧ (text = word ∨ ∃ front, text = front ++ '&' :: word) := by
  refine ⟨text.rtakeWhile (· != '&'), fun h => ?_, ?_⟩
  · have := List.mem_rtakeWhile_imp h
    simp at this
  · have hsplit := List.rdropWhile_append_rtakeWhile (p := (· != '&')) (l := text)
    by_cases hnil : text.rdropWhile (· != '&') = []
    · rw [hnil, List.nil_append] at hsplit
      exact .inl hsplit.symm
    · have hlast := List.rdropWhile_last_not (· != '&') text hnil
      simp only [bne_iff_ne, ne_eq, not_not] at hlast
      have hinit := List.dropLast_append_getLast hnil
      rw [hlast] at hinit
      refine .inr ⟨(text.rdropWhile (· != '&')).dropLast, ?_⟩
      calc text = text.rdropWhile (· != '&') ++ text.rtakeWhile (· != '&') := hsplit.symm
        _ = (text.rdropWhile (· != '&')).dropLast ++ ['&'] ++ text.rtakeWhile (· != '&') := by
          rw [hinit]
        _ = (text.rdropWhile (· != '&')).dropLast ++ '&' :: text.rtakeWhile (· != '&') := by simp

theorem hexValue_edge {c : Char} (h : isEdge c) : hexValue c = none := by
  have hall : ∀ n : Fin 33, hexValue (Char.ofNat n) = none := by decide
  simp only [isEdge, decide_eq_true_eq] at h
  simpa using hall ⟨c.toNat, by omega⟩

/-- A text that begins with two digits. -/
def Digits (text : List Char) : Prop :=
  ∃ a b rest x y, text = a :: b :: rest ∧ hexValue a = some x ∧ hexValue b = some y

theorem decode_escape {a b : Char} {x y : Nat} (ha : hexValue a = some x) (hb : hexValue b = some y)
    (rest : List Char) : decode ('%' :: a :: b :: rest) = UInt8.ofNat (16 * x + y) :: decode rest := by
  rw [decode, if_pos rfl]
  simp only [ha, hb]

/-- A `%` without its digits is itself. -/
theorem decode_percent {text : List Char} (h : ¬ Digits text) :
    decode ('%' :: text) = 0x25 :: decode text := by
  rcases text with _ | ⟨a, _ | ⟨b, rest⟩⟩
  · rfl
  · rfl
  · rw [decode, if_pos rfl]
    cases ha : hexValue a with
    | none => rfl
    | some x =>
      cases hb : hexValue b with
      | none => rfl
      | some y => exact absurd ⟨a, b, rest, x, y, rfl, ha, hb⟩ h

section Blanks

variable {blanks : List Char} (hblanks : ∀ c ∈ blanks, isEdge c = true ∧ isBreak c = false)

include hblanks

theorem not_mem_blanks {c : Char} (hc : 0x20 < c.toNat) : c ∉ blanks := by
  intro h
  have hedge := (hblanks c h).1
  simp only [isEdge, decide_eq_true_eq] at hedge
  omega

theorem decode_blanks : decode blanks = blanks.flatMap String.utf8EncodeChar := by
  induction blanks with
  | nil => rfl
  | cons c blanks ih =>
    have hpercent : c ≠ '%' := fun e =>
      not_mem_blanks hblanks (c := '%') (by decide) (e ▸ List.mem_cons_self)
    have hplus : c ≠ '+' := fun e =>
      not_mem_blanks hblanks (c := '+') (by decide) (e ▸ List.mem_cons_self)
    rw [decode_cons hpercent hplus, ih (List.forall_mem_cons.mp hblanks).2, List.flatMap_cons]

theorem digits_append_blanks {text : List Char} :
    Digits (text ++ blanks) ↔ ∃ a b rest x y, text = a :: b :: rest ∧ hexValue a = some x ∧
      hexValue b = some y := by
  have hnone : ∀ c ∈ blanks, hexValue c = none := fun c hc => hexValue_edge (hblanks c hc).1
  constructor
  · rintro ⟨a, b, rest, x, y, htext, ha, hb⟩
    rcases text with _ | ⟨a', _ | ⟨b', rest'⟩⟩
    · rw [List.nil_append] at htext
      rw [hnone a (htext ▸ List.mem_cons_self)] at ha
      cases ha
    · obtain ⟨rfl, hblank : blanks = b :: rest⟩ := List.cons.inj htext
      rw [hnone b (hblank ▸ List.mem_cons_self)] at hb
      cases hb
    · obtain ⟨rfl, htail⟩ := List.cons.inj htext
      obtain ⟨rfl, -⟩ := List.cons.inj htail
      exact ⟨a', b', rest', x, y, rfl, ha, hb⟩
  · rintro ⟨a, b, rest, x, y, rfl, ha, hb⟩
    exact ⟨a, b, rest ++ blanks, x, y, rfl, ha, hb⟩

/-- Blanks behind a word are decoded as themselves: they end no escape. -/
theorem decode_append_blanks (word : List Char) :
    decode (word ++ blanks) = decode word ++ blanks.flatMap String.utf8EncodeChar := by
  induction hlength : word.length using Nat.strong_induction_on generalizing word with
  | _ length ih =>
    rcases word with _ | ⟨c, rest⟩
    · exact decode_blanks hblanks
    · have hrest := ih rest.length (by simp [← hlength]) rest rfl
      rw [List.cons_append]
      by_cases hpercent : c = '%'
      · subst hpercent
        by_cases hdigits : Digits rest
        · obtain ⟨a, b, rest, x, y, rfl, ha, hb⟩ := hdigits
          have hshort := ih rest.length (by simp [← hlength]; omega) rest rfl
          rw [List.cons_append, List.cons_append, decode_escape ha hb, decode_escape ha hb, hshort]
          rfl
        · have hlonger : ¬ Digits (rest ++ blanks) := by
            rwa [digits_append_blanks hblanks]
          rw [decode_percent hlonger, decode_percent hdigits, hrest]
          rfl
      · by_cases hplus : c = '+'
        · subst hplus
          have hblank : ∀ text, decode ('+' :: text) = 0x20 :: decode text := by
            intro text
            rcases text with _ | ⟨a, _ | ⟨b, text⟩⟩ <;> rfl
          rw [hblank, hblank, hrest]
          rfl
        · rw [decode_cons hpercent hplus, decode_cons hpercent hplus, hrest, List.append_assoc]

/-- So they change the text of a word. -/
theorem lossy_decode_append_blanks (hne : blanks ≠ []) (word : List Char) :
    fromUtf8Lossy (decode (word ++ blanks)) ≠ fromUtf8Lossy (decode word) := by
  intro h
  have hascii : ∀ c ∈ blanks, c.toNat < 0x80 := by
    intro c hc
    have hedge := (hblanks c hc).1
    simp only [isEdge, decide_eq_true_eq] at hedge
    omega
  have hlist := congrArg String.toList h
  rw [decode_append_blanks hblanks, fromUtf8Lossy_append_ascii _ hascii] at hlist
  exact hne (List.append_right_eq_self.mp hlist)

theorem words_append_blanks (hne : blanks ≠ []) {word : List Char} (hword : '&' ∉ word) :
    (words (word ++ blanks)).map (fun p => (fromUtf8Lossy p.1, fromUtf8Lossy p.2)) ≠
      (words word).map fun p => (fromUtf8Lossy p.1, fromUtf8Lossy p.2) := by
  have hamp : '&' ∉ blanks := not_mem_blanks hblanks (by decide)
  have hequal : '=' ∉ blanks := not_mem_blanks hblanks (by decide)
  rw [words_of_not_mem (by simp [hword, hamp]), words_of_not_mem hword, if_neg (by simp [hne])]
  by_cases hempty : word = []
  · rw [if_pos hempty]
    exact List.cons_ne_nil _ _
  · rw [if_neg hempty]
    intro h
    obtain ⟨hkey, hvalue⟩ := Prod.mk.inj (List.cons.inj h).1
    by_cases hmem : '=' ∈ word
    · have hdrop : (word ++ blanks).dropWhile (· != '=') = word.dropWhile (· != '=') ++ blanks := by
        rw [List.dropWhile_append, if_neg]
        intro hnil
        have hall := List.dropWhile_eq_nil_iff.mp (List.isEmpty_iff.mp hnil) '=' hmem
        simp at hall
      have hcons : word.dropWhile (· != '=') ≠ [] := by
        intro hnil
        have hall := List.dropWhile_eq_nil_iff.mp hnil '=' hmem
        simp at hall
      simp only [pair, hdrop, List.tail_append_of_ne_nil hcons] at hvalue
      exact lossy_decode_append_blanks hblanks hne _ hvalue
    · have htake : ∀ text : List Char, '=' ∉ text → text.takeWhile (· != '=') = text := fun text h =>
        List.takeWhile_eq_self_iff.mpr fun c hc => bne_iff_ne.mpr fun e => h (e ▸ hc)
      simp only [pair, htake word hmem, htake (word ++ blanks) (by simp [hmem, hequal])] at hkey
      exact lossy_decode_append_blanks hblanks hne _ hkey

/-- **Blanks behind a query change its pairs.** -/
theorem texts_append_blanks (hne : blanks ≠ []) {base : List Char} (hfrag : '#' ∉ base)
    (hq : '?' ∈ base) : texts (base ++ blanks) ≠ texts base := by
  have hsharp : '#' ∉ blanks := not_mem_blanks hblanks (by decide)
  rw [texts, texts, pairs, pairs, query_append hfrag hsharp hq]
  obtain ⟨word, hword, hquery | ⟨front, hquery⟩⟩ := exists_last_word (query base)
  · rw [hquery]
    exact words_append_blanks hblanks hne hword
  · rw [hquery, List.append_assoc, List.cons_append, words_append_amp, words_append_amp,
      List.map_append, List.map_append]
    exact fun h => words_append_blanks hblanks hne hword (List.append_cancel_left h)

end Blanks

/-- **A `?` at the end of a query is read with what is written behind it.** -/
theorem length_texts_append_mark {base : List Char} (hfrag : '#' ∉ base) (hq : '?' ∈ base)
    (hmark : (query base).getLast? = some '?') (p : String × String) (ps : List (String × String)) :
    (texts (base ++ written (p :: ps))).length = (texts base).length + ps.length := by
  rw [texts, texts, pairs, pairs,
    query_append hfrag (not_mem_written (p :: ps) (by decide)) hq, List.length_map, List.length_map]
  -- the last word goes on with the first pair, and the others stand behind it
  have hlast : ∀ word : List Char, '&' ∉ word → word ≠ [] →
      (words (word ++ written (p :: ps))).length = 1 + ps.length := by
    intro word hword hne
    have hamp : '&' ∉ Query.word p := not_mem_word p (by decide)
    rcases ps with _ | ⟨p', ps⟩
    · have hwritten : written [p] = Query.word p := by simp [written]
      rw [hwritten, words_of_not_mem (by simp [hword, hamp]), if_neg (by simp [hne])]
      rfl
    · rw [written_cons_cons, ← List.append_assoc, words_append_amp, words_written,
        words_of_not_mem (by simp [hword, hamp]), if_neg (by simp [hne])]
      simp only [List.length_append, List.length_cons, List.length_nil, List.length_map, Nat.zero_add]
  obtain ⟨word, hword, hquery | ⟨front, hquery⟩⟩ := exists_last_word (query base)
  · rw [hquery] at hmark ⊢
    have hne : word ≠ [] := by
      rintro rfl
      cases hmark
    rw [hlast word hword hne, words_of_not_mem hword, if_neg hne]
    rfl
  · rw [hquery] at hmark ⊢
    have hne : word ≠ [] := by
      rintro rfl
      rw [List.getLast?_append_of_ne_nil _ (by simp)] at hmark
      exact absurd hmark (by decide)
    rw [List.append_assoc, List.cons_append, words_append_amp, words_append_amp, List.length_append,
      List.length_append, hlast word hword hne, words_of_not_mem hword, if_neg hne]
    simp only [List.length_singleton]
    omega

end UrlText
