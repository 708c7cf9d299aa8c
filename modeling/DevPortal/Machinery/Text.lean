import Mathlib.Data.List.DropRight
import Mathlib.Data.String.Basic

/-!
# Machinery/Text — what strings are asked

Blankness in the sense of Unicode `White_Space`, prefixes and cuts character by character, the
bytes of a text in UTF-8, and the absence of the `NUL` character, which a `text` column cannot hold
(`clean`).
-/

namespace Text

/-- Unicode `White_Space`. -/
def isWhitespace (c : Char) : Bool :=
  let n := c.toNat
  (9 ≤ n && n ≤ 13) || n = 0x20 || n = 0x85 || n = 0xa0 || n = 0x1680
    || (0x2000 ≤ n && n ≤ 0x200a) || n = 0x2028 || n = 0x2029 || n = 0x202f || n = 0x205f
    || n = 0x3000

/-- Nothing is left after trimming. -/
def isBlank (s : String) : Bool := s.toList.all isWhitespace

/-- The text without the whitespace around it. -/
def trim (s : String) : String :=
  String.ofList ((s.toList.dropWhile isWhitespace).reverse.dropWhile isWhitespace).reverse

/-- The text without the given character at its end. -/
def trimEndMatches (s : String) (c : Char) : String :=
  String.ofList (s.toList.reverse.dropWhile (· == c)).reverse

/-- Trimmed, unless nothing is left. -/
def trimmed? (s : String) : Option String :=
  let s := trim s
  if s.isEmpty then none else some s

theorem ne_empty_of_trimmed? {s t : String} (h : trimmed? s = some t) : t ≠ "" := by
  unfold trimmed? at h
  dsimp only at h
  split at h
  · cases h
  next hne =>
  rintro rfl
  rw [Option.some.inj h] at hne
  exact hne rfl

/-- The text starts with another one. -/
def startsWith (s start : String) : Bool := start.toList.isPrefixOf s.toList

@[simp] theorem startsWith_append (start rest : String) : startsWith (start ++ rest) start := by
  simp [startsWith, List.isPrefixOf_iff_prefix]

/-- The text behind its start. -/
def stripPrefix (s start : String) : Option String :=
  if startsWith s start then some (String.ofList (s.toList.drop start.toList.length)) else none

theorem stripPrefix_append (start rest : String) : stripPrefix (start ++ rest) start = some rest := by
  simp [stripPrefix]

theorem eq_append_of_stripPrefix {s start rest : String} (h : stripPrefix s start = some rest) :
    s = start ++ rest := by
  unfold stripPrefix at h
  split at h
  next hstart =>
    obtain ⟨tail, htail⟩ := List.isPrefixOf_iff_prefix.mp hstart
    obtain rfl := Option.some.inj h
    rw [← String.toList_inj, String.toList_append, String.toList_ofList, ← htail]
    simp
  next => cases h

/-- The text before its last character, if that is the given one. -/
def stripSuffix (s : String) (c : Char) : Option String :=
  if s.toList.getLast? = some c then some (String.ofList s.toList.dropLast) else none

/-- The decimal number of a text: an optional sign, then digits. -/
def parseInt (s : String) : Option Int :=
  let digits (cs : List Char) : Option Nat :=
    if !cs.isEmpty && cs.all Char.isDigit then some (Nat.ofDigitChars 10 cs 0) else none
  match s.toList with
  | '-' :: cs => (digits cs).map fun n => -(n : Int)
  | '+' :: cs => (digits cs).map Int.ofNat
  | cs => (digits cs).map Int.ofNat

/-- The text with another one in place of a character. -/
def replace (s : String) (c : Char) (text : String) : String :=
  String.ofList (s.toList.flatMap fun d => if d = c then text.toList else [d])

/-- The text before the first of a character, and behind it. -/
def splitOnce (s : String) (c : Char) : Option (String × String) :=
  match s.toList.dropWhile (· != c) with
  | [] => none
  | _ :: rest => some (String.ofList (s.toList.takeWhile (· != c)), String.ofList rest)

theorem splitOnce_append {a b : String} {c : Char} (ha : c ∉ a.toList) :
    splitOnce (a ++ String.ofList [c] ++ b) c = some (a, b) := by
  have hne : ∀ x ∈ a.toList, (x != c) = true := fun x hx =>
    bne_iff_ne.mpr fun h => ha (h ▸ hx)
  simp [splitOnce, List.dropWhile_append_of_pos hne, List.takeWhile_append_of_pos hne]

/-! ## Bytes -/

/-- The text that some bytes are in UTF-8. -/
def fromUtf8 (bytes : List UInt8) : Option String := String.fromUTF8? ⟨bytes.toArray⟩

theorem toList_loop (bs : ByteArray) (i : Nat) (r : List UInt8) (hi : i ≤ bs.data.size) :
    ByteArray.toList.loop bs i r = r.reverse ++ bs.data.toList.drop i := by
  have hsize : bs.size = bs.data.size := rfl
  induction h : bs.data.size - i generalizing i r with
  | zero =>
    rw [ByteArray.toList.loop, if_neg (by omega), List.drop_eq_nil_of_le, List.append_nil]
    rw [Array.length_toList]
    omega
  | succ n ih =>
    have hlt : i < bs.data.size := by omega
    have hget : bs.get! i = bs.data[i] := getElem!_pos bs.data i hlt
    have hdrop : bs.data.toList.drop i = bs.data[i] :: bs.data.toList.drop (i + 1) :=
      List.drop_eq_getElem_cons (l := bs.data.toList) hlt
    rw [ByteArray.toList.loop, if_pos (by omega), ih (i + 1) _ (by omega) (by omega), hget, hdrop]
    simp

/-- A text comes back from its bytes. -/
theorem fromUtf8_toUTF8 (s : String) : fromUtf8 s.toUTF8.toList = some s := by
  have hbytes : s.toUTF8.toList = s.toUTF8.data.toList := by
    rw [ByteArray.toList, toList_loop _ _ _ (Nat.zero_le _)]
    rfl
  rw [fromUtf8, hbytes, Array.toArray_toList]
  exact dif_pos s.isValidUTF8

/-- A text of ASCII characters has as many octets. -/
theorem utf8ByteSize_ascii {s : String} (h : ∀ c ∈ s.toList, c.toNat < 0x80) :
    s.utf8ByteSize = s.length := by
  have hlen : ∀ cs : List Char, (∀ c ∈ cs, c.toNat < 0x80) → String.utf8Len cs = cs.length := by
    intro cs hcs
    induction cs with
    | nil => rfl
    | cons c cs ih =>
      have hc : c.utf8Size = 1 := by
        have : c.val ≤ 0x7f := UInt32.le_iff_toNat_le.mpr (Nat.le_of_lt_succ (hcs c List.mem_cons_self))
        simp [Char.utf8Size, this]
      rw [String.utf8Len_cons, ih fun d hd => hcs d (List.mem_cons_of_mem c hd), hc,
        List.length_cons]
  have hsize := String.utf8ByteSize_ofList s.toList
  rw [String.ofList_toList, hlen _ h] at hsize
  rw [hsize, String.length_toList]

/-! ## Trimmed texts -/

/-- A text without white space is trimmed. -/
theorem trim_of_forall {s : String} (h : ∀ c ∈ s.toList, isWhitespace c = false) : trim s = s := by
  have hdrop : ∀ l : List Char, (∀ c ∈ l, isWhitespace c = false) → l.dropWhile isWhitespace = l := by
    intro l hl
    rcases l with _ | ⟨c, cs⟩
    · rfl
    · rw [List.dropWhile_cons_of_neg (by simp [hl c List.mem_cons_self])]
  unfold trim
  rw [hdrop _ h, hdrop _ fun c hc => h c (List.mem_reverse.mp hc), List.reverse_reverse,
    String.ofList_toList]

/-- Dropping at the end uncovers nothing at the front. -/
theorem dropWhile_rdropWhile {α : Type} (p : α → Bool) (l : List α) :
    ((l.dropWhile p).rdropWhile p).dropWhile p = (l.dropWhile p).rdropWhile p := by
  obtain ⟨t, ht⟩ := List.rdropWhile_prefix p (l := l.dropWhile p)
  rcases h : (l.dropWhile p).rdropWhile p with _ | ⟨a, rest⟩
  · rfl
  rw [h] at ht
  have ha : p a = false := by
    have := List.head?_dropWhile_not p l
    rw [← ht] at this
    simpa using this
  rw [List.dropWhile_cons_of_neg (by simp [ha])]

@[simp] theorem trim_trim (s : String) : trim (trim s) = trim s := by
  have htrim : ∀ s, trim s =
      String.ofList ((s.toList.dropWhile isWhitespace).rdropWhile isWhitespace) := fun _ => rfl
  rw [htrim (trim s), htrim s, String.toList_ofList, dropWhile_rdropWhile,
    List.rdropWhile_idempotent]

/-- What is not trimmed away stays. -/
theorem mem_rdropWhile_dropWhile {α : Type} {p : α → Bool} {l : List α} {a : α} (ha : a ∈ l)
    (hp : p a = false) : a ∈ (l.dropWhile p).rdropWhile p := by
  have hdrop : ∀ l : List α, a ∈ l → a ∈ l.dropWhile p := by
    intro l ha
    rw [← List.takeWhile_append_dropWhile (p := p) (l := l), List.mem_append] at ha
    refine ha.resolve_left fun htake => ?_
    rw [List.mem_takeWhile_imp htake] at hp
    cases hp
  exact List.mem_reverse.mpr (hdrop _ (List.mem_reverse.mpr (hdrop l ha)))

theorem mem_trim {s : String} {c : Char} (hc : c ∈ s.toList) (h : isWhitespace c = false) :
    c ∈ (trim s).toList := by
  rw [trim, String.toList_ofList]
  exact mem_rdropWhile_dropWhile hc h

/-- Something is left of a text that is not blank. -/
theorem trimmed?_isSome_iff {s : String} : (trimmed? s).isSome ↔ ∃ c ∈ s.toList, isWhitespace c = false := by
  have hdef : trimmed? s = if (trim s).isEmpty then none else some (trim s) := rfl
  rw [hdef]
  constructor
  · intro h
    by_contra hall
    have hdrop : s.toList.dropWhile isWhitespace = [] := by
      rw [List.dropWhile_eq_nil_iff]
      intro c hc
      by_contra hspace
      exact hall ⟨c, hc, Bool.eq_false_iff.mpr hspace⟩
    rw [trim, hdrop] at h
    exact absurd h (by simp)
  · rintro ⟨c, hc, hspace⟩
    have hmem := mem_trim hc hspace
    have hne : (trim s).isEmpty = false := by
      rw [Bool.eq_false_iff]
      intro hempty
      rw [String.isEmpty_iff.mp hempty] at hmem
      exact List.not_mem_nil hmem
    rw [hne]
    rfl

/-- A blank text that is trimmed is empty. -/
theorem isBlank_eq_false_of_trim {s : String} (hs : s ≠ "") (htrim : trim s = s) :
    isBlank s = false := by
  by_contra hblank
  have hdrop : s.toList.dropWhile isWhitespace = [] := by
    rw [List.dropWhile_eq_nil_iff]
    simpa [isBlank] using hblank
  rw [trim, hdrop] at htrim
  exact hs htrim.symm

/-! ## Texts a database can hold -/

/-- No `NUL` character. -/
def clean (s : String) : Bool := '\x00' ∉ s.toList

@[simp] theorem clean_append (s t : String) : clean (s ++ t) = (clean s && clean t) := by
  simp [clean]

theorem clean_intercalate {sep : String} (hsep : clean sep) {texts : List String}
    (h : ∀ s ∈ texts, clean s) : clean (sep.intercalate texts) := by
  induction texts with
  | nil => simp [clean]
  | cons s texts ih =>
    have ih := ih fun t ht => h t (List.mem_cons_of_mem s ht)
    have hs := h s (List.mem_cons_self ..)
    cases texts with
    | nil => simpa using hs
    | cons t texts => simp [String.intercalate_cons_cons, hs, hsep, ih]

theorem clean_take (s : String) (n : Nat) (h : clean s) :
    clean (String.ofList (s.toList.take n)) := by
  simp only [clean, decide_eq_true_eq, String.toList_ofList] at h ⊢
  exact fun hc => h (List.mem_of_mem_take hc)

end Text
