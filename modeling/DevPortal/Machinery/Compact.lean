import DevPortal.Machinery.Json
import Mathlib.Tactic.IntervalCases

/-!
# Machinery/Compact — compact JSON texts

    {"adapter":"erp","limit":50,"tags":["a","b"]}

The values whose numbers are naturals, printed without blanks, and a reader of such texts.  Of two
members with one key the reader keeps the later one, so what it reads is well formed
(`read_wf`), and it reads back what is printed (`read_print`).
-/

namespace Json.Compact

/-! ## Strings -/

/-- The letters behind a backslash that stand for control characters. -/
def shorts : List (Char × Char) :=
  [('\x08', 'b'), ('\x09', 't'), ('\x0a', 'n'), ('\x0c', 'f'), ('\x0d', 'r'), ('\x22', '\x22'),
    ('\x5c', '\x5c')]

def hexValue (c : Char) : Nat := if c.isDigit then c.toNat - 48 else c.toNat - 87

/-- A character inside a string. -/
def escape (c : Char) : List Char :=
  match shorts.lookup c with
  | some letter => ['\x5c', letter]
  | none =>
    if c.toNat < 32 then
      ['\x5c', 'u', '0', '0', (c.toNat / 16).digitChar, (c.toNat % 16).digitChar]
    else [c]

/-- The characters of a string behind its opening quote, and what follows the closing one. -/
def chars : List Char → Option (List Char × List Char)
  | [] => none
  | '\x22' :: rest => some ([], rest)
  | '\x5c' :: 'u' :: '0' :: '0' :: a :: b :: rest =>
    (chars rest).map fun (cs, r) => (Char.ofNat (16 * hexValue a + hexValue b) :: cs, r)
  | '\x5c' :: letter :: rest =>
    ((shorts.map Prod.swap).lookup letter).bind fun c =>
      (chars rest).map fun (cs, r) => (c :: cs, r)
  | c :: rest => (chars rest).map fun (cs, r) => (c :: cs, r)

theorem chars_control : ∀ n < 32, ∀ rest,
    chars (escape (Char.ofNat n) ++ rest)
      = (chars rest).map fun p => (Char.ofNat n :: p.1, p.2) := by
  intro n hn rest
  interval_cases n <;> rfl

/-- An escaped character is read back. -/
theorem chars_escape (c : Char) (rest : List Char) :
    chars (escape c ++ rest) = (chars rest).map fun p => (c :: p.1, p.2) := by
  by_cases hc : c.toNat < 32
  · have := chars_control c.toNat hc rest
    rwa [Char.ofNat_toNat] at this
  · by_cases hquote : c = '\x22'
    · subst hquote
      rfl
    · by_cases hback : c = '\x5c'
      · subst hback
        rfl
      · have hshort : shorts.lookup c = none := by
          refine List.lookup_eq_none_iff.mpr fun p hp => bne_iff_ne.mpr ?_
          rintro rfl
          simp only [shorts, List.mem_cons, List.not_mem_nil, or_false] at hp
          rcases hp with rfl | rfl | rfl | rfl | rfl | rfl | rfl <;> simp_all
        rw [escape, hshort]
        simp only [if_neg hc, List.cons_append, List.nil_append]
        rw [chars.eq_def]
        split <;> simp_all

/-- A string in its quotes. -/
def text (s : String) : List Char := '\x22' :: (s.toList.flatMap escape ++ ['\x22'])

theorem chars_text (cs rest : List Char) :
    chars (cs.flatMap escape ++ '\x22' :: rest) = some (cs, rest) := by
  induction cs with
  | nil => rfl
  | cons c cs ih => rw [List.flatMap_cons, List.append_assoc, chars_escape, ih]; rfl

/-! ## Values -/

mutual

def print : Json Nat → List Char
  | null => ['n', 'u', 'l', 'l']
  | bool true => ['t', 'r', 'u', 'e']
  | bool false => ['f', 'a', 'l', 's', 'e']
  | number n => Nat.toDigits 10 n
  | str s => text s
  | array items => '[' :: printItems items
  | object fields => '\x7b' :: printFields fields

/-- The items, up to the closing bracket. -/
def printItems : List (Json Nat) → List Char
  | [] => [']']
  | [v] => print v ++ [']']
  | v :: w :: rest => print v ++ ',' :: printItems (w :: rest)

/-- The members, up to the closing brace. -/
def printFields : List (String × Json Nat) → List Char
  | [] => ['\x7d']
  | [(k, v)] => text k ++ ':' :: print v ++ ['\x7d']
  | (k, v) :: kv :: rest => text k ++ ':' :: print v ++ ',' :: printFields (kv :: rest)

end

/-- A member in front of the later ones. -/
def member (k : String) (v : Json Nat) (rest : List (String × Json Nat)) :
    List (String × Json Nat) :=
  if k ∈ rest.map Prod.fst then rest else (k, v) :: rest

mutual

/-- The value at the start of a text, and what follows it. -/
def value : Nat → List Char → Option (Json Nat × List Char)
  | 0, _ => none
  | n + 1, s =>
    match s with
    | 'n' :: 'u' :: 'l' :: 'l' :: rest => some (null, rest)
    | 't' :: 'r' :: 'u' :: 'e' :: rest => some (bool true, rest)
    | 'f' :: 'a' :: 'l' :: 's' :: 'e' :: rest => some (bool false, rest)
    | '\x22' :: rest => (chars rest).map fun (cs, r) => (str (String.ofList cs), r)
    | '[' :: rest =>
      match items n rest, rest with
      | some (vs, r), _ => some (array vs, r)
      | none, ']' :: r => some (array [], r)
      | none, _ => none
    | '\x7b' :: rest =>
      match fields n rest, rest with
      | some (kvs, r), _ => some (object kvs, r)
      | none, '\x7d' :: r => some (object [], r)
      | none, _ => none
    | s =>
      match s.takeWhile Char.isDigit with
      | [] => none
      | digits => some (number (Nat.ofDigitChars 10 digits 0), s.dropWhile Char.isDigit)

/-- One item or more. -/
def items : Nat → List Char → Option (List (Json Nat) × List Char)
  | 0, _ => none
  | n + 1, s => do
    let (v, r) ← value n s
    match r with
    | ',' :: r => do
      let (vs, r) ← items n r
      return (v :: vs, r)
    | ']' :: r => return ([v], r)
    | _ => none

/-- One member or more. -/
def fields : Nat → List Char → Option (List (String × Json Nat) × List Char)
  | 0, _ => none
  | n + 1, s =>
    match s with
    | '\x22' :: s => do
      let (k, r) ← chars s
      match r with
      | ':' :: r => do
        let (v, r) ← value n r
        match r with
        | ',' :: r => do
          let (kvs, r) ← fields n r
          return (member (String.ofList k) v kvs, r)
        | '\x7d' :: r => return ([(String.ofList k, v)], r)
        | _ => none
      | _ => none
    | _ => none

end

/-! ## What is printed is read back -/

/-- A text that does not go on with a digit. -/
def NoDigit (rest : List Char) : Prop := ∀ c ∈ rest.head?, ¬ c.isDigit

/-- Enough fuel reads the value back. -/
def ReadsBack (v : Json Nat) : Prop :=
  ∀ n rest, NoDigit rest → (print v).length ≤ n → value n (print v ++ rest) = some (v, rest)

/-- A value is read back in front of a separator. -/
theorem ReadsBack.cons {v : Json Nat} (h : ReadsBack v) (c : Char) (hc : ¬ c.isDigit) {n : Nat}
    (hn : (print v).length ≤ n) (rest : List Char) :
    value n (print v ++ c :: rest) = some (v, c :: rest) := by
  refine h n _ (fun c' hc' => ?_) hn
  rwa [← Option.some.inj hc']

theorem span_digits {digits rest : List Char} (h : ∀ c ∈ digits, c.isDigit) (hrest : NoDigit rest) :
    (digits ++ rest).takeWhile Char.isDigit = digits
      ∧ (digits ++ rest).dropWhile Char.isDigit = rest := by
  rw [List.takeWhile_append_of_pos h, List.dropWhile_append_of_pos h]
  cases rest with
  | nil => simp
  | cons c rest => simp [hrest c rfl]

theorem number_print (k : Nat) : ReadsBack (number k) := by
  intro n rest hrest hn
  have hdigits : ∀ c ∈ Nat.toDigits 10 k, c.isDigit := fun c hc =>
    Nat.isDigit_of_mem_toDigits (b := 10) (by decide) (by decide) hc
  have hread := Nat.ofDigitChars_ten_toDigits (n := k)
  obtain ⟨htake, hdrop⟩ := span_digits hdigits hrest
  rw [print] at hn ⊢
  cases hd : Nat.toDigits 10 k with
  | nil => exact absurd hd (by simp)
  | cons d ds =>
    rw [hd] at hn hread htake hdrop hdigits
    obtain ⟨n, rfl⟩ : ∃ m, n = m + 1 := ⟨n - 1, by rw [List.length_cons] at hn; omega⟩
    have hd := hdigits d (List.mem_cons_self ..)
    rw [value.eq_def]
    dsimp only
    split
    -- a digit starts no other value
    all_goals first
      | rw [htake, hdrop]
        exact congrArg (fun k => some (number k, rest)) hread
      | next heq =>
        obtain ⟨rfl, -⟩ := List.cons.inj heq
        exact absurd hd (by decide)

theorem items_print {vs : List (Json Nat)} (hvs : vs ≠ []) (h : ∀ v ∈ vs, ReadsBack v) :
    ∀ n rest, (printItems vs).length ≤ n → items n (printItems vs ++ rest) = some (vs, rest) := by
  induction vs with
  | nil => exact absurd rfl hvs
  | cons v vs ih =>
    intro n rest hn
    have hv := h v (List.mem_cons_self ..)
    cases vs with
    | nil =>
      simp only [printItems, List.length_append, List.length_singleton] at hn
      obtain ⟨n, rfl⟩ : ∃ m, n = m + 1 := ⟨n - 1, by omega⟩
      rw [printItems, List.append_assoc, List.singleton_append, items,
        hv.cons ']' (by decide) (by omega)]
      rfl
    | cons w vs =>
      simp only [printItems, List.length_append, List.length_cons] at hn
      obtain ⟨n, rfl⟩ : ∃ m, n = m + 1 := ⟨n - 1, by omega⟩
      have hrest := ih (List.cons_ne_nil w vs) (fun x hx => h x (List.mem_cons_of_mem v hx)) n rest
        (by omega)
      rw [printItems, List.append_assoc, List.cons_append, items,
        hv.cons ',' (by decide) (by omega)]
      simp only [Option.bind_eq_bind, Option.bind_some, hrest]
      rfl

theorem fields_print {kvs : List (String × Json Nat)} (hkvs : kvs ≠ [])
    (keys : (kvs.map Prod.fst).Nodup) (h : ∀ kv ∈ kvs, ReadsBack kv.2) :
    ∀ n rest, (printFields kvs).length ≤ n →
      fields n (printFields kvs ++ rest) = some (kvs, rest) := by
  induction kvs with
  | nil => exact absurd rfl hkvs
  | cons kv kvs ih =>
    obtain ⟨k, v⟩ := kv
    intro n rest hn
    have hv : ReadsBack v := h (k, v) (List.mem_cons_self ..)
    cases kvs with
    | nil =>
      simp only [printFields, List.length_append, List.length_cons] at hn
      obtain ⟨n, rfl⟩ : ∃ m, n = m + 1 := ⟨n - 1, by omega⟩
      simp only [printFields, text, List.cons_append, List.append_assoc, List.nil_append]
      rw [fields, chars_text]
      have hvalue := hv.cons '\x7d' (by decide) (n := n) (by omega) rest
      simp only [Option.bind_eq_bind, Option.bind_some, hvalue, String.ofList_toList]
      rfl
    | cons w kvs =>
      simp only [printFields, List.length_append, List.length_cons] at hn
      obtain ⟨n, rfl⟩ : ∃ m, n = m + 1 := ⟨n - 1, by omega⟩
      obtain ⟨hk, keys⟩ := List.nodup_cons.mp keys
      have hrest := ih (List.cons_ne_nil w kvs) keys (fun x hx => h x (List.mem_cons_of_mem _ hx)) n
        rest (by omega)
      simp only [printFields, text, List.cons_append, List.append_assoc, List.nil_append]
      rw [fields, chars_text]
      have hvalue := hv.cons ',' (by decide) (n := n) (by omega) (printFields (w :: kvs) ++ rest)
      simp only [Option.bind_eq_bind, Option.bind_some, hvalue, hrest,
        String.ofList_toList, member, if_neg hk]
      rfl

/-- **What is printed is read back.** -/
theorem value_print {v : Json Nat} (hv : v.Wf) : ReadsBack v := by
  induction hv with
  | number n => exact number_print n
  | null =>
    intro n rest _ hn
    obtain ⟨n, rfl⟩ : ∃ m, n = m + 1 := ⟨n - 1, by simp [print] at hn; omega⟩
    rfl
  | bool b =>
    intro n rest _ hn
    obtain ⟨n, rfl⟩ : ∃ m, n = m + 1 := ⟨n - 1, by cases b <;> simp [print] at hn <;> omega⟩
    cases b <;> rfl
  | str s =>
    intro n rest _ hn
    obtain ⟨n, rfl⟩ : ∃ m, n = m + 1 := ⟨n - 1, by simp [print, text] at hn; omega⟩
    simp only [print, text, List.cons_append, List.append_assoc, List.nil_append]
    rw [value, chars_text]
    simp
  | @array vs _ ih =>
    intro n rest _ hn
    simp only [print, List.length_cons] at hn
    obtain ⟨n, rfl⟩ : ∃ m, n = m + 1 := ⟨n - 1, by omega⟩
    rcases eq_or_ne vs [] with rfl | hne
    · rcases n with _ | _ | n <;> rfl
    · rw [print, List.cons_append, value]
      simp only [items_print hne ih n rest (by omega)]
  | @object kvs keys _ ih =>
    intro n rest _ hn
    simp only [print, List.length_cons] at hn
    obtain ⟨n, rfl⟩ : ∃ m, n = m + 1 := ⟨n - 1, by omega⟩
    rcases eq_or_ne kvs [] with rfl | hne
    · cases n <;> rfl
    · rw [print, List.cons_append, value]
      simp only [fields_print hne keys ih n rest (by omega)]

/-! ## What is read is well formed -/

theorem member_wf {k : String} {v : Json Nat} {rest : List (String × Json Nat)} (hv : v.Wf)
    (h : (object rest).Wf) : (object (member k v rest)).Wf := by
  unfold member
  split
  · exact h
  · next hk =>
    cases h with
    | object keys h =>
      exact .object (List.nodup_cons.mpr ⟨hk, keys⟩) (List.forall_mem_cons.mpr ⟨hv, h⟩)

theorem items_wf {n : Nat} (hvalue : ∀ {s v r}, value n s = some (v, r) → v.Wf)
    (hitems : ∀ {s vs r}, items n s = some (vs, r) → ∀ v ∈ vs, v.Wf) {s r : List Char}
    {vs : List (Json Nat)} (h : items (n + 1) s = some (vs, r)) : ∀ v ∈ vs, v.Wf := by
  rw [items] at h
  obtain ⟨⟨v, r'⟩, hv, h⟩ := Option.bind_eq_some_iff.mp h
  dsimp only at h
  split at h
  · obtain ⟨⟨vs', _⟩, hvs, h⟩ := Option.bind_eq_some_iff.mp h
    obtain ⟨rfl, -⟩ := Prod.mk.inj (Option.some.inj h)
    exact List.forall_mem_cons.mpr ⟨hvalue hv, hitems hvs⟩
  · obtain ⟨rfl, -⟩ := Prod.mk.inj (Option.some.inj h)
    exact List.forall_mem_singleton.mpr (hvalue hv)
  · cases h

theorem fields_wf {n : Nat} (hvalue : ∀ {s v r}, value n s = some (v, r) → v.Wf)
    (hfields : ∀ {s kvs r}, fields n s = some (kvs, r) → (object kvs).Wf) {s r : List Char}
    {kvs : List (String × Json Nat)} (h : fields (n + 1) s = some (kvs, r)) :
    (object kvs).Wf := by
  rw [fields.eq_def] at h
  dsimp only at h
  split at h
  · obtain ⟨⟨k, _⟩, -, h⟩ := Option.bind_eq_some_iff.mp h
    dsimp only at h
    split at h
    · obtain ⟨⟨v, _⟩, hv, h⟩ := Option.bind_eq_some_iff.mp h
      dsimp only at h
      split at h
      · obtain ⟨⟨kvs', _⟩, hkvs, h⟩ := Option.bind_eq_some_iff.mp h
        obtain ⟨rfl, -⟩ := Prod.mk.inj (Option.some.inj h)
        exact member_wf (hvalue hv) (hfields hkvs)
      · obtain ⟨rfl, -⟩ := Prod.mk.inj (Option.some.inj h)
        exact .object (List.nodup_singleton _) (List.forall_mem_singleton.mpr (hvalue hv))
      · cases h
    · cases h
  · cases h

theorem value_wf_succ {n : Nat} (hitems : ∀ {s vs r}, items n s = some (vs, r) → ∀ v ∈ vs, v.Wf)
    (hfields : ∀ {s kvs r}, fields n s = some (kvs, r) → (object kvs).Wf) {s r : List Char}
    {v : Json Nat} (h : value (n + 1) s = some (v, r)) : v.Wf := by
  rw [value.eq_def] at h
  dsimp only at h
  split at h
  · obtain ⟨rfl, -⟩ := Prod.mk.inj (Option.some.inj h)
    exact .null
  · obtain ⟨rfl, -⟩ := Prod.mk.inj (Option.some.inj h)
    exact .bool _
  · obtain ⟨rfl, -⟩ := Prod.mk.inj (Option.some.inj h)
    exact .bool _
  · obtain ⟨⟨cs, _⟩, -, h⟩ := Option.map_eq_some_iff.mp h
    obtain ⟨rfl, -⟩ := Prod.mk.inj h
    exact .str _
  · split at h
    · next hvs =>
      obtain ⟨rfl, -⟩ := Prod.mk.inj (Option.some.inj h)
      exact .array (hitems hvs)
    · obtain ⟨rfl, -⟩ := Prod.mk.inj (Option.some.inj h)
      exact .array (by simp)
    · cases h
  · split at h
    · next hkvs =>
      obtain ⟨rfl, -⟩ := Prod.mk.inj (Option.some.inj h)
      exact hfields hkvs
    · obtain ⟨rfl, -⟩ := Prod.mk.inj (Option.some.inj h)
      exact .object List.nodup_nil (by simp)
    · cases h
  · split at h
    · cases h
    · obtain ⟨rfl, -⟩ := Prod.mk.inj (Option.some.inj h)
      exact .number _

/-- **What is read is well formed.** -/
theorem value_wf (n : Nat) {s r : List Char} {v : Json Nat} (h : value n s = some (v, r)) :
    v.Wf := by
  suffices hread : (∀ {s v r}, value n s = some (v, r) → v.Wf)
      ∧ (∀ {s vs r}, items n s = some (vs, r) → ∀ v ∈ vs, v.Wf)
      ∧ ∀ {s kvs r}, fields n s = some (kvs, r) → (object kvs).Wf from hread.1 h
  clear h
  induction n with
  | zero => simp [value, items, fields]
  | succ n ih =>
    obtain ⟨hvalue, hitems, hfields⟩ := ih
    exact ⟨value_wf_succ hitems hfields, items_wf hvalue hitems, fields_wf hvalue hfields⟩

/-! ## Whole texts -/

/-- The value a text is. -/
def read (s : List Char) : Option (Json Nat) :=
  match value (s.length + 1) s with
  | some (v, []) => some v
  | _ => none

theorem read_print {v : Json Nat} (hv : v.Wf) : read (print v) = some v := by
  have h := value_print hv ((print v).length + 1) [] (by simp [NoDigit]) (Nat.le_succ _)
  rw [List.append_nil] at h
  rw [read, h]

theorem read_wf {s : List Char} {v : Json Nat} (h : read s = some v) : v.Wf := by
  unfold read at h
  split at h
  · next hv =>
    obtain rfl := Option.some.inj h
    exact value_wf _ hv
  · cases h

end Json.Compact
