import DevPortal.Config.Redaction
import DevPortal.Config.Sealing
import DevPortal.Machinery.JsonText

/-!
# Config/Snapshots — what is kept of a run item

    value ▸ redacted ▸ text ─┬─ short enough ──▸ the text
                             └─ too long ──▸ { _max_chars, _preview, _truncated }

Escaping makes a preview longer, by how much depends on its characters.  What the loop needs of it is
little: a preview that is too long is followed by a shorter one (`previewLoop` is defined by that),
and one character is never too long, since no text begins with a control character.
-/

namespace DevPortal.Crypto

open Json

variable {ν : Type}

/-- What is relied on of `to_string`: a value is written compactly, its numbers as JSON has them and
a `usize` in decimal digits. -/
structure Codec.Compact (codec : Codec ν) (literal : ν → List Char) (ofNat : Nat → ν) : Prop where
  writes : ∀ v : Value ν, codec.toString v.1 = .ok (String.ofList (Json.Text.print literal v.1))
  number : ∀ n, Json.Text.IsNumber (literal n)
  natural : ∀ n, literal (ofNat n) = Nat.toDigits 10 n

section Loop

variable {codec : Codec ν} {literal : ν → List Char} {ofNat : Nat → ν}

theorem wf_wrapPreview (ofNat : Nat → ν) (maxChars : Nat) (preview : String) :
    (wrapPreview ofNat maxChars preview).Wf := by
  refine .object (by simp) ?_
  intro kv hkv
  simp only [List.mem_cons, List.not_mem_nil, or_false] at hkv
  rcases hkv with rfl | rfl | rfl
  · exact .number _
  · exact .str _
  · exact .bool _

/-- **The length of a wrapped preview.** -/
theorem length_wrapPreview (h : codec.Compact literal ofNat) (maxChars : Nat) (preview : String) :
    (Json.Text.print literal (wrapPreview ofNat maxChars preview)).length =
      47 + (Nat.toDigits 10 maxChars).length
        + (preview.toList.flatMap Json.Compact.escape).length := by
  have hmax : (Json.Compact.text "_max_chars").length = 12 := by decide
  have hpreview : (Json.Compact.text "_preview").length = 10 := by decide
  have htruncated : (Json.Compact.text "_truncated").length = 12 := by decide
  simp only [wrapPreview, Json.Text.print, Json.Text.printFields, h.natural,
    List.intercalate_cons_cons, List.intercalate_singleton, List.length_append, List.length_cons,
    List.length_nil, hmax, hpreview, htruncated, if_true]
  simp only [Json.Compact.text, List.length_cons, List.length_append, List.length_nil]
  omega

/-- There is room for two characters more. -/
theorem digits_fit {maxChars : Nat} (h : 64 ≤ maxChars) :
    (Nat.toDigits 10 maxChars).length + 50 ≤ maxChars := by
  obtain ⟨k, rfl⟩ : ∃ k, maxChars = k + 1 + 50 := ⟨maxChars - 51, by omega⟩
  have hpow : k < 10 ^ k := Nat.lt_pow_self (by decide)
  have hlt : k + 1 + 50 < 10 ^ (k + 1) := by
    rw [Nat.pow_succ]
    omega
  exact Nat.add_le_add_right ((Nat.length_toDigits_le_iff (by decide) (Nat.succ_pos k)).mpr hlt) 50

/-- One character of a text fits. -/
theorem length_first {cs : List Char} (h : ∀ c ∈ cs.head?, 32 ≤ c.toNat) :
    ((cs.take 1).flatMap Json.Compact.escape).length ≤ 2 := by
  rcases cs with _ | ⟨c, cs⟩
  · exact Nat.zero_le 2
  · have hc : 32 ≤ c.toNat := h c rfl
    rw [List.take_succ_cons, List.take_zero, List.flatMap_singleton]
    exact Json.Text.length_escape_le hc

/-- **The loop ends with a preview that fits.**  The induction is on the length of the preview, which
each turn makes smaller. -/
theorem previewLoop_fits (h : codec.Compact literal ofNat) {maxChars : Nat} (hmax : 64 ≤ maxChars)
    (snapshot : String) (hhead : ∀ c ∈ snapshot.toList.head?, 32 ≤ c.toNat) (previewLen : Nat)
    (hpos : 0 < previewLen) :
    ∃ taken, previewLoop codec ofNat maxChars snapshot previewLen hpos =
        some (String.ofList (Json.Text.print literal
          (wrapPreview ofNat maxChars (String.ofList (snapshot.toList.take taken))))) ∧
      (Json.Text.print literal
        (wrapPreview ofNat maxChars (String.ofList (snapshot.toList.take taken)))).length
          ≤ maxChars := by
  induction previewLen using Nat.strong_induction_on with
  | _ previewLen ih =>
    have hwritten := h.writes
      ⟨_, wf_wrapPreview ofNat maxChars
        (String.ofList (snapshot.toList.take previewLen))⟩
    rw [previewLoop]
    simp only [hwritten, Except.toOption, Option.bind_some, String.toList_ofList]
    split
    · next hstop =>
      refine ⟨previewLen, rfl, ?_⟩
      rcases hstop with hfits | rfl
      · exact hfits
      · have hfirst := length_first hhead
        have hdigits := digits_fit hmax
        rw [length_wrapPreview h, String.toList_ofList]
        omega
    · next hstop =>
      rw [not_or] at hstop
      exact ih _ (by omega) (by omega)

end Loop

/-- A snapshot of a value: its redaction, or an object that holds the beginning of it. -/
structure IsSnapshot (literal : ν → List Char) (ofNat : Nat → ν) (v : Value ν) (maxChars : Nat)
    (text : List Char) : Prop where
  valid : Json.Text.Valid text
  fits : text.length ≤ maxChars
  shown : text = Json.Text.print literal (redactJsonSecrets v.1) ∨
    ∃ preview : String, text = Json.Text.print literal (wrapPreview ofNat maxChars preview) ∧
      preview.toList <+: Json.Text.print literal (redactJsonSecrets v.1)

theorem isSnapshot_sanitized {codec : Codec ν} {literal : ν → List Char} {ofNat : Nat → ν}
    (h : codec.Compact literal ofNat) (v : Value ν) {maxChars : Nat} (hmax : 64 ≤ maxChars) :
    ∃ snapshot, sanitizedJsonSnapshot codec ofNat (some v.1) maxChars = some snapshot ∧
      IsSnapshot literal ofNat v maxChars snapshot.toList := by
  have hwf := wf_redactJsonSecrets v.2
  have hvalid := Json.Text.valid_print h.number hwf
  have hwritten := h.writes ⟨_, hwf⟩
  simp only [sanitizedJsonSnapshot, Option.bind_eq_bind, Option.bind_some, hwritten,
    Except.toOption, String.toList_ofList, Option.pure_def]
  split
  · next hfits =>
    refine ⟨_, rfl, ?_⟩
    rw [String.toList_ofList]
    exact ⟨hvalid, hfits, .inl rfl⟩
  · obtain ⟨taken, htaken, hfits⟩ := previewLoop_fits h hmax
      (String.ofList (Json.Text.print literal (redactJsonSecrets v.1)))
      (by rw [String.toList_ofList]; exact Json.Text.head_of_valid hvalid)
      (max (maxChars - 128) 1) (by omega)
    refine ⟨_, htaken, ?_⟩
    rw [String.toList_ofList]
    refine ⟨Json.Text.valid_print h.number (wf_wrapPreview _ _ _), hfits, .inr ⟨_, rfl, ?_⟩⟩
    rw [String.toList_ofList, String.toList_ofList]
    exact List.take_prefix _ _

/-- **Snapshots terminate, parse and fit**, and so does what is kept of a run item. -/
theorem snapshots_parse_and_fit (codec : Codec ν) (literal : ν → List Char) (ofNat : Nat → ν)
    (h : codec.Compact literal ofNat) (v : Value ν) :
    (∀ maxChars, 64 ≤ maxChars →
      ∃ snapshot, sanitizedJsonSnapshot codec ofNat (some v.1) maxChars = some snapshot ∧
        IsSnapshot literal ofNat v maxChars snapshot.toList) ∧
    ∃ snapshot, rawItemJson codec ofNat (some v.1) = some snapshot ∧
      IsSnapshot literal ofNat v 8192 snapshot.toList := by
  constructor
  · intro maxChars hmax
    exact isSnapshot_sanitized h v hmax
  · exact isSnapshot_sanitized h v (by decide)

/-! ## The texts of naturals -/

theorem compact_print {v : Json Nat} (hv : v.Wf) :
    Json.Compact.print v = Json.Text.print (Nat.toDigits 10) v := by
  have hitems : ∀ items : List (Json Nat),
      (∀ v ∈ items, Json.Compact.print v = Json.Text.print (Nat.toDigits 10) v) →
      Json.Compact.printItems items =
        [','].intercalate (items.map (Json.Text.print (Nat.toDigits 10))) ++ [']'] := by
    intro items h
    induction items with
    | nil => rfl
    | cons v items ih =>
      rw [List.forall_mem_cons] at h
      rcases items with _ | ⟨w, items⟩
      · rw [Json.Compact.printItems, h.1]
        simp
      · rw [Json.Compact.printItems, ih h.2, h.1]
        simp [List.intercalate_cons_cons]
  have hfields : ∀ fields : List (String × Json Nat),
      (∀ kv ∈ fields, Json.Compact.print kv.2 = Json.Text.print (Nat.toDigits 10) kv.2) →
      Json.Compact.printFields fields =
        [','].intercalate (fields.map fun kv =>
          Json.Compact.text kv.1 ++ ':' :: Json.Text.print (Nat.toDigits 10) kv.2) ++ ['\x7d'] := by
    intro fields h
    induction fields with
    | nil => rfl
    | cons kv fields ih =>
      rw [List.forall_mem_cons] at h
      rcases fields with _ | ⟨kw, fields⟩
      · rw [Json.Compact.printFields, h.1]
        simp
      · rw [Json.Compact.printFields, ih h.2, h.1]
        simp [List.intercalate_cons_cons]
  induction hv with
  | null => rfl
  | bool b => cases b <;> rfl
  | number n => rfl
  | str s => rfl
  | array _ ih => rw [Json.Compact.print, Json.Text.print, hitems _ ih, Json.Text.printItems_eq]
  | object _ _ ih => rw [Json.Compact.print, Json.Text.print, hfields _ ih, Json.Text.printFields_eq]

theorem compact_compact : compact.Compact (Nat.toDigits 10) id where
  writes := fun v => by rw [← compact_print v.2]; rfl
  number := Json.Text.isNumber_toDigits
  natural := fun _ => rfl

/-- Three hundred quotes, each of which is escaped. -/
theorem snapshots_quotes :
    ∃ snapshot, sanitizedJsonSnapshot compact id
        (some (.str (String.ofList (List.replicate 300 '\x22')))) 64 = some snapshot ∧
      snapshot.toList.length ≤ 64 := by
  obtain ⟨hfits, -⟩ := snapshots_parse_and_fit compact (Nat.toDigits 10) id compact_compact
    ⟨.str (String.ofList (List.replicate 300 '\x22')), .str _⟩
  obtain ⟨snapshot, hsnapshot, hspec⟩ := hfits 64 (by decide)
  exact ⟨snapshot, hsnapshot, hspec.fits⟩

end DevPortal.Crypto
