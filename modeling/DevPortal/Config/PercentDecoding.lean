import DevPortal.Adapters.Shared
import DevPortal.Config.Settings
import DevPortal.Machinery.SearchParams

/-!
# Config/PercentDecoding — what `percent_decode_utf8` accepts

    characters ▸ octets ▸ index loop (`percentDecodeLoop`) ▸ octets ▸ text
        └──────── escapes that are complete, read (`octets`) ───┘

The loop runs over octets and the grammar over characters.  They meet because no octet of a character
outside ASCII is a `%` or a digit: an escape that is complete in the one is complete in the other.
-/

namespace DevPortal

namespace Percent

/-! ## The loop -/

/-- `hex_value`. -/
def hexValue (byte : UInt8) : Option UInt8 :=
  if 0x30 ≤ byte ∧ byte ≤ 0x39 then some (byte - 0x30)
  else if 0x61 ≤ byte ∧ byte ≤ 0x66 then some (byte - 0x61 + 10)
  else if 0x41 ≤ byte ∧ byte ≤ 0x46 then some (byte - 0x41 + 10)
  else none

/-- The loop of `percent_decode_utf8`, with its index. -/
def percentDecodeLoop (bytes : Array UInt8) (index : Nat) (decoded : Array UInt8) :
    Option (Array UInt8) :=
  if h : index < bytes.size then
    if bytes[index] = 0x25 then
      match bytes[index + 1]?.bind hexValue, bytes[index + 2]?.bind hexValue with
      | some high, some low =>
        percentDecodeLoop bytes (index + 3) (decoded.push ((high <<< 4) ||| low))
      | _, _ => none
    else percentDecodeLoop bytes (index + 1) (decoded.push bytes[index])
  else some decoded
termination_by bytes.size - index

/-- The digit of an octet is the digit of its character. -/
theorem hexValue_eq (b : UInt8) :
    Query.hexValue (Char.ofNat b.toNat) = (hexValue b).map UInt8.toNat := by
  have hall : ∀ n : Fin 256, Query.hexValue (Char.ofNat (UInt8.ofNat n).toNat)
      = (hexValue (UInt8.ofNat n)).map UInt8.toNat := by decide +kernel
  simpa using hall ⟨b.toNat, b.toNat_lt⟩

theorem hexValue_lt {b d : UInt8} (h : hexValue b = some d) : d.toNat < 16 := by
  have hall : ∀ n : Fin 256, ((hexValue (UInt8.ofNat n)).all fun d => d.toNat < 16) = true := by
    decide +kernel
  have hb := hall ⟨b.toNat, b.toNat_lt⟩
  simp only [UInt8.ofNat_toNat, h, Option.all_some, decide_eq_true_eq] at hb
  exact hb

theorem digit_lt {b : Option UInt8} {d : UInt8} (h : b.bind hexValue = some d) : d.toNat < 16 := by
  obtain ⟨b, -, hb⟩ := Option.bind_eq_some_iff.mp h
  exact hexValue_lt hb

/-- A digit is an ASCII character. -/
theorem hexValue_large {b : UInt8} (h : 0x80 ≤ b.toNat) : hexValue b = none := by
  have hall : ∀ n : Fin 256, 0x80 ≤ n.val → hexValue (UInt8.ofNat n) = none := by decide +kernel
  simpa using hall ⟨b.toNat, b.toNat_lt⟩ h

/-- Two digits make an octet. -/
theorem shift_or {high low : UInt8} (hhigh : high.toNat < 16) (hlow : low.toNat < 16) :
    (high <<< 4) ||| low = UInt8.ofNat (16 * high.toNat + low.toNat) := by
  have hall : ∀ a b : Fin 16, (UInt8.ofNat a <<< 4) ||| UInt8.ofNat b
      = UInt8.ofNat (16 * a.val + b.val) := by decide +kernel
  simpa using hall ⟨high.toNat, hhigh⟩ ⟨low.toNat, hlow⟩

/-- What `percentDecodeBytes` does with a `%`. -/
theorem percentDecodeBytes_percent (bytes : List UInt8) :
    percentDecodeBytes (0x25 :: bytes) =
      match bytes[0]?.bind hexValue, bytes[1]?.bind hexValue with
      | some high, some low =>
        (percentDecodeBytes (bytes.drop 2)).map (((high <<< 4) ||| low) :: ·)
      | _, _ => none := by
  rcases bytes with _ | ⟨a, _ | ⟨b, bytes⟩⟩
  · rfl
  · have hnone : percentDecodeBytes [0x25, a] = none := rfl
    rw [hnone]
    simp only [List.getElem?_cons_zero, List.getElem?_cons_succ, List.getElem?_nil,
      Option.bind_some, Option.bind_none]
    cases hexValue a <;> rfl
  · rw [percentDecodeBytes, if_pos rfl]
    simp only [hexValue_eq, List.getElem?_cons_zero, List.getElem?_cons_succ, Option.bind_some,
      List.drop_succ_cons, List.drop_zero]
    cases ha : hexValue a with
    | none => rfl
    | some high =>
      cases hb : hexValue b with
      | none => rfl
      | some low =>
        simp only [Option.map_some, shift_or (hexValue_lt ha) (hexValue_lt hb)]

theorem percentDecodeBytes_cons {b : UInt8} (h : b ≠ 0x25) (bytes : List UInt8) :
    percentDecodeBytes (b :: bytes) = (percentDecodeBytes bytes).map (b :: ·) := by
  rw [percentDecodeBytes.eq_def]
  exact if_neg h

/-- **The loop decodes what lies ahead of its index.** -/
theorem percentDecodeLoop_eq (bytes : Array UInt8) (index : Nat) (decoded : Array UInt8) :
    percentDecodeLoop bytes index decoded =
      (percentDecodeBytes (bytes.toList.drop index)).map fun ahead => decoded ++ ahead.toArray := by
  induction hleft : bytes.size - index using Nat.strong_induction_on generalizing index decoded with
  | _ left ih =>
    rw [percentDecodeLoop]
    split
    · next h =>
      have hdrop : bytes.toList.drop index = bytes[index] :: bytes.toList.drop (index + 1) :=
        List.drop_eq_getElem_cons (by simpa using h)
      rw [hdrop]
      split
      · next hpercent =>
        have hfirst : (bytes.toList.drop (index + 1))[0]? = bytes[index + 1]? := by
          simp [List.getElem?_drop]
        have hsecond : (bytes.toList.drop (index + 1))[1]? = bytes[index + 2]? := by
          simp [List.getElem?_drop]
        rw [hpercent, percentDecodeBytes_percent, hfirst, hsecond, List.drop_drop]
        split
        · next high low hhigh hlow =>
          rw [ih _ (by omega) (index + 3) _ rfl]
          simp [Function.comp_def]
        · rfl
      · next hplain =>
        rw [percentDecodeBytes_cons hplain, ih _ (by omega) (index + 1) _ rfl]
        simp [Function.comp_def]
    · next h =>
      rw [List.drop_eq_nil_of_le (Array.length_toList.trans_le (Nat.le_of_not_lt h))]
      simp [percentDecodeBytes]

/-! ## The grammar -/

/-- Every `%` is followed by two hexadecimal digits. -/
def EscapesComplete (cs : List Char) : Prop :=
  ∀ i, cs[i]? = some '%' → ∃ high low, cs[i + 1]? = some high ∧ cs[i + 2]? = some low ∧
    (Query.hexValue high).isSome ∧ (Query.hexValue low).isSome

/-- The octets of a text: those of the escapes, and those of the other characters. -/
def octets : List Char → List UInt8
  | [] => []
  | c :: rest =>
    if c = '%' then
      match rest with
      | high :: low :: rest =>
        UInt8.ofNat (16 * (Query.hexValue high).getD 0 + (Query.hexValue low).getD 0) :: octets rest
      | rest => octets rest
    else String.utf8EncodeChar c ++ octets rest

theorem hexValue_percent : Query.hexValue '%' = none := by decide

/-- A character that begins no escape. -/
theorem escapesComplete_cons {c : Char} (hc : c ≠ '%') {cs : List Char} :
    EscapesComplete (c :: cs) ↔ EscapesComplete cs := by
  constructor
  · intro h i hi
    exact h (i + 1) hi
  · intro h i hi
    cases i with
    | zero => exact absurd (Option.some.inj hi) hc
    | succ i => exact h i hi

/-- An escape, and what is behind it. -/
theorem escapesComplete_escape {cs : List Char} :
    EscapesComplete ('%' :: cs) ↔ ∃ high low rest, cs = high :: low :: rest ∧
      (Query.hexValue high).isSome ∧ (Query.hexValue low).isSome ∧ EscapesComplete rest := by
  constructor
  · intro h
    obtain ⟨high, low, hhigh, hlow, hhex, hlex⟩ := h 0 rfl
    rcases cs with _ | ⟨a, _ | ⟨b, rest⟩⟩
    · cases hhigh
    · cases hlow
    · obtain rfl := Option.some.inj hhigh
      obtain rfl := Option.some.inj hlow
      exact ⟨a, b, rest, rfl, hhex, hlex, fun i hi => h (i + 3) hi⟩
  · rintro ⟨high, low, rest, rfl, hhex, hlex, hrest⟩ i hi
    match i with
    | 0 => exact ⟨high, low, rfl, rfl, hhex, hlex⟩
    | 1 =>
      obtain rfl : high = '%' := Option.some.inj hi
      rw [hexValue_percent] at hhex
      cases hhex
    | 2 =>
      obtain rfl : low = '%' := Option.some.inj hi
      rw [hexValue_percent] at hlex
      cases hlex
    | i + 3 => exact hrest i hi

/-! ## From characters to octets -/

/-- Octets without a `%` are taken as they are. -/
theorem percentDecodeBytes_append {plain : List UInt8} (h : 0x25 ∉ plain) (bytes : List UInt8) :
    percentDecodeBytes (plain ++ bytes) = (percentDecodeBytes bytes).map (plain ++ ·) := by
  induction plain with
  | nil => simp
  | cons b plain ih =>
    rw [List.mem_cons, not_or] at h
    rw [List.cons_append, percentDecodeBytes_cons (Ne.symm h.1), ih h.2, Option.map_map]
    rfl

/-- A `%` is an octet of no other character. -/
theorem percent_not_mem {c : Char} (hc : c ≠ '%') : 0x25 ∉ String.utf8EncodeChar c := by
  intro hmem
  by_cases hascii : c.toNat < 0x80
  · rw [Unicode.utf8EncodeChar_ascii hascii, List.mem_singleton] at hmem
    have hnat : c.toNat = 0x25 := by
      have := congrArg UInt8.toNat hmem
      rw [UInt8.toNat_ofNat_of_lt' (by show c.toNat < 256; omega)] at this
      exact this.symm
    exact hc (Char.toNat_inj.mp hnat)
  · have hlarge := SearchParams.utf8EncodeChar_large (Nat.le_of_not_lt hascii) hmem
    exact absurd hlarge (by decide)

/-- The first octet of a character is a digit just if the character is one, and it is alone then. -/
theorem utf8EncodeChar_hex (c : Char) :
    ∃ b bytes, String.utf8EncodeChar c = b :: bytes ∧
      (hexValue b).map UInt8.toNat = Query.hexValue c ∧
      ((Query.hexValue c).isSome → bytes = []) := by
  by_cases hascii : c.toNat < 0x80
  · refine ⟨_, [], Unicode.utf8EncodeChar_ascii hascii, ?_, fun _ => rfl⟩
    rw [← hexValue_eq, UInt8.toNat_ofNat_of_lt' (by show c.toNat < 256; omega), Char.ofNat_toNat]
  · have hnone : Query.hexValue c = none := by
      have hdigit : c.isDigit = false := by
        simp only [Char.isDigit, Bool.and_eq_false_iff, decide_eq_false_iff_not, ge_iff_le,
          UInt32.le_iff_toNat_le]
        exact .inr fun h => hascii (Nat.lt_of_le_of_lt h (by decide))
      rw [Query.hexValue, hdigit, if_neg Bool.false_ne_true, if_neg (by omega), if_neg (by omega)]
    obtain ⟨b, bytes, hbytes⟩ : ∃ b bytes, String.utf8EncodeChar c = b :: bytes :=
      List.exists_cons_of_ne_nil String.utf8EncodeChar_ne_nil
    have hlarge : 0x80 ≤ b.toNat :=
      SearchParams.utf8EncodeChar_large (Nat.le_of_not_lt hascii) (hbytes ▸ List.mem_cons_self)
    refine ⟨b, bytes, hbytes, ?_, ?_⟩
    · rw [hnone, hexValue_large hlarge]
      rfl
    · rw [hnone]
      exact fun h => (nomatch h)

/-- A digit that lies ahead is a character. -/
theorem digit_ahead {cs : List Char} {digit : UInt8}
    (h : (cs.flatMap String.utf8EncodeChar)[0]?.bind hexValue = some digit) :
    ∃ c rest b, cs = c :: rest ∧ Query.hexValue c = some digit.toNat ∧
      cs.flatMap String.utf8EncodeChar = b :: rest.flatMap String.utf8EncodeChar := by
  rcases cs with _ | ⟨c, rest⟩
  · cases h
  · obtain ⟨b, bytes, hbytes, hvalue, halone⟩ := utf8EncodeChar_hex c
    rw [List.flatMap_cons, hbytes] at h
    have hb : hexValue b = some digit := h
    rw [hb] at hvalue
    have hdigit : Query.hexValue c = some digit.toNat := hvalue.symm
    refine ⟨c, rest, b, rfl, hdigit, ?_⟩
    rw [List.flatMap_cons, hbytes, halone (by rw [hdigit]; rfl)]
    rfl

/-- And a character that is a digit lies ahead. -/
theorem digit_octet {c : Char} (h : (Query.hexValue c).isSome) :
    ∃ b digit, String.utf8EncodeChar c = [b] ∧ hexValue b = some digit ∧
      Query.hexValue c = some digit.toNat := by
  obtain ⟨b, bytes, hbytes, hvalue, halone⟩ := utf8EncodeChar_hex c
  obtain ⟨n, hn⟩ := Option.isSome_iff_exists.mp h
  rw [hn] at hvalue
  obtain ⟨digit, hdigit, rfl⟩ := Option.map_eq_some_iff.mp hvalue
  exact ⟨b, digit, by rw [hbytes, halone h], hdigit, hn⟩

/-- An escape is decoded just if its digits are there. -/
theorem percentDecodeBytes_escape (cs : List Char) (bytes : List UInt8) :
    percentDecodeBytes (('%' :: cs).flatMap String.utf8EncodeChar) = some bytes ↔
      ∃ high low rest x y decoded, cs = high :: low :: rest ∧ Query.hexValue high = some x ∧
        Query.hexValue low = some y ∧
        percentDecodeBytes (rest.flatMap String.utf8EncodeChar) = some decoded ∧
        bytes = UInt8.ofNat (16 * x + y) :: decoded := by
  have hpercent : ('%' :: cs).flatMap String.utf8EncodeChar
      = 0x25 :: cs.flatMap String.utf8EncodeChar := rfl
  rw [hpercent, percentDecodeBytes_percent]
  constructor
  · intro h
    split at h
    · next x y hx hy =>
      obtain ⟨high, rest, b, rfl, hhigh, hdrop⟩ := digit_ahead hx
      rw [hdrop] at hy h
      obtain ⟨low, rest, b', rfl, hlow, hdrop'⟩ := digit_ahead hy
      rw [hdrop'] at h
      obtain ⟨decoded, hdecoded, rfl⟩ := Option.map_eq_some_iff.mp h
      refine ⟨high, low, rest, _, _, decoded, rfl, hhigh, hlow, hdecoded, ?_⟩
      rw [shift_or (digit_lt hx) (digit_lt hy)]
    · cases h
  · rintro ⟨high, low, rest, x, y, decoded, rfl, hhigh, hlow, hdecoded, rfl⟩
    obtain ⟨b, x', hb, hx, hhigh'⟩ := digit_octet (by rw [hhigh]; rfl)
    obtain ⟨b', y', hb', hy, hlow'⟩ := digit_octet (by rw [hlow]; rfl)
    obtain rfl : x = x'.toNat := Option.some.inj (hhigh.symm.trans hhigh')
    obtain rfl : y = y'.toNat := Option.some.inj (hlow.symm.trans hlow')
    simp only [List.flatMap_cons, hb, hb', List.singleton_append, List.getElem?_cons_zero,
      List.getElem?_cons_succ, Option.bind_some, hx, hy, List.drop_succ_cons, List.drop_zero,
      hdecoded, Option.map_some, shift_or (hexValue_lt hx) (hexValue_lt hy)]

theorem octets_cons {c : Char} (hc : c ≠ '%') (rest : List Char) :
    octets (c :: rest) = String.utf8EncodeChar c ++ octets rest := by
  rcases rest with _ | ⟨a, _ | ⟨b, rest⟩⟩ <;> simp [octets, hc]

theorem octets_escape {high low : Char} {x y : Nat} (hhigh : Query.hexValue high = some x)
    (hlow : Query.hexValue low = some y) (rest : List Char) :
    octets ('%' :: high :: low :: rest) = UInt8.ofNat (16 * x + y) :: octets rest := by
  simp [octets, hhigh, hlow]

/-- **The octets of a text are decoded just if its escapes are complete.**  The induction is on the
text: a plain character is one step of its own octets, an escape one of three. -/
theorem percentDecodeBytes_flatMap (cs : List Char) (bytes : List UInt8) :
    percentDecodeBytes (cs.flatMap String.utf8EncodeChar) = some bytes ↔
      EscapesComplete cs ∧ octets cs = bytes := by
  induction hlength : cs.length using Nat.strong_induction_on generalizing cs bytes with
  | _ length ih =>
    rcases cs with _ | ⟨c, cs⟩
    · constructor
      · intro h
        exact ⟨fun i hi => (nomatch hi), Option.some.inj h⟩
      · intro h
        exact congrArg some h.2
    · by_cases hc : c = '%'
      · rw [hc, percentDecodeBytes_escape, escapesComplete_escape]
        constructor
        · rintro ⟨high, low, rest, x, y, decoded, rfl, hhigh, hlow, hdecoded, rfl⟩
          obtain ⟨hcomplete, rfl⟩ :=
            (ih rest.length (by simp [← hlength]; omega) rest decoded rfl).mp hdecoded
          exact ⟨⟨high, low, rest, rfl, by rw [hhigh]; rfl, by rw [hlow]; rfl, hcomplete⟩,
            octets_escape hhigh hlow rest⟩
        · rintro ⟨⟨high, low, rest, rfl, hhigh, hlow, hcomplete⟩, rfl⟩
          obtain ⟨x, hx⟩ := Option.isSome_iff_exists.mp hhigh
          obtain ⟨y, hy⟩ := Option.isSome_iff_exists.mp hlow
          exact ⟨high, low, rest, x, y, octets rest, rfl, hx, hy,
            (ih rest.length (by simp [← hlength]; omega) rest _ rfl).mpr ⟨hcomplete, rfl⟩,
            octets_escape hx hy rest⟩
      · have hrest := ih cs.length (by simp [← hlength]) cs
        rw [List.flatMap_cons, percentDecodeBytes_append (percent_not_mem hc),
          Option.map_eq_some_iff, escapesComplete_cons hc, octets_cons hc]
        constructor
        · rintro ⟨rest, hdecoded, rfl⟩
          obtain ⟨hcomplete, rfl⟩ := (hrest rest rfl).mp hdecoded
          exact ⟨hcomplete, rfl⟩
        · rintro ⟨hcomplete, rfl⟩
          exact ⟨_, (hrest _ rfl).mpr ⟨hcomplete, rfl⟩, rfl⟩

/-! ## Components that were written -/

/-- The escapes of a component that was written are complete. -/
theorem escapesComplete_encode (bytes : List UInt8) :
    EscapesComplete (bytes.flatMap Query.encodeByte) ∧
      octets (bytes.flatMap Query.encodeByte) = bytes := by
  induction bytes with
  | nil => exact ⟨fun i hi => (nomatch hi), rfl⟩
  | cons b bytes ih =>
    obtain ⟨hcomplete, hoctets⟩ := ih
    rw [List.flatMap_cons, Query.encodeByte]
    split
    · next h =>
      obtain ⟨hc, hb⟩ := Query.unreserved_char h
      simp only [List.mem_cons, not_or] at hc
      rw [List.singleton_append, escapesComplete_cons hc.1, octets_cons hc.1, hb, hoctets]
      exact ⟨hcomplete, rfl⟩
    · have hlt : b.toNat < 256 := b.toNat_lt
      have hhigh := Query.hexValue_hexDigit (n := b.toNat / 16) (by omega)
      have hlow := Query.hexValue_hexDigit (n := b.toNat % 16) (by omega)
      have hsum : 16 * (b.toNat / 16) + b.toNat % 16 = b.toNat := by omega
      refine ⟨escapesComplete_escape.mpr
        ⟨_, _, _, rfl, by rw [hhigh]; rfl, by rw [hlow]; rfl, hcomplete⟩, ?_⟩
      rw [List.cons_append, List.cons_append, List.cons_append, List.nil_append,
        octets_escape hhigh hlow, hsum, UInt8.ofNat_toNat, hoctets]

end Percent

open Percent

/-- **The function, with the loop of the source.** -/
theorem percentDecodeUtf8_eq_loop (value : String) :
    percentDecodeUtf8 value =
      (percentDecodeLoop value.toUTF8.toList.toArray 0 #[]).bind fun decoded =>
        Text.fromUtf8 decoded.toList := by
  rw [percentDecodeLoop_eq, percentDecodeUtf8, Option.bind_map]
  simp

theorem percentDecodeUtf8_eq_some_iff {value text : String} :
    percentDecodeUtf8 value = some text ↔
      EscapesComplete value.toList ∧ octets value.toList = Query.utf8 text := by
  rw [percentDecodeUtf8, Unicode.toList_toUTF8, Option.bind_eq_some_iff]
  constructor
  · rintro ⟨bytes, hbytes, htext⟩
    obtain ⟨hcomplete, rfl⟩ := (percentDecodeBytes_flatMap value.toList bytes).mp hbytes
    exact ⟨hcomplete, Unicode.fromUtf8_eq_some_iff.mp htext⟩
  · rintro ⟨hcomplete, hoctets⟩
    exact ⟨Query.utf8 text, (percentDecodeBytes_flatMap _ _).mpr ⟨hcomplete, hoctets⟩,
      Unicode.fromUtf8_eq_some_iff.mpr rfl⟩

/-- What was written is read. -/
theorem percentDecodeUtf8_encodeUrlComponent (s : String) :
    percentDecodeUtf8 (encodeUrlComponent s) = some s := by
  rw [percentDecodeUtf8_eq_some_iff, encodeUrlComponent, String.toList_ofList]
  exact escapesComplete_encode (Query.utf8 s)

/-- The name of a database whose URL has a path is what the path says. -/
theorem percentDecodeUtf8_of_databaseName {parsers : SettingParsers} {databaseUrl name : String}
    {url : ParsedUrl} (hurl : parsers.url (Text.trim databaseUrl) = some url)
    (hpath : (Text.stripPrefix url.path "/").getD url.path ≠ "")
    (h : databaseNameFromUrl parsers databaseUrl = .ok name) :
    percentDecodeUtf8 ((Text.stripPrefix url.path "/").getD url.path) = some name := by
  have hempty : ((Text.stripPrefix url.path "/").getD url.path).isEmpty = false := by
    simpa using hpath
  rw [databaseNameFromUrl, hurl] at h
  simp only [hempty, Bool.false_eq_true, if_false] at h
  obtain ⟨-, -, h⟩ := Json.Walk.bind_eq_ok.mp h
  cases hdecoded : percentDecodeUtf8 ((Text.stripPrefix url.path "/").getD url.path) with
  | none =>
    rw [hdecoded] at h
    cases h
  | some decoded =>
    rw [hdecoded] at h
    obtain ⟨pathDatabaseName, hpathName, h⟩ := Json.Walk.bind_eq_ok.mp h
    obtain rfl := Except.ok.inj hpathName
    obtain ⟨-, -, h⟩ := Json.Walk.bind_eq_ok.mp h
    split at h
    · cases h
    · next name' hname =>
      obtain ⟨-, -, h⟩ := Json.Walk.bind_eq_ok.mp h
      obtain rfl := Except.ok.inj h
      exact congrArg some (Option.some.inj (Option.filter_eq_some_iff.mp hname).1)

/-- **Percent decoding accepts its grammar**: a text whose escapes are complete and whose octets are
a text's, and this text is the result; what `encode_url_component` writes is read back; and a path
names the database it says. -/
theorem percent_decoding_grammar (value : String) :
    (∀ text, percentDecodeUtf8 value = some text ↔
      EscapesComplete value.toList ∧ octets value.toList = Query.utf8 text) ∧
    ((percentDecodeUtf8 value).isSome ↔
      EscapesComplete value.toList ∧ ∃ text, octets value.toList = Query.utf8 text) ∧
    percentDecodeUtf8 (encodeUrlComponent value) = some value ∧
    ∀ (parsers : SettingParsers) (databaseUrl name : String) (url : ParsedUrl),
      parsers.url (Text.trim databaseUrl) = some url →
      (Text.stripPrefix url.path "/").getD url.path = value → value ≠ "" →
      databaseNameFromUrl parsers databaseUrl = .ok name → percentDecodeUtf8 value = some name := by
  refine ⟨fun text => percentDecodeUtf8_eq_some_iff, ?_,
    percentDecodeUtf8_encodeUrlComponent value, ?_⟩
  · rw [Option.isSome_iff_exists]
    simp only [percentDecodeUtf8_eq_some_iff, exists_and_left]
  · rintro parsers databaseUrl name url hurl rfl hpath hname
    exact percentDecodeUtf8_of_databaseName hurl hpath hname

/-- `postgres://host/portal%20test`. -/
def Percent.sampleUrl : ParsedUrl where
  scheme := "postgres"
  username := ""
  password := none
  hostStr := some "host"
  path := "/portal%20test"
  query := none
  fragment := none
  queryPairs := []

/-- The database whose name is written with a blank. -/
theorem percent_decoding_database : percentDecodeUtf8 "portal%20test" = some "portal test" :=
  (percent_decoding_grammar "portal%20test").2.2.2 ⟨fun _ => some sampleUrl, fun _ => none⟩
    "postgres://host/portal%20test" "portal test" sampleUrl rfl (by decide +kernel)
    (by decide +kernel) (by decide +kernel)

end DevPortal
