import DevPortal.Adapters.Shared
import DevPortal.Runs.Row

/-!
# Adapters/Fields — what is read off an item of a source

    field ▸ scalar ▸ trimmed text ▸ severity, URL, slug, instant

Every reader is total: of a value of the wrong type it reads nothing.  Instants are `chrono`'s, a
parameter; a text it cannot read is either dropped (`normalizeNaiveDatetime`) or handed on as it is
(`normalizedTimeField`).
-/

namespace DevPortal

variable {ν : Type}

/-! ## Instants -/

/-- What is used of `chrono`: the readings of a text as RFC 3339 and in a format without an offset,
a number of minutes later, the two ways an instant is written (`SecondsFormat::AutoSi` and `Secs`),
and what `serde` reads as an instant.  What is written can be read. -/
structure Chrono where
  Instant : Type
  parseFromRfc3339 : String → Option Instant
  parseFromStr : (value format : String) → Option Instant
  addMinutes : Instant → Int → Instant
  toRfc3339 : Instant → String
  toRfc3339Secs : Instant → String
  deserialize : String → Option DateTime
  deserialize_toRfc3339 : ∀ t, (deserialize (toRfc3339 t)).isSome
  deserialize_toRfc3339Secs : ∀ t, (deserialize (toRfc3339Secs t)).isSome

/-- The formats of an instant without an offset; it is taken as UTC. -/
def naiveFormats : List String :=
  ["%Y-%m-%dT%H:%M:%S%.f", "%Y-%m-%dT%H:%M:%S", "%Y-%m-%d %H:%M:%S%.f", "%Y-%m-%d %H:%M:%S"]

/-- The instant of a text, under any of the readings. -/
def Chrono.instant (chrono : Chrono) (value : String) : Option chrono.Instant :=
  (Text.trimmed? value).bind fun value =>
    match chrono.parseFromRfc3339 value with
    | some datetime => some datetime
    | none => naiveFormats.findSome? (chrono.parseFromStr value)

/-- `normalize_naive_datetime`. -/
def normalizeNaiveDatetime (chrono : Chrono) (value : String) : Option String :=
  (chrono.instant value).map chrono.toRfc3339

/-- What was normalized can be read. -/
theorem deserialize_of_normalize {chrono : Chrono} {value text : String}
    (h : normalizeNaiveDatetime chrono value = some text) :
    (chrono.deserialize text).isSome := by
  obtain ⟨datetime, -, rfl⟩ := Option.map_eq_some_iff.mp h
  exact chrono.deserialize_toRfc3339 datetime

/-! ## Numbers -/

/-- The `i32`s. -/
def isI32 (n : Int) : Bool := -2147483648 ≤ n && n ≤ 2147483647

/-- Numbers an item is written with. -/
structure ItemNumbers (ν : Type) extends Numbers ν where
  ofI32 : Int → ν
  asI64_ofI32 : ∀ n, isI32 n → asI64 (ofI32 n) = some n

/-- `as_i64`, of a value. -/
def asI64 (numbers : Numbers ν) : Json ν → Option Int
  | .number n => numbers.asI64 n
  | _ => none

/-- `field_i32`. -/
def fieldI32 (numbers : Numbers ν) (item : Json ν) (names : List String) : Option Int :=
  ((field item names).bind (asI64 numbers)).filter isI32

theorem isI32_of_fieldI32 {numbers : Numbers ν} {item : Json ν} {names : List String} {n : Int}
    (h : fieldI32 numbers item names = some n) : isI32 n :=
  (Option.filter_eq_some_iff.mp h).2

/-! ## Texts -/

/-- `normalized_time_field`: a text that is no instant is handed on. -/
def normalizedTimeField (numbers : Numbers ν) (chrono : Chrono) (item : Json ν)
    (names : List String) : Option String :=
  (fieldString numbers item names).map fun value =>
    (normalizeNaiveDatetime chrono value).getD value

/-- `field_url`. -/
def fieldUrl (numbers : Numbers ν) (item : Json ν) (names : List String) : Option String :=
  (fieldString numbers item names).filter fun value =>
    Text.startsWith value "http://" || Text.startsWith value "https://"

/-- `person_display`. -/
def personDisplay (numbers : Numbers ν) (item : Json ν) (names : List String) : Option String :=
  (field item names).bind fun value =>
    scalarToString numbers value <|>
      fieldString numbers value ["display_name", "displayName", "name", "email", "address"] <|>
        (value.get "emailAddress").bind fun email => fieldString numbers email ["name", "address"]

/-- The text at a path of keys. -/
def textAt (item : Json ν) (keys : List String) : Option String :=
  (item.at? (keys.map .key)).bind Json.asStr

/-- `normalize_notification_severity`. -/
def normalizeNotificationSeverity (value default : String) : String :=
  let value := (Text.trim value).toLower
  if value ∈ ["critical", "urgent", "blocker", "error", "failed", "failure"] then "critical"
  else if value ∈ ["warning", "warn", "high", "medium", "normal"] then "warning"
  else if value ∈ ["info", "low", "ok", "success", "none"] then "info"
  else default

/-- `normalize_lifecycle`. -/
def normalizeLifecycle (status : String) : String :=
  let status := status.toLower
  if status = "deprecated" then "deprecated"
  else if status ∈ ["archived", "inactive", "retired", "decommissioned"] then "archived"
  else "active"

/-! ## Slugs -/

/-- `char::to_lowercase`, as far as it gives ASCII: of the other characters two do. -/
def toLowercase (c : Char) : List Char :=
  if c = '\u212a' then ['k'] else if c = '\u0130' then ['i', '\u0307'] else [c.toLower]

/-- The loop of `slugify`, with the characters so far in reverse. -/
def slugifyLoop : (slug : List Char) → List Char → List Char
  | slug, [] => slug
  | slug, c :: cs =>
    if c.toNat < 128 && c.isAlphanum then slugifyLoop (c :: slug) cs
    else if slug.head? = some '-' || slug.isEmpty then slugifyLoop slug cs
    else slugifyLoop ('-' :: slug) cs

/-- `slugify`. -/
def slugify (value : String) : String :=
  let slug := slugifyLoop [] (value.toList.flatMap toLowercase)
  String.ofList ((slug.dropWhile (· == '-')).reverse.dropWhile (· == '-'))

/-- A byte in two hexadecimal digits. -/
def hexByte (byte : UInt8) : String :=
  let digits := Nat.toDigits 16 byte.toNat
  String.ofList (List.replicate (2 - digits.length) '0' ++ digits)

/-- `stable_slug`. -/
def stableSlug (preferred : Option String) (fallbacks : List String) : String :=
  match ((preferred.toList ++ fallbacks).map slugify).find? (!·.isEmpty) with
  | some slug => slug
  | none =>
    let bytes := (fallbacks.head?.getD "service").toUTF8.toList.take 12
    s!"service-{String.join (bytes.map hexByte)}"

/-- `notification_external_id`. -/
def notificationExternalId (numbers : Numbers ν) (start : String) (item : Json ν)
    (idFields : List String) (title : String) : String :=
  (fieldString numbers item idFields).getD
    (let slug := stableSlug none [title]
    s!"{start}-{slug}")

/-! ## Values of an item -/

/-- A text, or `null`. -/
def optionalText : Option String → Json ν
  | some text => .str text
  | none => .null

/-- The details that are there, in one line. -/
def joinDetails (details : List (Option String)) : Option String :=
  let details := details.filterMap id
  if details.isEmpty then none else some (" | ".intercalate details)

end DevPortal
