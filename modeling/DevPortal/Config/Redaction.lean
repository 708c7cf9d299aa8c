import DevPortal.Config.AtRest
import DevPortal.Config.Repository

/-!
# Config/Redaction — what is shown of a secret

    { "adapter": "erp", "token": x }   ──▸  { "adapter": "erp", "token": "***redacted***" }
    { "adapter": "erp", "token": y }   ──▸  the same

The redaction puts one text in the place of whatever stands at a secret key, so two values that
differ in their secrets only have one redaction (`redactJsonSecrets_congr`).  What is shown of a
config, and what is kept of a run item, are functions of the redaction: not even the length of a
secret goes into a preview that is cut.
-/

namespace DevPortal.Crypto

open Json

variable {ν κ : Type}

/-! ## Snapshots -/

/-- The text that stands for a snapshot cut to some characters. -/
def wrapPreview (ofNat : Nat → ν) (maxChars : Nat) (preview : String) : Json ν :=
  .object [("_max_chars", .number (ofNat maxChars)), ("_preview", .str preview),
    ("_truncated", .bool true)]

/-- The loop of `sanitized_json_snapshot`: a preview that is too long once wrapped is cut by as much
as it is too long, down to one character. -/
def previewLoop (codec : Codec ν) (ofNat : Nat → ν) (maxChars : Nat) (snapshot : String)
    (previewLen : Nat) (_hpos : 0 < previewLen) : Option String :=
  let preview := String.ofList (snapshot.toList.take previewLen)
  (codec.toString (wrapPreview ofNat maxChars preview)).toOption.bind fun wrapped =>
    let wrappedLen := wrapped.toList.length
    if hstop : wrappedLen ≤ maxChars ∨ previewLen = 1 then some wrapped
    else
      previewLoop codec ofNat maxChars snapshot (max (previewLen - (wrappedLen - maxChars)) 1)
        (by omega)
termination_by previewLen
decreasing_by omega

/-- `sanitized_json_snapshot`, of what `to_value` makes of the value. -/
def sanitizedJsonSnapshot (codec : Codec ν) (ofNat : Nat → ν) (value : Option (Json ν))
    (maxChars : Nat) : Option String := do
  let value := redactJsonSecrets (← value)
  let snapshot ← (codec.toString value).toOption
  if snapshot.toList.length ≤ maxChars then return snapshot
  else previewLoop codec ofNat maxChars snapshot (max (maxChars - 128) 1) (by omega)

/-- `raw_item_json`, the snapshot of a run item. -/
def rawItemJson (codec : Codec ν) (ofNat : Nat → ν) (item : Option (Json ν)) : Option String :=
  sanitizedJsonSnapshot codec ofNat item 8192

/-! ## Responses -/

/-- `ConnectorConfigResponse`. -/
structure ConnectorConfigResponse where
  id : Nat
  source : String
  target : String
  enabled : Bool
  scheduleCron : Option String
  config : String
  samplePayload : String
  createdAt : DateTime
  updatedAt : DateTime
  lastScheduledAt : Option DateTime
  nextRunAt : Option DateTime
  lastScheduledRunId : Option Nat

/-- `ConnectorConfigResponse::from`. -/
def ConnectorConfigResponse.from (codec : Codec ν) (config : ConnectorConfig) :
    ConnectorConfigResponse where
  id := config.id
  source := config.source
  target := config.target
  enabled := config.enabled
  scheduleCron := config.scheduleCron
  config := redactConnectorConfig codec config.config
  samplePayload := config.samplePayload
  createdAt := config.createdAt
  updatedAt := config.updatedAt
  lastScheduledAt := config.lastScheduledAt
  nextRunAt := config.nextRunAt
  lastScheduledRunId := config.lastScheduledRunId

/-! ## Noninterference -/

/-- **Values that differ in their secrets only have one redaction.** -/
theorem redactJsonSecrets_congr {v v' : Json ν} (hv : v.Wf) (h : SameOffSecrets v v') :
    redactJsonSecrets v = redactJsonSecrets v' := by
  have hrun : (redactWalk ν).run () v = (redactWalk ν).run () v' :=
    Walk.run_congr hv ⟨fun q hq => h q fun ⟨k, hk, hsecret⟩ => hq k hk hsecret,
      fun _ _ _ _ _ _ _ _ => rfl⟩
  rw [run_redactWalk, run_redactWalk] at hrun
  exact Except.ok.inj hrun

/-- The codec writes every value. -/
def Codec.Writes (codec : Codec ν) : Prop := ∀ v : Value ν, ∃ text, codec.toString v.1 = .ok text

/-- The redaction of a text is the text of the redaction. -/
theorem redactConnectorConfig_eq {codec : Codec ν} (hcodec : codec.Writes) {config : String}
    {v : Value ν} (hv : codec.fromStr config = .ok v) :
    codec.toString (redactJsonSecrets v.1) = .ok (redactConnectorConfig codec config) := by
  obtain ⟨text, htext⟩ := hcodec ⟨_, wf_redactJsonSecrets v.2⟩
  simp only [redactConnectorConfig, hv, htext]
  rfl

/-- **What is shown of a config and kept of a run item does not depend on a secret.** -/
theorem redaction_noninterference (codec : Codec ν) (hcodec : codec.Writes) (ofNat : Nat → ν)
    (v v' : Value ν) (hsame : SameOffSecrets v.1 v'.1) :
    (∀ config config', codec.fromStr config = .ok v → codec.fromStr config' = .ok v' →
      redactConnectorConfig codec config = redactConnectorConfig codec config'
      ∧ ∀ row : ConnectorConfig,
        ConnectorConfigResponse.from codec { row with config := config }
          = ConnectorConfigResponse.from codec { row with config := config' })
    ∧ (∀ maxChars, sanitizedJsonSnapshot codec ofNat (some v.1) maxChars
        = sanitizedJsonSnapshot codec ofNat (some v'.1) maxChars)
    ∧ rawItemJson codec ofNat (some v.1) = rawItemJson codec ofNat (some v'.1) := by
  have hredact := redactJsonSecrets_congr v.2 hsame
  have hsnapshot : ∀ maxChars, sanitizedJsonSnapshot codec ofNat (some v.1) maxChars
      = sanitizedJsonSnapshot codec ofNat (some v'.1) maxChars := by
    intro maxChars
    simp only [sanitizedJsonSnapshot, Option.bind_eq_bind, Option.bind_some, hredact]
  refine ⟨fun config config' hv hv' => ?_, hsnapshot, hsnapshot _⟩
  have hshown : redactConnectorConfig codec config = redactConnectorConfig codec config' := by
    have htext := redactConnectorConfig_eq hcodec hv
    rw [hredact, redactConnectorConfig_eq hcodec hv'] at htext
    exact (Except.ok.inj htext).symm
  refine ⟨hshown, fun row => ?_⟩
  simp only [ConnectorConfigResponse.from, hshown]

/-- A config with a secret that is a text, a number or anything else. -/
def withToken (token : Json Nat) (h : token.Wf) : Value Nat :=
  ⟨.object [("adapter", .str "erp"), ("token", token)],
    .object (by simp) (List.forall_mem_cons.mpr ⟨.str _, List.forall_mem_singleton.mpr h⟩)⟩

theorem sameOffSecrets_withToken {x y : Json Nat} (hx : x.Wf) (hy : y.Wf) :
    SameOffSecrets (withToken x hx).1 (withToken y hy).1 := by
  intro p hp
  cases p with
  | nil => rfl
  | cons s p =>
    have hs : s ≠ .key "token" := by
      rintro rfl
      exact hp ⟨"token", List.mem_cons_self .., by decide +kernel⟩
    have hchild : (withToken y hy).1.child s = (withToken x hx).1.child s := by
      cases s with
      | index i => rfl
      | key k =>
        have hk : k ≠ "token" := fun h => hs (h ▸ rfl)
        simp [withToken, child, List.lookup_cons, beq_false_of_ne hk]
    rw [at?_cons, at?_cons, hchild]

theorem redaction_noninterference_withToken :
    SameOffSecrets (withToken (.str "hunter2") (.str _)).1 (withToken (.number 7) (.number _)).1
    ∧ redactConnectorConfig compact
        (String.ofList (Compact.print (withToken (.str "hunter2") (.str _)).1))
      = redactConnectorConfig compact
        (String.ofList (Compact.print (withToken (.number 7) (.number _)).1)) :=
  ⟨sameOffSecrets_withToken _ _, ((redaction_noninterference compact (fun _ => ⟨_, rfl⟩) id _ _
    (sameOffSecrets_withToken (.str "hunter2") (.number 7))).1 _ _ (compact_fromStr _)
    (compact_fromStr _)).1⟩

end DevPortal.Crypto
