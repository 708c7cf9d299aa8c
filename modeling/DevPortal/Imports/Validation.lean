import DevPortal.Machinery.Text

/-!
# Imports/Validation — the checks a request passes before it reaches the database

Each check adds at most one violation, under the field it looks at; `validate` concatenates them in
the order of the source.  Lengths are counted in bytes here and in characters by `varchar(n)`.
-/

namespace DevPortal

/-- `FieldViolation`. -/
structure FieldViolation where
  field : String
  message : String
  deriving DecidableEq, Repr

namespace Validation

/-- One violation, if the check fails. -/
def violation (failed : Bool) (field message : String) : List FieldViolation :=
  if failed then [⟨field, message⟩] else []

@[simp] theorem violation_eq_nil {failed : Bool} {field message : String} :
    violation failed field message = [] ↔ failed = false := by
  cases failed <;> simp [violation]

/-- `required`. -/
def required (field value : String) : List FieldViolation :=
  violation (Text.isBlank value) field "is required"

/-- `max_len`, in bytes. -/
def maxLen (field value : String) (max : Nat) : List FieldViolation :=
  violation (max < value.utf8ByteSize) field "is too long"

/-- `max_optional_len`. -/
def maxOptionalLen (field : String) (value : Option String) (max : Nat) : List FieldViolation :=
  match value with
  | some value => maxLen field value max
  | none => []

/-- `positive`. -/
def positive (field : String) (value : Int) : List FieldViolation :=
  violation (value ≤ 0) field "must be positive"

/-- `one_of`. -/
def oneOf (field value : String) (allowed : List String) : List FieldViolation :=
  violation (value ∉ allowed) field "is not supported"

/-- `optional_url`. -/
def optionalUrl (field : String) (value : Option String) : List FieldViolation :=
  match value with
  | some value =>
    violation (!(Text.startsWith value "http://" || Text.startsWith value "https://")) field
      "must be a valid URL"
  | none => []

/-- `api_error_message` of a validation error. -/
def errorMessage (errors : List FieldViolation) : String :=
  ", ".intercalate (errors.map fun e => e.field ++ " " ++ e.message)

/-- `validate_request`, under the message of its error. -/
def validateRequest {ρ : Type} (validate : ρ → List FieldViolation) (request : ρ) :
    Except String ρ :=
  let errors := validate request
  if errors.isEmpty then .ok request else .error (errorMessage errors)

/-! ## Violations are texts a database can hold -/

/-- Every violation can be stored. -/
def CleanAll (errors : List FieldViolation) : Prop :=
  ∀ e ∈ errors, Text.clean e.field ∧ Text.clean e.message

@[simp] theorem cleanAll_append {a b : List FieldViolation} :
    CleanAll (a ++ b) ↔ CleanAll a ∧ CleanAll b := List.forall_mem_append

@[simp] theorem cleanAll_violation {failed : Bool} {field message : String}
    (hf : Text.clean field) (hm : Text.clean message) :
    CleanAll (violation failed field message) := by
  intro e he
  unfold violation at he
  split at he
  · obtain rfl := List.mem_singleton.mp he
    exact ⟨hf, hm⟩
  · cases he

theorem cleanAll_required {field value : String} (hf : Text.clean field) :
    CleanAll (required field value) := cleanAll_violation hf (by decide)

theorem cleanAll_maxLen {field value : String} {max : Nat} (hf : Text.clean field) :
    CleanAll (maxLen field value max) := cleanAll_violation hf (by decide)

theorem cleanAll_maxOptionalLen {field : String} {value : Option String} {max : Nat}
    (hf : Text.clean field) : CleanAll (maxOptionalLen field value max) := by
  cases value with
  | none => exact fun _ he => (List.not_mem_nil he).elim
  | some value => exact cleanAll_maxLen hf

theorem cleanAll_positive {field : String} {value : Int} (hf : Text.clean field) :
    CleanAll (positive field value) := cleanAll_violation hf (by decide)

theorem cleanAll_oneOf {field value : String} {allowed : List String} (hf : Text.clean field) :
    CleanAll (oneOf field value allowed) := cleanAll_violation hf (by decide)

theorem cleanAll_optionalUrl {field : String} {value : Option String} (hf : Text.clean field) :
    CleanAll (optionalUrl field value) := by
  cases value with
  | none => exact fun _ he => (List.not_mem_nil he).elim
  | some value => exact cleanAll_violation hf (by decide)

theorem clean_errorMessage {errors : List FieldViolation} (h : CleanAll errors) :
    Text.clean (errorMessage errors) := by
  refine Text.clean_intercalate (by decide) fun s hs => ?_
  obtain ⟨e, he, rfl⟩ := List.mem_map.mp hs
  obtain ⟨hf, hm⟩ := h e he
  simp only [Text.clean_append, hf, hm]
  decide

end Validation

end DevPortal
