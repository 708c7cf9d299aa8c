import DevPortal.Machinery.SearchParams
import DevPortal.Imports.Validation
import Mathlib.Algebra.Ring.Int.Defs

/-!
# Access/Requests — the queries of the work page and of the inbox

    form ▸ `MyWorkCardQuery`, `InboxQuery` ▸ `validate` ▸ page and page size ▸ offset

A page and a page size that were accepted are small enough for the offset to be an `i64`
(`pageOffset_bounds`).
-/

namespace DevPortal

open SearchParams Validation

/-! ## Forms -/

/-- `i64` of a form field; a text that is none is no value. -/
def formI64 (value : Option String) : Option Int :=
  (value.bind Text.parseInt).filter fun n => -2 ^ 63 ≤ n ∧ n < 2 ^ 63

/-- `MyWorkCardQuery`. -/
structure MyWorkCardQuery where
  status : Option String
  due : Option String
  project : Option String
  workItemType : Option String
  source : Option String
  sort : Option String
  page : Option Int
  pageSize : Option Int
  deriving DecidableEq, Repr

/-- The form of `MyWorkCardQuery`. -/
def MyWorkCardQuery.fromForm (fields : Params) : MyWorkCardQuery where
  status := get fields "status"
  due := get fields "due"
  project := get fields "project"
  workItemType := get fields "work_item_type"
  source := get fields "source"
  sort := get fields "sort"
  page := formI64 (get fields "page")
  pageSize := formI64 (get fields "page_size")

/-- `InboxQuery` of the server. -/
structure InboxQuery where
  state : Option String
  search : Option String
  source : Option String
  severity : Option String
  page : Option Int
  pageSize : Option Int
  deriving DecidableEq, Repr

/-- The form of `InboxQuery`. -/
def InboxQuery.fromForm (fields : Params) : InboxQuery where
  state := get fields "state"
  search := get fields "search"
  source := get fields "source"
  severity := get fields "severity"
  page := formI64 (get fields "page")
  pageSize := formI64 (get fields "page_size")

/-! ## Validation -/

/-- `validate_optional_choice`. -/
def validateOptionalChoice (field : String) (value : Option String) (allowed : List String) :
    List FieldViolation :=
  violation (value.any fun v => Text.trim v ∉ allowed) field
    ("must be one of " ++ ", ".intercalate allowed)

/-- The statuses a query may ask for. -/
def myWorkStatuses : List String := ["todo", "in_progress", "blocked", "done"]

/-- The check that a field is not blank when it is there. -/
def notBlank (field : String) (value : Option String) : List FieldViolation :=
  violation (value.any Text.isBlank) field "must not be empty when provided"

/-- `MyWorkCardQuery::validate`. -/
def MyWorkCardQuery.validate (q : MyWorkCardQuery) : List FieldViolation :=
  validateOptionalChoice "status" q.status myWorkStatuses
    ++ validateOptionalChoice "due" q.due ["overdue", "today", "next_7_days", "none"]
    ++ validateOptionalChoice "sort" q.sort ["attention", "due_asc", "source_updated_desc"]
    ++ maxOptionalLen "project" q.project 128
    ++ maxOptionalLen "work_item_type" q.workItemType 128
    ++ maxOptionalLen "source" q.source 64
    ++ notBlank "project" q.project
    ++ notBlank "work_item_type" q.workItemType
    ++ notBlank "source" q.source
    ++ violation (q.page.any fun page => !(1 ≤ page ∧ page ≤ 1000000)) "page"
      "must be from 1 to 1000000"
    ++ violation (q.pageSize.any fun size => !(1 ≤ size ∧ size ≤ 100)) "page_size"
      "must be from 1 to 100"

/-- One of the choices of `InboxQuery::validate`, which does not trim. -/
def inboxChoice (field : String) (value : Option String) (choices : List String) :
    List FieldViolation :=
  violation (value.any fun v => v ∉ choices) field ("must be one of " ++ ", ".intercalate choices)

/-- `InboxQuery::validate`. -/
def InboxQuery.validate (q : InboxQuery) : List FieldViolation :=
  inboxChoice "state" q.state ["unread", "read", "snoozed", "dismissed", "all", "archived"]
    ++ inboxChoice "severity" q.severity ["info", "warning", "critical"]
    ++ maxOptionalLen "search" q.search 200
    ++ maxOptionalLen "source" q.source 64
    ++ violation (q.page.any fun page => !(1 ≤ page ∧ page ≤ 1000000)) "page"
      "must be from 1 to 1000000"
    ++ violation (q.pageSize.any fun size => !(1 ≤ size ∧ size ≤ 100)) "page_size"
      "must be from 1 to 100"

/-! ## Offsets -/

/-- `(page - 1) * page_size`. -/
def pageOffset (page pageSize : Int) : Int := (page - 1) * pageSize

/-- The page of `get_my_work_cards`. -/
def MyWorkCardQuery.number (q : MyWorkCardQuery) : Int := q.page.getD 1

/-- The page size of `get_my_work_cards`. -/
def MyWorkCardQuery.size (q : MyWorkCardQuery) : Int := q.pageSize.getD 25

/-- The page of `get_inbox`. -/
def InboxQuery.number (q : InboxQuery) : Int := q.page.getD 1

/-- The page size of `get_inbox`. -/
def InboxQuery.size (q : InboxQuery) : Int := q.pageSize.getD 25

/-- A page and a page size in range. -/
def PageAccepted (number size : Int) : Prop := 1 ≤ number ∧ number ≤ 1000000 ∧ 1 ≤ size ∧ size ≤ 100

theorem pageOffset_bounds {number size : Int} (h : PageAccepted number size) :
    0 ≤ pageOffset number size ∧ pageOffset number size < 2 ^ 63 := by
  obtain ⟨hnumber, hnumber', hsize, hsize'⟩ := h
  have hle : (number - 1) * size ≤ (1000000 - 1) * 100 :=
    Int.mul_le_mul (by omega) hsize' (by omega) (by omega)
  have hnonneg : 0 ≤ (number - 1) * size := Int.mul_nonneg (by omega) (by omega)
  exact ⟨hnonneg, Int.lt_of_le_of_lt hle (by decide)⟩

theorem pageOffset_natCast {number size : Nat} (h : 1 ≤ number) :
    pageOffset number size = (((number - 1) * size : Nat) : Int) := by
  rw [pageOffset, Int.natCast_mul, Int.natCast_sub h]
  rfl

/-- A bound of a number that may be missing. -/
theorem getD_of_violation {value : Option Int} {lo hi d : Int} {field message : String}
    (h : violation (value.any fun n => !(lo ≤ n ∧ n ≤ hi)) field message = [])
    (hd : lo ≤ d ∧ d ≤ hi) : lo ≤ value.getD d ∧ value.getD d ≤ hi := by
  cases value with
  | none => exact hd
  | some n => simpa [violation] using h

theorem MyWorkCardQuery.accepted {q : MyWorkCardQuery} (h : q.validate = []) :
    PageAccepted q.number q.size := by
  simp only [validate, List.append_eq_nil_iff] at h
  obtain ⟨⟨-, hpage⟩, hsize⟩ := h
  have hnumber := getD_of_violation (d := 1) hpage (by decide)
  have hsize := getD_of_violation (d := 25) hsize (by decide)
  exact ⟨hnumber.1, hnumber.2, hsize.1, hsize.2⟩

theorem InboxQuery.accepted {q : InboxQuery} (h : q.validate = []) :
    PageAccepted q.number q.size := by
  simp only [validate, List.append_eq_nil_iff] at h
  obtain ⟨⟨-, hpage⟩, hsize⟩ := h
  have hnumber := getD_of_violation (d := 1) hpage (by decide)
  have hsize := getD_of_violation (d := 25) hsize (by decide)
  exact ⟨hnumber.1, hnumber.2, hsize.1, hsize.2⟩

end DevPortal
