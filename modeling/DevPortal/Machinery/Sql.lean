import Mathlib.Data.List.Basic
import Mathlib.Tactic.Common

/-!
# Machinery/Sql — conditions over nullable columns, and the rows of a query

    WHERE c₁ AND c₂ …   ▸ `Where`, row by row; a row for which a condition is unknown is dropped
    LEFT JOIN … ON c    ▸ `leftJoin`          INNER JOIN … ON c ▸ `innerJoin`
    ORDER BY a, b DESC  ▸ `Order`             LIMIT n OFFSET m  ▸ `page`

A column that may be `NULL` is an `Option`, and a comparison with `NULL` is unknown.  A caller reads
a condition through what makes it hold (`and_holds`, `or_holds`, …), where the third truth value is
gone.
-/

namespace Sql

/-! ## Conditions -/

/-- The value of a condition. -/
inductive Cond
  | holds
  | fails
  | unknown
  deriving DecidableEq, Repr

namespace Cond

def ofBool (b : Bool) : Cond := if b then holds else fails

/-- `AND`: a condition that fails wins. -/
def and : Cond → Cond → Cond
  | holds, c => c
  | fails, _ => fails
  | unknown, fails => fails
  | unknown, _ => unknown

/-- `OR`: a condition that holds wins. -/
def or : Cond → Cond → Cond
  | holds, _ => holds
  | fails, c => c
  | unknown, holds => holds
  | unknown, _ => unknown

@[simp] theorem ofBool_holds {b : Bool} : ofBool b = holds ↔ b = true := by
  cases b <;> simp [ofBool]

@[simp] theorem and_holds {a b : Cond} : a.and b = holds ↔ a = holds ∧ b = holds := by
  cases a <;> cases b <;> simp [and]

@[simp] theorem or_holds {a b : Cond} : a.or b = holds ↔ a = holds ∨ b = holds := by
  cases a <;> cases b <;> simp [or]

end Cond

section Operators

variable {α β : Type}

/-- A comparison of two columns. -/
def compareWith (f : α → β → Bool) : Option α → Option β → Cond
  | some a, some b => .ofBool (f a b)
  | _, _ => .unknown

@[simp] theorem compareWith_holds {f : α → β → Bool} {a : Option α} {b : Option β} :
    compareWith f a b = .holds ↔ ∃ x ∈ a, ∃ y ∈ b, f x y = true := by
  cases a <;> cases b <;> simp [compareWith]

variable [DecidableEq α]

/-- `a = b`. -/
def eq (a b : Option α) : Cond := compareWith (fun x y => x = y) a b

@[simp] theorem eq_some_holds {a : Option α} {b : α} : eq a (some b) = .holds ↔ a = some b := by
  simp [eq]

/-- `a = ANY (…)`: with nothing to compare with it fails, even for `NULL`. -/
def eqAny (a : Option α) (values : List α) : Cond :=
  if values.isEmpty then .fails else compareWith (fun x _ => x ∈ values) a (some ())

@[simp] theorem eqAny_holds {a : Option α} {values : List α} :
    eqAny a values = .holds ↔ ∃ x ∈ a, x ∈ values := by
  unfold eqAny
  split
  · next hempty => simp [List.isEmpty_iff.mp hempty]
  · simp

omit [DecidableEq α] in
/-- `a IS NULL`. -/
def isNull (a : Option α) : Cond := .ofBool a.isNone

omit [DecidableEq α] in
/-- `a IS NOT NULL`. -/
def isNotNull (a : Option α) : Cond := .ofBool a.isSome

omit [DecidableEq α] in
@[simp] theorem isNull_holds {a : Option α} : isNull a = .holds ↔ a = none := by simp [isNull]

omit [DecidableEq α] in
@[simp] theorem isNotNull_holds {a : Option α} : isNotNull a = .holds ↔ a.isSome := by
  simp [isNotNull]

end Operators

/-! ## The rows of a query -/

/-- The conditions of a query on a row. -/
abbrev Where (R : Type) := List (R → Cond)

namespace Where

variable {R : Type}

/-- The row is selected: no condition fails, and none is unknown. -/
def selects (w : Where R) (r : R) : Bool := w.all fun c => c r = .holds

/-- A condition that is there if a value is given. -/
def optional {α : Type} (value : Option α) (c : α → R → Cond) : Where R := (value.map c).toList

/-- Conditions on the left row of a join. -/
def left {S : Type} (w : Where R) : Where (R × S) := w.map fun c p => c p.1

/-- The rows of a table that are selected. -/
def rows (w : Where R) (t : List R) : List R := t.filter w.selects

@[simp] theorem selects_nil (r : R) : selects [] r = true := rfl

@[simp] theorem selects_cons (c : R → Cond) (w : Where R) (r : R) :
    selects (c :: w) r = true ↔ c r = .holds ∧ selects w r = true := by
  simp [selects]

@[simp] theorem selects_append (w w' : Where R) (r : R) :
    selects (w ++ w') r = (selects w r && selects w' r) := List.all_append

@[simp] theorem selects_optional {α : Type} {value : Option α} {c : α → R → Cond} {r : R} :
    selects (optional value c) r = true ↔ ∀ a ∈ value, c a r = .holds := by
  cases value <;> simp [optional]

@[simp] theorem selects_left {S : Type} (w : Where R) (p : R × S) :
    w.left.selects p = w.selects p.1 := by
  simp only [selects, left, List.all_map]
  rfl

@[simp] theorem mem_rows {w : Where R} {t : List R} {r : R} :
    r ∈ w.rows t ↔ r ∈ t ∧ w.selects r = true := List.mem_filter

/-- More conditions select among the rows of the others. -/
theorem rows_append (w w' : Where R) (t : List R) : (w ++ w').rows t = (w.rows t).filter w'.selects := by
  simp only [rows, List.filter_filter]
  refine List.filter_congr fun r _ => ?_
  rw [selects_append, Bool.and_comm]

end Where

/-! ## Joins -/

section Joins

variable {A B : Type} {on : A → B → Cond}

/-- `LEFT JOIN`: a row without a partner comes with `NULL`s. -/
def leftJoin (on : A → B → Cond) (as : List A) (bs : List B) : List (A × Option B) :=
  as.flatMap fun a =>
    match bs.filter fun b => on a b = .holds with
    | [] => [(a, none)]
    | partners => partners.map fun b => (a, some b)

/-- `INNER JOIN`. -/
def innerJoin (on : A → B → Cond) (as : List A) (bs : List B) : List (A × B) :=
  as.flatMap fun a => (bs.filter fun b => on a b = .holds).map fun b => (a, b)

/-- **With at most one partner for each row**, a left join looks the partner up. -/
theorem leftJoin_eq_map {as : List A} {bs : List B}
    (h : ∀ a ∈ as, (bs.filter fun b => on a b = .holds).length ≤ 1) :
    leftJoin on as bs = as.map fun a => (a, bs.find? fun b => on a b = .holds) := by
  unfold leftJoin
  rw [List.map_eq_flatMap]
  refine List.flatMap_congr fun a ha => ?_
  have hone := h a ha
  rw [← List.head?_filter]
  generalize bs.filter (fun b => on a b = .holds) = partners at hone
  cases partners with
  | nil => rfl
  | cons b partners =>
    obtain rfl : partners = [] := by simpa using hone
    rfl

/-- The rows of an inner join. -/
@[simp] theorem mem_innerJoin {as : List A} {bs : List B} {p : A × B} :
    p ∈ innerJoin on as bs ↔ p.1 ∈ as ∧ p.2 ∈ bs ∧ on p.1 p.2 = .holds := by
  constructor
  · intro h
    obtain ⟨a, ha, h⟩ := List.mem_flatMap.mp h
    obtain ⟨b, hb, rfl⟩ := List.mem_map.mp h
    exact ⟨ha, List.mem_of_mem_filter hb, by simpa using List.of_mem_filter hb⟩
  · rintro ⟨ha, hb, hon⟩
    exact List.mem_flatMap.mpr ⟨p.1, ha, List.mem_map.mpr
      ⟨p.2, List.mem_filter.mpr ⟨hb, by simpa using hon⟩, rfl⟩⟩

/-- The left rows of a left join are the rows of its table. -/
theorem fst_mem_of_mem_leftJoin {as : List A} {bs : List B} {p : A × Option B}
    (h : p ∈ leftJoin on as bs) : p.1 ∈ as := by
  obtain ⟨a, ha, h⟩ := List.mem_flatMap.mp h
  split at h
  · obtain rfl := List.mem_singleton.mp h
    exact ha
  · obtain ⟨b, -, rfl⟩ := List.mem_map.mp h
    exact ha

end Joins

/-! ## Orders and pages -/

/-- An `ORDER BY` clause. -/
abbrev Order (R : Type) := R → R → Ordering

namespace Order

variable {R : Type}

/-- A column in ascending order, `NULL` last. -/
def asc {α : Type} [Ord α] (column : R → Option α) : Order R := fun r s =>
  match column r, column s with
  | some a, some b => compare a b
  | some _, none => .lt
  | none, some _ => .gt
  | none, none => .eq

/-- A column in descending order, `NULL` first. -/
def desc {α : Type} [Ord α] (column : R → Option α) : Order R := fun r s => asc column s r

/-- One column, and then the others. -/
def andThen (o o' : Order R) : Order R := fun r s => (o r s).then (o' r s)

/-- The rows in order; those the clause does not tell apart stay as they came. -/
def sort (o : Order R) (rows : List R) : List R := rows.mergeSort fun r s => o r s != .gt

@[simp] theorem mem_sort {o : Order R} {rows : List R} {r : R} : r ∈ o.sort rows ↔ r ∈ rows :=
  List.mem_mergeSort

@[simp] theorem length_sort (o : Order R) (rows : List R) : (o.sort rows).length = rows.length :=
  List.length_mergeSort rows

end Order

/-- `LIMIT … OFFSET …`. -/
def page {R : Type} (offset limit : Nat) (rows : List R) : List R := (rows.drop offset).take limit

/-- **The pages of a list are the list**: each row is on one of them. -/
theorem exists_mem_page_iff {R : Type} {n : Nat} (hn : 0 < n) {rows : List R} {r : R} :
    (∃ k, r ∈ page (k * n) n rows) ↔ r ∈ rows := by
  constructor
  · rintro ⟨k, hk⟩
    exact List.mem_of_mem_drop (List.mem_of_mem_take hk)
  · intro hr
    obtain ⟨i, hi, rfl⟩ := List.getElem_of_mem hr
    refine ⟨i / n, List.mem_of_getElem? (i := i % n) ?_⟩
    have hsplit : i / n * n + i % n = i := by
      rw [Nat.mul_comm]
      exact Nat.div_add_mod i n
    rw [page, List.getElem?_take_of_lt (Nat.mod_lt i hn), List.getElem?_drop, hsplit,
      List.getElem?_eq_getElem hi]

end Sql
