import DevPortal.Machinery.Sql
import Mathlib.Data.List.Pairwise

/-!
# Machinery/Paging — a listing, cut into pages by separate queries

    query 1 ▸ ORDER BY o ▸ l₁ = a b│c d│e      page 1
    query 2 ▸ ORDER BY o ▸ l₂ = a b│c d│e      page 2

An `ORDER BY` leaves open how rows come that it does not tell apart, and each query decides anew
(`Sorts`).  If it tells all rows apart, there is one answer only (`Sorts.eq_sort`), and the pages are
the listing cut in pieces (`flatMap_page`).
-/

namespace Sql

namespace Order

variable {R α : Type} [Ord α]

/-! ## Laws of the clauses -/

instance [Std.OrientedOrd α] (column : R → Option α) : Std.OrientedCmp (asc column) where
  eq_swap {r s} := by
    unfold asc
    cases column r with
    | none => cases column s <;> rfl
    | some a =>
      cases column s with
      | none => rfl
      | some b => exact Std.OrientedOrd.eq_swap

instance [Std.TransOrd α] (column : R → Option α) : Std.TransCmp (asc column) where
  isLE_trans {r s t} := by
    unfold asc
    cases column r with
    | none => cases column s <;> cases column t <;> simp
    | some a =>
      cases column s with
      | none => cases column t <;> simp
      | some b =>
        cases column t with
        | none => simp
        | some c => exact Std.TransOrd.isLE_trans

instance [Std.TransOrd α] (column : R → Option α) : Std.TransCmp (desc column) :=
  inferInstanceAs (Std.TransCmp fun r s => asc column s r)

instance (o o' : Order R) [Std.TransCmp o] [Std.TransCmp o'] : Std.TransCmp (o.andThen o') :=
  inferInstanceAs (Std.TransCmp (compareLex o o'))

/-- Rows with one value of an ascending column. -/
theorem asc_some_eq [Std.LawfulEqOrd α] {column : R → α} {r s : R} :
    asc (fun r => some (column r)) r s = .eq ↔ column r = column s :=
  Std.LawfulEqOrd.compare_eq_iff_eq

theorem desc_some_eq [Std.LawfulEqOrd α] {column : R → α} {r s : R} :
    desc (fun r => some (column r)) r s = .eq ↔ column r = column s :=
  asc_some_eq.trans eq_comm

theorem andThen_eq {o o' : Order R} {r s : R} :
    o.andThen o' r s = .eq ↔ o r s = .eq ∧ o' r s = .eq := Ordering.then_eq_eq

/-! ## What a query may answer -/

/-- The rows in an order that the clause allows. -/
structure Sorts (o : Order R) (rows answer : List R) : Prop where
  perm : answer.Perm rows
  sorted : answer.Pairwise fun r s => o r s ≠ .gt

variable {o : Order R} {rows answer : List R}

theorem sorts_sort [Std.TransCmp o] (rows : List R) : o.Sorts rows (o.sort rows) where
  perm := List.mergeSort_perm rows _
  sorted := by
    have hle : ∀ r s, (o r s != .gt) = (o r s).isLE := fun r s => by cases o r s <;> rfl
    have hsorted : (o.sort rows).Pairwise fun r s => (o r s != .gt) = true := by
      refine List.pairwise_mergeSort (fun r s t hrs hst => ?_) (fun r s => ?_) rows
      · rw [hle] at *
        exact Std.TransCmp.isLE_trans hrs hst
      · have hswap : o s r = (o r s).swap := Std.OrientedCmp.eq_swap
        rw [hswap]
        cases o r s <;> rfl
    exact hsorted.imp fun h => by simpa using h

/-- **Where the clause tells all rows apart, there is one answer.** -/
theorem Sorts.eq_sort [Std.TransCmp o] (h : o.Sorts rows answer)
    (htotal : ∀ r ∈ rows, ∀ s ∈ rows, o r s = .eq → r = s) : answer = o.sort rows := by
  have hsort : o.Sorts rows (o.sort rows) := sorts_sort rows
  refine List.Perm.eq_of_pairwise (fun r s hr hs hrs hsr => ?_) h.sorted hsort.sorted
    (h.perm.trans hsort.perm.symm)
  refine htotal r (h.perm.mem_iff.mp hr) s (hsort.perm.mem_iff.mp hs) ?_
  have hswap : o s r = (o r s).swap := Std.OrientedCmp.eq_swap
  rw [hswap] at hsr
  cases hcmp : o r s with
  | lt => simp [hcmp] at hsr
  | eq => rfl
  | gt => exact absurd hcmp hrs

end Order

/-- Two rows of a sorted list stand one way or the other. -/
theorem related_of_pairwise {R : Type} {rel : R → R → Prop} {l : List R} (h : l.Pairwise rel)
    {r s : R} (hr : r ∈ l) (hs : s ∈ l) (hne : r ≠ s) : rel r s ∨ rel s r := by
  have hsymm : Std.Symm fun r s => rel r s ∨ rel s r := ⟨fun _ _ h => h.symm⟩
  exact (h.imp fun h => Or.inl h : l.Pairwise fun r s => rel r s ∨ rel s r).forall hr hs hne

/-! ## Pages -/

variable {R : Type}

/-- How many pages hold `total` rows. -/
def pageCount (total size : Nat) : Nat := (total + size - 1) / size

theorem le_pageCount_mul {total size : Nat} (hsize : 0 < size) :
    total ≤ pageCount total size * size := by
  have hdiv := Nat.div_add_mod (total + size - 1) size
  have hmod := Nat.mod_lt (total + size - 1) hsize
  rw [Nat.mul_comm] at hdiv
  change _ ≤ (total + size - 1) / size * size
  omega

/-- A page up to the last starts before the end. -/
theorem mul_lt_of_lt_pageCount {total size k : Nat} (hk : k < pageCount total size) :
    k * size < total := by
  have hsize : 0 < size := by
    rcases Nat.eq_zero_or_pos size with rfl | hsize
    · simp [pageCount] at hk
    · exact hsize
  have hle : (k + 1) * size ≤ total + size - 1 := (Nat.le_div_iff_mul_le hsize).mp hk
  rw [Nat.succ_mul] at hle
  omega

theorem page_eq_nil {offset size : Nat} {rows : List R} (h : rows.length ≤ offset) :
    page offset size rows = [] := by
  rw [page, List.drop_eq_nil_of_le h, List.take_nil]

theorem flatMap_page_take (size k : Nat) (rows : List R) :
    (List.range k).flatMap (fun i => page (i * size) size rows) = rows.take (k * size) := by
  induction k with
  | zero => simp
  | succ k ih =>
    rw [List.range_succ, List.flatMap_append, ih, Nat.succ_mul, List.take_add]
    simp [page]

/-- **The pages of a listing, one after the other, are the listing.** -/
theorem flatMap_page {size : Nat} (hsize : 0 < size) (rows : List R) :
    (List.range (pageCount rows.length size)).flatMap (fun i => page (i * size) size rows) = rows := by
  rw [flatMap_page_take, List.take_of_length_le (le_pageCount_mul hsize)]

/-- **Exact pages**, from page 1 on: those that hold the rows are the rows in strict order, each once,
and those after them are empty. -/
structure ExactPages (o : Order R) (rows : List R) (size : Nat) (pages : Nat → List R) : Prop where
  listing : ∃ listing, listing.Perm rows ∧ listing.Pairwise (fun r s => o r s = .lt)
    ∧ (List.range (pageCount rows.length size)).flatMap (fun i => pages (i + 1)) = listing
  within : ∀ i < pageCount rows.length size, i * size < rows.length
  later : ∀ k, pageCount rows.length size < k → pages k = []

/-- The rows in strict order are what the pages hold. -/
theorem ExactPages.flatMap_eq {o : Order R} [Std.OrientedCmp o] {rows listing : List R} {size : Nat}
    {pages : Nat → List R} (h : ExactPages o rows size pages) (hperm : listing.Perm rows)
    (hsorted : listing.Pairwise fun r s => o r s = .lt) :
    (List.range (pageCount rows.length size)).flatMap (fun i => pages (i + 1)) = listing := by
  obtain ⟨listing', hperm', hsorted', hpages⟩ := h.listing
  rw [hpages]
  refine List.Perm.eq_of_pairwise (fun r s _ _ hrs hsr => ?_) hsorted' hsorted
    (hperm'.trans hperm.symm)
  have hswap : o s r = (o r s).swap := Std.OrientedCmp.eq_swap
  rw [hrs, hsr] at hswap
  cases hswap

/-- **Separate queries give exact pages**, where the clause tells all rows apart. -/
theorem exactPages_of_sorts {o : Order R} [Std.TransCmp o] {rows : List R} {size : Nat}
    (hsize : 0 < size) (hnodup : rows.Nodup) (htotal : ∀ r ∈ rows, ∀ s ∈ rows, o r s = .eq → r = s)
    {pages : Nat → List R} (hpages : ∀ k, 1 ≤ k → ∃ answer, o.Sorts rows answer
      ∧ pages k = page ((k - 1) * size) size answer) : ExactPages o rows size pages := by
  have hsort : o.Sorts rows (o.sort rows) := Order.sorts_sort rows
  have hpage : ∀ i, pages (i + 1) = page (i * size) size (o.sort rows) := fun i => by
    obtain ⟨answer, hanswer, hpage⟩ := hpages (i + 1) (Nat.le_add_left 1 i)
    rw [hpage, hanswer.eq_sort htotal, Nat.add_sub_cancel]
  refine ⟨⟨o.sort rows, hsort.perm, ?_, ?_⟩, fun i => mul_lt_of_lt_pageCount, fun k hk => ?_⟩
  · have hne : (o.sort rows).Pairwise fun r s => r ≠ s := hsort.perm.nodup_iff.mpr hnodup
    refine (hsort.sorted.and hne).imp_of_mem fun {r s} hr hs h => ?_
    cases hcmp : o r s with
    | lt => rfl
    | eq => exact absurd (htotal r (hsort.perm.mem_iff.mp hr) s (hsort.perm.mem_iff.mp hs) hcmp) h.2
    | gt => exact absurd hcmp h.1
  · simp only [hpage]
    rw [← hsort.perm.length_eq]
    exact flatMap_page hsize _
  · obtain ⟨i, rfl⟩ : ∃ i, k = i + 1 := ⟨k - 1, by omega⟩
    rw [hpage]
    refine page_eq_nil ?_
    calc (o.sort rows).length = rows.length := Order.length_sort o rows
      _ ≤ pageCount rows.length size * size := le_pageCount_mul hsize
      _ ≤ i * size := Nat.mul_le_mul_right size (by omega)

end Sql
