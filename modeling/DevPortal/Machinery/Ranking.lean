import Mathlib.Data.List.Basic
import Mathlib.Tactic.Common

/-!
# Machinery/Ranking — the first of many, when some were never looked at

    kept      y₁ ≤ y₂ ≤ … ≤ yₙ │ …        sorted, and cut to n
    left out  x                            with n of the kept ones at or before it?

A list is sorted by a comparison that may not tell all its members apart; the *first n* are a sorted
list with nothing outside that comes strictly before one of them (`Top`).  Those of a part of the
list are the first n of all just if each member left out has n of the part at or before it
(`top_take_sortBy_iff`).
-/

namespace Ranking

variable {α : Type} (cmp : α → α → Ordering)

/-- `sort_by`, which is stable. -/
def sortBy (l : List α) : List α := l.mergeSort fun a b => (cmp a b).isLE

/-- **The first `n` of a list**, up to members that compare equal. -/
structure Top (n : Nat) (shown all : List α) : Prop where
  sorted : shown.Pairwise fun a b => (cmp a b).isLE = true
  length : shown.length = min n all.length
  rest : ∃ rest, (shown ++ rest).Perm all ∧ ∀ a ∈ shown, ∀ b ∈ rest, (cmp a b).isLE = true

variable {cmp}

theorem sortBy_perm (l : List α) : (sortBy cmp l).Perm l := List.mergeSort_perm l _

theorem sorted_sortBy [Std.TransCmp cmp] (l : List α) :
    (sortBy cmp l).Pairwise fun a b => (cmp a b).isLE = true := by
  refine List.pairwise_mergeSort (fun a b c => Std.TransCmp.isLE_trans) (fun a b => ?_) l
  have hswap : cmp b a = (cmp a b).swap := Std.OrientedCmp.eq_swap
  rw [Bool.or_eq_true, hswap]
  cases cmp a b <;> simp

/-- In a sorted list, what holds of many and of all before them holds of the first. -/
theorem forall_mem_take {p : α → Bool} (hp : ∀ a b, (cmp a b).isLE = true → p b = true → p a = true)
    {l : List α} (hl : l.Pairwise fun a b => (cmp a b).isLE = true) {n : Nat} (hn : n ≤ l.countP p)
    {a : α} (ha : a ∈ l.take n) : p a = true := by
  induction l generalizing n with
  | nil => simp at ha
  | cons b l ih =>
    obtain ⟨hb, hl⟩ := List.pairwise_cons.mp hl
    cases n with
    | zero => simp at ha
    | succ n =>
      have hpb : p b = true := by
        by_contra hpb
        have hnone : l.countP p = 0 := List.countP_eq_zero.mpr fun c hc hpc =>
          hpb (hp b c (hb c hc) hpc)
        rw [List.countP_cons_of_neg hpb, hnone] at hn
        omega
      rw [List.countP_cons_of_pos hpb] at hn
      rcases List.mem_cons.mp ha with rfl | ha
      · exact hpb
      · exact ih hl (by omega) ha

/-- **The first of a part are the first of all** just if each one left out has that many of the part
at or before it. -/
theorem top_take_sortBy_iff [Std.TransCmp cmp] {n : Nat} {kept out all : List α}
    (hall : all.Perm (kept ++ out)) :
    Top cmp n ((sortBy cmp kept).take n) all
      ↔ ∀ x ∈ out, n ≤ kept.countP fun y => (cmp y x).isLE := by
  have hsplit : kept.Perm ((sortBy cmp kept).take n ++ (sortBy cmp kept).drop n) := by
    rw [List.take_append_drop]
    exact (sortBy_perm kept).symm
  have hlength : all.length = kept.length + out.length := by
    rw [hall.length_eq, List.length_append]
  have hshown : ((sortBy cmp kept).take n).length = min n kept.length := by
    rw [List.length_take, (sortBy_perm kept).length_eq]
  constructor
  · rintro ⟨-, hcount, rest, hrest, hle⟩ x hx
    -- something is left out, so the part alone fills the places
    have hpos := List.length_pos_of_mem hx
    have hfull : ((sortBy cmp kept).take n).length = n := by omega
    have hmem : x ∈ rest := by
      have hperm : ((sortBy cmp kept).take n ++ rest).Perm
          ((sortBy cmp kept).take n ++ ((sortBy cmp kept).drop n ++ out)) := by
        rw [← List.append_assoc]
        exact hrest.trans (hall.trans (hsplit.append_right out))
      exact ((List.perm_append_left_iff _).mp hperm).mem_iff.mpr (List.mem_append_right _ hx)
    calc n = ((sortBy cmp kept).take n).countP fun y => (cmp y x).isLE := by
          rw [List.countP_eq_length.mpr fun y hy => hle y hy x hmem, hfull]
      _ ≤ kept.countP fun y => (cmp y x).isLE := by
          rw [hsplit.countP_eq, List.countP_append]
          omega
  · intro h
    have hsorted : (sortBy cmp kept).Pairwise fun a b => (cmp a b).isLE = true :=
      sorted_sortBy kept
    refine ⟨hsorted.sublist (List.take_sublist _ _), ?_, (sortBy cmp kept).drop n ++ out, ?_,
      fun a ha b hb => ?_⟩
    · rw [hshown]
      cases out with
      | nil => simp [hlength]
      | cons x out =>
        have hn := Nat.le_trans (h x List.mem_cons_self) List.countP_le_length
        omega
    · rw [← List.append_assoc]
      exact (hsplit.symm.append_right out).trans hall.symm
    · rcases List.mem_append.mp hb with hb | hb
      · rw [← List.take_append_drop n (sortBy cmp kept)] at hsorted
        exact (List.pairwise_append.mp hsorted).2.2 a ha b hb
      · refine forall_mem_take (p := fun y => (cmp y b).isLE) (fun _ _ => Std.TransCmp.isLE_trans)
          hsorted ?_ ha
        rw [(sortBy_perm kept).countP_eq]
        exact h b hb

end Ranking
