import Mathlib.Data.List.Basic

/-!
# Machinery/Groups — the groups of a list

    ab··c·   ▸   [ab, c]   ▸   ab-c

A group is a longest run of members of a class; what stands between two runs does not matter.  A
single separator that is no member joins groups without loss (`groups_intercalate`), and what is no
member at either end is not seen (`groups_append`, `groups_append_left`).
-/

namespace Groups

variable {α : Type} (member : α → Bool)

/-! ## Definition -/

/-- A run in front of groups is a group itself, unless it is empty. -/
def front (run : List α) (rest : List (List α)) : List (List α) :=
  if run.isEmpty then rest else run :: rest

/-- The run a list begins with, and the groups behind it. -/
def split : List α → List α × List (List α)
  | [] => ([], [])
  | a :: as =>
    let ahead := split as
    if member a then (a :: ahead.1, ahead.2) else ([], front ahead.1 ahead.2)

/-- **The groups of a list.** -/
def groups (as : List α) : List (List α) := front (split member as).1 (split member as).2

variable {member}

theorem split_cons_pos {a : α} (h : member a = true) (as : List α) :
    split member (a :: as) = (a :: (split member as).1, (split member as).2) := by
  simp only [split, h, if_true]

theorem split_cons_neg {a : α} (h : member a = false) (as : List α) :
    split member (a :: as) = ([], groups member as) := by
  simp only [split, h, Bool.false_eq_true, if_false, groups]

theorem groups_cons_neg {a : α} (h : member a = false) (as : List α) :
    groups member (a :: as) = groups member as := by
  rw [groups, split_cons_neg h]
  rfl

theorem groups_cons_pos {a : α} (h : member a = true) (as : List α) :
    groups member (a :: as) = (a :: (split member as).1) :: (split member as).2 := by
  rw [groups, split_cons_pos h]
  rfl

/-! ## What a group is -/

/-- A group is not empty, and has only members. -/
def IsGroup (member : α → Bool) (group : List α) : Prop :=
  group ≠ [] ∧ ∀ a ∈ group, member a = true

theorem isGroup_front {run : List α} {rest : List (List α)} (hrun : ∀ a ∈ run, member a = true)
    (hrest : ∀ group ∈ rest, IsGroup member group) :
    ∀ group ∈ front run rest, IsGroup member group := by
  intro group hgroup
  rw [front] at hgroup
  split at hgroup
  · exact hrest group hgroup
  · next hne =>
    rcases List.mem_cons.mp hgroup with rfl | hgroup
    · exact ⟨by simpa using hne, hrun⟩
    · exact hrest group hgroup

theorem isGroup_split (as : List α) :
    (∀ a ∈ (split member as).1, member a = true) ∧
      ∀ group ∈ (split member as).2, IsGroup member group := by
  induction as with
  | nil => exact ⟨by simp [split], by simp [split]⟩
  | cons a as ih =>
    cases h : member a with
    | true =>
      rw [split_cons_pos h]
      exact ⟨List.forall_mem_cons.mpr ⟨h, ih.1⟩, ih.2⟩
    | false =>
      rw [split_cons_neg h]
      exact ⟨by simp, isGroup_front ih.1 ih.2⟩

theorem isGroup_of_mem {as group : List α} (h : group ∈ groups member as) :
    IsGroup member group :=
  isGroup_front (isGroup_split as).1 (isGroup_split as).2 group h

/-- Groups take nothing from elsewhere. -/
theorem subset_split (as : List α) :
    (split member as).1 ⊆ as ∧ ∀ group ∈ (split member as).2, group ⊆ as := by
  induction as with
  | nil => exact ⟨by simp [split], by simp [split]⟩
  | cons a as ih =>
    obtain ⟨hrun, hrest⟩ := ih
    cases h : member a with
    | true =>
      rw [split_cons_pos h]
      exact ⟨List.cons_subset_cons a hrun, fun group hgroup =>
        List.Subset.trans (hrest group hgroup) (List.subset_cons_self a as)⟩
    | false =>
      rw [split_cons_neg h]
      refine ⟨List.nil_subset _, fun group hgroup => ?_⟩
      rw [groups, front] at hgroup
      split at hgroup
      · exact List.Subset.trans (hrest group hgroup) (List.subset_cons_self a as)
      · rcases List.mem_cons.mp hgroup with rfl | hgroup
        · exact List.Subset.trans hrun (List.subset_cons_self a as)
        · exact List.Subset.trans (hrest group hgroup) (List.subset_cons_self a as)

theorem subset_of_mem {as group : List α} (h : group ∈ groups member as) : group ⊆ as := by
  rw [groups, front] at h
  split at h
  · exact (subset_split as).2 group h
  · rcases List.mem_cons.mp h with rfl | h
    · exact (subset_split as).1
    · exact (subset_split as).2 group h

/-! ## Both ends -/

theorem groups_append_left {silent : List α} (h : ∀ a ∈ silent, member a = false) (as : List α) :
    groups member (silent ++ as) = groups member as := by
  induction silent with
  | nil => rfl
  | cons a silent ih =>
    rw [List.forall_mem_cons] at h
    rw [List.cons_append, groups_cons_neg h.1, ih h.2]

theorem split_eq_nil {silent : List α} (h : ∀ a ∈ silent, member a = false) :
    split member silent = ([], []) := by
  induction silent with
  | nil => rfl
  | cons a silent ih =>
    rw [List.forall_mem_cons] at h
    rw [split_cons_neg h.1, groups, ih h.2]
    rfl

theorem split_append {silent : List α} (h : ∀ a ∈ silent, member a = false) (as : List α) :
    split member (as ++ silent) = split member as := by
  induction as with
  | nil => exact split_eq_nil h
  | cons a as ih => rw [List.cons_append, split, split, ih]

theorem groups_append {silent : List α} (h : ∀ a ∈ silent, member a = false) (as : List α) :
    groups member (as ++ silent) = groups member as := by
  rw [groups, groups, split_append h]

/-! ## Joined groups -/

theorem split_group {group as : List α} (h : ∀ a ∈ group, member a = true) :
    split member (group ++ as) = (group ++ (split member as).1, (split member as).2) := by
  induction group with
  | nil => rfl
  | cons a group ih =>
    rw [List.forall_mem_cons] at h
    rw [List.cons_append, split_cons_pos h.1, ih h.2]
    rfl

theorem groups_group {group : List α} (h : IsGroup member group) {as : List α}
    (has : (split member as).1 = []) : groups member (group ++ as) = group :: (split member as).2 := by
  rw [groups, split_group h.2, has, List.append_nil, front, if_neg (by simpa using h.1)]

/-- The first group, and each other one behind a separator. -/
theorem intercalate_cons (separator : α) (group : List α) (parts : List (List α)) :
    [separator].intercalate (group :: parts) = group ++ parts.flatMap (separator :: ·) := by
  induction parts generalizing group with
  | nil => simp
  | cons next parts ih =>
    rw [List.intercalate_cons_cons, ih, List.flatMap_cons, List.append_assoc]
    rfl

/-- **Joined by what is no member, groups are found again.** -/
theorem groups_intercalate {separator : α} (hseparator : member separator = false)
    {parts : List (List α)} (h : ∀ group ∈ parts, IsGroup member group) :
    groups member ([separator].intercalate parts) = parts := by
  induction parts with
  | nil => rfl
  | cons group parts ih =>
    rw [List.forall_mem_cons] at h
    rcases parts with _ | ⟨next, parts⟩
    · have hgroup : groups member (group ++ []) = [group] := groups_group h.1 rfl
      rw [List.append_nil] at hgroup
      rw [List.intercalate_singleton, hgroup]
    · rw [List.intercalate_cons_cons, List.append_assoc, List.singleton_append]
      have hsplit := split_cons_neg hseparator ([separator].intercalate (next :: parts))
      rw [ih h.2] at hsplit
      rw [groups_group h.1 (by rw [hsplit]), hsplit]

end Groups
