import Mathlib.Data.List.Nodup
import Mathlib.Data.List.Perm.Basic
import Mathlib.Tactic.Common

/-!
# Machinery/Table — a relational table as a list of keyed rows

    SELECT ▸ `lookup`, `List.filter`     UPDATE ▸ `update`     DELETE ▸ `delete`     INSERT ▸ `++ [r]`

A table is the list of its rows, and a primary key is a function of the row that does not repeat
(`Keyed`).  Under `Keyed` the four statements are read pointwise by key (`lookup_update`,
`lookup_delete`, `lookup_concat`), so a caller never walks the list.
-/

namespace Table

variable {R K : Type} [DecidableEq K] {key : R → K}

/-- The row with key `k`. -/
def lookup (key : R → K) (k : K) (t : List R) : Option R := t.find? fun r => key r = k

/-- `UPDATE t SET f WHERE p`. -/
def update (p : R → Bool) (f : R → R) (t : List R) : List R := t.map fun r => if p r then f r else r

/-- `DELETE FROM t WHERE p`. -/
def delete (p : R → Bool) (t : List R) : List R := t.filter fun r => !p r

/-- The key is a primary key: no two rows share it. -/
def Keyed (key : R → K) (t : List R) : Prop := (t.map key).Nodup

/-! ## Reading a row -/

theorem mem_of_lookup {k : K} {t : List R} {r : R} (h : lookup key k t = some r) : r ∈ t :=
  List.mem_of_find?_eq_some h

theorem key_of_lookup {k : K} {t : List R} {r : R} (h : lookup key k t = some r) : key r = k := by
  simpa using List.find?_some h

theorem lookup_eq_none {k : K} {t : List R} : lookup key k t = none ↔ ∀ r ∈ t, key r ≠ k := by
  simp [lookup]

/-- **Under a primary key, a row is found at its own key.** -/
theorem lookup_of_mem {t : List R} (ht : Keyed key t) {r : R} (hr : r ∈ t) :
    lookup key (key r) t = some r := by
  induction t with
  | nil => cases hr
  | cons a t ih =>
    obtain ⟨ha, ht⟩ := List.nodup_cons.mp ht
    rcases List.mem_cons.mp hr with rfl | hr
    · simp [lookup]
    · have hne : key a ≠ key r := fun h => ha (h ▸ List.mem_map_of_mem hr)
      have := ih ht hr
      simpa [lookup, hne] using this

theorem lookup_eq_some {t : List R} (ht : Keyed key t) {k : K} {r : R} :
    lookup key k t = some r ↔ r ∈ t ∧ key r = k :=
  ⟨fun h => ⟨mem_of_lookup h, key_of_lookup h⟩, fun ⟨hr, hk⟩ => hk ▸ lookup_of_mem ht hr⟩

/-- Two rows of a keyed table with one key are one row. -/
theorem eq_of_key_eq {t : List R} (ht : Keyed key t) {a b : R} (ha : a ∈ t) (hb : b ∈ t)
    (h : key a = key b) : a = b :=
  Option.some.inj ((lookup_of_mem ht ha).symm.trans (h ▸ lookup_of_mem ht hb))

omit [DecidableEq K] in
@[simp] theorem keyed_nil : Keyed key [] := List.nodup_nil

@[simp] theorem lookup_nil (k : K) : lookup key k [] = none := rfl

/-- The rows of one key are one row at most. -/
theorem length_filter_le_one {t : List R} (ht : Keyed key t) (k : K) :
    (t.filter fun r => key r = k).length ≤ 1 := by
  have hnodup : ((t.filter fun r => key r = k).map key).Nodup :=
    ht.sublist (List.filter_sublist.map key)
  have hkey : (t.filter fun r => key r = k).map key
      = List.replicate (t.filter fun r => key r = k).length k :=
    List.eq_replicate_iff.mpr ⟨List.length_map _, fun b hb => by
      obtain ⟨r, hr, rfl⟩ := List.mem_map.mp hb
      simpa using List.of_mem_filter hr⟩
  rw [hkey] at hnodup
  exact List.nodup_replicate.mp hnodup

/-- A lookup does not see the order of the rows. -/
theorem lookup_perm {t t' : List R} (ht : Keyed key t) (hperm : t'.Perm t) (k : K) :
    lookup key k t' = lookup key k t := by
  have ht' : Keyed key t' := (hperm.map key).nodup_iff.mpr ht
  ext r
  rw [lookup_eq_some ht', lookup_eq_some ht, hperm.mem_iff]

omit [DecidableEq K] in
/-- **The first row that does not satisfy `p`**, where there is one: it is before any other such row,
and in the window if fewer than `n` rows are before it. -/
theorem exists_first_not {p : R → Bool} {n : Nat} {t : List R} {r : R} (hr : r ∈ t)
    (hp : p r = false) (hn : (t.takeWhile p).length < n) :
    ∃ before a rest, t = before ++ a :: rest ∧ (∃ rest', t.take n = before ++ a :: rest') ∧
      (∀ b ∈ before, p b) ∧ p a = false ∧ r ∈ a :: rest := by
  induction t generalizing n with
  | nil => cases hr
  | cons a t ih =>
    cases n with
    | zero => exact absurd hn (Nat.not_lt_zero _)
    | succ n =>
      cases ha : p a with
      | false => exact ⟨[], a, t, rfl, ⟨t.take n, rfl⟩, fun b hb => (List.not_mem_nil hb).elim, ha, hr⟩
      | true =>
        have hrt : r ∈ t := (List.mem_cons.mp hr).resolve_left fun heq => by
          rw [heq, ha] at hp
          cases hp
        have hnt : (t.takeWhile p).length < n := by
          rw [List.takeWhile_cons_of_pos ha] at hn
          exact Nat.lt_of_succ_lt_succ hn
        obtain ⟨before, b, rest, heq, ⟨rest', htake⟩, hbefore, hb, hmem⟩ := ih hrt hnt
        refine ⟨a :: before, b, rest, by rw [heq]; rfl, ⟨rest', by rw [List.take_succ_cons, htake]; rfl⟩,
          fun c hc => ?_, hb, hmem⟩
        rcases List.mem_cons.mp hc with rfl | hc
        · exact ha
        · exact hbefore c hc

/-! ## Updating rows -/

theorem mem_update {p : R → Bool} {f : R → R} {t : List R} {r : R} :
    r ∈ update p f t ↔ ∃ a ∈ t, (if p a then f a else a) = r := List.mem_map

/-- **An update rewrites each row in place** — it never moves a key. -/
theorem lookup_update {p : R → Bool} {f : R → R} (hf : ∀ r, key (f r) = key r) (k : K)
    (t : List R) :
    lookup key k (update p f t) = (lookup key k t).map fun r => if p r then f r else r := by
  have hk : ∀ r, key (if p r then f r else r) = key r := fun r => by
    split
    · exact hf r
    · rfl
  simp only [lookup, update, List.find?_map]
  refine congrArg _ (congrArg (fun q => List.find? q t) (funext fun r => ?_))
  simp [hk]

omit [DecidableEq K] in
theorem keyed_update {p : R → Bool} {f : R → R} (hf : ∀ r, key (f r) = key r) {t : List R}
    (ht : Keyed key t) : Keyed key (update p f t) := by
  have hmap : (update p f t).map key = t.map key := by
    rw [update, List.map_map]
    refine List.map_congr_left fun r _ => ?_
    simp only [Function.comp_apply]
    split
    · exact hf r
    · rfl
  rw [Keyed, hmap]
  exact ht

theorem lookup_update_key {f : R → R} (hf : ∀ r, key (f r) = key r) (k k' : K) (t : List R) :
    lookup key k' (update (fun r => key r = k) f t)
      = if k' = k then (lookup key k' t).map f else lookup key k' t := by
  rw [lookup_update hf]
  cases h : lookup key k' t with
  | none => simp
  | some r =>
    have hr := key_of_lookup h
    by_cases hk : k' = k <;> simp [hr, hk]

theorem update_replace_eq (k : K) (r : R) (t : List R) :
    update (fun r' => key r' = k) (fun _ => r) t
      = update (fun r' => key r' = k) (fun r' => if key r' = k then r else r') t := by
  refine List.map_congr_left fun r' _ => ?_
  by_cases hr' : key r' = k <;> simp [hr']

theorem key_replace {k : K} {r : R} (hr : key r = k) (r' : R) :
    key (if key r' = k then r else r') = key r' := by
  split
  · next hr' => rw [hr, hr']
  · rfl

/-- The row of a key, replaced by another with that key. -/
theorem lookup_replace {k : K} {r : R} (hr : key r = k) (k' : K) (t : List R) :
    lookup key k' (update (fun r' => key r' = k) (fun _ => r) t)
      = if k' = k then (lookup key k' t).map fun _ => r else lookup key k' t := by
  rw [update_replace_eq, lookup_update_key (key_replace hr)]
  split
  · next hk =>
    cases hlookup : lookup key k' t with
    | none => rfl
    | some r' => simp [key_of_lookup hlookup, hk]
  · rfl

theorem keyed_replace {k : K} {r : R} (hr : key r = k) {t : List R} (ht : Keyed key t) :
    Keyed key (update (fun r' => key r' = k) (fun _ => r) t) := by
  rw [update_replace_eq]
  exact keyed_update (key_replace hr) ht

theorem lookup_map {f : R → R} (hf : ∀ r, key (f r) = key r) (k : K) (t : List R) :
    lookup key k (t.map f) = (lookup key k t).map f := by
  simpa [update] using lookup_update (p := fun _ => true) hf k t

/-! ## Deleting rows -/

theorem mem_delete {p : R → Bool} {t : List R} {r : R} : r ∈ delete p t ↔ r ∈ t ∧ p r = false := by
  simp [delete]

omit [DecidableEq K] in
theorem keyed_delete {p : R → Bool} {t : List R} (ht : Keyed key t) : Keyed key (delete p t) :=
  ht.sublist (List.Sublist.map key List.filter_sublist)

theorem lookup_delete {p : R → Bool} {t : List R} (ht : Keyed key t) (k : K) :
    lookup key k (delete p t) = (lookup key k t).filter fun r => !p r := by
  refine Option.ext fun r => ?_
  rw [lookup_eq_some (keyed_delete ht), mem_delete, Option.filter_eq_some_iff, lookup_eq_some ht]
  simp only [Bool.not_eq_eq_eq_not, Bool.not_true]
  exact ⟨fun h => ⟨⟨h.1.1, h.2⟩, h.1.2⟩, fun h => ⟨⟨h.1.1, h.2⟩, h.1.2⟩⟩

theorem lookup_delete_key (k k' : K) (t : List R) :
    lookup key k' (delete (fun r => key r = k) t) = if k' = k then none else lookup key k' t := by
  split
  · next h =>
    refine lookup_eq_none.mpr fun r hr he => ?_
    simp [mem_delete, he, h] at hr
  · next h =>
    simp only [lookup, delete, List.find?_filter]
    refine congrArg (fun q => List.find? q t) (funext fun r => ?_)
    by_cases hr : key r = k'
    · simp [hr, h]
    · simp [hr]

/-! ## Inserting a row -/

theorem lookup_concat (k : K) (t : List R) (r : R) :
    lookup key k (t ++ [r]) = (lookup key k t).or (if key r = k then some r else none) := by
  simp only [lookup, List.find?_append]
  refine congrArg _ ?_
  by_cases h : key r = k <;> simp [h]

theorem keyed_concat {t : List R} {r : R} (ht : Keyed key t) (hr : lookup key (key r) t = none) :
    Keyed key (t ++ [r]) := by
  rw [Keyed, List.map_append, List.nodup_append]
  refine ⟨ht, List.nodup_singleton _, fun a ha b hb => ?_⟩
  obtain ⟨r', hr', rfl⟩ := List.mem_map.mp ha
  obtain rfl : b = key r := by simpa using hb
  exact lookup_eq_none.mp hr r' hr'

end Table
