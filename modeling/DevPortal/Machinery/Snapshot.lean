import DevPortal.Machinery.Table
import Mathlib.Data.List.Dedup
import Mathlib.Data.List.Perm.Lattice

/-!
# Machinery/Snapshot — reconciling a table with the full list of its keys

    upsert every key of the list, marking its row      (`Upserted`)
    archive the live own rows without a mark           (`sweep`)

A row has an id, and a key of its own if it came from outside.  `Upserted keys t t'` says what a
number of upserts can have done, whatever their order and however often a key repeats; it composes
(`Upserted.append`), so a loop is settled by its one step (`upserted_update`, `upserted_concat`).
-/

namespace Snapshot

variable {R I K : Type}

/-- The columns that a reconciliation reads, and the one it writes. -/
structure Columns (R I K : Type) where
  id : R → I
  key : R → Option K
  own : R → Bool
  archived : R → Bool
  marked : R → Bool
  archive : R → R
  id_archive : ∀ r, id (archive r) = id r
  key_archive : ∀ r, key (archive r) = key r
  own_archive : ∀ r, own (archive r) = own r
  archived_archive : ∀ r, archived (archive r)

namespace Columns

variable (c : Columns R I K)

/-- What the list of a snapshot is compared with. -/
def live (r : R) : Bool := c.own r && !c.archived r

/-- The live rows that no upsert has marked. -/
def missing (r : R) : Bool := c.live r && !c.marked r

/-- A row as an upsert of the key leaves it. -/
def Seen (k : K) (r : R) : Prop := c.key r = some k ∧ c.live r ∧ c.marked r

/-- `UPDATE t SET archived WHERE missing`. -/
def sweep (t : List R) : List R := Table.update c.missing c.archive t

/-- The row with the id of `r` is archived. -/
def isArchivedIn [DecidableEq I] (t : List R) (r : R) : Bool :=
  (Table.lookup c.id (c.id r) t).any c.archived

/-- Ids and keys are unique. -/
structure Wf (t : List R) : Prop where
  ids : Table.Keyed c.id t
  keys : ∀ a ∈ t, ∀ b ∈ t, c.key a = c.key b → (c.key a).isSome → a = b

/-- **What upserts of `keys` make of a table**: a row under one of them is seen, with its id; the
others are as they were; every key has a row; and no further row came. -/
structure Upserted (keys : List K) (t t' : List R) : Prop where
  kept : ∀ r ∈ t, (∀ k ∈ keys, c.key r ≠ some k) → r ∈ t'
  hit : ∀ r ∈ t, ∀ k ∈ keys, c.key r = some k → ∃ r' ∈ t', c.id r' = c.id r ∧ c.Seen k r'
  came : ∀ r' ∈ t', (∃ k ∈ keys, c.Seen k r') ∨ r' ∈ t ∧ ∀ k ∈ keys, c.key r' ≠ some k
  all : ∀ k ∈ keys, ∃ r' ∈ t', c.Seen k r'

end Columns

variable {c : Columns R I K} {t t' t'' : List R} {keys keys' : List K} {k : K} {r : R}

theorem Columns.missing_iff : c.missing r ↔ c.live r ∧ c.marked r = false := by
  simp [Columns.missing]

theorem Columns.live_iff : c.live r ↔ c.own r ∧ c.archived r = false := by
  simp [Columns.live]

/-! ## One upsert after the other -/

theorem Columns.Upserted.refl (t : List R) : c.Upserted [] t t where
  kept _ hr _ := hr
  hit _ _ _ hk := (List.not_mem_nil hk).elim
  came _ hr := Or.inr ⟨hr, fun _ hk => (List.not_mem_nil hk).elim⟩
  all _ hk := (List.not_mem_nil hk).elim

/-- A seen row stays seen, under its id. -/
theorem Columns.Upserted.seen (h : c.Upserted keys t t') (hr : r ∈ t) (hs : c.Seen k r) :
    ∃ r' ∈ t', c.id r' = c.id r ∧ c.Seen k r' := by
  by_cases hk : k ∈ keys
  · exact h.hit r hr k hk hs.1
  · refine ⟨r, h.kept r hr fun k' hk' he => hk ?_, rfl, hs⟩
    rwa [Option.some.inj (hs.1.symm.trans he)]

theorem Columns.Upserted.append (h : c.Upserted keys t t') (h' : c.Upserted keys' t' t'') :
    c.Upserted (keys ++ keys') t t'' where
  kept r hr hk := by
    obtain ⟨hk, hk'⟩ := List.forall_mem_append.mp hk
    exact h'.kept r (h.kept r hr hk) hk'
  hit r hr k hk he := by
    by_cases hin : k ∈ keys
    · obtain ⟨r', hr', hid, hs⟩ := h.hit r hr k hin he
      obtain ⟨r'', hr'', hid', hs'⟩ := h'.seen hr' hs
      exact ⟨r'', hr'', hid'.trans hid, hs'⟩
    · have hin' : k ∈ keys' := (List.mem_append.mp hk).resolve_left hin
      refine h'.hit r (h.kept r hr fun k' hk' he' => hin ?_) k hin' he
      rwa [Option.some.inj (he.symm.trans he')]
  came r hr := by
    rcases h'.came r hr with ⟨k, hk, hs⟩ | ⟨hr', hk'⟩
    · exact Or.inl ⟨k, List.mem_append_right _ hk, hs⟩
    · rcases h.came r hr' with ⟨k, hk, hs⟩ | ⟨hr, hk⟩
      · exact Or.inl ⟨k, List.mem_append_left _ hk, hs⟩
      · exact Or.inr ⟨hr, List.forall_mem_append.mpr ⟨hk, hk'⟩⟩
  all k hk := by
    rcases List.mem_append.mp hk with hk | hk
    · obtain ⟨r', hr', hs⟩ := h.all k hk
      obtain ⟨r'', hr'', -, hs'⟩ := h'.seen hr' hs
      exact ⟨r'', hr'', hs'⟩
    · exact h'.all k hk

section Step

variable [DecidableEq I] {f : R → R}

/-- The upsert of a key that has a row. -/
theorem upserted_update (ht : c.Wf t) (hr : r ∈ t) (hkey : c.key r = some k)
    (hid : ∀ a, c.id (f a) = c.id a) (hs : ∀ a, c.Seen k (f a)) :
    c.Upserted [k] t (Table.update (fun a => c.id a = c.id r) f t) := by
  have hsame : ∀ a ∈ t, c.id a = c.id r → a = r := fun a ha => Table.eq_of_key_eq ht.ids ha hr
  have hother : ∀ a ∈ t, c.id a ≠ c.id r → a ∈ Table.update (fun a => c.id a = c.id r) f t :=
    fun a ha hne => Table.mem_update.mpr ⟨a, ha, by simp [hne]⟩
  have hself : f r ∈ Table.update (fun a => c.id a = c.id r) f t :=
    Table.mem_update.mpr ⟨r, hr, by simp⟩
  constructor
  · intro a ha hne
    refine hother a ha fun h => hne k (List.mem_singleton_self k) ?_
    rw [hsame a ha h, hkey]
  · intro a ha k' hk' he
    obtain rfl := List.mem_singleton.mp hk'
    have har : a = r := ht.keys a ha r hr (he.trans hkey.symm) (by simp [he])
    exact ⟨f r, hself, by rw [hid, har], hs r⟩
  · intro b hb
    obtain ⟨a, ha, rfl⟩ := Table.mem_update.mp hb
    by_cases h : c.id a = c.id r
    · simp only [h, decide_true, if_true]
      exact Or.inl ⟨k, List.mem_singleton_self k, hs a⟩
    · simp only [h, decide_false, Bool.false_eq_true, if_false]
      refine Or.inr ⟨ha, fun k' hk' he => h ?_⟩
      obtain rfl := List.mem_singleton.mp hk'
      rw [ht.keys a ha r hr (he.trans hkey.symm) (by simp [he])]
  · intro k' hk'
    obtain rfl := List.mem_singleton.mp hk'
    exact ⟨f r, hself, hs r⟩

theorem wf_update (ht : c.Wf t) (hr : r ∈ t) (hkey : c.key r = some k)
    (hid : ∀ a, c.id (f a) = c.id a) (hs : ∀ a, c.Seen k (f a)) :
    c.Wf (Table.update (fun a => c.id a = c.id r) f t) := by
  refine ⟨Table.keyed_update hid ht.ids, ?_⟩
  -- a row under the key of `r` is `r`, so only `r` can clash with its update
  have honly : ∀ a ∈ t, c.key a = some k → c.id a = c.id r := fun a ha he => by
    rw [ht.keys a ha r hr (he.trans hkey.symm) (by simp [he])]
  intro a' ha' b' hb' he hsome
  obtain ⟨a, ha, rfl⟩ := Table.mem_update.mp ha'
  obtain ⟨b, hb, rfl⟩ := Table.mem_update.mp hb'
  by_cases hra : c.id a = c.id r <;> by_cases hrb : c.id b = c.id r <;>
    simp only [hra, hrb, decide_true, decide_false, if_true, if_false, Bool.false_eq_true]
      at he hsome ⊢
  · rw [Table.eq_of_key_eq ht.ids ha hb (hra.trans hrb.symm)]
  · exact (hrb (honly b hb (he.symm.trans (hs a).1))).elim
  · exact (hra (honly a ha (he.trans (hs b).1))).elim
  · exact ht.keys a ha b hb he hsome

omit [DecidableEq I] in
/-- The upsert of a key that has no row. -/
theorem upserted_concat (hnone : ∀ a ∈ t, c.key a ≠ some k) (hs : c.Seen k r) :
    c.Upserted [k] t (t ++ [r]) where
  kept a ha _ := List.mem_append_left _ ha
  hit a ha k' hk' he := (hnone a ha (List.mem_singleton.mp hk' ▸ he)).elim
  came a ha := by
    rcases List.mem_append.mp ha with ha | ha
    · exact Or.inr ⟨ha, fun k' hk' => List.mem_singleton.mp hk' ▸ hnone a ha⟩
    · obtain rfl := List.mem_singleton.mp ha
      exact Or.inl ⟨k, List.mem_singleton_self k, hs⟩
  all k' hk' := by
    obtain rfl := List.mem_singleton.mp hk'
    exact ⟨r, by simp, hs⟩

theorem wf_concat (ht : c.Wf t) (hnone : ∀ a ∈ t, c.key a ≠ some k) (hs : c.Seen k r)
    (hfresh : ∀ a ∈ t, c.id a ≠ c.id r) : c.Wf (t ++ [r]) := by
  refine ⟨Table.keyed_concat ht.ids (Table.lookup_eq_none.mpr hfresh), fun a ha' b hb' he hsome => ?_⟩
  rcases List.mem_append.mp ha' with ha | ha <;> rcases List.mem_append.mp hb' with hb | hb
  · exact ht.keys a ha b hb he hsome
  · obtain rfl := List.mem_singleton.mp hb
    exact (hnone a ha (he.trans hs.1)).elim
  · obtain rfl := List.mem_singleton.mp ha
    exact (hnone b hb (he.symm.trans hs.1)).elim
  · rw [List.mem_singleton.mp ha, List.mem_singleton.mp hb]

end Step

/-! ## The sweep after them -/

theorem mem_sweep {r : R} :
    r ∈ c.sweep t ↔ ∃ a ∈ t, (if c.missing a then c.archive a else a) = r := Table.mem_update

/-- A live row after the sweep is one that has been seen. -/
theorem mem_sweep_of_live {r : R} (hlive : c.live r) : r ∈ c.sweep t ↔ r ∈ t ∧ c.marked r := by
  rw [mem_sweep]
  constructor
  · rintro ⟨a, ha, rfl⟩
    split at hlive
    · have := (Columns.live_iff.mp hlive).2
      simp [c.archived_archive] at this
    · next h =>
      rw [if_neg h]
      exact ⟨ha, by simpa [Columns.missing, hlive] using h⟩
  · rintro ⟨hr, hm⟩
    exact ⟨r, hr, by simp [Columns.missing, hm]⟩

/-- A row that is not the reconciled owner's stays as it is. -/
theorem mem_sweep_of_not_own {r : R} (hown : c.own r = false) : r ∈ c.sweep t ↔ r ∈ t := by
  rw [mem_sweep]
  constructor
  · rintro ⟨a, ha, rfl⟩
    split at hown
    · next h =>
      have := (Columns.live_iff.mp (Columns.missing_iff.mp h).1).1
      rw [c.own_archive, this] at hown
      cases hown
    · next h => rwa [if_neg h]
  · intro hr
    exact ⟨r, hr, by simp [Columns.missing, Columns.live, hown]⟩

section Reconcile

variable (hu : c.Upserted keys t t')
include hu

/-- An archived row has not been upserted. -/
theorem archived_upserted {r : R} (hr : r ∈ t') (ha : c.archived r) : r ∈ t := by
  rcases hu.came r hr with ⟨k, -, -, hlive, -⟩ | ⟨hr, -⟩
  · rw [(Columns.live_iff.mp hlive).2] at ha
    cases ha
  · exact hr

/-- A row under a key of the snapshot is live again, with its id. -/
theorem live_of_key {r : R} (hr : r ∈ t) {k : K} (hk : k ∈ keys) (he : c.key r = some k) :
    ∃ r' ∈ c.sweep t', c.id r' = c.id r ∧ c.live r' := by
  obtain ⟨r', hr', hid, -, hlive, hm⟩ := hu.hit r hr k hk he
  exact ⟨r', (mem_sweep_of_live hlive).mpr ⟨hr', hm⟩, hid, hlive⟩

/-- A row of another owner, under no key of the snapshot, stays as it is. -/
theorem frame_sweep {r : R} (hown : c.own r = false) (hk : ∀ k ∈ keys, c.key r ≠ some k) :
    r ∈ c.sweep t' ↔ r ∈ t := by
  rw [mem_sweep_of_not_own hown]
  refine ⟨fun hr => ?_, fun hr => hu.kept r hr hk⟩
  rcases hu.came r hr with ⟨k, hin, hs, -⟩ | ⟨hr, -⟩
  · exact (hk k hin hs).elim
  · exact hr

/-- The rows that the sweep archives are those that were live before the upserts and are archived
after it. -/
theorem missing_iff_archived [DecidableEq I] (ht : c.Wf t) (ht' : c.Wf t') (r : R) :
    r ∈ t' ∧ c.missing r ↔ r ∈ t ∧ c.archived r = false ∧ c.isArchivedIn (c.sweep t') r := by
  have hkeyed : Table.Keyed c.id (c.sweep t') := Table.keyed_update c.id_archive ht'.ids
  constructor
  · rintro ⟨hr, hmiss⟩
    obtain ⟨hlive, hm⟩ := Columns.missing_iff.mp hmiss
    rcases hu.came r hr with ⟨k, -, -, -, hm'⟩ | ⟨hr', -⟩
    · rw [hm] at hm'
      cases hm'
    · refine ⟨hr', (Columns.live_iff.mp hlive).2, ?_⟩
      have hswept : c.archive r ∈ c.sweep t' := mem_sweep.mpr ⟨r, hr, if_pos hmiss⟩
      rw [Columns.isArchivedIn, ← c.id_archive r, Table.lookup_of_mem hkeyed hswept]
      exact c.archived_archive r
  · rintro ⟨hr, hlive, harch⟩
    obtain ⟨r', hfound, harch'⟩ := (Option.any_eq_true _ _).mp harch
    obtain ⟨a, ha, rfl⟩ := mem_sweep.mp (Table.mem_of_lookup hfound)
    have hid := Table.key_of_lookup hfound
    split at harch'
    · next hmiss =>
      rw [if_pos hmiss, c.id_archive] at hid
      rcases hu.came a ha with ⟨k, -, -, -, hm⟩ | ⟨ha', -⟩
      · rw [(Columns.missing_iff.mp hmiss).2] at hm
        cases hm
      · obtain rfl := Table.eq_of_key_eq ht.ids ha' hr hid
        exact ⟨ha, hmiss⟩
    · next hmiss =>
      rw [if_neg hmiss] at hid
      obtain rfl := Table.eq_of_key_eq ht.ids (archived_upserted hu ha harch') hr hid
      rw [hlive] at harch'
      cases harch'

/-- **The sweep counts the rows that become archived.** -/
theorem count_sweep [DecidableEq I] (ht : c.Wf t) (ht' : c.Wf t') :
    (t'.filter c.missing).length
      = (t.filter fun r => !c.archived r && c.isArchivedIn (c.sweep t') r).length := by
  refine ((List.perm_ext_iff_of_nodup ((List.Nodup.of_map _ ht'.ids).filter _)
    ((List.Nodup.of_map _ ht.ids).filter _)).mpr fun r => ?_).length_eq
  simp only [List.mem_filter, missing_iff_archived hu ht ht' r, Bool.and_eq_true,
    Bool.not_eq_eq_eq_not, Bool.not_true]

variable (hfresh : ∀ r ∈ t, c.marked r = false)
include hfresh

/-- After upserts of an unmarked table, the marked rows are the seen ones. -/
theorem seen_of_marked {r : R} (hr : r ∈ t') (hm : c.marked r) : ∃ k ∈ keys, c.Seen k r := by
  rcases hu.came r hr with hs | ⟨hr, -⟩
  · exact hs
  · rw [hfresh r hr] at hm
    cases hm

/-- **The live rows are the keys of the snapshot**, one row for each. -/
theorem live_sweep [DecidableEq K] (ht' : c.Wf t') :
    (((c.sweep t').filter c.live).map c.key).Perm (keys.dedup.map some) := by
  have hseen : ∀ r ∈ (c.sweep t').filter c.live, r ∈ t' ∧ ∃ k ∈ keys, c.Seen k r := by
    intro r hr
    obtain ⟨hr, hlive⟩ := List.mem_filter.mp hr
    obtain ⟨hr, hm⟩ := (mem_sweep_of_live hlive).mp hr
    exact ⟨hr, seen_of_marked hu hfresh hr hm⟩
  have hnodup : ((c.sweep t').filter c.live).Nodup :=
    (List.Nodup.of_map _ (Table.keyed_update c.id_archive ht'.ids)).filter _
  refine (List.perm_ext_iff_of_nodup (hnodup.map_on fun a ha b hb he => ?_)
    (keys.nodup_dedup.map fun _ _ => Option.some.inj)).mpr fun o => ?_
  · obtain ⟨ha, k, -, hk, -⟩ := hseen a ha
    exact ht'.keys a ha b (hseen b hb).1 he (by simp [hk])
  · simp only [List.mem_map, List.mem_dedup]
    constructor
    · rintro ⟨r, hr, rfl⟩
      obtain ⟨-, k, hk, he, -⟩ := hseen r hr
      exact ⟨k, hk, he.symm⟩
    · rintro ⟨k, hk, rfl⟩
      obtain ⟨r, hr, he, hlive, hm⟩ := hu.all k hk
      exact ⟨r, List.mem_filter.mpr ⟨(mem_sweep_of_live hlive).mpr ⟨hr, hm⟩, hlive⟩, he⟩

end Reconcile

end Snapshot
