import Mathlib.Data.List.Basic

/-!
# Machinery/Cascade — what a DELETE takes with it

    DELETE p ▸ the rows of p ──cascade──▸ rows that refer to them ──cascade──▸ …      gone
               a row that stays and refers to one of them  ▸ its key is set to NULL
                                                           ▸ or the statement is refused

The rows that go are closed under the keys that cascade (`Deleted`); `gone` computes them
(`mem_gone`), for a round that takes nothing more is the last one.  A `DELETE` is refused just if a
row that stays refers to a row that goes by a key without an action (`delete_eq_none_iff`).
-/

namespace Cascade

/-- The action of a foreign key. -/
inductive OnDelete
  | noAction | cascade | setNull
  deriving DecidableEq, Repr

/-- Foreign keys `F` of rows `R`: their actions, which row refers to which, and a row without the
reference. -/
structure Schema (R F : Type) where
  keys : List F
  onDelete : F → OnDelete
  refersTo : F → R → R → Bool
  setNull : F → R → R

namespace Schema

section Definitions

variable {R F : Type} (schema : Schema R F)

/-- The first row goes with the second. -/
def cascades (child parent : R) : Bool :=
  schema.keys.any fun k => schema.onDelete k = .cascade && schema.refersTo k child parent

/-- **The rows that go with those of `p`.** -/
inductive Deleted (rows : List R) (p : R → Bool) : R → Prop
  | target {r : R} (hr : r ∈ rows) (hp : p r) : Deleted rows p r
  | cascade {child parent : R} (hparent : Deleted rows p parent) (hr : child ∈ rows)
      (hcascades : schema.cascades child parent) : Deleted rows p child

/-- A row that stays, without the references that are set to `NULL`. -/
def clear (gone : List R) (r : R) : R :=
  schema.keys.foldl (fun r' k =>
    if schema.onDelete k = .setNull && gone.any (schema.refersTo k r) then schema.setNull k r' else r') r

/-- The row refers to one that is gone, by a key without an action. -/
def blocks (gone : List R) (r : R) : Bool :=
  schema.keys.any fun k => schema.onDelete k = .noAction && gone.any (schema.refersTo k r)

variable [DecidableEq R]

/-- The rows that are not gone yet, and go with one that is. -/
def next (rows gone : List R) : List R :=
  rows.filter fun r => r ∉ gone && gone.any (schema.cascades r)

/-- What is gone after some rounds. -/
def spread (rows : List R) : Nat → List R → List R
  | 0, gone => gone
  | n + 1, gone => spread rows n (gone ++ schema.next rows gone)

/-- The rows that go with those of `p`, computed. -/
def gone (rows : List R) (p : R → Bool) : List R :=
  schema.spread rows rows.length (rows.filter p)

/-- `DELETE FROM … WHERE p`. -/
def delete (rows : List R) (p : R → Bool) : Option (List R) :=
  let gone := schema.gone rows p
  let kept := rows.filter (· ∉ gone)
  if kept.any (schema.blocks gone) then none else some (kept.map (schema.clear gone))

/-- **What a `DELETE` leaves**: the rows that do not go, without their references to those that do. -/
def Leaves (rows : List R) (p : R → Bool) (rows' : List R) : Prop :=
  ∃ gone, (∀ r, r ∈ gone ↔ schema.Deleted rows p r) ∧
    rows' = (rows.filter (· ∉ gone)).map (schema.clear gone)

end Definitions

variable {R F : Type} {schema : Schema R F} {rows : List R} {p : R → Bool}

theorem Deleted.mem {r : R} (h : schema.Deleted rows p r) : r ∈ rows := by
  cases h with
  | target hr => exact hr
  | cascade _ hr => exact hr

variable [DecidableEq R]

/-! ## The rounds -/

theorem mem_next {gone : List R} {r : R} :
    r ∈ schema.next rows gone ↔
      r ∈ rows ∧ r ∉ gone ∧ ∃ parent ∈ gone, schema.cascades r parent := by
  simp [next, List.mem_filter]

/-- A round takes only what goes. -/
theorem deleted_of_mem_spread (n : Nat) {gone : List R}
    (h : ∀ r ∈ gone, schema.Deleted rows p r) :
    ∀ r ∈ schema.spread rows n gone, schema.Deleted rows p r := by
  induction n generalizing gone with
  | zero => exact h
  | succ n ih =>
    refine ih fun r hr => ?_
    rcases List.mem_append.mp hr with hr | hr
    · exact h r hr
    · obtain ⟨hrow, -, parent, hparent, hcascades⟩ := mem_next.mp hr
      exact .cascade (h parent hparent) hrow hcascades

theorem subset_spread (n : Nat) (gone : List R) : gone ⊆ schema.spread rows n gone := by
  induction n generalizing gone with
  | zero => exact List.Subset.refl gone
  | succ n ih => exact List.Subset.trans (List.subset_append_left gone _) (ih _)

/-- A round that takes nothing is the last one. -/
theorem spread_of_closed (n : Nat) {gone : List R} (h : schema.next rows gone = []) :
    schema.spread rows n gone = gone := by
  induction n with
  | zero => rfl
  | succ n ih => rw [spread, h, List.append_nil, ih]

/-- A round that takes something leaves fewer rows. -/
theorem stays_lt {gone : List R} {r : R} (hr : r ∈ schema.next rows gone) :
    (rows.filter (· ∉ gone ++ schema.next rows gone)).length < (rows.filter (· ∉ gone)).length := by
  have hsplit : rows.filter (· ∉ gone ++ schema.next rows gone) =
      (rows.filter (· ∉ gone)).filter (· ∉ schema.next rows gone) := by
    rw [List.filter_filter]
    refine List.filter_congr fun a _ => ?_
    simp [List.mem_append, Bool.and_comm]
  rw [hsplit, List.length_filter_lt_length_iff_exists]
  obtain ⟨hrow, hout, -⟩ := mem_next.mp hr
  exact ⟨r, List.mem_filter.mpr ⟨hrow, by simpa using hout⟩, by simpa using hr⟩

/-- **After as many rounds as there are rows nothing more goes.** -/
theorem closed_spread (n : Nat) {gone : List R} (h : (rows.filter (· ∉ gone)).length ≤ n) :
    schema.next rows (schema.spread rows n gone) = [] := by
  induction n generalizing gone with
  | zero =>
    refine List.eq_nil_iff_forall_not_mem.mpr fun r hr => ?_
    obtain ⟨hrow, hout, -⟩ := mem_next.mp hr
    change r ∉ gone at hout
    have hmem : r ∈ rows.filter (· ∉ gone) := List.mem_filter.mpr ⟨hrow, by simpa using hout⟩
    rw [List.length_eq_zero_iff.mp (Nat.le_zero.mp h)] at hmem
    cases hmem
  | succ n ih =>
    by_cases hnil : schema.next rows gone = []
    · rw [spread_of_closed (n + 1) hnil]
      exact hnil
    · obtain ⟨r, hr⟩ := List.exists_mem_of_ne_nil _ hnil
      exact ih (Nat.le_of_lt_succ (Nat.lt_of_lt_of_le (stays_lt hr) h))

/-- **The rows that go are the rows that are gone.** -/
theorem mem_gone {r : R} : r ∈ schema.gone rows p ↔ schema.Deleted rows p r := by
  constructor
  · refine deleted_of_mem_spread rows.length (fun r hr => ?_) r
    obtain ⟨hrow, hp⟩ := List.mem_filter.mp hr
    exact .target hrow hp
  · intro h
    induction h with
    | target hr hp => exact subset_spread _ _ (List.mem_filter.mpr ⟨hr, hp⟩)
    | @cascade child parent _ hr hcascades ih =>
      by_contra hout
      have hnext : child ∈ schema.next rows (schema.gone rows p) :=
        mem_next.mpr ⟨hr, hout, parent, ih, hcascades⟩
      rw [gone, closed_spread rows.length (List.length_filter_le _ _)] at hnext
      cases hnext

/-! ## The statement -/

/-- **When a `DELETE` is refused**: a row that stays refers to one that goes. -/
theorem delete_eq_none_iff : schema.delete rows p = none ↔
    ∃ r ∈ rows, ¬ schema.Deleted rows p r ∧ ∃ k ∈ schema.keys, schema.onDelete k = .noAction ∧
      ∃ parent, schema.Deleted rows p parent ∧ schema.refersTo k r parent := by
  have hblocks : ∀ r, schema.blocks (schema.gone rows p) r ↔
      ∃ k ∈ schema.keys, schema.onDelete k = .noAction ∧
        ∃ parent, schema.Deleted rows p parent ∧ schema.refersTo k r parent := by
    intro r
    simp only [blocks, List.any_eq_true, Bool.and_eq_true, decide_eq_true_eq, mem_gone]
  rw [delete]
  simp only [ite_eq_left_iff, reduceCtorEq, imp_false, not_not, List.any_eq_true, List.mem_filter,
    decide_eq_true_eq, mem_gone, hblocks, and_assoc]

/-- What one leaves that is not. -/
theorem leaves_of_delete {rows' : List R} (h : schema.delete rows p = some rows') :
    schema.Leaves rows p rows' := by
  unfold delete at h
  dsimp only at h
  split at h
  · cases h
  · exact ⟨schema.gone rows p, fun _ => mem_gone, (Option.some.inj h).symm⟩

/-- There is one outcome. -/
theorem Leaves.unique {rows₁ rows₂ : List R} (h₁ : schema.Leaves rows p rows₁)
    (h₂ : schema.Leaves rows p rows₂) : rows₁ = rows₂ := by
  obtain ⟨gone₁, hgone₁, rfl⟩ := h₁
  obtain ⟨gone₂, hgone₂, rfl⟩ := h₂
  have hmem : ∀ r, r ∈ gone₁ ↔ r ∈ gone₂ := fun r => (hgone₁ r).trans (hgone₂ r).symm
  have hany : ∀ q : R → Bool, gone₁.any q = gone₂.any q := fun q => by
    rw [Bool.eq_iff_iff, List.any_eq_true, List.any_eq_true]
    exact exists_congr fun r => and_congr_left fun _ => hmem r
  have hclear : schema.clear gone₁ = schema.clear gone₂ := by
    funext r
    unfold clear
    simp only [hany]
  rw [hclear]
  refine congrArg _ (List.filter_congr fun r _ => ?_)
  simp [hmem r]

/-! ## Rows that nothing refers to -/

/-- No row refers to the rows of `p`. -/
def Unreferred (schema : Schema R F) (p : R → Bool) : Prop :=
  ∀ k ∈ schema.keys, ∀ child parent, p parent → schema.refersTo k child parent = false

omit [DecidableEq R] in
theorem Unreferred.cascades (h : schema.Unreferred p) {child parent : R} (hp : p parent) :
    schema.cascades child parent = false := by
  rw [Schema.cascades, List.any_eq_false]
  intro k hk
  simp [h k hk child parent hp]

omit [DecidableEq R] in
/-- Only references to rows that are gone are cleared. -/
theorem clear_congr {gone gone' : List R} {r : R}
    (h : ∀ k ∈ schema.keys, gone.any (schema.refersTo k r) = gone'.any (schema.refersTo k r)) :
    schema.clear gone r = schema.clear gone' r :=
  List.foldl_ext _ _ _ fun _ k hk => by rw [h k hk]

omit [DecidableEq R] in
/-- What no key sets stays as it is. -/
theorem clear_eq {α : Type} (f : R → α) (hset : ∀ k ∈ schema.keys, ∀ r, f (schema.setNull k r) = f r)
    (gone : List R) (r : R) : f (schema.clear gone r) = f r := by
  have hfold : ∀ (keys : List F) (r' : R), (∀ k ∈ keys, k ∈ schema.keys) →
      f (keys.foldl (fun r' k =>
        if schema.onDelete k = .setNull && gone.any (schema.refersTo k r) then schema.setNull k r'
        else r') r') = f r' := by
    intro keys
    induction keys with
    | nil => exact fun _ _ => rfl
    | cons k keys ih =>
      intro r' hkeys
      obtain ⟨hk, hkeys⟩ := List.forall_mem_cons.mp hkeys
      rw [List.foldl_cons, ih _ hkeys]
      split
      · exact hset k hk r'
      · rfl
  exact hfold schema.keys r fun _ hk => hk

omit [DecidableEq R] in
/-- **A row that one key alone makes forget something.** -/
theorem clear_of_only (k₀ : F) {gone : List R} {r : R} (hk : k₀ ∈ schema.keys)
    (hset : schema.onDelete k₀ = .setNull)
    (honly : ∀ k ∈ schema.keys, schema.onDelete k = .setNull → gone.any (schema.refersTo k r) → k = k₀)
    (hagain : schema.setNull k₀ (schema.setNull k₀ r) = schema.setNull k₀ r) :
    schema.clear gone r = if gone.any (schema.refersTo k₀ r) then schema.setNull k₀ r else r := by
  split
  · next hrefers =>
    have hcleared : ∀ keys : List F, (∀ k ∈ keys, k ∈ schema.keys) →
        keys.foldl (fun r' k =>
          if schema.onDelete k = .setNull && gone.any (schema.refersTo k r) then schema.setNull k r'
          else r') (schema.setNull k₀ r) = schema.setNull k₀ r := by
      intro keys
      induction keys with
      | nil => exact fun _ => rfl
      | cons k keys ih =>
        intro hkeys
        obtain ⟨hkey, hkeys⟩ := List.forall_mem_cons.mp hkeys
        rw [List.foldl_cons]
        split
        · next hfires =>
          obtain ⟨hnull, hany⟩ := Bool.and_eq_true_iff.mp hfires
          obtain rfl := honly k hkey (of_decide_eq_true hnull) hany
          rw [hagain]
          exact ih hkeys
        · exact ih hkeys
    have hfold : ∀ keys : List F, (∀ k ∈ keys, k ∈ schema.keys) → k₀ ∈ keys →
        keys.foldl (fun r' k =>
          if schema.onDelete k = .setNull && gone.any (schema.refersTo k r) then schema.setNull k r'
          else r') r = schema.setNull k₀ r := by
      intro keys
      induction keys with
      | nil => exact fun _ hmem => (List.not_mem_nil hmem).elim
      | cons k keys ih =>
        intro hkeys hmem
        obtain ⟨hkey, hkeys⟩ := List.forall_mem_cons.mp hkeys
        rw [List.foldl_cons]
        split
        · next hfires =>
          obtain ⟨hnull, hany⟩ := Bool.and_eq_true_iff.mp hfires
          obtain rfl := honly k hkey (of_decide_eq_true hnull) hany
          exact hcleared keys hkeys
        · next hquiet =>
          refine ih hkeys ((List.mem_cons.mp hmem).resolve_left fun heq => hquiet ?_)
          rw [← heq, hset, hrefers]
          rfl
    exact hfold schema.keys (fun _ h => h) hk
  · next hrefers =>
    have hnone : schema.clear gone r = schema.clear [] r := by
      unfold clear
      refine List.foldl_ext _ _ _ fun r' k hkey => ?_
      by_cases hnull : schema.onDelete k = .setNull
      · by_cases hany : gone.any (schema.refersTo k r)
        · obtain rfl := honly k hkey hnull hany
          exact absurd hany hrefers
        · simp [hany]
      · simp [hnull]
    rw [hnone]
    simp [clear]

omit [DecidableEq R] in
theorem Unreferred.any {gone : List R} (h : schema.Unreferred p) (hp : ∀ r ∈ gone, p r)
    {k : F} (hk : k ∈ schema.keys) (r : R) : gone.any (schema.refersTo k r) = false := by
  rw [List.any_eq_false]
  intro parent hparent
  simp [h k hk r parent (hp parent hparent)]

omit [DecidableEq R] in
theorem Unreferred.deleted_iff (h : schema.Unreferred p) {r : R} :
    schema.Deleted rows p r ↔ r ∈ rows ∧ p r := by
  constructor
  · intro hdel
    induction hdel with
    | target hr hp => exact ⟨hr, hp⟩
    | cascade _ _ hcascades ih =>
      rw [h.cascades ih.2] at hcascades
      cases hcascades
  · rintro ⟨hr, hp⟩
    exact .target hr hp

/-- **Rows that nothing refers to go alone.** -/
theorem delete_of_unreferred (h : schema.Unreferred p) :
    schema.delete rows p = some (rows.filter fun r => !p r) := by
  cases hdel : schema.delete rows p with
  | none =>
    obtain ⟨r, -, -, k, hk, -, parent, hparent, hrefers⟩ := delete_eq_none_iff.mp hdel
    rw [h k hk r parent (h.deleted_iff.mp hparent).2] at hrefers
    cases hrefers
  | some rows' =>
    obtain ⟨gone, hgone, rfl⟩ := leaves_of_delete hdel
    have hp : ∀ r ∈ gone, p r := fun r hr => (h.deleted_iff.mp ((hgone r).mp hr)).2
    have hclear : ∀ r, schema.clear gone r = r := by
      intro r
      have hnone : schema.clear gone r = schema.clear [] r :=
        clear_congr fun k hk => h.any hp hk r
      rw [hnone]
      simp [clear]
    rw [List.map_congr_left (fun r _ => hclear r), List.map_id']
    refine congrArg some (List.filter_congr fun r hr => ?_)
    simp [hgone r, h.deleted_iff, hr]

omit [DecidableEq R] in
/-- What goes with rows that nothing refers to and with others. -/
theorem Unreferred.deleted_or_iff {q : R → Bool} (h : schema.Unreferred p) {r : R} :
    schema.Deleted rows (fun r => p r || q r) r ↔
      (r ∈ rows ∧ p r) ∨ schema.Deleted (rows.filter fun r => !p r) q r := by
  constructor
  · intro hdel
    induction hdel with
    | @target r hr hpq =>
      by_cases hp : p r
      · exact .inl ⟨hr, hp⟩
      · have hq : q r := by simpa [hp] using hpq
        exact .inr (.target (List.mem_filter.mpr ⟨hr, by simpa using hp⟩) hq)
    | @cascade child parent _ hr hcascades ih =>
      rcases ih with ⟨-, hparent⟩ | hparent
      · rw [h.cascades hparent] at hcascades
        cases hcascades
      · by_cases hp : p child
        · exact .inl ⟨hr, hp⟩
        · exact .inr (.cascade hparent (List.mem_filter.mpr ⟨hr, by simpa using hp⟩) hcascades)
  · rintro (⟨hr, hp⟩ | hdel)
    · exact .target hr (by simp [hp])
    · induction hdel with
      | target hr hq => exact .target (List.mem_filter.mp hr).1 (by simp [hq])
      | cascade _ hr hcascades ih => exact .cascade ih (List.mem_filter.mp hr).1 hcascades

/-- **Rows that nothing refers to, and then others**: as if they went together. -/
theorem Unreferred.leaves {q : R → Bool} {rows' : List R} (h : schema.Unreferred p)
    (hleaves : schema.Leaves (rows.filter fun r => !p r) q rows') :
    schema.Leaves rows (fun r => p r || q r) rows' := by
  obtain ⟨gone, hgone, rfl⟩ := hleaves
  refine ⟨rows.filter p ++ gone, fun r => ?_, ?_⟩
  · rw [h.deleted_or_iff, List.mem_append, List.mem_filter, hgone]
  · have hclear : ∀ r, schema.clear gone r = schema.clear (rows.filter p ++ gone) r := by
      intro r
      refine clear_congr fun k hk => ?_
      rw [List.any_append, h.any (fun a ha => (List.mem_filter.mp ha).2) hk, Bool.false_or]
    rw [List.map_congr_left fun r _ => hclear r, List.filter_filter]
    refine congrArg _ (List.filter_congr fun r hr => ?_)
    by_cases hp : p r
    · simp [hr, hp]
    · simp [hp]

omit [DecidableEq R] in
/-- What goes with others and with rows that nothing refers to. -/
theorem Unreferred.or_deleted_iff {q : R → Bool} (h : schema.Unreferred p) {r : R} :
    schema.Deleted rows (fun r => q r || p r) r ↔ schema.Deleted rows q r ∨ (r ∈ rows ∧ p r) := by
  constructor
  · intro hdel
    induction hdel with
    | @target r hr hqp =>
      rcases (Bool.or_eq_true _ _).mp hqp with hq | hp
      · exact .inl (.target hr hq)
      · exact .inr ⟨hr, hp⟩
    | @cascade child parent _ hr hcascades ih =>
      rcases ih with hparent | ⟨-, hparent⟩
      · exact .inl (.cascade hparent hr hcascades)
      · rw [h.cascades hparent] at hcascades
        cases hcascades
  · rintro (hdel | ⟨hr, hp⟩)
    · induction hdel with
      | target hr hq => exact .target hr (by simp [hq])
      | cascade _ hr hcascades ih => exact .cascade ih hr hcascades
    · exact .target hr (by simp [hp])

/-- **Others, and then rows that nothing refers to**: as if they went together, where a cleared
reference makes no difference to the second statement. -/
theorem Leaves.unreferred {q : R → Bool} {rows' : List R} (hleaves : schema.Leaves rows q rows')
    (h : schema.Unreferred p) (hclear : ∀ gone r, p (schema.clear gone r) = p r) :
    schema.Leaves rows (fun r => q r || p r) (rows'.filter fun r => !p r) := by
  obtain ⟨gone, hgone, rfl⟩ := hleaves
  refine ⟨gone ++ rows.filter p, fun r => ?_, ?_⟩
  · rw [h.or_deleted_iff, List.mem_append, List.mem_filter, hgone]
  · have hsame : ∀ r, schema.clear gone r = schema.clear (gone ++ rows.filter p) r := by
      intro r
      refine clear_congr fun k hk => ?_
      rw [List.any_append, h.any (fun a ha => (List.mem_filter.mp ha).2) hk, Bool.or_false]
    have hfilter : ((rows.filter (· ∉ gone)).map (schema.clear gone)).filter (fun r => !p r) =
        ((rows.filter (· ∉ gone)).filter fun r => !p r).map (schema.clear gone) := by
      rw [List.filter_map]
      refine congrArg _ (List.filter_congr fun r _ => ?_)
      rw [Function.comp_apply, hclear]
    rw [hfilter, List.map_congr_left fun r _ => hsame r, List.filter_filter]
    refine congrArg _ (List.filter_congr fun r hr => ?_)
    by_cases hp : p r
    · simp [hr, hp]
    · simp [hp]

/-- A statement about no row leaves every row. -/
theorem leaves_self (h : ∀ r ∈ rows, ¬ p r) : schema.Leaves rows p rows := by
  refine ⟨[], fun r => ⟨fun hr => absurd hr List.not_mem_nil, fun hdel => ?_⟩, ?_⟩
  · induction hdel with
    | target hr hp => exact absurd hp (h _ hr)
    | cascade _ _ _ ih => exact absurd ih List.not_mem_nil
  · have hclear : ∀ r, schema.clear [] r = r := fun r => by simp [clear]
    simp [List.map_congr_left fun r _ => hclear r]

theorem leaves_none : schema.Leaves rows (fun _ => false) rows :=
  leaves_self fun _ _ => Bool.false_ne_true

end Schema

end Cascade
