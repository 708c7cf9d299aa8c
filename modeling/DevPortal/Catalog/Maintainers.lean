import DevPortal.Catalog.Schema

/-!
# Catalog/Maintainers — deleting a maintainer

    DELETE maintainer_members ▸ committed
    DELETE maintainers        ▸ committed, or refused: the members are gone all the same

The two statements share no transaction.  What they leave when both succeed is what one statement
for the maintainer and its members would leave (`leaves_of_delete_ok`); an error of the second leaves
what the first has done.
-/

namespace DevPortal

/-! ## A connection -/

/-- What a statement fails with. -/
inductive StatementError
  | foreignKeyViolation
  | connectionLost
  deriving DecidableEq, Repr

/-- The rows, and how many more statements the connection carries, if it is going to be lost. -/
structure PgConnection where
  rows : List DbRow
  left : Option Nat
  deriving Repr

/-- Statements on a connection, each committed on its own. -/
abbrev QueryResult (α : Type) := ExceptT StatementError (StateM PgConnection) α

/-- `DELETE FROM … WHERE p`, and the number of rows it deletes. -/
def deleteRows (p : DbRow → Bool) : QueryResult Nat := fun s =>
  if s.left = some 0 then (.error .connectionLost, s)
  else
    let left := s.left.map (· - 1)
    match portalSchema.delete s.rows p with
    | none => (.error .foreignKeyViolation, ⟨s.rows, left⟩)
    | some rows => (.ok (s.rows.filter p).length, ⟨rows, left⟩)

/-! ## The repository -/

/-- `maintainer_members::maintainer_id.eq(id)`. -/
def isMemberOf (id : Int) (r : DbRow) : Bool :=
  r.table = .maintainerMembers && r.column "maintainer_id" = some (.id id)

/-- `maintainers::table.find(id)`. -/
def isMaintainer (id : Int) (r : DbRow) : Bool :=
  r.table = .maintainers && r.column "id" = some (.id id)

/-- `MaintainerRepository::delete`. -/
def MaintainerRepository.delete (id : Int) : QueryResult Nat := do
  let _ ← deleteRows (isMemberOf id)
  deleteRows (isMaintainer id)

/-- What it comes to: its result, and what the connection is then. -/
def runDelete (id : Int) (s : PgConnection) :
    Except StatementError Nat × PgConnection :=
  (MaintainerRepository.delete id).run.run s

/-! ## What the statements do -/

theorem unreferred_members (id : Int) : portalSchema.Unreferred (isMemberOf id) := by
  refine unreferred_of_leaf fun r hr => ?_
  obtain ⟨htable, -⟩ := Bool.and_eq_true_iff.mp hr
  rw [of_decide_eq_true htable]
  decide

/-- A package or a service of the maintainer refers to it. -/
def Referenced (id : Int) (rows : List DbRow) : Prop :=
  (∃ r ∈ rows, isMaintainer id r) ∧
    ∃ r ∈ rows, (r.table = .packages ∨ r.table = .services) ∧
      r.column "maintainer_id" = some (.id id)

/-- The keys without an action that speak of maintainers. -/
theorem noAction_keys : ∀ k ∈ foreignKeys, k.onDelete = .noAction → k.parent.Fixed ∧
    (k.parent = .maintainers → (k.table = .packages ∨ k.table = .services) ∧
      k.column = "maintainer_id" ∧ k.parentColumn = "id") := by
  decide

/-- **The second statement is refused just if a package or a service refers to the maintainer.** -/
theorem delete_maintainer_eq_none_iff {id : Int} {rows : List DbRow} :
    portalSchema.delete rows (isMaintainer id) = none ↔ Referenced id rows := by
  rw [Cascade.Schema.delete_eq_none_iff]
  constructor
  · rintro ⟨r, hr, -, k, hk, haction, parent, hparent, hrefers⟩
    obtain ⟨htable, hptable, value, hvalue, hpvalue⟩ := ForeignKey.refersTo_iff.mp hrefers
    obtain ⟨hfixed, hkey⟩ := noAction_keys k hk haction
    have hmaintainer : isMaintainer id parent := target_of_fixed (hptable ▸ hfixed) hparent
    obtain ⟨hmtable, hid⟩ := Bool.and_eq_true_iff.mp hmaintainer
    obtain ⟨hchild, hcolumn, hpcolumn⟩ := hkey (hptable.symm.trans (of_decide_eq_true hmtable))
    refine ⟨⟨parent, hparent.mem, hmaintainer⟩, r, hr, htable ▸ hchild, ?_⟩
    rw [← hcolumn, hvalue, ← hpvalue, hpcolumn]
    exact of_decide_eq_true hid
  · rintro ⟨⟨parent, hparent, hmaintainer⟩, r, hr, htable, hcolumn⟩
    obtain ⟨hmtable, hid⟩ := Bool.and_eq_true_iff.mp hmaintainer
    have hfixed : r.table.Fixed := by
      rcases htable with htable | htable
      · rw [htable]
        decide
      · rw [htable]
        decide
    refine ⟨r, hr, fun hdel => ?_, .toId r.table "maintainer_id" .maintainers .noAction, ?_, rfl,
      parent, .target hparent hmaintainer, ForeignKey.refersTo_iff.mpr
        ⟨rfl, of_decide_eq_true hmtable, _, hcolumn, of_decide_eq_true hid⟩⟩
    · have hsame := (Bool.and_eq_true_iff.mp (target_of_fixed hfixed hdel)).1
      rw [of_decide_eq_true hsame] at htable
      simp at htable
    · rcases htable with htable | htable
      · rw [htable]
        decide
      · rw [htable]
        decide

/-! ## What the calls do -/

/-- The maintainer and its members. -/
def isMaintainerOrMember (id : Int) (r : DbRow) : Bool := isMemberOf id r || isMaintainer id r

theorem isMemberOf_eq_false {id : Int} {r : DbRow} (h : r.table ≠ .maintainerMembers) :
    isMemberOf id r = false := by
  simp [isMemberOf, h]

/-- The members do not matter to what refers to the maintainer. -/
theorem referenced_filter {id : Int} {rows : List DbRow} :
    Referenced id (rows.filter fun r => !isMemberOf id r) ↔ Referenced id rows := by
  have hmaintainer : ∀ r, isMaintainer id r → isMemberOf id r = false := by
    intro r hr
    refine isMemberOf_eq_false fun htable => ?_
    rw [isMaintainer, htable] at hr
    simp at hr
  have hchild : ∀ r : DbRow, r.table = .packages ∨ r.table = .services →
      isMemberOf id r = false := by
    rintro r (htable | htable)
    all_goals
      refine isMemberOf_eq_false ?_
      rw [htable]
      decide
  constructor
  · rintro ⟨⟨m, hm, hid⟩, r, hr, hcolumn⟩
    exact ⟨⟨m, (List.mem_filter.mp hm).1, hid⟩, r, (List.mem_filter.mp hr).1, hcolumn⟩
  · rintro ⟨⟨m, hm, hid⟩, r, hr, htable, hcolumn⟩
    exact ⟨⟨m, List.mem_filter.mpr ⟨hm, by simp [hmaintainer m hid]⟩, hid⟩, r,
      List.mem_filter.mpr ⟨hr, by simp [hchild r htable]⟩, htable, hcolumn⟩

/-- The calls, by how far they come. -/
inductive DeleteOutcome (id : Int) (s : PgConnection) :
    Except StatementError Nat × PgConnection → Prop
  /-- The connection is lost before the first statement. -/
  | lost (hleft : s.left = some 0) : DeleteOutcome id s (.error .connectionLost, s)
  /-- It is lost between the two. -/
  | between (hleft : s.left = some 1) : DeleteOutcome id s (.error .connectionLost,
      ⟨s.rows.filter fun r => !isMemberOf id r, some 0⟩)
  /-- The second statement is refused. -/
  | refused (hleft : s.left ≠ some 0 ∧ s.left ≠ some 1) (href : Referenced id s.rows)
      (left : Option Nat) : DeleteOutcome id s (.error .foreignKeyViolation,
      ⟨s.rows.filter fun r => !isMemberOf id r, left⟩)
  /-- Both succeed. -/
  | done (hleft : s.left ≠ some 0 ∧ s.left ≠ some 1) (href : ¬ Referenced id s.rows)
      {rows : List DbRow} (hrows : portalSchema.Leaves s.rows (isMaintainerOrMember id) rows)
      (n : Nat) (left : Option Nat) : DeleteOutcome id s (.ok n, ⟨rows, left⟩)

/-- The first statement always succeeds, if it is carried out. -/
theorem deleteRows_members (id : Int) {s : PgConnection} (h : s.left ≠ some 0) :
    deleteRows (isMemberOf id) s = (.ok (s.rows.filter (isMemberOf id)).length,
      ⟨s.rows.filter fun r => !isMemberOf id r, s.left.map (· - 1)⟩) := by
  rw [deleteRows, if_neg h, Cascade.Schema.delete_of_unreferred (unreferred_members id)]

/-- The second statement follows the first, if that succeeds. -/
theorem runDelete_eq (id : Int) (s : PgConnection) :
    runDelete id s = ExceptT.bindCont (fun _ => deleteRows (isMaintainer id))
      (deleteRows (isMemberOf id) s).1 (deleteRows (isMemberOf id) s).2 := rfl

theorem runDelete_of_left {id : Int} {s : PgConnection} (h : s.left ≠ some 0) :
    runDelete id s = deleteRows (isMaintainer id)
      ⟨s.rows.filter fun r => !isMemberOf id r, s.left.map (· - 1)⟩ := by
  rw [runDelete_eq, deleteRows_members id h]
  rfl

theorem deleteOutcome_runDelete (id : Int) (s : PgConnection) :
    DeleteOutcome id s (runDelete id s) := by
  by_cases hzero : s.left = some 0
  · have hlost : deleteRows (isMemberOf id) s = (.error .connectionLost, s) := if_pos hzero
    have hrun : runDelete id s = (.error .connectionLost, s) := by
      rw [runDelete_eq, hlost]
      rfl
    rw [hrun]
    exact .lost hzero
  rw [runDelete_of_left hzero, deleteRows]
  by_cases hone : s.left = some 1
  · rw [if_pos (by rw [hone]; rfl), hone]
    exact .between hone
  have hleft : s.left.map (· - 1) ≠ some 0 := by
    intro hmap
    obtain ⟨n, hn, hsub⟩ := Option.map_eq_some_iff.mp hmap
    have hcases : n = 0 ∨ n = 1 := by omega
    rcases hcases with rfl | rfl
    · exact hzero hn
    · exact hone hn
  rw [if_neg hleft]
  dsimp only
  cases hdel : portalSchema.delete (s.rows.filter fun r => !isMemberOf id r) (isMaintainer id) with
  | none =>
    exact .refused ⟨hzero, hone⟩ (referenced_filter.mp (delete_maintainer_eq_none_iff.mp hdel)) _
  | some rows =>
    refine .done ⟨hzero, hone⟩ (fun href => ?_)
      ((unreferred_members id).leaves (Cascade.Schema.leaves_of_delete hdel)) _ _
    rw [delete_maintainer_eq_none_iff.mpr (referenced_filter.mpr href)] at hdel
    cases hdel

/-- **When deleting a maintainer is atomic**: there are no members to lose, or no statement fails
after the first. -/
theorem maintainer_delete_atomic_iff (id : Int) (s : PgConnection) :
    ((∀ error, (runDelete id s).1 = .error error → (runDelete id s).2.rows = s.rows) ∧
        ∀ n, (runDelete id s).1 = .ok n →
          portalSchema.Leaves s.rows (isMaintainerOrMember id) (runDelete id s).2.rows) ↔
      (∀ r ∈ s.rows, isMemberOf id r = false) ∨ s.left = some 0 ∨
        (s.left ≠ some 1 ∧ ¬ Referenced id s.rows) := by
  have hfilter : (s.rows.filter fun r => !isMemberOf id r) = s.rows ↔
      ∀ r ∈ s.rows, isMemberOf id r = false := by
    simp [List.filter_eq_self]
  have houtcome := deleteOutcome_runDelete id s
  generalize runDelete id s = outcome at houtcome
  cases houtcome with
  | lost hleft => simp [hleft]
  | between hleft => simp [hleft, hfilter]
  | refused hleft href left => simp [hleft.1, href, hfilter]
  | done hleft href hrows => simp [hleft, href, hrows]

namespace Sample

/-- A maintainer, its owner, and its service. -/
def owned : List DbRow :=
  [⟨.maintainers, [("id", .id 1)]⟩,
    ⟨.maintainerMembers, [("id", .id 4), ("maintainer_id", .id 1), ("user_id", .id 7)]⟩,
    ⟨.services, [("id", .id 2), ("maintainer_id", .id 1)]⟩]

end Sample

/-- The deletion is refused, and the owner is gone. -/
theorem owner_is_lost :
    (runDelete 1 ⟨Sample.owned, none⟩).1 = .error .foreignKeyViolation ∧
      (runDelete 1 ⟨Sample.owned, none⟩).2.rows =
        [⟨.maintainers, [("id", .id 1)]⟩,
          ⟨.services, [("id", .id 2), ("maintainer_id", .id 1)]⟩] := by
  decide +kernel

end DevPortal
