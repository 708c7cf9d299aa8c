import DevPortal.Catalog.Routes

/-!
# Catalog/Rules — what each statement of the routes leaves

For each repository call one rule: what it may assume of the row it returns and of the tables before,
and what it leaves (`wp_upsertMember` and its neighbours).  A route is then read call by call.
-/

namespace DevPortal

open Autocommit

namespace Catalog

/-! ## What is left -/

/-- The columns of a maintainer set. -/
def Store.setMaintainer (d : Store) (id : Int) (new : NewMaintainer) : Store :=
  let set := fun m : Maintainer => { m with toNewMaintainer := new }
  { d with maintainers := Table.update (fun m => (m.id : Int) = id) set d.maintainers }

/-- The role of a member set. -/
def Store.setRole (d : Store) (new : NewMaintainerMember) : Store :=
  let same := MaintainerMember.isOf new.maintainerId new.userId
  { d with members := Table.update same (fun m => { m with role := new.role }) d.members }

/-- The store without a member. -/
def Store.dropMember (d : Store) (maintainerId userId : Int) : Store :=
  { d with members := Table.delete (MaintainerMember.isOf maintainerId userId) d.members }

/-- The columns of a package set. -/
def Store.setPackage (d : Store) (id : Nat) (new : NewPackage) : Store :=
  let set := fun p : Package => { p with toNewPackage := new, updatedAt := d.clock }
  { d with packages := Table.update (fun p => p.id = id) set d.packages }

/-- The columns of a service set. -/
def Store.setService (d : Store) (id : Nat) (new : NewService) : Store :=
  let set := fun s : Service => { s with toNewService := new, updatedAt := d.clock }
  { d with services := Table.update (fun s => s.id = id) set d.services }

theorem isOf_iff {maintainerId userId : Int} {m : MaintainerMember} :
    m.isOf maintainerId userId ↔ m.maintainerId = maintainerId ∧ m.userId = userId := by
  rw [MaintainerMember.isOf, Bool.and_eq_true, decide_eq_true_eq, decide_eq_true_eq]

section Rules

variable {P : List (Step Store) → Step Store → Prop} {E : ApiError → List (Step Store) → Prop}
  {past : List (Step Store)} {α : Type}

theorem wp_jsonBody {body : Option α} {Q : α → List (Step Store) → Prop} (hE : ∀ e p, E e p)
    (h : ∀ a, body = some a → Q a past) : (jsonBody body).wp P E Q past := by
  cases body with
  | none => exact wp_fails hE
  | some a => exact wp_returns (h a rfl)

theorem wp_validateRequest {validate : α → List FieldViolation} {request : α}
    {Q : α → List (Step Store) → Prop} (hE : ∀ e p, E e p) (h : Q request past) :
    (validateRequest validate request).wp P E Q past := by
  rw [validateRequest]
  split
  · exact wp_returns h
  · exact wp_fails hE

variable (hidle : ∀ past d, P past ⟨d, d⟩) (hE : ∀ e p, E e p)

include hidle hE

/-! ## Maintainers -/

theorem wp_createMaintainer {new : NewMaintainer} {Q : Maintainer → List (Step Store) → Prop}
    (h : ∀ (d : Store) (x : Maintainer), x.toNewMaintainer = new →
      P past ⟨d, { d with maintainers := d.maintainers ++ [x] }⟩ ∧
        Q x (⟨d, { d with maintainers := d.maintainers ++ [x] }⟩ :: past)) :
    (orFail (MaintainerRepository.create new)).wp P E Q past := by
  refine wp_statement hidle hE fun c d a d' hrun => ?_
  dsimp only at hrun
  split at hrun
  · cases hrun
  · obtain ⟨rfl, rfl⟩ := Prod.mk.inj (Except.ok.inj hrun)
    exact h d _ rfl

theorem wp_updateMaintainer {id : Int} {new : NewMaintainer}
    {Q : Maintainer → List (Step Store) → Prop}
    (h : ∀ d : Store, ∀ x ∈ (d.setMaintainer id new).maintainers, x.toNewMaintainer = new →
      (x.id : Int) = id → P past ⟨d, d.setMaintainer id new⟩ ∧
        Q x (⟨d, d.setMaintainer id new⟩ :: past)) :
    (orFail (MaintainerRepository.update id new)).wp P E Q past := by
  refine wp_statement hidle hE fun c d a d' hrun => ?_
  dsimp only at hrun
  cases hfind : getResult d.maintainers fun m => decide ((m.id : Int) = id) with
  | error e => rw [hfind] at hrun; cases hrun
  | ok row =>
    rw [hfind] at hrun
    obtain ⟨rfl, rfl⟩ := Prod.mk.inj (Except.ok.inj hrun)
    obtain ⟨hrow, hid⟩ := getResult_ok hfind
    exact h d { row with toNewMaintainer := new } (List.mem_map.mpr ⟨row, hrow, if_pos hid⟩) rfl
      (of_decide_eq_true hid)

theorem wp_deleteMaintainer {id : Int} {Q : Nat → List (Step Store) → Prop}
    (h₁ : ∀ d : Store, P past ⟨d, d.dropMembers id⟩)
    (h₂ : ∀ (s : Step Store) (d : Store) n, P (s :: past) ⟨d, d.dropMaintainer id⟩ ∧
      Q n (⟨d, d.dropMaintainer id⟩ :: s :: past))
    (h₃ : ∀ (s : Step Store) (d : Store) n, (∀ x ∈ d.maintainers, (x.id : Int) ≠ id) →
      Q n (⟨d, d⟩ :: s :: past)) :
    (orFail (MaintainerRepository.delete id)).wp P E Q past := by
  refine wp_orFail hE ?_
  rw [MaintainerRepository.delete, Routine.wp_bind]
  refine wp_query (hidle past) (fun c d a d' hrun => ?_) (fun _ _ _ hrun => (nomatch hrun))
    fun _ => wp_returns fun _ h => (nomatch h)
  obtain ⟨-, rfl⟩ := Prod.mk.inj (Except.ok.inj hrun)
  refine ⟨h₁ d, ?_, wp_returns fun _ h => (nomatch h)⟩
  refine wp_query (hidle _) (fun c d' a d'' hrun => ?_) (fun _ _ _ _ _ h => (nomatch h))
    fun _ _ h => (nomatch h)
  unfold Store.deleteMaintainer at hrun
  split at hrun
  · split at hrun
    · cases hrun
    · obtain ⟨rfl, rfl⟩ := Prod.mk.inj (Except.ok.inj hrun)
      exact ⟨(h₂ _ d' 1).1, fun b hb => Except.ok.inj hb ▸ (h₂ _ d' 1).2, fun _ h => (nomatch h)⟩
  · next hnone =>
    obtain ⟨rfl, rfl⟩ := Prod.mk.inj (Except.ok.inj hrun)
    refine ⟨hidle _ _, fun b hb => Except.ok.inj hb ▸ h₃ _ d' 0 fun x hx hid => hnone ?_,
      fun _ h => (nomatch h)⟩
    exact List.any_eq_true.mpr ⟨x, hx, decide_eq_true hid⟩

/-! ## Members -/

theorem wp_upsertMember {new : NewMaintainerMember}
    {Q : MaintainerMember → List (Step Store) → Prop}
    (hset : ∀ d : Store, ∀ x ∈ (d.setRole new).members, x.toNewMaintainerMember = new →
      P past ⟨d, d.setRole new⟩ ∧ Q x (⟨d, d.setRole new⟩ :: past))
    (hnew : ∀ (d : Store) (x : MaintainerMember), x.toNewMaintainerMember = new →
      P past ⟨d, { d with members := d.members ++ [x] }⟩ ∧
        Q x (⟨d, { d with members := d.members ++ [x] }⟩ :: past)) :
    (orFail (MaintainerMemberRepository.upsert new)).wp P E Q past := by
  refine wp_statement hidle hE fun c d a d' hrun => ?_
  dsimp only at hrun
  split at hrun
  · next row hfind =>
    obtain ⟨rfl, rfl⟩ := Prod.mk.inj (Except.ok.inj hrun)
    have hof := List.find?_some hfind
    obtain ⟨hm, hu⟩ := isOf_iff.mp hof
    refine hset d _ (List.mem_map.mpr ⟨row, List.mem_of_find?_eq_some hfind, if_pos hof⟩) ?_
    show NewMaintainerMember.mk row.maintainerId row.userId new.role = new
    rw [hm, hu]
  · split at hrun
    · obtain ⟨rfl, rfl⟩ := Prod.mk.inj (Except.ok.inj hrun)
      exact hnew d _ rfl
    · cases hrun

theorem wp_deleteMember {maintainerId userId : Int} {Q : Nat → List (Step Store) → Prop}
    (h : ∀ (d : Store) n, P past ⟨d, d.dropMember maintainerId userId⟩ ∧
      Q n (⟨d, d.dropMember maintainerId userId⟩ :: past)) :
    (orFail (MaintainerMemberRepository.deleteByMaintainerAndUser maintainerId userId)).wp P E Q
      past := by
  refine wp_statement hidle hE fun c d a d' hrun => ?_
  obtain ⟨rfl, rfl⟩ := Prod.mk.inj (Except.ok.inj hrun)
  exact h d _

/-! ## Packages and services -/

theorem wp_createPackage {new : NewPackage} {Q : Package → List (Step Store) → Prop}
    (h : ∀ (d : Store) (x : Package), x.toNewPackage = new → (∀ y ∈ d.packages, y.id ≠ x.id) →
      P past ⟨d, { d with packages := d.packages ++ [x] }⟩ ∧
        Q x (⟨d, { d with packages := d.packages ++ [x] }⟩ :: past)) :
    (orFail (PackageRepository.create new)).wp P E Q past := by
  refine wp_statement hidle hE fun c d a d' hrun => ?_
  dsimp only at hrun
  split at hrun
  · next hkeys =>
    obtain ⟨rfl, rfl⟩ := Prod.mk.inj (Except.ok.inj hrun)
    refine h d _ rfl fun y hy => ?_
    exact of_decide_eq_true (List.all_eq_true.mp (Bool.and_eq_true_iff.mp hkeys).2 y hy)
  · cases hrun

theorem wp_updatePackage {id : Int} {new : NewPackage} {Q : Package → List (Step Store) → Prop}
    (h : ∀ d : Store, ∀ x : Package, x ∈ (d.setPackage x.id new).packages → x.toNewPackage = new →
      (x.id : Int) = id → P past ⟨d, d.setPackage x.id new⟩ ∧
        Q x (⟨d, d.setPackage x.id new⟩ :: past)) :
    (orFail (PackageRepository.update id new)).wp P E Q past := by
  refine wp_statement hidle hE fun c d a d' hrun => ?_
  dsimp only at hrun
  split at hrun
  · next row hfind =>
    split at hrun
    · obtain ⟨rfl, rfl⟩ := Prod.mk.inj (Except.ok.inj hrun)
      have hfound := List.find?_some hfind
      have hid : (row.id : Int) = id := of_decide_eq_true hfound
      subst hid
      simp only [Int.ofNat_inj]
      exact h d { row with toNewPackage := new, updatedAt := d.clock }
        (List.mem_map.mpr ⟨row, List.mem_of_find?_eq_some hfind, if_pos (decide_eq_true rfl)⟩)
        rfl rfl
    · cases hrun
  · cases hrun

theorem wp_deletePackage {k : Nat} {Q : Nat → List (Step Store) → Prop}
    (h : ∀ (d : Store) n,
      P past ⟨d, { d with packages := Table.delete (fun p => p.id = k) d.packages }⟩ ∧
        Q n (⟨d, { d with packages := Table.delete (fun p => p.id = k) d.packages }⟩ :: past)) :
    (orFail (PackageRepository.delete k)).wp P E Q past := by
  refine wp_statement hidle hE fun c d a d' hrun => ?_
  obtain ⟨rfl, rfl⟩ := Prod.mk.inj (Except.ok.inj hrun)
  simp only [Int.ofNat_inj]
  exact h d _

theorem wp_createService {new : NewService} {Q : Service → List (Step Store) → Prop}
    (h : ∀ (d : Store) (x : Service), x.toNewService = new → (∀ y ∈ d.services, y.id ≠ x.id) →
      P past ⟨d, { d with services := d.services ++ [x] }⟩ ∧
        Q x (⟨d, { d with services := d.services ++ [x] }⟩ :: past)) :
    (orFail (ServiceRepository.create new)).wp P E Q past := by
  refine wp_statement hidle hE fun c d a d' hrun => ?_
  dsimp only at hrun
  split at hrun
  · next hkeys =>
    obtain ⟨rfl, rfl⟩ := Prod.mk.inj (Except.ok.inj hrun)
    refine h d _ rfl fun y hy => ?_
    have hfree := (Bool.and_eq_true_iff.mp (Bool.and_eq_true_iff.mp hkeys).1).2
    exact of_decide_eq_true (List.all_eq_true.mp hfree y hy)
  · cases hrun

theorem wp_updateService {id : Int} {new : NewService} {Q : Service → List (Step Store) → Prop}
    (h : ∀ d : Store, ∀ x : Service, x ∈ (d.setService x.id new).services → x.toNewService = new →
      (x.id : Int) = id → P past ⟨d, d.setService x.id new⟩ ∧
        Q x (⟨d, d.setService x.id new⟩ :: past)) :
    (orFail (ServiceRepository.update id new)).wp P E Q past := by
  refine wp_statement hidle hE fun c d a d' hrun => ?_
  dsimp only at hrun
  split at hrun
  · next row hfind =>
    split at hrun
    · obtain ⟨rfl, rfl⟩ := Prod.mk.inj (Except.ok.inj hrun)
      have hfound := List.find?_some hfind
      have hid : (row.id : Int) = id := of_decide_eq_true hfound
      subst hid
      simp only [Int.ofNat_inj]
      exact h d { row with toNewService := new, updatedAt := d.clock }
        (List.mem_map.mpr ⟨row, List.mem_of_find?_eq_some hfind, if_pos (decide_eq_true rfl)⟩)
        rfl rfl
    · cases hrun
  · cases hrun

theorem wp_deleteService {k : Nat} {Q : Nat → List (Step Store) → Prop}
    (h : ∀ (d : Store) n,
      P past ⟨d, { d with services := Table.delete (fun s => s.id = k) d.services }⟩ ∧
        Q n (⟨d, { d with services := Table.delete (fun s => s.id = k) d.services }⟩ :: past)) :
    (orFail (ServiceRepository.delete k)).wp P E Q past := by
  refine wp_statement hidle hE fun c d a d' hrun => ?_
  obtain ⟨rfl, rfl⟩ := Prod.mk.inj (Except.ok.inj hrun)
  simp only [Int.ofNat_inj]
  exact h d _

/-! ## Sessions and the audit log -/

theorem wp_deleteSessions {p : PortalSession → Bool} {Q : Nat → List (Step Store) → Prop}
    (h : ∀ (d : Store) n, P past ⟨d, { d with sessions := Table.delete p d.sessions }⟩ ∧
      Q n (⟨d, { d with sessions := Table.delete p d.sessions }⟩ :: past)) :
    (orFail (SessionRepository.delete p)).wp P E Q past := by
  refine wp_statement hidle hE fun c d a d' hrun => ?_
  obtain ⟨rfl, rfl⟩ := Prod.mk.inj (Except.ok.inj hrun)
  exact h d _

theorem wp_recordAuditLog {new : NewAuditLog} {Q : Unit → List (Step Store) → Prop}
    (h : ∀ (d : Store) (row : AuditLog), row.toNewAuditLog = new →
      P past ⟨d, { d with auditLogs := d.auditLogs ++ [row] }⟩ ∧
        Q () (⟨d, { d with auditLogs := d.auditLogs ++ [row] }⟩ :: past)) :
    (recordAuditLog new).wp P E Q past := by
  rw [recordAuditLog, Routine.wp_bind]
  refine wp_statement hidle hE fun c d a d' hrun => ?_
  dsimp only at hrun
  split at hrun
  · obtain ⟨rfl, rfl⟩ := Prod.mk.inj (Except.ok.inj hrun)
    obtain ⟨hstep, hq⟩ := h d { new with id := c.id, createdAt := d.clock } rfl
    exact ⟨hstep, wp_returns hq⟩
  · cases hrun

end Rules

end Catalog

end DevPortal
