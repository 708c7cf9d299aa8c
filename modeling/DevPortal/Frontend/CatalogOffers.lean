import DevPortal.Catalog.Authority

/-!
# Frontend/CatalogOffers — what the catalog page offers is what the server allows

    GET /me ▸ capabilities, maintainer_access ──▸ buttons and views
    request ▸ guard                            ──▸ let through, or forbidden

The page decides from an answer it got once; the server decides anew for each request, from the rows it
finds then.  The two agree as long as the memberships of the user are the same, for the guards look at
nothing else.
-/

namespace DevPortal

open Autocommit

namespace Catalog

/-! ## The page -/

namespace CatalogView

/-- `writableMaintainerIds`. -/
def writableMaintainerIds (user : MeResponse) : List Int :=
  (user.maintainerAccess.filter (·.canWrite)).map (·.maintainerId)

/-- `memberMaintainerIds`. -/
def memberMaintainerIds (user : MeResponse) : List Int :=
  (user.maintainerAccess.filter (·.canManageMembers)).map (·.maintainerId)

/-- `canWriteMaintainer`. -/
def canWriteMaintainer (user : MeResponse) (maintainerId : Int) : Bool :=
  user.capabilities.manageMaintainers || (writableMaintainerIds user).contains maintainerId

/-- `canManageMaintainerMembers`. -/
def canManageMaintainerMembers (user : MeResponse) (maintainerId : Int) : Bool :=
  user.capabilities.manageMaintainers || (memberMaintainerIds user).contains maintainerId

end CatalogView

/-- `canAccessView`, for the views that not everyone has. -/
inductive RestrictedView
  | connectors
  | audit

def canAccessView (user : MeResponse) : RestrictedView → Bool
  | .connectors => user.capabilities.manageConnectors
  | .audit => user.capabilities.viewAudit

/-! ## The guards, by themselves -/

section Guards

variable {auth : AuthenticatedUser} {d : Store}

/-- Every statement is carried out and answered. -/
def answered : Outcome := ⟨0, .answered⟩

/-- The guard lets the request through. -/
def Passes (guard : Call Unit) (d : Store) : Prop := (guard.eval answered d).1 = .ok ()

/-- One membership for each user at each maintainer. -/
def Store.UniqueMembers (d : Store) : Prop :=
  ∀ x ∈ d.members, ∀ y ∈ d.members, x.maintainerId = y.maintainerId → x.userId = y.userId → x = y

/-- The memberships of a user. -/
def membershipsOf (userId : Nat) (d : Store) : List MaintainerMember :=
  d.members.filter fun m => m.userId = (userId : Int)

theorem mem_membershipsOf {u : Nat} {x : MaintainerMember} :
    x ∈ membershipsOf u d ↔ x ∈ d.members ∧ x.userId = (u : Int) := by
  rw [membershipsOf, List.mem_filter, decide_eq_true_eq]

theorem passes_requireAdmin : Passes (requireAdmin auth) d ↔ auth.isAdmin := by
  rw [Passes, requireAdmin]
  by_cases h : auth.isAdmin
  · rw [if_pos h]
    exact iff_of_true rfl h
  · rw [if_neg h]
    exact iff_of_false (fun h' => by cases h') h

/-- A row that is alone with its key is the one that is found. -/
theorem getResult_eq {rows : List MaintainerMember} {p : MaintainerMember → Bool}
    (hunique : ∀ x ∈ rows, ∀ y ∈ rows, p x → p y → x = y) {x : MaintainerMember} (hx : x ∈ rows)
    (hp : p x) : getResult rows p = .ok x := by
  unfold getResult
  cases hfind : rows.find? p with
  | none => exact absurd hp (by simpa using List.find?_eq_none.mp hfind x hx)
  | some y =>
    have hpy := List.find?_some hfind
    rw [hunique y (List.mem_of_find?_eq_some hfind) x hx hpy hp]

/-- A query in front of a call leaves the tables as they are. -/
theorem eval_select_bind {α β : Type} (run : Store → Except DieselError α)
    (f : QueryResult α → Call β) :
    (select run >>= f).eval answered d = (f (run d)).eval answered d := by
  rw [Routine.eval_bind]
  change (f (((run d).map fun a => (a, d)).map (·.1))).eval answered
    (Statement.write (fun _ d => (run d).map (·, d)) answered d) = _
  cases hrun : run d with
  | ok a => simp [Statement.write, hrun, Except.map, answered]
  | error e => simp [Statement.write, hrun, Except.map, answered]

/-- **The guard of a maintainer** asks for a membership with one of the roles. -/
theorem passes_requireMaintainerMemberRole (hunique : d.UniqueMembers) {m : Int}
    {roles : List String} : Passes (requireMaintainerMemberRole auth m roles) d ↔
      auth.isAdmin ∨ ∃ x ∈ membershipsOf auth.user.id d, x.maintainerId = m ∧ x.role ∈ roles := by
  rw [Passes, requireMaintainerMemberRole]
  by_cases h : auth.isAdmin
  · rw [if_pos h]
    exact iff_of_true rfl (Or.inl h)
  rw [if_neg h, MaintainerMemberRepository.findByMaintainerAndUser,
    eval_select_bind]
  constructor
  · intro hpass
    cases hget : getResult d.members (MaintainerMember.isOf m auth.user.id) with
    | error e =>
      rw [hget] at hpass
      cases e <;> cases hpass
    | ok x =>
      rw [hget] at hpass
      obtain ⟨hx, hof⟩ := getResult_ok hget
      simp only [MaintainerMember.isOf, Bool.and_eq_true, decide_eq_true_eq] at hof
      dsimp only at hpass
      split at hpass
      · next hrole => exact Or.inr ⟨x, mem_membershipsOf.mpr ⟨hx, hof.2⟩, hof.1, hrole⟩
      · cases hpass
  · rintro (hadmin | ⟨x, hx, hxm, hrole⟩)
    · exact absurd hadmin h
    · obtain ⟨hmem, hxu⟩ := mem_membershipsOf.mp hx
      have hof : ∀ y : MaintainerMember, y.isOf m auth.user.id ↔
          y.maintainerId = m ∧ y.userId = (auth.user.id : Int) := fun y => by
        simp [MaintainerMember.isOf]
      have hget := getResult_eq (fun y hy z hz hpy hpz => hunique y hy z hz
        (((hof y).mp hpy).1.trans ((hof z).mp hpz).1.symm)
        (((hof y).mp hpy).2.trans ((hof z).mp hpz).2.symm)) hmem ((hof x).mpr ⟨hxm, hxu⟩)
      rw [hget]
      dsimp only
      rw [if_pos hrole]
      rfl

/-- The memberships that `find_by_user` returns. -/
def sortedMemberships (userId : Nat) (d : Store) : List MaintainerMember :=
  (membershipsOf userId d).mergeSort fun a b => a.maintainerId ≤ b.maintainerId

theorem mem_sortedMemberships {u : Nat} {x : MaintainerMember} :
    x ∈ sortedMemberships u d ↔ x ∈ membershipsOf u d := List.mem_mergeSort

theorem passes_requireUserDirectoryAccess : Passes (requireUserDirectoryAccess auth) d ↔
    auth.isAdmin ∨ ∃ x ∈ membershipsOf auth.user.id d, x.role = "owner" := by
  rw [Passes, requireUserDirectoryAccess]
  by_cases h : auth.isAdmin
  · rw [if_pos h]
    exact iff_of_true rfl (Or.inl h)
  rw [if_neg h, orFail, MaintainerMemberRepository.findByUser, Routine.eval_bind, eval_select_bind]
  change ((if (sortedMemberships auth.user.id d).any (·.role = "owner") then (pure () : Call Unit)
    else .throw .forbidden).eval answered d).1 = .ok () ↔ _
  have hany : (sortedMemberships auth.user.id d).any (·.role = "owner") ↔
      ∃ x ∈ membershipsOf auth.user.id d, x.role = "owner" := by
    simp only [List.any_eq_true, decide_eq_true_eq, mem_sortedMemberships]
  by_cases howner : (sortedMemberships auth.user.id d).any (·.role = "owner")
  · rw [if_pos howner]
    exact iff_of_true rfl (Or.inr (hany.mp howner))
  · rw [if_neg howner]
    refine iff_of_false (fun h' => by cases h') ?_
    rintro (hadmin | hex)
    · exact h hadmin
    · exact howner (hany.mpr hex)

/-- What `/me` answers. -/
theorem eval_me : (me auth).eval answered d =
    (.ok (.me (buildMeResponse auth (sortedMemberships auth.user.id d))), d) := by
  rw [me, orFail, MaintainerMemberRepository.findByUser, Routine.eval_bind, eval_select_bind]
  rfl

end Guards

/-! ## The page and the guards -/

section Offers

variable {auth : AuthenticatedUser} {d d' : Store}

theorem mem_maintainerAccess {memberships : List MaintainerMember} {access : MeMaintainerAccess} :
    access ∈ (buildMeResponse auth memberships).maintainerAccess ↔ ∃ x ∈ memberships, access =
      { maintainerId := x.maintainerId
        role := x.role
        canWrite := auth.isAdmin || x.role ∈ writers
        canManageMembers := auth.isAdmin || x.role = "owner" } := by
  rw [buildMeResponse, List.mem_mergeSort, List.mem_map]
  exact exists_congr fun x => and_congr_right fun _ => eq_comm

theorem canWriteMaintainer_iff {memberships : List MaintainerMember} {m : Int} :
    CatalogView.canWriteMaintainer (buildMeResponse auth memberships) m ↔
      auth.isAdmin ∨ ∃ x ∈ memberships, x.maintainerId = m ∧ x.role ∈ writers := by
  rw [CatalogView.canWriteMaintainer, Bool.or_eq_true]
  refine or_congr_right' fun hadmin => ?_
  have hadmin : auth.isAdmin = false := Bool.eq_false_iff.mpr hadmin
  rw [List.contains_iff_mem, CatalogView.writableMaintainerIds, List.mem_map]
  constructor
  · rintro ⟨access, hmem, rfl⟩
    obtain ⟨hmem, hwrite⟩ := List.mem_filter.mp hmem
    obtain ⟨x, hx, rfl⟩ := mem_maintainerAccess.mp hmem
    exact ⟨x, hx, rfl, by simpa [hadmin] using hwrite⟩
  · rintro ⟨x, hx, rfl, hrole⟩
    exact ⟨_, List.mem_filter.mpr ⟨mem_maintainerAccess.mpr ⟨x, hx, rfl⟩, by simp [hrole]⟩, rfl⟩

theorem canManageMaintainerMembers_iff {memberships : List MaintainerMember} {m : Int} :
    CatalogView.canManageMaintainerMembers (buildMeResponse auth memberships) m ↔
      auth.isAdmin ∨ ∃ x ∈ memberships, x.maintainerId = m ∧ x.role ∈ owners := by
  rw [CatalogView.canManageMaintainerMembers, Bool.or_eq_true]
  refine or_congr_right' fun hadmin => ?_
  have hadmin : auth.isAdmin = false := Bool.eq_false_iff.mpr hadmin
  rw [List.contains_iff_mem, CatalogView.memberMaintainerIds, List.mem_map]
  constructor
  · rintro ⟨access, hmem, rfl⟩
    obtain ⟨hmem, hwrite⟩ := List.mem_filter.mp hmem
    obtain ⟨x, hx, rfl⟩ := mem_maintainerAccess.mp hmem
    exact ⟨x, hx, rfl, by simpa [hadmin, owners] using hwrite⟩
  · rintro ⟨x, hx, rfl, hrole⟩
    refine ⟨_, List.mem_filter.mpr ⟨mem_maintainerAccess.mpr ⟨x, hx, rfl⟩, ?_⟩, rfl⟩
    rw [List.mem_singleton.mp hrole]
    exact Bool.or_true _

/-- **The page offers what the server allows.**  What the page made of an answer of `/me` agrees with what
the guards of the server let through, then and as long as the user keeps the memberships he had. -/
theorem offers_agree (hunique : d'.UniqueMembers)
    (hsame : ∀ x, x ∈ membershipsOf auth.user.id d' ↔ x ∈ membershipsOf auth.user.id d)
    {response : MeResponse} (hme : ((me auth).eval answered d).1 = .ok (.me response)) :
    (∀ m, CatalogView.canWriteMaintainer response m ↔
      Passes (requireMaintainerWriteAccess auth m) d') ∧
    (∀ m, CatalogView.canManageMaintainerMembers response m ↔
      Passes (requireMaintainerOwnerAccess auth m) d') ∧
    (∀ view, canAccessView response view ↔ Passes (requireAdmin auth) d') ∧
    (response.capabilities.manageMaintainers ↔ Passes (requireAdmin auth) d') ∧
    (response.capabilities.viewUserDirectory ↔ Passes (requireUserDirectoryAccess auth) d') := by
  rw [eval_me] at hme
  obtain rfl := Response.me.inj (Except.ok.inj hme)
  have hrows : ∀ p : MaintainerMember → Prop,
      (∃ x ∈ sortedMemberships auth.user.id d, p x) ↔ ∃ x ∈ membershipsOf auth.user.id d', p x :=
    fun p => exists_congr fun x => and_congr_left fun _ =>
      mem_sortedMemberships.trans (hsame x).symm
  refine ⟨fun m => ?_, fun m => ?_, fun view => ?_, passes_requireAdmin.symm, ?_⟩
  · rw [canWriteMaintainer_iff, requireMaintainerWriteAccess,
      passes_requireMaintainerMemberRole hunique, hrows]
  · rw [canManageMaintainerMembers_iff, requireMaintainerOwnerAccess,
      passes_requireMaintainerMemberRole hunique, hrows]
  · rw [passes_requireAdmin]
    cases view <;> rfl
  · rw [passes_requireUserDirectoryAccess, ← hrows]
    simp [buildMeResponse]

end Offers

namespace Scenario

/-- The owner of the one maintainer, signed in. -/
def ada : AuthenticatedUser := ⟨⟨1, "ada", "-"⟩, session 1 1 "ada-token", [], "ada-token"⟩

/-- Another user has become a viewer since the page was loaded. -/
theorem ada_offers :
    granted.state.members.length = 3 ∧ Passes (requireMaintainerWriteAccess ada 7) granted.state ∧
      CatalogView.canWriteMaintainer (buildMeResponse ada (sortedMemberships 1 store)) 7 := by
  have hunique : granted.state.UniqueMembers := by
    change ∀ x ∈ granted.state.members, ∀ y ∈ granted.state.members, _
    decide +kernel
  have hsame : membershipsOf 1 granted.state = membershipsOf 1 store := by decide +kernel
  have hagree := @offers_agree ada store granted.state hunique
    (fun x => by rw [show ada.user.id = 1 from rfl, hsame]) _ (congrArg Prod.fst eval_me)
  have hpasses : Passes (requireMaintainerWriteAccess ada 7) granted.state := by
    unfold Passes
    decide +kernel
  exact ⟨by decide +kernel, hpasses, (hagree.1 7).mpr hpasses⟩

end Scenario

end Catalog

end DevPortal
