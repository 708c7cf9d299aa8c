import DevPortal.Catalog.Authority

/-!
# Catalog/Outsiders — who has no right at a maintainer cannot get one

    a coalition: its users, the tokens they know
    no administrator among them, no owner of the maintainer   ▸ its members stay
    … and no member with the right to write                   ▸ all its rows stay

The coalition sends any requests, in any order and side by side, and may break them off.  A right would
have to be seen by a request of theirs, and the first change of the maintainer would have to come before
it; so nobody sees one.
-/

namespace DevPortal

open Autocommit

namespace Catalog

/-! ## A coalition -/

/-- Some users, the tokens they know, and the roles of administrators. -/
structure Coalition where
  users : Nat → Prop
  tokens : String → Prop
  adminRoles : Nat → Prop

/-- The token that the headers carry, if any, is one they know. -/
def Coalition.Knows (k : Coalition) (env : AuthEnv) (headers : HttpHeaders) : Prop :=
  ∀ token, env.requestToken headers = some token → k.tokens token.value

/-- A request of the coalition. -/
abbrev Coalition.Sends (k : Coalition) (env : AuthEnv) (r : Request) : Prop := k.Knows env r.headers

/-- Its tokens are those of its own sessions. -/
def Coalition.SignedIn (k : Coalition) (hash : String → String) (d : Store) : Prop :=
  ∀ token, k.tokens token → ∀ s ∈ d.sessions, s.tokenHash = hash token → k.users s.userId

/-- The coalition has no right at the maintainer: its tokens are those of its own sessions, none of its
users is an administrator, and none a member with one of these roles. -/
structure Coalition.Powerless (k : Coalition) (hash : String → String) (m : Int)
    (roles : List String) (d : Store) : Prop where
  sessions : k.SignedIn hash d
  adminRoles : ∀ role ∈ d.roles, role.code = "admin" → k.adminRoles role.id
  userRoles : ∀ r ∈ d.usersRoles, k.users r.userId → ¬ k.adminRoles r.roleId
  members : ∀ x ∈ d.members, ∀ u, k.users u → x.isOf m u → x.role ∉ roles

/-- The rows of `members` of a maintainer. -/
def membersOf (m : Int) (d : Store) : List MaintainerMember :=
  d.members.filter fun x => x.maintainerId = m

/-- The rows of a maintainer: its own, its members, its packages and its services. -/
structure Rows where
  maintainers : List Maintainer
  members : List MaintainerMember
  packages : List Package
  services : List Service

def rowsOf (m : Int) (d : Store) : Rows where
  maintainers := d.maintainers.filter fun x => (x.id : Int) = m
  members := membersOf m d
  packages := d.packages.filter fun x => x.maintainerId = m
  services := d.services.filter fun x => x.maintainerId = m

/-! ## What the coalition sees -/

section Coalition

variable {k : Coalition} {env : AuthEnv} {m : Int} {roles : List String} {r : Request}
  {past : List (Step Store)} {auth : AuthenticatedUser}

theorem Seen.of_sawOnly {inv p : Store → Prop} (hpast : SawOnly inv past) (h : Seen past p) :
    ∃ d, inv d ∧ p d := by
  obtain ⟨s, hs, hp⟩ := h
  exact ⟨s.before, (hpast s hs).1, hp⟩

/-- The requests of the coalition are those of its users. -/
theorem AuthenticAs.mem_coalition {method : Method} {headers : HttpHeaders}
    (hpast : SawOnly (k.SignedIn env.sessionTokenHash) past)
    (ha : AuthenticAs env method headers past auth) (hr : k.Knows env headers) :
    k.users auth.user.id := by
  obtain ⟨token, htoken, -, hauth⟩ := ha
  obtain ⟨session, hhash, huser, hrow, -⟩ := hauth.session
  obtain ⟨d, hd, hmem⟩ := hrow.of_sawOnly hpast
  exact huser ▸ hd _ (hr token htoken) session hmem hhash

variable (hpast : SawOnly (k.Powerless env.sessionTokenHash m roles) past)

include hpast

theorem Authentic.mem_coalition (ha : Authentic env r past auth) (hr : k.Sends env r) :
    k.users auth.user.id :=
  AuthenticAs.mem_coalition
    (fun s hs => ⟨(hpast s hs).1.sessions, (hpast s hs).2.sessions⟩) ha hr

theorem not_seenAdmin {u : Nat} (hu : k.users u) : ¬ SeenAdmin past u := by
  rintro ⟨roleId, huser, hrole⟩
  obtain ⟨d, hd, x, hx, hxu, rfl⟩ := huser.of_sawOnly hpast
  obtain ⟨d', hd', role, hmem, hid, hcode⟩ := hrole.of_sawOnly hpast
  exact hd.userRoles x hx (hxu ▸ hu) (hid ▸ hd'.adminRoles role hmem hcode)

/-- **They see no right.** -/
theorem not_seenRight {u : Nat} (hu : k.users u) : ¬ SeenRight past u m roles := by
  rintro (hadmin | hmember)
  · exact not_seenAdmin hpast hu hadmin
  · obtain ⟨d, hd, x, hx, hof, hrole⟩ := hmember.of_sawOnly hpast
    exact hd.members x hx u hu hof hrole

end Coalition

/-! ## What a change leaves alone -/

theorem filter_update {ρ : Type} {p q : ρ → Bool} {f : ρ → ρ} {rows : List ρ}
    (hq : ∀ x ∈ rows, q x → p x = false ∧ p (f x) = false) :
    (Table.update q f rows).filter p = rows.filter p := by
  induction rows with
  | nil => rfl
  | cons a rows ih =>
    have ih := ih fun x hx => hq x (List.mem_cons_of_mem _ hx)
    rw [Table.update, List.map_cons] at *
    by_cases ha : q a
    · obtain ⟨hp, hpf⟩ := hq a List.mem_cons_self ha
      rw [if_pos ha, List.filter_cons_of_neg (by simp [hpf]), List.filter_cons_of_neg (by simp [hp])]
      exact ih
    · rw [if_neg ha, List.filter_cons, List.filter_cons, ih]

theorem filter_delete {ρ : Type} {p q : ρ → Bool} {rows : List ρ}
    (hq : ∀ x ∈ rows, q x → p x = false) : (Table.delete q rows).filter p = rows.filter p := by
  rw [Table.delete, List.filter_filter]
  refine List.filter_congr fun x hx => ?_
  by_cases hqx : q x
  · rw [hq x hx hqx, Bool.false_and]
  · simp [hqx]

theorem filter_concat {ρ : Type} {p : ρ → Bool} {rows : List ρ} {row : ρ} (hrow : p row = false) :
    (rows ++ [row]).filter p = rows.filter p := by
  rw [List.filter_append, List.filter_cons_of_neg (by simp [hrow]), List.filter_nil, List.append_nil]

/-- The members of another maintainer stay. -/
theorem MemberWrite.filter_eq {m m' : Int} (hm : m' ≠ m) {rows rows' : List MaintainerMember}
    (h : MemberWrite m' rows rows') :
    rows'.filter (fun x => x.maintainerId = m) = rows.filter fun x => x.maintainerId = m := by
  have hother : ∀ (userId : Int) (x : MaintainerMember), x.isOf m' userId →
      decide (x.maintainerId = m) = false := fun userId x hx =>
    decide_eq_false ((isOf_iff.mp hx).1 ▸ hm)
  cases h with
  | add row hrow => exact filter_concat (decide_eq_false (hrow ▸ hm))
  | setRole userId role =>
    exact filter_update fun x _ hx => ⟨hother userId x hx, hother userId x hx⟩
  | remove userId => exact filter_delete fun x _ hx => hother userId x hx
  | removeAll => exact filter_delete fun x _ hx => decide_eq_false (of_decide_eq_true hx ▸ hm)

section Owned

variable {ρ : Type} {idOf : ρ → Nat} {owner : ρ → Int} {may : Int → Prop} {had : Nat → Int → Prop}
  {rows rows' : List ρ}

/-- The rows of a maintainer where one may not write stay, unless one of them was seen elsewhere. -/
theorem OwnedWrite.filter_eq {m : Int} (hmay : ∀ m', may m' → m' ≠ m)
    (hhad : ∀ k m', had k m' → m' ≠ m → ∀ x ∈ rows, idOf x = k → owner x ≠ m)
    (h : OwnedWrite idOf owner may had rows rows') :
    rows'.filter (fun x => owner x = m) = rows.filter fun x => owner x = m := by
  cases h with
  | create row hfresh hrow => exact filter_concat (decide_eq_false (hmay _ hrow))
  | @update k m' set hid hk hold hnew =>
    refine filter_update fun x hx hxk => ⟨decide_eq_false ?_, decide_eq_false (hmay _ (hnew x))⟩
    exact hhad k m' hk (hmay _ hold) x hx (of_decide_eq_true hxk)
  | @delete k m' hk hold =>
    refine filter_delete fun x hx hxk => decide_eq_false ?_
    exact hhad k m' hk (hmay _ hold) x hx (of_decide_eq_true hxk)

theorem OwnedWrite.keyed (hrows : Table.Keyed idOf rows)
    (h : OwnedWrite idOf owner may had rows rows') : Table.Keyed idOf rows' := by
  cases h with
  | create row hfresh hmay =>
    rw [Table.Keyed, List.map_append, List.map_singleton, List.nodup_append_comm,
      List.singleton_append, List.nodup_cons]
    refine ⟨fun hmem => ?_, hrows⟩
    obtain ⟨x, hx, hid⟩ := List.mem_map.mp hmem
    exact hfresh x hx hid
  | @update k _ set hid =>
    have hmap : (Table.update (fun x => idOf x = k) set rows).map idOf = rows.map idOf := by
      rw [Table.update, List.map_map]
      refine List.map_congr_left fun x _ => ?_
      show idOf (if _ then _ else _) = _
      split
      · exact hid x
      · rfl
    rw [Table.Keyed, hmap]
    exact hrows
  | delete => exact hrows.sublist (List.filter_sublist.map idOf)

end Owned

/-! ## One statement -/

section Step

variable {env : AuthEnv} {r : Request} {past : List (Step Store)} {s : Step Store} {m : Int}

/-- A request that has seen no right of an owner leaves the members alone. -/
theorem Change.membersOf_eq
    (hnone : ∀ auth, Authentic env r past auth → ¬ SeenRight past auth.user.id m owners)
    (h : Change env r past s) : membersOf m s.after = membersOf m s.before := by
  cases h with
  | dropsMaintainer d ha hadmin => exact absurd (Or.inl hadmin) (hnone _ ha)
  | @members d auth ha m' hright rows hrows =>
    refine hrows.filter_eq fun hm => ?_
    subst hm
    exact hnone _ ha hright
  | _ => rfl

/-- A row that was seen at another maintainer is not one of this maintainer. -/
structure SeenElsewhere (m : Int) (past : List (Step Store)) (d : Store) : Prop where
  packages : ∀ k m', HadPackage past k m' → m' ≠ m → ∀ x ∈ d.packages, x.id = k →
    x.maintainerId ≠ m
  services : ∀ k m', HadService past k m' → m' ≠ m → ∀ x ∈ d.services, x.id = k →
    x.maintainerId ≠ m

/-- A request that has seen no right to write leaves the rows alone. -/
theorem Change.rowsOf_eq
    (hnone : ∀ auth, Authentic env r past auth → ¬ SeenRight past auth.user.id m writers)
    (hseen : SeenElsewhere m past s.before) (h : Change env r past s) :
    rowsOf m s.after = rowsOf m s.before := by
  have howners : ∀ auth, Authentic env r past auth → ¬ SeenRight past auth.user.id m owners := by
    rintro auth ha (hadmin | ⟨s, hs, x, hx, hof, hrole⟩)
    · exact hnone auth ha (Or.inl hadmin)
    · exact hnone auth ha (Or.inr ⟨s, hs, x, hx, hof, by
        rw [List.mem_singleton.mp hrole]
        decide⟩)
  have hmembers := h.membersOf_eq howners
  cases h with
  | maintainers d ha hadmin => exact absurd (Or.inl hadmin) (hnone _ ha)
  | dropsMaintainer d ha hadmin => exact absurd (Or.inl hadmin) (hnone _ ha)
  | members d ha hright hrows =>
    rw [rowsOf, rowsOf, hmembers]
  | @packages d auth ha rows hrows =>
    have heq := hrows.filter_eq (m := m) (fun m' hmay hm => hnone _ ha (hm ▸ hmay)) hseen.packages
    rw [rowsOf, rowsOf, hmembers, heq]
  | @services d auth ha rows hrows =>
    have heq := hrows.filter_eq (m := m) (fun m' hmay hm => hnone _ ha (hm ▸ hmay)) hseen.services
    rw [rowsOf, rowsOf, hmembers, heq]
  | _ => rfl

end Step

/-! ## Whole runs -/

section Runs

variable {I : Type} [DecidableEq I] {k : Coalition} {env : AuthEnv} {m : Int} {roles : List String}
  {outside : Store → Store → Prop} {d₀ : Store}

/-- The coalition stays without a right, where nobody gives it one. -/
theorem Coalition.Powerless.move {hash : String → String} {d d' : Store}
    (h : k.Powerless hash m roles d) (hsessions : ∀ x ∈ d'.sessions, x ∈ d.sessions)
    (hroles : d'.roles = d.roles) (husers : d'.usersRoles = d.usersRoles)
    (hmembers : membersOf m d' = membersOf m d) : k.Powerless hash m roles d' := by
  refine ⟨fun token ht s hs => h.sessions token ht s (hsessions s hs), hroles ▸ h.adminRoles,
    husers ▸ h.userRoles, fun x hx u hu hof => h.members x ?_ u hu hof⟩
  have hmem : x ∈ membersOf m d' := List.mem_filter.mpr ⟨hx, decide_eq_true (isOf_iff.mp hof).1⟩
  rw [hmembers] at hmem
  exact (List.mem_filter.mp hmem).1

/-- Fewer roles give fewer rights. -/
theorem Coalition.Powerless.anti {hash : String → String} {roles' : List String} {d : Store}
    (h : k.Powerless hash m roles d) (hroles : ∀ role ∈ roles', role ∈ roles) :
    k.Powerless hash m roles' d :=
  ⟨h.sessions, h.adminRoles, h.userRoles,
    fun x hx u hu hof hrole => h.members x hx u hu hof (hroles _ hrole)⟩

/-- The requests of the coalition. -/
abbrev Coalition.serve (k : Coalition) (env : AuthEnv) (r : { r // k.Sends env r }) :
    Call Response :=
  Catalog.serve env r.1

/-- **Nobody makes himself a member.**  While nothing happens from outside that gives the coalition a
right, catalog requests of users without an administrator and without an owner of the maintainer leave
its members as they are, in every interleaving. -/
theorem no_self_promotion (h₀ : k.Powerless env.sessionTokenHash m owners d₀)
    (houtside : ∀ d d', outside d d' → k.Powerless env.sessionTokenHash m owners d →
      k.Powerless env.sessionTokenHash m owners d' ∧ membersOf m d' = membersOf m d)
    {w : World I { r // k.Sends env r } Outcome Store ApiError Response}
    (hw : Reachable (k.serve env) outside (World.idle d₀) w) :
    membersOf m w.state = membersOf m d₀ := by
  let γ := (authority env).comap (fun r : { r // k.Sends env r } => r.1)
  let inv : Store → Prop := fun d =>
    k.Powerless env.sessionTokenHash m owners d ∧ membersOf m d = membersOf m d₀
  have hkeeps : ∀ r past s, (True → SawOnly inv past) → inv s.before → γ.step r past s →
      inv s.after := by
    intro r past s hpast hs hstep
    have hstep : Change env r.1 past s := hstep
    have hsaw : SawOnly (k.Powerless env.sessionTokenHash m owners) past :=
      fun s' hs' => ⟨(hpast trivial s' hs').1.1, (hpast trivial s' hs').2.1⟩
    have heq := hstep.membersOf_eq fun auth ha =>
      not_seenRight hsaw (ha.mem_coalition hsaw r.2)
    obtain ⟨hsessions, hroles, husers⟩ := hstep.frame
    exact ⟨hs.1.move hsessions hroles husers heq, heq.trans hs.2⟩
  have hout : ∀ d d', inv d → outside d d' → inv d' := fun d d' hd ho =>
    ⟨(houtside d d' ho hd.1).1, (houtside d d' ho hd.1).2.trans hd.2⟩
  exact (Reachable.confined hkeeps hout hw (γ.ok_idle d₀)
    ⟨⟨h₀, rfl⟩, fun _ _ h => (nomatch h)⟩).1.state.2

end Runs

/-! ## A stranger who asks to be an owner -/

namespace Scenario

/-- The owner of the one maintainer, at the other. -/
def stranger : Coalition := ⟨(· = 2), (· = "bob-token"), fun _ => False⟩

theorem stranger_sends (route : Route) : stranger.Sends env (bearer "bob-token" route) := by
  intro token htoken
  have hbearer : env.requestToken (bearer "bob-token" route).headers = some (.bearer "bob-token") := by
    change env.requestToken ⟨["Bearer " ++ "bob-token"], [], []⟩ = _
    decide +kernel
  obtain rfl := Option.some.inj (hbearer.symm.trans htoken)
  rfl

theorem stranger_powerless : stranger.Powerless env.sessionTokenHash 7 writers store where
  sessions := by
    rintro token rfl
    change ∀ s ∈ store.sessions, s.tokenHash = "bob-token" → s.userId = 2
    decide +kernel
  adminRoles := fun _ h => (List.not_mem_nil h).elim
  userRoles := fun _ h => (List.not_mem_nil h).elim
  members := by
    rintro x hx u rfl hof
    have hnone : ∀ x ∈ store.members, x.isOf 7 (2 : Nat) = false := by decide
    rw [hnone x hx] at hof
    cases hof

abbrev StrangerWorld := World Unit { r // stranger.Sends env r } Outcome Store ApiError Response

/-- A request of the stranger that is served alone. -/
def triedAt (w : StrangerWorld) (route : Route) : StrangerWorld :=
  w.serveAlone (stranger.serve env) () ⟨bearer "bob-token" route, stranger_sends route⟩ outcomes

def tried (route : Route) : StrangerWorld := triedAt (World.idle store) route

theorem stranger_stays_out :
    (tried (.upsertMaintainerMember 7 (some ⟨2, "owner"⟩))).log.length = 8 ∧
      membersOf 7 (tried (.upsertMaintainerMember 7 (some ⟨2, "owner"⟩))).state = membersOf 7 store :=
  ⟨by decide +kernel, @no_self_promotion Unit _ stranger env 7 (fun _ _ => False) store
    (stranger_powerless.anti fun _ h => List.mem_cons.mpr (Or.inl (List.mem_singleton.mp h)))
    (fun _ _ h => h.elim) _ (reachable_serveAlone rfl _ _)⟩

end Scenario

section Runs

variable {I : Type} [DecidableEq I] {k : Coalition} {env : AuthEnv} {m : Int}
  {outside : Store → Store → Prop} {d₀ : Store}

/-- The rows of packages and services have keys of their own. -/
structure Store.Keyed (d : Store) : Prop where
  packages : Table.Keyed (·.id) d.packages
  services : Table.Keyed (·.id) d.services

theorem Change.keyed {r : Request} {past : List (Step Store)} {s : Step Store}
    (h : Change env r past s) (hs : s.before.Keyed) : s.after.Keyed := by
  cases h with
  | packages d ha hrows => exact ⟨hrows.keyed hs.packages, hs.services⟩
  | services d ha hrows => exact ⟨hs.packages, hrows.keyed hs.services⟩
  | _ => exact ⟨hs.packages, hs.services⟩

/-- Where the rows of the maintainer have always been the same, what was seen elsewhere is elsewhere. -/
theorem seenElsewhere {past : List (Step Store)} {d : Store}
    (hpast : SawOnly (fun d => d.Keyed ∧ rowsOf m d = rowsOf m d₀) past)
    (hd : rowsOf m d = rowsOf m d₀) : SeenElsewhere m past d := by
  constructor
  · intro k m' hhad hm x hx hxk hxm
    obtain ⟨d₁, ⟨hkeyed, hrows⟩, p, hp, hpk, hpm⟩ := hhad.of_sawOnly hpast
    have hmem : x ∈ (rowsOf m d).packages := List.mem_filter.mpr ⟨hx, decide_eq_true hxm⟩
    rw [hd, ← hrows] at hmem
    have hsame := Table.eq_of_key_eq hkeyed.packages (List.mem_filter.mp hmem).1 hp
      (hxk.trans hpk.symm)
    exact hm (hpm.symm.trans (hsame ▸ hxm))
  · intro k m' hhad hm x hx hxk hxm
    obtain ⟨d₁, ⟨hkeyed, hrows⟩, p, hp, hpk, hpm⟩ := hhad.of_sawOnly hpast
    have hmem : x ∈ (rowsOf m d).services := List.mem_filter.mpr ⟨hx, decide_eq_true hxm⟩
    rw [hd, ← hrows] at hmem
    have hsame := Table.eq_of_key_eq hkeyed.services (List.mem_filter.mp hmem).1 hp
      (hxk.trans hpk.symm)
    exact hm (hpm.symm.trans (hsame ▸ hxm))

/-- **Outsiders change nothing.**  The same for all rows of the maintainer, where the coalition has no
member with the right to write and nobody else changes them: a row of another maintainer that a catalog
request looks at and writes later cannot have become one of this maintainer. -/
theorem outsiders_change_nothing (h₀ : k.Powerless env.sessionTokenHash m writers d₀)
    (hkeyed : d₀.Keyed)
    (houtside : ∀ d d', outside d d' → k.Powerless env.sessionTokenHash m writers d → d.Keyed →
      k.Powerless env.sessionTokenHash m writers d' ∧ d'.Keyed ∧ rowsOf m d' = rowsOf m d)
    {w : World I { r // k.Sends env r } Outcome Store ApiError Response}
    (hw : Reachable (k.serve env) outside (World.idle d₀) w) :
    rowsOf m w.state = rowsOf m d₀ := by
  let γ := (authority env).comap (fun r : { r // k.Sends env r } => r.1)
  let inv : Store → Prop := fun d =>
    k.Powerless env.sessionTokenHash m writers d ∧ d.Keyed ∧ rowsOf m d = rowsOf m d₀
  have hkeeps : ∀ r past s, (True → SawOnly inv past) → inv s.before → γ.step r past s →
      inv s.after := by
    intro r past s hpast hs hstep
    have hstep : Change env r.1 past s := hstep
    have hsaw : SawOnly (k.Powerless env.sessionTokenHash m writers) past :=
      fun s' hs' => ⟨(hpast trivial s' hs').1.1, (hpast trivial s' hs').2.1⟩
    have hrows : SawOnly (fun d => d.Keyed ∧ rowsOf m d = rowsOf m d₀) past :=
      fun s' hs' => ⟨(hpast trivial s' hs').1.2, (hpast trivial s' hs').2.2⟩
    have heq := hstep.rowsOf_eq
      (fun auth ha => not_seenRight hsaw (ha.mem_coalition hsaw r.2))
      (seenElsewhere hrows hs.2.2)
    obtain ⟨hsessions, hroles, husers⟩ := hstep.frame
    exact ⟨hs.1.move hsessions hroles husers (congrArg Rows.members heq), hstep.keyed hs.2.1,
      heq.trans hs.2.2⟩
  have hout : ∀ d d', inv d → outside d d' → inv d' := fun d d' hd ho => by
    obtain ⟨hpower, hkeyed', hrows⟩ := houtside d d' ho hd.1 hd.2.1
    exact ⟨hpower, hkeyed', hrows.trans hd.2.2⟩
  exact (Reachable.confined hkeeps hout hw (γ.ok_idle d₀)
    ⟨⟨h₀, hkeyed, rfl⟩, fun _ _ h => (nomatch h)⟩).1.state.2.2

end Runs

namespace Scenario

def package (maintainerId : Int) : NewPackage where
  maintainerId := maintainerId
  slug := "etl"
  name := "ETL"
  version := "1.0.0"
  status := "active"
  description := none
  repositoryUrl := none
  documentationUrl := none

theorem reachable_triedAt {w₀ w : StrangerWorld} {outside : Store → Store → Prop}
    (h : Reachable (stranger.serve env) outside w₀ w) (hidle : (w.serving ()).isNone) (route : Route) :
    Reachable (stranger.serve env) outside w₀ (triedAt w route) :=
  h.trans (reachable_serveAlone (Option.isNone_iff_eq_none.mp hidle) _ _)

/-- The stranger creates a package at the other maintainer, and would move it to this one. -/
def moving : StrangerWorld :=
  triedAt (tried (.createPackage (some (package 8)))) (.updatePackage 108 (some (package 7)))

/-- Then it would remove the owner of this one. -/
def removing : StrangerWorld := triedAt moving (.deleteMaintainerMember 7 1)

theorem reachable_removing :
    Reachable (stranger.serve env) (fun _ _ => False) (World.idle store) removing := by
  have hcreated : Reachable (stranger.serve env) (fun _ _ => False) (World.idle store)
      (tried (.createPackage (some (package 8)))) := reachable_triedAt .refl rfl _
  have hmoving : Reachable (stranger.serve env) (fun _ _ => False) (World.idle store) moving :=
    reachable_triedAt hcreated (by decide +kernel) _
  exact reachable_triedAt hmoving (by decide +kernel) _

/-- The package is there and stays where it is, and the other two requests are refused. -/
theorem stranger_changes_nothing :
    removing.state.packages.map (fun p => (p.id, p.maintainerId)) = [(108, 8)] ∧
      removing.answers.map (fun a => a.result.isOk) = [false, false, true] ∧
      rowsOf 7 removing.state = rowsOf 7 store :=
  ⟨by decide +kernel, by decide +kernel, @outsiders_change_nothing Unit _ stranger env 7
    (fun _ _ => False) store stranger_powerless ⟨List.nodup_nil, List.nodup_nil⟩
    (fun _ _ h => h.elim) _ reachable_removing⟩

end Scenario

end Catalog

end DevPortal
