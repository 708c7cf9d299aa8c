import DevPortal.Auth.Identities

/-!
# Auth/IdentitySafety — an identity belongs to one user, and to the same one for ever

What a commit can do to the identities is said once (`IdentityGuar`): it provisions a user with one of
its own, links one that is new, adds a subject to one that has none, or writes the profile of a login.
None of these moves an identity to another user, and a row that is locked stays as it is; so what a
login found in one transaction still holds in the next.
-/

namespace DevPortal

open Transaction

/-! ## What a commit leaves of the identities -/

/-- **The row is the same identity, later**: it belongs to the same object and the same user, and its
subject is the one it had. -/
structure ExternalIdentity.Continues (r r₀ : ExternalIdentity) : Prop where
  id : r.id = r₀.id
  userId : r.userId = r₀.userId
  issuer : r.issuer = r₀.issuer
  tenantId : r.tenantId = r₀.tenantId
  objectId : r.objectId = r₀.objectId
  subject : ∀ s, r₀.subject = some s → r.subject = some s

namespace ExternalIdentity.Continues

variable {r r₁ r₀ : ExternalIdentity}

theorem refl (r : ExternalIdentity) : r.Continues r := ⟨rfl, rfl, rfl, rfl, rfl, fun _ h => h⟩

theorem trans (h : r.Continues r₁) (h' : r₁.Continues r₀) : r.Continues r₀ :=
  ⟨h.id.trans h'.id, h.userId.trans h'.userId, h.issuer.trans h'.issuer, h.tenantId.trans h'.tenantId,
    h.objectId.trans h'.objectId, fun s hs => h.subject s (h'.subject s hs)⟩

/-- A subject where there was none, or the same. -/
theorem of_accepts {s : String} (haccepts : r₀.accepts s) (hid : r.id = r₀.id)
    (huser : r.userId = r₀.userId) (hissuer : r.issuer = r₀.issuer) (htenant : r.tenantId = r₀.tenantId)
    (hobject : r.objectId = r₀.objectId) (hsubject : r.subject = some s) : r.Continues r₀ := by
  refine ⟨hid, huser, hissuer, htenant, hobject, fun s' hs' => ?_⟩
  simp only [accepts, hs', Option.isNone_some, Bool.false_or, Option.some.injEq,
    decide_eq_true_eq] at haccepts
  rw [hsubject, haccepts]

end ExternalIdentity.Continues

/-- No user has the id or the name of a new one. -/
def NewUser (low : Lowering) (user : PortalUser) (d : IdentityStore) : Prop :=
  ∀ u ∈ d.users, u.id ≠ user.id ∧ low.lower u.username ≠ low.lower user.username

/-- No identity has the id or the object of a new one. -/
def NewIdentity (row : ExternalIdentity) (d : IdentityStore) : Prop :=
  ∀ r ∈ d.identities, r.id ≠ row.id ∧ ¬ (r.tenantId = row.tenantId ∧ r.objectId = row.objectId)

/-- The invariant of the store: the keys of its tables. -/
structure IdentityInv (d : IdentityStore) : Prop where
  users : Table.Keyed (·.id) d.users
  identities : Table.Keyed (·.id) d.identities
  objects : Table.Keyed (fun r : ExternalIdentity => (r.tenantId, r.objectId)) d.identities

/-- **What a provisioning commits**: the user, maybe the role of members, the user's role, its identity
and the audit row; user and identity are new, and one belongs to the other. -/
structure Provisions (low : Lowering) (d : IdentityStore) (p : List IdentityWrite) (user : PortalUser)
    (row : ExternalIdentity) : Prop where
  writes : ∃ roles userRole, (roles = [] ∨ ∃ role, roles = [.insertRole role])
    ∧ userRole.userId = user.id
    ∧ p = .insertUser user :: roles ++ [.insertUserRole userRole, .insertIdentity row,
      .audit (jitAudit user)]
  newUser : NewUser low user d
  newRow : NewIdentity row d
  userId : row.userId = user.id

/-- The login is for this identity, and returns its user. -/
structure PortalLogin.For (l : PortalLogin) (r : ExternalIdentity) (d : IdentityStore) : Prop where
  tenantId : l.tenantId = r.tenantId
  objectId : l.objectId = r.objectId
  issuer : l.issuer = r.issuer
  accepts : r.accepts l.subject
  user : l.user.id = r.userId
  mem : l.user ∈ d.users

/-- **What a session of the database commits**; the flag tells the portal from the CLI. -/
inductive IdentityGuar (low : Lowering) (d : IdentityStore) (p : List IdentityWrite) : Bool → Prop
  | quiet {portal : Bool} (hp : p = []) : IdentityGuar low d p portal
  | provisions (user : PortalUser) (row : ExternalIdentity) (hp : Provisions low d p user row) :
      IdentityGuar low d p true
  | logsIn (r : ExternalIdentity) (hr : r ∈ d.identities) (profile : LoginProfile) (l : PortalLogin)
      (hl : l.For r d) (hp : p = [.setProfile r.id l.subject profile, .login l]) :
      IdentityGuar low d p true
  | links (row : ExternalIdentity) (audit : AuditLog) (hrow : NewIdentity row d)
      (hp : p = [.insertIdentity row, .audit audit]) : IdentityGuar low d p false
  | addsSubject (r : ExternalIdentity) (hr : r ∈ d.identities) (subject : String)
      (haccepts : r.accepts subject) (audit : AuditLog)
      (hp : p = [.setSubject r.id subject, .audit audit]) : IdentityGuar low d p false

section Commits

variable {low : Lowering} {d : IdentityStore} {h : List IdentityLock} {p : List IdentityWrite}
  {portal : Bool}

/-- The store after a provisioning. -/
theorem Provisions.after {user : PortalUser} {row : ExternalIdentity}
    (hp : Provisions low d p user row) :
    ((identityEngine low.lower).applyAll d p).users = d.users ++ [user]
      ∧ ((identityEngine low.lower).applyAll d p).identities = d.identities ++ [row] := by
  obtain ⟨roles, userRole, hroles, -, rfl⟩ := hp.writes
  rcases hroles with rfl | ⟨role, rfl⟩ <;> exact ⟨rfl, rfl⟩

/-- **What a commit changes**: users and identities go on, new ones come under their locks, and an
identity that is not locked stays as it is. -/
structure IdentityMoved (low : Lowering) (d : IdentityStore) (h : List IdentityLock)
    (d' : IdentityStore) : Prop where
  users : ∀ u ∈ d.users, u ∈ d'.users
  users_back : ∀ u ∈ d'.users, u ∈ d.users
    ∨ .user u.id ∈ h ∧ .username (low.lower u.username) ∈ h
  kept : ∀ r ∈ d.identities, ∃ r' ∈ d'.identities, r'.Continues r
  same : ∀ r ∈ d.identities, .identity r.id ∉ h → r ∈ d'.identities
  back : ∀ r ∈ d'.identities, (∃ r₀ ∈ d.identities, r.Continues r₀)
    ∨ .identity r.id ∈ h ∧ .object r.tenantId r.objectId ∈ h

theorem IdentityMoved.refl (d : IdentityStore) : IdentityMoved low d h d :=
  ⟨fun _ hu => hu, fun _ hu => Or.inl hu, fun r hr => ⟨r, hr, .refl r⟩, fun _ hr _ => hr,
    fun r hr => Or.inl ⟨r, hr, .refl r⟩⟩

/-- An identity is inserted, and maybe a user. -/
theorem IdentityMoved.insert {d' : IdentityStore} {row : ExternalIdentity} {new : List PortalUser}
    (husers : d'.users = d.users ++ new) (hids : d'.identities = d.identities ++ [row])
    (hnew : ∀ u ∈ new, .user u.id ∈ h ∧ .username (low.lower u.username) ∈ h)
    (hid : .identity row.id ∈ h) (hobject : .object row.tenantId row.objectId ∈ h) :
    IdentityMoved low d h d' where
  users := fun u hu => by
    rw [husers]
    exact List.mem_append_left _ hu
  users_back := fun u hu => by
    rw [husers] at hu
    exact (List.mem_append.mp hu).imp_right (hnew u)
  kept := fun r hr => ⟨r, by rw [hids]; exact List.mem_append_left _ hr, .refl r⟩
  same := fun r hr _ => by
    rw [hids]
    exact List.mem_append_left _ hr
  back := fun r hr => by
    rw [hids] at hr
    rcases List.mem_append.mp hr with hr | hr
    · exact Or.inl ⟨r, hr, .refl r⟩
    · obtain rfl := List.mem_singleton.mp hr
      exact Or.inr ⟨hid, hobject⟩

/-- An identity is updated under its lock. -/
theorem IdentityMoved.update {d' : IdentityStore} (hd : IdentityInv d) {r : ExternalIdentity}
    (hr : r ∈ d.identities) {f : ExternalIdentity → ExternalIdentity} (hf : (f r).Continues r)
    (husers : d'.users = d.users)
    (hids : d'.identities = Table.update (fun r' => r'.id = r.id) f d.identities)
    (hid : .identity r.id ∈ h) : IdentityMoved low d h d' := by
  have hrow : ∀ r' ∈ d.identities, (if r'.id = r.id then f r' else r').Continues r' := by
    intro r' hr'
    split
    · next heq =>
      obtain rfl := Table.eq_of_key_eq hd.identities hr' hr heq
      exact hf
    · exact .refl r'
  refine ⟨fun u hu => husers ▸ hu, fun u hu => Or.inl (husers ▸ hu), fun r' hr' => ?_,
    fun r' hr' hfree => ?_, fun r' hr' => ?_⟩
  · refine ⟨if r'.id = r.id then f r' else r', ?_, hrow r' hr'⟩
    rw [hids]
    exact Table.mem_update.mpr ⟨r', hr', by simp⟩
  · have hne : r'.id ≠ r.id := fun heq => hfree (heq ▸ hid)
    rw [hids]
    exact Table.mem_update.mpr ⟨r', hr', by simp [hne]⟩
  · rw [hids] at hr'
    obtain ⟨r₀, hr₀, heq⟩ := Table.mem_update.mp hr'
    refine Or.inl ⟨r₀, hr₀, ?_⟩
    have hcontinues := hrow r₀ hr₀
    simp only [decide_eq_true_eq] at heq
    exact heq ▸ hcontinues

theorem IdentityGuar.moved (hd : IdentityInv d) (hp : IdentityGuar low d p portal)
    (hcov : (identityEngine low.lower).Covered h p) :
    IdentityMoved low d h ((identityEngine low.lower).applyAll d p) := by
  cases hp with
  | quiet hp =>
    subst hp
    exact .refl d
  | provisions user row hp =>
    obtain ⟨roles, userRole, -, -, hwrites⟩ := hp.writes
    have huser : .insertUser user ∈ p := by simp [hwrites]
    have hrow : .insertIdentity row ∈ p := by simp [hwrites]
    refine .insert hp.after.1 hp.after.2 (fun u hu => ?_) (hcov _ hrow _ ?_) (hcov _ hrow _ ?_)
    · obtain rfl := List.mem_singleton.mp hu
      exact ⟨hcov _ huser _ (by simp [identityEngine, IdentityWrite.locks]),
        hcov _ huser _ (by simp [identityEngine, IdentityWrite.locks])⟩
    · simp [identityEngine, IdentityWrite.locks]
    · simp [identityEngine, IdentityWrite.locks]
  | links row audit hrow hp =>
    subst hp
    refine .insert (List.append_nil _).symm rfl (fun u hu => nomatch hu)
      (hcov (.insertIdentity row) (by simp) _ ?_) (hcov (.insertIdentity row) (by simp) _ ?_)
    · simp [identityEngine, IdentityWrite.locks]
    · simp [identityEngine, IdentityWrite.locks]
  | addsSubject r hr subject haccepts audit hp =>
    subst hp
    refine .update hd hr (f := fun r => { r with subject := some subject }) ?_ rfl rfl
      (hcov (.setSubject r.id subject) (by simp) _ (by simp [identityEngine, IdentityWrite.locks]))
    exact .of_accepts haccepts rfl rfl rfl rfl rfl rfl
  | logsIn r hr profile l hl hp =>
    subst hp
    refine .update hd hr (f := fun r => { r with subject := some l.subject, profile := profile }) ?_
      rfl rfl
      (hcov (.setProfile r.id l.subject profile) (by simp) _
        (by simp [identityEngine, IdentityWrite.locks]))
    exact .of_accepts hl.accepts rfl rfl rfl rfl rfl rfl

/-- A table with a row whose key is new. -/
theorem keyed_append_new {R K : Type} [DecidableEq K] {key : R → K} {t : List R} {row : R}
    (ht : Table.Keyed key t) (hnew : ∀ r ∈ t, key r ≠ key row) : Table.Keyed key (t ++ [row]) :=
  Table.keyed_concat ht (Table.lookup_eq_none.mpr hnew)

/-- The keys of a store with an identity that is new. -/
theorem IdentityInv.insert (hd : IdentityInv d) {row : ExternalIdentity} (hrow : NewIdentity row d)
    {d' : IdentityStore} (husers : Table.Keyed (·.id) d'.users)
    (hids : d'.identities = d.identities ++ [row]) : IdentityInv d' := by
  refine ⟨husers, ?_, ?_⟩
  · rw [hids]
    exact keyed_append_new hd.identities fun r hr => (hrow r hr).1
  · rw [hids]
    exact keyed_append_new hd.objects fun r hr heq => (hrow r hr).2 (Prod.mk.inj heq)

/-- …and of one with an identity that is updated. -/
theorem IdentityInv.update (hd : IdentityInv d) {id : Nat} {f : ExternalIdentity → ExternalIdentity}
    (hid : ∀ r, (f r).id = r.id)
    (hobject : ∀ r, ((f r).tenantId, (f r).objectId) = (r.tenantId, r.objectId)) {d' : IdentityStore}
    (husers : d'.users = d.users)
    (hids : d'.identities = Table.update (fun r => r.id = id) f d.identities) : IdentityInv d' := by
  refine ⟨husers ▸ hd.users, ?_, ?_⟩
  · rw [hids]
    exact Table.keyed_update hid hd.identities
  · rw [hids]
    exact Table.keyed_update hobject hd.objects

theorem IdentityInv.commit (hd : IdentityInv d) (hp : IdentityGuar low d p portal) :
    IdentityInv ((identityEngine low.lower).applyAll d p) := by
  cases hp with
  | quiet hp =>
    subst hp
    exact hd
  | provisions user row hp =>
    refine hd.insert hp.newRow ?_ hp.after.2
    rw [hp.after.1]
    exact keyed_append_new hd.users fun u hu => (hp.newUser u hu).1
  | links row audit hrow hp =>
    subst hp
    exact hd.insert hrow hd.users rfl
  | addsSubject r hr subject haccepts audit hp =>
    subst hp
    exact hd.update (f := fun r => { r with subject := some subject }) (fun _ => rfl) (fun _ => rfl)
      rfl rfl
  | logsIn r hr profile l hl hp =>
    subst hp
    exact hd.update (f := fun r => { r with subject := some l.subject, profile := profile })
      (fun _ => rfl) (fun _ => rfl) rfl rfl

end Commits

/-- The rule of the runs on identities. -/
def identityRule {I : Type} (portal : I → Bool) (low : Lowering) : Rule I (identityEngine low.lower) where
  inv := IdentityInv
  guar := fun i d _ p => IdentityGuar low d p (portal i)
  inv_commit := fun hd _ hp => hd.commit hp

section Programs

variable {I : Type} {portal : I → Bool} {low : Lowering} {i : I} {d d' : IdentityStore} {h : List IdentityLock}

theorem IdentityGuar.of {b : Bool} {p : List IdentityWrite} (hp : IdentityGuar low d p b)
    (hi : portal i = b) : (identityRule portal low).guar i d h p := by
  subst hi
  exact hp

/-- What another session commits, seen by one that holds `h`. -/
theorem identityMoved_of_relies (hd : IdentityInv d) (hr : Relies (identityRule portal low) i h d d') :
    ∃ h', IdentityMoved low d h' d' ∧ ∀ k ∈ h, k ∉ h' := by
  obtain ⟨j, h', p', -, hguar, hcov, hcomp, rfl⟩ := hr
  exact ⟨h', IdentityGuar.moved hd hguar hcov, fun k hk hk' => (hcomp k hk' k hk).1 rfl⟩

/-! ## Assertions that the others keep -/

/-- The row is an identity of the store, at some earlier time. -/
def Known (row : ExternalIdentity) (d : IdentityStore) : Prop :=
  ∃ r ∈ d.identities, r.Continues row

theorem Known.moved {row : ExternalIdentity} {h' : List IdentityLock} (hrow : Known row d)
    (hm : IdentityMoved low d h' d') : Known row d' := by
  obtain ⟨r, hr, hcontinues⟩ := hrow
  obtain ⟨r', hr', hcontinues'⟩ := hm.kept r hr
  exact ⟨r', hr', hcontinues'.trans hcontinues⟩

/-- The user that is inserted stays new. -/
structure UserPending (low : Lowering) (user : PortalUser) (d : IdentityStore) (h : List IdentityLock) :
    Prop where
  id : .user user.id ∈ h
  username : .username (low.lower user.username) ∈ h
  new : NewUser low user d

/-- The identity that is inserted stays new. -/
structure IdentityPending (row : ExternalIdentity) (d : IdentityStore) (h : List IdentityLock) :
    Prop where
  id : .identity row.id ∈ h
  object : .object row.tenantId row.objectId ∈ h
  new : NewIdentity row d

theorem UserPending.moved {user : PortalUser} (hu : UserPending low user d h) {h' : List IdentityLock}
    (hm : IdentityMoved low d h' d') (hfree : ∀ k ∈ h, k ∉ h') : UserPending low user d' h := by
  refine ⟨hu.id, hu.username, fun u hmem => ?_⟩
  rcases hm.users_back u hmem with hmem | ⟨hid, hname⟩
  · exact hu.new u hmem
  · exact ⟨fun heq => hfree _ hu.id (heq ▸ hid), fun heq => hfree _ hu.username (heq ▸ hname)⟩

theorem IdentityPending.moved {row : ExternalIdentity} (hrow : IdentityPending row d h)
    {h' : List IdentityLock} (hm : IdentityMoved low d h' d') (hfree : ∀ k ∈ h, k ∉ h') :
    IdentityPending row d' h := by
  refine ⟨hrow.id, hrow.object, fun r hmem => ?_⟩
  rcases hm.back r hmem with ⟨r₀, hr₀, hcontinues⟩ | ⟨hid, hobject⟩
  · rw [hcontinues.id, hcontinues.tenantId, hcontinues.objectId]
    exact hrow.new r₀ hr₀
  · refine ⟨fun heq => hfree _ hrow.id (heq ▸ hid), fun heq => hfree _ hrow.object ?_⟩
    rw [← heq.1, ← heq.2]
    exact hobject

theorem UserPending.append {user : PortalUser} (hu : UserPending low user d h) (k : List IdentityLock) :
    UserPending low user d (h ++ k) :=
  ⟨List.mem_append_left _ hu.id, List.mem_append_left _ hu.username, hu.new⟩

theorem IdentityPending.append {row : ExternalIdentity} (hrow : IdentityPending row d h)
    (k : List IdentityLock) : IdentityPending row d (h ++ k) :=
  ⟨List.mem_append_left _ hrow.id, List.mem_append_left _ hrow.object, hrow.new⟩

variable (portal low i)

/-- Nothing is written yet. -/
theorem stable_nil : Stable (identityRule portal low) i fun _ _ p => p = [] := fun _ _ _ _ _ hp _ => hp

theorem stable_known (row : ExternalIdentity) :
    Stable (identityRule portal low) i fun d _ p => p = [] ∧ Known row d := by
  rintro d d' h p hd ⟨hp, hrow⟩ hr
  obtain ⟨h', hm, -⟩ := identityMoved_of_relies hd hr
  exact ⟨hp, hrow.moved hm⟩

/-- What a login has found: an identity, and its user. -/
def Found (user : PortalUser) (row : ExternalIdentity) (d : IdentityStore) : Prop :=
  Known row d ∧ user ∈ d.users ∧ user.id = row.userId

theorem stable_found (user : PortalUser) (row : ExternalIdentity) :
    Stable (identityRule portal low) i fun d _ p => p = [] ∧ Found user row d := by
  rintro d d' h p hd ⟨hp, hrow, huser, hid⟩ hr
  obtain ⟨h', hm, -⟩ := identityMoved_of_relies hd hr
  exact ⟨hp, hrow.moved hm, hm.users user huser, hid⟩

theorem stable_userPending (user : PortalUser) (p₀ : List IdentityWrite) :
    Stable (identityRule portal low) i fun d h p => p = p₀ ∧ UserPending low user d h := by
  rintro d d' h p hd ⟨hp, huser⟩ hr
  obtain ⟨h', hm, hfree⟩ := identityMoved_of_relies hd hr
  exact ⟨hp, huser.moved hm hfree⟩

theorem stable_identityPending (row : ExternalIdentity) (p₀ : List IdentityWrite) :
    Stable (identityRule portal low) i fun d h p => p = p₀ ∧ IdentityPending row d h := by
  rintro d d' h p hd ⟨hp, hrow⟩ hr
  obtain ⟨h', hm, hfree⟩ := identityMoved_of_relies hd hr
  exact ⟨hp, hrow.moved hm hfree⟩

/-! ## Logins -/

/-- The profile of a login is written, under the lock of its identity. -/
def LoggedIn (l : PortalLogin) : Assertion IdentityStore IdentityWrite IdentityLock :=
  fun d h p => ∃ r ∈ d.identities, .identity r.id ∈ h ∧ l.For r d
    ∧ ∃ profile, p = [.setProfile r.id l.subject profile, .login l]

theorem stable_loggedIn (l : PortalLogin) : Stable (identityRule portal low) i (LoggedIn l) := by
  rintro d d' h p hd ⟨r, hr, hlock, hl, hp⟩ hrely
  obtain ⟨h', hm, hfree⟩ := identityMoved_of_relies hd hrely
  exact ⟨r, hm.same r hr (hfree _ hlock), hlock,
    ⟨hl.tenantId, hl.objectId, hl.issuer, hl.accepts, hl.user, hm.users _ hl.mem⟩, hp⟩

variable {portal low i}

/-- **An `UPDATE` of a subject**, from where nothing is written yet: it finds a row that `q` holds of,
and locks it. -/
theorem wp_updateSubject {id : Nat} {subject : String} {q : ExternalIdentity → Bool}
    {writes : IdentityDraw → List IdentityWrite}
    (hlocks : ∀ c, .identity id ∈ (writes c).flatMap (IdentityWrite.locks low.lower))
    {A : IdentityStore → Prop}
    (hA : Stable (identityRule portal low) i fun d _ p => p = [] ∧ A d)
    {Q : Unit → Assertion IdentityStore IdentityWrite IdentityLock}
    (hQ : ∀ c d h r, IdentityInv d → A d → r ∈ d.identities → r.id = id → q r →
      .identity id ∈ h → Q () d h (writes c))
    {p : List IdentityWrite} (hd : IdentityInv d) (hp : p = [] ∧ A d) :
    Tx.wp (identityRule portal low) i (updateSubject id subject q writes) Q d h p := by
  refine Tx.wp_statement i hA (fun c d h p _ hd hp hres => ?_) hd hp
  obtain ⟨rfl, ha⟩ := hp
  obtain ⟨r, hr, -⟩ := Option.bind_eq_some_iff.mp hres
  obtain ⟨hlookup, hq⟩ := Option.filter_eq_some_iff.mp hr
  have hfound : ((Table.lookup (·.id) id d.identities).filter q).isSome = true := by
    rw [show (Table.lookup (·.id) id d.identities).filter q = some r from hr]
    rfl
  rw [List.nil_append]
  show Q () d (h ++ Engine.wanted _ _ (if _ then writes c else [])) (if _ then writes c else [])
  rw [show ((identityEngine low.lower).applyAll d []) = d from rfl, if_pos hfound]
  refine hQ c d _ r hd ha (Table.mem_of_lookup hlookup) (Table.key_of_lookup hlookup) hq ?_
  exact List.mem_append_right _ (List.mem_append_right _ (hlocks c))

/-- **The end of a login**: it writes the profile of the identity it found, as it is by then. -/
theorem safe_finishLogin {config : EntraConfig} {claims : ValidatedEntraClaims} {user : PortalUser}
    {row : ExternalIdentity} (htenant : row.tenantId = claims.tenantId)
    (hobject : row.objectId = claims.objectId) (hi : portal i = true) (hd : IdentityInv d)
    (hfound : Found user row d) : Safe (identityRule portal low) i (finishLogin config claims user row) d [] [] := by
  unfold finishLogin
  split
  · trivial
  · refine Safe.run i (fun _ => sound_done i) (sound_done i)
      (fun _ => stable_loggedIn portal low i ⟨claims.tenantId, claims.objectId, config.issuer, claims.subject,
        user⟩) (fun _ d h p hd hq => ?_) hd (fun _ hw => (List.not_mem_nil hw).elim) ?_
    · obtain ⟨r, hr, -, hl, profile, hp⟩ := hq
      exact (IdentityGuar.logsIn r hr profile _ hl hp).of hi
    · refine wp_updateSubject (fun c => by simp [IdentityWrite.locks]) (stable_found portal low i user row)
        (fun c d h r hd hfound hr hid hq hlock => ?_) hd ⟨rfl, hfound⟩
      obtain ⟨⟨r', hr', hcontinues⟩, huser, hown⟩ := hfound
      obtain rfl : r' = r := Table.eq_of_key_eq hd.identities hr' hr (hcontinues.id.trans hid.symm)
      simp only [Bool.and_eq_true, decide_eq_true_eq] at hq
      refine ⟨r', hr', hid ▸ hlock, ⟨?_, ?_, hq.1.symm, hq.2, ?_, huser⟩, _, by rw [hid]⟩
      · exact (hcontinues.tenantId.trans htenant).symm
      · exact (hcontinues.objectId.trans hobject).symm
      · exact hown.trans hcontinues.userId.symm

/-- What the lookup of an object gives. -/
def OfObject (tenantId objectId : String) (existing : Option ExternalIdentity) (d : IdentityStore) :
    Prop :=
  ∀ row, existing = some row → Known row d ∧ row.tenantId = tenantId ∧ row.objectId = objectId

theorem stable_ofObject (tenantId objectId : String) (existing : Option ExternalIdentity) :
    Stable (identityRule portal low) i fun d _ p => p = [] ∧ OfObject tenantId objectId existing d := by
  rintro d d' h p hd ⟨hp, hobject⟩ hr
  obtain ⟨h', hm, -⟩ := identityMoved_of_relies hd hr
  refine ⟨hp, fun row hrow => ?_⟩
  obtain ⟨hknown, hkeys⟩ := hobject row hrow
  exact ⟨hknown.moved hm, hkeys⟩

theorem wp_findByEntraObject {tenantId objectId : String} {p : List IdentityWrite}
    (hd : IdentityInv d) (hp : p = []) :
    Tx.wp (identityRule portal low) i (findByEntraObject tenantId objectId)
      (fun existing d _ p => p = [] ∧ OfObject tenantId objectId existing d) d h p := by
  refine Tx.wp_query i (stable_nil portal low i) (fun c d h p hd hp => ⟨hp, fun row hrow => ?_⟩) hd hp
  rw [hp, Engine.applyAll_nil] at hrow
  have hmem := List.mem_of_find?_eq_some hrow
  have hkeys := List.find?_some hrow
  simp only [Bool.and_eq_true, decide_eq_true_eq] at hkeys
  exact ⟨⟨row, hmem, .refl row⟩, hkeys⟩

theorem wp_findUser {row : ExternalIdentity} {p : List IdentityWrite} (hd : IdentityInv d)
    (hp : p = [] ∧ Known row d) :
    Tx.wp (identityRule portal low) i (findUser row.userId)
      (fun user d _ p => p = [] ∧ Found user row d) d h p := by
  refine Tx.wp_statement i (stable_known portal low i row) (fun c d h p user hd hp hres => ?_) hd hp
  obtain ⟨rfl, hrow⟩ := hp
  exact ⟨rfl, hrow, Table.mem_of_lookup hres, Table.key_of_lookup hres⟩

/-! ## Provisioning -/

/-- Everything is inserted, and a new user and identity are pending. -/
def Provisioned (low : Lowering) (provisioned : JitProvisionedIdentity) :
    Assertion IdentityStore IdentityWrite IdentityLock :=
  fun d h p => Provisions low d p provisioned.user provisioned.identity
    ∧ UserPending low provisioned.user d h ∧ IdentityPending provisioned.identity d h

theorem stable_provisioned (provisioned : JitProvisionedIdentity) :
    Stable (identityRule portal low) i (Provisioned low provisioned) := by
  rintro d d' h p hd ⟨hp, huser, hrow⟩ hr
  obtain ⟨h', hm, hfree⟩ := identityMoved_of_relies hd hr
  have huser' := huser.moved hm hfree
  have hrow' := hrow.moved hm hfree
  exact ⟨⟨hp.writes, huser'.new, hrow'.new, hp.userId⟩, huser', hrow'⟩

/-- The writes before the identity of a user that is provisioned. -/
structure UserWrites (user : PortalUser) (p : List IdentityWrite) : Prop where
  writes : ∃ roles userRole, (roles = [] ∨ ∃ role, roles = [.insertRole role])
    ∧ userRole.userId = user.id ∧ p = .insertUser user :: roles ++ [.insertUserRole userRole]

theorem UserWrites.identities {user : PortalUser} {p : List IdentityWrite} (hp : UserWrites user p)
    (d : IdentityStore) : ((identityEngine low.lower).applyAll d p).identities = d.identities := by
  obtain ⟨roles, userRole, hroles, -, rfl⟩ := hp.writes
  rcases hroles with rfl | ⟨role, rfl⟩ <;> rfl

theorem wp_insertUser {username password : String} {p : List IdentityWrite} (hd : IdentityInv d)
    (hp : p = []) :
    Tx.wp (identityRule portal low) i (insertUser low username password)
      (fun user d h p => p = [.insertUser user] ∧ UserPending low user d h) d h p := by
  refine Tx.wp_statement i (stable_nil portal low i) (fun c d h p user hd hp hres => ?_) hd hp
  subst hp
  split at hres
  · cases hres
  · next hnone =>
    obtain rfl := Option.some.inj hres
    refine ⟨rfl, ?_, ?_, fun u hu => ?_⟩
    · simp [Engine.wanted, identityEngine, IdentityWrite.locks]
    · simp [Engine.wanted, identityEngine, IdentityWrite.locks]
    · have hother := List.any_eq_false.mp (Bool.not_eq_true _ ▸ hnone) u hu
      simpa using hother

/-- The role of members, and the user's. -/
theorem wp_giveMemberRole {user : PortalUser} {p : List IdentityWrite} (hd : IdentityInv d)
    (hp : p = [.insertUser user] ∧ UserPending low user d h) :
    Tx.wp (identityRule portal low) i (giveMemberRole user.id)
      (fun _ d h p => UserWrites user p ∧ UserPending low user d h) d h p := by
  unfold giveMemberRole
  rw [Tx.wp_bind]
  refine Tx.wp_statement i (stable_userPending portal low i user _) (fun c d h p _ hd hp _ => ?_) hd hp
  obtain ⟨rfl, huser⟩ := hp
  obtain ⟨roles, hroles, hwrites⟩ : ∃ roles : List IdentityWrite,
      (roles = [] ∨ ∃ role, roles = [.insertRole role])
      ∧ (if ((identityEngine low.lower).applyAll d [.insertUser user]).roles.any
          fun r => r.code = "member" then [] else [.insertRole ⟨c.id, "member", "member"⟩]) = roles := by
    split
    · exact ⟨[], Or.inl rfl, rfl⟩
    · exact ⟨_, Or.inr ⟨_, rfl⟩, rfl⟩
  rw [hwrites, Tx.wp_bind]
  refine Tx.wp_statement i (stable_userPending portal low i user (.insertUser user :: roles))
    (fun c d h p role hd hp _ => ?_) hd ⟨rfl, huser.append _⟩
  obtain ⟨rfl, huser⟩ := hp
  rw [List.append_nil]
  refine Tx.wp_statement i (stable_userPending portal low i user (.insertUser user :: roles))
    (fun c d h p _ hd hp _ => ?_) hd ⟨rfl, huser.append _⟩
  obtain ⟨rfl, huser⟩ := hp
  exact ⟨⟨roles, ⟨c.id, user.id, role.id⟩, hroles, rfl, rfl⟩, huser.append _⟩

theorem wp_insertIdentity {user : PortalUser} {new : NewExternalIdentity} {p : List IdentityWrite}
    (hd : IdentityInv d) (hp : UserWrites user p ∧ UserPending low user d h) :
    Tx.wp (identityRule portal low) i (insertIdentity new)
      (fun row d h p' => p' = p ++ [.insertIdentity row] ∧ UserPending low user d h
        ∧ IdentityPending row d h ∧ ∃ id, row = new.row id) d h p := by
  refine Tx.wp_statement i (stable_userPending portal low i user p) (fun c d h p' row hd hp' hres => ?_) hd
    ⟨rfl, hp.2⟩
  obtain ⟨rfl, huser⟩ := hp'
  split at hres
  · cases hres
  · next hnone =>
    obtain rfl := Option.some.inj hres
    rw [hp.1.identities] at hnone
    refine ⟨rfl, huser.append _, ⟨?_, ?_, fun r hr => ?_⟩, c.id, rfl⟩
    · simp [Engine.wanted, identityEngine, IdentityWrite.locks]
    · simp [Engine.wanted, identityEngine, IdentityWrite.locks]
    · have hother := List.any_eq_false.mp (Bool.not_eq_true _ ▸ hnone) r hr
      simp only [ExternalIdentity.clashes, Bool.or_eq_true, decide_eq_true_eq, Bool.and_eq_true,
        not_or] at hother
      exact hother.1

/-- **The statements of a provisioning.** -/
theorem wp_createJitUser {username password : String} {new : NewExternalIdentity}
    {p : List IdentityWrite} (hd : IdentityInv d) (hp : p = []) :
    Tx.wp (identityRule portal low) i (createJitUser low username password new)
      (fun provisioned d h p => Provisioned low provisioned d h p
        ∧ provisioned.identity.tenantId = new.tenantId ∧ provisioned.identity.objectId = new.objectId)
      d h p := by
  unfold createJitUser
  rw [Tx.wp_bind]
  refine Tx.wp_mono i (fun user d h p hd hp => ?_) hd (wp_insertUser hd hp)
  rw [Tx.wp_bind]
  refine Tx.wp_mono i (fun _ d h p hd hp => ?_) hd (wp_giveMemberRole hd hp)
  rw [Tx.wp_bind]
  refine Tx.wp_mono i (fun row d h p' hd hp' => ?_) hd (wp_insertIdentity hd hp)
  obtain ⟨rfl, huser, hrow, id, hnew⟩ := hp'
  rw [Tx.wp_bind]
  refine Tx.wp_statement i ((stable_userPending portal low i user _).and (stable_identityPending portal low i row _))
    (fun c d h p' _ hd hp' _ => ?_) hd ⟨⟨rfl, huser⟩, rfl, hrow⟩
  obtain ⟨⟨rfl, huser⟩, -, hrow⟩ := hp'
  obtain ⟨roles, userRole, hroles, hown, rfl⟩ := hp.1.writes
  refine ⟨⟨⟨⟨roles, userRole, hroles, hown, ?_⟩, huser.new, hrow.new, ?_⟩, huser.append _,
    hrow.append _⟩, ?_, ?_⟩
  · simp
  · rw [hnew]
    rfl
  · rw [hnew]
    rfl
  · rw [hnew]
    rfl

/-- A provisioning leaves the identity and its user. -/
theorem Provisioned.found {provisioned : JitProvisionedIdentity} {p : List IdentityWrite}
    (hp : Provisioned low provisioned d h p) :
    Found provisioned.user provisioned.identity ((identityEngine low.lower).applyAll d p) := by
  obtain ⟨husers, hids⟩ := hp.1.after
  refine ⟨⟨provisioned.identity, ?_, .refl _⟩, ?_, hp.1.userId.symm⟩
  · rw [hids]
    exact List.mem_append_right _ (List.mem_singleton.mpr rfl)
  · rw [husers]
    exact List.mem_append_right _ (List.mem_singleton.mpr rfl)

/-- What `find_or_create_jit_user` ends with. -/
def FoundOrCreated (low : Lowering) (tenantId objectId : String)
    (provisioned : JitProvisionedIdentity) : Assertion IdentityStore IdentityWrite IdentityLock :=
  fun d h p => (p = [] ∧ Found provisioned.user provisioned.identity d
      ∨ Provisioned low provisioned d h p)
    ∧ provisioned.identity.tenantId = tenantId ∧ provisioned.identity.objectId = objectId

theorem stable_foundOrCreated (tenantId objectId : String) (provisioned : JitProvisionedIdentity) :
    Stable (identityRule portal low) i (FoundOrCreated low tenantId objectId provisioned) := by
  rintro d d' h p hd ⟨hfound | hcreated, hkeys⟩ hr
  · exact ⟨Or.inl (stable_found portal low i _ _ d d' h p hd hfound hr), hkeys⟩
  · exact ⟨Or.inr (stable_provisioned provisioned d d' h p hd hcreated hr), hkeys⟩

theorem wp_findOrCreateJitUser {username password : String} {new : NewExternalIdentity}
    (hd : IdentityInv d) :
    Tx.wp (identityRule portal low) i (findOrCreateJitUser low username password new)
      (FoundOrCreated low new.tenantId new.objectId) d [] [] := by
  unfold findOrCreateJitUser
  rw [Tx.wp_bind]
  refine Tx.wp_statement i (stable_nil portal low i) (fun c d h p _ hd hp _ => ?_) hd rfl
  subst hp
  rw [Tx.wp_bind]
  refine Tx.wp_mono i (fun existing d h p hd hp => ?_) hd (wp_findByEntraObject hd rfl)
  obtain ⟨rfl, hexisting⟩ := hp
  cases existing with
  | some row =>
    obtain ⟨hknown, hkeys⟩ := hexisting row rfl
    show Tx.wp _ i (findUser row.userId >>= _) _ d h []
    rw [Tx.wp_bind]
    refine Tx.wp_mono i (fun user d h p hd hp => ?_) hd (wp_findUser hd ⟨rfl, hknown⟩)
    exact ⟨Or.inl hp, hkeys⟩
  | none =>
    refine Tx.wp_mono i (fun provisioned d h p hd hp => ?_) hd (wp_createJitUser hd rfl)
    exact ⟨Or.inr hp.1, hp.2⟩

/-- **A login is sound.** -/
theorem sound_resolvePortalUser (hi : portal i = true) {config : EntraConfig}
    {claims : ValidatedEntraClaims} {password : String} {now : DateTime} :
    Sound (identityRule portal low) i (resolvePortalUser low config claims password now) := by
  intro d hd
  refine Safe.runThen i (sound_done i) (fun existing => stable_ofObject _ _ existing)
    (fun existing d h p hd _ hp => ⟨.quiet hp.1, ?_⟩) hd (fun _ hw => (List.not_mem_nil hw).elim)
    (wp_findByEntraObject hd rfl)
  obtain ⟨rfl, hexisting⟩ := hp
  cases existing with
  | some row =>
    obtain ⟨hknown, htenant, hobject⟩ := hexisting row rfl
    refine Safe.runThen i (sound_done i) (fun user => stable_found portal low i user row)
      (fun user d h p hd _ hp => ⟨.quiet hp.1, ?_⟩) hd (fun _ hw => (List.not_mem_nil hw).elim)
      (wp_findUser hd ⟨rfl, hknown⟩)
    obtain ⟨rfl, hfound⟩ := hp
    exact safe_finishLogin htenant hobject hi hd hfound
  | none =>
    show Safe _ i (if config.jitProvisioning then _ else _) d [] []
    split
    · refine Safe.runThen i (sound_done i) (fun provisioned => stable_foundOrCreated _ _ provisioned)
        (fun provisioned d h p hd _ hp => ?_) hd (fun _ hw => (List.not_mem_nil hw).elim)
        (wp_findOrCreateJitUser hd)
      obtain ⟨⟨rfl, hfound⟩ | hcreated, htenant, hobject⟩ := hp
      · exact ⟨.quiet rfl, safe_finishLogin htenant hobject hi hd hfound⟩
      · have hguar : IdentityGuar low d p true := .provisions _ _ hcreated.1
        exact ⟨hguar.of hi, safe_finishLogin htenant hobject hi (hd.commit hguar) hcreated.found⟩
    · trivial

/-! ## Links -/

/-- What a link has written for its outcome. -/
def LinkWritten : LinkOutcome → Assertion IdentityStore IdentityWrite IdentityLock
  | .created => fun d h p => ∃ row, p = [.insertIdentity row] ∧ IdentityPending row d h
  | .subjectAdded => fun d h p => ∃ r ∈ d.identities, ∃ subject, r.accepts subject
      ∧ .identity r.id ∈ h ∧ p = [.setSubject r.id subject]
  | .alreadyLinked => fun _ _ p => p = []

/-- …and with the audit row. -/
def LinkAudited : LinkOutcome → Assertion IdentityStore IdentityWrite IdentityLock
  | .created => fun d h p => ∃ row audit, p = [.insertIdentity row, .audit audit]
      ∧ IdentityPending row d h
  | .subjectAdded => fun d h p => ∃ r ∈ d.identities, ∃ subject audit, r.accepts subject
      ∧ .identity r.id ∈ h ∧ p = [.setSubject r.id subject, .audit audit]
  | .alreadyLinked => fun _ _ p => p = []

theorem stable_linkWritten (outcome : LinkOutcome) :
    Stable (identityRule portal low) i (LinkWritten outcome) := by
  intro d d' h p hd hp hr
  obtain ⟨h', hm, hfree⟩ := identityMoved_of_relies hd hr
  cases outcome with
  | created =>
    obtain ⟨row, hp, hrow⟩ := hp
    exact ⟨row, hp, hrow.moved hm hfree⟩
  | subjectAdded =>
    obtain ⟨r, hmem, subject, haccepts, hlock, hp⟩ := hp
    exact ⟨r, hm.same r hmem (hfree _ hlock), subject, haccepts, hlock, hp⟩
  | alreadyLinked => exact hp

theorem stable_linkAudited (outcome : LinkOutcome) :
    Stable (identityRule portal low) i (LinkAudited outcome) := by
  intro d d' h p hd hp hr
  obtain ⟨h', hm, hfree⟩ := identityMoved_of_relies hd hr
  cases outcome with
  | created =>
    obtain ⟨row, audit, hp, hrow⟩ := hp
    exact ⟨row, audit, hp, hrow.moved hm hfree⟩
  | subjectAdded =>
    obtain ⟨r, hmem, subject, audit, haccepts, hlock, hp⟩ := hp
    exact ⟨r, hm.same r hmem (hfree _ hlock), subject, audit, haccepts, hlock, hp⟩
  | alreadyLinked => exact hp

theorem LinkAudited.guar {outcome : LinkOutcome} {p : List IdentityWrite}
    (hp : LinkAudited outcome d h p) : IdentityGuar low d p false := by
  cases outcome with
  | created =>
    obtain ⟨row, audit, hp, hrow⟩ := hp
    exact .links row audit hrow.new hp
  | subjectAdded =>
    obtain ⟨r, hmem, subject, audit, haccepts, -, hp⟩ := hp
    exact .addsSubject r hmem subject haccepts audit hp
  | alreadyLinked => exact .quiet hp

theorem wp_requireSubjectFree {issuer : String} {subject : Option String} {p : List IdentityWrite}
    (hd : IdentityInv d) (hp : p = []) :
    Tx.wp (identityRule portal low) i (requireSubjectFree issuer subject) (fun _ _ _ p => p = []) d h p := by
  cases subject with
  | some subject =>
    exact Tx.wp_statement i (stable_nil portal low i) (fun _ _ _ _ _ _ hp _ => by rw [hp]; rfl) hd hp
  | none => exact hp

theorem wp_resolveExistingIdentity {identity : ExternalIdentity} {user : PortalUser} {issuer : String}
    {subject : Option String} {p : List IdentityWrite} (hd : IdentityInv d) (hp : p = []) :
    Tx.wp (identityRule portal low) i (resolveExistingIdentity identity user issuer subject) LinkWritten
      d h p := by
  unfold resolveExistingIdentity
  split
  · trivial
  · split
    · trivial
    · split
      · split
        · trivial
        · exact hp
      · next subject _ =>
        rw [Tx.wp_bind]
        refine Tx.wp_mono i (fun _ d h p hd hp => ?_) hd (wp_requireSubjectFree hd hp)
        rw [Tx.wp_bind]
        refine wp_updateSubject (A := fun _ => True) (fun c => by simp [IdentityWrite.locks])
          (fun _ _ _ _ _ hp _ => hp) (fun c d h r hd _ hr hid hq hlock => ?_) hd ⟨hp, trivial⟩
        exact ⟨r, hr, subject, hq, hid ▸ hlock, by rw [hid]⟩
      · exact hp

theorem wp_insertIdentityUnlessClash {new : NewExternalIdentity} {p : List IdentityWrite}
    (hd : IdentityInv d) (hp : p = []) :
    Tx.wp (identityRule portal low) i (insertIdentityUnlessClash new)
      (fun inserted => LinkWritten (if inserted.isSome then .created else .alreadyLinked)) d h p := by
  refine Tx.wp_statement i (stable_nil portal low i) (fun c d h p inserted hd hp hres => ?_) hd hp
  subst hp
  obtain rfl := Option.some.inj hres
  rw [Engine.applyAll_nil]
  split
  · exact rfl
  · next hnone =>
    refine ⟨new.row c.id, rfl, ?_, ?_, fun r hr => ?_⟩
    · simp [Engine.wanted, identityEngine, IdentityWrite.locks]
    · simp [Engine.wanted, identityEngine, IdentityWrite.locks]
    · have hother := List.any_eq_false.mp (Bool.not_eq_true _ ▸ hnone) r hr
      simp only [ExternalIdentity.clashes, Bool.or_eq_true, decide_eq_true_eq, Bool.and_eq_true,
        not_or] at hother
      exact hother.1

theorem wp_createEntraIdentity {new : NewExternalIdentity} {user : PortalUser}
    {p : List IdentityWrite} (hd : IdentityInv d) (hp : p = []) :
    Tx.wp (identityRule portal low) i (createEntraIdentity new user) LinkWritten d h p := by
  unfold createEntraIdentity
  rw [Tx.wp_bind]
  refine Tx.wp_mono i (fun _ d h p hd hp => ?_) hd (wp_requireSubjectFree hd hp)
  rw [Tx.wp_bind]
  refine Tx.wp_mono i (fun inserted d h p hd hp => ?_) hd (wp_insertIdentityUnlessClash hd hp)
  cases inserted with
  | some row => exact hp
  | none =>
    show Tx.wp _ i (findByEntraObject new.tenantId new.objectId >>= _) _ d h p
    rw [Tx.wp_bind]
    refine Tx.wp_mono i (fun existing d h p hd hp => ?_) hd (wp_findByEntraObject hd hp)
    cases existing with
    | some identity => exact wp_resolveExistingIdentity hd hp.1
    | none => trivial

theorem wp_writeLinkAudit {tenantId objectId : String} {outcome : LinkOutcome}
    {p : List IdentityWrite} (hd : IdentityInv d) (hp : LinkWritten outcome d h p) :
    Tx.wp (identityRule portal low) i (writeLinkAudit tenantId objectId outcome)
      (fun _ => LinkAudited outcome) d h p := by
  cases outcome with
  | created =>
    refine Tx.wp_statement i (stable_linkWritten .created) (fun c d h p _ hd hp _ => ?_) hd hp
    obtain ⟨row, rfl, hrow⟩ := hp
    exact ⟨row, _, rfl, hrow.append _⟩
  | subjectAdded =>
    refine Tx.wp_statement i (stable_linkWritten .subjectAdded) (fun c d h p _ hd hp _ => ?_) hd hp
    obtain ⟨r, hr, subject, haccepts, hlock, rfl⟩ := hp
    exact ⟨r, hr, subject, _, haccepts, List.mem_append_left _ hlock, rfl⟩
  | alreadyLinked => exact hp

theorem wp_findCliUser {selector : UserSelector} {p : List IdentityWrite} (hd : IdentityInv d)
    (hp : p = []) :
    Tx.wp (identityRule portal low) i (findCliUser low selector) (fun _ _ _ p => p = []) d h p := by
  cases selector with
  | id n => exact Tx.wp_statement i (stable_nil portal low i) (fun _ _ _ _ _ _ hp _ => by rw [hp]; rfl) hd hp
  | username name =>
    exact Tx.wp_statement i (stable_nil portal low i) (fun _ _ _ _ _ _ hp _ => by rw [hp]; rfl) hd hp

/-- **A link is sound.** -/
theorem sound_linkEntra (hi : portal i = false) {selector : UserSelector}
    {tenantId objectId issuer : String} {subject : Option String} :
    Sound (identityRule portal low) i
      ((linkEntra low selector tenantId objectId issuer subject).run (fun _ => .done) .done) := by
  refine Sound.run i (fun _ => sound_done i) (sound_done i) (fun outcome => stable_linkAudited outcome)
    (fun outcome d h p _ hp => hp.guar.of hi) fun d hd => ?_
  unfold linkEntra
  rw [Tx.wp_bind]
  refine Tx.wp_statement i (stable_nil portal low i) (fun c d h p _ hd hp _ => ?_) hd rfl
  subst hp
  rw [Tx.wp_bind]
  refine Tx.wp_mono i (fun user d h p hd hp => ?_) hd (wp_findCliUser hd rfl)
  rw [Tx.wp_bind]
  refine Tx.wp_mono i (fun existing d h p hd hp => ?_) hd (wp_findByEntraObject hd hp)
  rw [Tx.wp_bind]
  have hlinked : Tx.wp (identityRule portal low) i (linkObject ⟨0, issuer, subject, tenantId, objectId,
      ⟨none, none, none, none⟩⟩ user existing) LinkWritten d h p := by
    cases existing with
    | some identity => exact wp_resolveExistingIdentity hd hp.1
    | none => exact wp_createEntraIdentity hd hp.1
  refine Tx.wp_mono i (fun outcome d h p hd hp => ?_) hd hlinked
  rw [Tx.wp_bind]
  exact wp_writeLinkAudit hd hp

theorem sound_of_identityStarts {q : IdentityProgram} (hq : IdentityStarts low (portal i) q) :
    Sound (identityRule portal low) i q := by
  generalize hi : portal i = b at hq
  cases hq with
  | login config claims password now => exact sound_resolvePortalUser hi
  | link selector tenantId objectId issuer subject => exact sound_linkEntra hi

end Programs

/-! ## Every run -/

section History

variable {I : Type} {portal : I → Bool} {low : Lowering} {d₀ d : IdentityStore}
  {log : List (Commit I IdentityStore IdentityWrite IdentityLock)}

/-- An identity that was there at the start is still there. -/
theorem kept_of_start (hlog : History (identityRule portal low) d₀ log d) {r : ExternalIdentity}
    (hr : r ∈ d₀.identities) : ∃ r' ∈ d.identities, r'.Continues r := by
  induction hlog with
  | nil => exact ⟨r, hr, .refl r⟩
  | cons _ hinv hcov hguar ih =>
    obtain ⟨r₁, hr₁, hcontinues⟩ := ih
    obtain ⟨r', hr', hcontinues'⟩ := (IdentityGuar.moved hinv hguar hcov).kept r₁ hr₁
    exact ⟨r', hr', hcontinues'.trans hcontinues⟩

/-- An identity that a commit left is still there. -/
theorem kept_of_commit (hlog : History (identityRule portal low) d₀ log d)
    {c : Commit I IdentityStore IdentityWrite IdentityLock} (hc : c ∈ log) {r : ExternalIdentity}
    (hr : r ∈ ((identityEngine low.lower).applyAll c.before c.writes).identities) :
    ∃ r' ∈ d.identities, r'.Continues r := by
  induction hlog with
  | nil => exact (List.not_mem_nil hc).elim
  | cons _ hinv hcov hguar ih =>
    rcases List.mem_cons.mp hc with rfl | hc
    · exact ⟨r, hr, .refl r⟩
    · obtain ⟨r₁, hr₁, hcontinues⟩ := ih hc
      obtain ⟨r', hr', hcontinues'⟩ := (IdentityGuar.moved hinv hguar hcov).kept r₁ hr₁
      exact ⟨r', hr', hcontinues'.trans hcontinues⟩

/-- **What the portal commits**: a provisioning or a login. -/
theorem IdentityGuar.portal_writes {p : List IdentityWrite} (hp : IdentityGuar low d p true)
    {x : IdentityWrite} (hx : x ∈ p) :
    (∃ user row, Provisions low d p user row ∧ ∀ l, x ≠ .login l)
      ∨ ∃ r ∈ d.identities, ∃ profile l, l.For r d ∧ p = [.setProfile r.id l.subject profile, .login l] := by
  cases hp with
  | quiet hp =>
    subst hp
    cases hx
  | provisions user row hp =>
    refine Or.inl ⟨user, row, hp, fun l hl => ?_⟩
    subst hl
    obtain ⟨roles, userRole, hroles, -, hwrites⟩ := hp.writes
    rw [hwrites] at hx
    rcases hroles with rfl | ⟨role, rfl⟩ <;> simp at hx
  | logsIn r hr profile l hl hp => exact Or.inr ⟨r, hr, profile, l, hl, hp⟩

/-- What the CLI commits makes no user. -/
theorem IdentityGuar.cli_writes {p : List IdentityWrite} (hp : IdentityGuar low d p false) :
    (∀ user, .insertUser user ∉ p) ∧ (∀ role, .insertRole role ∉ p)
      ∧ (∀ userRole, .insertUserRole userRole ∉ p) ∧ ∀ l, .login l ∉ p := by
  cases hp with
  | quiet hp =>
    subst hp
    simp
  | links row audit hrow hp =>
    subst hp
    simp
  | addsSubject r hr subject haccepts audit hp =>
    subst hp
    simp

/-- A user, a role or an identity comes from the portal with a provisioning only. -/
theorem IdentityGuar.provisions_of_mem {p : List IdentityWrite} (hp : IdentityGuar low d p true)
    {x : IdentityWrite} (hx : x ∈ p) (hprofile : ∀ id subject profile, x ≠ .setProfile id subject profile)
    (hlogin : ∀ l, x ≠ .login l) : ∃ user row, Provisions low d p user row := by
  rcases hp.portal_writes hx with ⟨user, row, hprov, -⟩ | ⟨r, -, profile, l, -, hp⟩
  · exact ⟨user, row, hprov⟩
  · rw [hp] at hx
    simp [hprofile, hlogin] at hx

/-- A login returns the user of the identity it leaves. -/
theorem IdentityGuar.login_after {p : List IdentityWrite} {b : Bool}
    (hp : IdentityGuar low d p b) {l : PortalLogin} (hl : .login l ∈ p) :
    ∃ r ∈ ((identityEngine low.lower).applyAll d p).identities,
      r.tenantId = l.tenantId ∧ r.objectId = l.objectId ∧ r.userId = l.user.id
      ∧ r.issuer = l.issuer ∧ r.subject = some l.subject
      ∧ l.user ∈ ((identityEngine low.lower).applyAll d p).users := by
  cases b with
  | false => exact ((hp.cli_writes).2.2.2 l hl).elim
  | true =>
    rcases hp.portal_writes hl with ⟨_, _, _, hnot⟩ | ⟨r, hr, profile, l', hfor, hp⟩
    · exact (hnot l rfl).elim
    · subst hp
      obtain rfl : l = l' := by simpa using hl
      refine ⟨{ r with subject := some l.subject, profile := profile }, ?_, hfor.tenantId.symm,
        hfor.objectId.symm, hfor.user.symm, hfor.issuer.symm, rfl, hfor.mem⟩
      exact Table.mem_update.mpr ⟨r, hr, by simp⟩

end History

/-- **External identities are safe.**  In every run of logins and links, from a store that keeps its
unique keys: an object of Entra has one identity, and with it one user; what a login creates is a
provisioning as a whole — a user that is new in id and name, and an identity of that user; an identity,
once there, stays with its user and keeps its subject; and a login that succeeds returns the user of the
identity of its object, with its issuer and subject. -/
theorem external_identity_safety {I : Type} [DecidableEq I] (portal : I → Bool) (low : Lowering)
    {d₀ : IdentityStore} (hd₀ : IdentityInv d₀)
    {w : World I IdentityDraw IdentityStore IdentityWrite IdentityLock}
    (hw : Reachable (identityEngine low.lower) (fun i => IdentityStarts low (portal i)) (World.idle d₀)
      w) :
    let after (c : Commit I IdentityStore IdentityWrite IdentityLock) : IdentityStore :=
      (identityEngine low.lower).applyAll c.before c.writes
    (∀ r ∈ w.db.identities, ∀ r' ∈ w.db.identities,
      r.tenantId = r'.tenantId → r.objectId = r'.objectId → r = r')
    ∧ (∀ c ∈ w.log, ∀ x ∈ c.writes,
      (∃ user, x = .insertUser user) ∨ (∃ role, x = .insertRole role)
        ∨ (∃ userRole, x = .insertUserRole userRole)
        ∨ (portal c.session ∧ ∃ row, x = .insertIdentity row) →
      ∃ user row, Provisions low c.before c.writes user row)
    ∧ (∀ r ∈ d₀.identities, ∃ r' ∈ w.db.identities, r'.Continues r)
    ∧ (∀ c ∈ w.log, ∀ r ∈ (after c).identities, ∃ r' ∈ w.db.identities, r'.Continues r)
    ∧ ∀ c ∈ w.log, ∀ l, .login l ∈ c.writes → ∃ r ∈ (after c).identities,
      r.tenantId = l.tenantId ∧ r.objectId = l.objectId ∧ r.userId = l.user.id
      ∧ r.issuer = l.issuer ∧ r.subject = some l.subject ∧ l.user ∈ (after c).users := by
  intro after
  have hok := World.ok_idle (ρ := identityRule portal low) (C := IdentityDraw) hd₀
  have hstarts : ∀ i q, IdentityStarts low (portal i) q → Sound (identityRule portal low) i q :=
    fun _ _ => sound_of_identityStarts
  obtain ⟨log, hlog, hhistory⟩ := history hstarts hok hw
  rw [show w.log = log from hlog.trans (List.append_nil log)]
  have hinv : IdentityInv w.db := (sound hstarts hok hw).inv
  refine ⟨fun r hr r' hr' htenant hobject => ?_, fun c hc x hx hkind => ?_,
    fun r hr => kept_of_start hhistory hr, fun c hc r hr => kept_of_commit hhistory hc hr,
    fun c hc l hl => ?_⟩
  · exact Table.eq_of_key_eq hinv.objects hr hr' (Prod.ext htenant hobject)
  · obtain ⟨-, -, hguar⟩ := hhistory.of_mem hc
    have hguar : IdentityGuar low c.before c.writes (portal c.session) := hguar
    cases hportal : portal c.session with
    | true =>
      rw [hportal] at hguar
      refine hguar.provisions_of_mem hx (fun id subject profile heq => ?_) (fun l heq => ?_)
      · subst heq
        simp at hkind
      · subst heq
        simp at hkind
    | false =>
      rw [hportal] at hguar
      obtain ⟨huser, hrole, huserRole, -⟩ := hguar.cli_writes
      rcases hkind with ⟨user, rfl⟩ | ⟨role, rfl⟩ | ⟨userRole, rfl⟩ | ⟨hportal', -⟩
      · exact (huser user hx).elim
      · exact (hrole role hx).elim
      · exact (huserRole userRole hx).elim
      · rw [hportal] at hportal'
        cases hportal'
  · obtain ⟨-, -, hguar⟩ := hhistory.of_mem hc
    exact IdentityGuar.login_after hguar hl

namespace Sample

/-- Bob has an account. -/
def bobsStore : IdentityStore := ⟨[⟨1, "bob", "secret"⟩], [], [], [], [], []⟩

/-- Texts that are lowered already. -/
def lowered : Lowering := ⟨id, id⟩

/-- The sessions of two devices and of the CLI. -/
inductive Party
  | laptop | phone | cli
  deriving DecidableEq

abbrev IdentityWorld := World Party IdentityDraw IdentityStore IdentityWrite IdentityLock

abbrev IdentityReachable : IdentityWorld → Prop :=
  Reachable (identityEngine lowered.lower) (fun i => IdentityStarts lowered (i != .cli))
    (World.idle bobsStore)

/-- Alice logs in. -/
def aliceLogin : IdentityProgram :=
  resolvePortalUser lowered ⟨"issuer", true⟩
    ⟨"sub", "tenant", "object", some "alice@x", none, none⟩ "random" 0

/-- Her object is to be Bob's. -/
def bobsLink : IdentityProgram :=
  (linkEntra lowered (.username "bob") "tenant" "object" "issuer" none).run (fun _ => .done) .done

def identityDraws (n : Nat) : List IdentityDraw := List.replicate n ⟨2, 0⟩

/-- A session goes on by `n` steps. -/
def IdentityWorld.goesOn (w : IdentityWorld) (i : Party) (n : Nat) : IdentityWorld :=
  w.advance (identityEngine id) i (List.replicate n ⟨2, 0⟩)

/-- A device logs in, up to the answer that the object has no identity. -/
def IdentityWorld.looks (w : IdentityWorld) (i : Party) : IdentityWorld :=
  IdentityWorld.goesOn (w.after (identityEngine id) (.start i aliceLogin)) i 2

/-- Both devices look; the first one provisions, and the second comes to it then. -/
def worldReturned : IdentityWorld :=
  (((IdentityWorld.looks (World.idle bobsStore) .laptop).looks .phone).goesOn .laptop 11).goesOn
    .phone 6

/-- Then the link is tried. -/
def worldAlice : IdentityWorld :=
  IdentityWorld.goesOn (worldReturned.after (identityEngine id) (.start .cli bobsLink)) .cli 4

theorem IdentityReachable.goesOn {w : IdentityWorld} (hw : IdentityReachable w) {i : Party}
    (hfree : ∀ j, (w.session j).held = []) (n : Nat) : IdentityReachable (w.goesOn i n) :=
  Reachable.advance hw (fun j _ => hfree j) _

theorem reachable_worldReturned : IdentityReachable worldReturned := by
  have hlaptop : IdentityReachable (IdentityWorld.looks (World.idle bobsStore) .laptop) := by
    refine IdentityReachable.goesOn (Reachable.refl.start rfl (.login ..)) (fun j => ?_) 2
    cases j <;> rfl
  have hphone : IdentityReachable
      ((IdentityWorld.looks (World.idle bobsStore) .laptop).looks .phone) := by
    refine IdentityReachable.goesOn (hlaptop.start rfl (.login ..)) (fun j => ?_) 2
    cases j <;> rfl
  refine (hphone.goesOn (fun j => ?_) 11).goesOn (fun j => ?_) 6 <;> cases j <;> rfl

theorem reachable_worldAlice : IdentityReachable worldAlice := by
  refine IdentityReachable.goesOn (reachable_worldReturned.start rfl (.link ..)) (fun j => ?_) 4
  cases j <;> rfl

theorem identityInv_bobsStore : IdentityInv bobsStore :=
  ⟨List.nodup_singleton _, Table.keyed_nil, Table.keyed_nil⟩

end Sample

open Sample in
/-- Two first logins of one object at once, and a link of the object to another user: one of them
provisions, and both return that user. -/
theorem external_identity_safety_alice :
    worldAlice.db.logins.map (fun l => (l.objectId, l.user.id)) = [("object", 2), ("object", 2)]
    ∧ worldAlice.db.identities.map (fun r => (r.objectId, r.userId)) = [("object", 2)]
    ∧ (∃ c ∈ worldAlice.log, ∃ user row, Provisions lowered c.before c.writes user row)
    ∧ (∀ r ∈ worldAlice.db.identities, ∀ r' ∈ worldAlice.db.identities,
      r.tenantId = r'.tenantId → r.objectId = r'.objectId → r = r')
    ∧ ∀ c ∈ worldAlice.log, ∀ l, .login l ∈ c.writes →
      ∃ r ∈ ((identityEngine id).applyAll c.before c.writes).identities,
        r.objectId = l.objectId ∧ r.userId = l.user.id ∧ r.subject = some l.subject := by
  obtain ⟨hone, hprovisions, -, -, hlogins⟩ := external_identity_safety (fun i => i != Party.cli)
    lowered identityInv_bobsStore reachable_worldAlice
  refine ⟨rfl, rfl, ?_, hone, fun c hc l hl => ?_⟩
  · obtain ⟨c, hc, hinsert⟩ : ∃ c, worldAlice.log[3]? = some c
        ∧ c.writes.head? = some (.insertUser ⟨2, "alice-object", "random"⟩) := ⟨_, rfl, rfl⟩
    have hlog : c ∈ worldAlice.log := List.mem_of_getElem? hc
    exact ⟨c, hlog, hprovisions c hlog _ (List.mem_of_head? hinsert) (Or.inl ⟨_, rfl⟩)⟩
  · obtain ⟨r, hr, -, hobject, huser, -, hsubject, -⟩ := hlogins c hc l hl
    exact ⟨r, hr, hobject, huser, hsubject⟩

end DevPortal
