import DevPortal.Catalog.Tables

/-!
# Auth/RequestGuard — who sends a request, and what they may

    Authorization: Bearer t ─┐
    Cookie: idp_session=t ───┴▸ session ▸ not expired? ▸ user ▸ roles ▸ AuthenticatedUser
                                 └─ expired, or without a user: deleted

A cookie is sent by a browser on its own, so a request that may change something needs a header beside
it that a foreign page cannot set.  What a guard has let through it has seen: `Authenticated`,
`SeenAdmin` and `SeenMember` say where in the past of the request.
-/

namespace DevPortal

open Autocommit

namespace Catalog

/-! ## The request -/

/-- `rocket::http::Method`. -/
inductive Method
  | get | head | options | post | put | delete
  deriving DecidableEq

/-- `Method::Get | Method::Head | Method::Options`. -/
def Method.isSafe (m : Method) : Bool := m = .get || m = .head || m = .options

/-- The headers of a request that the guard reads: all values of each, in their order. -/
structure HttpHeaders where
  authorization : List String
  cookies : List (String × String)
  csrf : List String

/-- What the guard is given: the environment of `AppConfig`, and `session_token_hash`. -/
structure AuthEnv where
  environment : String
  sessionTokenHash : String → String

/-- `session_cookie_name`. -/
def AuthEnv.sessionCookieName (env : AuthEnv) : String :=
  if env.environment = "production" then "__Host-idp_session" else "idp_session"

/-- `RequestToken`. -/
inductive RequestToken
  | bearer (token : String)
  | cookie (token : String)
  deriving DecidableEq

def RequestToken.value : RequestToken → String
  | bearer token => token
  | cookie token => token

def RequestToken.isCookie : RequestToken → Bool
  | bearer _ => false
  | cookie _ => true

/-- `bearer_token`. -/
def bearerToken (h : HttpHeaders) : Option String := do
  let value ← h.authorization.head?
  let (scheme, token) ← Text.splitOnce value ' '
  if scheme.toLower = "bearer" && !Text.isBlank token then some token else none

/-- `request_token`: an `Authorization` header hides the cookie. -/
def AuthEnv.requestToken (env : AuthEnv) (h : HttpHeaders) : Option RequestToken :=
  if h.authorization.isEmpty then
    ((h.cookies.lookup env.sessionCookieName).filter fun token => !Text.isBlank token).map .cookie
  else (bearerToken h).map .bearer

/-- The token may be used with the method: one of a cookie needs `X-IDP-CSRF: 1`. -/
def csrfSafe (method : Method) (h : HttpHeaders) (token : RequestToken) : Bool :=
  !token.isCookie || method.isSafe || h.csrf.head? = some "1"

/-! ## The guard -/

/-- `AuthenticatedUser`. -/
structure AuthenticatedUser where
  user : PortalUser
  session : PortalSession
  roles : List Role
  token : String

namespace AuthenticatedUser

/-- `AuthenticatedUser::has_role`. -/
def hasRole (auth : AuthenticatedUser) (code : String) : Bool := auth.roles.any (·.code = code)

/-- `AuthenticatedUser::is_admin`. -/
def isAdmin (auth : AuthenticatedUser) : Bool := auth.hasRole "admin"

end AuthenticatedUser

/-- A connection of the pool. -/
def connect : Call Unit :=
  .stmt (fun _ d => d) fun c _ => match c.fate with
    | .answered => .ret ()
    | .refused => .throw .serviceUnavailable
    | .lost => .throw .internal

/-- `Utc::now`. -/
def utcNow : Call DateTime := Routine.read fun _ d => d.clock

/-- The session of a token that is good for nothing goes, and the request is refused. -/
def dropSession {α : Type} (hash : String → String) (token : String) : Call α := do
  let _ ← SessionRepository.deleteByToken hash token
  .throw .unauthorized

/-- `AuthenticatedUser::from_request`, once it has a token. -/
def AuthenticatedUser.ofToken (hash : String → String) (token : String) :
    Call AuthenticatedUser := do
  connect
  let session ← SessionRepository.findByToken hash token
  match session with
  | Except.error .notFound => .throw .unauthorized
  | Except.error e => .throw (.ofDiesel e)
  | Except.ok session =>
    let now ← utcNow
    if session.expiresAt ≤ now then dropSession hash token
    else
      let user ← UserRepository.find session.userId
      match user with
      | Except.error .notFound => dropSession hash token
      | Except.error e => .throw (.ofDiesel e)
      | Except.ok user =>
        let roles ← orFail (RoleRepository.findByUser user)
        pure ⟨user, session, roles, token⟩

/-- `AuthenticatedUser::from_request`. -/
def AuthenticatedUser.fromRequest (env : AuthEnv) (method : Method) (h : HttpHeaders) :
    Call AuthenticatedUser :=
  match env.requestToken h with
  | none => .throw .unauthorized
  | some token =>
    if csrfSafe method h token then AuthenticatedUser.ofToken env.sessionTokenHash token.value
    else .throw .forbidden

/-! ## What a route demands -/

/-- `require_admin`. -/
def requireAdmin (auth : AuthenticatedUser) : Call Unit :=
  if auth.isAdmin then pure () else .throw .forbidden

/-- `require_maintainer_member_role`. -/
def requireMaintainerMemberRole (auth : AuthenticatedUser) (maintainerId : Int)
    (allowedRoles : List String) : Call Unit :=
  if auth.isAdmin then pure ()
  else do
    let membership ←
      MaintainerMemberRepository.findByMaintainerAndUser maintainerId auth.user.id
    match membership with
    | Except.ok member => if member.role ∈ allowedRoles then pure () else .throw .forbidden
    | Except.error .notFound => .throw .forbidden
    | Except.error e => .throw (.ofDiesel e)

/-- Who may change what belongs to a maintainer. -/
def writers : List String := ["owner", "maintainer"]

/-- Who may change its members. -/
def owners : List String := ["owner"]

/-- `require_maintainer_write_access`. -/
def requireMaintainerWriteAccess (auth : AuthenticatedUser) (maintainerId : Int) : Call Unit :=
  requireMaintainerMemberRole auth maintainerId writers

/-- `require_maintainer_owner_access`. -/
def requireMaintainerOwnerAccess (auth : AuthenticatedUser) (maintainerId : Int) : Call Unit :=
  requireMaintainerMemberRole auth maintainerId owners

/-- `require_user_directory_access`. -/
def requireUserDirectoryAccess (auth : AuthenticatedUser) : Call Unit :=
  if auth.isAdmin then pure ()
  else do
    let memberships ← orFail (MaintainerMemberRepository.findByUser auth.user.id)
    if memberships.any (·.role = "owner") then pure () else .throw .forbidden

/-! ## What a request has seen -/

section Seen

variable (hash : String → String) (past : List (Step Store))

/-- The request has seen a state with `p`. -/
def Seen (p : Store → Prop) : Prop := ∃ s ∈ past, p s.before

/-- A session of the user under this token, and a clock before its end. -/
def SeenSession (token : String) (userId : Nat) : Prop :=
  ∃ session : PortalSession, session.tokenHash = hash token ∧ session.userId = userId ∧
    Seen past (fun d => session ∈ d.sessions) ∧ Seen past fun d => d.clock < session.expiresAt

/-- A membership of the user at the maintainer with one of these roles. -/
def SeenMember (userId : Nat) (maintainerId : Int) (roles : List String) : Prop :=
  Seen past fun d => ∃ m ∈ d.members, m.isOf maintainerId userId ∧ m.role ∈ roles

/-- A role of the user that is that of the administrators. -/
def SeenAdmin (userId : Nat) : Prop :=
  ∃ roleId, (Seen past fun d => ∃ r ∈ d.usersRoles, r.userId = userId ∧ r.roleId = roleId) ∧
    Seen past fun d => ∃ role ∈ d.roles, role.id = roleId ∧ role.code = "admin"

/-- An administrator, or a member with one of these roles. -/
def SeenRight (userId : Nat) (maintainerId : Int) (roles : List String) : Prop :=
  SeenAdmin past userId ∨ SeenMember past userId maintainerId roles

end Seen

variable {hash : String → String} {past : List (Step Store)}

/-- What has been seen stays seen. -/
theorem Seen.append {p : Store → Prop} (h : Seen past p) (new : List (Step Store)) :
    Seen (new ++ past) p := by
  obtain ⟨s, hs, hp⟩ := h
  exact ⟨s, List.mem_append_right _ hs, hp⟩

theorem Seen.cons {p : Store → Prop} (h : Seen past p) (s : Step Store) : Seen (s :: past) p :=
  h.append [s]

theorem seen_head {p : Store → Prop} {d d' : Store} (h : p d) : Seen (⟨d, d'⟩ :: past) p :=
  ⟨_, List.mem_cons_self, h⟩

theorem SeenSession.append {token : String} {u : Nat} (h : SeenSession hash past token u)
    (new : List (Step Store)) : SeenSession hash (new ++ past) token u := by
  obtain ⟨session, htoken, huser, hrow, hclock⟩ := h
  exact ⟨session, htoken, huser, hrow.append new, hclock.append new⟩

theorem SeenAdmin.append {u : Nat} (h : SeenAdmin past u) (new : List (Step Store)) :
    SeenAdmin (new ++ past) u := by
  obtain ⟨roleId, huser, hrole⟩ := h
  exact ⟨roleId, huser.append new, hrole.append new⟩

theorem SeenRight.append {u : Nat} {m : Int} {roles : List String}
    (h : SeenRight past u m roles) (new : List (Step Store)) :
    SeenRight (new ++ past) u m roles :=
  h.imp (fun h => h.append new) fun h => h.append new

/-! ## Statements, by what they leave -/

section Rules

variable {P : List (Step Store) → Step Store → Prop} {E : ApiError → List (Step Store) → Prop}
  {α : Type} {past : List (Step Store)}

/-- The rule of an error, where one is as good as any other. -/
theorem wp_fails {Q : α → List (Step Store) → Prop} (hE : ∀ e p, E e p) {e : ApiError} :
    (Routine.throw e : Call α).wp P E Q past := (Routine.wp_throw e).mpr (hE e past)

/-- The rule of a result. -/
theorem wp_returns {Q : α → List (Step Store) → Prop} {a : α} (h : Q a past) :
    (pure a : Call α).wp P E Q past := (Routine.wp_pure a).mpr h

/-- **The rule of a statement**: carried out or not, answered or not. -/
theorem wp_query {run : Statement α} {Q : QueryResult α → List (Step Store) → Prop}
    (hidle : ∀ d, P past ⟨d, d⟩)
    (hdone : ∀ c d a d', run c d = .ok (a, d') →
      P past ⟨d, d'⟩ ∧ Q (.ok a) (⟨d, d'⟩ :: past) ∧ Q (.error .other) (⟨d, d'⟩ :: past))
    (hfail : ∀ c d e, run c d = .error e → Q (.error e) (⟨d, d⟩ :: past))
    (hother : ∀ d, Q (.error .other) (⟨d, d⟩ :: past)) : run.query.wp P E Q past := by
  refine Routine.wp_stmt.mpr fun c d => ?_
  rw [Routine.wp_ret]
  unfold Statement.write Statement.answer
  cases hrun : run c d with
  | error e =>
    simp only [ite_self]
    refine ⟨hidle d, ?_⟩
    split
    · exact hfail c d e hrun
    · exact hother d
  | ok x =>
    obtain ⟨a, d'⟩ := x
    obtain ⟨hstep, hok, hlost⟩ := hdone c d a d' hrun
    cases c.fate with
    | answered => exact ⟨hstep, hok⟩
    | refused => exact ⟨hidle d, hother d⟩
    | lost => exact ⟨hstep, hlost⟩

/-- The rule of a statement that only reads. -/
theorem wp_select {result : Store → Except DieselError α}
    {Q : QueryResult α → List (Step Store) → Prop} (hidle : ∀ d, P past ⟨d, d⟩)
    (hok : ∀ d a, result d = .ok a → Q (.ok a) (⟨d, d⟩ :: past))
    (hfail : ∀ d e, result d = .error e → Q (.error e) (⟨d, d⟩ :: past))
    (hother : ∀ d, Q (.error .other) (⟨d, d⟩ :: past)) : (select result).wp P E Q past := by
  refine wp_query hidle (fun c d a d' h => ?_) (fun c d e h => ?_) hother
  · cases hresult : result d with
    | error e => simp [hresult, Except.map] at h
    | ok b =>
      simp only [hresult, Except.map, Except.ok.injEq, Prod.mk.injEq] at h
      obtain ⟨rfl, rfl⟩ := h
      exact ⟨hidle _, hok _ _ hresult, hother _⟩
  · cases hresult : result d with
    | error e' =>
      simp only [hresult, Except.map, Except.error.injEq] at h
      exact h ▸ hfail _ _ hresult
    | ok b => simp [hresult, Except.map] at h

/-- The rule of `?`, where an error is as good as any other. -/
theorem wp_orFail {x : Call (QueryResult α)} {Q : α → List (Step Store) → Prop}
    (hE : ∀ e p, E e p)
    (h : x.wp P E (fun result p => ∀ a, result = .ok a → Q a p) past) :
    (orFail x).wp P E Q past := by
  rw [orFail, Routine.wp_bind]
  refine Routine.wp_mono h fun result new hq => ?_
  cases result with
  | ok a => exact wp_returns (hq a rfl)
  | error e => exact wp_fails hE

/-- The rule of a statement and `?`. -/
theorem wp_statement {run : Statement α} {Q : α → List (Step Store) → Prop}
    (hidle : ∀ past d, P past ⟨d, d⟩) (hE : ∀ e p, E e p)
    (h : ∀ c d a d', run c d = .ok (a, d') → P past ⟨d, d'⟩ ∧ Q a (⟨d, d'⟩ :: past)) :
    (orFail run.query).wp P E Q past := by
  refine wp_orFail hE (wp_query (hidle past) (fun c d a d' hrun => ?_) (fun _ _ _ _ _ h => (nomatch h))
    fun _ _ h => (nomatch h))
  obtain ⟨hstep, hq⟩ := h c d a d' hrun
  refine ⟨hstep, fun b hb => ?_, fun _ hb => (nomatch hb)⟩
  obtain rfl := Except.ok.inj hb
  exact hq

/-- The rule of a query and `?`. -/
theorem wp_found {result : Store → Except DieselError α} {Q : α → List (Step Store) → Prop}
    (hidle : ∀ past d, P past ⟨d, d⟩) (hE : ∀ e p, E e p)
    (h : ∀ d a, result d = .ok a → Q a (⟨d, d⟩ :: past)) :
    (orFail (select result)).wp P E Q past := by
  refine wp_orFail hE (wp_select (hidle past) (fun d a ha b hb => ?_) (fun _ _ _ _ h => (nomatch h))
    fun _ _ h => (nomatch h))
  obtain rfl := Except.ok.inj hb
  exact h d a ha

theorem getResult_ok {rows : List α} {p : α → Bool} {a : α} (h : getResult rows p = .ok a) :
    a ∈ rows ∧ p a := by
  unfold getResult at h
  cases hfind : rows.find? p with
  | none => rw [hfind] at h; cases h
  | some b =>
    rw [hfind] at h
    obtain rfl := Except.ok.inj h
    exact ⟨List.mem_of_find?_eq_some hfind, List.find?_some hfind⟩

/-! ## The rules of the guards -/

section Guards

variable {hash : String → String} (hidle : ∀ past d, P past ⟨d, d⟩)

include hidle

theorem wp_connect {Q : Unit → List (Step Store) → Prop} (hE : ∀ e p, E e p)
    (h : ∀ d, Q () (⟨d, d⟩ :: past)) : connect.wp P E Q past := by
  refine Routine.wp_stmt.mpr fun c d => ⟨hidle past d, ?_⟩
  split
  · exact wp_returns (h d)
  · exact wp_fails hE
  · exact wp_fails hE

/-- The session of the token was good for nothing. -/
def SeenStale (hash : String → String) (past : List (Step Store)) (token : String) : Prop :=
  ∃ session : PortalSession, session.tokenHash = hash token ∧
    Seen past (fun d => session ∈ d.sessions) ∧
    (Seen past (fun d => session.expiresAt ≤ d.clock) ∨
      Seen past fun d => ∀ u ∈ d.users, u.id ≠ session.userId)

/-- The tables without the sessions of a token. -/
def Store.dropToken (d : Store) (hash : String → String) (token : String) : Store :=
  { d with sessions := Table.delete (fun s => s.tokenHash = hash token) d.sessions }

theorem wp_deleteByToken {token : String} {Q : QueryResult Nat → List (Step Store) → Prop}
    (hdrop : ∀ d, P past ⟨d, d.dropToken hash token⟩) (hQ : ∀ result p, Q result p) :
    (SessionRepository.deleteByToken hash token).wp P E Q past := by
  refine wp_query (hidle past) (fun c d a d' h => ?_) (fun _ _ _ _ => hQ _ _) fun _ => hQ _ _
  obtain ⟨-, rfl⟩ := Prod.mk.inj (Except.ok.inj h)
  exact ⟨hdrop d, hQ _ _, hQ _ _⟩

theorem wp_dropSession {token : String} {Q : α → List (Step Store) → Prop} (hE : ∀ e p, E e p)
    (hdrop : ∀ d, P past ⟨d, d.dropToken hash token⟩) :
    (dropSession hash token : Call α).wp P E Q past := by
  rw [dropSession, Routine.wp_bind]
  exact wp_deleteByToken hidle hdrop fun _ _ => wp_fails hE

/-- Roles that are read are those of the user. -/
theorem wp_findByUser {user : PortalUser} {Q : QueryResult (List Role) → List (Step Store) → Prop}
    (hQ : ∀ new roles, (∀ role ∈ roles, role.code = "admin" → SeenAdmin (new ++ past) user.id) →
      Q (.ok roles) (new ++ past))
    (hfail : ∀ e p, Q (.error e) p) : (RoleRepository.findByUser user).wp P E Q past := by
  rw [RoleRepository.findByUser, Routine.wp_bind]
  refine wp_select (hidle past) (fun d userRoles h => ?_) (fun _ _ _ => wp_returns (hfail _ _))
    fun _ => wp_returns (hfail _ _)
  obtain rfl := Except.ok.inj h
  refine wp_select (hidle _) (fun d' roles h' => ?_) (fun _ _ _ => hfail _ _) fun _ => hfail _ _
  obtain rfl := Except.ok.inj h'
  refine hQ [⟨d', d'⟩, ⟨d, d⟩] _ fun role hrole hcode => ?_
  obtain ⟨hrow, hid⟩ := List.mem_filter.mp hrole
  obtain ⟨r, hr, hroleId⟩ := List.mem_map.mp (of_decide_eq_true hid)
  obtain ⟨hmem, huser⟩ := List.mem_filter.mp hr
  exact ⟨role.id, (seen_head ⟨r, hmem, of_decide_eq_true huser, hroleId⟩).cons _,
    seen_head ⟨role, hrow, rfl, hcode⟩⟩

/-- **What the guard lets through**: a session of the user under the token, and the user; who is an
administrator has been seen to be one. -/
structure Authenticates (hash : String → String) (token : String) (auth : AuthenticatedUser)
    (past : List (Step Store)) : Prop where
  presented : auth.token = token
  session : SeenSession hash past token auth.user.id
  user : Seen past fun d => auth.user ∈ d.users
  admin : auth.isAdmin → SeenAdmin past auth.user.id

omit hidle in
theorem Authenticates.append {token : String} {auth : AuthenticatedUser}
    (h : Authenticates hash token auth past) (new : List (Step Store)) :
    Authenticates hash token auth (new ++ past) :=
  ⟨h.presented, h.session.append new, h.user.append new, fun ha => (h.admin ha).append new⟩

/-- **The rule of the guard.** -/
theorem wp_ofToken {token : String} {Q : AuthenticatedUser → List (Step Store) → Prop}
    (hE : ∀ e p, E e p)
    (hdrop : ∀ past d, SeenStale hash past token → P past ⟨d, d.dropToken hash token⟩)
    (hQ : ∀ auth new, Authenticates hash token auth (new ++ past) → Q auth (new ++ past)) :
    (AuthenticatedUser.ofToken hash token).wp P E Q past := by
  simp only [AuthenticatedUser.ofToken, SessionRepository.findByToken, UserRepository.find,
    Routine.wp_bind]
  refine wp_connect hidle hE fun d₀ => ?_
  rw [Routine.wp_bind]
  refine wp_select (hidle _) (fun d₁ session h₁ => ?_) (fun d₁ e _ => ?_) fun _ => wp_fails hE
  swap
  · cases e <;> exact wp_fails hE
  obtain ⟨hrow, hhash⟩ := getResult_ok h₁
  have hhash := of_decide_eq_true hhash
  rw [Routine.wp_bind]
  refine Routine.wp_read (hidle _) fun _ d₂ => ?_
  split
  · next hexpired =>
    exact wp_dropSession hidle hE fun d => hdrop _ d
      ⟨session, hhash, (seen_head hrow).cons _, Or.inl (seen_head hexpired)⟩
  next hfresh =>
  rw [Routine.wp_bind]
  refine wp_select (hidle _) (fun d₃ user h₃ => ?_) (fun d₃ e h₃ => ?_) fun _ => wp_fails hE
  swap
  · cases e with
    | other => exact wp_fails hE
    | notFound =>
      refine wp_dropSession hidle hE fun d => hdrop _ d ⟨session, hhash,
        ((seen_head hrow).cons _).cons _, Or.inr (seen_head fun u hu hid => ?_)⟩
      obtain ⟨a, ha⟩ : ∃ a, (d₃.users.find? fun u => (u.id : Int) = (session.userId : Int)) = some a := by
        refine Option.isSome_iff_exists.mp (List.find?_isSome.mpr ⟨u, hu, ?_⟩)
        exact decide_eq_true (congrArg Nat.cast hid)
      unfold getResult at h₃
      rw [ha] at h₃
      cases h₃
  obtain ⟨huser, hid⟩ := getResult_ok h₃
  have hid : user.id = session.userId := Int.ofNat_inj.mp (of_decide_eq_true hid)
  rw [Routine.wp_bind]
  refine wp_orFail hE (wp_findByUser hidle (fun new roles hroles auth' h => ?_)
    fun _ _ _ h => by cases h)
  obtain rfl := Except.ok.inj h
  have hsplit : new ++ ⟨d₃, d₃⟩ :: ⟨d₂, d₂⟩ :: ⟨d₁, d₁⟩ :: ⟨d₀, d₀⟩ :: past =
      (new ++ [⟨d₃, d₃⟩, ⟨d₂, d₂⟩, ⟨d₁, d₁⟩, ⟨d₀, d₀⟩]) ++ past := by simp
  rw [Routine.wp_pure]
  rw [hsplit] at hroles ⊢
  refine hQ _ _ ⟨rfl, ⟨session, hhash, hid.symm, ?_, ?_⟩, ?_, fun hadmin => ?_⟩
  · rw [← hsplit]
    exact (((seen_head hrow).cons _).cons _).append new
  · rw [← hsplit]
    exact ((seen_head (Int.not_le.mp hfresh)).cons _).append new
  · rw [← hsplit]
    exact (seen_head huser).append new
  · obtain ⟨role, hrole, hcode⟩ := List.any_eq_true.mp hadmin
    exact hroles role hrole (of_decide_eq_true hcode)

/-- The request is one of the user: the token it carries, used as it may be, is one of a session of the
user. -/
def AuthenticAs (env : AuthEnv) (method : Method) (headers : HttpHeaders) (past : List (Step Store))
    (auth : AuthenticatedUser) : Prop :=
  ∃ token, env.requestToken headers = some token ∧ csrfSafe method headers token ∧
    Authenticates env.sessionTokenHash token.value auth past

section AuthenticAs

variable {env : AuthEnv} {method : Method} {headers : HttpHeaders} {auth : AuthenticatedUser}

omit hidle in
theorem AuthenticAs.append (h : AuthenticAs env method headers past auth) (new : List (Step Store)) :
    AuthenticAs env method headers (new ++ past) auth := by
  obtain ⟨token, htoken, hcsrf, hauth⟩ := h
  exact ⟨token, htoken, hcsrf, hauth.append new⟩

omit hidle in
theorem AuthenticAs.cons (h : AuthenticAs env method headers past auth) (s : Step Store) :
    AuthenticAs env method headers (s :: past) auth :=
  h.append [s]

omit hidle in
theorem AuthenticAs.seenAdmin (h : AuthenticAs env method headers past auth) (hadmin : auth.isAdmin) :
    SeenAdmin past auth.user.id := by
  obtain ⟨token, -, -, hauth⟩ := h
  exact hauth.admin hadmin

end AuthenticAs

/-- **The rule of the guard of a request.** -/
theorem wp_fromRequest {env : AuthEnv} {method : Method} {headers : HttpHeaders}
    {Q : AuthenticatedUser → List (Step Store) → Prop} (hE : ∀ e p, E e p)
    (hdrop : ∀ past d token, env.requestToken headers = some token →
      SeenStale env.sessionTokenHash past token.value →
      P past ⟨d, d.dropToken env.sessionTokenHash token.value⟩)
    (hQ : ∀ auth new, AuthenticAs env method headers (new ++ past) auth → Q auth (new ++ past)) :
    (AuthenticatedUser.fromRequest env method headers).wp P E Q past := by
  rw [AuthenticatedUser.fromRequest]
  cases htoken : env.requestToken headers with
  | none => exact wp_fails hE
  | some token =>
    dsimp only
    split
    · next hcsrf =>
      exact wp_ofToken hidle hE (fun past d => hdrop past d token htoken)
        fun auth new hauth => hQ auth new ⟨token, htoken, hcsrf, hauth⟩
    · exact wp_fails hE

omit hidle in
theorem wp_requireAdmin {auth : AuthenticatedUser} {Q : Unit → List (Step Store) → Prop}
    (hE : ∀ e p, E e p) (hadmin : auth.isAdmin → SeenAdmin past auth.user.id)
    (hQ : SeenAdmin past auth.user.id → Q () past) : (requireAdmin auth).wp P E Q past := by
  rw [requireAdmin]
  split
  · next h => exact wp_returns (hQ (hadmin h))
  · exact wp_fails hE

/-- **The rule of the guards of a maintainer.** -/
theorem wp_requireMaintainerMemberRole {auth : AuthenticatedUser} {m : Int} {roles : List String}
    {Q : Unit → List (Step Store) → Prop} (hE : ∀ e p, E e p)
    (hadmin : auth.isAdmin → SeenAdmin past auth.user.id)
    (hQ : ∀ new, SeenRight (new ++ past) auth.user.id m roles → Q () (new ++ past)) :
    (requireMaintainerMemberRole auth m roles).wp P E Q past := by
  rw [requireMaintainerMemberRole]
  split
  · next h => exact wp_returns (hQ [] (Or.inl (hadmin h)))
  · rw [Routine.wp_bind]
    refine wp_select (hidle _) (fun d member h => ?_) (fun d e _ => ?_) fun _ => wp_fails hE
    · obtain ⟨hrow, hof⟩ := getResult_ok h
      dsimp only
      split
      · next hrole =>
        exact wp_returns (hQ [⟨d, d⟩] (Or.inr (seen_head ⟨member, hrow, hof, hrole⟩)))
      · exact wp_fails hE
    · cases e <;> exact wp_fails hE

end Guards

end Rules

end Catalog

end DevPortal
