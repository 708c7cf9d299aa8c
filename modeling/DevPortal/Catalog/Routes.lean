import DevPortal.Auth.RequestGuard

/-!
# Catalog/Routes — the routes of the catalog, of its members and of the sessions

    guard ▸ connection ▸ body ▸ right ▸ check ▸ write ▸ audit log ▸ answer

The order of the right and the check is that of the source: a route of maintainers asks for the right
first, one of packages and services needs the request to know the maintainer it asks for.
-/

namespace DevPortal

open Autocommit

namespace Catalog

/-! ## Requests and answers -/

/-- `MaintainerMemberRequest`. -/
structure MaintainerMemberRequest where
  userId : Int
  role : String
  deriving DecidableEq

/-- The routes; a body that cannot be read is `none`. -/
inductive Route
  | createMaintainer (body : Option NewMaintainer)
  | updateMaintainer (id : Int) (body : Option NewMaintainer)
  | deleteMaintainer (id : Int)
  | getMaintainerMembers (id : Int)
  | upsertMaintainerMember (id : Int) (body : Option MaintainerMemberRequest)
  | deleteMaintainerMember (id userId : Int)
  | createPackage (body : Option NewPackage)
  | updatePackage (id : Int) (body : Option NewPackage)
  | deletePackage (id : Int)
  | createService (body : Option NewService)
  | updateService (id : Int) (body : Option NewService)
  | deleteService (id : Int)
  | logout
  | revokeAllSessions
  | me

/-- The method of a route. -/
def Route.method : Route → Method
  | getMaintainerMembers _ | me => .get
  | createMaintainer _ | upsertMaintainerMember _ _ | createPackage _ | createService _ | logout
  | revokeAllSessions => .post
  | updateMaintainer _ _ | updatePackage _ _ | updateService _ _ => .put
  | deleteMaintainer _ | deleteMaintainerMember _ _ | deletePackage _ | deleteService _ => .delete

/-- A request. -/
structure Request where
  headers : HttpHeaders
  route : Route

/-- `MeMaintainerAccess`. -/
structure MeMaintainerAccess where
  maintainerId : Int
  role : String
  canWrite : Bool
  canManageMembers : Bool
  deriving DecidableEq

/-- `MeCapabilities`. -/
structure MeCapabilities where
  manageConnectors : Bool
  viewAudit : Bool
  manageMaintainers : Bool
  viewUserDirectory : Bool
  deriving DecidableEq

/-- `MeResponse`. -/
structure MeResponse where
  id : Nat
  username : String
  expiresAt : DateTime
  authMethod : String
  roles : List String
  capabilities : MeCapabilities
  maintainerAccess : List MeMaintainerAccess

/-- What a route answers. -/
inductive Response
  | maintainer (row : Maintainer)
  | member (row : MaintainerMember)
  | members (rows : List MaintainerMember)
  | package (row : Package)
  | service (row : Service)
  | me (response : MeResponse)
  | revokedSessions (count : Nat)
  | noContent

/-! ## The audit log -/

/-- `record_audit_log`: the row it writes. -/
def auditRow (actor : Nat) (action resourceType : String) (resourceId : Int) (metadata : Json Int) :
    NewAuditLog :=
  ⟨some actor, action, resourceType, some (toString resourceId), metadata⟩

/-- `record_audit_log`. -/
def recordAuditLog (row : NewAuditLog) : Call Unit := do
  let _ ← orFail (AuditLogRepository.create row)
  pure ()

/-- The entry of a maintainer that is created or updated. -/
def Maintainer.logged (actor : Nat) (action : String) (m : Maintainer) : NewAuditLog :=
  auditRow actor action "maintainer" m.id (.object [("email", .str m.email)])

/-- The entry of a member that is set. -/
def MaintainerMember.logged (actor : Nat) (id : Int) (m : MaintainerMember) : NewAuditLog :=
  auditRow actor "upsert_member" "maintainer" id
    (.object [("role", .str m.role), ("user_id", .number m.userId)])

/-- The entry of a package that is created or updated. -/
def Package.logged (actor : Nat) (action : String) (p : Package) : NewAuditLog :=
  auditRow actor action "package" p.id (.object [("maintainer_id", .number p.maintainerId),
    ("slug", .str p.slug), ("status", .str p.status)])

/-- The entry of a package that is deleted. -/
def Package.loggedGone (actor : Nat) (p : Package) (id : Int) : NewAuditLog :=
  auditRow actor "delete" "package" id
    (.object [("maintainer_id", .number p.maintainerId), ("slug", .str p.slug)])

/-- The entry of a service that is created or updated. -/
def serviceLogged (actor : Nat) (action : String) (s : Service) : NewAuditLog :=
  auditRow actor action "service" s.id (.object [("health_status", .str s.healthStatus),
    ("maintainer_id", .number s.maintainerId), ("slug", .str s.slug)])

/-- The entry of a service that is deleted. -/
def serviceLoggedGone (actor : Nat) (s : Service) (id : Int) : NewAuditLog :=
  auditRow actor "delete" "service" id
    (.object [("maintainer_id", .number s.maintainerId), ("slug", .str s.slug)])

/-! ## The routes -/

/-- `Json<T>`. -/
def jsonBody {α : Type} : Option α → Call α
  | some body => pure body
  | none => .throw .badRequest

/-- `validate_request`. -/
def validateRequest {α : Type} (validate : α → List FieldViolation) (request : α) : Call α :=
  let errors := validate request
  if errors.isEmpty then pure request else .throw (.validation errors)

section Routes

variable (auth : AuthenticatedUser)

/-- `create_maintainer`. -/
def createMaintainer (body : Option NewMaintainer) : Call Response := do
  let newMaintainer ← jsonBody body
  requireAdmin auth
  let newMaintainer ← validateRequest NewMaintainer.validate newMaintainer
  let maintainer ← orFail (MaintainerRepository.create newMaintainer)
  recordAuditLog (maintainer.logged auth.user.id "create")
  pure (.maintainer maintainer)

/-- `update_maintainer`. -/
def updateMaintainer (id : Int) (body : Option NewMaintainer) : Call Response := do
  let maintainer ← jsonBody body
  requireAdmin auth
  let maintainer ← validateRequest NewMaintainer.validate maintainer
  let maintainer ← orFail (MaintainerRepository.update id maintainer)
  recordAuditLog (maintainer.logged auth.user.id "update")
  pure (.maintainer maintainer)

/-- `delete_maintainer`. -/
def deleteMaintainer (id : Int) : Call Response := do
  requireAdmin auth
  let _ ← orFail (MaintainerRepository.delete id)
  recordAuditLog (auditRow auth.user.id "delete" "maintainer" id (.object []))
  pure .noContent

/-- `get_maintainer_members`. -/
def getMaintainerMembers (id : Int) : Call Response := do
  requireMaintainerOwnerAccess auth id
  let members ← orFail (MaintainerMemberRepository.findByMaintainer id)
  pure (.members members)

/-- `upsert_maintainer_member`. -/
def upsertMaintainerMember (id : Int) (body : Option MaintainerMemberRequest) : Call Response := do
  let member ← jsonBody body
  requireMaintainerOwnerAccess auth id
  let _ ← orFail (MaintainerRepository.find id)
  let _ ← orFail (UserRepository.find member.userId)
  let newMember ← validateRequest NewMaintainerMember.validate ⟨id, member.userId, member.role⟩
  let member ← orFail (MaintainerMemberRepository.upsert newMember)
  recordAuditLog (member.logged auth.user.id id)
  pure (.member member)

/-- `delete_maintainer_member`. -/
def deleteMaintainerMember (id userId : Int) : Call Response := do
  requireMaintainerOwnerAccess auth id
  let _ ← orFail (MaintainerMemberRepository.deleteByMaintainerAndUser id userId)
  recordAuditLog (auditRow auth.user.id "delete_member" "maintainer" id
    (.object [("user_id", .number userId)]))
  pure .noContent

/-- `create_package`. -/
def createPackage (body : Option NewPackage) : Call Response := do
  let newPackage ← jsonBody body
  let newPackage ← validateRequest NewPackage.validate newPackage
  requireMaintainerWriteAccess auth newPackage.maintainerId
  let package ← orFail (PackageRepository.create newPackage)
  recordAuditLog (package.logged auth.user.id "create")
  pure (.package package)

/-- `update_package`: the right at the old maintainer and at the new one. -/
def updatePackage (id : Int) (body : Option NewPackage) : Call Response := do
  let package ← jsonBody body
  let package ← validateRequest NewPackage.validate package
  let existing ← orFail (PackageRepository.find id)
  requireMaintainerWriteAccess auth existing.maintainerId
  requireMaintainerWriteAccess auth package.maintainerId
  let package ← orFail (PackageRepository.update id package)
  recordAuditLog (package.logged auth.user.id "update")
  pure (.package package)

/-- `delete_package`. -/
def deletePackage (id : Int) : Call Response := do
  let package ← orFail (PackageRepository.find id)
  requireMaintainerWriteAccess auth package.maintainerId
  let _ ← orFail (PackageRepository.delete id)
  recordAuditLog (package.loggedGone auth.user.id id)
  pure .noContent

/-- `create_service`. -/
def createService (body : Option NewService) : Call Response := do
  let newService ← jsonBody body
  let newService ← validateRequest NewService.validate newService
  requireMaintainerWriteAccess auth newService.maintainerId
  let service ← orFail (ServiceRepository.create newService)
  recordAuditLog (serviceLogged auth.user.id "create" service)
  pure (.service service)

/-- `update_service`: the right at the old maintainer and at the new one. -/
def updateService (id : Int) (body : Option NewService) : Call Response := do
  let service ← jsonBody body
  let service ← validateRequest NewService.validate service
  let existing ← orFail (ServiceRepository.find id)
  requireMaintainerWriteAccess auth existing.maintainerId
  requireMaintainerWriteAccess auth service.maintainerId
  let service ← orFail (ServiceRepository.update id service)
  recordAuditLog (serviceLogged auth.user.id "update" service)
  pure (.service service)

/-- `delete_service`. -/
def deleteService (id : Int) : Call Response := do
  let service ← orFail (ServiceRepository.find id)
  requireMaintainerWriteAccess auth service.maintainerId
  let _ ← orFail (ServiceRepository.delete id)
  recordAuditLog (serviceLoggedGone auth.user.id service id)
  pure .noContent

/-- `logout`. -/
def logout (hash : String → String) : Call Response := do
  let _ ← orFail (SessionRepository.deleteByToken hash auth.token)
  pure .noContent

/-- `revoke_all_sessions`. -/
def revokeAllSessions : Call Response := do
  let revokedSessions ← orFail (SessionRepository.deleteByUser auth.user.id)
  pure (.revokedSessions revokedSessions)

/-- `build_me_response`. -/
def buildMeResponse (memberships : List MaintainerMember) : MeResponse where
  id := auth.user.id
  username := auth.user.username
  expiresAt := auth.session.expiresAt
  authMethod := auth.session.authMethod
  roles := auth.roles.map (·.code)
  capabilities :=
    { manageConnectors := auth.isAdmin
      viewAudit := auth.isAdmin
      manageMaintainers := auth.isAdmin
      viewUserDirectory := auth.isAdmin || memberships.any (·.role = "owner") }
  maintainerAccess := (memberships.map fun membership =>
    { maintainerId := membership.maintainerId
      role := membership.role
      canWrite := auth.isAdmin || membership.role ∈ writers
      canManageMembers := auth.isAdmin || membership.role = "owner" }).mergeSort
        fun a b => a.maintainerId ≤ b.maintainerId

/-- `me`. -/
def me : Call Response := do
  let memberships ← orFail (MaintainerMemberRepository.findByUser auth.user.id)
  pure (.me (buildMeResponse auth memberships))

end Routes

/-- The handler of a route. -/
def Route.run (hash : String → String) (auth : AuthenticatedUser) : Route → Call Response
  | .createMaintainer body => Catalog.createMaintainer auth body
  | .updateMaintainer id body => Catalog.updateMaintainer auth id body
  | .deleteMaintainer id => Catalog.deleteMaintainer auth id
  | .getMaintainerMembers id => Catalog.getMaintainerMembers auth id
  | .upsertMaintainerMember id body => Catalog.upsertMaintainerMember auth id body
  | .deleteMaintainerMember id userId => Catalog.deleteMaintainerMember auth id userId
  | .createPackage body => Catalog.createPackage auth body
  | .updatePackage id body => Catalog.updatePackage auth id body
  | .deletePackage id => Catalog.deletePackage auth id
  | .createService body => Catalog.createService auth body
  | .updateService id body => Catalog.updateService auth id body
  | .deleteService id => Catalog.deleteService auth id
  | .logout => Catalog.logout auth hash
  | .revokeAllSessions => Catalog.revokeAllSessions auth
  | .me => Catalog.me auth

/-- A request from its headers to its answer. -/
def serve (env : AuthEnv) (r : Request) : Call Response := do
  let auth ← AuthenticatedUser.fromRequest env r.route.method r.headers
  connect
  r.route.run env.sessionTokenHash auth

end Catalog

end DevPortal
