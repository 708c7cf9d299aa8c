import DevPortal.Machinery.RelyGuarantee
import DevPortal.Machinery.Sql
import DevPortal.Machinery.Table
import DevPortal.Runs.Row

/-!
# Auth/Sessions — creating and deleting the sessions of a user

    create    lock user ▸ clock ▸ DELETE expired ▸ COUNT ▸ [ SELECT oldest ▸ DELETE ] ▸ INSERT
    logout    DELETE by token            revoke all ▸ DELETE by user        cleanup ▸ DELETE expired

The lock of `create` keeps two logins of a user apart; it does not keep a login and a deletion
apart.  The clock is part of the store, so that it is read like a column, and only grows.
-/

namespace DevPortal

open Transaction

/-! ## The store -/

/-- A row of `sessions`. -/
structure PortalSession where
  id : Nat
  userId : Nat
  tokenHash : String
  expiresAt : DateTime
  createdAt : DateTime
  authMethod : String
  lastSeenAt : DateTime
  ipAddress : Option String
  userAgent : Option String
  deriving DecidableEq, Repr

/-- The clock, the table, and the values drawn from its sequence. -/
structure SessionStore where
  clock : DateTime
  sessions : List PortalSession
  drawn : List Nat

namespace SessionStore

/-- The sessions of a user. -/
def of (d : SessionStore) (userId : Nat) : List PortalSession :=
  d.sessions.filter fun s => s.userId = userId

/-- Those that have not expired at `now`. -/
def active (d : SessionStore) (userId : Nat) (now : DateTime) : List PortalSession :=
  (d.of userId).filter fun s => now < s.expiresAt

end SessionStore

/-- One row written, or the clock moved. -/
inductive SessionWrite
  | tick (t : DateTime)
  | insert (row : PortalSession)
  | delete (id : Nat)

/-- What can be locked: a row, and the capacity of a user.  Beside these a session of the database is
marked while it replaces the sessions of a user it has counted (`evicts`), and with the users whose
sessions it deletes otherwise (`removes`); the database knows nothing of these two. -/
inductive SessionLock
  | session (id : Nat)
  | capacity (userId : Nat)
  | evicts (userId : Nat)
  | removes (userId : Nat)
  deriving DecidableEq

/-- The lock is one of the database. -/
def SessionLock.isReal : SessionLock → Bool
  | session _ | capacity _ => true
  | evicts _ | removes _ => false

namespace SessionWrite

/-- The store after a write. -/
def apply (d : SessionStore) : SessionWrite → SessionStore
  | tick t => { d with clock := max d.clock t }
  | insert row => { d with sessions := d.sessions ++ [row], drawn := row.id :: d.drawn }
  | delete id => { d with sessions := Table.delete (fun s => s.id = id) d.sessions }

/-- The row a write locks. -/
def locks : SessionWrite → List SessionLock
  | tick _ => []
  | insert row => [.session row.id]
  | delete id => [.session id]

end SessionWrite

/-- Rows and capacities are locked exclusively. -/
def sessionEngine : Engine SessionStore SessionWrite SessionLock where
  apply := SessionWrite.apply
  locks := SessionWrite.locks
  conflict := fun k k' => k = k' ∧ k.isReal

/-- What a statement is given from outside: a value of the sequence, and `NOW()`. -/
structure SessionDraw where
  id : Nat
  transactionNow : DateTime

abbrev SessionBody (α : Type) := Tx SessionDraw SessionStore SessionWrite SessionLock α

abbrev SessionProgram := Prog SessionDraw SessionStore SessionWrite SessionLock

/-! ## `create` -/

/-- `CreateSession`. -/
structure CreateSession where
  userId : Nat
  token : String
  expiresAt : DateTime
  maxActiveSessions : Int
  authMethod : String
  ipAddress : Option String
  userAgent : Option String

/-- `ORDER BY created_at ASC, id ASC`. -/
def oldestFirst : Sql.Order PortalSession :=
  (Sql.Order.asc fun s => some s.createdAt).andThen (Sql.Order.asc fun s => some s.id)

namespace SessionRepository

/-- `pg_advisory_xact_lock`, on the key of the user. -/
def lockCapacity (userId : Nat) : SessionBody Unit :=
  Tx.statement (fun _ _ => [.capacity userId]) (fun _ _ => []) (fun _ _ => some ())

/-- `Utc::now()`. -/
def readClock : SessionBody DateTime := Tx.query fun _ d => d.clock

/-- The `DELETE` of what has expired. -/
def deleteExpiredOf (userId : Nat) (now : DateTime) : SessionBody Unit :=
  Tx.statement (fun _ _ => [])
    (fun _ d => ((d.of userId).filter fun s => s.expiresAt ≤ now).map fun s => .delete s.id)
    (fun _ _ => some ())

/-- The `COUNT` of what has not. -/
def countActive (userId : Nat) (now : DateTime) : SessionBody Nat :=
  Tx.statement (fun _ _ => [.evicts userId]) (fun _ _ => [])
    (fun _ d => some (d.active userId now).length)

/-- The `SELECT` of the oldest. -/
def selectOldest (userId : Nat) (now : DateTime) (limit : Nat) : SessionBody (List Nat) :=
  Tx.query fun _ d => (Sql.page 0 limit (oldestFirst.sort (d.active userId now))).map (·.id)

/-- `DELETE FROM sessions WHERE id = ANY (…)`. -/
def deleteIds (ids : List Nat) : SessionBody Unit :=
  Tx.statement (fun _ _ => [])
    (fun _ d => (d.sessions.filter fun s => s.id ∈ ids).map fun s => .delete s.id)
    (fun _ _ => some ())

/-- The two statements behind `if eviction_count > 0`. -/
def evict (userId : Nat) (now : DateTime) (evictionCount : Int) : SessionBody Unit :=
  if 0 < evictionCount then do
    let oldestIds ← selectOldest userId now evictionCount.toNat
    deleteIds oldestIds
  else pure ()

/-- The `INSERT`; a token that is there already is an error. -/
def insertSession (tokenHash : String) (session : CreateSession) (now : DateTime) :
    SessionBody PortalSession :=
  let row (c : SessionDraw) : PortalSession :=
    { id := c.id
      userId := session.userId
      tokenHash := tokenHash
      expiresAt := session.expiresAt
      createdAt := c.transactionNow
      authMethod := session.authMethod
      lastSeenAt := now
      ipAddress := session.ipAddress
      userAgent := session.userAgent }
  Tx.statement (fun _ _ => []) (fun c _ => [.insert (row c)])
    (fun c d =>
      if c.id ∈ d.drawn || d.sessions.any fun s => s.tokenHash = tokenHash then none
      else some (row c))

/-- The transaction of `create`; `sha256` is the hash of a token. -/
def createBody (sha256 : String → String) (session : CreateSession) : SessionBody PortalSession := do
  lockCapacity session.userId
  let now ← readClock
  deleteExpiredOf session.userId now
  let activeCount ← countActive session.userId now
  evict session.userId now (max ((activeCount : Int) - session.maxActiveSessions + 1) 0)
  insertSession (sha256 session.token) session now

/-- `create`: the cap is checked first. -/
def create (sha256 : String → String) (session : CreateSession) : SessionProgram :=
  if 1 ≤ session.maxActiveSessions ∧ session.maxActiveSessions ≤ 100 then
    (createBody sha256 session).run (fun _ => .done) .done
  else .done

/-! ## Deletions -/

/-- A `DELETE` with a filter. -/
def deleteWhere (p : PortalSession → Bool) : SessionBody Unit :=
  Tx.statement (fun _ d => (d.sessions.filter p).map fun s => .removes s.userId)
    (fun _ d => (d.sessions.filter p).map fun s => .delete s.id) (fun _ _ => some ())

/-- `delete_by_token`. -/
def deleteByToken (sha256 : String → String) (token : String) : SessionBody Unit :=
  deleteWhere fun s => s.tokenHash = sha256 token

/-- `delete_by_user`, and the cascade of a deleted user. -/
def deleteByUser (userId : Nat) : SessionBody Unit := deleteWhere fun s => s.userId = userId

/-- `delete_expired`. -/
def deleteExpired (now : DateTime) : SessionBody Unit := deleteWhere fun s => s.expiresAt ≤ now

end SessionRepository

open SessionRepository in
/-- **The transactions on sessions**, when the cap is `cap`; and time passes. -/
inductive SessionStarts (sha256 : String → String) (cap : Int) : SessionProgram → Prop
  | create (session : CreateSession) (hcap : session.maxActiveSessions = cap) :
      SessionStarts sha256 cap (SessionRepository.create sha256 session)
  | deleteByToken (token : String) :
      SessionStarts sha256 cap ((deleteByToken sha256 token).run (fun _ => .done) .done)
  | deleteByUser (userId : Nat) :
      SessionStarts sha256 cap ((deleteByUser userId).run (fun _ => .done) .done)
  | deleteExpired (now : DateTime) :
      SessionStarts sha256 cap ((deleteExpired now).run (fun _ => .done) .done)
  | tick (t : DateTime) :
      SessionStarts sha256 cap ((Tx.statement (fun _ _ => []) (fun _ _ => [.tick t])
        (fun _ _ => some ()) : SessionBody Unit).run (fun _ => .done) .done)

end DevPortal
