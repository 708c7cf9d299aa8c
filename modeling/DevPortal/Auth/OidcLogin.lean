import DevPortal.Auth.IdToken
import DevPortal.Machinery.RelyGuarantee
import DevPortal.Machinery.Table

/-!
# Auth/OidcLogin — logins with Entra, from the redirect to the session

    start     clock ▸ [ lock ▸ DELETE expired ▸ COUNT ▸ INSERT ]
    finish    clock ▸ [ DELETE … RETURNING ] ▸ code ▸ token ▸ key ▸ claims ▸ user ▸ [ session ]
    cleanup   clock ▸ [ DELETE expired ]

Both read the clock before they have their locks.  What is between the `DELETE` of a callback and
its session happens outside of any transaction: the answers of the provider, the key of the token
and the user of the claims are drawn from outside, and nothing is assumed about them.

The store keeps beside the table what was stored in it, which callback consumed which row, and
which sessions came of it.
-/

namespace DevPortal

open Transaction

variable {I γ κ : Type}

/-! ## The store -/

/-- `NewOidcLoginTransaction`. -/
structure NewOidcLoginTransaction where
  stateHash : String
  browserBindingHash : String
  nonce : String
  pkceVerifierCiphertext : String
  returnTo : String
  expiresAt : DateTime
  deriving DecidableEq, Repr

/-- A row of `oidc_login_transactions`, and its place among all that were ever stored. -/
structure OidcLoginTransaction extends NewOidcLoginTransaction where
  number : Nat
  deriving DecidableEq, Repr

/-- A row that a request consumed, and the instant it compared with. -/
structure OidcConsumption (I : Type) where
  request : I
  transaction : OidcLoginTransaction
  now : DateTime

/-- A session that came of a consumed row. -/
structure EntraLogin (I κ : Type) where
  consumption : OidcConsumption I
  idToken : String
  key : κ
  validatedAt : DateTime
  claims : ValidatedEntraClaims
  user : PortalUser

/-- The row a session came of. -/
def EntraLogin.transaction (l : EntraLogin I κ) : OidcLoginTransaction := l.consumption.transaction

/-- The clock, the table, and what was stored, consumed and established. -/
structure OidcStore (I κ : Type) where
  clock : DateTime
  transactions : List OidcLoginTransaction
  stored : List OidcLoginTransaction
  consumed : List (OidcConsumption I)
  logins : List (EntraLogin I κ)

namespace OidcStore

/-- The table as it is created. -/
def empty (clock : DateTime) : OidcStore I κ := ⟨clock, [], [], [], []⟩

/-- The rows that have not expired at `now`. -/
def pending (d : OidcStore I κ) (now : DateTime) : List OidcLoginTransaction :=
  d.transactions.filter fun t => now < t.expiresAt

end OidcStore

/-- One row written, or the clock moved. -/
inductive OidcWrite (I κ : Type)
  | tick (t : DateTime)
  | insert (row : NewOidcLoginTransaction)
  | delete (stateHash : String)
  | consume (request : I) (stateHash : String) (now : DateTime)
  | login (l : EntraLogin I κ)

/-- What can be locked: an entry of the primary key, and the capacity. -/
inductive OidcLock
  | key (stateHash : String)
  | capacity
  deriving DecidableEq

namespace OidcWrite

/-- The store after a write. -/
def apply (d : OidcStore I κ) : OidcWrite I κ → OidcStore I κ
  | tick t => { d with clock := max d.clock t }
  | insert row =>
    { d with
      transactions := d.transactions ++ [⟨row, d.stored.length⟩]
      stored := d.stored ++ [⟨row, d.stored.length⟩] }
  | delete stateHash =>
    { d with transactions := Table.delete (fun t => t.stateHash = stateHash) d.transactions }
  | consume request stateHash now =>
    { d with
      transactions := Table.delete (fun t => t.stateHash = stateHash) d.transactions
      consumed := d.consumed ++
        (d.transactions.filter fun t => t.stateHash = stateHash).map fun t => ⟨request, t, now⟩ }
  | login l => { d with logins := d.logins ++ [l] }

/-- The key of the row a write is about. -/
def locks : OidcWrite I κ → List OidcLock
  | tick _ | login _ => []
  | insert row => [.key row.stateHash]
  | delete stateHash | consume _ stateHash _ => [.key stateHash]

end OidcWrite

/-- Every lock is exclusive. -/
def oidcEngine (I κ : Type) : Engine (OidcStore I κ) (OidcWrite I κ) OidcLock where
  apply := OidcWrite.apply
  locks := OidcWrite.locks
  conflict := fun k k' => k = k'

/-- What comes from outside: random bytes, what the token endpoint answers to a form, what
`decoding_key` returns for a kid, and `resolve_portal_user` for the claims. -/
structure OidcDraw (κ : Type) where
  state : List UInt8
  browserBinding : List UInt8
  nonce : List UInt8
  pkceVerifier : List UInt8
  cipherNonce : List UInt8
  tokenEndpoint : List (String × String) → JwksReply
  decodingKey : String → Except EntraFlowError κ
  portalUser : ValidatedEntraClaims → Except EntraFlowError PortalUser

abbrev OidcBody (I κ α : Type) := Tx (OidcDraw κ) (OidcStore I κ) (OidcWrite I κ) OidcLock α

abbrev OidcProgram (I κ : Type) := Prog (OidcDraw κ) (OidcStore I κ) (OidcWrite I κ) OidcLock

/-! ## `OidcLoginTransactionRepository` -/

namespace OidcLoginTransactionRepository

/-- `pg_advisory_xact_lock`, on the key of the capacity. -/
def lockCapacity : OidcBody I κ Unit :=
  Tx.statement (fun _ _ => [.capacity]) (fun _ _ => []) (fun _ _ => some ())

/-- `delete_expired`. -/
def deleteExpired (now : DateTime) : OidcBody I κ Unit :=
  Tx.statement (fun _ _ => [])
    (fun _ d => (d.transactions.filter fun t => t.expiresAt ≤ now).map fun t => .delete t.stateHash)
    (fun _ _ => some ())

/-- The `COUNT` of what has not expired. -/
def countPending (now : DateTime) : OidcBody I κ Int :=
  Tx.query fun _ d => (d.pending now).length

/-- The `INSERT`; a state that is there already is an error. -/
def insertTransaction (row : NewOidcLoginTransaction) :
    OidcBody I κ (Option NewOidcLoginTransaction) :=
  Tx.statement (fun _ _ => []) (fun _ _ => [.insert row])
    (fun _ d => if d.transactions.any fun t => t.stateHash = row.stateHash then none
      else some (some row))

/-- `create_bounded`. -/
def createBounded (row : NewOidcLoginTransaction) (now : DateTime) (maxPending : Int) :
    OidcBody I κ (Option NewOidcLoginTransaction) := do
  lockCapacity
  deleteExpired now
  let pending ← countPending now
  if maxPending ≤ pending then return none else insertTransaction row

/-- The row a callback finds. -/
def find (d : OidcStore I κ) (stateHash browserBindingHash : String) (now : DateTime) :
    Option OidcLoginTransaction :=
  d.transactions.find? fun t => t.stateHash = stateHash && t.browserBindingHash = browserBindingHash
    && now < t.expiresAt

/-- `consume`: `DELETE … RETURNING`; no row is an error. -/
def consume (request : I) (stateHash browserBindingHash : String) (now : DateTime) :
    OidcBody I κ (OidcConsumption I) :=
  Tx.statement (fun _ _ => [])
    (fun _ d => ((find d stateHash browserBindingHash now).map fun t =>
      .consume request t.stateHash now).toList)
    (fun _ d => (find d stateHash browserBindingHash now).map fun t => ⟨request, t, now⟩)

end OidcLoginTransactionRepository

open OidcLoginTransactionRepository

/-! ## Requests -/

/-- `EntraCallbackQuery`, as far as it is read. -/
structure EntraCallbackQuery where
  code : Option String
  state : Option String
  error : Option String

/-- `MAX_PENDING_OIDC_TRANSACTIONS`. -/
def maxPendingOidcTransactions : Int := 10000

section Requests

variable (prims : EntraPrimitives γ κ)

/-- The row of a start, at the instant `now`. -/
def newTransaction (entra : EntraSettings) (returnTo : Option String) (c : OidcDraw κ)
    (now : DateTime) : Except EntraFlowError NewOidcLoginTransaction := do
  let stateHash := sha256Hex prims (randomUrlsafe prims c.state)
  let ciphertext ← encryptTransactionSecret prims c.cipherNonce (randomUrlsafe prims c.pkceVerifier)
    stateHash entra.transactionKey
  return {
    stateHash
    browserBindingHash := sha256Hex prims (randomUrlsafe prims c.browserBinding)
    nonce := randomUrlsafe prims c.nonce
    pkceVerifierCiphertext := ciphertext
    returnTo := normalizeReturnTo returnTo
    expiresAt := now + seconds entra.transactionTtlSeconds.val }

/-- `start_entra_login`. -/
def startEntraLogin (config : AppConfig) (returnTo : Option String) : OidcProgram I κ :=
  match config.entra with
  | none => .done
  | some entra => .ask fun c d =>
    match newTransaction prims entra returnTo c d.clock with
    | .error _ => .done
    | .ok row => (createBounded row d.clock maxPendingOidcTransactions).run (fun _ => .done) .done

/-- The token of a callback, and the key it names. -/
def callbackToken (entra : EntraSettings) (query : EntraCallbackQuery)
    (transaction : OidcLoginTransaction) (tokenEndpoint : List (String × String) → JwksReply) :
    Except EntraFlowError (String × String) := do
  let code ← okOr .invalidState
    (query.code.filter fun value => value ≠ "" && value.utf8ByteSize ≤ 8 * 1024)
  let pkceVerifier ← decryptTransactionSecret prims transaction.pkceVerifierCiphertext
    transaction.stateHash entra.transactionKey
  let idToken ← exchangeCode prims tokenEndpoint entra code pkceVerifier
  return (idToken, ← tokenKid prims idToken)

/-- The session of a callback that has the claims of its token. -/
def establishSession (l : EntraLogin I κ) : OidcBody I κ Unit :=
  Tx.statement (fun _ _ => []) (fun _ _ => [.login l]) (fun _ _ => some ())

/-- The callback, when it has the claims of its token. -/
def finishValidated (consumption : OidcConsumption I) (idToken : String) (key : κ)
    (validatedAt : DateTime) (claims : ValidatedEntraClaims) : OidcProgram I κ :=
  .ask fun c _ =>
    match c.portalUser claims with
    | .error _ => .done
    | .ok user => (establishSession ⟨consumption, idToken, key, validatedAt, claims, user⟩).run
        (fun _ => .done) .done

/-- The callback, when it has consumed its transaction. -/
def finishConsumed (entra : EntraSettings) (query : EntraCallbackQuery)
    (consumption : OidcConsumption I) : OidcProgram I κ :=
  if query.error.isSome then .done
  else .ask fun c _ =>
    match callbackToken prims entra query consumption.transaction c.tokenEndpoint with
    | .error _ => .done
    | .ok (idToken, kid) => .ask fun c d =>
      match c.decodingKey kid with
      | .error _ => .done
      | .ok key =>
        match decodeAndValidateIdToken prims idToken key entra consumption.transaction.nonce
          d.clock with
        | .error _ => .done
        | .ok claims => finishValidated consumption idToken key d.clock claims

/-- `finish_entra_login`; `cookie` is the value of the browser's OIDC cookie. -/
def finishEntraLogin (config : AppConfig) (request : I) (query : EntraCallbackQuery)
    (cookie : Option String) : OidcProgram I κ :=
  match config.entra, query.state.filter fun value => value.utf8ByteSize ≤ 256,
    cookie.filter fun value => value.utf8ByteSize ≤ 256 with
  | some entra, some state, some browserBinding => .ask fun _ d =>
    (consume request (sha256Hex prims state) (sha256Hex prims browserBinding) d.clock).run
      (finishConsumed prims entra query) .done
  | _, _, _ => .done

/-- What happens to the logins: the two routes, the cleanup, and that time passes. -/
inductive OidcRequest
  | start (returnTo : Option String)
  | finish (query : EntraCallbackQuery) (cookie : Option String)
  | cleanup
  | tick (t : DateTime)

/-- What a request runs. -/
def OidcRequest.program (config : AppConfig) (request : I) : OidcRequest → OidcProgram I κ
  | start returnTo => startEntraLogin prims config returnTo
  | finish query cookie => finishEntraLogin prims config request query cookie
  | cleanup => .ask fun _ d => (deleteExpired d.clock).run (fun _ => .done) .done
  | tick t => (Tx.statement (fun _ _ => []) (fun _ _ => [.tick t]) (fun _ _ => some ()) :
      OidcBody I κ Unit).run (fun _ => .done) .done

/-- The requests `requests`, before any of them has started. -/
def oidcWorld (config : AppConfig) (requests : I → OidcRequest) (clock : DateTime) :
    World I (OidcDraw κ) (OidcStore I κ) (OidcWrite I κ) OidcLock where
  db := .empty clock
  session := fun i => ⟨(requests i).program prims config i, [], []⟩
  log := []

end Requests

end DevPortal
