import GoatCitadel.RemoteWorker.BudgetRecords
import GoatCitadel.Storage.WorktreeLease

/-!
# Request nonces of the workers

The nonce of a request is kept from its acceptance to a minute after the time of the
request.  The database refuses a request whose time is more than a minute away from its
clock and one that has expired, and it only lets go of a nonce that has expired; its
clock may move on between any two statements.  A request is therefore accepted once.
-/

namespace GoatCitadel.RemoteWorker

open GoatCitadel.Support
open GoatCitadel.Storage.WorktreeLeaseRepository (DateText)

/-! ## Records -/

/-- The authority under which a worker makes its requests. -/
inductive RemoteWorkerNonceAuthority
  | bootstrap (registryWorkspaceId workerId : String) (targetWorkerGeneration : Nat)
      (bootstrapId : String)
  | credential (registryWorkspaceId workerId : String)
      (workerGeneration credentialGeneration : Nat) (credentialId : String)
  deriving DecidableEq

inductive NonceKind
  | bootstrap
  | credential
  deriving DecidableEq

/-- The table that the nonces of an authority are kept in. -/
def RemoteWorkerNonceAuthority.kind : RemoteWorkerNonceAuthority → NonceKind
  | .bootstrap .. => .bootstrap
  | .credential .. => .credential

/-- A row of `remote_worker_bootstrap_request_nonces` or of
`remote_worker_credential_request_nonces`. -/
structure NonceRow where
  authority : RemoteWorkerNonceAuthority
  nonceSha256 : String
  requestTimestamp : String
  consumedAt : Int
  expiresAt : String
  deriving DecidableEq

/-- What the repository takes from its environment. -/
structure NonceRuntime where
  dates : DateText
  /-- `assertIdentifier`, with at most 256 units. -/
  isIdentifier : String → Bool
  /-- The order in which expired rows are removed. -/
  rowLe : NonceRow → NonceRow → Bool

structure RemoteWorkerNonceConsumeInput where
  authority : RemoteWorkerNonceAuthority
  nonceSha256 : String
  timestamp : String
  expiresAt : String
  deriving DecidableEq

/-- `NONCE_TTL_MS` -/
def nonceTtlMs : Int := 60000

/-- `CONSUME_PRUNE_LIMIT` -/
def consumePruneLimit : Nat := 128

/-- `MAINTENANCE_PRUNE_LIMIT` -/
def maintenancePruneLimit : Nat := 1000

inductive NonceError
  | identifier (field : String)
  | positiveInteger (field : String)
  | digest
  | timestamp (label : String)
  | expiry
  | outsideWindow (kind : NonceKind)
  | authority (kind : NonceKind)
  | liveRow
  | notPersisted (kind : NonceKind)
  deriving DecidableEq

def NonceKind.text : NonceKind → String
  | .bootstrap => "bootstrap"
  | .credential => "credential"

/-- The text of an error, as the repository or the database raises it. -/
def NonceError.message : NonceError → String
  | .identifier field => s!"Remote worker {field} is not a canonical identifier."
  | .positiveInteger field =>
      s!"Remote worker {field} must be a positive safe integer no greater than {maxSafeInteger}."
  | .digest => "Remote worker request-nonce digest must be a lower-case SHA-256 hex string."
  | .timestamp label =>
      s!"Remote worker request-nonce {label} must be a canonical UTC ISO timestamp."
  | .expiry =>
      "Remote worker request-nonce expiry must be exactly the request timestamp plus 60 seconds."
  | .outsideWindow kind =>
      s!"remote worker {kind.text} nonce authority is outside the request window"
  | .authority kind => s!"remote worker {kind.text} nonce authority is expired or unknown"
  | .liveRow => "live remote worker request nonces are undeletable"
  | .notPersisted kind =>
      s!"Remote worker {kind.text} request-nonce consumption did not persist."

/-- The rows of the two tables. -/
structure NonceStore where
  bootstrap : List NonceRow
  credential : List NonceRow
  deriving DecidableEq

def NonceStore.rows (store : NonceStore) : NonceKind → List NonceRow
  | .bootstrap => store.bootstrap
  | .credential => store.credential

def NonceStore.setRows (store : NonceStore) (kind : NonceKind) (rows : List NonceRow) :
    NonceStore :=
  match kind with
  | .bootstrap => { store with bootstrap := rows }
  | .credential => { store with credential := rows }

/-- The readings of the database clock that a pruning takes: one for its choice, and one
for every row that it removes. -/
structure PruneClock where
  chosen : Int
  removed : NonceRow → Int

/-- The readings of the database clock that a consumption takes. -/
structure ConsumeClock where
  prune : PruneClock
  consumedAt : Int
  guarded : Int

section Operations

variable (runtime : NonceRuntime)

/-! ## Checks -/

def assertPositiveInteger (value : Nat) (field : String) : Except NonceError Nat :=
  if value < 1 ∨ maxSafeInteger < value then throw (.positiveInteger field) else return value

def assertIdentifier (value field : String) : Except NonceError String :=
  if runtime.isIdentifier value = true then return value else throw (.identifier field)

def normalizeRemoteWorkerNonceAuthority :
    RemoteWorkerNonceAuthority → Except NonceError RemoteWorkerNonceAuthority
  | .bootstrap registryWorkspaceId workerId targetWorkerGeneration bootstrapId => do
      return .bootstrap (← assertIdentifier runtime registryWorkspaceId "registryWorkspaceId")
        (← assertIdentifier runtime workerId "workerId")
        (← assertPositiveInteger targetWorkerGeneration "targetWorkerGeneration")
        (← assertIdentifier runtime bootstrapId "bootstrapId")
  | .credential registryWorkspaceId workerId workerGeneration credentialGeneration
      credentialId => do
      return .credential (← assertIdentifier runtime registryWorkspaceId "registryWorkspaceId")
        (← assertIdentifier runtime workerId "workerId")
        (← assertPositiveInteger workerGeneration "workerGeneration")
        (← assertPositiveInteger credentialGeneration "credentialGeneration")
        (← assertIdentifier runtime credentialId "credentialId")

/-- The digits of a digest to the base sixteen. -/
def isLowerHex (c : Char) : Bool :=
  c.isDigit || ('a' ≤ c && c ≤ 'f')

def assertNonceDigest (value : String) : Except NonceError String :=
  if value.toList.length = 64 ∧ value.toList.all isLowerHex = true then return value
  else throw .digest

/-- The shape of a UTC time with milliseconds, in which `0` stands for a digit. -/
def hasTimestampShape (text : String) : Bool :=
  let shape := "0000-00-00T00:00:00.000Z".toList
  text.toList.length = shape.length &&
    (shape.zip text.toList).all fun (expected, c) => if expected = '0' then c.isDigit
      else c = expected

/-- The time of a canonical timestamp. -/
def assertCanonicalTimestamp (value label : String) : Except NonceError Int :=
  match runtime.dates.parse value with
  | some time =>
      if hasTimestampShape value = true ∧ runtime.dates.toISOString time = some value then
        return time
      else throw (.timestamp label)
  | none => throw (.timestamp label)

/-! ## Statements -/

/-- `bootstrapExistsStmt` and `credentialExistsStmt` -/
def nonceExists (authority : RemoteWorkerNonceAuthority) (nonceSha256 : String)
    (rows : List NonceRow) : Bool :=
  rows.any fun row => row.authority = authority && row.nonceSha256 = nonceSha256

/-- Canonical timestamps are compared as their times. -/
def expiredBy (now : Int) (row : NonceRow) : Bool :=
  (runtime.dates.parse row.expiresAt).all fun expiry => expiry ≤ now

/-- `bootstrapPruneStmt` and `credentialPruneStmt`, with the guard of the deletion. -/
def pruneRows (limit : Nat) (clock : PruneClock) (rows : List NonceRow) :
    Except NonceError (Nat × List NonceRow) :=
  let chosen := ((rows.filter (expiredBy runtime clock.chosen)).insertionSort
    fun a b => runtime.rowLe a b = true).take limit
  if chosen.any (fun row => !expiredBy runtime (clock.removed row) row) = true then
    throw .liveRow
  else return (chosen.length, rows.filter fun row => row ∉ chosen)

/-- The insertion with its guard.  `authorityIsCurrent` is what the guard finds in the
records of the admission of the worker. -/
def insertNonce (row : NonceRow) (timestamp expiry guarded : Int) (authorityIsCurrent : Bool)
    (rows : List NonceRow) : Except NonceError (Nat × List NonceRow) :=
  if 60000 < (timestamp - guarded).natAbs ∨ expiry ≤ guarded then
    throw (.outsideWindow row.authority.kind)
  else if authorityIsCurrent = false then throw (.authority row.authority.kind)
  else if nonceExists row.authority row.nonceSha256 rows = true then return (0, rows)
  else return (1, rows ++ [row])

/-! ## Calls -/

/-- `consumeBootstrap` and `consumeCredential`, on their table. -/
def consumeNonce (input : RemoteWorkerNonceConsumeInput) (timestamp expiry : Int)
    (clock : ConsumeClock) (authorityIsCurrent : Bool) (rows : List NonceRow) :
    Except NonceError (Bool × List NonceRow) := do
  if nonceExists input.authority input.nonceSha256 rows = true then return (false, rows)
  let (_, kept) ← pruneRows runtime consumePruneLimit clock.prune rows
  let row : NonceRow :=
    { authority := input.authority
      nonceSha256 := input.nonceSha256
      requestTimestamp := input.timestamp
      consumedAt := clock.consumedAt
      expiresAt := input.expiresAt }
  let (inserted, rows) ← insertNonce row timestamp expiry clock.guarded authorityIsCurrent kept
  if inserted = 1 then return (true, rows)
  else if nonceExists input.authority input.nonceSha256 rows = true then return (false, rows)
  else throw (.notPersisted input.authority.kind)

def consume (input : RemoteWorkerNonceConsumeInput) (clock : ConsumeClock)
    (authorityIsCurrent : Bool) (store : NonceStore) : Except NonceError (Bool × NonceStore) := do
  let authority ← normalizeRemoteWorkerNonceAuthority runtime input.authority
  let _ ← assertNonceDigest input.nonceSha256
  let timestamp ← assertCanonicalTimestamp runtime input.timestamp "request timestamp"
  let expiry ← assertCanonicalTimestamp runtime input.expiresAt "expiry"
  if expiry - timestamp ≠ nonceTtlMs then throw .expiry
  let (answer, rows) ← consumeNonce runtime { input with authority } timestamp expiry clock
    authorityIsCurrent (store.rows authority.kind)
  return (answer, store.setRows authority.kind rows)

/-- `boundPruneLimit`, for a limit whose fraction is cut off; none is not finite. -/
def boundPruneLimit (limit : Option Int) (maximum : Nat) : Nat :=
  match limit with
  | none => maximum
  | some limit => (max 0 (min limit maximum)).toNat

def pruneExpired (limit : Option Int) (bootstrapClock credentialClock : PruneClock)
    (store : NonceStore) : Except NonceError ((Nat × Nat) × NonceStore) := do
  let bounded := boundPruneLimit limit maintenancePruneLimit
  let (bootstrap, bootstrapRows) ← pruneRows runtime bounded bootstrapClock store.bootstrap
  let (credential, credentialRows) ← pruneRows runtime bounded credentialClock store.credential
  return ((bootstrap, credential), ⟨bootstrapRows, credentialRows⟩)

end Operations

end GoatCitadel.RemoteWorker
