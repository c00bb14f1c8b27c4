import GoatCitadel.Policy.Request
import GoatCitadel.Support.Runs
import GoatCitadel.Support.Text

/-!
# Remote action tokens

A token is created pending and is used once: it is consumed, claimed under the
fingerprint of a request, or it expires.  Every statement that takes a token out
of its pending state is guarded by that state, and each is one atomic step.

A claim reads the token first, and reads it again when its update changes
nothing; other callers take steps in between.  The columns hold the mutation as
the JSON value that they encode.
-/

namespace GoatCitadel.Storage.RemoteActionTokens

open GoatCitadel.Support
open GoatCitadel.Policy (JsonObject JsonValue)

/-! ## Records -/

inductive RemoteActionTokenState
  | pending
  | consumed
  | expired
  deriving DecidableEq

inductive RemoteActionType
  | approvalResolve
  | connectorMutation
  deriving DecidableEq

/-- A row of `remote_action_tokens`, without its key. -/
structure RemoteActionToken where
  tokenHash : String
  actionType : RemoteActionType
  approvalId : Option String
  connectorId : String
  mutation : JsonObject
  createdAt : String
  expiresAt : String
  state : RemoteActionTokenState
  consumedAt : Option String
  consumedBy : Option String

abbrev TokenTable := String → Option RemoteActionToken

/-- `REMOTE_ACTION_CLAIM_FINGERPRINT_MUTATION_KEY` -/
def claimFingerprintKey : String := "__remoteActionClaimFingerprint"

/-- The members of an object under other keys. -/
def removeMember (key : String) (fields : JsonObject) : JsonObject :=
  fields.filter fun member => member.1 ≠ key

/-- An object with a member set. -/
def setMember (key : String) (value : JsonValue) (fields : JsonObject) : JsonObject :=
  if fields.any (fun member => member.1 = key) = true then
    fields.map fun member => if member.1 = key then (key, value) else member
  else fields ++ [(key, value)]

/-- `readRemoteActionTokenClaimFingerprint` -/
def readClaimFingerprint (mutation : JsonObject) : Option String :=
  match mutation.find? fun member => member.1 = claimFingerprintKey with
  | some (_, .string value) => if trim value = "" then none else some (trim value)
  | _ => none

inductive RemoteActionTokenClaimOutcome
  | claimed
  | resumed
  | fingerprintMismatch
  | unavailable
  deriving DecidableEq

/-- `classifyExistingClaim` -/
def classifyExistingClaim (row : RemoteActionToken) (claimFingerprint : String) :
    Option RemoteActionTokenClaimOutcome :=
  match row.state with
  | .pending => none
  | .expired => some .unavailable
  | .consumed =>
      if readClaimFingerprint row.mutation = some claimFingerprint then some .resumed
      else some .fingerprintMismatch

/-- How the database and the language read the texts of times. -/
structure TimeTexts where
  /-- `julianday`, in any unit. -/
  databaseTime : String → Option Rat
  /-- `Date.parse` -/
  parse : String → Option Int

section Operations

variable (times : TimeTexts)

/-! ## Statements -/

/-- `freshExpiryPredicate`, at a time of the database clock. -/
def isFresh (now : Rat) (row : RemoteActionToken) : Bool :=
  match times.databaseTime row.expiresAt with
  | some expiresAt => now < expiresAt
  | none => false

/-- `expiredByDatabaseClockPredicate` -/
def isExpired (now : Rat) (row : RemoteActionToken) : Bool :=
  match times.databaseTime row.expiresAt with
  | some expiresAt => expiresAt ≤ now
  | none => true

/-- An update of the row of a token that is pending, and whether it changed it. -/
def updatePending (tokenId : String) (guard : RemoteActionToken → Bool)
    (set : RemoteActionToken → RemoteActionToken) (tokens : TokenTable) : Bool × TokenTable :=
  match tokens tokenId with
  | some row =>
      if row.state = .pending ∧ guard row = true then
        (true, fun id => if id = tokenId then some (set row) else tokens id)
      else (false, tokens)
  | none => (false, tokens)

/-- A reading of the database clock, and its text. -/
structure DatabaseClock where
  now : Rat
  text : String

/-- `consumePendingStmt` -/
def consumePendingStmt (tokenId consumedBy : String) (clock : DatabaseClock) :
    TokenTable → Bool × TokenTable :=
  updatePending tokenId (isFresh times clock.now) fun row =>
    { row with state := .consumed, consumedAt := some clock.text, consumedBy := some consumedBy }

/-- `claimPendingStmt` -/
def claimPendingStmt (tokenId consumedBy : String) (mutation : JsonObject)
    (clock : DatabaseClock) : TokenTable → Bool × TokenTable :=
  updatePending tokenId (isFresh times clock.now) fun row =>
    { row with
      state := .consumed
      consumedAt := some clock.text
      consumedBy := some consumedBy
      mutation := mutation }

/-- The row of a token that has expired. -/
def expiredRow (row : RemoteActionToken) : RemoteActionToken :=
  { row with state := .expired }

/-- `expirePendingStmt` -/
def expirePendingStmt (tokenId : String) : TokenTable → Bool × TokenTable :=
  updatePending tokenId (fun _ => true) expiredRow

/-- `expirePendingIfExpiredStmt` -/
def expirePendingIfExpiredStmt (tokenId : String) (clock : DatabaseClock) :
    TokenTable → Bool × TokenTable :=
  updatePending tokenId (isExpired times clock.now) expiredRow

/-- The row is a pending one of the approval. -/
def pendingFor (approvalId : String) (row : RemoteActionToken) : Bool :=
  row.approvalId = some approvalId && row.state = .pending

/-- `expirePendingByApprovalStmt` -/
def expirePendingByApprovalStmt (approvalId : String) (tokens : TokenTable) : TokenTable :=
  fun id =>
    (tokens id).map fun row => if pendingFor approvalId row = true then expiredRow row else row

/-! ## Creation -/

structure CreateInput where
  tokenId : String
  tokenHash : String
  actionType : RemoteActionType
  approvalId : Option String
  connectorId : String
  mutation : Option JsonObject
  createdAt : String
  expiresAt : String

/-- The row that a creation inserts. -/
def createdRow (input : CreateInput) : RemoteActionToken where
  tokenHash := trim input.tokenHash
  actionType := input.actionType
  approvalId := (input.approvalId.map trim).filter (· ≠ "")
  connectorId := trim input.connectorId
  mutation := removeMember claimFingerprintKey (input.mutation.getD [])
  createdAt := input.createdAt
  expiresAt := input.expiresAt
  state := .pending
  consumedAt := none
  consumedBy := none

/-- `create`, and `createWithTtl` at the times of the database: a row is inserted
under a key that is not in use. -/
def create (input : CreateInput) (tokens : TokenTable) : Option TokenTable :=
  if trim input.tokenHash = "" ∨ trim input.connectorId = "" then none
  else
    match tokens input.tokenId with
    | some _ => none
    | none =>
        some fun id => if id = input.tokenId then some (createdRow input) else tokens id

/-! ## Callers -/

/-- Where a caller is between the steps of a call. -/
inductive CallerState
  | idle
  /-- `claimPending` has read a pending token, with this mutation. -/
  | claiming (tokenId consumedBy claimFingerprint : String) (mutation : JsonObject)
  /-- The update of `claimPending` has changed the token. -/
  | won (tokenId claimFingerprint : String)
  /-- The update of `claimPending` has changed nothing. -/
  | lost (tokenId claimFingerprint : String)
  /-- `expirePendingAtOrBefore` has read a token that is to expire. -/
  | expiring (tokenId : String)

structure TokenSystem where
  tokens : TokenTable
  callers : Nat → CallerState

def TokenSystem.initial : TokenSystem where
  tokens := fun _ => none
  callers := fun _ => .idle

/-- A caller takes a step. -/
def setCaller (caller : Nat) (next : CallerState) (callers : Nat → CallerState) :
    Nat → CallerState :=
  fun other => if other = caller then next else callers other

/-- The first step of `claimPending`: the answer, or the state of a caller that goes
on to the update. -/
def readForClaim (tokenId consumedBy claimFingerprint : String) (tokens : TokenTable) :
    Option RemoteActionTokenClaimOutcome × CallerState :=
  if trim claimFingerprint = "" then (none, .idle)
  else
    match tokens tokenId with
    | none => (none, .idle)
    | some current =>
        match classifyExistingClaim current (trim claimFingerprint) with
        | some outcome => (some outcome, .idle)
        | none => (none, .claiming tokenId consumedBy (trim claimFingerprint) current.mutation)

/-- The mutation that a claim writes over the one it has read. -/
def claimedMutation (claimFingerprint : String) (mutation : JsonObject) : JsonObject :=
  setMember claimFingerprintKey (.string claimFingerprint) mutation

/-- The last step of a `claimPending` whose update changed nothing. -/
def readAfterLoss (tokenId claimFingerprint : String) (tokens : TokenTable) :
    Option RemoteActionTokenClaimOutcome :=
  (tokens tokenId).map fun persisted =>
    (classifyExistingClaim persisted claimFingerprint).getD .unavailable

/-- The first step of `expirePendingAtOrBefore`: whether the token is to expire. -/
def reachesBoundary (tokenId boundaryAt : String) (tokens : TokenTable) : Bool :=
  match times.parse boundaryAt, tokens tokenId with
  | some boundary, some current =>
      current.state = .pending &&
        match times.parse current.expiresAt with
        | some expiresAt => expiresAt ≤ boundary
        | none => false
  | _, _ => false

/-- One atomic step of a caller, with what it answers: of a claim, its outcome; of
an update, whether it changed the token. -/
inductive TokenEvent
  | create (input : CreateInput)
  | claimRead (caller : Nat) (tokenId consumedBy claimFingerprint : String)
      (answer : Option RemoteActionTokenClaimOutcome)
  | claimUpdate (caller : Nat) (tokenId claimFingerprint : String) (clock : DatabaseClock)
      (changed : Bool)
  | claimAnswer (caller : Nat) (tokenId claimFingerprint : String)
      (answer : Option RemoteActionTokenClaimOutcome)
  | consumePending (tokenId consumedBy : String) (clock : DatabaseClock) (changed : Bool)
  | expirePending (tokenId : String) (changed : Bool)
  | expirePendingIfExpired (tokenId : String) (clock : DatabaseClock) (changed : Bool)
  | expirePendingByApprovalId (approvalId : String) (changed : String → Bool)
  | boundaryRead (caller : Nat) (tokenId boundaryAt : String)
  | boundaryUpdate (caller : Nat) (tokenId : String) (changed : Bool)

/-- One step. -/
def TokenSystem.Step (system : TokenSystem) (event : TokenEvent) (system' : TokenSystem) :
    Prop :=
  match event with
  | .create input =>
      ∃ tokens, create input system.tokens = some tokens ∧ system' = { system with tokens }
  | .claimRead caller tokenId consumedBy claimFingerprint answer =>
      system.callers caller = .idle ∧
        ∃ next, readForClaim tokenId consumedBy claimFingerprint system.tokens =
            (answer, next) ∧
          system' = { system with callers := setCaller caller next system.callers }
  | .claimUpdate caller tokenId claimFingerprint clock changed =>
      ∃ consumedBy mutation tokens,
        system.callers caller = .claiming tokenId consumedBy claimFingerprint mutation ∧
        claimPendingStmt times tokenId consumedBy (claimedMutation claimFingerprint mutation)
          clock system.tokens = (changed, tokens) ∧
        system' = {
          tokens
          callers := setCaller caller
            (if changed = true then .won tokenId claimFingerprint
              else .lost tokenId claimFingerprint) system.callers }
  | .claimAnswer caller tokenId claimFingerprint answer =>
      ((system.callers caller = .won tokenId claimFingerprint ∧
          answer = (system.tokens tokenId).map fun _ => .claimed) ∨
        (system.callers caller = .lost tokenId claimFingerprint ∧
          answer = readAfterLoss tokenId claimFingerprint system.tokens)) ∧
      system' = { system with callers := setCaller caller .idle system.callers }
  | .consumePending tokenId consumedBy clock changed =>
      ∃ tokens, consumePendingStmt times tokenId consumedBy clock system.tokens =
          (changed, tokens) ∧
        system' = { system with tokens }
  | .expirePending tokenId changed =>
      ∃ tokens, expirePendingStmt tokenId system.tokens = (changed, tokens) ∧
        system' = { system with tokens }
  | .expirePendingIfExpired tokenId clock changed =>
      ∃ tokens, expirePendingIfExpiredStmt times tokenId clock system.tokens =
          (changed, tokens) ∧
        system' = { system with tokens }
  | .expirePendingByApprovalId approvalId changed =>
      trim approvalId ≠ "" ∧
        (∀ id, changed id = (system.tokens id).any (pendingFor (trim approvalId))) ∧
        system' = { system with
          tokens := expirePendingByApprovalStmt (trim approvalId) system.tokens }
  | .boundaryRead caller tokenId boundaryAt =>
      system.callers caller = .idle ∧
        system' = { system with
          callers := setCaller caller
            (if reachesBoundary times tokenId boundaryAt system.tokens = true then
              .expiring tokenId else .idle) system.callers }
  | .boundaryUpdate caller tokenId changed =>
      system.callers caller = .expiring tokenId ∧
        ∃ tokens, expirePendingStmt tokenId system.tokens = (changed, tokens) ∧
          system' = { tokens, callers := setCaller caller .idle system.callers }

end Operations

end GoatCitadel.Storage.RemoteActionTokens
