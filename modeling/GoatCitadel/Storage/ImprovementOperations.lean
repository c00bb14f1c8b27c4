import GoatCitadel.Policy.JsonParse
import GoatCitadel.Storage.WorktreeLease
import Mathlib.Data.List.MinMax

/-!
# Operations of the improvement lifecycle

An operation is intended once, claimed by one worker after the other, inspected by the
worker that holds its latest claim, and settled once.  The tables are only inserted into;
the database checks what a claim, an inspection and a settlement may follow.
-/

namespace GoatCitadel.Storage.ImprovementLifecycle

open GoatCitadel.Support
open GoatCitadel.Policy
open GoatCitadel.Storage.WorktreeLeaseRepository (DateText)

/-! ## Records -/

inductive OperationKind
  | activate
  | pause
  | rollback
  deriving DecidableEq

def OperationKind.text : OperationKind → String
  | .activate => "activate"
  | .pause => "pause"
  | .rollback => "rollback"

inductive TargetKind
  | improvementActivation
  | improvementCandidate
  deriving DecidableEq

def TargetKind.text : TargetKind → String
  | .improvementActivation => "improvement_activation"
  | .improvementCandidate => "improvement_candidate"

inductive InspectionDisposition
  | matchesIntent
  | diverged
  | unreachable
  deriving DecidableEq

def InspectionDisposition.text : InspectionDisposition → String
  | .matchesIntent => "matches_intent"
  | .diverged => "diverged"
  | .unreachable => "unreachable"

inductive SettlementDisposition
  | applied
  | failed
  | aborted
  deriving DecidableEq

def SettlementDisposition.text : SettlementDisposition → String
  | .applied => "applied"
  | .failed => "failed"
  | .aborted => "aborted"

/-- `ImprovementLifecycleOperationRecord`, and a row of the operations. -/
structure OperationRecord where
  operationId : String
  idempotencyKey : String
  workspaceId : String
  operationKind : OperationKind
  targetKind : TargetKind
  targetId : String
  approvalId : String
  requestSha256 : String
  actorId : String
  sessionId : Option String
  turnId : Option String
  createdAt : String
  deriving DecidableEq

/-- `ImprovementLifecycleClaimRecord`, and a row of the claims. -/
structure ClaimRecord where
  operationId : String
  claimGeneration : Nat
  workerId : String
  claimedAt : String
  leaseExpiresAt : String
  deriving DecidableEq

/-- `ImprovementLifecycleInspectionRecord`, and a row of the inspections. -/
structure InspectionRecord where
  inspectionId : String
  operationId : String
  claimGeneration : Nat
  observedStateSha256 : String
  disposition : InspectionDisposition
  observedAt : String
  deriving DecidableEq

/-- `ImprovementLifecycleSettlementRecord` -/
structure SettlementRecord where
  settlementId : String
  operationId : String
  claimGeneration : Nat
  inspectionId : String
  disposition : SettlementDisposition
  observedStateSha256 : String
  result : JsonValue
  resultSha256 : String
  settledAt : String

/-- `ImprovementSettlementRow` -/
structure SettlementRow where
  settlementId : String
  operationId : String
  claimGeneration : Nat
  inspectionId : String
  disposition : SettlementDisposition
  observedStateSha256 : String
  resultJson : String
  resultSha256 : String
  settledAt : String
  deriving DecidableEq

/-- A member that is only there when it has a value. -/
def optionalMember (key : String) : Option String → JsonObject
  | some value => [(key, .string value)]
  | none => []

def OperationRecord.members (record : OperationRecord) : JsonObject :=
  [("operationId", .string record.operationId),
    ("idempotencyKey", .string record.idempotencyKey),
    ("workspaceId", .string record.workspaceId),
    ("operationKind", .string record.operationKind.text),
    ("targetKind", .string record.targetKind.text),
    ("targetId", .string record.targetId),
    ("approvalId", .string record.approvalId),
    ("requestSha256", .string record.requestSha256),
    ("actorId", .string record.actorId),
    ("createdAt", .string record.createdAt)] ++
    optionalMember "sessionId" record.sessionId ++ optionalMember "turnId" record.turnId

def OperationRecord.toJson (record : OperationRecord) : JsonValue :=
  .object record.members

/-- The part of an operation that its digest is taken of. -/
def OperationRecord.request (record : OperationRecord) : JsonValue :=
  .object ([("operationId", .string record.operationId),
    ("idempotencyKey", .string record.idempotencyKey),
    ("workspaceId", .string record.workspaceId),
    ("operationKind", .string record.operationKind.text),
    ("targetKind", .string record.targetKind.text),
    ("targetId", .string record.targetId),
    ("actorId", .string record.actorId),
    ("createdAt", .string record.createdAt)] ++
    optionalMember "sessionId" record.sessionId ++ optionalMember "turnId" record.turnId)

def InspectionRecord.toJson (record : InspectionRecord) : JsonValue :=
  .object [("inspectionId", .string record.inspectionId),
    ("operationId", .string record.operationId),
    ("claimGeneration", .number (toString record.claimGeneration)),
    ("observedStateSha256", .string record.observedStateSha256),
    ("disposition", .string record.disposition.text),
    ("observedAt", .string record.observedAt)]

def SettlementRecord.members (record : SettlementRecord) : JsonObject :=
  [("settlementId", .string record.settlementId),
    ("operationId", .string record.operationId),
    ("claimGeneration", .number (toString record.claimGeneration)),
    ("inspectionId", .string record.inspectionId),
    ("disposition", .string record.disposition.text),
    ("observedStateSha256", .string record.observedStateSha256),
    ("result", record.result),
    ("resultSha256", .string record.resultSha256),
    ("settledAt", .string record.settledAt)]

def SettlementRecord.toJson (record : SettlementRecord) : JsonValue :=
  .object record.members

structure LifecycleStore where
  operations : List OperationRecord
  claims : List ClaimRecord
  inspections : List InspectionRecord
  settlements : List SettlementRow
  deriving DecidableEq

/-! ## Errors -/

/-- What the database raises. -/
inductive DatabaseError
  | alreadySettled (admission : String)
  | nonSequential
  | priorLeaseLive
  | staleClaim (admission : String)
  | missingInspection
  | falseApplied
  | constraint (table : String)
  deriving DecidableEq

def DatabaseError.message : DatabaseError → String
  | .alreadySettled admission =>
      s!"improvement lifecycle {admission} admission violated: operation already settled"
  | .nonSequential =>
      "improvement lifecycle claim admission violated: non-sequential claim generation"
  | .priorLeaseLive =>
      "improvement lifecycle claim admission violated: prior claim lease is still live"
  | .staleClaim admission =>
      s!"improvement lifecycle {admission} admission violated: fenced stale claim"
  | .missingInspection =>
      "improvement lifecycle settlement admission violated: missing exact same-claim re-inspection"
  | .falseApplied =>
      "improvement lifecycle settlement admission violated: false applied claim"
  | .constraint table => s!"constraint of {table} violated"

inductive LifecycleError
  | identity (label : String)
  | sha256 (label : String)
  | timestamp (label : String)
  | positiveInteger (label : String)
  | turnLinkage
  | requestDigest
  | resultDigest
  | resultBounds
  | notFound (entity id : String)
  | conflict (entity id : String)
  | claimFenced (operationId : String) (cause : DatabaseError)
  | claimLost (operationId : String)
  | notPersisted (settlementId : String)
  | database (error : DatabaseError)
  deriving DecidableEq

def LifecycleError.message : LifecycleError → String
  | .identity label =>
      s!"Improvement lifecycle {label} must use its bounded canonical identity form."
  | .sha256 label => s!"Improvement lifecycle {label} hash must be SHA-256 hex."
  | .timestamp label => s!"Improvement lifecycle {label} must be a canonical ISO timestamp."
  | .positiveInteger label => s!"Improvement lifecycle {label} must be a positive integer."
  | .turnLinkage => "Improvement lifecycle turn linkage requires a session ID."
  | .requestDigest => "Improvement lifecycle request digest does not match canonical JSON."
  | .resultDigest => "Improvement lifecycle result digest does not match canonical JSON."
  | .resultBounds => "improvement lifecycle result is out of bounds"
  | .notFound entity id => s!"{entity} {id} not found"
  | .conflict entity id =>
      s!"Improvement lifecycle {entity} {id} conflicts with an immutable record."
  | .claimFenced operationId cause =>
      s!"Improvement lifecycle claim on {operationId} was fenced: {cause.message}"
  | .claimLost operationId =>
      s!"Improvement lifecycle claim on {operationId} lost the one-winner race."
  | .notPersisted settlementId =>
      s!"Improvement lifecycle settlement {settlementId} was not persisted."
  | .database error => error.message

/-- What the repository takes from its environment. -/
structure LifecycleRuntime where
  dates : DateText
  /-- `gc_try_parse_timestamptz` of a text that the columns take for a timestamp. -/
  databaseTime : String → Option Int
  normalizeNfkc : String → String
  numbers : NumberFormat
  sha256Hex : String → String
  /-- `assertBoundedGovernanceMetadata` -/
  boundedMetadata : JsonValue → Bool

section Operations

variable (runtime : LifecycleRuntime)

/-! ## Checks -/

def assertCanonicalIdentity (value label : String) (maxLength : Nat) : Except LifecycleError Unit :=
  if trim value = "" ∨ maxLength < utf16Length value ∨
      value ≠ trim (runtime.normalizeNfkc value) then throw (.identity label)
  else return ()

def assertOptionalCanonicalIdentity (value : Option String) (label : String) (maxLength : Nat) :
    Except LifecycleError Unit :=
  match value with
  | some value => assertCanonicalIdentity runtime value label maxLength
  | none => return ()

def assertSha256 (value label : String) : Except LifecycleError Unit :=
  if isSha256Hex value = true then return () else throw (.sha256 label)

def assertCanonicalTimestamp (value label : String) : Except LifecycleError Unit :=
  match runtime.dates.parse value with
  | some time =>
      if runtime.dates.toISOString time = some value then return () else throw (.timestamp label)
  | none => throw (.timestamp label)

def requirePositiveInteger (value : Nat) (label : String) : Except LifecycleError Nat :=
  if value = 0 ∨ 9007199254740991 < value then throw (.positiveInteger label) else return value

def validateOperation (input : OperationRecord) : Except LifecycleError Unit := do
  assertCanonicalIdentity runtime input.operationId "operation ID" 256
  assertCanonicalIdentity runtime input.idempotencyKey "idempotency key" 512
  assertCanonicalIdentity runtime input.workspaceId "workspace ID" 256
  assertCanonicalIdentity runtime input.targetId "target ID" 256
  assertCanonicalIdentity runtime input.approvalId "approval ID" 256
  assertSha256 input.requestSha256 "request"
  assertCanonicalIdentity runtime input.actorId "actor ID" 256
  assertOptionalCanonicalIdentity runtime input.sessionId "session ID" 256
  assertOptionalCanonicalIdentity runtime input.turnId "turn ID" 256
  if input.turnId.isSome = true ∧ input.sessionId = none then throw .turnLinkage
  assertCanonicalTimestamp runtime input.createdAt "created-at"

def validateInspection (input : InspectionRecord) : Except LifecycleError Unit := do
  assertCanonicalIdentity runtime input.inspectionId "inspection ID" 256
  assertCanonicalIdentity runtime input.operationId "operation ID" 256
  let _ ← requirePositiveInteger input.claimGeneration "claim generation"
  assertSha256 input.observedStateSha256 "observed state"
  assertCanonicalTimestamp runtime input.observedAt "observed-at"

def computeImprovementLifecycleResultSha256 (result : JsonValue) : Except LifecycleError String :=
  if runtime.boundedMetadata result = true then
    return runtime.sha256Hex (canonicalJsonString result)
  else throw .resultBounds

def validateSettlement (input : SettlementRecord) : Except LifecycleError Unit := do
  assertCanonicalIdentity runtime input.settlementId "settlement ID" 256
  assertCanonicalIdentity runtime input.operationId "operation ID" 256
  let _ ← requirePositiveInteger input.claimGeneration "claim generation"
  assertCanonicalIdentity runtime input.inspectionId "inspection ID" 256
  assertSha256 input.observedStateSha256 "observed state"
  assertSha256 input.resultSha256 "result"
  let digest ← computeImprovementLifecycleResultSha256 runtime input.result
  if digest ≠ input.resultSha256 then throw .resultDigest
  assertCanonicalTimestamp runtime input.settledAt "settled-at"

def assertOperationRequestDigest (input : OperationRecord) : Except LifecycleError Unit :=
  if runtime.sha256Hex (canonicalJsonString input.request) ≠ input.requestSha256 then
    throw .requestDigest
  else return ()

def assertOperationReplay (stored attempted : OperationRecord) :
    Except LifecycleError OperationRecord :=
  if canonicalJsonString stored.toJson ≠ canonicalJsonString attempted.toJson then
    throw (.conflict "operation" attempted.operationId)
  else return stored

def assertSettlementReplay (stored attempted : SettlementRecord) :
    Except LifecycleError SettlementRecord :=
  if canonicalJsonString stored.toJson ≠ canonicalJsonString attempted.toJson then
    throw (.conflict "settlement" attempted.settlementId)
  else return stored

/-! ## Rows -/

def mapOperation (row : OperationRecord) : Except LifecycleError OperationRecord := do
  validateOperation runtime row
  return row

def mapClaim (row : ClaimRecord) : Except LifecycleError ClaimRecord := do
  let _ ← requirePositiveInteger row.claimGeneration "claim generation"
  return row

def mapInspection (row : InspectionRecord) : Except LifecycleError InspectionRecord := do
  let _ ← requirePositiveInteger row.claimGeneration "claim generation"
  validateInspection runtime row
  return row

/-- The record of a row, whose result is parsed. -/
def SettlementRow.toRecord (row : SettlementRow) : SettlementRecord :=
  { settlementId := row.settlementId
    operationId := row.operationId
    claimGeneration := row.claimGeneration
    inspectionId := row.inspectionId
    disposition := row.disposition
    observedStateSha256 := row.observedStateSha256
    result := (jsonParse runtime.numbers row.resultJson).getD (.object [])
    resultSha256 := row.resultSha256
    settledAt := row.settledAt }

def mapSettlement (row : SettlementRow) : Except LifecycleError SettlementRecord := do
  let _ ← requirePositiveInteger row.claimGeneration "claim generation"
  validateSettlement runtime (row.toRecord runtime)
  return row.toRecord runtime

/-- A row that is looked up, if there is one. -/
def mapRow {ρ α : Type} (map : ρ → Except LifecycleError α) :
    Option ρ → Except LifecycleError (Option α)
  | some row => do return some (← map row)
  | none => return none

/-! ## Statements -/

/-- `currentClaimStmt` -/
def currentClaim (claims : List ClaimRecord) (operationId : String) : Option ClaimRecord :=
  (claims.filter fun claim => claim.operationId = operationId).argmax ClaimRecord.claimGeneration

/-- `MAX(claim_generation)` -/
def latestGeneration (claims : List ClaimRecord) (operationId : String) : Option Nat :=
  (currentClaim claims operationId).map ClaimRecord.claimGeneration

def isSettled (store : LifecycleStore) (operationId : String) : Bool :=
  store.settlements.any fun settlement => settlement.operationId = operationId

/-- `insertOperationStmt`.  A conflict with a row of another operation, key or approval
changes nothing. -/
def insertOperation (row : OperationRecord) (store : LifecycleStore) :
    Except DatabaseError LifecycleStore :=
  if runtime.databaseTime row.createdAt = none then
    throw (.constraint "improvement_lifecycle_operations")
  else if store.operations.any (fun other => other.operationId = row.operationId ||
      other.idempotencyKey = row.idempotencyKey || other.approvalId = row.approvalId) = true then
    return store
  else return { store with operations := store.operations ++ [row] }

/-- `insertClaimStmt` with `gc_improvement_lifecycle_claim_guard`. -/
def insertClaim (row : ClaimRecord) (databaseNow : Int) (store : LifecycleStore) :
    Except DatabaseError LifecycleStore :=
  let priorLease := (store.claims.find? fun prior => prior.operationId = row.operationId ∧
    prior.claimGeneration + 1 = row.claimGeneration).bind
      fun prior => runtime.databaseTime prior.leaseExpiresAt
  if isSettled store row.operationId = true then throw (.alreadySettled "claim")
  else if row.claimGeneration ≠ (latestGeneration store.claims row.operationId).getD 0 + 1 then
    throw .nonSequential
  else if priorLease.any (fun lease => databaseNow < lease) = true then throw .priorLeaseLive
  else if runtime.databaseTime row.claimedAt = none ∨
      runtime.databaseTime row.leaseExpiresAt = none ∨
      utf16Le row.leaseExpiresAt row.claimedAt = true ∨
      store.claims.any (fun other => other.operationId = row.operationId &&
        other.claimGeneration = row.claimGeneration) = true ∨
      store.operations.any (fun operation => operation.operationId = row.operationId) = false then
    throw (.constraint "improvement_lifecycle_operation_claims")
  else return { store with claims := store.claims ++ [row] }

/-- `insertInspectionStmt` with `gc_improvement_lifecycle_inspection_guard`. -/
def insertInspection (row : InspectionRecord) (store : LifecycleStore) :
    Except DatabaseError LifecycleStore :=
  if isSettled store row.operationId = true then throw (.alreadySettled "inspection")
  else if latestGeneration store.claims row.operationId ≠ some row.claimGeneration then
    throw (.staleClaim "inspection")
  else if runtime.databaseTime row.observedAt = none ∨
      store.inspections.any (fun other => other.inspectionId = row.inspectionId) = true then
    throw (.constraint "improvement_lifecycle_operation_inspections")
  else return { store with inspections := store.inspections ++ [row] }

/-- `insertSettlementStmt` with `gc_improvement_lifecycle_settlement_guard`.  A conflict
with a row of another settlement, operation or inspection changes nothing. -/
def insertSettlement (row : SettlementRow) (store : LifecycleStore) :
    Except DatabaseError LifecycleStore :=
  if latestGeneration store.claims row.operationId ≠ some row.claimGeneration then
    throw (.staleClaim "settlement")
  else if store.inspections.any (fun inspection => inspection.inspectionId = row.inspectionId &&
      inspection.operationId = row.operationId &&
      inspection.claimGeneration = row.claimGeneration &&
      inspection.observedStateSha256 = row.observedStateSha256) = false then
    throw .missingInspection
  else if row.disposition = .applied ∧
      store.inspections.any (fun inspection => inspection.inspectionId = row.inspectionId &&
        inspection.disposition = .matchesIntent) = false then
    throw .falseApplied
  else if runtime.databaseTime row.settledAt = none ∨ 16384 < row.resultJson.utf8ByteSize then
    throw (.constraint "improvement_lifecycle_operation_settlements")
  else if store.settlements.any (fun other => other.settlementId = row.settlementId ||
      other.operationId = row.operationId || other.inspectionId = row.inspectionId) = true then
    return store
  else return { store with settlements := store.settlements ++ [row] }

/-! ## Calls -/

def findIntent (operationId : String) (store : LifecycleStore) :
    Except LifecycleError (Option OperationRecord) := do
  assertCanonicalIdentity runtime operationId "operation ID" 256
  mapRow (mapOperation runtime) (store.operations.find? fun row => row.operationId = operationId)

def findIntentByIdempotencyKey (idempotencyKey : String) (store : LifecycleStore) :
    Except LifecycleError (Option OperationRecord) := do
  assertCanonicalIdentity runtime idempotencyKey "idempotency key" 512
  mapRow (mapOperation runtime)
    (store.operations.find? fun row => row.idempotencyKey = idempotencyKey)

def findIntentByApprovalId (approvalId : String) (store : LifecycleStore) :
    Except LifecycleError (Option OperationRecord) := do
  assertCanonicalIdentity runtime approvalId "approval ID" 256
  mapRow (mapOperation runtime) (store.operations.find? fun row => row.approvalId = approvalId)

/-- `??` between lookups: the second one is only made when the first finds nothing. -/
def orElseFind {α : Type} (first second : Except LifecycleError (Option α)) :
    Except LifecycleError (Option α) := do
  match ← first with
  | some found => return some found
  | none => second

/-- The intent of the operation, of the idempotency key, or of the approval of an input. -/
def findRecorded (input : OperationRecord) (store : LifecycleStore) :
    Except LifecycleError (Option OperationRecord) :=
  orElseFind (findIntent runtime input.operationId store)
    (orElseFind (findIntentByIdempotencyKey runtime input.idempotencyKey store)
      (findIntentByApprovalId runtime input.approvalId store))

def getIntent (operationId : String) (store : LifecycleStore) :
    Except LifecycleError OperationRecord := do
  match ← findIntent runtime operationId store with
  | some record => return record
  | none => throw (.notFound "improvement lifecycle operation" operationId)

def createIntent (input : OperationRecord) (store : LifecycleStore) :
    Except LifecycleError (OperationRecord × LifecycleStore) := do
  validateOperation runtime input
  match ← findRecorded runtime input store with
  | some existing => return (← assertOperationReplay existing input, store)
  | none =>
      assertOperationRequestDigest runtime input
      match insertOperation runtime input store with
      | .error error =>
          match ← findRecorded runtime input store with
          | some raced => return (← assertOperationReplay raced input, store)
          | none => throw (.database error)
      | .ok store =>
          let stored ← getIntent runtime input.operationId store
          return (← assertOperationReplay stored input, store)

structure ClaimInput where
  operationId : String
  workerId : String
  claimedAt : String
  leaseExpiresAt : String
  deriving DecidableEq

def findCurrentClaim (operationId : String) (store : LifecycleStore) :
    Except LifecycleError (Option ClaimRecord) := do
  assertCanonicalIdentity runtime operationId "operation ID" 256
  mapRow mapClaim (currentClaim store.claims operationId)

def claim (input : ClaimInput) (databaseNow : Int) (store : LifecycleStore) :
    Except LifecycleError (ClaimRecord × LifecycleStore) := do
  assertCanonicalIdentity runtime input.operationId "operation ID" 256
  assertCanonicalIdentity runtime input.workerId "worker ID" 256
  assertCanonicalTimestamp runtime input.claimedAt "claimed-at"
  assertCanonicalTimestamp runtime input.leaseExpiresAt "lease-expires-at"
  let current ← findCurrentClaim runtime input.operationId store
  let claimGeneration := (current.map ClaimRecord.claimGeneration).getD 0 + 1
  let row : ClaimRecord :=
    { operationId := input.operationId
      claimGeneration := claimGeneration
      workerId := input.workerId
      claimedAt := input.claimedAt
      leaseExpiresAt := input.leaseExpiresAt }
  match insertClaim runtime row databaseNow store with
  | .error error => throw (.claimFenced input.operationId error)
  | .ok store =>
      match ← findCurrentClaim runtime input.operationId store with
      | some stored =>
          if stored.claimGeneration ≠ claimGeneration ∨ stored.workerId ≠ input.workerId then
            throw (.claimLost input.operationId)
          else return (stored, store)
      | none => throw (.claimLost input.operationId)

def getInspection (inspectionId : String) (store : LifecycleStore) :
    Except LifecycleError InspectionRecord := do
  assertCanonicalIdentity runtime inspectionId "inspection ID" 256
  match store.inspections.find? fun row => row.inspectionId = inspectionId with
  | some row => mapInspection runtime row
  | none => throw (.notFound "improvement lifecycle inspection" inspectionId)

def recordInspection (input : InspectionRecord) (store : LifecycleStore) :
    Except LifecycleError (InspectionRecord × LifecycleStore) := do
  validateInspection runtime input
  match insertInspection runtime input store with
  | .error error => throw (.database error)
  | .ok store =>
      let stored ← getInspection runtime input.inspectionId store
      if canonicalJsonString stored.toJson ≠ canonicalJsonString input.toJson then
        throw (.conflict "inspection" input.inspectionId)
      else return (stored, store)

def findSettlement (settlementId : String) (store : LifecycleStore) :
    Except LifecycleError (Option SettlementRecord) := do
  assertCanonicalIdentity runtime settlementId "settlement ID" 256
  mapRow (mapSettlement runtime)
    (store.settlements.find? fun row => row.settlementId = settlementId)

def findSettlementByOperationId (operationId : String) (store : LifecycleStore) :
    Except LifecycleError (Option SettlementRecord) := do
  assertCanonicalIdentity runtime operationId "operation ID" 256
  mapRow (mapSettlement runtime) (store.settlements.find? fun row => row.operationId = operationId)

/-- The settlement of the id, or of the operation, of an input. -/
def findSettled (input : SettlementRecord) (store : LifecycleStore) :
    Except LifecycleError (Option SettlementRecord) :=
  orElseFind (findSettlement runtime input.settlementId store)
    (findSettlementByOperationId runtime input.operationId store)

/-- The row of a settlement. -/
def SettlementRecord.toRow (input : SettlementRecord) : SettlementRow :=
  { settlementId := input.settlementId
    operationId := input.operationId
    claimGeneration := input.claimGeneration
    inspectionId := input.inspectionId
    disposition := input.disposition
    observedStateSha256 := input.observedStateSha256
    resultJson := canonicalJsonString input.result
    resultSha256 := input.resultSha256
    settledAt := input.settledAt }

def settle (input : SettlementRecord) (store : LifecycleStore) :
    Except LifecycleError (SettlementRecord × LifecycleStore) := do
  validateSettlement runtime input
  match ← findSettled runtime input store with
  | some existing => return (← assertSettlementReplay existing input, store)
  | none =>
      match insertSettlement runtime input.toRow store with
      | .error error =>
          match ← findSettled runtime input store with
          | some raced => return (← assertSettlementReplay raced input, store)
          | none => throw (.database error)
      | .ok store =>
          match ← findSettled runtime input store with
          | some stored => return (← assertSettlementReplay stored input, store)
          | none => throw (.notPersisted input.settlementId)

end Operations

end GoatCitadel.Storage.ImprovementLifecycle
