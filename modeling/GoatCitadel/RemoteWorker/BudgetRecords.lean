import Mathlib.Data.Rat.Floor
import GoatCitadel.Contracts.ModelUsage
import GoatCitadel.Support.Holds

/-!
# Records of the worker budgets

An operator grants a worker a number of requests and an amount of money.  The
grants, the reservations and the dispatches made under them are rows of the
budget tables; the inference requests and the usage events are rows of other
repositories, which the budgets read and never write.
-/

namespace GoatCitadel.RemoteWorker

open GoatCitadel.Support
open GoatCitadel.Contracts (CredentialSource CredentialType DispatchReconciliation DispatchRecord
  TerminalOutcome TransportStatus UsagePool UsageSource)
open GoatCitadel.Policy (JsonValue)

/-- What the repository takes from its environment. -/
structure BudgetRuntime where
  /-- `redactSecretText` finds something to redact. -/
  secretLike : String → Bool
  /-- The text is what `toISOString` prints for its own date. -/
  canonicalTimestamp : String → Bool
  /-- `Date.parse` of such a text. -/
  parseDate : String → Int
  /-- The double nearest to the exact result of an operation. -/
  round : Rat → Rat
  /-- `remoteWorkerInferenceCanonicalSha256` of the JSON of a text. -/
  canonicalTextSha256 : String → String

/-- The integer that a number is, when `Number.isSafeInteger` holds of it. -/
def safeInteger? : Number → Option Int
  | .finite value =>
      if value.den = 1 ∧ value.num.natAbs ≤ maxSafeInteger then some value.num else none
  | .nonFinite => none

/-! ## Identifiers -/

/-- `\p{Cc}` -/
def isControl (c : Char) : Bool :=
  c.toNat < 0x20 || (0x7F ≤ c.toNat && c.toNat ≤ 0x9F)

section

variable (runtime : BudgetRuntime)

def boundedIdentifier (value field : String) (max : Nat) : Except String String :=
  if trim value ≠ value ∨ utf16Length value < 1 ∨ max < utf16Length value ∨
      value.toList.any isControl = true then
    throw s!"Remote worker inference {field} is invalid."
  else return value

/-- `secretFreeIdentifier` and `normalizeRemoteWorkerInferenceOperationIdentifier` -/
def secretFreeIdentifier (value field : String) : Except String String := do
  let normalized ← boundedIdentifier value field 256
  if runtime.secretLike normalized = true then
    throw s!"Remote worker inference {field} must not contain secret-like material."
  return normalized

/-- `/^token:[0-9a-f]{16}$/` -/
def isTokenActor (operatorId : String) : Bool :=
  match operatorId.toList with
  | 't' :: 'o' :: 'k' :: 'e' :: 'n' :: ':' :: digits =>
      digits.length == 16 && digits.all fun c => c.isDigit || ('a' ≤ c && c ≤ 'f')
  | _ => false

def normalizeRemoteWorkerBudgetOperatorId (operatorId : String) : Except String String :=
  if operatorId = "auth:none" ∨ isTokenActor operatorId = true then
    return operatorId
  else secretFreeIdentifier runtime operatorId "operatorId"

/-! ## Grants -/

/-- The input of `createGrant`. -/
structure GrantInput where
  grantId : String
  registryWorkspaceId : String
  executionWorkspaceId : String
  workerId : String
  workerGeneration : Number
  maxRequests : Number
  maxCostMicrousd : Number
  expiresAt : String

/-- What a grant permits, once it is normalized. -/
structure GrantTerms where
  grantId : String
  registryWorkspaceId : String
  executionWorkspaceId : String
  workerId : String
  workerGeneration : Nat
  maxRequests : Nat
  maxCostMicrousd : Nat
  expiresAt : String
  deriving DecidableEq

/-- A row of `remote_worker_budget_grants`. -/
structure Grant where
  terms : GrantTerms
  operatorId : String
  createdAt : String
  revokedAt : Option String
  revision : Nat

/-- An integer of a grant, within its bounds. -/
def boundedInteger (value : Number) (name : String) (min max : Nat) : Except String Nat :=
  match safeInteger? value with
  | some n =>
      if n < min ∨ (max : Int) < n then throw s!"Invalid worker budget {name}."
      else return n.toNat
  | none => throw s!"Invalid worker budget {name}."

def normalizeRemoteWorkerBudgetGrant (input : GrantInput) : Except String GrantTerms := do
  if runtime.canonicalTimestamp input.expiresAt = false then
    throw "Worker budget expiry must be a canonical UTC timestamp."
  let grantId ← secretFreeIdentifier runtime input.grantId "grantId"
  let registryWorkspaceId ←
    secretFreeIdentifier runtime input.registryWorkspaceId "registryWorkspaceId"
  let executionWorkspaceId ←
    secretFreeIdentifier runtime input.executionWorkspaceId "executionWorkspaceId"
  let workerId ← secretFreeIdentifier runtime input.workerId "workerId"
  let workerGeneration ←
    boundedInteger input.workerGeneration "workerGeneration" 1 maxSafeInteger
  let maxRequests ← boundedInteger input.maxRequests "maxRequests" 1 100000
  let maxCostMicrousd ←
    boundedInteger input.maxCostMicrousd "maxCostMicrousd" 0 1000000000000
  return { grantId, registryWorkspaceId, executionWorkspaceId, workerId, workerGeneration,
           maxRequests, maxCostMicrousd, expiresAt := input.expiresAt }

/-! ## Routes and their prices -/

/-- `RemoteWorkerInferenceEffectiveRouteReceipt` -/
structure EffectiveRoute where
  providerId : String
  modelId : String
  apiStyle : String
  configuredContextWindowTokens : Option Nat
  credentialType : CredentialType
  usagePool : UsagePool
  credentialSource : CredentialSource
  credentialConfigFingerprint : Option String
  pricingCatalogVersion : Option String
  pricingCatalogHash : Option String
  inputRateUsdPerMillion : Option Rat
  outputRateUsdPerMillion : Option Rat
  cachedInputRateUsdPerMillion : Option Rat
  deriving DecidableEq

/-- `/^[0-9a-f]{64}$/` -/
def digest (value field : String) : Except String String :=
  if value.toList.length = 64 ∧
      (value.toList.all fun c => c.isDigit || ('a' ≤ c && c ≤ 'f')) = true then
    return value
  else throw s!"Remote worker inference {field} must be a lower-case SHA-256 digest."

def positiveInteger (value : Nat) (field : String) (max : Nat) : Except String Nat :=
  if value < 1 ∨ max < value then
    throw s!"Remote worker inference {field} must be a bounded positive integer."
  else return value

def nonNegativeInteger (value : Nat) (field : String) (max : Nat) : Except String Nat :=
  if max < value then
    throw s!"Remote worker inference {field} must be a bounded non-negative integer."
  else return value

def nonNegativeFinite (value : Rat) (field : String) : Except String Rat :=
  if value < 0 then
    throw s!"Remote worker inference {field} must be a non-negative finite number."
  else return value

def normalizeRemoteWorkerInferenceEffectiveRouteReceipt (input : EffectiveRoute) :
    Except String EffectiveRoute := do
  let _ ← secretFreeIdentifier runtime input.providerId "effective route providerId"
  let _ ← secretFreeIdentifier runtime input.modelId "effective route modelId"
  let _ ← secretFreeIdentifier runtime input.apiStyle "effective route apiStyle"
  let _ ← input.configuredContextWindowTokens.mapM
    (positiveInteger · "effective route configuredContextWindowTokens" maxSafeInteger)
  let _ ← input.credentialConfigFingerprint.mapM
    (digest · "effective route credentialConfigFingerprint")
  let _ ← input.pricingCatalogVersion.mapM
    (secretFreeIdentifier runtime · "pricing catalog version")
  let _ ← input.pricingCatalogHash.mapM (digest · "pricingCatalogHash")
  let _ ← input.inputRateUsdPerMillion.mapM (nonNegativeFinite · "inputRateUsdPerMillion")
  let _ ← input.outputRateUsdPerMillion.mapM (nonNegativeFinite · "outputRateUsdPerMillion")
  let _ ← input.cachedInputRateUsdPerMillion.mapM
    (nonNegativeFinite · "cachedInputRateUsdPerMillion")
  return input

/-- `REMOTE_WORKER_BUDGET_MAX_ATTEMPTS` -/
def maxAttempts : Nat := 2

/-- The most that a request over the route may cost, in microdollars. -/
def reservationCost (route : EffectiveRoute)
    (outputTokenCeiling reasoningTokenCeiling attempts : Nat) : Except String Nat :=
  match route.configuredContextWindowTokens, route.inputRateUsdPerMillion,
      route.outputRateUsdPerMillion, route.pricingCatalogHash,
      route.pricingCatalogVersion with
  | some (contextTokens + 1), some inputRate, some outputRate, some hash, some version =>
      if hash = "" ∨ version = "" then
        throw "Worker inference requires bounded context and pinned pricing before spending."
      else
        let rate := max inputRate (route.cachedInputRateUsdPerMillion.getD 0)
        let input := runtime.round ((contextTokens + 1 : Nat) * rate)
        let output := runtime.round
          ((outputTokenCeiling + reasoningTokenCeiling : Nat) * outputRate)
        let cost := ⌈runtime.round (runtime.round (input + output) * attempts)⌉
        if cost < 0 ∨ (maxSafeInteger : Int) < cost then
          throw "Worker budget pricing is out of range."
        else return cost.toNat
  | _, _, _, _, _ =>
      throw "Worker inference requires bounded context and pinned pricing before spending."

end

/-! ## Usage events -/

/-- `ModelUsageEventRecord`, as far as the budgets read it. -/
structure UsageEvent where
  eventId : String
  source : UsageSource
  operationId : String
  parentOperationId : Option String
  dispatchGeneration : String
  effectiveOutputTokenCap : Option Number
  transportStatus : TransportStatus
  terminalOutcome : TerminalOutcome
  finishedAt : Option String
  costUsd : Option Number
  dispatchOwnerId : String
  dispatchUncertaintyReason : Option String
  dispatchReconciledAt : Option String
  dispatchReconciliation : Option DispatchReconciliation
  dispatchReconciledBy : Option String
  dispatchReconciliationEvidence : Option String
  workspaceId : Option String
  sessionId : Option String
  turnId : Option String
  durableRunId : Option String
  taskId : Option String
  workerId : Option String
  contextIntentHash : Option String
  effectiveProviderId : Option String
  effectiveModelId : Option String
  effectiveApiStyle : Option String
  credentialType : CredentialType
  usagePool : UsagePool
  credentialSource : CredentialSource
  credentialConfigFingerprint : Option String
  pricingCatalogVersion : Option String
  pricingCatalogHash : Option String
  inputRateUsdPerMillion : Option Rat
  outputRateUsdPerMillion : Option Rat
  cachedInputRateUsdPerMillion : Option Rat

/-- What the proof that nothing was sent reads. -/
def UsageEvent.dispatchRecord (usage : UsageEvent) : DispatchRecord :=
  { usage with }

/-- What an accepted, finished and priced event cost, in microdollars; nothing
as long as that is uncertain. -/
def accountedCost (runtime : BudgetRuntime) (usage : UsageEvent) : Option Nat :=
  if usage.transportStatus ≠ .accepted ∨ usage.terminalOutcome = .inFlight ∨
      isSet usage.finishedAt = false then none
  else
    match usage.costUsd with
    | some (.finite cost) =>
        if cost < 0 then none else some ⌈runtime.round (cost * 1000000)⌉.toNat
    | some .nonFinite => none
    | none => none

def assertWorkerBudgetUsagePricing (usage : UsageEvent) (route : EffectiveRoute) :
    Except String Unit :=
  if usage.effectiveProviderId ≠ some route.providerId ∨
      usage.effectiveModelId ≠ some route.modelId ∨
      usage.effectiveApiStyle ≠ some route.apiStyle ∨
      usage.credentialType ≠ route.credentialType ∨ usage.usagePool ≠ route.usagePool ∨
      usage.credentialSource ≠ route.credentialSource ∨
      usage.credentialConfigFingerprint ≠ route.credentialConfigFingerprint ∨
      usage.pricingCatalogHash ≠ route.pricingCatalogHash ∨
      usage.pricingCatalogVersion ≠ route.pricingCatalogVersion ∨
      usage.inputRateUsdPerMillion ≠ route.inputRateUsdPerMillion ∨
      usage.outputRateUsdPerMillion ≠ route.outputRateUsdPerMillion ∨
      usage.cachedInputRateUsdPerMillion ≠ route.cachedInputRateUsdPerMillion then
    throw "Worker budget usage is bound to different authority or pricing."
  else return ()

/-! ## Inference requests -/

inductive InferenceState
  | admitted
  | waitingApproval
  | blocked
  | dispatchClaimed
  | streaming
  | completed
  | failed
  | cancelled
  | dispatchUnknown
  deriving DecidableEq

inductive BudgetAuthorityState
  | notRequired
  | reservationPending
  | reserved
  | settlementPending
  | settled
  | released
  | reconciliationRequired
  | legacyUnverifiable
  deriving DecidableEq

inductive ReleaseReason
  | preDispatchAuthorityLost
  | governanceDenied
  | approvalRejected
  | budgetRevalidationFailed
  deriving DecidableEq

/-- `RemoteWorkerInferenceRequestRecord`, as far as the budgets read it.  The
receipt of its route is kept as what parsing its JSON yields. -/
structure InferenceRequest where
  registryWorkspaceId : String
  executionWorkspaceId : Option String
  workerId : String
  workerGeneration : Nat
  sessionId : String
  turnId : String
  durableRunId : Option String
  taskId : Option String
  routedContextSha256 : String
  operationId : String
  dispatchGeneration : String
  state : InferenceState
  effectiveRouteSha256 : String
  effectiveRouteJson : Option (Except String EffectiveRoute)
  governanceExpiresAt : String
  continuationGovernanceExpiresAt : Option String
  budgetAuthorityState : BudgetAuthorityState
  budgetOperationJson : Option String
  budgetOperationSha256 : Option String
  budgetReservationId : Option String
  budgetReleaseReason : Option ReleaseReason
  budgetReleaseRequestedAt : Option String
  dispatchClaimedAt : Option String
  usageEventIdsJson : Option String
  usageEventIdsSha256 : Option String

/-- `RemoteWorkerInferenceBudgetOperationInput`.  What binds the operation to a
capability is kept as its canonical text. -/
structure BudgetOperation where
  operationId : String
  dispatchGeneration : String
  requestSha256 : String
  effectiveRouteSha256 : String
  registryWorkspaceId : String
  executionWorkspaceId : String
  assignmentId : String
  assignmentGeneration : Nat
  workerId : String
  workerGeneration : Nat
  admittedLeaseRevision : Nat
  sessionId : String
  turnId : String
  durableRunId : String
  taskId : String
  capabilityBinding : String
  routedContextSha256 : String
  outputTokenCeiling : Nat
  reasoningTokenCeiling : Nat

/-- Whom a tool dispatch is accounted to. -/
structure UsageAuthority where
  workspaceId : String
  sessionId : String
  turnId : String
  durableRunId : String
  taskId : String
  workerId : String
  contextIntentHash : String
  parentOperationId : String
  deriving DecidableEq

/-- `remoteWorkerInferenceCanonicalSha256` of the records that are digested; an
operation is normalized first, and that may fail. -/
structure Digests where
  operation : BudgetOperation → Except String String
  route : EffectiveRoute → String
  usageEventIds : List String → String
  authority : UsageAuthority → String

/-- `RemoteWorkerInferenceBudgetReservation` -/
structure Receipt where
  schemaVersion : String
  budgetOwnerId : String
  reservationId : String
  operationId : String
  operationSha256 : String
  requestSha256 : String
  effectiveRouteSha256 : String
  reservedOutputTokens : Nat
  reservedReasoningTokens : Nat
  reservedCostMicrousd : Nat
  expiresAt : String
  deriving DecidableEq

/-- `REMOTE_WORKER_INFERENCE_BUDGET_SCHEMA_VERSION` -/
def budgetSchemaVersion : String := "goatcitadel.remote-worker-inference-budget.v2"

/-- `REMOTE_WORKER_BUDGET_OWNER_ID` -/
def budgetOwnerId : String := "gateway.remote-worker-budget.v1"

def normalizeRemoteWorkerInferenceBudgetReservation (runtime : BudgetRuntime)
    (input : Receipt) : Except String Receipt := do
  if input.schemaVersion ≠ budgetSchemaVersion then
    throw "Remote worker inference budget reservation schema version is unsupported."
  let _ ← secretFreeIdentifier runtime input.budgetOwnerId "budgetOwnerId"
  let _ ← secretFreeIdentifier runtime input.reservationId "reservationId"
  let _ ← secretFreeIdentifier runtime input.operationId "budget reservation operationId"
  let _ ← digest input.operationSha256 "budget reservation operationSha256"
  let _ ← digest input.requestSha256 "budget reservation requestSha256"
  let _ ← digest input.effectiveRouteSha256 "budget reservation effectiveRouteSha256"
  let _ ← positiveInteger input.reservedOutputTokens "reservedOutputTokens" 1000000
  let _ ← nonNegativeInteger input.reservedReasoningTokens "reservedReasoningTokens" 1000000
  let _ ← nonNegativeInteger input.reservedCostMicrousd "reservedCostMicrousd" maxSafeInteger
  if runtime.canonicalTimestamp input.expiresAt = false then
    throw "Remote worker inference expiresAt must be a canonical UTC timestamp."
  return input

/-- `normalizeRemoteWorkerInferenceUsageEventIds` -/
def normalizeRemoteWorkerInferenceUsageEventIds (runtime : BudgetRuntime)
    (input : List String) : Except String (List String) := do
  if input.length < 1 ∨ 32 < input.length then
    throw "Remote worker inference usage event ids must be a bounded non-empty array."
  let normalized ← input.zipIdx.mapM fun (value, index) =>
    secretFreeIdentifier runtime value s!"usageEventIds[{index}]"
  if ¬normalized.Nodup then
    throw "Remote worker inference usage event ids must be unique and ordered."
  return normalized

/-- `canonicalJsonString` of a list of texts. -/
def canonicalJsonOfTexts (texts : List String) : String :=
  JsonValue.stringify (.array (texts.map .string))

end GoatCitadel.RemoteWorker
