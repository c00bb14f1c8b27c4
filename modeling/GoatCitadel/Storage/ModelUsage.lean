import Mathlib.Data.Rat.Defs
import GoatCitadel.Contracts.ModelUsage
import GoatCitadel.Storage.WorktreeLease
import GoatCitadel.Support.Table

/-!
# Model usage events

Every network attempt of a model call has a row.  Its transport is accepted, or its
dispatch is uncertain; its outcome is known once, with the usage and the cost that were
reported.  An attempt whose usage is known is projected to the cost ledger and to the
totals of its session in the transaction that finalizes it.  Costs are exact.
-/

namespace GoatCitadel.Storage.ModelUsage

open GoatCitadel.Support
open GoatCitadel.Contracts (CredentialSource CredentialType DispatchReconciliation DispatchRecord
  FinalOutcome TerminalOutcome TransportStatus UsagePool UsageSource
  isModelUsageProvenNotDispatched modelUsageNoDispatchEvidence modelUsageNoDispatchReason)
open GoatCitadel.Storage.WorktreeLeaseRepository (DateText)

/-! ## Records -/

inductive CallKind
  | chatInitial
  | chatToolLoop
  | chatRepair
  | chatFallback
  | delegationWorker
  | assemblyParticipant
  | assemblySynthesis
  | utility
  | embedding
  | imageGeneration
  deriving DecidableEq

inductive ReasoningDisposition
  | honored
  | downgraded
  | unsupportedBlocked
  | providerDefault
  deriving DecidableEq

/-- `ModelUsageCostSource` and `ModelUsagePricingSource` -/
inductive CostSource
  | providerReported
  | gatewayEstimate
  | notAvailable
  deriving DecidableEq

inductive Availability
  | tracked
  | unknown
  deriving DecidableEq

inductive OutputCapDisposition
  | initial
  | preservedRetry
  | reducedRetry
  deriving DecidableEq

inductive OutputCapRecoveryReasonCode
  | safeLowerCap
  deriving DecidableEq

inductive OutputCapEvidenceFormat
  | anthropicEquation
  | boundedRange
  | contextBreakdown
  | characterPrompt
  | vllmContext
  deriving DecidableEq

inductive TransportRetryReason
  | outputCapRecovery
  | metadataCompatibility
  deriving DecidableEq

/-- What an attempt has in common with the attempts of the same call. -/
structure AttemptIdentity where
  source : UsageSource
  callKind : CallKind
  requestedProviderId : Option String
  requestedModelId : Option String
  requestedReasoningLevel : Option String
  dispatchedReasoningEffort : Option String
  reasoningDisposition : Option ReasoningDisposition
  reasoningReasonCode : Option String
  effectiveProviderId : Option String
  dispatchedModelId : Option String
  effectiveApiStyle : Option String
  routeDecisionId : Option String
  contextSnapshotId : Option String
  contextIntentHash : Option String
  contextEntryRefId : Option String
  operationId : String
  parentOperationId : Option String
  dispatchGeneration : String
  attemptIndex : Nat
  fallbackIndex : Nat
  repairIndex : Nat
  workspaceId : Option String
  sessionId : Option String
  turnId : Option String
  durableRunId : Option String
  taskId : Option String
  agentId : Option String
  assemblyRunId : Option String
  assemblyRoundIndex : Option Nat
  assemblyStage : Option String
  workerId : Option String
  utilityKind : Option String
  credentialType : CredentialType
  usagePool : UsagePool
  credentialSource : CredentialSource
  credentialConfigFingerprint : Option String
  pricingCatalogVersion : Option String
  pricingCatalogHash : Option String
  inputRateUsdPerMillion : Option Rat
  outputRateUsdPerMillion : Option Rat
  cachedInputRateUsdPerMillion : Option Rat
  deriving DecidableEq

structure OutputCapLineage where
  requestedOutputTokenCap : Option Nat
  effectiveOutputTokenCap : Option Nat
  outputCapDisposition : Option OutputCapDisposition
  outputCapRecoverySourceEventId : Option String
  outputCapRecoveryReasonCode : Option OutputCapRecoveryReasonCode
  outputCapProviderAvailableTokens : Option Nat
  outputCapProviderMinimumTokens : Option Nat
  outputCapRequestInputEstimate : Option Nat
  outputCapConfiguredContextWindowTokens : Option Nat
  outputCapSafetyMarginTokens : Option Nat
  outputCapEvidenceFormat : Option OutputCapEvidenceFormat
  deriving DecidableEq

structure TransportRetryLineage where
  transportRetryParentEventId : Option String
  transportRetryReason : Option TransportRetryReason
  deriving DecidableEq

/-- The usage and the cost of an attempt, and where they come from. -/
structure RecordedUsage where
  availability : Availability
  pricingSource : CostSource
  costSource : CostSource
  inputTokens : Option Nat
  outputTokens : Option Nat
  cachedInputTokens : Option Nat
  costUsd : Option Rat
  deriving DecidableEq

/-- `ModelUsageEventRecord`, and a row of `model_usage_events`. -/
structure UsageEvent where
  eventId : String
  idempotencyKey : String
  identity : AttemptIdentity
  transportAttemptIndex : Nat
  outputCap : OutputCapLineage
  retry : TransportRetryLineage
  effectiveModelId : Option String
  contextResolutionHash : Option String
  transportStatus : TransportStatus
  dispatchOwnerId : String
  dispatchLeaseExpiresAt : String
  dispatchUncertainAt : Option String
  dispatchUncertaintyReason : Option String
  dispatchReconciledAt : Option String
  dispatchReconciledBy : Option String
  dispatchReconciliation : Option DispatchReconciliation
  dispatchReconciliationEvidence : Option String
  usage : RecordedUsage
  terminalOutcome : TerminalOutcome
  errorCode : Option String
  startedAt : String
  finishedAt : Option String
  durationMs : Option Nat
  compatibilityProjectedAt : Option String

/-- A row of `cost_ledger`.  Rows of other writers carry no canonical usage event id. -/
structure CostLedgerRow where
  sessionId : String
  agentId : Option String
  taskId : Option String
  providerId : Option String
  modelId : Option String
  day : String
  tokenInput : Nat
  tokenOutput : Nat
  tokenCachedInput : Nat
  costUsd : Rat
  createdAt : String
  credentialType : Option CredentialType
  usagePool : Option UsagePool
  canonicalUsageEventId : Option String
  usageKnownMask : Option String

/-- The columns of `sessions` that the projection writes. -/
structure SessionTotals where
  sessionId : String
  tokenInput : Nat
  tokenOutput : Nat
  tokenCachedInput : Nat
  tokenTotal : Nat
  costUsdTotal : Rat
  lastActivityAt : String
  updatedAt : String

structure UsageStore where
  events : List UsageEvent
  costLedger : List CostLedgerRow
  sessions : List SessionTotals

/-- What the repository takes from its environment. -/
structure UsageRuntime where
  dates : DateText
  toLowerCase : String → String
  /-- The order of the text columns. -/
  textLe : String → String → Bool

/-! ## Texts and numbers -/

def requireText (value field : String) : Except String String :=
  requireTrimmed s!"{field} is required" value

def requireBoundedText (value field : String) (maxLength : Nat) : Except String String := do
  let normalized ← requireText value field
  if maxLength < utf16Length normalized then
    throw s!"{field} must be at most {maxLength} characters"
  return normalized

def optionalBoundedText (value : Option String) (field : String) (maxLength : Nat) :
    Except String (Option String) :=
  match value with
  | none => return none
  | some value =>
      if trim value = "" then return none
      else return some (← requireBoundedText (trim value) field maxLength)

def boundedEvidence (value : String) : Except String String := do
  let normalized ← requireText value "evidence"
  if 2048 < utf16Length normalized then throw "evidence must be at most 2048 characters"
  return normalized

def nonNegativeInteger (value : Number) (field : String) : Except String Nat :=
  match value with
  | .finite value =>
      if value.den = 1 ∧ 0 ≤ value.num ∧ value.num ≤ maxSafeInteger then return value.num.toNat
      else throw s!"{field} must be a non-negative integer"
  | .nonFinite => throw s!"{field} must be a non-negative integer"

def optionalNonNegativeInteger (value : Option Number) (field : String) :
    Except String (Option Nat) :=
  match value with
  | none => return none
  | some value => return some (← nonNegativeInteger value field)

def optionalNonNegativeNumber (value : Option Number) (field : String) :
    Except String (Option Rat) :=
  match value with
  | none => return none
  | some (.finite value) =>
      if value < 0 then throw s!"{field} must be a non-negative finite number"
      else return some value
  | some .nonFinite => throw s!"{field} must be a non-negative finite number"

section Normalization

variable (runtime : UsageRuntime)

def optionalSha256 (value : Option String) (field : String) : Except String (Option String) :=
  match value with
  | none => return none
  | some value =>
      let normalized := runtime.toLowerCase (trim value)
      if normalized = "" then return none
      else if isSha256Hex normalized = true then return some normalized
      else throw s!"{field} must be a 64-character SHA-256 hex value"

def requireCanonicalIso (value field : String) : Except String String := do
  let normalized ← requireBoundedText value field 64
  match (runtime.dates.parse normalized).bind runtime.dates.toISOString with
  | some text =>
      if text = normalized then return normalized
      else throw s!"{field} must be a canonical ISO-8601 UTC timestamp"
  | none => throw s!"{field} must be a canonical ISO-8601 UTC timestamp"

/-! ## Beginning an attempt -/

structure BeginInput where
  eventId : String
  idempotencyKey : String
  source : UsageSource
  callKind : CallKind
  requestedProviderId : Option String
  requestedModelId : Option String
  requestedReasoningLevel : Option String
  dispatchedReasoningEffort : Option String
  reasoningDisposition : Option ReasoningDisposition
  reasoningReasonCode : Option String
  effectiveProviderId : Option String
  effectiveModelId : Option String
  effectiveApiStyle : Option String
  routeDecisionId : Option String
  contextSnapshotId : Option String
  contextIntentHash : Option String
  contextEntryRefId : Option String
  operationId : String
  parentOperationId : Option String
  dispatchGeneration : String
  attemptIndex : Number
  transportAttemptIndex : Number
  requestedOutputTokenCap : Option Number
  effectiveOutputTokenCap : Option Number
  outputCapDisposition : Option OutputCapDisposition
  outputCapRecoverySourceEventId : Option String
  outputCapRecoveryReasonCode : Option OutputCapRecoveryReasonCode
  outputCapProviderAvailableTokens : Option Number
  outputCapProviderMinimumTokens : Option Number
  outputCapRequestInputEstimate : Option Number
  outputCapConfiguredContextWindowTokens : Option Number
  outputCapSafetyMarginTokens : Option Number
  outputCapEvidenceFormat : Option OutputCapEvidenceFormat
  transportRetryParentEventId : Option String
  transportRetryReason : Option TransportRetryReason
  dispatchOwnerId : String
  dispatchLeaseExpiresAt : String
  fallbackIndex : Number
  repairIndex : Number
  workspaceId : Option String
  sessionId : Option String
  turnId : Option String
  durableRunId : Option String
  taskId : Option String
  agentId : Option String
  assemblyRunId : Option String
  assemblyRoundIndex : Option Number
  assemblyStage : Option String
  workerId : Option String
  utilityKind : Option String
  credentialType : CredentialType
  usagePool : UsagePool
  credentialSource : CredentialSource
  credentialConfigFingerprint : Option String
  pricingCatalogVersion : Option String
  pricingCatalogHash : Option String
  inputRateUsdPerMillion : Option Number
  outputRateUsdPerMillion : Option Number
  cachedInputRateUsdPerMillion : Option Number
  startedAt : String

/-- What `normalizeBeginInput` makes of an input. -/
structure NormalizedBegin where
  eventId : String
  idempotencyKey : String
  identity : AttemptIdentity
  transportAttemptIndex : Nat
  outputCap : OutputCapLineage
  retry : TransportRetryLineage
  dispatchOwnerId : String
  dispatchLeaseExpiresAt : String
  startedAt : String

/-- Evidence of a retry under a lower cap. -/
def OutputCapLineage.hasRecoveryEvidence (lineage : OutputCapLineage) : Bool :=
  lineage.outputCapRecoverySourceEventId.isSome || lineage.outputCapRecoveryReasonCode.isSome ||
    lineage.outputCapProviderAvailableTokens.isSome ||
    lineage.outputCapProviderMinimumTokens.isSome ||
    lineage.outputCapRequestInputEstimate.isSome ||
    lineage.outputCapConfiguredContextWindowTokens.isSome ||
    lineage.outputCapSafetyMarginTokens.isSome || lineage.outputCapEvidenceFormat.isSome

def OutputCapLineage.none : OutputCapLineage :=
  ⟨.none, .none, .none, .none, .none, .none, .none, .none, .none, .none, .none⟩

def normalizeTransportRetryLineage (input : BeginInput) : Except String TransportRetryLineage := do
  let parentEventId ← optionalBoundedText input.transportRetryParentEventId
    "transportRetryParentEventId" 512
  if parentEventId.isNone ≠ input.transportRetryReason.isNone then
    throw "transport retry parent and reason must be supplied together"
  return { transportRetryParentEventId := parentEventId
           transportRetryReason := input.transportRetryReason }

/-- The evidence that a retry under a lower cap needs. -/
def OutputCapLineage.completeReduction (lineage : OutputCapLineage)
    (retry : TransportRetryLineage) : Bool :=
  lineage.effectiveOutputTokenCap ≠ lineage.requestedOutputTokenCap &&
    lineage.outputCapRecoverySourceEventId.isSome &&
    retry.transportRetryReason = some .outputCapRecovery &&
    retry.transportRetryParentEventId = lineage.outputCapRecoverySourceEventId &&
    lineage.outputCapRecoveryReasonCode = some .safeLowerCap &&
    1 ≤ lineage.outputCapProviderAvailableTokens.getD 0 &&
    lineage.outputCapProviderMinimumTokens.all (fun minimum => 1 ≤ minimum) &&
    1 ≤ lineage.outputCapRequestInputEstimate.getD 0 &&
    1 ≤ lineage.outputCapConfiguredContextWindowTokens.getD 0 &&
    lineage.outputCapSafetyMarginTokens.isSome && lineage.outputCapEvidenceFormat.isSome

def checkOutputCapLineage (lineage : OutputCapLineage) (retry : TransportRetryLineage) :
    Except String OutputCapLineage := do
  let requested := lineage.requestedOutputTokenCap
  let effective := lineage.effectiveOutputTokenCap
  let hasAnyCore := requested.isSome || effective.isSome || lineage.outputCapDisposition.isSome
  let hasAllCore := requested.isSome && effective.isSome && lineage.outputCapDisposition.isSome
  if hasAnyCore ≠ hasAllCore then
    throw "requested/effective output caps and disposition must be supplied together"
  if hasAnyCore = false then
    if lineage.hasRecoveryEvidence = true then
      throw "output-cap recovery evidence requires requested/effective cap lineage"
    if retry.transportRetryReason = some .outputCapRecovery then
      throw "output-cap transport retries require requested/effective cap lineage"
    return .none
  if requested.getD 0 < 1 ∨ effective.getD 0 < 1 ∨ requested.getD 0 < effective.getD 0 then
    throw "output caps must be positive and the effective cap cannot exceed the requested cap"
  match lineage.outputCapDisposition with
  | some .initial =>
      if effective ≠ requested then
        throw "initial output-cap lineage must preserve the requested cap"
      if retry.transportRetryReason.isSome = true then
        throw "transport retries cannot be recorded as initial output-cap attempts"
      if lineage.hasRecoveryEvidence = true then
        throw "initial output-cap lineage cannot carry retry evidence"
      return lineage
  | some .preservedRetry =>
      if retry.transportRetryReason ≠ some .metadataCompatibility ∨
          retry.transportRetryParentEventId = none ∨ lineage.hasRecoveryEvidence = true then
        throw "preserved output-cap retries require metadata-compatibility lineage without cap evidence"
      return lineage
  | some .reducedRetry =>
      if lineage.completeReduction retry = false then
        throw "reduced output-cap retries require complete prior-attempt and budget evidence"
      return lineage
  | none => return lineage

def normalizeOutputCapLineage (input : BeginInput) (retry : TransportRetryLineage) :
    Except String OutputCapLineage := do
  let requested ← optionalNonNegativeInteger input.requestedOutputTokenCap
    "requestedOutputTokenCap"
  let effective ← optionalNonNegativeInteger input.effectiveOutputTokenCap
    "effectiveOutputTokenCap"
  let sourceEventId ← optionalBoundedText input.outputCapRecoverySourceEventId
    "outputCapRecoverySourceEventId" 512
  let providerAvailable ← optionalNonNegativeInteger input.outputCapProviderAvailableTokens
    "outputCapProviderAvailableTokens"
  let providerMinimum ← optionalNonNegativeInteger input.outputCapProviderMinimumTokens
    "outputCapProviderMinimumTokens"
  let requestEstimate ← optionalNonNegativeInteger input.outputCapRequestInputEstimate
    "outputCapRequestInputEstimate"
  let configuredContextWindow ←
    optionalNonNegativeInteger input.outputCapConfiguredContextWindowTokens
      "outputCapConfiguredContextWindowTokens"
  let safetyMargin ← optionalNonNegativeInteger input.outputCapSafetyMarginTokens
    "outputCapSafetyMarginTokens"
  checkOutputCapLineage
    { requestedOutputTokenCap := requested
      effectiveOutputTokenCap := effective
      outputCapDisposition := input.outputCapDisposition
      outputCapRecoverySourceEventId := sourceEventId
      outputCapRecoveryReasonCode := input.outputCapRecoveryReasonCode
      outputCapProviderAvailableTokens := providerAvailable
      outputCapProviderMinimumTokens := providerMinimum
      outputCapRequestInputEstimate := requestEstimate
      outputCapConfiguredContextWindowTokens := configuredContextWindow
      outputCapSafetyMarginTokens := safetyMargin
      outputCapEvidenceFormat := input.outputCapEvidenceFormat } retry

/-- The checks of `normalizeBeginInput`, in its order. -/
def normalizeBeginInput (input : BeginInput) : Except String NormalizedBegin := do
  let pricingCatalogVersion ← optionalBoundedText input.pricingCatalogVersion
    "pricingCatalogVersion" 128
  let pricingCatalogHash ← optionalSha256 runtime input.pricingCatalogHash "pricingCatalogHash"
  let inputRate ← optionalNonNegativeNumber input.inputRateUsdPerMillion "inputRateUsdPerMillion"
  let outputRate ← optionalNonNegativeNumber input.outputRateUsdPerMillion
    "outputRateUsdPerMillion"
  let cachedInputRate ← optionalNonNegativeNumber input.cachedInputRateUsdPerMillion
    "cachedInputRateUsdPerMillion"
  if pricingCatalogVersion.isNone ≠ pricingCatalogHash.isNone then
    throw "pricing catalog version and hash must be supplied together"
  let hasAnyRate := inputRate.isSome || outputRate.isSome || cachedInputRate.isSome
  let hasAllRates := inputRate.isSome && outputRate.isSome && cachedInputRate.isSome
  if hasAnyRate = true ∧
      (hasAllRates = false ∨ pricingCatalogVersion = none ∨ pricingCatalogHash = none) then
    throw "pricing rates require a frozen pricing catalog version, SHA-256 hash, and all exact rates"
  let retry ← normalizeTransportRetryLineage input
  let outputCap ← normalizeOutputCapLineage input retry
  let eventId ← requireBoundedText input.eventId "eventId" 512
  let idempotencyKey ← requireBoundedText input.idempotencyKey "idempotencyKey" 1024
  let operationId ← requireBoundedText input.operationId "operationId" 512
  let dispatchGeneration ← requireBoundedText input.dispatchGeneration "dispatchGeneration" 512
  let requestedProviderId ← optionalBoundedText input.requestedProviderId
    "requestedProviderId" 512
  let requestedModelId ← optionalBoundedText input.requestedModelId "requestedModelId" 512
  let requestedReasoningLevel ← optionalBoundedText input.requestedReasoningLevel
    "requestedReasoningLevel" 128
  let dispatchedReasoningEffort ← optionalBoundedText input.dispatchedReasoningEffort
    "dispatchedReasoningEffort" 128
  let reasoningReasonCode ← optionalBoundedText input.reasoningReasonCode
    "reasoningReasonCode" 128
  let effectiveProviderId ← optionalBoundedText input.effectiveProviderId
    "effectiveProviderId" 512
  let effectiveModelId ← optionalBoundedText input.effectiveModelId "effectiveModelId" 512
  let effectiveApiStyle ← optionalBoundedText input.effectiveApiStyle "effectiveApiStyle" 128
  let routeDecisionId ← optionalBoundedText input.routeDecisionId "routeDecisionId" 512
  let contextSnapshotId ← optionalBoundedText input.contextSnapshotId "contextSnapshotId" 512
  let contextIntentHash ← optionalBoundedText input.contextIntentHash "contextIntentHash" 256
  let contextEntryRefId ← optionalBoundedText input.contextEntryRefId "contextEntryRefId" 512
  let parentOperationId ← optionalBoundedText input.parentOperationId "parentOperationId" 512
  let dispatchOwnerId ← requireBoundedText input.dispatchOwnerId "dispatchOwnerId" 512
  let dispatchLeaseExpiresAt ← requireCanonicalIso runtime input.dispatchLeaseExpiresAt
    "dispatchLeaseExpiresAt"
  let workspaceId ← optionalBoundedText input.workspaceId "workspaceId" 512
  let sessionId ← optionalBoundedText input.sessionId "sessionId" 512
  let turnId ← optionalBoundedText input.turnId "turnId" 512
  let durableRunId ← optionalBoundedText input.durableRunId "durableRunId" 512
  let taskId ← optionalBoundedText input.taskId "taskId" 512
  let agentId ← optionalBoundedText input.agentId "agentId" 512
  let assemblyRunId ← optionalBoundedText input.assemblyRunId "assemblyRunId" 512
  let assemblyRoundIndex ← optionalNonNegativeInteger input.assemblyRoundIndex
    "assemblyRoundIndex"
  let assemblyStage ← optionalBoundedText input.assemblyStage "assemblyStage" 128
  let workerId ← optionalBoundedText input.workerId "workerId" 512
  let utilityKind ← optionalBoundedText input.utilityKind "utilityKind" 128
  let credentialConfigFingerprint ← optionalSha256 runtime input.credentialConfigFingerprint
    "credentialConfigFingerprint"
  let attemptIndex ← nonNegativeInteger input.attemptIndex "attemptIndex"
  let transportAttemptIndex ← nonNegativeInteger input.transportAttemptIndex
    "transportAttemptIndex"
  let fallbackIndex ← nonNegativeInteger input.fallbackIndex "fallbackIndex"
  let repairIndex ← nonNegativeInteger input.repairIndex "repairIndex"
  let startedAt ← requireCanonicalIso runtime input.startedAt "startedAt"
  let identity : AttemptIdentity :=
    { source := input.source
      callKind := input.callKind
      requestedProviderId
      requestedModelId
      requestedReasoningLevel
      dispatchedReasoningEffort
      reasoningDisposition := input.reasoningDisposition
      reasoningReasonCode
      effectiveProviderId
      dispatchedModelId := effectiveModelId
      effectiveApiStyle
      routeDecisionId
      contextSnapshotId
      contextIntentHash
      contextEntryRefId
      operationId
      parentOperationId
      dispatchGeneration
      attemptIndex
      fallbackIndex
      repairIndex
      workspaceId
      sessionId
      turnId
      durableRunId
      taskId
      agentId
      assemblyRunId
      assemblyRoundIndex
      assemblyStage
      workerId
      utilityKind
      credentialType := input.credentialType
      usagePool := input.usagePool
      credentialSource := input.credentialSource
      credentialConfigFingerprint
      pricingCatalogVersion
      pricingCatalogHash
      inputRateUsdPerMillion := inputRate
      outputRateUsdPerMillion := outputRate
      cachedInputRateUsdPerMillion := cachedInputRate }
  return { eventId, idempotencyKey, identity, transportAttemptIndex, outputCap, retry,
           dispatchOwnerId, dispatchLeaseExpiresAt, startedAt }

end Normalization

/-- The row of a new attempt. -/
def NormalizedBegin.toRow (input : NormalizedBegin) : UsageEvent where
  eventId := input.eventId
  idempotencyKey := input.idempotencyKey
  identity := input.identity
  transportAttemptIndex := input.transportAttemptIndex
  outputCap := input.outputCap
  retry := input.retry
  effectiveModelId := input.identity.dispatchedModelId
  contextResolutionHash := none
  transportStatus := .intent
  dispatchOwnerId := input.dispatchOwnerId
  dispatchLeaseExpiresAt := input.dispatchLeaseExpiresAt
  dispatchUncertainAt := none
  dispatchUncertaintyReason := none
  dispatchReconciledAt := none
  dispatchReconciledBy := none
  dispatchReconciliation := none
  dispatchReconciliationEvidence := none
  usage :=
    { availability := .unknown
      pricingSource := .notAvailable
      costSource := .notAvailable
      inputTokens := none
      outputTokens := none
      cachedInputTokens := none
      costUsd := none }
  terminalOutcome := .inFlight
  errorCode := none
  startedAt := input.startedAt
  finishedAt := none
  durationMs := none
  compatibilityProjectedAt := none

/-! ## Reading -/

/-- `assertMappedModelUsageEventInvariants` -/
def assertMappedInvariants (record : UsageEvent) : Except String Unit := do
  let cap := record.outputCap
  let retry := record.retry
  if retry.transportRetryParentEventId.isNone ≠ retry.transportRetryReason.isNone then
    throw "Persisted model usage transport retry lineage is incomplete"
  match cap.requestedOutputTokenCap with
  | none =>
      if cap.effectiveOutputTokenCap.isSome = true ∨ cap.outputCapDisposition.isSome = true ∨
          cap.hasRecoveryEvidence = true ∨
          retry.transportRetryReason = some .outputCapRecovery then
        throw "Persisted model usage output-cap lineage is invalid"
  | some requested =>
      let effective := cap.effectiveOutputTokenCap.getD 0
      if effective < 1 ∨ requested < effective then
        throw "Persisted model usage output-cap values are invalid"
      match cap.outputCapDisposition with
      | some .initial =>
          if effective ≠ requested ∨ cap.hasRecoveryEvidence = true ∨
              retry.transportRetryReason.isSome = true then
            throw "Persisted initial output-cap lineage is invalid"
      | some .preservedRetry =>
          if cap.hasRecoveryEvidence = true ∨ retry.transportRetryParentEventId = none ∨
              retry.transportRetryReason ≠ some .metadataCompatibility then
            throw "Persisted preserved output-cap lineage is invalid"
      | _ =>
          let available : Int := cap.outputCapProviderAvailableTokens.getD 0
          let configured : Int := cap.outputCapConfiguredContextWindowTokens.getD 0
          let estimate : Int := cap.outputCapRequestInputEstimate.getD 0
          let margin : Int := cap.outputCapSafetyMarginTokens.getD 0
          if cap.outputCapDisposition ≠ some .reducedRetry ∨ requested ≤ effective ∨
              cap.outputCapRecoveryReasonCode ≠ some .safeLowerCap ∨
              cap.outputCapRecoverySourceEventId = none ∨
              retry.transportRetryParentEventId ≠ cap.outputCapRecoverySourceEventId ∨
              retry.transportRetryReason ≠ some .outputCapRecovery ∨
              cap.outputCapProviderAvailableTokens = none ∨
              cap.outputCapRequestInputEstimate = none ∨
              cap.outputCapConfiguredContextWindowTokens = none ∨
              cap.outputCapSafetyMarginTokens = none ∨ cap.outputCapEvidenceFormat = none ∨
              available - margin < effective ∨ configured - estimate - margin < effective ∨
              cap.outputCapProviderMinimumTokens.any (fun minimum => effective < minimum) = true
          then throw "Persisted reduced output-cap lineage is invalid"

def mapRow (row : UsageEvent) : Except String UsageEvent := do
  assertMappedInvariants row
  return row

/-- `findByEventId` and `findByEventIdForUpdate` -/
def UsageStore.findByEventId (eventId : String) (store : UsageStore) :
    Except String (Option UsageEvent) :=
  match store.events.find? fun row => row.eventId = eventId with
  | some row => some <$> mapRow row
  | none => return none

def UsageStore.findByIdempotencyKey (idempotencyKey : String) (store : UsageStore) :
    Except String (Option UsageEvent) :=
  match store.events.find? fun row => row.idempotencyKey = idempotencyKey with
  | some row => some <$> mapRow row
  | none => return none

/-- The event, which has to be there. -/
def UsageStore.readEvent (eventId : String) (store : UsageStore) : Except String UsageEvent := do
  match ← store.findByEventId eventId with
  | some record => return record
  | none => throw s!"Unknown model usage event: {eventId}"

/-! ## The calls -/

/-- `isSameTransportRetryIdentity`: the texts of two values are equal when the values are. -/
def isSameTransportRetryIdentity (source : UsageEvent) (input : NormalizedBegin) : Bool :=
  source.identity = input.identity && source.dispatchOwnerId = input.dispatchOwnerId

/-- The attempt failed, with or without usage. -/
def UsageEvent.failed (record : UsageEvent) : Bool :=
  record.transportStatus = .accepted &&
    (record.terminalOutcome = .final .failedBeforeUsage ||
      record.terminalOutcome = .final .failedAfterUsage)

def assertTransportRetryLineage (source : Option UsageEvent) (input : NormalizedBegin) :
    Except String Unit :=
  match source with
  | none => throw "Transport retry parent attempt does not exist"
  | some source =>
      let sameIdentity := isSameTransportRetryIdentity source input &&
        source.transportAttemptIndex + 1 = input.transportAttemptIndex
      let reason := input.retry.transportRetryReason
      let reasonMatches :=
        (reason = some .outputCapRecovery && source.errorCode = some "provideroutputcaperror") ||
          (reason = some .metadataCompatibility &&
            source.errorCode = some "providermetadatacompatibilityerror")
      let sameRequested :=
        source.outputCap.requestedOutputTokenCap = input.outputCap.requestedOutputTokenCap
      let outputCapMatches :=
        if reason = some .metadataCompatibility then
          sameRequested &&
            source.outputCap.effectiveOutputTokenCap = input.outputCap.effectiveOutputTokenCap &&
            (source.outputCap.requestedOutputTokenCap = none ||
              input.outputCap.outputCapDisposition = some .preservedRetry)
        else input.outputCap.outputCapDisposition = some .reducedRetry && sameRequested
      if (sameIdentity && source.failed && reasonMatches && outputCapMatches) = true then return ()
      else throw "Transport retry is not linked to the immediately prior compatible failed provider attempt"

def assertOutputCapRecoveryLineage (source : Option UsageEvent) (input : NormalizedBegin) :
    Except String Unit :=
  match source with
  | none => throw "Reduced output-cap retry source attempt does not exist"
  | some source =>
      let cap := input.outputCap
      let effective : Int := cap.effectiveOutputTokenCap.getD 0
      let available : Int := cap.outputCapProviderAvailableTokens.getD 0
      let configured : Int := cap.outputCapConfiguredContextWindowTokens.getD 0
      let estimate : Int := cap.outputCapRequestInputEstimate.getD 0
      let margin : Int := cap.outputCapSafetyMarginTokens.getD 0
      let sourceFailedForOutputCap :=
        source.failed && source.errorCode = some "provideroutputcaperror"
      let capLineageValid :=
        source.outputCap.requestedOutputTokenCap = some (cap.requestedOutputTokenCap.getD 0) &&
          source.outputCap.effectiveOutputTokenCap.any (fun cap => effective < cap) &&
          source.transportAttemptIndex + 1 = input.transportAttemptIndex &&
          effective ≤ available - margin && effective ≤ configured - estimate - margin &&
          cap.outputCapProviderMinimumTokens.all (fun minimum => (minimum : Int) ≤ effective)
      if (isSameTransportRetryIdentity source input && sourceFailedForOutputCap &&
          capLineageValid) = true then return ()
      else throw "Reduced output-cap retry is not linked to the immediately prior failed provider attempt"

def assertSameAttemptIdentity (record : UsageEvent) (input : NormalizedBegin) :
    Except String Unit :=
  if record.identity = input.identity ∧
      record.transportAttemptIndex = input.transportAttemptIndex ∧
      record.outputCap = input.outputCap ∧ record.retry = input.retry then return ()
  else throw "Model usage idempotency key was reused for a different provider attempt"

/-- `insertStmt`, and whether it inserted a row. -/
def insertAttempt (row : UsageEvent) (store : UsageStore) : Except String (Bool × UsageStore) :=
  if store.events.any (fun other => other.idempotencyKey = row.idempotencyKey) = true then
    return (false, store)
  else if store.events.any (fun other => other.eventId = row.eventId) = true then
    throw "UNIQUE constraint failed: model_usage_events.event_id"
  else if row.retry.transportRetryParentEventId.isSome = true ∧
      store.events.any (fun other => other.retry.transportRetryParentEventId =
        row.retry.transportRetryParentEventId) = true then
    throw "UNIQUE constraint failed: model_usage_events.transport_retry_parent_event_id"
  else return (true, { store with events := store.events ++ [row] })

/-- The attempt that a retry continues, whose lineage is checked. -/
def findRetrySource (normalized : NormalizedBegin) (store : UsageStore) :
    Except String (Option UsageEvent) :=
  match normalized.retry.transportRetryParentEventId with
  | some parentEventId => do
      let source ← store.findByEventId parentEventId
      assertTransportRetryLineage source normalized
      return source
  | none => return none

/-- The insert, and what is stored under the key after it. -/
def storeAttempt (normalized : NormalizedBegin) (store : UsageStore) :
    Except String ((UsageEvent × Bool) × UsageStore) := do
  let (inserted, store) ← insertAttempt normalized.toRow store
  match ← store.findByIdempotencyKey normalized.idempotencyKey with
  | none => throw "Model usage attempt was not persisted"
  | some record =>
      assertSameAttemptIdentity record normalized
      return ((record, inserted), store)

section Calls

variable (runtime : UsageRuntime)

/-- `begin`: the answer, whether a row was inserted, and the tables. -/
def beginAttempt (input : BeginInput) (store : UsageStore) :
    Except String ((UsageEvent × Bool) × UsageStore) := do
  let normalized ← normalizeBeginInput runtime input
  let retrySource ← findRetrySource normalized store
  if normalized.outputCap.outputCapDisposition = some .reducedRetry then
    assertOutputCapRecoveryLineage retrySource normalized
  storeAttempt normalized store

/-- An `UPDATE` of the events, and whether it changed one. -/
def updateEvents (guard : UsageEvent → Bool) (set : UsageEvent → UsageEvent)
    (store : UsageStore) : Bool × UsageStore :=
  (store.events.any guard, { store with events := updateRows guard set store.events })

/-- The attempt is in a transport state and has no outcome yet. -/
def UsageEvent.openIn (status : TransportStatus) (row : UsageEvent) : Bool :=
  row.transportStatus = status && row.terminalOutcome = .inFlight

/-- The condition that the statements of an owner share. -/
def UsageEvent.ownedIn (status : TransportStatus) (eventId dispatchOwnerId : String)
    (row : UsageEvent) : Bool :=
  row.eventId = eventId && row.dispatchOwnerId = dispatchOwnerId && row.openIn status

/-- A statement runs once its inputs are normalized, and what is read after it decides the
answer only. -/
def runStatement {ι α : Type} (normalized : Except String ι)
    (statement : ι → UsageStore → Bool × UsageStore)
    (answer : ι → Bool → UsageStore → Except String α) (store : UsageStore) :
    Except String α × UsageStore :=
  match normalized with
  | .error message => (.error message, store)
  | .ok input =>
      let (changed, store) := statement input store
      (answer input changed store, store)

def acceptTransport (eventId dispatchOwnerId dispatchLeaseExpiresAt : String)
    (store : UsageStore) : Except String UsageEvent × UsageStore :=
  runStatement
    (do let id ← requireBoundedText eventId "eventId" 512
        let owner ← requireBoundedText dispatchOwnerId "dispatchOwnerId" 512
        let lease ← requireCanonicalIso runtime dispatchLeaseExpiresAt "dispatchLeaseExpiresAt"
        return (id, owner, lease))
    (fun (id, owner, lease) => updateEvents (UsageEvent.ownedIn .intent id owner)
      fun row => { row with transportStatus := .accepted, dispatchLeaseExpiresAt := lease })
    (fun _ changed store => do
      let record ← store.readEvent eventId
      if record.dispatchOwnerId ≠ dispatchOwnerId then
        throw "Model usage transport intent cannot be accepted by a different dispatch owner"
      if changed = false ∧ record.transportStatus ≠ .accepted then
        throw ("Model usage transport intent cannot be accepted from " ++
          record.transportStatus.text)
      return record)
    store

def renewTransportLease (eventId dispatchOwnerId dispatchLeaseExpiresAt : String)
    (store : UsageStore) : Except String UsageEvent × UsageStore :=
  runStatement
    (do let id ← requireBoundedText eventId "eventId" 512
        let owner ← requireBoundedText dispatchOwnerId "dispatchOwnerId" 512
        let lease ← requireCanonicalIso runtime dispatchLeaseExpiresAt "dispatchLeaseExpiresAt"
        return (id, owner, lease))
    (fun (id, owner, lease) => updateEvents (UsageEvent.ownedIn .accepted id owner)
      fun row => { row with dispatchLeaseExpiresAt := lease })
    (fun _ changed store => do
      let record ← store.readEvent eventId
      if changed = false then
        throw "Model usage transport lease cannot be renewed by this owner"
      return record)
    store

def abandonTransportIntent (eventId dispatchOwnerId : String) (store : UsageStore) :
    Except String Bool × UsageStore :=
  runStatement
    (do let id ← requireBoundedText eventId "eventId" 512
        let owner ← requireBoundedText dispatchOwnerId "dispatchOwnerId" 512
        return (id, owner))
    (fun (id, owner) store =>
      let kept := store.events.filter fun row => !row.ownedIn .intent id owner
      (kept.length < store.events.length, { store with events := kept }))
    (fun _ changed _ => return changed)
    store

/-- The sources whose owner can prove that nothing was sent. -/
def UsageEvent.hasGuardedSource (record : UsageEvent) : Bool :=
  record.identity.source.isGuarded

/-- What the proof that nothing was sent reads. -/
def UsageEvent.dispatchRecord (record : UsageEvent) : DispatchRecord where
  eventId := record.eventId
  dispatchOwnerId := record.dispatchOwnerId
  operationId := record.identity.operationId
  dispatchGeneration := record.identity.dispatchGeneration
  source := record.identity.source
  transportStatus := record.transportStatus
  dispatchUncertaintyReason := record.dispatchUncertaintyReason
  dispatchReconciledAt := record.dispatchReconciledAt
  dispatchReconciledBy := record.dispatchReconciledBy
  dispatchReconciliation := record.dispatchReconciliation
  dispatchReconciliationEvidence := record.dispatchReconciliationEvidence
  terminalOutcome := record.terminalOutcome
  finishedAt := record.finishedAt

def UsageEvent.notStarted (dispatchOwnerId finishedAt evidence : String) (row : UsageEvent) :
    UsageEvent :=
  { row with
    transportStatus := .dispatchUnknown
    dispatchUncertainAt := some finishedAt
    dispatchUncertaintyReason := some modelUsageNoDispatchReason
    dispatchReconciledAt := some finishedAt
    dispatchReconciledBy := some dispatchOwnerId
    dispatchReconciliation := some .confirmedNotDispatched
    dispatchReconciliationEvidence := some evidence
    terminalOutcome := .final .failedBeforeUsage
    finishedAt := some finishedAt }

def confirmTransportNotStarted (eventId dispatchOwnerId now : String) (store : UsageStore) :
    Except String (UsageEvent × UsageStore) := do
  let id ← requireBoundedText eventId "eventId" 512
  let owner ← requireBoundedText dispatchOwnerId "dispatchOwnerId" 512
  let finishedAt ← requireCanonicalIso runtime now "now"
  match ← store.findByEventId id with
  | none => throw "Model usage no-dispatch evidence has no matching owner."
  | some current =>
      if current.dispatchOwnerId ≠ owner ∨ current.hasGuardedSource = false then
        throw "Model usage no-dispatch evidence has no matching owner."
      if isModelUsageProvenNotDispatched current.dispatchRecord = true then return (current, store)
      let (changed, store) := updateEvents
        (fun row => row.ownedIn .intent id owner && row.hasGuardedSource)
        (UsageEvent.notStarted owner finishedAt
          (modelUsageNoDispatchEvidence current.dispatchRecord.toDispatchIdentity)) store
      if changed = false then
        throw "Model usage no-dispatch evidence lost transport ownership."
      return (← store.readEvent id, store)

/-- All rates are zero and come from a catalog, so the cost is known to be zero. -/
def AttemptIdentity.isFree (identity : AttemptIdentity) : Bool :=
  identity.inputRateUsdPerMillion = some 0 && identity.outputRateUsdPerMillion = some 0 &&
    identity.cachedInputRateUsdPerMillion = some 0 && identity.pricingCatalogVersion.isSome &&
    identity.pricingCatalogHash.isSome

/-- The columns that `markDispatchUnknownStmt` and the recovery of intents write. -/
def UsageEvent.uncertain (uncertainAt reason : String) (row : UsageEvent) : UsageEvent :=
  let free := row.identity.isFree
  { row with
    transportStatus := .dispatchUnknown
    dispatchUncertainAt := some uncertainAt
    dispatchUncertaintyReason := some reason
    usage :=
      { row.usage with
        pricingSource := if free = true then .gatewayEstimate else row.usage.pricingSource
        costSource := if free = true then .gatewayEstimate else row.usage.costSource
        costUsd := if free = true then some 0 else row.usage.costUsd
        availability := if free = true then .tracked else row.usage.availability } }

def markDispatchUnknown (eventId dispatchOwnerId uncertainAt reason : String)
    (store : UsageStore) : Except String UsageEvent × UsageStore :=
  runStatement
    (do let id ← requireBoundedText eventId "eventId" 512
        let owner ← requireBoundedText dispatchOwnerId "dispatchOwnerId" 512
        let uncertainAt ← requireCanonicalIso runtime uncertainAt "uncertainAt"
        let reason ← requireBoundedText reason "reason" 128
        return (id, owner, uncertainAt, reason))
    (fun (id, owner, uncertainAt, reason) => updateEvents (UsageEvent.ownedIn .intent id owner)
      (UsageEvent.uncertain uncertainAt reason))
    (fun _ changed store => do
      let record ← store.readEvent eventId
      if changed = false ∧ record.transportStatus ≠ .dispatchUnknown then
        throw "Model usage dispatch cannot be marked unknown by this owner"
      return record)
    store

/-- The lease of an open attempt has expired. -/
def UsageEvent.expiredIn (status : TransportStatus) (recoveredAt : String) (row : UsageEvent) :
    Bool :=
  row.openIn status && runtime.textLe row.dispatchLeaseExpiresAt recoveredAt

/-- The ids that a recovery selects.  PostgreSQL skips the rows that are locked. -/
def expiredIds (status : TransportStatus) (recoveredAt : String) (limit : Nat)
    (locked : String → Bool) (store : UsageStore) : List String :=
  (((store.events.filter fun row =>
      row.expiredIn runtime status recoveredAt && !locked row.eventId).insertionSort
    fun a b => (if a.startedAt = b.startedAt then runtime.textLe a.eventId b.eventId
      else runtime.textLe a.startedAt b.startedAt) = true).take limit).map UsageEvent.eventId

/-- `limit` after `Math.floor`. -/
def boundedLimit (limit : Int) : Nat :=
  (max 1 (min 10000 limit)).toNat

/-- A recovery writes the rows that it selected and that are still expired. -/
def recoverExpired (status : TransportStatus) (set : String → UsageEvent → UsageEvent)
    (recoveredAt : String) (limit : Int) (locked : String → Bool) (store : UsageStore) :
    Except String Nat × UsageStore :=
  runStatement (requireCanonicalIso runtime recoveredAt "recoveredAt")
    (fun recoveredAt store =>
      let ids := expiredIds runtime status recoveredAt (boundedLimit limit) locked store
      updateEvents
        (fun row => ids.contains row.eventId && row.expiredIn runtime status recoveredAt)
        (set recoveredAt) store)
    (fun recoveredAt _ _ => return (expiredIds runtime status recoveredAt (boundedLimit limit)
      locked store).length)
    store

def recoverExpiredIntents (recoveredAt : String) (limit : Int) (locked : String → Bool)
    (store : UsageStore) : Except String Nat × UsageStore :=
  recoverExpired runtime .intent (fun recoveredAt => UsageEvent.uncertain recoveredAt
    "process_restart_before_transport_acceptance") recoveredAt limit locked store

def UsageEvent.interrupted (recoveredAt : String) (row : UsageEvent) : UsageEvent :=
  let free := row.identity.isFree
  { row with
    terminalOutcome := .final .interruptedAfterDispatch
    usage :=
      { row.usage with
        availability := if free = true then .tracked else .unknown
        pricingSource := if free = true then .gatewayEstimate else .notAvailable
        costSource := if free = true then .gatewayEstimate else .notAvailable
        costUsd := if free = true then some 0 else none }
    errorCode := some "process_restart_after_transport_acceptance"
    finishedAt := some recoveredAt
    durationMs := some 0 }

def recoverExpiredAcceptedDispatches (recoveredAt : String) (limit : Int)
    (locked : String → Bool) (store : UsageStore) : Except String Nat × UsageStore :=
  recoverExpired runtime .accepted UsageEvent.interrupted recoveredAt limit locked store

structure ReconcileInput where
  reconciliation : DispatchReconciliation
  reconciledAt : String
  evidence : String
  reconciledBy : Option String

def reconcileDispatchUnknown (eventId : String) (input : ReconcileInput) (store : UsageStore) :
    Except String UsageEvent × UsageStore :=
  runStatement
    (do let id ← requireBoundedText eventId "eventId" 512
        let reconciledAt ← requireCanonicalIso runtime input.reconciledAt "reconciledAt"
        let evidence ← boundedEvidence input.evidence
        let reconciledBy ← optionalBoundedText input.reconciledBy "reconciledBy" 512
        return (id, reconciledAt, evidence, reconciledBy))
    (fun (id, reconciledAt, evidence, reconciledBy) => updateEvents
      (fun row => row.eventId = id && row.transportStatus = .dispatchUnknown &&
        row.dispatchReconciledAt.isNone)
      fun row =>
        { row with
          dispatchReconciledAt := some reconciledAt
          dispatchReconciledBy := reconciledBy
          dispatchReconciliation := some input.reconciliation
          dispatchReconciliationEvidence := some evidence })
    (fun (_, _, evidence, reconciledBy) changed store => do
      let record ← store.readEvent eventId
      if changed = false ∧ ¬(record.transportStatus = .dispatchUnknown ∧
          record.dispatchReconciliation = some input.reconciliation ∧
          record.dispatchReconciledBy = reconciledBy ∧
          record.dispatchReconciliationEvidence = some evidence) then
        throw "Dispatch uncertainty already has conflicting reconciliation evidence"
      return record)
    store

/-! ## Finalizing -/

structure FinalizeInput where
  dispatchOwnerId : String
  terminalOutcome : FinalOutcome
  availability : Availability
  pricingSource : CostSource
  costSource : CostSource
  inputTokens : Option Number
  outputTokens : Option Number
  cachedInputTokens : Option Number
  costUsd : Option Number
  reportedEffectiveModelId : Option String
  contextResolutionHash : Option String
  errorCode : Option String
  finishedAt : String
  durationMs : Number

/-- What `normalizeFinalizeInput` makes of an input. -/
structure NormalizedFinalize where
  dispatchOwnerId : String
  terminalOutcome : FinalOutcome
  usage : RecordedUsage
  reportedEffectiveModelId : Option String
  contextResolutionHash : Option String
  errorCode : Option String
  finishedAt : String
  durationMs : Nat

/-- Some usage or the cost is known. -/
def RecordedUsage.hasUsage (usage : RecordedUsage) : Bool :=
  usage.inputTokens.isSome || usage.outputTokens.isSome || usage.cachedInputTokens.isSome ||
    usage.costUsd.isSome

def normalizeFinalizeInput (input : FinalizeInput) : Except String NormalizedFinalize := do
  let inputTokens ← optionalNonNegativeInteger input.inputTokens "inputTokens"
  let outputTokens ← optionalNonNegativeInteger input.outputTokens "outputTokens"
  let cachedInputTokens ← optionalNonNegativeInteger input.cachedInputTokens "cachedInputTokens"
  let costUsd ← optionalNonNegativeNumber input.costUsd "costUsd"
  let usage : RecordedUsage :=
    { availability := input.availability
      pricingSource := input.pricingSource
      costSource := input.costSource
      inputTokens
      outputTokens
      cachedInputTokens
      costUsd }
  if decide (input.availability = .tracked) ≠ usage.hasUsage then
    throw "availability must be tracked exactly when at least one usage field is known"
  if input.terminalOutcome = .failedBeforeUsage ∧ usage.hasUsage = true then
    throw "failed_before_usage cannot carry usage values"
  if input.terminalOutcome = .failedAfterUsage ∧ usage.hasUsage = false then
    throw "failed_after_usage requires at least one usage value"
  let dispatchOwnerId ← requireBoundedText input.dispatchOwnerId "dispatchOwnerId" 512
  let reportedEffectiveModelId ← optionalBoundedText input.reportedEffectiveModelId
    "reportedEffectiveModelId" 512
  let contextResolutionHash ← optionalBoundedText input.contextResolutionHash
    "contextResolutionHash" 256
  let errorCode ← optionalBoundedText input.errorCode "errorCode" 128
  let finishedAt ← requireCanonicalIso runtime input.finishedAt "finishedAt"
  let durationMs ← nonNegativeInteger input.durationMs "durationMs"
  return { dispatchOwnerId, terminalOutcome := input.terminalOutcome, usage,
           reportedEffectiveModelId, contextResolutionHash, errorCode, finishedAt, durationMs }

def assertCostProvenance (attempt : UsageEvent) (input : NormalizedFinalize) :
    Except String Unit := do
  let usage := input.usage
  if usage.costUsd = none then
    if usage.costSource ≠ .notAvailable ∨ usage.pricingSource ≠ .notAvailable then
      throw "absent cost must use not_available cost and pricing provenance"
  else
    if usage.costSource = .notAvailable ∨ usage.pricingSource = .notAvailable then
      throw "known cost requires explicit cost and pricing provenance"
    if usage.costSource ≠ usage.pricingSource then
      throw "costSource and pricingSource must describe the same canonical cost evidence"
    if usage.costSource = .gatewayEstimate ∧
        (attempt.identity.pricingCatalogVersion = none ∨
          attempt.identity.pricingCatalogHash = none ∨
          attempt.identity.inputRateUsdPerMillion = none ∨
          attempt.identity.outputRateUsdPerMillion = none ∨
          attempt.identity.cachedInputRateUsdPerMillion = none) then
      throw "gateway_estimate cost requires a frozen pricing catalog hash and exact rates"

/-- The columns that `finalizeStmt` writes. -/
def UsageEvent.finalized (input : NormalizedFinalize) (row : UsageEvent) : UsageEvent :=
  { row with
    terminalOutcome := .final input.terminalOutcome
    effectiveModelId := input.reportedEffectiveModelId <|> row.effectiveModelId
    contextResolutionHash := input.contextResolutionHash <|> row.contextResolutionHash
    usage := input.usage
    errorCode := input.errorCode
    finishedAt := some input.finishedAt
    durationMs := some input.durationMs }

/-- `assertSameFinalization`: the texts of the two are equal when the members are. -/
def assertSameFinalization (record : UsageEvent) (input : NormalizedFinalize) :
    Except String Unit :=
  if record.terminalOutcome = .final input.terminalOutcome ∧ record.usage = input.usage ∧
      record.effectiveModelId = (input.reportedEffectiveModelId <|> record.effectiveModelId) ∧
      record.contextResolutionHash =
        (input.contextResolutionHash <|> record.contextResolutionHash) ∧
      record.errorCode = input.errorCode ∧ record.finishedAt = some input.finishedAt ∧
      record.durationMs = some input.durationMs then return ()
  else throw "Model usage event was finalized with conflicting terminal evidence"

def finalize (eventId : String) (input : FinalizeInput) (store : UsageStore) :
    Except String (UsageEvent × Bool) × UsageStore :=
  runStatement
    (do let normalized ← normalizeFinalizeInput runtime input
        let prior ← store.readEvent eventId
        if prior.dispatchOwnerId ≠ normalized.dispatchOwnerId then
          throw "Model usage attempt cannot be finalized by a different dispatch owner"
        assertCostProvenance prior normalized
        return normalized)
    (fun normalized => updateEvents
      (UsageEvent.ownedIn .accepted eventId normalized.dispatchOwnerId)
      (UsageEvent.finalized normalized))
    (fun normalized changed store => do
      let record ← store.readEvent eventId
      if changed = false then
        assertSameFinalization record normalized
      return (record, changed))
    store

/-- `buildUsageKnownMask` -/
def buildUsageKnownMask (record : UsageEvent) : String :=
  ",".intercalate
    ((if record.usage.inputTokens.isSome = true then ["input"] else []) ++
      (if record.usage.outputTokens.isSome = true then ["output"] else []) ++
      (if record.usage.cachedInputTokens.isSome = true then ["cached"] else []) ++
      (if record.usage.costUsd.isSome = true then ["cost"] else []))

/-- The first ten characters of a date. -/
def dayOf (timestamp : String) : String :=
  String.ofList (timestamp.toList.take 10)

/-- The row that an event is projected to. -/
def UsageEvent.costRow (record : UsageEvent) (sessionId : String) : CostLedgerRow where
  sessionId := sessionId
  agentId := record.identity.agentId
  taskId := record.identity.taskId
  providerId := record.identity.effectiveProviderId
  modelId := record.effectiveModelId
  day := dayOf (record.finishedAt.getD record.startedAt)
  tokenInput := record.usage.inputTokens.getD 0
  tokenOutput := record.usage.outputTokens.getD 0
  tokenCachedInput := record.usage.cachedInputTokens.getD 0
  costUsd := record.usage.costUsd.getD 0
  createdAt := record.finishedAt.getD record.startedAt
  credentialType := some record.identity.credentialType
  usagePool := some record.identity.usagePool
  canonicalUsageEventId := some record.eventId
  usageKnownMask := some (buildUsageKnownMask record)

/-- `insertCompatibilityCostStmt`, and whether it inserted a row. -/
def insertCompatibilityCost (row : CostLedgerRow) (store : UsageStore) : Bool × UsageStore :=
  if store.costLedger.any (fun other =>
      other.canonicalUsageEventId = row.canonicalUsageEventId) = true then (false, store)
  else (true, { store with costLedger := store.costLedger ++ [row] })

/-- `applySessionUsageStmt` with the usage of a ledger row. -/
def SessionTotals.apply (row : CostLedgerRow) (timestamp : String) (session : SessionTotals) :
    SessionTotals :=
  { session with
    tokenInput := session.tokenInput + row.tokenInput
    tokenOutput := session.tokenOutput + row.tokenOutput
    tokenCachedInput := session.tokenCachedInput + row.tokenCachedInput
    tokenTotal := session.tokenTotal + row.tokenInput + row.tokenOutput
    costUsdTotal := session.costUsdTotal + row.costUsd
    lastActivityAt := timestamp
    updatedAt := timestamp }

def applySessionUsage (row : CostLedgerRow) (timestamp : String) (store : UsageStore) :
    UsageStore :=
  { store with
    sessions := updateRows (fun session => session.sessionId = row.sessionId)
      (SessionTotals.apply row timestamp) store.sessions }

/-- The ledger row and the session delta of a finalized event. -/
def projectUsage (record : UsageEvent) (store : UsageStore) : UsageStore :=
  match record.identity.sessionId with
  | none => store
  | some sessionId =>
      if buildUsageKnownMask record = "" then store
      else
        let row := record.costRow sessionId
        let (inserted, store) := insertCompatibilityCost row store
        if inserted = true then
          applySessionUsage row (record.finishedAt.getD record.startedAt) store
        else store

structure FinalizeAndProjectResult where
  record : UsageEvent
  finalized : Bool
  compatibilityProjected : Bool

def finalizeAndProject (eventId : String) (input : FinalizeInput) (store : UsageStore) :
    Except String (FinalizeAndProjectResult × UsageStore) := do
  let (answer, store) := finalize runtime eventId input store
  let (record, finalized) ← answer
  let (claimed, store) := updateEvents
    (fun row => row.eventId = eventId && row.compatibilityProjectedAt.isNone)
    (fun row => { row with compatibilityProjectedAt := some input.finishedAt }) store
  if claimed = false then
    return ({ record, finalized, compatibilityProjected := false }, store)
  return ({ record, finalized, compatibilityProjected := true }, projectUsage record store)

/-! ## Runs -/

/-- The calls.  `locked` are the rows that a recovery finds locked by others. -/
inductive UsageCall
  | beginAttempt (input : BeginInput)
  | acceptTransport (eventId dispatchOwnerId dispatchLeaseExpiresAt : String)
  | renewTransportLease (eventId dispatchOwnerId dispatchLeaseExpiresAt : String)
  | abandonTransportIntent (eventId dispatchOwnerId : String)
  | confirmTransportNotStarted (eventId dispatchOwnerId now : String)
  | markDispatchUnknown (eventId dispatchOwnerId uncertainAt reason : String)
  | recoverExpiredIntents (recoveredAt : String) (limit : Int) (locked : String → Bool)
  | recoverExpiredAcceptedDispatches (recoveredAt : String) (limit : Int)
      (locked : String → Bool)
  | reconcileDispatchUnknown (eventId : String) (input : ReconcileInput)
  | finalize (eventId : String) (input : FinalizeInput)
  | finalizeAndProject (eventId : String) (input : FinalizeInput)

/-- The tables after a transaction, which is rolled back when it throws. -/
def committed {α : Type} (result : Except String (α × UsageStore)) (store : UsageStore) :
    UsageStore :=
  match result with
  | .ok (_, store) => store
  | .error _ => store

/-- The tables after a call. -/
def UsageCall.perform (store : UsageStore) : UsageCall → UsageStore
  | .beginAttempt input => committed (ModelUsage.beginAttempt runtime input store) store
  | .acceptTransport eventId owner lease =>
      (ModelUsage.acceptTransport runtime eventId owner lease store).2
  | .renewTransportLease eventId owner lease =>
      (ModelUsage.renewTransportLease runtime eventId owner lease store).2
  | .abandonTransportIntent eventId owner =>
      (ModelUsage.abandonTransportIntent eventId owner store).2
  | .confirmTransportNotStarted eventId owner now =>
      committed (ModelUsage.confirmTransportNotStarted runtime eventId owner now store) store
  | .markDispatchUnknown eventId owner uncertainAt reason =>
      (ModelUsage.markDispatchUnknown runtime eventId owner uncertainAt reason store).2
  | .recoverExpiredIntents recoveredAt limit locked =>
      (ModelUsage.recoverExpiredIntents runtime recoveredAt limit locked store).2
  | .recoverExpiredAcceptedDispatches recoveredAt limit locked =>
      (ModelUsage.recoverExpiredAcceptedDispatches runtime recoveredAt limit locked store).2
  | .reconcileDispatchUnknown eventId input =>
      (ModelUsage.reconcileDispatchUnknown runtime eventId input store).2
  | .finalize eventId input => (ModelUsage.finalize runtime eventId input store).2
  | .finalizeAndProject eventId input =>
      committed (ModelUsage.finalizeAndProject runtime eventId input store) store

def UsageStore.Step (store : UsageStore) (call : UsageCall) (store' : UsageStore) : Prop :=
  store' = call.perform runtime store

end Calls

end GoatCitadel.Storage.ModelUsage
