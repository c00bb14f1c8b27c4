import GoatCitadel.Policy.JsonText

/-!
# Model usage

The vocabulary of the usage events, and the evidence with which an owner shows that an
attempt was never dispatched.
-/

namespace GoatCitadel.Contracts

open GoatCitadel.Support
open GoatCitadel.Policy (JsonValue)

inductive UsageSource
  | llmService
  | embeddingRuntime
  | manualTest
  deriving DecidableEq

inductive CredentialType
  | apiKey
  | oauth
  | serviceAccount
  | adc
  | unknown
  deriving DecidableEq

inductive UsagePool
  | standard
  | subscription
  | local
  | unknown
  deriving DecidableEq

inductive CredentialSource
  | inline
  | env
  | keychain
  | oauth
  | adc
  | none
  | unknown
  deriving DecidableEq

inductive TransportStatus
  | intent
  | accepted
  | dispatchUnknown
  deriving DecidableEq

def TransportStatus.text : TransportStatus → String
  | .intent => "intent"
  | .accepted => "accepted"
  | .dispatchUnknown => "dispatch_unknown"

inductive DispatchReconciliation
  | confirmedNotDispatched
  | confirmedDispatchedUsageUnknown
  | supersededByNewGeneration
  deriving DecidableEq

/-- `Exclude<ModelUsageTerminalOutcome, "in_flight">` -/
inductive FinalOutcome
  | succeeded
  | failedBeforeUsage
  | failedAfterUsage
  | interruptedAfterDispatch
  | cancelled
  deriving DecidableEq

inductive TerminalOutcome
  | inFlight
  | final (outcome : FinalOutcome)
  deriving DecidableEq

/-! ## Attempts that were not dispatched -/

/-- `MODEL_USAGE_NO_DISPATCH_REASON` -/
def modelUsageNoDispatchReason : String := "guarded_dispatch_not_started"

structure DispatchIdentity where
  eventId : String
  dispatchOwnerId : String
  operationId : String
  dispatchGeneration : String

/-- What the proof reads of a usage event. -/
structure DispatchRecord extends DispatchIdentity where
  source : UsageSource
  transportStatus : TransportStatus
  dispatchUncertaintyReason : Option String
  dispatchReconciledAt : Option String
  dispatchReconciledBy : Option String
  dispatchReconciliation : Option DispatchReconciliation
  dispatchReconciliationEvidence : Option String
  terminalOutcome : TerminalOutcome
  finishedAt : Option String

def modelUsageNoDispatchEvidence (identity : DispatchIdentity) : String :=
  JsonValue.stringify (.object
    [("schemaVersion", .string "goatcitadel.model-usage.no-dispatch.v1"),
     ("eventId", .string identity.eventId),
     ("dispatchOwnerId", .string identity.dispatchOwnerId),
     ("operationId", .string identity.operationId),
     ("dispatchGeneration", .string identity.dispatchGeneration)])

/-- The sources whose owner can prove that nothing was sent. -/
def UsageSource.isGuarded (source : UsageSource) : Bool :=
  source = .llmService || source = .embeddingRuntime

def isModelUsageProvenNotDispatched (record : DispatchRecord) : Bool :=
  record.source.isGuarded && record.transportStatus = .dispatchUnknown &&
    record.dispatchUncertaintyReason = some modelUsageNoDispatchReason &&
    record.dispatchReconciliation = some .confirmedNotDispatched &&
    record.dispatchReconciledBy = some record.dispatchOwnerId &&
    record.dispatchReconciliationEvidence =
      some (modelUsageNoDispatchEvidence record.toDispatchIdentity) &&
    record.terminalOutcome = .final .failedBeforeUsage &&
    isSet record.finishedAt && record.finishedAt = record.dispatchReconciledAt

end GoatCitadel.Contracts
