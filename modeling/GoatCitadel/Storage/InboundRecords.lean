import GoatCitadel.Policy.CanonicalJson
import GoatCitadel.Storage.WorktreeLease

/-!
# Inbound channel events

An event that a channel delivers is stored before it is acknowledged, under an
identity of its own, in a lane of its connection.  This module has the rows of the
table, and what is made of the inputs before a transaction begins.
-/

namespace GoatCitadel.Storage.InboundChannelEvents

open GoatCitadel.Support
open GoatCitadel.Policy (JsonObject JsonValue assign ownOrder sortMembers)
open GoatCitadel.Storage.WorktreeLeaseRepository (DateText)

/-! ## Records -/

inductive InboundChannelEventStatus
  | accepted
  | processing
  | messageRecorded
  | commandExecutionStarted
  | turnAdmitted
  | waiting
  | replyEnqueued
  | retryWait
  | completed
  | suppressed
  | failed
  | manualReconciliationRequired
  deriving DecidableEq

namespace InboundChannelEventStatus

/-- The text of a status. -/
def text : InboundChannelEventStatus → String
  | .accepted => "accepted"
  | .processing => "processing"
  | .messageRecorded => "message_recorded"
  | .commandExecutionStarted => "command_execution_started"
  | .turnAdmitted => "turn_admitted"
  | .waiting => "waiting"
  | .replyEnqueued => "reply_enqueued"
  | .retryWait => "retry_wait"
  | .completed => "completed"
  | .suppressed => "suppressed"
  | .failed => "failed"
  | .manualReconciliationRequired => "manual_reconciliation_required"

/-- The status is one of `CLAIMED_STATUSES`. -/
def isClaimed : InboundChannelEventStatus → Bool
  | .processing | .messageRecorded | .commandExecutionStarted | .turnAdmitted | .waiting
  | .replyEnqueued => true
  | .accepted | .retryWait | .completed | .suppressed | .failed
  | .manualReconciliationRequired => false

/-- `isInboundChannelEventTerminalStatus`; these are `TERMINAL_STATUSES` as well. -/
def isTerminal : InboundChannelEventStatus → Bool
  | .completed | .suppressed | .failed | .manualReconciliationRequired => true
  | .accepted | .processing | .messageRecorded | .commandExecutionStarted | .turnAdmitted
  | .waiting | .replyEnqueued | .retryWait => false

/-- The event waits to be claimed. -/
def isOpen : InboundChannelEventStatus → Bool
  | .accepted | .retryWait => true
  | _ => false

/-- `stageOrder` -/
def stageOrder : InboundChannelEventStatus → Option Nat
  | .processing => some 0
  | .messageRecorded => some 1
  | .commandExecutionStarted => some 2
  | .turnAdmitted => some 2
  | .waiting => some 3
  | .replyEnqueued => some 4
  | _ => none

end InboundChannelEventStatus

inductive InboundChannelDispatchKind
  | agentTurn
  | voiceAgentTurn
  | recordOnly
  | command
  | operatorDeskTurn
  deriving DecidableEq

/-- `DISPATCH_KINDS`, by their texts. -/
def InboundChannelDispatchKind.ofText : String → Option InboundChannelDispatchKind
  | "agent_turn" => some .agentTurn
  | "voice_agent_turn" => some .voiceAgentTurn
  | "record_only" => some .recordOnly
  | "command" => some .command
  | "operator_desk_turn" => some .operatorDeskTurn
  | _ => none

inductive InboundChannelBotLoopDecision
  | evaluating
  | allow
  | suppress
  deriving DecidableEq

/-- What an event is linked to. -/
inductive LinkageKey
  | sessionKey
  | sessionId
  | messageId
  | turnId
  | assistantMessageId
  | durableRunId
  | deliveryId
  | providerMessageId
  | messageContentHash
  | deliveryPayloadHash
  | commandOperationKey
  | commandResultText
  deriving DecidableEq

namespace LinkageKey

def text : LinkageKey → String
  | .sessionKey => "sessionKey"
  | .sessionId => "sessionId"
  | .messageId => "messageId"
  | .turnId => "turnId"
  | .assistantMessageId => "assistantMessageId"
  | .durableRunId => "durableRunId"
  | .deliveryId => "deliveryId"
  | .providerMessageId => "providerMessageId"
  | .messageContentHash => "messageContentHash"
  | .deliveryPayloadHash => "deliveryPayloadHash"
  | .commandOperationKey => "commandOperationKey"
  | .commandResultText => "commandResultText"

/-- The keys in the order in which they are checked. -/
def all : List LinkageKey :=
  [.sessionKey, .sessionId, .messageId, .turnId, .assistantMessageId, .durableRunId,
   .deliveryId, .providerMessageId, .messageContentHash, .deliveryPayloadHash,
   .commandOperationKey, .commandResultText]

theorem mem_all (key : LinkageKey) : key ∈ all := by
  cases key <;> decide

end LinkageKey

/-- The columns of the linkage. -/
abbrev InboundChannelEventLinkage := LinkageKey → Option String

/-- `COALESCE(given, stored)`, column by column. -/
def coalesce (given stored : InboundChannelEventLinkage) : InboundChannelEventLinkage :=
  fun key => (given key).or (stored key)

/-- A row of `inbound_channel_events`; the payload is what its text is parsed to. -/
structure InboundChannelEvent where
  sequence : Nat
  eventId : String
  channelKey : String
  connectionId : String
  transport : String
  dispatchKind : InboundChannelDispatchKind
  providerSourceId : Option String
  idempotencyKey : String
  laneKey : String
  payloadHash : String
  payload : JsonObject
  status : InboundChannelEventStatus
  attemptCount : Nat
  claimGeneration : Nat
  claimToken : Option String
  claimOwnerId : Option String
  claimExpiresAt : Option String
  claimHeartbeatAt : Option String
  nextAttemptAt : Option String
  botLoopDecision : Option InboundChannelBotLoopDecision
  botLoopReason : Option String
  linkage : InboundChannelEventLinkage
  lastError : Option String
  reconciliationReason : Option String
  receivedAt : String
  acceptedAt : String
  updatedAt : String
  terminalAt : Option String

/-- The columns of `idx_inbound_channel_events_identity`. -/
def InboundChannelEvent.identity (event : InboundChannelEvent) : String × String × String :=
  (event.channelKey, event.connectionId, event.idempotencyKey)

/-- The lane of an event, in its connection. -/
def InboundChannelEvent.lane (event : InboundChannelEvent) : String × String × String :=
  (event.channelKey, event.connectionId, event.laneKey)

inductive InboundChannelEventError
  | fieldRequired (field : String)
  | invalid (field : Option String) (message : String)
  | payloadTooLarge (message : String)
  | conflict (message : String)
  | typeError (message : String)
  | error (message : String)

/-- What the repository takes from the language: dates, and SHA-256. -/
structure EventRuntime where
  dates : DateText
  sha256 : String → String

/-! ## Normalization -/

def normalizeRequired (value field : String) : Except InboundChannelEventError String :=
  requireTrimmed (.fieldRequired field) value

def normalizeOptional (value : Option String) (field : String) :
    Except InboundChannelEventError (Option String) :=
  match value with
  | none => return none
  | some value => some <$> normalizeRequired value field

/-- The text of a time; a time that has none is out of range. -/
def isoText (runtime : EventRuntime) (ms : Int) : Except InboundChannelEventError String :=
  match runtime.dates.toISOString ms with
  | some text => return text
  | none => throw (.error "Invalid time value")

def normalizeTimestamp (runtime : EventRuntime) (value field : String) :
    Except InboundChannelEventError String :=
  match runtime.dates.parse value with
  | some ms => isoText runtime ms
  | none => throw (.invalid (some field) (field ++ " must be a valid timestamp."))

/-- A timestamp that is given and not empty. -/
def normalizeOptionalTimestamp (runtime : EventRuntime) (value : Option String)
    (field : String) : Except InboundChannelEventError (Option String) :=
  match value with
  | none => return none
  | some value =>
      if value = "" then return none else some <$> normalizeTimestamp runtime value field

def normalizeLeaseDuration (value : Int) : Except InboundChannelEventError Int :=
  if maxSafeInteger < value.natAbs ∨ value ≤ 0 then
    throw (.invalid (some "leaseDurationMs") "leaseDurationMs must be a positive integer.")
  else return value

def normalizeLimit (value : Option Int) : Except InboundChannelEventError Nat :=
  match value with
  | none => return 100
  | some value =>
      if value < 1 ∨ 1000 < value then
        throw (.invalid (some "limit") "limit must be an integer from 1 through 1000.")
      else return value.toNat

def normalizeDispatchKind (value : String) :
    Except InboundChannelEventError InboundChannelDispatchKind :=
  match InboundChannelDispatchKind.ofText value with
  | some kind => return kind
  | none => throw (.invalid (some "dispatchKind") "dispatchKind is not supported.")

/-- The text of `now + leaseDurationMs`. -/
def leaseExpiry (runtime : EventRuntime) (now : String) (leaseDurationMs : Int) :
    Except InboundChannelEventError String :=
  match runtime.dates.parse now with
  | some ms => isoText runtime (ms + leaseDurationMs)
  | none => throw (.error "Invalid time value")

/-- The claim that a caller says it holds. -/
structure InboundChannelEventClaimToken where
  eventId : String
  ownerId : String
  generation : Int
  claimToken : String
  deriving DecidableEq

def normalizeClaimToken (token : InboundChannelEventClaimToken) :
    Except InboundChannelEventError InboundChannelEventClaimToken := do
  let eventId ← normalizeRequired token.eventId "eventId"
  let ownerId ← normalizeRequired token.ownerId "ownerId"
  let claimToken ← normalizeRequired token.claimToken "claimToken"
  if maxSafeInteger < token.generation.natAbs ∨ token.generation < 1 then
    throw (.typeError "generation must be a safe integer greater than or equal to 1.")
  else return { token with eventId, ownerId, claimToken }

/-- `INBOUND_CHANNEL_COMMAND_RESULT_MAX_BYTES` -/
def commandResultMaxBytes : Nat :=
  16 * 1024

def normalizeCommandResultText (value : Option String) :
    Except InboundChannelEventError (Option String) := do
  let normalized ← normalizeOptional value "commandResultText"
  if commandResultMaxBytes < (normalized.map String.utf8ByteSize).getD 0 then
    throw (.payloadTooLarge "Inbound channel command result exceeds 16384 bytes.")
  else return normalized

/-- One column of a linkage. -/
def normalizeLinkageColumn (key : LinkageKey) (value : Option String) :
    Except InboundChannelEventError (Option String) :=
  match key with
  | .commandResultText => normalizeCommandResultText value
  | key => normalizeOptional value key.text

/-- The columns of a linkage that are left to normalize. -/
def normalizeColumns (linkage : InboundChannelEventLinkage) :
    List LinkageKey → Except InboundChannelEventError InboundChannelEventLinkage
  | [] => return fun _ => none
  | key :: keys => do
      let value ← normalizeLinkageColumn key (linkage key)
      let rest ← normalizeColumns linkage keys
      return fun other => if other = key then value else rest other

def normalizeLinkage (linkage : InboundChannelEventLinkage) :
    Except InboundChannelEventError InboundChannelEventLinkage :=
  normalizeColumns linkage LinkageKey.all

/-! ## Payloads -/

/-- `INBOUND_CHANNEL_EVENT_MAX_PAYLOAD_DEPTH` -/
def maxPayloadDepth : Nat :=
  24

/-- `INBOUND_CHANNEL_EVENT_MAX_PAYLOAD_KEYS` -/
def maxPayloadKeys : Nat :=
  512

/-- `INBOUND_CHANNEL_EVENT_MAX_PAYLOAD_BYTES` -/
def maxPayloadBytes : Nat :=
  64 * 1024

mutual

/-- `visit`: the value with its members as they are added to a new object, and the
number of keys so far.  The members are visited in the order of their keys. -/
def visit (depth keyCount : Nat) :
    JsonValue → Except InboundChannelEventError (JsonValue × Nat)
  | .array items =>
      if maxPayloadDepth < depth then
        throw (.payloadTooLarge
          "Inbound channel event payload exceeds the maximum nesting depth.")
      else do
        let (items, keyCount) ← visitItems (depth + 1) keyCount items
        return (.array items, keyCount)
  | .object fields =>
      if maxPayloadDepth < depth then
        throw (.payloadTooLarge
          "Inbound channel event payload exceeds the maximum nesting depth.")
      else do
        let (fields, keyCount) ← visitFields (depth + 1) keyCount fields
        return (.object (ownOrder (fields.foldl assign [])), keyCount)
  | value =>
      if maxPayloadDepth < depth then
        throw (.payloadTooLarge
          "Inbound channel event payload exceeds the maximum nesting depth.")
      else return (value, keyCount)

def visitItems (depth keyCount : Nat) :
    List JsonValue → Except InboundChannelEventError (List JsonValue × Nat)
  | [] => return ([], keyCount)
  | item :: items => do
      let (item, keyCount) ← visit depth keyCount item
      let (items, keyCount) ← visitItems depth keyCount items
      return (item :: items, keyCount)

def visitFields (depth keyCount : Nat) : List (String × JsonValue) →
    Except InboundChannelEventError (List (String × JsonValue) × Nat)
  | [] => return ([], keyCount)
  | (key, value) :: fields =>
      if maxPayloadKeys < keyCount + 1 then
        throw (.payloadTooLarge "Inbound channel event payload contains too many object keys.")
      else do
        let (value, keyCount) ← visit depth (keyCount + 1) value
        let (fields, keyCount) ← visitFields depth keyCount fields
        return ((key, value) :: fields, keyCount)

end

/-- A payload with its members in order, and its text. -/
def normalizePayload (payload : JsonObject) :
    Except InboundChannelEventError (JsonObject × String) := do
  match ← visit 0 0 (sortMembers (.object payload)) with
  | (.object fields, _) =>
      let json := (JsonValue.object fields).stringify
      if maxPayloadBytes < json.utf8ByteSize then
        throw (.payloadTooLarge ("Inbound channel event payload is " ++
          toString json.utf8ByteSize ++ " bytes; maximum is 65536."))
      else return (fields, json)
  | _ => throw (.invalid (some "payload") "payload must be a plain object.")

/-- `CHANNEL_INGRESS_ACCEPTED_REVISION_KEY` -/
def acceptedRevisionKey : String :=
  "__goatcitadelAcceptedConnectionRevision"

/-- `providerPayload`, of what the text of a payload is parsed to. -/
def providerPayload (payload : JsonObject) : String :=
  (JsonValue.object (payload.filter fun member => member.1 ≠ acceptedRevisionKey)).stringify

/-! ## Acceptance -/

structure InboundChannelEventAcceptInput where
  eventId : Option String
  channelKey : String
  connectionId : String
  transport : String
  dispatchKind : String
  providerSourceId : Option String
  idempotencyKey : String
  laneKey : String
  payload : JsonObject
  receivedAt : Option String

structure NormalizedAcceptance where
  eventId : String
  channelKey : String
  connectionId : String
  transport : String
  dispatchKind : InboundChannelDispatchKind
  providerSourceId : Option String
  idempotencyKey : String
  laneKey : String
  payload : JsonObject
  payloadHash : String
  receivedAt : String

/-- The identity that an acceptance is stored under. -/
def NormalizedAcceptance.identity (input : NormalizedAcceptance) : String × String × String :=
  (input.channelKey, input.connectionId, input.idempotencyKey)

/-- An input in its normal form; an event without an identifier gets a random one. -/
def normalizeAcceptance (runtime : EventRuntime) (randomUUID acceptedAt : String)
    (input : InboundChannelEventAcceptInput) :
    Except InboundChannelEventError NormalizedAcceptance := do
  let normalizedAcceptedAt ← normalizeTimestamp runtime acceptedAt "acceptedAt"
  let (payload, payloadJson) ← normalizePayload input.payload
  return {
    eventId := (← normalizeOptional input.eventId "eventId").getD randomUUID
    channelKey := ← normalizeRequired input.channelKey "channelKey"
    connectionId := ← normalizeRequired input.connectionId "connectionId"
    transport := ← normalizeRequired input.transport "transport"
    dispatchKind := ← normalizeDispatchKind input.dispatchKind
    providerSourceId := ← normalizeOptional input.providerSourceId "providerSourceId"
    idempotencyKey := ← normalizeRequired input.idempotencyKey "idempotencyKey"
    laneKey := ← normalizeRequired input.laneKey "laneKey"
    payload
    payloadHash := runtime.sha256 payloadJson
    receivedAt := ← normalizeTimestamp runtime
      (input.receivedAt.getD normalizedAcceptedAt) "receivedAt" }

end GoatCitadel.Storage.InboundChannelEvents
