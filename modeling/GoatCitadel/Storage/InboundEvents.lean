import GoatCitadel.Storage.ChannelDeliveryParts
import GoatCitadel.Storage.InboundRecords
import GoatCitadel.Support.Runs
import GoatCitadel.Support.Table

/-!
# The inbound channel event repository

Workers claim the events that are due, the first unsettled one of every lane, for
some time.  A claim is held by a token; with it the event is moved on, or given
back.  Each operation is one transaction on the table.  The texts of times are
compared as texts.
-/

namespace GoatCitadel.Storage.InboundChannelEvents

open GoatCitadel.Support
open GoatCitadel.Policy (JsonObject JsonValue)
open GoatCitadel.Storage.ChannelDeliveryParts (isSha256)

/-- `a <= b` -/
def timeLe (a b : String) : Bool :=
  utf16Le a b

/-- The table, in the order of the sequence, and the last number of the sequence. -/
structure EventStore where
  rows : List InboundChannelEvent
  lastSequence : Nat

namespace EventStore

def initial : EventStore where
  rows := []
  lastSequence := 0

/-- `getStmt`, of an identifier that is trimmed already. -/
def find (eventId : String) (store : EventStore) : Option InboundChannelEvent :=
  store.rows.find? fun row => row.eventId = eventId

/-- `get` -/
def get (eventId : String) (store : EventStore) :
    Except InboundChannelEventError (Option InboundChannelEvent) :=
  (store.find ·) <$> normalizeRequired eventId "eventId"

/-- `getByIdentityStmt` -/
def findByIdentity (identity : String × String × String) (store : EventStore) :
    Option InboundChannelEvent :=
  store.rows.find? fun row => row.identity = identity

/-- `UPDATE … WHERE event_id = @eventId AND guard`; nothing when no row is changed. -/
def update (eventId : String) (guard : InboundChannelEvent → Bool)
    (set : InboundChannelEvent → InboundChannelEvent) (store : EventStore) :
    Option EventStore :=
  if store.rows.any (fun row => row.eventId = eventId && guard row) = true then
    some { store with
      rows := updateRows (fun row => row.eventId = eventId && guard row) set store.rows }
  else none

end EventStore

/-! ## Conditions -/

/-- The claim of a row has expired. -/
def InboundChannelEvent.expired (now : String) (row : InboundChannelEvent) : Bool :=
  match row.claimExpiresAt with
  | some expiresAt => timeLe expiresAt now
  | none => false

/-- The claim of a row has not expired. -/
def InboundChannelEvent.current (now : String) (row : InboundChannelEvent) : Bool :=
  match row.claimExpiresAt with
  | some expiresAt => !timeLe expiresAt now
  | none => false

/-- The row waits for its next attempt, or its claim has expired. -/
def InboundChannelEvent.claimable (now : String) (row : InboundChannelEvent) : Bool :=
  (row.status.isOpen &&
      match row.nextAttemptAt with
      | some nextAttemptAt => timeLe nextAttemptAt now
      | none => true) ||
    (row.status.isClaimed && row.expired now)

/-- An earlier event of the same lane that is not settled. -/
def blocks (candidate predecessor : InboundChannelEvent) : Bool :=
  predecessor.lane = candidate.lane && predecessor.sequence < candidate.sequence &&
    !predecessor.status.isTerminal

/-- `substr(lane_key, 1, length) = prefix` -/
def inLanes (lanePrefix : Option String) (row : InboundChannelEvent) : Bool :=
  match lanePrefix with
  | none => true
  | some lanePrefix => row.laneKey.toList.take (utf16Length lanePrefix) = lanePrefix.toList

/-- `listDueStmt` and `listDueInLanesStmt` -/
def listDueRows (now : String) (limit : Nat) (lanePrefix : Option String) (store : EventStore) :
    List InboundChannelEvent :=
  ((store.rows.filter fun candidate =>
      candidate.claimable now && !store.rows.any (blocks candidate) &&
        inLanes lanePrefix candidate).insertionSort
    fun a b => a.sequence ≤ b.sequence).take limit

/-- The row is under the claim of the token. -/
def heldBy (token : InboundChannelEventClaimToken) (now : String) (row : InboundChannelEvent) :
    Bool :=
  row.status.isClaimed && row.claimOwnerId = some token.ownerId &&
    (row.claimGeneration : Int) = token.generation && row.claimToken = some token.claimToken &&
    row.current now

section Operations

variable (runtime : EventRuntime)

/-! ## Acceptance -/

/-- The row that `insertStmt` inserts. -/
def acceptedRow (input : NormalizedAcceptance) (acceptedAt : String) (sequence : Nat) :
    InboundChannelEvent where
  sequence := sequence
  eventId := input.eventId
  channelKey := input.channelKey
  connectionId := input.connectionId
  transport := input.transport
  dispatchKind := input.dispatchKind
  providerSourceId := input.providerSourceId
  idempotencyKey := input.idempotencyKey
  laneKey := input.laneKey
  payloadHash := input.payloadHash
  payload := input.payload
  status := .accepted
  attemptCount := 0
  claimGeneration := 0
  claimToken := none
  claimOwnerId := none
  claimExpiresAt := none
  claimHeartbeatAt := none
  nextAttemptAt := none
  botLoopDecision := none
  botLoopReason := none
  linkage := fun _ => none
  lastError := none
  reconciliationReason := none
  receivedAt := input.receivedAt
  acceptedAt := acceptedAt
  updatedAt := acceptedAt
  terminalAt := none

/-- `insertStmt`, which does nothing on a conflict; the sequence skips some numbers. -/
def insertStmt (input : NormalizedAcceptance) (acceptedAt : String) (skipped : Nat)
    (store : EventStore) : Option EventStore :=
  if store.rows.any (fun row => row.eventId = input.eventId || row.identity = input.identity) =
      true then none
  else
    let sequence := store.lastSequence + 1 + skipped
    some {
      rows := store.rows ++ [acceptedRow input acceptedAt sequence]
      lastSequence := sequence }

def assertPayloadMatch (existing : InboundChannelEvent) (input : NormalizedAcceptance) :
    Except InboundChannelEventError Unit := do
  let (existingPayload, existingJson) ← normalizePayload existing.payload
  if existing.laneKey ≠ input.laneKey ∨ existing.transport ≠ input.transport ∨
      existing.dispatchKind ≠ input.dispatchKind ∨
      existing.providerSourceId ≠ input.providerSourceId ∨
      runtime.sha256 existingJson ≠ existing.payloadHash ∨
      providerPayload existingPayload ≠ providerPayload input.payload then
    throw (.conflict
      "Inbound channel idempotency identity was reused with a different normalized payload.")
  else return ()

/-- `eventIdConflict` -/
def eventIdConflict (input : NormalizedAcceptance) : InboundChannelEventError :=
  .conflict ("Inbound channel event id " ++ input.eventId ++
    " is already owned by a different provider event.")

/-- The event that is read back after the insertion. -/
def acceptedEvent (input : NormalizedAcceptance) (inserted : Option EventStore)
    (store : EventStore) : Except InboundChannelEventError (Option InboundChannelEvent) :=
  match inserted with
  | some written => written.get input.eventId
  | none => return store.findByIdentity input.identity

def acceptNormalized (input : NormalizedAcceptance) (acceptedAt : String) (skipped : Nat)
    (store : EventStore) : Except InboundChannelEventError EventStore := do
  match store.findByIdentity input.identity with
  | some existing =>
      let _ ← assertPayloadMatch runtime existing input
      return store
  | none =>
      match ← store.get input.eventId with
      | some _ => throw (eventIdConflict input)
      | none =>
          let inserted := insertStmt input acceptedAt skipped store
          let written := inserted.getD store
          match ← acceptedEvent input inserted store with
          | some event =>
              let _ ← assertPayloadMatch runtime event input
              return written
          | none =>
              match ← written.get input.eventId with
              | some _ => throw (eventIdConflict input)
              | none => throw (.error
                  "Inbound channel event acceptance did not produce a durable record.")

/-- An input with the identifier and the numbers that its acceptance draws. -/
structure Acceptance where
  input : InboundChannelEventAcceptInput
  randomUUID : String
  skipped : Nat

/-- The inputs in their normal form, with the numbers that are skipped. -/
def normalizeAcceptances (now : String) :
    List Acceptance → Except InboundChannelEventError (List (NormalizedAcceptance × Nat))
  | [] => return []
  | acceptance :: rest => do
      let item ← normalizeAcceptance runtime acceptance.randomUUID now acceptance.input
      let items ← normalizeAcceptances now rest
      return (item, acceptance.skipped) :: items

/-- The writes of `acceptMany`. -/
def acceptAll (now : String) :
    List (NormalizedAcceptance × Nat) → EventStore → Except InboundChannelEventError EventStore
  | [], store => return store
  | (item, skipped) :: items, store => do
      let written ← acceptNormalized runtime item now skipped store
      acceptAll now items written

/-- `accept` -/
def accept (acceptance : Acceptance) (acceptedAt : String) (store : EventStore) :
    Except InboundChannelEventError EventStore := do
  let now ← normalizeTimestamp runtime acceptedAt "acceptedAt"
  let item ← normalizeAcceptance runtime acceptance.randomUUID now acceptance.input
  acceptNormalized runtime item now acceptance.skipped store

/-- `withExpectedRevision`, up to its writes; a connection that is not stored has no
revision. -/
def checkRevision (current : Option String) (expectedRevision : String) :
    Except InboundChannelEventError Unit :=
  if isSha256 expectedRevision = false then
    throw (.invalid none "Review the integration connection before changing it.")
  else if current ≠ some expectedRevision then
    throw (.conflict
      "The integration connection changed. Review its current settings before retrying.")
  else return ()

/-- `acceptMany`; the connections are the revisions of the integrations, when the
repository was given them. -/
def acceptMany (acceptances : List Acceptance) (acceptedAt : String)
    (telegramPollRevision : Option String) (connections : Option (String → Option String))
    (store : EventStore) : Except InboundChannelEventError EventStore := do
  let now ← normalizeTimestamp runtime acceptedAt "acceptedAt"
  let items ← normalizeAcceptances runtime now acceptances
  match telegramPollRevision with
  | none => acceptAll runtime now items store
  | some revision =>
      match items with
      | [(item, skipped)] =>
          if item.channelKey ≠ "telegram" ∨ item.transport ≠ "provider_webhook" then
            throw (.invalid none "A Telegram poll revision must guard exactly one provider event.")
          else
            match connections with
            | none =>
                throw (.error "Telegram poll admission requires the connection repository.")
            | some connections =>
                let _ ← checkRevision (connections item.connectionId) revision
                acceptAll runtime now [(item, skipped)] store
      | _ => throw (.invalid none
          "A Telegram poll revision must guard exactly one provider event.")

/-! ## Claims -/

/-- The row that `claimStmt` sets. -/
def claimedRow (claimGeneration : Nat) (claimToken ownerId claimExpiresAt now : String)
    (row : InboundChannelEvent) : InboundChannelEvent :=
  { row with
    status := .processing
    attemptCount := row.attemptCount + 1
    claimGeneration
    claimToken := some claimToken
    claimOwnerId := some ownerId
    claimExpiresAt := some claimExpiresAt
    claimHeartbeatAt := some now
    nextAttemptAt := none
    lastError := none
    updatedAt := now }

/-- `claimStmt`, for a candidate as it was listed. -/
def claimStmt (candidate : InboundChannelEvent) (claimToken ownerId claimExpiresAt now : String) :
    EventStore → Option EventStore :=
  EventStore.update candidate.eventId
    (fun row => row.status = candidate.status &&
      row.claimGeneration = candidate.claimGeneration &&
      row.claimToken = candidate.claimToken && row.claimOwnerId = candidate.claimOwnerId &&
      row.claimExpiresAt = candidate.claimExpiresAt && row.claimable now)
    (claimedRow (candidate.claimGeneration + 1) claimToken ownerId claimExpiresAt now)

/-- The claims of the candidates that are left, under tokens that are drawn one after
the other. -/
def claimCandidates (ownerId claimExpiresAt now : String) (randomUUID : Nat → String) (draw : Nat) :
    List InboundChannelEvent → EventStore →
      Except InboundChannelEventError (List InboundChannelEventClaimToken × EventStore)
  | [], store => return ([], store)
  | candidate :: rest, store =>
      match claimStmt candidate (randomUUID draw) ownerId claimExpiresAt now store with
      | none => claimCandidates ownerId claimExpiresAt now randomUUID (draw + 1) rest store
      | some written => do
          match ← written.get candidate.eventId with
          | none => throw (.error
              ("Claimed inbound channel event " ++ candidate.eventId ++ " disappeared."))
          | some event =>
              let claim : InboundChannelEventClaimToken :=
                { eventId := event.eventId
                  ownerId
                  generation := candidate.claimGeneration + 1
                  claimToken := randomUUID draw }
              let (claims, written) ←
                claimCandidates ownerId claimExpiresAt now randomUUID (draw + 1) rest written
              return (claim :: claims, written)

structure ClaimDueInput where
  ownerId : String
  leaseDurationMs : Int
  limit : Option Int
  laneKeyPrefix : Option String

/-- `listDue`, at a time in its normal form. -/
def listDue (now : String) (limit : Option Int) (laneKeyPrefix : Option String)
    (store : EventStore) : Except InboundChannelEventError (List InboundChannelEvent) := do
  let limit ← normalizeLimit limit
  let lanePrefix ← normalizeOptional laneKeyPrefix "laneKeyPrefix"
  return listDueRows now limit lanePrefix store

def claimDue (input : ClaimDueInput) (now : String) (randomUUID : Nat → String)
    (store : EventStore) :
    Except InboundChannelEventError (List InboundChannelEventClaimToken × EventStore) := do
  let ownerId ← normalizeRequired input.ownerId "ownerId"
  let leaseDurationMs ← normalizeLeaseDuration input.leaseDurationMs
  let now ← normalizeTimestamp runtime now "now"
  let claimExpiresAt ← leaseExpiry runtime now leaseDurationMs
  let candidates ← listDue now input.limit input.laneKeyPrefix store
  claimCandidates ownerId claimExpiresAt now randomUUID 0 candidates store

/-! ## Claimed events -/

/-- An update of the row that the token holds; the store as it was when it holds none. -/
def updateHeld (token : InboundChannelEventClaimToken) (now : String)
    (guard : InboundChannelEvent → Bool) (set : InboundChannelEvent → InboundChannelEvent)
    (store : EventStore) : EventStore :=
  (store.update token.eventId (fun row => heldBy token now row && guard row) set).getD store

/-- `renewStmt` -/
def renewedRow (claimExpiresAt now : String) (row : InboundChannelEvent) : InboundChannelEvent :=
  { row with
    claimExpiresAt := some claimExpiresAt
    claimHeartbeatAt := some now
    updatedAt := now }

def renew (token : InboundChannelEventClaimToken) (leaseDurationMs : Int) (now : String)
    (store : EventStore) : Except InboundChannelEventError EventStore := do
  let token ← normalizeClaimToken token
  let now ← normalizeTimestamp runtime now "now"
  let leaseDurationMs ← normalizeLeaseDuration leaseDurationMs
  let claimExpiresAt ← leaseExpiry runtime now leaseDurationMs
  return updateHeld token now (fun _ => true) (renewedRow claimExpiresAt now) store

/-- `releaseStmt` -/
def releasedRow (status : InboundChannelEventStatus) (nextAttemptAt lastError : Option String)
    (now : String) (row : InboundChannelEvent) : InboundChannelEvent :=
  { row with
    status
    claimToken := none
    claimOwnerId := none
    claimExpiresAt := none
    claimHeartbeatAt := none
    nextAttemptAt
    lastError
    updatedAt := now }

def release (token : InboundChannelEventClaimToken) (nextAttemptAt lastError : Option String)
    (now : String) (store : EventStore) : Except InboundChannelEventError EventStore := do
  let token ← normalizeClaimToken token
  let now ← normalizeTimestamp runtime now "now"
  let nextAttemptAt ← normalizeOptionalTimestamp runtime nextAttemptAt "nextAttemptAt"
  let lastError ← normalizeOptional lastError "lastError"
  let status : InboundChannelEventStatus :=
    if nextAttemptAt.isSome = true then .retryWait else .accepted
  return updateHeld token now (fun _ => true) (releasedRow status nextAttemptAt lastError now)
    store

def assertLinkageCompatible (current : InboundChannelEvent)
    (linkage : InboundChannelEventLinkage) : Except InboundChannelEventError Unit :=
  match firstClash (LinkageKey.all.map fun key =>
      (key.text, current.linkage key, linkage key)) with
  | some name =>
      throw (.conflict ("Inbound channel event " ++ current.eventId ++
        " is already linked to a different " ++ name ++ "."))
  | none => return ()

/-- `attachStmt` -/
def attachedRow (linkage : InboundChannelEventLinkage) (now : String)
    (row : InboundChannelEvent) : InboundChannelEvent :=
  { row with
    linkage := coalesce linkage row.linkage
    updatedAt := now }

def attachLinkage (token : InboundChannelEventClaimToken) (linkage : InboundChannelEventLinkage)
    (now : String) (store : EventStore) : Except InboundChannelEventError EventStore := do
  let token ← normalizeClaimToken token
  let now ← normalizeTimestamp runtime now "now"
  match store.find token.eventId with
  | none => return store
  | some current =>
      let linkage ← normalizeLinkage linkage
      let _ ← assertLinkageCompatible current linkage
      return updateHeld token now (fun _ => true) (attachedRow linkage now) store

/-! ## Evaluations of bot loops -/

/-- `claimMatches` -/
def claimMatches (current : InboundChannelEvent) (token : InboundChannelEventClaimToken)
    (now : String) : Bool :=
  current.claimOwnerId = some token.ownerId &&
    (current.claimGeneration : Int) = token.generation &&
    current.claimToken = some token.claimToken && current.current now &&
    !current.status.isOpen && !current.status.isTerminal

/-- `beginBotLoopEvaluationStmt` -/
def evaluatingRow (now : String) (row : InboundChannelEvent) : InboundChannelEvent :=
  { row with
    botLoopDecision := some .evaluating
    botLoopReason := none
    updatedAt := now }

def beginBotLoopEvaluation (token : InboundChannelEventClaimToken) (now : String)
    (store : EventStore) : Except InboundChannelEventError EventStore := do
  let token ← normalizeClaimToken token
  let now ← normalizeTimestamp runtime now "now"
  match store.find token.eventId with
  | none => return store
  | some current =>
      if claimMatches current token now = false ∨ current.botLoopDecision.isSome = true then
        return store
      else
        return updateHeld token now (fun row => row.botLoopDecision.isNone) (evaluatingRow now)
          store

/-- The decisions that complete an evaluation. -/
inductive CompletedDecision
  | allow
  | suppress

def CompletedDecision.decision : CompletedDecision → InboundChannelBotLoopDecision
  | .allow => .allow
  | .suppress => .suppress

/-- `completeBotLoopEvaluationStmt` -/
def evaluatedRow (decision : InboundChannelBotLoopDecision) (reason : Option String)
    (now : String) (row : InboundChannelEvent) : InboundChannelEvent :=
  { row with
    botLoopDecision := some decision
    botLoopReason := reason
    updatedAt := now }

/-- The text of a decision in a message. -/
def decisionText : Option InboundChannelBotLoopDecision → String
  | none => "unset"
  | some .evaluating => "evaluating"
  | some .allow => "allow"
  | some .suppress => "suppress"

def completeBotLoopEvaluation (token : InboundChannelEventClaimToken)
    (decision : CompletedDecision) (reason : Option String) (now : String)
    (store : EventStore) : Except InboundChannelEventError EventStore := do
  let token ← normalizeClaimToken token
  let now ← normalizeTimestamp runtime now "now"
  let reason ← normalizeOptional reason "reason"
  match store.find token.eventId with
  | none => return store
  | some current =>
      if claimMatches current token now = false then
        return store
      else if current.botLoopDecision = some decision.decision then
        if reason ≠ none ∧ current.botLoopReason ≠ reason then
          throw (.conflict ("Inbound channel event " ++ current.eventId ++
            " bot-loop decision was replayed with different evidence."))
        else return store
      else if current.botLoopDecision ≠ some .evaluating then
        throw (.conflict ("Inbound channel event " ++ current.eventId ++
          " cannot complete bot-loop evaluation from " ++
          decisionText current.botLoopDecision ++ "."))
      else
        return updateHeld token now (fun row => row.botLoopDecision = some .evaluating)
          (evaluatedRow decision.decision reason now) store

/-! ## Transitions -/

structure InboundChannelEventClaimedTransition where
  status : InboundChannelEventStatus
  nextAttemptAt : Option String
  lastError : Option String
  reconciliationReason : Option String
  linkage : InboundChannelEventLinkage

/-- `canTransitionClaimed` -/
def canTransitionClaimed (current target : InboundChannelEventStatus) : Bool :=
  target = .retryWait || target.isTerminal ||
    match current.stageOrder, target.stageOrder with
    | some currentOrder, some targetOrder => currentOrder ≤ targetOrder
    | _, _ => false

def assertInboundTerminalReplayCompatible (current : InboundChannelEvent)
    (transition : InboundChannelEventClaimedTransition) :
    Except InboundChannelEventError Unit := do
  let lastError ← normalizeOptional transition.lastError "lastError"
  let reconciliationReason ←
    normalizeOptional transition.reconciliationReason "reconciliationReason"
  if (lastError ≠ none ∧ lastError ≠ current.lastError) ∨
      (reconciliationReason ≠ none ∧ reconciliationReason ≠ current.reconciliationReason) then
    throw (.conflict ("Inbound channel event " ++ current.eventId ++
      " terminal transition was replayed with different evidence."))
  else return ()

/-- The transition gives the claim up. -/
def releasesClaim (status : InboundChannelEventStatus) : Bool :=
  status = .retryWait || status.isTerminal

/-- `transitionStmt`, with the normalized values of a transition. -/
def transitionedRow (columns : InboundChannelEventClaimedTransition) (now : String)
    (row : InboundChannelEvent) : InboundChannelEvent :=
  { row with
    status := columns.status
    claimToken := if releasesClaim columns.status = true then none else row.claimToken
    claimOwnerId := if releasesClaim columns.status = true then none else row.claimOwnerId
    claimExpiresAt := if releasesClaim columns.status = true then none else row.claimExpiresAt
    claimHeartbeatAt := if releasesClaim columns.status = true then none else some now
    nextAttemptAt := columns.nextAttemptAt
    linkage := coalesce columns.linkage row.linkage
    lastError := columns.lastError
    reconciliationReason := columns.reconciliationReason
    updatedAt := now
    terminalAt := if columns.status.isTerminal = true then some now else none }

/-- The row in a transition is that of the event, or settled before. -/
def transitionCurrent (token : InboundChannelEventClaimToken)
    (transition : InboundChannelEventClaimedTransition)
    (nextAttemptAt : Option String) (linkage : InboundChannelEventLinkage)
    (now : String) (current : InboundChannelEvent) (store : EventStore) :
    Except InboundChannelEventError EventStore := do
  let _ ← assertLinkageCompatible current linkage
  if current.status.isTerminal = true then
    if current.status ≠ transition.status ∨
        (current.claimGeneration : Int) ≠ token.generation then
      return store
    else
      let _ ← assertInboundTerminalReplayCompatible current transition
      return store
  else if canTransitionClaimed current.status transition.status = false then
    throw (.conflict ("Inbound channel event " ++ current.eventId ++ " cannot regress from " ++
      current.status.text ++ " to " ++ transition.status.text ++ "."))
  else
    let lastError ← normalizeOptional transition.lastError "lastError"
    let reconciliationReason ←
      normalizeOptional transition.reconciliationReason "reconciliationReason"
    return updateHeld token now (fun _ => true)
      (transitionedRow
        { status := transition.status
          nextAttemptAt
          lastError
          reconciliationReason
          linkage } now) store

/-- There is no text, or nothing of it is left when it is trimmed. -/
def isBlank (text : Option String) : Bool :=
  match text with
  | some text => trim text = ""
  | none => true

def transitionClaimed (token : InboundChannelEventClaimToken)
    (transition : InboundChannelEventClaimedTransition) (now : String) (store : EventStore) :
    Except InboundChannelEventError EventStore := do
  let token ← normalizeClaimToken token
  let now ← normalizeTimestamp runtime now "now"
  if transition.status = .accepted ∨ transition.status = .processing then
    throw (.invalid (some "status") "Claimed transition status is not supported.")
  else if transition.status = .retryWait ∧
      (transition.nextAttemptAt = none ∨ transition.nextAttemptAt = some "") then
    throw (.invalid (some "nextAttemptAt") "nextAttemptAt is required for a retry.")
  else if transition.status = .manualReconciliationRequired ∧
      isBlank transition.reconciliationReason = true then
    throw (.invalid (some "reconciliationReason")
      "reconciliationReason is required for manual reconciliation.")
  else
    let nextAttemptAt ← normalizeOptionalTimestamp runtime transition.nextAttemptAt "nextAttemptAt"
    let linkage ← normalizeLinkage transition.linkage
    match store.find token.eventId with
    | none => return store
    | some current =>
        transitionCurrent token transition nextAttemptAt linkage now current store

/-! ## Recovery -/

/-- The command of the event may have begun. -/
def startedCommand (row : InboundChannelEvent) : Bool :=
  row.status = .commandExecutionStarted

/-- `recoverExpiredStmt` -/
def recoveredRow (now : String) (row : InboundChannelEvent) : InboundChannelEvent :=
  { row with
    status :=
      if startedCommand row = true then .manualReconciliationRequired else .retryWait
    claimToken := none
    claimOwnerId := none
    claimExpiresAt := none
    claimHeartbeatAt := none
    nextAttemptAt := if startedCommand row = true then none else some now
    lastError := row.lastError.or (some
      (if startedCommand row = true then
        "Command execution lease expired after crossing the local side-effect boundary."
      else "Processing lease expired before admission completed."))
    reconciliationReason :=
      if startedCommand row = true then
        row.reconciliationReason.or (some
          "Command execution may have applied local side effects before settlement; automatic replay is unsafe.")
      else row.reconciliationReason
    updatedAt := now
    terminalAt := if startedCommand row = true then some now else row.terminalAt }

/-- `listExpiredStmt` -/
def listExpiredRows (now : String) (limit : Nat) (store : EventStore) :
    List InboundChannelEvent :=
  ((store.rows.filter fun row => row.status.isClaimed && row.expired now).insertionSort
    fun a b => a.sequence ≤ b.sequence).take limit

/-- The update of `recoverExpiredStmt`, for a row as it was listed. -/
def recoverExpiredStmt (listed : InboundChannelEvent) (now : String) (store : EventStore) :
    EventStore :=
  (store.update listed.eventId
    (fun row => row.status.isClaimed && row.claimGeneration = listed.claimGeneration &&
      row.claimExpiresAt.isSome && row.claimExpiresAt = listed.claimExpiresAt &&
      row.expired now)
    (recoveredRow now)).getD store

def recoverExpiredClaims (limit : Option Int) (now : String) (store : EventStore) :
    Except InboundChannelEventError EventStore := do
  let now ← normalizeTimestamp runtime now "now"
  let limit ← normalizeLimit limit
  return (listExpiredRows now limit store).foldl
    (fun store listed => recoverExpiredStmt listed now store) store

end Operations

/-! ## Transactions -/

/-- A call of the repository; `wait` is none, time passes. -/
inductive InboundCall
  | accept (acceptance : Acceptance)
  | acceptMany (acceptances : List Acceptance) (telegramPollRevision : Option String)
      (connections : Option (String → Option String))
  | claimDue (input : ClaimDueInput) (randomUUID : Nat → String)
  | renew (token : InboundChannelEventClaimToken) (leaseDurationMs : Int)
  | release (token : InboundChannelEventClaimToken) (nextAttemptAt lastError : Option String)
  | attachLinkage (token : InboundChannelEventClaimToken) (linkage : InboundChannelEventLinkage)
  | beginBotLoopEvaluation (token : InboundChannelEventClaimToken)
  | completeBotLoopEvaluation (token : InboundChannelEventClaimToken)
      (decision : CompletedDecision) (reason : Option String)
  | transitionClaimed (token : InboundChannelEventClaimToken)
      (transition : InboundChannelEventClaimedTransition)
  | recoverExpiredClaims (limit : Option Int)
  | wait

/-- A call at a time, which is given or that of the database, and the claims that it
returns. -/
structure Transaction where
  call : InboundCall
  now : String
  claims : List InboundChannelEventClaimToken

/-- The table, and the latest time of a transaction. -/
structure EventSystem where
  store : EventStore
  clock : String

def EventSystem.initial : EventSystem where
  store := .initial
  clock := ""

section Steps

variable (runtime : EventRuntime)

/-- The claims and the table that a call returns. -/
def InboundCall.perform (now : String) (store : EventStore) :
    InboundCall → Except InboundChannelEventError (List InboundChannelEventClaimToken × EventStore)
  | .accept acceptance => ([], ·) <$> InboundChannelEvents.accept runtime acceptance now store
  | .acceptMany acceptances telegramPollRevision connections =>
      ([], ·) <$> InboundChannelEvents.acceptMany runtime acceptances now telegramPollRevision
        connections store
  | .claimDue input randomUUID =>
      InboundChannelEvents.claimDue runtime input now randomUUID store
  | .renew token leaseDurationMs =>
      ([], ·) <$> InboundChannelEvents.renew runtime token leaseDurationMs now store
  | .release token nextAttemptAt lastError =>
      ([], ·) <$> InboundChannelEvents.release runtime token nextAttemptAt lastError now store
  | .attachLinkage token linkage =>
      ([], ·) <$> InboundChannelEvents.attachLinkage runtime token linkage now store
  | .beginBotLoopEvaluation token =>
      ([], ·) <$> InboundChannelEvents.beginBotLoopEvaluation runtime token now store
  | .completeBotLoopEvaluation token decision reason =>
      ([], ·) <$> InboundChannelEvents.completeBotLoopEvaluation runtime token decision reason now
        store
  | .transitionClaimed token transition =>
      ([], ·) <$> InboundChannelEvents.transitionClaimed runtime token transition now store
  | .recoverExpiredClaims limit =>
      ([], ·) <$> InboundChannelEvents.recoverExpiredClaims runtime limit now store
  | .wait => .ok ([], store)

/-- The time after a transaction, as the statements compare it. -/
def Transaction.clock (transaction : Transaction) (clock : String) : String :=
  match normalizeTimestamp runtime transaction.now "now" with
  | .ok text => text
  | .error _ => clock

/-- One transaction, not before the ones that precede it; it changes nothing when it
throws. -/
def EventSystem.Step (system : EventSystem) (transaction : Transaction) (system' : EventSystem) :
    Prop :=
  timeLe system.clock (transaction.clock runtime system.clock) = true ∧
    system'.clock = transaction.clock runtime system.clock ∧
    match transaction.call.perform runtime transaction.now system.store with
    | .ok (claims, written) => transaction.claims = claims ∧ system'.store = written
    | .error _ => transaction.claims = [] ∧ system'.store = system.store

end Steps

end GoatCitadel.Storage.InboundChannelEvents
