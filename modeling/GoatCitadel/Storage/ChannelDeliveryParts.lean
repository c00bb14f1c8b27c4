import GoatCitadel.Policy.CanonicalJson
import GoatCitadel.Support.Runs

/-!
# The parts of a channel delivery

A delivery is sent in parts.  A part is prepared, may wait for an approval, is
handed to a provider and is finished from the provider's receipt.  Each operation is
one transaction; what it reads of the deliveries and the approvals, others change
between the transactions.
-/

namespace GoatCitadel.Storage.ChannelDeliveryParts

open GoatCitadel.Support
open GoatCitadel.Policy (JsonObject JsonValue canonicalJsonString)

/-! ## Records -/

inductive ChannelDeliveryPartStatus
  | prepared
  | waitingApproval
  | dispatching
  | sent
  | failed
  | manualReconciliationRequired
  deriving DecidableEq

/-- A row of `channel_delivery_parts`, without its key. -/
structure ChannelDeliveryPart where
  deliveryId : String
  attempt : Nat
  partIndex : Nat
  payloadHash : String
  requestHash : String
  claimExpiresAt : String
  status : ChannelDeliveryPartStatus
  approvalId : Option String
  providerDeliveryId : Option String
  revision : Nat
  createdAt : String
  updatedAt : String
  deriving DecidableEq

/-- A row of `comms_deliveries`, as far as the parts read and write it. -/
structure CommsDelivery where
  status : String
  deliveryStatus : String
  attempts : Nat
  payloadHash : String
  nextAttemptAt : Option String
  connectionId : String
  channelKey : String
  target : String
  updatedAt : String
  error : Option String
  staleReason : Option String

/-- An approval joined with its pending action; the JSON columns are what they are
parsed to, when they are. -/
structure ApprovalAction where
  status : String
  expiresAt : String
  kind : String
  payload : Option JsonValue
  actionType : String
  request : Option JsonValue

structure DeliveryStore where
  parts : String → Option ChannelDeliveryPart
  deliveries : String → Option CommsDelivery
  approvals : String → Option ApprovalAction

/-- What the repository takes from the language: `Date.parse` and SHA-256. -/
structure PartRuntime where
  parse : String → Option Int
  sha256 : String → String

inductive ChannelDeliveryPartError
  | invalidBinding
  | conflict (message : String)
  /-- A value that is not what its type says was read. -/
  | typeError

section Operations

variable (runtime : PartRuntime)

/-! ## Requests -/

def digest (value : JsonValue) : String :=
  runtime.sha256 (canonicalJsonString value)

def channelDeliveryPartId (deliveryId : String) (attempt partIndex : Nat) : String :=
  "channel-part-" ++ digest runtime (.object
    [("deliveryId", .string deliveryId), ("attempt", .number (toString attempt)),
     ("partIndex", .number (toString partIndex))])

/-- A member of a value; a value that is not an object has none. -/
def jsonMember (value : JsonValue) (key : String) : Option JsonValue :=
  match value with
  | .object fields => (fields.find? fun member => member.1 = key).map (·.2)
  | _ => none

/-- `value?.key ?? other` -/
def nullish (value other : Option JsonValue) : Option JsonValue :=
  match value with
  | some .null => other
  | some value => some value
  | none => other

/-- `channelDeliveryPartRequestHash` -/
def channelDeliveryPartRequestHash (request : JsonValue) : String :=
  let policyContext := fun key => (jsonMember request "policyContext").bind (jsonMember · key)
  let member := fun (key : String) (value : Option JsonValue) =>
    (value.map fun value => (key, value)).toList
  digest runtime (.object
    (member "toolName" (jsonMember request "toolName") ++
     member "args" (jsonMember request "args") ++
     member "workspaceId" (nullish (jsonMember request "workspaceId")
       (nullish (policyContext "workspaceId") (some (.string "default")))) ++
     member "sessionId" (jsonMember request "sessionId") ++
     member "agentId" (jsonMember request "agentId") ++
     member "taskId" (nullish (jsonMember request "taskId")
       (nullish (policyContext "taskId") (some .null))) ++
     member "runId" (nullish (jsonMember request "runId")
       (nullish (policyContext "runId") (some .null)))))

/-- `isFuture` -/
def isFuture (value now : String) : Bool :=
  match runtime.parse value, runtime.parse now with
  | some value, some now => now < value
  | _, _ => false

/-- `/^[a-f0-9]{64}$/` -/
def isSha256 (text : String) : Bool :=
  text.length = 64 && text.toList.all fun c => c.isDigit || ('a' ≤ c && c ≤ 'f')

/-! ## Checks -/

def requirePart (partId requestHash : String) (store : DeliveryStore) :
    Except ChannelDeliveryPartError ChannelDeliveryPart :=
  match store.parts partId with
  | some part =>
      if part.requestHash ≠ requestHash then
        throw (.conflict "Channel delivery part request identity is missing or changed.")
      else return part
  | none => throw (.conflict "Channel delivery part request identity is missing or changed.")

/-- The payload that was approved, without the linkage of the approval; a payload
that is `null` has no members to delete. -/
def approvedPayload : JsonValue → Option JsonValue
  | .null => none
  | .object fields =>
      some (.object (fields.filter fun member => member.1 ≠ "__gcApprovalLinkage"))
  | value => some value

/-- The request of an approval is that of the part. -/
def assertRequest (partId : String) (part : ChannelDeliveryPart) (request payload : JsonValue) :
    Except ChannelDeliveryPartError Unit :=
  match request with
  | .null => throw .typeError
  | request =>
      match approvedPayload payload with
      | none => throw .typeError
      | some payload =>
          if (jsonMember request "toolRunId").bind JsonValue.asString? ≠ some partId ∨
              (jsonMember request "toolName").bind JsonValue.asString? ≠ some "channel.send" ∨
              channelDeliveryPartRequestHash runtime request ≠ part.requestHash then
            throw (.conflict "Channel delivery approval request identity changed.")
          else
            -- Without arguments the canonical text is that of `null`.
            let args := (jsonMember request "args").getD .null
            if digest runtime payload ≠ digest runtime args then
              throw (.conflict "Channel delivery approval request identity changed.")
            else return ()

def assertApproval (partId : String) (part : ChannelDeliveryPart) (approvalId status now : String)
    (store : DeliveryStore) : Except ChannelDeliveryPartError Unit :=
  match store.approvals approvalId with
  | none => throw (.conflict "Channel delivery has no matching current approval action.")
  | some approval =>
      if approval.status ≠ status ∨ isFuture runtime approval.expiresAt now = false ∨
          approval.kind ≠ "channel.send" ∨ approval.actionType ≠ "tool.invoke" then
        throw (.conflict "Channel delivery has no matching current approval action.")
      else
        match approval.request, approval.payload with
        | some request, some payload => assertRequest runtime partId part request payload
        | _, _ => throw .typeError

/-- What the queue knows of a part. -/
structure PartClaim where
  deliveryId : String
  attempt : Nat
  payloadHash : String
  claimExpiresAt : String

def ChannelDeliveryPart.claim (part : ChannelDeliveryPart) : PartClaim where
  deliveryId := part.deliveryId
  attempt := part.attempt
  payloadHash := part.payloadHash
  claimExpiresAt := part.claimExpiresAt

def assertActiveParent (part : PartClaim) (now : String) (requireLease : Bool)
    (store : DeliveryStore) : Except ChannelDeliveryPartError Unit :=
  match store.deliveries part.deliveryId with
  | none => throw (.conflict "Channel delivery part does not own the current queue attempt.")
  | some parent =>
      if parent.status ≠ "queued" ∨ parent.attempts ≠ part.attempt ∨
          parent.payloadHash ≠ part.payloadHash ∨
          (requireLease = true ∧ (parent.nextAttemptAt ≠ some part.claimExpiresAt ∨
            isFuture runtime part.claimExpiresAt now = false)) then
        throw (.conflict "Channel delivery part does not own the current queue attempt.")
      else return ()

/-! ## Writing -/

namespace DeliveryStore

/-- An update of a part whose row passes the guard; nothing when it does not. -/
def updatePart (partId : String) (guard : ChannelDeliveryPart → Bool)
    (set : ChannelDeliveryPart → ChannelDeliveryPart) (store : DeliveryStore) :
    Option DeliveryStore :=
  match store.parts partId with
  | some part =>
      if guard part = true then
        some { store with
          parts := fun id => if id = partId then some (set part) else store.parts id }
      else none
  | none => none

/-- An update of a delivery whose row passes the guard; nothing when it does not. -/
def updateDelivery (deliveryId : String) (guard : CommsDelivery → Bool)
    (set : CommsDelivery → CommsDelivery) (store : DeliveryStore) : Option DeliveryStore :=
  match store.deliveries deliveryId with
  | some delivery =>
      if guard delivery = true then
        some { store with
          deliveries := fun id =>
            if id = deliveryId then some (set delivery) else store.deliveries id }
      else none
  | none => none

end DeliveryStore

/-- The row that `waitStmt` sets. -/
def waitingRow (approvalId now : String) (part : ChannelDeliveryPart) : ChannelDeliveryPart :=
  { part with
    status := .waitingApproval
    approvalId := some approvalId
    revision := part.revision + 1
    updatedAt := now }

/-- `waitStmt` -/
def waitStmt (partId requestHash approvalId now : String) (revision : Nat) :
    DeliveryStore → Option DeliveryStore :=
  DeliveryStore.updatePart partId
    (fun part => part.revision = revision && part.status = .prepared &&
      part.requestHash = requestHash)
    (waitingRow approvalId now)

/-- The row of a delivery that waits for an approval. -/
def waitingDelivery (nextAttemptAt now : String) (delivery : CommsDelivery) : CommsDelivery :=
  { delivery with
    deliveryStatus := "waiting_approval"
    nextAttemptAt := some nextAttemptAt
    updatedAt := now
    error := none
    staleReason := none }

/-- The delivery is queued in the attempt of the part. -/
def inAttempt (part : PartClaim) (delivery : CommsDelivery) : Bool :=
  delivery.status = "queued" && delivery.attempts = part.attempt &&
    delivery.payloadHash = part.payloadHash

/-- `waitParentStmt` -/
def waitParentStmt (part : PartClaim) (now : String) : DeliveryStore → Option DeliveryStore :=
  DeliveryStore.updateDelivery part.deliveryId
    (fun delivery => inAttempt part delivery &&
      delivery.nextAttemptAt = some part.claimExpiresAt)
    (waitingDelivery now now)

/-- The part was not handed to a provider. -/
def ChannelDeliveryPart.isOpen (part : ChannelDeliveryPart) : Bool :=
  part.status = .prepared || part.status = .waitingApproval

/-- The row that `providerStmt` sets. -/
def dispatchingRow (providerDeliveryId now : String) (part : ChannelDeliveryPart) :
    ChannelDeliveryPart :=
  { part with
    status := .dispatching
    providerDeliveryId := some providerDeliveryId
    revision := part.revision + 1
    updatedAt := now }

/-- `providerStmt` -/
def providerStmt (partId requestHash providerDeliveryId now : String) (revision : Nat) :
    DeliveryStore → Option DeliveryStore :=
  DeliveryStore.updatePart partId
    (fun part => part.revision = revision && part.isOpen && part.requestHash = requestHash)
    (dispatchingRow providerDeliveryId now)

/-- The row that `finishStmt` and `rejectStmt` set. -/
def closedRow (status : ChannelDeliveryPartStatus) (now : String) (part : ChannelDeliveryPart) :
    ChannelDeliveryPart :=
  { part with status := status, revision := part.revision + 1, updatedAt := now }

/-- `finishStmt` -/
def finishStmt (partId providerDeliveryId now : String) (revision : Nat)
    (status : ChannelDeliveryPartStatus) : DeliveryStore → Option DeliveryStore :=
  DeliveryStore.updatePart partId
    (fun part => part.revision = revision && part.status = .dispatching &&
      part.providerDeliveryId = some providerDeliveryId)
    (closedRow status now)

/-- `rejectStmt` -/
def rejectStmt (partId now : String) (revision : Nat) : DeliveryStore → Option DeliveryStore :=
  DeliveryStore.updatePart partId
    (fun part => part.revision = revision && part.isOpen)
    (closedRow .failed now)

/-! ## Operations -/

structure PrepareInput where
  deliveryId : String
  attempt : Nat
  partIndex : Nat
  payloadHash : String
  requestHash : String
  claimExpiresAt : String

/-- The row that `insertStmt` inserts. -/
def preparedRow (input : PrepareInput) (now : String) : ChannelDeliveryPart where
  deliveryId := input.deliveryId
  attempt := input.attempt
  partIndex := input.partIndex
  payloadHash := input.payloadHash
  requestHash := input.requestHash
  claimExpiresAt := input.claimExpiresAt
  status := .prepared
  approvalId := none
  providerDeliveryId := none
  revision := 1
  createdAt := now
  updatedAt := now

def prepare (input : PrepareInput) (now : String) (store : DeliveryStore) :
    Except ChannelDeliveryPartError (ChannelDeliveryPart × DeliveryStore) := do
  if input.attempt < 1 ∨ 9007199254740991 < input.attempt ∨ 2048 ≤ input.partIndex ∨
      isSha256 input.payloadHash = false ∨ isSha256 input.requestHash = false then
    throw .invalidBinding
  else
    let partId := channelDeliveryPartId runtime input.deliveryId input.attempt input.partIndex
    match store.parts partId with
    | some existing =>
        if existing.requestHash ≠ input.requestHash ∨ existing.payloadHash ≠ input.payloadHash then
          throw (.conflict "Channel delivery part material changed.")
        else return (existing, store)
    | none =>
        let row := preparedRow input now
        let _ ← assertActiveParent runtime row.claim now true store
        return (row, { store with
          parts := fun id => if id = partId then some row else store.parts id })

def bindApproval (partId requestHash approvalId now : String) (store : DeliveryStore) :
    Except ChannelDeliveryPartError (ChannelDeliveryPart × DeliveryStore) := do
  let part ← requirePart partId requestHash store
  if part.status = .waitingApproval ∧ part.approvalId = some approvalId then
    return (part, store)
  else
    let _ ← assertActiveParent runtime part.claim now true store
    let _ ← assertApproval runtime partId part approvalId "pending" now store
    match (waitStmt partId requestHash approvalId now part.revision store).bind
        (waitParentStmt part.claim now) with
    | none => throw (.conflict "Channel delivery lost its approval handoff claim.")
    | some written => return (waitingRow approvalId now part, written)

/-- The provider's delivery is new, and to the target of its parent. -/
def isProviderOf (deliveryId providerDeliveryId : String) (store : DeliveryStore) : Bool :=
  match store.deliveries providerDeliveryId, store.deliveries deliveryId with
  | some provider, some parent =>
      providerDeliveryId ≠ deliveryId && provider.status = "queued" &&
        provider.attempts = 0 && provider.connectionId = parent.connectionId &&
        provider.channelKey = parent.channelKey && provider.target = parent.target
  | _, _ => false

/-- The approval that a part waits for is checked; other parts have none. -/
def assertWaitedApproval (partId : String) (part : ChannelDeliveryPart) (now : String)
    (store : DeliveryStore) : Except ChannelDeliveryPartError Unit :=
  if part.status = .waitingApproval then
    match part.approvalId with
    | some approvalId => assertApproval runtime partId part approvalId "approved" now store
    | none => throw (.conflict "Channel delivery has no matching current approval action.")
  else return ()

def attachProvider (partId requestHash providerDeliveryId now : String) (store : DeliveryStore) :
    Except ChannelDeliveryPartError (ChannelDeliveryPart × DeliveryStore) := do
  let part ← requirePart partId requestHash store
  let _ ← assertActiveParent runtime part.claim now (part.status = .prepared) store
  let _ ← assertWaitedApproval runtime partId part now store
  if isProviderOf part.deliveryId providerDeliveryId store = false then
    throw (.conflict "Channel provider receipt does not belong to this delivery.")
  else
    match providerStmt partId requestHash providerDeliveryId now part.revision store with
    | none => throw (.conflict "Channel delivery part already dispatched or lost its claim.")
    | some written => return (dispatchingRow providerDeliveryId now part, written)

/-- The states a part is finished in. -/
inductive FinishStatus
  | sent
  | failed
  | manualReconciliationRequired

def FinishStatus.partStatus : FinishStatus → ChannelDeliveryPartStatus
  | .sent => .sent
  | .failed => .failed
  | .manualReconciliationRequired => .manualReconciliationRequired

/-- The provider's receipt is one of the state. -/
def receiptMatches (status : FinishStatus) (provider : CommsDelivery) : Bool :=
  match status with
  | .sent => provider.status = "sent" && provider.deliveryStatus = "sent"
  | .failed =>
      provider.status = "failed" && provider.deliveryStatus ≠ "manual_reconciliation_required"
  | .manualReconciliationRequired =>
      provider.status = "failed" && provider.deliveryStatus = "manual_reconciliation_required"

/-- An update that answers whether it changed a row. -/
def changes (store : DeliveryStore) : Option DeliveryStore → Bool × DeliveryStore
  | some written => (true, written)
  | none => (false, store)

def finish (partId providerDeliveryId : String) (revision : Nat) (status : FinishStatus)
    (now : String) (store : DeliveryStore) :
    Except ChannelDeliveryPartError (Bool × DeliveryStore) :=
  match store.deliveries providerDeliveryId with
  | some provider =>
      if receiptMatches status provider = false then
        throw (.conflict "Channel delivery part has no matching terminal provider receipt.")
      else
        return changes store
          (finishStmt partId providerDeliveryId now revision status.partStatus store)
  | none => throw (.conflict "Channel delivery part has no matching terminal provider receipt.")

def park (partId claimExpiresAt nextAttemptAt now : String) (store : DeliveryStore) :
    Bool × DeliveryStore :=
  match store.parts partId with
  | none => (false, store)
  | some part =>
      if part.approvalId = none ∨ part.approvalId = some "" ∨ part.status = .prepared then
        (false, store)
      else
        changes store (store.updateDelivery part.deliveryId
          (fun delivery => inAttempt part.claim delivery &&
            (delivery.nextAttemptAt = some claimExpiresAt ||
              delivery.deliveryStatus = "waiting_approval"))
          (waitingDelivery nextAttemptAt now))

def reject (partId : String) (revision : Nat) (now : String) (store : DeliveryStore) :
    Bool × DeliveryStore :=
  changes store (rejectStmt partId now revision store)

end Operations

end GoatCitadel.Storage.ChannelDeliveryParts
