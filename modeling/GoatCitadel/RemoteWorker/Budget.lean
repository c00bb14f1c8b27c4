import Mathlib.Data.List.Sort
import Mathlib.Data.Prod.Lex
import GoatCitadel.RemoteWorker.BudgetRecords
import GoatCitadel.Support.Text

/-!
# The worker budget repository

Each operation is one transaction over the budget tables.  A request holds two
attempts and the most they may cost before it is dispatched; each dispatch that
belongs to it, by a helper or by a tool, holds one more request.  What is
available of a grant is computed anew each time, from the rows of all three
tables.

The operations read inference requests and usage events as they find them.  A
transaction that throws is rolled back.
-/

namespace GoatCitadel.RemoteWorker

open GoatCitadel.Support
open GoatCitadel.Contracts (isModelUsageProvenNotDispatched)

/-! ## Tables -/

/-- The status of a row, with what its settlement records. -/
inductive RowStatus (α : Type)
  | held
  | settled (usage : α) (closedAt : String)
  | released (closedAt : String)

namespace RowStatus

variable {α : Type}

def isHeld : RowStatus α → Bool
  | .held => true
  | _ => false

def isSettled : RowStatus α → Bool
  | .settled _ _ => true
  | _ => false

/-- The hold of a row that set `reserved` aside. -/
def hold (used : α → Nat) (reserved : Nat) : RowStatus α → Hold
  | .held => ⟨reserved, .held⟩
  | .settled usage _ => ⟨reserved, .settled (used usage)⟩
  | .released _ => ⟨reserved, .released⟩

end RowStatus

/-- What a settled reservation used. -/
structure ReservationUsage where
  requests : Nat
  costMicrousd : Nat
  usageEventIdsSha256 : String

/-- A row of `remote_worker_budget_reservations`. -/
structure Reservation where
  reservationId : String
  grantId : String
  operationId : String
  dispatchGeneration : String
  operationSha256 : String
  receipt : Receipt
  reservedRequests : Nat
  reservedCostMicrousd : Nat
  status : RowStatus ReservationUsage
  createdAt : String

/-- `SET status = ?`, with what goes with the status. -/
def Reservation.withStatus (row : Reservation) (status : RowStatus ReservationUsage) :
    Reservation :=
  { row with status }

/-- The requests of a reservation. -/
def Reservation.requests (row : Reservation) : Hold :=
  row.status.hold (·.requests) row.reservedRequests

/-- The money of a reservation. -/
def Reservation.cost (row : Reservation) : Hold :=
  row.status.hold (·.costMicrousd) row.reservedCostMicrousd

/-- A row of one of the two tables of dispatches, which differ in what a
dispatch is made for. -/
structure Dispatch (α : Type) where
  usageEventId : String
  owner : α
  grantId : String
  route : EffectiveRoute
  routeSha256 : String
  reservedCostMicrousd : Nat
  status : RowStatus Nat
  createdAt : String

/-- `SET status = ?`, with what goes with the status. -/
def Dispatch.withStatus {α : Type} (row : Dispatch α) (status : RowStatus Nat) :
    Dispatch α :=
  { row with status }

/-- A dispatch is one request. -/
def Dispatch.requests {α : Type} (row : Dispatch α) : Hold :=
  row.status.hold (fun _ => 1) 1

/-- The money of a dispatch. -/
def Dispatch.cost {α : Type} (row : Dispatch α) : Hold :=
  row.status.hold id row.reservedCostMicrousd

/-- The tool intent that a tool dispatch is made for. -/
structure ToolIntent where
  registryWorkspaceId : String
  assignmentId : String
  assignmentGeneration : Nat
  intentId : String
  intentSha256 : String
  authority : UsageAuthority
  authoritySha256 : String
  deriving DecidableEq

/-- The budget tables.  A related dispatch is made for a parent reservation. -/
structure Budgets where
  grants : List Grant
  reservations : List Reservation
  dispatches : List (Dispatch String)
  toolDispatches : List (Dispatch ToolIntent)

def Budgets.initial : Budgets where
  grants := []
  reservations := []
  dispatches := []
  toolDispatches := []

/-- What the operations read of other repositories. -/
structure Records where
  /-- `findOperationForUpdate` -/
  request : String → String → Except String (Option InferenceRequest)
  /-- `listOperationAttemptsForUpdate` -/
  attempts : String → String → List UsageEvent
  /-- `findByEventIdForUpdate` -/
  usage : String → Option UsageEvent

namespace Budgets

def getGrant (budgets : Budgets) (grantId : String) : Option Grant :=
  budgets.grants.find? (·.terms.grantId = grantId)

def requireGrant (budgets : Budgets) (grantId : String) : Except String Grant :=
  match budgets.getGrant grantId with
  | some grant => return grant
  | none => throw "An explicit operator worker budget grant is required."

/-- The reservation of an operation. -/
def reservationOf (budgets : Budgets) (operationId dispatchGeneration : String) :
    Option Reservation :=
  budgets.reservations.find? fun row =>
    row.operationId = operationId ∧ row.dispatchGeneration = dispatchGeneration

def getReservation (budgets : Budgets) (reservationId : String) : Option Reservation :=
  budgets.reservations.find? (·.reservationId = reservationId)

def getDispatch (budgets : Budgets) (usageEventId : String) : Option (Dispatch String) :=
  budgets.dispatches.find? (·.usageEventId = usageEventId)

def getToolDispatch (budgets : Budgets) (usageEventId : String) :
    Option (Dispatch ToolIntent) :=
  budgets.toolDispatches.find? (·.usageEventId = usageEventId)

/-- The requests held and settled under a grant. -/
def requestHolds (budgets : Budgets) (grantId : String) : List Hold :=
  (budgets.reservations.filter (·.grantId = grantId)).map Reservation.requests ++
    ((budgets.dispatches.filter (·.grantId = grantId)).map Dispatch.requests ++
      (budgets.toolDispatches.filter (·.grantId = grantId)).map Dispatch.requests)

/-- The money held and settled under a grant. -/
def costHolds (budgets : Budgets) (grantId : String) : List Hold :=
  (budgets.reservations.filter (·.grantId = grantId)).map Reservation.cost ++
    ((budgets.dispatches.filter (·.grantId = grantId)).map Dispatch.cost ++
      (budgets.toolDispatches.filter (·.grantId = grantId)).map Dispatch.cost)

end Budgets

/-- `RemoteWorkerBudgetBalance`, without its grant. -/
structure Balance where
  heldRequests : Nat
  heldCostMicrousd : Nat
  settledRequests : Nat
  settledCostMicrousd : Nat
  availableRequests : Nat
  availableCostMicrousd : Nat

/-- `balance` -/
def Budgets.balance (budgets : Budgets) (grant : Grant) (now : String) :
    Except String Balance :=
  let heldRequests := Hold.total Hold.held (budgets.requestHolds grant.terms.grantId)
  let heldCostMicrousd := Hold.total Hold.held (budgets.costHolds grant.terms.grantId)
  let settledRequests := Hold.total Hold.settled (budgets.requestHolds grant.terms.grantId)
  let settledCostMicrousd := Hold.total Hold.settled (budgets.costHolds grant.terms.grantId)
  if maxSafeInteger < heldRequests ∨ maxSafeInteger < heldCostMicrousd ∨
      maxSafeInteger < settledRequests ∨ maxSafeInteger < settledCostMicrousd then
    throw "Worker budget balance is out of range."
  else
    let active := isSet grant.revokedAt = false ∧ now < grant.terms.expiresAt
    return { heldRequests, heldCostMicrousd, settledRequests, settledCostMicrousd
             availableRequests :=
               if active then grant.terms.maxRequests - heldRequests - settledRequests
               else 0
             availableCostMicrousd :=
               if active then
                 grant.terms.maxCostMicrousd - heldCostMicrousd - settledCostMicrousd
               else 0 }

/-! ## Writes -/

namespace Budgets

/-- `INSERT INTO remote_worker_budget_reservations`, under its unique indexes. -/
def insertReservation (row : Reservation) (budgets : Budgets) : Except String Budgets :=
  if (budgets.getReservation row.reservationId).isSome = true ∨
      (budgets.reservationOf row.operationId row.dispatchGeneration).isSome = true then
    throw "UNIQUE constraint failed: remote_worker_budget_reservations"
  else return { budgets with reservations := budgets.reservations ++ [row] }

/-- Close the rows of a table that have the key and are held. -/
def closeRows {ρ α : Type} (key : ρ → String) (status : ρ → RowStatus α)
    (set : ρ → RowStatus α → ρ) (id : String) (closed : RowStatus α) (rows : List ρ) :
    List ρ :=
  rows.map fun row =>
    if key row = id ∧ (status row).isHeld = true then set row closed else row

/-- `UPDATE remote_worker_budget_reservations … WHERE reservation_id = ? AND status = 'held'` -/
def closeReservation (reservationId : String) (closed : RowStatus ReservationUsage)
    (budgets : Budgets) : Budgets :=
  { budgets with
    reservations := closeRows Reservation.reservationId Reservation.status
      Reservation.withStatus reservationId closed budgets.reservations }

/-- `UPDATE remote_worker_budget_dispatches … WHERE usage_event_id = ? AND status = 'held'` -/
def closeDispatch (usageEventId : String) (closed : RowStatus Nat) (budgets : Budgets) :
    Budgets :=
  { budgets with
    dispatches := closeRows Dispatch.usageEventId Dispatch.status
      Dispatch.withStatus usageEventId closed budgets.dispatches }

/-- `UPDATE remote_worker_tool_budget_dispatches … WHERE usage_event_id = ? AND status = 'held'` -/
def closeToolDispatch (usageEventId : String) (closed : RowStatus Nat)
    (budgets : Budgets) : Budgets :=
  { budgets with
    toolDispatches := closeRows Dispatch.usageEventId Dispatch.status
      Dispatch.withStatus usageEventId closed budgets.toolDispatches }

end Budgets

/-! ## Grants -/

section

variable (runtime : BudgetRuntime) (digests : Digests)

/-- `assertGrantReplay`; the identity of a grant is its terms and its operator. -/
def assertGrantReplay (grant : Grant) (terms : GrantTerms) (operatorId : String) :
    Except String Grant :=
  if grant.terms ≠ terms ∨ grant.operatorId ≠ operatorId then
    throw "Worker budget grant replay changed."
  else return grant

def createGrant (input : GrantInput) (operatorId now : String) (budgets : Budgets) :
    Except String (Grant × Budgets) := do
  let terms ← normalizeRemoteWorkerBudgetGrant runtime input
  let operatorId ← normalizeRemoteWorkerBudgetOperatorId runtime operatorId
  match budgets.getGrant terms.grantId with
  | some existing => return (← assertGrantReplay existing terms operatorId, budgets)
  | none =>
      if terms.expiresAt ≤ now ∨
          86400000 < runtime.parseDate terms.expiresAt - runtime.parseDate now then
        throw "Worker budget grants must expire within 24 hours."
      else
        let grant : Grant :=
          { terms, operatorId, createdAt := now, revokedAt := none, revision := 1 }
        return (grant, { budgets with grants := budgets.grants ++ [grant] })

def revokeGrant (grantId : String) (expectedRevision : Nat) (now : String)
    (budgets : Budgets) : Except String (Grant × Budgets) := do
  let grant ← budgets.requireGrant grantId
  if isSet grant.revokedAt = true ∧ (expectedRevision : Int) = grant.revision - 1 then
    return (grant, budgets)
  else if grant.revision ≠ expectedRevision ∨ isSet grant.revokedAt = true then
    throw "Worker budget revision changed."
  else
    let budgets := { budgets with
      grants := budgets.grants.map fun row =>
        if row.terms.grantId = grantId ∧ row.revision = expectedRevision then
          { row with revokedAt := some now, revision := row.revision + 1 }
        else row }
    return (← budgets.requireGrant grantId, budgets)

/-! ## Checks -/

def requireOperation (records : Records) (operationId dispatchGeneration : String) :
    Except String InferenceRequest := do
  match ← records.request operationId dispatchGeneration with
  | some request => return request
  | none => throw "Worker budget requires a canonical admitted inference operation."

def assertScope (grant : Grant) (request : InferenceRequest) : Except String Unit :=
  if grant.terms.registryWorkspaceId ≠ request.registryWorkspaceId ∨
      some grant.terms.executionWorkspaceId ≠ request.executionWorkspaceId ∨
      grant.terms.workerId ≠ request.workerId ∨
      grant.terms.workerGeneration ≠ request.workerGeneration then
    throw "Worker budget grant scope mismatch."
  else return ()

/-- `remoteWorkerInferenceEffectiveRouteSha256` -/
def effectiveRouteSha256 (route : EffectiveRoute) : Except String String := do
  let route ← normalizeRemoteWorkerInferenceEffectiveRouteReceipt runtime route
  return digests.route route

/-- `route`: the route that the request was admitted with. -/
def requestRoute (request : InferenceRequest) : Except String EffectiveRoute := do
  match request.effectiveRouteJson with
  | none => throw "Worker budget requires canonical route pricing."
  | some json =>
      let route ← normalizeRemoteWorkerInferenceEffectiveRouteReceipt runtime (← json)
      if (← effectiveRouteSha256 runtime digests route) ≠ request.effectiveRouteSha256 then
        throw "Worker budget route digest mismatch."
      else return route

/-- The event belongs to the operation of the request, or to a helper of it. -/
def usageBelongs (usage : UsageEvent) (request : InferenceRequest) (related : Bool) : Bool :=
  match related with
  | true => usage.operationId ≠ request.operationId &&
      usage.parentOperationId = some request.operationId
  | false => usage.operationId = request.operationId &&
      usage.dispatchGeneration = request.dispatchGeneration

def assertUsageScope (usage : UsageEvent) (request : InferenceRequest)
    (route : EffectiveRoute) (related : Bool) : Except String Unit :=
  if usageBelongs usage request related = false ∨
      usage.workspaceId ≠ request.executionWorkspaceId ∨
      usage.sessionId ≠ some request.sessionId ∨ usage.turnId ≠ some request.turnId ∨
      usage.durableRunId ≠ request.durableRunId ∨ usage.taskId ≠ request.taskId ∨
      usage.workerId ≠ some request.workerId ∨
      usage.contextIntentHash ≠ some request.routedContextSha256 then
    throw "Worker budget usage is bound to different authority or pricing."
  else assertWorkerBudgetUsagePricing usage route

/-- The row of a receipt, and the request that it was reserved for. -/
def boundReservation (records : Records) (receipt : Receipt) (budgets : Budgets) :
    Except String (Reservation × InferenceRequest) := do
  let _ ← normalizeRemoteWorkerInferenceBudgetReservation runtime receipt
  match budgets.getReservation receipt.reservationId with
  | none => throw "Worker budget receipt does not match its owner."
  | some row =>
      if row.receipt ≠ receipt then
        throw "Worker budget receipt does not match its owner."
      else
        let request ← requireOperation records row.operationId row.dispatchGeneration
        return (row, request)

/-! ## Reservations -/

/-- The clock, as `reserve` and `balance` read it once the grant is locked. -/
structure GrantClock where
  now : String
  balanceNow : String

structure ReserveInput where
  operation : BudgetOperation
  operationSha256 : String

/-- The operation is the one that was admitted. -/
def assertAdmittedOperation (request : InferenceRequest) (operationSha256 : String) :
    Except String Unit :=
  match request.budgetOperationJson with
  | none => throw "Worker budget operation differs from admitted authority."
  | some json =>
      if request.budgetOperationSha256 ≠ some operationSha256 ∨ json = "" ∨
          runtime.canonicalTextSha256 json ≠ operationSha256 then
        throw "Worker budget operation differs from admitted authority."
      else return ()

/-- The row of the first reservation of an operation. -/
def reservationRow (input : ReserveInput) (grant : Grant) (cost : Nat)
    (receipt : Receipt) (now : String) : Reservation where
  reservationId := receipt.reservationId
  grantId := grant.terms.grantId
  operationId := input.operation.operationId
  dispatchGeneration := input.operation.dispatchGeneration
  operationSha256 := input.operationSha256
  receipt := receipt
  reservedRequests := maxAttempts
  reservedCostMicrousd := cost
  status := .held
  createdAt := now

/-- When the governance of a request expires. -/
def InferenceRequest.governanceExpiry (request : InferenceRequest) : String :=
  request.continuationGovernanceExpiresAt.getD request.governanceExpiresAt

/-- The part of `reserve` for an operation that has no reservation yet. -/
def reserveFirst (input : ReserveInput) (grant : Grant) (request : InferenceRequest)
    (clock : GrantClock) (reservationId : String) (budgets : Budgets) :
    Except String (Option Receipt × Budgets) := do
  if isSet grant.revokedAt = true ∨ grant.terms.expiresAt ≤ clock.now ∨
      request.governanceExpiry ≤ clock.now then
    return (none, budgets)
  else if request.state ≠ .admitted ∨
      request.budgetAuthorityState ≠ .reservationPending then
    throw "Worker inference is not awaiting budget authority."
  else
    let route ← requestRoute runtime digests request
    let cost ← reservationCost runtime route input.operation.outputTokenCeiling
      input.operation.reasoningTokenCeiling maxAttempts
    let balance ← budgets.balance grant clock.balanceNow
    if balance.availableRequests < maxAttempts ∨ balance.availableCostMicrousd < cost then
      return (none, budgets)
    else
      let receipt ← normalizeRemoteWorkerInferenceBudgetReservation runtime
        { schemaVersion := budgetSchemaVersion
          budgetOwnerId := budgetOwnerId
          reservationId := reservationId
          operationId := input.operation.operationId
          operationSha256 := input.operationSha256
          requestSha256 := input.operation.requestSha256
          effectiveRouteSha256 := input.operation.effectiveRouteSha256
          reservedOutputTokens := input.operation.outputTokenCeiling
          reservedReasoningTokens := input.operation.reasoningTokenCeiling
          reservedCostMicrousd := cost
          expiresAt :=
            if grant.terms.expiresAt < request.governanceExpiry then grant.terms.expiresAt
            else request.governanceExpiry }
      let budgets ← budgets.insertReservation
        (reservationRow input grant cost receipt clock.now)
      return (some receipt, budgets)

def reserve (records : Records) (input : ReserveInput) (grantId : String)
    (clock : GrantClock) (reservationId : String) (budgets : Budgets) :
    Except String (Option Receipt × Budgets) := do
  if (← digests.operation input.operation) ≠ input.operationSha256 then
    throw "Worker budget operation digest mismatch."
  else
    let request ← requireOperation records input.operation.operationId
      input.operation.dispatchGeneration
    let _ ← assertAdmittedOperation runtime request input.operationSha256
    let grant ← budgets.requireGrant grantId
    let _ ← assertScope grant request
    match budgets.reservationOf input.operation.operationId
        input.operation.dispatchGeneration with
    | some prior =>
        if prior.grantId ≠ grant.terms.grantId ∨
            prior.operationSha256 ≠ input.operationSha256 then
          throw "Worker budget reservation replay changed."
        else
          let receipt ←
            normalizeRemoteWorkerInferenceBudgetReservation runtime prior.receipt
          return (some receipt, budgets)
    | none =>
        reserveFirst runtime digests input grant request clock reservationId budgets

/-- `ORDER BY expires_at, grant_id LIMIT 100` -/
def spendingOrder (grants : List Grant) : List Grant :=
  (grants.mergeSort fun a b =>
    a.terms.expiresAt < b.terms.expiresAt ||
      (a.terms.expiresAt = b.terms.expiresAt && a.terms.grantId ≤ b.terms.grantId)).take 100

/-- The grants of the worker of a request that are neither revoked nor expired. -/
def matchingGrants (budgets : Budgets) (request : InferenceRequest) (now : String) :
    List Grant :=
  spendingOrder (budgets.grants.filter fun grant =>
    grant.terms.registryWorkspaceId = request.registryWorkspaceId &&
      some grant.terms.executionWorkspaceId = request.executionWorkspaceId &&
      grant.terms.workerId = request.workerId &&
      grant.terms.workerGeneration = request.workerGeneration &&
      grant.revokedAt.isNone && now < grant.terms.expiresAt)

/-- The clock readings and the identifier that `reserve` uses for a grant. -/
structure GrantReadings where
  clock : String → GrantClock
  reservationId : String → String

/-- The loop over the grants of a worker. -/
def reserveFromGrants (records : Records) (input : ReserveInput)
    (readings : GrantReadings) (budgets : Budgets) :
    List Grant → Except String (Option Receipt × Budgets)
  | [] => return (none, budgets)
  | grant :: grants => do
      let (reservation, budgets) ← reserve runtime digests records input
        grant.terms.grantId (readings.clock grant.terms.grantId)
        (readings.reservationId grant.terms.grantId) budgets
      match reservation with
      | some receipt => return (some receipt, budgets)
      | none => reserveFromGrants records input readings budgets grants

def reserveForWorker (records : Records) (input : ReserveInput) (now : String)
    (readings : GrantReadings) (budgets : Budgets) :
    Except String (Option Receipt × Budgets) := do
  let request ← requireOperation records input.operation.operationId
    input.operation.dispatchGeneration
  match budgets.reservationOf request.operationId request.dispatchGeneration with
  | some prior =>
      reserve runtime digests records input prior.grantId
        (readings.clock prior.grantId) (readings.reservationId prior.grantId) budgets
  | none =>
      reserveFromGrants runtime digests records input readings budgets
        (matchingGrants budgets request now)

/-! ## Related dispatches -/

/-- The output cap of an intent that may be dispatched now. -/
def currentIntentCap (usage : UsageEvent) : Option Nat :=
  if usage.source ≠ .llmService ∨ usage.transportStatus ≠ .intent ∨
      usage.terminalOutcome ≠ .inFlight ∨ isSet usage.finishedAt = true then none
  else
    match usage.effectiveOutputTokenCap.bind safeInteger? with
    | some cap => if cap ≤ 0 then none else some cap.toNat
    | none => none

/-- The part of `authorizeRelatedAttempt` for an event without a dispatch. -/
def authorizeFirstRelatedAttempt (usageEventId : String) (route : EffectiveRoute)
    (row : Reservation) (grant : Grant) (cap : Nat) (clock : GrantClock)
    (budgets : Budgets) : Except String Budgets := do
  let cost ← reservationCost runtime route cap 0 1
  let balance ← budgets.balance grant clock.balanceNow
  if balance.availableRequests < 1 ∨ balance.availableCostMicrousd < cost then
    throw "Worker budget has insufficient capacity for this related dispatch."
  else
    let routeSha256 ← effectiveRouteSha256 runtime digests route
    let dispatch : Dispatch String :=
      { usageEventId, owner := row.reservationId, grantId := row.grantId, route,
        routeSha256, reservedCostMicrousd := cost, status := .held, createdAt := clock.now }
    return { budgets with dispatches := budgets.dispatches ++ [dispatch] }

def authorizeRelatedAttempt (records : Records) (reservation : Receipt)
    (usageEventId : String) (route : EffectiveRoute) (clock : GrantClock)
    (budgets : Budgets) : Except String Budgets := do
  let route ← normalizeRemoteWorkerInferenceEffectiveRouteReceipt runtime route
  let (row, request) ← boundReservation runtime records reservation budgets
  let grant ← budgets.requireGrant row.grantId
  if row.status.isHeld = false ∨ isSet grant.revokedAt = true ∨
      reservation.expiresAt ≤ clock.now ∨
      request.budgetReservationId ≠ some row.reservationId ∨
      request.budgetAuthorityState ≠ .reserved ∨
      (request.state ≠ .dispatchClaimed ∧ request.state ≠ .streaming) then
    throw "Worker budget dispatch authority is not current."
  else
    match records.usage usageEventId with
    | none =>
        throw "Worker budget requires a current canonical related dispatch intent."
    | some usage =>
        match currentIntentCap usage with
        | none =>
            throw "Worker budget requires a current canonical related dispatch intent."
        | some cap =>
            let _ ← assertUsageScope usage request route true
            match budgets.getDispatch usageEventId with
            | some prior =>
                if prior.owner ≠ row.reservationId ∨ prior.grantId ≠ row.grantId ∨
                    prior.route ≠ route ∨ prior.status.isHeld = false then
                  throw "Worker related dispatch reservation replay changed."
                else return budgets
            | none =>
                authorizeFirstRelatedAttempt runtime digests usageEventId route row grant
                  cap clock budgets

/-- The status that an event closes its dispatch with; nothing while its usage
is uncertain. -/
def dispatchClosing (kind : String) (usage : UsageEvent) (now : String) :
    Except String (Option (RowStatus Nat)) :=
  if isModelUsageProvenNotDispatched usage.dispatchRecord = true then return some (.released now)
  else
    match accountedCost runtime usage with
    | none => return none
    | some cost =>
        if maxSafeInteger < cost then
          throw s!"Worker {kind} cost is out of range."
        else return some (.settled cost now)

/-- One turn of the loop of `reconcileRelatedAttempts`. -/
def reconcileRelatedAttempt (records : Records) (request : InferenceRequest)
    (now : String) (dispatch : Dispatch String) (budgets : Budgets) :
    Except String Budgets := do
  match records.usage dispatch.usageEventId with
  | none => throw "Worker related dispatch usage is unavailable."
  | some usage =>
      let route ←
        normalizeRemoteWorkerInferenceEffectiveRouteReceipt runtime dispatch.route
      if (← effectiveRouteSha256 runtime digests route) ≠ dispatch.routeSha256 then
        throw "Worker related dispatch route digest mismatch."
      else
        let _ ← assertUsageScope usage request route true
        match ← dispatchClosing runtime "related dispatch" usage now with
        | none => return budgets
        | some closed => return budgets.closeDispatch dispatch.usageEventId closed

/-- The loop over the held dispatches of a reservation. -/
def reconcileDispatches (records : Records) (request : InferenceRequest)
    (now : String → String) : List (Dispatch String) → Budgets → Except String Budgets
  | [], budgets => return budgets
  | dispatch :: dispatches, budgets => do
      let budgets ← reconcileRelatedAttempt runtime digests records request
        (now dispatch.usageEventId) dispatch budgets
      reconcileDispatches records request now dispatches budgets

def reconcileRelatedAttempts (records : Records) (reservation : Receipt)
    (now : String → String) (budgets : Budgets) : Except String Budgets := do
  let (row, request) ← boundReservation runtime records reservation budgets
  let _ ← budgets.requireGrant row.grantId
  let dispatches := (budgets.dispatches.filter fun dispatch =>
    dispatch.owner = row.reservationId && dispatch.status.isHeld).mergeSort
      fun a b => a.usageEventId ≤ b.usageEventId
  reconcileDispatches runtime digests records request now dispatches budgets

/-! ## Settlement and release -/

/-- The sum over the attempts of a request: what they cost, and how many of them
were dispatched. -/
def accountAttempts (request : InferenceRequest) (route : EffectiveRoute) :
    List UsageEvent → Except String (Nat × Nat)
  | [] => return (0, 0)
  | attempt :: attempts => do
      let _ ← assertUsageScope attempt request route false
      if isModelUsageProvenNotDispatched attempt.dispatchRecord = true then
        accountAttempts request route attempts
      else
        match accountedCost runtime attempt with
        | none =>
            throw "Worker budget retains its reservation while provider usage is uncertain."
        | some attemptCost =>
            let (cost, dispatchedRequests) ← accountAttempts request route attempts
            return (attemptCost + cost, dispatchedRequests + 1)

/-- The attempts that a settlement names are those of the operation. -/
def assertInventory (attempts : List UsageEvent) (usageEventIds : List String) :
    Except String Unit :=
  if attempts.length = 0 ∨ maxAttempts < attempts.length ∨
      attempts.map (·.eventId) ≠ usageEventIds then
    throw "Worker budget attempt inventory is incomplete."
  else return ()

/-- What a settlement does with the accounted attempts. -/
def settleAccounted (row : Reservation) (request : InferenceRequest) (hash now : String)
    (cost dispatchedRequests : Nat) (budgets : Budgets) : Except String Budgets :=
  if maxSafeInteger < cost then throw "Worker budget usage cost is out of range."
  else if dispatchedRequests = 0 then
    if request.state = .completed then
      throw "Completed worker inference cannot be settled without a provider dispatch."
    else
      match row.status with
      | .released _ => return budgets
      | _ => return budgets.closeReservation row.reservationId (.released now)
  else if row.status.isHeld = false then
    throw "Worker budget release conflicts with dispatched usage."
  else
    let usage : ReservationUsage :=
      { requests := dispatchedRequests, costMicrousd := cost, usageEventIdsSha256 := hash }
    return budgets.closeReservation row.reservationId (.settled usage now)

/-- The evidence of a settlement is that of the terminal request. -/
def assertSettlementEvidence (row : Reservation) (request : InferenceRequest)
    (hash : String) (usageEventIds : List String) : Except String Unit :=
  if row.status.isSettled = true ∨
      request.budgetReservationId ≠ some row.reservationId ∨
      (request.state ≠ .completed ∧ request.state ≠ .failed ∧
        request.state ≠ .cancelled) ∨
      request.usageEventIdsSha256 ≠ some hash ∨
      request.usageEventIdsJson ≠ some (canonicalJsonOfTexts usageEventIds) then
    throw "Worker budget settlement evidence mismatch."
  else return ()

/-- The row was settled with the same events before. -/
def settledWith (row : Reservation) (hash : String) : Bool :=
  match row.status with
  | .settled usage _ => usage.usageEventIdsSha256 = hash
  | _ => false

def settle (records : Records) (reservation : Receipt) (usageEventIds : List String)
    (now : String) (budgets : Budgets) : Except String Budgets := do
  let normalized ← normalizeRemoteWorkerInferenceUsageEventIds runtime usageEventIds
  let hash := digests.usageEventIds normalized
  let (row, request) ← boundReservation runtime records reservation budgets
  let _ ← budgets.requireGrant row.grantId
  if settledWith row hash = true then return budgets
  else
    let _ ← assertSettlementEvidence row request hash usageEventIds
    let attempts := records.attempts row.operationId row.dispatchGeneration
    let _ ← assertInventory attempts usageEventIds
    let route ← requestRoute runtime digests request
    let (cost, dispatchedRequests) ← accountAttempts runtime request route attempts
    settleAccounted row request hash now cost dispatchedRequests budgets

def release (records : Records) (reservation : Receipt) (reason : ReleaseReason)
    (now : String) (budgets : Budgets) : Except String Budgets := do
  let (row, request) ← boundReservation runtime records reservation budgets
  let _ ← budgets.requireGrant row.grantId
  if request.state ≠ .blocked ∨ request.budgetReservationId ≠ some row.reservationId ∨
      request.budgetReleaseReason ≠ some reason ∨
      isSet request.budgetReleaseRequestedAt = false ∨
      isSet request.dispatchClaimedAt = true ∨
      (records.attempts row.operationId row.dispatchGeneration).length ≠ 0 then
    throw "Worker budget release lacks proof of no dispatch."
  else
    match row.status with
    | .released _ => return budgets
    | .settled _ _ => throw "Worker budget is already settled."
    | .held => return budgets.closeReservation row.reservationId (.released now)

/-! ## Tool dispatches -/

/-- What `authorize` has established before it looks for a grant: the intent of
the tool and who runs it. -/
structure ToolExecution where
  registryWorkspaceId : String
  assignmentId : String
  assignmentGeneration : Nat
  intentId : String
  intentSha256 : String
  authority : UsageAuthority
  workerGeneration : Nat
  actorId : String

/-- What the dispatches of the execution are made for. -/
def ToolExecution.intent (execution : ToolExecution) : ToolIntent where
  registryWorkspaceId := execution.registryWorkspaceId
  assignmentId := execution.assignmentId
  assignmentGeneration := execution.assignmentGeneration
  intentId := execution.intentId
  intentSha256 := execution.intentSha256
  authority := execution.authority
  authoritySha256 := digests.authority execution.authority

def assertToolUsage (usage : UsageEvent) (authority : UsageAuthority)
    (route : EffectiveRoute) : Except String Unit :=
  if usage.operationId = authority.parentOperationId ∨
      usage.workspaceId ≠ some authority.workspaceId ∨
      usage.sessionId ≠ some authority.sessionId ∨
      usage.turnId ≠ some authority.turnId ∨
      usage.durableRunId ≠ some authority.durableRunId ∨
      usage.taskId ≠ some authority.taskId ∨
      usage.workerId ≠ some authority.workerId ∨
      usage.contextIntentHash ≠ some authority.contextIntentHash ∨
      usage.parentOperationId ≠ some authority.parentOperationId then
    throw "Worker tool model usage belongs to another execution."
  else assertWorkerBudgetUsagePricing usage route

/-- The grant is one of the operator for the worker of the tool, and current. -/
def fundsTool (execution : ToolExecution) (now : String) (grant : Grant) : Bool :=
  grant.operatorId = execution.actorId &&
    grant.terms.registryWorkspaceId = execution.registryWorkspaceId &&
    grant.terms.executionWorkspaceId = execution.authority.workspaceId &&
    grant.terms.workerId = execution.authority.workerId &&
    grant.terms.workerGeneration = execution.workerGeneration &&
    !isSet grant.revokedAt && now < grant.terms.expiresAt

/-- One turn of the loop over the candidate grants; nothing when the next grant
is to be tried. -/
def authorizeToolAttemptUnder (records : Records) (execution : ToolExecution)
    (usageEventId : String) (route : EffectiveRoute) (prior : Option (Dispatch ToolIntent))
    (clock : GrantClock) (grantId : String) (budgets : Budgets) :
    Except String (Option Budgets) := do
  let grant ← budgets.requireGrant grantId
  if fundsTool execution clock.now grant = false then return none
  else
    match records.usage usageEventId with
    | none => throw "Worker tool spending requires a bounded canonical model intent."
    | some usage =>
        match currentIntentCap usage with
        | none => throw "Worker tool spending requires a bounded canonical model intent."
        | some cap =>
            let _ ← assertToolUsage usage execution.authority route
            match prior with
            | some prior =>
                if prior.owner ≠ execution.intent digests ∨ prior.route ≠ route ∨
                    prior.routeSha256 ≠ digests.route route ∨
                    prior.status.isHeld = false then
                  throw "Worker tool budget replay changed its authority."
                else return some budgets
            | none =>
                let cost ← reservationCost runtime route cap 0 1
                let balance ← budgets.balance grant clock.balanceNow
                if balance.availableRequests < 1 ∨
                    balance.availableCostMicrousd < cost then
                  return none
                else
                  let dispatch : Dispatch ToolIntent :=
                    { usageEventId, owner := execution.intent digests,
                      grantId := grant.terms.grantId, route,
                      routeSha256 := digests.route route, reservedCostMicrousd := cost,
                      status := .held, createdAt := clock.now }
                  return some
                    { budgets with toolDispatches := budgets.toolDispatches ++ [dispatch] }

/-- The loop over the candidate grants. -/
def authorizeToolAttemptFrom (records : Records) (execution : ToolExecution)
    (usageEventId : String) (route : EffectiveRoute) (prior : Option (Dispatch ToolIntent))
    (clock : String → GrantClock) (budgets : Budgets) :
    List String → Except String Budgets
  | [] => throw "No current operator grant can fund this worker tool model request."
  | grantId :: grantIds => do
      match ← authorizeToolAttemptUnder runtime digests records execution usageEventId
          route prior (clock grantId) grantId budgets with
      | some budgets => return budgets
      | none =>
          authorizeToolAttemptFrom records execution usageEventId route prior clock
            budgets grantIds

/-- `authorizeToolAttempt`, given what the assignment, its workload and its
capability profile establish or fail to. -/
def authorizeToolAttempt (records : Records) (execution : Except String ToolExecution)
    (usageEventId : String) (route : EffectiveRoute) (now : String)
    (clock : String → GrantClock) (budgets : Budgets) : Except String Budgets := do
  let route ← normalizeRemoteWorkerInferenceEffectiveRouteReceipt runtime route
  let execution ← execution
  let prior := budgets.getToolDispatch usageEventId
  let candidates := match prior with
    | some prior => [prior.grantId]
    | none => (spendingOrder (budgets.grants.filter fun grant =>
        fundsTool execution now grant && grant.revokedAt.isNone)).map (·.terms.grantId)
  authorizeToolAttemptFrom runtime digests records execution usageEventId route prior
    clock budgets candidates

/-- The transaction of `reconcileToolAttempts` for one of the observed rows. -/
def reconcileToolAttempt (records : Records) (usageEventId now : String)
    (budgets : Budgets) : Except String Budgets := do
  match budgets.getToolDispatch usageEventId with
  | none => return budgets
  | some row =>
      let _ ← budgets.requireGrant row.grantId
      if row.status.isHeld = false then return budgets
      else
        match records.usage row.usageEventId with
        | none => throw "Worker tool budget usage is unavailable."
        | some usage =>
            let route ←
              normalizeRemoteWorkerInferenceEffectiveRouteReceipt runtime row.route
            if digests.authority row.owner.authority ≠ row.owner.authoritySha256 ∨
                digests.route route ≠ row.routeSha256 then
              throw "Worker tool budget evidence hash changed."
            else
              let _ ← assertToolUsage usage row.owner.authority route
              match ← dispatchClosing runtime "tool budget" usage now with
              | none => return budgets
              | some closed => return budgets.closeToolDispatch row.usageEventId closed

end

end GoatCitadel.RemoteWorker
