import Mathlib.Data.List.Sort
import GoatCitadel.Policy.Request
import GoatCitadel.Storage.WorktreeLease
import GoatCitadel.Support.Table
import GoatCitadel.Support.Text

/-!
# Effects of approvals

What an approval sets off is kept as rows of `approval_effects`.  A worker claims a
row for the time of a lease, and everything it does with the row afterwards names the
worker and the version of that claim.  The statements read the clock of the database;
the texts of times that the callers give only measure how long a lease is.
-/

namespace GoatCitadel.Storage.ApprovalEffects

open GoatCitadel.Support
open GoatCitadel.Policy (JsonObject)
open GoatCitadel.Storage.WorktreeLeaseRepository (DateText)

/-! ## Rows -/

inductive ApprovalEffectKind
  | approvalWaitMaterialize
  | approvalWaitWake
  | proactiveRunWake
  | orchestrationParentWake
  | linkedChatTurnWake
  | pendingActionExecute
  | approvalInboxFollowUp
  | approvalAfterHooks
  | approvalResolutionSignals
  | skillHubLifecycleApply
  | externalSourceKnowledgeSnapshotApply
  | meshCapabilityActivationApply
  | memoryLifecycleApply
  | skillLifecycleApply
  | capabilityLifecycleApply
  | improvementLifecycleApply
  | delegationScopeExpansionApply
  | delegationScopeExpansionResume
  | engineeringLearningLifecycleApply
  | communicationsMailSendApply
  | communicationsCalendarCreateApply
  | citadelWardIntegrationActionApply
  | citadelWardA2aOutboundApply
  | citadelWardA2aPushApply
  | approvalObservability
  deriving DecidableEq

inductive ApprovalEffectTargetKind
  | durableRun
  | chatTurn
  | pendingAction
  | remoteToken
  | approval
  | skillHubOperation
  | externalSourceImportItem
  | meshCapabilityActivation
  | memoryRecord
  | skillState
  | capabilityCandidate
  | improvementOperation
  | delegationStep
  | engineeringLearning
  | mailDraft
  | calendarEvent
  | citadelWardAction
  deriving DecidableEq

inductive ApprovalEffectStatus
  | pending
  | running
  | completed
  | skipped
  | failed
  deriving DecidableEq

/-- A payload, as far as an envelope of observability can be read from it: its members
of that name when they have the right type, and all the others. -/
structure EffectPayload where
  schemaVersion : Option String := none
  deliveryId : Option String := none
  operationId : Option String := none
  occurredAt : Option String := none
  /-- The member, when it is an integer. -/
  orderIndex : Option Int := none
  predecessorDeliveryId : Option String := none
  attribution : Option JsonObject := none
  /-- The member, when it is an object. -/
  delivery : Option JsonObject := none
  others : JsonObject := []

structure ApprovalEffect where
  effectId : String
  approvalId : String
  effectKind : ApprovalEffectKind
  targetKind : ApprovalEffectTargetKind
  targetId : String
  idempotencyKey : String
  status : ApprovalEffectStatus
  attemptCount : Nat
  payload : EffectPayload
  result : JsonObject
  lastError : Option String
  claimedBy : Option String
  claimedAt : Option String
  leaseExpiresAt : Option String
  version : Int
  createdAt : String
  updatedAt : String
  completedAt : Option String

/-- The columns that no update writes. -/
def ApprovalEffect.content (effect : ApprovalEffect) :
    String × ApprovalEffectKind × String × String × EffectPayload × String :=
  (effect.approvalId, effect.effectKind, effect.targetId, effect.idempotencyKey,
    effect.payload, effect.createdAt)

/-- What the effects take from the runtime and the database. -/
structure EffectRuntime extends DateText where
  /-- The time that the database reads in a text. -/
  instant : String → Option Int
  /-- The text of the database's clock. -/
  databaseNowText : Int → String
  /-- The text of the clock after a number of milliseconds, if it has one. -/
  databaseLeaseExpiryText : Int → Int → Option String
  stableJson : EffectPayload → String
  /-- The order of the columns of text. -/
  textLe : String → String → Bool

inductive EffectError
  /-- Approval effect lease expiry must be a valid instant after the observed time. -/
  | leaseExpiryInvalid
  /-- Approval effect idempotency payload mismatch. -/
  | payloadMismatch (idempotencyKey : String)
  /-- A row of the identifier exists under another key. -/
  | effectIdTaken (effectId : String)
  | approvalNotFound (approvalId : String)
  /-- `new Date(value).toISOString()` for a time out of range. -/
  | timeOutOfRange
  /-- What the journal of governance throws. -/
  | journey (message : String)

/-- A statement that updates one row: the row as written, and the table after it. -/
def updateEffect (effectId : String) (guard : ApprovalEffect → Bool)
    (set : ApprovalEffect → ApprovalEffect) (effects : List ApprovalEffect) :
    Option (ApprovalEffect × List ApprovalEffect) :=
  match effects.find? fun row => row.effectId = effectId && guard row with
  | none => none
  | some row =>
      some (set row, updateRows (fun row => row.effectId = effectId && guard row) set effects)

section

variable (runtime : EffectRuntime)

/-! ## Claims -/

/-- Effects that go on with an approval once its action is done. -/
def isContinuation : ApprovalEffectKind → Bool
  | .approvalWaitWake | .linkedChatTurnWake | .delegationScopeExpansionResume => true
  | _ => false

/-- Effects that carry out the action of an approval. -/
def isAction : ApprovalEffectKind → Bool
  | .pendingActionExecute | .delegationScopeExpansionApply => true
  | _ => false

def isOpen : ApprovalEffectStatus → Bool
  | .pending | .running => true
  | _ => false

/-- There is a lease, and its end is not in the future. -/
def leaseLapsed (row : ApprovalEffect) (databaseNow : Int) : Bool :=
  row.leaseExpiresAt.any fun text => (runtime.instant text).all (· ≤ databaseNow)

/-- There is a lease, and its end is in the future. -/
def leaseLasts (row : ApprovalEffect) (databaseNow : Int) : Bool :=
  row.leaseExpiresAt.any fun text => (runtime.instant text).any (databaseNow < ·)

def isClaimable (row : ApprovalEffect) (databaseNow : Int) : Bool :=
  row.status = .pending || (row.status = .running && leaseLapsed runtime row databaseNow)

/-- A continuation waits for the actions of its approval. -/
def isBlocked (effects : List ApprovalEffect) (row : ApprovalEffect) : Bool :=
  isContinuation row.effectKind && effects.any fun action =>
    action.approvalId = row.approvalId && isAction action.effectKind && isOpen action.status

def claimPriority : ApprovalEffectKind → Nat
  | .approvalWaitMaterialize => 0
  | .approvalResolutionSignals => 1
  | .delegationScopeExpansionApply => 2
  | .engineeringLearningLifecycleApply => 2
  | .pendingActionExecute => 3
  | .approvalWaitWake => 4
  | .delegationScopeExpansionResume => 5
  | .proactiveRunWake => 5
  | .linkedChatTurnWake => 6
  | .orchestrationParentWake => 7
  | _ => 8

/-- `created_at ASC, effect_id ASC` -/
def createdLe (a b : ApprovalEffect) : Bool :=
  if a.createdAt = b.createdAt then runtime.textLe a.effectId b.effectId
  else runtime.textLe a.createdAt b.createdAt

def priorityLe (a b : ApprovalEffect) : Bool :=
  if claimPriority a.effectKind = claimPriority b.effectKind then createdLe runtime a b
  else claimPriority a.effectKind ≤ claimPriority b.effectKind

def claimCandidates (effects : List ApprovalEffect) (limit databaseNow : Int) :
    List ApprovalEffect :=
  ((effects.filter fun row =>
      isClaimable runtime row databaseNow && row.effectKind ≠ .approvalObservability &&
        !isBlocked effects row).insertionSort
    fun a b => priorityLe runtime a b = true).take (max 1 limit).toNat

/-- Milliseconds from one instant to another one after it. -/
def leaseDurationMsFromInstants (now leaseExpiresAt : String) : Except EffectError Int :=
  match runtime.parse now, runtime.parse leaseExpiresAt with
  | some nowMs, some expiresAtMs =>
      if expiresAtMs - nowMs ≤ 0 then .error .leaseExpiryInvalid else .ok (expiresAtMs - nowMs)
  | _, _ => .error .leaseExpiryInvalid

def claimEffect (effectId workerId : String) (leaseDurationMs expectedVersion databaseNow : Int) :
    List ApprovalEffect → Option (ApprovalEffect × List ApprovalEffect) :=
  updateEffect effectId
    (fun row => row.version = expectedVersion && isClaimable runtime row databaseNow)
    fun row =>
      { row with
        status := .running
        attemptCount := row.attemptCount + 1
        claimedBy := some workerId
        claimedAt := some (runtime.databaseNowText databaseNow)
        leaseExpiresAt := runtime.databaseLeaseExpiryText databaseNow leaseDurationMs
        updatedAt := runtime.databaseNowText databaseNow
        lastError := none
        version := row.version + 1 }

/-! ## Holders -/

/-- The row is held by a worker, under a version and a lease that lasts. -/
def isHeldBy (workerId : String) (expectedVersion databaseNow : Int) (row : ApprovalEffect) :
    Bool :=
  row.status = .running && row.claimedBy = some workerId && row.version = expectedVersion &&
    leaseLasts runtime row databaseNow

def renewLease (effectId workerId : String) (expectedVersion leaseDurationMs databaseNow : Int) :
    List ApprovalEffect → Option (ApprovalEffect × List ApprovalEffect) :=
  updateEffect effectId (isHeldBy runtime workerId expectedVersion databaseNow) fun row =>
    { row with
      leaseExpiresAt := runtime.databaseLeaseExpiryText databaseNow leaseDurationMs
      updatedAt := runtime.databaseNowText databaseNow }

def deferEffect (effectId workerId : String) (expectedVersion : Int) (result : JsonObject)
    (lastError : String) (leaseDurationMs databaseNow : Int) :
    List ApprovalEffect → Option (ApprovalEffect × List ApprovalEffect) :=
  updateEffect effectId (isHeldBy runtime workerId expectedVersion databaseNow) fun row =>
    { row with
      result
      lastError := some lastError
      leaseExpiresAt := runtime.databaseLeaseExpiryText databaseNow leaseDurationMs
      updatedAt := runtime.databaseNowText databaseNow
      version := row.version + 1 }

inductive SettledStatus
  | completed
  | skipped
  | failed
  deriving DecidableEq

def SettledStatus.toStatus : SettledStatus → ApprovalEffectStatus
  | .completed => .completed
  | .skipped => .skipped
  | .failed => .failed

structure SettleInput where
  result : Option JsonObject := none
  lastError : Option String := none
  updatedAt : Option String := none
  completedAt : Option String := none

/-- The statement of `completeEffect`, `skipEffect` or `failEffect`; `nowIso` is the time
for an input that gives none. -/
def settleStatement (status : SettledStatus) (effectId workerId : String)
    (expectedVersion : Int) (input : SettleInput) (nowIso : String) (databaseNow : Int) :
    List ApprovalEffect → Option (ApprovalEffect × List ApprovalEffect) :=
  let updatedAt := input.updatedAt.getD nowIso
  updateEffect effectId (isHeldBy runtime workerId expectedVersion databaseNow) fun row =>
    { row with
      status := status.toStatus
      result := input.result.getD []
      lastError :=
        if status = .failed then some (input.lastError.getD "Approval effect failed.") else none
      claimedBy := none
      claimedAt := none
      leaseExpiresAt := none
      updatedAt
      completedAt := some (input.completedAt.getD updatedAt)
      version := row.version + 1 }

/-- One transaction: when the journal refuses the event, nothing is settled. -/
def settleEffect (status : SettledStatus) (effectId workerId : String) (expectedVersion : Int)
    (input : SettleInput) (nowIso : String) (databaseNow : Int)
    (recordTerminalJourney : ApprovalEffect → String → Except EffectError Unit)
    (effects : List ApprovalEffect) :
    Except EffectError (Option (ApprovalEffect × List ApprovalEffect)) :=
  match settleStatement runtime status effectId workerId expectedVersion input nowIso
      databaseNow effects with
  | none => .ok none
  | some (effect, settled) => do
      recordTerminalJourney effect workerId
      .ok (some (effect, settled))

def recoverExpiredEffect (effectId : String) (expectedVersion databaseNow : Int) :
    List ApprovalEffect → Option (ApprovalEffect × List ApprovalEffect) :=
  updateEffect effectId
    (fun row =>
      row.version = expectedVersion && row.status = .running &&
        leaseLapsed runtime row databaseNow)
    fun row =>
      { row with
        status := .pending
        claimedBy := none
        claimedAt := none
        leaseExpiresAt := none
        updatedAt := runtime.databaseNowText databaseNow
        version := row.version + 1 }

/-! ## Insertion -/

structure UpsertInput where
  approvalId : String
  effectKind : ApprovalEffectKind
  targetKind : ApprovalEffectTargetKind
  targetId : String
  idempotencyKey : String
  status : Option ApprovalEffectStatus := none
  attemptCount : Option Nat := none
  payload : Option EffectPayload := none
  result : Option JsonObject := none
  lastError : Option String := none
  claimedBy : Option String := none
  claimedAt : Option String := none
  leaseExpiresAt : Option String := none
  version : Option Int := none
  createdAt : Option String := none
  updatedAt : Option String := none
  completedAt : Option String := none

def getByIdempotencyKey (idempotencyKey : String) (effects : List ApprovalEffect) :
    Option ApprovalEffect :=
  effects.find? (·.idempotencyKey = idempotencyKey)

/-- The row that `upsert` offers, given the row it found; `randomId` and `nowIso` are the
identifier and the time for a row that brings none. -/
def upsertedEffect (input : UpsertInput) (existing : Option ApprovalEffect)
    (randomId nowIso : String) : ApprovalEffect :=
  let createdAt := (input.createdAt <|> existing.map (·.createdAt)).getD nowIso
  { effectId := (existing.map (·.effectId)).getD randomId
    approvalId := input.approvalId
    effectKind := input.effectKind
    targetKind := input.targetKind
    targetId := input.targetId
    idempotencyKey := input.idempotencyKey
    status := (input.status <|> existing.map (·.status)).getD .pending
    attemptCount := (input.attemptCount <|> existing.map (·.attemptCount)).getD 0
    payload := (input.payload <|> existing.map (·.payload)).getD {}
    result := (input.result <|> existing.map (·.result)).getD []
    lastError := input.lastError <|> existing.bind (·.lastError)
    claimedBy := input.claimedBy <|> existing.bind (·.claimedBy)
    claimedAt := input.claimedAt <|> existing.bind (·.claimedAt)
    leaseExpiresAt := input.leaseExpiresAt <|> existing.bind (·.leaseExpiresAt)
    version := (input.version <|> existing.map (·.version)).getD 1
    createdAt
    updatedAt := input.updatedAt.getD createdAt
    completedAt := input.completedAt <|> existing.bind (·.completedAt) }

/-- `INSERT … ON CONFLICT(idempotency_key) DO NOTHING`: the table with the row, if it is
inserted. -/
def insertEffect (effect : ApprovalEffect) (effects : List ApprovalEffect) :
    Except EffectError (Option (List ApprovalEffect)) :=
  if effects.any (·.idempotencyKey = effect.idempotencyKey) then .ok none
  else if effects.any (·.effectId = effect.effectId) then
    .error (.effectIdTaken effect.effectId)
  else .ok (some (effects ++ [effect]))

def assertApprovalEffectIdempotencyMatch (persisted : ApprovalEffect) (input : UpsertInput)
    (payload : EffectPayload) : Except EffectError Unit :=
  if persisted.approvalId = input.approvalId && persisted.effectKind = input.effectKind &&
      persisted.targetKind = input.targetKind && persisted.targetId = input.targetId &&
      runtime.stableJson persisted.payload = runtime.stableJson payload then .ok ()
  else .error (.payloadMismatch persisted.idempotencyKey)

/-- `upsert`, when nothing comes between its statements. -/
def upsert (input : UpsertInput) (randomId nowIso : String) (effects : List ApprovalEffect) :
    Except EffectError (ApprovalEffect × List ApprovalEffect) := do
  let existing := getByIdempotencyKey input.idempotencyKey effects
  let offered := upsertedEffect input existing randomId nowIso
  let inserted ← insertEffect offered effects
  let effects := inserted.getD effects
  let persisted := (getByIdempotencyKey input.idempotencyKey effects).getD offered
  assertApprovalEffectIdempotencyMatch runtime persisted input
    ((input.payload <|> existing.map (·.payload)).getD {})
  .ok (persisted, effects)

end

/-! ## Updates of one row -/

theorem updateEffect_eq_some {effectId : String} {guard : ApprovalEffect → Bool}
    {set : ApprovalEffect → ApprovalEffect} {effects after : List ApprovalEffect}
    {effect : ApprovalEffect} (hids : (effects.map (·.effectId)).Nodup)
    (h : updateEffect effectId guard set effects = some (effect, after)) :
    ∃ row ∈ effects, row.effectId = effectId ∧ guard row = true ∧ effect = set row ∧
      after = updateRows (·.effectId = row.effectId) (fun _ => effect) effects := by
  unfold updateEffect at h
  split at h
  · cases h
  · next row hfind =>
      obtain ⟨rfl, rfl⟩ := Prod.mk.inj (Option.some.inj h)
      have hrow := List.mem_of_find?_eq_some hfind
      have hselected := List.find?_some hfind
      simp only [Bool.and_eq_true, decide_eq_true_eq] at hselected
      obtain ⟨rfl, hguard⟩ := hselected
      refine ⟨row, hrow, rfl, hguard, rfl, List.map_congr_left fun other hother => ?_⟩
      by_cases hid : other.effectId = row.effectId
      · rw [eq_of_key_eq hids hother hrow hid]
        simp [hguard]
      · simp [hid]

end GoatCitadel.Storage.ApprovalEffects
