import GoatCitadel.Policy.CanonicalJson
import GoatCitadel.Storage.WorktreeLease
import GoatCitadel.Support.Table

/-!
# The cron run repository

An occurrence of a cron job is admitted as a run.  The run has a generation,
which the job also keeps together with the identifier of its active run; the
operations that move a run on carry both as a token.

Each operation is one transaction over the jobs and their runs.  Its updates are
guarded by what the transaction read, and by the job still naming the run as its
active one.
-/

namespace GoatCitadel.Cron

open GoatCitadel.Support
open GoatCitadel.Policy (JsonValue JsonObject sortMembers sortValue utf16Collation)
open GoatCitadel.Storage.WorktreeLeaseRepository (DateText)

/-! ## Records -/

inductive CronRunStatus
  | admitting
  | admitted
  | running
  | waiting
  | completed
  | failed
  | cancelled
  | deadLettered
  | manualReconciliationRequired
  deriving DecidableEq

/-- The text of a status. -/
def CronRunStatus.text : CronRunStatus → String
  | .admitting => "admitting"
  | .admitted => "admitted"
  | .running => "running"
  | .waiting => "waiting"
  | .completed => "completed"
  | .failed => "failed"
  | .cancelled => "cancelled"
  | .deadLettered => "dead_lettered"
  | .manualReconciliationRequired => "manual_reconciliation_required"

/-- `isCronRunTerminalStatus` -/
def CronRunStatus.isTerminal : CronRunStatus → Bool
  | .completed | .failed | .cancelled | .deadLettered | .manualReconciliationRequired => true
  | .admitting | .admitted | .running | .waiting => false

inductive CronRunPhase
  | childAdmission
  | chatExecution
  | autonomousPostCommit
  | delivery
  | settlement
  deriving DecidableEq

/-- The text of a phase. -/
def CronRunPhase.text : CronRunPhase → String
  | .childAdmission => "child_admission"
  | .chatExecution => "chat_execution"
  | .autonomousPostCommit => "autonomous_post_commit"
  | .delivery => "delivery"
  | .settlement => "settlement"

/-- `phaseOrder` -/
def CronRunPhase.order : CronRunPhase → Nat
  | .childAdmission => 0
  | .chatExecution => 1
  | .autonomousPostCommit => 2
  | .delivery => 3
  | .settlement => 4

inductive CronRunTrigger
  | scheduledDue
  | manual
  | forced
  deriving DecidableEq

inductive CronJobAction
  | task
  | improvement
  | curator
  | backup
  | memoryFlush
  | memoryConsolidation
  | costReport
  | updateReview
  | watchdog
  | noAgent
  | agentTurn
  deriving DecidableEq

/-- The text of an action. -/
def CronJobAction.text : CronJobAction → String
  | .task => "task"
  | .improvement => "improvement"
  | .curator => "curator"
  | .backup => "backup"
  | .memoryFlush => "memory_flush"
  | .memoryConsolidation => "memory_consolidation"
  | .costReport => "cost_report"
  | .updateReview => "update_review"
  | .watchdog => "watchdog"
  | .noAgent => "no_agent"
  | .agentTurn => "agent_turn"

/-- What a run is linked to. -/
structure CronRunLinkage where
  childSessionId : Option String
  childMessageId : Option String
  childTurnId : Option String
  childAssistantMessageId : Option String
  childDurableRunId : Option String
  deliveryRunId : Option String
  externalSideEffectRunId : Option String
  evidenceEnvelopeId : Option String
  deriving DecidableEq

namespace CronRunLinkage

def none : CronRunLinkage :=
  ⟨.none, .none, .none, .none, .none, .none, .none, .none⟩

/-- The identifiers under their names. -/
def entries (linkage : CronRunLinkage) : List (String × Option String) :=
  [("childSessionId", linkage.childSessionId),
   ("childMessageId", linkage.childMessageId),
   ("childTurnId", linkage.childTurnId),
   ("childAssistantMessageId", linkage.childAssistantMessageId),
   ("childDurableRunId", linkage.childDurableRunId),
   ("deliveryRunId", linkage.deliveryRunId),
   ("externalSideEffectRunId", linkage.externalSideEffectRunId),
   ("evidenceEnvelopeId", linkage.evidenceEnvelopeId)]

/-- `COALESCE(new, old)`, column by column. -/
def coalesce (new old : CronRunLinkage) : CronRunLinkage where
  childSessionId := new.childSessionId.or old.childSessionId
  childMessageId := new.childMessageId.or old.childMessageId
  childTurnId := new.childTurnId.or old.childTurnId
  childAssistantMessageId := new.childAssistantMessageId.or old.childAssistantMessageId
  childDurableRunId := new.childDurableRunId.or old.childDurableRunId
  deliveryRunId := new.deliveryRunId.or old.deliveryRunId
  externalSideEffectRunId := new.externalSideEffectRunId.or old.externalSideEffectRunId
  evidenceEnvelopeId := new.evidenceEnvelopeId.or old.evidenceEnvelopeId

/-- A linkage to an evidence envelope only. -/
def ofEvidence (evidenceEnvelopeId : Option String) : CronRunLinkage :=
  { none with evidenceEnvelopeId }

end CronRunLinkage

/-- A row of `cron_runs`. -/
structure CronRun where
  runId : String
  jobId : String
  admissionKey : String
  executionGeneration : Nat
  trigger : CronRunTrigger
  jobRevision : Nat
  action : CronJobAction
  actionSnapshotJson : String
  scheduledFor : String
  status : CronRunStatus
  phase : CronRunPhase
  linkage : CronRunLinkage
  outcomeJson : Option String
  failureJson : Option String
  reconciliationReason : Option String
  reconciliationResolution : Option String
  createdAt : String
  updatedAt : String
  admittedAt : Option String
  startedAt : Option String
  settledAt : Option String
  reconciledAt : Option String
  reconciledBy : Option String
  deriving DecidableEq

/-- What others may change of a job at any time. -/
structure CronJobDefinition where
  revision : Nat
  action : CronJobAction
  actionConfig : Option JsonObject
  citadelId : Option String

/-- A row of `cron_jobs`, as far as the runs read and write it. -/
structure CronJobRow where
  definition : CronJobDefinition
  executionGeneration : Nat
  activeRunId : Option String
  updatedAt : String

/-- The jobs by their identifier, and the runs in the order of their insertion. -/
structure CronStore where
  jobs : String → Option CronJobRow
  runs : List CronRun

structure CronRunToken where
  runId : String
  jobId : String
  executionGeneration : Nat
  deriving DecidableEq

/-- A token as a caller gives it. -/
structure CronRunTokenInput where
  runId : String
  jobId : String
  executionGeneration : Number

inductive CronRunError
  | fieldRequired (field : String)
  | validation (field message : String)
  | conflict (message : String)
  | alreadyExists (message : String)
  | writeConflict (message : String)
  | notFound (entity id : String)
  | payloadTooLarge (message : String)
  | type (message : String)
  | uniqueConstraint (columns : String)
  deriving DecidableEq

/-! ## Inputs -/

def normalizeRequired (value field : String) : Except CronRunError String :=
  requireTrimmed (.fieldRequired field) value

def normalizeOptional (value : Option String) (field : String) :
    Except CronRunError (Option String) :=
  match value with
  | none => return none
  | some value => some <$> normalizeRequired value field

/-- `normalizeInteger`, on what `Number` makes of the value. -/
def normalizeInteger (value : Number) (field : String) (minimum : Nat) :
    Except CronRunError Nat :=
  match value with
  | .finite value =>
      if value.den = 1 ∧ (minimum : Int) ≤ value.num ∧ value.num ≤ maxSafeInteger then
        return value.num.toNat
      else
        throw (.type s!"{field} must be a safe integer greater than or equal to {minimum}.")
  | .nonFinite =>
      throw (.type s!"{field} must be a safe integer greater than or equal to {minimum}.")

def normalizeToken (token : CronRunTokenInput) : Except CronRunError CronRunToken := do
  let runId ← normalizeRequired token.runId "runId"
  let jobId ← normalizeRequired token.jobId "jobId"
  let executionGeneration ←
    normalizeInteger token.executionGeneration "executionGeneration" 1
  return { runId, jobId, executionGeneration }

def normalizeLinkage (linkage : CronRunLinkage) : Except CronRunError CronRunLinkage := do
  let childSessionId ← normalizeOptional linkage.childSessionId "childSessionId"
  let childMessageId ← normalizeOptional linkage.childMessageId "childMessageId"
  let childTurnId ← normalizeOptional linkage.childTurnId "childTurnId"
  let childAssistantMessageId ←
    normalizeOptional linkage.childAssistantMessageId "childAssistantMessageId"
  let childDurableRunId ← normalizeOptional linkage.childDurableRunId "childDurableRunId"
  let deliveryRunId ← normalizeOptional linkage.deliveryRunId "deliveryRunId"
  let externalSideEffectRunId ←
    normalizeOptional linkage.externalSideEffectRunId "externalSideEffectRunId"
  let evidenceEnvelopeId ← normalizeOptional linkage.evidenceEnvelopeId "evidenceEnvelopeId"
  return { childSessionId, childMessageId, childTurnId, childAssistantMessageId,
           childDurableRunId, deliveryRunId, externalSideEffectRunId, evidenceEnvelopeId }

section Time

variable (dates : DateText)

def normalizeTimestamp (value field : String) : Except CronRunError String :=
  match (dates.parse value).bind dates.toISOString with
  | some text => return text
  | none => throw (.validation field s!"{field} must be a valid timestamp.")

/-- The time of a call: the one its caller gave, or the one of the database. -/
def callTime (now : Option String) (databaseNow : String) : Except CronRunError String :=
  normalizeTimestamp dates (now.getD databaseNow) "now"

end Time

/-! ### Bounded JSON -/

section Json

variable (field : String)

mutual

/-- `visit`: the number of keys so far and in the value, when it is not too deep
and has not too many of them. -/
def visitJson (depth keyCount : Nat) : JsonValue → Except CronRunError Nat
  | .array items =>
      if 24 < depth then
        throw (.payloadTooLarge s!"{field} exceeds the maximum nesting depth.")
      else visitItems (depth + 1) keyCount items
  | .object fields =>
      if 24 < depth then
        throw (.payloadTooLarge s!"{field} exceeds the maximum nesting depth.")
      else visitFields (depth + 1) keyCount fields
  | _ =>
      if 24 < depth then
        throw (.payloadTooLarge s!"{field} exceeds the maximum nesting depth.")
      else return keyCount

def visitItems (depth keyCount : Nat) : List JsonValue → Except CronRunError Nat
  | [] => return keyCount
  | item :: items => do
      let keyCount ← visitJson depth keyCount item
      visitItems depth keyCount items

def visitFields (depth keyCount : Nat) :
    List (String × JsonValue) → Except CronRunError Nat
  | [] => return keyCount
  | (_, value) :: fields =>
      if 512 < keyCount + 1 then
        throw (.payloadTooLarge s!"{field} contains too many keys.")
      else do
        let keyCount ← visitJson depth (keyCount + 1) value
        visitFields depth keyCount fields

end

/-- `normalizeBoundedJson` -/
def normalizeBoundedJson (value : JsonObject) : Except CronRunError String := do
  let _ ← visitJson field 0 0 (sortMembers (.object value))
  let json := (sortValue utf16Collation (.object value)).stringify
  if 65536 < json.utf8ByteSize then
    throw (.payloadTooLarge s!"{field} is {json.utf8ByteSize} bytes; maximum is 65536.")
  else return json

end Json

/-- `normalizeBoundedJson` of an input that may be missing. -/
def boundedJson? (value : Option JsonObject) (field : String) :
    Except CronRunError (Option String) :=
  match value with
  | none => return none
  | some value => some <$> normalizeBoundedJson field value

/-! ## Reading -/

namespace CronStore

def getRun (store : CronStore) (runId : String) : Option CronRun :=
  store.runs.find? (·.runId = runId)

def getByAdmission (store : CronStore) (jobId admissionKey : String) : Option CronRun :=
  store.runs.find? fun run => (run.jobId, run.admissionKey) = (jobId, admissionKey)

def readJob (store : CronStore) (jobId : String) : Except CronRunError CronJobRow :=
  match store.jobs jobId with
  | some job => return job
  | none => throw (.notFound "Cron job" jobId)

/-- `readHistoricalMaxGeneration` -/
def historicalMaxGeneration (store : CronStore) (jobId : String) : Nat :=
  store.runs.foldr
    (fun run rest => if run.jobId = jobId then max run.executionGeneration rest else rest) 0

/-- `ownsActiveGeneration` -/
def ownsActiveGeneration (store : CronStore) (token : CronRunToken) :
    Except CronRunError Bool := do
  let job ← store.readJob token.jobId
  return job.activeRunId = some token.runId &&
    job.executionGeneration = token.executionGeneration

end CronStore

def tokenMatches (run : CronRun) (token : CronRunToken) : Bool :=
  run.runId = token.runId && run.jobId = token.jobId &&
    run.executionGeneration = token.executionGeneration

/-! ## Writing -/

/-- The unique indexes on what runs are linked to. -/
def linkagesUnique (runs : List CronRun) : Bool :=
  (runs.filterMap (·.linkage.childDurableRunId)).Nodup &&
    (runs.filterMap (·.linkage.evidenceEnvelopeId)).Nodup

namespace CronStore

/-- `UPDATE cron_runs SET … WHERE run_id = … AND job_id = … AND
execution_generation = … AND guard`; nothing when it changes no row. -/
def updateRun (token : CronRunToken) (guard : CronRun → Bool) (set : CronRun → CronRun)
    (store : CronStore) : Except CronRunError (Option CronStore) :=
  let selects := fun run => tokenMatches run token && guard run
  if store.runs.any selects = false then return none
  else if linkagesUnique (updateRows selects set store.runs) = false then
    throw (.uniqueConstraint "cron_runs")
  else return some { store with runs := updateRows selects set store.runs }

/-- The row of a job, changed. -/
def setJob (jobId : String) (set : CronJobRow → CronJobRow) (store : CronStore) :
    CronStore :=
  { store with jobs := fun id => if id = jobId then (store.jobs id).map set else store.jobs id }

/-- `reserveJobGenerationStmt`; nothing when it changes no row. -/
def reserveJobGeneration (jobId runId : String) (expectedGeneration executionGeneration : Nat)
    (now : String) (store : CronStore) : Option CronStore :=
  match store.jobs jobId with
  | some job =>
      if job.executionGeneration = expectedGeneration ∧ job.activeRunId = none then
        some (store.setJob jobId fun job =>
          { job with executionGeneration, activeRunId := some runId, updatedAt := now })
      else none
  | none => none

/-- `clearActiveJobStmt` -/
def clearActiveJob (token : CronRunToken) (now : String) (store : CronStore) : CronStore :=
  store.setJob token.jobId fun job =>
    if job.activeRunId = some token.runId ∧
        job.executionGeneration = token.executionGeneration then
      { job with activeRunId := none, updatedAt := now }
    else job

end CronStore

/-! ## Admission -/

structure CronRunBeginInput where
  runId : Option String
  jobId : String
  admissionKey : String
  scheduledFor : String
  trigger : Option CronRunTrigger

inductive CronRunBeginResult
  | begun (run : CronRun)
  | duplicate (run : CronRun)
  | blocked (activeRun : CronRun)

/-- An admission whose input is normalized. -/
structure Admission where
  runId : String
  jobId : String
  admissionKey : String
  scheduledFor : String
  trigger : CronRunTrigger
  now : String

section Operations

variable (dates : DateText)

def normalizeBeginInput (input : CronRunBeginInput) (now : Option String)
    (randomUUID databaseNow : String) : Except CronRunError Admission := do
  let jobId ← normalizeRequired input.jobId "jobId"
  let admissionKey ← normalizeRequired input.admissionKey "admissionKey"
  let scheduledFor ← normalizeTimestamp dates input.scheduledFor "scheduledFor"
  let runId ← normalizeOptional input.runId "runId"
  let now ← callTime dates now databaseNow
  return { runId := runId.getD randomUUID, jobId, admissionKey, scheduledFor,
           trigger := input.trigger.getD .scheduledDue, now }

/-- What the run keeps of the action of its job. -/
def actionSnapshot (definition : CronJobDefinition) : JsonObject :=
  [("action", .string definition.action.text),
   ("actionConfig", match definition.actionConfig with
      | none => .null
      | some config => .object config)] ++
    match definition.citadelId with
    | some citadelId => if citadelId = "" then [] else [("citadelId", .string citadelId)]
    | none => []

/-- The row that `insertStmt` inserts. -/
def admittedRow (admission : Admission) (executionGeneration : Nat)
    (definition : CronJobDefinition) (actionSnapshotJson : String) : CronRun where
  runId := admission.runId
  jobId := admission.jobId
  admissionKey := admission.admissionKey
  executionGeneration := executionGeneration
  trigger := admission.trigger
  jobRevision := definition.revision
  action := definition.action
  actionSnapshotJson := actionSnapshotJson
  scheduledFor := admission.scheduledFor
  status := .admitting
  phase := .childAdmission
  linkage := .none
  outcomeJson := none
  failureJson := none
  reconciliationReason := none
  reconciliationResolution := none
  createdAt := admission.now
  updatedAt := admission.now
  admittedAt := none
  startedAt := none
  settledAt := none
  reconciledAt := none
  reconciledBy := none

/-- The part of `beginAdmission` for a job without an active run. -/
def admitFirst (admission : Admission) (job : CronJobRow) (store : CronStore) :
    Except CronRunError (CronRunBeginResult × CronStore) := do
  let executionGeneration :=
    max job.executionGeneration (store.historicalMaxGeneration admission.jobId) + 1
  match store.reserveJobGeneration admission.jobId admission.runId job.executionGeneration
      executionGeneration admission.now with
  | none =>
      throw (.writeConflict
        s!"Cron run {admission.runId} no longer owns execution generation {executionGeneration}.")
  | some reserved =>
      if job.definition.revision < 1 then
        throw (.type "revision must be a safe integer greater than or equal to 1.")
      else
        let json ← normalizeBoundedJson "actionSnapshot" (actionSnapshot job.definition)
        let run := admittedRow admission executionGeneration job.definition json
        -- The inserted row is read back, which fails beyond the safe integers.
        if maxSafeInteger < executionGeneration then
          throw (.type "execution_generation must be a safe integer greater than or equal to 1.")
        else return (.begun run, { reserved with runs := reserved.runs ++ [run] })

/-- The transaction of `beginAdmission`. -/
def admitOccurrence (admission : Admission) (store : CronStore) :
    Except CronRunError (CronRunBeginResult × CronStore) := do
  match store.getByAdmission admission.jobId admission.admissionKey with
  | some duplicate =>
      if duplicate.scheduledFor ≠ admission.scheduledFor ∨
          duplicate.trigger ≠ admission.trigger then
        throw (.conflict "Cron admission key was reused for a different scheduled occurrence.")
      else return (.duplicate duplicate, store)
  | none =>
      match store.getRun admission.runId with
      | some _ =>
          throw (.alreadyExists
            s!"Cron run id {admission.runId} is already owned by a different admission.")
      | none =>
          let job ← store.readJob admission.jobId
          match job.activeRunId with
          | some activeRunId =>
              match store.getRun activeRunId with
              | none =>
                  throw (.conflict
                    s!"Cron job {admission.jobId} references missing active run {activeRunId}.")
              | some activeRun => return (.blocked activeRun, store)
          | none => admitFirst admission job store

def beginAdmission (input : CronRunBeginInput) (now : Option String)
    (randomUUID databaseNow : String) (store : CronStore) :
    Except CronRunError (CronRunBeginResult × CronStore) := do
  let admission ← normalizeBeginInput dates input now randomUUID databaseNow
  admitOccurrence admission store

/-! ## Transitions -/

/-- An operation answers nothing and changes nothing, or answers the changed row. -/
abbrev Outcome := Option CronRun × CronStore

/-- Nothing is answered and nothing is changed. -/
def unchanged (store : CronStore) : Outcome := (none, store)

/-- The answer of an operation whose statement was executed. -/
def answer (token : CronRunToken) (store : CronStore) : Option CronStore → Outcome
  | some written => (written.getRun token.runId, written)
  | none => unchanged store

def assertLinkageCompatible (current : CronRun) (linkage : CronRunLinkage) :
    Except CronRunError Unit :=
  match firstClash ((current.linkage.entries.zip linkage.entries).map fun (stored, given) =>
      (stored.1, stored.2, given.2)) with
  | some name =>
      throw (.conflict s!"Cron run {current.runId} is already linked to a different {name}.")
  | none => return ()

/-- A state of a run, as the errors show it. -/
def stateText (status : CronRunStatus) (phase : CronRunPhase) : String :=
  status.text ++ "/" ++ phase.text

def invalidTransitionError (current : CronRun) (targetStatus : CronRunStatus)
    (targetPhase : CronRunPhase) : CronRunError :=
  let source := stateText current.status current.phase
  let target := stateText targetStatus targetPhase
  .conflict s!"Cron run {current.runId} cannot transition from {source} to {target}."

/-- The run of a token, when the token is that of the run and of the active
generation of its job. -/
def activeRunOf (token : CronRunToken) (store : CronStore) :
    Except CronRunError (Option CronRun) := do
  match store.getRun token.runId with
  | none => return none
  | some current =>
      if tokenMatches current token = false then return none
      else if (← store.ownsActiveGeneration token) = false then return none
      else return some current

/-- The row that `attachStmt` sets. -/
def attachedRow (linkage : CronRunLinkage) (now : String) (run : CronRun) : CronRun :=
  { run with
    linkage := linkage.coalesce run.linkage
    status := .admitted
    phase := .chatExecution
    admittedAt := run.admittedAt.or now
    startedAt := run.startedAt.or now
    updatedAt := now }

def attachDeterministicChild (token : CronRunTokenInput) (linkage : CronRunLinkage)
    (now : Option String) (databaseNow : String) (store : CronStore) :
    Except CronRunError Outcome := do
  let token ← normalizeToken token
  let linkage ← normalizeLinkage linkage
  if linkage.childTurnId = none ∨ linkage.childDurableRunId = none then
    throw (.validation "linkage"
      "childTurnId and childDurableRunId are required when attaching a deterministic cron child.")
  else
    let now ← callTime dates now databaseNow
    match ← activeRunOf token store with
    | none => return unchanged store
    | some current =>
        let _ ← assertLinkageCompatible current linkage
        if current.status = .admitted then return (some current, store)
        else if current.status ≠ .admitting ∨ current.phase ≠ .childAdmission then
          throw (invalidTransitionError current .admitted .chatExecution)
        else
          let written ← store.updateRun token (fun run => run.status = current.status)
            (attachedRow linkage now)
          return answer token store written

/-- The row that `admitInlineStmt` sets. -/
def inlineRow (now : String) (run : CronRun) : CronRun :=
  { run with
    status := .running
    phase := .chatExecution
    admittedAt := run.admittedAt.or now
    startedAt := run.startedAt.or now
    updatedAt := now }

def admitInlineExecution (token : CronRunTokenInput) (now : Option String)
    (databaseNow : String) (store : CronStore) : Except CronRunError Outcome := do
  let token ← normalizeToken token
  let now ← callTime dates now databaseNow
  match ← activeRunOf token store with
  | none => return unchanged store
  | some current =>
      if current.status = .running ∧ current.phase = .chatExecution then
        return (some current, store)
      else if current.status ≠ .admitting ∨ current.phase ≠ .childAdmission then
        throw (invalidTransitionError current .running .chatExecution)
      else
        let written ← store.updateRun token
          (fun run => run.status = .admitting && run.phase = .childAdmission) (inlineRow now)
        return answer token store written

def canAdvance (current : CronRun) (targetStatus : CronRunStatus)
    (targetPhase : CronRunPhase) : Bool :=
  !(current.status.isTerminal || current.status = .admitting || targetStatus = .admitting) &&
    current.phase.order ≤ targetPhase.order

/-- The row that `advanceStmt` sets. -/
def advancedRow (targetStatus : CronRunStatus) (targetPhase : CronRunPhase)
    (linkage : CronRunLinkage) (now : String) (run : CronRun) : CronRun :=
  { run with
    status := targetStatus
    phase := targetPhase
    linkage := linkage.coalesce run.linkage
    startedAt := run.startedAt.or now
    updatedAt := now }

def advancePhase (token : CronRunTokenInput) (targetStatus : CronRunStatus)
    (targetPhase : CronRunPhase) (linkage : CronRunLinkage) (now : Option String)
    (databaseNow : String) (store : CronStore) : Except CronRunError Outcome := do
  let token ← normalizeToken token
  if targetStatus.isTerminal = true then
    throw (.validation "status" "Active cron run status is required.")
  else
    let linkage ← normalizeLinkage linkage
    let now ← callTime dates now databaseNow
    match ← activeRunOf token store with
    | none => return unchanged store
    | some current =>
        let _ ← assertLinkageCompatible current linkage
        if current.status = targetStatus ∧ current.phase = targetPhase then
          return (some current, store)
        else if canAdvance current targetStatus targetPhase = false then
          throw (invalidTransitionError current targetStatus targetPhase)
        else
          let written ← store.updateRun token
            (fun run => run.status = current.status && run.phase = current.phase)
            (advancedRow targetStatus targetPhase linkage now)
          return answer token store written

/-! ## Settlement -/

/-- The evidence that a settlement carries. -/
structure SettlementInput where
  outcome : Option JsonObject
  failure : Option JsonObject
  reconciliationReason : Option String
  evidenceEnvelopeId : Option String
  now : Option String

def assertTerminalReplayCompatible (current : CronRun) (input : SettlementInput) :
    Except CronRunError Unit := do
  let _ ← assertLinkageCompatible current (.ofEvidence input.evidenceEnvelopeId)
  let mismatch : CronRunError := .conflict
    s!"Cron run {current.runId} terminal settlement was replayed with different evidence."
  let outcomeJson ← boundedJson? input.outcome "outcome"
  if outcomeJson ≠ none ∧ outcomeJson ≠ current.outcomeJson then throw mismatch
  let failureJson ← boundedJson? input.failure "failure"
  if failureJson ≠ none ∧ failureJson ≠ current.failureJson then throw mismatch
  if input.reconciliationReason ≠ none ∧
      input.reconciliationReason.map trim ≠ current.reconciliationReason then
    throw mismatch

/-- What `terminalStmt` writes. -/
structure Settlement where
  status : CronRunStatus
  outcomeJson : Option String
  failureJson : Option String
  reconciliationReason : Option String
  evidenceEnvelopeId : Option String
  now : String

/-- The row that `terminalStmt` sets. -/
def settledRow (settlement : Settlement) (run : CronRun) : CronRun :=
  { run with
    status := settlement.status
    phase := .settlement
    outcomeJson := settlement.outcomeJson
    failureJson := settlement.failureJson
    reconciliationReason := settlement.reconciliationReason
    linkage := (CronRunLinkage.ofEvidence settlement.evidenceEnvelopeId).coalesce run.linkage
    updatedAt := settlement.now
    settledAt := some settlement.now }

/-- The part of `terminalize` for a run that is not settled. -/
def settleActive (token : CronRunToken) (current : CronRun) (targetStatus : CronRunStatus)
    (input : SettlementInput) (now : String) (store : CronStore) :
    Except CronRunError Outcome := do
  if (← store.ownsActiveGeneration token) = false then return unchanged store
  else
    let _ ← assertLinkageCompatible current (.ofEvidence input.evidenceEnvelopeId)
    let outcomeJson ← boundedJson? input.outcome "outcome"
    let failureJson ← boundedJson? input.failure "failure"
    let reconciliationReason ←
      normalizeOptional input.reconciliationReason "reconciliationReason"
    let evidenceEnvelopeId ← normalizeOptional input.evidenceEnvelopeId "evidenceEnvelopeId"
    let settlement : Settlement :=
      { status := targetStatus, outcomeJson, failureJson, reconciliationReason,
        evidenceEnvelopeId, now }
    match ← store.updateRun token
        (fun run => run.status = current.status && run.phase = current.phase)
        (settledRow settlement) with
    | none => return unchanged store
    | some written =>
        let written :=
          if targetStatus ≠ .manualReconciliationRequired then written.clearActiveJob token now
          else written
        return (written.getRun token.runId, written)

def terminalize (token : CronRunTokenInput) (targetStatus : CronRunStatus)
    (input : SettlementInput) (databaseNow : String) (store : CronStore) :
    Except CronRunError Outcome := do
  let token ← normalizeToken token
  let now ← callTime dates input.now databaseNow
  if targetStatus.isTerminal = false then
    throw (.validation "status" "Terminal cron run status is required.")
  else if targetStatus = .manualReconciliationRequired ∧
      trim (input.reconciliationReason.getD "") = "" then
    throw (.validation "reconciliationReason"
      "reconciliationReason is required for manual reconciliation.")
  else
    match store.getRun token.runId with
    | none => return unchanged store
    | some current =>
        if tokenMatches current token = false then return unchanged store
        else if current.status.isTerminal = true then
          if current.status ≠ targetStatus then return unchanged store
          else
            let _ ← assertTerminalReplayCompatible current input
            return (some current, store)
        else settleActive token current targetStatus input now store

/-- The row that `reconcileStmt` sets. -/
def reconciledRow (status : CronRunStatus) (outcomeJson failureJson : Option String)
    (evidenceEnvelopeId : Option String) (resolution reconciledBy now : String)
    (run : CronRun) : CronRun :=
  { run with
    status := status
    outcomeJson := outcomeJson.or run.outcomeJson
    failureJson := failureJson
    linkage := (CronRunLinkage.ofEvidence evidenceEnvelopeId).coalesce run.linkage
    reconciliationResolution := some resolution
    reconciledAt := some now
    reconciledBy := some reconciledBy
    updatedAt := now }

def recordReconciliation (token : CronRunTokenInput) (targetStatus : CronRunStatus)
    (resolution reconciledBy : String) (input : SettlementInput) (databaseNow : String)
    (store : CronStore) : Except CronRunError Outcome := do
  let token ← normalizeToken token
  let now ← callTime dates input.now databaseNow
  if targetStatus.isTerminal = false then
    throw (.validation "status" "Terminal cron run status is required.")
  else if targetStatus = .manualReconciliationRequired then
    throw (.validation "status" "Reconciliation must resolve to a final terminal status.")
  else
    let evidenceEnvelopeId ← normalizeOptional input.evidenceEnvelopeId "evidenceEnvelopeId"
    match store.getRun token.runId with
    | none => return unchanged store
    | some current =>
        if tokenMatches current token = false then return unchanged store
        else
          let _ ← assertLinkageCompatible current (.ofEvidence evidenceEnvelopeId)
          let resolution ← normalizeRequired resolution "resolution"
          let reconciledBy ← normalizeRequired reconciledBy "reconciledBy"
          let outcomeJson ← boundedJson? input.outcome "outcome"
          let failureJson ← boundedJson? input.failure "failure"
          match ← store.updateRun token
              (fun run =>
                run.status = .manualReconciliationRequired && run.reconciledAt = none)
              (reconciledRow targetStatus outcomeJson failureJson evidenceEnvelopeId
                resolution reconciledBy now) with
          | none => return unchanged store
          | some written =>
              let written := written.clearActiveJob token now
              return (written.getRun token.runId, written)

end Operations

end GoatCitadel.Cron
