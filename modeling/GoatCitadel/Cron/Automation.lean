import GoatCitadel.Cron.RunFencing
import GoatCitadel.Cron.Schedule

/-!
# The due sweep

A sweep visits the jobs and runs those that are due and were not run in the
current window.  The window of the last run is told from the time at which it
finished; the occurrence that is admitted, from the time of the sweep.

Runs are also started by hand, or forced, and finish whenever they do.  What a
finished run leaves in the columns of its job is what later sweeps read.
-/

namespace GoatCitadel.Cron

open GoatCitadel.Support
open GoatCitadel.Storage.WorktreeLeaseRepository (DateText)

/-! ## State -/

/-- The columns of `cron_jobs` that the scheduler reads and runs do not. -/
structure CronJobColumns where
  schedule : String
  enabled : Bool
  endAt : Option String
  lastRunAt : Option String
  failureCount : Option Nat
  backoffUntil : Option String

/-- The jobs and their runs, with the columns of the scheduler. -/
structure CronAutomation where
  store : CronStore
  columns : String → Option CronJobColumns

/-- Dates whose texts have no white space around them. -/
structure CronDates extends DateText where
  trim_toISOString : ∀ {ms text}, toISOString ms = some text → trim text = text

inductive CronAutomationError
  | invalidJobId
  | jobNotFound (jobId : String)
  | paused (jobId : String)
  | ended (jobId : String)
  | backoff (jobId backoffUntil : String)
  | scopeRefused (message : String)
  | admissionClosed (reason : String)
  | occurrenceTimestamp
  | timeOutOfRange
  | run (error : CronRunError)

/-- What a run reads of its surroundings. -/
structure CronHost where
  /-- `randomUUID()` -/
  requestedRunId : String
  /-- The clock of the database. -/
  databaseNow : String
  /-- Why the citadel of the job refuses the run. -/
  scopeError : Option String
  /-- Why the shared host admits no work. -/
  closedReason : Option String

structure CronRunOptions where
  force : Bool
  reason : Option String
  scheduledFor : Option String
  admissionKey : Option String

namespace CronAutomation

/-- A job as the repository of the jobs reads it. -/
def getJob (state : CronAutomation) (jobId : String) : Option CronJobRecord := do
  let row ← state.store.jobs jobId
  let columns ← state.columns jobId
  return { jobId
           action := row.definition.action
           schedule := columns.schedule
           enabled := columns.enabled
           endAt := columns.endAt
           activeRunId := row.activeRunId
           lastRunAt := columns.lastRunAt
           failureCount := columns.failureCount
           backoffUntil := columns.backoffUntil }

/-- The columns of a job, changed. -/
def setColumns (jobId : String) (set : CronJobColumns → CronJobColumns)
    (state : CronAutomation) : CronAutomation :=
  { state with
    columns := fun id => if id = jobId then (state.columns id).map set else state.columns id }

end CronAutomation

/-! ## Running a job -/

/-- `String.prototype.toLowerCase`, as far as its result can be an identifier: the
Kelvin sign is the one character outside of ASCII that becomes a letter of it. -/
def lowerIdCharacter (c : Char) : Char :=
  if c.toNat = 0x212A then 'k' else c.toLower

/-- `/^[a-z0-9][a-z0-9_-]{2,63}$/` -/
def isCronJobId (chars : List Char) : Bool :=
  match chars with
  | [] => false
  | first :: rest =>
      (first.isLower || first.isDigit) &&
        rest.all (fun c => c.isLower || c.isDigit || c = '_' || c = '-') &&
        2 ≤ rest.length && rest.length ≤ 63

def normalizeCronJobId (value : String) : Except CronAutomationError String :=
  let chars := (trim value).toList.map lowerIdCharacter
  if isCronJobId chars = true then return String.ofList chars else throw .invalidJobId

section Operations

variable (zones : TimeZones) (dates : CronDates)

def getCronJob (state : CronAutomation) (jobId : String) :
    Except CronAutomationError CronJobRecord := do
  let normalizedJobId ← normalizeCronJobId jobId
  match state.getJob normalizedJobId with
  | some job => return job
  | none => throw (.jobNotFound normalizedJobId)

/-- `Date.prototype.toISOString` -/
def printTime (ms : Int) : Except CronAutomationError String :=
  match dates.toISOString ms with
  | some text => return text
  | none => throw .timeOutOfRange

def normalizeCronOccurrenceTimestamp (value : String) : Except CronAutomationError String :=
  match dates.parse value with
  | some ms => printTime dates ms
  | none => throw .occurrenceTimestamp

/-- The trigger of a run with these options. -/
def CronRunOptions.trigger (options : CronRunOptions) : CronRunTrigger :=
  if options.force = true then .forced
  else if options.reason = some "scheduled_due" then .scheduledDue
  else .manual

/-- The admission key of a run: that of its caller, or one of its occurrence or
its own. -/
def CronRunOptions.admissionKeyFor (options : CronRunOptions)
    (scheduledFor requestedRunId : String) : String :=
  match present (options.admissionKey.map trim) with
  | some admissionKey => admissionKey
  | none =>
      match options.trigger with
      | .scheduledDue => "scheduled:" ++ scheduledFor
      | .manual => "manual:" ++ requestedRunId
      | .forced => "forced:" ++ requestedRunId

/-- The occurrence that a run is for: that of its caller, or the time of the call. -/
def givenOccurrence (options : CronRunOptions) (now : Int) :
    Except CronAutomationError String :=
  match options.scheduledFor with
  | some scheduledFor => return scheduledFor
  | none => printTime dates now

/-- The admission of a run for an occurrence. -/
def admissionInput (job : CronJobRecord) (options : CronRunOptions) (scheduledFor : String)
    (host : CronHost) : CronRunBeginInput where
  runId := some host.requestedRunId
  jobId := job.jobId
  admissionKey := options.admissionKeyFor scheduledFor host.requestedRunId
  scheduledFor := scheduledFor
  trigger := some options.trigger

/-- The admission that `beginCanonicalInlineCronRun` and `runCanonicalAgentTurnCronJob`
start with. -/
def beginCanonicalCronRun (job : CronJobRecord) (options : CronRunOptions) (now : Int)
    (host : CronHost) (store : CronStore) :
    Except CronAutomationError (CronRunBeginResult × CronStore) := do
  let given ← givenOccurrence dates options now
  let scheduledFor ← normalizeCronOccurrenceTimestamp dates given
  match beginAdmission dates.toDateText (admissionInput job options scheduledFor host) none
      host.requestedRunId host.databaseNow store with
  | .ok answer => return answer
  | .error error => throw (.run error)

/-- `runCronJobNow`, up to the admission of the run. -/
def runCronJobNow (jobId : String) (options : CronRunOptions) (now : Int) (host : CronHost)
    (state : CronAutomation) :
    Except CronAutomationError (CronRunBeginResult × CronAutomation) := do
  let normalizedJobId ← normalizeCronJobId jobId
  let job ← getCronJob state normalizedJobId
  if options.force = false ∧ job.enabled = false then
    throw (.paused normalizedJobId)
  else if options.force = false ∧
      ((present job.endAt).bind dates.parse).any (fun endAt => decide (endAt < now)) = true then
    throw (.ended normalizedJobId)
  else if options.force = false ∧ isCronJobBackedOff dates.toDateText job now = true then
    throw (.backoff normalizedJobId (job.backoffUntil.getD ""))
  else
    match host.scopeError, host.closedReason with
    | some message, _ => throw (.scopeRefused message)
    | none, some reason => throw (.admissionClosed reason)
    | none, none =>
        let (result, store) ← beginCanonicalCronRun dates job options now host state.store
        return (result, { state with store })

/-! ## The sweep -/

/-- What a sweep does about a job. -/
inductive CronSweepAnswer
  /-- The job has an active run, which is observed. -/
  | observed (runId : String)
  /-- The job is not to be run. -/
  | passed
  | backoff
  | admitted (run : CronRun)
  /-- The admission names a run that is there already. -/
  | existing (run : CronRun)
  | failed (error : CronAutomationError)

/-- The answer for an admission that was asked for. -/
def CronSweepAnswer.ofResult : CronRunBeginResult → CronSweepAnswer
  | .begun run => .admitted run
  | .duplicate run => .existing run
  | .blocked activeRun => .existing activeRun

/-- The options of a run for an occurrence that is due. -/
def dueOptions (scheduledFor : String) : CronRunOptions where
  force := false
  reason := some "scheduled_due"
  scheduledFor := some scheduledFor
  admissionKey := some ("scheduled:" ++ scheduledFor)

/-- The part of the sweep for a job that is due and not backed off. -/
def runDueJob (job : CronJobRecord) (now : Int) (host : CronHost) (state : CronAutomation) :
    CronSweepAnswer × CronAutomation :=
  match computeCronOccurrenceScheduledFor zones dates.toDateText job now with
  | none => (.failed .timeOutOfRange, state)
  | some scheduledFor =>
      match runCronJobNow dates job.jobId (dueOptions scheduledFor) now host state with
      | .ok (result, state') => (.ofResult result, state')
      | .error error => (.failed error, state)

/-- What `runDueTaskCronJobs` does about one job. -/
def visitJob (job : CronJobRecord) (now : Int) (host : CronHost) (state : CronAutomation) :
    CronSweepAnswer × CronAutomation :=
  match present job.activeRunId with
  | some activeRunId => (.observed activeRunId, state)
  | none =>
      if isScheduledCronAction job.action = false ∨ job.enabled = false then (.passed, state)
      else if isCronJobActive dates.toDateText job now = false then (.passed, state)
      else if isExplicitCronJobDueNow zones job now = false then (.passed, state)
      else if didCronJobRunInCurrentWindow zones dates.toDateText job now = true then
        (.passed, state)
      else if isCronJobBackedOff dates.toDateText job now = true then (.backoff, state)
      else runDueJob zones dates job now host state

/-! ## What runs leave in the columns -/

/-- The patch of `recordCronRunSuccess`. -/
def succeededColumns (finishedAt : String) (columns : CronJobColumns) : CronJobColumns :=
  { columns with lastRunAt := some finishedAt, failureCount := some 0, backoffUntil := none }

/-- The patch of `recordCronRunFailure`; nothing when a time cannot be printed. -/
def failedColumns? (job : CronJobRecord) (failedAt : Int) :
    Option (CronJobColumns → CronJobColumns) := do
  let failureCount := job.failureCount.getD 0 + 1
  let failedAtText ← dates.toISOString failedAt
  let backoffUntil ← computeCronBackoffUntil dates.toDateText failedAt failureCount
  return fun columns =>
    { columns with
      lastRunAt := some failedAtText
      failureCount := some failureCount
      backoffUntil := some backoffUntil }

/-- What a finished run sets in the columns of its job. -/
def finishedColumns? (job : CronJobRecord) (succeeded : Bool) (finishedAt : Int) :
    Option (CronJobColumns → CronJobColumns) :=
  if succeeded = true then succeededColumns <$> dates.toISOString finishedAt
  else failedColumns? dates job finishedAt

/-- The columns are set when they are not fenced by a generation, or when the job
is still in it. -/
def passesFence (jobId : String) (generation : Option Nat) (state : CronAutomation) : Bool :=
  generation.all fun generation =>
    (state.store.jobs jobId).any (·.executionGeneration = generation)

/-- The columns of a job after one of its runs has finished.  The generation is the
fence of `recordCanonicalCronTerminalTelemetry`; inline runs have none. -/
def recordFinished (jobId : String) (generation : Option Nat) (succeeded : Bool)
    (finishedAt : Int) (state : CronAutomation) : CronAutomation :=
  match (state.getJob jobId).bind fun job => finishedColumns? dates job succeeded finishedAt with
  | some set =>
      if passesFence jobId generation state = true then state.setColumns jobId set else state
  | none => state

/-- `recordCanonicalCronPendingTelemetry` -/
def recordPending (jobId : String) (generation : Nat) (state : CronAutomation) :
    CronAutomation :=
  if passesFence jobId (some generation) state = true then
    state.setColumns jobId fun columns => { columns with lastRunAt := none }
  else state

/-! ## Runs of the scheduler -/

/-- A sweep's visit of a job, a run that is started by hand or forced, a later
transaction of a run, the end of a run in the columns of its job, or a change of
the job. -/
inductive CronEvent
  | visit (jobId : String) (now : Int) (host : CronHost) (answer : CronSweepAnswer)
  | runNow (jobId : String) (force : Bool) (reason : Option String) (now : Int)
      (host : CronHost) (answer : Except CronAutomationError CronRunBeginResult)
  | moveRun (call : Call)
  | finish (jobId : String) (generation : Option Nat) (succeeded : Bool) (finishedAt : Int)
  | pending (jobId : String) (generation : Nat)
  | configure (jobId : String) (definition : CronJobDefinition) (enabled : Bool)
      (endAt : Option String)

/-- The options of a run that is started by hand or forced. -/
def manualOptions (force : Bool) (reason : Option String) : CronRunOptions where
  force := force
  reason := reason
  scheduledFor := none
  admissionKey := none

/-- The state after a run that was asked for. -/
def CronAutomation.afterRunNow (state : CronAutomation)
    (result : Except CronAutomationError (CronRunBeginResult × CronAutomation)) :
    Except CronAutomationError CronRunBeginResult × CronAutomation :=
  match result with
  | .ok (answer, state') => (.ok answer, state')
  | .error error => (.error error, state)

/-- One event. -/
def CronAutomation.Step (state : CronAutomation) (event : CronEvent)
    (state' : CronAutomation) : Prop :=
  match event with
  | .visit jobId now host answer =>
      ∃ job, state.getJob jobId = some job ∧
        visitJob zones dates job now host state = (answer, state')
  | .runNow jobId force reason now host answer =>
      state.afterRunNow (runCronJobNow dates jobId (manualOptions force reason) now host state) =
        (answer, state')
  | .moveRun call =>
      call.token ≠ none ∧
        state' = { state with store := call.after dates.toDateText state.store }
  | .finish jobId generation succeeded finishedAt =>
      state' = recordFinished dates jobId generation succeeded finishedAt state
  | .pending jobId generation => state' = recordPending jobId generation state
  | .configure jobId definition enabled endAt =>
      state' = ({ state with
        store := (Call.redefineJob jobId definition).after dates.toDateText state.store }
          ).setColumns jobId fun columns => { columns with enabled, endAt }

end Operations

end GoatCitadel.Cron
