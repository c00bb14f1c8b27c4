import GoatCitadel.Orchestration.Plan
import GoatCitadel.Support.Runs

/-!
# The orchestration engine

A run of a plan goes through its phases one by one.  `startRun` enters the first
phase, `approvePhase` lets a phase that waits for an operator go on, and `advancePhase`
leaves the current phase, adds up what it has cost and enters the next one, unless a
limit of the plan or the budget of the wave is reached.
-/

namespace GoatCitadel.Orchestration

open GoatCitadel.Support

/-! ## Runs -/

/-- `OrchestrationRunStatus` -/
inductive RunStatus
  | queued
  | running
  | paused
  | failed
  | completed
  | stoppedByLimit
  | cancelled
  deriving DecidableEq

def RunStatus.text : RunStatus → String
  | queued => "queued"
  | running => "running"
  | paused => "paused"
  | failed => "failed"
  | completed => "completed"
  | stoppedByLimit => "stopped_by_limit"
  | cancelled => "cancelled"

/-- `OrchestrationStopReason` -/
inductive StopReason
  | planLimit
  | waveBudgetExceeded
  deriving DecidableEq

/-- A value of the record of wave costs: a number, or the text that `+` makes of anything
else and a number. -/
inductive CostEntry
  | usd (amount : ℚ)
  | text (value : String)
  deriving DecidableEq

structure OrchestrationRun where
  runId : String
  planId : String
  status : RunStatus
  startedAt : String
  endedAt : Option String := none
  currentWaveId : Option String := none
  currentPhaseId : Option String := none
  totalCostUsd : ℚ
  totalIterations : Nat
  /-- The properties of the record itself, in the order they were added in. -/
  waveCostUsdByWaveId : Option (List (String × CostEntry)) := none
  stopReason : Option StopReason := none
  pendingApprovalPhaseId : Option String := none
  pendingApprovedBy : Option String := none
  pendingCostIncrementUsd : Option ℚ := none
  deriving DecidableEq

/-! ### The record of wave costs -/

/-- The functions that every object has from `Object.prototype`. -/
def objectMethods : List String :=
  ["hasOwnProperty", "isPrototypeOf", "propertyIsEnumerable", "toLocaleString", "toString",
    "valueOf", "__defineGetter__", "__defineSetter__", "__lookupGetter__", "__lookupSetter__"]

/-- What `+` makes a text of when it reads a property that an object only has from
`Object.prototype`. -/
def inheritedText (name : String) : Option String :=
  if name = "__proto__" then some "[object Object]"
  else if name = "constructor" then some "function Object() \x7b [native code] \x7d"
  else if name ∈ objectMethods then some ("function " ++ name ++ "() \x7b [native code] \x7d")
  else none

/-- `record?.[waveId] ?? 0` -/
def readCost (record : Option (List (String × CostEntry))) (waveId : String) : CostEntry :=
  match record with
  | none => .usd 0
  | some entries =>
      match entries.lookup waveId with
      | some entry => entry
      | none => ((inheritedText waveId).map CostEntry.text).getD (.usd 0)

/-- `{ ...entries, [waveId]: entry }` -/
def setEntry (waveId : String) (entry : CostEntry) :
    List (String × CostEntry) → List (String × CostEntry)
  | [] => [(waveId, entry)]
  | (key, value) :: entries =>
      if waveId == key then (key, entry) :: entries
      else (key, value) :: setEntry waveId entry entries

/-! ### Looking things up in a plan -/

structure NextPhase where
  waveId : String
  phaseId : String

def phaseNotFound (planId phaseId : String) : EngineError :=
  .message ("Phase " ++ phaseId ++ " not found in plan " ++ planId)

def findPhase (plan : OrchestrationPlan) (phaseId : String) :
    Except EngineError OrchestrationPhase :=
  match plan.waves.findSome? fun wave => wave.phases.find? (·.phaseId == phaseId) with
  | some phase => .ok phase
  | none => .error (phaseNotFound plan.planId phaseId)

def findWaveForPhase (plan : OrchestrationPlan) (phaseId : String) :
    Except EngineError OrchestrationWave :=
  match plan.waves.find? fun wave => wave.phases.any (·.phaseId == phaseId) with
  | some wave => .ok wave
  | none => .error (phaseNotFound plan.planId phaseId)

/-- A validated plan has a first phase. -/
def firstPhase (plan : OrchestrationPlan) : Except EngineError NextPhase :=
  match plan.waves with
  | [] => .error (.message "Cannot read properties of undefined (reading 'phases')")
  | wave :: _ =>
      match wave.phases with
      | [] => .error (.message "Cannot read properties of undefined (reading 'phaseId')")
      | phase :: _ => .ok { waveId := wave.waveId, phaseId := phase.phaseId }

/-- The loop of `nextPhase` over the waves. -/
def nextPhaseIn (planId currentPhaseId : String) :
    List OrchestrationWave → Except EngineError (Option NextPhase)
  | [] => .error (phaseNotFound planId currentPhaseId)
  | wave :: rest =>
      match wave.phases.findIdx? (·.phaseId == currentPhaseId) with
      | none => nextPhaseIn planId currentPhaseId rest
      | some phaseIndex =>
          match wave.phases[phaseIndex + 1]? with
          | some nextInWave => .ok (some { waveId := wave.waveId, phaseId := nextInWave.phaseId })
          | none =>
              match rest with
              | [] => .ok none
              | nextWave :: _ =>
                  .ok (nextWave.phases.head?.map fun firstInNextWave =>
                    { waveId := nextWave.waveId, phaseId := firstInNextWave.phaseId })

def nextPhase (plan : OrchestrationPlan) (currentPhaseId : String) :
    Except EngineError (Option NextPhase) :=
  nextPhaseIn plan.planId currentPhaseId plan.waves

/-- A phase waits for operator approval before it runs: every phase in `hitl` mode, or
one marked `requiresApproval`. -/
def isApprovalGated (plan : OrchestrationPlan) (phaseId : String) : Except EngineError Bool := do
  let phase ← findPhase plan phaseId
  return plan.mode == .hitl || phase.requiresApproval

/-! ## The engine -/

/-- What the engine takes from the language's runtime. -/
structure Runtime extends CaseMapping where
  /-- `Date.parse`, in milliseconds; nothing for what is not a date. -/
  parseDate : String → Option Int
  /-- The text of a number. -/
  numeral : ℚ → String

structure RunLimitState where
  iterations : Nat
  /-- Nothing for `NaN`. -/
  runtimeMinutes : Option ℚ
  costUsd : ℚ

def shouldStopByLimits (plan : OrchestrationPlan) (state : RunLimitState) : Bool :=
  plan.maxIterations ≤ (state.iterations : ℚ) ||
    state.runtimeMinutes.any (plan.maxRuntimeMinutes ≤ ·) ||
    plan.maxCostUsd ≤ state.costUsd

/-- A text that does not begin with a digit is no number, and `NaN` is not at least
anything. -/
def shouldStopByWaveBudget (wave : OrchestrationWave) (accumulatedCostUsd : CostEntry) : Bool :=
  0 < wave.budgetUsd &&
    match accumulatedCostUsd with
    | .usd amount => wave.budgetUsd ≤ amount
    | .text _ => false

structure PhaseApprovalOptions where
  now : Option String := none

structure PhaseAdvanceOptions where
  now : Option String := none
  costIncrementUsd : Option ℚ := none

section

variable (runtime : Runtime) (plan : OrchestrationPlan)

def createRun (runId clock : String) : Except EngineError OrchestrationRun := do
  validate runtime.toCaseMapping plan
  return { runId, planId := plan.planId, status := .queued, startedAt := clock,
           totalCostUsd := 0, totalIterations := 0 }

def startRun (run : OrchestrationRun) : Except EngineError OrchestrationRun := do
  validate runtime.toCaseMapping plan
  if run.status ≠ .queued then
    throw (.message ("Run " ++ run.runId ++ " cannot be started from status " ++ run.status.text))
  let first ← firstPhase plan
  let gated ← isApprovalGated plan first.phaseId
  return { run with
    status := if gated then .paused else .running
    currentWaveId := some first.waveId
    currentPhaseId := some first.phaseId
    endedAt := none }

/-- Minutes from the start of the run to `now`. -/
def runtimeMinutes (run : OrchestrationRun) (now : String) : Option ℚ := do
  let finish ← runtime.parseDate now
  let start ← runtime.parseDate run.startedAt
  return max 0 (((finish - start : Int) : ℚ) / 60000)

def approvePhase (run : OrchestrationRun) (approvedPhaseId : String)
    (options : PhaseApprovalOptions) (clock : String) : Except EngineError OrchestrationRun := do
  validate runtime.toCaseMapping plan
  if run.status ≠ .paused then
    throw (.message ("Run " ++ run.runId ++ " is not waiting for approval: " ++ run.status.text))
  if run.currentPhaseId ≠ some approvedPhaseId then
    throw (.message ("Run " ++ run.runId ++ " expected phase " ++
      run.currentPhaseId.getD "<none>" ++ " but received approval for " ++ approvedPhaseId))
  let gated ← isApprovalGated plan approvedPhaseId
  if !gated then
    throw (.message ("Phase " ++ approvedPhaseId ++ " is not approval-gated for run " ++ run.runId))
  let now := options.now.getD clock
  if shouldStopByLimits plan
      { iterations := run.totalIterations, runtimeMinutes := runtimeMinutes runtime run now,
        costUsd := run.totalCostUsd } then
    return { run with
      status := .stoppedByLimit
      stopReason := some .planLimit
      pendingApprovalPhaseId := none
      pendingApprovedBy := none
      pendingCostIncrementUsd := none
      endedAt := some now }
  return { run with
    status := .running
    pendingApprovalPhaseId := some approvedPhaseId
    endedAt := none }

/-- `previous + costIncrementUsd` -/
def addCost (previous : CostEntry) (costIncrementUsd : ℚ) : CostEntry :=
  match previous with
  | .usd amount => .usd (amount + costIncrementUsd)
  | .text value => .text (value ++ runtime.numeral costIncrementUsd)

/-- The status in which the next phase is entered. -/
def enteredStatus (next : Option NextPhase) : Except EngineError RunStatus :=
  match next with
  | none => .ok .completed
  | some next => do
      let gated ← isApprovalGated plan next.phaseId
      return if gated then .paused else .running

def advanceFromPhase (run : OrchestrationRun) (phaseId : String)
    (options : PhaseAdvanceOptions) (clock : String) : Except EngineError OrchestrationRun := do
  let now := options.now.getD clock
  let next ← nextPhase plan phaseId
  let costIncrementUsd := options.costIncrementUsd.getD 0
  -- The increment belongs to the wave of the phase that is left.
  let executedWave ← findWaveForPhase plan phaseId
  let waveCostUsd :=
    addCost runtime (readCost run.waveCostUsdByWaveId executedWave.waveId) costIncrementUsd
  let status ← enteredStatus plan next
  let candidate : OrchestrationRun := { run with
    totalIterations := run.totalIterations + 1
    totalCostUsd := run.totalCostUsd + costIncrementUsd
    waveCostUsdByWaveId :=
      some (setEntry executedWave.waveId waveCostUsd (run.waveCostUsdByWaveId.getD []))
    currentWaveId := next.map (·.waveId)
    currentPhaseId := next.map (·.phaseId)
    pendingApprovalPhaseId := none
    pendingApprovedBy := none
    pendingCostIncrementUsd := none
    status
    endedAt := if next.isSome then none else some now }
  -- After the final phase there is no work left to stop.
  if next.isNone then
    return candidate
  if shouldStopByLimits plan
      { iterations := candidate.totalIterations, runtimeMinutes := runtimeMinutes runtime run now,
        costUsd := candidate.totalCostUsd } then
    return { candidate with
      status := .stoppedByLimit, stopReason := some .planLimit, endedAt := some now }
  if shouldStopByWaveBudget executedWave waveCostUsd then
    return { candidate with
      currentWaveId := some executedWave.waveId
      currentPhaseId := some phaseId
      status := .stoppedByLimit
      stopReason := some .waveBudgetExceeded
      endedAt := some now }
  return candidate

def advancePhase (run : OrchestrationRun) (phaseId : String)
    (options : PhaseAdvanceOptions) (clock : String) : Except EngineError OrchestrationRun := do
  validate runtime.toCaseMapping plan
  if run.status ≠ .running then
    throw (.message ("Run " ++ run.runId ++ " is not actively running: " ++ run.status.text))
  if run.currentPhaseId ≠ some phaseId then
    throw (.message ("Run " ++ run.runId ++ " expected phase " ++
      run.currentPhaseId.getD "<none>" ++ " but received advancement for " ++ phaseId))
  let gated ← isApprovalGated plan phaseId
  if gated && run.pendingApprovalPhaseId ≠ some phaseId then
    throw (.message ("Phase " ++ phaseId ++ " requires approval and cannot auto-advance for run " ++
      run.runId))
  advanceFromPhase runtime plan run phaseId options clock

/-! ### Calls -/

/-- A call of the engine on a run, with the time of the clock when it is made. -/
inductive EngineCall
  | start
  | approve (phaseId : String) (options : PhaseApprovalOptions) (clock : String)
  | advance (phaseId : String) (options : PhaseAdvanceOptions) (clock : String)

def perform (run : OrchestrationRun) : EngineCall → Except EngineError OrchestrationRun
  | .start => startRun runtime plan run
  | .approve phaseId options clock => approvePhase runtime plan run phaseId options clock
  | .advance phaseId options clock => advancePhase runtime plan run phaseId options clock

/-- The call returns normally. -/
def Performs (run : OrchestrationRun) (call : EngineCall) (run' : OrchestrationRun) : Prop :=
  perform runtime plan run call = .ok run'

end

end GoatCitadel.Orchestration
