import GoatCitadel.Policy.Evaluation
import GoatCitadel.Support.Runs

/-!
# Invocations

`invoke` and `executeApprovedAction` as a step relation.  Each call is in a
phase that says which storage call or tool run it makes next; every storage
call, every transaction and every run of a tool is one step, and the steps of
any number of calls interleave freely with each other, with the operator's
decisions, with grants being made and revoked, and with the clock.

What surrounds an evaluation (the configuration, the file system) is read anew
at each one, so each evaluation comes with an engine of its own.
-/

namespace GoatCitadel.Policy

open GoatCitadel.Support
open GoatCitadel.Sandbox

/-! ## Recorded evaluations -/

/-- An evaluation as a call keeps it: what it was made from, its result and
the approval that the call runs under. -/
structure Evaluated where
  engine : Engine
  store : Store
  now : Nat
  request : ToolRequest
  options : ToolPolicyEvaluateOptions
  approvalId : Option String
  evaluation : AccessEvaluation

/-- What the evaluation starts from. -/
def Evaluated.context (evaluated : Evaluated) : Except String AccessContext :=
  accessContext evaluated.engine evaluated.now
    { request := evaluated.request, options := evaluated.options }

/-- The decision row of an evaluation. -/
def decisionRow (identity : InvocationPolicy) (evaluated : Evaluated) (recordedAt : Nat)
    (decisionId : String) : ToolAccessDecisionRecord :=
  let approved := evaluated.approvalId.isSome
  let evaluation := evaluated.evaluation
  { decisionId := decisionId
    timestamp := recordedAt
    toolName := identity.accountingToolName
    policyToolName := identity.mappedTarget.map (·.policyToolName)
    agentId := evaluated.request.agentId
    sessionId := evaluated.request.sessionId
    workspaceId := evaluated.request.workspaceId
    taskId := evaluated.request.taskId
    allowed := evaluation.allowed
    matchedGrantId := evaluation.matchedGrantId
    requiresApproval := if approved then false else evaluation.requiresApproval
    riskLevel := evaluation.riskLevel
    countsTowardLimits := evaluation.allowed &&
      (approved || (!evaluation.requiresApproval && evaluated.request.dryRun ≠ some true)) }

/-- `evaluateInvocationAccess`: the evaluation and the decision row recorded
in one transaction. -/
structure InvocationEvaluation (evaluated : Evaluated) (recordedAt : Nat)
    (decision : ToolAccessDecisionRecord) : Prop where
  evaluation : evaluateAccessInternal evaluated.engine evaluated.store evaluated.now
    { request := evaluated.request, options := evaluated.options } = .ok evaluated.evaluation
  decision : ∃ identity decisionId,
    resolveInvocationPolicy evaluated.engine evaluated.request evaluated.options =
      .ok identity ∧ decision = decisionRow identity evaluated recordedAt decisionId
  ordered : evaluated.now ≤ recordedAt

def Store.record (store : Store) (decision : ToolAccessDecisionRecord) : Store :=
  { store with decisions := decision :: store.decisions }

/-! ## Requests under approval -/

/-- `asToolInvokeRequest` on a stored request. -/
def asToolInvokeRequest (stored : ToolRequest) : Except String ToolRequest :=
  if stored.toolName = "" ∨ stored.agentId = "" ∨ stored.sessionId = "" then
    .error "Invalid pending action request payload"
  else
    let unlessBlank := fun (value : Option String) => value.filter fun text => trim text ≠ ""
    .ok
      { stored with
        args := some (stored.args.getD [])
        approvedByApprovalId := none
        turnId := unlessBlank stored.turnId
        toolRunId := unlessBlank stored.toolRunId
        citadelId := unlessBlank stored.citadelId
        chamberId := none
        workspaceId := stored.workspaceId.bind nonEmpty
        taskId := stored.taskId.bind nonEmpty
        runId := stored.runId.bind nonEmpty
        permissionProfileId := stored.permissionProfileId.bind nonEmpty
        localOperatorOverrideId := stored.localOperatorOverrideId.bind nonEmpty }

/-- The stored request with the reference to its approval. -/
def approvedRequest (approvalId : String) (request : ToolRequest) : ToolRequest :=
  { request with consentReason := some ("approval:" ++ approvalId) }

/-- `mintOwnDeliveryFromRegistration` and the marker of the caller. -/
def resolveApprovedOwnDelivery (engine : Engine) (store : Store) (approvalId toolName : String)
    (options : ToolPolicyEvaluateOptions) : Option (Handle OwnDeliveryReason) :=
  if isOwnDeliveryMarker options.ownDelivery then options.ownDelivery
  else if (toolNamesSwitchedOff engine.toolGroups
      (policyConfig engine).tools.disabledGroups).isEmpty then
    none
  else
    ((store.registrations approvalId).filter fun registration =>
      registration.toolName = toolName).bind fun registration =>
        registration.ownDelivery.map .minted

/-- A call of `executeApprovedAction`. -/
structure ApprovedCall where
  approvalId : String
  options : ToolPolicyEvaluateOptions
  deferResolution : Bool
  externalRuntimeReplay : Bool
  /-- The call of `invoke` that goes on when no result comes back. -/
  invocation : Option (ToolRequest × ToolPolicyEvaluateOptions)

/-- The request that is evaluated and executed. -/
def ApprovedCall.executionRequest (call : ApprovedCall) (request : ToolRequest) : ToolRequest :=
  if call.externalRuntimeReplay then
    { request with dryRun := none, externalRuntime := some true }
  else request

/-- The identifier of the approval that `invoke` looks up before anything else. -/
def directApprovalId (request : ToolRequest) : Option String :=
  if request.toolName = codeModeRequestToolName then none else extractApprovalId request

/-! ## Phases -/

/-- Where a call stands; the name says what it does next. -/
inductive Phase
  | idle
  /-- `invoke` has read the waiting row and asks for the status of the approval. -/
  | looked (request : ToolRequest) (options : ToolPolicyEvaluateOptions)
      (approvalId : String) (pending : PendingApprovalAction)
  | evaluating (request : ToolRequest) (options : ToolPolicyEvaluateOptions)
  /-- The evaluation asks, and the approval is created. -/
  | asking (evaluated : Evaluated)
  /-- `executeApprovedAction` reads the row. -/
  | fetching (call : ApprovedCall)
  | checking (call : ApprovedCall) (request : ToolRequest)
  | confirming (call : ApprovedCall) (request : ToolRequest) (approvalId : String)
      (pending : PendingApprovalAction)
  /-- The row is resolved as failed and nothing is returned. -/
  | refusing (call : ApprovedCall)
  | replaying (call : ApprovedCall) (request : ToolRequest)
  /-- The evaluation blocks, and the row is resolved as failed. -/
  | blocking (call : ApprovedCall)
  /-- The grant is consumed; the row of `resolves` is resolved at the end. -/
  | dispatching (evaluated : Evaluated) (resolves : Option String)
  | running (evaluated : Evaluated) (resolves : Option String)
  | resolving (approvalId : String) (status : ResolutionStatus)
  | done

structure EngineState where
  store : Store
  now : Nat
  calls : Nat → Phase
  /-- The evaluations that went on to their execution, the latest first. -/
  dispatched : List (Nat × Evaluated) := []
  /-- The executions, by the executor or by an external runtime. -/
  executed : List (Nat × Evaluated) := []

namespace EngineState

def goTo (s : EngineState) (call : Nat) (phase : Phase) : EngineState :=
  { s with calls := Function.update s.calls call phase }

def withStore (s : EngineState) (store : Store) : EngineState :=
  { s with store := store }

end EngineState

/-- Where `invoke` goes on when `executeApprovedAction` returned nothing. -/
def Phase.afterNothing (call : ApprovedCall) : Phase :=
  match call.invocation with
  | some (request, options) => .evaluating request options
  | none => .done

/-- Where `invoke` goes after its evaluation. -/
def Phase.afterEvaluation (evaluated : Evaluated) : Phase :=
  if !evaluated.evaluation.allowed then .done
  else if evaluated.evaluation.requiresApproval then .asking evaluated
  else if evaluated.request.dryRun = some true then .done
  else .dispatching evaluated none

/-- Where `executeApprovedAction` goes after its evaluation. -/
def Phase.afterReplay (call : ApprovedCall) (evaluated : Evaluated) : Phase :=
  if evaluated.evaluation.allowed then
    .dispatching evaluated (if call.deferResolution then none else some call.approvalId)
  else .blocking call

/-- Where a call goes after its execution, or after a grant was gone. -/
def Phase.afterExecution (resolves : Option String) (status : ResolutionStatus) : Phase :=
  match resolves with
  | some approvalId => .resolving approvalId status
  | none => .done

/-- The phases in which a call may end by an error; after the execution it can
only stop. -/
def Phase.mayAbandon : Phase → Bool
  | .resolving _ _ => false
  | _ => true

/-! ## Steps -/

inductive Event
  /-- The waiting row of an approval was read. -/
  | read (call : Nat) (approvalId : String)
  /-- The reference to an approval passed verification. -/
  | verified (call : Nat) (approvalId : String)
  /-- A request was evaluated and its decision recorded. -/
  | evaluated (call : Nat) (evaluated : Evaluated) (decision : ToolAccessDecisionRecord)
  /-- `executeTool` was called. -/
  | ran (call : Nat) (evaluated : Evaluated)
  /-- The execution was left to the external runtime. -/
  | handedOver (call : Nat) (evaluated : Evaluated)
  | other

/-- Resolve the row unless the resolution is deferred. -/
def Store.resolveUnlessDeferred (store : Store) (call : ApprovedCall) : Store :=
  if call.deferResolution then store else store.markResolved call.approvalId .failed

/-- The grants after the dispatch of an evaluation, when it succeeds. -/
def Store.consumeFor (store : Store) (now : Nat) (evaluation : AccessEvaluation) :
    Option Store :=
  match evaluation.grantToConsume with
  | none => some store
  | some grantId =>
      let (consumed, grants) := consumeOne store.grants now grantId
      if consumed then some { store with grants := grants } else none

theorem Store.consumeFor_eq_some {store store' : Store} {now : Nat}
    {evaluation : AccessEvaluation} (h : store.consumeFor now evaluation = some store') :
    (evaluation.grantToConsume = none ∧ store' = store) ∨
      ∃ grantId, evaluation.grantToConsume = some grantId ∧
        (consumeOne store.grants now grantId).1 = true ∧
        store' = { store with grants := (consumeOne store.grants now grantId).2 } := by
  unfold Store.consumeFor at h
  split at h
  · next hgrant =>
      cases h
      exact Or.inl ⟨hgrant, rfl⟩
  · next grantId hgrant =>
      dsimp only at h
      split at h
      · next hconsumed =>
          cases h
          exact Or.inr ⟨grantId, hgrant, hconsumed, rfl⟩
      · cases h

/-- The rows of a new approval: its status, the waiting action and the
registration event. -/
def Store.registerApproval (store : Store) (evaluated : Evaluated) (approvalId : String)
    (status : ApprovalStatus) (createdAt expiresAt : Nat) : Store :=
  { store with
    approvals := Function.update store.approvals approvalId (some status)
    pendingActions := Function.update store.pendingActions approvalId
      (some
        { actionType := .toolInvoke
          request := { evaluated.request with approvedByApprovalId := none }
          createdAt := createdAt
          expiresAt := some expiresAt
          resolutionStatus := .pending })
    registrations := Function.update store.registrations approvalId
      (some
        { toolName := evaluated.request.toolName
          ownDelivery :=
            match evaluated.options.ownDelivery with
            | some (.minted reason) => some reason
            | _ => none
          outsideRootTargets := evaluated.evaluation.outsideRootTargets }) }

/-- A text that `randomUUID` can return: the characters of an approval reference. -/
def isApprovalId (approvalId : String) : Bool :=
  !approvalId.toList.isEmpty && approvalId.toList.all isApprovalIdChar

open EngineState in
inductive Step : EngineState → Event → EngineState → Prop
  /-- `invoke` without a reference to an approval. -/
  | invokes {s : EngineState} {c : Nat} {request : ToolRequest}
      {options : ToolPolicyEvaluateOptions}
      (phase : s.calls c = .idle) (reference : directApprovalId request = none) :
      Step s .other (s.goTo c (.evaluating request options))
  /-- `invoke` with a reference whose row does not wait. -/
  | invokeMisses {s : EngineState} {c : Nat} {request : ToolRequest}
      {options : ToolPolicyEvaluateOptions} {approvalId : String}
      (phase : s.calls c = .idle) (reference : directApprovalId request = some approvalId)
      (row : s.store.findFreshPending s.now approvalId = none) :
      Step s .other (s.goTo c (.evaluating request options))
  | invokeReads {s : EngineState} {c : Nat} {request : ToolRequest}
      {options : ToolPolicyEvaluateOptions} {approvalId : String}
      {pending : PendingApprovalAction}
      (phase : s.calls c = .idle) (reference : directApprovalId request = some approvalId)
      (row : s.store.findFreshPending s.now approvalId = some pending) :
      Step s (.read c approvalId) (s.goTo c (.looked request options approvalId pending))
  | invokeVerifies {s : EngineState} {c : Nat} {engine : Engine} {request : ToolRequest}
      {options : ToolPolicyEvaluateOptions} {approvalId : String}
      {pending : PendingApprovalAction}
      (phase : s.calls c = .looked request options approvalId pending)
      (verified : verifyPendingRow engine.stableStringify s.store request approvalId pending =
        true) :
      Step s (.verified c approvalId)
        (s.goTo c (.fetching
          { approvalId := approvalId
            options := { options with mcpApprovalRelief := none }
            deferResolution := request.externalRuntime = some true
            externalRuntimeReplay := false
            invocation := some (request, options) }))
  | invokeMismatch {s : EngineState} {c : Nat} {engine : Engine} {request : ToolRequest}
      {options : ToolPolicyEvaluateOptions} {approvalId : String}
      {pending : PendingApprovalAction}
      (phase : s.calls c = .looked request options approvalId pending)
      (verified : verifyPendingRow engine.stableStringify s.store request approvalId pending =
        false) :
      Step s .other (s.goTo c (.evaluating request options))
  | evaluates {s : EngineState} {c : Nat} {evaluated : Evaluated} {recordedAt : Nat}
      {decision : ToolAccessDecisionRecord}
      (phase : s.calls c = .evaluating evaluated.request evaluated.options)
      (store : evaluated.store = s.store) (now : evaluated.now = s.now)
      (approval : evaluated.approvalId = none)
      (evaluation : InvocationEvaluation evaluated recordedAt decision) :
      Step s (.evaluated c evaluated decision)
        { s.goTo c (.afterEvaluation evaluated) with
          store := s.store.record decision, now := recordedAt }
  /-- The approval is created together with its waiting action. -/
  | asks {s : EngineState} {c : Nat} {evaluated : Evaluated} {approvalId : String}
      {status : ApprovalStatus} {expiresAt : Nat}
      (phase : s.calls c = .asking evaluated)
      (identifier : isApprovalId approvalId = true)
      (fresh : s.store.pendingActions approvalId = none) :
      Step s .other
        ((s.withStore (s.store.registerApproval evaluated approvalId status s.now
          expiresAt)).goTo c .done)
  /-- `executeApprovedAction` is called. -/
  | approves {s : EngineState} {c : Nat} {approvalId : String}
      {options : ToolPolicyEvaluateOptions} {externalRuntimeReplay : Bool}
      (phase : s.calls c = .idle) :
      Step s .other
        (s.goTo c (.fetching
          { approvalId := approvalId
            options := { options with mcpApprovalRelief := none }
            deferResolution := false
            externalRuntimeReplay := externalRuntimeReplay
            invocation := none }))
  | fetchesNothing {s : EngineState} {c : Nat} {call : ApprovedCall}
      (phase : s.calls c = .fetching call)
      (row : ∀ pending, s.store.pendingActions call.approvalId = some pending →
        pending.resolutionStatus ≠ .pending) :
      Step s .other (s.goTo c (.afterNothing call))
  | fetchesUnsupported {s : EngineState} {c : Nat} {call : ApprovedCall}
      {pending : PendingApprovalAction}
      (phase : s.calls c = .fetching call)
      (row : s.store.pendingActions call.approvalId = some pending)
      (unsupported : pending.actionType ≠ .toolInvoke) :
      Step s .other (s.goTo c (.refusing call))
  | fetches {s : EngineState} {c : Nat} {call : ApprovedCall}
      {pending : PendingApprovalAction} {request : ToolRequest}
      (phase : s.calls c = .fetching call)
      (row : s.store.pendingActions call.approvalId = some pending)
      (waiting : pending.resolutionStatus = .pending)
      (supported : pending.actionType = .toolInvoke)
      (parsed : asToolInvokeRequest pending.request = .ok request) :
      Step s .other (s.goTo c (.checking call (approvedRequest call.approvalId request)))
  | approvedMisses {s : EngineState} {c : Nat} {call : ApprovedCall} {request : ToolRequest}
      (phase : s.calls c = .checking call request)
      (row : (extractApprovalId request).bind (s.store.findFreshPending s.now) = none) :
      Step s .other (s.goTo c (.refusing call))
  | approvedReads {s : EngineState} {c : Nat} {call : ApprovedCall} {request : ToolRequest}
      {approvalId : String} {pending : PendingApprovalAction}
      (phase : s.calls c = .checking call request)
      (reference : extractApprovalId request = some approvalId)
      (row : s.store.findFreshPending s.now approvalId = some pending) :
      Step s (.read c approvalId) (s.goTo c (.confirming call request approvalId pending))
  | approvedVerifies {s : EngineState} {c : Nat} {engine : Engine} {call : ApprovedCall}
      {request : ToolRequest} {approvalId : String} {pending : PendingApprovalAction}
      (phase : s.calls c = .confirming call request approvalId pending)
      (verified : verifyPendingRow engine.stableStringify s.store request approvalId pending =
        true) :
      Step s (.verified c approvalId) (s.goTo c (.replaying call request))
  | approvedMismatch {s : EngineState} {c : Nat} {engine : Engine} {call : ApprovedCall}
      {request : ToolRequest} {approvalId : String} {pending : PendingApprovalAction}
      (phase : s.calls c = .confirming call request approvalId pending)
      (verified : verifyPendingRow engine.stableStringify s.store request approvalId pending =
        false) :
      Step s .other (s.goTo c (.refusing call))
  | refuses {s : EngineState} {c : Nat} {call : ApprovedCall}
      (phase : s.calls c = .refusing call) :
      Step s .other
        ((s.withStore (s.store.resolveUnlessDeferred call)).goTo c (.afterNothing call))
  | replays {s : EngineState} {c : Nat} {call : ApprovedCall} {request : ToolRequest}
      {evaluated : Evaluated} {recordedAt : Nat} {decision : ToolAccessDecisionRecord}
      (phase : s.calls c = .replaying call request)
      (executed : evaluated.request = call.executionRequest request)
      (options : evaluated.options =
        { call.options with
          ownDelivery := resolveApprovedOwnDelivery evaluated.engine s.store call.approvalId
            request.toolName call.options })
      (store : evaluated.store = s.store) (now : evaluated.now = s.now)
      (approval : evaluated.approvalId = some call.approvalId)
      (evaluation : InvocationEvaluation evaluated recordedAt decision) :
      Step s (.evaluated c evaluated decision)
        { s.goTo c (.afterReplay call evaluated) with
          store := s.store.record decision, now := recordedAt }
  | blocks {s : EngineState} {c : Nat} {call : ApprovedCall}
      (phase : s.calls c = .blocking call) :
      Step s .other ((s.withStore (s.store.resolveUnlessDeferred call)).goTo c .done)
  /-- The grant of the evaluation, if it names one, is consumed. -/
  | dispatches {s : EngineState} {c : Nat} {evaluated : Evaluated} {resolves : Option String}
      {store : Store}
      (phase : s.calls c = .dispatching evaluated resolves)
      (consumed : s.store.consumeFor s.now evaluated.evaluation = some store) :
      Step s .other
        { (s.withStore store).goTo c (.running evaluated resolves) with
          dispatched := (c, evaluated) :: s.dispatched }
  | grantGone {s : EngineState} {c : Nat} {evaluated : Evaluated} {resolves : Option String}
      (phase : s.calls c = .dispatching evaluated resolves)
      (consumed : s.store.consumeFor s.now evaluated.evaluation = none) :
      Step s .other (s.goTo c (.afterExecution resolves .failed))
  | runs {s : EngineState} {c : Nat} {evaluated : Evaluated} {resolves : Option String}
      {status : ResolutionStatus}
      (phase : s.calls c = .running evaluated resolves)
      (here : evaluated.request.externalRuntime ≠ some true)
      (outcome : status = .executed ∨ status = .failed) :
      Step s (.ran c evaluated)
        { s.goTo c (.afterExecution resolves status) with
          executed := (c, evaluated) :: s.executed }
  | handsOver {s : EngineState} {c : Nat} {evaluated : Evaluated} {resolves : Option String}
      (phase : s.calls c = .running evaluated resolves)
      (elsewhere : evaluated.request.externalRuntime = some true) :
      Step s (.handedOver c evaluated)
        { s.goTo c (.afterExecution resolves .executed) with
          executed := (c, evaluated) :: s.executed }
  | resolves {s : EngineState} {c : Nat} {approvalId : String} {status : ResolutionStatus}
      (phase : s.calls c = .resolving approvalId status) :
      Step s .other ((s.withStore (s.store.markResolved approvalId status)).goTo c .done)
  /-- A call ends by an error. -/
  | abandons {s : EngineState} {c : Nat} (phase : (s.calls c).mayAbandon = true) :
      Step s .other (s.goTo c .done)
  /-- The operator or a policy decides on an approval. -/
  | decides {s : EngineState} {approvalId : String} {status : ApprovalStatus} :
      Step s .other
        (s.withStore
          { s.store with
            approvals := Function.update s.store.approvals approvalId (some status) })
  | createsGrant {s : EngineState} {input : ToolGrantCreateInput} {grantId : String}
      {grant : ToolGrantRecord}
      (row : createGrantRow input s.now grantId = some grant)
      (fresh : ∀ other ∈ s.store.grants, other.grantId ≠ grantId) :
      Step s .other (s.withStore { s.store with grants := grant :: s.store.grants })
  | revokes {s : EngineState} {grantId : String} :
      Step s .other
        (s.withStore { s.store with grants := revokeGrant s.store.grants s.now grantId })
  /-- An action of another kind is registered under its own approval. -/
  | registersOther {s : EngineState} {approvalId : String} {pending : PendingApprovalAction}
      (kind : pending.actionType ≠ .toolInvoke)
      (identifier : isApprovalId approvalId = true)
      (fresh : s.store.pendingActions approvalId = none) :
      Step s .other
        (s.withStore
          { s.store with
            pendingActions :=
              Function.update s.store.pendingActions approvalId (some pending) })
  /-- The owner of an external runtime resolves a row. -/
  | resolvesElsewhere {s : EngineState} {approvalId : String} {status : ResolutionStatus}
      (settled : status ≠ .pending) :
      Step s .other (s.withStore (s.store.markResolved approvalId status))
  /-- `evaluateAccess` records an advisory decision. -/
  | advises {s : EngineState} {decision : ToolAccessDecisionRecord}
      (advisory : decision.countsTowardLimits = false) :
      Step s .other (s.withStore (s.store.record decision))
  /-- Wards and sessions change. -/
  | rearranges {s : EngineState} {listWards : String → List CitadelWard}
      {sessionWorkspace : String → Option String} :
      Step s .other
        (s.withStore
          { s.store with listWards := listWards, sessionWorkspace := sessionWorkspace })
  | ticks {s : EngineState} {now : Nat} (later : s.now ≤ now) :
      Step s .other { s with now := now }

/-! ## The steps of one call

Stretches of runs in which one call moves on, for any condition that the steps
are to meet. -/

/-- An evaluation together with its result. -/
def evaluatedAt (engine : Engine) (store : Store) (now : Nat) (request : ToolRequest)
    (approvalId : Option String) : Evaluated where
  engine := engine
  store := store
  now := now
  request := request
  options := {}
  approvalId := approvalId
  evaluation := (evaluateAccessInternal engine store now { request := request }).toOption.getD
    (deny .caution "" "")

/-- The decision row of `evaluatedAt`, recorded at once. -/
def decisionAt (evaluated : Evaluated) (decisionId : String) : ToolAccessDecisionRecord :=
  decisionRow
    ((resolveInvocationPolicy evaluated.engine evaluated.request {}).toOption.getD
      (nativeInstallationInvocation evaluated.request))
    evaluated evaluated.now decisionId

theorem eq_ok_of_toOption {ε α : Type} {result : Except ε α} {default : α}
    (h : result.toOption.isSome = true) : result = .ok (result.toOption.getD default) := by
  cases result with
  | error => cases h
  | ok => rfl

theorem invocationEvaluation_evaluatedAt {engine : Engine} {store : Store} {now : Nat}
    {request : ToolRequest} {approvalId : Option String} (decisionId : String)
    (hevaluated : (evaluateAccessInternal engine store now
      { request := request }).toOption.isSome = true)
    (hidentity : (resolveInvocationPolicy engine request {}).toOption.isSome = true) :
    InvocationEvaluation (evaluatedAt engine store now request approvalId) now
      (decisionAt (evaluatedAt engine store now request approvalId) decisionId) where
  evaluation := eq_ok_of_toOption hevaluated
  decision := ⟨_, decisionId, eq_ok_of_toOption hidentity, rfl⟩
  ordered := Nat.le_refl now

/-- `executeApprovedAction` without options. -/
def ApprovedCall.plain (approvalId : String) : ApprovedCall where
  approvalId := approvalId
  options := {}
  deferResolution := false
  externalRuntimeReplay := false
  invocation := none

section OneCall

variable {admissible : EngineState → Event → Prop} {s : EngineState} {c : Nat}

@[simp]
theorem EngineState.goTo_calls_self (phase : Phase) : (s.goTo c phase).calls c = phase := by
  simp [EngineState.goTo]

theorem EngineState.goTo_calls_of_ne {other : Nat} (h : other ≠ c) (phase : Phase) :
    (s.goTo c phase).calls other = s.calls other := by
  simp [EngineState.goTo, h]

@[simp]
theorem EngineState.goTo_store (phase : Phase) : (s.goTo c phase).store = s.store := rfl

@[simp]
theorem EngineState.goTo_now (phase : Phase) : (s.goTo c phase).now = s.now := rfl

@[simp]
theorem EngineState.goTo_goTo (phase phase' : Phase) :
    (s.goTo c phase).goTo c phase' = s.goTo c phase' := by
  simp [EngineState.goTo]

/-- After an evaluation of `invoke`, recorded at once. -/
def EngineState.afterEvaluated (s : EngineState) (c : Nat) (evaluated : Evaluated)
    (decision : ToolAccessDecisionRecord) : EngineState :=
  { s.goTo c (.afterEvaluation evaluated) with store := s.store.record decision }

/-- `invoke` without a reference evaluates its request. -/
theorem run_evaluated {evaluated : Evaluated} {decision : ToolAccessDecisionRecord}
    (idle : s.calls c = .idle) (reference : directApprovalId evaluated.request = none)
    (store : evaluated.store = s.store) (now : evaluated.now = s.now)
    (approval : evaluated.approvalId = none)
    (evaluation : InvocationEvaluation evaluated s.now decision)
    (hother : ∀ t, admissible t .other)
    (hevaluated : ∀ t, admissible t (.evaluated c evaluated decision)) :
    Run (Restrict Step admissible) s [.other, .evaluated c evaluated decision]
      (s.afterEvaluated c evaluated decision) := by
  have hinvokes : Step s .other (s.goTo c (.evaluating evaluated.request evaluated.options)) :=
    .invokes idle reference
  have hevaluates := @Step.evaluates
    (s.goTo c (.evaluating evaluated.request evaluated.options)) c evaluated s.now decision
    (EngineState.goTo_calls_self _) store now approval evaluation
  rw [EngineState.goTo_goTo] at hevaluates
  exact .cons ⟨hinvokes, hother _⟩ (.single ⟨hevaluates, hevaluated _⟩)

/-- An approved call whose reference verifies comes to its evaluation. -/
theorem run_to_replaying {engine : Engine} {approvalId : String}
    {pending : PendingApprovalAction} {request : ToolRequest}
    (idle : s.calls c = .idle)
    (row : s.store.pendingActions approvalId = some pending)
    (fresh : Store.freshAt s.now pending = true)
    (parsed : asToolInvokeRequest pending.request = .ok request)
    (reference : extractApprovalId (approvedRequest approvalId request) = some approvalId)
    (verified : verifyPendingRow engine.stableStringify s.store
      (approvedRequest approvalId request) approvalId pending = true)
    (hother : ∀ t, admissible t .other)
    (hread : ∀ phase, admissible (s.goTo c phase) (.read c approvalId))
    (hverified : ∀ t, admissible t (.verified c approvalId)) :
    Run (Restrict Step admissible) s
      [.other, .other, .read c approvalId, .verified c approvalId]
      (s.goTo c (.replaying (.plain approvalId) (approvedRequest approvalId request))) := by
  have hverify := verified
  simp only [verifyPendingRow, Bool.and_eq_true, decide_eq_true_eq] at hverify
  have hfresh : s.store.findFreshPending s.now approvalId = some pending := by
    simp [Store.findFreshPending, row, hverify.1.1.2, fresh]
  have hfetching : Step s .other (s.goTo c (.fetching (.plain approvalId))) :=
    @Step.approves s c approvalId {} false idle
  have hchecking : Step (s.goTo c (.fetching (.plain approvalId))) .other
      ((s.goTo c (.fetching (.plain approvalId))).goTo c
        (.checking (.plain approvalId) (approvedRequest approvalId request))) :=
    .fetches (EngineState.goTo_calls_self _) row hverify.1.1.2 hverify.1.1.1 parsed
  have hconfirming : Step
      (s.goTo c (.checking (.plain approvalId) (approvedRequest approvalId request)))
      (.read c approvalId)
      ((s.goTo c (.checking (.plain approvalId) (approvedRequest approvalId request))).goTo c
        (.confirming (.plain approvalId) (approvedRequest approvalId request) approvalId
          pending)) :=
    .approvedReads (EngineState.goTo_calls_self _) reference hfresh
  have hreplaying : Step
      (s.goTo c (.confirming (.plain approvalId) (approvedRequest approvalId request) approvalId
        pending)) (.verified c approvalId)
      ((s.goTo c (.confirming (.plain approvalId) (approvedRequest approvalId request)
        approvalId pending)).goTo c
          (.replaying (.plain approvalId) (approvedRequest approvalId request))) :=
    .approvedVerifies (EngineState.goTo_calls_self _) verified
  rw [EngineState.goTo_goTo] at hchecking hconfirming hreplaying
  exact .cons ⟨hfetching, hother _⟩ (.cons ⟨hchecking, hother _⟩
    (.cons ⟨hconfirming, hread _⟩ (.single ⟨hreplaying, hverified _⟩)))

/-- After an approved execution that consumed no grant. -/
def EngineState.afterRun (s : EngineState) (c : Nat) (approvalId : String)
    (evaluated : Evaluated) (decision : ToolAccessDecisionRecord) : EngineState where
  store := s.store.record decision
  now := s.now
  calls := Function.update s.calls c (.resolving approvalId .executed)
  dispatched := (c, evaluated) :: s.dispatched
  executed := (c, evaluated) :: s.executed

/-- An approved call that is evaluated and allowed runs its tool. -/
theorem run_of_replaying {approvalId : String} {request : ToolRequest} {evaluated : Evaluated}
    {decision : ToolAccessDecisionRecord}
    (phase : s.calls c = .replaying (.plain approvalId) request)
    (executed : evaluated.request = request)
    (options : evaluated.options =
      { ownDelivery := resolveApprovedOwnDelivery evaluated.engine s.store approvalId
          request.toolName {} })
    (store : evaluated.store = s.store) (now : evaluated.now = s.now)
    (approval : evaluated.approvalId = some approvalId)
    (evaluation : InvocationEvaluation evaluated s.now decision)
    (allowed : evaluated.evaluation.allowed = true)
    (free : evaluated.evaluation.grantToConsume = none)
    (here : evaluated.request.externalRuntime ≠ some true)
    (hevaluated : admissible s (.evaluated c evaluated decision))
    (hother : ∀ t, admissible t .other)
    (hran : ∀ t, admissible t (.ran c evaluated)) :
    Run (Restrict Step admissible) s
      [.evaluated c evaluated decision, .other, .ran c evaluated]
      (s.afterRun c approvalId evaluated decision) := by
  have hreplays := Step.replays phase (by rw [executed]; rfl) options store now approval
    evaluation
  have hdispatching : Phase.afterReplay (.plain approvalId) evaluated =
      .dispatching evaluated (some approvalId) := by
    simp [Phase.afterReplay, allowed, ApprovedCall.plain]
  rw [hdispatching] at hreplays
  refine .cons ⟨hreplays, hevaluated⟩ (.cons ⟨@Step.dispatches _ c evaluated
    (some approvalId) (s.store.record decision) ?_ ?_, hother _⟩ (.single ⟨?_, hran _⟩))
  · exact Function.update_self c _ s.calls
  · simp [Store.consumeFor, free]
  · have hstep := @Step.runs
      { s with
        store := s.store.record decision
        calls := Function.update s.calls c (.running evaluated (some approvalId))
        dispatched := (c, evaluated) :: s.dispatched }
      c evaluated (some approvalId) .executed (Function.update_self c _ s.calls) here
      (Or.inl rfl)
    simp only [EngineState.goTo, EngineState.withStore, Function.update_idem] at hstep ⊢
    exact hstep

end OneCall

end GoatCitadel.Policy
