import GoatCitadel.Policy.Request
import Mathlib.Logic.Function.Basic

/-!
# The policy tables

Grants, access decisions, approvals and the actions that wait for them, with
the statements that the engine runs on them.  Times are milliseconds of the
database clock; the grants are kept in the order in which they are listed, the
newest first.
-/

namespace GoatCitadel.Policy

open GoatCitadel.Support

/-! ## Grants -/

inductive ToolGrantScope
  | global
  | session
  | workspace
  | agent
  | task
  | citadel
  | chamber
  deriving DecidableEq

inductive ToolGrantDecision
  | allow
  | deny
  deriving DecidableEq

inductive ToolGrantType
  | oneTime
  | ttl
  | persistent
  deriving DecidableEq

structure ToolGrantConstraints where
  allowedHosts : Option (List String) := none
  allowedPaths : Option (List String) := none
  /-- The root paths of the reference roots. -/
  referenceRoots : Option (List String) := none
  maxWritesPerHour : Option Nat := none
  maxCallsPerHour : Option Nat := none
  mutationAllowed : Option Bool := none
  writeRoots : Option (List String) := none
  deriving DecidableEq

structure ToolGrantRecord where
  grantId : String
  toolPattern : String
  decision : ToolGrantDecision
  scope : ToolGrantScope
  scopeRef : String
  grantType : ToolGrantType
  constraints : Option ToolGrantConstraints := none
  expiresAt : Option Nat := none
  revokedAt : Option Nat := none
  usesRemaining : Option Nat := none
  deriving DecidableEq

namespace ToolGrantRecord

/-- Not revoked and not expired. -/
def inForce (now : Nat) (grant : ToolGrantRecord) : Bool :=
  grant.revokedAt.isNone && grant.expiresAt.all fun expiresAt => now < expiresAt

/-- The condition of `listActive` and of `findActiveStmt`. -/
def active (now : Nat) (grant : ToolGrantRecord) : Bool :=
  grant.inForce now && grant.usesRemaining.all fun uses => 0 < uses

/-- The condition of `consumeStmt`. -/
def consumable (now : Nat) (grant : ToolGrantRecord) : Bool :=
  grant.decision = .allow && grant.inForce now &&
    (grant.grantType ≠ .oneTime || grant.usesRemaining.any fun uses => 0 < uses)

/-- The update of `consumeStmt`. -/
def consume (grant : ToolGrantRecord) : ToolGrantRecord :=
  if grant.grantType = .oneTime then
    { grant with usesRemaining := grant.usesRemaining.map (· - 1) }
  else grant

end ToolGrantRecord

def listActive (grants : List ToolGrantRecord) (now : Nat) (scope : ToolGrantScope)
    (scopeRef : String) : List ToolGrantRecord :=
  grants.filter fun grant =>
    grant.active now && grant.scope = scope && (scopeRef = "" || grant.scopeRef = scopeRef)

/-- `consumeOne`: whether a row changed, and the rows after it. -/
def consumeOne (grants : List ToolGrantRecord) (now : Nat) (grantId : String) :
    Bool × List ToolGrantRecord :=
  (grants.any fun grant => grant.grantId = grantId && grant.consumable now,
    grants.map fun grant =>
      if grant.grantId = grantId && grant.consumable now then grant.consume else grant)

def revokeGrant (grants : List ToolGrantRecord) (now : Nat) (grantId : String) :
    List ToolGrantRecord :=
  grants.map fun grant =>
    if grant.grantId = grantId && grant.revokedAt.isNone then
      { grant with revokedAt := some now }
    else grant

structure ToolGrantCreateInput where
  toolPattern : String
  decision : ToolGrantDecision
  scope : ToolGrantScope
  scopeRef : Option String
  grantType : Option ToolGrantType
  constraints : Option ToolGrantConstraints
  expiresAt : Option Nat
  usesRemaining : Option Nat

def normalizeScopeRef (scope : ToolGrantScope) (scopeRef : Option String) : Option String :=
  if scope = .global then some "global" else nonEmpty (trim (scopeRef.getD ""))

/-- `normalizeGrantLifetime`: the expiry and the uses of the new row. -/
def normalizeGrantLifetime (input : ToolGrantCreateInput) (grantType : ToolGrantType)
    (now : Nat) : Option (Option Nat × Option Nat) :=
  match grantType with
  | .oneTime =>
      if input.expiresAt.isNone && input.usesRemaining.all (· = 1) then some (none, some 1)
      else none
  | .ttl =>
      if (input.expiresAt.any fun expiresAt => now < expiresAt) &&
          input.usesRemaining.isNone then
        some (input.expiresAt, none)
      else none
  | .persistent =>
      if input.expiresAt.isNone && input.usesRemaining.isNone then some (none, none)
      else none

/-- `ToolGrantRepository.create`, without a row when the input is refused. -/
def createGrantRow (input : ToolGrantCreateInput) (now : Nat) (grantId : String) :
    Option ToolGrantRecord := do
  let scopeRef ← normalizeScopeRef input.scope input.scopeRef
  let grantType := input.grantType.getD .persistent
  if input.decision = .deny ∧ grantType = .oneTime then none
  else
    let (expiresAt, usesRemaining) ← normalizeGrantLifetime input grantType now
    some
      { grantId := grantId
        toolPattern := trim input.toolPattern
        decision := input.decision
        scope := input.scope
        scopeRef := scopeRef
        grantType := grantType
        constraints := input.constraints
        expiresAt := expiresAt
        revokedAt := none
        usesRemaining := usesRemaining }

theorem grantId_of_createGrantRow {input : ToolGrantCreateInput} {now : Nat}
    {grantId : String} {grant : ToolGrantRecord}
    (h : createGrantRow input now grantId = some grant) : grant.grantId = grantId := by
  simp only [createGrantRow, Option.bind_eq_bind, Option.bind_eq_some_iff] at h
  obtain ⟨_, _, h⟩ := h
  split at h
  · cases h
  · obtain ⟨lifetime, _, h⟩ := Option.bind_eq_some_iff.mp h
    cases h
    rfl

/-! ## Access decisions -/

/-- A row of `tool_access_decisions`, as far as the counts read it. -/
structure ToolAccessDecisionRecord where
  decisionId : String
  timestamp : Nat
  toolName : String
  policyToolName : Option String
  agentId : String
  sessionId : String
  workspaceId : Option String
  taskId : Option String
  allowed : Bool
  matchedGrantId : Option String
  requiresApproval : Bool
  riskLevel : ToolRiskLevel
  countsTowardLimits : Bool
  deriving DecidableEq

inductive Dialect
  | sqlite
  | postgres

/-- `CAUTION_MUTATING_TOOL_SQL_NAMES` -/
def cautionMutatingToolSqlNames : List String :=
  ["fs.write", "fs.copy", "fs.move", "fs.delete", "http.post", "shell.exec",
    "shell.exec_background", "git.add", "git.commit", "git.branch.create",
    "git.branch.switch", "git.worktree.create", "git.worktree.remove",
    "browser.screenshot", "browser.interact", "browser.cookies.set",
    "browser.cookies.clear", "browser.storage.set", "browser.storage.clear",
    "browser.context.configure", "mcp.invoke", "gmail.send", "memory.write",
    "memory.upsert", "docs.ingest", "embeddings.index", "artifacts.create",
    "documents.create", "presentations.create", "calendar.create_event"]

/-- `LIKE '%tail'` for a lower-case tail; `LIKE` ignores the case of ASCII
letters in SQLite and not in PostgreSQL. -/
def likeSuffix (dialect : Dialect) (text tail : String) : Bool :=
  match dialect with
  | .sqlite => tail.toList.isSuffixOf (text.toList.map Char.toLower)
  | .postgres => endsWith text tail

def writeDecisionPredicate (dialect : Dialect) (decision : ToolAccessDecisionRecord) :
    Bool :=
  (decision.riskLevel = .danger || decision.riskLevel = .nuclear) ||
    cautionMutatingToolSqlNames.contains decision.toolName ||
    (decision.policyToolName = some "mcp.invoke" ||
      decision.policyToolName = some "mesh.invoke") ||
    likeSuffix dialect decision.toolName ".send" ||
    likeSuffix dialect decision.toolName ".react" ||
    likeSuffix dialect decision.toolName ".unsend"

/-- Whose decisions are counted. -/
structure CountScope where
  scope : ToolGrantScope
  agentId : String
  sessionId : String
  workspaceId : Option String
  taskId : Option String
  excludeDecisionId : Option String := none

/-- The `switch` over the scope.  A chamber and a Citadel have no case of
their own and fall to the session. -/
def CountScope.contains (scope : CountScope) (sessionWorkspace : String → Option String)
    (decision : ToolAccessDecisionRecord) : Bool :=
  match scope.scope with
  | .global => true
  | .agent => decision.agentId = scope.agentId
  | .workspace =>
      match scope.workspaceId.bind nonEmpty with
      | none => false
      | some workspaceId =>
          decision.workspaceId = some workspaceId ||
            (decision.workspaceId = none &&
              sessionWorkspace decision.sessionId = some workspaceId)
  | .task =>
      match scope.taskId.bind nonEmpty with
      | none => false
      | some taskId => decision.taskId = some taskId
  | .session | .chamber | .citadel => decision.sessionId = scope.sessionId

/-- The scope test of `excludedCount`. -/
def CountScope.containsExcluded (scope : CountScope) (decision : ToolAccessDecisionRecord) :
    Bool :=
  match scope.scope with
  | .global => true
  | .agent => decision.agentId = scope.agentId
  | .workspace => decision.workspaceId = some (scope.workspaceId.getD "")
  | .task => decision.taskId = some (scope.taskId.getD "")
  | .session | .chamber | .citadel => decision.sessionId = scope.sessionId

/-- Sixty minutes, in milliseconds. -/
def hourMs : Nat := 3600000

/-- A counted decision of the hour before `now`. -/
def recentlyCounted (now : Nat) (decision : ToolAccessDecisionRecord) : Bool :=
  decision.countsTowardLimits && now ≤ decision.timestamp + hourMs

def callOf (toolName : String) (decision : ToolAccessDecisionRecord) : Bool :=
  decision.toolName = toolName || decision.policyToolName = some toolName

/-! ## Approvals -/

inductive ApprovalStatus
  | pending
  | approved
  | rejected
  | edited
  deriving DecidableEq

inductive ResolutionStatus
  | pending
  | executed
  | rejected
  | failed
  deriving DecidableEq

inductive PendingActionType
  | toolInvoke
  | codeModeRun
  | codeModeAiderPromote
  | integrationDryRunCommit
  deriving DecidableEq

/-- A row of `pending_approval_actions`, under its approval. -/
structure PendingApprovalAction where
  actionType : PendingActionType
  request : ToolRequest
  createdAt : Nat
  expiresAt : Option Nat
  resolutionStatus : ResolutionStatus

inductive OwnDeliveryReason
  | channelReply
  | operatorAction
  deriving DecidableEq

/-- The payload of a `pending_action_registered` event. -/
structure ApprovalRegistration where
  toolName : String
  ownDelivery : Option OwnDeliveryReason
  /-- `outsideRootWrite.targets` -/
  outsideRootTargets : Option (List String)

structure Store where
  dialect : Dialect
  grants : List ToolGrantRecord
  decisions : List ToolAccessDecisionRecord
  /-- The waiting actions, by approval. -/
  pendingActions : String → Option PendingApprovalAction
  /-- The status of each approval. -/
  approvals : String → Option ApprovalStatus
  /-- The registration event of each approval. -/
  registrations : String → Option ApprovalRegistration
  listWards : String → List CitadelWard
  /-- `chat_session_meta.workspace_id` -/
  sessionWorkspace : String → Option String

namespace Store

/-- Rows that satisfy a predicate in the scope, within the last hour, less
the excluded decision. -/
def countInLastHour (store : Store) (now : Nat) (scope : CountScope)
    (counted : ToolAccessDecisionRecord → Bool) : Nat :=
  store.decisions.countP
      (fun decision =>
        scope.contains store.sessionWorkspace decision && counted decision &&
          recentlyCounted now decision) -
    store.decisions.countP fun decision =>
      scope.excludeDecisionId = some decision.decisionId &&
        scope.containsExcluded decision && counted decision && recentlyCounted now decision

def countToolCallsInLastHourInScope (store : Store) (now : Nat) (toolName : String)
    (scope : CountScope) : Nat :=
  store.countInLastHour now scope (callOf toolName)

def countWritesInLastHourInScope (store : Store) (now : Nat) (scope : CountScope) : Nat :=
  store.countInLastHour now scope fun decision =>
    decision.allowed && writeDecisionPredicate store.dialect decision

/-- `DEFAULT_APPROVAL_TTL_MS` -/
def defaultApprovalTtlMs : Nat := 15 * 60000

def freshAt (now : Nat) (action : PendingApprovalAction) : Bool :=
  now < action.expiresAt.getD (action.createdAt + defaultApprovalTtlMs)

def findFreshPending (store : Store) (now : Nat) (approvalId : String) :
    Option PendingApprovalAction :=
  (store.pendingActions approvalId).filter fun action =>
    action.resolutionStatus = .pending && freshAt now action

/-- `approvals.get(approvalId).status === "approved"`, false when it throws. -/
def isApproved (store : Store) (approvalId : String) : Bool :=
  store.approvals approvalId = some .approved

def markResolved (store : Store) (approvalId : String) (status : ResolutionStatus) : Store :=
  { store with
    pendingActions := Function.update store.pendingActions approvalId
      ((store.pendingActions approvalId).map fun action =>
        if action.resolutionStatus = .pending then { action with resolutionStatus := status }
        else action) }

end Store

/-! ## Verified approval references -/

def isApprovalIdChar (c : Char) : Bool :=
  ('A' ≤ c && c ≤ 'Z') || ('a' ≤ c && c ≤ 'z') || ('0' ≤ c && c ≤ '9') || c == '_' || c == '-'

/-- The identifier in a consent reason `approval:<id>`. -/
def extractApprovalId (request : ToolRequest) : Option String := do
  let reason := trim (← request.consentReason)
  let head := "approval:".toList
  let tail := reason.toList.drop head.length
  if head.isPrefixOf reason.toList && !tail.isEmpty && tail.all isApprovalIdChar then
    some (String.ofList tail)
  else none

/-- A field of the request, or else of its policy context. -/
def governanceField {α : Type} (ofRequest : ToolRequest → Option α)
    (ofContext : ToolPolicyActorContext → Option α) (request : ToolRequest) : Option α :=
  ofRequest request <|> request.policyContext.bind ofContext

/-- `stableStringify` orders the keys of objects by locale; the comparison
only uses whether two texts are equal. -/
abbrev StableStringify := JsonValue → String

def requestMatchesPendingApproval (stableStringify : StableStringify)
    (request storedRequest : ToolRequest) : Bool :=
  let sameText := fun (value : ToolRequest → JsonValue) =>
    decide (stableStringify (value storedRequest) = stableStringify (value request))
  storedRequest.toolName = request.toolName &&
  storedRequest.agentId = request.agentId &&
  storedRequest.sessionId = request.sessionId &&
  storedRequest.turnId = request.turnId &&
  storedRequest.toolRunId = request.toolRunId &&
  storedRequest.workspaceId = request.workspaceId &&
  storedRequest.taskId = request.taskId &&
  storedRequest.runId = request.runId &&
  resolveToolTrustLevel storedRequest = resolveToolTrustLevel request &&
  governanceField (·.permissionProfileId) (·.permissionProfileId) storedRequest =
    governanceField (·.permissionProfileId) (·.permissionProfileId) request &&
  governanceField (·.localOperatorOverrideId) (·.localOperatorOverrideId) storedRequest =
    governanceField (·.localOperatorOverrideId) (·.localOperatorOverrideId) request &&
  governanceField (·.surface) (·.surface) storedRequest =
    governanceField (·.surface) (·.surface) request &&
  sameText (fun r => .array ((r.sourceAttribution.getD []).map .object)) &&
  sameText (fun r => .object (r.authContext.getD [])) &&
  storedRequest.dryRun = request.dryRun &&
  storedRequest.externalRuntime = request.externalRuntime &&
  sameText (fun r => r.runtimeSkillApplications.getD (.array [])) &&
  sameText (fun r => r.writePathRepair.getD (.object [])) &&
  sameText (fun r => r.presentationGrounding.getD (.object [])) &&
  sameText (fun r => .object (r.args.getD []))

/-- What remains of `getVerifiedApprovalBypassId` once the pending row was read. -/
def verifyPendingRow (stableStringify : StableStringify) (store : Store)
    (request : ToolRequest) (approvalId : String) (pending : PendingApprovalAction) : Bool :=
  pending.actionType = .toolInvoke && pending.resolutionStatus = .pending &&
    store.isApproved approvalId &&
    requestMatchesPendingApproval stableStringify request pending.request

/-- `getVerifiedApprovalBypassId`, with both reads in one transaction. -/
def getVerifiedApprovalBypassId (stableStringify : StableStringify) (store : Store)
    (now : Nat) (request : ToolRequest) : Option String := do
  let approvalId ← extractApprovalId request
  let pending ← store.findFreshPending now approvalId
  if verifyPendingRow stableStringify store request approvalId pending then some approvalId
  else none

end GoatCitadel.Policy
