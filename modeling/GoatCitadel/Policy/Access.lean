import GoatCitadel.Policy.Grants

/-!
# Access evaluation

`evaluateAccessInternal` passes a request through the gates in the order of
the source: deny patterns, switched-off groups, the registry, the ceiling of the
permission profile, the wards of the Citadel, the grants, structural safety,
untrusted escalation, constraints and the effective tools.  A request that
passes them is allowed, and `Escalation.requiresApproval` says whether the
operator has to be asked.
-/

namespace GoatCitadel.Policy

open GoatCitadel.Support
open GoatCitadel.Sandbox

/-! ## Remote mappings -/

/-- A process-local handle.  A look-alike that was not minted has no identity. -/
inductive Handle (α : Type)
  | minted (identity : α)
  | forged

structure ToolPolicyEvaluateOptions where
  /-- The canonical name an MCP binding was minted for. -/
  mcpToolBinding : Option (Handle String) := none
  /-- The canonical name a mesh binding was minted for. -/
  meshToolBinding : Option (Handle String) := none
  /-- The canonical target an MCP approval relief was minted for. -/
  mcpApprovalRelief : Option (Handle String) := none
  ownDelivery : Option (Handle OwnDeliveryReason) := none

def isOwnDeliveryMarker : Option (Handle OwnDeliveryReason) → Bool
  | some (.minted _) => true
  | _ => false

structure MappedTarget where
  canonicalName : String
  policyToolName : String

/-- `readMcpToolPolicyBinding` and `readMeshToolPolicyBinding`. -/
def readToolPolicyBinding (policyToolName mismatch : String) (binding : Option (Handle String))
    (canonicalName : String) : Except String (Option MappedTarget) :=
  match binding with
  | none => .ok none
  | some .forged => .error mismatch
  | some (.minted identity) =>
      if identity = canonicalName then .ok (some ⟨identity, policyToolName⟩)
      else .error mismatch

def readMcpToolPolicyBinding : Option (Handle String) → String →
    Except String (Option MappedTarget) :=
  readToolPolicyBinding "mcp.invoke" "Missing or mismatched native MCP policy binding"

def readMeshToolPolicyBinding : Option (Handle String) → String →
    Except String (Option MappedTarget) :=
  readToolPolicyBinding "mesh.invoke" "Missing or mismatched mesh policy binding"

def isAsciiAlphanumeric (c : Char) : Bool :=
  ('a' ≤ c && c ≤ 'z') || ('A' ≤ c && c ≤ 'Z') || ('0' ≤ c && c ≤ '9')

/-- `/^[a-zA-Z0-9][a-zA-Z0-9._-]{0,254}$/` -/
def isCanonicalTargetName (name : String) : Bool :=
  match name.toList with
  | [] => false
  | c :: rest =>
      isAsciiAlphanumeric c && rest.length ≤ 254 &&
        rest.all fun c => isAsciiAlphanumeric c || c == '.' || c == '_' || c == '-'

def readMcpPolicyTargetFromWrapper (request : ToolRequest) :
    Except String (Option MappedTarget) :=
  if request.toolName ≠ "mcp.invoke" then .ok none
  else
    let serverId := trim (JsonValue.stringOrEmpty (request.arg "serverId"))
    let nativeToolName := trim (JsonValue.stringOrEmpty (request.arg "toolName"))
    if serverId = "" ∨ nativeToolName = "" then .ok none
    else
      let canonicalName := s!"mcp.{serverId}.{nativeToolName}"
      if isCanonicalTargetName canonicalName then .ok (some ⟨canonicalName, "mcp.invoke"⟩)
      else .error "Invalid MCP policy target"

def readMcpApprovalRelief (relief : Option (Handle String)) (canonicalName : Option String) :
    Except String Bool :=
  match relief with
  | none => .ok false
  | some .forged => .error "Missing or mismatched MCP approval relief"
  | some (.minted target) =>
      if canonicalName = some target then .ok true
      else .error "Missing or mismatched MCP approval relief"

structure InvocationPolicy where
  /-- The request came with a binding. -/
  bound : Bool
  mappedTarget : Option MappedTarget
  toolDef : Option ToolDefinition
  /-- The name that the capability policy is derived from. -/
  capabilityToolName : String
  accountingToolName : String
  evaluationRequest : ToolRequest
  mcpApprovalRelief : Bool

/-- `request.args.arguments` of an MCP call, when it is an object. -/
def mcpArguments (request : ToolRequest) : JsonObject :=
  match request.arg "arguments" with
  | some (.object fields) => fields
  | _ => []

/-- The policy of an invocation once its mappings are read. -/
def invocationPolicyOf (engine : Engine) (request : ToolRequest)
    (binding meshBinding mappedTarget : Option MappedTarget) (mcpApprovalRelief : Bool) :
    InvocationPolicy :=
  let policyToolName := (mappedTarget.map (·.policyToolName)).getD request.toolName
  let accountingToolName := (mappedTarget.map (·.canonicalName)).getD request.toolName
  { bound := binding.isSome
    mappedTarget := mappedTarget
    toolDef :=
      if meshBinding.isSome then some meshToolPolicyDefinition
      else engine.registry.get policyToolName
    capabilityToolName := policyToolName
    accountingToolName := accountingToolName
    evaluationRequest :=
      if mappedTarget.isSome then
        { request with
          toolName := accountingToolName
          args :=
            if request.toolName = "mcp.invoke" then some (mcpArguments request)
            else request.args }
      else request
    mcpApprovalRelief := mcpApprovalRelief }

def resolveInvocationPolicy (engine : Engine) (request : ToolRequest)
    (options : ToolPolicyEvaluateOptions) : Except String InvocationPolicy := do
  if options.mcpToolBinding.isSome && options.meshToolBinding.isSome then
    throw "Remote policy mappings are mutually exclusive"
  let mcpBinding ← readMcpToolPolicyBinding options.mcpToolBinding request.toolName
  let meshBinding ← readMeshToolPolicyBinding options.meshToolBinding request.toolName
  let binding := mcpBinding <|> meshBinding
  let wrapperTarget ←
    if binding.isSome then pure none else readMcpPolicyTargetFromWrapper request
  let mappedTarget := binding <|> wrapperTarget
  if mappedTarget.any fun target => (engine.registry.get target.canonicalName).isSome then
    throw "Remote policy mapping collides with a registered tool"
  if meshBinding.any fun target => (engine.registry.get target.policyToolName).isSome then
    throw "Mesh policy template collides with a registered tool"
  let mcpApprovalRelief ← readMcpApprovalRelief options.mcpApprovalRelief
    (if meshBinding.isSome then none else mappedTarget.map (·.canonicalName))
  pure (invocationPolicyOf engine request binding meshBinding mappedTarget mcpApprovalRelief)

theorem policyToolName_of_readToolPolicyBinding {policyToolName mismatch canonicalName : String}
    {binding : Option (Handle String)} {target : MappedTarget}
    (h : readToolPolicyBinding policyToolName mismatch binding canonicalName =
      .ok (some target)) : target.policyToolName = policyToolName := by
  unfold readToolPolicyBinding at h
  repeat' split at h
  all_goals cases h
  rfl

theorem policyToolName_of_wrapper {request : ToolRequest} {target : MappedTarget}
    (h : readMcpPolicyTargetFromWrapper request = .ok (some target)) :
    target.policyToolName = "mcp.invoke" := by
  simp only [readMcpPolicyTargetFromWrapper] at h
  repeat' split at h
  all_goals cases h
  rfl

/-- A mapping has the name of one of the two templates, and there is one
whenever the mesh is bound. -/
structure MappingRead (meshBinding mappedTarget : Option MappedTarget) : Prop where
  template : ∀ target, mappedTarget = some target →
    target.policyToolName = "mcp.invoke" ∨ target.policyToolName = "mesh.invoke"
  mapped : mappedTarget = none → meshBinding = none

theorem mappingRead_of_bindings {mcpBinding meshBinding wrapperTarget : Option MappedTarget}
    (hmcp : ∀ target, mcpBinding = some target → target.policyToolName = "mcp.invoke")
    (hmesh : ∀ target, meshBinding = some target → target.policyToolName = "mesh.invoke")
    (hwrapper : ∀ target, wrapperTarget = some target → target.policyToolName = "mcp.invoke") :
    MappingRead meshBinding ((mcpBinding <|> meshBinding) <|> wrapperTarget) := by
  cases mcpBinding with
  | some bound => exact ⟨fun target h => Or.inl (hmcp target h), nofun⟩
  | none =>
      cases meshBinding with
      | some bound => exact ⟨fun target h => Or.inr (hmesh target h), nofun⟩
      | none => exact ⟨fun target h => Or.inl (hwrapper target h), fun _ => rfl⟩

/-- The mappings of an invocation that is not refused. -/
theorem resolveInvocationPolicy_eq_ok {engine : Engine} {request : ToolRequest}
    {options : ToolPolicyEvaluateOptions} {identity : InvocationPolicy}
    (h : resolveInvocationPolicy engine request options = .ok identity) :
    ∃ binding meshBinding mappedTarget mcpApprovalRelief,
      identity = invocationPolicyOf engine request binding meshBinding mappedTarget
        mcpApprovalRelief ∧ MappingRead meshBinding mappedTarget := by
  simp only [resolveInvocationPolicy, bind, Except.bind, pure, Except.pure, throw, throwThe,
    MonadExceptOf.throw] at h
  split at h
  · cases h
  split at h
  · cases h
  next mcpBinding hmcp =>
  split at h
  · cases h
  next meshBinding hmesh =>
  have hmcpName : ∀ target, mcpBinding = some target → target.policyToolName = "mcp.invoke" := by
    rintro target rfl
    exact policyToolName_of_readToolPolicyBinding hmcp
  have hmeshName : ∀ target, meshBinding = some target →
      target.policyToolName = "mesh.invoke" := by
    rintro target rfl
    exact policyToolName_of_readToolPolicyBinding hmesh
  split at h
  · repeat' split at h
    all_goals cases h
    exact ⟨_, _, _, _, rfl, mappingRead_of_bindings hmcpName hmeshName nofun⟩
  · split at h
    · cases h
    next wrapperTarget hwrapper =>
    have hwrapperName : ∀ target, wrapperTarget = some target →
        target.policyToolName = "mcp.invoke" := by
      rintro target rfl
      exact policyToolName_of_wrapper hwrapper
    repeat' split at h
    all_goals cases h
    exact ⟨_, _, _, _, rfl, mappingRead_of_bindings hmcpName hmeshName hwrapperName⟩

/-- The names of an invocation: a mapped one carries the canonical name of its
target and the name of its template, another one its own name. -/
theorem resolveInvocationPolicy_names {engine : Engine} {request : ToolRequest}
    {options : ToolPolicyEvaluateOptions} {identity : InvocationPolicy}
    (h : resolveInvocationPolicy engine request options = .ok identity) :
    identity.evaluationRequest.toolName = identity.accountingToolName ∧
      (∀ target, identity.mappedTarget = some target →
        target.policyToolName = "mcp.invoke" ∨ target.policyToolName = "mesh.invoke") ∧
      (identity.mappedTarget = none →
        identity.toolDef = engine.registry.get identity.accountingToolName) := by
  obtain ⟨binding, meshBinding, mappedTarget, relief, rfl, hread⟩ :=
    resolveInvocationPolicy_eq_ok h
  refine ⟨?_, hread.template, ?_⟩
  · cases mappedTarget <;> rfl
  · intro hnone
    have hmapped : mappedTarget = none := hnone
    have hmesh := hread.mapped hmapped
    subst hmapped hmesh
    rfl

/-- The fixed policy of a native installation. -/
def nativeInstallationInvocation (request : ToolRequest) : InvocationPolicy :=
  { bound := false
    mappedTarget := none
    toolDef := some nativeInstallationPolicy
    capabilityToolName := nativeInstallationPolicy.name
    accountingToolName := request.toolName
    evaluationRequest := request
    mcpApprovalRelief := false }

/-! ## What an evaluation starts from -/

structure AccessEvaluation where
  allowed : Bool
  reasonCodes : List String
  requiresApproval : Bool
  matchedGrantId : Option String := none
  matchedGrantAllowedHosts : Option (List String) := none
  riskLevel : ToolRiskLevel
  policyReason : String
  grantToConsume : Option String := none
  permissionProfileId : Option String := none
  localOperatorOverrideId : Option String := none
  approvalMode : Option ToolApprovalMode := none
  wardEffect : Option WardEffect := none
  /-- The targets of `outsideRootWrite`. -/
  outsideRootTargets : Option (List String) := none

def deny (riskLevel : ToolRiskLevel) (code reason : String) : AccessEvaluation :=
  { allowed := false, reasonCodes := [code], requiresApproval := false,
    riskLevel := riskLevel, policyReason := reason }

/-- The arguments of one evaluation. -/
structure AccessInput where
  request : ToolRequest
  options : ToolPolicyEvaluateOptions := {}
  reservation : Option NativeExecutionReservation := none
  nativeInstallation : Bool := false

/-- `policyConfig()` -/
def policyConfig (engine : Engine) : ToolPolicyConfig :=
  withHeldToolGroups engine.config
    (if engine.holdsUnavailable then
      (engine.toolGroups.filter (·.switchable)).map (·.id)
    else engine.pluginToolGroupHolds.map (·.groupId))

structure AccessContext where
  request : ToolRequest
  mappedTarget : Option MappedTarget
  toolDef : Option ToolDefinition
  capabilityToolName : String
  mcpApprovalRelief : Bool
  policy : EffectiveToolPolicy
  ownDelivery : Bool
  reservation : Option NativeExecutionReservation
  nativeInstallation : Bool

namespace AccessContext

variable (ctx : AccessContext)

def policyToolName : Option String :=
  ctx.mappedTarget.map (·.policyToolName)

/-- The names under which the request is checked. -/
def toolNames : List String :=
  ctx.request.toolName :: ctx.policyToolName.toList

def riskLevel : ToolRiskLevel :=
  (ctx.toolDef.map (·.riskLevel)).getD .caution

/-- `withPolicy` -/
def withPolicy (evaluation : AccessEvaluation) : AccessEvaluation :=
  { evaluation with
    permissionProfileId := ctx.policy.permissionProfileId
    localOperatorOverrideId := ctx.policy.localOperatorOverrideId
    approvalMode := some ctx.policy.approvalMode }

def deny (code reason : String) : AccessEvaluation :=
  ctx.withPolicy (Policy.deny ctx.riskLevel code reason)

end AccessContext

def invocationPolicyFor (engine : Engine) (input : AccessInput) :
    Except String InvocationPolicy :=
  if input.nativeInstallation then .ok (nativeInstallationInvocation input.request)
  else resolveInvocationPolicy engine input.request input.options

/-- The effective policy of the request. -/
def policyFor (engine : Engine) (now : Nat) (request : ToolRequest) : EffectiveToolPolicy :=
  resolveEffectivePolicy engine.toolGroups (policyConfig engine) now request.agentId
    request.permissionProfile request.localOperatorOverride

def accessContext (engine : Engine) (now : Nat) (input : AccessInput) :
    Except String AccessContext :=
  (invocationPolicyFor engine input).map fun identity =>
    { request := identity.evaluationRequest
      mappedTarget := identity.mappedTarget
      toolDef := identity.toolDef
      capabilityToolName := identity.capabilityToolName
      mcpApprovalRelief := identity.mcpApprovalRelief
      policy := policyFor engine now identity.evaluationRequest
      ownDelivery := isOwnDeliveryMarker input.options.ownDelivery
      reservation := input.reservation
      nativeInstallation := input.nativeInstallation }

/-- A mapping changes the name and the arguments of the request and nothing else. -/
theorem invocationPolicyFor_evaluationRequest {engine : Engine} {input : AccessInput}
    {identity : InvocationPolicy} (h : invocationPolicyFor engine input = .ok identity) :
    ∃ toolName args,
      identity.evaluationRequest = { input.request with toolName := toolName, args := args } := by
  unfold invocationPolicyFor at h
  split at h
  · cases h
    exact ⟨_, _, rfl⟩
  · obtain ⟨_, _, mappedTarget, _, rfl, _⟩ := resolveInvocationPolicy_eq_ok h
    cases mappedTarget <;> exact ⟨_, _, rfl⟩

theorem accessContext_eq_ok {engine : Engine} {now : Nat} {input : AccessInput}
    {ctx : AccessContext} (h : accessContext engine now input = .ok ctx) :
    ∃ identity, invocationPolicyFor engine input = .ok identity ∧
      ctx.request = identity.evaluationRequest ∧
      ctx.policy = policyFor engine now ctx.request := by
  simp only [accessContext] at h
  cases hinvocation : invocationPolicyFor engine input with
  | error error => simp [hinvocation, Except.map] at h
  | ok identity =>
      simp only [hinvocation, Except.map, Except.ok.injEq] at h
      rw [← h]
      exact ⟨identity, rfl, rfl, rfl⟩

/-! ## Risk gates -/

def evaluateShellRisk (engine : Engine) (request : ToolRequest) : Option String :=
  if !isShellCommandTool request.toolName then none
  else
    let command := (request.stringArg "command").getD ""
    if trim command = "" then none
    else if engine.config.sandbox.requireApprovalForRiskyShell then
      engine.classifyShellRisk command
    else none

def evaluateArgumentRisk (engine : Engine) (request : ToolRequest) : Option String :=
  engine.classifyArgumentRisk request.toolName request.args

/-! ## The surface -/

def isControlOrSpace (c : Char) : Bool :=
  c.toNat < 0x20 || (0x7F ≤ c.toNat && c.toNat ≤ 0x9F) || isTrimmed c

/-- `replace(/[\p{Cc}\s]+/gu, " ")` -/
def singleLine (text : List Char) : List Char :=
  text.foldr
    (fun c rest =>
      if isControlOrSpace c then
        if rest.head? = some ' ' then rest else ' ' :: rest
      else c :: rest)
    []

def pluginHoldingTool (engine : Engine) (toolName : String) : String :=
  let groupId := (toolGroupForTool engine.toolGroups toolName).map (·.id)
  match engine.pluginToolGroupHolds.find? fun hold => some hold.groupId = groupId with
  | none => "a plugin"
  | some holder =>
      let pluginName := trim (String.ofList (singleLine holder.pluginName.toList))
      if pluginName = "" then "a plugin" else s!"the plugin {pluginName}"

/-- `PLUGIN_TOOL_GROUP_HOLDS_UNAVAILABLE_REASON` -/
def pluginToolGroupHoldsUnavailableReason : String :=
  "GoatCitadel can't read which tool groups plugins keep off, " ++
    "so it keeps those tools off until it can"

def switchedOffDenial (engine : Engine) (ctx : AccessContext) (name : String) :
    AccessEvaluation :=
  let toolName := ctx.request.toolName
  let group :=
    match toolGroupForTool engine.toolGroups name with
    | none => ""
    | some group => s!" ({group.label})"
  if (toolNamesSwitchedOff engine.toolGroups engine.config.tools.disabledGroups).contains
      name then
    deny ctx.riskLevel "tool_group_off"
      s!"tool {toolName} is in a tool group switched off by the operator{group}"
  else if engine.holdsUnavailable then
    { deny ctx.riskLevel "tool_group_off"
        (s!"tool {toolName} is in a tool group kept off{group}: " ++
          pluginToolGroupHoldsUnavailableReason) with
      reasonCodes := ["tool_group_off", "plugin_tool_group_holds_unavailable"] }
  else
    { deny ctx.riskLevel "tool_group_off"
        (s!"tool {toolName} is in a tool group switched off by " ++
          s!"{pluginHoldingTool engine name}{group}") with
      reasonCodes := ["tool_group_off", "plugin_tool_group_hold"] }

/-- The request lies under the ceiling of its permission profile. -/
def withinProfile (profile : Option PermissionProfileRecord) (toolNames : List String) : Bool :=
  profile.all fun profile =>
    profile.status = .active &&
      toolNames.any fun name => matchesAnyToolPattern profile.toolPatterns name

/-- The gates before the wards. -/
def surfaceDenial (engine : Engine) (ctx : AccessContext) : Option AccessEvaluation :=
  if ctx.toolNames.any fun name => matchesAnyToolPattern ctx.policy.denySet name then
    some (ctx.deny "policy_deny" "tool denied by policy")
  else
    match (if ctx.ownDelivery then [] else ctx.toolNames).find?
        (ctx.policy.switchedOffTools.contains ·) with
    | some name => some (ctx.withPolicy (switchedOffDenial engine ctx name))
    | none =>
        if ctx.toolDef.isNone then
          some (ctx.deny "unknown_tool" s!"unknown tool {ctx.request.toolName}")
        else if ctx.request.permissionProfile.any fun profile => profile.status ≠ .active then
          some (ctx.deny "permission_profile_upper_bound" "permission profile is not active")
        else if !withinProfile ctx.request.permissionProfile ctx.toolNames then
          some (ctx.deny "permission_profile_upper_bound"
            "tool not available in resolved policy")
        else none

/-- The effect of the wards of the request's Citadel. -/
def citadelWardEffect (store : Store) (ctx : AccessContext) : Option WardEffect :=
  (ctx.request.citadelId.bind nonEmpty).map fun citadelId =>
    evaluateWardsForActions (store.listWards citadelId) ctx.toolNames

/-- `withWard`: the effect is reported unless it is `allow`. -/
def withWard (rawWardEffect : Option WardEffect) (evaluation : AccessEvaluation) :
    AccessEvaluation :=
  { evaluation with wardEffect := rawWardEffect.filter (· ≠ .allow) }

/-! ## Structural safety -/

def isFullWebAccessEligibleTool (toolName : String) : Bool :=
  ["browser.search", "browser.navigate", "browser.extract", "browser.screenshot", "http.get",
    "docs.ingest"].contains toolName

def hasFullWebAccess (request : ToolRequest) : Bool :=
  isFullWebAccessEligibleTool request.toolName &&
    (request.policyContext.bind (·.fullWebAccess)) ≠ some false

/-- The check of one write target. -/
def validateWriteCandidate (engine : Engine) (allowGrants : List ToolGrantRecord)
    (outsideRootWrite : OutsideRootWriteEvaluation) (candidate : WritePathCandidate) :
    Except String Unit :=
  let referenceRoots := getReferenceRootPaths (allowGrants.head?.bind (·.constraints))
  if isPathWithinAnyRoot engine.host candidate.path referenceRoots then
    assertNotHardForbiddenWritePath engine (engine.host.resolve candidate.path)
  else
    match outsideRootWrite with
    | .none => assertToolWritePath engine candidate []
    | .admitted outsidePaths roots _ =>
        if outsidePaths.contains candidate.path then
          assertToolWritePath engine candidate roots
        else assertToolWritePath engine candidate []
    | .requiresApproval outsidePaths _ =>
        if outsidePaths.contains candidate.path then
          assertNotHardForbiddenWritePath engine (engine.host.resolve candidate.path)
        else assertToolWritePath engine candidate []

def validateStructuralSafety (engine : Engine) (request : ToolRequest)
    (readAccessMode : FilesystemReadAccessMode) (approvalBypass : Bool)
    (allowGrants : List ToolGrantRecord) (outsideRootWrite : OutsideRootWriteEvaluation) :
    Except String Unit := do
  let accesses ← readAccesses engine request
  match accesses.findSome? (readPathError engine readAccessMode approvalBypass allowGrants) with
  | some error => throw error
  | none => pure ()
  let candidates := extractWritePathCandidates engine request
  if request.toolName = "fs.delete" ∧ candidates.isEmpty then
    throw s!"{request.toolName} requires a target path."
  candidates.forM (validateWriteCandidate engine allowGrants outsideRootWrite)
  match engine.networkError request.toolName request.args (hasFullWebAccess request) with
  | some error => throw error
  | none => pure ()

/-! ## Escalation to the operator -/

/-- Everything that the approval flag depends on. -/
structure Escalation where
  wardRequiresApproval : Bool
  hasAllowGrant : Bool
  mcpApprovalReliefApplied : Bool
  approvalMode : ToolApprovalMode
  toolRequiresApproval : Bool
  firstMutation : Bool
  riskLevel : ToolRiskLevel
  shellRisky : Bool
  argumentRisky : Bool
  outsideRootsReadRequiresApproval : Bool
  outsideRootWriteRequiresApproval : Bool
  codeModeRunPreapproved : Bool
  isRemoteA2APeer : Bool
  officialSearchConsentRequired : Bool
  codeModeRequest : Bool

namespace Escalation

variable (e : Escalation)

/-- The asks that neither a pre-approved run nor the bypass mode clears. -/
def hardAsk : Bool :=
  e.wardRequiresApproval || e.riskLevel = .nuclear || e.shellRisky || e.argumentRisky ||
    e.outsideRootsReadRequiresApproval || e.outsideRootWriteRequiresApproval

/-- The flag `requiresApproval`, in the order of the source. -/
def requiresApproval : Bool :=
  let flag := e.wardRequiresApproval ||
    (!e.hasAllowGrant && !e.mcpApprovalReliefApplied &&
      (e.approvalMode = .approveAll || e.toolRequiresApproval))
  let flag := if e.firstMutation then true else flag
  let flag := if e.riskLevel = .nuclear then true else flag
  let flag := if e.shellRisky then true else flag
  let flag := if e.argumentRisky then true else flag
  let flag := if e.outsideRootsReadRequiresApproval then true else flag
  let flag := if e.outsideRootWriteRequiresApproval then true else flag
  let flag :=
    if e.approvalMode = .approveRisky && e.riskLevel ≠ .safe && !e.hasAllowGrant &&
        !e.mcpApprovalReliefApplied then true else flag
  let flag := if e.codeModeRunPreapproved && !e.hardAsk then false else flag
  let flag :=
    if e.approvalMode = .bypass && !e.isRemoteA2APeer && !e.hardAsk then false else flag
  let flag := if e.officialSearchConsentRequired then true else flag
  if e.codeModeRequest then true else flag

/-- No source of permission clears a hard ask, the consent of an official
search or a Code Mode request. -/
theorem requiresApproval_of_ask
    (h : e.hardAsk = true ∨ e.officialSearchConsentRequired = true ∨
      e.codeModeRequest = true) : e.requiresApproval = true := by
  obtain hhard | hsearch | hcode := h
  · have hflag := hhard
    simp only [hardAsk, Bool.or_eq_true, decide_eq_true_eq] at hflag
    simp only [requiresApproval, hhard, Bool.not_true, Bool.and_false, Bool.false_eq_true,
      if_false]
    obtain ((((hward | hnuclear) | hshell) | hargument) | hread) | hwrite := hflag
    all_goals simp [*]
  · simp [requiresApproval, hsearch]
  · simp [requiresApproval, hcode]

end Escalation

/-! ## Reasons -/

/-- `buildAccessReason`: the reason codes. -/
def accessReasonCodes (ctx : AccessContext) (rawWardEffect : Option WardEffect)
    (e : Escalation) (shellRisk argumentRisk : Option String) : List String :=
  ["allowed"] ++
  (if (ctx.policy.permissionProfileId.bind nonEmpty).isSome then ["permission_profile"]
    else []) ++
  (if (ctx.policy.localOperatorOverrideId.bind nonEmpty).isSome then
    ["local_operator_override"] else []) ++
  (if e.codeModeRunPreapproved then ["approved_code_mode_run"] else []) ++
  (if e.wardRequiresApproval then ["citadel_ward_requires_approval"] else []) ++
  (match rawWardEffect with
    | some .requireDryRun => ["citadel_ward_require_dry_run"]
    | some .routeLocal => ["citadel_ward_route_local"]
    | some .redact => ["citadel_ward_redact"]
    | _ => []) ++
  (if e.approvalMode = .bypass then
    "approval_bypass_mode" ::
      if e.riskLevel = .nuclear then ["nuclear_risk_requires_approval"] else []
  else if e.mcpApprovalReliefApplied && !e.hasAllowGrant then
    if e.requiresApproval then [] else ["mcp_approval_relief"]
  else if e.approvalMode = .approveAll && !e.hasAllowGrant then ["approval_mode_all"]
  else if e.riskLevel ≠ .safe && !e.hasAllowGrant then ["approval_mode_risky"]
  else []) ++
  (if shellRisk.isSome then ["shell_risky_requires_approval"] else []) ++
  (if argumentRisk.isSome then ["argument_risky_requires_approval"] else []) ++
  (if e.outsideRootsReadRequiresApproval then ["outside_roots_read_requires_approval"]
    else [])

/-- `buildAccessReason`: the narrative. -/
def accessPolicyReason (e : Escalation) (shellRisk argumentRisk : Option String) : String :=
  if e.outsideRootsReadRequiresApproval then
    "file access outside trusted roots requires approval"
  else if let some pattern := argumentRisk then
    s!"risky tool argument matched policy pattern \"{pattern}\""
  else if let some pattern := shellRisk then
    s!"risky shell command matched policy pattern \"{pattern}\""
  else if e.wardRequiresApproval then "approval required by Citadel Ward"
  else if e.approvalMode = .bypass && e.riskLevel = .nuclear then
    "nuclear-risk tools require approval even when normal approvals are bypassed"
  else if e.codeModeRunPreapproved && !e.requiresApproval then
    "allowed by approved Code Mode run"
  else if e.approvalMode = .bypass then "allowed by bypass approval mode"
  else if e.requiresApproval then "approval required by approval mode"
  else if e.mcpApprovalReliefApplied && !e.hasAllowGrant then
    "allowed by the MCP server's approval setting"
  else "allowed"

/-- The codes that follow those of `buildAccessReason`. -/
def trailingReasonCodes (e : Escalation) (outsideRootWrite : OutsideRootWriteEvaluation) :
    List String :=
  (if e.officialSearchConsentRequired then ["official_search_provider_consent_required"]
    else []) ++
  (if e.codeModeRequest then ["code_mode_request_requires_approval"] else []) ++
  (match outsideRootWrite with
    | .requiresApproval _ _ => ["outside_root_write_requires_approval"]
    | .admitted _ _ (some _) => ["outside_root_write_grant"]
    | .admitted _ _ none => ["outside_root_write_approved_once"]
    | .none => [])

/-- The narrative, after the cases that replace it. -/
def finalPolicyReason (e : Escalation) (shellRisk argumentRisk : Option String) : String :=
  if e.outsideRootWriteRequiresApproval then "writing outside the write roots requires approval"
  else if e.codeModeRequest then "running code needs the operator's approval"
  else if e.officialSearchConsentRequired then "official search provider consent is required"
  else accessPolicyReason e shellRisk argumentRisk

end GoatCitadel.Policy
