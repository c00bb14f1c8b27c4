import GoatCitadel.Policy.Patterns

/-!
# Requests and configuration

The records that a tool request and the policy configuration are made of, as
far as the policy engine and the executor's path checks read them.
-/

namespace GoatCitadel.Policy

open GoatCitadel.Support

/-! ## Arguments -/

/-- A value of a JSON document.  Numbers are kept as their text. -/
inductive JsonValue
  | null
  | bool (value : Bool)
  | number (text : String)
  | string (value : String)
  | array (items : List JsonValue)
  | object (fields : List (String × JsonValue))

abbrev JsonObject := List (String × JsonValue)

/-- The value, when it is a string. -/
def JsonValue.asString? : JsonValue → Option String
  | .string value => some value
  | _ => none

/-- The value as a string, `""` when it is none. -/
def JsonValue.stringOrEmpty (value : Option JsonValue) : String :=
  ((value.bind JsonValue.asString?).getD "")

/-- A text is truthy when it is not empty. -/
def nonEmpty (text : String) : Option String :=
  if text = "" then none else some text

/-! ## Governance -/

inductive ToolApprovalMode
  | bypass
  | approveRisky
  | approveAll
  deriving DecidableEq

inductive FilesystemReadAccessMode
  | rootsOnly
  | approvalRequired
  | fullDisk
  deriving DecidableEq

inductive ToolRiskLevel
  | safe
  | caution
  | danger
  | nuclear
  deriving DecidableEq

inductive PermissionSurface
  | chat
  | cowork
  | code
  | tools
  | mcp
  | all
  deriving DecidableEq

inductive PermissionProfileStatus
  | active
  | archived
  deriving DecidableEq

inductive PermissionProfileScope
  | global
  | operator
  | workspace
  deriving DecidableEq

structure PermissionProfileRecord where
  profileId : String
  label : String
  description : Option String
  builtin : Bool
  status : PermissionProfileStatus
  scope : PermissionProfileScope
  scopeRef : Option String := none
  approvalMode : ToolApprovalMode
  legacyToolProfile : Option String := none
  toolPatterns : List String
  allow : List String
  deny : List String
  readAccessMode : Option FilesystemReadAccessMode
  defaultForSurfaces : Option (List PermissionSurface)
  createdBy : String
  createdAt : String
  updatedAt : String
  archivedAt : Option String := none
  deriving DecidableEq

inductive LocalOperatorOverrideStatus
  | active
  | expired
  | revoked
  deriving DecidableEq

/-- A local operator override, with `Date.parse` of its expiry. -/
structure LocalOperatorOverrideRecord where
  overrideId : String
  status : LocalOperatorOverrideStatus
  expiresAt : Option Nat
  deriving DecidableEq

inductive AuthActorSource
  | none
  | token
  | basic
  | loopback
  | sse
  | device
  | companion
  | a2aPeer
  | meshNode
  deriving DecidableEq

structure ToolPolicyActorContext where
  authActorSource : Option AuthActorSource := none
  permissionProfileId : Option String := none
  permissionProfile : Option PermissionProfileRecord := none
  localOperatorOverrideId : Option String := none
  localOperatorOverride : Option LocalOperatorOverrideRecord := none
  surface : Option PermissionSurface := none
  approvedCodeModeRunId : Option String := none
  matchedGrantId : Option String := none
  matchedGrantAllowedHosts : Option (List String) := none
  fullWebAccess : Option Bool := none

inductive ToolExecutionTrustLevel
  | trustedOperator
  | trustedWorkspace
  | mixedUntrusted
  | untrustedExternal
  deriving DecidableEq

/-! ## Requests -/

/-- `ToolInvokeRequest`, together with the chamber that only a
`ToolAccessEvaluateRequest` can name. -/
structure ToolRequest where
  toolName : String
  args : Option JsonObject
  agentId : String
  sessionId : String
  turnId : Option String := none
  toolRunId : Option String := none
  approvedByApprovalId : Option String := none
  workspaceId : Option String := none
  citadelId : Option String := none
  chamberId : Option String := none
  taskId : Option String := none
  runId : Option String := none
  trustLevel : Option ToolExecutionTrustLevel := none
  sourceAttribution : Option (List JsonObject) := none
  authContext : Option JsonObject := none
  /-- `consentContext.reason` -/
  consentReason : Option String := none
  permissionProfileId : Option String := none
  localOperatorOverrideId : Option String := none
  surface : Option PermissionSurface := none
  policyContext : Option ToolPolicyActorContext := none
  dryRun : Option Bool := none
  externalRuntime : Option Bool := none
  runtimeSkillApplications : Option JsonValue := none
  writePathRepair : Option JsonValue := none
  presentationGrounding : Option JsonValue := none

namespace ToolRequest

/-- `request.args?.[key]` -/
def arg (request : ToolRequest) (key : String) : Option JsonValue :=
  request.args.bind fun args => args.lookup key

/-- A string argument. -/
def stringArg (request : ToolRequest) (key : String) : Option String :=
  (request.arg key).bind JsonValue.asString?

/-- `request.policyContext?.permissionProfile` -/
def permissionProfile (request : ToolRequest) : Option PermissionProfileRecord :=
  request.policyContext.bind fun context => context.permissionProfile

/-- `request.policyContext?.localOperatorOverride` -/
def localOperatorOverride (request : ToolRequest) : Option LocalOperatorOverrideRecord :=
  request.policyContext.bind fun context => context.localOperatorOverride

/-- `request.policyContext?.authActorSource` -/
def authActorSource (request : ToolRequest) : Option AuthActorSource :=
  request.policyContext.bind fun context => context.authActorSource

end ToolRequest

def normalizeToolTrustLevel (value : Option JsonValue) : Option ToolExecutionTrustLevel :=
  match value with
  | some (.string "trusted_operator") => some .trustedOperator
  | some (.string "trusted_workspace") => some .trustedWorkspace
  | some (.string "mixed_untrusted") => some .mixedUntrusted
  | some (.string "untrusted_external") => some .untrustedExternal
  | _ => none

/-- `TRUST_RESTRICTIVENESS` -/
def ToolExecutionTrustLevel.restrictiveness : ToolExecutionTrustLevel → Nat
  | .trustedOperator => 0
  | .trustedWorkspace => 1
  | .mixedUntrusted => 2
  | .untrustedExternal => 3

def resolveToolTrustLevel (request : ToolRequest) : ToolExecutionTrustLevel :=
  (request.sourceAttribution.getD []).foldl
    (fun effective source =>
      match normalizeToolTrustLevel (source.lookup "trustLevel") with
      | some sourceTrust =>
          if effective.restrictiveness < sourceTrust.restrictiveness then sourceTrust
          else effective
      | none => effective)
    (request.trustLevel.getD .trustedOperator)

/-! ## Tools -/

structure ToolDefinition where
  name : String
  riskLevel : ToolRiskLevel
  requiresApproval : Bool
  /-- The names in `argSchema.required`. -/
  requiredArgs : List String := []
  deriving DecidableEq

/-- `ToolRegistry`: each tool is kept under its name. -/
structure ToolRegistry where
  get : String → Option ToolDefinition
  named : ∀ name toolDef, get name = some toolDef → toolDef.name = name

/-- `CODE_MODE_REQUEST_TOOL_NAME` -/
def codeModeRequestToolName : String := "code_mode.request"

/-- `MESH_TOOL_POLICY_DEFINITION` -/
def meshToolPolicyDefinition : ToolDefinition :=
  { name := "mesh.invoke", riskLevel := .danger, requiresApproval := true }

/-- `NATIVE_INSTALLATION_POLICY` -/
def nativeInstallationPolicy : ToolDefinition :=
  { name := "remote_worker.native_runtime_install",
    riskLevel := .danger, requiresApproval := true }

/-- `CAUTION_MUTATING_TOOL_NAMES` -/
def cautionMutatingToolNames : List String :=
  ["fs.copy", "git.branch.create", "memory.write", "memory.upsert", "docs.ingest",
    "embeddings.index", "artifacts.create", "documents.create", "presentations.create"]

/-- `text.endsWith(tail)` -/
def endsWith (text tail : String) : Bool :=
  tail.toList.isSuffixOf text.toList

/-- `text.startsWith(head)` -/
def startsWith (text head : String) : Bool :=
  head.toList.isPrefixOf text.toList

def isKnownMutatingToolName (toolName : String) : Bool :=
  cautionMutatingToolNames.contains toolName ||
    (endsWith toolName ".send" || endsWith toolName ".react" ||
      endsWith toolName ".unsend") ||
    toolName == "webhook.send" ||
    toolName == "calendar.create_event"

def isMutationTool : Option ToolDefinition → Bool
  | none => false
  | some toolDef =>
      toolDef.riskLevel = .danger || toolDef.riskLevel = .nuclear ||
        isKnownMutatingToolName toolDef.name

def isShellCommandTool (toolName : String) : Bool :=
  toolName == "shell.exec" || toolName == "shell.exec_background"

/-- The names whose tools act on a remote service, by prefix. -/
def remoteServicePrefixes : List String :=
  ["channel.", "slack.", "discord.", "telegram.", "teams.", "whatsapp.", "imessage.",
    "mattermost.", "google-chat.", "line.", "nextcloud-talk.", "zalo"]

/-- `deriveToolCapabilityPolicy(toolName, toolDef).blocksUntrustedEscalation`; the
other fields of the capability policy are only reported. -/
def blocksUntrustedEscalation (toolName : String) : Bool :=
  let mutatesFilesystem :=
    ["fs.write", "fs.move", "fs.delete", "artifacts.create", "documents.create",
      "presentations.create"].contains toolName
  let isNetworkWrite := toolName == "http.post" || toolName == "webhook.send"
  let isMeshInvocation := toolName == "mesh.invoke"
  let mutatesRemoteState :=
    isMeshInvocation || isNetworkWrite ||
      (["gmail.send", "smtp.send", "calendar.create_event"] ++ remoteServicePrefixes).any
        (startsWith toolName) ||
      startsWith toolName "git." || toolName == "mcp.invoke"
  let resolvesSecrets :=
    isMeshInvocation || toolName == "mcp.invoke" ||
      (["gmail.", "smtp.", "calendar."] ++ remoteServicePrefixes).any (startsWith toolName)
  let executesProcess :=
    ["shell.exec", "shell.exec_background", "tests.run", "lint.run", "build.run"].contains
      toolName
  let isBrowserControl :=
    toolName == "browser.interact" || startsWith toolName "browser.cookies." ||
      startsWith toolName "browser.storage." || toolName == "browser.context.configure"
  mutatesFilesystem || mutatesRemoteState || resolvesSecrets || executesProcess ||
    isBrowserControl || toolName == "mcp.invoke"

def isUntrustedToolEscalation (trustLevel : ToolExecutionTrustLevel)
    (policyToolName : String) : Bool :=
  (trustLevel = .untrustedExternal || trustLevel = .mixedUntrusted) &&
    blocksUntrustedEscalation policyToolName

/-! ## Configuration -/

structure ToolListConfig where
  approvalMode : Option ToolApprovalMode := none
  allow : List String := []
  deny : List String := []
  disabledGroups : List String := []

structure OperatorWriteRoot where
  path : String
  allowDelete : Bool

inductive OutsideRootWriteMode
  | deny
  | approvalRequired
  deriving DecidableEq

structure RuntimeWriteProtection where
  rootDir : String
  protectedPaths : List String

structure SandboxConfig where
  writeJailRoots : List String
  readOnlyRoots : List String
  readAccessMode : Option FilesystemReadAccessMode
  requireApprovalForRiskyShell : Bool
  operatorWriteRoots : List OperatorWriteRoot
  runtimeWriteProtection : Option RuntimeWriteProtection
  outsideRootWriteMode : Option OutsideRootWriteMode

structure ToolPolicyConfig where
  tools : ToolListConfig
  agents : List (String × ToolListConfig)
  sandbox : SandboxConfig

end GoatCitadel.Policy
