import GoatCitadel.Policy.Request

/-!
# The effective policy of a request

`resolveEffectivePolicy` joins the allow and deny patterns of the install, of
the agent and of the active permission profile, and takes the stricter of two
approval modes and of two read modes.  A local operator override opens every
tool and switches the approval mode to `bypass`; it leaves the deny patterns
alone.
-/

namespace GoatCitadel.Policy

open GoatCitadel.Support

/-! ## Tool groups -/

structure ToolGroupDefinition where
  id : String
  label : String
  toolNames : List String
  /-- Core groups cannot be switched off. -/
  switchable : Bool

def toolGroupForTool (groups : List ToolGroupDefinition) (toolName : String) :
    Option ToolGroupDefinition :=
  groups.find? fun group => group.toolNames.contains toolName

def toolNamesSwitchedOff (groups : List ToolGroupDefinition) (disabled : List String) :
    List String :=
  disabled.flatMap fun groupId =>
    match groups.find? fun group => group.id = groupId && group.switchable with
    | some group => group.toolNames
    | none => []

structure PluginToolGroupHold where
  groupId : String
  pluginName : String

def withHeldToolGroups (config : ToolPolicyConfig) (heldGroupIds : List String) :
    ToolPolicyConfig :=
  { config with
    tools := { config.tools with
      disabledGroups := config.tools.disabledGroups ++ heldGroupIds } }

/-! ## Strictness -/

/-- `APPROVAL_MODE_STRICTNESS` -/
def ToolApprovalMode.strictness : ToolApprovalMode → Nat
  | .bypass => 0
  | .approveRisky => 1
  | .approveAll => 2

def stricterApprovalMode (base : ToolApprovalMode) :
    Option ToolApprovalMode → ToolApprovalMode
  | none => base
  | some override => if base.strictness < override.strictness then override else base

def FilesystemReadAccessMode.rank : FilesystemReadAccessMode → Nat
  | .rootsOnly => 0
  | .approvalRequired => 1
  | .fullDisk => 2

def stricterReadAccessMode (globalMode profileMode : Option FilesystemReadAccessMode) :
    FilesystemReadAccessMode :=
  let global := globalMode.getD .rootsOnly
  let profile := profileMode.getD global
  if profile.rank < global.rank then profile else global

/-! ## Resolution -/

structure EffectiveToolPolicy where
  approvalMode : ToolApprovalMode
  permissionProfileId : Option String
  localOperatorOverrideId : Option String
  denySet : List String
  effectiveTools : List String
  switchedOffTools : List String
  readAccessMode : FilesystemReadAccessMode

/-- The profile, when it is active. -/
def activeProfile (profile : Option PermissionProfileRecord) :
    Option PermissionProfileRecord :=
  profile.filter fun profile => profile.status = .active

def isActiveLocalOperatorOverride (now : Nat) (override : LocalOperatorOverrideRecord) :
    Bool :=
  override.status = .active && (override.expiresAt.any fun expiresAt => now < expiresAt)

/-- The patterns of the install, of the agent and of the active profile. -/
def joinedPatterns (config : ToolPolicyConfig) (agentId : String)
    (profile : Option PermissionProfileRecord)
    (ofTools : ToolListConfig → List String)
    (ofProfile : PermissionProfileRecord → List String) : List String :=
  ofTools config.tools ++
    ((config.agents.lookup agentId).map ofTools).getD [] ++
    ((activeProfile profile).map ofProfile).getD []

/-- With `*` among them, the other patterns of a profile are left out. -/
def collapseStar (profileTools : List String) : List String :=
  if profileTools.contains "*" then ["*"] else profileTools

/-- Without `*` among them, the tools that a deny pattern matches are removed. -/
def removeDenied (effectiveTools denySet : List String) : List String :=
  if effectiveTools.contains "*" then effectiveTools
  else effectiveTools.filter fun tool => !matchesAnyToolPattern denySet tool

def resolveEffectivePolicy (groups : List ToolGroupDefinition) (config : ToolPolicyConfig)
    (now : Nat) (agentId : String)
    (requestedPermissionProfile : Option PermissionProfileRecord)
    (localOperatorOverride : Option LocalOperatorOverrideRecord) : EffectiveToolPolicy :=
  let permissionProfile := activeProfile requestedPermissionProfile
  let activeLocalOperatorOverride :=
    localOperatorOverride.filter (isActiveLocalOperatorOverride now)
  let profileTools :=
    if activeLocalOperatorOverride.isSome then ["*"]
    else (permissionProfile.map (·.toolPatterns)).getD []
  let approvalMode :=
    if activeLocalOperatorOverride.isSome then .bypass
    else
      stricterApprovalMode
        ((permissionProfile.map (·.approvalMode)).getD
          (config.tools.approvalMode.getD .approveRisky))
        ((config.agents.lookup agentId).bind (·.approvalMode))
  let allowSet :=
    joinedPatterns config agentId requestedPermissionProfile (·.allow) (·.allow)
  let denySet :=
    joinedPatterns config agentId requestedPermissionProfile (·.deny) (·.deny)
  { approvalMode := approvalMode
    permissionProfileId := permissionProfile.map (·.profileId)
    localOperatorOverrideId := activeLocalOperatorOverride.map (·.overrideId)
    denySet := denySet
    effectiveTools := removeDenied (collapseStar profileTools ++ allowSet) denySet
    switchedOffTools := toolNamesSwitchedOff groups config.tools.disabledGroups
    readAccessMode :=
      stricterReadAccessMode config.sandbox.readAccessMode
        (permissionProfile.bind (·.readAccessMode)) }

def isToolAllowed (policy : EffectiveToolPolicy) (toolName : String) : Bool :=
  if policy.switchedOffTools.contains toolName ||
      matchesAnyToolPattern policy.denySet toolName then
    false
  else
    policy.effectiveTools.contains "*" ||
      matchesAnyToolPattern policy.effectiveTools toolName

/-- More deny patterns leave fewer tools. -/
theorem matchesAny_removeDenied_of_le {tools denySet denySet' : List String} {name : String}
    (hle : ∀ pattern ∈ denySet, pattern ∈ denySet')
    (h : matchesAnyToolPattern (removeDenied tools denySet') name = true) :
    matchesAnyToolPattern (removeDenied tools denySet) name = true := by
  by_cases hstar : tools.contains "*" = true
  · simpa only [removeDenied, if_pos hstar] using h
  · simp only [removeDenied, if_neg hstar] at h ⊢
    obtain ⟨tool, htool, hmatch⟩ := List.any_eq_true.mp h
    obtain ⟨hmem, hkept⟩ := List.mem_filter.mp htool
    refine List.any_eq_true.mpr ⟨tool, List.mem_filter.mpr ⟨hmem, ?_⟩, hmatch⟩
    rw [Bool.not_eq_true', matchesAnyToolPattern, List.any_eq_false] at hkept ⊢
    intro pattern hpattern
    exact hkept pattern (hle pattern hpattern)

/-! ## The built-in heartbeat profile -/

/-- `HEARTBEAT_PERMISSION_PROFILE_ID` -/
def heartbeatPermissionProfileId : String := "heartbeat-restricted"

/-- `SCHEDULED_RESTRICTED_DENY` -/
def scheduledRestrictedDeny : List String :=
  ["shell.*", "fs.write", "fs.patch", "fs.move", "fs.delete", "git.commit", "git.push",
    "http.post", "*.send", "mcp.invoke", "browser.interact", "schedule.*"]

/-- `HEARTBEAT_READ_ONLY_ALLOW` -/
def heartbeatReadOnlyAllow : List String :=
  ["time.now", "memory.read", "memory.search", "calendar.read", "gmail.read"]

/-- `HEARTBEAT_RESTRICTED_DENY` -/
def heartbeatRestrictedDeny : List String :=
  scheduledRestrictedDeny ++
    ["memory.write", "memory.upsert", "fs.*", "file.*", "code.*", "docs.*", "knowledge.*",
      "session.*", "skills.*", "skill.*", "chat.*", "connector.*", "task.*", "http.*"]

/-- `HEARTBEAT_RESTRICTED_PROFILE` -/
def heartbeatRestrictedProfile : PermissionProfileRecord :=
  { profileId := heartbeatPermissionProfileId
    label := "Heartbeat (Read-only)"
    description := some ("Read-only profile for silent heartbeat self-wake turns. " ++
      "Only time/memory/calendar/gmail read tools are available; all side-effecting " ++
      "tools are denied. Deny-wins and Citadel Wards still apply.")
    builtin := true
    status := .active
    scope := .global
    approvalMode := .bypass
    toolPatterns := heartbeatReadOnlyAllow
    allow := []
    deny := heartbeatRestrictedDeny
    readAccessMode := some .approvalRequired
    defaultForSurfaces := some []
    createdBy := "system"
    createdAt := "2026-06-21T00:00:00.000Z"
    updatedAt := "2026-06-21T00:00:00.000Z" }

def isExactBuiltInHeartbeatProfile (request : ToolRequest) : Bool :=
  (request.policyContext.bind fun context => context.permissionProfileId) =
      some heartbeatPermissionProfileId &&
    request.permissionProfile = some heartbeatRestrictedProfile

end GoatCitadel.Policy
