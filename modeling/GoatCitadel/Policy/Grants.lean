import GoatCitadel.Policy.Paths

/-!
# Grants of a request

`resolveGrantDecision` collects the active grants of every scope of the
request that name its tool, under either of its policy names.  One deny grant
decides; otherwise the allow grants whose constraints hold are the allow grants
of the request, the first of them speaking for it.
-/

namespace GoatCitadel.Policy

open GoatCitadel.Support
open GoatCitadel.Sandbox

/-! ## Scopes -/

/-- An identifier of the request, when it is set and not empty. -/
def present (value : Option String) : List String :=
  (value.bind nonEmpty).toList

def buildScopeCandidates (request : ToolRequest) : List (ToolGrantScope × String) :=
  (present request.taskId).map (.task, ·) ++
    [(.agent, request.agentId), (.session, request.sessionId)] ++
    (present request.chamberId).map (.chamber, ·) ++
    (present request.citadelId).map (.citadel, ·) ++
    (present request.workspaceId).map (.workspace, ·) ++
    [(.global, "global")]

structure NativeExecutionReservation where
  grant : Option ToolGrantRecord
  decisionId : String

/-- The grant names the tool under one of the names of the request. -/
def grantNamesTool (request : ToolRequest) (policyToolName : Option String)
    (grant : ToolGrantRecord) : Bool :=
  matchesToolPattern grant.toolPattern request.toolName ||
    policyToolName.any fun name => matchesToolPattern grant.toolPattern name

/-- The active grants of one scope that name the tool, with the reserved one. -/
def scopedGrants (store : Store) (now : Nat) (request : ToolRequest)
    (policyToolName : Option String) (reservation : Option NativeExecutionReservation)
    (candidate : ToolGrantScope × String) : List ToolGrantRecord :=
  let listed := (listActive store.grants now candidate.1 candidate.2).filter fun grant =>
    grant.scope = candidate.1 && grant.scopeRef = candidate.2 &&
      grantNamesTool request policyToolName grant
  match reservation.bind (·.grant) with
  | none => listed
  | some reservedGrant =>
      if reservedGrant.scope = candidate.1 ∧ reservedGrant.scopeRef = candidate.2 ∧
          matchesToolPattern reservedGrant.toolPattern request.toolName ∧
          ¬(listed.any fun grant => grant.grantId = reservedGrant.grantId) then
        listed ++ [reservedGrant]
      else listed

def matchingGrants (store : Store) (now : Nat) (request : ToolRequest)
    (policyToolName : Option String) (reservation : Option NativeExecutionReservation) :
    List ToolGrantRecord :=
  (buildScopeCandidates request).flatMap
    (scopedGrants store now request policyToolName reservation)

/-! ## Constraints -/

/-- `HOST_CONSTRAINED_BROWSER_SEARCH_GRANT_INAPPLICABLE` -/
def hostConstrainedBrowserSearchGrantInapplicable : String :=
  "host-constrained browser.search grant requires an official or explicit outbound target"

/-- `WRITE_ROOT_GRANT_INAPPLICABLE` -/
def writeRootGrantInapplicable : String :=
  "write-root grant does not apply to this request"

section Constraints

variable (engine : Engine) (store : Store) (now : Nat) (request : ToolRequest)
  (grant : ToolGrantRecord) (toolDef : Option ToolDefinition)
  (policyToolName : Option String) (reservation : Option NativeExecutionReservation)
  (constraints : ToolGrantConstraints)

def writeRootsConstraint : Option String :=
  if constraints.writeRoots.isNone then none
  else
    match evaluateOutsideRootWrites engine store request [grant] none with
    | .admitted _ _ (some _) => none
    | _ => some writeRootGrantInapplicable

def mutationConstraint : Option String :=
  if constraints.mutationAllowed = some false && isMutationTool toolDef then
    some "grant disallows mutation actions"
  else none

/-- The scope in which the hourly limits of the grant are counted. -/
def limitScope : CountScope :=
  { scope := grant.scope
    agentId := request.agentId
    sessionId := request.sessionId
    workspaceId := request.workspaceId
    taskId := request.taskId
    excludeDecisionId := reservation.map (·.decisionId) }

/-- The name under which the calls of the grant are counted. -/
def limitToolName : String :=
  match policyToolName with
  | some name =>
      if matchesToolPattern grant.toolPattern name then name else request.toolName
  | none => request.toolName

def callLimitConstraint : Option String :=
  constraints.maxCallsPerHour.bind fun limit =>
    if limit ≤ store.countToolCallsInLastHourInScope now
        (limitToolName request grant policyToolName)
        (limitScope request grant reservation) then
      some s!"grant maxCallsPerHour exceeded ({limit})"
    else none

def writeLimitConstraint : Option String :=
  constraints.maxWritesPerHour.bind fun limit =>
    if isMutationTool toolDef &&
        limit ≤ store.countWritesInLastHourInScope now
          (limitScope request grant reservation) then
      some s!"grant maxWritesPerHour exceeded ({limit})"
    else none

def hostConstraint : Option String :=
  let allowedHosts := constraints.allowedHosts.getD []
  if allowedHosts.isEmpty then none
  else if request.toolName = "docs.ingest" ∧
      readDocsIngestSourceTypeIfValid engine request ≠ some .url then
    some "grant host constraints require a URL docs.ingest source"
  else
    match engine.extractGrantHostCandidates request.toolName request.args
        request.workspaceId with
    | .error blockedReason => some blockedReason
    | .ok candidates =>
        if candidates.isEmpty ∧ request.toolName = "browser.search" then
          some hostConstrainedBrowserSearchGrantInapplicable
        else if candidates.isEmpty ∧ request.toolName = "docs.ingest" then
          some "grant host constraints require a URL docs.ingest source"
        else if candidates.any fun host => !engine.matchesHostAllowlist host allowedHosts then
          some "grant host constraints blocked this action"
        else none

def resolvePathForGrantConstraint (pathValue : String) : List String :=
  match ofJail engine.host pathValue (resolveReadPathAccess engine.host pathValue
      engine.config.sandbox.writeJailRoots engine.config.sandbox.readOnlyRoots) with
  | .ok access => access.resolvedPath
  | .error _ => engine.host.resolve pathValue

/-- `PATH_ARGUMENT_NAMES` -/
def pathArgumentNames : List String :=
  ["path", "from", "to", "relativePath", "outputPath", "cwd"]

def hasRequiredPathArgument : Bool :=
  toolDef.any fun toolDef =>
    toolDef.requiredArgs.any fun name => pathArgumentNames.contains name

def requiresExplicitPathForGrantConstraints (toolName : String) : Bool :=
  toolName == "browser.screenshot" || toolName == "git.add"

/-- The paths of the request, resolved, as texts. -/
def grantPathTexts : List String :=
  (extractGrantPathCandidates engine request).map fun candidate =>
    renderPath (resolvePathForGrantConstraint engine candidate)

def pathConstraint : Option String :=
  let allowedPaths := constraints.allowedPaths.getD []
  if allowedPaths.isEmpty then none
  else if request.toolName = "docs.ingest" ∧
      readDocsIngestSourceTypeIfValid engine request ≠ some .file then
    some "grant path constraints require a file docs.ingest source"
  else
    let candidates := grantPathTexts engine request
    if candidates.isEmpty &&
        (requiresExplicitPathForGrantConstraints request.toolName ||
          request.toolName == "docs.ingest" || hasRequiredPathArgument toolDef) then
      some "grant path constraints require an explicit output path"
    else if candidates.any fun candidate =>
        !isPathWithinAnyRoot engine.host candidate allowedPaths then
      some "grant path constraints blocked this action"
    else none

def referenceRootConstraint : Option String :=
  let referenceRoots := getReferenceRootPaths (some constraints)
  if referenceRoots.isEmpty then none
  else
    let candidates := grantPathTexts engine request
    if candidates.isEmpty && requiresExplicitPathForGrantConstraints request.toolName then
      some "grant path constraints require an explicit output path"
    else if isMutationTool toolDef &&
        candidates.any fun candidate =>
          isPathWithinAnyRoot engine.host candidate referenceRoots then
      some "reference roots are read-only"
    else none

def applyGrantConstraints : Option String :=
  grant.constraints.bind fun constraints =>
    writeRootsConstraint engine store request grant constraints <|>
    mutationConstraint toolDef constraints <|>
    callLimitConstraint store now request grant policyToolName reservation constraints <|>
    writeLimitConstraint store now request grant toolDef reservation constraints <|>
    hostConstraint engine request constraints <|>
    pathConstraint engine request toolDef constraints <|>
    referenceRootConstraint engine request toolDef constraints

/-- Every constraint of an applicable grant holds. -/
theorem applyGrantConstraints_eq_none
    (hconstraints : grant.constraints = some constraints)
    (h : applyGrantConstraints engine store now request grant toolDef policyToolName
      reservation = none) :
    writeRootsConstraint engine store request grant constraints = none ∧
      mutationConstraint toolDef constraints = none ∧
      callLimitConstraint store now request grant policyToolName reservation constraints =
        none ∧
      writeLimitConstraint store now request grant toolDef reservation constraints = none ∧
      hostConstraint engine request constraints = none ∧
      pathConstraint engine request toolDef constraints = none ∧
      referenceRootConstraint engine request toolDef constraints = none := by
  simpa [applyGrantConstraints, hconstraints] using h

end Constraints

/-! ## The decision -/

inductive GrantDecision
  | deny (grant : ToolGrantRecord)
  | allow (grant : ToolGrantRecord) (allowGrants : List ToolGrantRecord)
  | constrained (grant : ToolGrantRecord) (constraintsError : String)

section Decision

variable (engine : Engine) (store : Store) (now : Nat) (request : ToolRequest)
  (toolDef : Option ToolDefinition) (policyToolName : Option String)
  (reservation : Option NativeExecutionReservation)

/-- The allow grants among the given ones whose constraints hold. -/
def applicableGrants (grants : List ToolGrantRecord) : List ToolGrantRecord :=
  grants.filter fun grant =>
    grant.decision = .allow &&
      (applyGrantConstraints engine store now request grant toolDef policyToolName
        reservation).isNone

/-- The first allow grant whose constraints block the request rather than
make the grant inapplicable. -/
def firstConstrainedAllow (grants : List ToolGrantRecord) :
    Option (ToolGrantRecord × String) :=
  grants.findSome? fun grant =>
    if grant.decision = .allow then
      ((applyGrantConstraints engine store now request grant toolDef policyToolName
        reservation).filter fun error =>
          error ≠ hostConstrainedBrowserSearchGrantInapplicable &&
            error ≠ writeRootGrantInapplicable).map (grant, ·)
    else none

def resolveGrantDecision : Option GrantDecision :=
  let grants := matchingGrants store now request policyToolName reservation
  match grants.find? fun grant => grant.decision = .deny with
  | some denyGrant => some (.deny denyGrant)
  | none =>
      match applicableGrants engine store now request toolDef policyToolName reservation
          grants with
      | grant :: rest => some (.allow grant (grant :: rest))
      | [] =>
          (firstConstrainedAllow engine store now request toolDef policyToolName reservation
            grants).map fun constrained => .constrained constrained.1 constrained.2

/-- A decision other than a denial was taken without a matching deny grant. -/
theorem no_deny_of_resolveGrantDecision
    (h : ∀ grant, resolveGrantDecision engine store now request toolDef policyToolName
      reservation ≠ some (.deny grant)) :
    ∀ grant ∈ matchingGrants store now request policyToolName reservation,
      grant.decision ≠ .deny := by
  intro grant hmem hdeny
  unfold resolveGrantDecision at h
  cases hfind : (matchingGrants store now request policyToolName reservation).find?
      (fun grant => grant.decision = .deny) with
  | none => simpa [hdeny] using List.find?_eq_none.mp hfind grant hmem
  | some denyGrant => simp [hfind] at h

theorem resolveGrantDecision_eq_allow {grant : ToolGrantRecord}
    {allowGrants : List ToolGrantRecord}
    (h : resolveGrantDecision engine store now request toolDef policyToolName reservation =
      some (.allow grant allowGrants)) :
    allowGrants = applicableGrants engine store now request toolDef policyToolName
        reservation (matchingGrants store now request policyToolName reservation) ∧
      ∃ rest, allowGrants = grant :: rest := by
  simp only [resolveGrantDecision] at h
  split at h
  · cases h
  · split at h
    · next grant' rest happlicable =>
        cases h
        exact ⟨happlicable.symm, rest, rfl⟩
    · cases hconstrained : firstConstrainedAllow engine store now request toolDef
          policyToolName reservation
          (matchingGrants store now request policyToolName reservation) with
      | none => simp [hconstrained] at h
      | some constrained => simp [hconstrained] at h

theorem mem_applicableGrants {grant : ToolGrantRecord} {grants : List ToolGrantRecord} :
    grant ∈ applicableGrants engine store now request toolDef policyToolName reservation
        grants ↔
      grant ∈ grants ∧ grant.decision = .allow ∧
        applyGrantConstraints engine store now request grant toolDef policyToolName
          reservation = none := by
  simp [applicableGrants]

end Decision

/-! ## Membership -/

/-- A matching grant that is not the reserved one is an active grant of the
store, of a scope of the request, and names its tool. -/
theorem mem_matchingGrants_none {store : Store} {now : Nat} {request : ToolRequest}
    {policyToolName : Option String} {grant : ToolGrantRecord} :
    grant ∈ matchingGrants store now request policyToolName none ↔
      grant ∈ store.grants ∧ grant.active now = true ∧
        (grant.scope, grant.scopeRef) ∈ buildScopeCandidates request ∧
        grantNamesTool request policyToolName grant = true := by
  simp only [matchingGrants, List.mem_flatMap, scopedGrants, Option.bind_none,
    List.mem_filter, listActive, Bool.and_eq_true, decide_eq_true_eq, Bool.or_eq_true]
  constructor
  · rintro ⟨candidate, hcandidate, ⟨hmem, ⟨hactive, _⟩, _⟩, ⟨hscope, href⟩, hnames⟩
    refine ⟨hmem, hactive, ?_, hnames⟩
    rw [hscope, href]
    exact hcandidate
  · rintro ⟨hmem, hactive, hcandidate, hnames⟩
    exact ⟨_, hcandidate, ⟨hmem, ⟨hactive, rfl⟩, Or.inr rfl⟩, ⟨rfl, rfl⟩, hnames⟩

/-- With a reservation, the matching grants of the store are still there. -/
theorem mem_matchingGrants_of_store {store : Store} {now : Nat} {request : ToolRequest}
    {policyToolName : Option String} {reservation : Option NativeExecutionReservation}
    {grant : ToolGrantRecord}
    (h : grant ∈ matchingGrants store now request policyToolName none) :
    grant ∈ matchingGrants store now request policyToolName reservation := by
  obtain ⟨candidate, hcandidate, hscoped⟩ := List.mem_flatMap.mp h
  refine List.mem_flatMap.mpr ⟨candidate, hcandidate, ?_⟩
  simp only [scopedGrants, Option.bind_none] at hscoped
  simp only [scopedGrants]
  split
  · exact hscoped
  · split
    · exact List.mem_append_left _ hscoped
    · exact hscoped

end GoatCitadel.Policy
