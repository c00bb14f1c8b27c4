import GoatCitadel.Policy.Access

/-!
# The evaluation of a request

The gates of `evaluateAccessInternal` put together, and the inversion of an
evaluation that allows: `Admission` says everything that an allowed request has
passed and what its evaluation looks like.  The results about grants, limits and
approvals are derived from it and never unfold the evaluation again.
-/

namespace GoatCitadel.Policy

open GoatCitadel.Support
open GoatCitadel.Sandbox

/-! ## Grants behind the wards -/

def isOfficialSearchRequest (engine : Engine) (request : ToolRequest) : Bool :=
  request.toolName == "browser.search" &&
    engine.isOfficialResearchSearchInvocation (request.args.getD [])

namespace GrantDecision

/-- The grant that speaks for an allow decision, constrained or not. -/
def allowGrant? : GrantDecision → Option ToolGrantRecord
  | .deny _ => none
  | .allow grant _ => some grant
  | .constrained grant _ => some grant

end GrantDecision

/-- `hasAllowGrant` -/
def hasAllowGrant : Option GrantDecision → Bool
  | some (.allow _ _) => true
  | _ => false

/-- `allowGrants` -/
def allowGrantsOf (officialSearchRequest : Bool) : Option GrantDecision → List ToolGrantRecord
  | some (.allow _ allowGrants) => allowGrants
  | some (.constrained grant _) => if officialSearchRequest then [] else [grant]
  | _ => []

section Evaluation

variable (engine : Engine) (store : Store) (now : Nat) (ctx : AccessContext)

/-- The grant decision; allow grants do not speak for a native installation. -/
def grantDecisionFor : Option GrantDecision :=
  (resolveGrantDecision engine store now ctx.request ctx.toolDef ctx.policyToolName
    ctx.reservation).filter fun decision =>
      !ctx.nativeInstallation || decision.allowGrant?.isNone

def approvalBypassId : Option String :=
  getVerifiedApprovalBypassId engine.stableStringify store now ctx.request

/-- What the gates behind the grants work on. -/
structure GrantView where
  decision : Option GrantDecision
  officialSearchRequest : Bool
  allowGrants : List ToolGrantRecord
  outsideRootWrite : OutsideRootWriteEvaluation

def grantView : GrantView :=
  let decision := grantDecisionFor engine store now ctx
  let official := isOfficialSearchRequest engine ctx.request
  let allowGrants := allowGrantsOf official decision
  { decision := decision
    officialSearchRequest := official
    allowGrants := allowGrants
    outsideRootWrite := evaluateOutsideRootWrites engine store ctx.request allowGrants
      (approvalBypassId engine store now ctx) }

/-- Whether the calls counted for the grant show no earlier one. -/
def isFirstMutationInScope (grant : ToolGrantRecord) : Bool :=
  store.countToolCallsInLastHourInScope now
    (limitToolName ctx.request grant ctx.policyToolName)
    (limitScope ctx.request grant none) = 0

/-- `resolveGrantForOutsideRootsRead` -/
def outsideRootsReadGrant (view : GrantView) (accesses : List ReadPathAccessDecision) :
    Option ToolGrantRecord :=
  resolveGrantForOutsideRootsRead engine ctx.policy.readAccessMode
    (approvalBypassId engine store now ctx).isSome view.allowGrants accesses

def resolveOfficialSearchConsentGrant (request : ToolRequest)
    (allowGrants : List ToolGrantRecord) : Option ToolGrantRecord :=
  let requiredHosts := engine.officialSearchHosts (request.args.getD [])
  if requiredHosts.isEmpty then none
  else
    allowGrants.find? fun grant =>
      let allowedHosts :=
        (((grant.constraints.bind (·.allowedHosts)).getD []).filterMap fun host =>
          nonEmpty (engine.toLowerCase (trim host))).dedup
      grant.decision = .allow && grant.toolPattern = "browser.search" &&
        allowedHosts.length = requiredHosts.length &&
        requiredHosts.all fun host => allowedHosts.contains host

/-- The consent grant of an official search. -/
def officialSearchConsentGrant (view : GrantView) : Option ToolGrantRecord :=
  if view.officialSearchRequest then
    resolveOfficialSearchConsentGrant engine ctx.request view.allowGrants
  else none

def escalationOf (rawWardEffect : Option WardEffect) (view : GrantView)
    (accesses : List ReadPathAccessDecision) : Escalation :=
  let isRemoteA2APeer := decide (ctx.request.authActorSource = some .a2aPeer)
  { wardRequiresApproval := rawWardEffect = some .requireApproval
    hasAllowGrant := hasAllowGrant view.decision
    mcpApprovalReliefApplied := ctx.mcpApprovalRelief && !isRemoteA2APeer
    approvalMode := ctx.policy.approvalMode
    toolRequiresApproval := ctx.toolDef.any (·.requiresApproval)
    firstMutation :=
      ctx.riskLevel = .danger && isMutationTool ctx.toolDef &&
        (view.decision.bind (·.allowGrant?)).any fun grant =>
          isFirstMutationInScope store now ctx
            ((outsideRootsReadGrant engine store now ctx view accesses).getD grant)
    riskLevel := ctx.riskLevel
    shellRisky := (evaluateShellRisk engine ctx.request).isSome
    argumentRisky := (evaluateArgumentRisk engine ctx.request).isSome
    outsideRootsReadRequiresApproval :=
      requiresApprovalForOutsideRootsRead engine ctx.policy.readAccessMode
        (approvalBypassId engine store now ctx).isSome view.allowGrants accesses
    outsideRootWriteRequiresApproval :=
      match view.outsideRootWrite with
      | .requiresApproval _ _ => true
      | _ => false
    codeModeRunPreapproved :=
      ((ctx.request.policyContext.bind (·.approvedCodeModeRunId)).bind nonEmpty).isSome
    isRemoteA2APeer := isRemoteA2APeer
    officialSearchConsentRequired :=
      view.officialSearchRequest && (officialSearchConsentGrant engine ctx view).isNone
    codeModeRequest := ctx.request.toolName = codeModeRequestToolName }

/-- The grant that the allowed request runs under and that its execution consumes. -/
def effectiveAllowGrant (view : GrantView) (accesses : List ReadPathAccessDecision) :
    Option ToolGrantRecord :=
  if view.officialSearchRequest then officialSearchConsentGrant engine ctx view
  else
    match view.outsideRootWrite with
    | .admitted _ _ (some grant) => some grant
    | _ =>
        (view.decision.bind (·.allowGrant?)).map fun grant =>
          (outsideRootsReadGrant engine store now ctx view accesses).getD grant

def getAllowedGrantHosts (constraints : Option ToolGrantConstraints) : Option (List String) :=
  match ((constraints.bind (·.allowedHosts)).getD []).filterMap fun host =>
      nonEmpty (trim host) with
  | [] => none
  | hosts => some hosts

/-- The evaluation of a request that passed every gate. -/
def concludeAccess (rawWardEffect : Option WardEffect) (view : GrantView)
    (accesses : List ReadPathAccessDecision) : AccessEvaluation :=
  let escalation := escalationOf engine store now ctx rawWardEffect view accesses
  let shellRisk := evaluateShellRisk engine ctx.request
  let argumentRisk := evaluateArgumentRisk engine ctx.request
  let reasonCodes :=
    accessReasonCodes ctx rawWardEffect escalation shellRisk argumentRisk ++
      trailingReasonCodes escalation view.outsideRootWrite
  if escalation.requiresApproval && isExactBuiltInHeartbeatProfile ctx.request then
    ctx.withPolicy
      { allowed := false
        reasonCodes := (reasonCodes ++ ["heartbeat_interactive_approval_forbidden"]).dedup
        requiresApproval := false
        riskLevel := ctx.riskLevel
        policyReason := "silent heartbeat tool escalation is blocked because " ++
          "interactive approval is unavailable" }
  else
    let grant := effectiveAllowGrant engine store now ctx view accesses
    ctx.withPolicy
      { allowed := true
        reasonCodes := reasonCodes
        requiresApproval := escalation.requiresApproval
        matchedGrantId := grant.map (·.grantId)
        matchedGrantAllowedHosts := grant.bind fun grant =>
          getAllowedGrantHosts grant.constraints
        riskLevel := ctx.riskLevel
        policyReason := finalPolicyReason escalation shellRisk argumentRisk
        grantToConsume := grant.map (·.grantId)
        outsideRootTargets :=
          match view.outsideRootWrite with
          | .requiresApproval _ targets => some targets
          | _ => none }

/-- The gates behind the grants. -/
def evaluateBehindGrants (rawWardEffect : Option WardEffect) (view : GrantView) :
    Except String AccessEvaluation :=
  match validateStructuralSafety engine ctx.request ctx.policy.readAccessMode
      (approvalBypassId engine store now ctx).isSome view.allowGrants
      view.outsideRootWrite with
  | .error structuralError => .ok (ctx.deny "structural_safety_block" structuralError)
  | .ok () =>
      if isUntrustedToolEscalation (resolveToolTrustLevel ctx.request)
          ctx.capabilityToolName then
        .ok (ctx.deny "untrusted_source_privileged_tool_block"
          (s!"tool {ctx.request.toolName} is blocked because untrusted external content " ++
            "cannot escalate into privileged execution"))
      else
        match view.decision, view.officialSearchRequest with
        | some (.constrained grant constraintsError), false =>
            .ok { ctx.deny "grant_constraints_block" constraintsError with
              matchedGrantId := some grant.grantId }
        | _, _ =>
            if !(ctx.toolNames.any fun name =>
                matchesAnyToolPattern ctx.policy.effectiveTools name) &&
                !hasAllowGrant view.decision then
              .ok (ctx.deny "policy_disallow" "tool not available in resolved policy")
            else
              (readAccesses engine ctx.request).map
                (concludeAccess engine store now ctx rawWardEffect view)

/-- The gates behind the surface. -/
def evaluateBehindSurface (rawWardEffect : Option WardEffect) :
    Except String AccessEvaluation :=
  if rawWardEffect = some .deny then
    .ok (ctx.deny "citadel_ward_deny"
      s!"tool {ctx.request.toolName} denied by a Citadel Ward")
  else
    let view := grantView engine store now ctx
    match view.decision with
    | some (.deny grant) =>
        .ok { ctx.deny "grant_deny" "tool denied by scoped grant" with
          matchedGrantId := some grant.grantId }
    | _ => evaluateBehindGrants engine store now ctx rawWardEffect view

end Evaluation

def evaluateInContext (engine : Engine) (store : Store) (now : Nat) (ctx : AccessContext) :
    Except String AccessEvaluation :=
  match surfaceDenial engine ctx with
  | some denial => .ok denial
  | none =>
      let rawWardEffect := citadelWardEffect store ctx
      (evaluateBehindSurface engine store now ctx rawWardEffect).map (withWard rawWardEffect)

def evaluateAccessInternal (engine : Engine) (store : Store) (now : Nat)
    (input : AccessInput) : Except String AccessEvaluation :=
  (accessContext engine now input).bind (evaluateInContext engine store now)

/-! ## What an allowed request has passed -/

/-- The reading of the gates that an allowed request has passed, `accesses`
being the readings of its paths. -/
structure Admission (engine : Engine) (store : Store) (now : Nat) (ctx : AccessContext)
    (accesses : List ReadPathAccessDecision) (evaluation : AccessEvaluation) : Prop where
  surface : surfaceDenial engine ctx = none
  ward : citadelWardEffect store ctx ≠ some .deny
  notDenied : ∀ grant, (grantView engine store now ctx).decision ≠ some (.deny grant)
  notConstrained : ∀ grant constraintsError,
    (grantView engine store now ctx).decision = some (.constrained grant constraintsError) →
      (grantView engine store now ctx).officialSearchRequest = true
  structural : validateStructuralSafety engine ctx.request ctx.policy.readAccessMode
    (approvalBypassId engine store now ctx).isSome (grantView engine store now ctx).allowGrants
    (grantView engine store now ctx).outsideRootWrite = .ok ()
  trusted : isUntrustedToolEscalation (resolveToolTrustLevel ctx.request)
    ctx.capabilityToolName = false
  available : (ctx.toolNames.any fun name =>
      matchesAnyToolPattern ctx.policy.effectiveTools name) = true ∨
    hasAllowGrant (grantView engine store now ctx).decision = true
  readable : readAccesses engine ctx.request = .ok accesses
  attended : ((escalationOf engine store now ctx (citadelWardEffect store ctx)
      (grantView engine store now ctx) accesses).requiresApproval &&
    isExactBuiltInHeartbeatProfile ctx.request) = false
  concluded : evaluation = withWard (citadelWardEffect store ctx)
    (concludeAccess engine store now ctx (citadelWardEffect store ctx)
      (grantView engine store now ctx) accesses)

variable {engine : Engine} {ctx : AccessContext} {store : Store} {now : Nat}
  {evaluation : AccessEvaluation} {accesses : List ReadPathAccessDecision} {grant : ToolGrantRecord}

@[simp]
theorem deny_allowed (riskLevel : ToolRiskLevel) (code reason : String) :
    (deny riskLevel code reason).allowed = false := rfl

namespace AccessContext

@[simp]
theorem withPolicy_allowed (ctx : AccessContext) (evaluation : AccessEvaluation) :
    (ctx.withPolicy evaluation).allowed = evaluation.allowed := rfl

@[simp]
theorem deny_allowed (ctx : AccessContext) (code reason : String) :
    (ctx.deny code reason).allowed = false := rfl

end AccessContext

@[simp]
theorem withWard_allowed (rawWardEffect : Option WardEffect) (evaluation : AccessEvaluation) :
    (withWard rawWardEffect evaluation).allowed = evaluation.allowed := rfl

@[simp]
theorem withWard_requiresApproval (rawWardEffect : Option WardEffect)
    (evaluation : AccessEvaluation) :
    (withWard rawWardEffect evaluation).requiresApproval = evaluation.requiresApproval := rfl

theorem switchedOffDenial_allowed (engine : Engine) (ctx : AccessContext) (name : String) :
    (switchedOffDenial engine ctx name).allowed = false := by
  simp only [switchedOffDenial]
  split
  · rfl
  · split <;> rfl

theorem surfaceDenial_allowed {denial : AccessEvaluation}
    (h : surfaceDenial engine ctx = some denial) : denial.allowed = false := by
  unfold surfaceDenial at h
  split at h
  · cases h
    rfl
  · split at h
    · cases h
      exact switchedOffDenial_allowed engine ctx _
    · split at h
      · cases h
        rfl
      · split at h
        · cases h
          rfl
        · split at h
          · cases h
            rfl
          · cases h

section Conclusion

variable (engine : Engine) (store : Store) (now : Nat) (ctx : AccessContext)
  (rawWardEffect : Option WardEffect) (view : GrantView)
  (accesses : List ReadPathAccessDecision)

theorem concludeAccess_allowed :
    (concludeAccess engine store now ctx rawWardEffect view accesses).allowed =
      !((escalationOf engine store now ctx rawWardEffect view accesses).requiresApproval &&
        isExactBuiltInHeartbeatProfile ctx.request) := by
  simp only [concludeAccess]
  split
  · next h => simp [h]
  · next h => simp [h]

theorem concludeAccess_requiresApproval
    (h : ((escalationOf engine store now ctx rawWardEffect view accesses).requiresApproval &&
      isExactBuiltInHeartbeatProfile ctx.request) = false) :
    (concludeAccess engine store now ctx rawWardEffect view accesses).requiresApproval =
      (escalationOf engine store now ctx rawWardEffect view accesses).requiresApproval := by
  simp [concludeAccess, h, AccessContext.withPolicy]

theorem concludeAccess_grantToConsume
    (h : ((escalationOf engine store now ctx rawWardEffect view accesses).requiresApproval &&
      isExactBuiltInHeartbeatProfile ctx.request) = false) :
    (concludeAccess engine store now ctx rawWardEffect view accesses).grantToConsume =
        (effectiveAllowGrant engine store now ctx view accesses).map (·.grantId) ∧
      (concludeAccess engine store now ctx rawWardEffect view accesses).matchedGrantId =
        (effectiveAllowGrant engine store now ctx view accesses).map (·.grantId) := by
  simp [concludeAccess, h, AccessContext.withPolicy]

end Conclusion

theorem admission_of_allowed (h : evaluateInContext engine store now ctx = .ok evaluation)
    (hallowed : evaluation.allowed = true) :
    ∃ accesses, Admission engine store now ctx accesses evaluation := by
  unfold evaluateInContext at h
  split at h
  · next denial hdenial =>
      cases h
      rw [surfaceDenial_allowed hdenial] at hallowed
      cases hallowed
  next hsurface =>
  obtain ⟨inner, hinner, rfl⟩ : ∃ inner,
      evaluateBehindSurface engine store now ctx (citadelWardEffect store ctx) = .ok inner ∧
        withWard (citadelWardEffect store ctx) inner = evaluation := by
    cases hbehind : evaluateBehindSurface engine store now ctx (citadelWardEffect store ctx) with
    | error error => simp [hbehind, Except.map] at h
    | ok inner =>
        refine ⟨inner, rfl, ?_⟩
        simpa [hbehind, Except.map] using h
  rw [withWard_allowed] at hallowed
  unfold evaluateBehindSurface at hinner
  split at hinner
  · cases hinner
    cases hallowed
  next hward =>
  simp only at hinner
  split at hinner
  · cases hinner
    cases hallowed
  next hnotDenied =>
  unfold evaluateBehindGrants at hinner
  split at hinner
  · cases hinner
    cases hallowed
  next hstructural =>
  split at hinner
  · cases hinner
    cases hallowed
  next htrusted =>
  split at hinner
  · cases hinner
    cases hallowed
  next hconstrained =>
  split at hinner
  · cases hinner
    cases hallowed
  next havailable =>
  cases hread : readAccesses engine ctx.request with
  | error error => simp [hread, Except.map] at hinner
  | ok accesses =>
      have hconclude : concludeAccess engine store now ctx (citadelWardEffect store ctx)
          (grantView engine store now ctx) accesses = inner := by
        simpa [hread, Except.map] using hinner
      rw [← hconclude, concludeAccess_allowed, Bool.not_eq_true'] at hallowed
      refine ⟨accesses, hsurface, hward, fun grant => hnotDenied grant, ?_, hstructural,
        by simpa using htrusted, ?_, hread, hallowed, ?_⟩
      · intro grant constraintsError hdecision
        by_contra hofficial
        exact hconstrained grant constraintsError hdecision (by simpa using hofficial)
      · by_contra hneither
        rw [not_or, Bool.not_eq_true, Bool.not_eq_true] at hneither
        exact havailable (by rw [hneither.1, hneither.2]; rfl)
      · rw [hconclude]

/-- A request that passes the gates is evaluated to its conclusion. -/
theorem evaluateInContext_of_admission (h : Admission engine store now ctx accesses evaluation) :
    evaluateInContext engine store now ctx = .ok evaluation := by
  have hgrants : evaluateBehindGrants engine store now ctx (citadelWardEffect store ctx)
      (grantView engine store now ctx) =
      .ok (concludeAccess engine store now ctx (citadelWardEffect store ctx)
        (grantView engine store now ctx) accesses) := by
    simp only [evaluateBehindGrants, h.structural, h.trusted, h.readable, Except.map,
      Bool.false_eq_true, if_false]
    split
    · next grant constraintsError hdecision hofficial =>
        rw [h.notConstrained grant constraintsError hdecision] at hofficial
        cases hofficial
    · obtain havailable | hallow := h.available
      · simp [havailable]
      · simp [hallow]
  have hbehind : evaluateBehindSurface engine store now ctx (citadelWardEffect store ctx) =
      .ok (concludeAccess engine store now ctx (citadelWardEffect store ctx)
        (grantView engine store now ctx) accesses) := by
    simp only [evaluateBehindSurface, if_neg h.ward]
    split
    · next grant hdecision => exact absurd hdecision (h.notDenied grant)
    · exact hgrants
  rw [h.concluded, evaluateInContext, h.surface]
  simp only [hbehind, Except.map]

theorem Admission.allowed (h : Admission engine store now ctx accesses evaluation) :
    evaluation.allowed = true := by
  rw [h.concluded, withWard_allowed, concludeAccess_allowed, h.attended]
  rfl

theorem Admission.requiresApproval (h : Admission engine store now ctx accesses evaluation) :
    evaluation.requiresApproval =
      (escalationOf engine store now ctx (citadelWardEffect store ctx)
        (grantView engine store now ctx) accesses).requiresApproval := by
  rw [h.concluded, withWard_requiresApproval,
    concludeAccess_requiresApproval _ _ _ _ _ _ _ h.attended]

theorem Admission.riskLevel (h : Admission engine store now ctx accesses evaluation) :
    evaluation.riskLevel = ctx.riskLevel := by
  rw [h.concluded]
  simp [withWard, concludeAccess, h.attended, AccessContext.withPolicy]

/-- The grant that an allowed evaluation names is the effective one. -/
theorem Admission.grantToConsume (h : Admission engine store now ctx accesses evaluation) :
    evaluation.grantToConsume =
        (effectiveAllowGrant engine store now ctx (grantView engine store now ctx)
          accesses).map (·.grantId) ∧
      evaluation.matchedGrantId =
        (effectiveAllowGrant engine store now ctx (grantView engine store now ctx)
          accesses).map (·.grantId) := by
  rw [h.concluded]
  exact concludeAccess_grantToConsume _ _ _ _ _ _ _ h.attended

/-! ## The effective grant -/

theorem mem_of_outsideRootsReadGrant {view : GrantView}
    (h : outsideRootsReadGrant engine store now ctx view accesses = some grant) :
    grant ∈ view.allowGrants := by
  unfold outsideRootsReadGrant resolveGrantForOutsideRootsRead at h
  split at h
  · cases h
  split at h
  · cases h
  · obtain ⟨access, _, hfound⟩ := List.exists_of_findSome?_eq_some h
    split at hfound
    · cases hfound
    · exact List.mem_of_find?_eq_some hfound

theorem mem_of_folderGrant {allowGrants : List ToolGrantRecord} {resolved roots : List String}
    (h : folderGrant engine allowGrants resolved = some (grant, roots)) : grant ∈ allowGrants := by
  obtain ⟨candidate, hmem, hfound⟩ := List.exists_of_findSome?_eq_some h
  simp only [Option.bind_eq_bind, Option.bind_eq_some_iff, Option.some.injEq,
    Prod.mk.injEq] at hfound
  obtain ⟨_, _, _, _, rfl, _⟩ := hfound
  exact hmem

theorem mem_of_admitted {request : ToolRequest} {allowGrants : List ToolGrantRecord}
    {verifiedApprovalId : Option String} {outsidePaths roots : List String}
    (h : evaluateOutsideRootWrites engine store request allowGrants verifiedApprovalId =
      .admitted outsidePaths roots (some grant)) : grant ∈ allowGrants := by
  simp only [evaluateOutsideRootWrites] at h
  split at h
  · cases h
  · split at h
    · next hfolder =>
        cases h
        exact mem_of_folderGrant hfolder
    · split at h <;> cases h

theorem mem_of_officialSearchConsentGrant {view : GrantView}
    (h : officialSearchConsentGrant engine ctx view = some grant) : grant ∈ view.allowGrants := by
  by_cases hofficial : view.officialSearchRequest = true
  · simp only [officialSearchConsentGrant, if_pos hofficial,
      resolveOfficialSearchConsentGrant] at h
    split at h
    · cases h
    · exact List.mem_of_find?_eq_some h
  · simp [officialSearchConsentGrant, hofficial] at h

/-- The effective grant is among the allow grants of the request. -/
theorem Admission.effective_mem (h : Admission engine store now ctx accesses evaluation)
    (heffective : effectiveAllowGrant engine store now ctx (grantView engine store now ctx)
      accesses = some grant) : grant ∈ (grantView engine store now ctx).allowGrants := by
  unfold effectiveAllowGrant at heffective
  split at heffective
  · exact mem_of_officialSearchConsentGrant heffective
  next hofficial =>
  split at heffective
  · next hadmitted =>
      cases heffective
      exact mem_of_admitted hadmitted
  · cases hdecision : (grantView engine store now ctx).decision with
    | none => simp [hdecision] at heffective
    | some decision =>
        cases decision with
        | deny denyGrant => exact absurd hdecision (h.notDenied denyGrant)
        | constrained constrained constraintsError =>
            exact absurd (h.notConstrained constrained constraintsError hdecision) hofficial
        | allow head allowGrants =>
            have hallow : (grantView engine store now ctx).allowGrants = allowGrants := by
              show allowGrantsOf _ (grantView engine store now ctx).decision = _
              rw [hdecision]
              rfl
            simp only [hdecision, Option.bind_some, GrantDecision.allowGrant?, Option.map_some,
              Option.some.injEq] at heffective
            cases hread : outsideRootsReadGrant engine store now ctx
                (grantView engine store now ctx) accesses with
            | some readGrant =>
                rw [hread] at heffective
                cases heffective
                exact mem_of_outsideRootsReadGrant hread
            | none =>
                rw [hread] at heffective
                cases heffective
                have hresolve : resolveGrantDecision engine store now ctx.request ctx.toolDef
                    ctx.policyToolName ctx.reservation = some (.allow head allowGrants) :=
                  (Option.filter_eq_some_iff.mp hdecision).1
                obtain ⟨_, rest, hrest⟩ := resolveGrantDecision_eq_allow _ _ _ _ _ _ _ hresolve
                rw [hallow, hrest]
                exact List.mem_cons_self

/-- The allow grants of an admitted request are the applicable ones. -/
theorem Admission.mem_allowGrants (h : Admission engine store now ctx accesses evaluation)
    (hmem : grant ∈ (grantView engine store now ctx).allowGrants) :
    grant ∈ matchingGrants store now ctx.request ctx.policyToolName ctx.reservation ∧
      grant.decision = .allow ∧
      applyGrantConstraints engine store now ctx.request grant ctx.toolDef ctx.policyToolName
        ctx.reservation = none := by
  have hallow : (grantView engine store now ctx).allowGrants =
      allowGrantsOf (isOfficialSearchRequest engine ctx.request)
        (grantView engine store now ctx).decision := rfl
  cases hdecision : (grantView engine store now ctx).decision with
  | none => simp [hallow, hdecision, allowGrantsOf] at hmem
  | some decision =>
      cases decision with
      | deny denyGrant => exact absurd hdecision (h.notDenied denyGrant)
      | constrained constrained constraintsError =>
          have hofficial := h.notConstrained constrained constraintsError hdecision
          have hofficial' : isOfficialSearchRequest engine ctx.request = true := hofficial
          simp [hallow, hdecision, allowGrantsOf, hofficial'] at hmem
      | allow head allowGrants =>
          have hresolve : resolveGrantDecision engine store now ctx.request ctx.toolDef
              ctx.policyToolName ctx.reservation = some (.allow head allowGrants) :=
            (Option.filter_eq_some_iff.mp hdecision).1
          obtain ⟨happlicable, _⟩ := resolveGrantDecision_eq_allow _ _ _ _ _ _ _ hresolve
          rw [hallow, hdecision, allowGrantsOf, happlicable, mem_applicableGrants] at hmem
          exact hmem

/-! ## A small install

An engine over a small disk with a few tools of the default registry and an
otherwise empty configuration.  The concrete runs of the development take place
on it. -/

mutual

/-- The text of a JSON value, for keys in order and texts without escapes. -/
def JsonValue.render : JsonValue → String
  | .null => "null"
  | .bool value => toString value
  | .number text => text
  | .string value => "\"" ++ value ++ "\""
  | .array items => "[" ++ renderItems items ++ "]"
  | .object fields => "\x7b" ++ renderFields fields ++ "\x7d"

def renderItems : List JsonValue → String
  | [] => ""
  | [item] => item.render
  | item :: items => item.render ++ "," ++ renderItems items

def renderFields : List (String × JsonValue) → String
  | [] => ""
  | [(key, value)] => "\"" ++ key ++ "\":" ++ value.render
  | (key, value) :: fields => "\"" ++ key ++ "\":" ++ value.render ++ "," ++ renderFields fields

end

theorem plainNames_nil : ∀ name ∈ ([] : List String), PlainName name :=
  fun _ h => absurd h List.not_mem_nil

/-- `/work` is the write jail; `/data/notes.txt` and `/out` lie outside it. -/
def smallHost : Host where
  tree := .dir
    [("work", .dir [("draft.txt", .file)]), ("data", .dir [("notes.txt", .file)]),
      ("out", .dir [])]
  cwd := []
  linkLimit := 40
  lstatThrowsNotDir := true
  rootIsDir := rfl
  cwdPlain := plainNames_nil

/-- Some tools of the default registry. -/
def smallRegistry : List ToolDefinition :=
  [{ name := "time.now", riskLevel := .safe, requiresApproval := false },
    { name := "gmail.read", riskLevel := .caution, requiresApproval := false },
    { name := "fs.read", riskLevel := .caution, requiresApproval := false,
      requiredArgs := ["path"] },
    { name := "fs.list", riskLevel := .safe, requiresApproval := false },
    { name := "fs.copy", riskLevel := .caution, requiresApproval := false },
    { name := "fs.write", riskLevel := .danger, requiresApproval := true }]

theorem smallRegistry_named (name : String) (toolDef : ToolDefinition)
    (h : smallRegistry.find? (fun tool => tool.name = name) = some toolDef) :
    toolDef.name = name := by
  simpa using List.find?_some h

def smallSandbox : SandboxConfig where
  writeJailRoots := ["/work"]
  readOnlyRoots := []
  readAccessMode := some .rootsOnly
  requireApprovalForRiskyShell := true
  operatorWriteRoots := []
  runtimeWriteProtection := none
  outsideRootWriteMode := none

def smallInstall : Engine where
  config := { tools := {}, agents := [], sandbox := smallSandbox }
  registry := ⟨fun name => smallRegistry.find? fun tool => tool.name = name, smallRegistry_named⟩
  toolGroups := []
  pluginToolGroupHolds := []
  holdsUnavailable := false
  host := smallHost
  homeDir := "/home/operator"
  stableStringify := JsonValue.render
  toLowerCase := fun text => String.ofList (text.toList.map Char.toLower)
  jsonStringify := fun value => (value.map JsonValue.render).getD "undefined"
  classifyShellRisk := fun _ => none
  classifyArgumentRisk := fun _ _ => none
  isOfficialResearchSearchInvocation := fun _ => false
  officialSearchHosts := fun _ => []
  extractGrantHostCandidates := fun _ _ _ => .ok []
  matchesHostAllowlist := fun host allowed => allowed.contains host
  networkError := fun _ _ _ => none
  outsideRootWriteEligible := fun sessionId _ => sessionId ≠ ""
  resolveDocumentOutputPath := fun _ => none
  resolvePresentationOutputPath := fun _ => none

def emptyStore : Store where
  dialect := .sqlite
  grants := []
  decisions := []
  pendingActions := fun _ => none
  approvals := fun _ => none
  registrations := fun _ => none
  listWards := fun _ => []
  sessionWorkspace := fun _ => none

end GoatCitadel.Policy
