import GoatCitadel.Policy.Evaluation

/-!
# Hard gates

No source of permission lifts a hard gate: an allowed request has passed every
deny pattern, deny grant, deny ward, switched-off group and profile ceiling
under each of its names, and a request that runs without an approval has met
none of the conditions that always ask.

The outcome of an evaluation is ordered from blocked to allowed.  More deny
patterns of the install or of an agent, one more deny grant, and one more deny
or require-approval ward never raise it.  More deny patterns of the permission
profile do not raise it either, unless they turn the exact built-in heartbeat
profile into another one: the engine refuses to ask only for that record.
-/

namespace GoatCitadel.Policy

open GoatCitadel.Support
open GoatCitadel.Sandbox

/-! ## What the gates promise -/

/-- The gates that an allowed request has passed. -/
structure HardGatesPassed (store : Store) (now : Nat) (ctx : AccessContext) : Prop where
  noDenyPattern : ∀ name ∈ ctx.toolNames, ∀ pattern ∈ ctx.policy.denySet,
    matchesToolPattern pattern name = false
  noDenyGrant : ∀ grant ∈ store.grants, grant.decision = .deny → grant.active now = true →
    (grant.scope, grant.scopeRef) ∈ buildScopeCandidates ctx.request →
    ∀ name ∈ ctx.toolNames, matchesToolPattern grant.toolPattern name = false
  noDenyWard : ∀ citadelId, ctx.request.citadelId = some citadelId → citadelId ≠ "" →
    ∀ ward ∈ store.listWards citadelId, ward.effect = .deny →
      ward.matches ctx.toolNames = false
  switchedOn : ctx.ownDelivery = false →
    ∀ name ∈ ctx.toolNames, name ∉ ctx.policy.switchedOffTools
  ceiling : ∀ profile, ctx.request.permissionProfile = some profile →
    profile.status = .active ∧
      ∃ name ∈ ctx.toolNames, ∃ pattern ∈ profile.toolPatterns,
        matchesToolPattern pattern name = true

/-- None of the conditions that always ask the operator is met. -/
structure NothingAsks (engine : Engine) (store : Store) (now : Nat) (ctx : AccessContext) :
    Prop where
  noApprovalWard : ∀ citadelId, ctx.request.citadelId = some citadelId → citadelId ≠ "" →
    ∀ ward ∈ store.listWards citadelId, ward.effect = .requireApproval →
      ward.matches ctx.toolNames = false
  notNuclear : ctx.riskLevel ≠ .nuclear
  shellCalm : evaluateShellRisk engine ctx.request = none
  argumentCalm : evaluateArgumentRisk engine ctx.request = none
  readsInside : ∃ accesses, readAccesses engine ctx.request = .ok accesses ∧
    requiresApprovalForOutsideRootsRead engine ctx.policy.readAccessMode
      (approvalBypassId engine store now ctx).isSome
      (grantView engine store now ctx).allowGrants accesses = false
  writesInside : ∀ outsidePaths targets,
    (grantView engine store now ctx).outsideRootWrite ≠
      .requiresApproval outsidePaths targets
  notCodeMode : ctx.request.toolName ≠ codeModeRequestToolName

/-! ## The surface -/

variable {engine : Engine} {store : Store} {ctx : AccessContext} {now : Nat}
  {accesses : List ReadPathAccessDecision} {evaluation : AccessEvaluation}

/-- The surface is open exactly when each of its gates is. -/
theorem surfaceDenial_eq_none :
    surfaceDenial engine ctx = none ↔
      (ctx.toolNames.any fun name => matchesAnyToolPattern ctx.policy.denySet name) = false ∧
        ((if ctx.ownDelivery then [] else ctx.toolNames).find?
          (ctx.policy.switchedOffTools.contains ·)) = none ∧
        ctx.toolDef.isNone = false ∧
        withinProfile ctx.request.permissionProfile ctx.toolNames = true := by
  unfold surfaceDenial
  split
  · next hdeny =>
      refine ⟨nofun, fun h => ?_⟩
      rw [h.1] at hdeny
      cases hdeny
  next hdeny =>
  split
  · next name hname =>
      refine ⟨nofun, fun h => ?_⟩
      rw [h.2.1] at hname
      cases hname
  next hname =>
  split
  · next htool =>
      refine ⟨nofun, fun h => ?_⟩
      rw [h.2.2.1] at htool
      cases htool
  next htool =>
  have hopen : withinProfile ctx.request.permissionProfile ctx.toolNames = true →
      (ctx.request.permissionProfile.any fun profile => profile.status ≠ .active) = false := by
    intro hceiling
    cases hprofile : ctx.request.permissionProfile with
    | none => rfl
    | some profile =>
        rw [hprofile, withinProfile, Option.all_some, Bool.and_eq_true,
          decide_eq_true_eq] at hceiling
        simp [hceiling.1]
  split
  · next hstatus =>
      refine ⟨nofun, fun h => ?_⟩
      rw [hopen h.2.2.2] at hstatus
      cases hstatus
  · split
    · next hceiling =>
        refine ⟨nofun, fun h => ?_⟩
        rw [h.2.2.2] at hceiling
        cases hceiling
    · next hceiling =>
        rw [Bool.not_eq_true] at hdeny htool
        refine ⟨fun _ => ⟨hdeny, hname, htool, ?_⟩, fun _ => rfl⟩
        simpa using hceiling

theorem citadelWardEffect_eq_some {citadelId : String}
    (hcitadel : ctx.request.citadelId = some citadelId) (hne : citadelId ≠ "") :
    citadelWardEffect store ctx =
      some (evaluateWardsForActions (store.listWards citadelId) ctx.toolNames) := by
  simp [citadelWardEffect, hcitadel, nonEmpty, hne]

/-- A ward that speaks about the request is not silent among its fellows. -/
theorem wardSpeaks_of_mem {wards : List CitadelWard} {actions : List String}
    {ward : CitadelWard} (hmem : ward ∈ wards) (hmatches : ward.matches actions = true) :
    wardSpeaks wards actions ward.effect = true :=
  List.any_eq_true.mpr ⟨ward, hmem, by simp [hmatches]⟩

theorem grantNamesTool_of_mem {grant : ToolGrantRecord} {name : String}
    (hname : name ∈ ctx.toolNames) (hmatch : matchesToolPattern grant.toolPattern name = true) :
    grantNamesTool ctx.request ctx.policyToolName grant = true := by
  rw [AccessContext.toolNames, List.mem_cons] at hname
  obtain rfl | hpolicy := hname
  · simp [grantNamesTool, hmatch]
  · rw [Option.mem_toList] at hpolicy
    simp [grantNamesTool, Option.mem_def.mp hpolicy, hmatch]

/-- No matching grant of the store denies an admitted request. -/
theorem Admission.no_deny (h : Admission engine store now ctx accesses evaluation) :
    ∀ grant ∈ matchingGrants store now ctx.request ctx.policyToolName ctx.reservation,
      grant.decision ≠ .deny := by
  apply no_deny_of_resolveGrantDecision engine store now ctx.request ctx.toolDef
  intro grant hdeny
  apply h.notDenied grant
  simp [grantView, grantDecisionFor, hdeny, GrantDecision.allowGrant?]

theorem hardGatesPassed_of_admission (h : Admission engine store now ctx accesses evaluation) :
    HardGatesPassed store now ctx := by
  obtain ⟨hdeny, hswitched, -, hceiling⟩ := surfaceDenial_eq_none.mp h.surface
  refine ⟨?_, ?_, ?_, ?_, ?_⟩
  · intro name hname pattern hpattern
    have hany := List.any_eq_false.mp hdeny name hname
    rw [matchesAnyToolPattern, List.any_eq_true, not_exists] at hany
    simpa [hpattern] using hany pattern
  · intro grant hmem hdecision hactive hscope name hname
    by_contra hmatch
    rw [Bool.not_eq_false] at hmatch
    have hmatching : grant ∈ matchingGrants store now ctx.request ctx.policyToolName none :=
      mem_matchingGrants_none.mpr
        ⟨hmem, hactive, hscope, grantNamesTool_of_mem hname hmatch⟩
    exact h.no_deny grant (mem_matchingGrants_of_store hmatching) hdecision
  · intro citadelId hcitadel hne ward hmem heffect
    by_contra hmatches
    rw [Bool.not_eq_false] at hmatches
    have hspeaks := wardSpeaks_of_mem hmem hmatches
    rw [heffect] at hspeaks
    apply h.ward
    rw [citadelWardEffect_eq_some hcitadel hne,
      (evaluateWardsForActions_eq_deny _ _).mpr hspeaks]
  · intro hown name hname hoff
    rw [hown] at hswitched
    have := List.find?_eq_none.mp hswitched name hname
    simp [hoff] at this
  · intro profile hprofile
    rw [hprofile, withinProfile, Option.all_some, Bool.and_eq_true, decide_eq_true_eq] at hceiling
    refine ⟨hceiling.1, ?_⟩
    obtain ⟨name, hname, hmatch⟩ := List.any_eq_true.mp hceiling.2
    obtain ⟨pattern, hpattern, hmatches⟩ := List.any_eq_true.mp hmatch
    exact ⟨name, hname, pattern, hpattern, hmatches⟩

/-- A flag that is down was not raised by anything that always asks. -/
theorem Escalation.calm_of_not_requiresApproval {e : Escalation}
    (h : e.requiresApproval = false) :
    e.hardAsk = false ∧ e.codeModeRequest = false := by
  constructor
  · by_contra hask
    rw [Bool.not_eq_false] at hask
    rw [e.requiresApproval_of_ask (Or.inl hask)] at h
    cases h
  · by_contra hcode
    rw [Bool.not_eq_false] at hcode
    rw [e.requiresApproval_of_ask (Or.inr (Or.inr hcode))] at h
    cases h

theorem nothingAsks_of_admission (h : Admission engine store now ctx accesses evaluation)
    (hflag : evaluation.requiresApproval = false) : NothingAsks engine store now ctx := by
  rw [h.requiresApproval] at hflag
  obtain ⟨hhard, hcode⟩ := Escalation.calm_of_not_requiresApproval hflag
  simp only [Escalation.hardAsk, Bool.or_eq_false_iff, decide_eq_false_iff_not] at hhard
  obtain ⟨⟨⟨⟨⟨hward, hnuclear⟩, hshell⟩, hargument⟩, hread⟩, hwrite⟩ := hhard
  refine ⟨?_, hnuclear, by simpa [escalationOf] using hshell,
    by simpa [escalationOf] using hargument, ⟨accesses, h.readable, hread⟩, ?_,
    by simpa [escalationOf] using hcode⟩
  · intro citadelId hcitadel hne ward hmem heffect
    by_contra hmatches
    rw [Bool.not_eq_false] at hmatches
    have hspeaks := wardSpeaks_of_mem hmem hmatches
    rw [heffect] at hspeaks
    have hnotDeny : wardSpeaks (store.listWards citadelId) ctx.toolNames .deny = false := by
      by_contra hdeny
      rw [Bool.not_eq_false] at hdeny
      apply h.ward
      rw [citadelWardEffect_eq_some hcitadel hne,
        (evaluateWardsForActions_eq_deny _ _).mpr hdeny]
    have heffective : citadelWardEffect store ctx = some .requireApproval := by
      rw [citadelWardEffect_eq_some hcitadel hne,
        (evaluateWardsForActions_eq_requireApproval _ _).mpr ⟨hnotDeny, hspeaks⟩]
    simp [escalationOf, heffective] at hward
  · intro outsidePaths targets heq
    simp [escalationOf, heq] at hwrite

/-! ## Outcomes -/

inductive Outcome
  | blocked
  | approval
  | allowed

def Outcome.rank : Outcome → Nat
  | .blocked => 0
  | .approval => 1
  | .allowed => 2

/-- The outcome of an evaluation; one that throws lets nothing through. -/
def outcome : Except String AccessEvaluation → Outcome
  | .error _ => .blocked
  | .ok evaluation =>
      if evaluation.allowed then if evaluation.requiresApproval then .approval else .allowed
      else .blocked

/-- Nothing is raised when every request let through is let through before,
with no more asked of it. -/
theorem outcome_rank_le {result result' : Except String AccessEvaluation}
    (h : ∀ evaluation', result' = .ok evaluation' → evaluation'.allowed = true →
      ∃ evaluation, result = .ok evaluation ∧ evaluation.allowed = true ∧
        (evaluation'.requiresApproval = false → evaluation.requiresApproval = false)) :
    (outcome result').rank ≤ (outcome result).rank := by
  cases result' with
  | error error => exact Nat.zero_le _
  | ok evaluation' =>
      by_cases hallowed' : evaluation'.allowed = true
      · obtain ⟨evaluation, rfl, hallowed, hflag⟩ := h evaluation' rfl hallowed'
        cases hflag' : evaluation'.requiresApproval with
        | false => simp [outcome, hallowed, hallowed', hflag', hflag hflag']
        | true =>
            cases hflag'' : evaluation.requiresApproval <;>
              simp [outcome, hallowed, hallowed', hflag', hflag'', Outcome.rank]
      · simp [outcome, hallowed', Outcome.rank]

/-- The same for two evaluations whose contexts `f` relates. -/
theorem outcome_rank_le_of_admission {engine' : Engine} {store' : Store}
    {input input' : AccessInput} (f : AccessContext → AccessContext)
    (hctx : accessContext engine' now input' = (accessContext engine now input).map f)
    (h : ∀ ctx, accessContext engine now input = .ok ctx →
      ∀ accesses evaluation', Admission engine' store' now (f ctx) accesses evaluation' →
        ∃ evaluation, Admission engine store now ctx accesses evaluation ∧
          (evaluation'.requiresApproval = false → evaluation.requiresApproval = false)) :
    (outcome (evaluateAccessInternal engine' store' now input')).rank ≤
      (outcome (evaluateAccessInternal engine store now input)).rank := by
  simp only [evaluateAccessInternal, hctx]
  cases hcontext : accessContext engine now input with
  | error error => exact Nat.zero_le _
  | ok ctx =>
      apply outcome_rank_le
      intro evaluation' hevaluate hallowed
      obtain ⟨accesses, hadmission'⟩ := admission_of_allowed hevaluate hallowed
      obtain ⟨evaluation, hadmission, hflag⟩ := h ctx hcontext accesses evaluation' hadmission'
      exact ⟨evaluation, evaluateInContext_of_admission hadmission, hadmission.allowed, hflag⟩

/-! ## More deny patterns -/

/-- The tool lists of an agent, empty when it has none. -/
def agentTools (config : ToolPolicyConfig) (agentId : String) : ToolListConfig :=
  (config.agents.lookup agentId).getD {}

theorem agentPatterns_eq {ofTools : ToolListConfig → List String} (hempty : ofTools {} = [])
    (config : ToolPolicyConfig) (agentId : String) :
    ((config.agents.lookup agentId).map ofTools).getD [] =
      ofTools (agentTools config agentId) := by
  cases hlookup : config.agents.lookup agentId <;> simp [agentTools, hlookup, hempty]

theorem agentApprovalMode_eq (config : ToolPolicyConfig) (agentId : String) :
    (config.agents.lookup agentId).bind (·.approvalMode) =
      (agentTools config agentId).approvalMode := by
  cases hlookup : config.agents.lookup agentId <;> simp [agentTools, hlookup]

/-- The tool lists differ by more deny patterns only. -/
structure DenyExtension (lists lists' : ToolListConfig) : Prop where
  approvalMode : lists'.approvalMode = lists.approvalMode
  allow : lists'.allow = lists.allow
  disabledGroups : lists'.disabledGroups = lists.disabledGroups
  deny : lists.deny ⊆ lists'.deny

/-- The configurations differ by more deny patterns only, of the install and
of any number of agents. -/
structure ConfigDenyExtension (config config' : ToolPolicyConfig) : Prop where
  tools : DenyExtension config.tools config'.tools
  agents : ∀ agentId, DenyExtension (agentTools config agentId) (agentTools config' agentId)
  sandbox : config'.sandbox = config.sandbox

/-- The policies differ by more deny patterns and the tools that these remove. -/
structure StricterPolicy (policy policy' : EffectiveToolPolicy) : Prop where
  rest : policy' =
    { policy with denySet := policy'.denySet, effectiveTools := policy'.effectiveTools }
  denySet : policy.denySet ⊆ policy'.denySet
  effectiveTools : ∀ name, matchesAnyToolPattern policy'.effectiveTools name = true →
    matchesAnyToolPattern policy.effectiveTools name = true

/-- What a stricter policy lets through, the policy lets through as well. -/
theorem admission_of_stricterPolicy {policy' : EffectiveToolPolicy} {evaluation' : AccessEvaluation}
    (hstricter : StricterPolicy ctx.policy policy')
    (h : Admission engine store now { ctx with policy := policy' } accesses evaluation') :
    ∃ evaluation, Admission engine store now ctx accesses evaluation ∧
      evaluation.requiresApproval = evaluation'.requiresApproval := by
  have hdeny := hstricter.denySet
  have htools := hstricter.effectiveTools
  rw [hstricter.rest] at h
  -- Behind the surface only the effective tools tell the policies apart.
  have hadmission : Admission engine store now ctx accesses
      (withWard (citadelWardEffect store ctx)
        (concludeAccess engine store now ctx (citadelWardEffect store ctx)
          (grantView engine store now ctx) accesses)) := by
    refine ⟨?_, h.ward, h.notDenied, h.notConstrained, h.structural, h.trusted, ?_, h.readable,
      h.attended, rfl⟩
    · obtain ⟨hnoDeny, hrest⟩ := surfaceDenial_eq_none.mp h.surface
      refine surfaceDenial_eq_none.mpr ⟨?_, hrest⟩
      refine List.any_eq_false.mpr fun name hname hmatch => ?_
      obtain ⟨pattern, hpattern, hmatches⟩ := List.any_eq_true.mp hmatch
      exact List.any_eq_false.mp hnoDeny name hname
        (List.any_eq_true.mpr ⟨pattern, hdeny hpattern, hmatches⟩)
    · obtain havailable | hallow := h.available
      · obtain ⟨name, hname, hmatch⟩ := List.any_eq_true.mp havailable
        exact Or.inl (List.any_eq_true.mpr ⟨name, hname, htools name hmatch⟩)
      · exact Or.inr hallow
  refine ⟨_, hadmission, ?_⟩
  rw [hadmission.requiresApproval, h.requiresApproval]
  rfl

theorem joinedPatterns_subset {config config' : ToolPolicyConfig} {agentId : String}
    {profile profile' : Option PermissionProfileRecord}
    {ofTools : ToolListConfig → List String}
    {ofProfile : PermissionProfileRecord → List String} (hempty : ofTools {} = [])
    (htools : ofTools config.tools ⊆ ofTools config'.tools)
    (hagents : ofTools (agentTools config agentId) ⊆ ofTools (agentTools config' agentId))
    (hprofile : ((activeProfile profile).map ofProfile).getD [] ⊆
      ((activeProfile profile').map ofProfile).getD []) :
    joinedPatterns config agentId profile ofTools ofProfile ⊆
      joinedPatterns config' agentId profile' ofTools ofProfile := by
  simp only [joinedPatterns, agentPatterns_eq hempty]
  exact List.append_subset.mpr
    ⟨List.append_subset.mpr
      ⟨fun _ h => by simp [htools h], fun _ h => by simp [hagents h]⟩,
      fun _ h => List.mem_append_right _ (hprofile h)⟩

theorem stricterPolicy_of_configDenyExtension {config' : ToolPolicyConfig}
    (hext : ConfigDenyExtension engine.config config') (now : Nat) (request : ToolRequest) :
    StricterPolicy (policyFor engine now request)
      (policyFor { engine with config := config' } now request) := by
  have hsubset : (policyFor engine now request).denySet ⊆
      (policyFor { engine with config := config' } now request).denySet :=
    joinedPatterns_subset rfl hext.tools.deny (hext.agents request.agentId).deny
      (List.Subset.refl _)
  refine ⟨?_, hsubset, ?_⟩
  · simp [policyFor, resolveEffectivePolicy, policyConfig, withHeldToolGroups,
      agentApprovalMode_eq, (hext.agents request.agentId).approvalMode,
      hext.tools.approvalMode, hext.tools.disabledGroups, hext.sandbox]
  · intro name hmatch
    have hjoined : joinedPatterns (policyConfig { engine with config := config' })
        request.agentId request.permissionProfile (·.allow) (·.allow) =
        joinedPatterns (policyConfig engine) request.agentId request.permissionProfile
          (·.allow) (·.allow) := by
      simp only [joinedPatterns, policyConfig, withHeldToolGroups,
        agentPatterns_eq (rfl : ToolListConfig.allow {} = []), hext.tools.allow]
      rw [show agentTools _ request.agentId = agentTools config' request.agentId from rfl,
        (hext.agents request.agentId).allow]
    simp only [policyFor, resolveEffectivePolicy, hjoined] at hmatch ⊢
    exact matchesAny_removeDenied_of_le (fun _ h => hsubset h) hmatch

/-- More deny patterns of the install or of an agent never raise the outcome. -/
theorem outcome_rank_le_of_configDenyExtension {config' : ToolPolicyConfig}
    (hext : ConfigDenyExtension engine.config config') (store : Store) (now : Nat)
    (input : AccessInput) :
    (outcome (evaluateAccessInternal { engine with config := config' } store now input)).rank ≤
      (outcome (evaluateAccessInternal engine store now input)).rank := by
  obtain ⟨tools', agents', sandbox'⟩ := config'
  obtain rfl : sandbox' = engine.config.sandbox := hext.sandbox
  set engine' : Engine :=
    { engine with config := ⟨tools', agents', engine.config.sandbox⟩ } with hengine
  apply outcome_rank_le_of_admission
    (fun ctx => { ctx with policy := policyFor engine' now ctx.request })
  · have hinvocation : invocationPolicyFor engine' input = invocationPolicyFor engine input := rfl
    simp only [accessContext, hinvocation]
    cases invocationPolicyFor engine input <;> rfl
  · intro ctx hcontext accesses evaluation' hadmission'
    obtain ⟨-, -, -, hpolicy⟩ := accessContext_eq_ok hcontext
    have hstricter : StricterPolicy ctx.policy (policyFor engine' now ctx.request) := by
      rw [hpolicy]
      exact stricterPolicy_of_configDenyExtension hext now ctx.request
    -- The engines differ in the tool lists alone, which nothing behind the context reads.
    have hsame : Admission engine store now
        { ctx with policy := policyFor engine' now ctx.request } accesses evaluation' :=
      { hadmission' with
        surface := surfaceDenial_eq_none.mpr (surfaceDenial_eq_none.mp hadmission'.surface) }
    obtain ⟨evaluation, hadmission, hflag⟩ := admission_of_stricterPolicy hstricter hsame
    exact ⟨evaluation, hadmission, fun h => by rw [hflag, h]⟩

/-! ## More deny patterns of the profile -/

def PermissionProfileRecord.withDeny (profile : PermissionProfileRecord)
    (deny : List String) : PermissionProfileRecord :=
  { profile with deny := deny }

def ToolPolicyActorContext.withProfileDeny (context : ToolPolicyActorContext)
    (deny : List String) : ToolPolicyActorContext :=
  { context with
    permissionProfile := context.permissionProfile.map (·.withDeny deny) }

/-- The request with other deny patterns in its permission profile. -/
def ToolRequest.withProfileDeny (request : ToolRequest) (deny : List String) : ToolRequest :=
  { request with
    policyContext := request.policyContext.map fun context => context.withProfileDeny deny }

def AccessInput.withProfileDeny (input : AccessInput) (deny : List String) : AccessInput :=
  { input with request := input.request.withProfileDeny deny }

/-- What does not read the deny patterns of the profile does not change. -/
theorem withProfileDeny_congr {α : Type} (f : ToolRequest → α) (deny : List String)
    (h : ∀ (request : ToolRequest) (context : ToolPolicyActorContext),
      f { request with policyContext := some (context.withProfileDeny deny) } =
        f { request with policyContext := some context })
    (request : ToolRequest) : f (request.withProfileDeny deny) = f request := by
  have key : ∀ context : Option ToolPolicyActorContext,
      f { request with policyContext := context.map (·.withProfileDeny deny) } =
        f { request with policyContext := context } := by
    intro context
    cases context with
    | none => rfl
    | some context => exact h request context
  exact key request.policyContext

theorem withProfileDeny_permissionProfile (request : ToolRequest) (deny : List String) :
    (request.withProfileDeny deny).permissionProfile =
      request.permissionProfile.map (·.withDeny deny) := by
  have key : ∀ context : Option ToolPolicyActorContext,
      ((context.map (·.withProfileDeny deny)).bind (·.permissionProfile)) =
        (context.bind (·.permissionProfile)).map (·.withDeny deny) := by
    intro context
    cases context <;> rfl
  exact key request.policyContext

theorem invocationPolicyOf_withProfileDeny (engine : Engine) (request : ToolRequest)
    (deny : List String) (binding meshBinding mappedTarget : Option MappedTarget)
    (mcpApprovalRelief : Bool) :
    invocationPolicyOf engine (request.withProfileDeny deny) binding meshBinding mappedTarget
        mcpApprovalRelief =
      { invocationPolicyOf engine request binding meshBinding mappedTarget mcpApprovalRelief with
        evaluationRequest := (invocationPolicyOf engine request binding meshBinding mappedTarget
          mcpApprovalRelief).evaluationRequest.withProfileDeny deny } := by
  cases mappedTarget <;> rfl

theorem resolveInvocationPolicy_withProfileDeny (engine : Engine) (request : ToolRequest)
    (options : ToolPolicyEvaluateOptions) (deny : List String) :
    resolveInvocationPolicy engine (request.withProfileDeny deny) options =
      (resolveInvocationPolicy engine request options).map fun identity =>
        { identity with
          evaluationRequest := identity.evaluationRequest.withProfileDeny deny } := by
  have hwrapper : readMcpPolicyTargetFromWrapper (request.withProfileDeny deny) =
      readMcpPolicyTargetFromWrapper request := rfl
  have hname : (request.withProfileDeny deny).toolName = request.toolName := rfl
  simp only [resolveInvocationPolicy, invocationPolicyOf_withProfileDeny, hwrapper, hname, bind,
    Except.bind, pure, Except.pure, throw, throwThe, MonadExceptOf.throw]
  repeat' split
  all_goals rfl

theorem stricterPolicy_withProfileDeny {request : ToolRequest} {deny : List String}
    (hdeny : ∀ profile, request.permissionProfile = some profile → profile.deny ⊆ deny)
    (now : Nat) :
    StricterPolicy (policyFor engine now request)
      (policyFor engine now (request.withProfileDeny deny)) := by
  have hoverride : (request.withProfileDeny deny).localOperatorOverride =
      request.localOperatorOverride :=
    withProfileDeny_congr (·.localOperatorOverride) deny (fun _ _ => rfl) request
  have hactive : activeProfile (request.withProfileDeny deny).permissionProfile =
      (activeProfile request.permissionProfile).map (·.withDeny deny) := by
    rw [withProfileDeny_permissionProfile]
    cases request.permissionProfile with
    | none => rfl
    | some profile =>
        by_cases hstatus : profile.status = .active <;>
          simp [activeProfile, Option.filter_some, PermissionProfileRecord.withDeny, hstatus]
  have hsubset : (policyFor engine now request).denySet ⊆
      (policyFor engine now (request.withProfileDeny deny)).denySet := by
    apply joinedPatterns_subset rfl (List.Subset.refl _) (List.Subset.refl _)
    rw [hactive]
    cases hprofile : activeProfile request.permissionProfile with
    | none => simp
    | some profile =>
        simpa [PermissionProfileRecord.withDeny] using
          hdeny profile (Option.filter_eq_some_iff.mp hprofile).1
  refine ⟨?_, hsubset, ?_⟩
  · simp only [policyFor, resolveEffectivePolicy, hactive, hoverride]
    cases activeProfile request.permissionProfile <;> rfl
  · intro name hmatch
    refine matchesAny_removeDenied_of_le (fun _ h => hsubset h) ?_
    have hagent : (request.withProfileDeny deny).agentId = request.agentId := rfl
    simp only [policyFor, resolveEffectivePolicy, hactive, hoverride, hagent,
      joinedPatterns] at hmatch ⊢
    cases hprofile : activeProfile request.permissionProfile <;>
      simpa [hprofile, PermissionProfileRecord.withDeny] using hmatch

/-- Away from the built-in heartbeat profile, nothing behind the policy reads
the deny patterns of the profile. -/
theorem admission_of_withProfileDeny {engine : Engine} {store : Store} {now : Nat}
    {ctx : AccessContext} {deny : List String} {accesses : List ReadPathAccessDecision}
    {evaluation' : AccessEvaluation}
    (hexact : isExactBuiltInHeartbeatProfile ctx.request = false)
    (h : Admission engine store now
      { ctx with request := ctx.request.withProfileDeny deny } accesses evaluation') :
    ∃ evaluation, Admission engine store now ctx accesses evaluation ∧
      evaluation.requiresApproval = evaluation'.requiresApproval := by
  have hview : grantView engine store now
      { ctx with request := ctx.request.withProfileDeny deny } = grantView engine store now ctx :=
    withProfileDeny_congr
      (fun request => grantView engine store now { ctx with request := request })
      deny (fun _ _ => rfl) ctx.request
  have hbypass : approvalBypassId engine store now
      { ctx with request := ctx.request.withProfileDeny deny } =
        approvalBypassId engine store now ctx :=
    withProfileDeny_congr
      (fun request => approvalBypassId engine store now { ctx with request := request }) deny
      (fun _ _ => rfl) ctx.request
  have hescalation : escalationOf engine store now
      { ctx with request := ctx.request.withProfileDeny deny } (citadelWardEffect store ctx)
        (grantView engine store now ctx) accesses =
      escalationOf engine store now ctx (citadelWardEffect store ctx)
        (grantView engine store now ctx) accesses :=
    withProfileDeny_congr
      (fun request => escalationOf engine store now { ctx with request := request }
        (citadelWardEffect store ctx) (grantView engine store now ctx) accesses) deny
      (fun _ _ => rfl) ctx.request
  have hwithin : withinProfile (ctx.request.withProfileDeny deny).permissionProfile
      ctx.toolNames = withinProfile ctx.request.permissionProfile ctx.toolNames := by
    rw [withProfileDeny_permissionProfile]
    cases ctx.request.permissionProfile <;> rfl
  have hstructural := h.structural
  have hrequires := h.requiresApproval
  have hnotDenied := h.notDenied
  have hnotConstrained := h.notConstrained
  have havailable := h.available
  rw [hview] at hnotDenied hnotConstrained havailable hstructural hrequires
  rw [hbypass] at hstructural
  have hadmission : Admission engine store now ctx accesses
      (withWard (citadelWardEffect store ctx)
        (concludeAccess engine store now ctx (citadelWardEffect store ctx)
          (grantView engine store now ctx) accesses)) := by
    refine ⟨?_, h.ward, hnotDenied, hnotConstrained, ?_, h.trusted, havailable, h.readable,
      by rw [hexact, Bool.and_false], rfl⟩
    · obtain ⟨hnoDeny, hswitched, htool, hceiling⟩ := surfaceDenial_eq_none.mp h.surface
      exact surfaceDenial_eq_none.mpr ⟨hnoDeny, hswitched, htool, hwithin ▸ hceiling⟩
    · rw [← hstructural]
      exact (withProfileDeny_congr
        (fun request => validateStructuralSafety engine request ctx.policy.readAccessMode
          (approvalBypassId engine store now ctx).isSome
          (grantView engine store now ctx).allowGrants
          (grantView engine store now ctx).outsideRootWrite) deny (fun _ _ => rfl)
        ctx.request).symm
  refine ⟨_, hadmission, ?_⟩
  rw [hadmission.requiresApproval, hrequires]
  exact congrArg Escalation.requiresApproval hescalation.symm

/-- More deny patterns of the permission profile never raise the outcome,
unless the profile is the exact built-in heartbeat profile. -/
theorem outcome_rank_le_withProfileDeny {input : AccessInput} {deny : List String}
    (hdeny : ∀ profile, input.request.permissionProfile = some profile → profile.deny ⊆ deny)
    (hexact : isExactBuiltInHeartbeatProfile input.request = false) (store : Store) (now : Nat) :
    (outcome (evaluateAccessInternal engine store now (input.withProfileDeny deny))).rank ≤
      (outcome (evaluateAccessInternal engine store now input)).rank := by
  apply outcome_rank_le_of_admission fun ctx =>
    { ctx with
      request := ctx.request.withProfileDeny deny
      policy := policyFor engine now (ctx.request.withProfileDeny deny) }
  · have hinvocation : invocationPolicyFor engine (input.withProfileDeny deny) =
        (invocationPolicyFor engine input).map fun identity =>
          { identity with
            evaluationRequest := identity.evaluationRequest.withProfileDeny deny } := by
      have hsame : (input.withProfileDeny deny).nativeInstallation = input.nativeInstallation :=
        rfl
      unfold invocationPolicyFor
      by_cases hnative : input.nativeInstallation = true
      · rw [if_pos hnative, if_pos (hsame ▸ hnative)]
        rfl
      · rw [if_neg hnative, if_neg (hsame ▸ hnative)]
        exact resolveInvocationPolicy_withProfileDeny engine input.request input.options deny
    simp only [accessContext, hinvocation]
    cases invocationPolicyFor engine input <;> rfl
  · intro ctx hcontext accesses evaluation' hadmission'
    obtain ⟨identity, hinvocation, hrequest, hpolicy⟩ := accessContext_eq_ok hcontext
    have hcontext' : ctx.request.policyContext = input.request.policyContext := by
      obtain ⟨toolName, args, hsame⟩ := invocationPolicyFor_evaluationRequest hinvocation
      rw [hrequest, hsame]
    have hprofile : ctx.request.permissionProfile = input.request.permissionProfile := by
      simp only [ToolRequest.permissionProfile, hcontext']
    have hexact' : isExactBuiltInHeartbeatProfile ctx.request = false := by
      rw [← hexact]
      simp only [isExactBuiltInHeartbeatProfile, hprofile, hcontext']
    obtain ⟨middle, hmiddle, hflag⟩ := @admission_of_withProfileDeny engine store now
      { ctx with policy := policyFor engine now (ctx.request.withProfileDeny deny) }
      deny accesses evaluation' hexact' hadmission'
    have hstricter : StricterPolicy ctx.policy
        (policyFor engine now (ctx.request.withProfileDeny deny)) := by
      rw [hpolicy]
      exact stricterPolicy_withProfileDeny (by rw [hprofile]; exact hdeny) now
    obtain ⟨evaluation, hadmission, hflag'⟩ := admission_of_stricterPolicy hstricter hmiddle
    exact ⟨evaluation, hadmission, fun h => by rw [hflag', hflag, h]⟩

/-! ## One more deny grant -/

/-- A grant that does not match the request leaves the matching grants alone. -/
theorem matchingGrants_insert {request : ToolRequest} {policyToolName : Option String}
    {reservation : Option NativeExecutionReservation} {before after : List ToolGrantRecord}
    {grant : ToolGrantRecord} (hstore : store.grants = before ++ after)
    (h : grant ∉ matchingGrants { store with grants := before ++ grant :: after } now request
      policyToolName none) :
    matchingGrants { store with grants := before ++ grant :: after } now request policyToolName
        reservation =
      matchingGrants store now request policyToolName reservation := by
  have hscoped : ∀ candidate ∈ buildScopeCandidates request,
      scopedGrants { store with grants := before ++ grant :: after } now request policyToolName
          reservation candidate =
        scopedGrants store now request policyToolName reservation candidate := by
    intro candidate hcandidate
    have hout : ¬((grant.active now && grant.scope = candidate.1 &&
        (candidate.2 = "" || grant.scopeRef = candidate.2)) = true ∧
          (grant.scope = candidate.1 && grant.scopeRef = candidate.2 &&
            grantNamesTool request policyToolName grant) = true) := by
      rintro ⟨hlisted, hnamed⟩
      simp only [Bool.and_eq_true, decide_eq_true_eq] at hlisted hnamed
      apply h
      refine mem_matchingGrants_none.mpr ⟨by simp, hlisted.1.1, ?_, hnamed.2⟩
      rw [hnamed.1.1, hnamed.1.2]
      exact hcandidate
    simp only [scopedGrants, listActive, hstore, List.filter_append, List.filter_cons]
    by_cases hlisted : (grant.active now && grant.scope = candidate.1 &&
        (candidate.2 = "" || grant.scopeRef = candidate.2)) = true
    · have hnamed := fun hnamed => hout ⟨hlisted, hnamed⟩
      simp only [if_pos hlisted, List.filter_cons, if_neg hnamed]
    · simp only [if_neg hlisted]
  simp only [matchingGrants, List.flatMap]
  rw [List.map_congr_left hscoped]

/-- One more deny grant never raises the outcome. -/
theorem outcome_rank_le_of_denyGrant {before after : List ToolGrantRecord} {grant : ToolGrantRecord}
    (hstore : store.grants = before ++ after) (hdeny : grant.decision = .deny) (now : Nat)
    (input : AccessInput) :
    (outcome (evaluateAccessInternal engine
        { store with grants := before ++ grant :: after } now input)).rank ≤
      (outcome (evaluateAccessInternal engine store now input)).rank := by
  apply outcome_rank_le_of_admission id
  · cases accessContext engine now input <;> rfl
  · intro ctx _ accesses evaluation' hadmission'
    have hout : grant ∉ matchingGrants { store with grants := before ++ grant :: after } now
        ctx.request ctx.policyToolName none := fun hmem =>
      hadmission'.no_deny grant (mem_matchingGrants_of_store hmem) hdeny
    have hmatching : matchingGrants { store with grants := before ++ grant :: after } now
        ctx.request ctx.policyToolName ctx.reservation =
          matchingGrants store now ctx.request ctx.policyToolName ctx.reservation :=
      matchingGrants_insert hstore hout
    have hview : grantView engine { store with grants := before ++ grant :: after } now ctx =
        grantView engine store now ctx := by
      have hdecision : grantDecisionFor engine { store with grants := before ++ grant :: after }
          now ctx = grantDecisionFor engine store now ctx := by
        simp only [grantDecisionFor, resolveGrantDecision, hmatching]
        rfl
      simp only [grantView, hdecision]
      rfl
    have hadmission : Admission engine store now ctx accesses evaluation' := by
      obtain ⟨hsurface, hward, hnotDenied, hnotConstrained, hstructural, htrusted, havailable,
        hreadable, hattended, hconcluded⟩ := hadmission'
      simp only [id_eq] at *
      rw [hview] at hnotDenied hnotConstrained hstructural havailable hattended hconcluded
      exact ⟨hsurface, hward, hnotDenied, hnotConstrained, hstructural, htrusted, havailable,
        hreadable, hattended, hconcluded⟩
    exact ⟨evaluation', hadmission, id⟩

/-! ## One more ward -/

/-- The store with other wards in one Citadel. -/
def Store.withWards (store : Store) (citadelId : String) (wards : List CitadelWard) : Store :=
  { store with
    listWards := fun citadelId' => if citadelId' = citadelId then wards
      else store.listWards citadelId' }

theorem wardSpeaks_insert {before after : List CitadelWard} {ward : CitadelWard}
    {actions : List String} {effect : WardEffect}
    (h : wardSpeaks (before ++ after) actions effect = true) :
    wardSpeaks (before ++ ward :: after) actions effect = true := by
  simp only [wardSpeaks, List.any_append, List.any_cons, Bool.or_eq_true] at h ⊢
  tauto

/-- A deny or require-approval ward changes nothing, denies, or asks where
nothing denied. -/
theorem citadelWardEffect_insert {store : Store} {ctx : AccessContext} {citadelId : String}
    {before after : List CitadelWard} {ward : CitadelWard}
    (hstore : store.listWards citadelId = before ++ after)
    (heffect : ward.effect = .deny ∨ ward.effect = .requireApproval) :
    citadelWardEffect (store.withWards citadelId (before ++ ward :: after)) ctx =
        citadelWardEffect store ctx ∨
      citadelWardEffect (store.withWards citadelId (before ++ ward :: after)) ctx =
        some .deny ∨
      (citadelWardEffect (store.withWards citadelId (before ++ ward :: after)) ctx =
          some .requireApproval ∧
        citadelWardEffect store ctx ≠ some .deny) := by
  cases hcitadel : ctx.request.citadelId.bind nonEmpty with
  | none => simp [citadelWardEffect, hcitadel]
  | some requested =>
      by_cases hsame : requested = citadelId
      · subst hsame
        simp only [citadelWardEffect, hcitadel, Option.map_some, Store.withWards, if_true, hstore]
        by_cases hmatches : ward.matches ctx.toolNames = true
        · have hspeaks : wardSpeaks (before ++ ward :: after) ctx.toolNames ward.effect = true :=
            wardSpeaks_of_mem (by simp) hmatches
          by_cases hdeny : wardSpeaks (before ++ ward :: after) ctx.toolNames .deny = true
          · exact Or.inr (Or.inl
              (congrArg some ((evaluateWardsForActions_eq_deny _ _).mpr hdeny)))
          · obtain heq | heq := heffect
            · rw [heq] at hspeaks
              exact absurd hspeaks hdeny
            · rw [heq] at hspeaks
              refine Or.inr (Or.inr ⟨congrArg some
                ((evaluateWardsForActions_eq_requireApproval _ _).mpr
                  ⟨by simpa using hdeny, hspeaks⟩), ?_⟩)
              intro hdenied
              exact hdeny (wardSpeaks_insert
                ((evaluateWardsForActions_eq_deny _ _).mp (Option.some.inj hdenied)))
        · rw [Bool.not_eq_true] at hmatches
          exact Or.inl (congrArg some (evaluateWardsForActions_insert hmatches))
      · left
        simp [citadelWardEffect, hcitadel, Store.withWards, hsame]

/-- One more deny or require-approval ward never raises the outcome. -/
theorem outcome_rank_le_of_ward {citadelId : String} {before after : List CitadelWard}
    {ward : CitadelWard} (hstore : store.listWards citadelId = before ++ after)
    (heffect : ward.effect = .deny ∨ ward.effect = .requireApproval) (now : Nat)
    (input : AccessInput) :
    (outcome (evaluateAccessInternal engine
        (store.withWards citadelId (before ++ ward :: after)) now input)).rank ≤
      (outcome (evaluateAccessInternal engine store now input)).rank := by
  apply outcome_rank_le_of_admission id
  · cases accessContext engine now input <;> rfl
  · intro ctx _ accesses evaluation' hadmission'
    have hflag' := hadmission'.requiresApproval
    obtain ⟨hsurface, hward, hnotDenied, hnotConstrained, hstructural, htrusted, havailable,
      hreadable, hattended, hconcluded⟩ := hadmission'
    simp only [id_eq] at *
    obtain hsame | hdeny | ⟨hask, hnotDeny⟩ :=
      @citadelWardEffect_insert store ctx citadelId before after ward hstore heffect
    · rw [hsame] at hattended hconcluded
      exact ⟨evaluation', ⟨hsurface, hsame ▸ hward, hnotDenied, hnotConstrained, hstructural,
        htrusted, havailable, hreadable, hattended, hconcluded⟩, fun h => h⟩
    · exact absurd hdeny hward
    · -- The new ward asks, so the flag is up and the heartbeat profile is excluded.
      have hup : (escalationOf engine (store.withWards citadelId (before ++ ward :: after)) now
          ctx (citadelWardEffect (store.withWards citadelId (before ++ ward :: after)) ctx)
          (grantView engine (store.withWards citadelId (before ++ ward :: after)) now ctx)
          accesses).requiresApproval = true := by
        apply Escalation.requiresApproval_of_ask
        left
        simp [Escalation.hardAsk, escalationOf, hask]
      rw [hup, Bool.true_and] at hattended
      refine ⟨_, ⟨hsurface, hnotDeny, hnotDenied, hnotConstrained, hstructural, htrusted,
        havailable, hreadable, by rw [hattended, Bool.and_false], rfl⟩, ?_⟩
      intro hflag
      rw [hflag', hup] at hflag
      cases hflag

/-! ## No source of permission lifts a hard gate -/

/-- An allowed request has passed the hard gates, and one that runs without
an approval has met nothing that always asks.  More deny patterns, one more deny
grant and one more deny or require-approval ward never raise the outcome; for
the deny patterns of the permission profile this holds away from the exact
built-in heartbeat profile. -/
theorem hardGates_not_lifted (engine : Engine) (store : Store) (now : Nat)
    (input : AccessInput) :
    (∀ evaluation, evaluateAccessInternal engine store now input = .ok evaluation →
      evaluation.allowed = true →
        ∃ ctx, accessContext engine now input = .ok ctx ∧ HardGatesPassed store now ctx ∧
          (evaluation.requiresApproval = false → NothingAsks engine store now ctx)) ∧
    (∀ config', ConfigDenyExtension engine.config config' →
      (outcome (evaluateAccessInternal { engine with config := config' } store now
          input)).rank ≤
        (outcome (evaluateAccessInternal engine store now input)).rank) ∧
    (∀ deny, (∀ profile, input.request.permissionProfile = some profile →
        profile.deny ⊆ deny) →
      isExactBuiltInHeartbeatProfile input.request = false →
      (outcome (evaluateAccessInternal engine store now (input.withProfileDeny deny))).rank ≤
        (outcome (evaluateAccessInternal engine store now input)).rank) ∧
    (∀ before after grant, store.grants = before ++ after → grant.decision = .deny →
      (outcome (evaluateAccessInternal engine
          { store with grants := before ++ grant :: after } now input)).rank ≤
        (outcome (evaluateAccessInternal engine store now input)).rank) ∧
    (∀ citadelId before after ward, store.listWards citadelId = before ++ after →
      ward.effect = .deny ∨ ward.effect = .requireApproval →
      (outcome (evaluateAccessInternal engine
          (store.withWards citadelId (before ++ ward :: after)) now input)).rank ≤
        (outcome (evaluateAccessInternal engine store now input)).rank) := by
  refine ⟨?_, fun config' hext => outcome_rank_le_of_configDenyExtension hext store now input,
    fun deny hdeny hexact => outcome_rank_le_withProfileDeny hdeny hexact store now,
    fun before after grant hstore hdeny => outcome_rank_le_of_denyGrant hstore hdeny now input,
    fun citadelId before after ward hstore heffect =>
      outcome_rank_le_of_ward hstore heffect now input⟩
  intro evaluation hevaluate hallowed
  unfold evaluateAccessInternal at hevaluate
  cases hcontext : accessContext engine now input with
  | error error => simp [hcontext, Except.bind] at hevaluate
  | ok ctx =>
      rw [hcontext] at hevaluate
      obtain ⟨accesses, hadmission⟩ := admission_of_allowed hevaluate hallowed
      exact ⟨ctx, rfl, hardGatesPassed_of_admission hadmission,
        nothingAsks_of_admission hadmission⟩

/-! ## The heartbeat profile -/

/-- A heartbeat turn reads mail in a Citadel whose ward asks for approval. -/
def heartbeatMailRequest : ToolRequest where
  toolName := "gmail.read"
  args := some []
  agentId := "assistant"
  sessionId := "s1"
  citadelId := some "c1"
  policyContext := some
    { permissionProfileId := some heartbeatPermissionProfileId
      permissionProfile := some heartbeatRestrictedProfile }

def askingCitadel : Store :=
  emptyStore.withWards "c1" [⟨"mail", "gmail.*", .requireApproval⟩]

/-- One more deny pattern in the built-in heartbeat profile makes it another
profile, and the blocked request asks. -/
theorem heartbeat_deny_pattern_raises_outcome :
    ¬ ∀ (engine : Engine) (store : Store) (now : Nat) (input : AccessInput)
        (deny : List String),
      (∀ profile, input.request.permissionProfile = some profile → profile.deny ⊆ deny) →
      (outcome (evaluateAccessInternal engine store now (input.withProfileDeny deny))).rank ≤
        (outcome (evaluateAccessInternal engine store now input)).rank := by
  intro hmono
  have h := hmono smallInstall askingCitadel 0 { request := heartbeatMailRequest }
    (heartbeatRestrictedDeny ++ ["browser.*"]) (by
      intro profile hprofile
      cases hprofile
      exact List.subset_append_left _ _)
  revert h
  decide +kernel

end GoatCitadel.Policy
