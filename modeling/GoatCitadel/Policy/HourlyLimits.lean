import GoatCitadel.Policy.Invocation

/-!
# Hourly limits of grants

A grant may limit the calls and the writes that are made under it within an
hour.  The limits are checked against the decisions recorded in the scope of
the grant, in the transaction that records the next one, so the decisions of an
hour under the grant never exceed them, provided that the count sees all of
them.

It does for the scopes whose identifier is a column of the decisions.  A chamber
or a Citadel is not, and its decisions are counted session by session.
-/

namespace GoatCitadel.Policy

open GoatCitadel.Support
open GoatCitadel.Sandbox

/-! ## Decisions under a grant -/

/-- The tool of the evaluation. -/
def Evaluated.toolDef (evaluated : Evaluated) : Option ToolDefinition :=
  evaluated.context.toOption.bind (·.toolDef)

/-- The decision counts toward the limits of the grant, in the sixty minutes
from `start`. -/
def ToolAccessDecisionRecord.countedUnder (grant : ToolGrantRecord) (start : Nat)
    (decision : ToolAccessDecisionRecord) : Bool :=
  decision.countsTowardLimits && decision.matchedGrantId = some grant.grantId &&
    (start ≤ decision.timestamp && decision.timestamp ≤ start + hourMs)

/-- A counted call of the tool that the grant names. -/
def Event.countedCall (grant : ToolGrantRecord) (start : Nat) : Event → Bool
  | .evaluated _ _ decision =>
      decision.countedUnder grant start && callOf grant.toolPattern decision
  | _ => false

/-- A counted decision of a mutating tool. -/
def Event.countedWrite (grant : ToolGrantRecord) (start : Nat) : Event → Bool
  | .evaluated _ evaluation decision =>
      decision.countedUnder grant start && isMutationTool evaluation.toolDef
  | _ => false

/-- The limits bind: in any sixty minutes the counted calls and writes stay
within them, and the repository counts every mutating tool as a write. -/
structure HourlyLimitsBind (grant : ToolGrantRecord) (events : List Event) : Prop where
  calls : ∀ limit, grant.constraints.bind (·.maxCallsPerHour) = some limit →
    ∀ start, events.countP (Event.countedCall grant start) ≤ limit
  writes : ∀ limit, grant.constraints.bind (·.maxWritesPerHour) = some limit →
    ∀ start, events.countP (Event.countedWrite grant start) ≤ limit
  writesCounted : ∀ c evaluated decision, Event.evaluated c evaluated decision ∈ events →
    decision.allowed = true → isMutationTool evaluated.toolDef = true →
      ∀ dialect, writeDecisionPredicate dialect decision = true

/-- A pattern that is the name of one tool. -/
def ExactToolName (pattern : String) : Prop :=
  trim pattern = pattern ∧ '*' ∉ pattern.toList

/-- The requests of the chamber or Citadel of the grant come from one session, as far as the
grant names their tool. -/
def FromOneSession (grant : ToolGrantRecord) (session : String) (_ : EngineState) :
    Event → Prop
  | .evaluated _ evaluated _ =>
      grant.scope = .chamber ∨ grant.scope = .citadel →
        (grant.scope, grant.scopeRef) ∈ buildScopeCandidates evaluated.request →
          (∃ ctx, evaluated.context = .ok ctx ∧
            grantNamesTool ctx.request ctx.policyToolName grant = true) →
            evaluated.request.sessionId = session
  | _ => True

/-! ## Mutating tools are counted as writes -/

variable {decision : ToolAccessDecisionRecord} {grant : ToolGrantRecord}

theorem likeSuffix_of_endsWith {dialect : Dialect} {text tail : String}
    (htail : tail.toList.map Char.toLower = tail.toList) (h : endsWith text tail = true) :
    likeSuffix dialect text tail = true := by
  cases dialect with
  | postgres => exact h
  | sqlite =>
      rw [endsWith, List.isSuffixOf_iff_suffix] at h
      rw [likeSuffix, List.isSuffixOf_iff_suffix, ← htail]
      exact h.map Char.toLower

theorem cautionMutatingToolSqlNames_contains {name : String}
    (h : cautionMutatingToolNames.contains name = true) :
    cautionMutatingToolSqlNames.contains name = true := by
  have hall : cautionMutatingToolNames.all
      (fun name => cautionMutatingToolSqlNames.contains name) = true := by decide +kernel
  exact List.all_eq_true.mp hall name (by simpa using h)

/-- A name that is known to mutate is counted as a write. -/
theorem writeDecisionPredicate_of_name {dialect : Dialect}
    (h : isKnownMutatingToolName decision.toolName = true) :
    writeDecisionPredicate dialect decision = true := by
  have hwrite : cautionMutatingToolSqlNames.contains decision.toolName = true ∨
      likeSuffix dialect decision.toolName ".send" = true ∨
      likeSuffix dialect decision.toolName ".react" = true ∨
      likeSuffix dialect decision.toolName ".unsend" = true := by
    simp only [isKnownMutatingToolName, Bool.or_eq_true, beq_iff_eq] at h
    obtain ((hname | (hsend | hreact) | hunsend) | hwebhook) | hcalendar := h
    · exact Or.inl (cautionMutatingToolSqlNames_contains hname)
    · exact Or.inr (Or.inl (likeSuffix_of_endsWith (by decide) hsend))
    · exact Or.inr (Or.inr (Or.inl (likeSuffix_of_endsWith (by decide) hreact)))
    · exact Or.inr (Or.inr (Or.inr (likeSuffix_of_endsWith (by decide) hunsend)))
    · rw [hwebhook]
      exact Or.inr (Or.inl (likeSuffix_of_endsWith (by decide) (by decide)))
    · rw [hcalendar]
      exact Or.inl (by decide +kernel)
  simp only [writeDecisionPredicate, Bool.or_eq_true]
  tauto

/-! ## One transaction -/

section Transaction

variable {evaluated : Evaluated} {recordedAt : Nat} {decision : ToolAccessDecisionRecord}
  {accesses : List ReadPathAccessDecision}

/-- What an allowed decision was taken from. -/
structure AllowedDecision (evaluated : Evaluated) (recordedAt : Nat)
    (decision : ToolAccessDecisionRecord) (ctx : AccessContext)
    (accesses : List ReadPathAccessDecision) : Prop where
  context : evaluated.context = .ok ctx
  admission : Admission evaluated.engine evaluated.store evaluated.now ctx accesses
    evaluated.evaluation
  toolName : decision.toolName = ctx.request.toolName
  policyToolName : decision.policyToolName = ctx.policyToolName
  template : ∀ name, ctx.policyToolName = some name → name = "mcp.invoke" ∨ name = "mesh.invoke"
  toolDef : ctx.policyToolName = none →
    ctx.toolDef = evaluated.engine.registry.get ctx.request.toolName
  request : ∃ toolName args,
    ctx.request = { evaluated.request with toolName := toolName, args := args }
  reservation : ctx.reservation = none
  riskLevel : decision.riskLevel = ctx.riskLevel
  matchedGrantId : decision.matchedGrantId = evaluated.evaluation.matchedGrantId
  timestamp : decision.timestamp = recordedAt
  later : evaluated.now ≤ recordedAt
  agentId : decision.agentId = evaluated.request.agentId
  sessionId : decision.sessionId = evaluated.request.sessionId
  workspaceId : decision.workspaceId = evaluated.request.workspaceId
  taskId : decision.taskId = evaluated.request.taskId

theorem allowedDecision_of_invocation (h : InvocationEvaluation evaluated recordedAt decision)
    (hallowed : decision.allowed = true) :
    ∃ ctx accesses, AllowedDecision evaluated recordedAt decision ctx accesses := by
  obtain ⟨identity, decisionId, hidentity, rfl⟩ := h.decision
  have hcontext : evaluated.context = .ok
      { request := identity.evaluationRequest
        mappedTarget := identity.mappedTarget
        toolDef := identity.toolDef
        capabilityToolName := identity.capabilityToolName
        mcpApprovalRelief := identity.mcpApprovalRelief
        policy := policyFor evaluated.engine evaluated.now identity.evaluationRequest
        ownDelivery := isOwnDeliveryMarker evaluated.options.ownDelivery
        reservation := none
        nativeInstallation := false } := by
    simp [Evaluated.context, accessContext, invocationPolicyFor, hidentity, Except.map]
  have hevaluate := h.evaluation
  unfold evaluateAccessInternal at hevaluate
  rw [Evaluated.context] at hcontext
  rw [hcontext] at hevaluate
  obtain ⟨accesses, hadmission⟩ := admission_of_allowed hevaluate hallowed
  obtain ⟨hname, htemplate, htoolDef⟩ := resolveInvocationPolicy_names hidentity
  refine ⟨_, accesses, hcontext, hadmission, hname.symm, rfl, ?_, ?_, ?_, rfl,
    hadmission.riskLevel, rfl, rfl, h.ordered, rfl, rfl, rfl, rfl⟩
  · intro name hmapped
    obtain ⟨target, htarget, rfl⟩ := Option.map_eq_some_iff.mp hmapped
    exact htemplate target htarget
  · intro hunmapped
    rw [hname]
    exact htoolDef (Option.map_eq_none_iff.mp hunmapped)
  · exact @invocationPolicyFor_evaluationRequest evaluated.engine
      ⟨evaluated.request, evaluated.options, none, false⟩ identity hidentity

/-- The repository counts the decision of a mutating tool as a write. -/
theorem AllowedDecision.writeDecisionPredicate {ctx : AccessContext}
    (h : AllowedDecision evaluated recordedAt decision ctx accesses)
    (hmutation : isMutationTool ctx.toolDef = true) (dialect : Dialect) :
    writeDecisionPredicate dialect decision = true := by
  cases hpolicy : ctx.policyToolName with
  | some name =>
      have hname := h.template name hpolicy
      have hdecision := h.policyToolName.trans hpolicy
      simp only [Policy.writeDecisionPredicate, Bool.or_eq_true, hdecision]
      obtain rfl | rfl := hname <;> simp
  | none =>
      cases htool : ctx.toolDef with
      | none => simp [htool, isMutationTool] at hmutation
      | some toolDef =>
          have hregistered := h.toolDef hpolicy
          rw [htool] at hregistered
          have hname := evaluated.engine.registry.named _ _ hregistered.symm
          simp only [htool, isMutationTool, Bool.or_eq_true, decide_eq_true_eq] at hmutation
          obtain hrisk | hknown := hmutation
          · have hlevel : decision.riskLevel = toolDef.riskLevel := by
              rw [h.riskLevel]
              simp [AccessContext.riskLevel, htool]
            simp only [Policy.writeDecisionPredicate, Bool.or_eq_true, hlevel,
              decide_eq_true_eq]
            tauto
          · apply writeDecisionPredicate_of_name
            rw [h.toolName, ← hname]
            exact hknown

theorem AllowedDecision.evaluated_toolDef {ctx : AccessContext}
    (h : AllowedDecision evaluated recordedAt decision ctx accesses) :
    evaluated.toolDef = ctx.toolDef := by
  simp [Evaluated.toolDef, h.context, Except.toOption]

/-- The grant that an allowed decision names is an applicable one of the store. -/
theorem AllowedDecision.grant_applicable {ctx : AccessContext} {grantId : String}
    (h : AllowedDecision evaluated recordedAt decision ctx accesses)
    (hmatched : decision.matchedGrantId = some grantId) :
    ∃ grant ∈ evaluated.store.grants, grant.grantId = grantId ∧
      (grant.scope, grant.scopeRef) ∈ buildScopeCandidates evaluated.request ∧
      grantNamesTool ctx.request ctx.policyToolName grant = true ∧
      applyGrantConstraints evaluated.engine evaluated.store evaluated.now ctx.request grant
        ctx.toolDef ctx.policyToolName none = none := by
  rw [h.matchedGrantId, h.admission.grantToConsume.2, Option.map_eq_some_iff] at hmatched
  obtain ⟨grant, heffective, hid⟩ := hmatched
  obtain ⟨hmatching, _, hconstraints⟩ :=
    h.admission.mem_allowGrants (h.admission.effective_mem heffective)
  rw [h.reservation] at hmatching hconstraints
  obtain ⟨hmem, _, hscope, hnames⟩ := mem_matchingGrants_none.mp hmatching
  obtain ⟨toolName, args, hrequest⟩ := h.request
  rw [hrequest] at hscope
  exact ⟨grant, hmem, hid, hscope, hnames, hconstraints⟩

end Transaction

/-! ## Scopes of the counts -/

/-- The decision shows that it lies in the scope of the grant; the decisions of a
chamber or a Citadel show their session only. -/
def ToolAccessDecisionRecord.inScopeOf (grant : ToolGrantRecord) (session : String)
    (decision : ToolAccessDecisionRecord) : Prop :=
  match grant.scope with
  | .global => True
  | .agent => decision.agentId = grant.scopeRef
  | .task => decision.taskId = some grant.scopeRef
  | .workspace => decision.workspaceId = some grant.scopeRef
  | .session => decision.sessionId = grant.scopeRef
  | .chamber | .citadel => decision.sessionId = session

theorem eq_some_of_mem_present {value : Option String} {text : String}
    (h : text ∈ present value) : value.bind nonEmpty = some text ∧ value = some text := by
  have hbind : value.bind nonEmpty = some text := by simpa [present] using h
  refine ⟨hbind, ?_⟩
  obtain ⟨original, hvalue, hnonEmpty⟩ := Option.bind_eq_some_iff.mp hbind
  unfold nonEmpty at hnonEmpty
  split at hnonEmpty
  · cases hnonEmpty
  · cases hnonEmpty
    exact hvalue

/-- What a candidate scope says about the request. -/
theorem request_of_scopeCandidate {request : ToolRequest} {scope : ToolGrantScope}
    {scopeRef : String} (h : (scope, scopeRef) ∈ buildScopeCandidates request) :
    (scope = .agent → request.agentId = scopeRef) ∧
      (scope = .session → request.sessionId = scopeRef) ∧
      (scope = .task → scopeRef ∈ present request.taskId) ∧
      (scope = .workspace → scopeRef ∈ present request.workspaceId) := by
  simp only [buildScopeCandidates, List.mem_append, List.mem_map, List.mem_cons,
    List.not_mem_nil, or_false, Prod.mk.injEq] at h
  refine ⟨?_, ?_, ?_, ?_⟩
  all_goals
    rintro rfl
    simpa [eq_comm] using h

theorem AllowedDecision.inScopeOf {evaluated : Evaluated} {recordedAt : Nat} {ctx : AccessContext}
    {accesses : List ReadPathAccessDecision} {session : String}
    (h : AllowedDecision evaluated recordedAt decision ctx accesses)
    (hscope : (grant.scope, grant.scopeRef) ∈ buildScopeCandidates evaluated.request)
    (hsession : grant.scope = .chamber ∨ grant.scope = .citadel →
      evaluated.request.sessionId = session) : decision.inScopeOf grant session := by
  obtain ⟨hagent, hsessionRef, htask, hworkspace⟩ := request_of_scopeCandidate hscope
  unfold ToolAccessDecisionRecord.inScopeOf
  cases hkind : grant.scope with
  | global => trivial
  | agent => exact h.agentId.trans (hagent hkind)
  | session => exact h.sessionId.trans (hsessionRef hkind)
  | task => exact h.taskId.trans (eq_some_of_mem_present (htask hkind)).2
  | workspace => exact h.workspaceId.trans (eq_some_of_mem_present (hworkspace hkind)).2
  | chamber => exact h.sessionId.trans (hsession (Or.inl hkind))
  | citadel => exact h.sessionId.trans (hsession (Or.inr hkind))

/-- The count for a request in the scope of the grant sees the decisions of the
scope. -/
theorem limitScope_contains {request : ToolRequest} {session : String}
    (hscope : (grant.scope, grant.scopeRef) ∈ buildScopeCandidates request)
    (hsession : grant.scope = .chamber ∨ grant.scope = .citadel → request.sessionId = session)
    (hdecision : decision.inScopeOf grant session) (sessionWorkspace : String → Option String) :
    (limitScope request grant none).contains sessionWorkspace decision = true := by
  obtain ⟨hagent, hsessionRef, htask, hworkspace⟩ := request_of_scopeCandidate hscope
  unfold ToolAccessDecisionRecord.inScopeOf at hdecision
  cases hkind : grant.scope with
  | global => simp [CountScope.contains, limitScope, hkind]
  | agent =>
      simp only [hkind] at hdecision
      simp [CountScope.contains, limitScope, hkind, hdecision, hagent hkind]
  | session =>
      simp only [hkind] at hdecision
      simp [CountScope.contains, limitScope, hkind, hdecision, hsessionRef hkind]
  | task =>
      simp only [hkind] at hdecision
      simp [CountScope.contains, limitScope, hkind, hdecision,
        (eq_some_of_mem_present (htask hkind)).1]
  | workspace =>
      simp only [hkind] at hdecision
      simp [CountScope.contains, limitScope, hkind, hdecision,
        (eq_some_of_mem_present (hworkspace hkind)).1]
  | chamber =>
      simp only [hkind] at hdecision
      simp [CountScope.contains, limitScope, hkind, hdecision, hsession (Or.inl hkind)]
  | citadel =>
      simp only [hkind] at hdecision
      simp [CountScope.contains, limitScope, hkind, hdecision, hsession (Or.inr hkind)]

/-- The calls of the grant are counted under the name of its tool. -/
theorem AllowedDecision.limitToolName {evaluated : Evaluated} {recordedAt : Nat}
    {ctx : AccessContext} {accesses : List ReadPathAccessDecision}
    (h : AllowedDecision evaluated recordedAt decision ctx accesses)
    (hexact : ExactToolName grant.toolPattern) (hcall : callOf grant.toolPattern decision = true) :
    limitToolName ctx.request grant ctx.policyToolName = grant.toolPattern := by
  simp only [callOf, h.toolName, h.policyToolName, Bool.or_eq_true, decide_eq_true_eq] at hcall
  cases hpolicy : ctx.policyToolName with
  | none =>
      rw [hpolicy] at hcall
      obtain hname | hnone := hcall
      · exact hname
      · cases hnone
  | some name =>
      have htemplate := h.template name hpolicy
      have hplain : trim name = name ∧ matchesToolPattern name name = true := by
        obtain rfl | rfl := htemplate <;> decide +kernel
      simp only [Policy.limitToolName]
      split
      · next hmatches =>
          rw [← hplain.1, ← trim_eq_of_matchesToolPattern hexact.2 hmatches, hexact.1]
      · next hmatches =>
          rw [hpolicy, Option.some.injEq] at hcall
          obtain hname | hname := hcall
          · exact hname
          · rw [← hname] at hmatches
            exact absurd hplain.2 hmatches

/-! ## Counts below the limits -/

theorem countInLastHour_eq {store : Store} {now : Nat} {scope : CountScope}
    {counted : ToolAccessDecisionRecord → Bool} (h : scope.excludeDecisionId = none) :
    store.countInLastHour now scope counted =
      store.decisions.countP fun decision =>
        scope.contains store.sessionWorkspace decision && counted decision &&
          recentlyCounted now decision := by
  simp [Store.countInLastHour, h]

section Limits

variable {engine : Engine} {store : Store} {now : Nat} {request : ToolRequest}
  {grant : ToolGrantRecord} {toolDef : Option ToolDefinition} {policyToolName : Option String}
  {limit : Nat}

/-- A grant applies while its calls of the last hour are below its limit. -/
theorem calls_lt_of_applicable
    (h : applyGrantConstraints engine store now request grant toolDef policyToolName none = none)
    (hlimit : grant.constraints.bind (·.maxCallsPerHour) = some limit) :
    (store.decisions.countP fun decision =>
      (limitScope request grant none).contains store.sessionWorkspace decision &&
        callOf (limitToolName request grant policyToolName) decision &&
          recentlyCounted now decision) < limit := by
  obtain ⟨constraints, hconstraints, hmax⟩ := Option.bind_eq_some_iff.mp hlimit
  obtain ⟨_, _, hcalls, _⟩ := applyGrantConstraints_eq_none _ _ _ _ _ _ _ _ _ hconstraints h
  simp only [callLimitConstraint, hmax, Option.bind_some] at hcalls
  split at hcalls
  · cases hcalls
  · next hbelow =>
      rw [Store.countToolCallsInLastHourInScope, countInLastHour_eq rfl] at hbelow
      exact Nat.lt_of_not_le hbelow

/-- A grant applies to a mutating tool while the writes of the last hour are below
its limit. -/
theorem writes_lt_of_applicable
    (h : applyGrantConstraints engine store now request grant toolDef policyToolName none = none)
    (hmutation : isMutationTool toolDef = true)
    (hlimit : grant.constraints.bind (·.maxWritesPerHour) = some limit) :
    (store.decisions.countP fun decision =>
      (limitScope request grant none).contains store.sessionWorkspace decision &&
        (decision.allowed && writeDecisionPredicate store.dialect decision) &&
          recentlyCounted now decision) < limit := by
  obtain ⟨constraints, hconstraints, hmax⟩ := Option.bind_eq_some_iff.mp hlimit
  obtain ⟨_, _, _, hwrites, _⟩ := applyGrantConstraints_eq_none _ _ _ _ _ _ _ _ _ hconstraints h
  simp only [writeLimitConstraint, hmax, hmutation, Option.bind_some, Bool.true_and,
    decide_eq_true_eq] at hwrites
  split at hwrites
  · cases hwrites
  · next hbelow =>
      rw [Store.countWritesInLastHourInScope, countInLastHour_eq rfl] at hbelow
      exact Nat.lt_of_not_le hbelow

end Limits

/-! ## Grants and decisions through a run -/

/-- The columns of a grant that no statement changes. -/
structure ToolGrantRecord.SameTerms (grant row : ToolGrantRecord) : Prop where
  grantId : row.grantId = grant.grantId
  toolPattern : row.toolPattern = grant.toolPattern
  scope : row.scope = grant.scope
  scopeRef : row.scopeRef = grant.scopeRef
  constraints : row.constraints = grant.constraints

theorem ToolGrantRecord.SameTerms.trans {row row' : ToolGrantRecord} (h : grant.SameTerms row)
    (h' : row.SameTerms row') : grant.SameTerms row' :=
  ⟨h'.grantId.trans h.grantId, h'.toolPattern.trans h.toolPattern, h'.scope.trans h.scope,
    h'.scopeRef.trans h.scopeRef, h'.constraints.trans h.constraints⟩

theorem ToolGrantRecord.SameTerms.refl (grant : ToolGrantRecord) : grant.SameTerms grant :=
  ⟨rfl, rfl, rfl, rfl, rfl⟩

theorem ToolGrantRecord.sameTerms_consume (grant : ToolGrantRecord) :
    grant.SameTerms grant.consume := by
  unfold ToolGrantRecord.consume
  split <;> exact ⟨rfl, rfl, rfl, rfl, rfl⟩

/-- Rows stay with their terms, and a new row has an identifier of its own. -/
structure GrantsKept (grants grants' : List ToolGrantRecord) : Prop where
  kept : ∀ row ∈ grants, ∃ row' ∈ grants', row.SameTerms row'
  known : ∀ row' ∈ grants', (∃ row ∈ grants, row.SameTerms row') ∨
    ∀ row ∈ grants, row.grantId ≠ row'.grantId

theorem GrantsKept.of_map {grants : List ToolGrantRecord}
    {update : ToolGrantRecord → ToolGrantRecord}
    (h : ∀ row : ToolGrantRecord, row.SameTerms (update row)) :
    GrantsKept grants (grants.map update) where
  kept := fun row hrow => ⟨update row, List.mem_map_of_mem hrow, h row⟩
  known := by
    intro row' hrow'
    obtain ⟨row, hrow, rfl⟩ := List.mem_map.mp hrow'
    exact Or.inl ⟨row, hrow, h row⟩

theorem GrantsKept.consumeOne (grants : List ToolGrantRecord) (now : Nat) (grantId : String) :
    GrantsKept grants (consumeOne grants now grantId).2 := by
  unfold Policy.consumeOne
  apply GrantsKept.of_map
  intro row
  split
  · exact row.sameTerms_consume
  · exact .refl row

theorem GrantsKept.revokeGrant (grants : List ToolGrantRecord) (now : Nat) (grantId : String) :
    GrantsKept grants (revokeGrant grants now grantId) := by
  unfold Policy.revokeGrant
  apply GrantsKept.of_map
  intro row
  split <;> exact ⟨rfl, rfl, rfl, rfl, rfl⟩

theorem GrantsKept.refl (grants : List ToolGrantRecord) : GrantsKept grants grants where
  kept := fun row hrow => ⟨row, hrow, .refl row⟩
  known := fun row hrow => Or.inl ⟨row, hrow, .refl row⟩

/-- The event records a decision with the property. -/
def Event.records (p : ToolAccessDecisionRecord → Bool) : Event → Bool
  | .evaluated _ _ decision => p decision
  | _ => false

section Steps

variable {s s' : EngineState} {event : Event} {grant : ToolGrantRecord}

theorem grantsKept_of_step (h : Step s event s') : GrantsKept s.store.grants s'.store.grants := by
  cases h with
  | refuses =>
      simp only [EngineState.withStore, EngineState.goTo, Store.resolveUnlessDeferred]
      split <;> exact .refl _
  | blocks =>
      simp only [EngineState.withStore, EngineState.goTo, Store.resolveUnlessDeferred]
      split <;> exact .refl _
  | dispatches _ consumed =>
      obtain ⟨_, rfl⟩ | ⟨grantId, _, _, rfl⟩ := Store.consumeFor_eq_some consumed
      · exact .refl _
      · exact .consumeOne s.store.grants s.now grantId
  | @createsGrant input grantId grant row fresh =>
      constructor
      · intro row hrow
        exact ⟨row, List.mem_cons_of_mem _ hrow, .refl row⟩
      · intro row' hrow'
        obtain rfl | hmem := List.mem_cons.mp hrow'
        · right
          have hid : row'.grantId = grantId := grantId_of_createGrantRow row
          rw [hid]
          exact fresh
        · exact Or.inl ⟨row', hmem, .refl row'⟩
  | @revokes grantId => exact .revokeGrant s.store.grants s.now grantId
  | _ => exact .refl _

/-- A step records the decision of its transaction, or none that counts. -/
theorem decisions_of_step (h : Step s event s') :
    ((∀ p, event.records p = false) ∧
      ∀ p, s.store.decisions.countP p ≤ s'.store.decisions.countP p) ∨
    ∃ c evaluated recordedAt decision, event = .evaluated c evaluated decision ∧
      evaluated.store = s.store ∧ InvocationEvaluation evaluated recordedAt decision ∧
      s'.store.decisions = decision :: s.store.decisions := by
  have hsame : s'.store.decisions = s.store.decisions →
      ∀ p, s.store.decisions.countP p ≤ s'.store.decisions.countP p := by
    intro heq p
    exact Nat.le_of_eq (by rw [heq])
  cases h with
  | evaluates _ store _ _ evaluation => exact Or.inr ⟨_, _, _, _, rfl, store, evaluation, rfl⟩
  | replays _ _ _ store _ _ evaluation =>
      exact Or.inr ⟨_, _, _, _, rfl, store, evaluation, rfl⟩
  | @advises decision =>
      exact Or.inl ⟨fun _ => rfl, fun p => (List.sublist_cons_self _ _).countP_le⟩
  | refuses =>
      refine Or.inl ⟨fun _ => rfl, hsame ?_⟩
      simp only [EngineState.withStore, EngineState.goTo, Store.resolveUnlessDeferred]
      split <;> rfl
  | blocks =>
      refine Or.inl ⟨fun _ => rfl, hsame ?_⟩
      simp only [EngineState.withStore, EngineState.goTo, Store.resolveUnlessDeferred]
      split <;> rfl
  | dispatches _ consumed =>
      refine Or.inl ⟨fun _ => rfl, hsame ?_⟩
      obtain ⟨_, rfl⟩ | ⟨_, _, _, rfl⟩ := Store.consumeFor_eq_some consumed <;> rfl
  | _ => exact Or.inl ⟨fun _ => rfl, hsame rfl⟩

/-- What holds of the decisions recorded so far and the store. -/
structure LimitsKept (grant : ToolGrantRecord) (session : String) (past : List Event)
    (s : EngineState) : Prop where
  present : ∃ row ∈ s.store.grants, row.grantId = grant.grantId
  terms : ∀ row ∈ s.store.grants, row.grantId = grant.grantId → grant.SameTerms row
  recorded : ∀ p, past.countP (Event.records p) ≤ s.store.decisions.countP p
  inScope : ∀ c evaluated decision, Event.evaluated c evaluated decision ∈ past →
    decision.countsTowardLimits = true → decision.matchedGrantId = some grant.grantId →
      decision.allowed = true ∧ decision.inScopeOf grant session
  binds : HourlyLimitsBind grant past

theorem GrantsKept.terms {grants grants' : List ToolGrantRecord} (h : GrantsKept grants grants')
    (hpresent : ∃ row ∈ grants, row.grantId = grant.grantId)
    (hterms : ∀ row ∈ grants, row.grantId = grant.grantId → grant.SameTerms row) :
    (∃ row ∈ grants', row.grantId = grant.grantId) ∧
      ∀ row ∈ grants', row.grantId = grant.grantId → grant.SameTerms row := by
  obtain ⟨row, hrow, hid⟩ := hpresent
  constructor
  · obtain ⟨row', hrow', hsame⟩ := h.kept row hrow
    exact ⟨row', hrow', hsame.grantId.trans hid⟩
  · intro row' hrow' hid'
    obtain ⟨before, hbefore, hsame⟩ | hnew := h.known row' hrow'
    · exact (hterms before hbefore (hsame.grantId.symm.trans hid')).trans hsame
    · exact absurd (hid.trans hid'.symm) (hnew row hrow)

theorem allowed_of_countsTowardLimits {evaluated : Evaluated} {recordedAt : Nat}
    (h : InvocationEvaluation evaluated recordedAt decision)
    (hcounts : decision.countsTowardLimits = true) : decision.allowed = true := by
  obtain ⟨identity, decisionId, _, rfl⟩ := h.decision
  exact (Bool.and_eq_true_iff.mp hcounts).1

theorem countP_append_singleton_le {ε : Type} {p : ε → Bool} {past : List ε} {event : ε}
    {limit : Nat} (hpast : past.countP p ≤ limit)
    (hlt : p event = true → past.countP p < limit) : (past ++ [event]).countP p ≤ limit := by
  rw [List.countP_append]
  by_cases hp : p event = true
  · have hbelow := hlt hp
    simp only [List.countP_cons, List.countP_nil, hp, if_true]
    omega
  · simpa [hp] using hpast

section Recorded

variable {grant : ToolGrantRecord} {session : String} {past : List Event} {c : Nat}
  {evaluated : Evaluated} {recordedAt : Nat} {decision : ToolAccessDecisionRecord}

/-- The decisions counted in an hour that ends with a transaction are among those that its own
count sees. -/
theorem LimitsKept.lt_of_counted {counted : ToolAccessDecisionRecord → Bool} {p : Event → Bool}
    {scope : CountScope} {limit start : Nat} (hkept : LimitsKept grant session past s)
    (hcontains : ∀ other : ToolAccessDecisionRecord, other.inScopeOf grant session →
      scope.contains s.store.sessionWorkspace other = true)
    (hnow : evaluated.now ≤ start + hourMs)
    (hbelow : (s.store.decisions.countP fun decision =>
      scope.contains s.store.sessionWorkspace decision && counted decision &&
        recentlyCounted evaluated.now decision) < limit)
    (hp : ∀ event ∈ past, p event = true → ∃ c evaluated decision,
      event = .evaluated c evaluated decision ∧ decision.countedUnder grant start = true ∧
        counted decision = true) : past.countP p < limit := by
  refine Nat.lt_of_le_of_lt (Nat.le_trans ?_ (hkept.recorded _)) hbelow
  apply List.countP_mono_left
  intro event hevent hcountedEvent
  obtain ⟨c', evaluated', decision', rfl, hunder, hcounted⟩ := hp event hevent hcountedEvent
  simp only [ToolAccessDecisionRecord.countedUnder, Bool.and_eq_true, decide_eq_true_eq] at hunder
  obtain ⟨⟨hcounts, hmatched⟩, hstart, -⟩ := hunder
  have hscoped := hcontains decision' (hkept.inScope c' evaluated' decision' hevent hcounts
    hmatched).2
  have hrecent : recentlyCounted evaluated.now decision' = true := by
    simp only [recentlyCounted, hcounts, Bool.true_and, decide_eq_true_eq]
    omega
  simp [Event.records, hscoped, hcounted, hrecent]

variable (hkept : LimitsKept grant session past s)
  (hsession : FromOneSession grant session s (.evaluated c evaluated decision))
  (hstore : evaluated.store = s.store) (h : InvocationEvaluation evaluated recordedAt decision)

include hkept hsession hstore h

/-- The grant that a counted decision names has the terms of `grant`, so the decision lies in its
scope, its count sees the decisions of that scope, and its constraints hold. -/
theorem LimitsKept.applicable (hcounts : decision.countsTowardLimits = true)
    (hmatched : decision.matchedGrantId = some grant.grantId) :
    ∃ ctx accesses row, AllowedDecision evaluated recordedAt decision ctx accesses ∧
      grant.SameTerms row ∧ decision.inScopeOf grant session ∧
      (∀ other : ToolAccessDecisionRecord, other.inScopeOf grant session →
        (limitScope ctx.request row none).contains s.store.sessionWorkspace other = true) ∧
      applyGrantConstraints evaluated.engine s.store evaluated.now ctx.request row
        ctx.toolDef ctx.policyToolName none = none := by
  obtain ⟨ctx, accesses, hdecision⟩ :=
    allowedDecision_of_invocation h (allowed_of_countsTowardLimits h hcounts)
  obtain ⟨row, hrow, hid, hscope, hnames, hconstraints⟩ := hdecision.grant_applicable hmatched
  rw [hstore] at hrow hconstraints
  have hterms := hkept.terms row hrow hid
  rw [hterms.scope, hterms.scopeRef] at hscope
  rw [grantNamesTool, hterms.toolPattern] at hnames
  have hone : grant.scope = .chamber ∨ grant.scope = .citadel →
      evaluated.request.sessionId = session :=
    fun hkind => hsession hkind hscope ⟨ctx, hdecision.context, hnames⟩
  refine ⟨ctx, accesses, row, hdecision, hterms, hdecision.inScopeOf hscope hone, ?_,
    hconstraints⟩
  intro other hother
  obtain ⟨toolName, args, hrequest⟩ := hdecision.request
  have hlimit : limitScope ctx.request row none = limitScope evaluated.request grant none := by
    simp only [limitScope, hterms.scope, hrequest]
  rw [hlimit]
  exact limitScope_contains hscope hone hother s.store.sessionWorkspace

/-- Before a counted call, the counted calls of its hour are below the limit. -/
theorem LimitsKept.calls_lt (hexact : ExactToolName grant.toolPattern) {limit start : Nat}
    (hlimit : grant.constraints.bind (·.maxCallsPerHour) = some limit)
    (hcounted : Event.countedCall grant start (.evaluated c evaluated decision) = true) :
    past.countP (Event.countedCall grant start) < limit := by
  simp only [Event.countedCall, ToolAccessDecisionRecord.countedUnder, Bool.and_eq_true,
    decide_eq_true_eq] at hcounted
  obtain ⟨⟨⟨hcounts, hmatched⟩, _, hwindow⟩, hcall⟩ := hcounted
  obtain ⟨ctx, accesses, row, hdecision, hterms, -, hcontains, hconstraints⟩ :=
    hkept.applicable hsession hstore h hcounts hmatched
  have hbelow := calls_lt_of_applicable hconstraints (by rw [hterms.constraints]; exact hlimit)
  have hname : limitToolName ctx.request row ctx.policyToolName = grant.toolPattern := by
    rw [← hterms.toolPattern]
    apply hdecision.limitToolName
    · rw [hterms.toolPattern]
      exact hexact
    · rw [hterms.toolPattern]
      exact hcall
  rw [hname] at hbelow
  rw [hdecision.timestamp] at hwindow
  refine hkept.lt_of_counted hcontains (hdecision.later.trans hwindow) hbelow ?_
  intro event _ hevent
  cases event with
  | evaluated c' evaluated' decision' =>
      exact ⟨c', evaluated', decision', rfl, Bool.and_eq_true_iff.mp hevent⟩
  | _ => cases hevent

/-- Before a counted write, the counted writes of its hour are below the limit. -/
theorem LimitsKept.writes_lt {limit start : Nat}
    (hlimit : grant.constraints.bind (·.maxWritesPerHour) = some limit)
    (hcounted : Event.countedWrite grant start (.evaluated c evaluated decision) = true) :
    past.countP (Event.countedWrite grant start) < limit := by
  simp only [Event.countedWrite, ToolAccessDecisionRecord.countedUnder, Bool.and_eq_true,
    decide_eq_true_eq] at hcounted
  obtain ⟨⟨⟨hcounts, hmatched⟩, _, hwindow⟩, hmutation⟩ := hcounted
  obtain ⟨ctx, accesses, row, hdecision, hterms, -, hcontains, hconstraints⟩ :=
    hkept.applicable hsession hstore h hcounts hmatched
  rw [hdecision.evaluated_toolDef] at hmutation
  have hbelow := writes_lt_of_applicable hconstraints hmutation
    (by rw [hterms.constraints]; exact hlimit)
  rw [hdecision.timestamp] at hwindow
  refine hkept.lt_of_counted hcontains (hdecision.later.trans hwindow) hbelow ?_
  intro event hmem hevent
  cases event with
  | evaluated c' evaluated' decision' =>
      obtain ⟨hunder, hmutation'⟩ := Bool.and_eq_true_iff.mp hevent
      have hcounts' := Bool.and_eq_true_iff.mp (Bool.and_eq_true_iff.mp hunder).1
      have hallowed := (hkept.inScope c' evaluated' decision' hmem hcounts'.1
        (of_decide_eq_true hcounts'.2)).1
      have hwrite := hkept.binds.writesCounted c' evaluated' decision' hmem hallowed hmutation'
        s.store.dialect
      exact ⟨c', evaluated', decision', rfl, hunder, Bool.and_eq_true_iff.mpr ⟨hallowed, hwrite⟩⟩
  | _ => cases hevent

/-- A transaction keeps the limits. -/
theorem LimitsKept.bind_transaction (hexact : ExactToolName grant.toolPattern) :
    HourlyLimitsBind grant (past ++ [.evaluated c evaluated decision]) where
  calls := by
    intro limit hlimit start
    apply countP_append_singleton_le (hkept.binds.calls limit hlimit start)
    exact hkept.calls_lt hsession hstore h hexact hlimit
  writes := by
    intro limit hlimit start
    apply countP_append_singleton_le (hkept.binds.writes limit hlimit start)
    exact hkept.writes_lt hsession hstore h hlimit
  writesCounted := by
    intro c' evaluated' decision' hmem hallowed hmutation dialect
    obtain hpast | hnew := List.mem_append.mp hmem
    · exact hkept.binds.writesCounted c' evaluated' decision' hpast hallowed hmutation dialect
    · cases List.mem_singleton.mp hnew
      obtain ⟨ctx, accesses, hdecision⟩ := allowedDecision_of_invocation h hallowed
      rw [hdecision.evaluated_toolDef] at hmutation
      exact hdecision.writeDecisionPredicate hmutation dialect

end Recorded

/-- A step that is no transaction records nothing. -/
theorem HourlyLimitsBind.append_of_silent {past : List Event} (h : HourlyLimitsBind grant past)
    (hsilent : ∀ p, event.records p = false) :
    HourlyLimitsBind grant (past ++ [event]) where
  calls := by
    intro limit hlimit start
    apply countP_append_singleton_le (h.calls limit hlimit start)
    intro hcounted
    cases event with
    | evaluated c evaluated decision => cases hsilent fun _ => true
    | _ => cases hcounted
  writes := by
    intro limit hlimit start
    apply countP_append_singleton_le (h.writes limit hlimit start)
    intro hcounted
    cases event with
    | evaluated c evaluated decision => cases hsilent fun _ => true
    | _ => cases hcounted
  writesCounted := by
    intro c evaluated decision hmem
    obtain hpast | hnew := List.mem_append.mp hmem
    · exact h.writesCounted c evaluated decision hpast
    · rw [← List.mem_singleton.mp hnew] at hsilent
      cases hsilent fun _ => true

theorem LimitsKept.step {session : String} {past : List Event} (h : Step s event s')
    (hexact : ExactToolName grant.toolPattern) (hsession : FromOneSession grant session s event)
    (hkept : LimitsKept grant session past s) : LimitsKept grant session (past ++ [event]) s' := by
  obtain ⟨hpresent, hterms⟩ := (grantsKept_of_step h).terms hkept.present hkept.terms
  obtain ⟨hsilent, hcount⟩ | ⟨c, evaluated, recordedAt, decision, rfl, hstore, hinvocation,
    hdecisions⟩ := decisions_of_step h
  · refine ⟨hpresent, hterms, ?_, ?_, hkept.binds.append_of_silent hsilent⟩
    · intro p
      have hzero : [event].countP (Event.records p) = 0 := by simp [hsilent p]
      rw [List.countP_append, hzero]
      exact Nat.le_trans (hkept.recorded p) (hcount p)
    · intro c evaluated decision hmem
      obtain hpast | hnew := List.mem_append.mp hmem
      · exact hkept.inScope c evaluated decision hpast
      · rw [← List.mem_singleton.mp hnew] at hsilent
        cases hsilent fun _ => true
  · refine ⟨hpresent, hterms, ?_, ?_,
      hkept.bind_transaction hsession hstore hinvocation hexact⟩
    · intro p
      have hpast := hkept.recorded p
      rw [hdecisions, List.countP_append]
      by_cases hp : p decision = true
      · rw [List.countP_cons_of_pos hp]
        simp only [List.countP_cons, List.countP_nil, Event.records, hp, if_true]
        omega
      · rw [List.countP_cons_of_neg hp]
        simpa [Event.records, hp] using hpast
    · intro c' evaluated' decision' hmem hcounts hmatched
      obtain hpast | hnew := List.mem_append.mp hmem
      · exact hkept.inScope c' evaluated' decision' hpast hcounts hmatched
      · cases List.mem_singleton.mp hnew
        obtain ⟨ctx, accesses, row, -, -, hscoped, -⟩ :=
          hkept.applicable hsession hstore hinvocation hcounts hmatched
        exact ⟨allowed_of_countsTowardLimits hinvocation hcounts, hscoped⟩

end Steps

/-- The hourly limits of a grant bind in every run, for a grant of a chamber or a
Citadel when the requests of its scope come from one session. -/
theorem hourlyLimits_bind_of_oneSession {s s' : EngineState} {events : List Event}
    {grant : ToolGrantRecord} {session : String} (hexact : ExactToolName grant.toolPattern)
    (hmem : grant ∈ s.store.grants)
    (hunique : ∀ row ∈ s.store.grants, row.grantId = grant.grantId → row = grant)
    (h : Run (Restrict Step (FromOneSession grant session)) s events s') :
    HourlyLimitsBind grant events := by
  have hstart : LimitsKept grant session [] s := by
    refine ⟨⟨grant, hmem, rfl⟩, ?_, fun p => Nat.zero_le _,
      fun _ _ _ hnone => absurd hnone List.not_mem_nil, fun _ _ _ => Nat.zero_le _,
      fun _ _ _ => Nat.zero_le _, fun _ _ _ hnone => absurd hnone List.not_mem_nil⟩
    intro row hrow hid
    rw [hunique row hrow hid]
    exact .refl grant
  have hstep : ∀ past s event s', Restrict Step (FromOneSession grant session) s event s' →
      LimitsKept grant session past s → LimitsKept grant session (past ++ [event]) s' := by
    intro past s event s' hstep hkept
    exact hkept.step hstep.1 hexact hstep.2
  exact (h.invariant_of_history hstep hstart).binds

/-! ## A grant of a Citadel -/

/-- One call of the clock an hour, in the Citadel `c1`. -/
def clockGrant : ToolGrantRecord where
  grantId := "g1"
  toolPattern := "time.now"
  decision := .allow
  scope := .citadel
  scopeRef := "c1"
  grantType := .persistent
  constraints := some { maxCallsPerHour := some 1 }

def clockRequest (sessionId : String) : ToolRequest where
  toolName := "time.now"
  args := some []
  agentId := "assistant"
  sessionId := sessionId
  citadelId := some "c1"

def clockState : EngineState where
  store := { emptyStore with grants := [clockGrant] }
  now := 0
  calls := fun _ => .idle

def clockEvaluated (store : Store) (sessionId : String) : Evaluated :=
  evaluatedAt smallInstall store 0 (clockRequest sessionId) none

def clockDecision (store : Store) (sessionId : String) : ToolAccessDecisionRecord :=
  decisionAt (clockEvaluated store sessionId) "d"

/-- The state after the call of the first session. -/
def clockStateAfter : EngineState :=
  clockState.afterEvaluated 0 (clockEvaluated clockState.store "s1")
    (clockDecision clockState.store "s1")

theorem clockGrant_exact : ExactToolName clockGrant.toolPattern :=
  ⟨by decide, by decide⟩

theorem clockGrant_unique : ∀ row ∈ clockState.store.grants,
    row.grantId = clockGrant.grantId → row = clockGrant := by
  intro row hrow _
  exact List.mem_singleton.mp hrow

/-- The limits bind on two calls of one session. -/
theorem clockGrant_binds_in_session :
    HourlyLimitsBind clockGrant
      ([.other, .evaluated 0 (clockEvaluated clockState.store "s1")
        (clockDecision clockState.store "s1")] ++
      [.other, .evaluated 1 (clockEvaluated clockStateAfter.store "s1")
        (clockDecision clockStateAfter.store "s1")]) := by
  apply hourlyLimits_bind_of_oneSession clockGrant_exact (List.mem_singleton.mpr rfl)
    clockGrant_unique
  have hfirst := @run_evaluated (FromOneSession clockGrant "s1") clockState 0
    (clockEvaluated clockState.store "s1") (clockDecision clockState.store "s1") rfl
    (by decide +kernel) rfl rfl rfl
    (invocationEvaluation_evaluatedAt "d" (by decide +kernel) (by decide +kernel))
    (fun _ => trivial) (fun _ _ _ _ => rfl)
  have hsecond := @run_evaluated (FromOneSession clockGrant "s1") clockStateAfter 1
    (clockEvaluated clockStateAfter.store "s1") (clockDecision clockStateAfter.store "s1") rfl
    (by decide +kernel) rfl rfl rfl
    (invocationEvaluation_evaluatedAt "d" (by decide +kernel) (by decide +kernel))
    (fun _ => trivial) (fun _ _ _ _ => rfl)
  exact hfirst.append hsecond

/-- Two sessions of the Citadel call the clock in one hour, each within its own
count. -/
theorem citadelGrant_exceeds_limit :
    ¬ ∀ (s s' : EngineState) (events : List Event) (grant : ToolGrantRecord),
      ExactToolName grant.toolPattern → grant ∈ s.store.grants →
      (∀ row ∈ s.store.grants, row.grantId = grant.grantId → row = grant) →
      Run Step s events s' → HourlyLimitsBind grant events := by
  intro hbinds
  have hfirst := @run_evaluated (fun _ _ => True) clockState 0
    (clockEvaluated clockState.store "s1") (clockDecision clockState.store "s1") rfl
    (by decide +kernel) rfl rfl rfl
    (invocationEvaluation_evaluatedAt "d" (by decide +kernel) (by decide +kernel))
    (fun _ => trivial) (fun _ => trivial)
  have hsecond := @run_evaluated (fun _ _ => True) clockStateAfter 1
    (clockEvaluated clockStateAfter.store "s2") (clockDecision clockStateAfter.store "s2") rfl
    (by decide +kernel) rfl rfl rfl
    (invocationEvaluation_evaluatedAt "d" (by decide +kernel) (by decide +kernel))
    (fun _ => trivial) (fun _ => trivial)
  have hcalls := (hbinds _ _ _ clockGrant clockGrant_exact (List.mem_singleton.mpr rfl)
    clockGrant_unique (hfirst.append hsecond).of_restrict).calls 1 rfl 0
  revert hcalls
  decide +kernel

end GoatCitadel.Policy
