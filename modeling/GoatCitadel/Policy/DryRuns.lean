import GoatCitadel.Policy.Approvals

/-!
# Dry runs

`invoke` ends a dry run after its evaluation, before the executor.  An
evaluation that asks comes first, though: the request is then registered under
an approval with its `dryRun` mark, and `executeApprovedAction` does not look at
the mark.

Away from dry runs that ask, no waiting row and no call on its way to the
executor carries the mark.
-/

namespace GoatCitadel.Policy

open GoatCitadel.Support

/-- The evaluation of the request asks for an approval. -/
def Asks (engine : Engine) (store : Store) (now : Nat) (input : AccessInput) : Prop :=
  ∃ evaluation, evaluateAccessInternal engine store now input = .ok evaluation ∧
    evaluation.allowed = true ∧ evaluation.requiresApproval = true

/-- No dry run that `invoke` evaluates asks for an approval. -/
def DryRunsNeverAsk (_ : EngineState) : Event → Prop
  | .evaluated _ evaluated _ =>
      evaluated.approvalId = none → evaluated.request.dryRun = some true →
        ¬Asks evaluated.engine evaluated.store evaluated.now
          { request := evaluated.request, options := evaluated.options }
  | _ => True

/-- The executor runs a request that is marked as a dry run. -/
def Event.runsDry : Event → Bool
  | .ran _ execution => execution.request.dryRun = some true
  | _ => false

/-- No dry run waits for an approval. -/
def Store.NoDryRunWaits (store : Store) : Prop :=
  ∀ approvalId row, store.pendingActions approvalId = some row →
    row.actionType = .toolInvoke → row.resolutionStatus = .pending →
      row.request.dryRun ≠ some true

/-- What the call carries to the executor is not marked. -/
def Phase.Unmarked : Phase → Prop
  | .asking evaluated => evaluated.request.dryRun ≠ some true
  | .checking _ request => request.dryRun ≠ some true
  | .confirming _ request _ _ => request.dryRun ≠ some true
  | .replaying _ request => request.dryRun ≠ some true
  | .dispatching evaluated _ => evaluated.request.dryRun ≠ some true
  | .running evaluated _ => evaluated.request.dryRun ≠ some true
  | _ => True

structure NoDryRunUnderWay (s : EngineState) : Prop where
  rows : s.store.NoDryRunWaits
  calls : ∀ c, (s.calls c).Unmarked

/-! ## Steps -/

section Steps

variable {s s' : EngineState} {event : Event} {approvalId : String} {row : PendingApprovalAction}

theorem eq_of_markResolved {store : Store} {resolved : String} {status : ResolutionStatus}
    (hrow : (store.markResolved resolved status).pendingActions approvalId = some row)
    (hpending : row.resolutionStatus = .pending) : store.pendingActions approvalId = some row := by
  by_cases hsame : approvalId = resolved
  · subst hsame
    simp only [Store.markResolved, Function.update_self, Option.map_eq_some_iff] at hrow
    obtain ⟨before, hbefore, hafter⟩ := hrow
    split at hafter
    · next hwaiting =>
        have hstatus : status = .pending := by
          rw [← hafter] at hpending
          exact hpending
        rw [hstatus] at hafter
        rw [hbefore, ← hafter, ← hwaiting]
    · rw [hbefore, hafter]
  · simpa [Store.markResolved, Function.update_of_ne hsame] using hrow

theorem eq_of_resolveUnlessDeferred {store : Store} {call : ApprovedCall}
    (hrow : (store.resolveUnlessDeferred call).pendingActions approvalId = some row)
    (hpending : row.resolutionStatus = .pending) : store.pendingActions approvalId = some row := by
  unfold Store.resolveUnlessDeferred at hrow
  split at hrow
  · exact hrow
  · exact eq_of_markResolved hrow hpending

/-- A waiting row was there before the step, or it was registered by it. -/
theorem waiting_of_step (h : Step s event s') (hrow : s'.store.pendingActions approvalId = some row)
    (hpending : row.resolutionStatus = .pending) :
    s.store.pendingActions approvalId = some row ∨ row.actionType ≠ .toolInvoke ∨
      ∃ c evaluated, s.calls c = .asking evaluated ∧
        row.request = { evaluated.request with approvedByApprovalId := none } := by
  cases h with
  | @asks c evaluated added _ _ phase =>
      by_cases hsame : approvalId = added
      · subst hsame
        simp only [EngineState.withStore, EngineState.goTo, Store.registerApproval,
          Function.update_self, Option.some.injEq] at hrow
        exact Or.inr (Or.inr ⟨c, evaluated, phase, by rw [← hrow]⟩)
      · left
        simpa [EngineState.withStore, EngineState.goTo, Store.registerApproval,
          Function.update_of_ne hsame] using hrow
  | @registersOther added pending kind =>
      by_cases hsame : approvalId = added
      · subst hsame
        simp only [EngineState.withStore, Function.update_self, Option.some.injEq] at hrow
        exact Or.inr (Or.inl (by rw [← hrow]; exact kind))
      · left
        simpa [EngineState.withStore, Function.update_of_ne hsame] using hrow
  | refuses => exact Or.inl (eq_of_resolveUnlessDeferred hrow hpending)
  | blocks => exact Or.inl (eq_of_resolveUnlessDeferred hrow hpending)
  | resolves => exact Or.inl (eq_of_markResolved hrow hpending)
  | resolvesElsewhere => exact Or.inl (eq_of_markResolved hrow hpending)
  | dispatches _ consumed =>
      obtain ⟨_, rfl⟩ | ⟨_, _, _, rfl⟩ := Store.consumeFor_eq_some consumed
      · exact Or.inl hrow
      · exact Or.inl hrow
  | _ => exact Or.inl hrow

theorem unmarked_update {calls : Nat → Phase} {c : Nat} {phase : Phase}
    (h : ∀ c, (calls c).Unmarked) (hphase : phase.Unmarked) (other : Nat) :
    (Function.update calls c phase other).Unmarked := by
  by_cases hc : other = c
  · subst hc
    rw [Function.update_self]
    exact hphase
  · rw [Function.update_of_ne hc]
    exact h other

theorem unmarked_afterNothing (call : ApprovedCall) : (Phase.afterNothing call).Unmarked := by
  unfold Phase.afterNothing
  split <;> exact trivial

theorem unmarked_afterExecution (resolves : Option String) (status : ResolutionStatus) :
    (Phase.afterExecution resolves status).Unmarked := by
  unfold Phase.afterExecution
  split <;> exact trivial

/-- `invoke` stops a dry run that does not ask. -/
theorem unmarked_afterEvaluation {c : Nat} {evaluated : Evaluated} {recordedAt : Nat}
    {decision : ToolAccessDecisionRecord}
    (hdry : DryRunsNeverAsk s (.evaluated c evaluated decision))
    (happroval : evaluated.approvalId = none)
    (h : InvocationEvaluation evaluated recordedAt decision) :
    (Phase.afterEvaluation evaluated).Unmarked := by
  unfold Phase.afterEvaluation
  split
  · trivial
  next hallowed =>
  split
  · next hask =>
      intro hmarked
      apply hdry happroval hmarked
      exact ⟨evaluated.evaluation, h.evaluation, by simpa using hallowed, hask⟩
  split
  · trivial
  · next hmarked => exact hmarked

theorem dryRun_approvedRequest {stored request : ToolRequest}
    (parsed : asToolInvokeRequest stored = .ok request) :
    (approvedRequest approvalId request).dryRun = stored.dryRun := by
  unfold asToolInvokeRequest at parsed
  split at parsed
  · cases parsed
  · cases parsed
    rfl

theorem unmarked_executionRequest {call : ApprovedCall} {request : ToolRequest}
    (h : request.dryRun ≠ some true) : (call.executionRequest request).dryRun ≠ some true := by
  unfold ApprovedCall.executionRequest
  split
  · nofun
  · exact h

theorem calls_unmarked_of_step (h : Step s event s') (hs : NoDryRunUnderWay s)
    (hdry : DryRunsNeverAsk s event) : ∀ c, (s'.calls c).Unmarked := by
  have hupdate : ∀ {c : Nat} {phase : Phase}, phase.Unmarked →
      ∀ other, (Function.update s.calls c phase other).Unmarked :=
    fun hphase => unmarked_update hs.calls hphase
  cases h with
  | evaluates _ _ _ approval evaluation =>
      exact hupdate (unmarked_afterEvaluation hdry approval evaluation)
  | fetchesNothing => exact hupdate (unmarked_afterNothing _)
  | refuses => exact hupdate (unmarked_afterNothing _)
  | fetches _ row waiting supported parsed =>
      apply hupdate
      show (approvedRequest _ _).dryRun ≠ some true
      rw [dryRun_approvedRequest parsed]
      exact hs.rows _ _ row supported waiting
  | @approvedReads c _ _ _ _ phase =>
      have hcall := hs.calls c
      rw [phase] at hcall
      exact hupdate hcall
  | @approvedVerifies c _ _ _ _ _ phase =>
      have hcall := hs.calls c
      rw [phase] at hcall
      exact hupdate hcall
  | @replays c call request evaluated _ _ phase executed =>
      have hcall := hs.calls c
      rw [phase] at hcall
      apply hupdate
      unfold Phase.afterReplay
      split
      · show evaluated.request.dryRun ≠ some true
        rw [executed]
        exact unmarked_executionRequest hcall
      · trivial
  | @dispatches c _ _ _ phase =>
      have hcall := hs.calls c
      rw [phase] at hcall
      exact hupdate hcall
  | grantGone => exact hupdate (unmarked_afterExecution _ _)
  | runs => exact hupdate (unmarked_afterExecution _ _)
  | handsOver => exact hupdate (unmarked_afterExecution _ _)
  | decides => exact hs.calls
  | createsGrant => exact hs.calls
  | revokes => exact hs.calls
  | registersOther => exact hs.calls
  | resolvesElsewhere => exact hs.calls
  | advises => exact hs.calls
  | rearranges => exact hs.calls
  | ticks => exact hs.calls
  | _ => exact hupdate trivial

theorem NoDryRunUnderWay.step (h : Step s event s') (hdry : DryRunsNeverAsk s event)
    (hs : NoDryRunUnderWay s) : NoDryRunUnderWay s' where
  rows := by
    intro approvalId row hrow hkind hpending
    obtain hbefore | hother | ⟨c, evaluated, hphase, hrequest⟩ := waiting_of_step h hrow hpending
    · exact hs.rows approvalId row hbefore hkind hpending
    · exact absurd hkind hother
    · have hcall := hs.calls c
      rw [hphase] at hcall
      rw [hrequest]
      exact hcall
  calls := calls_unmarked_of_step h hs hdry

theorem not_runsDry_of_step (h : Step s event s') (hs : NoDryRunUnderWay s) :
    ¬event.runsDry = true := by
  cases h with
  | @runs c evaluated _ _ phase =>
      have hcall := hs.calls c
      rw [phase] at hcall
      simpa [Event.runsDry, Phase.Unmarked] using hcall
  | _ => simp [Event.runsDry]

end Steps

/-- When no dry run asks for an approval, the executor runs none. -/
theorem dryRun_not_executed_of_neverAsk {s s' : EngineState} {events : List Event}
    (hidle : ∀ c, s.calls c = .idle) (hrows : s.store.NoDryRunWaits)
    (h : Run (Restrict Step DryRunsNeverAsk) s events s') :
    ∀ event ∈ events, ¬event.runsDry = true := by
  have hstep : ∀ s event s', Restrict Step DryRunsNeverAsk s event s' → NoDryRunUnderWay s →
      NoDryRunUnderWay s' ∧ ¬event.runsDry = true := by
    intro s event s' hstep hs
    exact ⟨hs.step hstep.1 hstep.2, not_runsDry_of_step hstep.1 hs⟩
  have hstart : NoDryRunUnderWay s := by
    refine ⟨hrows, ?_⟩
    intro c
    rw [hidle c]
    trivial
  exact h.forall_labels hstep hstart

/-! ## A dry run that asks -/

/-- The state after a request asked and the operator approved it. -/
def EngineState.afterApproval (s : EngineState) (c : Nat) (approvalId : String)
    (evaluated : Evaluated) (decision : ToolAccessDecisionRecord) : EngineState :=
  (s.goTo c .done).withStore
    { (s.store.record decision).registerApproval evaluated approvalId .pending s.now
        (s.now + Store.defaultApprovalTtlMs) with
      approvals := Function.update (Function.update s.store.approvals approvalId
        (some .pending)) approvalId (some .approved) }

/-- A request asks, and the operator approves it. -/
theorem run_to_approved {s : EngineState} {c : Nat} {approvalId : String}
    {evaluated : Evaluated} {decision : ToolAccessDecisionRecord}
    (idle : s.calls c = .idle) (reference : directApprovalId evaluated.request = none)
    (store : evaluated.store = s.store) (now : evaluated.now = s.now)
    (approval : evaluated.approvalId = none)
    (evaluation : InvocationEvaluation evaluated s.now decision)
    (allowed : evaluated.evaluation.allowed = true)
    (asking : evaluated.evaluation.requiresApproval = true)
    (identifier : isApprovalId approvalId = true)
    (fresh : s.store.pendingActions approvalId = none) :
    Run Step s [.other, .evaluated c evaluated decision, .other, .other]
      (s.afterApproval c approvalId evaluated decision) := by
  have hevaluated : Run (Restrict Step fun _ _ => True) s _ _ :=
    run_evaluated idle reference store now approval evaluation (fun _ => trivial) fun _ => trivial
  have hafter : Phase.afterEvaluation evaluated = .asking evaluated := by
    simp [Phase.afterEvaluation, allowed, asking]
  unfold EngineState.afterEvaluated at hevaluated
  rw [hafter] at hevaluated
  refine hevaluated.of_restrict.append (.cons (@Step.asks _ c evaluated approvalId .pending
    (s.now + Store.defaultApprovalTtlMs) ?_ identifier fresh) (.single ?_))
  · exact EngineState.goTo_calls_self _
  · have hdecides := @Step.decides
      ((s.goTo c .done).withStore
        ((s.store.record decision).registerApproval evaluated approvalId .pending s.now
          (s.now + Store.defaultApprovalTtlMs))) approvalId .approved
    simp only [EngineState.goTo, EngineState.withStore, Function.update_idem] at hdecides ⊢
    exact hdecides

def dryWrite : ToolRequest :=
  { draftWrite with dryRun := some true }

def emptyState : EngineState where
  store := emptyStore
  now := 0
  calls := fun _ => .idle

/-- The evaluation of the dry run, which asks. -/
def dryEvaluated : Evaluated :=
  evaluatedAt draftingInstall emptyStore 0 dryWrite none

def dryApproved : EngineState :=
  emptyState.afterApproval 0 "a1" dryEvaluated (decisionAt dryEvaluated "d0")

/-- The evaluation of the dry run once it is approved. -/
def dryReplayed : Evaluated :=
  evaluatedAt draftingInstall dryApproved.store 0 (approvedRequest "a1" dryWrite) (some "a1")

def clockInstall : Engine :=
  { smallInstall with
    config := { smallInstall.config with tools := { allow := ["time.now"] } } }

/-- The dry run of a tool that needs no approval. -/
def clockDryRun : Evaluated :=
  evaluatedAt clockInstall emptyStore 0
    { toolName := "time.now", args := some [], agentId := "assistant", sessionId := "s1",
      dryRun := some true } none

/-- A dry run that does not ask ends after its evaluation. -/
theorem clockDryRun_not_executed :
    ¬∃ event ∈ [Event.other, .evaluated 0 clockDryRun (decisionAt clockDryRun "d0")],
      event.runsDry = true := by
  have hevaluation : InvocationEvaluation clockDryRun 0 (decisionAt clockDryRun "d0") :=
    invocationEvaluation_evaluatedAt "d0" (by decide +kernel) (by decide +kernel)
  have hinvokes : Step emptyState .other
      (emptyState.goTo 0 (.evaluating clockDryRun.request clockDryRun.options)) :=
    .invokes rfl (by decide +kernel)
  have hevaluates := @Step.evaluates
    (emptyState.goTo 0 (.evaluating clockDryRun.request clockDryRun.options)) 0 clockDryRun 0
    (decisionAt clockDryRun "d0") rfl rfl rfl rfl hevaluation
  have hdry : DryRunsNeverAsk
      (emptyState.goTo 0 (.evaluating clockDryRun.request clockDryRun.options))
      (.evaluated 0 clockDryRun (decisionAt clockDryRun "d0")) := by
    intro _ _ hasks
    obtain ⟨evaluation, hevaluated, _, hrequires⟩ := hasks
    rw [hevaluation.evaluation] at hevaluated
    cases hevaluated
    revert hrequires
    decide +kernel
  rintro ⟨event, hevent, hruns⟩
  exact dryRun_not_executed_of_neverAsk (fun _ => rfl) (fun _ _ hrow => by cases hrow)
    (.cons ⟨hinvokes, trivial⟩ (.single ⟨hevaluates, hdry⟩)) event hevent hruns

/-- A dry run asks, the operator approves it, and the executor runs it. -/
theorem approved_dryRun_executes :
    ¬ ∀ (s s' : EngineState) (events : List Event),
      (∀ c, s.calls c = .idle) → s.store.NoDryRunWaits → Run Step s events s' →
        ∀ event ∈ events, ¬event.runsDry = true := by
  intro hnever
  have hasked : Run Step emptyState
      [.other, .evaluated 0 dryEvaluated (decisionAt dryEvaluated "d0"), .other, .other]
      dryApproved :=
    run_to_approved rfl (by decide +kernel) rfl rfl rfl
      (invocationEvaluation_evaluatedAt "d0" (by decide +kernel) (by decide +kernel))
      (by decide +kernel) (by decide +kernel) (by decide +kernel) rfl
  have hverified := @run_to_replaying (fun _ _ => True) dryApproved 1 draftingInstall "a1" _
    dryWrite rfl rfl (by decide +kernel) rfl (by decide +kernel) (by decide +kernel)
    (fun _ => trivial) (fun _ => trivial) (fun _ => trivial)
  have hran := @run_of_replaying (fun _ _ => True)
    (dryApproved.goTo 1 (.replaying (.plain "a1") (approvedRequest "a1" dryWrite))) 1 "a1"
    (approvedRequest "a1" dryWrite) dryReplayed (decisionAt dryReplayed "d1") rfl rfl rfl rfl
    rfl rfl (invocationEvaluation_evaluatedAt "d1" (by decide +kernel) (by decide +kernel))
    (by decide +kernel) (by decide +kernel) (by decide +kernel) trivial (fun _ => trivial)
    (fun _ => trivial)
  have hrun := hasked.append (hverified.append hran).of_restrict
  have hnot := hnever _ _ _ (fun _ => rfl) (fun _ _ hrow => by cases hrow) hrun
    (.ran 1 dryReplayed) (by simp)
  exact hnot rfl

end GoatCitadel.Policy
