import GoatCitadel.Policy.HardGates
import GoatCitadel.Policy.Invocation

/-!
# Single use of approvals

An approval is used by reading its waiting row, checking the reference against
it, evaluating the request, running the tool and resolving the row, in that
order and in as many steps.  A call is said to hold the approval from its read
to its resolution.

Nothing keeps a second call from reading the row in between, and then the tool
runs twice.  When no call reads the row while another one holds the approval,
a run leaves the approval spent: its holder is about to resolve the row, or the
row is settled and nobody holds the approval.  A spent approval stays spent, and
no reference to it passes verification.
-/

namespace GoatCitadel.Policy

open GoatCitadel.Support

/-! ## Uses of an approval -/

/-- The approval whose reference the evaluation itself verified. -/
def Evaluated.verifiedReference (evaluated : Evaluated) : Option String :=
  evaluated.context.toOption.bind
    (approvalBypassId evaluated.engine evaluated.store evaluated.now)

/-- The execution is made under the approval. -/
def Evaluated.under (approvalId : String) (evaluated : Evaluated) : Bool :=
  evaluated.approvalId = some approvalId || evaluated.verifiedReference = some approvalId

/-- The executor runs the action of the approval. -/
def Event.runsUnder (approvalId : String) : Event → Bool
  | .ran _ execution => execution.under approvalId
  | _ => false

/-- A reference to the approval passes verification. -/
def Event.verifies (approvalId : String) : Event → Bool
  | .verified _ reference => reference = approvalId
  | .evaluated _ evaluation _ => evaluation.verifiedReference = some approvalId
  | _ => false

/-- The action of the approval runs at most once, and after it ran no reference
to the approval passes verification. -/
def SingleUse (approvalId : String) (events : List Event) : Prop :=
  events.countP (Event.runsUnder approvalId) ≤ 1 ∧
    events.Pairwise fun earlier later =>
      earlier.runsUnder approvalId = true → ¬later.verifies approvalId = true

/-- The call is between its read of the waiting row and its resolution. -/
def Phase.holds (approvalId : String) : Phase → Prop
  | .looked _ _ held _ => held = approvalId
  | .confirming _ _ held _ => held = approvalId
  | .replaying call _ => call.approvalId = approvalId
  | .dispatching evaluated _ => evaluated.approvalId = some approvalId
  | .running evaluated _ => evaluated.approvalId = some approvalId
  | .resolving held _ => held = approvalId
  | _ => False

/-- No call reads the row of an approval that another call holds.  A request
whose reference verifies only during its ordinary evaluation is one that asks
anyway, and nobody holds the approval then. -/
def Unshared (s : EngineState) : Event → Prop
  | .read c approvalId => ∀ other, other ≠ c → ¬(s.calls other).holds approvalId
  | .evaluated _ evaluated _ =>
      evaluated.approvalId = none → ∀ approvalId,
        evaluated.verifiedReference = some approvalId →
          (∀ ctx, evaluated.context = .ok ctx →
            ctx.request.toolName = codeModeRequestToolName) ∧
          ∀ other, ¬(s.calls other).holds approvalId
  | _ => True

/-- No call is under way, and the rows carry identifiers of approvals. -/
structure EngineState.Starts (s : EngineState) : Prop where
  idle : ∀ c, s.calls c = .idle
  identifiers : ∀ approvalId, s.store.pendingActions approvalId ≠ none →
    isApprovalId approvalId = true

/-! ## References -/

variable {store store' : Store} {approvalId : String}

theorem not_isTrimmed_of_isApprovalIdChar {c : Char} (h : isApprovalIdChar c = true) :
    isTrimmed c = false := by
  have hbounds : 0x2D ≤ c.toNat ∧ c.toNat ≤ 0x7A := by
    simp only [isApprovalIdChar, Bool.or_eq_true, Bool.and_eq_true, decide_eq_true_eq,
      beq_iff_eq, Char.le_def, UInt32.le_iff_toNat_le] at h
    obtain (((h | h) | h) | rfl) | rfl := h
    · exact ⟨Nat.le_trans (by decide) h.1, Nat.le_trans h.2 (by decide)⟩
    · exact ⟨Nat.le_trans (by decide) h.1, Nat.le_trans h.2 (by decide)⟩
    · exact ⟨Nat.le_trans (by decide) h.1, Nat.le_trans h.2 (by decide)⟩
    · decide
    · decide
  unfold isTrimmed
  simp only [Bool.or_eq_false_iff, Bool.and_eq_false_iff, decide_eq_false_iff_not,
    beq_eq_false_iff_ne]
  omega

theorem trim_eq_self {text : String} (h : ∀ c ∈ text.toList, isTrimmed c = false) :
    trim text = text := by
  have hkeep : ∀ chars : List Char, (∀ c ∈ chars, isTrimmed c = false) →
      chars.dropWhile isTrimmed = chars := by
    intro chars hchars
    cases chars with
    | nil => rfl
    | cons c rest => rw [List.dropWhile_cons_of_neg (by simp [hchars c])]
  unfold trim
  rw [hkeep _ h, hkeep _ (by simpa using h), List.reverse_reverse, String.ofList_toList]

/-- The reference of an approved request names its approval. -/
theorem extractApprovalId_of_consentReason {request : ToolRequest}
    (hid : isApprovalId approvalId = true)
    (hreason : request.consentReason = some ("approval:" ++ approvalId)) :
    extractApprovalId request = some approvalId := by
  obtain ⟨hne, hall⟩ := Bool.and_eq_true_iff.mp hid
  rw [List.all_eq_true] at hall
  have htrim : trim ("approval:" ++ approvalId) = "approval:" ++ approvalId := by
    have hhead : "approval:".toList.all (fun c => !isTrimmed c) = true := by decide
    apply trim_eq_self
    intro c hc
    rw [String.toList_append, List.mem_append] at hc
    obtain hc | hc := hc
    · simpa using List.all_eq_true.mp hhead c hc
    · exact not_isTrimmed_of_isApprovalIdChar (hall c hc)
  have hdrop : ("approval:" ++ approvalId).toList.drop "approval:".toList.length =
      approvalId.toList := by
    rw [String.toList_append, List.drop_left]
  have hfront : "approval:".toList.isPrefixOf ("approval:" ++ approvalId).toList = true := by
    rw [String.toList_append, List.isPrefixOf_iff_prefix]
    exact List.prefix_append _ _
  unfold extractApprovalId
  simp only [hreason, Option.bind_eq_bind, Option.bind_some, htrim, hdrop, hfront,
    Bool.true_and]
  rw [hne, Bool.true_and, if_pos (List.all_eq_true.mpr hall), String.ofList_toList]

theorem pending_of_findFreshPending {now : Nat} {pending : PendingApprovalAction}
    (h : store.findFreshPending now approvalId = some pending) :
    store.pendingActions approvalId = some pending ∧ pending.resolutionStatus = .pending := by
  obtain ⟨hrow, hfresh⟩ := Option.filter_eq_some_iff.mp h
  simp only [Bool.and_eq_true, decide_eq_true_eq] at hfresh
  exact ⟨hrow, hfresh.1⟩

theorem isSome_of_getVerifiedApprovalBypassId {stableStringify : StableStringify} {now : Nat}
    {request : ToolRequest}
    (h : getVerifiedApprovalBypassId stableStringify store now request = some approvalId) :
    extractApprovalId request = some approvalId ∧
      ∃ pending, store.pendingActions approvalId = some pending ∧
        pending.resolutionStatus = .pending := by
  simp only [getVerifiedApprovalBypassId, Option.bind_eq_bind, Option.bind_eq_some_iff] at h
  obtain ⟨referenced, hreference, pending, hpending, h⟩ := h
  split at h
  · cases h
    exact ⟨hreference, pending, pending_of_findFreshPending hpending⟩
  · cases h

/-! ## Rows -/

/-- Rows stay, with their requests, and a settled row stays settled. -/
def RowsKept (store store' : Store) : Prop :=
  ∀ approvalId row, store.pendingActions approvalId = some row →
    ∃ row', store'.pendingActions approvalId = some row' ∧ row'.request = row.request ∧
      (row.resolutionStatus ≠ .pending → row'.resolutionStatus ≠ .pending)

theorem RowsKept.of_eq (h : store'.pendingActions = store.pendingActions) :
    RowsKept store store' := by
  intro approvalId row hrow
  exact ⟨row, by rw [h, hrow], rfl, id⟩

theorem RowsKept.markResolved (store : Store) (approvalId : String)
    {status : ResolutionStatus} (h : status ≠ .pending) :
    RowsKept store (store.markResolved approvalId status) := by
  intro other row hrow
  by_cases hsame : other = approvalId
  · subst hsame
    simp only [Store.markResolved, Function.update_self, hrow, Option.map_some]
    split
    · exact ⟨_, rfl, rfl, fun _ => h⟩
    · exact ⟨_, rfl, rfl, id⟩
  · exact ⟨row, by simp [Store.markResolved, Function.update_of_ne hsame, hrow], rfl, id⟩

theorem RowsKept.resolveUnlessDeferred (store : Store) (call : ApprovedCall) :
    RowsKept store (store.resolveUnlessDeferred call) := by
  unfold Store.resolveUnlessDeferred
  split
  · exact .of_eq rfl
  · exact .markResolved store _ (by decide)

theorem ne_none_of_markResolved {resolved : String} {status : ResolutionStatus}
    (h : (store.markResolved resolved status).pendingActions approvalId ≠ none) :
    store.pendingActions approvalId ≠ none := by
  intro hnone
  apply h
  by_cases hsame : approvalId = resolved
  · subst hsame
    simp [Store.markResolved, hnone]
  · simp [Store.markResolved, Function.update_of_ne hsame, hnone]

theorem ne_none_of_resolveUnlessDeferred {call : ApprovedCall}
    (h : (store.resolveUnlessDeferred call).pendingActions approvalId ≠ none) :
    store.pendingActions approvalId ≠ none := by
  unfold Store.resolveUnlessDeferred at h
  split at h
  · exact h
  · exact ne_none_of_markResolved h

/-- A row is added under an identifier that has none. -/
theorem RowsKept.of_update {row : Option PendingApprovalAction}
    (fresh : store.pendingActions approvalId = none)
    (h : store'.pendingActions = Function.update store.pendingActions approvalId row) :
    RowsKept store store' := by
  intro other kept hkept
  have hne : other ≠ approvalId := by
    rintro rfl
    rw [fresh] at hkept
    cases hkept
  exact ⟨kept, by rw [h, Function.update_of_ne hne, hkept], rfl, id⟩

theorem RowsKept.consumeFor {now : Nat} {evaluation : AccessEvaluation}
    (h : store.consumeFor now evaluation = some store') : RowsKept store store' := by
  obtain ⟨_, rfl⟩ | ⟨grantId, _, _, rfl⟩ := Store.consumeFor_eq_some h
  · exact .of_eq rfl
  · exact .of_eq rfl

/-! ## Phases of calls -/

/-- The request of an approved call carries its reference, and the resolution is
deferred for the external runtime only. -/
def ApprovedCall.Refers (call : ApprovedCall) (request : ToolRequest) : Prop :=
  extractApprovalId request = some call.approvalId ∧
    (call.deferResolution = true → request.externalRuntime = some true)

/-- An execution under an approval resolves its row, unless it takes place in
the external runtime. -/
def Evaluated.Accounted (evaluated : Evaluated) (resolves : Option String) : Prop :=
  (∀ approvalId, evaluated.under approvalId = true → evaluated.approvalId = some approvalId) ∧
    (resolves = evaluated.approvalId ∨
      resolves = none ∧ evaluated.request.externalRuntime = some true)

/-- What a call carries agrees with the rows. -/
def Phase.Consistent (store : Store) : Phase → Prop
  | .looked _ _ approvalId pending =>
      ∃ row, store.pendingActions approvalId = some row ∧ row.request = pending.request
  | .fetching call => call.deferResolution = true →
      ∃ row, store.pendingActions call.approvalId = some row ∧
        row.request.externalRuntime = some true
  | .checking call request => call.Refers request
  | .confirming call request approvalId _ => approvalId = call.approvalId ∧ call.Refers request
  | .replaying call request => call.Refers request
  | .dispatching evaluated resolves => evaluated.Accounted resolves
  | .running evaluated resolves => evaluated.Accounted resolves
  | .resolving _ status => status ≠ .pending
  | _ => True

theorem Phase.Consistent.mono (hrows : RowsKept store store') {phase : Phase}
    (h : phase.Consistent store) : phase.Consistent store' := by
  cases phase with
  | looked request options approvalId pending =>
      obtain ⟨row, hrow, hrequest⟩ := h
      obtain ⟨row', hrow', hrequest', _⟩ := hrows approvalId row hrow
      exact ⟨row', hrow', hrequest'.trans hrequest⟩
  | fetching call =>
      intro hdefer
      obtain ⟨row, hrow, hexternal⟩ := h hdefer
      obtain ⟨row', hrow', hrequest', _⟩ := hrows call.approvalId row hrow
      exact ⟨row', hrow', by rw [hrequest']; exact hexternal⟩
  | _ => exact h

/-- A step gives one call a new phase at most. -/
theorem consistent_update {calls : Nat → Phase} {c : Nat} {phase : Phase}
    (hrows : RowsKept store store') (h : ∀ c, (calls c).Consistent store)
    (hphase : phase.Consistent store') (other : Nat) :
    (Function.update calls c phase other).Consistent store' := by
  by_cases hc : other = c
  · subst hc
    rw [Function.update_self]
    exact hphase
  · rw [Function.update_of_ne hc]
    exact (h other).mono hrows

theorem consistent_afterNothing (store : Store) (call : ApprovedCall) :
    (Phase.afterNothing call).Consistent store := by
  unfold Phase.afterNothing
  split <;> exact trivial

theorem consistent_afterExecution (store : Store) (resolves : Option String)
    {status : ResolutionStatus} (h : status ≠ .pending) :
    (Phase.afterExecution resolves status).Consistent store := by
  unfold Phase.afterExecution
  split
  · exact h
  · trivial

/-- The reference that an evaluation verifies is the one its request carries. -/
theorem extractApprovalId_of_verifiedReference {evaluated : Evaluated}
    (h : evaluated.verifiedReference = some approvalId) :
    extractApprovalId evaluated.request = some approvalId ∧
      ∃ row, evaluated.store.pendingActions approvalId = some row ∧
        row.resolutionStatus = .pending := by
  unfold Evaluated.verifiedReference at h
  cases hcontext : evaluated.context with
  | error error =>
      rw [hcontext] at h
      cases h
  | ok ctx =>
      rw [hcontext] at h
      obtain ⟨hreference, hrow⟩ := isSome_of_getVerifiedApprovalBypassId h
      obtain ⟨identity, hidentity, hrequest, _⟩ := accessContext_eq_ok hcontext
      obtain ⟨toolName, args, hevaluation⟩ := invocationPolicyFor_evaluationRequest hidentity
      have hreason : extractApprovalId ctx.request = extractApprovalId evaluated.request := by
        rw [hrequest, hevaluation]
        rfl
      exact ⟨hreason ▸ hreference, hrow⟩

/-- An ordinary evaluation that does not share an approval runs under none. -/
theorem consistent_afterEvaluation {s : EngineState} {c : Nat} {evaluated : Evaluated}
    {recordedAt : Nat} {decision : ToolAccessDecisionRecord} (store : Store)
    (hunshared : Unshared s (.evaluated c evaluated decision))
    (happroval : evaluated.approvalId = none)
    (h : InvocationEvaluation evaluated recordedAt decision) :
    (Phase.afterEvaluation evaluated).Consistent store := by
  unfold Phase.afterEvaluation
  split
  · trivial
  next hallowed =>
  split
  · trivial
  next hask =>
  split
  · trivial
  · refine ⟨?_, Or.inl happroval.symm⟩
    intro approvalId hunder
    rw [Evaluated.under, happroval] at hunder
    have hverified : evaluated.verifiedReference = some approvalId := by simpa using hunder
    have hcodeMode := (hunshared happroval approvalId hverified).1
    have hevaluate := h.evaluation
    unfold evaluateAccessInternal at hevaluate
    cases hcontext : evaluated.context with
    | error error =>
        rw [Evaluated.context] at hcontext
        rw [hcontext] at hevaluate
        cases hevaluate
    | ok ctx =>
        have hname := hcodeMode ctx hcontext
        rw [Evaluated.context] at hcontext
        rw [hcontext] at hevaluate
        obtain ⟨accesses, hadmission⟩ := admission_of_allowed hevaluate (by simpa using hallowed)
        have hasks := nothingAsks_of_admission hadmission (by simpa using hask)
        exact absurd hname hasks.notCodeMode

theorem consistent_afterReplay {call : ApprovedCall} {request : ToolRequest}
    {evaluated : Evaluated} (store : Store) (hrefers : call.Refers request)
    (hexecuted : evaluated.request = call.executionRequest request)
    (happroval : evaluated.approvalId = some call.approvalId) :
    (Phase.afterReplay call evaluated).Consistent store := by
  have hrequest : extractApprovalId evaluated.request = some call.approvalId ∧
      (call.deferResolution = true → evaluated.request.externalRuntime = some true) := by
    rw [hexecuted]
    unfold ApprovedCall.executionRequest
    split
    · exact ⟨hrefers.1, fun _ => rfl⟩
    · exact hrefers
  unfold Phase.afterReplay
  split
  · refine ⟨?_, ?_⟩
    · intro approvalId hunder
      rw [Evaluated.under, Bool.or_eq_true, decide_eq_true_eq, decide_eq_true_eq] at hunder
      obtain hunder | hverified := hunder
      · exact hunder
      · obtain ⟨hreference, _⟩ := extractApprovalId_of_verifiedReference hverified
        rw [happroval, ← hrequest.1, hreference]
    · by_cases hdefer : call.deferResolution = true
      · exact Or.inr ⟨if_pos hdefer, hrequest.2 hdefer⟩
      · left
        rw [if_neg hdefer, happroval]
  · trivial

/-! ## Steps -/

/-- What holds of the calls and the rows in every state of a run. -/
structure Orderly (s : EngineState) : Prop where
  identifiers : ∀ approvalId, s.store.pendingActions approvalId ≠ none →
    isApprovalId approvalId = true
  consistent : ∀ c, (s.calls c).Consistent s.store
  known : ∀ c approvalId, (s.calls c).holds approvalId →
    ∃ row, s.store.pendingActions approvalId = some row
  exclusive : ∀ c other approvalId, (s.calls c).holds approvalId →
    (s.calls other).holds approvalId → c = other

theorem Orderly.of_starts {s : EngineState} (h : s.Starts) : Orderly s where
  identifiers := h.identifiers
  consistent := by
    intro c
    rw [h.idle c]
    trivial
  known := by
    intro c approvalId hc
    rw [h.idle c] at hc
    exact hc.elim
  exclusive := by
    intro c other approvalId hc
    rw [h.idle c] at hc
    exact hc.elim

section Steps

variable {s s' : EngineState} {event : Event} {approvalId : String}

theorem rowsKept_of_step (h : Step s event s') (hs : Orderly s) :
    RowsKept s.store s'.store := by
  cases h with
  | asks _ _ fresh => exact .of_update fresh rfl
  | registersOther _ _ fresh => exact .of_update fresh rfl
  | @refuses _ call => exact .resolveUnlessDeferred s.store call
  | @blocks _ call => exact .resolveUnlessDeferred s.store call
  | dispatches _ consumed => exact .consumeFor consumed
  | @resolves c approvalId status phase =>
      have hstatus := hs.consistent c
      rw [phase] at hstatus
      exact .markResolved s.store approvalId hstatus
  | resolvesElsewhere settled => exact .markResolved s.store _ settled
  | _ => exact .of_eq rfl

theorem identifiers_of_step (h : Step s event s') (hs : Orderly s) (approvalId : String)
    (hrow : s'.store.pendingActions approvalId ≠ none) : isApprovalId approvalId = true := by
  cases h with
  | @asks _ _ added _ _ _ identifier =>
      by_cases hsame : approvalId = added
      · rw [hsame]
        exact identifier
      · apply hs.identifiers
        simpa [EngineState.withStore, EngineState.goTo, Store.registerApproval,
          Function.update_of_ne hsame] using hrow
  | @registersOther added _ _ identifier =>
      by_cases hsame : approvalId = added
      · rw [hsame]
        exact identifier
      · apply hs.identifiers
        simpa [EngineState.withStore, Function.update_of_ne hsame] using hrow
  | refuses => exact hs.identifiers _ (ne_none_of_resolveUnlessDeferred hrow)
  | blocks => exact hs.identifiers _ (ne_none_of_resolveUnlessDeferred hrow)
  | resolves => exact hs.identifiers _ (ne_none_of_markResolved hrow)
  | resolvesElsewhere => exact hs.identifiers _ (ne_none_of_markResolved hrow)
  | dispatches _ consumed =>
      apply hs.identifiers
      obtain ⟨_, rfl⟩ | ⟨_, _, _, rfl⟩ := Store.consumeFor_eq_some consumed
      · exact hrow
      · exact hrow
  | _ => exact hs.identifiers approvalId hrow

theorem consistent_of_step (h : Step s event s') (hs : Orderly s) (hunshared : Unshared s event) :
    ∀ c, (s'.calls c).Consistent s'.store := by
  have hrows := rowsKept_of_step h hs
  have hupdate : ∀ {c : Nat} {phase : Phase}, phase.Consistent s'.store →
      ∀ other, (Function.update s.calls c phase other).Consistent s'.store :=
    fun hphase => consistent_update hrows hs.consistent hphase
  cases h with
  | invokes => exact hupdate trivial
  | invokeMisses => exact hupdate trivial
  | invokeReads _ _ row =>
      exact hupdate ⟨_, (Option.filter_eq_some_iff.mp row).1, rfl⟩
  | @invokeVerifies c engine request options approvalId pending phase verified =>
      apply hupdate
      intro hdefer
      have hlooked := hs.consistent c
      rw [phase] at hlooked
      obtain ⟨row, hrow, hrequest⟩ := hlooked
      refine ⟨row, hrow, ?_⟩
      have hexternal : pending.request.externalRuntime = request.externalRuntime := by
        simp only [verifyPendingRow, requestMatchesPendingApproval, Bool.and_eq_true,
          decide_eq_true_eq] at verified
        tauto
      rw [hrequest, hexternal]
      exact of_decide_eq_true hdefer
  | invokeMismatch => exact hupdate trivial
  | evaluates _ _ _ approval evaluation =>
      exact hupdate (consistent_afterEvaluation _ hunshared approval evaluation)
  | asks => exact hupdate trivial
  | approves => exact hupdate (fun hdefer => by cases hdefer)
  | fetchesNothing => exact hupdate (consistent_afterNothing _ _)
  | fetchesUnsupported => exact hupdate trivial
  | @fetches c call pending request phase row waiting supported parsed =>
      apply hupdate
      have hid : isApprovalId call.approvalId = true :=
        hs.identifiers call.approvalId (by rw [row]; exact Option.some_ne_none _)
      refine ⟨extractApprovalId_of_consentReason hid rfl, ?_⟩
      intro hdefer
      have hfetching := hs.consistent c
      rw [phase] at hfetching
      obtain ⟨row', hrow', hexternal⟩ := hfetching hdefer
      rw [row] at hrow'
      cases hrow'
      unfold asToolInvokeRequest at parsed
      split at parsed
      · cases parsed
      · cases parsed
        exact hexternal
  | approvedMisses => exact hupdate trivial
  | @approvedReads c call request approvalId pending phase reference row =>
      apply hupdate
      have hchecking := hs.consistent c
      rw [phase] at hchecking
      refine ⟨?_, hchecking⟩
      rw [hchecking.1] at reference
      exact (Option.some.inj reference).symm
  | @approvedVerifies c engine call request approvalId pending phase =>
      apply hupdate
      have hconfirming := hs.consistent c
      rw [phase] at hconfirming
      exact hconfirming.2
  | approvedMismatch => exact hupdate trivial
  | refuses => exact hupdate (consistent_afterNothing _ _)
  | @replays c call request evaluated recordedAt decision phase executed _ _ _ approval =>
      apply hupdate
      have hreplaying := hs.consistent c
      rw [phase] at hreplaying
      exact consistent_afterReplay _ hreplaying executed approval
  | blocks => exact hupdate trivial
  | @dispatches c evaluated resolves store phase =>
      apply hupdate
      have hdispatching := hs.consistent c
      rw [phase] at hdispatching
      exact hdispatching
  | grantGone => exact hupdate (consistent_afterExecution _ _ (by decide))
  | runs _ _ outcome =>
      apply hupdate
      apply consistent_afterExecution
      rcases outcome with rfl | rfl
      · decide
      · decide
  | handsOver => exact hupdate (consistent_afterExecution _ _ (by decide))
  | resolves => exact hupdate trivial
  | abandons => exact hupdate trivial
  | _ => exact fun c => (hs.consistent c).mono hrows

theorem holds_update {calls : Nat → Phase} {c other : Nat} {phase : Phase}
    (h : (Function.update calls c phase other).holds approvalId) :
    (other = c ∧ phase.holds approvalId) ∨ (calls other).holds approvalId := by
  by_cases hc : other = c
  · subst hc
    rw [Function.update_self] at h
    exact Or.inl ⟨rfl, h⟩
  · rw [Function.update_of_ne hc] at h
    exact Or.inr h

theorem not_holds_afterNothing (call : ApprovedCall) :
    ¬(Phase.afterNothing call).holds approvalId := by
  unfold Phase.afterNothing
  split <;> exact id

theorem holds_of_afterExecution {evaluated : Evaluated} {resolves : Option String}
    {status : ResolutionStatus} (haccounted : evaluated.Accounted resolves)
    (h : (Phase.afterExecution resolves status).holds approvalId) :
    evaluated.approvalId = some approvalId := by
  unfold Phase.afterExecution at h
  split at h
  · next resolved =>
      obtain hsame | ⟨hnone, _⟩ := haccounted.2
      · rw [← hsame]
        exact congrArg some h
      · cases hnone
  · exact h.elim

/-- A call comes to hold an approval by reading its row only. -/
theorem holds_of_step (h : Step s event s') (hs : Orderly s) {c : Nat}
    (hc : (s'.calls c).holds approvalId) :
    (s.calls c).holds approvalId ∨ event = .read c approvalId := by
  have hupdate : ∀ {moved : Nat} {phase : Phase},
      (Function.update s.calls moved phase c).holds approvalId →
        (c = moved → phase.holds approvalId →
          (s.calls c).holds approvalId ∨ event = .read c approvalId) →
        (s.calls c).holds approvalId ∨ event = .read c approvalId := by
    intro moved phase hholds hmoved
    obtain ⟨hsame, hphase⟩ | hheld := holds_update hholds
    · exact hmoved hsame hphase
    · exact Or.inl hheld
  have hconsistent := hs.consistent c
  cases h with
  | invokeReads =>
      apply hupdate hc
      rintro rfl hphase
      exact Or.inr (congrArg (Event.read c) hphase)
  | approvedReads =>
      apply hupdate hc
      rintro rfl hphase
      exact Or.inr (congrArg (Event.read c) hphase)
  | evaluates _ _ _ approval =>
      apply hupdate hc
      rintro rfl hphase
      unfold Phase.afterEvaluation at hphase
      split_ifs at hphase
      all_goals first | exact hphase.elim | skip
      rw [Phase.holds, approval] at hphase
      cases hphase
  | approvedVerifies phase =>
      apply hupdate hc
      rintro rfl hphase
      rw [phase] at hconsistent ⊢
      exact Or.inl (hconsistent.1.trans hphase)
  | replays phase _ _ _ _ approval =>
      apply hupdate hc
      rintro rfl hphase
      rw [phase]
      unfold Phase.afterReplay at hphase
      split at hphase
      · rw [Phase.holds, approval] at hphase
        exact Or.inl (Option.some.inj hphase)
      · exact hphase.elim
  | dispatches phase =>
      apply hupdate hc
      rintro rfl hphase
      rw [phase]
      exact Or.inl hphase
  | grantGone phase =>
      apply hupdate hc
      rintro rfl hphase
      rw [phase] at hconsistent ⊢
      exact Or.inl (holds_of_afterExecution hconsistent hphase)
  | runs phase =>
      apply hupdate hc
      rintro rfl hphase
      rw [phase] at hconsistent ⊢
      exact Or.inl (holds_of_afterExecution hconsistent hphase)
  | handsOver phase =>
      apply hupdate hc
      rintro rfl hphase
      rw [phase] at hconsistent ⊢
      exact Or.inl (holds_of_afterExecution hconsistent hphase)
  | fetchesNothing =>
      exact hupdate hc fun _ hphase => (not_holds_afterNothing _ hphase).elim
  | refuses =>
      exact hupdate hc fun _ hphase => (not_holds_afterNothing _ hphase).elim
  | decides => exact Or.inl hc
  | createsGrant => exact Or.inl hc
  | revokes => exact Or.inl hc
  | registersOther => exact Or.inl hc
  | resolvesElsewhere => exact Or.inl hc
  | advises => exact Or.inl hc
  | rearranges => exact Or.inl hc
  | ticks => exact Or.inl hc
  | _ => exact hupdate hc fun _ hphase => hphase.elim

/-- A row that is read waits. -/
theorem pending_of_read {c : Nat} (h : Step s (.read c approvalId) s') :
    ∃ row, s.store.pendingActions approvalId = some row ∧
      row.resolutionStatus = .pending := by
  cases h with
  | invokeReads _ _ row => exact ⟨_, pending_of_findFreshPending row⟩
  | approvedReads _ _ row => exact ⟨_, pending_of_findFreshPending row⟩

theorem Orderly.step (h : Step s event s') (hunshared : Unshared s event) (hs : Orderly s) :
    Orderly s' where
  identifiers := identifiers_of_step h hs
  consistent := consistent_of_step h hs hunshared
  known := by
    intro c approvalId hc
    obtain hheld | rfl := holds_of_step h hs hc
    · obtain ⟨row, hrow⟩ := hs.known c approvalId hheld
      obtain ⟨row', hrow', _⟩ := rowsKept_of_step h hs approvalId row hrow
      exact ⟨row', hrow'⟩
    · obtain ⟨row, hrow, _⟩ := pending_of_read h
      obtain ⟨row', hrow', _⟩ := rowsKept_of_step h hs approvalId row hrow
      exact ⟨row', hrow'⟩
  exclusive := by
    intro c other approvalId hc hother
    obtain hc | rfl := holds_of_step h hs hc
    · obtain hother | rfl := holds_of_step h hs hother
      · exact hs.exclusive c other approvalId hc hother
      · by_contra hne
        exact hunshared c hne hc
    · obtain hother | heq := holds_of_step h hs hother
      · by_contra hne
        exact hunshared other (Ne.symm hne) hother
      · cases heq
        rfl

/-! ## Spent approvals -/

/-- Its holder is about to resolve the row, or the row is settled and nobody
holds the approval. -/
def Spent (approvalId : String) (s : EngineState) : Prop :=
  (∃ c status, s.calls c = .resolving approvalId status) ∨
    ((∀ c, ¬(s.calls c).holds approvalId) ∧
      ∃ row, s.store.pendingActions approvalId = some row ∧ row.resolutionStatus ≠ .pending)

/-- A run under the approval leaves it spent. -/
theorem spent_of_ran (h : Step s event s') (hs : Orderly s)
    (hran : event.runsUnder approvalId = true) : Spent approvalId s' := by
  cases h with
  | @runs c evaluated resolves status phase here outcome =>
      have haccounted := hs.consistent c
      rw [phase] at haccounted
      have happroval := haccounted.1 approvalId hran
      have hresolves : resolves = some approvalId := by
        obtain hsame | ⟨_, helsewhere⟩ := haccounted.2
        · rw [hsame, happroval]
        · exact absurd helsewhere here
      left
      refine ⟨c, status, ?_⟩
      rw [hresolves]
      exact Function.update_self c _ s.calls
  | _ => cases hran

/-- A call that is about to resolve the row does nothing else. -/
theorem resolving_of_step (h : Step s event s') {c : Nat} {status : ResolutionStatus}
    (hc : s.calls c = .resolving approvalId status) :
    s'.calls c = .resolving approvalId status ∨
      (s'.calls = Function.update s.calls c .done ∧
        s'.store = s.store.markResolved approvalId status) := by
  have hother : ∀ {moved : Nat} {phase : Phase}, s.calls moved ≠ .resolving approvalId status →
      Function.update s.calls moved phase c = .resolving approvalId status := by
    intro moved phase hne
    have hmoved : c ≠ moved := by
      rintro rfl
      exact hne hc
    rw [Function.update_of_ne hmoved, hc]
  cases h with
  | @resolves moved _ _ phase =>
      by_cases hmoved : c = moved
      · subst hmoved
        rw [hc] at phase
        cases phase
        exact Or.inr ⟨rfl, rfl⟩
      · left
        rw [← hc]
        exact Function.update_of_ne hmoved _ s.calls
  | @abandons moved phase =>
      left
      apply hother
      intro heq
      rw [heq] at phase
      cases phase
  | decides => exact Or.inl hc
  | createsGrant => exact Or.inl hc
  | revokes => exact Or.inl hc
  | registersOther => exact Or.inl hc
  | resolvesElsewhere => exact Or.inl hc
  | advises => exact Or.inl hc
  | rearranges => exact Or.inl hc
  | ticks => exact Or.inl hc
  | invokes phase | invokeMisses phase | invokeReads phase | invokeVerifies phase
  | invokeMismatch phase | evaluates phase | asks phase | approves phase | fetchesNothing phase
  | fetchesUnsupported phase | fetches phase | approvedMisses phase | approvedReads phase
  | approvedVerifies phase | approvedMismatch phase | refuses phase | replays phase
  | blocks phase | dispatches phase | grantGone phase | runs phase | handsOver phase =>
      left
      apply hother
      rw [phase]
      nofun

/-- A use of an approval is made by a call that holds it and has not run the
tool yet, or by an ordinary evaluation while nobody holds it. -/
theorem holder_of_use (h : Step s event s') (hs : Orderly s) (hunshared : Unshared s event)
    (huse : event.runsUnder approvalId = true ∨ event.verifies approvalId = true) :
    (∃ c, (s.calls c).holds approvalId ∧
      ∀ status, s.calls c ≠ .resolving approvalId status) ∨
    ((∀ c, ¬(s.calls c).holds approvalId) ∧
      ∃ row, s.store.pendingActions approvalId = some row ∧
        row.resolutionStatus = .pending) := by
  cases h with
  | @invokeVerifies c _ _ _ _ _ phase =>
      left
      refine ⟨c, ?_, by rw [phase]; nofun⟩
      rw [phase]
      simpa [Event.runsUnder, Event.verifies, Phase.holds] using huse
  | @approvedVerifies c _ _ _ _ _ phase =>
      left
      refine ⟨c, ?_, by rw [phase]; nofun⟩
      rw [phase]
      simpa [Event.runsUnder, Event.verifies, Phase.holds] using huse
  | @evaluates c evaluated _ _ _ store _ approval =>
      have hverified : evaluated.verifiedReference = some approvalId := by
        simpa [Event.runsUnder, Event.verifies] using huse
      obtain ⟨_, hrow⟩ := extractApprovalId_of_verifiedReference hverified
      rw [store] at hrow
      exact Or.inr ⟨(hunshared approval approvalId hverified).2, hrow⟩
  | @replays c call request evaluated _ _ phase executed =>
      have hverified : evaluated.verifiedReference = some approvalId := by
        simpa [Event.runsUnder, Event.verifies] using huse
      obtain ⟨hreference, _⟩ := extractApprovalId_of_verifiedReference hverified
      have hrefers := hs.consistent c
      rw [phase] at hrefers
      have hsame : extractApprovalId evaluated.request = extractApprovalId request := by
        rw [executed]
        unfold ApprovedCall.executionRequest
        split <;> rfl
      left
      refine ⟨c, ?_, by rw [phase]; nofun⟩
      rw [hsame, hrefers.1] at hreference
      rw [phase]
      exact Option.some.inj hreference
  | @runs c evaluated resolves status phase =>
      have haccounted := hs.consistent c
      rw [phase] at haccounted
      left
      refine ⟨c, ?_, by rw [phase]; nofun⟩
      rw [phase]
      exact haccounted.1 approvalId (by simpa [Event.runsUnder, Event.verifies] using huse)
  | _ => simp [Event.runsUnder, Event.verifies] at huse

/-- A spent approval stays spent and is used no more. -/
theorem spent_of_step (h : Step s event s') (hs : Orderly s) (hunshared : Unshared s event)
    (hspent : Spent approvalId s) :
    Spent approvalId s' ∧
      ¬(event.runsUnder approvalId = true ∨ event.verifies approvalId = true) := by
  obtain ⟨c, status, hresolving⟩ | ⟨hfree, row, hrow, hsettled⟩ := hspent
  · have hholds : (s.calls c).holds approvalId := by
      rw [hresolving]
      exact rfl
    constructor
    · obtain hstill | ⟨hcalls, hstore⟩ := resolving_of_step h hresolving
      · exact Or.inl ⟨c, status, hstill⟩
      · right
        constructor
        · intro other hother
          rw [hcalls] at hother
          obtain ⟨_, hdone⟩ | hheld := holds_update hother
          · exact hdone
          · have hsame : other = c := hs.exclusive other c approvalId hheld hholds
            rw [hsame, Function.update_self] at hother
            exact hother
        · obtain ⟨row, hrow⟩ := hs.known c approvalId hholds
          have hstatus := hs.consistent c
          rw [hresolving] at hstatus
          rw [hstore]
          simp only [Store.markResolved, Function.update_self, hrow, Option.map_some]
          split
          · exact ⟨_, rfl, hstatus⟩
          · next hsettled => exact ⟨_, rfl, hsettled⟩
    · intro huse
      obtain ⟨other, hother, hnot⟩ | ⟨hfree, _⟩ := holder_of_use h hs hunshared huse
      · rw [hs.exclusive other c approvalId hother hholds] at hnot
        exact hnot status hresolving
      · exact hfree c hholds
  · constructor
    · right
      constructor
      · intro other hother
        obtain hheld | rfl := holds_of_step h hs hother
        · exact hfree other hheld
        · obtain ⟨row', hrow', hpending⟩ := pending_of_read h
          rw [hrow] at hrow'
          cases hrow'
          exact hsettled hpending
      · obtain ⟨row', hrow', _, hsettled'⟩ := rowsKept_of_step h hs approvalId row hrow
        exact ⟨row', hrow', hsettled' hsettled⟩
    · intro huse
      obtain ⟨other, hother, _⟩ | ⟨_, row', hrow', hpending⟩ := holder_of_use h hs hunshared huse
      · exact hfree other hother
      · rw [hrow] at hrow'
        cases hrow'
        exact hsettled hpending

end Steps

/-- When no call uses an approval that another call holds, every approval is
used once. -/
theorem approval_singleUse_of_unshared {s s' : EngineState} {events : List Event}
    (hs : s.Starts) (h : Run (Restrict Step Unshared) s events s') (approvalId : String) :
    SingleUse approvalId events := by
  have hpairs : events.Pairwise fun earlier later =>
      earlier.runsUnder approvalId = true →
        ¬(later.runsUnder approvalId = true ∨ later.verifies approvalId = true) := by
    apply Run.pairwise_of_latch (I := Orderly) (J := Spent approvalId) _ _ _ h
      (Orderly.of_starts hs)
    · intro s event s' hstep hs
      exact hs.step hstep.1 hstep.2
    · intro s event s' hstep hs hran
      exact spent_of_ran hstep.1 hs hran
    · intro s event s' hstep hs hspent
      exact spent_of_step hstep.1 hs hstep.2 hspent
  constructor
  · exact countP_le_one_of_pairwise (hpairs.imp fun hnot hran hruns => hnot hran (Or.inl hruns))
  · exact hpairs.imp fun hnot hran hverifies => hnot hran (Or.inr hverifies)

/-! ## Overlapping calls -/

/-- The write of a draft in the jail, which the approval mode asks about. -/
def draftWrite : ToolRequest where
  toolName := "fs.write"
  args := some [("path", .string "/work/draft.txt"), ("content", .string "text")]
  agentId := "assistant"
  sessionId := "s1"

def draftingInstall : Engine :=
  { smallInstall with
    config := { smallInstall.config with tools := { allow := ["fs.write"] } } }

/-- The draft waits under the approval `a1`, which was given. -/
def draftStore : Store :=
  { emptyStore with
    pendingActions := fun approvalId =>
      if approvalId = "a1" then
        some
          { actionType := .toolInvoke
            request := draftWrite
            createdAt := 0
            expiresAt := none
            resolutionStatus := .pending }
      else none
    approvals := fun approvalId => if approvalId = "a1" then some .approved else none }

def draftState : EngineState where
  store := draftStore
  now := 0
  calls := fun _ => .idle

theorem draftState_starts : draftState.Starts where
  idle := fun _ => rfl
  identifiers := by
    intro approvalId hrow
    by_cases hsame : approvalId = "a1"
    · rw [hsame]
      decide
    · exact absurd (if_neg hsame) hrow

def approvedDraft : ToolRequest :=
  approvedRequest "a1" draftWrite

/-- The evaluation of the approved draft on a store. -/
def draftEvaluated (store : Store) : Evaluated :=
  evaluatedAt draftingInstall store 0 approvedDraft (some "a1")

def draftDecision (store : Store) : ToolAccessDecisionRecord :=
  decisionAt (draftEvaluated store) "d"

/-- An idle call comes to the evaluation of the draft. -/
theorem draft_to_replaying {admissible : EngineState → Event → Prop} {s : EngineState} {c : Nat}
    (idle : s.calls c = .idle) (hstore : s.store = draftStore) (hnow : s.now = 0)
    (hother : ∀ t, admissible t .other)
    (hread : ∀ phase, admissible (s.goTo c phase) (.read c "a1"))
    (hverified : ∀ t, admissible t (.verified c "a1")) :
    Run (Restrict Step admissible) s [.other, .other, .read c "a1", .verified c "a1"]
      (s.goTo c (.replaying (.plain "a1") approvedDraft)) := by
  refine @run_to_replaying _ s c draftingInstall "a1" _ draftWrite idle (by rw [hstore]; rfl)
    (by rw [hnow]; decide +kernel) rfl (by decide +kernel) ?_ hother hread hverified
  rw [hstore]
  decide +kernel

/-- A call uses the approval, and the one after it finds no waiting row. -/
theorem consecutive_calls_singleUse :
    SingleUse "a1"
      ([.other, .other, .read 1 "a1", .verified 1 "a1"] ++
        ([.evaluated 1 (draftEvaluated draftStore) (draftDecision draftStore), .other,
          .ran 1 (draftEvaluated draftStore)] ++ [.other, .other, .other])) := by
  apply approval_singleUse_of_unshared draftState_starts
  apply Run.append
  · apply draft_to_replaying rfl rfl rfl (fun _ => trivial)
    · intro phase other hne hholds
      rw [EngineState.goTo_calls_of_ne hne] at hholds
      exact hholds
    · intro t
      trivial
  apply Run.append
  · exact @run_of_replaying Unshared
      (draftState.goTo 1 (.replaying (.plain "a1") approvedDraft)) 1 "a1" approvedDraft
      (draftEvaluated draftStore) (draftDecision draftStore) rfl rfl rfl rfl rfl rfl
      (invocationEvaluation_evaluatedAt "d" (by decide +kernel) (by decide +kernel))
      (by decide +kernel) (by decide +kernel) (by decide +kernel) nofun (fun _ => trivial)
      (fun _ => trivial)
  · refine .cons ⟨@Step.resolves _ 1 "a1" .executed rfl, trivial⟩
      (.cons ⟨@Step.approves _ 2 "a1" {} false rfl, trivial⟩
        (.single ⟨@Step.fetchesNothing _ 2 (.plain "a1") rfl ?_, trivial⟩))
    intro pending hrow
    obtain rfl := Option.some.inj hrow
    decide

/-- Two calls read and verify the waiting row before either resolves it, and
both run the tool. -/
theorem overlapping_calls_run_twice :
    ¬ ∀ (s s' : EngineState) (events : List Event) (approvalId : String),
      s.Starts → Run Step s events s' → SingleUse approvalId events := by
  intro hsingle
  have hfirst := @draft_to_replaying (fun _ _ => True) draftState 1 rfl rfl rfl
    (fun _ => trivial) (fun _ => trivial) (fun _ => trivial)
  have hsecond := @draft_to_replaying (fun _ _ => True)
    (draftState.goTo 1 (.replaying (.plain "a1") approvedDraft)) 2 rfl rfl rfl
    (fun _ => trivial) (fun _ => trivial) (fun _ => trivial)
  have hran := @run_of_replaying (fun _ _ => True) _ 1 "a1" approvedDraft
    (draftEvaluated draftStore) (draftDecision draftStore)
    (show ((draftState.goTo 1 (.replaying (.plain "a1") approvedDraft)).goTo 2
      (.replaying (.plain "a1") approvedDraft)).calls 1 = _ from rfl) rfl rfl rfl rfl rfl
    (invocationEvaluation_evaluatedAt "d" (by decide +kernel) (by decide +kernel))
    (by decide +kernel) (by decide +kernel) (by decide +kernel) trivial (fun _ => trivial)
    (fun _ => trivial)
  have hranAgain := @run_of_replaying (fun _ _ => True)
    (((draftState.goTo 1 (.replaying (.plain "a1") approvedDraft)).goTo 2
      (.replaying (.plain "a1") approvedDraft)).afterRun 1 "a1" (draftEvaluated draftStore)
      (draftDecision draftStore)) 2 "a1" approvedDraft
    (draftEvaluated (draftStore.record (draftDecision draftStore)))
    (draftDecision (draftStore.record (draftDecision draftStore)))
    rfl rfl rfl rfl rfl rfl
    (invocationEvaluation_evaluatedAt "d" (by decide +kernel) (by decide +kernel))
    (by decide +kernel) (by decide +kernel) (by decide +kernel) trivial (fun _ => trivial)
    (fun _ => trivial)
  have hrun := ((hfirst.append hsecond).append (hran.append hranAgain)).of_restrict
  have hcount := (hsingle _ _ _ "a1" draftState_starts hrun).1
  revert hcount
  simp [Event.runsUnder, Evaluated.under, draftEvaluated, evaluatedAt]

end GoatCitadel.Policy
