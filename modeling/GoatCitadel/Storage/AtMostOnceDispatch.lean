import Mathlib.Data.Set.Insert
import GoatCitadel.Storage.MutationIdempotency
import GoatCitadel.Support.Runs

/-!
# At most one dispatch per generation

Callers claim, dispatch and settle in any order, each call in one transaction
and each with a token that was never generated before.  No caller claims a
provider-enforced idempotency key, and `markCompleted` and `markFailed` carry a
claim token.

Two properties of a row carry the argument.  A row that was dispatched stays
dispatched or settled until its own generation reports a failure, and a claim
answers `claimed` on no such row.  A token that was replaced never comes back,
because every later token is fresh, and the statements that take a token match
the current one only.
-/

namespace GoatCitadel.Storage

open GoatCitadel.Support

/-- One call of the repository by some caller. -/
inductive MutationCall
  | claim (input : ClaimInput)
  | markDispatched (identity : MutationIdempotencyIdentityInput)
      (claimToken : String) (leaseDurationMs : Option Number) (now : Option Int)
  | markUnknownAfterSend (identity : MutationIdempotencyIdentityInput)
      (updatedAt : StoredTime) (claimToken : String)
  | markReconciledCompleted (identity : MutationIdempotencyIdentityInput)
      (updatedAt : StoredTime)
  | markCompleted (identity : MutationIdempotencyIdentityInput)
      (updatedAt : StoredTime) (claimToken : Option String)
  | markFailed (identity : MutationIdempotencyIdentityInput)
      (updatedAt : StoredTime) (claimToken : Option String)

inductive MutationReply
  | claim (result : MutationIdempotencyClaimResult)
  | dispatch (result : MutationIdempotencyDispatchResult)
  | settled (ok : Bool)
  | threw (error : ClaimTimeError)

namespace MutationCall

/-- The row a call is about. -/
def identity : MutationCall → MutationIdempotencyIdentity
  | .claim input => normalizeIdentity input.identity
  | .markDispatched identity _ _ _ => normalizeIdentity identity
  | .markUnknownAfterSend identity _ _ => normalizeIdentity identity
  | .markReconciledCompleted identity _ => normalizeIdentity identity
  | .markCompleted identity _ _ => normalizeIdentity identity
  | .markFailed identity _ _ => normalizeIdentity identity

/-- The claim token a call carries. -/
def carriedToken : MutationCall → Option String
  | .claim _ => none
  | .markDispatched _ claimToken _ _ => some (trim claimToken)
  | .markUnknownAfterSend _ _ claimToken => some (trim claimToken)
  | .markReconciledCompleted _ _ => none
  | .markCompleted _ _ claimToken => claimToken.map trim
  | .markFailed _ _ claimToken => claimToken.map trim

/-- Claims do not rely on the provider's deduplication, and settlements carry a
claim token. -/
def Tokened : MutationCall → Prop
  | .claim input => input.providerIdempotencyKeyEnforced ≠ some true
  | .markCompleted _ _ claimToken => ∃ token, claimToken = some token ∧ trim token ≠ ""
  | .markFailed _ _ claimToken => ∃ token, claimToken = some token ∧ trim token ≠ ""
  | _ => True

def isClaim : MutationCall → Bool
  | .claim _ => true
  | _ => false

def isMarkDispatched : MutationCall → Bool
  | .markDispatched _ _ _ _ => true
  | _ => false

def isMarkFailed : MutationCall → Bool
  | .markFailed _ _ _ => true
  | _ => false

/-- Run a call in one transaction; a call that throws is rolled back. -/
def exec (le : SqlTextOrder) (freshToken : String)
    (table : MutationIdempotencyTable) :
    MutationCall → MutationReply × MutationIdempotencyTable
  | .claim input =>
      match Storage.claim le freshToken input table with
      | .ok (result, table') => (.claim result, table')
      | .error error => (.threw error, table)
  | .markDispatched identity claimToken leaseDurationMs now =>
      match Storage.markDispatched freshToken identity claimToken
          leaseDurationMs now table with
      | .ok (result, table') => (.dispatch result, table')
      | .error error => (.threw error, table)
  | .markUnknownAfterSend identity updatedAt claimToken =>
      ((Storage.markUnknownAfterSend identity updatedAt claimToken table).map
        .settled id)
  | .markReconciledCompleted identity updatedAt =>
      ((Storage.markReconciledCompleted identity updatedAt table).map .settled id)
  | .markCompleted identity updatedAt claimToken =>
      ((Storage.markCompleted identity updatedAt claimToken table).map .settled id)
  | .markFailed identity updatedAt claimToken =>
      ((Storage.markFailed identity updatedAt claimToken table).map .settled id)

end MutationCall

/-- The table and the tokens generated so far. -/
structure MutationStore where
  table : MutationIdempotencyTable
  issued : Set String

def MutationStore.initial : MutationStore where
  table := fun _ => none
  issued := ∅

structure MutationEvent where
  call : MutationCall
  reply : MutationReply

/-- One transaction, with a token that was not generated before. -/
def MutationStore.Step (le : SqlTextOrder) (store : MutationStore)
    (event : MutationEvent) (store' : MutationStore) : Prop :=
  event.call.Tokened ∧
    ∃ freshToken, freshToken ∉ store.issued ∧
      store'.issued = insert freshToken store.issued ∧
      event.call.exec le freshToken store.table = (event.reply, store'.table)

namespace MutationEvent

/-- The event is a claim of `k` that was answered `claimed`. -/
def Claims (event : MutationEvent) (k : MutationIdempotencyIdentity) : Prop :=
  event.call.isClaim = true ∧ event.call.identity = k ∧
    ∃ claimKind record, event.reply = .claim (.claimed claimKind record)

/-- The event is a `markDispatched` of `k` that was answered `dispatched`. -/
def Dispatches (event : MutationEvent) (k : MutationIdempotencyIdentity) : Prop :=
  event.call.isMarkDispatched = true ∧ event.call.identity = k ∧
    ∃ record, event.reply = .dispatch (.dispatched record)

/-- The event is a `markFailed` of `k` that carries the token of the current
generation and succeeds. -/
def FailsCurrent (event : MutationEvent) (k : MutationIdempotencyIdentity)
    (store : MutationStore) : Prop :=
  event.call.isMarkFailed = true ∧ event.call.identity = k ∧
    event.reply = .settled true ∧
    ∃ row, store.table k = some row ∧ row.claimToken = event.call.carriedToken

end MutationEvent

/-- The row of `k` carries the token `t`. -/
def Carries (store : MutationStore) (k : MutationIdempotencyIdentity)
    (t : String) : Prop :=
  ∃ row, store.table k = some row ∧ row.claimToken = some t

/-- The row of `k` is settled as completed or as sent with an unknown outcome. -/
def Settled (store : MutationStore) (k : MutationIdempotencyIdentity) : Prop :=
  ∃ row, store.table k = some row ∧
    (row.status = .completed ∨ row.status = .unknownAfterSend)

/-- The row of `k` was dispatched by its current generation, or is settled. -/
def DispatchedOrSettled (store : MutationStore)
    (k : MutationIdempotencyIdentity) : Prop :=
  ∃ row, store.table k = some row ∧
    ((row.status = .pending ∧ row.dispatchedAt.isSome = true) ∨
      row.status = .completed ∨ row.status = .unknownAfterSend)

/-- What the table guarantees for the identity `k` along every run. -/
structure AtMostOnceDispatch
    (step : MutationStore → MutationEvent → MutationStore → Prop)
    (k : MutationIdempotencyIdentity) : Prop where
  /-- After a dispatch, and until its generation reports a failure, no claim is
  granted and only the current generation can mark a dispatch. -/
  no_claim_after_dispatch :
    ∀ {before after : List MutationEvent} {store₁ store₂ store₃ store₄ : MutationStore}
      {dispatch event : MutationEvent},
      Run step MutationStore.initial before store₁ →
      step store₁ dispatch store₂ → dispatch.Dispatches k →
      Run (Restrict step fun store event => ¬ event.FailsCurrent k store)
        store₂ after store₃ →
      step store₃ event store₄ →
      ¬ event.Claims k ∧
        (event.Dispatches k → ∃ t, event.call.carriedToken = some t ∧ Carries store₃ k t)
  /-- A token that was replaced never changes the row again. -/
  superseded_token_inert :
    ∀ {before between after : List MutationEvent}
      {store₁ store₂ store₃ store₄ : MutationStore} {event : MutationEvent} {t : String},
      Run step MutationStore.initial before store₁ → Carries store₁ k t →
      Run step store₁ between store₂ → ¬ Carries store₂ k t →
      Run step store₂ after store₃ →
      step store₃ event store₄ → event.call.identity = k →
      event.call.carriedToken = some t →
      store₄.table k = store₃.table k
  /-- A settled row is never claimed again. -/
  no_claim_after_settlement :
    ∀ {before after : List MutationEvent} {store₁ store₂ store₃ : MutationStore}
      {event : MutationEvent},
      Run step MutationStore.initial before store₁ → Settled store₁ k →
      Run step store₁ after store₂ →
      step store₂ event store₃ → ¬ event.Claims k

/-! ## What a transaction does to one row -/

/-- How one transaction changes the row of `k`. -/
inductive RowStep (k : MutationIdempotencyIdentity) (event : MutationEvent)
    (freshToken : String) :
    Option MutationIdempotencyRow → Option MutationIdempotencyRow → Prop
  | kept {row : Option MutationIdempotencyRow} :
      ¬ event.Claims k → ¬ event.Dispatches k →
      RowStep k event freshToken row row
  /-- A claim is granted: on no row, on a failed one, or on a pending one that
  was not dispatched. -/
  | claimed {row : Option MutationIdempotencyRow} {row' : MutationIdempotencyRow} :
      (∀ current, row = some current →
        current.status = .failed ∨
          (current.status = .pending ∧ current.dispatchedAt = none)) →
      row'.claimToken = some freshToken →
      event.call.carriedToken = none → ¬ event.Dispatches k →
      RowStep k event freshToken row (some row')
  /-- A claim settles a stale generation that was dispatched. -/
  | settledStale {current row' : MutationIdempotencyRow} :
      current.status = .pending →
      row'.status = .unknownAfterSend → row'.claimToken = some freshToken →
      event.call.carriedToken = none → ¬ event.Claims k → ¬ event.Dispatches k →
      RowStep k event freshToken (some current) (some row')
  | dispatched {current row' : MutationIdempotencyRow} :
      current.status = .pending → current.claimToken = event.call.carriedToken →
      row'.status = .pending → row'.dispatchedAt.isSome = true →
      row'.claimToken = some freshToken → ¬ event.Claims k →
      RowStep k event freshToken (some current) (some row')
  /-- The current generation settles the row. -/
  | settled {current row' : MutationIdempotencyRow} :
      current.status = .pending → current.claimToken = event.call.carriedToken →
      row'.claimToken = current.claimToken →
      (row'.status = .completed ∨ row'.status = .unknownAfterSend ∨
        (event.call.isMarkFailed = true ∧ event.call.identity = k ∧
          event.reply = .settled true)) →
      ¬ event.Claims k → ¬ event.Dispatches k →
      RowStep k event freshToken (some current) (some row')
  | reconciled {current row' : MutationIdempotencyRow} :
      current.status = .unknownAfterSend → row'.status = .completed →
      row'.claimToken = current.claimToken →
      event.call.carriedToken = none → ¬ event.Claims k → ¬ event.Dispatches k →
      RowStep k event freshToken (some current) (some row')

variable {freshToken : String} {table table' : MutationIdempotencyTable}
  {k : MutationIdempotencyIdentity} {event : MutationEvent} {le : SqlTextOrder}

theorem RowStep.of_other {row : Option MutationIdempotencyRow} (h : event.call.identity ≠ k) :
    RowStep k event freshToken row row :=
  .kept (fun hclaims => h hclaims.2.1) (fun hdispatches => h hdispatches.2.1)

theorem not_claims_of_isClaim_false (h : event.call.isClaim = false) : ¬ event.Claims k := by
  rintro ⟨hclaim, -⟩
  rw [h] at hclaim
  exact Bool.false_ne_true hclaim

theorem not_dispatches_of_isMarkDispatched_false (h : event.call.isMarkDispatched = false) :
    ¬ event.Dispatches k := by
  rintro ⟨hdispatch, -⟩
  rw [h] at hdispatch
  exact Bool.false_ne_true hdispatch

/-- A table that changed at most at the identity of the call changes no other
row, so only the row of the call has to be looked at. -/
theorem rowStep_of_update (event : MutationEvent) {before : Option MutationIdempotencyRow}
    {row : MutationIdempotencyRow} (hbefore : table event.call.identity = before)
    (h : event.call.identity = k → RowStep k event freshToken before (some row)) :
    RowStep k event freshToken (table k)
      (Function.update table event.call.identity (some row) k) := by
  by_cases hk : event.call.identity = k
  · have hstep := h hk
    subst hk
    rwa [hbefore, Function.update_self]
  · rw [Function.update_of_ne (Ne.symm hk)]
    exact .of_other hk

theorem rowStep_claim (k : MutationIdempotencyIdentity) {input : ClaimInput}
    {result : MutationIdempotencyClaimResult}
    (henforced : input.providerIdempotencyKeyEnforced ≠ some true)
    (h : Storage.claim le freshToken input table = .ok (result, table')) :
    RowStep k ⟨.claim input, .claim result⟩ freshToken (table k) (table' k) := by
  have hnot : ¬ (⟨.claim input, .claim result⟩ : MutationEvent).Dispatches k :=
    not_dispatches_of_isMarkDispatched_false rfl
  cases claim_effect h with
  | refused hrefused =>
      refine .kept ?_ hnot
      rintro ⟨-, -, claimKind, record, hreply⟩
      cases hreply
      exact hrefused
  | granted htoken hcurrent =>
      refine rowStep_of_update ⟨.claim input, _⟩ rfl fun hk => ?_
      refine .claimed ?_ htoken rfl hnot
      intro current hrow
      rcases hcurrent current hrow with hfailed | ⟨hpending, hsent | hkey⟩
      · exact .inl hfailed
      · exact .inr ⟨hpending, hsent⟩
      · exact absurd hkey henforced
  | settledStale hcurrent hpending hunknown htoken =>
      refine rowStep_of_update ⟨.claim input, _⟩ hcurrent fun hk => ?_
      refine .settledStale hpending hunknown htoken rfl ?_ hnot
      rintro ⟨-, -, claimKind, record, hreply⟩
      cases hreply

theorem rowStep_markDispatched (k : MutationIdempotencyIdentity)
    {input : MutationIdempotencyIdentityInput} {claimToken : String}
    {leaseDurationMs : Option Number} {now : Option Int}
    {result : MutationIdempotencyDispatchResult}
    (h : Storage.markDispatched freshToken input claimToken leaseDurationMs now
      table = .ok (result, table')) :
    RowStep k ⟨.markDispatched input claimToken leaseDurationMs now,
      .dispatch result⟩ freshToken (table k) (table' k) := by
  rcases markDispatched_cases h with
    ⟨rfl, record, rfl⟩ |
    ⟨current, row, hcurrent, rfl, rfl, hpending, htoken, hpending', hsent, hfresh⟩
  · refine .kept (not_claims_of_isClaim_false rfl) ?_
    rintro ⟨-, -, record', hreply⟩
    cases hreply
  · refine rowStep_of_update ⟨.markDispatched input _ _ _, _⟩ hcurrent
      fun hk => ?_
    exact .dispatched hpending htoken hpending' hsent hfresh
      (not_claims_of_isClaim_false rfl)

/-- The three calls that settle a row with a claim token. -/
theorem rowStep_updateStatus (k : MutationIdempotencyIdentity) {call : MutationCall}
    {input : MutationIdempotencyIdentityInput} {updatedAt : StoredTime} {token : String}
    {status : MutationIdempotencyStatus} (htoken : trim token ≠ "")
    (hidentity : call.identity = normalizeIdentity input)
    (hcarried : call.carriedToken = some (trim token)) (hclaim : call.isClaim = false)
    (hdispatch : call.isMarkDispatched = false)
    (hstatus : status = .completed ∨ status = .unknownAfterSend ∨
      call.isMarkFailed = true) :
    RowStep k
      ⟨call, .settled (updateStatus input updatedAt (some token) status table).1⟩
      freshToken (table k)
      ((updateStatus input updatedAt (some token) status table).2 k) := by
  rcases updateStatus_owned_cases input updatedAt htoken status table with
    hkeep | ⟨current, row, hcurrent, hrun, hpending, hcurrentToken, hrow, hrowToken⟩
  · rw [hkeep]
    exact .kept (not_claims_of_isClaim_false hclaim)
      (not_dispatches_of_isMarkDispatched_false hdispatch)
  · rw [hrun]
    rw [← hidentity] at hcurrent ⊢
    refine rowStep_of_update ⟨call, _⟩ hcurrent fun hk => ?_
    refine .settled hpending (by rw [hcurrentToken, hcarried]) hrowToken ?_
      (not_claims_of_isClaim_false hclaim)
      (not_dispatches_of_isMarkDispatched_false hdispatch)
    rcases hstatus with rfl | rfl | hfailed
    · exact .inl hrow
    · exact .inr (.inl hrow)
    · exact .inr (.inr ⟨hfailed, hk, rfl⟩)

theorem rowStep_markReconciledCompleted (k : MutationIdempotencyIdentity)
    (freshToken : String) (input : MutationIdempotencyIdentityInput)
    (updatedAt : StoredTime) (table : MutationIdempotencyTable) :
    RowStep k
      ⟨.markReconciledCompleted input updatedAt,
        .settled (Storage.markReconciledCompleted input updatedAt table).1⟩
      freshToken (table k)
      ((Storage.markReconciledCompleted input updatedAt table).2 k) := by
  have hclaim (reply : MutationReply) :
      ¬ (⟨.markReconciledCompleted input updatedAt, reply⟩ : MutationEvent).Claims k :=
    not_claims_of_isClaim_false rfl
  have hdispatch (reply : MutationReply) :
      ¬ (⟨.markReconciledCompleted input updatedAt, reply⟩ : MutationEvent).Dispatches k :=
    not_dispatches_of_isMarkDispatched_false rfl
  rcases markReconciledCompleted_cases input updatedAt table with
    hkeep | ⟨current, row, hcurrent, hrun, hunknown, hcompleted, htoken⟩
  · rw [hkeep]
    exact .kept (hclaim _) (hdispatch _)
  · rw [hrun]
    refine rowStep_of_update ⟨.markReconciledCompleted input updatedAt, _⟩
      hcurrent fun _ => ?_
    exact .reconciled hunknown hcompleted htoken rfl (hclaim _) (hdispatch _)

theorem rowStep_of_exec (k : MutationIdempotencyIdentity) {call : MutationCall}
    {reply : MutationReply} (htokened : call.Tokened)
    (hexec : call.exec le freshToken table = (reply, table')) :
    RowStep k ⟨call, reply⟩ freshToken (table k) (table' k) := by
  cases call with
  | claim input =>
      simp only [MutationCall.exec] at hexec
      split at hexec
      · rename_i result table' hrun
        cases hexec
        exact rowStep_claim k htokened hrun
      · cases hexec
        refine .kept ?_ (not_dispatches_of_isMarkDispatched_false rfl)
        rintro ⟨-, -, claimKind, record, hreply⟩
        cases hreply
  | markDispatched input claimToken leaseDurationMs now =>
      simp only [MutationCall.exec] at hexec
      split at hexec
      · rename_i result table' hrun
        cases hexec
        exact rowStep_markDispatched k hrun
      · cases hexec
        refine .kept (not_claims_of_isClaim_false rfl) ?_
        rintro ⟨-, -, record, hreply⟩
        cases hreply
  | markUnknownAfterSend input updatedAt claimToken =>
      simp only [MutationCall.exec, Storage.markUnknownAfterSend] at hexec
      split at hexec
      · cases hexec
        exact .kept (not_claims_of_isClaim_false rfl)
          (not_dispatches_of_isMarkDispatched_false rfl)
      · rename_i htoken
        simp only [Prod.map, id_eq, Prod.mk.injEq] at hexec
        obtain ⟨rfl, rfl⟩ := hexec
        exact rowStep_updateStatus k htoken rfl rfl rfl rfl (.inr (.inl rfl))
  | markReconciledCompleted input updatedAt =>
      simp only [MutationCall.exec, Prod.map, id_eq, Prod.mk.injEq] at hexec
      obtain ⟨rfl, rfl⟩ := hexec
      exact rowStep_markReconciledCompleted k freshToken input updatedAt table
  | markCompleted input updatedAt claimToken =>
      obtain ⟨token, rfl, htoken⟩ := htokened
      simp only [MutationCall.exec, markCompleted, Prod.map, id_eq,
        Prod.mk.injEq] at hexec
      obtain ⟨rfl, rfl⟩ := hexec
      exact rowStep_updateStatus k htoken rfl rfl rfl rfl (.inl rfl)
  | markFailed input updatedAt claimToken =>
      obtain ⟨token, rfl, htoken⟩ := htokened
      simp only [MutationCall.exec, markFailed, Prod.map, id_eq,
        Prod.mk.injEq] at hexec
      obtain ⟨rfl, rfl⟩ := hexec
      exact rowStep_updateStatus k htoken rfl rfl rfl rfl (.inr (.inr rfl))

/-- Every transaction acts on the row of `k` by one of the cases of `RowStep`. -/
theorem rowStep_of_step (k : MutationIdempotencyIdentity) {store store' : MutationStore}
    (h : MutationStore.Step le store event store') :
    ∃ freshToken, freshToken ∉ store.issued ∧
      store'.issued = insert freshToken store.issued ∧
      RowStep k event freshToken (store.table k) (store'.table k) := by
  obtain ⟨htokened, freshToken, hfresh, hissued, hexec⟩ := h
  exact ⟨freshToken, hfresh, hissued, rowStep_of_exec k htokened hexec⟩

/-! ## Dispatched and settled rows -/

section

variable {le : SqlTextOrder} {k : MutationIdempotencyIdentity}
  {store store' : MutationStore} {event : MutationEvent}

theorem dispatchedOrSettled_of_dispatches
    (hstep : MutationStore.Step le store event store')
    (hdispatches : event.Dispatches k) : DispatchedOrSettled store' k := by
  obtain ⟨freshToken, -, -, hrow⟩ := rowStep_of_step k hstep
  rw [DispatchedOrSettled]
  generalize store.table k = row at hrow
  generalize store'.table k = row' at hrow ⊢
  cases hrow with
  | kept _ hnot => exact absurd hdispatches hnot
  | claimed _ _ _ hnot => exact absurd hdispatches hnot
  | settledStale _ _ _ _ _ hnot => exact absurd hdispatches hnot
  | dispatched _ _ hpending hsent _ _ => exact ⟨_, rfl, .inl ⟨hpending, hsent⟩⟩
  | settled _ _ _ _ _ hnot => exact absurd hdispatches hnot
  | reconciled _ _ _ _ _ hnot => exact absurd hdispatches hnot

/-- A row that was dispatched or settled is left so by every transaction but the
failure report of its own generation. -/
theorem dispatchedOrSettled_step
    (hstep : MutationStore.Step le store event store')
    (hfails : ¬ event.FailsCurrent k store) (h : DispatchedOrSettled store k) :
    DispatchedOrSettled store' k := by
  obtain ⟨freshToken, -, -, hrow⟩ := rowStep_of_step k hstep
  obtain ⟨current, hcurrent, hstatus⟩ := h
  rw [hcurrent] at hrow
  rw [DispatchedOrSettled]
  generalize hrow' : store'.table k = row' at hrow ⊢
  cases hrow with
  | kept => exact ⟨current, rfl, hstatus⟩
  | claimed hfree =>
      rcases hfree current rfl with hfailed | ⟨hpending, hsent⟩
      · rw [hfailed] at hstatus
        simp at hstatus
      · rw [hpending, hsent] at hstatus
        simp at hstatus
  | settledStale _ hunknown => exact ⟨_, rfl, .inr (.inr hunknown)⟩
  | dispatched _ _ hpending hsent => exact ⟨_, rfl, .inl ⟨hpending, hsent⟩⟩
  | settled _ htoken _ hsettled =>
      rcases hsettled with hcompleted | hunknown | ⟨hfailed, hk, hreply⟩
      · exact ⟨_, rfl, .inr (.inl hcompleted)⟩
      · exact ⟨_, rfl, .inr (.inr hunknown)⟩
      · exact absurd ⟨hfailed, hk, hreply, current, hcurrent, htoken⟩ hfails
  | reconciled _ hcompleted => exact ⟨_, rfl, .inr (.inl hcompleted)⟩

theorem not_claims_of_dispatchedOrSettled
    (hstep : MutationStore.Step le store event store')
    (h : DispatchedOrSettled store k) : ¬ event.Claims k := by
  obtain ⟨freshToken, -, -, hrow⟩ := rowStep_of_step k hstep
  obtain ⟨current, hcurrent, hstatus⟩ := h
  rw [hcurrent] at hrow
  generalize store'.table k = row' at hrow
  cases hrow with
  | kept hnot _ => exact hnot
  | claimed hfree =>
      rcases hfree current rfl with hfailed | ⟨hpending, hsent⟩
      · rw [hfailed] at hstatus
        simp at hstatus
      · rw [hpending, hsent] at hstatus
        simp at hstatus
  | settledStale _ _ _ _ hnot _ => exact hnot
  | dispatched _ _ _ _ _ hnot => exact hnot
  | settled _ _ _ _ hnot _ => exact hnot
  | reconciled _ _ _ _ hnot _ => exact hnot

theorem carries_of_dispatches
    (hstep : MutationStore.Step le store event store')
    (hdispatches : event.Dispatches k) :
    ∃ t, event.call.carriedToken = some t ∧ Carries store k t := by
  obtain ⟨freshToken, -, -, hrow⟩ := rowStep_of_step k hstep
  have htoken : ∃ t, event.call.carriedToken = some t := by
    obtain ⟨hmark, -⟩ := hdispatches
    cases hcall : event.call with
    | markDispatched identity claimToken leaseDurationMs now =>
        exact ⟨trim claimToken, rfl⟩
    | _ =>
        rw [hcall] at hmark
        cases hmark
  obtain ⟨t, ht⟩ := htoken
  refine ⟨t, ht, ?_⟩
  rw [Carries]
  generalize store.table k = row at hrow ⊢
  generalize store'.table k = row' at hrow
  cases hrow with
  | kept _ hnot => exact absurd hdispatches hnot
  | claimed _ _ hnone => simp [hnone] at ht
  | settledStale _ _ _ hnone => simp [hnone] at ht
  | dispatched _ hcurrent => exact ⟨_, rfl, by rw [hcurrent, ht]⟩
  | settled _ _ _ _ _ hnot => exact absurd hdispatches hnot
  | reconciled _ _ _ hnone => simp [hnone] at ht

theorem settled_step (hstep : MutationStore.Step le store event store')
    (h : Settled store k) : Settled store' k := by
  obtain ⟨freshToken, -, -, hrow⟩ := rowStep_of_step k hstep
  obtain ⟨current, hcurrent, hstatus⟩ := h
  have hpending : current.status ≠ .pending := by
    rcases hstatus with h | h <;> simp [h]
  rw [hcurrent] at hrow
  rw [Settled]
  generalize store'.table k = row' at hrow ⊢
  cases hrow with
  | kept => exact ⟨current, rfl, hstatus⟩
  | claimed hfree =>
      rcases hfree current rfl with hfailed | ⟨hopen, -⟩
      · rw [hfailed] at hstatus
        simp at hstatus
      · exact absurd hopen hpending
  | settledStale hopen => exact absurd hopen hpending
  | dispatched hopen => exact absurd hopen hpending
  | settled hopen => exact absurd hopen hpending
  | reconciled _ hcompleted => exact ⟨_, rfl, .inl hcompleted⟩

theorem Settled.dispatchedOrSettled (h : Settled store k) :
    DispatchedOrSettled store k := by
  obtain ⟨row, hrow, hstatus⟩ := h
  exact ⟨row, hrow, .inr hstatus⟩

/-! ## Superseded tokens -/

/-- The token `t` was generated and the row of `k` does not carry it. -/
def Superseded (store : MutationStore) (k : MutationIdempotencyIdentity)
    (t : String) : Prop :=
  t ∈ store.issued ∧ ¬ Carries store k t

/-- The token of the row of `k` was generated by the repository. -/
def TokenIssued (store : MutationStore) (k : MutationIdempotencyIdentity) : Prop :=
  ∀ t, Carries store k t → t ∈ store.issued

/-- The token of a row after a transaction is the one before or the fresh one. -/
theorem RowStep.token {t : String} {row : Option MutationIdempotencyRow}
    {row' : MutationIdempotencyRow} (h : RowStep k event freshToken row (some row'))
    (ht : row'.claimToken = some t) :
    t = freshToken ∨ ∃ current, row = some current ∧ current.claimToken = some t := by
  have hfresh : row'.claimToken = some freshToken → t = freshToken := by
    intro h
    rw [h] at ht
    exact (Option.some.inj ht).symm
  cases h with
  | kept => exact .inr ⟨row', rfl, ht⟩
  | claimed _ htoken => exact .inl (hfresh htoken)
  | settledStale _ _ htoken => exact .inl (hfresh htoken)
  | dispatched _ _ _ _ htoken => exact .inl (hfresh htoken)
  | settled _ _ htoken => exact .inr ⟨_, rfl, by rw [← htoken, ht]⟩
  | reconciled _ _ htoken => exact .inr ⟨_, rfl, by rw [← htoken, ht]⟩

theorem carries_step {t : String} (hstep : MutationStore.Step le store event store')
    (h : Carries store' k t) :
    (t ∉ store.issued ∧ t ∈ store'.issued) ∨ Carries store k t := by
  obtain ⟨freshToken, hnew, hissued, hrow⟩ := rowStep_of_step k hstep
  obtain ⟨row', hrow', ht⟩ := h
  rw [hrow'] at hrow
  rcases hrow.token ht with rfl | hcurrent
  · exact .inl ⟨hnew, by rw [hissued]; exact Set.mem_insert t store.issued⟩
  · exact .inr hcurrent

theorem issued_step (hstep : MutationStore.Step le store event store') :
    store.issued ⊆ store'.issued := by
  obtain ⟨-, freshToken, -, hissued, -⟩ := hstep
  rw [hissued]
  exact Set.subset_insert freshToken store.issued

theorem tokenIssued_step (hstep : MutationStore.Step le store event store')
    (h : TokenIssued store k) : TokenIssued store' k := by
  intro t ht
  rcases carries_step hstep ht with ⟨-, hissued⟩ | hbefore
  · exact hissued
  · exact issued_step hstep (h t hbefore)

theorem superseded_step {t : String}
    (hstep : MutationStore.Step le store event store')
    (h : Superseded store k t) : Superseded store' k t := by
  refine ⟨issued_step hstep h.1, fun hcarries => ?_⟩
  rcases carries_step hstep hcarries with ⟨hnew, -⟩ | hbefore
  · exact hnew h.1
  · exact h.2 hbefore

/-- A call that carries a superseded token leaves the row as it is. -/
theorem unchanged_of_superseded {t : String}
    (hstep : MutationStore.Step le store event store')
    (hcarried : event.call.carriedToken = some t) (h : Superseded store k t) :
    store'.table k = store.table k := by
  obtain ⟨freshToken, -, -, hrow⟩ := rowStep_of_step k hstep
  obtain ⟨-, hnot⟩ := h
  rw [Carries] at hnot
  generalize store.table k = row at hrow hnot ⊢
  generalize store'.table k = row' at hrow ⊢
  cases hrow with
  | kept => rfl
  | claimed _ _ hnone => simp [hnone] at hcarried
  | settledStale _ _ _ hnone => simp [hnone] at hcarried
  | dispatched _ htoken => exact absurd ⟨_, rfl, by rw [htoken, hcarried]⟩ hnot
  | settled _ htoken => exact absurd ⟨_, rfl, by rw [htoken, hcarried]⟩ hnot
  | reconciled _ _ _ hnone => simp [hnone] at hcarried

end

/-! ## Runs -/

theorem tokenIssued_of_run (k : MutationIdempotencyIdentity) {events : List MutationEvent}
    {store : MutationStore} (h : Run (MutationStore.Step le) MutationStore.initial events store) :
    TokenIssued store k := by
  refine h.invariant (I := fun store => TokenIssued store k)
    (fun _ _ _ hs => tokenIssued_step hs) ?_
  rintro t ⟨row, hrow, -⟩
  simp [MutationStore.initial] at hrow

/-- The idempotency table dispatches at most once per generation, for every
identity and every order on the stored times. -/
theorem mutationIdempotency_atMostOnceDispatch (le : SqlTextOrder)
    (k : MutationIdempotencyIdentity) :
    AtMostOnceDispatch (MutationStore.Step le) k where
  no_claim_after_dispatch := by
    intro before after store₁ store₂ store₃ store₄ dispatch event _ hdispatch
      hdispatches hafter hevent
    have hsent₂ : DispatchedOrSettled store₂ k :=
      dispatchedOrSettled_of_dispatches hdispatch hdispatches
    have hsent₃ : DispatchedOrSettled store₃ k :=
      hafter.invariant (I := fun store => DispatchedOrSettled store k)
        (fun _ _ _ hs => dispatchedOrSettled_step hs.1 hs.2) hsent₂
    exact ⟨not_claims_of_dispatchedOrSettled hevent hsent₃,
      carries_of_dispatches hevent⟩
  superseded_token_inert := by
    intro before between after store₁ store₂ store₃ store₄ event t hbefore hcarries
      hbetween hgone hafter hevent _ hcarried
    have hissued₁ : t ∈ store₁.issued := tokenIssued_of_run k hbefore t hcarries
    have hissued₂ : t ∈ store₂.issued :=
      hbetween.invariant (I := fun store => t ∈ store.issued)
        (fun _ _ _ hs ht => issued_step hs ht) hissued₁
    have hsuperseded₃ : Superseded store₃ k t :=
      hafter.invariant (I := fun store => Superseded store k t)
        (fun _ _ _ hs => superseded_step hs) ⟨hissued₂, hgone⟩
    exact unchanged_of_superseded hevent hcarried hsuperseded₃
  no_claim_after_settlement := by
    intro before after store₁ store₂ store₃ event _ hsettled hafter hevent
    have hsettled₂ : Settled store₂ k :=
      hafter.invariant (I := fun store => Settled store k)
        (fun _ _ _ hs => settled_step hs) hsettled
    exact not_claims_of_dispatchedOrSettled hevent hsettled₂.dispatchedOrSettled

end GoatCitadel.Storage
