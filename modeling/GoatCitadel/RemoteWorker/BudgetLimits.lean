import Mathlib.Logic.Relation
import GoatCitadel.RemoteWorker.Budget
import GoatCitadel.Support.Runs
import GoatCitadel.Support.Table

/-!
# Worker budgets are never over-committed

Whatever an operation does to the budget tables, it does by writes of a few
kinds: a grant is added or revoked, a row is added whose hold fits what is
available of its grant, or a held row is closed.  Each kind of write keeps the
limits, so they hold in every state that the operations reach, in any order and
whatever they read of the requests and the usage events in between.
-/

namespace GoatCitadel.RemoteWorker

open GoatCitadel.Support

/-! ## Writes -/

/-- The hold of a new row fits what is neither held nor settled of its grant. -/
structure Fits (budgets : Budgets) (grant : Grant) (requests cost : Nat) : Prop where
  granted : grant ∈ budgets.grants
  requests : requests ≤ grant.terms.maxRequests -
    Hold.total Hold.held (budgets.requestHolds grant.terms.grantId) -
    Hold.total Hold.settled (budgets.requestHolds grant.terms.grantId)
  cost : cost ≤ grant.terms.maxCostMicrousd -
    Hold.total Hold.held (budgets.costHolds grant.terms.grantId) -
    Hold.total Hold.settled (budgets.costHolds grant.terms.grantId)

/-- One write to the budget tables. -/
inductive Write : Budgets → Budgets → Prop
  | addGrant {budgets : Budgets} (grant : Grant) :
      budgets.getGrant grant.terms.grantId = none →
      Write budgets { budgets with grants := budgets.grants ++ [grant] }
  | revokeGrant {budgets : Budgets} (grantId : String) (revision : Nat) (now : String) :
      Write budgets { budgets with
        grants := budgets.grants.map fun row =>
          if row.terms.grantId = grantId ∧ row.revision = revision then
            { row with revokedAt := some now, revision := row.revision + 1 }
          else row }
  | addReservation {budgets : Budgets} {grant : Grant} (row : Reservation) :
      row.grantId = grant.terms.grantId → row.status = .held →
      row.reservedRequests = maxAttempts →
      Fits budgets grant row.reservedRequests row.reservedCostMicrousd →
      budgets.getReservation row.reservationId = none →
      budgets.reservationOf row.operationId row.dispatchGeneration = none →
      Write budgets { budgets with reservations := budgets.reservations ++ [row] }
  | addDispatch {budgets : Budgets} {grant : Grant} (row : Dispatch String) :
      row.grantId = grant.terms.grantId → row.status = .held →
      Fits budgets grant 1 row.reservedCostMicrousd →
      budgets.getDispatch row.usageEventId = none →
      Write budgets { budgets with dispatches := budgets.dispatches ++ [row] }
  | addToolDispatch {budgets : Budgets} {grant : Grant} (row : Dispatch ToolIntent) :
      row.grantId = grant.terms.grantId → row.status = .held →
      Fits budgets grant 1 row.reservedCostMicrousd →
      budgets.getToolDispatch row.usageEventId = none →
      Write budgets { budgets with toolDispatches := budgets.toolDispatches ++ [row] }
  | closeReservation {budgets : Budgets} (reservationId : String)
      (closed : RowStatus ReservationUsage) :
      closed.isHeld = false →
      (∀ usage closedAt, closed = .settled usage closedAt → usage.requests ≤ maxAttempts) →
      Write budgets (budgets.closeReservation reservationId closed)
  | closeDispatch {budgets : Budgets} (usageEventId : String) (closed : RowStatus Nat) :
      closed.isHeld = false →
      Write budgets (budgets.closeDispatch usageEventId closed)
  | closeToolDispatch {budgets : Budgets} (usageEventId : String) (closed : RowStatus Nat) :
      closed.isHeld = false →
      Write budgets (budgets.closeToolDispatch usageEventId closed)

/-- Any number of writes, one after the other. -/
abbrev Writes : Budgets → Budgets → Prop := Relation.ReflTransGen Write

/-! ## What the operations write -/

section Operations

variable {runtime : BudgetRuntime} {digests : Digests} {records : Records}
  {budgets budgets' : Budgets} {now usageEventId : String} {grant : Grant} {route : EffectiveRoute}
  {request : InferenceRequest} {clock : GrantClock} {input : ReserveInput}
  {receipt : Option Receipt} {reservation : Receipt}

theorem requireGrant_eq_ok {grantId : String} (h : budgets.requireGrant grantId = .ok grant) :
    grant ∈ budgets.grants ∧ grant.terms.grantId = grantId := by
  unfold Budgets.requireGrant at h
  cases hget : budgets.getGrant grantId with
  | none =>
      rw [hget] at h
      cases h
  | some found =>
      rw [hget] at h
      obtain rfl : found = grant := Except.ok.inj h
      have hid := List.find?_some hget
      exact ⟨List.mem_of_find?_eq_some hget, by simpa using hid⟩

/-- What a balance calls available is not more than what is left of the grant. -/
theorem fits_of_balance {balance : Balance} {requests cost : Nat} (hgrant : grant ∈ budgets.grants)
    (h : budgets.balance grant now = .ok balance)
    (hfits : ¬(balance.availableRequests < requests ∨ balance.availableCostMicrousd < cost)) :
    Fits budgets grant requests cost := by
  unfold Budgets.balance at h
  simp only at h
  split at h
  · cases h
  · obtain rfl := Except.ok.inj h
    simp only [not_or, not_lt] at hfits
    obtain ⟨hrequests, hcost⟩ := hfits
    refine ⟨hgrant, ?_, ?_⟩
    · split at hrequests
      · exact hrequests
      · exact hrequests.trans (Nat.zero_le _)
    · split at hcost
      · exact hcost
      · exact hcost.trans (Nat.zero_le _)

theorem insertReservation_eq_ok {row : Reservation}
    (h : budgets.insertReservation row = .ok budgets') :
    budgets.getReservation row.reservationId = none ∧
      budgets.reservationOf row.operationId row.dispatchGeneration = none ∧
      budgets' = { budgets with reservations := budgets.reservations ++ [row] } := by
  unfold Budgets.insertReservation at h
  split at h
  · cases h
  · rename_i hfresh
    simp only [not_or, Bool.not_eq_true, Option.isSome_eq_false_iff,
      Option.isNone_iff_eq_none] at hfresh
    exact ⟨hfresh.1, hfresh.2, (Except.ok.inj h).symm⟩

theorem createGrant_writes {input : GrantInput} {operatorId : String}
    (h : createGrant runtime input operatorId now budgets = .ok (grant, budgets')) :
    Writes budgets budgets' := by
  unfold createGrant at h
  obtain ⟨terms, -, h⟩ := bind_eq_ok.mp h
  obtain ⟨operator, -, h⟩ := bind_eq_ok.mp h
  cases hget : budgets.getGrant terms.grantId with
  | some existing =>
      rw [hget] at h
      obtain ⟨_, -, h⟩ := bind_eq_ok.mp h
      obtain ⟨-, rfl⟩ := ok_pair_inj h
      exact .refl
  | none =>
      rw [hget] at h
      simp only at h
      split at h
      · cases h
      · obtain ⟨-, rfl⟩ := ok_pair_inj h
        apply Relation.ReflTransGen.single
        exact .addGrant
          { terms, operatorId := operator, createdAt := now, revokedAt := none, revision := 1 }
          hget

theorem revokeGrant_writes {grantId : String} {expectedRevision : Nat}
    (h : revokeGrant grantId expectedRevision now budgets = .ok (grant, budgets')) :
    Writes budgets budgets' := by
  unfold revokeGrant at h
  obtain ⟨found, -, h⟩ := bind_eq_ok.mp h
  split at h
  · obtain ⟨-, rfl⟩ := ok_pair_inj h
    exact .refl
  · split at h
    · cases h
    · obtain ⟨_, -, h⟩ := bind_eq_ok.mp h
      obtain ⟨-, rfl⟩ := ok_pair_inj h
      exact .single (.revokeGrant grantId expectedRevision now)

theorem reserveFirst_writes {reservationId : String} (hgrant : grant ∈ budgets.grants)
    (h : reserveFirst runtime digests input grant request clock reservationId budgets =
      .ok (receipt, budgets')) : Writes budgets budgets' := by
  unfold reserveFirst at h
  split at h
  · obtain ⟨-, rfl⟩ := ok_pair_inj h
    exact .refl
  · split at h
    · cases h
    · obtain ⟨route, -, h⟩ := bind_eq_ok.mp h
      obtain ⟨cost, -, h⟩ := bind_eq_ok.mp h
      obtain ⟨balance, hbalance, h⟩ := bind_eq_ok.mp h
      split at h
      · obtain ⟨-, rfl⟩ := ok_pair_inj h
        exact .refl
      · rename_i hfits
        obtain ⟨normalized, -, h⟩ := bind_eq_ok.mp h
        obtain ⟨inserted, hinsert, h⟩ := bind_eq_ok.mp h
        obtain ⟨-, rfl⟩ := ok_pair_inj h
        obtain ⟨hid, hoperation, rfl⟩ := insertReservation_eq_ok hinsert
        apply Relation.ReflTransGen.single
        exact @Write.addReservation budgets grant _ rfl rfl rfl
          (fits_of_balance hgrant hbalance hfits) hid hoperation

theorem reserve_writes {grantId : String} {reservationId : String}
    (h : reserve runtime digests records input grantId clock reservationId budgets =
      .ok (receipt, budgets')) : Writes budgets budgets' := by
  unfold reserve at h
  obtain ⟨sha256, -, h⟩ := bind_eq_ok.mp h
  split at h
  · cases h
  · obtain ⟨request, -, h⟩ := bind_eq_ok.mp h
    obtain ⟨_, -, h⟩ := bind_eq_ok.mp h
    obtain ⟨grant, hgrant, h⟩ := bind_eq_ok.mp h
    obtain ⟨_, -, h⟩ := bind_eq_ok.mp h
    cases hprior : budgets.reservationOf input.operation.operationId
        input.operation.dispatchGeneration with
    | some prior =>
        rw [hprior] at h
        simp only at h
        split at h
        · cases h
        · obtain ⟨_, -, h⟩ := bind_eq_ok.mp h
          obtain ⟨-, rfl⟩ := ok_pair_inj h
          exact .refl
    | none =>
        rw [hprior] at h
        exact reserveFirst_writes (requireGrant_eq_ok hgrant).1 h

theorem reserveFromGrants_writes {readings : GrantReadings} {grants : List Grant} :
    ∀ {budgets : Budgets},
      reserveFromGrants runtime digests records input readings budgets grants =
        .ok (receipt, budgets') → Writes budgets budgets' := by
  induction grants with
  | nil =>
      intro budgets h
      obtain ⟨-, rfl⟩ := ok_pair_inj h
      exact .refl
  | cons grant grants ih =>
      intro budgets h
      obtain ⟨⟨reservation, middle⟩, hreserve, h⟩ := bind_eq_ok.mp h
      have hfirst : Writes budgets middle := reserve_writes hreserve
      cases reservation with
      | some found =>
          obtain ⟨-, rfl⟩ := ok_pair_inj h
          exact hfirst
      | none => exact hfirst.trans (ih h)

theorem reserveForWorker_writes {readings : GrantReadings}
    (h : reserveForWorker runtime digests records input now readings budgets =
      .ok (receipt, budgets')) : Writes budgets budgets' := by
  unfold reserveForWorker at h
  obtain ⟨request, -, h⟩ := bind_eq_ok.mp h
  cases hprior : budgets.reservationOf request.operationId request.dispatchGeneration with
  | some prior =>
      rw [hprior] at h
      exact reserve_writes h
  | none =>
      rw [hprior] at h
      exact reserveFromGrants_writes h

theorem authorizeFirstRelatedAttempt_writes {row : Reservation} {cap : Nat}
    (hgrant : grant ∈ budgets.grants) (hid : row.grantId = grant.terms.grantId)
    (hnew : budgets.getDispatch usageEventId = none)
    (h : authorizeFirstRelatedAttempt runtime digests usageEventId route row grant cap
      clock budgets = .ok budgets') : Writes budgets budgets' := by
  unfold authorizeFirstRelatedAttempt at h
  obtain ⟨cost, -, h⟩ := bind_eq_ok.mp h
  obtain ⟨balance, hbalance, h⟩ := bind_eq_ok.mp h
  split at h
  · cases h
  · rename_i hfits
    obtain ⟨routeSha256, -, h⟩ := bind_eq_ok.mp h
    obtain rfl := Except.ok.inj h
    apply Relation.ReflTransGen.single
    exact @Write.addDispatch budgets grant _ hid rfl
      (fits_of_balance hgrant hbalance hfits) hnew

theorem authorizeRelatedAttempt_writes
    (h : authorizeRelatedAttempt runtime digests records reservation usageEventId route
      clock budgets = .ok budgets') : Writes budgets budgets' := by
  unfold authorizeRelatedAttempt at h
  obtain ⟨route, -, h⟩ := bind_eq_ok.mp h
  obtain ⟨⟨row, request⟩, -, h⟩ := bind_eq_ok.mp h
  obtain ⟨grant, hgrant, h⟩ := bind_eq_ok.mp h
  obtain ⟨hmem, hid⟩ := requireGrant_eq_ok hgrant
  split at h
  · cases h
  · split at h
    · cases h
    · split at h
      · cases h
      · obtain ⟨_, -, h⟩ := bind_eq_ok.mp h
        cases hprior : budgets.getDispatch usageEventId with
        | some prior =>
            rw [hprior] at h
            simp only at h
            split at h
            · cases h
            · obtain rfl := Except.ok.inj h
              exact .refl
        | none =>
            rw [hprior] at h
            exact authorizeFirstRelatedAttempt_writes hmem hid.symm hprior h

/-- A dispatch is closed, if at all, as settled or released. -/
theorem dispatchClosing_not_held {kind : String} {usage : UsageEvent} {closed : RowStatus Nat}
    (h : dispatchClosing runtime kind usage now = .ok (some closed)) : closed.isHeld = false := by
  unfold dispatchClosing at h
  split at h
  · obtain rfl := Option.some.inj (Except.ok.inj h)
    rfl
  · split at h
    · cases Except.ok.inj h
    · split at h
      · cases h
      · obtain rfl := Option.some.inj (Except.ok.inj h)
        rfl

theorem reconcileRelatedAttempt_writes {dispatch : Dispatch String}
    (h : reconcileRelatedAttempt runtime digests records request now dispatch budgets =
      .ok budgets') : Writes budgets budgets' := by
  unfold reconcileRelatedAttempt at h
  split at h
  · cases h
  · obtain ⟨route, -, h⟩ := bind_eq_ok.mp h
    obtain ⟨sha256, -, h⟩ := bind_eq_ok.mp h
    split at h
    · cases h
    · obtain ⟨_, -, h⟩ := bind_eq_ok.mp h
      obtain ⟨closing, hclosing, h⟩ := bind_eq_ok.mp h
      cases closing with
      | none =>
          obtain rfl := Except.ok.inj h
          exact .refl
      | some closed =>
          obtain rfl := Except.ok.inj h
          exact .single (.closeDispatch _ closed (dispatchClosing_not_held hclosing))

theorem reconcileDispatches_writes {now : String → String} {dispatches : List (Dispatch String)} :
    ∀ {budgets : Budgets},
      reconcileDispatches runtime digests records request now dispatches budgets =
        .ok budgets' → Writes budgets budgets' := by
  induction dispatches with
  | nil =>
      intro budgets h
      obtain rfl := Except.ok.inj h
      exact .refl
  | cons dispatch dispatches ih =>
      intro budgets h
      obtain ⟨middle, hfirst, h⟩ := bind_eq_ok.mp h
      exact (reconcileRelatedAttempt_writes hfirst).trans (ih h)

theorem reconcileRelatedAttempts_writes {now : String → String}
    (h : reconcileRelatedAttempts runtime digests records reservation now budgets =
      .ok budgets') : Writes budgets budgets' := by
  unfold reconcileRelatedAttempts at h
  obtain ⟨⟨row, request⟩, -, h⟩ := bind_eq_ok.mp h
  obtain ⟨_, -, h⟩ := bind_eq_ok.mp h
  exact reconcileDispatches_writes h

/-- No more requests are accounted than there are attempts. -/
theorem accountAttempts_le {attempts : List UsageEvent} :
    ∀ {cost dispatchedRequests : Nat},
      accountAttempts runtime request route attempts = .ok (cost, dispatchedRequests) →
        dispatchedRequests ≤ attempts.length := by
  induction attempts with
  | nil =>
      intro cost dispatchedRequests h
      obtain ⟨-, rfl⟩ := ok_pair_inj h
      exact Nat.le_refl 0
  | cons attempt attempts ih =>
      intro cost dispatchedRequests h
      obtain ⟨_, -, h⟩ := bind_eq_ok.mp h
      split at h
      · exact (ih h).trans (Nat.le_succ _)
      · split at h
        · cases h
        · obtain ⟨⟨rest, dispatched⟩, hrest, h⟩ := bind_eq_ok.mp h
          obtain ⟨-, rfl⟩ := ok_pair_inj h
          exact Nat.succ_le_succ (ih hrest)

theorem assertInventory_eq_ok {attempts : List UsageEvent} {usageEventIds : List String}
    (h : assertInventory attempts usageEventIds = .ok ()) :
    attempts.length ≤ maxAttempts := by
  unfold assertInventory at h
  split at h
  · cases h
  · rename_i hinventory
    simp only [not_or, not_lt] at hinventory
    exact hinventory.2.1

theorem settleAccounted_writes {row : Reservation} {hash : String} {cost dispatchedRequests : Nat}
    (hle : dispatchedRequests ≤ maxAttempts)
    (h : settleAccounted row request hash now cost dispatchedRequests budgets =
      .ok budgets') : Writes budgets budgets' := by
  unfold settleAccounted at h
  split at h
  · cases h
  · split at h
    · split at h
      · cases h
      · split at h
        · obtain rfl := Except.ok.inj h
          exact .refl
        · obtain rfl := Except.ok.inj h
          exact .single (.closeReservation _ _ rfl (by intro _ _ hclosed; cases hclosed))
    · split at h
      · cases h
      · obtain rfl := Except.ok.inj h
        apply Relation.ReflTransGen.single
        refine .closeReservation _ _ rfl ?_
        intro usage closedAt hclosed
        obtain ⟨rfl, -⟩ := RowStatus.settled.inj hclosed
        exact hle

theorem settle_writes {usageEventIds : List String}
    (h : settle runtime digests records reservation usageEventIds now budgets =
      .ok budgets') : Writes budgets budgets' := by
  unfold settle at h
  obtain ⟨normalized, -, h⟩ := bind_eq_ok.mp h
  obtain ⟨⟨row, request⟩, -, h⟩ := bind_eq_ok.mp h
  obtain ⟨_, -, h⟩ := bind_eq_ok.mp h
  split at h
  · obtain rfl := Except.ok.inj h
    exact .refl
  · obtain ⟨_, -, h⟩ := bind_eq_ok.mp h
    obtain ⟨_, hinventory, h⟩ := bind_eq_ok.mp h
    obtain ⟨route, -, h⟩ := bind_eq_ok.mp h
    obtain ⟨⟨cost, dispatchedRequests⟩, haccount, h⟩ := bind_eq_ok.mp h
    have hle : dispatchedRequests ≤ maxAttempts :=
      (accountAttempts_le haccount).trans (assertInventory_eq_ok hinventory)
    exact settleAccounted_writes hle h

theorem release_writes {reason : ReleaseReason}
    (h : release runtime records reservation reason now budgets = .ok budgets') :
    Writes budgets budgets' := by
  unfold release at h
  obtain ⟨⟨row, request⟩, -, h⟩ := bind_eq_ok.mp h
  obtain ⟨_, -, h⟩ := bind_eq_ok.mp h
  split at h
  · cases h
  · split at h
    · obtain rfl := Except.ok.inj h
      exact .refl
    · cases h
    · obtain rfl := Except.ok.inj h
      exact .single (.closeReservation _ _ rfl (by intro _ _ hclosed; cases hclosed))

theorem authorizeToolAttemptUnder_writes {execution : ToolExecution} {grantId : String}
    {prior : Option (Dispatch ToolIntent)} {result : Option Budgets}
    (hprior : budgets.getToolDispatch usageEventId = prior)
    (h : authorizeToolAttemptUnder runtime digests records execution usageEventId route
      prior clock grantId budgets = .ok result) :
    ∀ budgets', result = some budgets' → Writes budgets budgets' := by
  unfold authorizeToolAttemptUnder at h
  obtain ⟨grant, hgrant, h⟩ := bind_eq_ok.mp h
  intro budgets' hresult
  subst hresult
  split at h
  · cases Except.ok.inj h
  · split at h
    · cases h
    · split at h
      · cases h
      · obtain ⟨_, -, h⟩ := bind_eq_ok.mp h
        cases prior with
        | some prior =>
            simp only at h
            split at h
            · cases h
            · obtain rfl := Option.some.inj (Except.ok.inj h)
              exact .refl
        | none =>
            obtain ⟨cost, -, h⟩ := bind_eq_ok.mp h
            obtain ⟨balance, hbalance, h⟩ := bind_eq_ok.mp h
            split at h
            · cases Except.ok.inj h
            · rename_i hfits
              obtain rfl := Option.some.inj (Except.ok.inj h)
              apply Relation.ReflTransGen.single
              exact @Write.addToolDispatch budgets grant _ rfl rfl
                (fits_of_balance (requireGrant_eq_ok hgrant).1 hbalance hfits) hprior

theorem authorizeToolAttemptFrom_writes {execution : ToolExecution}
    {prior : Option (Dispatch ToolIntent)} {clock : String → GrantClock} {grantIds : List String}
    (hprior : budgets.getToolDispatch usageEventId = prior)
    (h : authorizeToolAttemptFrom runtime digests records execution usageEventId route
      prior clock budgets grantIds = .ok budgets') : Writes budgets budgets' := by
  induction grantIds with
  | nil => cases h
  | cons grantId grantIds ih =>
      obtain ⟨result, hunder, h⟩ := bind_eq_ok.mp h
      cases result with
      | some found =>
          obtain rfl := Except.ok.inj h
          exact authorizeToolAttemptUnder_writes hprior hunder _ rfl
      | none => exact ih h

theorem authorizeToolAttempt_writes {execution : Except String ToolExecution}
    {clock : String → GrantClock}
    (h : authorizeToolAttempt runtime digests records execution usageEventId route now
      clock budgets = .ok budgets') : Writes budgets budgets' := by
  unfold authorizeToolAttempt at h
  obtain ⟨route, -, h⟩ := bind_eq_ok.mp h
  obtain ⟨execution, -, h⟩ := bind_eq_ok.mp h
  exact authorizeToolAttemptFrom_writes rfl h

theorem reconcileToolAttempt_writes
    (h : reconcileToolAttempt runtime digests records usageEventId now budgets =
      .ok budgets') : Writes budgets budgets' := by
  unfold reconcileToolAttempt at h
  split at h
  · obtain rfl := Except.ok.inj h
    exact .refl
  · obtain ⟨_, -, h⟩ := bind_eq_ok.mp h
    split at h
    · obtain rfl := Except.ok.inj h
      exact .refl
    · split at h
      · cases h
      · obtain ⟨route, -, h⟩ := bind_eq_ok.mp h
        split at h
        · cases h
        · obtain ⟨_, -, h⟩ := bind_eq_ok.mp h
          obtain ⟨closing, hclosing, h⟩ := bind_eq_ok.mp h
          cases closing with
          | none =>
              obtain rfl := Except.ok.inj h
              exact .refl
          | some closed =>
              obtain rfl := Except.ok.inj h
              exact .single
                (.closeToolDispatch _ closed (dispatchClosing_not_held hclosing))

end Operations

/-! ## Calls -/

/-- A call of the repository, with what it reads of the clock and of other
repositories. -/
inductive Call
  | createGrant (input : GrantInput) (operatorId now : String)
  | revokeGrant (grantId : String) (expectedRevision : Nat) (now : String)
  | reserve (records : Records) (input : ReserveInput) (grantId : String)
      (clock : GrantClock) (reservationId : String)
  | reserveForWorker (records : Records) (input : ReserveInput) (now : String)
      (readings : GrantReadings)
  | authorizeRelatedAttempt (records : Records) (reservation : Receipt)
      (usageEventId : String) (route : EffectiveRoute) (clock : GrantClock)
  | reconcileRelatedAttempts (records : Records) (reservation : Receipt)
      (now : String → String)
  | settle (records : Records) (reservation : Receipt) (usageEventIds : List String)
      (now : String)
  | release (records : Records) (reservation : Receipt) (reason : ReleaseReason)
      (now : String)
  | authorizeToolAttempt (records : Records) (execution : Except String ToolExecution)
      (usageEventId : String) (route : EffectiveRoute) (now : String)
      (clock : String → GrantClock)
  | reconcileToolAttempt (records : Records) (usageEventId now : String)

section Calls

variable (runtime : BudgetRuntime) (digests : Digests)

/-- The tables after a call that returns. -/
def Call.perform (budgets : Budgets) : Call → Except String Budgets
  | .createGrant input operatorId now =>
      Prod.snd <$> RemoteWorker.createGrant runtime input operatorId now budgets
  | .revokeGrant grantId expectedRevision now =>
      Prod.snd <$> RemoteWorker.revokeGrant grantId expectedRevision now budgets
  | .reserve records input grantId clock reservationId =>
      Prod.snd <$> RemoteWorker.reserve runtime digests records input grantId clock
        reservationId budgets
  | .reserveForWorker records input now readings =>
      Prod.snd <$> RemoteWorker.reserveForWorker runtime digests records input now
        readings budgets
  | .authorizeRelatedAttempt records reservation usageEventId route clock =>
      RemoteWorker.authorizeRelatedAttempt runtime digests records reservation
        usageEventId route clock budgets
  | .reconcileRelatedAttempts records reservation now =>
      RemoteWorker.reconcileRelatedAttempts runtime digests records reservation now budgets
  | .settle records reservation usageEventIds now =>
      RemoteWorker.settle runtime digests records reservation usageEventIds now budgets
  | .release records reservation reason now =>
      RemoteWorker.release runtime records reservation reason now budgets
  | .authorizeToolAttempt records execution usageEventId route now clock =>
      RemoteWorker.authorizeToolAttempt runtime digests records execution usageEventId
        route now clock budgets
  | .reconcileToolAttempt records usageEventId now =>
      RemoteWorker.reconcileToolAttempt runtime digests records usageEventId now budgets

/-- The tables after a transaction; they stay as they are when it throws. -/
def Call.after (budgets : Budgets) (call : Call) : Budgets :=
  match call.perform runtime digests budgets with
  | .ok written => written
  | .error _ => budgets

/-- One transaction. -/
def Budgets.Step (budgets : Budgets) (call : Call) (budgets' : Budgets) : Prop :=
  budgets' = call.after runtime digests budgets

end Calls

section

variable {runtime : BudgetRuntime} {digests : Digests} {budgets budgets' : Budgets}

theorem perform_writes {call : Call} (h : call.perform runtime digests budgets = .ok budgets') :
    Writes budgets budgets' := by
  cases call with
  | createGrant input operatorId now =>
      obtain ⟨_, h⟩ := map_snd_eq_ok h
      exact createGrant_writes h
  | revokeGrant grantId expectedRevision now =>
      obtain ⟨_, h⟩ := map_snd_eq_ok h
      exact revokeGrant_writes h
  | reserve records input grantId clock reservationId =>
      obtain ⟨_, h⟩ := map_snd_eq_ok h
      exact reserve_writes h
  | reserveForWorker records input now readings =>
      obtain ⟨_, h⟩ := map_snd_eq_ok h
      exact reserveForWorker_writes h
  | authorizeRelatedAttempt records reservation usageEventId route clock =>
      exact authorizeRelatedAttempt_writes h
  | reconcileRelatedAttempts records reservation now =>
      exact reconcileRelatedAttempts_writes h
  | settle records reservation usageEventIds now => exact settle_writes h
  | release records reservation reason now => exact release_writes h
  | authorizeToolAttempt records execution usageEventId route now clock =>
      exact authorizeToolAttempt_writes h
  | reconcileToolAttempt records usageEventId now => exact reconcileToolAttempt_writes h

/-- What a transaction does to the tables, it does by writes. -/
theorem step_writes {call : Call} (h : Budgets.Step runtime digests budgets call budgets') :
    Writes budgets budgets' := by
  obtain rfl : budgets' = call.after runtime digests budgets := h
  unfold Call.after
  cases hperform : call.perform runtime digests budgets with
  | error error => exact .refl
  | ok written => exact perform_writes hperform

theorem run_writes {calls : List Call}
    (h : Run (Budgets.Step runtime digests) budgets calls budgets') :
    Writes budgets budgets' := by
  induction h with
  | nil => exact .refl
  | cons hstep _ ih => exact (step_writes hstep).trans ih

end

/-! ## Rows -/

/-- A row after some writes: as it was, or closed in between. -/
structure Kept {ρ α : Type} (status : ρ → RowStatus α) (set : ρ → RowStatus α → ρ)
    (row row' : ρ) : Prop where
  row_eq : row' = row ∨ ((status row).isHeld = true ∧
    ∃ closed, closed.isHeld = false ∧ row' = set row closed)

section Rows

variable {ρ α : Type} {key : ρ → String} {status : ρ → RowStatus α}
  {set : ρ → RowStatus α → ρ}

theorem Kept.refl (row : ρ) : Kept status set row row := ⟨.inl rfl⟩

/-- A closed row stays as it is. -/
theorem Kept.eq_of_closed {row row' : ρ} (h : Kept status set row row')
    (hclosed : (status row).isHeld = false) : row' = row := by
  obtain heq | ⟨hheld, -⟩ := h.row_eq
  · exact heq
  · rw [hclosed] at hheld
    cases hheld

theorem Kept.trans {row row' row'' : ρ} (hstatus : ∀ row closed, status (set row closed) = closed)
    (h : Kept status set row row') (h' : Kept status set row' row'') :
    Kept status set row row'' := by
  obtain rfl | ⟨hheld, closed, hclosed, rfl⟩ := h.row_eq
  · exact h'
  · have heq : row'' = set row closed := h'.eq_of_closed (by rw [hstatus]; exact hclosed)
    exact ⟨.inr ⟨hheld, closed, hclosed, heq⟩⟩

theorem kept_closeRows {id : String} {closed : RowStatus α} {rows : List ρ}
    (hclosed : closed.isHeld = false) :
    List.Forall₂ (Kept status set) rows
      (Budgets.closeRows key status set id closed rows) := by
  unfold Budgets.closeRows
  rw [List.forall₂_map_right_iff, List.forall₂_same]
  intro row _
  split
  · rename_i hrow
    exact ⟨.inr ⟨hrow.2, closed, hclosed, rfl⟩⟩
  · exact Kept.refl row

/-- Closing a row closes its hold. -/
theorem Kept.closes {used : α → Nat} {reserved : ρ → Nat} {row row' : ρ}
    (hstatus : ∀ row closed, status (set row closed) = closed)
    (hreserved : ∀ row closed, reserved (set row closed) = reserved row)
    (h : Kept status set row row') :
    Hold.Closes ((status row).hold used (reserved row))
      ((status row').hold used (reserved row')) := by
  obtain rfl | ⟨hheld, closed, -, rfl⟩ := h.row_eq
  · exact .inl rfl
  · refine .inr ⟨?_, ?_⟩
    · cases hrow : status row with
      | held => rfl
      | settled usage closedAt =>
          rw [hrow] at hheld
          cases hheld
      | released closedAt =>
          rw [hrow] at hheld
          cases hheld
    · rw [hstatus, hreserved]
      cases closed <;> cases status row <;> rfl

end Rows

/-! ## Sound tables -/

/-- The holds of a grant, of the requests and of the money, keep its limits. -/
def GrantKept (budgets : Budgets) (grant : Grant) : Prop :=
  Hold.Covered grant.terms.maxRequests (budgets.requestHolds grant.terms.grantId) ∧
    Hold.Covered grant.terms.maxCostMicrousd (budgets.costHolds grant.terms.grantId)

/-- What every write keeps. -/
structure Sound (budgets : Budgets) : Prop where
  grantIds : (budgets.grants.map (·.terms.grantId)).Nodup
  reservationIds : (budgets.reservations.map (·.reservationId)).Nodup
  operations :
    (budgets.reservations.map fun row => (row.operationId, row.dispatchGeneration)).Nodup
  dispatchIds : (budgets.dispatches.map (·.usageEventId)).Nodup
  toolDispatchIds : (budgets.toolDispatches.map (·.usageEventId)).Nodup
  reservationsGranted : ∀ row ∈ budgets.reservations,
    ∃ grant ∈ budgets.grants, grant.terms.grantId = row.grantId
  dispatchesGranted : ∀ row ∈ budgets.dispatches,
    ∃ grant ∈ budgets.grants, grant.terms.grantId = row.grantId
  toolDispatchesGranted : ∀ row ∈ budgets.toolDispatches,
    ∃ grant ∈ budgets.grants, grant.terms.grantId = row.grantId
  reservedRequests : ∀ row ∈ budgets.reservations, row.reservedRequests = maxAttempts
  withinReserved : ∀ row ∈ budgets.reservations, Hold.overrun row.requests = 0
  grantsKept : ∀ grant ∈ budgets.grants, GrantKept budgets grant

theorem sound_initial : Sound .initial where
  grantIds := .nil
  reservationIds := .nil
  operations := .nil
  dispatchIds := .nil
  toolDispatchIds := .nil
  reservationsGranted := by intro row hrow; cases hrow
  dispatchesGranted := by intro row hrow; cases hrow
  toolDispatchesGranted := by intro row hrow; cases hrow
  reservedRequests := by intro row hrow; cases hrow
  withinReserved := by intro row hrow; cases hrow
  grantsKept := by intro grant hgrant; cases hgrant

section Sound

variable {budgets budgets' : Budgets}

/-- Nothing is held of a grant that does not exist yet. -/
theorem Sound.no_holds (h : Sound budgets) {grantId : String}
    (hnone : budgets.getGrant grantId = none) :
    budgets.requestHolds grantId = [] ∧ budgets.costHolds grantId = [] := by
  have habsent : ∀ grant ∈ budgets.grants, grant.terms.grantId ≠ grantId := by
    simpa [Budgets.getGrant] using hnone
  have hrows : ∀ {ρ : Type} {ofRow : ρ → String} {rows : List ρ},
      (∀ row ∈ rows, ∃ grant ∈ budgets.grants, grant.terms.grantId = ofRow row) →
        rows.filter (ofRow · = grantId) = [] := by
    intro ρ ofRow rows hgranted
    apply List.filter_eq_nil_iff.mpr
    intro row hrow
    obtain ⟨grant, hgrant, hid⟩ := hgranted row hrow
    have hne := habsent grant hgrant
    simpa [← hid] using hne
  simp [Budgets.requestHolds, Budgets.costHolds, hrows h.reservationsGranted,
    hrows h.dispatchesGranted, hrows h.toolDispatchesGranted]

/-! ## A row is added -/

/-- Two grants of one identifier are one. -/
theorem Sound.grant_eq (h : Sound budgets) {grant other : Grant}
    (hgrant : grant ∈ budgets.grants) (hother : other ∈ budgets.grants)
    (hid : grant.terms.grantId = other.terms.grantId) : grant = other :=
  List.inj_on_of_nodup_map h.grantIds hgrant hother hid

/-- A hold of the amount stands somewhere among the other holds. -/
def Inserted (amount : Nat) (holds holds' : List Hold) : Prop :=
  ∃ before after, holds = before ++ after ∧ holds' = before ++ ⟨amount, .held⟩ :: after

/-- A new row that fits in its grant keeps the limits of every grant. -/
theorem Sound.grantsKept_insert (h : Sound budgets) {grant : Grant} {requests cost : Nat}
    (hfits : Fits budgets grant requests cost) (hgrants : budgets'.grants = budgets.grants)
    (hrequests : Inserted requests (budgets.requestHolds grant.terms.grantId)
      (budgets'.requestHolds grant.terms.grantId))
    (hcost : Inserted cost (budgets.costHolds grant.terms.grantId)
      (budgets'.costHolds grant.terms.grantId))
    (hothers : ∀ grantId, grant.terms.grantId ≠ grantId →
      budgets'.requestHolds grantId = budgets.requestHolds grantId ∧
        budgets'.costHolds grantId = budgets.costHolds grantId) :
    ∀ other ∈ budgets'.grants, GrantKept budgets' other := by
  intro other hother
  rw [hgrants] at hother
  obtain ⟨hleft, hright⟩ := h.grantsKept other hother
  by_cases hsame : grant.terms.grantId = other.terms.grantId
  · obtain rfl : grant = other := h.grant_eq hfits.granted hother hsame
    obtain ⟨before, after, hbefore, hafter⟩ := hrequests
    obtain ⟨beforeCost, afterCost, hbeforeCost, hafterCost⟩ := hcost
    have hfitsRequests := hfits.requests
    have hfitsCost := hfits.cost
    rw [hbefore] at hleft hfitsRequests
    rw [hbeforeCost] at hright hfitsCost
    rw [GrantKept, hafter, hafterCost]
    exact ⟨hleft.append_held hfitsRequests, hright.append_held hfitsCost⟩
  · obtain ⟨hsameRequests, hsameCost⟩ := hothers other.terms.grantId hsame
    rw [GrantKept, hsameRequests, hsameCost]
    exact ⟨hleft, hright⟩

theorem Sound.addReservation (h : Sound budgets) {grant : Grant} {row : Reservation}
    (hid : row.grantId = grant.terms.grantId) (hheld : row.status = .held)
    (hreserved : row.reservedRequests = maxAttempts)
    (hfits : Fits budgets grant row.reservedRequests row.reservedCostMicrousd)
    (hfresh : budgets.getReservation row.reservationId = none)
    (hfirst : budgets.reservationOf row.operationId row.dispatchGeneration = none) :
    Sound { budgets with reservations := budgets.reservations ++ [row] } :=
  { h with
    reservationIds := by
      apply nodup_map_append_singleton h.reservationIds
      simpa [Budgets.getReservation] using hfresh
    operations := by
      apply nodup_map_append_singleton h.operations
      intro other hother heq
      obtain ⟨hoperation, hgeneration⟩ := Prod.mk.inj heq
      have hnone := List.find?_eq_none.mp hfirst other hother
      simp [hoperation, hgeneration] at hnone
    reservationsGranted :=
      forall_mem_append_singleton h.reservationsGranted ⟨grant, hfits.granted, hid.symm⟩
    reservedRequests := forall_mem_append_singleton h.reservedRequests hreserved
    withinReserved := by
      apply forall_mem_append_singleton h.withinReserved
      simp [Reservation.requests, hheld, RowStatus.hold, Hold.overrun]
    grantsKept := by
      refine h.grantsKept_insert hfits rfl ⟨_, _, rfl, ?_⟩ ⟨_, _, rfl, ?_⟩ ?_
      · simp [Budgets.requestHolds, hid, Reservation.requests, hheld, RowStatus.hold]
      · simp [Budgets.costHolds, hid, Reservation.cost, hheld, RowStatus.hold]
      · intro grantId hne
        simp [Budgets.requestHolds, Budgets.costHolds, hid, hne] }

theorem Sound.addDispatch (h : Sound budgets) {grant : Grant} {row : Dispatch String}
    (hid : row.grantId = grant.terms.grantId) (hheld : row.status = .held)
    (hfits : Fits budgets grant 1 row.reservedCostMicrousd)
    (hfresh : budgets.getDispatch row.usageEventId = none) :
    Sound { budgets with dispatches := budgets.dispatches ++ [row] } :=
  { h with
    dispatchIds := by
      apply nodup_map_append_singleton h.dispatchIds
      simpa [Budgets.getDispatch] using hfresh
    dispatchesGranted :=
      forall_mem_append_singleton h.dispatchesGranted ⟨grant, hfits.granted, hid.symm⟩
    grantsKept := by
      refine h.grantsKept_insert hfits rfl ⟨_, _, (List.append_assoc _ _ _).symm, ?_⟩
        ⟨_, _, (List.append_assoc _ _ _).symm, ?_⟩ ?_
      · simp [Budgets.requestHolds, hid, Dispatch.requests, hheld, RowStatus.hold]
      · simp [Budgets.costHolds, hid, Dispatch.cost, hheld, RowStatus.hold]
      · intro grantId hne
        simp [Budgets.requestHolds, Budgets.costHolds, hid, hne] }

theorem Sound.addToolDispatch (h : Sound budgets) {grant : Grant}
    {row : Dispatch ToolIntent} (hid : row.grantId = grant.terms.grantId)
    (hheld : row.status = .held) (hfits : Fits budgets grant 1 row.reservedCostMicrousd)
    (hfresh : budgets.getToolDispatch row.usageEventId = none) :
    Sound { budgets with toolDispatches := budgets.toolDispatches ++ [row] } :=
  { h with
    toolDispatchIds := by
      apply nodup_map_append_singleton h.toolDispatchIds
      simpa [Budgets.getToolDispatch] using hfresh
    toolDispatchesGranted :=
      forall_mem_append_singleton h.toolDispatchesGranted ⟨grant, hfits.granted, hid.symm⟩
    grantsKept := by
      refine h.grantsKept_insert hfits rfl ⟨_, _, (List.append_nil _).symm, ?_⟩
        ⟨_, _, (List.append_nil _).symm, ?_⟩ ?_
      · simp [Budgets.requestHolds, hid, Dispatch.requests, hheld, RowStatus.hold]
      · simp [Budgets.costHolds, hid, Dispatch.cost, hheld, RowStatus.hold]
      · intro grantId hne
        simp [Budgets.requestHolds, Budgets.costHolds, hid, hne] }

theorem Sound.addGrant (h : Sound budgets) {grant : Grant}
    (hnew : budgets.getGrant grant.terms.grantId = none) :
    Sound { budgets with grants := budgets.grants ++ [grant] } := by
  have hgranted : ∀ {grantId : String},
      (∃ other ∈ budgets.grants, other.terms.grantId = grantId) →
        ∃ other ∈ budgets.grants ++ [grant], other.terms.grantId = grantId := by
    rintro grantId ⟨other, hother, hid⟩
    exact ⟨other, List.mem_append_left _ hother, hid⟩
  exact { h with
    grantIds := by
      apply nodup_map_append_singleton h.grantIds
      simpa [Budgets.getGrant] using hnew
    reservationsGranted := fun row hrow => hgranted (h.reservationsGranted row hrow)
    dispatchesGranted := fun row hrow => hgranted (h.dispatchesGranted row hrow)
    toolDispatchesGranted := fun row hrow => hgranted (h.toolDispatchesGranted row hrow)
    grantsKept := by
      apply forall_mem_append_singleton h.grantsKept
      obtain ⟨hrequests, hcost⟩ := h.no_holds hnew
      refine ⟨?_, ?_⟩
      · rw [show Budgets.requestHolds _ grant.terms.grantId = [] from hrequests]
        exact .nil _
      · rw [show Budgets.costHolds _ grant.terms.grantId = [] from hcost]
        exact .nil _ }

/-! ## A row is closed -/

/-- The rows of a reservation table, some of them closed. -/
abbrev ReservationsKept : List Reservation → List Reservation → Prop :=
  List.Forall₂ (Kept Reservation.status Reservation.withStatus)

/-- The rows of a dispatch table, some of them closed. -/
abbrev DispatchesKept {α : Type} : List (Dispatch α) → List (Dispatch α) → Prop :=
  List.Forall₂ (Kept Dispatch.status Dispatch.withStatus)

section Kept

variable {ρ α κ : Type} {status : ρ → RowStatus α} {set : ρ → RowStatus α → ρ}
  {rows rows' : List ρ}

/-- What closing does not write is the same afterwards. -/
theorem Kept.column_eq {row row' : ρ} (h : Kept status set row row') {column : ρ → κ}
    (hcolumn : ∀ row closed, column (set row closed) = column row) :
    column row' = column row := by
  obtain rfl | ⟨-, closed, -, rfl⟩ := h.row_eq
  · rfl
  · exact hcolumn row closed

theorem map_eq_of_kept (h : List.Forall₂ (Kept status set) rows rows') {column : ρ → κ}
    (hcolumn : ∀ row closed, column (set row closed) = column row) :
    rows'.map column = rows.map column := by
  induction h with
  | nil => rfl
  | cons hhead _ ih => rw [List.map_cons, List.map_cons, hhead.column_eq hcolumn, ih]

/-- Every row of the table was a row before. -/
theorem forall_of_kept (h : List.Forall₂ (Kept status set) rows rows') {p : ρ → Prop}
    (hset : ∀ row closed, p row → p (set row closed)) (hrows : ∀ row ∈ rows, p row) :
    ∀ row ∈ rows', p row := by
  induction h with
  | nil => exact hrows
  | @cons row row' rows rows' hhead _ ih =>
      refine List.forall_mem_cons.mpr
        ⟨?_, ih fun other hother => hrows other (List.mem_cons_of_mem row hother)⟩
      have hrow : p row := hrows row List.mem_cons_self
      obtain rfl | ⟨-, closed, -, rfl⟩ := hhead.row_eq
      · exact hrow
      · exact hset row closed hrow

/-- The rows of a grant close their holds. -/
theorem closes_of_kept {used : α → Nat} {reserved : ρ → Nat} {ofRow : ρ → String}
    (h : List.Forall₂ (Kept status set) rows rows')
    (hstatus : ∀ row closed, status (set row closed) = closed)
    (hreserved : ∀ row closed, reserved (set row closed) = reserved row)
    (hofRow : ∀ row closed, ofRow (set row closed) = ofRow row) (grantId : String) :
    List.Forall₂ Hold.Closes
      ((rows.filter (ofRow · = grantId)).map fun row => (status row).hold used (reserved row))
      ((rows'.filter (ofRow · = grantId)).map fun row =>
        (status row).hold used (reserved row)) := by
  induction h with
  | nil => exact .nil
  | @cons row row' rows rows' hhead _ ih =>
      have hof : ofRow row' = ofRow row := hhead.column_eq hofRow
      by_cases hgrant : ofRow row = grantId
      · rw [List.filter_cons_of_pos (by simpa using hgrant),
          List.filter_cons_of_pos (by simpa [hof] using hgrant)]
        exact .cons (hhead.closes hstatus hreserved) ih
      · rw [List.filter_cons_of_neg (by simpa using hgrant),
          List.filter_cons_of_neg (by simpa [hof] using hgrant)]
        exact ih

end Kept

/-- Closing rows keeps the limits of every grant. -/
theorem GrantKept.close {grant : Grant} (h : GrantKept budgets grant)
    (hreservations : ReservationsKept budgets.reservations budgets'.reservations)
    (hdispatches : DispatchesKept budgets.dispatches budgets'.dispatches)
    (htools : DispatchesKept budgets.toolDispatches budgets'.toolDispatches) :
    GrantKept budgets' grant := by
  refine ⟨h.1.close ?_, h.2.close ?_⟩
  all_goals
    refine List.rel_append (closes_of_kept hreservations ?_ ?_ ?_ _)
      (List.rel_append (closes_of_kept hdispatches ?_ ?_ ?_ _) (closes_of_kept htools ?_ ?_ ?_ _))
    all_goals exact fun _ _ => rfl

/-- Closing rows keeps the tables sound, provided that no reservation is settled
with more requests than it holds. -/
theorem Sound.close (h : Sound budgets) (hgrants : budgets'.grants = budgets.grants)
    (hreservations : ReservationsKept budgets.reservations budgets'.reservations)
    (hdispatches : DispatchesKept budgets.dispatches budgets'.dispatches)
    (htools : DispatchesKept budgets.toolDispatches budgets'.toolDispatches)
    (hwithin : ∀ row ∈ budgets'.reservations, Hold.overrun row.requests = 0) :
    Sound budgets' where
  grantIds := by
    rw [hgrants]
    exact h.grantIds
  reservationIds := by
    rw [map_eq_of_kept hreservations fun _ _ => rfl]
    exact h.reservationIds
  operations := by
    rw [map_eq_of_kept hreservations fun _ _ => rfl]
    exact h.operations
  dispatchIds := by
    rw [map_eq_of_kept hdispatches fun _ _ => rfl]
    exact h.dispatchIds
  toolDispatchIds := by
    rw [map_eq_of_kept htools fun _ _ => rfl]
    exact h.toolDispatchIds
  reservationsGranted := by
    rw [hgrants]
    exact forall_of_kept hreservations (fun _ _ hrow => hrow) h.reservationsGranted
  dispatchesGranted := by
    rw [hgrants]
    exact forall_of_kept hdispatches (fun _ _ hrow => hrow) h.dispatchesGranted
  toolDispatchesGranted := by
    rw [hgrants]
    exact forall_of_kept htools (fun _ _ hrow => hrow) h.toolDispatchesGranted
  reservedRequests :=
    forall_of_kept hreservations (fun _ _ hrow => hrow) h.reservedRequests
  withinReserved := hwithin
  grantsKept := by
    rw [hgrants]
    intro grant hgrant
    exact (h.grantsKept grant hgrant).close hreservations hdispatches htools

/-- A settlement of at most two requests is within the two that are reserved. -/
theorem overrun_closeReservation {reservationId : String}
    {closed : RowStatus ReservationUsage} (hreserved : ∀ row ∈ budgets.reservations,
      row.reservedRequests = maxAttempts)
    (h : ∀ row ∈ budgets.reservations, Hold.overrun row.requests = 0)
    (hclosed : ∀ usage closedAt, closed = .settled usage closedAt →
      usage.requests ≤ maxAttempts) :
    ∀ row ∈ (budgets.closeReservation reservationId closed).reservations,
      Hold.overrun row.requests = 0 := by
  intro row hrow
  obtain ⟨before, hbefore, heq⟩ := List.mem_map.mp hrow
  split at heq
  · obtain rfl := heq
    cases hstatus : closed with
    | held => rfl
    | released closedAt => rfl
    | settled usage closedAt =>
        have hle : usage.requests ≤ before.reservedRequests := by
          rw [hreserved before hbefore]
          exact hclosed usage closedAt hstatus
        exact Nat.sub_eq_zero_of_le hle
  · rw [← heq]
    exact h before hbefore

theorem Sound.revokeGrant (h : Sound budgets) {grantId now : String} {revision : Nat} :
    Sound { budgets with
      grants := budgets.grants.map fun row =>
        if row.terms.grantId = grantId ∧ row.revision = revision then
          { row with revokedAt := some now, revision := row.revision + 1 }
        else row } := by
  have hterms : ∀ row : Grant, (if row.terms.grantId = grantId ∧ row.revision = revision then
      { row with revokedAt := some now, revision := row.revision + 1 } else row).terms =
        row.terms := by
    intro row
    split <;> rfl
  have hgranted : ∀ {id : String}, (∃ grant ∈ budgets.grants, grant.terms.grantId = id) →
      ∃ grant ∈ budgets.grants.map fun row =>
        if row.terms.grantId = grantId ∧ row.revision = revision then
          { row with revokedAt := some now, revision := row.revision + 1 }
        else row, grant.terms.grantId = id := by
    rintro id ⟨grant, hgrant, hid⟩
    refine ⟨_, List.mem_map_of_mem hgrant, ?_⟩
    rw [hterms]
    exact hid
  refine { h with
    grantIds := ?_
    reservationsGranted := fun row hrow => hgranted (h.reservationsGranted row hrow)
    dispatchesGranted := fun row hrow => hgranted (h.dispatchesGranted row hrow)
    toolDispatchesGranted := fun row hrow => hgranted (h.toolDispatchesGranted row hrow)
    grantsKept := ?_ }
  · simp only [List.map_map, Function.comp_def, hterms]
    exact h.grantIds
  · intro grant hgrant
    obtain ⟨before, hbefore, rfl⟩ := List.mem_map.mp hgrant
    have hkept := h.grantsKept before hbefore
    simp only [GrantKept, Budgets.requestHolds, Budgets.costHolds, hterms] at hkept ⊢
    exact hkept

/-! ## Runs -/

/-- The rows of a table are there afterwards, as they were or closed in between. -/
def RowsKept {ρ α : Type} (status : ρ → RowStatus α) (set : ρ → RowStatus α → ρ)
    (rows rows' : List ρ) : Prop :=
  ∀ row ∈ rows, ∃ row' ∈ rows', Kept status set row row'

theorem RowsKept.refl {ρ α : Type} {status : ρ → RowStatus α} {set : ρ → RowStatus α → ρ}
    (rows : List ρ) : RowsKept status set rows rows :=
  fun row hrow => ⟨row, hrow, Kept.refl row⟩

theorem RowsKept.append {ρ α : Type} {status : ρ → RowStatus α}
    {set : ρ → RowStatus α → ρ} (rows more : List ρ) :
    RowsKept status set rows (rows ++ more) :=
  fun row hrow => ⟨row, List.mem_append_left more hrow, Kept.refl row⟩

theorem RowsKept.close {ρ α : Type} {key : ρ → String} {status : ρ → RowStatus α}
    {set : ρ → RowStatus α → ρ} {id : String} {closed : RowStatus α} {rows : List ρ}
    (hclosed : closed.isHeld = false) :
    RowsKept status set rows (Budgets.closeRows key status set id closed rows) := by
  intro row hrow
  refine ⟨_, List.mem_map_of_mem hrow, ?_⟩
  split
  · rename_i hheld
    exact ⟨.inr ⟨hheld.2, closed, hclosed, rfl⟩⟩
  · exact Kept.refl row

theorem RowsKept.trans {ρ α : Type} {status : ρ → RowStatus α} {set : ρ → RowStatus α → ρ}
    {rows rows' rows'' : List ρ} (hstatus : ∀ row closed, status (set row closed) = closed)
    (h : RowsKept status set rows rows') (h' : RowsKept status set rows' rows'') :
    RowsKept status set rows rows'' := by
  intro row hrow
  obtain ⟨row', hrow', hkept⟩ := h row hrow
  obtain ⟨row'', hrow'', hkept'⟩ := h' row' hrow'
  exact ⟨row'', hrow'', hkept.trans hstatus hkept'⟩

/-- The reservations and the dispatches of a state are kept in a later one. -/
structure TablesKept (budgets budgets' : Budgets) : Prop where
  reservations : RowsKept Reservation.status Reservation.withStatus
    budgets.reservations budgets'.reservations
  dispatches : RowsKept Dispatch.status Dispatch.withStatus
    budgets.dispatches budgets'.dispatches

/-- What one write does: sound tables stay sound, and no row is lost or
reopened. -/
theorem Write.spec (h : Write budgets budgets') (hsound : Sound budgets) :
    Sound budgets' ∧ TablesKept budgets budgets' := by
  have hreservations : RowsKept Reservation.status Reservation.withStatus
      budgets.reservations budgets.reservations := .refl _
  have hdispatches : RowsKept Dispatch.status Dispatch.withStatus
      budgets.dispatches budgets.dispatches := .refl _
  have hsame : ReservationsKept budgets.reservations budgets.reservations :=
    List.forall₂_same.mpr fun row _ => Kept.refl row
  have hsameDispatches : DispatchesKept budgets.dispatches budgets.dispatches :=
    List.forall₂_same.mpr fun row _ => Kept.refl row
  have hsameTools : DispatchesKept budgets.toolDispatches budgets.toolDispatches :=
    List.forall₂_same.mpr fun row _ => Kept.refl row
  cases h with
  | addGrant grant hnew => exact ⟨hsound.addGrant hnew, hreservations, hdispatches⟩
  | revokeGrant grantId revision now => exact ⟨hsound.revokeGrant, hreservations, hdispatches⟩
  | addReservation row hid hheld hreserved hfits hfresh hfirst =>
      exact ⟨hsound.addReservation hid hheld hreserved hfits hfresh hfirst,
        .append _ _, hdispatches⟩
  | addDispatch row hid hheld hfits hfresh =>
      exact ⟨hsound.addDispatch hid hheld hfits hfresh, hreservations, .append _ _⟩
  | addToolDispatch row hid hheld hfits hfresh =>
      exact ⟨hsound.addToolDispatch hid hheld hfits hfresh, hreservations, hdispatches⟩
  | closeReservation reservationId closed hclosed hrequests =>
      refine ⟨hsound.close rfl (kept_closeRows hclosed) hsameDispatches hsameTools ?_,
        .close hclosed, hdispatches⟩
      exact overrun_closeReservation hsound.reservedRequests hsound.withinReserved hrequests
  | closeDispatch usageEventId closed hclosed =>
      exact ⟨hsound.close rfl hsame (kept_closeRows hclosed) hsameTools
        hsound.withinReserved, hreservations, .close hclosed⟩
  | closeToolDispatch usageEventId closed hclosed =>
      exact ⟨hsound.close rfl hsame hsameDispatches (kept_closeRows hclosed)
        hsound.withinReserved, hreservations, hdispatches⟩

theorem Writes.spec (h : Writes budgets budgets') (hsound : Sound budgets) :
    Sound budgets' ∧ TablesKept budgets budgets' := by
  induction h with
  | refl => exact ⟨hsound, .refl _, .refl _⟩
  | tail _ hwrite ih =>
      obtain ⟨hmiddle, hkept⟩ := ih
      obtain ⟨hlast, hkept'⟩ := hwrite.spec hmiddle
      exact ⟨hlast, hkept.reservations.trans (fun _ _ => rfl) hkept'.reservations,
        hkept.dispatches.trans (fun _ _ => rfl) hkept'.dispatches⟩

/-- No request of a grant is used that was not held. -/
theorem Sound.requests_within (h : Sound budgets) (grantId : String) :
    ∀ hold ∈ budgets.requestHolds grantId, Hold.overrun hold = 0 := by
  intro hold hhold
  obtain hmem | hmem | hmem := by
    simpa only [Budgets.requestHolds, List.mem_append] using hhold
  · obtain ⟨row, hrow, rfl⟩ := List.mem_map.mp hmem
    exact h.withinReserved row (List.mem_of_mem_filter hrow)
  · obtain ⟨row, -, rfl⟩ := List.mem_map.mp hmem
    cases hstatus : row.status <;> simp [Dispatch.requests, hstatus, RowStatus.hold, Hold.overrun]
  · obtain ⟨row, -, rfl⟩ := List.mem_map.mp hmem
    cases hstatus : row.status <;> simp [Dispatch.requests, hstatus, RowStatus.hold, Hold.overrun]

end Sound

/-! ## The budgets over whole runs -/

section Runs

variable {runtime : BudgetRuntime} {digests : Digests} {budgets : Budgets}

/-- What is held and settled under a grant keeps its limits; the money exceeds
its limit by the overruns of settled rows at most. -/
structure WithinLimits (budgets : Budgets) (grant : Grant) : Prop where
  requests : Hold.total Hold.held (budgets.requestHolds grant.terms.grantId) +
    Hold.total Hold.settled (budgets.requestHolds grant.terms.grantId) ≤
      grant.terms.maxRequests
  cost : Hold.total Hold.held (budgets.costHolds grant.terms.grantId) +
    Hold.total Hold.settled (budgets.costHolds grant.terms.grantId) ≤
      grant.terms.maxCostMicrousd +
        Hold.total Hold.overrun (budgets.costHolds grant.terms.grantId)

/-- What became of the rows of a state in a later one: an operation has the
reservation and the grant that it first had, and a row that is no longer held
stays as it is. -/
structure RowsSettledOnce (budgets later : Budgets) : Prop where
  firstGrant : ∀ row ∈ budgets.reservations, ∀ row' ∈ later.reservations,
    row'.operationId = row.operationId → row'.dispatchGeneration = row.dispatchGeneration →
      row'.reservationId = row.reservationId ∧ row'.grantId = row.grantId
  reservations : ∀ row ∈ budgets.reservations, ∃ row' ∈ later.reservations,
    row'.reservationId = row.reservationId ∧ (row.status ≠ .held → row' = row)
  dispatches : ∀ row ∈ budgets.dispatches, ∃ row' ∈ later.dispatches,
    row'.usageEventId = row.usageEventId ∧ (row.status ≠ .held → row' = row)

theorem RowStatus.isHeld_eq_false {α : Type} {status : RowStatus α} (h : status ≠ .held) :
    status.isHeld = false := by
  cases status with
  | held => exact absurd rfl h
  | settled usage closedAt => rfl
  | released closedAt => rfl

theorem rowsSettledOnce_of_kept {later : Budgets} (hsound : Sound later)
    (h : TablesKept budgets later) : RowsSettledOnce budgets later where
  firstGrant := by
    intro row hrow row' hrow' hoperation hgeneration
    obtain ⟨kept, hmem, hkept⟩ := h.reservations row hrow
    have heq : row' = kept := by
      refine List.inj_on_of_nodup_map hsound.operations hrow' hmem ?_
      have hsameOperation : kept.operationId = row.operationId :=
        hkept.column_eq fun _ _ => rfl
      have hsameGeneration : kept.dispatchGeneration = row.dispatchGeneration :=
        hkept.column_eq fun _ _ => rfl
      rw [hoperation, hgeneration, hsameOperation, hsameGeneration]
    rw [heq]
    exact ⟨hkept.column_eq fun _ _ => rfl, hkept.column_eq fun _ _ => rfl⟩
  reservations := by
    intro row hrow
    obtain ⟨kept, hmem, hkept⟩ := h.reservations row hrow
    refine ⟨kept, hmem, hkept.column_eq fun _ _ => rfl, ?_⟩
    intro hclosed
    exact hkept.eq_of_closed (RowStatus.isHeld_eq_false hclosed)
  dispatches := by
    intro row hrow
    obtain ⟨kept, hmem, hkept⟩ := h.dispatches row hrow
    refine ⟨kept, hmem, hkept.column_eq fun _ _ => rfl, ?_⟩
    intro hclosed
    exact hkept.eq_of_closed (RowStatus.isHeld_eq_false hclosed)

/-- Worker budgets are never over-committed.  In every state that any calls
lead to, each grant keeps its limits, no two reservations are of one operation
and generation, and no two rows of a table have one identifier; and whatever is
called afterwards, an operation keeps its reservation and grant, and a row that
left `held` stays as it is. -/
theorem budgets_never_overcommitted {calls : List Call}
    (h : Run (Budgets.Step runtime digests) .initial calls budgets) :
    (∀ grant ∈ budgets.grants, WithinLimits budgets grant) ∧
      (budgets.reservations.map fun row =>
        (row.operationId, row.dispatchGeneration)).Nodup ∧
      (budgets.reservations.map (·.reservationId)).Nodup ∧
      (budgets.dispatches.map (·.usageEventId)).Nodup ∧
      ∀ moreCalls later, Run (Budgets.Step runtime digests) budgets moreCalls later →
        RowsSettledOnce budgets later := by
  obtain ⟨hsound, -⟩ := (run_writes h).spec sound_initial
  refine ⟨?_, hsound.operations, hsound.reservationIds, hsound.dispatchIds, ?_⟩
  · intro grant hgrant
    obtain ⟨hrequests, hcost⟩ := hsound.grantsKept grant hgrant
    exact ⟨hrequests.le_limit (hsound.requests_within _), hcost⟩
  · intro moreCalls later hmore
    obtain ⟨hlater, hkept⟩ := (run_writes hmore).spec hsound
    exact rowsSettledOnce_of_kept hlater hkept

end Runs

/-- A digest. -/
def sampleSha256 : String := String.ofList (List.replicate 64 'a')

def sampleRuntime : BudgetRuntime where
  secretLike := fun _ => false
  canonicalTimestamp := fun _ => true
  parseDate := fun _ => 0
  round := id
  canonicalTextSha256 := fun _ => sampleSha256

def sampleDigests : Digests where
  operation := fun _ => .ok sampleSha256
  route := fun _ => sampleSha256
  usageEventIds := fun _ => sampleSha256
  authority := fun _ => sampleSha256

def sampleGrantInput : GrantInput where
  grantId := "grant-1"
  registryWorkspaceId := "registry"
  executionWorkspaceId := "execution"
  workerId := "worker"
  workerGeneration := .finite 1
  maxRequests := .finite 3
  maxCostMicrousd := .finite 1000
  expiresAt := "2026-01-02T00:00:00.000Z"

def sampleRoute : EffectiveRoute where
  providerId := "provider"
  modelId := "model"
  apiStyle := "chat"
  configuredContextWindowTokens := some 100
  credentialType := .apiKey
  usagePool := .standard
  credentialSource := .env
  credentialConfigFingerprint := none
  pricingCatalogVersion := some "v1"
  pricingCatalogHash := some sampleSha256
  inputRateUsdPerMillion := some 1
  outputRateUsdPerMillion := some 2
  cachedInputRateUsdPerMillion := none

def sampleRequest : InferenceRequest where
  registryWorkspaceId := "registry"
  executionWorkspaceId := some "execution"
  workerId := "worker"
  workerGeneration := 1
  sessionId := "session"
  turnId := "turn"
  durableRunId := none
  taskId := none
  routedContextSha256 := sampleSha256
  operationId := "operation"
  dispatchGeneration := "generation"
  state := .admitted
  effectiveRouteSha256 := sampleSha256
  effectiveRouteJson := some (.ok sampleRoute)
  governanceExpiresAt := "2026-01-01T12:00:00.000Z"
  continuationGovernanceExpiresAt := none
  budgetAuthorityState := .reservationPending
  budgetOperationJson := some "\x7b\x7d"
  budgetOperationSha256 := some sampleSha256
  budgetReservationId := none
  budgetReleaseReason := none
  budgetReleaseRequestedAt := none
  dispatchClaimedAt := none
  usageEventIdsJson := none
  usageEventIdsSha256 := none

def sampleOperation : BudgetOperation where
  operationId := "operation"
  dispatchGeneration := "generation"
  requestSha256 := sampleSha256
  effectiveRouteSha256 := sampleSha256
  registryWorkspaceId := "registry"
  executionWorkspaceId := "execution"
  assignmentId := "assignment"
  assignmentGeneration := 1
  workerId := "worker"
  workerGeneration := 1
  admittedLeaseRevision := 1
  sessionId := "session"
  turnId := "turn"
  durableRunId := "run"
  taskId := "task"
  capabilityBinding := "\x7b\x7d"
  routedContextSha256 := sampleSha256
  outputTokenCeiling := 10
  reasoningTokenCeiling := 0

def sampleRecords : Records where
  request := fun _ _ => .ok (some sampleRequest)
  attempts := fun _ _ => []
  usage := fun _ => none

def sampleCalls : List Call :=
  [.createGrant sampleGrantInput "auth:none" "2026-01-01T00:00:00.000Z",
   .reserve sampleRecords { operation := sampleOperation, operationSha256 := sampleSha256 }
     "grant-1" { now := "2026-01-01T00:00:01.000Z", balanceNow := "2026-01-01T00:00:01.000Z" }
     "reservation-1"]

def sampleBudgets : Budgets :=
  sampleCalls.foldl (fun budgets call => call.after sampleRuntime sampleDigests budgets) .initial

/-- A grant of three requests from which one operation reserved two. -/
theorem sampleBudgets_within_limits :
    sampleBudgets.reservations.map (fun row => (row.grantId, row.reservedCostMicrousd)) =
        [("grant-1", 240)] ∧
      ¬∃ grant ∈ sampleBudgets.grants, ¬WithinLimits sampleBudgets grant := by
  have hrun : Run (Budgets.Step sampleRuntime sampleDigests) .initial sampleCalls
      sampleBudgets := .cons rfl (.cons rfl (.nil _))
  refine ⟨by decide +kernel, ?_⟩
  rintro ⟨grant, hgrant, hexceeded⟩
  exact hexceeded ((budgets_never_overcommitted hrun).1 grant hgrant)

end GoatCitadel.RemoteWorker
