import Mathlib.Logic.Function.Basic
import GoatCitadel.Support.Text

/-!
# The mutation idempotency table

`mutation_idempotency` has one row per method, route path, idempotency key and
actor scope.  A caller claims the row, marks the moment at which it crosses the
external dispatch boundary, and settles it.  Each public method of the
repository is one transaction; the statements it runs are modelled as partial
functions on the row, defined where their `WHERE` clause matches.

Stored times are milliseconds of the ISO texts the repository writes.  Their
comparison in SQL is a comparison of texts, so it stays a parameter
(`SqlTextOrder`); nothing below depends on it.
-/

namespace GoatCitadel.Storage

open GoatCitadel.Support

inductive MutationIdempotencyStatus
  | pending
  | completed
  | failed
  | unknownAfterSend
  deriving DecidableEq

/-- The primary key of the table, with the actor scope already normalised. -/
structure MutationIdempotencyIdentity where
  method : String
  routePath : String
  idempotencyKey : String
  actorScope : String
  deriving DecidableEq

/-- A time column: the ISO text of a time, or a text the caller supplied. -/
inductive StoredTime
  | iso (ms : Int)
  | text (value : String)
  deriving DecidableEq

structure MutationIdempotencyRow where
  payloadHash : String
  status : MutationIdempotencyStatus
  claimToken : Option String
  claimExpiresAt : Option Int
  dispatchedAt : Option Int
  createdAt : StoredTime
  updatedAt : StoredTime
  deriving DecidableEq

abbrev MutationIdempotencyTable :=
  MutationIdempotencyIdentity → Option MutationIdempotencyRow

/-- How the database compares the ISO texts of two times: `earlier <= later`. -/
abbrev SqlTextOrder := Int → Int → Bool

/-! ## Inputs and results -/

structure MutationIdempotencyIdentityInput where
  method : String
  routePath : String
  idempotencyKey : String
  actorScope : Option String
  deriving DecidableEq

def normalizeIdentity (input : MutationIdempotencyIdentityInput) :
    MutationIdempotencyIdentity where
  method := input.method
  routePath := input.routePath
  idempotencyKey := input.idempotencyKey
  actorScope := (input.actorScope.map trim).getD ""

/-- The errors that a claim or a dispatch mark can throw. -/
inductive ClaimTimeError
  | invalidTime
  | invalidLeaseDuration
  | rangeError
  deriving DecidableEq

def ClaimTimeError.message : ClaimTimeError → String
  | .invalidTime => "Mutation idempotency claim time must be a valid ISO timestamp."
  | .invalidLeaseDuration =>
      "Mutation idempotency claim lease duration must be a positive number."
  | .rangeError => "Invalid time value"

/-- The times that a `Date` can hold, in milliseconds. -/
def inDateRange (ms : Int) : Bool :=
  -8640000000000000 ≤ ms && ms ≤ 8640000000000000

/-- `normalizeClaimTime`, on the result of `Date.parse` (`none` for `NaN`). -/
def normalizeClaimTime : Option Int → Except ClaimTimeError Int
  | some ms => if inDateRange ms then .ok ms else .error .invalidTime
  | none => .error .invalidTime

def normalizeLeaseDurationMs :
    Option Number → Except ClaimTimeError (Option Int)
  | none => .ok none
  | some .nonFinite => .error .invalidLeaseDuration
  | some (.finite value) =>
      if value ≤ 0 then .error .invalidLeaseDuration else .ok (some value.floor)

/-- The expiry of a claim; `toISOString` throws outside the range of `Date`. -/
def claimExpiry (nowMs : Int) : Option Int → Except ClaimTimeError (Option Int)
  | none => .ok none
  | some leaseDurationMs =>
      if inDateRange (nowMs + leaseDurationMs) then
        .ok (some (nowMs + leaseDurationMs))
      else .error .rangeError

inductive ClaimKind
  | new
  | retryAfterFailure
  | retryAfterStaleClaim
  | redispatchAfterStaleSend
  deriving DecidableEq

inductive MutationIdempotencyClaimResult
  | claimed (claimKind : ClaimKind) (record : MutationIdempotencyRow)
  | unknownAfterSend (record : MutationIdempotencyRow)
  | inProgress (record : MutationIdempotencyRow)
  | duplicate (record : MutationIdempotencyRow)
  | payloadMismatch (record : MutationIdempotencyRow)
  deriving DecidableEq

inductive MutationIdempotencyDispatchResult
  | dispatched (record : MutationIdempotencyRow)
  | claimLost (record : Option MutationIdempotencyRow)
  deriving DecidableEq

/-! ## The statements -/

/-- Run an `UPDATE` on the row of `identity`: whether it changed the row, and
the table after it. -/
def updateRow (table : MutationIdempotencyTable)
    (identity : MutationIdempotencyIdentity)
    (stmt : MutationIdempotencyRow → Option MutationIdempotencyRow) :
    Bool × MutationIdempotencyTable :=
  match (table identity).bind stmt with
  | some row => (true, Function.update table identity (some row))
  | none => (false, table)

def updateStatusStmt (status : MutationIdempotencyStatus) (updatedAt : StoredTime)
    (row : MutationIdempotencyRow) : Option MutationIdempotencyRow :=
  if row.status ≠ .unknownAfterSend then
    some
      { row with
        status := status
        claimExpiresAt := none
        updatedAt := updatedAt }
  else none

def markReconciledCompletedStmt (updatedAt : StoredTime)
    (row : MutationIdempotencyRow) : Option MutationIdempotencyRow :=
  if row.status = .unknownAfterSend then
    some
      { row with
        status := .completed
        claimExpiresAt := none
        updatedAt := updatedAt }
  else none

def updateOwnedStatusStmt (status : MutationIdempotencyStatus)
    (updatedAt : StoredTime) (claimToken : String)
    (row : MutationIdempotencyRow) : Option MutationIdempotencyRow :=
  if row.status = .pending ∧ row.claimToken = some claimToken then
    some
      { row with
        status := status
        claimExpiresAt := none
        updatedAt := updatedAt }
  else none

def reviveFailedStmt (payloadHash claimToken : String)
    (claimExpiresAt : Option Int) (updatedAt : Int)
    (row : MutationIdempotencyRow) : Option MutationIdempotencyRow :=
  if row.status = .failed then
    some
      { row with
        payloadHash := payloadHash
        status := .pending
        claimToken := some claimToken
        claimExpiresAt := claimExpiresAt
        dispatchedAt := none
        updatedAt := .iso updatedAt }
  else none

/-- `claim_expires_at IS NULL OR claim_expires_at <= @updatedAt` -/
def leaseLapsed (le : SqlTextOrder) (row : MutationIdempotencyRow)
    (updatedAt : Int) : Bool :=
  match row.claimExpiresAt with
  | none => true
  | some expiresAt => le expiresAt updatedAt

def takeoverStaleStmt (le : SqlTextOrder) (payloadHash claimToken : String)
    (claimExpiresAt : Option Int) (previousClaimToken : Option String)
    (updatedAt : Int) (row : MutationIdempotencyRow) :
    Option MutationIdempotencyRow :=
  if row.status = .pending ∧ leaseLapsed le row updatedAt = true ∧
      row.claimToken = previousClaimToken then
    some
      { row with
        payloadHash := payloadHash
        status := .pending
        claimToken := some claimToken
        claimExpiresAt := claimExpiresAt
        updatedAt := .iso updatedAt }
  else none

def settleStaleDispatchedStmt (le : SqlTextOrder) (payloadHash claimToken : String)
    (previousClaimToken : Option String) (updatedAt : Int)
    (row : MutationIdempotencyRow) : Option MutationIdempotencyRow :=
  if row.payloadHash = payloadHash ∧ row.status = .pending ∧
      row.dispatchedAt.isSome = true ∧ leaseLapsed le row updatedAt = true ∧
      row.claimToken = previousClaimToken then
    some
      { row with
        status := .unknownAfterSend
        claimToken := some claimToken
        claimExpiresAt := none
        updatedAt := .iso updatedAt }
  else none

def markDispatchedStmt (claimToken nextClaimToken : String)
    (claimExpiresAt : Option Int) (now : Int)
    (row : MutationIdempotencyRow) : Option MutationIdempotencyRow :=
  if row.status = .pending ∧ row.claimToken = some claimToken then
    some
      { row with
        dispatchedAt := some now
        claimToken := some nextClaimToken
        claimExpiresAt := claimExpiresAt
        updatedAt := .iso now }
  else none

/-! ## The methods -/

def isClaimLeaseActive (record : MutationIdempotencyRow) (nowMs : Int) : Bool :=
  match record.claimExpiresAt with
  | some expiresAtMs => expiresAtMs > nowMs
  | none => false

def classifyConcurrentClaim (record : MutationIdempotencyRow)
    (payloadHash : String) : MutationIdempotencyClaimResult :=
  if record.payloadHash ≠ payloadHash then .payloadMismatch record
  else
    match record.status with
    | .unknownAfterSend => .unknownAfterSend record
    | .completed => .duplicate record
    | _ => .inProgress record

structure ClaimInput where
  identity : MutationIdempotencyIdentityInput
  payloadHash : String
  /-- `Date.parse` of the given time, or of the database's. -/
  now : Option Int
  leaseDurationMs : Option Number
  providerIdempotencyKeyEnforced : Option Bool

/-- The table after the statement of a claim, and its result.  A statement that
changed no row is answered from the row as it stands. -/
def claimWith (table : MutationIdempotencyTable)
    (identity : MutationIdempotencyIdentity) (current : MutationIdempotencyRow)
    (payloadHash : String) (written : Option MutationIdempotencyRow)
    (answer : MutationIdempotencyRow → MutationIdempotencyClaimResult) :
    MutationIdempotencyClaimResult × MutationIdempotencyTable :=
  match written with
  | some row => (answer row, Function.update table identity (some row))
  | none => (classifyConcurrentClaim current payloadHash, table)

/-- The transaction of `claim` on an existing row. -/
def claimExisting (le : SqlTextOrder) (claimToken : String) (input : ClaimInput)
    (table : MutationIdempotencyTable) (identity : MutationIdempotencyIdentity)
    (now : Int) (leaseDurationMs claimExpiresAt : Option Int)
    (current : MutationIdempotencyRow) :
    MutationIdempotencyClaimResult × MutationIdempotencyTable :=
  if current.payloadHash ≠ input.payloadHash then
    (.payloadMismatch current, table)
  else
    match current.status with
    | .completed => (.duplicate current, table)
    | .unknownAfterSend => (.unknownAfterSend current, table)
    | .failed =>
        claimWith table identity current input.payloadHash
          (reviveFailedStmt input.payloadHash claimToken claimExpiresAt now current)
          (.claimed .retryAfterFailure)
    | .pending =>
        if leaseDurationMs.isNone || isClaimLeaseActive current now then
          (.inProgress current, table)
        else if current.dispatchedAt.isSome ∧
            input.providerIdempotencyKeyEnforced ≠ some true then
          claimWith table identity current input.payloadHash
            (settleStaleDispatchedStmt le input.payloadHash claimToken
              current.claimToken now current)
            .unknownAfterSend
        else
          claimWith table identity current input.payloadHash
            (takeoverStaleStmt le input.payloadHash claimToken claimExpiresAt
              current.claimToken now current)
            (.claimed
              (if current.dispatchedAt.isSome then .redispatchAfterStaleSend
              else .retryAfterStaleClaim))

/-- `claim`, with the token that `randomUUID` gives it. -/
def claim (le : SqlTextOrder) (claimToken : String) (input : ClaimInput)
    (table : MutationIdempotencyTable) :
    Except ClaimTimeError
      (MutationIdempotencyClaimResult × MutationIdempotencyTable) := do
  let identity := normalizeIdentity input.identity
  let leaseDurationMs ← normalizeLeaseDurationMs input.leaseDurationMs
  let now ← normalizeClaimTime input.now
  let claimExpiresAt ← claimExpiry now leaseDurationMs
  match table identity with
  | none =>
      -- Inside the transaction the insert meets no conflicting row.
      let row : MutationIdempotencyRow :=
        { payloadHash := input.payloadHash
          status := .pending
          claimToken := some claimToken
          claimExpiresAt := claimExpiresAt
          dispatchedAt := none
          createdAt := .iso now
          updatedAt := .iso now }
      pure (.claimed .new row, Function.update table identity (some row))
  | some current =>
      pure (claimExisting le claimToken input table identity now leaseDurationMs
        claimExpiresAt current)

def markDispatched (nextClaimToken : String)
    (input : MutationIdempotencyIdentityInput) (claimToken : String)
    (leaseDurationMs : Option Number) (now : Option Int)
    (table : MutationIdempotencyTable) :
    Except ClaimTimeError
      (MutationIdempotencyDispatchResult × MutationIdempotencyTable) := do
  let identity := normalizeIdentity input
  let leaseDurationMs ← normalizeLeaseDurationMs leaseDurationMs
  if trim claimToken = "" then
    pure (.claimLost (table identity), table)
  else
    let now ← normalizeClaimTime now
    let claimExpiresAt ← claimExpiry now leaseDurationMs
    let marked := updateRow table identity
      (markDispatchedStmt (trim claimToken) nextClaimToken claimExpiresAt now)
    match marked.1, marked.2 identity with
    | true, some record => pure (.dispatched record, marked.2)
    | _, record => pure (.claimLost record, marked.2)

/-- `updateStatus`: whether the row now has the status, and the table. -/
def updateStatus (input : MutationIdempotencyIdentityInput)
    (updatedAt : StoredTime) (claimToken : Option String)
    (status : MutationIdempotencyStatus) (table : MutationIdempotencyTable) :
    Bool × MutationIdempotencyTable :=
  let identity := normalizeIdentity input
  let claimToken := (claimToken.map trim).filter (· ≠ "")
  match claimToken with
  | none => updateRow table identity (updateStatusStmt status updatedAt)
  | some claimToken =>
      let update := updateRow table identity
        (updateOwnedStatusStmt status updatedAt claimToken)
      if update.1 then update
      else
        match update.2 identity with
        | some current =>
            (decide (current.status = status ∧ current.claimToken = some claimToken),
              update.2)
        | none => (false, update.2)

def markCompleted (input : MutationIdempotencyIdentityInput)
    (updatedAt : StoredTime) (claimToken : Option String)
    (table : MutationIdempotencyTable) : Bool × MutationIdempotencyTable :=
  updateStatus input updatedAt claimToken .completed table

def markFailed (input : MutationIdempotencyIdentityInput)
    (updatedAt : StoredTime) (claimToken : Option String)
    (table : MutationIdempotencyTable) : Bool × MutationIdempotencyTable :=
  updateStatus input updatedAt claimToken .failed table

def markUnknownAfterSend (input : MutationIdempotencyIdentityInput)
    (updatedAt : StoredTime) (claimToken : String)
    (table : MutationIdempotencyTable) : Bool × MutationIdempotencyTable :=
  if trim claimToken = "" then (false, table)
  else updateStatus input updatedAt (some claimToken) .unknownAfterSend table

def markReconciledCompleted (input : MutationIdempotencyIdentityInput)
    (updatedAt : StoredTime) (table : MutationIdempotencyTable) :
    Bool × MutationIdempotencyTable :=
  updateRow table (normalizeIdentity input) (markReconciledCompletedStmt updatedAt)

/-! ## What each method does -/

/-- A statement runs on the row of its identity or changes nothing. -/
theorem updateRow_cases (table : MutationIdempotencyTable)
    (identity : MutationIdempotencyIdentity)
    (stmt : MutationIdempotencyRow → Option MutationIdempotencyRow) :
    updateRow table identity stmt = (false, table) ∨
      ∃ current row, table identity = some current ∧ stmt current = some row ∧
        updateRow table identity stmt =
          (true, Function.update table identity (some row)) := by
  cases hrow : table identity with
  | none => exact .inl (by simp [updateRow, hrow])
  | some current =>
      cases hstmt : stmt current with
      | none => exact .inl (by simp [updateRow, hrow, hstmt])
      | some row => exact .inr ⟨current, row, rfl, hstmt, by simp [updateRow, hrow, hstmt]⟩

/-- A claim result that is not a grant. -/
def MutationIdempotencyClaimResult.Refused :
    MutationIdempotencyClaimResult → Prop
  | .claimed _ _ => False
  | _ => True

theorem classifyConcurrentClaim_refused (record : MutationIdempotencyRow)
    (payloadHash : String) :
    (classifyConcurrentClaim record payloadHash).Refused := by
  unfold classifyConcurrentClaim
  split
  · trivial
  · split <;> trivial

/-- What a claim can do to the row of its identity. -/
inductive ClaimEffect (claimToken : String) (input : ClaimInput)
    (table : MutationIdempotencyTable) :
    MutationIdempotencyClaimResult → MutationIdempotencyTable → Prop
  | refused {result : MutationIdempotencyClaimResult} :
      result.Refused → ClaimEffect claimToken input table result table
  | granted {claimKind : ClaimKind} {row : MutationIdempotencyRow} :
      row.claimToken = some claimToken →
      (∀ current, table (normalizeIdentity input.identity) = some current →
        current.status = .failed ∨
          (current.status = .pending ∧
            (current.dispatchedAt = none ∨
              input.providerIdempotencyKeyEnforced = some true))) →
      ClaimEffect claimToken input table (.claimed claimKind row)
        (Function.update table (normalizeIdentity input.identity) (some row))
  | settledStale {current row : MutationIdempotencyRow} :
      table (normalizeIdentity input.identity) = some current →
      current.status = .pending → row.status = .unknownAfterSend →
      row.claimToken = some claimToken →
      ClaimEffect claimToken input table (.unknownAfterSend row)
        (Function.update table (normalizeIdentity input.identity) (some row))

theorem claimExisting_effect (le : SqlTextOrder) (claimToken : String)
    (input : ClaimInput) (table : MutationIdempotencyTable) (now : Int)
    (leaseDurationMs claimExpiresAt : Option Int)
    {current : MutationIdempotencyRow}
    (hcurrent : table (normalizeIdentity input.identity) = some current) :
    ClaimEffect claimToken input table
      (claimExisting le claimToken input table (normalizeIdentity input.identity)
        now leaseDurationMs claimExpiresAt current).1
      (claimExisting le claimToken input table (normalizeIdentity input.identity)
        now leaseDurationMs claimExpiresAt current).2 := by
  unfold claimExisting
  split
  · exact .refused trivial
  · cases hstatus : current.status with
    | completed => exact .refused trivial
    | unknownAfterSend => exact .refused trivial
    | failed =>
        simp only [reviveFailedStmt, hstatus, if_true, claimWith]
        refine .granted rfl fun row hrow => .inl ?_
        rw [hcurrent, Option.some.injEq] at hrow
        rw [← hrow, hstatus]
    | pending =>
        simp only []
        split
        · exact .refused trivial
        · split
          · cases hstmt : settleStaleDispatchedStmt le input.payloadHash claimToken
                current.claimToken now current with
            | none => exact .refused (classifyConcurrentClaim_refused _ _)
            | some row =>
                simp only [settleStaleDispatchedStmt] at hstmt
                split at hstmt
                · cases hstmt
                  exact .settledStale hcurrent hstatus rfl rfl
                · cases hstmt
          · rename_i hnotSent
            cases hstmt : takeoverStaleStmt le input.payloadHash claimToken
                claimExpiresAt current.claimToken now current with
            | none => exact .refused (classifyConcurrentClaim_refused _ _)
            | some row =>
                simp only [takeoverStaleStmt] at hstmt
                split at hstmt
                · cases hstmt
                  refine .granted rfl fun row hrow => .inr ?_
                  rw [hcurrent, Option.some.injEq] at hrow
                  subst hrow
                  refine ⟨hstatus, ?_⟩
                  by_cases hsent : current.dispatchedAt = none
                  · exact .inl hsent
                  · right
                    by_contra henforced
                    exact hnotSent ⟨Option.isSome_iff_ne_none.mpr hsent, henforced⟩
                · cases hstmt

theorem claim_effect {le : SqlTextOrder} {claimToken : String}
    {input : ClaimInput} {table table' : MutationIdempotencyTable}
    {result : MutationIdempotencyClaimResult}
    (h : claim le claimToken input table = .ok (result, table')) :
    ClaimEffect claimToken input table result table' := by
  simp only [claim, bind, Except.bind, pure, Except.pure] at h
  split at h
  · cases h
  · split at h
    · cases h
    · split at h
      · cases h
      · split at h
        · rename_i hnone
          cases h
          exact .granted rfl fun current hcurrent => by simp [hnone] at hcurrent
        · rename_i leaseDurationMs _ _ now _ _ claimExpiresAt _ _ current hcurrent
          injection h with h
          have heffect := claimExisting_effect le claimToken input table now
            leaseDurationMs claimExpiresAt hcurrent
          rw [h] at heffect
          exact heffect

/-- `markDispatched` either changes nothing or marks the pending row that
carries its token, and hands out the next token. -/
theorem markDispatched_cases {nextClaimToken : String}
    {input : MutationIdempotencyIdentityInput} {claimToken : String}
    {leaseDurationMs : Option Number} {now : Option Int}
    {table table' : MutationIdempotencyTable}
    {result : MutationIdempotencyDispatchResult}
    (h : markDispatched nextClaimToken input claimToken leaseDurationMs now table =
      .ok (result, table')) :
    (table' = table ∧ ∃ record, result = .claimLost record) ∨
      ∃ current row, table (normalizeIdentity input) = some current ∧
        table' = Function.update table (normalizeIdentity input) (some row) ∧
        result = .dispatched row ∧
        current.status = .pending ∧ current.claimToken = some (trim claimToken) ∧
        row.status = .pending ∧ row.dispatchedAt.isSome = true ∧
        row.claimToken = some nextClaimToken := by
  simp only [markDispatched, bind, Except.bind, pure, Except.pure] at h
  split at h
  · cases h
  · split at h
    · cases h
      exact .inl ⟨rfl, _, rfl⟩
    · split at h
      · cases h
      · split at h
        · cases h
        · rename_i time _ _ expiry _
          rcases updateRow_cases table (normalizeIdentity input)
              (markDispatchedStmt (trim claimToken) nextClaimToken expiry time) with
            hkeep | ⟨current, row, hcurrent, hstmt, hrun⟩
          · rw [hkeep] at h
            simp only [Except.ok.injEq, Prod.mk.injEq] at h
            exact .inl ⟨h.2.symm, _, h.1.symm⟩
          · rw [hrun] at h
            simp only [Function.update_self, Except.ok.injEq, Prod.mk.injEq] at h
            simp only [markDispatchedStmt] at hstmt
            split at hstmt
            · rename_i hguard
              cases hstmt
              exact .inr ⟨current, _, hcurrent, h.2.symm, h.1.symm, hguard.1,
                hguard.2, hguard.1, rfl, rfl⟩
            · cases hstmt

/-- `updateStatus` with a claim token either changes nothing or settles the
pending row that carries the token. -/
theorem updateStatus_owned_cases (input : MutationIdempotencyIdentityInput)
    (updatedAt : StoredTime) {token : String} (htoken : trim token ≠ "")
    (status : MutationIdempotencyStatus) (table : MutationIdempotencyTable) :
    (updateStatus input updatedAt (some token) status table).2 = table ∨
      ∃ current row, table (normalizeIdentity input) = some current ∧
        updateStatus input updatedAt (some token) status table =
          (true, Function.update table (normalizeIdentity input) (some row)) ∧
        current.status = .pending ∧ current.claimToken = some (trim token) ∧
        row.status = status ∧ row.claimToken = current.claimToken := by
  have hfilter : ((some token).map trim).filter (· ≠ "") = some (trim token) := by
    simp [htoken]
  simp only [updateStatus, hfilter]
  rcases updateRow_cases table (normalizeIdentity input)
      (updateOwnedStatusStmt status updatedAt (trim token)) with
    hkeep | ⟨current, row, hcurrent, hstmt, hrun⟩
  · left
    rw [hkeep]
    simp only [Bool.false_eq_true, if_false]
    split <;> rfl
  · right
    rw [hrun]
    simp only [updateOwnedStatusStmt] at hstmt
    split at hstmt
    · rename_i hguard
      cases hstmt
      exact ⟨current, _, hcurrent, rfl, hguard.1, hguard.2, rfl, rfl⟩
    · cases hstmt

theorem markReconciledCompleted_cases (input : MutationIdempotencyIdentityInput)
    (updatedAt : StoredTime) (table : MutationIdempotencyTable) :
    (markReconciledCompleted input updatedAt table).2 = table ∨
      ∃ current row, table (normalizeIdentity input) = some current ∧
        (markReconciledCompleted input updatedAt table).2 =
          Function.update table (normalizeIdentity input) (some row) ∧
        current.status = .unknownAfterSend ∧ row.status = .completed ∧
        row.claimToken = current.claimToken := by
  rcases updateRow_cases table (normalizeIdentity input)
      (markReconciledCompletedStmt updatedAt) with
    hkeep | ⟨current, row, hcurrent, hstmt, hrun⟩
  · exact .inl (by rw [markReconciledCompleted, hkeep])
  · right
    simp only [markReconciledCompletedStmt] at hstmt
    split at hstmt
    · rename_i hguard
      cases hstmt
      exact ⟨current, _, hcurrent, congrArg Prod.snd hrun, hguard, rfl, rfl⟩
    · cases hstmt

end GoatCitadel.Storage
