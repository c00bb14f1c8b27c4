import Mathlib.Data.Rat.Floor
import GoatCitadel.Support.Runs
import GoatCitadel.Support.Table
import GoatCitadel.Support.Text

/-!
# Worktree leases

`orchestration_worktree_leases` has one row per worktree path.  A claim, a
renewal and a release are one transaction each.  They share the row through
guarded updates: a renewal and a release compare the run, the owner and the
generation of their token, and a claim over a lease that is no longer active
compares everything it read and raises the generation.

The repository keeps timestamps as text.  It compares them as numbers when it
decides whether a lease is active, and as text in the guard of a renewal.  The
model keeps the text, so that the two comparisons stay apart.
-/

namespace GoatCitadel.Storage.WorktreeLeaseRepository

open GoatCitadel.Support

/-- `Date.parse` and `Date.prototype.toISOString`.  Parsing answers `none` for
text that is no date, and printing for a time that is out of range. -/
structure DateText where
  parse : String → Option Int
  toISOString : Int → Option String
  parse_toISOString : ∀ {ms text}, toISOString ms = some text → parse text = some ms

/-- A row of `orchestration_worktree_leases`, without its key. -/
structure WorktreeLease where
  runId : String
  ownerId : String
  generation : Nat
  leaseExpiresAt : String
  releasedAt : Option String
  createdAt : String
  updatedAt : String
  deriving DecidableEq

/-- Who holds a lease. -/
def WorktreeLease.holder (lease : WorktreeLease) : String × String :=
  (lease.runId, lease.ownerId)

/-- The table, indexed by its primary key. -/
abbrev WorktreeLeaseTable := String → Option WorktreeLease

/-- The errors thrown by the repository. -/
inductive WorktreeLeaseError
  | required (label : String)
  | leaseDuration
  | generation
  | timestamp (label : String)
  | timeOutOfRange
  | databaseTimestamp
  | disappeared
  deriving DecidableEq

/-- The text of an error, as the repository throws it. -/
def WorktreeLeaseError.message : WorktreeLeaseError → String
  | .required label => s!"Orchestration worktree {label} is required."
  | .leaseDuration =>
      "Orchestration worktree lease duration must be a positive number of milliseconds."
  | .generation =>
      "Orchestration worktree lease generation must be a positive safe integer."
  | .timestamp label => s!"Orchestration worktree {label} must be a valid timestamp."
  | .timeOutOfRange => "Invalid time value"
  | .databaseTimestamp =>
      "Database did not return an orchestration worktree lease timestamp."
  | .disappeared =>
      "Orchestration worktree lease disappeared during acquisition."

/-- How a claim came by its lease. -/
inductive ClaimKind
  | new
  | renewed
  | reclaimed
  deriving DecidableEq

/-- What a claim answers when it returns. -/
inductive ClaimResult
  | claimed (claimKind : ClaimKind) (lease : WorktreeLease)
  | blocked (lease : WorktreeLease)
  deriving DecidableEq

/-! ## Inputs -/

/-- The input of `claim`. -/
structure ClaimInput where
  worktreePath : String
  runId : String
  ownerId : String
  leaseDurationMs : Number
  now : Option String

/-- The token by which a holder names its lease. -/
structure LeaseTokenInput where
  worktreePath : String
  runId : String
  ownerId : String
  generation : Number

/-- A token after `normalizeToken`. -/
structure LeaseToken where
  worktreePath : String
  runId : String
  ownerId : String
  generation : Nat

/-- What a claim works with once its input is normalized. -/
structure ClaimRequest where
  worktreePath : String
  runId : String
  ownerId : String
  now : String
  leaseExpiresAt : String

/-- Who makes a claim. -/
def ClaimRequest.holder (request : ClaimRequest) : String × String :=
  (request.runId, request.ownerId)

def normalizeRequiredString (value label : String) :
    Except WorktreeLeaseError String :=
  requireTrimmed (.required label) value

def normalizeLeaseDurationMs : Number → Except WorktreeLeaseError Int
  | .finite value => if value ≤ 0 then .error .leaseDuration else .ok ⌊value⌋
  | .nonFinite => .error .leaseDuration

/-- The generation of a token, which has to be a positive safe integer. -/
def normalizeGeneration : Number → Except WorktreeLeaseError Nat
  | .finite value =>
      if value.den = 1 ∧ 1 ≤ value.num ∧ value.num ≤ maxSafeInteger then
        .ok value.num.toNat
      else .error .generation
  | .nonFinite => .error .generation

def normalizeToken (input : LeaseTokenInput) :
    Except WorktreeLeaseError LeaseToken := do
  let generation ← normalizeGeneration input.generation
  let worktreePath ← normalizeRequiredString input.worktreePath "worktree path"
  let runId ← normalizeRequiredString input.runId "run id"
  let ownerId ← normalizeRequiredString input.ownerId "owner id"
  return { worktreePath, runId, ownerId, generation }

section

variable (dates : DateText)

def normalizeTimestamp (value label : String) : Except WorktreeLeaseError String :=
  match dates.parse value with
  | none => .error (.timestamp label)
  | some ms =>
      match dates.toISOString ms with
      | none => .error .timeOutOfRange
      | some text => .ok text

/-- `readDatabaseNow` -/
def readDatabaseNow : Option String → Except WorktreeLeaseError String
  | none => .error .databaseTimestamp
  | some text => .ok text

/-- The time a call is evaluated at: the one its caller gave, or the one of the
database. -/
def evaluationTime (now databaseNow : Option String) (label : String) :
    Except WorktreeLeaseError String :=
  match now with
  | some text => normalizeTimestamp dates text label
  | none => do normalizeTimestamp dates (← readDatabaseNow databaseNow) label

/-- The expiry of a lease that starts at `now`. -/
def leaseExpiry (now : String) (leaseDurationMs : Int) :
    Except WorktreeLeaseError String :=
  match dates.parse now with
  | none => .error .timeOutOfRange
  | some ms =>
      match dates.toISOString (ms + leaseDurationMs) with
      | none => .error .timeOutOfRange
      | some text => .ok text

/-- The part of `claim` that comes before it reads the table. -/
def claimRequest (input : ClaimInput) (databaseNow : Option String) :
    Except WorktreeLeaseError ClaimRequest := do
  let worktreePath ← normalizeRequiredString input.worktreePath "worktree path"
  let runId ← normalizeRequiredString input.runId "run id"
  let ownerId ← normalizeRequiredString input.ownerId "owner id"
  let leaseDurationMs ← normalizeLeaseDurationMs input.leaseDurationMs
  let now ← evaluationTime dates input.now databaseNow "lease claim time"
  let leaseExpiresAt ← leaseExpiry dates now leaseDurationMs
  return { worktreePath, runId, ownerId, now, leaseExpiresAt }

/-- A lease whose expiry is no date counts as active. -/
def isLeaseActive (record : WorktreeLease) (nowMs : Option Int) : Bool :=
  if isSet record.releasedAt then false
  else
    match dates.parse record.leaseExpiresAt, nowMs with
    | none, _ => true
    | some expiresAtMs, some nowMs => nowMs < expiresAtMs
    | some _, none => false

/-! ## The statements -/

/-- A statement that changes one row when its guard holds.  It answers the row
it leaves, or `none` when it changed nothing. -/
def updateWhere (table : WorktreeLeaseTable) (worktreePath : String)
    (guard : WorktreeLease → Bool) (change : WorktreeLease → WorktreeLease) :
    Option (WorktreeLease × WorktreeLeaseTable) :=
  match table worktreePath with
  | none => none
  | some row =>
      if guard row then
        some (change row, Function.update table worktreePath (some (change row)))
      else none

def insertStmt (request : ClaimRequest) (table : WorktreeLeaseTable) :
    Option (WorktreeLease × WorktreeLeaseTable) :=
  match table request.worktreePath with
  | some _ => none
  | none =>
      let row : WorktreeLease :=
        { runId := request.runId
          ownerId := request.ownerId
          generation := 1
          leaseExpiresAt := request.leaseExpiresAt
          releasedAt := none
          createdAt := request.now
          updatedAt := request.now }
      some (row, Function.update table request.worktreePath (some row))

/-- Whether a token names the lease of a row that has not been released. -/
def LeaseToken.names (token : LeaseToken) (row : WorktreeLease) : Bool :=
  row.runId = token.runId && row.ownerId = token.ownerId &&
    row.generation = token.generation && row.releasedAt.isNone

def renewStmt (token : LeaseToken) (leaseExpiresAt now : String)
    (table : WorktreeLeaseTable) : Option (WorktreeLease × WorktreeLeaseTable) :=
  updateWhere table token.worktreePath
    (fun row => token.names row && decide (now < row.leaseExpiresAt))
    (fun row => { row with leaseExpiresAt := leaseExpiresAt, updatedAt := now })

/-- `reclaimStmt`, run with everything that was read from `current`. -/
def reclaimStmt (request : ClaimRequest) (current : WorktreeLease)
    (table : WorktreeLeaseTable) : Option (WorktreeLease × WorktreeLeaseTable) :=
  updateWhere table request.worktreePath
    (fun row => row.runId = current.runId && row.ownerId = current.ownerId &&
      row.generation = current.generation &&
      row.leaseExpiresAt = current.leaseExpiresAt &&
      row.updatedAt = current.updatedAt && row.releasedAt = current.releasedAt)
    (fun row =>
      { row with
        runId := request.runId
        ownerId := request.ownerId
        generation := current.generation + 1
        leaseExpiresAt := request.leaseExpiresAt
        releasedAt := none
        updatedAt := request.now })

def releaseStmt (token : LeaseToken) (releasedAt : String)
    (table : WorktreeLeaseTable) : Option (WorktreeLease × WorktreeLeaseTable) :=
  updateWhere table token.worktreePath token.names
    (fun row =>
      { row with
        leaseExpiresAt := releasedAt
        releasedAt := some releasedAt
        updatedAt := releasedAt })

/-! ## The operations -/

/-- A claim on a path that has the row `current`. -/
def claimCurrent (request : ClaimRequest) (table : WorktreeLeaseTable)
    (current : WorktreeLease) : ClaimResult × WorktreeLeaseTable :=
  if isLeaseActive dates current (dates.parse request.now) then
    if current.runId ≠ request.runId ∨ current.ownerId ≠ request.ownerId then
      (.blocked current, table)
    else
      match renewStmt
          { worktreePath := request.worktreePath
            runId := request.runId
            ownerId := request.ownerId
            generation := current.generation }
          request.leaseExpiresAt request.now table with
      | some (lease, table') => (.claimed .renewed lease, table')
      | none => (.blocked ((table request.worktreePath).getD current), table)
  else
    match reclaimStmt request current table with
    | some (lease, table') => (.claimed .reclaimed lease, table')
    | none => (.blocked ((table request.worktreePath).getD current), table)

/-- The transaction of `claim`. -/
def claimTransaction (request : ClaimRequest) (table : WorktreeLeaseTable) :
    Except WorktreeLeaseError ClaimResult × WorktreeLeaseTable :=
  match table request.worktreePath with
  | some current =>
      let (result, table') := claimCurrent dates request table current
      (.ok result, table')
  | none =>
      match insertStmt request table with
      | some (lease, table') => (.ok (.claimed .new lease), table')
      | none => (.error .disappeared, table)

def claim (input : ClaimInput) (databaseNow : Option String)
    (table : WorktreeLeaseTable) :
    Except WorktreeLeaseError ClaimResult × WorktreeLeaseTable :=
  match claimRequest dates input databaseNow with
  | .error error => (.error error, table)
  | .ok request => claimTransaction dates request table

/-- The part of `renew` that comes before its statement. -/
def renewRequest (input : LeaseTokenInput) (leaseDurationMs : Number)
    (now databaseNow : Option String) :
    Except WorktreeLeaseError (LeaseToken × String × String) := do
  let token ← normalizeToken input
  let leaseDurationMs ← normalizeLeaseDurationMs leaseDurationMs
  let now ← evaluationTime dates now databaseNow "lease renewal time"
  let leaseExpiresAt ← leaseExpiry dates now leaseDurationMs
  return (token, leaseExpiresAt, now)

def renew (input : LeaseTokenInput) (leaseDurationMs : Number)
    (now databaseNow : Option String) (table : WorktreeLeaseTable) :
    Except WorktreeLeaseError (Option WorktreeLease) × WorktreeLeaseTable :=
  match renewRequest dates input leaseDurationMs now databaseNow with
  | .error error => (.error error, table)
  | .ok (token, leaseExpiresAt, now) =>
      match renewStmt token leaseExpiresAt now table with
      | some (lease, table') => (.ok (some lease), table')
      | none => (.ok none, table)

/-- The part of `release` that comes before its statement. -/
def releaseRequest (input : LeaseTokenInput)
    (releasedAt databaseNow : Option String) :
    Except WorktreeLeaseError (LeaseToken × String) := do
  let token ← normalizeToken input
  let releasedAt ← evaluationTime dates releasedAt databaseNow "lease release time"
  return (token, releasedAt)

/-- A release of a lease that its own token has already released answers `true`
as well. -/
def release (input : LeaseTokenInput) (releasedAt databaseNow : Option String)
    (table : WorktreeLeaseTable) :
    Except WorktreeLeaseError Bool × WorktreeLeaseTable :=
  match releaseRequest dates input releasedAt databaseNow with
  | .error error => (.error error, table)
  | .ok (token, releasedAt) =>
      match releaseStmt token releasedAt table with
      | some (_, table') => (.ok true, table')
      | none =>
          match table token.worktreePath with
          | none => (.ok false, table)
          | some current =>
              (.ok (isSet current.releasedAt && current.runId = token.runId &&
                current.ownerId = token.ownerId &&
                current.generation = token.generation), table)

end

/-! ## What normalization keeps -/

theorem normalizeTimestamp_eq_ok {dates : DateText} {raw label text : String}
    (h : normalizeTimestamp dates raw label = .ok text) :
    ∃ ms, dates.parse raw = some ms ∧ dates.parse text = some ms := by
  unfold normalizeTimestamp at h
  split at h
  · cases h
  · rename_i ms hparse
    split at h
    · cases h
    · rename_i printed hprinted
      refine ⟨ms, hparse, ?_⟩
      rw [← Except.ok.inj h]
      exact dates.parse_toISOString hprinted

theorem evaluationTime_eq_ok {dates : DateText} {now databaseNow : Option String}
    {label text : String} (h : evaluationTime dates now databaseNow label = .ok text) :
    ∃ raw ms, now.or databaseNow = some raw ∧ dates.parse raw = some ms ∧
      dates.parse text = some ms := by
  cases now with
  | some given =>
      obtain ⟨ms, hparse⟩ := normalizeTimestamp_eq_ok h
      exact ⟨given, ms, rfl, hparse⟩
  | none =>
      obtain ⟨raw, hraw, h⟩ := bind_eq_ok.mp h
      obtain ⟨ms, hparse⟩ := normalizeTimestamp_eq_ok h
      refine ⟨raw, ms, ?_, hparse⟩
      cases databaseNow with
      | none => simp [readDatabaseNow] at hraw
      | some text => simpa [readDatabaseNow] using hraw

/-- A request names the trimmed path and holder of its input, at the time of
its input. -/
theorem claimRequest_eq_ok {dates : DateText} {input : ClaimInput}
    {databaseNow : Option String} {request : ClaimRequest}
    (h : claimRequest dates input databaseNow = .ok request) :
    request.worktreePath = trim input.worktreePath ∧
      request.holder = (trim input.runId, trim input.ownerId) ∧
      ∃ raw ms, input.now.or databaseNow = some raw ∧
        dates.parse raw = some ms ∧ dates.parse request.now = some ms := by
  obtain ⟨worktreePath, hpath, h⟩ := bind_eq_ok.mp h
  obtain ⟨runId, hrun, h⟩ := bind_eq_ok.mp h
  obtain ⟨ownerId, howner, h⟩ := bind_eq_ok.mp h
  obtain ⟨leaseDurationMs, -, h⟩ := bind_eq_ok.mp h
  obtain ⟨now, hnow, h⟩ := bind_eq_ok.mp h
  obtain ⟨leaseExpiresAt, -, h⟩ := bind_eq_ok.mp h
  obtain rfl := Except.ok.inj h
  refine ⟨(requireTrimmed_eq_ok hpath).1, ?_, evaluationTime_eq_ok hnow⟩
  exact Prod.ext (requireTrimmed_eq_ok hrun).1 (requireTrimmed_eq_ok howner).1

/-! ## What a statement can do -/

section

variable {table table' : WorktreeLeaseTable} {lease current : WorktreeLease}

theorem updateWhere_eq_some {worktreePath : String}
    {guard : WorktreeLease → Bool} {change : WorktreeLease → WorktreeLease}
    (h : updateWhere table worktreePath guard change = some (lease, table')) :
    ∃ row, table worktreePath = some row ∧ guard row = true ∧ lease = change row ∧
      table' = Function.update table worktreePath (some lease) := by
  cases hrow : table worktreePath with
  | none => simp [updateWhere, hrow] at h
  | some row =>
      by_cases hguard : guard row = true
      · simp only [updateWhere, hrow, if_pos hguard, Option.some.injEq,
          Prod.mk.injEq] at h
        obtain ⟨hlease, htable⟩ := h
        refine ⟨row, rfl, hguard, hlease.symm, ?_⟩
        rw [← htable, ← hlease]
      · simp [updateWhere, hrow, hguard] at h

theorem LeaseToken.names_iff {token : LeaseToken} {row : WorktreeLease} :
    token.names row = true ↔
      row.runId = token.runId ∧ row.ownerId = token.ownerId ∧
        row.generation = token.generation ∧ row.releasedAt = none := by
  simp [LeaseToken.names, and_assoc]

/-- The change of a row by its own holder: the holder and the generation
stay. -/
structure SameTenure (row lease : WorktreeLease) : Prop where
  holder : lease.holder = row.holder
  generation : lease.generation = row.generation

theorem renewStmt_eq_some {token : LeaseToken} {leaseExpiresAt now : String}
    (h : renewStmt token leaseExpiresAt now table = some (lease, table')) :
    ∃ row, table token.worktreePath = some row ∧ token.names row = true ∧
      SameTenure row lease ∧
      table' = Function.update table token.worktreePath (some lease) := by
  obtain ⟨row, hrow, hguard, hlease, htable⟩ := updateWhere_eq_some h
  rw [Bool.and_eq_true] at hguard
  refine ⟨row, hrow, hguard.1, ?_, htable⟩
  rw [hlease]
  exact ⟨rfl, rfl⟩

theorem releaseStmt_eq_some {token : LeaseToken} {releasedAt : String}
    (h : releaseStmt token releasedAt table = some (lease, table')) :
    ∃ row, table token.worktreePath = some row ∧ token.names row = true ∧
      SameTenure row lease ∧
      table' = Function.update table token.worktreePath (some lease) := by
  obtain ⟨row, hrow, hguard, hlease, htable⟩ := updateWhere_eq_some h
  refine ⟨row, hrow, hguard, ?_, htable⟩
  rw [hlease]
  exact ⟨rfl, rfl⟩

/-- What a granted claim does to the row it finds: the first lease of the path,
a prolongation by the holder, or the next generation. -/
inductive Tenure (lease : WorktreeLease) : Option WorktreeLease → Prop
  | first : lease.generation = 1 → Tenure lease none
  | prolonged {row : WorktreeLease} : SameTenure row lease → Tenure lease (some row)
  | next {row : WorktreeLease} : lease.generation = row.generation + 1 →
      Tenure lease (some row)

variable {dates : DateText} {request : ClaimRequest}

/-- A claim is granted, and leaves its own lease, or the table stays. -/
def ClaimEffect (request : ClaimRequest) (table table' : WorktreeLeaseTable) :
    Except WorktreeLeaseError ClaimResult → Prop
  | .ok (.claimed _ lease) =>
      lease.holder = request.holder ∧ Tenure lease (table request.worktreePath) ∧
        table' = Function.update table request.worktreePath (some lease)
  | _ => table' = table

theorem claimCurrent_effect (hcurrent : table request.worktreePath = some current) :
    ClaimEffect request table (claimCurrent dates request table current).2
      (.ok (claimCurrent dates request table current).1) := by
  simp only [claimCurrent]
  split
  · split
    · rfl
    · rename_i hsame
      push Not at hsame
      split
      · rename_i lease table' hrenew
        obtain ⟨row, hrow, -, htenure, htable⟩ := renewStmt_eq_some hrenew
        have hrow' : row = current := by
          rw [hcurrent] at hrow
          exact (Option.some.inj hrow).symm
        subst hrow'
        refine ⟨?_, ?_, htable⟩
        · rw [htenure.holder]
          exact Prod.ext hsame.1 hsame.2
        · rw [hcurrent]
          exact .prolonged htenure
      · rfl
  · split
    · rename_i lease table' hreclaim
      obtain ⟨row, hrow, hguard, hlease, htable⟩ := updateWhere_eq_some hreclaim
      have hrow' : row = current := by
        rw [hcurrent] at hrow
        exact (Option.some.inj hrow).symm
      subst hrow'
      refine ⟨?_, ?_, htable⟩
      · rw [hlease]
        rfl
      · rw [hcurrent]
        refine .next ?_
        rw [hlease]
    · rfl

theorem claimTransaction_effect (dates : DateText) (request : ClaimRequest)
    (table : WorktreeLeaseTable) :
    ClaimEffect request table (claimTransaction dates request table).2
      (claimTransaction dates request table).1 := by
  cases hcurrent : table request.worktreePath with
  | some current =>
      simp only [claimTransaction, hcurrent]
      exact claimCurrent_effect hcurrent
  | none =>
      simp only [claimTransaction, hcurrent, insertStmt]
      refine ⟨rfl, ?_, rfl⟩
      rw [hcurrent]
      exact .first rfl

/-- A claim by another holder on a lease that is still active is blocked. -/
theorem claimTransaction_blocked
    (hcurrent : table request.worktreePath = some current)
    (hactive : isLeaseActive dates current (dates.parse request.now) = true)
    (hother : request.holder ≠ current.holder) :
    claimTransaction dates request table = (.ok (.blocked current), table) := by
  have hdiffers : current.runId ≠ request.runId ∨ current.ownerId ≠ request.ownerId := by
    by_contra hsame
    push Not at hsame
    exact hother (Prod.ext hsame.1.symm hsame.2.symm)
  simp [claimTransaction, hcurrent, claimCurrent, hactive, hdiffers]

end

/-! ## Calls -/

/-- A call of the repository.  `databaseNow` is what the database answers when
the caller gives no time. -/
inductive LeaseCall
  | claim (input : ClaimInput) (databaseNow : Option String)
  | renew (input : LeaseTokenInput) (leaseDurationMs : Number)
      (now databaseNow : Option String)
  | release (input : LeaseTokenInput) (releasedAt databaseNow : Option String)

/-- What a call answers. -/
inductive LeaseAnswer
  | claim (result : Except WorktreeLeaseError ClaimResult)
  | renew (result : Except WorktreeLeaseError (Option WorktreeLease))
  | release (result : Except WorktreeLeaseError Bool)

/-- Run one call. -/
def LeaseCall.perform (dates : DateText) (table : WorktreeLeaseTable) :
    LeaseCall → LeaseAnswer × WorktreeLeaseTable
  | .claim input databaseNow =>
      let (result, table') := WorktreeLeaseRepository.claim dates input databaseNow table
      (.claim result, table')
  | .renew input leaseDurationMs now databaseNow =>
      let (result, table') :=
        WorktreeLeaseRepository.renew dates input leaseDurationMs now databaseNow table
      (.renew result, table')
  | .release input releasedAt databaseNow =>
      let (result, table') :=
        WorktreeLeaseRepository.release dates input releasedAt databaseNow table
      (.release result, table')

/-- A call together with its answer. -/
structure LeaseEvent where
  call : LeaseCall
  answer : LeaseAnswer

/-- The repository takes one call after the other. -/
def Step (dates : DateText) (table : WorktreeLeaseTable) (event : LeaseEvent)
    (table' : WorktreeLeaseTable) : Prop :=
  event.call.perform dates table = (event.answer, table')

/-- The event is a claim on `worktreePath` that `holder` was granted with
`generation`. -/
def LeaseEvent.Claims (worktreePath : String) (generation : Nat)
    (holder : String × String) (event : LeaseEvent) : Prop :=
  ∃ input databaseNow claimKind lease,
    event.call = .claim input databaseNow ∧
    event.answer = .claim (.ok (.claimed claimKind lease)) ∧
    trim input.worktreePath = worktreePath ∧
    (trim input.runId, trim input.ownerId) = holder ∧
    lease.generation = generation

/-- Every call keeps the row of a path, or changes it for its holder, or is a
claim on the path that is granted. -/
inductive PathStep (worktreePath : String) (table : WorktreeLeaseTable)
    (event : LeaseEvent) (table' : WorktreeLeaseTable) : Prop
  | kept : table' worktreePath = table worktreePath →
      (∀ generation holder, ¬event.Claims worktreePath generation holder) →
      PathStep worktreePath table event table'
  | byHolder {row lease : WorktreeLease} :
      table worktreePath = some row → SameTenure row lease →
      table' worktreePath = some lease →
      (∀ generation holder, ¬event.Claims worktreePath generation holder) →
      PathStep worktreePath table event table'
  | granted {lease : WorktreeLease} :
      Tenure lease (table worktreePath) → table' worktreePath = some lease →
      (∀ generation holder, event.Claims worktreePath generation holder →
        generation = lease.generation ∧ holder = lease.holder) →
      PathStep worktreePath table event table'

section

variable {dates : DateText} {table table' : WorktreeLeaseTable}

/-- A claim is refused before it reads the table, or it has the effect of its
transaction. -/
theorem claim_effect (dates : DateText) (table : WorktreeLeaseTable) (input : ClaimInput)
    (databaseNow : Option String) :
    (∃ error, claim dates input databaseNow table = (.error error, table)) ∨
      ∃ request, claimRequest dates input databaseNow = .ok request ∧
        ClaimEffect request table (claim dates input databaseNow table).2
          (claim dates input databaseNow table).1 := by
  cases hrequest : claimRequest dates input databaseNow with
  | error error => exact .inl ⟨error, by simp [claim, hrequest]⟩
  | ok request =>
      refine .inr ⟨request, rfl, ?_⟩
      simp only [claim, hrequest]
      exact claimTransaction_effect dates request table

theorem not_claims_of_answer {event : LeaseEvent}
    (h : ∀ claimKind lease, event.answer ≠ .claim (.ok (.claimed claimKind lease)))
    (worktreePath : String) (generation : Nat) (holder : String × String) :
    ¬event.Claims worktreePath generation holder := by
  rintro ⟨input, databaseNow, claimKind, lease, -, hanswer, -⟩
  exact h claimKind lease hanswer

theorem pathStep_claim (worktreePath : String) {input : ClaimInput}
    {databaseNow : Option String}
    {result : Except WorktreeLeaseError ClaimResult}
    (h : claim dates input databaseNow table = (result, table')) :
    PathStep worktreePath table
      { call := .claim input databaseNow, answer := .claim result } table' := by
  rcases claim_effect dates table input databaseNow with
    ⟨error, herror⟩ | ⟨request, hrequest, heffect⟩
  · rw [h] at herror
    obtain ⟨rfl, rfl⟩ := Prod.mk.inj herror
    exact .kept rfl (not_claims_of_answer (by simp) worktreePath)
  · obtain ⟨hpath, hholder, -⟩ := claimRequest_eq_ok hrequest
    rw [h] at heffect
    match result with
    | .error _ =>
        refine .kept ?_ (not_claims_of_answer (by simp) worktreePath)
        rw [show table' = table from heffect]
    | .ok (.blocked _) =>
        refine .kept ?_ (not_claims_of_answer (by simp) worktreePath)
        rw [show table' = table from heffect]
    | .ok (.claimed claimKind lease) =>
        obtain ⟨hown, htenure, htable⟩ := heffect
        change table' = _ at htable
        by_cases hsame : request.worktreePath = worktreePath
        · subst hsame
          have hleft : table' request.worktreePath = some lease := by
            rw [htable, Function.update_self]
          refine .granted htenure hleft ?_
          rintro generation holder ⟨_, _, _, _, hcall, hanswer, -, hwho, hgen⟩
          cases hcall
          cases hanswer
          exact ⟨hgen.symm, by rw [← hwho, hown, hholder]⟩
        · have hleft : table' worktreePath = table worktreePath := by
            rw [htable, Function.update_of_ne (Ne.symm hsame)]
          refine .kept hleft ?_
          rintro generation holder ⟨_, _, _, _, hcall, -, hclaimed, -⟩
          cases hcall
          exact hsame (hpath.trans hclaimed)

/-- What a call with a token does: nothing, or a change of the row that the
token names. -/
def TokenEffect (input : LeaseTokenInput) (table table' : WorktreeLeaseTable) : Prop :=
  table' = table ∨
    ∃ token row lease, normalizeToken input = .ok token ∧
      table token.worktreePath = some row ∧ token.names row = true ∧
      SameTenure row lease ∧
      table' = Function.update table token.worktreePath (some lease)

theorem TokenEffect.pathStep {input : LeaseTokenInput} {event : LeaseEvent}
    (h : TokenEffect input table table') (worktreePath : String)
    (hclaims : ∀ generation holder, ¬event.Claims worktreePath generation holder) :
    PathStep worktreePath table event table' := by
  rcases h with hkept | ⟨token, row, lease, -, hrow, -, htenure, htable⟩
  · exact .kept (congrFun hkept worktreePath) hclaims
  · by_cases hsame : token.worktreePath = worktreePath
    · subst hsame
      exact .byHolder hrow htenure (by simp [htable]) hclaims
    · refine .kept ?_ hclaims
      simp [htable, Function.update_of_ne (Ne.symm hsame)]

/-- A token that does not name the row of its path changes nothing. -/
theorem TokenEffect.eq_of_not_names {input : LeaseTokenInput} {token : LeaseToken}
    {current : WorktreeLease} (h : TokenEffect input table table')
    (htoken : normalizeToken input = .ok token)
    (hcurrent : table token.worktreePath = some current)
    (hnames : token.names current = false) : table' = table := by
  rcases h with hkept | ⟨token', row, lease, htoken', hrow, hnamed, -, -⟩
  · exact hkept
  · obtain rfl : token = token' := Except.ok.inj (htoken.symm.trans htoken')
    obtain rfl : current = row := Option.some.inj (hcurrent.symm.trans hrow)
    rw [hnames] at hnamed
    cases hnamed

theorem renew_effect (dates : DateText) (table : WorktreeLeaseTable)
    (input : LeaseTokenInput) (leaseDurationMs : Number)
    (now databaseNow : Option String) :
    TokenEffect input table
      (renew dates input leaseDurationMs now databaseNow table).2 := by
  cases hrequest : renewRequest dates input leaseDurationMs now databaseNow with
  | error error => exact .inl (by simp [renew, hrequest])
  | ok request =>
      obtain ⟨token, leaseExpiresAt, time⟩ := request
      have htoken : normalizeToken input = .ok token := by
        obtain ⟨token', htoken', hrest⟩ := bind_eq_ok.mp hrequest
        iterate 3 obtain ⟨_, -, hrest⟩ := bind_eq_ok.mp hrest
        cases hrest
        exact htoken'
      cases hrenew : renewStmt token leaseExpiresAt time table with
      | none => exact .inl (by simp [renew, hrequest, hrenew])
      | some changed =>
          obtain ⟨lease, table'⟩ := changed
          obtain ⟨row, hrow, hnames, htenure, htable⟩ := renewStmt_eq_some hrenew
          refine .inr ⟨token, row, lease, htoken, hrow, hnames, htenure, ?_⟩
          simp [renew, hrequest, hrenew, htable]

theorem release_effect (dates : DateText) (table : WorktreeLeaseTable)
    (input : LeaseTokenInput) (releasedAt databaseNow : Option String) :
    TokenEffect input table (release dates input releasedAt databaseNow table).2 := by
  cases hrequest : releaseRequest dates input releasedAt databaseNow with
  | error error => exact .inl (by simp [release, hrequest])
  | ok request =>
      obtain ⟨token, time⟩ := request
      have htoken : normalizeToken input = .ok token := by
        obtain ⟨token', htoken', hrest⟩ := bind_eq_ok.mp hrequest
        obtain ⟨_, -, hrest⟩ := bind_eq_ok.mp hrest
        cases hrest
        exact htoken'
      cases hrelease : releaseStmt token time table with
      | none =>
          refine .inl ?_
          simp only [release, hrequest, hrelease]
          split
          · rfl
          · rfl
      | some changed =>
          obtain ⟨lease, table'⟩ := changed
          obtain ⟨row, hrow, hnames, htenure, htable⟩ := releaseStmt_eq_some hrelease
          refine .inr ⟨token, row, lease, htoken, hrow, hnames, htenure, ?_⟩
          simp [release, hrequest, hrelease, htable]

theorem pathStep_of_step (worktreePath : String) {event : LeaseEvent}
    (h : Step dates table event table') : PathStep worktreePath table event table' := by
  obtain ⟨call, answer⟩ := event
  cases call with
  | claim input databaseNow =>
      obtain ⟨rfl, rfl⟩ := Prod.mk.inj h
      exact pathStep_claim worktreePath rfl
  | renew input leaseDurationMs now databaseNow =>
      obtain ⟨rfl, rfl⟩ := Prod.mk.inj h
      have hclaims := @not_claims_of_answer
        ⟨.renew input leaseDurationMs now databaseNow,
          .renew (renew dates input leaseDurationMs now databaseNow table).1⟩
        (by simp) worktreePath
      exact (renew_effect dates table input leaseDurationMs now databaseNow).pathStep
        worktreePath hclaims
  | release input releasedAt databaseNow =>
      obtain ⟨rfl, rfl⟩ := Prod.mk.inj h
      have hclaims := @not_claims_of_answer
        ⟨.release input releasedAt databaseNow,
          .release (release dates input releasedAt databaseNow table).1⟩
        (by simp) worktreePath
      exact (release_effect dates table input releasedAt databaseNow).pathStep
        worktreePath hclaims

end

/-! ## Runs -/

/-- The generation of a path, zero before its first lease. -/
def generationOf : Option WorktreeLease → Nat
  | none => 0
  | some lease => lease.generation

section

variable {dates : DateText} {table table' : WorktreeLeaseTable}
  {events : List LeaseEvent} {event : LeaseEvent}

theorem generationOf_le_of_tenure {lease : WorktreeLease}
    {before : Option WorktreeLease} (h : Tenure lease before) :
    generationOf before ≤ lease.generation := by
  cases h with
  | first hfirst => exact Nat.zero_le _
  | prolonged hsame => exact hsame.generation.ge
  | next hnext =>
      simp only [generationOf]
      omega

theorem generationOf_le_of_step (worktreePath : String) (h : Step dates table event table') :
    generationOf (table worktreePath) ≤ generationOf (table' worktreePath) := by
  cases pathStep_of_step worktreePath h with
  | kept hkept _ => rw [hkept]
  | byHolder hrow htenure hlease _ =>
      rw [hrow, hlease]
      exact htenure.generation.ge
  | granted htenure hlease _ =>
      rw [hlease]
      exact generationOf_le_of_tenure htenure

/-- The generation of a path never goes down. -/
theorem generationOf_le_of_run (worktreePath : String)
    (h : Run (Step dates) table events table') :
    generationOf (table worktreePath) ≤ generationOf (table' worktreePath) := by
  refine h.invariant (I := fun later =>
    generationOf (table worktreePath) ≤ generationOf (later worktreePath)) ?_ le_rfl
  intro earlier event later hstep hle
  exact le_trans hle (generationOf_le_of_step worktreePath hstep)

/-- A claim granted in the past has an earlier generation than the row, or the
generation and the holder of the row. -/
def ClaimsSettled (worktreePath : String) (past : List LeaseEvent)
    (table : WorktreeLeaseTable) : Prop :=
  ∀ event ∈ past, ∀ generation holder,
    event.Claims worktreePath generation holder →
      ∃ lease, table worktreePath = some lease ∧
        (generation < lease.generation ∨
          (generation = lease.generation ∧ holder = lease.holder))

theorem claimsSettled_step (worktreePath : String) {past : List LeaseEvent}
    (hstep : Step dates table event table') (h : ClaimsSettled worktreePath past table) :
    ClaimsSettled worktreePath (past ++ [event]) table' := by
  intro claimed hmem generation holder hclaims
  rcases List.mem_append.mp hmem with hpast | hnow
  · obtain ⟨row, hrow, hsettled⟩ := h claimed hpast generation holder hclaims
    cases pathStep_of_step worktreePath hstep with
    | kept hkept _ => exact ⟨row, hkept.trans hrow, hsettled⟩
    | @byHolder row' lease hrow' htenure hlease _ =>
        obtain rfl : row' = row := Option.some.inj (hrow'.symm.trans hrow)
        refine ⟨lease, hlease, ?_⟩
        rw [htenure.generation, htenure.holder]
        exact hsettled
    | @granted lease htenure hlease _ =>
        rw [hrow] at htenure
        refine ⟨lease, hlease, ?_⟩
        cases htenure with
        | prolonged hsame =>
            rw [hsame.generation, hsame.holder]
            exact hsettled
        | next hnext => omega
  · obtain rfl := List.mem_singleton.mp hnow
    cases pathStep_of_step worktreePath hstep with
    | kept _ hnone => exact absurd hclaims (hnone generation holder)
    | byHolder _ _ _ hnone => exact absurd hclaims (hnone generation holder)
    | @granted lease _ hlease hsame =>
        exact ⟨lease, hlease, .inr (hsame generation holder hclaims)⟩

/-- A claim that is granted leaves its own generation and holder. -/
theorem lease_of_claims {worktreePath : String} {generation : Nat} {holder : String × String}
    (hstep : Step dates table event table') (h : event.Claims worktreePath generation holder) :
    ∃ lease, table' worktreePath = some lease ∧ generation = lease.generation ∧
      holder = lease.holder := by
  cases pathStep_of_step worktreePath hstep with
  | kept _ hnone => exact absurd h (hnone generation holder)
  | byHolder _ _ _ hnone => exact absurd h (hnone generation holder)
  | @granted lease _ hlease hsame => exact ⟨lease, hlease, hsame generation holder h⟩

/-- The claims of one generation are all granted to one holder. -/
def OneHolder (worktreePath : String) (past : List LeaseEvent) : Prop :=
  ∀ event ∈ past, ∀ event' ∈ past, ∀ generation holder holder',
    event.Claims worktreePath generation holder →
    event'.Claims worktreePath generation holder' → holder = holder'

/-- The last claim has the holder of every earlier one of its generation. -/
theorem holder_eq_of_last {worktreePath : String} {past : List LeaseEvent} {event' : LeaseEvent}
    {generation : Nat} {holder holder' : String × String} (hstep : Step dates table event table')
    (h : ClaimsSettled worktreePath (past ++ [event]) table') (hmem : event' ∈ past ++ [event])
    (hclaims : event.Claims worktreePath generation holder)
    (hclaims' : event'.Claims worktreePath generation holder') : holder = holder' := by
  obtain ⟨lease, hlease, hgeneration, hholder⟩ := lease_of_claims hstep hclaims
  obtain ⟨row, hrow, hsettled⟩ := h event' hmem generation holder' hclaims'
  obtain rfl : lease = row := Option.some.inj (hlease.symm.trans hrow)
  rcases hsettled with hearlier | ⟨-, hholder'⟩
  · omega
  · rw [hholder, hholder']

theorem oneHolder_step (worktreePath : String) {past : List LeaseEvent}
    (hstep : Step dates table event table')
    (hsettled : ClaimsSettled worktreePath (past ++ [event]) table')
    (h : OneHolder worktreePath past) : OneHolder worktreePath (past ++ [event]) := by
  intro first hfirst second hsecond generation holder holder' hclaims hclaims'
  rcases List.mem_append.mp hfirst with hpast | hlast
  · rcases List.mem_append.mp hsecond with hpast' | hlast'
    · exact h first hpast second hpast' generation holder holder' hclaims hclaims'
    · obtain rfl := List.mem_singleton.mp hlast'
      exact (holder_eq_of_last hstep hsettled hfirst hclaims' hclaims).symm
  · obtain rfl := List.mem_singleton.mp hlast
    exact holder_eq_of_last hstep hsettled hsecond hclaims hclaims'

theorem oneHolder_of_run (worktreePath : String)
    (h : Run (Step dates) table events table') : OneHolder worktreePath events := by
  have hrun := @Run.invariant_of_history _ _ _ _ _ _
    (fun past table =>
      ClaimsSettled worktreePath past table ∧ OneHolder worktreePath past)
    (fun past _ event _ hstep hpast => by
      have hsettled := claimsSettled_step worktreePath hstep hpast.1
      exact ⟨hsettled, oneHolder_step worktreePath hstep hsettled hpast.2⟩)
    [] h
    ⟨fun event hmem => absurd hmem List.not_mem_nil,
      fun event hmem => absurd hmem List.not_mem_nil⟩
  rw [List.nil_append] at hrun
  exact hrun.2

theorem claim_blocked {input : ClaimInput} {databaseNow : Option String}
    {request : ClaimRequest} {current : WorktreeLease} {raw : String}
    {nowMs expiresAtMs : Int}
    (hrequest : claimRequest dates input databaseNow = .ok request)
    (hcurrent : table (trim input.worktreePath) = some current)
    (hother : (trim input.runId, trim input.ownerId) ≠ current.holder)
    (hreleased : current.releasedAt = none)
    (hraw : input.now.or databaseNow = some raw)
    (hnow : dates.parse raw = some nowMs)
    (hexpires : dates.parse current.leaseExpiresAt = some expiresAtMs)
    (hbefore : nowMs < expiresAtMs) :
    claim dates input databaseNow table = (.ok (.blocked current), table) := by
  obtain ⟨hpath, hholder, raw', ms, hraw', hms, hparsed⟩ := claimRequest_eq_ok hrequest
  obtain rfl : raw = raw' := Option.some.inj (hraw.symm.trans hraw')
  obtain rfl : nowMs = ms := Option.some.inj (hnow.symm.trans hms)
  have hactive : isLeaseActive dates current (dates.parse request.now) = true := by
    simp [isLeaseActive, isSet, hreleased, hexpires, hparsed, hbefore]
  have hclaim : claim dates input databaseNow table =
      claimTransaction dates request table := by
    simp [claim, hrequest]
  rw [hclaim]
  refine claimTransaction_blocked ?_ hactive ?_
  · rw [hpath]
    exact hcurrent
  · rw [hholder]
    exact hother

/-- Along every run of claims, renewals and releases: the generation of a path
never goes down; the claims of one generation are granted to one holder; a
claim by another holder before the expiry of a lease that was not released is
blocked and changes nothing, and a claim with malformed input throws and
changes nothing; and a renewal or a release whose token has another generation,
run or owner than the row changes nothing. -/
theorem worktreeLeases_exclusive_and_fenced
    (hrun : Run (Step dates) (fun _ => none) events table) :
    (∀ later table', Run (Step dates) table later table' → ∀ worktreePath,
      generationOf (table worktreePath) ≤ generationOf (table' worktreePath)) ∧
    (∀ worktreePath, OneHolder worktreePath events) ∧
    (∀ input databaseNow current raw nowMs expiresAtMs,
      table (trim input.worktreePath) = some current →
      (trim input.runId, trim input.ownerId) ≠ current.holder →
      current.releasedAt = none →
      input.now.or databaseNow = some raw → dates.parse raw = some nowMs →
      dates.parse current.leaseExpiresAt = some expiresAtMs → nowMs < expiresAtMs →
      claim dates input databaseNow table =
        ((claimRequest dates input databaseNow).map fun _ => .blocked current,
          table)) ∧
    (∀ input token current, normalizeToken input = .ok token →
      table token.worktreePath = some current →
      (token.generation ≠ current.generation ∨ token.runId ≠ current.runId ∨
        token.ownerId ≠ current.ownerId) →
      (∀ leaseDurationMs now databaseNow,
        (renew dates input leaseDurationMs now databaseNow table).2 = table) ∧
      ∀ releasedAt databaseNow,
        (release dates input releasedAt databaseNow table).2 = table) := by
  refine ⟨?_, fun worktreePath => oneHolder_of_run worktreePath hrun, ?_, ?_⟩
  · intro later table' hlater worktreePath
    exact generationOf_le_of_run worktreePath hlater
  · intro input databaseNow current raw nowMs expiresAtMs hcurrent hother hreleased
      hraw hnow hexpires hbefore
    cases hrequest : claimRequest dates input databaseNow with
    | error error => simp [claim, hrequest, Except.map]
    | ok request =>
        rw [claim_blocked hrequest hcurrent hother hreleased hraw hnow hexpires hbefore]
        rfl
  · intro input token current htoken hcurrent hdiffers
    have hnames : token.names current = false := by
      rw [← Bool.not_eq_true, LeaseToken.names_iff]
      rintro ⟨hrunId, hownerId, hgeneration, -⟩
      rcases hdiffers with h | h | h
      · exact h hgeneration.symm
      · exact h hrunId.symm
      · exact h hownerId.symm
    constructor
    · intro leaseDurationMs now databaseNow
      exact (renew_effect dates table input leaseDurationMs now
        databaseNow).eq_of_not_names htoken hcurrent hnames
    · intro releasedAt databaseNow
      exact (release_effect dates table input releasedAt databaseNow).eq_of_not_names
        htoken hcurrent hnames

end

/-- Dates at the times of a list, under their texts. -/
def DateText.ofList (entries : List (Int × String)) (h : (entries.map (·.2)).Nodup) :
    DateText where
  parse text := (entries.find? fun entry => entry.2 = text).map (·.1)
  toISOString ms := (entries.find? fun entry => entry.1 = ms).map (·.2)
  parse_toISOString := by
    intro ms text htext
    obtain ⟨entry, hentry, rfl⟩ := Option.map_eq_some_iff.mp htext
    obtain ⟨hmem, rfl⟩ := mem_of_find?_key hentry
    rw [find?_key_of_mem h hmem]
    rfl

/-- Dates as they are at the two times of the witness. -/
def epochDates : DateText where
  parse text :=
    if text = "1970-01-01T00:00:00.000Z" then some 0
    else if text = "1970-01-01T00:01:00.000Z" then some 60000
    else none
  toISOString ms :=
    if ms = 0 then some "1970-01-01T00:00:00.000Z"
    else if ms = 60000 then some "1970-01-01T00:01:00.000Z"
    else none
  parse_toISOString := by
    intro ms text h
    split at h
    · obtain rfl := Option.some.inj h
      simp_all
    · split at h
      · obtain rfl := Option.some.inj h
        simp_all
      · cases h

/-- A claim for a minute, at the epoch. -/
def minuteClaim (runId : String) : ClaimInput where
  worktreePath := "/worktrees/one"
  runId := runId
  ownerId := "owner"
  leaseDurationMs := .finite 60000
  now := some "1970-01-01T00:00:00.000Z"

/-- The lease that a minute's claim leaves on a free path. -/
def minuteLease (runId : String) : WorktreeLease where
  runId := runId
  ownerId := "owner"
  generation := 1
  leaseExpiresAt := "1970-01-01T00:01:00.000Z"
  releasedAt := none
  createdAt := "1970-01-01T00:00:00.000Z"
  updatedAt := "1970-01-01T00:00:00.000Z"

/-- The table after the claim of the first run. -/
def claimedTable : WorktreeLeaseTable :=
  ((LeaseCall.claim (minuteClaim "run-1") none).perform epochDates fun _ => none).2

/-- A second run that claims the worktree within the minute is blocked. -/
theorem second_claim_blocked :
    claim epochDates (minuteClaim "run-2") none claimedTable =
      (.ok (.blocked (minuteLease "run-1")), claimedTable) := by
  have hrun : Run (Step epochDates) (fun _ => none)
      [⟨.claim (minuteClaim "run-1") none,
        ((LeaseCall.claim (minuteClaim "run-1") none).perform epochDates
          fun _ => none).1⟩] claimedTable := .single rfl
  have hblocked := (worktreeLeases_exclusive_and_fenced hrun).2.2.1
    (minuteClaim "run-2") none (minuteLease "run-1") "1970-01-01T00:00:00.000Z" 0 60000
    (by decide +kernel) (by decide +kernel) rfl rfl (by decide +kernel)
    (by decide +kernel) (by decide)
  have hrequest : (claimRequest epochDates (minuteClaim "run-2") none).map
      (fun _ => ClaimResult.blocked (minuteLease "run-1")) =
        .ok (.blocked (minuteLease "run-1")) := by
    decide +kernel
  rw [hblocked, hrequest]

end GoatCitadel.Storage.WorktreeLeaseRepository
