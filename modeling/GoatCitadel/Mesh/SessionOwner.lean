import Mathlib.Data.Rat.Cast.Defs
import GoatCitadel.Support.Runs
import GoatCitadel.Support.Text

/-!
# Session ownership under interleaved claims

`mesh_session_owners` has one row per session.  `claimSessionOwner` reads the
row, decides whether the node may take the session, and then either inserts the
first row or runs a compare-and-swap on the epoch it read.  The read and the
write are separate steps here, and any number of claims may be between the two.

A claim never writes the epoch it read, so the epochs of one session count the
claims that were granted, and a row whose epoch is still the one that was read
is still the row that was read.  The second fact is what makes a decision taken
at the read valid at the write.
-/

namespace GoatCitadel.Mesh

open GoatCitadel.Support

/-- A row of `mesh_session_owners`, without its key. -/
structure MeshSessionOwnerRow where
  ownerNodeId : String
  epoch : Nat
  claimedAt : String
  updatedAt : String
  deriving DecidableEq

/-- The table `mesh_session_owners`, indexed by its primary key. -/
abbrev SessionOwnerTable := String → Option MeshSessionOwnerRow

/-- The input of a claim. -/
structure MeshSessionClaimRequest where
  ownerNodeId : String
  expectedEpoch : Option Number
  force : Bool

/-- A call of `claimSessionOwner`. -/
structure SessionClaim where
  sessionId : String
  input : MeshSessionClaimRequest
  now : String

/-- The errors thrown by `claimSessionOwner`. -/
inductive SessionClaimError
  | owned (sessionId ownerNodeId : String) (epoch : Nat)
  | concurrentlyClaimed (sessionId : String)
  /-- The insert met a row that appeared after the read. -/
  | uniqueViolation (sessionId : String)
  deriving DecidableEq

/-- The text of an error, as the repository throws it. -/
def SessionClaimError.message : SessionClaimError → String
  | .owned sessionId ownerNodeId epoch =>
      s!"Session {sessionId} is owned by {ownerNodeId} at epoch {epoch}"
  | .concurrentlyClaimed sessionId =>
      s!"Session {sessionId} ownership was concurrently claimed"
  | .uniqueViolation _ =>
      "UNIQUE constraint failed: mesh_session_owners.session_id"

/-- The rule by which a node may take over the row it read. -/
def canTakeOver (input : MeshSessionClaimRequest)
    (current : MeshSessionOwnerRow) : Bool :=
  input.force || current.ownerNodeId == input.ownerNodeId ||
    decide (input.expectedEpoch = some (.finite current.epoch))

/-- The one write statement that a claim runs after its read. -/
inductive SessionWrite
  /-- `insertSessionOwnerStmt` -/
  | insert (row : MeshSessionOwnerRow)
  /-- `updateSessionOwnerStmt`, which leaves `claimed_at` as it is. -/
  | update (expectedEpoch : Nat) (ownerNodeId : String) (epoch : Nat)
      (updatedAt : String)
  deriving DecidableEq

namespace SessionClaim

/-- What `claimSessionOwner` decides from the row it read. -/
def plan (claim : SessionClaim) :
    Option MeshSessionOwnerRow → Except SessionClaimError SessionWrite
  | none =>
      .ok (.insert
        { ownerNodeId := claim.input.ownerNodeId
          epoch := 1
          claimedAt := claim.now
          updatedAt := claim.now })
  | some current =>
      if canTakeOver claim.input current then
        .ok (.update current.epoch claim.input.ownerNodeId (current.epoch + 1)
          claim.now)
      else
        .error (.owned claim.sessionId current.ownerNodeId current.epoch)

/-- A decision to update is a decision to take over the row that was read. -/
theorem plan_eq_update {claim : SessionClaim}
    {read : Option MeshSessionOwnerRow} {expected epoch : Nat}
    {owner updatedAt : String}
    (h : claim.plan read = .ok (.update expected owner epoch updatedAt)) :
    ∃ current, read = some current ∧ canTakeOver claim.input current = true ∧
      expected = current.epoch ∧ owner = claim.input.ownerNodeId ∧
      epoch = current.epoch + 1 := by
  cases read with
  | none => simp [plan] at h
  | some current =>
      by_cases htake : canTakeOver claim.input current = true
      · simp only [plan, if_pos htake, Except.ok.injEq,
          SessionWrite.update.injEq] at h
        obtain ⟨hexpected, howner, hepoch, -⟩ := h
        exact ⟨current, rfl, htake, hexpected.symm, howner.symm, hepoch.symm⟩
      · simp [plan, htake] at h

/-- A decision to insert writes the first epoch. -/
theorem plan_eq_insert {claim : SessionClaim}
    {read : Option MeshSessionOwnerRow} {row : MeshSessionOwnerRow}
    (h : claim.plan read = .ok (.insert row)) : row.epoch = 1 := by
  cases read with
  | none =>
      simp only [plan, Except.ok.injEq, SessionWrite.insert.injEq] at h
      rw [← h]
  | some current =>
      by_cases htake : canTakeOver claim.input current = true
      · simp [plan, htake] at h
      · simp [plan, htake] at h

end SessionClaim

/-- What a claim answers. -/
inductive SessionReply
  | granted (row : MeshSessionOwnerRow)
  | refused (error : SessionClaimError)
  deriving DecidableEq

/-- Run the write that `claim` decided on. -/
def SessionWrite.run (claim : SessionClaim) (table : SessionOwnerTable) :
    SessionWrite → SessionReply × SessionOwnerTable
  | .insert row =>
      match table claim.sessionId with
      | some _ => (.refused (.uniqueViolation claim.sessionId), table)
      | none => (.granted row, Function.update table claim.sessionId (some row))
  | .update expectedEpoch ownerNodeId epoch updatedAt =>
      match table claim.sessionId with
      | none => (.refused (.concurrentlyClaimed claim.sessionId), table)
      | some current =>
          if current.epoch = expectedEpoch then
            let row :=
              { current with
                ownerNodeId := ownerNodeId
                epoch := epoch
                updatedAt := updatedAt }
            (.granted row, Function.update table claim.sessionId (some row))
          else (.refused (.concurrentlyClaimed claim.sessionId), table)

/-- A claim that has read its row and not yet written. -/
structure PendingClaim where
  claim : SessionClaim
  /-- The row the claim read. -/
  read : Option MeshSessionOwnerRow
  write : SessionWrite

/-- The table and the claims between their read and their write. -/
structure SessionRace where
  table : SessionOwnerTable
  inFlight : Nat → Option PendingClaim

/-- What can happen in one step.  A claim that is refused on the row it read
answers at its read. -/
inductive SessionEvent
  | read (call : Nat) (claim : SessionClaim)
      (refusal : Option SessionClaimError)
  | write (call : Nat) (claim : SessionClaim) (reply : SessionReply)

/-- Whether a step is the write of a claim that was granted. -/
def SessionEvent.isGrant : SessionEvent → Bool
  | .write _ _ (.granted _) => true
  | _ => false

namespace SessionRace

/-- No session has an owner and no claim is on its way. -/
def initial : SessionRace where
  table := fun _ => none
  inFlight := fun _ => none

/-- The claim that stays in flight after a read. -/
def pendingOf (claim : SessionClaim) (read : Option MeshSessionOwnerRow) :
    Option PendingClaim :=
  match claim.plan read with
  | .error _ => none
  | .ok write => some { claim := claim, read := read, write := write }

/-- The error that a claim reports at its read. -/
def refusalOf (claim : SessionClaim) (read : Option MeshSessionOwnerRow) :
    Option SessionClaimError :=
  match claim.plan read with
  | .error error => some error
  | .ok _ => none

/-- The first half of a claim. -/
def readPhase (race : SessionRace) (call : Nat) (claim : SessionClaim) :
    SessionRace :=
  { race with
    inFlight := Function.update race.inFlight call
      (pendingOf claim (race.table claim.sessionId)) }

/-- The second half of a claim. -/
def writePhase (race : SessionRace) (call : Nat) (pending : PendingClaim) :
    SessionRace where
  table := (pending.write.run pending.claim race.table).2
  inFlight := Function.update race.inFlight call none

/-- Interleaved claims. -/
inductive Step (race : SessionRace) : SessionEvent → SessionRace → Prop
  | read {call : Nat} {claim : SessionClaim} :
      race.inFlight call = none →
      Step race
        (.read call claim (refusalOf claim (race.table claim.sessionId)))
        (race.readPhase call claim)
  | write {call : Nat} (pending : PendingClaim) :
      race.inFlight call = some pending →
      Step race
        (.write call pending.claim
          (pending.write.run pending.claim race.table).1)
        (race.writePhase call pending)

end SessionRace

/-- The epoch that a step writes for the session `k`. -/
def epochWritten (k : String) : SessionEvent → Option Nat
  | .write _ claim (.granted row) =>
      if claim.sessionId = k then some row.epoch else none
  | _ => none

/-- The epochs that a run writes for the session `k`, in order. -/
def epochsWritten (k : String) (events : List SessionEvent) : List Nat :=
  events.filterMap (epochWritten k)

/-! ## What a step does to one session -/

/-- The grant of a claim on a session, seen from the row it finds. -/
inductive Granted (pending : PendingClaim) (row : MeshSessionOwnerRow) :
    Option MeshSessionOwnerRow → Prop
  /-- The first claim of the session. -/
  | first {inserted : MeshSessionOwnerRow} :
      pending.write = .insert inserted → row = inserted →
      Granted pending row none
  /-- A compare-and-swap that found the epoch it had read. -/
  | replaced {current : MeshSessionOwnerRow} {owner updatedAt : String}
      {expected epoch : Nat} :
      pending.write = .update expected owner epoch updatedAt →
      current.epoch = expected → row.epoch = epoch →
      Granted pending row (some current)

/-- Every step leaves the row of `k` and lets no claim on `k` start from
another row, or it is the grant of a claim on `k`. -/
inductive SessionStep (k : String) (race : SessionRace) (event : SessionEvent)
    (race' : SessionRace) : Prop
  | kept :
      race'.table k = race.table k → epochWritten k event = none →
      (∀ call pending, race'.inFlight call = some pending →
        pending.claim.sessionId = k →
        race.inFlight call = some pending ∨
          (pending.read = race.table k ∧
            pending.claim.plan pending.read = .ok pending.write)) →
      SessionStep k race event race'
  | granted {call : Nat} {pending : PendingClaim} {row : MeshSessionOwnerRow} :
      event = .write call pending.claim (.granted row) →
      race.inFlight call = some pending → pending.claim.sessionId = k →
      Granted pending row (race.table k) →
      race'.table k = some row →
      (∀ call pending, race'.inFlight call = some pending →
        race.inFlight call = some pending) →
      SessionStep k race event race'

variable {race : SessionRace} {pending : PendingClaim}

/-- A write is refused and changes nothing, or it is granted. -/
theorem SessionWrite.run_cases (pending : PendingClaim)
    (table : SessionOwnerTable) :
    (∃ error, pending.write.run pending.claim table = (.refused error, table)) ∨
      ∃ row, pending.write.run pending.claim table =
          (.granted row,
            Function.update table pending.claim.sessionId (some row)) ∧
        Granted pending row (table pending.claim.sessionId) := by
  cases hwrite : pending.write with
  | insert inserted =>
      cases hrow : table pending.claim.sessionId with
      | none => exact .inr ⟨inserted, by simp [run, hrow], .first hwrite rfl⟩
      | some current => exact .inl ⟨_, by simp [run, hrow]; rfl⟩
  | update expected owner epoch updatedAt =>
      cases hrow : table pending.claim.sessionId with
      | none => exact .inl ⟨_, by simp [run, hrow]; rfl⟩
      | some current =>
          by_cases hepoch : current.epoch = expected
          · refine .inr
              ⟨{ current with
                  ownerNodeId := owner
                  epoch := epoch
                  updatedAt := updatedAt }, ?_, .replaced hwrite hepoch rfl⟩
            simp [run, hrow, hepoch]
          · exact .inl ⟨_, by simp [run, hrow, hepoch]; rfl⟩

theorem SessionRace.inFlight_of_finished {inFlight : Nat → Option PendingClaim} {call call' : Nat}
    (h : Function.update inFlight call none call' = some pending) :
    inFlight call' = some pending := by
  by_cases hcall : call' = call
  · simp [hcall] at h
  · simpa [Function.update_of_ne hcall] using h

theorem sessionStep_read (k : String) {call : Nat} {claim : SessionClaim} :
    SessionStep k race
      (.read call claim
        (SessionRace.refusalOf claim (race.table claim.sessionId)))
      (race.readPhase call claim) := by
  refine .kept rfl rfl ?_
  intro call' pending hpending hsession
  by_cases hcall : call' = call
  · subst hcall
    cases hplan : claim.plan (race.table claim.sessionId) with
    | error error =>
        simp [SessionRace.readPhase, SessionRace.pendingOf, hplan] at hpending
    | ok write =>
        simp only [SessionRace.readPhase, SessionRace.pendingOf, hplan,
          Function.update_self, Option.some.injEq] at hpending
        subst hpending
        subst hsession
        exact .inr ⟨rfl, hplan⟩
  · refine .inl ?_
    simpa [SessionRace.readPhase, Function.update_of_ne hcall] using hpending

theorem sessionStep_write (k : String) {call : Nat} (hpending : race.inFlight call = some pending) :
    SessionStep k race
      (.write call pending.claim (pending.write.run pending.claim race.table).1)
      (race.writePhase call pending) := by
  have hinFlight : ∀ call' pending',
      (race.writePhase call pending).inFlight call' = some pending' →
        race.inFlight call' = some pending' :=
    fun _ _ h => SessionRace.inFlight_of_finished h
  rcases SessionWrite.run_cases pending race.table with
    ⟨error, hrun⟩ | ⟨row, hrun, hgranted⟩
  · refine .kept ?_ ?_ fun call' pending' h _ => .inl (hinFlight call' pending' h)
    · simp [SessionRace.writePhase, hrun]
    · simp [epochWritten, hrun]
  · by_cases hsession : pending.claim.sessionId = k
    · subst hsession
      rw [hrun]
      refine .granted rfl hpending rfl hgranted ?_ hinFlight
      simp [SessionRace.writePhase, hrun]
    · refine .kept ?_ ?_ fun call' pending' h _ => .inl (hinFlight call' pending' h)
      · simp [SessionRace.writePhase, hrun,
          Function.update_of_ne (Ne.symm hsession)]
      · simp [epochWritten, hrun, hsession]

theorem sessionStep_of_step (k : String) {race' : SessionRace} {event : SessionEvent}
    (h : SessionRace.Step race event race') : SessionStep k race event race' := by
  cases h with
  | read => exact sessionStep_read k
  | write _ hpending => exact sessionStep_write k hpending

/-- Only a grant changes the table: neither a read nor a claim that reports an
error does. -/
theorem table_eq_of_not_isGrant {race' : SessionRace} {event : SessionEvent}
    (h : SessionRace.Step race event race') (hgrant : event.isGrant = false) :
    race'.table = race.table := by
  cases h with
  | read => rfl
  | write pending hpending =>
      rcases SessionWrite.run_cases pending race.table with
        ⟨error, hrun⟩ | ⟨row, hrun, -⟩
      · simp [SessionRace.writePhase, hrun]
      · simp [SessionEvent.isGrant, hrun] at hgrant

/-! ## The invariant -/

/-- The epoch of the row of a session, zero before its first claim. -/
def currentEpoch : Option MeshSessionOwnerRow → Nat
  | none => 0
  | some row => row.epoch

/-- The row that a claim read is still there, or a later epoch has taken its
place. -/
def ReadStands (read current : Option MeshSessionOwnerRow) : Prop :=
  ∀ row, read = some row →
    current = some row ∨ row.epoch < currentEpoch current

/-- The epochs written so far, and what the claims in flight on `k` know. -/
structure SessionConsistent (k : String) (past : List SessionEvent)
    (race : SessionRace) : Prop where
  epochs : epochsWritten k past = List.range' 1 (currentEpoch (race.table k))
  planned : ∀ call pending, race.inFlight call = some pending →
    pending.claim.sessionId = k →
      pending.claim.plan pending.read = .ok pending.write
  readStands : ∀ call pending, race.inFlight call = some pending →
    pending.claim.sessionId = k → ReadStands pending.read (race.table k)

theorem sessionConsistent_initial (k : String) :
    SessionConsistent k [] SessionRace.initial where
  epochs := rfl
  planned := by
    intro call pending hpending
    simp [SessionRace.initial] at hpending
  readStands := by
    intro call pending hpending
    simp [SessionRace.initial] at hpending

/-- A grant raises the epoch of the session by one. -/
theorem epoch_of_granted {row : MeshSessionOwnerRow} {current : Option MeshSessionOwnerRow}
    (hplanned : pending.claim.plan pending.read = .ok pending.write)
    (h : Granted pending row current) : row.epoch = currentEpoch current + 1 := by
  cases h with
  | first hwrite hrow =>
      rw [hwrite] at hplanned
      rw [hrow, SessionClaim.plan_eq_insert hplanned]
      rfl
  | @replaced current owner updatedAt expected epoch hwrite hexpected hrow =>
      rw [hwrite] at hplanned
      obtain ⟨read, -, -, hread, -, hnext⟩ := SessionClaim.plan_eq_update hplanned
      simp only [currentEpoch]
      omega

theorem readStands_of_granted {read current : Option MeshSessionOwnerRow}
    {row : MeshSessionOwnerRow} (hrow : row.epoch = currentEpoch current + 1)
    (h : ReadStands read current) : ReadStands read (some row) := by
  intro earlier hearlier
  refine .inr ?_
  have hle : earlier.epoch ≤ currentEpoch current := by
    rcases h earlier hearlier with hsame | hlater
    · rw [hsame]
      exact le_refl _
    · exact le_of_lt hlater
  simp only [currentEpoch]
  omega

theorem sessionConsistent_step (k : String) {past : List SessionEvent} {race' : SessionRace}
    {event : SessionEvent} (hstep : SessionRace.Step race event race')
    (h : SessionConsistent k past race) : SessionConsistent k (past ++ [event]) race' := by
  have hsplit : epochsWritten k (past ++ [event]) =
      epochsWritten k past ++ (epochWritten k event).toList := by
    cases hevent : epochWritten k event with
    | none => simp [epochsWritten, List.filterMap_append, hevent]
    | some epoch => simp [epochsWritten, List.filterMap_append, hevent]
  cases sessionStep_of_step k hstep with
  | kept htable hwritten hinFlight =>
      constructor
      · rw [hsplit, hwritten, htable, h.epochs]
        simp
      · intro call pending hpending hsession
        rcases hinFlight call pending hpending hsession with hold | ⟨-, hplan⟩
        · exact h.planned call pending hold hsession
        · exact hplan
      · intro call pending hpending hsession
        rw [htable]
        rcases hinFlight call pending hpending hsession with hold | ⟨hread, -⟩
        · exact h.readStands call pending hold hsession
        · intro row hrow
          exact .inl (hread ▸ hrow)
  | @granted call pending row hevent hpending hsession hgranted htable hinFlight =>
      have hrow : row.epoch = currentEpoch (race.table k) + 1 :=
        epoch_of_granted (h.planned call pending hpending hsession) hgranted
      constructor
      · have hwritten : epochWritten k event = some row.epoch := by
          simp [hevent, epochWritten, hsession]
        have hepoch : currentEpoch (some row) = currentEpoch (race.table k) + 1 :=
          hrow
        rw [hsplit, hwritten, htable, h.epochs, hepoch, List.range'_1_concat,
          Nat.add_comm 1, hrow]
        rfl
      · intro call' pending' hpending' hsession'
        exact h.planned call' pending' (hinFlight _ _ hpending') hsession'
      · intro call' pending' hpending' hsession'
        rw [htable]
        exact readStands_of_granted hrow
          (h.readStands call' pending' (hinFlight _ _ hpending') hsession')

theorem sessionConsistent_of_run (k : String) {events : List SessionEvent}
    (h : Run SessionRace.Step SessionRace.initial events race) :
    SessionConsistent k events race := by
  have hrun := Run.invariant_of_history (I := SessionConsistent k)
    (fun _ _ _ _ hstep hpast => sessionConsistent_step k hstep hpast) h
    (sessionConsistent_initial k)
  rwa [List.nil_append] at hrun

/-- The row that a granted claim replaces is the row it read. -/
theorem canTakeOver_of_replaced {k : String} {past : List SessionEvent} {call : Nat}
    {row current : MeshSessionOwnerRow} (h : SessionConsistent k past race)
    (hpending : race.inFlight call = some pending) (hsession : pending.claim.sessionId = k)
    (hcurrent : race.table k = some current) (hgranted : Granted pending row (race.table k)) :
    canTakeOver pending.claim.input current = true := by
  have hplanned := h.planned call pending hpending hsession
  have hstands := h.readStands call pending hpending hsession
  rw [hcurrent] at hgranted hstands
  cases hgranted with
  | replaced hwrite hexpected hrow =>
      rw [hwrite] at hplanned
      obtain ⟨read, hread, htake, hepoch, -, -⟩ :=
        SessionClaim.plan_eq_update hplanned
      rcases hstands read hread with hsame | hlater
      · rw [Option.some.injEq] at hsame
        rw [hsame]
        exact htake
      · simp only [currentEpoch] at hlater
        omega

/-- Along every interleaving of claims: the epochs written for a session are
`1, 2, 3, …`, each by one claim; no step but a grant changes the table; and a
claim that is not forced takes a session from another node only with the epoch
it replaces. -/
theorem sessionOwnership_neverSplits {events : List SessionEvent}
    {race : SessionRace}
    (hrun : Run SessionRace.Step SessionRace.initial events race) :
    (∀ k, epochsWritten k events =
      List.range' 1 (currentEpoch (race.table k))) ∧
    ∀ event race', SessionRace.Step race event race' →
      (event.isGrant = false → race'.table = race.table) ∧
      ∀ call claim row current,
        event = .write call claim (.granted row) →
        race.table claim.sessionId = some current →
        claim.input.force = false →
        current.ownerNodeId ≠ claim.input.ownerNodeId →
          claim.input.expectedEpoch = some (.finite current.epoch) := by
  refine ⟨fun k => (sessionConsistent_of_run k hrun).epochs, ?_⟩
  intro event race' hstep
  refine ⟨table_eq_of_not_isGrant hstep, ?_⟩
  intro call claim row current hevent hcurrent hforce howner
  have hcons := sessionConsistent_of_run claim.sessionId hrun
  have htake : canTakeOver claim.input current = true := by
    cases sessionStep_of_step claim.sessionId hstep with
    | kept _ hwritten _ => simp [hevent, epochWritten] at hwritten
    | granted hgrant hpending hsession hgranted _ _ =>
        rw [hevent] at hgrant
        cases hgrant
        exact canTakeOver_of_replaced hcons hpending rfl hcurrent hgranted
  simp only [canTakeOver, hforce, Bool.false_or, Bool.or_eq_true, beq_iff_eq,
    decide_eq_true_eq] at htake
  exact htake.resolve_left howner

/-- The first claim of a session, by `node-a`. -/
def firstClaim : SessionClaim where
  sessionId := "session-1"
  input := { ownerNodeId := "node-a", expectedEpoch := none, force := false }
  now := "2026-01-01T00:00:00.000Z"

/-- The claim by which `node-b` takes the session over at epoch one. -/
def takeoverClaim : SessionClaim where
  sessionId := "session-1"
  input :=
    { ownerNodeId := "node-b", expectedEpoch := some (.finite 1), force := false }
  now := "2026-01-01T00:01:00.000Z"

/-- The row that `firstClaim` leaves. -/
def firstOwner : MeshSessionOwnerRow where
  ownerNodeId := "node-a"
  epoch := 1
  claimedAt := "2026-01-01T00:00:00.000Z"
  updatedAt := "2026-01-01T00:00:00.000Z"

/-- `firstClaim` as it waits for its write. -/
def firstPending : PendingClaim where
  claim := firstClaim
  read := none
  write := .insert firstOwner

/-- `takeoverClaim` as it waits for its write. -/
def takeoverPending : PendingClaim where
  claim := takeoverClaim
  read := some firstOwner
  write := .update 1 "node-b" 2 "2026-01-01T00:01:00.000Z"

/-- The race after the first claim, with the takeover between its read and its
write. -/
def takeoverRace : SessionRace :=
  ((SessionRace.initial.readPhase 0 firstClaim).writePhase 0 firstPending).readPhase
    1 takeoverClaim

/-- The takeover is granted at epoch two, and it had to name epoch one. -/
theorem takeoverClaim_names_epoch :
    ∃ events, Run SessionRace.Step SessionRace.initial events takeoverRace ∧
      epochsWritten "session-1" events = [1] ∧
      takeoverClaim.input.expectedEpoch = some (.finite firstOwner.epoch) := by
  have hpending : (SessionRace.initial.readPhase 0 firstClaim).inFlight 0 =
      some firstPending := rfl
  have hrun :=
    (Run.single (@SessionRace.Step.read SessionRace.initial 0 firstClaim rfl)).append
      ((Run.single (.write firstPending hpending)).append
        (Run.single (@SessionRace.Step.read _ 1 takeoverClaim rfl)))
  obtain ⟨hepochs, hsteps⟩ := sessionOwnership_neverSplits hrun
  have htakeover : takeoverRace.inFlight 1 = some takeoverPending := rfl
  refine ⟨_, hrun, hepochs "session-1", ?_⟩
  exact (hsteps _ _ (.write takeoverPending htakeover)).2 1 takeoverClaim _ firstOwner
    rfl rfl rfl (by decide)

end GoatCitadel.Mesh
