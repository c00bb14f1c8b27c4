import Mathlib.Algebra.Order.Ring.Int
import GoatCitadel.Mesh.Lease
import GoatCitadel.Support.Runs

/-!
# Lease exclusion under interleaved calls

Here the read of `acquireLease` and `renewLease` and the write that follows it
are separate steps, and any number of calls may be between the two.  A lease is
meant to exclude every other node until the expiry it was reported with.

The write compares the fencing token, and a prolongation keeps the token.  A
node that read an expired row can therefore overwrite a lease that its holder
renewed in between.  The main theorem shows that exclusion holds along every
run in which no call writes over a row that changed after its read, and in
which no holder shortens its own lease.
-/

namespace GoatCitadel.Mesh

open GoatCitadel.Support

/-- A call that has read its row and not yet written. -/
structure PendingWrite where
  request : LeaseRequest
  /-- The row the call read. -/
  read : Option MeshLeaseRow
  write : LeaseWrite
  /-- How often the row of the key had been changed at the read. -/
  readRevision : Nat

/-- The table, the calls between their read and their write, and the latest
time at which a call was evaluated.  `revision` counts the changes of each row
and is read by no operation. -/
structure LeaseRace where
  table : LeaseTable
  inFlight : Nat → Option PendingWrite
  clock : Int
  revision : String → Nat

/-- What can happen in one step. -/
inductive LeaseEvent
  | read (call : Nat) (request : LeaseRequest)
  | write (call : Nat) (request : LeaseRequest) (reply : LeaseReply)
  | release (leaseKey holderNodeId : String) (fencingToken : Nat)
      (reply : LeaseReply)

namespace LeaseRace

/-- The empty table, before any call. -/
def initial (clock : Int) : LeaseRace where
  table := fun _ => none
  inFlight := fun _ => none
  clock := clock
  revision := fun _ => 0

/-- The revisions after a call on `leaseKey` was answered. -/
def bumpRevision (revision : String → Nat) (leaseKey : String) :
    LeaseReply → String → Nat
  | .granted _ => Function.update revision leaseKey (revision leaseKey + 1)
  | .released true => Function.update revision leaseKey (revision leaseKey + 1)
  | _ => revision

/-- The first half of a call.  A call that is refused on the row it read is
over; the others stay in flight. -/
def readPhase (race : LeaseRace) (call : Nat) (request : LeaseRequest) :
    LeaseRace :=
  { race with
    clock := request.now
    inFlight := Function.update race.inFlight call
      (match request.plan (race.table request.leaseKey) with
      | .error _ => none
      | .ok write =>
          some
            { request := request
              read := race.table request.leaseKey
              write := write
              readRevision := race.revision request.leaseKey }) }

/-- The second half of a call. -/
def writePhase (race : LeaseRace) (call : Nat) (pending : PendingWrite) :
    LeaseRace :=
  { race with
    table := (pending.write.run pending.request race.table).2
    inFlight := Function.update race.inFlight call none
    revision := bumpRevision race.revision pending.request.leaseKey
      (pending.write.run pending.request race.table).1 }

/-- `releaseLease` is one statement and runs in one step. -/
def releasePhase (race : LeaseRace) (leaseKey holderNodeId : String)
    (fencingToken : Nat) : LeaseRace :=
  { race with
    table := (releaseLease leaseKey holderNodeId fencingToken race.table).2
    revision := bumpRevision race.revision leaseKey
      (releaseLease leaseKey holderNodeId fencingToken race.table).1 }

/-- Interleaved calls with a clock that does not go back. -/
inductive Step (race : LeaseRace) : LeaseEvent → LeaseRace → Prop
  | read {call : Nat} {request : LeaseRequest} :
      race.inFlight call = none → race.clock ≤ request.now →
      Step race (.read call request) (race.readPhase call request)
  | write {call : Nat} (pending : PendingWrite) :
      race.inFlight call = some pending →
      Step race
        (.write call pending.request
          (pending.write.run pending.request race.table).1)
        (race.writePhase call pending)
  | release {leaseKey holderNodeId : String} {fencingToken : Nat} :
      Step race
        (.release leaseKey holderNodeId fencingToken
          (releaseLease leaseKey holderNodeId fencingToken race.table).1)
        (race.releasePhase leaseKey holderNodeId fencingToken)

end LeaseRace

/-- In every run from `clock` on: once a call of node `A` was granted a lease
until `E`, a later grant of `acquireLease` to another node was evaluated at `E`
or after it, unless `A` released the lease in between. -/
def ExcludesUntilExpiry (clock : Int)
    (step : LeaseRace → LeaseEvent → LeaseRace → Prop) : Prop :=
  ∀ (before between : List LeaseEvent)
    (race₁ race₂ race₃ race₄ : LeaseRace) (call call' : Nat)
    (request request' : LeaseRequest) (row row' : MeshLeaseRow),
    Run step (LeaseRace.initial clock) before race₁ →
    step race₁ (.write call request (.granted row)) race₂ →
    Run step race₂ between race₃ →
    step race₃ (.write call' request' (.granted row')) race₄ →
    request'.isAcquire = true →
    request'.leaseKey = request.leaseKey →
    request'.holderNodeId ≠ request.holderNodeId →
    (∀ fencingToken,
      .release request.leaseKey request.holderNodeId fencingToken (.released true) ∉
        between) →
    row.expiresAt ≤ request'.now

/-! ## The condition on a write -/

/-- The guard of the write statement, on the row it finds. -/
def LeaseWrite.Applies (row : Option MeshLeaseRow) : LeaseWrite → Prop
  | .insert _ => row = none
  | .update expectedFencingToken _ =>
      row.map MeshLeaseRow.fencingToken = some expectedFencingToken

/-- A call whose write statement would apply finds the row as it read it, and
does not shorten a lease that its own node holds. -/
structure PendingWrite.Sound (pending : PendingWrite) (race : LeaseRace) :
    Prop where
  unchangedSinceRead :
    pending.write.Applies (race.table pending.request.leaseKey) →
      pending.readRevision = race.revision pending.request.leaseKey
  keepsOwnExpiry : ∀ current, pending.read = some current →
    current.holderNodeId = pending.request.holderNodeId →
      current.expiresAt ≤ pending.request.expiresAt

/-- The steps on which every write is sound. -/
def WritesSoundly (race : LeaseRace) : LeaseEvent → Prop
  | .write call _ _ =>
      ∀ pending, race.inFlight call = some pending → pending.Sound race
  | _ => True

variable {race race' : LeaseRace} {request : LeaseRequest}

theorem LeaseWrite.applies_of_granted {table : LeaseTable} {write : LeaseWrite} {row : MeshLeaseRow}
    (h : (write.run request table).1 = .granted row) :
    write.Applies (table request.leaseKey) ∧ row = write.row := by
  rcases write.run_cases request table with ⟨error, hrun⟩ | ⟨hrun, hguard⟩
  · rw [hrun] at h
    cases h
  · rw [hrun] at h
    cases h
    refine ⟨?_, rfl⟩
    cases write with
    | insert row => exact hguard
    | update expected row =>
        obtain ⟨current, hcurrent, htoken⟩ := hguard
        simp [LeaseWrite.Applies, hcurrent, htoken]

/-! ## What a step does to one key -/

/-- What a reader of the key `k` can know: its row, its revision, the calls in
flight and the clock.  Every step of the race is one of these on `k`. -/
inductive KeyStep (k : String) (race : LeaseRace) (event : LeaseEvent)
    (race' : LeaseRace) : Prop
  /-- The row stays; a call on `k` that starts here reads it as it is. -/
  | kept :
      race'.table k = race.table k → race'.revision k = race.revision k →
      race.clock ≤ race'.clock →
      (∀ call pending, race'.inFlight call = some pending →
        pending.request.leaseKey = k →
        race.inFlight call = some pending ∨
          (pending.request.now = race'.clock ∧ pending.read = race.table k ∧
            pending.readRevision = race.revision k ∧
            pending.request.plan pending.read = .ok pending.write)) →
      KeyStep k race event race'
  /-- A call on `k` writes its row. -/
  | written {call : Nat} {pending : PendingWrite} :
      event = .write call pending.request (.granted pending.write.row) →
      race.inFlight call = some pending → pending.request.leaseKey = k →
      pending.write.Applies (race.table k) →
      race'.table k = some pending.write.row →
      race'.revision k = race.revision k + 1 → race'.clock = race.clock →
      (∀ call pending, race'.inFlight call = some pending →
        race.inFlight call = some pending) →
      KeyStep k race event race'
  /-- The holder deletes the row of `k`. -/
  | deleted {current : MeshLeaseRow} :
      race.table k = some current →
      event = .release k current.holderNodeId current.fencingToken (.released true) →
      race'.revision k = race.revision k + 1 → race'.clock = race.clock →
      race'.inFlight = race.inFlight →
      KeyStep k race event race'

theorem inFlight_of_update_none {inFlight : Nat → Option PendingWrite}
    {call call' : Nat} {pending : PendingWrite}
    (h : Function.update inFlight call none call' = some pending) :
    inFlight call' = some pending := by
  by_cases hcall : call' = call
  · simp [hcall] at h
  · simpa [Function.update_of_ne hcall] using h

theorem keyStep_read (k : String) {call : Nat} (hclock : race.clock ≤ request.now) :
    KeyStep k race (.read call request) (race.readPhase call request) := by
  refine .kept rfl rfl hclock ?_
  intro call' pending hpending hkey
  by_cases hcall : call' = call
  · subst hcall
    cases hplan : request.plan (race.table request.leaseKey) with
    | error error => simp [LeaseRace.readPhase, hplan] at hpending
    | ok write =>
        simp only [LeaseRace.readPhase, hplan, Function.update_self,
          Option.some.injEq] at hpending
        subst hpending
        subst hkey
        exact .inr ⟨rfl, rfl, rfl, hplan⟩
  · refine .inl ?_
    simpa [LeaseRace.readPhase, Function.update_of_ne hcall] using hpending

theorem keyStep_write (k : String) {call : Nat} {pending : PendingWrite}
    (hpending : race.inFlight call = some pending) :
    KeyStep k race
      (.write call pending.request
        (pending.write.run pending.request race.table).1)
      (race.writePhase call pending) := by
  rcases pending.write.run_cases pending.request race.table with
    ⟨error, hrun⟩ | ⟨hrun, -⟩
  · refine .kept ?_ ?_ (le_refl _) ?_
    · simp [LeaseRace.writePhase, hrun]
    · simp [LeaseRace.writePhase, hrun, LeaseRace.bumpRevision]
    · intro call' pending' h _
      exact .inl (inFlight_of_update_none h)
  · have happlies : pending.write.Applies (race.table pending.request.leaseKey) :=
      (LeaseWrite.applies_of_granted (by rw [hrun])).1
    by_cases hkey : pending.request.leaseKey = k
    · subst hkey
      rw [hrun]
      refine .written rfl hpending rfl happlies ?_ ?_ rfl ?_
      · simp [LeaseRace.writePhase, hrun]
      · simp [LeaseRace.writePhase, hrun, LeaseRace.bumpRevision]
      · exact fun call' pending' h => inFlight_of_update_none h
    · refine .kept ?_ ?_ (le_refl _) ?_
      · simp [LeaseRace.writePhase, hrun, Function.update_of_ne (Ne.symm hkey)]
      · simp [LeaseRace.writePhase, hrun, LeaseRace.bumpRevision,
          Function.update_of_ne (Ne.symm hkey)]
      · intro call' pending' h _
        exact .inl (inFlight_of_update_none h)

theorem keyStep_release (k : String) {leaseKey holderNodeId : String} {fencingToken : Nat} :
    KeyStep k race
      (.release leaseKey holderNodeId fencingToken
        (releaseLease leaseKey holderNodeId fencingToken race.table).1)
      (race.releasePhase leaseKey holderNodeId fencingToken) := by
  rcases releaseLease_cases leaseKey holderNodeId fencingToken race.table with
    hkeep | ⟨hdelete, current, hcurrent, rfl, rfl⟩
  · refine .kept ?_ ?_ (le_refl _) fun _ _ h _ => .inl h
    · simp [LeaseRace.releasePhase, hkeep]
    · simp [LeaseRace.releasePhase, hkeep, LeaseRace.bumpRevision]
  · by_cases hkey : leaseKey = k
    · subst hkey
      rw [hdelete]
      refine .deleted hcurrent rfl ?_ rfl rfl
      simp [LeaseRace.releasePhase, hdelete, LeaseRace.bumpRevision]
    · refine .kept ?_ ?_ (le_refl _) fun _ _ h _ => .inl h
      · simp [LeaseRace.releasePhase, hdelete, Function.update_of_ne (Ne.symm hkey)]
      · simp [LeaseRace.releasePhase, hdelete, LeaseRace.bumpRevision,
          Function.update_of_ne (Ne.symm hkey)]

theorem keyStep_of_step (k : String) {event : LeaseEvent} (h : LeaseRace.Step race event race') :
    KeyStep k race event race' := by
  cases h with
  | read _ hclock => exact keyStep_read k hclock
  | write _ hpending => exact keyStep_write k hpending
  | release => exact keyStep_release k

/-! ## The invariant -/

/-- What a call in flight on `k` knows: it was evaluated in the past, it
decided on the row it read, and as long as the revision stands the row is still
there. -/
structure PendingWrite.Consistent (pending : PendingWrite) (k : String)
    (race : LeaseRace) : Prop where
  evaluated : pending.request.now ≤ race.clock
  planned : pending.request.plan pending.read = .ok pending.write
  readRevision_le : pending.readRevision ≤ race.revision k
  read_eq : pending.readRevision = race.revision k → pending.read = race.table k

/-- All calls in flight on `k` are consistent. -/
def RaceConsistent (k : String) (race : LeaseRace) : Prop :=
  ∀ call pending, race.inFlight call = some pending →
    pending.request.leaseKey = k → pending.Consistent k race

theorem raceConsistent_initial (k : String) (clock : Int) :
    RaceConsistent k (LeaseRace.initial clock) := by
  intro call pending hpending
  simp [LeaseRace.initial] at hpending

theorem raceConsistent_step (k : String) {event : LeaseEvent}
    (hstep : LeaseRace.Step race event race') (hcons : RaceConsistent k race) :
    RaceConsistent k race' := by
  intro call pending hpending hkey
  cases keyStep_of_step k hstep with
  | kept htable hrevision hclock hinFlight =>
      rcases hinFlight call pending hpending hkey with
        hold | ⟨hnow, hread, hrev, hplan⟩
      · have hc := hcons call pending hold hkey
        refine ⟨le_trans hc.evaluated hclock, hc.planned, ?_, ?_⟩
        · rw [hrevision]
          exact hc.readRevision_le
        · rw [hrevision, htable]
          exact hc.read_eq
      · refine ⟨le_of_eq hnow, hplan, ?_, ?_⟩
        · rw [hrevision, hrev]
        · intro _
          rw [hread, htable]
  | written _ _ _ _ _ hrevision hclock hinFlight =>
      have hc := hcons call pending (hinFlight call pending hpending) hkey
      have hle := hc.readRevision_le
      refine ⟨?_, hc.planned, by omega, fun h => by omega⟩
      rw [hclock]
      exact hc.evaluated
  | deleted _ _ hrevision hclock hinFlight =>
      rw [hinFlight] at hpending
      have hc := hcons call pending hpending hkey
      have hle := hc.readRevision_le
      refine ⟨?_, hc.planned, by omega, fun h => by omega⟩
      rw [hclock]
      exact hc.evaluated

/-- After a grant of `k` to `node` until `expiry`: either `node` still has the
row for at least that long, or the expiry has passed, also for every call in
flight whose write could still be sound. -/
inductive Excluded (k node : String) (expiry : Int) (race : LeaseRace) : Prop
  | held {row : MeshLeaseRow} :
      race.table k = some row → row.holderNodeId = node →
      expiry ≤ row.expiresAt → Excluded k node expiry race
  | passed :
      expiry ≤ race.clock →
      (∀ call pending, race.inFlight call = some pending →
        pending.request.leaseKey = k →
        pending.readRevision = race.revision k → expiry ≤ pending.request.now) →
      Excluded k node expiry race

/-- A sound write on a row that was granted until `expiry` prolongs the lease
of the same node or was evaluated after the expiry. -/
theorem Excluded.of_applied {k node : String} {expiry : Int} {call : Nat} {pending : PendingWrite}
    (hexcl : Excluded k node expiry race) (hcons : RaceConsistent k race)
    (hpending : race.inFlight call = some pending) (hkey : pending.request.leaseKey = k)
    (happlies : pending.write.Applies (race.table k)) (hsound : pending.Sound race) :
    (pending.request.holderNodeId = node ∧
        expiry ≤ pending.request.expiresAt) ∨
      expiry ≤ pending.request.now := by
  have hc := hcons call pending hpending hkey
  have hrev : pending.readRevision = race.revision k := by
    subst hkey
    exact hsound.unchangedSinceRead happlies
  have hread : pending.read = race.table k := hc.read_eq hrev
  cases hexcl with
  | held htable hnode hexpiry =>
      rename_i row
      rw [htable] at hread
      have hplanned := LeaseRequest.planned_of_plan hc.planned
      by_cases howner : row.holderNodeId = pending.request.holderNodeId
      · left
        have hkeep := hsound.keepsOwnExpiry row hread howner
        exact ⟨by rw [← howner, hnode], by omega⟩
      · right
        rw [hread] at hplanned
        generalize pending.write = write at hplanned
        cases hplanned with
        | prolong hsame => exact absurd hsame howner
        | takeover _ hexpired => omega
  | passed _ hlate => exact .inr (hlate call pending hpending hkey hrev)

theorem LeaseRequest.row_of_plan {current : Option MeshLeaseRow} {write : LeaseWrite}
    (h : request.plan current = .ok write) :
    write.row.holderNodeId = request.holderNodeId ∧
      write.row.expiresAt = request.expiresAt := by
  cases planned_of_plan h with
  | first => exact ⟨rfl, rfl⟩
  | prolong => exact ⟨rfl, rfl⟩
  | takeover => exact ⟨rfl, rfl⟩

theorem excluded_step {k node : String} {expiry : Int} {event : LeaseEvent}
    (hstep : LeaseRace.Step race event race') (hsound : WritesSoundly race event)
    (hcons : RaceConsistent k race) (hrelease : ∀ fencingToken,
      event ≠ .release k node fencingToken (.released true)) (hexcl : Excluded k node expiry race) :
    Excluded k node expiry race' := by
  have hcons' : RaceConsistent k race' := raceConsistent_step k hstep hcons
  cases keyStep_of_step k hstep with
  | kept htable hrevision hclock hinFlight =>
      cases hexcl with
      | held hrow hnode hexpiry =>
          exact .held (by rw [htable, hrow]) hnode hexpiry
      | passed hpast hlate =>
          refine .passed (le_trans hpast hclock) ?_
          intro call pending hpending hkey hrev
          rcases hinFlight call pending hpending hkey with hold | ⟨hnow, -⟩
          · exact hlate call pending hold hkey (by rw [hrev, hrevision])
          · omega
  | @written call pending hevent hpending hkey happlies htable hrevision hclock hinFlight =>
      subst hevent
      have hc := hcons call pending hpending hkey
      obtain ⟨hholder, hexpires⟩ := LeaseRequest.row_of_plan hc.planned
      rcases hexcl.of_applied hcons hpending hkey happlies
          (hsound pending hpending) with ⟨hnode, hexpiry⟩ | hexpiry
      · refine .held htable (by rw [hholder, hnode]) ?_
        rw [hexpires]
        exact hexpiry
      · have hnow := hc.evaluated
        refine .passed (by omega) ?_
        intro call' pending' hpending' hkey' hrev
        have hle := (hcons call' pending' (hinFlight _ _ hpending') hkey').readRevision_le
        omega
  | @deleted current hrow hevent hrevision hclock hinFlight =>
      cases hexcl with
      | held hrow' hnode _ =>
          rw [hrow] at hrow'
          cases hrow'
          rw [hnode] at hevent
          exact absurd hevent (hrelease _)
      | passed hpast hlate =>
          refine .passed (by omega) ?_
          intro call pending hpending hkey hrev
          rw [hinFlight] at hpending
          have hle := (hcons call pending hpending hkey).readRevision_le
          omega

/-- The step that grants a write, seen from its key. -/
theorem written_of_granted {call : Nat} {row : MeshLeaseRow}
    (h : LeaseRace.Step race (.write call request (.granted row)) race') :
    ∃ pending, race.inFlight call = some pending ∧
      pending.request = request ∧ row = pending.write.row ∧
      pending.write.Applies (race.table request.leaseKey) ∧
      race'.table request.leaseKey = some row := by
  generalize hevent : LeaseEvent.write call request (.granted row) = event at h
  cases h with
  | read => cases hevent
  | release => cases hevent
  | write pending hpending =>
      injection hevent with hcall hrequest hreply
      subst hcall hrequest
      obtain ⟨happlies, hrow⟩ := LeaseWrite.applies_of_granted hreply.symm
      refine ⟨pending, hpending, rfl, hrow, happlies, ?_⟩
      rcases pending.write.run_cases pending.request race.table with
        ⟨error, hrun⟩ | ⟨hrun, -⟩
      · rw [hrun] at hreply
        cases hreply
      · simp [LeaseRace.writePhase, hrun, hrow]

/-! ## Exclusion -/

/-- Along every run whose writes are sound, a granted lease excludes the other
nodes until its expiry. -/
theorem excludesUntilExpiry_of_writesSoundly (clock : Int) :
    ExcludesUntilExpiry clock (Restrict LeaseRace.Step WritesSoundly) := by
  intro before between race₁ race₂ race₃ race₄ call call' request request'
    row row' hbefore hgrant hbetween hgrant' _ hkey hother hrelease
  set k := request.leaseKey with hk
  have hcons₁ : RaceConsistent k race₁ :=
    hbefore.of_restrict.invariant (fun _ _ _ hs => raceConsistent_step k hs)
      (raceConsistent_initial k clock)
  have hcons₂ : RaceConsistent k race₂ := raceConsistent_step k hgrant.1 hcons₁
  -- The lease is held right after the grant ...
  obtain ⟨pending, hpending, hrequest, hrow, -, htable⟩ := written_of_granted hgrant.1
  have hholder : row.holderNodeId = request.holderNodeId := by
    have hc := hcons₁ call pending hpending (by rw [hrequest])
    rw [hrow, ← hrequest]
    exact (LeaseRequest.row_of_plan hc.planned).1
  have hexcl₂ : Excluded k request.holderNodeId row.expiresAt race₂ :=
    .held htable hholder (le_refl _)
  -- ... and stays excluded up to the second grant.
  have hexcl₃ : RaceConsistent k race₃ ∧
      Excluded k request.holderNodeId row.expiresAt race₃ := by
    refine hbetween.invariant_of_labels
      (I := fun race => RaceConsistent k race ∧
        Excluded k request.holderNodeId row.expiresAt race)
      (Q := fun event => ∀ fencingToken,
        event ≠ .release k request.holderNodeId fencingToken (.released true))
      ?_ ?_ ⟨hcons₂, hexcl₂⟩
    · intro race event race' hs hno hI
      exact ⟨raceConsistent_step k hs.1 hI.1,
        excluded_step hs.1 hs.2 hI.1 hno hI.2⟩
    · intro event hmem fencingToken hevent
      exact hrelease fencingToken (hevent ▸ hmem)
  obtain ⟨pending', hpending', hrequest', -, happlies', -⟩ :=
    written_of_granted hgrant'.1
  rw [hkey] at happlies'
  rcases hexcl₃.2.of_applied hexcl₃.1 hpending' (by rw [hrequest', hkey])
      happlies' (hgrant'.2 pending' hpending') with ⟨hsame, -⟩ | hlate
  · rw [hrequest'] at hsame
    exact absurd hsame hother
  · rwa [hrequest'] at hlate

/-- A takeover at 12 s of a lease that ended at 10 s, by sound writes. -/
theorem excludesUntilExpiry_takeover :
    ∃ race₁ race₂ race₃ race₄ : LeaseRace,
      Run (Restrict LeaseRace.Step WritesSoundly) (LeaseRace.initial 0)
        [.read 0 (.acquire "planner" "node-a" 10 0)] race₁ ∧
      Restrict LeaseRace.Step WritesSoundly race₁
        (.write 0 (.acquire "planner" "node-a" 10 0)
          (.granted ⟨"node-a", 1, 10000, 0⟩)) race₂ ∧
      Run (Restrict LeaseRace.Step WritesSoundly) race₂
        [.read 1 (.acquire "planner" "node-b" 30 12000)] race₃ ∧
      Restrict LeaseRace.Step WritesSoundly race₃
        (.write 1 (.acquire "planner" "node-b" 30 12000)
          (.granted ⟨"node-b", 2, 42000, 12000⟩)) race₄ ∧
      (10000 : Int) ≤ (LeaseRequest.acquire "planner" "node-b" 30 12000).now := by
  let race₁ := (LeaseRace.initial 0).readPhase 0 (.acquire "planner" "node-a" 10 0)
  let pendingA : PendingWrite :=
    { request := .acquire "planner" "node-a" 10 0
      read := none
      write := .insert ⟨"node-a", 1, 10000, 0⟩
      readRevision := 0 }
  let race₂ := race₁.writePhase 0 pendingA
  let race₃ := race₂.readPhase 1 (.acquire "planner" "node-b" 30 12000)
  let pendingB : PendingWrite :=
    { request := .acquire "planner" "node-b" 30 12000
      read := some ⟨"node-a", 1, 10000, 0⟩
      write := .update 1 ⟨"node-b", 2, 42000, 12000⟩
      readRevision := 1 }
  have hstart : Run (Restrict LeaseRace.Step WritesSoundly) (LeaseRace.initial 0)
      [.read 0 (.acquire "planner" "node-a" 10 0)] race₁ :=
    .single ⟨.read rfl (by decide), trivial⟩
  have hgrantA : Restrict LeaseRace.Step WritesSoundly race₁
      (.write 0 (.acquire "planner" "node-a" 10 0)
        (.granted ⟨"node-a", 1, 10000, 0⟩)) race₂ := by
    refine ⟨.write pendingA rfl, ?_⟩
    rintro pending ⟨⟩
    exact ⟨fun _ => rfl, fun current hcurrent => nomatch hcurrent⟩
  have hreadB : Run (Restrict LeaseRace.Step WritesSoundly) race₂
      [.read 1 (.acquire "planner" "node-b" 30 12000)] race₃ :=
    .single ⟨.read rfl (by decide), trivial⟩
  have hgrantB : Restrict LeaseRace.Step WritesSoundly race₃
      (.write 1 (.acquire "planner" "node-b" 30 12000)
        (.granted ⟨"node-b", 2, 42000, 12000⟩)) (race₃.writePhase 1 pendingB) := by
    refine ⟨.write pendingB rfl, ?_⟩
    rintro pending ⟨⟩
    refine ⟨fun _ => rfl, ?_⟩
    rintro current ⟨⟩ hsame
    exact absurd hsame (by decide)
  exact ⟨race₁, race₂, race₃, _, hstart, hgrantA, hreadB, hgrantB,
    excludesUntilExpiry_of_writesSoundly 0 _ _ race₁ race₂ race₃ _ 0 1 _ _ _ _
      hstart hgrantA hreadB hgrantB rfl rfl (by decide) (by simp)⟩

/-! ## A lost renewal -/

/-- The lease of `node-a` ends at 10 s.  Its renewal until 69 s is read at 9 s and
written after `node-b` read the expired row at 12 s; the write of `node-b` still
finds token 1 and takes the renewed lease. -/
theorem not_excludesUntilExpiry :
    ¬ ∀ clock : Int, ExcludesUntilExpiry clock LeaseRace.Step := by
  intro hexcl
  let acquireA : LeaseRequest := .acquire "planner" "node-a" 10 0
  let renewA : LeaseRequest := .renew "planner" "node-a" 1 60 9000
  let acquireB : LeaseRequest := .acquire "planner" "node-b" 30 12000
  let race₁ := (LeaseRace.initial 0).readPhase 0 acquireA
  let pending₁ : PendingWrite :=
    { request := acquireA
      read := none
      write := .insert ⟨"node-a", 1, 10000, 0⟩
      readRevision := 0 }
  let race₂ := race₁.writePhase 0 pending₁
  let race₃ := (race₂.readPhase 1 renewA).readPhase 2 acquireB
  let pendingA : PendingWrite :=
    { request := renewA
      read := some ⟨"node-a", 1, 10000, 0⟩
      write := .update 1 ⟨"node-a", 1, 69000, 9000⟩
      readRevision := 1 }
  let pendingB : PendingWrite :=
    { request := acquireB
      read := some ⟨"node-a", 1, 10000, 0⟩
      write := .update 1 ⟨"node-b", 2, 42000, 12000⟩
      readRevision := 1 }
  let race₄ := race₃.writePhase 1 pendingA
  have hbefore : Run LeaseRace.Step (LeaseRace.initial 0)
      [.read 0 acquireA, .write 0 acquireA (.granted ⟨"node-a", 1, 10000, 0⟩),
        .read 1 renewA, .read 2 acquireB] race₃ :=
    .cons (.read rfl (by decide)) (.cons (.write pending₁ rfl)
      (.cons (.read rfl (by decide)) (.single (.read rfl (by decide)))))
  have hrenewed : LeaseRace.Step race₃
      (.write 1 renewA (.granted ⟨"node-a", 1, 69000, 9000⟩)) race₄ :=
    .write pendingA rfl
  have htaken : LeaseRace.Step race₄
      (.write 2 acquireB (.granted ⟨"node-b", 2, 42000, 12000⟩))
      (race₄.writePhase 2 pendingB) :=
    .write pendingB rfl
  have hlate := hexcl 0 _ [] race₃ race₄ race₄ _ 1 2 renewA acquireB _ _
    hbefore hrenewed (.nil race₄) htaken rfl rfl (by decide) (by simp)
  exact absurd hlate (by decide)

end GoatCitadel.Mesh
