import Mathlib.Data.List.Basic
import Mathlib.Logic.Function.Basic

/-!
# The mesh lease table

`mesh_leases` has one row per lease key.  `acquireLease` and `renewLease` read
the row, decide on one write and then run it as an insert or as a
compare-and-swap on the fencing token; `releaseLease` is a single delete.  The
model keeps the decision (`planAcquire`, `planRenew`) apart from the write
(`LeaseWrite.run`), so that the same two functions give both the atomic calls
below and the interleaved ones of `Mesh.LeaseExclusion`.

Timestamps are milliseconds; the code compares them through `Date.parse`.
-/

namespace GoatCitadel.Mesh

/-- A row of `mesh_leases`, without its key. -/
structure MeshLeaseRow where
  holderNodeId : String
  fencingToken : Nat
  expiresAt : Int
  updatedAt : Int
  deriving DecidableEq

/-- The table `mesh_leases`, indexed by its primary key. -/
abbrev LeaseTable := String → Option MeshLeaseRow

/-- The errors thrown by the lease operations. -/
inductive LeaseError
  | held (leaseKey holderNodeId : String)
  | concurrentlyModified (leaseKey : String)
  | uniqueViolation (leaseKey : String)
  | fencingTokenMismatch (leaseKey : String)
  | expired (leaseKey : String)
  | notFound (leaseKey : String)
  deriving DecidableEq

/-- The text of an error, as the repository throws it. -/
def LeaseError.message : LeaseError → String
  | .held leaseKey holderNodeId =>
      s!"Lease {leaseKey} is currently held by {holderNodeId}"
  | .concurrentlyModified leaseKey =>
      s!"Lease {leaseKey} was concurrently modified during acquisition"
  | .uniqueViolation _ => "UNIQUE constraint failed: mesh_leases.lease_key"
  | .fencingTokenMismatch leaseKey => s!"Lease {leaseKey} fencing token mismatch"
  | .expired leaseKey => s!"Lease {leaseKey} is expired"
  | .notFound leaseKey => s!"Lease {leaseKey} not found"

/-- `addSeconds`, on milliseconds. -/
def addSeconds (timestamp seconds : Int) : Int :=
  timestamp + seconds * 1000

/-- The one write statement that an `acquireLease` or `renewLease` runs after
its read. -/
inductive LeaseWrite
  /-- `insertLeaseStmt` -/
  | insert (row : MeshLeaseRow)
  /-- `updateLeaseStmt`, which only touches a row that still carries the
  expected fencing token. -/
  | update (expectedFencingToken : Nat) (row : MeshLeaseRow)
  deriving DecidableEq

/-- The row a write would leave behind. -/
def LeaseWrite.row : LeaseWrite → MeshLeaseRow
  | .insert row => row
  | .update _ row => row

/-- What `acquireLease` decides from the row it read. -/
def planAcquire (leaseKey holderNodeId : String) (ttlSeconds now : Int) :
    Option MeshLeaseRow → Except LeaseError LeaseWrite
  | none =>
      .ok (.insert
        { holderNodeId := holderNodeId
          fencingToken := 1
          expiresAt := addSeconds now ttlSeconds
          updatedAt := now })
  | some current =>
      if current.holderNodeId ≠ holderNodeId ∧ current.expiresAt > now then
        .error (.held leaseKey current.holderNodeId)
      else
        .ok (.update current.fencingToken
          { holderNodeId := holderNodeId
            fencingToken :=
              if current.holderNodeId = holderNodeId then current.fencingToken
              else current.fencingToken + 1
            expiresAt := addSeconds now ttlSeconds
            updatedAt := now })

/-- What `renewLease` decides from the row it read. -/
def planRenew (leaseKey holderNodeId : String) (fencingToken : Nat)
    (ttlSeconds now : Int) :
    Option MeshLeaseRow → Except LeaseError LeaseWrite
  | none => .error (.notFound leaseKey)
  | some current =>
      if current.holderNodeId ≠ holderNodeId ∨ current.fencingToken ≠ fencingToken then
        .error (.fencingTokenMismatch leaseKey)
      else if current.expiresAt ≤ now then
        .error (.expired leaseKey)
      else
        .ok (.update fencingToken
          { holderNodeId := holderNodeId
            fencingToken := fencingToken
            expiresAt := addSeconds now ttlSeconds
            updatedAt := now })

/-- A call of `acquireLease` or `renewLease`, the two operations that read
before they write. -/
inductive LeaseRequest
  | acquire (leaseKey holderNodeId : String) (ttlSeconds now : Int)
  | renew (leaseKey holderNodeId : String) (fencingToken : Nat)
      (ttlSeconds now : Int)
  deriving DecidableEq

namespace LeaseRequest

/-- The lease key a request is about. -/
def leaseKey : LeaseRequest → String
  | .acquire leaseKey _ _ _ => leaseKey
  | .renew leaseKey _ _ _ _ => leaseKey

/-- The node that makes the request. -/
def holderNodeId : LeaseRequest → String
  | .acquire _ holderNodeId _ _ => holderNodeId
  | .renew _ holderNodeId _ _ _ => holderNodeId

/-- The time the request is evaluated at. -/
def now : LeaseRequest → Int
  | .acquire _ _ _ now => now
  | .renew _ _ _ _ now => now

/-- The expiry a granted request sets. -/
def expiresAt : LeaseRequest → Int
  | .acquire _ _ ttlSeconds now => addSeconds now ttlSeconds
  | .renew _ _ _ ttlSeconds now => addSeconds now ttlSeconds

/-- Whether the request is a call of `acquireLease`. -/
def isAcquire : LeaseRequest → Bool
  | .acquire _ _ _ _ => true
  | .renew _ _ _ _ _ => false

/-- The error of a compare-and-swap that changed no row. -/
def lostRace : LeaseRequest → LeaseError
  | .acquire leaseKey _ _ _ => .concurrentlyModified leaseKey
  | .renew leaseKey _ _ _ _ => .fencingTokenMismatch leaseKey

/-- The decision a request takes on the row it read. -/
def plan : LeaseRequest → Option MeshLeaseRow → Except LeaseError LeaseWrite
  | .acquire leaseKey holderNodeId ttlSeconds now =>
      planAcquire leaseKey holderNodeId ttlSeconds now
  | .renew leaseKey holderNodeId fencingToken ttlSeconds now =>
      planRenew leaseKey holderNodeId fencingToken ttlSeconds now

/-- The row a granted request writes, given its fencing token. -/
def grantedRow (request : LeaseRequest) (fencingToken : Nat) : MeshLeaseRow :=
  { holderNodeId := request.holderNodeId
    fencingToken := fencingToken
    expiresAt := request.expiresAt
    updatedAt := request.now }

/-- Everything a read phase can decide on: a first insert, a prolongation by
the node that holds the row, or a takeover of a row that had expired. -/
inductive Planned (request : LeaseRequest) :
    Option MeshLeaseRow → LeaseWrite → Prop
  | first : request.isAcquire = true →
      Planned request none (.insert (request.grantedRow 1))
  | prolong {current : MeshLeaseRow} :
      current.holderNodeId = request.holderNodeId →
      Planned request (some current)
        (.update current.fencingToken (request.grantedRow current.fencingToken))
  | takeover {current : MeshLeaseRow} :
      current.holderNodeId ≠ request.holderNodeId →
      current.expiresAt ≤ request.now →
      Planned request (some current)
        (.update current.fencingToken
          (request.grantedRow (current.fencingToken + 1)))

theorem planned_of_plan {request : LeaseRequest}
    {current : Option MeshLeaseRow} {write : LeaseWrite}
    (h : request.plan current = .ok write) : Planned request current write := by
  cases request with
  | acquire leaseKey node ttlSeconds now =>
      cases current with
      | none =>
          simp only [plan, planAcquire, Except.ok.injEq] at h
          subst h
          exact .first rfl
      | some row =>
          simp only [plan, planAcquire] at h
          split at h
          · cases h
          · rename_i hfree
            simp only [Except.ok.injEq] at h
            subst h
            by_cases hnode : row.holderNodeId = node
            · rw [if_pos hnode]
              exact .prolong hnode
            · rw [if_neg hnode]
              refine .takeover hnode ?_
              change row.expiresAt ≤ now
              by_contra hlive
              exact hfree ⟨hnode, by omega⟩
  | renew leaseKey node fencingToken ttlSeconds now =>
      cases current with
      | none => simp [plan, planRenew] at h
      | some row =>
          simp only [plan, planRenew] at h
          split at h
          · cases h
          · rename_i hown
            split at h
            · cases h
            · push Not at hown
              simp only [Except.ok.injEq] at h
              subst h
              obtain ⟨hnode, rfl⟩ := hown
              exact .prolong hnode

end LeaseRequest

/-- What a call answers. -/
inductive LeaseReply
  | granted (row : MeshLeaseRow)
  | released (changed : Bool)
  | refused (error : LeaseError)
  deriving DecidableEq

/-- Run the write that `request` decided on.  A granted request answers with
the row that `getLease` reads back. -/
def LeaseWrite.run (request : LeaseRequest) (table : LeaseTable) :
    LeaseWrite → LeaseReply × LeaseTable
  | .insert row =>
      match table request.leaseKey with
      | some _ => (.refused (.uniqueViolation request.leaseKey), table)
      | none => (.granted row, Function.update table request.leaseKey (some row))
  | .update expectedFencingToken row =>
      match table request.leaseKey with
      | some current =>
          if current.fencingToken = expectedFencingToken then
            (.granted row, Function.update table request.leaseKey (some row))
          else (.refused request.lostRace, table)
      | none => (.refused request.lostRace, table)

/-- A write either is refused and changes nothing, or it puts its row in the
place of a row that carries the expected token (of no row, for an insert). -/
theorem LeaseWrite.run_cases (request : LeaseRequest) (table : LeaseTable)
    (write : LeaseWrite) :
    (∃ error, write.run request table = (.refused error, table)) ∨
      (write.run request table =
          (.granted write.row,
            Function.update table request.leaseKey (some write.row)) ∧
        match write with
        | .insert _ => table request.leaseKey = none
        | .update expected _ =>
            ∃ current, table request.leaseKey = some current ∧
              current.fencingToken = expected) := by
  cases write with
  | insert row =>
      cases hrow : table request.leaseKey with
      | none => exact .inr ⟨by simp [run, LeaseWrite.row, hrow], rfl⟩
      | some current => exact .inl ⟨_, by simp [run, hrow]; rfl⟩
  | update expected row =>
      cases hrow : table request.leaseKey with
      | none => exact .inl ⟨_, by simp [run, hrow]; rfl⟩
      | some current =>
          by_cases htoken : current.fencingToken = expected
          · exact .inr ⟨by simp [run, LeaseWrite.row, hrow, htoken],
              current, rfl, htoken⟩
          · exact .inl ⟨_, by simp [run, hrow, htoken]; rfl⟩

/-- `releaseLease`: one conditional delete. -/
def releaseLease (leaseKey holderNodeId : String) (fencingToken : Nat)
    (table : LeaseTable) : LeaseReply × LeaseTable :=
  match table leaseKey with
  | some current =>
      if current.holderNodeId = holderNodeId ∧ current.fencingToken = fencingToken then
        (.released true, Function.update table leaseKey none)
      else (.released false, table)
  | none => (.released false, table)

theorem releaseLease_cases (leaseKey holderNodeId : String) (fencingToken : Nat)
    (table : LeaseTable) :
    releaseLease leaseKey holderNodeId fencingToken table =
        (.released false, table) ∨
      (releaseLease leaseKey holderNodeId fencingToken table =
          (.released true, Function.update table leaseKey none) ∧
        ∃ current, table leaseKey = some current ∧
          current.holderNodeId = holderNodeId ∧
          current.fencingToken = fencingToken) := by
  cases hrow : table leaseKey with
  | none => exact .inl (by simp [releaseLease, hrow])
  | some current =>
      by_cases hown :
          current.holderNodeId = holderNodeId ∧ current.fencingToken = fencingToken
      · exact .inr ⟨by simp [releaseLease, hrow, hown], current, rfl, hown⟩
      · exact .inl (by simp [releaseLease, hrow, hown])

end GoatCitadel.Mesh
