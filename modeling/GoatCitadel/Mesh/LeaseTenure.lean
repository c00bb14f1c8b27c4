import Mathlib.Data.List.Induction
import GoatCitadel.Mesh.Lease
import GoatCitadel.Support.Runs

/-!
# Fencing tokens along runs of atomic lease calls

Every call is run without interruption and the grants of each key are kept in
the order in which they were returned.  A fencing token is meant to order the
tenures of a key: it never goes down, and a new holder gets a token above all
earlier ones.  `releaseLease` deletes the row together with its token, so the
next `acquireLease` starts again at token one; the main theorem says that this
is the only way in which the order is lost.
-/

namespace GoatCitadel.Mesh

open GoatCitadel.Support

/-- One call of the repository. -/
inductive LeaseCall
  | request (request : LeaseRequest)
  | release (leaseKey holderNodeId : String) (fencingToken : Nat)
  deriving DecidableEq

/-- Run a call from its read to its answer. -/
def LeaseCall.exec (table : LeaseTable) : LeaseCall → LeaseReply × LeaseTable
  | .request req =>
      match req.plan (table req.leaseKey) with
      | .error error => (.refused error, table)
      | .ok write => write.run req table
  | .release leaseKey holderNodeId fencingToken =>
      releaseLease leaseKey holderNodeId fencingToken table

/-- The part of a granted lease that fences its holder. -/
structure Grant where
  holderNodeId : String
  fencingToken : Nat
  deriving DecidableEq

/-- The lease table together with the grants returned so far for each key,
oldest first. -/
structure LeaseLedger where
  table : LeaseTable
  granted : String → List Grant

namespace LeaseLedger

/-- The empty table, before any call. -/
def initial : LeaseLedger where
  table := fun _ => none
  granted := fun _ => []

/-- Append the answer of a call to the grants of its key. -/
def recordReply (granted : String → List Grant) (leaseKey : String) :
    LeaseReply → String → List Grant
  | .granted row =>
      Function.update granted leaseKey
        (granted leaseKey ++ [⟨row.holderNodeId, row.fencingToken⟩])
  | _ => granted

/-- The ledger after a call. -/
def exec (ledger : LeaseLedger) (call : LeaseCall) : LeaseLedger where
  table := (call.exec ledger.table).2
  granted :=
    match call with
    | .request request =>
        recordReply ledger.granted request.leaseKey (call.exec ledger.table).1
    | .release _ _ _ => ledger.granted

/-- Runs of atomic calls. -/
def Step (ledger : LeaseLedger) (call : LeaseCall) (ledger' : LeaseLedger) : Prop :=
  ledger' = ledger.exec call

end LeaseLedger

/-- How one call changes the row and the grants of the key `k`. -/
inductive TenureStep (k : String) (call : LeaseCall)
    (row : Option MeshLeaseRow) (grants : List Grant) :
    Option MeshLeaseRow → List Grant → Prop
  | unchanged : TenureStep k call row grants row grants
  | removed : TenureStep k call row grants none grants
  | first {request : LeaseRequest} :
      call = .request request → request.isAcquire = true →
      request.leaseKey = k → row = none →
      TenureStep k call row grants (some (request.grantedRow 1))
        (grants ++ [⟨request.holderNodeId, 1⟩])
  | prolong {request : LeaseRequest} {current : MeshLeaseRow} :
      row = some current → current.holderNodeId = request.holderNodeId →
      TenureStep k call row grants (some (request.grantedRow current.fencingToken))
        (grants ++ [⟨request.holderNodeId, current.fencingToken⟩])
  | takeover {request : LeaseRequest} {current : MeshLeaseRow} :
      row = some current → current.holderNodeId ≠ request.holderNodeId →
      TenureStep k call row grants
        (some (request.grantedRow (current.fencingToken + 1)))
        (grants ++ [⟨request.holderNodeId, current.fencingToken + 1⟩])

variable {grants : List Grant} {ledger : LeaseLedger}

theorem tenureStep_request (k : String) (ledger : LeaseLedger)
    (request : LeaseRequest) :
    TenureStep k (.request request) (ledger.table k) (ledger.granted k)
      ((ledger.exec (.request request)).table k)
      ((ledger.exec (.request request)).granted k) := by
  cases hplan : request.plan (ledger.table request.leaseKey) with
  | error error =>
      simp only [LeaseLedger.exec, LeaseCall.exec, hplan, LeaseLedger.recordReply]
      exact .unchanged
  | ok write =>
      have hexec : (LeaseCall.request request).exec ledger.table =
          write.run request ledger.table := by
        simp [LeaseCall.exec, hplan]
      rcases write.run_cases request ledger.table with ⟨error, hrun⟩ | ⟨hrun, -⟩
      · simp only [LeaseLedger.exec, hexec, hrun, LeaseLedger.recordReply]
        exact .unchanged
      · simp only [LeaseLedger.exec, hexec, hrun, LeaseLedger.recordReply]
        by_cases hkey : k = request.leaseKey
        · subst hkey
          simp only [Function.update_self]
          have hplanned := LeaseRequest.planned_of_plan hplan
          generalize hrow : ledger.table request.leaseKey = row at hplanned
          cases hplanned with
          | first hacquire => exact .first rfl hacquire rfl rfl
          | prolong hnode => exact .prolong rfl hnode
          | takeover hnode _ => exact .takeover rfl hnode
        · simp only [Function.update_of_ne hkey]
          exact .unchanged

theorem tenureStep_release (k leaseKey holderNodeId : String)
    (fencingToken : Nat) (ledger : LeaseLedger) :
    TenureStep k (.release leaseKey holderNodeId fencingToken)
      (ledger.table k) (ledger.granted k)
      ((ledger.exec (.release leaseKey holderNodeId fencingToken)).table k)
      ((ledger.exec (.release leaseKey holderNodeId fencingToken)).granted k) := by
  rcases releaseLease_cases leaseKey holderNodeId fencingToken ledger.table with
    hkeep | ⟨hdelete, -⟩
  · simp only [LeaseLedger.exec, LeaseCall.exec, hkeep]
    exact .unchanged
  · simp only [LeaseLedger.exec, LeaseCall.exec, hdelete]
    by_cases hkey : k = leaseKey
    · subst hkey
      simp only [Function.update_self]
      exact .removed
    · simp only [Function.update_of_ne hkey]
      exact .unchanged

/-- Every atomic call acts on each key by one of the cases of `TenureStep`. -/
theorem tenureStep_of_step (k : String) {ledger' : LeaseLedger} {call : LeaseCall}
    (h : LeaseLedger.Step ledger call ledger') :
    TenureStep k call (ledger.table k) (ledger.granted k)
      (ledger'.table k) (ledger'.granted k) := by
  rw [LeaseLedger.Step] at h
  subst h
  cases call with
  | request request => exact tenureStep_request k ledger request
  | release leaseKey holderNodeId fencingToken =>
      exact tenureStep_release k leaseKey holderNodeId fencingToken ledger

/-! ## The order of tenures -/

/-- The grants of one key, in the order in which they were returned, have
fencing tokens that order the tenures of that key. -/
structure OrdersTenures (grants : List Grant) : Prop where
  /-- Tokens never decrease. -/
  nondecreasing :
    grants.Pairwise fun g g' => g.fencingToken ≤ g'.fencingToken
  /-- A grant to another node than the previous holder carries a token above
  every token granted before. -/
  takeover_above :
    ∀ earlier g g' later, grants = earlier ++ g :: g' :: later →
      g.holderNodeId ≠ g'.holderNodeId →
      ∀ x ∈ earlier ++ [g], x.fencingToken < g'.fencingToken
  /-- Two grants to different nodes never share a token. -/
  distinct_holders :
    grants.Pairwise fun g g' =>
      g.holderNodeId ≠ g'.holderNodeId → g.fencingToken ≠ g'.fencingToken

theorem OrdersTenures.nil : OrdersTenures [] where
  nondecreasing := List.Pairwise.nil
  takeover_above := by
    intro earlier g g' later h
    simp at h
  distinct_holders := List.Pairwise.nil

/-- The order of tenures is closed under dropping the latest grants. -/
theorem OrdersTenures.of_append {later : List Grant} (h : OrdersTenures (grants ++ later)) :
    OrdersTenures grants where
  nondecreasing := (List.pairwise_append.mp h.nondecreasing).1
  takeover_above := by
    intro earlier g g' rest hgrants
    exact h.takeover_above earlier g g' (rest ++ later) (by simp [hgrants])
  distinct_holders := (List.pairwise_append.mp h.distinct_holders).1

/-- Along ordered tenures the last token bounds all tokens. -/
theorem OrdersTenures.le_last {last : Grant} (h : OrdersTenures (grants ++ [last])) :
    ∀ g ∈ grants ++ [last], g.fencingToken ≤ last.fencingToken := by
  intro g hg
  rcases List.mem_append.mp hg with hold | hnew
  · exact (List.pairwise_append.mp h.nondecreasing).2.2 g hold last
      (List.mem_singleton_self last)
  · exact Nat.le_of_eq (congrArg Grant.fencingToken (List.mem_singleton.mp hnew))

/-- A further grant keeps the order when its token is not below the earlier
ones, is above them if the holder changes, and is not shared with another
node. -/
theorem OrdersTenures.append_grant {g : Grant} (h : OrdersTenures grants)
    (hle : ∀ x ∈ grants, x.fencingToken ≤ g.fencingToken)
    (hchange : ∀ earlier last, grants = earlier ++ [last] →
      last.holderNodeId ≠ g.holderNodeId →
      ∀ x ∈ grants, x.fencingToken < g.fencingToken)
    (hdistinct : ∀ x ∈ grants, x.holderNodeId ≠ g.holderNodeId →
      x.fencingToken ≠ g.fencingToken) :
    OrdersTenures (grants ++ [g]) where
  nondecreasing := by
    refine List.pairwise_append.mpr ⟨h.nondecreasing, List.pairwise_singleton _ _, ?_⟩
    intro x hx y hy
    rw [List.mem_singleton.mp hy]
    exact hle x hx
  takeover_above := by
    intro earlier last next later hgrants hnode x hx
    rcases List.eq_nil_or_concat later with rfl | ⟨later, final, rfl⟩
    · have hsplit : grants ++ [g] = (earlier ++ [last]) ++ [next] := by
        simpa using hgrants
      obtain ⟨hpre, hlast⟩ := List.append_inj' hsplit rfl
      have hnext : next = g := (List.singleton_inj.mp hlast).symm
      subst hnext
      exact hchange earlier last hpre hnode x (hpre ▸ hx)
    · have hsplit : grants ++ [g] =
          (earlier ++ last :: next :: later) ++ [final] := by
        simpa using hgrants
      obtain ⟨hpre, -⟩ := List.append_inj' hsplit rfl
      exact h.takeover_above earlier last next later hpre hnode x hx
  distinct_holders := by
    refine List.pairwise_append.mpr
      ⟨h.distinct_holders, List.pairwise_singleton _ _, ?_⟩
    intro x hx y hy
    rw [List.mem_singleton.mp hy]
    exact hdistinct x hx

/-! ## What holds in every run -/

/-- The stored row is the latest grant of its key, and tokens start at one. -/
structure LedgerConsistent (row : Option MeshLeaseRow) (grants : List Grant) : Prop where
  row_is_last : ∀ current, row = some current →
    ∃ earlier, grants = earlier ++ [⟨current.holderNodeId, current.fencingToken⟩]
  token_pos : ∀ g ∈ grants, 1 ≤ g.fencingToken

theorem LedgerConsistent.append_grant {row : Option MeshLeaseRow} (h : LedgerConsistent row grants)
    (granted : MeshLeaseRow) (hpos : 1 ≤ granted.fencingToken) :
    LedgerConsistent (some granted)
      (grants ++ [⟨granted.holderNodeId, granted.fencingToken⟩]) where
  row_is_last := by
    intro current hcurrent
    cases hcurrent
    exact ⟨grants, rfl⟩
  token_pos := by
    intro g hg
    rcases List.mem_append.mp hg with hold | hnew
    · exact h.token_pos g hold
    · rw [List.mem_singleton.mp hnew]
      exact hpos

theorem LedgerConsistent.current_pos {current : MeshLeaseRow}
    (h : LedgerConsistent (some current) grants) : 1 ≤ current.fencingToken := by
  obtain ⟨earlier, hlast⟩ := h.row_is_last current rfl
  exact h.token_pos ⟨current.holderNodeId, current.fencingToken⟩ (by simp [hlast])

theorem LedgerConsistent.step {k : String} {call : LeaseCall} {row row' : Option MeshLeaseRow}
    {grants' : List Grant} (hstep : TenureStep k call row grants row' grants')
    (h : LedgerConsistent row grants) : LedgerConsistent row' grants' := by
  cases hstep with
  | unchanged => exact h
  | removed => exact ⟨by simp, h.token_pos⟩
  | first => exact h.append_grant (LeaseRequest.grantedRow _ 1) (Nat.le_refl 1)
  | prolong hrow _ =>
      subst hrow
      exact h.append_grant (LeaseRequest.grantedRow _ _) h.current_pos
  | takeover hrow _ =>
      subst hrow
      exact h.append_grant (LeaseRequest.grantedRow _ _) (Nat.le_add_left 1 _)

theorem LedgerConsistent.of_run (k : String) {calls : List LeaseCall}
    (h : Run LeaseLedger.Step LeaseLedger.initial calls ledger) :
    LedgerConsistent (ledger.table k) (ledger.granted k) := by
  refine h.invariant
    (I := fun ledger => LedgerConsistent (ledger.table k) (ledger.granted k)) ?_ ?_
  · intro ledger call ledger' hstep hcons
    exact hcons.step (tenureStep_of_step k hstep)
  · exact ⟨by simp [LeaseLedger.initial], by simp [LeaseLedger.initial]⟩

/-! ## When the order survives a release -/

/-- An `acquireLease` that finds no row for the key is made by the node that
got every earlier grant of the key, all of them under token one.  The very
first acquire of a key is of this kind; an acquire after a release is when the
same node had the key to itself from the start. -/
def ReopensOwnFirstTenure (k : String) (ledger : LeaseLedger) : LeaseCall → Prop
  | .request request =>
      request.isAcquire = true → request.leaseKey = k → ledger.table k = none →
        ∀ g ∈ ledger.granted k, g = ⟨request.holderNodeId, 1⟩
  | .release _ _ _ => True

theorem ordersTenures_step {k : String} {ledger' : LeaseLedger} {call : LeaseCall}
    (hstep : LeaseLedger.Step ledger call ledger')
    (hcons : LedgerConsistent (ledger.table k) (ledger.granted k))
    (hreopen : ReopensOwnFirstTenure k ledger call) (h : OrdersTenures (ledger.granted k)) :
    OrdersTenures (ledger'.granted k) := by
  have htenure := tenureStep_of_step k hstep
  generalize ledger'.table k = row' at htenure
  generalize ledger'.granted k = grants' at htenure
  cases htenure with
  | unchanged => exact h
  | removed => exact h
  | @first request hcall hacquire hkey hrow =>
      subst hcall
      have hown : ∀ x ∈ ledger.granted k, x = ⟨request.holderNodeId, 1⟩ :=
        hreopen hacquire hkey hrow
      refine h.append_grant ?_ ?_ ?_
      · intro x hx
        exact Nat.le_of_eq (congrArg Grant.fencingToken (hown x hx))
      · intro earlier last hlast hnode
        have hmem : last ∈ ledger.granted k := by simp [hlast]
        exact absurd (by rw [hown last hmem]) hnode
      · intro x hx hnode
        exact absurd (by rw [hown x hx]) hnode
  | @prolong request current hrow hnode =>
      obtain ⟨earlier, hlast⟩ := hcons.row_is_last current hrow
      rw [hlast] at h ⊢
      refine h.append_grant h.le_last ?_ ?_
      · intro earlier' last hlast' hchange
        obtain ⟨-, heq⟩ := List.append_inj' hlast' rfl
        rw [← List.singleton_inj.mp heq] at hchange
        exact absurd hnode hchange
      · intro x hx hother
        rcases List.mem_append.mp hx with hold | hnew
        · have hother' : x.holderNodeId ≠ current.holderNodeId := by
            rw [hnode]
            exact hother
          exact (List.pairwise_append.mp h.distinct_holders).2.2 x hold
            ⟨current.holderNodeId, current.fencingToken⟩
            (List.mem_singleton_self _) hother'
        · rw [List.mem_singleton.mp hnew] at hother
          exact absurd hnode hother
  | @takeover request current hrow _ =>
      obtain ⟨earlier, hlast⟩ := hcons.row_is_last current hrow
      have hbound : ∀ x ∈ ledger.granted k,
          x.fencingToken < current.fencingToken + 1 := by
        rw [hlast] at h ⊢
        intro x hx
        exact Nat.lt_succ_of_le (h.le_last x hx)
      refine h.append_grant ?_ ?_ ?_
      · intro x hx
        exact Nat.le_of_lt (hbound x hx)
      · intro _ _ _ _
        exact hbound
      · intro x hx _
        exact Nat.ne_of_lt (hbound x hx)

/-- An `acquireLease` that finds no row always inserts one under token one. -/
theorem granted_of_acquire_missing {k : String} {request : LeaseRequest}
    (hacquire : request.isAcquire = true) (hkey : request.leaseKey = k)
    (hrow : ledger.table k = none) :
    (ledger.exec (.request request)).granted k =
      ledger.granted k ++ [⟨request.holderNodeId, 1⟩] := by
  subst hkey
  cases request with
  | acquire leaseKey node ttlSeconds now =>
      change ledger.table leaseKey = none at hrow
      simp [LeaseLedger.exec, LeaseCall.exec, LeaseRequest.plan, planAcquire,
        LeaseRequest.leaseKey, LeaseRequest.holderNodeId, LeaseWrite.run,
        LeaseLedger.recordReply, hrow]
  | renew => simp [LeaseRequest.isAcquire] at hacquire

theorem reopens_of_ordersTenures {k : String} {ledger' : LeaseLedger} {call : LeaseCall}
    (hstep : LeaseLedger.Step ledger call ledger')
    (hcons : LedgerConsistent (ledger.table k) (ledger.granted k))
    (h : OrdersTenures (ledger'.granted k)) : ReopensOwnFirstTenure k ledger call := by
  cases call with
  | release => trivial
  | request request =>
      intro hacquire hkey hrow g hg
      rw [hstep, granted_of_acquire_missing hacquire hkey hrow] at h
      have hle : g.fencingToken ≤ 1 := h.le_last g (List.mem_append_left _ hg)
      have hpos : 1 ≤ g.fencingToken := hcons.token_pos g hg
      have hone : g.fencingToken = 1 := Nat.le_antisymm hle hpos
      have hnode : g.holderNodeId = request.holderNodeId := by
        by_contra hother
        exact (List.pairwise_append.mp h.distinct_holders).2.2 g hg
          ⟨request.holderNodeId, 1⟩ (List.mem_singleton_self _) hother hone
      cases g
      simp_all

/-- Along every run of atomic calls, the fencing tokens of a key order its
tenures exactly when every acquire that found the key without a row was made by
the node that had received all earlier grants of the key under token one. -/
theorem fencingTokens_orderTenures_iff (k : String) (calls : List LeaseCall)
    {ledger : LeaseLedger}
    (h : Run LeaseLedger.Step LeaseLedger.initial calls ledger) :
    OrdersTenures (ledger.granted k) ↔
      Run (Restrict LeaseLedger.Step (ReopensOwnFirstTenure k))
        LeaseLedger.initial calls ledger := by
  induction calls using List.reverseRecOn generalizing ledger with
  | nil =>
      rw [h.eq_of_nil]
      exact ⟨fun _ => .nil _, fun _ => .nil⟩
  | append_singleton calls call ih =>
      obtain ⟨before, hbefore, hlast⟩ := h.split
      have hstep : LeaseLedger.Step before call ledger := hlast.single_inv
      have hcons := LedgerConsistent.of_run k hbefore
      constructor
      · intro horder
        have hreopen := reopens_of_ordersTenures hstep hcons horder
        have hprev : OrdersTenures (before.granted k) := by
          have htenure := tenureStep_of_step k hstep
          generalize ledger.table k = row' at htenure
          generalize ledger.granted k = grants' at htenure horder
          cases htenure with
          | unchanged => exact horder
          | removed => exact horder
          | first => exact horder.of_append
          | prolong => exact horder.of_append
          | takeover => exact horder.of_append
        exact ((ih hbefore).mp hprev).append (.single ⟨hstep, hreopen⟩)
      · intro hrun
        obtain ⟨before', hbefore', hlast'⟩ := hrun.split
        obtain ⟨hstep', hreopen⟩ := hlast'.single_inv
        have hprev : OrdersTenures (before'.granted k) :=
          (ih hbefore'.of_restrict).mpr hbefore'
        exact ordersTenures_step hstep'
          (LedgerConsistent.of_run k hbefore'.of_restrict) hreopen hprev

/-- A lease that is acquired, renewed and taken over after its expiry has
ordered tokens. -/
theorem fencingTokens_orderTenures_iff_takeover :
    OrdersTenures
      ((((LeaseLedger.initial.exec (.request (.acquire "planner" "node-a" 30 0))).exec
        (.request (.renew "planner" "node-a" 1 30 20000))).exec
        (.request (.acquire "planner" "node-b" 30 60000))).granted "planner") :=
  (fencingTokens_orderTenures_iff "planner"
    [.request (.acquire "planner" "node-a" 30 0),
      .request (.renew "planner" "node-a" 1 30 20000),
      .request (.acquire "planner" "node-b" 30 60000)]
    (.cons rfl (.cons rfl (.single rfl)))).mpr
    (.cons ⟨rfl, fun _ _ _ _ hg => absurd hg (by simp [LeaseLedger.initial])⟩
      (.cons ⟨rfl, fun h => absurd h (by decide)⟩
        (.single ⟨rfl, fun _ _ h => absurd h (by decide)⟩)))

/-- A lease that is acquired, released and acquired by another node starts its
second tenure with the token of the first. -/
theorem fencingTokens_repeat_after_release :
    ¬ ∀ (k : String) (calls : List LeaseCall) (ledger : LeaseLedger),
      Run LeaseLedger.Step LeaseLedger.initial calls ledger →
        OrdersTenures (ledger.granted k) := by
  intro hall
  have horder := hall "planner"
    [.request (.acquire "planner" "node-a" 30 0),
      .release "planner" "node-a" 1,
      .request (.acquire "planner" "node-b" 30 1000)] _
    (.cons rfl (.cons rfl (.single rfl)))
  have hgrants : (((LeaseLedger.initial.exec
      (.request (.acquire "planner" "node-a" 30 0))).exec
      (.release "planner" "node-a" 1)).exec
      (.request (.acquire "planner" "node-b" 30 1000))).granted "planner" =
        [⟨"node-a", 1⟩, ⟨"node-b", 1⟩] := by
    decide
  rw [hgrants] at horder
  exact absurd horder.distinct_holders (by decide)

end GoatCitadel.Mesh
