import Mathlib.Logic.Function.Basic
import GoatCitadel.Support.Runs
import GoatCitadel.Support.Text

/-!
# Join tokens

A node joins the mesh with a token whose hash is stored in `mesh_join_tokens`.
A join marks the row as used, and issuing a token again refreshes its row only
while it is unused; a token is meant to admit one node.

`replaceOptionsReversibly` issues the token of the new options and keeps the
rows it found, and a rollback, or the recovery of the same snapshot after a
crash, writes them back exactly.  When a node joined in between, the row that
is written back has no mark, or no row is left at all, and the token can be
used again.  The main theorem shows that tokens are single use along every run
in which no snapshot is restored that has forgotten the use of its token.
-/

namespace GoatCitadel.Mesh

open GoatCitadel.Support

/-- `MeshTransport` -/
inductive MeshTransport
  | lan
  | wan
  | tailnet
  deriving DecidableEq

/-- `MeshNodeStatus` -/
inductive MeshNodeStatus
  | online
  | suspect
  | offline
  deriving DecidableEq

/-- A row of `mesh_nodes`, without its key. -/
structure MeshNode where
  label : Option String
  advertiseAddress : Option String
  transport : MeshTransport
  status : MeshNodeStatus
  capabilities : List String
  tlsFingerprint : Option String
  joinedAt : String
  lastSeenAt : String
  deriving DecidableEq

/-- A row of `mesh_join_tokens`, without its key. -/
structure MeshJoinToken where
  createdAt : String
  expiresAt : String
  usedAt : Option String
  usedByNodeId : Option String
  deriving DecidableEq

/-- The two tables, indexed by their primary keys. -/
structure MeshStore where
  nodes : String → Option MeshNode
  joinTokens : String → Option MeshJoinToken

/-- The rows that a replacement of the runtime options may change, as they were
before it. -/
structure MeshRuntimeArtifactSnapshot where
  nodeId : String
  node : Option MeshNode
  tokenHash : Option String
  joinToken : Option MeshJoinToken
  deriving DecidableEq

structure MeshRuntimeOptions where
  enabled : Bool
  mode : MeshTransport
  localNodeId : String
  localNodeLabel : Option String
  advertiseAddress : Option String
  requireMtls : Bool
  tailnetEnabled : Bool
  joinToken : Option String
  defaultLeaseTtlSeconds : Number

structure MeshJoinRequest where
  token : String
  nodeId : String
  label : Option String
  advertiseAddress : Option String
  transport : Option MeshTransport
  capabilities : Option (List String)
  tlsFingerprint : Option String
  deriving DecidableEq

/-- The errors thrown by a join or by a replacement of the options. -/
inductive MeshError
  | disabled
  | tlsFingerprintRequired
  | joinTokenRejected
  | localNodeIdRequired
  | leaseTtlInvalid
  deriving DecidableEq

/-- The text of an error, as the service throws it. -/
def MeshError.message : MeshError → String
  | .disabled => "Mesh is disabled"
  | .tlsFingerprintRequired => "Mesh join requires tlsFingerprint"
  | .joinTokenRejected => "Join token is invalid, expired, or already used"
  | .localNodeIdRequired => "Mesh localNodeId is required"
  | .leaseTtlInvalid => "Mesh defaultLeaseTtlSeconds must be a positive integer"

/-- The trimmed token of some options, when there is one. -/
def trimmedToken (joinToken : Option String) : Option String :=
  match joinToken with
  | none => none
  | some token => if trim token = "" then none else some (trim token)

/-! ## The repository -/

namespace MeshStore

/-- `upsertNodeStmt`, which keeps the `joined_at` of a row that is there. -/
def upsertNode (store : MeshStore) (nodeId : String) (node : MeshNode) :
    MeshNode × MeshStore :=
  let row :=
    match store.nodes nodeId with
    | none => node
    | some current => { node with joinedAt := current.joinedAt }
  (row, { store with nodes := Function.update store.nodes nodeId (some row) })

section

variable (hashJoinToken : String → String)

/-- `issueJoinToken`, which refreshes a row only while it is unused. -/
def issueJoinToken (store : MeshStore) (rawToken expiresAt now : String) : MeshStore :=
  let issued : MeshJoinToken :=
    { createdAt := now, expiresAt := expiresAt, usedAt := none, usedByNodeId := none }
  let row :=
    match store.joinTokens (hashJoinToken rawToken) with
    | none => issued
    | some current =>
        match current.usedAt with
        | none => { current with createdAt := now, expiresAt := expiresAt }
        | some _ => current
  { store with
    joinTokens := Function.update store.joinTokens (hashJoinToken rawToken) (some row) }

/-- `consumeJoinToken`, with the store it leaves when it changed a row. -/
def consumeJoinToken (store : MeshStore) (rawToken usedByNodeId now : String) :
    Option MeshStore :=
  match store.joinTokens (hashJoinToken rawToken) with
  | none => none
  | some row =>
      if row.usedAt.isNone ∧ now < row.expiresAt then
        some
          { store with
            joinTokens := Function.update store.joinTokens (hashJoinToken rawToken)
              (some { row with usedAt := some now, usedByNodeId := some usedByNodeId }) }
      else none

/-- `join` of the repository. -/
def join (store : MeshStore) (input : MeshJoinRequest) (now : String) :
    Except MeshError MeshNode × MeshStore :=
  match store.consumeJoinToken hashJoinToken input.token input.nodeId now with
  | none => (.error .joinTokenRejected, store)
  | some consumed =>
      let (node, store') := consumed.upsertNode input.nodeId
        { label := input.label
          advertiseAddress := input.advertiseAddress
          transport := input.transport.getD .lan
          status := .online
          capabilities := input.capabilities.getD []
          tlsFingerprint := input.tlsFingerprint
          joinedAt := now
          lastSeenAt := now }
      (.ok node, store')

/-- `snapshotRuntimeArtifacts` -/
def snapshotRuntimeArtifacts (store : MeshStore) (nodeId : String)
    (rawToken : Option String) : MeshRuntimeArtifactSnapshot :=
  let tokenHash := (trimmedToken rawToken).map hashJoinToken
  { nodeId := nodeId
    node := store.nodes nodeId
    tokenHash := tokenHash
    joinToken := tokenHash.bind store.joinTokens }

/-- `persistOptionsRows`, at the time `now` and with the expiry `tomorrow`. -/
def persistOptionsRows (store : MeshStore) (options : MeshRuntimeOptions)
    (now tomorrow : String) : MeshStore :=
  let (_, store') := store.upsertNode options.localNodeId
    { label := options.localNodeLabel
      advertiseAddress := options.advertiseAddress
      transport := options.mode
      status := .online
      capabilities := ["gateway", "scheduler", "orchestration"]
      tlsFingerprint := none
      joinedAt := now
      lastSeenAt := now }
  match trimmedToken options.joinToken with
  | none => store'
  | some token => store'.issueJoinToken hashJoinToken token tomorrow now

end

/-- `restoreRuntimeArtifacts`, row absence included. -/
def restoreRuntimeArtifacts (store : MeshStore)
    (snapshot : MeshRuntimeArtifactSnapshot) : MeshStore where
  nodes := Function.update store.nodes snapshot.nodeId snapshot.node
  joinTokens :=
    match snapshot.tokenHash with
    | none => store.joinTokens
    | some tokenHash => Function.update store.joinTokens tokenHash snapshot.joinToken

end MeshStore

/-- `normalizeMeshRuntimeOptions` -/
def normalizeMeshRuntimeOptions (input fallback : MeshRuntimeOptions) :
    Except MeshError MeshRuntimeOptions :=
  let localNodeId :=
    if trim input.localNodeId = "" then fallback.localNodeId else trim input.localNodeId
  if localNodeId = "" then .error .localNodeIdRequired
  else
    match input.defaultLeaseTtlSeconds with
    | .nonFinite => .error .leaseTtlInvalid
    | .finite seconds =>
        if seconds.den ≠ 1 ∨ seconds < 1 then .error .leaseTtlInvalid
        else .ok { input with localNodeId := localNodeId }

/-! ## The service -/

/-- What a reversible replacement keeps for its rollback. -/
structure MeshRuntimeOptionsReplacement where
  previous : MeshRuntimeOptions
  artifacts : MeshRuntimeArtifactSnapshot

/-- The service with its store, the replacements it can roll back, and the
snapshots in the journal of the config generations. -/
structure MeshService where
  store : MeshStore
  options : MeshRuntimeOptions
  replacements : List MeshRuntimeOptionsReplacement
  journal : List MeshRuntimeArtifactSnapshot

/-- What can happen in one step. -/
inductive MeshEvent
  | issueJoinToken (rawToken expiresAt now : String)
  /-- A join, of the repository or through the service. -/
  | join (throughService : Bool) (request : MeshJoinRequest) (now : String)
      (reply : Except MeshError MeshNode)
  | replaceOptions (input : MeshRuntimeOptions) (now tomorrow : String)
  | replaceOptionsReversibly (input : MeshRuntimeOptions) (now tomorrow : String)
  | rollback (replacement : MeshRuntimeOptionsReplacement)
  /-- The journal keeps a snapshot before a candidate is applied. -/
  | snapshot (nodeId : String) (rawToken : Option String)
  | restoreForRecovery (snapshot : MeshRuntimeArtifactSnapshot)

namespace MeshService

section

variable (hashJoinToken : String → String)

/-- `join` of the service, or of the repository under it. -/
def join (service : MeshService) (throughService : Bool) (request : MeshJoinRequest)
    (now : String) : Except MeshError MeshNode × MeshStore :=
  if throughService && !service.options.enabled then (.error .disabled, service.store)
  else if throughService && service.options.requireMtls &&
      (trimmedToken request.tlsFingerprint).isNone then
    (.error .tlsFingerprintRequired, service.store)
  else service.store.join hashJoinToken request now

/-- `replaceOptions`.  A call that throws leaves everything as it was. -/
def replaceOptions (service : MeshService) (input : MeshRuntimeOptions)
    (now tomorrow : String) : MeshService :=
  match normalizeMeshRuntimeOptions input service.options with
  | .error _ => service
  | .ok next =>
      { service with
        store := service.store.persistOptionsRows hashJoinToken next now tomorrow
        options := next }

/-- `replaceOptionsReversibly` -/
def replaceOptionsReversibly (service : MeshService) (input : MeshRuntimeOptions)
    (now tomorrow : String) : MeshService :=
  match normalizeMeshRuntimeOptions input service.options with
  | .error _ => service
  | .ok next =>
      { service with
        store := service.store.persistOptionsRows hashJoinToken next now tomorrow
        options := next
        replacements := service.replacements ++
          [{ previous := service.options
             artifacts := service.store.snapshotRuntimeArtifacts hashJoinToken
               next.localNodeId next.joinToken }] }

/-- The rollback of a replacement. -/
def rollback (service : MeshService) (replacement : MeshRuntimeOptionsReplacement) :
    MeshService :=
  { service with
    store := service.store.restoreRuntimeArtifacts replacement.artifacts
    options := replacement.previous }

/-- `restoreRuntimeArtifactsForRecovery` -/
def restoreRuntimeArtifactsForRecovery (service : MeshService)
    (snapshot : MeshRuntimeArtifactSnapshot) : MeshService :=
  { service with store := service.store.restoreRuntimeArtifacts snapshot }

/-- The operations in any order.  A replacement can be rolled back more than
once, and so can a snapshot of the journal be restored. -/
inductive Step (service : MeshService) : MeshEvent → MeshService → Prop
  | issueJoinToken {rawToken expiresAt now : String} :
      Step service (.issueJoinToken rawToken expiresAt now)
        { service with
          store := service.store.issueJoinToken hashJoinToken rawToken expiresAt now }
  | join {throughService : Bool} {request : MeshJoinRequest} {now : String} :
      Step service
        (.join throughService request now
          (service.join hashJoinToken throughService request now).1)
        { service with
          store := (service.join hashJoinToken throughService request now).2 }
  | replaceOptions {input : MeshRuntimeOptions} {now tomorrow : String} :
      Step service (.replaceOptions input now tomorrow)
        (service.replaceOptions hashJoinToken input now tomorrow)
  | replaceOptionsReversibly {input : MeshRuntimeOptions} {now tomorrow : String} :
      Step service (.replaceOptionsReversibly input now tomorrow)
        (service.replaceOptionsReversibly hashJoinToken input now tomorrow)
  | rollback {replacement : MeshRuntimeOptionsReplacement} :
      replacement ∈ service.replacements →
      Step service (.rollback replacement) (service.rollback replacement)
  | snapshot {nodeId : String} {rawToken : Option String} :
      Step service (.snapshot nodeId rawToken)
        { service with
          journal := service.journal ++
            [service.store.snapshotRuntimeArtifacts hashJoinToken nodeId rawToken] }
  | restoreForRecovery {snapshot : MeshRuntimeArtifactSnapshot} :
      snapshot ∈ service.journal →
      Step service (.restoreForRecovery snapshot)
        (service.restoreRuntimeArtifactsForRecovery snapshot)

end

end MeshService

/-- The event is a join that presents `token` and is accepted. -/
def MeshEvent.accepts (token : String) : MeshEvent → Bool
  | .join _ request _ (.ok _) => request.token = token
  | _ => false

/-! ## The condition on a restored snapshot -/

/-- The row of a token says that it was used. -/
def MeshStore.Used (store : MeshStore) (tokenHash : String) : Prop :=
  ∃ row, store.joinTokens tokenHash = some row ∧ row.usedAt ≠ none

/-- A snapshot of a token that has been used says so. -/
def MeshStore.RemembersUse (store : MeshStore)
    (snapshot : MeshRuntimeArtifactSnapshot) : Prop :=
  ∀ tokenHash, snapshot.tokenHash = some tokenHash → store.Used tokenHash →
    ∃ row, snapshot.joinToken = some row ∧ row.usedAt ≠ none

/-- No snapshot is restored that has forgotten the use of its token. -/
def MeshService.RestoresRememberUse (service : MeshService) : MeshEvent → Prop
  | .rollback replacement => service.store.RemembersUse replacement.artifacts
  | .restoreForRecovery snapshot => service.store.RemembersUse snapshot
  | _ => True

section

variable {hashJoinToken : String → String} {store : MeshStore} {tokenHash : String}

namespace MeshStore

theorem Used.upsertNode (h : store.Used tokenHash) (nodeId : String) (node : MeshNode) :
    (store.upsertNode nodeId node).2.Used tokenHash :=
  h

theorem Used.issueJoinToken (h : store.Used tokenHash)
    (rawToken expiresAt now : String) :
    (store.issueJoinToken hashJoinToken rawToken expiresAt now).Used tokenHash := by
  obtain ⟨row, hrow, hused⟩ := h
  by_cases hhash : tokenHash = hashJoinToken rawToken
  · subst hhash
    obtain ⟨usedAt, husedAt⟩ := Option.ne_none_iff_exists'.mp hused
    refine ⟨row, ?_, hused⟩
    simp [MeshStore.issueJoinToken, hrow, husedAt]
  · refine ⟨row, ?_, hused⟩
    simp [MeshStore.issueJoinToken, Function.update_of_ne hhash, hrow]

theorem Used.persistOptionsRows (h : store.Used tokenHash)
    (options : MeshRuntimeOptions) (now tomorrow : String) :
    (store.persistOptionsRows hashJoinToken options now tomorrow).Used tokenHash := by
  simp only [MeshStore.persistOptionsRows]
  split
  · exact h.upsertNode _ _
  · exact (h.upsertNode _ _).issueJoinToken _ _ _

theorem Used.restoreRuntimeArtifacts {snapshot : MeshRuntimeArtifactSnapshot}
    (h : store.Used tokenHash) (hsnapshot : store.RemembersUse snapshot) :
    (store.restoreRuntimeArtifacts snapshot).Used tokenHash := by
  cases hhash : snapshot.tokenHash with
  | none =>
      obtain ⟨row, hrow, hused⟩ := h
      exact ⟨row, by simp [MeshStore.restoreRuntimeArtifacts, hhash, hrow], hused⟩
  | some restored =>
      by_cases hsame : tokenHash = restored
      · subst hsame
        obtain ⟨row, hrow, hused⟩ := hsnapshot tokenHash hhash h
        exact ⟨row, by simp [MeshStore.restoreRuntimeArtifacts, hhash, hrow], hused⟩
      · obtain ⟨row, hrow, hused⟩ := h
        refine ⟨row, ?_, hused⟩
        simp [MeshStore.restoreRuntimeArtifacts, hhash, hrow, Function.update_of_ne hsame]

/-- A token that is used cannot be consumed, and one that is consumed is used. -/
theorem consumeJoinToken_eq_some {rawToken usedByNodeId now : String}
    {store' : MeshStore}
    (h : store.consumeJoinToken hashJoinToken rawToken usedByNodeId now = some store') :
    ¬store.Used (hashJoinToken rawToken) ∧ store'.Used (hashJoinToken rawToken) ∧
      ∀ other, store.Used other → store'.Used other := by
  cases hrow : store.joinTokens (hashJoinToken rawToken) with
  | none => simp [consumeJoinToken, hrow] at h
  | some row =>
      by_cases hfree : row.usedAt.isNone ∧ now < row.expiresAt
      · simp only [consumeJoinToken, hrow, if_pos hfree, Option.some.injEq] at h
        subst h
        have hunused : ¬store.Used (hashJoinToken rawToken) := by
          rintro ⟨row', hrow', hused⟩
          rw [hrow] at hrow'
          obtain rfl := Option.some.inj hrow'
          exact hused (Option.isNone_iff_eq_none.mp hfree.1)
        refine ⟨hunused, ⟨_, Function.update_self _ _ _, by simp⟩, ?_⟩
        rintro other ⟨row', hrow', hused⟩
        have hother : other ≠ hashJoinToken rawToken := by
          rintro rfl
          exact hunused ⟨row', hrow', hused⟩
        exact ⟨row', by simp [Function.update_of_ne hother, hrow'], hused⟩
      · simp only [consumeJoinToken, hrow, if_neg hfree] at h
        cases h

/-- A join is refused and changes nothing, or it consumes its token. -/
theorem join_cases (hashJoinToken : String → String) (store : MeshStore)
    (input : MeshJoinRequest) (now : String) :
    store.join hashJoinToken input now = (.error .joinTokenRejected, store) ∨
      (¬store.Used (hashJoinToken input.token) ∧
        (store.join hashJoinToken input now).2.Used (hashJoinToken input.token) ∧
        ∀ other, store.Used other →
          (store.join hashJoinToken input now).2.Used other) := by
  cases hconsume :
      store.consumeJoinToken hashJoinToken input.token input.nodeId now with
  | none => exact .inl (by simp [MeshStore.join, hconsume])
  | some consumed =>
      obtain ⟨hunused, hused, hothers⟩ := consumeJoinToken_eq_some hconsume
      refine .inr ⟨hunused, ?_, fun other hother => ?_⟩
      · simp only [MeshStore.join, hconsume]
        exact hused.upsertNode _ _
      · simp only [MeshStore.join, hconsume]
        exact (hothers other hother).upsertNode _ _

theorem persistOptionsRows_nodes (store : MeshStore) (options : MeshRuntimeOptions)
    (now tomorrow : String) {nodeId : String} (h : nodeId ≠ options.localNodeId) :
    (store.persistOptionsRows hashJoinToken options now tomorrow).nodes nodeId =
      store.nodes nodeId := by
  simp only [persistOptionsRows]
  split
  · exact Function.update_of_ne h _ _
  · exact Function.update_of_ne h _ _

theorem persistOptionsRows_joinTokens (store : MeshStore) (options : MeshRuntimeOptions)
    (now tomorrow : String) {tokenHash : String}
    (h : (trimmedToken options.joinToken).map hashJoinToken ≠ some tokenHash) :
    (store.persistOptionsRows hashJoinToken options now tomorrow).joinTokens tokenHash =
      store.joinTokens tokenHash := by
  simp only [persistOptionsRows]
  split
  · rfl
  · rename_i token htoken
    have hother : tokenHash ≠ hashJoinToken token := by
      rintro rfl
      exact h (by rw [htoken, Option.map_some])
    exact Function.update_of_ne hother _ _

/-- The rows that a replacement wrote are put back as they were. -/
theorem restore_persistOptionsRows (store : MeshStore) (options : MeshRuntimeOptions)
    (now tomorrow : String) :
    (store.persistOptionsRows hashJoinToken options now tomorrow).restoreRuntimeArtifacts
        (store.snapshotRuntimeArtifacts hashJoinToken options.localNodeId options.joinToken) =
      store := by
  obtain ⟨nodes, joinTokens⟩ := store
  refine congrArg₂ MeshStore.mk (funext fun nodeId => ?_) (funext fun tokenHash => ?_)
  · by_cases hlocal : nodeId = options.localNodeId
    · rw [hlocal]
      exact Function.update_self _ _ _
    · exact (Function.update_of_ne hlocal _ _).trans
        (persistOptionsRows_nodes _ options now tomorrow hlocal)
  · simp only [snapshotRuntimeArtifacts]
    cases hwritten : (trimmedToken options.joinToken).map hashJoinToken with
    | none =>
        exact persistOptionsRows_joinTokens _ options now tomorrow
          (by rw [hwritten]; exact nofun)
    | some written =>
        by_cases hsame : tokenHash = written
        · rw [hsame]
          exact Function.update_self _ _ _
        · refine (Function.update_of_ne hsame _ _).trans
            (persistOptionsRows_joinTokens _ options now tomorrow ?_)
          rw [hwritten]
          exact fun heq => hsame (Option.some.inj heq).symm

end MeshStore

namespace MeshService

variable {service service' : MeshService} {event : MeshEvent}

theorem join_cases (hashJoinToken : String → String) (service : MeshService)
    (throughService : Bool) (request : MeshJoinRequest) (now : String) :
    (∃ error, service.join hashJoinToken throughService request now =
        (.error error, service.store)) ∨
      (¬service.store.Used (hashJoinToken request.token) ∧
        (service.join hashJoinToken throughService request now).2.Used
          (hashJoinToken request.token) ∧
        ∀ other, service.store.Used other →
          (service.join hashJoinToken throughService request now).2.Used other) := by
  unfold MeshService.join
  split
  · exact .inl ⟨_, rfl⟩
  · split
    · exact .inl ⟨_, rfl⟩
    · rcases service.store.join_cases hashJoinToken request now with
        hrefused | haccepted
      · exact .inl ⟨_, hrefused⟩
      · exact .inr haccepted

/-- A use is remembered by every step that restores no snapshot which has
forgotten it. -/
theorem used_of_step (hstep : Step hashJoinToken service event service')
    (hrestore : service.RestoresRememberUse event)
    (h : service.store.Used tokenHash) : service'.store.Used tokenHash := by
  cases hstep with
  | issueJoinToken => exact h.issueJoinToken _ _ _
  | @join throughService request now =>
      rcases service.join_cases hashJoinToken throughService request now with
        ⟨error, hrefused⟩ | ⟨-, -, hothers⟩
      · rw [hrefused]
        exact h
      · exact hothers tokenHash h
  | @replaceOptions input now tomorrow =>
      unfold MeshService.replaceOptions
      split
      · exact h
      · exact h.persistOptionsRows _ _ _
  | @replaceOptionsReversibly input now tomorrow =>
      unfold MeshService.replaceOptionsReversibly
      split
      · exact h
      · exact h.persistOptionsRows _ _ _
  | rollback _ => exact h.restoreRuntimeArtifacts hrestore
  | snapshot => exact h
  | restoreForRecovery _ => exact h.restoreRuntimeArtifacts hrestore

/-- A join is accepted on an unused token and leaves it used. -/
theorem used_of_accepts {token : String} (hstep : Step hashJoinToken service event service')
    (haccepts : event.accepts token = true) :
    ¬service.store.Used (hashJoinToken token) ∧
      service'.store.Used (hashJoinToken token) := by
  cases hstep with
  | @join throughService request now =>
      rcases service.join_cases hashJoinToken throughService request now with
        ⟨error, hrefused⟩ | ⟨hunused, hused, -⟩
      · rw [hrefused] at haccepts
        cases haccepts
      · have htoken : request.token = token := by
          cases hreply : (service.join hashJoinToken throughService request now).1 with
          | error error => simp [MeshEvent.accepts, hreply] at haccepts
          | ok node => simpa [MeshEvent.accepts, hreply] using haccepts
        rw [← htoken]
        exact ⟨hunused, hused⟩
  | issueJoinToken => cases haccepts
  | replaceOptions => cases haccepts
  | replaceOptionsReversibly => cases haccepts
  | rollback _ => cases haccepts
  | snapshot => cases haccepts
  | restoreForRecovery _ => cases haccepts

/-- A replacement that is rolled back leaves the tables and the options as they were before it. -/
theorem rollback_replaceOptionsReversibly (service : MeshService) (input : MeshRuntimeOptions)
    (now tomorrow : String) (replacement : MeshRuntimeOptionsReplacement)
    (h : (service.replaceOptionsReversibly hashJoinToken input now tomorrow).replacements =
      service.replacements ++ [replacement]) :
    let replaced := service.replaceOptionsReversibly hashJoinToken input now tomorrow
    (replaced.rollback replacement).store = service.store ∧
      (replaced.rollback replacement).options = service.options := by
  unfold replaceOptionsReversibly at h ⊢
  cases hnext : normalizeMeshRuntimeOptions input service.options with
  | error error =>
      rw [hnext] at h
      have hlength := congrArg List.length h
      rw [List.length_append, List.length_singleton] at hlength
      exact absurd hlength (Nat.lt_succ_self _).ne
  | ok next =>
      rw [hnext] at h
      obtain rfl := List.singleton_inj.mp (List.append_cancel_left h)
      exact ⟨MeshStore.restore_persistOptionsRows service.store next now tomorrow, rfl⟩

end MeshService

/-- Along every run in which no snapshot is restored that has forgotten the use
of its token, at most one join that presents a given token is accepted. -/
theorem joinTokens_singleUse_of_remembered {start service : MeshService}
    {events : List MeshEvent}
    (hrun : Run (Restrict (MeshService.Step hashJoinToken)
      MeshService.RestoresRememberUse) start events service) (token : String) :
    events.countP (MeshEvent.accepts token) ≤ 1 := by
  apply countP_le_one_of_pairwise
  refine hrun.pairwise_of_latch (I := fun _ => True)
    (J := fun service => service.store.Used (hashJoinToken token)) ?_ ?_ ?_ trivial
  · intro _ _ _ _ _
    trivial
  · intro earlier event later hstep _ haccepts
    exact (MeshService.used_of_accepts hstep.1 haccepts).2
  · intro earlier event later hstep _ hused
    refine ⟨MeshService.used_of_step hstep.1 hstep.2 hused, ?_⟩
    intro haccepts
    exact (MeshService.used_of_accepts hstep.1 haccepts).1 hused

end

/-- Options that carry the token `alpha`. -/
def alphaOptions : MeshRuntimeOptions where
  enabled := true
  mode := .lan
  localNodeId := "node-local"
  localNodeLabel := none
  advertiseAddress := none
  requireMtls := false
  tailnetEnabled := false
  joinToken := some "alpha"
  defaultLeaseTtlSeconds := .finite 30

/-- A service with the options of `alpha` and no rows. -/
def freshService : MeshService where
  store := { nodes := fun _ => none, joinTokens := fun _ => none }
  options := alphaOptions
  replacements := []
  journal := []

/-- A join that presents `alpha`. -/
def alphaJoin (nodeId : String) : MeshJoinRequest where
  token := "alpha"
  nodeId := nodeId
  label := none
  advertiseAddress := none
  transport := none
  capabilities := none
  tlsFingerprint := none

/-- The service after it replaced its options reversibly, which issued `alpha`. -/
def alphaIssued : MeshService :=
  freshService.replaceOptionsReversibly id alphaOptions
    "2026-01-01T00:00:00.000Z" "2026-01-02T00:00:00.000Z"

/-- The service after the first node joined with `alpha`. -/
def alphaJoined : MeshService :=
  { alphaIssued with
    store :=
      (alphaIssued.join id true (alphaJoin "node-1") "2026-01-01T00:01:00.000Z").2 }

/-- What the replacement keeps for its rollback: there was no row of `alpha`. -/
def alphaReplacement : MeshRuntimeOptionsReplacement where
  previous := alphaOptions
  artifacts :=
    { nodeId := "node-local", node := none, tokenHash := some "alpha", joinToken := none }

/-- The service after the rollback, with the same options replaced once more. -/
def alphaReissued : MeshService :=
  (alphaJoined.rollback alphaReplacement).replaceOptions id alphaOptions
    "2026-01-01T00:02:00.000Z" "2026-01-02T00:02:00.000Z"

theorem alphaIssued_step :
    MeshService.Step id freshService
      (.replaceOptionsReversibly alphaOptions "2026-01-01T00:00:00.000Z"
        "2026-01-02T00:00:00.000Z") alphaIssued :=
  .replaceOptionsReversibly

theorem alphaJoined_step :
    MeshService.Step id alphaIssued
      (.join true (alphaJoin "node-1") "2026-01-01T00:01:00.000Z"
        (alphaIssued.join id true (alphaJoin "node-1") "2026-01-01T00:01:00.000Z").1)
      alphaJoined :=
  .join

/-- The token `alpha` admits the first node that presents it, and only that one. -/
theorem alpha_singleUse_without_rollback :
    ∃ events, Run (MeshService.Step id) freshService events alphaJoined ∧
      events.countP (MeshEvent.accepts "alpha") = 1 := by
  have hrun : Run (Restrict (MeshService.Step id) MeshService.RestoresRememberUse)
      freshService _ alphaJoined :=
    .cons ⟨alphaIssued_step, trivial⟩ (.single ⟨alphaJoined_step, trivial⟩)
  refine ⟨_, hrun.of_restrict, Nat.le_antisymm
    (joinTokens_singleUse_of_remembered hrun "alpha") ?_⟩
  decide +kernel

/-- The rollback of its replacement takes the row of `alpha` back. -/
theorem alphaIssued_rolled_back :
    (alphaIssued.rollback alphaReplacement).store = freshService.store :=
  (MeshService.rollback_replaceOptionsReversibly freshService alphaOptions
    "2026-01-01T00:00:00.000Z" "2026-01-02T00:00:00.000Z" alphaReplacement rfl).1

/-- A node joins with `alpha` between a reversible replacement and its rollback.
The rollback deletes the row, the next replacement issues it again, and a second
node joins with the same token. -/
theorem rollback_readmits_token :
    ¬∀ (hashJoinToken : String → String) (start service : MeshService)
      (events : List MeshEvent) (token : String), Function.Injective hashJoinToken →
      Run (MeshService.Step hashJoinToken) start events service →
      events.countP (MeshEvent.accepts token) ≤ 1 := by
  intro hclaim
  have hmem : alphaReplacement ∈ alphaJoined.replacements := by
    have hreplacements : alphaJoined.replacements = [alphaReplacement] := rfl
    rw [hreplacements]
    exact List.mem_singleton_self _
  have hrun := Run.cons alphaIssued_step (.cons alphaJoined_step
    (.cons (.rollback hmem)
      (.cons (@MeshService.Step.replaceOptions id _ alphaOptions
          "2026-01-01T00:02:00.000Z" "2026-01-02T00:02:00.000Z")
        (.single (@MeshService.Step.join id alphaReissued true (alphaJoin "node-2")
          "2026-01-01T00:03:00.000Z")))))
  have hcount := hclaim id _ _ _ "alpha" Function.injective_id hrun
  revert hcount
  decide +kernel

end GoatCitadel.Mesh
