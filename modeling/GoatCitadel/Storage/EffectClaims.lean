import GoatCitadel.Storage.ApprovalEffects
import GoatCitadel.Support.Runs

/-!
# Effects are owned and settled once

Workers read the candidates of a claim in one statement and take them in others, so what
a worker found may be gone when it acts on it.  Every update names the version that it was
decided on, and every change of owner or status moves the version on.  That an effect
waits for the actions of its approval is asked only when candidates are read; it holds
later on because settled effects stay as they are and actions come first.
-/

namespace GoatCitadel.Storage.ApprovalEffects

open GoatCitadel.Support
open GoatCitadel.Policy (JsonObject)
open GoatCitadel.Storage.WorktreeLeaseRepository (epochDates)

/-! ## Calls -/

/-- One atomic step of a call.  Calls of several statements have a number. -/
inductive EffectCall
  | readExisting (call : Nat) (input : UpsertInput)
  | insert (call : Nat) (randomId nowIso : String)
  | readCandidates (call : Nat) (workerId now leaseExpiresAt : String)
      (limit databaseNow : Int)
  | claimCandidate (call : Nat) (databaseNow : Int)
  | renewEffectLease (effectId workerId : String) (expectedVersion : Int)
      (now leaseExpiresAt : String) (databaseNow : Int)
  | deferEffectForRetry (effectId workerId : String) (expectedVersion : Int)
      (result : JsonObject) (lastError updatedAt retryAt : String) (databaseNow : Int)
  | settleEffect (status : SettledStatus) (effectId workerId : String) (expectedVersion : Int)
      (input : SettleInput) (nowIso : String) (databaseNow : Int)
      (recordTerminalJourney : ApprovalEffect → String → Except EffectError Unit)
  | recoverExpiredEffect (effectId : String) (expectedVersion databaseNow : Int)

/-- What a call of several statements has read so far. -/
inductive PendingCall
  | idle
  | upserting (input : UpsertInput) (existing : Option ApprovalEffect)
  | claiming (workerId : String) (leaseDurationMs : Int) (candidates : List ApprovalEffect)

structure EffectStore where
  effects : List ApprovalEffect := []
  calls : Nat → PendingCall := fun _ => .idle

/-- What a step writes: the row, as it leaves it. -/
inductive EffectWrite
  | nothing
  | inserted (effect : ApprovalEffect)
  | claimed (effect : ApprovalEffect) (workerId : String)
  | renewed (effect : ApprovalEffect)
  | deferred (effect : ApprovalEffect)
  | settled (effect : ApprovalEffect)
  | recovered (effect : ApprovalEffect)

abbrev EffectEvent := EffectCall × EffectWrite

/-- The store after an update, if there was one. -/
def EffectStore.updated (store : EffectStore) (wrote : ApprovalEffect → EffectWrite) :
    Option (ApprovalEffect × List ApprovalEffect) → EffectWrite × EffectStore
  | none => (.nothing, store)
  | some (effect, effects) => (wrote effect, { store with effects })

def EffectStore.setCall (store : EffectStore) (call : Nat) (state : PendingCall) :
    EffectStore :=
  { store with calls := Function.update store.calls call state }

section

variable (runtime : EffectRuntime)

/-- A round of the loop over the candidates. -/
def EffectStore.claimNext (store : EffectStore) (call : Nat) (workerId : String)
    (leaseDurationMs databaseNow : Int) : List ApprovalEffect → EffectWrite × EffectStore
  | [] => (.nothing, store.setCall call .idle)
  | candidate :: candidates =>
      match claimEffect runtime candidate.effectId workerId leaseDurationMs candidate.version
          databaseNow store.effects with
      | some (effect, effects) =>
          (.claimed effect workerId, { store with effects }.setCall call .idle)
      | none =>
          (.nothing, store.setCall call (.claiming workerId leaseDurationMs candidates))

def EffectCall.perform (store : EffectStore) : EffectCall → EffectWrite × EffectStore
  | .readExisting call input =>
      (.nothing, store.setCall call
        (.upserting input (getByIdempotencyKey input.idempotencyKey store.effects)))
  | .insert call randomId nowIso =>
      match store.calls call with
      | .upserting input existing =>
          let effect := upsertedEffect input existing randomId nowIso
          match insertEffect effect store.effects with
          | .ok (some effects) => (.inserted effect, { store with effects }.setCall call .idle)
          | _ => (.nothing, store.setCall call .idle)
      | _ => (.nothing, store)
  | .readCandidates call workerId now leaseExpiresAt limit databaseNow =>
      match leaseDurationMsFromInstants runtime now leaseExpiresAt with
      | .error _ => (.nothing, store)
      | .ok leaseDurationMs =>
          (.nothing, store.setCall call (.claiming workerId leaseDurationMs
            (claimCandidates runtime store.effects limit databaseNow)))
  | .claimCandidate call databaseNow =>
      match store.calls call with
      | .claiming workerId leaseDurationMs candidates =>
          store.claimNext runtime call workerId leaseDurationMs databaseNow candidates
      | _ => (.nothing, store)
  | .renewEffectLease effectId workerId expectedVersion now leaseExpiresAt databaseNow =>
      match leaseDurationMsFromInstants runtime now leaseExpiresAt with
      | .error _ => (.nothing, store)
      | .ok leaseDurationMs =>
          store.updated .renewed (renewLease runtime effectId workerId expectedVersion
            leaseDurationMs databaseNow store.effects)
  | .deferEffectForRetry effectId workerId expectedVersion result lastError updatedAt retryAt
      databaseNow =>
      match leaseDurationMsFromInstants runtime updatedAt retryAt with
      | .error _ => (.nothing, store)
      | .ok leaseDurationMs =>
          store.updated .deferred (deferEffect runtime effectId workerId expectedVersion result
            lastError leaseDurationMs databaseNow store.effects)
  | .settleEffect status effectId workerId expectedVersion input nowIso databaseNow
      recordTerminalJourney =>
      match ApprovalEffects.settleEffect runtime status effectId workerId expectedVersion input
          nowIso databaseNow recordTerminalJourney store.effects with
      | .error _ => (.nothing, store)
      | .ok settled => store.updated .settled settled
  | .recoverExpiredEffect effectId expectedVersion databaseNow =>
      store.updated .recovered (ApprovalEffects.recoverExpiredEffect runtime effectId
        expectedVersion databaseNow store.effects)

/-- One step of a call, of any worker. -/
def EffectStore.Step (store : EffectStore) (event : EffectEvent) (store' : EffectStore) :
    Prop :=
  event.1.perform runtime store = (event.2, store')

end

/-! ## Claims -/

/-- Who holds an effect, under which version, and until when. -/
structure Claim where
  workerId : Option String
  version : Int
  leaseExpiresAt : Option String

/-- The claim that a row speaks of. -/
def claimOf (row : ApprovalEffect) : Option Claim :=
  if row.status = .running then
    some { workerId := row.claimedBy, version := row.version,
           leaseExpiresAt := row.leaseExpiresAt }
  else none

/-- The claim on an effect after a write. -/
def claimAfter (effectId : String) (claim : Option Claim) : EffectWrite → Option Claim
  | .nothing => claim
  | .inserted effect => if effect.effectId = effectId then claimOf effect else claim
  | .claimed effect workerId =>
      if effect.effectId = effectId then
        some { workerId := some workerId, version := effect.version,
               leaseExpiresAt := effect.leaseExpiresAt }
      else claim
  | .renewed effect =>
      if effect.effectId = effectId then
        claim.map fun claim => { claim with leaseExpiresAt := effect.leaseExpiresAt }
      else claim
  | .deferred effect =>
      if effect.effectId = effectId then
        claim.map fun claim =>
          { claim with version := effect.version, leaseExpiresAt := effect.leaseExpiresAt }
      else claim
  | .settled effect => if effect.effectId = effectId then none else claim
  | .recovered effect => if effect.effectId = effectId then none else claim

/-- The claim on an effect after a history. -/
def currentClaim (effectId : String) (history : List EffectEvent) : Option Claim :=
  history.foldl (fun claim event => claimAfter effectId claim event.2) none

/-- A worker that renews, defers or settles under a version of an effect. -/
structure Credentials where
  effectId : String
  workerId : String
  version : Int
  databaseNow : Int

def EffectCall.credentials : EffectCall → Option Credentials
  | .renewEffectLease effectId workerId version _ _ databaseNow =>
      some { effectId, workerId, version, databaseNow }
  | .deferEffectForRetry effectId workerId version _ _ _ _ databaseNow =>
      some { effectId, workerId, version, databaseNow }
  | .settleEffect _ effectId workerId version _ _ databaseNow _ =>
      some { effectId, workerId, version, databaseNow }
  | _ => none

/-- The current claim is the worker's, of that version, and has not expired. -/
def Credentials.Hold (runtime : EffectRuntime) (credentials : Credentials)
    (history : List EffectEvent) : Prop :=
  ∃ leaseExpiresAt expiry,
    currentClaim credentials.effectId history =
      some { workerId := some credentials.workerId, version := credentials.version,
             leaseExpiresAt := some leaseExpiresAt } ∧
    runtime.instant leaseExpiresAt = some expiry ∧ credentials.databaseNow < expiry

/-- The effect that a write is about. -/
def EffectWrite.effect? : EffectWrite → Option ApprovalEffect
  | .nothing => none
  | .inserted effect => some effect
  | .claimed effect _ => some effect
  | .renewed effect => some effect
  | .deferred effect => some effect
  | .settled effect => some effect
  | .recovered effect => some effect

def EffectWrite.settles (effectId : String) : EffectWrite → Bool
  | .settled effect => effect.effectId = effectId
  | _ => false

/-- No action is inserted after a continuation of its approval. -/
def ActionsFirst (history : List EffectEvent) : Prop :=
  history.Pairwise fun earlier later =>
    ∀ continuation action, earlier.2 = .inserted continuation → later.2 = .inserted action →
      isContinuation continuation.effectKind = true → isAction action.effectKind = true →
        continuation.approvalId ≠ action.approvalId

/-! ## What a step writes -/

/-- An update of a row, with what it keeps and what it asks for. -/
structure Rewrites (runtime : EffectRuntime) (row : ApprovalEffect) (event : EffectEvent)
    (row' : ApprovalEffect) : Prop where
  effectId : row'.effectId = row.effectId
  approvalId : row'.approvalId = row.approvalId
  effectKind : row'.effectKind = row.effectKind
  content : row'.content = row.content
  wasOpen : isOpen row.status = true
  version_le : row.version ≤ row'.version
  version_lt : row'.claimedBy ≠ row.claimedBy ∨ row'.status ≠ row.status →
    row.version < row'.version
  written : event.2.effect? = some row'
  not_inserted : ∀ effect, event.2 ≠ .inserted effect
  claim : claimAfter row.effectId (claimOf row) event.2 = claimOf row'
  settles : event.2.settles row.effectId = true → isOpen row'.status = false
  held : ∀ credentials, event.1.credentials = some credentials →
    credentials.effectId = row.effectId ∧
      isHeldBy runtime credentials.workerId credentials.version credentials.databaseNow row = true

/-- What a step may do to the table. -/
inductive Wrote (runtime : EffectRuntime) (effects : List ApprovalEffect) :
    EffectEvent → List ApprovalEffect → Prop
  | nothing {call : EffectCall} : Wrote runtime effects (call, .nothing) effects
  | inserted {call : EffectCall} {effect : ApprovalEffect}
      (hcall : call.credentials = none)
      (hnew : ∀ row ∈ effects, row.effectId ≠ effect.effectId) :
      Wrote runtime effects (call, .inserted effect) (effects ++ [effect])
  | updated {event : EffectEvent} {row row' : ApprovalEffect} (hrow : row ∈ effects)
      (hrewrites : Rewrites runtime row event row') :
      Wrote runtime effects event
        (updateRows (·.effectId = row.effectId) (fun _ => row') effects)

section

variable {runtime : EffectRuntime} {store store' : EffectStore} {row : ApprovalEffect}
  {write : EffectWrite} {effects : List ApprovalEffect} {wrote : ApprovalEffect → EffectWrite}
  {result : Option (ApprovalEffect × List ApprovalEffect)}

theorem isOpen_of_isClaimable {databaseNow : Int} (h : isClaimable runtime row databaseNow = true) :
    isOpen row.status = true := by
  unfold isClaimable at h
  simp only [Bool.or_eq_true, Bool.and_eq_true, decide_eq_true_eq] at h
  obtain hpending | ⟨hrunning, -⟩ := h
  · rw [hpending]
    rfl
  · rw [hrunning]
    rfl

theorem isHeldBy_iff {workerId : String} {expectedVersion databaseNow : Int} :
    isHeldBy runtime workerId expectedVersion databaseNow row = true ↔
      row.status = .running ∧ row.claimedBy = some workerId ∧ row.version = expectedVersion ∧
        leaseLasts runtime row databaseNow = true := by
  simp only [isHeldBy, Bool.and_eq_true, decide_eq_true_eq, and_assoc]

theorem claimOf_running (h : row.status = .running) :
    claimOf row = some { workerId := row.claimedBy, version := row.version,
                         leaseExpiresAt := row.leaseExpiresAt } :=
  if_pos h

section

variable {effects after : List ApprovalEffect} {effect : ApprovalEffect}
  (hids : (effects.map (·.effectId)).Nodup) {effectId workerId : String}
  {expectedVersion databaseNow : Int}
include hids

theorem claimEffect_wrote {leaseDurationMs : Int} {call : Nat} {now : Int}
    (h : claimEffect runtime effectId workerId leaseDurationMs expectedVersion databaseNow
      effects = some (effect, after)) :
    Wrote runtime effects (.claimCandidate call now, .claimed effect workerId) after := by
  obtain ⟨row, hrow, rfl, hguard, rfl, rfl⟩ := updateEffect_eq_some hids h
  have hclaimable := (Bool.and_eq_true _ _ ▸ hguard).2
  refine .updated hrow ⟨rfl, rfl, rfl, rfl, isOpen_of_isClaimable hclaimable, ?_, ?_, rfl, ?_,
    ?_, ?_, ?_⟩
  · exact Int.le_of_lt (Int.lt_succ _)
  · exact fun _ => Int.lt_succ _
  · exact fun inserted => nofun
  · simp [claimAfter, claimOf]
  · exact nofun
  · exact nofun

theorem renewLease_wrote {now leaseExpiresAt : String} {leaseDurationMs : Int}
    (h : renewLease runtime effectId workerId expectedVersion leaseDurationMs databaseNow
      effects = some (effect, after)) :
    Wrote runtime effects
      (.renewEffectLease effectId workerId expectedVersion now leaseExpiresAt databaseNow,
        .renewed effect) after := by
  obtain ⟨row, hrow, rfl, hguard, rfl, rfl⟩ := updateEffect_eq_some hids h
  have hrunning := (isHeldBy_iff.mp hguard).1
  refine .updated hrow ⟨rfl, rfl, rfl, rfl, ?_, Int.le_refl _, ?_, rfl, ?_, ?_, ?_, ?_⟩
  · rw [hrunning]
    rfl
  · rintro (howner | hstatus)
    · exact absurd rfl howner
    · exact absurd rfl hstatus
  · exact fun inserted => nofun
  · simp [claimAfter, claimOf, hrunning]
  · exact nofun
  · rintro credentials hcredentials
    obtain rfl := Option.some.inj hcredentials
    exact ⟨rfl, hguard⟩

theorem deferEffect_wrote {lastError updatedAt retryAt : String} {result : JsonObject}
    {leaseDurationMs : Int}
    (h : deferEffect runtime effectId workerId expectedVersion result lastError
      leaseDurationMs databaseNow effects = some (effect, after)) :
    Wrote runtime effects
      (.deferEffectForRetry effectId workerId expectedVersion result lastError updatedAt
        retryAt databaseNow, .deferred effect) after := by
  obtain ⟨row, hrow, rfl, hguard, rfl, rfl⟩ := updateEffect_eq_some hids h
  have hrunning := (isHeldBy_iff.mp hguard).1
  refine .updated hrow ⟨rfl, rfl, rfl, rfl, ?_, Int.le_of_lt (Int.lt_succ _), ?_, rfl, ?_, ?_,
    ?_, ?_⟩
  · rw [hrunning]
    rfl
  · exact fun _ => Int.lt_succ _
  · exact fun inserted => nofun
  · simp [claimAfter, claimOf, hrunning]
  · exact nofun
  · rintro credentials hcredentials
    obtain rfl := Option.some.inj hcredentials
    exact ⟨rfl, hguard⟩

theorem settleStatement_wrote {status : SettledStatus} {nowIso : String} {input : SettleInput}
    {recordTerminalJourney : ApprovalEffect → String → Except EffectError Unit}
    (h : settleStatement runtime status effectId workerId expectedVersion input nowIso
      databaseNow effects = some (effect, after)) :
    Wrote runtime effects
      (.settleEffect status effectId workerId expectedVersion input nowIso databaseNow
        recordTerminalJourney, .settled effect) after := by
  obtain ⟨row, hrow, rfl, hguard, rfl, rfl⟩ := updateEffect_eq_some hids h
  have hrunning := (isHeldBy_iff.mp hguard).1
  have hclosed : isOpen status.toStatus = false := by cases status <;> rfl
  have hnot : status.toStatus ≠ .running := by cases status <;> nofun
  refine .updated hrow ⟨rfl, rfl, rfl, rfl, ?_, Int.le_of_lt (Int.lt_succ _), ?_, rfl, ?_, ?_,
    ?_, ?_⟩
  · rw [hrunning]
    rfl
  · exact fun _ => Int.lt_succ _
  · exact fun inserted => nofun
  · simp [claimAfter, claimOf, hnot]
  · exact fun _ => hclosed
  · rintro credentials hcredentials
    obtain rfl := Option.some.inj hcredentials
    exact ⟨rfl, hguard⟩

theorem recoverExpiredEffect_wrote
    (h : recoverExpiredEffect runtime effectId expectedVersion databaseNow effects =
      some (effect, after)) :
    Wrote runtime effects
      (.recoverExpiredEffect effectId expectedVersion databaseNow, .recovered effect)
      after := by
  obtain ⟨row, hrow, rfl, hguard, rfl, rfl⟩ := updateEffect_eq_some hids h
  simp only [Bool.and_eq_true, decide_eq_true_eq] at hguard
  refine .updated hrow ⟨rfl, rfl, rfl, rfl, ?_, Int.le_of_lt (Int.lt_succ _), ?_, rfl, ?_, ?_,
    ?_, ?_⟩
  · rw [hguard.1.2]
    rfl
  · exact fun _ => Int.lt_succ _
  · exact fun inserted => nofun
  · simp [claimAfter, claimOf]
  · exact nofun
  · exact nofun

end

theorem insertEffect_eq_some {after : List ApprovalEffect} {effect : ApprovalEffect}
    (h : insertEffect effect effects = .ok (some after)) :
    after = effects ++ [effect] ∧ ∀ row ∈ effects, row.effectId ≠ effect.effectId := by
  unfold insertEffect at h
  by_cases hkey : (effects.any (·.idempotencyKey = effect.idempotencyKey)) = true
  · rw [if_pos hkey] at h
    cases h
  · rw [if_neg hkey] at h
    by_cases hid : (effects.any (·.effectId = effect.effectId)) = true
    · rw [if_pos hid] at h
      cases h
    · rw [if_neg hid] at h
      obtain rfl := Option.some.inj (Except.ok.inj h)
      refine ⟨rfl, fun row hrow heq => hid ?_⟩
      exact List.any_eq_true.mpr ⟨row, hrow, decide_eq_true heq⟩

/-- What an update writes, or that there was none. -/
theorem updated_wrote {call : EffectCall} (h : store.updated wrote result = (write, store'))
    (hsome : ∀ effect after, result = some (effect, after) →
      Wrote runtime store.effects (call, wrote effect) after) :
    Wrote runtime store.effects (call, write) store'.effects := by
  cases result with
  | none =>
      obtain ⟨rfl, rfl⟩ := Prod.mk.inj h
      exact .nothing
  | some written =>
      obtain ⟨rfl, rfl⟩ := Prod.mk.inj h
      exact hsome _ _ rfl

/-- An update of the table leaves the calls alone. -/
theorem updated_calls (h : store.updated wrote result = (write, store')) :
    store'.calls = store.calls := by
  cases result with
  | none => rw [← (Prod.mk.inj h).2]
  | some written => rw [← (Prod.mk.inj h).2]

/-- Candidates are those that were read before, or some of them, or have been read now. -/
inductive Scans (runtime : EffectRuntime) (store : EffectStore) (event : EffectEvent)
    (call : Nat) (workerId : String) (leaseDurationMs : Int) (candidates : List ApprovalEffect) :
    Prop
  | read (limit databaseNow : Int) (hwrite : event.2 = .nothing)
      (hcandidates : candidates = claimCandidates runtime store.effects limit databaseNow)
  | remain (earlier : List ApprovalEffect)
      (hcall : store.calls call = .claiming workerId leaseDurationMs earlier)
      (hsubset : candidates ⊆ earlier)

/-- A call under way has a candidate for the effect. -/
def IsCandidate (store : EffectStore) (effect : ApprovalEffect) (workerId : String) : Prop :=
  ∃ number leaseDurationMs candidates, ∃ candidate ∈ candidates,
    store.calls number = .claiming workerId leaseDurationMs candidates ∧
      candidate.effectId = effect.effectId

/-- At most one call goes on, to candidates that it has. -/
def MovesCall (runtime : EffectRuntime) (store : EffectStore) (event : EffectEvent)
    (store' : EffectStore) : Prop :=
  store'.calls = store.calls ∨
    ∃ number state, store'.calls = Function.update store.calls number state ∧
      ∀ workerId leaseDurationMs candidates,
        state = .claiming workerId leaseDurationMs candidates →
          Scans runtime store event number workerId leaseDurationMs candidates

/-- What a step does to the table and to the calls. -/
structure Stepped (runtime : EffectRuntime) (store : EffectStore) (event : EffectEvent)
    (store' : EffectStore) : Prop where
  wrote : Wrote runtime store.effects event store'.effects
  calls : MovesCall runtime store event store'
  claimed : ∀ effect workerId, event.2 = .claimed effect workerId →
    IsCandidate store effect workerId

theorem moved_idle {event : EffectEvent} {number : Nat}
    (h : store'.calls = Function.update store.calls number .idle) :
    MovesCall runtime store event store' := by
  refine .inr ⟨number, .idle, h, ?_⟩
  rintro workerId leaseDurationMs candidates ⟨⟩

/-- A step that writes nothing moves at most one call. -/
theorem stepped_nothing {call : EffectCall} (heffects : store'.effects = store.effects)
    (hcalls : MovesCall runtime store (call, .nothing) store') :
    Stepped runtime store (call, .nothing) store' := by
  refine ⟨?_, hcalls, ?_⟩
  · rw [heffects]
    exact .nothing
  · rintro effect workerId ⟨⟩

theorem stepped_updated {call : EffectCall} (h : store.updated wrote result = (write, store'))
    (hclaimed : ∀ row effect workerId, wrote row ≠ .claimed effect workerId)
    (hsome : ∀ effect after, result = some (effect, after) →
      Wrote runtime store.effects (call, wrote effect) after) :
    Stepped runtime store (call, write) store' := by
  refine ⟨updated_wrote h hsome, .inl (updated_calls h), ?_⟩
  rintro effect workerId rfl
  cases result with
  | none => cases (Prod.mk.inj h).1
  | some written => exact absurd (Prod.mk.inj h).1 (hclaimed _ _ _)

theorem step_stepped {event : EffectEvent} (hids : (store.effects.map (·.effectId)).Nodup)
    (h : store.Step runtime event store') : Stepped runtime store event store' := by
  obtain ⟨call, write⟩ := event
  unfold EffectStore.Step EffectCall.perform at h
  cases call <;> dsimp only at h
  case readExisting number input =>
    obtain ⟨rfl, rfl⟩ := Prod.mk.inj h
    refine stepped_nothing rfl (.inr ⟨number, .upserting input _, rfl, ?_⟩)
    rintro workerId leaseDurationMs candidates ⟨⟩
  case insert number randomId nowIso =>
    split at h
    · split at h
      · next hinsert =>
          obtain ⟨rfl, rfl⟩ := Prod.mk.inj h
          obtain ⟨rfl, hnew⟩ := insertEffect_eq_some hinsert
          refine ⟨.inserted rfl hnew, moved_idle rfl, ?_⟩
          rintro effect workerId ⟨⟩
      · obtain ⟨rfl, rfl⟩ := Prod.mk.inj h
        exact stepped_nothing rfl (moved_idle rfl)
    · obtain ⟨rfl, rfl⟩ := Prod.mk.inj h
      exact stepped_nothing rfl (.inl rfl)
  case readCandidates number workerId now leaseExpiresAt limit databaseNow =>
    split at h
    · obtain ⟨rfl, rfl⟩ := Prod.mk.inj h
      exact stepped_nothing rfl (.inl rfl)
    · obtain ⟨rfl, rfl⟩ := Prod.mk.inj h
      refine stepped_nothing rfl (.inr ⟨number, .claiming workerId _ _, rfl, ?_⟩)
      rintro worker duration candidates ⟨⟩
      exact .read limit databaseNow rfl rfl
  case claimCandidate number databaseNow =>
    split at h
    · next workerId leaseDurationMs found hfound =>
        unfold EffectStore.claimNext at h
        split at h
        · obtain ⟨rfl, rfl⟩ := Prod.mk.inj h
          exact stepped_nothing rfl (moved_idle rfl)
        · next candidate candidates =>
            split at h
            · next hclaim =>
                obtain ⟨rfl, rfl⟩ := Prod.mk.inj h
                refine ⟨claimEffect_wrote hids hclaim, moved_idle rfl, ?_⟩
                rintro effect worker ⟨⟩
                obtain ⟨row, -, hid, -, rfl, -⟩ := updateEffect_eq_some hids hclaim
                exact ⟨number, _, _, candidate, List.mem_cons_self, hfound, hid.symm⟩
            · obtain ⟨rfl, rfl⟩ := Prod.mk.inj h
              refine stepped_nothing rfl (.inr ⟨number, .claiming _ _ candidates, rfl, ?_⟩)
              rintro worker duration rest ⟨⟩
              exact .remain _ hfound (List.subset_cons_self _ _)
    · obtain ⟨rfl, rfl⟩ := Prod.mk.inj h
      exact stepped_nothing rfl (.inl rfl)
  case renewEffectLease effectId workerId version now leaseExpiresAt databaseNow =>
    split at h
    · obtain ⟨rfl, rfl⟩ := Prod.mk.inj h
      exact stepped_nothing rfl (.inl rfl)
    · exact stepped_updated h (fun _ _ _ => nofun) fun effect after hrenew =>
        renewLease_wrote hids hrenew
  case deferEffectForRetry effectId workerId version result lastError updatedAt retryAt now =>
    split at h
    · obtain ⟨rfl, rfl⟩ := Prod.mk.inj h
      exact stepped_nothing rfl (.inl rfl)
    · exact stepped_updated h (fun _ _ _ => nofun) fun effect after hdefer =>
        deferEffect_wrote hids hdefer
  case settleEffect status effectId workerId version input nowIso databaseNow journey =>
    split at h
    · obtain ⟨rfl, rfl⟩ := Prod.mk.inj h
      exact stepped_nothing rfl (.inl rfl)
    · next settled hsettle =>
        refine stepped_updated h (fun _ _ _ => nofun) fun effect after hsome =>
          settleStatement_wrote hids ?_
        unfold ApprovalEffects.settleEffect at hsettle
        split at hsettle
        · cases (Except.ok.inj hsettle).trans hsome
        · next hstatement =>
            obtain ⟨_, -, hok⟩ := bind_eq_ok.mp hsettle
            rw [hstatement]
            exact (Except.ok.inj hok).trans hsome
  case recoverExpiredEffect effectId version databaseNow =>
    exact stepped_updated h (fun _ _ _ => nofun) fun effect after hrecover =>
      recoverExpiredEffect_wrote hids hrecover

theorem Stepped.scans {event : EffectEvent} (h : Stepped runtime store event store') {call : Nat}
    {workerId : String} {leaseDurationMs : Int} {candidates : List ApprovalEffect}
    (hcall : store'.calls call = .claiming workerId leaseDurationMs candidates) :
    Scans runtime store event call workerId leaseDurationMs candidates := by
  obtain hsame | ⟨number, state, hcalls, hstate⟩ := h.calls
  · exact .remain candidates (hsame ▸ hcall) (List.Subset.refl _)
  · rw [hcalls, Function.update_apply] at hcall
    by_cases hnumber : call = number
    · rw [if_pos hnumber] at hcall
      exact hnumber ▸ hstate _ _ _ hcall
    · rw [if_neg hnumber] at hcall
      exact .remain candidates hcall (List.Subset.refl _)

/-! ## Histories -/

theorem currentClaim_append (effectId : String) (history : List EffectEvent)
    (event : EffectEvent) :
    currentClaim effectId (history ++ [event]) =
      claimAfter effectId (currentClaim effectId history) event.2 := by
  rw [currentClaim, List.foldl_append]
  rfl

/-- A write leaves the claims on other effects alone. -/
theorem claimAfter_of_ne {effectId : String} {claim : Option Claim}
    (h : ∀ effect, write.effect? = some effect → effect.effectId ≠ effectId) :
    claimAfter effectId claim write = claim := by
  cases write with
  | nothing => rfl
  | _ => exact if_neg (h _ rfl)

/-- A continuation among the effects has nothing to wait for. -/
def IsReady (effects : List ApprovalEffect) (effectId : String) : Prop :=
  ∃ row ∈ effects, row.effectId = effectId ∧
    (isContinuation row.effectKind = true → ∀ action ∈ effects,
      action.approvalId = row.approvalId → isAction action.effectKind = true →
        isOpen action.status = false)

/-- What the store and the calls under way have to do with the past. -/
structure Consistent (runtime : EffectRuntime) (history : List EffectEvent)
    (store : EffectStore) : Prop where
  ids : (store.effects.map (·.effectId)).Nodup
  claim : ∀ row ∈ store.effects, currentClaim row.effectId history = claimOf row
  inserted : ∀ row ∈ store.effects, ∃ event ∈ history, ∃ effect, event.2 = .inserted effect ∧
    effect.effectKind = row.effectKind ∧ effect.approvalId = row.approvalId
  settled : ∀ effectId, ∀ event ∈ history, event.2.settles effectId = true →
    ∃ row ∈ store.effects, row.effectId = effectId ∧ isOpen row.status = false
  once : ∀ effectId, history.Pairwise fun earlier later =>
    earlier.2.settles effectId = true → ¬later.2.settles effectId = true
  ready : ActionsFirst history → ∀ call workerId leaseDurationMs candidates,
    store.calls call = .claiming workerId leaseDurationMs candidates →
      ∀ candidate ∈ candidates, IsReady store.effects candidate.effectId

/-- The rows after an update of one of them. -/
theorem mem_replaced {row' : ApprovalEffect} (hrow : row ∈ effects) {other : ApprovalEffect} :
    other ∈ updateRows (·.effectId = row.effectId) (fun _ => row') effects ↔
      other = row' ∨ (other ∈ effects ∧ other.effectId ≠ row.effectId) := by
  rw [mem_updateRows]
  constructor
  · rintro ⟨before, hbefore, rfl⟩
    by_cases hid : before.effectId = row.effectId
    · simp [hid]
    · simp [hid, hbefore]
  · rintro (rfl | ⟨hother, hid⟩)
    · exact ⟨row, hrow, by simp⟩
    · exact ⟨other, hother, by simp [hid]⟩

section

variable {effects after : List ApprovalEffect} {event : EffectEvent}

theorem Wrote.ids (hwrote : Wrote runtime effects event after)
    (hids : (effects.map (·.effectId)).Nodup) : (after.map (·.effectId)).Nodup := by
  cases hwrote with
  | nothing => exact hids
  | inserted _ hnew => exact nodup_map_append_singleton hids hnew
  | @updated _ row row' _ hrewrites =>
      have hcolumn : (updateRows (fun other => decide (other.effectId = row.effectId))
          (fun _ => row') effects).map (·.effectId) = effects.map (·.effectId) :=
        map_updateRows fun other hother =>
          hrewrites.effectId.trans (of_decide_eq_true hother).symm
      rw [hcolumn]
      exact hids

/-- Every row is there afterwards, moved on if its owner or its status changed. -/
theorem Wrote.version_grows (hwrote : Wrote runtime effects event after)
    (hids : (effects.map (·.effectId)).Nodup) :
    ∀ row ∈ effects, ∃ row' ∈ after, row'.effectId = row.effectId ∧
      row.version ≤ row'.version ∧
      (row'.claimedBy ≠ row.claimedBy ∨ row'.status ≠ row.status →
        row.version < row'.version) := by
  have hkept : ∀ row : ApprovalEffect, row.version ≤ row.version ∧
      (row.claimedBy ≠ row.claimedBy ∨ row.status ≠ row.status →
        row.version < row.version) := fun row =>
    ⟨Int.le_refl _, fun h => absurd h (by simp)⟩
  intro other hother
  cases hwrote with
  | nothing => exact ⟨other, hother, rfl, hkept other⟩
  | inserted _ _ => exact ⟨other, List.mem_append_left _ hother, rfl, hkept other⟩
  | @updated _ row row' hrow hrewrites =>
      by_cases hid : other.effectId = row.effectId
      · obtain rfl := eq_of_key_eq hids hother hrow hid
        exact ⟨row', (mem_replaced hrow).mpr (.inl rfl), hrewrites.effectId,
          hrewrites.version_le, hrewrites.version_lt⟩
      · exact ⟨other, (mem_replaced hrow).mpr (.inr ⟨hother, hid⟩), rfl, hkept other⟩

/-- A settled effect is not written. -/
theorem Wrote.settled_kept (hwrote : Wrote runtime effects event after)
    (hids : (effects.map (·.effectId)).Nodup) :
    ∀ row ∈ effects, isOpen row.status = false →
      row ∈ after ∧ ∀ effect, event.2.effect? = some effect →
        effect.effectId ≠ row.effectId := by
  intro other hother hclosed
  cases hwrote with
  | nothing =>
      refine ⟨hother, fun effect heffect => ?_⟩
      cases heffect
  | inserted _ hnew =>
      refine ⟨List.mem_append_left _ hother, fun effect heffect heq => ?_⟩
      obtain rfl := Option.some.inj heffect
      exact hnew other hother heq.symm
  | @updated _ row row' hrow hrewrites =>
      have hne : other.effectId ≠ row.effectId := by
        intro hid
        obtain rfl := eq_of_key_eq hids hother hrow hid
        exact Bool.false_ne_true (hclosed.symm.trans hrewrites.wasOpen)
      refine ⟨(mem_replaced hrow).mpr (.inr ⟨hother, hne⟩), fun effect heffect heq => ?_⟩
      obtain rfl := Option.some.inj (hrewrites.written.symm.trans heffect)
      exact hne (heq.symm.trans hrewrites.effectId)

/-- Nothing that a continuation could wait for appears later. -/
theorem Wrote.ready (hwrote : Wrote runtime effects event after)
    (hids : (effects.map (·.effectId)).Nodup) {effectId : String}
    (hready : IsReady effects effectId)
    (hfirst : ∀ action, event.2 = .inserted action → isAction action.effectKind = true →
      ∀ row ∈ effects, isContinuation row.effectKind = true →
        row.approvalId ≠ action.approvalId) : IsReady after effectId := by
  obtain ⟨row, hrow, hid, hsettled⟩ := hready
  cases hwrote with
  | nothing => exact ⟨row, hrow, hid, hsettled⟩
  | inserted _ hnew =>
      refine ⟨row, List.mem_append_left _ hrow, hid, fun hcontinuation => ?_⟩
      refine forall_mem_append_singleton (hsettled hcontinuation) fun happroval haction => ?_
      exact absurd happroval.symm (hfirst _ rfl haction row hrow hcontinuation)
  | @updated _ written row' hwritten hrewrites =>
      have hactions : isContinuation row.effectKind = true →
          ∀ action ∈ updateRows (·.effectId = written.effectId) (fun _ => row') effects,
            action.approvalId = row.approvalId → isAction action.effectKind = true →
              isOpen action.status = false := by
        intro hcontinuation action haction happroval hkind
        obtain rfl | ⟨hbefore, -⟩ := (mem_replaced hwritten).mp haction
        · rw [hrewrites.approvalId] at happroval
          rw [hrewrites.effectKind] at hkind
          have hclosed := hsettled hcontinuation written hwritten happroval hkind
          exact absurd (hclosed.symm.trans hrewrites.wasOpen) Bool.false_ne_true
        · exact hsettled hcontinuation action hbefore happroval hkind
      by_cases hsame : row.effectId = written.effectId
      · obtain rfl := eq_of_key_eq hids hrow hwritten hsame
        refine ⟨row', (mem_replaced hwritten).mpr (.inl rfl), hrewrites.effectId.trans hid, ?_⟩
        rw [hrewrites.effectKind, hrewrites.approvalId]
        exact hactions
      · exact ⟨row, (mem_replaced hwritten).mpr (.inr ⟨hrow, hsame⟩), hid, hactions⟩

end

/-- What is read as a candidate is ready. -/
theorem claimCandidates_ready {limit databaseNow : Int} {candidate : ApprovalEffect}
    (h : candidate ∈ claimCandidates runtime effects limit databaseNow) :
    IsReady effects candidate.effectId := by
  have hsorted := List.mem_of_mem_take h
  rw [(List.perm_insertionSort _ _).mem_iff] at hsorted
  obtain ⟨hmem, hguard⟩ := List.mem_filter.mp hsorted
  simp only [Bool.and_eq_true, Bool.not_eq_true'] at hguard
  refine ⟨candidate, hmem, rfl, fun hcontinuation action haction happroval hkind => ?_⟩
  by_contra hopen
  refine Bool.false_ne_true (hguard.2.symm.trans ?_)
  rw [isBlocked, hcontinuation, Bool.true_and]
  exact List.any_eq_true.mpr ⟨action, haction, by simp_all⟩

namespace Consistent

variable {history : List EffectEvent} {store store' : EffectStore} {event : EffectEvent}

theorem initial : Consistent runtime [] {} where
  ids := List.nodup_nil
  claim := by simp
  inserted := by simp
  settled := by simp
  once _ := .nil
  ready := by simp

/-- The claim that the past gives to each row is the one that the row speaks of. -/
theorem claim_step (hconsistent : Consistent runtime history store)
    (hwrote : Wrote runtime store.effects event store'.effects) :
    ∀ row ∈ store'.effects, currentClaim row.effectId (history ++ [event]) = claimOf row := by
  intro other hother
  rw [currentClaim_append]
  generalize store'.effects = after at hwrote hother
  cases hwrote with
  | nothing => exact hconsistent.claim other hother
  | @inserted _ effect _ hnew =>
      obtain hold | hlast := List.mem_append.mp hother
      · rw [hconsistent.claim other hold]
        exact if_neg fun heq => hnew other hold heq.symm
      · obtain rfl := List.mem_singleton.mp hlast
        exact if_pos rfl
  | @updated _ row row' hrow hrewrites =>
      obtain rfl | ⟨hbefore, hne⟩ := (mem_replaced hrow).mp hother
      · rw [hrewrites.effectId, hconsistent.claim row hrow]
        exact hrewrites.claim
      · rw [hconsistent.claim other hbefore]
        refine claimAfter_of_ne fun effect heffect heq => hne ?_
        obtain rfl := Option.some.inj (hrewrites.written.symm.trans heffect)
        exact heq.symm.trans hrewrites.effectId

theorem inserted_step (hconsistent : Consistent runtime history store)
    (hwrote : Wrote runtime store.effects event store'.effects) :
    ∀ row ∈ store'.effects, ∃ past ∈ history ++ [event], ∃ effect,
      past.2 = .inserted effect ∧ effect.effectKind = row.effectKind ∧
        effect.approvalId = row.approvalId := by
  have hold : ∀ row ∈ store.effects, ∃ past ∈ history ++ [event], ∃ effect,
      past.2 = .inserted effect ∧ effect.effectKind = row.effectKind ∧
        effect.approvalId = row.approvalId := by
    intro row hrow
    obtain ⟨past, hpast, hinserted⟩ := hconsistent.inserted row hrow
    exact ⟨past, List.mem_append_left _ hpast, hinserted⟩
  generalize store'.effects = after at hwrote
  cases hwrote with
  | nothing => exact hold
  | @inserted call effect _ _ =>
      exact forall_mem_append_singleton hold
        ⟨_, List.mem_append_right _ (List.mem_singleton.mpr rfl), effect, rfl, rfl, rfl⟩
  | @updated _ row row' hrow hrewrites =>
      intro other hother
      obtain rfl | ⟨hbefore, -⟩ := (mem_replaced hrow).mp hother
      · rw [hrewrites.effectKind, hrewrites.approvalId]
        exact hold row hrow
      · exact hold other hbefore

/-- An effect that a step settles is settled afterwards, and was open before. -/
theorem settles_step (hwrote : Wrote runtime store.effects event store'.effects)
    {effectId : String} (hsettles : event.2.settles effectId = true) :
    ∃ row ∈ store.effects, ∃ row' ∈ store'.effects, row.effectId = effectId ∧
      row'.effectId = effectId ∧ isOpen row.status = true ∧ isOpen row'.status = false := by
  generalize store'.effects = after at hwrote
  cases hwrote with
  | nothing => cases hsettles
  | inserted _ _ => cases hsettles
  | @updated _ row row' hrow hrewrites =>
      have hid : row.effectId = effectId := by
        obtain ⟨call, write⟩ := event
        have hwritten := hrewrites.written
        cases write with
        | settled effect =>
            obtain rfl := Option.some.inj hwritten
            exact hrewrites.effectId.symm.trans (of_decide_eq_true hsettles)
        | _ => cases hsettles
      subst hid
      exact ⟨row, hrow, row', (mem_replaced hrow).mpr (.inl rfl), rfl, hrewrites.effectId,
        hrewrites.wasOpen, hrewrites.settles hsettles⟩

theorem settled_step (hconsistent : Consistent runtime history store)
    (hwrote : Wrote runtime store.effects event store'.effects) (effectId : String) :
    ∀ past ∈ history ++ [event], past.2.settles effectId = true →
      ∃ row ∈ store'.effects, row.effectId = effectId ∧ isOpen row.status = false := by
  refine forall_mem_append_singleton (fun past hpast hsettles => ?_) fun hsettles => ?_
  · obtain ⟨row, hrow, hid, hclosed⟩ := hconsistent.settled effectId past hpast hsettles
    exact ⟨row, (hwrote.settled_kept hconsistent.ids row hrow hclosed).1, hid, hclosed⟩
  · obtain ⟨-, -, row', hrow', -, hid, -, hclosed⟩ := settles_step hwrote hsettles
    exact ⟨row', hrow', hid, hclosed⟩

theorem once_step (hconsistent : Consistent runtime history store)
    (hwrote : Wrote runtime store.effects event store'.effects) (effectId : String) :
    (history ++ [event]).Pairwise fun earlier later =>
      earlier.2.settles effectId = true → ¬later.2.settles effectId = true := by
  refine List.pairwise_append.mpr ⟨hconsistent.once effectId, List.pairwise_singleton _ _, ?_⟩
  intro earlier hearlier later hlater hfirst hagain
  obtain rfl := List.mem_singleton.mp hlater
  obtain ⟨settled, hsettled, hid, hclosed⟩ :=
    hconsistent.settled effectId earlier hearlier hfirst
  obtain ⟨row, hrow, -, -, hid', -, hopen, -⟩ := settles_step hwrote hagain
  obtain rfl := eq_of_key_eq hconsistent.ids hsettled hrow (hid.trans hid'.symm)
  exact Bool.false_ne_true (hclosed.symm.trans hopen)

theorem ready_step (hconsistent : Consistent runtime history store)
    (hstep : store.Step runtime event store')
    (hfirst : ActionsFirst (history ++ [event])) :
    ∀ call workerId leaseDurationMs candidates,
      store'.calls call = .claiming workerId leaseDurationMs candidates →
        ∀ candidate ∈ candidates, IsReady store'.effects candidate.effectId := by
  intro call workerId leaseDurationMs candidates hcall candidate hcandidate
  obtain ⟨hbefore, -, hlast⟩ := List.pairwise_append.mp hfirst
  have hready : IsReady store.effects candidate.effectId := by
    cases (step_stepped hconsistent.ids hstep).scans hcall with
    | read limit databaseNow _ hcandidates =>
        exact claimCandidates_ready (hcandidates ▸ hcandidate)
    | remain earlier hearlier hsubset =>
        exact hconsistent.ready hbefore call workerId leaseDurationMs earlier hearlier
          candidate (hsubset hcandidate)
  refine (step_stepped hconsistent.ids hstep).wrote.ready hconsistent.ids hready ?_
  intro action hinserted haction row hrow hcontinuation happroval
  obtain ⟨past, hpast, effect, hpastInserted, hkind, hsame⟩ := hconsistent.inserted row hrow
  exact hlast past hpast event (List.mem_singleton.mpr rfl) effect action hpastInserted
    hinserted (hkind ▸ hcontinuation) haction (hsame.trans happroval)

theorem step (hconsistent : Consistent runtime history store)
    (hstep : store.Step runtime event store') :
    Consistent runtime (history ++ [event]) store' :=
  have hwrote := (step_stepped hconsistent.ids hstep).wrote
  { ids := hwrote.ids hconsistent.ids
    claim := hconsistent.claim_step hwrote
    inserted := hconsistent.inserted_step hwrote
    settled := hconsistent.settled_step hwrote
    once := hconsistent.once_step hwrote
    ready := hconsistent.ready_step hstep }

end Consistent

theorem consistent_of_run {history : List EffectEvent}
    (hrun : Run (EffectStore.Step runtime) {} history store) : Consistent runtime history store :=
  Run.invariant_of_history (I := Consistent runtime)
    (fun _ _ _ _ hstep hconsistent => hconsistent.step hstep) hrun .initial

end

/-! ## Every run -/

/-- What the next step does after a history. -/
structure StepsAsOwned (runtime : EffectRuntime) (history : List EffectEvent)
    (store : EffectStore) (event : EffectEvent) (store' : EffectStore) : Prop where
  settled_kept : ∀ row ∈ store.effects, isOpen row.status = false →
    row ∈ store'.effects ∧ ∀ effect, event.2.effect? = some effect →
      effect.effectId ≠ row.effectId
  by_holder : ∀ credentials, event.1.credentials = some credentials →
    event.2.effect? ≠ none → credentials.Hold runtime history
  version_grows : ∀ row ∈ store.effects, ∃ row' ∈ store'.effects,
    row'.effectId = row.effectId ∧ row.version ≤ row'.version ∧
      (row'.claimedBy ≠ row.claimedBy ∨ row'.status ≠ row.status → row.version < row'.version)
  after_actions : ActionsFirst history → ∀ effect workerId,
    event.2 = .claimed effect workerId → isContinuation effect.effectKind = true →
      ∀ action ∈ store.effects, action.approvalId = effect.approvalId →
        isAction action.effectKind = true → isOpen action.status = false

section

variable {runtime : EffectRuntime} {history : List EffectEvent} {store store' : EffectStore}
  {event : EffectEvent}

theorem hold_of_isHeldBy (hconsistent : Consistent runtime history store)
    {row : ApprovalEffect} (hrow : row ∈ store.effects) {credentials : Credentials}
    (hid : credentials.effectId = row.effectId)
    (hheld : isHeldBy runtime credentials.workerId credentials.version credentials.databaseNow
      row = true) : credentials.Hold runtime history := by
  obtain ⟨hrunning, howner, hversion, hlasts⟩ := isHeldBy_iff.mp hheld
  obtain ⟨leaseExpiresAt, hlease, hfuture⟩ := (Option.any_eq_true _ _).mp hlasts
  obtain ⟨expiry, hinstant, hlater⟩ := (Option.any_eq_true _ _).mp hfuture
  refine ⟨leaseExpiresAt, expiry, ?_, hinstant, of_decide_eq_true hlater⟩
  rw [hid, hconsistent.claim row hrow, claimOf_running hrunning, howner, hversion, hlease]

theorem by_holder_step (hconsistent : Consistent runtime history store)
    (hstep : store.Step runtime event store') (credentials : Credentials)
    (hcredentials : event.1.credentials = some credentials)
    (hwritten : event.2.effect? ≠ none) : credentials.Hold runtime history := by
  have hwrote := (step_stepped hconsistent.ids hstep).wrote
  generalize store'.effects = after at hwrote
  cases hwrote with
  | nothing => exact absurd rfl hwritten
  | inserted hcall _ => cases hcall.symm.trans hcredentials
  | @updated _ row row' hrow hrewrites =>
      obtain ⟨hid, hheld⟩ := hrewrites.held credentials hcredentials
      exact hold_of_isHeldBy hconsistent hrow hid hheld

theorem after_actions_step (hconsistent : Consistent runtime history store)
    (hstep : store.Step runtime event store') (hfirst : ActionsFirst history)
    (effect : ApprovalEffect) (workerId : String) (hclaimed : event.2 = .claimed effect workerId)
    (hcontinuation : isContinuation effect.effectKind = true) :
    ∀ action ∈ store.effects, action.approvalId = effect.approvalId →
      isAction action.effectKind = true → isOpen action.status = false := by
  have hwrote := (step_stepped hconsistent.ids hstep).wrote
  obtain ⟨call, write⟩ := event
  obtain rfl : write = .claimed effect workerId := hclaimed
  obtain ⟨number, duration, candidates, candidate, hcandidate, hcall, hid⟩ :=
    (step_stepped hconsistent.ids hstep).claimed _ _ rfl
  obtain ⟨row, hrow, hrowId, hsettled⟩ :=
    hconsistent.ready hfirst number workerId duration candidates hcall candidate hcandidate
  generalize store'.effects = after at hwrote
  cases hwrote with
  | @updated _ written row' hwritten hrewrites =>
      obtain rfl : effect = row' := Option.some.inj hrewrites.written
      obtain rfl := eq_of_key_eq hconsistent.ids hrow hwritten
        (hrowId.trans (hid.trans hrewrites.effectId))
      rw [hrewrites.approvalId]
      rw [hrewrites.effectKind] at hcontinuation
      exact hsettled hcontinuation

end

/-- Effects of approvals are owned and settled once, however the steps of the calls of all
workers interleave. -/
theorem effects_ownedAndSettledOnce (runtime : EffectRuntime) {history : List EffectEvent}
    {store : EffectStore} (hrun : Run (EffectStore.Step runtime) {} history store) :
    (∀ effectId, history.countP (·.2.settles effectId) ≤ 1) ∧
      (∀ later store', Run (EffectStore.Step runtime) store later store' →
        ∀ row ∈ store.effects, isOpen row.status = false → row ∈ store'.effects) ∧
      ∀ event store', store.Step runtime event store' →
        StepsAsOwned runtime history store event store' := by
  have hconsistent := consistent_of_run hrun
  refine ⟨fun effectId => countP_le_one_of_pairwise (hconsistent.once effectId), ?_, ?_⟩
  · intro later store' hlater row hrow hclosed
    have hkept := Run.invariant_of_history
      (I := fun past reached => Consistent runtime past reached ∧ row ∈ reached.effects)
      (fun past before step after hstep ⟨hbefore, hmem⟩ =>
        ⟨hbefore.step hstep,
          ((step_stepped hbefore.ids hstep).wrote.settled_kept hbefore.ids row hmem hclosed).1⟩)
      hlater ⟨hconsistent, hrow⟩
    exact hkept.2
  · intro event store' hstep
    have hwrote := (step_stepped hconsistent.ids hstep).wrote
    exact
      { settled_kept := hwrote.settled_kept hconsistent.ids
        by_holder := by_holder_step hconsistent hstep
        version_grows := hwrote.version_grows hconsistent.ids
        after_actions := after_actions_step hconsistent hstep }

/-! ## A run -/

/-- The steps of calls one after the other, with what they write. -/
def playCalls (runtime : EffectRuntime) (store : EffectStore) :
    List EffectCall → List EffectEvent × EffectStore
  | [] => ([], store)
  | call :: calls =>
      let performed := call.perform runtime store
      let rest := playCalls runtime performed.2 calls
      ((call, performed.1) :: rest.1, rest.2)

theorem run_playCalls (runtime : EffectRuntime) (store : EffectStore)
    (calls : List EffectCall) :
    Run (EffectStore.Step runtime) store (playCalls runtime store calls).1
      (playCalls runtime store calls).2 := by
  induction calls generalizing store with
  | nil => exact .nil store
  | cons call calls ih => exact .cons rfl (ih _)

/-- A database whose clock stands still at the beginning of the epoch. -/
def minuteRuntime : EffectRuntime where
  toDateText := epochDates
  instant := epochDates.parse
  databaseNowText _ := "1970-01-01T00:00:00.000Z"
  databaseLeaseExpiryText databaseNow leaseDurationMs :=
    epochDates.toISOString (databaseNow + leaseDurationMs)
  stableJson _ := "{}"
  textLe a b := decide (a ≤ b)

/-- Two workers find an action, and the one that claims it completes it.  The other one claims
the wake that waited for it. -/
def completedCalls : List EffectCall :=
  let now := "1970-01-01T00:00:00.000Z"
  let minute := "1970-01-01T00:01:00.000Z"
  [.readExisting 0
      { approvalId := "approval", effectKind := .pendingActionExecute,
        targetKind := .pendingAction, targetId := "action", idempotencyKey := "key" },
    .insert 0 "effect" now,
    .readExisting 0
      { approvalId := "approval", effectKind := .approvalWaitWake,
        targetKind := .durableRun, targetId := "run", idempotencyKey := "wake" },
    .insert 0 "wake" now,
    .readCandidates 1 "worker" now minute 25 0, .readCandidates 2 "other" now minute 25 0,
    .claimCandidate 1 0, .claimCandidate 2 0,
    .settleEffect .completed "effect" "worker" 2 {} now 0 fun _ _ => .ok (),
    .readCandidates 2 "other" now minute 25 0, .claimCandidate 2 0]

/-- The action is settled once, and stays completed whatever comes later. -/
theorem completedCalls_settleOnce :
    (playCalls minuteRuntime {} completedCalls).1.countP (·.2.settles "effect") = 1 ∧
      ∀ later store',
        Run (EffectStore.Step minuteRuntime) (playCalls minuteRuntime {} completedCalls).2 later
          store' → ∃ row ∈ store'.effects, row.status = .completed := by
  refine ⟨by decide +kernel, fun later store' hlater => ?_⟩
  have hsettled : (playCalls minuteRuntime {} completedCalls).2.effects.any
      (fun row => decide (row.status = .completed)) = true := by decide +kernel
  obtain ⟨row, hrow, hstatus⟩ := List.any_eq_true.mp hsettled
  have hcompleted : row.status = .completed := of_decide_eq_true hstatus
  have hkept := (effects_ownedAndSettledOnce minuteRuntime
    (run_playCalls minuteRuntime {} completedCalls)).2.1 later store' hlater row hrow
    (by rw [hcompleted]; rfl)
  exact ⟨row, hkept, hcompleted⟩

end GoatCitadel.Storage.ApprovalEffects
