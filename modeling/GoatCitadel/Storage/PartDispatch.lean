import GoatCitadel.Storage.ChannelDeliveryParts
import GoatCitadel.Support.Table

/-!
# A part is dispatched at most once

Every update of a part names the revision that was read, and moves the part on: from
prepared to waiting, from either to dispatching or failed, from dispatching to its
receipt.  No update leads back, so that a part is handed to a provider once, and one
that waits for an approval is handed over under that approval.
-/

namespace GoatCitadel.Storage.ChannelDeliveryParts

open GoatCitadel.Support
open GoatCitadel.Policy (JsonObject JsonValue)

/-! ## Events -/

/-- A call of the repository, or what others make of the deliveries and the
approvals. -/
inductive PartCall
  | prepare (input : PrepareInput) (now : String)
  | bindApproval (partId requestHash approvalId now : String)
  | attachProvider (partId requestHash providerDeliveryId now : String)
  | finish (partId providerDeliveryId : String) (revision : Nat) (status : FinishStatus)
      (now : String)
  | park (partId claimExpiresAt nextAttemptAt now : String)
  | reject (partId : String) (revision : Nat) (now : String)
  | others (deliveries : String → Option CommsDelivery)
      (approvals : String → Option ApprovalAction)

/-- A call, and whether it returned or threw. -/
structure PartEvent where
  call : PartCall
  returned : Bool

section Steps

variable (runtime : PartRuntime)

/-- The store after a call that returns. -/
def PartCall.perform (store : DeliveryStore) :
    PartCall → Except ChannelDeliveryPartError DeliveryStore
  | .prepare input now => Prod.snd <$> ChannelDeliveryParts.prepare runtime input now store
  | .bindApproval partId requestHash approvalId now =>
      Prod.snd <$> ChannelDeliveryParts.bindApproval runtime partId requestHash approvalId now
        store
  | .attachProvider partId requestHash providerDeliveryId now =>
      Prod.snd <$> ChannelDeliveryParts.attachProvider runtime partId requestHash
        providerDeliveryId now store
  | .finish partId providerDeliveryId revision status now =>
      Prod.snd <$> ChannelDeliveryParts.finish partId providerDeliveryId revision status now
        store
  | .park partId claimExpiresAt nextAttemptAt now =>
      .ok (ChannelDeliveryParts.park partId claimExpiresAt nextAttemptAt now store).2
  | .reject partId revision now => .ok (ChannelDeliveryParts.reject partId revision now store).2
  | .others deliveries approvals => .ok { store with deliveries, approvals }

/-- One transaction; it changes nothing when it throws. -/
def DeliveryStore.Step (store : DeliveryStore) (event : PartEvent) (store' : DeliveryStore) :
    Prop :=
  match event.call.perform runtime store with
  | .ok written => event.returned = true ∧ store' = written
  | .error _ => event.returned = false ∧ store' = store

/-- The store after an event, computed. -/
def DeliveryStore.next (store : DeliveryStore) (event : PartEvent) : DeliveryStore :=
  match event.call.perform runtime store with
  | .ok written => written
  | .error _ => store

/-- The event returns when the call does. -/
def PartEvent.agrees (store : DeliveryStore) (event : PartEvent) : Bool :=
  event.returned = (event.call.perform runtime store).isOk

theorem step_next (store : DeliveryStore) (event : PartEvent)
    (hagrees : event.agrees runtime store = true) :
    store.Step runtime event (store.next runtime event) := by
  have h : event.returned = (event.call.perform runtime store).isOk := of_decide_eq_true hagrees
  unfold DeliveryStore.Step DeliveryStore.next
  cases hperform : event.call.perform runtime store with
  | ok written =>
      rw [hperform] at h
      exact ⟨h, rfl⟩
  | error error =>
      rw [hperform] at h
      exact ⟨h, rfl⟩

end Steps

/-- The event binds the part to an approval, under a request hash. -/
def PartEvent.Binds (partId requestHash approvalId : String) (event : PartEvent) : Prop :=
  event.returned = true ∧
    ∃ now, event.call = .bindApproval partId requestHash approvalId now

/-- The event hands the part to a provider. -/
def PartEvent.dispatches (partId : String) (event : PartEvent) : Bool :=
  match event.call with
  | .attachProvider id _ _ _ => event.returned && id = partId
  | _ => false

/-- The approval is granted, for a request with this hash. -/
def Approved (runtime : PartRuntime) (store : DeliveryStore) (approvalId requestHash : String) :
    Prop :=
  ∃ approval request, store.approvals approvalId = some approval ∧
    approval.status = "approved" ∧ approval.request = some request ∧
    channelDeliveryPartRequestHash runtime request = requestHash

def ChannelDeliveryPartStatus.isTerminal : ChannelDeliveryPartStatus → Bool
  | .sent | .failed | .manualReconciliationRequired => true
  | .prepared | .waitingApproval | .dispatching => false

/-! ## What a step does to a part -/

/-- How the row of a part is moved on. -/
inductive Moves (runtime : PartRuntime) (store : DeliveryStore) (partId : String)
    (event : PartEvent) (part : ChannelDeliveryPart) : ChannelDeliveryPart → Prop
  | bind {requestHash approvalId now : String} : part.status = .prepared →
      part.requestHash = requestHash → event.Binds partId requestHash approvalId →
      Moves runtime store partId event part (waitingRow approvalId now part)
  | dispatch {providerDeliveryId now : String} : part.isOpen = true →
      (part.status = .waitingApproval → ∃ approvalId, part.approvalId = some approvalId ∧
        Approved runtime store approvalId part.requestHash) →
      event.dispatches partId = true →
      Moves runtime store partId event part (dispatchingRow providerDeliveryId now part)
  | finish {status : FinishStatus} {now : String} : part.status = .dispatching →
      Moves runtime store partId event part (closedRow status.partStatus now part)
  | reject {now : String} : part.isOpen = true →
      Moves runtime store partId event part (closedRow .failed now part)

/-- What a step does to a part. -/
inductive PartEffect (runtime : PartRuntime) (store : DeliveryStore) (partId : String)
    (event : PartEvent) (store' : DeliveryStore) : Prop
  | keep : store'.parts partId = store.parts partId → event.dispatches partId = false →
      (∀ requestHash approvalId, event.Binds partId requestHash approvalId →
        ∃ part, store.parts partId = some part ∧ part.status = .waitingApproval ∧
          part.approvalId = some approvalId ∧ part.requestHash = requestHash) →
      PartEffect runtime store partId event store'
  | insert {input : PrepareInput} {now : String} : store.parts partId = none →
      store'.parts partId = some (preparedRow input now) → event.dispatches partId = false →
      (∀ requestHash approvalId, ¬event.Binds partId requestHash approvalId) →
      PartEffect runtime store partId event store'
  | move {part part' : ChannelDeliveryPart} : store.parts partId = some part →
      store'.parts partId = some part' → Moves runtime store partId event part part' →
      (event.dispatches partId = true → part'.status = .dispatching) →
      (∀ requestHash approvalId, event.Binds partId requestHash approvalId →
        part'.status = .waitingApproval ∧ part'.approvalId = some approvalId ∧
          part'.requestHash = requestHash) →
      PartEffect runtime store partId event store'

section Effects

variable {runtime : PartRuntime} {store store' : DeliveryStore} {partId : String}
  {event : PartEvent} {target now : String} {part : ChannelDeliveryPart}

theorem updatePart_eq_some {guard : ChannelDeliveryPart → Bool}
    {set : ChannelDeliveryPart → ChannelDeliveryPart}
    (h : store.updatePart target guard set = some store') :
    ∃ part, store.parts target = some part ∧ guard part = true ∧
      store'.parts = fun id => if id = target then some (set part) else store.parts id := by
  unfold DeliveryStore.updatePart at h
  split at h
  · rename_i part hpart
    split at h
    · rename_i hguard
      obtain rfl := Option.some.inj h
      exact ⟨part, hpart, hguard, rfl⟩
    · cases h
  · cases h

theorem updateDelivery_parts {deliveryId : String} {guard : CommsDelivery → Bool}
    {set : CommsDelivery → CommsDelivery}
    (h : store.updateDelivery deliveryId guard set = some store') :
    store'.parts = store.parts := by
  unfold DeliveryStore.updateDelivery at h
  split at h
  · split at h
    · obtain rfl := Option.some.inj h
      rfl
    · cases h
  · cases h

theorem requirePart_eq_ok {requestHash : String}
    (h : requirePart target requestHash store = .ok part) :
    store.parts target = some part ∧ part.requestHash = requestHash := by
  unfold requirePart at h
  split at h
  · rename_i found hfound
    split at h
    · cases h
    · rename_i hhash
      obtain rfl := Except.ok.inj h
      exact ⟨hfound, by simpa using hhash⟩
  · cases h

/-- An approval that passes the check has its status, and the request of the part. -/
theorem assertApproval_eq_ok {approvalId status : String}
    (h : assertApproval runtime partId part approvalId status now store = .ok ()) :
    ∃ approval request, store.approvals approvalId = some approval ∧
      approval.status = status ∧ approval.request = some request ∧
      channelDeliveryPartRequestHash runtime request = part.requestHash := by
  unfold assertApproval at h
  split at h
  · cases h
  · rename_i approval happroval
    split at h
    · cases h
    · rename_i hcurrent
      split at h
      · rename_i request payload hrequest hpayload
        refine ⟨approval, request, happroval, ?_, hrequest, ?_⟩
        · by_contra hstatus
          exact hcurrent (.inl hstatus)
        · unfold assertRequest at h
          split at h
          · cases h
          · split at h
            · cases h
            · split at h
              · cases h
              · rename_i hidentity
                by_contra hhash
                exact hidentity (.inr (.inr hhash))
      · cases h

theorem assertWaitedApproval_eq_ok (h : assertWaitedApproval runtime partId part now store = .ok ())
    (hwaiting : part.status = .waitingApproval) :
    ∃ approvalId, part.approvalId = some approvalId ∧
      Approved runtime store approvalId part.requestHash := by
  unfold assertWaitedApproval at h
  rw [if_pos hwaiting] at h
  split at h
  · rename_i approvalId happrovalId
    exact ⟨approvalId, happrovalId, assertApproval_eq_ok h⟩
  · cases h

/-- The effect of a step that leaves the part as it is, and neither binds nor
dispatches it. -/
theorem effect_of_same (h : store'.parts partId = store.parts partId)
    (hdispatches : event.dispatches partId = false)
    (hbinds : ∀ requestHash approvalId, ¬event.Binds partId requestHash approvalId) :
    PartEffect runtime store partId event store' :=
  .keep h hdispatches fun requestHash approvalId hbind =>
    absurd hbind (hbinds requestHash approvalId)

theorem not_binds_of_call {call : PartCall} {returned : Bool}
    (h : ∀ requestHash approvalId now,
      call ≠ .bindApproval partId requestHash approvalId now) :
    ∀ requestHash approvalId,
      ¬PartEvent.Binds partId requestHash approvalId ⟨call, returned⟩ := by
  rintro requestHash approvalId ⟨-, now, hcall⟩
  exact h requestHash approvalId now hcall

/-- An update of one part leaves the others as they are. -/
theorem updated_parts_of_ne
    (h : store'.parts = fun id => if id = target then some part else store.parts id)
    (hne : partId ≠ target) : store'.parts partId = store.parts partId := by
  rw [h]
  exact if_neg hne

theorem updated_parts_self
    (h : store'.parts = fun id => if id = target then some part else store.parts id) :
    store'.parts target = some part := by
  rw [h]
  exact if_pos rfl

theorem step_cases (h : store.Step runtime event store') :
    (event.returned = false ∧ store' = store) ∨
      (event.returned = true ∧ event.call.perform runtime store = .ok store') := by
  unfold DeliveryStore.Step at h
  split at h
  · rename_i written hperform
    obtain ⟨hreturned, rfl⟩ := h
    exact .inr ⟨hreturned, hperform⟩
  · exact .inl h

theorem prepare_cases {input : PrepareInput}
    (h : prepare runtime input now store = .ok (part, store')) :
    store' = store ∨ ∃ target, store.parts target = none ∧
      store'.parts =
        fun id => if id = target then some (preparedRow input now) else store.parts id := by
  unfold prepare at h
  split at h
  · cases h
  · dsimp only at h
    split at h
    · split at h
      · cases h
      · obtain ⟨-, rfl⟩ := ok_pair_inj h
        exact .inl rfl
    · rename_i hnone
      obtain ⟨_, -, h⟩ := bind_eq_ok.mp h
      obtain ⟨-, rfl⟩ := ok_pair_inj h
      exact .inr ⟨_, hnone, rfl⟩

/-- A part that is bound was prepared, or is waiting for this approval already. -/
theorem bindApproval_cases {requestHash approvalId : String} {answer : ChannelDeliveryPart}
    (h : bindApproval runtime target requestHash approvalId now store = .ok (answer, store')) :
    ∃ part, store.parts target = some part ∧ part.requestHash = requestHash ∧
      ((part.status = .waitingApproval ∧ part.approvalId = some approvalId ∧
          store'.parts = store.parts) ∨
        (part.status = .prepared ∧ store'.parts = fun id =>
          if id = target then some (waitingRow approvalId now part) else store.parts id)) := by
  unfold bindApproval at h
  obtain ⟨part, hrequire, h⟩ := bind_eq_ok.mp h
  obtain ⟨hpart, hhash⟩ := requirePart_eq_ok hrequire
  refine ⟨part, hpart, hhash, ?_⟩
  split at h
  · rename_i hwaiting
    obtain ⟨-, rfl⟩ := ok_pair_inj h
    exact .inl ⟨hwaiting.1, hwaiting.2, rfl⟩
  · obtain ⟨_, -, h⟩ := bind_eq_ok.mp h
    obtain ⟨_, -, h⟩ := bind_eq_ok.mp h
    split at h
    · cases h
    · rename_i written hwritten
      obtain ⟨-, rfl⟩ := ok_pair_inj h
      obtain ⟨middle, hwait, hparent⟩ := Option.bind_eq_some_iff.mp hwritten
      obtain ⟨found, hfound, hguard, hparts⟩ := updatePart_eq_some hwait
      obtain rfl : part = found := Option.some.inj (hpart.symm.trans hfound)
      simp only [Bool.and_eq_true, decide_eq_true_eq] at hguard
      exact .inr ⟨hguard.1.2, (updateDelivery_parts hparent).trans hparts⟩

/-- A part that is attached to a provider is open, and when it waits for an approval
this one is granted. -/
theorem attachProvider_cases {requestHash providerDeliveryId : String}
    {answer : ChannelDeliveryPart}
    (h : attachProvider runtime target requestHash providerDeliveryId now store =
      .ok (answer, store')) :
    ∃ part, store.parts target = some part ∧ part.isOpen = true ∧
      (part.status = .waitingApproval → ∃ approvalId, part.approvalId = some approvalId ∧
        Approved runtime store approvalId part.requestHash) ∧
      store'.parts = fun id =>
        if id = target then some (dispatchingRow providerDeliveryId now part)
        else store.parts id := by
  unfold attachProvider at h
  obtain ⟨part, hrequire, h⟩ := bind_eq_ok.mp h
  obtain ⟨hpart, -⟩ := requirePart_eq_ok hrequire
  obtain ⟨_, -, h⟩ := bind_eq_ok.mp h
  obtain ⟨_, hwaited, h⟩ := bind_eq_ok.mp h
  split at h
  · cases h
  · split at h
    · cases h
    · rename_i written hwritten
      obtain ⟨-, rfl⟩ := ok_pair_inj h
      obtain ⟨found, hfound, hguard, hparts⟩ := updatePart_eq_some hwritten
      obtain rfl : part = found := Option.some.inj (hpart.symm.trans hfound)
      simp only [Bool.and_eq_true, decide_eq_true_eq] at hguard
      exact ⟨part, hpart, hguard.1.2, assertWaitedApproval_eq_ok hwaited, hparts⟩

theorem changes_cases {written : Option DeliveryStore} {changed : Bool}
    (h : changes store written = (changed, store')) :
    store' = store ∨ written = some store' := by
  unfold changes at h
  split at h
  · obtain ⟨-, rfl⟩ := Prod.mk.inj h
    exact .inr rfl
  · obtain ⟨-, rfl⟩ := Prod.mk.inj h
    exact .inl rfl

theorem finish_cases {providerDeliveryId : String} {revision : Nat} {status : FinishStatus}
    {changed : Bool}
    (h : finish target providerDeliveryId revision status now store = .ok (changed, store')) :
    store' = store ∨ ∃ part, store.parts target = some part ∧ part.status = .dispatching ∧
      store'.parts = fun id =>
        if id = target then some (closedRow status.partStatus now part)
        else store.parts id := by
  unfold finish at h
  split at h
  · split at h
    · cases h
    · obtain hsame | hwritten := changes_cases (Except.ok.inj h)
      · exact .inl hsame
      · obtain ⟨part, hpart, hguard, hparts⟩ := updatePart_eq_some hwritten
        simp only [Bool.and_eq_true, decide_eq_true_eq] at hguard
        exact .inr ⟨part, hpart, hguard.1.2, hparts⟩
  · cases h

theorem park_parts {claimExpiresAt nextAttemptAt : String} :
    (park target claimExpiresAt nextAttemptAt now store).2.parts = store.parts := by
  unfold park
  split
  · rfl
  · split
    · rfl
    · obtain hsame | hwritten := changes_cases (Prod.mk.eta (p := changes store _)).symm
      · rw [hsame]
      · exact updateDelivery_parts hwritten

theorem reject_cases (store : DeliveryStore) (target : String) (revision : Nat)
    (now : String) :
    (reject target revision now store).2 = store ∨
      ∃ part, store.parts target = some part ∧ part.isOpen = true ∧
        (reject target revision now store).2.parts = fun id =>
          if id = target then some (closedRow .failed now part) else store.parts id := by
  obtain hsame | hwritten :=
    changes_cases (Prod.mk.eta (p := reject target revision now store)).symm
  · exact .inl hsame
  · obtain ⟨part, hpart, hguard, hparts⟩ := updatePart_eq_some hwritten
    simp only [Bool.and_eq_true] at hguard
    exact .inr ⟨part, hpart, hguard.2, hparts⟩

/-- The effect of an update of one part on the parts of a store. -/
theorem effect_of_moved {part' : ChannelDeliveryPart} (hpart : store.parts target = some part)
    (hparts : store'.parts = fun id => if id = target then some part' else store.parts id)
    (hmoves : target = partId → Moves runtime store partId event part part')
    (hdispatches : event.dispatches partId = true →
      target = partId ∧ part'.status = .dispatching)
    (hbinds : ∀ requestHash approvalId, event.Binds partId requestHash approvalId →
      target = partId ∧ part'.status = .waitingApproval ∧ part'.approvalId = some approvalId ∧
        part'.requestHash = requestHash) : PartEffect runtime store partId event store' := by
  by_cases htarget : target = partId
  · subst htarget
    exact .move hpart (updated_parts_self hparts) (hmoves rfl) (fun h => (hdispatches h).2)
      fun requestHash approvalId h => (hbinds requestHash approvalId h).2
  · apply effect_of_same
    · exact updated_parts_of_ne hparts fun heq => htarget heq.symm
    · by_contra hdispatch
      exact htarget (hdispatches (by simpa using hdispatch)).1
    · intro requestHash approvalId hbind
      exact htarget (hbinds requestHash approvalId hbind).1

theorem step_effect (h : store.Step runtime event store') :
    PartEffect runtime store partId event store' := by
  obtain ⟨call, returned⟩ := event
  obtain ⟨hreturned, rfl⟩ | ⟨hreturned, hperform⟩ := step_cases h
  · obtain rfl : returned = false := hreturned
    apply effect_of_same rfl
    · unfold PartEvent.dispatches
      split
      · rfl
      · rfl
    · rintro requestHash approvalId ⟨hreturned, -⟩
      cases hreturned
  obtain rfl : returned = true := hreturned
  have hnotBinds : (∀ requestHash approvalId now,
      call ≠ .bindApproval partId requestHash approvalId now) →
      ∀ requestHash approvalId,
        ¬PartEvent.Binds partId requestHash approvalId ⟨call, true⟩ := not_binds_of_call
  cases call with
  | prepare input now =>
      obtain ⟨_, hprepare⟩ := map_snd_eq_ok hperform
      have hbinds := hnotBinds fun _ _ _ heq => by cases heq
      obtain rfl | ⟨target, hnone, hparts⟩ := prepare_cases hprepare
      · exact effect_of_same rfl rfl hbinds
      · by_cases htarget : target = partId
        · subst htarget
          exact .insert hnone (updated_parts_self hparts) rfl hbinds
        · exact effect_of_same (updated_parts_of_ne hparts fun heq => htarget heq.symm) rfl
            hbinds
  | bindApproval target requestHash approvalId now =>
      obtain ⟨_, hbind⟩ := map_snd_eq_ok hperform
      obtain ⟨part, hpart, rfl, hcases⟩ := bindApproval_cases hbind
      obtain ⟨hwaiting, happroval, hparts⟩ | ⟨hprepared, hparts⟩ := hcases
      · refine .keep (congrFun hparts partId) rfl ?_
        rintro hash bound ⟨-, at', heq⟩
        obtain ⟨rfl, rfl, rfl, rfl⟩ := PartCall.bindApproval.inj heq
        exact ⟨part, hpart, hwaiting, happroval, rfl⟩
      · apply effect_of_moved hpart hparts
        · rintro rfl
          exact .bind hprepared rfl ⟨rfl, now, rfl⟩
        · intro hdispatch
          cases hdispatch
        · rintro hash bound ⟨-, at', heq⟩
          obtain ⟨rfl, rfl, rfl, rfl⟩ := PartCall.bindApproval.inj heq
          exact ⟨rfl, rfl, rfl, rfl⟩
  | attachProvider target requestHash providerDeliveryId now =>
      obtain ⟨_, hattach⟩ := map_snd_eq_ok hperform
      obtain ⟨part, hpart, hopen, happroved, hparts⟩ := attachProvider_cases hattach
      apply effect_of_moved hpart hparts
      · rintro rfl
        exact .dispatch hopen happroved (by simp [PartEvent.dispatches])
      · intro hdispatch
        exact ⟨by simpa [PartEvent.dispatches] using hdispatch, rfl⟩
      · intro hash bound hbind
        exact absurd hbind (hnotBinds (fun _ _ _ heq => by cases heq) hash bound)
  | finish target providerDeliveryId revision status now =>
      obtain ⟨_, hfinish⟩ := map_snd_eq_ok hperform
      have hbinds := hnotBinds fun _ _ _ heq => by cases heq
      obtain rfl | ⟨part, hpart, hdispatching, hparts⟩ := finish_cases hfinish
      · exact effect_of_same rfl rfl hbinds
      · apply effect_of_moved hpart hparts
        · exact fun _ => .finish hdispatching
        · intro hdispatch
          cases hdispatch
        · exact fun hash bound hbind => absurd hbind (hbinds hash bound)
  | park target claimExpiresAt nextAttemptAt now =>
      obtain rfl := Except.ok.inj hperform
      exact effect_of_same (congrFun park_parts partId) rfl
        (hnotBinds fun _ _ _ heq => by cases heq)
  | reject target revision now =>
      obtain rfl := Except.ok.inj hperform
      have hbinds := hnotBinds fun _ _ _ heq => by cases heq
      obtain hsame | ⟨part, hpart, hopen, hparts⟩ := reject_cases store target revision now
      · exact effect_of_same (by rw [hsame]) rfl hbinds
      · apply effect_of_moved hpart hparts
        · exact fun _ => .reject hopen
        · intro hdispatch
          cases hdispatch
        · exact fun hash bound hbind => absurd hbind (hbinds hash bound)
  | others deliveries approvals =>
      obtain rfl := Except.ok.inj hperform
      exact effect_of_same rfl rfl (hnotBinds fun _ _ _ heq => by cases heq)

end Effects

/-! ## The invariant -/

/-- What is kept about a part, after the events so far. -/
structure Tracked (partId : String) (past : List PartEvent) (store : DeliveryStore) :
    Prop where
  bound : ∀ event ∈ past, ∀ requestHash approvalId,
    event.Binds partId requestHash approvalId →
      ∃ part, store.parts partId = some part ∧ part.status ≠ .prepared ∧
        part.approvalId = some approvalId ∧ part.requestHash = requestHash
  once : past.countP (·.dispatches partId) ≤ 1
  undispatched : (∀ part, store.parts partId = some part → part.isOpen = true) →
    past.countP (·.dispatches partId) = 0

/-- The part is dispatching. -/
def IsDispatching (partId : String) (store : DeliveryStore) : Prop :=
  ∃ part, store.parts partId = some part ∧ part.status = .dispatching

/-- What holds of a step that follows the events so far. -/
structure DispatchRules (runtime : PartRuntime) (partId : String) (past : List PartEvent)
    (store : DeliveryStore) (event : PartEvent) (store' : DeliveryStore) : Prop where
  enters : event.dispatches partId = true ↔
    ¬IsDispatching partId store ∧ IsDispatching partId store'
  terminal : ∀ part, store.parts partId = some part → part.status.isTerminal = true →
    store'.parts partId = some part
  revision : ∀ part, store.parts partId = some part →
    ∃ part', store'.parts partId = some part' ∧
      (part' = part ∨ part.revision < part'.revision)
  waited : event.dispatches partId = true → ∀ part, store.parts partId = some part →
    part.status = .waitingApproval → ∃ approvalId, part.approvalId = some approvalId ∧
      Approved runtime store approvalId part.requestHash
  approved : event.dispatches partId = true → ∀ earlier ∈ past, ∀ requestHash approvalId,
    earlier.Binds partId requestHash approvalId →
      Approved runtime store approvalId requestHash

section Invariant

variable {runtime : PartRuntime} {store store' : DeliveryStore} {partId : String}
  {event : PartEvent} {past : List PartEvent} {part part' : ChannelDeliveryPart}

theorem isOpen_iff :
    part.isOpen = true ↔ part.status = .prepared ∨ part.status = .waitingApproval := by
  simp [ChannelDeliveryPart.isOpen]

theorem isTerminal_partStatus (status : FinishStatus) :
    status.partStatus.isTerminal = true := by
  cases status <;> rfl

/-- The three ways a part moves: to its approval, to a provider, and to its end. -/
theorem Moves.statuses (h : Moves runtime store partId event part part') :
    (part.status = .prepared ∧ part'.status = .waitingApproval) ∨
      (event.dispatches partId = true ∧ part.isOpen = true ∧ part'.status = .dispatching) ∨
      (part.status.isTerminal = false ∧ part'.status.isTerminal = true) := by
  cases h with
  | bind hprepared => exact .inl ⟨hprepared, rfl⟩
  | dispatch hopen _ hdispatches => exact .inr (.inl ⟨hdispatches, hopen, rfl⟩)
  | finish hdispatching =>
      refine .inr (.inr ⟨?_, isTerminal_partStatus _⟩)
      rw [hdispatching]
      rfl
  | reject hopen =>
      refine .inr (.inr ⟨?_, rfl⟩)
      obtain hprepared | hwaiting := isOpen_iff.mp hopen
      · rw [hprepared]
        rfl
      · rw [hwaiting]
        rfl

theorem Moves.revision (h : Moves runtime store partId event part part') :
    part.revision < part'.revision := by
  cases h with
  | bind => exact Nat.lt_succ_self _
  | dispatch => exact Nat.lt_succ_self _
  | finish => exact Nat.lt_succ_self _
  | reject => exact Nat.lt_succ_self _

theorem Moves.not_terminal (h : Moves runtime store partId event part part') :
    part.status.isTerminal = false := by
  obtain ⟨hprepared, -⟩ | ⟨-, hopen, -⟩ | ⟨hrunning, -⟩ := h.statuses
  · rw [hprepared]
    rfl
  · obtain hprepared | hwaiting := isOpen_iff.mp hopen
    · rw [hprepared]
      rfl
    · rw [hwaiting]
      rfl
  · exact hrunning

/-- A part that is moved on is not prepared afterwards. -/
theorem Moves.not_prepared (h : Moves runtime store partId event part part') :
    part'.status ≠ .prepared := by
  intro heq
  obtain ⟨-, hwaiting⟩ | ⟨-, -, hdispatching⟩ | ⟨-, hended⟩ := h.statuses
  · rw [heq] at hwaiting
    cases hwaiting
  · rw [heq] at hdispatching
    cases hdispatching
  · rw [heq] at hended
    cases hended

/-- A part that was not prepared keeps its approval and its request. -/
theorem Moves.approval (h : Moves runtime store partId event part part')
    (hstatus : part.status ≠ .prepared) :
    part'.approvalId = part.approvalId ∧ part'.requestHash = part.requestHash := by
  cases h with
  | bind hprepared => exact absurd hprepared hstatus
  | dispatch => exact ⟨rfl, rfl⟩
  | finish => exact ⟨rfl, rfl⟩
  | reject => exact ⟨rfl, rfl⟩

/-- A part that is not open stays so, and is not dispatching any more when it is
moved on. -/
theorem Moves.not_open (h : Moves runtime store partId event part part')
    (hopen : part.isOpen = false) : part'.status.isTerminal = true := by
  obtain ⟨hprepared, -⟩ | ⟨-, hisOpen, -⟩ | ⟨-, hended⟩ := h.statuses
  · rw [isOpen_iff.mpr (.inl hprepared)] at hopen
    cases hopen
  · rw [hisOpen] at hopen
    cases hopen
  · exact hended

theorem Moves.dispatches_iff (h : Moves runtime store partId event part part')
    (hdispatches : event.dispatches partId = true → part'.status = .dispatching) :
    event.dispatches partId = true ↔ part'.status = .dispatching := by
  refine ⟨hdispatches, ?_⟩
  intro hstatus
  obtain ⟨-, hwaiting⟩ | ⟨hdispatch, -, -⟩ | ⟨-, hended⟩ := h.statuses
  · rw [hstatus] at hwaiting
    cases hwaiting
  · exact hdispatch
  · rw [hstatus] at hended
    cases hended

/-- A part that is dispatching is moved to its end. -/
theorem Moves.not_dispatching (h : Moves runtime store partId event part part')
    (hstatus : part'.status = .dispatching) : part.status ≠ .dispatching := by
  intro heq
  have hopen : part.isOpen = false := by simp [ChannelDeliveryPart.isOpen, heq]
  have hended := h.not_open hopen
  rw [hstatus] at hended
  cases hended

theorem tracked_initial : Tracked partId [] store where
  bound := by simp
  once := Nat.zero_le 1
  undispatched := fun _ => rfl

theorem PartEffect.bound (h : PartEffect runtime store partId event store')
    (htracked : Tracked partId past store) :
    ∀ e ∈ past ++ [event], ∀ requestHash approvalId, e.Binds partId requestHash approvalId →
      ∃ part, store'.parts partId = some part ∧ part.status ≠ .prepared ∧
        part.approvalId = some approvalId ∧ part.requestHash = requestHash := by
  apply forall_mem_append_singleton
  · intro e he requestHash approvalId hbind
    obtain ⟨part, hpart, hstatus, happroval, hhash⟩ :=
      htracked.bound e he requestHash approvalId hbind
    cases h with
    | keep hsame => exact ⟨part, hsame.trans hpart, hstatus, happroval, hhash⟩
    | insert hnone =>
        rw [hpart] at hnone
        cases hnone
    | @move found part' hfound hpart' hmoves =>
        obtain rfl : part = found := Option.some.inj (hpart.symm.trans hfound)
        obtain ⟨happroval', hhash'⟩ := hmoves.approval hstatus
        exact ⟨part', hpart', hmoves.not_prepared, happroval'.trans happroval,
          hhash'.trans hhash⟩
  · intro requestHash approvalId hbind
    cases h with
    | keep hsame _ hkept =>
        obtain ⟨part, hpart, hwaiting, happroval, hhash⟩ := hkept requestHash approvalId hbind
        refine ⟨part, hsame.trans hpart, ?_, happroval, hhash⟩
        rw [hwaiting]
        exact fun heq => by cases heq
    | insert _ _ _ hnot => exact absurd hbind (hnot requestHash approvalId)
    | move _ hpart' hmoves _ hbound =>
        obtain ⟨-, happroval, hhash⟩ := hbound requestHash approvalId hbind
        exact ⟨_, hpart', hmoves.not_prepared, happroval, hhash⟩

theorem countP_append_of_not (h : event.dispatches partId = false) :
    (past ++ [event]).countP (·.dispatches partId) = past.countP (·.dispatches partId) := by
  rw [List.countP_append, List.countP_singleton, h]
  rfl

theorem PartEffect.once (h : PartEffect runtime store partId event store')
    (htracked : Tracked partId past store) :
    (past ++ [event]).countP (·.dispatches partId) ≤ 1 ∧
      ((∀ part, store'.parts partId = some part → part.isOpen = true) →
        (past ++ [event]).countP (·.dispatches partId) = 0) := by
  cases h with
  | keep hsame hnot =>
      rw [countP_append_of_not hnot, hsame]
      exact ⟨htracked.once, htracked.undispatched⟩
  | insert hnone _ hnot =>
      rw [countP_append_of_not hnot]
      refine ⟨htracked.once, fun _ => htracked.undispatched ?_⟩
      intro part hpart
      rw [hpart] at hnone
      cases hnone
  | @move part part' hpart hpart' hmoves hdispatches =>
      cases hevent : event.dispatches partId with
      | true =>
          -- The event that dispatches the part finds it open, so there was none before.
          have hdispatching := hdispatches hevent
          have hzero : past.countP (·.dispatches partId) = 0 := by
            apply htracked.undispatched
            intro found hfound
            obtain rfl : part = found := Option.some.inj (hpart.symm.trans hfound)
            by_contra hclosed
            have hended := hmoves.not_open (by simpa using hclosed)
            rw [hdispatching] at hended
            cases hended
          refine ⟨?_, ?_⟩
          · rw [List.countP_append, List.countP_singleton, hzero, hevent]
            exact Nat.le_refl 1
          · intro hall
            obtain heq | heq := isOpen_iff.mp (hall part' hpart')
            · exact absurd heq hmoves.not_prepared
            · rw [hdispatching] at heq
              cases heq
      | false =>
          rw [countP_append_of_not hevent]
          refine ⟨htracked.once, fun hall => htracked.undispatched ?_⟩
          intro found hfound
          obtain rfl : part = found := Option.some.inj (hpart.symm.trans hfound)
          by_contra hclosed
          have hended := hmoves.not_open (by simpa using hclosed)
          obtain heq | heq := isOpen_iff.mp (hall part' hpart')
          · exact hmoves.not_prepared heq
          · rw [heq] at hended
            cases hended

theorem Tracked.step (h : Tracked partId past store)
    (hstep : store.Step runtime event store') : Tracked partId (past ++ [event]) store' := by
  have heffect : PartEffect runtime store partId event store' := step_effect hstep
  obtain ⟨honce, hundispatched⟩ := heffect.once h
  exact ⟨heffect.bound h, honce, hundispatched⟩

theorem PartEffect.enters (h : PartEffect runtime store partId event store') :
    event.dispatches partId = true ↔
      ¬IsDispatching partId store ∧ IsDispatching partId store' := by
  cases h with
  | keep hsame hnot =>
      have hiff : IsDispatching partId store' ↔ IsDispatching partId store := by
        simp only [IsDispatching, hsame]
      rw [hnot, hiff]
      simp
  | insert _ hrow hnot =>
      have hnotDispatching : ¬IsDispatching partId store' := by
        rintro ⟨part, hpart, hstatus⟩
        rw [hrow] at hpart
        obtain rfl := Option.some.inj hpart
        cases hstatus
      simp [hnot, hnotDispatching]
  | @move part part' hpart hpart' hmoves hdispatches =>
      rw [hmoves.dispatches_iff hdispatches]
      constructor
      · intro hstatus
        refine ⟨?_, part', hpart', hstatus⟩
        rintro ⟨found, hfound, hfoundStatus⟩
        obtain rfl : part = found := Option.some.inj (hpart.symm.trans hfound)
        exact hmoves.not_dispatching hstatus hfoundStatus
      · rintro ⟨-, found, hfound, hstatus⟩
        obtain rfl : part' = found := Option.some.inj (hpart'.symm.trans hfound)
        exact hstatus

theorem PartEffect.waited (h : PartEffect runtime store partId event store')
    (hdispatch : event.dispatches partId = true) (hpart : store.parts partId = some part) :
    part.isOpen = true ∧ (part.status = .waitingApproval →
      ∃ approvalId, part.approvalId = some approvalId ∧
        Approved runtime store approvalId part.requestHash) := by
  cases h with
  | keep _ hnot =>
      rw [hdispatch] at hnot
      cases hnot
  | insert _ _ hnot =>
      rw [hdispatch] at hnot
      cases hnot
  | @move found part' hfound _ hmoves hdispatches =>
      obtain rfl : part = found := Option.some.inj (hpart.symm.trans hfound)
      have hstatus := hdispatches hdispatch
      cases hmoves with
      | bind => cases hstatus
      | dispatch hopen hwaited => exact ⟨hopen, hwaited⟩
      | @finish status now _ =>
          have hended := isTerminal_partStatus status
          rw [show status.partStatus = .dispatching from hstatus] at hended
          cases hended
      | reject => cases hstatus

/-- Every step after a run follows the rules. -/
theorem Tracked.rules (htracked : Tracked partId past store)
    (hstep : store.Step runtime event store') :
    DispatchRules runtime partId past store event store' := by
  have heffect : PartEffect runtime store partId event store' := step_effect hstep
  refine ⟨heffect.enters, ?_, ?_, ?_, ?_⟩
  · intro part hpart hterminal
    cases heffect with
    | keep hsame => exact hsame.trans hpart
    | insert hnone =>
        rw [hpart] at hnone
        cases hnone
    | move hfound _ hmoves =>
        obtain rfl := Option.some.inj (hpart.symm.trans hfound)
        rw [hmoves.not_terminal] at hterminal
        cases hterminal
  · intro part hpart
    cases heffect with
    | keep hsame => exact ⟨part, hsame.trans hpart, .inl rfl⟩
    | insert hnone =>
        rw [hpart] at hnone
        cases hnone
    | move hfound hpart' hmoves =>
        obtain rfl := Option.some.inj (hpart.symm.trans hfound)
        exact ⟨_, hpart', .inr hmoves.revision⟩
  · exact fun hdispatch part hpart => (heffect.waited hdispatch hpart).2
  · intro hdispatch earlier hearlier requestHash approvalId hbind
    obtain ⟨part, hpart, hstatus, happroval, rfl⟩ :=
      htracked.bound earlier hearlier requestHash approvalId hbind
    obtain ⟨hopen, hwaited⟩ := heffect.waited hdispatch hpart
    obtain hprepared | hwaiting := isOpen_iff.mp hopen
    · exact absurd hprepared hstatus
    · obtain ⟨bound, hbound, happroved⟩ := hwaited hwaiting
      rw [happroval] at hbound
      obtain rfl := Option.some.inj hbound
      exact happroved

theorem tracked_of_run {initial : DeliveryStore} {events : List PartEvent}
    (h : Run (DeliveryStore.Step runtime) initial events store) : Tracked partId events store :=
  h.invariant_of_history (fun _ _ _ _ hstep htracked => htracked.step hstep) tracked_initial

/-- In every interleaving of the operations of any callers a part is handed to a provider
at most once, and every step after the run follows the rules. -/
theorem parts_dispatched_once {initial : DeliveryStore} {events : List PartEvent}
    (hrun : Run (DeliveryStore.Step runtime) initial events store) (partId : String) :
    events.countP (·.dispatches partId) ≤ 1 ∧
      ∀ event store', store.Step runtime event store' →
        DispatchRules runtime partId events store event store' := by
  have htracked : Tracked partId events store := tracked_of_run hrun
  exact ⟨htracked.once, fun event store' hstep => htracked.rules hstep⟩

end Invariant

/-! ## An example -/

/-- The times and the digest of the example. -/
def sampleRuntime : PartRuntime where
  parse text :=
    if text = "1970-01-01T00:01:00.000Z" then some 60000
    else if text = "1970-01-01T00:00:00.000Z" then some 0
    else none
  sha256 text :=
    if text = "\x7b\"attempt\":1,\"deliveryId\":\"delivery\",\"partIndex\":0\x7d" then
      "1ccc97e430324933cb15fec4c9b0149becc88e9bba0cd87a40fba283d6cf2de9"
    else ""

/-- A delivery that is queued, in an attempt that ends after a minute. -/
def sampleDelivery (attempts : Nat) : CommsDelivery where
  status := "queued"
  deliveryStatus := "queued"
  attempts := attempts
  payloadHash := "239f59ed55e737c77147cf55ad0c1b030b6d7ee748a7426952f9b852d5a935e5"
  nextAttemptAt := some "1970-01-01T00:01:00.000Z"
  connectionId := "connection"
  channelKey := "channel"
  target := "target"
  updatedAt := "1970-01-01T00:00:00.000Z"
  error := none
  staleReason := none

def sampleDeliveries : String → Option CommsDelivery
  | "delivery" => some (sampleDelivery 1)
  | "provider" => some (sampleDelivery 0)
  | _ => none

def sampleInput : PrepareInput where
  deliveryId := "delivery"
  attempt := 1
  partIndex := 0
  payloadHash := "239f59ed55e737c77147cf55ad0c1b030b6d7ee748a7426952f9b852d5a935e5"
  requestHash := "1f58b9145b24d108d7ac38887338b3ea3229833b9c1e418250343f907bfd1047"
  claimExpiresAt := "1970-01-01T00:01:00.000Z"

def samplePartId : String :=
  "channel-part-1ccc97e430324933cb15fec4c9b0149becc88e9bba0cd87a40fba283d6cf2de9"

/-- Two callers attach the same part; the second one throws. -/
def sampleEvents : List PartEvent :=
  let attach : PartCall := .attachProvider samplePartId
    "1f58b9145b24d108d7ac38887338b3ea3229833b9c1e418250343f907bfd1047" "provider"
    "1970-01-01T00:00:00.000Z"
  [⟨.prepare sampleInput "1970-01-01T00:00:00.000Z", true⟩, ⟨attach, true⟩, ⟨attach, false⟩]

def sampleStore : DeliveryStore where
  parts _ := none
  deliveries := sampleDeliveries
  approvals _ := none

/-- The part is attached by one of the callers. -/
theorem one_caller_attaches :
    ∃ store, Run (DeliveryStore.Step sampleRuntime) sampleStore sampleEvents store ∧
      sampleEvents.countP (·.dispatches samplePartId) ≤ 1 := by
  have hrun := Run.of_next (step_next sampleRuntime) sampleStore sampleEvents (by decide +kernel)
  exact ⟨_, hrun, (parts_dispatched_once hrun samplePartId).1⟩

end GoatCitadel.Storage.ChannelDeliveryParts
