import GoatCitadel.Storage.EffectClaims
import GoatCitadel.Support.StableSort

/-!
# The chain of observability

A batch of deliveries of an approval is appended to the envelopes that the approval has:
each new envelope takes the next index, names the one before it and is dated after it.
The index and the date go on from the last envelope that can be read back.  An envelope
whose operation is blank is stored, but not read back, so that the batch after it starts
again from its place.
-/

namespace GoatCitadel.Storage.ApprovalEffects

open GoatCitadel.Support
open GoatCitadel.Policy (JsonObject)

/-! ## Envelopes -/

structure ObservabilityItem where
  operationId : String
  delivery : JsonObject

structure ObservabilityBatch where
  approvalId : String
  occurredAt : String
  attribution : Option JsonObject := none
  items : List ObservabilityItem

/-- What the calls read of an envelope. -/
structure ObservabilityEnvelope where
  deliveryId : String
  orderIndex : Int
  payload : EffectPayload

def envelopeVersion : String :=
  "approval_observability.v1"

def buildApprovalObservabilityDeliveryId (approvalId operationId : String) : String :=
  "approval-observability:" ++ approvalId ++ ":" ++ operationId

def readStoredApprovalObservabilityEnvelope (payload : EffectPayload) :
    Option ObservabilityEnvelope :=
  match payload.deliveryId, payload.operationId, payload.orderIndex with
  | some deliveryId, some operationId, some orderIndex =>
      if payload.schemaVersion ≠ some envelopeVersion || trim deliveryId = "" ||
          trim operationId = "" || payload.occurredAt.isNone || orderIndex < 1 ||
          payload.delivery.isNone then none
      else some { deliveryId, orderIndex, payload }
  | _, _, _ => none

/-! ## Batches -/

section

variable (runtime : EffectRuntime)

def listByApproval (approvalId : String) (effects : List ApprovalEffect) :
    List ApprovalEffect :=
  (effects.filter (·.approvalId = approvalId)).insertionSort fun a b =>
    createdLe runtime a b = true

/-- The entry of the highest index, among those that can be read. -/
def latestEntry (approvalId : String) (effects : List ApprovalEffect) :
    Option (ApprovalEffect × ObservabilityEnvelope) :=
  ((((listByApproval runtime approvalId effects).filter
      (·.effectKind = .approvalObservability)).filterMap fun effect =>
        (readStoredApprovalObservabilityEnvelope effect.payload).map (effect, ·)).insertionSort
    fun left right => left.2.orderIndex ≤ right.2.orderIndex).getLast?

/-- Where a batch has come to. -/
structure BatchCursor where
  effects : List ApprovalEffect
  orderIndex : Int
  predecessorDeliveryId : Option String
  nextCreatedAtMs : Int
  upserted : List ApprovalEffect := []

/-- What a batch takes from its surroundings: `Date.now()`, the time that `upsert` would
fall back to, and the identifiers that it draws. -/
structure BatchHost where
  dateNow : Int
  nowIso : String
  randomId : Nat → String

def startCursor (batch : ObservabilityBatch) (host : BatchHost)
    (effects : List ApprovalEffect) : BatchCursor :=
  let latest := latestEntry runtime batch.approvalId effects
  let occurredAtMs := (runtime.parse batch.occurredAt).getD host.dateNow
  { effects
    orderIndex := ((latest.map (·.2.orderIndex)).getD 0) + 1
    predecessorDeliveryId := latest.map (·.2.deliveryId)
    nextCreatedAtMs :=
      match latest.bind fun entry => runtime.parse entry.1.createdAt with
      | some latestCreatedAtMs => max occurredAtMs (latestCreatedAtMs + 1)
      | none => occurredAtMs }

/-- The payload of an envelope that is not stored yet. -/
def newEnvelope (batch : ObservabilityBatch) (item : ObservabilityItem) (cursor : BatchCursor) :
    EffectPayload :=
  { schemaVersion := some envelopeVersion
    deliveryId := some (buildApprovalObservabilityDeliveryId batch.approvalId item.operationId)
    operationId := some item.operationId
    occurredAt := some batch.occurredAt
    orderIndex := some cursor.orderIndex
    predecessorDeliveryId := cursor.predecessorDeliveryId
    attribution := batch.attribution
    delivery := some item.delivery }

def observabilityUpsert (batch : ObservabilityBatch) (item : ObservabilityItem)
    (payload : EffectPayload) (createdAt : Option String) : UpsertInput :=
  { approvalId := batch.approvalId
    effectKind := .approvalObservability
    targetKind := .approval
    targetId := item.operationId
    idempotencyKey := buildApprovalObservabilityDeliveryId batch.approvalId item.operationId
    payload := some payload
    createdAt
    updatedAt := createdAt }

/-- One round of the loop over the items. -/
def upsertItem (batch : ObservabilityBatch) (host : BatchHost) (cursor : BatchCursor)
    (item : ObservabilityItem) : Except EffectError BatchCursor :=
  let deliveryId := buildApprovalObservabilityDeliveryId batch.approvalId item.operationId
  let existing := getByIdempotencyKey deliveryId cursor.effects
  match runtime.toISOString cursor.nextCreatedAtMs with
  | none => .error .timeOutOfRange
  | some createdAt =>
      match existing.bind (readStoredApprovalObservabilityEnvelope ·.payload) with
      | some envelope => do
          let (effect, effects) ← upsert runtime
            (observabilityUpsert batch item
              { envelope.payload with delivery := some item.delivery } none)
            (host.randomId cursor.upserted.length) host.nowIso cursor.effects
          .ok { cursor with effects, upserted := cursor.upserted ++ [effect] }
      | none => do
          let (effect, effects) ← upsert runtime
            (observabilityUpsert batch item (newEnvelope batch item cursor) (some createdAt))
            (host.randomId cursor.upserted.length) host.nowIso cursor.effects
          .ok { effects
                orderIndex := cursor.orderIndex + 1
                predecessorDeliveryId := some deliveryId
                nextCreatedAtMs := cursor.nextCreatedAtMs + 1
                upserted := cursor.upserted ++ [effect] }

/-- The transaction of a batch.  `approvalLocked` says that the row of the approval was
locked; a database that locks none has locked it. -/
def upsertObservabilityBatch (batch : ObservabilityBatch) (host : BatchHost)
    (approvalLocked : Bool) (effects : List ApprovalEffect) :
    Except EffectError (List ApprovalEffect × List ApprovalEffect) := do
  if !approvalLocked then throw (.approvalNotFound batch.approvalId)
  let cursor ← batch.items.foldlM (upsertItem runtime batch host)
    (startCursor runtime batch host effects)
  .ok (cursor.upserted, cursor.effects)

/-! ## Runs -/

/-- A batch, or a step of a worker on the same table. -/
inductive ChainEvent
  | batch (batch : ObservabilityBatch) (host : BatchHost) (approvalLocked : Bool)
  | worker (event : EffectEvent)

/-- A batch that throws is rolled back.  Workers insert no envelopes. -/
inductive ChainStep : List ApprovalEffect → ChainEvent → List ApprovalEffect → Prop
  | committed {effects after upserted : List ApprovalEffect} {batch : ObservabilityBatch}
      {host : BatchHost} {approvalLocked : Bool}
      (hbatch : upsertObservabilityBatch runtime batch host approvalLocked effects =
        .ok (upserted, after)) :
      ChainStep effects (.batch batch host approvalLocked) after
  | rolledBack {effects : List ApprovalEffect} {batch : ObservabilityBatch}
      {host : BatchHost} {approvalLocked : Bool} {error : EffectError}
      (hbatch : upsertObservabilityBatch runtime batch host approvalLocked effects =
        .error error) :
      ChainStep effects (.batch batch host approvalLocked) effects
  | worked {store store' : EffectStore} {event : EffectEvent}
      (hstep : store.Step runtime event store')
      (hkind : ∀ effect, event.2 = .inserted effect →
        effect.effectKind ≠ .approvalObservability) :
      ChainStep store.effects (.worker event) store'.effects

end

/-- The envelopes of an approval, in the order of their insertion. -/
def envelopesOf (approvalId : String) (effects : List ApprovalEffect) : List ApprovalEffect :=
  effects.filter fun effect =>
    effect.approvalId = approvalId && effect.effectKind = .approvalObservability

/-- The envelopes are one ordered chain, with one envelope for each operation. -/
structure IsOrderedChain (runtime : EffectRuntime) (envelopes : List ApprovalEffect) :
    Prop where
  orderIndex : ∀ (i : Nat) (envelope : ApprovalEffect), envelopes[i]? = some envelope →
    envelope.payload.orderIndex = some ((i : Int) + 1)
  predecessor : ∀ (i : Nat) (earlier later : ApprovalEffect), envelopes[i]? = some earlier →
    envelopes[i + 1]? = some later →
      ∃ deliveryId, earlier.payload.deliveryId = some deliveryId ∧
        later.payload.predecessorDeliveryId = some deliveryId
  createdAt : envelopes.Pairwise fun earlier later => ∃ before after,
    runtime.parse earlier.createdAt = some before ∧
      runtime.parse later.createdAt = some after ∧ before < after
  operations : (envelopes.map (·.payload.operationId)).Nodup

/-- The operations of a batch have identifiers. -/
def ChainEvent.Identified : ChainEvent → Prop
  | .batch submitted _ _ => ∀ item ∈ submitted.items, trim item.operationId ≠ ""
  | .worker _ => True

/-! ## Links -/

section

variable {runtime : EffectRuntime} {approvalId : String} {effects after rows : List ApprovalEffect}
  {row : ApprovalEffect} {batch : ObservabilityBatch}

/-- An envelope that goes on from those before it. -/
structure IsLinked (runtime : EffectRuntime) (approvalId : String)
    (earlier : List ApprovalEffect) (row : ApprovalEffect) : Prop where
  key : row.idempotencyKey = buildApprovalObservabilityDeliveryId approvalId row.targetId
  readable : ∃ envelope, readStoredApprovalObservabilityEnvelope row.payload = some envelope ∧
    envelope.deliveryId = buildApprovalObservabilityDeliveryId approvalId row.targetId ∧
    envelope.orderIndex = (earlier.length : Int) + 1
  operation : row.payload.operationId = some row.targetId
  predecessor : row.payload.predecessorDeliveryId = earlier.getLast?.map fun before =>
    buildApprovalObservabilityDeliveryId approvalId before.targetId
  dated : ∃ ms, runtime.parse row.createdAt = some ms ∧
    ∀ other ∈ earlier, ∃ before, runtime.parse other.createdAt = some before ∧ before < ms
  fresh : ∀ other ∈ earlier, other.targetId ≠ row.targetId

/-- Envelopes each of which is linked to those before it. -/
inductive Chained (runtime : EffectRuntime) (approvalId : String) : List ApprovalEffect → Prop
  | nil : Chained runtime approvalId []
  | snoc {rows : List ApprovalEffect} {row : ApprovalEffect}
      (hrows : Chained runtime approvalId rows) (hrow : IsLinked runtime approvalId rows row) :
      Chained runtime approvalId (rows ++ [row])

theorem readStored_eq_some {payload : EffectPayload} {envelope : ObservabilityEnvelope}
    (h : readStoredApprovalObservabilityEnvelope payload = some envelope) :
    payload.deliveryId = some envelope.deliveryId ∧
      payload.orderIndex = some envelope.orderIndex ∧ envelope.payload = payload := by
  unfold readStoredApprovalObservabilityEnvelope at h
  split at h
  · next hdelivery _ hindex =>
      split at h
      · cases h
      · obtain rfl := Option.some.inj h
        exact ⟨hdelivery, hindex, rfl⟩
  · cases h

theorem Chained.getElem (h : Chained runtime approvalId rows) {i : Nat}
    (hrow : rows[i]? = some row) :
    IsLinked runtime approvalId (rows.take i) row := by
  induction h with
  | nil => simp at hrow
  | @snoc rows last _ hlast ih =>
      by_cases hlt : i < rows.length
      · rw [List.getElem?_append_left hlt] at hrow
        rw [List.take_append_of_le_length hlt.le]
        exact ih hrow
      · rw [List.getElem?_append_right (Nat.le_of_not_lt hlt)] at hrow
        have hzero : i - rows.length = 0 := by
          have hbound := (List.getElem?_eq_some_iff.mp hrow).1
          rw [List.length_singleton] at hbound
          omega
        rw [hzero] at hrow
        obtain rfl : last = row := Option.some.inj hrow
        rw [List.take_append_of_le_length (by omega), List.take_of_length_le (by omega)]
        exact hlast

/-- A chain of links is what the envelopes are to be. -/
theorem Chained.isOrderedChain (h : Chained runtime approvalId rows) :
    IsOrderedChain runtime rows where
  orderIndex i envelope henvelope := by
    obtain ⟨read, hread, -, hindex⟩ := (h.getElem henvelope).readable
    rw [(readStored_eq_some hread).2.1, hindex, List.length_take_of_le]
    exact (List.getElem?_eq_some_iff.mp henvelope).1.le
  predecessor i earlier later hearlier hlater := by
    obtain ⟨read, hread, hdelivery, -⟩ := (h.getElem hearlier).readable
    refine ⟨_, hdelivery ▸ (readStored_eq_some hread).1, ?_⟩
    rw [(h.getElem hlater).predecessor, List.getLast?_take, Nat.add_sub_cancel, hearlier]
    simp
  createdAt := by
    induction h with
    | nil => exact .nil
    | snoc _ hrow ih =>
        refine List.pairwise_append.mpr ⟨ih, List.pairwise_singleton _ _, ?_⟩
        obtain ⟨ms, hms, hbefore⟩ := hrow.dated
        intro earlier hearlier later hlater
        obtain rfl := List.mem_singleton.mp hlater
        obtain ⟨before, hparse, hlt⟩ := hbefore earlier hearlier
        exact ⟨before, ms, hparse, hms, hlt⟩
  operations := by
    induction h with
    | nil => exact List.nodup_nil
    | @snoc rows row hrows hrow ih =>
        refine nodup_map_append_singleton ih fun other hother heq => ?_
        obtain ⟨i, hi⟩ := List.getElem?_of_mem hother
        rw [(hrows.getElem hi).operation, hrow.operation] at heq
        exact hrow.fresh other hother (Option.some.inj heq)

theorem Chained.linked_last {last : ApprovalEffect} (h : Chained runtime approvalId rows)
    (hlast : rows.getLast? = some last) :
    ∃ init, rows = init ++ [last] ∧ IsLinked runtime approvalId init last := by
  cases h with
  | nil => cases hlast
  | @snoc rows row hrows hrow =>
      rw [List.getLast?_concat] at hlast
      obtain rfl := Option.some.inj hlast
      exact ⟨rows, rfl, hrow⟩

theorem mem_envelopesOf :
    row ∈ envelopesOf approvalId effects ↔
      row ∈ effects ∧ row.approvalId = approvalId ∧
        row.effectKind = .approvalObservability := by
  simp [envelopesOf]

/-- The entries that a batch looks through are those of the envelopes. -/
theorem mem_entries {entry : ApprovalEffect × ObservabilityEnvelope} :
    entry ∈ ((listByApproval runtime approvalId effects).filter
        (·.effectKind = .approvalObservability)).filterMap (fun effect =>
          (readStoredApprovalObservabilityEnvelope effect.payload).map (effect, ·)) ↔
      entry.1 ∈ envelopesOf approvalId effects ∧
        readStoredApprovalObservabilityEnvelope entry.1.payload = some entry.2 := by
  obtain ⟨row, envelope⟩ := entry
  rw [List.mem_filterMap, mem_envelopesOf]
  constructor
  · rintro ⟨effect, heffect, hread⟩
    obtain ⟨hlisted, hkind⟩ := List.mem_filter.mp heffect
    obtain ⟨found, hfound, heq⟩ := Option.map_eq_some_iff.mp hread
    obtain ⟨rfl, rfl⟩ := Prod.mk.inj heq
    rw [listByApproval, (List.perm_insertionSort _ _).mem_iff] at hlisted
    obtain ⟨hmem, happroval⟩ := List.mem_filter.mp hlisted
    exact ⟨⟨hmem, of_decide_eq_true happroval, of_decide_eq_true hkind⟩, hfound⟩
  · rintro ⟨⟨hmem, happroval, hkind⟩, hread⟩
    refine ⟨row, List.mem_filter.mpr ⟨?_, decide_eq_true hkind⟩, by rw [hread]; rfl⟩
    rw [listByApproval, (List.perm_insertionSort _ _).mem_iff]
    exact List.mem_filter.mpr ⟨hmem, decide_eq_true happroval⟩

/-- The latest entry of a chain is its last envelope. -/
theorem latestEntry_of_chained (h : Chained runtime approvalId (envelopesOf approvalId effects))
    {last : ApprovalEffect} (hlast : (envelopesOf approvalId effects).getLast? = some last) :
    ∃ envelope, latestEntry runtime approvalId effects = some (last, envelope) ∧
      envelope.deliveryId = buildApprovalObservabilityDeliveryId approvalId last.targetId ∧
      envelope.orderIndex = (envelopesOf approvalId effects).length := by
  obtain ⟨init, hinit, hlinked⟩ := h.linked_last hlast
  obtain ⟨envelope, hread, hdelivery, hindex⟩ := hlinked.readable
  have hlength : (envelopesOf approvalId effects).length = init.length + 1 := by
    rw [hinit, List.length_append, List.length_singleton]
  refine ⟨envelope, ?_, hdelivery, by rw [hindex, hlength]; rfl⟩
  refine getLast?_insertionSort_of_max (fun a b => Int.le_total _ _)
    (fun a b c => Int.le_trans) (mem_entries.mpr ⟨List.mem_of_getLast? hlast, hread⟩) ?_
  rintro ⟨row, other⟩ hmem hle
  obtain ⟨hrow, hother⟩ := mem_entries.mp hmem
  dsimp only at hrow hother hle
  -- Only the last envelope has an index as high as that.
  obtain ⟨i, hi⟩ := List.getElem?_of_mem hrow
  obtain ⟨again, hagain, -, hindex'⟩ := (h.getElem hi).readable
  obtain rfl : other = again := Option.some.inj (hother.symm.trans hagain)
  have hbound := (List.getElem?_eq_some_iff.mp hi).1
  rw [hindex, hindex', List.length_take_of_le hbound.le] at hle
  have hi' : i = init.length := by omega
  rw [hinit, hi', List.getElem?_append_right (Nat.le_refl _), Nat.sub_self] at hi
  obtain rfl : last = row := Option.some.inj hi
  rw [Option.some.inj (hread.symm.trans hother)]

theorem latestEntry_of_nil (h : envelopesOf approvalId effects = []) :
    latestEntry runtime approvalId effects = none := by
  unfold latestEntry
  have hnone : ((listByApproval runtime approvalId effects).filter
      (·.effectKind = .approvalObservability)).filterMap (fun effect =>
        (readStoredApprovalObservabilityEnvelope effect.payload).map (effect, ·)) = [] := by
    refine List.eq_nil_iff_forall_not_mem.mpr fun entry hentry => ?_
    exact List.not_mem_nil (h ▸ (mem_entries.mp hentry).1)
  rw [hnone]
  rfl

/-! ## Items -/

theorem insertEffect_of_key {effect : ApprovalEffect} (hrow : row ∈ effects)
    (hkey : row.idempotencyKey = effect.idempotencyKey) : insertEffect effect effects = .ok none :=
  if_pos (List.any_eq_true.mpr ⟨row, hrow, decide_eq_true hkey⟩)

theorem insertEffect_of_new {effect : ApprovalEffect} {inserted : Option (List ApprovalEffect)}
    (hnew : ∀ row ∈ effects, row.idempotencyKey ≠ effect.idempotencyKey)
    (h : insertEffect effect effects = .ok inserted) :
    inserted = some (effects ++ [effect]) ∧ ∀ row ∈ effects, row.effectId ≠ effect.effectId := by
  have hkey : ¬(effects.any (·.idempotencyKey = effect.idempotencyKey)) = true := by
    rw [List.any_eq_true]
    rintro ⟨row, hrow, heq⟩
    exact hnew row hrow (of_decide_eq_true heq)
  have hinserted : inserted = some (effects ++ [effect]) := by
    rw [insertEffect, if_neg hkey] at h
    split at h
    · cases h
    · exact (Except.ok.inj h).symm
  exact ⟨hinserted, (insertEffect_eq_some (hinserted ▸ h)).2⟩

/-- An upsert finds a row of its key, which is the one it asks for, or appends one. -/
theorem upsert_eq_ok {input : UpsertInput} {randomId nowIso : String} {persisted : ApprovalEffect}
    (h : upsert runtime input randomId nowIso effects = .ok (persisted, after)) :
    (∃ row, getByIdempotencyKey input.idempotencyKey effects = some row ∧ after = effects ∧
      row.approvalId = input.approvalId ∧ row.effectKind = input.effectKind) ∨
    (getByIdempotencyKey input.idempotencyKey effects = none ∧
      after = effects ++ [upsertedEffect input none randomId nowIso] ∧
      ∀ row ∈ effects, row.effectId ≠ randomId) := by
  obtain ⟨inserted, hinsert, hrest⟩ := bind_eq_ok.mp h
  obtain ⟨_, hassert, hok⟩ := bind_eq_ok.mp hrest
  obtain ⟨-, rfl⟩ := ok_pair_inj hok
  by_cases hexisting : getByIdempotencyKey input.idempotencyKey effects = none
  · rw [hexisting] at hinsert
    have hnew : ∀ row ∈ effects, row.idempotencyKey ≠ input.idempotencyKey :=
      find?_key_eq_none.mp hexisting
    obtain ⟨rfl, hid⟩ := insertEffect_of_new hnew hinsert
    exact .inr ⟨hexisting, rfl, hid⟩
  · obtain ⟨row, hrow⟩ := Option.ne_none_iff_exists'.mp hexisting
    obtain ⟨hmem, hkey⟩ := mem_of_find?_key hrow
    have hnone : insertEffect (upsertedEffect input (some row) randomId nowIso) effects =
        .ok none := insertEffect_of_key hmem hkey
    rw [hrow, hnone] at hinsert
    obtain rfl := Except.ok.inj hinsert
    rw [Option.getD_none, hrow, Option.getD_some] at hassert
    unfold assertApprovalEffectIdempotencyMatch at hassert
    split at hassert
    · next hmatch =>
        simp only [Bool.and_eq_true, decide_eq_true_eq] at hmatch
        exact .inl ⟨row, hrow, rfl, hmatch.1.1.1.1, hmatch.1.1.1.2⟩
    · cases hassert

theorem trim_deliveryId (operationId : String) :
    trim (buildApprovalObservabilityDeliveryId approvalId operationId) ≠ "" := by
  intro h
  have hlist := toList_trim (buildApprovalObservabilityDeliveryId approvalId operationId)
  rw [h] at hlist
  unfold buildApprovalObservabilityDeliveryId at hlist
  rw [String.toList_append, String.toList_append, String.toList_append] at hlist
  have hnil := List.rdropWhile_eq_nil_iff.mp hlist.symm 'a' (by simp [isTrimmed])
  exact absurd hnil (by decide)

/-- A cursor that goes on from the envelopes of its approval. -/
structure CursorFits (runtime : EffectRuntime) (approvalId : String) (cursor : BatchCursor) :
    Prop where
  ids : (cursor.effects.map (·.effectId)).Nodup
  chained : ∀ other, Chained runtime other (envelopesOf other cursor.effects)
  orderIndex : cursor.orderIndex = ((envelopesOf approvalId cursor.effects).length : Int) + 1
  predecessor : cursor.predecessorDeliveryId =
    (envelopesOf approvalId cursor.effects).getLast?.map fun before =>
      buildApprovalObservabilityDeliveryId approvalId before.targetId
  dated : ∀ row ∈ envelopesOf approvalId cursor.effects, ∃ ms,
    runtime.parse row.createdAt = some ms ∧ ms < cursor.nextCreatedAtMs

theorem startCursor_fits {host : BatchHost} (hids : (effects.map (·.effectId)).Nodup)
    (h : ∀ approvalId, Chained runtime approvalId (envelopesOf approvalId effects)) :
    CursorFits runtime batch.approvalId (startCursor runtime batch host effects) := by
  by_cases hempty : envelopesOf batch.approvalId effects = []
  · have hnone : latestEntry runtime batch.approvalId effects = none :=
      latestEntry_of_nil hempty
    refine ⟨hids, h, ?_, ?_, ?_⟩
    · simp [startCursor, hnone, hempty]
    · simp [startCursor, hnone, hempty]
    · simp [startCursor, hempty]
  · obtain ⟨last, hlast⟩ := Option.ne_none_iff_exists'.mp
      (mt List.getLast?_eq_none_iff.mp hempty)
    obtain ⟨envelope, hlatest, hdelivery, hindex⟩ :=
      latestEntry_of_chained (h batch.approvalId) hlast
    obtain ⟨init, hinit, hlinked⟩ := (h batch.approvalId).linked_last hlast
    obtain ⟨ms, hms, hbefore⟩ := hlinked.dated
    have hnext : ms < (startCursor runtime batch host effects).nextCreatedAtMs := by
      have hlater := Int.le_max_right ((runtime.parse batch.occurredAt).getD host.dateNow) (ms + 1)
      simp only [startCursor, hlatest, Option.bind_some, hms]
      omega
    refine ⟨hids, h, ?_, ?_, ?_⟩
    · simp [startCursor, hlatest, hindex]
    · simp [startCursor, hlatest, hdelivery, hlast]
    · intro row hrow
      have hrow' : row ∈ init ++ [last] := hinit ▸ hrow
      rcases List.mem_append.mp hrow' with hinitial | hsame
      · obtain ⟨before, hparse, hlt⟩ := hbefore row hinitial
        exact ⟨before, hparse, hlt.trans hnext⟩
      · rw [List.mem_singleton.mp hsame]
        exact ⟨ms, hms, hnext⟩

theorem envelopesOf_append :
    envelopesOf approvalId (effects ++ [row]) = envelopesOf approvalId effects ++
      if row.approvalId = approvalId ∧ row.effectKind = .approvalObservability then [row]
      else [] := by
  unfold envelopesOf
  rw [List.filter_append]
  congr 1
  by_cases h : row.approvalId = approvalId ∧ row.effectKind = .approvalObservability
  · simp [h]
  · rw [if_neg h]
    simpa using h

/-- The envelope that an item appends. -/
def appendedEffect (batch : ObservabilityBatch) (item : ObservabilityItem)
    (cursor : BatchCursor) (createdAt randomId nowIso : String) : ApprovalEffect :=
  upsertedEffect
    (observabilityUpsert batch item (newEnvelope batch item cursor) (some createdAt)) none
    randomId nowIso

theorem readStored_newEnvelope {item : ObservabilityItem} {cursor : BatchCursor}
    (hitem : trim item.operationId ≠ "") (hindex : 1 ≤ cursor.orderIndex) :
    readStoredApprovalObservabilityEnvelope (newEnvelope batch item cursor) =
      some { deliveryId := buildApprovalObservabilityDeliveryId batch.approvalId item.operationId
             orderIndex := cursor.orderIndex, payload := newEnvelope batch item cursor } := by
  have hdelivery := @trim_deliveryId batch.approvalId item.operationId
  simp [readStoredApprovalObservabilityEnvelope, newEnvelope, hdelivery, hitem, hindex]

section Appended

variable {batch : ObservabilityBatch} {item : ObservabilityItem} {cursor : BatchCursor}
  {createdAt randomId nowIso : String}
  (hfits : CursorFits runtime batch.approvalId cursor) (hitem : trim item.operationId ≠ "")
  (hcreated : runtime.toISOString cursor.nextCreatedAtMs = some createdAt)
  (hnew : getByIdempotencyKey
    (buildApprovalObservabilityDeliveryId batch.approvalId item.operationId) cursor.effects =
      none)

include hfits hitem hcreated hnew

theorem appendedEffect_linked :
    IsLinked runtime batch.approvalId (envelopesOf batch.approvalId cursor.effects)
      (appendedEffect batch item cursor createdAt randomId nowIso) where
  key := rfl
  readable := by
    refine ⟨_, readStored_newEnvelope hitem ?_, rfl, hfits.orderIndex⟩
    rw [hfits.orderIndex]
    omega
  operation := rfl
  predecessor := hfits.predecessor
  dated := ⟨cursor.nextCreatedAtMs, runtime.parse_toISOString hcreated, hfits.dated⟩
  fresh := by
    intro other hother heq
    obtain ⟨i, hi⟩ := List.getElem?_of_mem hother
    have hkey := ((hfits.chained batch.approvalId).getElem hi).key
    have hnone : ∀ row ∈ cursor.effects, row.idempotencyKey ≠
        buildApprovalObservabilityDeliveryId batch.approvalId item.operationId :=
      find?_key_eq_none.mp hnew
    refine hnone other (mem_envelopesOf.mp hother).1 (hkey.trans ?_)
    rw [heq]
    rfl

theorem append_fits {upserted : List ApprovalEffect}
    (hid : ∀ row ∈ cursor.effects, row.effectId ≠ randomId) :
    CursorFits runtime batch.approvalId
      { effects := cursor.effects ++ [appendedEffect batch item cursor createdAt randomId nowIso]
        orderIndex := cursor.orderIndex + 1
        predecessorDeliveryId :=
          some (buildApprovalObservabilityDeliveryId batch.approvalId item.operationId)
        nextCreatedAtMs := cursor.nextCreatedAtMs + 1
        upserted } := by
  have hlinked : IsLinked runtime batch.approvalId (envelopesOf batch.approvalId cursor.effects)
      (appendedEffect batch item cursor createdAt randomId nowIso) :=
    appendedEffect_linked hfits hitem hcreated hnew
  have hown : envelopesOf batch.approvalId
      (cursor.effects ++ [appendedEffect batch item cursor createdAt randomId nowIso]) =
        envelopesOf batch.approvalId cursor.effects ++
          [appendedEffect batch item cursor createdAt randomId nowIso] := by
    rw [envelopesOf_append, if_pos ⟨rfl, rfl⟩]
  refine ⟨nodup_map_append_singleton hfits.ids hid, fun other => ?_, ?_, ?_, ?_⟩
  · by_cases hother : batch.approvalId = other
    · subst hother
      rw [hown]
      exact .snoc (hfits.chained _) hlinked
    · rw [envelopesOf_append, if_neg (fun h => hother h.1), List.append_nil]
      exact hfits.chained other
  · dsimp only
    rw [hown, hfits.orderIndex, List.length_append, List.length_singleton]
    push_cast
    rfl
  · dsimp only
    rw [hown, List.getLast?_concat]
    rfl
  · dsimp only
    rw [hown]
    refine forall_mem_append_singleton (fun row hrow => ?_) ?_
    · obtain ⟨ms, hms, hlt⟩ := hfits.dated row hrow
      exact ⟨ms, hms, hlt.trans (Int.lt_succ _)⟩
    · exact ⟨_, runtime.parse_toISOString hcreated, Int.lt_succ _⟩

end Appended

/-- A round of the loop keeps the cursor at the end of the chain. -/
theorem upsertItem_fits {host : BatchHost} {cursor cursor' : BatchCursor} {item : ObservabilityItem}
    (hitem : trim item.operationId ≠ "")
    (h : upsertItem runtime batch host cursor item = .ok cursor')
    (hfits : CursorFits runtime batch.approvalId cursor) :
    CursorFits runtime batch.approvalId cursor' := by
  unfold upsertItem at h
  dsimp only at h
  split at h
  · cases h
  next createdAt hcreated =>
    split at h
    · next envelope henvelope =>
        obtain ⟨⟨effect, effects⟩, hupsert, hok⟩ := bind_eq_ok.mp h
        obtain rfl := Except.ok.inj hok
        obtain ⟨row, -, rfl, -, -⟩ | ⟨hnone, -, -⟩ := upsert_eq_ok hupsert
        · exact ⟨hfits.ids, hfits.chained, hfits.orderIndex, hfits.predecessor, hfits.dated⟩
        · have hnone' : getByIdempotencyKey
              (buildApprovalObservabilityDeliveryId batch.approvalId item.operationId)
              cursor.effects = none := hnone
          rw [hnone'] at henvelope
          cases henvelope
    · next hunread =>
        obtain ⟨⟨effect, effects⟩, hupsert, hok⟩ := bind_eq_ok.mp h
        obtain rfl := Except.ok.inj hok
        obtain ⟨row, hrow, -, happroval, hkind⟩ | ⟨hnone, rfl, hid⟩ := upsert_eq_ok hupsert
        -- A row of the chain could be read back.
        · exfalso
          have hmem : row ∈ envelopesOf batch.approvalId cursor.effects :=
            mem_envelopesOf.mpr ⟨(mem_of_find?_key hrow).1, happroval, hkind⟩
          obtain ⟨i, hi⟩ := List.getElem?_of_mem hmem
          obtain ⟨envelope, hread, -, -⟩ := ((hfits.chained _).getElem hi).readable
          have hrow' : getByIdempotencyKey
              (buildApprovalObservabilityDeliveryId batch.approvalId item.operationId)
              cursor.effects = some row := hrow
          rw [hrow', Option.bind_some, hread] at hunread
          cases hunread
        · exact append_fits hfits hitem hcreated hnone hid

theorem foldlM_fits {host : BatchHost} {items : List ObservabilityItem}
    {cursor cursor' : BatchCursor} (hitems : ∀ item ∈ items, trim item.operationId ≠ "")
    (h : items.foldlM (upsertItem runtime batch host) cursor = .ok cursor')
    (hfits : CursorFits runtime batch.approvalId cursor) :
    CursorFits runtime batch.approvalId cursor' := by
  induction items generalizing cursor with
  | nil =>
      obtain rfl := Except.ok.inj h
      exact hfits
  | cons item items ih =>
      rw [List.foldlM_cons] at h
      obtain ⟨next, hnext, hrest⟩ := bind_eq_ok.mp h
      exact ih (fun other hother => hitems other (List.mem_cons_of_mem _ hother)) hrest
        (upsertItem_fits (hitems item List.mem_cons_self) hnext hfits)

/-! ## Every run -/

/-- The table holds one chain for each approval. -/
structure HoldsChains (runtime : EffectRuntime) (effects : List ApprovalEffect) : Prop where
  ids : (effects.map (·.effectId)).Nodup
  chained : ∀ approvalId, Chained runtime approvalId (envelopesOf approvalId effects)

theorem batch_keeps_chains {host : BatchHost} {approvalLocked : Bool}
    {upserted : List ApprovalEffect} (hitems : ∀ item ∈ batch.items, trim item.operationId ≠ "")
    (hbatch : upsertObservabilityBatch runtime batch host approvalLocked effects =
      .ok (upserted, after)) (h : HoldsChains runtime effects) : HoldsChains runtime after := by
  unfold upsertObservabilityBatch at hbatch
  obtain ⟨-, hrest⟩ := guard_eq_ok.mp hbatch
  obtain ⟨cursor, hfold, hok⟩ := bind_eq_ok.mp hrest
  obtain ⟨-, rfl⟩ := ok_pair_inj hok
  have hfits := foldlM_fits hitems hfold (startCursor_fits h.ids h.chained)
  exact ⟨hfits.ids, hfits.chained⟩

/-- Links are about the columns that no update writes. -/
theorem IsLinked.congr {earlier earlier' : List ApprovalEffect} {row' : ApprovalEffect}
    (h : IsLinked runtime approvalId earlier row) (hrow : row.content = row'.content)
    (hearlier : earlier.map (·.content) = earlier'.map (·.content)) :
    IsLinked runtime approvalId earlier' row' := by
  have hlength : earlier.length = earlier'.length := by
    rw [← List.length_map, hearlier, List.length_map]
  have htarget : ∀ a b : ApprovalEffect, a.content = b.content → a.targetId = b.targetId :=
    fun a b hab => congrArg (·.2.2.1) hab
  have hlast : earlier.getLast?.map (·.targetId) = earlier'.getLast?.map (·.targetId) := by
    have hmap := congrArg (fun contents => contents.getLast?.map (·.2.2.1)) hearlier
    simpa [ApprovalEffect.content, Function.comp_def] using hmap
  have hsource : ∀ other ∈ earlier', ∃ before ∈ earlier, before.content = other.content := by
    intro other hother
    have hmem : other.content ∈ earlier.map (·.content) :=
      hearlier ▸ List.mem_map_of_mem hother
    exact List.mem_map.mp hmem
  obtain ⟨hkey, ⟨envelope, hread, hdelivery, hindex⟩, hoperation, hpredecessor, ⟨ms, hms,
    hbefore⟩, hfresh⟩ := h
  obtain ⟨-, -, hsameTarget, hsameKey, hsamePayload, hsameCreated⟩ :
      row.approvalId = row'.approvalId ∧ row.effectKind = row'.effectKind ∧
        row.targetId = row'.targetId ∧ row.idempotencyKey = row'.idempotencyKey ∧
          row.payload = row'.payload ∧ row.createdAt = row'.createdAt := by
    simpa [ApprovalEffect.content] using hrow
  rw [hsameKey, hsameTarget] at hkey
  rw [hsamePayload] at hread
  rw [hsameTarget] at hdelivery
  rw [hsamePayload, hsameTarget] at hoperation
  rw [hsamePayload] at hpredecessor
  rw [hsameCreated] at hms
  refine ⟨hkey, ⟨envelope, hread, hdelivery, hlength ▸ hindex⟩, hoperation, ?_, ⟨ms, hms, ?_⟩,
    ?_⟩
  · have hnames := congrArg (Option.map (buildApprovalObservabilityDeliveryId approvalId)) hlast
    rw [Option.map_map, Option.map_map] at hnames
    exact hpredecessor.trans hnames
  · intro other hother
    obtain ⟨before, hmem, hsame⟩ := hsource other hother
    obtain ⟨time, htime, hlt⟩ := hbefore before hmem
    have hcreated : before.createdAt = other.createdAt := congrArg (·.2.2.2.2.2) hsame
    exact ⟨time, hcreated ▸ htime, hlt⟩
  · intro other hother
    obtain ⟨before, hmem, hsame⟩ := hsource other hother
    rw [← htarget before other hsame, ← hsameTarget]
    exact hfresh before hmem

theorem Chained.congr {rows' : List ApprovalEffect} (h : Chained runtime approvalId rows)
    (hrows : rows.map (·.content) = rows'.map (·.content)) : Chained runtime approvalId rows' := by
  induction h generalizing rows' with
  | nil =>
      rw [List.map_nil] at hrows
      rw [List.map_eq_nil_iff.mp hrows.symm]
      exact .nil
  | snoc _ hrow ih =>
      rw [List.map_append] at hrows
      obtain ⟨init, lasts, rfl, hinit, hlasts⟩ := List.map_eq_append_iff.mp hrows.symm
      rw [List.map_singleton] at hlasts
      obtain ⟨last, rfl, hlast⟩ := List.map_eq_singleton_iff.mp hlasts
      exact .snoc (ih hinit.symm) (hrow.congr hlast.symm hinit.symm)

theorem envelopesOf_content (h : effects.map (·.content) = after.map (·.content)) :
    (envelopesOf approvalId effects).map (·.content) =
      (envelopesOf approvalId after).map (·.content) := by
  have hfilter : ∀ rows : List ApprovalEffect, (envelopesOf approvalId rows).map (·.content) =
      (rows.map (·.content)).filter fun content =>
        content.1 = approvalId && content.2.1 = .approvalObservability := by
    intro rows
    rw [List.filter_map]
    rfl
  rw [hfilter, hfilter, h]

theorem wrote_keeps_chains {event : EffectEvent} (hwrote : Wrote runtime effects event after)
    (hkind : ∀ effect, event.2 = .inserted effect →
      effect.effectKind ≠ .approvalObservability) (h : HoldsChains runtime effects) :
    HoldsChains runtime after := by
  refine ⟨hwrote.ids h.ids, fun approvalId => ?_⟩
  cases hwrote with
  | nothing => exact h.chained approvalId
  | @inserted call effect _ _ =>
      rw [envelopesOf_append, if_neg (fun hboth => hkind effect rfl hboth.2), List.append_nil]
      exact h.chained approvalId
  | @updated _ row row' hrow hrewrites =>
      refine (h.chained approvalId).congr (envelopesOf_content ?_)
      refine (map_updateRows_of_mem fun other hother hguard => ?_).symm
      have hsame := eq_of_key_eq h.ids hother hrow (of_decide_eq_true hguard)
      rw [hsame]
      exact hrewrites.content

/-- A step whose operations have identifiers keeps the chains. -/
theorem step_keeps_chains {event : ChainEvent} (hstep : ChainStep runtime effects event after)
    (hidentified : event.Identified) (h : HoldsChains runtime effects) :
    HoldsChains runtime after := by
  cases hstep with
  | committed hbatch => exact batch_keeps_chains hidentified hbatch h
  | rolledBack _ => exact h
  | worked hstep hkind => exact wrote_keeps_chains (step_stepped h.ids hstep).wrote hkind h

end

/-- The envelopes of every approval are one ordered chain in every run whose operations have
identifiers. -/
theorem observability_isOrderedChain (runtime : EffectRuntime) {events : List ChainEvent}
    {effects : List ApprovalEffect} (hrun : Run (ChainStep runtime) [] events effects)
    (hidentified : ∀ event ∈ events, event.Identified) (approvalId : String) :
    IsOrderedChain runtime (envelopesOf approvalId effects) := by
  have hstart : HoldsChains runtime [] := ⟨List.nodup_nil, fun _ => .nil⟩
  have hchains := Run.invariant_of_labels (I := HoldsChains runtime)
    (Q := ChainEvent.Identified)
    (fun _ _ _ hstep hevent hbefore => step_keeps_chains hstep hevent hbefore) hrun hidentified
    hstart
  exact (hchains.chained approvalId).isOrderedChain

/-! ## Two batches -/

def submitBatch (runtime : EffectRuntime) (effects : List ApprovalEffect)
    (submission : ObservabilityBatch × BatchHost) : List ApprovalEffect :=
  match upsertObservabilityBatch runtime submission.1 submission.2 true effects with
  | .ok (_, after) => after
  | .error _ => effects

def ChainEvent.ofSubmission (submission : ObservabilityBatch × BatchHost) : ChainEvent :=
  .batch submission.1 submission.2 true

theorem run_submitBatch (runtime : EffectRuntime) (effects : List ApprovalEffect)
    (submissions : List (ObservabilityBatch × BatchHost)) :
    Run (ChainStep runtime) effects (submissions.map .ofSubmission)
      (submissions.foldl (submitBatch runtime) effects) := by
  induction submissions generalizing effects with
  | nil => exact .nil effects
  | cons submission submissions ih =>
      refine .cons ?_ (ih (submitBatch runtime effects submission))
      unfold submitBatch
      split
      · next hbatch => exact .committed hbatch
      · next hbatch => exact .rolledBack hbatch

def auditDelivery : JsonObject :=
  [("kind", .string "audit"), ("stream", .string "approvals"), ("payload", .object [])]

/-- A batch of one operation, whose envelope gets an identifier. -/
def singleBatch (operationId occurredAt effectId : String) : ObservabilityBatch × BatchHost :=
  ({ approvalId := "approval", occurredAt, items := [{ operationId, delivery := auditDelivery }] },
    { dateNow := 0, nowIso := "1970-01-01T00:00:00.000Z", randomId := fun _ => effectId })

/-- After an envelope with a blank operation the next one takes its index. -/
theorem blankOperation_repeatsIndex :
    ¬∀ events effects, Run (ChainStep minuteRuntime) [] events effects →
      IsOrderedChain minuteRuntime (envelopesOf "approval" effects) := by
  intro h
  have hrun := run_submitBatch minuteRuntime []
    [singleBatch " " "1970-01-01T00:00:00.000Z" "effect-1",
      singleBatch "created" "1970-01-01T00:01:00.000Z" "effect-2"]
  have hindex := (h _ _ hrun).orderIndex 1
  have hsecond : ((envelopesOf "approval"
      ([singleBatch " " "1970-01-01T00:00:00.000Z" "effect-1",
        singleBatch "created" "1970-01-01T00:01:00.000Z" "effect-2"].foldl
          (submitBatch minuteRuntime) []))[1]?).map (·.payload.orderIndex) =
      some (some 1) := by
    decide +kernel
  obtain ⟨envelope, henvelope, hone⟩ := Option.map_eq_some_iff.mp hsecond
  exact absurd (hone.symm.trans (hindex envelope henvelope)) (by decide)

theorem namedOperations_chained :
    IsOrderedChain minuteRuntime (envelopesOf "approval"
      ([singleBatch "created" "1970-01-01T00:00:00.000Z" "effect-1",
        singleBatch "resolved" "1970-01-01T00:01:00.000Z" "effect-2"].foldl
          (submitBatch minuteRuntime) [])) := by
  refine observability_isOrderedChain minuteRuntime (run_submitBatch minuteRuntime []
    [singleBatch "created" "1970-01-01T00:00:00.000Z" "effect-1",
      singleBatch "resolved" "1970-01-01T00:01:00.000Z" "effect-2"]) ?_ "approval"
  refine List.forall_mem_cons.mpr ⟨?_, List.forall_mem_singleton.mpr ?_⟩
  · exact List.forall_mem_singleton.mpr (by decide +kernel)
  · exact List.forall_mem_singleton.mpr (by decide +kernel)

end GoatCitadel.Storage.ApprovalEffects
