import GoatCitadel.Storage.ModelUsage
import GoatCitadel.Support.Runs
import Mathlib.Algebra.Order.Ring.Rat
import Mathlib.Logic.Relation

/-!
# Usage is accounted once

A statement of the repository either writes events that are still open, or charges a
session for an event that has its outcome and was not charged before.  So an outcome, once
there, stays with its usage, and the totals of a session are what they were at first and
what the rows of the ledger add.
-/

namespace GoatCitadel.Storage.ModelUsage

open GoatCitadel.Support
open GoatCitadel.Contracts (FinalOutcome TerminalOutcome TransportStatus
  isModelUsageProvenNotDispatched)

/-! ## What an event keeps -/

/-- A transport that is not an intent stays as it is, and so do an outcome and its usage. -/
structure Kept (event event' : UsageEvent) : Prop where
  eventId : event'.eventId = event.eventId
  identity : event'.identity = event.identity
  transport : event.transportStatus ≠ .intent → event'.transportStatus = event.transportStatus
  outcome : event.terminalOutcome ≠ .inFlight →
    event'.terminalOutcome = event.terminalOutcome ∧ event'.usage = event.usage

theorem Kept.refl (event : UsageEvent) : Kept event event :=
  ⟨rfl, rfl, fun _ => rfl, fun _ => ⟨rfl, rfl⟩⟩

theorem Kept.trans {event event' event'' : UsageEvent} (h : Kept event event')
    (h' : Kept event' event'') : Kept event event'' where
  eventId := h'.eventId.trans h.eventId
  identity := h'.identity.trans h.identity
  transport := by
    intro hleft
    have hfirst := h.transport hleft
    rw [← hfirst] at hleft ⊢
    exact h'.transport hleft
  outcome := by
    intro hfinal
    obtain ⟨houtcome, husage⟩ := h.outcome hfinal
    rw [← houtcome] at hfinal
    obtain ⟨houtcome', husage'⟩ := h'.outcome hfinal
    exact ⟨houtcome'.trans houtcome, husage'.trans husage⟩

/-- Only an intent without an outcome can be abandoned. -/
def UsageEvent.Disposable (event : UsageEvent) : Prop :=
  event.transportStatus = .intent ∧ event.terminalOutcome = .inFlight

/-- What becomes of the events that are not abandoned. -/
def KeepsEvents (store store' : UsageStore) : Prop :=
  ∀ event ∈ store.events, ¬event.Disposable → ∃ event' ∈ store'.events, Kept event event'

theorem KeepsEvents.refl (store : UsageStore) : KeepsEvents store store :=
  fun event hevent _ => ⟨event, hevent, .refl event⟩

theorem KeepsEvents.trans {store store' store'' : UsageStore} (h : KeepsEvents store store')
    (h' : KeepsEvents store' store'') : KeepsEvents store store'' := by
  intro event hevent hkept
  obtain ⟨event', hevent', hfirst⟩ := h event hevent hkept
  have hstill : ¬event'.Disposable := by
    rintro ⟨hstatus, houtcome⟩
    apply hkept
    constructor
    · by_contra hleft
      rw [hfirst.transport hleft] at hstatus
      exact hleft hstatus
    · by_contra hfinal
      rw [(hfirst.outcome hfinal).1] at houtcome
      exact hfinal houtcome
  obtain ⟨event'', hevent'', hsecond⟩ := h' event' hevent' hstill
  exact ⟨event'', hevent'', hfirst.trans hsecond⟩

/-! ## What a session is charged -/

/-- The sum of an amount over the rows of a table. -/
def total {ρ α : Type} [Zero α] [Add α] (amount : ρ → α) (rows : List ρ) : α :=
  rows.foldr (fun row rest => amount row + rest) 0

theorem total_append_singleton {ρ α : Type} [AddCommMonoid α] (amount : ρ → α) (rows : List ρ)
    (row : ρ) : total amount (rows ++ [row]) = total amount rows + amount row := by
  induction rows with
  | nil => simp [total]
  | cons head rows ih =>
      unfold total at ih ⊢
      rw [List.cons_append, List.foldr_cons, List.foldr_cons, ih, add_assoc]

/-- The ledger rows of a session that carry a canonical usage event id. -/
def chargedTo (sessionId : String) (rows : List CostLedgerRow) : List CostLedgerRow :=
  rows.filter fun row => row.canonicalUsageEventId.isSome ∧ row.sessionId = sessionId

/-- A ledger row records the usage of an event that has its outcome. -/
structure ChargeOf (row : CostLedgerRow) (event : UsageEvent) : Prop where
  eventId : row.canonicalUsageEventId = some event.eventId
  sessionId : event.identity.sessionId = some row.sessionId
  outcome : event.terminalOutcome ≠ .inFlight
  tokenInput : row.tokenInput = event.usage.inputTokens.getD 0
  tokenOutput : row.tokenOutput = event.usage.outputTokens.getD 0
  tokenCachedInput : row.tokenCachedInput = event.usage.cachedInputTokens.getD 0
  costUsd : row.costUsd = event.usage.costUsd.getD 0

/-- The totals of a session are the initial ones and what the ledger adds. -/
structure ChargedBy (ledger : List CostLedgerRow) (initial session : SessionTotals) : Prop where
  sessionId : session.sessionId = initial.sessionId
  tokenInput : session.tokenInput =
    initial.tokenInput + total CostLedgerRow.tokenInput (chargedTo initial.sessionId ledger)
  tokenOutput : session.tokenOutput =
    initial.tokenOutput + total CostLedgerRow.tokenOutput (chargedTo initial.sessionId ledger)
  tokenCachedInput : session.tokenCachedInput = initial.tokenCachedInput +
    total CostLedgerRow.tokenCachedInput (chargedTo initial.sessionId ledger)
  tokenTotal : session.tokenTotal = initial.tokenTotal +
    (total CostLedgerRow.tokenInput (chargedTo initial.sessionId ledger) +
      total CostLedgerRow.tokenOutput (chargedTo initial.sessionId ledger))
  costUsdTotal : session.costUsdTotal =
    initial.costUsdTotal + total CostLedgerRow.costUsd (chargedTo initial.sessionId ledger)

/-- What is true of the tables at every moment of a run. -/
structure Accounted (start store : UsageStore) : Prop where
  ids : (store.events.map UsageEvent.eventId).Nodup
  distinct : (store.costLedger.filterMap CostLedgerRow.canonicalUsageEventId).Nodup
  charges : ∀ row ∈ store.costLedger, row.canonicalUsageEventId.isSome = true →
    ∃ event ∈ store.events, ChargeOf row event
  totals : List.Forall₂ (ChargedBy store.costLedger) start.sessions store.sessions

/-! ## What an event is listed by -/

theorem requireBoundedText_eq_ok_iff {value field text : String} {maxLength : Nat} :
    requireBoundedText value field maxLength = .ok text ↔
      trim value ≠ "" ∧ utf16Length (trim value) ≤ maxLength ∧ text = trim value := by
  unfold requireBoundedText requireText requireTrimmed
  by_cases hempty : trim value = ""
  · rw [if_pos hempty]
    constructor
    · intro h
      cases h
    · intro h
      exact absurd hempty h.1
  · rw [if_neg hempty]
    dsimp only [bind, Except.bind, pure, Except.pure]
    by_cases hlong : maxLength < utf16Length (trim value)
    · rw [if_pos hlong]
      constructor
      · intro h
        cases h
      · intro h
        exact absurd h.2.1 (Nat.not_le.mpr hlong)
    · rw [if_neg hlong]
      constructor
      · intro h
        exact ⟨hempty, Nat.not_lt.mp hlong, (Except.ok.inj h).symm⟩
      · rintro ⟨-, -, rfl⟩
        rfl

section Listable

variable {runtime : UsageRuntime}

/-- A canonical time is what its own text stands for. -/
theorem requireCanonicalIso_eq_ok_iff {value field text : String} :
    requireCanonicalIso runtime value field = .ok text ↔
      trim value ≠ "" ∧ utf16Length (trim value) ≤ 64 ∧ text = trim value ∧
        (runtime.dates.parse (trim value)).bind runtime.dates.toISOString =
          some (trim value) := by
  constructor
  · intro h
    obtain ⟨normalized, hbounded, h⟩ := bind_eq_ok.mp h
    obtain ⟨hset, hlength, rfl⟩ := requireBoundedText_eq_ok_iff.mp hbounded
    cases htext : (runtime.dates.parse (trim value)).bind runtime.dates.toISOString with
    | none =>
        rw [htext] at h
        cases h
    | some found =>
        simp only [htext] at h
        by_cases hsame : found = trim value
        · rw [if_pos hsame] at h
          exact ⟨hset, hlength, (Except.ok.inj h).symm, congrArg some hsame⟩
        · rw [if_neg hsame] at h
          cases h
  · rintro ⟨hset, hlength, rfl, htext⟩
    have hbounded : requireBoundedText value field 64 = .ok (trim value) :=
      requireBoundedText_eq_ok_iff.mpr ⟨hset, hlength, rfl⟩
    unfold requireCanonicalIso
    rw [hbounded]
    dsimp only [bind, Except.bind]
    rw [htext]
    exact if_pos rfl

/-- What `begin` has accepted of an event, and `mapRow` reads. -/
structure Listable (runtime : UsageRuntime) (row : UsageEvent) : Prop where
  eventId : requireBoundedText row.eventId "eventId" 512 = .ok row.eventId
  startedAt : requireCanonicalIso runtime row.startedAt "startedAt" = .ok row.startedAt
  mapped : mapRow row = .ok row

/-- The checked texts of a normalized input. -/
structure Begun (runtime : UsageRuntime) (normalized : NormalizedBegin) : Prop where
  eventId : requireBoundedText normalized.eventId "eventId" 512 = .ok normalized.eventId
  startedAt : requireCanonicalIso runtime normalized.startedAt "startedAt" =
    .ok normalized.startedAt

/-- What no update of an event changes and `Listable` reads. -/
structure SameAttempt (row row' : UsageEvent) : Prop where
  eventId : row'.eventId = row.eventId
  startedAt : row'.startedAt = row.startedAt
  outputCap : row'.outputCap = row.outputCap
  retry : row'.retry = row.retry

theorem mapRow_eq_ok_iff {row : UsageEvent} :
    mapRow row = .ok row ↔ assertMappedInvariants row = .ok () := by
  constructor
  · intro h
    obtain ⟨_, hchecked, -⟩ := bind_eq_ok.mp h
    exact hchecked
  · intro h
    unfold mapRow
    rw [h]
    rfl

theorem Listable.of_sameAttempt {row row' : UsageEvent} (h : Listable runtime row)
    (hsame : SameAttempt row row') : Listable runtime row' where
  eventId := hsame.eventId ▸ h.eventId
  startedAt := hsame.startedAt ▸ h.startedAt
  mapped := by
    have hchecked := mapRow_eq_ok_iff.mp h.mapped
    apply mapRow_eq_ok_iff.mpr
    unfold assertMappedInvariants at hchecked ⊢
    rw [hsame.outputCap, hsame.retry]
    exact hchecked

theorem normalizeBeginInput_texts {input : BeginInput} {normalized : NormalizedBegin}
    (h : normalizeBeginInput runtime input = .ok normalized) :
    Begun runtime normalized := by
  unfold normalizeBeginInput at h
  iterate 5 obtain ⟨_, -, h⟩ := bind_eq_ok.mp h
  obtain ⟨-, h⟩ := guard_eq_ok.mp h
  obtain ⟨-, h⟩ := guard_eq_ok.mp h
  iterate 2 obtain ⟨_, -, h⟩ := bind_eq_ok.mp h
  obtain ⟨eventId, hid, h⟩ := bind_eq_ok.mp h
  -- The texts, the numbers and the credential between the two.
  iterate 34 obtain ⟨_, -, h⟩ := bind_eq_ok.mp h
  obtain ⟨startedAt, htime, h⟩ := bind_eq_ok.mp h
  obtain rfl := Except.ok.inj h
  obtain ⟨hset, hlength, rfl⟩ := requireBoundedText_eq_ok_iff.mp hid
  obtain ⟨htimeSet, htimeLength, rfl, hiso⟩ := requireCanonicalIso_eq_ok_iff.mp htime
  refine ⟨requireBoundedText_eq_ok_iff.mpr ?_, requireCanonicalIso_eq_ok_iff.mpr ?_⟩
  · rw [trim_trim]
    exact ⟨hset, hlength, rfl⟩
  · rw [trim_trim]
    exact ⟨htimeSet, htimeLength, rfl, hiso⟩

end Listable

/-! ## Moves -/

/-- What the statements do to the tables. -/
inductive Move (runtime : UsageRuntime) : UsageStore → UsageStore → Prop
  | begun {store : UsageStore} {row : UsageEvent}
      (hnew : ∀ other ∈ store.events, other.eventId ≠ row.eventId)
      (hrow : Listable runtime row) :
      Move runtime store { store with events := store.events ++ [row] }
  | updated {store : UsageStore} {guard : UsageEvent → Bool} {set : UsageEvent → UsageEvent}
      (hset : ∀ row, guard row = true → Kept row (set row) ∧ SameAttempt row (set row)) :
      Move runtime store { store with events := updateRows guard set store.events }
  | abandoned {store : UsageStore} {keep : UsageEvent → Bool}
      (hkeep : ∀ row, keep row = false → row.Disposable) :
      Move runtime store { store with events := store.events.filter keep }
  | charged {store : UsageStore} {record : UsageEvent} {sessionId timestamp : String}
      (hrecord : record ∈ store.events) (houtcome : record.terminalOutcome ≠ .inFlight)
      (hsession : record.identity.sessionId = some sessionId)
      (hnew : ∀ other ∈ store.costLedger, other.canonicalUsageEventId ≠ some record.eventId) :
      Move runtime store (applySessionUsage (record.costRow sessionId) timestamp
        { store with costLedger := store.costLedger ++ [record.costRow sessionId] })

section Moves

variable {runtime : UsageRuntime} {start store store' : UsageStore}

theorem Move.keepsEvents (h : Move runtime store store') : KeepsEvents store store' := by
  cases h with
  | begun =>
      intro event hevent _
      exact ⟨event, List.mem_append_left _ hevent, .refl event⟩
  | @updated guard set hset =>
      intro event hevent _
      refine ⟨_, mem_updateRows.mpr ⟨event, hevent, rfl⟩, ?_⟩
      by_cases hguard : guard event = true
      · rw [if_pos hguard]
        exact (hset event hguard).1
      · rw [if_neg hguard]
        exact .refl event
  | @abandoned keep hkeep =>
      intro event hevent hkept
      refine ⟨event, List.mem_filter.mpr ⟨hevent, ?_⟩, .refl event⟩
      by_contra hdropped
      exact hkept (hkeep event (Bool.eq_false_iff.mpr hdropped))
  | charged _ _ _ _ => exact .refl store

theorem ChargeOf.kept {row : CostLedgerRow} {event event' : UsageEvent} (h : ChargeOf row event)
    (hkept : Kept event event') : ChargeOf row event' := by
  obtain ⟨houtcome, husage⟩ := hkept.outcome h.outcome
  refine ⟨?_, ?_, ?_, ?_, ?_, ?_, ?_⟩
  · rw [hkept.eventId]
    exact h.eventId
  · rw [hkept.identity]
    exact h.sessionId
  · rw [houtcome]
    exact h.outcome
  · rw [husage]
    exact h.tokenInput
  · rw [husage]
    exact h.tokenOutput
  · rw [husage]
    exact h.tokenCachedInput
  · rw [husage]
    exact h.costUsd

/-- The charges stay what they are while their events are kept. -/
theorem charges_kept (h : Accounted start store) (hkeeps : KeepsEvents store store') :
    ∀ row ∈ store.costLedger, row.canonicalUsageEventId.isSome = true →
      ∃ event ∈ store'.events, ChargeOf row event := by
  intro row hrow hcanonical
  obtain ⟨event, hevent, hcharge⟩ := h.charges row hrow hcanonical
  obtain ⟨event', hevent', hkept⟩ := hkeeps event hevent fun hopen => hcharge.outcome hopen.2
  exact ⟨event', hevent', hcharge.kept hkept⟩

theorem chargedTo_append (sessionId : String) (rows : List CostLedgerRow) (row : CostLedgerRow)
    (hcanonical : row.canonicalUsageEventId.isSome = true) :
    chargedTo sessionId (rows ++ [row]) =
      chargedTo sessionId rows ++ if row.sessionId = sessionId then [row] else [] := by
  unfold chargedTo
  rw [List.filter_append]
  congr 1
  by_cases hsession : row.sessionId = sessionId
  · simp [hsession, hcanonical]
  · simp [hsession]

/-- A session is charged for the row that is added for it, and no other session is. -/
theorem ChargedBy.charge {ledger : List CostLedgerRow} {initial session : SessionTotals}
    {row : CostLedgerRow} (h : ChargedBy ledger initial session) (timestamp : String)
    (hcanonical : row.canonicalUsageEventId.isSome = true) :
    ChargedBy (ledger ++ [row]) initial
      (if session.sessionId = row.sessionId then session.apply row timestamp else session) := by
  have hrows := chargedTo_append initial.sessionId ledger row hcanonical
  by_cases hsession : session.sessionId = row.sessionId
  · rw [if_pos hsession]
    rw [if_pos (hsession.symm.trans h.sessionId)] at hrows
    refine ⟨h.sessionId, ?_, ?_, ?_, ?_, ?_⟩
    · rw [hrows, total_append_singleton, ← add_assoc, ← h.tokenInput]
      rfl
    · rw [hrows, total_append_singleton, ← add_assoc, ← h.tokenOutput]
      rfl
    · rw [hrows, total_append_singleton, ← add_assoc, ← h.tokenCachedInput]
      rfl
    · have htotal := h.tokenTotal
      rw [hrows, total_append_singleton, total_append_singleton]
      change session.tokenTotal + row.tokenInput + row.tokenOutput = _
      omega
    · rw [hrows, total_append_singleton, ← add_assoc, ← h.costUsdTotal]
      rfl
  · rw [if_neg hsession]
    rw [if_neg fun hrow => hsession (h.sessionId.trans hrow.symm), List.append_nil] at hrows
    refine ⟨h.sessionId, ?_, ?_, ?_, ?_, ?_⟩
    · rw [hrows]
      exact h.tokenInput
    · rw [hrows]
      exact h.tokenOutput
    · rw [hrows]
      exact h.tokenCachedInput
    · rw [hrows]
      exact h.tokenTotal
    · rw [hrows]
      exact h.costUsdTotal

/-- A statement keeps the accounts. -/
theorem Move.accounted (h : Move runtime store store') (haccounts : Accounted start store) :
    Accounted start store' := by
  have hcharges := charges_kept haccounts h.keepsEvents
  cases h with
  | begun hnew _ =>
      exact ⟨nodup_map_append_singleton haccounts.ids hnew, haccounts.distinct, hcharges,
        haccounts.totals⟩
  | updated hset =>
      refine ⟨?_, haccounts.distinct, hcharges, haccounts.totals⟩
      rw [map_updateRows fun row hguard => (hset row hguard).1.eventId]
      exact haccounts.ids
  | abandoned hkeep =>
      refine ⟨?_, haccounts.distinct, hcharges, haccounts.totals⟩
      exact haccounts.ids.sublist (List.filter_sublist.map _)
  | @charged record sessionId timestamp hrecord houtcome hsession hnew =>
      refine ⟨haccounts.ids, ?_, ?_, ?_⟩
      · unfold applySessionUsage
        have hrow : [record.costRow sessionId].filterMap CostLedgerRow.canonicalUsageEventId =
            [record.eventId] := rfl
        rw [List.filterMap_append, hrow]
        refine haccounts.distinct.append (List.nodup_singleton _) ?_
        rw [List.disjoint_singleton]
        intro hmem
        obtain ⟨other, hother, hid⟩ := List.mem_filterMap.mp hmem
        exact hnew other hother hid
      · apply forall_mem_append_singleton
        · exact haccounts.charges
        · intro _
          exact ⟨record, hrecord, rfl, hsession, houtcome, rfl, rfl, rfl, rfl⟩
      · have htotals := haccounts.totals
        unfold applySessionUsage updateRows
        rw [List.forall₂_map_right_iff]
        refine htotals.imp fun initial session hcharged => ?_
        have hcharge := @ChargedBy.charge _ _ _ (record.costRow sessionId) hcharged timestamp rfl
        simpa only [decide_eq_true_eq] using hcharge

/-- No charge is taken back. -/
theorem Move.ledger_prefix (h : Move runtime store store') :
    store.costLedger <+: store'.costLedger := by
  cases h with
  | begun => exact List.prefix_rfl
  | updated => exact List.prefix_rfl
  | abandoned => exact List.prefix_rfl
  | charged => exact List.prefix_append _ _

end Moves

/-! ## What the calls do -/

/-- A call is a sequence of statements. -/
def Moves (runtime : UsageRuntime) : UsageStore → UsageStore → Prop :=
  Relation.ReflTransGen (Move runtime)

section Calls

variable {runtime : UsageRuntime} {start store store' : UsageStore} {eventId owner : String}
  {record : UsageEvent}

theorem Moves.keepsEvents (h : Moves runtime store store') : KeepsEvents store store' := by
  induction h with
  | refl => exact .refl store
  | tail _ hlast ih => exact ih.trans hlast.keepsEvents

theorem Moves.accounted (h : Moves runtime store store') (haccounts : Accounted start store) :
    Accounted start store' := by
  induction h with
  | refl => exact haccounts
  | tail _ hlast ih => exact hlast.accounted ih

theorem Moves.ledger_prefix (h : Moves runtime store store') :
    store.costLedger <+: store'.costLedger := by
  induction h with
  | refl => exact List.prefix_rfl
  | tail _ hlast ih => exact ih.trans hlast.ledger_prefix

/-- A row without an outcome is written, and its transport only when it is an intent. -/
theorem kept_of_open {row row' : UsageEvent} (hopen : row.terminalOutcome = .inFlight)
    (hsame : SameAttempt row row') (hidentity : row'.identity = row.identity)
    (htransport : row.transportStatus = .intent ∨
      row'.transportStatus = row.transportStatus) : Kept row row' ∧ SameAttempt row row' :=
  ⟨⟨hsame.eventId, hidentity, fun hleft => htransport.resolve_left hleft,
    fun hfinal => absurd hopen hfinal⟩, hsame⟩

theorem openIn_iff {status : TransportStatus} {row : UsageEvent} :
    row.openIn status = true ↔ row.transportStatus = status ∧ row.terminalOutcome = .inFlight := by
  simp [UsageEvent.openIn]

theorem ownedIn_iff {status : TransportStatus} {row : UsageEvent} :
    row.ownedIn status eventId owner = true ↔
      row.eventId = eventId ∧ row.dispatchOwnerId = owner ∧ row.transportStatus = status ∧
        row.terminalOutcome = .inFlight := by
  simp [UsageEvent.ownedIn, openIn_iff, and_assoc]

theorem moves_update {guard : UsageEvent → Bool} {set : UsageEvent → UsageEvent}
    (hset : ∀ row, guard row = true → Kept row (set row) ∧ SameAttempt row (set row)) :
    Moves runtime store (updateEvents guard set store).2 :=
  .single (.updated hset)

/-- A call whose statement moves the tables moves them, whatever it answers. -/
theorem moves_runStatement {ι α : Type} {normalized : Except String ι}
    {statement : ι → UsageStore → Bool × UsageStore}
    {answer : ι → Bool → UsageStore → Except String α}
    (hstatement : ∀ input, Moves runtime store (statement input store).2) :
    Moves runtime store (runStatement normalized statement answer store).2 := by
  unfold runStatement
  split
  · exact .refl
  · exact hstatement _

theorem moves_committed {α : Type} {result : Except String (α × UsageStore)}
    (h : ∀ answer store', result = .ok (answer, store') → Moves runtime store store') :
    Moves runtime store (committed result store) := by
  unfold committed
  split
  · exact h _ _ rfl
  · exact .refl

/-- `begin` stores the event as it normalized it, and reads it again. -/
theorem moves_storeAttempt {normalized : NormalizedBegin} {answer : UsageEvent × Bool}
    (hbegun : Begun runtime normalized)
    (h : storeAttempt normalized store = .ok (answer, store')) : Moves runtime store store' := by
  obtain ⟨⟨inserted, middle⟩, hinsert, h⟩ := bind_eq_ok.mp h
  obtain ⟨found, hfound, h⟩ := bind_eq_ok.mp h
  have hsame : middle = store' := by
    split at h
    · cases h
    · obtain ⟨_, -, h⟩ := bind_eq_ok.mp h
      exact (ok_pair_inj h).2
  subst hsame
  unfold insertAttempt at hinsert
  split_ifs at hinsert with hkey hid
  · rw [← (ok_pair_inj hinsert).2]
    exact .refl
  · have hnone : store.events.find?
        (fun row => decide (row.idempotencyKey = normalized.idempotencyKey)) = none := by
      rw [List.find?_eq_none]
      exact fun row hrow hsame => hkey (List.any_eq_true.mpr ⟨row, hrow, hsame⟩)
    have hfirst : [normalized.toRow].find?
        (fun row => decide (row.idempotencyKey = normalized.idempotencyKey)) =
          some normalized.toRow := List.find?_cons_of_pos (decide_eq_true rfl)
    rw [← (ok_pair_inj hinsert).2] at hfound ⊢
    unfold UsageStore.findByIdempotencyKey at hfound
    dsimp only at hfound
    rw [List.find?_append, hnone, Option.none_or, hfirst] at hfound
    obtain ⟨row, hrow, -⟩ := map_eq_ok hfound
    obtain ⟨_, hchecked, -⟩ := bind_eq_ok.mp hrow
    refine .single (.begun ?_ ⟨hbegun.eventId, hbegun.startedAt, mapRow_eq_ok_iff.mpr hchecked⟩)
    intro other hother heq
    exact hid (List.any_eq_true.mpr ⟨other, hother, decide_eq_true heq⟩)

theorem moves_beginAttempt {input : BeginInput} {answer : UsageEvent × Bool}
    (h : beginAttempt runtime input store = .ok (answer, store')) :
    Moves runtime store store' := by
  obtain ⟨normalized, hnormalized, h⟩ := bind_eq_ok.mp h
  obtain ⟨source, -, h⟩ := bind_eq_ok.mp h
  have hbegun := normalizeBeginInput_texts hnormalized
  dsimp only at h
  split at h
  · obtain ⟨_, -, h⟩ := bind_eq_ok.mp h
    exact moves_storeAttempt hbegun h
  · exact moves_storeAttempt hbegun h

theorem moves_acceptTransport {lease : String} :
    Moves runtime store (acceptTransport runtime eventId owner lease store).2 := by
  apply moves_runStatement
  rintro ⟨id, owner, lease⟩
  apply moves_update
  intro row hguard
  obtain ⟨-, -, hintent, hopen⟩ := ownedIn_iff.mp hguard
  exact kept_of_open hopen ⟨rfl, rfl, rfl, rfl⟩ rfl (.inl hintent)

theorem moves_renewTransportLease {lease : String} :
    Moves runtime store (renewTransportLease runtime eventId owner lease store).2 := by
  apply moves_runStatement
  rintro ⟨id, owner, lease⟩
  apply moves_update
  intro row hguard
  obtain ⟨-, -, -, hopen⟩ := ownedIn_iff.mp hguard
  exact kept_of_open hopen ⟨rfl, rfl, rfl, rfl⟩ rfl (.inr rfl)

theorem moves_abandonTransportIntent :
    Moves runtime store (abandonTransportIntent eventId owner store).2 := by
  apply moves_runStatement
  rintro ⟨id, owner⟩
  refine .single (.abandoned ?_)
  intro row hdropped
  rw [Bool.not_eq_false'] at hdropped
  obtain ⟨-, -, hintent, hopen⟩ := ownedIn_iff.mp hdropped
  exact ⟨hintent, hopen⟩

theorem moves_markDispatchUnknown {uncertainAt reason : String} :
    Moves runtime store (markDispatchUnknown runtime eventId owner uncertainAt reason store).2 := by
  apply moves_runStatement
  rintro ⟨id, owner, uncertainAt, reason⟩
  apply moves_update
  intro row hguard
  obtain ⟨-, -, hintent, hopen⟩ := ownedIn_iff.mp hguard
  exact kept_of_open hopen ⟨rfl, rfl, rfl, rfl⟩ rfl (.inl hintent)

/-- A recovery writes open attempts only. -/
theorem moves_recoverExpired {status : TransportStatus} {set : String → UsageEvent → UsageEvent}
    {recoveredAt : String} {limit : Int} {locked : String → Bool}
    (hset : ∀ at' row, row.openIn status = true →
      Kept row (set at' row) ∧ SameAttempt row (set at' row)) :
    Moves runtime store (recoverExpired runtime status set recoveredAt limit locked store).2 := by
  apply moves_runStatement
  intro at'
  apply moves_update
  intro row hguard
  obtain ⟨-, hexpired⟩ := Bool.and_eq_true_iff.mp hguard
  obtain ⟨hopen, -⟩ := Bool.and_eq_true_iff.mp hexpired
  exact hset at' row hopen

theorem moves_recoverExpiredIntents {recoveredAt : String} {limit : Int}
    {locked : String → Bool} :
    Moves runtime store (recoverExpiredIntents runtime recoveredAt limit locked store).2 := by
  apply moves_recoverExpired
  intro at' row hopen
  obtain ⟨hintent, hopen⟩ := openIn_iff.mp hopen
  exact kept_of_open hopen ⟨rfl, rfl, rfl, rfl⟩ rfl (.inl hintent)

theorem moves_recoverExpiredAcceptedDispatches {recoveredAt : String} {limit : Int}
    {locked : String → Bool} :
    Moves runtime store
      (recoverExpiredAcceptedDispatches runtime recoveredAt limit locked store).2 := by
  apply moves_recoverExpired
  intro at' row hopen
  exact kept_of_open (openIn_iff.mp hopen).2 ⟨rfl, rfl, rfl, rfl⟩ rfl (.inr rfl)

theorem moves_reconcileDispatchUnknown {input : ReconcileInput} :
    Moves runtime store (reconcileDispatchUnknown runtime eventId input store).2 := by
  apply moves_runStatement
  rintro ⟨id, reconciledAt, evidence, reconciledBy⟩
  apply moves_update
  intro row _
  exact ⟨⟨rfl, rfl, fun _ => rfl, fun _ => ⟨rfl, rfl⟩⟩, rfl, rfl, rfl, rfl⟩

theorem moves_finalize {input : FinalizeInput} :
    Moves runtime store (finalize runtime eventId input store).2 := by
  apply moves_runStatement
  intro normalized
  apply moves_update
  intro row hguard
  obtain ⟨-, -, -, hopen⟩ := ownedIn_iff.mp hguard
  exact kept_of_open hopen ⟨rfl, rfl, rfl, rfl⟩ rfl (.inr rfl)

theorem moves_confirmTransportNotStarted {now : String} {answer : UsageEvent}
    (h : confirmTransportNotStarted runtime eventId owner now store = .ok (answer, store')) :
    Moves runtime store store' := by
  obtain ⟨id, -, h⟩ := bind_eq_ok.mp h
  obtain ⟨owner, -, h⟩ := bind_eq_ok.mp h
  obtain ⟨finishedAt, -, h⟩ := bind_eq_ok.mp h
  obtain ⟨found, -, h⟩ := bind_eq_ok.mp h
  split at h
  · cases h
  · rename_i current
    obtain ⟨-, h⟩ := guard_eq_ok.mp h
    by_cases hproven : isModelUsageProvenNotDispatched current.dispatchRecord = true
    · rw [if_pos hproven] at h
      rw [← (ok_pair_inj h).2]
      exact .refl
    · rw [if_neg hproven] at h
      obtain ⟨-, h⟩ := guard_eq_ok.mp h
      obtain ⟨record, -, h⟩ := bind_eq_ok.mp h
      rw [← (ok_pair_inj h).2]
      apply moves_update
      intro row hguard
      obtain ⟨howned, -⟩ := Bool.and_eq_true_iff.mp hguard
      obtain ⟨-, -, hintent, hopen⟩ := ownedIn_iff.mp howned
      exact kept_of_open hopen ⟨rfl, rfl, rfl, rfl⟩ rfl (.inl hintent)

/-- The event that is read is the row of its id. -/
theorem readEvent_eq_ok (h : store.readEvent eventId = .ok record) :
    store.events.find? (UsageEvent.eventId · = eventId) = some record := by
  obtain ⟨found, hfound, h⟩ := bind_eq_ok.mp h
  unfold UsageStore.findByEventId at hfound
  split at hfound
  · rename_i row hrow
    obtain ⟨mapped, hmapped, hsome⟩ := map_eq_ok hfound
    obtain ⟨-, -, hsame⟩ := bind_eq_ok.mp hmapped
    subst hsome
    rw [hrow, Except.ok.inj hsame, Except.ok.inj h]
  · rw [← Except.ok.inj hfound] at h
    cases h

theorem assertSameFinalization_eq_ok {input : NormalizedFinalize}
    (h : assertSameFinalization record input = .ok ()) :
    record.terminalOutcome = .final input.terminalOutcome := by
  unfold assertSameFinalization at h
  split at h
  · rename_i hsame
    exact hsame.1
  · cases h

/-- The row that an update selects is what the update makes of it. -/
theorem find?_selected {guard : UsageEvent → Bool} {set : UsageEvent → UsageEvent}
    {eventId : String} (hids : (store.events.map UsageEvent.eventId).Nodup)
    (hguard : ∀ row, guard row = true → row.eventId = eventId ∧ (set row).eventId = row.eventId)
    (hselected : store.events.any guard = true) :
    ∃ row, guard row = true ∧
      (updateRows guard set store.events).find? (UsageEvent.eventId · = eventId) =
        some (set row) := by
  obtain ⟨row, hrow, hrowGuard⟩ := List.any_eq_true.mp hselected
  refine ⟨row, hrowGuard, ?_⟩
  have hfind := find?_key_of_mem hids hrow
  rw [(hguard row hrowGuard).1] at hfind
  rw [find?_updateRows fun row hguard' => (hguard row hguard').2, hfind, Option.map_some,
    if_pos hrowGuard]

/-- An event that is finalized by a call, now or before, has its outcome. -/
theorem finalize_eq_ok {input : FinalizeInput} {changed : Bool}
    (hids : (store.events.map UsageEvent.eventId).Nodup)
    (h : finalize runtime eventId input store = (.ok (record, changed), store')) :
    record ∈ store'.events ∧ record.terminalOutcome ≠ .inFlight := by
  unfold finalize runStatement at h
  split at h
  · cases h
  · rename_i normalized hnormalized
    obtain ⟨hanswer, rfl⟩ := Prod.mk.inj h
    obtain ⟨found, hread, hanswer⟩ := bind_eq_ok.mp hanswer
    have hfind := readEvent_eq_ok hread
    by_cases hselected :
        store.events.any (UsageEvent.ownedIn .accepted eventId normalized.dispatchOwnerId) = true
    · have hfound : found = record := by
        simp only [hselected] at hanswer
        exact (ok_pair_inj hanswer).1
      obtain ⟨row, -, hset⟩ := @find?_selected _ _ (UsageEvent.finalized normalized) eventId hids
        (fun row hguard => ⟨(ownedIn_iff.mp hguard).1, rfl⟩) hselected
      rw [← hfound]
      refine ⟨List.mem_of_find?_eq_some hfind, ?_⟩
      rw [Option.some.inj (hfind.symm.trans hset)]
      exact TerminalOutcome.noConfusion
    · rw [Bool.not_eq_true] at hselected
      simp only [hselected, if_true] at hanswer
      obtain ⟨_, hsame, hanswer⟩ := bind_eq_ok.mp hanswer
      have hfound : found = record := (ok_pair_inj hanswer).1
      rw [← hfound]
      refine ⟨List.mem_of_find?_eq_some hfind, ?_⟩
      rw [assertSameFinalization_eq_ok hsame]
      exact TerminalOutcome.noConfusion

/-- The projection charges what the table has of the event, up to the marker of the projection. -/
theorem moves_projectUsage {marked : UsageEvent} (hmarked : marked ∈ store.events)
    (houtcome : marked.terminalOutcome ≠ .inFlight)
    (hsame : marked = { record with compatibilityProjectedAt := marked.compatibilityProjectedAt }) :
    Moves runtime store (projectUsage record store) := by
  unfold projectUsage
  split
  · exact .refl
  · rename_i sessionId hsession
    split
    · exact .refl
    · have hrow : record.costRow sessionId = marked.costRow sessionId := by
        rw [hsame]
        rfl
      rw [hrow]
      by_cases hcharged : store.costLedger.any (fun other => other.canonicalUsageEventId =
          (marked.costRow sessionId).canonicalUsageEventId) = true
      · simp only [insertCompatibilityCost, hcharged]
        exact .refl
      · simp only [insertCompatibilityCost, hcharged]
        refine .single (.charged hmarked houtcome ?_ ?_)
        · rw [hsame]
          exact hsession
        · intro other hother heq
          exact hcharged (List.any_eq_true.mpr ⟨other, hother, decide_eq_true heq⟩)

theorem moves_finalizeAndProject {input : FinalizeInput} {result : FinalizeAndProjectResult}
    (hids : (store.events.map UsageEvent.eventId).Nodup)
    (h : finalizeAndProject runtime eventId input store = .ok (result, store')) :
    Moves runtime store store' := by
  unfold finalizeAndProject at h
  have hfirst : Moves runtime store (finalize runtime eventId input store).2 := moves_finalize
  obtain ⟨⟨answer, middle⟩, hcall⟩ : ∃ pair, finalize runtime eventId input store = pair :=
    ⟨_, rfl⟩
  rw [hcall] at h hfirst
  change Moves runtime store middle at hfirst
  obtain ⟨⟨record, changed⟩, hanswer, h⟩ := bind_eq_ok.mp h
  rw [hanswer] at hcall
  obtain ⟨hrecord, houtcome⟩ := finalize_eq_ok hids hcall
  have hmarked := hfirst.trans (@moves_update runtime middle
    (fun row => row.eventId = eventId && row.compatibilityProjectedAt.isNone)
    (fun row => { row with compatibilityProjectedAt := some input.finishedAt })
    fun row _ => ⟨⟨rfl, rfl, fun _ => rfl, fun _ => ⟨rfl, rfl⟩⟩, rfl, rfl, rfl, rfl⟩)
  by_cases hclaimed : middle.events.any (fun row =>
      row.eventId = eventId && row.compatibilityProjectedAt.isNone) = true
  · simp only [updateEvents, hclaimed] at h
    rw [← (ok_pair_inj h).2]
    refine hmarked.trans ?_
    refine moves_projectUsage (mem_updateRows.mpr ⟨record, hrecord, rfl⟩) ?_ ?_
    · split
      · exact houtcome
      · exact houtcome
    · split
      · rfl
      · rfl
  · simp only [updateEvents, hclaimed] at h
    rw [← (ok_pair_inj h).2]
    exact hmarked

/-- A call of the repository is a sequence of statements. -/
theorem moves_perform (call : UsageCall) (hids : (store.events.map UsageEvent.eventId).Nodup) :
    Moves runtime store (call.perform runtime store) := by
  cases call with
  | beginAttempt input => exact moves_committed fun _ _ => moves_beginAttempt
  | acceptTransport eventId owner lease => exact moves_acceptTransport
  | renewTransportLease eventId owner lease => exact moves_renewTransportLease
  | abandonTransportIntent eventId owner => exact moves_abandonTransportIntent
  | confirmTransportNotStarted eventId owner now =>
      exact moves_committed fun _ _ => moves_confirmTransportNotStarted
  | markDispatchUnknown eventId owner uncertainAt reason => exact moves_markDispatchUnknown
  | recoverExpiredIntents recoveredAt limit locked => exact moves_recoverExpiredIntents
  | recoverExpiredAcceptedDispatches recoveredAt limit locked =>
      exact moves_recoverExpiredAcceptedDispatches
  | reconcileDispatchUnknown eventId input => exact moves_reconcileDispatchUnknown
  | finalize eventId input => exact moves_finalize
  | finalizeAndProject eventId input =>
      exact moves_committed fun _ _ => moves_finalizeAndProject hids

/-! ## Runs -/

/-- No attempt was begun, and none was charged. -/
structure Fresh (store : UsageStore) : Prop where
  events : store.events = []
  uncharged : ∀ row ∈ store.costLedger, row.canonicalUsageEventId = none

theorem Fresh.chargedTo_eq_nil (h : Fresh store) (sessionId : String) :
    chargedTo sessionId store.costLedger = [] := by
  unfold chargedTo
  rw [List.filter_eq_nil_iff]
  intro row hrow
  simp [h.uncharged row hrow]

theorem Fresh.accounted (h : Fresh store) : Accounted store store where
  ids := by
    rw [h.events]
    exact List.nodup_nil
  distinct := by
    rw [List.filterMap_eq_nil_iff.mpr h.uncharged]
    exact List.nodup_nil
  charges := by
    intro row hrow hcanonical
    rw [h.uncharged row hrow] at hcanonical
    cases hcanonical
  totals := by
    rw [List.forall₂_same]
    intro session _
    constructor <;> simp [h.chargedTo_eq_nil, total]

theorem UsageStore.Step.moves {call : UsageCall} (h : UsageStore.Step runtime store call store')
    (haccounts : Accounted start store) : Moves runtime store store' := by
  rw [show store' = call.perform runtime store from h]
  exact moves_perform call haccounts.ids

/-- A run keeps the accounts and the events. -/
theorem moves_of_run {calls : List UsageCall} (h : Run (UsageStore.Step runtime) store calls store')
    (haccounts : Accounted start store) : Moves runtime store store' := by
  induction h with
  | nil => exact .refl
  | cons hstep _ ih =>
      have hfirst := hstep.moves haccounts
      exact hfirst.trans (ih (hfirst.accounted haccounts))

/-- From fresh tables, the tables are accounted at every moment of a run, and what comes
later keeps the charges, and the transports, the outcomes and the usage of the events. -/
theorem model_usage_accounted_once {calls calls' : List UsageCall} (hstart : Fresh start)
    (hbefore : Run (UsageStore.Step runtime) start calls store)
    (hafter : Run (UsageStore.Step runtime) store calls' store') :
    Accounted start store ∧ KeepsEvents store store' ∧
      store.costLedger <+: store'.costLedger := by
  have haccounts := (moves_of_run hbefore hstart.accounted).accounted hstart.accounted
  have hmoves := moves_of_run hafter haccounts
  exact ⟨haccounts, hmoves.keepsEvents, hmoves.ledger_prefix⟩

/-- The tables after a list of calls. -/
def UsageStore.afterAll (runtime : UsageRuntime) (calls : List UsageCall) (store : UsageStore) :
    UsageStore :=
  calls.foldl (fun store call => call.perform runtime store) store

theorem run_afterAll (calls : List UsageCall) (store : UsageStore) :
    Run (UsageStore.Step runtime) store calls (store.afterAll runtime calls) := by
  induction calls generalizing store with
  | nil => exact .nil store
  | cons call calls ih => exact .cons rfl (ih (call.perform runtime store))

end Calls

/-- A call to a provider for a session, at the epoch. -/
def sampleBegin : BeginInput where
  eventId := "event"
  idempotencyKey := "key"
  source := .llmService
  callKind := .chatInitial
  requestedProviderId := none
  requestedModelId := none
  requestedReasoningLevel := none
  dispatchedReasoningEffort := none
  reasoningDisposition := none
  reasoningReasonCode := none
  effectiveProviderId := some "provider"
  effectiveModelId := some "model"
  effectiveApiStyle := none
  routeDecisionId := none
  contextSnapshotId := none
  contextIntentHash := none
  contextEntryRefId := none
  operationId := "operation"
  parentOperationId := none
  dispatchGeneration := "generation"
  attemptIndex := .finite 0
  transportAttemptIndex := .finite 0
  requestedOutputTokenCap := none
  effectiveOutputTokenCap := none
  outputCapDisposition := none
  outputCapRecoverySourceEventId := none
  outputCapRecoveryReasonCode := none
  outputCapProviderAvailableTokens := none
  outputCapProviderMinimumTokens := none
  outputCapRequestInputEstimate := none
  outputCapConfiguredContextWindowTokens := none
  outputCapSafetyMarginTokens := none
  outputCapEvidenceFormat := none
  transportRetryParentEventId := none
  transportRetryReason := none
  dispatchOwnerId := "owner"
  dispatchLeaseExpiresAt := "1970-01-01T00:01:00.000Z"
  fallbackIndex := .finite 0
  repairIndex := .finite 0
  workspaceId := none
  sessionId := some "session"
  turnId := none
  durableRunId := none
  taskId := none
  agentId := none
  assemblyRunId := none
  assemblyRoundIndex := none
  assemblyStage := none
  workerId := none
  utilityKind := none
  credentialType := .apiKey
  usagePool := .standard
  credentialSource := .env
  credentialConfigFingerprint := none
  pricingCatalogVersion := none
  pricingCatalogHash := none
  inputRateUsdPerMillion := none
  outputRateUsdPerMillion := none
  cachedInputRateUsdPerMillion := none
  startedAt := "1970-01-01T00:00:00.000Z"

def sampleFinalize : FinalizeInput where
  dispatchOwnerId := "owner"
  terminalOutcome := .succeeded
  availability := .tracked
  pricingSource := .providerReported
  costSource := .providerReported
  inputTokens := some (.finite 10)
  outputTokens := some (.finite 4)
  cachedInputTokens := none
  costUsd := some (.finite 3)
  reportedEffectiveModelId := none
  contextResolutionHash := none
  errorCode := none
  finishedAt := "1970-01-01T00:01:00.000Z"
  durationMs := .finite 60000

def sampleStart : UsageStore where
  events := []
  costLedger := []
  sessions := [⟨"session", 1, 0, 0, 1, 2, "", ""⟩]

def sampleRuntime : UsageRuntime where
  dates := WorktreeLeaseRepository.epochDates
  toLowerCase := id
  textLe := utf16Le

/-- The call is accepted and finalized, and its outcome is delivered twice. -/
def sampleAttempt : List UsageCall :=
  [.beginAttempt sampleBegin,
    .acceptTransport "event" "owner" "1970-01-01T00:01:00.000Z",
    .finalizeAndProject "event" sampleFinalize, .finalizeAndProject "event" sampleFinalize]

/-- The second delivery charges nothing. -/
theorem second_delivery_charges_nothing :
    (sampleStart.afterAll sampleRuntime sampleAttempt).sessions.map
        (fun session => (session.tokenTotal, session.costUsdTotal)) = [(15, 5)] ∧
      Accounted sampleStart (sampleStart.afterAll sampleRuntime sampleAttempt) := by
  refine ⟨by decide +kernel, ?_⟩
  exact (model_usage_accounted_once ⟨rfl, fun row hrow => absurd hrow List.not_mem_nil⟩
    (run_afterAll _ sampleStart) (.nil _)).1

end GoatCitadel.Storage.ModelUsage
