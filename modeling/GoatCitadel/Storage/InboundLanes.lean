import GoatCitadel.Storage.InboundEvents
import Mathlib.Logic.Relation

/-!
# A lane is served one event at a time

A transaction is a sequence of writes: an event is accepted, claimed, changed by the
holder of its claim, or recovered from an expired one.  An event is claimed when the
earlier ones of its lane are settled, and these stay as they are.
-/

namespace GoatCitadel.Storage.InboundChannelEvents

open GoatCitadel.Support
open Relation (ReflTransGen)

/-! ## Writes -/

/-- What every write keeps of a row. -/
structure Kept (row row' : InboundChannelEvent) : Prop where
  sequence : row'.sequence = row.sequence
  eventId : row'.eventId = row.eventId
  identity : row'.identity = row.identity
  lane : row'.lane = row.lane
  linkage : ∀ key value, row.linkage key = some value → row'.linkage key = some value
  linked : (∀ key, row.linkage key ≠ some "") → ∀ key, row'.linkage key ≠ some ""
  claim : row'.claimExpiresAt.isSome = row'.status.isClaimed

/-- How a row is changed at a time, when these events are due. -/
inductive Change (now : String) (due : String → Prop) (rows : List InboundChannelEvent)
    (row : InboundChannelEvent) : InboundChannelEvent → Prop
  | claim {claimGeneration : Nat} {claimToken ownerId claimExpiresAt : String} :
      due row.eventId → row.claimable now = true →
      (∀ earlier ∈ rows, blocks row earlier = false) →
      Change now due rows row
        (claimedRow claimGeneration claimToken ownerId claimExpiresAt now row)
  | held {token : InboundChannelEventClaimToken} {row' : InboundChannelEvent} :
      heldBy token now row = true → Kept row row' → Change now due rows row row'
  | recover : row.status.isClaimed = true → row.expired now = true →
      Change now due rows row (recoveredRow now row)

/-- One write of a transaction. -/
inductive Write (now : String) (due : String → Prop) (store : EventStore) : EventStore → Prop
  | accept {input : NormalizedAcceptance} {acceptedAt : String} {skipped : Nat} :
      trim input.eventId = input.eventId →
      (∀ row ∈ store.rows, row.eventId ≠ input.eventId) →
      (∀ row ∈ store.rows, row.identity ≠ input.identity) →
      Write now due store
        { rows := store.rows ++ [acceptedRow input acceptedAt (store.lastSequence + 1 + skipped)]
          lastSequence := store.lastSequence + 1 + skipped }
  | change {eventId : String} {guard : InboundChannelEvent → Bool}
      {set : InboundChannelEvent → InboundChannelEvent} :
      (∀ row ∈ store.rows, row.eventId = eventId → guard row = true →
        Change now due store.rows row (set row)) →
      Write now due store { store with
        rows := updateRows (fun row => row.eventId = eventId && guard row) set store.rows }

/-! ## Rows -/

section Rows

variable {now : String} {due : String → Prop} {rows : List InboundChannelEvent}
  {row row' : InboundChannelEvent}

theorem not_terminal_of_claimed {status : InboundChannelEventStatus}
    (h : status.isClaimed = true) : status.isTerminal = false := by
  cases status <;> first | rfl | cases h

theorem not_terminal_of_claimable (h : row.claimable now = true) :
    row.status.isTerminal = false := by
  unfold InboundChannelEvent.claimable at h
  obtain hopen | hclaimed := Bool.or_eq_true_iff.mp h
  · obtain ⟨hisOpen, -⟩ := Bool.and_eq_true_iff.mp hopen
    revert hisOpen
    cases row.status <;> decide
  · exact not_terminal_of_claimed (Bool.and_eq_true_iff.mp hclaimed).1

theorem heldBy_spec {token : InboundChannelEventClaimToken} (h : heldBy token now row = true) :
    row.status.isClaimed = true ∧ row.current now = true := by
  simp only [heldBy, Bool.and_eq_true] at h
  exact ⟨h.1.1.1.1, h.2⟩

theorem isSome_of_current (h : row.current now = true) : row.claimExpiresAt.isSome = true := by
  unfold InboundChannelEvent.current at h
  split at h
  · rename_i expiresAt hexpires
    rw [hexpires]
    rfl
  · cases h

theorem not_current_of_expired (h : row.expired now = true) : row.current now = false := by
  unfold InboundChannelEvent.expired at h
  unfold InboundChannelEvent.current
  split at h
  · rw [h]
    rfl
  · cases h

theorem kept_claimedRow {claimGeneration : Nat} {claimToken ownerId claimExpiresAt : String} :
    Kept row (claimedRow claimGeneration claimToken ownerId claimExpiresAt now row) :=
  ⟨rfl, rfl, rfl, rfl, fun _ _ => id, id, rfl⟩

theorem kept_recoveredRow : Kept row (recoveredRow now row) := by
  refine ⟨rfl, rfl, rfl, rfl, fun _ _ => id, id, ?_⟩
  unfold recoveredRow
  dsimp only
  split
  · rfl
  · rfl

theorem Change.kept (h : Change now due rows row row') : Kept row row' := by
  cases h with
  | claim => exact kept_claimedRow
  | held _ hkept => exact hkept
  | recover => exact kept_recoveredRow

theorem Change.running (h : Change now due rows row row') : row.status.isTerminal = false := by
  cases h with
  | claim _ hclaimable => exact not_terminal_of_claimable hclaimable
  | held hheld => exact not_terminal_of_claimed (heldBy_spec hheld).1
  | recover hclaimed => exact not_terminal_of_claimed hclaimed

/-- A row that is claimed after a change was claimed before, or is claimed by it, behind
no unsettled event. -/
theorem Change.claimed (h : Change now due rows row row')
    (hclaimed : row'.status.isClaimed = true) :
    row.status.isClaimed = true ∨ ∀ earlier ∈ rows, blocks row earlier = false := by
  cases h with
  | claim _ _ hfirst => exact .inr hfirst
  | held hheld => exact .inl (heldBy_spec hheld).1
  | recover hbefore => exact .inl hbefore

theorem blocks_iff {candidate earlier : InboundChannelEvent} :
    blocks candidate earlier = true ↔
      earlier.lane = candidate.lane ∧ earlier.sequence < candidate.sequence ∧
        earlier.status.isTerminal = false := by
  simp [blocks, and_assoc]

end Rows

/-! ## The invariant -/

/-- What every write keeps of the table. -/
structure Served (store : EventStore) : Prop where
  ids : (store.rows.map (·.eventId)).Nodup
  identities : (store.rows.map (·.identity)).Nodup
  ordered : store.rows.Pairwise fun a b => a.sequence < b.sequence
  bounded : ∀ row ∈ store.rows, row.sequence ≤ store.lastSequence
  trimmed : ∀ row ∈ store.rows, trim row.eventId = row.eventId
  linked : ∀ row ∈ store.rows, ∀ key, row.linkage key ≠ some ""
  claims : ∀ row ∈ store.rows, row.claimExpiresAt.isSome = row.status.isClaimed
  first : ∀ row ∈ store.rows, row.status.isClaimed = true →
    ∀ earlier ∈ store.rows, blocks row earlier = false

/-- What becomes of a row in any number of writes. -/
structure Advances (row row' : InboundChannelEvent) : Prop where
  sequence : row'.sequence = row.sequence
  eventId : row'.eventId = row.eventId
  identity : row'.identity = row.identity
  lane : row'.lane = row.lane
  linkage : ∀ key value, row.linkage key = some value → row'.linkage key = some value
  settled : row.status.isTerminal = true → row' = row

/-- The rows of a table, later. -/
def Later (store store' : EventStore) : Prop :=
  ∀ row ∈ store.rows, ∃ row' ∈ store'.rows, Advances row row'

section Writes

variable {now : String} {due : String → Prop} {store store' store'' : EventStore}
  {row row' : InboundChannelEvent}

theorem served_initial : Served .initial where
  ids := List.nodup_nil
  identities := List.nodup_nil
  ordered := .nil
  bounded := by
    intro row hrow
    cases hrow
  trimmed := by
    intro row hrow
    cases hrow
  linked := by
    intro row hrow
    cases hrow
  claims := by
    intro row hrow
    cases hrow
  first := by
    intro row hrow
    cases hrow

theorem Advances.refl (row : InboundChannelEvent) : Advances row row :=
  ⟨rfl, rfl, rfl, rfl, fun _ _ => id, fun _ => rfl⟩

theorem Advances.trans {row'' : InboundChannelEvent} (h : Advances row row')
    (h' : Advances row' row'') : Advances row row'' where
  sequence := h'.sequence.trans h.sequence
  eventId := h'.eventId.trans h.eventId
  identity := h'.identity.trans h.identity
  lane := h'.lane.trans h.lane
  linkage := fun key value hvalue => h'.linkage key value (h.linkage key value hvalue)
  settled := by
    intro hterminal
    obtain rfl := h.settled hterminal
    exact h'.settled hterminal

theorem Later.refl (store : EventStore) : Later store store :=
  fun row hrow => ⟨row, hrow, .refl row⟩

theorem Later.trans (h : Later store store') (h' : Later store' store'') :
    Later store store'' := by
  intro row hrow
  obtain ⟨row', hrow', hfirst⟩ := h row hrow
  obtain ⟨row'', hrow'', hsecond⟩ := h' row' hrow'
  exact ⟨row'', hrow'', hfirst.trans hsecond⟩

theorem advances_of_change {rows : List InboundChannelEvent} (h : Change now due rows row row') :
    Advances row row' where
  sequence := h.kept.sequence
  eventId := h.kept.eventId
  identity := h.kept.identity
  lane := h.kept.lane
  linkage := h.kept.linkage
  settled := by
    intro hterminal
    rw [h.running] at hterminal
    cases hterminal

/-- A row after a write is one from before it, changed or not, or was accepted. -/
theorem Write.row_cases (h : Write now due store store') (hrow' : row' ∈ store'.rows) :
    (∃ row ∈ store.rows, row' = row ∨ Change now due store.rows row row') ∨
      (row'.status = .accepted ∧ store.lastSequence < row'.sequence) := by
  cases h with
  | @accept input acceptedAt skipped =>
      obtain hmem | hmem := List.mem_append.mp hrow'
      · exact .inl ⟨row', hmem, .inl rfl⟩
      · rw [List.mem_singleton] at hmem
        subst hmem
        refine .inr ⟨rfl, ?_⟩
        show store.lastSequence < store.lastSequence + 1 + skipped
        omega
  | change hchange =>
      obtain ⟨row, hrow, rfl⟩ := mem_updateRows.mp hrow'
      split
      · rename_i hguard
        rw [Bool.and_eq_true, decide_eq_true_eq] at hguard
        exact .inl ⟨row, hrow, .inr (hchange row hrow hguard.1 hguard.2)⟩
      · exact .inl ⟨row, hrow, .inl rfl⟩

theorem Change.mono {due' : String → Prop} {rows : List InboundChannelEvent}
    (hdue : ∀ id, due id → due' id) (h : Change now due rows row row') :
    Change now due' rows row row' := by
  cases h with
  | claim hisDue hclaimable hfirst => exact .claim (hdue _ hisDue) hclaimable hfirst
  | held hheld hkept => exact .held hheld hkept
  | recover hclaimed hexpired => exact .recover hclaimed hexpired

theorem Write.mono {due' : String → Prop} (hdue : ∀ id, due id → due' id)
    (h : Write now due store store') : Write now due' store store' := by
  cases h with
  | accept htrim hid hidentity => exact .accept htrim hid hidentity
  | change hchange =>
      exact .change fun row hrow hid hguard => (hchange row hrow hid hguard).mono hdue

theorem Write.later (h : Write now due store store') : Later store store' := by
  intro row hrow
  cases h with
  | accept => exact ⟨row, List.mem_append_left _ hrow, .refl row⟩
  | @change eventId guard set hchange =>
      refine ⟨_, mem_updateRows.mpr ⟨row, hrow, rfl⟩, ?_⟩
      split
      · rename_i hguard
        rw [Bool.and_eq_true, decide_eq_true_eq] at hguard
        exact advances_of_change (hchange row hrow hguard.1 hguard.2)
      · exact .refl row

/-- A write behind which an event is blocked, blocked it before. -/
theorem Write.blocks (h : Write now due store store') {candidate earlier' : InboundChannelEvent}
    (hcandidate : candidate.sequence ≤ store.lastSequence) (hearlier' : earlier' ∈ store'.rows)
    (hblocks : InboundChannelEvents.blocks candidate earlier' = true) :
    ∃ earlier ∈ store.rows, InboundChannelEvents.blocks candidate earlier = true := by
  rw [blocks_iff] at hblocks
  obtain ⟨hlane, hsequence, hrunning⟩ := hblocks
  obtain ⟨earlier, hearlier, rfl | hchange⟩ | ⟨-, hnew⟩ := h.row_cases hearlier'
  · exact ⟨earlier', hearlier, blocks_iff.mpr ⟨hlane, hsequence, hrunning⟩⟩
  · refine ⟨earlier, hearlier, blocks_iff.mpr ⟨?_, ?_, hchange.running⟩⟩
    · exact hchange.kept.lane.symm.trans hlane
    · exact hchange.kept.sequence ▸ hsequence
  · omega

theorem Write.served (h : Write now due store store') (hserved : Served store) : Served store' := by
  have hclaims : ∀ row' ∈ store'.rows, row'.claimExpiresAt.isSome = row'.status.isClaimed := by
    cases h with
    | accept => exact forall_mem_append_singleton hserved.claims rfl
    | change hchange =>
        intro row' hrow'
        obtain ⟨row, hrow, rfl⟩ := mem_updateRows.mp hrow'
        split
        · rename_i hguard
          rw [Bool.and_eq_true, decide_eq_true_eq] at hguard
          exact (hchange row hrow hguard.1 hguard.2).kept.claim
        · exact hserved.claims row hrow
  have hfirst : ∀ row' ∈ store'.rows, row'.status.isClaimed = true →
      ∀ earlier' ∈ store'.rows, InboundChannelEvents.blocks row' earlier' = false := by
    intro row' hrow' hclaimed earlier' hearlier'
    by_contra hblocked
    rw [Bool.not_eq_false] at hblocked
    obtain ⟨row, hrow, rfl | hchange⟩ | ⟨haccepted, -⟩ := h.row_cases hrow'
    · obtain ⟨earlier, hearlier, hbefore⟩ :=
        h.blocks (hserved.bounded row' hrow) hearlier' hblocked
      rw [hserved.first row' hrow hclaimed earlier hearlier] at hbefore
      cases hbefore
    · have hbound : row'.sequence ≤ store.lastSequence := by
        rw [hchange.kept.sequence]
        exact hserved.bounded row hrow
      obtain ⟨earlier, hearlier, hbefore⟩ := h.blocks hbound hearlier' hblocked
      have hblocksRow : InboundChannelEvents.blocks row earlier = true := by
        rw [blocks_iff] at hbefore ⊢
        exact ⟨hbefore.1.trans hchange.kept.lane, hchange.kept.sequence ▸ hbefore.2.1,
          hbefore.2.2⟩
      have hfree : InboundChannelEvents.blocks row earlier = false := by
        obtain hbeforeClaimed | hunblocked := hchange.claimed hclaimed
        · exact hserved.first row hrow hbeforeClaimed earlier hearlier
        · exact hunblocked earlier hearlier
      rw [hfree] at hblocksRow
      cases hblocksRow
    · rw [haccepted] at hclaimed
      cases hclaimed
  cases h with
  | @accept input acceptedAt skipped htrim hid hidentity =>
      refine ⟨?_, ?_, ?_, ?_, forall_mem_append_singleton hserved.trimmed htrim,
        forall_mem_append_singleton hserved.linked fun _ heq => (by cases heq), hclaims, hfirst⟩
      · exact nodup_map_append_singleton hserved.ids hid
      · exact nodup_map_append_singleton hserved.identities hidentity
      · refine List.pairwise_append.mpr ⟨hserved.ordered, List.pairwise_singleton _ _, ?_⟩
        intro row hrow other hother
        rw [List.mem_singleton] at hother
        subst hother
        have hbound := hserved.bounded row hrow
        show row.sequence < store.lastSequence + 1 + skipped
        omega
      · apply forall_mem_append_singleton
        · intro row hrow
          have hbound := hserved.bounded row hrow
          show row.sequence ≤ store.lastSequence + 1 + skipped
          omega
        · exact Nat.le_refl _
  | @change eventId guard set hchange =>
      have hkept : ∀ row ∈ store.rows, (decide (row.eventId = eventId) && guard row) = true →
          Kept row (set row) := by
        intro row hrow hguard
        rw [Bool.and_eq_true, decide_eq_true_eq] at hguard
        exact (hchange row hrow hguard.1 hguard.2).kept
      refine ⟨?_, ?_, ?_, ?_, ?_, ?_, hclaims, hfirst⟩
      · rw [map_updateRows_of_mem fun row hrow hguard => (hkept row hrow hguard).eventId]
        exact hserved.ids
      · rw [map_updateRows_of_mem fun row hrow hguard => (hkept row hrow hguard).identity]
        exact hserved.identities
      · have hordered : ((updateRows (fun row => decide (row.eventId = eventId) && guard row) set
            store.rows).map (·.sequence)).Pairwise (· < ·) := by
          rw [map_updateRows_of_mem fun row hrow hguard => (hkept row hrow hguard).sequence]
          exact List.pairwise_map.mpr hserved.ordered
        exact List.pairwise_map.mp hordered
      · intro row' hrow'
        obtain ⟨row, hrow, rfl⟩ := mem_updateRows.mp hrow'
        split
        · rename_i hguard
          rw [(hkept row hrow hguard).sequence]
          exact hserved.bounded row hrow
        · exact hserved.bounded row hrow
      · intro row' hrow'
        obtain ⟨row, hrow, rfl⟩ := mem_updateRows.mp hrow'
        split
        · rename_i hguard
          rw [(hkept row hrow hguard).eventId]
          exact hserved.trimmed row hrow
        · exact hserved.trimmed row hrow
      · intro row' hrow'
        obtain ⟨row, hrow, rfl⟩ := mem_updateRows.mp hrow'
        split
        · rename_i hguard
          exact (hkept row hrow hguard).linked (hserved.linked row hrow)
        · exact hserved.linked row hrow

theorem served_of_writes (h : ReflTransGen (Write now due) store store') (hserved : Served store) :
    Served store' := by
  induction h with
  | refl => exact hserved
  | tail _ hwrite ih => exact hwrite.served ih

theorem later_of_writes (h : ReflTransGen (Write now due) store store') : Later store store' := by
  induction h with
  | refl => exact .refl store
  | tail _ hwrite ih => exact ih.trans hwrite.later

end Writes

/-! ## Operations -/

section Operations

variable {runtime : EventRuntime} {now text : String} {due : String → Prop}
  {store store' : EventStore} {eventId raw : String} {candidate : InboundChannelEvent}

theorem writes_of_update {guard : InboundChannelEvent → Bool}
    {set : InboundChannelEvent → InboundChannelEvent}
    (hchange : ∀ row ∈ store.rows, row.eventId = eventId → guard row = true →
      Change now due store.rows row (set row)) :
    ReflTransGen (Write now due) store ((store.update eventId guard set).getD store) := by
  unfold EventStore.update
  split
  · exact .single (.change hchange)
  · exact .refl

theorem update_eq_some {guard : InboundChannelEvent → Bool}
    {set : InboundChannelEvent → InboundChannelEvent}
    (h : store.update eventId guard set = some store') :
    store' = { store with
      rows := updateRows (fun row => row.eventId = eventId && guard row) set store.rows } := by
  unfold EventStore.update at h
  split at h
  · exact (Option.some.inj h).symm
  · cases h

theorem get_eq_ok {found : Option InboundChannelEvent} (h : store.get eventId = .ok found) :
    found = store.find (trim eventId) := by
  unfold EventStore.get at h
  cases htext : normalizeRequired eventId "eventId" with
  | error error =>
      rw [htext] at h
      cases h
  | ok text =>
      rw [htext] at h
      obtain rfl := Except.ok.inj h
      rw [(requireTrimmed_eq_ok htext).1]

theorem find_eq_some {row : InboundChannelEvent} (h : store.find eventId = some row) :
    row ∈ store.rows ∧ row.eventId = eventId :=
  mem_of_find?_key h

theorem find_eq_none : store.find eventId = none ↔ ∀ row ∈ store.rows, row.eventId ≠ eventId :=
  find?_key_eq_none

/-- The row that a token names is the one that was read. -/
theorem eq_of_find (hids : (store.rows.map (·.eventId)).Nodup) {current row : InboundChannelEvent}
    (hcurrent : store.find eventId = some current) (hrow : row ∈ store.rows)
    (hid : row.eventId = eventId) : row = current := by
  obtain ⟨hmem, hcurrentId⟩ := find_eq_some hcurrent
  exact eq_of_key_eq hids hrow hmem (hid.trans hcurrentId.symm)

/-- An acceptance stores at most one event, under an identifier and an identity that
are new. -/
theorem acceptNormalized_writes {input : NormalizedAcceptance} {acceptedAt : String}
    {skipped : Nat}
    (h : acceptNormalized runtime input acceptedAt skipped store = .ok store') :
    ReflTransGen (Write now due) store store' := by
  unfold acceptNormalized at h
  split at h
  · obtain ⟨_, -, h⟩ := bind_eq_ok.mp h
    obtain rfl := Except.ok.inj h
    exact .refl
  · rename_i hidentity
    obtain ⟨found, hfound, h⟩ := bind_eq_ok.mp h
    split at h
    · cases h
    · obtain hnone := get_eq_ok hfound
      dsimp only at h
      obtain ⟨event, hevent, h⟩ := bind_eq_ok.mp h
      split at h
      · rename_i event
        obtain ⟨_, -, h⟩ := bind_eq_ok.mp h
        obtain rfl := Except.ok.inj h
        unfold insertStmt at hevent ⊢
        split
        · exact .refl
        · rename_i hnew
          rw [if_neg hnew] at hevent
          obtain ⟨hmem, hid⟩ := find_eq_some (get_eq_ok hevent).symm
          have hunused := find_eq_none.mp hnone.symm
          -- The event that is read back is the one that was inserted.
          have htrim : trim input.eventId = input.eventId := by
            obtain hold | hinserted := List.mem_append.mp hmem
            · exact absurd hid (hunused event hold)
            · rw [List.mem_singleton] at hinserted
              rw [← hid, hinserted]
              rfl
          refine .single (.accept htrim ?_ (find?_key_eq_none.mp hidentity))
          rw [← htrim]
          exact hunused
      · obtain ⟨found, -, h⟩ := bind_eq_ok.mp h
        split at h
        · cases h
        · cases h

theorem acceptAll_writes {acceptedAt : String} {items : List (NormalizedAcceptance × Nat)}
    (h : acceptAll runtime acceptedAt items store = .ok store') :
    ReflTransGen (Write now due) store store' := by
  induction items generalizing store with
  | nil =>
      obtain rfl := Except.ok.inj h
      exact .refl
  | cons item items ih =>
      obtain ⟨written, hwritten, h⟩ := bind_eq_ok.mp h
      exact (acceptNormalized_writes hwritten).trans (ih h)

theorem mem_listDueRows {limit : Nat} {lanePrefix : Option String}
    (h : candidate ∈ listDueRows text limit lanePrefix store) :
    candidate ∈ store.rows ∧ candidate.claimable text = true ∧
      ∀ earlier ∈ store.rows, blocks candidate earlier = false := by
  unfold listDueRows at h
  have hsorted := List.mem_of_mem_take h
  rw [List.mem_insertionSort, List.mem_filter] at hsorted
  obtain ⟨hmem, hdue⟩ := hsorted
  simp only [Bool.and_eq_true, Bool.not_eq_true', List.any_eq_false, Bool.not_eq_true] at hdue
  exact ⟨hmem, hdue.1.1, hdue.1.2⟩

theorem mem_listDue {limit : Option Int} {laneKeyPrefix : Option String}
    {candidates : List InboundChannelEvent}
    (h : listDue text limit laneKeyPrefix store = .ok candidates)
    (hcandidate : candidate ∈ candidates) :
    candidate ∈ store.rows ∧ candidate.claimable text = true ∧
      ∀ earlier ∈ store.rows, blocks candidate earlier = false := by
  obtain ⟨limit, -, h⟩ := bind_eq_ok.mp h
  obtain ⟨lanePrefix, -, h⟩ := bind_eq_ok.mp h
  obtain rfl := Except.ok.inj h
  exact mem_listDueRows hcandidate

/-- Nothing unsettled is before the event in its lane. -/
def Free (store : EventStore) (eventId : String) : Prop :=
  ∀ row ∈ store.rows, row.eventId = eventId → ∀ earlier ∈ store.rows, blocks row earlier = false

/-- A write that accepts nothing puts nothing before an event. -/
theorem Write.free (h : Write now due store store') (hserved : Served store)
    (hsame : store'.lastSequence = store.lastSequence) (hfree : Free store eventId) :
    Free store' eventId := by
  intro row' hrow' hid earlier' hearlier'
  by_contra hblocked
  rw [Bool.not_eq_false] at hblocked
  have hbound : row'.sequence ≤ store.lastSequence :=
    hsame ▸ (h.served hserved).bounded row' hrow'
  obtain ⟨earlier, hearlier, hbefore⟩ := h.blocks hbound hearlier' hblocked
  obtain ⟨row, hrow, hcases⟩ | ⟨-, hnew⟩ := h.row_cases hrow'
  · have hkept : row'.eventId = row.eventId ∧ row'.lane = row.lane ∧
        row'.sequence = row.sequence := by
      obtain rfl | hchange := hcases
      · exact ⟨rfl, rfl, rfl⟩
      · exact ⟨hchange.kept.eventId, hchange.kept.lane, hchange.kept.sequence⟩
    obtain ⟨hsameId, hlane, hsequence⟩ := hkept
    have hnot := hfree row hrow (hsameId.symm.trans hid) earlier hearlier
    rw [blocks_iff, hlane, hsequence, ← blocks_iff, hnot] at hbefore
    cases hbefore
  · omega

theorem claimStmt_write {claimToken ownerId claimExpiresAt : String} (hdue : due candidate.eventId)
    (hfree : Free store candidate.eventId)
    (h : claimStmt candidate claimToken ownerId claimExpiresAt now store = some store') :
    Write now due store store' ∧ store'.lastSequence = store.lastSequence := by
  obtain rfl := update_eq_some h
  refine ⟨.change ?_, rfl⟩
  intro row hrow hid hguard
  simp only [Bool.and_eq_true] at hguard
  exact .claim (hid ▸ hdue) hguard.2 (hfree row hrow hid)

/-- The candidates are claimed one after the other, each behind no unsettled event. -/
theorem claimCandidates_writes {ownerId claimExpiresAt : String} {randomUUID : Nat → String}
    {draw : Nat} {candidates : List InboundChannelEvent}
    {claims : List InboundChannelEventClaimToken} (hserved : Served store)
    (hdue : ∀ candidate ∈ candidates, due candidate.eventId)
    (hfree : ∀ candidate ∈ candidates, Free store candidate.eventId)
    (h : claimCandidates ownerId claimExpiresAt now randomUUID draw candidates store =
      .ok (claims, store')) :
    ReflTransGen (Write now due) store store' ∧
      ∀ claim ∈ claims, ∃ candidate ∈ candidates, claim.eventId = trim candidate.eventId := by
  induction candidates generalizing store claims draw with
  | nil =>
      obtain ⟨rfl, rfl⟩ := ok_pair_inj h
      refine ⟨.refl, ?_⟩
      intro claim hclaim
      cases hclaim
  | cons candidate rest ih =>
      have hrest : ∀ other ∈ rest, Free store other.eventId :=
        fun other hother => hfree other (List.mem_cons_of_mem _ hother)
      have hrestDue : ∀ other ∈ rest, due other.eventId :=
        fun other hother => hdue other (List.mem_cons_of_mem _ hother)
      have hweaken : ∀ {claims : List InboundChannelEventClaimToken},
          (∀ claim ∈ claims, ∃ other ∈ rest, claim.eventId = trim other.eventId) →
          ∀ claim ∈ claims, ∃ other ∈ candidate :: rest, claim.eventId = trim other.eventId := by
        intro claims hclaims claim hclaim
        obtain ⟨other, hother, heq⟩ := hclaims claim hclaim
        exact ⟨other, List.mem_cons_of_mem _ hother, heq⟩
      rw [claimCandidates] at h
      split at h
      · obtain ⟨hwrites, hclaims⟩ := ih hserved hrestDue hrest h
        exact ⟨hwrites, hweaken hclaims⟩
      · rename_i written hclaimed
        obtain ⟨hwrite, hsame⟩ := claimStmt_write (hdue candidate List.mem_cons_self)
          (hfree candidate List.mem_cons_self) hclaimed
        obtain ⟨found, hfound, h⟩ := bind_eq_ok.mp h
        split at h
        · cases h
        · rename_i event
          obtain ⟨⟨restClaims, restStore⟩, hrestClaims, h⟩ := bind_eq_ok.mp h
          obtain ⟨rfl, rfl⟩ := ok_pair_inj h
          obtain ⟨hwrites, hclaims⟩ := ih (hwrite.served hserved) hrestDue
            (fun other hother => hwrite.free hserved hsame (hrest other hother)) hrestClaims
          refine ⟨.head hwrite hwrites, ?_⟩
          intro claim hclaim
          obtain rfl | hmem := List.mem_cons.mp hclaim
          · exact ⟨candidate, List.mem_cons_self,
              (find_eq_some (get_eq_ok hfound).symm).2⟩
          · exact hweaken hclaims claim hmem

/-- The times that the calls are evaluated at, under any name of their field. -/
theorem normalizeTimestamp_eq_ok {field : String}
    (h : normalizeTimestamp runtime raw field = .ok text) (other : String) :
    normalizeTimestamp runtime raw other = .ok text := by
  unfold normalizeTimestamp at h ⊢
  split at h
  · exact h
  · cases h

/-- The event is one of the candidates. -/
def Among (candidates : List InboundChannelEvent) (eventId : String) : Prop :=
  ∃ candidate ∈ candidates, candidate.eventId = eventId

/-- What `claimDue` claims was due: it is the first unsettled event of its lane. -/
theorem claimDue_writes {input : ClaimDueInput} {randomUUID : Nat → String}
    {claims : List InboundChannelEventClaimToken} (hserved : Served store)
    (h : claimDue runtime input raw randomUUID store = .ok (claims, store')) :
    ∃ text candidates, normalizeTimestamp runtime raw "now" = .ok text ∧
      listDue text input.limit input.laneKeyPrefix store = .ok candidates ∧
      ReflTransGen (Write text (Among candidates)) store store' ∧
      ∀ claim ∈ claims, Among candidates claim.eventId := by
  obtain ⟨ownerId, -, h⟩ := bind_eq_ok.mp h
  obtain ⟨leaseDurationMs, -, h⟩ := bind_eq_ok.mp h
  obtain ⟨text, htext, h⟩ := bind_eq_ok.mp h
  obtain ⟨claimExpiresAt, -, h⟩ := bind_eq_ok.mp h
  obtain ⟨candidates, hcandidates, h⟩ := bind_eq_ok.mp h
  have hfree : ∀ candidate ∈ candidates, Free store candidate.eventId := by
    intro candidate hcandidate row hrow hid
    obtain ⟨hmem, -, hfirst⟩ := mem_listDue hcandidates hcandidate
    obtain rfl := eq_of_key_eq hserved.ids hrow hmem hid
    exact hfirst
  have hdue : ∀ candidate ∈ candidates, Among candidates candidate.eventId :=
    fun candidate hcandidate => ⟨candidate, hcandidate, rfl⟩
  obtain ⟨hwrites, hclaims⟩ := claimCandidates_writes hserved hdue hfree h
  refine ⟨text, candidates, htext, hcandidates, hwrites, ?_⟩
  intro claim hclaim
  obtain ⟨candidate, hcandidate, heq⟩ := hclaims claim hclaim
  refine ⟨candidate, hcandidate, ?_⟩
  rw [heq]
  exact (hserved.trimmed candidate (mem_listDue hcandidates hcandidate).1).symm

/-! ### Linkages -/

theorem normalizeOptional_ne_empty {value : Option String} {field : String}
    {normalized : Option String} (h : normalizeOptional value field = .ok normalized) :
    normalized ≠ some "" := by
  cases value with
  | none =>
      obtain rfl := Except.ok.inj h
      exact fun heq => by cases heq
  | some value =>
      unfold normalizeOptional at h
      dsimp only at h
      cases htext : normalizeRequired value field with
      | error error =>
          rw [htext] at h
          cases h
      | ok text =>
          rw [htext] at h
          obtain rfl := Except.ok.inj h
          intro heq
          exact (requireTrimmed_eq_ok htext).2 (Option.some.inj heq)

theorem normalizeLinkageColumn_ne_empty {key : LinkageKey} {value normalized : Option String}
    (h : normalizeLinkageColumn key value = .ok normalized) : normalized ≠ some "" := by
  unfold normalizeLinkageColumn at h
  split at h
  · obtain ⟨text, htext, h⟩ := bind_eq_ok.mp h
    split at h
    · cases h
    · obtain rfl := Except.ok.inj h
      exact normalizeOptional_ne_empty htext
  · exact normalizeOptional_ne_empty h

theorem normalizeColumns_ne_empty {linkage normalized : InboundChannelEventLinkage}
    {keys : List LinkageKey} (h : normalizeColumns linkage keys = .ok normalized) :
    ∀ key, normalized key ≠ some "" := by
  induction keys generalizing normalized with
  | nil =>
      obtain rfl := Except.ok.inj h
      exact fun _ heq => by cases heq
  | cons first keys ih =>
      obtain ⟨value, hvalue, h⟩ := bind_eq_ok.mp h
      obtain ⟨rest, hrest, h⟩ := bind_eq_ok.mp h
      obtain rfl := Except.ok.inj h
      intro key
      dsimp only
      split
      · exact normalizeLinkageColumn_ne_empty hvalue
      · exact ih hrest key

/-- A linkage that is compatible agrees with what is stored. -/
theorem assertLinkageCompatible_eq_ok {current : InboundChannelEvent}
    {linkage : InboundChannelEventLinkage} (h : assertLinkageCompatible current linkage = .ok ())
    (key : LinkageKey) (stored given : String) (hstored : current.linkage key = some stored)
    (hgiven : linkage key = some given) (hstoredSet : stored ≠ "") (hgivenSet : given ≠ "") :
    stored = given := by
  unfold assertLinkageCompatible at h
  split at h
  · cases h
  · rename_i hnone
    exact eq_of_firstClash hnone (List.mem_map_of_mem (LinkageKey.mem_all key)) hstored hgiven
      hstoredSet hgivenSet

section Linkage

variable {row : InboundChannelEvent} {linkage : InboundChannelEventLinkage}

theorem coalesce_ne_empty (hgiven : ∀ key, linkage key ≠ some "")
    (hstored : ∀ key, row.linkage key ≠ some "") :
    ∀ key, coalesce linkage row.linkage key ≠ some "" := by
  intro key
  unfold coalesce
  cases hkey : linkage key with
  | none => exact hstored key
  | some given => exact fun heq => hgiven key (hkey.trans heq)

/-- A compatible linkage leaves what is stored. -/
theorem coalesce_stored (hgiven : ∀ key, linkage key ≠ some "")
    (hstored : ∀ key, row.linkage key ≠ some "")
    (hcompatible : assertLinkageCompatible row linkage = .ok ()) :
    ∀ key value, row.linkage key = some value →
      coalesce linkage row.linkage key = some value := by
  intro key value hvalue
  unfold coalesce
  cases hkey : linkage key with
  | none => exact hvalue
  | some given =>
      have hset : value ≠ "" := fun heq => hstored key (heq ▸ hvalue)
      have hgivenSet : given ≠ "" := fun heq => hgiven key (heq ▸ hkey)
      rw [assertLinkageCompatible_eq_ok hcompatible key value given
        hvalue hkey hset hgivenSet]
      rfl

end Linkage

/-! ### Rows of a claim -/

section Held

variable {row : InboundChannelEvent} {token : InboundChannelEventClaimToken} {raw : String}

theorem heldBy_claim (h : heldBy token now row = true) :
    row.claimExpiresAt.isSome = row.status.isClaimed := by
  rw [isSome_of_current (heldBy_spec h).2, (heldBy_spec h).1]

theorem kept_renewedRow {claimExpiresAt : String} (h : heldBy token now row = true) :
    Kept row (renewedRow claimExpiresAt now row) :=
  ⟨rfl, rfl, rfl, rfl, fun _ _ => id, id, (heldBy_spec h).1.symm⟩

theorem kept_releasedRow {status : InboundChannelEventStatus}
    {nextAttemptAt lastError : Option String} (hstatus : status.isClaimed = false) :
    Kept row (releasedRow status nextAttemptAt lastError now row) :=
  ⟨rfl, rfl, rfl, rfl, fun _ _ => id, id, hstatus.symm⟩

theorem kept_evaluatingRow (h : heldBy token now row = true) :
    Kept row (evaluatingRow now row) :=
  ⟨rfl, rfl, rfl, rfl, fun _ _ => id, id, heldBy_claim h⟩

theorem kept_evaluatedRow {decision : InboundChannelBotLoopDecision} {reason : Option String}
    (h : heldBy token now row = true) : Kept row (evaluatedRow decision reason now row) :=
  ⟨rfl, rfl, rfl, rfl, fun _ _ => id, id, heldBy_claim h⟩

theorem kept_attachedRow {linkage : InboundChannelEventLinkage}
    (h : heldBy token now row = true) (hgiven : ∀ key, linkage key ≠ some "")
    (hstored : ∀ key, row.linkage key ≠ some "")
    (hcompatible : assertLinkageCompatible row linkage = .ok ()) :
    Kept row (attachedRow linkage now row) :=
  ⟨rfl, rfl, rfl, rfl, coalesce_stored hgiven hstored hcompatible,
    fun _ => coalesce_ne_empty hgiven hstored, heldBy_claim h⟩

theorem isClaimed_of_releasesClaim {status : InboundChannelEventStatus}
    (hstatus : status ≠ .accepted) : status.isClaimed = !releasesClaim status := by
  cases status with
  | accepted => exact absurd rfl hstatus
  | _ => rfl

theorem kept_transitionedRow {columns : InboundChannelEventClaimedTransition}
    (h : heldBy token now row = true)
    (hstatus : columns.status ≠ .accepted) (hgiven : ∀ key, columns.linkage key ≠ some "")
    (hstored : ∀ key, row.linkage key ≠ some "")
    (hcompatible : assertLinkageCompatible row columns.linkage = .ok ()) :
    Kept row (transitionedRow columns now row) := by
  refine ⟨rfl, rfl, rfl, rfl, coalesce_stored hgiven hstored hcompatible,
    fun _ => coalesce_ne_empty hgiven hstored, ?_⟩
  show (if releasesClaim columns.status = true then none else row.claimExpiresAt).isSome =
    columns.status.isClaimed
  rw [isClaimed_of_releasesClaim hstatus]
  split
  · rename_i hreleases
    rw [hreleases]
    rfl
  · rename_i hkeeps
    rw [isSome_of_current (heldBy_spec h).2, Bool.not_eq_true _ |>.mp hkeeps]
    rfl

/-- What an operation with a token does, which is nothing when the token holds no row. -/
def HeldWrites (runtime : EventRuntime) (token : InboundChannelEventClaimToken) (raw : String)
    (store store' : EventStore) : Prop :=
  ∃ held text, normalizeClaimToken token = .ok held ∧
    normalizeTimestamp runtime raw "now" = .ok text ∧
    (∀ due, ReflTransGen (Write text due) store store') ∧
    ((∀ row ∈ store.rows, row.eventId = held.eventId → heldBy held text row = false) →
      store' = store)

theorem updateHeld_writes {held : InboundChannelEventClaimToken}
    (hheld : normalizeClaimToken token = .ok held)
    (htext : normalizeTimestamp runtime raw "now" = .ok text) {guard : InboundChannelEvent → Bool}
    {set : InboundChannelEvent → InboundChannelEvent}
    (hkept : ∀ row ∈ store.rows, row.eventId = held.eventId → heldBy held text row = true →
      Kept row (set row)) :
    HeldWrites runtime token raw store (updateHeld held text guard set store) := by
  refine ⟨held, text, hheld, htext, ?_, ?_⟩
  · intro due
    apply writes_of_update
    intro row hrow hid hguard
    rw [Bool.and_eq_true] at hguard
    exact .held hguard.1 (hkept row hrow hid hguard.1)
  · intro hnone
    have hany : (store.rows.any fun row =>
        row.eventId = held.eventId && (heldBy held text row && guard row)) = false := by
      rw [List.any_eq_false]
      intro row hrow hfound
      rw [Bool.and_eq_true, decide_eq_true_eq, Bool.and_eq_true] at hfound
      rw [hnone row hrow hfound.1] at hfound
      cases hfound.2.1
    unfold updateHeld EventStore.update
    rw [hany]
    rfl

theorem heldWrites_same {held : InboundChannelEventClaimToken}
    (hheld : normalizeClaimToken token = .ok held)
    (htext : normalizeTimestamp runtime raw "now" = .ok text) :
    HeldWrites runtime token raw store store :=
  ⟨held, text, hheld, htext, fun _ => .refl, fun _ => rfl⟩

theorem renew_writes {leaseDurationMs : Int}
    (h : renew runtime token leaseDurationMs raw store = .ok store') :
    HeldWrites runtime token raw store store' := by
  obtain ⟨held, hheld, h⟩ := bind_eq_ok.mp h
  obtain ⟨text, htext, h⟩ := bind_eq_ok.mp h
  obtain ⟨lease, -, h⟩ := bind_eq_ok.mp h
  obtain ⟨claimExpiresAt, -, h⟩ := bind_eq_ok.mp h
  obtain rfl := Except.ok.inj h
  exact updateHeld_writes hheld htext fun row _ _ hrowHeld => kept_renewedRow hrowHeld

theorem release_writes {nextAttemptAt lastError : Option String}
    (h : release runtime token nextAttemptAt lastError raw store = .ok store') :
    HeldWrites runtime token raw store store' := by
  obtain ⟨held, hheld, h⟩ := bind_eq_ok.mp h
  obtain ⟨text, htext, h⟩ := bind_eq_ok.mp h
  obtain ⟨next, -, h⟩ := bind_eq_ok.mp h
  obtain ⟨error, -, h⟩ := bind_eq_ok.mp h
  obtain rfl := Except.ok.inj h
  apply updateHeld_writes hheld htext
  intro row _ _ _
  apply kept_releasedRow
  split
  · rfl
  · rfl

theorem attachLinkage_writes {linkage : InboundChannelEventLinkage} (hserved : Served store)
    (h : attachLinkage runtime token linkage raw store = .ok store') :
    HeldWrites runtime token raw store store' := by
  obtain ⟨held, hheld, h⟩ := bind_eq_ok.mp h
  obtain ⟨text, htext, h⟩ := bind_eq_ok.mp h
  split at h
  · obtain rfl := Except.ok.inj h
    exact heldWrites_same hheld htext
  · rename_i current hcurrent
    obtain ⟨normalized, hnormalized, h⟩ := bind_eq_ok.mp h
    obtain ⟨_, hcompatible, h⟩ := bind_eq_ok.mp h
    obtain rfl := Except.ok.inj h
    apply updateHeld_writes hheld htext
    intro row hrow hid hrowHeld
    obtain rfl := eq_of_find hserved.ids hcurrent hrow hid
    exact kept_attachedRow hrowHeld (normalizeColumns_ne_empty hnormalized)
      (hserved.linked row hrow) hcompatible

theorem beginBotLoopEvaluation_writes
    (h : beginBotLoopEvaluation runtime token raw store = .ok store') :
    HeldWrites runtime token raw store store' := by
  obtain ⟨held, hheld, h⟩ := bind_eq_ok.mp h
  obtain ⟨text, htext, h⟩ := bind_eq_ok.mp h
  split at h
  · obtain rfl := Except.ok.inj h
    exact heldWrites_same hheld htext
  · split at h
    · obtain rfl := Except.ok.inj h
      exact heldWrites_same hheld htext
    · obtain rfl := Except.ok.inj h
      exact updateHeld_writes hheld htext fun row _ _ hrowHeld => kept_evaluatingRow hrowHeld

theorem completeBotLoopEvaluation_writes {decision : CompletedDecision} {reason : Option String}
    (h : completeBotLoopEvaluation runtime token decision reason raw store = .ok store') :
    HeldWrites runtime token raw store store' := by
  obtain ⟨held, hheld, h⟩ := bind_eq_ok.mp h
  obtain ⟨text, htext, h⟩ := bind_eq_ok.mp h
  obtain ⟨evidence, -, h⟩ := bind_eq_ok.mp h
  split at h
  · obtain rfl := Except.ok.inj h
    exact heldWrites_same hheld htext
  · split at h
    · obtain rfl := Except.ok.inj h
      exact heldWrites_same hheld htext
    · split at h
      · split at h
        · cases h
        · obtain rfl := Except.ok.inj h
          exact heldWrites_same hheld htext
      · split at h
        · cases h
        · obtain rfl := Except.ok.inj h
          exact updateHeld_writes hheld htext fun row _ _ hrowHeld => kept_evaluatedRow hrowHeld

theorem transitionClaimed_writes {transition : InboundChannelEventClaimedTransition}
    (hserved : Served store)
    (h : transitionClaimed runtime token transition raw store = .ok store') :
    HeldWrites runtime token raw store store' := by
  obtain ⟨held, hheld, h⟩ := bind_eq_ok.mp h
  obtain ⟨text, htext, h⟩ := bind_eq_ok.mp h
  split at h
  · cases h
  · rename_i hsupported
    split at h
    · cases h
    · split at h
      · cases h
      · obtain ⟨nextAttemptAt, -, h⟩ := bind_eq_ok.mp h
        obtain ⟨linkage, hlinkage, h⟩ := bind_eq_ok.mp h
        split at h
        · obtain rfl := Except.ok.inj h
          exact heldWrites_same hheld htext
        · rename_i current hcurrent
          obtain ⟨_, hcompatible, h⟩ := bind_eq_ok.mp h
          split at h
          · split at h
            · obtain rfl := Except.ok.inj h
              exact heldWrites_same hheld htext
            · obtain ⟨_, -, h⟩ := bind_eq_ok.mp h
              obtain rfl := Except.ok.inj h
              exact heldWrites_same hheld htext
          · split at h
            · cases h
            · obtain ⟨lastError, -, h⟩ := bind_eq_ok.mp h
              obtain ⟨reconciliationReason, -, h⟩ := bind_eq_ok.mp h
              obtain rfl := Except.ok.inj h
              apply updateHeld_writes hheld htext
              intro row hrow hid hrowHeld
              obtain rfl := eq_of_find hserved.ids hcurrent hrow hid
              exact kept_transitionedRow hrowHeld (fun heq => hsupported (.inl heq))
                (normalizeColumns_ne_empty hlinkage) (hserved.linked row hrow) hcompatible

end Held

/-- The claims that were listed are recovered one after the other. -/
theorem recoverAll_writes (listed : List InboundChannelEvent) :
    ReflTransGen (Write text due) store
      (listed.foldl (fun store listed => recoverExpiredStmt listed text store) store) := by
  induction listed generalizing store with
  | nil => exact .refl
  | cons row rows ih =>
      rw [List.foldl_cons]
      refine ReflTransGen.trans ?_ ih
      apply writes_of_update
      intro row _ _ hguard
      simp only [Bool.and_eq_true] at hguard
      exact .recover hguard.1.1.1.1 hguard.2

theorem recoverExpiredClaims_writes {limit : Option Int}
    (h : recoverExpiredClaims runtime limit raw store = .ok store') :
    ∃ text, normalizeTimestamp runtime raw "now" = .ok text ∧
      ∀ due, ReflTransGen (Write text due) store store' := by
  obtain ⟨text, htext, h⟩ := bind_eq_ok.mp h
  obtain ⟨limit, -, h⟩ := bind_eq_ok.mp h
  obtain rfl := Except.ok.inj h
  exact ⟨text, htext, fun _ => recoverAll_writes _⟩

theorem accept_writes {acceptance : Acceptance}
    (h : accept runtime acceptance raw store = .ok store') :
    ∃ text, normalizeTimestamp runtime raw "now" = .ok text ∧
      ∀ due, ReflTransGen (Write text due) store store' := by
  obtain ⟨text, htext, h⟩ := bind_eq_ok.mp h
  obtain ⟨item, -, h⟩ := bind_eq_ok.mp h
  exact ⟨text, normalizeTimestamp_eq_ok htext "now", fun _ => acceptNormalized_writes h⟩

theorem acceptMany_writes {acceptances : List Acceptance} {telegramPollRevision : Option String}
    {connections : Option (String → Option String)}
    (h : acceptMany runtime acceptances raw telegramPollRevision connections store =
      .ok store') :
    ∃ text, normalizeTimestamp runtime raw "now" = .ok text ∧
      ∀ due, ReflTransGen (Write text due) store store' := by
  obtain ⟨text, htext, h⟩ := bind_eq_ok.mp h
  obtain ⟨items, -, h⟩ := bind_eq_ok.mp h
  refine ⟨text, normalizeTimestamp_eq_ok htext "now", fun due => ?_⟩
  split at h
  · exact acceptAll_writes h
  · split at h
    · split at h
      · cases h
      · split at h
        · cases h
        · obtain ⟨_, -, h⟩ := bind_eq_ok.mp h
          exact acceptAll_writes h
    · cases h

end Operations

/-! ## Steps -/

/-- The token that a call carries. -/
def InboundCall.token : InboundCall → Option InboundChannelEventClaimToken
  | .renew token _ | .release token _ _ | .attachLinkage token _
  | .beginBotLoopEvaluation token | .completeBotLoopEvaluation token _ _
  | .transitionClaimed token _ => some token
  | .accept _ | .acceptMany _ _ _ | .claimDue _ _ | .recoverExpiredClaims _ | .wait => none

section Steps

variable {runtime : EventRuntime} {system system' : EventSystem} {transaction : Transaction}

theorem map_eq_ok {claims : List InboundChannelEventClaimToken} {store' : EventStore}
    {result : Except InboundChannelEventError EventStore}
    (h : (([], ·) : EventStore → List InboundChannelEventClaimToken × EventStore) <$> result =
      .ok (claims, store')) : claims = [] ∧ result = .ok store' := by
  cases result with
  | error error => cases h
  | ok written =>
      obtain ⟨rfl, rfl⟩ := ok_pair_inj h
      exact ⟨rfl, rfl⟩

/-- The events that a transaction may claim. -/
def Transaction.Due (runtime : EventRuntime) (system : EventSystem) (transaction : Transaction)
    (eventId : String) : Prop :=
  ∃ input randomUUID candidates, transaction.call = .claimDue input randomUUID ∧
    listDue (transaction.clock runtime system.clock) input.limit input.laneKeyPrefix
      system.store = .ok candidates ∧ Among candidates eventId

/-- What a transaction does to the table, and what it tells. -/
structure StepEffect (runtime : EventRuntime) (system : EventSystem) (transaction : Transaction)
    (system' : EventSystem) : Prop where
  writes : ReflTransGen (Write system'.clock (transaction.Due runtime system))
    system.store system'.store
  token : ∀ token, transaction.call.token = some token →
    system'.store = system.store ∨
      HeldWrites runtime token transaction.now system.store system'.store
  claims : ∀ claim ∈ transaction.claims, transaction.Due runtime system claim.eventId

theorem clock_of_text {text : String}
    (hclock : system'.clock = transaction.clock runtime system.clock)
    (htext : normalizeTimestamp runtime transaction.now "now" = .ok text) :
    system'.clock = text := by
  rw [hclock, Transaction.clock, htext]

theorem effect_of_held {token : InboundChannelEventClaimToken}
    (hclock : system'.clock = transaction.clock runtime system.clock)
    (htoken : transaction.call.token = some token) (hclaims : transaction.claims = [])
    (h : HeldWrites runtime token transaction.now system.store system'.store) :
    StepEffect runtime system transaction system' := by
  have hheld := h
  obtain ⟨held, text, -, htext, hwrites, -⟩ := hheld
  refine ⟨?_, ?_, ?_⟩
  · rw [clock_of_text hclock htext]
    exact hwrites _
  · intro other hother
    rw [htoken] at hother
    obtain rfl := Option.some.inj hother
    exact .inr h
  · rw [hclaims]
    intro claim hclaim
    cases hclaim

theorem effect_of_writes (hclock : system'.clock = transaction.clock runtime system.clock)
    (htoken : transaction.call.token = none) (hclaims : transaction.claims = [])
    (h : ∃ text, normalizeTimestamp runtime transaction.now "now" = .ok text ∧
      ∀ due, ReflTransGen (Write text due) system.store system'.store) :
    StepEffect runtime system transaction system' := by
  obtain ⟨text, htext, hwrites⟩ := h
  refine ⟨?_, ?_, ?_⟩
  · rw [clock_of_text hclock htext]
    exact hwrites _
  · intro token hsome
    rw [htoken] at hsome
    cases hsome
  · rw [hclaims]
    intro claim hclaim
    cases hclaim

theorem step_effect (hserved : Served system.store)
    (h : system.Step runtime transaction system') :
    StepEffect runtime system transaction system' := by
  obtain ⟨store, clock⟩ := system
  obtain ⟨call, raw, claims⟩ := transaction
  obtain ⟨store', clock'⟩ := system'
  obtain ⟨-, hclock, hperform⟩ := h
  dsimp only at hserved hclock hperform
  split at hperform
  · rename_i returned written hreturned
    obtain ⟨rfl, rfl⟩ := hperform
    cases call with
    | accept acceptance =>
        obtain ⟨hclaims, haccept⟩ := map_eq_ok hreturned
        exact effect_of_writes hclock rfl hclaims (accept_writes haccept)
    | acceptMany acceptances telegramPollRevision connections =>
        obtain ⟨hclaims, haccept⟩ := map_eq_ok hreturned
        exact effect_of_writes hclock rfl hclaims (acceptMany_writes haccept)
    | claimDue input randomUUID =>
        obtain ⟨text, candidates, htext, hcandidates, hwrites, hclaims⟩ :=
          claimDue_writes hserved hreturned
        have hnow : Transaction.clock runtime ⟨.claimDue input randomUUID, raw, claims⟩ clock =
            text := by rw [Transaction.clock, htext]
        have hdue : ∀ id, Among candidates id →
            Transaction.Due runtime ⟨store, clock⟩ ⟨.claimDue input randomUUID, raw, claims⟩
              id := by
          intro id hcandidate
          refine ⟨input, randomUUID, candidates, rfl, ?_, hcandidate⟩
          rw [hnow]
          exact hcandidates
        refine ⟨?_, fun token hsome => (by cases hsome), fun claim hclaim =>
          hdue claim.eventId (hclaims claim hclaim)⟩
        show ReflTransGen (Write clock' _) store store'
        rw [hclock, hnow]
        exact ReflTransGen.mono (fun _ _ => Write.mono hdue) _ _ hwrites
    | renew token leaseDurationMs =>
        obtain ⟨hclaims, hrenew⟩ := map_eq_ok hreturned
        exact effect_of_held hclock rfl hclaims (renew_writes hrenew)
    | release token nextAttemptAt lastError =>
        obtain ⟨hclaims, hrelease⟩ := map_eq_ok hreturned
        exact effect_of_held hclock rfl hclaims (release_writes hrelease)
    | attachLinkage token linkage =>
        obtain ⟨hclaims, hattach⟩ := map_eq_ok hreturned
        exact effect_of_held hclock rfl hclaims (attachLinkage_writes hserved hattach)
    | beginBotLoopEvaluation token =>
        obtain ⟨hclaims, hbegin⟩ := map_eq_ok hreturned
        exact effect_of_held hclock rfl hclaims (beginBotLoopEvaluation_writes hbegin)
    | completeBotLoopEvaluation token decision reason =>
        obtain ⟨hclaims, hcomplete⟩ := map_eq_ok hreturned
        exact effect_of_held hclock rfl hclaims (completeBotLoopEvaluation_writes hcomplete)
    | transitionClaimed token transition =>
        obtain ⟨hclaims, htransition⟩ := map_eq_ok hreturned
        exact effect_of_held hclock rfl hclaims (transitionClaimed_writes hserved htransition)
    | recoverExpiredClaims limit =>
        obtain ⟨hclaims, hrecover⟩ := map_eq_ok hreturned
        exact effect_of_writes hclock rfl hclaims (recoverExpiredClaims_writes hrecover)
    | wait =>
        obtain ⟨rfl, rfl⟩ := ok_pair_inj hreturned
        exact ⟨.refl, fun token hsome => (by cases hsome), fun claim hclaim => by cases hclaim⟩
  · obtain ⟨rfl, rfl⟩ := hperform
    exact ⟨.refl, fun _ _ => .inl rfl, fun claim hclaim => by cases hclaim⟩

theorem served_of_run {transactions : List Transaction}
    (h : Run (EventSystem.Step runtime) .initial transactions system) : Served system.store := by
  have hstep : ∀ system transaction system',
      EventSystem.Step runtime system transaction system' → Served system.store →
        Served system'.store := by
    intro system transaction system' hstep hserved
    exact served_of_writes (step_effect hserved hstep).writes hserved
  exact Run.invariant (I := fun system => Served system.store) hstep h served_initial

/-- What holds of the table after a run. -/
structure LanesServed (system : EventSystem) : Prop where
  stored : (system.store.rows.map (·.identity)).Nodup
  oneClaim : ∀ now, ∀ row ∈ system.store.rows, ∀ other ∈ system.store.rows,
    row.lane = other.lane → row.current now = true → other.current now = true → row = other
  inOrder : ∀ row ∈ system.store.rows, row.status.isClaimed = true →
    ∀ earlier ∈ system.store.rows, earlier.lane = row.lane →
      earlier.sequence < row.sequence → earlier.status.isTerminal = true

/-- What holds of a transaction after a run. -/
structure LaneRules (runtime : EventRuntime) (system : EventSystem) (transaction : Transaction)
    (system' : EventSystem) : Prop where
  claimed : ∀ claim ∈ transaction.claims, ∃ row ∈ system.store.rows,
    row.eventId = claim.eventId ∧ ∀ earlier ∈ system.store.rows, earlier.lane = row.lane →
      earlier.sequence < row.sequence → earlier.status.isTerminal = true
  fenced : ∀ token, transaction.call.token = some token →
    (∀ held, normalizeClaimToken token = .ok held → ∀ row ∈ system.store.rows,
      row.eventId = held.eventId → heldBy held system'.clock row = false) →
    system'.store = system.store
  settled : ∀ row ∈ system.store.rows, row.status.isTerminal = true → row ∈ system'.store.rows
  linked : ∀ row ∈ system.store.rows, ∃ row' ∈ system'.store.rows, row'.eventId = row.eventId ∧
    ∀ key value, row.linkage key = some value → row'.linkage key = some value

theorem terminal_of_not_blocks {row earlier : InboundChannelEvent}
    (h : blocks row earlier = false) (hlane : earlier.lane = row.lane)
    (hsequence : earlier.sequence < row.sequence) : earlier.status.isTerminal = true := by
  by_contra hrunning
  rw [Bool.not_eq_true] at hrunning
  rw [blocks_iff.mpr ⟨hlane, hsequence, hrunning⟩] at h
  cases h

theorem Served.lanes (h : Served system.store) : LanesServed system where
  stored := h.identities
  inOrder := by
    intro row hrow hclaimed earlier hearlier hlane hsequence
    exact terminal_of_not_blocks (h.first row hrow hclaimed earlier hearlier) hlane hsequence
  oneClaim := by
    have hclaimed : ∀ {now : String}, ∀ row ∈ system.store.rows, row.current now = true →
        row.status.isClaimed = true := by
      intro now row hrow hcurrent
      rw [← h.claims row hrow]
      exact isSome_of_current hcurrent
    -- Of two claimed events the later one would be behind the earlier one.
    have hnotBefore : ∀ {now : String}, ∀ row ∈ system.store.rows, ∀ other ∈ system.store.rows,
        row.lane = other.lane → row.current now = true → other.current now = true →
          ¬row.sequence < other.sequence := by
      intro now row hrow other hother hlane hcurrent hotherCurrent hlt
      have hterminal := terminal_of_not_blocks
        (h.first other hother (hclaimed other hother hotherCurrent) row hrow) hlane hlt
      rw [not_terminal_of_claimed (hclaimed row hrow hcurrent)] at hterminal
      cases hterminal
    intro now row hrow other hother hlane hcurrent hotherCurrent
    have hordered : (system.store.rows.map (·.sequence)).Nodup :=
      (List.pairwise_map.mpr h.ordered).imp fun hlt => Nat.ne_of_lt hlt
    refine eq_of_key_eq hordered hrow hother ?_
    have hle := hnotBefore row hrow other hother hlane hcurrent hotherCurrent
    have hge := hnotBefore other hother row hrow hlane.symm hotherCurrent hcurrent
    omega

theorem Served.rules (hserved : Served system.store)
    (h : system.Step runtime transaction system') :
    LaneRules runtime system transaction system' := by
  have heffect := step_effect hserved h
  have hlater := later_of_writes heffect.writes
  refine ⟨?_, ?_, ?_, ?_⟩
  · intro claim hclaim
    obtain ⟨_, _, candidates, -, hcandidates, candidate, hcandidate, heq⟩ :=
      heffect.claims claim hclaim
    obtain ⟨hmem, -, hfirst⟩ := mem_listDue hcandidates hcandidate
    exact ⟨candidate, hmem, heq, fun earlier hearlier =>
      terminal_of_not_blocks (hfirst earlier hearlier)⟩
  · intro token htoken hnone
    obtain hsame | ⟨held, text, hheld, htext, -, hfenced⟩ := heffect.token token htoken
    · exact hsame
    · apply hfenced
      intro row hrow hid
      rw [← clock_of_text h.2.1 htext]
      exact hnone held hheld row hrow hid
  · intro row hrow hterminal
    obtain ⟨row', hrow', hadvances⟩ := hlater row hrow
    rw [← hadvances.settled hterminal]
    exact hrow'
  · intro row hrow
    obtain ⟨row', hrow', hadvances⟩ := hlater row hrow
    exact ⟨row', hrow', hadvances.eventId, hadvances.linkage⟩

/-- In every interleaving of the transactions of any workers the lanes are served in
order, one event at a time, and what is settled or linked stays so. -/
theorem lanes_served_in_order {transactions : List Transaction}
    (hrun : Run (EventSystem.Step runtime) .initial transactions system) :
    LanesServed system ∧ ∀ transaction system', system.Step runtime transaction system' →
      LaneRules runtime system transaction system' := by
  have hserved := served_of_run hrun
  exact ⟨hserved.lanes, fun transaction system' hstep => hserved.rules hstep⟩

end Steps

/-! ## An example -/

section Computed

variable (runtime : EventRuntime)

/-- The system after a transaction, computed. -/
def EventSystem.next (system : EventSystem) (transaction : Transaction) : EventSystem where
  store :=
    match transaction.call.perform runtime transaction.now system.store with
    | .ok (_, written) => written
    | .error _ => system.store
  clock := transaction.clock runtime system.clock

/-- The transaction is not too early, and returns the claims that the call returns. -/
def Transaction.agrees (system : EventSystem) (transaction : Transaction) : Bool :=
  timeLe system.clock (transaction.clock runtime system.clock) &&
    match transaction.call.perform runtime transaction.now system.store with
    | .ok (claims, _) => transaction.claims = claims
    | .error _ => transaction.claims = []

theorem step_next (system : EventSystem) (transaction : Transaction)
    (h : transaction.agrees runtime system = true) :
    system.Step runtime transaction (system.next runtime transaction) := by
  obtain ⟨htime, hclaims⟩ := Bool.and_eq_true_iff.mp h
  refine ⟨htime, rfl, ?_⟩
  unfold EventSystem.next
  dsimp only
  cases hperform : transaction.call.perform runtime transaction.now system.store with
  | error error =>
      rw [hperform] at hclaims
      exact ⟨of_decide_eq_true hclaims, rfl⟩
  | ok result =>
      rw [hperform] at hclaims
      exact ⟨of_decide_eq_true hclaims, rfl⟩

end Computed

/-- The first seconds, and the digest of an empty payload. -/
def sampleRuntime : EventRuntime where
  dates := .ofList
    [(0, "1970-01-01T00:00:00.000Z"), (1000, "1970-01-01T00:00:01.000Z"),
     (2000, "1970-01-01T00:00:02.000Z"), (3000, "1970-01-01T00:00:03.000Z")] (by decide)
  sha256 text :=
    if text = "\x7b\x7d" then "44136fa355b3678a1146ad16f7e8649e94fb4fc21fe77e8310c060f61caaff8a"
    else ""

def sampleAcceptance : Acceptance where
  input :=
    { eventId := some "command-1"
      channelKey := "discord"
      connectionId := "connection-1"
      transport := "discord_gateway"
      dispatchKind := "command"
      providerSourceId := none
      idempotencyKey := "discord:interaction:command-1"
      laneKey := "channel-1"
      payload := []
      receivedAt := none }
  randomUUID := "random"
  skipped := 0

def sampleClaim : ClaimDueInput where
  ownerId := "worker-1"
  leaseDurationMs := 1000
  limit := none
  laneKeyPrefix := none

/-- The token of the claim with this number. -/
def sampleToken (generation : Nat) : InboundChannelEventClaimToken where
  eventId := "command-1"
  ownerId := "worker-1"
  generation := generation
  claimToken := "claim-" ++ toString generation

def sampleTransition (status : InboundChannelEventStatus) :
    InboundChannelEventClaimedTransition where
  status := status
  nextAttemptAt := none
  lastError := none
  reconciliationReason := none
  linkage _ := none

/-- A command is accepted, claimed, and started. -/
def sampleStart : List Transaction :=
  let now := "1970-01-01T00:00:00.000Z"
  [⟨.accept sampleAcceptance, now, []⟩,
   ⟨.claimDue sampleClaim fun _ => "claim-1", now, [sampleToken 1]⟩,
   ⟨.transitionClaimed (sampleToken 1) (sampleTransition .messageRecorded), now, []⟩,
   ⟨.transitionClaimed (sampleToken 1) (sampleTransition .commandExecutionStarted), now, []⟩]

def secondAcceptance : Acceptance :=
  { sampleAcceptance with
    input := { sampleAcceptance.input with
      eventId := some "command-2"
      idempotencyKey := "discord:interaction:command-2" } }

/-- A second command of the lane is claimed when the first one has ended. -/
def sampleLane : List Transaction :=
  let now := "1970-01-01T00:00:00.000Z"
  sampleStart ++
    [⟨.accept secondAcceptance, now, []⟩,
     ⟨.claimDue sampleClaim fun _ => "claim-2", now, []⟩,
     ⟨.transitionClaimed (sampleToken 1) (sampleTransition .completed), now, []⟩,
     ⟨.claimDue sampleClaim fun _ => "claim-1", now,
       [{ sampleToken 1 with eventId := "command-2" }]⟩]

/-- The two commands are served one after the other. -/
theorem second_command_served :
    ∃ system, Run (EventSystem.Step sampleRuntime) .initial sampleLane system ∧
      LanesServed system := by
  have hrun := Run.of_next (step_next sampleRuntime) .initial sampleLane (by decide +kernel)
  exact ⟨_, hrun, (lanes_served_in_order hrun).1⟩

end GoatCitadel.Storage.InboundChannelEvents
