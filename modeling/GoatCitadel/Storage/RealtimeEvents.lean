import GoatCitadel.Policy.CanonicalJson
import GoatCitadel.Support.Keyset
import GoatCitadel.Support.Runs
import GoatCitadel.Support.Text

/-!
# Realtime events

Every event is stored under the next sequence of its stream.  Pruning removes a prefix
of the sequences and records up to where it went.  A reader that resumes at a position
at or after that mark finds every event that was ever committed after its position.

The payload of an event is the decoded column, with its envelope and its attribution.
-/

namespace GoatCitadel.Storage.RealtimeEvents

open GoatCitadel.Support
open GoatCitadel.Policy (Collation JsonObject JsonValue ownOrder)

/-! ## Records -/

/-- A row of `realtime_events`. -/
structure RealtimeEventRow where
  eventId : String
  sequence : Nat
  eventType : String
  source : String
  payload : JsonObject
  createdAt : String

/-- The events, the last sequence of their stream and the mark of its retention. -/
structure EventStore where
  rows : List RealtimeEventRow
  lastSequence : Option Nat
  retentionFloor : Option Nat

/-- The tables as they are created. -/
def EventStore.initial : EventStore where
  rows := []
  lastSequence := some 0
  retentionFloor := none

/-- What is to be stored as an event: for a delivery, under its own id. -/
structure AppendInput where
  eventId : String
  eventType : String
  source : String
  payload : JsonObject
  createdAt : String

/-! ## Appending -/

def envelopeKeys : List String :=
  ["__gcEventClass", "__gcEventAuthority", "__gcEventLinks"]

def stripRealtimeEnvelope (payload : JsonObject) : JsonObject :=
  payload.filter fun member => member.1 ∉ envelopeKeys

section

variable (collation : Collation)

mutual

/-- `sortJson` -/
def sortJson : JsonValue → JsonValue
  | .array items => .array (sortJsonItems items)
  | .object fields =>
      .object (ownOrder ((sortJsonFields fields).insertionSort
        fun a b => collation.le a.1 b.1 = true))
  | .null => .null
  | .bool value => .bool value
  | .number text => .number text
  | .string value => .string value

def sortJsonItems : List JsonValue → List JsonValue
  | [] => []
  | item :: items => sortJson item :: sortJsonItems items

def sortJsonFields : List (String × JsonValue) → List (String × JsonValue)
  | [] => []
  | (key, value) :: fields => (key, sortJson value) :: sortJsonFields fields

end

def stableJson (payload : JsonObject) : String :=
  (sortJson collation (.object payload)).stringify

/-- `assertRealtimeIdempotencyMatch` -/
def realtimeIdempotencyMatch (persisted : RealtimeEventRow) (input : AppendInput) : Bool :=
  persisted.eventType = input.eventType && persisted.source = input.source &&
    stableJson collation (stripRealtimeEnvelope persisted.payload) =
      stableJson collation (stripRealtimeEnvelope input.payload)

end

/-- `getByIdStmt` -/
def EventStore.getById (store : EventStore) (eventId : String) : Option RealtimeEventRow :=
  store.rows.find? fun row => row.eventId = eventId

/-- The transaction of `appendInternal`, with the row that it inserts. -/
def appendTransaction (input : AppendInput) (store : EventStore) :
    Except String (RealtimeEventRow × Bool × EventStore) :=
  match store.getById input.eventId with
  | some existing => .ok (existing, false, store)
  | none =>
      -- Without a row of the stream nothing is allocated, and the first sequence is taken.
      let sequence := (store.lastSequence.map (· + 1)).getD 1
      if store.rows.any (fun row => row.sequence = sequence) = true then
        .error "UNIQUE constraint failed: realtime_events.sequence"
      else
        let row : RealtimeEventRow :=
          { eventId := input.eventId
            sequence
            eventType := input.eventType
            source := input.source
            payload := input.payload
            createdAt := input.createdAt }
        .ok (row, true,
          { store with
            rows := store.rows ++ [row]
            lastSequence := store.lastSequence.map (· + 1) })

/-- `appendInternal`: the answer, and the tables after it. -/
def appendInternal (collation : Collation) (input : AppendInput) (store : EventStore) :
    Except String (RealtimeEventRow × Bool) × EventStore :=
  match appendTransaction input store with
  | .error message => (.error message, store)
  | .ok (row, inserted, store') =>
      if inserted = false ∧ realtimeIdempotencyMatch collation row input = false then
        (.error s!"Realtime delivery id {row.eventId} was reused with a different payload.", store')
      else (.ok (row, inserted), store')

/-! ## Reading -/

def listAfterSequence (afterSequence limit : Nat) (store : EventStore) : List RealtimeEventRow :=
  keysetPage RealtimeEventRow.sequence (some afterSequence) limit store.rows

structure SequenceBounds where
  oldestSequence : Option Nat
  newestSequence : Option Nat
  lastPrunedSequence : Option Nat

def getSequenceBounds (store : EventStore) : SequenceBounds where
  oldestSequence := (store.rows.map RealtimeEventRow.sequence).min?
  newestSequence := (store.rows.map RealtimeEventRow.sequence).max?
  lastPrunedSequence := store.retentionFloor.filter fun floor => 0 < floor

/-! ## Pruning -/

def pruneThrough (throughSequence : Option Nat) (store : EventStore) : Nat × EventStore :=
  match throughSequence with
  | none => (0, store)
  | some through =>
      if through < 1 then (0, store)
      else
        let kept := store.rows.filter fun row => ¬row.sequence ≤ through
        let deleted := store.rows.length - kept.length
        if 0 < deleted then
          (deleted,
            { store with
              rows := kept
              retentionFloor := some (max (store.retentionFloor.getD through) through) })
        else (deleted, { store with rows := kept })

/-- `lockRetention` -/
def lockRetention (store : EventStore) : Except String Unit :=
  if store.lastSequence.isSome then .ok () else .error "Realtime sequence state is unavailable."

/-- `ageBoundaryStmt`; `earlier` is the order of the column. -/
def ageBoundary (earlier : String → String → Bool) (cutoff : String) (store : EventStore) :
    Option Nat :=
  ((store.rows.filter fun row => earlier row.createdAt cutoff).map
    RealtimeEventRow.sequence).max?

def pruneOlderThan (earlier : String → String → Bool) (cutoffIso : String) (store : EventStore) :
    Except String (Nat × EventStore) := do
  lockRetention store
  return pruneThrough (ageBoundary earlier cutoffIso store) store

/-- `overflowBoundaryStmt` -/
def overflowBoundary (overflowRows : Nat) (store : EventStore) : Option Nat :=
  (((store.rows.insertionSort fun a b => a.sequence ≤ b.sequence).take overflowRows).map
    RealtimeEventRow.sequence).max?

/-- `maxRows` after `Math.floor`. -/
def pruneToMaxRows (maxRows : Int) (store : EventStore) : Except String (Nat × EventStore) := do
  let normalizedMaxRows := (max 1 maxRows).toNat
  lockRetention store
  if store.rows.length ≤ normalizedMaxRows then return (0, store)
  else
    return pruneThrough (overflowBoundary (store.rows.length - normalizedMaxRows) store) store

/-! ## Runs -/

/-- A call, and the event that it commits. -/
inductive RealtimeCall
  | append (input : AppendInput)
  | pruneOlderThan (cutoffIso : String)
  | pruneToMaxRows (maxRows : Int)

structure RealtimeStep where
  call : RealtimeCall
  committed : Option RealtimeEventRow

section Runs

variable (collation : Collation) (earlier : String → String → Bool)

/-- The event that an answer of `appendInternal` is about, when it was inserted. -/
def insertedEvent (answer : Except String (RealtimeEventRow × Bool)) : Option RealtimeEventRow :=
  match answer with
  | .ok (row, true) => some row
  | _ => none

/-- The tables after a call, and the event that it commits.  A call that throws changes
nothing. -/
def RealtimeCall.perform (store : EventStore) :
    RealtimeCall → Option RealtimeEventRow × EventStore
  | .append input =>
      let result := appendInternal collation input store
      (insertedEvent result.1, result.2)
  | .pruneOlderThan cutoffIso =>
      match RealtimeEvents.pruneOlderThan earlier cutoffIso store with
      | .ok (_, store') => (none, store')
      | .error _ => (none, store)
  | .pruneToMaxRows maxRows =>
      match RealtimeEvents.pruneToMaxRows maxRows store with
      | .ok (_, store') => (none, store')
      | .error _ => (none, store)

def EventStore.Step (store : EventStore) (step : RealtimeStep) (store' : EventStore) : Prop :=
  step.call.perform collation earlier store = (step.committed, store')

end Runs

/-- The events that were committed, in their order. -/
def committed (steps : List RealtimeStep) : List RealtimeEventRow :=
  steps.filterMap RealtimeStep.committed

/-- The first pages after a position, each continued after the last event of the one
before. -/
def resumedPages (limit : Nat) (store : EventStore) : Nat → Nat → List (List RealtimeEventRow)
  | 0, _ => []
  | pages + 1, position =>
      let page := listAfterSequence position limit store
      match page.getLast? with
      | none => [page]
      | some last => page :: resumedPages limit store pages last.sequence

/-! ## What a call does -/

/-- A call changes nothing, commits an event under the next sequence, or prunes. -/
inductive Effect (store : EventStore) : Option RealtimeEventRow → EventStore → Prop
  | same : Effect store none store
  | inserted {row : RealtimeEventRow} {n : Nat} : store.lastSequence = some n →
      row.sequence = n + 1 →
      Effect store (some row)
        { store with rows := store.rows ++ [row], lastSequence := some (n + 1) }
  | pruned {row : RealtimeEventRow} {through : Nat} : row ∈ store.rows →
      row.sequence = through →
      Effect store none
        { store with
          rows := store.rows.filter fun row => ¬row.sequence ≤ through
          retentionFloor := some (max (store.retentionFloor.getD through) through) }

section Effects

variable {collation : Collation} {earlier : String → String → Bool} {store store' : EventStore}

/-- A boundary is the sequence of one of the rows that it is taken from. -/
theorem row_of_max {rows : List RealtimeEventRow} {through : Nat}
    (h : (rows.map RealtimeEventRow.sequence).max? = some through) :
    ∃ row ∈ rows, row.sequence = through := by
  have hmem := (List.max?_eq_some_iff.mp h).1
  exact List.mem_map.mp hmem

theorem effect_of_pruneThrough {throughSequence : Option Nat}
    (hboundary : ∀ through, throughSequence = some through →
      ∃ row ∈ store.rows, row.sequence = through) :
    Effect store none (pruneThrough throughSequence store).2 := by
  unfold pruneThrough
  cases throughSequence with
  | none => exact .same
  | some through =>
      dsimp only
      split_ifs with hlow hdeleted
      · exact .same
      · obtain ⟨row, hrow, hsequence⟩ := hboundary through rfl
        exact .pruned hrow hsequence
      · -- Nothing is deleted, so every row is kept.
        have hkept : (store.rows.filter fun row => ¬row.sequence ≤ through) = store.rows := by
          rw [List.filter_eq_self, ← List.length_filter_eq_length_iff]
          have hle := List.length_filter_le (fun row => decide ¬row.sequence ≤ through) store.rows
          omega
        rw [hkept]
        exact .same

theorem effect_of_append {n : Nat} (hlast : store.lastSequence = some n) (input : AppendInput) :
    Effect store (insertedEvent (appendInternal collation input store).1)
      (appendInternal collation input store).2 := by
  unfold appendInternal appendTransaction
  cases store.getById input.eventId with
  | some existing =>
      dsimp only
      split_ifs
      · exact .same
      · exact .same
  | none =>
      rw [hlast]
      dsimp only [Option.map_some, Option.getD_some]
      by_cases htaken : store.rows.any (fun row => row.sequence = n + 1) = true
      · rw [if_pos htaken]
        exact .same
      · rw [if_neg htaken]
        dsimp only
        rw [if_neg (by simp)]
        exact .inserted hlast rfl

theorem step_effect {n : Nat} (hlast : store.lastSequence = some n) {step : RealtimeStep}
    (h : store.Step collation earlier step store') : Effect store step.committed store' := by
  unfold EventStore.Step at h
  cases hcall : step.call with
  | append input =>
      rw [hcall, RealtimeCall.perform] at h
      obtain ⟨hcommitted, hstore⟩ := Prod.mk.inj h
      rw [← hcommitted, ← hstore]
      exact effect_of_append hlast input
  | pruneOlderThan cutoffIso =>
      have hlock : lockRetention store = .ok () := by
        rw [lockRetention, hlast]
        rfl
      rw [hcall, RealtimeCall.perform, RealtimeEvents.pruneOlderThan, hlock] at h
      obtain ⟨hcommitted, hstore⟩ := Prod.mk.inj h
      rw [← hcommitted, ← hstore]
      apply effect_of_pruneThrough
      intro through hthrough
      obtain ⟨row, hrow, hsequence⟩ := row_of_max hthrough
      exact ⟨row, List.mem_of_mem_filter hrow, hsequence⟩
  | pruneToMaxRows maxRows =>
      have hlock : lockRetention store = .ok () := by
        rw [lockRetention, hlast]
        rfl
      rw [hcall, RealtimeCall.perform, RealtimeEvents.pruneToMaxRows, hlock] at h
      dsimp only [bind, Except.bind] at h
      split_ifs at h
      · obtain ⟨hcommitted, hstore⟩ := Prod.mk.inj h
        rw [← hcommitted, ← hstore]
        exact .same
      · obtain ⟨hcommitted, hstore⟩ := Prod.mk.inj h
        rw [← hcommitted, ← hstore]
        apply effect_of_pruneThrough
        intro through hthrough
        obtain ⟨row, hrow, hsequence⟩ := row_of_max hthrough
        exact ⟨row, (List.mem_insertionSort _).mp (List.mem_of_mem_take hrow), hsequence⟩

end Effects

/-! ## What is kept -/

/-- The rows are the events committed so far whose sequence lies after the mark, in the
order in which they were committed. -/
structure Retained (past : List RealtimeStep) (store : EventStore) : Prop where
  last : ∃ n, store.lastSequence = some n ∧ store.retentionFloor.getD 0 ≤ n ∧
    ∀ row ∈ committed past, row.sequence ≤ n
  increasing : (committed past).Pairwise fun a b => a.sequence < b.sequence
  rows : store.rows =
    (committed past).filter fun row => store.retentionFloor.getD 0 < row.sequence

theorem Retained.rows_increasing {past : List RealtimeStep} {store : EventStore}
    (h : Retained past store) : store.rows.Pairwise fun a b => a.sequence < b.sequence := by
  rw [h.rows]
  exact h.increasing.sublist List.filter_sublist

theorem committed_concat (past : List RealtimeStep) (step : RealtimeStep) :
    committed (past ++ [step]) = committed past ++ step.committed.toList := by
  unfold committed
  rw [List.filterMap_append]
  cases h : step.committed <;> simp [h]

theorem retained_initial : Retained [] .initial where
  last := ⟨0, rfl, le_refl _, fun _ hrow => absurd hrow List.not_mem_nil⟩
  increasing := .nil
  rows := rfl

/-- Every call keeps the rows what they are. -/
theorem retained_step {collation : Collation} {earlier : String → String → Bool}
    {past : List RealtimeStep} {store store' : EventStore} {step : RealtimeStep}
    (hstep : store.Step collation earlier step store') (h : Retained past store) :
    Retained (past ++ [step]) store' := by
  obtain ⟨n, hlast, hfloor, hbound⟩ := h.last
  have heffect := step_effect hlast hstep
  have hpast := committed_concat past step
  generalize step.committed = new at heffect hpast
  cases heffect with
  | same =>
      rw [Option.toList_none, List.append_nil] at hpast
      refine ⟨?_, ?_, ?_⟩
      · rw [hpast]
        exact h.last
      · rw [hpast]
        exact h.increasing
      · rw [hpast]
        exact h.rows
  | @inserted row m hm hsequence =>
      obtain rfl : n = m := Option.some.inj (hlast.symm.trans hm)
      rw [Option.toList_some] at hpast
      have hafter : ∀ other ∈ committed past, other.sequence < row.sequence := by
        intro other hother
        rw [hsequence]
        exact Nat.lt_succ_of_le (hbound other hother)
      refine ⟨⟨n + 1, rfl, Nat.le_succ_of_le hfloor, ?_⟩, ?_, ?_⟩
      · rw [hpast, List.forall_mem_append]
        constructor
        · exact fun other hother => Nat.le_succ_of_le (hbound other hother)
        · intro other hother
          rw [List.mem_singleton.mp hother, hsequence]
      · rw [hpast, List.pairwise_append]
        refine ⟨h.increasing, List.pairwise_singleton _ _, ?_⟩
        intro other hother last hsingle
        rw [List.mem_singleton.mp hsingle]
        exact hafter other hother
      · have hkept : store.retentionFloor.getD 0 < row.sequence := by
          rw [hsequence]
          exact Nat.lt_succ_of_le hfloor
        dsimp only
        rw [hpast, h.rows, List.filter_append, List.filter_cons_of_pos (by simpa using hkept),
          List.filter_nil]
  | @pruned row through hrow hsequence =>
      rw [Option.toList_none, List.append_nil] at hpast
      have hthrough : store.retentionFloor.getD 0 < through ∧ through ≤ n := by
        rw [h.rows, List.mem_filter] at hrow
        obtain ⟨hrow, hkept⟩ := hrow
        rw [← hsequence]
        exact ⟨of_decide_eq_true hkept, hbound row hrow⟩
      have hmark : max (store.retentionFloor.getD through) through = through := by
        cases hold : store.retentionFloor with
        | none => exact max_self _
        | some floor =>
            rw [hold] at hthrough
            exact max_eq_right (le_of_lt hthrough.1)
      refine ⟨⟨n, hlast, ?_, ?_⟩, ?_, ?_⟩
      · dsimp only
        rw [hmark]
        exact hthrough.2
      · rw [hpast]
        exact hbound
      · rw [hpast]
        exact h.increasing
      · rw [hpast]
        dsimp only
        rw [hmark, h.rows, List.filter_filter]
        refine List.filter_congr fun other _ => ?_
        rw [Option.getD_some, Bool.eq_iff_iff, Bool.and_eq_true, decide_eq_true_eq,
          decide_eq_true_eq, decide_eq_true_eq]
        omega

/-! ## Resuming -/

section Pages

variable {rows : List RealtimeEventRow} {position limit : Nat}

/-- The rows after a position, when rows are listed in their order. -/
theorem listAfterSequence_eq_take {store : EventStore}
    (hrows : store.rows.Pairwise fun a b => a.sequence < b.sequence) :
    listAfterSequence position limit store =
      (store.rows.filter fun row => position < row.sequence).take limit := by
  have hsorted : (store.rows.filter fun row => position < row.sequence).Pairwise
      fun a b => a.sequence ≤ b.sequence :=
    (hrows.sublist List.filter_sublist).imp le_of_lt
  unfold listAfterSequence keysetPage
  congr 1
  exact hsorted.insertionSort_eq

/-- What lies after the last row of a page is what the page leaves of what lies after the
position. -/
theorem filter_after_last {last : RealtimeEventRow}
    (hrows : rows.Pairwise fun a b => a.sequence < b.sequence)
    (hlast : ((rows.filter fun row => position < row.sequence).take limit).getLast? = some last) :
    (rows.filter fun row => last.sequence < row.sequence) =
      (rows.filter fun row => position < row.sequence).drop limit := by
  set after := rows.filter fun row => position < row.sequence with hafter
  have hsorted : after.Pairwise fun a b => a.sequence < b.sequence :=
    hrows.sublist List.filter_sublist
  rw [← List.take_append_drop limit after, List.pairwise_append] at hsorted
  obtain ⟨htake, -, hcross⟩ := hsorted
  have hmem : last ∈ after.take limit := List.mem_of_getLast? hlast
  have hposition : position < last.sequence :=
    of_decide_eq_true (List.mem_filter.mp (List.mem_of_mem_take hmem)).2
  have hrest : (rows.filter fun row => last.sequence < row.sequence) =
      after.filter fun row => last.sequence < row.sequence := by
    rw [hafter, List.filter_filter]
    refine List.filter_congr fun row _ => ?_
    rw [Bool.eq_iff_iff, Bool.and_eq_true, decide_eq_true_eq, decide_eq_true_eq]
    omega
  have hnone : ∀ row ∈ after.take limit, ¬last.sequence < row.sequence := by
    intro row hrow hlt
    obtain ⟨front, hfront⟩ := List.getLast?_eq_some_iff.mp hlast
    rw [hfront] at hrow htake
    rcases List.mem_append.mp hrow with hold | hsingle
    · have hle := (List.pairwise_append.mp htake).2.2 row hold last List.mem_cons_self
      omega
    · rw [List.mem_singleton.mp hsingle] at hlt
      exact absurd hlt (lt_irrefl _)
  rw [hrest, ← List.take_append_drop limit after, List.filter_append,
    List.filter_eq_nil_iff.mpr (fun row hrow => by simpa using hnone row hrow),
    List.nil_append, List.filter_eq_self.mpr, List.take_append_drop]
  intro row hrow
  exact decide_eq_true (hcross last hmem row hrow)

/-- Pages that are long enough in number hold every row after the position once. -/
theorem flatten_resumedPages {store : EventStore}
    (hrows : store.rows.Pairwise fun a b => a.sequence < b.sequence) (hlimit : 1 ≤ limit)
    {pages : Nat}
    (hpages : (store.rows.filter fun row => position < row.sequence).length < pages) :
    (resumedPages limit store pages position).flatten =
      store.rows.filter fun row => position < row.sequence := by
  induction pages generalizing position with
  | zero => exact absurd hpages (Nat.not_lt_zero _)
  | succ pages ih =>
      rw [resumedPages, listAfterSequence_eq_take hrows]
      cases hlast : ((store.rows.filter fun row => position < row.sequence).take
          limit).getLast? with
      | none =>
          rw [List.getLast?_eq_none_iff] at hlast
          dsimp only
          rw [hlast, List.flatten_singleton]
          rcases List.take_eq_nil_iff.mp hlast with hzero | hnil
          · omega
          · exact hnil.symm
      | some last =>
          have hrest := filter_after_last hrows hlast
          have hne : (store.rows.filter fun row => position < row.sequence) ≠ [] := by
            intro hnil
            rw [hnil, List.take_nil] at hlast
            cases hlast
          have hpos := List.length_pos_of_ne_nil hne
          dsimp only
          rw [List.flatten_cons, ih, hrest, List.take_append_drop]
          rw [hrest, List.length_drop]
          omega

end Pages

section Resume

variable {collation : Collation} {earlier : String → String → Bool} {store : EventStore}
  {steps : List RealtimeStep}

theorem retained_run (h : Run (EventStore.Step collation earlier) .initial steps store) :
    Retained steps store :=
  h.invariant_of_history (I := Retained) (fun _ _ _ _ hstep => retained_step hstep)
    retained_initial

/-- Sequences grow in the order in which events are committed.  From a position at which
no gap is reported every event that was ever committed after it is still there, and pages
of any size give all of them, once and in order. -/
theorem resume_detects_every_gap
    (h : Run (EventStore.Step collation earlier) .initial steps store) :
    ((committed steps).Pairwise fun a b => a.sequence < b.sequence) ∧
    ∀ position, (∀ floor, (getSequenceBounds store).lastPrunedSequence = some floor →
        floor ≤ position) →
      (∀ event ∈ committed steps, position < event.sequence → event ∈ store.rows) ∧
      ∀ limit, 1 ≤ limit → ∀ pages, store.rows.length < pages →
        (resumedPages limit store pages position).flatten =
          (committed steps).filter fun event => position < event.sequence := by
  have hretained := retained_run h
  refine ⟨hretained.increasing, ?_⟩
  intro position hbounds
  have hfloor : store.retentionFloor.getD 0 ≤ position := by
    cases hmark : store.retentionFloor with
    | none => exact Nat.zero_le _
    | some floor =>
        by_cases hzero : floor = 0
        · rw [hzero]
          exact Nat.zero_le _
        · apply hbounds floor
          rw [getSequenceBounds, hmark]
          simp [Option.filter, Nat.pos_of_ne_zero hzero]
  have hafter : (store.rows.filter fun row => position < row.sequence) =
      (committed steps).filter fun event => position < event.sequence := by
    rw [hretained.rows, List.filter_filter]
    refine List.filter_congr fun row _ => ?_
    rw [Bool.eq_iff_iff, Bool.and_eq_true, decide_eq_true_eq, decide_eq_true_eq]
    omega
  have hrows := hretained.rows_increasing
  constructor
  · intro event hevent hlater
    rw [hretained.rows]
    exact List.mem_filter.mpr ⟨hevent, decide_eq_true (lt_of_le_of_lt hfloor hlater)⟩
  · intro limit hlimit pages hpages
    rw [flatten_resumedPages hrows hlimit, hafter]
    exact lt_of_le_of_lt (List.length_filter_le _ _) hpages

end Resume

def firstRow : RealtimeEventRow :=
  ⟨"delivery-1", 1, "task_created", "tasks", [], "2026-01-01T00:00:00.000Z"⟩

def secondRow : RealtimeEventRow :=
  ⟨"delivery-2", 2, "task_updated", "tasks", [], "2026-03-01T00:00:00.000Z"⟩

def bothAppended : List RealtimeStep :=
  [⟨.append ⟨"delivery-1", "task_created", "tasks", [], "2026-01-01T00:00:00.000Z"⟩,
      some firstRow⟩,
    ⟨.append ⟨"delivery-2", "task_updated", "tasks", [], "2026-03-01T00:00:00.000Z"⟩,
      some secondRow⟩]

theorem run_bothAppended (earlier : String → String → Bool) :
    Run (EventStore.Step Policy.utf16Collation earlier) .initial bothAppended
      ⟨[firstRow, secondRow], some 2, none⟩ := by
  have hfirst : EventStore.Step Policy.utf16Collation earlier .initial
      ⟨.append ⟨"delivery-1", "task_created", "tasks", [], "2026-01-01T00:00:00.000Z"⟩,
        some firstRow⟩ ⟨[firstRow], some 1, none⟩ := rfl
  exact .cons hfirst (.single rfl)

/-- Two events are committed, and the first one is pruned by its age: a reader that has
seen it misses nothing. -/
theorem resume_after_pruning :
    let steps : List RealtimeStep :=
      bothAppended ++ [⟨.pruneOlderThan "2026-02-01T00:00:00.000Z", none⟩]
    let store : EventStore := ⟨[secondRow], some 2, some 1⟩
    ∀ limit, 1 ≤ limit → ∀ pages, 1 < pages →
      (resumedPages limit store pages 1).flatten =
        (committed steps).filter fun event => 1 < event.sequence := by
  intro steps store limit hlimit pages hpages
  have hpruned : EventStore.Step Policy.utf16Collation
      (fun a b => utf16Le a b && !utf16Le b a) ⟨[firstRow, secondRow], some 2, none⟩
      ⟨.pruneOlderThan "2026-02-01T00:00:00.000Z", none⟩ store := by
    have hboundary : ageBoundary (fun a b => utf16Le a b && !utf16Le b a)
        "2026-02-01T00:00:00.000Z" ⟨[firstRow, secondRow], some 2, none⟩ = some 1 := by
      decide +kernel
    unfold EventStore.Step RealtimeCall.perform RealtimeEvents.pruneOlderThan
    dsimp only
    rw [hboundary]
    rfl
  have hbounds : ∀ floor, (getSequenceBounds store).lastPrunedSequence = some floor →
      floor ≤ 1 := by
    intro floor hfloor
    exact le_of_eq (Option.some.inj hfloor).symm
  have hrun := (run_bothAppended _).append (.single hpruned)
  exact ((resume_detects_every_gap hrun).2 1 hbounds).2 limit hlimit pages hpages

/-! ## What pruning keeps -/

section Newest

variable {collation : Collation} {earlier : String → String → Bool} {store : EventStore}
  {steps : List RealtimeStep}

/-- Pruning through the last of the first rows keeps the others. -/
theorem filter_behind_front {front back : List RealtimeEventRow} {last : RealtimeEventRow}
    (h : (front ++ [last] ++ back).Pairwise fun a b => a.sequence < b.sequence) :
    ((front ++ [last] ++ back).filter fun row => ¬row.sequence ≤ last.sequence) = back := by
  obtain ⟨hfront, -, hbehind⟩ := List.pairwise_append.mp h
  rw [List.filter_append, List.filter_eq_nil_iff.mpr, List.nil_append, List.filter_eq_self.mpr]
  · intro row hrow
    have hlt := hbehind last (List.mem_append_right _ List.mem_cons_self) row hrow
    exact decide_eq_true (Nat.not_le.mpr hlt)
  · intro row hrow
    obtain hrow | hrow := List.mem_append.mp hrow
    · have hlt := (List.pairwise_append.mp hfront).2.2 row hrow last List.mem_cons_self
      simpa using hlt.le
    · rw [List.mem_singleton.mp hrow]
      simp

/-- The greatest sequence of the first rows is that of the last of them. -/
theorem max_front {front back : List RealtimeEventRow} {last : RealtimeEventRow}
    (h : (front ++ [last] ++ back).Pairwise fun a b => a.sequence < b.sequence) :
    ((front ++ [last]).map RealtimeEventRow.sequence).max? = some last.sequence := by
  rw [List.max?_eq_some_iff]
  refine ⟨List.mem_map_of_mem (List.mem_append_right _ List.mem_cons_self), ?_⟩
  intro sequence hsequence
  obtain ⟨row, hrow, rfl⟩ := List.mem_map.mp hsequence
  obtain hrow | hrow := List.mem_append.mp hrow
  · have hfront := (List.pairwise_append.mp (List.pairwise_append.mp h).1).2.2
    exact (hfront row hrow last List.mem_cons_self).le
  · rw [List.mem_singleton.mp hrow]

/-- After any run the rows are in the order of their sequences, and pruning to a finite number of
them, which counts as one at least, succeeds and keeps just the newest. -/
theorem pruneToMaxRows_keeps_newest
    (h : Run (EventStore.Step collation earlier) .initial steps store) (maxRows : Int) :
    (store.rows.Pairwise fun a b => a.sequence < b.sequence) ∧
    ∃ store', pruneToMaxRows maxRows store =
        .ok (store.rows.length - (max 1 maxRows).toNat, store') ∧
      store'.rows = store.rows.drop (store.rows.length - (max 1 maxRows).toNat) := by
  have hretained := retained_run h
  obtain ⟨n, hlast, -⟩ := hretained.last
  have hrows := hretained.rows_increasing
  refine ⟨hrows, ?_⟩
  have hlock : lockRetention store = .ok () := by
    rw [lockRetention, hlast]
    rfl
  unfold pruneToMaxRows
  rw [hlock]
  dsimp only [bind, Except.bind]
  generalize hkeep : (max 1 maxRows).toNat = keep
  by_cases hfew : store.rows.length ≤ keep
  · rw [if_pos hfew, Nat.sub_eq_zero_of_le hfew]
    exact ⟨store, rfl, rfl⟩
  · rw [if_neg hfew]
    generalize hoverflow : store.rows.length - keep = overflow
    have hsome : 0 < overflow := by omega
    have hwithin : overflow ≤ store.rows.length := by omega
    have htaken : 0 < (store.rows.take overflow).length := by
      rwa [List.length_take, Nat.min_eq_left hwithin]
    obtain ⟨front, last, hfront⟩ :=
      (List.eq_nil_or_concat' _).resolve_left (List.ne_nil_of_length_pos htaken)
    have hsplit : store.rows = front ++ [last] ++ store.rows.drop overflow := by
      rw [← hfront, List.take_append_drop]
    have hboundary : overflowBoundary overflow store = some last.sequence := by
      unfold overflowBoundary
      rw [(hrows.imp fun hlt => hlt.le).insertionSort_eq, hfront]
      rw [hsplit] at hrows
      exact max_front hrows
    have hkept : (store.rows.filter fun row => ¬row.sequence ≤ last.sequence) =
        store.rows.drop overflow := by
      rw [hsplit] at hrows
      conv_lhs => rw [hsplit]
      exact filter_behind_front hrows
    have hpositive : ¬last.sequence < 1 := by
      have hmem : last ∈ store.rows := by
        rw [hsplit]
        exact List.mem_append_left _ (List.mem_append_right _ List.mem_cons_self)
      rw [hretained.rows, List.mem_filter] at hmem
      have habove := of_decide_eq_true hmem.2
      omega
    have hdeleted : store.rows.length - (store.rows.drop overflow).length = overflow := by
      rw [List.length_drop]
      omega
    unfold pruneThrough
    rw [hboundary]
    dsimp only
    rw [if_neg hpositive, hkept, hdeleted, if_pos hsome]
    exact ⟨_, rfl, rfl⟩

end Newest

/-- Of two events that were appended, pruning to one row keeps the second. -/
theorem second_event_kept :
    ∃ store', pruneToMaxRows 1 ⟨[firstRow, secondRow], some 2, none⟩ = .ok (1, store') ∧
      store'.rows = [secondRow] :=
  (pruneToMaxRows_keeps_newest (run_bothAppended fun _ _ => false) 1).2

end GoatCitadel.Storage.RealtimeEvents
