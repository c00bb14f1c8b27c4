import Mathlib.Data.Prod.Lex
import Mathlib.Data.String.Basic
import GoatCitadel.Support.Keyset
import GoatCitadel.Support.Runs

/-!
# The replication log and its pager

`appendReplicationEvent` stores an event under the current time and a random
identifier, unless its source has already stored one with the same idempotency
key.  `listReplicationEvents` pages through the log in the order of
`(created_at, replication_id)`, after the row of the cursor.

The clock counts milliseconds, so two events can share their time, and then the
random identifiers decide which comes first.  An event that is stored in the
millisecond of the consumer's cursor, under a smaller identifier, lies before
the cursor and is never delivered.  The main theorem shows that this is the only
way to lose an event.
-/

namespace GoatCitadel.Mesh

open GoatCitadel.Support

/-- The input of `appendReplicationEvent`. -/
structure MeshReplicationIngestRequest where
  sourceNodeId : String
  eventType : String
  payloadJson : String
  idempotencyKey : String
  deriving DecidableEq

/-- A row of `mesh_replication_log`. -/
structure MeshReplicationRow where
  replicationId : String
  sourceNodeId : String
  eventType : String
  payloadJson : String
  idempotencyKey : String
  createdAt : Nat
  deriving DecidableEq

/-- The order of the log. -/
def MeshReplicationRow.key (row : MeshReplicationRow) : Nat ×ₗ String :=
  toLex (row.createdAt, row.replicationId)

/-- The errors thrown by the replication operations. -/
inductive ReplicationError
  | notPersisted
  | cursorNotFound (cursor : String)
  deriving DecidableEq

/-- The text of an error, as the repository throws it. -/
def ReplicationError.message : ReplicationError → String
  | .notPersisted => "Unable to persist replication event"
  | .cursorNotFound cursor =>
      if cursor = "" then "Replication cursor not found"
      else s!"Replication cursor {cursor} not found"

namespace MeshReplicationIngestRequest

/-- The row that an append would store. -/
def row (input : MeshReplicationIngestRequest) (now : Nat) (replicationId : String) :
    MeshReplicationRow where
  replicationId := replicationId
  sourceNodeId := input.sourceNodeId
  eventType := input.eventType
  payloadJson := input.payloadJson
  idempotencyKey := input.idempotencyKey
  createdAt := now

/-- The row has the source and the idempotency key of the input. -/
def SameEvent (input : MeshReplicationIngestRequest) (row : MeshReplicationRow) : Prop :=
  row.sourceNodeId = input.sourceNodeId ∧ row.idempotencyKey = input.idempotencyKey

instance (input : MeshReplicationIngestRequest) (row : MeshReplicationRow) :
    Decidable (input.SameEvent row) :=
  inferInstanceAs (Decidable (_ ∧ _))

end MeshReplicationIngestRequest

/-- `appendReplicationStmt`: an insert that does nothing when its identifier, or
its source and idempotency key, are already there. -/
def appendReplicationStmt (row : MeshReplicationRow)
    (rows : List MeshReplicationRow) : List MeshReplicationRow :=
  if rows.any fun other => other.replicationId = row.replicationId ||
      (other.sourceNodeId = row.sourceNodeId &&
        other.idempotencyKey = row.idempotencyKey) then
    rows
  else rows ++ [row]

/-- `appendReplicationEvent` at the time `now`, with the identifier that
`randomUUID` gave. -/
def appendReplicationEvent (input : MeshReplicationIngestRequest) (now : Nat)
    (replicationId : String) (rows : List MeshReplicationRow) :
    Except ReplicationError MeshReplicationRow × List MeshReplicationRow :=
  let rows' := appendReplicationStmt (input.row now replicationId) rows
  match rows'.find? fun row => input.SameEvent row with
  | none => (.error .notPersisted, rows')
  | some row => (.ok row, rows')

/-- `listReplicationEvents` -/
def listReplicationEvents (limit : Nat) (cursor : Option String)
    (rows : List MeshReplicationRow) :
    Except ReplicationError (List MeshReplicationRow) :=
  match cursor with
  | none => .ok (keysetPage MeshReplicationRow.key none limit rows)
  | some cursor =>
      match rows.find? fun row => row.replicationId = cursor with
      | none => .error (.cursorNotFound cursor)
      | some cursorRow =>
          .ok (keysetPage MeshReplicationRow.key
            (some (toLex (cursorRow.createdAt, cursor))) limit rows)

/-! ## The consumer -/

/-- The log, the time of its clock, and the pages of the consumer one after the
other. -/
structure ReplicationFeed where
  clock : Nat
  rows : List MeshReplicationRow
  received : List MeshReplicationRow

/-- What can happen in one step. -/
inductive FeedEvent
  | append (input : MeshReplicationIngestRequest) (now : Nat) (replicationId : String)
  | page (limit : Nat) (rows : List MeshReplicationRow)

namespace ReplicationFeed

/-- The empty log, before anything was stored or read. -/
def initial (clock : Nat) : ReplicationFeed where
  clock := clock
  rows := []
  received := []

/-- The identifier that the consumer received last. -/
def cursor (feed : ReplicationFeed) : Option String :=
  feed.received.getLast?.map MeshReplicationRow.replicationId

/-- The feed after an append. -/
def append (feed : ReplicationFeed) (input : MeshReplicationIngestRequest) (now : Nat)
    (replicationId : String) : ReplicationFeed :=
  { feed with
    clock := now
    rows := (appendReplicationEvent input now replicationId feed.rows).2 }

/-- The feed after the consumer received a page. -/
def receive (feed : ReplicationFeed) (rows : List MeshReplicationRow) :
    ReplicationFeed :=
  { feed with received := feed.received ++ rows }

/-- Appends with a clock that does not go back and identifiers that do not
repeat, and a consumer that pages from the last identifier it received. -/
inductive Step (feed : ReplicationFeed) : FeedEvent → ReplicationFeed → Prop
  | append {input : MeshReplicationIngestRequest} {now : Nat} {replicationId : String} :
      feed.clock ≤ now →
      (∀ row ∈ feed.rows, row.replicationId ≠ replicationId) →
      Step feed (.append input now replicationId)
        (feed.append input now replicationId)
  | page {limit : Nat} {rows : List MeshReplicationRow} :
      1 ≤ limit → listReplicationEvents limit feed.cursor feed.rows = .ok rows →
      Step feed (.page limit rows) (feed.receive rows)

/-- An event that is new to its source is not stored in the millisecond of the
last event received under a smaller identifier. -/
def AppendsAhead (feed : ReplicationFeed) : FeedEvent → Prop
  | .append input now replicationId =>
      (∀ row ∈ feed.rows, ¬input.SameEvent row) →
        ∀ last ∈ feed.received.getLast?, last.createdAt = now →
          last.replicationId < replicationId
  | .page _ _ => True

end ReplicationFeed

/-! ## What an append and a page do -/

/-- An append with a new identifier stores its row exactly when its source has
not stored the event before. -/
theorem appendReplicationEvent_rows (input : MeshReplicationIngestRequest) (now : Nat)
    {replicationId : String} {rows : List MeshReplicationRow}
    (hfresh : ∀ row ∈ rows, row.replicationId ≠ replicationId) :
    ((∃ row ∈ rows, input.SameEvent row) ∧
        (appendReplicationEvent input now replicationId rows).2 = rows) ∨
      ((∀ row ∈ rows, ¬input.SameEvent row) ∧
        (appendReplicationEvent input now replicationId rows).2 =
          rows ++ [input.row now replicationId]) := by
  have hrows : (appendReplicationEvent input now replicationId rows).2 =
      appendReplicationStmt (input.row now replicationId) rows := by
    simp only [appendReplicationEvent]
    split
    · rfl
    · rfl
  rw [hrows]
  by_cases hsame : ∃ row ∈ rows, input.SameEvent row
  · refine .inl ⟨hsame, ?_⟩
    obtain ⟨row, hrow, hevent⟩ := hsame
    refine if_pos (List.any_eq_true.mpr ⟨row, hrow, ?_⟩)
    simp [MeshReplicationIngestRequest.row, hevent.1, hevent.2]
  · push Not at hsame
    refine .inr ⟨hsame, if_neg ?_⟩
    intro hany
    obtain ⟨row, hrow, hconflict⟩ := List.any_eq_true.mp hany
    rcases Bool.or_eq_true_iff.mp hconflict with hid | hevent
    · exact hfresh row hrow (of_decide_eq_true hid)
    · obtain ⟨hsource, hkey⟩ := Bool.and_eq_true_iff.mp hevent
      exact hsame row hrow ⟨of_decide_eq_true hsource, of_decide_eq_true hkey⟩

namespace ReplicationFeed

/-- What every step keeps: identifiers are unique, no row is from the future,
and the consumer has read in the order of the log. -/
structure Ordered (feed : ReplicationFeed) : Prop where
  identifiers : feed.rows.Pairwise fun a b => a.replicationId ≠ b.replicationId
  past : ∀ row ∈ feed.rows, row.createdAt ≤ feed.clock
  read : ReadInOrder MeshReplicationRow.key feed.rows feed.received

variable {feed : ReplicationFeed}

theorem Ordered.keys (h : feed.Ordered) : feed.rows.Pairwise fun a b => a.key ≠ b.key := by
  refine h.identifiers.imp fun hne hkey => hne ?_
  exact congrArg (fun k => (ofLex k).2) hkey

/-- The cursor names the last row received, and that row is still there. -/
theorem Ordered.listReplicationEvents_eq (h : feed.Ordered) (limit : Nat) :
    listReplicationEvents limit feed.cursor feed.rows =
      .ok (keysetPage MeshReplicationRow.key
        (cursorOf MeshReplicationRow.key feed.received) limit feed.rows) := by
  cases hlast : feed.received.getLast? with
  | none => simp [listReplicationEvents, cursor, cursorOf, hlast]
  | some last =>
      have hmem : last ∈ feed.rows := h.read.mem last (List.mem_of_getLast? hlast)
      have hfind : feed.rows.find? (fun row => row.replicationId = last.replicationId) =
          some last := by
        cases hfound : feed.rows.find?
            (fun row => row.replicationId = last.replicationId) with
        | none =>
            have hnone := List.find?_eq_none.mp hfound last hmem
            simp at hnone
        | some found =>
            have hid : found.replicationId = last.replicationId := by
              simpa using List.find?_some hfound
            have : Std.Symm fun a b : MeshReplicationRow =>
                a.replicationId ≠ b.replicationId := ⟨fun _ _ hne => hne.symm⟩
            by_contra hdiffers
            exact h.identifiers.forall (List.mem_of_find?_eq_some hfound) hmem
              (fun hsame => hdiffers (congrArg some hsame)) hid
      simp [listReplicationEvents, cursor, cursorOf, hlast, hfind, MeshReplicationRow.key]

theorem ordered_append {input : MeshReplicationIngestRequest} {now : Nat} {replicationId : String}
    (h : feed.Ordered) (hclock : feed.clock ≤ now)
    (hfresh : ∀ row ∈ feed.rows, row.replicationId ≠ replicationId) :
    (feed.append input now replicationId).Ordered := by
  have hpast : ∀ row ∈ feed.rows, row.createdAt ≤ now :=
    fun row hrow => le_trans (h.past row hrow) hclock
  rcases appendReplicationEvent_rows input now hfresh with
    ⟨-, hrows⟩ | ⟨-, hrows⟩
  · constructor
    · simpa [append, hrows] using h.identifiers
    · simpa [append, hrows] using hpast
    · simpa [append, hrows] using h.read
  · constructor
    · rw [append, hrows]
      refine List.pairwise_append.mpr ⟨h.identifiers, List.pairwise_singleton _ _, ?_⟩
      intro row hrow new hnew
      rw [List.mem_singleton.mp hnew]
      exact hfresh row hrow
    · intro row hrow
      rw [append, hrows] at hrow
      rcases List.mem_append.mp hrow with hold | hnew
      · exact hpast row hold
      · rw [List.mem_singleton.mp hnew]
        exact le_refl now
    · rw [append, hrows]
      exact h.read.add _

theorem ordered_step {feed' : ReplicationFeed} {event : FeedEvent} (hstep : Step feed event feed')
    (h : feed.Ordered) : feed'.Ordered := by
  cases hstep with
  | append hclock hfresh => exact ordered_append h hclock hfresh
  | @page limit rows hlimit hlist =>
      rw [h.listReplicationEvents_eq limit] at hlist
      obtain rfl := Except.ok.inj hlist
      exact ⟨h.identifiers, h.past, h.read.page limit h.keys⟩

theorem ordered_of_run {clock : Nat} {events : List FeedEvent}
    (h : Run Step (initial clock) events feed) : feed.Ordered := by
  refine h.invariant (fun _ _ _ hstep hordered => ordered_step hstep hordered) ?_
  exact ⟨.nil, fun row hrow => absurd hrow List.not_mem_nil,
    fun row hrow => absurd hrow List.not_mem_nil, .nil⟩

/-! ## Lost events -/

/-- No event has been lost to the consumer. -/
def Complete (feed : ReplicationFeed) : Prop :=
  Support.Complete MeshReplicationRow.key feed.rows feed.received

/-- A new row lies after the cursor exactly when it does not share the
millisecond of the last row received under a smaller identifier. -/
theorem Ordered.after_cursor_iff (h : feed.Ordered) (row : MeshReplicationRow)
    (hclock : feed.clock ≤ row.createdAt) :
    After (cursorOf MeshReplicationRow.key feed.received) row.key ↔
      ∀ last ∈ feed.received.getLast?, last.createdAt = row.createdAt →
        last.replicationId < row.replicationId := by
  cases hlast : feed.received.getLast? with
  | none => simp [cursorOf, hlast, After]
  | some last =>
      have hmem : last ∈ feed.rows := h.read.mem last (List.mem_of_getLast? hlast)
      have hle : last.createdAt ≤ row.createdAt := le_trans (h.past last hmem) hclock
      have hkey : After (cursorOf MeshReplicationRow.key feed.received) row.key ↔
          last.createdAt < row.createdAt ∨
            last.createdAt = row.createdAt ∧ last.replicationId < row.replicationId := by
        simp only [cursorOf, hlast, Option.map_some, After, MeshReplicationRow.key,
          Prod.Lex.toLex_lt_toLex]
      rw [hkey]
      constructor
      · intro hafter other hother hsame
        obtain rfl := Option.some.inj hother
        rcases hafter with hlt | ⟨-, hid⟩
        · omega
        · exact hid
      · intro hids
        rcases hle.lt_or_eq with hlt | hsame
        · exact .inl hlt
        · exact .inr ⟨hsame, hids last rfl hsame⟩

/-- A step loses an event exactly when it appends one behind the cursor. -/
theorem complete_step_iff {feed' : ReplicationFeed} {event : FeedEvent}
    (hstep : Step feed event feed') (h : feed.Ordered) :
    feed'.Complete ↔ feed.Complete ∧ AppendsAhead feed event := by
  cases hstep with
  | @append input now replicationId hclock hfresh =>
      rcases appendReplicationEvent_rows input now hfresh with
        ⟨⟨row, hrow, hsame⟩, hrows⟩ | ⟨hnew, hrows⟩
      · have hkept : (feed.append input now replicationId).Complete ↔ feed.Complete := by
          simp only [Complete, append, hrows]
        have hahead : AppendsAhead feed (.append input now replicationId) :=
          fun hnone => absurd hsame (hnone row hrow)
        rw [hkept]
        exact ⟨fun hcomplete => ⟨hcomplete, hahead⟩, fun hboth => hboth.1⟩
      · have hnotReceived : input.row now replicationId ∉ feed.received :=
          fun hmem => hfresh _ (h.read.mem _ hmem) rfl
        have hafter := h.after_cursor_iff (input.row now replicationId) hclock
        have hsplit : (feed.append input now replicationId).Complete ↔
            feed.Complete ∧ After (cursorOf MeshReplicationRow.key feed.received)
              (input.row now replicationId).key := by
          simp only [Complete, append, hrows]
          exact complete_add_iff hnotReceived
        rw [hsplit, hafter]
        exact and_congr_right fun _ => ⟨fun hids _ => hids, fun hids => hids hnew⟩
  | @page limit rows hlimit hlist =>
      rw [h.listReplicationEvents_eq limit] at hlist
      obtain rfl := Except.ok.inj hlist
      have hkept := complete_page_iff limit h.read h.keys
      exact hkept.trans (and_iff_left trivial).symm

theorem complete_of_restricted {clock : Nat} {events : List FeedEvent}
    (h : Run (Restrict Step AppendsAhead) (initial clock) events feed) :
    feed.Ordered ∧ feed.Complete := by
  refine h.invariant (I := fun feed => feed.Ordered ∧ feed.Complete) ?_ ?_
  · rintro feed event feed' ⟨hstep, hahead⟩ ⟨hordered, hcomplete⟩
    exact ⟨ordered_step hstep hordered,
      (complete_step_iff hstep hordered).mpr ⟨hcomplete, hahead⟩⟩
  · exact ⟨ordered_of_run (.nil _), fun row hrow => absurd hrow List.not_mem_nil⟩

theorem restricted_of_complete {clock : Nat} {events : List FeedEvent}
    (h : Run Step (initial clock) events feed) (hcomplete : feed.Complete) :
    Run (Restrict Step AppendsAhead) (initial clock) events feed := by
  have hhistory := Run.invariant_of_history
    (I := fun past feed => feed.Ordered ∧ (feed.Complete →
      Run (Restrict Step AppendsAhead) (initial clock) past feed))
    (fun past feed event feed' hstep hpast => by
      refine ⟨ordered_step hstep hpast.1, fun hcomplete => ?_⟩
      obtain ⟨hbefore, hahead⟩ := (complete_step_iff hstep hpast.1).mp hcomplete
      exact (hpast.2 hbefore).append (.single ⟨hstep, hahead⟩))
    h ⟨ordered_of_run (.nil _), fun _ => .nil _⟩
  rw [List.nil_append] at hhistory
  exact hhistory.2 hcomplete

end ReplicationFeed

/-- When a consumer that has paged through the log receives an empty page, its
pages hold every stored event exactly once if and only if every append of the
run kept ahead of the cursor of its moment. -/
theorem pages_hold_every_event_iff {clock : Nat} {events : List FeedEvent}
    {feed : ReplicationFeed} {limit : Nat}
    (hrun : Run ReplicationFeed.Step (ReplicationFeed.initial clock) events feed)
    (hlimit : 1 ≤ limit)
    (hempty : listReplicationEvents limit feed.cursor feed.rows = .ok []) :
    feed.received.Perm feed.rows ↔
      Run (Restrict ReplicationFeed.Step ReplicationFeed.AppendsAhead)
        (ReplicationFeed.initial clock) events feed := by
  have hordered := ReplicationFeed.ordered_of_run hrun
  rw [hordered.listReplicationEvents_eq limit] at hempty
  have hperm := perm_iff_complete hordered.read hordered.keys hlimit
    (Except.ok.inj hempty)
  rw [hperm]
  constructor
  · exact ReplicationFeed.restricted_of_complete hrun
  · intro hrestricted
    exact (ReplicationFeed.complete_of_restricted hrestricted).2

/-- An event of `node-a`. -/
def nodeEvent (idempotencyKey : String) : MeshReplicationIngestRequest where
  sourceNodeId := "node-a"
  eventType := "session.updated"
  payloadJson := "null"
  idempotencyKey := idempotencyKey

/-- The row of the first event of the millisecond. -/
def firstRow : MeshReplicationRow :=
  (nodeEvent "first").row 1000 "b1b1b1b1-b1b1-4b1b-8b1b-b1b1b1b1b1b1"

/-- The first event is stored and the consumer receives it. -/
def firstReceived : ReplicationFeed where
  clock := 1000
  rows := [firstRow]
  received := [firstRow]

theorem run_to_firstReceived :
    Run (Restrict ReplicationFeed.Step ReplicationFeed.AppendsAhead)
      (ReplicationFeed.initial 1000)
      [.append (nodeEvent "first") 1000 "b1b1b1b1-b1b1-4b1b-8b1b-b1b1b1b1b1b1",
        .page 200 [firstRow]]
      firstReceived := by
  have hpage : listReplicationEvents 200 none [firstRow] = .ok [firstRow] := by
    decide +kernel
  refine .cons ⟨.append (le_refl _) fun row hrow => absurd hrow List.not_mem_nil, ?_⟩
    (.single ⟨.page (by decide) hpage, trivial⟩)
  intro _ last hlast
  cases hlast

/-- The row of an event of the next millisecond. -/
def secondRow : MeshReplicationRow :=
  (nodeEvent "second").row 1001 "a0a0a0a0-a0a0-4a0a-8a0a-a0a0a0a0a0a0"

/-- Each event is received on a page of its own. -/
def bothReceived : ReplicationFeed where
  clock := 1001
  rows := [firstRow, secondRow]
  received := [firstRow, secondRow]

theorem run_to_bothReceived :
    Run (Restrict ReplicationFeed.Step ReplicationFeed.AppendsAhead)
      (ReplicationFeed.initial 1000)
      ([.append (nodeEvent "first") 1000 "b1b1b1b1-b1b1-4b1b-8b1b-b1b1b1b1b1b1",
        .page 200 [firstRow]] ++
        [.append (nodeEvent "second") 1001 "a0a0a0a0-a0a0-4a0a-8a0a-a0a0a0a0a0a0",
          .page 1 [secondRow]])
      bothReceived := by
  refine run_to_firstReceived.append
    (.cons ⟨.append (by decide) (by decide +kernel), ?_⟩ (.single ⟨.page (by decide) ?_, trivial⟩))
  · intro _ last hlast
    obtain rfl := Option.some.inj hlast
    decide +kernel
  · decide +kernel

/-- The consumer of both pages has received the whole log. -/
theorem bothReceived_holds_every_event : bothReceived.received.Perm bothReceived.rows :=
  (pages_hold_every_event_iff run_to_bothReceived.of_restrict
    (show 1 ≤ 200 by decide) (by decide +kernel)).mpr run_to_bothReceived

/-- A second event of the same millisecond with a smaller identifier is stored
behind the cursor: the next page is empty, and the event was not delivered. -/
theorem append_behind_cursor_is_lost :
    ¬∀ (clock : Nat) (events : List FeedEvent) (feed : ReplicationFeed) (limit : Nat),
      Run ReplicationFeed.Step (ReplicationFeed.initial clock) events feed →
      1 ≤ limit → listReplicationEvents limit feed.cursor feed.rows = .ok [] →
      feed.received.Perm feed.rows := by
  intro hclaim
  have hrun := run_to_firstReceived.of_restrict.append
    (.single (@ReplicationFeed.Step.append firstReceived (nodeEvent "second") 1000
      "a0a0a0a0-a0a0-4a0a-8a0a-a0a0a0a0a0a0" (le_refl _) (by decide +kernel)))
  have hperm := hclaim 1000 _ _ 200 hrun (by decide) (by decide +kernel)
  have hlength := hperm.length_eq
  revert hlength
  decide +kernel

/-! ## Stored once -/

namespace ReplicationFeed

/-- Every event that was appended is stored, once. -/
structure StoredOnce (events : List FeedEvent) (feed : ReplicationFeed) : Prop where
  apart : feed.rows.Pairwise fun a b =>
    ¬(a.sourceNodeId = b.sourceNodeId ∧ a.idempotencyKey = b.idempotencyKey)
  stored : ∀ input now replicationId, .append input now replicationId ∈ events →
    ∃ row ∈ feed.rows, input.SameEvent row

theorem storedOnce_step {past : List FeedEvent} {feed feed' : ReplicationFeed}
    {event : FeedEvent} (hstep : Step feed event feed') (h : StoredOnce past feed) :
    StoredOnce (past ++ [event]) feed' := by
  cases hstep with
  | @append input now replicationId _ hfresh =>
      have hrows : ((∃ row ∈ feed.rows, input.SameEvent row) ∧
            (feed.append input now replicationId).rows = feed.rows) ∨
          ((∀ row ∈ feed.rows, ¬input.SameEvent row) ∧
            (feed.append input now replicationId).rows =
              feed.rows ++ [input.row now replicationId]) :=
        appendReplicationEvent_rows input now hfresh
      generalize feed.append input now replicationId = after at hrows ⊢
      have hkept : ∀ row ∈ feed.rows, row ∈ after.rows := by
        intro row hrow
        obtain ⟨-, hsame⟩ | ⟨-, hadded⟩ := hrows
        · rwa [hsame]
        · rw [hadded]
          exact List.mem_append_left _ hrow
      have hnew : ∃ row ∈ after.rows, input.SameEvent row := by
        obtain ⟨⟨row, hrow, hevent⟩, -⟩ | ⟨-, hadded⟩ := hrows
        · exact ⟨row, hkept row hrow, hevent⟩
        · rw [hadded]
          exact ⟨_, List.mem_append_right _ List.mem_cons_self, rfl, rfl⟩
      constructor
      · obtain ⟨-, hsame⟩ | ⟨hother, hadded⟩ := hrows
        · rw [hsame]
          exact h.apart
        · rw [hadded]
          refine List.pairwise_append.mpr ⟨h.apart, List.pairwise_singleton _ _, ?_⟩
          intro row hrow new hmem hsame
          rw [List.mem_singleton.mp hmem] at hsame
          exact hother row hrow ⟨hsame.1, hsame.2⟩
      · intro earlier time id hmem
        obtain hpast | hlast := List.mem_append.mp hmem
        · obtain ⟨row, hrow, hevent⟩ := h.stored earlier time id hpast
          exact ⟨row, hkept row hrow, hevent⟩
        · cases List.mem_singleton.mp hlast
          exact hnew
  | page =>
      refine ⟨h.apart, ?_⟩
      intro input now replicationId hmem
      obtain hpast | hlast := List.mem_append.mp hmem
      · exact h.stored input now replicationId hpast
      · cases List.mem_singleton.mp hlast

end ReplicationFeed

/-- Whatever new identifiers its events get under a clock that does not go back, the log holds
every appended event once; the consumer receives stored events in the order of the log, none of
them twice; and its next page never fails. -/
theorem replication_storesOnce {clock : Nat} {events : List FeedEvent} {feed : ReplicationFeed}
    (hrun : Run ReplicationFeed.Step (ReplicationFeed.initial clock) events feed) :
    ReplicationFeed.StoredOnce events feed ∧
      ReadInOrder MeshReplicationRow.key feed.rows feed.received ∧ feed.received.Nodup ∧
      ∀ limit, ∃ rows, listReplicationEvents limit feed.cursor feed.rows = .ok rows := by
  have hordered := ReplicationFeed.ordered_of_run hrun
  have hstored : ReplicationFeed.StoredOnce ([] ++ events) feed :=
    hrun.invariant_of_history (fun _ _ _ _ hstep h => ReplicationFeed.storedOnce_step hstep h)
      ⟨.nil, fun _ _ _ hnone => absurd hnone List.not_mem_nil⟩
  refine ⟨hstored, hordered.read, ?_, fun limit => ⟨_, hordered.listReplicationEvents_eq limit⟩⟩
  refine hordered.read.increasing.imp ?_
  rintro row _ hlt rfl
  exact lt_irrefl _ hlt

/-- The consumer of both events received each of them once. -/
theorem bothReceived_storesOnce :
    ReplicationFeed.StoredOnce
        ([.append (nodeEvent "first") 1000 "b1b1b1b1-b1b1-4b1b-8b1b-b1b1b1b1b1b1",
          .page 200 [firstRow]] ++
          [.append (nodeEvent "second") 1001 "a0a0a0a0-a0a0-4a0a-8a0a-a0a0a0a0a0a0",
            .page 1 [secondRow]]) bothReceived ∧
      bothReceived.received.Nodup :=
  have h := replication_storesOnce run_to_bothReceived.of_restrict
  ⟨h.1, h.2.2.1⟩

end GoatCitadel.Mesh
