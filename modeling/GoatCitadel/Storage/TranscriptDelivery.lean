import GoatCitadel.Policy.CanonicalText
import GoatCitadel.Storage.TranscriptOutbox
import GoatCitadel.Support.StableSort

/-!
# The delivery of transcript events

As long as no line is torn, no event with a separator in its text has to be looked for, and rows
are committed behind the ones that are being delivered, a transcript is the list of the events
that were appended, each one once, in the order of the rows; and an event is appended before its
row is marked.
-/

namespace GoatCitadel.Storage.Transcripts

open GoatCitadel.Support
open GoatCitadel.Policy (JsonObject NumberFormat readable_object readable_string)

/-! ## The order of rows -/

/-- Of two rows, the first is listed before the second. -/
def Precedes {format : NumberFormat} (order : DatabaseOrder) (a b : OutboxEntry format) : Prop :=
  notAfter order a b = true ∧ a.eventId ≠ b.eventId

section Order

variable {format : NumberFormat} {order : DatabaseOrder} {a b c : OutboxEntry format}

theorem notAfter_total (order : DatabaseOrder) (a b : OutboxEntry format) :
    notAfter order a b = true ∨ notAfter order b a = true := by
  rw [notAfter, notAfter]
  by_cases htime : a.enqueuedAt = b.enqueuedAt
  · rw [if_pos htime, if_pos htime.symm]
    exact order.isOrder.total _ _
  · rw [if_neg htime, if_neg (Ne.symm htime)]
    exact order.isOrder.total _ _

theorem notAfter_trans (h : notAfter order a b = true) (h' : notAfter order b c = true) :
    notAfter order a c = true := by
  rw [notAfter] at h h' ⊢
  by_cases hab : a.enqueuedAt = b.enqueuedAt
  · by_cases hbc : b.enqueuedAt = c.enqueuedAt
    · rw [if_pos hab] at h
      rw [if_pos hbc] at h'
      rw [if_pos (hab.trans hbc)]
      exact order.isOrder.trans _ _ _ h h'
    · rw [if_neg hbc] at h'
      rwa [hab, if_neg hbc]
  · rw [if_neg hab] at h
    by_cases hbc : b.enqueuedAt = c.enqueuedAt
    · rwa [← hbc, if_neg hab]
    · rw [if_neg hbc] at h'
      have hac : a.enqueuedAt ≠ c.enqueuedAt := by
        intro hac
        rw [← hac] at h'
        exact hab (order.isOrder.antisymm _ _ h h')
      rw [if_neg hac]
      exact order.isOrder.trans _ _ _ h h'

/-- Two rows are not each before the other. -/
theorem Precedes.asymm (h : Precedes order a b) : ¬ Precedes order b a := by
  intro h'
  have hle := h.1
  have hge := h'.1
  rw [notAfter] at hle hge
  by_cases htime : a.enqueuedAt = b.enqueuedAt
  · rw [if_pos htime] at hle
    rw [if_pos htime.symm] at hge
    exact h.2 (order.isOrder.antisymm _ _ hle hge)
  · rw [if_neg htime] at hle
    rw [if_neg (Ne.symm htime)] at hge
    exact htime (order.isOrder.antisymm _ _ hle hge)

end Order

/-! ## What a transcript is -/

/-- Every delivered event is read exactly once, and delivered events are read in the order of
their rows. -/
structure ExactlyOnce {format : NumberFormat} (order : DatabaseOrder) (world : World format) :
    Prop where
  once : ∀ row ∈ world.rows, row.deliveredAt.isSome = true →
    (world.transcript row.sessionId).filter
        (fun fields => textMember fields "eventId" = row.eventId) = [row.event.fields]
  inOrder : ∀ row ∈ world.rows, ∀ other ∈ world.rows, row.deliveredAt.isSome = true →
    other.deliveredAt.isSome = true → row.sessionId = other.sessionId →
    Precedes order row.toOutboxEntry other.toOutboxEntry →
    [row.event.fields, other.event.fields].Sublist (world.transcript row.sessionId)

section Careful

variable {format : NumberFormat}

/-- The text of the event is a line of the transcript. -/
def World.Holds (world : World format) (row : OutboxRow format) : Prop :=
  row.event.text ∈ (utf8Decode (world.content row.sessionId)).splitOn '\n'

/-- A running drain has listed the row and not appended its event yet. -/
def World.Lists (world : World format) (row : OutboxRow format) : Prop :=
  ∃ drain, world.drains row.sessionId = some drain ∧
    ∃ record ∈ drain.listed, record.eventId = row.eventId

/-- An append leaves the whole line or nothing. -/
def Whole (record : OutboxRow format) (landed : Option Nat) : Prop :=
  ∀ bytes, landed = some bytes → bytes = 0 ∨ (recordLine record).length ≤ bytes

/-- No line is torn; an event that was appended and has to be looked for has no separator in its
text; and a new row comes after the rows of its session whose events are in the transcript or
listed by a drain. -/
def Careful (order : DatabaseOrder) (world : World format) : Label format → Prop
  | .commit event enqueuedAt =>
      (∀ row ∈ world.rows, row.eventId ≠ event.eventId) →
      ∀ row ∈ world.rows, row.sessionId = event.sessionId → world.Holds row ∨ world.Lists row →
        Precedes order row.toOutboxEntry ⟨event, enqueuedAt⟩
  | .search sessionId =>
      ∀ drain record, world.drains sessionId = some drain → drain.phase = .search record →
        world.Holds record → record.event.hasSeparator = false
  | .appendFails sessionId landed =>
      ∀ drain record, world.drains sessionId = some drain → drain.phase = .append record →
        Whole record landed
  | .crash landed =>
      ∀ sessionId drain record, world.drains sessionId = some drain →
        drain.phase = .append record → Whole record (landed sessionId)
  | _ => True

end Careful

/-! ## The invariant -/

section Invariant

variable {format : NumberFormat}

/-- What a phase knows about the events that were written. -/
def Phase.Sound (rows : List (OutboxRow format)) (written : List (OutboxEntry format)) :
    Phase format → Prop
  | .attempt record => record.toOutboxEntry ∉ written
  | .append record => record.toOutboxEntry ∉ written ∧
      ∃ row ∈ rows, row.toOutboxEntry = record.toOutboxEntry ∧ row.lastAttemptAt.isSome = true
  | .mark record _ => record.toOutboxEntry ∈ written
  | _ => True

/-- The record that a drain is with. -/
def Phase.current : Phase format → Option (OutboxRow format)
  | .fail record => some record
  | phase => phase.record?

/-- Records that can be delivered one after the other: pending rows of the session in their
order, and in front of what else has not been written. -/
structure Listing (order : DatabaseOrder) (rows : List (OutboxRow format)) (sessionId : String)
    (written : List (OutboxEntry format)) (records : List (OutboxRow format)) : Prop where
  sorted : records.Pairwise fun a b => Precedes order a.toOutboxEntry b.toOutboxEntry
  own : ∀ record ∈ records, record.sessionId = sessionId ∧
    ∃ row ∈ rows, row.toOutboxEntry = record.toOutboxEntry ∧ row.deliveredAt = none
  fresh : ∀ record ∈ records, record.lastAttemptAt = none → record.toOutboxEntry ∉ written
  first : ∀ record ∈ records, ∀ row ∈ rows, row.sessionId = sessionId →
    row.toOutboxEntry ∉ written →
    (∀ other ∈ records, other.toOutboxEntry ≠ row.toOutboxEntry) →
    Precedes order record.toOutboxEntry row.toOutboxEntry

/-- A drain of a session; the record that it is with is none of those that it goes on to. -/
structure Drain.Sound (order : DatabaseOrder) (rows : List (OutboxRow format)) (sessionId : String)
    (written : List (OutboxEntry format)) (drain : Drain format) : Prop where
  listing : Listing order rows sessionId written drain.listed
  current : ∀ record, drain.phase.current = some record → record.sessionId = sessionId ∧
    (∃ row ∈ rows, row.toOutboxEntry = record.toOutboxEntry) ∧
    ∀ other ∈ drain.queue, other.eventId ≠ record.eventId
  phase : drain.phase.Sound rows written

/-- A session: its transcript is the list of the events of `written`, which are those of rows in
their order, all delivered ones among them, and come before the rows that are not written. -/
structure SessionSound (order : DatabaseOrder) (rows : List (OutboxRow format))
    (file : Option (List UInt8)) (drain : Option (Drain format)) (sessionId : String)
    (written : List (OutboxEntry format)) : Prop where
  file : file.getD [] = fileOf (written.map OutboxEntry.event)
  ofRows : ∀ entry ∈ written, entry.sessionId = sessionId ∧
    ∃ row ∈ rows, row.toOutboxEntry = entry ∧ row.lastAttemptAt.isSome = true
  sorted : written.Pairwise (Precedes order)
  delivered : ∀ row ∈ rows, row.sessionId = sessionId → row.deliveredAt.isSome = true →
    row.toOutboxEntry ∈ written
  last : ∀ row ∈ rows, row.sessionId = sessionId → row.toOutboxEntry ∉ written →
    ∀ entry ∈ written, Precedes order entry row.toOutboxEntry
  drain : ∀ running, drain = some running → running.Sound order rows sessionId written

/-- Rows have different identifiers, and every session is sound. -/
structure Delivering (order : DatabaseOrder) (world : World format)
    (written : String → List (OutboxEntry format)) : Prop where
  ids : world.rows.Pairwise fun a b => a.eventId ≠ b.eventId
  sessions : ∀ sessionId, SessionSound order world.rows (world.files sessionId)
    (world.drains sessionId) sessionId (written sessionId)

variable {order : DatabaseOrder} {rows : List (OutboxRow format)} {file : Option (List UInt8)}
  {sessionId : String} {written : List (OutboxEntry format)}

/-- The row of an identifier is unique. -/
theorem row_unique (hids : rows.Pairwise fun a b => a.eventId ≠ b.eventId)
    {row other : OutboxRow format} (hrow : row ∈ rows) (hother : other ∈ rows)
    (hsame : row.eventId = other.eventId) : row = other := by
  by_contra hne
  rcases pair_sublist_or hrow hother hne with hsub | hsub
  · exact (List.pairwise_pair.mp (hids.sublist hsub)) hsame
  · exact (List.pairwise_pair.mp (hids.sublist hsub)) hsame.symm

theorem recordEvent_eq (entry : OutboxEntry format) : entry.recordEvent = entry.event.fields :=
  parseTranscriptEvent_text entry.event

theorem recordLine_eq (record : OutboxRow format) : recordLine record = record.event.line := by
  rw [recordLine, recordEvent_eq]
  rfl

theorem sessionId_eq (record : OutboxRow format) :
    textMember record.recordEvent "sessionId" = record.sessionId := by
  rw [recordEvent_eq]
  rfl

/-! ### Rows -/

section Rows

variable {eventId : String} {change : OutboxRow format → OutboxRow format} {row : OutboxRow format}

/-- A change of the delivery of a row, not of what was committed; an attempt stays begun. -/
structure KeepsEntry (change : OutboxRow format → OutboxRow format) : Prop where
  entry : ∀ row, (change row).toOutboxEntry = row.toOutboxEntry
  attempt : ∀ row, row.lastAttemptAt.isSome = true → (change row).lastAttemptAt.isSome = true

theorem keepsEntry_markAttemptStarted (attemptedAt : String) :
    @KeepsEntry format (markAttemptStarted attemptedAt) := by
  constructor
  · intro row
    rw [markAttemptStarted]
    split_ifs <;> rfl
  · intro row hrow
    rw [markAttemptStarted]
    split_ifs
    · rfl
    · exact hrow

theorem keepsEntry_markDelivered (deliveredAt : String) (offset : Nat) :
    @KeepsEntry format (markDelivered deliveredAt offset) :=
  ⟨fun _ => rfl, fun _ _ => rfl⟩

theorem keepsEntry_markFailed (lastAttemptAt lastError : String) :
    @KeepsEntry format (markFailed lastAttemptAt lastError) := by
  constructor
  · intro row
    rw [markFailed]
    split_ifs <;> rfl
  · intro row hrow
    rw [markFailed]
    split_ifs
    · rfl
    · exact hrow

theorem exists_of_mem_updateRow (h : row ∈ updateRow rows eventId change) :
    ∃ old ∈ rows, (old.eventId = eventId ∧ row = change old) ∨
      (old.eventId ≠ eventId ∧ row = old) := by
  obtain ⟨old, hold, rfl⟩ := List.mem_map.mp h
  refine ⟨old, hold, ?_⟩
  by_cases hsame : old.eventId = eventId
  · exact .inl ⟨hsame, if_pos hsame⟩
  · exact .inr ⟨hsame, if_neg hsame⟩

theorem mem_updateRow_of_ne (h : row ∈ rows) (hne : row.eventId ≠ eventId) :
    row ∈ updateRow rows eventId change :=
  List.mem_map.mpr ⟨row, h, if_neg hne⟩

theorem mem_updateRow_of_eq (h : row ∈ rows) (hsame : row.eventId = eventId) :
    change row ∈ updateRow rows eventId change :=
  List.mem_map.mpr ⟨row, h, if_pos hsame⟩

/-- What was committed stays. -/
theorem KeepsEntry.old (hchange : KeepsEntry change) (h : row ∈ updateRow rows eventId change) :
    ∃ old ∈ rows, old.toOutboxEntry = row.toOutboxEntry := by
  obtain ⟨old, hold, ⟨-, rfl⟩ | ⟨-, rfl⟩⟩ := exists_of_mem_updateRow h
  · exact ⟨old, hold, (hchange.entry old).symm⟩
  · exact ⟨row, hold, rfl⟩

theorem KeepsEntry.new (hchange : KeepsEntry change) {old : OutboxRow format} (h : old ∈ rows) :
    ∃ row ∈ updateRow rows eventId change, row.toOutboxEntry = old.toOutboxEntry ∧
      (old.lastAttemptAt.isSome = true → row.lastAttemptAt.isSome = true) := by
  by_cases hsame : old.eventId = eventId
  · exact ⟨_, mem_updateRow_of_eq h hsame, hchange.entry old, hchange.attempt old⟩
  · exact ⟨old, mem_updateRow_of_ne h hsame, rfl, id⟩

theorem KeepsEntry.ids (hchange : KeepsEntry change)
    (h : rows.Pairwise fun a b => a.eventId ≠ b.eventId) :
    (updateRow rows eventId change).Pairwise fun a b => a.eventId ≠ b.eventId := by
  have hid : ∀ row : OutboxRow format,
      (if row.eventId = eventId then change row else row).eventId = row.eventId := by
    intro row
    split_ifs
    · exact congrArg OutboxEntry.eventId (hchange.entry row)
    · rfl
  rw [updateRow, List.pairwise_map]
  simp only [hid]
  exact h

end Rows

/-! ### Listings -/

section Listings

variable {record : OutboxRow format} {records : List (OutboxRow format)} {eventId : String}
  {change : OutboxRow format → OutboxRow format}

theorem Listing.nil : Listing order rows sessionId written [] where
  sorted := .nil
  own := List.forall_mem_nil _
  fresh := List.forall_mem_nil _
  first := List.forall_mem_nil _

/-- The other records of a listing have other identifiers than the first. -/
theorem Listing.ne_first (h : Listing order rows sessionId written (record :: records)) :
    ∀ other ∈ records, other.eventId ≠ record.eventId :=
  fun other hother => ((List.pairwise_cons.mp h.sorted).1 other hother).2.symm

/-- The first record is written, if it was not before. -/
theorem Listing.tail {written' : List (OutboxEntry format)}
    (h : Listing order rows sessionId written (record :: records))
    (hmem : record.toOutboxEntry ∈ written') (hsub : ∀ entry ∈ written, entry ∈ written')
    (hnew : ∀ entry ∈ written', entry ∈ written ∨ entry = record.toOutboxEntry) :
    Listing order rows sessionId written' records where
  sorted := (List.pairwise_cons.mp h.sorted).2
  own other hother := h.own other (List.mem_cons_of_mem _ hother)
  fresh other hother hnone hwritten := by
    rcases hnew _ hwritten with hold | hsame
    · exact h.fresh other (List.mem_cons_of_mem _ hother) hnone hold
    · exact h.ne_first other hother (congrArg OutboxEntry.eventId hsame)
  first other hother row hrow hsession hunwritten hothers := by
    apply h.first other (List.mem_cons_of_mem _ hother) row hrow hsession
    · exact fun hold => hunwritten (hsub _ hold)
    · intro one hone hsame
      rcases List.mem_cons.mp hone with rfl | hone
      · exact hunwritten (hsame ▸ hmem)
      · exact hothers one hone hsame

theorem Listing.update (h : Listing order rows sessionId written records)
    (hchange : KeepsEntry change)
    (hpending : ∀ record ∈ records, record.eventId = eventId →
      ∀ row : OutboxRow format, row.deliveredAt = none → (change row).deliveredAt = none) :
    Listing order (updateRow rows eventId change) sessionId written records where
  sorted := h.sorted
  own record hrecord := by
    obtain ⟨hsession, row, hrow, hentry, hnone⟩ := h.own record hrecord
    refine ⟨hsession, ?_⟩
    by_cases hsame : row.eventId = eventId
    · have hid : record.eventId = eventId :=
        (congrArg OutboxEntry.eventId hentry).symm.trans hsame
      exact ⟨_, mem_updateRow_of_eq hrow hsame, (hchange.entry row).trans hentry,
        hpending record hrecord hid row hnone⟩
    · exact ⟨row, mem_updateRow_of_ne hrow hsame, hentry, hnone⟩
  fresh := h.fresh
  first record hrecord row hrow hsession hunwritten hothers := by
    obtain ⟨old, hold, hentry⟩ := hchange.old hrow
    rw [← hentry] at hunwritten hothers ⊢
    exact h.first record hrecord old hold ((congrArg OutboxEntry.sessionId hentry).trans hsession)
      hunwritten hothers

/-- A new row comes behind the records that are listed. -/
theorem Listing.commit {row : OutboxRow format}
    (h : Listing order rows sessionId written records)
    (hrow : row.sessionId = sessionId → ∀ record ∈ records,
      Precedes order record.toOutboxEntry row.toOutboxEntry) :
    Listing order (rows ++ [row]) sessionId written records where
  sorted := h.sorted
  own record hrecord := by
    obtain ⟨hsession, old, hold, hentry⟩ := h.own record hrecord
    exact ⟨hsession, old, List.mem_append_left _ hold, hentry⟩
  fresh := h.fresh
  first record hrecord other hother hsession hunwritten hothers := by
    rcases List.mem_append.mp hother with hold | hnew
    · exact h.first record hrecord other hold hsession hunwritten hothers
    · rw [List.mem_singleton.mp hnew] at hsession ⊢
      exact hrow hsession record hrecord

end Listings

/-! ### Drains -/

section Drains

variable {drain : Drain format} {record : OutboxRow format} {eventId : String}
  {change : OutboxRow format → OutboxRow format}

/-- A drain that is with the first record of a listing. -/
theorem sound_of_listing (h : Listing order rows sessionId written (record :: drain.rest))
    (hcurrent : drain.phase.current = some record) (hlisted : drain.listed = record :: drain.rest)
    (hqueue : drain.queue = drain.rest) (hphase : drain.phase.Sound rows written) :
    drain.Sound order rows sessionId written where
  listing := hlisted ▸ h
  current other hother := by
    rw [hcurrent] at hother
    rw [← Option.some.inj hother, hqueue]
    obtain ⟨hsession, row, hrow, hentry, -⟩ := h.own record List.mem_cons_self
    exact ⟨hsession, ⟨row, hrow, hentry⟩, h.ne_first⟩
  phase := hphase

/-- A drain that is with no record, or with one that is written, goes on to a listing. -/
theorem sound_next (h : Listing order rows sessionId written drain.rest) :
    drain.next.Sound order rows sessionId written := by
  cases hrest : drain.rest with
  | nil =>
      rw [Drain.next, hrest]
      exact ⟨.nil, fun _ hrecord => (Option.some_ne_none _ hrecord.symm).elim, trivial⟩
  | cons record rest =>
      rw [hrest] at h
      rw [Drain.next, hrest]
      by_cases hattempt : record.lastAttemptAt.isSome = true
      · have hfirst : Phase.first record = .search record := if_pos hattempt
        simp only [hfirst]
        exact sound_of_listing h rfl rfl rfl trivial
      · have hfirst : Phase.first record = .attempt record := if_neg hattempt
        simp only [hfirst]
        exact sound_of_listing h rfl rfl rfl
          (h.fresh record List.mem_cons_self (Option.not_isSome_iff_eq_none.mp hattempt))

theorem Drain.Sound.update (h : drain.Sound order rows sessionId written)
    (hchange : KeepsEntry change)
    (hpending : ∀ record ∈ drain.listed, record.eventId = eventId →
      ∀ row : OutboxRow format, row.deliveredAt = none → (change row).deliveredAt = none) :
    drain.Sound order (updateRow rows eventId change) sessionId written where
  listing := h.listing.update hchange hpending
  current record hrecord := by
    obtain ⟨hsession, ⟨row, hrow, hentry⟩, hqueue⟩ := h.current record hrecord
    obtain ⟨new, hnew, hsame, -⟩ := hchange.new hrow
    exact ⟨hsession, ⟨new, hnew, hsame.trans hentry⟩, hqueue⟩
  phase := by
    have hphase := h.phase
    cases hcase : drain.phase with
    | append record =>
        rw [hcase] at hphase
        obtain ⟨hfresh, row, hrow, hentry, hattempt⟩ := hphase
        obtain ⟨new, hnew, hsame, hkeep⟩ := hchange.new hrow
        exact ⟨hfresh, new, hnew, hsame.trans hentry, hkeep hattempt⟩
    | attempt record => rwa [hcase] at hphase
    | mark record offset => rwa [hcase] at hphase
    | _ => trivial

theorem Drain.Sound.commit {row : OutboxRow format}
    (h : drain.Sound order rows sessionId written)
    (hrow : row.sessionId = sessionId → ∀ record ∈ drain.listed,
      Precedes order record.toOutboxEntry row.toOutboxEntry) :
    drain.Sound order (rows ++ [row]) sessionId written where
  listing := h.listing.commit hrow
  current record hrecord := by
    obtain ⟨hsession, ⟨old, hold, hentry⟩, hqueue⟩ := h.current record hrecord
    exact ⟨hsession, ⟨old, List.mem_append_left _ hold, hentry⟩, hqueue⟩
  phase := by
    have hphase := h.phase
    cases hcase : drain.phase with
    | append record =>
        rw [hcase] at hphase
        obtain ⟨hfresh, old, hold, hentry⟩ := hphase
        exact ⟨hfresh, old, List.mem_append_left _ hold, hentry⟩
    | attempt record => rwa [hcase] at hphase
    | mark record offset => rwa [hcase] at hphase
    | _ => trivial

/-- A drain with a record that is not appended yet goes on to the rest of its list. -/
theorem queue_of_listed (h : drain.phase.listed = [record]) :
    drain.queue = drain.rest ∧ drain.phase.current = some record := by
  rw [Drain.queue]
  cases hphase : drain.phase with
  | search first =>
      rw [hphase] at h
      exact ⟨rfl, congrArg some (List.singleton_inj.mp h)⟩
  | attempt first =>
      rw [hphase] at h
      exact ⟨rfl, congrArg some (List.singleton_inj.mp h)⟩
  | append first =>
      rw [hphase] at h
      exact ⟨rfl, congrArg some (List.singleton_inj.mp h)⟩
  | _ =>
      rw [hphase] at h
      cases h

theorem Drain.Sound.active (h : drain.Sound order rows sessionId written)
    (hlisted : drain.phase.listed = [record]) :
    Listing order rows sessionId written (record :: drain.rest) := by
  have hlisting := h.listing
  rwa [Drain.listed, hlisted, (queue_of_listed hlisted).1] at hlisting

/-- The record is in the transcript. -/
theorem Drain.Sound.marked {written' : List (OutboxEntry format)}
    (h : drain.Sound order rows sessionId written) (hlisted : drain.phase.listed = [record])
    (offset : Nat) (hmem : record.toOutboxEntry ∈ written')
    (hsub : ∀ entry ∈ written, entry ∈ written')
    (hnew : ∀ entry ∈ written', entry ∈ written ∨ entry = record.toOutboxEntry) :
    ({ drain with phase := .mark record offset } : Drain format).Sound order rows sessionId
      written' where
  listing := (h.active hlisted).tail hmem hsub hnew
  current other hother := by
    obtain ⟨hqueue, hcurrent⟩ := queue_of_listed hlisted
    rw [← Option.some.inj hother]
    have hrecord := h.current record hcurrent
    rwa [hqueue] at hrecord
  phase := hmem

theorem Drain.Sound.delivered {offset : Nat} (h : drain.Sound order rows sessionId written)
    (hphase : drain.phase = .mark record offset) :
    (drain.delivered record offset).Sound order rows sessionId written := by
  have hlisting := h.listing
  rw [Drain.listed, Drain.queue, hphase] at hlisting
  exact sound_next hlisting

theorem sound_fail (hsession : record.sessionId = sessionId)
    (hrow : ∃ row ∈ rows, row.toOutboxEntry = record.toOutboxEntry) :
    ({ drain with phase := .fail record } : Drain format).Sound order rows sessionId written where
  listing := .nil
  current other hother := by
    rw [← Option.some.inj hother]
    exact ⟨hsession, hrow, List.forall_mem_nil _⟩
  phase := trivial

theorem current_of_record (h : drain.phase.record? = some record) :
    drain.phase.current = some record := by
  cases hphase : drain.phase with
  | fail first =>
      rw [hphase] at h
      cases h
  | _ => rwa [hphase] at h

theorem Drain.Sound.thrown (h : drain.Sound order rows sessionId written)
    (hrecord : drain.phase.record? = some record) :
    ({ drain with phase := .fail record } : Drain format).Sound order rows sessionId written := by
  obtain ⟨hsession, hrow, -⟩ := h.current record (current_of_record hrecord)
  exact sound_fail hsession hrow

theorem sound_report :
    ({ drain with phase := .report } : Drain format).Sound order rows sessionId written :=
  ⟨.nil, fun _ hrecord => (Option.some_ne_none _ hrecord.symm).elim, trivial⟩

end Drains

/-! ### Sessions -/

section Sessions

variable {drain : Option (Drain format)} {running : Drain format} {record : OutboxRow format}
  {eventId : String} {change : OutboxRow format → OutboxRow format}

theorem SessionSound.setDrain {drain' : Option (Drain format)}
    (h : SessionSound order rows file drain sessionId written)
    (hdrain : ∀ running, drain' = some running → running.Sound order rows sessionId written) :
    SessionSound order rows file drain' sessionId written :=
  { h with drain := hdrain }

theorem SessionSound.stop (h : SessionSound order rows file drain sessionId written) :
    SessionSound order rows file none sessionId written :=
  h.setDrain fun _ hrunning => (Option.some_ne_none _ hrunning.symm).elim

theorem SessionSound.update (h : SessionSound order rows file drain sessionId written)
    (hchange : KeepsEntry change)
    (hdelivered : ∀ row ∈ rows, row.sessionId = sessionId → row.eventId = eventId →
      (change row).deliveredAt.isSome = true →
      row.deliveredAt.isSome = true ∨ row.toOutboxEntry ∈ written)
    (hpending : ∀ running, drain = some running → ∀ record ∈ running.listed,
      record.eventId = eventId →
      ∀ row : OutboxRow format, row.deliveredAt = none → (change row).deliveredAt = none) :
    SessionSound order (updateRow rows eventId change) file drain sessionId written where
  file := h.file
  ofRows entry hentry := by
    obtain ⟨hsession, row, hrow, hsame, hattempt⟩ := h.ofRows entry hentry
    obtain ⟨new, hnew, hkept, hkeep⟩ := hchange.new hrow
    exact ⟨hsession, new, hnew, hkept.trans hsame, hkeep hattempt⟩
  sorted := h.sorted
  delivered row hrow hsession hmarked := by
    obtain ⟨old, hold, ⟨hsame, rfl⟩ | ⟨-, rfl⟩⟩ := exists_of_mem_updateRow hrow
    · rw [hchange.entry]
      have hown : old.sessionId = sessionId :=
        (congrArg OutboxEntry.sessionId (hchange.entry old)).symm.trans hsession
      rcases hdelivered old hold hown hsame hmarked with hbefore | hmem
      · exact h.delivered old hold hown hbefore
      · exact hmem
    · exact h.delivered row hold hsession hmarked
  last row hrow hsession hunwritten := by
    obtain ⟨old, hold, hentry⟩ := hchange.old hrow
    rw [← hentry] at hunwritten ⊢
    exact h.last old hold ((congrArg OutboxEntry.sessionId hentry).trans hsession) hunwritten
  drain running hrunning := (h.drain running hrunning).update hchange (hpending running hrunning)

theorem SessionSound.commit {row : OutboxRow format}
    (h : SessionSound order rows file drain sessionId written) (hpending : row.deliveredAt = none)
    (hrow : row.sessionId = sessionId → ∀ entry, entry ∈ written ∨
      (∃ running, drain = some running ∧ ∃ record ∈ running.listed,
        record.toOutboxEntry = entry) → Precedes order entry row.toOutboxEntry) :
    SessionSound order (rows ++ [row]) file drain sessionId written where
  file := h.file
  ofRows entry hentry := by
    obtain ⟨hsession, old, hold, hsame⟩ := h.ofRows entry hentry
    exact ⟨hsession, old, List.mem_append_left _ hold, hsame⟩
  sorted := h.sorted
  delivered other hother hsession hmarked := by
    rcases List.mem_append.mp hother with hold | hnew
    · exact h.delivered other hold hsession hmarked
    · rw [List.mem_singleton.mp hnew, hpending] at hmarked
      cases hmarked
  last other hother hsession hunwritten entry hentry := by
    rcases List.mem_append.mp hother with hold | hnew
    · exact h.last other hold hsession hunwritten entry hentry
    · rw [List.mem_singleton.mp hnew] at hsession ⊢
      exact hrow hsession entry (.inl hentry)
  drain running hrunning :=
    (h.drain running hrunning).commit fun hsession record hrecord =>
      hrow hsession _ (.inr ⟨running, hrunning, record, hrecord, rfl⟩)

/-- The whole line of the record is in the file. -/
theorem SessionSound.append (h : SessionSound order rows file (some running) sessionId written)
    (hphase : running.phase = .append record) :
    SessionSound order rows (some (file.getD [] ++ recordLine record)) none sessionId
      (written ++ [record.toOutboxEntry]) := by
  have hsound := h.drain running rfl
  have hlisted : running.phase.listed = [record] := by
    rw [hphase]
    rfl
  have hlisting := hsound.active hlisted
  have hattempt := hsound.phase
  rw [hphase] at hattempt
  obtain ⟨hfresh, row, hrow, hentry, hbegun⟩ := hattempt
  have hsession := (hlisting.own record List.mem_cons_self).1
  have hown : row.sessionId = sessionId :=
    (congrArg OutboxEntry.sessionId hentry).trans hsession
  have hunwritten : row.toOutboxEntry ∉ written := hentry ▸ hfresh
  have hbefore := hentry ▸ h.last row hrow hown hunwritten
  constructor
  · rw [Option.getD_some, h.file, recordLine_eq, List.map_append, fileOf, fileOf,
      List.flatMap_append, List.map_singleton, List.flatMap_singleton]
  · intro entry hmem
    rcases List.mem_append.mp hmem with hold | hnew
    · exact h.ofRows entry hold
    · rw [List.mem_singleton.mp hnew]
      exact ⟨hsession, row, hrow, hentry, hbegun⟩
  · refine List.pairwise_append.mpr ⟨h.sorted, List.pairwise_singleton _ _, ?_⟩
    intro entry hold other hnew
    rw [List.mem_singleton.mp hnew]
    exact hbefore entry hold
  · intro other hother hsame hmarked
    exact List.mem_append_left _ (h.delivered other hother hsame hmarked)
  · intro other hother hsame hlater entry hmem
    have hold : other.toOutboxEntry ∉ written := fun hold => hlater (List.mem_append_left _ hold)
    rcases List.mem_append.mp hmem with hentry | hnew
    · exact h.last other hother hsame hold entry hentry
    · rw [List.mem_singleton.mp hnew]
      -- The other row is one of the rest of the list, or comes behind the whole list.
      by_cases hrest : ∃ one ∈ running.rest, one.toOutboxEntry = other.toOutboxEntry
      · obtain ⟨one, hone, hentry⟩ := hrest
        rw [← hentry]
        exact (List.pairwise_cons.mp hlisting.sorted).1 one hone
      · apply hlisting.first record List.mem_cons_self other hother hsame hold
        intro one hone heq
        rcases List.mem_cons.mp hone with rfl | hone
        · exact hlater (List.mem_append_right _ (List.mem_singleton.mpr heq.symm))
        · exact hrest ⟨one, hone, heq⟩
  · intro _ hrunning
    cases hrunning

/-- An append that leaves the whole line or nothing. -/
theorem SessionSound.landed {landed : Option Nat}
    (h : SessionSound order rows file (some running) sessionId written)
    (hphase : running.phase = .append record) (hwhole : Whole record landed) :
    ∃ written', written <+: written' ∧
      SessionSound order rows (landedFile file record landed) none sessionId written' := by
  cases landed with
  | none => exact ⟨written, List.prefix_rfl, h.stop⟩
  | some bytes =>
      rcases hwhole bytes rfl with rfl | hall
      · refine ⟨written, List.prefix_rfl, { h.stop with file := ?_ }⟩
        rw [landedFile, List.take_zero, List.append_nil]
        exact h.file
      · refine ⟨written ++ [record.toOutboxEntry], List.prefix_append _ _, ?_⟩
        rw [landedFile, List.take_of_length_le hall]
        exact h.append hphase

/-- The pending rows of a session without a drain. -/
theorem listing_listPending (hids : rows.Pairwise fun a b => a.eventId ≠ b.eventId)
    (h : SessionSound order rows file none sessionId written) (limit : Nat) :
    Listing order rows sessionId written (listPending order rows limit sessionId) := by
  let before : OutboxRow format → OutboxRow format → Prop := fun a b =>
    notAfter order a.toOutboxEntry b.toOutboxEntry = true
  have : Std.Total before := ⟨fun a b => notAfter_total order a.toOutboxEntry b.toOutboxEntry⟩
  have : IsTrans (OutboxRow format) before := ⟨fun _ _ _ => notAfter_trans⟩
  let pending := rows.filter fun row => row.deliveredAt.isNone && row.sessionId == sessionId
  have hmem : ∀ row, row ∈ pending.insertionSort before ↔
      row ∈ rows ∧ row.deliveredAt = none ∧ row.sessionId = sessionId := by
    intro row
    rw [List.mem_insertionSort, List.mem_filter, Bool.and_eq_true, Option.isNone_iff_eq_none,
      beq_iff_eq]
  have hdifferent : (pending.insertionSort before).Pairwise fun a b => a.eventId ≠ b.eventId :=
    ((List.perm_insertionSort before pending).pairwise_iff fun hne => hne.symm).mpr
      (hids.sublist List.filter_sublist)
  have hsorted : (pending.insertionSort before).Pairwise fun a b =>
      Precedes order a.toOutboxEntry b.toOutboxEntry :=
    (List.pairwise_insertionSort before pending).and hdifferent
  have hlisted : ∀ record ∈ listPending order rows limit sessionId,
      record ∈ rows ∧ record.deliveredAt = none ∧ record.sessionId = sessionId :=
    fun record hrecord => (hmem record).mp (List.mem_of_mem_take hrecord)
  constructor
  · exact hsorted.sublist (List.take_sublist _ _)
  · intro record hrecord
    obtain ⟨hrow, hnone, hsession⟩ := hlisted record hrecord
    exact ⟨hsession, record, hrow, rfl, hnone⟩
  · intro record hrecord hnone hwritten
    obtain ⟨hrow, -⟩ := hlisted record hrecord
    obtain ⟨-, row, hother, hentry, hattempt⟩ := h.ofRows _ hwritten
    rw [row_unique hids hother hrow (congrArg OutboxEntry.eventId hentry), hnone] at hattempt
    cases hattempt
  · intro record hrecord row hrow hsession hunwritten hothers
    have hnone : row.deliveredAt = none := by
      rw [← Option.not_isSome_iff_eq_none]
      exact fun hmarked => hunwritten (h.delivered row hrow hsession hmarked)
    have hsplit := hsorted
    rw [← List.take_append_drop limit (pending.insertionSort before)] at hsplit
    refine (List.pairwise_append.mp hsplit).2.2 record hrecord row ?_
    have hrest := (hmem row).mpr ⟨hrow, hnone, hsession⟩
    rw [← List.take_append_drop limit (pending.insertionSort before)] at hrest
    rcases List.mem_append.mp hrest with htaken | hdropped
    · exact absurd rfl (hothers row htaken)
    · exact hdropped

/-- What the search finds is in the transcript, and what it does not find is not, unless it is
there with a separator. -/
theorem SessionSound.searched (hids : rows.Pairwise fun a b => a.eventId ≠ b.eventId)
    (h : SessionSound order rows file (some running) sessionId written)
    (hphase : running.phase = .search record)
    (hplain : record.toOutboxEntry ∈ written → record.event.hasSeparator = false) :
    ({ running with phase := afterSearch record (file.getD []) } : Drain format).Sound order rows
      sessionId written := by
  have hsound := h.drain running rfl
  have hlisted : running.phase.listed = [record] := by
    rw [hphase]
    rfl
  have hlisting := hsound.active hlisted
  rw [afterSearch, h.file]
  cases hfound : findEventOffset format (fileOf (written.map OutboxEntry.event))
      record.eventId with
  | none =>
      have hseparator := (findEventOffset_fileOf _).mp hfound
      refine sound_of_listing hlisting rfl rfl rfl fun hwritten => ?_
      have hone := hseparator record.event (List.mem_map_of_mem hwritten) rfl
      rw [hplain hwritten] at hone
      cases hone
  | some offset =>
      refine hsound.marked hlisted offset ?_ (fun _ => id) (fun _ => .inl)
      by_contra hunwritten
      apply Option.some_ne_none offset
      rw [← hfound, findEventOffset_fileOf]
      intro event hevent hid
      obtain ⟨entry, hentry, rfl⟩ := List.mem_map.mp hevent
      obtain ⟨-, row, hrow, rfl, -⟩ := h.ofRows entry hentry
      obtain ⟨-, other, hother, hsame, -⟩ := hlisting.own record List.mem_cons_self
      have heq := row_unique hids hrow hother
        (hid.trans (congrArg OutboxEntry.eventId hsame).symm)
      rw [heq, hsame] at hentry
      exact absurd hentry hunwritten

end Sessions

/-! ### Statements -/

section Statements

variable {world : World format} {written : String → List (OutboxEntry format)}
  {running : Drain format} {record : OutboxRow format}

/-- A state after which nothing is lost that was written. -/
def GoesOn (order : DatabaseOrder) (written : String → List (OutboxEntry format))
    (world : World format) : Prop :=
  ∃ written', (∀ sessionId, written sessionId <+: written' sessionId) ∧
    Delivering order world written'

theorem Delivering.goesOn (h : Delivering order world written) : GoesOn order written world :=
  ⟨written, fun _ => List.prefix_rfl, h⟩

theorem goesOn_of_sessions (hids : world.rows.Pairwise fun a b => a.eventId ≠ b.eventId)
    (h : ∀ sessionId, ∃ written', written sessionId <+: written' ∧
      SessionSound order world.rows (world.files sessionId) (world.drains sessionId) sessionId
        written') : GoesOn order written world := by
  choose written' hgrows hsound using h
  exact ⟨written', hgrows, hids, hsound⟩

/-- Where the row of a record is written, the transcript has its line. -/
theorem Delivering.holds (h : Delivering order world written)
    (hmem : record.toOutboxEntry ∈ written sessionId) : world.Holds record := by
  have hsound := h.sessions sessionId
  have hsession : record.sessionId = sessionId := (hsound.ofRows _ hmem).1
  rw [World.Holds, World.content, hsession, hsound.file, splitOn_fileOf, List.map_map]
  exact List.mem_append_left _ (List.mem_map.mpr ⟨_, hmem, rfl⟩)

theorem Delivering.setDrain {drain : Option (Drain format)} (h : Delivering order world written)
    (hdrain : ∀ running, drain = some running →
      running.Sound order world.rows sessionId (written sessionId)) :
    Delivering order (world.setDrain sessionId drain) written where
  ids := h.ids
  sessions other := by
    dsimp only [World.setDrain]
    by_cases hsame : other = sessionId
    · rw [hsame, Function.update_self]
      exact (h.sessions sessionId).setDrain hdrain
    · rw [Function.update_of_ne hsame]
      exact h.sessions other

theorem Delivering.update {change : OutboxRow format → OutboxRow format}
    (h : Delivering order world written) (hchange : KeepsEntry change)
    (hrow : ∃ row ∈ world.rows, row.toOutboxEntry = record.toOutboxEntry)
    (hdelivered : ∀ row, (change row).deliveredAt.isSome = true →
      row.deliveredAt.isSome = true ∨ record.toOutboxEntry ∈ written record.sessionId)
    (hpending : (∀ row, row.deliveredAt = none → (change row).deliveredAt = none) ∨
      ∀ running, world.drains record.sessionId = some running →
        ∀ other ∈ running.listed, other.eventId ≠ record.eventId) :
    Delivering order (world.updateRow record change) written := by
  obtain ⟨row, hrow, hentry⟩ := hrow
  have hunique : ∀ other ∈ world.rows, other.eventId = record.eventId →
      other.toOutboxEntry = record.toOutboxEntry := by
    intro other hother hid
    have hsame := row_unique h.ids hother hrow
      (hid.trans (congrArg OutboxEntry.eventId hentry).symm)
    rw [hsame, hentry]
  refine ⟨hchange.ids h.ids, fun sessionId => (h.sessions sessionId).update hchange ?_ ?_⟩
  · intro other hother hsession hid hmarked
    have hsame := hunique other hother hid
    have hown : record.sessionId = sessionId :=
      (congrArg OutboxEntry.sessionId hsame).symm.trans hsession
    rw [hsame, ← hown]
    exact hdelivered other hmarked
  · intro running hrunning listed hlisted hid
    rcases hpending with hkeeps | hothers
    · exact hkeeps
    · have hsound := (h.sessions sessionId).drain running hrunning
      obtain ⟨hsession, other, hother, hsame, -⟩ := hsound.listing.own listed hlisted
      have hrecord := hunique other hother ((congrArg OutboxEntry.eventId hsame).trans hid)
      have hown : record.sessionId = sessionId := by
        rw [← hsession]
        exact congrArg OutboxEntry.sessionId (hrecord.symm.trans hsame)
      rw [← hown] at hrunning
      exact absurd hid (hothers running hrunning listed hlisted)

/-- The record that a drain is with has a row. -/
theorem Delivering.current (h : Delivering order world written)
    (hrunning : world.drains sessionId = some running)
    (hcurrent : running.phase.current = some record) : record.sessionId = sessionId ∧
      (∃ row ∈ world.rows, row.toOutboxEntry = record.toOutboxEntry) ∧
      ∀ other ∈ running.queue, other.eventId ≠ record.eventId :=
  ((h.sessions sessionId).drain running hrunning).current record hcurrent

theorem delivering_empty : Delivering order (@World.empty format) fun _ => [] where
  ids := .nil
  sessions _ :=
    { file := rfl
      ofRows := List.forall_mem_nil _
      sorted := .nil
      delivered := List.forall_mem_nil _
      last := List.forall_mem_nil _
      drain := fun _ hrunning => (Option.some_ne_none _ hrunning.symm).elim }

theorem Delivering.commit {event : TranscriptEvent format} {enqueuedAt : String}
    (h : Delivering order world written)
    (hnew : ∀ row ∈ world.rows, row.eventId ≠ event.eventId)
    (hcareful : Careful order world (.commit event enqueuedAt)) :
    Delivering order { world with rows := world.rows ++ [newRow event enqueuedAt] } written where
  ids := by
    refine List.pairwise_append.mpr ⟨h.ids, List.pairwise_singleton _ _, ?_⟩
    intro row hrow new hmem
    rw [List.mem_singleton.mp hmem]
    exact hnew row hrow
  sessions sessionId := by
    apply (h.sessions sessionId).commit rfl
    intro hsession entry hentry
    rcases hentry with hmem | ⟨running, hrunning, record, hrecord, rfl⟩
    · obtain ⟨hown, row, hrow, rfl, -⟩ := (h.sessions sessionId).ofRows entry hmem
      exact hcareful hnew row hrow (hown.trans hsession.symm) (.inl (h.holds hmem))
    · have hsound := (h.sessions sessionId).drain running hrunning
      obtain ⟨hown, row, hrow, hsame, -⟩ := hsound.listing.own record hrecord
      have hsessions : row.sessionId = sessionId :=
        (congrArg OutboxEntry.sessionId hsame).trans hown
      rw [← hsame]
      refine hcareful hnew row hrow (hsessions.trans hsession.symm) (.inr ⟨running, ?_, record,
        hrecord, (congrArg OutboxEntry.eventId hsame).symm⟩)
      rw [hsessions, hrunning]

theorem goesOn_land {landed : Option Nat} {drain : Option (Drain format)}
    (h : Delivering order world written) (hsession : record.sessionId = sessionId)
    (hsound : ∃ written', written sessionId <+: written' ∧
      SessionSound order world.rows (landedFile (world.files sessionId) record landed) drain
        sessionId written') :
    GoesOn order written ((world.land record landed).setDrain sessionId drain) := by
  apply goesOn_of_sessions
  · exact h.ids
  intro other
  dsimp only [World.setDrain, World.land]
  rw [sessionId_eq, hsession]
  by_cases hsame : other = sessionId
  · rw [hsame, Function.update_self, Function.update_self]
    exact hsound
  · rw [Function.update_of_ne hsame, Function.update_of_ne hsame]
    exact ⟨written other, List.prefix_rfl, h.sessions other⟩

theorem Delivering.start {target : Option String} {limit : Nat}
    (h : Delivering order world written) (hnone : world.drains sessionId = none) :
    Delivering order (world.setDrain sessionId
      (some (startDrain target (listPending order world.rows limit sessionId)))) written := by
  have hsound := h.sessions sessionId
  rw [hnone] at hsound
  apply h.setDrain
  intro running hrunning
  rw [← Option.some.inj hrunning]
  exact sound_next (listing_listPending h.ids hsound limit)

theorem Delivering.search (h : Delivering order world written)
    (hdrain : world.drains sessionId = some running) (hphase : running.phase = .search record)
    (hcareful : Careful order world (.search sessionId)) :
    Delivering order (world.setDrain sessionId
      (some { running with phase := afterSearch record (world.content record.sessionId) }))
      written := by
  have hsound := h.sessions sessionId
  rw [hdrain] at hsound
  have hcurrent : running.phase.current = some record := by
    rw [hphase]
    rfl
  have hplain : record.toOutboxEntry ∈ written sessionId → record.event.hasSeparator = false :=
    fun hmem => hcareful running record hdrain hphase (h.holds hmem)
  apply h.setDrain
  intro next hnext
  rw [← Option.some.inj hnext, (h.current hdrain hcurrent).1, World.content]
  exact hsound.searched h.ids hphase hplain

theorem Delivering.attempt {attemptedAt : String} (h : Delivering order world written)
    (hdrain : world.drains sessionId = some running) (hphase : running.phase = .attempt record) :
    Delivering order ((world.updateRow record (markAttemptStarted attemptedAt)).setDrain sessionId
      (some { running with phase := .append record })) written := by
  have hlisted : running.phase.listed = [record] := by
    rw [hphase]
    rfl
  have hsound := (h.sessions sessionId).drain running hdrain
  have hfresh := hsound.phase
  rw [hphase] at hfresh
  obtain ⟨-, row, hrow, hentry, hnone⟩ :=
    (hsound.active hlisted).own record List.mem_cons_self
  have hkeeps : ∀ row : OutboxRow format,
      (markAttemptStarted attemptedAt row).deliveredAt = row.deliveredAt := by
    intro row
    rw [markAttemptStarted]
    split_ifs <;> rfl
  have hchange := @keepsEntry_markAttemptStarted format attemptedAt
  have hupdated : Delivering order (world.updateRow record (markAttemptStarted attemptedAt))
      written := by
    apply h.update hchange ⟨row, hrow, hentry⟩
    · intro other hmarked
      rw [hkeeps] at hmarked
      exact .inl hmarked
    · exact .inl fun other hother => (hkeeps other).trans hother
  apply hupdated.setDrain
  intro next hnext
  rw [← Option.some.inj hnext]
  have hactive := ((hupdated.sessions sessionId).drain running hdrain).active hlisted
  refine sound_of_listing hactive rfl rfl rfl ⟨hfresh, _, mem_updateRow_of_eq hrow
    (congrArg OutboxEntry.eventId hentry), (hchange.entry row).trans hentry, ?_⟩
  rw [markAttemptStarted, if_pos (Option.isNone_iff_eq_none.mpr hnone)]
  rfl

theorem Delivering.append {offset : Nat} (h : Delivering order world written)
    (hdrain : world.drains sessionId = some running) (hphase : running.phase = .append record) :
    GoesOn order written ((world.land record (some (recordLine record).length)).setDrain sessionId
      (some { running with phase := .mark record offset })) := by
  have hlisted : running.phase.listed = [record] := by
    rw [hphase]
    rfl
  have hsound := h.sessions sessionId
  rw [hdrain] at hsound
  have hrunning := hsound.drain running rfl
  apply goesOn_land h (h.current hdrain (queue_of_listed hlisted).2).1
  refine ⟨written sessionId ++ [record.toOutboxEntry], List.prefix_append _ _, ?_⟩
  rw [landedFile, List.take_length]
  apply (hsound.append hphase).setDrain
  intro next hnext
  rw [← Option.some.inj hnext]
  apply hrunning.marked hlisted
  · exact List.mem_append_right _ List.mem_cons_self
  · exact fun entry => List.mem_append_left _
  · intro entry hmem
    exact (List.mem_append.mp hmem).imp_right List.mem_singleton.mp

theorem Delivering.appendFails {landed : Option Nat} (h : Delivering order world written)
    (hdrain : world.drains sessionId = some running) (hphase : running.phase = .append record)
    (hwhole : Whole record landed) :
    GoesOn order written ((world.land record landed).setDrain sessionId
      (some { running with phase := .fail record })) := by
  have hrecord : running.phase.record? = some record := by
    rw [hphase]
    rfl
  have hcurrent : running.phase.current = some record := by
    rw [hphase]
    rfl
  have hsound := h.sessions sessionId
  rw [hdrain] at hsound
  obtain ⟨hsession, hrow, -⟩ := h.current hdrain hcurrent
  apply goesOn_land h hsession
  obtain ⟨written', hgrows, hlanded⟩ := hsound.landed hphase hwhole
  refine ⟨written', hgrows, hlanded.setDrain fun next hnext => ?_⟩
  rw [← Option.some.inj hnext]
  exact sound_fail hsession hrow

theorem Delivering.mark {deliveredAt : String} {offset : Nat} (h : Delivering order world written)
    (hdrain : world.drains sessionId = some running)
    (hphase : running.phase = .mark record offset) :
    Delivering order ((world.updateRow record (markDelivered deliveredAt offset)).setDrain
      sessionId (some (running.delivered record offset))) written := by
  have hcurrent : running.phase.current = some record := by
    rw [hphase]
    rfl
  obtain ⟨hsession, hrow, hothers⟩ := h.current hdrain hcurrent
  have hwritten := ((h.sessions sessionId).drain running hdrain).phase
  rw [hphase] at hwritten
  have hupdated : Delivering order (world.updateRow record (markDelivered deliveredAt offset))
      written := by
    apply h.update (keepsEntry_markDelivered deliveredAt offset) hrow
    · rw [hsession]
      exact fun _ _ => .inr hwritten
    · refine .inr fun other hother => ?_
      rw [hsession, hdrain] at hother
      rw [← Option.some.inj hother, Drain.listed, hphase]
      exact hothers
  apply hupdated.setDrain
  intro next hnext
  rw [← Option.some.inj hnext]
  exact ((hupdated.sessions sessionId).drain running hdrain).delivered hphase

theorem Delivering.fail {lastAttemptAt lastError : String} (h : Delivering order world written)
    (hdrain : world.drains sessionId = some running) (hphase : running.phase = .fail record) :
    Delivering order ((world.updateRow record (markFailed lastAttemptAt lastError)).setDrain
      sessionId (some { running with phase := .report })) written := by
  have hcurrent : running.phase.current = some record := by
    rw [hphase]
    rfl
  have hkeeps : ∀ row : OutboxRow format,
      (markFailed lastAttemptAt lastError row).deliveredAt = row.deliveredAt := by
    intro row
    rw [markFailed]
    split_ifs <;> rfl
  have hupdated : Delivering order (world.updateRow record (markFailed lastAttemptAt lastError))
      written := by
    apply h.update (keepsEntry_markFailed lastAttemptAt lastError) (h.current hdrain hcurrent).2.1
    · intro other hmarked
      rw [hkeeps] at hmarked
      exact .inl hmarked
    · exact .inl fun other hother => (hkeeps other).trans hother
  apply hupdated.setDrain
  intro next hnext
  rw [← Option.some.inj hnext]
  exact sound_report

theorem Delivering.throw (h : Delivering order world written)
    (hdrain : world.drains sessionId = some running)
    (hrecord : running.phase.record? = some record) :
    Delivering order (world.setDrain sessionId (some { running with phase := .fail record }))
      written := by
  apply h.setDrain
  intro next hnext
  rw [← Option.some.inj hnext]
  exact ((h.sessions sessionId).drain running hdrain).thrown hrecord

theorem Delivering.stop (h : Delivering order world written) :
    Delivering order (world.setDrain sessionId none) written :=
  h.setDrain fun _ hrunning => (Option.some_ne_none _ hrunning.symm).elim

theorem Delivering.crash {landed : String → Option Nat} (h : Delivering order world written)
    (hcareful : Careful order world (.crash landed)) :
    GoesOn order written (world.crash landed) := by
  apply goesOn_of_sessions
  · exact h.ids
  intro sessionId
  have hsound := h.sessions sessionId
  have hwhole := hcareful sessionId
  dsimp only [World.crash]
  cases hdrain : world.drains sessionId with
  | none => exact ⟨written sessionId, List.prefix_rfl, hsound.stop⟩
  | some running =>
      rw [hdrain] at hsound
      rw [crashedFile, Option.map_some]
      cases hphase : running.phase with
      | append record => exact hsound.landed hphase (hwhole running record hdrain hphase)
      | _ => exact ⟨written sessionId, List.prefix_rfl, hsound.stop⟩

/-- What one statement, or the end of the process, does. -/
theorem Delivering.step {world' : World format} {label : Label format}
    (h : Delivering order world written) (hstep : Step order world label world')
    (hcareful : Careful order world label) : GoesOn order written world' := by
  cases hstep with
  | commit hnew => exact (h.commit hnew hcareful).goesOn
  | conflict => exact h.goesOn
  | start _ hnone => exact (h.start hnone).goesOn
  | search hdrain hphase => exact (h.search hdrain hphase hcareful).goesOn
  | attempt hdrain hphase => exact (h.attempt hdrain hphase).goesOn
  | append hdrain hphase => exact h.append hdrain hphase
  | appendFails hdrain hphase =>
      exact h.appendFails hdrain hphase (hcareful _ _ hdrain hphase)
  | mark hdrain hphase => exact (h.mark hdrain hphase).goesOn
  | throw hdrain hrecord => exact (h.throw hdrain hrecord).goesOn
  | fail hdrain hphase => exact (h.fail hdrain hphase).goesOn
  | finish => exact h.stop.goesOn
  | abort => exact h.stop.goesOn
  | crash => exact h.crash hcareful

theorem Delivering.run {world' : World format} {labels : List (Label format)}
    (h : Delivering order world written)
    (hrun : Run (Restrict (Step order) (Careful order)) world labels world') :
    GoesOn order written world' := by
  induction hrun generalizing written with
  | nil => exact h.goesOn
  | cons hstep _ ih =>
      obtain ⟨middle, hfirst, hsound⟩ := h.step hstep.1 hstep.2
      obtain ⟨written', hrest, hlast⟩ := ih hsound
      exact ⟨written', fun sessionId => (hfirst sessionId).trans (hrest sessionId), hlast⟩

end Statements

/-! ## Runs -/

section Runs

variable {world world' : World format} {writtens : String → List (OutboxEntry format)}
  {labels later : List (Label format)}

theorem Delivering.transcript_eq (h : Delivering order world writtens) (sessionId : String) :
    world.transcript sessionId = (writtens sessionId).map fun entry => entry.event.fields := by
  rw [World.transcript, World.content, (h.sessions sessionId).file, read_fileOf, List.map_map]
  rfl

/-- Of entries with different identifiers one has the identifier of an entry. -/
theorem filter_eventId_eq {entries : List (OutboxEntry format)}
    (hids : entries.Pairwise fun a b => a.eventId ≠ b.eventId) {entry : OutboxEntry format}
    (hmem : entry ∈ entries) :
    entries.filter (fun other => other.eventId = entry.eventId) = [entry] := by
  induction entries with
  | nil => exact absurd hmem List.not_mem_nil
  | cons first entries ih =>
      obtain ⟨hfirst, hrest⟩ := List.pairwise_cons.mp hids
      rcases List.mem_cons.mp hmem with rfl | hmem
      · have hnone : entries.filter (fun other => other.eventId = entry.eventId) = [] := by
          rw [List.filter_eq_nil_iff]
          intro other hother hsame
          exact hfirst other hother (of_decide_eq_true hsame).symm
        rw [List.filter_cons, if_pos (decide_eq_true rfl), hnone]
      · rw [List.filter_cons, if_neg fun hsame => hfirst entry hmem (of_decide_eq_true hsame)]
        exact ih hrest hmem

theorem Delivering.exactlyOnce (h : Delivering order world writtens) :
    ExactlyOnce order world := by
  constructor
  · intro row hrow hmarked
    have hsound := h.sessions row.sessionId
    have hwritten := hsound.delivered row hrow rfl hmarked
    have hids := hsound.sorted.imp fun hbefore => hbefore.2
    rw [h.transcript_eq, List.filter_map]
    exact congrArg (List.map _) (filter_eventId_eq hids hwritten)
  · intro row hrow other hother hmarked hmarked' hsession hbefore
    have hsound := h.sessions row.sessionId
    have hwritten := hsound.delivered row hrow rfl hmarked
    have hwritten' := hsound.delivered other hother hsession.symm hmarked'
    rw [h.transcript_eq]
    have hpair : [row.toOutboxEntry, other.toOutboxEntry].Sublist (writtens row.sessionId) := by
      have hne : row.toOutboxEntry ≠ other.toOutboxEntry :=
        fun heq => hbefore.2 (congrArg OutboxEntry.eventId heq)
      rcases pair_sublist_or hwritten hwritten' hne with hsub | hsub
      · exact hsub
      · have hback := List.pairwise_pair.mp (hsound.sorted.sublist hsub)
        exact absurd hback hbefore.asymm
    exact hpair.map fun entry => entry.event.fields

/-- What is marked is read exactly once and in the order of the rows, and what has been read
once is read later. -/
theorem delivery_exactlyOnce
    (hrun : Run (Restrict (Step order) (Careful order)) World.empty labels world)
    (hlater : Run (Restrict (Step order) (Careful order)) world later world') :
    ExactlyOnce order world ∧
      ∀ sessionId, world.transcript sessionId <+: world'.transcript sessionId := by
  obtain ⟨written, -, hsound⟩ := delivering_empty.run hrun
  obtain ⟨written', hgrows, hsound'⟩ := hsound.run hlater
  refine ⟨hsound.exactlyOnce, fun sessionId => ?_⟩
  rw [hsound.transcript_eq, hsound'.transcript_eq]
  exact (hgrows sessionId).map _

end Runs

end Invariant

/-! ### A message -/

/-- A message of a user. -/
def hello : TranscriptEvent .digits where
  fields := [("eventId", .string "e1"), ("actionId", .string "a1"),
    ("idempotencyKey", .string "k1"), ("sessionId", .string "s1"), ("sessionKey", .string "chat"),
    ("timestamp", .string "2026-01-01T00:00:00.000Z"), ("type", .string "message.user"),
    ("actorType", .string "user"), ("actorId", .string "u1"),
    ("payload", .object [("content", .string "Hello")])]
  readable := by
    have hpayload : Policy.Readable .digits (.object [("content", .string "Hello")]) := by
      refine readable_object (by decide) ?_
      simp only [List.forall_mem_cons]
      exact ⟨readable_string _, List.forall_mem_nil _⟩
    refine readable_object (by decide) ?_
    simp only [List.forall_mem_cons, readable_string, true_and]
    exact ⟨hpayload, List.forall_mem_nil _⟩
  listed := rfl
  isEvent := by decide

/-- The message is committed, and a drain of its session delivers it; then the process ends. -/
theorem hello_run : ∃ world world', Run (Restrict (Step .binary) (Careful .binary))
    (@World.empty .digits)
    [.commit hello "t1", .start "s1" none 1, .attempt "s1" "t2", .append "s1", .mark "s1" "t3"]
    world ∧ (∃ row ∈ world.rows, row.deliveredAt = some "t3") ∧
      Run (Restrict (Step .binary) (Careful .binary)) world [.crash fun _ => none] world' :=
  ⟨_, _, .cons ⟨.commit (List.forall_mem_nil _), fun _ => List.forall_mem_nil _⟩ <|
      .cons ⟨.start (by decide) rfl, trivial⟩ <|
      .cons ⟨.attempt (drains_setDrain _ _ _) rfl, trivial⟩ <|
      .cons ⟨.append (drains_setDrain _ _ _) rfl, trivial⟩ <|
      .cons ⟨.mark (drains_setDrain _ _ _) rfl, trivial⟩ <| .nil _,
    ⟨_, List.mem_cons_self, rfl⟩,
    .cons ⟨.crash, fun _ _ _ _ _ _ hbytes => (Option.some_ne_none _ hbytes.symm).elim⟩ <| .nil _⟩

theorem hello_delivered : ∃ world world' : World .digits,
    (∃ row ∈ world.rows, row.deliveredAt = some "t3") ∧ ExactlyOnce .binary world ∧
      ∀ sessionId, world.transcript sessionId <+: world'.transcript sessionId := by
  obtain ⟨world, world', hrun, hmarked, hlater⟩ := hello_run
  exact ⟨world, world', hmarked, delivery_exactlyOnce hrun hlater⟩

/-! ### A torn line -/

section Torn

variable {format : NumberFormat} {world : World format} {sessionId : String}
  {record : OutboxRow format}

theorem afterSearch_eq_attempt {content : List UInt8}
    (h : findEventOffset format content record.eventId = none) :
    afterSearch record content = .attempt record := by
  rw [afterSearch, h]

theorem content_land (hsession : record.sessionId = sessionId) :
    (world.land record (some (recordLine record).length)).content sessionId =
      world.content sessionId ++ record.event.line := by
  have hfile : (world.land record (some (recordLine record).length)).files sessionId =
      some (world.content sessionId ++ record.event.line) := by
    dsimp only [World.land]
    rw [sessionId_eq, hsession, Function.update_self, landedFile, List.take_length, recordLine_eq]
    rfl
  rw [World.content, hfile]
  rfl

theorem content_crash {drain : Drain format} {landed : String → Option Nat} {bytes : Nat}
    (hdrain : world.drains sessionId = some drain) (hphase : drain.phase = .append record)
    (hlanded : landed sessionId = some bytes) :
    (world.crash landed).content sessionId =
      world.content sessionId ++ record.event.line.take bytes := by
  have hfile : (world.crash landed).files sessionId =
      some (world.content sessionId ++ record.event.line.take bytes) := by
    dsimp only [World.crash]
    rw [hdrain, hlanded, ← recordLine_eq, crashedFile, Option.map_some, hphase]
    rfl
  rw [World.content, hfile]
  rfl

/-- The process ends when two bytes of the line are in the file. -/
theorem hello_torn : ∃ world : World .digits, Run (Step .binary) World.empty
    [.commit hello "t1", .start "s1" none 1, .attempt "s1" "t2", .crash fun _ => some 2] world ∧
      world.rows = [markAttemptStarted "t2" (newRow hello "t1")] ∧ world.drains "s1" = none ∧
      world.content "s1" = hello.line.take 2 := by
  refine ⟨_, .cons (.commit (List.forall_mem_nil _)) <|
      .cons (.start (by decide) rfl) <|
      .cons (.attempt (drains_setDrain _ _ _) rfl) <|
      .cons .crash <| .nil _,
    rfl, rfl, ?_⟩
  rw [content_crash (drains_setDrain _ _ _) rfl rfl]
  rfl

/-- The next drain does not find the event, and appends it behind what the file has. -/
theorem hello_again {world : World .digits}
    (hrows : world.rows = [markAttemptStarted "t2" (newRow hello "t1")])
    (hdrain : world.drains "s1" = none)
    (hlost : findEventOffset .digits (world.content "s1") "e1" = none) :
    ∃ world', Run (Step .binary) world [.start "s1" none 1, .search "s1", .attempt "s1" "t3",
      .append "s1", .mark "s1" "t4"] world' ∧
      (∃ row ∈ world'.rows, row.deliveredAt.isSome = true ∧ row.sessionId = "s1") ∧
      world'.content "s1" = world.content "s1" ++ hello.line := by
  obtain ⟨rows, files, drains⟩ := world
  obtain rfl : rows = [markAttemptStarted "t2" (newRow hello "t1")] := hrows
  have hsearch : afterSearch (markAttemptStarted "t2" (newRow hello "t1"))
      ((files "s1").getD []) = .attempt (markAttemptStarted "t2" (newRow hello "t1")) :=
    afterSearch_eq_attempt hlost
  refine ⟨_, .cons (.start (by decide) hdrain) <|
      .cons (.search (drains_setDrain _ _ _) rfl) <|
      .cons (.attempt (drains_setDrain _ _ _) hsearch) <|
      .cons (.append (drains_setDrain _ _ _) rfl) <|
      .cons (.mark (drains_setDrain _ _ _) rfl) <| .nil _,
    ⟨_, List.mem_cons_self, rfl, rfl⟩, ?_⟩
  rw [content_setDrain, content_updateRow, content_setDrain, content_land, content_setDrain,
    content_updateRow, content_setDrain, content_setDrain]
  · rfl
  · rfl

/-- A line that begins with two bytes of another one is put aside. -/
theorem readLine_torn : readLine .digits ('\x7b' :: '"' :: hello.text) = none := by
  have hlast : hello.text.getLast? = some '\x7d' := by decide +kernel
  have htrim : trim (String.ofList ('\x7b' :: '"' :: hello.text)) =
      String.ofList ('\x7b' :: '"' :: hello.text) := by
    apply @trim_eq_self _ '\x7b' '\x7d'
    · rw [String.toList_ofList]
      rfl
    · decide
    · rw [String.toList_ofList, List.getLast?_cons, List.getLast?_cons, hlast]
      rfl
    · decide
  have hopen : Policy.QuoteState.outside.after ('\x7b' :: '"' :: hello.text) ≠ .outside := by
    decide +kernel
  rw [readLine, htrim, parseObject, Policy.jsonParse_eq_none hopen]
  split_ifs <;> rfl

theorem read_torn : read .digits (hello.line.take 2 ++ hello.line) = [] := by
  have hbytes : hello.line.take 2 ++ hello.line =
      utf8Encode (('\x7b' :: '"' :: hello.text) ++ '\n' :: []) := by
    have hfront : hello.line.take 2 = utf8Encode ['\x7b', '"'] := by decide +kernel
    rw [hfront, TranscriptEvent.line, utf8Encode, utf8Encode, ← List.flatMap_append]
    rfl
  have hfresh : '\n' ∉ '\x7b' :: '"' :: hello.text := by decide +kernel
  rw [read, hbytes, utf8Decode_encode, List.splitOn_append_cons_self,
    List.splitOn_eq_singleton hfresh, List.singleton_append, List.filterMap_cons, readLine_torn]
  rfl

/-- The message is marked, and the log does not read it. -/
theorem torn_line_unread : ¬ ∀ (labels : List (Label .digits)) (world : World .digits),
    Run (Step .binary) World.empty labels world → ExactlyOnce .binary world := by
  intro hclaim
  obtain ⟨torn, hfirst, hrows, hdrain, hcontent⟩ := hello_torn
  have hlost : findEventOffset .digits (torn.content "s1") "e1" = none := by
    rw [hcontent]
    decide +kernel
  obtain ⟨world, hagain, ⟨row, hrow, hmarked, hsession⟩, hlines⟩ :=
    hello_again hrows hdrain hlost
  have honce := (hclaim _ world (hfirst.append hagain)).once row hrow hmarked
  rw [hsession, World.transcript, hlines, hcontent, read_torn] at honce
  cases honce

end Torn

end GoatCitadel.Storage.Transcripts
