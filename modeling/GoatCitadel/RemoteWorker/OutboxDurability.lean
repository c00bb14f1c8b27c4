import GoatCitadel.RemoteWorker.OutboxTexts
import Mathlib.Data.List.Infix

/-!
# The outbox loses nothing

The durable text is the snapshot of a log that only grows and of a watermark that only goes
up.  Memory is that snapshot too, or the one before it while a write that took effect is not
answered, so whatever the outbox returns or shows is an entry of the log.
-/

namespace GoatCitadel.RemoteWorker

open GoatCitadel.Support
open GoatCitadel.Policy (Readable SameJson jsonParse_canonicalJsonString restored)

/-! ## The log -/

/-- The chain of the events that were enqueued. -/
def outboxChain (runtime : OutboxRuntime) (events : List TranscriptEvent) : List OutboxEntry :=
  entriesFrom runtime genesisHash 1 (events.map TranscriptEvent.detached)

def outboxHash (runtime : OutboxRuntime) (events : List TranscriptEvent) : String :=
  hashFrom runtime genesisHash 1 (events.map TranscriptEvent.detached)

/-- The snapshot of a log and a watermark. -/
def snapshotOf (runtime : OutboxRuntime) (assignmentId : String) (events : List TranscriptEvent)
    (acked : Nat) : OutboxSnapshot where
  assignmentId := assignmentId
  ackWatermark := acked
  headSequence := events.length
  headHash := outboxHash runtime events
  entries := (outboxChain runtime events).drop acked

/-- The outbox in memory is the one of a log and a watermark. -/
structure TranscriptOutbox.Mirrors (runtime : OutboxRuntime) (assignmentId : String)
    (events : List TranscriptEvent) (acked : Nat) (outbox : TranscriptOutbox) : Prop where
  assignmentId : outbox.assignmentId = assignmentId
  ackWatermark : outbox.ackWatermarkValue = acked
  headSequence : outbox.headSequenceValue = events.length
  headHash : outbox.headHashValue = outboxHash runtime events
  entries : outbox.entries = (outboxChain runtime events).drop acked

/-- The events of a log are well formed and can be counted. -/
structure LogReadable (runtime : OutboxRuntime) (events : List TranscriptEvent) (acked : Nat) :
    Prop where
  wellFormed : ∀ event ∈ events, event.WellFormed runtime.format
  acked_le : acked ≤ events.length
  safe : events.length ≤ maxSafeInteger

section Log

variable {runtime : OutboxRuntime} {assignmentId : String} {events : List TranscriptEvent}
  {acked : Nat} {outbox : TranscriptOutbox}

theorem isSha256Hex_genesisHash : isSha256Hex genesisHash = true := by decide +kernel

theorem LogReadable.detached (h : LogReadable runtime events acked) :
    Detached runtime.format (events.map TranscriptEvent.detached) := by
  intro event hevent
  obtain ⟨raw, hraw, rfl⟩ := List.mem_map.mp hevent
  have hwell := h.wellFormed raw hraw
  exact ⟨hwell.detached, hwell.detached_detached⟩

theorem length_outboxChain : (outboxChain runtime events).length = events.length := by
  rw [outboxChain, entriesFrom, length_chainFrom, List.length_map]

/-- What is appended leaves the entries before it as they are. -/
theorem outboxChain_append_singleton (event : TranscriptEvent) :
    outboxChain runtime (events ++ [event]) = outboxChain runtime events ++
      [⟨events.length + 1, outboxHash runtime events,
        hashEntry runtime (outboxHash runtime events) (events.length + 1) event.detached,
        event.detached⟩] := by
  unfold outboxChain outboxHash entriesFrom hashFrom hashEntry
  rw [List.map_append, chainFrom_append, List.length_map, Nat.add_comm 1]
  rfl

theorem outboxHash_append_singleton (event : TranscriptEvent) :
    outboxHash runtime (events ++ [event]) =
      hashEntry runtime (outboxHash runtime events) (events.length + 1) event.detached := by
  unfold outboxHash hashFrom hashEntry
  rw [List.map_append, chainHead_append, List.length_map, Nat.add_comm 1]
  rfl

theorem outboxChain_extends {more : List TranscriptEvent} (h : events <+: more) :
    outboxChain runtime events <+: outboxChain runtime more := by
  obtain ⟨rest, rfl⟩ := h
  unfold outboxChain entriesFrom
  rw [List.map_append, chainFrom_append]
  exact List.prefix_append _ _

/-- The snapshot of a log, from the events that it keeps. -/
theorem snapshotOf_eq_snapshotFrom (h : acked ≤ events.length) :
    snapshotOf runtime assignmentId events acked =
      snapshotFrom runtime assignmentId (outboxHash runtime (events.take acked)) acked
        ((events.map TranscriptEvent.detached).drop acked) := by
  unfold snapshotOf snapshotFrom
  congr 1
  · rw [List.length_drop, List.length_map]
    omega
  · have hsplit := List.take_append_drop acked (events.map TranscriptEvent.detached)
    have htake : ((events.map TranscriptEvent.detached).take acked).length = acked := by
      rw [List.length_take, List.length_map, Nat.min_eq_left h]
    unfold outboxHash hashFrom
    rw [← hsplit, chainHead_append, htake, List.map_take, Nat.add_comm 1, hsplit]
  · unfold outboxChain outboxHash entriesFrom hashFrom
    rw [drop_chainFrom, List.map_take, Nat.add_comm 1]

/-- The text of a snapshot is read back as the snapshot. -/
theorem openOutbox_snapshotOf {address : OutboxAddress} {maxUnacked : Option Number}
    {window : Nat} (h : LogReadable runtime events acked)
    (hwindow : asMaxUnacked maxUnacked = .ok window)
    (hkey : checkStateKey runtime address = .ok ()) :
    ∃ outbox, openOutbox runtime address maxUnacked
        (some (snapshotOf runtime address.assignmentId events acked).text) = .ok outbox ∧
      outbox.Mirrors runtime address.assignmentId events acked := by
  have hhash : isSha256Hex (outboxHash runtime (events.take acked)) = true :=
    isSha256Hex_hashFrom isSha256Hex_genesisHash
  have hkept : Detached runtime.format ((events.map TranscriptEvent.detached).drop acked) :=
    fun event hevent => h.detached event (List.mem_of_mem_drop hevent)
  have hsafe : acked + ((events.map TranscriptEvent.detached).drop acked).length ≤
      maxSafeInteger := by
    have hle := h.acked_le
    have hlimit := h.safe
    rw [List.length_drop, List.length_map]
    omega
  have hread := @normalizeSnapshot_restored runtime _ _ acked address.assignmentId hhash hkept hsafe
  have hparse := jsonParse_canonicalJsonString
    (@snapshotFrom_readable runtime _ _ acked address.assignmentId hhash hkept hsafe)
  rw [← snapshotOf_eq_snapshotFrom h.acked_le] at hread hparse
  refine ⟨⟨window, address.assignmentId, acked, events.length, outboxHash runtime events,
    (outboxChain runtime events).drop acked⟩, ?_, ?_⟩
  · simp only [openOutbox, OutboxSnapshot.text, hwindow, hkey, hparse, hread, bind, Except.bind]
    rfl
  · exact ⟨rfl, rfl, rfl, rfl, rfl⟩

/-- An outbox without a text is the one of the empty log. -/
theorem openOutbox_none {address : OutboxAddress} {maxUnacked : Option Number}
    (h : openOutbox runtime address maxUnacked none = .ok outbox) :
    outbox.Mirrors runtime address.assignmentId [] 0 := by
  obtain ⟨window, -, h⟩ := bind_eq_ok.mp h
  obtain ⟨_, -, h⟩ := bind_eq_ok.mp h
  rw [← Except.ok.inj h]
  exact ⟨rfl, rfl, rfl, rfl, rfl⟩

/-- What is kept of the entries when more is acknowledged. -/
theorem filter_drop_outboxChain {through : Nat} (h : acked ≤ through) :
    ((outboxChain runtime events).drop acked).filter (fun entry => through < entry.sequence) =
      (outboxChain runtime events).drop through := by
  obtain ⟨more, rfl⟩ := Nat.exists_eq_add_of_le h
  rw [← List.drop_drop]
  unfold outboxChain entriesFrom
  rw [drop_chainFrom, ← filter_chainFrom]
  apply List.filter_congr
  intro entry _
  rw [decide_eq_decide]
  omega

/-- What an outbox shows is what the log has after the watermark. -/
theorem TranscriptOutbox.Mirrors.pending_eq (h : outbox.Mirrors runtime assignmentId events acked) :
    outbox.pending = (outboxChain runtime events).drop acked := by
  unfold TranscriptOutbox.pending
  rw [h.entries, h.ackWatermark]
  exact filter_drop_outboxChain le_rfl

/-! ## Writes -/

/-- A write is the snapshot of what it makes of a log and a watermark. -/
structure OutboxWrite.Extends (runtime : OutboxRuntime) (assignmentId : String)
    (events : List TranscriptEvent) (acked : Nat) (write : OutboxWrite) : Prop where
  snapshot : write.snapshot = snapshotOf runtime assignmentId
    (events ++ (write.enqueued.map Prod.fst).toList) write.snapshot.ackWatermark
  acked_le : acked ≤ write.snapshot.ackWatermark
  readable : LogReadable runtime (events ++ (write.enqueued.map Prod.fst).toList)
    write.snapshot.ackWatermark
  entry : ∀ pair, write.enqueued = some pair →
    pair.2 ∈ outboxChain runtime (events ++ [pair.1])

/-- An entry that is enqueued continues the log, and the window has a place for it. -/
theorem enqueue_eq_ok {event : TranscriptEvent} {entry : OutboxEntry} {snapshot : OutboxSnapshot}
    (hlog : LogReadable runtime events acked)
    (hmirrors : outbox.Mirrors runtime assignmentId events acked)
    (hjson : Readable runtime.format event.payload)
    (h : outbox.enqueue runtime event = .ok (entry, snapshot)) (taken : Bool) :
    OutboxWrite.Extends runtime assignmentId events acked
        ⟨snapshot, some (event, entry), taken⟩ ∧
      snapshot.headSequence - snapshot.ackWatermark ≤ outbox.maxUnacked := by
  obtain ⟨normalized, hnormalized, h⟩ := bind_eq_ok.mp h
  obtain ⟨hwell, rfl⟩ := wellFormed_of_normalizeEvent hjson hnormalized
  obtain ⟨hwindow, h⟩ := guard_eq_ok.mp h
  obtain ⟨hlimit, h⟩ := guard_eq_ok.mp h
  obtain ⟨rfl, rfl⟩ := ok_pair_inj h
  have hhead := hmirrors.headSequence
  have hack := hmirrors.ackWatermark
  have hle := hlog.acked_le
  unfold TranscriptOutbox.unackedCount at hwindow
  constructor
  · refine ⟨?_, ?_, ?_, ?_⟩
    · have hlength : acked ≤ (outboxChain runtime events).length := by
        rw [length_outboxChain]
        exact hle
      change _ = snapshotOf runtime assignmentId (events ++ [event]) outbox.ackWatermarkValue
      unfold snapshotOf
      rw [outboxChain_append_singleton, outboxHash_append_singleton, hmirrors.assignmentId,
        hmirrors.headHash, hmirrors.entries, hhead, hack, List.drop_append_of_le_length hlength,
        List.length_append]
      rfl
    · exact hack.ge
    · change LogReadable runtime (events ++ [event]) outbox.ackWatermarkValue
      refine ⟨forall_mem_append_singleton hlog.wellFormed hwell, ?_, ?_⟩
      · rw [List.length_append, hack]
        exact hle.trans (Nat.le_add_right _ _)
      · rw [List.length_append, List.length_singleton]
        omega
    · intro pair hpair
      obtain rfl := Option.some.inj hpair
      rw [outboxChain_append_singleton, ← hmirrors.headHash, ← hhead]
      exact List.mem_append_right _ List.mem_cons_self
  · change outbox.headSequenceValue + 1 - outbox.ackWatermarkValue ≤ outbox.maxUnacked
    omega

/-- What is acknowledged is between the watermark and the head. -/
theorem acknowledge_eq_ok {throughSequence : Number} {snapshot : OutboxSnapshot}
    (hlog : LogReadable runtime events acked)
    (hmirrors : outbox.Mirrors runtime assignmentId events acked)
    (h : outbox.acknowledge throughSequence = .ok (some snapshot)) (taken : Bool) :
    OutboxWrite.Extends runtime assignmentId events acked ⟨snapshot, none, taken⟩ := by
  obtain ⟨through, -, h⟩ := bind_eq_ok.mp h
  obtain ⟨hhead, h⟩ := guard_eq_ok.mp h
  rw [hmirrors.headSequence] at hhead
  by_cases hdone : through ≤ outbox.ackWatermarkValue
  · rw [if_pos hdone] at h
    cases Except.ok.inj h
  · rw [if_neg hdone] at h
    obtain rfl := Option.some.inj (Except.ok.inj h)
    have hack := hmirrors.ackWatermark
    refine ⟨?_, ?_, ?_, ?_⟩
    · change _ = snapshotOf runtime assignmentId (events ++ []) through
      have hkept : outbox.entries.filter (fun entry => through < entry.sequence) =
          (outboxChain runtime events).drop through := by
        rw [hmirrors.entries]
        exact filter_drop_outboxChain (by omega)
      unfold snapshotOf
      rw [List.append_nil, hkept, hmirrors.assignmentId, hmirrors.headHash,
        hmirrors.headSequence]
    · change acked ≤ through
      omega
    · change LogReadable runtime (events ++ []) through
      rw [List.append_nil]
      exact ⟨hlog.wellFormed, by omega, hlog.safe⟩
    · intro pair hpair
      cases hpair

end Log

/-! ## Runs -/

/-- What holds at every moment of a run. -/
structure Durable (runtime : OutboxRuntime) (address : OutboxAddress) (world : OutboxWorld) :
    Prop where
  log : LogReadable runtime world.enqueued world.acked
  stored : world.stored = some (snapshotOf runtime address.assignmentId world.enqueued
      world.acked).text ∨ world.stored = none ∧ world.enqueued = [] ∧ world.acked = 0
  key : world.stored ≠ none ∨ world.outbox ≠ none → checkStateKey runtime address = .ok ()
  idle : world.write = none → ∀ outbox, world.outbox = some outbox →
    outbox.Mirrors runtime address.assignmentId world.enqueued world.acked
  /-- A write that took effect has made the log what it is. -/
  writing : ∀ write, world.write = some write → ∃ outbox events acked,
    world.outbox = some outbox ∧ acked ≤ events.length ∧
      outbox.Mirrors runtime address.assignmentId events acked ∧
      write.Extends runtime address.assignmentId events acked ∧
      (write.enqueued.isSome = true →
        write.snapshot.headSequence - write.snapshot.ackWatermark ≤ outbox.maxUnacked) ∧
      (if write.taken = true then
        world.enqueued = events ++ (write.enqueued.map Prod.fst).toList ∧
          world.acked = write.snapshot.ackWatermark
      else world.enqueued = events ∧ world.acked = acked)

section Runs

variable {runtime : OutboxRuntime} {address : OutboxAddress} {world world' : OutboxWorld}
  {event : OutboxEvent} {outbox : TranscriptOutbox} {events : List TranscriptEvent}

theorem durable_initial : Durable runtime address .initial where
  log := ⟨fun _ hnone => absurd hnone List.not_mem_nil, le_rfl, Nat.zero_le _⟩
  stored := .inr ⟨rfl, rfl, rfl⟩
  key := by
    rintro (hstored | hopen)
    · exact absurd rfl hstored
    · exact absurd rfl hopen
  idle := by
    intro _ outbox hopen
    cases hopen
  writing := by
    intro write hwrite
    cases hwrite

/-- An outbox that is opened is the one of the log. -/
theorem Durable.mirrors_of_open (h : Durable runtime address world) {maxUnacked : Option Number}
    (hopen : openOutbox runtime address maxUnacked world.stored = .ok outbox) :
    outbox.Mirrors runtime address.assignmentId world.enqueued world.acked ∧
      checkStateKey runtime address = .ok () := by
  obtain ⟨window, hwindow, hrest⟩ := bind_eq_ok.mp hopen
  obtain ⟨_, hkey, -⟩ := bind_eq_ok.mp hrest
  refine ⟨?_, hkey⟩
  obtain hstored | ⟨hnone, henqueued, hacked⟩ := h.stored
  · obtain ⟨opened, hopened, hmirrors⟩ := openOutbox_snapshotOf h.log hwindow hkey
    rw [hstored, hopened] at hopen
    rw [← Except.ok.inj hopen]
    exact hmirrors
  · rw [hnone] at hopen
    rw [henqueued, hacked]
    exact openOutbox_none hopen

theorem durable_step (h : Durable runtime address world)
    (hstep : world.Step runtime address event world') : Durable runtime address world' := by
  cases hstep with
  | opens hidle hopen =>
      obtain ⟨hmirrors, hkey⟩ := h.mirrors_of_open hopen
      refine ⟨h.log, h.stored, fun _ => hkey, ?_, ?_⟩
      · intro _ outbox' heq
        obtain rfl := Option.some.inj heq
        exact hmirrors
      · intro write hwrite
        rw [show _ = none from hidle] at hwrite
        cases hwrite
  | @enqueue _ outbox entry snapshot hjson hidle hopen henqueue =>
      have hmirrors := h.idle hidle outbox hopen
      obtain ⟨hextends, hbound⟩ := enqueue_eq_ok h.log hmirrors hjson henqueue false
      refine ⟨h.log, h.stored, h.key, fun hnone => ?_, ?_⟩
      · cases hnone
      · intro write hwrite
        obtain rfl := Option.some.inj hwrite
        exact ⟨outbox, _, _, hopen, h.log.acked_le, hmirrors, hextends, fun _ => hbound, rfl, rfl⟩
  | @acknowledge throughSequence outbox snapshot hidle hopen hacknowledge =>
      have hmirrors := h.idle hidle outbox hopen
      have hextends := acknowledge_eq_ok h.log hmirrors hacknowledge false
      refine ⟨h.log, h.stored, h.key, fun hnone => ?_, ?_⟩
      · cases hnone
      · intro write hwrite
        obtain rfl := Option.some.inj hwrite
        exact ⟨outbox, _, _, hopen, h.log.acked_le, hmirrors, hextends,
          fun hsome => (by cases hsome), rfl, rfl⟩
  | @writeFails write hwrite htaken =>
      obtain ⟨outbox, events, acked, hopen, -, hmirrors, -, -, hlog⟩ := h.writing write hwrite
      rw [if_neg (by rw [htaken]; exact Bool.false_ne_true)] at hlog
      refine ⟨h.log, h.stored, h.key, ?_, fun write' hwrite' => ?_⟩
      · intro _ outbox' hopen'
        obtain rfl := Option.some.inj (hopen.symm.trans hopen')
        rw [hlog.1, hlog.2]
        exact hmirrors
      · cases hwrite'
  | @writeTakes write hwrite htaken =>
      obtain ⟨outbox, events, acked, hopen, hle, hmirrors, hextends, hbound, hlog⟩ :=
        h.writing write hwrite
      rw [if_neg (by rw [htaken]; exact Bool.false_ne_true)] at hlog
      obtain ⟨rfl, rfl⟩ := hlog
      refine ⟨hextends.readable, .inl ?_, fun _ => h.key (.inr ?_), fun hnone => ?_, ?_⟩
      · rw [← hextends.snapshot]
      · rw [hopen]
        exact Option.some_ne_none _
      · cases hnone
      · intro write' hwrite'
        obtain rfl := Option.some.inj hwrite'
        refine ⟨outbox, _, _, hopen, hle, hmirrors, ⟨hextends.snapshot, hextends.acked_le,
          hextends.readable, hextends.entry⟩, hbound, rfl, rfl⟩
  | @returns outbox write hopen hwrite htaken =>
      obtain ⟨outbox', events, acked, hopen', -, hmirrors, hextends, -, hlog⟩ :=
        h.writing write hwrite
      rw [if_pos htaken] at hlog
      refine ⟨h.log, h.stored, fun _ => h.key (.inr ?_), ?_, fun write' hwrite' => ?_⟩
      · rw [hopen]
        exact Option.some_ne_none _
      · intro _ adopted hadopted
        obtain rfl := Option.some.inj hadopted
        obtain rfl := Option.some.inj (hopen.symm.trans hopen')
        rw [hlog.1, hlog.2, hextends.snapshot]
        exact ⟨hmirrors.assignmentId, rfl, rfl, rfl, rfl⟩
      · cases hwrite'
  | crashes =>
      refine ⟨h.log, h.stored, ?_, ?_, fun write hwrite => ?_⟩
      · rintro (hstored | hopen)
        · exact h.key (.inl hstored)
        · exact absurd rfl hopen
      · intro _ outbox hopen
        cases hopen
      · cases hwrite
  | shows hopen => exact h

/-- At every moment memory is the outbox of a part of the log. -/
structure Viewed (runtime : OutboxRuntime) (address : OutboxAddress) (world : OutboxWorld)
    (outbox : TranscriptOutbox) : Prop where
  mirrors : outbox.Mirrors runtime address.assignmentId
    (world.enqueued.take outbox.headSequenceValue) outbox.ackWatermarkValue
  head_le : outbox.headSequenceValue ≤ world.enqueued.length
  ack_le_head : outbox.ackWatermarkValue ≤ outbox.headSequenceValue
  ack_le : outbox.ackWatermarkValue ≤ world.acked

theorem viewed_of_mirrors {acked : Nat}
    (h : outbox.Mirrors runtime address.assignmentId events acked) (hle : acked ≤ events.length)
    (hevents : events <+: world.enqueued) (hacked : acked ≤ world.acked) :
    Viewed runtime address world outbox := by
  obtain ⟨rest, hrest⟩ := hevents
  refine ⟨?_, ?_, ?_, ?_⟩
  · rw [← hrest, h.headSequence, List.take_left, h.ackWatermark]
    exact h
  · rw [← hrest, h.headSequence, List.length_append]
    exact Nat.le_add_right _ _
  · rw [h.ackWatermark, h.headSequence]
    exact hle
  · rw [h.ackWatermark]
    exact hacked

theorem Durable.viewed (h : Durable runtime address world) (hopen : world.outbox = some outbox) :
    Viewed runtime address world outbox := by
  by_cases hidle : world.write = none
  · exact viewed_of_mirrors (h.idle hidle outbox hopen) h.log.acked_le List.prefix_rfl le_rfl
  · obtain ⟨write, hwrite⟩ := Option.ne_none_iff_exists'.mp hidle
    obtain ⟨outbox', events, acked, hopen', hle, hmirrors, hextends, -, hlog⟩ :=
      h.writing write hwrite
    obtain rfl := Option.some.inj (hopen.symm.trans hopen')
    by_cases htaken : write.taken = true
    · rw [if_pos htaken] at hlog
      refine viewed_of_mirrors hmirrors hle ?_ ?_
      · rw [hlog.1]
        exact List.prefix_append _ _
      · rw [hlog.2]
        exact hextends.acked_le
    · rw [if_neg htaken] at hlog
      refine viewed_of_mirrors hmirrors hle ?_ hlog.2.ge
      rw [hlog.1]

/-- The log only grows, and the watermark only goes up. -/
theorem grows_of_step (h : Durable runtime address world)
    (hstep : world.Step runtime address event world') :
    world.enqueued <+: world'.enqueued ∧ world.acked ≤ world'.acked := by
  cases hstep with
  | @writeTakes write hwrite htaken =>
      obtain ⟨outbox, events, acked, -, -, -, hextends, -, hlog⟩ := h.writing write hwrite
      rw [if_neg (by rw [htaken]; exact Bool.false_ne_true)] at hlog
      refine ⟨List.prefix_append _ _, ?_⟩
      rw [hlog.2]
      exact hextends.acked_le
  | _ => exact ⟨List.prefix_rfl, le_rfl⟩

/-- The entries that an event returns or shows. -/
def OutboxEvent.entries : OutboxEvent → List OutboxEntry
  | .returns entry => entry.toList
  | .shows entries => entries
  | _ => []

/-- What is returned or shown is in the log. -/
theorem entries_of_step (h : Durable runtime address world)
    (hstep : world.Step runtime address event world') :
    ∀ entry ∈ event.entries, entry ∈ outboxChain runtime world'.enqueued := by
  cases hstep with
  | @returns outbox write hopen hwrite htaken =>
      obtain ⟨outbox', events, acked, -, -, -, hextends, -, hlog⟩ := h.writing write hwrite
      rw [if_pos htaken] at hlog
      intro entry hentry
      obtain ⟨pair, hpair, rfl⟩ := Option.map_eq_some_iff.mp (Option.mem_toList.mp hentry)
      have hmem := hextends.entry pair hpair
      rw [hpair] at hlog
      change _ ∈ outboxChain runtime world.enqueued
      rw [hlog.1]
      exact hmem
  | @shows outbox hopen =>
      have hviewed := h.viewed hopen
      intro entry hentry
      change entry ∈ outbox.pending at hentry
      rw [hviewed.mirrors.pending_eq] at hentry
      exact (outboxChain_extends (List.take_prefix _ _)).subset (List.mem_of_mem_drop hentry)
  | _ => exact fun entry hentry => absurd hentry List.not_mem_nil

/-- The watermark in memory does not go back, and neither does one that is read again. -/
def Reached (floor : Nat) (world : OutboxWorld) : Prop :=
  floor ≤ world.acked ∧ ∀ outbox, world.outbox = some outbox → floor ≤ outbox.ackWatermarkValue

theorem reached_step {floor : Nat} (h : Durable runtime address world)
    (hreached : Reached floor world) (hstep : world.Step runtime address event world') :
    Reached floor world' := by
  have hgrown := (grows_of_step h hstep).2
  refine ⟨hreached.1.trans hgrown, ?_⟩
  cases hstep with
  | opens hidle hopen =>
      intro outbox heq
      obtain rfl := Option.some.inj heq
      rw [(h.mirrors_of_open hopen).1.ackWatermark]
      exact hreached.1
  | @returns outbox write hopen hwrite htaken =>
      obtain ⟨outbox', events, acked, -, -, -, -, -, hlog⟩ := h.writing write hwrite
      rw [if_pos htaken] at hlog
      intro adopted hadopted
      obtain rfl := Option.some.inj hadopted
      change floor ≤ write.snapshot.ackWatermark
      rw [← hlog.2]
      exact hreached.1
  | crashes =>
      intro outbox hopen
      cases hopen
  | _ => exact hreached.2

/-! ## Replays -/

theorem replayHash_eq_ok {hash hash' : String} {sequence : Nat}
    (hjson : ∀ event ∈ events, Readable runtime.format event.payload) :
    replayHash runtime hash sequence events = .ok hash' ↔
      (∀ event ∈ events, event.WellFormed runtime.format) ∧
        hash' = hashFrom runtime hash sequence (events.map TranscriptEvent.detached) := by
  induction events generalizing hash sequence with
  | nil =>
      constructor
      · intro h
        exact ⟨fun _ hnone => absurd hnone List.not_mem_nil, (Except.ok.inj h).symm⟩
      · rintro ⟨-, rfl⟩
        rfl
  | cons event events ih =>
      obtain ⟨hfirst, hrest⟩ := List.forall_mem_cons.mp hjson
      rw [List.forall_mem_cons, replayHash]
      constructor
      · intro h
        obtain ⟨normalized, hnormalized, h⟩ := bind_eq_ok.mp h
        obtain ⟨hwell, rfl⟩ := wellFormed_of_normalizeEvent hfirst hnormalized
        obtain ⟨hmore, rfl⟩ := (ih hrest).mp h
        exact ⟨⟨hwell, hmore⟩, rfl⟩
      · rintro ⟨⟨hwell, hmore⟩, rfl⟩
        rw [normalizeEvent_toJson hwell]
        exact (ih hrest).mpr ⟨hmore, rfl⟩

theorem assertReplayPrefix_eq_ok {replayed : List TranscriptEvent}
    (hjson : ∀ event ∈ replayed, Readable runtime.format event.payload) :
    outbox.assertReplayPrefix runtime replayed = .ok () ↔
      outbox.headSequenceValue ≤ replayed.length ∧
        (∀ event ∈ replayed.take outbox.headSequenceValue, event.WellFormed runtime.format) ∧
          outboxHash runtime (replayed.take outbox.headSequenceValue) = outbox.headHashValue := by
  have htaken : ∀ event ∈ replayed.take outbox.headSequenceValue,
      Readable runtime.format event.payload :=
    fun event hevent => hjson event (List.mem_of_mem_take hevent)
  unfold TranscriptOutbox.assertReplayPrefix
  constructor
  · intro h
    obtain ⟨hlength, h⟩ := guard_eq_ok.mp h
    obtain ⟨hash, hhash, h⟩ := bind_eq_ok.mp h
    obtain ⟨hwell, rfl⟩ := (replayHash_eq_ok htaken).mp hhash
    split at h
    · cases h
    · rename_i hsame
      exact ⟨Nat.not_lt.mp hlength, hwell, Decidable.not_not.mp hsame⟩
  · rintro ⟨hlength, hwell, hsame⟩
    rw [if_neg (Nat.not_lt.mpr hlength), (replayHash_eq_ok htaken).mpr ⟨hwell, rfl⟩]
    exact if_neg fun hdiffers => hdiffers hsame

/-- Events that are equal as JSON values are detached alike. -/
theorem map_detached_eq {events' : List TranscriptEvent}
    (hjson : ∀ event ∈ events, Readable runtime.format event.payload)
    (hwell : ∀ event ∈ events', event.WellFormed runtime.format)
    (h : List.Forall₂ SameEvent events events') :
    (∀ event ∈ events, event.WellFormed runtime.format) ∧
      events.map TranscriptEvent.detached = events'.map TranscriptEvent.detached := by
  induction h with
  | nil => exact ⟨fun _ hnone => absurd hnone List.not_mem_nil, rfl⟩
  | @cons event event' events events' hsame _ ih =>
      obtain ⟨hfirst, hrest⟩ := List.forall_mem_cons.mp hjson
      obtain ⟨hfirst', hrest'⟩ := List.forall_mem_cons.mp hwell
      obtain ⟨hmore, htail⟩ := ih hrest hrest'
      have hevent : event.WellFormed runtime.format :=
        ⟨hsame.1 ▸ hfirst'.kind_pos, hsame.1 ▸ hfirst'.kind_le, hfirst⟩
      refine ⟨List.forall_mem_cons.mpr ⟨hevent, hmore⟩, ?_⟩
      rw [List.map_cons, List.map_cons, htail, (detached_eq_iff hevent hfirst').mpr hsame]

/-- What is equal once it is detached was equal before. -/
theorem sameEvent_of_detached {event event' : TranscriptEvent}
    (h : event.WellFormed runtime.format) (h' : event'.WellFormed runtime.format)
    (hsame : SameEvent event.detached event'.detached) : SameEvent event event' := by
  have hdetached := (detached_eq_iff h.detached h'.detached).mpr hsame
  rw [h.detached_detached, h'.detached_detached] at hdetached
  exact (detached_eq_iff h h').mp hdetached

/-- The texts that are hashed for the events of a log. -/
def logTexts (runtime : OutboxRuntime) (events : List TranscriptEvent) : List String :=
  chainTexts runtime.sha256 hashedText genesisHash 1 (events.map TranscriptEvent.detached)

/-- Logs of one length have one hash when their events are equal as JSON values, as far as
SHA-256 distinguishes their texts. -/
theorem outboxHash_eq_iff {events' : List TranscriptEvent}
    (hjson : ∀ event ∈ events, Readable runtime.format event.payload)
    (hwell' : ∀ event ∈ events', event.WellFormed runtime.format)
    (hlength : events.length = events'.length) (hsha : Set.InjOn runtime.sha256
      {text | text ∈ logTexts runtime events ∨ text ∈ logTexts runtime events'}) :
    (∀ event ∈ events, event.WellFormed runtime.format) ∧
        outboxHash runtime events = outboxHash runtime events' ↔
      List.Forall₂ SameEvent events events' := by
  constructor
  · rintro ⟨hwell, hhash⟩
    have hlength' : (events.map TranscriptEvent.detached).length =
        (events'.map TranscriptEvent.detached).length := by
      rw [List.length_map, List.length_map, hlength]
    have htext : ∀ event ∈ events.map TranscriptEvent.detached,
        ∀ event' ∈ events'.map TranscriptEvent.detached, ∀ previous previous' number,
          hashedText previous number event = hashedText previous' number event' →
            previous = previous' ∧ SameEvent event event' := by
      intro event hevent event' hevent' previous previous' number heq
      obtain ⟨raw, hraw, rfl⟩ := List.mem_map.mp hevent
      obtain ⟨raw', hraw', rfl⟩ := List.mem_map.mp hevent'
      exact hashedText_cancel (hwell raw hraw).detached (hwell' raw' hraw').detached heq
    have hdetached := (forall₂_of_chainHead_eq hlength' htext hsha hhash).2
    rw [List.forall₂_map_left_iff, List.forall₂_map_right_iff, List.forall₂_iff_zip] at hdetached
    rw [List.forall₂_iff_zip]
    refine ⟨hlength, ?_⟩
    intro event event' hmem
    obtain ⟨hevent, hevent'⟩ := List.of_mem_zip hmem
    exact sameEvent_of_detached (hwell event hevent) (hwell' event' hevent') (hdetached.2 hmem)
  · intro hsame
    obtain ⟨hwell, hdetached⟩ := map_detached_eq hjson hwell' hsame
    refine ⟨hwell, ?_⟩
    unfold outboxHash
    rw [hdetached]

/-- A replay is accepted when it begins with the events that memory has. -/
theorem assertReplayPrefix_iff (h : Durable runtime address world)
    (hopen : world.outbox = some outbox) {replayed : List TranscriptEvent}
    (hjson : ∀ event ∈ replayed, Readable runtime.format event.payload)
    (hsha : Set.InjOn runtime.sha256
      {text | text ∈ logTexts runtime (replayed.take outbox.headSequenceValue) ∨
        text ∈ logTexts runtime (world.enqueued.take outbox.headSequenceValue)}) :
    outbox.assertReplayPrefix runtime replayed = .ok () ↔
      outbox.headSequenceValue ≤ replayed.length ∧
        List.Forall₂ SameEvent (replayed.take outbox.headSequenceValue)
          (world.enqueued.take outbox.headSequenceValue) := by
  have hviewed := h.viewed hopen
  have hhash := hviewed.mirrors.headHash
  rw [assertReplayPrefix_eq_ok hjson, hhash]
  apply and_congr_right
  intro hlength
  refine outboxHash_eq_iff (fun event hevent => hjson event (List.mem_of_mem_take hevent))
    (fun event hevent => h.log.wellFormed event (List.mem_of_mem_take hevent)) ?_ hsha
  rw [List.length_take, List.length_take, Nat.min_eq_left hlength,
    Nat.min_eq_left hviewed.head_le]

/-! ## What a worker relies on -/

/-- What holds of the outbox at a moment. -/
structure LosesNothing (runtime : OutboxRuntime) (address : OutboxAddress)
    (world : OutboxWorld) : Prop where
  /-- What is stored can be opened, and it is the whole log and the last watermark. -/
  opens : world.stored ≠ none → ∀ maxUnacked window, asMaxUnacked maxUnacked = .ok window →
    ∃ outbox, openOutbox runtime address maxUnacked world.stored = .ok outbox ∧
      outbox.Mirrors runtime address.assignmentId world.enqueued world.acked
  numbered : (outboxChain runtime world.enqueued).map ChainEntry.sequence =
    List.range' 1 world.enqueued.length
  chained : (outboxChain runtime world.enqueued).IsChain fun entry next =>
    next.sequence = entry.sequence + 1 ∧ next.previousHash = entry.entryHash
  hashed : ∀ entry ∈ outboxChain runtime world.enqueued,
    entry.entryHash = hashEntry runtime entry.previousHash entry.sequence entry.event
  pending : ∀ outbox, world.outbox = some outbox →
    outbox.pending = (outboxChain runtime (world.enqueued.take outbox.headSequenceValue)).drop
      outbox.ackWatermarkValue
  watermark : ∀ outbox, world.outbox = some outbox →
    outbox.ackWatermarkValue ≤ outbox.headSequenceValue ∧
      outbox.headSequenceValue ≤ world.enqueued.length
  /-- Memory is up to date when no write is awaited. -/
  idle : world.write = none → ∀ outbox, world.outbox = some outbox →
    outbox.headSequenceValue = world.enqueued.length ∧ outbox.ackWatermarkValue = world.acked
  bounded : ∀ outbox write, world.outbox = some outbox → world.write = some write →
    write.enqueued.isSome = true →
      write.snapshot.headSequence - write.snapshot.ackWatermark ≤ outbox.maxUnacked
  replays : ∀ outbox, world.outbox = some outbox → ∀ replayed : List TranscriptEvent,
    (∀ event ∈ replayed, Readable runtime.format event.payload) →
      Set.InjOn runtime.sha256
        {text | text ∈ logTexts runtime (replayed.take outbox.headSequenceValue) ∨
          text ∈ logTexts runtime (world.enqueued.take outbox.headSequenceValue)} →
        (outbox.assertReplayPrefix runtime replayed = .ok () ↔
          outbox.headSequenceValue ≤ replayed.length ∧
            List.Forall₂ SameEvent (replayed.take outbox.headSequenceValue)
              (world.enqueued.take outbox.headSequenceValue))

theorem Durable.losesNothing (h : Durable runtime address world) :
    LosesNothing runtime address world where
  opens := by
    intro hstored maxUnacked window hwindow
    obtain htext | ⟨hnone, -, -⟩ := h.stored
    · rw [htext]
      exact openOutbox_snapshotOf h.log hwindow (h.key (.inl hstored))
    · exact absurd hnone hstored
  numbered := by
    rw [outboxChain, entriesFrom, map_sequence_chainFrom, List.length_map]
  chained := isChain_chainFrom
  hashed := fun entry hentry => entryHash_of_mem_chainFrom hentry
  pending := fun outbox hopen => (h.viewed hopen).mirrors.pending_eq
  watermark := fun outbox hopen => ⟨(h.viewed hopen).ack_le_head, (h.viewed hopen).head_le⟩
  idle := by
    intro hidle outbox hopen
    have hmirrors := h.idle hidle outbox hopen
    exact ⟨hmirrors.headSequence, hmirrors.ackWatermark⟩
  bounded := by
    intro outbox write hopen hwrite henqueued
    obtain ⟨outbox', events, acked, hopen', -, -, -, hbound, -⟩ := h.writing write hwrite
    obtain rfl := Option.some.inj (hopen.symm.trans hopen')
    exact hbound henqueued
  replays := fun outbox hopen replayed hjson hsha => assertReplayPrefix_iff h hopen hjson hsha

theorem durable_run {events : List OutboxEvent} (h : Durable runtime address world)
    (hrun : Run (OutboxWorld.Step runtime address) world events world') :
    Durable runtime address world' :=
  hrun.invariant (fun _ _ _ hstep h => durable_step h hstep) h

/-- What a run returns or shows is in the log that it ends with. -/
theorem entries_of_run {events : List OutboxEvent} (h : Durable runtime address world)
    (hrun : Run (OutboxWorld.Step runtime address) world events world') :
    world.enqueued <+: world'.enqueued ∧ world.acked ≤ world'.acked ∧
      ∀ event ∈ events, ∀ entry ∈ event.entries, entry ∈ outboxChain runtime world'.enqueued := by
  induction hrun with
  | nil => exact ⟨List.prefix_rfl, le_rfl, fun _ hnone => absurd hnone List.not_mem_nil⟩
  | cons hstep hrest ih =>
      have hdurable := durable_step h hstep
      obtain ⟨hgrown, hacked⟩ := grows_of_step h hstep
      obtain ⟨hgrown', hacked', hentries⟩ := ih hdurable
      refine ⟨hgrown.trans hgrown', hacked.trans hacked', ?_⟩
      rw [List.forall_mem_cons]
      refine ⟨?_, hentries⟩
      intro entry hentry
      exact (outboxChain_extends hgrown').subset (entries_of_step h hstep entry hentry)

theorem reached_run {floor : Nat} {events : List OutboxEvent} (h : Durable runtime address world)
    (hreached : Reached floor world)
    (hrun : Run (OutboxWorld.Step runtime address) world events world') : Reached floor world' :=
  (hrun.invariant (I := fun world => Durable runtime address world ∧ Reached floor world)
    (fun _ _ _ hstep h => ⟨durable_step h.1 hstep, reached_step h.1 h.2 hstep⟩)
    ⟨h, hreached⟩).2

/-- In every run the outbox loses and rewrites nothing: its log only grows, its watermark
does not go back, and a number is the number of one entry for good. -/
theorem transcript_outbox_loses_nothing {before later : List OutboxEvent}
    (hbefore : Run (OutboxWorld.Step runtime address) .initial before world)
    (hlater : Run (OutboxWorld.Step runtime address) world later world') :
    LosesNothing runtime address world ∧ world.enqueued <+: world'.enqueued ∧
      world.acked ≤ world'.acked ∧
      (∀ outbox outbox', world.outbox = some outbox → world'.outbox = some outbox' →
        outbox.ackWatermarkValue ≤ outbox'.ackWatermarkValue) ∧
      ∀ event ∈ before ++ later, ∀ event' ∈ before ++ later,
        ∀ entry ∈ event.entries, ∀ entry' ∈ event'.entries,
          entry.sequence = entry'.sequence → entry = entry' := by
  have hdurable := durable_run durable_initial hbefore
  obtain ⟨hgrown, hacked, -⟩ := entries_of_run hdurable hlater
  refine ⟨hdurable.losesNothing, hgrown, hacked, ?_, ?_⟩
  · intro outbox outbox' hopen hopen'
    have hreached : Reached outbox.ackWatermarkValue world := by
      refine ⟨(hdurable.viewed hopen).ack_le, ?_⟩
      intro same hsame
      rw [Option.some.inj (hopen.symm.trans hsame)]
    exact (reached_run hdurable hreached hlater).2 outbox' hopen'
  · obtain ⟨-, -, hentries⟩ := entries_of_run durable_initial (hbefore.append hlater)
    intro event hevent event' hevent' entry hentry entry' hentry' hsequence
    exact eq_of_sequence_eq (hentries event hevent entry hentry)
      (hentries event' hevent' entry' hentry') hsequence

end Runs

/-! ## A crash after a write -/

def sampleEvent : TranscriptEvent := ⟨"note", .null⟩

/-- The digests of the assignment and of the first entry. -/
def outboxSha256 (text : String) : String :=
  if text = "assignment" then "ce7a7c10b0dfd96808cca64c88cf5c5e13b7775283bdc924767887bfa32c8fa1"
  else if text = "\x7b\"event\":\x7b\"kind\":\"note\",\"payload\":null\x7d,\"previousHash\":\"" ++
      genesisHash ++ "\",\"sequence\":1\x7d" then
    "48a5da640a0e2e4bdbcc572fb286b34ef33ffc694045c4fc2d637afeb11332e6"
  else genesisHash

def sampleOutboxRuntime : OutboxRuntime where
  format := .digits
  sha256 := outboxSha256
  sha256_hex text := by
    unfold outboxSha256
    split_ifs <;> decide +kernel

def sampleAddress : OutboxAddress := ⟨"assignment", none⟩

theorem sampleEvent_wellFormed : sampleEvent.WellFormed sampleOutboxRuntime.format where
  kind_pos := by decide +kernel
  kind_le := by decide +kernel
  payload := ⟨.null trivial, .null trivial⟩

/-- The outbox is opened, the write of an event takes effect, and the worker crashes. -/
def sampleOutboxRun : List OutboxEvent :=
  [.opens none, .enqueue sampleEvent, .writeTakes, .crashes]

def sampleOutboxWorld : OutboxWorld where
  stored := some (snapshotOf sampleOutboxRuntime "assignment" [sampleEvent] 0).text
  outbox := none
  write := none
  enqueued := [sampleEvent]
  acked := 0

theorem checkStateKey_sample : checkStateKey sampleOutboxRuntime sampleAddress = .ok () := by
  have hsafe : ¬isSafeKey (sampleAddress.stateKeyPrefix.getD "outbox" ++ "-" ++
      "ce7a7c10b0dfd96808cca64c88cf5c5e") = false := by
    decide +kernel
  have hsegment : assignmentKeySegment sampleOutboxRuntime "assignment" =
      .ok "ce7a7c10b0dfd96808cca64c88cf5c5e" := rfl
  unfold checkStateKey
  rw [show sampleAddress.assignmentId = "assignment" from rfl, hsegment]
  simp only [bind, Except.bind]
  rw [if_neg hsafe]
  rfl

theorem run_sampleOutboxRun :
    Run (OutboxWorld.Step sampleOutboxRuntime sampleAddress) .initial sampleOutboxRun
      sampleOutboxWorld := by
  have hopen : openOutbox sampleOutboxRuntime sampleAddress none none =
      .ok ⟨256, "assignment", 0, 0, genesisHash, []⟩ := by
    unfold openOutbox
    rw [checkStateKey_sample]
    rfl
  have henqueue : TranscriptOutbox.enqueue sampleOutboxRuntime sampleEvent
      ⟨256, "assignment", 0, 0, genesisHash, []⟩ =
        .ok (⟨1, genesisHash, hashEntry sampleOutboxRuntime genesisHash 1 sampleEvent, sampleEvent⟩,
          snapshotOf sampleOutboxRuntime "assignment" [sampleEvent] 0) := by
    unfold TranscriptOutbox.enqueue
    rw [normalizeEvent_toJson sampleEvent_wellFormed]
    rfl
  refine .cons (.opens rfl hopen) (.cons (.enqueue sampleEvent_wellFormed.payload rfl rfl henqueue)
    (.cons (.writeTakes rfl rfl) (.single .crashes)))

/-- The event is there when the outbox is opened again. -/
theorem reopened_outbox_has_event :
    ∃ outbox, openOutbox sampleOutboxRuntime sampleAddress none sampleOutboxWorld.stored =
        .ok outbox ∧
      outbox.headSequenceValue = 1 := by
  obtain ⟨outbox, hopen, hmirrors⟩ := (transcript_outbox_loses_nothing run_sampleOutboxRun
    (.nil _)).1.opens (Option.some_ne_none _) none 256 rfl
  exact ⟨outbox, hopen, hmirrors.headSequence⟩

end GoatCitadel.RemoteWorker
