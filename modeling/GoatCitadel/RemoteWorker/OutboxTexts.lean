import GoatCitadel.RemoteWorker.TranscriptOutbox
import GoatCitadel.Support.Table

/-!
# The texts of the outbox

What the outbox writes it reads back: a chain of entries whose payloads were detached, its
watermark and its head.  The text that an entry hashes tells the hash before it and its
event, up to the order of members.
-/

namespace GoatCitadel.RemoteWorker

open GoatCitadel.Support
open GoatCitadel.Policy (DistinctKeys JsonObject JsonValue NumberFormat Readable Reads SameJson
  canonicalJsonString canonicalJsonString_eq_iff canonicalJsonString_restored
  canonical_sortByKey jsonParse jsonParse_canonicalJsonString keys_rearranged normalizeKeys
  ownOrder ownOrder_perm readable_array readable_object readable_restored readable_string rearrange
  rearrange_array rearrange_object restored restored_restored sameJson_restored sortByKey)

/-! ## Restored values -/

section Restored

theorem restored_eq (value : JsonValue) :
    restored value = rearrange ownOrder (rearrange sortByKey value) :=
  rfl

theorem restored_array (items : List JsonValue) :
    restored (.array items) = .array (items.map restored) := by
  rw [restored_eq, rearrange_array, rearrange_array, List.map_map]
  rfl

/-- The members of a restored object are the restored members, in some order. -/
theorem restored_object (fields : JsonObject) :
    ∃ fields', restored (.object fields) = .object fields' ∧
      fields'.Perm (fields.map fun field => (field.1, restored field.2)) := by
  rw [restored_eq, rearrange_object, rearrange_object]
  refine ⟨_, rfl, (ownOrder_perm _).trans ?_⟩
  refine ((canonical_sortByKey.perm _).map _).trans ?_
  rw [List.map_map]
  apply List.Perm.of_eq
  apply List.map_congr_left
  intro field _
  rw [Function.comp_apply, restored_eq]

theorem readMember_eq_some_iff {key : String} {fields : JsonObject} {value : JsonValue}
    (h : (fields.map Prod.fst).Nodup) :
    readMember key fields = some value ↔ (key, value) ∈ fields := by
  unfold readMember
  constructor
  · intro hread
    obtain ⟨field, hfield, rfl⟩ := Option.map_eq_some_iff.mp hread
    obtain ⟨hmem, rfl⟩ := mem_of_find?_key hfield
    exact hmem
  · intro hmem
    rw [show fields.find? (fun field => field.1 = key) = some (key, value) from
      find?_key_of_mem h hmem]
    rfl

/-- The member of a restored object is the restored member. -/
theorem readMember_restored {fields fields' : JsonObject} (h : (fields.map Prod.fst).Nodup)
    (hrestored : fields'.Perm (fields.map fun field => (field.1, restored field.2)))
    (key : String) : readMember key fields' = (readMember key fields).map restored := by
  have hkeys : (fields'.map Prod.fst).Nodup := by
    rw [(hrestored.map Prod.fst).nodup_iff, List.map_map]
    exact h
  apply Option.ext
  intro value
  rw [readMember_eq_some_iff hkeys, hrestored.mem_iff, List.mem_map, Option.map_eq_some_iff]
  constructor
  · rintro ⟨field, hfield, heq⟩
    obtain ⟨rfl, rfl⟩ := Prod.mk.inj heq
    exact ⟨field.2, (readMember_eq_some_iff h).mpr hfield, rfl⟩
  · rintro ⟨value, hvalue, rfl⟩
    exact ⟨(key, value), (readMember_eq_some_iff h).mp hvalue, rfl⟩

variable {format : NumberFormat}

theorem printsNumerals_countJson (count : Nat) : (countJson count).PrintsNumerals := by
  constructor
  · rw [Nat.toString_eq_repr, Nat.toList_repr]
    exact Nat.toDigits_ne_nil
  · intro c hc
    unfold JsonValue.isNumeralChar
    rw [isDigit_of_mem_toString hc]
    rfl

theorem readable_countJson {count : Nat} (h : count ≤ maxSafeInteger) :
    Readable format (countJson count) :=
  ⟨.number trivial, .number ⟨printsNumerals_countJson count, format.read_nat count h⟩⟩

end Restored

/-! ## Events -/

/-- The kind is bounded and the payload is a JSON value. -/
structure TranscriptEvent.WellFormed (format : NumberFormat) (event : TranscriptEvent) : Prop where
  kind_pos : 1 ≤ utf16Length event.kind
  kind_le : utf16Length event.kind ≤ 128
  payload : Readable format event.payload

/-- The event with the payload that `normalizeEvent` detaches. -/
def TranscriptEvent.detached (event : TranscriptEvent) : TranscriptEvent :=
  { event with payload := restored event.payload }

section Events

variable {runtime : OutboxRuntime} {event : TranscriptEvent}

theorem TranscriptEvent.WellFormed.detached {format : NumberFormat} (h : event.WellFormed format) :
    event.detached.WellFormed format :=
  ⟨h.kind_pos, h.kind_le, readable_restored h.payload⟩

theorem TranscriptEvent.WellFormed.detached_detached {format : NumberFormat}
    (h : event.WellFormed format) : event.detached.detached = event.detached := by
  unfold TranscriptEvent.detached
  rw [restored_restored h.payload.1]

theorem detachPayload_eq {payload : JsonValue} (h : Readable runtime.format payload) :
    detachPayload runtime payload = .ok (restored payload) := by
  unfold detachPayload
  rw [jsonParse_canonicalJsonString h]
  rfl

theorem normalizeEvent_object {record : JsonObject} {event : TranscriptEvent}
    (hkind : readMember "kind" record = some (.string event.kind))
    (hpayload : readMember "payload" record = some event.payload)
    (h : event.WellFormed runtime.format) :
    normalizeEvent runtime (some (.object record)) = .ok event.detached := by
  have hbounds : ¬(utf16Length event.kind < 1 ∨ 128 < utf16Length event.kind) := by
    have hpos := h.kind_pos
    have hle := h.kind_le
    omega
  simp only [normalizeEvent, hkind, hpayload]
  rw [if_neg hbounds, detachPayload_eq h.payload]
  rfl

theorem normalizeEvent_toJson (h : event.WellFormed runtime.format) :
    normalizeEvent runtime (some event.toJson) = .ok event.detached :=
  normalizeEvent_object rfl rfl h

/-- An event whose kind is out of bounds is refused. -/
theorem wellFormed_of_normalizeEvent {event' : TranscriptEvent}
    (hpayload : Readable runtime.format event.payload)
    (h : normalizeEvent runtime (some event.toJson) = .ok event') :
    event.WellFormed runtime.format ∧ event' = event.detached := by
  have hkind : readMember "kind" [("kind", .string event.kind), ("payload", event.payload)] =
      some (.string event.kind) := rfl
  by_cases hbounds : utf16Length event.kind < 1 ∨ 128 < utf16Length event.kind
  · simp only [TranscriptEvent.toJson, normalizeEvent, hkind] at h
    rw [if_pos hbounds] at h
    cases h
  · have hwell : event.WellFormed runtime.format := ⟨by omega, by omega, hpayload⟩
    rw [normalizeEvent_toJson hwell] at h
    exact ⟨hwell, (Except.ok.inj h).symm⟩

theorem keys_eventJson (event : TranscriptEvent) :
    ([("kind", JsonValue.string event.kind), ("payload", event.payload)].map Prod.fst).Nodup := by
  have hkeys : ["kind", "payload"].Nodup := by decide
  exact hkeys

/-- An event that was printed and parsed is normalized to the event with its payload
detached. -/
theorem normalizeEvent_restored (h : event.WellFormed runtime.format) :
    normalizeEvent runtime (some (restored event.toJson)) = .ok event.detached := by
  obtain ⟨record, hrecord, hperm⟩ :=
    restored_object [("kind", .string event.kind), ("payload", event.payload)]
  have hread := readMember_restored (keys_eventJson event) hperm
  have hnormalized := @normalizeEvent_object runtime record event.detached
    ((hread "kind").trans rfl) ((hread "payload").trans rfl) h.detached
  rw [h.detached_detached] at hnormalized
  rw [TranscriptEvent.toJson, hrecord]
  exact hnormalized

theorem TranscriptEvent.WellFormed.readable {format : NumberFormat} (h : event.WellFormed format) :
    Readable format event.toJson := by
  refine readable_object (keys_eventJson event) ?_
  simp only [List.forall_mem_cons]
  exact ⟨readable_string _, h.payload, fun _ hnone => absurd hnone List.not_mem_nil⟩

end Events

/-! ## Entries -/

section Entries

variable {runtime : OutboxRuntime}

theorem asCount_countJson {count : Nat} (h : count ≤ maxSafeInteger) (field : String) :
    asCount (some (countJson count)) field = .ok count := by
  have hdigits : Nat.ofDigitChars 10 (toString count).toList 0 = count := by
    rw [Nat.toString_eq_repr, Nat.toList_repr]
    exact Nat.ofDigitChars_ten_toDigits
  simp only [asCount, countJson, hdigits]
  exact if_pos ⟨trivial, h⟩

theorem asHash_string {text : String} (h : isSha256Hex text = true) :
    asHash (some (.string text)) = .ok text :=
  if_pos h

/-- The members of an entry. -/
def entryMembers (entry : OutboxEntry) : JsonObject :=
  [("sequence", countJson entry.sequence), ("previousHash", .string entry.previousHash),
    ("entryHash", .string entry.entryHash), ("event", entry.event.toJson)]

theorem keys_entryMembers (entry : OutboxEntry) :
    ((entryMembers entry).map Prod.fst).Nodup := by
  have hkeys : ["sequence", "previousHash", "entryHash", "event"].Nodup := by decide
  exact hkeys

/-- What the outbox needs of an entry to read it back. -/
structure EntryReadable (format : NumberFormat) (entry : OutboxEntry) : Prop where
  sequence : entry.sequence ≤ maxSafeInteger
  previousHash : isSha256Hex entry.previousHash = true
  entryHash : isSha256Hex entry.entryHash = true
  event : entry.event.WellFormed format
  detached : entry.event.detached = entry.event

theorem EntryReadable.readable {format : NumberFormat} {entry : OutboxEntry}
    (h : EntryReadable format entry) : Readable format (entryJson entry) := by
  refine readable_object (keys_entryMembers entry) ?_
  simp only [List.forall_mem_cons]
  exact ⟨readable_countJson h.sequence, readable_string _, readable_string _, h.event.readable,
    fun _ hnone => absurd hnone List.not_mem_nil⟩

theorem normalizeEntry_restored {entry : OutboxEntry} (h : EntryReadable runtime.format entry) :
    normalizeEntry runtime (restored (entryJson entry)) = .ok entry := by
  obtain ⟨record, hrecord, hperm⟩ := restored_object (entryMembers entry)
  have hread := readMember_restored (keys_entryMembers entry) hperm
  have hsequence : readMember "sequence" record = some (countJson entry.sequence) :=
    (hread "sequence").trans rfl
  have hprevious : readMember "previousHash" record = some (.string entry.previousHash) :=
    (hread "previousHash").trans rfl
  have hentry : readMember "entryHash" record = some (.string entry.entryHash) :=
    (hread "entryHash").trans rfl
  have hevent : readMember "event" record = some (restored entry.event.toJson) :=
    (hread "event").trans rfl
  rw [show restored (entryJson entry) = .object record from hrecord]
  simp only [normalizeEntry]
  rw [hsequence, hprevious, hentry, hevent, asCount_countJson h.sequence,
    asHash_string h.previousHash, asHash_string h.entryHash, normalizeEvent_restored h.event,
    h.detached]
  rfl

/-- The entries of events that continue a hash. -/
def entriesFrom (runtime : OutboxRuntime) (previousHash : String) (sequence : Nat)
    (events : List TranscriptEvent) : List OutboxEntry :=
  chainFrom runtime.sha256 hashedText previousHash sequence events

/-- The hash that the events lead to. -/
def hashFrom (runtime : OutboxRuntime) (previousHash : String) (sequence : Nat)
    (events : List TranscriptEvent) : String :=
  chainHead runtime.sha256 hashedText previousHash sequence events

/-- Events as the outbox keeps them. -/
def Detached (format : NumberFormat) (events : List TranscriptEvent) : Prop :=
  ∀ event ∈ events, event.WellFormed format ∧ event.detached = event

variable {previousHash : String} {sequence : Nat} {events : List TranscriptEvent}

theorem isSha256Hex_hashFrom (h : isSha256Hex previousHash = true) :
    isSha256Hex (hashFrom runtime previousHash sequence events) = true := by
  unfold hashFrom
  induction events generalizing previousHash sequence with
  | nil => exact h
  | cons event events ih => exact ih (runtime.sha256_hex _)

theorem entriesFrom_readable (hhash : isSha256Hex previousHash = true)
    (hevents : Detached runtime.format events)
    (hsafe : sequence + events.length ≤ maxSafeInteger + 1) :
    ∀ entry ∈ entriesFrom runtime previousHash sequence events,
      EntryReadable runtime.format entry := by
  unfold entriesFrom
  induction events generalizing previousHash sequence with
  | nil => exact fun entry hentry => absurd hentry List.not_mem_nil
  | cons event events ih =>
      rw [List.length_cons] at hsafe
      obtain ⟨⟨hwell, hdetached⟩, hrest⟩ := List.forall_mem_cons.mp hevents
      rw [chainFrom, List.forall_mem_cons]
      constructor
      · refine ⟨?_, hhash, runtime.sha256_hex _, hwell, hdetached⟩
        change sequence ≤ maxSafeInteger
        omega
      · exact ih (runtime.sha256_hex _) hrest (by omega)

/-- The walk over a chain that was written finds the chain. -/
theorem normalizeEntries_restored (hhash : isSha256Hex previousHash = true)
    (hevents : Detached runtime.format events)
    (hsafe : sequence + events.length ≤ maxSafeInteger + 1) :
    normalizeEntries runtime previousHash sequence
        ((entriesFrom runtime previousHash sequence events).map fun entry =>
          restored (entryJson entry)) =
      .ok (entriesFrom runtime previousHash sequence events) := by
  have hreadable := entriesFrom_readable hhash hevents hsafe
  unfold entriesFrom at hreadable ⊢
  induction events generalizing previousHash sequence with
  | nil => rfl
  | cons event events ih =>
      rw [List.length_cons] at hsafe
      rw [chainFrom] at hreadable ⊢
      obtain ⟨hfirst, hrest⟩ := List.forall_mem_cons.mp hreadable
      rw [List.map_cons, normalizeEntries, normalizeEntry_restored hfirst]
      have hnext := ih (runtime.sha256_hex _) (List.forall_mem_cons.mp hevents).2 (by omega) hrest
      simp only [bind, Except.bind, ne_eq, not_true_eq_false, if_false, hashEntry, hnext]
      rfl

/-- The retained entries begin where their first one says. -/
theorem expectedGenesisFor_restored (hhash : isSha256Hex previousHash = true) :
    expectedGenesisFor ((entriesFrom runtime previousHash sequence events).map fun entry =>
      restored (entryJson entry)) (hashFrom runtime previousHash sequence events) =
        .ok previousHash := by
  unfold entriesFrom hashFrom
  by_cases hnone : events = []
  · rw [hnone]
    rfl
  · obtain ⟨event, more, rfl⟩ := List.exists_cons_of_ne_nil hnone
    rw [chainFrom, List.map_cons]
    generalize hentry : ChainEntry.mk sequence previousHash
      (runtime.sha256 (hashedText previousHash sequence event)) event = entry
    obtain ⟨record, hrecord, hperm⟩ := restored_object (entryMembers entry)
    have hread := readMember_restored (keys_entryMembers entry) hperm "previousHash"
    rw [show restored (entryJson entry) = .object record from hrecord]
    simp only [expectedGenesisFor]
    rw [hread, show (readMember "previousHash" (entryMembers entry)).map restored =
      some (.string entry.previousHash) from rfl, ← hentry]
    exact asHash_string hhash

/-- The snapshot of an outbox that has acknowledged some events and keeps others. -/
def snapshotFrom (runtime : OutboxRuntime) (assignmentId previousHash : String) (acked : Nat)
    (events : List TranscriptEvent) : OutboxSnapshot where
  assignmentId := assignmentId
  ackWatermark := acked
  headSequence := acked + events.length
  headHash := hashFrom runtime previousHash (acked + 1) events
  entries := entriesFrom runtime previousHash (acked + 1) events

/-- The members of a snapshot. -/
def snapshotMembers (snapshot : OutboxSnapshot) : JsonObject :=
  [("assignmentId", .string snapshot.assignmentId),
    ("ackWatermark", countJson snapshot.ackWatermark),
    ("headSequence", countJson snapshot.headSequence),
    ("headHash", .string snapshot.headHash),
    ("entries", .array (snapshot.entries.map entryJson))]

theorem keys_snapshotMembers (snapshot : OutboxSnapshot) :
    ((snapshotMembers snapshot).map Prod.fst).Nodup := by
  have hkeys : ["assignmentId", "ackWatermark", "headSequence", "headHash", "entries"].Nodup := by
    decide
  exact hkeys

section Snapshots

variable {acked : Nat} {assignmentId : String}

theorem snapshotFrom_readable (hhash : isSha256Hex previousHash = true)
    (hevents : Detached runtime.format events) (hsafe : acked + events.length ≤ maxSafeInteger) :
    Readable runtime.format
      (snapshotFrom runtime assignmentId previousHash acked events).toJson := by
  refine readable_object (keys_snapshotMembers _) ?_
  have hentries := @entriesFrom_readable runtime previousHash (acked + 1) events hhash hevents
    (by omega)
  have hacked : acked ≤ maxSafeInteger := by omega
  simp only [List.forall_mem_cons]
  refine ⟨readable_string _, readable_countJson hacked, readable_countJson hsafe,
    readable_string _, readable_array ?_, fun _ hnone => absurd hnone List.not_mem_nil⟩
  intro item hitem
  obtain ⟨entry, hentry, rfl⟩ := List.mem_map.mp hitem
  exact (hentries entry hentry).readable

/-- What was written is read back. -/
theorem normalizeSnapshot_restored (hhash : isSha256Hex previousHash = true)
    (hevents : Detached runtime.format events) (hsafe : acked + events.length ≤ maxSafeInteger) :
    normalizeSnapshot runtime
        (restored (snapshotFrom runtime assignmentId previousHash acked events).toJson)
        assignmentId =
      .ok (snapshotFrom runtime assignmentId previousHash acked events) := by
  generalize hsnapshot : snapshotFrom runtime assignmentId previousHash acked events = snapshot
  obtain ⟨record, hrecord, hperm⟩ := restored_object (snapshotMembers snapshot)
  have hread := readMember_restored (keys_snapshotMembers snapshot) hperm
  have hassignment : readMember "assignmentId" record = some (.string snapshot.assignmentId) :=
    (hread "assignmentId").trans rfl
  have hack : readMember "ackWatermark" record = some (countJson snapshot.ackWatermark) :=
    (hread "ackWatermark").trans rfl
  have hhead : readMember "headSequence" record = some (countJson snapshot.headSequence) :=
    (hread "headSequence").trans rfl
  have hheadHash : readMember "headHash" record = some (.string snapshot.headHash) :=
    (hread "headHash").trans rfl
  have hentries : readMember "entries" record =
      some (.array (snapshot.entries.map fun entry => restored (entryJson entry))) := by
    refine (hread "entries").trans ?_
    rw [show readMember "entries" (snapshotMembers snapshot) =
      some (.array (snapshot.entries.map entryJson)) from rfl, Option.map_some, restored_array,
      List.map_map]
    rfl
  rw [show restored snapshot.toJson = .object record from hrecord]
  have hacked : snapshot.ackWatermark ≤ maxSafeInteger := by
    rw [← hsnapshot]
    exact (Nat.le_add_right _ _).trans hsafe
  have hheadSafe : snapshot.headSequence ≤ maxSafeInteger := by
    rw [← hsnapshot]
    exact hsafe
  have hheadHex : isSha256Hex snapshot.headHash = true := by
    rw [← hsnapshot]
    exact isSha256Hex_hashFrom hhash
  have hgenesis : expectedGenesisFor
      (snapshot.entries.map fun entry => restored (entryJson entry)) snapshot.headHash =
        .ok previousHash := by
    rw [← hsnapshot]
    exact expectedGenesisFor_restored hhash
  have hwalk : normalizeEntries runtime previousHash (snapshot.ackWatermark + 1)
      (snapshot.entries.map fun entry => restored (entryJson entry)) = .ok snapshot.entries := by
    have hlimit : acked + 1 + events.length ≤ maxSafeInteger + 1 := by omega
    rw [← hsnapshot]
    exact normalizeEntries_restored hhash hevents hlimit
  have hpast : ¬snapshot.headSequence < snapshot.ackWatermark := by
    rw [← hsnapshot]
    exact Nat.not_lt.mpr (Nat.le_add_right _ _)
  have hlast : (snapshot.entries.getLast?.map ChainEntry.sequence).getD snapshot.ackWatermark =
      snapshot.headSequence := by
    rw [← hsnapshot]
    by_cases hnone : events = []
    · rw [hnone]
      rfl
    · obtain ⟨entry, hentry, hsequence, -⟩ := @getLast?_chainFrom _ _ _ runtime.sha256 hashedText
        previousHash (acked + 1) events hnone
      change ((entriesFrom runtime previousHash (acked + 1) events).getLast?.map
        ChainEntry.sequence).getD acked = acked + events.length
      rw [entriesFrom, hentry, Option.map_some, Option.getD_some]
      omega
  have hlastHash : ¬snapshot.entries.getLast?.any
      (fun entry => entry.entryHash ≠ snapshot.headHash) = true := by
    rw [← hsnapshot]
    by_cases hnone : events = []
    · rw [hnone]
      exact Bool.false_ne_true
    · obtain ⟨entry, hentry, -, hhead⟩ := @getLast?_chainFrom _ _ _ runtime.sha256 hashedText
        previousHash (acked + 1) events hnone
      change ¬(entriesFrom runtime previousHash (acked + 1) events).getLast?.any
        (fun entry => entry.entryHash ≠ hashFrom runtime previousHash (acked + 1) events) = true
      rw [entriesFrom, hentry, Option.any_some, hhead, hashFrom]
      simp
  have howner : snapshot.assignmentId = assignmentId := by rw [← hsnapshot]; rfl
  simp only [normalizeSnapshot]
  rw [hassignment, hack, hhead, hheadHash, hentries, asCount_countJson hacked,
    asCount_countJson hheadSafe, asHash_string hheadHex]
  simp only [bind, Except.bind, Option.bind, JsonValue.asString?, howner, hpast, hgenesis, hwalk,
    hlast, hlastHash, ne_eq, not_true_eq_false, if_false, Bool.false_eq_true]
  rw [← howner]
  rfl

end Snapshots

end Entries

/-! ## Hashed texts -/

/-- Two events are equal as JSON values. -/
def SameEvent (event event' : TranscriptEvent) : Prop :=
  event.kind = event'.kind ∧ SameJson event.payload event'.payload

section Hashed

variable {format : NumberFormat}

/-- Objects that are equal with the order of members ignored have equal members. -/
theorem sameJson_member {fields fields' : JsonObject} {key : String} {value value' : JsonValue}
    (hkeys : (fields.map Prod.fst).Nodup) (hkeys' : (fields'.map Prod.fst).Nodup)
    (h : SameJson (.object fields) (.object fields'))
    (hvalue : readMember key fields = some value)
    (hvalue' : readMember key fields' = some value') : SameJson value value' := by
  let order : JsonObject → JsonObject := fun fields => fields.insertionSort fun a b => a.1 ≤ b.1
  have horder : ∀ fields : JsonObject, (order fields).Perm fields := List.perm_insertionSort _
  unfold SameJson normalizeKeys at h ⊢
  rw [rearrange_object, rearrange_object] at h
  have hperm := (horder _).symm.trans ((List.Perm.of_eq (JsonValue.object.inj h)).trans (horder _))
  have hmem := List.mem_map_of_mem (f := fun field => (field.1, rearrange order field.2))
    ((readMember_eq_some_iff hkeys).mp hvalue)
  rw [hperm.mem_iff] at hmem
  obtain ⟨field, hfield, heq⟩ := List.mem_map.mp hmem
  obtain ⟨hkey, hsame⟩ := Prod.mk.inj heq
  change field.1 = key at hkey
  have hread : readMember key fields' = some field.2 := by
    rw [readMember_eq_some_iff hkeys', ← hkey]
    exact hfield
  rw [hvalue'] at hread
  rw [Option.some.inj hread]
  exact hsame.symm

theorem valid_countJson (count : Nat) : (countJson count).Valid :=
  ⟨.number trivial, .number (printsNumerals_countJson count)⟩

/-- The members of what an entry hashes. -/
def hashedMembers (previousHash : String) (sequence : Nat) (event : TranscriptEvent) :
    JsonObject :=
  [("previousHash", .string previousHash), ("sequence", countJson sequence),
    ("event", event.toJson)]

theorem keys_hashedMembers (previousHash : String) (sequence : Nat) (event : TranscriptEvent) :
    ((hashedMembers previousHash sequence event).map Prod.fst).Nodup := by
  have hkeys : ["previousHash", "sequence", "event"].Nodup := by decide
  exact hkeys

theorem valid_hashedMembers {event : TranscriptEvent} (h : event.WellFormed format)
    (previousHash : String) (sequence : Nat) :
    (JsonValue.object (hashedMembers previousHash sequence event)).Valid := by
  have hmembers : ∀ field ∈ hashedMembers previousHash sequence event, field.2.Valid := by
    unfold hashedMembers
    simp only [List.forall_mem_cons]
    exact ⟨(@readable_string format _).valid, valid_countJson _, h.readable.valid,
      fun _ hnone => absurd hnone List.not_mem_nil⟩
  exact ⟨.object (keys_hashedMembers _ _ _) fun field hfield => (hmembers field hfield).1,
    .object trivial fun field hfield => (hmembers field hfield).2⟩

/-- The text that is hashed tells the hash before it and its event. -/
theorem hashedText_cancel {event event' : TranscriptEvent} (h : event.WellFormed format)
    (h' : event'.WellFormed format) {previousHash previousHash' : String} {sequence : Nat}
    (heq : hashedText previousHash sequence event = hashedText previousHash' sequence event') :
    previousHash = previousHash' ∧ SameEvent event event' := by
  have hsame := (canonicalJsonString_eq_iff (valid_hashedMembers h previousHash sequence)
    (valid_hashedMembers h' previousHash' sequence)).mp heq
  have hkeys := keys_hashedMembers previousHash sequence event
  have hkeys' := keys_hashedMembers previousHash' sequence event'
  have hprevious := @sameJson_member _ _ "previousHash" _ _ hkeys hkeys' hsame rfl rfl
  have hevent : SameJson event.toJson event'.toJson :=
    @sameJson_member _ _ "event" _ _ hkeys hkeys' hsame rfl rfl
  have hkind := @sameJson_member _ _ "kind" _ _ (keys_eventJson event) (keys_eventJson event')
    hevent rfl rfl
  have hpayload := @sameJson_member _ _ "payload" _ _ (keys_eventJson event)
    (keys_eventJson event') hevent rfl rfl
  exact ⟨JsonValue.string.inj hprevious, JsonValue.string.inj hkind, hpayload⟩

/-- Detached events are one event when the events are equal as JSON values. -/
theorem detached_eq_iff {event event' : TranscriptEvent} (h : event.WellFormed format)
    (h' : event'.WellFormed format) :
    event.detached = event'.detached ↔ SameEvent event event' := by
  unfold TranscriptEvent.detached
  constructor
  · intro heq
    obtain ⟨hkind, hpayload⟩ := TranscriptEvent.mk.inj heq
    have hsame := sameJson_restored h.payload.1
    rw [hpayload] at hsame
    exact ⟨hkind, hsame.symm.trans (sameJson_restored h'.payload.1)⟩
  · rintro ⟨hkind, hpayload⟩
    have htext := (canonicalJsonString_eq_iff h.payload.valid h'.payload.valid).mpr hpayload
    have hparsed := jsonParse_canonicalJsonString h.payload
    rw [htext, jsonParse_canonicalJsonString h'.payload] at hparsed
    rw [hkind, Option.some.inj hparsed]

end Hashed

end GoatCitadel.RemoteWorker
