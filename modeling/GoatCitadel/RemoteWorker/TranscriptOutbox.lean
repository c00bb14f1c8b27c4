import GoatCitadel.Policy.CanonicalText
import GoatCitadel.RemoteWorker.BudgetRecords
import GoatCitadel.Support.HashChain
import GoatCitadel.Support.Runs

/-!
# The transcript outbox of a worker

A worker keeps the events of an assignment until the Gateway has acknowledged them.  An
entry is chained onto the entry before it, and the outbox is written as one canonical JSON
text after every change; memory follows the write.  What was acknowledged is dropped, so an
outbox that is opened again is checked from the middle of its chain.
-/

namespace GoatCitadel.RemoteWorker

open GoatCitadel.Support
open GoatCitadel.Policy (JsonObject JsonValue NumberFormat Readable canonicalJsonString jsonParse)

/-! ## Records -/

/-- What the outbox takes from its environment. -/
structure OutboxRuntime where
  format : NumberFormat
  sha256 : String → String
  sha256_hex : ∀ text, isSha256Hex (sha256 text) = true

structure TranscriptEvent where
  kind : String
  payload : JsonValue

abbrev OutboxEntry := ChainEntry TranscriptEvent String

/-- `WORKER_OUTBOX_GENESIS_HASH` -/
def genesisHash : String := String.ofList (List.replicate 64 '0')

/-- `WORKER_OUTBOX_DEFAULT_MAX_UNACKED` -/
def defaultMaxUnacked : Nat := 256

inductive OutboxError
  | invalid (message : String)
  | backpressure (headSequence ackWatermark maxUnacked : Nat)
  /-- A key that the durable state refuses. -/
  | durableState (message : String)
  /-- A text that `JSON.parse` refuses. -/
  | notJson

structure OutboxSnapshot where
  assignmentId : String
  ackWatermark : Nat
  headSequence : Nat
  headHash : String
  entries : List OutboxEntry

/-- The outbox in the memory of the worker. -/
structure TranscriptOutbox where
  maxUnacked : Nat
  assignmentId : String
  ackWatermarkValue : Nat
  headSequenceValue : Nat
  headHashValue : String
  entries : List OutboxEntry

/-! ## Texts -/

/-- A count, as `JSON.stringify` prints it. -/
def countJson (count : Nat) : JsonValue := .number (toString count)

def TranscriptEvent.toJson (event : TranscriptEvent) : JsonValue :=
  .object [("kind", .string event.kind), ("payload", event.payload)]

def entryJson (entry : OutboxEntry) : JsonValue :=
  .object [("sequence", countJson entry.sequence), ("previousHash", .string entry.previousHash),
    ("entryHash", .string entry.entryHash), ("event", entry.event.toJson)]

def OutboxSnapshot.toJson (snapshot : OutboxSnapshot) : JsonValue :=
  .object [("assignmentId", .string snapshot.assignmentId),
    ("ackWatermark", countJson snapshot.ackWatermark),
    ("headSequence", countJson snapshot.headSequence),
    ("headHash", .string snapshot.headHash),
    ("entries", .array (snapshot.entries.map entryJson))]

/-- The text that `persist` writes. -/
def OutboxSnapshot.text (snapshot : OutboxSnapshot) : String :=
  canonicalJsonString snapshot.toJson

/-- The text whose digest `hashEntry` takes. -/
def hashedText (previousHash : String) (sequence : Nat) (event : TranscriptEvent) : String :=
  canonicalJsonString (.object [("previousHash", .string previousHash),
    ("sequence", countJson sequence), ("event", event.toJson)])

/-- A member of an object. -/
def readMember (key : String) (record : JsonObject) : Option JsonValue :=
  (record.find? fun field => field.1 = key).map Prod.snd

/-- A non-negative safe integer prints as its digits. -/
def asCount (value : Option JsonValue) (field : String) : Except OutboxError Nat :=
  match value with
  | some (.number text) =>
      let count := Nat.ofDigitChars 10 text.toList 0
      if toString count = text ∧ count ≤ maxSafeInteger then return count
      else throw (.invalid s!"Retained outbox {field} is invalid.")
  | _ => throw (.invalid s!"Retained outbox {field} is invalid.")

def asHash (value : Option JsonValue) : Except OutboxError String :=
  match value with
  | some (.string text) =>
      if isSha256Hex text = true then return text
      else throw (.invalid "Retained outbox hash is invalid.")
  | _ => throw (.invalid "Retained outbox hash is invalid.")

section Reading

variable (runtime : OutboxRuntime)

def hashEntry (previousHash : String) (sequence : Nat) (event : TranscriptEvent) : String :=
  runtime.sha256 (hashedText previousHash sequence event)

/-- The payload is detached: printed and parsed. -/
def detachPayload (payload : JsonValue) : Except OutboxError JsonValue :=
  match jsonParse runtime.format (canonicalJsonString payload) with
  | some payload => return payload
  | none => throw .notJson

def normalizeEvent (value : Option JsonValue) : Except OutboxError TranscriptEvent :=
  match value with
  | some (.object record) =>
      match readMember "kind" record with
      | some (.string kind) => do
          if utf16Length kind < 1 ∨ 128 < utf16Length kind then
            throw (.invalid "A transcript event kind must be a bounded non-empty string.")
          match readMember "payload" record with
          | some payload => return { kind, payload := ← detachPayload runtime payload }
          | none => throw (.invalid "A transcript event must carry a payload.")
      | _ => throw (.invalid "A transcript event kind must be a bounded non-empty string.")
  | _ => throw (.invalid "A transcript event must be an object.")

def normalizeEntry (value : JsonValue) : Except OutboxError OutboxEntry :=
  match value with
  | .object record => do
      let sequence ← asCount (readMember "sequence" record) "sequence"
      let previousHash ← asHash (readMember "previousHash" record)
      let entryHash ← asHash (readMember "entryHash" record)
      let event ← normalizeEvent runtime (readMember "event" record)
      return { sequence, previousHash, entryHash, event }
  | _ => throw (.invalid "A retained outbox entry is corrupt.")

/-- The hash that the first retained entry has to continue. -/
def expectedGenesisFor (rawEntries : List JsonValue) (headHash : String) :
    Except OutboxError String :=
  match rawEntries with
  | [] => return headHash
  | .object record :: _ => asHash (readMember "previousHash" record)
  | .array _ :: _ => asHash none
  | _ :: _ => throw (.invalid "Retained outbox entries are corrupt.")

/-- The walk over the retained entries. -/
def normalizeEntries : String → Nat → List JsonValue → Except OutboxError (List OutboxEntry)
  | _, _, [] => return []
  | previousHash, expectedSequence, rawEntry :: rawEntries => do
      let entry ← normalizeEntry runtime rawEntry
      if entry.sequence ≠ expectedSequence then
        throw (.invalid
          "Retained outbox entries are not contiguous from the acknowledged watermark.")
      if entry.previousHash ≠ previousHash then
        throw (.invalid "Retained outbox hash chain is broken.")
      if hashEntry runtime entry.previousHash entry.sequence entry.event ≠ entry.entryHash then
        throw (.invalid "Retained outbox entry hash does not verify.")
      let entries ← normalizeEntries entry.entryHash (expectedSequence + 1) rawEntries
      return entry :: entries

def normalizeSnapshot (value : JsonValue) (expectedAssignmentId : String) :
    Except OutboxError OutboxSnapshot :=
  match value with
  | .object record => do
      if (readMember "assignmentId" record).bind JsonValue.asString? ≠
          some expectedAssignmentId then
        throw (.invalid "Retained outbox belongs to a different assignment.")
      let ackWatermark ← asCount (readMember "ackWatermark" record) "ackWatermark"
      let headSequence ← asCount (readMember "headSequence" record) "headSequence"
      if headSequence < ackWatermark then
        throw (.invalid "Retained outbox acknowledged watermark exceeds its head.")
      let headHash ← asHash (readMember "headHash" record)
      match readMember "entries" record with
      | some (.array rawEntries) =>
          let previousHash ← expectedGenesisFor rawEntries headHash
          let entries ← normalizeEntries runtime previousHash (ackWatermark + 1) rawEntries
          if (entries.getLast?.map ChainEntry.sequence).getD ackWatermark ≠ headSequence then
            throw (.invalid "Retained outbox head does not match its entries.")
          if entries.getLast?.any (fun entry => entry.entryHash ≠ headHash) = true then
            throw (.invalid "Retained outbox head hash does not match its entries.")
          return { assignmentId := expectedAssignmentId, ackWatermark, headSequence, headHash,
                   entries }
      | _ => throw (.invalid "Retained outbox entries are corrupt.")
  | _ => throw (.invalid "Retained outbox snapshot is corrupt.")

/-! ## The calls -/

/-- `SAFE_KEY` -/
def isSafeKey (key : String) : Bool :=
  let isOuter := fun c : Char => c.isDigit || ('a' ≤ c && c ≤ 'z')
  let chars := key.toList
  chars ≠ [] && chars.length ≤ 128 && chars.head?.all isOuter && chars.getLast?.all isOuter &&
    chars.all fun c => isOuter c || c = '.' || c = '_' || c = '-'

def assignmentKeySegment (assignmentId : String) : Except OutboxError String :=
  if assignmentId = "" then throw (.invalid "assignmentId is required.")
  else return String.ofList ((runtime.sha256 assignmentId).toList.take 32)

/-- The window that `open` is given. -/
def asMaxUnacked (maxUnacked : Option Number) : Except OutboxError Nat :=
  match maxUnacked with
  | none => return defaultMaxUnacked
  | some (.finite value) =>
      if value.den = 1 ∧ 1 ≤ value.num ∧ value.num ≤ maxSafeInteger then return value.num.toNat
      else throw (.invalid "maxUnacked must be a positive integer.")
  | some .nonFinite => throw (.invalid "maxUnacked must be a positive integer.")

/-- Which outbox a worker opens. -/
structure OutboxAddress where
  assignmentId : String
  stateKeyPrefix : Option String

/-- The durable state is asked for a key that it takes. -/
def checkStateKey (address : OutboxAddress) : Except OutboxError Unit := do
  let segment ← assignmentKeySegment runtime address.assignmentId
  if isSafeKey (address.stateKeyPrefix.getD "outbox" ++ "-" ++ segment) = false then
    throw (.durableState "Worker durable-state key is invalid.")

/-- `open`, on what the durable state has under the key. -/
def openOutbox (address : OutboxAddress) (maxUnacked : Option Number) (stored : Option String) :
    Except OutboxError TranscriptOutbox := do
  let maxUnacked ← asMaxUnacked maxUnacked
  checkStateKey runtime address
  match stored with
  | none =>
      return { maxUnacked, assignmentId := address.assignmentId, ackWatermarkValue := 0,
               headSequenceValue := 0, headHashValue := genesisHash, entries := [] }
  | some raw =>
      match jsonParse runtime.format raw with
      | none => throw .notJson
      | some value =>
          let snapshot ← normalizeSnapshot runtime value address.assignmentId
          return { maxUnacked, assignmentId := snapshot.assignmentId,
                   ackWatermarkValue := snapshot.ackWatermark,
                   headSequenceValue := snapshot.headSequence,
                   headHashValue := snapshot.headHash, entries := snapshot.entries }

def TranscriptOutbox.unackedCount (outbox : TranscriptOutbox) : Nat :=
  outbox.headSequenceValue - outbox.ackWatermarkValue

/-- `pending` and `catchUp` -/
def TranscriptOutbox.pending (outbox : TranscriptOutbox) : List OutboxEntry :=
  outbox.entries.filter fun entry => outbox.ackWatermarkValue < entry.sequence

/-- The hash of a replayed transcript. -/
def replayHash : String → Nat → List TranscriptEvent → Except OutboxError String
  | hash, _, [] => return hash
  | hash, sequence, event :: events => do
      let event ← normalizeEvent runtime (some event.toJson)
      replayHash (hashEntry runtime hash sequence event) (sequence + 1) events

def TranscriptOutbox.assertReplayPrefix (events : List TranscriptEvent)
    (outbox : TranscriptOutbox) : Except OutboxError Unit := do
  if events.length < outbox.headSequenceValue then
    throw (.invalid "Replayed transcript omits retained events.")
  let hash ← replayHash runtime genesisHash 1 (events.take outbox.headSequenceValue)
  if hash ≠ outbox.headHashValue then
    throw (.invalid "Replayed transcript differs from its retained prefix.")

/-- `enqueue`, up to its write: the entry that it returns and what it writes. -/
def TranscriptOutbox.enqueue (event : TranscriptEvent) (outbox : TranscriptOutbox) :
    Except OutboxError (OutboxEntry × OutboxSnapshot) := do
  let normalizedEvent ← normalizeEvent runtime (some event.toJson)
  if outbox.maxUnacked ≤ outbox.unackedCount then
    throw (.backpressure outbox.headSequenceValue outbox.ackWatermarkValue outbox.maxUnacked)
  let sequence := outbox.headSequenceValue + 1
  if maxSafeInteger < sequence then throw (.invalid "Transcript sequence limit reached.")
  let previousHash := outbox.headHashValue
  let entryHash := hashEntry runtime previousHash sequence normalizedEvent
  let entry : OutboxEntry := { sequence, previousHash, entryHash, event := normalizedEvent }
  return (entry,
    { assignmentId := outbox.assignmentId
      ackWatermark := outbox.ackWatermarkValue
      headSequence := sequence
      headHash := entryHash
      entries := outbox.entries ++ [entry] })

/-- The watermark that `acknowledge` is given. -/
def asWatermark (throughSequence : Number) : Except OutboxError Nat :=
  match throughSequence with
  | .finite value =>
      if value.den = 1 ∧ 0 ≤ value.num ∧ value.num ≤ maxSafeInteger then return value.num.toNat
      else throw (.invalid "acknowledge(throughSequence) must be a non-negative integer.")
  | .nonFinite =>
      throw (.invalid "acknowledge(throughSequence) must be a non-negative integer.")

/-- `acknowledge`, up to its write. -/
def TranscriptOutbox.acknowledge (throughSequence : Number) (outbox : TranscriptOutbox) :
    Except OutboxError (Option OutboxSnapshot) := do
  let throughSequence ← asWatermark throughSequence
  if outbox.headSequenceValue < throughSequence then
    throw (.invalid "Cannot acknowledge beyond the enqueued head.")
  if throughSequence ≤ outbox.ackWatermarkValue then return none
  return some
    { assignmentId := outbox.assignmentId
      ackWatermark := throughSequence
      headSequence := outbox.headSequenceValue
      headHash := outbox.headHashValue
      entries := outbox.entries.filter fun entry => throughSequence < entry.sequence }

/-- Both mutations leave in memory what they have written. -/
def TranscriptOutbox.adopt (snapshot : OutboxSnapshot) (outbox : TranscriptOutbox) :
    TranscriptOutbox :=
  { outbox with
    ackWatermarkValue := snapshot.ackWatermark
    headSequenceValue := snapshot.headSequence
    headHashValue := snapshot.headHash
    entries := snapshot.entries }

/-! ## Runs -/

/-- A write that is awaited, and whether it has taken effect. -/
structure OutboxWrite where
  snapshot : OutboxSnapshot
  /-- The event that `enqueue` was given and the entry that it returns. -/
  enqueued : Option (TranscriptEvent × OutboxEntry)
  taken : Bool

/-- The durable text, the outbox in memory and its write.  `enqueued` are the events of the
writes that took effect and `acked` is the last watermark that was written. -/
structure OutboxWorld where
  stored : Option String
  outbox : Option TranscriptOutbox
  write : Option OutboxWrite
  enqueued : List TranscriptEvent
  acked : Nat

/-- The world before the outbox is opened for the first time. -/
def OutboxWorld.initial : OutboxWorld where
  stored := none
  outbox := none
  write := none
  enqueued := []
  acked := 0

/-- What happens.  A mutation begins when the mutations before it have settled; a call that
is refused changes nothing. -/
inductive OutboxEvent
  | opens (maxUnacked : Option Number)
  | enqueue (event : TranscriptEvent)
  | acknowledge (throughSequence : Number)
  | writeFails
  | writeTakes
  | returns (entry : Option OutboxEntry)
  | crashes
  | shows (entries : List OutboxEntry)

inductive OutboxWorld.Step (address : OutboxAddress) :
    OutboxWorld → OutboxEvent → OutboxWorld → Prop
  | opens {world : OutboxWorld} {maxUnacked : Option Number} {outbox : TranscriptOutbox}
      (hidle : world.write = none)
      (hopen : openOutbox runtime address maxUnacked world.stored = .ok outbox) :
      Step address world (.opens maxUnacked) { world with outbox := some outbox }
  | enqueue {world : OutboxWorld} {event : TranscriptEvent} {outbox : TranscriptOutbox}
      {entry : OutboxEntry} {snapshot : OutboxSnapshot}
      (hjson : Readable runtime.format event.payload)
      (hidle : world.write = none) (hopen : world.outbox = some outbox)
      (henqueue : outbox.enqueue runtime event = .ok (entry, snapshot)) :
      Step address world (.enqueue event)
        { world with write := some ⟨snapshot, some (event, entry), false⟩ }
  | acknowledge {world : OutboxWorld} {throughSequence : Number} {outbox : TranscriptOutbox}
      {snapshot : OutboxSnapshot}
      (hidle : world.write = none) (hopen : world.outbox = some outbox)
      (hacknowledge : outbox.acknowledge throughSequence = .ok (some snapshot)) :
      Step address world (.acknowledge throughSequence)
        { world with write := some ⟨snapshot, none, false⟩ }
  | writeFails {world : OutboxWorld} {write : OutboxWrite}
      (hwrite : world.write = some write) (htaken : write.taken = false) :
      Step address world .writeFails { world with write := none }
  | writeTakes {world : OutboxWorld} {write : OutboxWrite}
      (hwrite : world.write = some write) (htaken : write.taken = false) :
      Step address world .writeTakes
        { world with
          stored := some write.snapshot.text
          write := some { write with taken := true }
          enqueued := world.enqueued ++ (write.enqueued.map Prod.fst).toList
          acked := write.snapshot.ackWatermark }
  | returns {world : OutboxWorld} {outbox : TranscriptOutbox} {write : OutboxWrite}
      (hopen : world.outbox = some outbox) (hwrite : world.write = some write)
      (htaken : write.taken = true) :
      Step address world (.returns (write.enqueued.map Prod.snd))
        { world with outbox := some (outbox.adopt write.snapshot), write := none }
  | crashes {world : OutboxWorld} :
      Step address world .crashes { world with outbox := none, write := none }
  | shows {world : OutboxWorld} {outbox : TranscriptOutbox} (hopen : world.outbox = some outbox) :
      Step address world (.shows outbox.pending) world

end Reading

end GoatCitadel.RemoteWorker
