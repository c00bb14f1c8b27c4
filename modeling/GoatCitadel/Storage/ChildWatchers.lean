import GoatCitadel.Policy.JsonText
import GoatCitadel.Storage.WorktreeLease
import GoatCitadel.Support.Keyset
import GoatCitadel.Support.Reachability
import GoatCitadel.Support.Table

/-!
# Watchers of child runs

A watcher relays the state changes of a child run into the timeline of its parent.  It
reads the timeline of the child from a cursor on, writes a notice for every event that is
worth one, and moves its cursor, all in one transaction.  Payloads and metadata are
decoded columns.
-/

namespace GoatCitadel.Storage.ChildWatchers

open GoatCitadel.Support
open GoatCitadel.Policy (JsonObject JsonValue)

/-! ## Records -/

inductive RunEventType
  | runCreated
  | runStarted
  | runPaused
  | runResumed
  | runWaiting
  | runWoken
  | runRetryScheduled
  | runCancelled
  | runCompleted
  | runFailed
  | continuationGate
  | runDeadLettered
  | runLeaseExpired
  | runReclaimed
  | runIncompleteWorkerExit
  | runRetryBudgetExhausted
  | workerEventLoopLag
  | deadLetterRecovered
  | childStateChanged
  deriving DecidableEq

def RunEventType.text : RunEventType → String
  | .runCreated => "run_created"
  | .runStarted => "run_started"
  | .runPaused => "run_paused"
  | .runResumed => "run_resumed"
  | .runWaiting => "run_waiting"
  | .runWoken => "run_woken"
  | .runRetryScheduled => "run_retry_scheduled"
  | .runCancelled => "run_cancelled"
  | .runCompleted => "run_completed"
  | .runFailed => "run_failed"
  | .continuationGate => "continuation_gate"
  | .runDeadLettered => "run_dead_lettered"
  | .runLeaseExpired => "run_lease_expired"
  | .runReclaimed => "run_reclaimed"
  | .runIncompleteWorkerExit => "run_incomplete_worker_exit"
  | .runRetryBudgetExhausted => "run_retry_budget_exhausted"
  | .workerEventLoopLag => "worker_event_loop_lag"
  | .deadLetterRecovered => "dead_letter_recovered"
  | .childStateChanged => "child_state_changed"

/-- `isProjectableChildEvent` -/
def isProjectableChildEvent : RunEventType → Bool
  | .workerEventLoopLag => false
  | .childStateChanged => false
  | _ => true

/-- `DurableRunTimelineEvent`, and a row of `durable_run_events`. -/
structure RunTimelineEvent where
  eventId : String
  runId : String
  sequence : Nat
  eventType : RunEventType
  stepKey : Option String
  payload : JsonObject
  createdAt : String

inductive WatcherState
  | attached
  | detached
  | closed
  deriving DecidableEq

/-- `DurableChildWatcherRecord`, and a row of `durable_child_watchers`. -/
structure ChildWatcher where
  watcherId : String
  revision : Nat
  parentRunId : String
  childRunId : String
  state : WatcherState
  nextSequence : Nat
  lastConsumedSequence : Nat
  projectedNoticeCount : Nat
  source : Option String
  metadata : JsonObject
  createdAt : String
  updatedAt : String
  detachedAt : Option String
  reattachedAt : Option String
  closedAt : Option String

/-- The runs, their timelines in the order of the inserts, the last sequences that were
allocated, the watchers and the cursor of their scan. -/
structure WatcherStore where
  runs : List String
  events : List RunTimelineEvent
  lastSequence : String → Option Nat
  watchers : List ChildWatcher
  scanCursor : Option String

/-- The tables as they are created. -/
def WatcherStore.initial : WatcherStore where
  runs := []
  events := []
  lastSequence := fun _ => none
  watchers := []
  scanCursor := some ""

/-- What the repositories take from their environment. -/
structure WatcherRuntime where
  sha256Hex : String → String
  /-- The redactions that `redactSecretText` counts. -/
  redactionCount : String → Nat
  redactStructuredSecrets : JsonObject → JsonObject × Nat
  /-- The order of the column `watcher_id`. -/
  idLe : String → String → Bool

/-! ## Bounds -/

structure CreateInput where
  watcherId : String
  parentRunId : String
  childRunId : String
  source : Option String
  metadata : Option JsonObject
  createdAt : String

def containsAsciiControlCharacter (value : String) : Bool :=
  value.toList.any fun c => c.toNat ≤ 0x1F || c.toNat = 0x7F

def assertBoundedText (label value : String) (maxBytes : Nat) : Except String Unit :=
  if value = "" ∨ value ≠ trim value ∨ containsAsciiControlCharacter value = true then
    throw s!"Durable child watcher {label} must be a non-empty canonical string"
  else if maxBytes < value.utf8ByteSize then
    throw s!"Durable child watcher {label} exceeds {maxBytes} bytes"
  else return ()

def assertMetadataItemCount (itemCount : Nat) : Except String Unit :=
  if 128 < itemCount then throw "Durable child watcher metadata exceeds 128 keys/items"
  else return ()

section Bounds

variable (runtime : WatcherRuntime)

def assertNoSecretText (label value : String) : Except String Unit :=
  if 0 < runtime.redactionCount value then
    throw s!"Durable child watcher {label} must not contain secret material"
  else return ()

def assertWatcherIdBounds (watcherId : String) : Except String Unit := do
  assertBoundedText "watcherId" watcherId 256
  assertNoSecretText runtime "watcherId" watcherId

def assertRunIdBounds (runId : String) : Except String Unit :=
  assertBoundedText "runId" runId 256

/-- The keys of an object, with the items counted so far. -/
def assertMetadataKeys : List (String × JsonValue) → Nat → Except String Nat
  | [], itemCount => return itemCount
  | (key, _) :: fields, itemCount => do
      if 128 < key.utf8ByteSize then
        throw "Durable child watcher metadata key exceeds 128 bytes"
      if 0 < runtime.redactionCount key then
        throw "Durable child watcher metadata keys must not contain secret material"
      assertMetadataItemCount (itemCount + 1)
      assertMetadataKeys fields (itemCount + 1)

mutual

/-- The walk of `assertDurableChildWatcherMetadataBounds`, whose stack puts the last
member of an object first. -/
def assertMetadataValue (depth : Nat) : JsonValue → Nat → Except String Nat
  | .null, itemCount => return itemCount
  | .bool _, itemCount => return itemCount
  | .number _, itemCount => return itemCount
  | .string _, itemCount => return itemCount
  | .array items, itemCount => do
      if 6 < depth then throw "Durable child watcher metadata exceeds depth 6"
      assertMetadataItemCount (itemCount + items.length)
      assertMetadataItems (depth + 1) items (itemCount + items.length)
  | .object fields, itemCount => do
      if 6 < depth then throw "Durable child watcher metadata exceeds depth 6"
      let itemCount ← assertMetadataKeys runtime fields itemCount
      assertMetadataFields (depth + 1) fields itemCount

def assertMetadataItems (depth : Nat) : List JsonValue → Nat → Except String Nat
  | [], itemCount => return itemCount
  | item :: items, itemCount => do
      let itemCount ← assertMetadataValue depth item itemCount
      assertMetadataItems depth items itemCount

def assertMetadataFields (depth : Nat) : List (String × JsonValue) → Nat → Except String Nat
  | [], itemCount => return itemCount
  | (_, value) :: fields, itemCount => do
      let itemCount ← assertMetadataFields depth fields itemCount
      assertMetadataValue depth value itemCount

end

def assertMetadataBounds (metadata : JsonObject) : Except String Unit := do
  let _ ← assertMetadataValue runtime 0 (.object metadata) 0
  if 16384 < (JsonValue.object metadata).stringify.utf8ByteSize then
    throw "Durable child watcher metadata exceeds 16384 bytes"

def assertCreateRequestBounds (input : CreateInput) : Except String Unit := do
  assertRunIdBounds input.parentRunId
  assertRunIdBounds input.childRunId
  assertWatcherIdBounds runtime input.watcherId
  match input.source with
  | some source =>
      assertBoundedText "source" source 120
      assertNoSecretText runtime "source" source
  | none => pure ()
  match input.metadata with
  | some metadata => assertMetadataBounds runtime metadata
  | none => pure ()

/-! ## The payload of a notice -/

inductive OmissionReason
  | byteLimit
  | depthLimit
  | itemLimit
  | invalidShape
  deriving DecidableEq

def OmissionReason.text : OmissionReason → String
  | .byteLimit => "byte_limit"
  | .depthLimit => "depth_limit"
  | .itemLimit => "item_limit"
  | .invalidShape => "invalid_shape"

mutual

/-- The walk of `inspectPayloadBounds`, with the items counted so far. -/
def inspectPayloadValue (depth : Nat) : JsonValue → Nat → Except OmissionReason Nat
  | .array items, itemCount => do
      if 6 < depth then throw .depthLimit
      if 128 < itemCount + items.length then throw .itemLimit
      inspectPayloadItems (depth + 1) items (itemCount + items.length)
  | .object fields, itemCount => do
      if 6 < depth then throw .depthLimit
      if fields.any (fun field => 0 < runtime.redactionCount field.1) = true then
        throw .invalidShape
      if 128 < itemCount + fields.length then throw .itemLimit
      inspectPayloadFields (depth + 1) fields (itemCount + fields.length)
  | .null, itemCount => if 6 < depth then throw .depthLimit else return itemCount
  | .bool _, itemCount => if 6 < depth then throw .depthLimit else return itemCount
  | .number _, itemCount => if 6 < depth then throw .depthLimit else return itemCount
  | .string _, itemCount => if 6 < depth then throw .depthLimit else return itemCount

def inspectPayloadItems (depth : Nat) : List JsonValue → Nat → Except OmissionReason Nat
  | [], itemCount => return itemCount
  | item :: items, itemCount => do
      let itemCount ← inspectPayloadValue depth item itemCount
      inspectPayloadItems depth items itemCount

def inspectPayloadFields (depth : Nat) :
    List (String × JsonValue) → Nat → Except OmissionReason Nat
  | [], itemCount => return itemCount
  | (_, value) :: fields, itemCount => do
      let itemCount ← inspectPayloadValue depth value itemCount
      inspectPayloadFields depth fields itemCount

end

def jsonCount (count : Nat) : JsonValue :=
  .number (toString count)

/-- `baseEvidence` -/
def payloadEvidence (rawPayload : String) : JsonObject :=
  [("hashAlgorithm", .string "sha256"),
    ("originalSha256", .string (runtime.sha256Hex rawPayload)),
    ("originalByteCount", jsonCount rawPayload.utf8ByteSize)]

def boundPreviewKey (key : String) : String :=
  s!"sha256:{runtime.sha256Hex key}"

/-- `omittedPayloadProjection` of an object, whose keys are only listed once it was
parsed. -/
def omittedPayloadEvidence (rawPayload : String) (reason : OmissionReason)
    (parsed : Option JsonObject) : JsonValue :=
  let previewKeys : JsonObject :=
    match parsed with
    | some fields =>
        [("topLevelKeyCount", jsonCount fields.length),
          ("topLevelKeys", .array ((fields.take 16).map fun field =>
            .string (boundPreviewKey runtime field.1)))]
    | none => []
  .object (payloadEvidence runtime rawPayload ++
    [("disposition", .string "omitted"),
      ("omissionReason", .string reason.text),
      ("preview", .object ([("topLevelType", .string "object")] ++ previewKeys ++
        [("summary", .string ("Child payload omitted by the " ++ reason.text ++
          " safety boundary (" ++ toString rawPayload.utf8ByteSize ++ " bytes)."))]))])

/-- The projected payload, when there is one, and the evidence of the original. -/
def projectChildPayload (payload : JsonObject) : Option JsonObject × JsonValue :=
  let rawPayload := (JsonValue.object payload).stringify
  if 8192 < rawPayload.utf8ByteSize then
    (none, omittedPayloadEvidence runtime rawPayload .byteLimit none)
  else
    match inspectPayloadValue runtime 0 (.object payload) 0 with
    | .error violation => (none, omittedPayloadEvidence runtime rawPayload violation (some payload))
    | .ok _ =>
        let (redacted, redactionCount) := runtime.redactStructuredSecrets payload
        if 8192 < (JsonValue.object redacted).stringify.utf8ByteSize then
          (none, omittedPayloadEvidence runtime rawPayload .byteLimit (some payload))
        else
          (some redacted,
            .object (payloadEvidence runtime rawPayload ++
              [("disposition", .string "included_redacted"),
                ("redactionCount", jsonCount redactionCount)]))

def buildChildNoticeEventId (watcherId : String) (childSequence : Nat) : String :=
  "child-watch-" ++ runtime.sha256Hex (watcherId ++ "\x00" ++ toString childSequence)

/-- `DurableChildStateChangedPayload` -/
def childStateChangedPayload (watcher : ChildWatcher) (row : RunTimelineEvent)
    (observedAt : String) : JsonObject :=
  let (childPayload, childPayloadEvidence) := projectChildPayload runtime row.payload
  [("watcherId", .string watcher.watcherId),
    ("parentRunId", .string watcher.parentRunId),
    ("childRunId", .string watcher.childRunId),
    ("childEventId", .string row.eventId),
    ("childSequence", jsonCount row.sequence),
    ("childEventType", .string row.eventType.text)] ++
    (match row.stepKey with
      | some stepKey => if stepKey = "" then [] else [("childStepKey", .string stepKey)]
      | none => []) ++
    (match childPayload with
      | some fields => [("childPayload", .object fields)]
      | none => []) ++
    [("childPayloadEvidence", childPayloadEvidence),
      ("childCreatedAt", .string row.createdAt),
      ("observedAt", .string observedAt)]

end Bounds

/-! ## Timelines -/

/-- The events of a run, in the order of the inserts. -/
def timeline (runId : String) (events : List RunTimelineEvent) : List RunTimelineEvent :=
  events.filter fun event => event.runId = runId

/-- The successor of the last persisted sequence of a run. -/
def WatcherStore.persistedSuccessor (store : WatcherStore) (runId : String) : Nat :=
  (((timeline runId store.events).map RunTimelineEvent.sequence).max?).getD 0 + 1

/-- The next sequence of a run: after what is persisted, and after what was allocated. -/
def WatcherStore.nextSequence (store : WatcherStore) (runId : String) : Nat :=
  let persisted := store.persistedSuccessor runId
  match store.lastSequence runId with
  | none => persisted
  | some last => if persisted < last + 1 then last + 1 else persisted

def allocateDurableRunEventSequence (runId : String) (store : WatcherStore) :
    Except String (Nat × WatcherStore) :=
  let sequence := store.nextSequence runId
  if runId ∉ store.runs then throw "FOREIGN KEY constraint failed"
  else if maxSafeInteger < sequence then
    throw s!"Failed to allocate a durable timeline sequence for run {runId}"
  else
    return (sequence,
      { store with lastSequence := Function.update store.lastSequence runId (some sequence) })

/-- An insert into `durable_run_events`. -/
def insertEvent (event : RunTimelineEvent) (store : WatcherStore) : Except String WatcherStore :=
  if store.events.any (fun other => other.eventId = event.eventId) = true then
    throw "UNIQUE constraint failed: durable_run_events.event_id"
  else if (timeline event.runId store.events).any
      (fun other => other.sequence = event.sequence) = true then
    throw "UNIQUE constraint failed: durable_run_events.run_id, durable_run_events.sequence"
  else return { store with events := store.events ++ [event] }

structure AppendInput where
  eventId : String
  runId : String
  eventType : RunEventType
  stepKey : Option String
  payload : Option JsonObject
  createdAt : String

/-- `append` -/
def append (input : AppendInput) (store : WatcherStore) :
    Except String (RunTimelineEvent × WatcherStore) := do
  let (sequence, store) ← allocateDurableRunEventSequence input.runId store
  let event : RunTimelineEvent :=
    { eventId := input.eventId
      runId := input.runId
      sequence
      eventType := input.eventType
      stepKey := input.stepKey
      payload := input.payload.getD []
      createdAt := input.createdAt }
  let store ← insertEvent event store
  return (event, store)

/-! ## Watchers -/

section Watchers

variable (runtime : WatcherRuntime)

/-- `get` and `getForUpdate` -/
def WatcherStore.get (watcherId : String) (store : WatcherStore) : Except String ChildWatcher := do
  assertWatcherIdBounds runtime watcherId
  match store.watchers.find? fun row => row.watcherId = watcherId with
  | some row => return row
  | none => throw s!"Durable child watcher not found: {watcherId}"

def WatcherStore.getByPair (parentRunId childRunId : String) (store : WatcherStore) :
    Except String (Option ChildWatcher) := do
  assertRunIdBounds parentRunId
  assertRunIdBounds childRunId
  return store.watchers.find? fun row =>
    row.parentRunId = parentRunId ∧ row.childRunId = childRunId

/-- The edges of the watchers that are not closed. -/
def watches (watchers : List ChildWatcher) : List (String × String) :=
  (watchers.filter fun row => row.state ≠ .closed).map fun row =>
    (row.parentRunId, row.childRunId)

/-- `wouldCreateCycleStmt` -/
def WatcherStore.wouldCreateCycle (parentRunId childRunId : String) (store : WatcherStore) : Bool :=
  (reachable (watches store.watchers) childRunId).any fun runId => runId = parentRunId

def getScanCursorForUpdate (store : WatcherStore) : Except String String :=
  match store.scanCursor with
  | some cursor => return cursor
  | none => throw "Durable child watcher scan cursor is missing"

def lockEndpointRuns (parentRunId childRunId : String) (store : WatcherStore) :
    Except String Unit :=
  if parentRunId ∉ store.runs ∨ childRunId ∉ store.runs then
    throw s!"Durable child watcher endpoints must both exist: {parentRunId} -> {childRunId}"
  else return ()

def CreateInput.toRow (input : CreateInput) : ChildWatcher where
  watcherId := input.watcherId
  revision := 1
  parentRunId := input.parentRunId
  childRunId := input.childRunId
  state := .attached
  nextSequence := 1
  lastConsumedSequence := 0
  projectedNoticeCount := 0
  source := input.source
  metadata := input.metadata.getD []
  createdAt := input.createdAt
  updatedAt := input.createdAt
  detachedAt := none
  reattachedAt := none
  closedAt := none

/-- `INSERT … ON CONFLICT(parent_run_id, child_run_id) DO NOTHING` -/
def insertWatcher (row : ChildWatcher) (store : WatcherStore) : Except String WatcherStore :=
  if store.watchers.any (fun other => other.parentRunId = row.parentRunId &&
      other.childRunId = row.childRunId) = true then return store
  else if store.watchers.any (fun other => other.watcherId = row.watcherId) = true then
    throw "UNIQUE constraint failed: durable_child_watchers.watcher_id"
  else return { store with watchers := store.watchers ++ [row] }

def create (input : CreateInput) (store : WatcherStore) :
    Except String (ChildWatcher × WatcherStore) := do
  assertCreateRequestBounds runtime input
  if input.parentRunId = input.childRunId then throw "A durable run cannot watch itself"
  let _ ← getScanCursorForUpdate store
  lockEndpointRuns input.parentRunId input.childRunId store
  match ← store.getByPair input.parentRunId input.childRunId with
  | some existing => return (existing, store)
  | none =>
      if store.wouldCreateCycle input.parentRunId input.childRunId = true then
        throw ("Durable child watcher " ++ input.parentRunId ++ " -> " ++ input.childRunId ++
          " would create a run cycle")
      let store ← insertWatcher input.toRow store
      match ← store.getByPair input.parentRunId input.childRunId with
      | some watcher => return (watcher, store)
      | none => throw s!"Failed to create durable child watcher {input.watcherId}"

/-- An `UPDATE` of the watchers, and whether it changed one. -/
def updateWatchers (guard : ChildWatcher → Bool) (set : ChildWatcher → ChildWatcher)
    (store : WatcherStore) : Bool × WatcherStore :=
  (store.watchers.any guard, { store with watchers := updateRows guard set store.watchers })

def ChildWatcher.detachedAtTime (timestamp : String) (row : ChildWatcher) : ChildWatcher :=
  { row with
    state := .detached
    revision := row.revision + 1
    detachedAt := some timestamp
    updatedAt := timestamp }

def ChildWatcher.reattachedAtTime (timestamp : String) (row : ChildWatcher) : ChildWatcher :=
  { row with
    state := .attached
    revision := row.revision + 1
    reattachedAt := some timestamp
    updatedAt := timestamp }

def ChildWatcher.closedAtTime (timestamp : String) (row : ChildWatcher) : ChildWatcher :=
  { row with
    state := .closed
    revision := row.revision + 1
    closedAt := some timestamp
    updatedAt := timestamp }

/-- The reads around its update decide nothing but the answer of `detach`, and so they do
for `reattach` and `close`: the update checks the state again. -/
def detach (watcherId detachedAt : String) (store : WatcherStore) :
    Except String (ChildWatcher × WatcherStore) := do
  let current ← store.get runtime watcherId
  if current.state ≠ .attached then return (current, store)
  let (_, store) := updateWatchers
    (fun row => row.watcherId = watcherId && row.state = .attached)
    (ChildWatcher.detachedAtTime detachedAt) store
  return (← store.get runtime watcherId, store)

def reattach (watcherId reattachedAt : String) (store : WatcherStore) :
    Except String (ChildWatcher × WatcherStore) := do
  let current ← store.get runtime watcherId
  if current.state = .closed then
    throw s!"Closed durable child watcher {watcherId} cannot be reattached"
  if current.state = .attached then return (current, store)
  let (_, store) := updateWatchers
    (fun row => row.watcherId = watcherId && row.state = .detached)
    (ChildWatcher.reattachedAtTime reattachedAt) store
  return (← store.get runtime watcherId, store)

def close (watcherId closedAt : String) (store : WatcherStore) :
    Except String (ChildWatcher × WatcherStore) := do
  let current ← store.get runtime watcherId
  if current.state = .closed then return (current, store)
  let (_, store) := updateWatchers
    (fun row => row.watcherId = watcherId && row.state ≠ .closed)
    (ChildWatcher.closedAtTime closedAt) store
  return (← store.get runtime watcherId, store)

/-- `expectedRevision` is a number that is an integer. -/
def assertPositiveRevision (value : Int) : Except String Unit :=
  if value < 1 ∨ (maxSafeInteger : Int) < value then
    throw "Durable child watcher revision must be a positive safe integer"
  else return ()

def assertWatcherParent (watcher : ChildWatcher) (parentRunId : String) : Except String Unit :=
  if watcher.parentRunId ≠ parentRunId then
    throw s!"Durable child watcher not found: {watcher.watcherId}"
  else return ()

def changedRevision (watcherId : String) (expectedRevision : Int) (current : ChildWatcher) :
    String :=
  "Durable child watcher " ++ watcherId ++ " changed from revision " ++
    toString expectedRevision ++ " to " ++ toString current.revision ++
    " before control could be applied."

inductive ControlOutcome
  | applied
  | converged
  deriving DecidableEq

/-- `transitionIfRevision`; `set` writes the new state and its time. -/
def transitionIfRevision (watcherId parentRunId : String) (expectedRevision : Int)
    (fromState toState : WatcherState) (set : ChildWatcher → ChildWatcher) (store : WatcherStore) :
    Except String ((ChildWatcher × ControlOutcome) × WatcherStore) := do
  assertWatcherIdBounds runtime watcherId
  assertRunIdBounds parentRunId
  assertPositiveRevision expectedRevision
  let (changed, store') := updateWatchers
    (fun row => row.watcherId = watcherId && row.parentRunId = parentRunId &&
      row.revision = expectedRevision && row.state = fromState) set store
  if changed = true then return ((← store'.get runtime watcherId, .applied), store')
  let current ← store.get runtime watcherId
  assertWatcherParent current parentRunId
  if current.state = toState then return ((current, .converged), store)
  throw (changedRevision watcherId expectedRevision current)

def detachIfRevision (watcherId parentRunId : String) (expectedRevision : Int)
    (detachedAt : String) (store : WatcherStore) :
    Except String ((ChildWatcher × ControlOutcome) × WatcherStore) :=
  transitionIfRevision runtime watcherId parentRunId expectedRevision .attached .detached
    (ChildWatcher.detachedAtTime detachedAt) store

def reattachIfRevision (watcherId parentRunId : String) (expectedRevision : Int)
    (reattachedAt : String) (store : WatcherStore) :
    Except String ((ChildWatcher × ControlOutcome) × WatcherStore) :=
  transitionIfRevision runtime watcherId parentRunId expectedRevision .detached .attached
    (ChildWatcher.reattachedAtTime reattachedAt) store

def claimControlRevision (watcherId parentRunId : String) (expectedRevision : Int)
    (updatedAt : String) (store : WatcherStore) : Except String (ChildWatcher × WatcherStore) := do
  assertWatcherIdBounds runtime watcherId
  assertRunIdBounds parentRunId
  assertPositiveRevision expectedRevision
  let (changed, store') := updateWatchers
    (fun row => row.watcherId = watcherId && row.parentRunId = parentRunId &&
      row.revision = expectedRevision)
    (fun row => { row with revision := row.revision + 1, updatedAt := updatedAt }) store
  if changed = true then return (← store'.get runtime watcherId, store')
  let current ← store.get runtime watcherId
  assertWatcherParent current parentRunId
  throw (changedRevision watcherId expectedRevision current)

/-! ## Catching up -/

/-- `value` after `Math.floor`. -/
def clampLimit (value : Int) (max : Nat) : Nat :=
  if value < 1 then 1 else if (max : Int) < value then max else value.toNat

/-- `listChildEventsStmt` -/
def listChildEvents (childRunId : String) (afterSequence limit : Nat) (store : WatcherStore) :
    List RunTimelineEvent :=
  keysetPage RunTimelineEvent.sequence (some afterSequence) limit (timeline childRunId store.events)

/-- `hasChildEventsAfterStmt` -/
def hasChildEventsAfter (childRunId : String) (afterSequence : Nat) (store : WatcherStore) :
    Bool :=
  (timeline childRunId store.events).any fun event => afterSequence < event.sequence

/-- The notices that a batch of child events is projected to. -/
def projectChildEvents (watcher : ChildWatcher) (observedAt : String) :
    List RunTimelineEvent → WatcherStore → Except String (List RunTimelineEvent × WatcherStore)
  | [], store => return ([], store)
  | row :: rows, store =>
      let eventId := buildChildNoticeEventId runtime watcher.watcherId row.sequence
      if isProjectableChildEvent row.eventType = false then
        projectChildEvents watcher observedAt rows store
      else if store.events.any (fun event => event.eventId = eventId) = true then
        projectChildEvents watcher observedAt rows store
      else do
        let (parentSequence, store) ← allocateDurableRunEventSequence watcher.parentRunId store
        let notice : RunTimelineEvent :=
          { eventId
            runId := watcher.parentRunId
            sequence := parentSequence
            eventType := .childStateChanged
            stepKey := row.stepKey
            payload := childStateChangedPayload runtime watcher row observedAt
            createdAt := observedAt }
        let store ← insertEvent notice store
        let (notices, store) ← projectChildEvents watcher observedAt rows store
        return (notice :: notices, store)

structure CatchUpResult where
  watcher : ChildWatcher
  consumedCount : Nat
  projectedCount : Nat
  hasMore : Bool
  notices : List RunTimelineEvent

def ChildWatcher.caughtUp (lastConsumedSequence projectedCount : Nat) (observedAt : String)
    (row : ChildWatcher) : ChildWatcher :=
  { row with
    nextSequence := lastConsumedSequence + 1
    lastConsumedSequence
    projectedNoticeCount := row.projectedNoticeCount + projectedCount
    revision := row.revision + 1
    updatedAt := observedAt }

def catchUpWatcher (watcherId : String) (limit : Int) (observedAt : String)
    (store : WatcherStore) : Except String (CatchUpResult × WatcherStore) := do
  let watcher ← store.get runtime watcherId
  if watcher.state ≠ .attached then
    return ({ watcher, consumedCount := 0, projectedCount := 0, hasMore := false, notices := [] },
      store)
  let childEvents := listChildEvents watcher.childRunId watcher.lastConsumedSequence
    (clampLimit limit 500) store
  match childEvents.getLast? with
  | none =>
      return ({ watcher, consumedCount := 0, projectedCount := 0, hasMore := false, notices := [] },
        store)
  | some last =>
      let (notices, store) ← projectChildEvents runtime watcher observedAt childEvents store
      let (changed, store) := updateWatchers
        (fun row => row.watcherId = watcher.watcherId && row.state = .attached &&
          row.lastConsumedSequence = watcher.lastConsumedSequence)
        (ChildWatcher.caughtUp last.sequence notices.length observedAt) store
      if changed = false then
        throw s!"Durable child watcher {watcher.watcherId} changed during catch-up"
      let refreshed ← store.get runtime watcher.watcherId
      return ({ watcher := refreshed
                consumedCount := childEvents.length
                projectedCount := notices.length
                hasMore := hasChildEventsAfter watcher.childRunId last.sequence store
                notices }, store)

structure ReconcileSummary where
  watcherCount : Nat
  consumedCount : Nat
  projectedCount : Nat
  watcherIdsWithMore : List String
  deriving DecidableEq

def ReconcileSummary.empty : ReconcileSummary := ⟨0, 0, 0, []⟩

/-- The summary after the result of one more watcher. -/
def ReconcileSummary.add (watcherId : String) (result : CatchUpResult)
    (summary : ReconcileSummary) : ReconcileSummary where
  watcherCount := summary.watcherCount + 1
  consumedCount := summary.consumedCount + result.consumedCount
  projectedCount := summary.projectedCount + result.projectedCount
  watcherIdsWithMore :=
    if result.hasMore = true then summary.watcherIdsWithMore ++ [watcherId]
    else summary.watcherIdsWithMore

/-- `catchUpWatcherRows`; `observedAt` is the time at which a watcher is caught up. -/
def catchUpWatcherRows (eventLimitPerWatcher : Int) (observedAt : String → String) :
    List String → ReconcileSummary → WatcherStore →
      Except String (ReconcileSummary × WatcherStore)
  | [], summary, store => return (summary, store)
  | watcherId :: rows, summary, store => do
      let (result, store) ← catchUpWatcher runtime watcherId eventLimitPerWatcher
        (observedAt watcherId) store
      catchUpWatcherRows eventLimitPerWatcher observedAt rows (summary.add watcherId result) store

/-- The ids of the attached watchers that a condition selects, in their order. -/
def listAttached (condition : ChildWatcher → Bool) (limit : Nat) (store : WatcherStore) :
    List String :=
  (((store.watchers.filter fun row => row.state = .attached ∧ condition row = true).map
    ChildWatcher.watcherId).insertionSort fun a b => runtime.idLe a b = true).take limit

/-- The watchers after the cursor, and when they are few the ones up to it. -/
def scanRows (cursor : String) (watcherLimit : Nat) (store : WatcherStore) : List String :=
  let rows := listAttached runtime (fun row => !runtime.idLe row.watcherId cursor) watcherLimit
    store
  if rows.length < watcherLimit then
    rows ++ listAttached runtime (fun row => runtime.idLe row.watcherId cursor)
      (watcherLimit - rows.length) store
  else rows

def catchUpAttached (watcherLimit eventLimitPerWatcher : Option Int)
    (observedAt : String → String) (store : WatcherStore) :
    Except String (ReconcileSummary × WatcherStore) := do
  let cursor ← getScanCursorForUpdate store
  let rows := scanRows runtime cursor (clampLimit (watcherLimit.getD 100) 500) store
  let (summary, store) ← catchUpWatcherRows runtime (eventLimitPerWatcher.getD 100) observedAt
    rows .empty store
  match rows.getLast? with
  | some last => return (summary, { store with scanCursor := some last })
  | none => return (summary, store)

/-- The watchers that `catchUpAttachedByChild` catches up, each in its own transaction. -/
def childScanRows (childRunId : String) (watcherLimit : Option Int) (store : WatcherStore) :
    Except String (List String) := do
  assertRunIdBounds childRunId
  return listAttached runtime (fun row => row.childRunId = childRunId)
    (clampLimit (watcherLimit.getD 100) 500) store

end Watchers

/-! ## Runs -/

/-- The calls that are made in one transaction. -/
inductive WatcherCall
  | createRun (runId : String)
  | append (input : AppendInput)
  | create (input : CreateInput)
  | detach (watcherId detachedAt : String)
  | detachIfRevision (watcherId parentRunId : String) (expectedRevision : Int)
      (detachedAt : String)
  | reattach (watcherId reattachedAt : String)
  | reattachIfRevision (watcherId parentRunId : String) (expectedRevision : Int)
      (reattachedAt : String)
  | claimControlRevision (watcherId parentRunId : String) (expectedRevision : Int)
      (updatedAt : String)
  | close (watcherId closedAt : String)
  | catchUpWatcher (watcherId : String) (limit : Int) (observedAt : String)
  | catchUpAttached (watcherLimit eventLimitPerWatcher : Option Int)
      (observedAt : String → String)

/-- A call of `catchUpAttachedByChild` between two of its transactions. -/
structure ChildScan where
  remaining : List String
  eventLimitPerWatcher : Int
  summary : ReconcileSummary

structure WatcherSystem where
  store : WatcherStore
  scans : List ChildScan

def WatcherSystem.initial : WatcherSystem where
  store := .initial
  scans := []

inductive WatcherEvent
  | call (call : WatcherCall)
  | catchUpAttachedByChild (childRunId : String) (watcherLimit eventLimitPerWatcher : Option Int)
  | continueScan (index : Nat) (observedAt : String)

section Runs

variable (runtime : WatcherRuntime)

/-- The tables after a call that does not throw. -/
def WatcherCall.perform : WatcherCall → WatcherStore → Except String WatcherStore
  | .createRun runId, store =>
      if runId ∈ store.runs then throw "UNIQUE constraint failed: durable_runs.run_id"
      else return { store with runs := store.runs ++ [runId] }
  | .append input, store => Prod.snd <$> ChildWatchers.append input store
  | .create input, store => Prod.snd <$> ChildWatchers.create runtime input store
  | .detach watcherId detachedAt, store =>
      Prod.snd <$> ChildWatchers.detach runtime watcherId detachedAt store
  | .detachIfRevision watcherId parentRunId expectedRevision detachedAt, store =>
      Prod.snd <$> ChildWatchers.detachIfRevision runtime watcherId parentRunId expectedRevision
        detachedAt store
  | .reattach watcherId reattachedAt, store =>
      Prod.snd <$> ChildWatchers.reattach runtime watcherId reattachedAt store
  | .reattachIfRevision watcherId parentRunId expectedRevision reattachedAt, store =>
      Prod.snd <$> ChildWatchers.reattachIfRevision runtime watcherId parentRunId expectedRevision
        reattachedAt store
  | .claimControlRevision watcherId parentRunId expectedRevision updatedAt, store =>
      Prod.snd <$> ChildWatchers.claimControlRevision runtime watcherId parentRunId
        expectedRevision updatedAt store
  | .close watcherId closedAt, store =>
      Prod.snd <$> ChildWatchers.close runtime watcherId closedAt store
  | .catchUpWatcher watcherId limit observedAt, store =>
      Prod.snd <$> ChildWatchers.catchUpWatcher runtime watcherId limit observedAt store
  | .catchUpAttached watcherLimit eventLimitPerWatcher observedAt, store =>
      Prod.snd <$> ChildWatchers.catchUpAttached runtime watcherLimit eventLimitPerWatcher
        observedAt store

/-- The next watcher of a scan is caught up; a scan that throws ends. -/
def WatcherSystem.continueScan (index : Nat) (observedAt : String) (system : WatcherSystem) :
    WatcherSystem :=
  match system.scans[index]? with
  | none => system
  | some scan =>
      match scan.remaining with
      | [] => { system with scans := system.scans.eraseIdx index }
      | watcherId :: remaining =>
          match catchUpWatcher runtime watcherId scan.eventLimitPerWatcher observedAt
            system.store with
          | .error _ => { system with scans := system.scans.eraseIdx index }
          | .ok (result, store) =>
              let scan : ChildScan :=
                { scan with remaining, summary := scan.summary.add watcherId result }
              { store, scans := system.scans.set index scan }

/-- The system after an event.  A transaction that throws is rolled back. -/
def WatcherSystem.after (event : WatcherEvent) (system : WatcherSystem) : WatcherSystem :=
  match event with
  | .call call =>
      match call.perform runtime system.store with
      | .ok store => { system with store }
      | .error _ => system
  | .catchUpAttachedByChild childRunId watcherLimit eventLimitPerWatcher =>
      match childScanRows runtime childRunId watcherLimit system.store with
      | .ok remaining =>
          let scan : ChildScan :=
            { remaining, eventLimitPerWatcher := eventLimitPerWatcher.getD 100, summary := .empty }
          { system with scans := system.scans ++ [scan] }
      | .error _ => system
  | .continueScan index observedAt => system.continueScan runtime index observedAt

def WatcherSystem.Step (system : WatcherSystem) (event : WatcherEvent)
    (system' : WatcherSystem) : Prop :=
  system' = system.after runtime event

end Runs

end GoatCitadel.Storage.ChildWatchers
