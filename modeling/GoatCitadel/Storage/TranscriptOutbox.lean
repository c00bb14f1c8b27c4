import GoatCitadel.Storage.TranscriptLog
import GoatCitadel.Support.Keyset
import GoatCitadel.Support.Runs
import Mathlib.Data.List.Sort
import Mathlib.Logic.Function.Basic

/-!
# The transcript outbox

An event is committed as a row of the outbox, together with the message it belongs to, and
delivered later: a drain of its session appends it to the transcript and marks the row.  Each of
the two can fail, and the process can end anywhere, in the middle of a line too; so a drain looks
for the event in the transcript when an earlier attempt has begun.
-/

namespace GoatCitadel.Storage.Transcripts

open GoatCitadel.Support
open GoatCitadel.Policy (JsonObject NumberFormat)

/-- The order of texts in the database. -/
structure DatabaseOrder where
  le : String → String → Bool
  isOrder : TextOrder le

def DatabaseOrder.binary : DatabaseOrder where
  le a b := decide (a ≤ b)
  isOrder := codePoint_textOrder

/-! ## Rows -/

/-- What a commit writes. -/
structure OutboxEntry (format : NumberFormat) where
  event : TranscriptEvent format
  enqueuedAt : String

structure OutboxRow (format : NumberFormat) extends OutboxEntry format where
  deliveredAt : Option String
  transcriptOffset : Option Nat
  attemptCount : Nat
  lastAttemptAt : Option String
  lastError : Option String

section Rows

variable {format : NumberFormat}

def OutboxEntry.eventId (entry : OutboxEntry format) : String :=
  entry.event.eventId

def OutboxEntry.sessionId (entry : OutboxEntry format) : String :=
  entry.event.sessionId

/-- `event_json` -/
def OutboxEntry.eventJson (entry : OutboxEntry format) : String :=
  String.ofList entry.event.text

/-- `record.event`, read from `event_json`. -/
def OutboxEntry.recordEvent (entry : OutboxEntry format) : JsonObject :=
  parseTranscriptEvent format entry.eventJson

/-- `ORDER BY enqueued_at ASC, event_id ASC` -/
def notAfter (order : DatabaseOrder) (a b : OutboxEntry format) : Bool :=
  if a.enqueuedAt = b.enqueuedAt then order.le a.eventId b.eventId
  else order.le a.enqueuedAt b.enqueuedAt

def newRow (event : TranscriptEvent format) (enqueuedAt : String) : OutboxRow format :=
  { event, enqueuedAt, deliveredAt := none, transcriptOffset := none, attemptCount := 0,
    lastAttemptAt := none, lastError := none }

/-- `UPDATE transcript_outbox … WHERE event_id = @eventId` -/
def updateRow (rows : List (OutboxRow format)) (eventId : String)
    (change : OutboxRow format → OutboxRow format) : List (OutboxRow format) :=
  rows.map fun row => if row.eventId = eventId then change row else row

def markAttemptStarted (attemptedAt : String) (row : OutboxRow format) : OutboxRow format :=
  if row.deliveredAt.isNone = true then { row with lastAttemptAt := some attemptedAt } else row

def markDelivered (deliveredAt : String) (transcriptOffset : Nat) (row : OutboxRow format) :
    OutboxRow format :=
  { row with
    deliveredAt := some deliveredAt
    transcriptOffset := some transcriptOffset
    lastAttemptAt := some deliveredAt
    lastError := none }

def markFailed (lastAttemptAt lastError : String) (row : OutboxRow format) : OutboxRow format :=
  if row.deliveredAt.isNone = true then
    { row with
      attemptCount := row.attemptCount + 1
      lastAttemptAt := some lastAttemptAt
      lastError := some lastError }
  else row

/-- The pending rows of a session.  Without a session the listing has the rows of all; the
identifiers of sessions are not empty. -/
def listPending (order : DatabaseOrder) (rows : List (OutboxRow format)) (limit : Nat)
    (sessionId : String) : List (OutboxRow format) :=
  ((rows.filter fun row => row.deliveredAt.isNone && row.sessionId == sessionId).insertionSort
    fun a b => notAfter order a.toOutboxEntry b.toOutboxEntry = true).take limit

end Rows

/-! ## Drains -/

/-- Where a drain is with a record. -/
inductive Phase (format : NumberFormat)
  /-- An earlier attempt may have appended the event. -/
  | search (record : OutboxRow format)
  | attempt (record : OutboxRow format)
  | append (record : OutboxRow format)
  | mark (record : OutboxRow format) (offset : Nat)
  /-- An error was thrown. -/
  | fail (record : OutboxRow format)
  | report

/-- `flushTranscriptOutboxSession`, between two of its statements. -/
structure Drain (format : NumberFormat) where
  target : Option String
  targetWasPending : Bool
  phase : Phase format
  rest : List (OutboxRow format)
  deliveredCount : Nat
  targetOffset : Nat

section Drains

variable {format : NumberFormat}

/-- How a record begins. -/
def Phase.first (record : OutboxRow format) : Phase format :=
  if record.lastAttemptAt.isSome = true then .search record else .attempt record

/-- The record that is not appended yet. -/
def Phase.listed : Phase format → List (OutboxRow format)
  | .search record => [record]
  | .attempt record => [record]
  | .append record => [record]
  | _ => []

/-- The record that an error is about. -/
def Phase.record? : Phase format → Option (OutboxRow format)
  | .search record => some record
  | .attempt record => some record
  | .append record => some record
  | .mark record _ => some record
  | _ => none

/-- Goes on to the next record. -/
def Drain.next (drain : Drain format) : Drain format :=
  match drain.rest with
  | [] => { drain with phase := .report }
  | record :: rest => { drain with phase := .first record, rest }

/-- The records that the drain goes on to; after an error it goes on to none. -/
def Drain.queue (drain : Drain format) : List (OutboxRow format) :=
  match drain.phase with
  | .fail _ => []
  | .report => []
  | _ => drain.rest

/-- The records that the drain has listed and not appended yet. -/
def Drain.listed (drain : Drain format) : List (OutboxRow format) :=
  drain.phase.listed ++ drain.queue

def startDrain (target : Option String) (pending : List (OutboxRow format)) : Drain format :=
  { target
    targetWasPending := pending.any fun record => some record.eventId == target
    phase := .report
    rest := pending
    deliveredCount := 0
    targetOffset := 0 : Drain format }.next

/-- The phase after the search: the offset of the event, or another attempt. -/
def afterSearch (record : OutboxRow format) (content : List UInt8) : Phase format :=
  match findEventOffset format content record.eventId with
  | some offset => .mark record offset
  | none => .attempt record

def Drain.delivered (drain : Drain format) (record : OutboxRow format) (offset : Nat) :
    Drain format :=
  { drain with
    deliveredCount := drain.deliveredCount + 1
    targetOffset := if some record.eventId = drain.target then offset else drain.targetOffset }.next

/-- The answer of a drain; another drain may have delivered the target before. -/
def Drain.answer (drain : Drain format) (rows : List (OutboxRow format)) : Nat × Nat :=
  let recorded := drain.target.bind fun target =>
    if target = "" ∨ drain.targetWasPending = true then none
    else (rows.find? fun row => row.eventId = target).bind fun row =>
      row.deliveredAt.bind fun _ => row.transcriptOffset
  (drain.deliveredCount, recorded.getD drain.targetOffset)

end Drains

/-! ## Runs -/

/-- The database, the transcripts by their sessions, and the drains that are running.  There is
one process, which runs at most one drain of a session at a time. -/
structure World (format : NumberFormat) where
  rows : List (OutboxRow format)
  files : String → Option (List UInt8)
  drains : String → Option (Drain format)

/-- What happens.  Where an append does not come to its end, `landed` is the number of bytes that
are in the file, and `none` if the file was not opened. -/
inductive Label (format : NumberFormat)
  | commit (event : TranscriptEvent format) (enqueuedAt : String)
  | start (sessionId : String) (target : Option String) (limit : Nat)
  | search (sessionId : String)
  | attempt (sessionId attemptedAt : String)
  | append (sessionId : String)
  | appendFails (sessionId : String) (landed : Option Nat)
  | mark (sessionId deliveredAt : String)
  | throw (sessionId : String)
  | fail (sessionId lastAttemptAt lastError : String)
  | finish (sessionId : String) (answer : Nat × Nat)
  | abort (sessionId : String)
  | crash (landed : String → Option Nat)

section World

variable {format : NumberFormat}

def World.empty : World format :=
  ⟨[], fun _ => none, fun _ => none⟩

def World.content (world : World format) (sessionId : String) : List UInt8 :=
  (world.files sessionId).getD []

/-- What the log reads; where there is no file it throws. -/
def World.transcript (world : World format) (sessionId : String) : List JsonObject :=
  read format (world.content sessionId)

def World.setDrain (world : World format) (sessionId : String) (drain : Option (Drain format)) :
    World format :=
  { world with drains := Function.update world.drains sessionId drain }

/-- The bytes that an append of the record writes. -/
def recordLine (record : OutboxRow format) : List UInt8 :=
  utf8Encode (eventLine record.recordEvent)

/-- The file after some bytes of the line of the record. -/
def landedFile (file : Option (List UInt8)) (record : OutboxRow format) :
    Option Nat → Option (List UInt8)
  | none => file
  | some landed => some (file.getD [] ++ (recordLine record).take landed)

/-- Appends to the transcript of the session of the event. -/
def World.land (world : World format) (record : OutboxRow format) (landed : Option Nat) :
    World format :=
  let sessionId := textMember record.recordEvent "sessionId"
  { world with
    files := Function.update world.files sessionId
      (landedFile (world.files sessionId) record landed) }

def World.updateRow (world : World format) (record : OutboxRow format)
    (change : OutboxRow format → OutboxRow format) : World format :=
  { world with rows := Transcripts.updateRow world.rows record.eventId change }

theorem drains_setDrain (world : World format) (sessionId : String)
    (drain : Option (Drain format)) : (world.setDrain sessionId drain).drains sessionId = drain :=
  Function.update_self _ _ _

theorem content_setDrain (world : World format) (sessionId other : String)
    (drain : Option (Drain format)) :
    (world.setDrain sessionId drain).content other = world.content other := rfl

theorem content_updateRow (world : World format) (record : OutboxRow format)
    (change : OutboxRow format → OutboxRow format) (sessionId : String) :
    (world.updateRow record change).content sessionId = world.content sessionId := rfl

/-- What the end of the process leaves of an append. -/
def crashedFile (file : Option (List UInt8)) (drain : Option (Drain format))
    (landed : Option Nat) : Option (List UInt8) :=
  match drain.map Drain.phase with
  | some (.append record) => landedFile file record landed
  | _ => file

def World.crash (world : World format) (landed : String → Option Nat) : World format where
  rows := world.rows
  files sessionId :=
    crashedFile (world.files sessionId) (world.drains sessionId) (landed sessionId)
  drains _ := none

inductive Step (order : DatabaseOrder) : World format → Label format → World format → Prop
  | commit {world : World format} {event : TranscriptEvent format} {enqueuedAt : String} :
      (∀ row ∈ world.rows, row.eventId ≠ event.eventId) →
      Step order world (.commit event enqueuedAt)
        { world with rows := world.rows ++ [newRow event enqueuedAt] }
  /-- `ON CONFLICT(event_id) DO NOTHING` -/
  | conflict {world : World format} {event : TranscriptEvent format} {enqueuedAt : String}
      {row : OutboxRow format} : row ∈ world.rows → row.eventId = event.eventId →
      Step order world (.commit event enqueuedAt) world
  | start {world : World format} {sessionId : String} {target : Option String} {limit : Nat} :
      sessionId ≠ "" → world.drains sessionId = none →
      Step order world (.start sessionId target limit)
        (world.setDrain sessionId
          (some (startDrain target (listPending order world.rows limit sessionId))))
  | search {world : World format} {sessionId : String} {drain : Drain format}
      {record : OutboxRow format} : world.drains sessionId = some drain →
      drain.phase = .search record →
      Step order world (.search sessionId)
        (world.setDrain sessionId
          (some { drain with phase := afterSearch record (world.content record.sessionId) }))
  | attempt {world : World format} {sessionId attemptedAt : String} {drain : Drain format}
      {record : OutboxRow format} : world.drains sessionId = some drain →
      drain.phase = .attempt record →
      Step order world (.attempt sessionId attemptedAt)
        ((world.updateRow record (markAttemptStarted attemptedAt)).setDrain sessionId
          (some { drain with phase := .append record }))
  | append {world : World format} {sessionId : String} {drain : Drain format}
      {record : OutboxRow format} : world.drains sessionId = some drain →
      drain.phase = .append record →
      Step order world (.append sessionId)
        ((world.land record (some (recordLine record).length)).setDrain sessionId
          (some { drain with
            phase :=
              .mark record (world.content (textMember record.recordEvent "sessionId")).length }))
  | appendFails {world : World format} {sessionId : String} {landed : Option Nat}
      {drain : Drain format} {record : OutboxRow format} :
      world.drains sessionId = some drain → drain.phase = .append record →
      Step order world (.appendFails sessionId landed)
        ((world.land record landed).setDrain sessionId
          (some { drain with phase := .fail record }))
  | mark {world : World format} {sessionId deliveredAt : String} {drain : Drain format}
      {record : OutboxRow format} {offset : Nat} : world.drains sessionId = some drain →
      drain.phase = .mark record offset →
      Step order world (.mark sessionId deliveredAt)
        ((world.updateRow record (markDelivered deliveredAt offset)).setDrain sessionId
          (some (drain.delivered record offset)))
  /-- Another statement throws, and has changed nothing. -/
  | throw {world : World format} {sessionId : String} {drain : Drain format}
      {record : OutboxRow format} : world.drains sessionId = some drain →
      drain.phase.record? = some record →
      Step order world (.throw sessionId)
        (world.setDrain sessionId (some { drain with phase := .fail record }))
  | fail {world : World format} {sessionId lastAttemptAt lastError : String}
      {drain : Drain format} {record : OutboxRow format} :
      world.drains sessionId = some drain → drain.phase = .fail record →
      Step order world (.fail sessionId lastAttemptAt lastError)
        ((world.updateRow record (markFailed lastAttemptAt lastError)).setDrain sessionId
          (some { drain with phase := .report }))
  | finish {world : World format} {sessionId : String} {drain : Drain format} :
      world.drains sessionId = some drain → drain.phase = .report →
      Step order world (.finish sessionId (drain.answer world.rows))
        (world.setDrain sessionId none)
  /-- The database throws where nothing catches it. -/
  | abort {world : World format} {sessionId : String} {drain : Drain format} :
      world.drains sessionId = some drain → drain.phase.record? = none →
      Step order world (.abort sessionId) (world.setDrain sessionId none)
  | crash {world : World format} {landed : String → Option Nat} :
      Step order world (.crash landed) (world.crash landed)

end World

end GoatCitadel.Storage.Transcripts
