import GoatCitadel.Contracts.CanonicalJson
import GoatCitadel.RemoteWorker.BudgetRecords
import GoatCitadel.Support.Alignment
import Mathlib.Data.Nat.Digits.Defs

/-!
# Disk layouts of worker cells

A native worker partitions the virtual disk of its cell in four recorded phases.  The plan
fixes the sizes and the identifiers; a record of 512 bytes is read against it, and from the
second phase on it holds what was found on the disk: the usable range, the reserved partition
and the data partition.  Every failure is the same error, so that a reading is `none` there.

Texts are lists of UTF-16 code units and bytes are numbers below 256.
-/

namespace GoatCitadel.RemoteWorker

open GoatCitadel.Support
open GoatCitadel.Contracts (hexUnit CanonicalValue canonicalJsonString)

/-- `REMOTE_WORKER_CELL_DISK_LAYOUT_PLAN_SCHEMA_VERSION` -/
def diskLayoutPlanSchemaVersion : List Nat :=
  utf16Units "goatcitadel.remote-worker-cell-disk-layout-plan.v1"

/-- `REMOTE_WORKER_CELL_DISK_LAYOUT_RECORD_BYTES` -/
def diskLayoutRecordBytes : Nat := 512

/-- `REMOTE_WORKER_CELL_DISK_LAYOUT_PHASES` -/
inductive DiskLayoutPhase
  | initializeIntent
  | initialized
  | partitionIntent
  | partitioned
  deriving DecidableEq

def mib : Nat := 1024 * 1024

/-! ## Values that are not trusted -/

inductive Untrusted
  | text (units : List Nat)
  | number (value : Number)
  /-- An object without a prototype of its own: its properties, `none` for those that are not
  enumerable or have accessors, and the number of its symbols. -/
  | record (properties : List (List Nat × Option Untrusted)) (symbols : Nat)
  | other

abbrev Properties := List (List Nat × Option Untrusted)

/-- The value of a property. -/
def Properties.value (properties : Properties) (name : String) : Option Untrusted :=
  (properties.lookup (utf16Units name)).join

/-- `object`: exactly the named properties. -/
def objectProperties (input : Untrusted) (names : List String) : Option Properties :=
  match input with
  | .record properties symbols =>
      if properties.length + symbols ≠ names.length ∨
          names.any (fun name => (Properties.value properties name).isNone) = true then none
      else some properties
  | _ => none

def textValue : Option Untrusted → Option (List Nat)
  | some (.text units) => some units
  | _ => none

/-- `Number.isSafeInteger` -/
def safeIntegerValue : Option Untrusted → Option Int
  | some (.number value) => safeInteger? value
  | _ => none

/-! ## Hexadecimal texts -/

/-- `[0-9a-f]` -/
def isHexUnit (unit : Nat) : Bool :=
  (48 ≤ unit && unit ≤ 57) || (97 ≤ unit && unit ≤ 102)

/-- `/^0+$/` -/
def isZeroText (text : List Nat) : Bool :=
  !text.isEmpty && text.all (· == 48)

/-- `hex` -/
def hexText (input : Option Untrusted) (bytes : Nat) : Option (List Nat) :=
  (textValue input).filter fun text =>
    text.length == bytes * 2 && !text.isEmpty && text.all isHexUnit && !isZeroText text

/-- `identity` -/
def identityText (input : Option Untrusted) : Option (List Nat) :=
  (hexText input 24).filter fun value =>
    !isZeroText (value.take 16) && !isZeroText (value.drop 16)

def hexUnitValue (unit : Nat) : Option Nat :=
  if 48 ≤ unit ∧ unit ≤ 57 then some (unit - 48)
  else if 97 ≤ unit ∧ unit ≤ 102 then some (unit - 87)
  else if 65 ≤ unit ∧ unit ≤ 70 then some (unit - 55)
  else none

def hexToBytes : List Nat → Option (List Nat)
  | [] => some []
  | high :: low :: rest => do
      let high ← hexUnitValue high
      let low ← hexUnitValue low
      let bytes ← hexToBytes rest
      some ((high * 16 + low) :: bytes)
  | [_] => none

def bytesToHex (bytes : List Nat) : List Nat :=
  bytes.flatMap fun byte => [hexUnit (byte / 16), hexUnit (byte % 16)]

/-! ## Plans -/

structure DiskLayoutSeed where
  provisioningPlanSha256 : List Nat
  assignmentBindingSha256 : List Nat
  profileSha256 : List Nat
  diskIdentifierHex : List Nat
  virtualDiskBytes : Nat
  reservedDiskBytes : Nat
  controlIdentityHex : List Nat
  backingIdentityHex : List Nat

structure DiskLayoutPlan extends DiskLayoutSeed where
  schemaVersion : List Nat
  gptDiskIdentifierHex : List Nat
  dataPartitionIdentifierHex : List Nat

def seedKeys : List String :=
  ["provisioningPlanSha256", "assignmentBindingSha256", "profileSha256", "diskIdentifierHex",
    "virtualDiskBytes", "reservedDiskBytes", "controlIdentityHex", "backingIdentityHex"]

/-- The sizes of the disk in bytes.  Where the sum of the source is rounded it is larger than
every safe integer. -/
def diskSizes (virtual reserved : Option Untrusted) : Option (Nat × Nat) := do
  let virtual ← safeIntegerValue virtual
  let reserved ← safeIntegerValue reserved
  if virtual < 64 * mib ∨ virtual % (2 * mib) ≠ 0 ∨ reserved < virtual + 64 * mib ∨
      1024 ^ 4 < reserved then
    none
  else some (virtual.toNat, reserved.toNat)

section

variable (sha256BytesHex : List Nat → List Nat)

/-- `identifier`: a GUID in the byte order of the platform. -/
def identifier (seed : DiskLayoutSeed) (role : Nat) : Option (List Nat) := do
  let assignmentBinding ← hexToBytes seed.assignmentBindingSha256
  let profile ← hexToBytes seed.profileSha256
  let diskIdentifier ← hexToBytes seed.diskIdentifierHex
  let bytes := utf16Units "goatcitadel.native-cell-gpt.v1\x00" ++ assignmentBinding ++ profile ++
    diskIdentifier ++ [role]
  let guid ← hexToBytes ((sha256BytesHex bytes).take 32)
  some (bytesToHex ((guid.modify 7 fun byte => byte &&& 0x0F ||| 0x80).modify 8
    fun byte => byte &&& 0x3F ||| 0x80))

def readSeed (properties : Properties) : Option DiskLayoutSeed := do
  let (virtual, reserved) ← diskSizes (properties.value "virtualDiskBytes")
    (properties.value "reservedDiskBytes")
  let provisioningPlan ← hexText (properties.value "provisioningPlanSha256") 32
  let assignmentBinding ← hexText (properties.value "assignmentBindingSha256") 32
  let profile ← hexText (properties.value "profileSha256") 32
  let diskIdentifier ← hexText (properties.value "diskIdentifierHex") 16
  let controlIdentity ← identityText (properties.value "controlIdentityHex")
  let backingIdentity ← identityText (properties.value "backingIdentityHex")
  some
    { provisioningPlanSha256 := provisioningPlan
      assignmentBindingSha256 := assignmentBinding
      profileSha256 := profile
      diskIdentifierHex := diskIdentifier
      virtualDiskBytes := virtual
      reservedDiskBytes := reserved
      controlIdentityHex := controlIdentity
      backingIdentityHex := backingIdentity }

/-- The plan of a seed, when its identifiers differ. -/
def planOfSeed (seed : DiskLayoutSeed) : Option DiskLayoutPlan :=
  if seed.controlIdentityHex = seed.backingIdentityHex ∨
      seed.controlIdentityHex.take 16 ≠ seed.backingIdentityHex.take 16 then
    none
  else do
    let gptDiskIdentifier ← identifier sha256BytesHex seed 1
    let dataPartitionIdentifier ← identifier sha256BytesHex seed 2
    if seed.diskIdentifierHex = gptDiskIdentifier ∨
        seed.diskIdentifierHex = dataPartitionIdentifier ∨
        gptDiskIdentifier = dataPartitionIdentifier then
      none
    else
      some
        { seed with
          schemaVersion := diskLayoutPlanSchemaVersion
          gptDiskIdentifierHex := gptDiskIdentifier
          dataPartitionIdentifierHex := dataPartitionIdentifier }

/-- `createRemoteWorkerCellDiskLayoutPlan` -/
def createDiskLayoutPlan (input : Untrusted) : Option DiskLayoutPlan :=
  ((objectProperties input seedKeys).bind readSeed).bind (planOfSeed sha256BytesHex)

/-- `normalizeRemoteWorkerCellDiskLayoutPlan` -/
def normalizeDiskLayoutPlan (input : Untrusted) : Option DiskLayoutPlan :=
  (objectProperties input
    (["schemaVersion"] ++ seedKeys ++ ["gptDiskIdentifierHex", "dataPartitionIdentifierHex"])).bind
    fun properties =>
      (createDiskLayoutPlan sha256BytesHex
        (.record (seedKeys.map fun key => (utf16Units key, properties.value key)) 0)).filter
        fun expected =>
          textValue (properties.value "schemaVersion") = some expected.schemaVersion &&
            textValue (properties.value "gptDiskIdentifierHex") =
              some expected.gptDiskIdentifierHex &&
            textValue (properties.value "dataPartitionIdentifierHex") =
              some expected.dataPartitionIdentifierHex

end

/-! ## Records -/

/-- `getUint16`, `getUint32` and `getBigUint64`, the lowest byte first. -/
def unsignedAt (bytes : List Nat) (offset length : Nat) : Nat :=
  Nat.ofDigits 256 ((bytes.drop offset).take length)

/-- `integer` -/
def integerAt (bytes : List Nat) (offset : Nat) : Option Nat :=
  if unsignedAt bytes offset 8 ≤ maxSafeInteger then some (unsignedAt bytes offset 8) else none

/-- `at` -/
def hexAt (recordHex : List Nat) (offset length : Nat) : List Nat :=
  (recordHex.drop (offset * 2)).take (length * 2)

def zerosAt (bytes : List Nat) (offset length : Nat) : Bool :=
  ((bytes.drop offset).take length).all (· == 0)

/-- `text`: letters up to a zero, and zeros behind it. -/
def textAt (bytes : List Nat) (offset : Nat) : Option (List Nat) :=
  let letters := (List.range 36).map fun index => unsignedAt bytes (offset + index * 2) 2
  let front := letters.takeWhile (· != 0)
  let back := letters.dropWhile (· != 0)
  if back.isEmpty || !back.all (· == 0) ||
      front.any (fun value => value < 32 || value == 127) then
    none
  else some front

structure DiskLayoutSnapshot where
  usableStart : Nat
  usableLength : Nat
  reservedPartitionIdentifierHex : List Nat
  reservedStart : Nat
  reservedLength : Nat
  reservedAttributes : Nat
  reservedName : List Nat
  dataStart : Nat
  dataLength : Nat

structure DiskLayoutCheckpoint where
  sequence : Nat
  phase : DiskLayoutPhase
  recordHex : List Nat
  recordSha256 : List Nat
  previousRecordSha256 : List Nat
  plan : DiskLayoutPlan
  snapshot : Option DiskLayoutSnapshot

/-- `REMOTE_WORKER_CELL_DISK_LAYOUT_PHASES[sequence - 1]` -/
def phaseOf : Nat → DiskLayoutPhase
  | 1 => .initializeIntent
  | 2 => .initialized
  | 3 => .partitionIntent
  | _ => .partitioned

def sequenceOf (bytes : List Nat) : Nat := unsignedAt bytes 8 4

/-- The part of the record that every phase has. -/
def headerAccepted (sha256BytesHex : List Nat → List Nat) (plan : DiskLayoutPlan)
    (recordHex bytes : List Nat) : Bool :=
  hexAt recordHex 0 8 == utf16Units "4743434750543031" &&
    1 ≤ sequenceOf bytes && sequenceOf bytes ≤ 4 && unsignedAt bytes 12 4 == 0 &&
    sha256BytesHex (bytes.take 480) == hexAt recordHex 480 32 &&
    (sequenceOf bytes == 1) == isZeroText (hexAt recordHex 16 32) &&
    zerosAt bytes 392 88 && unsignedAt bytes 388 4 == 512 &&
    hexAt recordHex 48 16 == plan.diskIdentifierHex &&
    integerAt bytes 64 == some plan.virtualDiskBytes &&
    integerAt bytes 72 == some plan.reservedDiskBytes &&
    hexAt recordHex 80 24 == plan.controlIdentityHex &&
    hexAt recordHex 104 24 == plan.backingIdentityHex &&
    hexAt recordHex 128 16 == plan.gptDiskIdentifierHex &&
    hexAt recordHex 144 16 == plan.dataPartitionIdentifierHex

def readSnapshot (recordHex bytes : List Nat) : Option DiskLayoutSnapshot := do
  let usableStart ← integerAt bytes 160
  let usableLength ← integerAt bytes 168
  let reservedPartitionIdentifier ← hexText (some (.text (hexAt recordHex 180 16))) 16
  let reservedStart ← integerAt bytes 196
  let reservedLength ← integerAt bytes 204
  let reservedAttributes ← integerAt bytes 212
  let reservedName ← textAt bytes 220
  let dataStart ← integerAt bytes 292
  let dataLength ← integerAt bytes 300
  some
    { usableStart := usableStart
      usableLength := usableLength
      reservedPartitionIdentifierHex := reservedPartitionIdentifier
      reservedStart := reservedStart
      reservedLength := reservedLength
      reservedAttributes := reservedAttributes
      reservedName := reservedName
      dataStart := dataStart
      dataLength := dataLength }

/-- What is left of the usable range behind a place; it may be negative. -/
def remainingBehind (snapshot : DiskLayoutSnapshot) (dataStart : Nat) : Int :=
  snapshot.usableStart + snapshot.usableLength - dataStart

/-- The snapshot fits the plan and the other fields of the record. -/
def snapshotAccepted (plan : DiskLayoutPlan) (bytes : List Nat)
    (snapshot : DiskLayoutSnapshot) : Bool :=
  unsignedAt bytes 176 4 == 128 &&
    snapshot.usableStart == 34 * 512 &&
    (snapshot.usableLength : Int) == plan.virtualDiskBytes - 67 * 512 &&
    snapshot.reservedPartitionIdentifierHex != plan.gptDiskIdentifierHex &&
    snapshot.reservedPartitionIdentifierHex != plan.dataPartitionIdentifierHex &&
    snapshot.usableStart ≤ snapshot.reservedStart && snapshot.reservedStart ≤ mib &&
    snapshot.reservedStart % 512 == 0 &&
    (snapshot.reservedLength == 16 * mib || snapshot.reservedLength == 32 * mib ||
      snapshot.reservedLength == 128 * mib) &&
    snapshot.reservedAttributes ≤ 1 &&
    unsignedAt bytes 308 8 == 0x8000000000000000 &&
    textAt bytes 316 == some (utf16Units "GoatCitadel cell")

/-- The data partition begins at the first whole MiB behind the reserved one and takes every
whole MiB that is left. -/
def dataAccepted (snapshot : DiskLayoutSnapshot) : Bool :=
  let dataStart := alignUp mib (snapshot.reservedStart + snapshot.reservedLength)
  let remaining := remainingBehind snapshot dataStart
  (16 * mib : Int) ≤ remaining && snapshot.dataStart == dataStart &&
    snapshot.dataLength == alignDown mib remaining.toNat

/-- The snapshot of a record; the first one has none. -/
def snapshotInRecord (plan : DiskLayoutPlan) (recordHex bytes : List Nat) :
    Option (Option DiskLayoutSnapshot) :=
  if sequenceOf bytes = 1 then
    if zerosAt bytes 160 228 = true then some none else none
  else
    ((readSnapshot recordHex bytes).filter fun snapshot =>
      snapshotAccepted plan bytes snapshot && dataAccepted snapshot).map some

section

variable (sha256BytesHex : List Nat → List Nat)

/-- The checkpoint in the bytes of a record. -/
def checkpointOf (plan : DiskLayoutPlan) (recordHex bytes : List Nat) :
    Option DiskLayoutCheckpoint :=
  if headerAccepted sha256BytesHex plan recordHex bytes = true then
    (snapshotInRecord plan recordHex bytes).map fun snapshot =>
      { sequence := sequenceOf bytes
        phase := phaseOf (sequenceOf bytes)
        recordHex := recordHex
        recordSha256 := hexAt recordHex 480 32
        previousRecordSha256 := hexAt recordHex 16 32
        plan := plan
        snapshot := snapshot }
  else none

/-- `readRemoteWorkerCellDiskLayoutCheckpoint` -/
def readDiskLayoutCheckpoint (expectedPlan input : Untrusted) : Option DiskLayoutCheckpoint :=
  (normalizeDiskLayoutPlan sha256BytesHex expectedPlan).bind fun plan =>
    (hexText (some input) diskLayoutRecordBytes).bind fun recordHex =>
      (hexToBytes recordHex).bind (checkpointOf sha256BytesHex plan recordHex)

end

/-! ## Successors -/

/-- `JSON.stringify` of an integer below 10^21; a snapshot has no other numbers. -/
def integerText (value : ℚ) : List Nat :=
  utf16Units (toString value.num)

/-- The members of the snapshot, in the order in which it is built. -/
def diskSnapshotMembers (snapshot : DiskLayoutSnapshot) : List (List Nat × CanonicalValue) :=
  [(utf16Units "usableStart", .number (.finite snapshot.usableStart)),
    (utf16Units "usableLength", .number (.finite snapshot.usableLength)),
    (utf16Units "reservedPartitionIdentifierHex", .text snapshot.reservedPartitionIdentifierHex),
    (utf16Units "reservedStart", .number (.finite snapshot.reservedStart)),
    (utf16Units "reservedLength", .number (.finite snapshot.reservedLength)),
    (utf16Units "reservedAttributes", .number (.finite snapshot.reservedAttributes)),
    (utf16Units "reservedName", .text snapshot.reservedName),
    (utf16Units "dataStart", .number (.finite snapshot.dataStart)),
    (utf16Units "dataLength", .number (.finite snapshot.dataLength))]

/-- `canonicalJsonString(snapshot)` -/
def diskSnapshotText : Option DiskLayoutSnapshot → Except (List Nat) (List Nat)
  | none => canonicalJsonString integerText .null
  | some snapshot => canonicalJsonString integerText (.object (diskSnapshotMembers snapshot))

/-- The record follows the prior one. -/
def follows (checked : DiskLayoutCheckpoint) : Option DiskLayoutCheckpoint → Bool
  | none =>
      checked.sequence == 1 && checked.previousRecordSha256 == List.replicate 64 48
  | some prior =>
      checked.sequence == prior.sequence + 1 &&
        checked.previousRecordSha256 == prior.recordSha256 &&
        (prior.snapshot.isNone ||
          decide (diskSnapshotText checked.snapshot = diskSnapshotText prior.snapshot))

section

variable (sha256BytesHex : List Nat → List Nat)

/-- The record of the previous checkpoint, read again. -/
def readPrevious (expectedPlan : Untrusted) :
    Option DiskLayoutCheckpoint → Option (Option DiskLayoutCheckpoint)
  | none => some none
  | some previous =>
      (readDiskLayoutCheckpoint sha256BytesHex expectedPlan (.text previous.recordHex)).map some

/-- `assertRemoteWorkerCellDiskLayoutSuccessor` does not throw. -/
def isDiskLayoutSuccessor (expectedPlan : Untrusted) (previous : Option DiskLayoutCheckpoint)
    (next : DiskLayoutCheckpoint) : Bool :=
  (readDiskLayoutCheckpoint sha256BytesHex expectedPlan (.text next.recordHex)).any fun checked =>
    (readPrevious sha256BytesHex expectedPlan previous).any (follows checked)

end

end GoatCitadel.RemoteWorker
