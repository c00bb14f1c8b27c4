import GoatCitadel.RemoteWorker.OutboxTexts
import GoatCitadel.Support.Base64Url

/-!
# The persisted intents of a lease

A worker writes what it is going to ask of the Gateway before it asks, so that a request whose
answer is lost is sent again as it was.  The text it wrote is checked when it is read again, and
the lease that comes of it is checked once more by the vault that retains it.
-/

namespace GoatCitadel.RemoteWorker

open GoatCitadel.Support
open GoatCitadel.Policy (JsonObject JsonValue NumberFormat Readable arrayIndex? jsonParse
  jsonParse_stringify ownOrder readable_object readable_string relisted)

/-! ## Records -/

structure LeaseBinding where
  registryWorkspaceId : String
  assignmentId : String
  assignmentGeneration : Nat
  leaseRevision : Nat
  leaseToken : String

structure PendingClaim where
  registryWorkspaceId : String
  assignmentId : String
  leaseToken : String
  idempotencyKey : String

structure PendingRenewal where
  lease : LeaseBinding
  nextLeaseToken : String
  workerSentThrough : Nat
  idempotencyKey : String

/-- `RetainedAssignmentLease` -/
structure RetainedLease where
  assignmentId : String
  rawLeaseToken : String
  leaseRevision : Nat
  assignmentGeneration : Nat

inductive LeaseError
  /-- `invalid` -/
  | custody (message : String)
  /-- `WorkerCredentialVaultError` -/
  | vault (message : String)

/-! ## Checks -/

def isAlphanumeric (c : Char) : Bool :=
  c.isDigit || ('a' ≤ c && c ≤ 'z') || ('A' ≤ c && c ≤ 'Z')

def isIdentifierChar (c : Char) : Bool :=
  isAlphanumeric c || c = '.' || c = '_' || c = ':' || c = '-'

/-- `IDENTIFIER` of the owner: `/^[A-Za-z0-9][A-Za-z0-9._:-]{0,511}$/u` -/
def isIdentifier (text : String) : Bool :=
  text.toList.length ≤ 512 && text.toList.head?.any isAlphanumeric &&
    text.toList.all isIdentifierChar

/-- `IDENTIFIER` of the vault: `/^[A-Za-z0-9](?:[A-Za-z0-9._:-]{0,510}[A-Za-z0-9])?$/u` -/
def isVaultIdentifier (text : String) : Bool :=
  isIdentifier text && text.toList.getLast?.any isAlphanumeric

/-- `SECRET`, and `BASE64URL_32` of the vault -/
def isLeaseSecret (text : String) : Bool :=
  text.toList.length = 43 && text.toList.all fun c => isAlphanumeric c || c = '_' || c = '-'

/-- `positive`, and `assertPositiveInteger` of the vault -/
def positive (count : Nat) : Bool :=
  1 ≤ count && count ≤ maxSafeInteger

def require (condition : Bool) (error : LeaseError) : Except LeaseError Unit :=
  if condition = true then .ok () else .error error

/-- The value that a check lets through. -/
def orThrow (error : LeaseError) (value : Option α) : Except LeaseError α :=
  match value with
  | some value => .ok value
  | none => .error error

def textOf (value : Option JsonValue) : Option String :=
  value.bind JsonValue.asString?

/-- The safe integer that a value is, when it is one that is not negative. -/
def safeCount (value : Option JsonValue) : Option Nat :=
  match value with
  | some (.number text) =>
      let count := Nat.ofDigitChars 10 text.toList 0
      if toString count = text ∧ count ≤ maxSafeInteger then some count else none
  | _ => none

/-- `assertIdentifier` -/
def assertLeaseIdentifier (value : Option JsonValue) : Except LeaseError String :=
  orThrow (.custody "Lease identity is invalid.") ((textOf value).filter isIdentifier)

/-- `record` -/
def asRecord (value : Option JsonValue) : Except LeaseError JsonObject :=
  match value with
  | some (.object fields) => .ok fields
  | _ => .error (.custody "Lease evidence is not an object.")

def assertLease (value : Option JsonValue) : Except LeaseError LeaseBinding := do
  let lease ← asRecord value
  let registryWorkspaceId ← assertLeaseIdentifier (readMember "registryWorkspaceId" lease)
  let assignmentId ← assertLeaseIdentifier (readMember "assignmentId" lease)
  let assignmentGeneration ← orThrow (.custody "Retained lease binding is invalid.")
    ((safeCount (readMember "assignmentGeneration" lease)).filter positive)
  let leaseRevision ← orThrow (.custody "Retained lease binding is invalid.")
    ((safeCount (readMember "leaseRevision" lease)).filter positive)
  let leaseToken ← orThrow (.custody "Retained lease binding is invalid.")
    ((textOf (readMember "leaseToken" lease)).filter isLeaseSecret)
  return { registryWorkspaceId, assignmentId, assignmentGeneration, leaseRevision, leaseToken }

/-! ## The texts of the intents -/

/-- `VERSION` -/
def leaseIntentVersion : String := "goatcitadel.worker-lease-intent.v1"

def PendingClaim.members (intent : PendingClaim) : JsonObject :=
  [("schemaVersion", .string leaseIntentVersion),
    ("registryWorkspaceId", .string intent.registryWorkspaceId),
    ("assignmentId", .string intent.assignmentId), ("leaseToken", .string intent.leaseToken),
    ("idempotencyKey", .string intent.idempotencyKey)]

def LeaseBinding.members (lease : LeaseBinding) : JsonObject :=
  [("registryWorkspaceId", .string lease.registryWorkspaceId),
    ("assignmentId", .string lease.assignmentId),
    ("assignmentGeneration", countJson lease.assignmentGeneration),
    ("leaseRevision", countJson lease.leaseRevision), ("leaseToken", .string lease.leaseToken)]

def PendingRenewal.members (intent : PendingRenewal) : JsonObject :=
  [("schemaVersion", .string leaseIntentVersion), ("lease", .object intent.lease.members),
    ("nextLeaseToken", .string intent.nextLeaseToken),
    ("workerSentThrough", countJson intent.workerSentThrough),
    ("idempotencyKey", .string intent.idempotencyKey)]

/-- What `resumeOrClaim` writes under `CLAIM_KEY`. -/
def PendingClaim.text (intent : PendingClaim) : String :=
  (JsonValue.object intent.members).stringify

/-- What `renew` writes under `RENEWAL_KEY`. -/
def PendingRenewal.text (intent : PendingRenewal) : String :=
  (JsonValue.object intent.members).stringify

section Parsing

variable (format : NumberFormat)

def parseIntent (raw : String) : Except LeaseError JsonObject :=
  match jsonParse format raw with
  | some (.object fields) => .ok fields
  | _ => .error (.custody "Pending lease evidence cannot be parsed.")

def parseClaim (raw : String) : Except LeaseError PendingClaim := do
  let value ← parseIntent format raw
  let registryWorkspaceId ← assertLeaseIdentifier (readMember "registryWorkspaceId" value)
  let assignmentId ← assertLeaseIdentifier (readMember "assignmentId" value)
  let idempotencyKey ← assertLeaseIdentifier (readMember "idempotencyKey" value)
  require (textOf (readMember "schemaVersion" value) = some leaseIntentVersion)
    (.custody "Pending claim is invalid.")
  let leaseToken ← orThrow (.custody "Pending claim is invalid.")
    ((textOf (readMember "leaseToken" value)).filter isLeaseSecret)
  return { registryWorkspaceId, assignmentId, leaseToken, idempotencyKey }

def parseRenewal (raw : String) : Except LeaseError PendingRenewal := do
  let value ← parseIntent format raw
  let lease ← assertLease (readMember "lease" value)
  let idempotencyKey ← assertLeaseIdentifier (readMember "idempotencyKey" value)
  require (textOf (readMember "schemaVersion" value) = some leaseIntentVersion)
    (.custody "Pending renewal is invalid.")
  let nextLeaseToken ← orThrow (.custody "Pending renewal is invalid.")
    ((textOf (readMember "nextLeaseToken" value)).filter isLeaseSecret)
  let workerSentThrough ← orThrow (.custody "Pending renewal is invalid.")
    (safeCount (readMember "workerSentThrough" value))
  return { lease, nextLeaseToken, workerSentThrough, idempotencyKey }

end Parsing

/-! ## Writing an intent -/

/-- `randomBytes(32)` -/
structure Entropy where
  bytes : List UInt8
  length_eq : bytes.length = 32

def newLeaseSecret (entropy : Entropy) : String :=
  String.ofList ((encodeBase64Url entropy.bytes).map Char.ofNat)

def claimIntent (registryWorkspaceId assignmentId leaseToken : String) : PendingClaim where
  registryWorkspaceId := registryWorkspaceId
  assignmentId := assignmentId
  leaseToken := leaseToken
  idempotencyKey := "claim:" ++ assignmentId

def renewalKey (assignmentId : String) (generation revision : Nat) : String :=
  "renew:" ++ assignmentId ++ ":" ++ toString generation ++ ":" ++ toString revision

def renewalIntent (lease : LeaseBinding) (nextLeaseToken : String) (workerSentThrough : Nat) :
    PendingRenewal where
  lease := lease
  nextLeaseToken := nextLeaseToken
  workerSentThrough := workerSentThrough
  idempotencyKey :=
    renewalKey lease.assignmentId lease.assignmentGeneration lease.leaseRevision

/-- The assignment that the answer to a poll offers. -/
def offeredAssignment (body : JsonObject) : Except LeaseError (Option String) :=
  match readMember "items" body with
  | some (.array []) => return none
  | some (.array [item]) => do
      let offer ← asRecord (some item)
      let assignment ← asRecord (readMember "assignment" offer)
      let assignmentId ← assertLeaseIdentifier (readMember "assignmentId" assignment)
      return some assignmentId
  | _ => throw (.custody "Offer response is invalid.")

/-- The claim that `resumeOrClaim` writes after a poll. -/
def offeredClaim (registryWorkspaceId : String) (body : JsonObject) (entropy : Entropy) :
    Except LeaseError (Option PendingClaim) := do
  match ← offeredAssignment body with
  | none => return none
  | some assignmentId =>
      return some (claimIntent registryWorkspaceId assignmentId (newLeaseSecret entropy))

/-! ## The vault -/

def findLease (assignmentId : String) (leases : List RetainedLease) : Option RetainedLease :=
  leases.find? fun lease => lease.assignmentId = assignmentId

def getLease (assignmentId : String) (leases : List RetainedLease) :
    Except LeaseError RetainedLease :=
  orThrow (.vault s!"No lease is retained for assignment {assignmentId}.")
    (findLease assignmentId leases)

def normalizeLease (lease : RetainedLease) : Except LeaseError RetainedLease := do
  require (isVaultIdentifier lease.assignmentId) (.vault "Worker vault assignmentId is invalid.")
  require (isLeaseSecret lease.rawLeaseToken)
    (.vault "Worker vault rawLeaseToken must be canonical 32-byte base64url.")
  require (positive lease.leaseRevision) (.vault "Worker vault leaseRevision is invalid.")
  require (positive lease.assignmentGeneration)
    (.vault "Worker vault assignmentGeneration is invalid.")
  return lease

/-- A lease may replace the one that is retained: it is not behind it, and at its revision it
is the same. -/
def mayReplace (lease : RetainedLease) (current : Option RetainedLease) : Bool :=
  match current with
  | none => true
  | some current =>
      !(lease.assignmentGeneration < current.assignmentGeneration ||
        (lease.assignmentGeneration = current.assignmentGeneration &&
          (lease.leaseRevision < current.leaseRevision ||
            (lease.leaseRevision = current.leaseRevision &&
              lease.rawLeaseToken ≠ current.rawLeaseToken))))

/-- `Map.prototype.set` under the assignment of a lease. -/
def setLease (lease : RetainedLease) (leases : List RetainedLease) : List RetainedLease :=
  if leases.any (fun other => other.assignmentId = lease.assignmentId) = true then
    leases.map fun other => if other.assignmentId = lease.assignmentId then lease else other
  else leases ++ [lease]

def retainLease (leases : List RetainedLease) (lease : RetainedLease) :
    Except LeaseError (List RetainedLease) := do
  let lease ← normalizeLease lease
  require (mayReplace lease (findLease lease.assignmentId leases))
    (.vault "Retained lease authority cannot move backwards or change at the same revision.")
  return setLease lease leases

/-- The renewal that `renew` writes when none is pending. -/
def beginRenewal (leases : List RetainedLease) (sentThrough : Nat) (lease : LeaseBinding)
    (workerSentThrough : Nat) (entropy : Entropy) : Except LeaseError PendingRenewal := do
  let lease ← assertLease (some (.object lease.members))
  let retained ← getLease lease.assignmentId leases
  require (retained.leaseRevision = lease.leaseRevision &&
      retained.rawLeaseToken = lease.leaseToken &&
      retained.assignmentGeneration = lease.assignmentGeneration)
    (.custody "Cannot renew stale local authority.")
  require (workerSentThrough ≤ maxSafeInteger && sentThrough ≤ workerSentThrough)
    (.custody "Invalid transcript watermark.")
  return renewalIntent lease (newLeaseSecret entropy) workerSentThrough

/-! ## The answer of the Gateway -/

mutual

/-- `String(value)` -/
def jsString : JsonValue → String
  | .null => "null"
  | .bool true => "true"
  | .bool false => "false"
  | .number text => text
  | .string value => value
  | .array items => ",".intercalate (jsStrings items)
  | .object _ => "[object Object]"

/-- The texts that `Array.prototype.join` joins. -/
def jsStrings : List JsonValue → List String
  | [] => []
  | .null :: items => "" :: jsStrings items
  | item :: items => jsString item :: jsStrings items

end

def assertLeaseResponse (body : JsonObject) (binding : LeaseBinding) (revision : Nat)
    (dispositions : List String) : Except LeaseError Unit := do
  let lease ← asRecord (readMember "lease" body)
  let disposition := ((readMember "disposition" body).map jsString).getD "undefined"
  require (dispositions.contains disposition &&
      textOf (readMember "registryWorkspaceId" lease) = some binding.registryWorkspaceId &&
      textOf (readMember "assignmentId" lease) = some binding.assignmentId &&
      safeCount (readMember "assignmentGeneration" lease) = some binding.assignmentGeneration &&
      safeCount (readMember "leaseRevision" lease) = some revision)
    (.custody "Gateway lease receipt does not match the pending operation.")

def leaseWatermark (body : JsonObject) : Except LeaseError Nat := do
  let lease ← asRecord (readMember "lease" body)
  orThrow (.custody "Gateway transcript watermark is invalid.")
    (safeCount (readMember "workerSentThrough" lease))

/-- The lease that `commitClaim` makes of the answer to a claim. -/
def claimedLease (intent : PendingClaim) (body : JsonObject) : Except LeaseError LeaseBinding := do
  let generation ← asRecord (readMember "generation" body)
  let assignmentGeneration ← orThrow (.custody "Claim generation is invalid.")
    ((safeCount (readMember "assignmentGeneration" generation)).filter positive)
  let lease : LeaseBinding :=
    { registryWorkspaceId := intent.registryWorkspaceId, assignmentId := intent.assignmentId,
      assignmentGeneration, leaseRevision := 1, leaseToken := intent.leaseToken }
  assertLeaseResponse body lease 1 ["started", "replayed_without_lease_secret"]
  let _ ← leaseWatermark body
  return lease

/-- What `commitClaim` gives the vault. -/
def LeaseBinding.retained (lease : LeaseBinding) : RetainedLease where
  assignmentId := lease.assignmentId
  rawLeaseToken := lease.leaseToken
  leaseRevision := lease.leaseRevision
  assignmentGeneration := lease.assignmentGeneration

/-! ## Identifiers and secrets -/

variable {assignmentId registryWorkspaceId : String} {entropy : Entropy} {error : LeaseError}
  {lease : LeaseBinding}

theorem isIdentifier_iff {text : String} :
    isIdentifier text = true ↔ text.toList.length ≤ 512 ∧
      text.toList.head?.any isAlphanumeric = true ∧ text.toList.all isIdentifierChar = true := by
  unfold isIdentifier
  rw [Bool.and_eq_true, Bool.and_eq_true, decide_eq_true_iff, and_assoc]

/-- A number is made of characters of an identifier. -/
theorem all_isIdentifierChar_toString (n : Nat) :
    (toString n).toList.all isIdentifierChar = true := by
  apply List.all_eq_true.mpr
  intro c hc
  unfold isIdentifierChar isAlphanumeric
  rw [isDigit_of_mem_toString hc]
  rfl

theorem toList_claimKey (assignmentId : String) :
    ("claim:" ++ assignmentId).toList = "claim:".toList ++ assignmentId.toList :=
  String.toList_append

/-- The key of a claim is an identifier as long as it is not too long. -/
theorem isIdentifier_claimKey_iff (hid : isIdentifier assignmentId = true) :
    isIdentifier ("claim:" ++ assignmentId) = true ↔ assignmentId.toList.length ≤ 506 := by
  obtain ⟨-, -, hchars⟩ := isIdentifier_iff.mp hid
  have hlength : ("claim:".toList ++ assignmentId.toList).length =
      6 + assignmentId.toList.length := List.length_append
  have hall : ("claim:".toList ++ assignmentId.toList).all isIdentifierChar = true := by
    rw [List.all_append, hchars]
    rfl
  rw [isIdentifier_iff, toList_claimKey, hlength]
  constructor
  · intro h
    omega
  · intro h
    exact ⟨by omega, rfl, hall⟩

theorem toList_renewalKey (assignmentId : String) (generation revision : Nat) :
    (renewalKey assignmentId generation revision).toList =
      "renew:".toList ++ assignmentId.toList ++ ":".toList ++ (toString generation).toList ++
        ":".toList ++ (toString revision).toList := by
  unfold renewalKey
  simp only [String.toList_append]

/-- The key of a renewal is an identifier as long as it is not too long. -/
theorem isIdentifier_renewalKey_iff {generation revision : Nat}
    (hid : isIdentifier assignmentId = true) :
    isIdentifier (renewalKey assignmentId generation revision) = true ↔
      (renewalKey assignmentId generation revision).toList.length ≤ 512 := by
  obtain ⟨-, -, hchars⟩ := isIdentifier_iff.mp hid
  have hall : (renewalKey assignmentId generation revision).toList.all isIdentifierChar =
      true := by
    rw [toList_renewalKey]
    simp only [List.all_append, hchars, all_isIdentifierChar_toString, Bool.and_true]
    rfl
  have hhead : (renewalKey assignmentId generation revision).toList.head?.any isAlphanumeric =
      true := by
    rw [toList_renewalKey]
    rfl
  rw [isIdentifier_iff]
  constructor
  · intro h
    exact h.1
  · intro h
    exact ⟨h, hhead, hall⟩

/-- The key of a renewal is longer than that of the claim. -/
theorem length_of_renewalKey {generation revision : Nat}
    (h : (renewalKey assignmentId generation revision).toList.length ≤ 512) :
    assignmentId.toList.length ≤ 506 := by
  have hlength : "renew:".toList.length = 6 := rfl
  rw [toList_renewalKey] at h
  simp only [List.length_append, hlength] at h
  omega

theorem length_encodeBase64Url (bytes : List UInt8) :
    (encodeBase64Url bytes).length = (4 * bytes.length + 2) / 3 := by
  induction bytes using encodeBase64Url.induct with
  | case1 => rfl
  | case2 a =>
      rw [encodeBase64Url]
      simp only [List.length_cons, List.length_nil]
  | case3 a b =>
      rw [encodeBase64Url]
      simp only [List.length_cons, List.length_nil]
  | case4 a b c bytes ih =>
      rw [encodeBase64Url]
      simp only [List.length_cons, ih]
      omega

/-- The digit of a value is a character of a secret. -/
theorem isSecretChar_base64UrlDigit {value : Nat} (h : value < 64) :
    (isAlphanumeric (Char.ofNat (base64UrlDigit value)) ||
      Char.ofNat (base64UrlDigit value) = '_' || Char.ofNat (base64UrlDigit value) = '-') =
        true := by
  have hall : (List.range 64).all (fun value =>
      isAlphanumeric (Char.ofNat (base64UrlDigit value)) ||
        Char.ofNat (base64UrlDigit value) = '_' ||
        Char.ofNat (base64UrlDigit value) = '-') = true := by
    decide +kernel
  exact List.all_eq_true.mp hall value (List.mem_range.mpr h)

theorem exists_digit_of_mem_encodeBase64Url {bytes : List UInt8} {unit : Nat}
    (hunit : unit ∈ encodeBase64Url bytes) : ∃ value < 64, unit = base64UrlDigit value := by
  induction bytes using encodeBase64Url.induct with
  | case1 => exact absurd hunit List.not_mem_nil
  | case2 a =>
      have ha := a.toNat_lt
      rw [encodeBase64Url] at hunit
      simp only [List.mem_cons, List.not_mem_nil, or_false] at hunit
      rcases hunit with rfl | rfl
      · exact ⟨_, by omega, rfl⟩
      · exact ⟨_, by omega, rfl⟩
  | case3 a b =>
      have ha := a.toNat_lt
      have hb := b.toNat_lt
      rw [encodeBase64Url] at hunit
      simp only [List.mem_cons, List.not_mem_nil, or_false] at hunit
      rcases hunit with rfl | rfl | rfl
      · exact ⟨_, by omega, rfl⟩
      · exact ⟨_, by omega, rfl⟩
      · exact ⟨_, by omega, rfl⟩
  | case4 a b c bytes ih =>
      have ha := a.toNat_lt
      have hb := b.toNat_lt
      have hc := c.toNat_lt
      rw [encodeBase64Url] at hunit
      simp only [List.mem_cons] at hunit
      rcases hunit with rfl | rfl | rfl | rfl | hrest
      · exact ⟨_, by omega, rfl⟩
      · exact ⟨_, by omega, rfl⟩
      · exact ⟨_, by omega, rfl⟩
      · exact ⟨_, by omega, rfl⟩
      · exact ih hrest

/-- A secret that the worker makes is one that it accepts. -/
theorem isLeaseSecret_newLeaseSecret (entropy : Entropy) :
    isLeaseSecret (newLeaseSecret entropy) = true := by
  have hlength : ((encodeBase64Url entropy.bytes).map Char.ofNat).length = 43 := by
    rw [List.length_map, length_encodeBase64Url, entropy.length_eq]
  unfold isLeaseSecret newLeaseSecret
  rw [String.toList_ofList, hlength, Bool.and_eq_true]
  refine ⟨rfl, List.all_eq_true.mpr ?_⟩
  intro c hc
  obtain ⟨unit, hunit, rfl⟩ := List.mem_map.mp hc
  obtain ⟨value, hvalue, rfl⟩ := exists_digit_of_mem_encodeBase64Url hunit
  exact isSecretChar_base64UrlDigit hvalue

/-! ## Reading an intent back -/

/-- Members without array indices keep their order. -/
theorem ownOrder_eq_self {fields : JsonObject}
    (h : (fields.map Prod.fst).all (fun key => (arrayIndex? key).isNone) = true) :
    ownOrder fields = fields := by
  have hkeys : ∀ field ∈ fields, (arrayIndex? field.1).isSome = false := by
    intro field hfield
    have hnone := List.all_eq_true.mp h field.1 (List.mem_map.mpr ⟨field, hfield, rfl⟩)
    rw [Option.isNone_iff_eq_none.mp hnone]
    rfl
  have hindices : fields.filter (fun field => (arrayIndex? field.1).isSome) = [] := by
    apply List.filter_eq_nil_iff.mpr
    intro field hfield hsome
    rw [hkeys field hfield] at hsome
    exact Bool.false_ne_true hsome
  have hothers : fields.filter (fun field => !(arrayIndex? field.1).isSome) = fields := by
    apply List.filter_eq_self.mpr
    intro field hfield
    rw [hkeys field hfield]
    rfl
  unfold ownOrder
  rw [hindices, hothers]
  rfl

section Reading

variable {format : NumberFormat}

theorem safeCount_countJson {count : Nat} (h : count ≤ maxSafeInteger) :
    safeCount (some (countJson count)) = some count := by
  have hdigits : Nat.ofDigitChars 10 (toString count).toList 0 = count := by
    rw [Nat.toString_eq_repr, Nat.toList_repr]
    exact Nat.ofDigitChars_ten_toDigits
  simp only [safeCount, countJson, hdigits]
  exact if_pos ⟨trivial, h⟩

/-- Members that are read back in their order are what the text is parsed as. -/
theorem parseIntent_stringify {fields : JsonObject} (h : Readable format (.object fields))
    (hsame : relisted (.object fields) = .object fields) :
    parseIntent format (JsonValue.object fields).stringify = .ok fields := by
  unfold parseIntent
  rw [jsonParse_stringify h, hsame]

theorem relisted_claim (intent : PendingClaim) :
    relisted (.object intent.members) = .object intent.members := by
  have hkeys : ["schemaVersion", "registryWorkspaceId", "assignmentId", "leaseToken",
      "idempotencyKey"].all (fun key => (arrayIndex? key).isNone) = true := by decide
  exact congrArg JsonValue.object (ownOrder_eq_self hkeys)

theorem relisted_lease (lease : LeaseBinding) :
    relisted (.object lease.members) = .object lease.members := by
  have hkeys : ["registryWorkspaceId", "assignmentId", "assignmentGeneration", "leaseRevision",
      "leaseToken"].all (fun key => (arrayIndex? key).isNone) = true := by decide
  exact congrArg JsonValue.object (ownOrder_eq_self hkeys)

theorem relisted_renewal (intent : PendingRenewal) :
    relisted (.object intent.members) = .object intent.members := by
  have hkeys : ["schemaVersion", "lease", "nextLeaseToken", "workerSentThrough",
      "idempotencyKey"].all (fun key => (arrayIndex? key).isNone) = true := by decide
  have hmembers : relisted (.object intent.members) = .object (ownOrder
      [("schemaVersion", .string leaseIntentVersion),
        ("lease", relisted (.object intent.lease.members)),
        ("nextLeaseToken", .string intent.nextLeaseToken),
        ("workerSentThrough", countJson intent.workerSentThrough),
        ("idempotencyKey", .string intent.idempotencyKey)]) := rfl
  rw [hmembers, relisted_lease]
  exact congrArg JsonValue.object (ownOrder_eq_self hkeys)

theorem readable_claim (intent : PendingClaim) : Readable format (.object intent.members) := by
  have hkeys : ["schemaVersion", "registryWorkspaceId", "assignmentId", "leaseToken",
      "idempotencyKey"].Nodup := by decide
  refine readable_object hkeys ?_
  simp only [PendingClaim.members, List.forall_mem_cons]
  exact ⟨readable_string _, readable_string _, readable_string _, readable_string _,
    readable_string _, fun _ hnone => absurd hnone List.not_mem_nil⟩

theorem readable_lease (hgeneration : lease.assignmentGeneration ≤ maxSafeInteger)
    (hrevision : lease.leaseRevision ≤ maxSafeInteger) :
    Readable format (.object lease.members) := by
  have hkeys : ["registryWorkspaceId", "assignmentId", "assignmentGeneration", "leaseRevision",
      "leaseToken"].Nodup := by decide
  refine readable_object hkeys ?_
  simp only [LeaseBinding.members, List.forall_mem_cons]
  exact ⟨readable_string _, readable_string _, readable_countJson hgeneration,
    readable_countJson hrevision, readable_string _, fun _ hnone => absurd hnone List.not_mem_nil⟩

theorem readable_renewal {intent : PendingRenewal}
    (hgeneration : intent.lease.assignmentGeneration ≤ maxSafeInteger)
    (hrevision : intent.lease.leaseRevision ≤ maxSafeInteger)
    (hwatermark : intent.workerSentThrough ≤ maxSafeInteger) :
    Readable format (.object intent.members) := by
  have hkeys : ["schemaVersion", "lease", "nextLeaseToken", "workerSentThrough",
      "idempotencyKey"].Nodup := by decide
  refine readable_object hkeys ?_
  simp only [PendingRenewal.members, List.forall_mem_cons]
  exact ⟨readable_string _, readable_lease hgeneration hrevision, readable_string _,
    readable_countJson hwatermark, readable_string _,
    fun _ hnone => absurd hnone List.not_mem_nil⟩

theorem assertLeaseIdentifier_eq_ok_iff {text text' : String} :
    assertLeaseIdentifier (some (.string text)) = .ok text' ↔
      isIdentifier text = true ∧ text = text' := by
  unfold assertLeaseIdentifier textOf
  simp only [Option.bind_some, JsonValue.asString?]
  by_cases h : isIdentifier text = true
  · rw [Option.filter_some, if_pos h]
    constructor
    · intro heq
      exact ⟨h, Except.ok.inj heq⟩
    · rintro ⟨-, rfl⟩
      rfl
  · rw [Option.filter_some, if_neg h]
    constructor
    · intro heq
      cases heq
    · rintro ⟨hid, -⟩
      exact absurd hid h

theorem assertLeaseIdentifier_string {text : String} (h : isIdentifier text = true) :
    assertLeaseIdentifier (some (.string text)) = .ok text :=
  assertLeaseIdentifier_eq_ok_iff.mpr ⟨h, rfl⟩

theorem secret_string {text : String} (h : isLeaseSecret text = true) (error : LeaseError) :
    orThrow error ((textOf (some (.string text))).filter isLeaseSecret) = .ok text := by
  unfold textOf
  simp only [Option.bind_some, JsonValue.asString?]
  rw [Option.filter_some, if_pos h]
  rfl

theorem positive_countJson {count : Nat} (h : positive count = true) (error : LeaseError) :
    orThrow error ((safeCount (some (countJson count))).filter positive) = .ok count := by
  have hbounds : 1 ≤ count ∧ count ≤ maxSafeInteger := by
    unfold positive at h
    rw [Bool.and_eq_true, decide_eq_true_iff, decide_eq_true_iff] at h
    exact h
  rw [safeCount_countJson hbounds.2, Option.filter_some, if_pos h]
  rfl

/-- The pending claim is accepted as long as its key is an identifier. -/
theorem parseClaim_text_iff {registryWorkspaceId assignmentId leaseToken : String}
    (hworkspace : isIdentifier registryWorkspaceId = true)
    (hid : isIdentifier assignmentId = true) (hsecret : isLeaseSecret leaseToken = true) :
    parseClaim format (claimIntent registryWorkspaceId assignmentId leaseToken).text =
        .ok (claimIntent registryWorkspaceId assignmentId leaseToken) ↔
      isIdentifier ("claim:" ++ assignmentId) = true := by
  let intent := claimIntent registryWorkspaceId assignmentId leaseToken
  have hparse : parseIntent format intent.text = .ok intent.members :=
    parseIntent_stringify (readable_claim intent) (relisted_claim intent)
  have hkeyMember : readMember "idempotencyKey" intent.members =
      some (.string ("claim:" ++ assignmentId)) := rfl
  constructor
  · intro h
    obtain ⟨value, hvalue, h⟩ := bind_eq_ok.mp h
    obtain rfl := Except.ok.inj (hparse.symm.trans hvalue)
    iterate 2 obtain ⟨_, -, h⟩ := bind_eq_ok.mp h
    obtain ⟨key, hkey, -⟩ := bind_eq_ok.mp h
    rw [hkeyMember] at hkey
    exact (assertLeaseIdentifier_eq_ok_iff.mp hkey).1
  · intro hkey
    have hworkspaceMember : readMember "registryWorkspaceId" intent.members =
        some (.string registryWorkspaceId) := rfl
    have hidMember : readMember "assignmentId" intent.members =
        some (.string assignmentId) := rfl
    have hsecretMember : readMember "leaseToken" intent.members =
        some (.string leaseToken) := rfl
    unfold parseClaim
    rw [hparse]
    dsimp only [bind, Except.bind]
    rw [hworkspaceMember, hidMember, hkeyMember, hsecretMember,
      assertLeaseIdentifier_string hworkspace, assertLeaseIdentifier_string hid,
      assertLeaseIdentifier_string hkey, secret_string hsecret]
    rfl

/-- What the owner checks of a lease. -/
structure LeaseBinding.Accepted (lease : LeaseBinding) : Prop where
  registryWorkspaceId : isIdentifier lease.registryWorkspaceId = true
  assignmentId : isIdentifier lease.assignmentId = true
  assignmentGeneration : positive lease.assignmentGeneration = true
  leaseRevision : positive lease.leaseRevision = true
  leaseToken : isLeaseSecret lease.leaseToken = true

theorem le_maxSafeInteger_of_positive {count : Nat} (h : positive count = true) :
    count ≤ maxSafeInteger := by
  unfold positive at h
  rw [Bool.and_eq_true, decide_eq_true_iff, decide_eq_true_iff] at h
  exact h.2

theorem positive_one : positive 1 = true := by
  decide

theorem assertLease_members (h : lease.Accepted) :
    assertLease (some (.object lease.members)) = .ok lease := by
  have hworkspaceMember : readMember "registryWorkspaceId" lease.members =
      some (.string lease.registryWorkspaceId) := rfl
  have hidMember : readMember "assignmentId" lease.members =
      some (.string lease.assignmentId) := rfl
  have hgenerationMember : readMember "assignmentGeneration" lease.members =
      some (countJson lease.assignmentGeneration) := rfl
  have hrevisionMember : readMember "leaseRevision" lease.members =
      some (countJson lease.leaseRevision) := rfl
  have hsecretMember : readMember "leaseToken" lease.members =
      some (.string lease.leaseToken) := rfl
  unfold assertLease asRecord
  dsimp only [bind, Except.bind]
  rw [hworkspaceMember, hidMember, hgenerationMember, hrevisionMember, hsecretMember,
    assertLeaseIdentifier_string h.registryWorkspaceId, assertLeaseIdentifier_string h.assignmentId,
    positive_countJson h.assignmentGeneration, positive_countJson h.leaseRevision,
    secret_string h.leaseToken]
  rfl

/-- The pending renewal is accepted as long as its key is an identifier. -/
theorem parseRenewal_text_iff {nextLeaseToken : String} {workerSentThrough : Nat}
    (hlease : lease.Accepted) (hsecret : isLeaseSecret nextLeaseToken = true)
    (hwatermark : workerSentThrough ≤ maxSafeInteger) :
    parseRenewal format (renewalIntent lease nextLeaseToken workerSentThrough).text =
        .ok (renewalIntent lease nextLeaseToken workerSentThrough) ↔
      isIdentifier (renewalKey lease.assignmentId lease.assignmentGeneration lease.leaseRevision) =
        true := by
  let intent := renewalIntent lease nextLeaseToken workerSentThrough
  have hparse : parseIntent format intent.text = .ok intent.members :=
    parseIntent_stringify
      (readable_renewal (le_maxSafeInteger_of_positive hlease.assignmentGeneration)
        (le_maxSafeInteger_of_positive hlease.leaseRevision) hwatermark)
      (relisted_renewal intent)
  have hkeyMember : readMember "idempotencyKey" intent.members =
      some (.string (renewalKey lease.assignmentId lease.assignmentGeneration
        lease.leaseRevision)) := rfl
  constructor
  · intro h
    obtain ⟨value, hvalue, h⟩ := bind_eq_ok.mp h
    obtain rfl := Except.ok.inj (hparse.symm.trans hvalue)
    obtain ⟨_, -, h⟩ := bind_eq_ok.mp h
    obtain ⟨key, hkey, -⟩ := bind_eq_ok.mp h
    rw [hkeyMember] at hkey
    exact (assertLeaseIdentifier_eq_ok_iff.mp hkey).1
  · intro hkey
    have hleaseMember : readMember "lease" intent.members = some (.object lease.members) := rfl
    have hsecretMember : readMember "nextLeaseToken" intent.members =
        some (.string nextLeaseToken) := rfl
    have hwatermarkMember : readMember "workerSentThrough" intent.members =
        some (countJson workerSentThrough) := rfl
    unfold parseRenewal
    rw [hparse]
    dsimp only [bind, Except.bind]
    rw [hleaseMember, hkeyMember, hsecretMember, hwatermarkMember, assertLease_members hlease,
      assertLeaseIdentifier_string hkey, secret_string hsecret, safeCount_countJson hwatermark]
    rfl

end Reading

/-! ## What the operations write -/

theorem positive_countJson_eq_ok {count count' : Nat}
    (h : orThrow error ((safeCount (some (countJson count))).filter positive) = .ok count') :
    positive count = true ∧ count' = count := by
  by_cases hcount : count ≤ maxSafeInteger
  · rw [safeCount_countJson hcount, Option.filter_some] at h
    by_cases hpositive : positive count = true
    · rw [if_pos hpositive] at h
      exact ⟨hpositive, (Except.ok.inj h).symm⟩
    · rw [if_neg hpositive] at h
      cases h
  · have hdigits : Nat.ofDigitChars 10 (toString count).toList 0 = count := by
      rw [Nat.toString_eq_repr, Nat.toList_repr]
      exact Nat.ofDigitChars_ten_toDigits
    have hnone : safeCount (some (countJson count)) = none := by
      simp only [safeCount, countJson, hdigits]
      exact if_neg fun hboth => hcount hboth.2
    rw [hnone] at h
    cases h

theorem secret_eq_ok {text text' : String}
    (h : orThrow error ((textOf (some (.string text))).filter isLeaseSecret) = .ok text') :
    isLeaseSecret text = true ∧ text' = text := by
  unfold textOf at h
  simp only [Option.bind_some, JsonValue.asString?] at h
  rw [Option.filter_some] at h
  by_cases hsecret : isLeaseSecret text = true
  · rw [if_pos hsecret] at h
    exact ⟨hsecret, (Except.ok.inj h).symm⟩
  · rw [if_neg hsecret] at h
    cases h

theorem require_eq_ok {condition : Bool} {done : Unit} (h : require condition error = .ok done) :
    condition = true := by
  unfold require at h
  by_cases hcondition : condition = true
  · exact hcondition
  · rw [if_neg hcondition] at h
    cases h

theorem assertLease_eq_ok {lease' : LeaseBinding}
    (h : assertLease (some (.object lease.members)) = .ok lease') :
    lease.Accepted ∧ lease' = lease := by
  obtain ⟨record, hrecord, h⟩ := bind_eq_ok.mp h
  obtain rfl := Except.ok.inj hrecord
  obtain ⟨workspace, hworkspace, h⟩ := bind_eq_ok.mp h
  obtain ⟨id, hid, h⟩ := bind_eq_ok.mp h
  obtain ⟨generation, hgeneration, h⟩ := bind_eq_ok.mp h
  obtain ⟨revision, hrevision, h⟩ := bind_eq_ok.mp h
  obtain ⟨token, htoken, h⟩ := bind_eq_ok.mp h
  obtain ⟨hworkspaceOk, rfl⟩ := assertLeaseIdentifier_eq_ok_iff.mp hworkspace
  obtain ⟨hidOk, rfl⟩ := assertLeaseIdentifier_eq_ok_iff.mp hid
  obtain ⟨hgenerationOk, rfl⟩ := positive_countJson_eq_ok hgeneration
  obtain ⟨hrevisionOk, rfl⟩ := positive_countJson_eq_ok hrevision
  obtain ⟨htokenOk, rfl⟩ := secret_eq_ok htoken
  exact ⟨⟨hworkspaceOk, hidOk, hgenerationOk, hrevisionOk, htokenOk⟩,
    (Except.ok.inj h).symm⟩

theorem orThrow_filter_eq_ok {value : Option α} {p : α → Bool} {a : α}
    (h : orThrow error (value.filter p) = .ok a) : p a = true := by
  by_cases hfilter : (value.filter p).isSome = true
  · obtain ⟨a', ha'⟩ := Option.isSome_iff_exists.mp hfilter
    rw [ha'] at h
    obtain rfl := Except.ok.inj h
    exact (Option.filter_eq_some_iff.mp ha').2
  · rw [Option.not_isSome_iff_eq_none.mp hfilter] at h
    cases h

theorem assertLeaseIdentifier_eq_ok {value : Option JsonValue} {text : String}
    (h : assertLeaseIdentifier value = .ok text) : isIdentifier text = true :=
  orThrow_filter_eq_ok h

theorem offeredAssignment_eq_ok {body : JsonObject}
    (h : offeredAssignment body = .ok (some assignmentId)) : isIdentifier assignmentId = true := by
  unfold offeredAssignment at h
  split at h
  · cases h
  · obtain ⟨offer, -, h⟩ := bind_eq_ok.mp h
    obtain ⟨assignment, -, h⟩ := bind_eq_ok.mp h
    obtain ⟨text, htext, h⟩ := bind_eq_ok.mp h
    obtain rfl := Option.some_inj.mp (Except.ok.inj h)
    exact assertLeaseIdentifier_eq_ok htext
  · cases h

/-- The claim that is written is for an assignment with an accepted identifier. -/
theorem offeredClaim_eq_ok {body : JsonObject} {intent : PendingClaim}
    (h : offeredClaim registryWorkspaceId body entropy = .ok (some intent)) :
    isIdentifier intent.assignmentId = true ∧
      intent = claimIntent registryWorkspaceId intent.assignmentId (newLeaseSecret entropy) := by
  obtain ⟨offered, hoffered, h⟩ := bind_eq_ok.mp h
  cases offered with
  | none => cases h
  | some assignmentId =>
      obtain rfl := Option.some_inj.mp (Except.ok.inj h)
      exact ⟨offeredAssignment_eq_ok hoffered, rfl⟩

/-- The renewal that is written is for a lease that the owner accepts. -/
theorem beginRenewal_eq_ok {leases : List RetainedLease} {sentThrough workerSentThrough : Nat}
    {intent : PendingRenewal}
    (h : beginRenewal leases sentThrough lease workerSentThrough entropy = .ok intent) :
    lease.Accepted ∧ workerSentThrough ≤ maxSafeInteger ∧
      intent = renewalIntent lease (newLeaseSecret entropy) workerSentThrough := by
  obtain ⟨lease', hlease', hfound⟩ := bind_eq_ok.mp h
  obtain ⟨haccepted, rfl⟩ := assertLease_eq_ok hlease'
  obtain ⟨retained, -, hcurrent⟩ := bind_eq_ok.mp hfound
  obtain ⟨_, -, hsent⟩ := bind_eq_ok.mp hcurrent
  obtain ⟨_, hwatermark, hintent⟩ := bind_eq_ok.mp hsent
  have hbounds := require_eq_ok hwatermark
  rw [Bool.and_eq_true, decide_eq_true_iff, decide_eq_true_iff] at hbounds
  exact ⟨haccepted, hbounds.1, (Except.ok.inj hintent).symm⟩

/-- The lease that the answer to a claim yields. -/
theorem claimedLease_eq_ok {intent : PendingClaim} {body : JsonObject}
    (h : claimedLease intent body = .ok lease) :
    positive lease.assignmentGeneration = true ∧
      lease.retained = { assignmentId := intent.assignmentId, rawLeaseToken := intent.leaseToken,
                         leaseRevision := 1,
                         assignmentGeneration := lease.assignmentGeneration } := by
  obtain ⟨generation, -, hchecked⟩ := bind_eq_ok.mp h
  obtain ⟨count, hcount, hresponse⟩ := bind_eq_ok.mp hchecked
  obtain ⟨_, -, hwatermark⟩ := bind_eq_ok.mp hresponse
  obtain ⟨_, -, hlease⟩ := bind_eq_ok.mp hwatermark
  obtain rfl := Except.ok.inj hlease
  exact ⟨orThrow_filter_eq_ok hcount, rfl⟩

/-- The vault takes a lease whose values it accepts and that does not move it backwards. -/
theorem retainLease_eq_ok_iff {leases : List RetainedLease} {lease : RetainedLease}
    (hsecret : isLeaseSecret lease.rawLeaseToken = true)
    (hrevision : positive lease.leaseRevision = true)
    (hgeneration : positive lease.assignmentGeneration = true) :
    (∃ leases', retainLease leases lease = .ok leases') ↔
      isVaultIdentifier lease.assignmentId = true ∧
        mayReplace lease (findLease lease.assignmentId leases) = true := by
  constructor
  · rintro ⟨leases', h⟩
    obtain ⟨lease', hlease', hreplace⟩ := bind_eq_ok.mp h
    obtain ⟨_, hid, hnormalized⟩ := bind_eq_ok.mp hlease'
    iterate 3 obtain ⟨_, -, hnormalized⟩ := bind_eq_ok.mp hnormalized
    obtain rfl := Except.ok.inj hnormalized
    obtain ⟨_, hreplace, -⟩ := bind_eq_ok.mp hreplace
    exact ⟨require_eq_ok hid, require_eq_ok hreplace⟩
  · rintro ⟨hid, hreplace⟩
    have hnormalized : normalizeLease lease = .ok lease := by
      unfold normalizeLease require
      rw [hid, hsecret, hrevision, hgeneration]
      rfl
    refine ⟨setLease lease leases, ?_⟩
    unfold retainLease require
    rw [hnormalized]
    dsimp only [bind, Except.bind]
    rw [hreplace]
    rfl

/-! ## Resuming -/

def offerOf (assignmentId : String) : JsonObject :=
  [("items", .array [.object [("assignment", .object [("assignmentId", .string assignmentId)])]])]

/-- Every accepted identifier can be offered. -/
theorem offeredClaim_offerOf (hid : isIdentifier assignmentId = true) :
    offeredClaim registryWorkspaceId (offerOf assignmentId) entropy =
      .ok (some (claimIntent registryWorkspaceId assignmentId (newLeaseSecret entropy))) := by
  have hoffered : offeredAssignment (offerOf assignmentId) = .ok (some assignmentId) := by
    have hsteps : offeredAssignment (offerOf assignmentId) =
        (assertLeaseIdentifier (some (.string assignmentId))).bind fun id => .ok (some id) := rfl
    rw [hsteps, assertLeaseIdentifier_string hid]
    rfl
  unfold offeredClaim
  rw [hoffered]
  rfl

def receiptOf (intent : PendingClaim) (generation : Nat) : JsonObject :=
  [("registryWorkspaceId", .string intent.registryWorkspaceId),
    ("assignmentId", .string intent.assignmentId),
    ("assignmentGeneration", countJson generation), ("leaseRevision", countJson 1),
    ("workerSentThrough", countJson 0)]

/-- The answer of a Gateway that has started the claimed assignment. -/
def answerOf (intent : PendingClaim) (generation : Nat) : JsonObject :=
  [("disposition", .string "started"),
    ("generation", .object [("assignmentGeneration", countJson generation)]),
    ("lease", .object (receiptOf intent generation))]

theorem assertLeaseResponse_answerOf {lease : LeaseBinding} {intent : PendingClaim}
    (hworkspace : lease.registryWorkspaceId = intent.registryWorkspaceId)
    (hid : lease.assignmentId = intent.assignmentId)
    (hgeneration : positive lease.assignmentGeneration = true) :
    assertLeaseResponse (answerOf intent lease.assignmentGeneration) lease 1
      ["started", "replayed_without_lease_secret"] = .ok () := by
  have hlease : readMember "lease" (answerOf intent lease.assignmentGeneration) =
      some (.object (receiptOf intent lease.assignmentGeneration)) := rfl
  have hcount : readMember "assignmentGeneration" (receiptOf intent lease.assignmentGeneration) =
      some (countJson lease.assignmentGeneration) := rfl
  have hrevision : readMember "leaseRevision" (receiptOf intent lease.assignmentGeneration) =
      some (countJson 1) := rfl
  have hworkspaceMember : textOf (readMember "registryWorkspaceId"
      (receiptOf intent lease.assignmentGeneration)) = some intent.registryWorkspaceId := rfl
  have hidMember : textOf (readMember "assignmentId"
      (receiptOf intent lease.assignmentGeneration)) = some intent.assignmentId := rfl
  have hdisposition : (((readMember "disposition"
      (answerOf intent lease.assignmentGeneration)).map jsString).getD "undefined") =
        "started" := rfl
  have hone : safeCount (some (countJson 1)) = some 1 := safeCount_countJson (by decide)
  unfold assertLeaseResponse
  rw [hlease]
  dsimp only [bind, Except.bind, asRecord]
  rw [hcount, hrevision, hworkspaceMember, hidMember, hdisposition, hworkspace, hid, hone,
    safeCount_countJson (le_maxSafeInteger_of_positive hgeneration)]
  simp only [require, decide_true, Bool.and_true]
  rfl

theorem leaseWatermark_answerOf (intent : PendingClaim) (generation : Nat) :
    leaseWatermark (answerOf intent generation) = .ok 0 := by
  have hzero : safeCount (some (countJson 0)) = some 0 := safeCount_countJson (by decide)
  have hsteps : leaseWatermark (answerOf intent generation) =
      orThrow (.custody "Gateway transcript watermark is invalid.")
        (safeCount (some (countJson 0))) := rfl
  rw [hsteps, hzero]
  rfl

theorem claimedLease_answerOf {intent : PendingClaim} {generation : Nat}
    (h : positive generation = true) :
    claimedLease intent (answerOf intent generation) =
      .ok { registryWorkspaceId := intent.registryWorkspaceId,
            assignmentId := intent.assignmentId, assignmentGeneration := generation,
            leaseRevision := 1, leaseToken := intent.leaseToken } := by
  let lease : LeaseBinding :=
    { registryWorkspaceId := intent.registryWorkspaceId, assignmentId := intent.assignmentId,
      assignmentGeneration := generation, leaseRevision := 1, leaseToken := intent.leaseToken }
  have hgeneration : readMember "generation" (answerOf intent generation) =
      some (.object [("assignmentGeneration", countJson generation)]) := rfl
  have hcount : readMember "assignmentGeneration"
      [("assignmentGeneration", countJson generation)] = some (countJson generation) := rfl
  have hresponse : assertLeaseResponse (answerOf intent generation) lease 1
      ["started", "replayed_without_lease_secret"] = .ok () :=
    @assertLeaseResponse_answerOf lease intent rfl rfl h
  unfold claimedLease
  rw [hgeneration]
  dsimp only [bind, Except.bind, asRecord]
  rw [hcount, positive_countJson h]
  dsimp only
  rw [hresponse, leaseWatermark_answerOf]
  rfl

theorem beginRenewal_retained {workerSentThrough : Nat} (h : lease.Accepted)
    (hwatermark : workerSentThrough ≤ maxSafeInteger) :
    beginRenewal [lease.retained] 0 lease workerSentThrough entropy =
      .ok (renewalIntent lease (newLeaseSecret entropy) workerSentThrough) := by
  have hfound : getLease lease.assignmentId [lease.retained] = .ok lease.retained := by
    have hfind : findLease lease.assignmentId [lease.retained] = some lease.retained := by
      unfold findLease
      rw [List.find?_cons_of_pos (by exact decide_eq_true rfl)]
    unfold getLease
    rw [hfind]
    rfl
  unfold beginRenewal
  rw [assertLease_members h]
  dsimp only [bind, Except.bind]
  rw [hfound]
  simp only [LeaseBinding.retained, require, hwatermark, decide_true, Bool.and_true, Nat.zero_le,
    if_true]
  rfl

/-- The leases that a vault has normalized. -/
def Normalized (leases : List RetainedLease) : Prop :=
  ∀ lease ∈ leases, normalizeLease lease = .ok lease

/-- The texts that the owner writes for an assignment are read back, and the lease that the
claim yields is retained. -/
structure IntentsResume (format : NumberFormat) (leases : List RetainedLease) (entropy : Entropy)
    (registryWorkspaceId assignmentId : String) (generation revision : Nat) : Prop where
  claim : ∀ offer intent,
    offeredClaim registryWorkspaceId offer entropy = .ok (some intent) →
    intent.assignmentId = assignmentId → parseClaim format intent.text = .ok intent
  renewal : ∀ vault sentThrough lease workerSentThrough entropy' intent, Normalized vault →
    beginRenewal vault sentThrough lease workerSentThrough entropy' = .ok intent →
    lease.registryWorkspaceId = registryWorkspaceId → lease.assignmentId = assignmentId →
    lease.assignmentGeneration = generation → lease.leaseRevision = revision →
    parseRenewal format intent.text = .ok intent
  retained : ∀ offer intent answer lease,
    offeredClaim registryWorkspaceId offer entropy = .ok (some intent) →
    intent.assignmentId = assignmentId → claimedLease intent answer = .ok lease →
    lease.assignmentGeneration = generation →
    ∃ leases', retainLease leases lease.retained = .ok leases'

theorem claimResumes_iff {format : NumberFormat}
    (hworkspace : isIdentifier registryWorkspaceId = true)
    (hid : isIdentifier assignmentId = true) :
    (∀ offer intent, offeredClaim registryWorkspaceId offer entropy = .ok (some intent) →
      intent.assignmentId = assignmentId → parseClaim format intent.text = .ok intent) ↔
      assignmentId.toList.length ≤ 506 := by
  have hread := @parseClaim_text_iff format _ _ _ hworkspace hid
    (isLeaseSecret_newLeaseSecret entropy)
  rw [isIdentifier_claimKey_iff hid] at hread
  constructor
  · intro h
    exact hread.mp (h _ _ (offeredClaim_offerOf hid) rfl)
  · intro hlength offer intent hoffer hassignment
    obtain ⟨-, hintent⟩ := offeredClaim_eq_ok hoffer
    rw [hassignment] at hintent
    rw [hintent]
    exact hread.mpr hlength

/-- What an owner persists for an assignment can be resumed when the vault takes the
assignment's identifier, the longest key is an identifier and the vault is not moved back. -/
theorem intentsResume_iff {format : NumberFormat} {leases : List RetainedLease}
    {entropy : Entropy} {registryWorkspaceId assignmentId : String} {generation revision : Nat}
    (hworkspace : isIdentifier registryWorkspaceId = true)
    (hid : isIdentifier assignmentId = true) (hgeneration : positive generation = true)
    (hrevision : positive revision = true) :
    IntentsResume format leases entropy registryWorkspaceId assignmentId generation revision ↔
      isVaultIdentifier assignmentId = true ∧
        (renewalKey assignmentId generation revision).toList.length ≤ 512 ∧
        mayReplace { assignmentId, rawLeaseToken := newLeaseSecret entropy, leaseRevision := 1,
                     assignmentGeneration := generation }
          (findLease assignmentId leases) = true := by
  have hsecret := isLeaseSecret_newLeaseSecret entropy
  let claimed : RetainedLease :=
    { assignmentId, rawLeaseToken := newLeaseSecret entropy, leaseRevision := 1,
      assignmentGeneration := generation }
  have hvault : (∃ leases', retainLease leases claimed = .ok leases') ↔
      isVaultIdentifier assignmentId = true ∧
        mayReplace claimed (findLease assignmentId leases) = true :=
    retainLease_eq_ok_iff hsecret positive_one hgeneration
  let lease : LeaseBinding :=
    { registryWorkspaceId, assignmentId, assignmentGeneration := generation,
      leaseRevision := revision, leaseToken := newLeaseSecret entropy }
  constructor
  · intro h
    let intent := claimIntent registryWorkspaceId assignmentId (newLeaseSecret entropy)
    let first : LeaseBinding := { lease with leaseRevision := 1 }
    have hanswer : claimedLease intent (answerOf intent generation) = .ok first :=
      claimedLease_answerOf hgeneration
    have hfirst : first.retained = claimed := rfl
    have hretained := h.retained (offerOf assignmentId) intent (answerOf intent generation) first
      (offeredClaim_offerOf hid) rfl hanswer rfl
    rw [hfirst] at hretained
    obtain ⟨hvaultId, hreplace⟩ := hvault.mp hretained
    have haccepted : lease.Accepted := ⟨hworkspace, hid, hgeneration, hrevision, hsecret⟩
    have hnormalized : Normalized [lease.retained] := by
      intro other hother
      obtain rfl := List.mem_singleton.mp hother
      unfold normalizeLease require LeaseBinding.retained
      rw [hvaultId, hsecret, hrevision, hgeneration]
      rfl
    have hresumes := h.renewal _ _ _ _ entropy _ hnormalized
      (beginRenewal_retained haccepted (Nat.zero_le _)) rfl rfl rfl rfl
    have hkey := (parseRenewal_text_iff haccepted hsecret (Nat.zero_le _)).mp hresumes
    exact ⟨hvaultId, (isIdentifier_renewalKey_iff hid).mp hkey, hreplace⟩
  · rintro ⟨hvaultId, hlength, hreplace⟩
    constructor
    · exact (claimResumes_iff hworkspace hid).mpr (length_of_renewalKey hlength)
    · rintro vault sentThrough lease workerSentThrough entropy' intent - hrenew rfl rfl rfl rfl
      obtain ⟨haccepted, hwatermark, rfl⟩ := beginRenewal_eq_ok hrenew
      refine (parseRenewal_text_iff haccepted (isLeaseSecret_newLeaseSecret entropy')
        hwatermark).mpr ?_
      exact (isIdentifier_renewalKey_iff hid).mpr hlength
    · rintro offer intent answer lease hoffer hassignment hanswer rfl
      obtain ⟨-, hintent⟩ := offeredClaim_eq_ok hoffer
      obtain ⟨-, hlease⟩ := claimedLease_eq_ok hanswer
      rw [hassignment] at hintent
      rw [hlease, hintent]
      exact hvault.mpr ⟨hvaultId, hreplace⟩

def sampleEntropy : Entropy where
  bytes := List.replicate 32 0
  length_eq := rfl

/-- An assignment that the worker can always resume. -/
theorem intents_of_assignment_resume :
    IntentsResume .digits [] sampleEntropy "workspace-1" "assignment-1" 1 1 :=
  (intentsResume_iff (by decide) (by decide) positive_one positive_one).mpr
    ⟨by decide, by decide, rfl⟩

/-- The longest identifiers are claimed under a key that no later start accepts. -/
theorem longIdentifier_not_resumed :
    ¬∀ (format : NumberFormat) (leases : List RetainedLease) (entropy : Entropy)
      (registryWorkspaceId assignmentId : String) (generation revision : Nat),
      isIdentifier registryWorkspaceId = true → isIdentifier assignmentId = true →
      positive generation = true → positive revision = true →
      IntentsResume format leases entropy registryWorkspaceId assignmentId generation
        revision := by
  intro h
  let assignmentId := String.ofList (List.replicate 507 'a')
  have hchars : assignmentId.toList = List.replicate 507 'a' := String.toList_ofList
  have hid : isIdentifier assignmentId = true := by
    unfold isIdentifier
    rw [hchars]
    decide +kernel
  have hworkspace : isIdentifier "workspace-1" = true := by decide
  have hresumes := h .digits [] sampleEntropy "workspace-1" assignmentId 1 1 hworkspace hid
    positive_one positive_one
  have hlength := (claimResumes_iff hworkspace hid).mp hresumes.claim
  rw [hchars, List.length_replicate] at hlength
  exact absurd hlength (by decide)

end GoatCitadel.RemoteWorker
