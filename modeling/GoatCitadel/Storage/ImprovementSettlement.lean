import GoatCitadel.Storage.ImprovementOperations
import GoatCitadel.Policy.CanonicalText
import GoatCitadel.Support.Runs
import GoatCitadel.Support.Table

/-!
# Improvement operations settle once

Runs of the calls of any number of workers.  Every call adds at most one row, and the
database only takes a row that its claim, its lease and the settlement of its operation
allow; the laws of the tables follow from what one call does.
-/

namespace GoatCitadel.Storage.ImprovementLifecycle

open GoatCitadel.Support
open GoatCitadel.Policy

/-! ## Events -/

inductive LifecycleCall (format : NumberFormat)
  | createIntent (input : OperationRecord)
  | claim (input : ClaimInput) (databaseNow : Int)
  | recordInspection (input : InspectionRecord)
  | settle (input : SettlementRecord) (readable : Readable format input.result)

inductive LifecycleAnswer
  | operation (record : OperationRecord)
  | claim (record : ClaimRecord)
  | inspection (record : InspectionRecord)
  | settlement (record : SettlementRecord)

/-- A call, with what it returns unless it throws. -/
structure LifecycleEvent (format : NumberFormat) where
  call : LifecycleCall format
  answer : Option LifecycleAnswer

section Steps

variable (runtime : LifecycleRuntime)

def LifecycleCall.perform (store : LifecycleStore) :
    LifecycleCall runtime.numbers → Except LifecycleError (LifecycleAnswer × LifecycleStore)
  | .createIntent input =>
      (fun (record, store) => (.operation record, store)) <$>
        ImprovementLifecycle.createIntent runtime input store
  | .claim input databaseNow =>
      (fun (record, store) => (.claim record, store)) <$>
        ImprovementLifecycle.claim runtime input databaseNow store
  | .recordInspection input =>
      (fun (record, store) => (.inspection record, store)) <$>
        ImprovementLifecycle.recordInspection runtime input store
  | .settle input _ =>
      (fun (record, store) => (.settlement record, store)) <$>
        ImprovementLifecycle.settle runtime input store

/-- One call; it changes nothing when it throws. -/
def LifecycleStore.Step (s : LifecycleStore) (event : LifecycleEvent runtime.numbers)
    (s' : LifecycleStore) : Prop :=
  match event.call.perform runtime s with
  | .ok (answer, store) => event.answer = some answer ∧ s' = store
  | .error _ => event.answer = none ∧ s' = s

end Steps

/-! ## Equal texts of records -/

/-- A member of an object is a member of any object with the same text. -/
theorem sameJson_member {fields other : JsonObject}
    (h : SameJson (.object fields) (.object other)) {key : String} {value : JsonValue}
    (hmem : (key, value) ∈ fields) : ∃ value', (key, value') ∈ other ∧ SameJson value value' := by
  rw [SameJson, normalizeKeys, rearrange_object, rearrange_object, JsonValue.object.injEq,
    ← normalizeKeys] at h
  have hsorted : (key, normalizeKeys value) ∈ (fields.map fun field =>
      (field.1, normalizeKeys field.2)).insertionSort fun a b => a.1 ≤ b.1 := by
    rw [List.mem_insertionSort]
    exact List.mem_map.mpr ⟨(key, value), hmem, rfl⟩
  rw [h, List.mem_insertionSort] at hsorted
  obtain ⟨⟨key', value'⟩, hmem', heq⟩ := List.mem_map.mp hsorted
  obtain ⟨rfl, hvalue⟩ := Prod.mk.inj heq
  exact ⟨value', hmem', hvalue.symm⟩

variable {value : JsonValue}

theorem sameJson_string {text : String} (h : SameJson (.string text) value) :
    value = .string text := by
  cases value with
  | string other =>
      rw [SameJson, normalizeKeys, rearrange, rearrange] at h
      exact h.symm
  | _ => cases h

theorem sameJson_number {text : String} (h : SameJson (.number text) value) :
    value = .number text := by
  cases value with
  | number other =>
      rw [SameJson, normalizeKeys, rearrange, rearrange] at h
      exact h.symm
  | _ => cases h

theorem sameJson_string_member {fields other : JsonObject}
    (h : SameJson (.object fields) (.object other)) {key text : String}
    (hmem : (key, .string text) ∈ fields) : (key, .string text) ∈ other := by
  obtain ⟨value, hvalue, hsame⟩ := sameJson_member h hmem
  rw [← sameJson_string hsame]
  exact hvalue

/-- An object of distinct keys whose members are valid is valid. -/
theorem valid_object {fields : JsonObject} (hkeys : (fields.map Prod.fst).Nodup)
    (hfields : ∀ field ∈ fields, field.2.Valid) : (JsonValue.object fields).Valid :=
  ⟨.object hkeys fun field hfield => (hfields field hfield).1,
    .object trivial fun field hfield => (hfields field hfield).2⟩

theorem valid_string (text : String) : (JsonValue.string text).Valid :=
  ⟨.string trivial, .string trivial⟩

theorem OperationKind.text_injective : Function.Injective OperationKind.text := by
  intro a b h
  cases a <;> cases b <;> first | rfl | exact absurd h (by decide)

theorem TargetKind.text_injective : Function.Injective TargetKind.text := by
  intro a b h
  cases a <;> cases b <;> first | rfl | exact absurd h (by decide)

theorem SettlementDisposition.text_injective : Function.Injective SettlementDisposition.text := by
  intro a b h
  cases a <;> cases b <;> first | rfl | exact absurd h (by decide)

theorem mem_optionalMember {key key' text : String} {value : Option String} :
    (key, JsonValue.string text) ∈ optionalMember key' value ↔ key = key' ∧ value = some text := by
  cases value with
  | none => simp [optionalMember]
  | some other => simp [optionalMember, eq_comm]

theorem string_of_mem_optionalMember {key key' : String} {text : Option String}
    (h : (key, value) ∈ optionalMember key' text) : ∃ text, value = .string text := by
  cases text with
  | none => cases h
  | some other => exact ⟨other, (Prod.mk.inj (List.mem_singleton.mp h)).2⟩

theorem OperationRecord.valid_toJson (record : OperationRecord) : record.toJson.Valid := by
  apply valid_object
  · unfold OperationRecord.members
    cases record.sessionId <;> cases record.turnId <;> simp [optionalMember]
  · rintro ⟨key, value⟩ hfield
    have hstring : ∃ text, value = .string text := by
      rw [OperationRecord.members, List.mem_append, List.mem_append] at hfield
      rcases hfield with (hfield | hfield) | hfield
      · simp only [List.mem_cons, List.not_mem_nil, or_false, Prod.mk.injEq] at hfield
        grind
      · exact string_of_mem_optionalMember hfield
      · exact string_of_mem_optionalMember hfield
    obtain ⟨text, rfl⟩ := hstring
    exact valid_string text

/-- The canonical text of an operation tells what it is. -/
theorem operation_eq_of_text {record other : OperationRecord}
    (h : canonicalJsonString record.toJson = canonicalJsonString other.toJson) :
    record = other := by
  have hsame : SameJson (.object record.members) (.object other.members) :=
    (canonicalJsonString_eq_iff record.valid_toJson other.valid_toJson).mp h
  have hmember : ∀ key text, (key, JsonValue.string text) ∈ record.members ↔
      (key, JsonValue.string text) ∈ other.members :=
    fun _ _ => ⟨sameJson_string_member hsame, sameJson_string_member hsame.symm⟩
  have hoperation := hmember "operationId" record.operationId
  have hidempotency := hmember "idempotencyKey" record.idempotencyKey
  have hworkspace := hmember "workspaceId" record.workspaceId
  have hkind := hmember "operationKind" record.operationKind.text
  have htargetKind := hmember "targetKind" record.targetKind.text
  have htarget := hmember "targetId" record.targetId
  have happroval := hmember "approvalId" record.approvalId
  have hrequest := hmember "requestSha256" record.requestSha256
  have hactor := hmember "actorId" record.actorId
  have hcreated := hmember "createdAt" record.createdAt
  have hsession := hmember "sessionId"
  have hturn := hmember "turnId"
  simp [OperationRecord.members, mem_optionalMember] at hoperation hidempotency hworkspace hkind
  simp [OperationRecord.members, mem_optionalMember] at htargetKind htarget happroval hrequest
  simp [OperationRecord.members, mem_optionalMember] at hactor hcreated hsession hturn
  cases record
  cases other
  simp only [OperationRecord.mk.injEq]
  exact ⟨hoperation, hidempotency, hworkspace, OperationKind.text_injective hkind,
    TargetKind.text_injective htargetKind, htarget, happroval, hrequest, hactor,
    Option.ext hsession, Option.ext hturn, hcreated⟩

theorem valid_number (n : Nat) : (JsonValue.number (toString n)).Valid := by
  have hprints : JsonValue.PrintsNumerals (.number (toString n)) := by
    rw [JsonValue.PrintsNumerals, Nat.toString_eq_repr, Nat.toList_repr]
    refine ⟨Nat.toDigits_ne_nil, fun c hc => ?_⟩
    have hdigit := Nat.isDigit_of_mem_toDigits (by decide) (by decide) hc
    simp [JsonValue.isNumeralChar, hdigit]
  exact ⟨.number trivial, .number hprints⟩

theorem SettlementRecord.valid_toJson {record : SettlementRecord} (h : record.result.Valid) :
    record.toJson.Valid := by
  apply valid_object
  · simp [SettlementRecord.members]
  · unfold SettlementRecord.members
    simp only [List.forall_mem_cons]
    exact ⟨valid_string _, valid_string _, valid_number _, valid_string _, valid_string _,
      valid_string _, h, valid_string _, valid_string _, by simp⟩

/-- The row of a settlement is a row of what it was given. -/
theorem toRow_eq_of_text {runtime : LifecycleRuntime} {row : SettlementRow}
    {input : SettlementRecord} (hvalue : Readable runtime.numbers value)
    (hrow : row.resultJson = canonicalJsonString value)
    (hinput : Readable runtime.numbers input.result)
    (h : canonicalJsonString (row.toRecord runtime).toJson = canonicalJsonString input.toJson) :
    row = input.toRow := by
  have hresult : (row.toRecord runtime).result = restored value := by
    rw [SettlementRow.toRecord, hrow, jsonParse_canonicalJsonString hvalue]
    rfl
  have hstored : (row.toRecord runtime).result.Valid := by
    rw [hresult]
    exact (readable_restored hvalue).valid
  have hsame := (canonicalJsonString_eq_iff (SettlementRecord.valid_toJson hstored)
    (SettlementRecord.valid_toJson hinput.valid)).mp h
  have hmember : ∀ key text, (key, JsonValue.string text) ∈ (row.toRecord runtime).members →
      (key, JsonValue.string text) ∈ input.members := fun _ _ => sameJson_string_member hsame
  have hsettlement := hmember "settlementId" row.settlementId
  have hoperation := hmember "operationId" row.operationId
  have hinspection := hmember "inspectionId" row.inspectionId
  have hdisposition := hmember "disposition" row.disposition.text
  have hobserved := hmember "observedStateSha256" row.observedStateSha256
  have hdigest := hmember "resultSha256" row.resultSha256
  have hsettled := hmember "settledAt" row.settledAt
  simp [SettlementRecord.members, SettlementRow.toRecord] at hsettlement hoperation hinspection
  simp [SettlementRecord.members, SettlementRow.toRecord] at hdisposition hobserved
  simp [SettlementRecord.members, SettlementRow.toRecord] at hdigest hsettled
  obtain ⟨count, hcount, hcountSame⟩ := @sameJson_member _ _ hsame "claimGeneration"
    (.number (toString row.claimGeneration))
    (by simp [SettlementRecord.members, SettlementRow.toRecord])
  obtain ⟨result, hresultMem, hresultSame⟩ := @sameJson_member _ _ hsame "result"
    (row.toRecord runtime).result (by simp [SettlementRecord.members])
  simp [SettlementRecord.members] at hcount hresultMem
  have hgeneration : row.claimGeneration = input.claimGeneration := by
    rw [hcount] at hcountSame
    exact toString_nat_injective (JsonValue.number.inj (sameJson_number hcountSame)).symm
  have hjson : row.resultJson = canonicalJsonString input.result := by
    rw [hresultMem, hresult] at hresultSame
    rw [hrow, ← canonicalJsonString_restored hvalue.1]
    exact (canonicalJsonString_eq_iff (readable_restored hvalue).valid hinput.valid).mpr
      hresultSame
  cases row
  simp only [SettlementRecord.toRow, SettlementRow.mk.injEq]
  exact ⟨hsettlement, hoperation, hgeneration, hinspection,
    SettlementDisposition.text_injective hdisposition, hobserved, hjson, hdigest, hsettled⟩

/-! ## What a call does -/

section Calls

variable {runtime : LifecycleRuntime} {s s' : LifecycleStore} {record : OperationRecord}

theorem mapRow_eq_ok {ρ α : Type} {map : ρ → Except LifecycleError α} {row : Option ρ}
    {found : Option α} (h : mapRow map row = .ok found) :
    (row = none ∧ found = none) ∨
      ∃ stored record, row = some stored ∧ map stored = .ok record ∧ found = some record := by
  cases row with
  | none => exact Or.inl ⟨rfl, (Except.ok.inj h).symm⟩
  | some stored =>
      obtain ⟨record, hrecord, h⟩ := bind_eq_ok.mp h
      exact Or.inr ⟨stored, record, rfl, hrecord, (Except.ok.inj h).symm⟩

theorem mapOperation_eq_ok {row : OperationRecord} (h : mapOperation runtime row = .ok record) :
    record = row := by
  obtain ⟨-, -, h⟩ := bind_eq_ok.mp h
  exact (Except.ok.inj h).symm

theorem mapSettlement_eq_ok {row : SettlementRow} {record : SettlementRecord}
    (h : mapSettlement runtime row = .ok record) : record = row.toRecord runtime := by
  obtain ⟨-, -, h⟩ := bind_eq_ok.mp h
  obtain ⟨-, -, h⟩ := bind_eq_ok.mp h
  exact (Except.ok.inj h).symm

theorem orElseFind_eq_some {α : Type} {first second : Except LifecycleError (Option α)} {found : α}
    (h : orElseFind first second = .ok (some found)) :
    first = .ok (some found) ∨ second = .ok (some found) := by
  obtain ⟨answer, hfirst, h⟩ := bind_eq_ok.mp h
  cases answer with
  | none => exact Or.inr h
  | some other =>
      obtain rfl := Option.some.inj (Except.ok.inj h)
      exact Or.inl hfirst

/-- An operation that is looked up is in its table. -/
theorem mapRow_operation {p : OperationRecord → Bool}
    (h : mapRow (mapOperation runtime) (s.operations.find? p) = .ok (some record)) :
    record ∈ s.operations := by
  rcases mapRow_eq_ok h with ⟨-, hnone⟩ | ⟨stored, found, hfind, hmap, hfound⟩
  · cases hnone
  · obtain rfl := Option.some.inj hfound
    rw [mapOperation_eq_ok hmap]
    exact List.mem_of_find?_eq_some hfind

theorem findIntent_eq_some {operationId : String}
    (h : findIntent runtime operationId s = .ok (some record)) : record ∈ s.operations := by
  obtain ⟨-, -, h⟩ := bind_eq_ok.mp h
  exact mapRow_operation h

theorem findRecorded_eq_some {input : OperationRecord}
    (h : findRecorded runtime input s = .ok (some record)) : record ∈ s.operations := by
  rcases orElseFind_eq_some h with h | h
  · exact findIntent_eq_some h
  · rcases orElseFind_eq_some h with h | h
    · obtain ⟨-, -, h⟩ := bind_eq_ok.mp h
      exact mapRow_operation h
    · obtain ⟨-, -, h⟩ := bind_eq_ok.mp h
      exact mapRow_operation h

theorem assertOperationReplay_eq_ok {stored attempted : OperationRecord}
    (h : assertOperationReplay stored attempted = .ok record) :
    record = stored ∧ stored = attempted := by
  unfold assertOperationReplay at h
  split_ifs at h with htext
  exact ⟨(Except.ok.inj h).symm, operation_eq_of_text (not_not.mp htext)⟩

/-- An intent that is recorded is in the table, and adds at most itself. -/
theorem createIntent_eq_ok {input : OperationRecord}
    (h : createIntent runtime input s = .ok (record, s')) :
    record = input ∧ input ∈ s'.operations ∧
      (s' = s ∨ (s.operations.any fun other => other.operationId = input.operationId ||
          other.idempotencyKey = input.idempotencyKey ||
          other.approvalId = input.approvalId) = false ∧
        s' = { s with operations := s.operations ++ [input] }) := by
  obtain ⟨-, -, h⟩ := bind_eq_ok.mp h
  obtain ⟨existing, hexisting, h⟩ := bind_eq_ok.mp h
  cases existing with
  | some existing =>
      obtain ⟨stored, hreplay, h⟩ := bind_eq_ok.mp h
      obtain ⟨rfl, rfl⟩ := ok_pair_inj h
      obtain ⟨rfl, rfl⟩ := assertOperationReplay_eq_ok hreplay
      exact ⟨rfl, findRecorded_eq_some hexisting, Or.inl rfl⟩
  | none =>
      obtain ⟨-, -, h⟩ := bind_eq_ok.mp h
      cases hinsert : insertOperation runtime input s with
      | error error =>
          rw [hinsert] at h
          obtain ⟨raced, hraced, h⟩ := bind_eq_ok.mp h
          cases raced with
          | some raced =>
              obtain ⟨stored, hreplay, h⟩ := bind_eq_ok.mp h
              obtain ⟨rfl, rfl⟩ := ok_pair_inj h
              obtain ⟨rfl, rfl⟩ := assertOperationReplay_eq_ok hreplay
              exact ⟨rfl, findRecorded_eq_some hraced, Or.inl rfl⟩
          | none => cases h
      | ok written =>
          rw [hinsert] at h
          obtain ⟨found, hfound, h⟩ := bind_eq_ok.mp h
          obtain ⟨stored, hreplay, h⟩ := bind_eq_ok.mp h
          obtain ⟨rfl, rfl⟩ := ok_pair_inj h
          obtain ⟨rfl, rfl⟩ := assertOperationReplay_eq_ok hreplay
          obtain ⟨answer, hintent, hfound⟩ := bind_eq_ok.mp hfound
          cases answer with
          | none => cases hfound
          | some other =>
              obtain rfl := Except.ok.inj hfound
              refine ⟨rfl, findIntent_eq_some hintent, ?_⟩
              unfold insertOperation at hinsert
              split_ifs at hinsert with htime hconflict
              · exact Or.inl (Except.ok.inj hinsert).symm
              · exact Or.inr ⟨by simpa using hconflict, (Except.ok.inj hinsert).symm⟩

/-- The lease of the generation before that of a claim. -/
def priorLease (runtime : LifecycleRuntime) (claims : List ClaimRecord) (row : ClaimRecord) :
    Option Int :=
  (claims.find? fun prior => prior.operationId = row.operationId ∧
    prior.claimGeneration + 1 = row.claimGeneration).bind
      fun prior => runtime.databaseTime prior.leaseExpiresAt

/-- What the database admits a claim for. -/
structure AdmitsClaim (runtime : LifecycleRuntime) (s : LifecycleStore) (row : ClaimRecord)
    (databaseNow : Int) : Prop where
  unsettled : isSettled s row.operationId = false
  sequential : row.claimGeneration = (latestGeneration s.claims row.operationId).getD 0 + 1
  expired : (priorLease runtime s.claims row).any (fun lease => databaseNow < lease) = false
  timed : runtime.databaseTime row.leaseExpiresAt ≠ none

theorem insertClaim_eq_ok {row : ClaimRecord} {databaseNow : Int}
    (h : insertClaim runtime row databaseNow s = .ok s') :
    s' = { s with claims := s.claims ++ [row] } ∧ AdmitsClaim runtime s row databaseNow := by
  unfold insertClaim at h
  dsimp only at h
  split_ifs at h with hsettled hsequential hlive hconstraint
  refine ⟨(Except.ok.inj h).symm, ?_, not_not.mp hsequential, ?_, ?_⟩
  · simpa using hsettled
  · simpa [priorLease] using hlive
  · rw [not_or, not_or] at hconstraint
    exact hconstraint.2.1

theorem claim_eq_ok {input : ClaimInput} {databaseNow : Int} {record : ClaimRecord}
    (h : claim runtime input databaseNow s = .ok (record, s')) :
    ∃ row, s' = { s with claims := s.claims ++ [row] } ∧
      AdmitsClaim runtime s row databaseNow := by
  obtain ⟨-, -, h⟩ := bind_eq_ok.mp h
  obtain ⟨-, -, h⟩ := bind_eq_ok.mp h
  obtain ⟨-, -, h⟩ := bind_eq_ok.mp h
  obtain ⟨-, -, h⟩ := bind_eq_ok.mp h
  obtain ⟨current, -, h⟩ := bind_eq_ok.mp h
  dsimp only at h
  split at h
  · cases h
  · rename_i store hinsert
    obtain ⟨stored, -, h⟩ := bind_eq_ok.mp h
    cases stored with
    | none => cases h
    | some stored =>
        dsimp only at h
        split_ifs at h
        obtain ⟨-, rfl⟩ := ok_pair_inj h
        exact ⟨_, insertClaim_eq_ok hinsert⟩

/-- What the database admits an inspection for. -/
structure AdmitsInspection (s : LifecycleStore) (row : InspectionRecord) : Prop where
  unsettled : isSettled s row.operationId = false
  current : latestGeneration s.claims row.operationId = some row.claimGeneration
  fresh : s.inspections.any (fun other => other.inspectionId = row.inspectionId) = false

theorem recordInspection_eq_ok {input record : InspectionRecord}
    (h : recordInspection runtime input s = .ok (record, s')) :
    s' = { s with inspections := s.inspections ++ [input] } ∧ AdmitsInspection s input := by
  obtain ⟨-, -, h⟩ := bind_eq_ok.mp h
  split at h
  · cases h
  · rename_i store hinsert
    obtain ⟨stored, -, h⟩ := bind_eq_ok.mp h
    split_ifs at h
    obtain ⟨-, rfl⟩ := ok_pair_inj h
    unfold insertInspection at hinsert
    split_ifs at hinsert with hsettled hcurrent hconstraint
    refine ⟨(Except.ok.inj hinsert).symm, by simpa using hsettled, not_not.mp hcurrent, ?_⟩
    rw [not_or] at hconstraint
    simpa using hconstraint.2

/-- What the database admits a settlement for. -/
structure AdmitsSettlement (s : LifecycleStore) (row : SettlementRow) : Prop where
  current : latestGeneration s.claims row.operationId = some row.claimGeneration
  inspected : ∃ inspection ∈ s.inspections, inspection.inspectionId = row.inspectionId ∧
    inspection.operationId = row.operationId ∧
    inspection.claimGeneration = row.claimGeneration ∧
    inspection.observedStateSha256 = row.observedStateSha256
  applied : row.disposition = .applied → ∃ inspection ∈ s.inspections,
    inspection.inspectionId = row.inspectionId ∧ inspection.disposition = .matchesIntent
  fresh : s.settlements.any (fun other => other.settlementId = row.settlementId ||
    other.operationId = row.operationId || other.inspectionId = row.inspectionId) = false

theorem insertSettlement_eq_ok {row : SettlementRow}
    (h : insertSettlement runtime row s = .ok s') :
    s' = s ∨ s' = { s with settlements := s.settlements ++ [row] } ∧ AdmitsSettlement s row := by
  unfold insertSettlement at h
  split_ifs at h with hcurrent hinspected happlied hconstraint hconflict
  · exact Or.inl (Except.ok.inj h).symm
  · refine Or.inr ⟨(Except.ok.inj h).symm, not_not.mp hcurrent, ?_, ?_, by simpa using hconflict⟩
    · rw [Bool.not_eq_false, List.any_eq_true] at hinspected
      obtain ⟨inspection, hmem, hsame⟩ := hinspected
      simp only [Bool.and_eq_true, decide_eq_true_eq] at hsame
      exact ⟨inspection, hmem, hsame.1.1.1, hsame.1.1.2, hsame.1.2, hsame.2⟩
    · intro hdisposition
      have hmatches := mt (And.intro hdisposition) happlied
      rw [Bool.not_eq_false, List.any_eq_true] at hmatches
      obtain ⟨inspection, hmem, hsame⟩ := hmatches
      simp only [Bool.and_eq_true, decide_eq_true_eq] at hsame
      exact ⟨inspection, hmem, hsame⟩

theorem mapRow_settlement {p : SettlementRow → Bool} {record : SettlementRecord}
    (h : mapRow (mapSettlement runtime) (s.settlements.find? p) = .ok (some record)) :
    ∃ row ∈ s.settlements, record = row.toRecord runtime := by
  rcases mapRow_eq_ok h with ⟨-, hnone⟩ | ⟨stored, found, hfind, hmap, hfound⟩
  · cases hnone
  · obtain rfl := Option.some.inj hfound
    exact ⟨stored, List.mem_of_find?_eq_some hfind, mapSettlement_eq_ok hmap⟩

theorem findSettled_eq_some {input record : SettlementRecord}
    (h : findSettled runtime input s = .ok (some record)) :
    ∃ row ∈ s.settlements, record = row.toRecord runtime := by
  rcases orElseFind_eq_some h with h | h
  · obtain ⟨-, -, h⟩ := bind_eq_ok.mp h
    exact mapRow_settlement h
  · obtain ⟨-, -, h⟩ := bind_eq_ok.mp h
    exact mapRow_settlement h

theorem assertSettlementReplay_eq_ok {stored attempted record : SettlementRecord}
    (h : assertSettlementReplay stored attempted = .ok record) :
    record = stored ∧
      canonicalJsonString stored.toJson = canonicalJsonString attempted.toJson := by
  unfold assertSettlementReplay at h
  split_ifs at h with htext
  exact ⟨(Except.ok.inj h).symm, not_not.mp htext⟩

/-- A settlement that returns is in the table under its text, and adds at most itself. -/
theorem settle_eq_ok {input record : SettlementRecord}
    (h : settle runtime input s = .ok (record, s')) :
    (∃ row ∈ s'.settlements, record = row.toRecord runtime ∧
      canonicalJsonString (row.toRecord runtime).toJson = canonicalJsonString input.toJson) ∧
    (s' = s ∨ s' = { s with settlements := s.settlements ++ [input.toRow] } ∧
      AdmitsSettlement s input.toRow) := by
  have hreplayed : ∀ {found : SettlementRecord} {store : LifecycleStore},
      findSettled runtime input store = .ok (some found) →
      (do return (← assertSettlementReplay found input, store)) = Except.ok (record, s') →
      s' = store ∧ ∃ row ∈ store.settlements, record = row.toRecord runtime ∧
        canonicalJsonString (row.toRecord runtime).toJson = canonicalJsonString input.toJson := by
    intro found store hfound h
    obtain ⟨stored, hreplay, h⟩ := bind_eq_ok.mp h
    obtain ⟨rfl, rfl⟩ := ok_pair_inj h
    obtain ⟨rfl, htext⟩ := assertSettlementReplay_eq_ok hreplay
    obtain ⟨row, hrow, rfl⟩ := findSettled_eq_some hfound
    exact ⟨rfl, row, hrow, rfl, htext⟩
  obtain ⟨-, -, h⟩ := bind_eq_ok.mp h
  obtain ⟨existing, hexisting, h⟩ := bind_eq_ok.mp h
  cases existing with
  | some existing =>
      obtain ⟨rfl, hstored⟩ := hreplayed hexisting h
      exact ⟨hstored, Or.inl rfl⟩
  | none =>
      dsimp only at h
      split at h
      · obtain ⟨raced, hraced, h⟩ := bind_eq_ok.mp h
        cases raced with
        | none => cases h
        | some raced =>
            obtain ⟨rfl, hstored⟩ := hreplayed hraced h
            exact ⟨hstored, Or.inl rfl⟩
      · rename_i store hinsert
        obtain ⟨stored, hstored, h⟩ := bind_eq_ok.mp h
        cases stored with
        | none => cases h
        | some stored =>
            obtain ⟨rfl, hrow⟩ := hreplayed hstored h
            exact ⟨hrow, insertSettlement_eq_ok hinsert⟩

/-- What a call changes in the tables. -/
inductive Effect (runtime : LifecycleRuntime) (s : LifecycleStore)
    (call : LifecycleCall runtime.numbers) : LifecycleStore → Prop
  | same : Effect runtime s call s
  | operation (row : OperationRecord) :
      (s.operations.any fun other => other.operationId = row.operationId ||
        other.idempotencyKey = row.idempotencyKey ||
        other.approvalId = row.approvalId) = false →
      Effect runtime s call { s with operations := s.operations ++ [row] }
  | claim (input : ClaimInput) (databaseNow : Int) (row : ClaimRecord) :
      call = .claim input databaseNow → AdmitsClaim runtime s row databaseNow →
      Effect runtime s call { s with claims := s.claims ++ [row] }
  | inspection (row : InspectionRecord) : AdmitsInspection s row →
      Effect runtime s call { s with inspections := s.inspections ++ [row] }
  | settlement (input : SettlementRecord) : Readable runtime.numbers input.result →
      AdmitsSettlement s input.toRow →
      Effect runtime s call { s with settlements := s.settlements ++ [input.toRow] }

theorem step_effect {event : LifecycleEvent runtime.numbers} (h : s.Step runtime event s') :
    Effect runtime s event.call s' := by
  obtain ⟨call, answer⟩ := event
  unfold LifecycleStore.Step at h
  split at h
  · rename_i returned store hperform
    obtain ⟨-, rfl⟩ := h
    cases call with
    | createIntent input =>
        obtain ⟨⟨record, store⟩, hcall, heq⟩ := map_eq_ok hperform
        obtain ⟨-, rfl⟩ := Prod.mk.inj heq
        obtain ⟨-, -, rfl | ⟨hfresh, rfl⟩⟩ := createIntent_eq_ok hcall
        · exact .same
        · exact .operation input hfresh
    | claim input databaseNow =>
        obtain ⟨⟨record, store⟩, hcall, heq⟩ := map_eq_ok hperform
        obtain ⟨-, rfl⟩ := Prod.mk.inj heq
        obtain ⟨row, rfl, hadmits⟩ := claim_eq_ok hcall
        exact .claim input databaseNow row rfl hadmits
    | recordInspection input =>
        obtain ⟨⟨record, store⟩, hcall, heq⟩ := map_eq_ok hperform
        obtain ⟨-, rfl⟩ := Prod.mk.inj heq
        obtain ⟨rfl, hadmits⟩ := recordInspection_eq_ok hcall
        exact .inspection input hadmits
    | settle input readable =>
        obtain ⟨⟨record, store⟩, hcall, heq⟩ := map_eq_ok hperform
        obtain ⟨-, rfl⟩ := Prod.mk.inj heq
        obtain ⟨-, rfl | ⟨rfl, hadmits⟩⟩ := settle_eq_ok hcall
        · exact .same
        · exact .settlement input readable hadmits
  · obtain ⟨-, rfl⟩ := h
    exact .same

end Calls

/-! ## The laws of the tables -/

/-- The claims of an operation. -/
def claimsOf (claims : List ClaimRecord) (operationId : String) : List ClaimRecord :=
  claims.filter fun claim => claim.operationId = operationId

/-- Two operations share no id, no key and no approval. -/
def Apart (a b : OperationRecord) : Prop :=
  a.operationId ≠ b.operationId ∧ a.idempotencyKey ≠ b.idempotencyKey ∧
    a.approvalId ≠ b.approvalId

/-- A settlement rests on the latest claim of its operation and on an inspection under it. -/
structure Settled (s : LifecycleStore) (settlement : SettlementRow) : Prop where
  latest : latestGeneration s.claims settlement.operationId = some settlement.claimGeneration
  inspected : ∃ inspection ∈ s.inspections, inspection.inspectionId = settlement.inspectionId ∧
    inspection.operationId = settlement.operationId ∧
    inspection.claimGeneration = settlement.claimGeneration ∧
    inspection.observedStateSha256 = settlement.observedStateSha256 ∧
    (settlement.disposition = .applied → inspection.disposition = .matchesIntent)

/-- The laws of the tables. -/
structure Lawful (s : LifecycleStore) : Prop where
  operations : s.operations.Pairwise Apart
  generations : ∀ operationId, (claimsOf s.claims operationId).map ClaimRecord.claimGeneration =
    List.range' 1 (claimsOf s.claims operationId).length
  settlements : s.settlements.Pairwise fun a b => a.operationId ≠ b.operationId
  settled : ∀ settlement ∈ s.settlements, Settled s settlement

/-- What else is known of the tables. -/
structure Recorded (runtime : LifecycleRuntime) (s : LifecycleStore) : Prop where
  inspections : (s.inspections.map InspectionRecord.inspectionId).Nodup
  leases : ∀ claim ∈ s.claims, runtime.databaseTime claim.leaseExpiresAt ≠ none
  results : ∀ settlement ∈ s.settlements, ∃ value, Readable runtime.numbers value ∧
    settlement.resultJson = canonicalJsonString value

section Laws

variable {runtime : LifecycleRuntime} {s s' : LifecycleStore}

theorem isSettled_eq_false {operationId : String} (h : isSettled s operationId = false)
    {settlement : SettlementRow} (hmem : settlement ∈ s.settlements) :
    settlement.operationId ≠ operationId := by
  simpa using List.any_eq_false.mp h settlement hmem

theorem claimsOf_append (claims : List ClaimRecord) (row : ClaimRecord) (operationId : String) :
    claimsOf (claims ++ [row]) operationId =
      if row.operationId = operationId then claimsOf claims operationId ++ [row]
      else claimsOf claims operationId := by
  unfold claimsOf
  rw [List.filter_append]
  split_ifs with hsame
  · simp [hsame]
  · simp [hsame]

theorem latestGeneration_append {claims : List ClaimRecord} {row : ClaimRecord}
    {operationId : String} (h : row.operationId ≠ operationId) :
    latestGeneration (claims ++ [row]) operationId = latestGeneration claims operationId := by
  have hclaims := claimsOf_append claims row operationId
  rw [if_neg h] at hclaims
  unfold latestGeneration currentClaim
  exact congrArg (fun claims => (List.argmax ClaimRecord.claimGeneration claims).map
    ClaimRecord.claimGeneration) hclaims

/-- The latest generation is the number of the claims. -/
theorem latestGeneration_getD {claims : List ClaimRecord} {operationId : String}
    (h : (claimsOf claims operationId).map ClaimRecord.claimGeneration =
      List.range' 1 (claimsOf claims operationId).length) :
    (latestGeneration claims operationId).getD 0 = (claimsOf claims operationId).length := by
  have hlatest : latestGeneration claims operationId =
      ((claimsOf claims operationId).argmax ClaimRecord.claimGeneration).map
        ClaimRecord.claimGeneration := rfl
  rw [hlatest]
  cases hmax : (claimsOf claims operationId).argmax ClaimRecord.claimGeneration with
  | none =>
      rw [List.argmax_eq_none.mp hmax]
      rfl
  | some claim =>
      have hmem := List.argmax_mem hmax
      have hgeneration : claim.claimGeneration ∈
          List.range' 1 (claimsOf claims operationId).length := by
        rw [← h]
        exact List.mem_map_of_mem hmem
      have hlast : (claimsOf claims operationId).length ∈
          (claimsOf claims operationId).map ClaimRecord.claimGeneration := by
        rw [h, List.mem_range'_1]
        have hpositive := List.length_pos_of_mem hmem
        omega
      obtain ⟨last, hlastMem, hlastGeneration⟩ := List.mem_map.mp hlast
      have hle := List.le_of_mem_argmax hlastMem hmax
      rw [List.mem_range'_1] at hgeneration
      rw [Option.map_some, Option.getD_some]
      omega

/-- A settlement stays settled while its operation is not claimed again. -/
theorem Settled.mono {settlement : SettlementRow} (h : Settled s settlement)
    (hlatest : latestGeneration s'.claims settlement.operationId =
      latestGeneration s.claims settlement.operationId)
    (hinspections : s.inspections ⊆ s'.inspections) : Settled s' settlement where
  latest := hlatest.trans h.latest
  inspected := by
    obtain ⟨inspection, hmem, hsame⟩ := h.inspected
    exact ⟨inspection, hinspections hmem, hsame⟩

/-- The inspection that a settlement names is the one that it rests on. -/
theorem AdmitsSettlement.settled {row : SettlementRow} (hadmits : AdmitsSettlement s row)
    (hinspections : (s.inspections.map InspectionRecord.inspectionId).Nodup) :
    Settled s row where
  latest := hadmits.current
  inspected := by
    obtain ⟨inspection, hmem, hid, hoperation, hgeneration, hobserved⟩ := hadmits.inspected
    refine ⟨inspection, hmem, hid, hoperation, hgeneration, hobserved, ?_⟩
    intro happlied
    obtain ⟨other, hother, hotherId, hmatches⟩ := hadmits.applied happlied
    have hsame : inspection = other :=
      eq_of_key_eq hinspections hmem hother (hid.trans hotherId.symm)
    rw [hsame]
    exact hmatches

theorem recorded_effect {call : LifecycleCall runtime.numbers}
    (heffect : Effect runtime s call s') (h : Recorded runtime s) : Recorded runtime s' := by
  cases heffect with
  | same => exact h
  | operation row hfresh => exact ⟨h.inspections, h.leases, h.results⟩
  | claim input databaseNow row hcall hadmits =>
      exact ⟨h.inspections, forall_mem_append_singleton h.leases hadmits.timed, h.results⟩
  | inspection row hadmits =>
      refine ⟨nodup_map_append_singleton h.inspections ?_, h.leases, h.results⟩
      intro other hother
      simpa using List.any_eq_false.mp hadmits.fresh other hother
  | settlement input hreadable hadmits =>
      exact ⟨h.inspections, h.leases,
        forall_mem_append_singleton h.results ⟨input.result, hreadable, rfl⟩⟩

/-- One effect keeps the laws. -/
theorem lawful_effect {call : LifecycleCall runtime.numbers} (heffect : Effect runtime s call s')
    (h : Lawful s) (hrecorded : Recorded runtime s) : Lawful s' := by
  cases heffect with
  | same => exact h
  | operation row hfresh =>
      refine ⟨?_, h.generations, h.settlements, ?_⟩
      · refine List.pairwise_append.mpr ⟨h.operations, List.pairwise_singleton _ _, ?_⟩
        intro other hother row' hrow'
        rw [List.mem_singleton.mp hrow']
        have hapart := List.any_eq_false.mp hfresh other hother
        simp only [Bool.or_eq_true, decide_eq_true_eq, not_or] at hapart
        exact ⟨hapart.1.1, hapart.1.2, hapart.2⟩
      · intro settlement hsettlement
        exact (h.settled settlement hsettlement).mono rfl (List.Subset.refl _)
  | claim input databaseNow row hcall hadmits =>
      refine ⟨h.operations, ?_, h.settlements, ?_⟩
      · intro operationId
        rw [claimsOf_append]
        by_cases hsame : row.operationId = operationId
        · rw [if_pos hsame, List.map_append, List.length_append, List.length_singleton,
            List.range'_concat, h.generations operationId, List.map_singleton]
          have hnext := hadmits.sequential
          rw [hsame, latestGeneration_getD (h.generations operationId)] at hnext
          rw [hnext, Nat.one_mul, Nat.add_comm 1]
        · rw [if_neg hsame]
          exact h.generations operationId
      · intro settlement hsettlement
        have hother := isSettled_eq_false hadmits.unsettled hsettlement
        exact (h.settled settlement hsettlement).mono
          (latestGeneration_append (Ne.symm hother)) (List.Subset.refl _)
  | inspection row hadmits =>
      refine ⟨h.operations, h.generations, h.settlements, ?_⟩
      intro settlement hsettlement
      exact (h.settled settlement hsettlement).mono rfl (List.subset_append_left _ _)
  | settlement input hreadable hadmits =>
      refine ⟨h.operations, h.generations, ?_, ?_⟩
      · refine List.pairwise_append.mpr ⟨h.settlements, List.pairwise_singleton _ _, ?_⟩
        intro other hother row hrow
        rw [List.mem_singleton.mp hrow]
        have hapart := List.any_eq_false.mp hadmits.fresh other hother
        simp only [Bool.or_eq_true, decide_eq_true_eq, not_or] at hapart
        exact hapart.1.2
      · intro settlement hsettlement
        rcases List.mem_append.mp hsettlement with hold | hnew
        · exact (h.settled settlement hold).mono rfl (List.Subset.refl _)
        · rw [List.mem_singleton.mp hnew]
          exact (hadmits.settled hrecorded.inspections).mono rfl (List.Subset.refl _)

/-! ## Runs -/

/-- What a call may add to the tables, and what its answer means. -/
structure LawfulStep (runtime : LifecycleRuntime) (s : LifecycleStore)
    (event : LifecycleEvent runtime.numbers) (s' : LifecycleStore) : Prop where
  operations : s'.operations = s.operations ∨ ∃ row, s'.operations = s.operations ++ [row]
  claims : s'.claims = s.claims ∨ ∃ input databaseNow row,
    event.call = .claim input databaseNow ∧ s'.claims = s.claims ++ [row] ∧
    isSettled s row.operationId = false ∧
    ∀ prior ∈ claimsOf s.claims row.operationId,
      prior.claimGeneration + 1 = row.claimGeneration →
      ∃ lease, runtime.databaseTime prior.leaseExpiresAt = some lease ∧ lease ≤ databaseNow
  inspections : s'.inspections = s.inspections ∨ ∃ row, s'.inspections = s.inspections ++ [row] ∧
    isSettled s row.operationId = false ∧
    latestGeneration s.claims row.operationId = some row.claimGeneration
  settlements : s'.settlements = s.settlements ∨ ∃ row, s'.settlements = s.settlements ++ [row] ∧
    isSettled s row.operationId = false
  created : ∀ input answer, event.call = .createIntent input → event.answer = some answer →
    answer = .operation input ∧ input ∈ s'.operations
  settledAnswer : ∀ input readable answer, event.call = .settle input readable →
    event.answer = some answer →
      answer = .settlement (input.toRow.toRecord runtime) ∧ input.toRow ∈ s'.settlements

/-- The generation before a claim has come to the end of its lease. -/
theorem AdmitsClaim.expired_of_prior {row prior : ClaimRecord} {databaseNow : Int}
    (hadmits : AdmitsClaim runtime s row databaseNow) (h : Lawful s)
    (hrecorded : Recorded runtime s)
    (hprior : prior ∈ claimsOf s.claims row.operationId)
    (hgeneration : prior.claimGeneration + 1 = row.claimGeneration) :
    ∃ lease, runtime.databaseTime prior.leaseExpiresAt = some lease ∧ lease ≤ databaseNow := by
  obtain ⟨hmem, hoperation⟩ := List.mem_filter.mp hprior
  have hfound : s.claims.find? (fun other => other.operationId = row.operationId ∧
      other.claimGeneration + 1 = row.claimGeneration) = some prior := by
    cases hfind : s.claims.find? (fun other => other.operationId = row.operationId ∧
        other.claimGeneration + 1 = row.claimGeneration) with
    | none =>
        have hnone := List.find?_eq_none.mp hfind prior hmem
        exact absurd (decide_eq_true ⟨of_decide_eq_true hoperation, hgeneration⟩) hnone
    | some other =>
        have hsome := List.find?_some hfind
        obtain ⟨hotherOperation, hotherGeneration⟩ := of_decide_eq_true hsome
        have hother : other ∈ claimsOf s.claims row.operationId :=
          List.mem_filter.mpr ⟨List.mem_of_find?_eq_some hfind, decide_eq_true hotherOperation⟩
        have hnodup : ((claimsOf s.claims row.operationId).map
            ClaimRecord.claimGeneration).Nodup := by
          rw [h.generations]
          exact List.nodup_range'
        rw [eq_of_key_eq hnodup hother hprior (by omega)]
  obtain ⟨lease, hlease⟩ := Option.ne_none_iff_exists'.mp (hrecorded.leases prior hmem)
  refine ⟨lease, hlease, ?_⟩
  have hexpired := hadmits.expired
  rw [priorLease, hfound, Option.bind_some, hlease] at hexpired
  simpa using hexpired

/-- What one effect adds, and what the answer of its call means. -/
theorem lawful_step {event : LifecycleEvent runtime.numbers} (hstep : s.Step runtime event s')
    (h : Lawful s) (hrecorded : Recorded runtime s) : LawfulStep runtime s event s' where
  operations := by
    cases step_effect hstep with
    | operation row hfresh => exact Or.inr ⟨row, rfl⟩
    | _ => exact Or.inl rfl
  claims := by
    generalize hcall : event.call = call
    have heffect := step_effect hstep
    rw [hcall] at heffect
    cases heffect with
    | claim input databaseNow row hclaim hadmits =>
        refine Or.inr ⟨input, databaseNow, row, hclaim, rfl, hadmits.unsettled, ?_⟩
        intro prior hprior hgeneration
        exact hadmits.expired_of_prior h hrecorded hprior hgeneration
    | _ => exact Or.inl rfl
  inspections := by
    cases step_effect hstep with
    | inspection row hadmits =>
        exact Or.inr ⟨row, rfl, hadmits.unsettled, hadmits.current⟩
    | _ => exact Or.inl rfl
  settlements := by
    cases step_effect hstep with
    | settlement input hreadable hadmits =>
        refine Or.inr ⟨input.toRow, rfl, ?_⟩
        refine List.any_eq_false.mpr fun other hother => ?_
        have hapart := List.any_eq_false.mp hadmits.fresh other hother
        simp only [Bool.or_eq_true, decide_eq_true_eq, not_or] at hapart
        simpa using hapart.1.2
    | _ => exact Or.inl rfl
  created := by
    intro input answer hcall hanswer
    rw [LifecycleStore.Step, hcall, hanswer] at hstep
    split at hstep
    · rename_i returned store hperform
      obtain ⟨hsame, rfl⟩ := hstep
      obtain rfl := Option.some.inj hsame
      obtain ⟨⟨record, written⟩, hcreate, heq⟩ := map_eq_ok hperform
      obtain ⟨rfl, rfl⟩ := Prod.mk.inj heq
      obtain ⟨rfl, hmem, -⟩ := createIntent_eq_ok hcreate
      exact ⟨rfl, hmem⟩
    · cases hstep.1
  settledAnswer := by
    intro input readable answer hcall hanswer
    have hresults := (recorded_effect (step_effect hstep) hrecorded).results
    rw [LifecycleStore.Step, hcall, hanswer] at hstep
    split at hstep
    · rename_i returned store hperform
      obtain ⟨hsame, rfl⟩ := hstep
      obtain rfl := Option.some.inj hsame
      obtain ⟨⟨record, written⟩, hsettle, heq⟩ := map_eq_ok hperform
      obtain ⟨rfl, rfl⟩ := Prod.mk.inj heq
      obtain ⟨⟨row, hrow, rfl, htext⟩, -⟩ := settle_eq_ok hsettle
      obtain ⟨value, hvalue, hjson⟩ := hresults row hrow
      rw [← toRow_eq_of_text hvalue hjson readable htext]
      exact ⟨rfl, hrow⟩
    · cases hstep.1

/-- Improvement operations settle once, on their last claim, and truthfully. -/
theorem improvement_operations_settle_once {events : List (LifecycleEvent runtime.numbers)}
    (hrun : Run (LifecycleStore.Step runtime) ⟨[], [], [], []⟩ events s) :
    Lawful s ∧ ∀ event s', s.Step runtime event s' → LawfulStep runtime s event s' := by
  have hlaws : Lawful s ∧ Recorded runtime s := by
    refine Run.invariant (I := fun s => Lawful s ∧ Recorded runtime s) ?_ hrun ?_
    · intro s event s' hstep ⟨hlawful, hrecorded⟩
      have heffect := step_effect hstep
      exact ⟨lawful_effect heffect hlawful hrecorded, recorded_effect heffect hrecorded⟩
    · exact ⟨⟨.nil, fun _ => rfl, .nil, by simp⟩, ⟨.nil, by simp, by simp⟩⟩
  exact ⟨hlaws.1, fun event s' hstep => lawful_step hstep hlaws.1 hlaws.2⟩

end Laws

/-- The tables after a call. -/
def LifecycleStore.after (runtime : LifecycleRuntime) (s : LifecycleStore)
    (call : LifecycleCall runtime.numbers) : LifecycleStore :=
  match call.perform runtime s with
  | .ok (_, store) => store
  | .error _ => s

/-- Calls with their own answers are a run. -/
theorem run_after (runtime : LifecycleRuntime) (calls : List (LifecycleCall runtime.numbers))
    (s : LifecycleStore) :
    ∃ events, Run (LifecycleStore.Step runtime) s events
      (calls.foldl (LifecycleStore.after runtime) s) := by
  induction calls generalizing s with
  | nil => exact ⟨[], .nil s⟩
  | cons call calls ih =>
      obtain ⟨events, hevents⟩ := ih (s.after runtime call)
      cases hperform : call.perform runtime s with
      | ok result =>
          refine ⟨⟨call, some result.1⟩ :: events, .cons ?_ hevents⟩
          simp [LifecycleStore.Step, LifecycleStore.after, hperform]
      | error error =>
          refine ⟨⟨call, none⟩ :: events, .cons ?_ hevents⟩
          simp [LifecycleStore.Step, LifecycleStore.after, hperform]

/-- Dates as they are at the two times of the witness, and the digests of its result and its
intent. -/
def witnessRuntime : LifecycleRuntime where
  dates := WorktreeLeaseRepository.epochDates
  databaseTime := WorktreeLeaseRepository.epochDates.parse
  normalizeNfkc := fun text => text
  numbers := .digits
  sha256Hex := fun text =>
    if text = "\"done\"" then "58bf5b5478e5d1fb7441daeff9fd1ed60a4ad5fbfabc64715cd8608f3f59f6da"
    else "ea27abb48de28388a14acedddcf2ca51129f4a3d20676f06aa16c608e6fc5227"
  boundedMetadata := fun _ => true

def witnessIntent : OperationRecord where
  operationId := "o1"
  idempotencyKey := "k1"
  workspaceId := "w1"
  operationKind := .pause
  targetKind := .improvementActivation
  targetId := "t1"
  approvalId := "p1"
  requestSha256 := "ea27abb48de28388a14acedddcf2ca51129f4a3d20676f06aa16c608e6fc5227"
  actorId := "a1"
  sessionId := none
  turnId := none
  createdAt := "1970-01-01T00:00:00.000Z"

def witnessClaim : ClaimRecord where
  operationId := "o1"
  claimGeneration := 1
  workerId := "worker-1"
  claimedAt := "1970-01-01T00:00:00.000Z"
  leaseExpiresAt := "1970-01-01T00:01:00.000Z"

def witnessInspection : InspectionRecord where
  inspectionId := "i1"
  operationId := "o1"
  claimGeneration := 1
  observedStateSha256 := String.ofList (List.replicate 64 'b')
  disposition := .matchesIntent
  observedAt := "1970-01-01T00:01:00.000Z"

def witnessSettlement : SettlementRecord where
  settlementId := "s1"
  operationId := "o1"
  claimGeneration := 1
  inspectionId := "i1"
  disposition := .applied
  observedStateSha256 := witnessInspection.observedStateSha256
  result := .string "done"
  resultSha256 := "58bf5b5478e5d1fb7441daeff9fd1ed60a4ad5fbfabc64715cd8608f3f59f6da"
  settledAt := "1970-01-01T00:01:00.000Z"

/-- An operation is intended, claimed by a worker, inspected under its claim and settled. -/
theorem operation_settled :
    let s : LifecycleStore :=
      ⟨[witnessIntent], [witnessClaim], [witnessInspection], [witnessSettlement.toRow]⟩
    Lawful s ∧ ∀ event s', s.Step witnessRuntime event s' →
      LawfulStep witnessRuntime s event s' := by
  intro s
  have hcreated : LifecycleStore.after witnessRuntime ⟨[], [], [], []⟩
      (.createIntent witnessIntent) = ⟨[witnessIntent], [], [], []⟩ := by decide +kernel
  have hclaimed : LifecycleStore.after witnessRuntime ⟨[witnessIntent], [], [], []⟩
      (.claim ⟨"o1", "worker-1", "1970-01-01T00:00:00.000Z", "1970-01-01T00:01:00.000Z"⟩ 0) =
        ⟨[witnessIntent], [witnessClaim], [], []⟩ := by decide +kernel
  have hinspected : LifecycleStore.after witnessRuntime ⟨[witnessIntent], [witnessClaim], [], []⟩
      (.recordInspection witnessInspection) =
        ⟨[witnessIntent], [witnessClaim], [witnessInspection], []⟩ := by decide +kernel
  have hsettled : LifecycleStore.after witnessRuntime
      ⟨[witnessIntent], [witnessClaim], [witnessInspection], []⟩
      (.settle witnessSettlement (readable_string "done")) = s := by decide +kernel
  obtain ⟨events, hrun⟩ := run_after witnessRuntime
    [.createIntent witnessIntent,
      .claim ⟨"o1", "worker-1", "1970-01-01T00:00:00.000Z", "1970-01-01T00:01:00.000Z"⟩ 0,
      .recordInspection witnessInspection, .settle witnessSettlement (readable_string "done")]
    ⟨[], [], [], []⟩
  rw [List.foldl_cons, hcreated, List.foldl_cons, hclaimed, List.foldl_cons, hinspected,
    List.foldl_cons, hsettled, List.foldl_nil] at hrun
  exact improvement_operations_settle_once hrun

end GoatCitadel.Storage.ImprovementLifecycle
