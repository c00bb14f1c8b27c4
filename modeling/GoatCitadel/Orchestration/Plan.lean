import Mathlib.Algebra.Order.Ring.Unbundled.Rat
import Mathlib.Data.List.DropRight
import Mathlib.Data.List.Nodup
import GoatCitadel.Support.Text

/-!
# Orchestration plans and their validation

A plan is a list of waves.  A wave says which agent owns which paths of the
repository, and lists the phases that run in it.  `OrchestrationEngine.validate`
checks a plan twice: against the schema, which trims every text before it looks
at it, and wave by wave for paths that two agents own, where it reads the texts
of the plan as they were written.
-/

namespace GoatCitadel.Orchestration

open GoatCitadel.Support

/-! ## Plans -/

inductive LoopMode
  | freshContext
  | compaction
  deriving DecidableEq

inductive RunMode
  | auto
  | hitl
  deriving DecidableEq

structure OrchestrationPhase where
  phaseId : String
  ownerAgentId : String
  specPath : String
  loopMode : LoopMode
  requiresApproval : Bool
  deriving DecidableEq

/-- One entry of a wave's `ownership`. -/
structure Ownership where
  agentId : String
  paths : List String
  deriving DecidableEq

structure OrchestrationWave where
  waveId : String
  verify : List String
  budgetUsd : ℚ
  ownership : List Ownership
  phases : List OrchestrationPhase
  deriving DecidableEq

structure OrchestrationPlan where
  planId : String
  goal : String
  mode : RunMode
  maxIterations : ℚ
  maxRuntimeMinutes : ℚ
  maxCostUsd : ℚ
  waves : List OrchestrationWave

/-! ## The ownership matrix -/

/-- `GLOB_CHARACTER`, the characters that start a glob pattern in an ownership
path. -/
def isGlobCharacter (c : Char) : Bool :=
  c == '*' || c == '?' || c == '[' || c == '\x7b'

/-- `String.prototype.toLowerCase`.  The lower case of a character depends on its
neighbours (a final sigma), but neither a separator nor a glob character takes part
in that: they are their own lower case, cut the text in two parts that are lowered
apart, and are the lower case of nothing else. -/
structure CaseMapping where
  toLowerCase : List Char → List Char
  nil : toLowerCase [] = []
  eq_nil : ∀ text, toLowerCase text = [] → text = []
  cut : ∀ front c back, c = '/' ∨ isGlobCharacter c = true →
    toLowerCase (front ++ c :: back) = toLowerCase front ++ c :: toLowerCase back
  not_mem : ∀ text, '/' ∉ text → '/' ∉ toLowerCase text

structure OwnershipConflict where
  waveId : String
  pathA : String
  agentA : String
  pathB : String
  agentB : String

structure OwnershipClaim where
  agentId : String
  /-- The normalized path for reporting, without trailing glob-only segments. -/
  path : String
  /-- The lower-cased text the claim is compared by. -/
  literal : List Char
  glob : Bool

def isSeparator (c : Char) : Bool :=
  c == '/' || c == '\\'

/-- `HOST_ABSOLUTE_PREFIX`: a drive letter, or two separators. -/
def isHostAbsolute : List Char → Bool
  | c :: d :: _ => (c.isAlpha && d == ':') || (isSeparator c && isSeparator d)
  | _ => false

/-- `ownedPath.replaceAll("\\", "/")` -/
def unifySeparators (ownedPath : List Char) : List Char :=
  ownedPath.map fun c => if c = '\\' then '/' else c

/-- What the loop of `normalizeSegments` does with one segment. -/
def pushSegment (segments : List (List Char)) (segment : List Char) :
    Option (List (List Char)) :=
  if segment = [] ∨ segment = ['.'] then some segments
  else if segment = ['.', '.'] then
    if segments = [] then none else some segments.dropLast
  else some (segments ++ [segment])

def normalizeSegments (ownedPath : List Char) : Option (List (List Char)) :=
  if isHostAbsolute ownedPath then none
  else ((unifySeparators ownedPath).splitOn '/').foldlM pushSegment []

def ownershipPathEscapesRoot (ownedPath : List Char) : Bool :=
  (normalizeSegments ownedPath).isNone

/-- `segments.join("/")` -/
def joinSegments (segments : List (List Char)) : List Char :=
  ['/'].intercalate segments

/-- The text up to the first glob character, the whole text if there is none. -/
def beforeGlob (normalized : List Char) : List Char :=
  match normalized.findIdx? isGlobCharacter with
  | none => normalized
  | some globIndex => normalized.take globIndex

/-- `candidate` is `root` or a path under it. -/
def isWithin (candidate root : List Char) : Bool :=
  candidate == root || (root ++ ['/']).isPrefixOf candidate

def overlaps (a b : OwnershipClaim) : Bool :=
  -- An empty literal can reach every path.
  if a.literal = [] || b.literal = [] then true
  else if !a.glob && !b.glob then isWithin a.literal b.literal || isWithin b.literal a.literal
  else if a.glob && b.glob then
    b.literal.isPrefixOf a.literal || a.literal.isPrefixOf b.literal
  else
    let glob := if a.glob then a else b
    let plain := if a.glob then b else a
    glob.literal.isPrefixOf plain.literal || isWithin glob.literal plain.literal

section

variable (mapping : CaseMapping)

/-- A path that escapes the repository is treated as its root. -/
def toClaim (agentId : String) (ownedPath : List Char) : OwnershipClaim :=
  let segments := (normalizeSegments ownedPath).getD []
  let normalized := joinSegments segments
  let displaySegments := segments.rdropWhile fun segment =>
    !segment.isEmpty && segment.all (· == '*')
  { agentId
    path := String.ofList (joinSegments displaySegments)
    literal := mapping.toLowerCase (beforeGlob normalized)
    glob := (normalized.findIdx? isGlobCharacter).isSome }

def ownershipClaims (wave : OrchestrationWave) : List OwnershipClaim :=
  wave.ownership.flatMap fun owner =>
    owner.paths.map fun ownedPath => toClaim mapping owner.agentId ownedPath.toList

/-- The conflicts of the claims after each claim with it. -/
def conflictsOf (waveId : String) : List OwnershipClaim → List OwnershipConflict
  | [] => []
  | a :: rest =>
      (rest.filter fun b => a.agentId != b.agentId && overlaps a b).map (fun b =>
        { waveId, pathA := a.path, agentA := a.agentId, pathB := b.path, agentB := b.agentId })
      ++ conflictsOf waveId rest

def findOwnershipConflicts (wave : OrchestrationWave) : List OwnershipConflict :=
  conflictsOf wave.waveId (ownershipClaims mapping wave)

end

/-! ## The schema -/

/-- `ID_MAX_LENGTH` -/
def idMaxLength : Nat := 256

/-- `TEXT_MAX_LENGTH` -/
def textMaxLength : Nat := 2048

/-- `PATH_MAX_LENGTH` -/
def pathMaxLength : Nat := 2048

/-- `MAX_PLAN_ITERATIONS` -/
def maxPlanIterations : ℚ := 1000

/-- `MAX_PLAN_RUNTIME_MINUTES` -/
def maxPlanRuntimeMinutes : ℚ := 60 * 24 * 30

/-- `MAX_PLAN_COST_USD` -/
def maxPlanCostUsd : ℚ := 10000

/-- `z.string().trim().min(1).max(maxLength)` -/
def boundedString (maxLength : Nat) (text : String) : Option String :=
  let trimmed := trim text
  if 1 ≤ utf16Length trimmed ∧ utf16Length trimmed ≤ maxLength then some trimmed else none

def idSchema : String → Option String := boundedString idMaxLength

def boundedTextSchema : String → Option String := boundedString textMaxLength

def boundedPathSchema : String → Option String := boundedString pathMaxLength

/-- `z.number().finite().nonnegative().max(MAX_PLAN_COST_USD)` -/
def boundedBudgetSchema (budget : ℚ) : Option ℚ :=
  if 0 ≤ budget ∧ budget ≤ maxPlanCostUsd then some budget else none

/-- `z.number().positive().finite().max(bound)` -/
def positiveSchema (bound value : ℚ) : Option ℚ :=
  if 0 < value ∧ value ≤ bound then some value else none

/-- `z.number().int().positive().finite().max(bound)` -/
def positiveIntSchema (bound value : ℚ) : Option ℚ :=
  if value.isInt then positiveSchema bound value else none

def phaseSchema (phase : OrchestrationPhase) : Option OrchestrationPhase := do
  let phaseId ← idSchema phase.phaseId
  let ownerAgentId ← idSchema phase.ownerAgentId
  let specPath ← boundedPathSchema phase.specPath
  return { phase with phaseId, ownerAgentId, specPath }

def ownershipSchema (owner : Ownership) : Option Ownership := do
  let agentId ← idSchema owner.agentId
  let paths ← owner.paths.mapM boundedPathSchema
  if paths = [] then none else some { agentId, paths }

def waveSchema (wave : OrchestrationWave) : Option OrchestrationWave := do
  let waveId ← idSchema wave.waveId
  let verify ← wave.verify.mapM idSchema
  let budgetUsd ← boundedBudgetSchema wave.budgetUsd
  let ownership ← wave.ownership.mapM ownershipSchema
  let phases ← wave.phases.mapM phaseSchema
  if phases = [] then none else some { waveId, verify, budgetUsd, ownership, phases }

/-- The object that `planSchema` refines. -/
def planShape (plan : OrchestrationPlan) : Option OrchestrationPlan := do
  let planId ← idSchema plan.planId
  let goal ← boundedTextSchema plan.goal
  let maxIterations ← positiveIntSchema maxPlanIterations plan.maxIterations
  let maxRuntimeMinutes ← positiveIntSchema maxPlanRuntimeMinutes plan.maxRuntimeMinutes
  let maxCostUsd ← positiveSchema maxPlanCostUsd plan.maxCostUsd
  let waves ← plan.waves.mapM waveSchema
  if waves = [] then none
  else some { plan with planId, goal, maxIterations, maxRuntimeMinutes, maxCostUsd, waves }

/-- A step into a plan: the name of a field, or an index. -/
inductive PathPart
  | field (name : String)
  | index (position : Nat)
  deriving DecidableEq

structure Issue where
  path : List PathPart
  message : String
  deriving DecidableEq

/-- The issue a check raises when it fails. -/
def raiseIf (failed : Bool) (path : List PathPart) (message : String) : List Issue :=
  if failed then [{ path, message }] else []

def ownedPathIssues (waveIndex ownerIndex : Nat) (paths : List String) : List Issue :=
  paths.zipIdx.flatMap fun (ownedPath, pathIndex) =>
    raiseIf (ownershipPathEscapesRoot ownedPath.toList)
      [.field "waves", .index waveIndex, .field "ownership", .index ownerIndex,
        .field "paths", .index pathIndex]
      ("Ownership path " ++ ownedPath ++ " must stay inside the repository root.")

/-- The loop over `wave.ownership`; `ownerIds` are the agents of the entries before. -/
def ownerIssues (waveIndex : Nat) (waveId : String) :
    List String → List (Ownership × Nat) → List Issue
  | _, [] => []
  | ownerIds, (owner, ownerIndex) :: rest =>
      raiseIf (ownerIds.contains owner.agentId)
        [.field "waves", .index waveIndex, .field "ownership", .index ownerIndex,
          .field "agentId"]
        ("Duplicate owner agentId " ++ owner.agentId ++ " in wave " ++ waveId ++ ".")
      ++ ownedPathIssues waveIndex ownerIndex owner.paths
      ++ ownerIssues waveIndex waveId (owner.agentId :: ownerIds) rest

/-- The loop over `wave.phases`; `phaseIds` are the phases before, of this wave and of
those before it. -/
def phaseIssues (waveIndex : Nat) (waveId : String) (ownerIds : List String) :
    List String → List (OrchestrationPhase × Nat) → List Issue
  | _, [] => []
  | phaseIds, (phase, phaseIndex) :: rest =>
      raiseIf (phaseIds.contains phase.phaseId)
        [.field "waves", .index waveIndex, .field "phases", .index phaseIndex,
          .field "phaseId"]
        ("Duplicate phaseId " ++ phase.phaseId ++ ".")
      ++ raiseIf (!ownerIds.contains phase.ownerAgentId)
        [.field "waves", .index waveIndex, .field "phases", .index phaseIndex,
          .field "ownerAgentId"]
        ("Phase owner " ++ phase.ownerAgentId ++ " is not declared in wave " ++ waveId ++
          " ownership.")
      ++ phaseIssues waveIndex waveId ownerIds (phase.phaseId :: phaseIds) rest

def OrchestrationWave.phaseIds (wave : OrchestrationWave) : List String :=
  wave.phases.map (·.phaseId)

/-- The phases of a list of waves in the order they run in. -/
def phaseIdsOf (waves : List OrchestrationWave) : List String :=
  waves.flatMap OrchestrationWave.phaseIds

/-- The first loop over the waves. -/
def waveIssues : List String → List String → List (OrchestrationWave × Nat) → List Issue
  | _, _, [] => []
  | waveIds, phaseIds, (wave, waveIndex) :: rest =>
      raiseIf (waveIds.contains wave.waveId)
        [.field "waves", .index waveIndex, .field "waveId"]
        ("Duplicate waveId " ++ wave.waveId ++ ".")
      ++ ownerIssues waveIndex wave.waveId [] wave.ownership.zipIdx
      ++ phaseIssues waveIndex wave.waveId (wave.ownership.map (·.agentId)) phaseIds
        wave.phases.zipIdx
      ++ waveIssues (wave.waveId :: waveIds) (wave.phaseIds.reverse ++ phaseIds) rest

/-- `phaseWaveIndexes.get(phaseId)`: a phase named twice is of the last wave that
names it. -/
def phaseWaveIndex (waves : List OrchestrationWave) (phaseId : String) : Option Nat :=
  (waves.zipIdx.reverse.find? fun wave => wave.1.phaseIds.contains phaseId).map (·.2)

/-- The second loop over the waves. -/
def verifyIssues (waves : List OrchestrationWave) : List Issue :=
  waves.zipIdx.flatMap fun (wave, waveIndex) =>
    wave.verify.zipIdx.flatMap fun (verifyPhaseId, verifyIndex) =>
      let path : List PathPart :=
        [.field "waves", .index waveIndex, .field "verify", .index verifyIndex]
      match phaseWaveIndex waves verifyPhaseId with
      | none =>
          [{ path, message := "verify entry " ++ verifyPhaseId ++
              " does not reference any declared phaseId." }]
      | some referencedWaveIndex =>
          raiseIf (waveIndex ≤ referencedWaveIndex) path
            ("verify entry " ++ verifyPhaseId ++ " must reference a phase from a preceding wave.")

/-- The issues that the refinement of `planSchema` adds. -/
def refinePlan (plan : OrchestrationPlan) : List Issue :=
  waveIssues [] [] plan.waves.zipIdx ++ verifyIssues plan.waves

/-- Why a plan is refused. -/
inductive EngineError
  /-- A field is not of its schema. -/
  | malformed
  /-- The fields are, but the refinement has issues. -/
  | refused (issues : List Issue)
  | message (text : String)
  deriving DecidableEq

def validatePlan (input : OrchestrationPlan) : Except EngineError OrchestrationPlan :=
  match planShape input with
  | none => .error .malformed
  | some plan => if refinePlan plan = [] then .ok plan else .error (.refused (refinePlan plan))

section

variable (mapping : CaseMapping)

/-- The loop of `validate` over the waves. -/
def checkConflicts : List OrchestrationWave → Except EngineError Unit
  | [] => .ok ()
  | wave :: rest =>
      match findOwnershipConflicts mapping wave with
      | [] => checkConflicts rest
      | first :: _ =>
          .error (.message ("Wave " ++ wave.waveId ++ " ownership conflict: " ++ first.agentA ++
            ":" ++ first.pathA ++ " overlaps " ++ first.agentB ++ ":" ++ first.pathB))

/-- The schema's own copy of the plan is dropped: the conflicts are looked for in the
plan as it was given. -/
def validate (plan : OrchestrationPlan) : Except EngineError Unit := do
  let _ ← validatePlan plan
  checkConflicts mapping plan.waves

end

/-! ## What the schema accepts -/

/-- The texts of a plan as the schema reads them. -/
def OrchestrationPhase.trimmed (phase : OrchestrationPhase) : OrchestrationPhase :=
  { phase with
    phaseId := trim phase.phaseId
    ownerAgentId := trim phase.ownerAgentId
    specPath := trim phase.specPath }

def Ownership.trimmed (owner : Ownership) : Ownership :=
  { agentId := trim owner.agentId, paths := owner.paths.map trim }

def OrchestrationWave.trimmed (wave : OrchestrationWave) : OrchestrationWave :=
  { wave with
    waveId := trim wave.waveId
    verify := wave.verify.map trim
    ownership := wave.ownership.map Ownership.trimmed
    phases := wave.phases.map OrchestrationPhase.trimmed }

theorem mapM_eq_map {α : Type} {schema : α → Option α} {read : α → α}
    (hschema : ∀ value parsed, schema value = some parsed → parsed = read value)
    {values parsed : List α} (h : values.mapM schema = some parsed) :
    parsed = values.map read := by
  induction values generalizing parsed with
  | nil =>
      rw [List.mapM_nil] at h
      cases h
      rfl
  | cons value values ih =>
      rw [List.mapM_cons] at h
      obtain ⟨first, hfirst, h⟩ := Option.bind_eq_some_iff.mp h
      obtain ⟨rest, hrest, h⟩ := Option.bind_eq_some_iff.mp h
      cases h
      rw [List.map_cons, hschema value first hfirst, ih hrest]

theorem boundedString_eq {maxLength : Nat} {text parsed : String}
    (h : boundedString maxLength text = some parsed) : parsed = trim text := by
  simp only [boundedString] at h
  split at h
  · exact (Option.some.inj h).symm
  · cases h

theorem phaseSchema_eq {phase parsed : OrchestrationPhase}
    (h : phaseSchema phase = some parsed) : parsed = phase.trimmed := by
  obtain ⟨phaseId, hphase, h⟩ := Option.bind_eq_some_iff.mp h
  obtain ⟨ownerAgentId, howner, h⟩ := Option.bind_eq_some_iff.mp h
  obtain ⟨specPath, hspec, h⟩ := Option.bind_eq_some_iff.mp h
  cases h
  rw [boundedString_eq hphase, boundedString_eq howner, boundedString_eq hspec]
  rfl

theorem ownershipSchema_eq {owner parsed : Ownership}
    (h : ownershipSchema owner = some parsed) : parsed = owner.trimmed := by
  obtain ⟨agentId, hagent, h⟩ := Option.bind_eq_some_iff.mp h
  obtain ⟨paths, hpaths, h⟩ := Option.bind_eq_some_iff.mp h
  rw [boundedString_eq hagent, mapM_eq_map (fun _ _ => boundedString_eq) hpaths] at h
  split at h
  · cases h
  · exact (Option.some.inj h).symm

theorem boundedBudgetSchema_eq {budget parsed : ℚ}
    (h : boundedBudgetSchema budget = some parsed) : parsed = budget := by
  unfold boundedBudgetSchema at h
  split at h
  · exact (Option.some.inj h).symm
  · cases h

theorem waveSchema_eq {wave parsed : OrchestrationWave} (h : waveSchema wave = some parsed) :
    parsed = wave.trimmed ∧ wave.phases ≠ [] := by
  obtain ⟨waveId, hwave, h⟩ := Option.bind_eq_some_iff.mp h
  obtain ⟨verify, hverify, h⟩ := Option.bind_eq_some_iff.mp h
  obtain ⟨budgetUsd, hbudget, h⟩ := Option.bind_eq_some_iff.mp h
  obtain ⟨ownership, hownership, h⟩ := Option.bind_eq_some_iff.mp h
  obtain ⟨phases, hphases, h⟩ := Option.bind_eq_some_iff.mp h
  rw [boundedString_eq hwave, mapM_eq_map (fun _ _ => boundedString_eq) hverify,
    boundedBudgetSchema_eq hbudget, mapM_eq_map (fun _ _ => ownershipSchema_eq) hownership,
    mapM_eq_map (fun _ _ => phaseSchema_eq) hphases] at h
  split at h
  · cases h
  · rename_i hne
    refine ⟨(Option.some.inj h).symm, ?_⟩
    intro hnil
    rw [hnil] at hne
    exact hne rfl

theorem mapM_forall {α β : Type} {schema : α → Option β} {values : List α} {parsed : List β}
    (h : values.mapM schema = some parsed) :
    ∀ value ∈ values, ∃ result, schema value = some result := by
  induction values generalizing parsed with
  | nil =>
      intro value hvalue
      cases hvalue
  | cons first values ih =>
      rw [List.mapM_cons] at h
      obtain ⟨result, hfirst, h⟩ := Option.bind_eq_some_iff.mp h
      obtain ⟨rest, hrest, -⟩ := Option.bind_eq_some_iff.mp h
      intro value hvalue
      obtain rfl | hmem := List.mem_cons.mp hvalue
      · exact ⟨result, hfirst⟩
      · exact ih hrest value hmem

theorem exists_of_positiveIntSchema {bound value parsed : ℚ}
    (h : positiveIntSchema bound value = some parsed) : ∃ n : ℕ, 0 < n ∧ value = n := by
  simp only [positiveIntSchema, positiveSchema] at h
  split at h
  · rename_i hint
    split at h
    · rename_i hpos
      have hnum : (value.num : ℚ) = value :=
        Rat.coe_int_num_of_den_eq_one (beq_iff_eq.mp hint)
      obtain ⟨n, hn⟩ := Int.eq_ofNat_of_zero_le (Rat.num_pos.mpr hpos.1).le
      refine ⟨n, ?_, ?_⟩
      · have hpositive := Rat.num_pos.mpr hpos.1
        omega
      · rw [← hnum, hn]
        rfl
    · cases h
  · cases h

theorem planShape_eq {plan parsed : OrchestrationPlan} (h : planShape plan = some parsed) :
    parsed.waves = plan.waves.map OrchestrationWave.trimmed ∧ plan.waves ≠ [] ∧
      (∀ wave ∈ plan.waves, wave.phases ≠ []) ∧ ∃ n : ℕ, 0 < n ∧ plan.maxIterations = n := by
  obtain ⟨planId, -, h⟩ := Option.bind_eq_some_iff.mp h
  obtain ⟨goal, -, h⟩ := Option.bind_eq_some_iff.mp h
  obtain ⟨maxIterations, hiterations, h⟩ := Option.bind_eq_some_iff.mp h
  obtain ⟨maxRuntimeMinutes, -, h⟩ := Option.bind_eq_some_iff.mp h
  obtain ⟨maxCostUsd, -, h⟩ := Option.bind_eq_some_iff.mp h
  obtain ⟨waves, hwaves, h⟩ := Option.bind_eq_some_iff.mp h
  have hread : waves = plan.waves.map OrchestrationWave.trimmed :=
    mapM_eq_map (fun _ _ hwave => (waveSchema_eq hwave).1) hwaves
  rw [hread] at h
  split at h
  · cases h
  · rename_i hne
    cases h
    refine ⟨rfl, ?_, ?_, exists_of_positiveIntSchema hiterations⟩
    · intro hnil
      rw [hnil] at hne
      exact hne rfl
    · intro wave hwave
      obtain ⟨result, hresult⟩ := mapM_forall hwaves wave hwave
      exact (waveSchema_eq hresult).2

/-! ### The refinement -/

theorem raiseIf_eq_nil {failed : Bool} {path : List PathPart} {message : String} :
    raiseIf failed path message = [] ↔ failed = false := by
  cases failed with
  | true => simp [raiseIf]
  | false => simp [raiseIf]

theorem exists_mem_zipIdx {α : Type} {value : α} {values : List α} (h : value ∈ values) :
    ∃ index, (value, index) ∈ values.zipIdx := by
  obtain ⟨index, hindex⟩ := List.mem_iff_getElem?.mp h
  exact ⟨index, List.mk_mem_zipIdx_iff_getElem?.mpr hindex⟩

theorem map_fst_zipIdx {α β : Type} (read : α → β) (values : List α) :
    values.zipIdx.map (fun value => read value.1) = values.map read := by
  conv_rhs => rw [← List.zipIdx_map_fst 0 values, List.map_map]
  rfl

theorem escapes_of_ownerIssues {waveIndex : Nat} {waveId : String} {ownerIds : List String}
    {owners : List (Ownership × Nat)} (h : ownerIssues waveIndex waveId ownerIds owners = []) :
    ∀ owner ∈ owners, ∀ path ∈ owner.1.paths, ownershipPathEscapesRoot path.toList = false := by
  induction owners generalizing ownerIds with
  | nil =>
      intro owner howner
      cases howner
  | cons first rest ih =>
      obtain ⟨hfirst, hrest⟩ := List.append_eq_nil_iff.mp h
      obtain ⟨-, hpaths⟩ := List.append_eq_nil_iff.mp hfirst
      intro owner howner path hpath
      obtain rfl | hmem := List.mem_cons.mp howner
      · obtain ⟨index, hindex⟩ := exists_mem_zipIdx hpath
        have hnone := List.flatMap_eq_nil_iff.mp hpaths (path, index) hindex
        exact raiseIf_eq_nil.mp hnone
      · exact ih hrest owner hmem path hpath

theorem nodup_of_phaseIssues {waveIndex : Nat} {waveId : String}
    {ownerIds phaseIds : List String} {phases : List (OrchestrationPhase × Nat)}
    (h : phaseIssues waveIndex waveId ownerIds phaseIds phases = []) (hseen : phaseIds.Nodup) :
    ((phases.map (·.1.phaseId)).reverse ++ phaseIds).Nodup := by
  induction phases generalizing phaseIds with
  | nil => exact hseen
  | cons phase rest ih =>
      obtain ⟨hfirst, hrest⟩ := List.append_eq_nil_iff.mp h
      obtain ⟨hfresh, -⟩ := List.append_eq_nil_iff.mp hfirst
      have hnew : phase.1.phaseId ∉ phaseIds := by
        simpa using raiseIf_eq_nil.mp hfresh
      have hnext := ih hrest (List.nodup_cons.mpr ⟨hnew, hseen⟩)
      simpa using hnext

theorem nodup_of_waveIssues {waveIds phaseIds : List String}
    {waves : List (OrchestrationWave × Nat)} (h : waveIssues waveIds phaseIds waves = [])
    (hwaves : waveIds.Nodup) (hphases : phaseIds.Nodup) :
    ((waves.map (·.1.waveId)).reverse ++ waveIds).Nodup ∧
      ((phaseIdsOf (waves.map (·.1))).reverse ++ phaseIds).Nodup := by
  induction waves generalizing waveIds phaseIds with
  | nil => exact ⟨hwaves, hphases⟩
  | cons wave rest ih =>
      obtain ⟨hfirst, hrest⟩ := List.append_eq_nil_iff.mp h
      obtain ⟨hfirst, hofWave⟩ := List.append_eq_nil_iff.mp hfirst
      obtain ⟨hfresh, -⟩ := List.append_eq_nil_iff.mp hfirst
      have hnew : wave.1.waveId ∉ waveIds := by
        simpa using raiseIf_eq_nil.mp hfresh
      have hmore := nodup_of_phaseIssues hofWave hphases
      rw [map_fst_zipIdx] at hmore
      obtain ⟨hwaves', hphases'⟩ := ih hrest (List.nodup_cons.mpr ⟨hnew, hwaves⟩) hmore
      constructor
      · simpa using hwaves'
      · simpa [phaseIdsOf] using hphases'

theorem ownerIssues_of_waveIssues {waveIds phaseIds : List String}
    {waves : List (OrchestrationWave × Nat)} (h : waveIssues waveIds phaseIds waves = []) :
    ∀ wave ∈ waves, ownerIssues wave.2 wave.1.waveId [] wave.1.ownership.zipIdx = [] := by
  induction waves generalizing waveIds phaseIds with
  | nil =>
      intro wave hwave
      cases hwave
  | cons first rest ih =>
      obtain ⟨hfirst, hrest⟩ := List.append_eq_nil_iff.mp h
      obtain ⟨hfirst, -⟩ := List.append_eq_nil_iff.mp hfirst
      obtain ⟨-, howners⟩ := List.append_eq_nil_iff.mp hfirst
      intro wave hwave
      obtain rfl | hmem := List.mem_cons.mp hwave
      · exact howners
      · exact ih hrest wave hmem

/-- What the runs of a plan need of it. -/
structure WellFormed (plan : OrchestrationPlan) : Prop where
  waves_ne_nil : plan.waves ≠ []
  phases_ne_nil : ∀ wave ∈ plan.waves, wave.phases ≠ []
  maxIterations_eq : ∃ n : ℕ, 0 < n ∧ plan.maxIterations = n
  waveIds_nodup : (plan.waves.map (·.waveId)).Nodup
  phaseIds_nodup : (phaseIdsOf plan.waves).Nodup

section

variable {mapping : CaseMapping} {plan : OrchestrationPlan}

theorem checkConflicts_eq_ok {waves : List OrchestrationWave} :
    checkConflicts mapping waves = .ok () ↔
      ∀ wave ∈ waves, findOwnershipConflicts mapping wave = [] := by
  induction waves with
  | nil => simp [checkConflicts]
  | cons wave rest ih =>
      rw [List.forall_mem_cons, ← ih, checkConflicts]
      split
      · rename_i hnone
        simp [hnone]
      · rename_i first others hsome
        simp [hsome]

theorem validate_eq_ok (h : validate mapping plan = .ok ()) :
    (∃ parsed, planShape plan = some parsed ∧ refinePlan parsed = []) ∧
      ∀ wave ∈ plan.waves, findOwnershipConflicts mapping wave = [] := by
  obtain ⟨parsed, hparsed, hconflicts⟩ := bind_eq_ok.mp h
  refine ⟨?_, checkConflicts_eq_ok.mp hconflicts⟩
  unfold validatePlan at hparsed
  split at hparsed
  · cases hparsed
  · rename_i shape hshape
    split at hparsed
    · exact ⟨shape, hshape, ‹_›⟩
    · cases hparsed

theorem wellFormed_of_validate (h : validate mapping plan = .ok ()) : WellFormed plan := by
  obtain ⟨⟨parsed, hshape, hrefine⟩, -⟩ := validate_eq_ok h
  obtain ⟨hwaves, hne, hphases, hiterations⟩ := planShape_eq hshape
  obtain ⟨hissues, -⟩ := List.append_eq_nil_iff.mp hrefine
  obtain ⟨hwaveIds, hphaseIds⟩ := nodup_of_waveIssues hissues List.nodup_nil List.nodup_nil
  rw [List.append_nil, List.nodup_reverse] at hwaveIds hphaseIds
  have hids : (parsed.waves.zipIdx.map (·.1.waveId)) = (plan.waves.map (·.waveId)).map trim := by
    rw [map_fst_zipIdx, hwaves, List.map_map, List.map_map]
    rfl
  rw [hids] at hwaveIds
  rw [List.zipIdx_map_fst, hwaves] at hphaseIds
  have hphaseIds' : phaseIdsOf (plan.waves.map OrchestrationWave.trimmed) =
      (phaseIdsOf plan.waves).map trim := by
    rw [phaseIdsOf, List.flatMap_map, phaseIdsOf, List.map_flatMap]
    simp only [OrchestrationWave.phaseIds, OrchestrationWave.trimmed, List.map_map]
    rfl
  rw [hphaseIds'] at hphaseIds
  exact ⟨hne, hphases, hiterations, hwaveIds.of_map, hphaseIds.of_map⟩

/-- No trimmed path of an accepted plan escapes. -/
theorem inside_of_validate (h : validate mapping plan = .ok ()) {wave : OrchestrationWave}
    (hwave : wave ∈ plan.waves) {owner : Ownership} (howner : owner ∈ wave.ownership)
    {path : String} (hpath : path ∈ owner.paths) :
    ownershipPathEscapesRoot (trim path).toList = false := by
  obtain ⟨⟨parsed, hshape, hrefine⟩, -⟩ := validate_eq_ok h
  obtain ⟨hwaves, -⟩ := planShape_eq hshape
  obtain ⟨hissues, -⟩ := List.append_eq_nil_iff.mp hrefine
  have hmem : wave.trimmed ∈ parsed.waves := by
    rw [hwaves]
    exact List.mem_map_of_mem hwave
  obtain ⟨waveIndex, hwaveIndex⟩ := exists_mem_zipIdx hmem
  have howners := ownerIssues_of_waveIssues hissues _ hwaveIndex
  obtain ⟨ownerIndex, hownerIndex⟩ :=
    exists_mem_zipIdx (List.mem_map_of_mem (f := Ownership.trimmed) howner)
  exact escapes_of_ownerIssues howners _ hownerIndex _ (List.mem_map_of_mem hpath)

end

end GoatCitadel.Orchestration
