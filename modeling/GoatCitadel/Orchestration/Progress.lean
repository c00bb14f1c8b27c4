import Mathlib.Algebra.Order.Ring.Rat
import Mathlib.Data.List.Nodup
import Mathlib.Data.Nat.Cast.Order.Ring
import GoatCitadel.Orchestration.Engine

/-!
# Where a run stands

The phases of an accepted plan, taken wave by wave, form one row of slots without
repetition.  A run stands at one slot of the row, and each call moves it to the next
slot or ends it.  Along the row the engine keeps its promises about order, approvals
and iterations.
-/

namespace GoatCitadel.Orchestration

open GoatCitadel.Support

/-! ## The phases of a plan in a row -/

/-- The phases of the waves in the order they run in, each with its wave. -/
def slotsOf (waves : List OrchestrationWave) : List (OrchestrationWave × OrchestrationPhase) :=
  waves.flatMap fun wave => wave.phases.map fun phase => (wave, phase)

section

variable {waves : List OrchestrationWave} {wave : OrchestrationWave}
  {slot slot' : OrchestrationWave × OrchestrationPhase}

theorem phaseIdsOf_eq (waves : List OrchestrationWave) :
    phaseIdsOf waves = (slotsOf waves).map (·.2.phaseId) := by
  simp only [phaseIdsOf, slotsOf, List.map_flatMap, List.map_map]
  rfl

theorem slotsOf_cons (wave : OrchestrationWave) (waves : List OrchestrationWave) :
    slotsOf (wave :: waves) = wave.phases.map (fun phase => (wave, phase)) ++ slotsOf waves :=
  List.flatMap_cons

theorem mem_slotsOf : slot ∈ slotsOf waves ↔ slot.1 ∈ waves ∧ slot.2 ∈ slot.1.phases := by
  constructor
  · intro h
    obtain ⟨wave, hwave, h⟩ := List.mem_flatMap.mp h
    obtain ⟨phase, hphase, rfl⟩ := List.mem_map.mp h
    exact ⟨hwave, hphase⟩
  · rintro ⟨hwave, hphase⟩
    exact List.mem_flatMap.mpr ⟨slot.1, hwave, List.mem_map.mpr ⟨slot.2, hphase, rfl⟩⟩

theorem slot_eq_of_phaseId_eq (hnodup : (phaseIdsOf waves).Nodup) (h : slot ∈ slotsOf waves)
    (h' : slot' ∈ slotsOf waves) (hid : slot.2.phaseId = slot'.2.phaseId) : slot = slot' := by
  rw [phaseIdsOf_eq] at hnodup
  exact List.inj_on_of_nodup_map hnodup h h' hid

theorem findIdx?_of_nodup {phases : List OrchestrationPhase} {index : Nat}
    {phase : OrchestrationPhase} (hnodup : (phases.map (·.phaseId)).Nodup)
    (h : phases[index]? = some phase) :
    phases.findIdx? (·.phaseId == phase.phaseId) = some index := by
  obtain ⟨hlt, hget⟩ := List.getElem?_eq_some_iff.mp h
  rw [List.findIdx?_eq_some_iff_getElem]
  refine ⟨hlt, by simp [hget], ?_⟩
  intro earlier hearlier hsame
  have hbound : earlier < (phases.map (·.phaseId)).length := by
    rw [List.length_map]
    omega
  have hids : (phases.map (·.phaseId))[earlier]? = (phases.map (·.phaseId))[index]? := by
    rw [List.getElem?_map, List.getElem?_map, h, List.getElem?_eq_getElem (by omega)]
    simpa using hsame
  have heq : earlier = index := (List.getElem?_inj hbound hnodup).mp hids
  omega

theorem slotsOf_head? (hphases : ∀ wave ∈ waves, wave.phases ≠ []) :
    (slotsOf waves).head? =
      waves.head?.bind fun wave => wave.phases.head?.map fun phase => (wave, phase) := by
  cases waves with
  | nil => rfl
  | cons wave rest =>
      obtain ⟨phase, more, hmore⟩ :=
        List.exists_cons_of_ne_nil (hphases wave List.mem_cons_self)
      simp [slotsOf_cons, hmore]

/-- The phase after a slot is the one of the next slot. -/
theorem nextPhaseIn_eq {planId : String} {index : Nat}
    (hphases : ∀ wave ∈ waves, wave.phases ≠ []) (hnodup : (phaseIdsOf waves).Nodup)
    (h : (slotsOf waves)[index]? = some slot) :
    nextPhaseIn planId slot.2.phaseId waves =
      .ok ((slotsOf waves)[index + 1]?.map fun next =>
        { waveId := next.1.waveId, phaseId := next.2.phaseId }) := by
  induction waves generalizing index with
  | nil => simp [slotsOf] at h
  | cons wave rest ih =>
      have hsplit : phaseIdsOf (wave :: rest) = wave.phaseIds ++ phaseIdsOf rest :=
        List.flatMap_cons
      rw [hsplit] at hnodup
      obtain ⟨hwave, hrest, hdisjoint⟩ := List.nodup_append.mp hnodup
      rw [slotsOf_cons] at h ⊢
      by_cases hlt : index < wave.phases.length
      · rw [List.getElem?_append_left (by simpa using hlt), List.getElem?_map] at h
        obtain ⟨phase, hphase, rfl⟩ := Option.map_eq_some_iff.mp h
        simp only [nextPhaseIn, findIdx?_of_nodup hwave hphase]
        by_cases hlast : index + 1 < wave.phases.length
        · rw [List.getElem?_append_left (by simpa using hlast), List.getElem?_map,
            List.getElem?_eq_getElem hlast]
          rfl
        · have hend : index + 1 = wave.phases.length := by omega
          rw [List.getElem?_append_right (by simp [hend]), List.getElem?_eq_none (by omega),
            List.length_map, hend, Nat.sub_self, ← List.head?_eq_getElem?,
            slotsOf_head? fun wave hmem => hphases wave (List.mem_cons_of_mem _ hmem)]
          cases rest with
          | nil => rfl
          | cons nextWave others => simp [Option.map_map]; rfl
      · rw [List.getElem?_append_right (by simpa using hlt), List.length_map] at h
        have hnot : slot.2.phaseId ∉ wave.phaseIds := by
          intro hmem
          have hlater : slot.2.phaseId ∈ phaseIdsOf rest := by
            rw [phaseIdsOf_eq]
            exact List.mem_map.mpr ⟨slot, List.mem_of_getElem? h, rfl⟩
          exact hdisjoint _ hmem _ hlater rfl
        have hnone : wave.phases.findIdx? (·.phaseId == slot.2.phaseId) = none := by
          rw [List.findIdx?_eq_none_iff]
          intro phase hphase
          exact beq_false_of_ne fun heq => hnot (heq ▸ List.mem_map_of_mem hphase)
        have hnext := ih (fun wave hmem => hphases wave (List.mem_cons_of_mem _ hmem)) hrest h
        simp only [nextPhaseIn, hnone]
        rw [hnext, List.getElem?_append_right (by rw [List.length_map]; omega), List.length_map,
          Nat.sub_add_comm (by omega)]

variable {plan : OrchestrationPlan} (hplan : WellFormed plan) (hslot : slot ∈ slotsOf plan.waves)

include hplan hslot

theorem findPhase_eq : findPhase plan slot.2.phaseId = .ok slot.2 := by
  obtain ⟨hwave, hphase⟩ := mem_slotsOf.mp hslot
  unfold findPhase
  split
  · rename_i phase hfound
    obtain ⟨wave, hmem, hfind⟩ := List.exists_of_findSome?_eq_some hfound
    have hother : (wave, phase) ∈ slotsOf plan.waves :=
      mem_slotsOf.mpr ⟨hmem, List.mem_of_find?_eq_some hfind⟩
    have hid : (phase.phaseId == slot.2.phaseId) = true := by
      have hfirst := List.find?_some hfind
      exact hfirst
    rw [← slot_eq_of_phaseId_eq hplan.phaseIds_nodup hother hslot (beq_iff_eq.mp hid)]
  · rename_i hnone
    have hwaveNone := List.findSome?_eq_none_iff.mp hnone slot.1 hwave
    have hphaseNone := List.find?_eq_none.mp hwaveNone slot.2 hphase
    exact absurd BEq.rfl hphaseNone

theorem findWaveForPhase_eq : findWaveForPhase plan slot.2.phaseId = .ok slot.1 := by
  obtain ⟨hwave, hphase⟩ := mem_slotsOf.mp hslot
  unfold findWaveForPhase
  split
  · rename_i wave hfound
    have hfirst := List.find?_some hfound
    obtain ⟨phase, hmem, hid⟩ := List.any_eq_true.mp hfirst
    have hother : (wave, phase) ∈ slotsOf plan.waves :=
      mem_slotsOf.mpr ⟨List.mem_of_find?_eq_some hfound, hmem⟩
    rw [← slot_eq_of_phaseId_eq hplan.phaseIds_nodup hother hslot (beq_iff_eq.mp hid)]
  · rename_i hnone
    have hwaveNone := List.find?_eq_none.mp hnone slot.1 hwave
    have hnot := List.any_eq_false.mp (Bool.eq_false_iff.mpr hwaveNone) slot.2 hphase
    exact absurd BEq.rfl hnot

theorem isApprovalGated_eq :
    isApprovalGated plan slot.2.phaseId = .ok (plan.mode == .hitl || slot.2.requiresApproval) := by
  unfold isApprovalGated
  rw [findPhase_eq hplan hslot]
  rfl

end

/-! ## What a call does -/

/-- The phase waits for an operator before it runs. -/
def isGated (plan : OrchestrationPlan) (phase : OrchestrationPhase) : Bool :=
  plan.mode == .hitl || phase.requiresApproval

section

variable {runtime : Runtime} {plan : OrchestrationPlan} {run run' : OrchestrationRun}
  {slot : OrchestrationWave × OrchestrationPhase} {phaseId clock : String}
  {options : PhaseAdvanceOptions}

theorem startRun_eq_ok (hplan : WellFormed plan) (h : startRun runtime plan run = .ok run') :
    run.status = .queued ∧ ∃ slot, (slotsOf plan.waves)[0]? = some slot ∧
      run' = { run with
        status := if isGated plan slot.2 then .paused else .running
        currentWaveId := some slot.1.waveId
        currentPhaseId := some slot.2.phaseId
        endedAt := none } := by
  obtain ⟨-, -, h⟩ := bind_eq_ok.mp h
  obtain ⟨hstatus, h⟩ := guard_eq_ok.mp h
  obtain ⟨first, hfirst, h⟩ := bind_eq_ok.mp h
  obtain ⟨gated, hgated, h⟩ := bind_eq_ok.mp h
  refine ⟨not_not.mp hstatus, ?_⟩
  obtain ⟨wave, rest, hwaves⟩ := List.exists_cons_of_ne_nil hplan.waves_ne_nil
  have hmem : wave ∈ plan.waves := by
    rw [hwaves]
    exact List.mem_cons_self
  obtain ⟨phase, more, hphases⟩ := List.exists_cons_of_ne_nil (hplan.phases_ne_nil wave hmem)
  have hslot : (wave, phase) ∈ slotsOf plan.waves :=
    mem_slotsOf.mpr ⟨hmem, by rw [hphases]; exact List.mem_cons_self⟩
  simp only [firstPhase, hwaves, hphases] at hfirst
  cases hfirst
  rw [isApprovalGated_eq hplan hslot] at hgated
  cases hgated
  refine ⟨(wave, phase), ?_, ?_⟩
  · simp [hwaves, slotsOf_cons, hphases]
  · cases h
    rfl

theorem approvePhase_eq_ok {options : PhaseApprovalOptions}
    (h : approvePhase runtime plan run phaseId options clock = .ok run') :
    run.status = .paused ∧ run.currentPhaseId = some phaseId ∧
      ((∃ now, run' = { run with
          status := .stoppedByLimit
          stopReason := some .planLimit
          pendingApprovalPhaseId := none
          pendingApprovedBy := none
          pendingCostIncrementUsd := none
          endedAt := now }) ∨
        run' = { run with
          status := .running
          pendingApprovalPhaseId := some phaseId
          endedAt := none }) := by
  obtain ⟨-, -, h⟩ := bind_eq_ok.mp h
  obtain ⟨hstatus, h⟩ := guard_eq_ok.mp h
  obtain ⟨hphase, h⟩ := guard_eq_ok.mp h
  obtain ⟨gated, hgated, h⟩ := bind_eq_ok.mp h
  obtain ⟨-, h⟩ := guard_eq_ok.mp h
  refine ⟨not_not.mp hstatus, not_not.mp hphase, ?_⟩
  dsimp only at h
  split at h
  · cases h
    exact .inl ⟨_, rfl⟩
  · cases h
    exact .inr rfl

/-- How a run goes on when it leaves a slot; `next` is the slot after it. -/
structure LeavesSlot (runtime : Runtime) (plan : OrchestrationPlan) (run : OrchestrationRun)
    (slot : OrchestrationWave × OrchestrationPhase)
    (next : Option (OrchestrationWave × OrchestrationPhase)) (costIncrementUsd : ℚ)
    (run' : OrchestrationRun) : Prop where
  iterations : run'.totalIterations = run.totalIterations + 1
  total : run'.totalCostUsd = run.totalCostUsd + costIncrementUsd
  record : run'.waveCostUsdByWaveId = some (setEntry slot.1.waveId
    (addCost runtime (readCost run.waveCostUsdByWaveId slot.1.waveId) costIncrementUsd)
    (run.waveCostUsdByWaveId.getD []))
  pending : run'.pendingApprovalPhaseId = none
  completed : next = none → run'.status = .completed
  entered : ∀ slot', next = some slot' → run'.status = .stoppedByLimit ∨
    run'.status = (if isGated plan slot'.2 then .paused else .running) ∧
      run'.currentPhaseId = some slot'.2.phaseId ∧
      (run'.totalIterations : ℚ) < plan.maxIterations

theorem lt_maxIterations_of_not_stop {state : RunLimitState}
    (h : ¬shouldStopByLimits plan state = true) : (state.iterations : ℚ) < plan.maxIterations := by
  unfold shouldStopByLimits at h
  simp only [Bool.or_eq_true, decide_eq_true_eq, not_or, not_le] at h
  exact h.1.1

theorem enteredStatus_eq (hplan : WellFormed plan) (hslot : slot ∈ slotsOf plan.waves) :
    enteredStatus plan (some { waveId := slot.1.waveId, phaseId := slot.2.phaseId }) =
      .ok (if isGated plan slot.2 then .paused else .running) := by
  simp only [enteredStatus, isApprovalGated_eq hplan hslot]
  rfl

theorem advanceFromPhase_eq_ok (hplan : WellFormed plan) {index : Nat}
    (hslot : (slotsOf plan.waves)[index]? = some slot)
    (h : advanceFromPhase runtime plan run slot.2.phaseId options clock = .ok run') :
    LeavesSlot runtime plan run slot (slotsOf plan.waves)[index + 1]?
      (options.costIncrementUsd.getD 0) run' := by
  have hmem : slot ∈ slotsOf plan.waves := List.mem_of_getElem? hslot
  have hnext : nextPhase plan slot.2.phaseId = _ :=
    nextPhaseIn_eq hplan.phases_ne_nil hplan.phaseIds_nodup hslot
  obtain ⟨next, hnextPhase, h⟩ := bind_eq_ok.mp h
  obtain ⟨wave, hwave, h⟩ := bind_eq_ok.mp h
  obtain ⟨status, hstatus, h⟩ := bind_eq_ok.mp h
  rw [hnext] at hnextPhase
  cases hnextPhase
  rw [findWaveForPhase_eq hplan hmem] at hwave
  cases hwave
  cases hafter : (slotsOf plan.waves)[index + 1]? with
  | none =>
      rw [hafter] at h hstatus
      cases hstatus
      cases h
      exact ⟨rfl, rfl, rfl, rfl, fun _ => rfl, fun _ hsome => absurd hsome (by simp)⟩
  | some slot' =>
      rw [hafter] at h hstatus
      rw [Option.map_some, enteredStatus_eq hplan (List.mem_of_getElem? hafter)] at hstatus
      cases hstatus
      dsimp only [Option.map_some, Option.isNone_some] at h
      rw [if_neg Bool.false_ne_true] at h
      split at h
      · cases h
        exact ⟨rfl, rfl, rfl, rfl, fun hnone => absurd hnone (by simp), fun _ _ => .inl rfl⟩
      · rename_i hlimits
        split at h
        · cases h
          exact ⟨rfl, rfl, rfl, rfl, fun hnone => absurd hnone (by simp), fun _ _ => .inl rfl⟩
        · cases h
          refine ⟨rfl, rfl, rfl, rfl, fun hnone => absurd hnone (by simp), ?_⟩
          intro slot'' heq
          cases heq
          exact .inr ⟨rfl, rfl, lt_maxIterations_of_not_stop hlimits⟩

theorem running_of_advancePhase
    (h : advancePhase runtime plan run phaseId options clock = .ok run') :
    run.status = .running := by
  obtain ⟨-, -, h⟩ := bind_eq_ok.mp h
  obtain ⟨hstatus, -⟩ := guard_eq_ok.mp h
  exact not_not.mp hstatus

theorem advancePhase_eq_ok (hplan : WellFormed plan) {index : Nat}
    (hslot : (slotsOf plan.waves)[index]? = some slot)
    (hcurrent : run.currentPhaseId = some slot.2.phaseId)
    (h : advancePhase runtime plan run phaseId options clock = .ok run') :
    phaseId = slot.2.phaseId ∧
      (isGated plan slot.2 = true → run.pendingApprovalPhaseId = some phaseId) ∧
      LeavesSlot runtime plan run slot (slotsOf plan.waves)[index + 1]?
        (options.costIncrementUsd.getD 0) run' := by
  obtain ⟨-, -, h⟩ := bind_eq_ok.mp h
  obtain ⟨-, h⟩ := guard_eq_ok.mp h
  obtain ⟨hphase, h⟩ := guard_eq_ok.mp h
  have hid : phaseId = slot.2.phaseId := by
    rw [not_not, hcurrent] at hphase
    exact (Option.some.inj hphase).symm
  subst hid
  obtain ⟨gated, hgated, h⟩ := bind_eq_ok.mp h
  obtain ⟨happroved, h⟩ := guard_eq_ok.mp h
  rw [isApprovalGated_eq hplan (List.mem_of_getElem? hslot)] at hgated
  refine ⟨rfl, ?_, advanceFromPhase_eq_ok hplan hslot h⟩
  intro hgate
  cases hgated
  by_contra hpending
  exact happroved (by simpa [isGated, hpending] using hgate)

end

/-! ## Advances and approvals -/

/-- The phases that the calls of a run have advanced, with what each of them cost. -/
def advancedPhases (calls : List EngineCall) : List (String × ℚ) :=
  calls.filterMap fun
    | .advance phaseId options _ => some (phaseId, options.costIncrementUsd.getD 0)
    | _ => none

section

variable (runtime : Runtime) (plan : OrchestrationPlan)

/-- Among the calls there is an approval of the phase, made while it was the current one,
and no advance after it. -/
def ApprovedIn (start : OrchestrationRun) (calls : List EngineCall) (phaseId : String) : Prop :=
  ∃ front options clock rest run,
    calls = front ++ .approve phaseId options clock :: rest ∧ advancedPhases rest = [] ∧
      Run (Performs runtime plan) start front run ∧ run.currentPhaseId = some phaseId

end

theorem advancedPhases_append (calls calls' : List EngineCall) :
    advancedPhases (calls ++ calls') = advancedPhases calls ++ advancedPhases calls' :=
  List.filterMap_append

theorem advancedPhases_snoc_advance (calls : List EngineCall) (phaseId : String)
    (options : PhaseAdvanceOptions) (clock : String) :
    advancedPhases (calls ++ [.advance phaseId options clock]) =
      advancedPhases calls ++ [(phaseId, options.costIncrementUsd.getD 0)] := by
  rw [advancedPhases_append]
  rfl

/-! ## Order, gates and iterations -/

section

variable {runtime : Runtime} {plan : OrchestrationPlan} {start run run' : OrchestrationRun}
  {calls : List EngineCall} {call : EngineCall}

/-- Where a run stands after it has left `position` slots. -/
def Standing (plan : OrchestrationPlan) (run : OrchestrationRun) (position : Nat) : Prop :=
  match run.status with
  | .queued => position = 0
  | .running | .paused =>
      (position : ℚ) < plan.maxIterations ∧ ∃ slot, (slotsOf plan.waves)[position]? = some slot ∧
        run.currentPhaseId = some slot.2.phaseId
  | .completed => position = (slotsOf plan.waves).length
  | .stoppedByLimit => position < (slotsOf plan.waves).length
  | .failed | .cancelled => False

/-- Every advance of a gated phase comes after an approval of it. -/
def GatesHonoured (runtime : Runtime) (plan : OrchestrationPlan) (start : OrchestrationRun)
    (calls : List EngineCall) : Prop :=
  ∀ before phaseId options clock after,
    calls = before ++ .advance phaseId options clock :: after →
      ∀ slot ∈ slotsOf plan.waves, slot.2.phaseId = phaseId → isGated plan slot.2 = true →
        ApprovedIn runtime plan start before phaseId

/-- What holds of a run and of the calls that led to it. -/
structure Progress (runtime : Runtime) (plan : OrchestrationPlan) (start : OrchestrationRun)
    (calls : List EngineCall) (run : OrchestrationRun) : Prop where
  reached : Run (Performs runtime plan) start calls run
  advanced : (advancedPhases calls).map (·.1) =
    (phaseIdsOf plan.waves).take (advancedPhases calls).length
  iterations : run.totalIterations = (advancedPhases calls).length
  bounded : (run.totalIterations : ℚ) ≤ plan.maxIterations
  standing : Standing plan run run.totalIterations
  pending : ∀ phaseId, run.pendingApprovalPhaseId = some phaseId →
    ApprovedIn runtime plan start calls phaseId
  gates : GatesHonoured runtime plan start calls

theorem standing_of_position {position : Nat} (h : Standing plan run position)
    (hstatus : run.status = .running ∨ run.status = .paused) :
    (position : ℚ) < plan.maxIterations ∧ ∃ slot, (slotsOf plan.waves)[position]? = some slot ∧
      run.currentPhaseId = some slot.2.phaseId := by
  unfold Standing at h
  obtain hstatus | hstatus := hstatus
  · rw [hstatus] at h
    exact h
  · rw [hstatus] at h
    exact h

/-- A call that is no advance keeps the approval. -/
theorem ApprovedIn.snoc {phaseId : String} (h : ApprovedIn runtime plan start calls phaseId)
    (hcall : advancedPhases [call] = []) :
    ApprovedIn runtime plan start (calls ++ [call]) phaseId := by
  obtain ⟨front, options, clock, rest, run, hcalls, hrest, hrun, hcurrent⟩ := h
  refine ⟨front, options, clock, rest ++ [call], run, ?_, ?_, hrun, hcurrent⟩
  · rw [hcalls, List.append_assoc, List.cons_append]
  · rw [advancedPhases_append, hrest, hcall]
    rfl

/-- An advance in a run that goes on is an earlier one or the last call. -/
theorem eq_or_append_of_snoc {before after : List EngineCall} {last : EngineCall}
    (h : calls ++ [last] = before ++ call :: after) :
    (calls = before ∧ last = call) ∨ ∃ after', calls = before ++ call :: after' := by
  induction after using List.reverseRecOn with
  | nil =>
      obtain ⟨hcalls, hlast⟩ := List.append_inj' h rfl
      exact .inl ⟨hcalls, (List.cons.inj hlast).1⟩
  | append_singleton after final =>
      rw [← List.cons_append, ← List.append_assoc] at h
      exact .inr ⟨after, (List.append_inj' h rfl).1⟩

theorem GatesHonoured.snoc (hgates : GatesHonoured runtime plan start calls)
    (hcall : ∀ phaseId options clock, call = .advance phaseId options clock →
      ∀ slot ∈ slotsOf plan.waves, slot.2.phaseId = phaseId → isGated plan slot.2 = true →
        ApprovedIn runtime plan start calls phaseId) :
    GatesHonoured runtime plan start (calls ++ [call]) := by
  intro before phaseId options clock after hsplit
  obtain ⟨rfl, rfl⟩ | ⟨after', hcalls⟩ := eq_or_append_of_snoc hsplit
  · exact hcall phaseId options clock rfl
  · exact hgates before phaseId options clock after' hcalls

theorem standing_entered {position : Nat} {gated : Bool}
    (hstatus : run.status = if gated then .paused else .running)
    (hlimit : (position : ℚ) < plan.maxIterations)
    {slot : OrchestrationWave × OrchestrationPhase}
    (hslot : (slotsOf plan.waves)[position]? = some slot)
    (hcurrent : run.currentPhaseId = some slot.2.phaseId) : Standing plan run position := by
  unfold Standing
  cases gated with
  | true =>
      rw [if_pos rfl] at hstatus
      rw [hstatus]
      exact ⟨hlimit, slot, hslot, hcurrent⟩
  | false =>
      rw [if_neg Bool.false_ne_true] at hstatus
      rw [hstatus]
      exact ⟨hlimit, slot, hslot, hcurrent⟩

/-- A call that advances nothing and leaves the number of iterations alone. -/
theorem Progress.snoc_of_still (hpast : Progress runtime plan start calls run)
    (hstep : Performs runtime plan run call run') (hcall : advancedPhases [call] = [])
    (hiterations : run'.totalIterations = run.totalIterations)
    (hstanding : Standing plan run' run'.totalIterations)
    (hpending : ∀ phaseId, run'.pendingApprovalPhaseId = some phaseId →
      ApprovedIn runtime plan start (calls ++ [call]) phaseId) :
    Progress runtime plan start (calls ++ [call]) run' := by
  have hsame : advancedPhases (calls ++ [call]) = advancedPhases calls := by
    rw [advancedPhases_append, hcall, List.append_nil]
  refine ⟨hpast.reached.append (.single hstep), ?_, ?_, ?_, hstanding, hpending, ?_⟩
  · rw [hsame]
    exact hpast.advanced
  · rw [hsame, hiterations]
    exact hpast.iterations
  · rw [hiterations]
    exact hpast.bounded
  · refine hpast.gates.snoc ?_
    rintro phaseId options clock rfl
    cases hcall

theorem Progress.snoc_start (hplan : WellFormed plan)
    (hpast : Progress runtime plan start calls run)
    (hstep : Performs runtime plan run .start run') :
    Progress runtime plan start (calls ++ [.start]) run' := by
  obtain ⟨hstatus, slot, hslot, hrun'⟩ := startRun_eq_ok hplan hstep
  have hzero : run.totalIterations = 0 := by
    have hstanding := hpast.standing
    unfold Standing at hstanding
    rw [hstatus] at hstanding
    exact hstanding
  subst hrun'
  refine hpast.snoc_of_still hstep rfl rfl ?_ ?_
  · have hpositive : ((run.totalIterations : Nat) : ℚ) < plan.maxIterations := by
      obtain ⟨bound, hbound, hmax⟩ := hplan.maxIterations_eq
      rw [hzero, hmax]
      exact Nat.cast_lt.mpr hbound
    rw [← hzero] at hslot
    exact standing_entered rfl hpositive hslot rfl
  · intro phaseId hphase
    exact (hpast.pending phaseId hphase).snoc rfl

theorem Progress.snoc_approve (hpast : Progress runtime plan start calls run)
    {phaseId clock : String}
    {options : PhaseApprovalOptions}
    (hstep : Performs runtime plan run (.approve phaseId options clock) run') :
    Progress runtime plan start (calls ++ [.approve phaseId options clock]) run' := by
  obtain ⟨hstatus, hcurrent, hrun'⟩ := approvePhase_eq_ok hstep
  obtain ⟨hlimit, slot, hslot, hslotCurrent⟩ := standing_of_position hpast.standing (.inr hstatus)
  obtain ⟨now, rfl⟩ | rfl := hrun'
  · refine hpast.snoc_of_still hstep rfl rfl ?_ ?_
    · exact (List.getElem?_eq_some_iff.mp hslot).1
    · intro phaseId hphase
      cases hphase
  · refine hpast.snoc_of_still hstep rfl rfl ?_ ?_
    · exact ⟨hlimit, slot, hslot, hslotCurrent⟩
    · intro approved happroved
      cases happroved
      exact ⟨calls, options, clock, [], run, rfl, rfl, hpast.reached, hcurrent⟩

theorem Progress.snoc_advance (hplan : WellFormed plan)
    (hpast : Progress runtime plan start calls run)
    {phaseId clock : String} {options : PhaseAdvanceOptions}
    (hstep : Performs runtime plan run (.advance phaseId options clock) run') :
    Progress runtime plan start (calls ++ [.advance phaseId options clock]) run' := by
  have hstatus := running_of_advancePhase hstep
  obtain ⟨hlimit, slot, hslot, hcurrent⟩ := standing_of_position hpast.standing (.inl hstatus)
  obtain ⟨rfl, hgate, hleaves⟩ := advancePhase_eq_ok hplan hslot hcurrent hstep
  obtain ⟨hlt, -⟩ := List.getElem?_eq_some_iff.mp hslot
  refine ⟨hpast.reached.append (.single hstep), ?_, ?_, ?_, ?_, ?_, ?_⟩
  · have hid : (phaseIdsOf plan.waves)[(advancedPhases calls).length]? = some slot.2.phaseId := by
      rw [phaseIdsOf_eq, List.getElem?_map, ← hpast.iterations, hslot]
      rfl
    rw [advancedPhases_snoc_advance, List.map_append, hpast.advanced, List.length_append,
      List.length_singleton,
      List.take_add_one, hid]
    rfl
  · rw [advancedPhases_snoc_advance, hleaves.iterations, hpast.iterations, List.length_append,
      List.length_singleton]
  · obtain ⟨bound, -, hmax⟩ := hplan.maxIterations_eq
    rw [hmax, Nat.cast_lt] at hlimit
    rw [hleaves.iterations, hmax, Nat.cast_le]
    exact hlimit
  · rw [hleaves.iterations]
    cases hnext : (slotsOf plan.waves)[run.totalIterations + 1]? with
    | none =>
        have hend := List.getElem?_eq_none_iff.mp hnext
        unfold Standing
        rw [hleaves.completed hnext]
        exact Nat.le_antisymm hlt hend
    | some next =>
        obtain hstopped | ⟨hentered, hcurrent', hlimit'⟩ := hleaves.entered next hnext
        · unfold Standing
          rw [hstopped]
          exact (List.getElem?_eq_some_iff.mp hnext).1
        · rw [hleaves.iterations] at hlimit'
          exact standing_entered hentered hlimit' hnext hcurrent'
  · intro approved happroved
    rw [hleaves.pending] at happroved
    cases happroved
  · refine hpast.gates.snoc ?_
    intro phaseId options' clock' hcall other hother hid hgated
    cases hcall
    have hsame := slot_eq_of_phaseId_eq hplan.phaseIds_nodup hother (List.mem_of_getElem? hslot) hid
    rw [hsame] at hgated
    exact hpast.pending _ (hgate hgated)

theorem progress_of_run (hplan : WellFormed plan) (hqueued : start.status = .queued)
    (hiterations : start.totalIterations = 0) (hpending : start.pendingApprovalPhaseId = none)
    (h : Run (Performs runtime plan) start calls run) : Progress runtime plan start calls run := by
  have hfirst : Progress runtime plan start [] start := by
    refine ⟨.nil start, rfl, hiterations, ?_, ?_, ?_, ?_⟩
    · rw [hiterations]
      obtain ⟨bound, -, hmax⟩ := hplan.maxIterations_eq
      rw [hmax]
      exact Nat.cast_le.mpr (Nat.zero_le bound)
    · unfold Standing
      rw [hqueued]
      exact hiterations
    · intro phaseId hphase
      rw [hpending] at hphase
      cases hphase
    · intro before phaseId options clock after hsplit
      simp at hsplit
  have hstep : ∀ past run call run', Performs runtime plan run call run' →
      Progress runtime plan start past run → Progress runtime plan start (past ++ [call]) run' := by
    intro past run call run' hcall hpast
    cases call with
    | start => exact hpast.snoc_start hplan hcall
    | approve phaseId options clock => exact hpast.snoc_approve hcall
    | advance phaseId options clock => exact hpast.snoc_advance hplan hcall
  have hall := h.invariant_of_history hstep hfirst
  rwa [List.nil_append] at hall

end

end GoatCitadel.Orchestration
