import GoatCitadel.Orchestration.Coverage
import GoatCitadel.Orchestration.Progress

/-!
# The costs of the waves

The engine keeps what each wave has cost in a plain object with the waves' identifiers as
keys, and reads an entry that is not there as zero.  But every object has some properties
from the start: a wave that is not the first one and is called `constructor`, say, begins
with the text of a function.  Apart from such waves a run keeps all it promises about
gates, order and accounting.
-/

namespace GoatCitadel.Orchestration

open GoatCitadel.Support

/-! ## What a run promises -/

/-- The sum of the costs. -/
def spent : List (String × ℚ) → ℚ
  | [] => 0
  | (_, costIncrementUsd) :: rest => costIncrementUsd + spent rest

/-- The advances of phases of the wave. -/
def advancedIn (wave : OrchestrationWave) (calls : List EngineCall) : List (String × ℚ) :=
  (advancedPhases calls).filter fun advance => wave.phaseIds.contains advance.1

/-- The sum of the entries of a record, if they are all numbers. -/
def sumEntries : List (String × CostEntry) → Option ℚ
  | [] => some 0
  | (_, .usd amount) :: entries => (sumEntries entries).map (amount + ·)
  | (_, .text _) :: _ => none

/-- The properties of the run's record of wave costs. -/
def OrchestrationRun.waveCosts (run : OrchestrationRun) : List (String × CostEntry) :=
  run.waveCostUsdByWaveId.getD []

section

variable (runtime : Runtime) (plan : OrchestrationPlan)

/-- Everything a run promises about gates, order and accounting. -/
structure RunHonoured (start : OrchestrationRun) (calls : List EngineCall)
    (run : OrchestrationRun) : Prop where
  order : (advancedPhases calls).map (·.1) <+: phaseIdsOf plan.waves
  once : ((advancedPhases calls).map (·.1)).Nodup
  gates : ∀ before phaseId options clock after,
    calls = before ++ .advance phaseId options clock :: after →
      ∀ wave ∈ plan.waves, ∀ phase ∈ wave.phases, phase.phaseId = phaseId →
        plan.mode = .hitl ∨ phase.requiresApproval = true →
          ApprovedIn runtime plan start before phaseId
  iterations : run.totalIterations = (advancedPhases calls).length
  bounded : (run.totalIterations : ℚ) ≤ plan.maxIterations
  total : sumEntries run.waveCosts = some run.totalCostUsd
  waves : ∀ wave ∈ plan.waves,
    (run.waveCosts.lookup wave.waveId).getD (.usd 0) = .usd (spent (advancedIn wave calls))
  completed : run.status = .completed ↔ (advancedPhases calls).map (·.1) = phaseIdsOf plan.waves
  ended : run.status = .completed ∨ run.status = .stoppedByLimit →
    ∀ call run', perform runtime plan run call ≠ .ok run'

end

theorem spent_append (advances advances' : List (String × ℚ)) :
    spent (advances ++ advances') = spent advances + spent advances' := by
  induction advances with
  | nil => simp [spent]
  | cons advance rest ih =>
      simp only [List.cons_append, spent, ih, add_assoc]

/-! ## Costs -/

section

variable {entries : List (String × CostEntry)} {waveId other : String} {entry : CostEntry}

theorem lookup_setEntry_self (waveId : String) (entry : CostEntry)
    (entries : List (String × CostEntry)) :
    (setEntry waveId entry entries).lookup waveId = some entry := by
  induction entries with
  | nil => simp [setEntry]
  | cons first rest ih =>
      obtain ⟨key, value⟩ := first
      unfold setEntry
      split
      · rename_i hkey
        simp [List.lookup_cons, hkey]
      · rename_i hkey
        rw [Bool.not_eq_true] at hkey
        simp only [List.lookup_cons, hkey, ih]

theorem lookup_setEntry_of_ne (h : other ≠ waveId) :
    (setEntry waveId entry entries).lookup other = entries.lookup other := by
  induction entries with
  | nil => simp [setEntry, List.lookup_cons, beq_false_of_ne h]
  | cons first rest ih =>
      obtain ⟨key, value⟩ := first
      unfold setEntry
      split
      · rename_i hkey
        have hother : (other == key) = false := by
          rw [← beq_iff_eq.mp hkey]
          exact beq_false_of_ne h
        simp [List.lookup_cons, hother]
      · simp [List.lookup_cons, ih]

theorem sumEntries_cons_usd (key : String) (amount : ℚ) (entries : List (String × CostEntry)) :
    sumEntries ((key, .usd amount) :: entries) = (sumEntries entries).map (amount + ·) := rfl

/-- Adding to one entry adds to the sum. -/
theorem sumEntries_setEntry {amount increment total : ℚ}
    (hlookup : (entries.lookup waveId).getD (.usd 0) = .usd amount)
    (hsum : sumEntries entries = some total) :
    sumEntries (setEntry waveId (.usd (amount + increment)) entries) =
      some (total + increment) := by
  induction entries generalizing total with
  | nil =>
      cases hlookup
      cases hsum
      simp [setEntry, sumEntries]
  | cons first rest ih =>
      obtain ⟨key, value⟩ := first
      cases value with
      | text value => cases hsum
      | usd first =>
          rw [sumEntries_cons_usd] at hsum
          obtain ⟨rest', hrest, rfl⟩ := Option.map_eq_some_iff.mp hsum
          unfold setEntry
          split
          · rename_i hkey
            rw [List.lookup_cons, hkey] at hlookup
            cases hlookup
            rw [sumEntries_cons_usd, hrest, Option.map_some]
            exact congrArg some (add_right_comm _ _ _)
          · rename_i hkey
            have hlater : (rest.lookup waveId).getD (.usd 0) = .usd amount := by
              simpa only [List.lookup_cons, hkey] using hlookup
            rw [sumEntries_cons_usd, ih hlater hrest, Option.map_some, add_assoc]

end

section

variable {runtime : Runtime} {plan : OrchestrationPlan} {start run run' : OrchestrationRun}
  {calls : List EngineCall} {call : EngineCall} {wave : OrchestrationWave}
  {slot : OrchestrationWave × OrchestrationPhase}

/-- The wave is not the first one, and it is named like a property of every object. -/
def Shadowed (plan : OrchestrationPlan) (wave : OrchestrationWave) : Prop :=
  wave ∈ plan.waves.tail ∧ (inheritedText wave.waveId).isSome = true

/-- What the record of wave costs says after the calls of a run. -/
structure Costs (plan : OrchestrationPlan) (calls : List EngineCall)
    (run : OrchestrationRun) : Prop where
  fresh : advancedPhases calls = [] → run.waveCostUsdByWaveId = none
  begun : advancedPhases calls ≠ [] → run.waveCostUsdByWaveId = some run.waveCosts
  total : run.totalCostUsd = spent (advancedPhases calls)
  absent : ∀ wave ∈ plan.waves, advancedIn wave calls = [] →
    run.waveCosts.lookup wave.waveId = none
  numbers : ∀ wave ∈ plan.waves, advancedIn wave calls ≠ [] → ¬Shadowed plan wave →
    run.waveCosts.lookup wave.waveId = some (.usd (spent (advancedIn wave calls)))
  texts : ∀ wave ∈ plan.waves, advancedIn wave calls ≠ [] → Shadowed plan wave →
    ∃ value, run.waveCosts.lookup wave.waveId = some (.text value)
  sum : (∀ wave ∈ plan.waves, advancedIn wave calls ≠ [] → ¬Shadowed plan wave) →
    sumEntries run.waveCosts = some run.totalCostUsd

theorem wave_eq_of_phaseId_mem (hplan : WellFormed plan) (hslot : slot ∈ slotsOf plan.waves)
    (hwave : wave ∈ plan.waves) (hmem : slot.2.phaseId ∈ wave.phaseIds) : wave = slot.1 := by
  obtain ⟨phase, hphase, hid⟩ := List.mem_map.mp hmem
  have hother : (wave, phase) ∈ slotsOf plan.waves := mem_slotsOf.mpr ⟨hwave, hphase⟩
  exact congrArg Prod.fst (slot_eq_of_phaseId_eq hplan.phaseIds_nodup hother hslot hid)

theorem phaseId_mem_of_slot (hslot : slot ∈ slotsOf plan.waves) :
    slot.2.phaseId ∈ slot.1.phaseIds :=
  List.mem_map_of_mem (mem_slotsOf.mp hslot).2

theorem first_not_mem_rest (hplan : WellFormed plan) {first : OrchestrationWave}
    {rest : List OrchestrationWave} (hwaves : plan.waves = first :: rest) : first ∉ rest := by
  intro hmem
  have hnodup := hplan.waveIds_nodup
  rw [hwaves, List.map_cons, List.nodup_cons] at hnodup
  exact hnodup.1 (List.mem_map_of_mem hmem)

/-- The first phase that a run advances is of the first wave. -/
theorem advancedIn_first_ne_nil (hplan : WellFormed plan)
    (hpast : Progress runtime plan start calls run) {first : OrchestrationWave}
    {rest : List OrchestrationWave} (hwaves : plan.waves = first :: rest)
    (hne : advancedPhases calls ≠ []) : advancedIn first calls ≠ [] := by
  obtain ⟨advance, more, hadvances⟩ := List.exists_cons_of_ne_nil hne
  have hmem : first ∈ plan.waves := by
    rw [hwaves]
    exact List.mem_cons_self
  obtain ⟨phase, phases, hphases⟩ := List.exists_cons_of_ne_nil (hplan.phases_ne_nil first hmem)
  have hids : phaseIdsOf plan.waves =
      phase.phaseId :: (phases.map (·.phaseId) ++ phaseIdsOf rest) := by
    rw [hwaves]
    simp [phaseIdsOf, OrchestrationWave.phaseIds, hphases]
  have hadvanced := hpast.advanced
  rw [hadvances, hids, List.map_cons, List.length_cons, List.take_succ_cons] at hadvanced
  have hid : advance.1 = phase.phaseId := (List.cons.inj hadvanced).1
  have hin : first.phaseIds.contains advance.1 = true := by
    simp [OrchestrationWave.phaseIds, hphases, hid]
  refine List.ne_nil_of_mem (a := advance) (List.mem_filter.mpr ⟨?_, hin⟩)
  rw [hadvances]
  exact List.mem_cons_self

theorem readCost_of_slot (hplan : WellFormed plan)
    (hpast : Progress runtime plan start calls run) (hcosts : Costs plan calls run)
    (hslot : (slotsOf plan.waves)[run.totalIterations]? = some slot) :
    (¬Shadowed plan slot.1 → readCost run.waveCostUsdByWaveId slot.1.waveId =
        .usd (spent (advancedIn slot.1 calls))) ∧
      (Shadowed plan slot.1 → ∃ value,
        readCost run.waveCostUsdByWaveId slot.1.waveId = .text value) := by
  have hwave : slot.1 ∈ plan.waves := (mem_slotsOf.mp (List.mem_of_getElem? hslot)).1
  obtain ⟨first, rest, hwaves⟩ := List.exists_cons_of_ne_nil hplan.waves_ne_nil
  by_cases hnone : advancedPhases calls = []
  · -- The run leaves its first phase, which is of the first wave, and there is no record yet.
    rw [hcosts.fresh hnone]
    constructor
    · intro _
      simp [advancedIn, hnone, readCost, spent]
    · rintro ⟨htail, -⟩
      have hfirst : first ∈ plan.waves := by
        rw [hwaves]
        exact List.mem_cons_self
      obtain ⟨phase, phases, hphases⟩ :=
        List.exists_cons_of_ne_nil (hplan.phases_ne_nil first hfirst)
      rw [hpast.iterations, hnone, List.length_nil, hwaves, slotsOf_cons, hphases] at hslot
      cases hslot
      rw [hwaves] at htail
      exact absurd htail (first_not_mem_rest hplan hwaves)
  · rw [hcosts.begun hnone]
    by_cases hown : advancedIn slot.1 calls = []
    · have hlookup := hcosts.absent slot.1 hwave hown
      have htail : slot.1 ∈ plan.waves.tail := by
        rw [hwaves] at hwave ⊢
        obtain hfirst | hrest := List.mem_cons.mp hwave
        · rw [hfirst] at hown
          exact absurd hown (advancedIn_first_ne_nil hplan hpast hwaves hnone)
        · exact hrest
      simp only [readCost, hlookup, hown]
      constructor
      · intro hshadow
        have hinherited : inheritedText slot.1.waveId = none := by
          rw [← Option.not_isSome_iff_eq_none]
          exact fun hsome => hshadow ⟨htail, hsome⟩
        rw [hinherited]
        rfl
      · rintro ⟨-, hsome⟩
        obtain ⟨value, hvalue⟩ := Option.isSome_iff_exists.mp hsome
        exact ⟨value, by rw [hvalue]; rfl⟩
    · constructor
      · intro hshadow
        simp only [readCost, hcosts.numbers slot.1 hwave hown hshadow]
      · intro hshadow
        obtain ⟨value, hvalue⟩ := hcosts.texts slot.1 hwave hown hshadow
        exact ⟨value, by simp only [readCost, hvalue]⟩

/-- The costs of a wave that is not shadowed add up. -/
theorem Costs.lookup_eq (hcosts : Costs plan calls run) (hwave : wave ∈ plan.waves)
    (hshadow : advancedIn wave calls ≠ [] → ¬Shadowed plan wave) :
    (run.waveCosts.lookup wave.waveId).getD (.usd 0) = .usd (spent (advancedIn wave calls)) := by
  by_cases hown : advancedIn wave calls = []
  · rw [hcosts.absent wave hwave hown, hown]
    rfl
  · rw [hcosts.numbers wave hwave hown (hshadow hown)]
    rfl

/-- A call that advances nothing changes nothing about costs. -/
theorem Costs.snoc_of_still (hcosts : Costs plan calls run) (hcall : advancedPhases [call] = [])
    (hrecord : run'.waveCostUsdByWaveId = run.waveCostUsdByWaveId)
    (htotal : run'.totalCostUsd = run.totalCostUsd) : Costs plan (calls ++ [call]) run' := by
  have hphases : advancedPhases (calls ++ [call]) = advancedPhases calls := by
    rw [advancedPhases_append, hcall, List.append_nil]
  have hin : ∀ wave, advancedIn wave (calls ++ [call]) = advancedIn wave calls := by
    intro wave
    rw [advancedIn, hphases]
    rfl
  have hentries : run'.waveCosts = run.waveCosts := congrArg (Option.getD · []) hrecord
  constructor
  · rw [hphases, hrecord]
    exact hcosts.fresh
  · rw [hphases, hrecord, hentries]
    exact hcosts.begun
  · rw [hphases, htotal]
    exact hcosts.total
  · simp only [hin, hentries]
    exact hcosts.absent
  · simp only [hin, hentries]
    exact hcosts.numbers
  · simp only [hin, hentries]
    exact hcosts.texts
  · simp only [hin, hentries, htotal]
    exact hcosts.sum

section

variable (hmem : slot ∈ slotsOf plan.waves) {options : PhaseAdvanceOptions} {clock : String}

include hmem

theorem advancedIn_snoc_self :
    advancedIn slot.1 (calls ++ [.advance slot.2.phaseId options clock]) =
      advancedIn slot.1 calls ++ [(slot.2.phaseId, options.costIncrementUsd.getD 0)] := by
  have hin : slot.1.phaseIds.contains slot.2.phaseId = true := by
    simpa using phaseId_mem_of_slot hmem
  rw [advancedIn, advancedPhases_snoc_advance, List.filter_append]
  simp only [List.filter_cons, hin, if_true, List.filter_nil]
  rfl

theorem advancedIn_snoc_of_ne (hplan : WellFormed plan) (hwave : wave ∈ plan.waves)
    (hne : wave ≠ slot.1) :
    advancedIn wave (calls ++ [.advance slot.2.phaseId options clock]) = advancedIn wave calls := by
  have hin : wave.phaseIds.contains slot.2.phaseId = false := by
    rw [Bool.eq_false_iff]
    intro hcontains
    exact hne (wave_eq_of_phaseId_mem hplan hmem hwave (by simpa using hcontains))
  rw [advancedIn, advancedPhases_snoc_advance, List.filter_append]
  simp only [List.filter_cons, hin, Bool.false_eq_true, if_false, List.filter_nil, List.append_nil]
  rfl

end

/-- An advance adds its increment to the entry of its own wave. -/
theorem Costs.snoc_advance (hplan : WellFormed plan) (hpast : Progress runtime plan start calls run)
    (hcosts : Costs plan calls run)
    (hslot : (slotsOf plan.waves)[run.totalIterations]? = some slot) {clock : String}
    {options : PhaseAdvanceOptions} {next : Option (OrchestrationWave × OrchestrationPhase)}
    (hleaves : LeavesSlot runtime plan run slot next (options.costIncrementUsd.getD 0) run') :
    Costs plan (calls ++ [.advance slot.2.phaseId options clock]) run' := by
  have hmem : slot ∈ slotsOf plan.waves := List.mem_of_getElem? hslot
  have hwave : slot.1 ∈ plan.waves := (mem_slotsOf.mp hmem).1
  obtain ⟨hnumber, htext⟩ := readCost_of_slot hplan hpast hcosts hslot
  have hself : advancedIn slot.1 (calls ++ [.advance slot.2.phaseId options clock]) = _ :=
    advancedIn_snoc_self hmem
  have hother : ∀ wave ∈ plan.waves, wave ≠ slot.1 →
      advancedIn wave (calls ++ [.advance slot.2.phaseId options clock]) =
        advancedIn wave calls :=
    fun wave hmemWave hne => advancedIn_snoc_of_ne hmem hplan hmemWave hne
  have hentries : run'.waveCosts = setEntry slot.1.waveId
      (addCost runtime (readCost run.waveCostUsdByWaveId slot.1.waveId)
        (options.costIncrementUsd.getD 0)) run.waveCosts := by
    rw [OrchestrationRun.waveCosts, hleaves.record]
    rfl
  have hlookup : ∀ wave ∈ plan.waves, wave ≠ slot.1 →
      run'.waveCosts.lookup wave.waveId = run.waveCosts.lookup wave.waveId := by
    intro wave hmemWave hne
    rw [hentries]
    exact lookup_setEntry_of_ne fun hid => hne
      (List.inj_on_of_nodup_map hplan.waveIds_nodup hmemWave hwave hid)
  refine ⟨?_, ?_, ?_, ?_, ?_, ?_, ?_⟩
  · intro hnone
    rw [advancedPhases_snoc_advance] at hnone
    simp at hnone
  · intro _
    rw [OrchestrationRun.waveCosts, hleaves.record]
    rfl
  · rw [advancedPhases_snoc_advance, spent_append, hleaves.total, hcosts.total]
    simp [spent]
  · intro wave hmemWave hnone
    by_cases hsame : wave = slot.1
    · rw [hsame, hself] at hnone
      simp at hnone
    · rw [hother wave hmemWave hsame] at hnone
      rw [hlookup wave hmemWave hsame]
      exact hcosts.absent wave hmemWave hnone
  · intro wave hmemWave hsome hshadow
    by_cases hsame : wave = slot.1
    · subst hsame
      rw [hentries, lookup_setEntry_self, hnumber hshadow, hself, spent_append]
      simp [addCost, spent]
    · rw [hother wave hmemWave hsame] at hsome ⊢
      rw [hlookup wave hmemWave hsame]
      exact hcosts.numbers wave hmemWave hsome hshadow
  · intro wave hmemWave hsome hshadow
    by_cases hsame : wave = slot.1
    · subst hsame
      obtain ⟨value, hvalue⟩ := htext hshadow
      rw [hentries, lookup_setEntry_self, hvalue]
      exact ⟨_, rfl⟩
    · rw [hother wave hmemWave hsame] at hsome
      rw [hlookup wave hmemWave hsame]
      exact hcosts.texts wave hmemWave hsome hshadow
  · intro hall
    have hunshadowed : ¬Shadowed plan slot.1 := by
      refine hall slot.1 hwave ?_
      rw [hself]
      simp
    have hbefore : ∀ wave ∈ plan.waves, advancedIn wave calls ≠ [] → ¬Shadowed plan wave := by
      intro wave hmemWave hsome
      by_cases hsame : wave = slot.1
      · rw [hsame]
        exact hunshadowed
      · refine hall wave hmemWave ?_
        rw [hother wave hmemWave hsame]
        exact hsome
    rw [hentries, hnumber hunshadowed, hleaves.total]
    exact sumEntries_setEntry (hcosts.lookup_eq hwave fun _ => hunshadowed) (hcosts.sum hbefore)

theorem costs_of_run (hplan : WellFormed plan) (hqueued : start.status = .queued)
    (hiterations : start.totalIterations = 0) (hpending : start.pendingApprovalPhaseId = none)
    (hrecord : start.waveCostUsdByWaveId = none) (htotal : start.totalCostUsd = 0)
    (h : Run (Performs runtime plan) start calls run) : Costs plan calls run := by
  have hfirst : Progress runtime plan start [] start ∧ Costs plan [] start := by
    refine ⟨progress_of_run hplan hqueued hiterations hpending (.nil start), ?_⟩
    have hentries : start.waveCosts = [] := congrArg (Option.getD · []) hrecord
    refine ⟨fun _ => hrecord, fun hne => absurd rfl hne, htotal, ?_, ?_, ?_, ?_⟩
    · intro wave _ _
      rw [hentries]
      rfl
    · intro wave _ hne
      exact absurd rfl hne
    · intro wave _ hne
      exact absurd rfl hne
    · intro _
      rw [hentries, htotal]
      rfl
  have hstep : ∀ past run call run', Performs runtime plan run call run' →
      Progress runtime plan start past run ∧ Costs plan past run →
        Progress runtime plan start (past ++ [call]) run' ∧ Costs plan (past ++ [call]) run' := by
    rintro past run call run' hcall ⟨hpast, hcosts⟩
    cases call with
    | start =>
        refine ⟨hpast.snoc_start hplan hcall, ?_⟩
        obtain ⟨-, slot, -, rfl⟩ := startRun_eq_ok hplan hcall
        exact hcosts.snoc_of_still rfl rfl rfl
    | approve phaseId options clock =>
        refine ⟨hpast.snoc_approve hcall, ?_⟩
        obtain ⟨-, -, ⟨now, rfl⟩ | rfl⟩ := approvePhase_eq_ok hcall
        · exact hcosts.snoc_of_still rfl rfl rfl
        · exact hcosts.snoc_of_still rfl rfl rfl
    | advance phaseId options clock =>
        refine ⟨hpast.snoc_advance hplan hcall, ?_⟩
        obtain ⟨-, slot, hslot, hcurrent⟩ :=
          standing_of_position hpast.standing (.inl (running_of_advancePhase hcall))
        obtain ⟨rfl, -, hleaves⟩ := advancePhase_eq_ok hplan hslot hcurrent hcall
        exact hcosts.snoc_advance hplan hpast hslot hleaves
  have hall := h.invariant_of_history hstep hfirst
  rw [List.nil_append] at hall
  exact hall.2

/-! ## Every run from `createRun` -/

theorem not_performs_of_ended (h : run.status = .completed ∨ run.status = .stoppedByLimit) :
    ¬Performs runtime plan run call run' := by
  intro hcall
  have hstatus : run.status = .queued ∨ run.status = .paused ∨ run.status = .running := by
    cases call with
    | start =>
        obtain ⟨-, -, hcall⟩ := bind_eq_ok.mp hcall
        exact .inl (not_not.mp (guard_eq_ok.mp hcall).1)
    | approve phaseId options clock => exact .inr (.inl (approvePhase_eq_ok hcall).1)
    | advance phaseId options clock => exact .inr (.inr (running_of_advancePhase hcall))
  obtain h | h := h
  · simp [h] at hstatus
  · simp [h] at hstatus

theorem slotsOf_ne_nil (hplan : WellFormed plan) : slotsOf plan.waves ≠ [] := by
  obtain ⟨wave, hwave⟩ := List.exists_mem_of_ne_nil _ hplan.waves_ne_nil
  obtain ⟨phase, hphase⟩ := List.exists_mem_of_ne_nil _ (hplan.phases_ne_nil wave hwave)
  have hmem : (wave, phase) ∈ slotsOf plan.waves := mem_slotsOf.mpr ⟨hwave, hphase⟩
  exact List.ne_nil_of_mem hmem

theorem Progress.completed_iff (hplan : WellFormed plan)
    (h : Progress runtime plan start calls run) :
    run.status = .completed ↔ (advancedPhases calls).map (·.1) = phaseIdsOf plan.waves := by
  have hlength : (phaseIdsOf plan.waves).length = (slotsOf plan.waves).length := by
    rw [phaseIdsOf_eq, List.length_map]
  have hstanding := h.standing
  constructor
  · intro hstatus
    unfold Standing at hstanding
    rw [hstatus] at hstanding
    rw [h.advanced, ← h.iterations, hstanding, ← hlength, List.take_length]
  · intro hall
    have hposition : run.totalIterations = (slotsOf plan.waves).length := by
      rw [h.iterations, ← hlength, ← hall, List.length_map]
    unfold Standing at hstanding
    cases hstatus : run.status with
    | completed => rfl
    | queued =>
        rw [hstatus, hposition] at hstanding
        exact absurd (List.length_eq_zero_iff.mp hstanding) (slotsOf_ne_nil hplan)
    | running =>
        rw [hstatus] at hstanding
        obtain ⟨-, slot, hslot, -⟩ := hstanding
        have hlt := (List.getElem?_eq_some_iff.mp hslot).1
        omega
    | paused =>
        rw [hstatus] at hstanding
        obtain ⟨-, slot, hslot, -⟩ := hstanding
        have hlt := (List.getElem?_eq_some_iff.mp hslot).1
        omega
    | stoppedByLimit =>
        rw [hstatus] at hstanding
        exact absurd hposition (Nat.ne_of_lt hstanding)
    | failed =>
        rw [hstatus] at hstanding
        exact hstanding.elim
    | cancelled =>
        rw [hstatus] at hstanding
        exact hstanding.elim

theorem unshadowed_iff :
    (∀ wave ∈ plan.waves, advancedIn wave calls ≠ [] → ¬Shadowed plan wave) ↔
      ∀ phaseId options clock, EngineCall.advance phaseId options clock ∈ calls →
        ∀ wave ∈ plan.waves.tail, phaseId ∈ wave.phaseIds → inheritedText wave.waveId = none := by
  constructor
  · intro h phaseId options clock hcall wave htail hphase
    have hadvanced : advancedIn wave calls ≠ [] := by
      refine List.ne_nil_of_mem (a := (phaseId, options.costIncrementUsd.getD 0)) ?_
      refine List.mem_filter.mpr ⟨List.mem_filterMap.mpr ⟨_, hcall, rfl⟩, ?_⟩
      simpa using hphase
    have hshadow := h wave (List.mem_of_mem_tail htail) hadvanced
    rw [← Option.not_isSome_iff_eq_none]
    exact fun hsome => hshadow ⟨htail, hsome⟩
  · rintro h wave - hadvanced ⟨htail, hsome⟩
    obtain ⟨advance, hadvance⟩ := List.exists_mem_of_ne_nil _ hadvanced
    obtain ⟨hmem, hphase⟩ := List.mem_filter.mp hadvance
    obtain ⟨call, hcall, heq⟩ := List.mem_filterMap.mp hmem
    cases call with
    | start => cases heq
    | approve phaseId options clock => cases heq
    | advance phaseId options clock =>
        cases heq
        rw [h phaseId options clock hcall wave htail (by simpa using hphase)] at hsome
        cases hsome

/-- A run from `createRun` keeps every promise exactly when it advances no phase of a wave
that is named like a property of every object, unless that wave is the first. -/
theorem runHonoured_iff {runId created : String}
    (hcreate : createRun runtime plan runId created = .ok start)
    (h : Run (Performs runtime plan) start calls run) :
    RunHonoured runtime plan start calls run ↔
      ∀ phaseId options clock, EngineCall.advance phaseId options clock ∈ calls →
        ∀ wave ∈ plan.waves.tail, phaseId ∈ wave.phaseIds → inheritedText wave.waveId = none := by
  obtain ⟨_, hvalid, hcreate⟩ := bind_eq_ok.mp hcreate
  have hplan := wellFormed_of_validate hvalid
  cases hcreate
  have hprogress := progress_of_run hplan rfl rfl rfl h
  have hcosts := costs_of_run hplan rfl rfl rfl rfl rfl h
  rw [← unshadowed_iff]
  constructor
  · intro hhonoured wave hwave hadvanced hshadow
    obtain ⟨value, hvalue⟩ := hcosts.texts wave hwave hadvanced hshadow
    have hnumber := hhonoured.waves wave hwave
    rw [hvalue] at hnumber
    cases hnumber
  · intro hunshadowed
    refine ⟨?_, ?_, ?_, hprogress.iterations, hprogress.bounded, ?_, ?_, ?_, ?_⟩
    · rw [hprogress.advanced]
      exact List.take_prefix _ _
    · rw [hprogress.advanced]
      exact hplan.phaseIds_nodup.sublist (List.take_sublist _ _)
    · intro before phaseId options clock after hsplit wave hwave phase hphase hid hgate
      refine hprogress.gates before phaseId options clock after hsplit (wave, phase)
        (mem_slotsOf.mpr ⟨hwave, hphase⟩) hid ?_
      simpa [isGated] using hgate
    · exact hcosts.sum hunshadowed
    · intro wave hwave
      exact hcosts.lookup_eq hwave (hunshadowed wave hwave)
    · exact hprogress.completed_iff hplan
    · intro hended call run' hcall
      exact not_performs_of_ended hended hcall

/-- Whatever its waves are named and its phases cost, a run from `createRun` advances the phases of
its plan in their order, gated ones after an approval.  It is complete when it has advanced all of
them, it never fails, and when it has ended no call succeeds any more. -/
theorem run_follows_plan {runId created : String}
    (hcreate : createRun runtime plan runId created = .ok start)
    (h : Run (Performs runtime plan) start calls run) :
    (advancedPhases calls).map (·.1) <+: phaseIdsOf plan.waves ∧
      (run.status = .completed ↔ (advancedPhases calls).map (·.1) = phaseIdsOf plan.waves) ∧
      run.status ≠ .failed ∧ run.status ≠ .cancelled ∧
      (run.status = .completed ∨ run.status = .stoppedByLimit →
        ∀ call run', ¬Performs runtime plan run call run') ∧
      GatesHonoured runtime plan start calls := by
  obtain ⟨_, hvalid, hcreate⟩ := bind_eq_ok.mp hcreate
  have hplan := wellFormed_of_validate hvalid
  cases hcreate
  have hprogress := progress_of_run hplan rfl rfl rfl h
  have hstanding := hprogress.standing
  refine ⟨?_, hprogress.completed_iff hplan, ?_, ?_, ?_, hprogress.gates⟩
  · rw [hprogress.advanced]
    exact List.take_prefix _ _
  · intro hfailed
    unfold Standing at hstanding
    rw [hfailed] at hstanding
    exact hstanding
  · intro hcancelled
    unfold Standing at hstanding
    rw [hcancelled] at hstanding
    exact hstanding
  · intro hended call run'
    exact not_performs_of_ended hended

end

/-! ### A wave called `constructor` -/

/-- Runtime functions on what the run below hands to them. -/
def plainRuntime : Runtime where
  toCaseMapping := asciiMapping
  parseDate := fun text =>
    if text = "2026-01-01T00:00:00.000Z" then some 1767225600000 else none
  numeral := fun amount => toString amount.num

def constructorPlan : OrchestrationPlan where
  planId := "plan-1"
  goal := "goal"
  mode := .auto
  maxIterations := 10
  maxRuntimeMinutes := 10
  maxCostUsd := 10
  waves :=
    [{ waveId := "wave-1", verify := [], budgetUsd := 0
       ownership := [{ agentId := "a", paths := ["src"] }]
       phases :=
        [{ phaseId := "phase-1", ownerAgentId := "a", specPath := "one.md",
           loopMode := .freshContext, requiresApproval := false }] },
     { waveId := "constructor", verify := [], budgetUsd := 0
       ownership := [{ agentId := "a", paths := ["src"] }]
       phases :=
        [{ phaseId := "phase-2", ownerAgentId := "a", specPath := "two.md",
           loopMode := .freshContext, requiresApproval := false }] }]

def constructorStart : OrchestrationRun where
  runId := "run-1"
  planId := "plan-1"
  status := .queued
  startedAt := "2026-01-01T00:00:00.000Z"
  totalCostUsd := 0
  totalIterations := 0

def constructorCalls : List EngineCall :=
  [.start,
   .advance "phase-1" { costIncrementUsd := some 1 } "2026-01-01T00:00:00.000Z",
   .advance "phase-2" { costIncrementUsd := some 2 } "2026-01-01T00:00:00.000Z"]

def constructorEnd : OrchestrationRun where
  runId := "run-1"
  planId := "plan-1"
  status := .completed
  startedAt := "2026-01-01T00:00:00.000Z"
  endedAt := some "2026-01-01T00:00:00.000Z"
  totalCostUsd := 3
  totalIterations := 2
  waveCostUsdByWaveId := some
    [("wave-1", .usd 1), ("constructor", .text "function Object() \x7b [native code] \x7d2")]

theorem constructorStart_created :
    createRun plainRuntime constructorPlan "run-1" "2026-01-01T00:00:00.000Z" =
      .ok constructorStart := by
  decide +kernel

theorem constructorRun :
    Run (Performs plainRuntime constructorPlan) constructorStart constructorCalls
      constructorEnd := by
  refine .of_foldlM ?_
  decide +kernel

theorem constructorRun_honoured_iff :
    RunHonoured plainRuntime constructorPlan constructorStart constructorCalls constructorEnd ↔
      ∀ phaseId options clock, EngineCall.advance phaseId options clock ∈ constructorCalls →
        ∀ wave ∈ constructorPlan.waves.tail, phaseId ∈ wave.phaseIds →
          inheritedText wave.waveId = none :=
  runHonoured_iff constructorStart_created constructorRun

/-- The run is complete and has cost 3, but the entry of its second wave is a text. -/
theorem constructorRun_not_honoured :
    createRun plainRuntime constructorPlan "run-1" "2026-01-01T00:00:00.000Z" =
        .ok constructorStart ∧
      Run (Performs plainRuntime constructorPlan) constructorStart constructorCalls
        constructorEnd ∧
      ¬RunHonoured plainRuntime constructorPlan constructorStart constructorCalls
        constructorEnd := by
  refine ⟨constructorStart_created, constructorRun, ?_⟩
  intro hhonoured
  have htotal := hhonoured.total
  revert htotal
  decide +kernel

/-- The run is complete, so it advanced the phases of its plan. -/
theorem constructorRun_advanced :
    (advancedPhases constructorCalls).map (·.1) = phaseIdsOf constructorPlan.waves :=
  (run_follows_plan constructorStart_created constructorRun).2.1.mp rfl

end GoatCitadel.Orchestration
