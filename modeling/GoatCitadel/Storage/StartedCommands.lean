import GoatCitadel.Storage.InboundLanes

/-!
# Commands that have started

A command whose claim expires after it has started may have had effects already.  The
recovery of expired claims leaves it to an operator, while a worker that claims what is
due takes it like any other expired claim.  Unless one of them does, the command is
not started again.
-/

namespace GoatCitadel.Storage.InboundChannelEvents

open GoatCitadel.Support
open Relation (ReflTransGen)

/-- The event is as it was, or left to an operator. -/
def LeftAlone (row : InboundChannelEvent) (store : EventStore) : Prop :=
  ∃ row' ∈ store.rows, row'.eventId = row.eventId ∧
    (row' = row ∨ row'.status = .manualReconciliationRequired)

/-- A command that has started is not claimed any more once its claim has expired, and
is changed at most to be left to an operator. -/
def NeverReplayed (step : EventSystem → Transaction → EventSystem → Prop) : Prop :=
  ∀ {transactions : List Transaction} {system : EventSystem},
    Run step .initial transactions system →
      ∀ row ∈ system.store.rows, startedCommand row = true → row.expired system.clock = true →
        ∀ {more : List Transaction} {later : EventSystem}, Run step system more later →
          (∀ transaction ∈ more, ∀ claim ∈ transaction.claims, claim.eventId ≠ row.eventId) ∧
            LeftAlone row later.store

/-- No command that has started is among the events that the transaction claims. -/
def Transaction.leavesStarted (runtime : EventRuntime) (system : EventSystem)
    (transaction : Transaction) : Bool :=
  match transaction.call with
  | .claimDue input _ =>
      match listDue (transaction.clock runtime system.clock) input.limit input.laneKeyPrefix
          system.store with
      | .ok candidates => candidates.all fun candidate => !startedCommand candidate
      | .error _ => true
  | _ => true

/-- A transaction that claims no command that has started. -/
def LeavesStarted (runtime : EventRuntime) (system : EventSystem) (transaction : Transaction) :
    Prop :=
  transaction.leavesStarted runtime system = true

section Replays

variable {runtime : EventRuntime} {system system' : EventSystem} {transaction : Transaction}
  {now : String} {due : String → Prop} {store store' : EventStore} {row : InboundChannelEvent}

/-- A started command whose claim has expired, or that was left to an operator. -/
def Abandoned (row : InboundChannelEvent) (now : String) (store : EventStore) : Prop :=
  (row ∈ store.rows ∧ row.expired now = true) ∨
    ∃ row' ∈ store.rows, row'.eventId = row.eventId ∧
      row'.status = .manualReconciliationRequired

theorem expired_mono {later : String} (h : row.expired now = true)
    (htime : timeLe now later = true) : row.expired later = true := by
  unfold InboundChannelEvent.expired at h ⊢
  split
  · rename_i expiresAt hexpires
    rw [hexpires] at h
    exact utf16Le_trans _ _ _ h htime
  · rename_i hnone
    rw [hnone] at h
    cases h

theorem abandoned_of_terminal {row' : InboundChannelEvent} (hrow' : row' ∈ store.rows)
    (hid : row'.eventId = row.eventId) (hstatus : row'.status = .manualReconciliationRequired)
    (hlater : Later store store') : Abandoned row now store' := by
  obtain ⟨row'', hrow'', hadvances⟩ := hlater row' hrow'
  obtain rfl := hadvances.settled (by rw [hstatus]; rfl)
  exact .inr ⟨row'', hrow'', hid, hstatus⟩

/-- A write that does not claim the command leaves it, or recovers it. -/
theorem Write.abandoned (h : Write now due store store')
    (hnotDue : ¬due row.eventId) (hstarted : startedCommand row = true)
    (hrow : row ∈ store.rows) (hexpired : row.expired now = true) :
    Abandoned row now store' := by
  cases h with
  | accept => exact .inl ⟨List.mem_append_left _ hrow, hexpired⟩
  | @change eventId guard set hchange =>
      have hmem := mem_updateRows.mpr (⟨row, hrow, rfl⟩ : ∃ row' ∈ store.rows,
        (if (decide (row.eventId = eventId) && guard row) = true then set row else row) =
          if (decide (row'.eventId = eventId) && guard row') = true then set row' else row')
      split at hmem
      · rename_i hguard
        rw [Bool.and_eq_true, decide_eq_true_eq] at hguard
        generalize hset : set row = row' at hmem
        cases hset ▸ hchange row hrow hguard.1 hguard.2 with
        | claim hisDue => exact absurd hisDue hnotDue
        | held hheld =>
            have hcurrent := (heldBy_spec hheld).2
            rw [not_current_of_expired hexpired] at hcurrent
            cases hcurrent
        | recover =>
            refine .inr ⟨_, hmem, rfl, ?_⟩
            show (if startedCommand row = true then _ else _) = _
            rw [if_pos hstarted]
      · exact .inl ⟨hmem, hexpired⟩

theorem abandoned_of_writes (h : ReflTransGen (Write now due) store store')
    (hnotDue : ¬due row.eventId) (hstarted : startedCommand row = true)
    (habandoned : Abandoned row now store) : Abandoned row now store' := by
  induction h with
  | refl => exact habandoned
  | tail _ hwrite ih =>
      obtain ⟨hrow, hexpired⟩ | ⟨row', hrow', hid, hstatus⟩ := ih
      · exact hwrite.abandoned hnotDue hstarted hrow hexpired
      · exact abandoned_of_terminal hrow' hid hstatus hwrite.later

/-- An abandoned command is not due, when no started command is. -/
theorem not_due_of_abandoned (hserved : Served system.store)
    (hleaves : LeavesStarted runtime system transaction) (hstarted : startedCommand row = true)
    (habandoned : Abandoned row now system.store) :
    ¬transaction.Due runtime system row.eventId := by
  rintro ⟨input, randomUUID, candidates, hcall, hcandidates, candidate, hcandidate, hid⟩
  obtain ⟨hmem, hclaimable, -⟩ := mem_listDue hcandidates hcandidate
  obtain ⟨hrow, -⟩ | ⟨row', hrow', hid', hstatus⟩ := habandoned
  · obtain rfl := eq_of_key_eq hserved.ids hmem hrow hid
    unfold LeavesStarted Transaction.leavesStarted at hleaves
    rw [hcall] at hleaves
    dsimp only at hleaves
    rw [hcandidates] at hleaves
    have hnot := List.all_eq_true.mp hleaves candidate hcandidate
    rw [hstarted] at hnot
    cases hnot
  · obtain rfl := eq_of_key_eq hserved.ids hmem hrow' (hid.trans hid'.symm)
    have hrunning := not_terminal_of_claimable hclaimable
    rw [hstatus] at hrunning
    cases hrunning

theorem abandoned_step (hserved : Served system.store)
    (h : Restrict (EventSystem.Step runtime) (LeavesStarted runtime) system transaction system')
    (hstarted : startedCommand row = true)
    (habandoned : Abandoned row system.clock system.store) :
    Abandoned row system'.clock system'.store ∧
      ∀ claim ∈ transaction.claims, claim.eventId ≠ row.eventId := by
  obtain ⟨hstep, hleaves⟩ := h
  have heffect := step_effect hserved hstep
  have hnotDue := not_due_of_abandoned hserved hleaves hstarted habandoned
  have htime : timeLe system.clock system'.clock = true := hstep.2.1 ▸ hstep.1
  have hnow : Abandoned row system'.clock system.store := by
    obtain ⟨hrow, hexpired⟩ | hleft := habandoned
    · exact .inl ⟨hrow, expired_mono hexpired htime⟩
    · exact .inr hleft
  refine ⟨abandoned_of_writes heffect.writes hnotDue hstarted hnow, ?_⟩
  intro claim hclaim heq
  exact hnotDue (heq ▸ heffect.claims claim hclaim)

/-- In every run whose transactions claim no command that has started, none is claimed
again after its claim has expired. -/
theorem started_commands_left_alone (runtime : EventRuntime) :
    NeverReplayed (Restrict (EventSystem.Step runtime) (LeavesStarted runtime)) := by
  intro transactions system hrun row hrow hstarted hexpired more later hmore
  have hserved := served_of_run hrun.of_restrict
  have hstep : ∀ s e s',
      Restrict (EventSystem.Step runtime) (LeavesStarted runtime) s e s' →
        Served s.store ∧ Abandoned row s.clock s.store →
        (Served s'.store ∧ Abandoned row s'.clock s'.store) ∧
          ∀ claim ∈ e.claims, claim.eventId ≠ row.eventId := by
    intro s e s' hstep ⟨hsServed, hsAbandoned⟩
    obtain ⟨habandoned, hclaims⟩ := abandoned_step hsServed hstep hstarted hsAbandoned
    exact ⟨⟨served_of_writes (step_effect hsServed hstep.1).writes hsServed, habandoned⟩, hclaims⟩
  have hstart : Served system.store ∧ Abandoned row system.clock system.store :=
    ⟨hserved, .inl ⟨hrow, hexpired⟩⟩
  refine ⟨hmore.forall_labels hstep hstart, ?_⟩
  have hinvariant := Run.invariant
    (I := fun s => Served s.store ∧ Abandoned row s.clock s.store)
    (fun s e s' hs hI => (hstep s e s' hs hI).1) hmore hstart
  obtain ⟨hlater, -⟩ | ⟨row', hrow', hid, hstatus⟩ := hinvariant.2
  · exact ⟨row, hlater, rfl, .inl rfl⟩
  · exact ⟨row', hrow', hid, .inr hstatus⟩

end Replays

/-! ## An example -/

/-- The claim of the started command expires. -/
def sampleExpired : List Transaction :=
  sampleStart ++ [⟨.wait, "1970-01-01T00:00:02.000Z", []⟩]

def sampleSystem : EventSystem :=
  sampleExpired.foldl (fun system transaction => system.next sampleRuntime transaction) .initial

theorem sampleSystem_started :
    ∃ row ∈ sampleSystem.store.rows, row.eventId = "command-1" ∧ startedCommand row = true ∧
      row.expired sampleSystem.clock = true := by
  have hany : sampleSystem.store.rows.any (fun row => row.eventId = "command-1" &&
      (startedCommand row && row.expired sampleSystem.clock)) = true := by decide +kernel
  obtain ⟨row, hrow, hspec⟩ := List.any_eq_true.mp hany
  simp only [Bool.and_eq_true, decide_eq_true_eq] at hspec
  exact ⟨row, hrow, hspec⟩

/-- Expired claims are recovered before a worker claims what is due. -/
def sampleRecovered : List Transaction :=
  let now := "1970-01-01T00:00:02.000Z"
  [⟨.recoverExpiredClaims none, now, []⟩, ⟨.claimDue sampleClaim fun _ => "claim-2", now, []⟩]

theorem restricted_next (system : EventSystem) (transaction : Transaction)
    (h : (transaction.agrees sampleRuntime system &&
      transaction.leavesStarted sampleRuntime system) = true) :
    Restrict (EventSystem.Step sampleRuntime) (LeavesStarted sampleRuntime) system transaction
      (system.next sampleRuntime transaction) := by
  obtain ⟨hagrees, hleaves⟩ := Bool.and_eq_true_iff.mp h
  exact ⟨step_next sampleRuntime system transaction hagrees, hleaves⟩

/-- No worker is given the command then. -/
theorem recovered_command_left_alone :
    ∃ row ∈ sampleSystem.store.rows, startedCommand row = true ∧
      ∀ transaction ∈ sampleRecovered, ∀ claim ∈ transaction.claims,
        claim.eventId ≠ row.eventId := by
  obtain ⟨row, hrow, -, hstarted, hexpired⟩ := sampleSystem_started
  have hrun := Run.of_next restricted_next .initial sampleExpired (by decide +kernel)
  have hmore := Run.of_next restricted_next sampleSystem sampleRecovered (by decide +kernel)
  obtain ⟨hclaims, -⟩ :=
    started_commands_left_alone sampleRuntime hrun row hrow hstarted hexpired hmore
  exact ⟨row, hrow, hstarted, hclaims⟩

/-- A worker claims what is due before expired claims are recovered. -/
def sampleReplay : Transaction where
  call := .claimDue sampleClaim fun _ => "claim-2"
  now := "1970-01-01T00:00:02.000Z"
  claims := [sampleToken 2]

theorem sampleSystem_run :
    Run (EventSystem.Step sampleRuntime) .initial sampleExpired sampleSystem :=
  Run.of_next (step_next sampleRuntime) .initial sampleExpired (by decide +kernel)

/-- The worker is given the command a second time. -/
theorem expired_command_replayed : ¬NeverReplayed (EventSystem.Step sampleRuntime) := by
  intro h
  have hreplay := Run.single (step_next sampleRuntime sampleSystem sampleReplay (by decide +kernel))
  obtain ⟨row, hrow, hid, hstarted, hexpired⟩ := sampleSystem_started
  obtain ⟨hclaims, -⟩ := h sampleSystem_run row hrow hstarted hexpired hreplay
  exact hclaims sampleReplay List.mem_cons_self (sampleToken 2) List.mem_cons_self hid.symm

end GoatCitadel.Storage.InboundChannelEvents
