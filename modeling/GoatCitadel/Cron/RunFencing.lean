import GoatCitadel.Cron.Runs
import GoatCitadel.Support.Runs

/-!
# A cron job has one live run, and its generations are fenced

A job names at most one run.  A run that is not settled, or that waits for
manual reconciliation, is named by its job under its own generation, and only a
token of that run and generation moves it.  So the job admits nothing else in
the meantime, and whoever holds an older token finds that it changes nothing.

What a run went through is kept as well: its phase does not move backwards, its
links are not replaced, and its settlement is revised once, by the
reconciliation of a run that was parked for it.
-/

namespace GoatCitadel.Cron

open GoatCitadel.Support
open GoatCitadel.Policy (JsonObject)
open GoatCitadel.Storage.WorktreeLeaseRepository (DateText epochDates)

/-! ## Linkage -/

/-- An identifier as the repository stores it: trimmed, and not empty. -/
def Normalized (value : Option String) : Prop :=
  ∀ text, value = some text → trim text = text ∧ text ≠ ""

/-- Every identifier of the linkage is one that is stored. -/
def CronRunLinkage.Stored (linkage : CronRunLinkage) : Prop :=
  ∀ entry ∈ linkage.entries, Normalized entry.2

/-- The identifiers of a linkage are kept in a later one. -/
def CronRunLinkage.Kept (old new : CronRunLinkage) : Prop :=
  ∀ name text, (name, some text) ∈ old.entries → (name, some text) ∈ new.entries

section Linkage

theorem CronRunLinkage.Kept.refl (linkage : CronRunLinkage) : linkage.Kept linkage :=
  fun _ _ h => h

theorem CronRunLinkage.Kept.trans {a b c : CronRunLinkage} (h : a.Kept b) (h' : b.Kept c) :
    a.Kept c :=
  fun name text hmem => h' name text (h name text hmem)

theorem normalizeOptional_eq_ok {value result : Option String} {field : String}
    (h : normalizeOptional value field = .ok result) :
    result = value.map trim ∧ Normalized result := by
  cases value with
  | none =>
      obtain rfl := Except.ok.inj h
      exact ⟨rfl, by intro text htext; cases htext⟩
  | some value =>
      cases hrequired : normalizeRequired value field with
      | error error =>
          simp only [normalizeOptional, hrequired] at h
          cases h
      | ok text =>
          simp only [normalizeOptional, hrequired] at h
          obtain rfl := Except.ok.inj h
          obtain ⟨rfl, hset⟩ := requireTrimmed_eq_ok hrequired
          refine ⟨rfl, ?_⟩
          intro text htext
          obtain rfl := Option.some.inj htext
          exact ⟨trim_trim value, hset⟩

/-- Entries that do not contradict each other. -/
def Compatible (stored given : Option String) : Prop :=
  ∀ a b, stored = some a → given = some b → a ≠ "" → b ≠ "" → a = b

/-- What is stored wins over what is given, where both are the same. -/
theorem mem_coalesce {old given : List (String × Option String)}
    (hnames : old.map Prod.fst = given.map Prod.fst)
    (hcompatible : ∀ pair ∈ old.zip given, Compatible pair.1.2 pair.2.2)
    (hold : ∀ entry ∈ old, Normalized entry.2) (hgiven : ∀ entry ∈ given, Normalized entry.2)
    {name text : String} (hmem : (name, some text) ∈ old) :
    (name, some text) ∈ (given.zip old).map fun pair => (pair.1.1, pair.1.2.or pair.2.2) := by
  induction old generalizing given with
  | nil => cases hmem
  | cons entry old ih =>
      cases given with
      | nil => cases hnames
      | cons other given =>
          obtain ⟨hname, hnames⟩ := List.cons.inj hnames
          rw [List.zip_cons_cons, List.map_cons]
          obtain heq | htail := List.mem_cons.mp hmem
          · obtain rfl := heq
            apply List.mem_cons.mpr
            left
            cases hother : other.2 with
            | none => simp_all
            | some value =>
                have hvalue := (hgiven other List.mem_cons_self value hother).2
                have htext := (hold (name, some text) List.mem_cons_self text rfl).2
                have hsame := hcompatible ((name, some text), other) List.mem_cons_self
                  text value rfl hother htext hvalue
                simp_all
          · apply List.mem_cons_of_mem
            refine ih hnames ?_ ?_ ?_ htail
            · intro pair hpair
              exact hcompatible pair (List.mem_cons_of_mem _ hpair)
            · intro entry hentry
              exact hold entry (List.mem_cons_of_mem _ hentry)
            · intro entry hentry
              exact hgiven entry (List.mem_cons_of_mem _ hentry)

theorem assertLinkageCompatible_eq_ok {current : CronRun} {linkage : CronRunLinkage}
    (h : assertLinkageCompatible current linkage = .ok ()) :
    ∀ pair ∈ current.linkage.entries.zip linkage.entries,
      Compatible pair.1.2 pair.2.2 := by
  unfold assertLinkageCompatible at h
  split at h
  · cases h
  · rename_i hnone
    intro pair hpair a b ha hb hset hset'
    exact eq_of_firstClash hnone (List.mem_map_of_mem hpair) ha hb hset hset'

/-- Linking a run anew keeps its links. -/
theorem coalesce_kept {current : CronRun} {linkage : CronRunLinkage}
    (hcompatible : ∀ pair ∈ current.linkage.entries.zip linkage.entries,
      Compatible pair.1.2 pair.2.2)
    (hstored : current.linkage.Stored) (hgiven : linkage.Stored) :
    current.linkage.Kept (linkage.coalesce current.linkage) := by
  intro name text hmem
  have hnames : current.linkage.entries.map Prod.fst = linkage.entries.map Prod.fst := rfl
  exact mem_coalesce hnames hcompatible hstored hgiven hmem

theorem coalesce_stored {old new : CronRunLinkage} (hnew : new.Stored) (hold : old.Stored) :
    (new.coalesce old).Stored := by
  have hor : ∀ {a b : Option String}, Normalized a → Normalized b → Normalized (a.or b) := by
    intro a b ha hb
    cases a with
    | none => exact hb
    | some text => exact ha
  simp only [CronRunLinkage.Stored, CronRunLinkage.entries, List.forall_mem_cons] at hnew hold ⊢
  simp only [CronRunLinkage.coalesce]
  exact ⟨hor hnew.1 hold.1, hor hnew.2.1 hold.2.1, hor hnew.2.2.1 hold.2.2.1,
    hor hnew.2.2.2.1 hold.2.2.2.1, hor hnew.2.2.2.2.1 hold.2.2.2.2.1,
    hor hnew.2.2.2.2.2.1 hold.2.2.2.2.2.1, hor hnew.2.2.2.2.2.2.1 hold.2.2.2.2.2.2.1,
    hor hnew.2.2.2.2.2.2.2.1 hold.2.2.2.2.2.2.2.1, by simp⟩

end Linkage

/-! ## Rows -/

/-- The run is active, or waits for manual reconciliation. -/
def CronRun.unsettled (run : CronRun) : Bool :=
  !run.status.isTerminal || run.status = .manualReconciliationRequired

/-- What may become of a run.  Its status changes while it is active, and once
more when a run that waited for reconciliation is given its final status. -/
structure Advances (run run' : CronRun) : Prop where
  runId : run'.runId = run.runId
  jobId : run'.jobId = run.jobId
  admissionKey : run'.admissionKey = run.admissionKey
  executionGeneration : run'.executionGeneration = run.executionGeneration
  phase : run.phase.order ≤ run'.phase.order
  status : run'.status = run.status ∨ run.status.isTerminal = false ∨
    (run.status = .manualReconciliationRequired ∧ run'.unsettled = false)
  linkage : run.linkage.Kept run'.linkage

theorem Advances.refl (run : CronRun) : Advances run run :=
  ⟨rfl, rfl, rfl, rfl, Nat.le_refl _, .inl rfl, .refl _⟩

theorem terminal_of_not_unsettled {run : CronRun} (h : run.unsettled = false) :
    run.status.isTerminal = true ∧ run.status ≠ .manualReconciliationRequired := by
  simpa [CronRun.unsettled] using h

theorem unsettled_of_active {run : CronRun} (h : run.status.isTerminal = false) :
    run.unsettled = true := by
  simp [CronRun.unsettled, h]

theorem unsettled_of_manual {run : CronRun}
    (h : run.status = .manualReconciliationRequired) : run.unsettled = true := by
  simp [CronRun.unsettled, h]

theorem Advances.trans {a b c : CronRun} (h : Advances a b) (h' : Advances b c) :
    Advances a c where
  runId := h'.runId.trans h.runId
  jobId := h'.jobId.trans h.jobId
  admissionKey := h'.admissionKey.trans h.admissionKey
  executionGeneration := h'.executionGeneration.trans h.executionGeneration
  phase := h.phase.trans h'.phase
  status := by
    obtain hsame | hactive | ⟨hmanual, hfinal⟩ := h.status
    · obtain hsame' | hactive' | ⟨hmanual', hfinal'⟩ := h'.status
      · exact .inl (hsame'.trans hsame)
      · exact .inr (.inl (hsame ▸ hactive'))
      · exact .inr (.inr ⟨hsame ▸ hmanual', hfinal'⟩)
    · exact .inr (.inl hactive)
    · obtain ⟨hterminal, hnot⟩ := terminal_of_not_unsettled hfinal
      obtain hsame' | hactive' | ⟨hmanual', -⟩ := h'.status
      · refine .inr (.inr ⟨hmanual, ?_⟩)
        simp [CronRun.unsettled, hsame', hterminal, hnot]
      · rw [hterminal] at hactive'
        cases hactive'
      · exact absurd hmanual' hnot
  linkage := h.linkage.trans h'.linkage

/-- The row of a run, replaced. -/
def CronStore.replaceRun (run : CronRun) (store : CronStore) : CronStore :=
  { store with
    runs := updateRows (fun other => other.runId = run.runId) (fun _ => run) store.runs }

/-- The token is that of the active run of its job, under its generation. -/
def CronStore.Owns (store : CronStore) (token : CronRunToken) : Prop :=
  ∃ job, store.jobs token.jobId = some job ∧ job.activeRunId = some token.runId ∧
    job.executionGeneration = token.executionGeneration

section Rows

variable {store store' : CronStore} {token : CronRunToken}

theorem tokenMatches_iff {run : CronRun} :
    tokenMatches run token = true ↔
      run.runId = token.runId ∧ run.jobId = token.jobId ∧
        run.executionGeneration = token.executionGeneration := by
  simp [tokenMatches, and_assoc]

/-- An update under the guard of a run that was read changes this run only. -/
theorem updateRun_eq_some {guard : CronRun → Bool} {set : CronRun → CronRun}
    {current : CronRun} (hids : (store.runs.map (·.runId)).Nodup)
    (hcurrent : store.getRun token.runId = some current)
    (hset : (set current).runId = current.runId)
    (h : store.updateRun token guard set = .ok (some store')) :
    guard current = true ∧ store' = store.replaceRun (set current) := by
  obtain ⟨hmem, hid⟩ := mem_of_find?_key hcurrent
  unfold CronStore.updateRun at h
  simp only at h
  split at h
  · cases Except.ok.inj h
  · rename_i hany
    split at h
    · cases h
    · obtain rfl := Option.some.inj (Except.ok.inj h)
      have honly : ∀ run ∈ store.runs, (tokenMatches run token && guard run) = true →
          run = current := by
        intro run hrun hselected
        obtain ⟨hmatches, -⟩ := Bool.and_eq_true_iff.mp hselected
        obtain ⟨hrunId, -⟩ := tokenMatches_iff.mp hmatches
        exact eq_of_key_eq hids hrun hmem (hrunId.trans hid.symm)
      obtain ⟨found, hfound, hselected⟩ := List.any_eq_true.mp (Bool.eq_true_of_not_eq_false hany)
      obtain rfl := honly found hfound hselected
      refine ⟨(Bool.and_eq_true_iff.mp hselected).2, ?_⟩
      unfold CronStore.replaceRun
      congr 1
      apply List.map_congr_left
      intro run hrun
      by_cases hsame : run = found
      · subst hsame
        simp [hselected, hset]
      · have hnot : (tokenMatches run token && guard run) = false := by
          rw [Bool.eq_false_iff]
          exact fun hselected' => hsame (honly run hrun hselected')
        have hne : run.runId ≠ found.runId := fun heq => hsame (eq_of_key_eq hids hrun hmem heq)
        simp [hnot, hset, hne]

theorem ownsActiveGeneration_eq_true
    (h : store.ownsActiveGeneration token = .ok true) : store.Owns token := by
  unfold CronStore.ownsActiveGeneration CronStore.readJob at h
  cases hjob : store.jobs token.jobId with
  | none =>
      rw [hjob] at h
      cases h
  | some job =>
      rw [hjob] at h
      have hboth := Except.ok.inj h
      simp only [Bool.and_eq_true, decide_eq_true_eq] at hboth
      exact ⟨job, hjob, hboth.1, hboth.2⟩

theorem activeRunOf_eq_some {current : CronRun}
    (h : activeRunOf token store = .ok (some current)) :
    store.getRun token.runId = some current ∧ tokenMatches current token = true ∧
      store.Owns token := by
  unfold activeRunOf at h
  split at h
  · cases Except.ok.inj h
  · rename_i found hfound
    split at h
    · cases Except.ok.inj h
    · rename_i hmatches
      obtain ⟨owned, howned, h⟩ := bind_eq_ok.mp h
      cases owned with
      | false => cases Except.ok.inj h
      | true =>
          obtain rfl := Option.some.inj (Except.ok.inj h)
          exact ⟨hfound, by simpa using hmatches, ownsActiveGeneration_eq_true howned⟩

end Rows

/-! ## What a token changes -/

/-- What a call with a token does to the store when it changes something. -/
inductive TokenMove (store : CronStore) (token : CronRunToken) : CronStore → Prop
  | advance {run run' : CronRun} :
      run ∈ store.runs → tokenMatches run token = true → store.Owns token →
      run.status.isTerminal = false → Advances run run' → run'.linkage.Stored →
      run'.unsettled = true → TokenMove store token (store.replaceRun run')
  | settle {run run' : CronRun} (now : String) :
      run ∈ store.runs → tokenMatches run token = true → store.Owns token →
      run.status.isTerminal = false → Advances run run' → run'.linkage.Stored →
      run'.unsettled = false →
      TokenMove store token ((store.replaceRun run').clearActiveJob token now)
  | reconcile {run run' : CronRun} (now : String) :
      run ∈ store.runs → tokenMatches run token = true →
      run.status = .manualReconciliationRequired → Advances run run' →
      run'.linkage.Stored → run'.unsettled = false →
      TokenMove store token ((store.replaceRun run').clearActiveJob token now)

/-- What the operations rely on in the rows they read. -/
structure RowsSound (store : CronStore) : Prop where
  runIds : (store.runs.map (·.runId)).Nodup
  stored : ∀ run ∈ store.runs, run.linkage.Stored

section TokenCalls

variable {dates : DateText} {store store' : CronStore} {input : CronRunTokenInput}
  {now : Option String} {databaseNow : String} {reply : Option CronRun}
  {targetStatus : CronRunStatus} {settlement : SettlementInput}

theorem normalizeLinkage_stored {linkage normalized : CronRunLinkage}
    (h : normalizeLinkage linkage = .ok normalized) : normalized.Stored := by
  unfold normalizeLinkage at h
  obtain ⟨childSessionId, h₁, h⟩ := bind_eq_ok.mp h
  obtain ⟨childMessageId, h₂, h⟩ := bind_eq_ok.mp h
  obtain ⟨childTurnId, h₃, h⟩ := bind_eq_ok.mp h
  obtain ⟨childAssistantMessageId, h₄, h⟩ := bind_eq_ok.mp h
  obtain ⟨childDurableRunId, h₅, h⟩ := bind_eq_ok.mp h
  obtain ⟨deliveryRunId, h₆, h⟩ := bind_eq_ok.mp h
  obtain ⟨externalSideEffectRunId, h₇, h⟩ := bind_eq_ok.mp h
  obtain ⟨evidenceEnvelopeId, h₈, h⟩ := bind_eq_ok.mp h
  obtain rfl := Except.ok.inj h
  simp only [CronRunLinkage.Stored, CronRunLinkage.entries, List.forall_mem_cons]
  exact ⟨(normalizeOptional_eq_ok h₁).2, (normalizeOptional_eq_ok h₂).2,
    (normalizeOptional_eq_ok h₃).2, (normalizeOptional_eq_ok h₄).2,
    (normalizeOptional_eq_ok h₅).2, (normalizeOptional_eq_ok h₆).2,
    (normalizeOptional_eq_ok h₇).2, (normalizeOptional_eq_ok h₈).2, by simp⟩

theorem ofEvidence_stored {evidenceEnvelopeId : Option String}
    (h : Normalized evidenceEnvelopeId) :
    (CronRunLinkage.ofEvidence evidenceEnvelopeId).Stored := by
  have hnone : Normalized none := by intro text htext; cases htext
  simp only [CronRunLinkage.Stored, CronRunLinkage.entries, CronRunLinkage.ofEvidence,
    CronRunLinkage.none, List.forall_mem_cons]
  exact ⟨hnone, hnone, hnone, hnone, hnone, hnone, hnone, h, by simp⟩

/-- An update that moves the run on as an active one. -/
theorem advance_of_updateRun {token : CronRunToken} {current : CronRun}
    {guard : CronRun → Bool} {set : CronRun → CronRun} {written : Option CronStore}
    (hsound : RowsSound store) (hactive : activeRunOf token store = .ok (some current))
    (hset : (set current).runId = current.runId)
    (hstatus : current.status.isTerminal = false)
    (hadvances : Advances current (set current)) (hstored : (set current).linkage.Stored)
    (hunsettled : (set current).unsettled = true)
    (hwritten : store.updateRun token guard set = .ok written)
    (h : answer token store written = (reply, store')) :
    store' = store ∨ TokenMove store token store' := by
  cases written with
  | none =>
      obtain ⟨-, rfl⟩ := Prod.mk.inj h
      exact .inl rfl
  | some written =>
      obtain ⟨-, rfl⟩ := Prod.mk.inj h
      obtain ⟨hget, hmatches, howns⟩ := activeRunOf_eq_some hactive
      obtain ⟨-, rfl⟩ := updateRun_eq_some hsound.runIds hget hset hwritten
      exact .inr (.advance (mem_of_find?_key hget).1 hmatches howns hstatus hadvances hstored
        hunsettled)

theorem attachDeterministicChild_cases {linkage : CronRunLinkage}
    (hsound : RowsSound store)
    (h : attachDeterministicChild dates input linkage now databaseNow store =
      .ok (reply, store')) :
    ∃ token, normalizeToken input = .ok token ∧
      (store' = store ∨ TokenMove store token store') := by
  unfold attachDeterministicChild at h
  obtain ⟨token, htoken, h⟩ := bind_eq_ok.mp h
  obtain ⟨linkage, hlinkage, h⟩ := bind_eq_ok.mp h
  refine ⟨token, htoken, ?_⟩
  split at h
  · cases h
  · obtain ⟨now, -, h⟩ := bind_eq_ok.mp h
    obtain ⟨found, hfound, h⟩ := bind_eq_ok.mp h
    cases found with
    | none =>
        obtain ⟨-, rfl⟩ := ok_pair_inj h
        exact .inl rfl
    | some current =>
        obtain ⟨_, hcompatible, h⟩ := bind_eq_ok.mp h
        split at h
        · obtain ⟨-, rfl⟩ := ok_pair_inj h
          exact .inl rfl
        · split at h
          · cases h
          · rename_i hstate
            simp only [ne_eq, not_or, not_not] at hstate
            obtain ⟨hstatus, hphase⟩ := hstate
            obtain ⟨written, hwritten, h⟩ := bind_eq_ok.mp h
            have hmem := (mem_of_find?_key (activeRunOf_eq_some hfound).1).1
            have hgiven := normalizeLinkage_stored hlinkage
            have hold := hsound.stored current hmem
            refine advance_of_updateRun hsound hfound rfl (by rw [hstatus]; rfl) ?_
              (coalesce_stored hgiven hold) rfl hwritten (Except.ok.inj h)
            exact ⟨rfl, rfl, rfl, rfl, by rw [hphase]; exact Nat.zero_le _,
              .inr (.inl (by rw [hstatus]; rfl)),
              coalesce_kept (assertLinkageCompatible_eq_ok hcompatible) hold hgiven⟩

theorem admitInlineExecution_cases (hsound : RowsSound store)
    (h : admitInlineExecution dates input now databaseNow store = .ok (reply, store')) :
    ∃ token, normalizeToken input = .ok token ∧
      (store' = store ∨ TokenMove store token store') := by
  unfold admitInlineExecution at h
  obtain ⟨token, htoken, h⟩ := bind_eq_ok.mp h
  obtain ⟨now, -, h⟩ := bind_eq_ok.mp h
  refine ⟨token, htoken, ?_⟩
  obtain ⟨found, hfound, h⟩ := bind_eq_ok.mp h
  cases found with
  | none =>
      obtain ⟨-, rfl⟩ := ok_pair_inj h
      exact .inl rfl
  | some current =>
      simp only at h
      split at h
      · obtain ⟨-, rfl⟩ := ok_pair_inj h
        exact .inl rfl
      · split at h
        · cases h
        · rename_i hstate
          simp only [ne_eq, not_or, not_not] at hstate
          obtain ⟨hstatus, hphase⟩ := hstate
          obtain ⟨written, hwritten, h⟩ := bind_eq_ok.mp h
          have hmem := (mem_of_find?_key (activeRunOf_eq_some hfound).1).1
          refine advance_of_updateRun hsound hfound rfl (by rw [hstatus]; rfl) ?_
            (hsound.stored current hmem) rfl hwritten (Except.ok.inj h)
          exact ⟨rfl, rfl, rfl, rfl, by rw [hphase]; exact Nat.zero_le _,
            .inr (.inl (by rw [hstatus]; rfl)), .refl _⟩

theorem advancePhase_cases {targetPhase : CronRunPhase} {linkage : CronRunLinkage}
    (hsound : RowsSound store)
    (h : advancePhase dates input targetStatus targetPhase linkage now databaseNow store =
      .ok (reply, store')) :
    ∃ token, normalizeToken input = .ok token ∧
      (store' = store ∨ TokenMove store token store') := by
  unfold advancePhase at h
  obtain ⟨token, htoken, h⟩ := bind_eq_ok.mp h
  refine ⟨token, htoken, ?_⟩
  split at h
  · cases h
  · rename_i htarget
    obtain ⟨linkage, hlinkage, h⟩ := bind_eq_ok.mp h
    obtain ⟨now, -, h⟩ := bind_eq_ok.mp h
    obtain ⟨found, hfound, h⟩ := bind_eq_ok.mp h
    cases found with
    | none =>
        obtain ⟨-, rfl⟩ := ok_pair_inj h
        exact .inl rfl
    | some current =>
        obtain ⟨_, hcompatible, h⟩ := bind_eq_ok.mp h
        split at h
        · obtain ⟨-, rfl⟩ := ok_pair_inj h
          exact .inl rfl
        · split at h
          · cases h
          · rename_i hadvance
            simp only [canAdvance, Bool.and_eq_false_iff, not_or, Bool.not_eq_false,
              Bool.not_eq_true', Bool.or_eq_false_iff, decide_eq_true_eq] at hadvance
            obtain ⟨⟨⟨hstatus, -⟩, -⟩, hphase⟩ := hadvance
            obtain ⟨written, hwritten, h⟩ := bind_eq_ok.mp h
            have hmem := (mem_of_find?_key (activeRunOf_eq_some hfound).1).1
            have hgiven := normalizeLinkage_stored hlinkage
            have hold := hsound.stored current hmem
            refine advance_of_updateRun hsound hfound rfl hstatus ?_
              (coalesce_stored hgiven hold) ?_ hwritten (Except.ok.inj h)
            · exact ⟨rfl, rfl, rfl, rfl, hphase, .inr (.inl hstatus),
                coalesce_kept (assertLinkageCompatible_eq_ok hcompatible) hold hgiven⟩
            · have hactive : targetStatus.isTerminal = false := by simpa using htarget
              simp [CronRun.unsettled, advancedRow, hactive]

/-- The evidence that was checked as it was given is stored trimmed. -/
theorem evidence_compatible {current : CronRun} {given normalized : Option String}
    (hstored : current.linkage.Stored)
    (hcompatible : assertLinkageCompatible current (.ofEvidence given) = .ok ())
    (hnormalized : normalizeOptional given "evidenceEnvelopeId" = .ok normalized) :
    ∀ pair ∈ current.linkage.entries.zip (CronRunLinkage.ofEvidence normalized).entries,
      Compatible pair.1.2 pair.2.2 := by
  have hchecked := assertLinkageCompatible_eq_ok hcompatible
  obtain ⟨rfl, -⟩ := normalizeOptional_eq_ok hnormalized
  have hevidence : Normalized current.linkage.evidenceEnvelopeId :=
    hstored ("evidenceEnvelopeId", _) (by simp [CronRunLinkage.entries])
  simp only [CronRunLinkage.entries, CronRunLinkage.ofEvidence, CronRunLinkage.none,
    List.zip_cons_cons, List.zip_nil_right, List.forall_mem_cons] at hchecked ⊢
  obtain ⟨h₁, h₂, h₃, h₄, h₅, h₆, h₇, hlast, -⟩ := hchecked
  refine ⟨h₁, h₂, h₃, h₄, h₅, h₆, h₇, ?_, by simp⟩
  intro stored text hstoredText htext hset hset'
  cases given with
  | none => cases htext
  | some value =>
      obtain rfl := Option.some.inj htext
      have hvalue : value ≠ "" := by
        rintro rfl
        exact hset' rfl
      have hsame : stored = value := hlast stored value hstoredText rfl hset hvalue
      rw [← hsame]
      exact (hevidence stored hstoredText).1.symm

theorem settleActive_cases {token : CronRunToken} {current : CronRun} {now : String}
    (hsound : RowsSound store) (hget : store.getRun token.runId = some current)
    (hmatches : tokenMatches current token = true) (hactive : current.status.isTerminal = false)
    (hterminal : targetStatus.isTerminal = true)
    (h : settleActive token current targetStatus settlement now store =
      .ok (reply, store')) : store' = store ∨ TokenMove store token store' := by
  have hmem := (mem_of_find?_key hget).1
  unfold settleActive at h
  obtain ⟨owned, howned, h⟩ := bind_eq_ok.mp h
  cases owned with
  | false =>
      obtain ⟨-, rfl⟩ := ok_pair_inj h
      exact .inl rfl
  | true =>
      obtain ⟨_, hcompatible, h⟩ := bind_eq_ok.mp h
      obtain ⟨outcomeJson, -, h⟩ := bind_eq_ok.mp h
      obtain ⟨failureJson, -, h⟩ := bind_eq_ok.mp h
      obtain ⟨reconciliationReason, -, h⟩ := bind_eq_ok.mp h
      obtain ⟨evidence, hevidence, h⟩ := bind_eq_ok.mp h
      obtain ⟨written, hwritten, h⟩ := bind_eq_ok.mp h
      cases written with
      | none =>
          obtain ⟨-, rfl⟩ := ok_pair_inj h
          exact .inl rfl
      | some written =>
          obtain ⟨-, hstore⟩ := ok_pair_inj h
          obtain ⟨-, rfl⟩ := updateRun_eq_some hsound.runIds hget rfl hwritten
          have hold := hsound.stored current hmem
          have hgiven := ofEvidence_stored (normalizeOptional_eq_ok hevidence).2
          have hphase : current.phase.order ≤ CronRunPhase.settlement.order := by
            cases current.phase <;> decide
          have hadvances : Advances current (settledRow
              { status := targetStatus, outcomeJson, failureJson, reconciliationReason,
                evidenceEnvelopeId := evidence, now } current) :=
            ⟨rfl, rfl, rfl, rfl, hphase, .inr (.inl hactive),
              coalesce_kept (evidence_compatible hold hcompatible hevidence) hold hgiven⟩
          have howns := ownsActiveGeneration_eq_true howned
          right
          split at hstore
          · rename_i hfinal
            rw [← hstore]
            refine .settle now hmem hmatches howns hactive hadvances
              (coalesce_stored hgiven hold) ?_
            simp [CronRun.unsettled, settledRow, hterminal, hfinal]
          · rename_i hpark
            rw [← hstore]
            refine .advance hmem hmatches howns hactive hadvances
              (coalesce_stored hgiven hold) ?_
            simp only [ne_eq, not_not] at hpark
            simp [CronRun.unsettled, settledRow, hpark]

theorem terminalize_cases (hsound : RowsSound store)
    (h : terminalize dates input targetStatus settlement databaseNow store =
      .ok (reply, store')) :
    ∃ token, normalizeToken input = .ok token ∧
      (store' = store ∨ TokenMove store token store') := by
  unfold terminalize at h
  obtain ⟨token, htoken, h⟩ := bind_eq_ok.mp h
  obtain ⟨now, -, h⟩ := bind_eq_ok.mp h
  refine ⟨token, htoken, ?_⟩
  split at h
  · cases h
  · rename_i hterminal
    split at h
    · cases h
    · split at h
      · obtain ⟨-, rfl⟩ := ok_pair_inj h
        exact .inl rfl
      · rename_i current hget
        split at h
        · obtain ⟨-, rfl⟩ := ok_pair_inj h
          exact .inl rfl
        · rename_i hmatches
          split at h
          · split at h
            · obtain ⟨-, rfl⟩ := ok_pair_inj h
              exact .inl rfl
            · obtain ⟨_, -, h⟩ := bind_eq_ok.mp h
              obtain ⟨-, rfl⟩ := ok_pair_inj h
              exact .inl rfl
          · rename_i hactive
            exact settleActive_cases hsound hget (by simpa using hmatches)
              (by simpa using hactive) (by simpa using hterminal) h

theorem recordReconciliation_cases {resolution reconciledBy : String} (hsound : RowsSound store)
    (h : recordReconciliation dates input targetStatus resolution reconciledBy settlement
      databaseNow store = .ok (reply, store')) :
    ∃ token, normalizeToken input = .ok token ∧
      (store' = store ∨ TokenMove store token store') := by
  unfold recordReconciliation at h
  obtain ⟨token, htoken, h⟩ := bind_eq_ok.mp h
  obtain ⟨now, -, h⟩ := bind_eq_ok.mp h
  refine ⟨token, htoken, ?_⟩
  split at h
  · cases h
  · rename_i hterminal
    split at h
    · cases h
    · rename_i hfinal
      obtain ⟨evidence, hevidence, h⟩ := bind_eq_ok.mp h
      split at h
      · obtain ⟨-, rfl⟩ := ok_pair_inj h
        exact .inl rfl
      · rename_i current hget
        split at h
        · obtain ⟨-, rfl⟩ := ok_pair_inj h
          exact .inl rfl
        · rename_i hmatches
          obtain ⟨_, hcompatible, h⟩ := bind_eq_ok.mp h
          obtain ⟨resolution, -, h⟩ := bind_eq_ok.mp h
          obtain ⟨reconciledBy, -, h⟩ := bind_eq_ok.mp h
          obtain ⟨outcomeJson, -, h⟩ := bind_eq_ok.mp h
          obtain ⟨failureJson, -, h⟩ := bind_eq_ok.mp h
          obtain ⟨written, hwritten, h⟩ := bind_eq_ok.mp h
          cases written with
          | none =>
              obtain ⟨-, rfl⟩ := ok_pair_inj h
              exact .inl rfl
          | some written =>
              obtain ⟨-, rfl⟩ := ok_pair_inj h
              obtain ⟨hguard, rfl⟩ := updateRun_eq_some hsound.runIds hget rfl hwritten
              simp only [Bool.and_eq_true, decide_eq_true_eq] at hguard
              have hmem := (mem_of_find?_key hget).1
              have hold := hsound.stored current hmem
              have hgiven := ofEvidence_stored (normalizeOptional_eq_ok hevidence).2
              have hsettled : (reconciledRow targetStatus outcomeJson failureJson evidence
                  resolution reconciledBy now current).unsettled = false := by
                have hterminal' : targetStatus.isTerminal = true := by simpa using hterminal
                simp [CronRun.unsettled, reconciledRow, hterminal', hfinal]
              refine .inr (.reconcile now hmem (by simpa using hmatches) hguard.1 ?_
                (coalesce_stored hgiven hold) hsettled)
              exact ⟨rfl, rfl, rfl, rfl, Nat.le_refl _, .inr (.inr ⟨hguard.1, hsettled⟩),
                coalesce_kept (assertLinkageCompatible_eq_ok hcompatible) hold hgiven⟩

end TokenCalls

/-! ## Admission -/

/-- What an admission does to the store when it begins a run: the job, which had
no active run, names the new one under a generation above all of its runs. -/
structure Admits (store : CronStore) (run : CronRun) (now : String) (store' : CronStore) :
    Prop where
  job : ∃ job, store.jobs run.jobId = some job ∧ job.activeRunId = none
  freshRun : ∀ other ∈ store.runs, other.runId ≠ run.runId
  freshAdmission : ∀ other ∈ store.runs,
    (other.jobId, other.admissionKey) ≠ (run.jobId, run.admissionKey)
  generation : ∀ other ∈ store.runs, other.jobId = run.jobId →
    other.executionGeneration < run.executionGeneration
  active : run.status.isTerminal = false
  linkage : run.linkage = .none
  written : store' = { (store.setJob run.jobId fun job =>
      { job with
        executionGeneration := run.executionGeneration
        activeRunId := some run.runId
        updatedAt := now }) with
    runs := store.runs ++ [run] }

section Admission

variable {dates : DateText} {store store' : CronStore}

theorem generation_le_historicalMax {run : CronRun} (h : run ∈ store.runs) :
    run.executionGeneration ≤ store.historicalMaxGeneration run.jobId := by
  unfold CronStore.historicalMaxGeneration
  generalize store.runs = runs at h
  induction runs with
  | nil => cases h
  | cons other runs ih =>
      rw [List.foldr_cons]
      obtain rfl | hmem := List.mem_cons.mp h
      · rw [if_pos rfl]
        exact Nat.le_max_left _ _
      · have hle := ih hmem
        split
        · exact hle.trans (Nat.le_max_right _ _)
        · exact hle

theorem admitFirst_cases {admission : Admission} {job : CronJobRow}
    {result : CronRunBeginResult} (hjob : store.jobs admission.jobId = some job)
    (hidle : job.activeRunId = none)
    (hrun : store.getRun admission.runId = none)
    (hadmission : store.getByAdmission admission.jobId admission.admissionKey = none)
    (h : admitFirst admission job store = .ok (result, store')) :
    ∃ run, result = .begun run ∧ run.jobId = admission.jobId ∧
      run.admissionKey = admission.admissionKey ∧ run.trigger = admission.trigger ∧
      Admits store run admission.now store' := by
  unfold admitFirst at h
  simp only [CronStore.reserveJobGeneration, hjob, hidle, and_self, if_true] at h
  split at h
  · cases h
  · obtain ⟨json, -, h⟩ := bind_eq_ok.mp h
    split at h
    · cases h
    · obtain ⟨rfl, rfl⟩ := ok_pair_inj h
      refine ⟨_, rfl, rfl, rfl, rfl, ⟨job, hjob, hidle⟩, ?_, ?_, ?_, rfl, rfl, rfl⟩
      · exact find?_key_eq_none.mp hrun
      · exact find?_key_eq_none.mp hadmission
      · intro other hother hsame
        have hle := generation_le_historicalMax hother
        rw [hsame] at hle
        have hmax : store.historicalMaxGeneration admission.jobId ≤
          max job.executionGeneration (store.historicalMaxGeneration admission.jobId) :=
            Nat.le_max_right _ _
        exact Nat.lt_succ_of_le (hle.trans hmax)

/-- What an admission that returns has done. -/
inductive Begins (dates : DateText) (input : CronRunBeginInput) (store : CronStore) :
    CronRunBeginResult → CronStore → Prop
  | begun {run : CronRun} {now : String} {store' : CronStore} : run.jobId = trim input.jobId →
      run.admissionKey = trim input.admissionKey →
      run.trigger = input.trigger.getD .scheduledDue → Admits store run now store' →
      Begins dates input store (.begun run) store'
  | duplicate {run : CronRun} : run ∈ store.runs → run.jobId = trim input.jobId →
      run.admissionKey = trim input.admissionKey →
      Begins dates input store (.duplicate run) store
  | blocked {run : CronRun} {job : CronJobRow} : store.jobs (trim input.jobId) = some job →
      job.activeRunId = some run.runId → Begins dates input store (.blocked run) store

theorem normalizeBeginInput_eq_ok {input : CronRunBeginInput} {now : Option String}
    {randomUUID databaseNow : String} {admission : Admission}
    (h : normalizeBeginInput dates input now randomUUID databaseNow = .ok admission) :
    admission.jobId = trim input.jobId ∧ admission.admissionKey = trim input.admissionKey ∧
      admission.trigger = input.trigger.getD .scheduledDue := by
  unfold normalizeBeginInput at h
  obtain ⟨jobId, hjobId, h⟩ := bind_eq_ok.mp h
  obtain ⟨admissionKey, hkey, h⟩ := bind_eq_ok.mp h
  iterate 3 obtain ⟨_, -, h⟩ := bind_eq_ok.mp h
  obtain rfl := Except.ok.inj h
  exact ⟨(requireTrimmed_eq_ok hjobId).1, (requireTrimmed_eq_ok hkey).1, rfl⟩

theorem readJob_eq_ok {jobId : String} {job : CronJobRow}
    (h : store.readJob jobId = .ok job) : store.jobs jobId = some job := by
  unfold CronStore.readJob at h
  split at h
  · rename_i found hfound
    rw [hfound, Except.ok.inj h]
  · cases h

theorem beginAdmission_begins {input : CronRunBeginInput} {now : Option String}
    {randomUUID databaseNow : String} {result : CronRunBeginResult}
    (h : beginAdmission dates input now randomUUID databaseNow store =
      .ok (result, store')) : Begins dates input store result store' := by
  unfold beginAdmission at h
  obtain ⟨admission, hadmission, h⟩ := bind_eq_ok.mp h
  obtain ⟨hjobId, hkey, htrigger⟩ := normalizeBeginInput_eq_ok hadmission
  unfold admitOccurrence at h
  split at h
  · rename_i duplicate hduplicate
    split at h
    · cases h
    · obtain ⟨rfl, rfl⟩ := ok_pair_inj h
      obtain ⟨hmem, hpair⟩ := mem_of_find?_key hduplicate
      obtain ⟨hsameJob, hsameKey⟩ := Prod.mk.inj hpair
      exact .duplicate hmem (hsameJob.trans hjobId) (hsameKey.trans hkey)
  · rename_i hfresh
    split at h
    · cases h
    · rename_i hrun
      obtain ⟨job, hjob, h⟩ := bind_eq_ok.mp h
      have hread := readJob_eq_ok hjob
      split at h
      · rename_i activeRunId hactive
        split at h
        · cases h
        · rename_i activeRun hactiveRun
          obtain ⟨rfl, rfl⟩ := ok_pair_inj h
          obtain ⟨-, hid⟩ := mem_of_find?_key hactiveRun
          rw [hjobId] at hread
          exact .blocked hread (by rw [hactive, hid])
      · rename_i hidle
        obtain ⟨run, rfl, hrunJob, hrunKey, hrunTrigger, hadmits⟩ :=
          admitFirst_cases hread hidle hrun hfresh h
        exact .begun (hrunJob.trans hjobId) (hrunKey.trans hkey)
          (hrunTrigger.trans htrigger) hadmits

/-- An admission is refused for nothing but its key when its job is idle and all
that it writes is in range. -/
structure Admissible (dates : DateText) (input : CronRunBeginInput) (databaseNow : String)
    (store : CronStore) : Prop where
  jobId : trim input.jobId ≠ ""
  admissionKey : trim input.admissionKey ≠ ""
  scheduledFor : (dates.parse input.scheduledFor).bind dates.toISOString ≠ none
  runId : ∃ runId, input.runId = some runId ∧ trim runId ≠ "" ∧
    ∀ run ∈ store.runs, run.runId ≠ trim runId
  databaseNow : (dates.parse databaseNow).bind dates.toISOString ≠ none
  job : ∃ job json, store.jobs (trim input.jobId) = some job ∧ job.activeRunId = none ∧
    1 ≤ job.definition.revision ∧
    normalizeBoundedJson "actionSnapshot" (actionSnapshot job.definition) = .ok json ∧
    max job.executionGeneration (store.historicalMaxGeneration (trim input.jobId)) <
      maxSafeInteger

theorem normalizeRequired_of_ne {value field : String} (h : trim value ≠ "") :
    normalizeRequired value field = .ok (trim value) := by
  simp [normalizeRequired, requireTrimmed, h, pure, Except.pure]

theorem normalizeTimestamp_of_ne {value field : String}
    (h : (dates.parse value).bind dates.toISOString ≠ none) :
    ∃ text, normalizeTimestamp dates value field = .ok text := by
  unfold normalizeTimestamp
  cases htext : (dates.parse value).bind dates.toISOString with
  | none => exact absurd htext h
  | some text => exact ⟨text, rfl⟩

theorem admitFirst_of_ready {admission : Admission} {job : CronJobRow} {json : String}
    (hjob : store.jobs admission.jobId = some job) (hidle : job.activeRunId = none)
    (hrevision : 1 ≤ job.definition.revision)
    (hjson : normalizeBoundedJson "actionSnapshot" (actionSnapshot job.definition) = .ok json)
    (hgeneration : max job.executionGeneration
      (store.historicalMaxGeneration admission.jobId) < maxSafeInteger) :
    ∃ run store', admitFirst admission job store = .ok (.begun run, store') := by
  have hinRange : ¬maxSafeInteger <
      max job.executionGeneration (store.historicalMaxGeneration admission.jobId) + 1 :=
    Nat.not_lt.mpr hgeneration
  have hrevised : ¬job.definition.revision < 1 := Nat.not_lt.mpr hrevision
  unfold admitFirst
  simp only [CronStore.reserveJobGeneration, hjob, hidle, and_self, if_true, hrevised,
    if_false, hjson, bind, Except.bind, hinRange]
  exact ⟨_, _, rfl⟩

/-- Such an admission begins a run, unless its key was used. -/
theorem beginAdmission_of_admissible {input : CronRunBeginInput}
    {randomUUID databaseNow : String} (h : Admissible dates input databaseNow store) :
    (∃ run store', beginAdmission dates input none randomUUID databaseNow store =
      .ok (.begun run, store')) ∨
    ∃ run ∈ store.runs, run.jobId = trim input.jobId ∧
      run.admissionKey = trim input.admissionKey := by
  obtain ⟨scheduledFor, hscheduledFor⟩ :=
    @normalizeTimestamp_of_ne dates input.scheduledFor "scheduledFor" h.scheduledFor
  obtain ⟨now, hnow⟩ := @normalizeTimestamp_of_ne dates databaseNow "now" h.databaseNow
  obtain ⟨runId, hrunId, hset, hfresh⟩ := h.runId
  obtain ⟨job, json, hjob, hidle, hrevision, hjson, hgeneration⟩ := h.job
  let admission : Admission :=
    { runId := trim runId
      jobId := trim input.jobId
      admissionKey := trim input.admissionKey
      scheduledFor
      trigger := input.trigger.getD .scheduledDue
      now }
  have hadmission : normalizeBeginInput dates input none randomUUID databaseNow =
      .ok admission := by
    simp only [normalizeBeginInput, normalizeRequired_of_ne h.jobId,
      normalizeRequired_of_ne h.admissionKey, hscheduledFor, hrunId, normalizeOptional,
      normalizeRequired_of_ne hset, callTime, Option.getD_none, hnow]
    rfl
  cases hadmitted : store.getByAdmission admission.jobId admission.admissionKey with
  | some duplicate =>
      obtain ⟨hmem, hpair⟩ := mem_of_find?_key hadmitted
      obtain ⟨hsameJob, hsameKey⟩ := Prod.mk.inj hpair
      exact .inr ⟨duplicate, hmem, hsameJob, hsameKey⟩
  | none =>
      left
      have hrun : store.getRun admission.runId = none := find?_key_eq_none.mpr hfresh
      have hread : store.readJob admission.jobId = .ok job := by
        simp only [CronStore.readJob, show store.jobs admission.jobId = some job from hjob]
        rfl
      obtain ⟨run, store', hbegun⟩ :=
        @admitFirst_of_ready store admission job json hjob hidle hrevision hjson hgeneration
      refine ⟨run, store', ?_⟩
      rw [beginAdmission, hadmission]
      simp only [bind, Except.bind, admitOccurrence, hadmitted, hrun, hread, hidle]
      exact hbegun

end Admission

/-! ## Calls -/

/-- A call of the repository, with what it reads of its environment; or a change
of a job's definition, which others make. -/
inductive Call
  | beginAdmission (input : CronRunBeginInput) (now : Option String)
      (randomUUID databaseNow : String)
  | attachDeterministicChild (token : CronRunTokenInput) (linkage : CronRunLinkage)
      (now : Option String) (databaseNow : String)
  | admitInlineExecution (token : CronRunTokenInput) (now : Option String)
      (databaseNow : String)
  | advancePhase (token : CronRunTokenInput) (targetStatus : CronRunStatus)
      (targetPhase : CronRunPhase) (linkage : CronRunLinkage) (now : Option String)
      (databaseNow : String)
  | terminalize (token : CronRunTokenInput) (targetStatus : CronRunStatus)
      (input : SettlementInput) (databaseNow : String)
  | recordReconciliation (token : CronRunTokenInput) (targetStatus : CronRunStatus)
      (resolution reconciledBy : String) (input : SettlementInput) (databaseNow : String)
  | redefineJob (jobId : String) (definition : CronJobDefinition)

namespace Call

/-- The token that a call carries. -/
def token : Call → Option CronRunTokenInput
  | .beginAdmission _ _ _ _ => none
  | .attachDeterministicChild token _ _ _ => some token
  | .admitInlineExecution token _ _ => some token
  | .advancePhase token _ _ _ _ _ => some token
  | .terminalize token _ _ _ => some token
  | .recordReconciliation token _ _ _ _ _ => some token
  | .redefineJob _ _ => none

variable (dates : DateText)

/-- The store after a call that returns. -/
def perform (store : CronStore) : Call → Except CronRunError CronStore
  | .beginAdmission input now randomUUID databaseNow =>
      Prod.snd <$> Cron.beginAdmission dates input now randomUUID databaseNow store
  | .attachDeterministicChild token linkage now databaseNow =>
      Prod.snd <$> Cron.attachDeterministicChild dates token linkage now databaseNow store
  | .admitInlineExecution token now databaseNow =>
      Prod.snd <$> Cron.admitInlineExecution dates token now databaseNow store
  | .advancePhase token targetStatus targetPhase linkage now databaseNow =>
      Prod.snd <$> Cron.advancePhase dates token targetStatus targetPhase linkage now
        databaseNow store
  | .terminalize token targetStatus input databaseNow =>
      Prod.snd <$> Cron.terminalize dates token targetStatus input databaseNow store
  | .recordReconciliation token targetStatus resolution reconciledBy input databaseNow =>
      Prod.snd <$> Cron.recordReconciliation dates token targetStatus resolution
        reconciledBy input databaseNow store
  | .redefineJob jobId definition =>
      .ok (store.setJob jobId fun job => { job with definition })

/-- The store after a transaction; it stays as it is when it throws. -/
def after (store : CronStore) (call : Call) : CronStore :=
  match call.perform dates store with
  | .ok written => written
  | .error _ => store

end Call

/-- One transaction. -/
def CronStore.Step (dates : DateText) (store : CronStore) (call : Call)
    (store' : CronStore) : Prop :=
  store' = call.after dates store

/-- What one transaction does. -/
inductive Change (store : CronStore) (call : Call) : CronStore → Prop
  | nothing : Change store call store
  | admission {run : CronRun} {now : String} {store' : CronStore} : call.token = none →
      Admits store run now store' → Change store call store'
  | move {input : CronRunTokenInput} {token : CronRunToken} {store' : CronStore} :
      call.token = some input → normalizeToken input = .ok token →
      TokenMove store token store' → Change store call store'
  | redefine (jobId : String) (definition : CronJobDefinition) : call.token = none →
      Change store call (store.setJob jobId fun job => { job with definition })

section Steps

variable {dates : DateText} {store store' : CronStore} {call : Call}

theorem change_of_cases {input : CronRunTokenInput} (htoken : call.token = some input)
    (h : ∃ token, normalizeToken input = .ok token ∧
      (store' = store ∨ TokenMove store token store')) : Change store call store' := by
  obtain ⟨token, hnormalized, rfl | hmove⟩ := h
  · exact .nothing
  · exact .move htoken hnormalized hmove

theorem perform_change (hsound : RowsSound store)
    (h : call.perform dates store = .ok store') : Change store call store' := by
  cases call with
  | beginAdmission input now randomUUID databaseNow =>
      obtain ⟨_, h⟩ := map_snd_eq_ok h
      cases beginAdmission_begins h with
      | begun _ _ _ hadmits => exact .admission rfl hadmits
      | duplicate => exact .nothing
      | blocked => exact .nothing
  | attachDeterministicChild token linkage now databaseNow =>
      obtain ⟨_, h⟩ := map_snd_eq_ok h
      exact change_of_cases rfl (attachDeterministicChild_cases hsound h)
  | admitInlineExecution token now databaseNow =>
      obtain ⟨_, h⟩ := map_snd_eq_ok h
      exact change_of_cases rfl (admitInlineExecution_cases hsound h)
  | advancePhase token targetStatus targetPhase linkage now databaseNow =>
      obtain ⟨_, h⟩ := map_snd_eq_ok h
      exact change_of_cases rfl (advancePhase_cases hsound h)
  | terminalize token targetStatus input databaseNow =>
      obtain ⟨_, h⟩ := map_snd_eq_ok h
      exact change_of_cases rfl (terminalize_cases hsound h)
  | recordReconciliation token targetStatus resolution reconciledBy input databaseNow =>
      obtain ⟨_, h⟩ := map_snd_eq_ok h
      exact change_of_cases rfl (recordReconciliation_cases hsound h)
  | redefineJob jobId definition =>
      obtain rfl := Except.ok.inj h
      exact .redefine jobId definition rfl

theorem step_change (hsound : RowsSound store) (h : CronStore.Step dates store call store') :
    Change store call store' := by
  obtain rfl : store' = call.after dates store := h
  unfold Call.after
  cases hperform : call.perform dates store with
  | error error => exact .nothing
  | ok written => exact perform_change hsound hperform

end Steps

/-! ## The invariant -/

/-- What every transaction keeps. -/
structure Fenced (store : CronStore) : Prop extends RowsSound store where
  admissions : (store.runs.map fun run => (run.jobId, run.admissionKey)).Nodup
  generations : store.runs.Pairwise fun earlier later =>
    earlier.jobId = later.jobId → earlier.executionGeneration < later.executionGeneration
  live : ∀ run ∈ store.runs, run.unsettled = true →
    ∃ job, store.jobs run.jobId = some job ∧ job.activeRunId = some run.runId ∧
      job.executionGeneration = run.executionGeneration
  named : ∀ jobId job runId, store.jobs jobId = some job → job.activeRunId = some runId →
    ∃ run ∈ store.runs, run.runId = runId ∧ run.jobId = jobId ∧ run.unsettled = true

theorem fenced_of_fresh {store : CronStore} (hruns : store.runs = [])
    (hjobs : ∀ jobId job, store.jobs jobId = some job → job.activeRunId = none) :
    Fenced store where
  runIds := by simp [hruns]
  stored := by simp [hruns]
  admissions := by simp [hruns]
  generations := by simp [hruns]
  live := by simp [hruns]
  named := by
    intro jobId job runId hjob hactive
    rw [hjobs jobId job hjob] at hactive
    cases hactive

section Invariant

variable {store store' : CronStore} {run run' : CronRun}

theorem setJob_self {jobId : String} {set : CronJobRow → CronJobRow} :
    (store.setJob jobId set).jobs jobId = (store.jobs jobId).map set := by
  simp [CronStore.setJob]

theorem setJob_of_ne {jobId other : String} {set : CronJobRow → CronJobRow}
    (h : other ≠ jobId) : (store.setJob jobId set).jobs other = store.jobs other := by
  simp [CronStore.setJob, h]

theorem stored_none : CronRunLinkage.none.Stored := by
  intro entry hentry text htext
  simp only [CronRunLinkage.entries, CronRunLinkage.none, List.mem_cons, List.not_mem_nil,
    or_false] at hentry
  obtain rfl | rfl | rfl | rfl | rfl | rfl | rfl | rfl := hentry <;> cases htext

theorem Fenced.addRun (h : Fenced store) {now : String} (hadmits : Admits store run now store') :
    Fenced store' := by
  obtain ⟨job, hjob, hidle⟩ := hadmits.job
  have hother : ∀ other ∈ store.runs, other.jobId = run.jobId → other.unsettled = false := by
    intro other hmem hsame
    rw [Bool.eq_false_iff]
    intro hunsettled
    obtain ⟨found, hfound, hactive, -⟩ := h.live other hmem hunsettled
    rw [hsame, hjob] at hfound
    obtain rfl := Option.some.inj hfound
    rw [hidle] at hactive
    cases hactive
  have hunsettled : run.unsettled = true := by simp [CronRun.unsettled, hadmits.active]
  obtain rfl := hadmits.written
  exact {
    runIds := nodup_map_append_singleton h.runIds hadmits.freshRun
    stored := forall_mem_append_singleton h.stored (by rw [hadmits.linkage]; exact stored_none)
    admissions := nodup_map_append_singleton h.admissions hadmits.freshAdmission
    generations := by
      refine List.pairwise_append.mpr ⟨h.generations, List.pairwise_singleton _ _, ?_⟩
      intro other hmem last hlast hsame
      rw [List.mem_singleton] at hlast
      rw [hlast] at hsame ⊢
      exact hadmits.generation other hmem hsame
    live := by
      apply forall_mem_append_singleton
      · intro other hmem hlive
        have hne : other.jobId ≠ run.jobId := by
          intro hsame
          rw [hother other hmem hsame] at hlive
          cases hlive
        obtain ⟨found, hfound, hnamed⟩ := h.live other hmem hlive
        exact ⟨found, (setJob_of_ne hne).trans hfound, hnamed⟩
      · intro _
        refine ⟨_, setJob_self.trans (congrArg (Option.map _) hjob), rfl, rfl⟩
    named := by
      intro jobId found runId hfound hactive
      by_cases hsame : jobId = run.jobId
      · subst hsame
        have hset := setJob_self.symm.trans hfound
        rw [hjob] at hset
        obtain rfl := Option.some.inj hset
        obtain rfl := Option.some.inj hactive
        exact ⟨run, List.mem_append_right _ List.mem_cons_self, rfl, rfl, hunsettled⟩
      · obtain ⟨other, hmem, hid, hjobId, hlive⟩ :=
          h.named jobId found runId ((setJob_of_ne hsame).symm.trans hfound) hactive
        exact ⟨other, List.mem_append_left _ hmem, hid, hjobId, hlive⟩ }

/-- The rows of a store after a run was replaced. -/
theorem mem_replaceRun (hids : (store.runs.map (·.runId)).Nodup) (hrun : run ∈ store.runs)
    (hid : run'.runId = run.runId) (other : CronRun) :
    other ∈ (store.replaceRun run').runs ↔
      other = run' ∨ (other ∈ store.runs ∧ other ≠ run) := by
  unfold CronStore.replaceRun
  rw [mem_updateRows]
  constructor
  · rintro ⟨row, hrow, rfl⟩
    by_cases hsame : row.runId = run'.runId
    · left
      simp [hsame]
    · right
      have hne : row ≠ run := fun heq => hsame (heq ▸ hid.symm)
      simp [hsame, hrow, hne]
  · rintro (rfl | ⟨hmem, hne⟩)
    · exact ⟨run, hrun, by simp [hid]⟩
    · refine ⟨other, hmem, ?_⟩
      have hdiff : other.runId ≠ run'.runId := by
        intro heq
        exact hne (eq_of_key_eq hids hmem hrun (heq.trans hid))
      simp [hdiff]

theorem updateRows_column {κ : Type} {column : CronRun → κ}
    (hids : (store.runs.map (·.runId)).Nodup) (hrun : run ∈ store.runs)
    (hid : run'.runId = run.runId) (hcolumn : column run' = column run) :
    (store.replaceRun run').runs.map column = store.runs.map column := by
  unfold CronStore.replaceRun updateRows
  rw [List.map_map]
  apply List.map_congr_left
  intro row hrow
  rw [Function.comp_apply]
  split
  · rename_i hsame
    have heq : row = run := by
      apply eq_of_key_eq hids hrow hrun
      rw [← hid]
      simpa using hsame
    rw [heq, hcolumn]
  · rfl

/-- Replacing a run by what may become of it keeps the rows in order. -/
theorem RowsSound.replaceRun (h : RowsSound store) (hrun : run ∈ store.runs)
    (hadvances : Advances run run') (hstored : run'.linkage.Stored) :
    RowsSound (store.replaceRun run') where
  runIds := by
    rw [updateRows_column h.runIds hrun hadvances.runId hadvances.runId]
    exact h.runIds
  stored := by
    intro other hother
    obtain rfl | ⟨hmem, -⟩ := (mem_replaceRun h.runIds hrun hadvances.runId other).mp hother
    · exact hstored
    · exact h.stored other hmem

theorem Fenced.replaced_admissions (h : Fenced store) (hrun : run ∈ store.runs)
    (hadvances : Advances run run') :
    ((store.replaceRun run').runs.map fun run => (run.jobId, run.admissionKey)).Nodup := by
  rw [updateRows_column h.runIds hrun hadvances.runId
    (by rw [hadvances.jobId, hadvances.admissionKey])]
  exact h.admissions

theorem Fenced.replaced_generations (h : Fenced store) (hrun : run ∈ store.runs)
    (hadvances : Advances run run') :
    (store.replaceRun run').runs.Pairwise fun earlier later =>
      earlier.jobId = later.jobId →
        earlier.executionGeneration < later.executionGeneration := by
  have hcolumn : (store.replaceRun run').runs.map
        (fun run => (run.jobId, run.executionGeneration)) =
      store.runs.map fun run => (run.jobId, run.executionGeneration) :=
    updateRows_column h.runIds hrun hadvances.runId
      (by rw [hadvances.jobId, hadvances.executionGeneration])
  have hpairs : (store.runs.map fun run => (run.jobId, run.executionGeneration)).Pairwise
      fun earlier later => earlier.1 = later.1 → earlier.2 < later.2 := by
    rw [List.pairwise_map]
    exact h.generations
  rw [← hcolumn, List.pairwise_map] at hpairs
  exact hpairs

/-- An active run stays active, and its job goes on naming it. -/
theorem Fenced.advance (h : Fenced store) (hrun : run ∈ store.runs) (hlive : run.unsettled = true)
    (hadvances : Advances run run') (hstored : run'.linkage.Stored)
    (hunsettled : run'.unsettled = true) : Fenced (store.replaceRun run') := by
  have hrows := mem_replaceRun h.runIds hrun hadvances.runId
  exact {
    toRowsSound := h.toRowsSound.replaceRun hrun hadvances hstored
    admissions := h.replaced_admissions hrun hadvances
    generations := h.replaced_generations hrun hadvances
    live := by
      intro other hother hotherLive
      obtain rfl | ⟨hmem, -⟩ := (hrows other).mp hother
      · rw [hadvances.jobId, hadvances.runId, hadvances.executionGeneration]
        exact h.live run hrun hlive
      · exact h.live other hmem hotherLive
    named := by
      intro jobId job runId hjob hactive
      obtain ⟨other, hmem, hid, hjobId, hotherLive⟩ := h.named jobId job runId hjob hactive
      by_cases hsame : other = run
      · subst hsame
        exact ⟨run', (hrows _).mpr (.inl rfl), hadvances.runId.trans hid,
          hadvances.jobId.trans hjobId, hunsettled⟩
      · exact ⟨other, (hrows _).mpr (.inr ⟨hmem, hsame⟩), hid, hjobId, hotherLive⟩ }

/-- A run is settled, and its job names no run any more. -/
theorem Fenced.settle (h : Fenced store) {token : CronRunToken} {now : String}
    (hrun : run ∈ store.runs) (hmatches : tokenMatches run token = true)
    (hlive : run.unsettled = true) (hadvances : Advances run run') (hstored : run'.linkage.Stored)
    (hsettled : run'.unsettled = false) :
    Fenced ((store.replaceRun run').clearActiveJob token now) := by
  have hrows := mem_replaceRun h.runIds hrun hadvances.runId
  obtain ⟨hrunId, hjobId, hgeneration⟩ := tokenMatches_iff.mp hmatches
  obtain ⟨job, hjob, hactive, hjobGeneration⟩ := h.live run hrun hlive
  rw [hjobId] at hjob
  rw [hrunId] at hactive
  rw [hgeneration] at hjobGeneration
  have hcleared : ((store.replaceRun run').clearActiveJob token now).jobs token.jobId =
      some { job with activeRunId := none, updatedAt := now } := by
    refine setJob_self.trans ?_
    rw [show (store.replaceRun run').jobs token.jobId = some job from hjob, Option.map_some,
      if_pos ⟨hactive, hjobGeneration⟩]
  have hothers : ∀ jobId, jobId ≠ token.jobId →
      ((store.replaceRun run').clearActiveJob token now).jobs jobId = store.jobs jobId :=
    fun jobId hne => setJob_of_ne hne
  have hsound := h.toRowsSound.replaceRun hrun hadvances hstored
  exact {
    toRowsSound := ⟨hsound.runIds, hsound.stored⟩
    admissions := h.replaced_admissions hrun hadvances
    generations := h.replaced_generations hrun hadvances
    live := by
      intro other hother hotherLive
      obtain rfl | ⟨hmem, hne⟩ := (hrows other).mp hother
      · rw [hsettled] at hotherLive
        cases hotherLive
      · obtain ⟨found, hfound, hnames, hfoundGeneration⟩ := h.live other hmem hotherLive
        have hdiff : other.jobId ≠ token.jobId := by
          intro hsame
          rw [hsame, hjob] at hfound
          obtain rfl := Option.some.inj hfound
          rw [hactive] at hnames
          exact hne (eq_of_key_eq h.runIds hmem hrun
            ((Option.some.inj hnames).symm.trans hrunId.symm))
        exact ⟨found, (hothers _ hdiff).trans hfound, hnames, hfoundGeneration⟩
    named := by
      intro jobId found runId hfound hnames
      by_cases hsame : jobId = token.jobId
      · subst hsame
        rw [hcleared] at hfound
        obtain rfl := Option.some.inj hfound
        cases hnames
      · rw [hothers jobId hsame] at hfound
        obtain ⟨other, hmem, hid, hotherJob, hotherLive⟩ :=
          h.named jobId found runId hfound hnames
        have hne : other ≠ run := by
          rintro rfl
          exact hsame (hotherJob.symm.trans hjobId)
        exact ⟨other, (hrows _).mpr (.inr ⟨hmem, hne⟩), hid, hotherJob, hotherLive⟩ }

theorem Fenced.redefine (h : Fenced store) (jobId : String) (definition : CronJobDefinition) :
    Fenced (store.setJob jobId fun job => { job with definition }) := by
  have hjob : ∀ id job, store.jobs id = some job → ∃ job',
      (store.setJob jobId fun job => { job with definition }).jobs id = some job' ∧
        job'.activeRunId = job.activeRunId ∧
        job'.executionGeneration = job.executionGeneration := by
    intro id job hfound
    by_cases hsame : id = jobId
    · subst hsame
      exact ⟨_, setJob_self.trans (congrArg (Option.map _) hfound), rfl, rfl⟩
    · exact ⟨job, (setJob_of_ne hsame).trans hfound, rfl, rfl⟩
  exact {
    toRowsSound := ⟨h.runIds, h.stored⟩
    admissions := h.admissions
    generations := h.generations
    live := by
      intro run hrun hlive
      obtain ⟨job, hfound, hnames, hgeneration⟩ := h.live run hrun hlive
      obtain ⟨job', hfound', hactive, hsame⟩ := hjob _ job hfound
      exact ⟨job', hfound', hactive.trans hnames, hsame.trans hgeneration⟩
    named := by
      intro id job' runId hfound' hnames
      cases hfound : store.jobs id with
      | none =>
          by_cases hsame : id = jobId
          · subst hsame
            rw [setJob_self, hfound] at hfound'
            cases hfound'
          · rw [setJob_of_ne hsame, hfound] at hfound'
            cases hfound'
      | some job =>
          obtain ⟨other, hother, hactive, -⟩ := hjob id job hfound
          rw [hfound'] at hother
          obtain rfl := Option.some.inj hother
          exact h.named id job runId hfound (hactive.symm.trans hnames) }

end Invariant

/-! ## Runs -/

/-- The runs of a store are there afterwards, as what may have become of them. -/
def RunsKept (store later : CronStore) : Prop :=
  ∀ run ∈ store.runs, ∃ run' ∈ later.runs, Advances run run'

section Runs

variable {dates : DateText} {store store' later : CronStore} {call : Call}

theorem runsKept_replaceRun (h : Fenced store) {run run' : CronRun} (hrun : run ∈ store.runs)
    (hadvances : Advances run run') : RunsKept store (store.replaceRun run') := by
  intro other hother
  have hrows := mem_replaceRun h.runIds hrun hadvances.runId
  by_cases hsame : other = run
  · subst hsame
    exact ⟨run', (hrows run').mpr (.inl rfl), hadvances⟩
  · exact ⟨other, (hrows other).mpr (.inr ⟨hother, hsame⟩), .refl other⟩

theorem RunsKept.refl (store : CronStore) : RunsKept store store :=
  fun run hrun => ⟨run, hrun, .refl run⟩

theorem Admits.spec {run : CronRun} {now : String} (h : Admits store run now store')
    (hfenced : Fenced store) : Fenced store' ∧ RunsKept store store' := by
  refine ⟨hfenced.addRun h, ?_⟩
  obtain rfl := h.written
  exact fun run hrun => ⟨run, List.mem_append_left _ hrun, .refl run⟩

theorem TokenMove.spec {token : CronRunToken} (h : TokenMove store token store')
    (hfenced : Fenced store) : Fenced store' ∧ RunsKept store store' := by
  cases h with
  | advance hrun hmatches howns hactive hadvances hstored hlive =>
      have hbefore := unsettled_of_active hactive
      exact ⟨hfenced.advance hrun hbefore hadvances hstored hlive,
        runsKept_replaceRun hfenced hrun hadvances⟩
  | settle now hrun hmatches howns hactive hadvances hstored hsettled =>
      have hbefore := unsettled_of_active hactive
      exact ⟨hfenced.settle hrun hmatches hbefore hadvances hstored hsettled,
        runsKept_replaceRun hfenced hrun hadvances⟩
  | reconcile now hrun hmatches hmanual hadvances hstored hsettled =>
      have hbefore := unsettled_of_manual hmanual
      exact ⟨hfenced.settle hrun hmatches hbefore hadvances hstored hsettled,
        runsKept_replaceRun hfenced hrun hadvances⟩

/-- What one transaction does, it does within the invariant. -/
theorem Change.spec (h : Change store call store') (hfenced : Fenced store) :
    Fenced store' ∧ RunsKept store store' := by
  cases h with
  | nothing => exact ⟨hfenced, .refl store⟩
  | admission _ hadmits => exact hadmits.spec hfenced
  | move _ _ hmove => exact hmove.spec hfenced
  | redefine jobId definition _ => exact ⟨hfenced.redefine jobId definition, .refl store⟩

theorem run_spec {calls : List Call} (h : Run (CronStore.Step dates) store calls later)
    (hfenced : Fenced store) : Fenced later ∧ RunsKept store later := by
  induction h with
  | nil => exact ⟨hfenced, fun run hrun => ⟨run, hrun, .refl run⟩⟩
  | cons hstep _ ih =>
      obtain ⟨hmiddle, hkept⟩ := (step_change hfenced.toRowsSound hstep).spec hfenced
      obtain ⟨hlater, hkept'⟩ := ih hmiddle
      refine ⟨hlater, ?_⟩
      intro run hrun
      obtain ⟨run', hrun', hadvances⟩ := hkept run hrun
      obtain ⟨run'', hrun'', hadvances'⟩ := hkept' run' hrun'
      exact ⟨run'', hrun'', hadvances.trans hadvances'⟩

/-- At most one run of a job is unsettled, and the job names it, or no run. -/
def OneLiveRun (store : CronStore) (jobId : String) : Prop :=
  (∀ run ∈ store.runs, ∀ run' ∈ store.runs, run.jobId = jobId → run'.jobId = jobId →
      run.unsettled = true → run'.unsettled = true → run = run') ∧
    ∀ job, store.jobs jobId = some job →
      (job.activeRunId = none ∧ ∀ run ∈ store.runs, run.jobId = jobId → run.unsettled = false) ∨
        ∃ run ∈ store.runs, run.jobId = jobId ∧ run.unsettled = true ∧
          job.activeRunId = some run.runId

theorem Fenced.oneLiveRun (h : Fenced store) (jobId : String) : OneLiveRun store jobId := by
  refine ⟨?_, ?_⟩
  · intro run hrun run' hrun' hjob hjob' hlive hlive'
    obtain ⟨found, hfound, hnames, -⟩ := h.live run hrun hlive
    obtain ⟨found', hfound', hnames', -⟩ := h.live run' hrun' hlive'
    rw [hjob] at hfound
    rw [hjob', hfound] at hfound'
    obtain rfl := Option.some.inj hfound'
    rw [hnames] at hnames'
    exact eq_of_key_eq h.runIds hrun hrun' (Option.some.inj hnames')
  · intro job hjob
    cases hactive : job.activeRunId with
    | none =>
        refine .inl ⟨rfl, ?_⟩
        intro run hrun hrunJob
        rw [Bool.eq_false_iff]
        intro hlive
        obtain ⟨found, hfound, hnames, -⟩ := h.live run hrun hlive
        rw [hrunJob, hjob] at hfound
        obtain rfl := Option.some.inj hfound
        rw [hactive] at hnames
        cases hnames
    | some runId =>
        obtain ⟨run, hrun, rfl, hrunJob, hlive⟩ := h.named jobId job runId hjob hactive
        exact .inr ⟨run, hrun, hrunJob, hlive, rfl⟩

/-- A call whose token is not that of the active run of its job changes nothing,
unless it reconciles the run of its token. -/
def StaleTokensFenced (dates : DateText) (store : CronStore) : Prop :=
  ∀ call store' input token, CronStore.Step dates store call store' →
    call.token = some input → normalizeToken input = .ok token → ¬store.Owns token →
      store' = store ∨ ∃ run ∈ store.runs, ∃ run' ∈ store'.runs,
        tokenMatches run token = true ∧ run.status = .manualReconciliationRequired ∧
          run'.runId = run.runId ∧ run'.unsettled = false

theorem Fenced.staleTokensFenced (h : Fenced store) : StaleTokensFenced dates store := by
  intro call store' input token hstep htoken hnormalized hstale
  cases step_change h.toRowsSound hstep with
  | nothing => exact .inl rfl
  | redefine jobId definition hnone =>
      rw [htoken] at hnone
      cases hnone
  | admission hnone hadmits =>
      rw [htoken] at hnone
      cases hnone
  | move hinput hnormalized' hmove =>
      rw [htoken] at hinput
      obtain rfl := Option.some.inj hinput
      rw [hnormalized] at hnormalized'
      obtain rfl := Except.ok.inj hnormalized'
      cases hmove with
      | advance _ _ howns => exact absurd howns hstale
      | settle _ _ _ howns => exact absurd howns hstale
      | reconcile now hrun hmatches hmanual hadvances hstored hsettled =>
          refine .inr ⟨_, hrun, _, ?_, hmatches, hmanual, hadvances.runId, hsettled⟩
          exact (mem_replaceRun h.runIds hrun hadvances.runId _).mpr (.inl rfl)

/-- What holds of a store whose jobs are fenced. -/
structure JobsFenced (dates : DateText) (store : CronStore) : Prop where
  admissions : (store.runs.map fun run => (run.jobId, run.admissionKey)).Nodup
  generations : store.runs.Pairwise fun earlier later =>
    earlier.jobId = later.jobId → earlier.executionGeneration < later.executionGeneration
  oneLiveRun : ∀ jobId, OneLiveRun store jobId
  staleTokens : StaleTokensFenced dates store

/-- From jobs without runs, in whatever order calls are made, the jobs stay
fenced and the runs only advance. -/
theorem cron_runs_fenced {store₀ : CronStore} {calls : List Call}
    (hruns : store₀.runs = [])
    (hjobs : ∀ jobId job, store₀.jobs jobId = some job → job.activeRunId = none)
    (hrun : Run (CronStore.Step dates) store₀ calls store) :
    JobsFenced dates store ∧
      ∀ more later, Run (CronStore.Step dates) store more later → RunsKept store later := by
  obtain ⟨hfenced, -⟩ := run_spec hrun (fenced_of_fresh hruns hjobs)
  refine ⟨?_, fun more later hmore => (run_spec hmore hfenced).2⟩
  exact {
    admissions := hfenced.admissions
    generations := hfenced.generations
    oneLiveRun := hfenced.oneLiveRun
    staleTokens := hfenced.staleTokensFenced }

end Runs

/-- A job that was never run. -/
def sampleJob : CronJobRow where
  definition := ⟨1, .agentTurn, none, none⟩
  executionGeneration := 0
  activeRunId := none
  updatedAt := "1970-01-01T00:00:00.000Z"

def sampleStore : CronStore where
  jobs := fun jobId => if jobId = "job" then some sampleJob else none
  runs := []

theorem sampleStore_idle : ∀ jobId job, sampleStore.jobs jobId = some job →
    job.activeRunId = none := by
  intro jobId job hjob
  by_cases hsame : jobId = "job"
  · rw [show sampleStore.jobs jobId = some sampleJob from if_pos hsame] at hjob
    obtain rfl := Option.some.inj hjob
    rfl
  · rw [show sampleStore.jobs jobId = none from if_neg hsame] at hjob
    exact absurd hjob.symm (Option.some_ne_none job)

/-- An admission of an occurrence at the epoch. -/
def sampleBegin (runId admissionKey : String) : Call :=
  .beginAdmission
    { runId := some runId
      jobId := "job"
      admissionKey
      scheduledFor := "1970-01-01T00:00:00.000Z"
      trigger := none }
    none "uuid" "1970-01-01T00:00:00.000Z"

/-- Two occurrences that are admitted one after the other. -/
def sampleCalls : List Call :=
  [sampleBegin "run-1" "occurrence-1", sampleBegin "run-2" "occurrence-2"]

def sampleRuns : CronStore :=
  sampleCalls.foldl (fun store call => call.after epochDates store) sampleStore

/-- The second occurrence finds the job with a live run and is not admitted. -/
theorem sampleRuns_fenced :
    sampleRuns.runs.map (fun run => (run.runId, run.executionGeneration)) = [("run-1", 1)] ∧
      OneLiveRun sampleRuns "job" := by
  have hrun : Run (CronStore.Step epochDates) sampleStore sampleCalls sampleRuns :=
    .cons rfl (.cons rfl (.nil _))
  exact ⟨by decide +kernel, (cron_runs_fenced rfl sampleStore_idle hrun).1.oneLiveRun "job"⟩

end GoatCitadel.Cron
