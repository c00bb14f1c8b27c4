import GoatCitadel.Cron.Automation

/-!
# A due occurrence is admitted once

The admission key of an occurrence is the start of its due window, so that a
window admits one scheduled run.  Whether an occurrence was run already is told
from the end of the last run, whose window is compared by a key that does not
name the window: for a fixed hour it names the day, and for a fixed minute the
hour.  A run that finished elsewhere in that day or hour hides the occurrence.
Where the last run did finish in the window that its key stands for, every sweep
in a due window admits the occurrence, or finds that the job was run in it.
-/

namespace GoatCitadel.Cron

open GoatCitadel.Support
open GoatCitadel.Storage.WorktreeLeaseRepository (DateText)

/-! ## Identifiers and keys -/

section Keys

variable {dates : CronDates}

theorem isTrimmed_of_idCharacter {c : Char}
    (h : (c.isLower || c.isDigit || c = '_' || c = '-') = true) : isTrimmed c = false := by
  have hrange : (97 ≤ c.toNat ∧ c.toNat ≤ 122) ∨ (48 ≤ c.toNat ∧ c.toNat ≤ 57) ∨
      c.toNat = 95 ∨ c.toNat = 45 := by
    simp only [Bool.or_eq_true, decide_eq_true_eq] at h
    obtain ((hlower | hdigit) | rfl) | rfl := h
    · left
      have hbounds : (decide (97 ≤ c.val) && decide (c.val ≤ 122)) = true := hlower
      simpa [UInt32.le_iff_toNat_le, ← Char.toNat_val] using hbounds
    · right; left
      have hbounds : (decide (48 ≤ c.val) && decide (c.val ≤ 57)) = true := hdigit
      simpa [UInt32.le_iff_toNat_le, ← Char.toNat_val] using hbounds
    · exact .inr (.inr (.inl rfl))
    · exact .inr (.inr (.inr rfl))
  rw [Bool.eq_false_iff]
  intro htrimmed
  simp only [isTrimmed, Bool.or_eq_true, Bool.and_eq_true, decide_eq_true_eq,
    beq_iff_eq] at htrimmed
  omega

/-- An identifier that the service accepts as it is has no white space around it. -/
theorem trim_of_cronJobId {jobId : String} (h : normalizeCronJobId jobId = .ok jobId) :
    trim jobId = jobId ∧ jobId ≠ "" := by
  unfold normalizeCronJobId at h
  simp only at h
  split at h
  · rename_i hid
    have htext := Except.ok.inj h
    have hchars : (trim jobId).toList.map lowerIdCharacter = jobId.toList := by
      rw [← htext, String.toList_ofList, htext]
    rw [hchars] at hid
    cases hlist : jobId.toList with
    | nil =>
        rw [hlist] at hid
        cases hid
    | cons first rest =>
        rw [hlist] at hid
        simp only [isCronJobId, Bool.and_eq_true, List.all_eq_true] at hid
        obtain ⟨⟨⟨hfirst, hrest⟩, -⟩, -⟩ := hid
        have hall : ∀ c ∈ jobId.toList, isTrimmed c = false := by
          intro c hc
          rw [hlist] at hc
          obtain rfl | hmem := List.mem_cons.mp hc
          · apply isTrimmed_of_idCharacter
            simp [hfirst]
          · exact isTrimmed_of_idCharacter (hrest c hmem)
        obtain ⟨last, hlast⟩ : ∃ last, jobId.toList.getLast? = some last := by
          rw [hlist]
          exact ⟨_, List.getLast?_cons⟩
        have happend := @trim_append jobId "" first last (by rw [hlist]; rfl)
          (hall first (by rw [hlist]; exact List.mem_cons_self)) hlast
          (hall last (List.mem_of_getLast? hlast)) rfl
        rw [String.append_empty] at happend
        refine ⟨happend, ?_⟩
        rintro rfl
        cases hlist
  · cases h

theorem trim_scheduled {ms : Int} {text : String} (h : dates.toISOString ms = some text) :
    trim ("scheduled:" ++ text) = "scheduled:" ++ text :=
  @trim_append "scheduled:" text 's' ':' rfl rfl rfl rfl (dates.trim_toISOString h)

theorem toISOString_injective {ms ms' : Int} {text : String}
    (h : dates.toISOString ms = some text) (h' : dates.toISOString ms' = some text) :
    ms = ms' := by
  have hparse := dates.parse_toISOString h
  rw [dates.parse_toISOString h'] at hparse
  exact (Option.some.inj hparse).symm

/-- A time that was printed is normalized to what it was printed as. -/
theorem normalizeCronOccurrenceTimestamp_printed {ms : Int} {text : String}
    (h : dates.toISOString ms = some text) :
    normalizeCronOccurrenceTimestamp dates text = .ok text := by
  simp only [normalizeCronOccurrenceTimestamp, dates.parse_toISOString h, printTime, h]
  rfl

theorem admissionKeyFor_due {ms : Int} {scheduledFor : String}
    (h : dates.toISOString ms = some scheduledFor) (given requestedRunId : String) :
    (dueOptions scheduledFor).admissionKeyFor given requestedRunId =
      "scheduled:" ++ scheduledFor := by
  have hset : "scheduled:" ++ scheduledFor ≠ "" := by
    intro hempty
    have hlength := congrArg String.length hempty
    simp at hlength
  have hpresent : present ((dueOptions scheduledFor).admissionKey.map trim) =
      some ("scheduled:" ++ scheduledFor) := by
    simp [dueOptions, trim_scheduled h, present, Option.filter, hset]
  simp only [CronRunOptions.admissionKeyFor, hpresent]

/-- A run that is started by hand has a key of the time of the call, or one that is
not the key of an occurrence. -/
theorem admissionKeyFor_manual {force : Bool} {reason : Option String} {now : Int}
    {scheduledFor requestedRunId key : String} (h : dates.toISOString now = some scheduledFor)
    (hkey : key =
      trim ((manualOptions force reason).admissionKeyFor scheduledFor requestedRunId)) :
    key = "scheduled:" ++ scheduledFor ∨ key.toList.head? ≠ some 's' := by
  have hother : ∀ (front : String) (first : Char), front.toList.head? = some first →
      isTrimmed first = false → first ≠ 's' →
      (trim (front ++ requestedRunId)).toList.head? ≠ some 's' := by
    intro front first hfirst hset hne hhead
    have hfront : (front ++ requestedRunId).toList.head? = some first := by
      rw [String.toList_append, List.head?_append, hfirst]
      rfl
    exact hne (head?_trim hfront hset hhead).symm
  rw [hkey]
  cases htrigger : (manualOptions force reason).trigger with
  | scheduledDue =>
      left
      simp only [CronRunOptions.admissionKeyFor, htrigger]
      exact trim_scheduled h
  | manual =>
      right
      simp only [CronRunOptions.admissionKeyFor, htrigger]
      exact hother "manual:" 'm' rfl rfl (by decide)
  | forced =>
      right
      simp only [CronRunOptions.admissionKeyFor, htrigger]
      exact hother "forced:" 'f' rfl rfl (by decide)

end Keys

/-! ## What an event admits -/

section Admissions

variable {zones : TimeZones} {dates : CronDates} {state state' : CronAutomation} {jobId : String}
  {job : CronJobRecord} {event : CronEvent} {set : CronJobColumns → CronJobColumns}

theorem printTime_eq_ok {ms : Int} {text : String} (h : printTime dates ms = .ok text) :
    dates.toISOString ms = some text := by
  unfold printTime at h
  split at h
  · rename_i printed hprinted
    rw [hprinted, Except.ok.inj h]
  · cases h

/-- A run that is asked for is an admission for a job under its normalized
identifier, and changes no column. -/
theorem runCronJobNow_begins {options : CronRunOptions} {now : Int} {host : CronHost}
    {result : CronRunBeginResult}
    (h : runCronJobNow dates jobId options now host state = .ok (result, state')) :
    ∃ id job given scheduledFor, normalizeCronJobId jobId = .ok id ∧
      getCronJob state id = .ok job ∧ givenOccurrence dates options now = .ok given ∧
      normalizeCronOccurrenceTimestamp dates given = .ok scheduledFor ∧
      Begins dates.toDateText (admissionInput job options scheduledFor host) state.store
        result state'.store ∧
      state'.columns = state.columns := by
  unfold runCronJobNow at h
  obtain ⟨id, hid, h⟩ := bind_eq_ok.mp h
  obtain ⟨job, hjob, h⟩ := bind_eq_ok.mp h
  split at h
  · cases h
  · split at h
    · cases h
    · split at h
      · cases h
      · split at h
        · cases h
        · cases h
        · obtain ⟨⟨answer, store⟩, hbegin, h⟩ := bind_eq_ok.mp h
          obtain ⟨rfl, rfl⟩ := ok_pair_inj h
          unfold beginCanonicalCronRun at hbegin
          obtain ⟨given, hgiven, hbegin⟩ := bind_eq_ok.mp hbegin
          obtain ⟨scheduledFor, hscheduledFor, hbegin⟩ := bind_eq_ok.mp hbegin
          split at hbegin
          · rename_i admitted hadmitted
            obtain rfl := Except.ok.inj hbegin
            exact ⟨id, job, given, scheduledFor, hid, hjob, hgiven, hscheduledFor,
              beginAdmission_begins hadmitted, rfl⟩
          · cases hbegin

/-- The occurrence of a visit, when the job is due at it. -/
def IsOccurrence (zones : TimeZones) (dates : CronDates) (schedule : String) (now : Int)
    (scheduledFor : String) : Prop :=
  SameDueWindow zones schedule now now ∧
    dates.toISOString (occurrenceStart zones schedule now) = some scheduledFor

theorem sameDueWindow_self_of_due {now : Int} (h : isExplicitCronJobDueNow zones job now = true) :
    SameDueWindow zones job.schedule now now := by
  unfold isExplicitCronJobDueNow at h
  split at h
  · rename_i parsed hparsed
    exact ⟨parsed, hparsed, h, h, rfl, fun _ => rfl⟩
  · cases h

/-- A visit that admits a run admits it for the occurrence, and one that does not
changes nothing. -/
theorem visitJob_cases {now : Int} {host : CronHost} {answer : CronSweepAnswer}
    (h : visitJob zones dates job now host state = (answer, state')) :
    (state' = state ∧ ∀ run, answer ≠ .admitted run) ∨
      ∃ scheduledFor result, IsOccurrence zones dates job.schedule now scheduledFor ∧
        runCronJobNow dates job.jobId (dueOptions scheduledFor) now host state =
          .ok (result, state') ∧
        answer = .ofResult result := by
  have hnone : ∀ {other : CronSweepAnswer}, (∀ run, other ≠ .admitted run) →
      (other, state) = (answer, state') → state' = state ∧ ∀ run, answer ≠ .admitted run := by
    intro other hother heq
    obtain ⟨rfl, rfl⟩ := Prod.mk.inj heq
    exact ⟨rfl, hother⟩
  unfold visitJob at h
  split at h
  · exact .inl (hnone (fun _ hrun => by cases hrun) h)
  · split at h
    · exact .inl (hnone (fun _ hrun => by cases hrun) h)
    · split at h
      · exact .inl (hnone (fun _ hrun => by cases hrun) h)
      · split at h
        · exact .inl (hnone (fun _ hrun => by cases hrun) h)
        · rename_i hdue
          split at h
          · exact .inl (hnone (fun _ hrun => by cases hrun) h)
          · split at h
            · exact .inl (hnone (fun _ hrun => by cases hrun) h)
            · unfold runDueJob at h
              split at h
              · exact .inl (hnone (fun _ hrun => by cases hrun) h)
              · rename_i scheduledFor hscheduledFor
                split at h
                · rename_i result written hrun
                  obtain ⟨rfl, rfl⟩ := Prod.mk.inj h
                  have hwindow := sameDueWindow_self_of_due (Bool.eq_true_of_not_eq_false hdue)
                  exact .inr ⟨scheduledFor, result, ⟨hwindow, hscheduledFor⟩, hrun, rfl⟩
                · exact .inl (hnone (fun _ hrun => by cases hrun) h)

/-- The time at which an event admits or ends a run of a job. -/
def CronEvent.ranAt (jobId : String) : CronEvent → Option Int
  | .visit id now _ (.admitted _) => if id = jobId then some now else none
  | .runNow _ _ _ now _ (.ok (.begun run)) => if run.jobId = jobId then some now else none
  | .finish id _ _ finishedAt => if id = jobId then some finishedAt else none
  | _ => none

/-- Two rows of one run: its id, its job and its key are never written again. -/
structure SameRun (run row : CronRun) : Prop where
  runId : row.runId = run.runId
  jobId : row.jobId = run.jobId
  admissionKey : row.admissionKey = run.admissionKey

/-- The event admits the run, under the key that it gives. -/
def CronEvent.Admits (zones : TimeZones) (dates : CronDates)
    (schedules : String → Option String) (row : CronRun) : CronEvent → Prop
  | .visit id now _ (.admitted run) =>
      SameRun run row ∧ row.jobId = id ∧ ∃ schedule scheduledFor, schedules id = some schedule ∧
        IsOccurrence zones dates schedule now scheduledFor ∧
        row.admissionKey = "scheduled:" ++ scheduledFor
  | .runNow _ force reason now host (.ok (.begun run)) =>
      SameRun run row ∧ ∃ text, dates.toISOString now = some text ∧ row.admissionKey =
        trim ((manualOptions force reason).admissionKeyFor text host.requestedRunId)
  | _ => False

theorem SameRun.trans {run row row' : CronRun} (h : SameRun run row) (h' : SameRun row row') :
    SameRun run row' :=
  ⟨h'.runId.trans h.runId, h'.jobId.trans h.jobId, h'.admissionKey.trans h.admissionKey⟩

theorem Advances.sameRun {run row : CronRun} (h : Advances run row) : SameRun run row :=
  ⟨h.runId, h.jobId, h.admissionKey⟩

/-- An event that admits a run admits it under every later row of the run. -/
theorem CronEvent.Admits.of_sameRun {schedules : String → Option String} {row row' : CronRun}
    (hsame : SameRun row row') (h : event.Admits zones dates schedules row) :
    event.Admits zones dates schedules row' := by
  cases event with
  | visit id now host answer =>
      cases answer with
      | admitted run =>
          obtain ⟨hrun, hjobId, schedule, scheduledFor, hschedule, hoccurrence, hkey⟩ := h
          exact ⟨hrun.trans hsame, hsame.jobId.trans hjobId, schedule, scheduledFor, hschedule,
            hoccurrence, hsame.admissionKey.trans hkey⟩
      | _ => cases h
  | runNow _ _ _ now _ answer =>
      cases answer with
      | ok result =>
          cases result with
          | begun run =>
              obtain ⟨hrun, hkey⟩ := h
              refine ⟨hrun.trans hsame, ?_⟩
              rwa [hsame.admissionKey]
          | _ => cases h
      | error _ => cases h
  | _ => cases h

/-- The schedules of the jobs. -/
def CronAutomation.schedules (state : CronAutomation) (jobId : String) : Option String :=
  (state.columns jobId).map (·.schedule)

theorem getJob_eq_some (h : state.getJob jobId = some job) :
    ∃ row columns, state.store.jobs jobId = some row ∧ state.columns jobId = some columns ∧
      job.jobId = jobId ∧ job.schedule = columns.schedule ∧
      job.lastRunAt = columns.lastRunAt ∧ job.activeRunId = row.activeRunId := by
  unfold CronAutomation.getJob at h
  obtain ⟨row, hrow, h⟩ := Option.bind_eq_some_iff.mp h
  obtain ⟨columns, hcolumns, h⟩ := Option.bind_eq_some_iff.mp h
  obtain rfl := Option.some.inj h
  exact ⟨row, columns, hrow, hcolumns, rfl, rfl, rfl, rfl⟩

theorem getCronJob_of_id (hid : normalizeCronJobId jobId = .ok jobId) :
    getCronJob state jobId = .ok job ↔ state.getJob jobId = some job := by
  unfold getCronJob
  rw [hid]
  cases hjob : state.getJob jobId with
  | none =>
      constructor
      · intro h
        simp only [bind, Except.bind, hjob] at h
        cases h
      · intro h
        cases h
  | some found =>
      simp only [bind, Except.bind, hjob, pure, Except.pure, Except.ok.injEq, Option.some.injEq]

/-- What an event does to the runs. -/
inductive RunsAfter (zones : TimeZones) (dates : CronDates) (state : CronAutomation)
    (event : CronEvent) (store' : CronStore) : Prop
  | same : store' = state.store → RunsAfter zones dates state event store'
  | redefined (jobId : String) (definition : CronJobDefinition) :
      store' = state.store.setJob jobId (fun job => { job with definition }) →
      RunsAfter zones dates state event store'
  | moved {token : CronRunToken} : TokenMove state.store token store' →
      RunsAfter zones dates state event store'
  | admitted {run : CronRun} {now : String} : Cron.Admits state.store run now store' →
      event.Admits zones dates state.schedules run → RunsAfter zones dates state event store'

/-- The jobs are stored under identifiers that the service accepts as they are. -/
def CronAutomation.IdsNormalized (state : CronAutomation) : Prop :=
  ∀ jobId, state.columns jobId ≠ none → normalizeCronJobId jobId = .ok jobId

/-- What a visit does: it admits a run for the occurrence, or changes nothing. -/
theorem visit_spec {now : Int} {host : CronHost} {answer : CronSweepAnswer}
    (hids : state.IdsNormalized)
    (h : CronAutomation.Step zones dates state (.visit jobId now host answer) state') :
    state'.columns = state.columns ∧
      ((state'.store = state.store ∧ ∀ run, answer ≠ .admitted run) ∨
        ∃ run time schedule scheduledFor, answer = .admitted run ∧
          Cron.Admits state.store run time state'.store ∧ run.jobId = jobId ∧
          run.trigger = .scheduledDue ∧ state.schedules jobId = some schedule ∧
          IsOccurrence zones dates schedule now scheduledFor ∧
          run.admissionKey = "scheduled:" ++ scheduledFor) := by
  obtain ⟨job, hjob, hvisit⟩ := h
  obtain ⟨_, columns, -, hcolumns, hjobId, hschedule, -⟩ := getJob_eq_some hjob
  have hid : normalizeCronJobId jobId = .ok jobId := hids jobId (by rw [hcolumns]; simp)
  obtain ⟨rfl, hnot⟩ | ⟨scheduledFor, result, hoccurrence, hrun, rfl⟩ := visitJob_cases hvisit
  · exact ⟨rfl, .inl ⟨rfl, hnot⟩⟩
  · obtain ⟨id, found, given, text, hnormalized, hfound, -, -, hbegins, hsame⟩ :=
      runCronJobNow_begins hrun
    rw [hjobId, hid] at hnormalized
    obtain rfl := Except.ok.inj hnormalized
    have hfoundJob := (getCronJob_of_id hid).mp hfound
    rw [hjob] at hfoundJob
    obtain rfl := Option.some.inj hfoundJob
    refine ⟨hsame, ?_⟩
    generalize hstore : state'.store = store' at hbegins
    cases hbegins with
    | begun hrunJob hrunKey hrunTrigger hadmits =>
        refine .inr ⟨_, _, job.schedule, scheduledFor, rfl, hadmits, ?_, ?_, ?_, hoccurrence, ?_⟩
        · exact hrunJob.trans ((congrArg trim hjobId).trans (trim_of_cronJobId hid).1)
        · exact hrunTrigger
        · rw [CronAutomation.schedules, hcolumns, hschedule]
          rfl
        · refine hrunKey.trans ?_
          simp only [admissionInput]
          rw [admissionKeyFor_due hoccurrence.2, trim_scheduled hoccurrence.2]
    | duplicate => exact .inl ⟨rfl, fun run hrun => by cases hrun⟩
    | blocked => exact .inl ⟨rfl, fun run hrun => by cases hrun⟩

theorem step_runs (hids : state.IdsNormalized) (hsound : RowsSound state.store)
    (h : CronAutomation.Step zones dates state event state') :
    RunsAfter zones dates state event state'.store := by
  cases event with
  | visit jobId now host answer =>
      obtain ⟨-, ⟨hsame, -⟩ | ⟨run, time, schedule, scheduledFor, rfl, hadmits, hjobId, -,
        hschedule, hoccurrence, hkey⟩⟩ := visit_spec hids h
      · exact .same hsame
      · exact .admitted hadmits
          ⟨⟨rfl, rfl, rfl⟩, hjobId, schedule, scheduledFor, hschedule, hoccurrence, hkey⟩
  | runNow jobId force reason now host answer =>
      simp only [CronAutomation.Step, CronAutomation.afterRunNow] at h
      split at h
      · rename_i result written hrun
        obtain ⟨rfl, rfl⟩ := Prod.mk.inj h
        obtain ⟨id, job, given, scheduledFor, -, -, hgiven, hscheduledFor, hbegins, -⟩ :=
          runCronJobNow_begins hrun
        have hprinted : dates.toISOString now = some given := printTime_eq_ok hgiven
        rw [normalizeCronOccurrenceTimestamp_printed hprinted] at hscheduledFor
        obtain rfl := Except.ok.inj hscheduledFor
        generalize written.store = store' at hbegins
        cases hbegins with
        | begun _ hrunKey _ hadmits =>
            exact .admitted hadmits ⟨⟨rfl, rfl, rfl⟩, _, hprinted, hrunKey⟩
        | duplicate => exact .same rfl
        | blocked => exact .same rfl
      · obtain ⟨-, rfl⟩ := Prod.mk.inj h
        exact .same rfl
  | moveRun call =>
      obtain ⟨htoken, rfl⟩ := h
      have hchange : Change state.store call (call.after dates.toDateText state.store) :=
        step_change hsound rfl
      change RunsAfter zones dates state _ (call.after dates.toDateText state.store)
      generalize call.after dates.toDateText state.store = store' at hchange ⊢
      cases hchange with
      | nothing => exact .same rfl
      | admission hnone => exact absurd hnone htoken
      | move _ _ hmove => exact .moved hmove
      | redefine jobId definition hnone => exact absurd hnone htoken
  | finish jobId generation succeeded finishedAt =>
      obtain rfl := h
      refine .same ?_
      unfold recordFinished
      split
      · split <;> rfl
      · rfl
  | pending jobId generation =>
      obtain rfl := h
      refine .same ?_
      unfold recordPending
      split <;> rfl
  | configure jobId definition enabled endAt =>
      obtain rfl := h
      exact .redefined jobId definition rfl

theorem setColumns_columns {id : String} :
    (state.setColumns jobId set).columns id =
      if id = jobId then (state.columns id).map set else state.columns id := rfl

/-- A patch of the columns of a job that leaves its schedule keeps all schedules. -/
theorem schedules_setColumns (hset : ∀ columns, (set columns).schedule = columns.schedule) :
    (state.setColumns jobId set).schedules = state.schedules := by
  funext id
  unfold CronAutomation.schedules
  rw [setColumns_columns]
  split
  · cases state.columns id with
    | none => rfl
    | some columns => exact congrArg some (hset columns)
  · rfl

/-- What a job tells of its last run it told before, or the event ended it. -/
def LastRunTold (dates : CronDates) (state : CronAutomation) (event : CronEvent)
    (state' : CronAutomation) : Prop :=
  ∀ id columns text, state'.columns id = some columns → columns.lastRunAt = some text →
    (∃ before, state.columns id = some before ∧ before.lastRunAt = some text) ∨
      ∃ generation succeeded finishedAt, event = .finish id generation succeeded finishedAt ∧
        dates.toISOString finishedAt = some text

theorem lastRunTold_same (h : state'.columns = state.columns) :
    LastRunTold dates state event state' := by
  intro id columns text hcolumns htext
  rw [h] at hcolumns
  exact .inl ⟨columns, hcolumns, htext⟩

theorem lastRunTold_setColumns (hset : ∀ columns text, (set columns).lastRunAt = some text →
      columns.lastRunAt = some text ∨
        ∃ generation succeeded finishedAt,
          event = .finish jobId generation succeeded finishedAt ∧
            dates.toISOString finishedAt = some text) :
    LastRunTold dates state event (state.setColumns jobId set) := by
  intro id columns text hcolumns htext
  rw [setColumns_columns] at hcolumns
  split at hcolumns
  · rename_i hid
    obtain ⟨before, hbefore, rfl⟩ := Option.map_eq_some_iff.mp hcolumns
    obtain hsame | hfinish := hset before text htext
    · exact .inl ⟨before, hbefore, hsame⟩
    · rw [hid]
      exact .inr hfinish
  · exact .inl ⟨columns, hcolumns, htext⟩

theorem finishedColumns_spec {succeeded : Bool} {finishedAt : Int}
    (h : finishedColumns? dates job succeeded finishedAt = some set) :
    (∀ columns, (set columns).schedule = columns.schedule) ∧
      ∀ columns text, (set columns).lastRunAt = some text →
        dates.toISOString finishedAt = some text := by
  unfold finishedColumns? at h
  split at h
  · obtain ⟨printed, hprinted, rfl⟩ := Option.map_eq_some_iff.mp h
    refine ⟨fun _ => rfl, ?_⟩
    intro columns text htext
    rw [hprinted]
    exact htext
  · unfold failedColumns? at h
    obtain ⟨printed, hprinted, h⟩ := Option.bind_eq_some_iff.mp h
    obtain ⟨backoffUntil, -, h⟩ := Option.bind_eq_some_iff.mp h
    obtain rfl := Option.some.inj h
    refine ⟨fun _ => rfl, ?_⟩
    intro columns text htext
    rw [hprinted]
    exact htext

theorem step_columns (hids : state.IdsNormalized)
    (h : CronAutomation.Step zones dates state event state') :
    state'.schedules = state.schedules ∧ LastRunTold dates state event state' := by
  have hsame : state'.columns = state.columns →
      state'.schedules = state.schedules ∧ LastRunTold dates state event state' := by
    intro heq
    refine ⟨?_, lastRunTold_same heq⟩
    funext id
    rw [CronAutomation.schedules, heq]
    rfl
  cases event with
  | visit jobId now host answer => exact hsame (visit_spec hids h).1
  | runNow jobId force reason now host answer =>
      simp only [CronAutomation.Step, CronAutomation.afterRunNow] at h
      split at h
      · rename_i result written hrun
        obtain ⟨rfl, rfl⟩ := Prod.mk.inj h
        obtain ⟨_, _, _, _, -, -, -, -, -, heq⟩ := runCronJobNow_begins hrun
        exact hsame heq
      · obtain ⟨-, rfl⟩ := Prod.mk.inj h
        exact hsame rfl
  | moveRun call =>
      obtain ⟨-, rfl⟩ := h
      exact hsame rfl
  | finish jobId generation succeeded finishedAt =>
      obtain rfl := h
      unfold recordFinished at hsame ⊢
      split
      · rename_i set hset
        split
        · obtain ⟨job, -, hset⟩ := Option.bind_eq_some_iff.mp hset
          obtain ⟨hschedule, hlast⟩ := finishedColumns_spec hset
          refine ⟨schedules_setColumns hschedule, lastRunTold_setColumns ?_⟩
          intro columns text htext
          exact .inr ⟨generation, succeeded, finishedAt, rfl, hlast columns text htext⟩
        · exact ⟨rfl, lastRunTold_same rfl⟩
      · exact ⟨rfl, lastRunTold_same rfl⟩
  | pending jobId generation =>
      obtain rfl := h
      unfold recordPending at hsame ⊢
      split
      · refine ⟨schedules_setColumns fun _ => rfl, lastRunTold_setColumns ?_⟩
        intro columns text htext
        cases htext
      · exact ⟨rfl, lastRunTold_same rfl⟩
  | configure jobId definition enabled endAt =>
      obtain rfl := h
      refine ⟨schedules_setColumns fun _ => rfl, lastRunTold_setColumns ?_⟩
      intro columns text htext
      exact .inl htext

end Admissions

/-! ## Runs of the scheduler -/

/-- No two visits admit runs for one due window of a job. -/
def OncePerWindow (zones : TimeZones) (schedules : String → Option String) :
    List CronEvent → Prop :=
  List.Pairwise fun earlier later =>
    ∀ jobId schedule now now' host host' run run', schedules jobId = some schedule →
      earlier = .visit jobId now host (.admitted run) →
      later = .visit jobId now' host' (.admitted run') →
      ¬SameDueWindow zones schedule now now'

/-- Jobs that were never run, under identifiers that the service accepts. -/
structure CronAutomation.Fresh (state : CronAutomation) : Prop where
  runs : state.store.runs = []
  idle : ∀ jobId row, state.store.jobs jobId = some row → row.activeRunId = none
  lastRun : ∀ jobId columns, state.columns jobId = some columns → columns.lastRunAt = none
  ids : state.IdsNormalized

/-- What is kept in the runs of the scheduler, after the events so far. -/
structure Tracked (zones : TimeZones) (dates : CronDates) (schedules : String → Option String)
    (past : List CronEvent) (state : CronAutomation) : Prop where
  fenced : Fenced state.store
  ids : state.IdsNormalized
  schedulesKept : state.schedules = schedules
  lastRun : ∀ jobId columns text, state.columns jobId = some columns →
    columns.lastRunAt = some text → ∃ generation succeeded finishedAt,
      CronEvent.finish jobId generation succeeded finishedAt ∈ past ∧
        dates.toISOString finishedAt = some text
  origin : ∀ run ∈ state.store.runs, ∃ event ∈ past,
    event.Admits zones dates schedules run
  admitted : ∀ jobId now host run, CronEvent.visit jobId now host (.admitted run) ∈ past →
    ∃ schedule scheduledFor, schedules jobId = some schedule ∧
      IsOccurrence zones dates schedule now scheduledFor ∧
      ∃ row ∈ state.store.runs, SameRun run row ∧ row.jobId = jobId ∧
        row.admissionKey = "scheduled:" ++ scheduledFor
  once : OncePerWindow zones schedules past

section Tracking

variable {zones : TimeZones} {dates : CronDates} {state state' : CronAutomation}
  {schedules : String → Option String} {past : List CronEvent} {event : CronEvent}

/-- A run after an event was there before, or the event admitted it. -/
theorem RunsAfter.origin {store' : CronStore} (hfenced : Fenced state.store)
    (h : RunsAfter zones dates state event store') {run : CronRun} (hrun : run ∈ store'.runs) :
    (∃ before ∈ state.store.runs, SameRun before run) ∨
      event.Admits zones dates state.schedules run := by
  have hreplaced : ∀ {old new : CronRun}, old ∈ state.store.runs → Advances old new →
      run ∈ (state.store.replaceRun new).runs →
      ∃ before ∈ state.store.runs, SameRun before run := by
    intro old new hold hadvances hmem
    obtain rfl | ⟨hmem, -⟩ :=
      (mem_replaceRun hfenced.runIds hold hadvances.runId run).mp hmem
    · exact ⟨old, hold, hadvances.sameRun⟩
    · exact ⟨run, hmem, rfl, rfl, rfl⟩
  cases h with
  | same heq =>
      rw [heq] at hrun
      exact .inl ⟨run, hrun, rfl, rfl, rfl⟩
  | redefined jobId definition heq =>
      rw [heq] at hrun
      exact .inl ⟨run, hrun, rfl, rfl, rfl⟩
  | moved hmove =>
      cases hmove with
      | advance hold _ _ _ hadvances => exact .inl (hreplaced hold hadvances hrun)
      | settle _ hold _ _ _ hadvances => exact .inl (hreplaced hold hadvances hrun)
      | reconcile _ hold _ _ hadvances => exact .inl (hreplaced hold hadvances hrun)
  | admitted hadmits hevent =>
      rw [hadmits.written] at hrun
      obtain hmem | hlast := List.mem_append.mp hrun
      · exact .inl ⟨run, hmem, rfl, rfl, rfl⟩
      · obtain rfl := List.mem_singleton.mp hlast
        exact .inr hevent

/-- The runs stay fenced and are kept. -/
theorem RunsAfter.spec {store' : CronStore} (hfenced : Fenced state.store)
    (h : RunsAfter zones dates state event store') :
    Fenced store' ∧ RunsKept state.store store' := by
  cases h with
  | same heq =>
      rw [heq]
      exact ⟨hfenced, .refl _⟩
  | redefined jobId definition heq =>
      rw [heq]
      exact ⟨hfenced.redefine jobId definition, .refl _⟩
  | moved hmove => exact hmove.spec hfenced
  | admitted hadmits _ => exact hadmits.spec hfenced

theorem tracked_of_fresh (h : state.Fresh) :
    Tracked zones dates state.schedules [] state where
  fenced := fenced_of_fresh h.runs h.idle
  ids := h.ids
  schedulesKept := rfl
  lastRun := by
    intro jobId columns text hcolumns htext
    rw [h.lastRun jobId columns hcolumns] at htext
    cases htext
  origin := by simp [h.runs]
  admitted := by simp
  once := .nil

theorem columns_ne_none_iff {jobId : String} :
    state.columns jobId ≠ none ↔ state.schedules jobId ≠ none := by
  unfold CronAutomation.schedules
  cases state.columns jobId <;> simp

/-- An event is tracked. -/
theorem Tracked.step (h : Tracked zones dates schedules past state)
    (hstep : CronAutomation.Step zones dates state event state') :
    Tracked zones dates schedules (past ++ [event]) state' := by
  have hruns := step_runs h.ids h.fenced.toRowsSound hstep
  obtain ⟨hschedules, hlastRun⟩ := step_columns h.ids hstep
  obtain ⟨hfenced, hkept⟩ := hruns.spec h.fenced
  -- A visit that admits a run leaves a row under the key of its occurrence.
  have hadmits : ∀ jobId now host run, event = .visit jobId now host (.admitted run) →
      ∃ schedule scheduledFor, schedules jobId = some schedule ∧
        IsOccurrence zones dates schedule now scheduledFor ∧
        (∀ row ∈ state.store.runs, row.jobId = jobId →
          row.admissionKey ≠ "scheduled:" ++ scheduledFor) ∧
        ∃ row ∈ state'.store.runs, SameRun run row ∧ row.jobId = jobId ∧
          row.admissionKey = "scheduled:" ++ scheduledFor := by
    rintro jobId now host run rfl
    obtain ⟨-, ⟨-, hnot⟩ | ⟨run', time, schedule, scheduledFor, hrun, hadmits, hjobId, -,
      hschedule, hoccurrence, hkey⟩⟩ := visit_spec h.ids hstep
    · exact absurd rfl (hnot run)
    · rw [h.schedulesKept] at hschedule
      obtain rfl := CronSweepAnswer.admitted.inj hrun
      refine ⟨schedule, scheduledFor, hschedule, hoccurrence, ?_, run, ?_, ⟨rfl, rfl, rfl⟩, hjobId,
        hkey⟩
      · intro row hrow hrowJob hrowKey
        exact hadmits.freshAdmission row hrow
          (by rw [hrowJob, hrowKey, hjobId, hkey])
      · rw [hadmits.written]
        exact List.mem_append_right _ List.mem_cons_self
  exact {
    fenced := hfenced
    ids := by
      intro jobId hcolumns
      rw [columns_ne_none_iff, hschedules, ← columns_ne_none_iff] at hcolumns
      exact h.ids jobId hcolumns
    schedulesKept := hschedules.trans h.schedulesKept
    lastRun := by
      intro jobId columns text hcolumns htext
      obtain ⟨before, hbefore, hsame⟩ | ⟨generation, succeeded, finishedAt, rfl, hprinted⟩ :=
        hlastRun jobId columns text hcolumns htext
      · obtain ⟨generation, succeeded, finishedAt, hmem, hprinted⟩ :=
          h.lastRun jobId before text hbefore hsame
        exact ⟨generation, succeeded, finishedAt, List.mem_append_left _ hmem, hprinted⟩
      · exact ⟨generation, succeeded, finishedAt,
          List.mem_append_right _ List.mem_cons_self, hprinted⟩
    origin := by
      intro run hrun
      obtain ⟨before, hbefore, hsame⟩ | hevent := hruns.origin h.fenced hrun
      · obtain ⟨earlier, hmem, hearlier⟩ := h.origin before hbefore
        exact ⟨earlier, List.mem_append_left _ hmem, hearlier.of_sameRun hsame⟩
      · rw [h.schedulesKept] at hevent
        exact ⟨event, List.mem_append_right _ List.mem_cons_self, hevent⟩
    admitted := by
      intro jobId now host run hmem
      obtain hpast | hlast := List.mem_append.mp hmem
      · obtain ⟨schedule, scheduledFor, hschedule, hoccurrence, row, hrow, hsame, hjobId, hkey⟩ :=
          h.admitted jobId now host run hpast
        obtain ⟨row', hrow', hadvances⟩ := hkept row hrow
        exact ⟨schedule, scheduledFor, hschedule, hoccurrence, row', hrow',
          hsame.trans hadvances.sameRun, hadvances.jobId.trans hjobId,
          hadvances.admissionKey.trans hkey⟩
      · obtain ⟨schedule, scheduledFor, hschedule, hoccurrence, -, hrow⟩ :=
          hadmits jobId now host run (List.mem_singleton.mp hlast).symm
        exact ⟨schedule, scheduledFor, hschedule, hoccurrence, hrow⟩
    once := by
      refine List.pairwise_append.mpr ⟨h.once, List.pairwise_singleton _ _, ?_⟩
      intro earlier hearlier last hlast jobId schedule now now' host host' run run' hschedule
        hadmitted hadmitted' hwindow
      obtain rfl := List.mem_singleton.mp hlast
      rw [hadmitted] at hearlier
      obtain ⟨_, scheduledFor, hschedule₁, hoccurrence₁, row, hrow, -, hrowJob, hrowKey⟩ :=
        h.admitted jobId now host run hearlier
      obtain ⟨_, scheduledFor', hschedule₂, hoccurrence₂, hfresh, -⟩ :=
        hadmits jobId now' host' run' hadmitted'
      rw [hschedule] at hschedule₁ hschedule₂
      obtain rfl := Option.some.inj hschedule₁
      obtain rfl := Option.some.inj hschedule₂
      have hprinted := hoccurrence₁.2
      rw [hwindow.occurrenceStart_eq, hoccurrence₂.2] at hprinted
      obtain rfl := Option.some.inj hprinted
      exact hfresh row hrow hrowJob hrowKey }

theorem tracked_of_run {state₀ : CronAutomation} {events : List CronEvent}
    (hfresh : state₀.Fresh) (h : Run (CronAutomation.Step zones dates) state₀ events state) :
    Tracked zones dates state₀.schedules events state :=
  h.invariant_of_history (fun _ _ _ _ hstep htracked => htracked.step hstep)
    (tracked_of_fresh hfresh)

/-! ## Due visits -/

/-- A job that a visit finds due: nothing that the schedule or the failures of the
job say keeps it from running. -/
structure CronJobRecord.Due (zones : TimeZones) (dates : CronDates) (job : CronJobRecord)
    (now : Int) : Prop where
  action : isScheduledCronAction job.action = true
  enabled : job.enabled = true
  active : isCronJobActive dates.toDateText job now = true
  due : isExplicitCronJobDueNow zones job now = true
  notBackedOff : isCronJobBackedOff dates.toDateText job now = false
  idle : job.activeRunId = none

/-- The admission of a run is not refused for what it reads or writes. -/
structure Ready (dates : CronDates) (state : CronAutomation) (jobId : String)
    (occurrence : Int) (host : CronHost) : Prop where
  scope : host.scopeError = none
  lifecycle : host.closedReason = none
  occurrence : dates.toISOString occurrence ≠ none
  databaseNow : (dates.parse host.databaseNow).bind dates.toISOString ≠ none
  runId : trim host.requestedRunId ≠ "" ∧
    ∀ run ∈ state.store.runs, run.runId ≠ trim host.requestedRunId
  job : ∀ row, state.store.jobs jobId = some row → 1 ≤ row.definition.revision ∧
    (∃ json, normalizeBoundedJson "actionSnapshot" (actionSnapshot row.definition) = .ok json) ∧
    max row.executionGeneration (state.store.historicalMaxGeneration jobId) < maxSafeInteger

/-- When the key of the last run is that of the current window, it did finish in
the window. -/
def LastRunInWindow (zones : TimeZones) (dates : CronDates) (job : CronJobRecord) (now : Int) :
    Prop :=
  didCronJobRunInCurrentWindow zones dates.toDateText job now = true →
    ∀ lastRunAt lastRun, job.lastRunAt = some lastRunAt → dates.parse lastRunAt = some lastRun →
      SameDueWindow zones job.schedule now lastRun

/-- A visit that nothing outside of the claim keeps from admitting a run. -/
def Unobstructed (zones : TimeZones) (dates : CronDates) (state : CronAutomation) :
    CronEvent → Prop
  | .visit jobId now host _ => ∀ job, state.getJob jobId = some job →
      Ready dates state jobId (occurrenceStart zones job.schedule now) host ∧
        LastRunInWindow zones dates job now
  | _ => True

section Due

variable {job : CronJobRecord} {now : Int} {host : CronHost}

theorem visitJob_of_due (h : job.Due zones dates now)
    (hnew : didCronJobRunInCurrentWindow zones dates.toDateText job now = false) :
    visitJob zones dates job now host state = runDueJob zones dates job now host state := by
  have hpresent : present job.activeRunId = none := by rw [h.idle]; rfl
  simp [visitJob, hpresent, h.action, h.enabled, h.active, h.due, h.notBackedOff, hnew]

theorem lastRun_of_didRun
    (h : didCronJobRunInCurrentWindow zones dates.toDateText job now = true) :
    ∃ text lastRun, job.lastRunAt = some text ∧ dates.parse text = some lastRun := by
  unfold didCronJobRunInCurrentWindow at h
  split at h
  · cases h
  · rename_i text htext
    split at h
    · rename_i parsed lastRun hparsed hparse
      exact ⟨text, lastRun, (Option.filter_eq_some_iff.mp htext).1, hparse⟩
    · cases h

/-- A job that has not ended by its end date has not ended for a run either. -/
theorem not_ended_of_active (h : isCronJobActive dates.toDateText job now = true) :
    ((present job.endAt).bind dates.parse).any (fun endAt => decide (endAt < now)) = false := by
  unfold isCronJobActive at h
  cases hend : present job.endAt with
  | none => rfl
  | some endAt =>
      rw [hend] at h
      simp only at h
      cases hparse : dates.parse endAt with
      | none =>
          rw [hparse] at h
          cases h
      | some ms =>
          rw [hparse] at h
          simpa [hparse] using h

/-- A due run is admitted when nothing refuses it, unless its key was used. -/
theorem runCronJobNow_of_due {jobId scheduledFor : String} (hids : state.IdsNormalized)
    (hjob : state.getJob jobId = some job) (hdue : job.Due zones dates now)
    (hready : Ready dates state jobId (occurrenceStart zones job.schedule now) host)
    (hscheduledFor : dates.toISOString (occurrenceStart zones job.schedule now) =
      some scheduledFor) :
    (∃ run state', runCronJobNow dates job.jobId (dueOptions scheduledFor) now host state =
      .ok (.begun run, state')) ∨
    ∃ run ∈ state.store.runs, run.jobId = jobId ∧
      run.admissionKey = "scheduled:" ++ scheduledFor := by
  obtain ⟨row, columns, hrow, hcolumns, hjobId, -, -, hactive⟩ := getJob_eq_some hjob
  have hid : normalizeCronJobId jobId = .ok jobId := hids jobId (by rw [hcolumns]; simp)
  obtain ⟨htrimId, hidSet⟩ := trim_of_cronJobId hid
  obtain ⟨hrevision, ⟨json, hjson⟩, hgeneration⟩ := hready.job row hrow
  have hkey : trim (admissionInput job (dueOptions scheduledFor) scheduledFor
      host).admissionKey = "scheduled:" ++ scheduledFor := by
    simp only [admissionInput]
    rw [admissionKeyFor_due hscheduledFor, trim_scheduled hscheduledFor]
  have htrimJob : trim (admissionInput job (dueOptions scheduledFor) scheduledFor
      host).jobId = jobId := by
    simp only [admissionInput]
    rw [hjobId, htrimId]
  have hadmissible : Admissible dates.toDateText
      (admissionInput job (dueOptions scheduledFor) scheduledFor host) host.databaseNow
      state.store := {
    jobId := by rw [htrimJob]; exact hidSet
    admissionKey := by
      rw [hkey]
      intro hempty
      have hlength := congrArg String.length hempty
      simp at hlength
    scheduledFor := by
      simp only [admissionInput]
      rw [dates.parse_toISOString hscheduledFor, Option.bind_some, hscheduledFor]
      exact Option.some_ne_none _
    runId := ⟨host.requestedRunId, rfl, hready.runId⟩
    databaseNow := hready.databaseNow
    job := by
      rw [htrimJob]
      exact ⟨row, json, hrow, hactive.symm.trans hdue.idle, hrevision, hjson, hgeneration⟩ }
  obtain ⟨run, store', hbegun⟩ | ⟨run, hrun, hrunJob, hrunKey⟩ :=
    @beginAdmission_of_admissible dates.toDateText state.store _ host.requestedRunId
      host.databaseNow hadmissible
  · left
    refine ⟨run, { state with store := store' }, ?_⟩
    have hfound := (getCronJob_of_id hid).mpr hjob
    rw [hjobId]
    simp only [runCronJobNow, hid, bind, Except.bind, hfound, dueOptions, hdue.enabled,
      not_ended_of_active hdue.active, hdue.notBackedOff, hready.scope, hready.lifecycle]
    simp only [beginCanonicalCronRun, givenOccurrence, bind, Except.bind, pure, Except.pure,
      normalizeCronOccurrenceTimestamp_printed hscheduledFor]
    simp only [dueOptions] at hbegun
    rw [hbegun]
    rfl
  · exact .inr ⟨run, hrun, hrunJob.trans htrimJob, hrunKey.trans hkey⟩

/-- A run under the key of an occurrence was admitted in its window. -/
theorem Tracked.ranInWindow {jobId scheduledFor : String}
    (h : Tracked zones dates schedules past state) {schedule : String}
    (hschedule : schedules jobId = some schedule)
    (hoccurrence : IsOccurrence zones dates schedule now scheduledFor) {run : CronRun}
    (hrun : run ∈ state.store.runs) (hjobId : run.jobId = jobId)
    (hkey : run.admissionKey = "scheduled:" ++ scheduledFor) :
    ∃ event ∈ past, ∃ time, event.ranAt jobId = some time ∧
      SameDueWindow zones schedule now time := by
  have hcancel : ∀ {a b : String}, "scheduled:" ++ a = "scheduled:" ++ b → a = b := by
    intro a b heq
    have hlists := congrArg String.toList heq
    rw [String.toList_append, String.toList_append] at hlists
    exact String.toList_inj.mp (List.append_cancel_left hlists)
  obtain ⟨event, hmem, hevent⟩ := h.origin run hrun
  refine ⟨event, hmem, ?_⟩
  cases event with
  | visit id time _ answer =>
      cases answer with
      | admitted admittedRun =>
          obtain ⟨-, hid, schedule', scheduledFor', hschedule', hoccurrence', hkey'⟩ := hevent
          obtain rfl := hid.symm.trans hjobId
          rw [hkey] at hkey'
          rw [hschedule] at hschedule'
          obtain rfl := Option.some.inj hschedule'
          obtain rfl := hcancel hkey'
          obtain ⟨parsed, hparsed, hmatch, -⟩ := hoccurrence.1
          obtain ⟨parsed', hparsed', hmatch', -⟩ := hoccurrence'.1
          rw [hparsed] at hparsed'
          obtain rfl := Option.some.inj hparsed'
          refine ⟨time, by simp [CronEvent.ranAt], ?_⟩
          exact sameDueWindow_of_occurrenceStart hparsed hmatch hmatch'
            (toISOString_injective hoccurrence.2 hoccurrence'.2)
      | _ => cases hevent
  | runNow _ _ _ time _ answer =>
      cases answer with
      | ok result =>
          cases result with
          | begun begunRun =>
              obtain ⟨hbegun, text, hprinted, hcalled⟩ := hevent
              have hbegunJob := hbegun.jobId.symm.trans hjobId
              obtain hkey' | hother := admissionKeyFor_manual hprinted (hkey.symm.trans hcalled)
              · obtain rfl := hcancel hkey'
                obtain rfl := toISOString_injective hprinted hoccurrence.2
                obtain ⟨parsed, hparsed, hmatch, -⟩ := hoccurrence.1
                exact ⟨_, by simp [CronEvent.ranAt, hbegunJob],
                  sameDueWindow_occurrenceStart hparsed hmatch⟩
              · refine absurd ?_ hother
                rw [String.toList_append]
                rfl
          | _ => cases hevent
      | error _ => cases hevent
  | _ => cases hevent

end Due

/-- In runs whose visits are not obstructed, a due window admits one scheduled run,
and a visit that finds the job due admits it, or the job was run in the window. -/
theorem due_occurrences_admitted_once {state₀ : CronAutomation} {events : List CronEvent}
    (hfresh : state₀.Fresh)
    (hrun : Run (Restrict (CronAutomation.Step zones dates) (Unobstructed zones dates))
      state₀ events state) :
    OncePerWindow zones state₀.schedules events ∧
      ∀ jobId now host answer job,
        Restrict (CronAutomation.Step zones dates) (Unobstructed zones dates) state
          (.visit jobId now host answer) state' →
        state.getJob jobId = some job → job.Due zones dates now →
        (∃ run, answer = .admitted run ∧ run ∈ state'.store.runs ∧ run.jobId = jobId ∧
          run.trigger = .scheduledDue) ∨
        ∃ event ∈ events, ∃ time, event.ranAt jobId = some time ∧
          SameDueWindow zones job.schedule now time := by
  have htracked := tracked_of_run hfresh hrun.of_restrict
  refine ⟨htracked.once, ?_⟩
  intro jobId now host answer job ⟨hstep, hunobstructed⟩ hjob hdue
  obtain ⟨hready, hlastRun⟩ := hunobstructed job hjob
  obtain ⟨_, columns, -, hcolumns, -, hschedule, hlast, -⟩ := getJob_eq_some hjob
  have hscheduled : state₀.schedules jobId = some job.schedule := by
    rw [← htracked.schedulesKept, CronAutomation.schedules, hcolumns, hschedule]
    rfl
  have hself := sameDueWindow_self_of_due hdue.due
  cases hran : didCronJobRunInCurrentWindow zones dates.toDateText job now with
  | true =>
      right
      obtain ⟨text, lastRun, htext, hparse⟩ := lastRun_of_didRun hran
      obtain ⟨generation, succeeded, finishedAt, hmem, hprinted⟩ :=
        htracked.lastRun jobId columns text hcolumns (hlast.symm.trans htext)
      have hsame := dates.parse_toISOString hprinted
      rw [hparse] at hsame
      obtain rfl := Option.some.inj hsame
      exact ⟨_, hmem, lastRun, by simp [CronEvent.ranAt],
        hlastRun hran text lastRun htext hparse⟩
  | false =>
      obtain ⟨scheduledFor, hscheduledFor⟩ := Option.ne_none_iff_exists'.mp hready.occurrence
      obtain ⟨run, admittedState, hadmitted⟩ | ⟨run, hrow, hjobId, hkey⟩ :=
        runCronJobNow_of_due htracked.ids hjob hdue hready hscheduledFor
      · left
        have hanswer : answer = .admitted run := by
          obtain ⟨found, hfound, hvisit⟩ := hstep
          rw [hjob] at hfound
          obtain rfl := Option.some.inj hfound
          rw [visitJob_of_due hdue hran] at hvisit
          simp only [runDueJob, computeCronOccurrenceScheduledFor, hscheduledFor,
            hadmitted] at hvisit
          exact (Prod.mk.inj hvisit).1.symm
        obtain ⟨-, ⟨-, hnot⟩ | ⟨run', time, _, _, hrun', hadmits, hjobId, htrigger, -⟩⟩ :=
          visit_spec htracked.ids hstep
        · exact absurd hanswer (hnot run)
        · refine ⟨run', hrun', ?_, hjobId, htrigger⟩
          rw [hadmits.written]
          exact List.mem_append_right _ List.mem_cons_self
      · right
        exact htracked.ranInWindow hscheduled ⟨hself, hscheduledFor⟩ hrow hjobId hkey

end Tracking

/-! ## A hidden occurrence -/

/-- Dates as they are at the times of the examples. -/
def sampleDates : CronDates where
  parse text :=
    if text = "1970-01-01T01:00:00.000Z" then some 3600000
    else if text = "1970-01-01T09:30:00.000Z" then some 34200000
    else if text = "1970-01-02T09:30:00.000Z" then some 120600000
    else none
  toISOString ms :=
    if ms = 3600000 then some "1970-01-01T01:00:00.000Z"
    else if ms = 34200000 then some "1970-01-01T09:30:00.000Z"
    else if ms = 120600000 then some "1970-01-02T09:30:00.000Z"
    else none
  parse_toISOString := by
    intro ms text h
    split_ifs at h
    all_goals
      obtain rfl := Option.some.inj h
      simp_all
  trim_toISOString := by
    intro ms text h
    split_ifs at h
    all_goals
      obtain rfl := Option.some.inj h
      rfl

def sampleZones : TimeZones := fun timeZone => if timeZone = "UTC" then some 0 else none

/-- A job that is due at half past nine. -/
def dailyColumns : CronJobColumns where
  schedule := "30 9 * * *"
  enabled := true
  endAt := none
  lastRunAt := none
  failureCount := none
  backoffUntil := none

def dailyAutomation : CronAutomation where
  store := {
    jobs := fun jobId => if jobId = "daily" then some sampleJob else none
    runs := [] }
  columns := fun jobId => if jobId = "daily" then some dailyColumns else none

def sampleHost (requestedRunId databaseNow : String) : CronHost where
  requestedRunId := requestedRunId
  databaseNow := databaseNow
  scopeError := none
  closedReason := none

/-- A run that is started by hand at one o'clock. -/
def earlyRun : Except CronAutomationError CronRunBeginResult × CronAutomation :=
  dailyAutomation.afterRunNow
    (runCronJobNow sampleDates "daily" (manualOptions false none) 3600000
      (sampleHost "run-1" "1970-01-01T01:00:00.000Z") dailyAutomation)

/-- The settlement of a first run. -/
def sampleSettlement (runId databaseNow : String) : Call :=
  .terminalize { runId, jobId := "daily", executionGeneration := .finite 1 }
    .completed
    { outcome := none
      failure := none
      reconciliationReason := none
      evidenceEnvelopeId := none
      now := none }
    databaseNow

def earlySettlement : Call :=
  sampleSettlement "run-1" "1970-01-01T01:00:00.000Z"

def earlyEvents : List CronEvent :=
  [.runNow "daily" false none 3600000 (sampleHost "run-1" "1970-01-01T01:00:00.000Z") earlyRun.1,
   .moveRun earlySettlement,
   .finish "daily" none true 3600000]

/-- The jobs after a run is settled and ends. -/
def ended (settlement : Call) (finishedAt : Int) (state : CronAutomation) : CronAutomation :=
  recordFinished sampleDates "daily" none true finishedAt
    { state with store := settlement.after sampleDates.toDateText state.store }

def afterEarlyRun : CronAutomation :=
  ended earlySettlement 3600000 earlyRun.2

/-- The job as the sweep finds it. -/
def dailyRecord (lastRunAt : Option String) : CronJobRecord where
  jobId := "daily"
  action := .agentTurn
  schedule := "30 9 * * *"
  enabled := true
  endAt := none
  activeRunId := none
  lastRunAt := lastRunAt
  failureCount := lastRunAt.map fun _ => 0
  backoffUntil := none

def nineThirty : CronHost := sampleHost "run-2" "1970-01-01T09:30:00.000Z"

theorem dailyRecord_due {lastRunAt : Option String} {now : Int}
    (hdue : isExplicitCronJobDueNow sampleZones (dailyRecord none) now = true) :
    (dailyRecord lastRunAt).Due sampleZones sampleDates now where
  action := rfl
  enabled := rfl
  active := rfl
  due := by simpa only [isExplicitCronJobDueNow, dailyRecord] using hdue
  notBackedOff := rfl
  idle := rfl

theorem dailyAutomation_fresh : dailyAutomation.Fresh where
  runs := rfl
  idle := by
    intro jobId row hrow
    by_cases hsame : jobId = "daily"
    · subst hsame
      obtain rfl := Option.some.inj hrow
      rfl
    · rw [show dailyAutomation.store.jobs jobId = none from if_neg hsame] at hrow
      cases hrow
  lastRun := by
    intro jobId columns hcolumns
    by_cases hsame : jobId = "daily"
    · subst hsame
      obtain rfl := Option.some.inj hcolumns
      rfl
    · rw [show dailyAutomation.columns jobId = none from if_neg hsame] at hcolumns
      cases hcolumns
  ids := by
    intro jobId hcolumns
    by_cases hsame : jobId = "daily"
    · subst hsame
      rfl
    · exact absurd (if_neg hsame) hcolumns

/-- Nothing keeps the host from running the job. -/
theorem daily_ready {state : CronAutomation} {row : CronJobRow} {runId databaseNow : String}
    {occurrence : Int} (hoccurrence : sampleDates.toISOString occurrence ≠ none)
    (hnow : (sampleDates.parse databaseNow).bind sampleDates.toISOString ≠ none)
    (hid : trim runId ≠ "") (hrow : state.store.jobs "daily" = some row)
    (hrevision : 1 ≤ row.definition.revision)
    (hsnapshot : actionSnapshot row.definition = actionSnapshot sampleJob.definition)
    (hgeneration : max row.executionGeneration
      (state.store.historicalMaxGeneration "daily") < maxSafeInteger)
    (hruns : ∀ run ∈ state.store.runs, run.runId ≠ trim runId) :
    Ready sampleDates state "daily" occurrence (sampleHost runId databaseNow) where
  scope := rfl
  lifecycle := rfl
  occurrence := hoccurrence
  databaseNow := hnow
  runId := ⟨hid, hruns⟩
  job := by
    intro found hfound
    rw [hrow] at hfound
    obtain rfl := Option.some.inj hfound
    refine ⟨hrevision, ?_, hgeneration⟩
    rw [hsnapshot]
    exact ⟨_, rfl⟩

/-- The sweep of half past nine. -/
def firstVisit : CronSweepAnswer × CronAutomation :=
  visitJob sampleZones sampleDates (dailyRecord none) 34200000 nineThirty dailyAutomation

/-- The first run is admitted by the sweep, and ends at once. -/
def firstEvents : List CronEvent :=
  [.visit "daily" 34200000 nineThirty firstVisit.1,
   .moveRun (sampleSettlement "run-2" "1970-01-01T09:30:00.000Z"),
   .finish "daily" none true 34200000]

def afterFirstRun : CronAutomation :=
  ended (sampleSettlement "run-2" "1970-01-01T09:30:00.000Z") 34200000 firstVisit.2

theorem run_to_afterFirstRun :
    Run (Restrict (CronAutomation.Step sampleZones sampleDates)
      (Unobstructed sampleZones sampleDates)) dailyAutomation firstEvents afterFirstRun := by
  refine .cons ⟨⟨dailyRecord none, rfl, rfl⟩, ?_⟩
    (.cons ⟨⟨by decide, rfl⟩, trivial⟩ (.single ⟨rfl, trivial⟩))
  intro job hjob
  obtain rfl : dailyRecord none = job := Option.some.inj hjob
  rw [show occurrenceStart sampleZones (dailyRecord none).schedule 34200000 = 34200000 by
    decide +kernel]
  refine ⟨?_, fun hran => by cases hran⟩
  exact @daily_ready dailyAutomation sampleJob _ _ _ (by decide) (by decide) (by decide) rfl
    (by decide) rfl (by decide) (by intro run hrun; cases hrun)

theorem ranAt_firstEvents {event : CronEvent} (h : event ∈ firstEvents) {time : Int}
    (hran : event.ranAt "daily" = some time) : time = 34200000 := by
  simp only [firstEvents, List.mem_cons, List.not_mem_nil, or_false] at h
  obtain rfl | rfl | rfl := h
  · unfold CronEvent.ranAt at hran
    split at hran
    all_goals simp_all
  · cases hran
  · exact (Option.some.inj hran).symm

def nextNineThirty : CronHost := sampleHost "run-3" "1970-01-02T09:30:00.000Z"

/-- The job as the sweep of the next day finds it, and the sweep. -/
def nextRecord : CronJobRecord := dailyRecord (some "1970-01-01T09:30:00.000Z")

def nextVisit : CronSweepAnswer × CronAutomation :=
  visitJob sampleZones sampleDates nextRecord 120600000 nextNineThirty afterFirstRun

/-- The occurrence of the next day is admitted as well. -/
theorem next_occurrence_admitted : ∃ run, nextVisit.1 = .admitted run := by
  have hjob : afterFirstRun.getJob "daily" = some nextRecord := rfl
  have hunobstructed : Unobstructed sampleZones sampleDates afterFirstRun
      (.visit "daily" 120600000 nextNineThirty nextVisit.1) := by
    intro found hfound
    obtain rfl := Option.some.inj (hjob.symm.trans hfound)
    rw [show occurrenceStart sampleZones nextRecord.schedule 120600000 = 120600000 by
      decide +kernel]
    refine ⟨?_, fun hran => absurd hran (by decide +kernel)⟩
    exact @daily_ready afterFirstRun
      { sampleJob with executionGeneration := 1, updatedAt := "1970-01-01T09:30:00.000Z" }
      _ _ _ (by decide) (by decide) (by decide) rfl (by decide) rfl (by decide +kernel)
      (by decide +kernel)
  obtain ⟨run, hrun, -⟩ | ⟨event, hmem, time, hran, parsed, -, -, -, hhour, -⟩ :=
    (due_occurrences_admitted_once dailyAutomation_fresh run_to_afterFirstRun).2 "daily"
      120600000 nextNineThirty nextVisit.1 nextRecord
      ⟨⟨nextRecord, hjob, rfl⟩, hunobstructed⟩ hjob (dailyRecord_due (by decide +kernel))
  · exact ⟨run, hrun⟩
  · have htime : time = 34200000 := ranAt_firstEvents hmem hran
    rw [htime] at hhour
    unfold localTime at hhour
    omega

theorem afterEarlyRun_getJob :
    afterEarlyRun.getJob "daily" = some (dailyRecord (some "1970-01-01T01:00:00.000Z")) := by
  rfl

theorem ranAt_earlyEvents {event : CronEvent} (h : event ∈ earlyEvents) {time : Int}
    (hran : event.ranAt "daily" = some time) : time = 3600000 := by
  simp only [earlyEvents, List.mem_cons, List.not_mem_nil, or_false] at h
  obtain rfl | rfl | rfl := h
  · unfold CronEvent.ranAt at hran
    split at hran
    all_goals simp_all
  · cases hran
  · exact (Option.some.inj hran).symm

/-- A run that ended at one o'clock hides the occurrence of half past nine, which
no run was admitted or finished in. -/
theorem early_run_hides_occurrence :
    Run (CronAutomation.Step sampleZones sampleDates) dailyAutomation earlyEvents
        afterEarlyRun ∧
      ∃ job state', afterEarlyRun.getJob "daily" = some job ∧
        job.Due sampleZones sampleDates 34200000 ∧
        Ready sampleDates afterEarlyRun "daily" 34200000 nineThirty ∧
        CronAutomation.Step sampleZones sampleDates afterEarlyRun
          (.visit "daily" 34200000 nineThirty .passed) state' ∧
        ¬∃ event ∈ earlyEvents, ∃ time, event.ranAt "daily" = some time ∧
          SameDueWindow sampleZones job.schedule 34200000 time := by
  refine ⟨?_, dailyRecord (some "1970-01-01T01:00:00.000Z"), afterEarlyRun,
    afterEarlyRun_getJob, dailyRecord_due (by decide +kernel), ?_,
    ⟨_, afterEarlyRun_getJob, ?_⟩, ?_⟩
  · exact .cons rfl (.cons ⟨by decide, rfl⟩ (.cons rfl (.nil _)))
  · exact @daily_ready afterEarlyRun
      { sampleJob with executionGeneration := 1, updatedAt := "1970-01-01T01:00:00.000Z" }
      _ _ _ (by decide) (by decide) (by decide) rfl (by decide) rfl (by decide +kernel)
      (by decide +kernel)
  · rfl
  · rintro ⟨event, hmem, time, hran, parsed, hparsed, -, hmatch, -⟩
    have htime : time = 3600000 := ranAt_earlyEvents hmem hran
    have hnotDue : isExplicitCronJobDueNow sampleZones (dailyRecord none) 3600000 = false := by
      decide +kernel
    rw [htime] at hmatch
    simp only [isExplicitCronJobDueNow] at hnotDue
    rw [show parseSimpleCronSchedule sampleZones (dailyRecord none).schedule = some parsed from
      hparsed] at hnotDue
    simp only [hmatch] at hnotDue
    cases hnotDue

/-! ## What a job tells of its runs -/

/-- In every run of the scheduler, whatever fails or is started by hand: a stored run was admitted
by an event of the past, the run that a visit admitted stays stored, and what a job tells of its
last run is when one of its runs ended. -/
theorem scheduler_tells_its_past {zones : TimeZones} {dates : CronDates}
    {state₀ state : CronAutomation} {events : List CronEvent} (hfresh : state₀.Fresh)
    (hrun : Run (CronAutomation.Step zones dates) state₀ events state) :
    (∀ run ∈ state.store.runs, ∃ event ∈ events,
        event.Admits zones dates state₀.schedules run) ∧
      (state.store.runs.map CronRun.runId).Nodup ∧
      (∀ jobId now host run, CronEvent.visit jobId now host (.admitted run) ∈ events →
        ∃ schedule scheduledFor, state₀.schedules jobId = some schedule ∧
          IsOccurrence zones dates schedule now scheduledFor ∧
          ∃ row ∈ state.store.runs, SameRun run row ∧ row.jobId = jobId ∧
            row.admissionKey = "scheduled:" ++ scheduledFor) ∧
      ∀ jobId columns text, state.columns jobId = some columns → columns.lastRunAt = some text →
        ∃ generation succeeded finishedAt,
          CronEvent.finish jobId generation succeeded finishedAt ∈ events ∧
            dates.toISOString finishedAt = some text := by
  have htracked := tracked_of_run hfresh hrun
  exact ⟨htracked.origin, htracked.fenced.runIds, htracked.admitted, htracked.lastRun⟩

/-- The job tells when its early run ended. -/
theorem early_run_told :
    ∃ generation succeeded finishedAt,
      CronEvent.finish "daily" generation succeeded finishedAt ∈ earlyEvents ∧
        sampleDates.toISOString finishedAt = some "1970-01-01T01:00:00.000Z" := by
  have hrun : Run (CronAutomation.Step sampleZones sampleDates) dailyAutomation earlyEvents
      afterEarlyRun := .cons rfl (.cons ⟨by decide, rfl⟩ (.cons rfl (.nil _)))
  exact (scheduler_tells_its_past dailyAutomation_fresh hrun).2.2.2 "daily" _ _ rfl rfl

end GoatCitadel.Cron
