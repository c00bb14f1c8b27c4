import GoatCitadel.Cron.RunFencing

/-!
# An acknowledged linkage

A caller that attaches a child to a run, or moves the run to a later phase, gives the
identifiers that the run is to be linked to, and takes the run that it is answered for the
proof that they are stored.  Both operations first answer the run as it is when it is already
where the call wants it; what the call gave is not written then.
-/

namespace GoatCitadel.Cron

open GoatCitadel.Support
open GoatCitadel.Storage.WorktreeLeaseRepository (DateText epochDates)

/-! ## The calls -/

/-- A call that gives identifiers to link. -/
inductive LinkageCall
  | attach (token : CronRunTokenInput) (linkage : CronRunLinkage) (now : Option String)
      (databaseNow : String)
  | advance (token : CronRunTokenInput) (targetStatus : CronRunStatus)
      (targetPhase : CronRunPhase) (linkage : CronRunLinkage) (now : Option String)
      (databaseNow : String)

namespace LinkageCall

def token : LinkageCall → CronRunTokenInput
  | .attach token _ _ _ => token
  | .advance token _ _ _ _ _ => token

def linkage : LinkageCall → CronRunLinkage
  | .attach _ linkage _ _ => linkage
  | .advance _ _ _ linkage _ _ => linkage

/-- The transaction of the call. -/
def call : LinkageCall → Call
  | .attach token linkage now databaseNow =>
      .attachDeterministicChild token linkage now databaseNow
  | .advance token targetStatus targetPhase linkage now databaseNow =>
      .advancePhase token targetStatus targetPhase linkage now databaseNow

def perform (dates : DateText) (store : CronStore) : LinkageCall → Except CronRunError Outcome
  | .attach token linkage now databaseNow =>
      attachDeterministicChild dates token linkage now databaseNow store
  | .advance token targetStatus targetPhase linkage now databaseNow =>
      advancePhase dates token targetStatus targetPhase linkage now databaseNow store

/-- The run is where the call wants it, and is answered as it is. -/
def replays (current : CronRun) : LinkageCall → Bool
  | .attach _ _ _ _ => current.status = .admitted
  | .advance _ targetStatus targetPhase _ _ _ =>
      current.status = targetStatus && current.phase = targetPhase

end LinkageCall

/-- Every identifier that the call gives is stored for the run. -/
def StoredFor (call : LinkageCall) (run : CronRun) : Prop :=
  ∀ linkage, normalizeLinkage call.linkage = .ok linkage → linkage.Kept run.linkage

/-- The call is no replay that gives an identifier which the run does not have yet. -/
def GivesNothingNew (call : LinkageCall) (store : CronStore) : Prop :=
  ∀ token current, normalizeToken call.token = .ok token →
    store.getRun token.runId = some current → call.replays current = true →
    StoredFor call current

/-- The call gives another identifier for a field that is stored. -/
def Relinks (call : LinkageCall) (store : CronStore) : Prop :=
  ∃ token linkage current name stored given, normalizeToken call.token = .ok token ∧
    normalizeLinkage call.linkage = .ok linkage ∧
    activeRunOf token store = .ok (some current) ∧
    (name, some stored) ∈ current.linkage.entries ∧ (name, some given) ∈ linkage.entries ∧
    given ≠ stored

/-! ## One call -/

section Calls

variable {dates : DateText} {store store' : CronStore} {run : CronRun} {call : LinkageCall}

/-- What is given is among what is stored then, whatever was stored before. -/
theorem given_mem_coalesce {old given : List (String × Option String)}
    (hlength : old.length = given.length) {name text : String}
    (hmem : (name, some text) ∈ given) :
    (name, some text) ∈ (given.zip old).map fun pair => (pair.1.1, pair.1.2.or pair.2.2) := by
  induction given generalizing old with
  | nil => exact absurd hmem List.not_mem_nil
  | cons entry given ih =>
      cases old with
      | nil => exact absurd hlength (Nat.zero_ne_add_one _)
      | cons other old =>
          rw [List.zip_cons_cons, List.map_cons]
          obtain rfl | htail := List.mem_cons.mp hmem
          · exact List.mem_cons_self
          · exact List.mem_cons_of_mem _ (ih (Nat.succ.inj hlength) htail)

/-- New identifiers win over those that are stored. -/
theorem kept_coalesce (new old : CronRunLinkage) : new.Kept (new.coalesce old) := by
  intro name text hmem
  have hlength : old.entries.length = new.entries.length := rfl
  exact given_mem_coalesce hlength hmem

theorem getRun_replaceRun {current : CronRun} (hcurrent : store.getRun run.runId = some current) :
    (store.replaceRun run).getRun run.runId = some run := by
  obtain ⟨-, hid⟩ := mem_of_find?_key hcurrent
  have hkey : ∀ other : CronRun, decide (other.runId = run.runId) = true →
      run.runId = other.runId := by
    intro other hother
    exact (of_decide_eq_true hother).symm
  unfold CronStore.getRun CronStore.replaceRun
  rw [find?_updateRows hkey, show store.runs.find? (fun other => other.runId = run.runId) =
    some current from hcurrent, Option.map_some, if_pos (decide_eq_true hid)]

/-- The run that is answered after an update is the updated row. -/
theorem answered_of_updateRun {token : CronRunToken} {current : CronRun}
    {guard : CronRun → Bool} {set : CronRun → CronRun} {written : Option CronStore}
    (hids : (store.runs.map (·.runId)).Nodup) (hcurrent : store.getRun token.runId = some current)
    (hset : (set current).runId = current.runId)
    (hwritten : store.updateRun token guard set = .ok written)
    (h : answer token store written = (some run, store')) :
    run = set current ∧ store'.getRun run.runId = some run := by
  obtain ⟨-, hid⟩ := mem_of_find?_key hcurrent
  cases written with
  | none => exact absurd (Prod.mk.inj h).1.symm (Option.some_ne_none run)
  | some written =>
      obtain ⟨hrun, rfl⟩ := Prod.mk.inj h
      obtain ⟨-, rfl⟩ := updateRun_eq_some hids hcurrent hset hwritten
      have hread : (store.replaceRun (set current)).getRun (set current).runId =
          some (set current) := by
        have hstored : store.getRun (set current).runId = some current := by
          rw [hset, hid]
          exact hcurrent
        exact getRun_replaceRun hstored
      rw [← hid, ← hset, hread] at hrun
      obtain rfl := Option.some_inj.mp hrun
      exact ⟨rfl, hread⟩

/-- What a call has read and checked before it answers a run. -/
structure Answered (call : LinkageCall) (store : CronStore) (run : CronRun) (store' : CronStore)
    (token : CronRunToken) (linkage : CronRunLinkage) (current : CronRun) : Prop where
  readsToken : normalizeToken call.token = .ok token
  readsLinkage : normalizeLinkage call.linkage = .ok linkage
  readsRun : store.getRun token.runId = some current
  answers : (call.replays current = true ∧ run = current ∧ store' = store) ∨
    (call.replays current = false ∧ run.linkage = linkage.coalesce current.linkage ∧
      store'.getRun run.runId = some run)

theorem attach_answered {input : CronRunTokenInput} {given : CronRunLinkage}
    {now : Option String} {databaseNow : String} (hsound : RowsSound store)
    (h : attachDeterministicChild dates input given now databaseNow store =
      .ok (some run, store')) :
    ∃ token linkage current,
      Answered (.attach input given now databaseNow) store run store' token linkage current := by
  obtain ⟨token, htoken, h⟩ := bind_eq_ok.mp h
  obtain ⟨linkage, hlinkage, h⟩ := bind_eq_ok.mp h
  split at h
  · cases h
  · obtain ⟨time, -, h⟩ := bind_eq_ok.mp h
    obtain ⟨found, hfound, h⟩ := bind_eq_ok.mp h
    cases found with
    | none => exact absurd (ok_pair_inj h).1.symm (Option.some_ne_none run)
    | some current =>
        have hcurrent := (activeRunOf_eq_some hfound).1
        refine ⟨token, linkage, current, htoken, hlinkage, hcurrent, ?_⟩
        obtain ⟨_, -, h⟩ := bind_eq_ok.mp h
        split at h
        · rename_i hadmitted
          obtain ⟨hrun, rfl⟩ := ok_pair_inj h
          exact .inl ⟨decide_eq_true hadmitted, (Option.some_inj.mp hrun).symm, rfl⟩
        · rename_i hadmitted
          split at h
          · cases h
          · obtain ⟨written, hwritten, h⟩ := bind_eq_ok.mp h
            obtain ⟨rfl, hread⟩ := answered_of_updateRun hsound.runIds hcurrent rfl hwritten
              (Except.ok.inj h)
            exact .inr ⟨decide_eq_false hadmitted, rfl, hread⟩

theorem advance_answered {input : CronRunTokenInput} {targetStatus : CronRunStatus}
    {targetPhase : CronRunPhase} {given : CronRunLinkage} {now : Option String}
    {databaseNow : String} (hsound : RowsSound store)
    (h : advancePhase dates input targetStatus targetPhase given now databaseNow store =
      .ok (some run, store')) :
    ∃ token linkage current,
      Answered (.advance input targetStatus targetPhase given now databaseNow) store run store'
        token linkage current := by
  obtain ⟨token, htoken, h⟩ := bind_eq_ok.mp h
  split at h
  · cases h
  · obtain ⟨linkage, hlinkage, h⟩ := bind_eq_ok.mp h
    obtain ⟨time, -, h⟩ := bind_eq_ok.mp h
    obtain ⟨found, hfound, h⟩ := bind_eq_ok.mp h
    cases found with
    | none => exact absurd (ok_pair_inj h).1.symm (Option.some_ne_none run)
    | some current =>
        have hcurrent := (activeRunOf_eq_some hfound).1
        refine ⟨token, linkage, current, htoken, hlinkage, hcurrent, ?_⟩
        obtain ⟨_, -, h⟩ := bind_eq_ok.mp h
        split at h
        · rename_i hthere
          obtain ⟨hrun, rfl⟩ := ok_pair_inj h
          refine .inl ⟨?_, (Option.some_inj.mp hrun).symm, rfl⟩
          exact Bool.and_eq_true_iff.mpr ⟨decide_eq_true hthere.1, decide_eq_true hthere.2⟩
        · rename_i hthere
          split at h
          · cases h
          · obtain ⟨written, hwritten, h⟩ := bind_eq_ok.mp h
            obtain ⟨rfl, hread⟩ := answered_of_updateRun hsound.runIds hcurrent rfl hwritten
              (Except.ok.inj h)
            refine .inr ⟨?_, rfl, hread⟩
            apply Bool.eq_false_iff.mpr
            intro hreplays
            obtain ⟨hstatus, hphase⟩ := Bool.and_eq_true_iff.mp hreplays
            exact hthere ⟨of_decide_eq_true hstatus, of_decide_eq_true hphase⟩

theorem perform_answered (hsound : RowsSound store)
    (h : call.perform dates store = .ok (some run, store')) :
    ∃ token linkage current, Answered call store run store' token linkage current := by
  cases call with
  | attach input given now databaseNow => exact attach_answered hsound h
  | advance input targetStatus targetPhase given now databaseNow =>
      exact advance_answered hsound h

/-- The run that is answered has every given identifier when a replay gives nothing new. -/
theorem stored_iff (hsound : RowsSound store)
    (h : call.perform dates store = .ok (some run, store')) :
    (∃ row, store'.getRun run.runId = some row ∧ StoredFor call row) ↔
      GivesNothingNew call store := by
  obtain ⟨token, linkage, current, hanswered⟩ := perform_answered hsound h
  obtain ⟨-, hid⟩ := mem_of_find?_key hanswered.readsRun
  constructor
  · rintro ⟨row, hrow, hstored⟩ token' current' htoken' hcurrent' hreplays
    obtain rfl := Except.ok.inj (hanswered.readsToken.symm.trans htoken')
    obtain rfl := Option.some_inj.mp (hanswered.readsRun.symm.trans hcurrent')
    obtain ⟨-, rfl, rfl⟩ | ⟨hmoves, -, -⟩ := hanswered.answers
    · rw [hid, hcurrent'] at hrow
      obtain rfl := Option.some_inj.mp hrow
      exact hstored
    · rw [hreplays] at hmoves
      exact absurd hmoves.symm Bool.false_ne_true
  · intro hnothing
    obtain ⟨hreplays, rfl, rfl⟩ | ⟨-, hlinkage, hread⟩ := hanswered.answers
    · refine ⟨run, ?_, hnothing token run hanswered.readsToken hanswered.readsRun hreplays⟩
      rw [hid]
      exact hanswered.readsRun
    · refine ⟨run, hread, ?_⟩
      intro linkage' hlinkage'
      obtain rfl := Except.ok.inj (hanswered.readsLinkage.symm.trans hlinkage')
      rw [hlinkage]
      exact kept_coalesce linkage current.linkage

/-! ## Another identifier -/

theorem mem_zip_of_names {β : Type} {xs ys : List (String × β)}
    (hnames : xs.map Prod.fst = ys.map Prod.fst) (hnodup : (xs.map Prod.fst).Nodup)
    {name : String} {a b : β} (ha : (name, a) ∈ xs) (hb : (name, b) ∈ ys) :
    ((name, a), (name, b)) ∈ xs.zip ys := by
  induction xs generalizing ys with
  | nil => exact absurd ha List.not_mem_nil
  | cons x xs ih =>
      cases ys with
      | nil => exact absurd hb List.not_mem_nil
      | cons y ys =>
          obtain ⟨hname, hnames⟩ := List.cons.inj hnames
          obtain ⟨hnew, hnodup⟩ := List.nodup_cons.mp hnodup
          have hnew' : y.1 ∉ ys.map Prod.fst := by
            rw [← hname, ← hnames]
            exact hnew
          rw [List.zip_cons_cons]
          obtain rfl | ha := List.mem_cons.mp ha
          · obtain rfl | hb := List.mem_cons.mp hb
            · exact List.mem_cons_self
            · rw [← hname] at hnew'
              exact absurd (List.mem_map.mpr ⟨(name, b), hb, rfl⟩) hnew'
          · obtain rfl | hb := List.mem_cons.mp hb
            · rw [hname] at hnew
              exact absurd (List.mem_map.mpr ⟨(name, a), ha, rfl⟩) hnew
            · exact List.mem_cons_of_mem _ (ih hnames hnodup ha hb)

/-- A call that returns has found the identifiers compatible. -/
theorem compatible_of_perform {reply : Outcome} {token : CronRunToken} {linkage : CronRunLinkage}
    {current : CronRun} (htoken : normalizeToken call.token = .ok token)
    (hlinkage : normalizeLinkage call.linkage = .ok linkage)
    (hcurrent : activeRunOf token store = .ok (some current))
    (h : call.perform dates store = .ok reply) :
    assertLinkageCompatible current linkage = .ok () := by
  cases call with
  | attach input given now databaseNow =>
      obtain ⟨token', htoken', h⟩ := bind_eq_ok.mp h
      obtain rfl := Except.ok.inj (htoken.symm.trans htoken')
      obtain ⟨linkage', hlinkage', h⟩ := bind_eq_ok.mp h
      obtain rfl := Except.ok.inj (hlinkage.symm.trans hlinkage')
      split at h
      · cases h
      · obtain ⟨time, -, h⟩ := bind_eq_ok.mp h
        obtain ⟨found, hfound, h⟩ := bind_eq_ok.mp h
        obtain rfl := Except.ok.inj (hcurrent.symm.trans hfound)
        obtain ⟨_, hcompatible, -⟩ := bind_eq_ok.mp h
        exact hcompatible
  | advance input targetStatus targetPhase given now databaseNow =>
      obtain ⟨token', htoken', h⟩ := bind_eq_ok.mp h
      obtain rfl := Except.ok.inj (htoken.symm.trans htoken')
      split at h
      · cases h
      · obtain ⟨linkage', hlinkage', h⟩ := bind_eq_ok.mp h
        obtain rfl := Except.ok.inj (hlinkage.symm.trans hlinkage')
        obtain ⟨time, -, h⟩ := bind_eq_ok.mp h
        obtain ⟨found, hfound, h⟩ := bind_eq_ok.mp h
        obtain rfl := Except.ok.inj (hcurrent.symm.trans hfound)
        obtain ⟨_, hcompatible, -⟩ := bind_eq_ok.mp h
        exact hcompatible

/-- A call that gives another identifier for a stored field throws. -/
theorem perform_of_relinks (hsound : RowsSound store) (h : Relinks call store) :
    ∃ error, call.perform dates store = .error error := by
  obtain ⟨token, linkage, current, name, stored, given, htoken, hlinkage, hcurrent, hold, hnew,
    hdifferent⟩ := h
  cases hperform : call.perform dates store with
  | error error => exact ⟨error, rfl⟩
  | ok reply =>
      exfalso
      have hmem := (mem_of_find?_key (activeRunOf_eq_some hcurrent).1).1
      have hcompatible := compatible_of_perform htoken hlinkage hcurrent hperform
      have hpair : ((name, some stored), (name, some given)) ∈
          current.linkage.entries.zip linkage.entries := by
        have hsame : current.linkage.entries.map Prod.fst = linkage.entries.map Prod.fst := rfl
        refine mem_zip_of_names hsame ?_ hold hnew
        have hnames : ["childSessionId", "childMessageId", "childTurnId",
          "childAssistantMessageId", "childDurableRunId", "deliveryRunId",
          "externalSideEffectRunId", "evidenceEnvelopeId"].Nodup := by decide
        exact hnames
      have hset := (hsound.stored current hmem (name, some stored) hold stored rfl).2
      have hset' := (normalizeLinkage_stored hlinkage (name, some given) hnew given rfl).2
      exact hdifferent (assertLinkageCompatible_eq_ok hcompatible _ hpair stored given rfl rfl
        hset hset').symm

theorem after_of_perform_error {error : CronRunError}
    (h : call.perform dates store = .error error) :
    call.call.after dates store = store := by
  have hperform : call.call.perform dates store = Prod.snd <$> call.perform dates store := by
    cases call <;> rfl
  unfold Call.after
  rw [hperform, h]
  rfl

/-! ## Every reachable state -/

/-- The answer of a call is the proof that its identifiers are stored. -/
structure Acknowledges (dates : DateText) (call : LinkageCall) (store : CronStore) : Prop where
  stored : ∀ run store', call.perform dates store = .ok (some run, store') →
    ∃ row, store'.getRun run.runId = some row ∧ StoredFor call row
  refused : Relinks call store →
    (∃ error, call.perform dates store = .error error) ∧ call.call.after dates store = store

/-- In a state that calls have led to from jobs without runs, a call that answers a run has
stored its identifiers just when it is no replay that gives new ones; and a call that gives
another identifier for a stored field throws and changes nothing. -/
theorem linkage_acknowledged_iff {store₀ : CronStore} {calls : List Call}
    (hruns : store₀.runs = [])
    (hjobs : ∀ jobId job, store₀.jobs jobId = some job → job.activeRunId = none)
    (hrun : Run (CronStore.Step dates) store₀ calls store) (call : LinkageCall) :
    (∀ run store', call.perform dates store = .ok (some run, store') →
      (Acknowledges dates call store ↔ GivesNothingNew call store)) ∧
    (GivesNothingNew call store → Acknowledges dates call store) ∧
    (Relinks call store →
      (∃ error, call.perform dates store = .error error) ∧
        call.call.after dates store = store) := by
  have hsound := (run_spec hrun (fenced_of_fresh hruns hjobs)).1.toRowsSound
  have hrefused : Relinks call store →
      (∃ error, call.perform dates store = .error error) ∧
        call.call.after dates store = store := by
    intro hrelinks
    have herrors : ∃ error, call.perform dates store = .error error :=
      perform_of_relinks hsound hrelinks
    obtain ⟨error, herror⟩ := herrors
    exact ⟨⟨error, herror⟩, after_of_perform_error herror⟩
  have hstored : GivesNothingNew call store → Acknowledges dates call store := by
    intro hnothing
    refine ⟨?_, hrefused⟩
    intro run store' hperform
    exact (stored_iff hsound hperform).mpr hnothing
  refine ⟨?_, hstored, hrefused⟩
  intro run store' hperform
  constructor
  · intro h
    exact (stored_iff hsound hperform).mp (h.stored run store' hperform)
  · exact hstored

end Calls

/-! ### A replay that gives a new identifier -/

def sampleToken : CronRunTokenInput :=
  { runId := "run-1", jobId := "job", executionGeneration := .finite 1 }

/-- The child that the run was admitted with. -/
def sampleChild : CronRunLinkage :=
  { CronRunLinkage.none with
    childTurnId := some "turn-1"
    childDurableRunId := some "durable-1" }

def sampleAttach (linkage : CronRunLinkage) : LinkageCall :=
  .attach sampleToken linkage none "1970-01-01T00:00:00.000Z"

/-- A run whose child was attached. -/
def sampleAttached : CronStore :=
  (sampleAttach sampleChild).call.after epochDates
    ((sampleBegin "run-1" "occurrence-1").after epochDates sampleStore)

theorem sampleAttached_reached :
    Run (CronStore.Step epochDates) sampleStore
      [sampleBegin "run-1" "occurrence-1", (sampleAttach sampleChild).call] sampleAttached :=
  .cons rfl (.cons rfl (.nil _))

def sampleDelivered (linkage : CronRunLinkage) : CronRunLinkage :=
  { linkage with deliveryRunId := some "delivery-1" }

/-- The run goes on to its delivery, whose run is stored. -/
theorem sampleDelivery_acknowledged :
    Acknowledges epochDates
      (.advance sampleToken .running .delivery (sampleDelivered .none) none
        "1970-01-01T00:00:00.000Z") sampleAttached := by
  refine (linkage_acknowledged_iff rfl sampleStore_idle sampleAttached_reached _).2.1 ?_
  intro token current htoken hcurrent hreplays
  have hsample : normalizeToken sampleToken = .ok ⟨"run-1", "job", 1⟩ := by decide +kernel
  have hstatus : (sampleAttached.getRun "run-1").map (·.status) = some .admitted := by
    decide +kernel
  obtain rfl := Except.ok.inj (hsample.symm.trans htoken)
  rw [hcurrent] at hstatus
  have hrunning := of_decide_eq_true (Bool.and_eq_true_iff.mp hreplays).1
  rw [Option.map_some, hrunning] at hstatus
  exact absurd (Option.some_inj.mp hstatus) (by decide)

/-- A child that is attached again with its delivery is acknowledged without the delivery. -/
theorem replay_drops_linkage :
    ¬∀ (dates : DateText) (store₀ store : CronStore) (calls : List Call) (call : LinkageCall),
      store₀.runs = [] →
      (∀ jobId job, store₀.jobs jobId = some job → job.activeRunId = none) →
      Run (CronStore.Step dates) store₀ calls store → Acknowledges dates call store := by
  intro h
  let call := sampleAttach (sampleDelivered sampleChild)
  have hcall := h epochDates sampleStore sampleAttached _ call rfl sampleStore_idle
    sampleAttached_reached
  have hlinkage : normalizeLinkage call.linkage = .ok call.linkage := by decide +kernel
  have hgiven : ("deliveryRunId", some "delivery-1") ∈ call.linkage.entries := by decide +kernel
  have hreturned : (call.perform epochDates sampleAttached).toOption.any (fun reply =>
      reply.1.any fun run => (reply.2.getRun run.runId).any fun row =>
        !row.linkage.entries.contains ("deliveryRunId", some "delivery-1")) = true := by
    decide +kernel
  cases hperform : call.perform epochDates sampleAttached with
  | error error =>
      rw [hperform] at hreturned
      exact absurd hreturned Bool.false_ne_true
  | ok reply =>
      rw [hperform] at hreturned
      obtain ⟨answered, store'⟩ := reply
      obtain ⟨run, rfl, hread⟩ := (Option.any_eq_true _ answered).mp hreturned
      obtain ⟨row, hrow, hmissing⟩ := (Option.any_eq_true _ _).mp hread
      obtain ⟨row', hrow', hstored⟩ := hcall.stored run store' hperform
      obtain rfl := Option.some_inj.mp (hrow.symm.trans hrow')
      have hcontains := List.contains_iff_mem.mpr (hstored _ hlinkage _ _ hgiven)
      rw [hcontains] at hmissing
      exact absurd hmissing Bool.false_ne_true

end GoatCitadel.Cron
