import GoatCitadel.Storage.ChildWatcherRelay
import GoatCitadel.Support.RoundRobin

/-!
# The sweep of the watchers

A call of `catchUpAttached` visits the attached watchers after the cursor of the scan, then
the ones up to it, and leaves the cursor at the last one it visited.  No other call moves
the cursor.  So the visits of a run go round in a circle, and pass no watcher that stays
attached.
-/

namespace GoatCitadel.Storage.ChildWatchers

open GoatCitadel.Support

/-! ## Visits -/

/-- The ids of the watchers that are attached. -/
def WatcherStore.attachedIds (store : WatcherStore) : List String :=
  (store.watchers.filter fun row => row.state = .attached).map ChildWatcher.watcherId

section Visits

variable (runtime : WatcherRuntime)

/-- A visit: the watcher is caught up, and its result goes into the summary. -/
def visit (eventLimitPerWatcher : Int) (observedAt : String → String) :
    ReconcileSummary × WatcherStore → String → Except String (ReconcileSummary × WatcherStore)
  | (summary, store), watcherId => do
      let (result, store) ← catchUpWatcher runtime watcherId eventLimitPerWatcher
        (observedAt watcherId) store
      return (summary.add watcherId result, store)

/-- `catchUpWatcherRows`, with the watchers that it has visited. -/
def visitRows (eventLimitPerWatcher : Int) (observedAt : String → String) :
    List String → ReconcileSummary × WatcherStore →
      Except String (List String × ReconcileSummary × WatcherStore)
  | [], state => return ([], state)
  | watcherId :: rows, state => do
      let state ← visit runtime eventLimitPerWatcher observedAt state watcherId
      let (visits, state) ← visitRows eventLimitPerWatcher observedAt rows state
      return (watcherId :: visits, state)

/-- The loop of a call of `catchUpAttached`, with the watchers that it has visited. -/
def visitAttached (watcherLimit eventLimitPerWatcher : Option Int)
    (observedAt : String → String) (store : WatcherStore) :
    Except String (List String × ReconcileSummary × WatcherStore) := do
  let cursor ← getScanCursorForUpdate store
  visitRows runtime (eventLimitPerWatcher.getD 100) observedAt
    (scanRows runtime cursor (clampLimit (watcherLimit.getD 100) 500) store) (.empty, store)

/-- The watchers that an event visits for the sweep.  A call that throws is rolled back. -/
def WatcherEvent.visits (store : WatcherStore) : WatcherEvent → List String
  | .call (.catchUpAttached watcherLimit eventLimitPerWatcher observedAt) =>
      match visitAttached runtime watcherLimit eventLimitPerWatcher observedAt store with
      | .ok (visits, _) => visits
      | .error _ => []
  | _ => []

/-- What a call of `catchUpAttached` answers and leaves is the fold of its visits, from the empty
summary on, with the cursor at the last one; and its summary counts them. -/
structure Visited (eventLimitPerWatcher : Int) (observedAt : String → String)
    (store : WatcherStore) (visits : List String) (summary : ReconcileSummary)
    (store' : WatcherStore) : Prop where
  fold : ∃ caught, visits.foldlM (visit runtime eventLimitPerWatcher observedAt) (.empty, store) =
      .ok (summary, caught) ∧
    store' = { caught with scanCursor := visits.getLast?.or caught.scanCursor }
  count : summary.watcherCount = visits.length

/-- The visits of the sweep while the events happen. -/
def WatcherSystem.visits : WatcherSystem → List WatcherEvent → List String
  | _, [] => []
  | system, event :: events =>
      event.visits runtime system.store ++ (system.after runtime event).visits events

/-- A watcher is attached before every one of the events and after the last one. -/
def WatcherSystem.StaysAttached (watcherId : String) : WatcherSystem → List WatcherEvent → Prop
  | system, [] => watcherId ∈ system.store.attachedIds
  | system, event :: events =>
      watcherId ∈ system.store.attachedIds ∧
        (system.after runtime event).StaysAttached watcherId events

instance decidableStaysAttached (watcherId : String) :
    (system : WatcherSystem) → (events : List WatcherEvent) →
      Decidable (system.StaysAttached runtime watcherId events)
  | system, [] => inferInstanceAs (Decidable (watcherId ∈ system.store.attachedIds))
  | system, event :: events =>
      have := decidableStaysAttached watcherId (system.after runtime event) events
      inferInstanceAs (Decidable (_ ∧ _))

end Visits

/-- Between two visits of a watcher every other one that stays attached is visited. -/
def Fair (runtime : WatcherRuntime) (system : WatcherSystem) (events : List WatcherEvent) : Prop :=
  ∀ watcherId other, other ≠ watcherId → system.StaysAttached runtime other events →
    ∀ earlier between later, system.visits runtime events =
      earlier ++ watcherId :: (between ++ watcherId :: later) → other ∈ between

/-! ## What moves the cursor -/

/-- The cursor of the scan is where it was, and the ids of the watchers stay different. -/
structure LeavesScan (store store' : WatcherStore) : Prop where
  cursor : store'.scanCursor = store.scanCursor
  ids : (store.watchers.map ChildWatcher.watcherId).Nodup →
    (store'.watchers.map ChildWatcher.watcherId).Nodup

namespace LeavesScan

variable {store store' store'' : WatcherStore}

theorem refl (store : WatcherStore) : LeavesScan store store :=
  ⟨rfl, id⟩

theorem trans (h : LeavesScan store store') (h' : LeavesScan store' store'') :
    LeavesScan store store'' :=
  ⟨h'.cursor.trans h.cursor, fun hids => h'.ids (h.ids hids)⟩

/-- Tables whose watchers are the same. -/
theorem of_watchers (hcursor : store'.scanCursor = store.scanCursor)
    (hwatchers : store'.watchers = store.watchers) : LeavesScan store store' :=
  ⟨hcursor, fun hids => by rwa [hwatchers]⟩

/-- An update that writes no id. -/
theorem update {guard : ChildWatcher → Bool} {set : ChildWatcher → ChildWatcher}
    (hset : ∀ row, guard row = true → (set row).watcherId = row.watcherId) :
    LeavesScan store (updateWatchers guard set store).2 := by
  refine ⟨rfl, fun hids => ?_⟩
  have hsame : (updateRows guard set store.watchers).map ChildWatcher.watcherId =
      store.watchers.map ChildWatcher.watcherId := map_updateRows hset
  exact hsame.symm ▸ hids

end LeavesScan

section Statements

variable {runtime : WatcherRuntime} {store store' : WatcherStore} {watcherId : String}
  {answer : ChildWatcher}

theorem allocate_leavesScan {runId : String} {sequence : Nat}
    (h : allocateDurableRunEventSequence runId store = .ok (sequence, store')) :
    LeavesScan store store' := by
  unfold allocateDurableRunEventSequence at h
  dsimp only at h
  split_ifs at h
  rw [← (ok_pair_inj h).2]
  exact .of_watchers rfl rfl

theorem insertEvent_leavesScan {event : RunTimelineEvent}
    (h : insertEvent event store = .ok store') : LeavesScan store store' := by
  unfold insertEvent at h
  split_ifs at h
  rw [← Except.ok.inj h]
  exact .of_watchers rfl rfl

theorem append_leavesScan {input : AppendInput} {event : RunTimelineEvent}
    (h : append input store = .ok (event, store')) : LeavesScan store store' := by
  obtain ⟨⟨sequence, allocated⟩, hallocate, h⟩ := bind_eq_ok.mp h
  obtain ⟨inserted, hinsert, h⟩ := bind_eq_ok.mp h
  rw [← (ok_pair_inj h).2]
  exact (allocate_leavesScan hallocate).trans (insertEvent_leavesScan hinsert)

theorem projectChildEvents_leavesScan {watcher : ChildWatcher} {observedAt : String}
    {rows notices : List RunTimelineEvent}
    (h : projectChildEvents runtime watcher observedAt rows store = .ok (notices, store')) :
    LeavesScan store store' := by
  induction rows generalizing store notices with
  | nil =>
      rw [← (ok_pair_inj h).2]
      exact .refl store
  | cons row rows ih =>
      rw [projectChildEvents] at h
      split_ifs at h
      · exact ih h
      · exact ih h
      · obtain ⟨⟨sequence, allocated⟩, hallocate, h⟩ := bind_eq_ok.mp h
        obtain ⟨inserted, hinsert, h⟩ := bind_eq_ok.mp h
        obtain ⟨⟨rest, final⟩, hrest, h⟩ := bind_eq_ok.mp h
        obtain ⟨-, rfl⟩ := ok_pair_inj h
        have hnotice := (allocate_leavesScan hallocate).trans (insertEvent_leavesScan hinsert)
        exact hnotice.trans (ih hrest)

theorem catchUpWatcher_leavesScan {observedAt : String} {limit : Int} {result : CatchUpResult}
    (h : catchUpWatcher runtime watcherId limit observedAt store = .ok (result, store')) :
    LeavesScan store store' := by
  obtain ⟨watcher, -, h⟩ := bind_eq_ok.mp h
  split at h
  · rw [← (ok_pair_inj h).2]
    exact .refl store
  · dsimp only at h
    split at h
    · rw [← (ok_pair_inj h).2]
      exact .refl store
    · obtain ⟨⟨notices, projected⟩, hproject, h⟩ := bind_eq_ok.mp h
      dsimp only at h
      obtain ⟨-, h⟩ := guard_eq_ok.mp h
      obtain ⟨refreshed, -, h⟩ := bind_eq_ok.mp h
      rw [← (ok_pair_inj h).2]
      exact (projectChildEvents_leavesScan hproject).trans (.update fun _ _ => rfl)

theorem catchUpWatcherRows_leavesScan {eventLimit : Int} {observedAt : String → String}
    {ids : List String} {summary final : ReconcileSummary}
    (h : catchUpWatcherRows runtime eventLimit observedAt ids summary store =
      .ok (final, store')) :
    LeavesScan store store' := by
  induction ids generalizing store summary with
  | nil =>
      rw [← (ok_pair_inj h).2]
      exact .refl store
  | cons watcherId ids ih =>
      obtain ⟨⟨result, middle⟩, hfirst, hrest⟩ := bind_eq_ok.mp h
      exact (catchUpWatcher_leavesScan hfirst).trans (ih hrest)

theorem Controls.leavesScan (h : Controls watcherId store store') : LeavesScan store store' := by
  cases h with
  | unchanged => exact .refl store
  | updated hguard => exact .update fun row hselected => (hguard row hselected).2.watcherId

/-- A new watcher gets an id that no other one has. -/
theorem insertWatcher_leavesScan {row : ChildWatcher} (h : insertWatcher row store = .ok store') :
    LeavesScan store store' := by
  unfold insertWatcher at h
  split_ifs at h with hpair hid
  · rw [← Except.ok.inj h]
    exact .refl store
  · rw [← Except.ok.inj h]
    refine ⟨rfl, fun hids => ?_⟩
    rw [List.map_append, List.map_cons, List.map_nil, List.nodup_append]
    refine ⟨hids, List.nodup_singleton _, ?_⟩
    intro other hother new hnew heq
    obtain ⟨existing, hexisting, rfl⟩ := List.mem_map.mp hother
    rw [List.mem_singleton.mp hnew] at heq
    exact hid (List.any_eq_true.mpr ⟨existing, hexisting, decide_eq_true heq⟩)

theorem create_leavesScan {input : CreateInput}
    (h : create runtime input store = .ok (answer, store')) : LeavesScan store store' := by
  obtain ⟨_, -, h⟩ := bind_eq_ok.mp h
  obtain ⟨-, h⟩ := guard_eq_ok.mp h
  iterate 3 obtain ⟨_, -, h⟩ := bind_eq_ok.mp h
  split at h
  · rw [← (ok_pair_inj h).2]
    exact .refl store
  · obtain ⟨-, h⟩ := guard_eq_ok.mp h
    obtain ⟨inserted, hinsert, h⟩ := bind_eq_ok.mp h
    obtain ⟨found, -, h⟩ := bind_eq_ok.mp h
    split at h
    · rw [← (ok_pair_inj h).2]
      exact insertWatcher_leavesScan hinsert
    · cases h

end Statements

/-! ## One event -/

/-- The scan goes on behind the cursor, and no two watchers have one id. -/
structure ScansFrom (cursor : String) (store : WatcherStore) : Prop where
  cursor : store.scanCursor = some cursor
  ids : (store.watchers.map ChildWatcher.watcherId).Nodup

/-- The cursor after some visits. -/
def cursorAfter (cursor : String) (visits : List String) : String :=
  visits.getLast?.getD cursor

section Calls

variable {runtime : WatcherRuntime} {store store' : WatcherStore} {cursor : String}

theorem LeavesScan.scansFrom (h : LeavesScan store store') (hscans : ScansFrom cursor store) :
    ScansFrom cursor store' :=
  ⟨h.cursor.trans hscans.cursor, h.ids hscans.ids⟩

theorem ScansFrom.getScanCursor (hscans : ScansFrom cursor store) :
    getScanCursorForUpdate store = .ok cursor := by
  unfold getScanCursorForUpdate
  rw [hscans.cursor]
  rfl

theorem catchUpWatcherRows_eq_foldlM (eventLimit : Int) (observedAt : String → String)
    (rows : List String) (summary : ReconcileSummary) (store : WatcherStore) :
    catchUpWatcherRows runtime eventLimit observedAt rows summary store =
      rows.foldlM (visit runtime eventLimit observedAt) (summary, store) := by
  induction rows generalizing summary store with
  | nil => rfl
  | cons watcherId rows ih =>
      rw [catchUpWatcherRows, List.foldlM_cons, visit]
      cases catchUpWatcher runtime watcherId eventLimit (observedAt watcherId) store with
      | error error => rfl
      | ok result => exact ih _ _

/-- Every row is visited where no visit throws. -/
theorem visitRows_eq (eventLimit : Int) (observedAt : String → String) (rows : List String)
    (state : ReconcileSummary × WatcherStore) :
    visitRows runtime eventLimit observedAt rows state =
      Prod.mk rows <$> rows.foldlM (visit runtime eventLimit observedAt) state := by
  induction rows generalizing state with
  | nil => rfl
  | cons watcherId rows ih =>
      rw [visitRows, List.foldlM_cons]
      cases visit runtime eventLimit observedAt state watcherId with
      | error error => rfl
      | ok next =>
          dsimp only [bind, Except.bind]
          rw [ih next]
          cases rows.foldlM (visit runtime eventLimit observedAt) next with
          | error error => rfl
          | ok final => rfl

/-- Every visit counts. -/
theorem watcherCount_foldlM {eventLimit : Int} {observedAt : String → String}
    {rows : List String} {state : ReconcileSummary × WatcherStore}
    {summary : ReconcileSummary}
    (h : rows.foldlM (visit runtime eventLimit observedAt) state = .ok (summary, store')) :
    summary.watcherCount = state.1.watcherCount + rows.length := by
  induction rows generalizing state with
  | nil =>
      obtain rfl := Except.ok.inj h
      rfl
  | cons watcherId rows ih =>
      rw [List.foldlM_cons] at h
      obtain ⟨next, hnext, h⟩ := bind_eq_ok.mp h
      obtain ⟨caught, -, hresult⟩ := bind_eq_ok.mp hnext
      have hcount : next.1.watcherCount = state.1.watcherCount + 1 := by
        rw [← Except.ok.inj hresult]
        rfl
      rw [ih h, hcount, List.length_cons]
      omega

section Sweep

variable (hscans : ScansFrom cursor store) {watcherLimit eventLimit : Option Int}
  {observedAt : String → String} {summary : ReconcileSummary}
  (h : catchUpAttached runtime watcherLimit eventLimit observedAt store = .ok (summary, store'))

include hscans h

/-- The sweep leaves the cursor at the last watcher that it visited. -/
theorem catchUpAttached_scansFrom :
    ScansFrom (cursorAfter cursor (scanRows runtime cursor
      (clampLimit (watcherLimit.getD 100) 500) store)) store' := by
  obtain ⟨found, hfound, h⟩ := bind_eq_ok.mp h
  rw [hscans.getScanCursor] at hfound
  obtain rfl := Except.ok.inj hfound
  obtain ⟨⟨final, caught⟩, hrows, h⟩ := bind_eq_ok.mp h
  have hleaves := (catchUpWatcherRows_leavesScan hrows).scansFrom hscans
  unfold cursorAfter
  dsimp only at h
  split at h
  · rename_i last hlast
    rw [← (ok_pair_inj h).2, hlast]
    exact ⟨rfl, hleaves.ids⟩
  · rename_i hnone
    rw [← (ok_pair_inj h).2, hnone]
    exact hleaves

theorem visits_catchUpAttached :
    (WatcherEvent.call (.catchUpAttached watcherLimit eventLimit observedAt)).visits runtime
        store =
      scanRows runtime cursor (clampLimit (watcherLimit.getD 100) 500) store := by
  obtain ⟨found, hfound, h⟩ := bind_eq_ok.mp h
  rw [hscans.getScanCursor] at hfound
  obtain rfl := Except.ok.inj hfound
  obtain ⟨final, hrows, -⟩ := bind_eq_ok.mp h
  rw [catchUpWatcherRows_eq_foldlM] at hrows
  dsimp only [WatcherEvent.visits, visitAttached]
  rw [hscans.getScanCursor]
  dsimp only [bind, Except.bind]
  rw [visitRows_eq, hrows]
  rfl

/-- The visits are what the call has done. -/
theorem visited_catchUpAttached :
    Visited runtime (eventLimit.getD 100) observedAt store
      ((WatcherEvent.call (.catchUpAttached watcherLimit eventLimit observedAt)).visits runtime
        store) summary store' := by
  rw [visits_catchUpAttached hscans h]
  obtain ⟨found, hfound, h⟩ := bind_eq_ok.mp h
  rw [hscans.getScanCursor] at hfound
  obtain rfl := Except.ok.inj hfound
  obtain ⟨⟨final, caught⟩, hrows, h⟩ := bind_eq_ok.mp h
  rw [catchUpWatcherRows_eq_foldlM] at hrows
  dsimp only at h
  split at h
  · rename_i last hlast
    obtain ⟨rfl, rfl⟩ := ok_pair_inj h
    refine ⟨⟨caught, hrows, by rw [hlast]; rfl⟩, ?_⟩
    exact (watcherCount_foldlM hrows).trans (Nat.zero_add _)
  · rename_i hnone
    obtain ⟨rfl, rfl⟩ := ok_pair_inj h
    refine ⟨⟨caught, hrows, by rw [hnone]; rfl⟩, ?_⟩
    exact (watcherCount_foldlM hrows).trans (Nat.zero_add _)

end Sweep

/-- The visits of an event begin behind the cursor, and the cursor moves to the last one. -/
structure SweepsOn (runtime : WatcherRuntime) (cursor : String) (store : WatcherStore)
    (visits : List String) (store' : WatcherStore) : Prop where
  rows : visits = [] ∨ ∃ limit, visits = scanRows runtime cursor limit store
  scans : ScansFrom (cursorAfter cursor visits) store'

theorem LeavesScan.sweepsOn (h : LeavesScan store store') (hscans : ScansFrom cursor store) :
    SweepsOn runtime cursor store [] store' :=
  ⟨.inl rfl, h.scansFrom hscans⟩

/-- The other calls visit nobody and leave the cursor where it is. -/
theorem perform_sweepsOn (hscans : ScansFrom cursor store) {call : WatcherCall}
    (h : call.perform runtime store = .ok store') :
    SweepsOn runtime cursor store ((WatcherEvent.call call).visits runtime store) store' := by
  cases call with
  | createRun runId =>
      rw [WatcherCall.perform] at h
      split_ifs at h
      have hleaves : LeavesScan store store' := by
        rw [← Except.ok.inj h]
        exact .of_watchers rfl rfl
      exact hleaves.sweepsOn hscans
  | append input =>
      obtain ⟨_, h⟩ := map_snd_eq_ok h
      exact (append_leavesScan h).sweepsOn hscans
  | create input =>
      obtain ⟨_, h⟩ := map_snd_eq_ok h
      exact (create_leavesScan h).sweepsOn hscans
  | detach watcherId detachedAt =>
      obtain ⟨_, h⟩ := map_snd_eq_ok h
      exact (detach_controls h).leavesScan.sweepsOn hscans
  | detachIfRevision watcherId parentRunId expectedRevision detachedAt =>
      obtain ⟨_, h⟩ := map_snd_eq_ok h
      refine (transitionIfRevision_controls (by decide) ?_ h).leavesScan.sweepsOn hscans
      exact fun row hopen => controlled_detached detachedAt hopen
  | reattach watcherId reattachedAt =>
      obtain ⟨_, h⟩ := map_snd_eq_ok h
      exact (reattach_controls h).leavesScan.sweepsOn hscans
  | reattachIfRevision watcherId parentRunId expectedRevision reattachedAt =>
      obtain ⟨_, h⟩ := map_snd_eq_ok h
      refine (transitionIfRevision_controls (by decide) ?_ h).leavesScan.sweepsOn hscans
      exact fun row hopen => controlled_reattached reattachedAt hopen
  | claimControlRevision watcherId parentRunId expectedRevision updatedAt =>
      obtain ⟨_, h⟩ := map_snd_eq_ok h
      exact (claimControlRevision_controls h).leavesScan.sweepsOn hscans
  | close watcherId closedAt =>
      obtain ⟨_, h⟩ := map_snd_eq_ok h
      exact (close_controls h).leavesScan.sweepsOn hscans
  | catchUpWatcher watcherId limit observedAt =>
      obtain ⟨_, h⟩ := map_snd_eq_ok h
      exact (catchUpWatcher_leavesScan h).sweepsOn hscans
  | catchUpAttached watcherLimit eventLimit observedAt =>
      obtain ⟨summary, h⟩ := map_snd_eq_ok h
      rw [visits_catchUpAttached hscans h]
      exact ⟨.inr ⟨_, rfl⟩, catchUpAttached_scansFrom hscans h⟩

/-- A call that throws visits nobody. -/
theorem visits_of_error (hscans : ScansFrom cursor store) {call : WatcherCall} {error : String}
    (h : call.perform runtime store = .error error) :
    (WatcherEvent.call call).visits runtime store = [] := by
  cases call with
  | catchUpAttached watcherLimit eventLimit observedAt =>
      rw [WatcherCall.perform, catchUpAttached, hscans.getScanCursor] at h
      dsimp only [bind, Except.bind] at h
      rw [catchUpWatcherRows_eq_foldlM] at h
      dsimp only [WatcherEvent.visits, visitAttached]
      rw [hscans.getScanCursor]
      dsimp only [bind, Except.bind]
      rw [visitRows_eq]
      cases hrows : List.foldlM (visit runtime (eventLimit.getD 100) observedAt)
          (ReconcileSummary.empty, store)
          (scanRows runtime cursor (clampLimit (watcherLimit.getD 100) 500) store) with
      | error error => rfl
      | ok final =>
          rw [hrows] at h
          dsimp only at h
          split at h <;> cases h
  | _ => rfl

theorem after_sweepsOn {system : WatcherSystem} (hscans : ScansFrom cursor system.store)
    (event : WatcherEvent) :
    SweepsOn runtime cursor system.store (event.visits runtime system.store)
      (system.after runtime event).store := by
  have hsame : SweepsOn runtime cursor system.store [] system.store :=
    (LeavesScan.refl system.store).sweepsOn hscans
  cases event with
  | call call =>
      unfold WatcherSystem.after
      dsimp only
      split
      · rename_i store' hresult
        exact perform_sweepsOn hscans hresult
      · rename_i error hresult
        rw [visits_of_error hscans hresult]
        exact hsame
  | catchUpAttachedByChild childRunId watcherLimit eventLimit =>
      unfold WatcherSystem.after
      dsimp only
      split
      · exact hsame
      · exact hsame
  | continueScan index observedAt =>
      have hleaves : LeavesScan system.store
          (system.continueScan runtime index observedAt).store := by
        unfold WatcherSystem.continueScan
        split
        · exact .refl _
        · split
          · exact .refl _
          · split
            · exact .refl _
            · rename_i hresult
              exact catchUpWatcher_leavesScan hresult
      exact hleaves.sweepsOn hscans

end Calls

/-! ## Going round -/

section Rounds

variable {runtime : WatcherRuntime} {store : WatcherStore} {system : WatcherSystem}
  {cursor : String} (order : TextOrder runtime.idLe)

/-- The place of an id in the circle. -/
def placeOf (watcherId : String) : ColumnText order :=
  ⟨watcherId⟩

theorem placeOf_injective : Function.Injective (placeOf order) := by
  intro a b h
  exact congrArg ColumnText.text h

theorem places_distinct (hids : (store.watchers.map ChildWatcher.watcherId).Nodup) :
    store.attachedIds.Pairwise fun a b => placeOf order a ≠ placeOf order b := by
  have hnodup : store.attachedIds.Nodup := hids.sublist (List.filter_sublist.map _)
  exact hnodup.imp fun hne heq => hne (placeOf_injective order heq)

theorem listAttached_eq_inOrder (condition : String → Bool) (limit : Nat) :
    listAttached runtime (fun row => condition row.watcherId) limit store =
      (inOrder (placeOf order) (store.attachedIds.filter condition)).take limit := by
  have hrows : (store.watchers.filter fun row =>
      row.state = .attached ∧ condition row.watcherId = true).map ChildWatcher.watcherId =
        store.attachedIds.filter condition := by
    unfold WatcherStore.attachedIds
    rw [List.filter_map, List.filter_filter]
    apply congrArg
    apply List.filter_congr
    intro row _
    rw [Bool.decide_and, Bool.decide_eq_true, Bool.and_comm]
    rfl
  unfold listAttached inOrder
  rw [hrows]
  rfl

/-- The two queries are the next rows of the circle. -/
theorem scanRows_eq_sweep (limit : Nat) :
    scanRows runtime cursor limit store =
      (sweep (placeOf order) (placeOf order cursor) store.attachedIds).take limit := by
  have hafter : (fun watcherId => !runtime.idLe watcherId cursor) =
      fun watcherId => decide (placeOf order cursor < placeOf order watcherId) := by
    funext watcherId
    rw [Bool.eq_iff_iff, decide_eq_true_iff, ← not_le, Bool.not_eq_true', ← Bool.not_eq_true]
    rfl
  have hthrough : (fun watcherId => runtime.idLe watcherId cursor) =
      fun watcherId => decide (placeOf order watcherId ≤ placeOf order cursor) := by
    funext watcherId
    rw [Bool.eq_iff_iff, decide_eq_true_iff]
    rfl
  unfold scanRows sweep
  dsimp only
  rw [listAttached_eq_inOrder order (fun watcherId => !runtime.idLe watcherId cursor),
    listAttached_eq_inOrder order (fun watcherId => runtime.idLe watcherId cursor), hafter,
    hthrough, List.take_append, List.length_take]
  split
  · rename_i hfew
    rw [min_eq_right (by omega)]
  · rename_i hmany
    rw [Nat.sub_eq_zero_of_le (by omega), List.take_zero, List.append_nil]

/-- No step of a call passes a watcher that is attached. -/
theorem isChain_of_sweepsOn {visits : List String} {store' : WatcherStore}
    (h : SweepsOn runtime cursor store visits store')
    (hids : (store.watchers.map ChildWatcher.watcherId).Nodup) {other : String}
    (hattached : other ∈ store.attachedIds) :
    (cursor :: visits).IsChain fun a b =>
      ¬Passed (placeOf order a) (placeOf order other) (placeOf order b) := by
  obtain rfl | ⟨limit, rfl⟩ := h.rows
  · exact .singleton cursor
  · rw [scanRows_eq_sweep order, ← List.take_succ_cons]
    apply List.IsChain.take
    have hsweep := @isChain_sweep _ _ _ _ (placeOf order cursor) _ _
      (places_distinct order hids) hattached
    rw [← List.map_cons] at hsweep
    exact (List.isChain_map (placeOf order)).mp hsweep

theorem isChain_visits {events : List WatcherEvent} {other : String}
    (hscans : ScansFrom cursor system.store)
    (hstays : system.StaysAttached runtime other events) :
    (cursor :: system.visits runtime events).IsChain fun a b =>
      ¬Passed (placeOf order a) (placeOf order other) (placeOf order b) := by
  induction events generalizing system cursor with
  | nil => exact .singleton cursor
  | cons event events ih =>
      obtain ⟨hattached, hstays⟩ := hstays
      have hsweeps := @after_sweepsOn runtime _ _ hscans event
      exact isChain_cons_append (isChain_of_sweepsOn order hsweeps hscans.ids hattached)
        (ih hsweeps.scans hstays)

theorem scansFrom_initial : ScansFrom "" WatcherSystem.initial.store :=
  ⟨rfl, .nil⟩

theorem fair_of_scansFrom (order : TextOrder runtime.idLe)
    (hscans : ScansFrom cursor system.store) (events : List WatcherEvent) :
    Fair runtime system events := by
  intro watcherId other hne hstays earlier between later hvisits
  have hchain := isChain_visits order hscans hstays
  rw [hvisits] at hchain
  have hround : (watcherId :: (between ++ [watcherId])).IsChain fun a b =>
      ¬Passed (placeOf order a) (placeOf order other) (placeOf order b) := by
    refine hchain.infix ⟨cursor :: earlier, later, ?_⟩
    simp
  have hplaces : ((watcherId :: (between ++ [watcherId])).map (placeOf order)).IsChain
      fun a b => ¬Passed a (placeOf order other) b := (List.isChain_map (placeOf order)).mpr hround
  rw [List.map_cons, List.map_append, List.map_singleton] at hplaces
  have hmem := mem_of_not_passed ((placeOf_injective order).ne hne) hplaces
  exact (List.mem_map_of_injective (placeOf_injective order)).mp hmem

/-- A call visits nobody twice. -/
theorem nodup_visits (hscans : ScansFrom cursor system.store) (event : WatcherEvent) :
    (event.visits runtime system.store).Nodup := by
  obtain hnone | ⟨limit, hrows⟩ := (after_sweepsOn hscans event).rows
  · rw [hnone]
    exact .nil
  · rw [hrows]
    exact nodup_scanRows hscans.ids cursor limit

/-- The sweep starves nobody, in any run of the calls: the visits are what its calls do, no call
visits anybody twice, and no watcher comes up again before the others that stay attached. -/
theorem sweep_starves_nobody (order : TextOrder runtime.idLe) {earlier : List WatcherEvent}
    (hrun : Run (WatcherSystem.Step runtime) .initial earlier system) :
    (∀ event : WatcherEvent, (event.visits runtime system.store).Nodup) ∧
      (∀ watcherLimit eventLimit observedAt summary store',
        catchUpAttached runtime watcherLimit eventLimit observedAt system.store =
            .ok (summary, store') →
          Visited runtime (eventLimit.getD 100) observedAt system.store
            ((WatcherEvent.call (.catchUpAttached watcherLimit eventLimit observedAt)).visits
              runtime system.store) summary store') ∧
      ∀ events, Fair runtime system events := by
  have hscans : ∃ cursor, ScansFrom cursor system.store := by
    refine Run.invariant (I := fun system => ∃ cursor, ScansFrom cursor system.store) ?_ hrun
      ⟨"", scansFrom_initial⟩
    rintro s event s' hstep ⟨cursor, hs⟩
    rw [hstep]
    exact ⟨_, (after_sweepsOn hs event).scans⟩
  obtain ⟨cursor, hscans⟩ := hscans
  exact ⟨nodup_visits hscans, fun _ _ _ _ _ => visited_catchUpAttached hscans,
    fair_of_scansFrom order hscans⟩

/-- A parent that watches three children. -/
def watchedChildren : List WatcherEvent :=
  [.call (.createRun "parent"), .call (.createRun "a"), .call (.createRun "b"),
    .call (.createRun "c"), .call (.create ⟨"1", "parent", "a", none, none, "t0"⟩),
    .call (.create ⟨"2", "parent", "b", none, none, "t0"⟩),
    .call (.create ⟨"3", "parent", "c", none, none, "t0"⟩)]

/-- Two watchers are visited at a time, and the second one is detached in between. -/
def detachedBetweenCalls : List WatcherEvent :=
  [.call (.catchUpAttached (some 2) none fun _ => "t1"), .call (.detach "2" "t2"),
    .call (.catchUpAttached (some 2) none fun _ => "t3")]

theorem third_child_not_starved :
    (WatcherSystem.initial.afterAll plainRuntime watchedChildren).visits plainRuntime
        detachedBetweenCalls = ["1", "2", "3", "1"] ∧ "3" ∈ ["2", "3"] := by
  have hvisits : (WatcherSystem.initial.afterAll plainRuntime watchedChildren).visits plainRuntime
      detachedBetweenCalls = ["1", "2", "3", "1"] := by decide +kernel
  have horder : TextOrder plainRuntime.idLe := ⟨utf16Le_total, utf16Le_trans,
    fun _ _ => utf16Le_antisymm⟩
  have hfair := (sweep_starves_nobody horder (run_afterAll watchedChildren .initial)).2.2
  refine ⟨hvisits, hfair detachedBetweenCalls "1" "3" (by decide) ?_ [] ["2", "3"] [] hvisits⟩
  decide +kernel

end Rounds

end GoatCitadel.Storage.ChildWatchers
