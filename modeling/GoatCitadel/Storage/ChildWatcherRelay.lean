import GoatCitadel.Storage.ChildWatchers
import GoatCitadel.Support.Runs
import GoatCitadel.Support.Separated

/-!
# What watchers relay

Events are only added to a timeline, under a sequence after all it has, and the cursor of
a watcher only moves to the sequence of an event that is there.  So the notices of a
watcher are the events of its child up to the cursor at every moment.  The watchers that
are not closed form no cycle, since only a creation adds one of them.
-/

namespace GoatCitadel.Storage.ChildWatchers

open GoatCitadel.Support
open GoatCitadel.Policy (JsonObject JsonValue)

/-! ## Notices -/

/-- A member of a payload. -/
def member (key : String) (payload : JsonObject) : Option JsonValue :=
  (payload.find? fun field => field.1 = key).map Prod.snd

/-- The watcher whose id a payload carries. -/
def carriedWatcherId (payload : JsonObject) : Option String :=
  (member "watcherId" payload).bind JsonValue.asString?

/-- The notices in the timeline of its parent that carry the id of a watcher. -/
def noticesOf (events : List RunTimelineEvent) (watcher : ChildWatcher) :
    List RunTimelineEvent :=
  (timeline watcher.parentRunId events).filter fun event =>
    event.eventType = .childStateChanged ∧
      carriedWatcherId event.payload = some watcher.watcherId

/-- The projectable events of the child up to the cursor of a watcher. -/
def consumedEvents (events : List RunTimelineEvent) (watcher : ChildWatcher) :
    List RunTimelineEvent :=
  (timeline watcher.childRunId events).filter fun event =>
    isProjectableChildEvent event.eventType ∧ event.sequence ≤ watcher.lastConsumedSequence

/-- What a notice says of the event that it is about. -/
structure RelayedEvent where
  childEventId : Option JsonValue
  childSequence : Option JsonValue
  childEventType : Option JsonValue

def RunTimelineEvent.relayed (notice : RunTimelineEvent) : RelayedEvent where
  childEventId := member "childEventId" notice.payload
  childSequence := member "childSequence" notice.payload
  childEventType := member "childEventType" notice.payload

def RunTimelineEvent.described (event : RunTimelineEvent) : RelayedEvent where
  childEventId := some (.string event.eventId)
  childSequence := some (jsonCount event.sequence)
  childEventType := some (.string event.eventType.text)

/-- The sequences of every run increase in the order of the inserts. -/
def Increasing (events : List RunTimelineEvent) : Prop :=
  events.Pairwise fun a b => a.runId = b.runId → a.sequence < b.sequence

/-- An event of the type of the notices, or under the id of one. -/
def IsNotice (runtime : WatcherRuntime) (event : RunTimelineEvent) : Prop :=
  event.eventType = .childStateChanged ∨
    ∃ watcherId childSequence,
      event.eventId = buildChildNoticeEventId runtime watcherId childSequence

/-- The notice of a watcher about one of the events that it has consumed. -/
def RelayedBy (runtime : WatcherRuntime) (event : RunTimelineEvent) (watcher : ChildWatcher) :
    Prop :=
  event.runId = watcher.parentRunId ∧
    carriedWatcherId event.payload = some watcher.watcherId ∧
    ∃ childSequence ≤ watcher.lastConsumedSequence,
      event.eventId = buildChildNoticeEventId runtime watcher.watcherId childSequence

/-- What is true of the tables at every moment. -/
structure Sound (runtime : WatcherRuntime) (events : List RunTimelineEvent)
    (watchers : List ChildWatcher) : Prop where
  increasing : Increasing events
  positive : ∀ event ∈ events, 1 ≤ event.sequence
  ids : (watchers.map ChildWatcher.watcherId).Nodup
  pairs : (watchers.map fun row => (row.parentRunId, row.childRunId)).Nodup
  acyclic : Acyclic fun a b => (a, b) ∈ watches watchers
  next : ∀ row ∈ watchers, row.nextSequence = row.lastConsumedSequence + 1
  reached : ∀ row ∈ watchers, row.lastConsumedSequence = 0 ∨
    ∃ event ∈ timeline row.childRunId events, event.sequence = row.lastConsumedSequence
  relays : ∀ row ∈ watchers, (noticesOf events row).map RunTimelineEvent.relayed =
    (consumedEvents events row).map RunTimelineEvent.described
  counts : ∀ row ∈ watchers, row.projectedNoticeCount = (noticesOf events row).length
  origin : ∀ event ∈ events, IsNotice runtime event →
    ∃ row ∈ watchers, RelayedBy runtime event row

section Ids

variable {runtime : WatcherRuntime}

/-- The text whose digest names a notice ends at the last separator. -/
theorem noticeKey_injective {a b : String} {n m : Nat}
    (h : a ++ "\x00" ++ toString n = b ++ "\x00" ++ toString m) : a = b ∧ n = m := by
  have hdigits : ∀ k : Nat, '\x00' ∉ (toString k).toList.reverse := by
    intro k hmem
    exact absurd (isDigit_of_mem_toString (List.mem_reverse.mp hmem)) (by decide)
  have hchars := congrArg (fun text => text.toList.reverse) h
  simp only [String.toList_append, List.reverse_append] at hchars
  obtain ⟨hnumber, hrest⟩ := append_cancel_of_not_mem (hdigits n) (hdigits m)
    (fun c tail hc => (List.cons.inj hc).1.symm) (fun c tail hc => (List.cons.inj hc).1.symm)
    hchars
  refine ⟨?_, ?_⟩
  · exact String.toList_inj.mp (List.reverse_inj.mp (List.cons.inj hrest).2)
  · exact toString_nat_injective (String.toList_inj.mp (List.reverse_inj.mp hnumber))

theorem buildChildNoticeEventId_injective (hsha : Function.Injective runtime.sha256Hex)
    {a b : String} {n m : Nat}
    (h : buildChildNoticeEventId runtime a n = buildChildNoticeEventId runtime b m) :
    a = b ∧ n = m := by
  unfold buildChildNoticeEventId at h
  have hdigest := String.append_right_inj _ |>.mp h
  exact noticeKey_injective (hsha hdigest)

end Ids

/-! ## Timelines that grow -/

section Growth

variable {events more : List RunTimelineEvent} {watcher : ChildWatcher}

theorem timeline_append (runId : String) :
    timeline runId (events ++ more) = timeline runId events ++ timeline runId more :=
  List.filter_append _ _

theorem noticesOf_append :
    noticesOf (events ++ more) watcher = noticesOf events watcher ++ noticesOf more watcher := by
  unfold noticesOf
  rw [timeline_append, List.filter_append]

theorem consumedEvents_append :
    consumedEvents (events ++ more) watcher =
      consumedEvents events watcher ++ consumedEvents more watcher := by
  unfold consumedEvents
  rw [timeline_append, List.filter_append]

theorem timeline_increasing (h : Increasing events) (runId : String) :
    (timeline runId events).Pairwise fun a b => a.sequence < b.sequence := by
  have hrows := h.sublist (List.filter_sublist (p := fun event => event.runId = runId))
  refine hrows.imp_of_mem ?_
  intro a b ha hb hab
  have harun : a.runId = runId := by simpa using (List.mem_filter.mp ha).2
  have hbrun : b.runId = runId := by simpa using (List.mem_filter.mp hb).2
  exact hab (harun.trans hbrun.symm)

theorem mem_timeline {runId : String} {event : RunTimelineEvent} :
    event ∈ timeline runId events ↔ event ∈ events ∧ event.runId = runId := by
  simp [timeline]

/-- Later events of a run lie after its earlier ones. -/
theorem lt_of_increasing_append (h : Increasing (events ++ more)) {a b : RunTimelineEvent}
    (ha : a ∈ events) (hb : b ∈ more) (hrun : a.runId = b.runId) : a.sequence < b.sequence :=
  (List.pairwise_append.mp h).2.2 a ha b hb hrun

end Growth

namespace Sound

variable {runtime : WatcherRuntime} {events more : List RunTimelineEvent}
  {watchers : List ChildWatcher} {row : ChildWatcher}

/-- Events that are added lie after the cursor of every watcher. -/
theorem consumedEvents_grow (h : Sound runtime events watchers)
    (hincreasing : Increasing (events ++ more)) (hpositive : ∀ event ∈ more, 1 ≤ event.sequence)
    (hrow : row ∈ watchers) : consumedEvents (events ++ more) row = consumedEvents events row := by
  have hnone : consumedEvents more row = [] := by
    unfold consumedEvents
    rw [List.filter_eq_nil_iff]
    intro event hevent
    obtain ⟨hmem, hrun⟩ := mem_timeline.mp hevent
    have hafter : row.lastConsumedSequence < event.sequence := by
      obtain hzero | ⟨last, hlast, hsequence⟩ := h.reached row hrow
      · rw [hzero]
        exact hpositive event hmem
      · obtain ⟨hlastMem, hlastRun⟩ := mem_timeline.mp hlast
        rw [← hsequence]
        exact lt_of_increasing_append hincreasing hlastMem hmem (hlastRun.trans hrun.symm)
    simp [hafter]
  rw [consumedEvents_append, hnone, List.append_nil]

theorem reached_grow (h : Sound runtime events watchers) (hrow : row ∈ watchers) :
    row.lastConsumedSequence = 0 ∨
      ∃ event ∈ timeline row.childRunId (events ++ more),
        event.sequence = row.lastConsumedSequence := by
  refine (h.reached row hrow).imp_right ?_
  rintro ⟨event, hevent, hsequence⟩
  rw [timeline_append]
  exact ⟨event, List.mem_append_left _ hevent, hsequence⟩

/-- An event that is not a notice is appended. -/
theorem append {event : RunTimelineEvent} (h : Sound runtime events watchers)
    (hafter : ∀ other ∈ timeline event.runId events, other.sequence < event.sequence)
    (hpositive : 1 ≤ event.sequence) (hordinary : ¬IsNotice runtime event) :
    Sound runtime (events ++ [event]) watchers := by
  have hincreasing : Increasing (events ++ [event]) := by
    refine List.pairwise_append.mpr ⟨h.increasing, List.pairwise_singleton _ _, ?_⟩
    intro other hother new hnew hrun
    rw [List.mem_singleton.mp hnew] at hrun ⊢
    exact hafter other (mem_timeline.mpr ⟨hother, hrun⟩)
  have hconsumed : ∀ row ∈ watchers,
      consumedEvents (events ++ [event]) row = consumedEvents events row := by
    intro row hrow
    refine h.consumedEvents_grow hincreasing ?_ hrow
    intro new hnew
    rw [List.mem_singleton.mp hnew]
    exact hpositive
  have hnotices : ∀ row, noticesOf (events ++ [event]) row = noticesOf events row := by
    intro row
    have hnone : noticesOf [event] row = [] := by
      unfold noticesOf
      rw [List.filter_eq_nil_iff]
      intro new hnew
      rw [List.mem_singleton.mp (mem_timeline.mp hnew).1]
      have htype : event.eventType ≠ .childStateChanged := fun htype => hordinary (Or.inl htype)
      simp [htype]
    rw [noticesOf_append, hnone, List.append_nil]
  refine ⟨hincreasing, ?_, h.ids, h.pairs, h.acyclic, h.next, ?_, ?_, ?_, ?_⟩
  · exact forall_mem_append_singleton h.positive hpositive
  · intro row hrow
    exact h.reached_grow hrow
  · intro row hrow
    rw [hnotices, hconsumed row hrow]
    exact h.relays row hrow
  · intro row hrow
    rw [hnotices]
    exact h.counts row hrow
  · exact forall_mem_append_singleton h.origin fun hnotice => absurd hnotice hordinary

/-- Nothing in the timelines carries the id of a watcher that does not exist. -/
theorem noticesOf_new (h : Sound runtime events watchers)
    (hnew : ∀ other ∈ watchers, other.watcherId ≠ row.watcherId) : noticesOf events row = [] := by
  unfold noticesOf
  rw [List.filter_eq_nil_iff]
  intro event hevent hnotice
  obtain ⟨htype, hcarried⟩ := of_decide_eq_true hnotice
  obtain ⟨other, hother, -, hother', -⟩ :=
    h.origin event (mem_timeline.mp hevent).1 (Or.inl htype)
  exact hnew other hother (Option.some.inj (hother'.symm.trans hcarried))

/-- A watcher is created between runs that no path leads back from. -/
theorem create {input : CreateInput} (h : Sound runtime events watchers)
    (hid : ∀ other ∈ watchers, other.watcherId ≠ input.watcherId)
    (hpair : ∀ other ∈ watchers,
      (other.parentRunId, other.childRunId) ≠ (input.parentRunId, input.childRunId))
    (hne : input.parentRunId ≠ input.childRunId)
    (hpath : ¬Relation.TransGen (fun a b => (a, b) ∈ watches watchers) input.childRunId
      input.parentRunId) :
    Sound runtime events (watchers ++ [input.toRow]) := by
  have hnotices : noticesOf events input.toRow = [] := h.noticesOf_new hid
  have hconsumed : consumedEvents events input.toRow = [] := by
    unfold consumedEvents
    rw [List.filter_eq_nil_iff]
    intro event hevent
    have hpositive := h.positive event (mem_timeline.mp hevent).1
    have hlast : input.toRow.lastConsumedSequence = 0 := rfl
    rw [hlast]
    simp only [decide_eq_true_eq]
    omega
  refine ⟨h.increasing, h.positive, nodup_map_append_singleton h.ids hid,
    nodup_map_append_singleton h.pairs hpair, ?_, ?_, ?_, ?_, ?_, ?_⟩
  · refine (h.acyclic.add_edge hne hpath).mono ?_
    intro a b hedge
    simp only [watches, List.mem_map, List.mem_filter, List.mem_append, List.mem_singleton,
      Prod.mk.injEq] at hedge ⊢
    obtain ⟨other, ⟨hother | rfl, hopen⟩, rfl, rfl⟩ := hedge
    · exact Or.inl ⟨other, ⟨hother, hopen⟩, rfl, rfl⟩
    · exact Or.inr ⟨rfl, rfl⟩
  · exact forall_mem_append_singleton h.next rfl
  · exact forall_mem_append_singleton h.reached (Or.inl rfl)
  · apply forall_mem_append_singleton h.relays
    rw [hnotices, hconsumed]
    rfl
  · apply forall_mem_append_singleton h.counts
    rw [hnotices]
    rfl
  · intro event hevent hnotice
    obtain ⟨other, hother, horigin⟩ := h.origin event hevent hnotice
    exact ⟨other, List.mem_append_left _ hother, horigin⟩

end Sound

/-! ## Watchers that are controlled -/

/-- What a control statement leaves of a watcher. -/
structure Controlled (row row' : ChildWatcher) : Prop where
  watcherId : row'.watcherId = row.watcherId
  parentRunId : row'.parentRunId = row.parentRunId
  childRunId : row'.childRunId = row.childRunId
  nextSequence : row'.nextSequence = row.nextSequence
  lastConsumedSequence : row'.lastConsumedSequence = row.lastConsumedSequence
  projectedNoticeCount : row'.projectedNoticeCount = row.projectedNoticeCount
  revision : row'.revision = row.revision + 1
  closed : row.state = .closed → row'.state = .closed

section Control

variable {runtime : WatcherRuntime} {events : List RunTimelineEvent}
  {watchers : List ChildWatcher} {guard : ChildWatcher → Bool}
  {set : ChildWatcher → ChildWatcher} {row row' : ChildWatcher}

theorem Controlled.noticesOf (h : Controlled row row') :
    noticesOf events row' = noticesOf events row := by
  unfold ChildWatchers.noticesOf
  rw [h.parentRunId, h.watcherId]

theorem Controlled.consumedEvents (h : Controlled row row') :
    consumedEvents events row' = consumedEvents events row := by
  unfold ChildWatchers.consumedEvents
  rw [h.childRunId, h.lastConsumedSequence]

/-- A control statement keeps what is true of the tables. -/
theorem Sound.control (h : Sound runtime events watchers)
    (hset : ∀ row, guard row = true → Controlled row (set row)) :
    Sound runtime events (updateRows guard set watchers) := by
  have hrows : ∀ row' ∈ updateRows guard set watchers, ∃ row ∈ watchers,
      row' = row ∨ Controlled row row' := by
    intro row' hrow'
    obtain ⟨row, hrow, rfl⟩ := mem_updateRows.mp hrow'
    refine ⟨row, hrow, ?_⟩
    split
    · rename_i hguard
      exact Or.inr (hset row hguard)
    · exact Or.inl rfl
  refine ⟨h.increasing, h.positive, ?_, ?_, ?_, ?_, ?_, ?_, ?_, ?_⟩
  · rw [map_updateRows fun row hguard => (hset row hguard).watcherId]
    exact h.ids
  · rw [map_updateRows fun row hguard => by
      rw [(hset row hguard).parentRunId, (hset row hguard).childRunId]]
    exact h.pairs
  · refine h.acyclic.mono ?_
    intro a b hedge
    simp only [watches, List.mem_map, List.mem_filter, decide_eq_true_eq] at hedge ⊢
    obtain ⟨row', ⟨hrow', hopen⟩, hpair⟩ := hedge
    obtain ⟨row, hrow, rfl | hcontrolled⟩ := hrows row' hrow'
    · exact ⟨row', ⟨hrow, hopen⟩, hpair⟩
    · refine ⟨row, ⟨hrow, fun hclosed => hopen (hcontrolled.closed hclosed)⟩, ?_⟩
      rw [← hcontrolled.parentRunId, ← hcontrolled.childRunId]
      exact hpair
  · intro row' hrow'
    obtain ⟨row, hrow, rfl | hcontrolled⟩ := hrows row' hrow'
    · exact h.next row' hrow
    · rw [hcontrolled.nextSequence, hcontrolled.lastConsumedSequence]
      exact h.next row hrow
  · intro row' hrow'
    obtain ⟨row, hrow, rfl | hcontrolled⟩ := hrows row' hrow'
    · exact h.reached row' hrow
    · rw [hcontrolled.childRunId, hcontrolled.lastConsumedSequence]
      exact h.reached row hrow
  · intro row' hrow'
    obtain ⟨row, hrow, rfl | hcontrolled⟩ := hrows row' hrow'
    · exact h.relays row' hrow
    · rw [hcontrolled.noticesOf, hcontrolled.consumedEvents]
      exact h.relays row hrow
  · intro row' hrow'
    obtain ⟨row, hrow, rfl | hcontrolled⟩ := hrows row' hrow'
    · exact h.counts row' hrow
    · rw [hcontrolled.noticesOf, hcontrolled.projectedNoticeCount]
      exact h.counts row hrow
  · intro event hevent hnotice
    obtain ⟨row, hrow, hrun, hcarried, sequence, hle, hid⟩ := h.origin event hevent hnotice
    refine ⟨if guard row = true then set row else row, mem_updateRows.mpr ⟨row, hrow, rfl⟩, ?_⟩
    split
    · rename_i hguard
      have hcontrolled := hset row hguard
      unfold RelayedBy
      rw [hcontrolled.parentRunId, hcontrolled.watcherId, hcontrolled.lastConsumedSequence]
      exact ⟨hrun, hcarried, sequence, hle, hid⟩
    · exact ⟨hrun, hcarried, sequence, hle, hid⟩

end Control

/-! ## Watchers that catch up -/

/-- The notice of a watcher about an event of its child. -/
structure NoticeAbout (runtime : WatcherRuntime) (watcher : ChildWatcher) (observedAt : String)
    (row notice : RunTimelineEvent) : Prop where
  eventId : notice.eventId = buildChildNoticeEventId runtime watcher.watcherId row.sequence
  runId : notice.runId = watcher.parentRunId
  eventType : notice.eventType = .childStateChanged
  payload : notice.payload = childStateChangedPayload runtime watcher row observedAt

section CatchUp

variable {runtime : WatcherRuntime} {events rows notices : List RunTimelineEvent}
  {watchers : List ChildWatcher} {watcher row : ChildWatcher} {observedAt : String}
  {event notice last : RunTimelineEvent}

theorem NoticeAbout.carries (h : NoticeAbout runtime watcher observedAt event notice) :
    carriedWatcherId notice.payload = some watcher.watcherId := by
  rw [h.payload]
  rfl

theorem NoticeAbout.relayed (h : NoticeAbout runtime watcher observedAt event notice) :
    notice.relayed = event.described := by
  unfold RunTimelineEvent.relayed
  rw [h.payload]
  rfl

theorem exists_of_mem_notices
    (h : List.Forall₂ (NoticeAbout runtime watcher observedAt) rows notices)
    (hnotice : notice ∈ notices) :
    ∃ row ∈ rows, NoticeAbout runtime watcher observedAt row notice := by
  induction h with
  | nil => exact absurd hnotice List.not_mem_nil
  | cons hhead _ ih =>
      obtain rfl | htail := List.mem_cons.mp hnotice
      · exact ⟨_, List.mem_cons_self, hhead⟩
      · obtain ⟨row, hrow, habout⟩ := ih htail
        exact ⟨row, List.mem_cons_of_mem _ hrow, habout⟩

theorem relayed_eq_described
    (h : List.Forall₂ (NoticeAbout runtime watcher observedAt) rows notices) :
    notices.map RunTimelineEvent.relayed = rows.map RunTimelineEvent.described := by
  induction h with
  | nil => rfl
  | cons hhead _ ih => rw [List.map_cons, List.map_cons, hhead.relayed, ih]

/-- Notices are not relayed further. -/
theorem consumedEvents_notices
    (h : List.Forall₂ (NoticeAbout runtime watcher observedAt) rows notices) :
    consumedEvents (events ++ notices) row = consumedEvents events row := by
  have hnone : consumedEvents notices row = [] := by
    unfold consumedEvents
    rw [List.filter_eq_nil_iff]
    intro notice hnotice
    obtain ⟨event, -, habout⟩ := exists_of_mem_notices h (mem_timeline.mp hnotice).1
    simp [habout.eventType, isProjectableChildEvent]
  rw [consumedEvents_append, hnone, List.append_nil]

/-- The notices of a batch are notices of its watcher. -/
theorem noticesOf_own (h : List.Forall₂ (NoticeAbout runtime watcher observedAt) rows notices)
    (hid : row.watcherId = watcher.watcherId) (hparent : row.parentRunId = watcher.parentRunId) :
    noticesOf (events ++ notices) row = noticesOf events row ++ notices := by
  have hall : noticesOf notices row = notices := by
    unfold noticesOf timeline
    rw [List.filter_filter, List.filter_eq_self]
    intro notice hnotice
    obtain ⟨event, -, habout⟩ := exists_of_mem_notices h hnotice
    simp [habout.eventType, habout.carries, habout.runId, hid, hparent]
  rw [noticesOf_append, hall]

/-- They are notices of no other watcher. -/
theorem noticesOf_other (h : List.Forall₂ (NoticeAbout runtime watcher observedAt) rows notices)
    (hid : row.watcherId ≠ watcher.watcherId) :
    noticesOf (events ++ notices) row = noticesOf events row := by
  have hnone : noticesOf notices row = [] := by
    unfold noticesOf
    rw [List.filter_eq_nil_iff]
    intro notice hnotice
    obtain ⟨event, -, habout⟩ := exists_of_mem_notices h (mem_timeline.mp hnotice).1
    simp [habout.carries, hid.symm]
  rw [noticesOf_append, hnone, List.append_nil]

/-- The rows after the update of one watcher. -/
theorem mem_updateRows_one {guard : ChildWatcher → Bool} {set : ChildWatcher → ChildWatcher}
    {row' : ChildWatcher} (hguard : ∀ row ∈ watchers, guard row = true ↔ row = watcher)
    (h : row' ∈ updateRows guard set watchers) :
    row' = set watcher ∨ (row' ∈ watchers ∧ row' ≠ watcher) := by
  obtain ⟨row, hrow, rfl⟩ := mem_updateRows.mp h
  by_cases hselected : guard row = true
  · rw [if_pos hselected, (hguard row hrow).mp hselected]
    exact Or.inl rfl
  · rw [if_neg hselected]
    exact Or.inr ⟨hrow, fun heq => hselected ((hguard row hrow).mpr heq)⟩

/-- The events up to the end of a batch are the ones before it and the batch. -/
theorem consumedEvents_caughtUp {page : List RunTimelineEvent} {count : Nat}
    (hpage : ((timeline watcher.childRunId events).filter fun event =>
        event.sequence ≤ last.sequence) =
      ((timeline watcher.childRunId events).filter fun event =>
        event.sequence ≤ watcher.lastConsumedSequence) ++ page) :
    consumedEvents events (watcher.caughtUp last.sequence count observedAt) =
      consumedEvents events watcher ++
        page.filter fun event => isProjectableChildEvent event.eventType := by
  have hcut : ∀ row : ChildWatcher, consumedEvents events row =
      ((timeline row.childRunId events).filter fun event =>
        event.sequence ≤ row.lastConsumedSequence).filter
          fun event => isProjectableChildEvent event.eventType := by
    intro row
    unfold consumedEvents
    rw [List.filter_filter]
    apply List.filter_congr
    intro event _
    simp
  rw [hcut, hcut]
  change ((timeline watcher.childRunId events).filter fun event =>
    event.sequence ≤ last.sequence).filter _ = _
  rw [hpage, List.filter_append]

/-- A batch is relayed, and the cursor moves to its end. -/
theorem Sound.catchUp {limit : Nat} {guard : ChildWatcher → Bool}
    (h : Sound runtime events watchers) (hwatcher : watcher ∈ watchers)
    (hlast : (keysetPage RunTimelineEvent.sequence (some watcher.lastConsumedSequence) limit
      (timeline watcher.childRunId events)).getLast? = some last)
    (hnotices : List.Forall₂ (NoticeAbout runtime watcher observedAt)
      ((keysetPage RunTimelineEvent.sequence (some watcher.lastConsumedSequence) limit
        (timeline watcher.childRunId events)).filter
          fun event => isProjectableChildEvent event.eventType) notices)
    (hincreasing : Increasing (events ++ notices))
    (hpositive : ∀ notice ∈ notices, 1 ≤ notice.sequence)
    (hguard : ∀ row ∈ watchers, guard row = true ↔ row = watcher) :
    Sound runtime (events ++ notices)
      (updateRows guard (ChildWatcher.caughtUp last.sequence notices.length observedAt)
        watchers) := by
  have hpage := filter_le_last_of_page (timeline_increasing h.increasing watcher.childRunId) hlast
  obtain ⟨hlastMem, hafter⟩ := mem_keysetPage (List.mem_of_getLast? hlast)
  have hafter : watcher.lastConsumedSequence < last.sequence := hafter
  generalize keysetPage RunTimelineEvent.sequence (some watcher.lastConsumedSequence) limit
    (timeline watcher.childRunId events) = page at hlast hnotices hpage
  have hconsumed := @consumedEvents_caughtUp _ _ observedAt last page notices.length hpage
  have hown : noticesOf (events ++ notices)
      (watcher.caughtUp last.sequence notices.length observedAt) =
        noticesOf events watcher ++ notices := noticesOf_own hnotices rfl rfl
  have hother : ∀ row ∈ watchers, row ≠ watcher → row.watcherId ≠ watcher.watcherId :=
    fun row hrow hne hid => hne (eq_of_key_eq h.ids hrow hwatcher hid)
  refine ⟨hincreasing, ?_, ?_, ?_, ?_, ?_, ?_, ?_, ?_, ?_⟩
  · intro event hevent
    obtain hold | hnew := List.mem_append.mp hevent
    · exact h.positive event hold
    · exact hpositive event hnew
  · have hids : (updateRows guard (ChildWatcher.caughtUp last.sequence notices.length observedAt)
        watchers).map ChildWatcher.watcherId = watchers.map ChildWatcher.watcherId :=
      map_updateRows fun _ _ => rfl
    rw [hids]
    exact h.ids
  · have hpairs : (updateRows guard (ChildWatcher.caughtUp last.sequence notices.length observedAt)
        watchers).map (fun row => (row.parentRunId, row.childRunId)) =
        watchers.map fun row => (row.parentRunId, row.childRunId) :=
      map_updateRows fun _ _ => rfl
    rw [hpairs]
    exact h.pairs
  · refine h.acyclic.mono ?_
    intro a b hedge
    simp only [watches, List.mem_map, List.mem_filter, decide_eq_true_eq] at hedge ⊢
    obtain ⟨row', ⟨hrow', hopen⟩, hpair⟩ := hedge
    obtain rfl | ⟨hrow, -⟩ := mem_updateRows_one hguard hrow'
    · exact ⟨watcher, ⟨hwatcher, hopen⟩, hpair⟩
    · exact ⟨row', ⟨hrow, hopen⟩, hpair⟩
  · intro row' hrow'
    obtain rfl | ⟨hrow, -⟩ := mem_updateRows_one hguard hrow'
    · rfl
    · exact h.next row' hrow
  · intro row' hrow'
    obtain rfl | ⟨hrow, -⟩ := mem_updateRows_one hguard hrow'
    · refine Or.inr ⟨last, ?_, rfl⟩
      change last ∈ timeline watcher.childRunId (events ++ notices)
      rw [timeline_append]
      exact List.mem_append_left _ hlastMem
    · exact h.reached_grow hrow
  · intro row' hrow'
    obtain rfl | ⟨hrow, hne⟩ := mem_updateRows_one hguard hrow'
    · rw [hown, consumedEvents_notices hnotices, hconsumed, List.map_append, List.map_append,
        relayed_eq_described hnotices, h.relays watcher hwatcher]
    · rw [noticesOf_other hnotices (hother row' hrow hne), consumedEvents_notices hnotices]
      exact h.relays row' hrow
  · intro row' hrow'
    obtain rfl | ⟨hrow, hne⟩ := mem_updateRows_one hguard hrow'
    · rw [hown, List.length_append]
      exact congrArg (· + notices.length) (h.counts watcher hwatcher)
    · rw [noticesOf_other hnotices (hother row' hrow hne)]
      exact h.counts row' hrow
  · intro event hevent hnotice
    have hset : watcher.caughtUp last.sequence notices.length observedAt ∈
        updateRows guard (ChildWatcher.caughtUp last.sequence notices.length observedAt)
          watchers := by
      refine mem_updateRows.mpr ⟨watcher, hwatcher, ?_⟩
      rw [if_pos ((hguard watcher hwatcher).mpr rfl)]
    obtain hold | hnew := List.mem_append.mp hevent
    · obtain ⟨row, hrow, hrun, hcarried, sequence, hle, hid⟩ := h.origin event hold hnotice
      by_cases heq : row = watcher
      · rw [heq] at hrun hcarried hle hid
        exact ⟨_, hset, hrun, hcarried, sequence, hle.trans hafter.le, hid⟩
      · refine ⟨row, mem_updateRows.mpr ⟨row, hrow, ?_⟩, hrun, hcarried, sequence, hle, hid⟩
        rw [if_neg fun hselected => heq ((hguard row hrow).mp hselected)]
    · obtain ⟨about, habout, hnotice⟩ := exists_of_mem_notices hnotices hnew
      have hbefore : about ∈ (timeline watcher.childRunId events).filter fun event =>
          event.sequence ≤ last.sequence := by
        rw [hpage]
        exact List.mem_append_right _ (List.mem_of_mem_filter habout)
      have hle : about.sequence ≤ last.sequence := by simpa using (List.mem_filter.mp hbefore).2
      exact ⟨_, hset, hnotice.runId, hnotice.carries, about.sequence, hle, hnotice.eventId⟩

end CatchUp

/-! ## What the statements do -/

/-- What becomes of the watchers.  The ones that are changed are among `ids`. -/
def Advances (ids : List String) (watchers watchers' : List ChildWatcher) : Prop :=
  ∀ row ∈ watchers, ∃ row' ∈ watchers', row'.watcherId = row.watcherId ∧
    row'.parentRunId = row.parentRunId ∧ row'.childRunId = row.childRunId ∧
    (row' = row ∨ (row.watcherId ∈ ids ∧ row'.revision = row.revision + 1 ∧
      (row.state = .closed → row'.state = .closed)))

theorem Advances.refl (ids : List String) (watchers : List ChildWatcher) :
    Advances ids watchers watchers :=
  fun row hrow => ⟨row, hrow, rfl, rfl, rfl, Or.inl rfl⟩

/-- A watcher that is changed first is not changed again. -/
theorem Advances.cons {id : String} {ids : List String}
    {watchers watchers' watchers'' : List ChildWatcher} (hid : id ∉ ids)
    (h : Advances [id] watchers watchers') (h' : Advances ids watchers' watchers'') :
    Advances (id :: ids) watchers watchers'' := by
  intro row hrow
  obtain ⟨middle, hmiddle, hmiddleId, hmiddleParent, hmiddleChild, hfirst⟩ := h row hrow
  obtain ⟨final, hfinal, hfinalId, hfinalParent, hfinalChild, hsecond⟩ := h' middle hmiddle
  refine ⟨final, hfinal, hfinalId.trans hmiddleId, hfinalParent.trans hmiddleParent,
    hfinalChild.trans hmiddleChild, ?_⟩
  obtain rfl | ⟨hmem, hrevision, hclosed⟩ := hfirst
  · obtain rfl | ⟨hmem, hchanged⟩ := hsecond
    · exact Or.inl rfl
    · exact Or.inr ⟨List.mem_cons_of_mem _ hmem, hchanged⟩
  · have hsame : final = middle := by
      refine hsecond.resolve_right ?_
      rintro ⟨hagain, -⟩
      rw [hmiddleId, List.mem_singleton.mp hmem] at hagain
      exact hid hagain
    rw [hsame]
    exact Or.inr ⟨List.mem_cons.mpr (Or.inl (List.mem_singleton.mp hmem)), hrevision, hclosed⟩

section Statements

variable {runtime : WatcherRuntime} {store store' : WatcherStore} {watcherId : String}
  {answer : ChildWatcher} {set : ChildWatcher → ChildWatcher}

/-- An update that selects watchers by an id. -/
theorem advances_updateRows {guard : ChildWatcher → Bool} {watchers : List ChildWatcher}
    (hguard : ∀ row, guard row = true → row.watcherId = watcherId)
    (hset : ∀ row, guard row = true → (set row).watcherId = row.watcherId ∧
      (set row).parentRunId = row.parentRunId ∧ (set row).childRunId = row.childRunId ∧
      (set row).revision = row.revision + 1 ∧ (row.state = .closed → (set row).state = .closed)) :
    Advances [watcherId] watchers (updateRows guard set watchers) := by
  intro row hrow
  refine ⟨_, mem_updateRows.mpr ⟨row, hrow, rfl⟩, ?_⟩
  by_cases hselected : guard row = true
  · rw [if_pos hselected]
    obtain ⟨hid, hparent, hchild, hrevision, hclosed⟩ := hset row hselected
    exact ⟨hid, hparent, hchild,
      Or.inr ⟨List.mem_singleton.mpr (hguard row hselected), hrevision, hclosed⟩⟩
  · rw [if_neg hselected]
    exact ⟨rfl, rfl, rfl, Or.inl rfl⟩

theorem get_eq_ok {row : ChildWatcher} (h : store.get runtime watcherId = .ok row) :
    row ∈ store.watchers ∧ row.watcherId = watcherId := by
  obtain ⟨_, -, h⟩ := bind_eq_ok.mp h
  split at h
  · rename_i found hfound
    rw [← Except.ok.inj h]
    exact mem_of_find?_key hfound
  · cases h

theorem allocate_eq_ok {runId : String} {sequence : Nat}
    (h : allocateDurableRunEventSequence runId store = .ok (sequence, store')) :
    store'.events = store.events ∧ store'.watchers = store.watchers ∧ 1 ≤ sequence ∧
      ∀ event ∈ timeline runId store.events, event.sequence < sequence := by
  have hpersisted : ∀ event ∈ timeline runId store.events,
      event.sequence < store.persistedSuccessor runId := by
    intro event hevent
    unfold WatcherStore.persistedSuccessor
    have hmem := List.mem_map_of_mem (f := RunTimelineEvent.sequence) hevent
    cases hmax : ((timeline runId store.events).map RunTimelineEvent.sequence).max? with
    | none =>
        rw [List.max?_eq_none_iff] at hmax
        rw [hmax] at hmem
        exact absurd hmem List.not_mem_nil
    | some last =>
        have hle := (List.max?_eq_some_iff.mp hmax).2 event.sequence hmem
        exact Nat.lt_succ_of_le hle
  have hone : 1 ≤ store.persistedSuccessor runId := Nat.le_add_left 1 _
  unfold allocateDurableRunEventSequence at h
  dsimp only at h
  have hle : store.persistedSuccessor runId ≤ store.nextSequence runId := by
    unfold WatcherStore.nextSequence
    dsimp only
    split
    · exact le_rfl
    · split_ifs with hlt
      · exact hlt.le
      · exact le_rfl
  split_ifs at h
  obtain ⟨hresult, hstore⟩ := ok_pair_inj h
  rw [← hstore, ← hresult]
  exact ⟨rfl, rfl, hone.trans hle, fun event hevent => (hpersisted event hevent).trans_le hle⟩

theorem insertEvent_eq_ok {event : RunTimelineEvent} (h : insertEvent event store = .ok store') :
    store'.events = store.events ++ [event] ∧ store'.watchers = store.watchers := by
  unfold insertEvent at h
  split_ifs at h
  rw [← Except.ok.inj h]
  exact ⟨rfl, rfl⟩

/-- A sequence that was allocated continues the timeline. -/
theorem increasing_allocated {events : List RunTimelineEvent} {event : RunTimelineEvent}
    (h : Increasing events)
    (hafter : ∀ other ∈ timeline event.runId events, other.sequence < event.sequence) :
    Increasing (events ++ [event]) := by
  refine List.pairwise_append.mpr ⟨h, List.pairwise_singleton _ _, ?_⟩
  intro other hother new hnew hrun
  rw [List.mem_singleton.mp hnew] at hrun ⊢
  exact hafter other (mem_timeline.mpr ⟨hother, hrun⟩)

/-- The notices of a batch, none of which is there yet. -/
theorem projectChildEvents_eq_ok (hsha : Function.Injective runtime.sha256Hex)
    {watcher : ChildWatcher} {observedAt : String} {rows notices : List RunTimelineEvent}
    (h : projectChildEvents runtime watcher observedAt rows store = .ok (notices, store'))
    (hfresh : ∀ row ∈ rows, ∀ event ∈ store.events,
      event.eventId ≠ buildChildNoticeEventId runtime watcher.watcherId row.sequence)
    (hdistinct : rows.Pairwise fun a b => a.sequence ≠ b.sequence)
    (hincreasing : Increasing store.events) :
    store'.watchers = store.watchers ∧ store'.events = store.events ++ notices ∧
      List.Forall₂ (NoticeAbout runtime watcher observedAt)
        (rows.filter fun row => isProjectableChildEvent row.eventType) notices ∧
      Increasing (store.events ++ notices) ∧ ∀ notice ∈ notices, 1 ≤ notice.sequence := by
  induction rows generalizing store notices with
  | nil =>
      obtain ⟨rfl, rfl⟩ := ok_pair_inj h
      rw [List.append_nil]
      exact ⟨rfl, rfl, .nil, hincreasing, fun _ hnotice => absurd hnotice List.not_mem_nil⟩
  | cons row rows ih =>
      obtain ⟨hhead, htail⟩ := List.pairwise_cons.mp hdistinct
      have hfreshTail : ∀ other ∈ rows, ∀ event ∈ store.events,
          event.eventId ≠ buildChildNoticeEventId runtime watcher.watcherId other.sequence :=
        fun other hother => hfresh other (List.mem_cons_of_mem _ hother)
      rw [projectChildEvents] at h
      by_cases hprojectable : isProjectableChildEvent row.eventType = true
      · rw [if_neg (by simp [hprojectable]), if_neg] at h
        · obtain ⟨⟨sequence, allocated⟩, hallocate, h⟩ := bind_eq_ok.mp h
          obtain ⟨inserted, hinsert, h⟩ := bind_eq_ok.mp h
          obtain ⟨⟨rest, final⟩, hrest, h⟩ := bind_eq_ok.mp h
          obtain ⟨rfl, rfl⟩ := ok_pair_inj h
          obtain ⟨hallocEvents, hallocWatchers, hone, hafter⟩ := allocate_eq_ok hallocate
          obtain ⟨hinsEvents, hinsWatchers⟩ := insertEvent_eq_ok hinsert
          rw [hallocEvents] at hinsEvents
          generalize hnotice : RunTimelineEvent.mk
            (buildChildNoticeEventId runtime watcher.watcherId row.sequence) watcher.parentRunId
            sequence .childStateChanged row.stepKey
            (childStateChangedPayload runtime watcher row observedAt) observedAt = notice at *
          have habout : NoticeAbout runtime watcher observedAt row notice := by
            rw [← hnotice]
            exact ⟨rfl, rfl, rfl, rfl⟩
          have hsequence : notice.sequence = sequence := by rw [← hnotice]
          have hgrown : Increasing (store.events ++ [notice]) := by
            apply increasing_allocated hincreasing
            rw [habout.runId, hsequence]
            exact hafter
          -- The new notice is about another event than the rest of the batch.
          have hfreshRest : ∀ other ∈ rows, ∀ event ∈ inserted.events,
              event.eventId ≠ buildChildNoticeEventId runtime watcher.watcherId other.sequence := by
            intro other hother event hevent heq
            rw [hinsEvents] at hevent
            obtain hold | hnew := List.mem_append.mp hevent
            · exact hfreshTail other hother event hold heq
            · rw [List.mem_singleton.mp hnew, habout.eventId] at heq
              exact hhead other hother (buildChildNoticeEventId_injective hsha heq).2
          obtain ⟨hwatchers, hevents, hnotices, hincreasing', hpositive⟩ :=
            ih hrest hfreshRest htail (by rw [hinsEvents]; exact hgrown)
          rw [hinsEvents, List.append_assoc, List.singleton_append] at hevents hincreasing'
          rw [List.filter_cons_of_pos (by simpa using hprojectable)]
          refine ⟨?_, hevents, .cons habout hnotices, hincreasing', ?_⟩
          · rw [hwatchers, hinsWatchers, hallocWatchers]
          · intro other hother
            obtain rfl | hmem := List.mem_cons.mp hother
            · rw [hsequence]
              exact hone
            · exact hpositive other hmem
        · rw [List.any_eq_true]
          rintro ⟨event, hevent, heq⟩
          exact hfresh row List.mem_cons_self event hevent (by simpa using heq)
      · rw [if_pos (by simpa using hprojectable)] at h
        rw [List.filter_cons_of_neg (by simpa using hprojectable)]
        exact ih h hfreshTail htail hincreasing

/-- What has not been consumed has no notice. -/
theorem Sound.fresh (h : Sound runtime store.events store.watchers)
    (hsha : Function.Injective runtime.sha256Hex) {watcher : ChildWatcher}
    (hwatcher : watcher ∈ store.watchers) {childSequence : Nat}
    (hafter : watcher.lastConsumedSequence < childSequence) :
    ∀ event ∈ store.events,
      event.eventId ≠ buildChildNoticeEventId runtime watcher.watcherId childSequence := by
  intro event hevent heq
  obtain ⟨row, hrow, -, -, sequence, hle, hid⟩ :=
    h.origin event hevent (Or.inr ⟨_, _, heq⟩)
  obtain ⟨hsameId, rfl⟩ := buildChildNoticeEventId_injective hsha (heq.symm.trans hid)
  rw [eq_of_key_eq h.ids hwatcher hrow hsameId] at hafter
  omega

/-- What a call keeps true, and what becomes of the watchers. -/
def Keeps (runtime : WatcherRuntime) (ids : List String) (store store' : WatcherStore) : Prop :=
  Sound runtime store'.events store'.watchers ∧ Advances ids store.watchers store'.watchers

theorem Keeps.refl (h : Sound runtime store.events store.watchers) (ids : List String) :
    Keeps runtime ids store store :=
  ⟨h, .refl ids store.watchers⟩

theorem catchUpWatcher_keeps (hsha : Function.Injective runtime.sha256Hex)
    (h : Sound runtime store.events store.watchers) {observedAt : String} {limit : Int}
    {result : CatchUpResult}
    (hcall : catchUpWatcher runtime watcherId limit observedAt store = .ok (result, store')) :
    Keeps runtime [watcherId] store store' := by
  obtain ⟨watcher, hget, hrun⟩ := bind_eq_ok.mp hcall
  clear hcall
  obtain ⟨hwatcher, rfl⟩ := get_eq_ok hget
  by_cases hattached : watcher.state = .attached
  · rw [if_neg (not_not.mpr hattached)] at hrun
    dsimp only at hrun
    split at hrun
    · rw [← (ok_pair_inj hrun).2]
      exact .refl h _
    · rename_i last hlast
      obtain ⟨⟨notices, projected⟩, hproject, hrun⟩ := bind_eq_ok.mp hrun
      have hpage : ∀ row ∈ listChildEvents watcher.childRunId watcher.lastConsumedSequence
          (clampLimit limit 500) store, watcher.lastConsumedSequence < row.sequence :=
        fun row hrow => (mem_keysetPage hrow).2
      have hdistinct : (listChildEvents watcher.childRunId watcher.lastConsumedSequence
          (clampLimit limit 500) store).Pairwise fun a b => a.sequence ≠ b.sequence := by
        unfold listChildEvents
        have hrows := timeline_increasing h.increasing watcher.childRunId
        rw [keysetPage_of_increasing hrows]
        refine (hrows.sublist ?_).imp fun hlt => hlt.ne
        exact (List.take_sublist _ _).trans List.filter_sublist
      obtain ⟨hwatchers, hevents, hnotices, hincreasing, hpositive⟩ :=
        projectChildEvents_eq_ok hsha hproject
          (fun row hrow => h.fresh hsha hwatcher (hpage row hrow)) hdistinct h.increasing
      dsimp only [updateWatchers] at hrun
      obtain ⟨-, hrun⟩ := guard_eq_ok.mp hrun
      obtain ⟨refreshed, -, hrun⟩ := bind_eq_ok.mp hrun
      rw [← (ok_pair_inj hrun).2]
      unfold Keeps
      rw [hwatchers, hevents]
      refine ⟨h.catchUp hwatcher hlast hnotices hincreasing hpositive ?_,
        advances_updateRows ?_ ?_⟩
      · intro row hrow
        simp only [Bool.and_eq_true, decide_eq_true_eq]
        constructor
        · rintro ⟨⟨hid, -⟩, -⟩
          exact eq_of_key_eq h.ids hrow hwatcher hid
        · rintro rfl
          exact ⟨⟨rfl, hattached⟩, rfl⟩
      · intro row hguard
        simp only [Bool.and_eq_true, decide_eq_true_eq] at hguard
        exact hguard.1.1
      · intro row _
        exact ⟨rfl, rfl, rfl, rfl, id⟩
  · rw [if_pos hattached] at hrun
    rw [← (ok_pair_inj hrun).2]
    exact .refl h _

/-- What a control call does to the tables: nothing, or an update of its watcher. -/
inductive Controls (watcherId : String) (store : WatcherStore) : WatcherStore → Prop
  | unchanged : Controls watcherId store store
  | updated {guard : ChildWatcher → Bool} {set : ChildWatcher → ChildWatcher} :
      (∀ row, guard row = true → row.watcherId = watcherId ∧ Controlled row (set row)) →
      Controls watcherId store (updateWatchers guard set store).2

theorem Controls.keeps (hcall : Controls watcherId store store')
    (h : Sound runtime store.events store.watchers) : Keeps runtime [watcherId] store store' := by
  cases hcall with
  | unchanged => exact .refl h _
  | updated hguard =>
      refine ⟨h.control fun row hselected => (hguard row hselected).2,
        advances_updateRows (fun row hselected => (hguard row hselected).1) ?_⟩
      intro row hselected
      obtain ⟨-, hcontrolled⟩ := hguard row hselected
      exact ⟨hcontrolled.watcherId, hcontrolled.parentRunId, hcontrolled.childRunId,
        hcontrolled.revision, hcontrolled.closed⟩

/-- A state is written to a watcher that is not closed. -/
theorem controlled_detached {row : ChildWatcher} (timestamp : String)
    (hopen : row.state ≠ .closed) : Controlled row (row.detachedAtTime timestamp) :=
  ⟨rfl, rfl, rfl, rfl, rfl, rfl, rfl, fun hclosed => absurd hclosed hopen⟩

theorem controlled_reattached {row : ChildWatcher} (timestamp : String)
    (hopen : row.state ≠ .closed) : Controlled row (row.reattachedAtTime timestamp) :=
  ⟨rfl, rfl, rfl, rfl, rfl, rfl, rfl, fun hclosed => absurd hclosed hopen⟩

theorem detach_controls {detachedAt : String}
    (hcall : detach runtime watcherId detachedAt store = .ok (answer, store')) :
    Controls watcherId store store' := by
  obtain ⟨current, -, hrun⟩ := bind_eq_ok.mp hcall
  split at hrun
  · exact (ok_pair_inj hrun).2 ▸ .unchanged
  · obtain ⟨refreshed, -, hrun⟩ := bind_eq_ok.mp hrun
    rw [← (ok_pair_inj hrun).2]
    refine .updated fun row hguard => ?_
    simp only [Bool.and_eq_true, decide_eq_true_eq] at hguard
    exact ⟨hguard.1, controlled_detached detachedAt (by simp [hguard.2])⟩

theorem reattach_controls {reattachedAt : String}
    (hcall : reattach runtime watcherId reattachedAt store = .ok (answer, store')) :
    Controls watcherId store store' := by
  obtain ⟨current, -, hrun⟩ := bind_eq_ok.mp hcall
  obtain ⟨-, hrun⟩ := guard_eq_ok.mp hrun
  dsimp only at hrun
  split at hrun
  · exact (ok_pair_inj hrun).2 ▸ .unchanged
  · obtain ⟨refreshed, -, hrun⟩ := bind_eq_ok.mp hrun
    rw [← (ok_pair_inj hrun).2]
    refine .updated fun row hguard => ?_
    simp only [Bool.and_eq_true, decide_eq_true_eq] at hguard
    exact ⟨hguard.1, controlled_reattached reattachedAt (by simp [hguard.2])⟩

theorem close_controls {closedAt : String}
    (hcall : close runtime watcherId closedAt store = .ok (answer, store')) :
    Controls watcherId store store' := by
  obtain ⟨current, -, hrun⟩ := bind_eq_ok.mp hcall
  split at hrun
  · exact (ok_pair_inj hrun).2 ▸ .unchanged
  · obtain ⟨refreshed, -, hrun⟩ := bind_eq_ok.mp hrun
    rw [← (ok_pair_inj hrun).2]
    refine .updated fun row hguard => ?_
    simp only [Bool.and_eq_true, decide_eq_true_eq] at hguard
    exact ⟨hguard.1, rfl, rfl, rfl, rfl, rfl, rfl, rfl, fun _ => rfl⟩

/-- A transition from a state that is not closed. -/
theorem transitionIfRevision_controls
    {parentRunId : String} {expectedRevision : Int} {fromState toState : WatcherState}
    {answer : ChildWatcher × ControlOutcome} (hfrom : fromState ≠ .closed)
    (hset : ∀ row : ChildWatcher, row.state ≠ .closed → Controlled row (set row))
    (hcall : transitionIfRevision runtime watcherId parentRunId expectedRevision fromState
      toState set store = .ok (answer, store')) : Controls watcherId store store' := by
  iterate 3 obtain ⟨_, -, hcall⟩ := bind_eq_ok.mp hcall
  dsimp only at hcall
  split at hcall
  · obtain ⟨refreshed, -, hrun⟩ := bind_eq_ok.mp hcall
    rw [← (ok_pair_inj hrun).2]
    refine .updated fun row hguard => ?_
    simp only [Bool.and_eq_true, decide_eq_true_eq] at hguard
    exact ⟨hguard.1.1.1, hset row (by rw [hguard.2]; exact hfrom)⟩
  · iterate 2 obtain ⟨_, -, hcall⟩ := bind_eq_ok.mp hcall
    split at hcall
    · exact (ok_pair_inj hcall).2 ▸ .unchanged
    · cases hcall

theorem claimControlRevision_controls {parentRunId updatedAt : String} {expectedRevision : Int}
    (hcall : claimControlRevision runtime watcherId parentRunId expectedRevision updatedAt store =
      .ok (answer, store')) : Controls watcherId store store' := by
  iterate 3 obtain ⟨_, -, hcall⟩ := bind_eq_ok.mp hcall
  dsimp only at hcall
  split at hcall
  · obtain ⟨refreshed, -, hrun⟩ := bind_eq_ok.mp hcall
    rw [← (ok_pair_inj hrun).2]
    refine .updated fun row hguard => ?_
    simp only [Bool.and_eq_true, decide_eq_true_eq] at hguard
    exact ⟨hguard.1.1, rfl, rfl, rfl, rfl, rfl, rfl, rfl, id⟩
  · iterate 2 obtain ⟨_, -, hcall⟩ := bind_eq_ok.mp hcall
    cases hcall

theorem append_keeps (h : Sound runtime store.events store.watchers) {input : AppendInput}
    {event : RunTimelineEvent} (hordinary : input.eventType ≠ .childStateChanged)
    (hid : ∀ watcherId childSequence,
      input.eventId ≠ buildChildNoticeEventId runtime watcherId childSequence)
    (hcall : append input store = .ok (event, store')) : Keeps runtime [] store store' := by
  obtain ⟨⟨sequence, allocated⟩, hallocate, hrun⟩ := bind_eq_ok.mp hcall
  obtain ⟨inserted, hinsert, hrun⟩ := bind_eq_ok.mp hrun
  obtain ⟨hevents, hwatchers, hone, hafter⟩ := allocate_eq_ok hallocate
  obtain ⟨hinsEvents, hinsWatchers⟩ := insertEvent_eq_ok hinsert
  rw [← (ok_pair_inj hrun).2]
  unfold Keeps
  rw [hinsEvents, hinsWatchers, hevents, hwatchers]
  refine ⟨h.append hafter hone ?_, .refl _ _⟩
  rintro (htype | ⟨watcherId, childSequence, heq⟩)
  · exact hordinary htype
  · exact hid watcherId childSequence heq

theorem insertWatcher_keeps (h : Sound runtime store.events store.watchers) {input : CreateInput}
    (hne : input.parentRunId ≠ input.childRunId)
    (hcycle : ¬store.wouldCreateCycle input.parentRunId input.childRunId = true)
    (hcall : insertWatcher input.toRow store = .ok store') : Keeps runtime [] store store' := by
  unfold insertWatcher at hcall
  split_ifs at hcall with hpair hid
  · rw [← Except.ok.inj hcall]
    exact .refl h _
  · rw [← Except.ok.inj hcall]
    refine ⟨h.create ?_ ?_ hne ?_, ?_⟩
    · intro other hother heq
      exact hid (List.any_eq_true.mpr ⟨other, hother, decide_eq_true heq⟩)
    · intro other hother heq
      obtain ⟨hparent, hchild⟩ := Prod.mk.inj heq
      refine hpair (List.any_eq_true.mpr ⟨other, hother, ?_⟩)
      exact Bool.and_eq_true_iff.mpr ⟨decide_eq_true hparent, decide_eq_true hchild⟩
    · intro hpath
      refine hcycle (List.any_eq_true.mpr ⟨_, mem_reachable.mpr hpath, ?_⟩)
      simp
    · intro row hrow
      exact ⟨row, List.mem_append_left _ hrow, rfl, rfl, rfl, Or.inl rfl⟩

/-- An existing watcher is answered, and a new one closes no cycle. -/
theorem create_keeps (h : Sound runtime store.events store.watchers) {input : CreateInput}
    (hcall : create runtime input store = .ok (answer, store')) :
    Keeps runtime [] store store' := by
  obtain ⟨_, -, hrun⟩ := bind_eq_ok.mp hcall
  obtain ⟨hne, hrun⟩ := guard_eq_ok.mp hrun
  iterate 2 obtain ⟨_, -, hrun⟩ := bind_eq_ok.mp hrun
  obtain ⟨existing, -, hrun⟩ := bind_eq_ok.mp hrun
  split at hrun
  · rw [← (ok_pair_inj hrun).2]
    exact .refl h _
  · obtain ⟨hcycle, hrun⟩ := guard_eq_ok.mp hrun
    obtain ⟨inserted, hinsert, hrun⟩ := bind_eq_ok.mp hrun
    obtain ⟨found, -, hrun⟩ := bind_eq_ok.mp hrun
    split at hrun
    · rw [← (ok_pair_inj hrun).2]
      exact insertWatcher_keeps h hne hcycle hinsert
    · cases hrun

/-- The watchers that a call of `catchUpAttached` catches up are different ones. -/
theorem catchUpWatcherRows_keeps (hsha : Function.Injective runtime.sha256Hex)
    {eventLimit : Int} {observedAt : String → String} {ids : List String}
    {summary final : ReconcileSummary} (h : Sound runtime store.events store.watchers)
    (hids : ids.Nodup)
    (hcall : catchUpWatcherRows runtime eventLimit observedAt ids summary store =
      .ok (final, store')) :
    Keeps runtime ids store store' := by
  induction ids generalizing store summary with
  | nil =>
      rw [← (ok_pair_inj hcall).2]
      exact .refl h _
  | cons watcherId ids ih =>
      obtain ⟨⟨result, middle⟩, hfirst, hrest⟩ := bind_eq_ok.mp hcall
      obtain ⟨hid, hids⟩ := List.nodup_cons.mp hids
      obtain ⟨hmiddle, hadvance⟩ := catchUpWatcher_keeps hsha h hfirst
      obtain ⟨hfinal, hadvances⟩ := ih hmiddle hids hrest
      exact ⟨hfinal, hadvance.cons hid hadvances⟩

theorem nodup_listAttached (hids : (store.watchers.map ChildWatcher.watcherId).Nodup)
    (condition : ChildWatcher → Bool) (limit : Nat) :
    (listAttached runtime condition limit store).Nodup := by
  unfold listAttached
  apply List.Nodup.sublist (List.take_sublist _ _)
  rw [(List.perm_insertionSort _ _).nodup_iff]
  exact hids.sublist (List.filter_sublist.map _)

theorem mem_listAttached {condition : ChildWatcher → Bool} {limit : Nat}
    (h : watcherId ∈ listAttached runtime condition limit store) :
    ∃ row ∈ store.watchers, condition row = true ∧ row.watcherId = watcherId := by
  unfold listAttached at h
  have hmem := (List.mem_insertionSort _).mp (List.mem_of_mem_take h)
  obtain ⟨row, hrow, hid⟩ := List.mem_map.mp hmem
  obtain ⟨hmem, hselected⟩ := List.mem_filter.mp hrow
  exact ⟨row, hmem, (of_decide_eq_true hselected).2, hid⟩

/-- No watcher lies both after the cursor and up to it. -/
theorem nodup_scanRows (hids : (store.watchers.map ChildWatcher.watcherId).Nodup)
    (cursor : String) (limit : Nat) : (scanRows runtime cursor limit store).Nodup := by
  unfold scanRows
  dsimp only
  split
  · refine (nodup_listAttached hids _ _).append (nodup_listAttached hids _ _) ?_
    intro watcherId hafter hthrough
    obtain ⟨row, -, hrow, hid⟩ := mem_listAttached hafter
    obtain ⟨other, -, hother, hotherId⟩ := mem_listAttached hthrough
    rw [hid] at hrow
    rw [hotherId] at hother
    rw [hother] at hrow
    cases hrow
  · exact nodup_listAttached hids _ _

theorem catchUpAttached_keeps (hsha : Function.Injective runtime.sha256Hex)
    {watcherLimit eventLimit : Option Int} {observedAt : String → String}
    {summary : ReconcileSummary} (h : Sound runtime store.events store.watchers)
    (hcall : catchUpAttached runtime watcherLimit eventLimit observedAt store =
      .ok (summary, store')) :
    ∃ ids, Keeps runtime ids store store' := by
  obtain ⟨cursor, -, hrun⟩ := bind_eq_ok.mp hcall
  obtain ⟨⟨final, caught⟩, hrows, hrun⟩ := bind_eq_ok.mp hrun
  have hkeeps := catchUpWatcherRows_keeps hsha h (nodup_scanRows h.ids cursor _) hrows
  refine ⟨scanRows runtime cursor (clampLimit (watcherLimit.getD 100) 500) store, ?_⟩
  dsimp only at hrun
  split at hrun
  · rw [← (ok_pair_inj hrun).2]
    exact hkeeps
  · rw [← (ok_pair_inj hrun).2]
    exact hkeeps

end Statements

/-! ## Runs -/

/-- Only a catch-up writes notices. -/
def WatcherEvent.WritesNoNotice (runtime : WatcherRuntime) : WatcherEvent → Prop
  | .call (.append input) => input.eventType ≠ .childStateChanged ∧
      ∀ watcherId childSequence,
        input.eventId ≠ buildChildNoticeEventId runtime watcherId childSequence
  | _ => True

/-- A watcher that is not closed watches a run for another one. -/
def WatcherStore.Watches (store : WatcherStore) (parentRunId childRunId : String) : Prop :=
  ∃ row ∈ store.watchers, row.state ≠ .closed ∧ row.parentRunId = parentRunId ∧
    row.childRunId = childRunId

/-- The watchers form no cycle, and each of them has relayed what it has consumed. -/
structure RelaysOnce (store : WatcherStore) : Prop where
  acyclic : ∀ runId, ¬Relation.TransGen store.Watches runId runId
  pairs : (store.watchers.map fun row => (row.parentRunId, row.childRunId)).Nodup
  next : ∀ row ∈ store.watchers, row.nextSequence = row.lastConsumedSequence + 1
  notices : ∀ row ∈ store.watchers,
    (noticesOf store.events row).map RunTimelineEvent.relayed =
      (consumedEvents store.events row).map RunTimelineEvent.described
  counts : ∀ row ∈ store.watchers,
    row.projectedNoticeCount = (noticesOf store.events row).length
  increasing : Increasing store.events

/-- A watcher that changes gets the next revision, and a closed one stays closed. -/
def ChangesByRevision (store store' : WatcherStore) : Prop :=
  ∀ row ∈ store.watchers, ∃ row' ∈ store'.watchers, row'.watcherId = row.watcherId ∧
    row'.parentRunId = row.parentRunId ∧ row'.childRunId = row.childRunId ∧
    (row' = row ∨ row'.revision = row.revision + 1) ∧
    (row.state = .closed → row'.state = .closed)

section Runs

variable {runtime : WatcherRuntime} {store store' : WatcherStore}
  {system system' : WatcherSystem} {event : WatcherEvent}

theorem sound_initial :
    Sound runtime WatcherStore.initial.events WatcherStore.initial.watchers where
  increasing := .nil
  positive := fun _ h => absurd h List.not_mem_nil
  ids := .nil
  pairs := .nil
  acyclic := by
    intro runId hcycle
    obtain ⟨next, hedge, -⟩ := Relation.TransGen.head'_iff.mp hcycle
    exact List.not_mem_nil hedge
  next := fun _ h => absurd h List.not_mem_nil
  reached := fun _ h => absurd h List.not_mem_nil
  relays := fun _ h => absurd h List.not_mem_nil
  counts := fun _ h => absurd h List.not_mem_nil
  origin := fun _ h => absurd h List.not_mem_nil

theorem Sound.relaysOnce (h : Sound runtime store.events store.watchers) : RelaysOnce store where
  acyclic := by
    have hedges : Acyclic store.Watches := by
      refine h.acyclic.mono ?_
      rintro a b ⟨row, hrow, hopen, rfl, rfl⟩
      exact List.mem_map.mpr ⟨row, List.mem_filter.mpr ⟨hrow, decide_eq_true hopen⟩, rfl⟩
    exact hedges
  pairs := h.pairs
  next := h.next
  notices := h.relays
  counts := h.counts
  increasing := h.increasing

theorem Advances.changesByRevision {ids : List String}
    (h : Advances ids store.watchers store'.watchers) : ChangesByRevision store store' := by
  intro row hrow
  obtain ⟨row', hrow', hid, hparent, hchild, rfl | ⟨-, hrevision, hclosed⟩⟩ := h row hrow
  · exact ⟨row', hrow', hid, hparent, hchild, Or.inl rfl, fun hclosed => hclosed⟩
  · exact ⟨row', hrow', hid, hparent, hchild, Or.inr hrevision, hclosed⟩

theorem perform_keeps (hsha : Function.Injective runtime.sha256Hex) {call : WatcherCall}
    (hordinary : (WatcherEvent.call call).WritesNoNotice runtime)
    (h : Sound runtime store.events store.watchers)
    (hcall : call.perform runtime store = .ok store') : ∃ ids, Keeps runtime ids store store' := by
  cases call with
  | createRun runId =>
      rw [WatcherCall.perform] at hcall
      split_ifs at hcall
      rw [← Except.ok.inj hcall]
      exact ⟨[], .refl h _⟩
  | append input =>
      obtain ⟨_, hresult⟩ := map_snd_eq_ok hcall
      exact ⟨_, append_keeps h hordinary.1 hordinary.2 hresult⟩
  | create input =>
      obtain ⟨_, hresult⟩ := map_snd_eq_ok hcall
      exact ⟨_, create_keeps h hresult⟩
  | detach watcherId detachedAt =>
      obtain ⟨_, hresult⟩ := map_snd_eq_ok hcall
      exact ⟨_, (detach_controls hresult).keeps h⟩
  | detachIfRevision watcherId parentRunId expectedRevision detachedAt =>
      obtain ⟨_, hresult⟩ := map_snd_eq_ok hcall
      refine ⟨_, (transitionIfRevision_controls (by decide) ?_ hresult).keeps h⟩
      exact fun row hopen => controlled_detached detachedAt hopen
  | reattach watcherId reattachedAt =>
      obtain ⟨_, hresult⟩ := map_snd_eq_ok hcall
      exact ⟨_, (reattach_controls hresult).keeps h⟩
  | reattachIfRevision watcherId parentRunId expectedRevision reattachedAt =>
      obtain ⟨_, hresult⟩ := map_snd_eq_ok hcall
      refine ⟨_, (transitionIfRevision_controls (by decide) ?_ hresult).keeps h⟩
      exact fun row hopen => controlled_reattached reattachedAt hopen
  | claimControlRevision watcherId parentRunId expectedRevision updatedAt =>
      obtain ⟨_, hresult⟩ := map_snd_eq_ok hcall
      exact ⟨_, (claimControlRevision_controls hresult).keeps h⟩
  | close watcherId closedAt =>
      obtain ⟨_, hresult⟩ := map_snd_eq_ok hcall
      exact ⟨_, (close_controls hresult).keeps h⟩
  | catchUpWatcher watcherId limit observedAt =>
      obtain ⟨_, hresult⟩ := map_snd_eq_ok hcall
      exact ⟨_, catchUpWatcher_keeps hsha h hresult⟩
  | catchUpAttached watcherLimit eventLimit observedAt =>
      obtain ⟨_, hresult⟩ := map_snd_eq_ok hcall
      exact catchUpAttached_keeps hsha h hresult

theorem continueScan_keeps (hsha : Function.Injective runtime.sha256Hex) (index : Nat)
    (observedAt : String) (h : Sound runtime system.store.events system.store.watchers) :
    ∃ ids, Keeps runtime ids system.store
      (system.continueScan runtime index observedAt).store := by
  unfold WatcherSystem.continueScan
  split
  · exact ⟨[], .refl h _⟩
  · split
    · exact ⟨[], .refl h _⟩
    · split
      · exact ⟨[], .refl h _⟩
      · rename_i hresult
        exact ⟨_, catchUpWatcher_keeps hsha h hresult⟩

/-- Every event keeps what is true of the tables. -/
theorem step_keeps (hsha : Function.Injective runtime.sha256Hex)
    (hordinary : event.WritesNoNotice runtime)
    (h : Sound runtime system.store.events system.store.watchers)
    (hstep : system.Step runtime event system') :
    ∃ ids, Keeps runtime ids system.store system'.store := by
  rw [hstep]
  cases event with
  | call call =>
      unfold WatcherSystem.after
      dsimp only
      split
      · rename_i store' hresult
        exact perform_keeps hsha hordinary h hresult
      · exact ⟨[], .refl h _⟩
  | catchUpAttachedByChild childRunId watcherLimit eventLimit =>
      unfold WatcherSystem.after
      dsimp only
      split
      · exact ⟨[], .refl h _⟩
      · exact ⟨[], .refl h _⟩
  | continueScan index observedAt => exact continueScan_keeps hsha index observedAt h

/-- Every child event is relayed once, and the watchers form no cycle, in any run of the
calls. -/
theorem child_events_relayed_once (hsha : Function.Injective runtime.sha256Hex)
    {events : List WatcherEvent} (hrun : Run (WatcherSystem.Step runtime) .initial events system)
    (hevents : ∀ event ∈ events, event.WritesNoNotice runtime) :
    RelaysOnce system.store ∧
      ∀ event system', event.WritesNoNotice runtime → system.Step runtime event system' →
        ChangesByRevision system.store system'.store := by
  have hsound : Sound runtime system.store.events system.store.watchers := by
    refine Run.invariant_of_labels (I := fun system =>
      Sound runtime system.store.events system.store.watchers) ?_ hrun hevents sound_initial
    intro s event s' hstep hordinary hs
    obtain ⟨_, hkeeps⟩ := step_keeps hsha hordinary hs hstep
    exact hkeeps.1
  refine ⟨hsound.relaysOnce, ?_⟩
  intro event system' hordinary hstep
  obtain ⟨_, hkeeps⟩ := step_keeps hsha hordinary hsound hstep
  exact hkeeps.2.changesByRevision

/-- The system after a list of events. -/
def WatcherSystem.afterAll (runtime : WatcherRuntime) (events : List WatcherEvent)
    (system : WatcherSystem) : WatcherSystem :=
  events.foldl (fun system event => system.after runtime event) system

theorem run_afterAll (events : List WatcherEvent) (system : WatcherSystem) :
    Run (WatcherSystem.Step runtime) system events (system.afterAll runtime events) := by
  induction events generalizing system with
  | nil => exact .nil system
  | cons event events ih => exact .cons rfl (ih (system.after runtime event))

/-- A run whose child is started and then caught up with. -/
def startedChild : List WatcherEvent :=
  [.call (.createRun "parent"), .call (.createRun "child"),
    .call (.create ⟨"watcher", "parent", "child", none, none, "t0"⟩),
    .call (.append ⟨"event", "child", .runStarted, none, none, "t1"⟩),
    .call (.catchUpWatcher "watcher" 100 "t2")]

/-- The digests of the notice and of the empty payload. -/
def sampleDigests : Equiv.Perm String :=
  (Equiv.swap "watcher\x001"
    "921d002d5bb7fab0b52ef461f51f67d8915b945753839035cbf3745a7a6eb292").trans
  (Equiv.swap "\x7b\x7d" "44136fa355b3678a1146ad16f7e8649e94fb4fc21fe77e8310c060f61caaff8a")

def plainRuntime : WatcherRuntime where
  sha256Hex := sampleDigests
  redactionCount := fun _ => 0
  redactStructuredSecrets := fun payload => (payload, 0)
  idLe := utf16Le

theorem started_child_relayed :
    RelaysOnce (WatcherSystem.initial.afterAll plainRuntime startedChild).store ∧
      (WatcherSystem.initial.afterAll plainRuntime startedChild).store.watchers.map
        ChildWatcher.projectedNoticeCount = [1] := by
  have hsha : Function.Injective plainRuntime.sha256Hex := sampleDigests.injective
  refine ⟨(child_events_relayed_once hsha (run_afterAll startedChild .initial) ?_).1,
    by decide +kernel⟩
  intro event hevent
  simp only [startedChild, List.mem_cons, List.not_mem_nil, or_false] at hevent
  obtain rfl | rfl | rfl | rfl | rfl := hevent
  · trivial
  · trivial
  · trivial
  · refine ⟨by decide, ?_⟩
    intro watcherId childSequence heq
    have hhead := congrArg (fun text => text.toList.head?) heq
    simp only [buildChildNoticeEventId, String.toList_append, List.head?_append] at hhead
    exact absurd (Option.some.inj hhead) (by decide)
  · trivial

end Runs

end GoatCitadel.Storage.ChildWatchers
