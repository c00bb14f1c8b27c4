import Mathlib.Data.Prod.Lex
import Mathlib.Data.Rat.Floor
import GoatCitadel.Storage.UsageAccounting
import GoatCitadel.Support.Keyset
import GoatCitadel.Support.StableSort

/-!
# Paging through the model usage

The listed events are paged by their start time and event id, both descending.  The cursor of
a page joins the two fields of its last row with a bar, and is split at its last bar again.
An event id is free text, so a bar in it moves the split.
-/

namespace GoatCitadel.Storage.ModelUsage

open GoatCitadel.Support
open GoatCitadel.Contracts (isModelUsageProvenNotDispatched)

/-! ## Queries -/

/-- `ModelUsageEventListQuery` -/
structure UsageListQuery where
  workspaceId : Option String
  sessionId : Option String
  turnId : Option String
  durableRunId : Option String
  taskId : Option String
  assemblyRunId : Option String
  fromTime : Option String
  toTime : Option String
  availability : Option Availability
  limit : Option Rat
  cursor : Option String

/-- What `buildListParams` makes of the filter. -/
structure UsageListParams where
  workspaceId : Option String
  sessionId : Option String
  turnId : Option String
  durableRunId : Option String
  taskId : Option String
  assemblyRunId : Option String
  fromTime : Option String
  toTime : Option String
  availability : Option Availability

/-- The start time and the event id that a page begins after. -/
structure UsageCursor where
  startedAt : String
  eventId : String

structure UsagePage where
  items : List UsageEvent
  nextCursor : Option String

def encodeCursor (startedAt eventId : String) : String :=
  startedAt ++ "|" ++ eventId

/-- The characters before the last separator and those behind it. -/
def splitLast (separator : Char) (chars : List Char) : Option (List Char × List Char) :=
  if chars.contains separator = true then
    some ((chars.reverse.dropWhile (· ≠ separator)).tail.reverse,
      (chars.reverse.takeWhile (· ≠ separator)).reverse)
  else none

/-- `Math.max(1, Math.min(200, Math.floor(query.limit ?? 50)))` -/
def pageLimit (limit : Option Rat) : Nat :=
  (max 1 (min 200 ⌊limit.getD 50⌋)).toNat

section Listing

variable (runtime : UsageRuntime)

def parseCursor (cursor : Option String) : Except String (Option UsageCursor) :=
  match cursor with
  | none => return none
  | some cursor =>
      if cursor = "" then return none
      else if 1024 < utf16Length cursor then
        throw "model usage cursor must be at most 1024 characters"
      else
        match splitLast '|' cursor.toList with
        | none => throw "Invalid model usage cursor"
        | some (front, back) => do
            if front = [] ∨ back = [] then throw "Invalid model usage cursor"
            let startedAt ← requireCanonicalIso runtime (.ofList front) "cursor.startedAt"
            let eventId ← requireBoundedText (.ofList back) "cursor.eventId" 512
            return some { startedAt, eventId }

/-- A bound of the start times, which an empty text leaves open. -/
def optionalTime (value : Option String) (field : String) : Except String (Option String) :=
  match value with
  | none => return none
  | some value =>
      if value = "" then return none else return some (← requireCanonicalIso runtime value field)

def buildListParams (query : UsageListQuery) : Except String UsageListParams := do
  let workspaceId ← optionalBoundedText query.workspaceId "workspaceId" 512
  let sessionId ← optionalBoundedText query.sessionId "sessionId" 512
  let turnId ← optionalBoundedText query.turnId "turnId" 512
  let durableRunId ← optionalBoundedText query.durableRunId "durableRunId" 512
  let taskId ← optionalBoundedText query.taskId "taskId" 512
  let assemblyRunId ← optionalBoundedText query.assemblyRunId "assemblyRunId" 512
  let fromTime ← optionalTime runtime query.fromTime "from"
  let toTime ← optionalTime runtime query.toTime "to"
  return { workspaceId, sessionId, turnId, durableRunId, taskId, assemblyRunId, fromTime, toTime,
           availability := query.availability }

/-- A column has the value that is asked for. -/
def columnIs {α : Type} [DecidableEq α] (asked column : Option α) : Bool :=
  asked.all fun value => column = some value

/-- The conditions of `list` without the cursor. -/
def UsageListParams.selects (params : UsageListParams) (row : UsageEvent) : Bool :=
  (row.transportStatus = .accepted || row.transportStatus = .dispatchUnknown) &&
    columnIs params.workspaceId row.identity.workspaceId &&
    columnIs params.sessionId row.identity.sessionId &&
    columnIs params.turnId row.identity.turnId &&
    columnIs params.durableRunId row.identity.durableRunId &&
    columnIs params.taskId row.identity.taskId &&
    columnIs params.assemblyRunId row.identity.assemblyRunId &&
    params.fromTime.all (fun time => runtime.textLe time row.startedAt) &&
    params.toTime.all (fun time => runtime.textLe row.startedAt time) &&
    columnIs params.availability (some row.usage.availability)

/-- `<` of the text columns. -/
def UsageRuntime.textLt (a b : String) : Bool :=
  runtime.textLe a b && a ≠ b

/-- The condition on the cursor. -/
def UsageCursor.selects (cursor : UsageCursor) (row : UsageEvent) : Bool :=
  runtime.textLt row.startedAt cursor.startedAt ||
    (row.startedAt = cursor.startedAt && runtime.textLt row.eventId cursor.eventId)

/-- `ORDER BY started_at DESC, event_id DESC` -/
def UsageEvent.precedes (a b : UsageEvent) : Bool :=
  if a.startedAt = b.startedAt then runtime.textLe b.eventId a.eventId
  else runtime.textLe b.startedAt a.startedAt

/-- The rows that `list` selects, without its limit. -/
def listedRows (params : UsageListParams) (cursor : Option UsageCursor) (store : UsageStore) :
    List UsageEvent :=
  (store.events.filter fun row =>
    params.selects runtime row && cursor.all fun cursor => cursor.selects runtime row).insertionSort
      fun a b => a.precedes runtime b = true

def listUsage (query : UsageListQuery) (store : UsageStore) : Except String UsagePage := do
  let limit := pageLimit query.limit
  let cursor ← parseCursor runtime query.cursor
  let params ← buildListParams runtime query
  let rows := (listedRows runtime params cursor store).take (limit + 1)
  let items ← (rows.take limit).mapM mapRow
  let nextCursor := if limit < rows.length then
    items.getLast?.map fun last => encodeCursor last.startedAt last.eventId
  else none
  return { items, nextCursor }

/-- The page at a cursor, with the cursor of the next page. -/
def usagePageAt (query : UsageListQuery) (store : UsageStore) (cursor : Option String) :
    Except String (List UsageEvent × Option String) := do
  let page ← listUsage runtime { query with cursor } store
  return (page.items, page.nextCursor)

end Listing

/-! ## Texts -/

theorem utf16Length_append (a b : String) :
    utf16Length (a ++ b) = utf16Length a + utf16Length b := by
  have hstart : ∀ (chars : List Char) (start : Nat),
      chars.foldl (fun length c => length + if c.toNat < 0x10000 then 1 else 2) start =
        start + chars.foldl (fun length c => length + if c.toNat < 0x10000 then 1 else 2) 0 := by
    intro chars
    induction chars with
    | nil => intro start; rfl
    | cons c chars ih =>
        intro start
        rw [List.foldl_cons, List.foldl_cons, ih, ih (0 + _)]
        omega
  unfold utf16Length
  rw [String.toList_append, List.foldl_append, hstart]

theorem mem_dropWhile_of_not {p : Char → Bool} {chars : List Char} {c : Char}
    (hc : c ∈ chars) (hp : p c = false) : c ∈ chars.dropWhile p := by
  induction chars with
  | nil => exact hc
  | cons d chars ih =>
      by_cases hd : p d = true
      · rw [List.dropWhile_cons_of_pos hd]
        obtain rfl | hrest := List.mem_cons.mp hc
        · rw [hp] at hd
          exact absurd hd Bool.false_ne_true
        · exact ih hrest
      · rw [List.dropWhile_cons_of_neg hd]
        exact hc

/-- Trimming leaves a character that is no white space. -/
theorem mem_trim {text : String} {c : Char} (hc : c ∈ text.toList)
    (hset : isTrimmed c = false) : c ∈ (trim text).toList := by
  have hfront := mem_dropWhile_of_not hc hset
  rw [trim, String.toList_ofList, List.mem_reverse]
  exact mem_dropWhile_of_not (List.mem_reverse.mpr hfront) hset

/-- A text is split where no separator follows. -/
theorem splitLast_append {separator : Char} {front back : List Char}
    (hback : separator ∉ back) :
    splitLast separator (front ++ separator :: back) = some (front, back) := by
  have hmem : (front ++ separator :: back).contains separator = true :=
    List.contains_iff_mem.mpr (List.mem_append_right _ List.mem_cons_self)
  have hreverse : (front ++ separator :: back).reverse =
      back.reverse ++ separator :: front.reverse := by
    rw [List.reverse_append, List.reverse_cons, List.append_assoc]
    rfl
  have hall : ∀ c ∈ back.reverse, decide (c ≠ separator) = true := by
    intro c hc
    refine decide_eq_true ?_
    rintro rfl
    exact hback (List.mem_reverse.mp hc)
  have hdrop : (separator :: front.reverse).dropWhile (fun c => decide (c ≠ separator)) =
      separator :: front.reverse := List.dropWhile_cons_of_neg (by simp)
  have htake : (separator :: front.reverse).takeWhile (fun c => decide (c ≠ separator)) = [] :=
    List.takeWhile_cons_of_neg (by simp)
  rw [splitLast, if_pos hmem, hreverse, List.dropWhile_append_of_pos hall,
    List.takeWhile_append_of_pos hall, hdrop, htake, List.append_nil, List.tail_cons,
    List.reverse_reverse, List.reverse_reverse]

/-- A list with a separator has a last one. -/
theorem exists_last_separator {separator : Char} {chars : List Char} (h : separator ∈ chars) :
    ∃ front back, chars = front ++ separator :: back ∧ separator ∉ back := by
  induction chars with
  | nil => exact absurd h List.not_mem_nil
  | cons c chars ih =>
      by_cases hrest : separator ∈ chars
      · obtain ⟨front, back, rfl, hback⟩ := ih hrest
        exact ⟨c :: front, back, rfl, hback⟩
      · obtain rfl | hmem := List.mem_cons.mp h
        · exact ⟨[], chars, rfl, hrest⟩
        · exact absurd hmem hrest

section Cursors

variable {runtime : UsageRuntime}

theorem Listable.cursor_length {row : UsageEvent} (h : Listable runtime row) :
    utf16Length (encodeCursor row.startedAt row.eventId) ≤ 1024 := by
  obtain ⟨-, hid, hidTrim⟩ := requireBoundedText_eq_ok_iff.mp h.eventId
  obtain ⟨-, htime, htimeTrim, -⟩ := requireCanonicalIso_eq_ok_iff.mp h.startedAt
  rw [← hidTrim] at hid
  rw [← htimeTrim] at htime
  have hbar : utf16Length "|" = 1 := by decide
  unfold encodeCursor
  rw [utf16Length_append, utf16Length_append, hbar]
  omega

theorem parseCursor_of_split {cursor : String} {front back : List Char}
    (hlength : utf16Length cursor ≤ 1024)
    (hsplit : splitLast '|' cursor.toList = some (front, back))
    (hends : ¬(front = [] ∨ back = [])) :
    parseCursor runtime (some cursor) =
      (requireCanonicalIso runtime (.ofList front) "cursor.startedAt").bind fun startedAt =>
        (requireBoundedText (.ofList back) "cursor.eventId" 512).bind fun eventId =>
          .ok (some { startedAt, eventId }) := by
  have hset : cursor ≠ "" := by
    rintro rfl
    have hnone : splitLast '|' "".toList = none := rfl
    rw [hnone] at hsplit
    exact absurd hsplit.symm (Option.some_ne_none _)
  simp only [parseCursor, hsplit]
  rw [if_neg hset, if_neg (Nat.not_lt.mpr hlength), if_neg hends]
  rfl

theorem toList_encodeCursor (startedAt eventId : String) :
    (encodeCursor startedAt eventId).toList = startedAt.toList ++ '|' :: eventId.toList := by
  unfold encodeCursor
  rw [String.toList_append, String.toList_append, List.append_assoc]
  rfl

theorem Listable.startedAt_ne_nil {row : UsageEvent} (h : Listable runtime row) :
    row.startedAt.toList ≠ [] := by
  obtain ⟨hset, -, htrim, -⟩ := requireCanonicalIso_eq_ok_iff.mp h.startedAt
  rw [← htrim] at hset
  intro hnil
  exact hset (String.toList_eq_nil_iff.mp hnil)

/-- The cursor of an event without a bar in its id is read back. -/
theorem Listable.parseCursor_of_barFree {row : UsageEvent} (h : Listable runtime row)
    (hbar : '|' ∉ row.eventId.toList) :
    parseCursor runtime (some (encodeCursor row.startedAt row.eventId)) =
      .ok (some { startedAt := row.startedAt, eventId := row.eventId }) := by
  obtain ⟨hset, hlength, htrim⟩ := requireBoundedText_eq_ok_iff.mp h.eventId
  have hsplit : splitLast '|' (encodeCursor row.startedAt row.eventId).toList =
      some (row.startedAt.toList, row.eventId.toList) := by
    rw [toList_encodeCursor]
    exact splitLast_append hbar
  have hends : ¬(row.startedAt.toList = [] ∨ row.eventId.toList = []) := by
    rintro (hnil | hnil)
    · exact h.startedAt_ne_nil hnil
    · rw [← htrim] at hset
      exact hset (String.toList_eq_nil_iff.mp hnil)
  have htime : requireCanonicalIso runtime row.startedAt "cursor.startedAt" =
      .ok row.startedAt :=
    requireCanonicalIso_eq_ok_iff.mpr (requireCanonicalIso_eq_ok_iff.mp h.startedAt)
  have hid : requireBoundedText row.eventId "cursor.eventId" 512 = .ok row.eventId :=
    requireBoundedText_eq_ok_iff.mpr ⟨hset, hlength, htrim⟩
  rw [parseCursor_of_split h.cursor_length hsplit hends, String.ofList_toList,
    String.ofList_toList, htime, hid]
  rfl

/-- The texts of times have no bar. -/
def BarFree (runtime : UsageRuntime) : Prop :=
  ∀ ms text, runtime.dates.toISOString ms = some text → '|' ∉ text.toList

/-- A bar in the event id makes the cursor unreadable. -/
theorem Listable.parseCursor_of_bar {row : UsageEvent} (hdates : BarFree runtime)
    (h : Listable runtime row) (hbar : '|' ∈ row.eventId.toList) (cursor : Option UsageCursor) :
    parseCursor runtime (some (encodeCursor row.startedAt row.eventId)) ≠ .ok cursor := by
  intro hparse
  obtain ⟨front, back, hid, hback⟩ := exists_last_separator hbar
  have hsplit : splitLast '|' (encodeCursor row.startedAt row.eventId).toList =
      some (row.startedAt.toList ++ '|' :: front, back) := by
    rw [toList_encodeCursor, hid]
    have hassoc : row.startedAt.toList ++ '|' :: (front ++ '|' :: back) =
        (row.startedAt.toList ++ '|' :: front) ++ '|' :: back := by
      rw [List.append_assoc]
      rfl
    rw [hassoc]
    exact splitLast_append hback
  by_cases hnil : back = []
  · have hset : encodeCursor row.startedAt row.eventId ≠ "" := by
      intro hempty
      have hmem := toList_encodeCursor row.startedAt row.eventId
      rw [hempty] at hmem
      exact List.append_ne_nil_of_right_ne_nil _ (List.cons_ne_nil _ _) hmem.symm
    simp only [parseCursor, hsplit] at hparse
    rw [if_neg hset, if_neg (Nat.not_lt.mpr h.cursor_length), if_pos (.inr hnil)] at hparse
    cases hparse
  · have hends : ¬(row.startedAt.toList ++ '|' :: front = [] ∨ back = []) := by
      rintro (hfront | hback)
      · exact List.append_ne_nil_of_right_ne_nil _ (List.cons_ne_nil _ _) hfront
      · exact hnil hback
    rw [parseCursor_of_split h.cursor_length hsplit hends] at hparse
    obtain ⟨time, htime, -⟩ := bind_eq_ok.mp hparse
    obtain ⟨-, -, -, htext⟩ := requireCanonicalIso_eq_ok_iff.mp htime
    obtain ⟨ms, -, hiso⟩ := Option.bind_eq_some_iff.mp htext
    refine hdates ms _ hiso (mem_trim ?_ (by decide))
    rw [String.toList_ofList]
    exact List.mem_append_right _ List.mem_cons_self

end Cursors

/-! ## The order of the rows -/

section Order

variable {runtime : UsageRuntime} (order : TextOrder runtime.textLe)

/-- What the rows are ordered by, descending. -/
def rankOf (startedAt eventId : String) : (ColumnText order ×ₗ ColumnText order)ᵒᵈ :=
  OrderDual.toDual (toLex (⟨startedAt⟩, ⟨eventId⟩))

def UsageEvent.rank (row : UsageEvent) : (ColumnText order ×ₗ ColumnText order)ᵒᵈ :=
  rankOf order row.startedAt row.eventId

theorem lt_iff_textLt {a b : String} :
    (⟨a⟩ : ColumnText order) < ⟨b⟩ ↔ runtime.textLt a b = true := by
  rw [lt_iff_le_and_ne, UsageRuntime.textLt, Bool.and_eq_true, decide_eq_true_iff]
  have hne : (⟨a⟩ : ColumnText order) ≠ ⟨b⟩ ↔ a ≠ b :=
    not_congr ⟨fun h => congrArg ColumnText.text h, fun h => congrArg ColumnText.mk h⟩
  rw [hne]
  rfl

theorem precedes_iff_rank_le {a b : UsageEvent} :
    a.precedes runtime b = true ↔ a.rank order ≤ b.rank order := by
  have hrank : a.rank order ≤ b.rank order ↔
      runtime.textLt b.startedAt a.startedAt = true ∨
        (⟨b.startedAt⟩ : ColumnText order) = ⟨a.startedAt⟩ ∧
          runtime.textLe b.eventId a.eventId = true := by
    rw [← lt_iff_textLt order]
    exact Prod.Lex.toLex_le_toLex
  rw [hrank, ColumnText.mk.injEq]
  unfold UsageEvent.precedes UsageRuntime.textLt
  by_cases hsame : a.startedAt = b.startedAt
  · simp [hsame]
  · simp [hsame, Ne.symm hsame]

theorem cursor_selects_iff {cursor : UsageCursor} {row : UsageEvent} :
    cursor.selects runtime row = true ↔
      rankOf order cursor.startedAt cursor.eventId < row.rank order := by
  have hrank : rankOf order cursor.startedAt cursor.eventId < row.rank order ↔
      runtime.textLt row.startedAt cursor.startedAt = true ∨
        (⟨row.startedAt⟩ : ColumnText order) = ⟨cursor.startedAt⟩ ∧
          runtime.textLt row.eventId cursor.eventId = true := by
    rw [← lt_iff_textLt order, ← lt_iff_textLt order]
    exact Prod.Lex.toLex_lt_toLex
  rw [hrank, ColumnText.mk.injEq, UsageCursor.selects, Bool.or_eq_true, Bool.and_eq_true,
    decide_eq_true_iff]

/-- The rows that `list` selects, without its limit, are in the order of their ranks. -/
theorem listedRows_eq (params : UsageListParams) (cursor : Option UsageCursor)
    (store : UsageStore) :
    listedRows runtime params cursor store =
      inOrder (UsageEvent.rank order) ((store.events.filter (params.selects runtime)).filter
        fun row => After (cursor.map fun cursor => rankOf order cursor.startedAt cursor.eventId)
          (row.rank order)) := by
  have hafter : ∀ row, (cursor.all fun cursor => cursor.selects runtime row) =
      decide (After (cursor.map fun cursor => rankOf order cursor.startedAt cursor.eventId)
        (row.rank order)) := by
    intro row
    cases cursor with
    | none => rfl
    | some cursor =>
        rw [Bool.eq_iff_iff, decide_eq_true_iff]
        exact cursor_selects_iff order
  unfold listedRows inOrder
  rw [List.filter_filter, insertionSort_congr fun a b => precedes_iff_rank_le order]
  congr 2
  funext row
  rw [hafter, Bool.and_comm]

/-- With the limit they are a keyset page. -/
theorem take_listedRows (params : UsageListParams) (cursor : Option UsageCursor)
    (store : UsageStore) (limit : Nat) :
    (listedRows runtime params cursor store).take limit =
      keysetPage (UsageEvent.rank order)
        (cursor.map fun cursor => rankOf order cursor.startedAt cursor.eventId) limit
        (store.events.filter (params.selects runtime)) := by
  rw [listedRows_eq order]
  rfl

end Order

/-! ## One page -/

/-- The events that are stored have ids of their own, and `begin` has accepted them. -/
structure ListableStore (runtime : UsageRuntime) (store : UsageStore) : Prop where
  ids : (store.events.map UsageEvent.eventId).Nodup
  rows : ∀ row ∈ store.events, Listable runtime row

/-- The selected events, by start time and event id descending. -/
def selectedRows (runtime : UsageRuntime) (params : UsageListParams) (store : UsageStore) :
    List UsageEvent :=
  (store.events.filter (params.selects runtime)).insertionSort
    fun a b => a.precedes runtime b = true

/-- The cursor of the page that begins at an offset. -/
def cursorAt (rows : List UsageEvent) : Nat → Option String
  | 0 => none
  | offset + 1 => rows[offset]?.map fun row => encodeCursor row.startedAt row.eventId

theorem cursorAt_succ (rows : List UsageEvent) (last : Nat) :
    cursorAt rows (last + 1) =
      rows[last]?.map fun row => encodeCursor row.startedAt row.eventId :=
  rfl

theorem isSome_cursorAt {rows : List UsageEvent} {offset : Nat} (hset : 1 ≤ offset)
    (hoffset : offset ≤ rows.length) : (cursorAt rows offset).isSome = true := by
  obtain ⟨last, rfl⟩ : ∃ last, offset = last + 1 := ⟨offset - 1, by omega⟩
  rw [cursorAt_succ, List.getElem?_eq_getElem hoffset]
  rfl

theorem mapM_mapRow {runtime : UsageRuntime} {rows : List UsageEvent}
    (h : ∀ row ∈ rows, Listable runtime row) : rows.mapM mapRow = .ok rows := by
  induction rows with
  | nil => rfl
  | cons row rows ih =>
      obtain ⟨hrow, hrows⟩ := List.forall_mem_cons.mp h
      rw [List.mapM_cons, hrow.mapped, ih hrows]
      rfl

section Page

variable {runtime : UsageRuntime} {query : UsageListQuery} {params : UsageListParams}
  {store : UsageStore}

theorem selectedRows_eq_inOrder (order : TextOrder runtime.textLe) (params : UsageListParams)
    (store : UsageStore) :
    selectedRows runtime params store =
      inOrder (UsageEvent.rank order) (store.events.filter (params.selects runtime)) := by
  unfold selectedRows inOrder
  rw [insertionSort_congr fun a b => precedes_iff_rank_le order]

theorem mem_selectedRows {row : UsageEvent} :
    row ∈ selectedRows runtime params store ↔
      row ∈ store.events ∧ params.selects runtime row = true := by
  unfold selectedRows
  rw [List.mem_insertionSort, List.mem_filter]

theorem listedRows_none :
    listedRows runtime params none store = selectedRows runtime params store := by
  unfold listedRows selectedRows
  simp only [Option.all_none, Bool.and_true]

theorem ranks_distinct (order : TextOrder runtime.textLe) (h : ListableStore runtime store) :
    (store.events.filter (params.selects runtime)).Pairwise fun a b =>
      a.rank order ≠ b.rank order := by
  have hids : store.events.Pairwise fun a b => a.eventId ≠ b.eventId :=
    List.pairwise_map.mp h.ids
  refine (hids.sublist List.filter_sublist).imp ?_
  intro a b hne hrank
  have hpair := toLex.injective (OrderDual.toDual.injective hrank)
  exact hne (congrArg ColumnText.text (Prod.mk.inj hpair).2)

/-- The rows that are read at an offset are those behind it. -/
theorem take_listedRows_offset (order : TextOrder runtime.textLe)
    (h : ListableStore runtime store) {offset limit : Nat} {row : UsageEvent}
    (hrow : (selectedRows runtime params store)[offset]? = some row) :
    (listedRows runtime params (some { startedAt := row.startedAt, eventId := row.eventId })
        store).take limit =
      ((selectedRows runtime params store).drop (offset + 1)).take limit := by
  rw [selectedRows_eq_inOrder order] at hrow ⊢
  rw [take_listedRows order]
  exact keysetPage_after (ranks_distinct order h) hrow

theorem one_le_pageLimit (limit : Option Rat) : 1 ≤ pageLimit limit := by
  unfold pageLimit
  omega

/-- The cursor of a slice is the cursor behind it. -/
theorem getLast?_take_map_cursor {rows : List UsageEvent} {limit : Nat} (hlimit : 1 ≤ limit)
    (hmore : limit < rows.length) :
    ((rows.take limit).getLast?.map fun last => encodeCursor last.startedAt last.eventId) =
      cursorAt rows limit := by
  obtain ⟨last, rfl⟩ : ∃ last, limit = last + 1 := ⟨limit - 1, by omega⟩
  have hlength : (rows.take (last + 1)).length - 1 = last := by
    rw [List.length_take]
    omega
  rw [List.getLast?_eq_getElem?, hlength, List.getElem?_take_of_succ]
  rfl

theorem cursorAt_drop {rows : List UsageEvent} {offset limit : Nat} (hlimit : 1 ≤ limit) :
    cursorAt (rows.drop offset) limit = cursorAt rows (offset + limit) := by
  obtain ⟨last, rfl⟩ : ∃ last, limit = last + 1 := ⟨limit - 1, by omega⟩
  rw [← Nat.add_assoc, cursorAt_succ, cursorAt_succ, List.getElem?_drop]

/-- `list` once its cursor and its filter are read. -/
theorem listUsage_of_parsed (h : ListableStore runtime store) {cursor : Option UsageCursor}
    {rows : List UsageEvent} (hcursor : parseCursor runtime query.cursor = .ok cursor)
    (hparams : buildListParams runtime query = .ok params)
    (hrows : (listedRows runtime params cursor store).take (pageLimit query.limit + 1) =
      rows.take (pageLimit query.limit + 1)) (hmem : ∀ row ∈ rows, row ∈ store.events) :
    listUsage runtime query store = .ok
      { items := rows.take (pageLimit query.limit)
        nextCursor :=
          if pageLimit query.limit < rows.length then cursorAt rows (pageLimit query.limit)
          else none } := by
  have htake : (rows.take (pageLimit query.limit + 1)).take (pageLimit query.limit) =
      rows.take (pageLimit query.limit) := by
    rw [List.take_take, Nat.min_eq_left (Nat.le_succ _)]
  have hmap : (rows.take (pageLimit query.limit)).mapM mapRow =
      .ok (rows.take (pageLimit query.limit)) :=
    mapM_mapRow fun row hrow => h.rows row (hmem row (List.mem_of_mem_take hrow))
  have hnext : pageLimit query.limit < (rows.take (pageLimit query.limit + 1)).length ↔
      pageLimit query.limit < rows.length := by
    rw [List.length_take]
    omega
  unfold listUsage
  rw [hcursor, hparams]
  dsimp only [bind, Except.bind, pure, Except.pure]
  rw [hrows, htake, hmap]
  dsimp only
  by_cases hmore : pageLimit query.limit < rows.length
  · rw [if_pos (hnext.mpr hmore), if_pos hmore,
      getLast?_take_map_cursor (one_le_pageLimit _) hmore]
  · rw [if_neg fun hlt => hmore (hnext.mp hlt), if_neg hmore]

/-- The row that a page ends with can be found again by its cursor. -/
def CursorReadable (rows : List UsageEvent) (offset : Nat) : Prop :=
  ∀ row, 1 ≤ offset → rows[offset - 1]? = some row → '|' ∉ row.eventId.toList

/-- A page is the slice of the selected rows that its cursor points at. -/
theorem usagePageAt_slice (order : TextOrder runtime.textLe) (h : ListableStore runtime store)
    (hparams : buildListParams runtime query = .ok params) {offset : Nat}
    (hoffset : offset ≤ (selectedRows runtime params store).length)
    (hread : CursorReadable (selectedRows runtime params store) offset) :
    SlicesAt (usagePageAt runtime query store) (selectedRows runtime params store)
      (pageLimit query.limit) (cursorAt (selectedRows runtime params store)) offset := by
  have hlimit := one_le_pageLimit query.limit
  have hmem : ∀ row ∈ (selectedRows runtime params store).drop offset, row ∈ store.events :=
    fun row hrow => (mem_selectedRows.mp (List.mem_of_mem_drop hrow)).1
  have hcursor : ∃ cursor,
      parseCursor runtime (cursorAt (selectedRows runtime params store) offset) = .ok cursor ∧
        (listedRows runtime params cursor store).take (pageLimit query.limit + 1) =
          ((selectedRows runtime params store).drop offset).take (pageLimit query.limit + 1) := by
    cases offset with
    | zero =>
        refine ⟨none, rfl, ?_⟩
        rw [listedRows_none, List.drop_zero]
    | succ last =>
        have hlast : (selectedRows runtime params store)[last]? =
            some (selectedRows runtime params store)[last] := List.getElem?_eq_getElem hoffset
        have hrow := h.rows _ (mem_selectedRows.mp (List.mem_of_getElem? hlast)).1
        refine ⟨_, ?_, take_listedRows_offset order h hlast⟩
        rw [cursorAt_succ, hlast]
        exact hrow.parseCursor_of_barFree (hread _ (Nat.succ_pos last) hlast)
  obtain ⟨cursor, hparsed, hrows⟩ := hcursor
  have hpage :
      listUsage runtime
        { query with cursor := cursorAt (selectedRows runtime params store) offset } store = _ :=
    listUsage_of_parsed h hparsed hparams hrows hmem
  have hlength : pageLimit query.limit <
      ((selectedRows runtime params store).drop offset).length ↔
        offset + pageLimit query.limit < (selectedRows runtime params store).length := by
    rw [List.length_drop]
    omega
  unfold SlicesAt usagePageAt
  rw [hpage, cursorAt_drop hlimit]
  dsimp only [bind, Except.bind, pure, Except.pure]
  simp only [hlength]

/-- Two rows stand in the order of the pages. -/
def UsageEvent.before (runtime : UsageRuntime) (a b : UsageEvent) : Prop :=
  runtime.textLt b.startedAt a.startedAt = true ∨
    a.startedAt = b.startedAt ∧ runtime.textLt b.eventId a.eventId = true

/-- The cursors lead to a last page, and the pages hold every selected event once, by start
time and event id descending. -/
def PagedOnce (runtime : UsageRuntime) (query : UsageListQuery) (store : UsageStore) : Prop :=
  ∃ params received, buildListParams runtime query = .ok params ∧
    Pages (usagePageAt runtime query store) none received ∧
    received.Perm (store.events.filter (params.selects runtime)) ∧
    received.Pairwise (UsageEvent.before runtime)

/-- No page but the last ends with an event that has a bar in its id. -/
def PageEndsReadable (runtime : UsageRuntime) (query : UsageListQuery)
    (params : UsageListParams) (store : UsageStore) : Prop :=
  ∀ pages, pages * pageLimit query.limit < (selectedRows runtime params store).length →
    CursorReadable (selectedRows runtime params store) (pages * pageLimit query.limit)

theorem before_of_rank_lt (order : TextOrder runtime.textLe) {a b : UsageEvent}
    (h : a.rank order < b.rank order) : a.before runtime b := by
  have hselects : UsageCursor.selects runtime ⟨a.startedAt, a.eventId⟩ b = true :=
    (cursor_selects_iff order).mpr h
  rw [UsageCursor.selects, Bool.or_eq_true, Bool.and_eq_true, decide_eq_true_iff] at hselects
  exact hselects.imp_right fun hsame => ⟨hsame.1.symm, hsame.2⟩

theorem selectedRows_before (order : TextOrder runtime.textLe)
    (h : ListableStore runtime store) :
    (selectedRows runtime params store).Pairwise (UsageEvent.before runtime) := by
  rw [selectedRows_eq_inOrder order]
  exact (inOrder_increasing (ranks_distinct order h)).imp (before_of_rank_lt order)

/-- Readable page ends lead through all pages. -/
theorem PageEndsReadable.pages (order : TextOrder runtime.textLe)
    (h : ListableStore runtime store) (hparams : buildListParams runtime query = .ok params)
    (hread : PageEndsReadable runtime query params store) :
    Pages (usagePageAt runtime query store) none (selectedRows runtime params store) := by
  have hslices : ∀ turns,
      0 + turns * pageLimit query.limit < (selectedRows runtime params store).length ∨
        turns = 0 →
      SlicesAt (usagePageAt runtime query store) (selectedRows runtime params store)
        (pageLimit query.limit) (cursorAt (selectedRows runtime params store))
        (0 + turns * pageLimit query.limit) := by
    intro turns hturns
    rw [Nat.zero_add] at hturns ⊢
    obtain hlt | rfl := hturns
    · exact usagePageAt_slice order h hparams hlt.le (hread turns hlt)
    · rw [Nat.zero_mul]
      exact usagePageAt_slice order h hparams (Nat.zero_le _) fun _ hone _ =>
        absurd hone (by omega)
  exact pages_of_slices (one_le_pageLimit query.limit) (fun _ => isSome_cursorAt) hslices

/-- A page that was read had a readable cursor. -/
theorem cursorReadable_of_read (hdates : BarFree runtime) (h : ListableStore runtime store)
    {offset : Nat} {page : List UsageEvent × Option String}
    (hpage : usagePageAt runtime query store
      (cursorAt (selectedRows runtime params store) offset) = .ok page) :
    CursorReadable (selectedRows runtime params store) offset := by
  intro row hset hrow hbar
  obtain ⟨last, rfl⟩ : ∃ last, offset = last + 1 := ⟨offset - 1, by omega⟩
  rw [Nat.add_sub_cancel] at hrow
  rw [cursorAt_succ, hrow] at hpage
  obtain ⟨found, hlist, -⟩ := bind_eq_ok.mp hpage
  obtain ⟨cursor, hcursor, -⟩ := bind_eq_ok.mp hlist
  have hlistable := h.rows row (mem_selectedRows.mp (List.mem_of_getElem? hrow)).1
  exact hlistable.parseCursor_of_bar hdates hbar cursor hcursor

/-- Pages that lead to an end have passed every page end before it. -/
theorem pages_reach (order : TextOrder runtime.textLe) (hdates : BarFree runtime)
    (h : ListableStore runtime store) (hparams : buildListParams runtime query = .ok params)
    {received : List UsageEvent} (hpages : Pages (usagePageAt runtime query store) none received)
    (pages : Nat)
    (hlt : pages * pageLimit query.limit < (selectedRows runtime params store).length) :
    ∃ rest, Pages (usagePageAt runtime query store)
      (cursorAt (selectedRows runtime params store) (pages * pageLimit query.limit)) rest := by
  induction pages with
  | zero =>
      rw [Nat.zero_mul]
      exact ⟨received, hpages⟩
  | succ pages ih =>
      rw [Nat.add_mul, Nat.one_mul] at hlt ⊢
      obtain ⟨rest, hrest⟩ := ih (by omega)
      obtain ⟨items, next, hpage⟩ := hrest.read
      have hbefore : pages * pageLimit query.limit ≤ (selectedRows runtime params store).length :=
        by omega
      have hslice := usagePageAt_slice order h hparams hbefore
        (cursorReadable_of_read hdates h hpage)
      have hone := one_le_pageLimit query.limit
      exact hrest.step hslice hlt (isSome_cursorAt (by omega) hlt.le)

end Page

/-! ## Stores that are reached -/

/-- Every event that is stored is listable. -/
def AllListable (runtime : UsageRuntime) (store : UsageStore) : Prop :=
  ∀ row ∈ store.events, Listable runtime row

section Reached

variable {runtime : UsageRuntime} {store store' : UsageStore}

theorem Move.allListable (h : Move runtime store store') (hrows : AllListable runtime store) :
    AllListable runtime store' := by
  cases h with
  | begun _ hrow =>
      exact forall_mem_append_singleton hrows hrow
  | updated hset =>
      intro row hrow
      obtain ⟨before, hbefore, rfl⟩ := mem_updateRows.mp hrow
      split
      · rename_i hguard
        exact (hrows before hbefore).of_sameAttempt (hset before hguard).2
      · exact hrows before hbefore
  | abandoned _ => exact fun row hrow => hrows row (List.mem_filter.mp hrow).1
  | charged _ _ _ _ => exact hrows

theorem Moves.allListable (h : Moves runtime store store') (hrows : AllListable runtime store) :
    AllListable runtime store' := by
  induction h with
  | refl => exact hrows
  | tail _ hlast ih => exact hlast.allListable ih

/-- Whatever calls have run from fresh tables, the events can be listed. -/
theorem listableStore_of_run {start : UsageStore} {calls : List UsageCall} (hstart : Fresh start)
    (hrun : Run (UsageStore.Step runtime) start calls store) : ListableStore runtime store := by
  have hmoves := moves_of_run hrun hstart.accounted
  refine ⟨(hmoves.accounted hstart.accounted).ids, hmoves.allListable ?_⟩
  intro row hrow
  rw [hstart.events] at hrow
  cases hrow

end Reached

/-! ## Two events at one time -/

/-- An attempt with an id is begun and accepted. -/
def acceptedAttempt (eventId idempotencyKey : String) : List UsageCall :=
  [.beginAttempt { sampleBegin with eventId, idempotencyKey },
    .acceptTransport eventId "owner" "1970-01-01T00:01:00.000Z"]

def storeOfTwo (first second : String) : UsageStore :=
  sampleStart.afterAll sampleRuntime
    (acceptedAttempt first "first" ++ acceptedAttempt second "second")

def onePerPage : UsageListQuery where
  workspaceId := none
  sessionId := some "session"
  turnId := none
  durableRunId := none
  taskId := none
  assemblyRunId := none
  fromTime := none
  toTime := none
  availability := none
  limit := some 1
  cursor := none

theorem sampleRuntime_textOrder : TextOrder sampleRuntime.textLe where
  total := utf16Le_total
  trans := utf16Le_trans
  antisymm _ _ := utf16Le_antisymm

theorem sampleRuntime_barFree : BarFree sampleRuntime := by
  intro ms text h
  dsimp only [sampleRuntime, WorktreeLeaseRepository.epochDates] at h
  split_ifs at h with hzero hminute
  · obtain rfl := Option.some_inj.mp h
    decide
  · obtain rfl := Option.some_inj.mp h
    decide

end GoatCitadel.Storage.ModelUsage
