import GoatCitadel.Cron.Runs

/-!
# The schedules of cron jobs

A schedule names minutes of local hours.  A fixed minute stands for the five
minutes that start with it, as far as they are in its hour, and the occurrence of
such a window is the start of its first minute.

The local time of a zone is a constant number of minutes away from UTC.
-/

namespace GoatCitadel.Cron

open GoatCitadel.Support
open GoatCitadel.Storage.WorktreeLeaseRepository (DateText)

/-! ## Schedules -/

/-- What `parseSimpleCronSchedule` makes of a schedule. -/
structure CronSchedule where
  minute : Option Nat
  hour : Option Nat
  hourStep : Option Nat
  weekdays : Option (List Nat)
  timeZone : Option String
  wildcardMinute : Bool
  wildcardHour : Bool
  wildcardWeekday : Bool
  deriving DecidableEq

/-- The zones that are known, and how many minutes they are ahead of UTC. -/
abbrev TimeZones := String → Option Int

/-- The parts of a text between white space. -/
def scheduleTokens (value : String) : List (List Char) :=
  (value.toList.splitOnP isTrimmed).filter fun token => !token.isEmpty

/-- The number that digits show. -/
def digitsValue? (digits : List Char) : Option Nat :=
  if digits ≠ [] ∧ digits.all Char.isDigit = true then
    some (digits.foldl (fun value c => 10 * value + (c.toNat - 48)) 0)
  else none

/-- The minute field; `*` names no minute. -/
def parseMinute (raw : List Char) : Option (Option Nat) :=
  if raw = ['*'] then some none
  else
    match digitsValue? raw with
    | some minute => if minute ≤ 59 then some (some minute) else none
    | none => none

/-- The hour field: the hour, and the step of `*/N`. -/
def parseHour (raw : List Char) : Option (Option Nat × Option Nat) :=
  match raw with
  | ['*'] => some (none, none)
  | '*' :: '/' :: step =>
      match digitsValue? step with
      | some step => if 1 ≤ step ∧ step ≤ 23 then some (none, some step) else none
      | none => none
  | _ =>
      match digitsValue? raw with
      | some hour => if hour ≤ 23 then some (some hour, none) else none
      | none => none

/-- A day of the week, Sunday first. -/
def weekdayDigit? (c : Char) : Option Nat :=
  if '0' ≤ c ∧ c ≤ '6' then some (c.toNat - 48) else none

/-- A day or an ascending range of days. -/
def weekdayRange? (token : List Char) : Option (List Nat) :=
  match token with
  | [first] => do
      let first ← weekdayDigit? first
      return [first]
  | [first, '-', last] => do
      let first ← weekdayDigit? first
      let last ← weekdayDigit? last
      if last < first then none
      else return (List.range (last + 1)).drop first
  | _ => none

/-- The field of the days of the week; `*` names no days. -/
def parseWeekdays (raw : List Char) : Option (Option (List Nat)) :=
  if raw = ['*'] then some none
  else do
    let days ← (raw.splitOnP (· = ',')).mapM weekdayRange?
    return some (days.flatten.dedup.insertionSort (· ≤ ·))

section Zones

variable (zones : TimeZones)

/-- The zone of a schedule, when one is named. -/
def parseTimeZone (parts : List (List Char)) : Option (Option String) :=
  if parts = [] then some none
  else
    let timeZone := " ".intercalate (parts.map String.ofList)
    if (zones timeZone).isSome then some (some timeZone) else none

def parseSimpleCronSchedule (value : String) : Option CronSchedule :=
  match scheduleTokens value with
  | minuteRaw :: hourRaw :: dayOfMonthRaw :: monthRaw :: dayOfWeekRaw :: timezoneParts =>
      if dayOfMonthRaw ≠ ['*'] ∨ monthRaw ≠ ['*'] then none
      else do
        let minute ← parseMinute minuteRaw
        let (hour, hourStep) ← parseHour hourRaw
        let weekdays ← parseWeekdays dayOfWeekRaw
        let timeZone ← parseTimeZone zones timezoneParts
        return { minute, hour, hourStep, weekdays, timeZone,
                 wildcardMinute := minuteRaw = ['*'], wildcardHour := hourRaw = ['*'],
                 wildcardWeekday := dayOfWeekRaw = ['*'] }
  | _ => none

/-! ## Local time -/

structure ZonedDateParts where
  year : Int
  month : Int
  day : Int
  hour : Int
  minute : Int
  weekday : Int
  deriving DecidableEq

/-- The year, the month and the day of a day that is counted from the epoch. -/
def civilDate (days : Int) : Int × Int × Int :=
  -- Years are counted from March on, so that a leap day is the last of its year.
  let shifted := days + 719468
  let era := shifted / 146097
  let dayOfEra := shifted % 146097
  let yearOfEra :=
    (dayOfEra - dayOfEra / 1460 + dayOfEra / 36524 - dayOfEra / 146096) / 365
  let dayOfYear := dayOfEra - (365 * yearOfEra + yearOfEra / 4 - yearOfEra / 100)
  let monthFromMarch := (5 * dayOfYear + 2) / 153
  let day := dayOfYear - (153 * monthFromMarch + 2) / 5 + 1
  let month := if monthFromMarch < 10 then monthFromMarch + 3 else monthFromMarch - 9
  let year := yearOfEra + era * 400 + if month ≤ 2 then 1 else 0
  -- Years before the first one are shown as those of the era before.
  (if year ≤ 0 then 1 - year else year, month, day)

/-- The time that clocks show `offset` minutes ahead of UTC, as a number of
milliseconds. -/
def localTime (offset date : Int) : Int := date + offset * 60000

/-- `getZonedDateParts` -/
def getZonedDateParts (date offset : Int) : ZonedDateParts :=
  let days := localTime offset date / 86400000
  let (year, month, day) := civilDate days
  { year, month, day
    hour := localTime offset date / 3600000 % 24
    minute := localTime offset date / 60000 % 60
    weekday := (days + 4) % 7 }

/-- How far ahead of UTC the zone of a schedule is. -/
def CronSchedule.offset (parsed : CronSchedule) : Int :=
  match parsed.timeZone with
  | some timeZone => (zones timeZone).getD 0
  | none => 0

/-- The hour is one of the schedule. -/
def CronSchedule.hourMatches (parsed : CronSchedule) (window : ZonedDateParts) : Bool :=
  if parsed.wildcardHour then true
  else
    match parsed.hourStep, parsed.hour with
    | some hourStep, _ => window.hour % hourStep = 0
    | none, some hour => window.hour = hour
    | none, none => true

/-- The minute is one of the five that start with the minute of the schedule. -/
def CronSchedule.minuteMatches (parsed : CronSchedule) (window : ZonedDateParts) : Bool :=
  if parsed.wildcardMinute then true
  else
    match parsed.minute with
    | some minute => minute ≤ window.minute && window.minute < minute + 5
    | none => false

/-- The day is one of the schedule. -/
def CronSchedule.weekdayMatches (parsed : CronSchedule) (window : ZonedDateParts) : Bool :=
  if parsed.wildcardWeekday then true
  else
    match parsed.weekdays with
    | some weekdays => weekdays.isEmpty || weekdays.any fun day => window.weekday = day
    | none => true

def doesCronScheduleMatch (parsed : CronSchedule) (date : Int) : Bool :=
  let window := getZonedDateParts date (parsed.offset zones)
  parsed.hourMatches window && parsed.minuteMatches window && parsed.weekdayMatches window

def cronRunWindowKey (parsed : CronSchedule) (date : Int) : String :=
  let parts := getZonedDateParts date (parsed.offset zones)
  let hour : Int :=
    match parsed.hour with
    | some hour => hour
    | none => parts.hour
  let minute : Int :=
    if parsed.wildcardMinute then parts.minute
    else
      match parsed.minute with
      | some minute => minute
      | none => parts.minute
  ":".intercalate [parsed.timeZone.getD "UTC", toString parts.year, toString parts.month,
    toString parts.day, toString hour, toString minute]

/-! ## Jobs -/

/-- What the scheduler reads of a job. -/
structure CronJobRecord where
  jobId : String
  action : CronJobAction
  schedule : String
  enabled : Bool
  endAt : Option String
  activeRunId : Option String
  lastRunAt : Option String
  failureCount : Option Nat
  backoffUntil : Option String

/-- A text that is there and is not empty. -/
def present (text : Option String) : Option String :=
  text.filter (· ≠ "")

def isExplicitCronJobDueNow (job : CronJobRecord) (now : Int) : Bool :=
  match parseSimpleCronSchedule zones job.schedule with
  | some parsed => doesCronScheduleMatch zones parsed now
  | none => false

/-- `computeCronOccurrenceScheduledFor`, before it is printed. -/
def occurrenceStart (schedule : String) (observedAt : Int) : Int :=
  let occurrence := observedAt / 60000 * 60000
  match parseSimpleCronSchedule zones schedule with
  | some parsed =>
      match parsed.wildcardMinute, parsed.minute with
      | false, some minute =>
          let shown := getZonedDateParts observedAt (parsed.offset zones)
          occurrence - max 0 (shown.minute - minute) * 60000
      | _, _ => occurrence
  | none => occurrence

variable (dates : DateText)

def isCronJobActive (job : CronJobRecord) (now : Int) : Bool :=
  match present job.endAt with
  | none => true
  | some endAt =>
      match dates.parse endAt with
      | some ms => now ≤ ms
      | none => false

def didCronJobRunInCurrentWindow (job : CronJobRecord) (now : Int) : Bool :=
  match present job.lastRunAt with
  | none => false
  | some lastRunAt =>
      match parseSimpleCronSchedule zones job.schedule, dates.parse lastRunAt with
      | some parsed, some lastRun =>
          cronRunWindowKey zones parsed now = cronRunWindowKey zones parsed lastRun
      | _, _ => false

def isCronJobBackedOff (job : CronJobRecord) (now : Int) : Bool :=
  match present job.backoffUntil with
  | none => false
  | some backoffUntil =>
      match dates.parse backoffUntil with
      | some ms => now < ms
      | none => false

/-- `computeCronBackoffUntil`; nothing when the time cannot be printed. -/
def computeCronBackoffUntil (failedAt : Int) (failureCount : Nat) : Option String :=
  let delayMs := min 3600000 (60000 * 2 ^ min 10 (failureCount - 1))
  dates.toISOString (failedAt + delayMs)

def computeCronOccurrenceScheduledFor (job : CronJobRecord) (observedAt : Int) :
    Option String :=
  dates.toISOString (occurrenceStart zones job.schedule observedAt)

end Zones

/-- The actions that are run on a schedule. -/
def isScheduledCronAction : CronJobAction → Bool
  | .task | .watchdog | .curator | .backup | .memoryFlush | .memoryConsolidation
  | .costReport | .updateReview | .noAgent | .agentTurn => true
  | .improvement => false

/-! ## Due windows -/

section Windows

variable {zones : TimeZones} {schedule : String} {date date' : Int}

/-- Two times at which a schedule is due, in one hour, and in one minute when the
schedule is due in every minute. -/
def SameDueWindow (zones : TimeZones) (schedule : String) (date date' : Int) : Prop :=
  ∃ parsed, parseSimpleCronSchedule zones schedule = some parsed ∧
    doesCronScheduleMatch zones parsed date = true ∧
    doesCronScheduleMatch zones parsed date' = true ∧
    localTime (parsed.offset zones) date / 3600000 =
      localTime (parsed.offset zones) date' / 3600000 ∧
    (parsed.wildcardMinute = true →
      localTime (parsed.offset zones) date / 60000 =
        localTime (parsed.offset zones) date' / 60000)

/-- In one hour, a schedule is due wherever its minute matches. -/
theorem match_of_same_hour {parsed : CronSchedule}
    (h : doesCronScheduleMatch zones parsed date = true)
    (hhour : localTime (parsed.offset zones) date / 3600000 =
      localTime (parsed.offset zones) date' / 3600000)
    (hminute : parsed.minuteMatches (getZonedDateParts date' (parsed.offset zones)) = true) :
    doesCronScheduleMatch zones parsed date' = true := by
  simp only [doesCronScheduleMatch, Bool.and_eq_true] at h ⊢
  obtain ⟨⟨hhourMatches, -⟩, hweekday⟩ := h
  have hday : localTime (parsed.offset zones) date / 86400000 =
      localTime (parsed.offset zones) date' / 86400000 := by omega
  refine ⟨⟨?_, hminute⟩, ?_⟩
  · simp only [CronSchedule.hourMatches, getZonedDateParts, hhour] at hhourMatches ⊢
    exact hhourMatches
  · simp only [CronSchedule.weekdayMatches, getZonedDateParts, hday] at hweekday ⊢
    exact hweekday

/-- The minutes of a schedule that is due are five at most. -/
theorem minute_of_match {parsed : CronSchedule} (hfixed : parsed.wildcardMinute = false)
    (h : doesCronScheduleMatch zones parsed date = true) :
    ∃ minute : Nat, parsed.minute = some minute ∧
      (minute : Int) ≤ localTime (parsed.offset zones) date / 60000 % 60 ∧
      localTime (parsed.offset zones) date / 60000 % 60 < minute + 5 := by
  simp only [doesCronScheduleMatch, Bool.and_eq_true] at h
  have hminute := h.1.2
  simp only [CronSchedule.minuteMatches, hfixed, Bool.false_eq_true, if_false] at hminute
  cases hset : parsed.minute with
  | none =>
      rw [hset] at hminute
      cases hminute
  | some minute =>
      rw [hset] at hminute
      simp only [Bool.and_eq_true, decide_eq_true_eq] at hminute
      exact ⟨minute, rfl, hminute⟩

section Occurrence

variable {parsed : CronSchedule}

theorem occurrenceStart_of_wildcard (hparsed : parseSimpleCronSchedule zones schedule =
      some parsed) (hwildcard : parsed.wildcardMinute = true) :
    occurrenceStart zones schedule date = date / 60000 * 60000 := by
  simp [occurrenceStart, hparsed, hwildcard]

theorem occurrenceStart_of_minute {minute : Nat}
    (hparsed : parseSimpleCronSchedule zones schedule = some parsed)
    (hfixed : parsed.wildcardMinute = false) (hminute : parsed.minute = some minute)
    (hle : (minute : Int) ≤ localTime (parsed.offset zones) date / 60000 % 60) :
    occurrenceStart zones schedule date =
      date / 60000 * 60000 -
        (localTime (parsed.offset zones) date / 60000 % 60 - minute) * 60000 := by
  have hmax : max 0 (localTime (parsed.offset zones) date / 60000 % 60 - minute) =
      localTime (parsed.offset zones) date / 60000 % 60 - minute := by omega
  simp only [occurrenceStart, hparsed, hfixed, hminute, getZonedDateParts, hmax]

/-- The occurrence of a window is the same at all its times. -/
theorem SameDueWindow.occurrenceStart_eq (h : SameDueWindow zones schedule date date') :
    occurrenceStart zones schedule date = occurrenceStart zones schedule date' := by
  obtain ⟨parsed, hparsed, hdue, hdue', hhour, hminutes⟩ := h
  cases hwildcard : parsed.wildcardMinute with
  | true =>
      have hsame := hminutes hwildcard
      rw [occurrenceStart_of_wildcard hparsed hwildcard,
        occurrenceStart_of_wildcard hparsed hwildcard]
      simp only [localTime] at hsame
      omega
  | false =>
      obtain ⟨minute, hminute, hle, -⟩ := minute_of_match hwildcard hdue
      obtain ⟨minute', hminute', hle', -⟩ := minute_of_match hwildcard hdue'
      obtain rfl := Option.some.inj (hminute.symm.trans hminute')
      rw [occurrenceStart_of_minute hparsed hwildcard hminute hle,
        occurrenceStart_of_minute hparsed hwildcard hminute hle']
      simp only [localTime] at hhour ⊢
      omega

/-- Times that a schedule is due at are in one window when they have one
occurrence. -/
theorem sameDueWindow_of_occurrenceStart
    (hparsed : parseSimpleCronSchedule zones schedule = some parsed)
    (hdue : doesCronScheduleMatch zones parsed date = true)
    (hdue' : doesCronScheduleMatch zones parsed date' = true)
    (h : occurrenceStart zones schedule date = occurrenceStart zones schedule date') :
    SameDueWindow zones schedule date date' := by
  refine ⟨parsed, hparsed, hdue, hdue', ?_⟩
  cases hwildcard : parsed.wildcardMinute with
  | true =>
      rw [occurrenceStart_of_wildcard hparsed hwildcard,
        occurrenceStart_of_wildcard hparsed hwildcard] at h
      simp only [localTime]
      omega
  | false =>
      obtain ⟨minute, hminute, hle, hlt⟩ := minute_of_match hwildcard hdue
      obtain ⟨minute', hminute', hle', hlt'⟩ := minute_of_match hwildcard hdue'
      obtain rfl := Option.some.inj (hminute.symm.trans hminute')
      rw [occurrenceStart_of_minute hparsed hwildcard hminute hle,
        occurrenceStart_of_minute hparsed hwildcard hminute hle'] at h
      simp only [localTime] at h hle hle' hlt hlt' ⊢
      refine ⟨by omega, ?_⟩
      intro hfalse
      cases hfalse

/-- The occurrence of a window is in the window. -/
theorem sameDueWindow_occurrenceStart
    (hparsed : parseSimpleCronSchedule zones schedule = some parsed)
    (hdue : doesCronScheduleMatch zones parsed date = true) :
    SameDueWindow zones schedule date (occurrenceStart zones schedule date) := by
  cases hwildcard : parsed.wildcardMinute with
  | true =>
      have hstart : occurrenceStart zones schedule date = date / 60000 * 60000 :=
        occurrenceStart_of_wildcard hparsed hwildcard
      have hsame : localTime (parsed.offset zones) date / 60000 =
          localTime (parsed.offset zones) (occurrenceStart zones schedule date) / 60000 := by
        rw [hstart]
        simp only [localTime]
        omega
      have hhour : localTime (parsed.offset zones) date / 3600000 =
          localTime (parsed.offset zones) (occurrenceStart zones schedule date) / 3600000 := by
        omega
      refine ⟨parsed, hparsed, hdue, match_of_same_hour hdue hhour ?_, hhour, fun _ => hsame⟩
      simp [CronSchedule.minuteMatches, hwildcard]
  | false =>
      obtain ⟨minute, hminute, hle, hlt⟩ := minute_of_match hwildcard hdue
      have hstart := occurrenceStart_of_minute hparsed hwildcard hminute hle
      simp only [localTime] at hle hlt hstart
      have hhour : localTime (parsed.offset zones) date / 3600000 =
          localTime (parsed.offset zones) (occurrenceStart zones schedule date) / 3600000 := by
        simp only [localTime]
        omega
      have hshown : localTime (parsed.offset zones) (occurrenceStart zones schedule date) /
          60000 % 60 = minute := by
        simp only [localTime]
        omega
      refine ⟨parsed, hparsed, hdue, match_of_same_hour hdue hhour ?_, hhour, ?_⟩
      · simp only [CronSchedule.minuteMatches, hwildcard, hminute, getZonedDateParts, hshown]
        simp
      · intro hfalse
        rw [hwildcard] at hfalse
        cases hfalse

end Occurrence

end Windows

end GoatCitadel.Cron
