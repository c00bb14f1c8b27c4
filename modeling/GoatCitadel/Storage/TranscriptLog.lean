import GoatCitadel.Policy.JsonQuotes
import GoatCitadel.Support.Utf8
import GoatCitadel.Support.Words

/-!
# The transcript log

The transcript of a session is a file with one JSON text a line.  The log reads the file back
line by line; to find out whether an event is there already it lets the line reader of the
platform cut the file, which takes the line separators of Unicode for ends of lines as well.
-/

namespace GoatCitadel.Storage.Transcripts

open GoatCitadel.Support
open GoatCitadel.Policy (JsonObject JsonValue NumberFormat Readable jsonParse relisted)

/-! ## Events -/

/-- A member that is a text, `""` when it is none. -/
def textMember (fields : JsonObject) (key : String) : String :=
  JsonValue.stringOrEmpty (fields.lookup key)

def isRecord : JsonValue → Bool
  | .object _ => true
  | .array _ => true
  | _ => false

def transcriptEventTexts : List String :=
  ["eventId", "actionId", "idempotencyKey", "sessionId", "sessionKey", "timestamp", "type",
    "actorType", "actorId"]

/-- The texts that an event has, and its payload.  An array has none of them. -/
def isTranscriptEvent (fields : JsonObject) : Bool :=
  (transcriptEventTexts.all fun key => ((fields.lookup key).bind JsonValue.asString?).isSome) &&
    (fields.lookup "payload").any isRecord

/-- An event, as the members that it is printed with. -/
structure TranscriptEvent (format : NumberFormat) where
  fields : JsonObject
  readable : Readable format (.object fields)
  listed : relisted (.object fields) = .object fields
  isEvent : isTranscriptEvent fields = true

/-- What stands for an event that cannot be read. -/
def invalidTranscriptEvent : JsonObject :=
  [("eventId", .string "invalid"), ("actionId", .string "invalid"),
    ("idempotencyKey", .string "invalid"), ("sessionId", .string "invalid"),
    ("sessionKey", .string "invalid"), ("timestamp", .string "1970-01-01T00:00:00.000Z"),
    ("type", .string "orchestration.phase"), ("actorType", .string "system"),
    ("actorId", .string "system"),
    ("payload", .object [("reason", .string "invalid_transcript_event")])]

/-- An object that a text holds. -/
def parseObject (format : NumberFormat) (text : String) : Option JsonObject :=
  (jsonParse format text).bind fun
    | .object fields => some fields
    | _ => none

def parseTranscriptEvent (format : NumberFormat) (raw : String) : JsonObject :=
  ((parseObject format raw).filter isTranscriptEvent).getD invalidTranscriptEvent

/-! ## The file -/

/-- `JSON.stringify(event) + "\n"` -/
def eventLine (fields : JsonObject) : List Char :=
  JsonValue.chars (.object fields) ++ ['\n']

/-- The event of a line; a line that is no object is put aside. -/
def readLine (format : NumberFormat) (line : List Char) : Option JsonObject :=
  let trimmed := trim (String.ofList line)
  if trimmed = "" then none else parseObject format trimmed

def read (format : NumberFormat) (content : List UInt8) : List JsonObject :=
  ((utf8Decode content).splitOn '\n').filterMap (readLine format)

def isUnicodeSeparator (c : Char) : Bool :=
  c.toNat == 0x2028 || c.toNat == 0x2029

/-- The lines of the line reader: `/\r?\n|\r(?!\n)|\u2028|\u2029/`. -/
def readlineLines (afterReturn : Bool) (current : List Char) : List Char → List (List Char)
  | [] => closeWord current
  | c :: text =>
      if c = '\n' ∧ afterReturn = true then readlineLines false [] text
      else if c = '\n' ∨ c = '\r' ∨ isUnicodeSeparator c = true then
        current :: readlineLines (c == '\r') [] text
      else readlineLines false (current ++ [c]) text

/-- `JSON.stringify(eventId).slice(1, -1)` -/
def eventNeedle (eventId : String) : List Char :=
  (JsonValue.chars (.string eventId)).tail.dropLast

def isLineOf (format : NumberFormat) (eventId : String) (line : List Char) : Bool :=
  let trimmed := trim (String.ofList line)
  trimmed != "" && decide (eventNeedle eventId <:+: trimmed.toList) &&
    (parseObject format trimmed).any fun fields =>
      (fields.lookup "eventId").bind JsonValue.asString? == some eventId

def findFrom (format : NumberFormat) (eventId : String) (offset : Nat) :
    List (List Char) → Option Nat
  | [] => none
  | line :: lines =>
      if isLineOf format eventId line = true then some offset
      else findFrom format eventId (offset + utf8Length line + 1) lines

def findEventOffset (format : NumberFormat) (content : List UInt8) (eventId : String) :
    Option Nat :=
  findFrom format eventId 0 (readlineLines false [] (utf8Decode content))

namespace TranscriptEvent

variable {format : NumberFormat}

def eventId (event : TranscriptEvent format) : String :=
  textMember event.fields "eventId"

def sessionId (event : TranscriptEvent format) : String :=
  textMember event.fields "sessionId"

def text (event : TranscriptEvent format) : List Char :=
  JsonValue.chars (.object event.fields)

/-- The bytes that are appended for the event. -/
def line (event : TranscriptEvent format) : List UInt8 :=
  utf8Encode (eventLine event.fields)

/-- The text of the event holds a line separator of Unicode, which JSON does not escape. -/
def hasSeparator (event : TranscriptEvent format) : Bool :=
  event.text.any isUnicodeSeparator

end TranscriptEvent

/-! ## Printed events -/

section Texts

variable {format : NumberFormat} (event : TranscriptEvent format)

theorem fits_text : Policy.Fits .outside event.text :=
  (Policy.leads_chars _ event.readable.valid.2).1

theorem getLast?_fieldChars (first : Bool) (fields : JsonObject) :
    (JsonValue.fieldChars first fields).getLast? = some '\x7d' := by
  induction fields generalizing first with
  | nil => rfl
  | cons field fields ih =>
      obtain ⟨key, value⟩ := field
      rw [JsonValue.fieldChars, List.getLast?_append, List.getLast?_cons, List.getLast?_append,
        List.getLast?_cons, List.getLast?_append, ih]
      rfl

/-- White space is not cut off a text that begins and ends with other characters. -/
theorem trim_eq_self {text : String} {first last : Char} (hfirst : text.toList.head? = some first)
    (hfirstSet : isTrimmed first = false) (hlast : text.toList.getLast? = some last)
    (hlastSet : isTrimmed last = false) : trim text = text := by
  have htrim := @trim_append text "" first last hfirst hfirstSet hlast hlastSet (by decide)
  rwa [String.append_empty] at htrim

theorem trim_text : trim (String.ofList event.text) = String.ofList event.text := by
  have hlast : event.text.getLast? = some '\x7d' := by
    rw [TranscriptEvent.text, JsonValue.chars, List.getLast?_cons, getLast?_fieldChars]
    rfl
  apply @trim_eq_self _ '\x7b' '\x7d'
  · rw [String.toList_ofList]
    rfl
  · decide
  · rw [String.toList_ofList, hlast]
  · decide

theorem text_ne_empty : String.ofList event.text ≠ "" := by
  intro hempty
  have hlist := congrArg String.toList hempty
  rw [String.toList_ofList] at hlist
  exact List.cons_ne_nil _ _ hlist

theorem parseObject_text : parseObject format (String.ofList event.text) = some event.fields := by
  have hparse := Policy.jsonParse_stringify event.readable
  rw [event.listed] at hparse
  rw [parseObject, TranscriptEvent.text, ← JsonValue.stringify, hparse]
  rfl

/-- An event that was printed is read as it was. -/
theorem parseTranscriptEvent_text :
    parseTranscriptEvent format (String.ofList event.text) = event.fields := by
  rw [parseTranscriptEvent, parseObject_text, Option.filter_some, if_pos event.isEvent,
    Option.getD_some]

theorem readLine_text : readLine format event.text = some event.fields := by
  rw [readLine, trim_text, if_neg (text_ne_empty event), parseObject_text]

theorem ne_newline_of_mem_text {c : Char} (hc : c ∈ event.text) : c ≠ '\n' ∧ c ≠ '\r' := by
  have hcontrol := Policy.le_toNat_of_fits (fits_text event) c hc
  constructor
  · rintro rfl
    exact absurd hcontrol (by decide)
  · rintro rfl
    exact absurd hcontrol (by decide)

theorem lookup_eventId : event.fields.lookup "eventId" = some (.string event.eventId) := by
  have htexts := event.isEvent
  rw [isTranscriptEvent, Bool.and_eq_true, List.all_eq_true] at htexts
  have hsome := htexts.1 "eventId" (by decide)
  rw [TranscriptEvent.eventId, textMember, JsonValue.stringOrEmpty]
  cases hfound : event.fields.lookup "eventId" with
  | none =>
      rw [hfound] at hsome
      cases hsome
  | some value =>
      rw [hfound] at hsome
      cases value with
      | string text => rfl
      | _ => cases hsome

/-- The text of an event shows its identifier. -/
theorem needle_infix_text : eventNeedle event.eventId <:+: event.text := by
  have hneedle : JsonValue.chars (.string event.eventId) =
      '"' :: (eventNeedle event.eventId ++ ['"']) := by
    rw [eventNeedle, JsonValue.chars, JsonValue.quotedTail, List.tail_cons, List.dropLast_concat]
  have hfield : ∀ (fields : JsonObject) (first : Bool),
      fields.lookup "eventId" = some (.string event.eventId) →
      JsonValue.chars (.string event.eventId) <:+: JsonValue.fieldChars first fields := by
    intro fields
    induction fields with
    | nil =>
        intro first h
        cases h
    | cons field fields ih =>
        obtain ⟨key, value⟩ := field
        intro first h
        rw [JsonValue.fieldChars]
        by_cases hkey : key = "eventId"
        · rw [hkey, List.lookup_cons_self] at h
          rw [Option.some.inj h]
          have hshown : JsonValue.chars (.string event.eventId) <:+:
              JsonValue.chars (.string event.eventId) ++ JsonValue.fieldChars false fields :=
            (List.prefix_append _ _).isInfix
          exact (((hshown.trans (List.suffix_cons _ _).isInfix).trans
            (List.suffix_append _ _).isInfix).trans (List.suffix_cons _ _).isInfix).trans
              (List.suffix_append _ _).isInfix
        · have hne : ("eventId" == key) = false := beq_eq_false_iff_ne.mpr (Ne.symm hkey)
          rw [List.lookup_cons, hne] at h
          exact ((((ih false h).trans (List.suffix_append _ _).isInfix).trans
            (List.suffix_cons _ _).isInfix).trans (List.suffix_append _ _).isInfix).trans
              ((List.suffix_cons _ _).isInfix.trans (List.suffix_append _ _).isInfix)
  have hstring := hfield event.fields true (lookup_eventId event)
  rw [hneedle] at hstring
  have hinner : eventNeedle event.eventId <:+:
      '"' :: (eventNeedle event.eventId ++ ['"']) :=
    (List.prefix_append _ _).isInfix.trans (List.suffix_cons _ _).isInfix
  exact (hinner.trans hstring).trans (List.suffix_cons _ _).isInfix

/-- The line of an event is taken for the line of its identifier only. -/
theorem isLineOf_text (eventId : String) :
    isLineOf format eventId event.text = true ↔ event.eventId = eventId := by
  rw [isLineOf, trim_text, parseObject_text, String.toList_ofList, Option.any_some,
    lookup_eventId, Bool.and_eq_true, Bool.and_eq_true, decide_eq_true_iff, beq_iff_eq,
    bne_iff_ne]
  constructor
  · rintro ⟨-, h⟩
    exact Option.some.inj h
  · rintro rfl
    exact ⟨⟨text_ne_empty event, needle_infix_text event⟩, rfl⟩

/-- What `trim` leaves of a text, as characters. -/
theorem trim_ofList (piece : List Char) :
    trim (String.ofList piece) =
      String.ofList ((piece.dropWhile isTrimmed).rdropWhile isTrimmed) := by
  rw [← String.toList_inj, toList_trim, String.toList_ofList, String.toList_ofList]

theorem not_quote_of_isTrimmed {c : Char} (h : isTrimmed c = true) : c ≠ '"' ∧ c ≠ '\\' := by
  constructor
  · rintro rfl
    exact absurd h (by decide)
  · rintro rfl
    exact absurd h (by decide)

theorem fits_dropWhile {piece : List Char} (h : Policy.Fits .inside piece) :
    Policy.Fits .inside (piece.dropWhile isTrimmed) := by
  induction piece with
  | nil => exact h
  | cons c piece ih =>
      by_cases hc : isTrimmed c = true
      · obtain ⟨hquote, hbackslash⟩ := not_quote_of_isTrimmed hc
        rw [List.dropWhile_cons_of_pos hc]
        refine ih ?_
        have hrest := h.2
        rwa [Policy.QuoteState.step, if_neg hquote, if_neg hbackslash] at hrest
      · rwa [List.dropWhile_cons_of_neg hc]

/-- A piece of a text from inside of quotes is no line of an event. -/
theorem isLineOf_inside {piece : List Char} (eventId : String) (h : Policy.Fits .inside piece) :
    isLineOf format eventId piece = false := by
  have htrimmed : Policy.Fits .inside ((piece.dropWhile isTrimmed).rdropWhile isTrimmed) := by
    have hdrop := fits_dropWhile h
    rw [← List.rdropWhile_append_rtakeWhile (p := isTrimmed) (l := piece.dropWhile isTrimmed),
      Policy.fits_append] at hdrop
    exact hdrop.1
  rw [isLineOf, Bool.and_eq_false_imp]
  intro _
  rw [trim_ofList, parseObject]
  cases hparse : jsonParse format
      (String.ofList ((piece.dropWhile isTrimmed).rdropWhile isTrimmed)) with
  | none => rfl
  | some value =>
      cases value with
      | object fields =>
          have hbare := Policy.bare_of_jsonParse htrimmed hparse
          have hnone : fields.lookup "eventId" = none := by
            rw [List.lookup_eq_none_iff]
            intro field hfield
            rw [bne_iff_ne]
            rintro hkey
            have hletter := hbare field hfield 'v' (by rw [← hkey]; decide)
            exact absurd hletter (by decide)
          rw [Option.bind_some, Option.any_some, hnone]
          rfl
      | _ => rfl

/-- A piece of a text that ends inside of quotes is no line of an event. -/
theorem isLineOf_open {piece : List Char} (eventId : String)
    (h : Policy.QuoteState.outside.after piece = .inside) :
    isLineOf format eventId piece = false := by
  -- White space in front of the piece and behind it does not change whether it ends outside.
  have hopen : Policy.QuoteState.outside.after
      ((piece.dropWhile isTrimmed).rdropWhile isTrimmed) ≠ .outside := by
    intro hclosed
    have hwhite : ∀ {blanks : List Char}, (∀ c ∈ blanks, isTrimmed c = true) →
        Policy.QuoteState.outside.after blanks = .outside :=
      fun hblanks => Policy.QuoteState.after_letters fun c hc =>
        (not_quote_of_isTrimmed (hblanks c hc)).1
    have hcut : piece = piece.takeWhile isTrimmed ++
        ((piece.dropWhile isTrimmed).rdropWhile isTrimmed ++
          (piece.dropWhile isTrimmed).rtakeWhile isTrimmed) := by
      rw [List.rdropWhile_append_rtakeWhile, List.takeWhile_append_dropWhile]
    rw [hcut, Policy.QuoteState.after_append, Policy.QuoteState.after_append,
      hwhite fun c hc => List.mem_takeWhile_imp hc, hclosed,
      hwhite fun c hc => List.mem_rtakeWhile_imp hc] at h
    cases h
  rw [isLineOf, Bool.and_eq_false_imp]
  intro _
  rw [trim_ofList, parseObject, Policy.jsonParse_eq_none hopen]
  rfl

end Texts

/-! ## Files of events -/

section Files

variable {format : NumberFormat} {events : List (TranscriptEvent format)}

/-- The bytes of a file that holds events. -/
def fileOf (events : List (TranscriptEvent format)) : List UInt8 :=
  events.flatMap TranscriptEvent.line

theorem utf8Decode_fileOf :
    utf8Decode (fileOf events) = events.flatMap fun event => event.text ++ ['\n'] := by
  induction events with
  | nil => rfl
  | cons event events ih =>
      rw [fileOf, List.flatMap_cons, List.flatMap_cons, TranscriptEvent.line,
        utf8Decode_encode_append, ← fileOf, ih]
      rfl

/-- The lines of the file are the texts of its events, and an empty one. -/
theorem splitOn_fileOf :
    (utf8Decode (fileOf events)).splitOn '\n' = events.map TranscriptEvent.text ++ [[]] := by
  rw [utf8Decode_fileOf]
  induction events with
  | nil => rfl
  | cons event events ih =>
      have hfresh : '\n' ∉ event.text := fun hmem => (ne_newline_of_mem_text event hmem).1 rfl
      rw [List.flatMap_cons, List.append_assoc, List.singleton_append,
        List.splitOn_append_cons_self, List.splitOn_eq_singleton hfresh, ih]
      rfl

/-- The log reads the events of the file, each one once and in their order. -/
theorem read_fileOf : read format (fileOf events) = events.map TranscriptEvent.fields := by
  have hlines : readLine format ∘ TranscriptEvent.text = some ∘ TranscriptEvent.fields :=
    funext readLine_text
  have hempty : readLine format [] = none := rfl
  rw [read, splitOn_fileOf, List.filterMap_append, List.filterMap_map, hlines,
    List.filterMap_cons, hempty, List.filterMap_nil, List.append_nil, ← List.filterMap_map,
    List.filterMap_some]

theorem separator_not_allowed {c : Char} (h : isUnicodeSeparator c = true) :
    Policy.isBare c = false ∧ Policy.isEscapeLetter c = false := by
  have hcodes : ∀ n ∈ [0x2028, 0x2029],
      Policy.isBare (Char.ofNat n) = false ∧ Policy.isEscapeLetter (Char.ofNat n) = false := by
    decide +kernel
  have hmem : c.toNat ∈ [0x2028, 0x2029] := by
    rw [isUnicodeSeparator, Bool.or_eq_true, beq_iff_eq, beq_iff_eq] at h
    rcases h with h | h
    · rw [h]
      exact List.mem_cons_self
    · rw [h]
      exact List.mem_cons_of_mem _ List.mem_cons_self
  have hc := hcodes c.toNat hmem
  rwa [Char.ofNat_toNat] at hc

/-- The pieces that a text with separators is cut into are no lines of events.  What is in front
of the current piece ends in a separator. -/
theorem any_readlineLines_pieces (eventId : String) {front current text rest : List Char}
    (hfits : Policy.Fits .outside (front ++ current ++ text))
    (hfront : front ≠ [] → Policy.Fits .inside (current ++ text))
    (hseparator : front = [] → text.any isUnicodeSeparator = true)
    (hnewline : ∀ c ∈ text, c ≠ '\n' ∧ c ≠ '\r') :
    (readlineLines false current (text ++ '\n' :: rest)).any (isLineOf format eventId) =
      (readlineLines false [] rest).any (isLineOf format eventId) := by
  induction text generalizing front current with
  | nil =>
      have hne : front ≠ [] := by
        intro hnil
        exact absurd (hseparator hnil) Bool.false_ne_true
      have hinside := hfront hne
      rw [List.append_nil] at hinside
      rw [List.nil_append, readlineLines, if_neg (by decide), if_pos (.inl rfl), List.any_cons,
        isLineOf_inside eventId hinside, Bool.false_or]
      rfl
  | cons c text ih =>
      obtain ⟨⟨hfeed, hreturn⟩, htext⟩ := List.forall_mem_cons.mp hnewline
      rw [List.cons_append, readlineLines, if_neg fun h => hfeed h.1]
      by_cases hc : isUnicodeSeparator c = true
      · obtain ⟨hbare, hescape⟩ := separator_not_allowed hc
        obtain ⟨hopen, hinside⟩ := Policy.cut_inside hfits hbare hescape
        have hpiece : isLineOf format eventId current = false := by
          by_cases hnil : front = []
          · rw [hnil, List.nil_append] at hopen
            exact isLineOf_open eventId hopen
          · exact isLineOf_inside eventId (Policy.fits_append.mp (hfront hnil)).1
        have hnext : front ++ current ++ [c] ≠ [] :=
          List.append_ne_nil_of_right_ne_nil _ (List.cons_ne_nil _ _)
        rw [if_pos (.inr (.inr hc)), List.any_cons, hpiece, Bool.false_or,
          beq_eq_false_iff_ne.mpr hreturn]
        refine @ih (front ++ current ++ [c]) [] ?_ (fun _ => hinside)
          (fun hnil => absurd hnil hnext) htext
        rwa [List.append_nil, ← List.append_cons]
      · rw [if_neg (by rintro (h | h | h); exacts [hfeed h, hreturn h, hc h])]
        refine @ih front (current ++ [c]) ?_ ?_ ?_ htext
        · rwa [← List.append_assoc, ← List.append_cons]
        · intro hne
          rw [← List.append_cons]
          exact hfront hne
        · intro hnil
          have hsome := hseparator hnil
          rwa [List.any_cons, Bool.eq_false_iff.mpr hc, Bool.false_or] at hsome

/-- A text without separators is one line. -/
theorem readlineLines_line {current text rest : List Char}
    (hnewline : ∀ c ∈ text, c ≠ '\n' ∧ c ≠ '\r')
    (hseparator : text.any isUnicodeSeparator = false) :
    readlineLines false current (text ++ '\n' :: rest) =
      (current ++ text) :: readlineLines false [] rest := by
  induction text generalizing current with
  | nil =>
      rw [List.nil_append, readlineLines, if_neg (by decide), if_pos (.inl rfl), List.append_nil]
      rfl
  | cons c text ih =>
      obtain ⟨⟨hfeed, hreturn⟩, htext⟩ := List.forall_mem_cons.mp hnewline
      rw [List.any_cons, Bool.or_eq_false_iff] at hseparator
      have hend : ¬ (c = '\n' ∨ c = '\r' ∨ isUnicodeSeparator c = true) := by
        rintro (h | h | h)
        exacts [hfeed h, hreturn h, Bool.false_ne_true (hseparator.1.symm.trans h)]
      rw [List.cons_append, readlineLines, if_neg fun h => hfeed h.1, if_neg hend,
        ih htext hseparator.2, ← List.append_cons]

theorem findFrom_isSome (eventId : String) (offset : Nat) (lines : List (List Char)) :
    (findFrom format eventId offset lines).isSome = lines.any (isLineOf format eventId) := by
  induction lines generalizing offset with
  | nil => rfl
  | cons line lines ih =>
      rw [findFrom, List.any_cons]
      by_cases hline : isLineOf format eventId line = true
      · rw [if_pos hline, hline]
        rfl
      · rw [if_neg hline, ih, Bool.eq_false_iff.mpr hline, Bool.false_or]

/-- An event of the file is found by its identifier unless its text holds a separator. -/
theorem findEventOffset_fileOf (eventId : String) :
    findEventOffset format (fileOf events) eventId = none ↔
      ∀ event ∈ events, event.eventId = eventId → event.hasSeparator = true := by
  rw [findEventOffset, utf8Decode_fileOf, ← Option.isNone_iff_eq_none, ← Option.not_isSome,
    findFrom_isSome, Bool.not_eq_true']
  induction events with
  | nil => exact iff_of_true rfl (List.forall_mem_nil _)
  | cons event events ih =>
      rw [List.flatMap_cons, List.append_assoc, List.singleton_append, List.forall_mem_cons, ← ih]
      by_cases hseparator : event.hasSeparator = true
      · rw [@any_readlineLines_pieces format eventId [] [] event.text _ (fits_text event)
          (fun h => absurd rfl h) (fun _ => hseparator) fun c hc => ne_newline_of_mem_text event hc]
        exact (and_iff_right fun _ => hseparator).symm
      · have hplain : event.text.any isUnicodeSeparator = false := Bool.eq_false_iff.mpr hseparator
        rw [readlineLines_line (fun c hc => ne_newline_of_mem_text event hc) hplain,
          List.any_cons, List.nil_append, Bool.or_eq_false_iff]
        refine and_congr_left' ?_
        rw [Bool.eq_false_iff, Ne, isLineOf_text]
        exact ⟨fun hne hsame => absurd hsame hne, fun h hsame => hseparator (h hsame)⟩

end Files

end GoatCitadel.Storage.Transcripts
