import GoatCitadel.Support.Text
import GoatCitadel.Support.Utf8

/-!
# The last records of an audit stream

The file is read from its end, in windows that grow until enough records are found.  A window
starts anywhere, but a line feed is a character wherever it stands, so after the first one
the window has the lines of the file.
-/

namespace GoatCitadel.Storage.AuditLog

open GoatCitadel.Support

/-- `AUDIT_TAIL_START_BYTES` -/
def auditTailStartBytes : Nat := 64 * 1024

/-! ## Lines -/

def dropCarriageReturn (line : List Char) : List Char :=
  if line.getLast? = some '\r' then line.dropLast else line

/-- `text.split(/\r?\n/)` -/
def splitLines (text : List Char) : List String :=
  let parts := text.splitOn '\n'
  (parts.dropLast.map dropCarriageReturn ++ parts.getLast?.toList).map String.ofList

/-- `JSON.parse`, over any values, and which of them are objects and no arrays. -/
structure JsonReader (Value : Type) where
  parse : String → Option Value
  isRecord : Value → Bool

section Reading

variable {Value : Type} (reader : JsonReader Value)

/-- The record of a line, when it is one. -/
def parseAuditLine (line : String) : List Value :=
  ((reader.parse line).filter reader.isRecord).toList

def parseAuditLines (lines : List String) : List Value :=
  ((lines.map trim).filter fun line => line ≠ "").flatMap (parseAuditLine reader)

def readFileRange (content : List UInt8) (start stop : Nat) : List Char :=
  utf8Decode ((content.drop start).take (stop - start))

/-- `items.slice(-limit)` -/
def sliceLast {α : Type} (limit : Nat) (items : List α) : List α :=
  if limit = 0 then items else items.drop (items.length - limit)

variable (content : List UInt8) (limit : Nat) (predicate : Value → Bool)

/-- The records of a window, without the line that it starts in. -/
def windowMatches (window : Nat) : List Value :=
  let start := content.length - window
  let lines := splitLines (readFileRange content start content.length)
  let usable := if 0 < start then lines.tail else lines
  (parseAuditLines reader usable).filter predicate

def listRecentFrom (window : Nat) (hwindow : 0 < window) : List Value :=
  let matched := windowMatches reader content predicate window
  if limit ≤ matched.length ∨ content.length - window = 0 then sliceLast limit matched
  else listRecentFrom (window * 4) (by omega)
termination_by content.length - window
decreasing_by omega

end Reading

/-- The file of the stream, or nothing when there is none. -/
def listRecent {Value : Type} (reader : JsonReader Value) (file : Option (List UInt8)) (limit : Nat)
    (predicate : Value → Bool) : List Value :=
  match file with
  | none => []
  | some content =>
      listRecentFrom reader content limit predicate auditTailStartBytes (by decide)

def list {Value : Type} (reader : JsonReader Value) (file : Option (List UInt8)) : List Value :=
  match file with
  | none => []
  | some content => parseAuditLines reader (splitLines (utf8Decode content))

/-! ## Windows -/

section Lines

theorem trim_dropCarriageReturn (line : List Char) :
    trim (String.ofList (dropCarriageReturn line)) = trim (String.ofList line) := by
  unfold dropCarriageReturn
  by_cases hreturn : line.getLast? = some '\r'
  · rw [if_pos hreturn, ← String.toList_inj, toList_trim, toList_trim, String.toList_ofList,
      String.toList_ofList]
    obtain ⟨front, rfl⟩ := List.getLast?_eq_some_iff.mp hreturn
    have hset : isTrimmed '\r' = true := by decide
    rw [List.dropLast_concat, List.dropWhile_append]
    by_cases hempty : (front.dropWhile isTrimmed).isEmpty = true
    · rw [if_pos hempty, List.isEmpty_iff.mp hempty, List.dropWhile_cons_of_pos hset]
      rfl
    · rw [if_neg hempty, List.rdropWhile_concat_pos _ _ _ hset]
  · rw [if_neg hreturn]

/-- Lines are trimmed, so a carriage return in front of a line feed makes no difference. -/
theorem trim_splitLines (text : List Char) :
    (splitLines text).map trim =
      (text.splitOn '\n').map fun part => trim (String.ofList part) := by
  obtain ⟨front, last, hparts⟩ : ∃ front last, text.splitOn '\n' = front ++ [last] :=
    (List.eq_nil_or_concat' _).resolve_left (List.splitOn_ne_nil '\n' text)
  unfold splitLines
  rw [hparts]
  dsimp only
  rw [List.dropLast_concat, List.getLast?_concat, List.map_map, List.map_append, List.map_append,
    List.map_map]
  congr 1
  apply List.map_congr_left
  intro part _
  exact trim_dropCarriageReturn part

variable {Value : Type} {reader : JsonReader Value}

/-- The records of parts between line feeds. -/
def partRecords (reader : JsonReader Value) (parts : List (List Char)) : List Value :=
  ((parts.map fun part => trim (String.ofList part)).filter fun line => line ≠ "").flatMap
    (parseAuditLine reader)

theorem parseAuditLines_splitLines (text : List Char) :
    parseAuditLines reader (splitLines text) = partRecords reader (text.splitOn '\n') := by
  unfold parseAuditLines partRecords
  rw [trim_splitLines]

theorem parseAuditLines_tail (text : List Char) :
    parseAuditLines reader (splitLines text).tail =
      partRecords reader (text.splitOn '\n').tail := by
  unfold parseAuditLines partRecords
  rw [List.map_tail, trim_splitLines, ← List.map_tail]

theorem partRecords_append (front back : List (List Char)) :
    partRecords reader (front ++ back) = partRecords reader front ++ partRecords reader back := by
  unfold partRecords
  rw [List.map_append, List.filter_append, List.flatMap_append]

/-- A text without the byte of a line feed is one part. -/
theorem splitOn_utf8Decode {bytes : List UInt8} (h : 10 ∉ bytes) :
    (utf8Decode bytes).splitOn '\n' = [utf8Decode bytes] := by
  apply List.splitOn_eq_singleton
  intro hmem
  obtain ⟨byte, hbyte, heq⟩ := mem_of_mem_utf8Decode hmem (by decide) (by decide)
  have hten : byte = 10 := UInt8.toNat_inj.mp heq
  exact h (hten ▸ hbyte)

/-- The records of the lines that start in a window are the last records of the file. -/
theorem windowMatches_isSuffix (content : List UInt8) (predicate : Value → Bool)
    (window : Nat) :
    windowMatches reader content predicate window <:+
      (parseAuditLines reader (splitLines (utf8Decode content))).filter predicate := by
  have hrange : readFileRange content (content.length - window) content.length =
      utf8Decode (content.drop (content.length - window)) := by
    unfold readFileRange
    rw [List.take_of_length_le (by rw [List.length_drop])]
  unfold windowMatches
  dsimp only
  rw [hrange]
  by_cases hstart : 0 < content.length - window
  · rw [if_pos hstart]
    apply List.IsSuffix.filter
    rw [parseAuditLines_tail, parseAuditLines_splitLines]
    have hcontent := List.take_append_drop (content.length - window) content
    generalize content.take (content.length - window) = before at hcontent
    generalize content.drop (content.length - window) = bytes at hcontent ⊢
    by_cases hfeed : 10 ∈ bytes
    · obtain ⟨first, rest, rfl, hfirst⟩ := List.eq_append_cons_of_mem hfeed
      have hnewline : Char.ofNat (UInt8.toNat 10) = '\n' := by decide
      have hlow : UInt8.toNat 10 ≤ 0x7F := by decide
      rw [← hcontent, ← List.append_assoc, utf8Decode_append_ascii _ hlow,
        utf8Decode_append_ascii _ hlow, hnewline, List.splitOn_append_cons_self,
        List.splitOn_append_cons_self, splitOn_utf8Decode hfirst, List.singleton_append,
        List.tail_cons, partRecords_append]
      exact List.suffix_append _ _
    · rw [splitOn_utf8Decode hfeed]
      exact List.nil_suffix
  · rw [if_neg hstart, Nat.eq_zero_of_not_pos hstart]
    exact List.suffix_rfl

end Lines

section Limits

variable {α : Type} {limit : Nat} {items more : List α}

/-- With enough of them, the last items of the end of a list are the last ones of the list. -/
theorem sliceLast_of_isSuffix (hlimit : 1 ≤ limit) (h : items <:+ more)
    (henough : limit ≤ items.length) : sliceLast limit items = sliceLast limit more := by
  obtain ⟨front, rfl⟩ := h
  have hfront : front.drop (front.length + items.length - limit) = [] :=
    List.drop_eq_nil_of_le (by omega)
  unfold sliceLast
  rw [if_neg (by omega), if_neg (by omega), List.length_append, List.drop_append, hfront,
    List.nil_append]
  congr 1
  omega

end Limits

section Reading

variable {Value : Type} {reader : JsonReader Value} {content : List UInt8} {limit : Nat}
  {predicate : Value → Bool}

theorem listRecentFrom_eq (hlimit : 1 ≤ limit) (window : Nat) (hwindow : 0 < window) :
    listRecentFrom reader content limit predicate window hwindow =
      sliceLast limit
        ((parseAuditLines reader (splitLines (utf8Decode content))).filter predicate) := by
  induction window, hwindow using listRecentFrom.induct reader content limit predicate with
  | case1 window hwindow matched hdone =>
      rw [listRecentFrom, if_pos hdone]
      obtain henough | hwhole := hdone
      · exact sliceLast_of_isSuffix hlimit (windowMatches_isSuffix content predicate window) henough
      · have hall : readFileRange content 0 content.length = utf8Decode content := by
          unfold readFileRange
          rw [List.drop_zero, Nat.sub_zero, List.take_length]
        unfold windowMatches
        dsimp only
        rw [hwhole, hall]
        rfl
  | case2 window hwindow matched hmore ih =>
      rw [listRecentFrom, if_neg hmore]
      exact ih

end Reading

/-- The last records that are read from the end are the last ones of the whole stream. -/
theorem listRecent_eq_last {Value : Type} (reader : JsonReader Value)
    (file : Option (List UInt8)) {limit : Nat} (predicate : Value → Bool) (hlimit : 1 ≤ limit) :
    listRecent reader file limit predicate =
      ((list reader file).filter predicate).drop
        (((list reader file).filter predicate).length - limit) := by
  have hslice : ∀ records : List Value, sliceLast limit records =
      records.drop (records.length - limit) := fun records => if_neg (by omega)
  cases file with
  | none =>
      rw [list, List.filter_nil, List.drop_nil]
      rfl
  | some content =>
      rw [← hslice]
      exact listRecentFrom_eq hlimit auditTailStartBytes (by decide)

/-- The last of two records, with a carriage return and a broken line between them. -/
theorem lastRecord_of_two :
    let reader : JsonReader (List (String × Nat)) :=
      ⟨fun line =>
        if line = "\x7b\"n\":1\x7d" then some [("n", 1)]
        else if line = "\x7b\"é\":2\x7d" then some [("é", 2)]
        else none, fun _ => true⟩
    let file := utf8Encode "\x7b\"n\":1\x7d\r\n\x7b\"n\":\n\x7b\"é\":2\x7d\n".toList
    listRecent reader (some file) 1 (fun _ => true) = [[("é", 2)]] := by
  intro reader file
  exact (listRecent_eq_last reader (some file) (fun _ => true) (by decide)).trans
    (by decide +kernel)

end GoatCitadel.Storage.AuditLog
