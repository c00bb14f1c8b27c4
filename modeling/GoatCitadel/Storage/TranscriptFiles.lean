import GoatCitadel.Support.Base64Url
import GoatCitadel.Support.Utf8

/-!
# The file of a session

The transcript of a session is a file whose name is made from the session id.  An id of safe
characters is the name as it stands; any other id is encoded behind `session-`, and an id without
characters is spelled `empty` there.  What the encoding gives is safe as well, so the two kinds of
names meet.  An id is the list of its UTF-16 code units; names are told apart as texts, as on a
file system that minds case.
-/

namespace GoatCitadel.Storage.Transcripts

open GoatCitadel.Support

/-! ## Names -/

/-- The characters of `SAFE_SESSION_FILENAME_RE`. -/
def isSafeUnit (unit : Nat) : Bool :=
  (65 ≤ unit && unit ≤ 90) || (97 ≤ unit && unit ≤ 122) || (48 ≤ unit && unit ≤ 57) ||
    unit == 46 || unit == 95 || unit == 45

/-- The id is a name as it stands. -/
def isVerbatim (sessionId : List Nat) : Bool :=
  sessionId != utf16Units "." && sessionId != utf16Units ".." &&
    (!sessionId.isEmpty && sessionId.all isSafeUnit)

/-- What stands behind `session-` for an id that is not a name as it stands. -/
def encodedSessionId (sessionId : List Nat) : List Nat :=
  if encodeBase64Url (utf8Encode (utf16Decode sessionId)) = [] then utf16Units "empty"
  else encodeBase64Url (utf8Encode (utf16Decode sessionId))

def transcriptFileName (sessionId : List Nat) : List Nat :=
  if isVerbatim sessionId = true then sessionId ++ utf16Units ".jsonl"
  else utf16Units "session-" ++ encodedSessionId sessionId ++ utf16Units ".jsonl"

/-- A path is the list of its segments; a name has no separator, so it is the path from the root. -/
def filePathForSession (root : List (List Nat)) (sessionId : List Nat) :
    Except String (List (List Nat)) :=
  if (utf16Units "..").isPrefixOf (transcriptFileName sessionId) = true ∨
      transcriptFileName sessionId = [] then
    .error "Transcript session path escapes transcript root"
  else .ok (root ++ [transcriptFileName sessionId])

/-! ## Files -/

/-- The files under the root of the transcripts, by their paths. -/
abbrev Files := List (List Nat) → List UInt8

/-- The line of an event is added at the end of the session's file. -/
def appendInternal (files : Files) (path : List (List Nat)) (line : List UInt8) : Files :=
  fun other => if other = path then files other ++ line else files other

/-! ## When two sessions share a file -/

/-- The text is how a session id that is not a name is spelled. -/
def Spells (text sessionId : List Nat) : Prop :=
  (sessionId = [] ∧ text = utf16Units "empty") ∨
    (sessionId ≠ [] ∧ decodeBase64Url text = some (utf8Encode (utf16Decode sessionId)))

/-- One id is a name that consists of `session-` and the spelling of the other id, which is none. -/
def Shadows (name sessionId : List Nat) : Prop :=
  isVerbatim name = true ∧ isVerbatim sessionId = false ∧
    ∃ text, name = utf16Units "session-" ++ text ∧ Spells text sessionId

/-- Neither id is a name, and they differ in surrogates without their other half only. -/
def SameCharacters (sessionId sessionId' : List Nat) : Prop :=
  isVerbatim sessionId = false ∧ isVerbatim sessionId' = false ∧
    utf16Decode sessionId = utf16Decode sessionId'

theorem encodeBase64Url_eq_nil_iff {bytes : List UInt8} :
    encodeBase64Url bytes = [] ↔ bytes = [] := by
  constructor
  · intro h
    exact encodeBase64Url_injective (h.trans rfl)
  · rintro rfl
    rfl

theorem utf8Encode_utf16Decode_eq_nil_iff {sessionId : List Nat} :
    utf8Encode (utf16Decode sessionId) = [] ↔ sessionId = [] := by
  rw [← utf16Decode_eq_nil_iff]
  constructor
  · intro h
    exact utf8Encode_injective (h.trans rfl)
  · intro h
    rw [h]
    rfl

theorem spells_iff {text sessionId : List Nat} :
    Spells text sessionId ↔ encodedSessionId sessionId = text := by
  have hnil : encodeBase64Url (utf8Encode (utf16Decode sessionId)) = [] ↔ sessionId = [] :=
    encodeBase64Url_eq_nil_iff.trans utf8Encode_utf16Decode_eq_nil_iff
  rw [Spells, encodedSessionId]
  by_cases hempty : sessionId = []
  · rw [if_pos (hnil.mpr hempty)]
    constructor
    · rintro (⟨-, rfl⟩ | ⟨hnot, -⟩)
      · rfl
      · exact absurd hempty hnot
    · rintro rfl
      exact .inl ⟨hempty, rfl⟩
  · rw [if_neg fun h => hempty (hnil.mp h)]
    constructor
    · rintro (⟨hnot, -⟩ | ⟨-, hread⟩)
      · exact absurd hnot hempty
      · exact encode_of_decodeBase64Url hread
    · rintro rfl
      exact .inr ⟨hempty, decode_encodeBase64Url _⟩

theorem decodeBase64Url_empty : decodeBase64Url (utf16Units "empty") = none := by
  decide

theorem encodedSessionId_eq_iff {sessionId sessionId' : List Nat} :
    encodedSessionId sessionId = encodedSessionId sessionId' ↔
      utf16Decode sessionId = utf16Decode sessionId' := by
  constructor
  · intro h
    -- One text spells both ids.
    have hspells : Spells (encodedSessionId sessionId') sessionId := spells_iff.mpr h
    have hspells' : Spells (encodedSessionId sessionId') sessionId' := spells_iff.mpr rfl
    rcases hspells with ⟨rfl, hempty⟩ | ⟨-, hread⟩
    · rw [hempty] at hspells'
      rcases hspells' with ⟨rfl, -⟩ | ⟨-, hread⟩
      · rfl
      · exact nomatch decodeBase64Url_empty.symm.trans hread
    · rcases hspells' with ⟨-, hempty⟩ | ⟨-, hread'⟩
      · rw [hempty] at hread
        exact nomatch decodeBase64Url_empty.symm.trans hread
      · exact utf8Encode_injective (Option.some_inj.mp (hread.symm.trans hread'))
  · intro h
    rw [encodedSessionId, encodedSessionId, h]

/-- Two sessions have one file name exactly when they are the same, one shadows the other, or they
differ in broken surrogates. -/
theorem transcriptFileName_eq_iff {sessionId sessionId' : List Nat} :
    transcriptFileName sessionId = transcriptFileName sessionId' ↔
      sessionId = sessionId' ∨ Shadows sessionId sessionId' ∨ Shadows sessionId' sessionId ∨
        SameCharacters sessionId sessionId' := by
  have hshadow : ∀ {name id : List Nat}, isVerbatim name = true → isVerbatim id = false →
      (transcriptFileName name = transcriptFileName id ↔ Shadows name id) := by
    intro name id hname hid
    rw [transcriptFileName, transcriptFileName, if_pos hname,
      if_neg (Bool.eq_false_iff.mp hid), List.append_cancel_right_eq, Shadows]
    constructor
    · rintro rfl
      exact ⟨hname, hid, _, rfl, spells_iff.mpr rfl⟩
    · rintro ⟨-, -, text, rfl, hspells⟩
      rw [spells_iff.mp hspells]
  by_cases hs : isVerbatim sessionId = true
  · by_cases hs' : isVerbatim sessionId' = true
    · constructor
      · intro h
        rw [transcriptFileName, transcriptFileName, if_pos hs, if_pos hs',
          List.append_cancel_right_eq] at h
        exact .inl h
      · rintro (rfl | ⟨-, hnot, -⟩ | ⟨-, hnot, -⟩ | ⟨hnot, -⟩)
        · rfl
        · exact absurd (hs'.symm.trans hnot) Bool.true_eq_false.mp
        · exact absurd (hs.symm.trans hnot) Bool.true_eq_false.mp
        · exact absurd (hs.symm.trans hnot) Bool.true_eq_false.mp
    · have hfalse := Bool.eq_false_iff.mpr hs'
      constructor
      · exact fun h => .inr (.inl ((hshadow hs hfalse).mp h))
      · rintro (rfl | h | ⟨hnot, -⟩ | ⟨hnot, -⟩)
        · rfl
        · exact (hshadow hs hfalse).mpr h
        · exact absurd hnot hs'
        · exact absurd (hs.symm.trans hnot) Bool.true_eq_false.mp
  · have hfalse := Bool.eq_false_iff.mpr hs
    by_cases hs' : isVerbatim sessionId' = true
    · constructor
      · exact fun h => .inr (.inr (.inl ((hshadow hs' hfalse).mp h.symm)))
      · rintro (rfl | ⟨hnot, -⟩ | h | ⟨-, hnot, -⟩)
        · rfl
        · exact absurd hnot hs
        · exact ((hshadow hs' hfalse).mpr h).symm
        · exact absurd (hs'.symm.trans hnot) Bool.true_eq_false.mp
    · rw [transcriptFileName, transcriptFileName, if_neg hs, if_neg hs',
        List.append_cancel_right_eq, List.append_cancel_left_eq, encodedSessionId_eq_iff]
      constructor
      · exact fun h => .inr (.inr (.inr ⟨hfalse, Bool.eq_false_iff.mpr hs', h⟩))
      · rintro (rfl | ⟨hnot, -⟩ | ⟨hnot, -⟩ | ⟨-, -, h⟩)
        · rfl
        · exact absurd hnot hs
        · exact absurd hnot hs'
        · exact h

/-! ## Separate transcripts -/

section Separate

variable {root : List (List Nat)} {sessionId sessionId' : List Nat} {path path' : List (List Nat)}

theorem filePathForSession_eq_ok (h : filePathForSession root sessionId = .ok path) :
    path = root ++ [transcriptFileName sessionId] := by
  rw [filePathForSession] at h
  split_ifs at h
  exact (Except.ok.inj h).symm

/-- The sessions have different file names and paths, and no line that is added to one of the
files is read in the other. -/
structure Separate (sessionId sessionId' : List Nat) (path path' : List (List Nat)) : Prop where
  names : transcriptFileName sessionId ≠ transcriptFileName sessionId'
  paths : path ≠ path'
  framed : ∀ files line, appendInternal files path line path' = files path'

/-- Two accepted sessions have separate transcripts unless one id is `session-` and the spelling of
the other, or they differ in broken surrogates only. -/
theorem separate_iff (hpath : filePathForSession root sessionId = .ok path)
    (hpath' : filePathForSession root sessionId' = .ok path') (hne : sessionId ≠ sessionId') :
    Separate sessionId sessionId' path path' ↔
      ¬ Shadows sessionId sessionId' ∧ ¬ Shadows sessionId' sessionId ∧
        ¬ SameCharacters sessionId sessionId' := by
  have hnames : transcriptFileName sessionId = transcriptFileName sessionId' ↔ _ :=
    transcriptFileName_eq_iff.trans (or_iff_right hne)
  rw [← not_or, ← not_or, ← hnames]
  constructor
  · exact Separate.names
  · intro hnames
    have hpaths : path ≠ path' := by
      rw [filePathForSession_eq_ok hpath, filePathForSession_eq_ok hpath']
      exact fun h => hnames (List.singleton_inj.mp (List.append_cancel_left h))
    exact ⟨hnames, hpaths, fun _ _ => if_neg hpaths.symm⟩

/-- `a b` is spelled `YSBi`, and `a-b` is a name as it stands. -/
theorem dashed_separate :
    Separate (utf16Units "a b") (utf16Units "a-b")
        [utf16Units "transcripts", utf16Units "session-YSBi.jsonl"]
        [utf16Units "transcripts", utf16Units "a-b.jsonl"] ↔
      ¬ Shadows (utf16Units "a b") (utf16Units "a-b") ∧
        ¬ Shadows (utf16Units "a-b") (utf16Units "a b") ∧
        ¬ SameCharacters (utf16Units "a b") (utf16Units "a-b") :=
  @separate_iff [utf16Units "transcripts"] _ _ _ _ (by decide +kernel) (by decide +kernel)
    (by decide)

/-- `a b` is spelled `YSBi`, so the session `session-YSBi` reads its events. -/
theorem spelled_session_shared :
    ¬ ∀ root sessionId sessionId' path path', filePathForSession root sessionId = .ok path →
      filePathForSession root sessionId' = .ok path' → sessionId ≠ sessionId' →
      Separate sessionId sessionId' path path' := by
  intro h
  have hseparate := h [utf16Units "transcripts"] (utf16Units "a b") (utf16Units "session-YSBi")
    [utf16Units "transcripts", utf16Units "session-YSBi.jsonl"]
    [utf16Units "transcripts", utf16Units "session-YSBi.jsonl"] (by decide +kernel)
    (by decide +kernel) (by decide)
  exact hseparate.paths rfl

end Separate

end GoatCitadel.Storage.Transcripts
