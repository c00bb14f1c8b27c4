import GoatCitadel.Sandbox.WindowsShellRisk

/-!
# The shell risk gate

The gate looks for the risky patterns in the text of a command, while the executor runs what the
tokenizer has made of it.  Quotes and escapes are in the first and not in the second.
-/

namespace GoatCitadel.Sandbox

open GoatCitadel.Support GoatCitadel.Contracts

def maxShellRiskPatternLength : Nat := 512

structure ShellRiskDecision where
  risky : Bool
  matchedPattern : Option (List Nat)

def isValidPattern (pattern : List Nat) : Bool :=
  let normalized := normalizeRiskText pattern
  0 < normalized.length && normalized.length ≤ maxShellRiskPatternLength

/-- A risk of a Windows shell is a text that is not empty. -/
def classifyShellRisk (runtime : ShellRuntime) (command : List Nat)
    (riskyPatterns : List (List Nat)) : ShellRiskDecision :=
  let validPatterns := riskyPatterns.filter isValidPattern
  let windowsRisk :=
    if 0 < validPatterns.length then
      inspectWindowsShellRisk runtime validPatterns maxNesting command
    else none
  match windowsRisk with
  | some risk => ⟨true, some risk⟩
  | none =>
      let normalizedCommand := normalizeRiskText command
      let matched := riskyPatterns.find? fun pattern =>
        0 < normalizedCommand.length && isValidPattern pattern &&
          compileBoundedRiskPattern runtime.fold (normalizeRiskText pattern) normalizedCommand
      ⟨matched.isSome, matched⟩

/-! ## What makes a command risky -/

section Risk

variable {runtime : ShellRuntime} {command : List Nat} {patterns : List (List Nat)}

theorem isValidPattern_iff {pattern : List Nat} :
    isValidPattern pattern = true ↔
      normalizeRiskText pattern ≠ [] ∧
        (normalizeRiskText pattern).length ≤ maxShellRiskPatternLength := by
  rw [isValidPattern, Bool.and_eq_true, decide_eq_true_iff, decide_eq_true_iff,
    List.length_pos_iff]

/-- A command is risky if the inspection of Windows shells says so or a pattern occurs in it. -/
theorem classifyShellRisk_iff :
    (classifyShellRisk runtime command patterns).risky = true ↔
      (∃ pattern ∈ patterns, isValidPattern pattern = true) ∧
          inspectWindowsShellRisk runtime (patterns.filter isValidPattern) maxNesting command ≠
            none ∨
        normalizeRiskText command ≠ [] ∧ ∃ pattern ∈ patterns, isValidPattern pattern = true ∧
          Occurs runtime.fold (normalizeRiskText pattern) (normalizeRiskText command) := by
  have hvalid : 0 < (patterns.filter isValidPattern).length ↔
      ∃ pattern ∈ patterns, isValidPattern pattern = true := by
    rw [List.length_filter_pos_iff]
  have htext : (patterns.find? fun pattern =>
      0 < (normalizeRiskText command).length && isValidPattern pattern &&
        compileBoundedRiskPattern runtime.fold (normalizeRiskText pattern)
          (normalizeRiskText command)).isSome = true ↔
      normalizeRiskText command ≠ [] ∧ ∃ pattern ∈ patterns, isValidPattern pattern = true ∧
        Occurs runtime.fold (normalizeRiskText pattern) (normalizeRiskText command) := by
    simp only [List.find?_isSome, Bool.and_eq_true, decide_eq_true_iff, List.length_pos_iff,
      compileBoundedRiskPattern_iff isDot_of_mem_normalizeRiskText]
    constructor
    · rintro ⟨pattern, hmem, ⟨hne, hpattern⟩, hoccurs⟩
      exact ⟨hne, pattern, hmem, hpattern, hoccurs⟩
    · rintro ⟨hne, pattern, hmem, hpattern, hoccurs⟩
      exact ⟨pattern, hmem, ⟨hne, hpattern⟩, hoccurs⟩
  rw [← hvalid, ← htext, classifyShellRisk]
  dsimp only
  by_cases hsome : 0 < (patterns.filter isValidPattern).length
  · rw [if_pos hsome]
    cases inspectWindowsShellRisk runtime (patterns.filter isValidPattern) maxNesting command with
    | none => exact (or_iff_right fun h => h.2 rfl).symm
    | some risk => exact iff_of_true rfl (.inl ⟨hsome, Option.some_ne_none risk⟩)
  · rw [if_neg hsome]
    exact (or_iff_right fun h => hsome h.1).symm

end Risk

/-! ## The command that runs -/

/-- What the gate is for: a command is risky if the program and the arguments that it stands for
are, under any patterns. -/
def Judged (runtime : ShellRuntime) (command joined : List Nat) : Prop :=
  ∀ patterns, (classifyShellRisk runtime joined patterns).risky = true →
    (classifyShellRisk runtime command patterns).risky = true

/-- The commands that are written in a way which the gate sees through: without quotes and
escapes; for a Windows shell whose script it refuses; or so that what runs occurs in the text, and
is not a Windows shell or has a script whose commands the inspection reads in the text as well. -/
def SeenThrough (runtime : ShellRuntime) (command joined : List Nat) : Prop :=
  isPlain (trimUnits command) = true ∨
    inspectWindowsShellRisk runtime [] maxNesting command ≠ none ∨
    (windowsShell runtime joined = none ∨ CoversScript runtime command joined) ∧
      (normalizeRiskText joined = [] ∨
        Occurs runtime.fold (normalizeRiskText joined) (normalizeRiskText command))

section Judged

variable {runtime : ShellRuntime} {command joined : List Nat} {parsed : ParsedCommand}

/-- A plain command and what it stands for have the same words. -/
theorem text_of_plain (h : parseExecFileCommand command = .ok parsed)
    (hplain : isPlain (trimUnits command) = true) :
    parsed.text = [0x20].intercalate (wordsOf isSpace command) := by
  rw [ParsedCommand.text, tokens_of_plain h hplain]

theorem wordsOf_text_of_plain (h : parseExecFileCommand command = .ok parsed)
    (hplain : isPlain (trimUnits command) = true) :
    wordsOf isSpace parsed.text = wordsOf isSpace command := by
  rw [text_of_plain h hplain]
  exact wordsOf_intercalate rfl fun word hword => isWord_of_mem_wordsOf hword

theorem judged_of_plain (h : parseExecFileCommand command = .ok parsed)
    (hplain : isPlain (trimUnits command) = true) : Judged runtime command parsed.text := by
  have hwords := wordsOf_text_of_plain h hplain
  have hcommand := not_quote_of_plain hplain
  have hjoined : ∀ unit ∈ parsed.text, unit ≠ 34 ∧ unit ≠ 39 := by
    intro unit hmem
    rw [text_of_plain h hplain] at hmem
    rcases mem_intercalate hmem with rfl | ⟨word, hword, hin⟩
    · decide
    · exact hcommand unit (mem_of_mem_wordsOf hword hin)
  have hshell : windowsShell runtime parsed.text = windowsShell runtime command := by
    rw [windowsShell, windowsShell, leadingExecutable_bare hjoined,
      leadingExecutable_bare hcommand, hwords]
  have htokens : tokenize parsed.text false = tokenize command false := by
    rw [tokenize_bare hjoined, tokenize_bare hcommand, hwords]
  have hlength : parsed.text.length ≤ command.length := by
    rw [text_of_plain h hplain]
    exact length_intercalate_wordsOf_le _
  have hsame : normalizeRiskText parsed.text = normalizeRiskText command := by
    rw [normalizeRiskText_eq, normalizeRiskText_eq, hwords]
  intro patterns hrisky
  rw [classifyShellRisk_iff, hsame] at hrisky
  rw [classifyShellRisk_iff]
  exact hrisky.imp_left fun ⟨hvalid, hfound⟩ =>
    ⟨hvalid, inspectWindowsShellRisk_congr hshell htokens
      (fun hlong => hlong.trans_le hlength) hfound⟩

/-- Nothing is risky without a pattern that is looked for. -/
theorem exists_valid_of_risky {patterns : List (List Nat)}
    (h : (classifyShellRisk runtime joined patterns).risky = true) :
    ∃ pattern ∈ patterns, isValidPattern pattern = true := by
  rcases classifyShellRisk_iff.mp h with ⟨hvalid, -⟩ | ⟨-, pattern, hmem, hvalid, -⟩
  · exact hvalid
  · exact ⟨pattern, hmem, hvalid⟩

theorem judged_of_occurs (h : parseExecFileCommand command = .ok parsed)
    (hscript : windowsShell runtime parsed.text = none ∨
      CoversScript runtime command parsed.text)
    (htext : normalizeRiskText parsed.text = [] ∨
      Occurs runtime.fold (normalizeRiskText parsed.text) (normalizeRiskText command)) :
    Judged runtime command parsed.text := by
  by_cases hblank : trimUnits command = []
  · refine judged_of_plain h ?_
    rw [hblank]
    rfl
  · intro patterns hrisky
    rw [classifyShellRisk_iff] at hrisky ⊢
    rcases hrisky with ⟨hvalid, hfound⟩ | ⟨hne, pattern, hmem, hvalid, hoccurs⟩
    · refine .inl ⟨hvalid, (hscript.resolve_left fun hshell => hfound ?_).finds hfound⟩
      exact inspectWindowsShellRisk_of_not_shell hshell
    · have hpattern := (isValidPattern_iff.mp hvalid).1
      have hcommand := hoccurs.trans hpattern (fun _ => eq_blank_of_mem_normalizeRiskText)
        (htext.resolve_left hne)
      exact .inr ⟨normalizeRiskText_ne_nil hblank, pattern, hmem, hvalid, hcommand⟩

theorem judged_of_seenThrough (h : parseExecFileCommand command = .ok parsed)
    (hseen : SeenThrough runtime command parsed.text) : Judged runtime command parsed.text := by
  rcases hseen with hplain | hrefused | ⟨hscript, htext⟩
  · exact judged_of_plain h hplain
  · intro patterns hrisky
    exact classifyShellRisk_iff.mpr (.inl ⟨exists_valid_of_risky hrisky,
      inspectWindowsShellRisk_mono (List.nil_subset _) hrefused⟩)
  · exact judged_of_occurs h hscript htext

/-- A pattern that occurs in what runs makes it risky, so that it makes the command risky. -/
theorem Judged.finds {pattern : List Nat} (h : Judged runtime command joined)
    (hne : normalizeRiskText joined ≠ []) (hpattern : normalizeRiskText pattern ≠ [])
    (hlength : (normalizeRiskText pattern).length ≤ maxShellRiskPatternLength)
    (hoccurs : Occurs runtime.fold (normalizeRiskText pattern) (normalizeRiskText joined)) :
    Occurs runtime.fold (normalizeRiskText pattern) (normalizeRiskText command) ∨
      inspectWindowsShellRisk runtime [pattern] maxNesting command ≠ none := by
  have hvalid := isValidPattern_iff.mpr ⟨hpattern, hlength⟩
  have hrisky := h [pattern] (classifyShellRisk_iff.mpr
    (.inr ⟨hne, pattern, List.mem_singleton_self _, hvalid, hoccurs⟩))
  have hfilter : [pattern].filter isValidPattern = [pattern] := by
    rw [List.filter_singleton, hvalid]
    rfl
  rcases classifyShellRisk_iff.mp hrisky with ⟨-, hfound⟩ | ⟨-, found, hmem, -, hfound⟩
  · right
    rwa [hfilter] at hfound
  · left
    rwa [List.mem_singleton.mp hmem] at hfound

end Judged

/-- The gate judges the command that runs if the command is written so that the gate sees through
it.  Outside Windows shells it does so only then, as long as what runs is no longer than the
longest pattern.  In a call of a Windows shell the text of what runs would have to occur in the
command, or the inspection find it there. -/
theorem judged_iff_seenThrough (runtime : ShellRuntime) {command : List Nat}
    {parsed : ParsedCommand} (h : Accepted command parsed) :
    (SeenThrough runtime command parsed.text → Judged runtime command parsed.text) ∧
    (windowsShell runtime command = none → windowsShell runtime parsed.text = none →
      (normalizeRiskText parsed.text).length ≤ maxShellRiskPatternLength →
      (Judged runtime command parsed.text ↔ SeenThrough runtime command parsed.text)) ∧
    (Judged runtime command parsed.text → normalizeRiskText parsed.text ≠ [] →
      (normalizeRiskText parsed.text).length ≤ maxShellRiskPatternLength →
      Occurs runtime.fold (normalizeRiskText parsed.text) (normalizeRiskText command) ∨
        inspectWindowsShellRisk runtime [parsed.text] maxNesting command ≠ none) := by
  refine ⟨judged_of_seenThrough h.parses, ?_, ?_⟩
  · intro hcommand hjoined hlength
    refine ⟨fun hjudged => .inr (.inr ⟨.inl hjoined, ?_⟩), judged_of_seenThrough h.parses⟩
    by_cases hne : normalizeRiskText parsed.text = []
    · exact .inl hne
    · refine .inr ((hjudged.finds hne hne hlength (Occurs.refl _)).resolve_right fun hfound => ?_)
      exact hfound (inspectWindowsShellRisk_of_not_shell hcommand)
  · intro hjudged hne hlength
    exact hjudged.finds hne hne hlength (Occurs.refl _)

/-! ## A command that the gate does not see through -/

/-- The case mapping of letters without marks. -/
def asciiFold : CaseFold where
  canonicalize unit := if 97 ≤ unit ∧ unit ≤ 122 then unit - 32 else unit
  eq_of_canonicalize unit mark hmark hsame := by
    have hplain : ¬ (65 ≤ mark ∧ mark ≤ 90) ∧ ¬ (97 ≤ mark ∧ mark ≤ 122) := by
      simp only [star, isShellMark, Bool.or_eq_true, beq_iff_eq] at hmark
      omega
    rw [if_neg hplain.2] at hsame
    split_ifs at hsame with hunit
    · omega
    · exact hsame

def asciiRuntime : ShellRuntime where
  lower := asciiLowerCase
  fold := asciiFold

def quotedRemoval : List Nat :=
  utf16Units "\"rm\" -rf x"

def parsedRemoval : ParsedCommand :=
  ⟨some (utf16Units "rm"), ["-rf", "x"].map utf16Units⟩

/-- A plain command, of which the gate sees what runs. -/
theorem plainRemoval_judged :
    Judged asciiRuntime (utf16Units "rm  -rf x") parsedRemoval.text :=
  (judged_iff_seenThrough asciiRuntime ⟨by decide +kernel, by decide +kernel⟩).1
    (.inl (by decide +kernel))

/-- `"rm" -rf x` runs `rm -rf x`, and the pattern `rm -rf` does not occur in it. -/
theorem quotedRemoval_missed :
    ¬ ∀ (runtime : ShellRuntime) (command : List Nat) (parsed : ParsedCommand),
      Accepted command parsed → Judged runtime command parsed.text := by
  intro h
  have haccepted : Accepted quotedRemoval parsedRemoval := ⟨by decide +kernel, by decide +kernel⟩
  have hrisky := h asciiRuntime quotedRemoval parsedRemoval haccepted [utf16Units "rm -rf"]
    (by decide +kernel)
  exact absurd hrisky (by decide +kernel)

/-! ## More patterns -/

/-- Patterns that are added, wherever they stand in the list, make no risky command pass: not in
its text, and not in what the inspection of nested Windows shells finds. -/
theorem classifyShellRisk_mono (runtime : ShellRuntime) {patterns patterns' : List (List Nat)}
    (hpatterns : patterns ⊆ patterns') {command : List Nat}
    (h : (classifyShellRisk runtime command patterns).risky = true) :
    (classifyShellRisk runtime command patterns').risky = true := by
  rcases classifyShellRisk_iff.mp h with ⟨⟨pattern, hmem, hvalid⟩, hfound⟩ |
    ⟨hne, pattern, hmem, hvalid, hoccurs⟩
  · refine classifyShellRisk_iff.mpr (.inl ⟨⟨pattern, hpatterns hmem, hvalid⟩, ?_⟩)
    exact inspectWindowsShellRisk_mono (List.filter_subset _ hpatterns) hfound
  · exact classifyShellRisk_iff.mpr (.inr ⟨hne, pattern, hpatterns hmem, hvalid, hoccurs⟩)

/-- A removal stays risky under a further pattern. -/
theorem removal_risky_under_more :
    (classifyShellRisk asciiRuntime (utf16Units "rm  -rf x")
      [utf16Units "mkfs", utf16Units "rm -rf"]).risky = true :=
  classifyShellRisk_mono asciiRuntime (List.subset_cons_self (utf16Units "mkfs") _)
    (show (classifyShellRisk asciiRuntime (utf16Units "rm  -rf x") [utf16Units "rm -rf"]).risky =
      true by decide +kernel)

end GoatCitadel.Sandbox
