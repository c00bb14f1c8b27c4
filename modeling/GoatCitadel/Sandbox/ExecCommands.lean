import GoatCitadel.Sandbox.RiskPatterns

/-!
# Commands without a shell

`shell.exec` runs one program with its arguments.  Its tokenizer takes quotes and escapes out
of the command; a command that is written as a shell script is refused before.
-/

namespace GoatCitadel.Sandbox

open GoatCitadel.Support GoatCitadel.Contracts

/-- The quotes around a character, and whether it is escaped. -/
structure Quoting where
  inSingle : Bool
  inDouble : Bool
  escaping : Bool

def Quoting.none : Quoting := ⟨false, false, false⟩

/-- What a backslash escapes: a quote, a backslash or white space. -/
def isEscapable : Option Nat → Bool
  | .none => false
  | some next => next == 34 || next == 39 || next == 92 || isSpace next

/-! ## Shell script syntax -/

structure ShellScriptSyntaxFinding where
  construct : String

def isDigitUnit (unit : Nat) : Bool :=
  48 ≤ unit && unit ≤ 57

/-- `[A-Za-z_{]` -/
def isVariableStart (unit : Nat) : Bool :=
  isNameUnit unit || unit == 123

/-- `[\w:{}]` -/
def isVariableUnit (unit : Nat) : Bool :=
  isNameUnit unit || isDigitUnit unit || unit == 58 || unit == 123 || unit == 125

/-- `LEADING_SHELL_VARIABLE` -/
def leadingShellVariable : List Nat → Bool
  | 36 :: first :: rest =>
      isVariableStart first &&
        match rest.dropWhile isVariableUnit with
        | [] => true
        | unit :: _ => unit == 61 || isSpace unit
  | _ => false

/-- `LEADING_ENV_ASSIGNMENT` -/
def leadingEnvAssignment : List Nat → Bool
  | first :: rest =>
      isNameUnit first &&
        (rest.dropWhile fun unit => isNameUnit unit || isDigitUnit unit).head? == some 61
  | [] => false

/-- `^&(?:\s|$)` -/
def leadingCallOperator : List Nat → Bool
  | 38 :: rest => rest.head?.all isSpace
  | _ => false

def unquotedOperatorAt (char : Nat) (next previous : Option Nat) :
    Option ShellScriptSyntaxFinding :=
  if char = 10 ∨ char = 13 then some ⟨"a multi-line script"⟩
  else if char = 59 then some ⟨"a command separator (;)"⟩
  else if char = 124 then
    some ⟨if next = some 124 then "command chaining (||)" else "a pipe (|)"⟩
  else if char = 38 then
    if next = some 38 then some ⟨"command chaining (&&)"⟩
    else if previous.any isSpace = true ∧ next.all isSpace = true then
      some ⟨"a background or call operator (&)"⟩
    else .none
  else if char = 62 ∨ char = 60 then some ⟨"output or input redirection (> or <)"⟩
  else if char = 36 then
    if next = some 40 then some ⟨"command substitution ($(...))"⟩
    else if next.any isVariableStart = true then
      some ⟨"a shell variable reference ($NAME)"⟩
    else .none
  else .none

/-- Walks the command with the quote and escape rules of the tokenizer below. -/
def scanUnquotedOperators (quoting : Quoting) (previous : Option Nat) :
    List Nat → Option ShellScriptSyntaxFinding
  | [] => .none
  | char :: rest =>
      if quoting.escaping = true then
        scanUnquotedOperators { quoting with escaping := false } (some char) rest
      else if char = 92 then
        scanUnquotedOperators { quoting with escaping := isEscapable rest.head? } (some char) rest
      else if char = 39 ∧ quoting.inDouble = false then
        scanUnquotedOperators { quoting with inSingle := !quoting.inSingle } (some char) rest
      else if char = 34 ∧ quoting.inSingle = false then
        scanUnquotedOperators { quoting with inDouble := !quoting.inDouble } (some char) rest
      else if quoting.inSingle = true ∨ quoting.inDouble = true then
        scanUnquotedOperators quoting (some char) rest
      else
        match unquotedOperatorAt char rest.head? previous with
        | some finding => some finding
        | .none => scanUnquotedOperators quoting (some char) rest

def detectShellScriptSyntax (command : List Nat) : Option ShellScriptSyntaxFinding :=
  let input := trimUnits command
  if leadingShellVariable input = true then
    some ⟨"a shell variable as the first word (for example $dir=...)"⟩
  else if leadingEnvAssignment input = true then
    some ⟨"an inline environment assignment as the first word (NAME=value)"⟩
  else if leadingCallOperator input = true then some ⟨"the PowerShell call operator (&)"⟩
  else scanUnquotedOperators .none .none input

/-! ## The tokenizer -/

/-- The program, which is missing where the command has no token, and its arguments. -/
structure ParsedCommand where
  file : Option (List Nat)
  args : List (List Nat)
  deriving DecidableEq

def readTokens (quoting : Quoting) (tokens : List (List Nat)) (current : List Nat) :
    List Nat → Except String (List (List Nat))
  | [] =>
      if quoting.escaping = true ∨ quoting.inSingle = true ∨ quoting.inDouble = true then
        .error "shell.exec command has unmatched quotes or escape sequence"
      else .ok (tokens ++ closeWord current)
  | char :: rest =>
      if quoting.escaping = true then
        readTokens { quoting with escaping := false } tokens (current ++ [char]) rest
      else if char = 92 then
        if isEscapable rest.head? = true then
          readTokens { quoting with escaping := true } tokens current rest
        else readTokens quoting tokens (current ++ [char]) rest
      else if char = 39 ∧ quoting.inDouble = false then
        readTokens { quoting with inSingle := !quoting.inSingle } tokens current rest
      else if char = 34 ∧ quoting.inSingle = false then
        readTokens { quoting with inDouble := !quoting.inDouble } tokens current rest
      else if quoting.inSingle = false ∧ quoting.inDouble = false ∧ isSpace char = true then
        readTokens quoting (tokens ++ closeWord current) [] rest
      else readTokens quoting tokens (current ++ [char]) rest

def parseExecFileCommand (command : List Nat) : Except String ParsedCommand :=
  let input := trimUnits command
  if 0 ∈ input then .error "shell.exec command contains invalid null byte"
  else (readTokens .none [] [] input).map fun tokens => ⟨tokens.head?, tokens.tail⟩

/-- The program and its arguments joined by single blanks. -/
def ParsedCommand.text (parsed : ParsedCommand) : List Nat :=
  [0x20].intercalate (parsed.file.toList ++ parsed.args)

/-- The commands that both checks accept. -/
structure Accepted (command : List Nat) (parsed : ParsedCommand) : Prop where
  noScript : detectShellScriptSyntax command = .none
  parses : parseExecFileCommand command = .ok parsed

/-! ## Commands without quotes and escapes -/

/-- A text without quotes in which no backslash escapes the character behind it. -/
def isPlain : List Nat → Bool
  | [] => true
  | char :: rest =>
      char != 34 && char != 39 && !(char == 92 && isEscapable rest.head?) && isPlain rest

section Plain

variable {text current : List Nat} {tokens : List (List Nat)}

theorem isPlain_cons_iff {char : Nat} :
    isPlain (char :: text) = true ↔
      char ≠ 34 ∧ char ≠ 39 ∧ (char = 92 → isEscapable text.head? = false) ∧
        isPlain text = true := by
  rw [isPlain, Bool.and_eq_true, Bool.and_eq_true, Bool.and_eq_true, bne_iff_ne, bne_iff_ne,
    Bool.not_eq_true', Bool.and_eq_false_imp, beq_iff_eq, and_assoc, and_assoc]

theorem not_quote_of_isPlain (h : isPlain text = true) :
    ∀ unit ∈ text, unit ≠ 34 ∧ unit ≠ 39 := by
  induction text with
  | nil => exact List.forall_mem_nil _
  | cons char text ih =>
      obtain ⟨hdouble, hsingle, -, hrest⟩ := isPlain_cons_iff.mp h
      exact List.forall_mem_cons.mpr ⟨⟨hdouble, hsingle⟩, ih hrest⟩

/-- The tokens of a plain text are its words. -/
theorem readTokens_plain (h : isPlain text = true) :
    readTokens .none tokens current text =
      .ok (tokens ++ wordsAfter isSpace current text) := by
  induction text generalizing tokens current with
  | nil => rfl
  | cons char text ih =>
      obtain ⟨hdouble, hsingle, hescape, hrest⟩ := isPlain_cons_iff.mp h
      rw [readTokens, if_neg (by decide)]
      by_cases hbackslash : char = 92
      · have hletter : isSpace char = false := by
          rw [hbackslash]
          decide
        rw [if_pos hbackslash, hescape hbackslash, if_neg Bool.false_ne_true, ih hrest,
          wordsAfter_cons_of_letter hletter]
      · rw [if_neg hbackslash, if_neg fun h => hsingle h.1, if_neg fun h => hdouble h.1]
        by_cases hspace : isSpace char = true
        · rw [if_pos ⟨rfl, rfl, hspace⟩, ih hrest, wordsAfter_cons_of_blank hspace,
            List.append_assoc]
          rfl
        · rw [if_neg fun h => hspace h.2.2, ih hrest,
            wordsAfter_cons_of_letter (Bool.eq_false_iff.mpr hspace)]

end Plain

section Accepted

variable {command : List Nat} {parsed : ParsedCommand}

/-- The program and its arguments are the tokens. -/
theorem tokens_of_parseExecFileCommand (h : parseExecFileCommand command = .ok parsed) :
    readTokens .none [] [] (trimUnits command) = .ok (parsed.file.toList ++ parsed.args) := by
  rw [parseExecFileCommand] at h
  split_ifs at h with hnull
  obtain ⟨tokens, htokens, rfl⟩ := map_eq_ok h
  rw [htokens]
  cases tokens <;> rfl

/-- A plain command is its words. -/
theorem tokens_of_plain (h : parseExecFileCommand command = .ok parsed)
    (hplain : isPlain (trimUnits command) = true) :
    parsed.file.toList ++ parsed.args = wordsOf isSpace command := by
  have htokens := tokens_of_parseExecFileCommand h
  rw [readTokens_plain hplain, List.nil_append, ← wordsOf, wordsOf_trimUnits] at htokens
  exact (Except.ok.inj htokens).symm

theorem mem_trimUnits {unit : Nat} (h : unit ∈ command) :
    isSpace unit = true ∨ unit ∈ trimUnits command := by
  have hfront : command.takeWhile isSpace ++ command.dropWhile isSpace = command :=
    List.takeWhile_append_dropWhile
  have hback : trimUnits command ++ (command.dropWhile isSpace).rtakeWhile isSpace =
      command.dropWhile isSpace := List.rdropWhile_append_rtakeWhile
  rw [← hfront, List.mem_append] at h
  rcases h with h | h
  · exact .inl (List.mem_takeWhile_imp h)
  · rw [← hback, List.mem_append] at h
    rcases h with h | h
    · exact .inr h
    · exact .inl (List.mem_rtakeWhile_imp h)

theorem not_quote_of_plain (hplain : isPlain (trimUnits command) = true) :
    ∀ unit ∈ command, unit ≠ 34 ∧ unit ≠ 39 := by
  intro unit hmem
  rcases mem_trimUnits hmem with hspace | htrim
  · constructor
    · rintro rfl
      exact absurd hspace (by decide)
    · rintro rfl
      exact absurd hspace (by decide)
  · exact not_quote_of_isPlain hplain unit htrim

end Accepted

end GoatCitadel.Sandbox
