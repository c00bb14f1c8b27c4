import GoatCitadel.Sandbox.ExecCommands

/-!
# Windows shells

A command whose program is PowerShell or `cmd` carries a script, which the gate reads as well.
The inspection knows literal commands only: whatever it cannot read counts as risky, under every
pattern.
-/

namespace GoatCitadel.Sandbox

open GoatCitadel.Support GoatCitadel.Contracts

def maxCommandChars : Nat := 32768

def maxTokens : Nat := 512

def maxNesting : Nat := 3

/-- What the gate takes from its language: `toLowerCase` and the case mapping of the flag `i`. -/
structure ShellRuntime where
  lower : LowerCase
  fold : CaseFold

def windowsShellUninspectable : List Nat :=
  utf16Units "windows_shell_uninspectable"

def windowsShellIndirectExecution : List Nat :=
  utf16Units "windows_shell_indirect_execution"

structure Token where
  value : List Nat
  quoted : Bool
  deriving DecidableEq

/-! ## The tokenizer -/

/-- `skipping` says that the next character has been read already. -/
structure Tokenizer where
  tokens : List Token
  value : List Nat
  quote : Option Nat
  quoted : Bool
  skipping : Bool

/-- No more than `maxTokens` tokens are read. -/
def boundTokens (tokens : List Token) : Option (List Token) :=
  if maxTokens < tokens.length then none else some tokens

def Tokenizer.emit (state : Tokenizer) : Option Tokenizer :=
  let tokens :=
    if state.value ≠ [] ∨ state.quoted = true then
      state.tokens ++ [⟨state.value, state.quoted⟩]
    else state.tokens
  (boundTokens tokens).map fun tokens => { state with tokens, value := [], quoted := false }

def Tokenizer.push (state : Tokenizer) (value : List Nat) : Tokenizer :=
  { state with tokens := state.tokens ++ [⟨value, false⟩] }

def Tokenizer.append (state : Tokenizer) (char : Nat) : Tokenizer :=
  { state with value := state.value ++ [char] }

def Tokenizer.skipNext (state : Tokenizer) : Tokenizer :=
  { state with skipping := true }

/-- ``[$`!%]`` -/
def isExpansion (char : Nat) : Bool :=
  char == 36 || char == 96 || char == 33 || char == 37

/-- ``[$`{}()<>!%^]`` -/
def isUnsupported (char : Nat) : Bool :=
  isExpansion char || char == 123 || char == 125 || char == 40 || char == 41 || char == 60 ||
    char == 62 || char == 94

/-- `[;&|]` -/
def isOperatorUnit (char : Nat) : Bool :=
  char == 59 || char == 38 || char == 124

/-- Reads one character; what is thrown is lost in the answer of the caller. -/
def Tokenizer.step (script : Bool) (state : Tokenizer) (char : Nat) (next : Option Nat) :
    Option Tokenizer :=
  if state.skipping = true then some { state with skipping := false }
  else
    match state.quote with
    | some quote =>
        if char = quote then
          if next = some quote then some (state.append char).skipNext
          else some { state with quote := none }
        else if script = true ∧ quote = 34 ∧ isExpansion char = true then none
        else some (state.append char)
    | none =>
        if char = 34 ∨ char = 39 then some { state with quote := some char, quoted := true }
        else if script = true ∧ isUnsupported char = true then none
        else if isSpace char = true then
          -- A line ends a command of the script.
          if script = true ∧ (char = 10 ∨ char = 13) then
            state.emit.map fun state => state.push [59]
          else state.emit
        else if script = true ∧ isOperatorUnit char = true then
          if next = some char ∧ char ≠ 59 then
            state.emit.map fun state => (state.push [char, char]).skipNext
          else state.emit.map fun state => state.push [char]
        else some (state.append char)

def tokenizeFrom (script : Bool) (state : Tokenizer) : List Nat → Option (List Token)
  | [] => if state.quote.isSome = true then none else state.emit.map Tokenizer.tokens
  | char :: rest =>
      (state.step script char rest.head?).bind fun state => tokenizeFrom script state rest

def tokenize (source : List Nat) (script : Bool) : Option (List Token) :=
  tokenizeFrom script ⟨[], [], none, false, false⟩ source

/-! ## The program -/

inductive WindowsShell
  | powershell
  | cmd
  deriving DecidableEq

/-- The last part of a path. -/
def basename (runtime : ShellRuntime) (value : List Nat) : List Nat :=
  runtime.lower.toLowerCase (value.rtakeWhile fun unit => unit != 47 && unit != 92)

/-- `^\s*(?:"([^"]+)"|'([^']+)'|([^\s]+))`: what is in the quotes that a command begins with,
or its first word. -/
def leadingExecutable (command : List Nat) : List Nat :=
  match command.dropWhile isSpace with
  | [] => []
  | first :: inside =>
      let quoted := inside.takeWhile fun unit => unit != first
      if (first = 34 ∨ first = 39) ∧ quoted ≠ [] ∧ first ∈ inside then quoted
      else first :: inside.takeWhile fun unit => !isSpace unit

def powershellNames : List (List Nat) :=
  ["powershell", "powershell.exe", "pwsh", "pwsh.exe"].map utf16Units

def cmdNames : List (List Nat) :=
  ["cmd", "cmd.exe"].map utf16Units

def windowsShell (runtime : ShellRuntime) (command : List Nat) : Option WindowsShell :=
  let executable := basename runtime (leadingExecutable command)
  if powershellNames.contains executable = true then some .powershell
  else if cmdNames.contains executable = true then some .cmd
  else none

/-! ## The script -/

/-- Whether a word is one of a list, with letters of either case. -/
def isOneOf (fold : CaseFold) (names : List String) (word : List Nat) : Bool :=
  names.any fun name =>
    word.map fold.canonicalize == (utf16Units name).map fold.canonicalize

def isScriptFlag (fold : CaseFold) : WindowsShell → List Nat → Bool
  | .powershell => isOneOf fold ["-command", "-c", "-encodedcommand", "-enc"]
  | .cmd => isOneOf fold ["/c"]

def isSwitch (fold : CaseFold) : WindowsShell → List Nat → Bool
  | .powershell => isOneOf fold ["-noprofile", "-nologo", "-noninteractive"]
  | .cmd => isOneOf fold ["/d", "/s", "/q"]

def sextet (unit : Nat) : Option Nat :=
  if 65 ≤ unit ∧ unit ≤ 90 then some (unit - 65)
  else if 97 ≤ unit ∧ unit ≤ 122 then some (unit - 71)
  else if 48 ≤ unit ∧ unit ≤ 57 then some (unit + 4)
  else if unit = 43 then some 62
  else if unit = 47 then some 63
  else none

/-- The bytes of a base64 text that is what their encoding gives. -/
def decodeBase64 : List Nat → Option (List Nat)
  | [] => some []
  | [first, second, 61, 61] => do
      let a ← sextet first
      let b ← sextet second
      if b % 16 = 0 then some [a * 4 + b / 16] else none
  | [first, second, third, 61] => do
      let a ← sextet first
      let b ← sextet second
      let c ← sextet third
      if c % 4 = 0 then some [a * 4 + b / 16, b % 16 * 16 + c / 4] else none
  | first :: second :: third :: fourth :: rest => do
      let a ← sextet first
      let b ← sextet second
      let c ← sextet third
      let d ← sextet fourth
      let bytes ← decodeBase64 rest
      some ((a * 4 + b / 16) :: (b % 16 * 16 + c / 4) :: (c % 4 * 64 + d) :: bytes)
  | _ => none

/-- `toString("utf16le")` of an even number of bytes. -/
def decodeUtf16le : List Nat → Option (List Nat)
  | [] => some []
  | low :: high :: bytes => (decodeUtf16le bytes).map ((low + 256 * high) :: ·)
  | [_] => none

/-- The script of an encoded command, which is not empty. -/
def decodeCommand (script : List Nat) : Option (List Nat) :=
  if script = [] then none else (decodeBase64 script).bind decodeUtf16le

/-- The script that a shell is given, unless the command has words that the inspection does not
know. -/
def readScript (runtime : ShellRuntime) (shell : WindowsShell) (command : List Nat) :
    Option (List Nat) := do
  let words ← tokenize command false
  let isFlag := fun token : Token => isScriptFlag runtime.fold shell token.value
  match words.tail.dropWhile (fun token => !isFlag token) with
  | [] => none
  | flag :: args =>
      let switches := words.tail.takeWhile (fun token => !isFlag token)
      if switches.any (fun token => !isSwitch runtime.fold shell token.value) = true then none
      else
        let joined := [0x20].intercalate (args.map Token.value)
        let encoded := shell = .powershell ∧
          (["-encodedcommand", "-enc"].map utf16Units).contains
            (runtime.lower.toLowerCase flag.value) = true
        let script ← if encoded then decodeCommand joined else some joined
        if trimUnits script = [] ∨ maxCommandChars < script.length then none else some script

/-! ## The commands of a script -/

/-- The tokens between two commands. -/
def Token.endsSegment (token : Token) : Bool :=
  !token.quoted && [";", "|", "&", "&&", "||"].any fun name => token.value == utf16Units name

def indirectCommands : List (List Nat) :=
  ["invoke-expression", "iex", "start-process", "saps", "invoke-command", "icm", "set-alias",
    "new-alias", "sal", "nal", "call", "cmd", "cmd.exe", "powershell", "powershell.exe", "pwsh",
    "pwsh.exe"].map utf16Units

def aliases : List (List Nat × List Nat) :=
  [("remove-item", "rm"), ("ri", "rm"), ("rd", "rmdir"), ("erase", "del")].map fun (name, short) =>
    (utf16Units name, utf16Units short)

/-- What stands for the name of a command.  The table of aliases is an object, so that a name of
one of its inherited members finds that member, which equals no text. -/
inductive CommandName
  | word (text : List Nat)
  | inherited (shown : List Nat)
  deriving DecidableEq

def CommandName.shown : CommandName → List Nat
  | .word text => text
  | .inherited shown => shown

/-- `name.replace(/\.exe$/, "")` -/
def withoutExe (name : List Nat) : List Nat :=
  if (utf16Units ".exe").isSuffixOf name = true then name.take (name.length - 4) else name

def normalizedName (name : List Nat) : CommandName :=
  match aliases.lookup name with
  | some text => .word text
  | none =>
      if name = utf16Units "constructor" then
        .inherited (utf16Units "function Object() \x7b [native code] \x7d")
      else if name = utf16Units "__proto__" then .inherited (utf16Units "[object Object]")
      else .word (withoutExe name)

/-- `"${token.value.replaceAll('"', '\\"')}"`, for a quoted token. -/
def Token.rendered (token : Token) : List Nat :=
  if token.quoted = true then
    34 :: (token.value.flatMap fun unit => if unit = 34 then [92, 34] else [unit]) ++ [34]
  else token.value

/-- A pattern is looked for in a command of the script if it begins with the name of the command
or with a star. -/
def matchesSurface (runtime : ShellRuntime) (name : CommandName) (surface pattern : List Nat) :
    Bool :=
  let normalizedPattern := normalizeRiskText pattern
  let expectedCommand :=
    runtime.lower.toLowerCase (normalizedPattern.takeWhile fun unit => !isSpace unit)
  (normalizedPattern.head? == some star || expectedCommand.contains star ||
      CommandName.word expectedCommand == name) &&
    compileBoundedRiskPattern runtime.fold normalizedPattern surface

/-- One command of a script; `nested` inspects the command of another shell. -/
def inspectSegment (runtime : ShellRuntime) (patterns : List (List Nat))
    (nested : List Nat → Option (List Nat)) (tokens : List Token) : Option (List Nat) :=
  let name := basename runtime (tokens.head?.elim [] Token.value)
  if [".ps1", ".cmd", ".bat"].any (fun extension => (utf16Units extension).isSuffixOf name) = true ∨
      name = utf16Units "." then
    some windowsShellUninspectable
  else
    let commandName := normalizedName name
    let surface := [0x20].intercalate (commandName.shown :: tokens.tail.map Token.value)
    let literal := patterns.find? (matchesSurface runtime commandName surface)
    if indirectCommands.contains name = true then
      if (cmdNames ++ powershellNames).contains name = true then
        (nested ([0x20].intercalate (tokens.map Token.rendered))).or literal
      else some windowsShellIndirectExecution
    else literal

/-- Inspects the commands of the script of a shell; `levels` shells may be nested. -/
def inspectWindowsShellRisk (runtime : ShellRuntime) (patterns : List (List Nat)) :
    Nat → List Nat → Option (List Nat)
  | 0, command =>
      (windowsShell runtime command).map fun _ => windowsShellUninspectable
  | levels + 1, command =>
      (windowsShell runtime command).bind fun shell =>
        if maxCommandChars < command.length then some windowsShellUninspectable
        else
          match (readScript runtime shell command).bind fun script => tokenize script true with
          | none => some windowsShellUninspectable
          | some tokens =>
              (wordsOf Token.endsSegment tokens).findSome?
                (inspectSegment runtime patterns
                  (inspectWindowsShellRisk runtime patterns levels))

/-- The tokens of the script that a command gives to a shell, if the inspection reads it. -/
def scriptTokens (runtime : ShellRuntime) (command : List Nat) : Option (List Token) :=
  (windowsShell runtime command).bind fun shell =>
    if maxCommandChars < command.length then none
    else (readScript runtime shell command).bind fun script => tokenize script true

/-- The scripts of both are read, and the commands of the second one stand in the first. -/
def CoversScript (runtime : ShellRuntime) (command joined : List Nat) : Prop :=
  ∃ tokens tokens', scriptTokens runtime command = some tokens ∧
    scriptTokens runtime joined = some tokens' ∧
      wordsOf Token.endsSegment tokens' ⊆ wordsOf Token.endsSegment tokens

/-! ## Commands without quotes -/

section Plain

variable {text current : List Nat} {tokens : List Token}

/-- A token without quotes. -/
def bareToken (value : List Nat) : Token :=
  ⟨value, false⟩

/-- The tokenizer outside quotes. -/
def bareState (tokens : List Token) (current : List Nat) : Tokenizer :=
  ⟨tokens, current, none, false, false⟩

theorem emit_bare :
    (bareState tokens current).emit =
      (boundTokens (tokens ++ (closeWord current).map bareToken)).map (bareState · []) := by
  by_cases hnil : current = []
  · rw [bareState, Tokenizer.emit, hnil, closeWord_nil, List.map_nil, List.append_nil]
    rfl
  · rw [bareState, Tokenizer.emit, closeWord_of_ne_nil hnil, if_pos (.inl hnil)]
    rfl

theorem step_bare {char : Nat} {next : Option Nat} (h : char ≠ 34 ∧ char ≠ 39) :
    (bareState tokens current).step false char next =
      if isSpace char = true then (bareState tokens current).emit
      else some (bareState tokens (current ++ [char])) := by
  simp only [Tokenizer.step, bareState, Bool.false_eq_true, false_and, if_false,
    if_neg (not_or.mpr h)]
  rfl

/-- Words behind too many tokens do not matter. -/
theorem boundTokens_append (tokens more : List Token) :
    ((boundTokens tokens).bind fun tokens => boundTokens (tokens ++ more)) =
      boundTokens (tokens ++ more) := by
  by_cases hmany : maxTokens < tokens.length
  · have hmore : maxTokens < (tokens ++ more).length := by
      rw [List.length_append]
      omega
    rw [boundTokens, boundTokens, if_pos hmany, if_pos hmore]
    rfl
  · rw [boundTokens, if_neg hmany]
    rfl

theorem tokenizeFrom_bare (h : ∀ unit ∈ text, unit ≠ 34 ∧ unit ≠ 39) :
    tokenizeFrom false (bareState tokens current) text =
      boundTokens (tokens ++ (wordsAfter isSpace current text).map bareToken) := by
  induction text generalizing tokens current with
  | nil =>
      have hquote : ¬ (bareState tokens current).quote.isSome = true := Bool.false_ne_true
      rw [tokenizeFrom, if_neg hquote, emit_bare, Option.map_map, wordsAfter]
      exact Option.map_id'
  | cons char text ih =>
      obtain ⟨hchar, hrest⟩ := List.forall_mem_cons.mp h
      rw [tokenizeFrom, step_bare hchar]
      by_cases hspace : isSpace char = true
      · rw [if_pos hspace, emit_bare, Option.bind_map, wordsAfter_cons_of_blank hspace,
          List.map_append, ← List.append_assoc,
          ← boundTokens_append (tokens ++ (closeWord current).map bareToken)]
        congr 1
        funext tokens
        rw [Function.comp_apply, ih hrest]
        rfl
      · rw [if_neg hspace, Option.bind_some, ih hrest,
          wordsAfter_cons_of_letter (Bool.eq_false_iff.mpr hspace)]

/-- Without quotes the words of a command are its tokens. -/
theorem tokenize_bare (h : ∀ unit ∈ text, unit ≠ 34 ∧ unit ≠ 39) :
    tokenize text false = boundTokens ((wordsOf isSpace text).map bareToken) :=
  tokenizeFrom_bare h

/-- Without quotes the program is the first word. -/
theorem leadingExecutable_bare (h : ∀ unit ∈ text, unit ≠ 34 ∧ unit ≠ 39) :
    leadingExecutable text = (wordsOf isSpace text).head?.getD [] := by
  rw [← wordsOf_dropWhile, leadingExecutable]
  have hhead := List.head?_dropWhile_not isSpace text
  have hmem : ∀ unit ∈ text.dropWhile isSpace, unit ≠ 34 ∧ unit ≠ 39 :=
    fun unit hmem => h unit ((List.dropWhile_suffix isSpace).mem hmem)
  cases hrest : text.dropWhile isSpace with
  | nil => rfl
  | cons first inside =>
      rw [hrest] at hhead hmem
      obtain ⟨hdouble, hsingle⟩ := hmem first List.mem_cons_self
      dsimp only
      rw [if_neg fun h => not_or.mpr ⟨hdouble, hsingle⟩ h.1, head?_wordsOf hhead]
      rfl

end Plain

/-! ## How the inspection depends on the command and on the patterns -/

section Inspection

variable {runtime : ShellRuntime} {patterns patterns' : List (List Nat)}
  {command command' : List Nat} {levels : Nat}

/-- The inspection reads the shell and the tokens of a command, and refuses long ones. -/
theorem inspectWindowsShellRisk_congr
    (hshell : windowsShell runtime command = windowsShell runtime command')
    (htokens : tokenize command false = tokenize command' false)
    (hlength : maxCommandChars < command.length → maxCommandChars < command'.length)
    (h : inspectWindowsShellRisk runtime patterns levels command ≠ none) :
    inspectWindowsShellRisk runtime patterns levels command' ≠ none := by
  have hscript : ∀ shell, readScript runtime shell command = readScript runtime shell command' := by
    intro shell
    rw [readScript, readScript, htokens]
  cases levels with
  | zero =>
      rw [inspectWindowsShellRisk] at h ⊢
      rwa [← hshell]
  | succ levels =>
      rw [inspectWindowsShellRisk] at h ⊢
      rw [← hshell]
      cases hfound : windowsShell runtime command with
      | none =>
          rw [hfound] at h
          exact absurd rfl h
      | some shell =>
          rw [hfound] at h
          rw [Option.bind_some] at h ⊢
          by_cases hlong : maxCommandChars < command'.length
          · rw [if_pos hlong]
            exact Option.some_ne_none _
          · rw [if_neg fun hlong' => hlong (hlength hlong')] at h
            rw [if_neg hlong, ← hscript]
            exact h

theorem inspectSegment_mono {nested nested' : List Nat → Option (List Nat)} {tokens : List Token}
    (hpatterns : patterns ⊆ patterns') (hnested : ∀ text, nested text ≠ none → nested' text ≠ none)
    (h : inspectSegment runtime patterns nested tokens ≠ none) :
    inspectSegment runtime patterns' nested' tokens ≠ none := by
  have hliteral : ∀ test : List Nat → Bool, patterns.find? test ≠ none →
      patterns'.find? test ≠ none := by
    intro test hfound
    rw [Ne, List.find?_eq_none] at hfound ⊢
    intro hmissing
    exact hfound fun pattern hmem => hmissing pattern (hpatterns hmem)
  rw [inspectSegment] at h ⊢
  dsimp only at h ⊢
  split_ifs at h ⊢ with hscript hindirect hshell
  · exact h
  · rw [Ne, Option.or_eq_none_iff, not_and_or] at h ⊢
    exact h.imp (hnested _) (hliteral _)
  · exact h
  · exact hliteral _ h

/-- What is found in a command is found with more patterns, where no less is found in the shells
inside it. -/
theorem inspectWindowsShellRisk_succ_mono {levels' : Nat} (hpatterns : patterns ⊆ patterns')
    (hnested : ∀ text, inspectWindowsShellRisk runtime patterns levels text ≠ none →
      inspectWindowsShellRisk runtime patterns' levels' text ≠ none)
    (h : inspectWindowsShellRisk runtime patterns (levels + 1) command ≠ none) :
    inspectWindowsShellRisk runtime patterns' (levels' + 1) command ≠ none := by
  rw [inspectWindowsShellRisk] at h ⊢
  cases hfound : windowsShell runtime command with
  | none =>
      rw [hfound] at h
      exact absurd rfl h
  | some shell =>
      rw [hfound, Option.bind_some] at h
      rw [Option.bind_some]
      by_cases hlong : maxCommandChars < command.length
      · rw [if_pos hlong]
        exact Option.some_ne_none _
      · rw [if_neg hlong] at h ⊢
        cases htokens : (readScript runtime shell command).bind
            fun script => tokenize script true with
        | none => exact Option.some_ne_none _
        | some tokens =>
            rw [htokens] at h
            dsimp only at h ⊢
            rw [Ne, List.findSome?_eq_none_iff] at h ⊢
            intro hnone
            refine h fun segment hmem => ?_
            by_contra hsegment
            exact inspectSegment_mono hpatterns hnested hsegment (hnone segment hmem)

/-- What is found with some patterns is found with more. -/
theorem inspectWindowsShellRisk_mono (hpatterns : patterns ⊆ patterns')
    (h : inspectWindowsShellRisk runtime patterns levels command ≠ none) :
    inspectWindowsShellRisk runtime patterns' levels command ≠ none := by
  induction levels generalizing command with
  | zero => exact h
  | succ levels ih => exact inspectWindowsShellRisk_succ_mono hpatterns (fun _ => ih) h

/-- What is found in a command is found where fewer shells may be nested. -/
theorem inspectWindowsShellRisk_of_succ
    (h : inspectWindowsShellRisk runtime patterns (levels + 1) command ≠ none) :
    inspectWindowsShellRisk runtime patterns levels command ≠ none := by
  induction levels generalizing command with
  | zero =>
      rw [inspectWindowsShellRisk, Ne, Option.map_eq_none_iff]
      intro hshell
      rw [inspectWindowsShellRisk, hshell, Option.bind_none] at h
      exact h rfl
  | succ levels ih => exact inspectWindowsShellRisk_succ_mono (List.Subset.refl _) (fun _ => ih) h

/-- A command that does not start a shell is not looked into. -/
theorem inspectWindowsShellRisk_of_not_shell (h : windowsShell runtime command = none) :
    inspectWindowsShellRisk runtime patterns levels command = none := by
  cases levels with
  | zero => rw [inspectWindowsShellRisk, h, Option.map_none]
  | succ levels => rw [inspectWindowsShellRisk, h, Option.bind_none]

theorem inspectWindowsShellRisk_of_scriptTokens {tokens : List Token}
    (h : scriptTokens runtime command = some tokens) :
    inspectWindowsShellRisk runtime patterns (levels + 1) command =
      (wordsOf Token.endsSegment tokens).findSome?
        (inspectSegment runtime patterns (inspectWindowsShellRisk runtime patterns levels)) := by
  obtain ⟨shell, hshell, htokens⟩ := Option.bind_eq_some_iff.mp h
  split_ifs at htokens with hlong
  rw [inspectWindowsShellRisk, hshell, Option.bind_some, if_neg hlong, htokens]

/-- What is found in a script is found in every script with the same commands. -/
theorem CoversScript.finds (h : CoversScript runtime command command')
    (hfound : inspectWindowsShellRisk runtime patterns (levels + 1) command' ≠ none) :
    inspectWindowsShellRisk runtime patterns (levels + 1) command ≠ none := by
  obtain ⟨tokens, tokens', htokens, htokens', hcommands⟩ := h
  rw [inspectWindowsShellRisk_of_scriptTokens htokens', Ne, List.findSome?_eq_none_iff] at hfound
  rw [inspectWindowsShellRisk_of_scriptTokens htokens, Ne, List.findSome?_eq_none_iff]
  exact fun hnone => hfound fun segment hmem => hnone segment (hcommands hmem)

end Inspection

end GoatCitadel.Sandbox
