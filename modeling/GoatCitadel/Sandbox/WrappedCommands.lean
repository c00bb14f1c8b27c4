import GoatCitadel.Sandbox.ShellRiskGate
import GoatCitadel.Support.Repeats

/-!
# Commands inside a command

`cmd /c` runs the command that stands behind it in quotes.  The inspection reads that command as a
script, and the call of a shell in it as a command that it writes anew from its tokens.
-/

namespace GoatCitadel.Sandbox

open GoatCitadel.Support GoatCitadel.Contracts

/-- The command with its double quotes written twice, which is how quotes stand inside quotes. -/
def doubleQuotes (command : List Nat) : List Nat :=
  command.flatMap fun unit => if unit = 34 then [34, 34] else [unit]

def wrapCommand (command : List Nat) : List Nat :=
  utf16Units "cmd /c " ++ 34 :: (doubleQuotes command ++ [34])

/-- The command begins with a shell: the program that the inspection looks at is its first word. -/
structure StartsShell (runtime : ShellRuntime) (command : List Nat) : Prop where
  shell : windowsShell runtime command ≠ none
  firstWord : ∀ tokens, tokenize command true = some tokens →
    tokens.head?.map (fun token => basename runtime token.value) =
      some (basename runtime (leadingExecutable command))

/-- As a script, the command is not cut in two outside its quotes, and no word of it has a double
quote. -/
def isOneCommand (command : List Nat) : Bool :=
  match tokenize command true with
  | none => true
  | some tokens => tokens.all fun token => !token.endsSegment && !token.value.contains 34

/-- One of the commands that the command is cut into as a script is risky there.  A command that
cannot be read as a script counts as well. -/
def HasRiskyPart (runtime : ShellRuntime) (patterns : List (List Nat)) (levels : Nat)
    (command : List Nat) : Prop :=
  ∀ tokens, tokenize command true = some tokens →
    ∃ segment ∈ wordsOf Token.endsSegment tokens,
      inspectSegment runtime patterns (inspectWindowsShellRisk runtime patterns levels) segment ≠
        none

/-! ## The steps of the tokenizer -/

section Steps

variable {state state' : Tokenizer} {char : Nat} {next : Option Nat} {script : Bool}
  {text : List Nat} {tokens : List Token}

theorem step_of_skipping (h : state.skipping = true) :
    state.step script char next = some { state with skipping := false } := by
  rw [Tokenizer.step, if_pos h]

theorem step_of_quote {quote : Nat} (hskip : state.skipping = false)
    (hquote : state.quote = some quote) :
    state.step false char next =
      if char = quote then
        if next = some quote then some (state.append char).skipNext
        else some { state with quote := none }
      else some (state.append char) := by
  rw [Tokenizer.step, if_neg (Bool.eq_false_iff.mp hskip), hquote]
  simp only [Bool.false_eq_true, false_and, if_false]

theorem step_of_not_quote (hskip : state.skipping = false) (hquote : state.quote = none) :
    state.step false char next =
      if char = 34 ∨ char = 39 then some { state with quote := some char, quoted := true }
      else if isSpace char = true then state.emit
      else some (state.append char) := by
  rw [Tokenizer.step, if_neg (Bool.eq_false_iff.mp hskip), hquote]
  simp only [Bool.false_eq_true, false_and, if_false]

theorem endsSegment_operator (h : isOperatorUnit char = true) :
    (bareToken [char]).endsSegment = true := by
  rw [isOperatorUnit, Bool.or_eq_true, Bool.or_eq_true, beq_iff_eq, beq_iff_eq, beq_iff_eq] at h
  rcases h with (rfl | rfl) | rfl
  all_goals rfl

theorem endsSegment_double (h : isOperatorUnit char = true) (hne : char ≠ 59) :
    (bareToken [char, char]).endsSegment = true := by
  rw [isOperatorUnit, Bool.or_eq_true, Bool.or_eq_true, beq_iff_eq, beq_iff_eq, beq_iff_eq] at h
  rcases h with (rfl | rfl) | rfl
  · exact absurd rfl hne
  · rfl
  · rfl

/-- The token that has been read is added, unless nothing has been read. -/
theorem emit_cases (h : state.emit = some state') :
    state'.tokens.length ≤ maxTokens ∧
      ((state.value ≠ [] ∨ state.quoted = true) ∧
          state' = { state with
            tokens := state.tokens ++ [⟨state.value, state.quoted⟩]
            value := []
            quoted := false } ∨
        state' = { state with value := [], quoted := false }) := by
  rw [Tokenizer.emit] at h
  obtain ⟨tokens, hbound, rfl⟩ := Option.map_eq_some_iff.mp h
  rw [boundTokens] at hbound
  split_ifs at hbound with hword hmany hmany
  · obtain rfl := Option.some.inj hbound
    exact ⟨Nat.le_of_not_lt hmany, .inl ⟨hword, rfl⟩⟩
  · obtain rfl := Option.some.inj hbound
    exact ⟨Nat.le_of_not_lt hmany, .inr rfl⟩

theorem emit_tokens (h : state.emit = some state') : state.tokens <+: state'.tokens := by
  rcases (emit_cases h).2 with ⟨-, rfl⟩ | rfl
  · exact List.prefix_append _ _
  · exact List.prefix_rfl

/-- A step in a script is a step outside scripts, or it ends a command. -/
theorem step_of_script (h : state.step true char next = some state') :
    state.step false char next = some state' ∨
      ∃ token ∈ state'.tokens, token.endsSegment = true := by
  have hpushed : ∀ {emitted : Tokenizer} {value : List Nat},
      (bareToken value).endsSegment = true →
      ∃ token ∈ (emitted.push value).tokens, token.endsSegment = true :=
    fun hends => ⟨_, List.mem_append_right _ List.mem_cons_self, hends⟩
  by_cases hskip : state.skipping = true
  · left
    rwa [step_of_skipping hskip] at h ⊢
  have hskip' := Bool.eq_false_iff.mpr hskip
  rw [Tokenizer.step, if_neg hskip] at h
  cases hquote : state.quote with
  | some quote =>
      left
      rw [hquote] at h
      rw [step_of_quote hskip' hquote]
      dsimp only at h
      split_ifs at h ⊢
      all_goals exact h
  | none =>
      rw [hquote] at h
      rw [step_of_not_quote hskip' hquote]
      dsimp only at h
      split_ifs at h ⊢ with _ _ _ _ _ hoperator hdouble
      · exact .inl h
      · -- A line ends.
        obtain ⟨emitted, -, rfl⟩ := Option.map_eq_some_iff.mp h
        exact .inr (hpushed rfl)
      · exact .inl h
      · obtain ⟨emitted, -, rfl⟩ := Option.map_eq_some_iff.mp h
        exact .inr (hpushed (endsSegment_double hoperator.2 hdouble.2))
      · obtain ⟨emitted, -, rfl⟩ := Option.map_eq_some_iff.mp h
        exact .inr (hpushed (endsSegment_operator hoperator.2))
      · exact .inl h

theorem step_tokens (h : state.step script char next = some state') :
    state.tokens <+: state'.tokens := by
  by_cases hskip : state.skipping = true
  · rw [step_of_skipping hskip] at h
    obtain rfl := Option.some.inj h
    exact List.prefix_rfl
  rw [Tokenizer.step, if_neg hskip] at h
  cases hquote : state.quote with
  | some quote =>
      rw [hquote] at h
      dsimp only at h
      split_ifs at h
      all_goals
        obtain rfl := Option.some.inj h
        exact List.prefix_rfl
  | none =>
      rw [hquote] at h
      dsimp only at h
      split_ifs at h
      · obtain rfl := Option.some.inj h
        exact List.prefix_rfl
      · obtain ⟨emitted, hemit, rfl⟩ := Option.map_eq_some_iff.mp h
        exact (emit_tokens hemit).trans (List.prefix_append _ _)
      · exact emit_tokens h
      · obtain ⟨emitted, hemit, rfl⟩ := Option.map_eq_some_iff.mp h
        exact (emit_tokens hemit).trans (List.prefix_append _ _)
      · obtain ⟨emitted, hemit, rfl⟩ := Option.map_eq_some_iff.mp h
        exact (emit_tokens hemit).trans (List.prefix_append _ _)
      · obtain rfl := Option.some.inj h
        exact List.prefix_rfl

theorem tokenizeFrom_tokens (h : tokenizeFrom script state text = some tokens) :
    state.tokens <+: tokens ∧ tokens.length ≤ maxTokens := by
  induction text generalizing state with
  | nil =>
      rw [tokenizeFrom] at h
      split_ifs at h with hquote
      obtain ⟨state', hemit, rfl⟩ := Option.map_eq_some_iff.mp h
      exact ⟨emit_tokens hemit, (emit_cases hemit).1⟩
  | cons char rest ih =>
      rw [tokenizeFrom] at h
      obtain ⟨state', hstep, hrest⟩ := Option.bind_eq_some_iff.mp h
      obtain ⟨htokens, hlength⟩ := ih hrest
      exact ⟨(step_tokens hstep).trans htokens, hlength⟩

/-- What is one command as a script has the same tokens outside scripts. -/
theorem tokenizeFrom_of_script (h : tokenizeFrom true state text = some tokens)
    (hone : ∀ token ∈ tokens, token.endsSegment = false) :
    tokenizeFrom false state text = some tokens := by
  induction text generalizing state with
  | nil => exact h
  | cons char rest ih =>
      rw [tokenizeFrom] at h ⊢
      obtain ⟨state', hstep, hrest⟩ := Option.bind_eq_some_iff.mp h
      rcases step_of_script hstep with hsame | ⟨token, hmem, hends⟩
      · rw [hsame, Option.bind_some, ih hrest]
      · have hin := (tokenizeFrom_tokens hrest).1.mem hmem
        rw [hone token hin] at hends
        exact absurd hends Bool.false_ne_true

end Steps

/-! ## The tokens of a command -/

/-- A token without quotes is a word without quotes. -/
def Token.Plain (token : Token) : Prop :=
  token.quoted = false →
    IsWord isSpace token.value ∧ ∀ unit ∈ token.value, unit ≠ 34 ∧ unit ≠ 39

/-- So are the tokens that have been read, and what has been read of the next one. -/
structure Tokenizer.Plain (state : Tokenizer) : Prop where
  tokens : ∀ token ∈ state.tokens, token.Plain
  quote : state.quoted = false → state.quote = none
  letters : state.quoted = false → ∀ unit ∈ state.value, isSpace unit = false
  value : state.quoted = false → ∀ unit ∈ state.value, unit ≠ 34 ∧ unit ≠ 39

section Plain

variable {state state' : Tokenizer} {char : Nat} {next : Option Nat} {text : List Nat}
  {tokens : List Token}

theorem Tokenizer.Plain.emit (h : state.Plain) (hquote : state.quote = none)
    (hemit : state.emit = some state') : state'.Plain := by
  have htokens : ∀ token ∈ state'.tokens, token.Plain := by
    rcases (emit_cases hemit).2 with ⟨hword, rfl⟩ | rfl
    · rw [List.forall_mem_append]
      refine ⟨h.tokens, List.forall_mem_singleton.mpr fun hbare => ?_⟩
      have hne : state.value ≠ [] := hword.resolve_right (Bool.eq_false_iff.mp hbare)
      exact ⟨⟨hne, h.letters hbare⟩, h.value hbare⟩
    · exact h.tokens
  rcases (emit_cases hemit).2 with ⟨-, rfl⟩ | rfl
  all_goals
    exact ⟨htokens, fun _ => hquote, fun _ => List.forall_mem_nil _,
      fun _ => List.forall_mem_nil _⟩

/-- Inside quotes nothing is required of the token. -/
theorem Tokenizer.Plain.of_quoted (h : state.Plain) (htokens : state'.tokens = state.tokens)
    (hquoted : state'.quoted = true) : state'.Plain := by
  have hnot : state'.quoted ≠ false := by
    rw [hquoted]
    exact Bool.noConfusion
  exact ⟨htokens ▸ h.tokens, fun hbare => absurd hbare hnot, fun hbare => absurd hbare hnot,
    fun hbare => absurd hbare hnot⟩

theorem Tokenizer.Plain.step (h : state.Plain) (hstep : state.step false char next = some state') :
    state'.Plain := by
  by_cases hskip : state.skipping = true
  · rw [step_of_skipping hskip] at hstep
    obtain rfl := Option.some.inj hstep
    exact ⟨h.tokens, h.quote, h.letters, h.value⟩
  have hskip' := Bool.eq_false_iff.mpr hskip
  cases hquote : state.quote with
  | some quote =>
      have hquoted : state.quoted = true := by
        by_contra hbare
        have hnone := h.quote (Bool.eq_false_iff.mpr hbare)
        rw [hquote] at hnone
        exact Option.some_ne_none quote hnone
      rw [step_of_quote hskip' hquote] at hstep
      split_ifs at hstep
      all_goals
        obtain rfl := Option.some.inj hstep
        exact h.of_quoted rfl hquoted
  | none =>
      rw [step_of_not_quote hskip' hquote] at hstep
      split_ifs at hstep with hopens hspace
      · obtain rfl := Option.some.inj hstep
        exact h.of_quoted rfl rfl
      · exact h.emit hquote hstep
      · obtain rfl := Option.some.inj hstep
        refine ⟨h.tokens, h.quote, fun hbare => ?_, fun hbare => ?_⟩
        · exact List.forall_mem_append.mpr ⟨h.letters hbare,
            List.forall_mem_singleton.mpr (Bool.eq_false_iff.mpr hspace)⟩
        · exact List.forall_mem_append.mpr ⟨h.value hbare,
            List.forall_mem_singleton.mpr (not_or.mp hopens)⟩

theorem Tokenizer.Plain.tokenizeFrom (h : state.Plain)
    (hrun : tokenizeFrom false state text = some tokens) : ∀ token ∈ tokens, token.Plain := by
  induction text generalizing state with
  | nil =>
      rw [Sandbox.tokenizeFrom] at hrun
      split_ifs at hrun with hquote
      obtain ⟨state', hemit, rfl⟩ := Option.map_eq_some_iff.mp hrun
      exact (h.emit (Option.not_isSome_iff_eq_none.mp hquote) hemit).tokens
  | cons char rest ih =>
      rw [Sandbox.tokenizeFrom] at hrun
      obtain ⟨state', hstep, hrest⟩ := Option.bind_eq_some_iff.mp hrun
      exact ih (h.step hstep) hrest

end Plain

/-! ## Quotes -/

section Quotes

variable {state : Tokenizer} {done tokens : List Token} {token : Token} {text rest : List Nat}

/-- The tokenizer inside double quotes. -/
def quotedState (done : List Token) (value : List Nat) : Tokenizer :=
  ⟨done, value, some 34, true, false⟩

/-- Text without double quotes is read as it is. -/
theorem tokenizeFrom_inside {value : List Nat} (h : 34 ∉ text) :
    tokenizeFrom false (quotedState done value) (text ++ rest) =
      tokenizeFrom false (quotedState done (value ++ text)) rest := by
  induction text generalizing value with
  | nil => rw [List.nil_append, List.append_nil]
  | cons char text ih =>
      obtain ⟨hchar, htext⟩ := List.ne_and_not_mem_of_not_mem_cons h
      have hstep : (quotedState done value).step false char (text ++ rest).head? =
          some (quotedState done (value ++ [char])) := by
        rw [step_of_quote rfl rfl, if_neg hchar.symm]
        rfl
      rw [List.cons_append, tokenizeFrom, hstep, Option.bind_some, ih htext, List.append_assoc]
      rfl

/-- Double quotes that are written twice are read once. -/
theorem tokenizeFrom_doubleQuotes {value : List Nat} :
    tokenizeFrom false (quotedState done value) (doubleQuotes text ++ rest) =
      tokenizeFrom false (quotedState done (value ++ text)) rest := by
  induction text generalizing value with
  | nil => rw [doubleQuotes, List.flatMap_nil, List.nil_append, List.append_nil]
  | cons char text ih =>
      rw [doubleQuotes, List.flatMap_cons, ← doubleQuotes, List.append_assoc]
      have hread : tokenizeFrom false (quotedState done value)
          ((if char = 34 then [34, 34] else [char]) ++ (doubleQuotes text ++ rest)) =
          tokenizeFrom false (quotedState done (value ++ [char])) (doubleQuotes text ++ rest) := by
        by_cases hchar : char = 34
        · rw [if_pos hchar, hchar]
          rfl
        · have hother : 34 ∉ [char] := fun hmem => hchar (List.mem_singleton.mp hmem).symm
          rw [if_neg hchar, tokenizeFrom_inside hother]
      rw [hread, ih, List.append_assoc]
      rfl

/-- The quote is closed where no second one follows. -/
theorem tokenizeFrom_close {value : List Nat} (h : rest.head? ≠ some 34) :
    tokenizeFrom false (quotedState done value) (34 :: rest) =
      tokenizeFrom false ⟨done, value, none, true, false⟩ rest := by
  rw [tokenizeFrom, step_of_quote rfl rfl, if_pos rfl, if_neg h]
  rfl

theorem tokenizeFrom_word {value : List Nat} (hword : ∀ unit ∈ text, isSpace unit = false)
    (hquotes : ∀ unit ∈ text, unit ≠ 34 ∧ unit ≠ 39) :
    tokenizeFrom false (bareState done value) (text ++ rest) =
      tokenizeFrom false (bareState done (value ++ text)) rest := by
  induction text generalizing value with
  | nil => rw [List.nil_append, List.append_nil]
  | cons char text ih =>
      obtain ⟨hchar, htext⟩ := List.forall_mem_cons.mp hword
      obtain ⟨hquote, hrest⟩ := List.forall_mem_cons.mp hquotes
      rw [List.cons_append, tokenizeFrom, step_bare hquote,
        if_neg (Bool.eq_false_iff.mp hchar), Option.bind_some, ih htext hrest, List.append_assoc]
      rfl

theorem rendered_of_quoted (hquoted : token.quoted = true) (hquotes : 34 ∉ token.value) :
    token.rendered = 34 :: token.value ++ [34] := by
  have hsame : (token.value.flatMap fun unit => if unit = 34 then [92, 34] else [unit]) =
      token.value := by
    conv_rhs => rw [← List.flatMap_singleton' token.value]
    refine List.flatMap_congr fun unit hmem => ?_
    rw [if_neg]
    rintro rfl
    exact hquotes hmem
  rw [Token.rendered, if_pos hquoted, hsame]

/-- A token without double quotes is read again from what is written for it. -/
theorem tokenizeFrom_rendered (hplain : token.Plain) (hquotes : 34 ∉ token.value)
    (h : rest.head? ≠ some 34) :
    tokenizeFrom false (bareState done []) (token.rendered ++ rest) =
      tokenizeFrom false ⟨done, token.value, none, token.quoted, false⟩ rest := by
  by_cases hquoted : token.quoted = true
  · rw [rendered_of_quoted hquoted hquotes, hquoted, List.append_assoc]
    calc tokenizeFrom false (bareState done []) (34 :: token.value ++ ([34] ++ rest))
        = tokenizeFrom false (quotedState done []) (token.value ++ 34 :: rest) := rfl
      _ = tokenizeFrom false (quotedState done token.value) (34 :: rest) :=
        tokenizeFrom_inside hquotes
      _ = _ := tokenizeFrom_close h
  · have hbare := Bool.eq_false_iff.mpr hquoted
    obtain ⟨⟨-, hletters⟩, hvalue⟩ := hplain hbare
    rw [Token.rendered, if_neg hquoted, tokenizeFrom_word hletters hvalue, hbare]
    rfl

theorem emit_token (hplain : token.Plain) (hlength : done.length < maxTokens) :
    (Tokenizer.mk done token.value none token.quoted false).emit =
      some (bareState (done ++ [token]) []) := by
  have hword : token.value ≠ [] ∨ token.quoted = true := by
    by_cases hquoted : token.quoted = true
    · exact .inr hquoted
    · exact .inl (hplain (Bool.eq_false_iff.mpr hquoted)).1.1
  have hfits : ¬ maxTokens < (done ++ [token]).length := by
    rw [List.length_append, List.length_singleton]
    omega
  rw [Tokenizer.emit]
  dsimp only
  rw [if_pos hword, boundTokens, if_neg hfits]
  rfl

/-- The tokens are read again from the text that is written for them. -/
theorem tokenizeFrom_intercalate (hne : tokens ≠ []) (hplain : ∀ token ∈ tokens, token.Plain)
    (hquotes : ∀ token ∈ tokens, 34 ∉ token.value)
    (hlength : done.length + tokens.length ≤ maxTokens) :
    tokenizeFrom false (bareState done []) ([0x20].intercalate (tokens.map Token.rendered)) =
      some (done ++ tokens) := by
  induction tokens generalizing done with
  | nil => exact absurd rfl hne
  | cons token tokens ih =>
      obtain ⟨htoken, htokens⟩ := List.forall_mem_cons.mp hplain
      obtain ⟨hquote, hrest⟩ := List.forall_mem_cons.mp hquotes
      rw [List.length_cons] at hlength
      have hfits : done.length < maxTokens := by omega
      by_cases hlast : tokens = []
      · have hend : ([] : List Nat).head? ≠ some 34 := (Option.some_ne_none 34).symm
        rw [hlast, List.map_singleton, List.intercalate_singleton,
          ← List.append_nil token.rendered, tokenizeFrom_rendered htoken hquote hend, tokenizeFrom]
        dsimp only
        rw [emit_token htoken hfits]
        rfl
      · have hmore : tokens.map Token.rendered ≠ [] :=
          fun hnil => hlast (List.map_eq_nil_iff.mp hnil)
        have hblank :
            ([0x20] ++ [0x20].intercalate (tokens.map Token.rendered)).head? ≠ some 34 := by
          rw [List.singleton_append, List.head?_cons]
          decide
        have hstep : (Tokenizer.mk done token.value none token.quoted false).step false 0x20
            ([0x20].intercalate (tokens.map Token.rendered)).head? =
              some (bareState (done ++ [token]) []) := by
          rw [step_of_not_quote rfl rfl, if_neg (by decide), if_pos (by rfl),
            emit_token htoken hfits]
        rw [List.map_cons, List.intercalate_cons_of_ne_nil hmore, List.append_assoc,
          tokenizeFrom_rendered htoken hquote hblank, List.singleton_append, tokenizeFrom, hstep,
          Option.bind_some, ih hlast htokens hrest, List.append_assoc]
        · rfl
        · rw [List.length_append, List.length_singleton]
          omega

theorem tokenize_intercalate (hne : tokens ≠ []) (hplain : ∀ token ∈ tokens, token.Plain)
    (hquotes : ∀ token ∈ tokens, 34 ∉ token.value) (hlength : tokens.length ≤ maxTokens) :
    tokenize ([0x20].intercalate (tokens.map Token.rendered)) false = some tokens := by
  refine tokenizeFrom_intercalate hne hplain hquotes ?_
  rwa [List.length_nil, Nat.zero_add]

theorem leadingExecutable_quoted (hne : text ≠ []) (h : 34 ∉ text) :
    leadingExecutable (34 :: text ++ 34 :: rest) = text := by
  have hletters : ∀ unit ∈ text, (unit != 34) = true := by
    intro unit hmem
    rw [bne_iff_ne]
    rintro rfl
    exact h hmem
  have hinside : (text ++ 34 :: rest).takeWhile (fun unit => unit != 34) = text := by
    rw [List.takeWhile_append_of_pos hletters, List.takeWhile_cons_of_neg (by decide),
      List.append_nil]
  have hquote : isSpace 34 = false := rfl
  rw [List.cons_append, leadingExecutable,
    List.dropWhile_cons_of_neg (by rw [hquote]; exact Bool.false_ne_true)]
  dsimp only
  rw [hinside, if_pos ⟨.inl rfl, hne, List.mem_append_right _ List.mem_cons_self⟩]

theorem leadingExecutable_word (hword : IsWord isSpace text)
    (hquotes : ∀ unit ∈ text, unit ≠ 34 ∧ unit ≠ 39)
    (hrest : ∀ unit ∈ rest.head?, isSpace unit = true) :
    leadingExecutable (text ++ rest) = text := by
  cases text with
  | nil => exact absurd rfl hword.1
  | cons first text =>
      obtain ⟨hfirst, hletters⟩ := List.forall_mem_cons.mp hword.2
      obtain ⟨hquote, -⟩ := List.forall_mem_cons.mp hquotes
      have hall : ∀ unit ∈ text, (!isSpace unit) = true := by
        intro unit hmem
        rw [hletters unit hmem]
        rfl
      have hbehind : rest.takeWhile (fun unit => !isSpace unit) = [] := by
        rw [List.takeWhile_eq_nil_iff]
        intro hlength
        rw [hrest _ (List.head?_eq_getElem? ▸ List.getElem?_eq_getElem hlength)]
        decide
      rw [List.cons_append, leadingExecutable,
        List.dropWhile_cons_of_neg (by rw [hfirst]; exact Bool.false_ne_true)]
      dsimp only
      rw [if_neg fun h => not_or.mpr hquote h.1, List.takeWhile_append_of_pos hall, hbehind,
        List.append_nil]

/-- The program of a text that is written for tokens is the first of them. -/
theorem leadingExecutable_rendered (hplain : token.Plain) (hquotes : 34 ∉ token.value)
    (hne : token.value ≠ []) (hrest : ∀ unit ∈ rest.head?, isSpace unit = true) :
    leadingExecutable (token.rendered ++ rest) = token.value := by
  by_cases hquoted : token.quoted = true
  · rw [rendered_of_quoted hquoted hquotes, List.append_assoc]
    exact leadingExecutable_quoted hne hquotes
  · obtain ⟨hword, hvalue⟩ := hplain (Bool.eq_false_iff.mpr hquoted)
    rw [Token.rendered, if_neg hquoted]
    exact leadingExecutable_word hword hvalue hrest

end Quotes

/-! ## The inspection of a wrapped command -/

section Wrapped

variable {runtime : ShellRuntime} {patterns : List (List Nat)} {command : List Nat}
  {tokens : List Token} {levels : Nat}

theorem tokenize_wrapCommand (command : List Nat) :
    tokenize (wrapCommand command) false =
      some [bareToken (utf16Units "cmd"), bareToken (utf16Units "/c"), ⟨command, true⟩] := by
  have hend : ([] : List Nat).head? ≠ some 34 := (Option.some_ne_none 34).symm
  have hplain : (Token.mk command true).Plain := fun hbare => absurd hbare Bool.noConfusion
  calc tokenize (wrapCommand command) false
      = tokenizeFrom false
          (quotedState [bareToken (utf16Units "cmd"), bareToken (utf16Units "/c")] [])
          (doubleQuotes command ++ [34]) := rfl
    _ = tokenizeFrom false
          ⟨[bareToken (utf16Units "cmd"), bareToken (utf16Units "/c")], command, none, true, false⟩
          [] := by rw [tokenizeFrom_doubleQuotes, List.nil_append, tokenizeFrom_close hend]
    _ = _ := congrArg (Option.map Tokenizer.tokens) (emit_token hplain (by decide))

theorem length_le_doubleQuotes (command : List Nat) :
    command.length ≤ (doubleQuotes command).length := by
  induction command with
  | nil => exact Nat.le_refl 0
  | cons unit command ih =>
      rw [doubleQuotes, List.flatMap_cons, List.length_append, List.length_cons, ← doubleQuotes]
      split_ifs
      · rw [List.length_cons, List.length_singleton]
        omega
      · rw [List.length_singleton]
        omega

theorem length_le_wrapCommand (command : List Nat) :
    command.length ≤ (wrapCommand command).length := by
  have h := length_le_doubleQuotes command
  rw [wrapCommand, List.length_append, List.length_cons, List.length_append]
  omega

theorem windowsShell_wrapCommand (command : List Nat) :
    windowsShell runtime (wrapCommand command) = some .cmd := by
  have hprogram : leadingExecutable (wrapCommand command) = utf16Units "cmd" := rfl
  have hname : basename runtime (utf16Units "cmd") = utf16Units "cmd" :=
    runtime.lower.toLowerCase_ascii (utf16Units "cmd") (by decide)
  rw [windowsShell, hprogram, hname]
  rfl

theorem readScript_wrapCommand (command : List Nat) :
    readScript runtime .cmd (wrapCommand command) =
      if trimUnits command = [] ∨ maxCommandChars < command.length then none
      else some command := by
  have hflag : isScriptFlag runtime.fold .cmd (utf16Units "/c") = true := by
    rw [isScriptFlag, isOneOf, List.any_cons, beq_self_eq_true, Bool.true_or]
  have hbefore : [bareToken (utf16Units "/c"), ⟨command, true⟩].dropWhile
      (fun token => !isScriptFlag runtime.fold .cmd token.value) =
        [bareToken (utf16Units "/c"), ⟨command, true⟩] := by
    rw [List.dropWhile_cons_of_neg]
    rw [bareToken, hflag]
    decide
  have hswitches : [bareToken (utf16Units "/c"), ⟨command, true⟩].takeWhile
      (fun token => !isScriptFlag runtime.fold .cmd token.value) = [] := by
    rw [List.takeWhile_cons_of_neg]
    rw [bareToken, hflag]
    decide
  rw [readScript, tokenize_wrapCommand]
  simp only [Option.bind_eq_bind, Option.bind_some, List.tail_cons, hbefore, hswitches,
    List.map_singleton, List.intercalate_singleton]
  rw [List.any_nil, if_neg Bool.false_ne_true, if_neg fun h => WindowsShell.noConfusion h.1]

theorem trimUnits_ne_nil_of_shell (h : windowsShell runtime command ≠ none) :
    trimUnits command ≠ [] := by
  intro htrim
  have hwords : wordsOf isSpace command = [] := by
    rw [← wordsOf_trimUnits, htrim]
    rfl
  have hblank := (blank_of_wordsAfter_eq_nil hwords).2
  have hprogram : leadingExecutable command = [] := by
    rw [leadingExecutable, List.dropWhile_eq_nil_iff.mpr hblank]
  have hname : basename runtime [] = [] :=
    runtime.lower.toLowerCase_ascii [] (List.forall_mem_nil _)
  rw [windowsShell, hprogram, hname] at h
  exact h rfl

/-- The shell is found by the last part of the path of the program. -/
theorem windowsShell_congr {command' : List Nat}
    (h : basename runtime (leadingExecutable command) =
      basename runtime (leadingExecutable command')) :
    windowsShell runtime command = windowsShell runtime command' := by
  rw [windowsShell, windowsShell, h]

theorem isShellName (h : windowsShell runtime command ≠ none) :
    (cmdNames ++ powershellNames).contains (basename runtime (leadingExecutable command)) =
      true := by
  rw [windowsShell] at h
  rw [List.contains_iff_mem, List.mem_append]
  split_ifs at h with hpowershell hcmd
  · exact .inr (List.contains_iff_mem.mp hpowershell)
  · exact .inl (List.contains_iff_mem.mp hcmd)
  · exact absurd rfl h

/-- A shell is called through its name only. -/
theorem isIndirect_of_isShellName {name : List Nat}
    (h : (cmdNames ++ powershellNames).contains name = true) :
    indirectCommands.contains name = true := by
  have hall : (cmdNames ++ powershellNames).all indirectCommands.contains = true := by
    decide +kernel
  exact List.all_eq_true.mp hall name (List.contains_iff_mem.mp h)

/-- What is found in the call of a shell is found in the command that has it. -/
theorem inspectSegment_of_nested {nested : List Nat → Option (List Nat)}
    (hname : (cmdNames ++ powershellNames).contains
      (basename runtime (tokens.head?.elim [] Token.value)) = true)
    (h : nested ([0x20].intercalate (tokens.map Token.rendered)) ≠ none) :
    inspectSegment runtime patterns nested tokens ≠ none := by
  rw [inspectSegment]
  dsimp only
  rw [if_pos (isIndirect_of_isShellName hname), if_pos hname]
  split_ifs with hscript
  · exact Option.some_ne_none _
  · rw [Ne, Option.or_eq_none_iff, not_and_or]
    exact .inl h

/-- The tokens of one command make up its only part. -/
theorem wordsOf_endsSegment (hne : tokens ≠ [])
    (h : ∀ token ∈ tokens, token.endsSegment = false) :
    wordsOf Token.endsSegment tokens = [tokens] := by
  rw [wordsOf, ← List.append_nil tokens, wordsAfter_append h, List.nil_append, List.append_nil]
  exact closeWord_of_ne_nil hne

theorem isOneCommand_iff :
    isOneCommand command = true ↔
      ∀ tokens, tokenize command true = some tokens →
        ∀ token ∈ tokens, token.endsSegment = false ∧ 34 ∉ token.value := by
  rw [isOneCommand]
  cases tokenize command true with
  | none => exact iff_of_true rfl fun _ h => absurd h.symm (Option.some_ne_none _)
  | some tokens =>
      simp only [List.all_eq_true, Bool.and_eq_true, Bool.not_eq_true', Option.some_inj,
        forall_eq', Bool.eq_false_iff, Ne, List.contains_iff_mem]

/-- The call of a shell that the inspection finds in the wrapped command is the command. -/
theorem inspect_rendered {first : Token} (htokens : tokenize command true = some (first :: tokens))
    (hone : ∀ token ∈ first :: tokens, token.endsSegment = false ∧ 34 ∉ token.value)
    (hname : basename runtime first.value = basename runtime (leadingExecutable command))
    (hshell : windowsShell runtime command ≠ none) (hlength : command.length ≤ maxCommandChars)
    (h : inspectWindowsShellRisk runtime patterns levels command ≠ none) :
    inspectWindowsShellRisk runtime patterns levels
      ([0x20].intercalate ((first :: tokens).map Token.rendered)) ≠ none := by
  have hsame : tokenize command false = some (first :: tokens) :=
    tokenizeFrom_of_script htokens fun token hmem => (hone token hmem).1
  have hstart : (bareState [] []).Plain :=
    ⟨List.forall_mem_nil _, fun _ => rfl, fun _ => List.forall_mem_nil _,
      fun _ => List.forall_mem_nil _⟩
  have hplain : ∀ token ∈ first :: tokens, token.Plain := hstart.tokenizeFrom hsame
  have hquotes : ∀ token ∈ first :: tokens, 34 ∉ token.value :=
    fun token hmem => (hone token hmem).2
  have hagain := tokenize_intercalate (List.cons_ne_nil first tokens) hplain hquotes
    (tokenizeFrom_tokens hsame).2
  have hne : first.value ≠ [] := by
    intro hnil
    have hempty : basename runtime [] = [] :=
      runtime.lower.toLowerCase_ascii [] (List.forall_mem_nil _)
    have hfound := isShellName hshell
    rw [← hname, hnil, hempty] at hfound
    exact absurd hfound (by decide)
  have hprogram : leadingExecutable ([0x20].intercalate ((first :: tokens).map Token.rendered)) =
      first.value := by
    rw [List.map_cons]
    by_cases hlast : tokens = []
    · rw [hlast, List.map_nil, List.intercalate_singleton, ← List.append_nil first.rendered]
      exact leadingExecutable_rendered (hplain _ List.mem_cons_self)
        (hquotes _ List.mem_cons_self) hne fun unit hmem => nomatch hmem
    · have hmore : tokens.map Token.rendered ≠ [] := fun hnil => hlast (List.map_eq_nil_iff.mp hnil)
      rw [List.intercalate_cons_of_ne_nil hmore, List.append_assoc]
      refine leadingExecutable_rendered (hplain _ List.mem_cons_self)
        (hquotes _ List.mem_cons_self) hne fun unit hmem => ?_
      obtain rfl := Option.some_inj.mp hmem
      rfl
  refine inspectWindowsShellRisk_congr (windowsShell_congr ?_) (hsame.trans hagain.symm)
    (fun hlong => absurd hlong (Nat.not_lt.mpr hlength)) h
  rw [hprogram, hname]

/-- Where the command is not cut, it is its own part. -/
theorem hasRiskyPart_of_oneCommand (hstarts : StartsShell runtime command)
    (hone : isOneCommand command = true) (hlength : command.length ≤ maxCommandChars)
    (h : inspectWindowsShellRisk runtime patterns levels command ≠ none) :
    HasRiskyPart runtime patterns levels command := by
  intro tokens htokens
  cases tokens with
  | nil =>
      have hfirst := hstarts.firstWord [] htokens
      exact absurd hfirst.symm (Option.some_ne_none _)
  | cons first tokens =>
      have hname : basename runtime first.value = basename runtime (leadingExecutable command) :=
        Option.some_inj.mp (hstarts.firstWord _ htokens)
      have hone := isOneCommand_iff.mp hone _ htokens
      have hsegments := wordsOf_endsSegment (List.cons_ne_nil first tokens)
        fun token hmem => (hone token hmem).1
      rw [hsegments]
      refine ⟨first :: tokens, List.mem_singleton_self _, inspectSegment_of_nested ?_
        (inspect_rendered htokens hone hname hstarts.shell hlength h)⟩
      rw [List.head?_cons, Option.elim_some, hname]
      exact isShellName hstarts.shell

theorem HasRiskyPart.of_succ (h : HasRiskyPart runtime patterns (levels + 1) command) :
    HasRiskyPart runtime patterns levels command := by
  intro tokens htokens
  obtain ⟨segment, hmem, hfound⟩ := h tokens htokens
  exact ⟨segment, hmem, inspectSegment_mono (List.Subset.refl _)
    (fun _ => inspectWindowsShellRisk_of_succ) hfound⟩

theorem inspect_of_long (h : maxCommandChars < (wrapCommand command).length) :
    inspectWindowsShellRisk runtime patterns (levels + 1) (wrapCommand command) ≠ none := by
  rw [inspectWindowsShellRisk, windowsShell_wrapCommand, Option.bind_some, if_pos h]
  exact Option.some_ne_none _

/-- The parts of the command are the commands of the script that the wrapped command has. -/
theorem HasRiskyPart.inspect (hshell : windowsShell runtime command ≠ none)
    (h : HasRiskyPart runtime patterns levels command) :
    inspectWindowsShellRisk runtime patterns (levels + 1) (wrapCommand command) ≠ none := by
  by_cases hlong : maxCommandChars < (wrapCommand command).length
  · exact inspect_of_long hlong
  have hlength : command.length ≤ maxCommandChars :=
    (length_le_wrapCommand command).trans (Nat.le_of_not_lt hlong)
  have hscript : ¬ (trimUnits command = [] ∨ maxCommandChars < command.length) :=
    not_or.mpr ⟨trimUnits_ne_nil_of_shell hshell, Nat.not_lt.mpr hlength⟩
  rw [inspectWindowsShellRisk, windowsShell_wrapCommand, Option.bind_some, if_neg hlong,
    readScript_wrapCommand, if_neg hscript, Option.bind_some]
  cases htokens : tokenize command true with
  | none => exact Option.some_ne_none _
  | some tokens =>
      obtain ⟨segment, hmem, hfound⟩ := h tokens htokens
      dsimp only
      rw [Ne, List.findSome?_eq_none_iff]
      exact fun hnone => hfound (hnone segment hmem)

end Wrapped

/-! ## The text of a wrapped command -/

section Text

variable {fold : CaseFold} {pattern text text' command : List Nat}

/-- A pattern without double quotes is found where double quotes are written twice. -/
theorem Occurs.repeats
    (hfold : ∀ unit, fold.canonicalize unit = fold.canonicalize 34 → unit = 34)
    (hpattern : 34 ∉ pattern) (hrepeats : Repeats 34 text text') (h : Occurs fold pattern text) :
    Occurs fold pattern text' := by
  obtain ⟨front, middle, back, rfl, hreads, hfront, hback⟩ := h
  obtain ⟨front', rest', rfl, hfront', hrest⟩ := hrepeats.split
  obtain ⟨middle', back', rfl, hmiddle', hback'⟩ := hrest.split
  have hquote : fold.canonicalize 34 ∉ pattern.map fold.canonicalize := by
    intro hmem
    obtain ⟨unit, hunit, hsame⟩ := List.mem_map.mp hmem
    rw [hfold unit hsame] at hunit
    exact hpattern hunit
  refine ⟨front', middle', back', rfl, (hmiddle'.map fold.canonicalize).glob hquote hreads, ?_, ?_⟩
  · rwa [StartsBehind, hfront'.getLast?_eq]
  · rwa [EndsBefore, hback'.head?_eq]

/-- What occurs in a text occurs where something ending in a boundary stands before it. -/
theorem Occurs.append_left {before : List Nat}
    (hbefore : ∀ unit ∈ before.getLast?, isRiskBoundary unit = true)
    (h : Occurs fold pattern text) : Occurs fold pattern (before ++ text) := by
  obtain ⟨front, middle, back, rfl, hreads, hfront, hback⟩ := h
  refine ⟨before ++ front, middle, back, (List.append_assoc _ _ _).symm, hreads, ?_, hback⟩
  rcases hfront with hstar | hboundary
  · exact .inl hstar
  right
  by_cases hnil : front = []
  · rwa [hnil, List.append_nil]
  · rwa [List.getLast?_append_of_ne_nil _ hnil]

/-- The command between quotes, which stand for no end of the text. -/
def quoteCommand (command : List Nat) : List Nat :=
  34 :: (command ++ [34])

theorem repeats_doubleQuotes (command : List Nat) :
    Repeats 34 command (doubleQuotes command) := by
  induction command with
  | nil => exact .nil
  | cons unit command ih =>
      rw [doubleQuotes, List.flatMap_cons, ← doubleQuotes]
      by_cases hunit : unit = 34
      · rw [if_pos hunit, hunit]
        exact .twice ih
      · rw [if_neg hunit]
        exact .letter unit ih

theorem normalizeRiskText_wrapCommand (command : List Nat) :
    normalizeRiskText (wrapCommand command) =
      utf16Units "cmd /c " ++ normalizeRiskText (34 :: (doubleQuotes command ++ [34])) := by
  have hwords : wordsOf isSpace (wrapCommand command) =
      utf16Units "cmd" :: utf16Units "/c" ::
        wordsOf isSpace (34 :: (doubleQuotes command ++ [34])) := rfl
  have hne : wordsOf isSpace (34 :: (doubleQuotes command ++ [34])) ≠ [] := by
    intro hnil
    have hblank := (blank_of_wordsAfter_eq_nil hnil).2 34 List.mem_cons_self
    exact absurd hblank (by decide)
  rw [normalizeRiskText_eq, normalizeRiskText_eq, hwords,
    List.intercalate_cons_of_ne_nil (List.cons_ne_nil _ _), List.intercalate_cons_of_ne_nil hne,
    List.append_assoc]
  rfl

/-- A pattern that occurs in the command between quotes occurs in the wrapped command. -/
theorem occurs_wrapCommand
    (hfold : ∀ unit, fold.canonicalize unit = fold.canonicalize 34 → unit = 34)
    (hpattern : 34 ∉ pattern)
    (h : Occurs fold pattern (normalizeRiskText (quoteCommand command))) :
    Occurs fold pattern (normalizeRiskText (wrapCommand command)) := by
  have hquoted : Repeats 34 (quoteCommand command) (34 :: (doubleQuotes command ++ [34])) :=
    .letter 34 ((repeats_doubleQuotes command).append (.refl [34]))
  have hwords : Repeats 34 (normalizeRiskText (quoteCommand command))
      (normalizeRiskText (34 :: (doubleQuotes command ++ [34]))) := by
    rw [normalizeRiskText_eq, normalizeRiskText_eq]
    exact .intercalate _ (Repeats.wordsAfter rfl .nil hquoted)
  rw [normalizeRiskText_wrapCommand]
  refine (h.repeats hfold hpattern hwords).append_left fun unit hmem => ?_
  obtain rfl := Option.some_inj.mp hmem
  rfl

end Text

/-! ## Wrapping a command -/

/-- What makes the command risky apart from its two ends: a risk that the inspection finds in one
command, a risk in one of the parts of the command, or a pattern in the text of the command between
quotes. -/
def RiskyInside (runtime : ShellRuntime) (command : List Nat) (patterns : List (List Nat)) : Prop :=
  (∃ pattern ∈ patterns, isValidPattern pattern = true) ∧
      (isOneCommand command = true ∧
          inspectWindowsShellRisk runtime (patterns.filter isValidPattern) maxNesting command ≠
            none ∨
        HasRiskyPart runtime (patterns.filter isValidPattern) maxNesting command) ∨
    ∃ pattern ∈ patterns, isValidPattern pattern = true ∧
      Occurs runtime.fold (normalizeRiskText pattern) (normalizeRiskText (quoteCommand command))

theorem not_mem_normalizeRiskText {pattern : List Nat} (h : 34 ∉ pattern) :
    34 ∉ normalizeRiskText pattern := by
  intro hmem
  rw [normalizeRiskText_eq] at hmem
  rcases mem_intercalate hmem with hblank | ⟨word, hword, hin⟩
  · exact absurd hblank (by decide)
  · exact h (mem_of_mem_wordsOf hword hin)

/-- The command of a shell that is risky inside is risky when it is wrapped.  The letter-case
mapping of the language takes nothing else to a double quote. -/
theorem wrapCommand_risky (runtime : ShellRuntime) {command : List Nat}
    {patterns : List (List Nat)}
    (hfold : ∀ unit, runtime.fold.canonicalize unit = runtime.fold.canonicalize 34 → unit = 34)
    (hpatterns : ∀ pattern ∈ patterns, 34 ∉ pattern ∧ 39 ∉ pattern)
    (hstarts : StartsShell runtime command) (h : RiskyInside runtime command patterns) :
    (classifyShellRisk runtime (wrapCommand command) patterns).risky = true := by
  rw [classifyShellRisk_iff]
  rcases h with ⟨hvalid, hfound⟩ | ⟨pattern, hmem, hvalid, hoccurs⟩
  · refine .inl ⟨hvalid, ?_⟩
    by_cases hlong : maxCommandChars < (wrapCommand command).length
    · exact inspect_of_long hlong
    have hlength := (length_le_wrapCommand command).trans (Nat.le_of_not_lt hlong)
    have hpart := hfound.elim
      (fun h => hasRiskyPart_of_oneCommand hstarts h.1 hlength h.2) fun hpart => hpart
    exact hpart.of_succ.inspect hstarts.shell
  · refine .inr ⟨?_, pattern, hmem, hvalid, ?_⟩
    · rw [normalizeRiskText_wrapCommand]
      exact List.append_ne_nil_of_left_ne_nil (List.cons_ne_nil _ _) _
    · exact occurs_wrapCommand hfold (not_mem_normalizeRiskText (hpatterns pattern hmem).1) hoccurs

theorem asciiFold_quote {unit : Nat}
    (h : asciiFold.canonicalize unit = asciiFold.canonicalize 34) : unit = 34 := by
  change (if 97 ≤ unit ∧ unit ≤ 122 then unit - 32 else unit) = 34 at h
  split_ifs at h with hletter
  · omega
  · exact h

def removalCall : List Nat :=
  utf16Units "cmd /c \"ri x\""

theorem removalCall_tokens :
    tokenize removalCall true =
      some [bareToken (utf16Units "cmd"), bareToken (utf16Units "/c"),
        ⟨utf16Units "ri x", true⟩] := by
  decide +kernel

theorem removalCall_startsShell : StartsShell asciiRuntime removalCall := by
  refine ⟨by decide +kernel, fun tokens htokens => ?_⟩
  rw [removalCall_tokens] at htokens
  obtain rfl := Option.some.inj htokens
  decide +kernel

/-- The removal in the call of a shell is found when the call is wrapped. -/
theorem removalCall_wrapped :
    (classifyShellRisk asciiRuntime (wrapCommand removalCall) [utf16Units "rm"]).risky = true :=
  wrapCommand_risky asciiRuntime (fun _ => asciiFold_quote) (by decide +kernel)
    removalCall_startsShell
    (.inl ⟨⟨utf16Units "rm", List.mem_cons_self, by decide +kernel⟩,
      .inl ⟨by decide +kernel, by decide +kernel⟩⟩)

/-- A command of a shell that is risky, and not when it is wrapped. -/
structure HidesRisk (runtime : ShellRuntime) (command : List Nat) (patterns : List (List Nat)) :
    Prop where
  shell : windowsShell runtime command ≠ none
  noQuotes : ∀ pattern ∈ patterns, 34 ∉ pattern ∧ 39 ∉ pattern
  risky : (classifyShellRisk runtime command patterns).risky = true
  hidden : (classifyShellRisk runtime (wrapCommand command) patterns).risky = false

/-- Wrapping hides a pattern at the end of the command, what a line end or a separator outside the
quotes now cuts off, and what was run by another shell than the first word names. -/
theorem wrapping_hidesRisk :
    HidesRisk asciiRuntime (utf16Units "cmd /c echo rm") [utf16Units "rm"] ∧
    HidesRisk asciiRuntime (utf16Units "cmd /c ri\n-rf x") [utf16Units "rm -rf"] ∧
    HidesRisk asciiRuntime (utf16Units "cmd /c echo a ; \"ri x\"") [utf16Units "rm"] ∧
    HidesRisk asciiRuntime (utf16Units "\"cmd\"/powershell -c /c ri x") [utf16Units "rm"] := by
  refine ⟨⟨?_, ?_, ?_, ?_⟩, ⟨?_, ?_, ?_, ?_⟩, ⟨?_, ?_, ?_, ?_⟩, ⟨?_, ?_, ?_, ?_⟩⟩
  all_goals decide +kernel

end GoatCitadel.Sandbox
