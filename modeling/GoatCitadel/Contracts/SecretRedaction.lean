import GoatCitadel.Contracts.RunVariables
import GoatCitadel.Support.Substrings

/-!
# Redaction of environment values

After its patterns, `redactSecretText` takes the values of an environment out of a text.
Each value is replaced until it no longer occurs, by a text that names its variable.  The
replacement may itself complete an occurrence of the value, and then the loop goes on, or of
a value that an earlier loop has removed, and then that value is back.  As long as no
replacement does so, the pass ends and none of the values is left.
-/

namespace GoatCitadel.Contracts

open GoatCitadel.Support

/-! ## The environment pass -/

/-- `SECRET_REDACTION_MARKER` -/
def secretRedactionMarker : List Nat := utf16Units "[REDACTED]"

/-- `marker.replace(/\]$/, "_ENV")` -/
def envMarker (marker : List Nat) : List Nat :=
  if marker.getLast? = some 93 then marker.dropLast ++ utf16Units "_ENV" else marker

/-- The default `envValueReplacement` -/
def envReplacement (marker name : List Nat) : List Nat :=
  envMarker marker ++ 58 :: (name ++ [93])

/-- What `String.prototype.replace` makes of a replacement text, for a match that is a text:
`$$`, `$&` and the two texts around the match are filled in. -/
def expandReplacement (matched before after : List Nat) : List Nat → List Nat
  | 36 :: 36 :: rest => 36 :: expandReplacement matched before after rest
  | 36 :: 38 :: rest => matched ++ expandReplacement matched before after rest
  | 36 :: 96 :: rest => before ++ expandReplacement matched before after rest
  | 36 :: 39 :: rest => after ++ expandReplacement matched before after rest
  | unit :: rest => unit :: expandReplacement matched before after rest
  | [] => []

/-- The variables in the order of `Object.entries`. -/
abbrev Environment := List (List Nat × Option (List Nat))

/-- The trimmed value, when it counts as a secret. -/
def secretOf (raw : Option (List Nat)) : Option (List Nat) :=
  raw.bind fun raw =>
    let secret := trimUnits raw
    if secret.length < 12 || secret.any isSpace then none else some secret

/-- The text and `redactionCount`. -/
abbrev Redacted := List Nat × Nat

/-- The loop over the occurrences of one value. -/
def redactValue (replacement secret : List Nat) : Nat → Redacted → Option Redacted
  | 0, _ => none
  | fuel + 1, (redacted, redactionCount) =>
      match splitAtFirst secret redacted with
      | none => some (redacted, redactionCount)
      | some (before, after) =>
          redactValue replacement secret fuel
            (before ++ (expandReplacement secret before after replacement ++ after),
              redactionCount + 1)

/-- The loop over the variables. -/
def redactEnv (marker : List Nat) (fuel : Nat) : Environment → Redacted → Option Redacted
  | [], redacted => some redacted
  | (name, raw) :: env, redacted =>
      match secretOf raw with
      | none => redactEnv marker fuel env redacted
      | some secret =>
          (redactValue (envReplacement marker name) secret fuel redacted).bind
            (redactEnv marker fuel env)

def secretsOf (env : Environment) : List (List Nat) :=
  env.filterMap fun entry => secretOf entry.2

/-- The pass ends, and no secret is left. -/
def RedactsAll (marker : List Nat) (env : Environment) (text : List Nat) (count : Nat) : Prop :=
  ∃ fuel redacted, redactEnv marker fuel env (text, count) = some redacted ∧
    ∀ secret ∈ secretsOf env, ¬ secret <:+: redacted.1

/-! ## Replacements that complete no value -/

/-- What replaces an occurrence of the value between two texts. -/
def envPiece (marker name secret before after : List Nat) : List Nat :=
  expandReplacement secret before after (envReplacement marker name)

/-- No replacement that the pass makes completes an occurrence of the value it replaces or of
an earlier one. -/
def CompletesNone (marker : List Nat) : Environment → List (List Nat) → List Nat → Prop
  | [], _, _ => True
  | (name, raw) :: env, earlier, text =>
      match secretOf raw with
      | none => CompletesNone marker env earlier text
      | some secret =>
          (∀ other ∈ secret :: earlier,
            Undisturbed secret (envPiece marker name secret) other text) ∧
          ∀ turns, splitAtFirst secret (replaceTimes secret (envPiece marker name secret) turns
              text) = none →
            CompletesNone marker env (secret :: earlier)
              (replaceTimes secret (envPiece marker name secret) turns text)

variable {secret name text marker : List Nat}

theorem ne_nil_of_secretOf {raw : Option (List Nat)} (h : secretOf raw = some secret) :
    secret ≠ [] := by
  cases raw with
  | none => exact nomatch h
  | some raw =>
      rw [secretOf, Option.bind_some] at h
      dsimp only at h
      split at h
      · exact nomatch h
      · next hlong =>
          intro hnil
          rw [Option.some.inj h, hnil] at hlong
          exact hlong rfl

theorem secretsOf_cons_of_none {raw : Option (List Nat)} (env : Environment)
    (h : secretOf raw = none) : secretsOf ((name, raw) :: env) = secretsOf env :=
  List.filterMap_cons_none h

theorem secretsOf_cons_of_some {raw : Option (List Nat)} (env : Environment)
    (h : secretOf raw = some secret) : secretsOf ((name, raw) :: env) = secret :: secretsOf env :=
  List.filterMap_cons_some h

theorem redactValue_succ_of_none {replacement : List Nat} {count fuel : Nat}
    (h : splitAtFirst secret text = none) :
    redactValue replacement secret (fuel + 1) (text, count) = some (text, count) := by
  simp only [redactValue, h]

theorem redactValue_succ_of_some {before after : List Nat} {count fuel : Nat}
    (h : splitAtFirst secret text = some (before, after)) :
    redactValue (envReplacement marker name) secret (fuel + 1) (text, count) =
      redactValue (envReplacement marker name) secret fuel
        (replaceOnce secret (envPiece marker name secret) text, count + 1) := by
  rw [replaceOnce_of_some h]
  simp only [redactValue, h, envPiece]

/-- More fuel changes nothing. -/
theorem redactValue_mono {replacement : List Nat} {fuel fuel' : Nat} (hle : fuel ≤ fuel')
    {redacted result : Redacted} (h : redactValue replacement secret fuel redacted = some result) :
    redactValue replacement secret fuel' redacted = some result := by
  induction fuel generalizing fuel' redacted with
  | zero => exact nomatch h
  | succ fuel ih =>
      obtain ⟨fuel', rfl⟩ : ∃ more, fuel' = more + 1 := ⟨fuel' - 1, by omega⟩
      obtain ⟨text, count⟩ := redacted
      simp only [redactValue] at h ⊢
      split at h
      · exact h
      · exact ih (by omega) h

theorem redactEnv_mono {fuel fuel' : Nat} (hle : fuel ≤ fuel') {env : Environment}
    {redacted result : Redacted} (h : redactEnv marker fuel env redacted = some result) :
    redactEnv marker fuel' env redacted = some result := by
  induction env generalizing redacted with
  | nil => exact h
  | cons entry env ih =>
      obtain ⟨name, raw⟩ := entry
      simp only [redactEnv] at h ⊢
      split at h
      · exact ih h
      · obtain ⟨middle, hmiddle, hrest⟩ := Option.bind_eq_some_iff.mp h
        rw [redactValue_mono hle hmiddle, Option.bind_some]
        exact ih hrest

/-- The loop stops when the value no longer occurs. -/
theorem exists_redactValue {turns : Nat}
    (h : splitAtFirst secret (replaceTimes secret (envPiece marker name secret) turns text) = none)
    (count : Nat) :
    ∃ fuel turns' count',
      redactValue (envReplacement marker name) secret fuel (text, count) =
        some (replaceTimes secret (envPiece marker name secret) turns' text, count') ∧
      splitAtFirst secret (replaceTimes secret (envPiece marker name secret) turns' text) =
        none := by
  induction turns generalizing text count with
  | zero => exact ⟨1, 0, count, redactValue_succ_of_none h, h⟩
  | succ turns ih =>
      cases hfound : splitAtFirst secret text with
      | none => exact ⟨1, 0, count, redactValue_succ_of_none hfound, hfound⟩
      | some found =>
          obtain ⟨fuel, turns', count', hrun, hnone⟩ := ih h (count + 1)
          refine ⟨fuel + 1, turns' + 1, count', ?_, hnone⟩
          rw [redactValue_succ_of_some hfound]
          exact hrun

/-- The pass from a text in which the earlier values do not occur. -/
theorem exists_redactEnv {env : Environment} {earlier : List (List Nat)}
    (h : CompletesNone marker env earlier text) (hearlier : ∀ other ∈ earlier, ¬ other <:+: text)
    (count : Nat) :
    ∃ fuel redacted, redactEnv marker fuel env (text, count) = some redacted ∧
      ∀ secret ∈ earlier ++ secretsOf env, ¬ secret <:+: redacted.1 := by
  induction env generalizing earlier text count with
  | nil =>
      refine ⟨0, (text, count), rfl, ?_⟩
      rw [secretsOf, List.filterMap_nil, List.append_nil]
      exact hearlier
  | cons entry env ih =>
      obtain ⟨name, raw⟩ := entry
      cases hsecret : secretOf raw with
      | none =>
          simp only [CompletesNone, hsecret] at h
          obtain ⟨fuel, redacted, hrun, hclean⟩ := ih h hearlier count
          refine ⟨fuel, redacted, ?_, ?_⟩
          · simp only [redactEnv, hsecret]
            exact hrun
          · rw [secretsOf_cons_of_none env hsecret]
            exact hclean
      | some secret =>
          simp only [CompletesNone, hsecret] at h
          obtain ⟨hundisturbed, hrest⟩ := h
          obtain ⟨turns, hturns⟩ := exists_replaceTimes_eq_none (ne_nil_of_secretOf hsecret)
            (hundisturbed secret List.mem_cons_self)
          obtain ⟨fuel, turns', count', hloop, hdone⟩ := exists_redactValue hturns count
          have hgone : ∀ other ∈ secret :: earlier, ¬ other <:+:
              replaceTimes secret (envPiece marker name secret) turns' text := by
            intro other hother
            obtain rfl | hold := List.mem_cons.mp hother
            · exact splitAtFirst_eq_none_iff.mp hdone
            · exact not_infix_replaceTimes (hundisturbed other hother) (hearlier other hold) _
          obtain ⟨fuel', redacted, hrun, hclean⟩ := ih (hrest turns' hdone) hgone count'
          refine ⟨max fuel fuel', redacted, ?_, ?_⟩
          · simp only [redactEnv, hsecret]
            rw [redactValue_mono (Nat.le_max_left _ _) hloop, Option.bind_some]
            exact redactEnv_mono (Nat.le_max_right _ _) hrun
          · intro other hother
            apply hclean
            rw [secretsOf_cons_of_some env hsecret] at hother
            obtain hold | hnew := List.mem_append.mp hother
            · exact List.mem_append_left _ (List.mem_cons_of_mem _ hold)
            · obtain rfl | hlater := List.mem_cons.mp hnew
              · exact List.mem_append_left _ List.mem_cons_self
              · exact List.mem_append_right _ hlater

/-! ## Values that no replacement completes -/

/-- Without a dollar sign a replacement text stands for itself. -/
theorem expandReplacement_of_no_dollar {matched before after replacement : List Nat}
    (h : 36 ∉ replacement) :
    expandReplacement matched before after replacement = replacement := by
  induction replacement with
  | nil => rfl
  | cons unit rest ih =>
      have hunit : unit ≠ 36 := fun hsame => h (hsame ▸ List.mem_cons_self)
      rw [expandReplacement.eq_5 _ _ _ _ _ (fun _ hsame => absurd hsame hunit)
        (fun _ hsame => absurd hsame hunit) (fun _ hsame => absurd hsame hunit)
        (fun _ hsame => absurd hsame hunit), ih fun hrest => h (List.mem_cons_of_mem _ hrest)]

/-- With the default marker a replacement is a name in brackets. -/
theorem envReplacement_default (name : List Nat) :
    envReplacement secretRedactionMarker name =
      91 :: ((utf16Units "REDACTED_ENV:" ++ name) ++ [93]) := by
  rw [List.append_assoc]
  rfl

/-- The environment names its variables without `$`, its values have no brackets, and no value
is part of a replacement. -/
structure Separate (env : Environment) : Prop where
  names : ∀ entry ∈ env, 36 ∉ entry.1
  opening : ∀ secret ∈ secretsOf env, 91 ∉ secret
  closing : ∀ secret ∈ secretsOf env, 93 ∉ secret
  apart : ∀ entry ∈ env, ∀ secret ∈ secretsOf env,
    ¬ secret <:+: envReplacement secretRedactionMarker entry.1

theorem undisturbed_of_apart {other : List Nat} (hname : 36 ∉ name) (hopening : 91 ∉ other)
    (hclosing : 93 ∉ other) (hapart : ¬ other <:+: envReplacement secretRedactionMarker name) :
    Undisturbed secret (envPiece secretRedactionMarker name secret) other text := by
  have hdollar : 36 ∉ envReplacement secretRedactionMarker name := by
    rw [envReplacement_default]
    intro hmem
    obtain hopen | hinner := List.mem_cons.mp hmem
    · exact absurd hopen (by decide)
    · obtain hword | hclose := List.mem_append.mp hinner
      · obtain hword | hname' := List.mem_append.mp hword
        · exact absurd hword (by decide)
        · exact hname hname'
      · exact absurd hclose (by decide)
  intro turns before after _ htouches
  rw [envPiece, expandReplacement_of_no_dollar hdollar] at htouches
  exact hapart (infix_piece_of_touches (envReplacement_default name) hopening hclosing htouches)

/-- Such an environment is removed from every text. -/
theorem completesNone_of_separate {all : Environment} (hall : Separate all) {env : Environment}
    (henv : ∀ entry ∈ env, entry ∈ all) {earlier : List (List Nat)}
    (hearlier : ∀ other ∈ earlier, other ∈ secretsOf all) (text : List Nat) :
    CompletesNone secretRedactionMarker env earlier text := by
  induction env generalizing earlier text with
  | nil => exact trivial
  | cons entry env ih =>
      obtain ⟨name, raw⟩ := entry
      have hentry := henv (name, raw) List.mem_cons_self
      have hrest : ∀ entry ∈ env, entry ∈ all := fun entry h =>
        henv entry (List.mem_cons_of_mem _ h)
      cases hsecret : secretOf raw with
      | none =>
          simp only [CompletesNone, hsecret]
          exact ih hrest hearlier text
      | some secret =>
          have hmem : secret ∈ secretsOf all := List.mem_filterMap.mpr ⟨_, hentry, hsecret⟩
          have hsecrets : ∀ other ∈ secret :: earlier, other ∈ secretsOf all := by
            intro other hother
            obtain rfl | hold := List.mem_cons.mp hother
            · exact hmem
            · exact hearlier other hold
          simp only [CompletesNone, hsecret]
          constructor
          · intro other hother
            have hother' := hsecrets other hother
            exact undisturbed_of_apart (hall.names _ hentry) (hall.opening _ hother')
              (hall.closing _ hother') (hall.apart _ hentry _ hother')
          · intro turns _
            exact ih hrest hsecrets _

/-- The pass ends and leaves no secret, as long as no replacement that it makes completes an
occurrence of the value it replaces or of an earlier one. -/
theorem redactsAll_of_completesNone {marker : List Nat} {env : Environment} {text : List Nat}
    (h : CompletesNone marker env [] text) (count : Nat) :
    RedactsAll marker env text count := by
  obtain ⟨fuel, redacted, hrun, hclean⟩ :=
    exists_redactEnv h (fun _ hother => absurd hother List.not_mem_nil) count
  exact ⟨fuel, redacted, hrun, hclean⟩

def firecrawlEnv : Environment :=
  [(utf16Units "FIRECRAWL_API_KEY", some (utf16Units "fcrl_abcdefghijklmnop")),
    (utf16Units "SHORT", some (utf16Units "abc")),
    (utf16Units "SPACED", some (utf16Units "two words")), (utf16Units "UNSET", none)]

theorem firecrawlEnv_separate : Separate firecrawlEnv where
  names := by decide
  opening := by decide
  closing := by decide
  apart := by decide

theorem firecrawl_redactsAll :
    RedactsAll secretRedactionMarker firecrawlEnv
      (utf16Units "custom=fcrl_abcdefghijklmnop short=abc spaced=two words") 0 :=
  redactsAll_of_completesNone
    (completesNone_of_separate firecrawlEnv_separate (fun _ h => h)
      (fun _ h => absurd h List.not_mem_nil) _) 0

/-! ## A value that its own replacement contains -/

/-- The loop over a value that every replacement contains never ends. -/
theorem redactValue_eq_none
    (hself : ∀ before after, secret <:+: envPiece marker name secret before after) (fuel : Nat)
    (hoccurs : secret <:+: text) (count : Nat) :
    redactValue (envReplacement marker name) secret fuel (text, count) = none := by
  induction fuel generalizing text count with
  | zero => rfl
  | succ fuel ih =>
      cases hfound : splitAtFirst secret text with
      | none => exact absurd hoccurs (splitAtFirst_eq_none_iff.mp hfound)
      | some found =>
          rw [redactValue_succ_of_some hfound]
          apply ih
          rw [replaceOnce_of_some hfound]
          exact (hself found.1 found.2).trans
            ((List.prefix_append _ _).isInfix.trans (List.suffix_append _ _).isInfix)

/-- A variable whose value is its own name. -/
def placeholderEnv : Environment :=
  [(utf16Units "AWS_SECRET_ACCESS_KEY", some (utf16Units "AWS_SECRET_ACCESS_KEY"))]

theorem placeholder_not_redactsAll :
    ¬ ∀ (env : Environment) (text : List Nat) (count : Nat),
      RedactsAll secretRedactionMarker env text count := by
  intro hall
  obtain ⟨fuel, redacted, hrun, -⟩ := hall placeholderEnv
    (utf16Units "set AWS_SECRET_ACCESS_KEY") 0
  have hself : ∀ before after, utf16Units "AWS_SECRET_ACCESS_KEY" <:+:
      envPiece secretRedactionMarker (utf16Units "AWS_SECRET_ACCESS_KEY")
        (utf16Units "AWS_SECRET_ACCESS_KEY") before after := by
    intro before after
    rw [envPiece, expandReplacement_of_no_dollar (by decide), envReplacement_default]
    exact ⟨utf16Units "[REDACTED_ENV:", [93], rfl⟩
  have hoccurs : utf16Units "AWS_SECRET_ACCESS_KEY" <:+:
      utf16Units "set AWS_SECRET_ACCESS_KEY" := ⟨utf16Units "set ", [], rfl⟩
  have hnone := redactValue_eq_none hself fuel hoccurs 0
  have hsecret : secretOf (some (utf16Units "AWS_SECRET_ACCESS_KEY")) =
      some (utf16Units "AWS_SECRET_ACCESS_KEY") := by decide
  simp only [placeholderEnv, redactEnv, hsecret, hnone, Option.bind_none] at hrun
  exact nomatch hrun

end GoatCitadel.Contracts
