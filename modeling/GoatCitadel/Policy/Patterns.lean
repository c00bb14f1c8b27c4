import GoatCitadel.Support.Text
import Mathlib.Data.List.Basic

/-!
# Tool patterns and wards

Permissions name tools by patterns in which `*` stands for any text of one
line.  Grants, deny lists and permission profiles compare a pattern with a
trimmed tool name of bounded length; the wards of a Citadel compare the raw
texts.
-/

namespace GoatCitadel.Policy

open GoatCitadel.Support

/-! ## Patterns -/

/-- `.*` followed by what `rest` accepts. -/
def matchAfterGap (rest : List Char → Bool) : List Char → Bool
  | [] => rest []
  | c :: text => rest (c :: text) || (!isLineTerminator c && matchAfterGap rest text)

/-- The anchored regular expression made from a pattern: `*` becomes `.*` and
every other character stands for itself. -/
def globMatch : List Char → List Char → Bool
  | [] => fun text => text.isEmpty
  | c :: pattern =>
      if c = '*' then matchAfterGap (globMatch pattern)
      else fun text =>
        match text with
        | [] => false
        | c' :: text => c == c' && globMatch pattern text

/-- `MAX_PATTERN_LENGTH` -/
def maxPatternLength : Nat := 512

/-- `MAX_TOOL_NAME_LENGTH` -/
def maxToolNameLength : Nat := 512

def matchesToolPattern (pattern toolName : String) : Bool :=
  let trimmed := trim pattern
  let name := trim toolName
  if trimmed = "" ∨ name = "" ∨ maxPatternLength < utf16Length trimmed ∨
      maxToolNameLength < utf16Length name then
    false
  else if trimmed = "*" then
    true
  else if !trimmed.toList.contains '*' then
    trimmed = name
  else
    globMatch trimmed.toList name.toList

def matchesAnyToolPattern (values : List String) (toolName : String) : Bool :=
  values.any fun value => matchesToolPattern value toolName

/-- A pattern without a star names one tool. -/
theorem trim_eq_of_matchesToolPattern {pattern toolName : String}
    (hstar : '*' ∉ pattern.toList) (h : matchesToolPattern pattern toolName = true) :
    trim pattern = trim toolName := by
  have hsub : ∀ c ∈ (trim pattern).toList, c ∈ pattern.toList := by
    intro c hc
    rw [trim, String.toList_ofList, List.mem_reverse] at hc
    have hc' := (List.dropWhile_suffix _).subset hc
    exact (List.dropWhile_suffix _).subset (List.mem_reverse.mp hc')
  have hnostar : '*' ∉ (trim pattern).toList := fun hc => hstar (hsub _ hc)
  have hne : trim pattern ≠ "*" := by
    intro heq
    rw [heq] at hnostar
    exact hnostar (by decide)
  unfold matchesToolPattern at h
  simp only [hne, if_false] at h
  split at h
  · cases h
  · simpa [hnostar] using h

/-! ## Wards -/

inductive WardEffect
  | allow
  | deny
  | requireApproval
  | requireDryRun
  | redact
  | routeLocal
  deriving DecidableEq

def WardEffect.text : WardEffect → String
  | .allow => "allow"
  | .deny => "deny"
  | .requireApproval => "require_approval"
  | .requireDryRun => "require_dry_run"
  | .redact => "redact"
  | .routeLocal => "route_local"

structure CitadelWard where
  name : String
  actionPattern : String
  effect : WardEffect
  deriving DecidableEq

def wardMatchesAction (actionPattern action : String) : Bool :=
  globMatch actionPattern.toList action.toList

/-- The ward speaks about one of the names of a request. -/
def CitadelWard.matches (ward : CitadelWard) (actions : List String) : Bool :=
  actions.any fun action => wardMatchesAction ward.actionPattern action

/-- The effects in the order in which they take precedence. -/
def wardPrecedence : List WardEffect :=
  [.deny, .requireApproval, .requireDryRun, .routeLocal, .redact]

def evaluateWardsForActions (wards : List CitadelWard) (actions : List String) :
    WardEffect :=
  let matching := wards.filter fun ward => ward.matches actions
  (wardPrecedence.find? fun effect => matching.any fun ward => ward.effect = effect).getD
    .allow

/-- Some ward with this effect speaks about the request. -/
def wardSpeaks (wards : List CitadelWard) (actions : List String)
    (effect : WardEffect) : Bool :=
  wards.any fun ward => ward.matches actions && ward.effect = effect

private theorem matching_any (wards : List CitadelWard) (actions : List String)
    (effect : WardEffect) :
    ((wards.filter fun ward => ward.matches actions).any fun ward => ward.effect = effect) =
      wardSpeaks wards actions effect :=
  List.any_filter

theorem evaluateWardsForActions_eq_deny (wards : List CitadelWard) (actions : List String) :
    evaluateWardsForActions wards actions = .deny ↔
      wardSpeaks wards actions .deny = true := by
  simp only [evaluateWardsForActions, matching_any, wardPrecedence, List.find?_cons,
    List.find?_nil]
  cases wardSpeaks wards actions .deny
  · simp only [Bool.false_eq_true, iff_false]
    repeat' split
    all_goals simp
  · simp

theorem evaluateWardsForActions_eq_requireApproval (wards : List CitadelWard)
    (actions : List String) :
    evaluateWardsForActions wards actions = .requireApproval ↔
      wardSpeaks wards actions .deny = false ∧
        wardSpeaks wards actions .requireApproval = true := by
  simp only [evaluateWardsForActions, matching_any, wardPrecedence, List.find?_cons,
    List.find?_nil]
  cases wardSpeaks wards actions .deny
  · cases wardSpeaks wards actions .requireApproval
    · simp only [Bool.false_eq_true, and_false, iff_false]
      repeat' split
      all_goals simp
    · simp
  · simp

/-- A ward that does not speak about the request changes nothing. -/
theorem evaluateWardsForActions_insert {before after : List CitadelWard} {ward : CitadelWard}
    {actions : List String} (h : ward.matches actions = false) :
    evaluateWardsForActions (before ++ ward :: after) actions =
      evaluateWardsForActions (before ++ after) actions := by
  have hfilter : (before ++ ward :: after).filter (fun ward => ward.matches actions) =
      (before ++ after).filter fun ward => ward.matches actions := by
    simp [List.filter_append, h]
  simp only [evaluateWardsForActions, hfilter]

end GoatCitadel.Policy
