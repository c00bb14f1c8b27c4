import GoatCitadel.Policy.Resolver
import GoatCitadel.Support.Glob

/-!
# Deny wins

`isToolAllowed` decides from the patterns of four sources.  A deny pattern is
meant to refuse every tool that it matches as a glob, in which `*` stands for any
text, and an allow pattern to open every tool that it matches and no deny pattern
does.

`matchesToolPattern` recognises less than the glob: it gives up on an empty or
overlong name, on an overlong pattern, and on a star that would have to skip a
line break.  A deny pattern that is overlooked in this way refuses nothing, while
the pattern `*` of an allow list opens a tool without looking at its name.  The
main theorem says exactly when the overlooked patterns do not matter.
-/

namespace GoatCitadel.Policy

open GoatCitadel.Support

/-! ## Globs -/

/-- The glob of a trimmed pattern matches the trimmed name: `*` stands for any
text and every other character for itself. -/
def GlobMatches (pattern toolName : String) : Prop :=
  Glob '*' (fun _ => True) (trim pattern).toList (trim toolName).toList

theorem glob_of_matchAfterGap {rest : List Char → Bool} {pattern text : List Char}
    (hrest : ∀ text, rest text = true →
      Glob '*' (fun c => isLineTerminator c = false) pattern text)
    (h : matchAfterGap rest text = true) :
    Glob '*' (fun c => isLineTerminator c = false) ('*' :: pattern) text := by
  induction text with
  | nil => exact .gap [] (fun c hc => absurd hc List.not_mem_nil) (hrest [] h)
  | cons c text ih =>
      rw [matchAfterGap, Bool.or_eq_true, Bool.and_eq_true, Bool.not_eq_true'] at h
      rcases h with hhere | ⟨hline, hlater⟩
      · exact .gap [] (fun c hc => absurd hc List.not_mem_nil) (hrest _ hhere)
      · cases ih hlater with
        | letter hletter _ => exact absurd rfl hletter
        | gap skipped hskipped hback =>
            refine .gap (c :: skipped) ?_ hback
            intro d hd
            rcases List.mem_cons.mp hd with rfl | hmem
            · exact hline
            · exact hskipped d hmem

/-- The regular expression of a pattern matches within one line. -/
theorem glob_of_globMatch {pattern text : List Char} (h : globMatch pattern text = true) :
    Glob '*' (fun c => isLineTerminator c = false) pattern text := by
  induction pattern generalizing text with
  | nil =>
      rw [globMatch, List.isEmpty_iff] at h
      rw [h]
      exact .nil
  | cons c pattern ih =>
      by_cases hstar : c = '*'
      · subst hstar
        rw [globMatch, if_pos rfl] at h
        exact glob_of_matchAfterGap (fun _ hrest => ih hrest) h
      · rw [globMatch, if_neg hstar] at h
        cases text with
        | nil => cases h
        | cons c' text =>
            rw [Bool.and_eq_true, beq_iff_eq] at h
            obtain ⟨rfl, hrest⟩ := h
            exact .letter hstar (ih hrest)

theorem matchAfterGap_append {rest : List Char → Bool} {skipped text : List Char}
    (hskipped : ∀ c ∈ skipped, isLineTerminator c = false) (h : rest text = true) :
    matchAfterGap rest (skipped ++ text) = true := by
  induction skipped with
  | nil =>
      cases text with
      | nil => exact h
      | cons c text => simp [matchAfterGap, h]
  | cons c skipped ih =>
      have hc := hskipped c List.mem_cons_self
      have hrest := ih fun d hd => hskipped d (List.mem_cons_of_mem c hd)
      simp [matchAfterGap, hc, hrest]

/-- The regular expression of a pattern matches all that its glob does within
one line. -/
theorem globMatch_of_glob {pattern text : List Char}
    (h : Glob '*' (fun c => isLineTerminator c = false) pattern text) :
    globMatch pattern text = true := by
  induction h with
  | nil => rfl
  | letter hletter _ ih => simp [globMatch, hletter, ih]
  | gap skipped hskipped _ ih =>
      rw [globMatch, if_pos rfl]
      exact matchAfterGap_append hskipped ih

/-- A pattern that is recognised matches as a glob. -/
theorem globMatches_of_matchesToolPattern {pattern toolName : String}
    (h : matchesToolPattern pattern toolName = true) : GlobMatches pattern toolName := by
  unfold matchesToolPattern at h
  simp only at h
  split at h
  · cases h
  · split at h
    · rename_i hstar
      rw [GlobMatches, hstar]
      exact Glob.star_of_skips fun _ _ => trivial
    · split at h
      · rename_i hnone
        have hsame : trim pattern = trim toolName := by simpa using h
        rw [GlobMatches, ← hsame]
        refine Glob.self_of_not_mem ?_
        simpa using hnone
      · exact (glob_of_globMatch h).mono fun _ _ => trivial

/-- A pattern that is overlooked: it matches as a glob, and it is not
recognised. -/
def Overlooked (pattern toolName : String) : Prop :=
  GlobMatches pattern toolName ∧ matchesToolPattern pattern toolName = false

/-- The kinds of patterns and names for which a pattern is overlooked. -/
theorem Overlooked.kind {pattern toolName : String} (h : Overlooked pattern toolName) :
    trim toolName = "" ∨ maxToolNameLength < utf16Length (trim toolName) ∨
      maxPatternLength < utf16Length (trim pattern) ∨
      ∃ c ∈ (trim toolName).toList, isLineTerminator c = true := by
  obtain ⟨hglob, hnot⟩ := h
  by_contra hplain
  simp only [not_or, not_exists, not_and, Bool.not_eq_true] at hplain
  obtain ⟨hname, hnameLength, hpatternLength, hline⟩ := hplain
  have hpattern : trim pattern ≠ "" := by
    intro hempty
    rw [GlobMatches, hempty] at hglob
    have htext : (trim toolName).toList = [] := hglob.eq_of_not_mem List.not_mem_nil
    exact hname (String.toList_eq_nil_iff.mp htext)
  have hline' := globMatch_of_glob (hglob.of_text hline)
  revert hnot
  simp only [imp_false, Bool.not_eq_false, matchesToolPattern]
  rw [if_neg (by simp [hpattern, hname, hnameLength, hpatternLength])]
  split
  · rfl
  · split
    · rename_i hstar
      have hnone : '*' ∉ (trim pattern).toList := by simpa using hstar
      have htext := hglob.eq_of_not_mem hnone
      simpa using (String.toList_inj.mp htext).symm
    · exact hline'

theorem globMatches_star (toolName : String) : GlobMatches "*" toolName := by
  have htrim : (trim "*").toList = ['*'] := by decide +kernel
  rw [GlobMatches, htrim]
  exact Glob.star_of_skips fun _ _ => trivial

/-! ## The decision -/

section

variable (groups : List ToolGroupDefinition) (config : ToolPolicyConfig) (now : Nat)
  (agentId : String) (profile : Option PermissionProfileRecord)
  (override : Option LocalOperatorOverrideRecord) (toolName : String)

/-- The deny patterns of the install, of the agent and of the active profile. -/
def denyPatterns : List String :=
  joinedPatterns config agentId profile (·.deny) (·.deny)

/-- The allow patterns of the install, of the agent and of the active profile,
and the tool patterns of that profile, or `*` under an active override. -/
def allowPatterns : List String :=
  (if (override.filter (isActiveLocalOperatorOverride now)).isSome then ["*"]
    else ((activeProfile profile).map (·.toolPatterns)).getD []) ++
  joinedPatterns config agentId profile (·.allow) (·.allow)

/-- The policy of a request before any pattern is dropped. -/
def unprunedPolicy : EffectiveToolPolicy :=
  { resolveEffectivePolicy groups config now agentId profile override with
    effectiveTools := allowPatterns config now agentId profile override }

/-- The tool is decided by the globs alone. -/
structure DenyWins : Prop where
  /-- The decision is the one of the globs. -/
  decision :
    isToolAllowed (resolveEffectivePolicy groups config now agentId profile override)
        toolName = true ↔
      toolName ∉ toolNamesSwitchedOff groups config.tools.disabledGroups ∧
        (∀ pattern ∈ denyPatterns config agentId profile,
          ¬GlobMatches pattern toolName) ∧
        ∃ pattern ∈ allowPatterns config now agentId profile override,
          GlobMatches pattern toolName
  /-- Dropping the allow patterns that a deny pattern matches changes nothing. -/
  pruning :
    isToolAllowed (resolveEffectivePolicy groups config now agentId profile override)
        toolName =
      isToolAllowed (unprunedPolicy groups config now agentId profile override) toolName
  /-- More deny patterns never turn a refusal into a permission. -/
  moreDeny : ∀ config' profile',
    config'.tools.disabledGroups = config.tools.disabledGroups →
    allowPatterns config' now agentId profile' override =
      allowPatterns config now agentId profile override →
    denyPatterns config agentId profile ⊆ denyPatterns config' agentId profile' →
    isToolAllowed (resolveEffectivePolicy groups config' now agentId profile' override)
      toolName = true →
    isToolAllowed (resolveEffectivePolicy groups config now agentId profile override)
      toolName = true

/-- No overlooked pattern matters.  Unless the tool is switched off: when a deny
pattern is overlooked, another one is recognised, or no allow pattern is and `*` is
not among them; and when no deny pattern matches and an allow pattern is
overlooked, another one is recognised or `*` is among them. -/
def OverlookedPatternsIdle : Prop :=
  toolName ∈ toolNamesSwitchedOff groups config.tools.disabledGroups ∨
    ((∃ pattern ∈ denyPatterns config agentId profile, Overlooked pattern toolName) →
      matchesAnyToolPattern (denyPatterns config agentId profile) toolName = true ∨
        ("*" ∉ allowPatterns config now agentId profile override ∧
          matchesAnyToolPattern (allowPatterns config now agentId profile override)
            toolName = false)) ∧
    ((∀ pattern ∈ denyPatterns config agentId profile, ¬GlobMatches pattern toolName) →
      (∃ pattern ∈ allowPatterns config now agentId profile override,
        Overlooked pattern toolName) →
      "*" ∈ allowPatterns config now agentId profile override ∨
        matchesAnyToolPattern (allowPatterns config now agentId profile override)
          toolName = true)

end

section

variable {groups : List ToolGroupDefinition} {config : ToolPolicyConfig} {now : Nat}
  {agentId : String} {profile : Option PermissionProfileRecord}
  {override : Option LocalOperatorOverrideRecord} {toolName : String}

theorem matchesAnyToolPattern_eq_false {values : List String} :
    matchesAnyToolPattern values toolName = false ↔
      ∀ pattern ∈ values, ¬matchesToolPattern pattern toolName = true :=
  List.any_eq_false

theorem star_mem_collapseStar_append {tools values : List String} :
    "*" ∈ collapseStar tools ++ values ↔ "*" ∈ tools ++ values := by
  by_cases hstar : tools.contains "*" = true
  · have hmem : "*" ∈ tools := by simpa using hstar
    simp [collapseStar, hmem]
  · simp only [collapseStar, if_neg hstar]

/-- A tool passes the patterns that are left when `*` was among them, or when one
of them is recognised and was not dropped. -/
theorem passes_removeDenied_iff {tools values denySet : List String} :
    ((removeDenied (collapseStar tools ++ values) denySet).contains "*" ||
        matchesAnyToolPattern (removeDenied (collapseStar tools ++ values) denySet)
          toolName) = true ↔
      "*" ∈ tools ++ values ∨
        ∃ pattern ∈ tools ++ values, matchesToolPattern pattern toolName = true ∧
          matchesAnyToolPattern denySet pattern = false := by
  by_cases hstar : "*" ∈ tools ++ values
  · have hcontains : (collapseStar tools ++ values).contains "*" = true := by
      simpa using star_mem_collapseStar_append.mpr hstar
    have hkept : removeDenied (collapseStar tools ++ values) denySet =
        collapseStar tools ++ values := if_pos hcontains
    rw [hkept, hcontains]
    simp [hstar]
  · have hcollapse : collapseStar tools = tools := by
      refine if_neg fun hmem => hstar ?_
      exact List.mem_append_left _ (by simpa using hmem)
    have hcontains : ¬(tools ++ values).contains "*" = true := by
      simpa using hstar
    simp only [hcollapse, removeDenied, if_neg hcontains]
    rw [Bool.or_eq_true, List.contains_iff_mem, List.mem_filter]
    constructor
    · rintro (⟨hmem, -⟩ | hany)
      · exact .inl hmem
      · obtain ⟨pattern, hpattern, hmatch⟩ := List.any_eq_true.mp hany
        obtain ⟨hmem, hkept⟩ := List.mem_filter.mp hpattern
        exact .inr ⟨pattern, hmem, hmatch, by simpa using hkept⟩
    · rintro (hmem | ⟨pattern, hmem, hmatch, hkept⟩)
      · exact absurd hmem hstar
      · refine .inr (List.any_eq_true.mpr ⟨pattern, ?_, hmatch⟩)
        exact List.mem_filter.mpr ⟨hmem, by simpa using hkept⟩

theorem isToolAllowed_eq_true {policy : EffectiveToolPolicy} :
    isToolAllowed policy toolName = true ↔
      toolName ∉ policy.switchedOffTools ∧
        matchesAnyToolPattern policy.denySet toolName = false ∧
        (policy.effectiveTools.contains "*" ||
          matchesAnyToolPattern policy.effectiveTools toolName) = true := by
  unfold isToolAllowed
  split
  · rename_i hrefused
    simp only [Bool.false_eq_true, false_iff]
    rintro ⟨hon, hdeny, -⟩
    rcases Bool.or_eq_true_iff.mp hrefused with hoff | hdenied
    · exact hon (List.contains_iff_mem.mp hoff)
    · exact Bool.false_ne_true (hdeny.symm.trans hdenied)
  · rename_i hfree
    rw [Bool.or_eq_true, not_or, Bool.not_eq_true (matchesAnyToolPattern _ _)] at hfree
    have hon : toolName ∉ policy.switchedOffTools :=
      fun hmem => hfree.1 (List.contains_iff_mem.mpr hmem)
    exact ⟨fun h => ⟨hon, hfree.2, h⟩, fun h => h.2.2⟩

/-- The decision, in terms of the patterns that are recognised. -/
theorem isToolAllowed_iff :
    isToolAllowed (resolveEffectivePolicy groups config now agentId profile override)
        toolName = true ↔
      toolName ∉ toolNamesSwitchedOff groups config.tools.disabledGroups ∧
        matchesAnyToolPattern (denyPatterns config agentId profile) toolName = false ∧
        ("*" ∈ allowPatterns config now agentId profile override ∨
          ∃ pattern ∈ allowPatterns config now agentId profile override,
            matchesToolPattern pattern toolName = true ∧
              matchesAnyToolPattern (denyPatterns config agentId profile) pattern =
                false) :=
  isToolAllowed_eq_true.trans
    (and_congr_right fun _ => and_congr_right fun _ => passes_removeDenied_iff)

theorem isToolAllowed_unpruned_iff :
    isToolAllowed (unprunedPolicy groups config now agentId profile override)
        toolName = true ↔
      toolName ∉ toolNamesSwitchedOff groups config.tools.disabledGroups ∧
        matchesAnyToolPattern (denyPatterns config agentId profile) toolName = false ∧
        ("*" ∈ allowPatterns config now agentId profile override ∨
          matchesAnyToolPattern (allowPatterns config now agentId profile override)
            toolName = true) := by
  refine isToolAllowed_eq_true.trans
    (and_congr_right fun _ => and_congr_right fun _ => ?_)
  rw [Bool.or_eq_true, List.contains_iff_mem]
  rfl

/-- A deny pattern that matches a recognised allow pattern as a text matches the
tool as well. -/
theorem globMatches_of_dropped {denySet : List String} {pattern : String}
    (hmatch : matchesToolPattern pattern toolName = true)
    (hdropped : ¬matchesAnyToolPattern denySet pattern = false) :
    ∃ deny ∈ denySet, GlobMatches deny toolName := by
  rw [Bool.not_eq_false, matchesAnyToolPattern, List.any_eq_true] at hdropped
  obtain ⟨deny, hdeny, hover⟩ := hdropped
  refine ⟨deny, hdeny, ?_⟩
  exact Glob.trans (globMatches_of_matchesToolPattern hover)
    (globMatches_of_matchesToolPattern hmatch)

/-- A deny pattern that matches is overlooked when none is recognised. -/
theorem overlooked_of_globMatches {values : List String} {pattern : String}
    (hnone : matchesAnyToolPattern values toolName = false) (hmem : pattern ∈ values)
    (h : GlobMatches pattern toolName) : Overlooked pattern toolName :=
  ⟨h, by simpa using matchesAnyToolPattern_eq_false.mp hnone pattern hmem⟩

/-- More deny patterns never turn a refusal into a permission. -/
theorem isToolAllowed_of_moreDeny {config' : ToolPolicyConfig}
    {profile' : Option PermissionProfileRecord}
    (hgroups : config'.tools.disabledGroups = config.tools.disabledGroups)
    (hallow : allowPatterns config' now agentId profile' override =
      allowPatterns config now agentId profile override)
    (hdeny : denyPatterns config agentId profile ⊆ denyPatterns config' agentId profile')
    (h : isToolAllowed
      (resolveEffectivePolicy groups config' now agentId profile' override) toolName = true) :
    isToolAllowed (resolveEffectivePolicy groups config now agentId profile override)
      toolName = true := by
  have hfewer : ∀ name,
      matchesAnyToolPattern (denyPatterns config' agentId profile') name = false →
      matchesAnyToolPattern (denyPatterns config agentId profile) name = false := by
    intro name hnone
    rw [matchesAnyToolPattern_eq_false] at hnone ⊢
    exact fun pattern hpattern => hnone pattern (hdeny hpattern)
  obtain ⟨hon, hfree, hpasses⟩ := isToolAllowed_iff.mp h
  rw [hgroups] at hon
  rw [hallow] at hpasses
  refine isToolAllowed_iff.mpr ⟨hon, hfewer toolName hfree, ?_⟩
  rcases hpasses with hstar | ⟨pattern, hpattern, hmatch, hkept⟩
  · exact .inl hstar
  · exact .inr ⟨pattern, hpattern, hmatch, hfewer pattern hkept⟩

theorem idle_of_denyWins
    (h : DenyWins groups config now agentId profile override toolName) :
    OverlookedPatternsIdle groups config now agentId profile override toolName := by
  by_cases hoff : toolName ∈ toolNamesSwitchedOff groups config.tools.disabledGroups
  · exact .inl hoff
  refine .inr ⟨?_, ?_⟩
  · rintro ⟨deny, hdeny, hover⟩
    by_contra hmatters
    rw [not_or, Bool.not_eq_true, not_and_or, not_not, Bool.not_eq_false] at hmatters
    have hunpruned := isToolAllowed_unpruned_iff.mpr ⟨hoff, hmatters.1, hmatters.2⟩
    have hallowed := h.pruning.trans hunpruned
    exact (h.decision.mp hallowed).2.1 deny hdeny hover.1
  · rintro hnone ⟨pattern, hpattern, hover⟩
    have hallowed := h.decision.mpr ⟨hoff, hnone, pattern, hpattern, hover.1⟩
    rcases (isToolAllowed_iff.mp hallowed).2.2 with hstar | ⟨other, hother, hmatch, -⟩
    · exact .inl hstar
    · exact .inr (List.any_eq_true.mpr ⟨other, hother, hmatch⟩)

theorem denyWins_of_idle
    (h : OverlookedPatternsIdle groups config now agentId profile override toolName) :
    DenyWins groups config now agentId profile override toolName := by
  have hallow : (∀ deny ∈ denyPatterns config agentId profile, ¬GlobMatches deny toolName) →
      isToolAllowed (unprunedPolicy groups config now agentId profile override)
        toolName = true →
      isToolAllowed (resolveEffectivePolicy groups config now agentId profile override)
        toolName = true := by
    intro hnone hunpruned
    obtain ⟨hon, hfree, hpasses⟩ := isToolAllowed_unpruned_iff.mp hunpruned
    refine isToolAllowed_iff.mpr ⟨hon, hfree, ?_⟩
    rcases hpasses with hstar | hany
    · exact .inl hstar
    · obtain ⟨other, hother, hmatch⟩ := List.any_eq_true.mp hany
      refine .inr ⟨other, hother, hmatch, ?_⟩
      by_contra hdropped
      obtain ⟨deny, hdeny, hglob⟩ := globMatches_of_dropped hmatch hdropped
      exact hnone deny hdeny hglob
  have hnone_of_allowed :
      toolName ∉ toolNamesSwitchedOff groups config.tools.disabledGroups →
      matchesAnyToolPattern (denyPatterns config agentId profile) toolName = false →
      ("*" ∈ allowPatterns config now agentId profile override ∨
        matchesAnyToolPattern (allowPatterns config now agentId profile override)
          toolName = true) →
      ∀ deny ∈ denyPatterns config agentId profile, ¬GlobMatches deny toolName := by
    intro hon hfree hpasses deny hdeny hglob
    have hover := overlooked_of_globMatches hfree hdeny hglob
    rcases (h.resolve_left hon).1 ⟨deny, hdeny, hover⟩ with hdenied | ⟨hstar, hclosed⟩
    · exact Bool.false_ne_true (hfree.symm.trans hdenied)
    · rcases hpasses with hstar' | hpasses
      · exact hstar hstar'
      · exact Bool.false_ne_true (hclosed.symm.trans hpasses)
  constructor
  · constructor
    · intro hallowed
      obtain ⟨hon, hfree, hpasses⟩ := isToolAllowed_iff.mp hallowed
      refine ⟨hon, hnone_of_allowed hon hfree ?_, ?_⟩
      · rcases hpasses with hstar | ⟨pattern, hpattern, hmatch, -⟩
        · exact .inl hstar
        · exact .inr (List.any_eq_true.mpr ⟨pattern, hpattern, hmatch⟩)
      · rcases hpasses with hstar | ⟨pattern, hpattern, hmatch, -⟩
        · exact ⟨"*", hstar, globMatches_star toolName⟩
        · exact ⟨pattern, hpattern, globMatches_of_matchesToolPattern hmatch⟩
    · rintro ⟨hon, hnone, pattern, hpattern, hglob⟩
      have hfree : matchesAnyToolPattern (denyPatterns config agentId profile) toolName =
          false :=
        matchesAnyToolPattern_eq_false.mpr fun deny hdeny hmatch =>
          hnone deny hdeny (globMatches_of_matchesToolPattern hmatch)
      have hpasses : "*" ∈ allowPatterns config now agentId profile override ∨
          matchesAnyToolPattern (allowPatterns config now agentId profile override)
            toolName = true := by
        by_cases hmatch : matchesToolPattern pattern toolName = true
        · exact .inr (List.any_eq_true.mpr ⟨pattern, hpattern, hmatch⟩)
        · exact (h.resolve_left hon).2 hnone
            ⟨pattern, hpattern, hglob, by simpa using hmatch⟩
      exact hallow hnone (isToolAllowed_unpruned_iff.mpr ⟨hon, hfree, hpasses⟩)
  · rw [Bool.eq_iff_iff]
    constructor
    · intro hallowed
      obtain ⟨hon, hfree, hpasses⟩ := isToolAllowed_iff.mp hallowed
      refine isToolAllowed_unpruned_iff.mpr ⟨hon, hfree, ?_⟩
      rcases hpasses with hstar | ⟨pattern, hpattern, hmatch, -⟩
      · exact .inl hstar
      · exact .inr (List.any_eq_true.mpr ⟨pattern, hpattern, hmatch⟩)
    · intro hunpruned
      obtain ⟨hon, hfree, hpasses⟩ := isToolAllowed_unpruned_iff.mp hunpruned
      exact hallow (hnone_of_allowed hon hfree hpasses) hunpruned
  · intro config' profile' hgroups hallow hdeny hallowed
    exact isToolAllowed_of_moreDeny hgroups hallow hdeny hallowed

end

/-- Deny wins for a tool exactly when the patterns that are overlooked for it do
not matter; and a pattern is overlooked only for an empty or overlong name, when
it is overlong itself, or for a name with a line break. -/
theorem denyWins_iff_overlooked_idle (groups : List ToolGroupDefinition)
    (config : ToolPolicyConfig) (now : Nat) (agentId : String)
    (profile : Option PermissionProfileRecord)
    (override : Option LocalOperatorOverrideRecord) (toolName : String) :
    (DenyWins groups config now agentId profile override toolName ↔
      OverlookedPatternsIdle groups config now agentId profile override toolName) ∧
    ∀ pattern, Overlooked pattern toolName →
      trim toolName = "" ∨ maxToolNameLength < utf16Length (trim toolName) ∨
        maxPatternLength < utf16Length (trim pattern) ∨
        ∃ c ∈ (trim toolName).toList, isLineTerminator c = true :=
  ⟨⟨idle_of_denyWins, denyWins_of_idle⟩, fun _ => Overlooked.kind⟩

/-- Every tool is allowed and the shell is denied. -/
def openConfig : ToolPolicyConfig where
  tools := { allow := ["*"], deny := ["shell.*"] }
  agents := []
  sandbox :=
    { writeJailRoots := []
      readOnlyRoots := []
      readAccessMode := none
      requireApprovalForRiskyShell := true
      operatorWriteRoots := []
      runtimeWriteProtection := none
      outsideRootWriteMode := none }

/-- A name with a line break passes the deny pattern that matches it. -/
theorem denied_name_with_line_break_allowed :
    ¬DenyWins [] openConfig 0 "agent" none none "shell.a\nb" := by
  intro h
  have hallowed : isToolAllowed (resolveEffectivePolicy [] openConfig 0 "agent" none none)
      "shell.a\nb" = true := by
    decide +kernel
  have hglob : GlobMatches "shell.*" "shell.a\nb" := by
    have hpattern : (trim "shell.*").toList = ['s', 'h', 'e', 'l', 'l', '.', '*'] := by
      decide +kernel
    have hname : (trim "shell.a\nb").toList =
        ['s', 'h', 'e', 'l', 'l', '.'] ++ (['a', '\n', 'b'] ++ []) := by
      decide +kernel
    rw [GlobMatches, hpattern, hname]
    refine .letter (by decide) (.letter (by decide) (.letter (by decide)
      (.letter (by decide) (.letter (by decide) (.letter (by decide) ?_)))))
    exact .gap ['a', '\n', 'b'] (fun _ _ => trivial) .nil
  have hdeny : "shell.*" ∈ denyPatterns openConfig "agent" none := by decide +kernel
  exact (h.decision.mp hallowed).2.1 "shell.*" hdeny hglob

end GoatCitadel.Policy
