import GoatCitadel.Policy.DenyWins

/-!
# The strongest ward decides

A request is decided by the strongest effect among the wards whose pattern matches
one of its names as a glob.  The regular expression made from a pattern recognises
less: its star skips no line break.  A ward that is overlooked for this reason matters
exactly when no ward that is recognised is as strong.
-/

namespace GoatCitadel.Policy

open GoatCitadel.Support

/-! ## Effects -/

/-- The place of an effect in the order of precedence. -/
def WardEffect.strength : WardEffect → Nat
  | .allow => 0
  | .redact => 1
  | .routeLocal => 2
  | .requireDryRun => 3
  | .requireApproval => 4
  | .deny => 5

theorem WardEffect.strength_injective {effect effect' : WardEffect}
    (h : effect.strength = effect'.strength) : effect = effect' := by
  cases effect <;> cases effect' <;> first | rfl | exact absurd h (by decide)

/-- The effect is the strongest of those of the wards that speak, and `allow` when no
ward does. -/
structure Strongest (wards : List CitadelWard) (speaks : CitadelWard → Prop)
    (effect : WardEffect) : Prop where
  reached : (∃ ward ∈ wards, speaks ward ∧ ward.effect = effect) ∨
    (∀ ward ∈ wards, ¬speaks ward) ∧ effect = .allow
  bound : ∀ ward ∈ wards, speaks ward → ward.effect.strength ≤ effect.strength

namespace Strongest

variable {wards wards' : List CitadelWard} {speaks speaks' : CitadelWard → Prop}
  {effect effect' : WardEffect}

theorem mono (hwards : ∀ ward ∈ wards, speaks ward → ward ∈ wards' ∧ speaks' ward)
    (h : Strongest wards speaks effect) (h' : Strongest wards' speaks' effect') :
    effect.strength ≤ effect'.strength := by
  rcases h.reached with ⟨ward, hward, hspeaks, rfl⟩ | ⟨-, rfl⟩
  · obtain ⟨hward', hspeaks'⟩ := hwards ward hward hspeaks
    exact h'.bound ward hward' hspeaks'
  · exact Nat.zero_le _

theorem unique (h : Strongest wards speaks effect) (h' : Strongest wards speaks effect') :
    effect = effect' := by
  apply WardEffect.strength_injective
  apply le_antisymm
  · exact h.mono (fun ward hward hspeaks => ⟨hward, hspeaks⟩) h'
  · exact h'.mono (fun ward hward hspeaks => ⟨hward, hspeaks⟩) h

/-- The strongest effect of some of the wards is that of all of them exactly when no
other ward is stronger. -/
theorem of_subset_iff (hsub : ∀ ward ∈ wards, speaks ward → speaks' ward)
    (h : Strongest wards speaks effect) :
    Strongest wards speaks' effect ↔
      ∀ ward ∈ wards, speaks' ward → ¬speaks ward → ward.effect = .allow ∨
        ∃ other ∈ wards, speaks other ∧ ward.effect.strength ≤ other.effect.strength := by
  constructor
  · intro h' ward hward hspeaks' _
    have hbound := h'.bound ward hward hspeaks'
    rcases h.reached with ⟨other, hother, hspeaks, heffect⟩ | ⟨-, hallow⟩
    · refine Or.inr ⟨other, hother, hspeaks, ?_⟩
      rw [heffect]
      exact hbound
    · left
      apply WardEffect.strength_injective
      rw [hallow] at hbound
      exact Nat.le_zero.mp hbound
  · intro hidle
    have hbound : ∀ ward ∈ wards, speaks' ward → ward.effect.strength ≤ effect.strength := by
      intro ward hward hspeaks'
      by_cases hspeaks : speaks ward
      · exact h.bound ward hward hspeaks
      · rcases hidle ward hward hspeaks' hspeaks with hallow | ⟨other, hother, hother', hle⟩
        · rw [hallow]
          exact Nat.zero_le _
        · exact le_trans hle (h.bound other hother hother')
    refine ⟨?_, hbound⟩
    rcases h.reached with ⟨ward, hward, hspeaks, heffect⟩ | ⟨hnone, hallow⟩
    · exact Or.inl ⟨ward, hward, hsub ward hward hspeaks, heffect⟩
    · by_cases hany : ∃ ward ∈ wards, speaks' ward
      · obtain ⟨ward, hward, hspeaks'⟩ := hany
        refine Or.inl ⟨ward, hward, hspeaks', ?_⟩
        apply WardEffect.strength_injective
        have hle := hbound ward hward hspeaks'
        rw [hallow] at hle ⊢
        exact Nat.le_zero.mp hle
      · right
        constructor
        · intro ward hward hspeaks'
          exact hany ⟨ward, hward, hspeaks'⟩
        · exact hallow

end Strongest

/-! ## Evaluation -/

section

variable {wards : List CitadelWard} {actions : List String}

/-- Every effect but `allow` has its place among those that are looked for. -/
theorem find?_wardPrecedence (p : WardEffect → Bool) :
    (∀ effect, p effect = true →
      effect.strength ≤ ((wardPrecedence.find? p).getD .allow).strength) ∧
    (p ((wardPrecedence.find? p).getD .allow) = true ∨
      (wardPrecedence.find? p).getD .allow = .allow) := by
  cases hfind : wardPrecedence.find? p with
  | none =>
      rw [List.find?_eq_none] at hfind
      refine ⟨?_, Or.inr rfl⟩
      intro effect heffect
      cases effect with
      | allow => exact le_refl _
      | _ => exact absurd heffect (hfind _ (by decide))
  | some found =>
      refine ⟨?_, Or.inl (List.find?_some hfind)⟩
      intro effect heffect
      obtain ⟨-, front, back, hsplit, hfront⟩ := List.find?_eq_some_iff_append.mp hfind
      -- A stronger effect would stand before the one that was found.
      have hskipped : effect ∉ front := by
        intro hmem
        have hnot := hfront effect hmem
        rw [heffect] at hnot
        cases hnot
      have hplaces : ∀ found effect : WardEffect, found.strength < effect.strength →
          effect ∈ wardPrecedence.takeWhile fun other => decide (other ≠ found) := by
        intro found effect hlt
        cases found <;> cases effect <;> first | decide | exact absurd hlt (by decide)
      have hfrontIs : wardPrecedence.takeWhile (fun other => decide (other ≠ found)) = front := by
        have hnot : found ∉ front := by
          intro hmem
          have hnot := hfront found hmem
          rw [List.find?_some hfind] at hnot
          cases hnot
        rw [hsplit, List.takeWhile_append_of_pos]
        · simp
        · intro other hother
          simp only [ne_eq, decide_eq_true_eq]
          rintro rfl
          exact hnot hother
      by_contra hlt
      apply hskipped
      rw [← hfrontIs]
      exact hplaces found effect (Nat.lt_of_not_le hlt)

/-- The wards that are recognised decide by the strongest of their effects. -/
theorem strongest_evaluateWardsForActions (wards : List CitadelWard) (actions : List String) :
    Strongest wards (fun ward => ward.matches actions = true)
      (evaluateWardsForActions wards actions) := by
  obtain ⟨hbound, hreached⟩ := find?_wardPrecedence fun effect =>
    (wards.filter fun ward => ward.matches actions).any fun ward => ward.effect = effect
  have hspeaking : ∀ ward ∈ wards, ward.matches actions = true →
      ((wards.filter fun ward => ward.matches actions).any
        fun other => other.effect = ward.effect) = true := by
    intro ward hward hmatches
    refine List.any_eq_true.mpr ⟨ward, List.mem_filter.mpr ⟨hward, hmatches⟩, ?_⟩
    exact decide_eq_true rfl
  constructor
  · rcases hreached with hany | hallow
    · obtain ⟨ward, hward, heffect⟩ := List.any_eq_true.mp hany
      obtain ⟨hward, hmatches⟩ := List.mem_filter.mp hward
      exact Or.inl ⟨ward, hward, hmatches, of_decide_eq_true heffect⟩
    · by_cases hnone : ∃ ward ∈ wards, ward.matches actions = true
      · obtain ⟨ward, hward, hmatches⟩ := hnone
        have hle := hbound ward.effect (hspeaking ward hward hmatches)
        rw [hallow] at hle
        refine Or.inl ⟨ward, hward, hmatches, ?_⟩
        rw [evaluateWardsForActions, hallow]
        exact WardEffect.strength_injective (Nat.le_zero.mp hle)
      · refine Or.inr ⟨fun ward hward hmatches => hnone ⟨ward, hward, hmatches⟩, hallow⟩
  · intro ward hward hmatches
    exact hbound ward.effect (hspeaking ward hward hmatches)

/-- The glob of the ward matches one of the names: a star stands for any text, and every
other character for itself. -/
def CitadelWard.GlobSpeaks (actions : List String) (ward : CitadelWard) : Prop :=
  ∃ action ∈ actions, Glob '*' (fun _ => True) ward.actionPattern.toList action.toList

theorem globSpeaks_of_matches {ward : CitadelWard} (h : ward.matches actions = true) :
    ward.GlobSpeaks actions := by
  obtain ⟨action, haction, hmatches⟩ := List.any_eq_true.mp h
  exact ⟨action, haction, (glob_of_globMatch hmatches).mono fun _ _ => trivial⟩

/-- A glob is only overlooked for a name with a line break. -/
theorem matches_of_globSpeaks {ward : CitadelWard}
    (hlines : ∀ action ∈ actions, ∀ c ∈ action.toList, isLineTerminator c = false)
    (h : ward.GlobSpeaks actions) : ward.matches actions = true := by
  obtain ⟨action, haction, hglob⟩ := h
  refine List.any_eq_true.mpr ⟨action, haction, ?_⟩
  exact globMatch_of_glob (hglob.of_text (hlines action haction))

/-- The order of the wards and of the names does not matter. -/
theorem evaluateWardsForActions_perm {wards' : List CitadelWard} {actions' : List String}
    (hwards : wards'.Perm wards) (hactions : actions'.Perm actions) :
    evaluateWardsForActions wards' actions' = evaluateWardsForActions wards actions := by
  have hsame : ∀ ward : CitadelWard, ward.matches actions' = ward.matches actions := by
    intro ward
    unfold CitadelWard.matches
    rw [Bool.eq_iff_iff, List.any_eq_true, List.any_eq_true]
    simp only [hactions.mem_iff]
  have h := strongest_evaluateWardsForActions wards' actions'
  refine Strongest.unique ⟨?_, ?_⟩ (strongest_evaluateWardsForActions wards actions)
  · simpa only [hwards.mem_iff, hsame] using h.reached
  · simpa only [hwards.mem_iff, hsame] using h.bound

/-- Another ward or another name makes the decision no weaker. -/
theorem evaluateWardsForActions_mono {wards' : List CitadelWard} {actions' : List String}
    (hwards : wards ⊆ wards') (hactions : actions ⊆ actions') :
    (evaluateWardsForActions wards actions).strength ≤
      (evaluateWardsForActions wards' actions').strength := by
  refine (strongest_evaluateWardsForActions wards actions).mono ?_
    (strongest_evaluateWardsForActions wards' actions')
  intro ward hward hmatches
  obtain ⟨action, haction, hmatch⟩ := List.any_eq_true.mp hmatches
  exact ⟨hwards hward, List.any_eq_true.mpr ⟨action, hactions haction, hmatch⟩⟩

end

/-- Deny wins over globs: the decision is the strongest effect among the wards that match
a name as a glob, whatever the order of wards and names, and no ward or name that is added
weakens it. -/
structure DenyWinsOverGlobs (wards : List CitadelWard) (actions : List String) : Prop where
  strongest : Strongest wards (CitadelWard.GlobSpeaks actions)
    (evaluateWardsForActions wards actions)
  orderFree : ∀ {wards' actions'}, wards'.Perm wards → actions'.Perm actions →
    evaluateWardsForActions wards' actions' = evaluateWardsForActions wards actions
  added : ∀ ward action, (evaluateWardsForActions wards actions).strength ≤
      (evaluateWardsForActions (ward :: wards) actions).strength ∧
    (evaluateWardsForActions wards actions).strength ≤
      (evaluateWardsForActions wards (action :: actions)).strength

/-- Every ward that matches a name as a glob without being recognised allows, or some ward
that is recognised is as strong. -/
def OverlookedWardsIdle (wards : List CitadelWard) (actions : List String) : Prop :=
  ∀ ward ∈ wards, ward.GlobSpeaks actions → ¬ward.matches actions = true →
    ward.effect = .allow ∨ ∃ other ∈ wards, other.matches actions = true ∧
      ward.effect.strength ≤ other.effect.strength

/-- The wards decide as their globs do exactly when the wards that are overlooked do not
matter; and wards are overlooked only for names with line breaks. -/
theorem wards_denyWins_iff_overlooked_idle (wards : List CitadelWard) (actions : List String) :
    (DenyWinsOverGlobs wards actions ↔ OverlookedWardsIdle wards actions) ∧
    ((∀ action ∈ actions, ∀ c ∈ action.toList, isLineTerminator c = false) →
      OverlookedWardsIdle wards actions) := by
  have hspeaks : ∀ ward ∈ wards, ward.matches actions = true → ward.GlobSpeaks actions :=
    fun _ _ => globSpeaks_of_matches
  have hiff := (strongest_evaluateWardsForActions wards actions).of_subset_iff hspeaks
  constructor
  · constructor
    · intro h
      exact hiff.mp h.strongest
    · intro hidle
      refine ⟨hiff.mpr hidle, evaluateWardsForActions_perm, fun ward action => ⟨?_, ?_⟩⟩
      · exact evaluateWardsForActions_mono (List.subset_cons_self ward wards)
          (List.Subset.refl actions)
      · exact evaluateWardsForActions_mono (List.Subset.refl wards)
          (List.subset_cons_self action actions)
  · intro hlines ward _ hglob hnot
    exact absurd (matches_of_globSpeaks hlines hglob) hnot

/-- A ward that denies everything does not deny a name with a line break. -/
theorem denied_action_with_line_break_allowed :
    ¬DenyWinsOverGlobs [⟨"no mail", "mail.*", .deny⟩] ["mail.send\nnow"] := by
  intro h
  have hallow : evaluateWardsForActions [⟨"no mail", "mail.*", .deny⟩] ["mail.send\nnow"] =
      .allow := by decide +kernel
  have hglob : CitadelWard.GlobSpeaks ["mail.send\nnow"] ⟨"no mail", "mail.*", .deny⟩ := by
    refine ⟨"mail.send\nnow", List.mem_singleton_self _, ?_⟩
    have hpattern : "mail.*".toList = ['m', 'a', 'i', 'l', '.', '*'] := rfl
    rw [hpattern]
    refine .letter (by decide) (.letter (by decide) (.letter (by decide)
      (.letter (by decide) (.letter (by decide) ?_))))
    exact Glob.star_of_skips fun _ _ => trivial
  have hbound := h.strongest.bound _ (List.mem_singleton_self _) hglob
  rw [hallow] at hbound
  exact absurd hbound (by decide)

end GoatCitadel.Policy
