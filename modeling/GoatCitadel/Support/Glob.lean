import Mathlib.Data.List.Basic

/-!
# Patterns with stars

A pattern is a word in which the letter `star` stands for any word of letters
that a star may skip, and every other letter stands for itself.  A pattern is a
word too, and a pattern that matches another one as a word dominates it: what
the second matches, the first matches as well, when its stars may skip
everything.
-/

namespace GoatCitadel.Support

variable {α : Type*} {star : α} {skips skips' : α → Prop}
  {pattern pattern' text : List α}

/-- The words that a pattern matches, when a star may skip the letters of
`skips`. -/
inductive Glob (star : α) (skips : α → Prop) : List α → List α → Prop
  | nil : Glob star skips [] []
  | letter {c : α} {pattern text : List α} : c ≠ star →
      Glob star skips pattern text → Glob star skips (c :: pattern) (c :: text)
  | gap {pattern text : List α} (skipped : List α) : (∀ c ∈ skipped, skips c) →
      Glob star skips pattern text →
      Glob star skips (star :: pattern) (skipped ++ text)

namespace Glob

theorem mono (hskips : ∀ c, skips c → skips' c) (h : Glob star skips pattern text) :
    Glob star skips' pattern text := by
  induction h with
  | nil => exact .nil
  | letter hletter _ ih => exact .letter hletter ih
  | gap skipped hskipped _ ih =>
      exact .gap skipped (fun c hc => hskips c (hskipped c hc)) ih

/-- Only letters of the word are skipped. -/
theorem of_text (hskips : ∀ c ∈ text, skips' c) (h : Glob star skips pattern text) :
    Glob star skips' pattern text := by
  induction h with
  | nil => exact .nil
  | letter hletter _ ih =>
      exact .letter hletter (ih fun c hc => hskips c (List.mem_cons_of_mem _ hc))
  | gap skipped _ _ ih =>
      refine .gap skipped (fun c hc => hskips c (List.mem_append_left _ hc)) ?_
      exact ih fun c hc => hskips c (List.mem_append_right _ hc)

/-- The pattern of one star matches every word that a star may skip. -/
theorem star_of_skips (h : ∀ c ∈ text, skips c) : Glob star skips [star] text := by
  have hgap := Glob.gap text h (@Glob.nil α star skips)
  rwa [List.append_nil] at hgap

/-- A word without a star matches itself. -/
theorem self_of_not_mem (h : star ∉ text) : Glob star skips text text := by
  induction text with
  | nil => exact .nil
  | cons c text ih =>
      refine .letter ?_ (ih fun hmem => h (List.mem_cons_of_mem c hmem))
      rintro rfl
      exact h List.mem_cons_self

/-- As a word, a pattern matches itself: each star stands for one. -/
theorem refl (text : List α) : Glob star (fun _ => True) text text := by
  induction text with
  | nil => exact .nil
  | cons c text ih =>
      by_cases hstar : c = star
      · rw [hstar]
        exact .gap [star] (fun _ _ => trivial) ih
      · exact .letter hstar ih

/-- A pattern without a star matches only itself. -/
theorem eq_of_not_mem (hstar : star ∉ pattern) (h : Glob star skips pattern text) :
    text = pattern := by
  induction h with
  | nil => rfl
  | letter _ _ ih => rw [ih fun hmem => hstar (List.mem_cons_of_mem _ hmem)]
  | gap _ _ _ _ => exact absurd List.mem_cons_self hstar

/-- A match of two patterns in a row cuts the word in two. -/
theorem split (h : Glob star skips (pattern ++ pattern') text) :
    ∃ front back, text = front ++ back ∧ Glob star skips pattern front ∧
      Glob star skips pattern' back := by
  induction pattern generalizing text with
  | nil => exact ⟨[], text, rfl, .nil, h⟩
  | cons c pattern ih =>
      rw [List.cons_append] at h
      cases h with
      | letter hletter hrest =>
          obtain ⟨front, back, rfl, hfront, hback⟩ := ih hrest
          exact ⟨c :: front, back, rfl, .letter hletter hfront, hback⟩
      | gap skipped hskipped hrest =>
          obtain ⟨front, back, rfl, hfront, hback⟩ := ih hrest
          exact ⟨skipped ++ front, back, (List.append_assoc _ _ _).symm,
            .gap skipped hskipped hfront, hback⟩

/-- A pattern that matches another one as a word dominates it. -/
theorem trans (h : Glob star (fun _ => True) pattern pattern')
    (h' : Glob star (fun _ => True) pattern' text) :
    Glob star (fun _ => True) pattern text := by
  induction h generalizing text with
  | nil => exact h'
  | letter hletter _ ih =>
      cases h' with
      | letter _ hrest => exact .letter hletter (ih hrest)
      | gap _ _ _ => exact absurd rfl hletter
  | gap skipped _ _ ih =>
      -- Whatever the skipped letters of the second pattern match, the star of
      -- the first one skips.
      obtain ⟨front, back, rfl, -, hback⟩ := h'.split
      exact .gap front (fun _ _ => trivial) (ih hback)

/-- A star in front of a pattern skips a beginning of the word. -/
theorem star_cons_iff (hskips : ∀ c, skips c) :
    Glob star skips (star :: pattern) text ↔
      ∃ skipped rest, text = skipped ++ rest ∧ Glob star skips pattern rest := by
  constructor
  · intro h
    cases h with
    | letter hletter _ => exact absurd rfl hletter
    | gap skipped _ hrest => exact ⟨skipped, _, rfl, hrest⟩
  · rintro ⟨skipped, rest, rfl, hrest⟩
    exact .gap skipped (fun c _ => hskips c) hrest

/-- A part of a pattern without a star is a beginning of the word. -/
theorem append_of_not_mem_iff (hstar : star ∉ pattern) :
    Glob star skips (pattern ++ pattern') text ↔
      ∃ rest, text = pattern ++ rest ∧ Glob star skips pattern' rest := by
  constructor
  · intro h
    obtain ⟨front, back, rfl, hfront, hback⟩ := h.split
    exact ⟨back, by rw [eq_of_not_mem hstar hfront], hback⟩
  · rintro ⟨rest, rfl, hrest⟩
    induction pattern with
    | nil => exact hrest
    | cons c pattern ih =>
        refine .letter ?_ (ih fun hmem => hstar (List.mem_cons_of_mem c hmem))
        rintro rfl
        exact hstar List.mem_cons_self

/-- A pattern that starts with a star matches what ends in a word that it matches. -/
theorem of_suffix (hskips : ∀ c, skips c) {rest : List α} (hsuffix : rest <:+ text)
    (h : Glob star skips (star :: pattern) rest) :
    Glob star skips (star :: pattern) text := by
  obtain ⟨front, rfl⟩ := hsuffix
  obtain ⟨skipped, tail, rfl, htail⟩ := (star_cons_iff hskips).mp h
  exact (star_cons_iff hskips).mpr ⟨front ++ skipped, tail, by rw [List.append_assoc], htail⟩

end Glob

end GoatCitadel.Support
