import GoatCitadel.Support.Glob
import GoatCitadel.Support.Words
import Mathlib.Data.List.Forall2

/-!
# Letters that are repeated

Inside quotes a quote is written twice.  A pattern without the quote finds in the longer text what
it finds in the shorter one: only its stars come across quotes.
-/

namespace GoatCitadel.Support

variable {α β : Type*} {mark : α} {blank : α → Bool}
  {text text' front back current current' : List α}

/-- The second word is the first one with some of its marks written twice. -/
inductive Repeats (mark : α) : List α → List α → Prop
  | nil : Repeats mark [] []
  | letter (c : α) {text text' : List α} : Repeats mark text text' →
      Repeats mark (c :: text) (c :: text')
  | twice {text text' : List α} : Repeats mark text text' →
      Repeats mark (mark :: text) (mark :: mark :: text')

namespace Repeats

theorem refl (text : List α) : Repeats mark text text := by
  induction text with
  | nil => exact .nil
  | cons c text ih => exact .letter c ih

theorem append {back' : List α} (h : Repeats mark text text') (hback : Repeats mark back back') :
    Repeats mark (text ++ back) (text' ++ back') := by
  induction h with
  | nil => exact hback
  | letter c _ ih => exact .letter c ih
  | twice _ ih => exact .twice ih

/-- The parts of the first word are found in the second. -/
theorem split (h : Repeats mark (front ++ back) text') :
    ∃ front' back', text' = front' ++ back' ∧ Repeats mark front front' ∧
      Repeats mark back back' := by
  induction front generalizing text' with
  | nil => exact ⟨[], text', rfl, .nil, h⟩
  | cons c front ih =>
      rw [List.cons_append] at h
      cases h with
      | letter _ hrest =>
          obtain ⟨front', back', rfl, hfront, hback⟩ := ih hrest
          exact ⟨c :: front', back', rfl, .letter c hfront, hback⟩
      | twice hrest =>
          obtain ⟨front', back', rfl, hfront, hback⟩ := ih hrest
          exact ⟨_ :: _ :: front', back', rfl, .twice hfront, hback⟩

theorem head?_eq (h : Repeats mark text text') : text'.head? = text.head? := by
  cases h with
  | nil => rfl
  | letter c _ => rfl
  | twice _ => rfl

theorem getLast?_eq (h : Repeats mark text text') : text'.getLast? = text.getLast? := by
  induction h with
  | nil => rfl
  | letter c _ ih => rw [List.getLast?_cons, List.getLast?_cons, ih]
  | twice _ ih =>
      rw [List.getLast?_cons, List.getLast?_cons, List.getLast?_cons, ih, Option.getD_some]

theorem map (f : α → β) (h : Repeats mark text text') :
    Repeats (f mark) (text.map f) (text'.map f) := by
  induction h with
  | nil => exact .nil
  | letter c _ ih => exact .letter (f c) ih
  | twice _ ih => exact .twice ih

/-- A pattern without the mark still matches. -/
theorem glob {star : α} {pattern : List α} (h : Repeats mark text text') (hmark : mark ∉ pattern)
    (hglob : Glob star (fun _ => True) pattern text) :
    Glob star (fun _ => True) pattern text' := by
  induction hglob generalizing text' with
  | nil =>
      cases h
      exact .nil
  | letter hletter _ ih =>
      obtain ⟨hc, hpattern⟩ := List.ne_and_not_mem_of_not_mem_cons hmark
      cases h with
      | letter _ hrest => exact .letter hletter (ih hrest hpattern)
      | twice _ => exact absurd rfl hc
  | gap skipped _ _ ih =>
      obtain ⟨front, back, rfl, -, hback⟩ := h.split
      exact .gap front (fun _ _ => trivial) (ih hback (List.not_mem_of_not_mem_cons hmark))

theorem closeWord (h : Repeats mark current current') :
    List.Forall₂ (Repeats mark) (closeWord current) (closeWord current') := by
  cases h with
  | nil => exact .nil
  | letter c hrest => exact .cons (.letter c hrest) .nil
  | twice hrest => exact .cons (.twice hrest) .nil

/-- A mark that is no blank is repeated inside the words. -/
theorem wordsAfter (hmark : blank mark = false) (hcurrent : Repeats mark current current')
    (h : Repeats mark text text') :
    List.Forall₂ (Repeats mark) (wordsAfter blank current text)
      (wordsAfter blank current' text') := by
  induction h generalizing current current' with
  | nil => exact hcurrent.closeWord
  | letter c _ ih =>
      by_cases hc : blank c = true
      · rw [wordsAfter_cons_of_blank hc, wordsAfter_cons_of_blank hc]
        exact List.rel_append hcurrent.closeWord (ih .nil)
      · have hletter := Bool.eq_false_iff.mpr hc
        rw [wordsAfter_cons_of_letter hletter, wordsAfter_cons_of_letter hletter]
        exact ih (hcurrent.append (.letter c .nil))
  | twice _ ih =>
      rw [wordsAfter_cons_of_letter hmark, wordsAfter_cons_of_letter hmark,
        wordsAfter_cons_of_letter hmark, List.append_assoc]
      exact ih (hcurrent.append (.twice .nil))

theorem intercalate {words words' : List (List α)} (between : List α)
    (h : List.Forall₂ (Repeats mark) words words') :
    Repeats mark (between.intercalate words) (between.intercalate words') := by
  induction h with
  | nil => exact .nil
  | @cons word word' words words' hword hwords ih =>
      by_cases hnil : words = []
      · obtain rfl := hnil
        cases hwords
        rwa [List.intercalate_singleton, List.intercalate_singleton]
      · have hnil' : words' ≠ [] := by
          rintro rfl
          cases hwords
          exact hnil rfl
        rw [List.intercalate_cons_of_ne_nil hnil, List.intercalate_cons_of_ne_nil hnil']
        exact (hword.append (refl between)).append ih

end Repeats

end GoatCitadel.Support
