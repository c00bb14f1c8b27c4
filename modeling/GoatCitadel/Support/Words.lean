import Mathlib.Data.List.DropRight

/-!
# Words of a text

The words of a text are its longest parts without a blank.  A text that joins words by one blank
has these words again, and it is no longer than any other text that has them.
-/

namespace GoatCitadel.Support

variable {α : Type*} {blank : α → Bool} {current word text front : List α}
  {words : List (List α)}

/-- A word that is being read, when it comes to its end. -/
def closeWord (current : List α) : List (List α) :=
  if current.isEmpty = true then [] else [current]

/-- The words of a text, when the letters of `current` came right before it. -/
def wordsAfter (blank : α → Bool) (current : List α) : List α → List (List α)
  | [] => closeWord current
  | c :: text =>
      if blank c = true then closeWord current ++ wordsAfter blank [] text
      else wordsAfter blank (current ++ [c]) text

def wordsOf (blank : α → Bool) (text : List α) : List (List α) :=
  wordsAfter blank [] text

/-- A word has letters, and none of them is a blank. -/
def IsWord (blank : α → Bool) (word : List α) : Prop :=
  word ≠ [] ∧ ∀ c ∈ word, blank c = false

theorem closeWord_nil : closeWord ([] : List α) = [] :=
  rfl

theorem closeWord_of_ne_nil (h : current ≠ []) : closeWord current = [current] := by
  rw [closeWord, if_neg]
  rwa [List.isEmpty_iff]

theorem wordsAfter_cons_of_blank {c : α} (h : blank c = true) :
    wordsAfter blank current (c :: text) = closeWord current ++ wordsOf blank text := by
  rw [wordsAfter, if_pos h, wordsOf]

theorem wordsAfter_cons_of_letter {c : α} (h : blank c = false) :
    wordsAfter blank current (c :: text) = wordsAfter blank (current ++ [c]) text := by
  rw [wordsAfter, if_neg]
  exact Bool.eq_false_iff.mp h

/-- Letters go on with the word that is being read. -/
theorem wordsAfter_append (h : ∀ c ∈ word, blank c = false) :
    wordsAfter blank current (word ++ text) = wordsAfter blank (current ++ word) text := by
  induction word generalizing current with
  | nil => rw [List.nil_append, List.append_nil]
  | cons c word ih =>
      obtain ⟨hc, hword⟩ := List.forall_mem_cons.mp h
      rw [List.cons_append, wordsAfter_cons_of_letter hc, ih hword, List.append_assoc]
      rfl

/-- Blanks at the beginning of a text are not part of a word. -/
theorem wordsOf_dropWhile : wordsOf blank (text.dropWhile blank) = wordsOf blank text := by
  induction text with
  | nil => rfl
  | cons c text ih =>
      by_cases hc : blank c = true
      · rw [List.dropWhile_cons_of_pos hc, ih, wordsOf, wordsOf, wordsAfter_cons_of_blank hc,
          closeWord_nil, List.nil_append, wordsOf]
      · rw [List.dropWhile_cons_of_neg hc]

theorem wordsAfter_blanks (h : ∀ c ∈ text, blank c = true) :
    wordsAfter blank current text = closeWord current := by
  induction text generalizing current with
  | nil => rfl
  | cons c text ih =>
      obtain ⟨hc, htext⟩ := List.forall_mem_cons.mp h
      rw [wordsAfter_cons_of_blank hc, wordsOf, ih htext, closeWord_nil, List.append_nil]

theorem wordsAfter_append_blanks {blanks : List α} (h : ∀ c ∈ blanks, blank c = true) :
    wordsAfter blank current (text ++ blanks) = wordsAfter blank current text := by
  induction text generalizing current with
  | nil => exact wordsAfter_blanks h
  | cons c text ih =>
      rw [List.cons_append]
      by_cases hc : blank c = true
      · rw [wordsAfter_cons_of_blank hc, wordsAfter_cons_of_blank hc, wordsOf, wordsOf, ih]
      · rw [wordsAfter_cons_of_letter (Bool.eq_false_iff.mpr hc),
          wordsAfter_cons_of_letter (Bool.eq_false_iff.mpr hc), ih]

/-- Nor are blanks at its end. -/
theorem wordsOf_rdropWhile : wordsOf blank (text.rdropWhile blank) = wordsOf blank text := by
  have hblanks : ∀ c ∈ text.rtakeWhile blank, blank c = true :=
    fun c hc => List.mem_rtakeWhile_imp hc
  calc wordsOf blank (text.rdropWhile blank)
      = wordsOf blank (text.rdropWhile blank ++ text.rtakeWhile blank) :=
        (wordsAfter_append_blanks hblanks).symm
    _ = wordsOf blank text := by rw [List.rdropWhile_append_rtakeWhile]

/-- Only blanks have no words. -/
theorem blank_of_wordsAfter_eq_nil (h : wordsAfter blank current text = []) :
    current = [] ∧ ∀ c ∈ text, blank c = true := by
  have hclosed : ∀ {current : List α}, closeWord current = [] → current = [] := by
    intro current hnil
    by_contra hne
    rw [closeWord_of_ne_nil hne] at hnil
    cases hnil
  induction text generalizing current with
  | nil => exact ⟨hclosed h, List.forall_mem_nil _⟩
  | cons c text ih =>
      by_cases hc : blank c = true
      · rw [wordsAfter_cons_of_blank hc] at h
        obtain ⟨hcurrent, htext⟩ := List.append_eq_nil_iff.mp h
        exact ⟨hclosed hcurrent, List.forall_mem_cons.mpr ⟨hc, (ih htext).2⟩⟩
      · rw [wordsAfter_cons_of_letter (Bool.eq_false_iff.mpr hc)] at h
        exact absurd (ih h).1 (List.append_ne_nil_of_right_ne_nil _ (List.cons_ne_nil _ _))

theorem isWord_of_mem_closeWord (hcurrent : ∀ c ∈ current, blank c = false)
    (h : word ∈ closeWord current) : IsWord blank word := by
  by_cases hnil : current = []
  · rw [hnil, closeWord_nil] at h
    cases h
  · rw [closeWord_of_ne_nil hnil, List.mem_singleton] at h
    rw [h]
    exact ⟨hnil, hcurrent⟩

theorem isWord_of_mem_wordsAfter (hcurrent : ∀ c ∈ current, blank c = false)
    (h : word ∈ wordsAfter blank current text) : IsWord blank word := by
  induction text generalizing current with
  | nil => exact isWord_of_mem_closeWord hcurrent h
  | cons c text ih =>
      by_cases hc : blank c = true
      · rw [wordsAfter_cons_of_blank hc, List.mem_append] at h
        rcases h with h | h
        · exact isWord_of_mem_closeWord hcurrent h
        · exact ih (List.forall_mem_nil _) h
      · have hletter := Bool.eq_false_iff.mpr hc
        rw [wordsAfter_cons_of_letter hletter] at h
        refine ih ?_ h
        rw [List.forall_mem_append]
        exact ⟨hcurrent, List.forall_mem_singleton.mpr hletter⟩

/-- The words of a text are words. -/
theorem isWord_of_mem_wordsOf (h : word ∈ wordsOf blank text) : IsWord blank word :=
  isWord_of_mem_wordsAfter (List.forall_mem_nil _) h

theorem mem_of_mem_closeWord {c : α} (hword : word ∈ closeWord current) (hc : c ∈ word) :
    c ∈ current := by
  by_cases hnil : current = []
  · rw [hnil, closeWord_nil] at hword
    cases hword
  · rw [closeWord_of_ne_nil hnil, List.mem_singleton] at hword
    rwa [← hword]

theorem mem_of_mem_wordsAfter {c : α} (hword : word ∈ wordsAfter blank current text)
    (hc : c ∈ word) : c ∈ current ++ text := by
  induction text generalizing current with
  | nil => exact List.mem_append_left _ (mem_of_mem_closeWord hword hc)
  | cons d text ih =>
      by_cases hd : blank d = true
      · rw [wordsAfter_cons_of_blank hd, List.mem_append] at hword
        rcases hword with hword | hword
        · exact List.mem_append_left _ (mem_of_mem_closeWord hword hc)
        · exact List.mem_append_right _ (List.mem_cons_of_mem _ (ih hword))
      · rw [wordsAfter_cons_of_letter (Bool.eq_false_iff.mpr hd)] at hword
        have hmem := ih hword
        rwa [List.append_assoc] at hmem

/-- The letters of the words are letters of the text. -/
theorem mem_of_mem_wordsOf {c : α} (hword : word ∈ wordsOf blank text) (hc : c ∈ word) :
    c ∈ text :=
  mem_of_mem_wordsAfter hword hc

/-- Words that are joined by one blank come out again. -/
theorem wordsOf_intercalate {b : α} (hb : blank b = true)
    (h : ∀ word ∈ words, IsWord blank word) :
    wordsOf blank ([b].intercalate words) = words := by
  induction words with
  | nil => rfl
  | cons word words ih =>
      obtain ⟨⟨hne, hletters⟩, hwords⟩ := List.forall_mem_cons.mp h
      by_cases hmore : words = []
      · rw [hmore, List.intercalate_singleton, wordsOf, ← List.append_nil word,
          wordsAfter_append hletters, List.nil_append, List.append_nil]
        exact closeWord_of_ne_nil hne
      · rw [List.intercalate_cons_of_ne_nil hmore, List.append_assoc, wordsOf,
          wordsAfter_append hletters, List.nil_append, List.singleton_append,
          wordsAfter_cons_of_blank hb, closeWord_of_ne_nil hne, ih hwords]
        rfl

/-- Joining the words of a text does not make it longer. -/
theorem length_intercalate_wordsAfter_le (b : α) :
    ([b].intercalate (wordsAfter blank current text)).length ≤
      current.length + text.length := by
  induction text generalizing current with
  | nil =>
      by_cases hnil : current = []
      · rw [hnil]
        exact Nat.le_refl 0
      · rw [wordsAfter, closeWord_of_ne_nil hnil, List.intercalate_singleton]
        exact Nat.le_refl _
  | cons c text ih =>
      rw [List.length_cons]
      by_cases hc : blank c = true
      · rw [wordsAfter_cons_of_blank hc]
        have hrest := @ih []
        rw [List.length_nil, ← wordsOf] at hrest
        by_cases hnil : current = []
        · rw [hnil, closeWord_nil, List.nil_append]
          omega
        · rw [closeWord_of_ne_nil hnil, List.singleton_append]
          by_cases hmore : wordsOf blank text = []
          · rw [hmore, List.intercalate_singleton]
            omega
          · rw [List.intercalate_cons_of_ne_nil hmore, List.length_append, List.length_append,
              List.length_singleton]
            omega
      · rw [wordsAfter_cons_of_letter (Bool.eq_false_iff.mpr hc)]
        have hrest := @ih (current ++ [c])
        rw [List.length_append, List.length_singleton] at hrest
        omega

theorem length_intercalate_wordsOf_le (b : α) :
    ([b].intercalate (wordsOf blank text)).length ≤ text.length := by
  have h := @length_intercalate_wordsAfter_le α blank [] text b
  rwa [List.length_nil, Nat.zero_add] at h

/-- The first word goes on to the first blank. -/
theorem head?_wordsAfter (h : current ≠ []) :
    (wordsAfter blank current text).head? =
      some (current ++ text.takeWhile fun d => !blank d) := by
  induction text generalizing current with
  | nil =>
      rw [wordsAfter, closeWord_of_ne_nil h, List.takeWhile_nil, List.append_nil]
      rfl
  | cons d text ih =>
      by_cases hd : blank d = true
      · rw [wordsAfter_cons_of_blank hd, closeWord_of_ne_nil h, List.takeWhile_cons_of_neg,
          List.append_nil]
        · rfl
        · rw [hd]
          decide
      · have hletter := Bool.eq_false_iff.mpr hd
        have hne : current ++ [d] ≠ [] :=
          List.append_ne_nil_of_right_ne_nil _ (List.cons_ne_nil _ _)
        rw [wordsAfter_cons_of_letter hletter, ih hne, List.takeWhile_cons_of_pos,
          List.append_assoc]
        · rfl
        · rw [hletter]
          rfl

theorem head?_wordsOf {c : α} (hc : blank c = false) :
    (wordsOf blank (c :: text)).head? =
      some (c :: text.takeWhile fun d => !blank d) := by
  have hne : [] ++ [c] ≠ [] := List.cons_ne_nil _ _
  rw [wordsOf, wordsAfter_cons_of_letter hc, head?_wordsAfter hne]
  rfl

end GoatCitadel.Support
