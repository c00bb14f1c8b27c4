import Mathlib.Data.List.Basic
import Mathlib.Data.List.Infix

/-!
# Texts of parts between separators

A list of parts that do not hold the separator is written with one separator
between any two of them.  A pair of separators in a row can then only come from
an empty part, so that a text in which pairs separate larger pieces can be cut at
its pairs.
-/

namespace GoatCitadel.Support

section

variable {α : Type*} {sep : α} {parts : List (List α)}

theorem intercalate_append {front back : List (List α)} (hfront : front ≠ [])
    (hback : back ≠ []) :
    [sep].intercalate (front ++ back) =
      [sep].intercalate front ++ sep :: [sep].intercalate back := by
  induction front with
  | nil => exact absurd rfl hfront
  | cons part front ih =>
      rw [List.cons_append, List.intercalate_cons_of_ne_nil (by simp [hback])]
      cases front with
      | nil => simp
      | cons next front =>
          rw [ih (List.cons_ne_nil next front), List.intercalate_cons_cons]
          simp

theorem intercalate_cons {part : List α} (h : parts ≠ []) :
    [sep].intercalate (part :: parts) = part ++ sep :: [sep].intercalate parts := by
  rw [List.intercalate_cons_of_ne_nil h]
  simp

theorem mem_intercalate {a : α} (h : a ∈ [sep].intercalate parts) :
    a = sep ∨ ∃ part ∈ parts, a ∈ part := by
  induction parts with
  | nil => exact absurd h List.not_mem_nil
  | cons part parts ih =>
      cases parts with
      | nil =>
          rw [List.intercalate_singleton] at h
          exact .inr ⟨part, List.mem_cons_self, h⟩
      | cons next parts =>
          rw [List.intercalate_cons_cons, List.append_assoc, List.mem_append, List.mem_append,
            List.mem_singleton] at h
          rcases h with h | h | h
          · exact .inr ⟨part, List.mem_cons_self, h⟩
          · exact .inl h
          · rcases ih h with h | ⟨other, hother, h⟩
            · exact .inl h
            · exact .inr ⟨other, List.mem_cons_of_mem part hother, h⟩

/-- Texts without the separator end where the separator or nothing follows. -/
theorem append_cancel_of_not_mem {part part' rest rest' : List α} (hpart : sep ∉ part)
    (hpart' : sep ∉ part') (hrest : ∀ a tail, rest = a :: tail → a = sep)
    (hrest' : ∀ a tail, rest' = a :: tail → a = sep) (h : part ++ rest = part' ++ rest') :
    part = part' ∧ rest = rest' := by
  induction part generalizing part' with
  | nil =>
      cases part' with
      | nil => exact ⟨rfl, h⟩
      | cons b part' =>
          rw [hrest b _ h] at hpart'
          exact absurd List.mem_cons_self hpart'
  | cons a part ih =>
      cases part' with
      | nil =>
          rw [hrest' a _ h.symm] at hpart
          exact absurd List.mem_cons_self hpart
      | cons b part' =>
          obtain ⟨rfl, htail⟩ := List.cons.inj h
          obtain ⟨rfl, hsame⟩ := ih (fun hmem => hpart (List.mem_cons_of_mem _ hmem))
            (fun hmem => hpart' (List.mem_cons_of_mem _ hmem)) htail
          exact ⟨rfl, hsame⟩

/-- The parts can be read off the text. -/
theorem intercalate_injective {parts' : List (List α)} (hne : parts ≠ []) (hne' : parts' ≠ [])
    (hparts : ∀ part ∈ parts, sep ∉ part) (hparts' : ∀ part ∈ parts', sep ∉ part)
    (h : [sep].intercalate parts = [sep].intercalate parts') : parts = parts' := by
  induction parts generalizing parts' with
  | nil => exact absurd rfl hne
  | cons part parts ih =>
      obtain ⟨part', parts', rfl⟩ := List.exists_cons_of_ne_nil hne'
      obtain ⟨hpart, hrest⟩ := List.forall_mem_cons.mp hparts
      obtain ⟨hpart', hrest'⟩ := List.forall_mem_cons.mp hparts'
      have hcons : ∀ (first : List α) (others : List (List α)), ∃ tail,
          [sep].intercalate (first :: others) = first ++ tail ∧
            (∀ a rest, tail = a :: rest → a = sep) ∧ (tail = [] ↔ others = []) ∧
            (others ≠ [] → tail = sep :: [sep].intercalate others) := by
        intro first others
        by_cases hothers : others = []
        · refine ⟨[], ?_, ?_, ?_, fun hnot => absurd hothers hnot⟩
          · rw [hothers, List.intercalate_singleton, List.append_nil]
          · intro a rest heq
            cases heq
          · exact iff_of_true rfl hothers
        · refine ⟨sep :: [sep].intercalate others, intercalate_cons hothers, ?_, ?_, fun _ => rfl⟩
          · intro a rest heq
            exact (List.cons.inj heq).1.symm
          · exact iff_of_false (List.cons_ne_nil _ _) hothers
      obtain ⟨tail, htail, hsep, hnil, hsome⟩ := hcons part parts
      obtain ⟨tail', htail', hsep', hnil', hsome'⟩ := hcons part' parts'
      rw [htail, htail'] at h
      obtain ⟨rfl, rfl⟩ := append_cancel_of_not_mem hpart hpart' hsep hsep' h
      by_cases hend : parts = []
      · rw [hend, hnil'.mp (hnil.mpr hend)]
      · have hend' : parts' ≠ [] := fun hempty => hend (hnil.mp (hnil'.mpr hempty))
        have hsame := hsome hend
        rw [hsome' hend'] at hsame
        rw [ih hend hend' hrest hrest' (List.cons.inj hsame).2.symm]

theorem intercalate_ne_nil (hne : parts ≠ []) (hpart : ∀ part ∈ parts, part ≠ []) :
    [sep].intercalate parts ≠ [] := by
  obtain ⟨first, rest, rfl⟩ := List.exists_cons_of_ne_nil hne
  intro h
  have hfirst : first <+: [sep].intercalate (first :: rest) := by
    by_cases hrest : rest = []
    · rw [hrest, List.intercalate_singleton]
    · rw [intercalate_cons hrest]
      exact List.prefix_append first _
  rw [h, List.prefix_nil] at hfirst
  exact hpart first List.mem_cons_self hfirst

end

variable {α : Type*} [DecidableEq α] (sep : α)

/-- The pieces of a text between two separators in a row, read from the left. -/
def splitPair : List α → List (List α)
  | [] => [[]]
  | [a] => [[a]]
  | a :: b :: rest =>
      if a = sep ∧ b = sep then [] :: splitPair rest
      else (splitPair (b :: rest)).modifyHead (a :: ·)

variable {sep} {part text rest rest' : List α} {parts : List (List α)}

theorem splitPair_ne_nil (text : List α) : splitPair sep text ≠ [] := by
  induction text using splitPair.induct sep with
  | case1 => simp [splitPair]
  | case2 a => simp [splitPair]
  | case3 a b rest h _ => simp [splitPair, h]
  | case4 a b rest h ih => simpa [splitPair, h] using ih

/-- The pieces make up the text. -/
theorem intercalate_splitPair (text : List α) :
    [sep, sep].intercalate (splitPair sep text) = text := by
  induction text using splitPair.induct sep with
  | case1 => simp [splitPair]
  | case2 a => simp [splitPair]
  | case3 a b rest h ih =>
      rw [splitPair, if_pos h, List.intercalate_cons_of_ne_nil (splitPair_ne_nil rest), ih, h.1,
        h.2]
      rfl
  | case4 a b rest h ih =>
      rw [splitPair, if_neg h]
      cases hsplit : splitPair sep (b :: rest) with
      | nil => exact absurd hsplit (splitPair_ne_nil _)
      | cons piece pieces =>
          rw [hsplit] at ih
          rw [List.modifyHead_cons, List.intercalate_cons_cons_left, ih]

/-- A letter that does not start a pair belongs to the first piece. -/
theorem splitPair_cons {a : α} (h : a = sep → text.head? ≠ some sep) :
    splitPair sep (a :: text) = (splitPair sep text).modifyHead (a :: ·) := by
  cases text with
  | nil => simp [splitPair]
  | cons b rest =>
      rw [splitPair, if_neg]
      rintro ⟨ha, rfl⟩
      exact h ha rfl

/-- Letters other than the separator belong to the first piece. -/
theorem splitPair_append_of_not_mem (hpart : sep ∉ part) :
    splitPair sep (part ++ rest) = (splitPair sep rest).modifyHead (part ++ ·) := by
  induction part with
  | nil =>
      cases h : splitPair sep rest with
      | nil => exact absurd h (splitPair_ne_nil rest)
      | cons piece pieces => simp [h]
  | cons a part ih =>
      have ha : a ≠ sep := fun h => hpart (h ▸ List.mem_cons_self)
      have hpart' : sep ∉ part := fun h => hpart (List.mem_cons_of_mem a h)
      rw [List.cons_append, splitPair_cons fun h => absurd h ha, ih hpart',
        List.modifyHead_modifyHead]
      rfl

/-- The text of parts that are not empty has no pair in it. -/
theorem splitPair_intercalate_append (hparts : ∀ part ∈ parts, sep ∉ part ∧ part ≠ []) :
    splitPair sep ([sep].intercalate parts ++ rest) =
      (splitPair sep rest).modifyHead ([sep].intercalate parts ++ ·) := by
  induction parts with
  | nil => exact splitPair_append_of_not_mem List.not_mem_nil
  | cons part parts ih =>
      obtain ⟨hpart, hparts⟩ := List.forall_mem_cons.mp hparts
      cases parts with
      | nil =>
          rw [List.intercalate_singleton]
          exact splitPair_append_of_not_mem hpart.1
      | cons next parts =>
          obtain ⟨hnext, -⟩ := List.forall_mem_cons.mp hparts
          have hhead : ([sep].intercalate (next :: parts) ++ rest).head? ≠ some sep := by
            obtain ⟨a, next', rfl⟩ := List.exists_cons_of_ne_nil hnext.2
            intro h
            refine hnext.1 ?_
            cases parts with
            | nil => simp_all
            | cons other parts => simp_all
          rw [List.intercalate_cons_cons, List.append_assoc, List.append_assoc,
            splitPair_append_of_not_mem hpart.1, List.singleton_append,
            splitPair_cons fun _ => hhead, ih hparts, List.modifyHead_modifyHead,
            List.modifyHead_modifyHead]
          congr 1
          funext piece
          simp

theorem splitPair_intercalate (hparts : ∀ part ∈ parts, sep ∉ part ∧ part ≠ []) :
    splitPair sep ([sep].intercalate parts) = [[sep].intercalate parts] := by
  have hsplit := @splitPair_intercalate_append α _ sep [] parts hparts
  rw [List.append_nil] at hsplit
  rw [hsplit]
  simp [splitPair]

/-- A text is one piece exactly when it holds no pair. -/
theorem splitPair_eq_singleton_iff :
    (splitPair sep text).length = 1 ↔ ¬[sep, sep] <:+: text := by
  induction text using splitPair.induct sep with
  | case1 => simp [splitPair]
  | case2 a =>
      simp only [splitPair, List.length_singleton, true_iff]
      intro h
      have := h.length_le
      simp at this
  | case3 a b rest h _ =>
      obtain ⟨rfl, rfl⟩ := h
      have hinfix : [b, b] <:+: b :: b :: rest := ⟨[], rest, rfl⟩
      simp [splitPair, hinfix, splitPair_ne_nil]
  | case4 a b rest h ih =>
      rw [splitPair, if_neg h, List.length_modifyHead, ih]
      refine not_congr ⟨fun hin => List.infix_cons_iff.mpr (.inr hin), fun hin => ?_⟩
      refine (List.infix_cons_iff.mp hin).resolve_left fun hstart => ?_
      rw [List.cons_prefix_cons, List.cons_prefix_cons] at hstart
      exact h ⟨hstart.1.symm, hstart.2.1.symm⟩

theorem not_pair_infix_intercalate (hparts : ∀ part ∈ parts, sep ∉ part ∧ part ≠ []) :
    ¬[sep, sep] <:+: [sep].intercalate parts := by
  refine splitPair_eq_singleton_iff.mp ?_
  rw [splitPair_intercalate hparts]
  rfl

/-- A text is cut at its first separator in one way. -/
theorem eq_of_append_sep_eq (hpart : sep ∉ part) {part' : List α} (hpart' : sep ∉ part')
    (h : part ++ sep :: rest = part' ++ sep :: rest') : part = part' ∧ rest = rest' := by
  have hleft := List.splitOn_append_cons_self_of_not_mem hpart rest
  have hright := List.splitOn_append_cons_self_of_not_mem hpart' rest'
  have hsame : part = part' := by
    rw [h, hright] at hleft
    exact (List.cons.inj hleft).1.symm
  subst hsame
  exact ⟨rfl, (List.cons.inj (List.append_cancel_left h)).2⟩

/-- A part of a text holds no separator, and nothing that the text does not hold. -/
theorem mem_of_mem_splitOn {a : α} (h : part ∈ text.splitOn sep)
    (ha : a ∈ part) : a ∈ text ∧ a ≠ sep := by
  induction text generalizing part with
  | nil =>
      rw [List.splitOn_nil, List.mem_singleton] at h
      rw [h] at ha
      cases ha
  | cons first text ih =>
      rw [List.splitOn_cons_eq_if_modifyHead] at h
      split at h
      · obtain rfl | h := List.mem_cons.mp h
        · cases ha
        · obtain ⟨hmem, hne⟩ := ih h ha
          exact ⟨List.mem_cons_of_mem first hmem, hne⟩
      · rename_i hfirst
        obtain ⟨head, tail, hsplit⟩ := List.exists_cons_of_ne_nil (List.splitOn_ne_nil sep text)
        rw [hsplit, List.modifyHead_cons] at h
        rw [hsplit] at ih
        obtain rfl | h := List.mem_cons.mp h
        · obtain rfl | ha := List.mem_cons.mp ha
          · exact ⟨List.mem_cons_self, fun hsep => hfirst (beq_iff_eq.mpr hsep)⟩
          · obtain ⟨hmem, hne⟩ := ih List.mem_cons_self ha
            exact ⟨List.mem_cons_of_mem first hmem, hne⟩
        · obtain ⟨hmem, hne⟩ := ih (List.mem_cons_of_mem head h) ha
          exact ⟨List.mem_cons_of_mem first hmem, hne⟩

/-- Parts that begin a list of parts are a beginning of its text that ends where a part
ends. -/
theorem prefix_iff_intercalate {parts' : List (List α)} (hne : parts ≠ [])
    (hpart : ∀ part ∈ parts, part ≠ [])
    (hsep : ∀ part ∈ parts, sep ∉ part) (hsep' : ∀ part ∈ parts', sep ∉ part) :
    parts <+: parts' ↔
      [sep].intercalate parts' = [sep].intercalate parts ∨
        [sep].intercalate parts ++ [sep] <+: [sep].intercalate parts' := by
  have hsplit : ([sep].intercalate parts).splitOn sep = parts :=
    List.splitOn_intercalate sep hsep hne
  constructor
  · rintro ⟨more, rfl⟩
    by_cases hmore : more = []
    · rw [hmore, List.append_nil]
      exact .inl rfl
    · right
      rw [intercalate_append hne hmore]
      exact ⟨[sep].intercalate more, by simp⟩
  · intro h
    by_cases hnil : parts' = []
    · subst hnil
      have htext : [sep].intercalate parts ≠ [] := intercalate_ne_nil hne hpart
      simp [htext.symm] at h
    · have hsplit' : ([sep].intercalate parts').splitOn sep = parts' :=
        List.splitOn_intercalate sep hsep' hnil
      rcases h with h | ⟨rest, hrest⟩
      · rw [h, hsplit] at hsplit'
        exact ⟨[], by rw [List.append_nil, hsplit']⟩
      · rw [List.append_assoc, List.singleton_append] at hrest
        rw [← hrest, List.splitOn_append_cons_self, hsplit] at hsplit'
        exact ⟨rest.splitOn sep, hsplit'⟩

end GoatCitadel.Support
