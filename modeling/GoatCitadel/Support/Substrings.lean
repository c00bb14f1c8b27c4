import Mathlib.Data.List.Infix

/-!
# Occurrences of a text in a text

`splitAtFirst` finds the first occurrence.  A piece of text that is inserted between
two others completes an occurrence when one overlaps it; otherwise every occurrence in
the whole lies before it or behind it.

`replaceOnce` puts a piece in the place of the first occurrence.  While no piece
completes an occurrence, what is behind the first one gets shorter with every turn, so
the replacement comes to an end.
-/

namespace GoatCitadel.Support

variable {α : Type}

/-! ## The first occurrence -/

/-- What comes before the first occurrence and what comes after it. -/
def splitAtFirst [DecidableEq α] (needle : List α) : List α → Option (List α × List α)
  | [] => if needle = [] then some ([], []) else none
  | first :: rest =>
      if needle.isPrefixOf (first :: rest) then some ([], (first :: rest).drop needle.length)
      else (splitAtFirst needle rest).map fun found => (first :: found.1, found.2)

/-- An occurrence, by what is before it and behind it. -/
def OccursAt (needle text before after : List α) : Prop :=
  text = before ++ (needle ++ after)

theorem OccursAt.infix {needle text before after : List α}
    (h : OccursAt needle text before after) : needle <:+: text :=
  ⟨before, after, by rw [h, List.append_assoc]⟩

theorem exists_occursAt {needle text : List α} (h : needle <:+: text) :
    ∃ before after, OccursAt needle text before after := by
  obtain ⟨before, after, htext⟩ := h
  exact ⟨before, after, by rw [OccursAt, ← htext, List.append_assoc]⟩

section FirstOccurrence

variable [DecidableEq α] {needle text before after : List α}

/-- What is found occurs, and no occurrence begins earlier. -/
theorem splitAtFirst_eq_some (h : splitAtFirst needle text = some (before, after)) :
    OccursAt needle text before after ∧
      ∀ before' after', OccursAt needle text before' after' →
        before.length ≤ before'.length := by
  induction text generalizing before after with
  | nil =>
      rw [splitAtFirst] at h
      by_cases hnil : needle = []
      · rw [if_pos hnil] at h
        obtain ⟨rfl, rfl⟩ := Prod.mk.inj (Option.some.inj h)
        exact ⟨by rw [OccursAt, hnil]; rfl, fun _ _ _ => Nat.zero_le _⟩
      · rw [if_neg hnil] at h
        exact nomatch h
  | cons first rest ih =>
      rw [splitAtFirst] at h
      by_cases hfront : needle.isPrefixOf (first :: rest) = true
      · rw [if_pos hfront] at h
        obtain ⟨rfl, rfl⟩ := Prod.mk.inj (Option.some.inj h)
        refine ⟨?_, fun _ _ _ => Nat.zero_le _⟩
        obtain ⟨tail, htail⟩ := List.isPrefixOf_iff_prefix.mp hfront
        rw [OccursAt, ← htail, List.drop_left]
        rfl
      · rw [if_neg hfront] at h
        obtain ⟨⟨front, tail⟩, hfound, hpair⟩ := Option.map_eq_some_iff.mp h
        obtain ⟨rfl, rfl⟩ := Prod.mk.inj hpair
        obtain ⟨hoccurs, hleast⟩ := ih hfound
        refine ⟨by rw [OccursAt, hoccurs]; rfl, ?_⟩
        intro before' after' hother
        cases before' with
        | nil =>
            exact absurd (List.isPrefixOf_iff_prefix.mpr ⟨after', hother.symm⟩) hfront
        | cons first' front' =>
            have hrest := (List.cons.inj hother).2
            exact Nat.succ_le_succ (hleast front' after' hrest)

/-- Nothing is found exactly in a text without an occurrence. -/
theorem splitAtFirst_eq_none_iff :
    splitAtFirst needle text = none ↔ ¬ needle <:+: text := by
  induction text with
  | nil =>
      rw [splitAtFirst, List.infix_nil]
      by_cases hnil : needle = []
      · simp [hnil]
      · simp [hnil]
  | cons first rest ih =>
      rw [splitAtFirst, List.infix_cons_iff]
      by_cases hfront : needle.isPrefixOf (first :: rest) = true
      · rw [if_pos hfront]
        have hfound := List.isPrefixOf_iff_prefix.mp hfront
        simp [hfound]
      · rw [if_neg hfront, Option.map_eq_none_iff, ih]
        have hnot : ¬ needle <+: first :: rest := fun h =>
          hfront (List.isPrefixOf_iff_prefix.mpr h)
        simp [hnot]

end FirstOccurrence

/-! ## Inserted pieces -/

/-- Some occurrence in `before ++ piece ++ after` overlaps the piece. -/
def Touches (needle before piece after : List α) : Prop :=
  ∃ left right, OccursAt needle (before ++ (piece ++ after)) left right ∧
    before.length < left.length + needle.length ∧
    left.length < before.length + piece.length

section Inserted

variable {needle before piece after left right : List α}

/-- An occurrence that ends where the piece begins is in what comes before. -/
theorem OccursAt.before_piece (h : OccursAt needle (before ++ (piece ++ after)) left right)
    (hends : left.length + needle.length ≤ before.length) : needle <:+: before := by
  have hwhole : left ++ needle <+: before ++ (piece ++ after) :=
    ⟨right, by rw [h, List.append_assoc]⟩
  obtain ⟨rest, hrest⟩ := List.prefix_of_prefix_length_le hwhole (List.prefix_append _ _)
    (by rw [List.length_append]; exact hends)
  exact ⟨left, rest, hrest⟩

/-- An occurrence that begins where the piece ends is in what comes after. -/
theorem OccursAt.after_piece (h : OccursAt needle (before ++ (piece ++ after)) left right)
    (hbegins : before.length + piece.length ≤ left.length) :
    ∃ front, OccursAt needle after front right ∧ left = before ++ (piece ++ front) := by
  have hwhole : before ++ piece <+: left ++ (needle ++ right) := by
    refine ⟨after, ?_⟩
    rw [List.append_assoc]
    exact h
  obtain ⟨front, hfront⟩ := List.prefix_of_prefix_length_le hwhole (List.prefix_append _ _)
    (by rw [List.length_append]; exact hbegins)
  rw [List.append_assoc] at hfront
  refine ⟨front, ?_, hfront.symm⟩
  rw [OccursAt, ← hfront, List.append_assoc, List.append_assoc] at h
  exact List.append_cancel_left (List.append_cancel_left h)

/-- An occurrence that neither begins before the piece nor ends behind it is in the
piece. -/
theorem OccursAt.within_piece (h : OccursAt needle (before ++ (piece ++ after)) left right)
    (hbegins : before.length ≤ left.length)
    (hends : left.length + needle.length ≤ before.length + piece.length) :
    needle <:+: piece := by
  have hwhole : before <+: left ++ (needle ++ right) := ⟨piece ++ after, h⟩
  obtain ⟨front, rfl⟩ := List.prefix_of_prefix_length_le hwhole (List.prefix_append _ _) hbegins
  rw [OccursAt, List.append_assoc] at h
  have hrest : piece ++ after = front ++ (needle ++ right) := List.append_cancel_left h
  have hinside : front ++ needle <+: piece ++ after := by
    refine ⟨right, ?_⟩
    rw [hrest, List.append_assoc]
  rw [List.length_append] at hends
  obtain ⟨tail, htail⟩ := List.prefix_of_prefix_length_le hinside (List.prefix_append _ _)
    (by rw [List.length_append]; omega)
  exact ⟨front, tail, htail⟩

theorem infix_of_not_touches (huntouched : ¬ Touches needle before piece after)
    (h : needle <:+: before ++ (piece ++ after)) : needle <:+: before ∨ needle <:+: after := by
  obtain ⟨left, right, hoccurs⟩ := exists_occursAt h
  by_cases hends : left.length + needle.length ≤ before.length
  · exact Or.inl (hoccurs.before_piece hends)
  · by_cases hbegins : before.length + piece.length ≤ left.length
    · obtain ⟨front, hfront, -⟩ := hoccurs.after_piece hbegins
      exact Or.inr hfront.infix
    · exact absurd ⟨left, right, hoccurs, by omega, by omega⟩ huntouched

/-- The unit of the needle over a place of the piece. -/
theorem OccursAt.mem_needle (h : OccursAt needle (before ++ (piece ++ after)) left right)
    {index : Nat} {unit : α} (hunit : piece[index]? = some unit)
    (hbegins : left.length ≤ before.length + index)
    (hends : before.length + index < left.length + needle.length) : unit ∈ needle := by
  obtain ⟨hindex, -⟩ := List.getElem?_eq_some_iff.mp hunit
  have hat := congrArg (fun text => text[before.length + index]?) h
  have hplace : before.length + index - left.length < needle.length := by omega
  simp only [List.getElem?_append_right (Nat.le_add_right _ _), Nat.add_sub_cancel_left,
    List.getElem?_append_left hindex, List.getElem?_append_right hbegins,
    List.getElem?_append_left hplace, hunit] at hat
  exact List.mem_of_getElem? hat.symm

/-- A needle that has neither end of the piece in it overlaps the piece only from
within. -/
theorem infix_piece_of_touches {first last : α} {inner : List α}
    (hpiece : piece = first :: (inner ++ [last])) (hfirst : first ∉ needle)
    (hlast : last ∉ needle) (h : Touches needle before piece after) : needle <:+: piece := by
  obtain ⟨left, right, hoccurs, hover, hunder⟩ := h
  have hlength : piece.length = inner.length + 2 := by
    rw [hpiece, List.length_cons, List.length_append, List.length_singleton]
  have hhead : piece[0]? = some first := by
    rw [hpiece]
    rfl
  have htail : piece[inner.length + 1]? = some last := by
    rw [hpiece, List.getElem?_cons_succ, List.getElem?_concat_length]
  apply hoccurs.within_piece
  · by_contra hbefore
    exact hfirst (hoccurs.mem_needle hhead (by omega) (by omega))
  · by_contra hbehind
    exact hlast (hoccurs.mem_needle htail (by omega) (by omega))

end Inserted

/-! ## Replacing one occurrence after the other -/

section Replacement

variable [DecidableEq α] (needle : List α) (piece : List α → List α → List α)

/-- The first occurrence gives way to the piece for what is before and behind it. -/
def replaceOnce (text : List α) : List α :=
  match splitAtFirst needle text with
  | none => text
  | some (before, after) => before ++ (piece before after ++ after)

def replaceTimes : Nat → List α → List α
  | 0, text => text
  | turns + 1, text => replaceTimes turns (replaceOnce needle piece text)

/-- No piece that is put in completes an occurrence of `other`. -/
def Undisturbed (other text : List α) : Prop :=
  ∀ turns before after,
    splitAtFirst needle (replaceTimes needle piece turns text) = some (before, after) →
      ¬ Touches other before (piece before after) after

variable {needle piece} {other text before after before' after' : List α}

theorem replaceOnce_of_some (h : splitAtFirst needle text = some (before, after)) :
    replaceOnce needle piece text = before ++ (piece before after ++ after) := by
  rw [replaceOnce, h]

theorem replaceOnce_of_none (h : splitAtFirst needle text = none) :
    replaceOnce needle piece text = text := by
  rw [replaceOnce, h]

theorem Undisturbed.once (h : Undisturbed needle piece other text) :
    Undisturbed needle piece other (replaceOnce needle piece text) :=
  fun turns => h (turns + 1)

/-- What comes before the first occurrence has none in it. -/
theorem not_infix_before (hne : needle ≠ [])
    (h : splitAtFirst needle text = some (before, after)) : ¬ needle <:+: before := by
  intro hinfix
  obtain ⟨hoccurs, hleast⟩ := splitAtFirst_eq_some h
  obtain ⟨front, tail, hbefore⟩ := exists_occursAt hinfix
  have hearlier := hleast front (tail ++ (needle ++ after)) (by
    rw [OccursAt, hoccurs, hbefore, List.append_assoc, List.append_assoc])
  have hpos := List.length_pos_iff.mpr hne
  have hlength := congrArg List.length hbefore
  rw [List.length_append, List.length_append] at hlength
  omega

/-- The next occurrence is behind the piece. -/
theorem after_shrinks (hne : needle ≠ []) (h : splitAtFirst needle text = some (before, after))
    (huntouched : ¬ Touches needle before (piece before after) after)
    (hnext : splitAtFirst needle (replaceOnce needle piece text) = some (before', after')) :
    after'.length < after.length := by
  rw [replaceOnce_of_some h] at hnext
  have hoccurs := (splitAtFirst_eq_some hnext).1
  have hpos := List.length_pos_iff.mpr hne
  by_cases hends : before'.length + needle.length ≤ before.length
  · exact absurd (hoccurs.before_piece hends) (not_infix_before hne h)
  · by_cases hbegins : before.length + (piece before after).length ≤ before'.length
    · obtain ⟨front, hfront, -⟩ := hoccurs.after_piece hbegins
      rw [hfront, List.length_append, List.length_append]
      omega
    · exact absurd ⟨before', after', hoccurs, by omega, by omega⟩ huntouched

/-- Without an occurrence that a piece completes, the needle is replaced everywhere
after some turns. -/
theorem exists_replaceTimes_eq_none (hne : needle ≠ [])
    (h : Undisturbed needle piece needle text) :
    ∃ turns, splitAtFirst needle (replaceTimes needle piece turns text) = none := by
  suffices hbound : ∀ bound text, Undisturbed needle piece needle text →
      (∀ before after, splitAtFirst needle text = some (before, after) →
        after.length < bound) →
      ∃ turns, splitAtFirst needle (replaceTimes needle piece turns text) = none by
    cases hfound : splitAtFirst needle text with
    | none => exact ⟨0, hfound⟩
    | some found =>
        refine hbound (found.2.length + 1) text h ?_
        intro before after hsplit
        obtain rfl := Option.some.inj (hfound.symm.trans hsplit)
        exact Nat.lt_succ_self _
  -- The bound on what is behind the first occurrence falls with every turn.
  intro bound
  induction bound with
  | zero =>
      intro text _ hshort
      refine ⟨0, ?_⟩
      rw [Option.eq_none_iff_forall_ne_some]
      intro found hfound
      exact absurd (hshort found.1 found.2 hfound) (Nat.not_lt_zero _)
  | succ bound ih =>
      intro text hclear hshort
      cases hfound : splitAtFirst needle text with
      | none => exact ⟨0, hfound⟩
      | some found =>
          obtain ⟨turns, hturns⟩ := ih (replaceOnce needle piece text) hclear.once (by
            intro before' after' hnext
            have hless := after_shrinks hne hfound (hclear 0 _ _ hfound) hnext
            exact Nat.lt_of_lt_of_le hless (Nat.le_of_lt_succ (hshort _ _ hfound)))
          exact ⟨turns + 1, hturns⟩

/-- A text that does not occur at first does not come to occur. -/
theorem not_infix_replaceTimes (h : Undisturbed needle piece other text)
    (hnone : ¬ other <:+: text) (turns : Nat) :
    ¬ other <:+: replaceTimes needle piece turns text := by
  induction turns generalizing text with
  | zero => exact hnone
  | succ turns ih =>
      apply ih h.once
      cases hfound : splitAtFirst needle text with
      | none =>
          rw [replaceOnce_of_none hfound]
          exact hnone
      | some found =>
          rw [replaceOnce_of_some hfound]
          intro hinfix
          have hoccurs := (splitAtFirst_eq_some hfound).1
          apply hnone
          rw [hoccurs]
          obtain hbefore | hafter := infix_of_not_touches (h 0 _ _ hfound) hinfix
          · exact hbefore.trans (List.prefix_append _ _).isInfix
          · exact hafter.trans
              ((List.suffix_append _ _).trans (List.suffix_append _ _)).isInfix

end Replacement

end GoatCitadel.Support
