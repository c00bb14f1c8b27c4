import Mathlib.Data.List.Nodup
import Mathlib.Data.List.Pairwise
import Mathlib.Data.List.Sort

/-!
# Stable sorting

Sorting by a preorder leaves elements that are equal for it in the order they
had.  `[a, b]` is a sublist of a list when `a` stands before `b` in it.
-/

namespace GoatCitadel.Support

variable {α : Type*} {l l' : List α} {a b : α}

/-- Of two different members one stands before the other. -/
theorem pair_sublist_or (ha : a ∈ l) (hb : b ∈ l) (hne : a ≠ b) :
    [a, b].Sublist l ∨ [b, a].Sublist l := by
  induction l with
  | nil => exact absurd ha List.not_mem_nil
  | cons c l ih =>
      rcases List.mem_cons.mp ha with rfl | ha'
      · have hb' : b ∈ l := (List.mem_cons.mp hb).resolve_left (Ne.symm hne)
        exact .inl ((List.singleton_sublist.mpr hb').cons_cons a)
      rcases List.mem_cons.mp hb with rfl | hb'
      · exact .inr ((List.singleton_sublist.mpr ha').cons_cons b)
      · exact (ih ha' hb').imp (·.cons c) (·.cons c)

/-- Among different members, one stands before the other in one way only. -/
theorem not_pair_sublist_swap (hnodup : l.Nodup) (h : [a, b].Sublist l) :
    ¬[b, a].Sublist l := by
  intro hswap
  induction l with
  | nil => exact absurd (h.subset List.mem_cons_self) List.not_mem_nil
  | cons c l ih =>
      obtain ⟨hc, hl⟩ := List.nodup_cons.mp hnodup
      have hsecond : ∀ {x y : α}, [x, y].Sublist (c :: l) → y ∈ l := by
        intro x y hxy
        rcases List.cons_sublist_cons'.mp hxy with hin | ⟨rfl, hy⟩
        · exact hin.subset (by simp)
        · exact List.singleton_sublist.mp hy
      have hin : ∀ {x y : α}, [x, y].Sublist (c :: l) → x ∈ l → [x, y].Sublist l := by
        intro x y hxy hx
        rcases List.cons_sublist_cons'.mp hxy with hin | ⟨rfl, hy⟩
        · exact hin
        · exact absurd hx hc
      exact ih hl (hin h (hsecond hswap)) (hin hswap (hsecond h))

section

variable {r : α → α → Prop} [DecidableRel r]

/-- Sorting keeps elements that are equal for the order as they stood. -/
theorem pairwise_insertionSort_stable (htotal : ∀ a b, r a b ∨ r b a)
    (htrans : ∀ a b c, r a b → r b c → r a c) (hnodup : l.Nodup) :
    (l.insertionSort r).Pairwise fun a b => r a b ∧ (r b a → [a, b].Sublist l) := by
  have : Std.Total r := ⟨htotal⟩
  have : IsTrans α r := ⟨htrans⟩
  have hperm := List.perm_insertionSort r l
  have hsortedNodup : (l.insertionSort r).Nodup := hperm.nodup_iff.mpr hnodup
  rw [List.pairwise_iff_forall_sublist]
  intro a b hab
  refine ⟨List.pairwise_iff_forall_sublist.mp (List.pairwise_insertionSort r l) hab, ?_⟩
  intro hba
  have hne : a ≠ b := List.pairwise_iff_forall_sublist.mp hsortedNodup hab
  have ha : a ∈ l := hperm.mem_iff.mp (hab.subset (by simp))
  have hb : b ∈ l := hperm.mem_iff.mp (hab.subset (by simp))
  refine (pair_sublist_or ha hb hne).resolve_right fun hswap => ?_
  exact not_pair_sublist_swap hsortedNodup hab (List.pair_sublist_insertionSort hba hswap)

/-- Sorting forgets the order when different elements are never equal for it. -/
theorem insertionSort_eq_of_perm (htotal : ∀ a b, r a b ∨ r b a)
    (htrans : ∀ a b c, r a b → r b c → r a c) (hperm : l.Perm l')
    (hanti : ∀ a ∈ l, ∀ b ∈ l, r a b → r b a → a = b) :
    l.insertionSort r = l'.insertionSort r := by
  have : Std.Total r := ⟨htotal⟩
  have : IsTrans α r := ⟨htrans⟩
  have hsorted := List.perm_insertionSort r l
  have hsorted' := List.perm_insertionSort r l'
  refine List.Perm.eq_of_pairwise ?_ (List.pairwise_insertionSort r l)
    (List.pairwise_insertionSort r l') (hsorted.trans (hperm.trans hsorted'.symm))
  intro a b ha hb
  exact hanti a (hsorted.mem_iff.mp ha) b (hperm.mem_iff.mpr (hsorted'.mem_iff.mp hb))

/-- Relations that hold of the same elements sort in the same way. -/
theorem insertionSort_congr {s : α → α → Prop} [DecidableRel s] (h : ∀ a b, r a b ↔ s a b)
    (l : List α) : l.insertionSort r = l.insertionSort s := by
  have hsame : r = s := funext fun a => funext fun b => propext (h a b)
  subst hsame
  congr

theorem orderedInsert_of_forall (h : ∀ b ∈ l, r a b) : l.orderedInsert r a = a :: l := by
  cases l with
  | nil => rfl
  | cons b l => exact List.orderedInsert_cons_of_le r l (h b List.mem_cons_self)

theorem filter_orderedInsert (htrans : ∀ a b c, r a b → r b c → r a c)
    (hsorted : l.Pairwise r) (p : α → Bool) :
    (l.orderedInsert r a).filter p =
      if p a = true then (l.filter p).orderedInsert r a else l.filter p := by
  induction l with
  | nil =>
      by_cases ha : p a = true
      · rw [if_pos ha]
        exact List.filter_cons_of_pos ha
      · rw [if_neg ha]
        exact List.filter_cons_of_neg ha
  | cons b l ih =>
      obtain ⟨hhead, htail⟩ := List.pairwise_cons.mp hsorted
      by_cases hab : r a b
      · rw [List.orderedInsert_cons_of_le r l hab]
        by_cases ha : p a = true
        · have hall : ∀ c ∈ (b :: l).filter p, r a c := by
            intro c hc
            obtain rfl | hrest := List.mem_cons.mp (List.mem_of_mem_filter hc)
            · exact hab
            · exact htrans a b c hab (hhead c hrest)
          rw [if_pos ha, List.filter_cons_of_pos ha, orderedInsert_of_forall hall]
        · rw [if_neg ha, List.filter_cons_of_neg ha]
      · rw [List.orderedInsert_of_not_le r l hab]
        by_cases hb : p b = true
        · rw [List.filter_cons_of_pos hb, ih htail, List.filter_cons_of_pos hb]
          by_cases ha : p a = true
          · rw [if_pos ha, if_pos ha, List.orderedInsert_of_not_le r _ hab]
          · rw [if_neg ha, if_neg ha]
        · rw [List.filter_cons_of_neg hb, ih htail, List.filter_cons_of_neg hb]

/-- Members can be left out before or after they are sorted. -/
theorem filter_insertionSort (htotal : ∀ a b, r a b ∨ r b a)
    (htrans : ∀ a b c, r a b → r b c → r a c) (p : α → Bool) (l : List α) :
    (l.insertionSort r).filter p = (l.filter p).insertionSort r := by
  have : Std.Total r := ⟨htotal⟩
  have : IsTrans α r := ⟨htrans⟩
  induction l with
  | nil => rfl
  | cons a l ih =>
      rw [List.insertionSort_cons,
        filter_orderedInsert htrans (List.pairwise_insertionSort r l), ih]
      by_cases ha : p a = true
      · rw [if_pos ha, List.filter_cons_of_pos ha, List.insertionSort_cons]
      · rw [if_neg ha, List.filter_cons_of_neg ha]

/-- A member that is above every member, and alone there, is sorted to the end. -/
theorem getLast?_insertionSort_of_max (htotal : ∀ a b, r a b ∨ r b a)
    (htrans : ∀ a b c, r a b → r b c → r a c) (ha : a ∈ l) (hmax : ∀ b ∈ l, r a b → b = a) :
    (l.insertionSort r).getLast? = some a := by
  have : Std.Total r := ⟨htotal⟩
  have : IsTrans α r := ⟨htrans⟩
  have hperm := List.perm_insertionSort r l
  have hsorted := List.pairwise_insertionSort r l
  rcases List.eq_nil_or_concat (l.insertionSort r) with hnil | ⟨init, last, hconcat⟩
  · rw [hnil] at hperm
    exact absurd (hperm.mem_iff.mpr ha) List.not_mem_nil
  · rw [hconcat] at hsorted hperm ⊢
    rw [List.concat_eq_append] at hsorted hperm ⊢
    rw [List.getLast?_append_of_ne_nil _ (List.cons_ne_nil _ _), List.getLast?_singleton]
    rcases List.mem_append.mp (hperm.mem_iff.mpr ha) with hinit | hlast
    · have hle : r a last := (List.pairwise_append.mp hsorted).2.2 a hinit last (by simp)
      rw [hmax last (hperm.mem_iff.mp (by simp)) hle]
    · rw [List.mem_singleton.mp hlast]

end

end GoatCitadel.Support
