import Mathlib.Data.List.Chain
import GoatCitadel.Support.Keyset

/-!
# Sweeping in a circle

A sweep takes the next rows in the order of their keys from a cursor on, and starts again
with the first row after the last one.  Its cursor is the key of the last row it took.
While a row is there, no step from one row to the next one passes it, whatever becomes of
the other rows.  So the row is taken between any two turns of another row.
-/

namespace GoatCitadel.Support

variable {κ : Type*} [LinearOrder κ] {a b c x : κ}

/-! ## The circle -/

/-- A key lies on the way round the circle that leads from one key to the next turn of
another one, or of the same one. -/
def Passed (a x b : κ) : Prop :=
  if a < b then a < x ∧ x < b else a < x ∨ x < b

theorem passed_self : Passed a x a ↔ x ≠ a := by
  unfold Passed
  rw [if_neg (lt_irrefl a)]
  exact ⟨fun h heq => h.elim (fun h => h.ne' heq) fun h => h.ne heq,
    fun h => (lt_or_gt_of_ne h).symm⟩

/-- A step that does not pass a key stays in front of it. -/
theorem Passed.of_not (hne : b ≠ x) (hstep : ¬Passed a x b) (ha : x ≠ a) : Passed a b x := by
  have hab : a ≠ b := by
    rintro rfl
    exact hstep (passed_self.mpr ha)
  unfold Passed at hstep ⊢
  by_cases hlt : a < b
  · rw [if_pos hlt, not_and, not_lt] at hstep
    by_cases hax : a < x
    · rw [if_pos hax]
      exact ⟨hlt, lt_of_le_of_ne (hstep hax) hne⟩
    · rw [if_neg hax]
      exact .inl hlt
  · rw [if_neg hlt, not_or, not_lt, not_lt] at hstep
    obtain ⟨hxa, hbx⟩ := hstep
    rw [if_neg hxa.not_gt]
    exact .inr (lt_of_le_of_ne hbx hne)

/-- What comes after a key that is in front of another one is in front of it. -/
theorem Passed.trans (h : Passed a b x) (h' : Passed b c x) (ha : x ≠ a) : Passed a c x := by
  unfold Passed at h h' ⊢
  by_cases hax : a < x
  · rw [if_pos hax] at h ⊢
    rw [if_pos h.2] at h'
    exact ⟨h.1.trans h'.1, h'.2⟩
  · rw [if_neg hax] at h ⊢
    have hxa : x < a := lt_of_le_of_ne (not_lt.mp hax) ha
    obtain hab | hbx := h
    · rw [if_neg (hxa.trans hab).not_gt] at h'
      exact h'.imp_left hab.trans
    · rw [if_pos hbx] at h'
      exact .inr h'.2

theorem not_passed_first : ¬Passed a a x := by
  intro h
  unfold Passed at h
  split_ifs at h with hax
  · exact lt_irrefl a h.1
  · exact lt_irrefl a (h.resolve_right hax)

/-- Steps that do not pass a key lead to it before they lead back. -/
theorem mem_of_not_passed {visits : List κ} (ha : x ≠ a)
    (h : (a :: (visits ++ [a])).IsChain fun a b => ¬Passed a x b) : x ∈ visits := by
  by_contra hmissed
  -- Every key of the visits is in front of `x`, so the last step passes it.
  have hfront : ∀ (rest : List κ) (b : κ), x ∉ rest → x ≠ b → (b = a ∨ Passed a b x) →
      (b :: (rest ++ [a])).IsChain (fun a b => ¬Passed a x b) → False := by
    intro rest
    induction rest with
    | nil =>
        intro b _ hb hbefore hchain
        have hstep := (List.isChain_cons_cons.mp hchain).1
        obtain rfl | hbefore := hbefore
        · exact hstep (passed_self.mpr hb)
        · exact not_passed_first (hbefore.trans (.of_not ha.symm hstep hb) ha)
    | cons c rest ih =>
        intro b hmem hb hbefore hchain
        obtain ⟨hstep, hrest⟩ := List.isChain_cons_cons.mp hchain
        obtain ⟨hc, hmem⟩ := not_or.mp fun h => hmem (List.mem_cons.mpr h)
        have hbc : Passed b c x := .of_not (Ne.symm hc) hstep hb
        refine ih c hmem hc (.inr ?_) hrest
        obtain rfl | hbefore := hbefore
        · exact hbc
        · exact hbefore.trans hbc ha
  exact hfront visits a hmissed ha (.inl rfl) h

/-- The steps that follow one another. -/
theorem isChain_cons_append {α : Type*} {R : α → α → Prop} {a : α} {first second : List α}
    (h : (a :: first).IsChain R) (h' : ((first.getLast?.getD a) :: second).IsChain R) :
    (a :: (first ++ second)).IsChain R := by
  rw [← List.cons_append]
  obtain ⟨hstep, hsecond⟩ := List.isChain_cons.mp h'
  refine List.isChain_append.mpr ⟨h, hsecond, ?_⟩
  intro last hlast next hnext
  rw [List.getLast?_cons] at hlast
  obtain rfl := Option.some_inj.mp hlast
  exact hstep next hnext

/-! ## A sweep -/

section Sweep

variable {α : Type*} (key : α → κ)

/-- The rows after the cursor, and then the others. -/
def sweep (cursor : κ) (rows : List α) : List α :=
  inOrder key (rows.filter fun row => cursor < key row) ++
    inOrder key (rows.filter fun row => key row ≤ cursor)

variable {key} {cursor : κ} {rows : List α} {row : α}

theorem mem_inOrder : row ∈ inOrder key rows ↔ row ∈ rows :=
  List.mem_insertionSort _

/-- No step of an increasing list passes one of its keys, or one on either side of it. -/
theorem isChain_of_increasing {keys : List κ} (h : keys.Pairwise (· < ·))
    (hx : x ∈ keys ∨ (∀ b ∈ keys, b ≤ x) ∨ ∀ b ∈ keys, x ≤ b) :
    keys.IsChain fun a b => ¬Passed a x b := by
  induction keys with
  | nil => exact .nil
  | cons a keys ih =>
      obtain ⟨hhead, htail⟩ := List.pairwise_cons.mp h
      refine List.isChain_cons.mpr ⟨?_, ih htail ?_⟩
      · intro b hb hpassed
        have hmem : b ∈ keys := List.mem_of_mem_head? hb
        unfold Passed at hpassed
        rw [if_pos (hhead b hmem)] at hpassed
        obtain hx | hx | hx := hx
        · obtain rfl | hx := List.mem_cons.mp hx
          · exact lt_irrefl x hpassed.1
          · obtain ⟨rest, hrest⟩ := List.head?_eq_some_iff.mp hb
            rw [hrest] at hx htail
            obtain rfl | hx := List.mem_cons.mp hx
            · exact lt_irrefl x hpassed.2
            · exact hpassed.2.not_gt ((List.pairwise_cons.mp htail).1 x hx)
        · exact (hx b (List.mem_cons_of_mem _ hmem)).not_gt hpassed.2
        · exact (hx a List.mem_cons_self).not_gt hpassed.1
      · obtain hx | hx | hx := hx
        · obtain rfl | hx := List.mem_cons.mp hx
          · exact .inr (.inr fun b hb => (hhead b hb).le)
          · exact .inl hx
        · exact .inr (.inl fun b hb => hx b (List.mem_cons_of_mem _ hb))
        · exact .inr (.inr fun b hb => hx b (List.mem_cons_of_mem _ hb))

theorem le_getLast_of_increasing {keys : List κ} (h : keys.Pairwise (· < ·)) {last : κ}
    (hlast : keys.getLast? = some last) (hx : x ∈ keys) : x ≤ last := by
  obtain ⟨front, rfl⟩ := List.getLast?_eq_some_iff.mp hlast
  obtain hfront | hsame := List.mem_append.mp hx
  · exact ((List.pairwise_append.mp h).2.2 x hfront last List.mem_cons_self).le
  · exact (List.mem_singleton.mp hsame).le

theorem head_le_of_increasing {keys : List κ} (h : keys.Pairwise (· < ·)) {first : κ}
    (hfirst : keys.head? = some first) (hx : x ∈ keys) : first ≤ x := by
  obtain ⟨rest, rfl⟩ := List.head?_eq_some_iff.mp hfirst
  obtain rfl | hrest := List.mem_cons.mp hx
  · exact le_rfl
  · exact ((List.pairwise_cons.mp h).1 x hrest).le

/-- No step of a sweep passes a row that is there. -/
theorem isChain_sweep (hkeys : rows.Pairwise fun a b => key a ≠ key b) (hrow : row ∈ rows) :
    (cursor :: (sweep key cursor rows).map key).IsChain fun a b => ¬Passed a (key row) b := by
  have hincreasing : ∀ p : α → Bool,
      ((inOrder key (rows.filter p)).map key).Pairwise (· < ·) := fun p =>
    List.pairwise_map.mpr (inOrder_increasing (hkeys.sublist List.filter_sublist))
  have hafter : (cursor :: (inOrder key (rows.filter fun row => cursor < key row)).map
      key).Pairwise (· < ·) := by
    refine List.pairwise_cons.mpr ⟨?_, hincreasing _⟩
    intro k hk
    obtain ⟨other, hother, rfl⟩ := List.mem_map.mp hk
    exact of_decide_eq_true (List.mem_filter.mp (mem_inOrder.mp hother)).2
  have hthrough : ∀ k ∈ (inOrder key (rows.filter fun row => key row ≤ cursor)).map key,
      k ≤ cursor := by
    intro k hk
    obtain ⟨other, hother, rfl⟩ := List.mem_map.mp hk
    exact of_decide_eq_true (List.mem_filter.mp (mem_inOrder.mp hother)).2
  have hmem : ∀ p : α → Bool, p row = true →
      key row ∈ (inOrder key (rows.filter p)).map key := fun p hp =>
    List.mem_map_of_mem (mem_inOrder.mpr (List.mem_filter.mpr ⟨hrow, hp⟩))
  unfold sweep
  rw [List.map_append, ← List.cons_append]
  by_cases hlt : cursor < key row
  · have hpart := hmem (fun row => cursor < key row) (decide_eq_true hlt)
    refine List.isChain_append.mpr ⟨isChain_of_increasing hafter (.inl ?_),
      isChain_of_increasing (hincreasing _) (.inr (.inl ?_)), ?_⟩
    · exact List.mem_cons_of_mem _ hpart
    · exact fun k hk => (hthrough k hk).trans hlt.le
    · intro last hlast first hfirst hpassed
      have hle := le_getLast_of_increasing hafter hlast (List.mem_cons_of_mem _ hpart)
      have hfirst : first ≤ cursor := hthrough first (List.mem_of_mem_head? hfirst)
      unfold Passed at hpassed
      rw [if_neg ((hfirst.trans (hlt.le.trans hle)).not_gt)] at hpassed
      exact hpassed.elim hle.not_gt (hfirst.trans hlt.le).not_gt
  · have hpart := hmem (fun row => key row ≤ cursor) (decide_eq_true (not_lt.mp hlt))
    refine List.isChain_append.mpr ⟨isChain_of_increasing hafter (.inr (.inr ?_)),
      isChain_of_increasing (hincreasing _) (.inl hpart), ?_⟩
    · intro k hk
      obtain rfl | hk := List.mem_cons.mp hk
      · exact not_lt.mp hlt
      · exact (not_lt.mp hlt).trans ((List.pairwise_cons.mp hafter).1 k hk).le
    · intro last hlast first hfirst hpassed
      have hle := head_le_of_increasing (hincreasing _) hfirst hpart
      have hlast : cursor ≤ last :=
        le_getLast_of_increasing hafter hlast List.mem_cons_self
      unfold Passed at hpassed
      rw [if_neg ((hle.trans ((not_lt.mp hlt).trans hlast)).not_gt)] at hpassed
      exact hpassed.elim ((not_lt.mp hlt).trans hlast).not_gt hle.not_gt

end Sweep

end GoatCitadel.Support
