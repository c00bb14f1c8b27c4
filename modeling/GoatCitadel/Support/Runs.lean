import Mathlib.Data.List.Basic

/-!
# Finite runs of labelled step relations

The stores and engines of the development are step relations: a state, a label
saying what happened, and the state after it.  This module holds the facts
about finite runs that every one of them uses: runs can be cut and joined, an
invariant of the steps is an invariant of the runs, and a relation whose steps
are all steps of another one has only runs of the other one.
-/

namespace GoatCitadel.Support

variable {σ ε : Type*}

/-- A finite run of `step`, with the labels of its steps in order. -/
inductive Run (step : σ → ε → σ → Prop) : σ → List ε → σ → Prop
  | nil (s : σ) : Run step s [] s
  | cons {s s' s'' : σ} {e : ε} {es : List ε} :
      step s e s' → Run step s' es s'' → Run step s (e :: es) s''

namespace Run

variable {step : σ → ε → σ → Prop} {s s' s'' : σ} {e : ε} {es fs : List ε}

theorem single (h : step s e s') : Run step s [e] s' :=
  .cons h (.nil s')

theorem append (h : Run step s es s') (h' : Run step s' fs s'') :
    Run step s (es ++ fs) s'' := by
  induction h with
  | nil => exact h'
  | cons hs _ ih => exact .cons hs (ih h')

theorem eq_of_nil (h : Run step s [] s') : s' = s := by
  cases h
  rfl

/-- A run over a concatenation passes through a middle state. -/
theorem split (h : Run step s (es ++ fs) s'') :
    ∃ s', Run step s es s' ∧ Run step s' fs s'' := by
  induction es generalizing s with
  | nil => exact ⟨s, .nil s, h⟩
  | cons e es ih =>
      rw [List.cons_append] at h
      cases h with
      | cons hs ht =>
          obtain ⟨m, hl, hr⟩ := ih ht
          exact ⟨m, .cons hs hl, hr⟩

theorem cons_inv (h : Run step s (e :: es) s'') :
    ∃ s', step s e s' ∧ Run step s' es s'' := by
  cases h with
  | cons hs ht => exact ⟨_, hs, ht⟩

theorem single_inv (h : Run step s [e] s') : step s e s' := by
  obtain ⟨m, hs, ht⟩ := cons_inv h
  rw [eq_of_nil ht]
  exact hs

/-- A predicate kept by every step whose label occurs in the run is kept by
the run. -/
theorem invariant_of_labels {I : σ → Prop} {Q : ε → Prop}
    (hstep : ∀ s e s', step s e s' → Q e → I s → I s')
    (h : Run step s es s') (hQ : ∀ e ∈ es, Q e) (hI : I s) : I s' := by
  induction h with
  | nil => exact hI
  | @cons s s' s'' e es hs _ ih =>
      have hIs' : I s' := hstep s e s' hs (hQ e List.mem_cons_self) hI
      exact ih (fun f hf => hQ f (List.mem_cons_of_mem e hf)) hIs'

/-- A predicate kept by every step is kept by every run. -/
theorem invariant {I : σ → Prop}
    (hstep : ∀ s e s', step s e s' → I s → I s')
    (h : Run step s es s') (hI : I s) : I s' :=
  invariant_of_labels (Q := fun _ => True)
    (fun s e s' hs _ => hstep s e s' hs) h (fun _ _ => trivial) hI

/-- A predicate of the labels so far and the state that every step keeps is kept
by every run. -/
theorem invariant_of_history {I : List ε → σ → Prop}
    (hstep : ∀ past s e s', step s e s' → I past s → I (past ++ [e]) s')
    {past : List ε} (h : Run step s es s') (hs : I past s) : I (past ++ es) s' := by
  induction h generalizing past with
  | nil =>
      rw [List.append_nil]
      exact hs
  | @cons s s' s'' e es hfirst _ ih =>
      have hnext := ih (hstep past s e s' hfirst hs)
      rw [List.append_assoc, List.singleton_append] at hnext
      exact hnext

/-- What holds of every step that starts in an invariant holds of every label. -/
theorem forall_labels {I : σ → Prop} {P : ε → Prop}
    (hstep : ∀ s e s', step s e s' → I s → I s' ∧ P e)
    (h : Run step s es s') (hs : I s) : ∀ e ∈ es, P e := by
  induction h with
  | nil => intro e he; cases he
  | @cons s s' s'' e es hfirst _ ih =>
      obtain ⟨hs', hP⟩ := hstep s e s' hfirst hs
      intro f hf
      obtain rfl | hmem := List.mem_cons.mp hf
      · exact hP
      · exact ih hs' f hmem

/-- When a label of `P` leaves the states of `J`, and no label of `Q` starts in
one of them, no `Q` follows a `P`. -/
theorem pairwise_of_latch {I J : σ → Prop} {P Q : ε → Prop}
    (hI : ∀ s e s', step s e s' → I s → I s')
    (hset : ∀ s e s', step s e s' → I s → P e → J s')
    (hkeep : ∀ s e s', step s e s' → I s → J s → J s' ∧ ¬Q e)
    (h : Run step s es s') (hs : I s) : es.Pairwise fun e f => P e → ¬Q f := by
  have hboth : ∀ s e s', step s e s' → I s ∧ J s → (I s' ∧ J s') ∧ ¬Q e := by
    intro s e s' hstep ⟨hIs, hJs⟩
    obtain ⟨hJs', hQ⟩ := hkeep s e s' hstep hIs hJs
    exact ⟨⟨hI s e s' hstep hIs, hJs'⟩, hQ⟩
  induction h with
  | nil => exact .nil
  | @cons s s' s'' e es hstep hrest ih =>
      have hIs' : I s' := hI s e s' hstep hs
      refine List.pairwise_cons.mpr ⟨?_, ih hIs'⟩
      intro f hf hP
      exact hrest.forall_labels hboth ⟨hIs', hset s e s' hstep hs hP⟩ f hf

/-- Weakening the step relation keeps the run. -/
theorem mono {step' : σ → ε → σ → Prop}
    (hstep : ∀ s e s', step s e s' → step' s e s')
    (h : Run step s es s') : Run step' s es s' := by
  induction h with
  | nil s => exact .nil s
  | cons hs _ ih => exact .cons (hstep _ _ _ hs) ih

/-- Steps that are computed one after the other form a run. -/
theorem of_foldlM {α : Type*} {next : σ → ε → Except α σ}
    (h : es.foldlM next s = .ok s') : Run (fun s e s' => next s e = .ok s') s es s' := by
  induction es generalizing s with
  | nil =>
      cases h
      exact .nil s'
  | cons e es ih =>
      rw [List.foldlM_cons] at h
      cases hnext : next s e with
      | error error =>
          rw [hnext] at h
          cases h
      | ok middle =>
          rw [hnext] at h
          exact .cons hnext (ih h)

/-- The labels are those of steps that are computed one after the other. -/
def agrees (next : σ → ε → σ) (answers : σ → ε → Bool) : σ → List ε → Bool
  | _, [] => true
  | s, e :: es => answers s e && agrees next answers (next s e) es

/-- Steps that are computed, and whose labels agree, form a run. -/
theorem of_next {next : σ → ε → σ} {answers : σ → ε → Bool}
    (hstep : ∀ s e, answers s e = true → step s e (next s e)) (s : σ) (es : List ε)
    (h : agrees next answers s es = true) : Run step s es (es.foldl next s) := by
  induction es generalizing s with
  | nil => exact .nil s
  | cons e es ih =>
      obtain ⟨hfirst, hrest⟩ := Bool.and_eq_true_iff.mp h
      exact .cons (hstep s e hfirst) (ih (next s e) hrest)

end Run

/-- Of labels no two of which follow each other there is at most one. -/
theorem countP_le_one_of_pairwise {P : ε → Bool} {es : List ε}
    (h : es.Pairwise fun e f => P e = true → ¬P f = true) : es.countP P ≤ 1 := by
  induction es with
  | nil => exact Nat.zero_le 1
  | cons e es ih =>
      obtain ⟨hhead, htail⟩ := List.pairwise_cons.mp h
      by_cases he : P e = true
      · have hnone : es.countP P = 0 :=
          List.countP_eq_zero.mpr fun f hf => hhead f hf he
        simp [List.countP_cons_of_pos he, hnone]
      · rw [List.countP_cons_of_neg he]
        exact ih htail

/-- The steps of `step` that start in a state and carry a label allowed by
`admissible`. -/
def Restrict (step : σ → ε → σ → Prop) (admissible : σ → ε → Prop) :
    σ → ε → σ → Prop :=
  fun s e s' => step s e s' ∧ admissible s e

theorem Run.of_restrict {step : σ → ε → σ → Prop}
    {admissible : σ → ε → Prop} {s s' : σ} {es : List ε}
    (h : Run (Restrict step admissible) s es s') : Run step s es s' :=
  h.mono fun _ _ _ hs => hs.1

end GoatCitadel.Support
