import Mathlib.Data.List.Basic
import Mathlib.Logic.Relation

/-!
# Reachability over finitely many edges

The nodes that can be reached from a node are found by rounds, each of which follows
the edges from the nodes found so far.  Every round but the last one finds a new node,
so there are no more rounds than edges.  An edge whose source cannot be reached from its
target closes no cycle.
-/

namespace GoatCitadel.Support

variable {α : Type*}

/-- No node can be reached from itself. -/
def Acyclic (r : α → α → Prop) : Prop :=
  ∀ a, ¬Relation.TransGen r a a

namespace Acyclic

variable {r r' : α → α → Prop} {a b : α}

theorem mono (h : Acyclic r) (hsub : ∀ x y, r' x y → r x y) : Acyclic r' := by
  intro x hcycle
  exact h x (Relation.TransGen.mono hsub _ _ hcycle)

/-- A path that uses a new edge reaches its source, and continues from its target. -/
theorem path_add_edge {x y : α}
    (h : Relation.TransGen (fun x y => r x y ∨ (x = a ∧ y = b)) x y) :
    Relation.TransGen r x y ∨ (Relation.ReflTransGen r x a ∧ Relation.ReflTransGen r b y) := by
  induction h with
  | single hedge =>
      obtain hr | ⟨rfl, rfl⟩ := hedge
      · exact Or.inl (.single hr)
      · exact Or.inr ⟨.refl, .refl⟩
  | tail _ hedge ih =>
      obtain hr | ⟨rfl, rfl⟩ := hedge
      · obtain hpath | ⟨hto, hfrom⟩ := ih
        · exact Or.inl (hpath.tail hr)
        · exact Or.inr ⟨hto, hfrom.tail hr⟩
      · obtain hpath | ⟨hto, -⟩ := ih
        · exact Or.inr ⟨hpath.to_reflTransGen, .refl⟩
        · exact Or.inr ⟨hto, .refl⟩

/-- A new edge closes no cycle when its target does not lead back to its source. -/
theorem add_edge (h : Acyclic r) (hne : a ≠ b) (hpath : ¬Relation.TransGen r b a) :
    Acyclic fun x y => r x y ∨ (x = a ∧ y = b) := by
  intro x hcycle
  obtain hold | ⟨hto, hfrom⟩ := path_add_edge hcycle
  · exact h x hold
  · obtain heq | hback := Relation.reflTransGen_iff_eq_or_transGen.mp (hfrom.trans hto)
    · exact hne heq
    · exact hpath hback

end Acyclic

section Rounds

variable [DecidableEq α]

/-- The targets of the edges that leave the nodes found, as far as they are new. -/
def newTargets (edges : List (α × α)) (found : List α) : List α :=
  (edges.filter fun edge => edge.1 ∈ found ∧ edge.2 ∉ found).map Prod.snd

/-- The nodes found after a number of rounds. -/
def closure (edges : List (α × α)) : Nat → List α → List α
  | 0, found => found
  | rounds + 1, found => closure edges rounds (found ++ newTargets edges found)

/-- The nodes that edges lead to from a node. -/
def reachable (edges : List (α × α)) (a : α) : List α :=
  closure edges edges.length ((edges.filter fun edge => edge.1 = a).map Prod.snd)

variable {edges : List (α × α)} {found : List α} {a b : α}

theorem mem_newTargets :
    b ∈ newTargets edges found ↔ ∃ a ∈ found, (a, b) ∈ edges ∧ b ∉ found := by
  simp only [newTargets, List.mem_map, List.mem_filter, decide_eq_true_eq]
  constructor
  · rintro ⟨⟨source, target⟩, ⟨hedge, hsource, htarget⟩, rfl⟩
    exact ⟨source, hsource, hedge, htarget⟩
  · rintro ⟨source, hsource, hedge, htarget⟩
    exact ⟨(source, b), ⟨hedge, hsource, htarget⟩, rfl⟩

theorem subset_closure {rounds : Nat} (hb : b ∈ found) : b ∈ closure edges rounds found := by
  induction rounds generalizing found with
  | zero => exact hb
  | succ rounds ih => exact ih (List.mem_append_left _ hb)

/-- The edges whose target is not found yet. -/
def pending (edges : List (α × α)) (found : List α) : List (α × α) :=
  edges.filter fun edge => edge.2 ∉ found

/-- A round that finds a new node leaves fewer edges pending. -/
theorem pending_lt (hnew : newTargets edges found ≠ []) :
    (pending edges (found ++ newTargets edges found)).length <
      (pending edges found).length := by
  obtain ⟨b, hb⟩ := List.exists_mem_of_ne_nil _ hnew
  obtain ⟨a, ha, hedge, hfresh⟩ := mem_newTargets.mp hb
  have hnested : pending edges (found ++ newTargets edges found) =
      (pending edges found).filter fun edge => edge.2 ∉ newTargets edges found := by
    unfold pending
    rw [List.filter_filter]
    apply List.filter_congr
    intro edge _
    simp [Bool.and_comm]
  rw [hnested, List.length_filter_lt_length_iff_exists]
  refine ⟨(a, b), ?_, by simpa using hb⟩
  exact List.mem_filter.mpr ⟨hedge, by simpa using hfresh⟩

/-- With a round for every pending edge, the targets of what is found are found. -/
theorem closure_closed {rounds : Nat} (hrounds : (pending edges found).length ≤ rounds)
    (ha : a ∈ closure edges rounds found) (hedge : (a, b) ∈ edges) :
    b ∈ closure edges rounds found := by
  induction rounds generalizing found with
  | zero =>
      by_contra hfresh
      rw [closure] at hfresh
      have hpending : (a, b) ∈ pending edges found :=
        List.mem_filter.mpr ⟨hedge, by simpa using hfresh⟩
      exact absurd (List.length_pos_of_mem hpending) (by omega)
  | succ rounds ih =>
      rw [closure] at ha ⊢
      by_cases hnew : newTargets edges found = []
      · rw [hnew, List.append_nil] at ha ⊢
        have hfixed : ∀ n, closure edges n found = found := by
          intro n
          induction n with
          | zero => rfl
          | succ n ihn => rw [closure, hnew, List.append_nil, ihn]
        rw [hfixed] at ha ⊢
        by_contra hfresh
        have hmem := mem_newTargets.mpr ⟨a, ha, hedge, hfresh⟩
        rw [hnew] at hmem
        exact List.not_mem_nil hmem
      · apply ih
        · have hlt := pending_lt hnew
          omega
        · exact ha

theorem closure_sound {rounds : Nat} {P : α → Prop} (hfound : ∀ a ∈ found, P a)
    (hedges : ∀ a b, (a, b) ∈ edges → P a → P b) : ∀ b ∈ closure edges rounds found, P b := by
  induction rounds generalizing found with
  | zero => exact hfound
  | succ rounds ih =>
      apply ih
      intro b hb
      obtain hold | hnew := List.mem_append.mp hb
      · exact hfound b hold
      · obtain ⟨a, ha, hedge, -⟩ := mem_newTargets.mp hnew
        exact hedges a b hedge (hfound a ha)

/-- The rounds find the nodes that a path leads to. -/
theorem mem_reachable :
    b ∈ reachable edges a ↔ Relation.TransGen (fun x y => (x, y) ∈ edges) a b := by
  unfold reachable
  have hstart : ∀ {c : α}, c ∈ (edges.filter fun edge => edge.1 = a).map Prod.snd ↔
      (a, c) ∈ edges := by
    intro c
    simp only [List.mem_map, List.mem_filter, decide_eq_true_eq]
    constructor
    · rintro ⟨⟨source, target⟩, ⟨hedge, rfl⟩, rfl⟩
      exact hedge
    · intro hedge
      exact ⟨(a, c), ⟨hedge, rfl⟩, rfl⟩
  constructor
  · apply closure_sound
    · intro c hc
      exact .single (hstart.mp hc)
    · intro c d hedge hpath
      exact hpath.tail hedge
  · intro hpath
    induction hpath with
    | single hedge => exact subset_closure (hstart.mpr hedge)
    | tail _ hedge ih =>
        apply closure_closed _ ih hedge
        exact List.length_filter_le _ _

end Rounds

end GoatCitadel.Support
