import Mathlib.Data.List.Basic

/-!
# Holds against a limit

A spender that does not know the price of something in advance holds the most it
may cost, and settles the hold at the real price or releases it.  The limit is
respected when a new hold fits what is neither held nor settled.  A settlement
above its hold is an overrun, and the limit is exceeded by the overruns at most.
-/

namespace GoatCitadel.Support

/-- What became of a hold. -/
inductive HoldState
  | held
  | settled (used : Nat)
  | released

/-- An amount that was set aside. -/
structure Hold where
  reserved : Nat
  state : HoldState

namespace Hold

/-- The amount that is still set aside. -/
def held (hold : Hold) : Nat :=
  match hold.state with
  | .held => hold.reserved
  | .settled _ => 0
  | .released => 0

/-- The amount that was used. -/
def settled (hold : Hold) : Nat :=
  match hold.state with
  | .held => 0
  | .settled used => used
  | .released => 0

/-- How far the used amount exceeds the one set aside. -/
def overrun (hold : Hold) : Nat :=
  match hold.state with
  | .held => 0
  | .settled used => used - hold.reserved
  | .released => 0

/-- The hold was closed, or is as it was. -/
def Closes (hold hold' : Hold) : Prop :=
  hold' = hold ∨ (hold.state = .held ∧ hold'.reserved = hold.reserved)

/-- The sum of an amount over the holds. -/
def total (amount : Hold → Nat) (holds : List Hold) : Nat :=
  holds.foldr (fun hold rest => amount hold + rest) 0

section Total

variable {amount : Hold → Nat}

@[simp] theorem total_nil : total amount [] = 0 := rfl

@[simp] theorem total_cons (hold : Hold) (holds : List Hold) :
    total amount (hold :: holds) = amount hold + total amount holds := rfl

@[simp] theorem total_append (holds more : List Hold) :
    total amount (holds ++ more) = total amount holds + total amount more := by
  induction holds with
  | nil => simp
  | cons hold holds ih =>
      rw [List.cons_append, total_cons, total_cons, ih]
      omega

theorem total_eq_zero {holds : List Hold} (h : ∀ hold ∈ holds, amount hold = 0) :
    total amount holds = 0 := by
  induction holds with
  | nil => rfl
  | cons hold holds ih =>
      have hhead : amount hold = 0 := h hold List.mem_cons_self
      have htail : total amount holds = 0 :=
        ih fun other hother => h other (List.mem_cons_of_mem hold hother)
      rw [total_cons, hhead, htail]

end Total

/-- What is held and settled exceeds the limit by the overruns at most. -/
def Covered (limit : Nat) (holds : List Hold) : Prop :=
  total held holds + total settled holds ≤ limit + total overrun holds

theorem Covered.nil (limit : Nat) : Covered limit [] := by
  simp [Covered]

/-- A hold that fits what is left keeps the limit. -/
theorem Covered.append_held {limit reserved : Nat} {before after : List Hold}
    (h : Covered limit (before ++ after))
    (hfits : reserved ≤ limit - total held (before ++ after) - total settled (before ++ after)) :
    Covered limit (before ++ ⟨reserved, .held⟩ :: after) := by
  have hheld : held ⟨reserved, .held⟩ = reserved := rfl
  have hsettled : settled ⟨reserved, .held⟩ = 0 := rfl
  have hoverrun : overrun ⟨reserved, .held⟩ = 0 := rfl
  simp only [Covered, total_append, total_cons, hheld, hsettled, hoverrun] at h hfits ⊢
  omega

/-- Closing a hold uses what was held, and more by its overrun only. -/
theorem Closes.charge_le {hold hold' : Hold} (h : Closes hold hold') :
    held hold' + settled hold' + overrun hold ≤ held hold + settled hold + overrun hold' := by
  obtain rfl | ⟨hheld, hreserved⟩ := h
  · exact Nat.le_refl _
  · have hbefore : held hold = hold.reserved := by simp [held, hheld]
    have hsettled : settled hold = 0 := by simp [settled, hheld]
    have hoverrun : overrun hold = 0 := by simp [overrun, hheld]
    cases hstate : hold'.state with
    | held => simp [held, settled, overrun, hstate, hreserved, hheld]
    | released => simp [held, settled, overrun, hstate, hheld]
    | settled used =>
        simp only [held, settled, overrun, hstate, hreserved, hheld]
        omega

/-- Closing holds keeps the limit. -/
theorem Covered.close {limit : Nat} {holds holds' : List Hold} (h : Covered limit holds)
    (hcloses : List.Forall₂ Closes holds holds') : Covered limit holds' := by
  have hcharge : total held holds' + total settled holds' + total overrun holds ≤
      total held holds + total settled holds + total overrun holds' := by
    clear h
    induction hcloses with
    | nil => exact Nat.le_refl _
    | cons hhead _ ih =>
        have hle := hhead.charge_le
        simp only [total_cons]
        omega
  unfold Covered at h ⊢
  omega

/-- Without overruns the limit itself is respected. -/
theorem Covered.le_limit {limit : Nat} {holds : List Hold} (h : Covered limit holds)
    (hwithin : ∀ hold ∈ holds, overrun hold = 0) :
    total held holds + total settled holds ≤ limit := by
  have hzero : total overrun holds = 0 := total_eq_zero hwithin
  unfold Covered at h
  omega

end Hold

end GoatCitadel.Support
