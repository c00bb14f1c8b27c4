import Mathlib.Algebra.Order.Group.Nat

/-!
# Aligned ranges

Rounding up and down to multiples of a step, and the longest range between two bounds
that starts and ends at multiples of it.
-/

namespace GoatCitadel.Support

def alignUp (step value : Nat) : Nat :=
  (value + step - 1) / step * step

def alignDown (step value : Nat) : Nat :=
  value / step * step

section

variable {step value other : Nat}

theorem dvd_alignUp : step ∣ alignUp step value :=
  Nat.dvd_mul_left step _

theorem dvd_alignDown : step ∣ alignDown step value :=
  Nat.dvd_mul_left step _

theorem alignDown_le : alignDown step value ≤ value :=
  Nat.div_mul_le_self value step

theorem le_alignDown (hdvd : step ∣ other) (hle : other ≤ value) :
    other ≤ alignDown step value := by
  obtain ⟨count, rfl⟩ := hdvd
  rw [alignDown, Nat.mul_comm]
  by_cases hstep : step = 0
  · rw [hstep, Nat.mul_zero]
    exact Nat.zero_le _
  · apply Nat.mul_le_mul_right
    rw [Nat.le_div_iff_mul_le (Nat.pos_of_ne_zero hstep), Nat.mul_comm]
    exact hle

theorem le_alignUp (hstep : 0 < step) : value ≤ alignUp step value := by
  have hsplit := Nat.div_add_mod (value + step - 1) step
  have hmod := Nat.mod_lt (value + step - 1) hstep
  rw [alignUp, Nat.mul_comm]
  omega

theorem alignUp_le (hdvd : step ∣ other) (hle : value ≤ other) : alignUp step value ≤ other := by
  obtain ⟨count, rfl⟩ := hdvd
  rw [alignUp, Nat.mul_comm step count]
  apply Nat.mul_le_mul_right
  by_cases hstep : step = 0
  · rw [hstep, Nat.div_zero]
    exact Nat.zero_le _
  · rw [← Nat.lt_add_one_iff, Nat.div_lt_iff_lt_mul (Nat.pos_of_ne_zero hstep), Nat.succ_mul,
      Nat.mul_comm count step]
    omega

/-- No aligned range between the bounds is longer than the one that starts at the first
multiple behind the lower bound. -/
theorem length_le_of_aligned {lower upper start length : Nat} (hstart : step ∣ start)
    (hstop : step ∣ start + length) (hlower : lower ≤ start)
    (hupper : start + length ≤ upper) :
    length ≤ alignDown step (upper - alignUp step lower) := by
  have hfirst : alignUp step lower ≤ start := alignUp_le hstart hlower
  have hlength : step ∣ length := (Nat.dvd_add_right hstart).mp hstop
  exact le_alignDown hlength (by omega)

end

end GoatCitadel.Support
