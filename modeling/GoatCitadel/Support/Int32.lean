import Mathlib.Data.List.Range

/-!
# Words of 32 bits among the numbers

A number stands for the word that it is congruent to.  The bitwise operators read the words
of their operands and return a signed number; the unsigned shift, and the arrays of unsigned
words, return an unsigned one.  Either way the word of the result is the result on the words.
-/

namespace GoatCitadel.Support

/-- The word that a number stands for. -/
def wordOf (value : Int) : BitVec 32 :=
  BitVec.ofInt 32 value

/-- `value >>> 0` -/
def toUint32 (value : Int) : Int :=
  (wordOf value).toNat

def bitAnd (a b : Int) : Int :=
  (wordOf a &&& wordOf b).toInt

def bitOr (a b : Int) : Int :=
  (wordOf a ||| wordOf b).toInt

def bitXor (a b : Int) : Int :=
  (wordOf a ^^^ wordOf b).toInt

def bitNot (a : Int) : Int :=
  (~~~wordOf a).toInt

/-- `a << count` -/
def shiftLeft (a : Int) (count : Nat) : Int :=
  (wordOf a <<< (count % 32)).toInt

/-- `a >>> count` -/
def shiftRightUnsigned (a : Int) (count : Nat) : Int :=
  (wordOf a >>> (count % 32)).toNat

section Words

variable (a b : Int)

theorem wordOf_natCast (n : Nat) : wordOf n = BitVec.ofNat 32 n :=
  BitVec.ofInt_natCast 32 n

@[simp] theorem wordOf_toUint32 : wordOf (toUint32 a) = wordOf a := by
  unfold toUint32
  rw [wordOf_natCast, BitVec.ofNat_toNat, BitVec.setWidth_eq]

@[simp] theorem wordOf_add : wordOf (a + b) = wordOf a + wordOf b :=
  BitVec.ofInt_add a b

@[simp] theorem wordOf_bitAnd : wordOf (bitAnd a b) = wordOf a &&& wordOf b :=
  BitVec.ofInt_toInt

@[simp] theorem wordOf_bitOr : wordOf (bitOr a b) = wordOf a ||| wordOf b :=
  BitVec.ofInt_toInt

@[simp] theorem wordOf_bitXor : wordOf (bitXor a b) = wordOf a ^^^ wordOf b :=
  BitVec.ofInt_toInt

@[simp] theorem wordOf_bitNot : wordOf (bitNot a) = ~~~wordOf a :=
  BitVec.ofInt_toInt

@[simp] theorem wordOf_shiftLeft (count : Nat) :
    wordOf (shiftLeft a count) = wordOf a <<< (count % 32) :=
  BitVec.ofInt_toInt

@[simp] theorem wordOf_shiftRightUnsigned (count : Nat) :
    wordOf (shiftRightUnsigned a count) = wordOf a >>> (count % 32) := by
  unfold shiftRightUnsigned
  rw [wordOf_natCast, BitVec.ofNat_toNat, BitVec.setWidth_eq]

/-- An unsigned word is its own number. -/
theorem toUint32_toUint32 : toUint32 (toUint32 a) = toUint32 a := by
  have h := wordOf_toUint32 a
  unfold toUint32 at h ⊢
  rw [h]

end Words

/-! ## Counted loops -/

section Loops

variable {σ : Type*}

/-- `for (let index = start; index < start + count; index += 1)` -/
def forRange (start count : Nat) (body : Nat → σ → σ) (s : σ) : σ :=
  (List.range' start count).foldl (fun s index => body index s) s

/-- What every turn of a loop carries on holds after the last one. -/
theorem forRange_invariant {start count stop : Nat} {body : Nat → σ → σ} {s : σ}
    (hstop : start + count = stop) (I : Nat → σ → Prop) (hstart : I start s)
    (hstep : ∀ index s, start ≤ index → index < stop → I index s → I (index + 1) (body index s)) :
    I stop (forRange start count body s) := by
  induction count generalizing stop with
  | zero => exact hstop ▸ hstart
  | succ count ih =>
      have hlast : start + count < stop := by omega
      have hbefore := ih rfl fun index s hle hlt => hstep index s hle (by omega)
      unfold forRange at hbefore ⊢
      rw [← hstop, List.range'_concat, List.foldl_append, Nat.one_mul]
      exact hstep _ _ (Nat.le_add_right start count) (hstop.symm ▸ hlast) hbefore

end Loops

end GoatCitadel.Support
