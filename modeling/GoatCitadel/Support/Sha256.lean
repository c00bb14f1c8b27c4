import Mathlib.Data.Nat.Prime.Basic

/-!
# SHA-256

The hash function of FIPS 180-4, over messages of bits.  A message is padded to blocks of
512 bits, every block is expanded to a schedule of 64 words, and 64 rounds mix the schedule
into the hash value of the blocks before it.
-/

namespace GoatCitadel.Support.Sha256

abbrev Word := BitVec 32

/-! ## Functions -/

section Functions

def rotr (n : Nat) (x : Word) : Word :=
  (x >>> n) ||| (x <<< (32 - n))

def ch (x y z : Word) : Word :=
  (x &&& y) ^^^ (~~~x &&& z)

def maj (x y z : Word) : Word :=
  (x &&& y) ^^^ (x &&& z) ^^^ (y &&& z)

/-- The functions of the rounds. -/
def upperSigma0 (x : Word) : Word :=
  rotr 2 x ^^^ rotr 13 x ^^^ rotr 22 x

def upperSigma1 (x : Word) : Word :=
  rotr 6 x ^^^ rotr 11 x ^^^ rotr 25 x

/-- The functions of the schedule. -/
def lowerSigma0 (x : Word) : Word :=
  rotr 7 x ^^^ rotr 18 x ^^^ (x >>> 3)

def lowerSigma1 (x : Word) : Word :=
  rotr 17 x ^^^ rotr 19 x ^^^ (x >>> 10)

end Functions

/-! ## Constants -/

/-- The greatest number below `root + 2 ^ bits` whose power is at most `n`. -/
def greatestRoot (power n : Nat) : Nat → Nat → Nat
  | 0, root => root
  | bits + 1, root =>
      if (root + 2 ^ bits) ^ power ≤ n then greatestRoot power n bits (root + 2 ^ bits)
      else greatestRoot power n bits root

/-- The first 32 bits of the fractional part of a root of a small number. -/
def rootFraction (power p : Nat) : Word :=
  BitVec.ofNat 32 (greatestRoot power (p * 2 ^ (32 * power)) 40 0)

/-- The first 64 primes. -/
def primes : List Nat := [
  2, 3, 5, 7, 11, 13, 17, 19, 23, 29, 31, 37, 41, 43, 47, 53, 59, 61, 67, 71, 73, 79, 83, 89, 97,
  101, 103, 107, 109, 113, 127, 131, 137, 139, 149, 151, 157, 163, 167, 173, 179, 181, 191, 193,
  197, 199, 211, 223, 227, 229, 233, 239, 241, 251, 257, 263, 269, 271, 277, 281, 283, 293, 307,
  311]

/-- The constants of the rounds come from the cube roots of the primes. -/
def roundConstant (t : Nat) : Word :=
  rootFraction 3 (primes.getD t 0)

/-! ## Hash values -/

/-- The eight words of a hash value, or the eight working variables. -/
structure Octet (α : Type*) where
  a : α
  b : α
  c : α
  d : α
  e : α
  f : α
  g : α
  h : α
  deriving DecidableEq

def Octet.map {α β : Type*} (convert : α → β) (s : Octet α) : Octet β :=
  ⟨convert s.a, convert s.b, convert s.c, convert s.d, convert s.e, convert s.f, convert s.g,
    convert s.h⟩

def Octet.zipWith {α β γ : Type*} (combine : α → β → γ) (s : Octet α) (s' : Octet β) : Octet γ :=
  ⟨combine s.a s'.a, combine s.b s'.b, combine s.c s'.c, combine s.d s'.d, combine s.e s'.e,
    combine s.f s'.f, combine s.g s'.g, combine s.h s'.h⟩

def Octet.toList {α : Type*} (s : Octet α) : List α :=
  [s.a, s.b, s.c, s.d, s.e, s.f, s.g, s.h]

/-- The first hash value comes from the square roots of the first primes. -/
def initialHash : Octet Word :=
  Octet.map (rootFraction 2) ⟨2, 3, 5, 7, 11, 13, 17, 19⟩

/-! ## Padding -/

/-- A number with `width` bits, the greatest one first. -/
def bitsOfNat (width n : Nat) : List Bool :=
  (List.range width).map fun i => n.testBit (width - 1 - i)

/-- The number whose bits these are. -/
def natOfBits (bits : List Bool) : Nat :=
  bits.foldl (fun n bit => 2 * n + bit.toNat) 0

/-- The smallest number of zeros after which a block has place for the length. -/
def paddingZeros (length : Nat) : Nat :=
  (960 - (length + 1) % 512) % 512

def pad (message : List Bool) : List Bool :=
  message ++ true :: (List.replicate (paddingZeros message.length) false ++
    bitsOfNat 64 message.length)

/-! ## The hash -/

/-- The schedule of a block of 16 words. -/
def schedule (block : Nat → Word) (t : Nat) : Word :=
  if _h : t < 16 then block t
  else
    lowerSigma1 (schedule block (t - 2)) + schedule block (t - 7) +
      lowerSigma0 (schedule block (t - 15)) + schedule block (t - 16)
termination_by t

def round (constant word : Word) (s : Octet Word) : Octet Word :=
  let t1 := s.h + upperSigma1 s.e + ch s.e s.f s.g + constant + word
  let t2 := upperSigma0 s.a + maj s.a s.b s.c
  ⟨t1 + t2, s.a, s.b, s.c, s.d + t1, s.e, s.f, s.g⟩

/-- The working variables after the first rounds. -/
def rounds (block : Nat → Word) (s : Octet Word) : Nat → Octet Word
  | 0 => s
  | t + 1 => round (roundConstant t) (schedule block t) (rounds block s t)

def compress (block : Nat → Word) (s : Octet Word) : Octet Word :=
  s.zipWith (· + ·) (rounds block s 64)

/-- The hash value after the first blocks. -/
def hashBlocks (blocks : Nat → Nat → Word) : Nat → Octet Word
  | 0 => initialHash
  | i + 1 => compress (blocks i) (hashBlocks blocks i)

/-- A word of a block of a padded message. -/
def wordAt (bits : List Bool) (i j : Nat) : Word :=
  BitVec.ofNat 32 (natOfBits ((bits.drop (512 * i + 32 * j)).take 32))

def sha256 (message : List Bool) : Octet Word :=
  hashBlocks (wordAt (pad message)) ((pad message).length / 512)

/-- The bits of a message of bytes. -/
def bitsOfBytes (bytes : List UInt8) : List Bool :=
  bytes.flatMap fun byte => bitsOfNat 8 byte.toNat

/-- A number with `width` lower-case hexadecimal digits. -/
def hexDigits (width n : Nat) : List Char :=
  (List.range width).map fun i => Nat.digitChar (n / 16 ^ (width - 1 - i) % 16)

def hexDigest (s : Octet Word) : List Char :=
  s.toList.flatMap fun word => hexDigits 8 word.toNat

/-! ## Bits -/

section Bits

variable (width n : Nat)

@[simp] theorem length_bitsOfNat : (bitsOfNat width n).length = width := by
  rw [bitsOfNat, List.length_map, List.length_range]

/-- The first bits are those of the quotient. -/
theorem bitsOfNat_add (width' : Nat) :
    bitsOfNat (width + width') n = bitsOfNat width (n / 2 ^ width') ++ bitsOfNat width' n := by
  unfold bitsOfNat
  rw [List.range_add, List.map_append, List.map_map]
  congr 1
  · apply List.map_congr_left
    intro i hi
    have hlt := List.mem_range.mp hi
    rw [Nat.testBit_div_two_pow]
    congr 1
    omega
  · apply List.map_congr_left
    intro i _
    rw [Function.comp_apply]
    congr 1
    omega

/-- A number has the bits of its remainder. -/
theorem bitsOfNat_mod : bitsOfNat width (n % 2 ^ width) = bitsOfNat width n := by
  unfold bitsOfNat
  apply List.map_congr_left
  intro i hi
  have hlt := List.mem_range.mp hi
  rw [Nat.testBit_mod_two_pow, decide_eq_true (by omega), Bool.true_and]

theorem foldl_bits (bits : List Bool) :
    bits.foldl (fun n bit => 2 * n + bit.toNat) n = n * 2 ^ bits.length + natOfBits bits := by
  induction bits generalizing n with
  | nil => exact (Nat.mul_one n).symm
  | cons bit bits ih =>
      unfold natOfBits
      rw [List.foldl_cons, List.foldl_cons, ih, ih (2 * 0 + bit.toNat), List.length_cons,
        Nat.pow_succ, Nat.mul_zero, Nat.zero_add, Nat.add_mul, Nat.add_assoc]
      congr 1
      rw [Nat.mul_comm 2 n, Nat.mul_assoc, Nat.mul_comm 2]

theorem natOfBits_append (front back : List Bool) :
    natOfBits (front ++ back) = natOfBits front * 2 ^ back.length + natOfBits back := by
  rw [← foldl_bits]
  exact List.foldl_append

theorem natOfBits_bitsOfNat : natOfBits (bitsOfNat width n) = n % 2 ^ width := by
  induction width generalizing n with
  | zero => exact (Nat.mod_one n).symm
  | succ width ih =>
      rw [bitsOfNat_add, natOfBits_append, ih, length_bitsOfNat, Nat.pow_one, Nat.pow_succ',
        Nat.mod_mul, Nat.add_comm, Nat.mul_comm 2]
      congr 1
      change 2 * 0 + (n.testBit 0).toNat = n % 2
      rw [Nat.testBit_zero]
      obtain heven | hodd := Nat.mod_two_eq_zero_or_one n
      · rw [heven]
        rfl
      · rw [hodd]
        rfl

end Bits

/-! ## Bytes -/

section Bytes

variable (bytes more : List UInt8)

theorem bitsOfBytes_append :
    bitsOfBytes (bytes ++ more) = bitsOfBytes bytes ++ bitsOfBytes more :=
  List.flatMap_append

theorem bitsOfBytes_cons (byte : UInt8) :
    bitsOfBytes (byte :: bytes) = bitsOfNat 8 byte.toNat ++ bitsOfBytes bytes :=
  List.flatMap_cons

theorem length_bitsOfBytes : (bitsOfBytes bytes).length = 8 * bytes.length := by
  induction bytes with
  | nil => rfl
  | cons byte bytes ih =>
      rw [bitsOfBytes_cons, List.length_append, length_bitsOfNat, ih, List.length_cons]
      omega

theorem drop_bitsOfBytes (count : Nat) :
    (bitsOfBytes bytes).drop (8 * count) = bitsOfBytes (bytes.drop count) := by
  induction bytes generalizing count with
  | nil => rw [List.drop_nil, bitsOfBytes, List.flatMap_nil, List.drop_nil]
  | cons byte bytes ih =>
      cases count with
      | zero => rfl
      | succ count =>
          rw [List.drop_succ_cons, ← ih, bitsOfBytes_cons, Nat.mul_succ, Nat.add_comm,
            ← List.drop_drop, List.drop_left' (length_bitsOfNat 8 byte.toNat)]

theorem take_bitsOfBytes (count : Nat) :
    (bitsOfBytes bytes).take (8 * count) = bitsOfBytes (bytes.take count) := by
  by_cases hcount : count ≤ bytes.length
  · conv_lhs => rw [← List.take_append_drop count bytes, bitsOfBytes_append]
    apply List.take_left'
    rw [length_bitsOfBytes, List.length_take, min_eq_left hcount]
  · rw [List.take_of_length_le (by rw [length_bitsOfBytes]; omega),
      List.take_of_length_le (by omega)]

/-- The words of a padded message, by its bytes. -/
theorem wordAt_bitsOfBytes (i j : Nat) :
    wordAt (bitsOfBytes bytes) i j =
      BitVec.ofNat 32 (natOfBits (bitsOfBytes ((bytes.drop (64 * i + 4 * j)).take 4))) := by
  have hoffset : 512 * i + 32 * j = 8 * (64 * i + 4 * j) := by omega
  unfold wordAt
  rw [hoffset, drop_bitsOfBytes]
  exact congrArg (fun bits => BitVec.ofNat 32 (natOfBits bits)) (take_bitsOfBytes _ 4)

theorem natOfBits_bitsOfBytes_cons (byte : UInt8) :
    natOfBits (bitsOfBytes (byte :: bytes)) =
      byte.toNat * 256 ^ bytes.length + natOfBits (bitsOfBytes bytes) := by
  rw [bitsOfBytes_cons, natOfBits_append, natOfBits_bitsOfNat, length_bitsOfBytes, Nat.pow_mul,
    Nat.mod_eq_of_lt byte.toNat_lt]

end Bytes

/-! ## Hexadecimal digits -/

section Digits

variable {width n : Nat}

theorem hexDigits_succ (width n : Nat) :
    hexDigits (width + 1) n = hexDigits width (n / 16) ++ [Nat.digitChar (n % 16)] := by
  unfold hexDigits
  rw [List.range_succ, List.map_append]
  congr 1
  · apply List.map_congr_left
    intro i hi
    have hlt := List.mem_range.mp hi
    rw [Nat.div_div_eq_div_mul, ← Nat.pow_succ']
    congr 4
    omega
  · rw [List.map_singleton, Nat.add_sub_cancel, Nat.sub_self, Nat.pow_zero, Nat.div_one]

theorem hexDigits_zero (width : Nat) : hexDigits width 0 = List.replicate width '0' := by
  unfold hexDigits
  rw [List.map_congr_left (g := fun _ => '0') fun i _ => by rw [Nat.zero_div]; rfl,
    List.map_const', List.length_range]

/-- A shorter number is filled up with zeros. -/
theorem leftpad_toDigits (hwidth : 1 ≤ width) (hn : n < 16 ^ width) :
    (Nat.toDigits 16 n).leftpad width '0' = hexDigits width n := by
  induction width generalizing n with
  | zero => omega
  | succ width ih =>
      rw [hexDigits_succ]
      by_cases hlt : n < 16
      · rw [Nat.toDigits_of_lt_base hlt, Nat.div_eq_of_lt hlt, Nat.mod_eq_of_lt hlt,
          hexDigits_zero]
        rfl
      · have hdigits := Nat.toDigits_of_base_le (by decide) (Nat.le_of_not_lt hlt)
        have hwidth : 1 ≤ width := by
          by_contra hzero
          obtain rfl : width = 0 := by omega
          exact hlt hn
        have hquotient : n / 16 < 16 ^ width := by
          rw [Nat.pow_succ] at hn
          exact Nat.div_lt_of_lt_mul (by omega)
        rw [hdigits, ← ih hwidth hquotient]
        unfold List.leftpad
        rw [List.length_append, List.length_singleton, Nat.add_sub_add_right, List.append_assoc]

end Digits

end GoatCitadel.Support.Sha256
