import GoatCitadel.Support.Alignment
import GoatCitadel.Support.Int32
import GoatCitadel.Support.Sha256
import GoatCitadel.Support.Utf8

/-!
# The digest of cell evidence

`sha256Utf8` hashes the UTF-8 bytes of a text with the 32-bit operators of the language.
They return signed numbers, which the sums reduce again, and the schedule is one array for
all the blocks.  What it returns is the SHA-256 digest.
-/

namespace GoatCitadel.Contracts.CellDigest

open GoatCitadel.Support
open GoatCitadel.Support.Sha256 (Octet Word)

/-! ## The code -/

/-- `SHA256_ROUND_CONSTANTS` -/
def sha256RoundConstants : List Int := [
  0x428a2f98, 0x71374491, 0xb5c0fbcf, 0xe9b5dba5, 0x3956c25b, 0x59f111f1, 0x923f82a4, 0xab1c5ed5,
  0xd807aa98, 0x12835b01, 0x243185be, 0x550c7dc3, 0x72be5d74, 0x80deb1fe, 0x9bdc06a7, 0xc19bf174,
  0xe49b69c1, 0xefbe4786, 0x0fc19dc6, 0x240ca1cc, 0x2de92c6f, 0x4a7484aa, 0x5cb0a9dc, 0x76f988da,
  0x983e5152, 0xa831c66d, 0xb00327c8, 0xbf597fc7, 0xc6e00bf3, 0xd5a79147, 0x06ca6351, 0x14292967,
  0x27b70a85, 0x2e1b2138, 0x4d2c6dfc, 0x53380d13, 0x650a7354, 0x766a0abb, 0x81c2c92e, 0x92722c85,
  0xa2bfe8a1, 0xa81a664b, 0xc24b8b70, 0xc76c51a3, 0xd192e819, 0xd6990624, 0xf40e3585, 0x106aa070,
  0x19a4c116, 0x1e376c08, 0x2748774c, 0x34b0bcb5, 0x391c0cb3, 0x4ed8aa4a, 0x5b9cca4f, 0x682e6ff3,
  0x748f82ee, 0x78a5636f, 0x84c87814, 0x8cc70208, 0x90befffa, 0xa4506ceb, 0xbef9a3f7, 0xc67178f2]

def initialState : Octet Int where
  a := 0x6a09e667
  b := 0xbb67ae85
  c := 0x3c6ef372
  d := 0xa54ff53a
  e := 0x510e527f
  f := 0x9b05688c
  g := 0x1f83d9ab
  h := 0x5be0cd19

def rotateRight (value : Int) (count : Nat) : Int :=
  bitOr (shiftRightUnsigned value count) (shiftLeft value (32 - count))

/-- The bytes that `setUint32` writes, the greatest one first. -/
def uint32Bytes (value : Int) : List UInt8 :=
  let word := (toUint32 value).toNat
  [UInt8.ofNat (word / 2 ^ 24), UInt8.ofNat (word / 2 ^ 16), UInt8.ofNat (word / 2 ^ 8),
    UInt8.ofNat word]

/-- `array.set(bytes, offset)` -/
def setBytes (offset : Nat) (bytes array : List UInt8) : List UInt8 :=
  array.take offset ++ bytes ++ array.drop (offset + bytes.length)

/-- `view.setUint32(offset, value, false)` -/
def setUint32 (offset : Nat) (value : Int) (view : List UInt8) : List UInt8 :=
  setBytes offset (uint32Bytes value) view

/-- `view.getUint32(offset, false)` -/
def getUint32 (offset : Nat) (view : List UInt8) : Int :=
  ((view.getD offset 0).toNat * 2 ^ 24 + (view.getD (offset + 1) 0).toNat * 2 ^ 16 +
    (view.getD (offset + 2) 0).toNat * 2 ^ 8 + (view.getD (offset + 3) 0).toNat : Nat)

/-- The bytes of the message with its padding.  The quotients are by powers of two, so they
are exact before they are rounded. -/
def paddedBytes (bytes : List UInt8) : List UInt8 :=
  let bitLength := bytes.length * 8
  let paddedLength := alignUp 64 (bytes.length + 9)
  let padded := setBytes 0 bytes (List.replicate paddedLength 0)
  let padded := setBytes bytes.length [0x80] padded
  let padded := setUint32 (paddedLength - 8) (bitLength / 0x100000000 : Nat) padded
  setUint32 (paddedLength - 4) (toUint32 bitLength) padded

/-- The words of a block are read into the schedule. -/
def loadSchedule (view : List UInt8) (offset : Nat) (schedule : List Int) : List Int :=
  forRange 0 16 (fun index schedule =>
    schedule.set index (getUint32 (offset + index * 4) view)) schedule

def extendSchedule (schedule : List Int) : List Int :=
  forRange 16 48 (fun index schedule =>
    let x := schedule.getD (index - 15) 0
    let y := schedule.getD (index - 2) 0
    let s0 := bitXor (bitXor (rotateRight x 7) (rotateRight x 18)) (shiftRightUnsigned x 3)
    let s1 := bitXor (bitXor (rotateRight y 17) (rotateRight y 19)) (shiftRightUnsigned y 10)
    schedule.set index
      (toUint32 (schedule.getD (index - 16) 0 + s0 + schedule.getD (index - 7) 0 + s1))) schedule

/-- One turn of the second loop. -/
def mixRound (schedule : List Int) (index : Nat) (v : Octet Int) : Octet Int :=
  let upper := bitXor (bitXor (rotateRight v.e 6) (rotateRight v.e 11)) (rotateRight v.e 25)
  let choice := bitXor (bitAnd v.e v.f) (bitAnd (bitNot v.e) v.g)
  let first := toUint32 (v.h + upper + choice + sha256RoundConstants.getD index 0 +
    schedule.getD index 0)
  let lower := bitXor (bitXor (rotateRight v.a 2) (rotateRight v.a 13)) (rotateRight v.a 22)
  let majority := bitXor (bitXor (bitAnd v.a v.b) (bitAnd v.a v.c)) (bitAnd v.b v.c)
  let second := toUint32 (lower + majority)
  { h := v.g
    g := v.f
    f := v.e
    e := toUint32 (v.d + first)
    d := v.c
    c := v.b
    b := v.a
    a := toUint32 (first + second) }

/-- One turn of the loop over the blocks: the state and the schedule. -/
def hashBlock (view : List UInt8) (offset : Nat) (s : Octet Int × List Int) :
    Octet Int × List Int :=
  let schedule := extendSchedule (loadSchedule view offset s.2)
  let mixed := forRange 0 64 (mixRound schedule) s.1
  (s.1.zipWith (fun x y => toUint32 (x + y)) mixed, schedule)

def hashBlocks (view : List UInt8) : Octet Int × List Int :=
  forRange 0 (view.length / 64) (fun block => hashBlock view (block * 64))
    (initialState, List.replicate 64 0)

/-- `word.toString(16)` -/
def hexText (word : Int) : List Char :=
  if word < 0 then '-' :: Nat.toDigits 16 word.natAbs else Nat.toDigits 16 word.natAbs

/-- A text is its list of code units. -/
def sha256Utf8 (value : List Nat) : List Char :=
  let bytes := utf8Encode (utf16Decode value)
  let state := (hashBlocks (paddedBytes bytes)).1
  state.toList.flatMap fun word => (hexText word).leftpad 8 '0'

/-! ## The padding -/

section Padding

variable {front rest bytes : List UInt8} {value : Int}

theorem setBytes_append (offset : Nat) :
    setBytes (front.length + offset) bytes (front ++ rest) =
      front ++ setBytes offset bytes rest := by
  unfold setBytes
  rw [List.take_length_add_append, Nat.add_assoc, List.drop_length_add_append]
  simp only [List.append_assoc]

theorem setBytes_zero (bytes rest : List UInt8) :
    setBytes 0 bytes rest = bytes ++ rest.drop bytes.length := by
  unfold setBytes
  rw [List.take_zero, List.nil_append, Nat.zero_add]

/-- The zeros between the closing bit and the length. -/
def zeroBytes (length : Nat) : Nat :=
  alignUp 64 (length + 9) - (length + 9)

theorem alignUp_eq (length : Nat) : alignUp 64 (length + 9) = length + 9 + zeroBytes length := by
  unfold zeroBytes alignUp
  omega

/-- Behind the message stand the closing bit, zeros and the length. -/
theorem paddedBytes_eq (bytes : List UInt8) :
    paddedBytes bytes =
      bytes ++ 0x80 :: (List.replicate (zeroBytes bytes.length) 0 ++
        (uint32Bytes (bytes.length * 8 / 0x100000000 : Nat) ++
          uint32Bytes (toUint32 (bytes.length * 8 : Nat)))) := by
  unfold paddedBytes
  dsimp only
  rw [alignUp_eq]
  generalize zeroBytes bytes.length = zeros
  generalize ((bytes.length * 8 / 0x100000000 : Nat) : Int) = high
  generalize toUint32 ((bytes.length * 8 : Nat) : Int) = low
  have hzeros : setBytes 0 bytes (List.replicate (bytes.length + 9 + zeros) 0) =
      bytes ++ 0 :: (List.replicate zeros 0 ++ List.replicate 8 0) := by
    rw [setBytes_zero, List.drop_replicate, ← List.replicate_add, ← List.replicate_succ]
    congr 2
    omega
  have hclosed : setBytes bytes.length [0x80]
      (bytes ++ 0 :: (List.replicate zeros 0 ++ List.replicate 8 0)) =
        (bytes ++ 0x80 :: List.replicate zeros 0) ++ List.replicate 8 0 := by
    have happend := @setBytes_append bytes (0 :: (List.replicate zeros 0 ++ List.replicate 8 0))
      [0x80] 0
    rw [Nat.add_zero] at happend
    rw [happend, setBytes_zero, List.append_assoc]
    rfl
  generalize hfront : bytes ++ 0x80 :: List.replicate zeros 0 = front at hclosed
  have hlength : front.length = bytes.length + 1 + zeros := by
    rw [← hfront, List.length_append, List.length_cons, List.length_replicate]
    omega
  have hhigh : bytes.length + 9 + zeros - 8 = front.length + 0 := by omega
  have hlow : bytes.length + 9 + zeros - 4 = front.length + 4 := by omega
  rw [hzeros, hclosed, hhigh, hlow, setUint32, setUint32, setBytes_append, setBytes_append]
  have hcells : setBytes 4 (uint32Bytes low) (setBytes 0 (uint32Bytes high)
      (List.replicate 8 0)) = uint32Bytes high ++ uint32Bytes low := rfl
  rw [hcells, ← hfront, List.append_assoc, List.cons_append]

theorem toNat_toUint32 (n : Nat) : (toUint32 n).toNat = n % 2 ^ 32 := by
  unfold toUint32
  rw [wordOf_natCast, Int.toNat_natCast, BitVec.toNat_ofNat]

/-- The bytes of a word are its bits. -/
theorem bitsOfBytes_uint32Bytes (value : Int) :
    Sha256.bitsOfBytes (uint32Bytes value) = Sha256.bitsOfNat 32 (toUint32 value).toNat := by
  unfold uint32Bytes
  dsimp only
  generalize (toUint32 value).toNat = word
  have hbyte : ∀ n : Nat, Sha256.bitsOfNat 8 (UInt8.ofNat n).toNat = Sha256.bitsOfNat 8 n :=
    fun n => by rw [UInt8.toNat_ofNat']; exact Sha256.bitsOfNat_mod 8 n
  have hsplit : Sha256.bitsOfNat 32 word =
      Sha256.bitsOfNat 8 (word / 2 ^ 24) ++ (Sha256.bitsOfNat 8 (word / 2 ^ 16) ++
        (Sha256.bitsOfNat 8 (word / 2 ^ 8) ++ Sha256.bitsOfNat 8 word)) := by
    rw [← Sha256.bitsOfNat_add, ← Sha256.bitsOfNat_add 8 word 16, ← Sha256.bitsOfNat_add 8 word 24]
  rw [hsplit, Sha256.bitsOfBytes_cons, Sha256.bitsOfBytes_cons, Sha256.bitsOfBytes_cons,
    Sha256.bitsOfBytes_cons, hbyte, hbyte, hbyte, hbyte]
  exact congrArg _ (congrArg _ (congrArg _ (List.append_nil _)))

theorem bitsOfBytes_zeros (count : Nat) :
    Sha256.bitsOfBytes (List.replicate count 0) = List.replicate (8 * count) false := by
  induction count with
  | zero => rfl
  | succ count ih =>
      rw [List.replicate_succ, Sha256.bitsOfBytes_cons, ih, Nat.mul_succ, Nat.add_comm,
        List.replicate_add]
      rfl

/-- The padded bytes are the padded message. -/
theorem bitsOfBytes_paddedBytes (bytes : List UInt8) :
    Sha256.bitsOfBytes (paddedBytes bytes) = Sha256.pad (Sha256.bitsOfBytes bytes) := by
  have hlength : Sha256.bitsOfBytes
      (uint32Bytes (bytes.length * 8 / 0x100000000 : Nat) ++
        uint32Bytes (toUint32 (bytes.length * 8 : Nat))) =
      Sha256.bitsOfNat 64 (8 * bytes.length) := by
    rw [Sha256.bitsOfBytes_append, bitsOfBytes_uint32Bytes, bitsOfBytes_uint32Bytes,
      toUint32_toUint32, toNat_toUint32, toNat_toUint32, Sha256.bitsOfNat_mod,
      Sha256.bitsOfNat_mod, Nat.mul_comm]
    exact (Sha256.bitsOfNat_add 32 _ 32).symm
  have hzeros : Sha256.paddingZeros (8 * bytes.length) = 7 + 8 * zeroBytes bytes.length := by
    unfold Sha256.paddingZeros zeroBytes alignUp
    omega
  have hclosing : Sha256.bitsOfNat 8 (0x80 : UInt8).toNat = true :: List.replicate 7 false := by
    decide
  unfold Sha256.pad
  rw [paddedBytes_eq, Sha256.bitsOfBytes_append, Sha256.bitsOfBytes_cons,
    Sha256.bitsOfBytes_append, hlength, bitsOfBytes_zeros, Sha256.length_bitsOfBytes, hzeros,
    List.replicate_add, hclosing, List.cons_append, List.append_assoc]

end Padding

/-! ## The words -/

section Words

variable {view : List UInt8} {schedule : List Int}

theorem take_four_drop {offset : Nat} (h : offset + 4 ≤ view.length) :
    (view.drop offset).take 4 = [view.getD offset 0, view.getD (offset + 1) 0,
      view.getD (offset + 2) 0, view.getD (offset + 3) 0] := by
  induction view generalizing offset with
  | nil => exact absurd h (by simp)
  | cons byte view ih =>
      cases offset with
      | zero =>
          obtain ⟨_, _, _, _, rfl⟩ : ∃ b c d rest, view = b :: c :: d :: rest := by
            match view with
            | b :: c :: d :: rest => exact ⟨b, c, d, rest, rfl⟩
            | [] | [_] | [_, _] => simp at h
          rfl
      | succ offset =>
          rw [List.length_cons] at h
          rw [List.drop_succ_cons, ih (by omega)]
          rfl

theorem wordOf_getUint32 {i j : Nat} (h : i * 64 + j * 4 + 4 ≤ view.length) :
    wordOf (getUint32 (i * 64 + j * 4) view) = Sha256.wordAt (Sha256.bitsOfBytes view) i j := by
  rw [Sha256.wordAt_bitsOfBytes, Nat.mul_comm 64 i, Nat.mul_comm 4 j, take_four_drop h]
  unfold getUint32
  rw [wordOf_natCast]
  apply congrArg
  rw [Sha256.natOfBits_bitsOfBytes_cons, Sha256.natOfBits_bitsOfBytes_cons,
    Sha256.natOfBits_bitsOfBytes_cons, Sha256.natOfBits_bitsOfBytes_cons]
  simp only [List.length_cons, List.length_nil]
  change _ = _ + (_ + (_ + (_ + 0)))
  omega

theorem wordOf_rotateRight (value : Int) {count : Nat} (hpos : 0 < count) (hlt : count < 32) :
    wordOf (rotateRight value count) = Sha256.rotr count (wordOf value) := by
  unfold rotateRight Sha256.rotr
  rw [wordOf_bitOr, wordOf_shiftRightUnsigned, wordOf_shiftLeft, Nat.mod_eq_of_lt hlt,
    Nat.mod_eq_of_lt (by omega)]

/-- The table holds the constants of the rounds. -/
theorem wordOf_sha256RoundConstants {t : Nat} (h : t < 64) :
    wordOf (sha256RoundConstants.getD t 0) = Sha256.roundConstant t := by
  have hall : (List.range 64).all (fun t =>
      wordOf (sha256RoundConstants.getD t 0) = Sha256.roundConstant t) = true := by
    decide +kernel
  exact of_decide_eq_true (List.all_eq_true.mp hall t (List.mem_range.mpr h))

theorem initialState_words : initialState.map wordOf = Sha256.initialHash := by
  decide +kernel

end Words

/-! ## The schedule -/

section Schedule

variable {view : List UInt8} {schedule : List Int} {block : Nat → Word}

/-- The first words of a schedule are there. -/
structure Scheduled (block : Nat → Word) (count : Nat) (schedule : List Int) : Prop where
  length : schedule.length = 64
  word : ∀ t < count, wordOf (schedule.getD t 0) = Sha256.schedule block t

theorem Scheduled.set {count : Nat} {value : Int} (h : Scheduled block count schedule)
    (hcount : count < 64) (hvalue : wordOf value = Sha256.schedule block count) :
    Scheduled block (count + 1) (schedule.set count value) where
  length := by rw [List.length_set, h.length]
  word := by
    intro t ht
    rw [List.getD_eq_getElem?_getD]
    by_cases hlast : t = count
    · rw [hlast, List.getElem?_set_self (by rw [h.length]; exact hcount)]
      exact hvalue
    · rw [List.getElem?_set_ne (Ne.symm hlast), ← List.getD_eq_getElem?_getD]
      exact h.word t (by omega)

theorem loadSchedule_scheduled {i : Nat} (hview : i * 64 + 64 ≤ view.length)
    (hlength : schedule.length = 64) :
    Scheduled (Sha256.wordAt (Sha256.bitsOfBytes view) i) 16
      (loadSchedule view (i * 64) schedule) := by
  refine forRange_invariant (by decide) (Scheduled (Sha256.wordAt (Sha256.bitsOfBytes view) i))
    ⟨hlength, fun t ht => absurd ht (Nat.not_lt_zero t)⟩ ?_
  intro j s _ hj hs
  refine hs.set (by omega) ?_
  rw [wordOf_getUint32 (by omega), Sha256.schedule, dif_pos (by omega)]

theorem extendSchedule_scheduled (h : Scheduled block 16 schedule) :
    Scheduled block 64 (extendSchedule schedule) := by
  refine forRange_invariant (by decide) (Scheduled block) h ?_
  intro t s hle hlt hs
  refine hs.set (by omega) ?_
  rw [Sha256.schedule, dif_neg (by omega), ← hs.word (t - 2) (by omega),
    ← hs.word (t - 7) (by omega), ← hs.word (t - 15) (by omega), ← hs.word (t - 16) (by omega)]
  simp only [wordOf_toUint32, wordOf_add, wordOf_bitXor, wordOf_shiftRightUnsigned,
    wordOf_rotateRight _ (by decide : 0 < 7) (by decide : 7 < 32),
    wordOf_rotateRight _ (by decide : 0 < 17) (by decide : 17 < 32),
    wordOf_rotateRight _ (by decide : 0 < 18) (by decide : 18 < 32),
    wordOf_rotateRight _ (by decide : 0 < 19) (by decide : 19 < 32)]
  unfold Sha256.lowerSigma0 Sha256.lowerSigma1
  ac_rfl

end Schedule

/-! ## The rounds -/

section Rounds

variable {view : List UInt8} {schedule : List Int} {block : Nat → Word}

theorem mixRound_words (h : Scheduled block 64 schedule) {t : Nat} (ht : t < 64) (v : Octet Int) :
    (mixRound schedule t v).map wordOf =
      Sha256.round (Sha256.roundConstant t) (Sha256.schedule block t) (v.map wordOf) := by
  rw [← h.word t ht, ← wordOf_sha256RoundConstants ht]
  unfold mixRound Sha256.round Octet.map Sha256.upperSigma0 Sha256.upperSigma1 Sha256.ch Sha256.maj
  simp only [wordOf_toUint32, wordOf_add, wordOf_bitXor, wordOf_bitAnd, wordOf_bitNot,
    wordOf_rotateRight _ (by decide : 0 < 2) (by decide : 2 < 32),
    wordOf_rotateRight _ (by decide : 0 < 6) (by decide : 6 < 32),
    wordOf_rotateRight _ (by decide : 0 < 11) (by decide : 11 < 32),
    wordOf_rotateRight _ (by decide : 0 < 13) (by decide : 13 < 32),
    wordOf_rotateRight _ (by decide : 0 < 22) (by decide : 22 < 32),
    wordOf_rotateRight _ (by decide : 0 < 25) (by decide : 25 < 32)]

theorem mixed_words (h : Scheduled block 64 schedule) (s : Octet Int) :
    (forRange 0 64 (mixRound schedule) s).map wordOf =
      Sha256.rounds block (s.map wordOf) 64 := by
  refine forRange_invariant (by decide)
    (fun t (v : Octet Int) => v.map wordOf = Sha256.rounds block (s.map wordOf) t) rfl ?_
  intro t v _ ht hv
  rw [mixRound_words h ht, hv]
  rfl

theorem zipWith_words (s s' : Octet Int) :
    (s.zipWith (fun x y => toUint32 (x + y)) s').map wordOf =
      (s.map wordOf).zipWith (· + ·) (s'.map wordOf) := by
  unfold Octet.zipWith Octet.map
  simp only [wordOf_toUint32, wordOf_add]

/-- A word of the state is unsigned, as the array of the state holds it. -/
def Unsigned (s : Octet Int) : Prop :=
  ∀ word ∈ s.toList, ∃ n < 2 ^ 32, word = (n : Nat)

/-- The state after the first blocks. -/
structure Hashed (view : List UInt8) (count : Nat) (s : Octet Int × List Int) : Prop where
  words : s.1.map wordOf =
    Sha256.hashBlocks (Sha256.wordAt (Sha256.bitsOfBytes view)) count
  unsigned : Unsigned s.1
  length : s.2.length = 64

theorem unsigned_toUint32 (value : Int) : ∃ n < 2 ^ 32, toUint32 value = (n : Nat) :=
  ⟨(wordOf value).toNat, (wordOf value).isLt, rfl⟩

theorem unsigned_zipWith (s s' : Octet Int) :
    Unsigned (s.zipWith (fun x y => toUint32 (x + y)) s') := by
  intro word hword
  simp only [Octet.toList, Octet.zipWith, List.mem_cons, List.not_mem_nil, or_false] at hword
  obtain rfl | rfl | rfl | rfl | rfl | rfl | rfl | rfl := hword <;> exact unsigned_toUint32 _

theorem hashed_initial (view : List UInt8) :
    Hashed view 0 (initialState, List.replicate 64 0) where
  words := initialState_words
  unsigned := by
    intro word hword
    simp only [Octet.toList, initialState, List.mem_cons, List.not_mem_nil, or_false] at hword
    obtain rfl | rfl | rfl | rfl | rfl | rfl | rfl | rfl := hword <;>
      exact ⟨_, by decide, rfl⟩
  length := List.length_replicate

/-- A block is compressed into the state. -/
theorem Hashed.succ {count : Nat} {s : Octet Int × List Int} (h : Hashed view count s)
    (hview : count * 64 + 64 ≤ view.length) :
    Hashed view (count + 1) (hashBlock view (count * 64) s) := by
  have hschedule := extendSchedule_scheduled (loadSchedule_scheduled hview h.length)
  unfold hashBlock
  dsimp only
  generalize extendSchedule (loadSchedule view (count * 64) s.2) = schedule at hschedule ⊢
  have hmixed := mixed_words hschedule s.1
  generalize forRange 0 64 (mixRound schedule) s.1 = mixed at hmixed ⊢
  exact {
    words := by
      rw [zipWith_words, hmixed, h.words]
      rfl
    unsigned := unsigned_zipWith s.1 mixed
    length := hschedule.length }

theorem hashBlocks_hashed (view : List UInt8) :
    Hashed view (view.length / 64) (hashBlocks view) := by
  refine forRange_invariant (Nat.zero_add _) (Hashed view) (hashed_initial view) ?_
  intro count s _ hcount hs
  exact hs.succ (by omega)

end Rounds

/-! ## The digest -/

theorem hexText_leftpad {word : Int} {n : Nat} (hword : word = n) (hn : n < 2 ^ 32) :
    (hexText word).leftpad 8 '0' = Sha256.hexDigits 8 (wordOf word).toNat := by
  rw [hword, wordOf_natCast, BitVec.toNat_ofNat, Nat.mod_eq_of_lt hn]
  unfold hexText
  rw [if_neg (Int.natCast_nonneg n).not_gt, Int.natAbs_natCast]
  exact Sha256.leftpad_toDigits (by decide) hn

/-- Unsigned words are written with all their digits. -/
theorem hexTexts_eq {s : Octet Int} (h : Unsigned s) :
    (s.toList.flatMap fun word => (hexText word).leftpad 8 '0') =
      Sha256.hexDigest (s.map wordOf) := by
  have hmap : (s.map wordOf).toList = s.toList.map wordOf := rfl
  unfold Sha256.hexDigest
  rw [hmap, List.flatMap_map]
  apply List.flatMap_congr
  intro word hword
  obtain ⟨n, hn, heq⟩ := h word hword
  exact hexText_leftpad heq hn

/-- The digest is the SHA-256 digest of the UTF-8 bytes, for every text. -/
theorem sha256Utf8_eq (value : List Nat) :
    sha256Utf8 value =
      Sha256.hexDigest (Sha256.sha256 (Sha256.bitsOfBytes (utf8Encode (utf16Decode value)))) := by
  unfold sha256Utf8
  generalize utf8Encode (utf16Decode value) = bytes
  have hhashed := hashBlocks_hashed (paddedBytes bytes)
  have hblocks : (Sha256.pad (Sha256.bitsOfBytes bytes)).length / 512 =
      (paddedBytes bytes).length / 64 := by
    rw [← bitsOfBytes_paddedBytes, Sha256.length_bitsOfBytes]
    omega
  unfold Sha256.sha256
  rw [hblocks, ← bitsOfBytes_paddedBytes, ← hhashed.words]
  exact hexTexts_eq hhashed.unsigned

example : sha256Utf8 (utf16Units "abc") =
    "ba7816bf8f01cfea414140de5dae2223b00361a396177a9cb410ff61f20015ad".toList := by
  decide +kernel

end GoatCitadel.Contracts.CellDigest
