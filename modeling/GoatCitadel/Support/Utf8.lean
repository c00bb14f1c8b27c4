import GoatCitadel.Support.Text
import Mathlib.Data.List.Basic
import Mathlib.Data.List.Infix
import Mathlib.Tactic.Ring
import Mathlib.Tactic.SplitIfs

/-!
# UTF-8

A text is encoded character by character.  The decoder reads any bytes: a sequence that is
cut off or broken gives a replacement character, and the byte that broke it is read again.
A byte below 0x80 is a character wherever it stands, so what is decoded up to it, and after
it, does not depend on the other side.
-/

namespace GoatCitadel.Support

def utf8Encode (text : List Char) : List UInt8 :=
  text.flatMap String.utf8EncodeChar

/-- The number of bytes of a text. -/
def utf8Length (text : List Char) : Nat :=
  (utf8Encode text).length

/-! ## The decoder -/

/-- Between characters, or inside a sequence: how many bytes follow the next one, between
which bounds that one is, and the bits that were read. -/
inductive Utf8State
  | start
  | inside (rest lower upper point : Nat) (lower_ge : 0x80 ≤ lower)

def replacementChar : Char := '\uFFFD'

/-- The first byte of a sequence. -/
def Utf8State.lead (byte : Nat) : List Char × Utf8State :=
  if byte ≤ 0x7F then ([Char.ofNat byte], .start)
  else if 0xC2 ≤ byte ∧ byte ≤ 0xDF then ([], .inside 0 0x80 0xBF (byte % 32) le_rfl)
  else if byte = 0xE0 then ([], .inside 1 0xA0 0xBF 0 (by decide))
  else if byte = 0xED then ([], .inside 1 0x80 0x9F 13 le_rfl)
  else if 0xE0 ≤ byte ∧ byte ≤ 0xEF then ([], .inside 1 0x80 0xBF (byte % 16) le_rfl)
  else if byte = 0xF0 then ([], .inside 2 0x90 0xBF 0 (by decide))
  else if byte = 0xF4 then ([], .inside 2 0x80 0x8F 4 le_rfl)
  else if 0xF0 ≤ byte ∧ byte ≤ 0xF4 then ([], .inside 2 0x80 0xBF (byte % 8) le_rfl)
  else ([replacementChar], .start)

/-- A byte: the characters that it ends, and the state after it. -/
def Utf8State.read (byte : Nat) : Utf8State → List Char × Utf8State
  | .start => lead byte
  | .inside rest lower upper point _ =>
      if lower ≤ byte ∧ byte ≤ upper then
        match rest with
        | 0 => ([Char.ofNat (point * 64 + byte % 64)], .start)
        | rest + 1 => ([], .inside rest 0x80 0xBF (point * 64 + byte % 64) le_rfl)
      else (replacementChar :: (lead byte).1, (lead byte).2)

def utf8DecodeFrom : Utf8State → List UInt8 → List Char
  | .start, [] => []
  | .inside .., [] => [replacementChar]
  | state, byte :: bytes =>
      (state.read byte.toNat).1 ++ utf8DecodeFrom (state.read byte.toNat).2 bytes

/-- `Buffer.toString("utf8")` -/
def utf8Decode (bytes : List UInt8) : List Char :=
  utf8DecodeFrom .start bytes

/-! ## Sequences -/

/-- The bytes of a character. -/
theorem utf8EncodeChar_cases (c : Char) :
    (c.toNat ≤ 0x7F ∧ ∃ b₀, String.utf8EncodeChar c = [b₀] ∧ b₀.toNat = c.toNat) ∨
    (0x80 ≤ c.toNat ∧ c.toNat ≤ 0x7FF ∧ ∃ b₀ b₁, String.utf8EncodeChar c = [b₀, b₁] ∧
      b₀.toNat = 0xC0 + c.toNat / 64 ∧ b₁.toNat = 0x80 + c.toNat % 64) ∨
    (0x800 ≤ c.toNat ∧ c.toNat ≤ 0xFFFF ∧ ∃ b₀ b₁ b₂, String.utf8EncodeChar c = [b₀, b₁, b₂] ∧
      b₀.toNat = 0xE0 + c.toNat / 4096 ∧ b₁.toNat = 0x80 + c.toNat / 64 % 64 ∧
        b₂.toNat = 0x80 + c.toNat % 64) ∨
    (0x10000 ≤ c.toNat ∧ c.toNat ≤ 0x10FFFF ∧
      ∃ b₀ b₁ b₂ b₃, String.utf8EncodeChar c = [b₀, b₁, b₂, b₃] ∧
        b₀.toNat = 0xF0 + c.toNat / 262144 ∧ b₁.toNat = 0x80 + c.toNat / 4096 % 64 ∧
          b₂.toNat = 0x80 + c.toNat / 64 % 64 ∧ b₃.toNat = 0x80 + c.toNat % 64) := by
  have hmax : c.toNat ≤ 0x10FFFF := by
    have hvalid := c.valid
    unfold UInt32.isValidChar Nat.isValidChar at hvalid
    change c.val.toNat ≤ _
    omega
  have hval : c.val.toNat = c.toNat := rfl
  unfold String.utf8EncodeChar
  rw [hval]
  dsimp only
  split_ifs with h₁ h₂ h₃
  · refine .inl ⟨h₁, _, rfl, ?_⟩
    rw [UInt8.toNat_ofNat']
    omega
  · refine .inr (.inl ⟨by omega, h₂, _, _, rfl, ?_, ?_⟩)
    · rw [UInt8.toNat_ofNat']
      omega
    · rw [UInt8.toNat_ofNat']
      omega
  · refine .inr (.inr (.inl ⟨by omega, h₃, _, _, _, rfl, ?_, ?_, ?_⟩))
    · rw [UInt8.toNat_ofNat']
      omega
    · rw [UInt8.toNat_ofNat']
      omega
    · rw [UInt8.toNat_ofNat']
      omega
  · refine .inr (.inr (.inr ⟨by omega, hmax, _, _, _, _, rfl, ?_, ?_, ?_, ?_⟩))
    · rw [UInt8.toNat_ofNat']
      omega
    · rw [UInt8.toNat_ofNat']
      omega
    · rw [UInt8.toNat_ofNat']
      omega
    · rw [UInt8.toNat_ofNat']
      omega

theorem not_surrogate (c : Char) : ¬(0xD800 ≤ c.toNat ∧ c.toNat ≤ 0xDFFF) := by
  have hvalid := c.valid
  unfold UInt32.isValidChar Nat.isValidChar at hvalid
  change ¬(0xD800 ≤ c.val.toNat ∧ c.val.toNat ≤ 0xDFFF)
  omega

section Decoding

variable {bytes : List UInt8} {byte : UInt8} {rest lower upper point : Nat} {h : 0x80 ≤ lower}

theorem utf8DecodeFrom_cons (state : Utf8State) :
    utf8DecodeFrom state (byte :: bytes) =
      (state.read byte.toNat).1 ++ utf8DecodeFrom (state.read byte.toNat).2 bytes := by
  cases state <;> rfl

/-- The last byte of a sequence. -/
theorem utf8DecodeFrom_last (hlower : lower ≤ byte.toNat) (hupper : byte.toNat ≤ upper) :
    utf8DecodeFrom (.inside 0 lower upper point h) (byte :: bytes) =
      Char.ofNat (point * 64 + byte.toNat % 64) :: utf8DecodeFrom .start bytes := by
  rw [utf8DecodeFrom_cons, Utf8State.read, if_pos ⟨hlower, hupper⟩]
  rfl

theorem utf8DecodeFrom_next (hlower : lower ≤ byte.toNat) (hupper : byte.toNat ≤ upper) :
    utf8DecodeFrom (.inside (rest + 1) lower upper point h) (byte :: bytes) =
      utf8DecodeFrom (.inside rest 0x80 0xBF (point * 64 + byte.toNat % 64) le_rfl) bytes := by
  rw [utf8DecodeFrom_cons, Utf8State.read, if_pos ⟨hlower, hupper⟩]
  rfl

/-- A byte that does not continue the sequence breaks it. -/
theorem Utf8State.read_broken {byte : Nat} (hbroken : ¬(lower ≤ byte ∧ byte ≤ upper)) :
    (Utf8State.inside rest lower upper point h).read byte =
      (replacementChar :: (lead byte).1, (lead byte).2) := by
  cases rest <;> exact if_neg hbroken

/-- The bytes of a character are decoded as the character. -/
theorem utf8Decode_encodeChar_append (c : Char) :
    utf8Decode (String.utf8EncodeChar c ++ bytes) = c :: utf8Decode bytes := by
  have hscalar := not_surrogate c
  have hchar : ∀ n, n = c.toNat → Char.ofNat n = c := by
    rintro n rfl
    exact Char.ofNat_toNat c
  unfold utf8Decode
  obtain ⟨hle, b₀, hbytes, h₀⟩ | ⟨hge, hle, b₀, b₁, hbytes, h₀, h₁⟩ |
    ⟨hge, hle, b₀, b₁, b₂, hbytes, h₀, h₁, h₂⟩ |
    ⟨hge, hle, b₀, b₁, b₂, b₃, hbytes, h₀, h₁, h₂, h₃⟩ := utf8EncodeChar_cases c
  · rw [hbytes, List.singleton_append, utf8DecodeFrom_cons, Utf8State.read, Utf8State.lead,
      if_pos (by omega), h₀, Char.ofNat_toNat]
    rfl
  · rw [hbytes, List.cons_append, List.singleton_append, utf8DecodeFrom_cons, Utf8State.read,
      Utf8State.lead, if_neg (by omega), if_pos (by omega)]
    refine (utf8DecodeFrom_last (by omega) (by omega)).trans ?_
    rw [hchar _ (by omega)]
  · rw [hbytes, List.cons_append, List.cons_append, List.singleton_append, utf8DecodeFrom_cons,
      Utf8State.read, Utf8State.lead, if_neg (by omega), if_neg (by omega)]
    by_cases hlow : b₀.toNat = 0xE0
    · rw [if_pos hlow]
      refine (utf8DecodeFrom_next (by omega) (by omega)).trans ?_
      rw [utf8DecodeFrom_last (by omega) (by omega), hchar _ (by omega)]
    · rw [if_neg hlow]
      by_cases hhigh : b₀.toNat = 0xED
      · rw [if_pos hhigh]
        refine (utf8DecodeFrom_next (by omega) (by omega)).trans ?_
        rw [utf8DecodeFrom_last (by omega) (by omega), hchar _ (by omega)]
      · rw [if_neg hhigh, if_pos (by omega)]
        refine (utf8DecodeFrom_next (by omega) (by omega)).trans ?_
        rw [utf8DecodeFrom_last (by omega) (by omega), hchar _ (by omega)]
  · rw [hbytes, List.cons_append, List.cons_append, List.cons_append, List.singleton_append,
      utf8DecodeFrom_cons, Utf8State.read, Utf8State.lead, if_neg (by omega),
      if_neg (by omega), if_neg (by omega), if_neg (by omega), if_neg (by omega)]
    by_cases hlow : b₀.toNat = 0xF0
    · rw [if_pos hlow]
      refine (utf8DecodeFrom_next (by omega) (by omega)).trans ?_
      rw [utf8DecodeFrom_next (by omega) (by omega), utf8DecodeFrom_last (by omega) (by omega),
        hchar _ (by omega)]
    · rw [if_neg hlow]
      by_cases hhigh : b₀.toNat = 0xF4
      · rw [if_pos hhigh]
        refine (utf8DecodeFrom_next (by omega) (by omega)).trans ?_
        rw [utf8DecodeFrom_next (by omega) (by omega), utf8DecodeFrom_last (by omega) (by omega),
          hchar _ (by omega)]
      · rw [if_neg hhigh, if_pos (by omega)]
        refine (utf8DecodeFrom_next (by omega) (by omega)).trans ?_
        rw [utf8DecodeFrom_next (by omega) (by omega), utf8DecodeFrom_last (by omega) (by omega),
          hchar _ (by omega)]

theorem utf8Decode_encode_append (text : List Char) :
    utf8Decode (utf8Encode text ++ bytes) = text ++ utf8Decode bytes := by
  induction text with
  | nil => rfl
  | cons c text ih =>
      rw [utf8Encode, List.flatMap_cons, List.append_assoc, utf8Decode_encodeChar_append]
      exact congrArg (c :: ·) ih

theorem utf8Decode_encode (text : List Char) : utf8Decode (utf8Encode text) = text := by
  have hempty := @utf8Decode_encode_append [] text
  rwa [List.append_nil, show utf8Decode [] = [] from rfl, List.append_nil] at hempty

/-- A byte below 0x80 ends what is before it. -/
theorem utf8DecodeFrom_append_ascii (state : Utf8State) (front : List UInt8)
    (hascii : byte.toNat ≤ 0x7F) :
    utf8DecodeFrom state (front ++ byte :: bytes) =
      utf8DecodeFrom state front ++ Char.ofNat byte.toNat :: utf8Decode bytes := by
  have hlead : Utf8State.lead byte.toNat = ([Char.ofNat byte.toNat], .start) :=
    if_pos hascii
  induction front generalizing state with
  | nil =>
      rw [List.nil_append, utf8DecodeFrom_cons]
      cases state with
      | start =>
          rw [Utf8State.read, hlead]
          rfl
      | inside rest lower upper point hlower =>
          rw [Utf8State.read_broken (by omega), hlead]
          rfl
  | cons first front ih =>
      rw [List.cons_append, utf8DecodeFrom_cons, utf8DecodeFrom_cons, ih, List.append_assoc]

theorem utf8Decode_append_ascii (front : List UInt8) (hascii : byte.toNat ≤ 0x7F) :
    utf8Decode (front ++ byte :: bytes) =
      utf8Decode front ++ Char.ofNat byte.toNat :: utf8Decode bytes :=
  utf8DecodeFrom_append_ascii .start front hascii

end Decoding

/-! ## Bytes below 0x80 -/

/-- A sequence ends in a character from 0x80 on. -/
def Utf8State.Sound : Utf8State → Prop
  | .start => True
  | .inside rest lower upper point _ =>
      upper ≤ 0xBF ∧ 0x80 ≤ (point * 64 + (lower - 0x80)) * 64 ^ rest

section Ascii

variable {byte : Nat} {state : Utf8State}

theorem toNat_ofNat_of_pos {n : Nat} (h : 0 < (Char.ofNat n).toNat) : (Char.ofNat n).toNat = n := by
  by_cases hvalid : n.isValidChar
  · have hchar : Char.ofNat n = Char.ofNatAux n hvalid := dif_pos hvalid
    rw [hchar]
    rfl
  · have hzero : (Char.ofNat n).toNat = 0 := congrArg Char.toNat (dif_neg hvalid)
    rw [hzero] at h
    exact absurd h (lt_irrefl 0)

theorem Utf8State.sound_lead :
    (lead byte).2.Sound ∧
      ∀ c ∈ (lead byte).1, 0 < c.toNat → c.toNat < 0x80 → c.toNat = byte := by
  have hnone : ∀ c ∈ ([] : List Char), 0 < c.toNat → c.toNat < 0x80 → c.toNat = byte :=
    fun c hc => absurd hc List.not_mem_nil
  unfold lead
  split_ifs with h₁ h₂ h₃ h₄ h₅ h₆ h₇ h₈
  · refine ⟨trivial, fun c hc hpos _ => ?_⟩
    obtain rfl := List.mem_singleton.mp hc
    exact toNat_ofNat_of_pos hpos
  · exact ⟨⟨le_rfl, by omega⟩, hnone⟩
  · exact ⟨⟨le_rfl, by decide⟩, hnone⟩
  · exact ⟨⟨by decide, by decide⟩, hnone⟩
  · exact ⟨⟨le_rfl, by omega⟩, hnone⟩
  · exact ⟨⟨le_rfl, by decide⟩, hnone⟩
  · exact ⟨⟨by decide, by decide⟩, hnone⟩
  · exact ⟨⟨le_rfl, by omega⟩, hnone⟩
  · refine ⟨trivial, fun c hc _ hlt => ?_⟩
    obtain rfl := List.mem_singleton.mp hc
    exact absurd hlt (by decide)

theorem Utf8State.sound_read (h : state.Sound) :
    (state.read byte).2.Sound ∧
      ∀ c ∈ (state.read byte).1, 0 < c.toNat → c.toNat < 0x80 → c.toNat = byte := by
  cases state with
  | start => exact sound_lead
  | inside rest lower upper point hlower =>
      obtain ⟨hupper, hleast⟩ := h
      by_cases hrange : lower ≤ byte ∧ byte ≤ upper
      · have hmore : point * 64 + (lower - 0x80) ≤ point * 64 + byte % 64 := by omega
        cases rest with
        | zero =>
            have hread : (Utf8State.inside 0 lower upper point hlower).read byte =
                ([Char.ofNat (point * 64 + byte % 64)], .start) := if_pos hrange
            rw [hread]
            refine ⟨trivial, fun c hc hpos hlt => ?_⟩
            obtain rfl := List.mem_singleton.mp hc
            rw [toNat_ofNat_of_pos hpos] at hlt
            rw [pow_zero, mul_one] at hleast
            omega
        | succ rest =>
            have hread : (Utf8State.inside (rest + 1) lower upper point hlower).read byte =
                ([], .inside rest 0x80 0xBF (point * 64 + byte % 64) le_rfl) := if_pos hrange
            rw [hread]
            refine ⟨⟨le_rfl, ?_⟩, fun c hc => absurd hc List.not_mem_nil⟩
            calc 0x80 ≤ (point * 64 + (lower - 0x80)) * 64 ^ (rest + 1) := hleast
              _ ≤ (point * 64 + byte % 64) * 64 ^ (rest + 1) := Nat.mul_le_mul_right _ hmore
              _ = ((point * 64 + byte % 64) * 64 + (0x80 - 0x80)) * 64 ^ rest := by
                  rw [pow_succ]
                  ring
      · rw [read_broken hrange]
        refine ⟨sound_lead.1, fun c hc hpos hlt => ?_⟩
        obtain rfl | hc := List.mem_cons.mp hc
        · exact absurd hlt (by decide)
        · exact sound_lead.2 c hc hpos hlt

/-- A character below 0x80 comes from its byte. -/
theorem mem_of_mem_utf8DecodeFrom {bytes : List UInt8} (h : state.Sound) {c : Char}
    (hc : c ∈ utf8DecodeFrom state bytes) (hpos : 0 < c.toNat) (hlt : c.toNat < 0x80) :
    ∃ byte ∈ bytes, byte.toNat = c.toNat := by
  induction bytes generalizing state with
  | nil =>
      cases state with
      | start => exact absurd hc List.not_mem_nil
      | inside rest lower upper point hlower =>
          obtain rfl := List.mem_singleton.mp hc
          exact absurd hlt (by decide)
  | cons byte bytes ih =>
      rw [utf8DecodeFrom_cons] at hc
      obtain ⟨hnext, hout⟩ := @Utf8State.sound_read byte.toNat state h
      obtain hc | hc := List.mem_append.mp hc
      · exact ⟨byte, List.mem_cons_self, (hout c hc hpos hlt).symm⟩
      · obtain ⟨other, hother, heq⟩ := ih hnext hc
        exact ⟨other, List.mem_cons_of_mem byte hother, heq⟩

theorem mem_of_mem_utf8Decode {bytes : List UInt8} {c : Char} (hc : c ∈ utf8Decode bytes)
    (hpos : 0 < c.toNat) (hlt : c.toNat < 0x80) : ∃ byte ∈ bytes, byte.toNat = c.toNat :=
  @mem_of_mem_utf8DecodeFrom .start _ trivial _ hc hpos hlt

end Ascii

/-! ## Code units -/

/-- The character of a code unit that is not in a pair. -/
def unitChar (unit : Nat) : Char :=
  if 0xD800 ≤ unit ∧ unit < 0xE000 then replacementChar else Char.ofNat unit

/-- The characters of a list of UTF-16 code units; a surrogate without its other half is
replaced. -/
def utf16Decode : List Nat → List Char
  | [] => []
  | [unit] => [unitChar unit]
  | high :: low :: units =>
      if (0xD800 ≤ high ∧ high < 0xDC00) ∧ 0xDC00 ≤ low ∧ low < 0xE000 then
        Char.ofNat (0x10000 + (high - 0xD800) * 0x400 + (low - 0xDC00)) :: utf16Decode units
      else unitChar high :: utf16Decode (low :: units)

theorem utf16Decode_eq_nil_iff {units : List Nat} : utf16Decode units = [] ↔ units = [] := by
  constructor
  · intro h
    induction units using utf16Decode.induct with
    | case1 => rfl
    | case2 => exact nomatch h
    | case3 high low units hpair =>
        rw [utf16Decode, if_pos hpair] at h
        exact nomatch h
    | case4 high low units hpair =>
        rw [utf16Decode, if_neg hpair] at h
        exact nomatch h
  · rintro rfl
    rfl

theorem utf8Encode_injective {text text' : List Char} (h : utf8Encode text = utf8Encode text') :
    text = text' := by
  rw [← utf8Decode_encode text, h, utf8Decode_encode]

end GoatCitadel.Support
