import Mathlib.Data.List.Basic
import Mathlib.Tactic.SplitIfs

/-!
# The base64url encoding

Three bytes are written as four digits, and one or two last bytes as two or three digits without
padding.  The reader takes what the writer gives and nothing else, so a text stands for at most one
list of bytes and a list of bytes is written in one way.  A text is the list of its code units.
-/

namespace GoatCitadel.Support

/-! ## Digits -/

/-- The unit of a digit below 64. -/
def base64UrlDigit (value : Nat) : Nat :=
  if value < 26 then value + 65
  else if value < 52 then value + 71
  else if value < 62 then value - 4
  else if value = 62 then 45
  else 95

def readBase64UrlDigit (unit : Nat) : Option Nat :=
  if 65 ≤ unit ∧ unit ≤ 90 then some (unit - 65)
  else if 97 ≤ unit ∧ unit ≤ 122 then some (unit - 71)
  else if 48 ≤ unit ∧ unit ≤ 57 then some (unit + 4)
  else if unit = 45 then some 62
  else if unit = 95 then some 63
  else none

theorem read_base64UrlDigit {value : Nat} (h : value < 64) :
    readBase64UrlDigit (base64UrlDigit value) = some value := by
  rw [base64UrlDigit, readBase64UrlDigit]
  split_ifs <;> first | omega | exact congrArg some (by omega)

theorem readBase64UrlDigit_eq_some {unit value : Nat} (h : readBase64UrlDigit unit = some value) :
    value < 64 ∧ base64UrlDigit value = unit := by
  rw [readBase64UrlDigit] at h
  rw [base64UrlDigit]
  split_ifs at h <;> obtain rfl := Option.some_inj.mp h <;>
    exact ⟨by omega, by split_ifs <;> omega⟩

/-! ## Texts -/

def encodeBase64Url : List UInt8 → List Nat
  | [] => []
  | [a] => [base64UrlDigit (a.toNat / 4), base64UrlDigit (a.toNat % 4 * 16)]
  | [a, b] =>
      [base64UrlDigit (a.toNat / 4), base64UrlDigit (a.toNat % 4 * 16 + b.toNat / 16),
        base64UrlDigit (b.toNat % 16 * 4)]
  | a :: b :: c :: bytes =>
      base64UrlDigit (a.toNat / 4) :: base64UrlDigit (a.toNat % 4 * 16 + b.toNat / 16) ::
        base64UrlDigit (b.toNat % 16 * 4 + c.toNat / 64) :: base64UrlDigit (c.toNat % 64) ::
        encodeBase64Url bytes

/-- The bytes of a text that is what their encoding gives. -/
def decodeBase64Url : List Nat → Option (List UInt8)
  | [] => some []
  | [_] => none
  | [first, second] => do
      let a ← readBase64UrlDigit first
      let b ← readBase64UrlDigit second
      if b % 16 = 0 then some [.ofNat (a * 4 + b / 16)] else none
  | [first, second, third] => do
      let a ← readBase64UrlDigit first
      let b ← readBase64UrlDigit second
      let c ← readBase64UrlDigit third
      if c % 4 = 0 then some [.ofNat (a * 4 + b / 16), .ofNat (b % 16 * 16 + c / 4)] else none
  | first :: second :: third :: fourth :: text => do
      let a ← readBase64UrlDigit first
      let b ← readBase64UrlDigit second
      let c ← readBase64UrlDigit third
      let d ← readBase64UrlDigit fourth
      let bytes ← decodeBase64Url text
      some (.ofNat (a * 4 + b / 16) :: .ofNat (b % 16 * 16 + c / 4) :: .ofNat (c % 4 * 64 + d) ::
        bytes)

theorem ofNat_eq_of_toNat_eq {n : Nat} {b : UInt8} (h : n = b.toNat) : .ofNat n = b := by
  rw [h, UInt8.ofNat_toNat]

/-- What is written is read back. -/
theorem decode_encodeBase64Url (bytes : List UInt8) :
    decodeBase64Url (encodeBase64Url bytes) = some bytes := by
  induction bytes using encodeBase64Url.induct with
  | case1 => rfl
  | case2 a =>
      have ha := a.toNat_lt
      rw [encodeBase64Url, decodeBase64Url, read_base64UrlDigit (by omega),
        read_base64UrlDigit (by omega)]
      simp only [Option.bind_eq_bind, Option.bind_some]
      rw [if_pos (by omega), ofNat_eq_of_toNat_eq (b := a) (by omega)]
  | case3 a b =>
      have ha := a.toNat_lt
      have hb := b.toNat_lt
      rw [encodeBase64Url, decodeBase64Url, read_base64UrlDigit (by omega),
        read_base64UrlDigit (by omega), read_base64UrlDigit (by omega)]
      simp only [Option.bind_eq_bind, Option.bind_some]
      rw [if_pos (by omega), ofNat_eq_of_toNat_eq (b := a) (by omega),
        ofNat_eq_of_toNat_eq (b := b) (by omega)]
  | case4 a b c bytes ih =>
      have ha := a.toNat_lt
      have hb := b.toNat_lt
      have hc := c.toNat_lt
      rw [encodeBase64Url, decodeBase64Url, read_base64UrlDigit (by omega),
        read_base64UrlDigit (by omega), read_base64UrlDigit (by omega),
        read_base64UrlDigit (by omega), ih]
      simp only [Option.bind_eq_bind, Option.bind_some]
      rw [ofNat_eq_of_toNat_eq (b := a) (by omega),
        ofNat_eq_of_toNat_eq (b := b) (by omega), ofNat_eq_of_toNat_eq (b := c) (by omega)]

theorem encodeBase64Url_injective {bytes bytes' : List UInt8}
    (h : encodeBase64Url bytes = encodeBase64Url bytes') : bytes = bytes' := by
  have hread := decode_encodeBase64Url bytes
  rw [h, decode_encodeBase64Url] at hread
  exact (Option.some_inj.mp hread).symm

theorem toNat_ofNat_of_lt {n : Nat} (h : n < 256) : (UInt8.ofNat n).toNat = n := by
  rw [UInt8.toNat_ofNat', Nat.mod_eq_of_lt h]

/-- What is read is what its bytes are written as. -/
theorem encode_of_decodeBase64Url {text : List Nat} {bytes : List UInt8}
    (h : decodeBase64Url text = some bytes) : encodeBase64Url bytes = text := by
  induction text using decodeBase64Url.induct generalizing bytes with
  | case1 =>
      obtain rfl := Option.some_inj.mp h
      rfl
  | case2 => exact nomatch h
  | case3 first second =>
      rw [decodeBase64Url] at h
      obtain ⟨a, hfirst, hafter⟩ := Option.bind_eq_some_iff.mp h
      obtain ⟨b, hsecond, hend⟩ := Option.bind_eq_some_iff.mp hafter
      obtain ⟨ha, rfl⟩ := readBase64UrlDigit_eq_some hfirst
      obtain ⟨hb, rfl⟩ := readBase64UrlDigit_eq_some hsecond
      by_cases hzero : b % 16 = 0
      · rw [if_pos hzero] at hend
        obtain rfl := Option.some_inj.mp hend
        have h1 : (a * 4 + b / 16) / 4 = a := by omega
        have h2 : (a * 4 + b / 16) % 4 * 16 = b := by omega
        rw [encodeBase64Url, toNat_ofNat_of_lt (by omega), h1, h2]
      · rw [if_neg hzero] at hend
        exact nomatch hend
  | case4 first second third =>
      rw [decodeBase64Url] at h
      obtain ⟨a, hfirst, hafter⟩ := Option.bind_eq_some_iff.mp h
      obtain ⟨b, hsecond, hend⟩ := Option.bind_eq_some_iff.mp hafter
      obtain ⟨c, hthird, hlast⟩ := Option.bind_eq_some_iff.mp hend
      obtain ⟨ha, rfl⟩ := readBase64UrlDigit_eq_some hfirst
      obtain ⟨hb, rfl⟩ := readBase64UrlDigit_eq_some hsecond
      obtain ⟨hc, rfl⟩ := readBase64UrlDigit_eq_some hthird
      by_cases hzero : c % 4 = 0
      · rw [if_pos hzero] at hlast
        obtain rfl := Option.some_inj.mp hlast
        have h1 : (a * 4 + b / 16) / 4 = a := by omega
        have h2 : (a * 4 + b / 16) % 4 * 16 + (b % 16 * 16 + c / 4) / 16 = b := by omega
        have h3 : (b % 16 * 16 + c / 4) % 16 * 4 = c := by omega
        rw [encodeBase64Url, toNat_ofNat_of_lt (by omega), toNat_ofNat_of_lt (by omega), h1, h2,
          h3]
      · rw [if_neg hzero] at hlast
        exact nomatch hlast
  | case5 first second third fourth text ih =>
      rw [decodeBase64Url] at h
      obtain ⟨a, hfirst, hafter⟩ := Option.bind_eq_some_iff.mp h
      obtain ⟨b, hsecond, hend⟩ := Option.bind_eq_some_iff.mp hafter
      obtain ⟨c, hthird, hlast⟩ := Option.bind_eq_some_iff.mp hend
      obtain ⟨d, hfourth, hmore⟩ := Option.bind_eq_some_iff.mp hlast
      obtain ⟨rest, hrest, hbytes⟩ := Option.bind_eq_some_iff.mp hmore
      obtain ⟨ha, rfl⟩ := readBase64UrlDigit_eq_some hfirst
      obtain ⟨hb, rfl⟩ := readBase64UrlDigit_eq_some hsecond
      obtain ⟨hc, rfl⟩ := readBase64UrlDigit_eq_some hthird
      obtain ⟨hd, rfl⟩ := readBase64UrlDigit_eq_some hfourth
      obtain rfl := Option.some_inj.mp hbytes
      have h1 : (a * 4 + b / 16) / 4 = a := by omega
      have h2 : (a * 4 + b / 16) % 4 * 16 + (b % 16 * 16 + c / 4) / 16 = b := by omega
      have h3 : (b % 16 * 16 + c / 4) % 16 * 4 + (c % 4 * 64 + d) / 64 = c := by omega
      have h4 : (c % 4 * 64 + d) % 64 = d := by omega
      rw [encodeBase64Url, toNat_ofNat_of_lt (by omega), toNat_ofNat_of_lt (by omega),
        toNat_ofNat_of_lt (by omega), h1, h2, h3, h4, ih hrest]

end GoatCitadel.Support
