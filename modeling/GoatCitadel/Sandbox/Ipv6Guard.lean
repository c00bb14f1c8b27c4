import GoatCitadel.Sandbox.Ipv6Text

/-!
# Which IPv6 addresses are blocked

`isBlockedIpv6` looks at the text of an address three times: it compares
prefixes, folds the zeros in front of an IPv4-mapped address, and parses the
groups.  The verdict should depend on the address alone.  It does, apart from
three kinds of texts: a first group of less than four digits that begins like a
local one, documentation addresses with a leading zero, and IPv4-mapped addresses
whose zeros are compressed elsewhere than in front of `ffff`.
-/

namespace GoatCitadel.Sandbox

open GoatCitadel.Support

/-! ## The guard -/

/-- The octets of two groups, between dots. -/
def embedded (high low : Nat) : List Char :=
  ['.'].intercalate ([high >>> 8 &&& 0xff, high &&& 0xff, low >>> 8 &&& 0xff,
    low &&& 0xff].map (Nat.toDigits 10))

def isPrivateOrReservedIpv4 (host : List Char) : Bool :=
  let parts := (host.splitOn '.').map number
  let a := parts[0]?
  let b := parts[1]?
  let c := parts[2]?
  a = some 10 || a = some 127 || a = some 0 ||
    (a = some 169 && b = some 254) ||
    (a = some 192 && b = some 168) ||
    (a = some 192 && b = some 0 && (c = some 0 || c = some 2)) ||
    (a = some 192 && b = some 88 && c = some 99) ||
    (a = some 198 && (b = some 18 || b = some 19 || (b = some 51 && c = some 100))) ||
    (a = some 203 && b = some 0 && c = some 113) ||
    (a = some 100 && b.any fun b => 64 ≤ b && b ≤ 127) ||
    (a = some 172 && b.any fun b => 16 ≤ b && b ≤ 31) ||
    a.any (224 ≤ ·)

/-- The rest of the text after so many groups `0{1,4}:`. -/
def stripZeroGroups : Nat → List Char → Option (List Char)
  | 0, text => some text
  | k + 1, text =>
      let zeros := text.takeWhile (· = '0')
      match text.dropWhile (· = '0') with
      | ':' :: rest =>
          if 1 ≤ zeros.length && zeros.length ≤ 4 then stripZeroGroups k rest else none
      | _ => none

/-- `text.replace(/^(?:0{1,4}:){counts}ffff:/, "::ffff:")` -/
def foldZeroGroups (counts : List Nat) (text : List Char) : List Char :=
  match counts.findSome? fun k =>
      (stripZeroGroups k text).filter ("ffff:".toList.isPrefixOf ·) with
  | some rest => "::".toList ++ rest
  | none => text

/-- The IPv4 address after `::ffff:`, dotted or as two groups. -/
def readMappedTail (tail : List Char) : Option (List Char) :=
  let numbers := tail.splitOn '.'
  if numbers.length = 4 && numbers.all isShortNumber then some tail
  else
    match tail.splitOn ':' with
    | [high, low] =>
        if isGroup high && isGroup low then some (embedded (parseHex high) (parseHex low))
        else none
    | _ => none

def extractIpv4MappedAddress (ipv6Lower : List Char) : Option (List Char) :=
  let canonical := foldZeroGroups [1] (foldZeroGroups [5, 4, 3, 2] ipv6Lower)
  if "::ffff:".toList.isPrefixOf canonical then readMappedTail (canonical.drop 7) else none

/-- The prefixes of unique local, link-local and site-local addresses. -/
def localPrefixes : List (List Char) :=
  ["fc", "fd", "fe8", "fe9", "fea", "feb", "fec", "fed", "fee", "fef"].map String.toList

/-- The checks on the eight groups. -/
def isBlockedGroups : List Nat → Bool
  | [g0, g1, g2, g3, g4, g5, g6, g7] =>
      if g0 &&& 0xff00 = 0xff00 then true
      else if g0 = 0x64 && g1 = 0xff9b && g2 = 0 && g3 = 0 && g4 = 0 && g5 = 0 then
        isPrivateOrReservedIpv4 (embedded g6 g7)
      else if g0 = 0x64 && g1 = 0xff9b && g2 = 1 then true
      else if g0 = 0x2002 then isPrivateOrReservedIpv4 (embedded g1 g2)
      else if g0 = 0 && g1 = 0 && g2 = 0 && g3 = 0 && g4 = 0 && g5 = 0 then
        isPrivateOrReservedIpv4 (embedded g6 g7)
      else false
  | _ => false

/-- `isBlockedIpv6` of a host in lower case. -/
def isBlockedLower (lower : List Char) : Bool :=
  if lower = "::".toList || lower = "::1".toList ||
      localPrefixes.any (·.isPrefixOf lower) || "2001:db8:".toList.isPrefixOf lower then
    true
  else
    match extractIpv4MappedAddress lower with
    | some mapped => isPrivateOrReservedIpv4 mapped
    | none =>
        match parseIpv6Groups lower with
        | some groups => isBlockedGroups groups
        | none => false

/-- `toLowerCase` changes capital letters only, as far as ASCII goes. -/
def LowersAscii (toLowerCase : String → String) : Prop :=
  ∀ text : String, (∀ c ∈ text.toList, c.toNat < 128) →
    (toLowerCase text).toList = text.toList.map Char.toLower

def isBlockedIpv6 (toLowerCase : String → String) (host : String) : Bool :=
  isBlockedLower (toLowerCase host).toList

/-! ## Addresses -/

/-- The address lies in the block of a network with a prefix of `length` bits. -/
def InBlock (address network length : Nat) : Prop :=
  address / 2 ^ (128 - length) = network / 2 ^ (128 - length)

/-- The address embeds an IPv4 address: IPv4-mapped, IPv4-compatible, NAT64 and
6to4. -/
def Embeds (address ipv4 : Nat) : Prop :=
  (InBlock address (addressOf [0, 0, 0, 0, 0, 0xffff, 0, 0]) 96 ∨ InBlock address 0 96 ∨
      InBlock address (addressOf [0x64, 0xff9b, 0, 0, 0, 0, 0, 0]) 96) ∧
      ipv4 = address % 2 ^ 32 ∨
    InBlock address (addressOf [0x2002, 0, 0, 0, 0, 0, 0, 0]) 16 ∧
      ipv4 = address / 2 ^ 80 % 2 ^ 32

def IsPrivateIpv4 (ipv4 : Nat) : Prop :=
  isPrivateOrReservedIpv4 (embedded (ipv4 / 65536) (ipv4 % 65536)) = true

/-- The addresses that a request must not reach. -/
def IsBlockedAddress (address : Nat) : Prop :=
  address = 0 ∨ address = 1 ∨
    InBlock address (addressOf [0xfc00, 0, 0, 0, 0, 0, 0, 0]) 7 ∨
    InBlock address (addressOf [0xfe80, 0, 0, 0, 0, 0, 0, 0]) 10 ∨
    InBlock address (addressOf [0xfec0, 0, 0, 0, 0, 0, 0, 0]) 10 ∨
    InBlock address (addressOf [0xff00, 0, 0, 0, 0, 0, 0, 0]) 8 ∨
    InBlock address (addressOf [0x2001, 0xdb8, 0, 0, 0, 0, 0, 0]) 32 ∨
    InBlock address (addressOf [0x64, 0xff9b, 1, 0, 0, 0, 0, 0]) 48 ∨
    ∃ ipv4, Embeds address ipv4 ∧ IsPrivateIpv4 ipv4

/-! ## Spellings that the guard misreads -/

/-- The first group begins like that of a local address, but is shorter than four
digits. -/
def ShortLocalPrefix (text : List Char) : Prop :=
  localPrefixes.any (·.isPrefixOf text) = true ∧ (text.takeWhile (· ≠ ':')).length < 4

/-- A documentation address, with a leading zero. -/
def PaddedDocumentation (text : List Char) : Prop :=
  "2001:0db8:".toList.isPrefixOf text = true

/-- An IPv4-mapped private address in which `::` stands elsewhere than in front of
`ffff` at the start. -/
def HiddenMapping (literal : Ipv6Literal) : Prop :=
  InBlock literal.address (addressOf [0, 0, 0, 0, 0, 0xffff, 0, 0]) 96 ∧
    IsPrivateIpv4 (literal.address % 2 ^ 32) ∧
    [':', ':'] <:+: literal.text ∧ "::ffff:".toList.isPrefixOf literal.text = false

/-- `toLowerCase` of an ASCII text. -/
def lowerAscii (text : String) : String :=
  String.ofList (text.toList.map Char.toLower)

theorem lowersAscii_lowerAscii : LowersAscii lowerAscii := by
  intro text _
  rw [lowerAscii, String.toList_ofList]

/-! ## The groups of an address -/

section

variable {g0 g1 g2 g3 g4 g5 g6 g7 : Nat}

/-- Eight groups of sixteen bits. -/
def SixteenBits (g0 g1 g2 g3 g4 g5 g6 g7 : Nat) : Prop :=
  g0 < 65536 ∧ g1 < 65536 ∧ g2 < 65536 ∧ g3 < 65536 ∧ g4 < 65536 ∧ g5 < 65536 ∧
    g6 < 65536 ∧ g7 < 65536

theorem group_inj {a b x y : Nat} (hx : x < 65536) (hy : y < 65536) :
    a * 65536 + x = b * 65536 + y ↔ a = b ∧ x = y := by
  omega

theorem inBlock_96 (h : SixteenBits g0 g1 g2 g3 g4 g5 g6 g7) {n0 n1 n5 : Nat}
    (h1 : n1 < 65536) (h5 : n5 < 65536) :
    InBlock (addressOf [g0, g1, g2, g3, g4, g5, g6, g7])
        (addressOf [n0, n1, 0, 0, 0, n5, 0, 0]) 96 ↔
      g0 = n0 ∧ g1 = n1 ∧ g2 = 0 ∧ g3 = 0 ∧ g4 = 0 ∧ g5 = n5 := by
  obtain ⟨hg0, hg1, hg2, hg3, hg4, hg5, hg6, hg7⟩ := h
  have hdiv : ∀ (groups : List Nat) {m6 m7 : Nat}, m6 < 65536 → m7 < 65536 →
      addressOf (groups ++ [m6, m7]) / 2 ^ (128 - 96) = addressOf groups := by
    intro groups m6 m7 hm6 hm7
    have happend : addressOf (groups ++ [m6, m7]) =
        (addressOf groups * 65536 + m6) * 65536 + m7 := by
      simp [addressOf]
    rw [happend]
    simp only [Nat.reduceSub, Nat.reducePow]
    omega
  have hzero : (0 : Nat) < 65536 := by decide
  have haddress : addressOf [g0, g1, g2, g3, g4, g5, g6, g7] / 2 ^ (128 - 96) =
      addressOf [g0, g1, g2, g3, g4, g5] := hdiv [g0, g1, g2, g3, g4, g5] hg6 hg7
  have hnetwork : addressOf [n0, n1, 0, 0, 0, n5, 0, 0] / 2 ^ (128 - 96) =
      addressOf [n0, n1, 0, 0, 0, n5] := hdiv [n0, n1, 0, 0, 0, n5] hzero hzero
  rw [InBlock, haddress, hnetwork]
  simp only [addressOf, List.foldl_cons, List.foldl_nil, Nat.zero_mul, Nat.zero_add]
  rw [group_inj hg5 h5, group_inj hg4 hzero, group_inj hg3 hzero, group_inj hg2 hzero,
    group_inj hg1 h1]
  simp only [and_assoc]

theorem inBlock_first (h : SixteenBits g0 g1 g2 g3 g4 g5 g6 g7) {n0 length : Nat}
    (hlength : length ≤ 16) :
    InBlock (addressOf [g0, g1, g2, g3, g4, g5, g6, g7])
        (addressOf [n0, 0, 0, 0, 0, 0, 0, 0]) length ↔
      g0 / 2 ^ (16 - length) = n0 / 2 ^ (16 - length) := by
  obtain ⟨_, _, _, _, _, _, _, _⟩ := h
  have hpow : 2 ^ (128 - length) = 2 ^ 112 * 2 ^ (16 - length) := by
    rw [← Nat.pow_add]
    congr 1
    omega
  have hdiv : ∀ {m0 m1 m2 m3 m4 m5 m6 m7 : Nat}, SixteenBits 0 m1 m2 m3 m4 m5 m6 m7 →
      addressOf [m0, m1, m2, m3, m4, m5, m6, m7] / 2 ^ 112 = m0 := by
    intro m0 m1 m2 m3 m4 m5 m6 m7 hm
    obtain ⟨_, _, _, _, _, _, _, _⟩ := hm
    simp only [addressOf, List.foldl_cons, List.foldl_nil, Nat.reducePow]
    omega
  rw [InBlock, hpow, ← Nat.div_div_eq_div_mul, ← Nat.div_div_eq_div_mul,
    hdiv (by unfold SixteenBits; omega), hdiv (by unfold SixteenBits; omega)]

theorem addressOf_mod (h : SixteenBits g0 g1 g2 g3 g4 g5 g6 g7) :
    addressOf [g0, g1, g2, g3, g4, g5, g6, g7] % 2 ^ 32 = g6 * 65536 + g7 := by
  obtain ⟨_, _, _, _, _, _, _, _⟩ := h
  simp only [addressOf, List.foldl_cons, List.foldl_nil, Nat.reducePow]
  omega

theorem addressOf_div_mod (h : SixteenBits g0 g1 g2 g3 g4 g5 g6 g7) :
    addressOf [g0, g1, g2, g3, g4, g5, g6, g7] / 2 ^ 80 % 2 ^ 32 = g1 * 65536 + g2 := by
  obtain ⟨_, _, _, _, _, _, _, _⟩ := h
  simp only [addressOf, List.foldl_cons, List.foldl_nil, Nat.reducePow]
  omega

theorem isPrivateIpv4_iff {high low : Nat} (hlow : low < 65536) :
    IsPrivateIpv4 (high * 65536 + low) ↔
      isPrivateOrReservedIpv4 (embedded high low) = true := by
  have hhigh : (high * 65536 + low) / 65536 = high := by omega
  have hrest : (high * 65536 + low) % 65536 = low := by omega
  rw [IsPrivateIpv4, hhigh, hrest]

/-- The blocked addresses, by their groups. -/
theorem isBlockedAddress_iff (h : SixteenBits g0 g1 g2 g3 g4 g5 g6 g7) :
    IsBlockedAddress (addressOf [g0, g1, g2, g3, g4, g5, g6, g7]) ↔
      (g0 = 0 ∧ g1 = 0 ∧ g2 = 0 ∧ g3 = 0 ∧ g4 = 0 ∧ g5 = 0 ∧ g6 = 0 ∧ g7 ≤ 1) ∨
      g0 / 512 = 126 ∨ g0 / 64 = 1018 ∨ g0 / 64 = 1019 ∨ g0 / 256 = 255 ∨
      (g0 = 0x2001 ∧ g1 = 0xdb8) ∨ (g0 = 0x64 ∧ g1 = 0xff9b ∧ g2 = 1) ∨
      ((g0 = 0 ∧ g1 = 0 ∧ g2 = 0 ∧ g3 = 0 ∧ g4 = 0 ∧ (g5 = 0xffff ∨ g5 = 0) ∨
          g0 = 0x64 ∧ g1 = 0xff9b ∧ g2 = 0 ∧ g3 = 0 ∧ g4 = 0 ∧ g5 = 0) ∧
        isPrivateOrReservedIpv4 (embedded g6 g7) = true) ∨
      (g0 = 0x2002 ∧ isPrivateOrReservedIpv4 (embedded g1 g2) = true) := by
  have hhost : (addressOf [g0, g1, g2, g3, g4, g5, g6, g7] = 0 ∨
      addressOf [g0, g1, g2, g3, g4, g5, g6, g7] = 1) ↔
      g0 = 0 ∧ g1 = 0 ∧ g2 = 0 ∧ g3 = 0 ∧ g4 = 0 ∧ g5 = 0 ∧ g6 = 0 ∧ g7 ≤ 1 := by
    simp only [addressOf, List.foldl_cons, List.foldl_nil]
    omega
  have hdocumentation : InBlock (addressOf [g0, g1, g2, g3, g4, g5, g6, g7])
      (addressOf [0x2001, 0xdb8, 0, 0, 0, 0, 0, 0]) 32 ↔ g0 = 0x2001 ∧ g1 = 0xdb8 := by
    obtain ⟨_, _, _, _, _, _, _, _⟩ := h
    simp only [InBlock, addressOf, List.foldl_cons, List.foldl_nil, Nat.reducePow,
      Nat.reduceSub]
    omega
  have hlocalUse : InBlock (addressOf [g0, g1, g2, g3, g4, g5, g6, g7])
      (addressOf [0x64, 0xff9b, 1, 0, 0, 0, 0, 0]) 48 ↔
      g0 = 0x64 ∧ g1 = 0xff9b ∧ g2 = 1 := by
    obtain ⟨_, _, _, _, _, _, _, _⟩ := h
    simp only [InBlock, addressOf, List.foldl_cons, List.foldl_nil, Nat.reducePow,
      Nat.reduceSub]
    omega
  have hembedded : (∃ ipv4, Embeds (addressOf [g0, g1, g2, g3, g4, g5, g6, g7]) ipv4 ∧
      IsPrivateIpv4 ipv4) ↔
      ((g0 = 0 ∧ g1 = 0 ∧ g2 = 0 ∧ g3 = 0 ∧ g4 = 0 ∧ (g5 = 0xffff ∨ g5 = 0) ∨
          g0 = 0x64 ∧ g1 = 0xff9b ∧ g2 = 0 ∧ g3 = 0 ∧ g4 = 0 ∧ g5 = 0) ∧
        isPrivateOrReservedIpv4 (embedded g6 g7) = true) ∨
      (g0 = 0x2002 ∧ isPrivateOrReservedIpv4 (embedded g1 g2) = true) := by
    have hcompatible : InBlock (addressOf [g0, g1, g2, g3, g4, g5, g6, g7]) 0 96 ↔
        g0 = 0 ∧ g1 = 0 ∧ g2 = 0 ∧ g3 = 0 ∧ g4 = 0 ∧ g5 = 0 :=
      @inBlock_96 _ _ _ _ _ _ _ _ h 0 0 0 (by decide) (by decide)
    have hsixToFour : ∀ g, g / 2 ^ (16 - 16) = 0x2002 / 2 ^ (16 - 16) ↔ g = 0x2002 := by
      intro g
      rw [Nat.sub_self, Nat.pow_zero, Nat.div_one, Nat.div_one]
    simp only [Embeds, addressOf_mod h, addressOf_div_mod h]
    simp only [hcompatible, inBlock_96 h (by decide : 0 < 65536) (by decide : 0xffff < 65536),
      inBlock_96 h (by decide : 0xff9b < 65536) (by decide : 0 < 65536),
      inBlock_first h (Nat.le_refl 16), hsixToFour]
    constructor
    · rintro ⟨ipv4, ⟨hblock, rfl⟩ | ⟨hblock, rfl⟩, hprivate⟩
      · refine .inl ⟨?_, (isPrivateIpv4_iff h.2.2.2.2.2.2.2).mp hprivate⟩
        omega
      · exact .inr ⟨hblock, (isPrivateIpv4_iff h.2.2.1).mp hprivate⟩
    · rintro (⟨hblock, hprivate⟩ | ⟨hblock, hprivate⟩)
      · refine ⟨_, .inl ⟨?_, rfl⟩, (isPrivateIpv4_iff h.2.2.2.2.2.2.2).mpr hprivate⟩
        omega
      · exact ⟨_, .inr ⟨hblock, rfl⟩, (isPrivateIpv4_iff h.2.2.1).mpr hprivate⟩
  rw [IsBlockedAddress, ← or_assoc, hhost, inBlock_first h (by decide), inBlock_first h
    (by decide), inBlock_first h (by decide), inBlock_first h (by decide), hdocumentation,
    hlocalUse, hembedded]
  simp only [Nat.reduceSub, Nat.reducePow, Nat.reduceDiv]

theorem and_multicast_iff {g : Nat} (h : g < 65536) :
    g &&& 0xff00 = 0xff00 ↔ g / 256 = 255 := by
  have hdiv : (g &&& 0xff00) / 2 ^ 8 = g / 2 ^ 8 &&& 0xff00 / 2 ^ 8 := Nat.and_div_two_pow ..
  have hmod : (g &&& 0xff00) % 2 ^ 8 = g % 2 ^ 8 &&& 0xff00 % 2 ^ 8 := Nat.and_mod_two_pow ..
  have hlow : g % 2 ^ 8 &&& 0xff00 % 2 ^ 8 = 0 := Nat.and_zero _
  have hhigh : g / 2 ^ 8 &&& 0xff00 / 2 ^ 8 = g / 2 ^ 8 % 2 ^ 8 :=
    Nat.and_two_pow_sub_one_eq_mod (g / 2 ^ 8) 8
  rw [hlow] at hmod
  rw [hhigh] at hdiv
  simp only [Nat.reducePow] at hdiv hmod
  omega

theorem isBlockedGroups_iff (h : SixteenBits g0 g1 g2 g3 g4 g5 g6 g7) :
    isBlockedGroups [g0, g1, g2, g3, g4, g5, g6, g7] = true ↔
      g0 / 256 = 255 ∨ (g0 = 0x64 ∧ g1 = 0xff9b ∧ g2 = 1) ∨
      ((g0 = 0 ∧ g1 = 0 ∧ g2 = 0 ∧ g3 = 0 ∧ g4 = 0 ∧ g5 = 0 ∨
          g0 = 0x64 ∧ g1 = 0xff9b ∧ g2 = 0 ∧ g3 = 0 ∧ g4 = 0 ∧ g5 = 0) ∧
        isPrivateOrReservedIpv4 (embedded g6 g7) = true) ∨
      (g0 = 0x2002 ∧ isPrivateOrReservedIpv4 (embedded g1 g2) = true) := by
  simp only [isBlockedGroups, and_multicast_iff h.1, Bool.and_eq_true, decide_eq_true_eq]
  split
  · simp_all
  split
  · simp_all
  split
  · simp_all
  split
  · simp_all
  split
  · simp_all
  · simp_all

/-- On groups, the guard misses documentation addresses, IPv4-mapped addresses and
the blocks that are told by their prefix. -/
theorem isBlockedGroups_iff_address (h : SixteenBits g0 g1 g2 g3 g4 g5 g6 g7)
    (hlocal : g0 / 512 ≠ 126 ∧ g0 / 64 ≠ 1018 ∧ g0 / 64 ≠ 1019)
    (hdocumentation : ¬(g0 = 0x2001 ∧ g1 = 0xdb8))
    (hmapped : ¬(g0 = 0 ∧ g1 = 0 ∧ g2 = 0 ∧ g3 = 0 ∧ g4 = 0 ∧ g5 = 0xffff)) :
    isBlockedGroups [g0, g1, g2, g3, g4, g5, g6, g7] = true ↔
      IsBlockedAddress (addressOf [g0, g1, g2, g3, g4, g5, g6, g7]) := by
  rw [isBlockedGroups_iff h, isBlockedAddress_iff h]
  constructor
  · rintro (h | h | ⟨h, hprivate⟩ | h)
    · exact .inr (.inr (.inr (.inr (.inl h))))
    · exact .inr (.inr (.inr (.inr (.inr (.inr (.inl h))))))
    · refine .inr (.inr (.inr (.inr (.inr (.inr (.inr (.inl ⟨?_, hprivate⟩)))))))
      omega
    · exact .inr (.inr (.inr (.inr (.inr (.inr (.inr (.inr h)))))))
  · rintro (h | h | h | h | h | h | h | ⟨h, hprivate⟩ | h)
    · obtain ⟨rfl, rfl, rfl, rfl, rfl, rfl, rfl, hlast⟩ := h
      have hprivate : isPrivateOrReservedIpv4 (embedded 0 g7) = true := by
        interval_cases g7 <;> decide +kernel
      exact .inr (.inr (.inl ⟨.inl ⟨rfl, rfl, rfl, rfl, rfl, rfl⟩, hprivate⟩))
    · exact absurd h hlocal.1
    · exact absurd h hlocal.2.1
    · exact absurd h hlocal.2.2
    · exact .inl h
    · exact absurd h hdocumentation
    · exact .inr (.inl h)
    · refine .inr (.inr (.inl ⟨?_, hprivate⟩))
      omega
    · exact .inr (.inr (.inr h))

end

end GoatCitadel.Sandbox
