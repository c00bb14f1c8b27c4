import GoatCitadel.Sandbox.Ipv6Verdict

/-!
# Which hosts are not public

`isHostNotPublic` decides which addresses an operator may name as the public one, and follows
the lists of the network guard.  Every IP host that it refuses is private or reserved for the
guard.  The guard has ranges that it lacks, and takes some texts with a short first group
for local addresses.
-/

namespace GoatCitadel.Contracts.PublicWebAddress

open GoatCitadel.Support
open GoatCitadel.Sandbox

/-! ## The check -/

/-- `ipv4Octets` -/
def ipv4Octets (host : List Char) : Option (List Nat) :=
  let parts := host.splitOn '.'
  if parts.length = 4 && parts.all isShortNumber then some (parts.map number) else none

/-- `isIpv4NotPublic` -/
def isIpv4NotPublic (octets : List Nat) : Bool :=
  let a := octets.getD 0 0
  let b := octets.getD 1 0
  a = 0 || a = 10 || (a = 100 && 64 ≤ b && b ≤ 127) || a = 127 || (a = 169 && b = 254) ||
    (a = 172 && 16 ≤ b && b ≤ 31) || (a = 192 && b = 168)

/-- `ipv6Groups` of a literal in lower case.  The dotted end and the groups are read as the
guard reads them; a zone is not cut off. -/
def ipv6Groups (lower : List Char) : Option (List Nat) := do
  let text ← writeDottedAsGroups lower
  readGroups text

/-- `isIpv6NotPublic`, on the groups. -/
def groupsNotPublic : List Nat → Bool
  | [g0, g1, g2, g3, g4, g5, g6, g7] =>
      if [g0, g1, g2, g3, g4, g5, g6].all (· = 0) && g7 ≤ 1 then true
      else if g0 &&& 0xfe00 = 0xfc00 then true
      else if g0 &&& 0xffc0 = 0xfe80 then true
      else if [g0, g1, g2, g3, g4].all (· = 0) && g5 = 0xffff then
        isIpv4NotPublic [g6 >>> 8, g6 &&& 0xff, g7 >>> 8, g7 &&& 0xff]
      else false
  | _ => false

/-- `hostname.replace(/\.$/, "")` -/
def dropFinalDot (hostname : List Char) : List Char :=
  if ['.'].isSuffixOf hostname then hostname.dropLast else hostname

section Check

variable (toLowerCase : String → String)

def isIpv6NotPublic (literal : List Char) : Bool :=
  match ipv6Groups (toLowerCase (String.ofList literal)).toList with
  | some groups => groupsNotPublic groups
  | none => false

def isHostNotPublic (hostname : String) : Bool :=
  let host := dropFinalDot hostname.toList
  if host = "localhost".toList || ".localhost".toList.isSuffixOf host then true
  else if ['['].isPrefixOf host && [']'].isSuffixOf host then
    isIpv6NotPublic toLowerCase (host.drop 1).dropLast
  else
    match ipv4Octets host with
    | some octets => isIpv4NotPublic octets
    | none => false

/-- What the check reads of a parsed URL. -/
structure ParsedUrl where
  protocol : String
  username : String
  password : String
  hostname : String
  origin : String
  pathname : String

def publicWebAddressMaxLength : Nat :=
  200

def notUrlProblem : String :=
  "Enter a full address that starts with https://."

def notHttpsProblem : String :=
  "Use an https:// address. Meta and the other services send only to secure addresses."

def hasLoginProblem : String :=
  "Leave the user name and password out of the address."

def hasExtraProblem : String :=
  "Leave out anything after ? or #."

def notPublicProblem : String :=
  "Use an address the internet can reach, not one on this computer or your home network."

def tooLongProblem : String :=
  "Use an address under 200 characters."

/-- `url.pathname.replace(/\/+$/, "")` -/
def dropFinalSlashes (pathname : String) : String :=
  String.ofList (pathname.toList.reverse.dropWhile (· = '/')).reverse

/-- `checkPublicWebAddress`; `parseUrl` is the parser of URLs. -/
def checkPublicWebAddress (parseUrl : String → Option ParsedUrl) (input : String) :
    Except String String :=
  let typed := Support.trim input
  if publicWebAddressMaxLength < utf16Length typed then throw tooLongProblem
  else
    match parseUrl typed with
    | none => throw notUrlProblem
    | some url =>
        if url.protocol ≠ "https:" then
          throw (if "://".toList <:+: typed.toList then notHttpsProblem else notUrlProblem)
        else if url.username ≠ "" ∨ url.password ≠ "" then throw hasLoginProblem
        else if typed.toList.any (fun c => c = '?' || c = '#') = true then throw hasExtraProblem
        else if isHostNotPublic toLowerCase url.hostname = true then throw notPublicProblem
        else
          let address := url.origin ++ dropFinalSlashes url.pathname
          if publicWebAddressMaxLength < utf16Length address then throw tooLongProblem
          else return address

end Check

/-! ## Hosts of the URL parser -/

/-- The number of zeros from a group on. -/
def zeroRun (groups : List Nat) (start : Nat) : Nat :=
  ((groups.drop start).takeWhile (· = 0)).length

/-- The first of the longest runs of at least two zeros. -/
def compressedAt (groups : List Nat) : Option Nat :=
  (List.range groups.length).find? fun start =>
    2 ≤ zeroRun groups start &&
      (List.range groups.length).all fun other => zeroRun groups other ≤ zeroRun groups start

/-- An IPv6 address as a URL has it. -/
def serializeIpv6 (groups : List Nat) : List Char :=
  match compressedAt groups with
  | none => [':'].intercalate (groups.map (Nat.toDigits 16))
  | some start =>
      [':'].intercalate ((groups.take start).map (Nat.toDigits 16)) ++ ':' :: ':' ::
        [':'].intercalate ((groups.drop (start + zeroRun groups start)).map (Nat.toDigits 16))

/-- An IPv4 address as a URL has it. -/
def serializeIpv4 (octets : List Nat) : List Char :=
  ['.'].intercalate (octets.map (Nat.toDigits 10))

/-- The IP addresses that a URL names. -/
inductive IpHost
  | ipv4 (a b c d : UInt8)
  | ipv6 (g0 g1 g2 g3 g4 g5 g6 g7 : UInt16)

namespace IpHost

/-- The address without brackets. -/
def address : IpHost → List Char
  | ipv4 a b c d => serializeIpv4 [a.toNat, b.toNat, c.toNat, d.toNat]
  | ipv6 g0 g1 g2 g3 g4 g5 g6 g7 =>
      serializeIpv6 [g0.toNat, g1.toNat, g2.toNat, g3.toNat, g4.toNat, g5.toNat, g6.toNat,
        g7.toNat]

def hostname (host : IpHost) : String :=
  match host with
  | ipv4 .. => String.ofList host.address
  | ipv6 .. => String.ofList ('[' :: (host.address ++ [']']))

/-- The guard takes the address for a private or reserved one. -/
def isReservedForGuard (toLowerCase : String → String) (host : IpHost) : Bool :=
  match host with
  | ipv4 .. => isPrivateOrReservedIpv4 host.address
  | ipv6 .. => isBlockedIpv6 toLowerCase (String.ofList host.address)

end IpHost

/-- The check refuses every input whose URL has the host. -/
def Refuses (toLowerCase : String → String) (host : IpHost) : Prop :=
  ∀ (parseUrl : String → Option ParsedUrl) (input : String) (url : ParsedUrl),
    parseUrl (Support.trim input) = some url → url.hostname = host.hostname →
      ∃ problem, checkPublicWebAddress toLowerCase parseUrl input = .error problem

/-- The lists are in step on a host. -/
structure InStep (toLowerCase : String → String) (host : IpHost) : Prop where
  refused : host.isReservedForGuard toLowerCase = true →
    isHostNotPublic toLowerCase host.hostname = true ∧ Refuses toLowerCase host
  reserved : isHostNotPublic toLowerCase host.hostname = true →
    host.isReservedForGuard toLowerCase = true

/-! ## The ranges -/

/-- The IPv4 ranges that both lists have. -/
def ListedIpv4 (a b : Nat) : Prop :=
  a = 0 ∨ a = 10 ∨ (a = 100 ∧ 64 ≤ b ∧ b ≤ 127) ∨ a = 127 ∨ (a = 169 ∧ b = 254) ∨
    (a = 172 ∧ 16 ≤ b ∧ b ≤ 31) ∨ (a = 192 ∧ b = 168)

/-- The IPv4 ranges that only the guard has: 192.0.0.0/24, 192.0.2.0/24, 192.88.99.0/24,
198.18.0.0/15, 198.51.100.0/24, 203.0.113.0/24 and everything from 224.0.0.0 on. -/
def GuardOnlyIpv4 (a b c : Nat) : Prop :=
  (a = 192 ∧ b = 0 ∧ (c = 0 ∨ c = 2)) ∨ (a = 192 ∧ b = 88 ∧ c = 99) ∨
    (a = 198 ∧ (b = 18 ∨ b = 19 ∨ (b = 51 ∧ c = 100))) ∨ (a = 203 ∧ b = 0 ∧ c = 113) ∨ 224 ≤ a

/-- Two groups hold an IPv4 address that the guard knows. -/
def EmbedsReserved (high low : Nat) : Prop :=
  ListedIpv4 (high / 256) (high % 256) ∨ GuardOnlyIpv4 (high / 256) (high % 256) (low / 256)

/-- The first group of the IPv6 texts that begin like a local address and are too short for
one, such as `fc::1`. -/
def ShortLocalGroup (g0 : Nat) : Prop :=
  (0xfc ≤ g0 ∧ g0 ≤ 0xfd) ∨ (0xfc0 ≤ g0 ∧ g0 ≤ 0xfdf) ∨ (0xfe8 ≤ g0 ∧ g0 ≤ 0xfef)

/-- The IPv6 addresses that only the guard takes for reserved: fec0::/10, ff00::/8,
2001:db8::/32 and 64:ff9b:1::/48, the addresses that embed a reserved IPv4 address by
64:ff9b::/96, 2002::/16 or ::/96, the mapped addresses of the IPv4 ranges that only the
guard has, and the short first groups. -/
def GuardOnlyIpv6 (g0 g1 g2 g3 g4 g5 g6 g7 : Nat) : Prop :=
  (0xfec0 ≤ g0 ∧ g0 ≤ 0xfeff) ∨ 0xff00 ≤ g0 ∨ (g0 = 0x2001 ∧ g1 = 0xdb8) ∨
    (g0 = 0x64 ∧ g1 = 0xff9b ∧ g2 = 1) ∨
    (g0 = 0x64 ∧ g1 = 0xff9b ∧ g2 = 0 ∧ g3 = 0 ∧ g4 = 0 ∧ g5 = 0 ∧ EmbedsReserved g6 g7) ∨
    (g0 = 0x2002 ∧ EmbedsReserved g1 g2) ∨
    (g0 = 0 ∧ g1 = 0 ∧ g2 = 0 ∧ g3 = 0 ∧ g4 = 0 ∧ g5 = 0 ∧ ¬(g6 = 0 ∧ g7 ≤ 1) ∧
      EmbedsReserved g6 g7) ∨
    (g0 = 0 ∧ g1 = 0 ∧ g2 = 0 ∧ g3 = 0 ∧ g4 = 0 ∧ g5 = 0xffff ∧
      GuardOnlyIpv4 (g6 / 256) (g6 % 256) (g7 / 256)) ∨
    ShortLocalGroup g0

/-- The IPv6 addresses that both lists have. -/
def ListedIpv6 (g0 g1 g2 g3 g4 g5 g6 g7 : Nat) : Prop :=
  (g0 = 0 ∧ g1 = 0 ∧ g2 = 0 ∧ g3 = 0 ∧ g4 = 0 ∧ g5 = 0 ∧ g6 = 0 ∧ g7 ≤ 1) ∨
    (0xfc00 ≤ g0 ∧ g0 ≤ 0xfdff) ∨ (0xfe80 ≤ g0 ∧ g0 ≤ 0xfebf) ∨
    (g0 = 0 ∧ g1 = 0 ∧ g2 = 0 ∧ g3 = 0 ∧ g4 = 0 ∧ g5 = 0xffff ∧
      ListedIpv4 (g6 / 256) (g6 % 256))

namespace IpHost

/-- Both lists have the address. -/
def Listed : IpHost → Prop
  | ipv4 a b _ _ => ListedIpv4 a.toNat b.toNat
  | ipv6 g0 g1 g2 g3 g4 g5 g6 g7 =>
      ListedIpv6 g0.toNat g1.toNat g2.toNat g3.toNat g4.toNat g5.toNat g6.toNat g7.toNat

/-- Only the guard has the address. -/
def GuardOnly : IpHost → Prop
  | ipv4 a b c _ => GuardOnlyIpv4 a.toNat b.toNat c.toNat
  | ipv6 g0 g1 g2 g3 g4 g5 g6 g7 =>
      GuardOnlyIpv6 g0.toNat g1.toNat g2.toNat g3.toNat g4.toNat g5.toNat g6.toNat g7.toNat

end IpHost

/-! ## IPv4 -/

section Ipv4

variable {a b c d high low : Nat}

/-- The guard on an address whose octets are read. -/
theorem isPrivateOrReservedIpv4_iff {host : List Char}
    (h : (host.splitOn '.').map number = [a, b, c, d]) :
    isPrivateOrReservedIpv4 host = true ↔ ListedIpv4 a b ∨ GuardOnlyIpv4 a b c := by
  unfold isPrivateOrReservedIpv4 ListedIpv4 GuardOnlyIpv4
  rw [h]
  simp only [List.getElem?_cons_zero, List.getElem?_cons_succ, Option.some.injEq,
    Option.any_some, Bool.or_eq_true, Bool.and_eq_true, decide_eq_true_eq]
  exact Iff.of_eq (by ac_rfl)

theorem isIpv4NotPublic_iff : isIpv4NotPublic [a, b, c, d] = true ↔ ListedIpv4 a b := by
  unfold isIpv4NotPublic ListedIpv4
  simp only [List.getD_cons_zero, List.getD_cons_succ, Bool.or_eq_true, Bool.and_eq_true,
    decide_eq_true_eq]
  exact Iff.of_eq (by ac_rfl)

/-- No range is in both lists. -/
theorem not_listedIpv4 (h : GuardOnlyIpv4 a b c) : ¬ListedIpv4 a b := by
  unfold GuardOnlyIpv4 at h
  unfold ListedIpv4
  omega

theorem splitOn_serializeIpv4 (octets : List Nat) (hne : octets ≠ []) :
    (serializeIpv4 octets).splitOn '.' = octets.map (Nat.toDigits 10) := by
  refine List.splitOn_intercalate '.' ?_ (by simpa using hne)
  intro part hpart hdot
  obtain ⟨octet, -, rfl⟩ := List.mem_map.mp hpart
  exact absurd (Nat.isDigit_of_mem_toDigits (by decide) (by decide) hdot) (by decide)

theorem number_toDigits (octets : List Nat) :
    (octets.map (Nat.toDigits 10)).map number = octets := by
  rw [List.map_map]
  refine (List.map_congr_left fun octet _ => ?_).trans (List.map_id _)
  exact Nat.ofDigitChars_ten_toDigits

theorem isShortNumber_toDigits {octet : Nat} (h : octet < 256) :
    isShortNumber (Nat.toDigits 10 octet) = true := by
  refine isShortNumber_iff.mpr ⟨⟨Nat.length_toDigits_pos, ?_⟩, ?_⟩
  · exact (Nat.length_toDigits_le_iff (by decide) (by decide)).mpr (h.trans (by decide))
  · exact fun c hc => Nat.isDigit_of_mem_toDigits (by decide) (by decide) hc

theorem ipv4Octets_serializeIpv4 {octets : List Nat} (hlength : octets.length = 4)
    (hlt : ∀ octet ∈ octets, octet < 256) :
    ipv4Octets (serializeIpv4 octets) = some octets := by
  have hne : octets ≠ [] := by
    rintro rfl
    cases hlength
  have hall : (octets.map (Nat.toDigits 10)).all isShortNumber = true := by
    refine List.all_eq_true.mpr fun part hpart => ?_
    obtain ⟨octet, hoctet, rfl⟩ := List.mem_map.mp hpart
    exact isShortNumber_toDigits (hlt octet hoctet)
  unfold ipv4Octets
  dsimp only
  rw [splitOn_serializeIpv4 octets hne, List.length_map, hlength, hall, number_toDigits]
  rfl

/-- The octets of two groups. -/
theorem octets_of_groups (hhigh : high < 65536) (hlow : low < 65536) :
    [high >>> 8 &&& 0xff, high &&& 0xff, low >>> 8 &&& 0xff, low &&& 0xff] =
      [high / 256, high % 256, low / 256, low % 256] := by
  have hupper : ∀ g, g < 65536 → g >>> 8 &&& 0xff = g / 256 := by
    intro g hg
    have hand : g >>> 8 &&& 0xff = g >>> 8 % 2 ^ 8 := Nat.and_two_pow_sub_one_eq_mod _ 8
    rw [hand, Nat.shiftRight_eq_div_pow]
    omega
  have hlower : ∀ g, g &&& 0xff = g % 256 := fun g => Nat.and_two_pow_sub_one_eq_mod g 8
  rw [hupper high hhigh, hupper low hlow, hlower, hlower]

theorem isPrivate_embedded_iff (hhigh : high < 65536) (hlow : low < 65536) :
    isPrivateOrReservedIpv4 (embedded high low) = true ↔ EmbedsReserved high low := by
  have hembedded : embedded high low =
      serializeIpv4 [high / 256, high % 256, low / 256, low % 256] := by
    unfold embedded serializeIpv4
    rw [octets_of_groups hhigh hlow]
  refine isPrivateOrReservedIpv4_iff (d := low % 256) ?_
  rw [hembedded, splitOn_serializeIpv4 _ (List.cons_ne_nil _ _), number_toDigits]

end Ipv4

/-! ## The texts of URLs -/

section Texts

variable {groups : List Nat} {start : Nat}

theorem zeroRun_le (groups : List Nat) (start : Nat) :
    zeroRun groups start ≤ groups.length - start := by
  unfold zeroRun
  rw [← List.length_drop]
  exact (List.takeWhile_sublist _).length_le

/-- A compressed run is there, and has at least two zeros. -/
theorem compressedAt_eq_some (h : compressedAt groups = some start) :
    2 ≤ zeroRun groups start ∧ start + zeroRun groups start ≤ groups.length := by
  have hfound := List.find?_some h
  rw [Bool.and_eq_true, decide_eq_true_iff] at hfound
  have hle := zeroRun_le groups start
  exact ⟨hfound.1, by omega⟩

/-- The groups before the run, the run and the groups after it. -/
theorem groups_eq_of_run (groups : List Nat) (start : Nat) :
    groups.take start ++ List.replicate (zeroRun groups start) 0 ++
      groups.drop (start + zeroRun groups start) = groups := by
  have hzeros : (groups.drop start).takeWhile (· = 0) =
      List.replicate (zeroRun groups start) 0 := by
    refine List.eq_replicate_iff.mpr ⟨rfl, fun group hgroup => ?_⟩
    have hzero := List.mem_takeWhile_imp hgroup
    exact of_decide_eq_true hzero
  have hrest : (groups.drop start).dropWhile (· = 0) =
      groups.drop (start + zeroRun groups start) := by
    rw [← List.drop_drop]
    conv_rhs => rw [← List.takeWhile_append_dropWhile (p := (· = 0)) (l := groups.drop start)]
    exact (List.drop_left' rfl).symm
  rw [← hzeros, ← hrest, List.append_assoc, List.takeWhile_append_dropWhile,
    List.take_append_drop]

theorem isGroup_digits (hlt : ∀ group ∈ groups, group < 65536) {part : List Char}
    (hpart : part ∈ groups.map (Nat.toDigits 16)) : isGroup part = true := by
  obtain ⟨group, hgroup, rfl⟩ := List.mem_map.mp hpart
  exact isGroup_toDigits (hlt group hgroup)

theorem parseHex_digits (groups : List Nat) :
    (groups.map (Nat.toDigits 16)).map parseHex = groups := by
  rw [List.map_map]
  refine (List.map_congr_left fun group _ => ?_).trans (List.map_id _)
  exact (parseHex_toDigits group).2

/-- The groups of a literal are written without leading zeros, and without a dotted end. -/
structure Canonical (literal : Ipv6Literal) : Prop where
  quad : literal.quad = none
  before : ∀ part ∈ literal.before, part = Nat.toDigits 16 (parseHex part)

theorem canonical_digits (groups : List Nat) :
    ∀ part ∈ groups.map (Nat.toDigits 16), part = Nat.toDigits 16 (parseHex part) := by
  intro part hpart
  obtain ⟨group, -, rfl⟩ := List.mem_map.mp hpart
  rw [(parseHex_toDigits group).2]

/-- What a URL has is the text of a literal. -/
theorem exists_canonical (hlength : groups.length = 8) (hlt : ∀ group ∈ groups, group < 65536) :
    ∃ literal : Ipv6Literal, literal.text = serializeIpv6 groups ∧
      literal.addressGroups = groups ∧ Canonical literal := by
  have hgroups : ∀ {kept : List Nat}, kept ⊆ groups →
      ∀ part ∈ kept.map (Nat.toDigits 16), isGroup part = true :=
    fun hsub part hpart => isGroup_digits (fun group hgroup => hlt group (hsub hgroup)) hpart
  unfold serializeIpv6
  cases hcompressed : compressedAt groups with
  | none =>
      refine ⟨⟨groups.map (Nat.toDigits 16), none, none, ?_, nofun, ?_⟩, ?_, ?_, rfl,
        canonical_digits groups⟩
      · rw [Option.getD_none, List.append_nil]
        exact hgroups (List.Subset.refl groups)
      · change (groups.map (Nat.toDigits 16)).length + 2 * 0 = 8
        rw [List.length_map, hlength]
      · change [':'].intercalate (groups.map (Nat.toDigits 16) ++ []) = _
        rw [List.append_nil]
      · change (groups.map (Nat.toDigits 16)).map parseHex ++ [] = groups
        rw [List.append_nil, parseHex_digits]
  | some start =>
      obtain ⟨htwo, hend⟩ := compressedAt_eq_some hcompressed
      have hsplit := groups_eq_of_run groups start
      dsimp only
      generalize zeroRun groups start = run at htwo hend hsplit ⊢
      refine ⟨⟨(groups.take start).map (Nat.toDigits 16),
        some ((groups.drop (start + run)).map (Nat.toDigits 16)), none, ?_, nofun, ?_⟩, ?_, ?_,
        rfl, canonical_digits _⟩
      · intro part hpart
        obtain hpart | hpart := List.mem_append.mp hpart
        · exact hgroups (List.take_subset start groups) part hpart
        · exact hgroups (List.drop_subset _ groups) part hpart
      · change ((groups.take start).map (Nat.toDigits 16)).length +
          ((groups.drop (start + run)).map (Nat.toDigits 16)).length + 2 * 0 ≤ 7
        rw [List.length_map, List.length_map, List.length_take, List.length_drop]
        omega
      · change _ ++ ':' :: ':' :: [':'].intercalate (_ ++ []) = _
        rw [List.append_nil]
      · change ((groups.take start).map (Nat.toDigits 16)).map parseHex ++
          List.replicate (8 - ((groups.take start).map (Nat.toDigits 16)).length -
            ((groups.drop (start + run)).map (Nat.toDigits 16)).length - 2 * 0) 0 ++
          ((groups.drop (start + run)).map (Nat.toDigits 16)).map parseHex ++ [] = groups
        rw [List.append_nil, parseHex_digits, parseHex_digits, List.length_map, List.length_map,
          List.length_take, List.length_drop, min_eq_left (by omega),
          show 8 - start - (groups.length - (start + run)) - 2 * 0 = run by omega, hsplit]

end Texts

/-! ## Spellings that a URL has -/

/-- The groups of at most three digits that begin like a local one. -/
theorem localPrefix_toDigits_iff {g : Nat} (h : g < 4096) :
    localPrefixes.any (·.isPrefixOf (Nat.toDigits 16 g)) = true ↔ ShortLocalGroup g := by
  constructor
  · intro hany
    obtain ⟨start, hstart, hfront⟩ := List.any_eq_true.mp hany
    obtain ⟨back, hback⟩ := List.isPrefixOf_iff_prefix.mp hfront
    have hgroup : isGroup (start ++ back) = true := by
      rw [hback]
      exact isGroup_toDigits (by omega)
    have hlength : start.length + back.length ≤ 3 := by
      rw [← List.length_append, hback]
      exact (Nat.length_toDigits_le_iff (by decide) (by decide)).mpr h
    obtain ⟨hlower, hupper⟩ := parseHex_append_range hgroup
    rw [hback, (parseHex_toDigits g).2] at hlower hupper
    unfold ShortLocalGroup
    obtain ⟨htwo, hrange⟩ | ⟨hthree, hrange⟩ := localPrefix_range hstart
    · obtain hnone | hone : back.length = 0 ∨ back.length = 1 := by omega
      · rw [hnone, Nat.pow_zero] at hlower hupper
        omega
      · rw [hone, Nat.pow_one] at hlower hupper
        omega
    · have hnone : back.length = 0 := by omega
      rw [hnone, Nat.pow_zero] at hlower hupper
      omega
  · have htwo : ∀ g < 2, localPrefixes.any (·.isPrefixOf (Nat.toDigits 16 (0xfc + g))) = true := by
      decide +kernel
    have hthree : ∀ g < 32,
        localPrefixes.any (·.isPrefixOf (Nat.toDigits 16 (0xfc0 + g))) = true := by
      decide +kernel
    have hlink : ∀ g < 8,
        localPrefixes.any (·.isPrefixOf (Nat.toDigits 16 (0xfe8 + g))) = true := by
      decide +kernel
    rintro (hrange | hrange | hrange)
    · obtain ⟨low, rfl⟩ := Nat.exists_eq_add_of_le hrange.1
      exact htwo low (by omega)
    · obtain ⟨low, rfl⟩ := Nat.exists_eq_add_of_le hrange.1
      exact hthree low (by omega)
    · obtain ⟨low, rfl⟩ := Nat.exists_eq_add_of_le hrange.1
      exact hlink low (by omega)

namespace Canonical

variable {literal : Ipv6Literal} (h : Canonical literal)

include h

theorem not_padded : ¬PaddedDocumentation literal.text := by
  intro hpadded
  have hfront : "2001".toList ++ ':' :: ("0db8".toList ++ [':']) <+: literal.text :=
    List.isPrefixOf_iff_prefix.mp hpadded
  obtain ⟨rest, hbefore⟩ :=
    Ipv6Literal.before_of_prefix (by decide) (by decide) (by decide) (by decide) hfront
  have hdigits := h.before "0db8".toList (by rw [hbefore]; simp)
  exact absurd hdigits (by decide)

/-- The first group begins like a local one, by its number. -/
theorem shortLocalPrefix_iff {g0 : Nat} {more : List Nat}
    (hgroups : literal.addressGroups = g0 :: more) :
    ShortLocalPrefix literal.text ↔ ShortLocalGroup g0 := by
  cases hbefore : literal.before with
  | nil =>
      obtain ⟨-, hhead⟩ := Ipv6Literal.text_of_before_nil hbefore
      rw [hgroups] at hhead
      obtain rfl := Option.some.inj hhead
      refine iff_of_false ?_ (by unfold ShortLocalGroup; omega)
      rintro ⟨hlocal, -⟩
      exact Ipv6Literal.not_localPrefix_of_before_nil hbefore hlocal
  | cons first rest =>
      obtain ⟨⟨tail, htext⟩, hhead⟩ := Ipv6Literal.text_of_before_cons hbefore
      rw [hgroups] at hhead
      have hvalue : g0 = parseHex first := Option.some.inj hhead
      have hfirst : first = Nat.toDigits 16 g0 := by
        rw [hvalue]
        exact h.before first (hbefore ▸ List.mem_cons_self)
      have hlocal : localPrefixes.any (·.isPrefixOf literal.text) = true ↔
          localPrefixes.any (·.isPrefixOf first) = true := by
        rw [List.any_eq_true, List.any_eq_true, htext]
        refine exists_congr fun start => and_congr_right fun hstart => ?_
        rw [List.isPrefixOf_iff_prefix, List.isPrefixOf_iff_prefix]
        constructor
        · exact prefix_of_prefix_append (not_mem_localPrefix hstart)
        · exact fun hfront => hfront.trans (List.prefix_append _ _)
      unfold ShortLocalPrefix
      rw [hlocal, Ipv6Literal.takeWhile_text hbefore, hfirst]
      by_cases hlt : g0 < 4096
      · rw [localPrefix_toDigits_iff hlt, and_iff_left]
        have hle : (Nat.toDigits 16 g0).length ≤ 3 :=
          (Nat.length_toDigits_le_iff (by decide) (by decide)).mpr hlt
        omega
      · refine iff_of_false ?_ (by unfold ShortLocalGroup; omega)
        rintro ⟨-, hlength⟩
        exact hlt ((Nat.length_toDigits_le_iff (by decide) (by decide)).mp
          (Nat.le_of_lt_succ hlength))

end Canonical

/-- The zeros of a mapped address are the longest run. -/
theorem serializeIpv6_mapped (high low : Nat) :
    "::ffff:".toList.isPrefixOf (serializeIpv6 [0, 0, 0, 0, 0, 0xffff, high, low]) = true := by
  have hruns : ∀ other < 8, zeroRun [0, 0, 0, 0, 0, 0xffff, high, low] other ≤
      zeroRun [0, 0, 0, 0, 0, 0xffff, high, low] 0 := by
    intro other hother
    have hfive : zeroRun [0, 0, 0, 0, 0, 0xffff, high, low] 0 = 5 := rfl
    have hle := zeroRun_le [0, 0, 0, 0, 0, 0xffff, high, low] other
    rw [hfive]
    have height : [0, 0, 0, 0, 0, 0xffff, high, low].length = 8 := rfl
    by_cases hlate : 3 ≤ other
    · omega
    · interval_cases other
      · exact le_rfl
      · exact (by decide : 4 ≤ 5)
      · exact (by decide : 3 ≤ 5)
  have hcompressed : compressedAt [0, 0, 0, 0, 0, 0xffff, high, low] = some 0 := by
    unfold compressedAt
    have hrange : List.range [0, 0, 0, 0, 0, 0xffff, high, low].length =
        0 :: [1, 2, 3, 4, 5, 6, 7] := rfl
    rw [hrange]
    apply List.find?_cons_of_pos
    rw [Bool.and_eq_true]
    refine ⟨rfl, List.all_eq_true.mpr fun other hother => decide_eq_true (hruns other ?_)⟩
    rw [← hrange] at hother
    exact List.mem_range.mp hother
  unfold serializeIpv6
  rw [hcompressed]
  rfl

/-! ## IPv6 -/

section Ipv6

variable {g0 g1 g2 g3 g4 g5 g6 g7 : Nat}

/-- A mask that keeps the first bits of a group. -/
theorem and_mask_iff {g k value : Nat} (hk : k ≤ 16) (h : g < 2 ^ 16) :
    g &&& (2 ^ (16 - k) - 1) * 2 ^ k = value * 2 ^ k ↔ g / 2 ^ k = value := by
  have hdiv : (g &&& (2 ^ (16 - k) - 1) * 2 ^ k) / 2 ^ k = g / 2 ^ k := by
    have hbits : g / 2 ^ k < 2 ^ (16 - k) := by
      rw [Nat.div_lt_iff_lt_mul (Nat.two_pow_pos k), ← Nat.pow_add, Nat.sub_add_cancel hk]
      exact h
    rw [Nat.and_div_two_pow, Nat.mul_div_cancel _ (Nat.two_pow_pos k),
      Nat.and_two_pow_sub_one_eq_mod, Nat.mod_eq_of_lt hbits]
  have hmod : (g &&& (2 ^ (16 - k) - 1) * 2 ^ k) % 2 ^ k = 0 := by
    rw [Nat.and_mod_two_pow, Nat.mul_mod_left, Nat.and_zero]
  constructor
  · intro heq
    rw [← hdiv, heq, Nat.mul_div_cancel _ (Nat.two_pow_pos k)]
  · rintro rfl
    conv_lhs => rw [← Nat.div_add_mod (g &&& _) (2 ^ k), hdiv, hmod, Nat.add_zero, Nat.mul_comm]

theorem groupsNotPublic_iff (h : SixteenBits g0 g1 g2 g3 g4 g5 g6 g7) :
    groupsNotPublic [g0, g1, g2, g3, g4, g5, g6, g7] = true ↔
      ListedIpv6 g0 g1 g2 g3 g4 g5 g6 g7 := by
  obtain ⟨h0, -⟩ := h
  have huniqueLocal : g0 &&& 0xfe00 = 0xfc00 ↔ g0 / 2 ^ 9 = 126 :=
    @and_mask_iff g0 9 126 (by decide) h0
  have hlinkLocal : g0 &&& 0xffc0 = 0xfe80 ↔ g0 / 2 ^ 6 = 1018 :=
    @and_mask_iff g0 6 1018 (by decide) h0
  unfold groupsNotPublic ListedIpv6
  simp only [List.all_cons, List.all_nil, Bool.and_true, Bool.and_eq_true, decide_eq_true_eq,
    huniqueLocal, hlinkLocal]
  split
  · rename_i hfirst
    exact iff_of_true rfl (.inl (by omega))
  split
  · exact iff_of_true rfl (.inr (.inl (by omega)))
  split
  · exact iff_of_true rfl (.inr (.inr (.inl (by omega))))
  split
  · rename_i hmapped
    have hlow : g6 &&& 0xff = g6 % 256 := Nat.and_two_pow_sub_one_eq_mod g6 8
    rw [isIpv4NotPublic_iff, Nat.shiftRight_eq_div_pow, hlow]
    constructor
    · intro hlisted
      exact .inr (.inr (.inr ⟨by omega, by omega, by omega, by omega, by omega, by omega,
        hlisted⟩))
    · rintro (hfirst | hlocal | hlink | ⟨-, -, -, -, -, -, hlisted⟩)
      · omega
      · omega
      · omega
      · exact hlisted
  · rename_i hfirst hunique hlink hmapped
    refine iff_of_false Bool.false_ne_true ?_
    rintro (h | h | h | ⟨h0, h1, h2, h3, h4, h5, -⟩) <;> omega

/-- No address is in both lists. -/
theorem not_listedIpv6 (h : GuardOnlyIpv6 g0 g1 g2 g3 g4 g5 g6 g7) :
    ¬ListedIpv6 g0 g1 g2 g3 g4 g5 g6 g7 := by
  unfold GuardOnlyIpv6 ShortLocalGroup at h
  rintro (hlisted | hlisted | hlisted | ⟨hfirst, -, -, -, -, hsixth, hlisted⟩)
  · omega
  · omega
  · omega
  · obtain h | h | h | h | h | h | h | ⟨-, -, -, -, -, -, hguard⟩ | h := h
    all_goals first
      | exact not_listedIpv4 hguard hlisted
      | omega

/-- The ranges of the guard are those of the two lists. -/
theorem blocked_ranges_iff (h : SixteenBits g0 g1 g2 g3 g4 g5 g6 g7)
    (hshort : ¬ShortLocalGroup g0) :
    ((g0 = 0 ∧ g1 = 0 ∧ g2 = 0 ∧ g3 = 0 ∧ g4 = 0 ∧ g5 = 0 ∧ g6 = 0 ∧ g7 ≤ 1) ∨
      g0 / 512 = 126 ∨ g0 / 64 = 1018 ∨ g0 / 64 = 1019 ∨ g0 / 256 = 255 ∨
      (g0 = 0x2001 ∧ g1 = 0xdb8) ∨ (g0 = 0x64 ∧ g1 = 0xff9b ∧ g2 = 1) ∨
      ((g0 = 0 ∧ g1 = 0 ∧ g2 = 0 ∧ g3 = 0 ∧ g4 = 0 ∧ (g5 = 0xffff ∨ g5 = 0) ∨
          g0 = 0x64 ∧ g1 = 0xff9b ∧ g2 = 0 ∧ g3 = 0 ∧ g4 = 0 ∧ g5 = 0) ∧
        EmbedsReserved g6 g7) ∨
      (g0 = 0x2002 ∧ EmbedsReserved g1 g2)) ↔
    ListedIpv6 g0 g1 g2 g3 g4 g5 g6 g7 ∨ GuardOnlyIpv6 g0 g1 g2 g3 g4 g5 g6 g7 := by
  obtain ⟨hbound, -⟩ := h
  unfold ListedIpv6 GuardOnlyIpv6
  constructor
  · rintro (h | h | h | h | h | h | h |
      ⟨⟨h0, h1, h2, h3, h4, h5 | h5⟩ | h, hreserved⟩ | h)
    · exact .inl (.inl h)
    · exact .inl (.inr (.inl (by omega)))
    · exact .inl (.inr (.inr (.inl (by omega))))
    · exact .inr (.inl (by omega))
    · exact .inr (.inr (.inl (by omega)))
    · exact .inr (.inr (.inr (.inl h)))
    · exact .inr (.inr (.inr (.inr (.inl h))))
    · obtain hlisted | hguard := hreserved
      · exact .inl (.inr (.inr (.inr ⟨h0, h1, h2, h3, h4, h5, hlisted⟩)))
      · exact .inr (.inr (.inr (.inr (.inr (.inr (.inr (.inr (.inl
          ⟨h0, h1, h2, h3, h4, h5, hguard⟩))))))))
    · by_cases hfirst : g6 = 0 ∧ g7 ≤ 1
      · exact .inl (.inl ⟨h0, h1, h2, h3, h4, h5, hfirst⟩)
      · exact .inr (.inr (.inr (.inr (.inr (.inr (.inr (.inl
          ⟨h0, h1, h2, h3, h4, h5, hfirst, hreserved⟩)))))))
    · obtain ⟨h0, h1, h2, h3, h4, h5⟩ := h
      exact .inr (.inr (.inr (.inr (.inr (.inl ⟨h0, h1, h2, h3, h4, h5, hreserved⟩)))))
    · exact .inr (.inr (.inr (.inr (.inr (.inr (.inl h))))))
  · rintro ((h | h | h | ⟨h0, h1, h2, h3, h4, h5, hlisted⟩) | h | h | h | h |
      ⟨h0, h1, h2, h3, h4, h5, hreserved⟩ | h | ⟨h0, h1, h2, h3, h4, h5, -, hreserved⟩ |
      ⟨h0, h1, h2, h3, h4, h5, hguard⟩ | h)
    · exact .inl h
    · exact .inr (.inl (by omega))
    · exact .inr (.inr (.inl (by omega)))
    · exact .inr (.inr (.inr (.inr (.inr (.inr (.inr (.inl
        ⟨.inl ⟨h0, h1, h2, h3, h4, .inl h5⟩, .inl hlisted⟩)))))))
    · exact .inr (.inr (.inr (.inl (by omega))))
    · exact .inr (.inr (.inr (.inr (.inl (by omega)))))
    · exact .inr (.inr (.inr (.inr (.inr (.inl h)))))
    · exact .inr (.inr (.inr (.inr (.inr (.inr (.inl h))))))
    · exact .inr (.inr (.inr (.inr (.inr (.inr (.inr (.inl
        ⟨.inr ⟨h0, h1, h2, h3, h4, h5⟩, hreserved⟩)))))))
    · exact .inr (.inr (.inr (.inr (.inr (.inr (.inr (.inr h)))))))
    · exact .inr (.inr (.inr (.inr (.inr (.inr (.inr (.inl
        ⟨.inl ⟨h0, h1, h2, h3, h4, .inr h5⟩, hreserved⟩)))))))
    · exact .inr (.inr (.inr (.inr (.inr (.inr (.inr (.inl
        ⟨.inl ⟨h0, h1, h2, h3, h4, .inl h5⟩, .inr hguard⟩)))))))
    · exact absurd h hshort

/-- The guard on the text that a URL has. -/
theorem isBlockedLower_iff (h : SixteenBits g0 g1 g2 g3 g4 g5 g6 g7) :
    isBlockedLower (serializeIpv6 [g0, g1, g2, g3, g4, g5, g6, g7]) = true ↔
      ListedIpv6 g0 g1 g2 g3 g4 g5 g6 g7 ∨ GuardOnlyIpv6 g0 g1 g2 g3 g4 g5 g6 g7 := by
  have hlt : ∀ group ∈ [g0, g1, g2, g3, g4, g5, g6, g7], group < 65536 := by
    obtain ⟨h0, h1, h2, h3, h4, h5, h6, h7⟩ := h
    simp only [List.forall_mem_cons]
    exact ⟨h0, h1, h2, h3, h4, h5, h6, h7, nofun⟩
  obtain ⟨literal, htext, hgroups, hcanonical⟩ := exists_canonical rfl hlt
  have hshort := hcanonical.shortLocalPrefix_iff hgroups
  rw [← htext]
  by_cases hspelled : ShortLocalPrefix literal.text
  · refine iff_of_true ?_ (.inr ?_)
    · unfold isBlockedLower
      rw [if_pos]
      rw [hspelled.1, Bool.or_true, Bool.true_or]
    · exact .inr (.inr (.inr (.inr (.inr (.inr (.inr (.inr (hshort.mp hspelled))))))))
  · have hhidden : ¬HiddenMapping literal := by
      rw [Ipv6Literal.hiddenMapping_iff hgroups h]
      rintro ⟨⟨rfl, rfl, rfl, rfl, rfl, rfl⟩, -, -, hfront⟩
      rw [htext, serializeIpv6_mapped] at hfront
      cases hfront
    have hverdict := (isBlockedLower_iff_address literal).mpr
      ⟨hspelled, hcanonical.not_padded, hhidden⟩
    rw [hverdict, Ipv6Literal.address, hgroups, isBlockedAddress_iff h,
      isPrivate_embedded_iff h.2.2.2.2.2.2.1 h.2.2.2.2.2.2.2, isPrivate_embedded_iff h.2.1 h.2.2.1]
    exact blocked_ranges_iff h (fun hgroup => hspelled (hshort.mpr hgroup))

end Ipv6

/-! ## Hosts -/

section Hosts

variable {toLowerCase : String → String}

theorem eq_of_isSuffixOf {suffix front : List Char} {x c : Char}
    (h : (suffix ++ [x]).isSuffixOf (front ++ [c]) = true) : x = c := by
  obtain ⟨rest, hrest⟩ := List.isSuffixOf_iff_suffix.mp h
  rw [← List.append_assoc] at hrest
  exact List.singleton_inj.mp (List.append_inj' hrest rfl).2

/-- A host that ends otherwise than a name of the local machine. -/
theorem isHostNotPublic_of_last {hostname : String} {front : List Char} {c : Char}
    (h : hostname.toList = front ++ [c]) (hdot : c ≠ '.') (ht : c ≠ 't') :
    isHostNotPublic toLowerCase hostname =
      if ['['].isPrefixOf (front ++ [c]) && [']'].isSuffixOf (front ++ [c]) then
        isIpv6NotPublic toLowerCase ((front ++ [c]).drop 1).dropLast
      else
        match ipv4Octets (front ++ [c]) with
        | some octets => isIpv4NotPublic octets
        | none => false := by
  have hfinal : dropFinalDot (front ++ [c]) = front ++ [c] := by
    unfold dropFinalDot
    rw [if_neg]
    intro hsuffix
    exact hdot (@eq_of_isSuffixOf [] front '.' c hsuffix).symm
  have hname : front ++ [c] ≠ "localhost".toList := by
    intro heq
    have hsuffix : ("localhos".toList ++ ['t']).isSuffixOf (front ++ [c]) = true :=
      List.isSuffixOf_iff_suffix.mpr ⟨[], heq.symm⟩
    exact ht (eq_of_isSuffixOf hsuffix).symm
  have hsub : ".localhost".toList.isSuffixOf (front ++ [c]) = false := by
    rw [← Bool.not_eq_true]
    intro hsuffix
    exact ht (@eq_of_isSuffixOf ".localhos".toList front 't' c hsuffix).symm
  unfold isHostNotPublic
  rw [h, hfinal]
  dsimp only
  rw [hsub, decide_eq_false hname]
  rfl

/-- The text of an IPv4 address begins and ends with a digit. -/
theorem serializeIpv4_ends (a b c d : Nat) :
    (∃ x rest, serializeIpv4 [a, b, c, d] = x :: rest ∧ x.isDigit = true) ∧
      ∃ front x, serializeIpv4 [a, b, c, d] = front ++ [x] ∧ x.isDigit = true := by
  have hdigit : ∀ {n : Nat} {x : Char}, x ∈ Nat.toDigits 10 n → x.isDigit = true :=
    fun hx => Nat.isDigit_of_mem_toDigits (by decide) (by decide) hx
  constructor
  · have hne : Nat.toDigits 10 a ≠ [] := Nat.toDigits_ne_nil
    obtain ⟨x, rest, hfirst⟩ := List.exists_cons_of_ne_nil hne
    have hx : x ∈ Nat.toDigits 10 a := hfirst ▸ List.mem_cons_self
    refine ⟨x, rest ++ '.' :: serializeIpv4 [b, c, d], ?_, hdigit hx⟩
    have hparts : [b, c, d].map (Nat.toDigits 10) ≠ [] := List.cons_ne_nil _ _
    unfold serializeIpv4
    rw [List.map_cons, intercalate_cons hparts, hfirst]
    rfl
  · have hlast : Nat.toDigits 10 d ≠ [] := Nat.toDigits_ne_nil
    refine ⟨serializeIpv4 [a, b, c] ++ '.' :: (Nat.toDigits 10 d).dropLast,
      (Nat.toDigits 10 d).getLast hlast, ?_, hdigit (List.getLast_mem hlast)⟩
    have hsplit : [a, b, c, d].map (Nat.toDigits 10) =
        [a, b, c].map (Nat.toDigits 10) ++ [Nat.toDigits 10 d] := rfl
    have hfront : [a, b, c].map (Nat.toDigits 10) ≠ [] := List.cons_ne_nil _ _
    unfold serializeIpv4
    rw [hsplit, intercalate_append hfront (List.cons_ne_nil _ _), List.intercalate_singleton,
      List.append_assoc, List.cons_append, List.dropLast_append_getLast]

theorem isHostNotPublic_ipv4 (a b c d : UInt8) :
    isHostNotPublic toLowerCase (IpHost.ipv4 a b c d).hostname = true ↔
      ListedIpv4 a.toNat b.toNat := by
  obtain ⟨⟨x, rest, hfirst, hx⟩, front, y, hlast, hy⟩ :=
    serializeIpv4_ends a.toNat b.toNat c.toNat d.toNat
  have hoctets : ipv4Octets (serializeIpv4 [a.toNat, b.toNat, c.toNat, d.toNat]) =
      some [a.toNat, b.toNat, c.toNat, d.toNat] := by
    refine ipv4Octets_serializeIpv4 rfl ?_
    simp only [List.forall_mem_cons]
    exact ⟨a.toNat_lt, b.toNat_lt, c.toNat_lt, d.toNat_lt, nofun⟩
  have hname : (IpHost.ipv4 a b c d).hostname.toList = front ++ [y] := by
    rw [← hlast]
    exact String.toList_ofList
  have hbracket : ['['].isPrefixOf (front ++ [y]) = false := by
    rw [← hlast, hfirst, ← Bool.not_eq_true]
    intro hopen
    have hsame : '[' = x := (List.cons_prefix_cons.mp (List.isPrefixOf_iff_prefix.mp hopen)).1
    rw [← hsame] at hx
    exact absurd hx (by decide)
  rw [isHostNotPublic_of_last hname (by rintro rfl; exact absurd hy (by decide))
    (by rintro rfl; exact absurd hy (by decide)), hbracket, Bool.false_and,
    if_neg Bool.false_ne_true, ← hlast, hoctets]
  exact isIpv4NotPublic_iff

/-- A literal in lower case is not changed. -/
theorem toLowerCase_text (hlower : LowersAscii toLowerCase) (literal : Ipv6Literal) :
    (toLowerCase (String.ofList literal.text)).toList = literal.text := by
  have hascii : ∀ c ∈ literal.text, c.toNat < 128 ∧ c.toLower = c := by
    intro c hc
    obtain hhex | rfl | ⟨rfl, -⟩ := literal.mem_text hc
    · have hrange := isHexDigit_range hhex
      refine ⟨by omega, ?_⟩
      unfold Char.toLower
      rw [dif_neg]
      rintro ⟨hupper, hbound⟩
      have hupper : 65 ≤ c.toNat := UInt32.le_iff_toNat_le.mp hupper
      have hbound : c.toNat ≤ 90 := UInt32.le_iff_toNat_le.mp hbound
      omega
    · exact ⟨by decide, rfl⟩
    · exact ⟨by decide, rfl⟩
  rw [hlower _ (by rw [String.toList_ofList]; exact fun c hc => (hascii c hc).1),
    String.toList_ofList]
  exact (List.map_congr_left fun c hc => (hascii c hc).2).trans (List.map_id _)

theorem ipv6Groups_text (literal : Ipv6Literal) :
    ipv6Groups literal.text = some literal.addressGroups := by
  have hzone : literal.text.takeWhile (· ≠ '%') = literal.text :=
    takeWhile_zone fun c hc => (literal.mem_text hc).imp_right fun h => h.imp_right And.left
  have hparse := literal.parseIpv6Groups_text
  unfold parseIpv6Groups at hparse
  rwa [hzone] at hparse

section Groups

variable (g0 g1 g2 g3 g4 g5 g6 g7 : UInt16)

theorem sixteenBits_toNat : SixteenBits g0.toNat g1.toNat g2.toNat g3.toNat g4.toNat g5.toNat
    g6.toNat g7.toNat :=
  ⟨g0.toNat_lt, g1.toNat_lt, g2.toNat_lt, g3.toNat_lt, g4.toNat_lt, g5.toNat_lt, g6.toNat_lt,
    g7.toNat_lt⟩

theorem exists_literal_ipv6 :
    ∃ literal : Ipv6Literal, literal.text = (IpHost.ipv6 g0 g1 g2 g3 g4 g5 g6 g7).address ∧
      literal.addressGroups = [g0.toNat, g1.toNat, g2.toNat, g3.toNat, g4.toNat, g5.toNat,
        g6.toNat, g7.toNat] := by
  obtain ⟨h0, h1, h2, h3, h4, h5, h6, h7⟩ := sixteenBits_toNat g0 g1 g2 g3 g4 g5 g6 g7
  have hlt : ∀ group ∈ [g0.toNat, g1.toNat, g2.toNat, g3.toNat, g4.toNat, g5.toNat, g6.toNat,
      g7.toNat], group < 65536 := by
    simp only [List.forall_mem_cons]
    exact ⟨h0, h1, h2, h3, h4, h5, h6, h7, nofun⟩
  obtain ⟨literal, htext, hgroups, -⟩ := exists_canonical rfl hlt
  exact ⟨literal, htext, hgroups⟩

theorem isHostNotPublic_ipv6 (hlower : LowersAscii toLowerCase) :
    isHostNotPublic toLowerCase (IpHost.ipv6 g0 g1 g2 g3 g4 g5 g6 g7).hostname = true ↔
      (IpHost.ipv6 g0 g1 g2 g3 g4 g5 g6 g7).Listed := by
  obtain ⟨literal, htext, hgroups⟩ := exists_literal_ipv6 g0 g1 g2 g3 g4 g5 g6 g7
  have hname : (IpHost.ipv6 g0 g1 g2 g3 g4 g5 g6 g7).hostname.toList =
      ('[' :: literal.text) ++ [']'] := by
    rw [htext]
    exact String.toList_ofList
  have hopen : ['['].isPrefixOf (('[' :: literal.text) ++ [']']) = true :=
    List.isPrefixOf_iff_prefix.mpr ⟨literal.text ++ [']'], rfl⟩
  have hclose : [']'].isSuffixOf (('[' :: literal.text) ++ [']']) = true :=
    List.isSuffixOf_iff_suffix.mpr ⟨'[' :: literal.text, rfl⟩
  have hstripped : ((('[' :: literal.text) ++ [']']).drop 1).dropLast = literal.text := by
    rw [List.cons_append, List.drop_one, List.tail_cons, List.dropLast_concat]
  rw [isHostNotPublic_of_last hname (by decide) (by decide), hopen, hclose, Bool.and_self,
    if_pos rfl, hstripped]
  unfold isIpv6NotPublic
  rw [toLowerCase_text hlower, ipv6Groups_text, hgroups]
  exact groupsNotPublic_iff (sixteenBits_toNat g0 g1 g2 g3 g4 g5 g6 g7)

end Groups

/-- The check refuses the hosts that both lists have. -/
theorem isHostNotPublic_iff (hlower : LowersAscii toLowerCase) (host : IpHost) :
    isHostNotPublic toLowerCase host.hostname = true ↔ host.Listed := by
  cases host with
  | ipv4 a b c d => exact isHostNotPublic_ipv4 a b c d
  | ipv6 g0 g1 g2 g3 g4 g5 g6 g7 => exact isHostNotPublic_ipv6 g0 g1 g2 g3 g4 g5 g6 g7 hlower

/-- The guard blocks these, and its own. -/
theorem isReservedForGuard_iff (hlower : LowersAscii toLowerCase) (host : IpHost) :
    host.isReservedForGuard toLowerCase = true ↔ host.Listed ∨ host.GuardOnly := by
  cases host with
  | ipv4 a b c d =>
      refine isPrivateOrReservedIpv4_iff (d := d.toNat) ?_
      unfold IpHost.address
      rw [splitOn_serializeIpv4 _ (List.cons_ne_nil _ _), number_toDigits]
  | ipv6 g0 g1 g2 g3 g4 g5 g6 g7 =>
      obtain ⟨literal, htext, -⟩ := exists_literal_ipv6 g0 g1 g2 g3 g4 g5 g6 g7
      unfold IpHost.isReservedForGuard isBlockedIpv6
      dsimp only
      rw [← htext, toLowerCase_text hlower, htext]
      exact isBlockedLower_iff (sixteenBits_toNat g0 g1 g2 g3 g4 g5 g6 g7)

theorem not_listed_of_guardOnly {host : IpHost} (h : host.GuardOnly) : ¬host.Listed := by
  cases host with
  | ipv4 a b c d => exact not_listedIpv4 h
  | ipv6 g0 g1 g2 g3 g4 g5 g6 g7 => exact not_listedIpv6 h

end Hosts

/-! ## The two lists -/

section Lists

variable {toLowerCase : String → String}

theorem refuses_of_not_public {host : IpHost}
    (h : isHostNotPublic toLowerCase host.hostname = true) : Refuses toLowerCase host := by
  intro parseUrl input url hurl hhost
  rw [← hhost] at h
  unfold checkPublicWebAddress
  dsimp only
  rw [hurl]
  dsimp only
  split_ifs <;> exact ⟨_, rfl⟩

/-- The lists are in step on every IP host but those that only the guard has, and what the
check refuses is reserved for the guard. -/
theorem lists_inStep_iff (hlower : LowersAscii toLowerCase) (host : IpHost) :
    (InStep toLowerCase host ↔ ¬host.GuardOnly) ∧
      (isHostNotPublic toLowerCase host.hostname = true →
        host.isReservedForGuard toLowerCase = true) := by
  have hcheck := isHostNotPublic_iff hlower host
  have hguard := isReservedForGuard_iff hlower host
  have hreserved : isHostNotPublic toLowerCase host.hostname = true →
      host.isReservedForGuard toLowerCase = true :=
    fun hrefused => hguard.mpr (.inl (hcheck.mp hrefused))
  refine ⟨⟨?_, ?_⟩, hreserved⟩
  · intro hstep honly
    have hrefused := hstep.refused (hguard.mpr (.inr honly))
    exact not_listed_of_guardOnly honly (hcheck.mp hrefused.1)
  · intro honly
    refine ⟨fun hblocked => ?_, hreserved⟩
    have hrefused := hcheck.mpr ((hguard.mp hblocked).resolve_right honly)
    exact ⟨hrefused, refuses_of_not_public hrefused⟩

/-- A private address, on which the lists are in step. -/
theorem private_address_inStep :
    (InStep lowerAscii (.ipv4 192 168 1 5) ↔ ¬(IpHost.ipv4 192 168 1 5).GuardOnly) ∧
      (isHostNotPublic lowerAscii (IpHost.ipv4 192 168 1 5).hostname = true →
        (IpHost.ipv4 192 168 1 5).isReservedForGuard lowerAscii = true) :=
  lists_inStep_iff lowersAscii_lowerAscii (.ipv4 192 168 1 5)

/-- `198.18.0.1` may be named, and is never called. -/
theorem benchmark_address_not_refused :
    ¬∀ host, InStep lowerAscii host := by
  intro h
  have hrefused := (h (IpHost.ipv4 198 18 0 1)).refused (by decide +kernel)
  exact absurd hrefused.1 (by decide +kernel)

end Lists

/-! ## Accepted addresses -/

/-- An accepted address is one of a secure URL without a login, short enough, and not one of an IP
host that the guard reserves, apart from the ranges that only the guard has. -/
theorem accepted_public {toLowerCase : String → String} (hlower : LowersAscii toLowerCase)
    {parseUrl : String → Option ParsedUrl} {input address : String}
    (h : checkPublicWebAddress toLowerCase parseUrl input = .ok address) :
    ∃ url, parseUrl (Support.trim input) = some url ∧ url.protocol = "https:" ∧
      url.username = "" ∧ url.password = "" ∧
      address = url.origin ++ dropFinalSlashes url.pathname ∧
      utf16Length address ≤ publicWebAddressMaxLength ∧
      ∀ host : IpHost, url.hostname = host.hostname →
        host.isReservedForGuard toLowerCase = true → host.GuardOnly := by
  unfold checkPublicWebAddress at h
  dsimp only at h
  split at h
  · cases h
  · split at h
    · cases h
    · rename_i url hurl
      split_ifs at h with hprotocol hlogin hextra hprivate hlong
      rw [not_or, not_not, not_not] at hlogin
      obtain rfl := Except.ok.inj h
      refine ⟨url, hurl, not_not.mp hprotocol, hlogin.1, hlogin.2, rfl, Nat.le_of_not_lt hlong, ?_⟩
      intro host hhost hreserved
      rw [hhost, isHostNotPublic_iff hlower] at hprivate
      exact ((isReservedForGuard_iff hlower host).mp hreserved).resolve_left hprivate

/-- What the parser makes of an address for benchmarks. -/
def benchmarkUrl : ParsedUrl where
  protocol := "https:"
  username := ""
  password := ""
  hostname := "198.18.0.1"
  origin := "https://198.18.0.1"
  pathname := "/"

/-- The address is accepted, and lies in a range that only the guard has. -/
theorem benchmark_accepted :
    checkPublicWebAddress lowerAscii (fun _ => some benchmarkUrl) "https://198.18.0.1/" =
        .ok "https://198.18.0.1" ∧ (IpHost.ipv4 198 18 0 1).GuardOnly := by
  have hparsed : checkPublicWebAddress lowerAscii (fun _ => some benchmarkUrl)
      "https://198.18.0.1/" = .ok "https://198.18.0.1" := by decide +kernel
  obtain ⟨url, hurl, -, -, -, -, -, hranges⟩ := accepted_public lowersAscii_lowerAscii hparsed
  obtain rfl := Option.some.inj hurl
  exact ⟨hparsed, hranges (.ipv4 198 18 0 1) (by decide +kernel) (by decide +kernel)⟩

end GoatCitadel.Contracts.PublicWebAddress
