import GoatCitadel.Support.Separated
import GoatCitadel.Support.Text
import Mathlib.Data.List.TakeWhile
import Mathlib.Tactic.IntervalCases

/-!
# Texts of IPv6 addresses

`parseIpv6Groups` reads the eight groups of an address from its text.  The texts
that `isIP` takes for an IPv6 address without a zone are built here from their
groups, the place of `::` and a dotted end, and the parser is shown to read the
groups of all of them back.
-/

namespace GoatCitadel.Sandbox

open GoatCitadel.Support

/-! ## Numbers -/

/-- `[0-9a-f]` -/
def isHexDigit (c : Char) : Bool :=
  c.isDigit || ('a' ≤ c && c ≤ 'f')

/-- `[0-9a-f]{1,4}` -/
def isGroup (part : List Char) : Bool :=
  1 ≤ part.length && part.length ≤ 4 && part.all isHexDigit

/-- `\d{1,3}` -/
def isShortNumber (part : List Char) : Bool :=
  1 ≤ part.length && part.length ≤ 3 && part.all Char.isDigit

def hexDigitValue (c : Char) : Nat :=
  if c.isDigit then c.toNat - 48 else c.toNat - 87

/-- `Number.parseInt(part, 16)` of a group. -/
def parseHex (part : List Char) : Nat :=
  part.foldl (fun value c => 16 * value + hexDigitValue c) 0

/-- `Number(part)` of a part of digits. -/
def number (part : List Char) : Nat :=
  Nat.ofDigitChars 10 part 0

/-! ## The parser -/

/-- The match of `/^(.*:)(\d{1,3})\.(\d{1,3})\.(\d{1,3})\.(\d{1,3})$/`: what stands
up to the last colon, and the numbers after it. -/
def dottedTail (text : List Char) : Option (List Char × List Nat) :=
  let front := (text.reverse.dropWhile (· ≠ ':')).reverse
  let parts := (text.reverse.takeWhile (· ≠ ':')).reverse.splitOn '.'
  if !front.isEmpty && front.all (!isLineTerminator ·) && parts.length = 4 &&
      parts.all isShortNumber then
    some (front, parts.map number)
  else none

/-- The text with its dotted end written as two groups. -/
def writeDottedAsGroups (text : List Char) : Option (List Char) :=
  match dottedTail text with
  | none => some text
  | some (front, octets) =>
      if octets.any (255 < ·) then none
      else
        let hi := octets.getD 0 0 <<< 8 ||| octets.getD 1 0
        let lo := octets.getD 2 0 <<< 8 ||| octets.getD 3 0
        some (front ++ Nat.toDigits 16 hi ++ ':' :: Nat.toDigits 16 lo)

def parseSide (side : List Char) : Option (List Nat) :=
  if side = [] then some []
  else (side.splitOn ':').mapM fun part =>
    if isGroup part then some (parseHex part) else none

/-- The groups of a text without a dotted end. -/
def readGroups (text : List Char) : Option (List Nat) :=
  match splitPair ':' text with
  | [whole] => do
      let head ← parseSide whole
      if head.length = 8 then some head else none
  | [left, right] => do
      let head ← parseSide left
      let tail ← parseSide right
      if head.length + tail.length < 8 then
        some (head ++ List.replicate (8 - head.length - tail.length) 0 ++ tail)
      else none
  | _ => none

def parseIpv6Groups (ipv6Lower : List Char) : Option (List Nat) := do
  let text ← writeDottedAsGroups (ipv6Lower.takeWhile (· ≠ '%'))
  readGroups text

/-! ## `isIP` -/

/-- A number up to 255 without leading zeros. -/
def isOctet (part : List Char) : Bool :=
  isShortNumber part && number part ≤ 255 && (part.length = 1 || part.head? ≠ some '0')

def isIPv4 (text : List Char) : Bool :=
  (text.splitOn '.').length = 4 && (text.splitOn '.').all isOctet

/-- The number of groups that the parts between colons stand for.  The last part may
be dotted. -/
def partsLength (dotted : Bool) : List (List Char) → Option Nat
  | [] => some 0
  | part :: parts =>
      if isGroup part then (partsLength dotted parts).map (· + 1)
      else if dotted && isIPv4 part && parts.isEmpty then some 2
      else none

def sideLength (dotted : Bool) (side : List Char) : Option Nat :=
  partsLength dotted (if side = [] then [] else side.splitOn ':')

/-- The texts of IPv6 addresses, in lower case and without a zone. -/
def isIPv6Body (text : List Char) : Bool :=
  match splitPair ':' text with
  | [whole] => sideLength true whole = some 8
  | [left, right] =>
      match sideLength false left, sideLength true right with
      | some before, some after => before + after ≤ 7
      | _, _ => false
  | _ => false

/-- `%[0-9a-zA-Z-.:]+`, or nothing. -/
def isZone (zone : List Char) : Bool :=
  zone.isEmpty || (1 < zone.length &&
    zone.tail.all fun c => c.isAlphanum || c = '-' || c = '.' || c = ':')

def isIPv6 (text : List Char) : Bool :=
  isIPv6Body ((text.takeWhile (· ≠ '%')).map Char.toLower) && isZone (text.dropWhile (· ≠ '%'))

/-- `isIP` of `node:net`. -/
def isIP (text : List Char) : Nat :=
  if isIPv4 text then 4 else if isIPv6 text then 6 else 0

/-! ## Literals -/

/-- So many groups and dotted ends make an address.  `::` stands for at least one
group. -/
def MakesAddress (before : List (List Char)) (after : Option (List (List Char)))
    (dotted : Nat) : Prop :=
  match after with
  | none => before.length + 2 * dotted = 8
  | some groups => before.length + groups.length + 2 * dotted ≤ 7

/-- A text of an IPv6 address, in lower case and without a zone. -/
structure Ipv6Literal where
  /-- The groups before `::`, or all groups. -/
  before : List (List Char)
  /-- The groups after `::`, if it occurs. -/
  after : Option (List (List Char))
  /-- The numbers of a dotted end. -/
  quad : Option (List (List Char))
  groups : ∀ group ∈ before ++ after.getD [], isGroup group = true
  octets : ∀ numbers ∈ quad, numbers.length = 4 ∧
    ∀ octet ∈ numbers, isShortNumber octet = true ∧ number octet ≤ 255
  size : MakesAddress before after quad.toList.length

namespace Ipv6Literal

variable (literal : Ipv6Literal)

/-- The dotted end, as a part of the text. -/
def dotted : List (List Char) :=
  literal.quad.toList.map ['.'].intercalate

def text : List Char :=
  match literal.after with
  | none => [':'].intercalate (literal.before ++ literal.dotted)
  | some groups =>
      [':'].intercalate literal.before ++ ':' :: ':' ::
        [':'].intercalate (groups ++ literal.dotted)

/-- The two groups that a dotted end stands for. -/
def quadGroups : List Nat :=
  literal.quad.toList.flatMap fun numbers =>
    [number (numbers.getD 0 []) * 256 + number (numbers.getD 1 []),
      number (numbers.getD 2 []) * 256 + number (numbers.getD 3 [])]

/-- The eight groups of the address. -/
def addressGroups : List Nat :=
  match literal.after with
  | none => literal.before.map parseHex ++ literal.quadGroups
  | some groups =>
      literal.before.map parseHex ++
        List.replicate (8 - literal.before.length - groups.length -
          2 * literal.quad.toList.length) 0 ++
        groups.map parseHex ++ literal.quadGroups

end Ipv6Literal

/-- The address of eight groups of sixteen bits. -/
def addressOf (groups : List Nat) : Nat :=
  groups.foldl (fun address group => address * 65536 + group) 0

/-- The 128-bit address. -/
def Ipv6Literal.address (literal : Ipv6Literal) : Nat :=
  addressOf literal.addressGroups

/-! ## Groups and numbers -/

variable {part text : List Char} {parts : List (List Char)}

theorem isHexDigit_range {c : Char} (h : isHexDigit c = true) :
    48 ≤ c.toNat ∧ c.toNat ≤ 57 ∨ 97 ≤ c.toNat ∧ c.toNat ≤ 102 := by
  simp only [isHexDigit, Char.isDigit, ge_iff_le, Bool.or_eq_true, Bool.and_eq_true,
    decide_eq_true_eq, Char.le_def, UInt32.le_iff_toNat_le] at h
  exact h

theorem isGroup_iff :
    isGroup part = true ↔
      (1 ≤ part.length ∧ part.length ≤ 4) ∧ ∀ c ∈ part, isHexDigit c = true := by
  simp [isGroup]

theorem isShortNumber_iff :
    isShortNumber part = true ↔
      (1 ≤ part.length ∧ part.length ≤ 3) ∧ ∀ c ∈ part, c.isDigit = true := by
  simp [isShortNumber]

theorem ne_nil_of_isGroup (h : isGroup part = true) : part ≠ [] := by
  rintro rfl
  exact absurd h (by decide)

/-- A group holds hexadecimal digits only. -/
theorem not_mem_of_isGroup {c : Char} (h : isGroup part = true) (hc : isHexDigit c = false) :
    c ∉ part := by
  intro hmem
  rw [(isGroup_iff.mp h).2 c hmem] at hc
  cases hc

theorem hexDigitValue_le {c : Char} (h : isHexDigit c = true) : hexDigitValue c ≤ 15 := by
  have hrange := isHexDigit_range h
  unfold hexDigitValue
  split
  · next hdigit =>
      have := isDigit_range hdigit
      omega
  · omega

theorem foldl_hex_lt (h : ∀ c ∈ part, isHexDigit c = true) (value : Nat) :
    part.foldl (fun value c => 16 * value + hexDigitValue c) value <
      16 ^ part.length * (value + 1) := by
  induction part generalizing value with
  | nil => simp
  | cons c part ih =>
      obtain ⟨hc, hpart⟩ := List.forall_mem_cons.mp h
      have hdigit := hexDigitValue_le hc
      calc
        (c :: part).foldl (fun value c => 16 * value + hexDigitValue c) value
            < 16 ^ part.length * (16 * value + hexDigitValue c + 1) := ih hpart _
        _ ≤ 16 ^ part.length * (16 * (value + 1)) :=
          Nat.mul_le_mul_left _ (by omega)
        _ = 16 ^ (c :: part).length * (value + 1) := by
          rw [List.length_cons, Nat.pow_succ, Nat.mul_assoc]

theorem parseHex_lt (h : isGroup part = true) : parseHex part < 65536 := by
  obtain ⟨⟨-, hlength⟩, hdigits⟩ := isGroup_iff.mp h
  calc
    parseHex part < 16 ^ part.length * (0 + 1) := foldl_hex_lt hdigits 0
    _ = 16 ^ part.length := by rw [Nat.zero_add, Nat.mul_one]
    _ ≤ 16 ^ 4 := Nat.pow_le_pow_right (by decide) hlength

theorem hexDigitValue_inj {c c' : Char} (h : isHexDigit c = true) (h' : isHexDigit c' = true)
    (hvalue : hexDigitValue c = hexDigitValue c') : c = c' := by
  have hrange := isHexDigit_range h
  have hrange' := isHexDigit_range h'
  have hdigit : ∀ {c : Char}, isHexDigit c = true →
      hexDigitValue c = if c.toNat ≤ 57 then c.toNat - 48 else c.toNat - 87 := by
    intro c hc
    unfold hexDigitValue
    have := isHexDigit_range hc
    by_cases hdigit : c.isDigit = true
    · rw [if_pos hdigit, if_pos (isDigit_range hdigit).2]
    · rw [if_neg hdigit, if_neg]
      intro hle
      refine hdigit ?_
      simp only [Char.isDigit, ge_iff_le, Bool.and_eq_true, decide_eq_true_eq,
        UInt32.le_iff_toNat_le]
      change 48 ≤ c.toNat ∧ c.toNat ≤ 57
      omega
  rw [hdigit h, hdigit h'] at hvalue
  refine Char.toNat_inj.mp ?_
  split at hvalue <;> split at hvalue <;> omega

/-- Digits of one number are the same, when there are equally many. -/
theorem foldl_hex_inj {part' : List Char} (h : ∀ c ∈ part, isHexDigit c = true)
    (h' : ∀ c ∈ part', isHexDigit c = true) (hlength : part.length = part'.length)
    {value value' : Nat} (hsame : part.foldl (fun value c => 16 * value + hexDigitValue c) value =
      part'.foldl (fun value c => 16 * value + hexDigitValue c) value') :
    value = value' ∧ part = part' := by
  induction part generalizing part' value value' with
  | nil =>
      rw [List.eq_nil_of_length_eq_zero hlength.symm] at hsame ⊢
      exact ⟨hsame, rfl⟩
  | cons c part ih =>
      obtain ⟨c', part', rfl⟩ := List.exists_cons_of_length_eq_add_one hlength.symm
      obtain ⟨hc, hpart⟩ := List.forall_mem_cons.mp h
      obtain ⟨hc', hpart'⟩ := List.forall_mem_cons.mp h'
      obtain ⟨hfirst, rfl⟩ := ih hpart hpart' (Nat.succ.inj hlength) hsame
      have hvalues : 16 * value + hexDigitValue c = 16 * value' + hexDigitValue c' := hfirst
      have hdigit := hexDigitValue_le hc
      have hdigit' := hexDigitValue_le hc'
      have hchar : c = c' := hexDigitValue_inj hc hc' (by omega)
      exact ⟨by omega, by rw [hchar]⟩

theorem group_eq {part' : List Char} (h : isGroup part = true) (h' : isGroup part' = true)
    (hlength : part.length = part'.length) (hsame : parseHex part = parseHex part') :
    part = part' :=
  (foldl_hex_inj (isGroup_iff.mp h).2 (isGroup_iff.mp h').2 hlength hsame).2

theorem parseHex_lt_pow (h : isGroup part = true) : parseHex part < 16 ^ part.length := by
  have hlt := foldl_hex_lt (isGroup_iff.mp h).2 0
  rwa [Nat.zero_add, Nat.mul_one] at hlt

/-- A number that needs `n` digits is not written with fewer. -/
theorem le_length_of_parseHex {n : Nat} (h : isGroup part = true)
    (hvalue : 16 ^ n ≤ parseHex part) :
    n + 1 ≤ part.length := by
  by_contra hshort
  have hpow : 16 ^ part.length ≤ 16 ^ n := Nat.pow_le_pow_right (by decide) (by omega)
  have := parseHex_lt_pow h
  omega

theorem eq_of_parseHex_four {digits : List Char} (h : isGroup part = true)
    (hdigits : isGroup digits = true) (hlength : digits.length = 4)
    (hlarge : 16 ^ 3 ≤ parseHex digits) (hsame : parseHex part = parseHex digits) :
    part = digits := by
  have hfour := le_length_of_parseHex h (hsame.symm ▸ hlarge)
  have hle := (isGroup_iff.mp h).1.2
  exact group_eq h hdigits (by omega) hsame

theorem zeros_of_parseHex (h : isGroup part = true) (hzero : parseHex part = 0) :
    ∀ c ∈ part, c = '0' := by
  obtain ⟨⟨hpos, hle⟩, hdigits⟩ := isGroup_iff.mp h
  have hzeros : ∀ n, parseHex (List.replicate n '0') = 0 := by
    intro n
    induction n with
    | zero => rfl
    | succ n ih => rw [List.replicate_succ]; exact ih
  have hgroup : isGroup (List.replicate part.length '0') = true := by
    refine isGroup_iff.mpr ⟨by simpa using ⟨hpos, hle⟩, fun c hc => ?_⟩
    rw [List.eq_of_mem_replicate hc]
    rfl
  have hpart := group_eq h hgroup (by simp) (hzero.trans (hzeros _).symm)
  intro c hc
  rw [hpart] at hc
  exact List.eq_of_mem_replicate hc

theorem digitChar_hex {d : Nat} (h : d < 16) :
    isHexDigit (Nat.digitChar d) = true ∧ hexDigitValue (Nat.digitChar d) = d := by
  interval_cases d <;> decide

/-- `parseInt(n.toString(16), 16)` is `n`. -/
theorem parseHex_toDigits (n : Nat) :
    (∀ c ∈ Nat.toDigits 16 n, isHexDigit c = true) ∧ parseHex (Nat.toDigits 16 n) = n := by
  induction n using Nat.strongRecOn with
  | ind n ih =>
      by_cases h : n < 16
      · rw [Nat.toDigits_of_lt_base h]
        obtain ⟨hdigit, hvalue⟩ := digitChar_hex h
        refine ⟨by simpa using hdigit, ?_⟩
        simp [parseHex, hvalue]
      · obtain ⟨hdigits, hvalue⟩ := ih (n / 16) (by omega)
        obtain ⟨hlast, hlastValue⟩ := digitChar_hex (Nat.mod_lt n (by decide : 0 < 16))
        rw [Nat.toDigits_of_base_le (by decide) (by omega)]
        constructor
        · intro c hc
          rcases List.mem_append.mp hc with hc | hc
          · exact hdigits c hc
          · rw [List.mem_singleton.mp hc]
            exact hlast
        · rw [parseHex, List.foldl_append, ← parseHex, hvalue]
          simp only [List.foldl_cons, List.foldl_nil, hlastValue]
          omega

theorem isGroup_toDigits {n : Nat} (h : n < 65536) : isGroup (Nat.toDigits 16 n) = true := by
  refine isGroup_iff.mpr ⟨⟨Nat.length_toDigits_pos, ?_⟩, (parseHex_toDigits n).1⟩
  exact (Nat.length_toDigits_le_iff (by decide) (by decide)).mpr h

/-! ## Reading a literal -/

/-- The numbers of a dotted end make two groups of sixteen bits. -/
theorem shiftLeft_or_octet {high low : Nat} (hlow : low ≤ 255) :
    high <<< 8 ||| low = high * 256 + low := by
  rw [← Nat.shiftLeft_add_eq_or_of_lt (by omega : low < 2 ^ 8), Nat.shiftLeft_eq]

/-- The text is cut at its last colon. -/
theorem dottedTail_append {front tail : List Char} (htail : ':' ∉ tail) :
    dottedTail (front ++ ':' :: tail) =
      if (front ++ [':']).all (!isLineTerminator ·) && (tail.splitOn '.').length = 4 &&
          (tail.splitOn '.').all isShortNumber then
        some (front ++ [':'], (tail.splitOn '.').map number)
      else none := by
  have hreverse : (front ++ ':' :: tail).reverse = tail.reverse ++ ':' :: front.reverse := by
    simp
  have hfree : ∀ c ∈ tail.reverse, decide (c ≠ ':') = true := by
    intro c hc
    refine decide_eq_true fun h => htail ?_
    rw [← h]
    exact List.mem_reverse.mp hc
  have hdrop : ((front ++ ':' :: tail).reverse.dropWhile (· ≠ ':')).reverse =
      front ++ [':'] := by
    rw [hreverse, List.dropWhile_append_of_pos hfree, List.dropWhile_cons_of_neg (by simp)]
    simp
  have htake : ((front ++ ':' :: tail).reverse.takeWhile (· ≠ ':')).reverse = tail := by
    rw [hreverse, List.takeWhile_append_of_pos hfree, List.takeWhile_cons_of_neg (by simp)]
    simp
  rw [dottedTail, hdrop, htake]
  simp

theorem dottedTail_eq_none (h : '.' ∉ text) : dottedTail text = none := by
  have htail : '.' ∉ (text.reverse.takeWhile (· ≠ ':')).reverse := by
    intro hmem
    have hmem' := (List.takeWhile_sublist _).subset (List.mem_reverse.mp hmem)
    exact h (List.mem_reverse.mp hmem')
  rw [dottedTail, List.splitOn_eq_singleton htail]
  simp

theorem exists_four {α : Type*} {l : List α} (h : l.length = 4) :
    ∃ a b c d, l = [a, b, c, d] := by
  obtain ⟨a, l, rfl⟩ := List.exists_of_length_succ l h
  obtain ⟨b, c, d, rfl⟩ := List.length_eq_three.mp (Nat.succ.inj h)
  exact ⟨a, b, c, d, rfl⟩

theorem not_isLineTerminator {c : Char} (h : isHexDigit c = true ∨ c = ':' ∨ c = '.') :
    isLineTerminator c = false := by
  rcases h with h | rfl | rfl
  · have hrange := isHexDigit_range h
    have hbelow : ∀ bound, 102 < bound → (c.toNat == bound) = false := by
      intro bound hbound
      exact beq_false_of_ne (by omega)
    have hline : c ≠ '\n' ∧ c ≠ '\r' := by
      constructor <;> rintro rfl <;> simp at hrange
    simp [isLineTerminator, hbelow, hline.1, hline.2]
  · rfl
  · rfl

theorem splitOn_numbers {numbers : List (List Char)} (hlength : numbers.length = 4)
    (hnumbers : ∀ part ∈ numbers, isShortNumber part = true) :
    (['.'].intercalate numbers).splitOn '.' = numbers := by
  refine List.splitOn_intercalate '.' (fun part hpart hdot => ?_) ?_
  · have hdigit := (isShortNumber_iff.mp (hnumbers part hpart)).2 '.' hdot
    exact absurd hdigit (by decide)
  · rintro rfl
    cases hlength

/-- The four numbers of a dotted end are written as two groups, unless one of them
is too large. -/
theorem writeDottedAsGroups_append {front : List Char} {a b c d : List Char}
    (hfront : ∀ x ∈ front, isHexDigit x = true ∨ x = ':' ∨ x = '.')
    (hnumbers : ∀ part ∈ [a, b, c, d], isShortNumber part = true) :
    writeDottedAsGroups (front ++ ':' :: ['.'].intercalate [a, b, c, d]) =
      if number a ≤ 255 ∧ number b ≤ 255 ∧ number c ≤ 255 ∧ number d ≤ 255 then
        some (front ++ ':' :: [':'].intercalate
          ([number a * 256 + number b, number c * 256 + number d].map (Nat.toDigits 16)))
      else none := by
  have hsplit : (['.'].intercalate [a, b, c, d]).splitOn '.' = [a, b, c, d] :=
    splitOn_numbers rfl hnumbers
  have hcolon : ':' ∉ ['.'].intercalate [a, b, c, d] := by
    intro h
    rcases mem_intercalate h with h | ⟨part, hpart, hc⟩
    · exact absurd h (by decide)
    · have hdigit := (isShortNumber_iff.mp (hnumbers part hpart)).2 ':' hc
      exact absurd hdigit (by decide)
  have hlines : (front ++ [':']).all (!isLineTerminator ·) = true := by
    refine List.all_eq_true.mpr fun x hx => ?_
    rcases List.mem_append.mp hx with hx | hx
    · rw [not_isLineTerminator (hfront x hx)]
      rfl
    · rw [not_isLineTerminator (.inr (.inl (List.mem_singleton.mp hx)))]
      rfl
  have htail : dottedTail (front ++ ':' :: ['.'].intercalate [a, b, c, d]) =
      some (front ++ [':'], [a, b, c, d].map number) := by
    rw [dottedTail_append hcolon, hsplit, hlines, List.all_eq_true.mpr hnumbers]
    rfl
  rw [writeDottedAsGroups, htail]
  simp only
  split
  · next hlarge =>
      rw [if_neg]
      simp only [List.map_cons, List.map_nil, List.any_cons, List.any_nil, Bool.or_false,
        Bool.or_eq_true, decide_eq_true_eq] at hlarge
      omega
  · next hsmall =>
      simp only [List.map_cons, List.map_nil, List.any_cons, List.any_nil, Bool.or_false,
        Bool.or_eq_true, decide_eq_true_eq, not_or, Nat.not_lt] at hsmall
      obtain ⟨ha, hb, hc, hd⟩ := hsmall
      rw [if_pos ⟨ha, hb, hc, hd⟩]
      simp [shiftLeft_or_octet hb, shiftLeft_or_octet hd, List.intercalate_cons_cons]

theorem mapM_parseHex (h : ∀ part ∈ parts, isGroup part = true) :
    (parts.mapM fun part => if isGroup part then some (parseHex part) else none) =
      some (parts.map parseHex) := by
  induction parts with
  | nil => rfl
  | cons part parts ih =>
      obtain ⟨hpart, hparts⟩ := List.forall_mem_cons.mp h
      rw [List.mapM_cons, if_pos hpart, ih hparts]
      rfl

/-- Groups between colons are read back. -/
theorem parseSide_intercalate (h : ∀ part ∈ parts, isGroup part = true) :
    parseSide ([':'].intercalate parts) = some (parts.map parseHex) := by
  cases parts with
  | nil => rfl
  | cons part parts =>
      have hne : [':'].intercalate (part :: parts) ≠ [] := by
        intro hnil
        have hsplit := List.splitOn_intercalate ':'
          (fun group hgroup => not_mem_of_isGroup (h group hgroup) (by decide))
          (List.cons_ne_nil part parts)
        rw [hnil, List.splitOn_nil] at hsplit
        refine ne_nil_of_isGroup (h part List.mem_cons_self) ?_
        exact (List.cons.inj hsplit).1.symm
      rw [parseSide, if_neg hne, List.splitOn_intercalate ':'
        (fun group hgroup => not_mem_of_isGroup (h group hgroup) (by decide))
        (List.cons_ne_nil part parts)]
      exact mapM_parseHex h

theorem separated_of_isGroup (h : ∀ part ∈ parts, isGroup part = true) :
    ∀ part ∈ parts, ':' ∉ part ∧ part ≠ [] := by
  intro part hpart
  exact ⟨not_mem_of_isGroup (h part hpart) (by decide), ne_nil_of_isGroup (h part hpart)⟩

theorem readGroups_whole (h : ∀ part ∈ parts, isGroup part = true) :
    readGroups ([':'].intercalate parts) =
      if parts.length = 8 then some (parts.map parseHex) else none := by
  rw [readGroups, splitPair_intercalate (separated_of_isGroup h)]
  simp [parseSide_intercalate h]

theorem readGroups_pair {before after : List (List Char)}
    (hbefore : ∀ part ∈ before, isGroup part = true)
    (hafter : ∀ part ∈ after, isGroup part = true) :
    readGroups ([':'].intercalate before ++ ':' :: ':' :: [':'].intercalate after) =
      if before.length + after.length < 8 then
        some (before.map parseHex ++ List.replicate (8 - before.length - after.length) 0 ++
          after.map parseHex)
      else none := by
  rw [readGroups, splitPair_intercalate_append (separated_of_isGroup hbefore), splitPair,
    if_pos ⟨rfl, rfl⟩, splitPair_intercalate (separated_of_isGroup hafter)]
  simp [parseSide_intercalate hbefore, parseSide_intercalate hafter]

theorem takeWhile_zone (h : ∀ c ∈ text, isHexDigit c = true ∨ c = ':' ∨ c = '.') :
    text.takeWhile (· ≠ '%') = text := by
  refine List.takeWhile_eq_self_iff.mpr fun c hc => decide_eq_true ?_
  rintro rfl
  rcases h _ hc with h | h | h
  · exact absurd h (by decide)
  · exact absurd h (by decide)
  · exact absurd h (by decide)

theorem parseIpv6Groups_plain (h : ∀ c ∈ text, isHexDigit c = true ∨ c = ':') :
    parseIpv6Groups text = readGroups text := by
  have hdots : '.' ∉ text := by
    intro hdot
    rcases h _ hdot with h | h
    · exact absurd h (by decide)
    · exact absurd h (by decide)
  have hzone : text.takeWhile (· ≠ '%') = text :=
    takeWhile_zone fun c hc => (h c hc).imp_right .inl
  rw [parseIpv6Groups, hzone, writeDottedAsGroups, dottedTail_eq_none hdots]
  rfl

theorem parseIpv6Groups_dotted {front : List Char} {a b c d : List Char}
    (hfront : ∀ x ∈ front, isHexDigit x = true ∨ x = ':')
    (hnumbers : ∀ part ∈ [a, b, c, d], isShortNumber part = true) {groups : List Nat}
    (h : parseIpv6Groups (front ++ ':' :: ['.'].intercalate [a, b, c, d]) = some groups) :
    (number a ≤ 255 ∧ number b ≤ 255 ∧ number c ≤ 255 ∧ number d ≤ 255) ∧
      readGroups (front ++ ':' :: [':'].intercalate
        ([number a * 256 + number b, number c * 256 + number d].map (Nat.toDigits 16))) =
        some groups := by
  have hzone : (front ++ ':' :: ['.'].intercalate [a, b, c, d]).takeWhile (· ≠ '%') =
      front ++ ':' :: ['.'].intercalate [a, b, c, d] := by
    refine takeWhile_zone fun x hx => ?_
    rcases List.mem_append.mp hx with hx | hx
    · exact (hfront x hx).imp_right .inl
    rcases List.mem_cons.mp hx with rfl | hx
    · exact .inr (.inl rfl)
    rcases mem_intercalate hx with rfl | ⟨part, hpart, hx⟩
    · exact .inr (.inr rfl)
    · have hdigit := (isShortNumber_iff.mp (hnumbers part hpart)).2 x hx
      refine .inl ?_
      rw [isHexDigit, hdigit, Bool.true_or]
  rw [parseIpv6Groups, hzone, writeDottedAsGroups_append
    (fun x hx => (hfront x hx).imp_right .inl) hnumbers] at h
  split at h
  · next hsmall => exact ⟨hsmall, h⟩
  · cases h

namespace Ipv6Literal

variable (literal : Ipv6Literal) {groups : List (List Char)}

theorem isGroup_of_mem_before {group : List Char} (h : group ∈ literal.before) :
    isGroup group = true :=
  literal.groups group (List.mem_append_left _ h)

theorem isGroup_of_mem_after (hafter : literal.after = some groups) {group : List Char}
    (h : group ∈ groups) : isGroup group = true := by
  refine literal.groups group (List.mem_append_right _ ?_)
  rw [hafter]
  exact h

/-- The text with the dotted end written as two groups. -/
def undotted : List Char :=
  match literal.after with
  | none => [':'].intercalate (literal.before ++ literal.quadGroups.map (Nat.toDigits 16))
  | some groups =>
      [':'].intercalate literal.before ++ ':' :: ':' ::
        [':'].intercalate (groups ++ literal.quadGroups.map (Nat.toDigits 16))

theorem text_of_none (h : literal.after = none) :
    literal.text = [':'].intercalate (literal.before ++ literal.dotted) := by
  rw [text, h]

theorem text_of_some (h : literal.after = some groups) :
    literal.text = [':'].intercalate literal.before ++ ':' :: ':' ::
      [':'].intercalate (groups ++ literal.dotted) := by
  rw [text, h]

theorem undotted_of_none (h : literal.after = none) :
    literal.undotted = [':'].intercalate
      (literal.before ++ literal.quadGroups.map (Nat.toDigits 16)) := by
  rw [undotted, h]

theorem undotted_of_some (h : literal.after = some groups) :
    literal.undotted = [':'].intercalate literal.before ++ ':' :: ':' ::
      [':'].intercalate (groups ++ literal.quadGroups.map (Nat.toDigits 16)) := by
  rw [undotted, h]

theorem addressGroups_of_none (h : literal.after = none) :
    literal.addressGroups = literal.before.map parseHex ++ literal.quadGroups := by
  rw [addressGroups, h]

theorem addressGroups_of_some (h : literal.after = some groups) :
    literal.addressGroups = literal.before.map parseHex ++
      List.replicate (8 - literal.before.length - groups.length -
        2 * literal.quad.toList.length) 0 ++
      groups.map parseHex ++ literal.quadGroups := by
  rw [addressGroups, h]

theorem quadGroups_lt {group : Nat} (h : group ∈ literal.quadGroups) : group < 65536 := by
  obtain ⟨numbers, hnumbers, hgroup⟩ := List.mem_flatMap.mp h
  obtain ⟨hlength, hoctets⟩ := literal.octets numbers (Option.mem_toList.mp hnumbers)
  obtain ⟨a, b, c, d, rfl⟩ := exists_four hlength
  simp only [List.forall_mem_cons] at hoctets
  obtain ⟨⟨-, ha⟩, ⟨-, hb⟩, ⟨-, hc⟩, ⟨-, hd⟩, -⟩ := hoctets
  simp only [List.getD_cons_zero, List.getD_cons_succ, List.mem_cons, List.not_mem_nil,
    or_false] at hgroup
  omega

theorem isGroup_quadGroups (h : part ∈ literal.quadGroups.map (Nat.toDigits 16)) :
    isGroup part = true := by
  obtain ⟨group, hgroup, rfl⟩ := List.mem_map.mp h
  exact isGroup_toDigits (literal.quadGroups_lt hgroup)

/-- The characters of a literal. -/
theorem mem_text {c : Char} (h : c ∈ literal.text) :
    isHexDigit c = true ∨ c = ':' ∨ c = '.' ∧ literal.quad ≠ none := by
  have hparts : ∀ {parts : List (List Char)}, (∀ part ∈ parts, isGroup part = true) →
      c ∈ [':'].intercalate (parts ++ literal.dotted) →
      isHexDigit c = true ∨ c = ':' ∨ c = '.' ∧ literal.quad ≠ none := by
    intro parts hgroups hc
    rcases mem_intercalate hc with rfl | ⟨part, hpart, hc⟩
    · exact .inr (.inl rfl)
    rcases List.mem_append.mp hpart with hpart | hpart
    · exact .inl ((isGroup_iff.mp (hgroups part hpart)).2 c hc)
    obtain ⟨numbers, hnumbers, rfl⟩ := List.mem_map.mp hpart
    have hquad := Option.mem_toList.mp hnumbers
    rcases mem_intercalate hc with rfl | ⟨octet, hoctet, hc⟩
    · refine .inr (.inr ⟨rfl, ?_⟩)
      rw [hquad]
      simp
    · have hshort := ((literal.octets numbers hquad).2 octet hoctet).1
      have hdigit := (isShortNumber_iff.mp hshort).2 c hc
      refine .inl ?_
      rw [isHexDigit, hdigit, Bool.true_or]
  cases hafter : literal.after with
  | none =>
      rw [literal.text_of_none hafter] at h
      exact hparts (fun part => literal.isGroup_of_mem_before) h
  | some groups =>
      rw [literal.text_of_some hafter] at h
      rcases List.mem_append.mp h with h | h
      · rcases mem_intercalate h with rfl | ⟨part, hpart, hc⟩
        · exact .inr (.inl rfl)
        · exact .inl ((isGroup_iff.mp (literal.isGroup_of_mem_before hpart)).2 c hc)
      rcases List.mem_cons.mp h with rfl | h
      · exact .inr (.inl rfl)
      rcases List.mem_cons.mp h with rfl | h
      · exact .inr (.inl rfl)
      exact hparts (fun part => literal.isGroup_of_mem_after hafter) h

/-- A dotted end follows the last colon, and its two groups would follow it too. -/
theorem text_eq_of_quad {numbers : List (List Char)} (hquad : literal.quad = some numbers) :
    ∃ front, literal.text = front ++ ':' :: ['.'].intercalate numbers ∧
      literal.undotted = front ++ ':' ::
        [':'].intercalate (literal.quadGroups.map (Nat.toDigits 16)) := by
  have hdotted : literal.dotted = [['.'].intercalate numbers] := by
    rw [dotted, hquad]
    rfl
  have hgroups : literal.quadGroups.map (Nat.toDigits 16) ≠ [] := by
    rw [quadGroups, hquad]
    simp
  cases hafter : literal.after with
  | none =>
      have hsize := literal.size
      rw [hafter, hquad] at hsize
      have hbefore : literal.before ≠ [] := by
        intro h
        rw [h] at hsize
        cases hsize
      refine ⟨[':'].intercalate literal.before, ?_, ?_⟩
      · rw [literal.text_of_none hafter, hdotted, intercalate_append hbefore (by simp),
          List.intercalate_singleton]
      · rw [literal.undotted_of_none hafter, intercalate_append hbefore hgroups]
  | some groups =>
      rw [literal.text_of_some hafter, literal.undotted_of_some hafter, hdotted]
      rcases eq_or_ne groups [] with rfl | hne
      · refine ⟨[':'].intercalate literal.before ++ [':'], ?_, ?_⟩
        · rw [List.nil_append, List.intercalate_singleton]
          simp
        · simp
      · refine ⟨[':'].intercalate literal.before ++ ':' :: ':' :: [':'].intercalate groups,
          ?_, ?_⟩
        · rw [intercalate_append hne (by simp), List.intercalate_singleton]
          simp
        · rw [intercalate_append hne hgroups]
          simp

theorem writeDottedAsGroups_text :
    writeDottedAsGroups literal.text = some literal.undotted := by
  cases hquad : literal.quad with
  | none =>
      have hdots : '.' ∉ literal.text := by
        intro h
        rcases literal.mem_text h with h | h | ⟨-, h⟩
        · exact absurd h (by decide)
        · exact absurd h (by decide)
        · exact h hquad
      have hsame : literal.undotted = literal.text := by
        unfold text undotted dotted quadGroups
        rw [hquad]
        rfl
      rw [writeDottedAsGroups, dottedTail_eq_none hdots, hsame]
  | some numbers =>
      obtain ⟨hlength, hoctets⟩ := literal.octets numbers hquad
      obtain ⟨front, htext, hundotted⟩ := literal.text_eq_of_quad hquad
      obtain ⟨a, b, c, d, rfl⟩ := exists_four hlength
      have hfront : ∀ x ∈ front, isHexDigit x = true ∨ x = ':' ∨ x = '.' := by
        intro x hx
        have hmem : x ∈ literal.text := by
          rw [htext]
          exact List.mem_append_left _ hx
        rcases literal.mem_text hmem with h | h | ⟨h, -⟩
        · exact .inl h
        · exact .inr (.inl h)
        · exact .inr (.inr h)
      have hsmall : number a ≤ 255 ∧ number b ≤ 255 ∧ number c ≤ 255 ∧ number d ≤ 255 := by
        simp only [List.forall_mem_cons] at hoctets
        exact ⟨hoctets.1.2, hoctets.2.1.2, hoctets.2.2.1.2, hoctets.2.2.2.1.2⟩
      rw [htext, writeDottedAsGroups_append hfront fun part hpart => (hoctets part hpart).1,
        if_pos hsmall, hundotted, quadGroups, hquad]
      rfl

theorem parseHex_quadGroups :
    (literal.quadGroups.map (Nat.toDigits 16)).map parseHex = literal.quadGroups := by
  rw [List.map_map]
  refine (List.map_congr_left fun group _ => ?_).trans (List.map_id _)
  exact (parseHex_toDigits group).2

theorem quadGroups_length : literal.quadGroups.length = 2 * literal.quad.toList.length := by
  unfold quadGroups
  cases literal.quad <;> rfl

theorem addressGroups_length : literal.addressGroups.length = 8 := by
  have hsize := literal.size
  cases hafter : literal.after with
  | none =>
      rw [hafter] at hsize
      rw [literal.addressGroups_of_none hafter]
      simpa [quadGroups_length, MakesAddress] using hsize
  | some groups =>
      rw [hafter] at hsize
      simp only [MakesAddress] at hsize
      simp only [literal.addressGroups_of_some hafter, List.length_append, List.length_map,
        List.length_replicate, quadGroups_length]
      omega

/-- The text of every literal is read as the groups of its address. -/
theorem parseIpv6Groups_text : parseIpv6Groups literal.text = some literal.addressGroups := by
  have hzone : literal.text.takeWhile (· ≠ '%') = literal.text := by
    refine takeWhile_zone fun c hc => ?_
    exact (literal.mem_text hc).imp_right fun h => h.imp_right And.left
  rw [parseIpv6Groups, hzone, literal.writeDottedAsGroups_text, Option.bind_eq_bind,
    Option.bind_some]
  have hquad : ∀ {parts : List (List Char)}, (∀ part ∈ parts, isGroup part = true) →
      ∀ part ∈ parts ++ literal.quadGroups.map (Nat.toDigits 16), isGroup part = true := by
    intro parts hparts part hpart
    rcases List.mem_append.mp hpart with hpart | hpart
    · exact hparts part hpart
    · exact literal.isGroup_quadGroups hpart
  have hbefore : ∀ part ∈ literal.before, isGroup part = true :=
    fun part => literal.isGroup_of_mem_before
  have hsize := literal.size
  cases hafter : literal.after with
  | none =>
      rw [hafter] at hsize
      rw [literal.undotted_of_none hafter, readGroups_whole (hquad hbefore), if_pos,
        List.map_append, parseHex_quadGroups, literal.addressGroups_of_none hafter]
      simpa [quadGroups_length, MakesAddress] using hsize
  | some groups =>
      rw [hafter] at hsize
      have hgroups := hquad fun part => literal.isGroup_of_mem_after hafter
      have hlength : literal.before.length +
          (groups ++ literal.quadGroups.map (Nat.toDigits 16)).length < 8 := by
        simp only [MakesAddress] at hsize
        simp only [List.length_append, List.length_map, quadGroups_length]
        omega
      rw [literal.undotted_of_some hafter, readGroups_pair hbefore hgroups, if_pos hlength,
        List.map_append, parseHex_quadGroups, literal.addressGroups_of_some hafter]
      simp [quadGroups_length, Nat.sub_sub, Nat.add_assoc]

theorem addressGroups_lt {group : Nat} (h : group ∈ literal.addressGroups) :
    group < 65536 := by
  cases hafter : literal.after with
  | none =>
      rw [literal.addressGroups_of_none hafter] at h
      rcases List.mem_append.mp h with h | h
      · obtain ⟨part, hpart, rfl⟩ := List.mem_map.mp h
        exact parseHex_lt (literal.isGroup_of_mem_before hpart)
      · exact literal.quadGroups_lt h
  | some groups =>
      simp only [literal.addressGroups_of_some hafter, List.mem_append,
        List.mem_replicate] at h
      rcases h with ((h | ⟨-, rfl⟩) | h) | h
      · obtain ⟨part, hpart, rfl⟩ := List.mem_map.mp h
        exact parseHex_lt (literal.isGroup_of_mem_before hpart)
      · decide
      · obtain ⟨part, hpart, rfl⟩ := List.mem_map.mp h
        exact parseHex_lt (literal.isGroup_of_mem_after hafter hpart)
      · exact literal.quadGroups_lt h

end Ipv6Literal

/-! ## Every accepted text is a literal -/

theorem isIPv4_eq (h : isIPv4 part = true) :
    ∃ numbers : List (List Char), part = ['.'].intercalate numbers ∧ numbers.length = 4 ∧
      ∀ octet ∈ numbers, isShortNumber octet = true ∧ number octet ≤ 255 := by
  rw [isIPv4, Bool.and_eq_true, decide_eq_true_eq, List.all_eq_true] at h
  refine ⟨part.splitOn '.', (List.intercalate_splitOn '.').symm, h.1, fun octet hoctet => ?_⟩
  have hoctet := h.2 octet hoctet
  simp only [isOctet, Bool.and_eq_true, decide_eq_true_eq] at hoctet
  exact hoctet.1

/-- The parts of a side are groups, with a dotted end at most where one may stand. -/
theorem partsLength_eq_some {dotted : Bool} {length : Nat}
    (h : partsLength dotted parts = some length) :
    ∃ (groups : List (List Char)) (quad : Option (List (List Char))),
      parts = groups ++ quad.toList.map ['.'].intercalate ∧
      (∀ group ∈ groups, isGroup group = true) ∧
      (∀ numbers ∈ quad, numbers.length = 4 ∧
        ∀ octet ∈ numbers, isShortNumber octet = true ∧ number octet ≤ 255) ∧
      length = groups.length + 2 * quad.toList.length ∧ (dotted = false → quad = none) := by
  induction parts generalizing length with
  | nil =>
      rw [partsLength, Option.some.injEq] at h
      exact ⟨[], none, rfl, by simp, by simp, h.symm, fun _ => rfl⟩
  | cons part parts ih =>
      rw [partsLength] at h
      split at h
      · next hpart =>
          obtain ⟨rest, hrest, hlength⟩ := Option.map_eq_some_iff.mp h
          obtain ⟨groups, quad, hparts, hgroups, hquad, hcount, hdotted⟩ := ih hrest
          refine ⟨part :: groups, quad, by rw [hparts]; rfl, ?_, hquad, ?_, hdotted⟩
          · exact List.forall_mem_cons.mpr ⟨hpart, hgroups⟩
          · rw [List.length_cons]
            omega
      · rw [Option.ite_none_right_eq_some, Bool.and_eq_true, Bool.and_eq_true,
          Option.some.injEq, List.isEmpty_iff] at h
        obtain ⟨⟨⟨hdotted, hpart⟩, rfl⟩, rfl⟩ := h
        obtain ⟨numbers, hnumbers, hlength, hoctets⟩ := isIPv4_eq hpart
        refine ⟨[], some numbers, by rw [hnumbers]; rfl, by simp, ?_, rfl, ?_⟩
        · intro numbers' hnumbers'
          rw [← Option.some.inj hnumbers']
          exact ⟨hlength, hoctets⟩
        · intro hnot
          rw [hdotted] at hnot
          cases hnot

theorem sideLength_eq_some {dotted : Bool} {side : List Char} {length : Nat}
    (h : sideLength dotted side = some length) :
    ∃ (groups : List (List Char)) (quad : Option (List (List Char))),
      side = [':'].intercalate (groups ++ quad.toList.map ['.'].intercalate) ∧
      (∀ group ∈ groups, isGroup group = true) ∧
      (∀ numbers ∈ quad, numbers.length = 4 ∧
        ∀ octet ∈ numbers, isShortNumber octet = true ∧ number octet ≤ 255) ∧
      length = groups.length + 2 * quad.toList.length ∧ (dotted = false → quad = none) := by
  rw [sideLength] at h
  obtain ⟨groups, quad, hparts, hrest⟩ := partsLength_eq_some h
  refine ⟨groups, quad, ?_, hrest⟩
  rw [← hparts]
  split
  · next hside => rw [hside]; rfl
  · exact (List.intercalate_splitOn ':').symm

theorem exists_literal_of_isIPv6Body (h : isIPv6Body text = true) :
    ∃ literal : Ipv6Literal, literal.text = text := by
  have hpieces := @intercalate_splitPair Char _ ':' text
  rw [isIPv6Body] at h
  split at h
  · next whole hsplit =>
      obtain ⟨groups, quad, hside, hgroups, hquad, hlength, -⟩ :=
        sideLength_eq_some (of_decide_eq_true h)
      refine ⟨⟨groups, none, quad, by simpa using hgroups, hquad, hlength.symm⟩, ?_⟩
      rw [hsplit, List.intercalate_singleton] at hpieces
      rw [← hpieces, hside]
      rfl
  · next left right hsplit =>
      split at h
      · next before after hbefore hafter =>
          obtain ⟨groups, quad, hside, hgroups, -, hlength, hnone⟩ := sideLength_eq_some hbefore
          obtain ⟨groups', quad', hside', hgroups', hquad', hlength', -⟩ :=
            sideLength_eq_some hafter
          obtain rfl := hnone rfl
          have hsize : groups.length + groups'.length + 2 * quad'.toList.length ≤ 7 := by
            have hle := of_decide_eq_true h
            simp only [Option.toList_none, List.length_nil] at hlength
            omega
          refine ⟨⟨groups, some groups', quad', ?_, hquad', hsize⟩, ?_⟩
          · intro group hgroup
            rcases List.mem_append.mp hgroup with hgroup | hgroup
            · exact hgroups group hgroup
            · exact hgroups' group hgroup
          · rw [hsplit, List.intercalate_cons_cons, List.intercalate_singleton] at hpieces
            rw [Option.toList_none, List.map_nil, List.append_nil] at hside
            rw [← hpieces, hside, hside']
            simp [Ipv6Literal.text, Ipv6Literal.dotted]
      · cases h
  · cases h

/-- Every text that `isIP` takes for an IPv6 address without a zone is that of a
literal, in any case. -/
theorem exists_literal_of_isIP (h : isIP text = 6) (hzone : '%' ∉ text) :
    ∃ literal : Ipv6Literal, literal.text = text.map Char.toLower := by
  have hsix : isIPv6 text = true := by
    unfold isIP at h
    split at h
    · cases h
    · split at h
      · assumption
      · cases h
  have htake : text.takeWhile (· ≠ '%') = text := by
    refine List.takeWhile_eq_self_iff.mpr fun c hc => decide_eq_true ?_
    rintro rfl
    exact hzone hc
  rw [isIPv6, htake, Bool.and_eq_true] at hsix
  exact exists_literal_of_isIPv6Body hsix.1

/-- A literal is written in ASCII, in upper case as well. -/
theorem ascii_of_literal {literal : Ipv6Literal} (h : literal.text = text.map Char.toLower) :
    ∀ c ∈ text, c.toNat < 128 := by
  intro c hc
  have hmem : c.toLower ∈ literal.text := by
    rw [h]
    exact List.mem_map_of_mem hc
  have hlower : c.toLower.toNat < 128 := by
    rcases literal.mem_text hmem with hhex | hcolon | ⟨hdot, -⟩
    · have := isHexDigit_range hhex
      omega
    · rw [hcolon]
      decide
    · rw [hdot]
      decide
  unfold Char.toLower at hlower
  split at hlower
  · next hupper =>
      have hle : c.toNat ≤ 90 := UInt32.le_iff_toNat_le.mp hupper.2
      omega
  · exact hlower

end GoatCitadel.Sandbox
