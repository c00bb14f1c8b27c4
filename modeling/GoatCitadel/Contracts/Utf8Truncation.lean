import GoatCitadel.Support.Utf8

/-!
# Truncation to a number of bytes

A text is cut at a byte, and the sequence that the cut breaks is dropped.  The decoder that
reads what is left takes a byte order mark at its start away, also when it is a character of
the text.
-/

namespace GoatCitadel.Contracts

open GoatCitadel.Support

inductive Utf8TruncationMode
  | keepStart
  | keepEnd

/-- `(byte & 0b1100_0000) === 0b1000_0000` -/
def isContinuation (byte : UInt8) : Bool :=
  byte &&& 0b11000000 = 0b10000000

def byteOrderMark : Char := '\uFEFF'

def dropByteOrderMark : List Char → List Char
  | [] => []
  | c :: text => if c = byteOrderMark then text else c :: text

/-- `new TextDecoder("utf-8", { fatal: false }).decode`, which does not ignore the byte order
mark. -/
def textDecoderDecode (buffer : List UInt8) : List Char :=
  dropByteOrderMark (utf8Decode buffer)

def sequenceLength (leadByte : UInt8) : Nat :=
  if 0b11110000 ≤ leadByte.toNat then 4
  else if 0b11100000 ≤ leadByte.toNat then 3
  else if 0b11000000 ≤ leadByte.toNat then 2
  else 1

/-- The bytes up to the end of the last sequence that is complete. -/
def dropTrailingPartial (buffer : List UInt8) : List UInt8 :=
  match buffer.reverse.dropWhile isContinuation with
  | [] => buffer
  | leadByte :: before =>
      -- From `lead` to the end.
      if (buffer.reverse.takeWhile isContinuation).length + 1 < sequenceLength leadByte then
        before.reverse
      else buffer

def decodeUtf8DropTrailingPartial (buffer : List UInt8) : List Char :=
  textDecoderDecode (dropTrailingPartial buffer)

def decodeUtf8DropLeadingPartial (buffer : List UInt8) : List Char :=
  textDecoderDecode (buffer.dropWhile isContinuation)

def truncateUtf8Bytes (text : String) (maxBytes : Nat) (mode : Utf8TruncationMode) : String :=
  let buffer := utf8Encode text.toList
  if buffer.length ≤ maxBytes then text
  else
    match mode with
    | .keepStart => String.ofList (decodeUtf8DropTrailingPartial (buffer.take maxBytes))
    | .keepEnd =>
        String.ofList (decodeUtf8DropLeadingPartial (buffer.drop (buffer.length - maxBytes)))

structure Utf8HeadTailSplit where
  truncated : Bool
  head : String
  tail : String
  omittedBytes : Nat

def splitUtf8HeadTail (text : String) (headBytes tailBytes : Nat) : Utf8HeadTailSplit :=
  let totalBytes := utf8Length text.toList
  if totalBytes ≤ headBytes + tailBytes then
    { truncated := false, head := text, tail := "", omittedBytes := 0 }
  else
    let head := truncateUtf8Bytes text headBytes .keepStart
    let tail := truncateUtf8Bytes text tailBytes .keepEnd
    let retainedBytes := utf8Length head.toList + utf8Length tail.toList
    { truncated := true, head, tail, omittedBytes := totalBytes - retainedBytes }

/-! ## Sequences -/

section Sequences

variable {text : List Char} {byte : UInt8}

theorem isContinuation_iff :
    isContinuation byte = true ↔ 0x80 ≤ byte.toNat ∧ byte.toNat < 0xC0 := by
  have hall : ∀ n : Fin 256, (UInt8.ofNat n.val &&& 0b11000000 = 0b10000000) ↔
      0x80 ≤ n.val ∧ n.val < 0xC0 := by decide +kernel
  have hbyte := hall ⟨byte.toNat, byte.toNat_lt⟩
  rw [UInt8.ofNat_toNat] at hbyte
  exact decide_eq_true_iff.trans hbyte

theorem isContinuation_of_eq {n : Nat} (h : byte.toNat = 0x80 + n % 64) :
    isContinuation byte = true :=
  isContinuation_iff.mpr ⟨by omega, by omega⟩

theorem isContinuation_eq_false (h : byte.toNat < 0x80 ∨ 0xC0 ≤ byte.toNat) :
    isContinuation byte = false := by
  rw [Bool.eq_false_iff]
  intro hcontinues
  have hrange := isContinuation_iff.mp hcontinues
  omega

/-- The bytes of a character: one that says how many there are, and continuations. -/
theorem utf8EncodeChar_shape (c : Char) :
    ∃ lead rest, String.utf8EncodeChar c = lead :: rest ∧ isContinuation lead = false ∧
      (∀ byte ∈ rest, isContinuation byte = true) ∧ sequenceLength lead = rest.length + 1 := by
  obtain ⟨hle, b₀, hbytes, h₀⟩ | ⟨hge, hle, b₀, b₁, hbytes, h₀, h₁⟩ |
    ⟨hge, hle, b₀, b₁, b₂, hbytes, h₀, h₁, h₂⟩ |
    ⟨hge, hle, b₀, b₁, b₂, b₃, hbytes, h₀, h₁, h₂, h₃⟩ := utf8EncodeChar_cases c
  · refine ⟨b₀, [], hbytes, isContinuation_eq_false (by omega), by simp, ?_⟩
    rw [sequenceLength, if_neg (by omega), if_neg (by omega), if_neg (by omega)]
    rfl
  · refine ⟨b₀, [b₁], hbytes, isContinuation_eq_false (by omega), ?_, ?_⟩
    · simpa using isContinuation_of_eq h₁
    · rw [sequenceLength, if_neg (by omega), if_neg (by omega), if_pos (by omega)]
      rfl
  · refine ⟨b₀, [b₁, b₂], hbytes, isContinuation_eq_false (by omega), ?_, ?_⟩
    · simpa using ⟨isContinuation_of_eq h₁, isContinuation_of_eq h₂⟩
    · rw [sequenceLength, if_neg (by omega), if_pos (by omega)]
      rfl
  · refine ⟨b₀, [b₁, b₂, b₃], hbytes, isContinuation_eq_false (by omega), ?_, ?_⟩
    · simpa using
        ⟨isContinuation_of_eq h₁, isContinuation_of_eq h₂, isContinuation_of_eq h₃⟩
    · rw [sequenceLength, if_pos (by omega)]
      rfl

/-- What is dropped at the end is the beginning of a sequence that is not complete. -/
theorem dropTrailingPartial_append {front rest : List UInt8} (hlead : isContinuation byte = false)
    (hrest : ∀ byte ∈ rest, isContinuation byte = true) :
    dropTrailingPartial (front ++ byte :: rest) =
      if rest.length + 1 < sequenceLength byte then front else front ++ byte :: rest := by
  have hreverse : (front ++ byte :: rest).reverse = rest.reverse ++ byte :: front.reverse := by
    rw [List.reverse_append, List.reverse_cons, List.append_assoc]
    rfl
  have hall : ∀ byte ∈ rest.reverse, isContinuation byte = true :=
    fun byte hbyte => hrest byte (List.mem_reverse.mp hbyte)
  have hdrop : (front ++ byte :: rest).reverse.dropWhile isContinuation =
      byte :: front.reverse := by
    rw [hreverse, List.dropWhile_append_of_pos hall, List.dropWhile_cons_of_neg]
    rw [hlead]
    exact Bool.false_ne_true
  have htake : ((front ++ byte :: rest).reverse.takeWhile isContinuation).length =
      rest.length := by
    rw [hreverse, List.takeWhile_append_of_pos hall, List.takeWhile_cons_of_neg,
      List.append_nil, List.length_reverse]
    rw [hlead]
    exact Bool.false_ne_true
  unfold dropTrailingPartial
  rw [hdrop]
  dsimp only
  rw [htake, List.reverse_reverse]

theorem dropTrailingPartial_encode_append {partial' : List UInt8}
    (h : partial' = [] ∨ ∃ c count, 0 < count ∧ count < (String.utf8EncodeChar c).length ∧
      partial' = (String.utf8EncodeChar c).take count) :
    dropTrailingPartial (utf8Encode text ++ partial') = utf8Encode text := by
  obtain rfl | ⟨c, count, hpos, hlt, rfl⟩ := h
  · rw [List.append_nil]
    obtain rfl | ⟨front, c, rfl⟩ := List.eq_nil_or_concat' text
    · rfl
    · obtain ⟨lead, rest, hbytes, hlead, hrest, hlength⟩ := utf8EncodeChar_shape c
      have hencode : utf8Encode (front ++ [c]) = utf8Encode front ++ lead :: rest := by
        rw [utf8Encode, List.flatMap_append, List.flatMap_singleton, hbytes]
        rfl
      rw [hencode, dropTrailingPartial_append hlead hrest, if_neg (by omega)]
  · obtain ⟨lead, rest, hbytes, hlead, hrest, hlength⟩ := utf8EncodeChar_shape c
    obtain ⟨more, rfl⟩ := Nat.exists_eq_add_of_lt hpos
    rw [hbytes, List.length_cons] at hlt
    have hshort : (rest.take more).length = more := by
      rw [List.length_take, Nat.min_eq_left (by omega)]
    rw [hbytes, Nat.zero_add, List.take_succ_cons, dropTrailingPartial_append hlead, if_pos]
    · rw [hshort, hlength]
      omega
    · exact fun byte hbyte => hrest byte (List.mem_of_mem_take hbyte)

end Sequences

/-! ## Prefixes and suffixes -/

/-- The characters that fit into a number of bytes. -/
def fitting : Nat → List Char → List Char
  | _, [] => []
  | bytes, c :: text =>
      if c.utf8Size ≤ bytes then c :: fitting (bytes - c.utf8Size) text else []

/-- The characters after a number of bytes. -/
def skipping : Nat → List Char → List Char
  | _, [] => []
  | bytes, c :: text => if bytes = 0 then c :: text else skipping (bytes - c.utf8Size) text

section Cuts

variable {text other : List Char} {bytes : Nat}

theorem utf8Encode_append (front back : List Char) :
    utf8Encode (front ++ back) = utf8Encode front ++ utf8Encode back :=
  List.flatMap_append

theorem utf8Length_cons (c : Char) : utf8Length (c :: text) = c.utf8Size + utf8Length text := by
  rw [utf8Length, utf8Encode, List.flatMap_cons, List.length_append,
    String.length_utf8EncodeChar]
  rfl

theorem utf8Length_append (front back : List Char) :
    utf8Length (front ++ back) = utf8Length front + utf8Length back := by
  rw [utf8Length, utf8Encode_append, List.length_append]
  rfl

/-- A cut leaves the characters that fit, and the beginning of one that does not. -/
theorem take_utf8Encode (text : List Char) (bytes : Nat) :
    ∃ cut, (utf8Encode text).take bytes = utf8Encode (fitting bytes text) ++ cut ∧
      (cut = [] ∨ ∃ c count, 0 < count ∧ count < (String.utf8EncodeChar c).length ∧
        cut = (String.utf8EncodeChar c).take count) := by
  induction text generalizing bytes with
  | nil => exact ⟨[], by simp [utf8Encode, fitting], .inl rfl⟩
  | cons c text ih =>
      have hencode : utf8Encode (c :: text) = String.utf8EncodeChar c ++ utf8Encode text :=
        List.flatMap_cons
      have hsize := String.length_utf8EncodeChar c
      rw [fitting]
      by_cases hfits : c.utf8Size ≤ bytes
      · obtain ⟨cut, htake, hcut⟩ := ih (bytes - c.utf8Size)
        refine ⟨cut, ?_, hcut⟩
        rw [if_pos hfits, hencode, List.take_append, hsize, htake,
          List.take_of_length_le (by rw [hsize]; exact hfits), ← List.append_assoc]
        rfl
      · rw [if_neg hfits]
        refine ⟨(String.utf8EncodeChar c).take bytes, ?_, ?_⟩
        · rw [hencode, List.take_append_of_le_length (by omega)]
          rfl
        · by_cases hzero : bytes = 0
          · rw [hzero]
            exact .inl rfl
          · exact .inr ⟨c, bytes, by omega, by omega, rfl⟩

/-- A cut leaves the end of a character that is broken, and the characters after it. -/
theorem drop_utf8Encode (text : List Char) (bytes : Nat) :
    ∃ cut, (utf8Encode text).drop bytes = cut ++ utf8Encode (skipping bytes text) ∧
      ∀ byte ∈ cut, isContinuation byte = true := by
  induction text generalizing bytes with
  | nil => exact ⟨[], by simp [utf8Encode, skipping], by simp⟩
  | cons c text ih =>
      have hencode : utf8Encode (c :: text) = String.utf8EncodeChar c ++ utf8Encode text :=
        List.flatMap_cons
      have hsize := String.length_utf8EncodeChar c
      rw [skipping]
      by_cases hzero : bytes = 0
      · rw [if_pos hzero, hzero]
        exact ⟨[], rfl, by simp⟩
      · rw [if_neg hzero, hencode, List.drop_append, hsize]
        obtain ⟨cut, hdrop, hcut⟩ := ih (bytes - c.utf8Size)
        refine ⟨(String.utf8EncodeChar c).drop bytes ++ cut, ?_, ?_⟩
        · rw [hdrop, List.append_assoc]
        · intro byte hbyte
          obtain hbyte | hbyte := List.mem_append.mp hbyte
          · obtain ⟨lead, rest, hbytes, -, hrest, -⟩ := utf8EncodeChar_shape c
            obtain ⟨more, rfl⟩ := Nat.exists_eq_succ_of_ne_zero hzero
            rw [hbytes, List.drop_succ_cons] at hbyte
            exact hrest byte (List.mem_of_mem_drop hbyte)
          · exact hcut byte hbyte

theorem dropWhile_isContinuation_encode :
    (utf8Encode text).dropWhile isContinuation = utf8Encode text := by
  cases text with
  | nil => rfl
  | cons c text =>
      obtain ⟨lead, rest, hbytes, hlead, -, -⟩ := utf8EncodeChar_shape c
      rw [utf8Encode, List.flatMap_cons, hbytes, List.cons_append,
        List.dropWhile_cons_of_neg (by rw [hlead]; exact Bool.false_ne_true)]

theorem fitting_isPrefix (bytes : Nat) (text : List Char) : fitting bytes text <+: text := by
  induction text generalizing bytes with
  | nil => exact List.prefix_rfl
  | cons c text ih =>
      rw [fitting]
      by_cases hfits : c.utf8Size ≤ bytes
      · rw [if_pos hfits]
        exact (List.prefix_cons_inj c).mpr (ih _)
      · rw [if_neg hfits]
        exact List.nil_prefix

theorem utf8Length_fitting_le (bytes : Nat) (text : List Char) :
    utf8Length (fitting bytes text) ≤ bytes := by
  induction text generalizing bytes with
  | nil => exact Nat.zero_le _
  | cons c text ih =>
      rw [fitting]
      by_cases hfits : c.utf8Size ≤ bytes
      · rw [if_pos hfits, utf8Length_cons]
        have hrest := ih (bytes - c.utf8Size)
        omega
      · rw [if_neg hfits]
        exact Nat.zero_le _

theorem isPrefix_fitting (h : other <+: text) (hbytes : utf8Length other ≤ bytes) :
    other <+: fitting bytes text := by
  induction text generalizing bytes other with
  | nil => exact h
  | cons c text ih =>
      cases other with
      | nil => exact List.nil_prefix
      | cons d other =>
          obtain ⟨rfl, hother⟩ := List.cons_prefix_cons.mp h
          rw [utf8Length_cons] at hbytes
          rw [fitting, if_pos (by omega)]
          exact (List.prefix_cons_inj d).mpr (ih hother (by omega))

theorem skipping_isSuffix (bytes : Nat) (text : List Char) : skipping bytes text <:+ text := by
  induction text generalizing bytes with
  | nil => exact List.suffix_rfl
  | cons c text ih =>
      rw [skipping]
      by_cases hzero : bytes = 0
      · rw [if_pos hzero]
      · rw [if_neg hzero]
        exact (ih _).trans (List.suffix_cons c text)

theorem utf8Length_skipping_le (bytes : Nat) (text : List Char) :
    utf8Length (skipping bytes text) ≤ utf8Length text - bytes := by
  induction text generalizing bytes with
  | nil => exact Nat.zero_le _
  | cons c text ih =>
      rw [skipping]
      by_cases hzero : bytes = 0
      · rw [if_pos hzero, hzero]
        exact le_rfl
      · rw [if_neg hzero, utf8Length_cons]
        have hrest := ih (bytes - c.utf8Size)
        omega

theorem utf8Length_le_of_isSuffix (h : other <:+ text) : utf8Length other ≤ utf8Length text := by
  obtain ⟨front, rfl⟩ := h
  rw [utf8Length_append]
  exact Nat.le_add_left _ _

theorem isSuffix_skipping (h : other <:+ text)
    (hbytes : utf8Length other + bytes ≤ utf8Length text) : other <:+ skipping bytes text := by
  induction text generalizing bytes with
  | nil => exact h
  | cons c text ih =>
      rw [skipping]
      by_cases hzero : bytes = 0
      · rw [if_pos hzero]
        exact h
      · rw [if_neg hzero]
        rw [utf8Length_cons] at hbytes
        obtain rfl | hrest := List.suffix_cons_iff.mp h
        · rw [utf8Length_cons] at hbytes
          omega
        · have hle := utf8Length_le_of_isSuffix hrest
          exact ih hrest (by omega)

theorem utf8Length_pos (c : Char) : 0 < utf8Length (c :: text) := by
  rw [utf8Length_cons]
  have hpos := Char.utf8Size_pos c
  omega

end Cuts

/-! ## What is kept -/

section Kept

variable {text : String} {maxBytes : Nat}

theorem toList_truncate_keepStart (h : maxBytes < utf8Length text.toList) :
    (truncateUtf8Bytes text maxBytes .keepStart).toList =
      dropByteOrderMark (fitting maxBytes text.toList) := by
  obtain ⟨cut, htake, hcut⟩ := take_utf8Encode text.toList maxBytes
  have hlong : ¬(utf8Encode text.toList).length ≤ maxBytes := Nat.not_le.mpr h
  unfold truncateUtf8Bytes
  dsimp only
  rw [if_neg hlong, String.toList_ofList, htake, decodeUtf8DropTrailingPartial,
    dropTrailingPartial_encode_append hcut, textDecoderDecode, utf8Decode_encode]

theorem toList_truncate_keepEnd (h : maxBytes < utf8Length text.toList) :
    (truncateUtf8Bytes text maxBytes .keepEnd).toList =
      dropByteOrderMark (skipping (utf8Length text.toList - maxBytes) text.toList) := by
  obtain ⟨cut, hdrop, hcut⟩ := drop_utf8Encode text.toList (utf8Length text.toList - maxBytes)
  have hlong : ¬(utf8Encode text.toList).length ≤ maxBytes := Nat.not_le.mpr h
  have hlength : (utf8Encode text.toList).length = utf8Length text.toList := rfl
  unfold truncateUtf8Bytes
  dsimp only
  rw [if_neg hlong, String.toList_ofList, hlength, hdrop, decodeUtf8DropLeadingPartial,
    List.dropWhile_append_of_pos hcut, dropWhile_isContinuation_encode, textDecoderDecode,
    utf8Decode_encode]

theorem truncate_of_le (h : utf8Length text.toList ≤ maxBytes) (mode : Utf8TruncationMode) :
    truncateUtf8Bytes text maxBytes mode = text :=
  if_pos h

end Kept

/-- The result is the longest beginning of the text, of whole characters, that fits. -/
structure IsLongestPrefix (text : String) (maxBytes : Nat) (result : String) : Prop where
  isPrefix : result.toList <+: text.toList
  fits : utf8Length result.toList ≤ maxBytes
  longest : ∀ other, other <+: text.toList → utf8Length other ≤ maxBytes →
    other <+: result.toList

structure IsLongestSuffix (text : String) (maxBytes : Nat) (result : String) : Prop where
  isSuffix : result.toList <:+ text.toList
  fits : utf8Length result.toList ≤ maxBytes
  longest : ∀ other, other <:+ text.toList → utf8Length other ≤ maxBytes →
    other <:+ result.toList

/-- The whole text is the head; or the text is the head, something whose bytes are counted, and
the tail. -/
def Tiles (text : String) (headBytes tailBytes : Nat) (split : Utf8HeadTailSplit) : Prop :=
  split.head = text ∧ split.tail = "" ∧ split.omittedBytes = 0 ∨
    ∃ middle, text.toList = split.head.toList ++ (middle ++ split.tail.toList) ∧
      utf8Length split.head.toList ≤ headBytes ∧ utf8Length split.tail.toList ≤ tailBytes ∧
        split.omittedBytes = utf8Length middle

/-- The text is cut, and a byte order mark is the first character of what is kept. -/
def MarkAtStart (text : String) (maxBytes : Nat) : Prop :=
  maxBytes < utf8Length text.toList ∧ 3 ≤ maxBytes ∧ text.toList.head? = some byteOrderMark

/-- The text is cut in front of a byte order mark, or inside the character in front of it. -/
def MarkAtCut (text : String) (maxBytes : Nat) : Prop :=
  ∃ front c rest, text.toList = front ++ c :: byteOrderMark :: rest ∧
    utf8Length (byteOrderMark :: rest) ≤ maxBytes ∧
      maxBytes < utf8Length (c :: byteOrderMark :: rest)

/-- The text is cut, and the head has byte order marks and then another character. -/
def MarksBeforeText (text : String) (headBytes tailBytes : Nat) : Prop :=
  headBytes + tailBytes < utf8Length text.toList ∧
    ∃ marks c rest, text.toList = List.replicate (marks + 1) byteOrderMark ++ c :: rest ∧
      c ≠ byteOrderMark ∧
        utf8Length (List.replicate (marks + 1) byteOrderMark ++ [c]) ≤ headBytes

section Exact

variable {text : String} {maxBytes headBytes tailBytes : Nat}

theorem utf8Length_byteOrderMark (rest : List Char) :
    utf8Length (byteOrderMark :: rest) = 3 + utf8Length rest := by
  rw [utf8Length_cons]
  rfl

theorem dropByteOrderMark_of_head {chars : List Char} (h : chars.head? ≠ some byteOrderMark) :
    dropByteOrderMark chars = chars := by
  cases chars with
  | nil => rfl
  | cons c chars =>
      refine if_neg ?_
      rintro rfl
      exact h rfl

theorem dropByteOrderMark_cons (chars : List Char) :
    dropByteOrderMark (byteOrderMark :: chars) = chars := by
  rw [dropByteOrderMark, if_pos rfl]

/-- What starts with a byte order mark. -/
theorem exists_cons_of_head? {chars : List Char} (h : chars.head? = some byteOrderMark) :
    ∃ rest, chars = byteOrderMark :: rest :=
  List.head?_eq_some_iff.mp h

theorem keepStart_exact_iff :
    IsLongestPrefix text maxBytes (truncateUtf8Bytes text maxBytes .keepStart) ↔
      ¬MarkAtStart text maxBytes := by
  by_cases hcut : maxBytes < utf8Length text.toList
  · have hresult := toList_truncate_keepStart hcut
    have hprefix := fitting_isPrefix maxBytes text.toList
    have hle := utf8Length_fitting_le maxBytes text.toList
    by_cases hmark : (fitting maxBytes text.toList).head? = some byteOrderMark
    · obtain ⟨rest, hrest⟩ := exists_cons_of_head? hmark
      rw [hrest] at hprefix hle
      rw [utf8Length_byteOrderMark] at hle
      refine iff_of_false ?_ (not_not.mpr ⟨hcut, by omega, ?_⟩)
      · intro h
        have hlongest := (h.longest _ (fitting_isPrefix maxBytes text.toList)
          (utf8Length_fitting_le maxBytes text.toList)).length_le
        rw [hresult, hrest] at hlongest
        change rest.length + 1 ≤ rest.length at hlongest
        omega
      · obtain ⟨tail, htail⟩ := hprefix
        rw [← htail]
        rfl
    · refine iff_of_true ?_ ?_
      · have hkept := dropByteOrderMark_of_head hmark
        rw [hkept] at hresult
        refine ⟨?_, ?_, ?_⟩
        · rw [hresult]
          exact hprefix
        · rw [hresult]
          exact hle
        · intro other hother hbytes
          rw [hresult]
          exact isPrefix_fitting hother hbytes
      · rintro ⟨-, hthree, hstart⟩
        obtain ⟨rest, hrest⟩ := exists_cons_of_head? hstart
        have hsize : byteOrderMark.utf8Size ≤ maxBytes := hthree
        refine hmark ?_
        rw [hrest, fitting, if_pos hsize]
        rfl
  · rw [truncate_of_le (Nat.le_of_not_lt hcut)]
    refine iff_of_true ?_ fun h => hcut h.1
    exact ⟨List.prefix_rfl, Nat.le_of_not_lt hcut, fun other hother _ => hother⟩

/-- The kept end starts with a byte order mark exactly when the cut is in front of one. -/
theorem markAtCut_iff (hcut : maxBytes < utf8Length text.toList) :
    MarkAtCut text maxBytes ↔
      (skipping (utf8Length text.toList - maxBytes) text.toList).head? = some byteOrderMark := by
  have hsuffix := skipping_isSuffix (utf8Length text.toList - maxBytes) text.toList
  have hle := utf8Length_skipping_le (utf8Length text.toList - maxBytes) text.toList
  constructor
  · rintro ⟨front, c, rest, htext, hfits, hlong⟩
    have hlonger : byteOrderMark :: rest <:+ text.toList := by
      rw [htext]
      exact (List.suffix_cons c _).trans (List.suffix_append _ _)
    obtain ⟨more, hmore⟩ := isSuffix_skipping hlonger
      (show _ + (utf8Length text.toList - maxBytes) ≤ _ by omega)
    obtain rfl | ⟨before, d, rfl⟩ := List.eq_nil_or_concat' more
    · rw [← hmore]
      rfl
    · -- Another character would not fit.
      exfalso
      have hshort : c :: byteOrderMark :: rest <:+
          skipping (utf8Length text.toList - maxBytes) text.toList := by
        apply List.suffix_of_suffix_length_le _ hsuffix
        · rw [← hmore, List.length_append, List.length_append, List.length_singleton,
            List.length_cons]
          omega
        · rw [htext]
          exact List.suffix_append _ _
      have hbytes := utf8Length_le_of_isSuffix hshort
      omega
  · intro hmark
    obtain ⟨rest, hrest⟩ := exists_cons_of_head? hmark
    rw [hrest] at hsuffix hle
    obtain ⟨front, hfront⟩ := hsuffix
    obtain rfl | ⟨before, c, rfl⟩ := List.eq_nil_or_concat' front
    · have htotal := congrArg utf8Length hfront
      rw [List.nil_append] at htotal
      omega
    · rw [List.append_assoc, List.singleton_append] at hfront
      refine ⟨before, c, rest, hfront.symm, by omega, ?_⟩
      by_contra hfits
      have hlonger : c :: byteOrderMark :: rest <:+ text.toList := by
        rw [← hfront]
        exact List.suffix_append _ _
      have hlength := (isSuffix_skipping hlonger
        (show _ + (utf8Length text.toList - maxBytes) ≤ _ by omega)).length_le
      rw [hrest] at hlength
      exact absurd hlength (by simp)

theorem keepEnd_exact_iff :
    IsLongestSuffix text maxBytes (truncateUtf8Bytes text maxBytes .keepEnd) ↔
      ¬MarkAtCut text maxBytes := by
  by_cases hcut : maxBytes < utf8Length text.toList
  · have hresult := toList_truncate_keepEnd hcut
    have hsuffix := skipping_isSuffix (utf8Length text.toList - maxBytes) text.toList
    have hle := utf8Length_skipping_le (utf8Length text.toList - maxBytes) text.toList
    rw [markAtCut_iff hcut]
    by_cases hmark : (skipping (utf8Length text.toList - maxBytes) text.toList).head? =
        some byteOrderMark
    · obtain ⟨rest, hrest⟩ := exists_cons_of_head? hmark
      refine iff_of_false ?_ (not_not.mpr hmark)
      intro h
      have hlongest := (h.longest _ hsuffix (by omega)).length_le
      rw [hresult, hrest] at hlongest
      change rest.length + 1 ≤ rest.length at hlongest
      omega
    · refine iff_of_true ?_ hmark
      rw [dropByteOrderMark_of_head hmark] at hresult
      refine ⟨?_, ?_, ?_⟩
      · rw [hresult]
        exact hsuffix
      · rw [hresult]
        omega
      · intro other hother hbytes
        rw [hresult]
        exact isSuffix_skipping hother (by omega)
  · rw [truncate_of_le (Nat.le_of_not_lt hcut)]
    refine iff_of_true ⟨List.suffix_rfl, Nat.le_of_not_lt hcut, fun other hother _ => hother⟩ ?_
    rintro ⟨front, c, rest, htext, -, hlong⟩
    rw [htext, utf8Length_append] at hcut
    omega

/-- A beginning and an end that are not longer than the text leave a middle. -/
theorem exists_middle {front back whole : List Char} (hfront : front <+: whole)
    (hback : back <:+ whole) (hle : utf8Length front + utf8Length back ≤ utf8Length whole) :
    ∃ middle, whole = front ++ (middle ++ back) := by
  obtain ⟨rest, rfl⟩ := hfront
  rw [utf8Length_append] at hle
  obtain hshort | hlong := List.suffix_or_suffix_of_suffix hback (List.suffix_append front rest)
  · obtain ⟨middle, rfl⟩ := hshort
    exact ⟨middle, rfl⟩
  · obtain ⟨more, rfl⟩ := hlong
    rw [utf8Length_append] at hle
    cases more with
    | nil => exact ⟨[], rfl⟩
    | cons c more =>
        have hpos := @utf8Length_pos more c
        omega

theorem length_dropByteOrderMark_le (chars : List Char) :
    utf8Length (dropByteOrderMark chars) ≤ utf8Length chars := by
  cases chars with
  | nil => exact le_rfl
  | cons c chars =>
      rw [dropByteOrderMark]
      by_cases hmark : c = byteOrderMark
      · rw [if_pos hmark, utf8Length_cons]
        exact Nat.le_add_left _ _
      · rw [if_neg hmark]

theorem dropByteOrderMark_isSuffix (chars : List Char) : dropByteOrderMark chars <:+ chars := by
  cases chars with
  | nil => exact List.suffix_rfl
  | cons c chars =>
      rw [dropByteOrderMark]
      by_cases hmark : c = byteOrderMark
      · rw [if_pos hmark]
        exact List.suffix_cons c chars
      · rw [if_neg hmark]

/-- The head is a beginning of the text unless a byte order mark was taken from in front of
other characters. -/
theorem head_isPrefix_iff (hcut : headBytes + tailBytes < utf8Length text.toList) :
    dropByteOrderMark (fitting headBytes text.toList) <+: text.toList ↔
      ¬MarksBeforeText text headBytes tailBytes := by
  have hprefix := fitting_isPrefix headBytes text.toList
  have hle := utf8Length_fitting_le headBytes text.toList
  constructor
  · rintro hhead ⟨-, marks, c, rest, htext, hne, hfits⟩
    have hshort : List.replicate (marks + 1) byteOrderMark ++ [c] <+: text.toList := by
      rw [htext]
      exact ⟨rest, by simp⟩
    obtain ⟨more, hmore⟩ := isPrefix_fitting hshort hfits
    rw [← hmore, List.replicate_succ, List.cons_append, List.cons_append] at hhead
    rw [dropByteOrderMark_cons, htext, List.replicate_succ', List.append_assoc, List.append_assoc,
      List.prefix_append_right_inj, List.singleton_append, List.singleton_append,
      List.cons_prefix_cons] at hhead
    exact hne hhead.1
  · intro hmarks
    by_cases hmark : (fitting headBytes text.toList).head? = some byteOrderMark
    · obtain ⟨kept, hkept⟩ := exists_cons_of_head? hmark
      rw [hkept] at hprefix hle ⊢
      rw [dropByteOrderMark_cons]
      by_cases hall : ∀ c ∈ kept, c = byteOrderMark
      · rw [List.eq_replicate_of_mem hall] at hprefix ⊢
        rw [← List.replicate_succ, List.replicate_succ'] at hprefix
        exact (List.prefix_append _ _).trans hprefix
      · obtain ⟨c, hc, hne⟩ : ∃ c ∈ kept, c ≠ byteOrderMark := by
          by_contra hnone
          exact hall fun c hc => by_contra fun hne => hnone ⟨c, hc, hne⟩
        obtain ⟨front, d, back, rfl, hfront, hd⟩ :
            ∃ front d back, kept = front ++ d :: back ∧ (∀ e ∈ front, e = byteOrderMark) ∧
              d ≠ byteOrderMark := by
          obtain ⟨d, hfirst⟩ := Option.isSome_iff_exists.mp
            (List.find?_isSome (p := fun c => decide (c ≠ byteOrderMark)) |>.mpr
              ⟨c, hc, decide_eq_true hne⟩)
          obtain ⟨hd, front, back, rfl, hfront⟩ := List.find?_eq_some_iff_append.mp hfirst
          refine ⟨front, d, back, rfl, ?_, of_decide_eq_true hd⟩
          intro e he
          simpa using hfront e he
        refine absurd ?_ hmarks
        rw [List.eq_replicate_of_mem hfront] at hprefix hle
        obtain ⟨rest, hrest⟩ := hprefix
        refine ⟨hcut, front.length, d, back ++ rest, ?_, hd, ?_⟩
        · rw [← hrest, List.replicate_succ]
          simp
        · rw [List.replicate_succ, List.cons_append, utf8Length_cons, utf8Length_append]
          rw [utf8Length_cons, utf8Length_append, utf8Length_cons] at hle
          rw [utf8Length_cons]
          have hzero : utf8Length [] = 0 := rfl
          omega
    · rw [dropByteOrderMark_of_head hmark]
      exact hprefix

theorem split_exact_iff :
    Tiles text headBytes tailBytes (splitUtf8HeadTail text headBytes tailBytes) ↔
      ¬MarksBeforeText text headBytes tailBytes := by
  unfold splitUtf8HeadTail
  dsimp only
  by_cases hcut : utf8Length text.toList ≤ headBytes + tailBytes
  · rw [if_pos hcut]
    refine iff_of_true (.inl ⟨rfl, rfl, rfl⟩) ?_
    intro h
    exact absurd h.1 (Nat.not_lt.mpr hcut)
  · rw [if_neg hcut, ← head_isPrefix_iff (Nat.lt_of_not_le hcut)]
    have hhead := @toList_truncate_keepStart text headBytes (by omega)
    have htail := @toList_truncate_keepEnd text tailBytes (by omega)
    have hheadLe := (length_dropByteOrderMark_le (fitting headBytes text.toList)).trans
      (utf8Length_fitting_le headBytes text.toList)
    have htailLe : utf8Length (truncateUtf8Bytes text tailBytes .keepEnd).toList ≤ tailBytes := by
      rw [htail]
      have hdrop := length_dropByteOrderMark_le
        (skipping (utf8Length text.toList - tailBytes) text.toList)
      have hskip := utf8Length_skipping_le (utf8Length text.toList - tailBytes) text.toList
      omega
    have htailSuffix : (truncateUtf8Bytes text tailBytes .keepEnd).toList <:+ text.toList := by
      rw [htail]
      exact (dropByteOrderMark_isSuffix _).trans (skipping_isSuffix _ _)
    rw [← hhead] at hheadLe ⊢
    constructor
    · rintro (⟨hwhole, -, -⟩ | ⟨middle, htext, -, -, -⟩)
      · change truncateUtf8Bytes text headBytes .keepStart = text at hwhole
        rw [hwhole]
      · rw [htext]
        exact List.prefix_append _ _
    · intro hprefix
      obtain ⟨middle, hmiddle⟩ := exists_middle hprefix htailSuffix (by omega)
      refine .inr ⟨middle, hmiddle, hheadLe, htailLe, ?_⟩
      have htotal := congrArg utf8Length hmiddle
      rw [utf8Length_append, utf8Length_append] at htotal
      change utf8Length text.toList - (_ + _) = _
      omega

/-- What is kept is exact unless a byte order mark is the first character of what is kept of a
text that is cut: the longest beginning, the longest end, and a head and a tail with what was
omitted between them.  Of a head that is byte order marks throughout one is omitted, and
counted. -/
theorem utf8Truncation_exact_iff (text : String) (maxBytes headBytes tailBytes : Nat) :
    (IsLongestPrefix text maxBytes (truncateUtf8Bytes text maxBytes .keepStart) ↔
        ¬MarkAtStart text maxBytes) ∧
      (IsLongestSuffix text maxBytes (truncateUtf8Bytes text maxBytes .keepEnd) ↔
        ¬MarkAtCut text maxBytes) ∧
      (Tiles text headBytes tailBytes (splitUtf8HeadTail text headBytes tailBytes) ↔
        ¬MarksBeforeText text headBytes tailBytes) :=
  ⟨keepStart_exact_iff, keepEnd_exact_iff, split_exact_iff⟩

end Exact

/-- The byte order mark of a text is lost where the text is cut. -/
theorem byteOrderMark_lost :
    ¬∀ (text : String) (maxBytes headBytes tailBytes : Nat),
      IsLongestPrefix text maxBytes (truncateUtf8Bytes text maxBytes .keepStart) ∧
      IsLongestSuffix text maxBytes (truncateUtf8Bytes text maxBytes .keepEnd) ∧
      Tiles text headBytes tailBytes (splitUtf8HeadTail text headBytes tailBytes) := by
  intro h
  refine keepStart_exact_iff.mp (h "\uFEFFab" 4 0 0).1 ⟨?_, ?_, ?_⟩
  · decide +kernel
  · decide
  · decide +kernel

/-! ## Truncating twice -/

/-- Whatever is lost at a cut, a truncated text is a piece of the text that fits the bound, and
truncating it again changes nothing. -/
theorem truncateUtf8Bytes_settles (text : String) (maxBytes : Nat) (mode : Utf8TruncationMode) :
    (truncateUtf8Bytes text maxBytes mode).toList <:+: text.toList ∧
      utf8Length (truncateUtf8Bytes text maxBytes mode).toList ≤ maxBytes ∧
      truncateUtf8Bytes (truncateUtf8Bytes text maxBytes mode) maxBytes mode =
        truncateUtf8Bytes text maxBytes mode := by
  have hpiece : (truncateUtf8Bytes text maxBytes mode).toList <:+: text.toList ∧
      utf8Length (truncateUtf8Bytes text maxBytes mode).toList ≤ maxBytes := by
    by_cases hfits : utf8Length text.toList ≤ maxBytes
    · rw [truncate_of_le hfits]
      exact ⟨List.infix_rfl, hfits⟩
    · have hcut := Nat.lt_of_not_le hfits
      cases mode with
      | keepStart =>
          rw [toList_truncate_keepStart hcut]
          exact ⟨(dropByteOrderMark_isSuffix _).isInfix.trans
              (fitting_isPrefix maxBytes text.toList).isInfix,
            (length_dropByteOrderMark_le _).trans (utf8Length_fitting_le maxBytes text.toList)⟩
      | keepEnd =>
          rw [toList_truncate_keepEnd hcut]
          refine ⟨(dropByteOrderMark_isSuffix _).isInfix.trans
            (skipping_isSuffix _ text.toList).isInfix, ?_⟩
          have hskipped := utf8Length_skipping_le (utf8Length text.toList - maxBytes) text.toList
          have hmark := length_dropByteOrderMark_le
            (skipping (utf8Length text.toList - maxBytes) text.toList)
          omega
  exact ⟨hpiece.1, hpiece.2, truncate_of_le hpiece.2 mode⟩

end GoatCitadel.Contracts
