import Mathlib.Algebra.Order.Floor.Semiring
import Mathlib.Data.Rat.Floor
import GoatCitadel.Contracts.InlineReasoning

/-!
# Token budgets

The estimator walks over the code points of a text and prices words, ideographs and
punctuation.  White space ends a word and costs nothing, so the price of a text that ends at
white space adds up with the price of what follows.  Truncation looks for a prefix by
bisection, although a longer prefix may be cheaper, and puts a marker after it.

A text is the list of its UTF-16 code units: a prefix may end inside a surrogate pair.
-/

namespace GoatCitadel.MemoryCore

open GoatCitadel.Support
open GoatCitadel.Contracts (asciiLower isSpace trimStart)

/-! ## Characters -/

/-- The code points that a loop over a text visits; a lone surrogate is one of them. -/
def codePoints : List Nat → List Nat
  | [] => []
  | [unit] => [unit]
  | high :: low :: rest =>
      if 0xD800 ≤ high ∧ high < 0xDC00 ∧ 0xDC00 ≤ low ∧ low < 0xE000 then
        (0x10000 + (high - 0xD800) * 0x400 + (low - 0xDC00)) :: codePoints rest
      else high :: codePoints (low :: rest)

def codePointUnits (c : Nat) : List Nat :=
  if c < 0x10000 then [c]
  else [0xD800 + (c - 0x10000) / 0x400, 0xDC00 + (c - 0x10000) % 0x400]

def isUpper (c : Nat) : Bool :=
  65 ≤ c && c ≤ 90

def isLower (c : Nat) : Bool :=
  97 ≤ c && c ≤ 122

/-- The classes of characters that the estimator takes from Unicode. -/
structure CharClasses where
  isCjk : Nat → Bool
  isLetterOrNumber : Nat → Bool
  isCjk_ascii : ∀ c < 128, isCjk c = false
  isLetterOrNumber_ascii : ∀ c < 128,
    isLetterOrNumber c = (isUpper c || isLower c || (48 ≤ c && c ≤ 57))

def whitespaceChars : List Nat :=
  [0x20, 0x0A, 0x0D, 0x09, 0x0C, 0x0B, 0xA0, 0x1680, 0x2000, 0x2001, 0x2002, 0x2003, 0x2004,
    0x2005, 0x2006, 0x2007, 0x2008, 0x2009, 0x200A, 0x2028, 0x2029, 0x202F, 0x205F, 0x3000,
    0xFEFF]

def densePunctChars : List Nat :=
  utf16Units "()[]\x7b\x7d<>=+*%,;!?'\"`|&"

def wordLikeAscii : List Nat :=
  utf16Units "abcdefghijklmnopqrstuvwxyzABCDEFGHIJKLMNOPQRSTUVWXYZ0123456789_/\\:.-"

def isWhitespace (c : Nat) : Bool :=
  whitespaceChars.contains c

def isDensePunctuation (c : Nat) : Bool :=
  densePunctChars.contains c

/-! ## Words -/

def startsWithLower (text : String) (word : List Nat) : Bool :=
  (utf16Units text).isPrefixOf (word.map asciiLower)

def looksLikeUrl (word : List Nat) : Bool :=
  startsWithLower "http://" word || startsWithLower "https://" word ||
    startsWithLower "www." word

/-- `[\\/]` -/
def isSlash (unit : Nat) : Bool :=
  unit = 92 || unit = 47

def looksLikePath (word : List Nat) : Bool :=
  word.any isSlash ||
    match word with
    | drive :: 58 :: _ => isUpper drive || isLower drive
    | _ => false

/-- `/[a-z][A-Z]/` -/
def hasCamelCase : List Nat → Bool
  | a :: b :: rest => (isLower a && isUpper b) || hasCamelCase (b :: rest)
  | _ => false

def looksLikeCodeIdentifier (word : List Nat) : Bool :=
  word.any (utf16Units "_:.()-").contains || hasCamelCase word

/-- The pieces between `_`, `-`, `.` and `:`, cut before every capital. -/
def splitIdentifier (input : List Nat) : List (List Nat) :=
  ((input.splitOnP (utf16Units "_-.:").contains).flatMap fun part =>
    part.splitBy fun _ next => !isUpper next).filter (· ≠ [])

/-- `Math.ceil(n / k)` -/
def ceilDiv (n k : Nat) : Nat :=
  (n + k - 1) / k

def estimateWordTokenCost (word : List Nat) : Nat :=
  if looksLikeUrl word then max 2 (ceilDiv word.length 3)
  else if looksLikePath word then
    max 1 (((word.splitOnP isSlash).filter (· ≠ [])).length + ceilDiv word.length 6)
  else if looksLikeCodeIdentifier word then max 1 (ceilDiv ((splitIdentifier word).length * 4) 5)
  else max 1 (ceilDiv word.length 5)

/-! ## Estimates -/

inductive TokenEstimatorMode
  | exact
  | heuristic
  deriving DecidableEq

structure TokenEstimateResult where
  count : Nat
  mode : TokenEstimatorMode
  estimator : String

/-- A plugin; it answers nothing when it throws, or answers no finite number. -/
structure TokenEstimatorPlugin where
  name : String
  estimate : List Nat → Option ℚ

section

variable (classes : CharClasses)

def isWordLike (c : Nat) : Bool :=
  wordLikeAscii.contains c || classes.isLetterOrNumber c

/-- The count, with the word that has been read so far. -/
def flushWord (count : Nat) (currentWord : List Nat) : Nat :=
  if currentWord = [] then count else count + estimateWordTokenCost currentWord

/-- The loop over the characters. -/
def estimateLoop : List Nat → Nat → List Nat → Nat
  | [], count, currentWord => flushWord count currentWord
  | c :: rest, count, currentWord =>
      if isWhitespace c then estimateLoop rest (flushWord count currentWord) []
      else if classes.isCjk c then estimateLoop rest (flushWord count currentWord + 1) []
      else if isWordLike classes c then estimateLoop rest count (currentWord ++ codePointUnits c)
      else
        estimateLoop rest
          (flushWord count currentWord + if isDensePunctuation c then 1 else 2) []

def heuristicEstimateTokens (input : List Nat) : Nat :=
  max 1 (estimateLoop classes (codePoints input) 0 [])

/-- The plugins that answer a count, with their answers. -/
def pluginAnswer (plugin : TokenEstimatorPlugin) (input : List Nat) :
    Option TokenEstimateResult :=
  ((plugin.estimate input).filter (0 ≤ ·)).map fun count =>
    { count := ⌈count⌉₊, mode := .exact, estimator := plugin.name }

def estimateTokens (plugins : List TokenEstimatorPlugin) (input : List Nat) :
    TokenEstimateResult :=
  if input = [] then { count := 0, mode := .heuristic, estimator := "empty" }
  else
    (plugins.findSome? (pluginAnswer · input)).getD
      { count := heuristicEstimateTokens classes input, mode := .heuristic,
        estimator := "goatcitadel-heuristic-v2" }

def estimateTokensFromText (plugins : List TokenEstimatorPlugin) (input : List Nat) : Nat :=
  (estimateTokens classes plugins input).count

/-! ## Truncation -/

def truncationSuffix : List Nat :=
  utf16Units "\n...[truncated]"

def trimEnd (text : List Nat) : List Nat :=
  text.rdropWhile isSpace

/-- The loop of the search, for the last candidate that it accepted. -/
def searchPrefix (accepts : List Nat → Bool) (input : List Nat) (low high : Int)
    (best : List Nat) : List Nat :=
  if low ≤ high then
    let mid := (low + high) / 2
    let candidate := input.take mid.toNat
    if accepts candidate then searchPrefix accepts input (mid + 1) high candidate
    else searchPrefix accepts input low (mid - 1) best
  else best
termination_by (high + 1 - low).toNat

def truncateByTokenEstimate (plugins : List TokenEstimatorPlugin) (input : List Nat)
    (maxTokens : ℚ) : List Nat :=
  if maxTokens ≤ 0 ∨ input = [] then []
  else if (estimateTokensFromText classes plugins input : ℚ) ≤ maxTokens then input
  else
    let suffixBudget : ℚ := estimateTokensFromText classes plugins truncationSuffix
    let targetBudget := max 1 (maxTokens - suffixBudget)
    let best := searchPrefix
      (fun candidate => (estimateTokensFromText classes plugins candidate : ℚ) ≤ targetBudget)
      input 0 input.length []
    let trimmed := trimEnd best
    if trimmed = [] then trimStart truncationSuffix else trimmed ++ truncationSuffix

end

/-! ## White space between texts -/

theorem codePoints_append {a b : List Nat}
    (hb : ∀ low ∈ b.head?, ¬(0xDC00 ≤ low ∧ low < 0xE000)) :
    codePoints (a ++ b) = codePoints a ++ codePoints b := by
  induction a using codePoints.induct with
  | case1 => rfl
  | case2 unit =>
      cases b with
      | nil => rfl
      | cons low rest =>
          have hlow := hb low rfl
          have hpair : ¬(0xD800 ≤ unit ∧ unit < 0xDC00 ∧ 0xDC00 ≤ low ∧ low < 0xE000) :=
            fun h => hlow h.2.2
          exact if_neg hpair
  | case3 high low rest hpair ih =>
      rw [List.cons_append, List.cons_append, codePoints, if_pos hpair, codePoints,
        if_pos hpair, ih, List.cons_append]
  | case4 high low rest hpair ih =>
      rw [List.cons_append] at ih
      rw [List.cons_append, List.cons_append, codePoints, if_neg hpair, codePoints,
        if_neg hpair, ih, List.cons_append]

theorem isSpace_iff_isWhitespace {unit : Nat} : isSpace unit = isWhitespace unit := by
  rw [Bool.eq_iff_iff]
  simp only [isSpace, isWhitespace, whitespaceChars, List.contains_eq_mem, Bool.or_eq_true,
    Bool.and_eq_true, decide_eq_true_eq, beq_iff_eq, List.mem_cons, List.not_mem_nil, or_false]
  omega

/-- White space is no half of a surrogate pair. -/
theorem isWhitespace_range {unit : Nat} (h : isWhitespace unit = true) :
    unit < 0xD800 ∨ 0xE000 ≤ unit := by
  rw [← isSpace_iff_isWhitespace] at h
  simp only [isSpace, Bool.or_eq_true, Bool.and_eq_true, decide_eq_true_eq, beq_iff_eq] at h
  omega

theorem codePoints_space {unit : Nat} {rest : List Nat} (h : isWhitespace unit = true) :
    codePoints (unit :: rest) = unit :: codePoints rest := by
  have hrange := isWhitespace_range h
  cases rest with
  | nil => rfl
  | cons low rest => rw [codePoints, if_neg (by omega)]

section

variable {classes : CharClasses}

theorem flushWord_add (n count : Nat) (currentWord : List Nat) :
    flushWord (n + count) currentWord = n + flushWord count currentWord := by
  unfold flushWord
  split
  · rfl
  · rw [Nat.add_assoc]

/-- What has been counted stands in front of what is counted later. -/
theorem estimateLoop_add (cs : List Nat) (n count : Nat) (currentWord : List Nat) :
    estimateLoop classes cs (n + count) currentWord =
      n + estimateLoop classes cs count currentWord := by
  induction cs generalizing count currentWord with
  | nil => exact flushWord_add n count currentWord
  | cons c rest ih =>
      simp only [estimateLoop, flushWord_add, Nat.add_assoc]
      split
      · exact ih _ _
      split
      · exact ih _ _
      split
      · exact ih _ _
      · exact ih _ _

/-- White space ends the word that came before it. -/
theorem estimateLoop_space {space : Nat} (hspace : isWhitespace space = true)
    (cs ds : List Nat) (count : Nat) (currentWord : List Nat) :
    estimateLoop classes (cs ++ space :: ds) count currentWord =
      estimateLoop classes ds (estimateLoop classes cs count currentWord) [] := by
  induction cs generalizing count currentWord with
  | nil => exact if_pos hspace
  | cons c rest ih =>
      rw [List.cons_append, estimateLoop, estimateLoop]
      split
      · exact ih _ _
      split
      · exact ih _ _
      split
      · exact ih _ _
      · exact ih _ _

/-- The price of a text, before the least price of one token. -/
def rawEstimate (classes : CharClasses) (input : List Nat) : Nat :=
  estimateLoop classes (codePoints input) 0 []

/-- Prices add up over white space. -/
theorem rawEstimate_space {space : Nat} (hspace : isWhitespace space = true)
    (a b : List Nat) :
    rawEstimate classes (a ++ space :: b) = rawEstimate classes a + rawEstimate classes b := by
  have hlow : ∀ low ∈ (space :: b).head?, ¬(0xDC00 ≤ low ∧ low < 0xE000) := by
    intro low hlow
    obtain rfl := Option.some.inj hlow
    have hrange := isWhitespace_range hspace
    omega
  unfold rawEstimate
  rw [codePoints_append hlow, codePoints_space hspace, estimateLoop_space hspace]
  exact estimateLoop_add (codePoints b) (estimateLoop classes (codePoints a) 0 []) 0 []

theorem rawEstimate_spaces {spaces : List Nat}
    (hspaces : ∀ unit ∈ spaces, isWhitespace unit = true) (a : List Nat) :
    rawEstimate classes (a ++ spaces) = rawEstimate classes a := by
  have hnone : rawEstimate classes spaces = 0 := by
    induction spaces with
    | nil => rfl
    | cons space rest ih =>
        have hrest := @rawEstimate_space classes _ (hspaces space List.mem_cons_self) [] rest
        rw [List.nil_append] at hrest
        rw [hrest, ih fun unit hunit => hspaces unit (List.mem_cons_of_mem _ hunit)]
        rfl
  cases spaces with
  | nil => rw [List.append_nil]
  | cons space rest =>
      have hrest := @rawEstimate_space classes _ (hspaces space List.mem_cons_self) [] rest
      rw [List.nil_append, hnone] at hrest
      rw [rawEstimate_space (hspaces space List.mem_cons_self)]
      have hempty : rawEstimate classes [] = 0 := rfl
      omega

/-- Trailing white space has no price. -/
theorem rawEstimate_trimEnd (text : List Nat) :
    rawEstimate classes (trimEnd text) = rawEstimate classes text := by
  have hsplit : trimEnd text ++ (text.reverse.takeWhile isSpace).reverse = text := by
    rw [trimEnd, List.rdropWhile, ← List.reverse_append, List.takeWhile_append_dropWhile,
      List.reverse_reverse]
  have hspaces : ∀ unit ∈ (text.reverse.takeWhile isSpace).reverse,
      isWhitespace unit = true := by
    intro unit hunit
    rw [← isSpace_iff_isWhitespace]
    exact List.mem_takeWhile_imp (List.mem_reverse.mp hunit)
  have hprice := @rawEstimate_spaces classes _ hspaces (trimEnd text)
  rw [hsplit] at hprice
  exact hprice.symm

/-! ## The marker -/

/-- The classes as they are for ASCII alone. -/
def asciiClasses : CharClasses where
  isCjk _ := false
  isLetterOrNumber c := isUpper c || isLower c || (48 ≤ c && c ≤ 57)
  isCjk_ascii _ _ := rfl
  isLetterOrNumber_ascii _ _ := rfl

theorem estimateLoop_ascii {cs : List Nat} (hcs : ∀ c ∈ cs, c < 128) (count : Nat)
    (currentWord : List Nat) :
    estimateLoop classes cs count currentWord = estimateLoop asciiClasses cs count currentWord := by
  induction cs generalizing count currentWord with
  | nil => rfl
  | cons c rest ih =>
      have hc := hcs c List.mem_cons_self
      have hword : isWordLike classes c = isWordLike asciiClasses c := by
        rw [isWordLike, isWordLike, classes.isLetterOrNumber_ascii c hc]
        rfl
      have hcjk : asciiClasses.isCjk c = false := rfl
      rw [estimateLoop, estimateLoop, classes.isCjk_ascii c hc, hcjk, hword]
      simp only [ih fun d hd => hcs d (List.mem_cons_of_mem _ hd)]

theorem rawEstimate_marker : rawEstimate classes truncationSuffix.tail = 5 := by
  have hascii : ∀ c ∈ codePoints truncationSuffix.tail, c < 128 := by decide
  rw [rawEstimate, estimateLoop_ascii hascii]
  decide +kernel

theorem estimateTokensFromText_eq (input : List Nat) :
    estimateTokensFromText classes [] input =
      if input = [] then 0 else max 1 (rawEstimate classes input) := by
  unfold estimateTokensFromText estimateTokens
  split
  · rfl
  · rfl

theorem estimate_marker : estimateTokensFromText classes [] truncationSuffix.tail = 5 := by
  rw [estimateTokensFromText_eq, if_neg (by decide), rawEstimate_marker]
  rfl

theorem estimate_truncationSuffix :
    estimateTokensFromText classes [] truncationSuffix = 5 := by
  have hprice := @rawEstimate_space classes 10 rfl [] truncationSuffix.tail
  rw [rawEstimate_marker] at hprice
  rw [estimateTokensFromText_eq, if_neg (by decide)]
  have hsuffix : [] ++ 10 :: truncationSuffix.tail = truncationSuffix := by decide
  rw [hsuffix] at hprice
  rw [hprice]
  rfl

/-- A text with the marker after it costs what it costs itself, and the marker. -/
theorem estimate_append_suffix (text : List Nat) :
    estimateTokensFromText classes [] (text ++ truncationSuffix) =
      rawEstimate classes text + 5 := by
  have hprice := @rawEstimate_space classes 10 rfl text truncationSuffix.tail
  rw [rawEstimate_marker] at hprice
  have hsuffix : (10 :: truncationSuffix.tail : List Nat) = truncationSuffix := by decide
  rw [hsuffix] at hprice
  have hne : text ++ truncationSuffix ≠ [] := fun h =>
    absurd (List.append_eq_nil_iff.mp h).2 (by decide)
  rw [estimateTokensFromText_eq, if_neg hne, hprice]
  omega

/-! ## Budgets -/

/-- The search ends with nothing or with a prefix that it accepted. -/
theorem searchPrefix_spec {accepts : List Nat → Bool} {input best : List Nat} {low high : Int}
    (hbest : best = [] ∨ accepts best = true) (htake : ∃ k, best = input.take k) :
    (searchPrefix accepts input low high best = [] ∨
        accepts (searchPrefix accepts input low high best) = true) ∧
      ∃ k, searchPrefix accepts input low high best = input.take k := by
  fun_induction searchPrefix accepts input low high best with
  | case1 low high best _ mid candidate haccepts ih => exact ih (.inr haccepts) ⟨_, rfl⟩
  | case2 low high best _ mid candidate _ ih => exact ih hbest htake
  | case3 low high best _ => exact ⟨hbest, htake⟩

/-- A prefix without the white space at its end, with the marker after it; the marker alone
begins without its line break. -/
def markTruncated (kept : List Nat) : List Nat :=
  if trimEnd kept = [] then trimStart truncationSuffix else trimEnd kept ++ truncationSuffix

theorem estimate_markTruncated (kept : List Nat) :
    estimateTokensFromText classes [] (markTruncated kept) =
      rawEstimate classes (trimEnd kept) + 5 := by
  unfold markTruncated
  split
  · next hnone =>
      have htrim : trimStart truncationSuffix = truncationSuffix.tail := by decide
      rw [htrim, estimate_marker, hnone]
      rfl
  · exact estimate_append_suffix _

/-- What is left of a text that does not fit. -/
theorem truncate_eq_markTruncated {input : List Nat} {maxTokens : ℚ} (hmax : 0 < maxTokens)
    (hfits : ¬(estimateTokensFromText classes [] input : ℚ) ≤ maxTokens) :
    ∃ k, truncateByTokenEstimate classes [] input maxTokens = markTruncated (input.take k) ∧
      (rawEstimate classes (trimEnd (input.take k)) : ℚ) ≤ max 1 (maxTokens - 5) := by
  have hinput : input ≠ [] := by
    rintro rfl
    exact hfits (by simpa [estimateTokensFromText_eq] using hmax.le)
  have hguard : ¬(maxTokens ≤ 0 ∨ input = []) := not_or.mpr ⟨not_le.mpr hmax, hinput⟩
  obtain ⟨haccepted, k, hk⟩ := @searchPrefix_spec
    (fun candidate => (estimateTokensFromText classes [] candidate : ℚ) ≤
      max 1 (maxTokens - (estimateTokensFromText classes [] truncationSuffix : ℚ)))
    input [] 0 input.length (.inl rfl) ⟨0, rfl⟩
  rw [hk] at haccepted
  refine ⟨k, ?_, ?_⟩
  · rw [truncateByTokenEstimate, if_neg hguard, if_neg hfits]
    dsimp only
    rw [hk]
    rfl
  · rw [rawEstimate_trimEnd]
    rcases haccepted with hnone | haccepted
    · rw [hnone]
      exact le_max_of_le_left zero_le_one
    · have hprice := of_decide_eq_true haccepted
      rw [estimate_truncationSuffix] at hprice
      refine le_trans ?_ hprice
      rw [estimateTokensFromText_eq]
      split
      · next hnone => rw [hnone]; rfl
      · exact_mod_cast le_max_right 1 _

theorem truncate_of_fits {input : List Nat} {maxTokens : ℚ}
    (hfits : (estimateTokensFromText classes [] input : ℚ) ≤ maxTokens) :
    truncateByTokenEstimate classes [] input maxTokens = input := by
  by_cases hinput : input = []
  · rw [truncateByTokenEstimate, if_pos (.inr hinput), hinput]
  · have hpositive : ¬maxTokens ≤ 0 := by
      intro hzero
      rw [estimateTokensFromText_eq, if_neg hinput] at hfits
      have hone : (1 : ℚ) ≤ ((max 1 (rawEstimate classes input) : Nat) : ℚ) := by
        exact_mod_cast le_max_left 1 _
      linarith
    rw [truncateByTokenEstimate, if_neg (not_or.mpr ⟨hpositive, hinput⟩), if_pos hfits]

theorem truncate_of_nonpos {input : List Nat} {maxTokens : ℚ} (hmax : maxTokens ≤ 0) :
    truncateByTokenEstimate classes [] input maxTokens = [] :=
  if_pos (.inl hmax)

/-- The estimate of a result is one of its own text and the marker. -/
theorem estimate_of_not_fits {input : List Nat} {maxTokens : ℚ} (hmax : 0 < maxTokens)
    (hfits : ¬(estimateTokensFromText classes [] input : ℚ) ≤ maxTokens) :
    5 ≤ estimateTokensFromText classes []
        (truncateByTokenEstimate classes [] input maxTokens) ∧
      (estimateTokensFromText classes []
        (truncateByTokenEstimate classes [] input maxTokens) : ℚ) ≤ max maxTokens 6 := by
  obtain ⟨k, hresult, hprice⟩ := truncate_eq_markTruncated hmax hfits
  rw [hresult, estimate_markTruncated]
  refine ⟨Nat.le_add_left _ _, ?_⟩
  push_cast
  rcases max_cases (1 : ℚ) (maxTokens - 5) with ⟨heq, -⟩ | ⟨heq, -⟩
  · refine le_max_of_le_right ?_
    linarith
  · refine le_max_of_le_left ?_
    linarith

end

/-- Truncation keeps to its budget when the budget is zero, when the text fits, and when the
budget has room for the marker and one token more.  Otherwise the result costs the marker
and at most one token. -/
theorem truncate_keepsBudget (classes : CharClasses) (input : List Nat) (maxTokens : ℚ)
    (hmax : 0 ≤ maxTokens) :
    (maxTokens = 0 ∨ (estimateTokensFromText classes [] input : ℚ) ≤ maxTokens ∨
        6 ≤ maxTokens →
      (estimateTokensFromText classes []
        (truncateByTokenEstimate classes [] input maxTokens) : ℚ) ≤ maxTokens) ∧
    (0 < maxTokens → ¬(estimateTokensFromText classes [] input : ℚ) ≤ maxTokens →
      (∃ k, truncateByTokenEstimate classes [] input maxTokens =
        markTruncated (input.take k)) ∧
      5 ≤ estimateTokensFromText classes []
        (truncateByTokenEstimate classes [] input maxTokens) ∧
      (maxTokens < 6 → estimateTokensFromText classes []
        (truncateByTokenEstimate classes [] input maxTokens) ≤ 6)) ∧
    (maxTokens = 0 → truncateByTokenEstimate classes [] input maxTokens = []) := by
  refine ⟨fun hroom => ?_, fun hpositive hfits => ⟨?_, ?_, fun hsmall => ?_⟩, fun hzero => ?_⟩
  · by_cases hfits : (estimateTokensFromText classes [] input : ℚ) ≤ maxTokens
    · rwa [truncate_of_fits hfits]
    · rcases hmax.eq_or_lt with hzero | hpositive
      · rw [truncate_of_nonpos hzero.ge, ← hzero]
        rfl
      · have hsix := (hroom.resolve_left hpositive.ne').resolve_left hfits
        have hprice := (estimate_of_not_fits hpositive hfits).2
        rwa [max_eq_left hsix] at hprice
  · obtain ⟨k, hresult, -⟩ := truncate_eq_markTruncated hpositive hfits
    exact ⟨k, hresult⟩
  · exact (estimate_of_not_fits hpositive hfits).1
  · have hprice := (estimate_of_not_fits hpositive hfits).2
    rw [max_eq_right hsmall.le] at hprice
    exact_mod_cast hprice
  · exact truncate_of_nonpos hzero.le

/-- Eight words do not fit into six tokens, and their truncation does. -/
theorem truncate_eightWords :
    6 < estimateTokensFromText asciiClasses [] (utf16Units "one two ten six one two ten six") ∧
    (estimateTokensFromText asciiClasses [] (truncateByTokenEstimate asciiClasses []
      (utf16Units "one two ten six one two ten six") 6) : ℚ) ≤ 6 :=
  ⟨by decide +kernel, (truncate_keepsBudget asciiClasses
    (utf16Units "one two ten six one two ten six") 6 (by norm_num)).1 (.inr (.inr le_rfl))⟩

/-- Two words do not fit into one token, and the marker does not fit either. -/
theorem oneToken_exceeded :
    ¬∀ (classes : CharClasses) (input : List Nat) (maxTokens : ℚ), 0 ≤ maxTokens →
      (estimateTokensFromText classes []
        (truncateByTokenEstimate classes [] input maxTokens) : ℚ) ≤ maxTokens := by
  intro h
  have hestimate : estimateTokensFromText asciiClasses [] (utf16Units "alpha beta") = 2 := by
    decide +kernel
  have hfits : ¬(estimateTokensFromText asciiClasses [] (utf16Units "alpha beta") : ℚ) ≤ 1 := by
    rw [hestimate]
    norm_num
  have hcost := (estimate_of_not_fits one_pos hfits).1
  have hbound := h asciiClasses (utf16Units "alpha beta") 1 zero_le_one
  have hcost' : (5 : ℚ) ≤ (estimateTokensFromText asciiClasses []
      (truncateByTokenEstimate asciiClasses [] (utf16Units "alpha beta") 1) : ℚ) := by
    exact_mod_cast hcost
  linarith

end GoatCitadel.MemoryCore
