import Mathlib.Data.List.Basic
import Mathlib.Data.List.DropRight

/-!
# Values of the source language

The parts of `String.prototype` that the modelled code relies on and that
differ from their namesakes in Lean, its numbers, and code that may throw.
-/

namespace GoatCitadel.Support

/-- The code points that `trim` removes: white space, line terminators and the
byte order mark. -/
def isTrimmed (c : Char) : Bool :=
  (0x09 ≤ c.toNat && c.toNat ≤ 0x0D) || c.toNat == 0x20 || c.toNat == 0xA0 ||
    c.toNat == 0x1680 || (0x2000 ≤ c.toNat && c.toNat ≤ 0x200A) ||
    c.toNat == 0x2028 || c.toNat == 0x2029 || c.toNat == 0x202F ||
    c.toNat == 0x205F || c.toNat == 0x3000 || c.toNat == 0xFEFF

/-- The characters that `.` does not match in a regular expression without
the `s` flag. -/
def isLineTerminator (c : Char) : Bool :=
  c == '\n' || c == '\r' || c.toNat == 0x2028 || c.toNat == 0x2029

/-- `String.prototype.trim`. -/
def trim (text : String) : String :=
  String.ofList
    ((text.toList.dropWhile isTrimmed).reverse.dropWhile isTrimmed).reverse

/-- `/^[a-f0-9]{64}$/` -/
def isSha256Hex (text : String) : Bool :=
  text.toList.length = 64 && text.toList.all fun c => c.isDigit || ('a' ≤ c && c ≤ 'f')

/-- `String.prototype.length`, in UTF-16 code units. -/
def utf16Length (text : String) : Nat :=
  text.toList.foldl (fun length c => length + if c.toNat < 0x10000 then 1 else 2) 0

/-- The UTF-16 code units of a text. -/
def utf16Units (text : String) : List Nat :=
  text.toList.flatMap fun c =>
    if c.toNat < 0x10000 then [c.toNat]
    else [0xD800 + (c.toNat - 0x10000) / 0x400, 0xDC00 + (c.toNat - 0x10000) % 0x400]

/-- The lexicographic order of code units. -/
def unitsLe : List Nat → List Nat → Bool
  | [], _ => true
  | _ :: _, [] => false
  | a :: as, b :: bs => a < b || (a = b && unitsLe as bs)

theorem unitsLe_total (as bs : List Nat) : unitsLe as bs = true ∨ unitsLe bs as = true := by
  induction as generalizing bs with
  | nil => exact .inl rfl
  | cons a as ih =>
      cases bs with
      | nil => exact .inr rfl
      | cons b bs =>
          simp only [unitsLe, Bool.or_eq_true, decide_eq_true_eq, Bool.and_eq_true]
          have hrest := ih bs
          obtain hlt | heq | hgt := Nat.lt_trichotomy a b
          · exact .inl (.inl hlt)
          · exact hrest.imp (fun h => .inr ⟨heq, h⟩) fun h => .inr ⟨heq.symm, h⟩
          · exact .inr (.inl hgt)

theorem unitsLe_trans {as bs cs : List Nat} (h : unitsLe as bs = true)
    (h' : unitsLe bs cs = true) : unitsLe as cs = true := by
  induction as generalizing bs cs with
  | nil => rfl
  | cons a as ih =>
      cases bs with
      | nil => cases h
      | cons b bs =>
          cases cs with
          | nil => cases h'
          | cons c cs =>
              simp only [unitsLe, Bool.or_eq_true, decide_eq_true_eq,
                Bool.and_eq_true] at h h' ⊢
              obtain hlt | ⟨heq, hrest⟩ := h
              · left
                obtain hlt' | ⟨heq', -⟩ := h'
                · exact hlt.trans hlt'
                · exact heq' ▸ hlt
              · rw [heq]
                exact h'.imp id fun h' => ⟨h'.1, ih hrest h'.2⟩

/-- The order in which `Array.prototype.sort` puts texts. -/
def utf16Le (a b : String) : Bool :=
  unitsLe (utf16Units a) (utf16Units b)

theorem utf16Le_total (a b : String) : utf16Le a b = true ∨ utf16Le b a = true :=
  unitsLe_total _ _

theorem utf16Le_trans (a b c : String) (h : utf16Le a b = true) (h' : utf16Le b c = true) :
    utf16Le a c = true :=
  unitsLe_trans h h'

theorem unitsLe_antisymm {as bs : List Nat} (h : unitsLe as bs = true)
    (h' : unitsLe bs as = true) : as = bs := by
  induction as generalizing bs with
  | nil =>
      cases bs with
      | nil => rfl
      | cons b bs => cases h'
  | cons a as ih =>
      cases bs with
      | nil => cases h
      | cons b bs =>
          simp only [unitsLe, Bool.or_eq_true, decide_eq_true_eq, Bool.and_eq_true] at h h'
          obtain hlt | ⟨rfl, hrest⟩ := h
          · omega
          · rw [ih hrest (h'.resolve_left (Nat.lt_irrefl a)).2]

/-- The code units of a character. -/
def charUnits (c : Char) : List Nat :=
  if c.toNat < 0x10000 then [c.toNat]
  else [0xD800 + (c.toNat - 0x10000) / 0x400, 0xDC00 + (c.toNat - 0x10000) % 0x400]

/-- The code units of a character show where they end. -/
theorem charUnits_cancel {c d : Char} {as bs : List Nat}
    (h : charUnits c ++ as = charUnits d ++ bs) : c = d ∧ as = bs := by
  have hc : c.toNat < 0xD800 ∨ (0xDFFF < c.toNat ∧ c.toNat < 0x110000) := c.valid
  have hd : d.toNat < 0xD800 ∨ (0xDFFF < d.toNat ∧ d.toNat < 0x110000) := d.valid
  unfold charUnits at h
  split at h
  · split at h
    · obtain ⟨hchar, hrest⟩ := List.cons.inj h
      exact ⟨Char.toNat_inj.mp hchar, hrest⟩
    · have hhead := (List.cons.inj h).1
      omega
  · split at h
    · have hhead := (List.cons.inj h).1
      omega
    · obtain ⟨hhigh, htail⟩ := List.cons.inj h
      obtain ⟨hlow, hrest⟩ := List.cons.inj htail
      exact ⟨Char.toNat_inj.mp (by omega), hrest⟩

theorem utf16Units_injective {a b : String} (h : utf16Units a = utf16Units b) : a = b := by
  have hunits : ∀ text : String, utf16Units text = text.toList.flatMap charUnits := fun _ => rfl
  rw [hunits, hunits] at h
  rw [← String.toList_inj]
  generalize a.toList = as at h ⊢
  generalize b.toList = bs at h ⊢
  have hnonempty : ∀ (c : Char) (rest : List Nat), charUnits c ++ rest ≠ [] := by
    intro c rest
    unfold charUnits
    split
    · simp
    · simp
  induction as generalizing bs with
  | nil =>
      cases bs with
      | nil => rfl
      | cons d bs => exact absurd h.symm (hnonempty d _)
  | cons c as ih =>
      cases bs with
      | nil => exact absurd h (hnonempty c _)
      | cons d bs =>
          rw [List.flatMap_cons, List.flatMap_cons] at h
          obtain ⟨rfl, hrest⟩ := charUnits_cancel h
          rw [ih bs hrest]

theorem utf16Le_antisymm {a b : String} (h : utf16Le a b = true) (h' : utf16Le b a = true) :
    a = b :=
  utf16Units_injective (unitsLe_antisymm h h')

/-- A JavaScript number, as far as the code distinguishes them. -/
inductive Number
  | finite (value : Rat)
  | nonFinite
  deriving DecidableEq

/-- `Number.MAX_SAFE_INTEGER` -/
def maxSafeInteger : Nat := 9007199254740991

/-- A text counts as set where it is used as a condition. -/
def isSet : Option String → Bool
  | some text => text ≠ ""
  | none => false

/-- The digit of a number below sixteen. -/
def hexDigit (n : Nat) : Char :=
  if n < 10 then Char.ofNat (48 + n) else Char.ofNat (87 + n)

/-- A list is as it was when what is dropped from the front of it is nothing. -/
theorem dropWhile_eq_self_of_head {p : Char → Bool} {chars : List Char}
    (h : ∀ c, chars.head? = some c → p c = false) : chars.dropWhile p = chars := by
  cases chars with
  | nil => rfl
  | cons c rest => rw [List.dropWhile_cons_of_neg (by simp [h c rfl])]

theorem trim_trim (text : String) : trim (trim text) = trim text := by
  have hfront : ∀ c, (text.toList.dropWhile isTrimmed).head? = some c → isTrimmed c = false := by
    intro c hc
    have hnot := List.head?_dropWhile_not isTrimmed text.toList
    rw [hc] at hnot
    simpa using hnot
  generalize hchars : text.toList.dropWhile isTrimmed = chars at hfront
  have hback : ((chars.reverse.dropWhile isTrimmed).reverse).dropWhile isTrimmed =
      (chars.reverse.dropWhile isTrimmed).reverse := by
    apply dropWhile_eq_self_of_head
    intro c hc
    have hpre : (chars.reverse.dropWhile isTrimmed).reverse <+: chars := by
      rw [← List.reverse_suffix, List.reverse_reverse]
      exact List.dropWhile_suffix isTrimmed
    obtain ⟨rest, hrest⟩ := hpre
    apply hfront c
    rw [← hrest, List.head?_append, hc]
    rfl
  unfold trim
  rw [String.toList_ofList, hchars, hback, List.reverse_reverse]
  rw [List.dropWhile_idempotent]

theorem toList_trim (text : String) :
    (trim text).toList = (text.toList.dropWhile isTrimmed).rdropWhile isTrimmed :=
  String.toList_ofList

/-- What `trim` leaves as it is ends in no white space. -/
theorem not_isTrimmed_getLast {text : String} (h : trim text = text) {c : Char}
    (hc : text.toList.getLast? = some c) : isTrimmed c = false := by
  have hlist := toList_trim text
  rw [h] at hlist
  have hne : (text.toList.dropWhile isTrimmed).rdropWhile isTrimmed ≠ [] := by
    rw [← hlist]
    rintro hnil
    rw [hnil] at hc
    cases hc
  have hlast := List.rdropWhile_last_not isTrimmed _ hne
  rw [hlist, List.getLast?_eq_some_getLast hne] at hc
  rw [Option.some.inj hc] at hlast
  simpa using hlast

/-- A text that is closed off at both ends by no white space is left as it is. -/
theorem trim_append {front text : String} {first last : Char}
    (hfirst : front.toList.head? = some first) (hfirstSet : isTrimmed first = false)
    (hlast : front.toList.getLast? = some last) (hlastSet : isTrimmed last = false)
    (htext : trim text = text) : trim (front ++ text) = front ++ text := by
  have hfront : (front ++ text).toList.dropWhile isTrimmed = (front ++ text).toList := by
    apply dropWhile_eq_self_of_head
    intro c hc
    rw [String.toList_append, List.head?_append, hfirst] at hc
    rw [← Option.some.inj hc]
    exact hfirstSet
  have hback : (front ++ text).toList.rdropWhile isTrimmed = (front ++ text).toList := by
    rw [List.rdropWhile_eq_self_iff]
    intro hne
    have hc := List.getLast?_eq_some_getLast hne
    generalize (front ++ text).toList.getLast hne = c at hc ⊢
    rw [String.toList_append, List.getLast?_append, hlast] at hc
    cases htextLast : text.toList.getLast? with
    | none =>
        rw [htextLast] at hc
        rw [← Option.some.inj hc, hlastSet]
        exact Bool.false_ne_true
    | some d =>
        rw [htextLast] at hc
        rw [← Option.some.inj hc, not_isTrimmed_getLast htext htextLast]
        exact Bool.false_ne_true
  rw [← String.toList_inj, toList_trim, hfront, hback]

/-- What is trimmed still starts as it did, when it did not start with white space. -/
theorem head?_trim {text : String} {first c : Char} (hfirst : text.toList.head? = some first)
    (hset : isTrimmed first = false) (hc : (trim text).toList.head? = some c) : c = first := by
  have hfront : text.toList.dropWhile isTrimmed = text.toList := by
    apply dropWhile_eq_self_of_head
    intro d hd
    rw [hfirst] at hd
    rw [← Option.some.inj hd]
    exact hset
  rw [toList_trim, hfront] at hc
  obtain ⟨rest, hrest⟩ := List.rdropWhile_prefix isTrimmed text.toList
  rw [← hrest, List.head?_append, hc] at hfirst
  exact Option.some.inj hfirst

/-- A natural number is the one that its text shows. -/
theorem toString_nat_injective {n m : Nat} (h : toString n = toString m) : n = m := by
  rw [Nat.toString_eq_repr, Nat.toString_eq_repr] at h
  have hdigits := congrArg String.toList h
  rw [Nat.toList_repr, Nat.toList_repr] at hdigits
  rw [← @Nat.ofDigitChars_ten_toDigits n, hdigits, Nat.ofDigitChars_ten_toDigits]

theorem isDigit_of_mem_toString {n : Nat} {c : Char} (hc : c ∈ (toString n).toList) :
    c.isDigit = true := by
  rw [Nat.toString_eq_repr, Nat.toList_repr] at hc
  exact Nat.isDigit_of_mem_toDigits (by decide) (by decide) hc

theorem isDigit_range {c : Char} (h : c.isDigit = true) : 48 ≤ c.toNat ∧ c.toNat ≤ 57 := by
  simp only [Char.isDigit, ge_iff_le, Bool.and_eq_true, decide_eq_true_eq,
    UInt32.le_iff_toNat_le] at h
  exact h

/-- Code that returns has returned at each of its steps. -/
theorem bind_eq_ok {ε α β : Type} {first : Except ε α} {next : α → Except ε β}
    {result : β} :
    (first >>= next) = .ok result ↔
      ∃ value, first = .ok value ∧ next value = .ok result := by
  cases first with
  | error error => simp [bind, Except.bind]
  | ok value => simp [bind, Except.bind]

/-- Code that returns has passed its guard. -/
theorem guard_eq_ok {ε α : Type} {p : Prop} [Decidable p] {error : ε}
    {next : Unit → Except ε α} {rest : Except ε α} {result : α} :
    (if p then throw error >>= next else rest) = .ok result ↔ ¬p ∧ rest = .ok result := by
  by_cases hp : p
  · simp [hp, throw, throwThe, MonadExceptOf.throw, bind, Except.bind]
  · simp [hp]

/-- What is mapped returns where the code it is mapped over does. -/
theorem map_eq_ok {ε α β : Type} {f : α → β} {result : Except ε α} {value : β}
    (h : f <$> result = .ok value) : ∃ first, result = .ok first ∧ f first = value := by
  cases result with
  | error error => cases h
  | ok first => exact ⟨first, rfl, Except.ok.inj h⟩

theorem ok_pair_inj {ε α β : Type} {a a' : α} {b b' : β}
    (h : (.ok (a, b) : Except ε (α × β)) = .ok (a', b')) : a = a' ∧ b = b' :=
  Prod.mk.inj (Except.ok.inj h)

/-- What code returns besides its answer, it returns with an answer. -/
theorem map_snd_eq_ok {ε α β : Type} {result : Except ε (α × β)} {value : β}
    (h : Prod.snd <$> result = .ok value) : ∃ first, result = .ok (first, value) := by
  cases result with
  | error error => cases h
  | ok pair =>
      obtain rfl := Except.ok.inj h
      exact ⟨pair.1, rfl⟩

/-- A text that is required is trimmed, and something of it has to be left. -/
def requireTrimmed {ε : Type} (error : ε) (value : String) : Except ε String :=
  if trim value = "" then throw error else return trim value

theorem requireTrimmed_eq_ok {ε : Type} {error : ε} {value text : String}
    (h : requireTrimmed error value = .ok text) : text = trim value ∧ text ≠ "" := by
  unfold requireTrimmed at h
  split at h
  · cases h
  · rename_i hset
    obtain rfl := Except.ok.inj h
    exact ⟨rfl, hset⟩

/-- The first name under which two texts are set that differ. -/
def firstClash (entries : List (String × Option String × Option String)) : Option String :=
  (entries.find? fun (_, stored, given) =>
    isSet stored && isSet given && stored ≠ given).map Prod.fst

theorem eq_of_firstClash {entries : List (String × Option String × Option String)}
    {entry : String × Option String × Option String} (h : firstClash entries = none)
    (hmem : entry ∈ entries) {stored given : String} (hstored : entry.2.1 = some stored)
    (hgiven : entry.2.2 = some given) (hset : stored ≠ "") (hset' : given ≠ "") :
    stored = given := by
  have hpass := List.find?_eq_none.mp (Option.map_eq_none_iff.mp h) entry hmem
  simpa [hstored, hgiven, isSet, hset, hset'] using hpass

end GoatCitadel.Support
