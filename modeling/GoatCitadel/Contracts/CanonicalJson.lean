import GoatCitadel.Support.Separated
import GoatCitadel.Support.Text
import Mathlib.Data.List.Sort
import Mathlib.Data.Rat.Defs

/-!
# Canonical JSON on code units

`canonicalJsonString` prints a value with the members of its objects in the order of their keys.
Texts are lists of UTF-16 code units, and a surrogate without its other half is printed as an
escape sequence, so that a text can be read off its quotation.  A flat record with given keys can
be read off its text as well.
-/

namespace GoatCitadel.Contracts

open GoatCitadel.Support

/-! ## Values -/

inductive CanonicalValue
  | null
  | boolean (value : Bool)
  | number (value : Number)
  | text (value : List Nat)
  | array (items : List CanonicalValue)
  | object (members : List (List Nat × CanonicalValue))

/-! ## Quotations -/

def hexUnit (value : Nat) : Nat :=
  (hexDigit value).toNat

/-- `\uXXXX` -/
def unicodeEscape (unit : Nat) : List Nat :=
  [92, 117, hexUnit (unit / 4096 % 16), hexUnit (unit / 256 % 16), hexUnit (unit / 16 % 16),
    hexUnit (unit % 16)]

def isSurrogate (unit : Nat) : Bool :=
  0xD800 ≤ unit && unit < 0xE000

/-- The letter behind the backslash for the units that have one. -/
def shortEscape (unit : Nat) : Option Nat :=
  if unit = 34 then some 34
  else if unit = 92 then some 92
  else if unit = 8 then some 98
  else if unit = 9 then some 116
  else if unit = 10 then some 110
  else if unit = 12 then some 102
  else if unit = 13 then some 114
  else none

/-- A unit that is not in a pair of surrogates. -/
def escapeUnit (unit : Nat) : List Nat :=
  (shortEscape unit).elim
    (if unit < 32 ∨ isSurrogate unit = true then unicodeEscape unit else [unit])
    fun letter => [92, letter]

/-- The units are the two halves of a character. -/
def isPair (high low : Nat) : Bool :=
  (0xD800 ≤ high && high < 0xDC00) && (0xDC00 ≤ low && low < 0xE000)

def escapeUnits : List Nat → List Nat
  | [] => []
  | [unit] => escapeUnit unit
  | high :: low :: units =>
      if isPair high low = true then high :: low :: escapeUnits units
      else escapeUnit high ++ escapeUnits (low :: units)

/-- `JSON.stringify` of a text. -/
def quote (text : List Nat) : List Nat :=
  34 :: (escapeUnits text ++ [34])

/-! ## Texts of values -/

def memberText (member : List Nat × List Nat) : List Nat :=
  quote member.1 ++ 58 :: member.2

/-- The text of an object whose members have these texts. -/
def objectText (members : List (List Nat × List Nat)) : List Nat :=
  123 :: ([44].intercalate
    ((members.insertionSort fun member other => unitsLe member.1 other.1 = true).map memberText) ++
      [125])

section Canonicalize

variable (numberText : ℚ → List Nat)

mutual

/-- `canonicalize`, with `JSON.stringify` of finite numbers. -/
def canonicalize : CanonicalValue → Except (List Nat) (List Nat)
  | .null => .ok (utf16Units "null")
  | .boolean true => .ok (utf16Units "true")
  | .boolean false => .ok (utf16Units "false")
  | .number (.finite value) => .ok (numberText value)
  | .number .nonFinite =>
      .error (utf16Units
        "Cannot canonicalize a non-finite number in an evidence receipt manifest.")
  | .text value => .ok (quote value)
  | .array items =>
      (fun texts => 91 :: ([44].intercalate texts ++ [93])) <$> canonicalizeItems items
  | .object members => objectText <$> canonicalizeMembers members

def canonicalizeItems : List CanonicalValue → Except (List Nat) (List (List Nat))
  | [] => .ok []
  | item :: items =>
      canonicalize item >>= fun text => (text :: ·) <$> canonicalizeItems items

def canonicalizeMembers :
    List (List Nat × CanonicalValue) → Except (List Nat) (List (List Nat × List Nat))
  | [] => .ok []
  | (key, value) :: members =>
      canonicalize value >>= fun text => ((key, text) :: ·) <$> canonicalizeMembers members

end

def canonicalJsonString (value : CanonicalValue) : Except (List Nat) (List Nat) :=
  canonicalize numberText value

end Canonicalize

section Canonicalize

variable {numberText : ℚ → List Nat}

/-- An object is printed when its members are. -/
theorem exists_canonicalizeMembers {members : List (List Nat × CanonicalValue)}
    (h : ∀ member ∈ members, ∃ text, canonicalize numberText member.2 = .ok text) :
    ∃ texts, canonicalizeMembers numberText members = .ok texts := by
  induction members with
  | nil => exact ⟨[], rfl⟩
  | cons member members ih =>
      obtain ⟨⟨text, hfirst⟩, hrest⟩ := List.forall_mem_cons.mp h
      obtain ⟨texts, hrest⟩ := ih hrest
      refine ⟨(member.1, text) :: texts, ?_⟩
      rw [canonicalizeMembers, hfirst, hrest]
      rfl

end Canonicalize

/-! ## Reading quotations -/

theorem hexUnit_injective {value other : Nat} (h : value < 16) (h' : other < 16)
    (heq : hexUnit value = hexUnit other) : value = other := by
  have hall : ∀ value < 16, ∀ other < 16, hexUnit value = hexUnit other → value = other := by
    decide
  exact hall value h other h' heq

theorem unicodeEscape_cancel {unit other : Nat} {rest rest' : List Nat} (h : unit < 0x10000)
    (h' : other < 0x10000) (heq : unicodeEscape unit ++ rest = unicodeEscape other ++ rest') :
    unit = other ∧ rest = rest' := by
  simp only [unicodeEscape, List.cons_append, List.nil_append, List.cons.injEq, true_and] at heq
  obtain ⟨h1, h2, h3, h4, hrest⟩ := heq
  have e1 := hexUnit_injective (Nat.mod_lt _ (by decide)) (Nat.mod_lt _ (by decide)) h1
  have e2 := hexUnit_injective (Nat.mod_lt _ (by decide)) (Nat.mod_lt _ (by decide)) h2
  have e3 := hexUnit_injective (Nat.mod_lt _ (by decide)) (Nat.mod_lt _ (by decide)) h3
  have e4 := hexUnit_injective (Nat.mod_lt _ (by decide)) (Nat.mod_lt _ (by decide)) h4
  exact ⟨by omega, hrest⟩

theorem shortEscape_injective {unit other letter : Nat} (h : shortEscape unit = some letter)
    (h' : shortEscape other = some letter) : unit = other := by
  rw [shortEscape] at h h'
  split_ifs at h <;> obtain rfl := Option.some_inj.mp h <;> split_ifs at h' <;> simp_all

/-- No letter is the `u` of the long escape sequences. -/
theorem shortEscape_ne {unit letter : Nat} (h : shortEscape unit = some letter) :
    letter ≠ 117 := by
  rw [shortEscape] at h
  split_ifs at h <;> obtain rfl := Option.some_inj.mp h <;> decide

/-- A unit is printed with a letter, in hexadecimal digits or as it is. -/
theorem escapeUnit_cases (unit : Nat) :
    (∃ letter, shortEscape unit = some letter ∧ escapeUnit unit = [92, letter]) ∨
      escapeUnit unit = unicodeEscape unit ∨
      (escapeUnit unit = [unit] ∧ unit ≠ 34 ∧ unit ≠ 92 ∧ isSurrogate unit = false) := by
  rw [escapeUnit]
  cases hshort : shortEscape unit with
  | some letter => exact .inl ⟨letter, rfl, rfl⟩
  | none =>
      rw [Option.elim_none]
      split_ifs with hlong
      · exact .inr (.inl rfl)
      · obtain ⟨-, hsurrogate⟩ := not_or.mp hlong
        refine .inr (.inr ⟨rfl, ?_, ?_, Bool.eq_false_iff.mpr hsurrogate⟩)
        · rintro rfl
          exact nomatch hshort
        · rintro rfl
          exact nomatch hshort

/-- What a unit is printed as begins with a backslash or is no quotation mark and no surrogate. -/
theorem head_escapeUnit (unit : Nat) :
    ∃ first rest, escapeUnit unit = first :: rest ∧ first ≠ 34 ∧ isSurrogate first = false := by
  rcases escapeUnit_cases unit with ⟨letter, -, heq⟩ | heq | ⟨heq, hquote, -, hsurrogate⟩
  · exact ⟨92, [letter], heq, by decide, rfl⟩
  · exact ⟨92, _, heq, by decide, rfl⟩
  · exact ⟨unit, [], heq, hquote, hsurrogate⟩

theorem escapeUnit_cancel {unit other : Nat} {rest rest' : List Nat} (h : unit < 0x10000)
    (h' : other < 0x10000) (heq : escapeUnit unit ++ rest = escapeUnit other ++ rest') :
    unit = other ∧ rest = rest' := by
  rcases escapeUnit_cases unit with ⟨letter, hshort, hunit⟩ | hunit | ⟨hunit, -, hback, -⟩ <;>
    rcases escapeUnit_cases other with
      ⟨letter', hshort', hother⟩ | hother | ⟨hother, -, hback', -⟩ <;>
    rw [hunit, hother] at heq
  · obtain ⟨-, htail⟩ := List.cons.inj heq
    obtain ⟨rfl, hrest⟩ := List.cons.inj htail
    exact ⟨shortEscape_injective hshort hshort', hrest⟩
  · obtain ⟨-, htail⟩ := List.cons.inj heq
    exact absurd (List.cons.inj htail).1 (shortEscape_ne hshort)
  · exact absurd (List.cons.inj heq).1.symm hback'
  · obtain ⟨-, htail⟩ := List.cons.inj heq
    exact absurd (List.cons.inj htail).1.symm (shortEscape_ne hshort')
  · exact unicodeEscape_cancel h h' heq
  · exact absurd (List.cons.inj heq).1.symm hback'
  · exact absurd (List.cons.inj heq).1 hback
  · exact absurd (List.cons.inj heq).1 hback
  · exact List.cons.inj heq

/-- The first unit of a text is printed with the second one as a pair, or alone. -/
theorem escapeUnits_cons_cases (unit : Nat) (units : List Nat) :
    (∃ low rest, units = low :: rest ∧ isPair unit low = true ∧
      escapeUnits (unit :: units) = unit :: low :: escapeUnits rest) ∨
    escapeUnits (unit :: units) = escapeUnit unit ++ escapeUnits units := by
  cases units with
  | nil => exact .inr (List.append_nil _).symm
  | cons low rest =>
      by_cases hpair : isPair unit low = true
      · exact .inl ⟨low, rest, rfl, hpair, by rw [escapeUnits, if_pos hpair]⟩
      · exact .inr (by rw [escapeUnits, if_neg hpair])

theorem isSurrogate_of_isPair {high low : Nat} (h : isPair high low = true) :
    isSurrogate high = true := by
  simp only [isPair, isSurrogate, Bool.and_eq_true, decide_eq_true_eq] at h ⊢
  omega

/-- A quotation ends at its quotation mark: the text and what follows can be read off it.  By
induction on the length, as a pair of surrogates takes two units. -/
theorem escapeUnits_cancel {text text' rest rest' : List Nat} (h : ∀ unit ∈ text, unit < 0x10000)
    (h' : ∀ unit ∈ text', unit < 0x10000)
    (heq : escapeUnits text ++ 34 :: rest = escapeUnits text' ++ 34 :: rest') :
    text = text' ∧ rest = rest' := by
  have hstart : ∀ (unit : Nat) (units rest rest' : List Nat),
      escapeUnits (unit :: units) ++ rest ≠ 34 :: rest' := by
    intro unit units rest rest' heq
    rcases escapeUnits_cons_cases unit units with ⟨low, more, -, hpair, hunits⟩ | hunits
    · rw [hunits] at heq
      obtain rfl := (List.cons.inj heq).1
      exact absurd (isSurrogate_of_isPair hpair) (by decide)
    · obtain ⟨first, more, hfirst, hquote, -⟩ := head_escapeUnit unit
      rw [hunits, hfirst] at heq
      exact hquote (List.cons.inj heq).1
  -- A pair begins with a surrogate, a unit alone is not printed so.
  have hmixed : ∀ (unit other : Nat) (low : Nat) (rest rest' : List Nat), isPair unit low = true →
      unit :: rest ≠ escapeUnit other ++ rest' := by
    intro unit other low rest rest' hpair heq
    obtain ⟨first, more, hfirst, -, hnot⟩ := head_escapeUnit other
    rw [hfirst] at heq
    obtain rfl := (List.cons.inj heq).1
    exact absurd ((isSurrogate_of_isPair hpair).symm.trans hnot) Bool.true_eq_false.mp
  induction hlength : text.length using Nat.strong_induction_on generalizing text text' with
  | _ length ih =>
      cases text with
      | nil =>
          cases text' with
          | nil => exact ⟨rfl, (List.cons.inj heq).2⟩
          | cons unit' units' => exact absurd heq.symm (hstart unit' units' _ _)
      | cons unit units =>
          cases text' with
          | nil => exact absurd heq (hstart unit units _ _)
          | cons unit' units' =>
              rw [List.length_cons] at hlength
              obtain ⟨hunit, hunits⟩ := List.forall_mem_cons.mp h
              obtain ⟨hunit', hunits'⟩ := List.forall_mem_cons.mp h'
              rcases escapeUnits_cons_cases unit units with
                ⟨low, more, rfl, hpair, hprint⟩ | hprint <;>
              rcases escapeUnits_cons_cases unit' units' with
                ⟨low', more', rfl, hpair', hprint'⟩ | hprint' <;>
              rw [hprint, hprint'] at heq
              · obtain ⟨rfl, htail⟩ := List.cons.inj heq
                obtain ⟨rfl, hmore⟩ := List.cons.inj htail
                rw [List.length_cons] at hlength
                obtain ⟨rfl, hrest⟩ := ih more.length (by omega)
                  (List.forall_mem_cons.mp hunits).2 (List.forall_mem_cons.mp hunits').2 hmore rfl
                exact ⟨rfl, hrest⟩
              · rw [List.append_assoc] at heq
                exact absurd heq (hmixed unit unit' low _ _ hpair)
              · rw [List.append_assoc] at heq
                exact absurd heq.symm (hmixed unit' unit low' _ _ hpair')
              · rw [List.append_assoc, List.append_assoc] at heq
                obtain ⟨rfl, hmore⟩ := escapeUnit_cancel hunit hunit' heq
                obtain ⟨rfl, hrest⟩ := ih units.length (by omega) hunits hunits' hmore rfl
                exact ⟨rfl, hrest⟩

/-- A quotation can be read off what it begins. -/
theorem quote_cancel {text text' rest rest' : List Nat} (h : ∀ unit ∈ text, unit < 0x10000)
    (h' : ∀ unit ∈ text', unit < 0x10000) (heq : quote text ++ rest = quote text' ++ rest') :
    text = text' ∧ rest = rest' := by
  rw [quote, quote, List.cons_append, List.cons_append, List.append_assoc, List.append_assoc] at heq
  exact escapeUnits_cancel h h' (List.cons.inj heq).2

/-! ## Reading flat records -/

/-- A comma or the brace that closes the object comes next. -/
def EndsMember (rest : List Nat) : Prop :=
  rest.head? = some 44 ∨ rest.head? = some 125

/-- The texts end where the member ends. -/
def Delimited (text text' : List Nat) : Prop :=
  ∀ rest rest', EndsMember rest → EndsMember rest' → text ++ rest = text' ++ rest' →
    text = text' ∧ rest = rest'

theorem quote_delimited {text text' : List Nat} (h : ∀ unit ∈ text, unit < 0x10000)
    (h' : ∀ unit ∈ text', unit < 0x10000) : Delimited (quote text) (quote text') := by
  intro rest rest' _ _ heq
  obtain ⟨rfl, hrest⟩ := quote_cancel h h' heq
  exact ⟨rfl, hrest⟩

theorem not_digit_of_endsMember {unit : Nat} {rest : List Nat} (h : EndsMember (unit :: rest)) :
    ¬(48 ≤ unit ∧ unit ≤ 57) := by
  obtain hcomma | hbrace := h
  · obtain rfl := Option.some.inj hcomma
    decide
  · obtain rfl := Option.some.inj hbrace
    decide

theorem digits_delimited {digits digits' : List Nat}
    (h : ∀ unit ∈ digits, 48 ≤ unit ∧ unit ≤ 57)
    (h' : ∀ unit ∈ digits', 48 ≤ unit ∧ unit ≤ 57) : Delimited digits digits' := by
  intro rest rest' hrest hrest' heq
  induction digits generalizing digits' with
  | nil =>
      cases digits' with
      | nil => exact ⟨rfl, heq⟩
      | cons unit units =>
          rw [List.nil_append] at heq
          rw [heq] at hrest
          exact absurd (h' unit List.mem_cons_self) (not_digit_of_endsMember hrest)
  | cons unit units ih =>
      cases digits' with
      | nil =>
          rw [List.nil_append] at heq
          rw [← heq] at hrest'
          exact absurd (h unit List.mem_cons_self) (not_digit_of_endsMember hrest')
      | cons unit' units' =>
          obtain ⟨rfl, htail⟩ := List.cons.inj heq
          obtain ⟨rfl, hsame⟩ := ih (List.forall_mem_cons.mp h).2
            (List.forall_mem_cons.mp h').2 htail
          exact ⟨rfl, hsame⟩

/-- The members in their order and the brace behind them. -/
def membersText (members : List (List Nat × List Nat)) : List Nat :=
  [44].intercalate (members.map memberText) ++ [125]

theorem membersText_singleton (member : List Nat × List Nat) :
    membersText [member] = memberText member ++ [125] := by
  rw [membersText, List.map_singleton, List.intercalate_singleton]

theorem membersText_cons_cons (member next : List Nat × List Nat)
    (members : List (List Nat × List Nat)) :
    membersText (member :: next :: members) =
      memberText member ++ 44 :: membersText (next :: members) := by
  rw [membersText, List.map_cons, intercalate_cons (by simp), membersText, List.append_assoc]
  rfl

theorem memberText_cancel {key text text' rest rest' : List Nat} (hdelimited : Delimited text text')
    (hrest : EndsMember rest) (hrest' : EndsMember rest')
    (h : memberText (key, text) ++ rest = memberText (key, text') ++ rest') :
    text = text' ∧ rest = rest' := by
  rw [memberText, memberText, List.append_assoc, List.append_assoc] at h
  exact hdelimited rest rest' hrest hrest' (List.cons.inj (List.append_cancel_left h)).2

/-- The values of a record with given keys can be read off its text. -/
theorem eq_of_membersText_eq {members members' : List (List Nat × List Nat)}
    (h : List.Forall₂ (fun member member' =>
      member.1 = member'.1 ∧ Delimited member.2 member'.2) members members')
    (heq : membersText members = membersText members') : members = members' := by
  induction h with
  | nil => rfl
  | @cons member member' rest rest' hmember hrest ih =>
      obtain ⟨key, text⟩ := member
      obtain ⟨key', text'⟩ := member'
      obtain ⟨rfl, hdelimited⟩ := hmember
      cases hrest with
      | nil =>
          rw [membersText_singleton, membersText_singleton] at heq
          obtain ⟨rfl, -⟩ := memberText_cancel hdelimited (.inr rfl) (.inr rfl) heq
          rfl
      | cons hnext hmore =>
          rw [membersText_cons_cons, membersText_cons_cons] at heq
          obtain ⟨rfl, htail⟩ := memberText_cancel hdelimited (.inl rfl) (.inl rfl) heq
          rw [ih (List.cons.inj htail).2]

end GoatCitadel.Contracts
