import Mathlib.Data.List.Perm.Basic
import Mathlib.Data.List.Sort
import GoatCitadel.Policy.Request

/-!
# The text of a JSON value

`JSON.stringify` as the source uses it, without a replacer and without
indentation.  A number carries the text that it prints as, so a value prints
unambiguously as long as these texts are numerals; the main result is that the
text then determines the value, members in their order included.
-/

namespace GoatCitadel.Policy

open GoatCitadel.Support (hexDigit)

namespace JsonValue

/-! ## Induction -/

variable {front back : List Char}

/-- Induction over the items of arrays and the members of objects. -/
theorem byMembers {P : JsonValue → Prop} (null : P .null) (bool : ∀ value, P (.bool value))
    (number : ∀ text, P (.number text)) (string : ∀ value, P (.string value))
    (array : ∀ items, (∀ item ∈ items, P item) → P (.array items))
    (object : ∀ fields, (∀ field ∈ fields, P field.2) → P (.object fields))
    (value : JsonValue) : P value := by
  refine @JsonValue.rec P (fun items => ∀ item ∈ items, P item)
    (fun fields => ∀ field ∈ fields, P field.2) (fun field => P field.2)
    null bool number string array object ?_ ?_ ?_ ?_ ?_ value
  · intro item hitem
    cases hitem
  · intro item items hitem hitems other hother
    rcases List.mem_cons.mp hother with rfl | hmem
    · exact hitem
    · exact hitems other hmem
  · intro field hfield
    cases hfield
  · intro field fields hfield hfields other hother
    rcases List.mem_cons.mp hother with rfl | hmem
    · exact hfield
    · exact hfields other hmem
  · intro key value hvalue
    exact hvalue

/-- A property of a value and of all that it is made of. -/
inductive Everywhere (p : JsonValue → Prop) : JsonValue → Prop
  | null : p .null → Everywhere p .null
  | bool {value : Bool} : p (.bool value) → Everywhere p (.bool value)
  | number {text : String} : p (.number text) → Everywhere p (.number text)
  | string {value : String} : p (.string value) → Everywhere p (.string value)
  | array {items : List JsonValue} : p (.array items) →
      (∀ item ∈ items, Everywhere p item) → Everywhere p (.array items)
  | object {fields : List (String × JsonValue)} : p (.object fields) →
      (∀ field ∈ fields, Everywhere p field.2) → Everywhere p (.object fields)

namespace Everywhere

variable {p : JsonValue → Prop}

theorem here {value : JsonValue} (h : Everywhere p value) : p value := by
  cases h <;> assumption

theorem of_array {items : List JsonValue} (h : Everywhere p (.array items)) :
    ∀ item ∈ items, Everywhere p item := by
  cases h with
  | array _ hitems => exact hitems

theorem of_object {fields : List (String × JsonValue)}
    (h : Everywhere p (.object fields)) : ∀ field ∈ fields, Everywhere p field.2 := by
  cases h with
  | object _ hfields => exact hfields

end Everywhere

/-! ## Printing -/

/-- A character inside a quoted text. -/
def escapeChar (c : Char) : List Char :=
  if c = '"' then ['\\', '"']
  else if c = '\\' then ['\\', '\\']
  else if c.toNat = 8 then ['\\', 'b']
  else if c.toNat = 9 then ['\\', 't']
  else if c.toNat = 10 then ['\\', 'n']
  else if c.toNat = 12 then ['\\', 'f']
  else if c.toNat = 13 then ['\\', 'r']
  else if c.toNat < 32 then
    ['\\', 'u', '0', '0', hexDigit (c.toNat / 16), hexDigit (c.toNat % 16)]
  else [c]

/-- The rest of a quoted text, with its closing quote. -/
def quotedTail (text : List Char) : List Char :=
  text.flatMap escapeChar ++ ['"']

mutual

/-- `JSON.stringify`, as characters. -/
def chars : JsonValue → List Char
  | .null => ['n', 'u', 'l', 'l']
  | .bool true => ['t', 'r', 'u', 'e']
  | .bool false => ['f', 'a', 'l', 's', 'e']
  | .number text => text.toList
  | .string value => '"' :: quotedTail value.toList
  | .array items => '[' :: itemChars true items
  | .object fields => '\x7b' :: fieldChars true fields

/-- The items of an array that are left, with its closing bracket. -/
def itemChars (first : Bool) : List JsonValue → List Char
  | [] => [']']
  | item :: items => (if first then [] else [',']) ++ (chars item ++ itemChars false items)

/-- The members of an object that are left, with its closing brace. -/
def fieldChars (first : Bool) : List (String × JsonValue) → List Char
  | [] => ['\x7d']
  | (key, value) :: fields =>
      (if first then [] else [',']) ++
        ('"' :: (quotedTail key.toList ++ (':' :: (chars value ++ fieldChars false fields))))

end

/-- `JSON.stringify` -/
def stringify (value : JsonValue) : String :=
  String.ofList (chars value)

/-! ## Quoted texts -/

/-- The characters that do not stand for themselves. -/
def isEscaped (c : Char) : Bool :=
  c == '"' || c == '\\' || decide (c.toNat < 32)

/-- Their code points. -/
def escapedCodes : List Nat := List.range 32 ++ [34, 92]

theorem toNat_mem_escapedCodes {c : Char} (h : isEscaped c = true) :
    c.toNat ∈ escapedCodes := by
  simp only [isEscaped, Bool.or_eq_true, beq_iff_eq, decide_eq_true_eq] at h
  rcases h with (rfl | rfl) | hlow
  · decide
  · decide
  · exact List.mem_append_left _ (List.mem_range.mpr hlow)

theorem escapeChar_of_not_isEscaped {c : Char} (h : isEscaped c = false) :
    escapeChar c = [c] := by
  simp only [isEscaped, Bool.or_eq_false_iff, beq_eq_false_iff_ne,
    decide_eq_false_iff_not] at h
  obtain ⟨⟨hquote, hslash⟩, hhigh⟩ := h
  unfold escapeChar
  rw [if_neg hquote, if_neg hslash, if_neg (by omega), if_neg (by omega),
    if_neg (by omega), if_neg (by omega), if_neg (by omega), if_neg hhigh]

/-- Escaped characters begin with a backslash. -/
theorem escapeChar_head_of_mem : ∀ n ∈ escapedCodes,
    (escapeChar (Char.ofNat n)).head? = some '\\' := by
  decide +kernel

theorem eq_of_prefix_of_mem : ∀ n ∈ escapedCodes, ∀ m ∈ escapedCodes,
    (escapeChar (Char.ofNat n)).isPrefixOf (escapeChar (Char.ofNat m)) = true → n = m := by
  decide +kernel

theorem escapeChar_head (c : Char) :
    ∃ head rest, escapeChar c = head :: rest ∧ head ≠ '"' ∧
      (head = '\\' ↔ isEscaped c = true) := by
  by_cases hc : isEscaped c = true
  · have hhead := escapeChar_head_of_mem c.toNat (toNat_mem_escapedCodes hc)
    rw [Char.ofNat_toNat] at hhead
    obtain ⟨rest, hrest⟩ := List.head?_eq_some_iff.mp hhead
    exact ⟨'\\', rest, hrest, by decide, iff_of_true rfl hc⟩
  · rw [Bool.not_eq_true] at hc
    refine ⟨c, [], escapeChar_of_not_isEscaped hc, ?_, iff_of_false ?_ (by simp [hc])⟩
    · rintro rfl
      exact absurd hc (by decide)
    · rintro rfl
      exact absurd hc (by decide)

/-- No escaped character is the beginning of another one. -/
theorem eq_of_escapeChar_start {c d : Char} (h : escapeChar c <+: escapeChar d) :
    c = d := by
  obtain ⟨head, rest, hc, -, hiff⟩ := escapeChar_head c
  obtain ⟨head', rest', hd, -, hiff'⟩ := escapeChar_head d
  have hsame : head = head' := by
    rw [hc, hd] at h
    exact (List.cons_prefix_cons.mp h).1
  have hboth : isEscaped c = true ↔ isEscaped d = true := by
    rw [← hiff, ← hiff', hsame]
  by_cases hescaped : isEscaped c = true
  · have hn := eq_of_prefix_of_mem c.toNat (toNat_mem_escapedCodes hescaped) d.toNat
      (toNat_mem_escapedCodes (hboth.mp hescaped)) (by
        rw [Char.ofNat_toNat, Char.ofNat_toNat]
        exact List.isPrefixOf_iff_prefix.mpr h)
    rw [← Char.ofNat_toNat c, ← Char.ofNat_toNat d, hn]
  · have hplain : isEscaped d = false := by
      rw [← Bool.not_eq_true, ← hboth]
      exact hescaped
    rw [escapeChar_of_not_isEscaped (by simpa using hescaped),
      escapeChar_of_not_isEscaped hplain] at h
    exact (List.cons_prefix_cons.mp h).1

theorem escapeChar_cancel {c d : Char} (h : escapeChar c ++ front = escapeChar d ++ back) :
    c = d ∧ front = back := by
  have hfront : escapeChar c <+: escapeChar d ∨ escapeChar d <+: escapeChar c :=
    List.prefix_or_prefix_of_prefix (List.prefix_append _ front)
      (h ▸ List.prefix_append _ back)
  have hsame : c = d := by
    rcases hfront with hcd | hdc
    · exact eq_of_escapeChar_start hcd
    · exact (eq_of_escapeChar_start hdc).symm
  subst hsame
  exact ⟨rfl, List.append_cancel_left h⟩

theorem quotedTail_cons (c : Char) (text : List Char) :
    quotedTail (c :: text) = escapeChar c ++ quotedTail text := by
  simp [quotedTail, List.append_assoc]

/-- The closing quote shows where a quoted text ends. -/
theorem quotedTail_cancel {text text' : List Char}
    (h : quotedTail text ++ front = quotedTail text' ++ back) : text = text' ∧ front = back := by
  have hclosed : ∀ (c : Char) (rest rest' : List Char),
      '"' :: rest ≠ escapeChar c ++ rest' := by
    intro c rest rest' heq
    obtain ⟨head, tail, hc, hquote, -⟩ := escapeChar_head c
    rw [hc, List.cons_append] at heq
    exact hquote (List.cons.inj heq).1.symm
  induction text generalizing text' with
  | nil =>
      cases text' with
      | nil => exact ⟨rfl, (List.cons.inj h).2⟩
      | cons d text' =>
          rw [quotedTail_cons, List.append_assoc] at h
          exact absurd h (hclosed d front _)
  | cons c text ih =>
      cases text' with
      | nil =>
          rw [quotedTail_cons, List.append_assoc] at h
          exact absurd h.symm (hclosed c back _)
      | cons d text' =>
          rw [quotedTail_cons, quotedTail_cons, List.append_assoc, List.append_assoc] at h
          obtain ⟨rfl, hrest⟩ := escapeChar_cancel h
          obtain ⟨rfl, hfront⟩ := ih hrest
          exact ⟨rfl, hfront⟩

/-! ## Numerals -/

/-- The characters of a printed number. -/
def isNumeralChar (c : Char) : Bool :=
  c.isDigit || c == '-' || c == '+' || c == '.' || c == 'e'

/-- The numbers of a value are printed as numerals. -/
def PrintsNumerals : JsonValue → Prop
  | .number text => text.toList ≠ [] ∧ ∀ c ∈ text.toList, isNumeralChar c = true
  | _ => True

/-- What follows a value does not go on with a numeral. -/
def Closes (rest : List Char) : Prop :=
  ∀ c tail, rest = c :: tail → isNumeralChar c = false

theorem numeral_cancel {text text' : List Char} (htext : ∀ c ∈ text, isNumeralChar c = true)
    (htext' : ∀ c ∈ text', isNumeralChar c = true) (hfront : Closes front) (hback : Closes back)
    (h : text ++ front = text' ++ back) : text = text' ∧ front = back := by
  induction text generalizing text' with
  | nil =>
      cases text' with
      | nil => exact ⟨rfl, h⟩
      | cons d text' =>
          have hd := htext' d List.mem_cons_self
          exact absurd hd (Bool.eq_false_iff.mp (hfront d _ h))
  | cons c text ih =>
      cases text' with
      | nil =>
          have hc := htext c List.mem_cons_self
          exact absurd hc (Bool.eq_false_iff.mp (hback c _ h.symm))
      | cons d text' =>
          obtain ⟨rfl, hrest⟩ := List.cons.inj h
          obtain ⟨rfl, hsame⟩ := ih (fun c hc => htext c (List.mem_cons_of_mem _ hc))
            (fun c hc => htext' c (List.mem_cons_of_mem _ hc)) hrest
          exact ⟨rfl, hsame⟩

/-! ## Values -/

/-- The text of a value and what follows it determine the value. -/
def Cancels (value : JsonValue) : Prop :=
  ∀ other front back, Everywhere PrintsNumerals other → Closes front → Closes back →
    chars value ++ front = chars other ++ back → value = other ∧ front = back

/-- The first character of a value tells what kind of value it is. -/
inductive Kind
  | null
  | true
  | false
  | number
  | string
  | array
  | object
  deriving DecidableEq

/-- The kind of value that begins with a character. -/
def kindOf (c : Char) : Option Kind :=
  if c = 'n' then some .null
  else if c = 't' then some .true
  else if c = 'f' then some .false
  else if c = '"' then some .string
  else if c = '[' then some .array
  else if c = '\x7b' then some .object
  else if isNumeralChar c then some .number
  else none

def kind : JsonValue → Kind
  | .null => .null
  | .bool true => .true
  | .bool false => .false
  | .number _ => .number
  | .string _ => .string
  | .array _ => .array
  | .object _ => .object

theorem kindOf_of_isNumeralChar {c : Char} (h : isNumeralChar c = true) :
    kindOf c = some .number := by
  have hne : ∀ d : Char, isNumeralChar d = false → c ≠ d := by
    rintro d hd rfl
    exact Bool.false_ne_true (hd.symm.trans h)
  unfold kindOf
  rw [if_neg (hne _ (by decide)), if_neg (hne _ (by decide)), if_neg (hne _ (by decide)),
    if_neg (hne _ (by decide)), if_neg (hne _ (by decide)), if_neg (hne _ (by decide)),
    if_pos h]

theorem chars_head {value : JsonValue} (h : PrintsNumerals value) :
    ∃ c rest, chars value = c :: rest ∧ kindOf c = some value.kind := by
  match value with
  | .null => exact ⟨_, _, by rw [chars], by decide⟩
  | .bool true => exact ⟨_, _, by rw [chars], by decide⟩
  | .bool false => exact ⟨_, _, by rw [chars], by decide⟩
  | .string _ => exact ⟨_, _, by rw [chars], rfl⟩
  | .array _ => exact ⟨_, _, by rw [chars], rfl⟩
  | .object _ => exact ⟨_, _, by rw [chars], rfl⟩
  | .number text =>
      obtain ⟨hne, hall⟩ := h
      obtain ⟨c, rest, htext⟩ := List.exists_cons_of_ne_nil hne
      refine ⟨c, rest, by rw [chars, htext], kindOf_of_isNumeralChar ?_⟩
      exact hall c (htext ▸ List.mem_cons_self)

theorem kind_eq_of_chars {value other : JsonValue} (hvalue : PrintsNumerals value)
    (hother : PrintsNumerals other) (h : chars value ++ front = chars other ++ back) :
    value.kind = other.kind := by
  obtain ⟨c, rest, hc, hkind⟩ := chars_head hvalue
  obtain ⟨d, rest', hd, hkind'⟩ := chars_head hother
  rw [hc, hd, List.cons_append, List.cons_append] at h
  rw [(List.cons.inj h).1, hkind'] at hkind
  exact (Option.some.inj hkind).symm

theorem closes_itemChars (items : List JsonValue) (front : List Char) :
    Closes (itemChars false items ++ front) := by
  intro c tail h
  cases items with
  | nil =>
      rw [itemChars] at h
      rw [← (List.cons.inj h).1]
      decide
  | cons item items =>
      rw [itemChars] at h
      rw [← (List.cons.inj h).1]
      decide

theorem closes_fieldChars (fields : List (String × JsonValue)) (front : List Char) :
    Closes (fieldChars false fields ++ front) := by
  intro c tail h
  cases fields with
  | nil =>
      rw [fieldChars] at h
      rw [← (List.cons.inj h).1]
      decide
  | cons field fields =>
      rw [fieldChars] at h
      rw [← (List.cons.inj h).1]
      decide

/-- An item does not begin with the bracket that would close the array. -/
theorem ne_itemChars_cons {first : Bool} {item : JsonValue} {items : List JsonValue}
    (hitem : PrintsNumerals item) : ']' :: front ≠ itemChars first (item :: items) ++ back := by
  intro h
  rw [itemChars] at h
  cases first with
  | false =>
      have hhead := (List.cons.inj h).1
      exact absurd hhead (by decide)
  | true =>
      obtain ⟨c, rest, hc, hkind⟩ := chars_head hitem
      rw [if_pos rfl, List.nil_append, hc] at h
      rw [← (List.cons.inj h).1] at hkind
      exact absurd hkind (by cases item.kind <;> decide)

theorem ne_fieldChars_cons {first : Bool} {field : String × JsonValue}
    {fields : List (String × JsonValue)} :
    '\x7d' :: front ≠ fieldChars first (field :: fields) ++ back := by
  intro h
  rw [fieldChars] at h
  cases first with
  | false => exact absurd (List.cons.inj h).1 (by decide)
  | true => exact absurd (List.cons.inj h).1 (by decide)

theorem itemChars_cancel {items items' : List JsonValue}
    (hitems : ∀ item ∈ items, Everywhere PrintsNumerals item)
    (hitems' : ∀ item ∈ items', Everywhere PrintsNumerals item)
    (hcancels : ∀ item ∈ items, Cancels item) (first : Bool)
    (h : itemChars first items ++ front = itemChars first items' ++ back) :
    items = items' ∧ front = back := by
  induction items generalizing items' first with
  | nil =>
      cases items' with
      | nil =>
          rw [itemChars] at h
          exact ⟨rfl, (List.cons.inj h).2⟩
      | cons item' items' =>
          rw [itemChars] at h
          exact absurd h (ne_itemChars_cons (hitems' item' List.mem_cons_self).here)
  | cons item items ih =>
      cases items' with
      | nil =>
          rw [itemChars] at h
          exact absurd h.symm (ne_itemChars_cons (hitems item List.mem_cons_self).here)
      | cons item' items' =>
          simp only [itemChars, List.append_assoc] at h
          have hrest := List.append_cancel_left h
          obtain ⟨rfl, htail⟩ := hcancels item List.mem_cons_self item' _ _
            (hitems' item' List.mem_cons_self) (closes_itemChars items front)
            (closes_itemChars items' back) hrest
          obtain ⟨rfl, hsame⟩ := ih (fun i hi => hitems i (List.mem_cons_of_mem _ hi))
            (fun i hi => hitems' i (List.mem_cons_of_mem _ hi))
            (fun i hi => hcancels i (List.mem_cons_of_mem _ hi)) false htail
          exact ⟨rfl, hsame⟩

theorem fieldChars_cancel {fields fields' : List (String × JsonValue)}
    (hfields' : ∀ field ∈ fields', Everywhere PrintsNumerals field.2)
    (hcancels : ∀ field ∈ fields, Cancels field.2) (first : Bool)
    (h : fieldChars first fields ++ front = fieldChars first fields' ++ back) :
    fields = fields' ∧ front = back := by
  induction fields generalizing fields' first with
  | nil =>
      cases fields' with
      | nil =>
          rw [fieldChars] at h
          exact ⟨rfl, (List.cons.inj h).2⟩
      | cons field' fields' =>
          rw [fieldChars] at h
          exact absurd h ne_fieldChars_cons
  | cons field fields ih =>
      cases fields' with
      | nil =>
          rw [fieldChars] at h
          exact absurd h.symm ne_fieldChars_cons
      | cons field' fields' =>
          obtain ⟨key, value⟩ := field
          obtain ⟨key', value'⟩ := field'
          simp only [fieldChars, List.append_assoc, List.cons_append] at h
          have hquoted := (List.cons.inj (List.append_cancel_left h)).2
          obtain ⟨hkey, hcolon⟩ := quotedTail_cancel hquoted
          have hrest := (List.cons.inj hcolon).2
          obtain ⟨hvalue, htail⟩ := hcancels (key, value) List.mem_cons_self value' _ _
            (hfields' (key', value') List.mem_cons_self) (closes_fieldChars fields front)
            (closes_fieldChars fields' back) hrest
          obtain ⟨rfl, hsame⟩ := ih (fun f hf => hfields' f (List.mem_cons_of_mem _ hf))
            (fun f hf => hcancels f (List.mem_cons_of_mem _ hf)) false htail
          rw [String.toList_inj.mp hkey, show value = value' from hvalue]
          exact ⟨rfl, hsame⟩

theorem cancels (value : JsonValue) (h : Everywhere PrintsNumerals value) :
    Cancels value := by
  induction value using JsonValue.byMembers with
  | null =>
      intro other front back hother _ _ hchars
      have hkind := kind_eq_of_chars h.here hother.here hchars
      match other, hkind with
      | .null, _ => exact ⟨rfl, List.append_cancel_left hchars⟩
  | bool flag =>
      intro other front back hother _ _ hchars
      have hkind := kind_eq_of_chars h.here hother.here hchars
      match flag, other, hkind with
      | true, .bool true, _ => exact ⟨rfl, List.append_cancel_left hchars⟩
      | false, .bool false, _ => exact ⟨rfl, List.append_cancel_left hchars⟩
  | number text =>
      intro other front back hother hfront hback hchars
      have hkind := kind_eq_of_chars h.here hother.here hchars
      match other, hkind, hother with
      | .number text', _, hother =>
          rw [chars, chars] at hchars
          obtain ⟨htext, hsame⟩ := numeral_cancel h.here.2 hother.here.2 hfront hback hchars
          rw [String.toList_inj.mp htext]
          exact ⟨rfl, hsame⟩
  | string text =>
      intro other front back hother _ _ hchars
      have hkind := kind_eq_of_chars h.here hother.here hchars
      match other, hkind with
      | .string text', _ =>
          rw [chars, chars] at hchars
          obtain ⟨htext, hsame⟩ := quotedTail_cancel (List.cons.inj hchars).2
          rw [String.toList_inj.mp htext]
          exact ⟨rfl, hsame⟩
  | array items ih =>
      intro other front back hother _ _ hchars
      have hkind := kind_eq_of_chars h.here hother.here hchars
      match other, hkind, hother with
      | .array items', _, hother =>
          rw [chars, chars] at hchars
          obtain ⟨rfl, hsame⟩ := itemChars_cancel h.of_array hother.of_array
            (fun item hitem => ih item hitem (h.of_array item hitem)) true
            (List.cons.inj hchars).2
          exact ⟨rfl, hsame⟩
  | object fields ih =>
      intro other front back hother _ _ hchars
      have hkind := kind_eq_of_chars h.here hother.here hchars
      match other, hkind, hother with
      | .object fields', _, hother =>
          rw [chars, chars] at hchars
          obtain ⟨rfl, hsame⟩ := fieldChars_cancel hother.of_object
            (fun field hfield => ih field hfield (h.of_object field hfield)) true
            (List.cons.inj hchars).2
          exact ⟨rfl, hsame⟩

/-- Values with numerals for their numbers print differently. -/
theorem eq_of_stringify {value other : JsonValue}
    (hvalue : Everywhere PrintsNumerals value) (hother : Everywhere PrintsNumerals other)
    (h : stringify value = stringify other) : value = other := by
  have hchars : chars value ++ [] = chars other ++ [] := by
    rw [List.append_nil, List.append_nil]
    exact String.ofList_injective h
  have hnil : Closes [] := by
    intro c tail hnil
    cases hnil
  exact (cancels value hvalue other [] [] hother hnil hnil hchars).1

end JsonValue

end GoatCitadel.Policy
