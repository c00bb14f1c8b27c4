import GoatCitadel.Policy.CanonicalJson

/-!
# Reading JSON text

`JSON.parse`, on texts without lone surrogates, which a character of Lean cannot be.
A value that was printed is read back with the members of its objects in the order in
which an object lists them.
-/

namespace GoatCitadel.Policy

open GoatCitadel.Support
open JsonValue (Closes Everywhere PrintsNumerals escapeChar escapedCodes isEscaped
  isNumeralChar quotedTail)

/-- The text that the number of a numeral prints as; texts that are no numerals have
none.  A natural number prints as its digits. -/
structure NumberFormat where
  read : String → Option String
  read_nat : ∀ n : Nat, n ≤ 9007199254740991 → read (toString n) = some (toString n)

/-! ## Texts -/

/-- The digit that a character is, to the base sixteen. -/
def hexValue (c : Char) : Option Nat :=
  if c.isDigit then some (c.toNat - 48)
  else if 'a' ≤ c ∧ c ≤ 'f' then some (c.toNat - 87)
  else if 'A' ≤ c ∧ c ≤ 'F' then some (c.toNat - 55)
  else none

/-- Four digits to the base sixteen. -/
def readUnit : List Char → Option (Nat × List Char)
  | a :: b :: c :: d :: rest => do
      let a ← hexValue a
      let b ← hexValue b
      let c ← hexValue c
      let d ← hexValue d
      return (((a * 16 + b) * 16 + c) * 16 + d, rest)
  | _ => none

/-- The second half of a pair of surrogates. -/
def readLowSurrogate (high : Nat) : List Char → Option (Char × List Char)
  | backslash :: u :: rest =>
      if backslash = '\\' ∧ u = 'u' then do
        let (low, rest) ← readUnit rest
        if 0xDC00 ≤ low ∧ low < 0xE000 then
          return (Char.ofNat (0x10000 + (high - 0xD800) * 0x400 + (low - 0xDC00)), rest)
        else none
      else none
  | _ => none

/-- What follows a backslash. -/
def readEscape : List Char → Option (Char × List Char)
  | [] => none
  | c :: rest =>
      if c = '"' ∨ c = '\\' ∨ c = '/' then some (c, rest)
      else if c = 'b' then some (Char.ofNat 8, rest)
      else if c = 't' then some (Char.ofNat 9, rest)
      else if c = 'n' then some (Char.ofNat 10, rest)
      else if c = 'f' then some (Char.ofNat 12, rest)
      else if c = 'r' then some (Char.ofNat 13, rest)
      else if c = 'u' then do
        let (unit, rest) ← readUnit rest
        if 0xD800 ≤ unit ∧ unit < 0xDC00 then readLowSurrogate unit rest
        else if 0xDC00 ≤ unit ∧ unit < 0xE000 then none
        else return (Char.ofNat unit, rest)
      else none

/-- A quoted text, after its opening quote. -/
def readText : Nat → List Char → Option (List Char × List Char)
  | 0, _ => none
  | _ + 1, [] => none
  | fuel + 1, c :: rest =>
      if c = '"' then some ([], rest)
      else if c = '\\' then do
        let (d, rest) ← readEscape rest
        let (text, rest) ← readText fuel rest
        return (d :: text, rest)
      else if c.toNat < 32 then none
      else do
        let (text, rest) ← readText fuel rest
        return (c :: text, rest)

/-! ## Values -/

def isWhitespace (c : Char) : Bool :=
  c == ' ' || c == '\t' || c == '\n' || c == '\r'

def skipWhitespace (chars : List Char) : List Char :=
  chars.dropWhile isWhitespace

/-- What follows a literal. -/
def readLiteral (literal : List Char) (value : JsonValue) (chars : List Char) :
    Option (JsonValue × List Char) :=
  if literal.isPrefixOf chars = true then some (value, chars.drop literal.length) else none

/-- The characters of a numeral that is read. -/
def isReadNumeralChar (c : Char) : Bool :=
  isNumeralChar c || c == 'E'

def readNumber (format : NumberFormat) (chars : List Char) : Option (JsonValue × List Char) :=
  (format.read (String.ofList (chars.takeWhile isReadNumeralChar))).map fun text =>
    (.number text, chars.dropWhile isReadNumeralChar)

/-- The definition of a member; a key that is there already keeps its place. -/
def defineMember (fields : JsonObject) (field : String × JsonValue) : JsonObject :=
  if fields.any (fun other => other.1 = field.1) = true then
    fields.map fun other => if other.1 = field.1 then field else other
  else fields ++ [field]

/-- A character that has to come next, after white space. -/
def expect (c : Char) (chars : List Char) : Option (List Char) :=
  match skipWhitespace chars with
  | d :: rest => if d = c then some rest else none
  | [] => none

mutual

/-- A value, with what follows it. -/
def readValue (format : NumberFormat) : Nat → List Char → Option (JsonValue × List Char)
  | 0, _ => none
  | fuel + 1, chars =>
      match skipWhitespace chars with
      | [] => none
      | c :: rest =>
          if c = '"' then do
            let (text, rest) ← readText fuel rest
            return (.string (String.ofList text), rest)
          else if c = '[' then do
            let (items, rest) ← readItems format fuel true rest
            return (.array items, rest)
          else if c = '\x7b' then do
            let (fields, rest) ← readFields format fuel true rest
            return (.object (ownOrder (fields.foldl defineMember [])), rest)
          else if c = 'n' then readLiteral ['n', 'u', 'l', 'l'] .null (c :: rest)
          else if c = 't' then readLiteral ['t', 'r', 'u', 'e'] (.bool true) (c :: rest)
          else if c = 'f' then readLiteral ['f', 'a', 'l', 's', 'e'] (.bool false) (c :: rest)
          else readNumber format (c :: rest)

/-- The items of an array that are left. -/
def readItems (format : NumberFormat) :
    Nat → Bool → List Char → Option (List JsonValue × List Char)
  | 0, _, _ => none
  | fuel + 1, first, chars =>
      match expect ']' chars with
      | some rest => some ([], rest)
      | none => do
          let chars ← if first then some chars else expect ',' chars
          let (item, rest) ← readValue format fuel chars
          let (items, rest) ← readItems format fuel false rest
          return (item :: items, rest)

/-- The members of an object that are left, as they are written. -/
def readFields (format : NumberFormat) :
    Nat → Bool → List Char → Option (List (String × JsonValue) × List Char)
  | 0, _, _ => none
  | fuel + 1, first, chars =>
      match expect '\x7d' chars with
      | some rest => some ([], rest)
      | none => do
          let chars ← if first then some chars else expect ',' chars
          let chars ← expect '"' chars
          let (key, rest) ← readText fuel chars
          let rest ← expect ':' rest
          let (value, rest) ← readValue format fuel rest
          let (fields, rest) ← readFields format fuel false rest
          return ((String.ofList key, value) :: fields, rest)

end

/-- `JSON.parse` -/
def jsonParse (format : NumberFormat) (text : String) : Option JsonValue :=
  match readValue format (2 * text.toList.length) text.toList with
  | some (value, rest) => if skipWhitespace rest = [] then some value else none
  | none => none

/-! ## What is printed is read -/

section Texts

/-- What is read does not depend on what follows it. -/
theorem readUnit_append {chars rest more : List Char} {unit : Nat}
    (h : readUnit chars = some (unit, rest)) :
    readUnit (chars ++ more) = some (unit, rest ++ more) := by
  match chars, h with
  | a :: b :: c :: d :: tail, h =>
      simp only [readUnit, Option.bind_eq_bind, Option.bind_eq_some_iff, Option.pure_def,
        Option.some.injEq, Prod.mk.injEq] at h
      obtain ⟨a', ha, b', hb, c', hc, d', hd, rfl, rfl⟩ := h
      simp only [List.cons_append, readUnit, ha, hb, hc, hd, Option.bind_eq_bind,
        Option.bind_some, Option.pure_def]

theorem readLowSurrogate_append {high : Nat} {chars rest more : List Char} {c : Char}
    (h : readLowSurrogate high chars = some (c, rest)) :
    readLowSurrogate high (chars ++ more) = some (c, rest ++ more) := by
  match chars, h with
  | backslash :: u :: tail, h =>
      simp only [List.cons_append, readLowSurrogate] at h ⊢
      split at h
      · rename_i hescape
        rw [if_pos hescape]
        obtain ⟨⟨low, middle⟩, hlow, h⟩ := Option.bind_eq_some_iff.mp h
        rw [readUnit_append hlow]
        dsimp only [Option.bind_eq_bind, Option.bind_some] at h ⊢
        split at h
        · rename_i hrange
          rw [if_pos hrange]
          obtain ⟨rfl, rfl⟩ := Prod.mk.inj (Option.some.inj h)
          rfl
        · cases h
      · cases h

theorem readEscape_append {chars rest more : List Char} {c : Char}
    (h : readEscape chars = some (c, rest)) :
    readEscape (chars ++ more) = some (c, rest ++ more) := by
  match chars, h with
  | d :: tail, h =>
      simp only [List.cons_append, readEscape] at h ⊢
      split_ifs at h ⊢ with hquote hb ht hn hf hr hu
      all_goals try
        obtain ⟨rfl, rfl⟩ := Prod.mk.inj (Option.some.inj h)
        rfl
      obtain ⟨⟨unit, middle⟩, hunit, h⟩ := Option.bind_eq_some_iff.mp h
      rw [readUnit_append hunit]
      dsimp only [Option.bind_eq_bind, Option.bind_some] at h ⊢
      split_ifs at h ⊢ with hhigh
      · exact readLowSurrogate_append h
      · obtain ⟨rfl, rfl⟩ := Prod.mk.inj (Option.some.inj h)
        rfl

theorem readEscape_of_mem : ∀ n ∈ escapedCodes,
    readEscape (escapeChar (Char.ofNat n)).tail = some (Char.ofNat n, []) := by
  decide +kernel

theorem readEscape_escapeChar {c : Char} (hc : isEscaped c = true) :
    ∃ escape, escapeChar c = '\\' :: escape ∧
      ∀ more, readEscape (escape ++ more) = some (c, more) := by
  obtain ⟨head, escape, hescape, -, hhead⟩ := JsonValue.escapeChar_head c
  obtain rfl := hhead.mpr hc
  refine ⟨escape, hescape, fun more => ?_⟩
  have hread := readEscape_of_mem c.toNat (JsonValue.toNat_mem_escapedCodes hc)
  rw [Char.ofNat_toNat, hescape, List.tail_cons] at hread
  exact readEscape_append hread

/-- A quoted text is read back. -/
theorem readText_quotedTail (text : List Char) {fuel : Nat} (more : List Char)
    (hfuel : (quotedTail text).length ≤ fuel) :
    readText fuel (quotedTail text ++ more) = some (text, more) := by
  induction text generalizing fuel with
  | nil =>
      obtain ⟨fuel, rfl⟩ := Nat.exists_eq_add_of_le hfuel
      rw [Nat.add_comm]
      rfl
  | cons c text ih =>
      rw [JsonValue.quotedTail_cons, List.length_append] at hfuel
      rw [JsonValue.quotedTail_cons, List.append_assoc]
      by_cases hc : isEscaped c = true
      · obtain ⟨escape, hescape, hread⟩ := readEscape_escapeChar hc
        rw [hescape, List.length_cons] at hfuel
        obtain ⟨fuel, rfl⟩ : ∃ n, fuel = n + 1 := ⟨fuel - 1, by omega⟩
        rw [hescape, List.cons_append, readText, if_neg (by decide), if_pos rfl, hread]
        dsimp only [Option.bind_eq_bind, Option.bind_some]
        rw [ih (by omega)]
        rfl
      · rw [Bool.not_eq_true] at hc
        have hplain := JsonValue.escapeChar_of_not_isEscaped hc
        rw [hplain, List.length_singleton] at hfuel
        obtain ⟨fuel, rfl⟩ : ∃ n, fuel = n + 1 := ⟨fuel - 1, by omega⟩
        simp only [isEscaped, Bool.or_eq_false_iff, beq_eq_false_iff_ne,
          decide_eq_false_iff_not] at hc
        obtain ⟨⟨hquote, hslash⟩, hhigh⟩ := hc
        rw [hplain, List.singleton_append, readText, if_neg hquote, if_neg hslash, if_neg hhigh,
          ih (by omega)]
        rfl

end Texts

/-! ### Values -/

/-- The value as it is read back: objects list their members in their own order. -/
def relisted (value : JsonValue) : JsonValue :=
  rearrange ownOrder value

/-- The numbers of the value are printed as numerals that read as themselves. -/
def Reads (format : NumberFormat) : JsonValue → Prop
  | .number text => PrintsNumerals (.number text) ∧ format.read text = some text
  | _ => True

/-- A value that JSON can express: keys are distinct, and numbers print as they read. -/
def Readable (format : NumberFormat) (value : JsonValue) : Prop :=
  value.Everywhere DistinctKeys ∧ value.Everywhere (Reads format)

theorem readable_string {format : NumberFormat} (text : String) :
    Readable format (.string text) :=
  ⟨.string trivial, .string trivial⟩

variable {format : NumberFormat}

theorem readable_array {items : List JsonValue} (h : ∀ item ∈ items, Readable format item) :
    Readable format (.array items) :=
  ⟨.array trivial fun item hitem => (h item hitem).1,
    .array trivial fun item hitem => (h item hitem).2⟩

theorem readable_object {fields : JsonObject} (hkeys : (fields.map Prod.fst).Nodup)
    (h : ∀ field ∈ fields, Readable format field.2) : Readable format (.object fields) :=
  ⟨.object hkeys fun field hfield => (h field hfield).1,
    .object trivial fun field hfield => (h field hfield).2⟩

theorem printsNumerals_of_reads {value : JsonValue} (h : Reads format value) :
    PrintsNumerals value := by
  cases value with
  | number text => exact h.1
  | _ => trivial

theorem everywhere_imp {p q : JsonValue → Prop} (hpq : ∀ {value : JsonValue}, p value → q value)
    (value : JsonValue) (h : value.Everywhere p) : value.Everywhere q := by
  induction value using JsonValue.byMembers with
  | null => exact .null (hpq h.here)
  | bool value => exact .bool (hpq h.here)
  | number text => exact .number (hpq h.here)
  | string value => exact .string (hpq h.here)
  | array items ih =>
      exact .array (hpq h.here) fun item hitem => ih item hitem (h.of_array item hitem)
  | object fields ih =>
      exact .object (hpq h.here) fun field hfield => ih field hfield (h.of_object field hfield)

theorem Readable.valid {value : JsonValue} (h : Readable format value) : value.Valid :=
  ⟨h.1, everywhere_imp printsNumerals_of_reads value h.2⟩

theorem readable_rearrange {order : JsonObject → JsonObject}
    (horder : ∀ fields, (order fields).Perm fields) {value : JsonValue}
    (h : Readable format value) :
    Readable format (rearrange order value) :=
  ⟨distinctKeys_rearrange horder h.1,
    everywhere_rearrange (fun fields => (horder fields).subset) (fun _ => trivial)
      (fun _ => trivial) value h.2⟩

section Values

variable {format : NumberFormat} {value : JsonValue}

theorem skipWhitespace_cons {c : Char} {rest : List Char} (h : isWhitespace c = false) :
    skipWhitespace (c :: rest) = c :: rest := by
  unfold skipWhitespace
  rw [List.dropWhile_cons, h]
  rfl

theorem expect_self {c : Char} {rest : List Char} (h : isWhitespace c = false) :
    expect c (c :: rest) = some rest := by
  unfold expect
  rw [skipWhitespace_cons h]
  exact if_pos rfl

theorem expect_ne {c d : Char} {rest : List Char} (h : isWhitespace d = false) (hne : d ≠ c) :
    expect c (d :: rest) = none := by
  unfold expect
  rw [skipWhitespace_cons h]
  exact if_neg hne

/-- The first character of a value. -/
theorem head_of_chars (h : PrintsNumerals value) :
    ∃ c rest, JsonValue.chars value = c :: rest ∧ isWhitespace c = false ∧ c ≠ ']' := by
  obtain ⟨c, rest, hchars, hkind⟩ := JsonValue.chars_head h
  have hnone : [' ', '\t', '\n', '\r', ']'].all (fun d => (JsonValue.kindOf d).isNone) = true := rfl
  have hne : c ∉ [' ', '\t', '\n', '\r', ']'] := by
    intro hc
    have hkindless := List.all_eq_true.mp hnone c hc
    rw [hkind] at hkindless
    cases hkindless
  simp only [List.mem_cons, List.not_mem_nil, or_false, not_or] at hne
  obtain ⟨hspace, htab, hline, hreturn, hbracket⟩ := hne
  refine ⟨c, rest, hchars, ?_, hbracket⟩
  simp [isWhitespace, hspace, htab, hline, hreturn]

theorem isReadNumeralChar_of_isNumeralChar {c : Char} (h : isNumeralChar c = true) :
    isReadNumeralChar c = true := by
  rw [isReadNumeralChar, h]
  rfl

/-- What follows a value in a text: nothing, or a character that no numeral has. -/
def Ends (rest : List Char) : Prop :=
  ∀ c tail, rest = c :: tail → isReadNumeralChar c = false

theorem takeWhile_numeral {text more : List Char}
    (htext : ∀ c ∈ text, isNumeralChar c = true) (hmore : Ends more) :
    (text ++ more).takeWhile isReadNumeralChar = text ∧
      (text ++ more).dropWhile isReadNumeralChar = more := by
  induction text with
  | nil =>
      cases more with
      | nil => exact ⟨rfl, rfl⟩
      | cons c tail =>
          have hc := hmore c tail rfl
          rw [List.nil_append, List.takeWhile_cons, List.dropWhile_cons, hc]
          exact ⟨rfl, rfl⟩
  | cons c text ih =>
      have hc := isReadNumeralChar_of_isNumeralChar (htext c List.mem_cons_self)
      obtain ⟨htake, hdrop⟩ := ih fun d hd => htext d (List.mem_cons_of_mem _ hd)
      rw [List.cons_append, List.takeWhile_cons, List.dropWhile_cons, hc]
      exact ⟨congrArg (List.cons c) htake, hdrop⟩

theorem ends_itemChars (items : List JsonValue) (more : List Char) :
    Ends (JsonValue.itemChars false items ++ more) := by
  intro c tail h
  cases items with
  | nil =>
      rw [JsonValue.itemChars] at h
      rw [← (List.cons.inj h).1]
      decide
  | cons item items =>
      rw [JsonValue.itemChars] at h
      rw [← (List.cons.inj h).1]
      decide

theorem ends_fieldChars (fields : List (String × JsonValue)) (more : List Char) :
    Ends (JsonValue.fieldChars false fields ++ more) := by
  intro c tail h
  cases fields with
  | nil =>
      rw [JsonValue.fieldChars] at h
      rw [← (List.cons.inj h).1]
      decide
  | cons field fields =>
      rw [JsonValue.fieldChars] at h
      rw [← (List.cons.inj h).1]
      decide

/-- The text of the value is read as the value, whatever ends it. -/
def ReadsBack (format : NumberFormat) (value : JsonValue) : Prop :=
  ∀ fuel more, Ends more → 2 * (JsonValue.chars value).length ≤ fuel →
    readValue format fuel (JsonValue.chars value ++ more) = some (relisted value, more)

theorem readItems_itemChars {items : List JsonValue}
    (hitems : ∀ item ∈ items, PrintsNumerals item ∧ ReadsBack format item) (first : Bool)
    {fuel : Nat} (more : List Char)
    (hfuel : 2 * (JsonValue.itemChars first items).length ≤ fuel) :
    readItems format fuel first (JsonValue.itemChars first items ++ more) =
      some (items.map relisted, more) := by
  induction items generalizing first fuel with
  | nil =>
      rw [JsonValue.itemChars, List.length_singleton] at hfuel
      obtain ⟨fuel, rfl⟩ : ∃ n, fuel = n + 1 := ⟨fuel - 1, by omega⟩
      rw [JsonValue.itemChars, List.singleton_append, readItems, expect_self (by decide)]
      rfl
  | cons item items ih =>
      obtain ⟨hprints, hreads⟩ := hitems item List.mem_cons_self
      obtain ⟨c, rest, hchars, hspace, hbracket⟩ := head_of_chars hprints
      have hlength : 0 < (JsonValue.chars item).length := by rw [hchars]; simp
      have hrest : ∀ other ∈ items, PrintsNumerals other ∧ ReadsBack format other :=
        fun other hother => hitems other (List.mem_cons_of_mem _ hother)
      rw [JsonValue.itemChars, List.length_append, List.length_append] at hfuel
      obtain ⟨fuel, rfl⟩ : ∃ n, fuel = n + 1 := ⟨fuel - 1, by omega⟩
      have hitem : readValue format fuel
          (JsonValue.chars item ++ (JsonValue.itemChars false items ++ more)) =
            some (relisted item, JsonValue.itemChars false items ++ more) :=
        hreads fuel _ (ends_itemChars items more) (by
          have : 0 < (JsonValue.itemChars false items).length := by
            cases items <;> simp [JsonValue.itemChars]
          omega)
      have htail : readItems format fuel false (JsonValue.itemChars false items ++ more) =
          some (items.map relisted, more) := ih hrest false (by omega)
      cases first with
      | true =>
          rw [JsonValue.itemChars, if_pos rfl, List.nil_append, List.append_assoc, readItems]
          have hexpect : expect ']' (JsonValue.chars item ++
              (JsonValue.itemChars false items ++ more)) = none := by
            rw [hchars, List.cons_append]
            exact expect_ne hspace hbracket
          rw [hexpect]
          dsimp only [if_true, Option.bind_eq_bind, Option.bind_some]
          rw [hitem, Option.bind_some, htail]
          rfl
      | false =>
          rw [JsonValue.itemChars, if_neg Bool.false_ne_true, List.append_assoc,
            List.singleton_append, List.append_assoc, readItems,
            expect_ne (by decide) (by decide)]
          dsimp only [Option.bind_eq_bind]
          rw [if_neg Bool.false_ne_true, expect_self (by decide), Option.bind_some, hitem,
            Option.bind_some, htail]
          rfl

theorem readFields_fieldChars {fields : List (String × JsonValue)}
    (hfields : ∀ field ∈ fields, ReadsBack format field.2) (first : Bool)
    {fuel : Nat} (more : List Char)
    (hfuel : 2 * (JsonValue.fieldChars first fields).length ≤ fuel) :
    readFields format fuel first (JsonValue.fieldChars first fields ++ more) =
      some (fields.map (fun field => (field.1, relisted field.2)), more) := by
  induction fields generalizing first fuel with
  | nil =>
      rw [JsonValue.fieldChars, List.length_singleton] at hfuel
      obtain ⟨fuel, rfl⟩ : ∃ n, fuel = n + 1 := ⟨fuel - 1, by omega⟩
      rw [JsonValue.fieldChars, List.singleton_append, readFields, expect_self (by decide)]
      rfl
  | cons field fields ih =>
      obtain ⟨key, value⟩ := field
      have hreads : ReadsBack format value := hfields (key, value) List.mem_cons_self
      have hrest : ∀ other ∈ fields, ReadsBack format other.2 :=
        fun other hother => hfields other (List.mem_cons_of_mem _ hother)
      rw [JsonValue.fieldChars, List.length_append, List.length_cons, List.length_append,
        List.length_cons, List.length_append] at hfuel
      obtain ⟨fuel, rfl⟩ : ∃ n, fuel = n + 1 := ⟨fuel - 1, by omega⟩
      have hkey := @readText_quotedTail key.toList fuel
        (':' :: (JsonValue.chars value ++ (JsonValue.fieldChars false fields ++ more))) (by omega)
      have hvalue : readValue format fuel
          (JsonValue.chars value ++ (JsonValue.fieldChars false fields ++ more)) =
            some (relisted value, JsonValue.fieldChars false fields ++ more) :=
        hreads fuel _ (ends_fieldChars fields more) (by omega)
      have htail : readFields format fuel false (JsonValue.fieldChars false fields ++ more) =
          some (fields.map (fun field => (field.1, relisted field.2)), more) :=
        ih hrest false (by omega)
      have hquoted : ∀ rest : List Char, expect '"' ('"' :: rest) = some rest :=
        fun rest => expect_self (by decide)
      have hcolon : ∀ rest : List Char, expect ':' (':' :: rest) = some rest :=
        fun rest => expect_self (by decide)
      cases first with
      | true =>
          rw [JsonValue.fieldChars, if_pos rfl, List.nil_append, List.cons_append,
            List.append_assoc, List.cons_append, List.append_assoc, readFields,
            expect_ne (by decide) (by decide)]
          dsimp only [if_true, Option.bind_eq_bind, Option.bind_some]
          rw [hquoted, Option.bind_some, hkey, Option.bind_some]
          dsimp only
          rw [hcolon, Option.bind_some, hvalue, Option.bind_some]
          dsimp only
          rw [htail, Option.bind_some, String.ofList_toList]
          rfl
      | false =>
          rw [JsonValue.fieldChars, if_neg Bool.false_ne_true, List.append_assoc,
            List.singleton_append, List.cons_append, List.append_assoc, List.cons_append,
            List.append_assoc, readFields, expect_ne (by decide) (by decide)]
          dsimp only [Option.bind_eq_bind]
          rw [if_neg Bool.false_ne_true, expect_self (by decide), Option.bind_some, hquoted,
            Option.bind_some, hkey, Option.bind_some]
          dsimp only
          rw [hcolon, Option.bind_some, hvalue, Option.bind_some]
          dsimp only
          rw [htail, Option.bind_some, String.ofList_toList]
          rfl

/-- Members with distinct keys are defined one after the other. -/
theorem foldl_defineMember {fields : JsonObject} (acc : JsonObject)
    (hkeys : ((acc ++ fields).map Prod.fst).Nodup) :
    fields.foldl defineMember acc = acc ++ fields := by
  induction fields generalizing acc with
  | nil => rw [List.foldl_nil, List.append_nil]
  | cons field fields ih =>
      have hnew : ¬acc.any (fun other => other.1 = field.1) = true := by
        rw [List.any_eq_true]
        rintro ⟨other, hother, hsame⟩
        rw [List.map_append, List.nodup_append] at hkeys
        exact hkeys.2.2 other.1 (List.mem_map_of_mem hother) field.1
          (List.mem_map_of_mem List.mem_cons_self) (of_decide_eq_true hsame)
      have hmove : acc ++ field :: fields = (acc ++ [field]) ++ fields := by
        rw [List.append_assoc, List.singleton_append]
      rw [hmove] at hkeys ⊢
      rw [List.foldl_cons, defineMember, if_neg hnew]
      exact ih _ hkeys

/-- The first character of a numeral begins no other value. -/
theorem not_begins_of_isNumeralChar {c : Char} (h : isNumeralChar c = true) :
    c ≠ '"' ∧ c ≠ '[' ∧ c ≠ '\x7b' ∧ c ≠ 'n' ∧ c ≠ 't' ∧ c ≠ 'f' ∧ isWhitespace c = false := by
  have hnot : ['"', '[', '\x7b', 'n', 't', 'f', ' ', '\t', '\n', '\r'].all
      (fun d => !isNumeralChar d) = true := rfl
  have hne : c ∉ ['"', '[', '\x7b', 'n', 't', 'f', ' ', '\t', '\n', '\r'] := by
    intro hc
    have hother := List.all_eq_true.mp hnot c hc
    rw [h] at hother
    cases hother
  simp only [List.mem_cons, List.not_mem_nil, or_false, not_or] at hne
  obtain ⟨hquote, hbracket, hbrace, hn, ht, hf, hspace, htab, hline, hreturn⟩ := hne
  refine ⟨hquote, hbracket, hbrace, hn, ht, hf, ?_⟩
  simp [isWhitespace, hspace, htab, hline, hreturn]

theorem readsBack_number {text : String} (hprints : PrintsNumerals (.number text))
    (hread : format.read text = some text) : ReadsBack format (.number text) := by
  intro fuel more hends hfuel
  obtain ⟨hne, hall⟩ := hprints
  obtain ⟨htake, hdrop⟩ := takeWhile_numeral hall hends
  obtain ⟨c, rest, htext⟩ := List.exists_cons_of_ne_nil hne
  obtain ⟨hquote, hbracket, hbrace, hn, ht, hf, hspace⟩ :=
    not_begins_of_isNumeralChar (hall c (htext ▸ List.mem_cons_self))
  rw [JsonValue.chars, htext, List.length_cons] at hfuel
  obtain ⟨fuel, rfl⟩ : ∃ n, fuel = n + 1 := ⟨fuel - 1, by omega⟩
  have hnumber : readNumber format (text.toList ++ more) = some (.number text, more) := by
    rw [readNumber, htake, hdrop, String.ofList_toList, hread]
    rfl
  rw [htext, List.cons_append] at hnumber
  rw [JsonValue.chars, htext, List.cons_append, readValue, skipWhitespace_cons hspace]
  dsimp only
  rw [if_neg hquote, if_neg hbracket, if_neg hbrace, if_neg hn, if_neg ht, if_neg hf, hnumber]
  rfl

theorem readsBack_literal {literal : List Char} (hchars : JsonValue.chars value = literal)
    (hlisted : relisted value = value)
    (hread : ∀ fuel more, readValue format (fuel + 1) (literal ++ more) =
      readLiteral literal value (literal ++ more)) (hne : literal ≠ []) :
    ReadsBack format value := by
  intro fuel more _ hfuel
  rw [hchars] at hfuel ⊢
  have hpos := List.length_pos_of_ne_nil hne
  obtain ⟨fuel, rfl⟩ : ∃ n, fuel = n + 1 := ⟨fuel - 1, by omega⟩
  rw [hread, readLiteral, if_pos (List.isPrefixOf_iff_prefix.mpr (List.prefix_append _ _)),
    List.drop_left, hlisted]

/-- Every value that JSON can express is read back from its text. -/
theorem readsBack (h : Readable format value) : ReadsBack format value := by
  induction value using JsonValue.byMembers with
  | null => exact readsBack_literal rfl rfl (fun fuel more => rfl) (by decide)
  | bool value =>
      cases value with
      | true => exact readsBack_literal rfl rfl (fun fuel more => rfl) (by decide)
      | false => exact readsBack_literal rfl rfl (fun fuel more => rfl) (by decide)
  | number text => exact readsBack_number h.2.here.1 h.2.here.2
  | string value =>
      intro fuel more _ hfuel
      rw [JsonValue.chars, List.length_cons] at hfuel
      obtain ⟨fuel, rfl⟩ : ∃ n, fuel = n + 1 := ⟨fuel - 1, by omega⟩
      rw [JsonValue.chars, List.cons_append, readValue, skipWhitespace_cons (by decide)]
      dsimp only
      rw [if_pos rfl, readText_quotedTail value.toList more (by omega)]
      dsimp only [Option.bind_eq_bind, Option.bind_some, Option.pure_def]
      rw [String.ofList_toList]
      rfl
  | array items ih =>
      intro fuel more _ hfuel
      rw [JsonValue.chars, List.length_cons] at hfuel
      obtain ⟨fuel, rfl⟩ : ∃ n, fuel = n + 1 := ⟨fuel - 1, by omega⟩
      have hitems : ∀ item ∈ items, PrintsNumerals item ∧ ReadsBack format item := by
        intro item hitem
        have hreadable : Readable format item := ⟨h.1.of_array item hitem, h.2.of_array item hitem⟩
        exact ⟨printsNumerals_of_reads hreadable.2.here, ih item hitem hreadable⟩
      rw [JsonValue.chars, List.cons_append, readValue, skipWhitespace_cons (by decide)]
      dsimp only
      rw [if_neg (by decide), if_pos rfl, readItems_itemChars hitems true more (by omega)]
      dsimp only [Option.bind_eq_bind, Option.bind_some, Option.pure_def]
      rw [relisted, rearrange_array]
      rfl
  | object fields ih =>
      intro fuel more _ hfuel
      rw [JsonValue.chars, List.length_cons] at hfuel
      obtain ⟨fuel, rfl⟩ : ∃ n, fuel = n + 1 := ⟨fuel - 1, by omega⟩
      have hfields : ∀ field ∈ fields, ReadsBack format field.2 := fun field hfield =>
        ih field hfield ⟨h.1.of_object field hfield, h.2.of_object field hfield⟩
      have hkeys : ((([] : JsonObject) ++ fields.map (fun (field : String × JsonValue) =>
          (field.1, relisted field.2))).map Prod.fst).Nodup := by
        rw [List.nil_append, List.map_map]
        exact h.1.here
      rw [JsonValue.chars, List.cons_append, readValue, skipWhitespace_cons (by decide)]
      dsimp only
      rw [if_neg (by decide), if_neg (by decide), if_pos rfl,
        readFields_fieldChars hfields true more (by omega)]
      dsimp only [Option.bind_eq_bind, Option.bind_some, Option.pure_def]
      rw [foldl_defineMember [] hkeys, List.nil_append, relisted, rearrange_object]
      rfl

/-- What is printed is parsed. -/
theorem jsonParse_stringify (h : Readable format value) :
    jsonParse format value.stringify = some (relisted value) := by
  have hends : Ends [] := by
    intro c tail h
    cases h
  have hread := readsBack h (2 * (JsonValue.chars value).length) [] hends (le_refl _)
  rw [List.append_nil] at hread
  unfold jsonParse JsonValue.stringify
  rw [String.toList_ofList, hread]
  rfl

/-- The value that a canonical text is read as. -/
def restored (value : JsonValue) : JsonValue :=
  relisted (sortMembers value)

theorem readable_restored (h : Readable format value) : Readable format (restored value) := by
  exact readable_rearrange ownOrder_perm (readable_rearrange canonical_sortByKey.perm h)

/-- A canonical text is read as a value with the same canonical text. -/
theorem jsonParse_canonicalJsonString (h : Readable format value) :
    jsonParse format (canonicalJsonString value) = some (restored value) := by
  exact jsonParse_stringify (readable_rearrange canonical_sortByKey.perm h)

theorem sortMembers_restored (h : value.Everywhere DistinctKeys) :
    sortMembers (restored value) = sortMembers value := by
  have hsorted := distinctKeys_rearrange canonical_sortByKey.perm h
  unfold restored relisted sortMembers
  rw [rearrange_rearrange canonical_sortByKey ownOrder_perm _ hsorted,
    rearrange_rearrange canonical_sortByKey canonical_sortByKey.perm _ h]

theorem canonicalJsonString_restored (h : value.Everywhere DistinctKeys) :
    canonicalJsonString (restored value) = canonicalJsonString value := by
  unfold canonicalJsonString
  rw [sortMembers_restored h]

/-- What was restored once is restored as it is. -/
theorem restored_restored (h : value.Everywhere DistinctKeys) :
    restored (restored value) = restored value := by
  rw [restored, sortMembers_restored h, restored]

end Values

end GoatCitadel.Policy
