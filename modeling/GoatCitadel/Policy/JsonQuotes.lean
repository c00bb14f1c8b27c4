import GoatCitadel.Policy.JsonParse

/-!
# Quotes in JSON text

The quotes before a character of a JSON text say whether it is inside a quoted text.  The reader
stops outside of quotes, so what is in front of a cut inside a quoted text is no JSON text.
Behind the cut the reader takes the outside of quotes for the inside and the other way round, so
that the keys it finds are made of brackets, commas, colons, numerals and literals.
-/

namespace GoatCitadel.Policy

open JsonValue (Everywhere PrintsNumerals escapeChar escapedCodes isEscaped
  isNumeralChar quotedTail)

/-! ## Inside and outside -/

inductive QuoteState
  | outside
  | inside
  /-- Behind a backslash. -/
  | escaped
  deriving DecidableEq

namespace QuoteState

def step : QuoteState → Char → QuoteState
  | .outside, c => if c = '"' then .inside else .outside
  | .inside, c => if c = '"' then .outside else if c = '\\' then .escaped else .inside
  | .escaped, _ => .inside

/-- The state behind a text. -/
def after (state : QuoteState) (text : List Char) : QuoteState :=
  text.foldl step state

theorem after_append (state : QuoteState) (front back : List Char) :
    state.after (front ++ back) = (state.after front).after back :=
  List.foldl_append

theorem after_letters {text : List Char} (h : ∀ c ∈ text, c ≠ '"') :
    outside.after text = .outside := by
  induction text with
  | nil => rfl
  | cons c text ih =>
      obtain ⟨hc, htext⟩ := List.forall_mem_cons.mp h
      rw [after, List.foldl_cons, step, if_neg hc]
      exact ih htext

theorem after_content {text : List Char} (h : ∀ c ∈ text, c ≠ '"' ∧ c ≠ '\\') :
    inside.after text = .inside := by
  induction text with
  | nil => rfl
  | cons c text ih =>
      obtain ⟨⟨hquote, hbackslash⟩, htext⟩ := List.forall_mem_cons.mp h
      rw [after, List.foldl_cons, step, if_neg hquote, if_neg hbackslash]
      exact ih htext

end QuoteState

/-- The characters outside of quotes. -/
def isBare (c : Char) : Bool :=
  isNumeralChar c ||
    c ∈ ['[', ']', '\x7b', '\x7d', ',', ':', 'n', 'u', 'l', 't', 'r', 'e', 'f', 'a', 's']

/-- The characters that a backslash stands before. -/
def isEscapeLetter (c : Char) : Bool :=
  c ∈ ['"', '\\', 'b', 't', 'n', 'f', 'r', 'u']

/-- The characters of a printed text: no control character is inside of quotes. -/
def QuoteState.allows : QuoteState → Char → Prop
  | .outside, c => c = '"' ∨ isBare c = true
  | .inside, c => 32 ≤ c.toNat
  | .escaped, c => isEscapeLetter c = true

/-- Every character of the text is one that its state allows. -/
def Fits : QuoteState → List Char → Prop
  | _, [] => True
  | state, c :: text => state.allows c ∧ Fits (state.step c) text

instance : ∀ (state : QuoteState) (c : Char), Decidable (state.allows c)
  | .outside, _ => inferInstanceAs (Decidable (_ ∨ _))
  | .inside, _ => inferInstanceAs (Decidable (_ ≤ _))
  | .escaped, _ => inferInstanceAs (Decidable (_ = _))

def decideFits : ∀ (state : QuoteState) (text : List Char), Decidable (Fits state text)
  | _, [] => .isTrue trivial
  | state, c :: text =>
      @instDecidableAnd _ _ inferInstance (decideFits (state.step c) text)

instance (state : QuoteState) (text : List Char) : Decidable (Fits state text) :=
  decideFits state text

theorem fits_append {state : QuoteState} {front back : List Char} :
    Fits state (front ++ back) ↔ Fits state front ∧ Fits (state.after front) back := by
  induction front generalizing state with
  | nil => exact (and_iff_right trivial).symm
  | cons c front ih =>
      rw [List.cons_append, Fits, ih, Fits, and_assoc]
      rfl

theorem control_not_allowed : ∀ n ∈ List.range 32,
    isBare (Char.ofNat n) = false ∧ isEscapeLetter (Char.ofNat n) = false := by
  decide +kernel

theorem le_toNat_of_allowed {c : Char} (h : isBare c = true ∨ isEscapeLetter c = true) :
    32 ≤ c.toNat := by
  by_contra hlow
  obtain ⟨hbare, hescape⟩ :=
    control_not_allowed c.toNat (List.mem_range.mpr (Nat.lt_of_not_le hlow))
  rw [Char.ofNat_toNat] at hbare hescape
  rcases h with h | h
  · exact Bool.false_ne_true (hbare.symm.trans h)
  · exact Bool.false_ne_true (hescape.symm.trans h)

/-- A printed text has no control characters. -/
theorem le_toNat_of_fits {state : QuoteState} {text : List Char} (h : Fits state text) :
    ∀ c ∈ text, 32 ≤ c.toNat := by
  induction text generalizing state with
  | nil => exact List.forall_mem_nil _
  | cons c text ih =>
      refine List.forall_mem_cons.mpr ⟨?_, ih h.2⟩
      have hallows := h.1
      cases state with
      | outside =>
          rcases hallows with rfl | hbare
          · decide
          · exact le_toNat_of_allowed (.inl hbare)
      | inside => exact hallows
      | escaped => exact le_toNat_of_allowed (.inr hallows)

/-! ## The reader between quotes -/

/-- Properties of what is left of a text, outside and inside of quotes, that reading keeps; what
is read inside of quotes is `good`. -/
structure Walk where
  outside : List Char → Prop
  inside : List Char → Prop
  good : Char → Prop
  letter : ∀ {c rest}, outside (c :: rest) → c ≠ '"' → c ≠ '\\' → outside rest
  openQuote : ∀ {rest}, outside ('"' :: rest) → inside rest
  closeQuote : ∀ {rest}, inside ('"' :: rest) → outside rest
  escape : ∀ {chars c rest}, inside ('\\' :: chars) → readEscape chars = some (c, rest) →
    inside rest ∧ good c
  content : ∀ {c rest}, inside (c :: rest) → c ≠ '"' → c ≠ '\\' → inside rest ∧ good c

namespace Walk

variable {walk : Walk} {format : NumberFormat} {chars rest : List Char}

theorem letters {front : List Char} (hfront : ∀ c ∈ front, c ≠ '"' ∧ c ≠ '\\')
    (h : walk.outside (front ++ rest)) : walk.outside rest := by
  induction front with
  | nil => exact h
  | cons c front ih =>
      obtain ⟨⟨hquote, hbackslash⟩, hrest⟩ := List.forall_mem_cons.mp hfront
      exact ih hrest (walk.letter h hquote hbackslash)

theorem dropWhile_outside {p : Char → Bool} (hp : ∀ c, p c = true → c ≠ '"' ∧ c ≠ '\\')
    (h : walk.outside chars) : walk.outside (chars.dropWhile p) := by
  rw [← List.takeWhile_append_dropWhile (p := p) (l := chars)] at h
  exact walk.letters (fun c hc => hp c (List.mem_takeWhile_imp hc)) h

theorem skipWhitespace_outside (h : walk.outside chars) :
    walk.outside (skipWhitespace chars) := by
  refine walk.dropWhile_outside (fun c hc => ?_) h
  constructor
  · rintro rfl
    exact absurd hc (by decide)
  · rintro rfl
    exact absurd hc (by decide)

theorem expect_outside {c : Char} (h : walk.outside chars)
    (hexpect : expect c chars = some rest) : walk.outside (c :: rest) := by
  have hskip := walk.skipWhitespace_outside h
  rw [expect] at hexpect
  cases hchars : skipWhitespace chars with
  | nil =>
      rw [hchars] at hexpect
      cases hexpect
  | cons d tail =>
      rw [hchars] at hexpect hskip
      dsimp only at hexpect
      split_ifs at hexpect with hsame
      rw [← hsame, ← Option.some.inj hexpect]
      exact hskip

theorem readText_outside {fuel : Nat} {text : List Char} (h : walk.inside chars)
    (hread : readText fuel chars = some (text, rest)) :
    walk.outside rest ∧ ∀ c ∈ text, walk.good c := by
  induction fuel generalizing chars text with
  | zero => cases hread
  | succ fuel ih =>
      cases chars with
      | nil => cases hread
      | cons c chars =>
          rw [readText] at hread
          by_cases hquote : c = '"'
          · rw [if_pos hquote] at hread
            obtain ⟨rfl, rfl⟩ := Prod.mk.inj (Option.some.inj hread)
            rw [hquote] at h
            exact ⟨walk.closeQuote h, List.forall_mem_nil _⟩
          rw [if_neg hquote] at hread
          by_cases hbackslash : c = '\\'
          · rw [if_pos hbackslash] at hread
            obtain ⟨⟨d, tail⟩, hescape, hread⟩ := Option.bind_eq_some_iff.mp hread
            obtain ⟨⟨more, last⟩, htext, hread⟩ := Option.bind_eq_some_iff.mp hread
            obtain ⟨rfl, rfl⟩ := Prod.mk.inj (Option.some.inj hread)
            rw [hbackslash] at h
            obtain ⟨hinside, hgood⟩ := walk.escape h hescape
            obtain ⟨houtside, hmore⟩ := ih hinside htext
            exact ⟨houtside, List.forall_mem_cons.mpr ⟨hgood, hmore⟩⟩
          · rw [if_neg hbackslash] at hread
            split_ifs at hread with hcontrol
            obtain ⟨⟨more, last⟩, htext, hread⟩ := Option.bind_eq_some_iff.mp hread
            obtain ⟨rfl, rfl⟩ := Prod.mk.inj (Option.some.inj hread)
            obtain ⟨hinside, hgood⟩ := walk.content h hquote hbackslash
            obtain ⟨houtside, hmore⟩ := ih hinside htext
            exact ⟨houtside, List.forall_mem_cons.mpr ⟨hgood, hmore⟩⟩

theorem readLiteral_outside {literal : List Char} {value result : JsonValue}
    (hliteral : literal.all (fun c => c != '"' && c != '\\') = true) (h : walk.outside chars)
    (hread : readLiteral literal value chars = some (result, rest)) :
    walk.outside rest ∧ result = value := by
  rw [readLiteral] at hread
  split_ifs at hread with hprefix
  obtain ⟨tail, rfl⟩ := List.isPrefixOf_iff_prefix.mp hprefix
  obtain ⟨rfl, rfl⟩ := Prod.mk.inj (Option.some.inj hread)
  have hletters : ∀ c ∈ literal, c ≠ '"' ∧ c ≠ '\\' := by
    intro c hc
    have hletter := List.all_eq_true.mp hliteral c hc
    rwa [Bool.and_eq_true, bne_iff_ne, bne_iff_ne] at hletter
  rw [List.drop_left]
  exact ⟨walk.letters hletters h, rfl⟩

theorem readNumber_outside {value : JsonValue} (h : walk.outside chars)
    (hread : readNumber format chars = some (value, rest)) :
    walk.outside rest ∧ ∃ text, value = .number text := by
  rw [readNumber] at hread
  obtain ⟨text, -, hread⟩ := Option.map_eq_some_iff.mp hread
  obtain ⟨rfl, rfl⟩ := Prod.mk.inj hread
  refine ⟨walk.dropWhile_outside (fun c hc => ?_) h, text, rfl⟩
  constructor
  · rintro rfl
    exact absurd hc (by decide)
  · rintro rfl
    exact absurd hc (by decide)

/-- The keys that the reader comes to are good. -/
def GoodKeys (walk : Walk) (fields : JsonObject) : Prop :=
  ∀ field ∈ fields, ∀ c ∈ field.1.toList, walk.good c

theorem goodKeys_defineMember {fields acc : JsonObject} (hacc : walk.GoodKeys acc)
    (hfields : walk.GoodKeys fields) : walk.GoodKeys (fields.foldl defineMember acc) := by
  induction fields generalizing acc with
  | nil => exact hacc
  | cons field fields ih =>
      obtain ⟨hfield, hrest⟩ := List.forall_mem_cons.mp hfields
      refine ih ?_ hrest
      rw [defineMember]
      split_ifs
      · intro other hother
        obtain ⟨kept, hkept, rfl⟩ := List.mem_map.mp hother
        split_ifs with hsame
        · exact hfield
        · exact hacc kept hkept
      · intro other hother
        rcases List.mem_append.mp hother with hold | hnew
        · exact hacc other hold
        · rw [List.mem_singleton.mp hnew]
          exact hfield

/-- What the reader does with an amount of fuel: it comes from outside to outside, and the keys
of the members are read inside of quotes. -/
structure Reader (walk : Walk) (format : NumberFormat) (fuel : Nat) : Prop where
  value : ∀ {chars rest value}, walk.outside chars →
    readValue format fuel chars = some (value, rest) →
    walk.outside rest ∧ ∀ fields, value = .object fields → walk.GoodKeys fields
  items : ∀ {first chars rest items}, walk.outside chars →
    readItems format fuel first chars = some (items, rest) → walk.outside rest
  fields : ∀ {first chars rest fields}, walk.outside chars →
    readFields format fuel first chars = some (fields, rest) →
    walk.outside rest ∧ walk.GoodKeys fields

namespace Reader

variable {fuel : Nat} {first : Bool}

theorem value_succ {value : JsonValue} (ih : walk.Reader format fuel) (h : walk.outside chars)
    (hread : readValue format (fuel + 1) chars = some (value, rest)) :
    walk.outside rest ∧ ∀ fields, value = .object fields → walk.GoodKeys fields := by
  have hskip := walk.skipWhitespace_outside h
  rw [readValue] at hread
  cases hchars : skipWhitespace chars with
  | nil =>
      rw [hchars] at hread
      cases hread
  | cons c tail =>
      rw [hchars] at hread hskip
      dsimp only at hread
      by_cases hquote : c = '"'
      · rw [if_pos hquote] at hread
        obtain ⟨⟨text, last⟩, htext, hread⟩ := Option.bind_eq_some_iff.mp hread
        obtain ⟨rfl, rfl⟩ := Prod.mk.inj (Option.some.inj hread)
        rw [hquote] at hskip
        refine ⟨(walk.readText_outside (walk.openQuote hskip) htext).1, ?_⟩
        intro fields hfields
        cases hfields
      rw [if_neg hquote] at hread
      by_cases hbracket : c = '['
      · rw [if_pos hbracket] at hread
        obtain ⟨⟨items, last⟩, hitems, hread⟩ := Option.bind_eq_some_iff.mp hread
        obtain ⟨rfl, rfl⟩ := Prod.mk.inj (Option.some.inj hread)
        rw [hbracket] at hskip
        refine ⟨ih.items (walk.letter hskip (by decide) (by decide)) hitems, ?_⟩
        intro fields hfields
        cases hfields
      rw [if_neg hbracket] at hread
      by_cases hbrace : c = '\x7b'
      · rw [if_pos hbrace] at hread
        obtain ⟨⟨fields, last⟩, hfields, hread⟩ := Option.bind_eq_some_iff.mp hread
        obtain ⟨rfl, rfl⟩ := Prod.mk.inj (Option.some.inj hread)
        rw [hbrace] at hskip
        obtain ⟨houtside, hgood⟩ := ih.fields (walk.letter hskip (by decide) (by decide)) hfields
        refine ⟨houtside, ?_⟩
        rintro _ ⟨⟩ field hfield
        exact goodKeys_defineMember (List.forall_mem_nil _) hgood field
          ((ownOrder_perm _).mem_iff.mp hfield)
      -- Literals and numbers have no quotes and no members.
      rw [if_neg hbrace] at hread
      by_cases hnull : c = 'n'
      · rw [if_pos hnull] at hread
        obtain ⟨houtside, rfl⟩ := walk.readLiteral_outside rfl hskip hread
        exact ⟨houtside, fun fields hfields => JsonValue.noConfusion hfields⟩
      rw [if_neg hnull] at hread
      by_cases htrue : c = 't'
      · rw [if_pos htrue] at hread
        obtain ⟨houtside, rfl⟩ := walk.readLiteral_outside rfl hskip hread
        exact ⟨houtside, fun fields hfields => JsonValue.noConfusion hfields⟩
      rw [if_neg htrue] at hread
      by_cases hfalse : c = 'f'
      · rw [if_pos hfalse] at hread
        obtain ⟨houtside, rfl⟩ := walk.readLiteral_outside rfl hskip hread
        exact ⟨houtside, fun fields hfields => JsonValue.noConfusion hfields⟩
      rw [if_neg hfalse] at hread
      obtain ⟨houtside, text, rfl⟩ := walk.readNumber_outside hskip hread
      exact ⟨houtside, fun fields hfields => JsonValue.noConfusion hfields⟩

/-- The comma in front of all but the first item or member. -/
theorem comma {β : Type} {next : List Char → Option β} {result : β} (h : walk.outside chars)
    (hread : (if first = true then (some chars).bind next else (expect ',' chars).bind next) =
      some result) :
    ∃ start, walk.outside start ∧ next start = some result := by
  split_ifs at hread with hfirst
  · exact ⟨chars, h, hread⟩
  · obtain ⟨start, hcomma, hnext⟩ := Option.bind_eq_some_iff.mp hread
    exact ⟨start, walk.letter (walk.expect_outside h hcomma) (by decide) (by decide), hnext⟩

theorem items_succ {items : List JsonValue} (ih : walk.Reader format fuel)
    (h : walk.outside chars)
    (hread : readItems format (fuel + 1) first chars = some (items, rest)) :
    walk.outside rest := by
  rw [readItems] at hread
  cases hclose : expect ']' chars with
  | some tail =>
      rw [hclose] at hread
      obtain ⟨-, rfl⟩ := Prod.mk.inj (Option.some.inj hread)
      exact walk.letter (walk.expect_outside h hclose) (by decide) (by decide)
  | none =>
      rw [hclose] at hread
      obtain ⟨start, hstart, hread⟩ := comma h hread
      obtain ⟨⟨item, middle⟩, hitem, hread⟩ := Option.bind_eq_some_iff.mp hread
      obtain ⟨⟨more, last⟩, hmore, hread⟩ := Option.bind_eq_some_iff.mp hread
      obtain ⟨-, rfl⟩ := Prod.mk.inj (Option.some.inj hread)
      exact ih.items (ih.value hstart hitem).1 hmore

theorem fields_succ {fields : JsonObject} (ih : walk.Reader format fuel)
    (h : walk.outside chars)
    (hread : readFields format (fuel + 1) first chars = some (fields, rest)) :
    walk.outside rest ∧ walk.GoodKeys fields := by
  rw [readFields] at hread
  cases hclose : expect '\x7d' chars with
  | some tail =>
      rw [hclose] at hread
      obtain ⟨rfl, rfl⟩ := Prod.mk.inj (Option.some.inj hread)
      exact ⟨walk.letter (walk.expect_outside h hclose) (by decide) (by decide),
        List.forall_mem_nil _⟩
  | none =>
      rw [hclose] at hread
      obtain ⟨start, hstart, hread⟩ := comma h hread
      obtain ⟨quoted, hquoted, hread⟩ := Option.bind_eq_some_iff.mp hread
      obtain ⟨⟨key, colon⟩, hkey, hread⟩ := Option.bind_eq_some_iff.mp hread
      obtain ⟨value, hvalue, hread⟩ := Option.bind_eq_some_iff.mp hread
      obtain ⟨⟨member, middle⟩, hmember, hread⟩ := Option.bind_eq_some_iff.mp hread
      obtain ⟨⟨more, last⟩, hmore, hread⟩ := Option.bind_eq_some_iff.mp hread
      obtain ⟨rfl, rfl⟩ := Prod.mk.inj (Option.some.inj hread)
      have hkeyStart := walk.openQuote (walk.expect_outside hstart hquoted)
      obtain ⟨hcolon, hgood⟩ := walk.readText_outside hkeyStart hkey
      have hout := walk.letter (walk.expect_outside hcolon hvalue) (by decide) (by decide)
      obtain ⟨houtside, hrest⟩ := ih.fields (ih.value hout hmember).1 hmore
      refine ⟨houtside, List.forall_mem_cons.mpr ⟨?_, hrest⟩⟩
      intro c hc
      rw [String.toList_ofList] at hc
      exact hgood c hc

end Reader

/-- The reader keeps what a walk says, with any amount of fuel. -/
theorem reader (walk : Walk) (format : NumberFormat) (fuel : Nat) : walk.Reader format fuel := by
  induction fuel with
  | zero =>
      refine ⟨?_, ?_, ?_⟩
      · intro chars rest value _ hread
        rw [readValue] at hread
        cases hread
      · intro first chars rest items _ hread
        rw [readItems] at hread
        cases hread
      · intro first chars rest fields _ hread
        rw [readFields] at hread
        cases hread
  | succ fuel ih => exact ⟨ih.value_succ, ih.items_succ, ih.fields_succ⟩

end Walk

/-! ## Texts that end inside of quotes -/

section Front

variable {chars rest : List Char} {c : Char}

theorem not_quote_of_hexValue {n : Nat} (h : hexValue c = some n) : c ≠ '"' ∧ c ≠ '\\' := by
  have hquote : hexValue '"' = none := by decide
  have hbackslash : hexValue '\\' = none := by decide
  constructor
  · rintro rfl
    exact Option.some_ne_none n (h.symm.trans hquote)
  · rintro rfl
    exact Option.some_ne_none n (h.symm.trans hbackslash)

theorem readUnit_front {unit : Nat} (h : readUnit chars = some (unit, rest)) :
    ∃ front, chars = front ++ rest ∧ ∀ c ∈ front, c ≠ '"' ∧ c ≠ '\\' := by
  match chars, h with
  | a :: b :: c :: d :: tail, h =>
      simp only [readUnit, Option.bind_eq_bind, Option.bind_eq_some_iff, Option.pure_def,
        Option.some.injEq, Prod.mk.injEq] at h
      obtain ⟨_, ha, _, hb, _, hc, _, hd, -, rfl⟩ := h
      refine ⟨[a, b, c, d], rfl, ?_⟩
      simp only [List.forall_mem_cons]
      exact ⟨not_quote_of_hexValue ha, not_quote_of_hexValue hb, not_quote_of_hexValue hc,
        not_quote_of_hexValue hd, List.forall_mem_nil _⟩

theorem readLowSurrogate_front {high : Nat}
    (h : readLowSurrogate high chars = some (c, rest)) :
    ∃ front, chars = front ++ rest ∧ QuoteState.inside.after front = .inside := by
  match chars, h with
  | backslash :: u :: tail, h =>
      rw [readLowSurrogate] at h
      split_ifs at h with hescape
      obtain ⟨⟨low, middle⟩, hlow, h⟩ := Option.bind_eq_some_iff.mp h
      obtain ⟨front, hcut, hfront⟩ := readUnit_front hlow
      dsimp only at h
      split_ifs at h
      obtain ⟨-, rfl⟩ := Prod.mk.inj (Option.some.inj h)
      refine ⟨backslash :: u :: front, by rw [hcut]; rfl, ?_⟩
      have hstart : QuoteState.inside.after ('\\' :: 'u' :: front) =
          QuoteState.inside.after front := rfl
      rw [hescape.1, hescape.2, hstart, QuoteState.after_content hfront]

/-- An escape ends inside of the quotes. -/
theorem readEscape_front (h : readEscape chars = some (c, rest)) :
    ∃ front, chars = front ++ rest ∧ QuoteState.escaped.after front = .inside := by
  match chars, h with
  | d :: tail, h =>
      rw [readEscape] at h
      by_cases hunit : d = 'u'
      · rw [hunit, if_neg (by decide), if_neg (by decide), if_neg (by decide), if_neg (by decide),
          if_neg (by decide), if_neg (by decide), if_pos rfl] at h
        obtain ⟨⟨unit, middle⟩, hhex, hread⟩ := Option.bind_eq_some_iff.mp h
        obtain ⟨front, hcut, hfront⟩ := readUnit_front hhex
        dsimp only at hread
        split_ifs at hread with hhigh hlow
        · obtain ⟨more, hmiddle, hmore⟩ := readLowSurrogate_front hread
          refine ⟨d :: front ++ more, by rw [hcut, hmiddle, ← List.append_assoc]; rfl, ?_⟩
          rw [QuoteState.after_append]
          exact (congrArg (·.after more) (QuoteState.after_content hfront)).trans hmore
        · obtain ⟨-, rfl⟩ := Prod.mk.inj (Option.some.inj hread)
          exact ⟨d :: front, by rw [hcut]; rfl, QuoteState.after_content hfront⟩
      · have hrest : rest = tail := by
          split_ifs at h
          all_goals exact (Prod.mk.inj (Option.some.inj h)).2.symm
        exact ⟨[d], by rw [hrest]; rfl, rfl⟩

/-- The rests of a text, by the quotes in front of them. -/
def Walk.behind (text : List Char) : Walk where
  outside rest := ∃ front, text = front ++ rest ∧ QuoteState.outside.after front = .outside
  inside rest := ∃ front, text = front ++ rest ∧ QuoteState.outside.after front = .inside
  good _ := True
  letter := by
    rintro c rest ⟨front, rfl, hfront⟩ hquote _
    refine ⟨front ++ [c], List.append_cons _ _ _, ?_⟩
    rw [QuoteState.after_append, hfront]
    exact if_neg hquote
  openQuote := by
    rintro rest ⟨front, rfl, hfront⟩
    refine ⟨front ++ ['"'], List.append_cons _ _ _, ?_⟩
    rw [QuoteState.after_append, hfront]
    rfl
  closeQuote := by
    rintro rest ⟨front, rfl, hfront⟩
    refine ⟨front ++ ['"'], List.append_cons _ _ _, ?_⟩
    rw [QuoteState.after_append, hfront]
    rfl
  escape := by
    rintro chars c rest ⟨front, rfl, hfront⟩ hescape
    obtain ⟨more, rfl, hmore⟩ := readEscape_front hescape
    refine ⟨⟨front ++ '\\' :: more, ?_, ?_⟩, trivial⟩
    · rw [List.append_assoc]
      rfl
    · rw [QuoteState.after_append, hfront]
      exact hmore
  content := by
    rintro c rest ⟨front, rfl, hfront⟩ hquote hbackslash
    refine ⟨⟨front ++ [c], List.append_cons _ _ _, ?_⟩, trivial⟩
    rw [QuoteState.after_append, hfront]
    exact (if_neg hquote).trans (if_neg hbackslash)

/-- A text that does not end outside of quotes is no JSON text. -/
theorem jsonParse_eq_none {format : NumberFormat} {text : List Char}
    (h : QuoteState.outside.after text ≠ .outside) :
    jsonParse format (String.ofList text) = none := by
  rw [jsonParse, String.toList_ofList]
  cases hread : readValue format (2 * text.length) text with
  | none => rfl
  | some result =>
      obtain ⟨value, rest⟩ := result
      obtain ⟨⟨front, hcut, hfront⟩, -⟩ := ((Walk.behind text).reader format _).value
        ⟨[], rfl, rfl⟩ hread
      refine if_neg fun hspace => h ?_
      have hletters : ∀ c ∈ rest, c ≠ '"' := by
        intro c hc
        have hwhite := List.dropWhile_eq_nil_iff.mp hspace c hc
        rintro rfl
        exact absurd hwhite (by decide)
      rw [hcut, QuoteState.after_append, hfront, QuoteState.after_letters hletters]

end Front

/-! ## Texts that start inside of quotes -/

/-- A text that starts inside of quotes, as a reader sees it that takes itself to be outside. -/
def Walk.inverted : Walk where
  outside := Fits .inside
  inside := Fits .outside
  good c := isBare c = true
  letter := by
    intro c rest h hquote hbackslash
    have hnext := h.2
    rwa [QuoteState.step, if_neg hquote, if_neg hbackslash] at hnext
  openQuote := fun h => h.2
  closeQuote := fun h => h.2
  escape := by
    intro chars c rest h _
    exact absurd h.1 (by decide)
  content := by
    intro c rest h hquote _
    have hnext := h.2
    rw [QuoteState.step, if_neg hquote] at hnext
    exact ⟨hnext, h.1.resolve_left hquote⟩

/-- The keys that such a reader finds are made of characters from outside of quotes. -/
theorem bare_of_jsonParse {format : NumberFormat} {text : List Char} {fields : JsonObject}
    (h : Fits .inside text)
    (hparse : jsonParse format (String.ofList text) = some (.object fields)) :
    ∀ field ∈ fields, ∀ c ∈ field.1.toList, isBare c = true := by
  rw [jsonParse, String.toList_ofList] at hparse
  cases hread : readValue format (2 * text.length) text with
  | none =>
      rw [hread] at hparse
      cases hparse
  | some result =>
      obtain ⟨value, rest⟩ := result
      rw [hread] at hparse
      dsimp only at hparse
      split_ifs at hparse
      exact ((Walk.inverted.reader format _).value h hread).2 fields (Option.some.inj hparse)

/-! ## Printed texts -/

/-- A text that fits the state in front of it, with the state behind it. -/
def Leads (state state' : QuoteState) (text : List Char) : Prop :=
  Fits state text ∧ state.after text = state'

section Printed

variable {state state' state'' : QuoteState} {text text' : List Char}

theorem Leads.append (h : Leads state state' text) (h' : Leads state' state'' text') :
    Leads state state'' (text ++ text') := by
  refine ⟨fits_append.mpr ⟨h.1, ?_⟩, ?_⟩
  · rw [h.2]
    exact h'.1
  · rw [QuoteState.after_append, h.2, h'.2]

theorem leads_bare (h : text.all isBare = true) : Leads .outside .outside text := by
  induction text with
  | nil => exact ⟨trivial, rfl⟩
  | cons c text ih =>
      rw [List.all_cons, Bool.and_eq_true] at h
      obtain ⟨hc, htext⟩ := h
      have hquote : c ≠ '"' := by
        rintro rfl
        exact absurd hc (by decide)
      have hstep : QuoteState.outside.step c = .outside := if_neg hquote
      obtain ⟨hfits, hafter⟩ := ih htext
      refine ⟨⟨.inr hc, ?_⟩, ?_⟩
      · rwa [hstep]
      · rw [QuoteState.after, List.foldl_cons, hstep]
        exact hafter

theorem leads_escape_of_mem : ∀ n ∈ escapedCodes,
    Fits .inside (escapeChar (Char.ofNat n)) ∧
      QuoteState.inside.after (escapeChar (Char.ofNat n)) = .inside := by
  decide +kernel

theorem leads_escapeChar (c : Char) : Leads .inside .inside (escapeChar c) := by
  by_cases hc : isEscaped c = true
  · have hleads := leads_escape_of_mem c.toNat (JsonValue.toNat_mem_escapedCodes hc)
    rwa [Char.ofNat_toNat] at hleads
  · rw [Bool.not_eq_true] at hc
    rw [JsonValue.escapeChar_of_not_isEscaped hc]
    have hcontrol : 32 ≤ c.toNat := by
      by_contra hlow
      rw [isEscaped, decide_eq_true (Nat.lt_of_not_le hlow), Bool.or_true] at hc
      cases hc
    refine ⟨⟨hcontrol, trivial⟩, QuoteState.after_content ?_⟩
    rw [List.forall_mem_singleton]
    constructor
    · rintro rfl
      exact absurd hc (by decide)
    · rintro rfl
      exact absurd hc (by decide)

theorem leads_quotedTail (text : List Char) : Leads .inside .outside (quotedTail text) := by
  induction text with
  | nil => exact ⟨by decide, rfl⟩
  | cons c text ih =>
      rw [JsonValue.quotedTail_cons]
      exact (leads_escapeChar c).append ih

theorem leads_quote : Leads .outside .inside ['"'] :=
  ⟨⟨.inl rfl, trivial⟩, rfl⟩

theorem leads_chars_items {items : List JsonValue}
    (hitems : ∀ item ∈ items, Leads .outside .outside (JsonValue.chars item)) (first : Bool) :
    Leads .outside .outside (JsonValue.itemChars first items) := by
  induction items generalizing first with
  | nil =>
      have hbracket : Leads .outside .outside [']'] := leads_bare rfl
      exact hbracket
  | cons item items ih =>
      obtain ⟨hitem, hrest⟩ := List.forall_mem_cons.mp hitems
      have hcomma : Leads .outside .outside (if first = true then [] else [',']) := by
        split_ifs
        · exact leads_bare rfl
        · exact leads_bare rfl
      rw [JsonValue.itemChars]
      exact hcomma.append (hitem.append (ih hrest false))

theorem leads_chars_fields {fields : JsonObject}
    (hfields : ∀ field ∈ fields, Leads .outside .outside (JsonValue.chars field.2))
    (first : Bool) : Leads .outside .outside (JsonValue.fieldChars first fields) := by
  induction fields generalizing first with
  | nil =>
      have hbrace : Leads .outside .outside ['\x7d'] := leads_bare rfl
      exact hbrace
  | cons field fields ih =>
      obtain ⟨key, value⟩ := field
      obtain ⟨hvalue, hrest⟩ := List.forall_mem_cons.mp hfields
      have hcomma : Leads .outside .outside (if first = true then [] else [',']) := by
        split_ifs
        · exact leads_bare rfl
        · exact leads_bare rfl
      have hcolon : Leads .outside .outside [':'] := leads_bare rfl
      rw [JsonValue.fieldChars]
      exact hcomma.append (leads_quote.append ((leads_quotedTail key.toList).append
        (hcolon.append (hvalue.append (ih hrest false)))))

/-- A printed value starts and ends outside of quotes. -/
theorem leads_chars (value : JsonValue) (h : value.Everywhere PrintsNumerals) :
    Leads .outside .outside (JsonValue.chars value) := by
  induction value using JsonValue.byMembers with
  | null => exact leads_bare rfl
  | bool value =>
      cases value with
      | true => exact leads_bare rfl
      | false => exact leads_bare rfl
  | number text =>
      refine leads_bare (List.all_eq_true.mpr fun c hc => ?_)
      rw [isBare, h.here.2 c hc]
      rfl
  | string value => exact leads_quote.append (leads_quotedTail value.toList)
  | array items ih =>
      have hitems := fun item hitem => ih item hitem (h.of_array item hitem)
      have hbracket : Leads .outside .outside ['['] := leads_bare rfl
      exact hbracket.append (leads_chars_items hitems true)
  | object fields ih =>
      have hfields := fun field hfield => ih field hfield (h.of_object field hfield)
      have hbrace : Leads .outside .outside ['\x7b'] := leads_bare rfl
      exact hbrace.append (leads_chars_fields hfields true)

/-- A character that is neither bare nor an escape only stands inside of quotes. -/
theorem cut_inside {front back : List Char} {c : Char} (h : Fits .outside (front ++ c :: back))
    (hbare : isBare c = false) (hescape : isEscapeLetter c = false) :
    QuoteState.outside.after front = .inside ∧ Fits .inside back := by
  obtain ⟨-, hallows, hback⟩ := fits_append.mp h
  have hquote : c ≠ '"' := by
    rintro rfl
    exact absurd hescape (by decide)
  have hbackslash : c ≠ '\\' := by
    rintro rfl
    exact absurd hescape (by decide)
  cases hstate : QuoteState.outside.after front with
  | outside =>
      rw [hstate] at hallows
      rcases hallows with rfl | hallowed
      · exact absurd rfl hquote
      · rw [hbare] at hallowed
        cases hallowed
  | inside =>
      rw [hstate, QuoteState.step, if_neg hquote, if_neg hbackslash] at hback
      exact ⟨rfl, hback⟩
  | escaped =>
      rw [hstate] at hallows
      exact absurd (hallows.symm.trans hescape) (by decide)

end Printed

end GoatCitadel.Policy
