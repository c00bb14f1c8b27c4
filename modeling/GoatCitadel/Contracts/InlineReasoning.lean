import GoatCitadel.Support.Text

/-!
# Inline reasoning

Reasoning models write their reasoning in `<think>…</think>` blocks at the start of the
answer.  The splitter routes these blocks to the reasoning while the message is still
arriving, so it holds back whatever may be the beginning of a tag.

A text is the list of its UTF-16 code units: a chunk may end inside a surrogate pair.
-/

namespace GoatCitadel.Contracts

open GoatCitadel.Support

/-! ## Characters -/

/-- What `\s` matches, and what `trim` removes. -/
def isSpace (unit : Nat) : Bool :=
  (0x09 ≤ unit && unit ≤ 0x0D) || unit == 0x20 || unit == 0xA0 || unit == 0x1680 ||
    (0x2000 ≤ unit && unit ≤ 0x200A) || unit == 0x2028 || unit == 0x2029 ||
    unit == 0x202F || unit == 0x205F || unit == 0x3000 || unit == 0xFEFF

/-- `[A-Za-z_]` -/
def isNameUnit (unit : Nat) : Bool :=
  (65 ≤ unit && unit ≤ 90) || (97 ≤ unit && unit ≤ 122) || unit == 95

/-- `[^<>]` -/
def isInsideTag (unit : Nat) : Bool :=
  unit != 60 && unit != 62

def asciiLower (unit : Nat) : Nat :=
  if 65 ≤ unit ∧ unit ≤ 90 then unit + 32 else unit

/-- `toLowerCase`, of which the splitter needs what it does to letters of a tag. -/
structure LowerCase where
  toLowerCase : List Nat → List Nat
  toLowerCase_ascii : ∀ text, (∀ unit ∈ text, unit < 128 ∨ isSpace unit = true) →
    toLowerCase text = text.map asciiLower

/-- `toLowerCase` of texts whose letters are those of ASCII. -/
def asciiLowerCase : LowerCase where
  toLowerCase text := text.map asciiLower
  toLowerCase_ascii := fun _ _ => rfl

def trimStart (text : List Nat) : List Nat :=
  text.dropWhile isSpace

/-- `String.prototype.trim`, on code units. -/
def trimUnits (text : List Nat) : List Nat :=
  (trimStart text).rdropWhile isSpace

/-! ## Tags -/

def reasoningBlockTags : List (List Nat) :=
  ["think", "thinking", "reasoning", "internal_reasoning", "analysis"].map utf16Units

def maxHeldOpeningTagLength : Nat := 64

/-- `OPENING_TAG_RE`: the tag that a text begins with, and its name.  A name ends at white
space or at `>` and the rest of a tag at `>`, so that greedy matching finds the tag if
there is one. -/
def execOpeningTag : List Nat → Option (List Nat × List Nat)
  | 60 :: rest =>
      let name := rest.takeWhile isNameUnit
      if name = [] then none
      else
        match rest.dropWhile isNameUnit with
        | 62 :: _ => some (60 :: name ++ [62], name)
        | unit :: inside =>
            if isSpace unit = true then
              match inside.dropWhile isInsideTag with
              | 62 :: _ => some (60 :: name ++ unit :: inside.takeWhile isInsideTag ++ [62], name)
              | _ => none
            else none
        | [] => none
  | _ => none

/-- The closing tag that a text begins with, its name in letters of either case. -/
def matchClosingTag (closeTag : List Nat) : List Nat → Option (List Nat)
  | 60 :: 47 :: rest =>
      if (rest.take closeTag.length).map asciiLower = closeTag then
        let spaces := (rest.drop closeTag.length).takeWhile isSpace
        match (rest.drop closeTag.length).dropWhile isSpace with
        | 62 :: _ => some (60 :: 47 :: rest.take closeTag.length ++ spaces ++ [62])
        | _ => none
      else none
  | _ => none

/-- The first closing tag of a text, with what comes before it and what comes after. -/
def execClosingTag (closeTag : List Nat) : List Nat → Option (List Nat × List Nat × List Nat)
  | [] => none
  | unit :: rest =>
      match matchClosingTag closeTag (unit :: rest) with
      | some tag => some ([], tag, (unit :: rest).drop tag.length)
      | none => (execClosingTag closeTag rest).map fun (front, tag, after) =>
          (unit :: front, tag, after)

/-- A text cut at its last `<`. -/
def splitAtLastAngle : List Nat → Option (List Nat × List Nat)
  | [] => none
  | unit :: rest =>
      match splitAtLastAngle rest with
      | some (front, suffix) => some (unit :: front, suffix)
      | none => if unit = 60 then some ([], unit :: rest) else none

/-! ## What the tags are like -/

theorem isNameUnit_eq_false_of_isSpace {unit : Nat} (h : isSpace unit = true) :
    isNameUnit unit = false := by
  simp only [isSpace, isNameUnit, Bool.or_eq_true, Bool.and_eq_true, decide_eq_true_eq,
    beq_iff_eq, Bool.or_eq_false_iff, Bool.and_eq_false_iff, decide_eq_false_iff_not,
    beq_eq_false_iff_ne] at h ⊢
  omega

theorem ne_angle_of_isSpace {unit : Nat} (h : isSpace unit = true) : unit ≠ 60 ∧ unit ≠ 62 := by
  constructor
  · rintro rfl
    exact absurd h (by decide)
  · rintro rfl
    exact absurd h (by decide)

theorem ne_angle_of_isNameUnit {unit : Nat} (h : isNameUnit unit = true) :
    unit ≠ 60 ∧ unit ≠ 62 ∧ isSpace unit = false := by
  refine ⟨?_, ?_, ?_⟩
  · rintro rfl
    exact absurd h (by decide)
  · rintro rfl
    exact absurd h (by decide)
  · by_contra hspace
    rw [isNameUnit_eq_false_of_isSpace (by simpa using hspace)] at h
    exact absurd h Bool.false_ne_true

/-- What may stand between the name of an opening tag and its `>`. -/
def IsAttributes (attributes : List Nat) : Prop :=
  attributes = [] ∨ ∃ unit inside, attributes = unit :: inside ∧ isSpace unit = true ∧
    ∀ other ∈ inside, isInsideTag other = true

/-- An opening tag of a name. -/
def IsOpeningTag (tag name : List Nat) : Prop :=
  name ≠ [] ∧ (∀ unit ∈ name, isNameUnit unit = true) ∧
    ∃ attributes, IsAttributes attributes ∧ tag = 60 :: (name ++ (attributes ++ [62]))

/-- A closing tag of a name, with letters of either case. -/
def IsClosingTag (tag closeTag : List Nat) : Prop :=
  ∃ name spaces, tag = 60 :: 47 :: (name ++ (spaces ++ [62])) ∧
    name.map asciiLower = closeTag ∧ ∀ unit ∈ spaces, isSpace unit = true

/-- A name is read up to where it ends. -/
theorem takeWhile_isNameUnit {name rest : List Nat} {unit : Nat}
    (hname : ∀ other ∈ name, isNameUnit other = true) (hunit : isNameUnit unit = false) :
    (name ++ unit :: rest).takeWhile isNameUnit = name ∧
      (name ++ unit :: rest).dropWhile isNameUnit = unit :: rest := by
  have hstop : ¬isNameUnit unit = true := by simpa using hunit
  rw [List.takeWhile_append_of_pos hname, List.dropWhile_append_of_pos hname,
    List.takeWhile_cons_of_neg hstop, List.dropWhile_cons_of_neg hstop, List.append_nil]
  exact ⟨rfl, rfl⟩

theorem execOpeningTag_of_tag {tag name : List Nat} (h : IsOpeningTag tag name)
    (more : List Nat) : execOpeningTag (tag ++ more) = some (tag, name) := by
  obtain ⟨hne, hname, attributes, hattributes, rfl⟩ := h
  rcases hattributes with rfl | ⟨unit, inside, rfl, hspace, hinside⟩
  · obtain ⟨htake, hdrop⟩ := @takeWhile_isNameUnit name more 62 hname (by decide)
    have htext : 60 :: (name ++ ([] ++ [62])) ++ more = 60 :: (name ++ 62 :: more) := by simp
    rw [htext, execOpeningTag, htake, if_neg hne, hdrop]
    simp
  · obtain ⟨htake, hdrop⟩ := @takeWhile_isNameUnit name (inside ++ 62 :: more) unit hname
      (isNameUnit_eq_false_of_isSpace hspace)
    have htext : 60 :: (name ++ (unit :: inside ++ [62])) ++ more =
        60 :: (name ++ unit :: (inside ++ 62 :: more)) := by simp
    rw [htext, execOpeningTag, htake, if_neg hne, hdrop]
    have hstop : ¬isInsideTag 62 = true := by decide
    have hunit := (ne_angle_of_isSpace hspace).2
    split
    · rename_i heq
      exact absurd (List.cons.inj heq).1 hunit
    · rename_i heq
      obtain ⟨rfl, rfl⟩ := List.cons.inj heq
      rw [if_pos hspace, List.dropWhile_append_of_pos hinside, List.dropWhile_cons_of_neg hstop,
        List.takeWhile_append_of_pos hinside, List.takeWhile_cons_of_neg hstop]
      simp
    · rename_i heq
      cases heq

/-- A text begins with the tag that is found in it. -/
theorem execOpeningTag_eq_some {text tag name : List Nat}
    (h : execOpeningTag text = some (tag, name)) :
    IsOpeningTag tag name ∧ ∃ more, text = tag ++ more := by
  unfold execOpeningTag at h
  split at h
  · rename_i rest
    dsimp only at h
    split_ifs at h with hne
    have hrest := @List.takeWhile_append_dropWhile _ isNameUnit rest
    have hname : ∀ unit ∈ rest.takeWhile isNameUnit, isNameUnit unit = true :=
      fun unit hunit => List.mem_takeWhile_imp hunit
    split at h
    · rename_i more hdrop
      obtain ⟨rfl, rfl⟩ := Prod.mk.inj (Option.some.inj h)
      refine ⟨⟨hne, hname, [], Or.inl rfl, by simp⟩, more, ?_⟩
      rw [hdrop] at hrest
      nth_rewrite 1 [← hrest]
      simp
    · rename_i unit inside _ hdrop
      split_ifs at h with hspace
      split at h
      · rename_i more hinside
        obtain ⟨rfl, rfl⟩ := Prod.mk.inj (Option.some.inj h)
        have htail := @List.takeWhile_append_dropWhile _ isInsideTag inside
        refine ⟨⟨hne, hname, unit :: inside.takeWhile isInsideTag,
          Or.inr ⟨unit, _, rfl, hspace, fun other hother => List.mem_takeWhile_imp hother⟩,
          by simp⟩, more, ?_⟩
        rw [hdrop, ← htail, hinside] at hrest
        nth_rewrite 1 [← hrest]
        simp
      · cases h
    · cases h
  · cases h

/-- Units that are not letters of a tag stay what they are. -/
theorem matchClosingTag_of_tag {tag closeTag : List Nat} (h : IsClosingTag tag closeTag)
    (more : List Nat) : matchClosingTag closeTag (tag ++ more) = some tag := by
  obtain ⟨name, spaces, rfl, rfl, hspaces⟩ := h
  have htext : 60 :: 47 :: (name ++ (spaces ++ [62])) ++ more =
      60 :: 47 :: (name ++ (spaces ++ 62 :: more)) := by simp
  have hstop : ¬isSpace 62 = true := by decide
  rw [htext, matchClosingTag, List.length_map, List.take_left, if_pos rfl, List.drop_left,
    List.dropWhile_append_of_pos hspaces, List.dropWhile_cons_of_neg hstop,
    List.takeWhile_append_of_pos hspaces, List.takeWhile_cons_of_neg hstop]
  simp

theorem matchClosingTag_eq_some {text tag closeTag : List Nat}
    (h : matchClosingTag closeTag text = some tag) :
    IsClosingTag tag closeTag ∧ ∃ more, text = tag ++ more := by
  unfold matchClosingTag at h
  split at h
  · rename_i rest
    dsimp only at h
    split_ifs at h with hname
    split at h
    · rename_i more hmore
      obtain rfl := Option.some.inj h
      refine ⟨⟨rest.take closeTag.length, (rest.drop closeTag.length).takeWhile isSpace,
        by simp, hname, fun unit hunit => List.mem_takeWhile_imp hunit⟩, more, ?_⟩
      have hspaces := @List.takeWhile_append_dropWhile _ isSpace (rest.drop closeTag.length)
      rw [hmore] at hspaces
      nth_rewrite 1 [← List.take_append_drop closeTag.length rest, ← hspaces]
      simp
    · cases h
  · cases h

/-- What is found is a closing tag, in its place. -/
theorem execClosingTag_eq_some {closeTag text front tag after : List Nat}
    (h : execClosingTag closeTag text = some (front, tag, after)) :
    IsClosingTag tag closeTag ∧ text = front ++ (tag ++ after) := by
  induction text generalizing front with
  | nil => cases h
  | cons unit rest ih =>
      rw [execClosingTag] at h
      split at h
      · rename_i found hmatch
        obtain ⟨rfl, hrest⟩ := Prod.mk.inj (Option.some.inj h)
        obtain ⟨rfl, rfl⟩ := Prod.mk.inj hrest
        obtain ⟨htag, more, hmore⟩ := matchClosingTag_eq_some hmatch
        refine ⟨htag, ?_⟩
        rw [hmore, List.drop_left, List.nil_append]
      · obtain ⟨⟨front', tag', after'⟩, hrest, heq⟩ := Option.map_eq_some_iff.mp h
        obtain ⟨rfl, hpair⟩ := Prod.mk.inj heq
        obtain ⟨rfl, rfl⟩ := Prod.mk.inj hpair
        obtain ⟨htag, htext⟩ := ih hrest
        refine ⟨htag, ?_⟩
        rw [htext]
        rfl

/-! ## Splitter -/

structure InlineReasoningSplit where
  answer : List Nat
  reasoning : List Nat
  deriving DecidableEq

/-- The parts of two pieces of a message one after the other. -/
def InlineReasoningSplit.append (first second : InlineReasoningSplit) : InlineReasoningSplit :=
  ⟨first.answer ++ second.answer, first.reasoning ++ second.reasoning⟩

inductive Mode
  | leading
  | reasoning (closeTag : List Nat)
  | answer
  deriving DecidableEq

structure InlineReasoningSplitter where
  mode : Mode
  pending : List Nat
  deriving DecidableEq

section Splitter

variable (lower : LowerCase) (tags : List (List Nat))

/-- The reasoning tag that a text begins with, and its name in lower case. -/
def openingReasoningTag (start : List Nat) : Option (List Nat × List Nat) :=
  match execOpeningTag start with
  | some (tag, name) =>
      if lower.toLowerCase name ∈ tags then some (tag, lower.toLowerCase name) else none
  | none => none

def couldBeOpeningTag : List Nat → Bool
  | 60 :: text =>
      let name := lower.toLowerCase (text.takeWhile isNameUnit)
      match text.drop name.length with
      | [] => tags.any fun tag => name.isPrefixOf tag
      | unit :: inside => name ∈ tags && isSpace unit && inside.all isInsideTag
  | _ => false

/-- `heldClosingTagStart`, as the text before the possibly half-arrived closing tag and
the text from there. -/
def heldClosingTag (text closeTag : List Nat) : List Nat × List Nat :=
  match splitAtLastAngle text with
  | none => (text, [])
  | some (front, suffix) =>
      let suffixLower := lower.toLowerCase suffix
      let closing := 60 :: 47 :: closeTag
      if suffixLower.isPrefixOf closing = true ∨
          closing.isPrefixOf suffixLower = true ∧
            (suffixLower.drop closing.length).all isSpace = true then
        (front, suffix)
      else (text, [])

theorem openingReasoningTag_eq_some {start tag name : List Nat}
    (h : openingReasoningTag lower tags start = some (tag, name)) :
    ∃ written, IsOpeningTag tag written ∧ name = lower.toLowerCase written ∧ name ∈ tags ∧
      ∃ more, start = tag ++ more := by
  unfold openingReasoningTag at h
  split at h
  · rename_i found written hexec
    split_ifs at h with hmem
    obtain ⟨rfl, rfl⟩ := Prod.mk.inj (Option.some.inj h)
    obtain ⟨htag, hmore⟩ := execOpeningTag_eq_some hexec
    exact ⟨written, htag, rfl, hmem, hmore⟩
  · cases h

theorem length_execClosingTag {closeTag text front tag after : List Nat}
    (h : execClosingTag closeTag text = some (front, tag, after)) :
    after.length + 1 < text.length := by
  obtain ⟨⟨name, spaces, htag, -, -⟩, htext⟩ := execClosingTag_eq_some h
  rw [htext, List.length_append, List.length_append, htag, List.length_cons, List.length_cons]
  omega

theorem length_trimStart_le (text : List Nat) : (trimStart text).length ≤ text.length :=
  List.length_dropWhile_le isSpace text

/-- The loop of `push` over what is pending. -/
def drain (mode : Mode) (pending : List Nat) :
    InlineReasoningSplit × InlineReasoningSplitter :=
  match mode with
  | .answer => (⟨pending, []⟩, ⟨.answer, []⟩)
  | .reasoning closeTag =>
      match _hclosing : execClosingTag closeTag pending with
      | some (front, _, after) =>
          let (split, splitter) := drain .leading after
          (⟨split.answer, front ++ split.reasoning⟩, splitter)
      | none =>
          let (front, held) := heldClosingTag lower pending closeTag
          (⟨[], front⟩, ⟨.reasoning closeTag, held⟩)
  | .leading =>
      let start := trimStart pending
      if start = [] then (⟨[], []⟩, ⟨.leading, pending⟩)
      else
        match openingReasoningTag lower tags start with
        | some (tag, name) => drain (.reasoning name) (start.drop tag.length)
        | none =>
            if start.length ≤ maxHeldOpeningTagLength ∧
                couldBeOpeningTag lower tags start = true then
              (⟨[], []⟩, ⟨.leading, pending⟩)
            else drain .answer start
termination_by 2 * pending.length + (if mode = .leading then 1 else 0)
decreasing_by
  · have hlength := length_execClosingTag _hclosing
    simp
    omega
  · have hstart := length_trimStart_le pending
    simp
    omega
  · have hstart := length_trimStart_le pending
    simp
    omega

def InlineReasoningSplitter.push (splitter : InlineReasoningSplitter) (text : List Nat) :
    InlineReasoningSplit × InlineReasoningSplitter :=
  drain lower tags splitter.mode (splitter.pending ++ text)

def InlineReasoningSplitter.flush (splitter : InlineReasoningSplitter) : InlineReasoningSplit :=
  match splitter.mode with
  | .reasoning _ => ⟨[], splitter.pending⟩
  | .leading => ⟨trimStart splitter.pending, []⟩
  | .answer => ⟨splitter.pending, []⟩

def createInlineReasoningSplitter : InlineReasoningSplitter :=
  ⟨.leading, []⟩

/-- What a splitter returns for the chunks that are pushed into it, and for the flush. -/
def InlineReasoningSplitter.stream (splitter : InlineReasoningSplitter) :
    List (List Nat) → InlineReasoningSplit
  | [] => splitter.flush
  | chunk :: chunks =>
      let (split, splitter) := splitter.push lower tags chunk
      split.append (splitter.stream chunks)

/-- The complete message, under the default tags. -/
def splitInlineReasoning (content : List Nat) : InlineReasoningSplit :=
  if (trimStart content).head? ≠ some 60 then ⟨content, []⟩
  else
    let (head, splitter) := createInlineReasoningSplitter.push lower reasoningBlockTags content
    head.append splitter.flush

end Splitter

end GoatCitadel.Contracts
