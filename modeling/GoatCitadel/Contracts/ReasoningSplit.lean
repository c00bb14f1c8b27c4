import GoatCitadel.Contracts.InlineReasoning

/-!
# The reasoning of a message does not depend on its chunks

A message is read once as a whole, into the segments that it is made up of.  A splitter
that is pushed the message in chunks finds the same segments, unless a chunk ends in an
opening tag after more characters than the splitter holds back.
-/

namespace GoatCitadel.Contracts

open GoatCitadel.Support

/-! ## Segments -/

inductive Segment
  | skipped (text : List Nat)
  | opening (tag : List Nat)
  | reasoning (text : List Nat)
  | closing (tag : List Nat)
  | answer (text : List Nat)

def Segment.text : Segment → List Nat
  | .skipped text | .opening text | .reasoning text | .closing text | .answer text => text

/-- What a segment adds to the parts of the message. -/
def Segment.split : Segment → InlineReasoningSplit
  | .reasoning text => ⟨[], text⟩
  | .answer text => ⟨text, []⟩
  | .skipped _ | .opening _ | .closing _ => ⟨[], []⟩

/-- The text that segments make up. -/
def textOf (segments : List Segment) : List Nat :=
  segments.flatMap Segment.text

/-- The answer and the reasoning among segments. -/
def splitOf (segments : List Segment) : InlineReasoningSplit :=
  ⟨segments.flatMap fun segment => segment.split.answer,
    segments.flatMap fun segment => segment.split.reasoning⟩

/-- The segments of a message from a mode on: white space, the opening tag, the reasoning
and the closing tag of each block, and the answer. -/
inductive Segmented (lower : LowerCase) (tags : List (List Nat)) : Mode → List Segment → Prop
  | answer (text : List Nat) : Segmented lower tags .answer [.answer text]
  | unclosed (closeTag text : List Nat) :
      Segmented lower tags (.reasoning closeTag) [.reasoning text]
  | closed {closeTag tag : List Nat} {segments : List Segment} (text : List Nat) :
      IsClosingTag tag closeTag → Segmented lower tags .leading segments →
        Segmented lower tags (.reasoning closeTag) (.reasoning text :: .closing tag :: segments)
  | opened {spaces tag name : List Nat} {segments : List Segment} :
      (∀ unit ∈ spaces, isSpace unit = true) → IsOpeningTag tag name →
        lower.toLowerCase name ∈ tags →
        Segmented lower tags (.reasoning (lower.toLowerCase name)) segments →
          Segmented lower tags .leading (.skipped spaces :: .opening tag :: segments)
  | text {spaces : List Nat} (text : List Nat) : (∀ unit ∈ spaces, isSpace unit = true) →
      Segmented lower tags .leading [.skipped spaces, .answer text]

@[simp]
theorem textOf_cons (segment : Segment) (segments : List Segment) :
    textOf (segment :: segments) = segment.text ++ textOf segments :=
  rfl

@[simp]
theorem textOf_nil : textOf [] = [] :=
  rfl

@[simp]
theorem splitOf_cons (segment : Segment) (segments : List Segment) :
    splitOf (segment :: segments) = segment.split.append (splitOf segments) :=
  rfl

@[simp]
theorem splitOf_nil : splitOf [] = ⟨[], []⟩ :=
  rfl

@[simp]
theorem InlineReasoningSplit.empty_append (split : InlineReasoningSplit) :
    InlineReasoningSplit.append ⟨[], []⟩ split = split := by
  simp [InlineReasoningSplit.append]

/-- Leading white space is skipped. -/
theorem trimStart_eq (text : List Nat) :
    text.takeWhile isSpace ++ trimStart text = text ∧
      ∀ unit ∈ text.takeWhile isSpace, isSpace unit = true :=
  ⟨List.takeWhile_append_dropWhile, fun _ hunit => List.mem_takeWhile_imp hunit⟩

section Splitter

variable {lower : LowerCase} {tags : List (List Nat)}
  {text tag name closeTag start front suffix : List Nat}

/-! ## Tags that have arrived in part -/

theorem toLowerCase_name (h : ∀ unit ∈ name, isNameUnit unit = true) :
    lower.toLowerCase name = name.map asciiLower := by
  apply lower.toLowerCase_ascii
  intro unit hunit
  have hname := h unit hunit
  simp only [isNameUnit, Bool.or_eq_true, Bool.and_eq_true, decide_eq_true_eq,
    beq_iff_eq] at hname
  omega

theorem asciiLower_of_isSpace {unit : Nat} (h : isSpace unit = true) : asciiLower unit = unit := by
  have hname := isNameUnit_eq_false_of_isSpace h
  unfold asciiLower
  rw [if_neg]
  rintro ⟨hlow, hhigh⟩
  simp [isNameUnit, hlow, hhigh] at hname

theorem isNameUnit_asciiLower {unit : Nat} :
    isNameUnit (asciiLower unit) = true ↔ isNameUnit unit = true := by
  unfold asciiLower
  split_ifs with hupper
  · simp only [isNameUnit, Bool.or_eq_true, Bool.and_eq_true, decide_eq_true_eq, beq_iff_eq]
    omega
  · exact Iff.rfl

/-- What has arrived of a text without its last unit is the beginning of the rest. -/
theorem prefix_of_append_singleton {rest : List Nat} {last : Nat}
    (h : text ++ [last] = start ++ rest) (hrest : rest ≠ []) : ∃ more, text = start ++ more := by
  refine ⟨rest.dropLast, ?_⟩
  rw [← List.dropLast_append_of_ne_nil hrest, ← h, List.dropLast_concat]

/-- What has arrived of a reasoning tag could be an opening tag. -/
theorem couldBeOpeningTag_of_tag {rest : List Nat} (htag : IsOpeningTag tag name)
    (hmem : lower.toLowerCase name ∈ tags) (hstart : start ≠ []) (hrest : rest ≠ [])
    (h : tag = start ++ rest) : couldBeOpeningTag lower tags start = true := by
  obtain ⟨hne, hname, attributes, hattributes, rfl⟩ := htag
  obtain ⟨unit, text, rfl⟩ := List.exists_cons_of_ne_nil hstart
  obtain ⟨rfl, htail⟩ := List.cons.inj h
  obtain ⟨more, hmore⟩ := prefix_of_append_singleton
    (show (name ++ attributes) ++ [62] = text ++ rest by rw [List.append_assoc]; exact htail) hrest
  have hprefix : ∀ more, name = text ++ more →
      couldBeOpeningTag lower tags (60 :: text) = true := by
    rintro more rfl
    have htext : ∀ unit ∈ text, isNameUnit unit = true :=
      fun unit hunit => hname unit (List.mem_append_left _ hunit)
    have htake : text.takeWhile isNameUnit = text := List.takeWhile_eq_self_iff.mpr htext
    rw [couldBeOpeningTag, htake, toLowerCase_name htext, List.length_map, List.drop_length]
    refine List.any_eq_true.mpr ⟨_, hmem, ?_⟩
    rw [toLowerCase_name hname, List.map_append]
    exact List.isPrefixOf_iff_prefix.mpr (List.prefix_append _ _)
  rcases List.append_eq_append_iff.mp hmore with ⟨after, rfl, hafter⟩ | ⟨more, hmore, -⟩
  · rcases after with _ | ⟨unit, after⟩
    · exact hprefix [] (by simp)
    -- The name is complete, and white space follows it.
    rcases hattributes with rfl | ⟨unit, inside, rfl, hspace, hinside⟩
    · cases hafter
    · obtain ⟨rfl, rfl⟩ := List.cons.inj hafter
      obtain ⟨htake, -⟩ := @takeWhile_isNameUnit name after _ hname
        (isNameUnit_eq_false_of_isSpace hspace)
      have hlength : (lower.toLowerCase name).length = name.length := by
        rw [toLowerCase_name hname, List.length_map]
      rw [couldBeOpeningTag, htake, hlength, List.drop_left]
      simp only [Bool.and_eq_true, decide_eq_true_eq, List.all_eq_true]
      exact ⟨⟨hmem, hspace⟩, fun other hother => hinside other (List.mem_append_left _ hother)⟩
  · exact hprefix more hmore

theorem splitAtLastAngle_of_not_mem (h : 60 ∉ text) : splitAtLastAngle text = none := by
  induction text with
  | nil => rfl
  | cons unit rest ih =>
      rw [List.mem_cons, not_or] at h
      rw [splitAtLastAngle, ih h.2]
      exact if_neg (Ne.symm h.1)

theorem splitAtLastAngle_append (front : List Nat) (h : 60 ∉ suffix) :
    splitAtLastAngle (front ++ 60 :: suffix) = some (front, 60 :: suffix) := by
  induction front with
  | nil =>
      rw [List.nil_append, splitAtLastAngle, splitAtLastAngle_of_not_mem h]
      rfl
  | cons unit front ih => rw [List.cons_append, splitAtLastAngle, ih]

theorem splitAtLastAngle_eq_some (h : splitAtLastAngle text = some (front, suffix)) :
    front ++ suffix = text := by
  induction text generalizing front with
  | nil => cases h
  | cons unit rest ih =>
      rw [splitAtLastAngle] at h
      split at h
      · rename_i front' suffix' hrest
        obtain ⟨rfl, rfl⟩ := Prod.mk.inj (Option.some.inj h)
        rw [List.cons_append, ih hrest]
      · split_ifs at h
        obtain ⟨rfl, rfl⟩ := Prod.mk.inj (Option.some.inj h)
        rfl

theorem heldClosingTag_append (text closeTag : List Nat) :
    (heldClosingTag lower text closeTag).1 ++ (heldClosingTag lower text closeTag).2 = text := by
  unfold heldClosingTag
  split
  · exact List.append_nil text
  · rename_i front suffix hsplit
    dsimp only
    split_ifs
    · exact splitAtLastAngle_eq_some hsplit
    · exact List.append_nil text

/-- There is no second `<` in a closing tag. -/
theorem closingTag_eq_cons (htag : IsClosingTag tag closeTag)
    (hclose : ∀ unit ∈ closeTag, isNameUnit unit = true) :
    ∃ text, tag = 60 :: text ∧ 60 ∉ text := by
  obtain ⟨name, spaces, rfl, rfl, hspaces⟩ := htag
  refine ⟨_, rfl, ?_⟩
  intro hmem
  simp only [List.mem_cons, List.mem_append, List.not_mem_nil, or_false] at hmem
  rcases hmem with hin | hin | hin | hin
  · exact absurd hin (by decide)
  · have hname := isNameUnit_asciiLower.mp (hclose _ (List.mem_map_of_mem hin))
    exact (ne_angle_of_isNameUnit hname).1 rfl
  · exact (ne_angle_of_isSpace (hspaces 60 hin)).1 rfl
  · exact absurd hin (by decide)

/-- What has arrived of a closing tag at the end of a text is held back. -/
theorem heldClosingTag_of_tag {tag closeTag front start rest : List Nat}
    (htag : IsClosingTag tag closeTag) (hclose : ∀ unit ∈ closeTag, isNameUnit unit = true)
    (hstart : start ≠ []) (hrest : rest ≠ []) (h : tag = start ++ rest) :
    heldClosingTag lower (front ++ start) closeTag = (front, start) := by
  obtain ⟨rest', hcons, hnone⟩ := closingTag_eq_cons htag hclose
  obtain ⟨name, spaces, rfl, rfl, hspaces⟩ := htag
  obtain rfl := (List.cons.inj hcons).2
  have hname : ∀ unit ∈ name, isNameUnit unit = true := fun unit hunit =>
    isNameUnit_asciiLower.mp (hclose _ (List.mem_map_of_mem hunit))
  obtain ⟨unit, text, rfl⟩ := List.exists_cons_of_ne_nil hstart
  obtain ⟨rfl, htail⟩ := List.cons.inj h
  obtain ⟨more, hmore⟩ := prefix_of_append_singleton
    (show (47 :: name ++ spaces) ++ [62] = text ++ rest by
      rw [List.append_assoc]; exact htail) hrest
  have hunits : ∀ unit ∈ text, unit = 47 ∨ isNameUnit unit = true ∨ isSpace unit = true := by
    intro unit hunit
    have hin : unit ∈ 47 :: name ++ spaces := by
      rw [hmore]
      exact List.mem_append_left _ hunit
    rcases List.mem_append.mp hin with hin | hin
    · exact (List.mem_cons.mp hin).imp_right fun hin => Or.inl (hname unit hin)
    · exact Or.inr (Or.inr (hspaces unit hin))
  have hangle : 60 ∉ text := by
    intro hmem
    rw [htail] at hnone
    exact hnone (List.mem_append_left _ hmem)
  have hlower : lower.toLowerCase (60 :: text) = 60 :: text.map asciiLower := by
    apply lower.toLowerCase_ascii
    intro unit hunit
    rcases List.mem_cons.mp hunit with rfl | hunit
    · exact Or.inl (by decide)
    rcases hunits unit hunit with rfl | hin | hin
    · exact Or.inl (by decide)
    · simp only [isNameUnit, Bool.or_eq_true, Bool.and_eq_true, decide_eq_true_eq,
        beq_iff_eq] at hin
      omega
    · exact Or.inr hin
  rw [heldClosingTag, splitAtLastAngle_append front hangle]
  dsimp only
  rw [if_pos]
  rw [hlower]
  rcases List.append_eq_append_iff.mp hmore with ⟨after, rfl, rfl⟩ | ⟨name', hname', -⟩
  · right
    have hall : ∀ other ∈ after, isSpace other = true :=
      fun other hother => hspaces other (List.mem_append_left _ hother)
    have hafter : after.map asciiLower = after := by
      calc after.map asciiLower = after.map id :=
            List.map_congr_left fun other hother => asciiLower_of_isSpace (hall other hother)
        _ = after := List.map_id after
    have htext : 60 :: (47 :: name ++ after).map asciiLower =
        (60 :: 47 :: name.map asciiLower) ++ after := by
      rw [List.map_append, hafter]
      rfl
    rw [htext, List.drop_left]
    exact ⟨List.isPrefixOf_iff_prefix.mpr (List.prefix_append _ _), List.all_eq_true.mpr hall⟩
  · left
    have htext : 60 :: 47 :: name.map asciiLower =
        (60 :: text.map asciiLower) ++ name'.map asciiLower := by
      rw [List.cons_append, ← List.map_append, ← hname']
      rfl
    rw [htext]
    exact List.isPrefixOf_iff_prefix.mpr (List.prefix_append _ _)

/-! ## The first closing tag of a growing text -/

theorem matchClosingTag_of_execClosingTag_none
    (h : execClosingTag closeTag (front ++ suffix) = none) (hsuffix : suffix ≠ []) :
    matchClosingTag closeTag suffix = none := by
  induction front with
  | nil =>
      obtain ⟨unit, rest, rfl⟩ := List.exists_cons_of_ne_nil hsuffix
      rw [List.nil_append, execClosingTag] at h
      split at h
      · cases h
      · assumption
  | cons unit front ih =>
      rw [List.cons_append, execClosingTag] at h
      split at h
      · cases h
      · exact ih (Option.map_eq_none_iff.mp h)

/-- Where no closing tag begins, the first one is still to be found. -/
theorem execClosingTag_append (h : ∀ before suffix, front = before ++ suffix → suffix ≠ [] →
      matchClosingTag closeTag (suffix ++ text) = none) :
    execClosingTag closeTag (front ++ text) =
      (execClosingTag closeTag text).map fun (rest, tag, after) => (front ++ rest, tag, after) := by
  induction front with
  | nil => simp
  | cons unit front ih =>
      have hhead := h [] (unit :: front) rfl (List.cons_ne_nil _ _)
      rw [List.cons_append] at hhead
      rw [List.cons_append, execClosingTag, hhead, ih, Option.map_map]
      · rfl
      · intro before suffix hfront hsuffix
        exact h (unit :: before) suffix (by rw [hfront]; rfl) hsuffix

theorem matchClosingTag_of_execClosingTag_some {after before : List Nat}
    (h : execClosingTag closeTag text = some (front, tag, after))
    (hfront : front = before ++ suffix) (hsuffix : suffix ≠ []) :
    matchClosingTag closeTag (suffix ++ (tag ++ after)) = none := by
  have htext := (execClosingTag_eq_some h).2
  induction before generalizing text front with
  | nil =>
      obtain ⟨unit, rest, rfl⟩ := List.exists_cons_of_ne_nil hsuffix
      rw [List.nil_append] at hfront
      rw [htext, hfront, List.cons_append, execClosingTag] at h
      split at h
      · cases (Prod.mk.inj (Option.some.inj h)).1
      · assumption
  | cons unit before ih =>
      rw [htext, hfront, List.cons_append, List.cons_append, execClosingTag] at h
      split at h
      · cases (Prod.mk.inj (Option.some.inj h)).1
      · obtain ⟨⟨front', tag', after'⟩, hrest, heq⟩ := Option.map_eq_some_iff.mp h
        obtain ⟨hcons, hpair⟩ := Prod.mk.inj heq
        obtain ⟨rfl, rfl⟩ := Prod.mk.inj hpair
        obtain rfl := (List.cons.inj hcons).2
        exact ih hrest rfl (execClosingTag_eq_some hrest).2

/-- A closing tag that is found stays the first one. -/
theorem execClosingTag_append_of_some {after : List Nat} (more : List Nat)
    (hclose : ∀ unit ∈ closeTag, isNameUnit unit = true)
    (h : execClosingTag closeTag text = some (front, tag, after)) :
    execClosingTag closeTag (text ++ more) = some (front, tag, after ++ more) := by
  obtain ⟨htag, htext⟩ := execClosingTag_eq_some h
  obtain ⟨inner, hcons, -⟩ := closingTag_eq_cons htag hclose
  have hfound : execClosingTag closeTag (tag ++ (after ++ more)) =
      some ([], tag, after ++ more) := by
    have hmatch := matchClosingTag_of_tag htag (after ++ more)
    have hdrop : (tag ++ (after ++ more)).drop tag.length = after ++ more := List.drop_left
    rw [hcons, List.cons_append] at hmatch hdrop ⊢
    rw [execClosingTag, hmatch]
    dsimp only
    rw [hdrop]
  rw [htext, List.append_assoc, List.append_assoc, execClosingTag_append, hfound]
  · simp
  · intro before suffix hfront hsuffix
    by_contra hsome
    obtain ⟨other, hother⟩ := Option.ne_none_iff_exists'.mp hsome
    obtain ⟨hclosing, rest, hrest⟩ := matchClosingTag_eq_some hother
    have hnone := matchClosingTag_of_execClosingTag_some h hfront hsuffix
    have hassoc : (suffix ++ (tag ++ after)) ++ more = other ++ rest := by
      rw [← hrest]
      simp
    rcases List.append_eq_append_iff.mp hassoc with ⟨late, hlate, -⟩ | ⟨extra, hextra, -⟩
    · -- The other tag would reach over the `<` of the tag.
      obtain ⟨text', hcons', hangle⟩ := closingTag_eq_cons hclosing hclose
      obtain ⟨unit, suffix', rfl⟩ := List.exists_cons_of_ne_nil hsuffix
      rw [hcons', hcons] at hlate
      apply hangle
      rw [(List.cons.inj hlate).2]
      simp
    · rw [hextra, matchClosingTag_of_tag hclosing] at hnone
      cases hnone

/-- What is not held back contains no beginning of a closing tag. -/
theorem execClosingTag_append_of_none {closeTag text : List Nat} (more : List Nat)
    (hclose : ∀ unit ∈ closeTag, isNameUnit unit = true)
    (h : execClosingTag closeTag text = none) :
    execClosingTag closeTag (text ++ more) =
      (execClosingTag closeTag ((heldClosingTag lower text closeTag).2 ++ more)).map
        fun (rest, tag, after) =>
          ((heldClosingTag lower text closeTag).1 ++ rest, tag, after) := by
  have htext := @heldClosingTag_append lower text closeTag
  nth_rewrite 1 [← htext]
  rw [List.append_assoc]
  apply execClosingTag_append
  intro before suffix hfront hsuffix
  by_contra hsome
  obtain ⟨tag, htag⟩ := Option.ne_none_iff_exists'.mp hsome
  obtain ⟨hclosing, rest, hrest⟩ := matchClosingTag_eq_some htag
  have hsplit : text = before ++ (suffix ++ (heldClosingTag lower text closeTag).2) := by
    rw [← List.append_assoc, ← hfront, htext]
  have hne : suffix ++ (heldClosingTag lower text closeTag).2 ≠ [] := by
    simp [hsuffix]
  have hnone : matchClosingTag closeTag (suffix ++ (heldClosingTag lower text closeTag).2) =
      none := by
    rw [hsplit] at h
    exact matchClosingTag_of_execClosingTag_none h hne
  rw [← List.append_assoc] at hrest
  rcases List.append_eq_append_iff.mp hrest with ⟨late, hlate, -⟩ | ⟨extra, hextra, -⟩
  · by_cases hlast : late = []
    · rw [hlast, List.append_nil] at hlate
      have hfound := matchClosingTag_of_tag hclosing []
      rw [List.append_nil, hlate, hnone] at hfound
      cases hfound
    · -- The text ends in the beginning of the tag, which is then held back.
      have hheld := @heldClosingTag_of_tag lower _ _ before _ _ hclosing hclose hne
        hlast hlate
      rw [← hsplit] at hheld
      have hbefore := congrArg Prod.fst hheld
      rw [hfront] at hbefore
      exact hsuffix (List.append_right_eq_self.mp hbefore)
  · rw [hextra, matchClosingTag_of_tag hclosing] at hnone
    cases hnone

/-! ## The message as a whole -/

/-- The segments of a message from a mode on. -/
def readSegments (lower : LowerCase) (tags : List (List Nat)) (mode : Mode) (text : List Nat) :
    List Segment :=
  match mode with
  | .answer => [.answer text]
  | .reasoning closeTag =>
      match _hclosing : execClosingTag closeTag text with
      | some (front, tag, after) =>
          .reasoning front :: .closing tag :: readSegments lower tags .leading after
      | none => [.reasoning text]
  | .leading =>
      let start := trimStart text
      match openingReasoningTag lower tags start with
      | some (tag, name) =>
          .skipped (text.takeWhile isSpace) :: .opening tag ::
            readSegments lower tags (.reasoning name) (start.drop tag.length)
      | none => [.skipped (text.takeWhile isSpace), .answer start]
termination_by 2 * text.length + (if mode = .leading then 1 else 0)
decreasing_by
  · have hlength := length_execClosingTag _hclosing
    simp
    omega
  · have hstart := length_trimStart_le text
    simp
    omega

/-- A cut after `n` characters falls into an opening tag of which the splitter does not
hold back as much as has arrived. -/
def CutsLate (segments : List Segment) (n : Nat) : Prop :=
  ∃ before tag after, segments = before ++ .opening tag :: after ∧
    (textOf before).length + maxHeldOpeningTagLength < n ∧
    n < (textOf before).length + tag.length

theorem cutsLate_cons {segment : Segment} {segments : List Segment} {n : Nat}
    (h : CutsLate segments n) : CutsLate (segment :: segments) (segment.text.length + n) := by
  obtain ⟨before, tag, after, rfl, hlow, hhigh⟩ := h
  refine ⟨segment :: before, tag, after, rfl, ?_, ?_⟩
  · rw [textOf_cons, List.length_append]
    omega
  · rw [textOf_cons, List.length_append]
    omega

theorem not_cutsLate {segments : List Segment} (h : ∀ tag, .opening tag ∉ segments) (n : Nat) :
    ¬CutsLate segments n := by
  rintro ⟨before, tag, after, rfl, -⟩
  exact h tag (List.mem_append_right _ List.mem_cons_self)

theorem cutsLate_of_cons_reasoning {segments : List Segment} {n : Nat}
    (h : CutsLate (.reasoning text :: segments) n) :
    ∃ k, n = text.length + k ∧ CutsLate segments k := by
  obtain ⟨before, tag, after, hsegments, hlow, hhigh⟩ := h
  rcases List.cons_eq_append_iff.mp hsegments with ⟨rfl, hcons⟩ | ⟨before', rfl, rfl⟩
  · cases (List.cons.inj hcons).1
  · rw [textOf_cons, List.length_append] at hlow hhigh
    have htext : (Segment.reasoning text).text.length = text.length := rfl
    refine ⟨n - text.length, by omega, before', tag, after, rfl, by omega, by omega⟩

theorem readSegments_answer (text : List Nat) :
    readSegments lower tags .answer text = [.answer text] := by
  rw [readSegments]

theorem readSegments_closed {closeTag text front tag after : List Nat}
    (h : execClosingTag closeTag text = some (front, tag, after)) :
    readSegments lower tags (.reasoning closeTag) text =
      .reasoning front :: .closing tag :: readSegments lower tags .leading after := by
  rw [readSegments]
  split
  · rename_i front' tag' after' hsome
    rw [h] at hsome
    obtain ⟨rfl, hpair⟩ := Prod.mk.inj (Option.some.inj hsome)
    obtain ⟨rfl, rfl⟩ := Prod.mk.inj hpair
    rfl
  · rename_i hnone
    rw [h] at hnone
    cases hnone

theorem readSegments_unclosed (h : execClosingTag closeTag text = none) :
    readSegments lower tags (.reasoning closeTag) text = [.reasoning text] := by
  rw [readSegments]
  split
  · rename_i hsome
    rw [h] at hsome
    cases hsome
  · rfl

theorem readSegments_opened
    (h : openingReasoningTag lower tags (trimStart text) = some (tag, name)) :
    readSegments lower tags .leading text =
      .skipped (text.takeWhile isSpace) :: .opening tag ::
        readSegments lower tags (.reasoning name) ((trimStart text).drop tag.length) := by
  conv_lhs => rw [readSegments]
  simp only [h]

theorem readSegments_text (h : openingReasoningTag lower tags (trimStart text) = none) :
    readSegments lower tags .leading text =
      [.skipped (text.takeWhile isSpace), .answer (trimStart text)] := by
  conv_lhs => rw [readSegments]
  simp only [h]

/-! ## One push -/

/-- The tag that closes the reasoning is made of the letters of an opening tag. -/
def Mode.Named : Mode → Prop
  | .reasoning closeTag => ∀ unit ∈ closeTag, isNameUnit unit = true
  | .leading | .answer => True

theorem named_of_openingReasoningTag (h : openingReasoningTag lower tags start = some (tag, name)) :
    (Mode.reasoning name).Named := by
  obtain ⟨written, ⟨-, hwritten, -⟩, rfl, -⟩ := openingReasoningTag_eq_some lower tags h
  intro unit hunit
  rw [toLowerCase_name hwritten] at hunit
  obtain ⟨other, hother, rfl⟩ := List.mem_map.mp hunit
  exact isNameUnit_asciiLower.mpr (hwritten other hother)

theorem openingReasoningTag_of_tag (htag : IsOpeningTag tag name)
    (hmem : lower.toLowerCase name ∈ tags) (more : List Nat) :
    openingReasoningTag lower tags (tag ++ more) = some (tag, lower.toLowerCase name) := by
  rw [openingReasoningTag, execOpeningTag_of_tag htag]
  exact if_pos hmem

theorem trimStart_append (more : List Nat) (h : trimStart text ≠ []) :
    trimStart (text ++ more) = trimStart text ++ more ∧
      (text ++ more).takeWhile isSpace = text.takeWhile isSpace := by
  obtain ⟨unit, rest, hcons⟩ := List.exists_cons_of_ne_nil h
  have hunit : ¬isSpace unit = true := by
    have hhead := List.head?_dropWhile_not isSpace text
    rw [show text.dropWhile isSpace = unit :: rest from hcons] at hhead
    simpa using hhead
  obtain ⟨htext, hspaces⟩ := trimStart_eq text
  have hwhole : text ++ more = text.takeWhile isSpace ++ unit :: (rest ++ more) := by
    nth_rewrite 1 [← htext]
    rw [hcons]
    simp
  constructor
  · rw [hcons, trimStart, hwhole, List.dropWhile_append_of_pos hspaces,
      List.dropWhile_cons_of_neg hunit]
    rfl
  · rw [hwhole, List.takeWhile_append_of_pos hspaces, List.takeWhile_cons_of_neg hunit,
      List.append_nil]

theorem drain_answer (text : List Nat) :
    drain lower tags .answer text = (⟨text, []⟩, ⟨.answer, []⟩) := by
  rw [drain]

/-- A message that is pushed as one chunk. -/
theorem drain_flush (mode : Mode) (pending : List Nat) :
    (drain lower tags mode pending).1.append (drain lower tags mode pending).2.flush =
      splitOf (readSegments lower tags mode pending) := by
  fun_induction drain lower tags mode pending with
  | case1 pending =>
      rw [readSegments_answer]
      rfl
  | case2 pending closeTag front tag after hclosing split splitter hdrain ih =>
      rw [hdrain] at ih
      rw [readSegments_closed hclosing, splitOf_cons, splitOf_cons, ← ih]
      simp [Segment.split, InlineReasoningSplit.append]
  | case3 pending closeTag hclosing front held hheld =>
      have happend := @heldClosingTag_append lower pending closeTag
      rw [hheld] at happend
      rw [readSegments_unclosed hclosing, ← happend]
      simp [Segment.split, InlineReasoningSplit.append, InlineReasoningSplitter.flush]
  | case4 pending start hstart =>
      have hnone : openingReasoningTag lower tags (trimStart pending) = none := by
        rw [show trimStart pending = [] from hstart]
        rfl
      rw [readSegments_text hnone]
      simp [Segment.split, InlineReasoningSplit.append, InlineReasoningSplitter.flush]
  | case5 pending start hstart tag name hopening ih =>
      rw [readSegments_opened hopening, ih]
      rfl
  | case6 pending start hstart hopening hheld =>
      rw [readSegments_text hopening]
      simp [Segment.split, InlineReasoningSplit.append, InlineReasoningSplitter.flush]
  | case7 pending start hstart hopening hheld ih =>
      rw [readSegments_text hopening, drain_answer]
      simp [Segment.split, InlineReasoningSplit.append, InlineReasoningSplitter.flush, start]

/-- A tag that has arrived in full is read as it is in the message. -/
theorem openingReasoningTag_append (more : List Nat)
    (h : openingReasoningTag lower tags start = some (tag, name)) :
    openingReasoningTag lower tags (start ++ more) = some (tag, name) ∧
      (start ++ more).drop tag.length = start.drop tag.length ++ more ∧
      tag.length + (start.drop tag.length).length = start.length := by
  obtain ⟨written, htag, rfl, hmem, rest, rfl⟩ := openingReasoningTag_eq_some lower tags h
  rw [List.append_assoc, List.drop_left, List.drop_left, List.length_append]
  exact ⟨openingReasoningTag_of_tag htag hmem _, rfl, rfl⟩

/-- A text that is not held back and begins with no tag only begins with one later if more
of the tag has arrived than is held back. -/
theorem openingReasoningTag_append_of_none (more : List Nat) (hstart : start ≠ [])
    (h : openingReasoningTag lower tags start = none)
    (hheld : ¬(start.length ≤ maxHeldOpeningTagLength ∧
      couldBeOpeningTag lower tags start = true)) :
    openingReasoningTag lower tags (start ++ more) = none ∨
      ∃ tag name, openingReasoningTag lower tags (start ++ more) = some (tag, name) ∧
        maxHeldOpeningTagLength < start.length ∧ start.length < tag.length := by
  cases hopening : openingReasoningTag lower tags (start ++ more) with
  | none => exact Or.inl rfl
  | some found =>
      obtain ⟨tag, name⟩ := found
      right
      refine ⟨tag, name, rfl, ?_⟩
      obtain ⟨written, htag, rfl, hmem, rest, hrest⟩ :=
        openingReasoningTag_eq_some lower tags hopening
      have hfound := openingReasoningTag_of_tag htag hmem
      rcases List.append_eq_append_iff.mp hrest with ⟨late, rfl, -⟩ | ⟨extra, rfl, -⟩
      · by_cases hlate : late = []
        · have hnone := hfound []
          rw [hlate, List.append_nil, List.append_nil, h] at hnone
          cases hnone
        · have hcould := couldBeOpeningTag_of_tag htag hmem hstart hlate rfl
          have hpositive := List.length_pos_of_ne_nil hlate
          rw [List.length_append]
          constructor
          · by_contra hle
            exact hheld ⟨not_lt.mp hle, hcould⟩
          · omega
      · rw [hfound extra] at h
        cases h

/-- What is pushed and what is still to come are read as the message is, unless it is cut
late in an opening tag. -/
theorem drain_append (mode : Mode) (pending more : List Nat) (hmode : mode.Named)
    (hlate : ¬CutsLate (readSegments lower tags mode (pending ++ more)) pending.length) :
    (drain lower tags mode pending).2.mode.Named ∧
    splitOf (readSegments lower tags mode (pending ++ more)) =
      (drain lower tags mode pending).1.append
        (splitOf (readSegments lower tags (drain lower tags mode pending).2.mode
          ((drain lower tags mode pending).2.pending ++ more))) ∧
    ∃ consumed, consumed + (drain lower tags mode pending).2.pending.length = pending.length ∧
      ∀ n, CutsLate (readSegments lower tags (drain lower tags mode pending).2.mode
          ((drain lower tags mode pending).2.pending ++ more)) n →
        CutsLate (readSegments lower tags mode (pending ++ more)) (consumed + n) := by
  fun_induction drain lower tags mode pending with
  | case1 pending =>
      refine ⟨trivial, ?_, pending.length, rfl, ?_⟩
      · rw [readSegments_answer, readSegments_answer]
        simp [Segment.split, InlineReasoningSplit.append]
      · intro n hn
        rw [readSegments_answer] at hn
        exact absurd hn (not_cutsLate (by simp) n)
  | case2 pending closeTag front tag after hclosing split splitter hdrain ih =>
      have hread := @readSegments_closed lower tags _ _ _ _ _
        (execClosingTag_append_of_some more hmode hclosing)
      have hlength : pending.length = front.length + (tag.length + after.length) := by
        rw [(execClosingTag_eq_some hclosing).2, List.length_append, List.length_append]
      have hrest : ¬CutsLate (readSegments lower tags .leading (after ++ more)) after.length := by
        intro hcut
        rw [hread, hlength] at hlate
        exact hlate (cutsLate_cons (cutsLate_cons hcut))
      rw [hdrain] at ih
      obtain ⟨hnamed, hsplit, consumed, hconsumed, hcuts⟩ := ih trivial hrest
      refine ⟨hnamed, ?_, front.length + (tag.length + consumed), ?_, ?_⟩
      · rw [hread, splitOf_cons, splitOf_cons, hsplit]
        simp [Segment.split, InlineReasoningSplit.append]
      · dsimp only at hconsumed ⊢
        omega
      · intro n hn
        rw [hread, Nat.add_assoc, Nat.add_assoc]
        exact cutsLate_cons (cutsLate_cons (hcuts n hn))
  | case3 pending closeTag hclosing front held hheld =>
      have happend := @heldClosingTag_append lower pending closeTag
      have hexec := @execClosingTag_append_of_none lower _ _ more hmode hclosing
      rw [hheld] at happend hexec
      dsimp only at happend hexec ⊢
      have hmore : pending ++ more = front ++ (held ++ more) := by
        rw [← happend, List.append_assoc]
      -- The reasoning goes on in what is held back and what is still to come.
      refine ⟨hmode, ?_, front.length, by rw [← happend, List.length_append], ?_⟩
      · cases hnext : execClosingTag closeTag (held ++ more) with
        | none =>
            rw [hnext] at hexec
            rw [readSegments_unclosed hnext, readSegments_unclosed hexec, hmore]
            simp [Segment.split, InlineReasoningSplit.append]
        | some found =>
            obtain ⟨front', tag, after⟩ := found
            rw [hnext] at hexec
            rw [readSegments_closed hnext, readSegments_closed hexec]
            simp [Segment.split, InlineReasoningSplit.append]
      · intro n hn
        cases hnext : execClosingTag closeTag (held ++ more) with
        | none =>
            rw [readSegments_unclosed hnext] at hn
            exact absurd hn (not_cutsLate (by simp) n)
        | some found =>
            obtain ⟨front', tag, after⟩ := found
            rw [hnext] at hexec
            rw [readSegments_closed hnext] at hn
            rw [readSegments_closed hexec]
            obtain ⟨k, rfl, hk⟩ := cutsLate_of_cons_reasoning hn
            have hcut := @cutsLate_cons (.reasoning (front ++ front')) _ _ hk
            rw [Segment.text, List.length_append, Nat.add_assoc] at hcut
            exact hcut
  | case4 pending start hstart =>
      refine ⟨trivial, by simp, 0, by simp, ?_⟩
      intro n hn
      rw [Nat.zero_add]
      exact hn
  | case5 pending start hstart tag name hopening ih =>
      obtain ⟨htrim, hskip⟩ := trimStart_append more hstart
      obtain ⟨hopened, hdrop, hlength⟩ := openingReasoningTag_append more hopening
      have hread : readSegments lower tags .leading (pending ++ more) =
          .skipped (pending.takeWhile isSpace) :: .opening tag ::
            readSegments lower tags (.reasoning name) (start.drop tag.length ++ more) := by
        rw [← hdrop, ← hskip, ← htrim]
        rw [← htrim] at hopened
        exact readSegments_opened hopened
      have hpending : pending.length =
          (pending.takeWhile isSpace).length + (tag.length + (start.drop tag.length).length) := by
        rw [hlength, ← List.length_append, (trimStart_eq pending).1]
      have hrest : ¬CutsLate (readSegments lower tags (.reasoning name)
          (start.drop tag.length ++ more)) (start.drop tag.length).length := by
        intro hcut
        rw [hread, hpending] at hlate
        exact hlate (cutsLate_cons (cutsLate_cons hcut))
      obtain ⟨hnamed, hsplit, consumed, hconsumed, hcuts⟩ :=
        ih (named_of_openingReasoningTag hopening) hrest
      refine ⟨hnamed, ?_, (pending.takeWhile isSpace).length + (tag.length + consumed), ?_, ?_⟩
      · rw [hread, splitOf_cons, splitOf_cons, hsplit]
        simp [Segment.split]
      · omega
      · intro n hn
        rw [hread, Nat.add_assoc, Nat.add_assoc]
        exact cutsLate_cons (cutsLate_cons (hcuts n hn))
  | case6 pending start hstart hopening hheld =>
      refine ⟨trivial, by simp, 0, by simp, ?_⟩
      intro n hn
      rw [Nat.zero_add]
      exact hn
  | case7 pending start hstart hopening hheld ih =>
      obtain ⟨htrim, hskip⟩ := trimStart_append more hstart
      have hnone : openingReasoningTag lower tags (trimStart (pending ++ more)) = none := by
        rw [htrim]
        rcases openingReasoningTag_append_of_none more hstart hopening hheld with
          hnone | ⟨tag, name, hsome, hlow, hhigh⟩
        · exact hnone
        · -- The message is cut late in this tag.
          exfalso
          apply hlate
          rw [← htrim] at hsome
          rw [readSegments_opened hsome, hskip]
          have hpending : pending.length =
              (pending.takeWhile isSpace).length + (trimStart pending).length := by
            rw [← List.length_append, (trimStart_eq pending).1]
          refine ⟨[.skipped (pending.takeWhile isSpace)], tag, _, rfl, ?_, ?_⟩
          · rw [textOf_cons, textOf_nil, List.append_nil, hpending]
            exact Nat.add_lt_add_left hlow _
          · rw [textOf_cons, textOf_nil, List.append_nil, hpending]
            exact Nat.add_lt_add_left hhigh _
      rw [drain_answer]
      refine ⟨trivial, ?_, pending.length, rfl, ?_⟩
      · rw [readSegments_text hnone, readSegments_answer, htrim]
        simp [Segment.split, InlineReasoningSplit.append, start]
      · intro n hn
        rw [readSegments_answer] at hn
        exact absurd hn (not_cutsLate (by simp) n)

/-- Whatever the splitter finds in what it holds and what is still to come, it has found in
a message that begins with what it was pushed. -/
theorem segmented_drain (mode : Mode) (pending : List Nat) {more : List Nat}
    {segments : List Segment}
    (hsegments : Segmented lower tags (drain lower tags mode pending).2.mode segments)
    (htext : textOf segments = (drain lower tags mode pending).2.pending ++ more) :
    ∃ all, Segmented lower tags mode all ∧ textOf all = pending ++ more ∧
      splitOf all = (drain lower tags mode pending).1.append (splitOf segments) := by
  fun_induction drain lower tags mode pending with
  | case1 pending =>
      obtain ⟨text⟩ := hsegments
      refine ⟨_, .answer (pending ++ text), ?_, ?_⟩
      · simpa [Segment.text] using htext
      · simp [Segment.split, InlineReasoningSplit.append]
  | case2 pending closeTag front tag after hclosing split splitter hdrain ih =>
      rw [hdrain] at ih
      obtain ⟨all, hall, hallText, hallSplit⟩ := ih hsegments htext
      obtain ⟨htag, hpending⟩ := execClosingTag_eq_some hclosing
      refine ⟨_, .closed front htag hall, ?_, ?_⟩
      · rw [textOf_cons, textOf_cons, hallText, hpending]
        simp [Segment.text]
      · rw [splitOf_cons, splitOf_cons, hallSplit]
        simp [Segment.split, InlineReasoningSplit.append]
  | case3 pending closeTag hclosing front held hheld =>
      have happend := @heldClosingTag_append lower pending closeTag
      rw [hheld] at happend
      cases hsegments with
      | unclosed closeTag text =>
          refine ⟨_, .unclosed closeTag (front ++ text), ?_, ?_⟩
          · rw [← happend]
            simpa [Segment.text] using htext
          · simp [Segment.split, InlineReasoningSplit.append]
      | closed text htag hrest =>
          refine ⟨_, .closed (front ++ text) htag hrest, ?_, ?_⟩
          · rw [← happend]
            simpa [Segment.text] using htext
          · simp [Segment.split, InlineReasoningSplit.append]
  | case4 pending start hstart => exact ⟨segments, hsegments, htext, by simp⟩
  | case5 pending start hstart tag name hopening ih =>
      obtain ⟨all, hall, hallText, hallSplit⟩ := ih hsegments htext
      obtain ⟨written, htag, rfl, hmem, rest, hrest⟩ :=
        openingReasoningTag_eq_some lower tags hopening
      obtain ⟨hpending, hspaces⟩ := trimStart_eq pending
      refine ⟨_, .opened hspaces htag hmem hall, ?_, ?_⟩
      · conv_rhs => rw [← hpending, show trimStart pending = _ from hrest]
        rw [textOf_cons, textOf_cons, hallText, show start = _ from hrest, List.drop_left]
        simp [Segment.text]
      · rw [splitOf_cons, splitOf_cons, hallSplit]
        simp [Segment.split]
  | case6 pending start hstart hopening hheld => exact ⟨segments, hsegments, htext, by simp⟩
  | case7 pending start hstart hopening hheld ih =>
      rw [drain_answer] at hsegments htext ⊢
      obtain ⟨hpending, hspaces⟩ := trimStart_eq pending
      obtain ⟨text⟩ := hsegments
      refine ⟨_, .text (start ++ text) hspaces, ?_, ?_⟩
      · conv_rhs => rw [← hpending]
        simpa [Segment.text, start] using htext
      · simp [Segment.split, InlineReasoningSplit.append]

/-! ## A message in chunks -/

/-- What a splitter returns is made up of the segments of what it was pushed. -/
theorem segmented_stream (splitter : InlineReasoningSplitter) (chunks : List (List Nat)) :
    ∃ all, Segmented lower tags splitter.mode all ∧
      textOf all = splitter.pending ++ chunks.flatten ∧
      splitOf all = splitter.stream lower tags chunks := by
  induction chunks generalizing splitter with
  | nil =>
      rcases splitter with ⟨mode, pending⟩
      cases mode with
      | leading =>
          obtain ⟨hpending, hspaces⟩ := trimStart_eq pending
          refine ⟨_, .text (trimStart pending) hspaces, ?_, ?_⟩
          · simpa [Segment.text] using hpending
          · simp [Segment.split, InlineReasoningSplit.append, InlineReasoningSplitter.stream,
              InlineReasoningSplitter.flush]
      | reasoning closeTag =>
          refine ⟨_, .unclosed closeTag pending, by simp [Segment.text], ?_⟩
          simp [Segment.split, InlineReasoningSplit.append, InlineReasoningSplitter.stream,
            InlineReasoningSplitter.flush]
      | answer =>
          refine ⟨_, .answer pending, by simp [Segment.text], ?_⟩
          simp [Segment.split, InlineReasoningSplit.append, InlineReasoningSplitter.stream,
            InlineReasoningSplitter.flush]
  | cons chunk chunks ih =>
      obtain ⟨segments, hsegments, htext, hsplit⟩ := ih (splitter.push lower tags chunk).2
      obtain ⟨all, hall, hallText, hallSplit⟩ := segmented_drain _ _ hsegments htext
      refine ⟨all, hall, ?_, ?_⟩
      · rw [hallText, List.flatten_cons, List.append_assoc]
      · rw [hallSplit, hsplit]
        rfl

/-- No chunk ends late in an opening tag of the message. -/
def NotCutLate (lower : LowerCase) (tags : List (List Nat)) (mode : Mode) (pending : List Nat)
    (chunks : List (List Nat)) : Prop :=
  ∀ before after, chunks = before ++ after →
    ¬CutsLate (readSegments lower tags mode (pending ++ chunks.flatten))
      (pending.length + before.flatten.length)

theorem stream_eq (mode : Mode) (pending : List Nat) (chunks : List (List Nat))
    (hmode : mode.Named) (hlate : NotCutLate lower tags mode pending chunks) :
    (drain lower tags mode pending).1.append
        ((drain lower tags mode pending).2.stream lower tags chunks) =
      splitOf (readSegments lower tags mode (pending ++ chunks.flatten)) := by
  induction chunks generalizing mode pending with
  | nil =>
      rw [List.flatten_nil, List.append_nil]
      exact drain_flush mode pending
  | cons chunk chunks ih =>
      obtain ⟨hnamed, hsplit, consumed, hconsumed, hcuts⟩ :=
        drain_append mode pending (chunk :: chunks).flatten hmode (hlate [] _ rfl)
      rw [hsplit]
      have hnext : (drain lower tags mode pending).2.pending ++ (chunk :: chunks).flatten =
          ((drain lower tags mode pending).2.pending ++ chunk) ++ chunks.flatten := by
        rw [List.flatten_cons, List.append_assoc]
      rw [hnext] at hcuts ⊢
      rw [← ih _ _ hnamed]
      · rfl
      · intro before after hchunks hcut
        apply hlate (chunk :: before) after (by rw [hchunks]; rfl)
        have hlength : pending.length + (chunk :: before).flatten.length =
            consumed + (((drain lower tags mode pending).2.pending ++ chunk).length +
              before.flatten.length) := by
          rw [List.flatten_cons, List.length_append, List.length_append]
          omega
        rw [hlength]
        exact hcuts _ hcut

end Splitter

/-- A splitter that was pushed nothing reads the message from its start. -/
theorem stream_start {lower : LowerCase} {tags : List (List Nat)} (chunks : List (List Nat))
    (hlate : NotCutLate lower tags .leading [] chunks) :
    createInlineReasoningSplitter.stream lower tags chunks =
      splitOf (readSegments lower tags .leading chunks.flatten) := by
  have hstream := stream_eq .leading [] chunks trivial hlate
  have hdrain : drain lower tags .leading [] = (⟨[], []⟩, createInlineReasoningSplitter) := by
    rw [drain]
    rfl
  rw [hdrain, InlineReasoningSplit.empty_append] at hstream
  exact hstream

/-- The complete message is split as its segments say, up to leading white space. -/
theorem splitInlineReasoning_eq (lower : LowerCase) (content : List Nat) :
    let split := splitInlineReasoning lower content
    let read := splitOf (readSegments lower reasoningBlockTags .leading content)
    trimStart read.answer = trimStart split.answer ∧ read.reasoning = split.reasoning := by
  intro split read
  by_cases hangle : (trimStart content).head? ≠ some 60
  · have hsplit : split = ⟨content, []⟩ := if_pos hangle
    have hopening : openingReasoningTag lower reasoningBlockTags (trimStart content) = none := by
      by_contra hsome
      obtain ⟨⟨tag, name⟩, hfound⟩ := Option.ne_none_iff_exists'.mp hsome
      obtain ⟨written, ⟨-, -, attributes, -, rfl⟩, -, -, rest, hrest⟩ :=
        openingReasoningTag_eq_some lower reasoningBlockTags hfound
      rw [hrest] at hangle
      exact hangle rfl
    have hread : read = ⟨trimStart content, []⟩ := by
      simp only [read, readSegments_text hopening]
      simp [Segment.split, InlineReasoningSplit.append]
    rw [hsplit, hread]
    exact ⟨List.dropWhile_idempotent isSpace content, rfl⟩
  · have hsplit : split = read := by
      simp only [split, splitInlineReasoning, if_neg hangle, read]
      exact drain_flush .leading content
    rw [hsplit]
    exact ⟨rfl, rfl⟩

theorem segmented_splitInlineReasoning (lower : LowerCase) (content : List Nat) :
    ∃ segments, Segmented lower reasoningBlockTags .leading segments ∧
      textOf segments = content ∧ splitOf segments = splitInlineReasoning lower content := by
  unfold splitInlineReasoning
  split_ifs with hangle
  · refine ⟨_, .text content (fun unit hunit => absurd hunit List.not_mem_nil), ?_, ?_⟩
    · simp [Segment.text]
    · simp [Segment.split, InlineReasoningSplit.append]
  · obtain ⟨segments, hsegments, htext, hsplit⟩ :=
      @segmented_stream lower reasoningBlockTags createInlineReasoningSplitter [content]
    refine ⟨segments, hsegments, ?_, hsplit⟩
    rw [htext, List.flatten_singleton]
    rfl

/-- The reasoning and the answer of a message do not depend on its chunks, up to leading
white space of the answer, where no chunk ends in an opening tag after more than the
characters that are held back of it; and for all chunks, they are made up of the segments
of the message. -/
theorem streamed_reasoning_agrees (lower : LowerCase) (chunks : List (List Nat)) :
    let streamed := createInlineReasoningSplitter.stream lower reasoningBlockTags chunks
    let whole := splitInlineReasoning lower chunks.flatten
    (NotCutLate lower reasoningBlockTags .leading [] chunks →
      trimStart streamed.answer = trimStart whole.answer ∧
        streamed.reasoning = whole.reasoning) ∧
    (∃ segments, Segmented lower reasoningBlockTags .leading segments ∧
      textOf segments = chunks.flatten ∧ splitOf segments = streamed) ∧
    ∃ segments, Segmented lower reasoningBlockTags .leading segments ∧
      textOf segments = chunks.flatten ∧ splitOf segments = whole := by
  intro streamed whole
  refine ⟨?_, segmented_stream createInlineReasoningSplitter chunks,
    segmented_splitInlineReasoning lower chunks.flatten⟩
  intro hlate
  have hstreamed : streamed =
      splitOf (readSegments lower reasoningBlockTags .leading chunks.flatten) :=
    stream_start chunks hlate
  rw [hstreamed]
  exact splitInlineReasoning_eq lower chunks.flatten

/-- A tag that is cut inside its name and inside the name that closes it is found. -/
theorem short_tag_cut :
    let chunks := ["\n<thi", "nk>so</th", "ink>  Yes"].map utf16Units
    let streamed := createInlineReasoningSplitter.stream asciiLowerCase reasoningBlockTags chunks
    let whole := splitInlineReasoning asciiLowerCase chunks.flatten
    trimStart streamed.answer = trimStart whole.answer ∧
      streamed.reasoning = whole.reasoning := by
  intro chunks streamed whole
  apply (streamed_reasoning_agrees asciiLowerCase chunks).1
  rintro before after hchunks ⟨front, tag, rest, -, hlow, -⟩
  have hlength : chunks.flatten.length ≤ 64 := by decide +kernel
  have hbefore : before.flatten.length + after.flatten.length = chunks.flatten.length := by
    rw [hchunks, List.flatten_append, List.length_append]
  rw [List.length_nil, maxHeldOpeningTagLength] at hlow
  omega

/-- A tag of 68 characters that arrives without its last one is taken for the answer, and
for a tag in the complete message. -/
theorem long_tag_cut_late :
    let chunks := [utf16Units "<think " ++ List.replicate 60 120, utf16Units ">so</think>Yes"]
    let streamed := createInlineReasoningSplitter.stream asciiLowerCase reasoningBlockTags chunks
    let whole := splitInlineReasoning asciiLowerCase chunks.flatten
    ¬(trimStart streamed.answer = trimStart whole.answer ∧
      streamed.reasoning = whole.reasoning) := by
  decide +kernel

end GoatCitadel.Contracts
