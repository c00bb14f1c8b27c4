import GoatCitadel.Contracts.InlineReasoning
import GoatCitadel.Support.Glob
import GoatCitadel.Support.Separated
import GoatCitadel.Support.Words

/-!
# Risk patterns

A risk pattern is looked for in a text with letters of either case.  Its stars stand for
anything, and where it neither starts nor ends with one, it stands between white space, marks
of the shell or the ends of the text.

A text is the list of its UTF-16 code units.
-/

namespace GoatCitadel.Sandbox

open GoatCitadel.Support GoatCitadel.Contracts

/-- `[;&|()]` -/
def isShellMark (unit : Nat) : Bool :=
  unit == 59 || unit == 38 || unit == 124 || unit == 40 || unit == 41

/-- What a pattern may stand next to: `\s|[;&|()]`. -/
def isRiskBoundary (unit : Nat) : Bool :=
  isSpace unit || isShellMark unit

/-- `*` -/
def star : Nat := 42

/-- What `.` matches: all but the ends of lines. -/
def isDot (unit : Nat) : Bool :=
  unit != 0x0A && unit != 0x0D && unit != 0x2028 && unit != 0x2029

/-- The case mapping of the flag `i`, under which no other unit comes to stand for a blank, a
star or a mark of the shell. -/
structure CaseFold where
  canonicalize : Nat → Nat
  eq_of_canonicalize : ∀ unit mark,
    (mark = 0x20 ∨ mark = star ∨ isShellMark mark = true) →
    canonicalize unit = canonicalize mark → unit = mark

/-- `replace(/\s+/g, " ")`, when the unit before the text was white space or not. -/
def collapseSpaces (afterSpace : Bool) : List Nat → List Nat
  | [] => []
  | unit :: text =>
      if isSpace unit = true then
        if afterSpace = true then collapseSpaces true text
        else 0x20 :: collapseSpaces true text
      else unit :: collapseSpaces false text

def normalizeRiskText (value : List Nat) : List Nat :=
  collapseSpaces false (trimUnits value)

/-! ## The matcher -/

/-- What follows a star is looked for at every place that the star can reach. -/
def matchAfterStar (next : List Nat → Bool) : List Nat → Bool
  | [] => next []
  | unit :: text => next (unit :: text) || (isDot unit && matchAfterStar next text)

/-- Whether a pattern matches at the beginning of a text, and what comes behind the match
passes `atEnd`. -/
def matchesHere (fold : CaseFold) (atEnd : List Nat → Bool) : List Nat → List Nat → Bool
  | [], text => atEnd text
  | unit :: pattern, text =>
      if unit = star then matchAfterStar (matchesHere fold atEnd pattern) text
      else
        match text with
        | [] => false
        | found :: text =>
            fold.canonicalize unit == fold.canonicalize found &&
              matchesHere fold atEnd pattern text

/-- `($|\s|[;&|()])` -/
def riskEnd : List Nat → Bool
  | [] => true
  | unit :: _ => isRiskBoundary unit

def matchesAnywhere (here : List Nat → Bool) : List Nat → Bool
  | [] => here []
  | unit :: text => here (unit :: text) || matchesAnywhere here text

def matchesAfterBoundary (here : List Nat → Bool) : List Nat → Bool
  | [] => false
  | unit :: text => (isRiskBoundary unit && here text) || matchesAfterBoundary here text

/-- The test of the expression that a pattern is compiled to.  A pattern without a star neither
starts nor ends with one, and gets both boundaries. -/
def compileBoundedRiskPattern (fold : CaseFold) (pattern text : List Nat) : Bool :=
  let atEnd := if pattern.getLast? = some star then fun _ => true else riskEnd
  let here := matchesHere fold atEnd pattern
  if pattern.head? = some star then matchesAnywhere here text
  else here text || matchesAfterBoundary here text

/-! ## Normalized texts -/

theorem isDot_of_isSpace {unit : Nat} (h : isSpace unit = true → unit = 0x20) :
    isDot unit = true := by
  by_contra hdot
  have hline : unit = 0x0A ∨ unit = 0x0D ∨ unit = 0x2028 ∨ unit = 0x2029 := by
    simp only [isDot, Bool.and_eq_true, bne_iff_ne] at hdot
    omega
  rcases hline with rfl | rfl | rfl | rfl
  all_goals exact absurd (h rfl) (by decide)

variable {text current : List Nat}

/-- A text that ends in a letter has a word. -/
theorem wordsOf_ne_nil (hne : text ≠ []) (hlast : ∀ h : text ≠ [], ¬ isSpace (text.getLast h)) :
    wordsOf isSpace text ≠ [] := by
  intro hnone
  exact hlast hne ((blank_of_wordsAfter_eq_nil hnone).2 _ (List.getLast_mem hne))

theorem last_of_cons {c : Nat} (hne : text ≠ [])
    (hlast : ∀ h : c :: text ≠ [], ¬ isSpace ((c :: text).getLast h)) :
    ∀ h : text ≠ [], ¬ isSpace (text.getLast h) := by
  intro h
  have := hlast (List.cons_ne_nil _ _)
  rwa [List.getLast_cons hne] at this

/-- Collapsing goes on with the word that is being read, and puts one blank before the next. -/
theorem collapseSpaces_eq (hlast : ∀ h : text ≠ [], ¬ isSpace (text.getLast h)) :
    (current ≠ [] → current ++ collapseSpaces false text =
      [0x20].intercalate (wordsAfter isSpace current text)) ∧
    collapseSpaces true text = [0x20].intercalate (wordsOf isSpace text) := by
  induction text generalizing current with
  | nil =>
      constructor
      · intro hne
        rw [wordsAfter, closeWord_of_ne_nil hne, List.intercalate_singleton, collapseSpaces,
          List.append_nil]
      · rfl
  | cons c text ih =>
      by_cases hc : isSpace c = true
      · have hne : text ≠ [] := by
          rintro rfl
          exact hlast (List.cons_ne_nil _ _) hc
        have hrest := last_of_cons hne hlast
        have hword := wordsOf_ne_nil hne hrest
        constructor
        · intro hcurrent
          rw [collapseSpaces, if_pos hc, if_neg (by decide), (@ih [] hrest).2,
            wordsAfter_cons_of_blank hc, closeWord_of_ne_nil hcurrent, List.singleton_append,
            List.intercalate_cons_of_ne_nil hword, List.append_assoc]
          rfl
        · rw [collapseSpaces, if_pos hc, if_pos rfl, (@ih [] hrest).2, wordsOf, wordsOf,
            wordsAfter_cons_of_blank hc]
          rfl
      · have hletter := Bool.eq_false_iff.mpr hc
        have hstep : ∀ current : List Nat, current ++ c :: collapseSpaces false text =
            [0x20].intercalate (wordsAfter isSpace (current ++ [c]) text) := by
          intro current
          by_cases hne : text = []
          · rw [hne, wordsAfter, collapseSpaces,
              closeWord_of_ne_nil (List.append_ne_nil_of_right_ne_nil _ (List.cons_ne_nil _ _)),
              List.intercalate_singleton]
          · have hnext := (@ih (current ++ [c]) (last_of_cons hne hlast)).1
              (List.append_ne_nil_of_right_ne_nil _ (List.cons_ne_nil _ _))
            rw [← hnext, List.append_assoc]
            rfl
        constructor
        · intro _
          rw [collapseSpaces, if_neg hc, wordsAfter_cons_of_letter hletter]
          exact hstep current
        · rw [collapseSpaces, if_neg hc, wordsOf, wordsAfter_cons_of_letter hletter]
          exact hstep []

/-- The words of a text do not change when it is trimmed. -/
theorem wordsOf_trimUnits (text : List Nat) :
    wordsOf isSpace (trimUnits text) = wordsOf isSpace text := by
  rw [trimUnits, wordsOf_rdropWhile, trimStart, wordsOf_dropWhile]

theorem head_trimUnits {c : Nat} {rest : List Nat} (h : trimUnits text = c :: rest) :
    isSpace c = false := by
  have hprefix : trimUnits text <+: text.dropWhile isSpace :=
    List.rdropWhile_prefix _ _
  obtain ⟨tail, htail⟩ := hprefix
  have hhead := List.head?_dropWhile_not isSpace text
  rw [← htail, h, List.cons_append] at hhead
  exact hhead

/-- A normalized text is its words with one blank between them. -/
theorem normalizeRiskText_eq (value : List Nat) :
    normalizeRiskText value = [0x20].intercalate (wordsOf isSpace value) := by
  have hlast : ∀ h : trimUnits value ≠ [], ¬ isSpace ((trimUnits value).getLast h) :=
    fun h => List.rdropWhile_last_not _ _ h
  rw [← wordsOf_trimUnits, ← (@collapseSpaces_eq _ [] hlast).2, normalizeRiskText]
  -- A text that begins with a letter is collapsed in the same way after a blank.
  cases htrim : trimUnits value with
  | nil => rfl
  | cons c rest =>
      have hletter := Bool.eq_false_iff.mp (head_trimUnits htrim)
      rw [collapseSpaces, collapseSpaces, if_neg hletter, if_neg hletter]

theorem normalizeRiskText_ne_nil (h : trimUnits text ≠ []) : normalizeRiskText text ≠ [] := by
  rw [normalizeRiskText]
  cases htrim : trimUnits text with
  | nil => exact absurd htrim h
  | cons c rest =>
      rw [collapseSpaces, if_neg (Bool.eq_false_iff.mp (head_trimUnits htrim))]
      exact List.cons_ne_nil _ _

/-- The only white space of a normalized text is the blank. -/
theorem eq_blank_of_mem_normalizeRiskText {value : List Nat} {unit : Nat}
    (hmem : unit ∈ normalizeRiskText value) (hspace : isSpace unit = true) : unit = 0x20 := by
  rw [normalizeRiskText_eq] at hmem
  rcases mem_intercalate hmem with hblank | ⟨word, hword, hin⟩
  · exact hblank
  · rw [(isWord_of_mem_wordsOf hword).2 unit hin] at hspace
    cases hspace

theorem isDot_of_mem_normalizeRiskText {value : List Nat} :
    ∀ unit ∈ normalizeRiskText value, isDot unit = true :=
  fun _ hmem => isDot_of_isSpace (eq_blank_of_mem_normalizeRiskText hmem)

/-! ## Occurrences -/

/-- What a pattern stands for, letters of either case being the same. -/
def Reads (fold : CaseFold) (pattern text : List Nat) : Prop :=
  Glob (fold.canonicalize star) (fun _ => True) (pattern.map fold.canonicalize)
    (text.map fold.canonicalize)

/-- A pattern that does not start with a star starts at the beginning of the text or behind a
boundary. -/
def StartsBehind (pattern front : List Nat) : Prop :=
  pattern.head? = some star ∨ ∀ unit ∈ front.getLast?, isRiskBoundary unit = true

/-- A pattern that does not end with a star ends at the end of the text or before a boundary. -/
def EndsBefore (pattern back : List Nat) : Prop :=
  pattern.getLast? = some star ∨ ∀ unit ∈ back.head?, isRiskBoundary unit = true

/-- The places of a text in which a pattern is found. -/
def Occurs (fold : CaseFold) (pattern text : List Nat) : Prop :=
  ∃ front middle back, text = front ++ (middle ++ back) ∧ Reads fold pattern middle ∧
    StartsBehind pattern front ∧ EndsBefore pattern back

section Matcher

variable {fold : CaseFold} {atEnd next here : List Nat → Bool} {pattern text : List Nat}

theorem matchAfterStar_iff (hdots : ∀ unit ∈ text, isDot unit = true) :
    matchAfterStar next text = true ↔
      ∃ skipped rest, text = skipped ++ rest ∧ next rest = true := by
  induction text with
  | nil =>
      constructor
      · intro h
        exact ⟨[], [], rfl, h⟩
      · rintro ⟨skipped, rest, hnil, h⟩
        obtain ⟨-, rfl⟩ := List.append_eq_nil_iff.mp hnil.symm
        exact h
  | cons unit text ih =>
      obtain ⟨hunit, htext⟩ := List.forall_mem_cons.mp hdots
      rw [matchAfterStar, Bool.or_eq_true, Bool.and_eq_true, ih htext]
      constructor
      · rintro (h | ⟨-, skipped, rest, rfl, h⟩)
        · exact ⟨[], _, rfl, h⟩
        · exact ⟨unit :: skipped, rest, rfl, h⟩
      · rintro ⟨skipped, rest, hcut, h⟩
        cases skipped with
        | nil =>
            left
            rwa [hcut]
        | cons found skipped =>
            obtain ⟨-, rfl⟩ := List.cons.inj hcut
            exact .inr ⟨hunit, skipped, rest, rfl, h⟩

theorem canonicalize_ne_star {unit : Nat} (h : unit ≠ star) :
    fold.canonicalize unit ≠ fold.canonicalize star :=
  fun hsame => h (fold.eq_of_canonicalize unit star (.inr (.inl rfl)) hsame)

theorem reads_nil_iff : Reads fold [] text ↔ text = [] := by
  constructor
  · intro h
    exact List.map_eq_nil_iff.mp (Glob.eq_of_not_mem List.not_mem_nil h)
  · rintro rfl
    exact .nil

theorem reads_star_cons_iff :
    Reads fold (star :: pattern) text ↔
      ∃ skipped rest, text = skipped ++ rest ∧ Reads fold pattern rest := by
  rw [Reads, List.map_cons, Glob.star_cons_iff fun _ => trivial]
  constructor
  · rintro ⟨skipped, rest, hcut, hrest⟩
    obtain ⟨front, tail, rfl, -, rfl⟩ := List.map_eq_append_iff.mp hcut
    exact ⟨front, tail, rfl, hrest⟩
  · rintro ⟨skipped, rest, rfl, hrest⟩
    exact ⟨_, _, List.map_append, hrest⟩

theorem reads_letter_cons_iff {unit : Nat} (h : unit ≠ star) :
    Reads fold (unit :: pattern) text ↔
      ∃ found rest, text = found :: rest ∧ fold.canonicalize unit = fold.canonicalize found ∧
        Reads fold pattern rest := by
  have hstar : fold.canonicalize star ∉ [fold.canonicalize unit] := by
    rw [List.mem_singleton]
    exact (canonicalize_ne_star h).symm
  rw [Reads, List.map_cons, ← List.singleton_append, Glob.append_of_not_mem_iff hstar]
  constructor
  · rintro ⟨rest, hcut, hrest⟩
    obtain ⟨found, tail, rfl, hfound, rfl⟩ := List.map_eq_cons_iff.mp hcut
    exact ⟨found, tail, rfl, hfound.symm, hrest⟩
  · rintro ⟨found, rest, rfl, hsame, hrest⟩
    refine ⟨_, ?_, hrest⟩
    rw [List.map_cons, hsame]
    rfl

theorem matchesHere_nil : matchesHere fold atEnd [] text = atEnd text := by
  cases text <;> rfl

theorem matchesHere_star_cons :
    matchesHere fold atEnd (star :: pattern) text =
      matchAfterStar (matchesHere fold atEnd pattern) text := by
  cases text <;> rfl

theorem matchesHere_letter_cons {unit found : Nat} (h : unit ≠ star) :
    matchesHere fold atEnd (unit :: pattern) (found :: text) =
      (fold.canonicalize unit == fold.canonicalize found &&
        matchesHere fold atEnd pattern text) := by
  rw [matchesHere, if_neg h]

/-- The matcher finds the beginnings of a text that the pattern stands for. -/
theorem matchesHere_iff (hdots : ∀ unit ∈ text, isDot unit = true) :
    matchesHere fold atEnd pattern text = true ↔
      ∃ middle back, text = middle ++ back ∧ Reads fold pattern middle ∧ atEnd back = true := by
  induction pattern generalizing text with
  | nil =>
      rw [matchesHere_nil]
      constructor
      · intro h
        exact ⟨[], text, rfl, .nil, h⟩
      · rintro ⟨middle, back, rfl, hreads, h⟩
        rwa [reads_nil_iff.mp hreads]
  | cons unit pattern ih =>
      by_cases hstar : unit = star
      · rw [hstar, matchesHere_star_cons, matchAfterStar_iff hdots]
        constructor
        · rintro ⟨skipped, rest, rfl, h⟩
          obtain ⟨middle, back, rfl, hreads, hend⟩ :=
            (ih fun unit hmem => hdots unit (List.mem_append_right _ hmem)).mp h
          exact ⟨skipped ++ middle, back, (List.append_assoc _ _ _).symm,
            reads_star_cons_iff.mpr ⟨skipped, middle, rfl, hreads⟩, hend⟩
        · rintro ⟨middle, back, rfl, hreads, hend⟩
          obtain ⟨skipped, rest, rfl, hrest⟩ := reads_star_cons_iff.mp hreads
          rw [List.append_assoc] at hdots ⊢
          exact ⟨skipped, rest ++ back, rfl,
            (ih fun unit hmem => hdots unit (List.mem_append_right _ hmem)).mpr
              ⟨rest, back, rfl, hrest, hend⟩⟩
      · cases text with
        | nil =>
            refine iff_of_false (by rw [matchesHere, if_neg hstar]; exact Bool.false_ne_true) ?_
            rintro ⟨middle, back, hcut, hreads, -⟩
            obtain ⟨rfl, -⟩ := List.append_eq_nil_iff.mp hcut.symm
            obtain ⟨found, rest, hnil, -⟩ := (reads_letter_cons_iff hstar).mp hreads
            exact List.cons_ne_nil _ _ hnil.symm
        | cons found text =>
            obtain ⟨-, htext⟩ := List.forall_mem_cons.mp hdots
            rw [matchesHere_letter_cons hstar, Bool.and_eq_true, beq_iff_eq, ih htext]
            constructor
            · rintro ⟨hsame, middle, back, rfl, hreads, hend⟩
              exact ⟨found :: middle, back, rfl,
                (reads_letter_cons_iff hstar).mpr ⟨found, middle, rfl, hsame, hreads⟩, hend⟩
            · rintro ⟨middle, back, hcut, hreads, hend⟩
              obtain ⟨_, rest, rfl, hsame, hrest⟩ := (reads_letter_cons_iff hstar).mp hreads
              obtain ⟨rfl, rfl⟩ := List.cons.inj hcut
              exact ⟨hsame, rest, back, rfl, hrest, hend⟩

theorem matchesAnywhere_iff :
    matchesAnywhere here text = true ↔
      ∃ front rest, text = front ++ rest ∧ here rest = true := by
  induction text with
  | nil =>
      constructor
      · intro h
        exact ⟨[], [], rfl, h⟩
      · rintro ⟨front, rest, hnil, h⟩
        obtain ⟨-, rfl⟩ := List.append_eq_nil_iff.mp hnil.symm
        exact h
  | cons unit text ih =>
      rw [matchesAnywhere, Bool.or_eq_true, ih]
      constructor
      · rintro (h | ⟨front, rest, rfl, h⟩)
        · exact ⟨[], _, rfl, h⟩
        · exact ⟨unit :: front, rest, rfl, h⟩
      · rintro ⟨front, rest, hcut, h⟩
        cases front with
        | nil =>
            left
            rwa [hcut]
        | cons found front =>
            obtain ⟨-, rfl⟩ := List.cons.inj hcut
            exact .inr ⟨front, rest, rfl, h⟩

theorem matchesAfterBoundary_iff :
    matchesAfterBoundary here text = true ↔
      ∃ front unit rest, text = front ++ unit :: rest ∧ isRiskBoundary unit = true ∧
        here rest = true := by
  induction text with
  | nil =>
      refine iff_of_false Bool.false_ne_true ?_
      rintro ⟨front, unit, rest, hnil, -⟩
      exact List.append_ne_nil_of_right_ne_nil _ (List.cons_ne_nil _ _) hnil.symm
  | cons found text ih =>
      rw [matchesAfterBoundary, Bool.or_eq_true, Bool.and_eq_true, ih]
      constructor
      · rintro (⟨hboundary, h⟩ | ⟨front, unit, rest, rfl, h⟩)
        · exact ⟨[], found, text, rfl, hboundary, h⟩
        · exact ⟨found :: front, unit, rest, rfl, h⟩
      · rintro ⟨front, unit, rest, hcut, hboundary, h⟩
        cases front with
        | nil =>
            obtain ⟨rfl, rfl⟩ := List.cons.inj hcut
            exact .inl ⟨hboundary, h⟩
        | cons other front =>
            obtain ⟨-, rfl⟩ := List.cons.inj hcut
            exact .inr ⟨front, unit, rest, rfl, hboundary, h⟩

theorem riskEnd_iff {back : List Nat} :
    riskEnd back = true ↔ ∀ unit ∈ back.head?, isRiskBoundary unit = true := by
  cases back with
  | nil =>
      refine iff_of_true rfl ?_
      intro unit hmem
      cases hmem
  | cons unit back =>
      constructor
      · rintro h found hmem
        rwa [← Option.some.inj hmem]
      · intro h
        exact h unit rfl

/-- In a text of one line the compiled expression finds the occurrences of the pattern. -/
theorem compileBoundedRiskPattern_iff (hdots : ∀ unit ∈ text, isDot unit = true) :
    compileBoundedRiskPattern fold pattern text = true ↔ Occurs fold pattern text := by
  have hend : ∀ back, (if pattern.getLast? = some star then fun _ => true else riskEnd) back = true
      ↔ EndsBefore pattern back := by
    intro back
    by_cases hlast : pattern.getLast? = some star
    · rw [if_pos hlast]
      exact iff_of_true rfl (.inl hlast)
    · rw [if_neg hlast, riskEnd_iff, EndsBefore, or_iff_right hlast]
  have hhere : ∀ rest, rest <:+ text →
      (matchesHere fold (if pattern.getLast? = some star then fun _ => true else riskEnd) pattern
        rest = true ↔ ∃ middle back, rest = middle ++ back ∧ Reads fold pattern middle ∧
          EndsBefore pattern back) := by
    intro rest hsuffix
    rw [matchesHere_iff fun unit hmem => hdots unit (hsuffix.mem hmem)]
    simp only [hend]
  rw [compileBoundedRiskPattern]
  by_cases hfirst : pattern.head? = some star
  · rw [if_pos hfirst, matchesAnywhere_iff]
    constructor
    · rintro ⟨front, rest, rfl, h⟩
      obtain ⟨middle, back, rfl, hreads, hback⟩ := (hhere rest (List.suffix_append _ _)).mp h
      exact ⟨front, middle, back, rfl, hreads, .inl hfirst, hback⟩
    · rintro ⟨front, middle, back, rfl, hreads, -, hback⟩
      exact ⟨front, middle ++ back, rfl, (hhere _ (List.suffix_append _ _)).mpr
        ⟨middle, back, rfl, hreads, hback⟩⟩
  · rw [if_neg hfirst, Bool.or_eq_true, matchesAfterBoundary_iff]
    constructor
    · rintro (h | ⟨front, unit, rest, rfl, hunit, h⟩)
      · obtain ⟨middle, back, rfl, hreads, hback⟩ := (hhere _ List.suffix_rfl).mp h
        refine ⟨[], middle, back, rfl, hreads, .inr ?_, hback⟩
        intro unit hmem
        cases hmem
      · have hsuffix : rest <:+ front ++ unit :: rest :=
          (List.suffix_cons unit rest).trans (List.suffix_append _ _)
        obtain ⟨middle, back, rfl, hreads, hback⟩ := (hhere _ hsuffix).mp h
        refine ⟨front ++ [unit], middle, back, (List.append_cons _ _ _), hreads, .inr ?_, hback⟩
        intro found hmem
        rw [List.getLast?_concat] at hmem
        rwa [← Option.some.inj hmem]
    · rintro ⟨front, middle, back, rfl, hreads, hfront, hback⟩
      have hboundary := hfront.resolve_left hfirst
      rcases List.eq_nil_or_concat' front with rfl | ⟨front, unit, rfl⟩
      · exact .inl ((hhere _ List.suffix_rfl).mpr ⟨middle, back, rfl, hreads, hback⟩)
      · refine .inr ⟨front, unit, middle ++ back, (List.append_cons _ _ _).symm, ?_, ?_⟩
        · exact hboundary unit List.getLast?_concat
        · exact (hhere _ (List.suffix_append _ _)).mpr ⟨middle, back, rfl, hreads, hback⟩

end Matcher

/-! ## How occurrences compose -/

section Compose

variable {fold : CaseFold} {pattern pattern' text joined : List Nat}

theorem Reads.split (h : Reads fold (pattern ++ pattern') text) :
    ∃ front back, text = front ++ back ∧ Reads fold pattern front ∧
      Reads fold pattern' back := by
  rw [Reads, List.map_append] at h
  obtain ⟨front, back, hcut, hfront, hback⟩ := h.split
  obtain ⟨text₁, text₂, rfl, rfl, rfl⟩ := List.map_eq_append_iff.mp hcut
  exact ⟨text₁, text₂, rfl, hfront, hback⟩

theorem reads_letter_iff {unit : Nat} (h : unit ≠ star) :
    Reads fold [unit] text ↔
      ∃ found, text = [found] ∧ fold.canonicalize unit = fold.canonicalize found := by
  rw [reads_letter_cons_iff h]
  constructor
  · rintro ⟨found, rest, rfl, hsame, hrest⟩
    rw [reads_nil_iff.mp hrest]
    exact ⟨found, rfl, hsame⟩
  · rintro ⟨found, rfl, hsame⟩
    exact ⟨found, [], rfl, hsame, reads_nil_iff.mpr rfl⟩

/-- No other letter stands for a boundary of a normalized text. -/
theorem reads_boundary {unit : Nat} (hspace : isSpace unit = true → unit = 0x20)
    (hboundary : isRiskBoundary unit = true) (h : Reads fold [unit] text) : text = [unit] := by
  have hmark : unit = 0x20 ∨ isShellMark unit = true :=
    (Bool.or_eq_true_iff.mp hboundary).imp_left hspace
  have hstar : unit ≠ star := by
    rintro rfl
    exact absurd hboundary (by decide)
  obtain ⟨found, rfl, hsame⟩ := (reads_letter_iff hstar).mp h
  have hfound := fold.eq_of_canonicalize found unit (hmark.imp_right .inr) hsame.symm
  rw [hfound]

/-- A star at an end of what a pattern stands for can only come from a star of the pattern. -/
theorem head?_ne_star_of_reads (hne : pattern ≠ []) (h : pattern.head? ≠ some star)
    (hreads : Reads fold pattern text) (rest : List Nat) : (text ++ rest).head? ≠ some star := by
  cases pattern with
  | nil => exact absurd rfl hne
  | cons unit pattern =>
      have hstar : unit ≠ star := fun hsame => h (by rw [hsame]; rfl)
      obtain ⟨found, tail, rfl, hsame, -⟩ := (reads_letter_cons_iff hstar).mp hreads
      intro hfound
      obtain rfl := Option.some.inj hfound
      exact canonicalize_ne_star hstar hsame

theorem getLast?_ne_star_of_reads (hne : pattern ≠ []) (h : pattern.getLast? ≠ some star)
    (hreads : Reads fold pattern text) (front : List Nat) :
    (front ++ text).getLast? ≠ some star := by
  rcases List.eq_nil_or_concat' pattern with rfl | ⟨pattern, unit, rfl⟩
  · exact absurd rfl hne
  · rw [List.getLast?_concat] at h
    have hstar : unit ≠ star := fun hsame => h (by rw [hsame])
    obtain ⟨first, last, rfl, -, hlast⟩ := hreads.split
    obtain ⟨found, rfl, hsame⟩ := (reads_letter_iff hstar).mp hlast
    rw [← List.append_assoc, List.getLast?_concat]
    intro hfound
    obtain rfl := Option.some.inj hfound
    exact canonicalize_ne_star hstar hsame

theorem Occurs.refl (text : List Nat) : Occurs fold text text := by
  refine ⟨[], text, [], (List.append_nil _).symm, Glob.refl _, .inr ?_, .inr ?_⟩
  all_goals
    intro unit hmem
    cases hmem

/-- What occurs in a normalized text that occurs in another one occurs there as well. -/
theorem Occurs.trans (hne : pattern ≠ [])
    (hspaces : ∀ unit ∈ joined, isSpace unit = true → unit = 0x20)
    (h : Occurs fold pattern joined) (h' : Occurs fold joined text) : Occurs fold pattern text := by
  obtain ⟨front, middle, back, rfl, hreads, hfront, hback⟩ := h
  obtain ⟨start, whole, finish, rfl, hwhole, hstart, hfinish⟩ := h'
  obtain ⟨before, rest, rfl, hbefore, hrest⟩ := hwhole.split
  obtain ⟨inside, after, rfl, hinside, hafter⟩ := hrest.split
  refine ⟨start ++ before, inside, after ++ finish, ?_, hreads.trans hinside, ?_, ?_⟩
  · rw [List.append_assoc, List.append_assoc, List.append_assoc]
  · rcases hfront with hstar | hboundary
    · exact .inl hstar
    by_cases hstar : pattern.head? = some star
    · exact .inl hstar
    right
    rcases List.eq_nil_or_concat' front with rfl | ⟨front, unit, rfl⟩
    · -- The pattern is at the beginning of the first text.
      rw [reads_nil_iff.mp hbefore, List.append_nil]
      exact hstart.resolve_left (head?_ne_star_of_reads hne hstar hreads back)
    · obtain ⟨first, last, rfl, -, hlast⟩ := hbefore.split
      have hunit : isRiskBoundary unit = true := hboundary unit List.getLast?_concat
      have hspace := hspaces unit (List.mem_append_left _ (List.mem_append_right _
        List.mem_cons_self))
      rw [reads_boundary hspace hunit hlast, ← List.append_assoc, List.getLast?_concat]
      intro found hmem
      rwa [← Option.some.inj hmem]
  · rcases hback with hstar | hboundary
    · exact .inl hstar
    by_cases hstar : pattern.getLast? = some star
    · exact .inl hstar
    right
    cases back with
    | nil =>
        rw [reads_nil_iff.mp hafter, List.nil_append]
        refine hfinish.resolve_left ?_
        rw [List.append_nil]
        exact getLast?_ne_star_of_reads hne hstar hreads front
    | cons unit back =>
        rw [← List.singleton_append] at hafter
        obtain ⟨first, last, rfl, hfirst, -⟩ := hafter.split
        have hunit : isRiskBoundary unit = true := hboundary unit rfl
        have hspace := hspaces unit (List.mem_append_right _ (List.mem_append_right _
          List.mem_cons_self))
        rw [reads_boundary hspace hunit hfirst]
        intro found hmem
        rwa [← Option.some.inj hmem]

end Compose

end GoatCitadel.Sandbox
