import GoatCitadel.Sandbox.HostEgress
import GoatCitadel.Support.Glob

/-!
# Allowlist patterns

`matchesAllowlistPattern` looks for the first occurrence of each segment of a pattern, and
asks apart from that whether the candidate ends in the last one.  The first occurrence leaves
the most for the segments after it, so nothing is missed; and where the last segment occurs
after the others, the end of the candidate is after them too, so nothing is counted twice.
-/

namespace GoatCitadel.Sandbox

open GoatCitadel.Support

/-- The words of a pattern, with `*` for any word. -/
abbrev Matches (pattern text : List Char) : Prop :=
  Glob '*' (fun _ => True) pattern text

/-- A star in front of a pattern is any beginning of the candidate. -/
theorem matches_star_cons_iff {pattern text : List Char} :
    Matches ('*' :: pattern) text ↔
      ∃ skipped rest, text = skipped ++ rest ∧ Matches pattern rest :=
  Glob.star_cons_iff fun _ => trivial

section Segments

variable {segment text skipped rest : List Char} {segments : List (List Char)}

theorem afterFirst_eq_some (h : afterFirst segment text = some rest) :
    ∃ skipped, text = skipped ++ (segment ++ rest) := by
  induction text with
  | nil =>
      rw [afterFirst] at h
      split_ifs at h with hnil
      obtain rfl := Option.some.inj h
      exact ⟨[], by rw [hnil]; rfl⟩
  | cons c text ih =>
      rw [afterFirst] at h
      split_ifs at h with hstart
      · obtain rfl := Option.some.inj h
        obtain ⟨tail, htail⟩ := List.isPrefixOf_iff_prefix.mp hstart
        refine ⟨[], ?_⟩
        rw [← htail, List.drop_left]
        rfl
      · obtain ⟨skipped, hskipped⟩ := ih h
        exact ⟨c :: skipped, by rw [hskipped]; rfl⟩

/-- The first occurrence is not after any other one. -/
theorem afterFirst_of_occurs (h : text = skipped ++ (segment ++ rest)) :
    ∃ first, afterFirst segment text = some first ∧ rest <:+ first := by
  induction text generalizing skipped with
  | nil =>
      obtain ⟨-, hnil⟩ := List.append_eq_nil_iff.mp h.symm
      obtain ⟨rfl, rfl⟩ := List.append_eq_nil_iff.mp hnil
      exact ⟨[], rfl, List.suffix_rfl⟩
  | cons c text ih =>
      rw [afterFirst]
      by_cases hstart : segment.isPrefixOf (c :: text) = true
      · rw [if_pos hstart]
        refine ⟨_, rfl, ?_⟩
        apply List.suffix_of_suffix_length_le _ (List.drop_suffix _ _)
        · rw [List.length_drop, h, List.length_append, List.length_append]
          omega
        · rw [h, ← List.append_assoc]
          exact List.suffix_append _ _
      · rw [if_neg hstart]
        cases skipped with
        | nil =>
            refine absurd (List.isPrefixOf_iff_prefix.mpr ?_) hstart
            rw [h]
            exact List.prefix_append _ _
        | cons d skipped => exact ih (List.cons.inj h).2

/-- There is room for the last segment where the segments occur. -/
theorem length_getLastD_le (h : segmentsOccur segments text = true) :
    (segments.getLastD []).length ≤ text.length := by
  induction segments generalizing text with
  | nil => exact Nat.zero_le _
  | cons segment segments ih =>
      have hlast : (segment :: segments).getLastD [] = segments.getLastD segment :=
        List.getLastD_cons
      rw [segmentsOccur] at h
      by_cases hmore : segments = []
      · rw [hlast, hmore, List.getLastD_nil]
        split_ifs at h with hnil
        · rw [hnil]
          exact Nat.zero_le _
        · cases hfirst : afterFirst segment text with
          | none =>
              rw [hfirst] at h
              cases h
          | some rest =>
              obtain ⟨skipped, rfl⟩ := afterFirst_eq_some hfirst
              rw [List.length_append, List.length_append]
              omega
      · have hsame : segments.getLastD segment = segments.getLastD [] := by
          rw [List.getLastD_eq_getLast?, List.getLastD_eq_getLast?,
            List.getLast?_eq_some_getLast hmore]
          rfl
        rw [hlast, hsame]
        split_ifs at h with hnil
        · exact ih h
        · cases hfirst : afterFirst segment text with
          | none =>
              rw [hfirst] at h
              cases h
          | some rest =>
              rw [hfirst] at h
              obtain ⟨skipped, rfl⟩ := afterFirst_eq_some hfirst
              have hrest := ih h
              rw [List.length_append, List.length_append]
              omega

/-- The last of more than one segment. -/
theorem getLastD_cons_cons {next : List Char} :
    (segment :: next :: segments).getLastD [] = (next :: segments).getLastD [] := by
  rw [List.getLastD_cons, List.getLastD_cons, List.getLastD_cons]

/-- The search finds the segments where a star in front of the pattern that they make up, and
one between any two of them, can be filled in. -/
theorem segmentsOccur_iff (hne : segments ≠ [])
    (hstar : ∀ segment ∈ segments, '*' ∉ segment) :
    (segmentsOccur segments text = true ∧ segments.getLastD [] <:+ text) ↔
      Matches ('*' :: ['*'].intercalate segments) text := by
  have hany : ∀ c : Char, True := fun _ => trivial
  induction segments generalizing text with
  | nil => exact absurd rfl hne
  | cons segment segments ih =>
      obtain ⟨hsegment, hsegments⟩ := List.forall_mem_cons.mp hstar
      cases segments with
      | nil =>
          rw [List.intercalate_singleton, matches_star_cons_iff, List.getLastD_cons,
            List.getLastD_nil]
          constructor
          · rintro ⟨-, skipped, rfl⟩
            exact ⟨skipped, segment, rfl, Glob.self_of_not_mem hsegment⟩
          · rintro ⟨skipped, rest, rfl, hrest⟩
            obtain rfl := Glob.eq_of_not_mem hsegment hrest
            refine ⟨?_, List.suffix_append _ _⟩
            rw [segmentsOccur]
            by_cases hnil : rest = []
            · rw [if_pos hnil]
              rfl
            · have hoccurs : skipped ++ rest = skipped ++ (rest ++ []) := by rw [List.append_nil]
              obtain ⟨first, hfirst, -⟩ := afterFirst_of_occurs hoccurs
              rw [if_neg hnil, hfirst]
              rfl
      | cons next segments =>
          have hnext := fun text => @ih text (List.cons_ne_nil _ _) hsegments
          rw [getLastD_cons_cons, intercalate_cons (List.cons_ne_nil _ _),
            matches_star_cons_iff]
          constructor
          · rintro ⟨hoccurs, hlast⟩
            rw [segmentsOccur] at hoccurs
            by_cases hnil : segment = []
            · rw [if_pos hnil] at hoccurs
              refine ⟨[], text, rfl, ?_⟩
              rw [hnil, List.nil_append]
              exact (hnext text).mp ⟨hoccurs, hlast⟩
            · rw [if_neg hnil] at hoccurs
              cases hfirst : afterFirst segment text with
              | none =>
                  rw [hfirst] at hoccurs
                  cases hoccurs
              | some rest =>
                  rw [hfirst] at hoccurs
                  obtain ⟨skipped, rfl⟩ := afterFirst_eq_some hfirst
                  -- The end of the candidate is after the segments before the last one.
                  have hend : (next :: segments).getLastD [] <:+ rest := by
                    apply List.suffix_of_suffix_length_le hlast _ (length_getLastD_le hoccurs)
                    rw [← List.append_assoc]
                    exact List.suffix_append _ _
                  refine ⟨skipped, segment ++ rest, rfl, ?_⟩
                  exact (Glob.append_of_not_mem_iff hsegment).mpr
                    ⟨rest, rfl, (hnext rest).mp ⟨hoccurs, hend⟩⟩
          · rintro ⟨skipped, tail, rfl, htail⟩
            obtain ⟨rest, rfl, hrest⟩ := (Glob.append_of_not_mem_iff hsegment).mp htail
            have hlast := ((hnext rest).mpr hrest).2
            have hsuffix : rest <:+ skipped ++ (segment ++ rest) := by
              rw [← List.append_assoc]
              exact List.suffix_append _ _
            refine ⟨?_, hlast.trans hsuffix⟩
            rw [segmentsOccur]
            by_cases hnil : segment = []
            · rw [if_pos hnil]
              exact ((hnext _).mpr (hrest.of_suffix hany hsuffix)).1
            · obtain ⟨first, hfirst, hlonger⟩ :=
                @afterFirst_of_occurs segment _ skipped rest rfl
              rw [if_neg hnil, hfirst]
              exact ((hnext _).mpr (hrest.of_suffix hany hlonger)).1

end Segments

/-- A pattern matches a candidate exactly when the candidate, in lower case, is a word of the
pattern, trimmed and in lower case, in which a star stands for any word and any other letter
for itself. -/
theorem matchesAllowlistPattern_iff (runtime : Runtime) (candidate pattern : String) :
    matchesAllowlistPattern runtime candidate pattern = true ↔
      Matches (runtime.toLowerCase (trim pattern)).toList
        (runtime.toLowerCase candidate).toList := by
  have hany : ∀ c : Char, True := fun _ => trivial
  generalize hpattern : (runtime.toLowerCase (trim pattern)).toList = normalizedPattern
  generalize hcandidate : (runtime.toLowerCase candidate).toList = normalizedCandidate
  unfold matchesAllowlistPattern
  rw [hpattern, hcandidate]
  dsimp only
  by_cases hstar : '*' ∈ normalizedPattern
  · rw [if_neg (by simpa using hstar)]
    by_cases hall : normalizedPattern = ['*']
    · rw [if_pos hall, hall]
      exact iff_of_true rfl (Glob.star_of_skips fun c _ => hany c)
    · rw [if_neg hall]
      have hsplit : ['*'].intercalate (normalizedPattern.splitOn '*') = normalizedPattern :=
        List.intercalate_splitOn '*'
      have hfree : ∀ segment ∈ normalizedPattern.splitOn '*', '*' ∉ segment :=
        fun segment hsegment hmem => (mem_of_mem_splitOn hsegment hmem).2 rfl
      generalize normalizedPattern.splitOn '*' = segments at hsplit hfree ⊢
      cases segments with
      | nil =>
          rw [← hsplit] at hstar
          cases hstar
      | cons first segments =>
          obtain ⟨hfirst, hsegments⟩ := List.forall_mem_cons.mp hfree
          have hmore : segments ≠ [] := by
            rintro rfl
            rw [List.intercalate_singleton] at hsplit
            exact hfirst (hsplit ▸ hstar)
          have hoccur := fun text => @segmentsOccur_iff text _ hmore hsegments
          have hlast : (first :: segments).getLastD [] = segments.getLastD [] := by
            obtain ⟨next, others, rfl⟩ := List.exists_cons_of_ne_nil hmore
            exact getLastD_cons_cons
          rw [← hsplit, intercalate_cons hmore, hlast, List.headD_cons, List.tail_cons]
          by_cases hstart : first.isPrefixOf normalizedCandidate = true
          · obtain ⟨rest, rfl⟩ := List.isPrefixOf_iff_prefix.mp hstart
            rw [hstart, List.drop_left]
            refine Iff.trans ?_ (Glob.append_of_not_mem_iff hfirst).symm
            constructor
            · intro h
              by_cases hoccurs : segmentsOccur segments rest = true
              · rw [hoccurs] at h
                have hsuffix := List.isSuffixOf_iff_suffix.mp h
                refine ⟨rest, rfl, (hoccur rest).mp ⟨hoccurs, ?_⟩⟩
                exact List.suffix_of_suffix_length_le hsuffix (List.suffix_append _ _)
                  (length_getLastD_le hoccurs)
              · rw [Bool.not_eq_true] at hoccurs
                rw [hoccurs] at h
                cases h
            · rintro ⟨tail, htail, hmatches⟩
              obtain rfl := List.append_cancel_left htail
              obtain ⟨hoccurs, hsuffix⟩ := (hoccur rest).mpr hmatches
              rw [hoccurs]
              exact List.isSuffixOf_iff_suffix.mpr (hsuffix.trans (List.suffix_append _ _))
          · rw [Bool.not_eq_true] at hstart
            rw [hstart]
            refine iff_of_false Bool.false_ne_true ?_
            intro h
            obtain ⟨rest, rfl, -⟩ := (Glob.append_of_not_mem_iff hfirst).mp h
            rw [List.isPrefixOf_iff_prefix.mpr (List.prefix_append _ _)] at hstart
            cases hstart
  · rw [if_pos (by simpa using hstar), decide_eq_true_eq]
    constructor
    · rintro rfl
      exact Glob.self_of_not_mem hstar
    · exact Glob.eq_of_not_mem hstar

end GoatCitadel.Sandbox
