import Mathlib.Data.List.Pairwise
import GoatCitadel.Orchestration.Plan
import GoatCitadel.Support.Separated

/-!
# What an accepted plan says about ownership

An ownership path without glob characters covers a path of the repository and all
that is under it; one with a glob character covers at most the paths that begin
with the text before it.  The comparison that `findOwnershipConflicts` makes is
exact for these sets.  But `validate` makes it on the paths as they were written,
and not on the trimmed ones that the schema checked: a declaration with white space
around it is compared as if the space were part of a name.
-/

namespace GoatCitadel.Orchestration

open GoatCitadel.Support

/-! ## Paths of the repository -/

/-- A name that a resolved path may hold. -/
def IsName (name : List Char) : Prop :=
  name ≠ [] ∧ name ≠ ['.'] ∧ name ≠ ['.', '.'] ∧ '/' ∉ name ∧ '\\' ∉ name

/-- A path relative to the root of the repository: the names on the way down. -/
structure RepoPath where
  names : List (List Char)
  proper : ∀ name ∈ names, IsName name

/-- The segments of a declared path, as the schema reads it. -/
def declaredSegments (declared : String) : List (List Char) :=
  (unifySeparators (trim declared).toList).splitOn '/'

/-- The segments that lead one directory down. -/
def isStepDown (segment : List Char) : Bool :=
  segment ≠ [] && segment ≠ ['.'] && segment ≠ ['.', '.']

/-- Somewhere on its way the path has gone up more often than down. -/
def ClimbsAboveRoot (declared : String) : Prop :=
  ∃ front, front <+: declaredSegments declared ∧
    front.countP isStepDown < front.count ['.', '.']

section

variable (mapping : CaseMapping)

/-- The paths that a resolved ownership path is for, at most. -/
def Reaches (segments : List (List Char)) (path : RepoPath) : Prop :=
  if (joinSegments segments).any isGlobCharacter then
    mapping.toLowerCase ((joinSegments segments).takeWhile (!isGlobCharacter ·)) <+:
      mapping.toLowerCase (joinSegments path.names)
  else segments.map mapping.toLowerCase <+: path.names.map mapping.toLowerCase

/-- The declared path, trimmed and resolved, covers `path`. -/
def Covers (declared : String) (path : RepoPath) : Prop :=
  ∃ segments, normalizeSegments (trim declared).toList = some segments ∧
    Reaches mapping segments path

/-- No path belongs to two agents of one wave, and no declared path leaves the
repository upwards. -/
def OwnershipDisjoint (plan : OrchestrationPlan) : Prop :=
  ∀ wave ∈ plan.waves,
    (∀ a ∈ wave.ownership, ∀ b ∈ wave.ownership, a.agentId ≠ b.agentId →
      ∀ pathA ∈ a.paths, ∀ pathB ∈ b.paths, ∀ path,
        ¬(Covers mapping pathA path ∧ Covers mapping pathB path)) ∧
    ∀ owner ∈ wave.ownership, ∀ declared ∈ owner.paths, ¬ClimbsAboveRoot declared

end

/-! ## Resolving a path -/

section

variable {segments : List (List Char)} {segment : List Char}

theorem isName_of_pushSegment {result : List (List Char)}
    (h : pushSegment segments segment = some result) (hslash : '/' ∉ segment)
    (hback : '\\' ∉ segment) (hnames : ∀ name ∈ segments, IsName name) :
    ∀ name ∈ result, IsName name := by
  unfold pushSegment at h
  split at h
  · cases h
    exact hnames
  · rename_i hkept
    split at h
    · split at h
      · cases h
      · cases h
        intro name hname
        exact hnames name (List.mem_of_mem_dropLast hname)
    · rename_i hup
      cases h
      intro name hname
      obtain hold | hnew := List.mem_append.mp hname
      · exact hnames name hold
      · rw [List.mem_singleton] at hnew
        subst hnew
        exact ⟨fun hnil => hkept (.inl hnil), fun hdot => hkept (.inr hdot), hup, hslash, hback⟩

theorem isName_of_foldlM {result rest : List (List Char)}
    (h : rest.foldlM pushSegment segments = some result)
    (hrest : ∀ segment ∈ rest, '/' ∉ segment ∧ '\\' ∉ segment)
    (hnames : ∀ name ∈ segments, IsName name) : ∀ name ∈ result, IsName name := by
  induction rest generalizing segments with
  | nil =>
      cases h
      exact hnames
  | cons segment rest ih =>
      rw [List.foldlM_cons] at h
      obtain ⟨next, hnext, h⟩ := Option.bind_eq_some_iff.mp h
      obtain ⟨hslash, hback⟩ := hrest segment List.mem_cons_self
      have hnames' := isName_of_pushSegment hnext hslash hback hnames
      exact ih h (fun segment hmem => hrest segment (List.mem_cons_of_mem _ hmem)) hnames'

theorem backslash_not_mem_unifySeparators (text : List Char) :
    '\\' ∉ unifySeparators text := by
  intro h
  obtain ⟨c, -, hc⟩ := List.mem_map.mp h
  split at hc
  · exact absurd hc (by decide)
  · rename_i hne
    exact hne hc

theorem isName_of_normalizeSegments {text : List Char}
    (h : normalizeSegments text = some segments) : ∀ name ∈ segments, IsName name := by
  unfold normalizeSegments at h
  split at h
  · cases h
  · refine isName_of_foldlM h ?_ (fun _ hname => absurd hname List.not_mem_nil)
    intro segment hsegment
    constructor
    · intro hslash
      exact (mem_of_mem_splitOn hsegment hslash).2 rfl
    · intro hback
      exact backslash_not_mem_unifySeparators text (mem_of_mem_splitOn hsegment hback).1

/-- A path that resolves never goes up more often than it has come down. -/
theorem count_up_le_of_foldlM {result rest front : List (List Char)}
    (h : rest.foldlM pushSegment segments = some result) (hfront : front <+: rest) :
    front.count ['.', '.'] ≤ segments.length + front.countP isStepDown := by
  induction rest generalizing segments front with
  | nil =>
      rw [List.prefix_nil.mp hfront]
      exact Nat.zero_le _
  | cons segment rest ih =>
      rw [List.foldlM_cons] at h
      obtain ⟨next, hnext, h⟩ := Option.bind_eq_some_iff.mp h
      obtain rfl | ⟨front, rfl, htail⟩ := List.prefix_cons_iff.mp hfront
      · exact Nat.zero_le _
      · have hrest := ih h htail
        rw [List.count_cons, List.countP_cons]
        unfold pushSegment at hnext
        split at hnext
        · rename_i hskip
          cases hnext
          have hup : (segment == ['.', '.']) = false := by
            obtain rfl | rfl := hskip
            · rfl
            · rfl
          rw [hup]
          simp only [Bool.false_eq_true, if_false]
          omega
        · rename_i hkept
          split at hnext
          · rename_i hup
            split at hnext
            · cases hnext
            · rename_i hne
              cases hnext
              rw [List.length_dropLast] at hrest
              have hpos : 0 < segments.length := List.length_pos_iff.mpr hne
              simp only [hup, BEq.rfl, if_true]
              omega
          · rename_i hup
            cases hnext
            rw [List.length_append, List.length_singleton] at hrest
            obtain ⟨hnil, hdot⟩ := not_or.mp hkept
            have hdown : isStepDown segment = true := by
              simp [isStepDown, hnil, hdot, hup]
            have hnot : (segment == ['.', '.']) = false := beq_false_of_ne hup
            simp only [hdown, hnot, if_true, Bool.false_eq_true, if_false]
            omega

theorem not_climbsAboveRoot {declared : String}
    (h : ownershipPathEscapesRoot (trim declared).toList = false) :
    ¬ClimbsAboveRoot declared := by
  rintro ⟨front, hfront, hlt⟩
  unfold ownershipPathEscapesRoot normalizeSegments at h
  split at h
  · cases h
  · obtain ⟨result, hresult⟩ := Option.isSome_iff_exists.mp (Option.isNone_eq_false_iff.mp h)
    have hle := count_up_le_of_foldlM hresult hfront
    rw [List.length_nil, Nat.zero_add] at hle
    exact absurd hle (Nat.not_le.mpr hlt)

end

/-! ## The text that a claim is compared by -/

section

variable {mapping : CaseMapping} {segments : List (List Char)}

theorem beforeGlob_eq (text : List Char) :
    beforeGlob text = text.takeWhile (!isGlobCharacter ·) := by
  rw [List.takeWhile_eq_take_findIdx_not]
  simp only [Bool.not_not]
  unfold beforeGlob
  split
  · rename_i hnone
    rw [List.findIdx_eq_length_of_false (by simpa using hnone), List.take_length]
  · rename_i index hsome
    rw [List.findIdx_eq_getD_findIdx?, hsome, Option.getD_some]

theorem toLowerCase_joinSegments (mapping : CaseMapping) (segments : List (List Char)) :
    mapping.toLowerCase (joinSegments segments) =
      joinSegments (segments.map mapping.toLowerCase) := by
  induction segments with
  | nil => exact mapping.nil
  | cons segment rest ih =>
      by_cases hrest : rest = []
      · subst hrest
        simp [joinSegments]
      · have hmap : rest.map mapping.toLowerCase ≠ [] := by simpa using hrest
        unfold joinSegments at ih ⊢
        rw [List.map_cons, intercalate_cons hrest, intercalate_cons hmap,
          mapping.cut _ _ _ (.inl rfl), ih]

theorem slash_not_mem_lowered (hnames : ∀ name ∈ segments, IsName name) :
    ∀ part ∈ segments.map mapping.toLowerCase, '/' ∉ part := by
  intro part hpart
  obtain ⟨name, hname, rfl⟩ := List.mem_map.mp hpart
  exact mapping.not_mem name (hnames name hname).2.2.2.1

theorem lowered_ne_nil (hnames : ∀ name ∈ segments, IsName name) :
    ∀ part ∈ segments.map mapping.toLowerCase, part ≠ [] := by
  intro part hpart hnil
  obtain ⟨name, hname, rfl⟩ := List.mem_map.mp hpart
  exact (hnames name hname).1 (mapping.eq_nil name hnil)

theorem takeWhile_eq_self_of_plain {text : List Char} (h : text.any isGlobCharacter = false) :
    text.takeWhile (!isGlobCharacter ·) = text := by
  rw [List.takeWhile_eq_self_iff]
  intro c hc
  simpa using List.any_eq_false.mp h c hc

/-- The lower case of a text begins with the lower case of what is before its first glob
character. -/
theorem lowered_takeWhile_prefix (mapping : CaseMapping) (text : List Char) :
    mapping.toLowerCase (text.takeWhile (!isGlobCharacter ·)) <+: mapping.toLowerCase text := by
  cases hglob : text.any isGlobCharacter with
  | false => rw [takeWhile_eq_self_of_plain hglob]
  | true =>
      have hne : text.dropWhile (!isGlobCharacter ·) ≠ [] := by
        intro hnil
        obtain ⟨c, hc, hcglob⟩ := List.any_eq_true.mp hglob
        have hnot := List.dropWhile_eq_nil_iff.mp hnil c hc
        rw [hcglob] at hnot
        cases hnot
      obtain ⟨c, back, hback⟩ := List.exists_cons_of_ne_nil hne
      have hc : isGlobCharacter c = true := by
        have hhead := List.head_dropWhile_not (!isGlobCharacter ·) hne
        simpa [hback] using hhead
      have hcut := mapping.cut (text.takeWhile (!isGlobCharacter ·)) c back (.inr hc)
      rw [← hback, List.takeWhile_append_dropWhile] at hcut
      rw [hcut]
      exact List.prefix_append _ _

/-- `claim` is the claim of a declared path that resolves to `segments`. -/
structure ClaimOf (mapping : CaseMapping) (segments : List (List Char))
    (claim : OwnershipClaim) : Prop where
  literal : claim.literal =
    mapping.toLowerCase ((joinSegments segments).takeWhile (!isGlobCharacter ·))
  glob : claim.glob = (joinSegments segments).any isGlobCharacter
  names : ∀ name ∈ segments, IsName name

theorem claimOf_toClaim {agentId : String} {text : List Char}
    (h : normalizeSegments text = some segments) :
    ClaimOf mapping segments (toClaim mapping agentId text) where
  literal := by simp only [toClaim, h, Option.getD_some, beforeGlob_eq]
  glob := by simp [toClaim, h, List.findIdx?_isSome]
  names := isName_of_normalizeSegments h

theorem isWithin_iff {candidate root : List Char} :
    isWithin candidate root = true ↔ candidate = root ∨ root ++ ['/'] <+: candidate := by
  simp [isWithin, List.isPrefixOf_iff_prefix]

end

namespace ClaimOf

variable {mapping : CaseMapping} {segments : List (List Char)} {claim : OwnershipClaim}
  {path : RepoPath}

theorem literal_prefix (h : ClaimOf mapping segments claim) :
    claim.literal <+: mapping.toLowerCase (joinSegments segments) := by
  rw [h.literal]
  exact lowered_takeWhile_prefix mapping (joinSegments segments)

theorem literal_plain (h : ClaimOf mapping segments claim) (hplain : claim.glob = false) :
    claim.literal = mapping.toLowerCase (joinSegments segments) := by
  rw [h.literal, takeWhile_eq_self_of_plain (h.glob.symm.trans hplain)]

theorem reaches_glob (h : ClaimOf mapping segments claim) (hglob : claim.glob = true) :
    Reaches mapping segments path ↔
      claim.literal <+: mapping.toLowerCase (joinSegments path.names) := by
  unfold Reaches
  rw [if_pos (h.glob.symm.trans hglob), h.literal]

theorem reaches_plain (h : ClaimOf mapping segments claim) (hplain : claim.glob = false)
    (hne : claim.literal ≠ []) :
    Reaches mapping segments path ↔
      isWithin (mapping.toLowerCase (joinSegments path.names)) claim.literal = true := by
  have hany : ¬(joinSegments segments).any isGlobCharacter = true := by
    rw [← h.glob, hplain]
    exact Bool.false_ne_true
  have hmap : segments.map mapping.toLowerCase ≠ [] := by
    rintro hnil
    rw [h.literal_plain hplain, List.map_eq_nil_iff.mp hnil] at hne
    exact hne mapping.nil
  unfold Reaches
  rw [if_neg hany, isWithin_iff, h.literal_plain hplain, toLowerCase_joinSegments,
    toLowerCase_joinSegments]
  exact prefix_iff_intercalate hmap (lowered_ne_nil h.names) (slash_not_mem_lowered h.names)
    (slash_not_mem_lowered path.proper)

/-- A claim that is compared by the empty text reaches everything. -/
theorem reaches_of_literal_nil (h : ClaimOf mapping segments claim) (hnil : claim.literal = []) :
    Reaches mapping segments path := by
  cases hglob : claim.glob with
  | true =>
      rw [h.reaches_glob hglob, hnil]
      exact List.nil_prefix
  | false =>
      have hsegments : segments = [] := by
        by_contra hne
        have hmap : segments.map mapping.toLowerCase ≠ [] := by simpa using hne
        rw [h.literal_plain hglob, toLowerCase_joinSegments] at hnil
        exact intercalate_ne_nil hmap (lowered_ne_nil h.names) hnil
      unfold Reaches
      rw [← h.glob, hglob, hsegments]
      exact List.nil_prefix

/-- A resolved path reaches itself. -/
theorem reaches_self (h : ClaimOf mapping segments claim) :
    Reaches mapping segments ⟨segments, h.names⟩ := by
  unfold Reaches
  split
  · exact lowered_takeWhile_prefix mapping (joinSegments segments)
  · exact List.prefix_refl _

end ClaimOf

/-! ## The comparison of two claims -/

theorem overlaps_comm (a b : OwnershipClaim) : overlaps a b = overlaps b a := by
  unfold overlaps
  cases a.glob with
  | true =>
      cases b.glob with
      | true => simp [Bool.or_comm]
      | false => simp [Bool.or_comm]
  | false =>
      cases b.glob with
      | true => simp [Bool.or_comm]
      | false => simp [Bool.or_comm]

theorem isWithin_or_isWithin {candidate root root' : List Char}
    (h : isWithin candidate root = true) (h' : isWithin candidate root' = true) :
    isWithin root root' = true ∨ isWithin root' root = true := by
  simp only [isWithin_iff] at *
  obtain rfl | hunder := h
  · exact .inl h'
  obtain rfl | hunder' := h'
  · exact .inr (.inr hunder)
  obtain hle | hle := List.prefix_or_prefix_of_prefix hunder hunder'
  · obtain heq | hle := List.prefix_concat_iff.mp hle
    · exact .inl (.inl (List.append_cancel_right heq))
    · exact .inr (.inr hle)
  · obtain heq | hle := List.prefix_concat_iff.mp hle
    · exact .inr (.inl (List.append_cancel_right heq))
    · exact .inl (.inr hle)

theorem prefix_or_isWithin {text candidate root : List Char} (h : text <+: candidate)
    (hroot : isWithin candidate root = true) : text <+: root ∨ isWithin text root = true := by
  rw [isWithin_iff] at *
  obtain rfl | hunder := hroot
  · exact .inl h
  obtain hle | hle := List.prefix_or_prefix_of_prefix h hunder
  · obtain rfl | hle := List.prefix_concat_iff.mp hle
    · exact .inr (.inr (List.prefix_refl _))
    · exact .inl hle
  · exact .inr (.inr hle)

section

variable {mapping : CaseMapping} {segments others : List (List Char)} {a b : OwnershipClaim}
  (ha : ClaimOf mapping segments a) (hb : ClaimOf mapping others b)
  (hneA : a.literal ≠ []) (hneB : b.literal ≠ [])

include ha hb hneA hneB

/-- Two plain paths. -/
theorem overlaps_iff_of_plain (hplainA : a.glob = false) (hplainB : b.glob = false) :
    overlaps a b = true ↔
      ∃ path, Reaches mapping segments path ∧ Reaches mapping others path := by
  have hoverlaps : overlaps a b = true ↔
      isWithin a.literal b.literal = true ∨ isWithin b.literal a.literal = true := by
    simp [overlaps, hneA, hneB, hplainA, hplainB]
  rw [hoverlaps]
  constructor
  · rintro (hwithin | hwithin)
    · refine ⟨⟨segments, ha.names⟩, ha.reaches_self, ?_⟩
      rw [hb.reaches_plain hplainB hneB, ← ha.literal_plain hplainA]
      exact hwithin
    · refine ⟨⟨others, hb.names⟩, ?_, hb.reaches_self⟩
      rw [ha.reaches_plain hplainA hneA, ← hb.literal_plain hplainB]
      exact hwithin
  · rintro ⟨path, hreachA, hreachB⟩
    rw [ha.reaches_plain hplainA hneA] at hreachA
    rw [hb.reaches_plain hplainB hneB] at hreachB
    exact isWithin_or_isWithin hreachA hreachB

/-- Two globs. -/
theorem overlaps_iff_of_globs (hglobA : a.glob = true) (hglobB : b.glob = true) :
    overlaps a b = true ↔
      ∃ path, Reaches mapping segments path ∧ Reaches mapping others path := by
  have hoverlaps : overlaps a b = true ↔
      b.literal <+: a.literal ∨ a.literal <+: b.literal := by
    simp [overlaps, hneA, hneB, hglobA, hglobB]
  rw [hoverlaps]
  constructor
  · rintro (hstarts | hstarts)
    · refine ⟨⟨segments, ha.names⟩, ha.reaches_self, ?_⟩
      rw [hb.reaches_glob hglobB]
      exact hstarts.trans ha.literal_prefix
    · refine ⟨⟨others, hb.names⟩, ?_, hb.reaches_self⟩
      rw [ha.reaches_glob hglobA]
      exact hstarts.trans hb.literal_prefix
  · rintro ⟨path, hreachA, hreachB⟩
    rw [ha.reaches_glob hglobA] at hreachA
    rw [hb.reaches_glob hglobB] at hreachB
    exact List.prefix_or_prefix_of_prefix hreachB hreachA

/-- A glob and a plain path. -/
theorem overlaps_iff_of_glob_plain (hglobA : a.glob = true) (hplainB : b.glob = false) :
    overlaps a b = true ↔
      ∃ path, Reaches mapping segments path ∧ Reaches mapping others path := by
  have hoverlaps : overlaps a b = true ↔
      a.literal <+: b.literal ∨ isWithin a.literal b.literal = true := by
    simp [overlaps, hneA, hneB, hglobA, hplainB]
  rw [hoverlaps]
  constructor
  · intro h
    by_cases hstarts : a.literal <+: b.literal
    · refine ⟨⟨others, hb.names⟩, ?_, hb.reaches_self⟩
      rw [ha.reaches_glob hglobA]
      exact hstarts.trans hb.literal_prefix
    · -- The glob starts strictly under the plain path.
      refine ⟨⟨segments, ha.names⟩, ha.reaches_self, ?_⟩
      rw [hb.reaches_plain hplainB hneB, isWithin_iff]
      obtain heq | hunder := isWithin_iff.mp (h.resolve_left hstarts)
      · exact absurd (heq ▸ List.prefix_refl _) hstarts
      · exact .inr (hunder.trans ha.literal_prefix)
  · rintro ⟨path, hreachA, hreachB⟩
    rw [ha.reaches_glob hglobA] at hreachA
    rw [hb.reaches_plain hplainB hneB] at hreachB
    exact prefix_or_isWithin hreachA hreachB

end

/-- Two claims overlap exactly when some path is reached by both. -/
theorem overlaps_iff {mapping : CaseMapping} {segments others : List (List Char)}
    {a b : OwnershipClaim} (ha : ClaimOf mapping segments a) (hb : ClaimOf mapping others b) :
    overlaps a b = true ↔
      ∃ path, Reaches mapping segments path ∧ Reaches mapping others path := by
  by_cases hneA : a.literal = []
  · refine iff_of_true (by simp [overlaps, hneA]) ⟨⟨others, hb.names⟩, ?_, hb.reaches_self⟩
    exact ha.reaches_of_literal_nil hneA
  by_cases hneB : b.literal = []
  · refine iff_of_true (by simp [overlaps, hneB]) ⟨⟨segments, ha.names⟩, ha.reaches_self, ?_⟩
    exact hb.reaches_of_literal_nil hneB
  cases hglobA : a.glob with
  | true =>
      cases hglobB : b.glob with
      | true => exact overlaps_iff_of_globs ha hb hneA hneB hglobA hglobB
      | false => exact overlaps_iff_of_glob_plain ha hb hneA hneB hglobA hglobB
  | false =>
      cases hglobB : b.glob with
      | true =>
          rw [overlaps_comm, overlaps_iff_of_glob_plain hb ha hneB hneA hglobB hglobA]
          exact exists_congr fun path => and_comm
      | false => exact overlaps_iff_of_plain ha hb hneA hneB hglobA hglobB

/-! ## Accepted plans -/

theorem pairwise_of_conflictsOf {waveId : String} {claims : List OwnershipClaim}
    (h : conflictsOf waveId claims = []) :
    claims.Pairwise fun a b => a.agentId ≠ b.agentId → overlaps a b = false := by
  induction claims with
  | nil => exact .nil
  | cons a rest ih =>
      obtain ⟨hfirst, hrest⟩ := List.append_eq_nil_iff.mp h
      refine List.pairwise_cons.mpr ⟨?_, ih hrest⟩
      intro b hb hagents
      have hnone := List.filter_eq_nil_iff.mp (List.map_eq_nil_iff.mp hfirst) b hb
      simpa [hagents] using hnone

section

variable {mapping : CaseMapping} {plan : OrchestrationPlan}

theorem not_overlaps_of_findOwnershipConflicts {wave : OrchestrationWave}
    (h : findOwnershipConflicts mapping wave = []) {a b : OwnershipClaim}
    (ha : a ∈ ownershipClaims mapping wave) (hb : b ∈ ownershipClaims mapping wave)
    (hagents : a.agentId ≠ b.agentId) : overlaps a b = false := by
  have hsymm : Std.Symm fun a b : OwnershipClaim =>
      a.agentId ≠ b.agentId → overlaps a b = false := by
    constructor
    intro a b hab hagents
    rw [overlaps_comm]
    exact hab hagents.symm
  exact (pairwise_of_conflictsOf h).forall_of_forall
    (fun a _ hself => absurd rfl hself) ha hb hagents

theorem mem_ownershipClaims {wave : OrchestrationWave} {owner : Ownership}
    (howner : owner ∈ wave.ownership) {path : String} (hpath : path ∈ owner.paths) :
    toClaim mapping owner.agentId path.toList ∈ ownershipClaims mapping wave :=
  List.mem_flatMap.mpr ⟨owner, howner, List.mem_map_of_mem hpath⟩

theorem segments_of_inside {text : List Char} (h : ownershipPathEscapesRoot text = false) :
    ∃ segments, normalizeSegments text = some segments :=
  Option.isSome_iff_exists.mp (Option.isNone_eq_false_iff.mp h)

/-- Two paths of different agents, at least one of them written with white space around
it, do not overlap once they are trimmed. -/
def UntrimmedDisjoint (mapping : CaseMapping) (plan : OrchestrationPlan) : Prop :=
  ∀ wave ∈ plan.waves, ∀ a ∈ wave.ownership, ∀ b ∈ wave.ownership, a.agentId ≠ b.agentId →
    ∀ pathA ∈ a.paths, ∀ pathB ∈ b.paths, trim pathA ≠ pathA ∨ trim pathB ≠ pathB →
      overlaps (toClaim mapping a.agentId (trim pathA).toList)
        (toClaim mapping b.agentId (trim pathB).toList) = false

/-- An accepted plan gives disjoint ownership exactly when its declarations with white
space around them are disjoint from those of other agents. -/
theorem ownershipDisjoint_iff (h : validate mapping plan = .ok ()) :
    OwnershipDisjoint mapping plan ↔ UntrimmedDisjoint mapping plan := by
  obtain ⟨-, hconflicts⟩ := validate_eq_ok h
  constructor
  · intro hdisjoint wave hwave a ha b hb hagents pathA hpathA pathB hpathB _
    obtain ⟨segments, hsegments⟩ := segments_of_inside (inside_of_validate h hwave ha hpathA)
    obtain ⟨others, hothers⟩ := segments_of_inside (inside_of_validate h hwave hb hpathB)
    have hnone := (hdisjoint wave hwave).1 a ha b hb hagents pathA hpathA pathB hpathB
    rw [Bool.eq_false_iff, ne_eq,
      overlaps_iff (claimOf_toClaim hsegments) (claimOf_toClaim hothers)]
    rintro ⟨path, hreachA, hreachB⟩
    exact hnone path ⟨⟨segments, hsegments, hreachA⟩, ⟨others, hothers, hreachB⟩⟩
  · intro huntrimmed wave hwave
    constructor
    · intro a ha b hb hagents pathA hpathA pathB hpathB path
      rintro ⟨⟨segments, hsegments, hreachA⟩, ⟨others, hothers, hreachB⟩⟩
      have hoverlaps : overlaps (toClaim mapping a.agentId (trim pathA).toList)
          (toClaim mapping b.agentId (trim pathB).toList) = true :=
        (overlaps_iff (claimOf_toClaim hsegments) (claimOf_toClaim hothers)).mpr
          ⟨path, hreachA, hreachB⟩
      by_cases hspace : trim pathA ≠ pathA ∨ trim pathB ≠ pathB
      · rw [huntrimmed wave hwave a ha b hb hagents pathA hpathA pathB hpathB hspace] at hoverlaps
        cases hoverlaps
      · -- The paths were compared as they are read.
        obtain ⟨hA, hB⟩ := not_or.mp hspace
        rw [not_not.mp hA, not_not.mp hB, not_overlaps_of_findOwnershipConflicts
          (hconflicts wave hwave) (mem_ownershipClaims ha hpathA)
          (mem_ownershipClaims hb hpathB) hagents] at hoverlaps
        cases hoverlaps
    · intro owner howner declared hdeclared
      exact not_climbsAboveRoot (inside_of_validate h hwave howner hdeclared)

end

/-! ### A plan with a space too many -/

theorem toLower_eq_slash {c : Char} (h : c.toLower = '/') : c = '/' := by
  unfold Char.toLower at h
  split at h
  · rename_i hupper
    have hval : c.val + 32 = 47 := congrArg Char.val h
    have hle : 65 ≤ c.val ∧ c.val ≤ 90 := hupper
    grind
  · exact h

/-- Lower case on texts of ASCII characters. -/
def asciiMapping : CaseMapping where
  toLowerCase := List.map Char.toLower
  nil := rfl
  eq_nil := fun _ => List.map_eq_nil_iff.mp
  cut := by
    intro front c back hc
    have hself : c.toLower = c := by
      obtain rfl | hglob := hc
      · rfl
      · simp only [isGlobCharacter, Bool.or_eq_true, beq_iff_eq] at hglob
        obtain ((rfl | rfl) | rfl) | rfl := hglob
        · rfl
        · rfl
        · rfl
        · rfl
    rw [List.map_append, List.map_cons, hself]
  not_mem := by
    intro text hslash hmem
    obtain ⟨c, hc, hlower⟩ := List.mem_map.mp hmem
    exact hslash (toLower_eq_slash hlower ▸ hc)

/-- Two agents own `src` and `src/app`, but the first one's path is written with a space
before it. -/
def spacedPlan : OrchestrationPlan where
  planId := "plan"
  goal := "goal"
  mode := .auto
  maxIterations := 10
  maxRuntimeMinutes := 10
  maxCostUsd := 10
  waves :=
    [{ waveId := "wave-1", verify := [], budgetUsd := 0
       ownership := [{ agentId := "a", paths := [" src"] },
         { agentId := "b", paths := ["src/app"] }]
       phases :=
        [{ phaseId := "phase-1", ownerAgentId := "a", specPath := "spec.md",
           loopMode := .freshContext, requiresApproval := false }] }]

theorem spacedPlan_disjoint_iff :
    OwnershipDisjoint asciiMapping spacedPlan ↔ UntrimmedDisjoint asciiMapping spacedPlan :=
  ownershipDisjoint_iff (by decide +kernel)

theorem spacedPlan_not_disjoint :
    validate asciiMapping spacedPlan = .ok () ∧ ¬OwnershipDisjoint asciiMapping spacedPlan := by
  refine ⟨by decide +kernel, ?_⟩
  intro hdisjoint
  have hmem : spacedPlan.waves.head (by decide) ∈ spacedPlan.waves := List.head_mem _
  refine (hdisjoint _ hmem).1 { agentId := "a", paths := [" src"] } (by decide +kernel)
    { agentId := "b", paths := ["src/app"] } (by decide +kernel) (by decide) " src" (by decide)
    "src/app" (by decide) ⟨["src".toList, "app".toList], ?_⟩ ⟨?_, ?_⟩
  · unfold IsName
    decide
  · refine ⟨["src".toList], by decide +kernel, ?_⟩
    unfold Reaches
    decide +kernel
  · refine ⟨["src".toList, "app".toList], by decide +kernel, ?_⟩
    unfold Reaches
    decide +kernel

end GoatCitadel.Orchestration
