import GoatCitadel.Policy.Resolver
import Mathlib.Data.List.Dedup

/-!
# The profile of a scheduled turn

A scheduled turn runs under the intersection of the restricted profile for such turns and the
profile of the one who scheduled it.  The intersection keeps the patterns of the creator and joins
the deny patterns of both.  A creator whose profile has no tool pattern has no tool, but the
intersection reads the empty list as every tool.
-/

namespace GoatCitadel.Policy

open GoatCitadel.Support

/-! ## The restricted profile -/

/-- `SCHEDULED_TURN_PERMISSION_PROFILE_ID` -/
def scheduledTurnPermissionProfileId : String := "scheduled-restricted"

/-- `SCHEDULED_RESTRICTED_PROFILE` -/
def scheduledRestrictedProfile : PermissionProfileRecord :=
  { profileId := scheduledTurnPermissionProfileId
    label := "Scheduled (Restricted)"
    description := some ("Restricted profile for cron/scheduled autonomous agent turns. " ++
      "Side-effecting and dangerous tools are denied (they surface as approvals); risky " ++
      "tools require approval. Deny-wins and Citadel Wards still apply.")
    builtin := true
    status := .active
    scope := .global
    approvalMode := .approveRisky
    toolPatterns := ["*"]
    allow := []
    deny := scheduledRestrictedDeny
    readAccessMode := some .approvalRequired
    defaultForSurfaces := some []
    createdBy := "system"
    createdAt := "2026-06-21T00:00:00.000Z"
    updatedAt := "2026-06-21T00:00:00.000Z" }

/-! ## The intersection -/

def stricterToolApprovalMode (left right : ToolApprovalMode) : ToolApprovalMode :=
  if right.strictness ≤ left.strictness then left else right

def stricterFilesystemReadAccessMode :
    Option FilesystemReadAccessMode → Option FilesystemReadAccessMode →
      Option FilesystemReadAccessMode
  | none, right => right
  | some left, none => some left
  | some left, some right => if left.rank ≤ right.rank then some left else some right

def uniqueStrings (values : List String) : List String :=
  ((values.map trim).filter fun value => value ≠ "").eraseDups

def intersectPatternLists (left right : List String) : List String :=
  let normalizedLeft := uniqueStrings left
  let normalizedRight := uniqueStrings right
  if normalizedLeft.length = 0 ∨ normalizedRight.length = 0 then []
  else if normalizedLeft.contains "*" = true then normalizedRight
  else if normalizedRight.contains "*" = true then normalizedLeft
  else
    normalizedLeft.filter fun leftPattern =>
      normalizedRight.any fun rightPattern =>
        matchesToolPattern leftPattern rightPattern ||
          matchesToolPattern rightPattern leftPattern

/-- The patterns of the creator; an empty list is read as all tools. -/
def creatorPatterns (creatorProfile : PermissionProfileRecord) : List String :=
  if 0 < creatorProfile.toolPatterns.length then creatorProfile.toolPatterns else ["*"]

/-- The known tools that the creator may not use. -/
def catalogDeniedByCreator (creatorProfile : PermissionProfileRecord)
    (knownToolNames : List String) : List String :=
  if (creatorPatterns creatorProfile).contains "*" = true then []
  else
    knownToolNames.filter fun toolName =>
      !(creatorPatterns creatorProfile).any fun pattern => matchesToolPattern pattern toolName

def buildScheduledCreatorIntersectionProfile (creatorProfile : PermissionProfileRecord)
    (runId : String) (knownToolNames : List String) (now : String) : PermissionProfileRecord :=
  { scheduledRestrictedProfile with
    profileId := "scheduled-intersection:" ++ runId
    label := "Scheduled Intersection (" ++ creatorProfile.label ++ ")"
    description := some ("Non-persisted scheduled profile intersecting scheduled-restricted " ++
      "with the creator's active permission profile.")
    builtin := true
    scope := .global
    approvalMode :=
      stricterToolApprovalMode scheduledRestrictedProfile.approvalMode creatorProfile.approvalMode
    toolPatterns := creatorPatterns creatorProfile
    allow := intersectPatternLists scheduledRestrictedProfile.allow creatorProfile.allow
    deny := uniqueStrings (scheduledRestrictedProfile.deny ++ creatorProfile.deny ++
      catalogDeniedByCreator creatorProfile knownToolNames)
    readAccessMode :=
      stricterFilesystemReadAccessMode scheduledRestrictedProfile.readAccessMode
        creatorProfile.readAccessMode
    defaultForSurfaces := some []
    createdBy := "system-scheduled-profile-intersection"
    createdAt := now
    updatedAt := now }

/-! ## Being no wider than a profile -/

/-- The tool lies under the ceiling of the profile and is not denied by it. -/
def isAvailable (profile : PermissionProfileRecord) (toolName : String) : Bool :=
  matchesAnyToolPattern profile.toolPatterns toolName &&
    !matchesAnyToolPattern profile.deny toolName

/-- The read mode gives no more than the other; without a mode the install's own one holds. -/
def ReadsWithin (mode other : Option FilesystemReadAccessMode) : Prop :=
  ∀ globalMode,
    (stricterReadAccessMode globalMode mode).rank ≤
      (stricterReadAccessMode globalMode other).rank

/-- The profile gives the known tools no more than the other profile. -/
structure Within (knownToolNames : List String) (profile other : PermissionProfileRecord) :
    Prop where
  tools : ∀ toolName ∈ knownToolNames, isAvailable profile toolName = true →
    isAvailable other toolName = true
  approval : other.approvalMode.strictness ≤ profile.approvalMode.strictness
  reads : ReadsWithin profile.readAccessMode other.readAccessMode
  allows : ∀ toolName, matchesAnyToolPattern profile.allow toolName = true →
    matchesAnyToolPattern other.allow toolName = true

section Intersection

variable {creatorProfile : PermissionProfileRecord} {runId now : String}
  {knownToolNames : List String}

theorem mem_uniqueStrings {values : List String} {value : String} :
    value ∈ uniqueStrings values ↔ value ≠ "" ∧ ∃ other ∈ values, trim other = value := by
  rw [uniqueStrings, List.mem_eraseDups, List.mem_filter, List.mem_map, decide_eq_true_eq,
    and_comm]

theorem matchesToolPattern_trim (pattern toolName : String) :
    matchesToolPattern (trim pattern) toolName = matchesToolPattern pattern toolName := by
  rw [matchesToolPattern, matchesToolPattern, trim_trim]

theorem trim_ne_empty_of_matchesToolPattern {pattern toolName : String}
    (h : matchesToolPattern pattern toolName = true) : trim pattern ≠ "" := by
  intro hempty
  rw [matchesToolPattern, if_pos (.inl hempty)] at h
  exact Bool.false_ne_true h

/-- A normalised list matches what the list matches. -/
theorem matchesAnyToolPattern_uniqueStrings (values : List String) (toolName : String) :
    matchesAnyToolPattern (uniqueStrings values) toolName =
      matchesAnyToolPattern values toolName := by
  rw [Bool.eq_iff_iff, matchesAnyToolPattern, matchesAnyToolPattern, List.any_eq_true,
    List.any_eq_true]
  constructor
  · rintro ⟨value, hvalue, hmatch⟩
    obtain ⟨-, other, hother, rfl⟩ := mem_uniqueStrings.mp hvalue
    exact ⟨other, hother, (matchesToolPattern_trim other toolName).symm.trans hmatch⟩
  · rintro ⟨value, hvalue, hmatch⟩
    refine ⟨trim value, mem_uniqueStrings.mpr ⟨?_, value, hvalue, rfl⟩, ?_⟩
    · exact trim_ne_empty_of_matchesToolPattern hmatch
    · rwa [matchesToolPattern_trim]

/-- What any pattern matches, the star matches. -/
theorem matchesToolPattern_star_of_matches {pattern toolName : String}
    (h : matchesToolPattern pattern toolName = true) : matchesToolPattern "*" toolName = true := by
  have hstar : trim "*" = "*" := by decide
  have hlength : ¬ maxPatternLength < utf16Length "*" := by decide
  have hname : ¬ (trim toolName = "" ∨ maxToolNameLength < utf16Length (trim toolName)) := by
    intro hname
    have hno : trim pattern = "" ∨ trim toolName = "" ∨
        maxPatternLength < utf16Length (trim pattern) ∨
        maxToolNameLength < utf16Length (trim toolName) :=
      hname.elim (fun hblank => .inr (.inl hblank)) fun hlong => .inr (.inr (.inr hlong))
    rw [matchesToolPattern, if_pos hno] at h
    exact Bool.false_ne_true h
  have hyes : ¬ ("*" = "" ∨ trim toolName = "" ∨ maxPatternLength < utf16Length "*" ∨
      maxToolNameLength < utf16Length (trim toolName)) := by
    rintro (hempty | hblank | hlong | hlong)
    · exact absurd hempty (by decide)
    · exact hname (.inl hblank)
    · exact hlength hlong
    · exact hname (.inr hlong)
  rw [matchesToolPattern, hstar, if_neg hyes, if_pos rfl]

theorem stricter_approval_left (left right : ToolApprovalMode) :
    left.strictness ≤ (stricterToolApprovalMode left right).strictness := by
  rw [stricterToolApprovalMode]
  split_ifs with h
  · exact le_rfl
  · exact (not_le.mp h).le

theorem stricter_approval_right (left right : ToolApprovalMode) :
    right.strictness ≤ (stricterToolApprovalMode left right).strictness := by
  rw [stricterToolApprovalMode]
  split_ifs with h
  · exact h
  · exact le_rfl

theorem rank_stricterReadAccessMode (globalMode mode : Option FilesystemReadAccessMode) :
    (stricterReadAccessMode globalMode mode).rank =
      min (globalMode.getD .rootsOnly).rank (mode.getD (globalMode.getD .rootsOnly)).rank := by
  rw [stricterReadAccessMode]
  split_ifs with h
  · exact (min_eq_right h.le).symm
  · exact (min_eq_left (not_lt.mp h)).symm

theorem readsWithin_some {mode other : FilesystemReadAccessMode} (h : mode.rank ≤ other.rank) :
    ReadsWithin (some mode) (some other) := by
  intro globalMode
  rw [rank_stricterReadAccessMode, rank_stricterReadAccessMode, Option.getD_some,
    Option.getD_some]
  omega

theorem readsWithin_none (mode : Option FilesystemReadAccessMode) : ReadsWithin mode none := by
  intro globalMode
  rw [rank_stricterReadAccessMode, rank_stricterReadAccessMode, Option.getD_none, min_self]
  exact min_le_left _ _

theorem readsWithin_left (left : FilesystemReadAccessMode)
    (right : Option FilesystemReadAccessMode) :
    ReadsWithin (stricterFilesystemReadAccessMode (some left) right) (some left) := by
  cases right with
  | none => exact readsWithin_some le_rfl
  | some right =>
      rw [stricterFilesystemReadAccessMode]
      split_ifs with h
      · exact readsWithin_some le_rfl
      · exact readsWithin_some (not_le.mp h).le

theorem readsWithin_right (left : FilesystemReadAccessMode)
    (right : Option FilesystemReadAccessMode) :
    ReadsWithin (stricterFilesystemReadAccessMode (some left) right) right := by
  cases right with
  | none => exact readsWithin_none _
  | some right =>
      rw [stricterFilesystemReadAccessMode]
      split_ifs with h
      · exact readsWithin_some h
      · exact readsWithin_some le_rfl

theorem deny_intersection (toolName : String) :
    matchesAnyToolPattern
        (buildScheduledCreatorIntersectionProfile creatorProfile runId knownToolNames now).deny
        toolName =
      (matchesAnyToolPattern scheduledRestrictedProfile.deny toolName ||
        matchesAnyToolPattern creatorProfile.deny toolName ||
        matchesAnyToolPattern (catalogDeniedByCreator creatorProfile knownToolNames)
          toolName) := by
  have happend : ∀ left right, matchesAnyToolPattern (left ++ right) toolName =
      (matchesAnyToolPattern left toolName || matchesAnyToolPattern right toolName) :=
    fun _ _ => List.any_append
  have hdeny : (buildScheduledCreatorIntersectionProfile creatorProfile runId knownToolNames
      now).deny = uniqueStrings (scheduledRestrictedProfile.deny ++ creatorProfile.deny ++
        catalogDeniedByCreator creatorProfile knownToolNames) := rfl
  rw [hdeny, matchesAnyToolPattern_uniqueStrings, happend, happend]

/-- What the intersection makes available, the restricted profile does. -/
theorem isAvailable_scheduled {toolName : String}
    (h : isAvailable (buildScheduledCreatorIntersectionProfile creatorProfile runId
      knownToolNames now) toolName = true) :
    isAvailable scheduledRestrictedProfile toolName = true := by
  rw [isAvailable, Bool.and_eq_true, Bool.not_eq_true', deny_intersection, Bool.or_eq_false_iff,
    Bool.or_eq_false_iff] at h
  obtain ⟨pattern, -, hmatch⟩ := List.any_eq_true.mp h.1
  have hstar := matchesToolPattern_star_of_matches hmatch
  rw [isAvailable, h.2.1.1, Bool.not_false, Bool.and_true]
  exact List.any_eq_true.mpr ⟨"*", List.mem_singleton_self _, hstar⟩

/-- A creator with a tool pattern has what the intersection makes available. -/
theorem isAvailable_creator (hpatterns : creatorProfile.toolPatterns ≠ []) {toolName : String}
    (h : isAvailable (buildScheduledCreatorIntersectionProfile creatorProfile runId
      knownToolNames now) toolName = true) :
    isAvailable creatorProfile toolName = true := by
  rw [isAvailable, Bool.and_eq_true, Bool.not_eq_true', deny_intersection, Bool.or_eq_false_iff,
    Bool.or_eq_false_iff] at h
  have hsame : creatorPatterns creatorProfile = creatorProfile.toolPatterns := by
    rw [creatorPatterns, if_pos (List.length_pos_iff.mpr hpatterns)]
  rw [isAvailable, h.2.1.2, Bool.not_false, Bool.and_true, ← hsame]
  exact h.1

/-- A creator without tool patterns has no tool. -/
theorem isAvailable_of_no_patterns (hpatterns : creatorProfile.toolPatterns = [])
    (toolName : String) : isAvailable creatorProfile toolName = false := by
  rw [isAvailable, hpatterns]
  rfl

/-- The intersection for a creator without tool patterns has every tool that neither profile
denies. -/
theorem isAvailable_intersection_of_no_patterns (hpatterns : creatorProfile.toolPatterns = [])
    (toolName : String) :
    isAvailable (buildScheduledCreatorIntersectionProfile creatorProfile runId knownToolNames
        now) toolName =
      (matchesToolPattern "*" toolName &&
        !matchesAnyToolPattern (scheduledRestrictedProfile.deny ++ creatorProfile.deny)
          toolName) := by
  have hstar : creatorPatterns creatorProfile = ["*"] := by
    rw [creatorPatterns, hpatterns]
    rfl
  have hcatalog : catalogDeniedByCreator creatorProfile knownToolNames = [] := by
    rw [catalogDeniedByCreator, hstar]
    rfl
  have hnone : matchesAnyToolPattern [] toolName = false := rfl
  have hone : matchesAnyToolPattern ["*"] toolName = matchesToolPattern "*" toolName :=
    Bool.or_false _
  rw [isAvailable, deny_intersection, hcatalog, hnone, Bool.or_false]
  have hpatterns : (buildScheduledCreatorIntersectionProfile creatorProfile runId
      knownToolNames now).toolPatterns = ["*"] := hstar
  rw [hpatterns, hone, matchesAnyToolPattern, matchesAnyToolPattern, matchesAnyToolPattern,
    List.any_append]

/-- A scheduled turn gets no more than either profile, unless the creator's profile has no tool
pattern and some known tool is denied by neither. -/
theorem intersection_within_iff (creatorProfile : PermissionProfileRecord) (runId now : String)
    (knownToolNames : List String) :
    (Within knownToolNames
        (buildScheduledCreatorIntersectionProfile creatorProfile runId knownToolNames now)
        creatorProfile ∧
      Within knownToolNames
        (buildScheduledCreatorIntersectionProfile creatorProfile runId knownToolNames now)
        scheduledRestrictedProfile) ↔
    (creatorProfile.toolPatterns ≠ [] ∨
      ∀ toolName ∈ knownToolNames, matchesToolPattern "*" toolName = true →
        matchesAnyToolPattern (scheduledRestrictedProfile.deny ++ creatorProfile.deny)
          toolName = true) := by
  have hallow : ∀ other toolName, matchesAnyToolPattern (buildScheduledCreatorIntersectionProfile
      creatorProfile runId knownToolNames now).allow toolName = true →
      matchesAnyToolPattern other toolName = true :=
    fun _ _ h => absurd h Bool.false_ne_true
  constructor
  · rintro ⟨hcreator, -⟩
    by_contra hnot
    obtain ⟨hempty, hsome⟩ := not_or.mp hnot
    have hpatterns := not_not.mp hempty
    push Not at hsome
    obtain ⟨toolName, hknown, hstar, hdeny⟩ := hsome
    have havailable : isAvailable (buildScheduledCreatorIntersectionProfile creatorProfile runId
        knownToolNames now) toolName = true := by
      rw [isAvailable_intersection_of_no_patterns hpatterns, hstar,
        Bool.eq_false_iff.mpr hdeny]
      rfl
    have hnone := hcreator.tools toolName hknown havailable
    rw [isAvailable_of_no_patterns hpatterns] at hnone
    exact Bool.false_ne_true hnone
  · intro h
    refine ⟨⟨?_, stricter_approval_right _ _, readsWithin_right _ _, hallow _⟩,
      ⟨fun _ _ => isAvailable_scheduled, stricter_approval_left _ _, readsWithin_left _ _,
        hallow _⟩⟩
    intro toolName hknown havailable
    by_cases hpatterns : creatorProfile.toolPatterns = []
    · rw [isAvailable_intersection_of_no_patterns hpatterns, Bool.and_eq_true,
        Bool.not_eq_true'] at havailable
      have hdeny := h.resolve_left (not_not.mpr hpatterns) toolName hknown havailable.1
      exact absurd (hdeny.symm.trans havailable.2) Bool.true_eq_false.mp
    · exact isAvailable_creator hpatterns havailable

/-- `fs.read` is denied by no profile here: the creator has no tool, the scheduled turn has it. -/
theorem empty_patterns_widened :
    ¬ Within ["fs.read"]
      (buildScheduledCreatorIntersectionProfile { scheduledRestrictedProfile with
        toolPatterns := []
        deny := [] } "run" ["fs.read"] "2026-06-23T00:00:00.000Z")
      { scheduledRestrictedProfile with
        toolPatterns := []
        deny := [] } := by
  intro h
  have havailable := h.tools "fs.read" (List.mem_singleton_self _) (by decide +kernel)
  exact absurd havailable (by decide +kernel)

end Intersection

end GoatCitadel.Policy
