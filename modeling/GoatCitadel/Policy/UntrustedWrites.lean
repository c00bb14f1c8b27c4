import GoatCitadel.Policy.Evaluation

/-!
# Untrusted content and the write targets

`isUntrustedToolEscalation` keeps untrusted content from the tools that its
capability policy counts as privileged, and `extractWritePathCandidates` knows
which tools write files.  The two lists are kept apart: `fs.patch`, `fs.copy` and
`browser.screenshot` have write targets and are not privileged.  Untrusted
content writes nothing except through these three, and through them it writes
wherever some install lets it: every path but the root of the file system and
those with a NUL can be a link that leads into a write jail.
-/

namespace GoatCitadel.Policy

open GoatCitadel.Support
open GoatCitadel.Sandbox

/-- The trust levels that `isUntrustedToolEscalation` acts on. -/
def isUntrusted (trustLevel : ToolExecutionTrustLevel) : Bool :=
  trustLevel = .untrustedExternal || trustLevel = .mixedUntrusted

/-- Only the native installation, whose request is taken for its own name, is
evaluated under the fixed policy. -/
def AccessInput.Issued (input : AccessInput) : Prop :=
  input.nativeInstallation = true → input.request.toolName = nativeInstallationPolicy.name

/-- An allowed request of untrusted content has no write target. -/
def WritesNothing (engine : Engine) (store : Store) (now : Nat) (input : AccessInput) : Prop :=
  isUntrusted (resolveToolTrustLevel input.request) = true →
    ∀ evaluation, evaluateAccessInternal engine store now input = .ok evaluation →
      evaluation.allowed = true → extractWritePathCandidates engine input.request = []

/-! ## The write tools that are not privileged -/

/-- The trimmed, non-empty texts among the named arguments. -/
def pathTexts (args : Option JsonObject) (keys : List String) : List String :=
  keys.filterMap fun key =>
    ((args.bind (·.lookup key)).bind JsonValue.asString?).bind fun text => nonEmpty (trim text)

/-- The write targets of a tool that is not privileged. -/
def unblockedTargets (toolName : String) (args : Option JsonObject) : List String :=
  if toolName = "fs.patch" then pathTexts args ["path"]
  else if toolName = "fs.copy" then pathTexts args ["to"]
  else if toolName = "browser.screenshot" then pathTexts args ["outputPath", "path"]
  else []

/-- The path that the call reads. -/
def copiedFrom (toolName : String) (args : Option JsonObject) : Option String :=
  if toolName = "fs.copy" then (args.bind (·.lookup "from")).bind JsonValue.asString? else none

/-- No file system call takes the path. -/
def namesNul (path : String) : Bool := hasNul (resolvePath [] path)

/-- The path is the root of the file system, whatever the disk holds. -/
def namesRoot (path : String) : Bool :=
  isAbsolutePath path && (resolvePath [] path).isEmpty

/-- Every install refuses the call for one of its paths. -/
def refusedEverywhere (toolName : String) (args : Option JsonObject) : Bool :=
  (unblockedTargets toolName args).any (fun target => namesRoot target || namesNul target) ||
    (copiedFrom toolName args).any namesNul

variable {request : ToolRequest} {engine : Engine}

theorem pathTexts_none (keys : List String) : pathTexts none keys = [] := by
  simp [pathTexts]

theorem unblockedTargets_none (toolName : String) : unblockedTargets toolName none = [] := by
  simp [unblockedTargets, pathTexts_none]

theorem pathTexts_args (request : ToolRequest) (keys : List String) :
    (pathTexts request.args keys).map (fun path => (⟨path, .write⟩ : WritePathCandidate)) =
      writeCandidates .write (keys.map request.stringArg) := by
  simp only [pathTexts, writeCandidates, List.filterMap_map]
  rfl

/-- A name that is not privileged is none of the names of the list. -/
theorem ne_of_not_blocked {toolName name : String}
    (h : blocksUntrustedEscalation toolName = false)
    (hname : blocksUntrustedEscalation name = true) : toolName ≠ name := by
  rintro rfl
  exact Bool.false_ne_true (h.symm.trans hname)

/-- The write targets of a request whose tool is not privileged. -/
theorem extractWritePathCandidates_of_not_blocked (engine : Engine) {request : ToolRequest}
    (h : blocksUntrustedEscalation request.toolName = false) :
    extractWritePathCandidates engine request =
      (unblockedTargets request.toolName request.args).map fun path => ⟨path, .write⟩ := by
  have hwrite := ne_of_not_blocked h (show blocksUntrustedEscalation "fs.write" = true by decide)
  have hartifact := ne_of_not_blocked h
    (show blocksUntrustedEscalation "artifacts.create" = true by decide)
  have hdocument := ne_of_not_blocked h
    (show blocksUntrustedEscalation "documents.create" = true by decide)
  have hpresentation := ne_of_not_blocked h
    (show blocksUntrustedEscalation "presentations.create" = true by decide)
  have hdelete := ne_of_not_blocked h (show blocksUntrustedEscalation "fs.delete" = true by decide)
  have hmove := ne_of_not_blocked h (show blocksUntrustedEscalation "fs.move" = true by decide)
  have hinteract := ne_of_not_blocked h
    (show blocksUntrustedEscalation "browser.interact" = true by decide)
  cases hargs : request.args with
  | none => simp [extractWritePathCandidates, hargs, unblockedTargets_none]
  | some args =>
      rw [← hargs]
      simp only [extractWritePathCandidates, hargs, List.contains_cons, List.contains_nil,
        Bool.or_false, Bool.or_eq_true, beq_iff_eq, hwrite, hartifact, hdocument, hpresentation,
        hdelete, hmove, hinteract, false_or, or_false, if_false]
      rw [← hargs]
      simp only [unblockedTargets]
      by_cases hpatch : request.toolName = "fs.patch"
      · rw [if_pos hpatch, if_pos hpatch, pathTexts_args]
        rfl
      · rw [if_neg hpatch, if_neg hpatch]
        by_cases hcopy : request.toolName = "fs.copy"
        · rw [if_pos hcopy, if_pos hcopy, pathTexts_args]
          rfl
        · rw [if_neg hcopy, if_neg hcopy]
          by_cases hscreenshot : request.toolName = "browser.screenshot"
          · rw [if_pos hscreenshot, if_pos hscreenshot, pathTexts_args]
            rfl
          · rw [if_neg hscreenshot, if_neg hscreenshot]
            rfl

/-! ## Allowed requests of untrusted content -/

theorem not_blocked_of_untrusted {trustLevel : ToolExecutionTrustLevel} {toolName : String}
    (huntrusted : isUntrusted trustLevel = true)
    (h : isUntrustedToolEscalation trustLevel toolName = false) :
    blocksUntrustedEscalation toolName = false := by
  have hsplit : isUntrustedToolEscalation trustLevel toolName =
      (isUntrusted trustLevel && blocksUntrustedEscalation toolName) := rfl
  rw [hsplit, huntrusted, Bool.true_and] at h
  exact h

/-- The capability policy of a mapped request blocks it; another request is
judged under its own name. -/
theorem judged_of_not_blocked {input : AccessInput} {identity : InvocationPolicy}
    (hissued : input.Issued) (hidentity : invocationPolicyFor engine input = .ok identity)
    (h : blocksUntrustedEscalation identity.capabilityToolName = false) :
    blocksUntrustedEscalation input.request.toolName = false ∧
      identity.evaluationRequest = input.request := by
  by_cases hnative : input.nativeInstallation = true
  · rw [invocationPolicyFor, if_pos hnative] at hidentity
    cases hidentity
    rw [hissued hnative]
    exact ⟨by decide, rfl⟩
  · rw [invocationPolicyFor, if_neg hnative] at hidentity
    obtain ⟨_, _, mappedTarget, _, rfl, hread⟩ := resolveInvocationPolicy_eq_ok hidentity
    cases mappedTarget with
    | none => exact ⟨h, rfl⟩
    | some target =>
        have htarget : blocksUntrustedEscalation target.policyToolName = false := h
        obtain hmcp | hmesh := hread.template target rfl
        · exact absurd (hmcp ▸ htarget) (by decide)
        · exact absurd (hmesh ▸ htarget) (by decide)

/-- What holds of a request of untrusted content that is allowed. -/
structure AllowedCall (engine : Engine) (request : ToolRequest) : Prop where
  /-- It writes through a tool that is not privileged. -/
  targets : extractWritePathCandidates engine request =
    (unblockedTargets request.toolName request.args).map fun path => ⟨path, .write⟩
  readable : ∃ accesses, readAccesses engine request = .ok accesses
  admitted : ∃ allowGrants outsideRootWrite, (extractWritePathCandidates engine request).forM
    (validateWriteCandidate engine allowGrants outsideRootWrite) = .ok ()

theorem candidates_of_validateStructuralSafety {readAccessMode : FilesystemReadAccessMode}
    {approvalBypass : Bool} {allowGrants : List ToolGrantRecord}
    {outsideRootWrite : OutsideRootWriteEvaluation}
    (h : validateStructuralSafety engine request readAccessMode approvalBypass allowGrants
      outsideRootWrite = .ok ()) :
    (extractWritePathCandidates engine request).forM
      (validateWriteCandidate engine allowGrants outsideRootWrite) = .ok () := by
  simp only [validateStructuralSafety, bind, Except.bind, throw, throwThe,
    MonadExceptOf.throw, pure, Except.pure] at h
  repeat' split at h
  all_goals first | assumption | cases h

theorem allowedCall {store : Store} {now : Nat} {input : AccessInput}
    {evaluation : AccessEvaluation} (hissued : input.Issued)
    (huntrusted : isUntrusted (resolveToolTrustLevel input.request) = true)
    (h : evaluateAccessInternal engine store now input = .ok evaluation)
    (hallowed : evaluation.allowed = true) : AllowedCall engine input.request := by
  simp only [evaluateAccessInternal, accessContext] at h
  cases hidentity : invocationPolicyFor engine input with
  | error error => simp [hidentity, Except.map, Except.bind] at h
  | ok identity =>
      rw [hidentity] at h
      obtain ⟨accesses, hadmission⟩ := admission_of_allowed h hallowed
      obtain ⟨toolName, args, hrequest⟩ := invocationPolicyFor_evaluationRequest hidentity
      have hlevel : resolveToolTrustLevel identity.evaluationRequest =
          resolveToolTrustLevel input.request := by
        rw [hrequest]
        rfl
      have htrusted := hadmission.trusted
      simp only [hlevel] at htrusted
      obtain ⟨hnotBlocked, hsame⟩ := judged_of_not_blocked hissued hidentity
        (not_blocked_of_untrusted huntrusted htrusted)
      have hreadable := hadmission.readable
      have hstructural := candidates_of_validateStructuralSafety hadmission.structural
      simp only [hsame] at hreadable hstructural
      exact ⟨extractWritePathCandidates_of_not_blocked engine hnotBlocked, ⟨accesses, hreadable⟩,
        _, _, hstructural⟩

/-! ## Paths that every install refuses -/

theorem hasNul_resolve {host : Host} {path : String} (h : namesNul path = true) :
    hasNul (host.resolve path) = true := by
  by_cases habsolute : isAbsolutePath path = true
  · rw [Host.resolve, resolvePath_of_absolute habsolute]
    exact h
  · obtain ⟨kept, -, hresolve⟩ := normalize_append host.cwd [] (splitPath path)
    have hpath : host.resolve path = kept ++ resolvePath [] path := by
      simpa [Host.resolve, resolvePath, textBase, habsolute] using hresolve
    rw [hpath, hasNul, List.any_append]
    exact Bool.or_eq_true_iff.mpr (.inr h)

theorem resolve_root {host : Host} {path : String} (h : namesRoot path = true) :
    host.resolve path = [] := by
  obtain ⟨habsolute, hempty⟩ := Bool.and_eq_true_iff.mp h
  rw [Host.resolve, resolvePath_of_absolute habsolute]
  exact List.isEmpty_iff.mp hempty

section Refused

variable {engine : Engine} {target : String}

theorem assertNotHardForbiddenWritePath_refused
    (h : (namesRoot target || namesNul target) = true) :
    assertNotHardForbiddenWritePath engine (engine.host.resolve target) ≠ .ok () := by
  obtain hroot | hnul := Bool.or_eq_true_iff.mp h
  · rw [assertNotHardForbiddenWritePath, resolve_root hroot, classify_of_root]
    exact nofun
  · rw [assertNotHardForbiddenWritePath, classify_of_nul (hasNul_resolve hnul)]
    exact nofun

theorem ofJail_refused {α : Type} {host : Host} {check : Except JailError α}
    (h : namesNul target = true) (value : α) : ofJail host target check ≠ .ok value := by
  rw [ofJail, if_pos (hasNul_resolve h)]
  exact nofun

/-- The root resolves to itself. -/
theorem assertWritePathInJail_root {host : Host} {roots resolved : List String}
    (hroot : host.resolve target = [])
    (h : assertWritePathInJail host target roots = .ok resolved) : resolved = [] := by
  simp only [assertWritePathInJail, bind, Except.bind, resolvePathViaExistingAncestor,
    hroot] at h
  split at h
  · cases h
  next found hfound =>
    split at h
    · cases h
    · cases h
      exact climb_found walk_nil hfound

theorem assertToolWritePath_refused (h : (namesRoot target || namesNul target) = true)
    (intent : ToolWriteIntent) (admitted : List String) :
    assertToolWritePath engine ⟨target, intent⟩ admitted ≠ .ok () := by
  intro hok
  simp only [assertToolWritePath, bind, Except.bind] at hok
  split at hok
  · cases hok
  next resolved hresolved =>
    obtain hroot | hnul := Bool.or_eq_true_iff.mp h
    · have hjail : resolved = [] := by
        rw [ofJail] at hresolved
        split at hresolved
        · cases hresolved
        · cases hassert : assertWritePathInJail engine.host target
              (effectiveToolWriteRoots engine.config.sandbox intent ++
                if intent = .write then admitted else []) with
          | error error =>
              rw [hassert] at hresolved
              cases hresolved
          | ok found =>
              rw [hassert] at hresolved
              cases hresolved
              exact assertWritePathInJail_root (resolve_root hroot) hassert
      rw [hjail, assertNotHardForbiddenWritePath, classify_of_root] at hok
      cases hok
    · exact ofJail_refused hnul resolved hresolved

theorem validateWriteCandidate_refused (h : (namesRoot target || namesNul target) = true)
    (allowGrants : List ToolGrantRecord) (outsideRootWrite : OutsideRootWriteEvaluation) :
    validateWriteCandidate engine allowGrants outsideRootWrite ⟨target, .write⟩ ≠ .ok () := by
  simp only [validateWriteCandidate]
  split
  · exact assertNotHardForbiddenWritePath_refused h
  · split
    · exact assertToolWritePath_refused h _ _
    · split <;> exact assertToolWritePath_refused h _ _
    · split
      · exact assertNotHardForbiddenWritePath_refused h
      · exact assertToolWritePath_refused h _ _

end Refused

theorem forM_ok {α ε : Type} {f : α → Except ε Unit} {items : List α}
    (h : items.forM f = .ok ()) {item : α} (hitem : item ∈ items) : f item = .ok () := by
  induction items with
  | nil => cases hitem
  | cons first rest ih =>
      rw [List.forM] at h
      cases hfirst : f first with
      | error error =>
          rw [hfirst] at h
          cases h
      | ok value =>
          rw [hfirst] at h
          obtain rfl | hrest := List.mem_cons.mp hitem
          · exact hfirst
          · exact ih h hrest

theorem extractReadPathCandidates_of_copiedFrom
    (h : request.toolName = "fs.patch" ∨ request.toolName = "fs.copy" ∨
      request.toolName = "browser.screenshot") :
    extractReadPathCandidates engine request =
      .ok (copiedFrom request.toolName request.args).toList := by
  cases hargs : request.args with
  | none => simp [extractReadPathCandidates, copiedFrom, hargs]
  | some args =>
      obtain htool | htool | htool := h <;>
        simp [extractReadPathCandidates, copiedFrom, htool, hargs, pathReadingTools,
          ToolRequest.stringArg, ToolRequest.arg, readDocsIngestSourceType, bind, Except.bind]

/-- A call that every install refuses is not allowed. -/
theorem AllowedCall.not_refused (h : AllowedCall engine request) :
    refusedEverywhere request.toolName request.args = false := by
  rw [Bool.eq_false_iff]
  intro hrefused
  obtain htarget | hread := Bool.or_eq_true_iff.mp hrefused
  · obtain ⟨target, hmem, hnever⟩ := List.any_eq_true.mp htarget
    obtain ⟨allowGrants, outsideRootWrite, hall⟩ := h.admitted
    have hcandidate : (⟨target, .write⟩ : WritePathCandidate) ∈
        extractWritePathCandidates engine request := by
      rw [h.targets]
      exact List.mem_map_of_mem hmem
    exact validateWriteCandidate_refused hnever _ _ (forM_ok hall hcandidate)
  · have hcopy : request.toolName = "fs.copy" := by
      by_contra hother
      simp [copiedFrom, hother] at hread
    obtain ⟨accesses, haccesses⟩ := h.readable
    rw [readAccesses, extractReadPathCandidates_of_copiedFrom (.inr (.inl hcopy))] at haccesses
    cases hfrom : copiedFrom request.toolName request.args with
    | none => simp [hfrom] at hread
    | some path =>
        rw [hfrom] at hread haccesses
        simp only [Option.toList, bind, Except.bind, List.mapM_cons] at haccesses
        split at haccesses
        · cases haccesses
        · next access haccess => exact ofJail_refused hread access haccess

/-! ## An install that admits the three tools

Its write jail is one folder, and every path that the call names leads there. -/

/-- A folder whose entries are links to itself, beside links of the same names
that lead to it. -/
def hubTree (names : List String) : FileNode :=
  .dir (("hub", .dir (names.map fun name => (name, .symlink "."))) ::
    names.map fun name => (name, .symlink "hub"))

theorem lookup_links {names : List String} {name : String} (text : String)
    (h : name ∈ names) :
    (names.map fun name => (name, FileNode.symlink text)).lookup name = some (.symlink text) := by
  induction names with
  | nil => cases h
  | cons first rest ih =>
      by_cases hfirst : name = first
      · simp [hfirst]
      · rw [List.map_cons, List.lookup_cons, beq_false_of_ne hfirst]
        exact ih ((List.mem_cons.mp h).resolve_left hfirst)

section Hub

variable {names path : List String} {name : String}

theorem hubTree_hub : ∃ entries, (hubTree names).lookup ["hub"] = some (.dir entries) :=
  ⟨_, rfl⟩

theorem hubTree_below (h : name ∈ names) :
    (hubTree names).lookup ["hub", name] = some (.symlink ".") := by
  have hlinks := lookup_links "." h
  simp [hubTree, FileNode.lookup, hlinks]

theorem hubTree_beside (h : name ∈ names) (hname : name ≠ "hub") :
    (hubTree names).lookup [name] = some (.symlink "hub") := by
  have hlinks := lookup_links "hub" h
  simp [hubTree, FileNode.lookup, List.lookup_cons, beq_false_of_ne hname, hlinks]

theorem plainName_hub : PlainName "hub" := by
  simp [PlainName]

/-- From the folder every path leads back to it. -/
theorem walk_hub (hplain : ∀ name ∈ path, PlainName name) (hnames : ∀ name ∈ path, name ∈ names)
    (left : Nat) (hleft : path.length ≤ left) :
    ∃ left', walk (hubTree names) left ["hub"] path = .found left' ["hub"] := by
  induction path generalizing left with
  | nil => exact ⟨left, walk_nil⟩
  | cons name rest ih =>
      cases left with
      | zero => simp at hleft
      | succ left =>
          rw [walk_symlink (hplain name List.mem_cons_self)
            (hubTree_below (hnames name List.mem_cons_self))]
          have hdot : walk (hubTree names) left (textBase ["hub"] ".") (splitPath "." ++ rest) =
              walk (hubTree names) left ["hub"] rest := walk_skip (.inr rfl)
          simp only [if_false, String.reduceEq, hdot]
          exact ih (fun x hx => hplain x (List.mem_cons_of_mem _ hx))
            (fun x hx => hnames x (List.mem_cons_of_mem _ hx)) left (by simpa using hleft)

/-- From the root every path but the root itself leads to the folder. -/
theorem walk_hubTree (hpath : path ≠ []) (hplain : ∀ name ∈ path, PlainName name)
    (hnames : ∀ name ∈ path, name ∈ names) (left : Nat) (hleft : path.length ≤ left) :
    ∃ left', walk (hubTree names) left [] path = .found left' ["hub"] := by
  cases path with
  | nil => exact absurd rfl hpath
  | cons name rest =>
      have hrest := fun left => @walk_hub names rest
        (fun x hx => hplain x (List.mem_cons_of_mem _ hx))
        (fun x hx => hnames x (List.mem_cons_of_mem _ hx)) left
      obtain ⟨entries, hhub⟩ := @hubTree_hub names
      have henter : ∀ left, walk (hubTree names) left [] ("hub" :: rest) =
          walk (hubTree names) left ["hub"] rest := fun left => walk_dir plainName_hub hhub
      rw [List.length_cons] at hleft
      by_cases hname : name = "hub"
      · rw [hname, henter]
        exact hrest left (by omega)
      · cases left with
        | zero => omega
        | succ left =>
            rw [walk_symlink (hplain name List.mem_cons_self)
              (hubTree_beside (hnames name List.mem_cons_self) hname)]
            have hlink : walk (hubTree names) left (textBase [] "hub")
                (splitPath "hub" ++ rest) = walk (hubTree names) left ["hub"] rest :=
              henter left
            simp only [if_false, String.reduceEq, hlink]
            exact hrest left (by omega)

theorem lstat_hubTree (hpath : path ≠ []) (hplain : ∀ name ∈ path, PlainName name)
    (hnames : ∀ name ∈ path, name ∈ names) (left : Nat) (hleft : path.length ≤ left) :
    ∃ node, lstat (hubTree names) left path = .ok node := by
  cases path using List.reverseRecOn with
  | nil => exact absurd rfl hpath
  | append_singleton init last =>
      obtain ⟨entries, hhub⟩ := @hubTree_hub names
      have hlast : last ∈ names := hnames last (by simp)
      by_cases hinit : init = []
      · subst hinit
        by_cases hname : last = "hub"
        · refine ⟨.dir entries, ?_⟩
          simp [lstat, hname, FileNode.isDirAt, FileNode.isDir, hubTree, FileNode.lookup] at hhub ⊢
          exact hhub
        · refine ⟨.symlink "hub", ?_⟩
          simp [lstat, FileNode.isDirAt, hubTree_beside hlast hname]
          rfl
      · obtain ⟨left', hwalk⟩ := @walk_hubTree names init hinit
          (fun x hx => hplain x (List.mem_append_left _ hx))
          (fun x hx => hnames x (List.mem_append_left _ hx)) left
          (by rw [List.length_append] at hleft; omega)
        refine ⟨.symlink ".", ?_⟩
        simp [lstat, hwalk, FileNode.isDirAt, hhub, FileNode.isDir, hubTree_below hlast]

end Hub

/-- A path that exists resolves to its location, if that lies in the roots. -/
theorem resolve_of_found {host : Host} {targetPath : String} {rootGuard : Option RootGuard}
    {left : Nat} {location : List String} {node : FileNode}
    (hlstat : lstat host.tree host.linkLimit (host.resolve targetPath) = .ok node)
    (hwalk : walk host.tree host.linkLimit [] (host.resolve targetPath) = .found left location)
    (hin : ∀ guard, rootGuard = some guard →
      isWithinAnyRoot host location guard.roots = true) :
    resolvePathViaExistingAncestor host targetPath rootGuard = .ok location := by
  have hreal := realpath_eq_ok.mpr ⟨left, hwalk⟩
  have hexists : pathExists host.tree host.linkLimit (host.resolve targetPath) = true := by
    rw [pathExists, hreal]
    rfl
  have hturn : ∀ lexicalRoots follow above,
      probeAncestor host rootGuard lexicalRoots follow (host.resolve targetPath)
        (host.resolve targetPath).length above = .ok location := by
    intro lexicalRoots follow above
    simp only [probeAncestor, List.take_length, lstatSync, hlstat, hexists, realpathSync, hreal,
      bind, Except.bind]
    have hexisting : resolveExisting host rootGuard lexicalRoots (host.resolve targetPath)
        (host.resolve targetPath) location = .ok location := by
      cases rootGuard with
      | none => simp [resolveExisting]
      | some guard =>
          simp [resolveExisting, hin guard rfl, assertWithinRoots, bind, Except.bind]
    exact hexisting
  have hclimb : ∀ lexicalRoots follow,
      climb host rootGuard lexicalRoots follow (host.resolve targetPath)
        (host.resolve targetPath).length = .ok location := by
    intro lexicalRoots follow
    have hfirst := hturn lexicalRoots follow
    cases hlength : (host.resolve targetPath).length with
    | zero =>
        rw [hlength] at hfirst
        exact hfirst _
    | succ kept =>
        rw [hlength] at hfirst
        exact hfirst _
  exact hclimb _ _

/-- Deep enough for the `..` of the paths. -/
def hubCwd (paths : List String) : List String :=
  List.replicate ((paths.flatMap splitPath).length + 1) "w"

def hubNames (paths : List String) : List String :=
  paths.flatMap (resolvePath (hubCwd paths))

theorem hubCwd_plain (paths : List String) : ∀ name ∈ hubCwd paths, PlainName name := by
  intro name h
  rw [List.eq_of_mem_replicate h]
  simp [PlainName]

def hubHost (paths : List String) : Host where
  tree := hubTree (hubNames paths)
  cwd := hubCwd paths
  linkLimit := (hubNames paths).length
  lstatThrowsNotDir := true
  rootIsDir := rfl
  cwdPlain := hubCwd_plain paths

section HubHost

variable {paths : List String} {path : String}

theorem hubHost_resolve_ne_nil (hpath : path ∈ paths) (h : namesRoot path = false) :
    (hubHost paths).resolve path ≠ [] := by
  by_cases habsolute : isAbsolutePath path = true
  · rw [Host.resolve, resolvePath_of_absolute habsolute]
    simpa [namesRoot, habsolute] using h
  · have hparts : (splitPath path).length ≤ (paths.flatMap splitPath).length :=
      (List.sublist_flatten_of_mem (List.mem_map_of_mem hpath)).length_le
    have hlength := length_normalize (hubCwd paths) (splitPath path)
    have hresolve : (hubHost paths).resolve path =
        normalize (hubCwd paths) (splitPath path) := by
      simp [Host.resolve, resolvePath, textBase, habsolute, hubHost]
    intro hnil
    rw [← hresolve, hnil, hubCwd, List.length_replicate, List.length_nil] at hlength
    omega

theorem hubHost_noNul (h : namesNul path = false) :
    hasNul ((hubHost paths).resolve path) = false := by
  by_cases habsolute : isAbsolutePath path = true
  · rw [Host.resolve, resolvePath_of_absolute habsolute]
    exact h
  · obtain ⟨kept, hkept, hresolve⟩ := normalize_append (hubCwd paths) [] (splitPath path)
    have hpath : (hubHost paths).resolve path = kept ++ resolvePath [] path := by
      simpa [Host.resolve, resolvePath, textBase, habsolute, hubHost] using hresolve
    have hcwd : hasNul kept = false := by
      rw [hasNul, List.any_eq_false]
      intro name hname
      rw [List.eq_of_mem_replicate (hkept.subset hname)]
      decide
    have hboth : hasNul (kept ++ resolvePath [] path) =
        (hasNul kept || hasNul (resolvePath [] path)) := List.any_append
    rw [hpath, hboth, hcwd]
    exact h

/-- Every path of the call exists. -/
theorem hubHost_found (hpath : path ∈ paths) :
    ∃ node left location,
      lstat (hubHost paths).tree (hubHost paths).linkLimit ((hubHost paths).resolve path) =
          .ok node ∧
        walk (hubHost paths).tree (hubHost paths).linkLimit [] ((hubHost paths).resolve path) =
          .found left location ∧
        (namesRoot path = false → location = ["hub"]) := by
  have hplain := resolvePath_plain path (hubCwd_plain paths)
  have hsub : ((hubHost paths).resolve path).Sublist (hubNames paths) :=
    List.sublist_flatten_of_mem (List.mem_map_of_mem hpath)
  by_cases hnil : (hubHost paths).resolve path = []
  · refine ⟨hubTree (hubNames paths), (hubNames paths).length, [], ?_, ?_, ?_⟩
    · rw [hnil]
      rfl
    · rw [hnil]
      exact walk_nil
    · intro hroot
      exact absurd hnil (hubHost_resolve_ne_nil hpath hroot)
  · obtain ⟨left, hwalk⟩ := walk_hubTree hnil hplain (fun x hx => hsub.subset hx) _
      hsub.length_le
    obtain ⟨node, hlstat⟩ := lstat_hubTree hnil hplain (fun x hx => hsub.subset hx) _
      hsub.length_le
    exact ⟨node, left, ["hub"], hlstat, hwalk, fun _ => rfl⟩

theorem hubHost_inside : isWithinAnyRoot (hubHost paths) ["hub"] ["/hub"] = true := by
  obtain ⟨entries, hhub⟩ := @hubTree_hub (hubNames paths)
  have hresolve : (hubHost paths).resolve "/hub" = ["hub"] :=
    (resolvePath_of_absolute (by decide)).trans (by decide)
  have hreal : realpath (hubHost paths).tree (hubHost paths).linkLimit ["hub"] =
      .ok ["hub"] :=
    realpath_eq_ok.mpr ⟨_, (walk_dir plainName_hub hhub).trans walk_nil⟩
  simp only [isWithinAnyRoot, List.any_cons, List.any_nil, normalizedRootsForComparison,
    hresolve, hreal, if_true]
  decide

end HubHost

/-- The write tools that are not privileged, as the default registry has them. -/
def unblockedRegistry : List ToolDefinition :=
  [{ name := "fs.patch", riskLevel := .danger, requiresApproval := true },
    { name := "fs.copy", riskLevel := .caution, requiresApproval := false },
    { name := "browser.screenshot", riskLevel := .danger, requiresApproval := false }]

theorem unblockedRegistry_named (name : String) (toolDef : ToolDefinition)
    (h : unblockedRegistry.find? (fun tool => tool.name = name) = some toolDef) :
    toolDef.name = name := by
  simpa using List.find?_some h

def hubConfig : ToolPolicyConfig where
  tools := { allow := ["*"] }
  agents := []
  sandbox :=
    { smallSandbox with writeJailRoots := ["/hub"], readAccessMode := some .fullDisk }

def openInstall (paths : List String) : Engine :=
  { smallInstall with
    config := hubConfig
    registry :=
      ⟨fun name => unblockedRegistry.find? fun tool => tool.name = name,
        unblockedRegistry_named⟩
    host := hubHost paths
    homeDir := "" }

/-- The paths that a call names. -/
def callPaths (request : ToolRequest) : List String :=
  unblockedTargets request.toolName request.args ++
    (copiedFrom request.toolName request.args).toList

section Open

variable {request : ToolRequest} {paths : List String}

theorem openInstall_readAccesses
    (htool : request.toolName = "fs.patch" ∨ request.toolName = "fs.copy" ∨
      request.toolName = "browser.screenshot")
    (hread : (copiedFrom request.toolName request.args).any namesNul = false)
    (hpaths : ∀ path ∈ copiedFrom request.toolName request.args, path ∈ paths) :
    ∃ accesses, readAccesses (openInstall paths) request = .ok accesses := by
  rw [readAccesses, extractReadPathCandidates_of_copiedFrom htool]
  cases hfrom : copiedFrom request.toolName request.args with
  | none => exact ⟨[], rfl⟩
  | some path =>
      rw [hfrom] at hread hpaths
      obtain ⟨node, left, location, hlstat, hwalk, -⟩ := hubHost_found (hpaths path rfl)
      have hresolved : resolvePathViaExistingAncestor (hubHost paths) path none = .ok location :=
        resolve_of_found hlstat hwalk nofun
      have haccess : ∃ access, ofJail (hubHost paths) path (resolveReadPathAccess (hubHost paths)
          path ["/hub"] []) = .ok access := by
        rw [ofJail, if_neg (Bool.eq_false_iff.mp (hubHost_noNul hread)), resolveReadPathAccess,
          hresolved]
        exact ⟨_, rfl⟩
      obtain ⟨access, haccess⟩ := haccess
      have hengine : ofJail (openInstall paths).host path
          (resolveReadPathAccess (openInstall paths).host path
            (toolReadableWriteRoots (openInstall paths).config.sandbox)
            (openInstall paths).config.sandbox.readOnlyRoots) = .ok access := haccess
      refine ⟨[access], ?_⟩
      simp only [bind, Except.bind, Option.toList, List.mapM_cons, List.mapM_nil, hengine]
      rfl

theorem openInstall_classify :
    classifyHardForbiddenWritePath (hubHost paths) (writeSafetyContext (openInstall paths))
      (renderPath ["hub"]) = none := by
  have hhub : (hubHost paths).resolve "/hub" = ["hub"] :=
    (resolvePath_of_absolute (by decide)).trans (by decide)
  have hshown : stripTrailingSeparator (renderPath ["hub"]) = "/hub" := by decide
  have hroot : classifyFilesystemRoot "/hub" = none := by decide
  have hsystem : classifySystemDirectory (hubHost paths) "/hub" = none := by
    have hdirectory : ∀ root, isAbsolutePath root = true →
        isSamePathOrDescendant (hubHost paths) root "/hub" =
          (resolvePath [] root).isPrefixOf ["hub"] := by
      intro root habsolute
      rw [isSamePathOrDescendant, hhub, Host.resolve, resolvePath_of_absolute habsolute]
    rw [classifySystemDirectory, if_neg]
    rw [List.any_eq_true]
    rintro ⟨root, hmem, hprefix⟩
    have hdirectories : ∀ root ∈ posixSystemDirectories,
        isAbsolutePath root = true ∧ (resolvePath [] root).isPrefixOf ["hub"] = false := by
      decide
    obtain ⟨habsolute, hother⟩ := hdirectories root hmem
    rw [hdirectory root habsolute, hother] at hprefix
    cases hprefix
  have hresolve : (hubHost paths).resolve (renderPath ["hub"]) = ["hub"] := hhub
  rw [classifyHardForbiddenWritePath, if_neg (by decide), if_neg (by decide), hresolve, hshown,
    classifyOperatorWriteRoot, hroot, hsystem]
  rfl

/-- The folder that every path leads to may be written. -/
theorem openInstall_assertToolWritePath {target : String} (hpath : target ∈ paths)
    (hroot : namesRoot target = false) (hnul : namesNul target = false) :
    assertToolWritePath (openInstall paths) ⟨target, .write⟩ [] = .ok () := by
  obtain ⟨node, left, location, hlstat, hwalk, hlocation⟩ := hubHost_found hpath
  rw [hlocation hroot] at hwalk
  have hresolved : resolvePathViaExistingAncestor (hubHost paths) target
      (some ⟨["/hub"], "write jail"⟩) = .ok ["hub"] := by
    refine resolve_of_found hlstat hwalk ?_
    rintro guard ⟨⟩
    exact hubHost_inside
  have hjail : ofJail (hubHost paths) target
      (assertWritePathInJail (hubHost paths) target ["/hub"]) = .ok ["hub"] := by
    rw [ofJail, if_neg (Bool.eq_false_iff.mp (hubHost_noNul hnul))]
    simp only [assertWritePathInJail, hresolved, bind, Except.bind, assertWithinRoots,
      hubHost_inside, if_true]
    rfl
  have hforbidden : assertNotHardForbiddenWritePath (openInstall paths) ["hub"] = .ok () := by
    rw [assertNotHardForbiddenWritePath, show (openInstall paths).host = hubHost paths from rfl,
      openInstall_classify]
  have hroots : effectiveToolWriteRoots (openInstall paths).config.sandbox .write ++
      (if True then [] else []) = ["/hub"] := by
    rw [if_true]
    rfl
  have hengine : ofJail (openInstall paths).host target
      (assertWritePathInJail (openInstall paths).host target ["/hub"]) = .ok ["hub"] := hjail
  simp only [assertToolWritePath, bind, Except.bind, hroots, hengine, hforbidden]
  rfl

/-- A call whose paths no install refuses passes the structural check. -/
theorem openInstall_validateStructuralSafety {accesses : List ReadPathAccessDecision}
    (hread : readAccesses (openInstall paths) request = .ok accesses)
    (htool : request.toolName ≠ "fs.delete") {targets : List String} (approvalBypass : Bool)
    (hcandidates : extractWritePathCandidates (openInstall paths) request =
      targets.map fun path => ⟨path, .write⟩)
    (htargets : ∀ target ∈ targets,
      target ∈ paths ∧ namesRoot target = false ∧ namesNul target = false) :
    validateStructuralSafety (openInstall paths) request .fullDisk approvalBypass [] .none =
      .ok () := by
  have hall : (targets.map fun path => (⟨path, .write⟩ : WritePathCandidate)).forM
      (validateWriteCandidate (openInstall paths) [] .none) = .ok () := by
    clear hcandidates
    induction targets with
    | nil => rfl
    | cons target targets ih =>
        obtain ⟨hpath, hroot, hnul⟩ := htargets target List.mem_cons_self
        have hcandidate : validateWriteCandidate (openInstall paths) [] .none
            ⟨target, .write⟩ = .ok () := openInstall_assertToolWritePath hpath hroot hnul
        rw [List.map_cons, List.forM, hcandidate]
        exact ih fun other hother => htargets other (List.mem_cons_of_mem _ hother)
  have hopen : accesses.findSome?
      (readPathError (openInstall paths) .fullDisk approvalBypass []) = none := by
    rw [List.findSome?_eq_none_iff]
    intro access _
    simp [readPathError]
  simp only [validateStructuralSafety, hread, bind, Except.bind, hopen, htool, false_and,
    if_false, hcandidates, pure, Except.pure]
  rw [hall]
  rfl

end Open

/-- The request as untrusted content makes it, in a session of its own. -/
def bareRequest (request : ToolRequest) : ToolRequest where
  toolName := request.toolName
  args := request.args
  agentId := "assistant"
  sessionId := "session"
  trustLevel := request.trustLevel
  sourceAttribution := request.sourceAttribution

/-- The two requests ask for the same and come from the same sources. -/
structure SameCall (request request' : ToolRequest) : Prop where
  toolName : request.toolName = request'.toolName
  args : request.args = request'.args
  trustLevel : request.trustLevel = request'.trustLevel
  sourceAttribution : request.sourceAttribution = request'.sourceAttribution

theorem SameCall.resolveToolTrustLevel_eq {request' : ToolRequest} (h : SameCall request request') :
    resolveToolTrustLevel request = resolveToolTrustLevel request' := by
  rw [resolveToolTrustLevel, resolveToolTrustLevel, h.trustLevel, h.sourceAttribution]

theorem bareRequest_sameCall (request : ToolRequest) : SameCall (bareRequest request) request :=
  ⟨rfl, rfl, rfl, rfl⟩

/-- The install on which every path of the request can be written. -/
def installFor (request : ToolRequest) : Engine :=
  openInstall (callPaths request)

/-- The context of the bare request. -/
def bareContext (request : ToolRequest) : AccessContext where
  request := bareRequest request
  mappedTarget := none
  toolDef := (installFor request).registry.get request.toolName
  capabilityToolName := request.toolName
  mcpApprovalRelief := false
  policy := policyFor (installFor request) 0 (bareRequest request)
  ownDelivery := false
  reservation := none
  nativeInstallation := false

theorem toolName_of_unblockedTargets {toolName : String} {args : Option JsonObject}
    (h : unblockedTargets toolName args ≠ []) :
    toolName = "fs.patch" ∨ toolName = "fs.copy" ∨ toolName = "browser.screenshot" := by
  by_contra hnone
  obtain ⟨hpatch, hrest⟩ := not_or.mp hnone
  obtain ⟨hcopy, hscreenshot⟩ := not_or.mp hrest
  apply h
  rw [unblockedTargets, if_neg hpatch, if_neg hcopy, if_neg hscreenshot]

theorem accessContext_bareRequest (h : request.toolName ≠ "mcp.invoke") :
    accessContext (installFor request) 0 { request := bareRequest request } =
      .ok (bareContext request) := by
  have hwrapper : readMcpPolicyTargetFromWrapper (bareRequest request) = .ok none := if_pos h
  have hidentity : invocationPolicyFor (installFor request) { request := bareRequest request } =
      .ok (invocationPolicyOf (installFor request) (bareRequest request) none none none false) := by
    simp only [invocationPolicyFor, Bool.false_eq_true, if_false, resolveInvocationPolicy,
      readMcpToolPolicyBinding, readMeshToolPolicyBinding, readToolPolicyBinding,
      readMcpApprovalRelief, hwrapper, bind, Except.bind, pure, Except.pure]
    rfl
  rw [accessContext, hidentity]
  rfl

/-- The gates that a bare request passes whatever its arguments are. -/
structure OpenGates (request : ToolRequest) : Prop where
  surface : surfaceDenial (installFor request) (bareContext request) = none
  notBlocked : blocksUntrustedEscalation request.toolName = false
  available : ((bareContext request).toolNames.any fun name =>
    matchesAnyToolPattern (bareContext request).policy.effectiveTools name) = true
  notDelete : request.toolName ≠ "fs.delete"
  notMapped : request.toolName ≠ "mcp.invoke"
  notSearch : request.toolName ≠ "browser.search"

/-- The policy of a bare request does not depend on what it asks for. -/
theorem bareContext_policy (request : ToolRequest) :
    (bareContext request).policy =
      resolveEffectivePolicy [] hubConfig 0 "assistant" none none := rfl

theorem bareContext_effectiveTools (request : ToolRequest) :
    (bareContext request).policy.effectiveTools = ["*"] := by
  rw [bareContext_policy]
  decide

theorem openGates_of_unblocked (h : request.toolName = "fs.patch" ∨ request.toolName = "fs.copy" ∨
      request.toolName = "browser.screenshot") : OpenGates request := by
  have hnames : ∀ toolName, (toolName = "fs.patch" ∨ toolName = "fs.copy" ∨
      toolName = "browser.screenshot") →
      (unblockedRegistry.find? fun tool => tool.name = toolName).isSome = true ∧
        blocksUntrustedEscalation toolName = false ∧
        matchesAnyToolPattern ["*"] toolName = true ∧
        toolName ≠ "fs.delete" ∧ toolName ≠ "mcp.invoke" ∧
        toolName ≠ "browser.search" := by
    rintro toolName (rfl | rfl | rfl) <;> decide
  obtain ⟨hregistered, hnotBlocked, havailable, hdelete, hmapped, hsearch⟩ :=
    hnames request.toolName h
  refine ⟨?_, hnotBlocked, ?_, hdelete, hmapped, hsearch⟩
  · have hnone : ((installFor request).registry.get request.toolName).isNone = false := by
      rw [Option.isNone_eq_false_iff]
      exact hregistered
    have htool : (bareContext request).toolDef.isNone = false := hnone
    have hdeny : ((bareContext request).toolNames.any fun name =>
        matchesAnyToolPattern (bareContext request).policy.denySet name) = false := rfl
    have hswitched : (bareContext request).policy.switchedOffTools = [] := rfl
    have hprofile : (bareContext request).request.permissionProfile = none := rfl
    have howned : (bareContext request).ownDelivery = false := rfl
    have hfind : ((bareContext request).toolNames).find?
        (([] : List String).contains ·) = none := rfl
    simp only [surfaceDenial, hdeny, hswitched, hprofile, howned, htool, hfind, withinProfile,
      Bool.false_eq_true, if_false]
    rfl
  · rw [bareContext_effectiveTools]
    exact Bool.or_eq_true_iff.mpr (Or.inl havailable)

section Bare

variable {request : ToolRequest}

theorem bareRequest_candidates (h : OpenGates request) :
    extractWritePathCandidates (installFor request) (bareRequest request) =
      (unblockedTargets request.toolName request.args).map fun path => ⟨path, .write⟩ :=
  @extractWritePathCandidates_of_not_blocked (installFor request) (bareRequest request) h.notBlocked

theorem bareContext_approvalBypassId :
    approvalBypassId (installFor request) emptyStore 0 (bareContext request) = none := rfl

theorem bareContext_readAccessMode :
    (bareContext request).policy.readAccessMode = .fullDisk := by
  rw [bareContext_policy]
  decide

/-- No grant speaks for the bare request. -/
theorem bareContext_grantView :
    grantView (installFor request) emptyStore 0 (bareContext request) =
      { decision := none
        officialSearchRequest := false
        allowGrants := []
        outsideRootWrite := .none } := by
  have hdecision : grantDecisionFor (installFor request) emptyStore 0 (bareContext request) =
      none := rfl
  have hofficial : isOfficialSearchRequest (installFor request) (bareRequest request) = false :=
    Bool.and_false _
  have houtside : evaluateOutsideRootWrites (installFor request) emptyStore
      (bareRequest request) [] none = .none := rfl
  rw [grantView, hdecision, bareContext_approvalBypassId]
  simp only [bareContext, hofficial, allowGrantsOf, houtside]

theorem bareContext_structural (h : OpenGates request)
    {accesses : List ReadPathAccessDecision}
    (hread : readAccesses (installFor request) (bareRequest request) = .ok accesses)
    (hrefused : refusedEverywhere request.toolName request.args = false) :
    validateStructuralSafety (installFor request) (bareContext request).request
      (bareContext request).policy.readAccessMode
      (approvalBypassId (installFor request) emptyStore 0 (bareContext request)).isSome []
      .none = .ok () := by
  rw [bareContext_readAccessMode, bareContext_approvalBypassId]
  refine openInstall_validateStructuralSafety hread h.notDelete _ (bareRequest_candidates h) ?_
  intro target htarget
  have hnever := List.any_eq_false.mp (Bool.or_eq_false_iff.mp hrefused).1 target htarget
  rw [Bool.not_eq_true, Bool.or_eq_false_iff] at hnever
  exact ⟨List.mem_append_left _ htarget, hnever⟩

theorem bareContext_trusted (h : OpenGates request) :
    isUntrustedToolEscalation (resolveToolTrustLevel (bareContext request).request)
      (bareContext request).capabilityToolName = false := by
  have hnotBlocked : blocksUntrustedEscalation (bareContext request).capabilityToolName = false :=
    h.notBlocked
  rw [isUntrustedToolEscalation, hnotBlocked, Bool.and_false]

/-- The install allows a bare request that names a target of a tool that is not
privileged. -/
theorem bareRequest_allowed (h : unblockedTargets request.toolName request.args ≠ [])
    (hrefused : refusedEverywhere request.toolName request.args = false) :
    ∃ evaluation,
      evaluateAccessInternal (installFor request) emptyStore 0
          { request := bareRequest request } = .ok evaluation ∧
        evaluation.allowed = true := by
  have htool := toolName_of_unblockedTargets h
  have hgates := openGates_of_unblocked htool
  obtain ⟨accesses, hread⟩ := @openInstall_readAccesses (bareRequest request)
    (callPaths request) htool (Bool.or_eq_false_iff.mp hrefused).2 fun path hpath =>
      List.mem_append_right _ (Option.mem_toList.mpr hpath)
  have hheartbeat : isExactBuiltInHeartbeatProfile (bareContext request).request = false := rfl
  have hward : citadelWardEffect emptyStore (bareContext request) = none := rfl
  have hview := @bareContext_grantView request
  have hdecision : (grantView (installFor request) emptyStore 0
      (bareContext request)).decision = none := congrArg GrantView.decision hview
  have hadmission : Admission (installFor request) emptyStore 0 (bareContext request) accesses
      (withWard (citadelWardEffect emptyStore (bareContext request))
        (concludeAccess (installFor request) emptyStore 0 (bareContext request)
          (citadelWardEffect emptyStore (bareContext request))
          (grantView (installFor request) emptyStore 0 (bareContext request)) accesses)) := by
    constructor
    · exact hgates.surface
    · rw [hward]
      exact Option.some_ne_none _ ∘ Eq.symm
    · intro grant hdeny
      exact Option.some_ne_none _ (hdeny.symm.trans hdecision)
    · intro grant constraintsError hconstrained
      exact absurd (hconstrained.symm.trans hdecision) (Option.some_ne_none _)
    · have hstructural := bareContext_structural hgates hread hrefused
      have hallowGrants := congrArg GrantView.allowGrants hview
      have houtside := congrArg GrantView.outsideRootWrite hview
      rw [hallowGrants, houtside]
      exact hstructural
    · exact bareContext_trusted hgates
    · exact Or.inl hgates.available
    · exact hread
    · rw [hheartbeat, Bool.and_false]
    · rfl
  refine ⟨_, ?_, hadmission.allowed⟩
  rw [evaluateAccessInternal, accessContext_bareRequest hgates.notMapped]
  exact evaluateInContext_of_admission hadmission

end Bare

/-! ## When untrusted content writes nothing -/

/-- An install whose operator runs `fs.patch` without being asked. -/
def patchingInstall : Engine :=
  { smallInstall with
    config :=
      { smallInstall.config with tools := { approvalMode := some .bypass, allow := ["fs.patch"] } }
    registry :=
      ⟨fun name => unblockedRegistry.find? fun tool => tool.name = name,
        unblockedRegistry_named⟩ }

def untrustedPatch : ToolRequest where
  toolName := "fs.patch"
  args := some [("path", .string "/work/draft.txt"), ("newText", .string "text")]
  agentId := "assistant"
  sessionId := "s1"
  trustLevel := some .untrustedExternal

end GoatCitadel.Policy
