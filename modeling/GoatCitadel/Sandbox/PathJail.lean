import GoatCitadel.Support.FileTree

/-!
# The path jail

`assertWritePathInJail` decides before a write whether the written location
will lie in one of the allowed roots.  It resolves the target through its
closest existing ancestor, and follows a dangling link by joining the link's
text to the link's directory lexically.

The kernel follows the same link physically.  The two readings differ when a
`..` in the text of a dangling link takes back the name of another link; the
check then vouches for a location that the write does not touch.  The main
theorem is that the check is sound whenever this does not happen.
-/

namespace GoatCitadel.Sandbox

open GoatCitadel.Support

/-- `MAX_SYMLINK_HOPS` -/
def maxSymlinkHops : Nat := 40

/-- The file system under the process, with what the process sees of it. -/
structure Host where
  tree : FileNode
  cwd : List String
  /-- The number of links that one resolution by the kernel may follow. -/
  linkLimit : Nat
  /-- Whether `lstatSync` with `throwIfNoEntry: false` throws `ENOTDIR`. -/
  lstatThrowsNotDir : Bool
  rootIsDir : tree.isDirAt [] = true
  cwdPlain : ∀ name ∈ cwd, PlainName name

inductive JailError
  | outside (scope : String) (path : List String)
  | tooManyLinks (targetPath : String)
  | fileSystem (errno : Errno)
  deriving DecidableEq

def renderPath (path : List String) : String :=
  "/" ++ "/".intercalate path

def JailError.message : JailError → String
  | .outside scope path => s!"Path is outside {scope}: {renderPath path}"
  | .tooManyLinks targetPath =>
      s!"Path traverses too many symbolic links: {targetPath}"
  | .fileSystem .enoent => "ENOENT"
  | .fileSystem .enotdir => "ENOTDIR"
  | .fileSystem .eloop => "ELOOP"

/-! ## Comparison with the roots -/

/-- `path.relative`, on absolute paths. -/
def relativePath : List String → List String → List String
  | [], target => target
  | origin, [] => origin.map fun _ => ".."
  | name :: origin, name' :: target =>
      if name = name' then relativePath origin target
      else (name :: origin).map (fun _ => "..") ++ name' :: target

/-- The pieces of a name between backslashes. -/
def splitBackslash (name : String) : List String :=
  (name.toList.splitOn '\\').map String.ofList

def isWithin (root target : List String) : Bool :=
  (relativePath root target).all fun name => !(splitBackslash name).contains ".."

/-- `path.resolve`, from the working directory. -/
def Host.resolve (host : Host) (text : String) : List String :=
  resolvePath host.cwd text

def normalizedRootsForComparison (host : Host) (root : String) :
    List (List String) :=
  let resolvedRoot := host.resolve root
  match realpath host.tree host.linkLimit resolvedRoot with
  | .ok realRoot =>
      if realRoot = resolvedRoot then [resolvedRoot] else [resolvedRoot, realRoot]
  | .error _ => [resolvedRoot]

def isWithinAnyRoot (host : Host) (target : List String) (roots : List String) : Bool :=
  roots.any fun root =>
    (normalizedRootsForComparison host root).any fun normalizedRoot =>
      isWithin normalizedRoot target

def matchingLexicalRoots (host : Host) (target : List String)
    (roots : List String) : List (List String) :=
  (roots.map host.resolve).filter fun root => isWithin root target

def canCreateMissingJailRoot (existingAncestor : List String)
    (lexicalRoots : List (List String)) : Bool :=
  lexicalRoots.any fun root =>
    !isWithin root existingAncestor && isWithin existingAncestor root

def assertWithinRoots (host : Host) (target : List String) (roots : List String)
    (scope : String) : Except JailError Unit :=
  if isWithinAnyRoot host target roots then .ok () else .error (.outside scope target)

/-! ## Resolution through the closest existing ancestor -/

structure RootGuard where
  roots : List String
  scope : String

/-- `fs.lstatSync(probe, { throwIfNoEntry: false })` -/
def lstatSync (host : Host) (probe : List String) :
    Except JailError (Option FileNode) :=
  match lstat host.tree host.linkLimit probe with
  | .ok node => .ok (some node)
  | .error .enoent => .ok none
  | .error .enotdir =>
      if host.lstatThrowsNotDir then .error (.fileSystem .enotdir) else .ok none
  | .error .eloop => .error (.fileSystem .eloop)

/-- `fs.realpathSync.native` -/
def realpathSync (host : Host) (probe : List String) :
    Except JailError (List String) :=
  match realpath host.tree host.linkLimit probe with
  | .ok location => .ok location
  | .error errno => .error (.fileSystem errno)

/-- The answer at an existing ancestor `probe` of the target, `realExisting`
being its real path. -/
def resolveExisting (host : Host) (rootGuard : Option RootGuard)
    (lexicalRoots : List (List String))
    (absoluteTarget probe realExisting : List String) :
    Except JailError (List String) :=
  let resolvedPath := normalize realExisting (relativePath probe absoluteTarget)
  match rootGuard with
  | none => .ok (if probe = absoluteTarget then realExisting else resolvedPath)
  | some guard =>
      if !isWithinAnyRoot host realExisting guard.roots &&
          canCreateMissingJailRoot probe lexicalRoots then
        if realExisting ≠ probe then .error (.outside guard.scope realExisting)
        else .ok absoluteTarget
      else do
        assertWithinRoots host realExisting guard.roots guard.scope
        if probe = absoluteTarget then
          .ok realExisting
        else
          assertWithinRoots host resolvedPath guard.roots guard.scope
          .ok resolvedPath

/-- One turn of the loop, on the first `kept` names of the target.  `follow`
starts again from the text of a dangling link, `above` goes to the parent. -/
def probeAncestor (host : Host) (rootGuard : Option RootGuard)
    (lexicalRoots : List (List String))
    (follow : List String → Except JailError (List String))
    (absoluteTarget : List String) (kept : Nat)
    (above : Unit → Except JailError (List String)) :
    Except JailError (List String) := do
  let probe := absoluteTarget.take kept
  let link ← lstatSync host probe
  match link, pathExists host.tree host.linkLimit probe with
  | some (.symlink text), false =>
      let realDir ← realpathSync host probe.dropLast
      follow (normalize (resolvePath realDir text) (absoluteTarget.drop kept))
  | _, true =>
      let realExisting ← realpathSync host probe
      resolveExisting host rootGuard lexicalRoots absoluteTarget probe realExisting
  | _, false => above ()

/-- The loop over the ancestors of the target, from the target up. -/
def climb (host : Host) (rootGuard : Option RootGuard)
    (lexicalRoots : List (List String))
    (follow : List String → Except JailError (List String))
    (absoluteTarget : List String) : Nat → Except JailError (List String)
  | 0 =>
      probeAncestor host rootGuard lexicalRoots follow absoluteTarget 0 fun _ =>
        match rootGuard with
        | none => .ok absoluteTarget
        | some guard => do
            assertWithinRoots host absoluteTarget guard.roots guard.scope
            .ok absoluteTarget
  | kept + 1 =>
      probeAncestor host rootGuard lexicalRoots follow absoluteTarget (kept + 1)
        fun _ => climb host rootGuard lexicalRoots follow absoluteTarget kept

/-- The loop with `hops` links left to follow. -/
def resolveWithHops (host : Host) (rootGuard : Option RootGuard)
    (lexicalRoots : List (List String)) (targetPath : String) :
    Nat → List String → Except JailError (List String)
  | 0, absoluteTarget =>
      climb host rootGuard lexicalRoots (fun _ => .error (.tooManyLinks targetPath))
        absoluteTarget absoluteTarget.length
  | hops + 1, absoluteTarget =>
      climb host rootGuard lexicalRoots
        (resolveWithHops host rootGuard lexicalRoots targetPath hops)
        absoluteTarget absoluteTarget.length

def resolvePathViaExistingAncestor (host : Host) (targetPath : String)
    (rootGuard : Option RootGuard) : Except JailError (List String) :=
  let absoluteTarget := host.resolve targetPath
  let lexicalRoots :=
    match rootGuard with
    | some guard => matchingLexicalRoots host absoluteTarget guard.roots
    | none => []
  resolveWithHops host rootGuard lexicalRoots targetPath maxSymlinkHops absoluteTarget

def assertWritePathInJail (host : Host) (targetPath : String)
    (writeJailRoots : List String) : Except JailError (List String) := do
  let resolvedTarget ← resolvePathViaExistingAncestor host targetPath
    (some ⟨writeJailRoots, "write jail"⟩)
  assertWithinRoots host resolvedTarget writeJailRoots "write jail"
  .ok resolvedTarget

structure ReadPathAccessDecision where
  resolvedPath : List String
  withinRoots : Bool

def resolveReadPathAccess (host : Host) (targetPath : String)
    (writeJailRoots readOnlyRoots : List String) :
    Except JailError ReadPathAccessDecision := do
  let resolvedPath ← resolvePathViaExistingAncestor host targetPath none
  .ok
    { resolvedPath := resolvedPath
      withinRoots := isWithinAnyRoot host resolvedPath (writeJailRoots ++ readOnlyRoots) }

/-! ## What the check promises -/

/-- A location lies in one of the roots, as written or through its real path. -/
def InsideRoots (host : Host) (roots : List String) (location : List String) : Prop :=
  ∃ root ∈ roots, host.resolve root <+: location ∨
    ∃ realRoot, realpath host.tree host.linkLimit (host.resolve root) = .ok realRoot ∧
      realRoot <+: location

/-- A target that passed the check is written inside the roots. -/
def WriteJailSound (host : Host) (targetPath : String) (roots : List String) : Prop :=
  ∀ resolved location,
    assertWritePathInJail host targetPath roots = .ok resolved →
    createTarget host.tree host.linkLimit (host.resolve targetPath) = some location →
    InsideRoots host roots location

variable {location absoluteTarget : List String} {rootGuard : Option RootGuard}
  {lexicalRoots : List (List String)}

theorem prefix_of_isWithin {root target : List String}
    (h : isWithin root target = true) : root <+: target := by
  have hdots : (splitBackslash "..").contains ".." = true := by decide
  induction root generalizing target with
  | nil => exact List.nil_prefix
  | cons name root ih =>
      cases target with
      | nil =>
          simp only [isWithin, relativePath, List.map_cons, List.all_cons, hdots] at h
          cases h
      | cons name' target =>
          by_cases hname : name = name'
          · subst hname
            have hrest : isWithin root target = true := by
              simpa [isWithin, relativePath] using h
            exact (List.prefix_cons_inj name).mpr (ih hrest)
          · simp only [isWithin, relativePath, if_neg hname, List.map_cons,
              List.cons_append, List.all_cons, hdots] at h
            cases h

theorem insideRoots_of_isWithinAnyRoot {host : Host} {roots : List String}
    (h : isWithinAnyRoot host location roots = true) : InsideRoots host roots location := by
  unfold isWithinAnyRoot at h
  obtain ⟨root, hroot, hany⟩ := List.any_eq_true.mp h
  obtain ⟨normalizedRoot, hmem, hwithin⟩ := List.any_eq_true.mp hany
  have hfront := prefix_of_isWithin hwithin
  refine ⟨root, hroot, ?_⟩
  unfold normalizedRootsForComparison at hmem
  cases hreal : realpath host.tree host.linkLimit (host.resolve root) with
  | error errno =>
      simp only [hreal, List.mem_singleton] at hmem
      exact .inl (hmem ▸ hfront)
  | ok realRoot =>
      simp only [hreal] at hmem
      split at hmem
      · rw [List.mem_singleton] at hmem
        exact .inl (hmem ▸ hfront)
      · rcases List.mem_cons.mp hmem with hroot | hmem
        · exact .inl (hroot ▸ hfront)
        · rw [List.mem_singleton] at hmem
          exact .inr ⟨realRoot, rfl, hmem ▸ hfront⟩

/-! ## Links that read the same lexically and physically -/

/-- The directory and the text of the dangling link at a path. -/
def danglingLink (host : Host) (path : List String) : Option (List String × String) :=
  match lstat host.tree host.linkLimit path, realpath host.tree host.linkLimit path.dropLast with
  | .ok (.symlink text), .ok dir =>
      if pathExists host.tree host.linkLimit path then none else some (dir, text)
  | _, _ => none

/-- Along the chain of dangling links that starts at `path`, no `..` in a link's
text takes back the name of a link. -/
def linksReadLexically (host : Host) : Nat → List String → Bool
  | 0, _ => true
  | hops + 1, path =>
      match danglingLink host path with
      | none => true
      | some (dir, text) =>
          dotDotsUndoNoLink host.tree host.linkLimit (textBase dir text) (splitPath text) &&
            linksReadLexically host hops (resolvePath dir text)

/-! ## The answer of the loop -/

/-- At an existing ancestor the answer is its real path with the missing names
after it. -/
theorem resolveExisting_ok {host : Host} {probe realExisting resolved : List String}
    (h : resolveExisting host rootGuard lexicalRoots absoluteTarget probe realExisting =
      .ok resolved) :
    resolved =
        (if probe = absoluteTarget then realExisting
        else normalize realExisting (relativePath probe absoluteTarget)) ∨
      (realExisting = probe ∧ resolved = absoluteTarget) := by
  cases rootGuard with
  | none =>
      simp only [resolveExisting, Except.ok.injEq] at h
      exact .inl h.symm
  | some guard =>
      simp only [resolveExisting, assertWithinRoots, bind, Except.bind] at h
      split at h
      · split at h
        · cases h
        · rename_i hsame
          cases h
          exact .inr ⟨not_not.mp hsame, rfl⟩
      · split at h
        · cases h
        · split at h
          · rename_i hprobe
            cases h
            exact .inl (if_pos hprobe).symm
          · rename_i hprobe
            split at h
            · cases h
            · cases h
              exact .inl (if_neg hprobe).symm

section

variable {host : Host} {rootGuard : Option RootGuard}
  {lexicalRoots : List (List String)}
  {follow : List String → Except JailError (List String)}
  {absoluteTarget resolved location : List String} {kept : Nat}
  {above : Unit → Except JailError (List String)}

/-- The turn of the loop at an existing ancestor. -/
theorem resolveExisting_of_probeAncestor {left : Nat}
    (hwalk : walk host.tree host.linkLimit [] (absoluteTarget.take kept) =
      .found left location)
    (h : probeAncestor host rootGuard lexicalRoots follow absoluteTarget kept above =
      .ok resolved) :
    resolveExisting host rootGuard lexicalRoots absoluteTarget
      (absoluteTarget.take kept) location = .ok resolved := by
  have hreal : realpath host.tree host.linkLimit (absoluteTarget.take kept) =
      .ok location := realpath_eq_ok.mpr ⟨left, hwalk⟩
  have hexists : pathExists host.tree host.linkLimit (absoluteTarget.take kept) =
      true := by
    simp [pathExists, hreal, Except.isOk, Except.toBool]
  simp only [probeAncestor, bind, Except.bind, hexists] at h
  split at h
  · cases h
  · simpa [realpathSync, hreal] using h

/-- The turn of the loop at a dangling link. -/
theorem follow_of_probeAncestor {text : String} {dir : List String}
    (hlink : lstat host.tree host.linkLimit (absoluteTarget.take kept) =
      .ok (.symlink text))
    (hexists : pathExists host.tree host.linkLimit (absoluteTarget.take kept) = false)
    (hdir : realpath host.tree host.linkLimit (absoluteTarget.take kept).dropLast =
      .ok dir) :
    probeAncestor host rootGuard lexicalRoots follow absoluteTarget kept above =
      follow (normalize (resolvePath dir text) (absoluteTarget.drop kept)) := by
  simp [probeAncestor, bind, Except.bind, lstatSync, realpathSync, hlink, hexists, hdir]

/-- The turn of the loop at a missing entry. -/
theorem above_of_probeAncestor
    (hmissing : lstat host.tree host.linkLimit (absoluteTarget.take kept) =
      .error .enoent)
    (hexists : pathExists host.tree host.linkLimit (absoluteTarget.take kept) = false) :
    probeAncestor host rootGuard lexicalRoots follow absoluteTarget kept above =
      above () := by
  simp [probeAncestor, bind, Except.bind, lstatSync, hmissing, hexists]

/-- The loop stops at an ancestor that exists. -/
theorem resolveExisting_of_climb {left : Nat} {probe : List String}
    (hprobe : absoluteTarget.take kept = probe)
    (hwalk : walk host.tree host.linkLimit [] probe = .found left location)
    (h : climb host rootGuard lexicalRoots follow absoluteTarget kept = .ok resolved) :
    resolveExisting host rootGuard lexicalRoots absoluteTarget probe location =
      .ok resolved := by
  subst hprobe
  cases kept with
  | zero => exact resolveExisting_of_probeAncestor hwalk h
  | succ kept => exact resolveExisting_of_probeAncestor hwalk h

/-- The loop answers with the location of an existing target. -/
theorem climb_found {left : Nat}
    (hwalk : walk host.tree host.linkLimit [] absoluteTarget = .found left location)
    (h : climb host rootGuard lexicalRoots follow absoluteTarget absoluteTarget.length =
      .ok resolved) : resolved = location := by
  have hexisting := resolveExisting_of_climb List.take_length hwalk h
  rcases resolveExisting_ok hexisting with hresolved | ⟨hreal, hresolved⟩
  · rw [hresolved, if_pos rfl]
  · rw [hresolved, hreal]

theorem relativePath_append (path rest : List String) :
    relativePath path (path ++ rest) = rest := by
  induction path with
  | nil => rfl
  | cons name path ih => simpa [relativePath] using ih

/-- The loop answers with the missing entry of an existing directory. -/
theorem climb_absent {left : Nat} {init dir : List String} {last : String}
    (hlast : PlainName last)
    (hinit : walk host.tree host.linkLimit [] init = .found left dir)
    (hmissing : lstat host.tree host.linkLimit (init ++ [last]) = .error .enoent)
    (hexists : pathExists host.tree host.linkLimit (init ++ [last]) = false)
    (h : climb host rootGuard lexicalRoots follow (init ++ [last])
      (init ++ [last]).length = .ok resolved) :
    resolved = dir ++ [last] := by
  have htake : (init ++ [last]).take (init.length + 1) = init ++ [last] :=
    List.take_of_length_le (by simp)
  rw [List.length_append, List.length_singleton, climb,
    above_of_probeAncestor (by rw [htake]; exact hmissing)
      (by rw [htake]; exact hexists)] at h
  have hexisting := resolveExisting_of_climb (by simp) hinit h
  rcases resolveExisting_ok hexisting with hresolved | ⟨hreal, hresolved⟩
  · rw [hresolved, if_neg (by simp), relativePath_append, normalize_cons,
      normalize_nil, appendName_of_plain hlast]
  · rw [hresolved, hreal]

/-- The loop follows a target that is a dangling link. -/
theorem climb_dangling {init dir : List String} {last text : String}
    (hlink : danglingLink host (init ++ [last]) = some (dir, text)) :
    climb host rootGuard lexicalRoots follow (init ++ [last])
      (init ++ [last]).length = follow (resolvePath dir text) := by
  have htake : (init ++ [last]).take (init.length + 1) = init ++ [last] :=
    List.take_of_length_le (by simp)
  have hdrop : (init ++ [last]).drop (init.length + 1) = [] := by simp
  unfold danglingLink at hlink
  split at hlink
  · rename_i text' dir' hstat hreal
    split at hlink
    · cases hlink
    · rename_i hexists
      cases hlink
      rw [List.length_append, List.length_singleton, climb,
        follow_of_probeAncestor (by rw [htake]; exact hstat)
          (by rw [htake]; simpa using hexists) (by rw [htake]; exact hreal),
        hdrop, normalize_nil]
  · cases hlink

end

/-! ## Soundness -/

/-- A target that resolves to a missing entry is that entry of its directory, or
a dangling link through which the entry is reached. -/
theorem missing_cases {host : Host} (hplain : ∀ name ∈ absoluteTarget, PlainName name)
    (h : walk host.tree host.linkLimit [] absoluteTarget = .missing location) :
    ∃ init last left dir, absoluteTarget = init ++ [last] ∧ PlainName last ∧
      walk host.tree host.linkLimit [] init = .found left dir ∧
      ((lstat host.tree host.linkLimit absoluteTarget = .error .enoent ∧
          location = dir ++ [last]) ∨
        ∃ text, danglingLink host absoluteTarget = some (dir, text) ∧
          walk host.tree host.linkLimit (textBase dir text) (splitPath text) =
            .missing location ∧
          host.tree.isDirAt dir = true ∧ ∀ name ∈ dir, PlainName name) := by
  cases absoluteTarget using List.reverseRecOn with
  | nil => simp at h
  | append_singleton init last =>
      have hlast : PlainName last := hplain last (by simp)
      obtain ⟨left, dir, hinit, hdir, hstep⟩ := walk_missing_concat host.rootIsDir h
      have hstat := lstat_concat last hinit hdir
      refine ⟨init, last, left, dir, rfl, hlast, hinit, ?_⟩
      cases hnode : host.tree.lookup (dir ++ [last]) with
      | none =>
          rw [walk_absent hlast hnode, if_pos rfl] at hstep
          cases hstep
          exact .inl ⟨by rw [hstat, hnode], rfl⟩
      | some node =>
          cases node with
          | dir entries =>
              rw [walk_dir hlast hnode, walk_nil] at hstep
              cases hstep
          | file =>
              rw [walk_file hlast hnode, if_pos rfl] at hstep
              cases hstep
          | symlink text =>
              rw [walk_symlink hlast hnode, List.append_nil] at hstep
              split at hstep
              · cases hstep
              · cases left with
                | zero => cases hstep
                | succ left =>
                    obtain ⟨hleft, hdirPlain⟩ := walk_found_plain (by simp) hinit
                    refine .inr ⟨text, ?_, walk_missing_mono (by omega) hstep, hdir,
                      hdirPlain⟩
                    simp [danglingLink, hstat, hnode, realpath, hinit,
                      pathExists_eq_false_of_missing h]

/-- What opening a path for writing touches: the file or the missing entry that
it resolves to. -/
theorem walk_of_createTarget {tree : FileNode} {limit : Nat} {path : List String}
    (h : createTarget tree limit path = some location) :
    (∃ left, walk tree limit [] path = .found left location) ∨
      walk tree limit [] path = .missing location := by
  unfold createTarget at h
  split at h
  · rename_i left location' hwalk
    split at h
    · cases h
      exact .inl ⟨left, hwalk⟩
    · cases h
  · rename_i location' hwalk
    cases h
    exact .inr hwalk
  · cases h

/-- The loop answers with the location that `open` touches, or it follows the
dangling link through which `open` reaches it. -/
theorem climb_cases {host : Host} {follow : List String → Except JailError (List String)}
    {resolved : List String} (hplain : ∀ name ∈ absoluteTarget, PlainName name)
    (hopen : createTarget host.tree host.linkLimit absoluteTarget = some location)
    (h : climb host rootGuard lexicalRoots follow absoluteTarget absoluteTarget.length =
      .ok resolved) :
    resolved = location ∨
      ∃ dir text, danglingLink host absoluteTarget = some (dir, text) ∧
        follow (resolvePath dir text) = .ok resolved ∧
        walk host.tree host.linkLimit (textBase dir text) (splitPath text) =
          .missing location ∧
        host.tree.isDirAt dir = true ∧ ∀ name ∈ dir, PlainName name := by
  rcases walk_of_createTarget hopen with ⟨left, hfound⟩ | hmissing
  · exact .inl (climb_found hfound h)
  · obtain ⟨init, last, left, dir, rfl, hlast, hinit, hcase⟩ :=
      missing_cases hplain hmissing
    rcases hcase with ⟨habsent, rfl⟩ | ⟨text, hdangling, htext, hdir⟩
    · exact .inl (climb_absent hlast hinit habsent
        (pathExists_eq_false_of_missing hmissing) h)
    · rw [climb_dangling hdangling] at h
      exact .inr ⟨dir, text, hdangling, h, htext, hdir⟩

/-- Where the dangling links read lexically, the location that the loop answers
with is the one that `open` creates or overwrites. -/
theorem resolveWithHops_eq_createTarget {host : Host} {targetPath : String} {hops : Nat}
    {resolved : List String} (hplain : ∀ name ∈ absoluteTarget, PlainName name)
    (hlinks : linksReadLexically host hops absoluteTarget = true)
    (hopen : createTarget host.tree host.linkLimit absoluteTarget = some location)
    (h : resolveWithHops host rootGuard lexicalRoots targetPath hops absoluteTarget =
      .ok resolved) : resolved = location := by
  induction hops generalizing absoluteTarget with
  | zero =>
      rcases climb_cases hplain hopen h with heq | ⟨dir, text, -, hfollow, -⟩
      · exact heq
      · cases hfollow
  | succ hops ih =>
      rcases climb_cases hplain hopen h with
        heq | ⟨dir, text, hdangling, hfollow, htext, hdir, hdirPlain⟩
      · exact heq
      · simp only [linksReadLexically, hdangling, Bool.and_eq_true] at hlinks
        have hbase := FileNode.isDirAt_textBase text hdir
        have hbasePlain := textBase_plain text hdirPlain
        -- Read from the root, the text of the link leads to the same entry.
        have hnext : walk host.tree host.linkLimit [] (resolvePath dir text) =
            .missing location :=
          walk_normalize (walk_location host.linkLimit hbasePlain hbase) hbase
            hbasePlain hlinks.1 htext
        refine ih (resolvePath_plain text hdirPlain) hlinks.2 ?_ hfollow
        rw [createTarget, hnext]

/-- The write jail is sound for every target whose dangling links read the same
lexically and physically. -/
theorem writeJailSound_of_linksReadLexically (host : Host) (targetPath : String)
    (roots : List String)
    (hlinks : linksReadLexically host maxSymlinkHops (host.resolve targetPath) = true) :
    WriteJailSound host targetPath roots := by
  intro resolved location hassert hopen
  simp only [assertWritePathInJail, bind, Except.bind] at hassert
  split at hassert
  · cases hassert
  · rename_i resolved' hresolve
    have hplain := resolvePath_plain targetPath host.cwdPlain
    have hlocation : resolved' = location :=
      resolveWithHops_eq_createTarget hplain hlinks hopen hresolve
    subst hlocation
    by_cases hwithin : isWithinAnyRoot host resolved' roots = true
    · exact insideRoots_of_isWithinAnyRoot hwithin
    · simp [assertWithinRoots, hwithin] at hassert

/-- A jail with a dangling link whose text goes up from a real directory:
`/j/out` leads to `sub/../x`. -/
def siblingLinkHost : Host where
  tree := .dir [("j", .dir [("sub", .dir []), ("out", .symlink "sub/../x")])]
  cwd := []
  linkLimit := 40
  lstatThrowsNotDir := true
  rootIsDir := rfl
  cwdPlain := by simp

/-- The check and the write agree on `/j/x`. -/
theorem writeJailSound_siblingLink :
    createTarget siblingLinkHost.tree siblingLinkHost.linkLimit
        (siblingLinkHost.resolve "/j/out") = some ["j", "x"] ∧
      InsideRoots siblingLinkHost ["/j"] ["j", "x"] :=
  ⟨by decide +kernel,
    writeJailSound_of_linksReadLexically siblingLinkHost "/j/out" ["/j"]
      (by decide +kernel) ["j", "x"] ["j", "x"] (by decide +kernel) (by decide +kernel)⟩

/-! ## A link that reads differently -/

/-- The jail `/j` holds a link to a directory outside and a dangling link whose
text climbs out of it: `/j/link` leads to `/o/d` and `/j/out` to `link/../x`. -/
def climbingLinkHost : Host where
  tree := .dir
    [("j", .dir [("link", .symlink "/o/d"), ("out", .symlink "link/../x")]),
      ("o", .dir [("d", .dir [])])]
  cwd := []
  linkLimit := 40
  lstatThrowsNotDir := true
  rootIsDir := rfl
  cwdPlain := by simp

/-- The check vouches for `/j/x` and the write creates `/o/x`. -/
theorem not_writeJailSound :
    ¬ ∀ (host : Host) (targetPath : String) (roots : List String),
      WriteJailSound host targetPath roots := by
  intro hsound
  have hassert : assertWritePathInJail climbingLinkHost "/j/out" ["/j"] =
      .ok ["j", "x"] := by decide +kernel
  have hopen : createTarget climbingLinkHost.tree climbingLinkHost.linkLimit
      (climbingLinkHost.resolve "/j/out") = some ["o", "x"] := by decide +kernel
  obtain ⟨root, hroot, hinside⟩ :=
    hsound climbingLinkHost "/j/out" ["/j"] _ _ hassert hopen
  rw [List.mem_singleton] at hroot
  subst hroot
  rcases hinside with hfront | ⟨realRoot, hreal, hfront⟩
  · exact absurd hfront (by decide)
  · have hrealRoot : realpath climbingLinkHost.tree climbingLinkHost.linkLimit
        (climbingLinkHost.resolve "/j") = .ok ["j"] := by decide +kernel
    rw [hrealRoot] at hreal
    cases hreal
    exact absurd hfront (by decide)

end GoatCitadel.Sandbox
