import GoatCitadel.Sandbox.PathJail
import GoatCitadel.Support.Text

/-!
# Locations that no root opens

`classifyHardForbiddenWritePath` names the locations that tools never write,
whatever roots and grants the install has: the root of the file system, system
directories, the home of the user and its keys, and folders of the runtime.  It
judges a path as it is written.  A caller that resolved the path first judges
where it leads, so that `/etc` is refused unless it is a link to another place.

The rules are those of a host without drive letters.
-/

namespace GoatCitadel.Sandbox

open GoatCitadel.Support

inductive WriteRootRejection
  | controlCharacters
  | notAbsolute
  | filesystemRoot
  | systemDirectory
  | usersRoot
  | userProfileRoot
  | sensitiveUserDirectory
  | containsRuntimeRoot
  | runtimeProtectedPath

def WriteRootRejection.text : WriteRootRejection → String
  | .controlCharacters => "control_characters"
  | .notAbsolute => "not_absolute"
  | .filesystemRoot => "filesystem_root"
  | .systemDirectory => "system_directory"
  | .usersRoot => "users_root"
  | .userProfileRoot => "user_profile_root"
  | .sensitiveUserDirectory => "sensitive_user_directory"
  | .containsRuntimeRoot => "contains_runtime_root"
  | .runtimeProtectedPath => "runtime_protected_path"

structure WriteRootSafetyContext where
  rootDir : Option String
  protectedRuntimePaths : Option (List String)
  /-- `env.HOME ?? os.homedir()` -/
  homeDir : String

def hasControlCharacters (value : String) : Bool :=
  value.toList.any fun char => char.toNat < 0x20 || char.toNat == 0x7f

/-- `SENSITIVE_HOME_SUBPATHS` and `SENSITIVE_POSIX_HOME_SUBPATHS` -/
def sensitiveHomeSubpaths : List String :=
  [".ssh", ".gnupg", ".aws", ".azure", ".kube", ".docker", "Library/Keychains"]

/-- `POSIX_SYSTEM_DIRECTORIES` -/
def posixSystemDirectories : List String :=
  ["/bin", "/sbin", "/usr", "/etc", "/boot", "/dev", "/proc", "/sys", "/lib", "/lib32",
    "/lib64", "/libx32", "/System", "/Library", "/private/etc"]

/-- `DEFAULT_PROTECTED_RUNTIME_SUBPATHS` -/
def defaultProtectedRuntimeSubpaths : List String :=
  ["config", "data/secrets", "data/postgres", "data/audit", "data/index.db",
    "data/index.db-wal", "data/index.db-shm", "data/index.db-journal"]

/-- `path.join`, on a folder and a relative path. -/
def joinPath (folder subpath : String) : String :=
  if folder = "" then subpath else folder ++ "/" ++ subpath

def stripTrailingSeparator (value : String) : String :=
  if value = "/" then value
  else
    String.ofList (value.toList.reverse.dropWhile fun c => c == '\\' || c == '/').reverse

def isSamePathOrDescendant (host : Host) (root target : String) : Bool :=
  (host.resolve root).isPrefixOf (host.resolve target)

/-! ## The rules -/

def classifyFilesystemRoot (target : String) : Option WriteRootRejection :=
  let parsedRoot := if isAbsolutePath target then "/" else ""
  if stripTrailingSeparator parsedRoot = target then some .filesystemRoot else none

def classifySystemDirectory (host : Host) (target : String) : Option WriteRootRejection :=
  if posixSystemDirectories.any (isSamePathOrDescendant host · target) then
    some .systemDirectory
  else none

def resolveHomeDir (host : Host) (context : WriteRootSafetyContext) : Option String :=
  if context.homeDir = "" then none
  else some (stripTrailingSeparator (renderPath (host.resolve context.homeDir)))

def classifyUserLocation (host : Host) (context : WriteRootSafetyContext) (target : String) :
    Option WriteRootRejection := do
  let home ← resolveHomeDir host context
  if home = target then some .userProfileRoot
  else if isSamePathOrDescendant host target home then some .usersRoot
  else if sensitiveHomeSubpaths.any fun subpath =>
      isSamePathOrDescendant host (joinPath home subpath) target then
    some .sensitiveUserDirectory
  else none

def classifyRuntimeLocation (host : Host) (context : WriteRootSafetyContext)
    (target : String) : Option WriteRootRejection :=
  let rootDir := (context.rootDir.filter (· ≠ "")).map fun rootDir =>
    renderPath (host.resolve rootDir)
  let protectedPaths := context.protectedRuntimePaths.getD
    (rootDir.elim [] fun rootDir => defaultProtectedRuntimeSubpaths.map (joinPath rootDir))
  if rootDir.any (isSamePathOrDescendant host target) then some .containsRuntimeRoot
  else if protectedPaths.any (isSamePathOrDescendant host · target) then
    some .runtimeProtectedPath
  else none

def classifyOperatorWriteRoot (host : Host) (context : WriteRootSafetyContext)
    (target : String) : Option WriteRootRejection :=
  classifyFilesystemRoot target <|> classifySystemDirectory host target <|>
    classifyUserLocation host context target <|> classifyRuntimeLocation host context target

def classifyHardForbiddenWritePath (host : Host) (context : WriteRootSafetyContext)
    (resolvedPath : String) : Option WriteRootRejection :=
  if hasControlCharacters resolvedPath then some .controlCharacters
  else if !isAbsolutePath resolvedPath then some .notAbsolute
  else
    classifyOperatorWriteRoot host context
      (stripTrailingSeparator (renderPath (host.resolve resolvedPath)))

/-! ## Folders that an operator opens -/

/-- A path with a NUL, which no file system call takes. -/
def hasNul (path : List String) : Bool :=
  path.any fun name => name.toList.contains '\x00'

/-- `fs.realpathSync.native`, where the entry exists. -/
def realEntry (host : Host) (path : List String) : Option (List String) :=
  if hasNul path then none else (realpath host.tree host.linkLimit path).toOption

/-- The folder that `canonicalizeOperatorWriteRoot` accepts. -/
def canonicalizeOperatorWriteRoot (host : Host) (context : WriteRootSafetyContext)
    (input : String) : Option String := do
  let trimmed := trim input
  guard (!hasControlCharacters trimmed && isAbsolutePath trimmed)
  let lexicalPath := stripTrailingSeparator (renderPath (host.resolve trimmed))
  guard (classifyOperatorWriteRoot host context lexicalPath).isNone
  let real ← realEntry host (host.resolve lexicalPath)
  let canonicalPath := stripTrailingSeparator (renderPath real)
  guard ((realEntry host (host.resolve canonicalPath)).any host.tree.isDirAt)
  guard (classifyOperatorWriteRoot host context canonicalPath).isNone
  some canonicalPath

/-- `/^[\\/]{2}[^\\/?.]/u` -/
def isNetworkPath (value : String) : Bool :=
  match value.toList with
  | first :: second :: third :: _ =>
      ['\\', '/'].contains first && ['\\', '/'].contains second &&
        !(['\\', '/', '?', '.'].contains third)
  | _ => false

/-! ## Targets outside the roots -/

/-- The closest existing ancestor of the target among its first `kept` names,
with the missing names after it.  The root exists. -/
def resolveThroughNativeAncestor (host : Host) (absolute : List String) :
    Nat → List String
  | 0 => absolute
  | kept + 1 =>
      match realEntry host (absolute.take (kept + 1)) with
      | some real => real ++ absolute.drop (kept + 1)
      | none => resolveThroughNativeAncestor host absolute kept

/-- The target that `resolveOutsideRootWriteTarget` does not refuse. -/
def resolveOutsideRootWriteTarget (host : Host) (context : WriteRootSafetyContext)
    (rawPath : String) : Option String :=
  let absolute := host.resolve (trim rawPath)
  let resolved := renderPath (resolveThroughNativeAncestor host absolute absolute.length)
  if (classifyHardForbiddenWritePath host context resolved).isSome then none else some resolved

/-! ## What is refused under every install -/

variable {host : Host} {context : WriteRootSafetyContext}

theorem mem_renderPath {path : List String} {name : String} {c : Char} (hname : name ∈ path)
    (hc : c ∈ name.toList) : c ∈ (renderPath path).toList := by
  rw [renderPath, String.toList_append, String.toList_intercalate]
  refine List.mem_append_right _ ?_
  induction path with
  | nil => cases hname
  | cons part parts ih =>
      cases parts with
      | nil =>
          rw [List.map_singleton, List.intercalate_singleton, ← List.mem_singleton.mp hname]
          exact hc
      | cons part' parts =>
          rw [List.map_cons, List.map_cons, List.intercalate_cons_cons]
          simp only [List.mem_append]
          obtain rfl | hrest := List.mem_cons.mp hname
          · exact .inl (.inl hc)
          · exact .inr (ih hrest)

theorem classify_of_root :
    classifyHardForbiddenWritePath host context (renderPath []) = some .filesystemRoot := by
  have hresolve : host.resolve (renderPath []) = [] :=
    (resolvePath_of_absolute (by decide)).trans (by decide)
  rw [classifyHardForbiddenWritePath, hresolve]
  rfl

/-- A NUL is a control character. -/
theorem classify_of_nul {path : List String} (h : hasNul path = true) :
    classifyHardForbiddenWritePath host context (renderPath path) =
      some .controlCharacters := by
  obtain ⟨name, hname, hnul⟩ := List.any_eq_true.mp h
  have hcontrol : hasControlCharacters (renderPath path) = true :=
    List.any_eq_true.mpr ⟨'\x00', mem_renderPath hname (List.contains_iff_mem.mp hnul), rfl⟩
  rw [classifyHardForbiddenWritePath, if_pos hcontrol]

end GoatCitadel.Sandbox
