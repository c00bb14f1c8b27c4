import GoatCitadel.Policy.Resolver
import GoatCitadel.Policy.Store
import GoatCitadel.Sandbox.WriteRootSafety

/-!
# The engine and the paths of a request

`Engine` holds what one evaluation of a request finds around it and does not
change: the configuration, the tool registry, the file system, and the parts of
the install whose answers the engine only passes on (risk classifiers, host
extraction, network checks, output names of documents).  Those parts are fields
of function type, and the results hold for all of them.

The rest of the module are the path arguments of a request, the reading of a
path against the trusted roots, and the decision on targets outside every
write root.
-/

namespace GoatCitadel.Policy

open GoatCitadel.Support
open GoatCitadel.Sandbox

/-! ## The engine -/

structure Engine where
  config : ToolPolicyConfig
  registry : ToolRegistry
  toolGroups : List ToolGroupDefinition
  pluginToolGroupHolds : List PluginToolGroupHold
  holdsUnavailable : Bool
  host : Host
  /-- `env.HOME ?? os.homedir()` -/
  homeDir : String
  stableStringify : StableStringify
  toLowerCase : String → String
  /-- `JSON.stringify` -/
  jsonStringify : Option JsonValue → String
  /-- `classifyShellRisk` on the risky patterns of the sandbox: the pattern that matched. -/
  classifyShellRisk : String → Option String
  /-- `classifyArgumentRisk` on the risky argument patterns: the pattern that matched. -/
  classifyArgumentRisk : String → Option JsonObject → Option String
  isOfficialResearchSearchInvocation : JsonObject → Bool
  /-- The host names of the official search providers of a request. -/
  officialSearchHosts : JsonObject → List String
  /-- `extractGrantHostCandidates`: the outbound hosts, or the reason to block. -/
  extractGrantHostCandidates :
    String → Option JsonObject → Option String → Except String (List String)
  matchesHostAllowlist : String → List String → Bool
  /-- The network part of `validateStructuralSafety`, by tool, arguments and
  whether the request has full web access: the message it fails with. -/
  networkError : String → Option JsonObject → Bool → Option String
  /-- `resolveOutsideRootWriteEligibility`, by session and kind of actor. -/
  outsideRootWriteEligible : String → Option AuthActorSource → Bool
  resolveDocumentOutputPath : JsonObject → Option String
  resolvePresentationOutputPath : JsonObject → Option String

/-! ## Path arguments -/

inductive IngestionSourceType
  | file
  | url
  | text
  deriving DecidableEq

def parseIngestionSourceType (engine : Engine) (value : Option JsonValue) :
    Except String IngestionSourceType :=
  match value with
  | some (.string "file") => .ok .file
  | some (.string "url") => .ok .url
  | some (.string "text") => .ok .text
  | _ => .error
      s!"sourceType must be one of file|url|text (got {engine.jsonStringify value})"

def readDocsIngestSourceType (engine : Engine) (request : ToolRequest) :
    Except String (Option IngestionSourceType) :=
  if request.toolName ≠ "docs.ingest" then .ok none
  else (parseIngestionSourceType engine (request.arg "sourceType")).map some

def readDocsIngestSourceTypeIfValid (engine : Engine) (request : ToolRequest) :
    Option IngestionSourceType :=
  match readDocsIngestSourceType engine request with
  | .ok sourceType => sourceType
  | .error _ => none

/-- The tools that read the path in their `path` argument. -/
def pathReadingTools : List String :=
  ["fs.read", "file.read_range", "file.find", "code.search", "code.search_files",
    "fs.list", "fs.stat"]

def extractReadPathCandidates (engine : Engine) (request : ToolRequest) :
    Except String (List String) :=
  match request.args with
  | none => .ok []
  | some _ =>
      if pathReadingTools.contains request.toolName then
        .ok (request.stringArg "path").toList
      else if request.toolName = "fs.copy" then
        .ok (request.stringArg "from").toList
      else do
        if (← readDocsIngestSourceType engine request) = some .file then
          .ok (request.stringArg "source").toList
        else .ok []

inductive ToolWriteIntent
  | write
  | delete
  deriving DecidableEq

structure WritePathCandidate where
  path : String
  intent : ToolWriteIntent

/-- The trimmed texts among the values, each with the intent. -/
def writeCandidates (intent : ToolWriteIntent) (values : List (Option String)) :
    List WritePathCandidate :=
  (values.filterMap fun value => value.bind fun text => nonEmpty (trim text)).map
    fun path => ⟨path, intent⟩

def extractWritePathCandidates (engine : Engine) (request : ToolRequest) :
    List WritePathCandidate :=
  match request.args with
  | none => []
  | some args =>
      let path := request.stringArg "path"
      if ["fs.write", "fs.patch", "artifacts.create"].contains request.toolName then
        writeCandidates .write [path]
      else if request.toolName = "documents.create" then
        writeCandidates .write [engine.resolveDocumentOutputPath args <|> path]
      else if request.toolName = "presentations.create" then
        writeCandidates .write [engine.resolvePresentationOutputPath args <|> path]
      else if request.toolName = "fs.delete" then
        writeCandidates .delete [path, request.stringArg "from"]
      else if request.toolName = "fs.copy" then
        writeCandidates .write [request.stringArg "to"]
      else if request.toolName = "fs.move" then
        writeCandidates .delete [request.stringArg "from"] ++
          writeCandidates .write [request.stringArg "to"]
      else if ["browser.screenshot", "browser.interact"].contains request.toolName then
        writeCandidates .write [request.stringArg "outputPath", path]
      else []

/-- The entries of a list argument. -/
def listArg (request : ToolRequest) (key : String) : List JsonValue :=
  match request.arg key with
  | some (.array items) => items
  | _ => []

/-- The trimmed, non-empty texts among JSON values. -/
def trimmedTexts (values : List (Option JsonValue)) : List String :=
  values.filterMap fun value => nonEmpty (trim (JsonValue.stringOrEmpty value))

def extractPathCandidates (request : ToolRequest) : List String :=
  trimmedTexts
    (["path", "from", "to", "relativePath", "outputPath", "cwd"].map request.arg ++
      (listArg request "paths").map some)

def extractGrantPathCandidates (engine : Engine) (request : ToolRequest) : List String :=
  if request.toolName = "git.add" then
    trimmedTexts ((listArg request "paths").map some)
  else
    let source :=
      if readDocsIngestSourceTypeIfValid engine request = some .file then
        trimmedTexts [request.arg "source"]
      else []
    (extractPathCandidates request ++ source).dedup

/-! ## Comparison with the roots of a grant -/

/-- `replaceAll("\\", "/")` -/
def slashes (text : List Char) : List Char :=
  text.map fun c => if c = '\\' then '/' else c

/-- `replace(/\/+$/, "")` -/
def dropTrailingSlashes (text : List Char) : List Char :=
  (text.reverse.dropWhile (· == '/')).reverse

/-- `normalizePathForMatch`, on a host without drive letters. -/
def normalizePathForMatch (host : Host) (value : String) : List Char :=
  dropTrailingSlashes (slashes (renderPath (host.resolve value)).toList)

def normalizePathVariantsForMatch (host : Host) (value : String) : List (List Char) :=
  normalizePathForMatch host value ::
    match realpath host.tree host.linkLimit (host.resolve value) with
    | .ok realValue => [dropTrailingSlashes (slashes (renderPath realValue).toList)]
    | .error _ => []

/-- `candidate === root || candidate.startsWith(root + "/")` -/
def withinText (candidate root : List Char) : Bool :=
  candidate = root || (root ++ ['/']).isPrefixOf candidate

def isPathWithinAnyRoot (host : Host) (candidate : String) (roots : List String) : Bool :=
  roots.any fun root =>
    trim root = "*" ||
      (normalizePathVariantsForMatch host root).any
        (withinText (normalizePathForMatch host candidate))

def getReferenceRootPaths (constraints : Option ToolGrantConstraints) : List String :=
  (constraints.bind (·.referenceRoots)).getD []

def getAllowedReadPaths (constraints : Option ToolGrantConstraints) : List String :=
  (constraints.bind (·.allowedPaths)).getD [] ++ getReferenceRootPaths constraints

def grantAllowsReadPath (host : Host) (grant : ToolGrantRecord) (resolvedPath : List String) :
    Bool :=
  isPathWithinAnyRoot host (renderPath resolvedPath) (getAllowedReadPaths grant.constraints)

def anyGrantAllowsReadPath (host : Host) (grants : List ToolGrantRecord)
    (resolvedPath : List String) : Bool :=
  grants.any fun grant => grantAllowsReadPath host grant resolvedPath

/-! ## Roots of the sandbox -/

def operatorWriteRootPaths (sandbox : SandboxConfig) (intent : ToolWriteIntent) :
    List String :=
  if sandbox.runtimeWriteProtection.isNone then []
  else
    (sandbox.operatorWriteRoots.filter fun root => intent = .write || root.allowDelete).map
      (·.path)

def effectiveToolWriteRoots (sandbox : SandboxConfig) (intent : ToolWriteIntent) :
    List String :=
  sandbox.writeJailRoots ++ operatorWriteRootPaths sandbox intent

def toolReadableWriteRoots (sandbox : SandboxConfig) : List String :=
  effectiveToolWriteRoots sandbox .write

def samePath (host : Host) (left right : String) : Bool :=
  isSamePathOrDescendant host left right && isSamePathOrDescendant host right left

/-- A check of the jail, with the message of its error.  `lstatSync` throws on
a path with a NUL, and the check looks at its target first. -/
def ofJail {α : Type} (host : Host) (targetPath : String) (check : Except JailError α) :
    Except String α :=
  if hasNul (host.resolve targetPath) then .error "ERR_INVALID_ARG_VALUE"
  else check.mapError JailError.message

def writeSafetyContext (engine : Engine) : WriteRootSafetyContext :=
  let protection := engine.config.sandbox.runtimeWriteProtection
  { rootDir := protection.map (·.rootDir)
    protectedRuntimePaths := protection.map (·.protectedPaths)
    homeDir := engine.homeDir }

def assertNotHardForbiddenWritePath (engine : Engine) (resolvedTarget : List String) :
    Except String Unit :=
  match classifyHardForbiddenWritePath engine.host (writeSafetyContext engine)
      (renderPath resolvedTarget) with
  | some rejection => .error
      (s!"Path is protected and cannot be written by tools ({rejection.text}): " ++
        renderPath resolvedTarget)
  | none => .ok ()

def assertToolWritePath (engine : Engine) (candidate : WritePathCandidate)
    (admitted : List String) : Except String Unit := do
  let sandbox := engine.config.sandbox
  let roots := effectiveToolWriteRoots sandbox candidate.intent ++
    (if candidate.intent = .write then admitted else [])
  let resolvedTarget ← ofJail engine.host candidate.path
    (assertWritePathInJail engine.host candidate.path roots)
  assertNotHardForbiddenWritePath engine resolvedTarget
  let shown := renderPath resolvedTarget
  if candidate.intent = .delete then
    if (effectiveToolWriteRoots sandbox .write).any (samePath engine.host · shown) then
      throw s!"A write root cannot be deleted by tools; delete items inside it instead: {shown}"
    let protectedPaths := (sandbox.runtimeWriteProtection.map (·.protectedPaths)).getD []
    match protectedPaths.find? (isSamePathOrDescendant engine.host shown) with
    | some contained =>
        throw (s!"Path contains a protected runtime folder and cannot be deleted or moved " ++
          s!"by tools: {shown} (contains {contained})")
    | none => pure ()

/-! ## Reading a path -/

/-- The readings of the paths that the request reads. -/
def readAccesses (engine : Engine) (request : ToolRequest) :
    Except String (List ReadPathAccessDecision) := do
  let candidates ← extractReadPathCandidates engine request
  candidates.mapM fun target =>
    ofJail engine.host target (resolveReadPathAccess engine.host target
      (toolReadableWriteRoots engine.config.sandbox) engine.config.sandbox.readOnlyRoots)

/-- The reading is not refused. -/
def readPathError (engine : Engine) (readAccessMode : FilesystemReadAccessMode)
    (approvalBypass : Bool) (allowGrants : List ToolGrantRecord)
    (access : ReadPathAccessDecision) : Option String :=
  if access.withinRoots then none
  else if readAccessMode = .fullDisk then none
  else if readAccessMode = .approvalRequired && approvalBypass then none
  else if anyGrantAllowsReadPath engine.host allowGrants access.resolvedPath then none
  else if readAccessMode = .approvalRequired then none
  else some s!"Path is outside read allowlist: {renderPath access.resolvedPath}"

/-- `requiresApprovalForOutsideRootsRead`, on the readings of the request. -/
def requiresApprovalForOutsideRootsRead (engine : Engine)
    (readAccessMode : FilesystemReadAccessMode) (approvalBypass : Bool)
    (allowGrants : List ToolGrantRecord) (accesses : List ReadPathAccessDecision) : Bool :=
  readAccessMode = .approvalRequired && !approvalBypass &&
    accesses.any fun access =>
      !access.withinRoots && !anyGrantAllowsReadPath engine.host allowGrants access.resolvedPath

/-- `resolveGrantForOutsideRootsRead`, on the readings of the request. -/
def resolveGrantForOutsideRootsRead (engine : Engine)
    (readAccessMode : FilesystemReadAccessMode) (approvalBypass : Bool)
    (allowGrants : List ToolGrantRecord) (accesses : List ReadPathAccessDecision) :
    Option ToolGrantRecord :=
  if readAccessMode = .fullDisk then none
  else if readAccessMode = .approvalRequired && approvalBypass then none
  else
    accesses.findSome? fun access =>
      if access.withinRoots then none
      else allowGrants.find? fun grant => grantAllowsReadPath engine.host grant access.resolvedPath

/-! ## Writing outside every write root -/

inductive OutsideRootWriteEvaluation
  | none
  | requiresApproval (outsidePaths targets : List String)
  | admitted (outsidePaths roots : List String) (grant : Option ToolGrantRecord)

/-- `OUTSIDE_ROOT_WRITE_TOOLS` -/
def outsideRootWriteTools : List String :=
  ["fs.write", "fs.patch", "fs.copy", "fs.move", "artifacts.create", "documents.create",
    "presentations.create", "browser.screenshot", "browser.interact"]

def isOutsideRootWriteEnabled (sandbox : SandboxConfig) : Bool :=
  sandbox.outsideRootWriteMode = some .approvalRequired &&
    sandbox.runtimeWriteProtection.isSome

def isInsideToolWriteRoots (engine : Engine) (target : String) : Bool :=
  (ofJail engine.host target (assertWritePathInJail engine.host target
    (effectiveToolWriteRoots engine.config.sandbox .write))).isOk

def grantWriteRootsAdmit (engine : Engine) (roots resolvedTargets : List String) :
    Option (List String) :=
  if resolvedTargets.isEmpty then none
  else
    let canonicalRoots := roots.filterMap fun root =>
      (canonicalizeOperatorWriteRoot engine.host (writeSafetyContext engine) root).filter
        fun canonicalPath =>
          !isNetworkPath canonicalPath && samePath engine.host canonicalPath root
    if resolvedTargets.all fun target =>
        canonicalRoots.any fun root => isSamePathOrDescendant engine.host root target then
      some canonicalRoots
    else none

/-- The candidates outside every write root, when the request may ask for
them at all, with their resolved targets. -/
def outsideTargets (engine : Engine) (request : ToolRequest) :
    Option (List String × List String) := do
  let sandbox := engine.config.sandbox
  if !isOutsideRootWriteEnabled sandbox ||
      !outsideRootWriteTools.contains request.toolName then
    Option.none
  else if request.authActorSource = some .a2aPeer || request.authActorSource = some .meshNode then
    Option.none
  else
    let outside := (extractWritePathCandidates engine request).filter fun candidate =>
      !isInsideToolWriteRoots engine candidate.path
    if outside.isEmpty || outside.any fun candidate => candidate.intent = .delete then
      Option.none
    else
      let resolved ← outside.mapM fun candidate =>
        resolveOutsideRootWriteTarget engine.host (writeSafetyContext engine) candidate.path
      if engine.outsideRootWriteEligible request.sessionId request.authActorSource then
        some (outside.map (·.path), resolved)
      else Option.none

/-- The first grant whose folders hold every target, with its folders. -/
def folderGrant (engine : Engine) (allowGrants : List ToolGrantRecord)
    (resolved : List String) : Option (ToolGrantRecord × List String) :=
  allowGrants.findSome? fun grant => do
    let roots ← grant.constraints.bind (·.writeRoots)
    let admitted ← grantWriteRootsAdmit engine roots resolved
    some (grant, admitted)

/-- The targets are those registered with the verified approval. -/
def approvedTargets (engine : Engine) (store : Store) (verifiedApprovalId : Option String)
    (resolved : List String) : Bool :=
  match verifiedApprovalId with
  | Option.none => false
  | some approvalId =>
      match (store.registrations approvalId).bind (·.outsideRootTargets) with
      | Option.none => false
      | some targets =>
          resolved.all fun target =>
            targets.any fun registered => samePath engine.host registered target

def evaluateOutsideRootWrites (engine : Engine) (store : Store) (request : ToolRequest)
    (allowGrants : List ToolGrantRecord) (verifiedApprovalId : Option String) :
    OutsideRootWriteEvaluation :=
  match outsideTargets engine request with
  | Option.none => .none
  | some (outsidePaths, resolved) =>
      match folderGrant engine allowGrants resolved with
      | some (grant, roots) => .admitted outsidePaths roots (some grant)
      | Option.none =>
          if approvedTargets engine store verifiedApprovalId resolved then
            .admitted outsidePaths resolved Option.none
          else .requiresApproval outsidePaths resolved

end GoatCitadel.Policy
