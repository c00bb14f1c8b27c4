import GoatCitadel.Sandbox.Ipv6Guard

/-!
# Egress decisions

`evaluateHostEgress` looks for the first entry of an allowlist that matches a host.
For public hosts, and for hosts of the local network, it only matters whether there
is an entry of some kind.  For a loopback host the decision depends on which matching
entry comes first: a wildcard in front of the entry that names the host hides it.
-/

namespace GoatCitadel.Sandbox

open GoatCitadel.Support

/-! ## Hosts -/

structure Url where
  protocol : String
  hostname : String
  port : String

/-- `url.host` -/
def Url.host (url : Url) : String :=
  if url.port = "" then url.hostname else url.hostname ++ ":" ++ url.port

/-- What the guard takes from the runtime. -/
structure Runtime where
  toLowerCase : String → String
  lowersAscii : LowersAscii toLowerCase
  eq_empty_of_toLowerCase : ∀ text, toLowerCase text = "" → text = ""
  /-- `new URL(text)`, or nothing when it throws. -/
  newUrl : String → Option Url

structure ParsedHost where
  host : String
  hostname : String
  invalidReason : Option String := none

section

variable (runtime : Runtime)

def redactUrlForError (input : String) : String :=
  let trimmed := trim input
  if trimmed = "" then "<empty>"
  else
    match runtime.newUrl trimmed with
    | some url => url.protocol ++ "//" ++ url.host
    | none =>
        let withoutPath := trimmed.toList.takeWhile fun c => c ≠ '/' && c ≠ '?' && c ≠ '#'
        let withoutUserinfo := (withoutPath.reverse.takeWhile (· ≠ '@')).reverse
        if withoutUserinfo = [] then "<unparseable>" else String.ofList withoutUserinfo

/-- `[a-z0-9+.-]`, in any case. -/
def isSchemeChar (c : Char) : Bool :=
  c.isAlphanum || c = '+' || c = '.' || c = '-'

/-- White space is dropped around the slashes that follow a scheme. -/
def normalizeUrlAuthorityWhitespace (input : List Char) : List Char :=
  if !input.head?.any Char.isAlpha then input
  else
    match input.dropWhile isSchemeChar with
    | ':' :: rest =>
        match rest.dropWhile isTrimmed with
        | '/' :: rest =>
            match rest.dropWhile isTrimmed with
            | '/' :: rest =>
                input.takeWhile isSchemeChar ++ "://".toList ++ rest.dropWhile isTrimmed
            | _ => input
        | _ => input
    | _ => input

def invalidHost (input reason : String) : ParsedHost :=
  { host := "", hostname := "",
    invalidReason := some (reason ++ " " ++ redactUrlForError runtime input) }

/-- `/^\d+(?:\.\d+)+$/`, but not an address. -/
def isMalformedIpv4Literal (hostname : List Char) : Bool :=
  1 < (hostname.splitOn '.').length &&
    (hostname.splitOn '.').all (fun part => !part.isEmpty && part.all Char.isDigit) &&
    isIP hostname ≠ 4

def stripIpv6Brackets (hostname : String) : String :=
  if hostname.toList.head? = some '[' && hostname.toList.getLast? = some ']' then
    String.ofList hostname.toList.tail.dropLast
  else hostname

/-- `/^:\d+$/` -/
def isPortSuffix : List Char → Bool
  | ':' :: digits => !digits.isEmpty && digits.all Char.isDigit
  | _ => false

/-- The part of `parseHost` for a host without a scheme. -/
def parseBareHost (hostOrUrl : String) (trimmed : List Char) : ParsedHost :=
  let withoutPath := trimmed.takeWhile (· ≠ '/')
  if withoutPath.head? = some '[' && withoutPath.contains ']' then
    let bracket := withoutPath.takeWhile (· ≠ ']')
    let portSuffix := (withoutPath.dropWhile (· ≠ ']')).tail
    if !portSuffix.isEmpty && !isPortSuffix portSuffix then
      invalidHost runtime hostOrUrl "Host port is malformed."
    else
      { host := String.ofList (bracket ++ ']' :: portSuffix),
        hostname := String.ofList bracket.tail }
  else if withoutPath.any isTrimmed then
    invalidHost runtime hostOrUrl "Host contains invalid whitespace."
  else if withoutPath.count ':' = 1 then
    let hostname := withoutPath.takeWhile (· ≠ ':')
    let port := (withoutPath.dropWhile (· ≠ ':')).tail
    if !port.isEmpty && !port.all Char.isDigit then
      invalidHost runtime hostOrUrl "Host port is malformed."
    else if isMalformedIpv4Literal hostname then
      invalidHost runtime hostOrUrl "IPv4 host is malformed."
    else { host := String.ofList withoutPath, hostname := String.ofList hostname }
  else if isMalformedIpv4Literal withoutPath then
    invalidHost runtime hostOrUrl "IPv4 host is malformed."
  else { host := String.ofList withoutPath, hostname := String.ofList withoutPath }

/-- What follows the first `://`. -/
def afterScheme : List Char → List Char
  | [] => []
  | c :: text => if "://".toList.isPrefixOf (c :: text) then text.drop 2 else afterScheme text

def parseHost (hostOrUrl : String) : ParsedHost :=
  let trimmed := normalizeUrlAuthorityWhitespace (trim hostOrUrl).toList
  if trimmed = [] then { host := "", hostname := "" }
  else
    match runtime.newUrl (String.ofList trimmed) with
    | some url =>
        if url.host ≠ "" || url.hostname ≠ "" then
          { host := url.host, hostname := stripIpv6Brackets url.hostname }
        else if decide ("://".toList <:+: trimmed) then
          invalidHost runtime hostOrUrl "Host URL is malformed."
        else parseBareHost runtime hostOrUrl trimmed
    | none =>
        if decide ("://".toList <:+: trimmed) then
          let authority := (afterScheme trimmed).takeWhile fun c =>
            c ≠ '/' && c ≠ '?' && c ≠ '#'
          if authority.any isTrimmed then
            invalidHost runtime hostOrUrl "Host contains invalid whitespace."
          else invalidHost runtime hostOrUrl "Host URL is malformed."
        else parseBareHost runtime hostOrUrl trimmed

/-! ## Patterns -/

/-- What follows the first occurrence of a segment. -/
def afterFirst (segment : List Char) : List Char → Option (List Char)
  | [] => if segment = [] then some [] else none
  | c :: text =>
      if segment.isPrefixOf (c :: text) then some ((c :: text).drop segment.length)
      else afterFirst segment text

/-- The segments occur one after the other. -/
def segmentsOccur : List (List Char) → List Char → Bool
  | [], _ => true
  | segment :: segments, text =>
      if segment = [] then segmentsOccur segments text
      else
        match afterFirst segment text with
        | some rest => segmentsOccur segments rest
        | none => false

def matchesAllowlistPattern (candidate pattern : String) : Bool :=
  let normalizedCandidate := (runtime.toLowerCase candidate).toList
  let normalizedPattern := (runtime.toLowerCase (trim pattern)).toList
  if !normalizedPattern.contains '*' then normalizedCandidate = normalizedPattern
  else if normalizedPattern = ['*'] then true
  else
    let segments := normalizedPattern.splitOn '*'
    let firstSegment := segments.headD []
    if !firstSegment.isPrefixOf normalizedCandidate then false
    else if !segmentsOccur segments.tail (normalizedCandidate.drop firstSegment.length) then
      false
    else (segments.getLastD []).isSuffixOf normalizedCandidate

def isExplicitLoopbackPattern (pattern hostname : String) : Bool :=
  let normalizedPattern := trim (runtime.toLowerCase pattern)
  let normalizedHost := runtime.toLowerCase hostname
  if normalizedHost = "localhost" then
    normalizedPattern = "localhost" ||
      "localhost:".toList.isPrefixOf normalizedPattern.toList
  else if normalizedHost = "127.0.0.1" then
    normalizedPattern = "127.0.0.1" ||
      "127.0.0.1:".toList.isPrefixOf normalizedPattern.toList
  else if normalizedHost = "::1" then
    normalizedPattern = "::1" || normalizedPattern = "[::1]" ||
      "[::1]:".toList.isPrefixOf normalizedPattern.toList
  else false

def disallowedHosts : List String :=
  ["0.0.0.0", "169.254.169.254", "metadata.google.internal", "100.100.100.200"]

def isPrivateOrReservedHost (hostname : String) : Bool :=
  let lower := runtime.toLowerCase hostname
  if lower = "" then true
  else if disallowedHosts.contains lower then true
  else if lower = "localhost" || ".local".toList.isSuffixOf lower.toList then true
  else if isIP lower.toList = 4 then isPrivateOrReservedIpv4 lower.toList
  else if isIP lower.toList = 6 then isBlockedIpv6 runtime.toLowerCase lower
  else false

def isLanIpv4Literal (hostname : String) : Bool :=
  if isIP hostname.toList ≠ 4 || disallowedHosts.contains hostname then false
  else
    let parts := (hostname.toList.splitOn '.').map number
    let a := parts[0]?
    let b := parts[1]?
    a = some 10 || (a = some 172 && b.any fun b => 16 ≤ b && b ≤ 31) ||
      (a = some 192 && b = some 168) || (a = some 100 && b.any fun b => 64 ≤ b && b ≤ 127)

/-- An entry without wildcards that is the host. -/
def isExactPattern (host pattern : String) : Bool :=
  let normalized := runtime.toLowerCase (trim pattern)
  !normalized.toList.contains '*' && normalized = host

def findExactLanPattern (host hostname : String) (allowlist : List String) :
    Option String :=
  if !isLanIpv4Literal hostname then none
  else allowlist.find? (isExactPattern runtime host)

/-! ## Decisions -/

inductive EgressApprovalState
  | notRequired
  | approvalRequired
  | blocked
  deriving DecidableEq

structure EgressDecision where
  target : String
  hostname : String
  allowed : Bool
  approvalState : EgressApprovalState
  reason : String
  matchedAllowlistPattern : Option String := none

/-- An entry that matches the host, with or without its port. -/
def matchesHost (host hostname pattern : String) : Bool :=
  matchesAllowlistPattern runtime host pattern || matchesAllowlistPattern runtime hostname pattern

def evaluateHostEgress (hostOrUrl : String) (allowlist : List String) : EgressDecision :=
  let parsed := parseHost runtime hostOrUrl
  let host := runtime.toLowerCase parsed.host
  let hostname := runtime.toLowerCase parsed.hostname
  match parsed.invalidReason with
  | some reason =>
      { target := hostOrUrl, hostname, allowed := false, approvalState := .blocked, reason }
  | none =>
      if host = "" && hostname = "" then
        { target := hostOrUrl, hostname, allowed := false, approvalState := .blocked,
          reason := "Host is empty." }
      else
        let isPrivateOrReserved := isPrivateOrReservedHost runtime hostname
        -- An empty text is no match, even when it is found.
        match (allowlist.find? (matchesHost runtime host hostname)).filter (· ≠ "") with
        | none =>
            let redacted := redactUrlForError runtime hostOrUrl
            { target := hostOrUrl, hostname, allowed := false,
              approvalState := if isPrivateOrReserved then .blocked else .approvalRequired,
              reason :=
                if isPrivateOrReserved then
                  "Private, loopback, or reserved host is blocked: " ++ redacted
                else "Host is not yet allowlisted: " ++ redacted }
        | some matchedPattern =>
            if !isPrivateOrReserved then
              { target := hostOrUrl, hostname, allowed := true, approvalState := .notRequired,
                reason := "Host matches network allowlist.",
                matchedAllowlistPattern := some matchedPattern }
            else if isExplicitLoopbackPattern runtime matchedPattern hostname then
              { target := hostOrUrl, hostname, allowed := true, approvalState := .notRequired,
                reason := "Loopback host explicitly allowlisted.",
                matchedAllowlistPattern := some matchedPattern }
            else
              match (findExactLanPattern runtime host hostname allowlist).filter (· ≠ "") with
              | some lanPattern =>
                  { target := hostOrUrl, hostname, allowed := true,
                    approvalState := .notRequired,
                    reason := "Private network host explicitly allowlisted.",
                    matchedAllowlistPattern := some lanPattern }
              | none =>
                  { target := hostOrUrl, hostname, allowed := false, approvalState := .blocked,
                    reason := "Private, metadata, or reserved host is blocked: " ++
                      redactUrlForError runtime hostOrUrl,
                    matchedAllowlistPattern := some matchedPattern }

end

/-! ## What a decision depends on -/

theorem isIPv4_of_isIP {text : List Char} (h : isIP text = 4) : isIPv4 text = true := by
  unfold isIP at h
  split at h
  · assumption
  · split at h <;> cases h

theorem isIPv4_chars {text : List Char} (h : isIPv4 text = true) :
    ∀ c ∈ text, c.isDigit = true ∨ c = '.' := by
  rw [isIPv4, Bool.and_eq_true, List.all_eq_true] at h
  intro c hc
  have hsplit : ['.'].intercalate (text.splitOn '.') = text := List.intercalate_splitOn '.'
  rw [← hsplit] at hc
  rcases mem_intercalate hc with rfl | ⟨part, hpart, hc⟩
  · exact .inr rfl
  · have hoctet := h.2 part hpart
    simp only [isOctet, Bool.and_eq_true] at hoctet
    exact .inl ((isShortNumber_iff.mp hoctet.1.1).2 c hc)

section

variable {runtime : Runtime}

theorem toLowerCase_eq_self {text : String}
    (h : ∀ c ∈ text.toList, c.toNat < 128 ∧ c.toLower = c) : runtime.toLowerCase text = text := by
  refine String.toList_inj.mp ?_
  rw [runtime.lowersAscii text fun c hc => (h c hc).1]
  exact (List.map_congr_left fun c hc => (h c hc).2).trans (List.map_id _)

theorem toLowerCase_empty : runtime.toLowerCase "" = "" :=
  toLowerCase_eq_self (by simp)

theorem toLowerCase_of_isIP {text : String} (h : isIP text.toList = 4) :
    runtime.toLowerCase text = text := by
  refine toLowerCase_eq_self fun c hc => ?_
  rcases isIPv4_chars (isIPv4_of_isIP h) c hc with hdigit | rfl
  · have hrange := isDigit_range hdigit
    refine ⟨by omega, ?_⟩
    unfold Char.toLower
    rw [dif_neg]
    rintro ⟨hupper, -⟩
    have hle : 65 ≤ c.toNat := UInt32.le_iff_toNat_le.mp hupper
    omega
  · decide

/-- Only an empty host has no name and no port, and a host that was refused has no
name. -/
structure ParsedHost.Proper (parsed : ParsedHost) : Prop where
  of_host : parsed.host = "" → parsed.hostname = ""
  of_invalid : parsed.invalidReason ≠ none → parsed.hostname = ""

theorem invalidHost_proper (input reason : String) :
    (invalidHost runtime input reason).Proper :=
  ⟨fun _ => rfl, fun _ => rfl⟩

theorem eq_nil_of_ofList {text : List Char} (h : String.ofList text = "") : text = [] := by
  have htext := congrArg String.toList h
  rwa [String.toList_ofList] at htext

theorem parseBareHost_proper (hostOrUrl : String) (trimmed : List Char) :
    (parseBareHost runtime hostOrUrl trimmed).Proper := by
  unfold parseBareHost
  simp only
  split
  · split
    · exact invalidHost_proper _ _
    · exact ⟨fun h => absurd (eq_nil_of_ofList h) (by simp), fun h => absurd rfl h⟩
  split
  · exact invalidHost_proper _ _
  split
  · split
    · exact invalidHost_proper _ _
    split
    · exact invalidHost_proper _ _
    · refine ⟨fun h => ?_, fun h => absurd rfl h⟩
      simp only at h ⊢
      rw [eq_nil_of_ofList h]
      rfl
  split
  · exact invalidHost_proper _ _
  · exact ⟨fun h => h, fun h => absurd rfl h⟩

theorem parseHost_proper (hostOrUrl : String) : (parseHost runtime hostOrUrl).Proper := by
  unfold parseHost
  simp only
  split
  · exact ⟨fun _ => rfl, fun _ => rfl⟩
  split
  · next url _ =>
      split
      · next hhost =>
          refine ⟨fun h => ?_, fun h => absurd rfl h⟩
          have hempty : url.host = "" := h
          have hhostname : url.hostname ≠ "" := by
            simpa [hempty] using hhost
          exfalso
          unfold Url.host at hempty
          split at hempty
          · exact hhostname hempty
          · have hlength := congrArg String.length hempty
            simp at hlength
      split
      · exact invalidHost_proper _ _
      · exact parseBareHost_proper _ _
  · split
    · split
      · exact invalidHost_proper _ _
      · exact invalidHost_proper _ _
    · exact parseBareHost_proper _ _

/-- The loopback names. -/
theorem loopback_of_explicit {pattern hostname : String}
    (h : isExplicitLoopbackPattern runtime pattern hostname = true) :
    runtime.toLowerCase hostname = "localhost" ∨ runtime.toLowerCase hostname = "127.0.0.1" ∨
      runtime.toLowerCase hostname = "::1" := by
  unfold isExplicitLoopbackPattern at h
  simp only at h
  split at h
  · next hname => exact .inl hname
  split at h
  · next hname => exact .inr (.inl hname)
  split at h
  · next hname => exact .inr (.inr hname)
  · cases h

theorem isPrivateOrReserved_of_loopback {hostname : String}
    (h : runtime.toLowerCase hostname = "localhost" ∨
      runtime.toLowerCase hostname = "127.0.0.1" ∨ runtime.toLowerCase hostname = "::1") :
    isPrivateOrReservedHost runtime hostname = true := by
  have hcolons : runtime.toLowerCase "::1" = "::1" := toLowerCase_eq_self (by simp)
  have hblocked : isBlockedIpv6 runtime.toLowerCase "::1" = true := by
    unfold isBlockedIpv6
    rw [hcolons]
    decide +kernel
  unfold isPrivateOrReservedHost
  rcases h with h | h | h <;> simp only [h]
  · generalize isBlockedIpv6 runtime.toLowerCase "localhost" = blocked
    revert blocked
    decide +kernel
  · generalize isBlockedIpv6 runtime.toLowerCase "127.0.0.1" = blocked
    revert blocked
    decide +kernel
  · rw [hblocked]
    decide +kernel

theorem not_lan_of_loopback {hostname : String}
    (h : runtime.toLowerCase hostname = "localhost" ∨
      runtime.toLowerCase hostname = "127.0.0.1" ∨ runtime.toLowerCase hostname = "::1") :
    isLanIpv4Literal hostname = false := by
  unfold isLanIpv4Literal
  by_cases hip : isIP hostname.toList = 4
  · rw [toLowerCase_of_isIP hip] at h
    rcases h with rfl | rfl | rfl <;> decide +kernel
  · simp [hip]

/-! ## When the order matters -/

theorem trim_empty : trim "" = "" := rfl

theorem isExactPattern_empty {host : String} (hhost : host ≠ "") :
    isExactPattern runtime host "" = false := by
  have hne : ("" : String) ≠ host := Ne.symm hhost
  simp [isExactPattern, trim_empty, toLowerCase_empty, hne]

theorem findExactLanPattern_isSome_iff {host hostname : String} {allowlist : List String}
    (hhost : host ≠ "") :
    ((findExactLanPattern runtime host hostname allowlist).filter (· ≠ "")).isSome = true ↔
      isLanIpv4Literal hostname = true ∧
        ∃ pattern ∈ allowlist, isExactPattern runtime host pattern = true := by
  unfold findExactLanPattern
  by_cases hlan : isLanIpv4Literal hostname = true
  · simp only [hlan, Bool.not_true, Bool.false_eq_true, if_false, true_and]
    constructor
    · intro h
      obtain ⟨pattern, hpattern⟩ := Option.isSome_iff_exists.mp h
      have hfound := (Option.filter_eq_some_iff.mp hpattern).1
      exact ⟨pattern, List.mem_of_find?_eq_some hfound, List.find?_some hfound⟩
    · rintro ⟨pattern, hpattern, hexact⟩
      obtain ⟨found, hfound⟩ := Option.isSome_iff_exists.mp
        (List.find?_isSome.mpr ⟨pattern, hpattern, hexact⟩)
      have hne : found ≠ "" := by
        rintro rfl
        have hempty := List.find?_some hfound
        rw [isExactPattern_empty hhost] at hempty
        cases hempty
      rw [hfound, Option.filter_some, if_pos (decide_eq_true hne)]
      rfl
  · simp [hlan]

section

variable {hostOrUrl : String} {allowlist : List String}

/-- The host that an allowlist is searched for. -/
def hostOf (runtime : Runtime) (hostOrUrl : String) : String :=
  runtime.toLowerCase (parseHost runtime hostOrUrl).host

def hostnameOf (runtime : Runtime) (hostOrUrl : String) : String :=
  runtime.toLowerCase (parseHost runtime hostOrUrl).hostname

theorem evaluateHostEgress_allowed_iff :
    (evaluateHostEgress runtime hostOrUrl allowlist).allowed = true ↔
      (parseHost runtime hostOrUrl).invalidReason = none ∧
      ¬(hostOf runtime hostOrUrl = "" ∧ hostnameOf runtime hostOrUrl = "") ∧
      ∃ pattern, (allowlist.find? (matchesHost runtime (hostOf runtime hostOrUrl)
          (hostnameOf runtime hostOrUrl))).filter (· ≠ "") = some pattern ∧
        (isPrivateOrReservedHost runtime (hostnameOf runtime hostOrUrl) = false ∨
          isExplicitLoopbackPattern runtime pattern (hostnameOf runtime hostOrUrl) = true ∨
          ((findExactLanPattern runtime (hostOf runtime hostOrUrl)
            (hostnameOf runtime hostOrUrl) allowlist).filter (· ≠ "")).isSome = true) := by
  unfold evaluateHostEgress hostOf hostnameOf
  simp only
  split
  · next hinvalid => simp [hinvalid]
  next hvalid =>
  rw [hvalid]
  split
  · next hempty =>
      rw [Bool.and_eq_true, decide_eq_true_eq, decide_eq_true_eq] at hempty
      simp [hempty]
  next hne =>
  rw [Bool.and_eq_true, decide_eq_true_eq, decide_eq_true_eq] at hne
  simp only [hne, not_false_eq_true, true_and]
  split
  · next hnone =>
      refine iff_of_false (by simp) ?_
      rintro ⟨pattern, hpattern, -⟩
      rw [hnone] at hpattern
      cases hpattern
  next pattern hpattern =>
  simp only [hpattern, Option.some.injEq, exists_eq_left']
  split
  · next hpublic =>
      rw [Bool.not_eq_true'] at hpublic
      exact iff_of_true rfl (.inl hpublic)
  next hprivate =>
  split
  · next hexplicit => exact iff_of_true rfl (.inr (.inl hexplicit))
  next hexplicit =>
  split
  · next lanPattern hlan =>
      refine iff_of_true rfl (.inr (.inr ?_))
      rw [hlan]
      rfl
  · next hlan =>
      refine iff_of_false (by simp) ?_
      rintro (hpublic | h | h)
      · rw [hpublic] at hprivate
        exact hprivate rfl
      · exact hexplicit h
      · rw [hlan] at h
        cases h

/-- An empty entry matches empty texts only. -/
theorem matchesHost_empty {host hostname : String} (hhost : host ≠ "")
    (hhostname : hostname ≠ "") : matchesHost runtime host hostname "" = false := by
  have hempty : ∀ {candidate : String}, candidate ≠ "" →
      matchesAllowlistPattern runtime candidate "" = false := by
    intro candidate hcandidate
    have hne : runtime.toLowerCase candidate ≠ "" :=
      fun h => hcandidate (runtime.eq_empty_of_toLowerCase candidate h)
    have htext : (runtime.toLowerCase candidate).toList ≠ [] := by
      intro h
      exact hne (String.toList_inj.mp h)
    simp [matchesAllowlistPattern, trim_empty, toLowerCase_empty, htext]
  rw [matchesHost, hempty hhost, hempty hhostname]
  rfl

/-- A host without a name is never allowed. -/
theorem not_allowed_of_hostname_empty (h : hostnameOf runtime hostOrUrl = "") :
    (evaluateHostEgress runtime hostOrUrl allowlist).allowed = false := by
  rw [← Bool.not_eq_true, evaluateHostEgress_allowed_iff, h]
  rintro ⟨-, -, pattern, -, hprivate | hexplicit | hlan⟩
  · rw [isPrivateOrReservedHost, toLowerCase_empty] at hprivate
    cases hprivate
  · have hloopback := loopback_of_explicit hexplicit
    rw [toLowerCase_empty] at hloopback
    revert hloopback
    decide
  · have hnone : isLanIpv4Literal "" = false := by decide +kernel
    simp [findExactLanPattern, hnone] at hlan

/-- With a name, the first matching entry decides, or an entry for the local
network. -/
theorem allowed_iff_of_hostname (hvalid : (parseHost runtime hostOrUrl).invalidReason = none)
    (h : hostnameOf runtime hostOrUrl ≠ "") :
    (evaluateHostEgress runtime hostOrUrl allowlist).allowed = true ↔
      ∃ pattern, allowlist.find? (matchesHost runtime (hostOf runtime hostOrUrl)
          (hostnameOf runtime hostOrUrl)) = some pattern ∧
        (isPrivateOrReservedHost runtime (hostnameOf runtime hostOrUrl) = false ∨
          isExplicitLoopbackPattern runtime pattern (hostnameOf runtime hostOrUrl) = true ∨
          isLanIpv4Literal (hostnameOf runtime hostOrUrl) = true ∧
            ∃ pattern ∈ allowlist,
              isExactPattern runtime (hostOf runtime hostOrUrl) pattern = true) := by
  have hhost : hostOf runtime hostOrUrl ≠ "" := by
    intro hempty
    have hparsed := runtime.eq_empty_of_toLowerCase _ hempty
    refine h ?_
    rw [hostnameOf, (parseHost_proper hostOrUrl).of_host hparsed, toLowerCase_empty]
  have hfilter : (allowlist.find? (matchesHost runtime (hostOf runtime hostOrUrl)
      (hostnameOf runtime hostOrUrl))).filter (· ≠ "") =
      allowlist.find? (matchesHost runtime (hostOf runtime hostOrUrl)
        (hostnameOf runtime hostOrUrl)) := by
    cases hpattern : allowlist.find? (matchesHost runtime (hostOf runtime hostOrUrl)
        (hostnameOf runtime hostOrUrl)) with
    | none => rfl
    | some pattern =>
        rw [Option.filter_some, if_pos]
        refine decide_eq_true ?_
        rintro rfl
        have hempty := List.find?_some hpattern
        rw [matchesHost_empty hhost h] at hempty
        cases hempty
  rw [evaluateHostEgress_allowed_iff, hfilter, findExactLanPattern_isSome_iff hhost]
  simp [hvalid, h]

/-- The decision is the same for all lists of the same entries, and no entries in
front or behind take a permission back. -/
structure OrderFree (runtime : Runtime) (hostOrUrl : String) (allowlist : List String) :
    Prop where
  sameEntries : ∀ other, (∀ pattern, pattern ∈ other ↔ pattern ∈ allowlist) →
    (evaluateHostEgress runtime hostOrUrl other).allowed =
      (evaluateHostEgress runtime hostOrUrl allowlist).allowed
  extended : ∀ front back, (evaluateHostEgress runtime hostOrUrl allowlist).allowed = true →
    (evaluateHostEgress runtime hostOrUrl (front ++ allowlist ++ back)).allowed = true

/-- An entry that matches a loopback host and names it. -/
def NamesLoopback (runtime : Runtime) (hostOrUrl pattern : String) : Prop :=
  matchesHost runtime (hostOf runtime hostOrUrl) (hostnameOf runtime hostOrUrl) pattern =
      true ∧
    isExplicitLoopbackPattern runtime pattern (hostnameOf runtime hostOrUrl) = true

/-- Without an entry that names a loopback host, it only matters which entries there
are. -/
theorem allowed_mono_of_not_namesLoopback {other : List String}
    (hnone : ¬∃ pattern ∈ allowlist, NamesLoopback runtime hostOrUrl pattern)
    (hsub : ∀ pattern ∈ allowlist, pattern ∈ other)
    (h : (evaluateHostEgress runtime hostOrUrl allowlist).allowed = true) :
    (evaluateHostEgress runtime hostOrUrl other).allowed = true := by
  have hvalid := (evaluateHostEgress_allowed_iff.mp h).1
  have hhostname : hostnameOf runtime hostOrUrl ≠ "" := by
    intro hempty
    rw [not_allowed_of_hostname_empty hempty] at h
    cases h
  rw [allowed_iff_of_hostname hvalid hhostname] at h ⊢
  obtain ⟨pattern, hpattern, hcases⟩ := h
  have hmem := List.mem_of_find?_eq_some hpattern
  have hmatches := List.find?_some hpattern
  obtain ⟨found, hfound⟩ := Option.isSome_iff_exists.mp
    (List.find?_isSome.mpr ⟨pattern, hsub pattern hmem, hmatches⟩)
  refine ⟨found, hfound, ?_⟩
  rcases hcases with hpublic | hexplicit | ⟨hlan, exact, hexact, hhost⟩
  · exact .inl hpublic
  · exact absurd ⟨pattern, hmem, hmatches, hexplicit⟩ hnone
  · exact .inr (.inr ⟨hlan, exact, hsub exact hexact, hhost⟩)

/-- For a loopback host, the first matching entry decides. -/
theorem allowed_iff_of_loopback (hvalid : (parseHost runtime hostOrUrl).invalidReason = none)
    (hloopback : runtime.toLowerCase (hostnameOf runtime hostOrUrl) = "localhost" ∨
      runtime.toLowerCase (hostnameOf runtime hostOrUrl) = "127.0.0.1" ∨
      runtime.toLowerCase (hostnameOf runtime hostOrUrl) = "::1") :
    (evaluateHostEgress runtime hostOrUrl allowlist).allowed = true ↔
      ∃ pattern, allowlist.find? (matchesHost runtime (hostOf runtime hostOrUrl)
          (hostnameOf runtime hostOrUrl)) = some pattern ∧
        isExplicitLoopbackPattern runtime pattern (hostnameOf runtime hostOrUrl) = true := by
  have hhostname : hostnameOf runtime hostOrUrl ≠ "" := by
    intro hempty
    rw [hempty, toLowerCase_empty] at hloopback
    revert hloopback
    decide
  rw [allowed_iff_of_hostname hvalid hhostname, isPrivateOrReserved_of_loopback hloopback,
    not_lan_of_loopback hloopback]
  simp

/-- A wildcard matches every host and names none. -/
theorem wildcard_hides (host hostname : String) :
    matchesHost runtime host hostname "*" = true ∧
      isExplicitLoopbackPattern runtime "*" hostname = false := by
  have hstar : runtime.toLowerCase "*" = "*" := toLowerCase_eq_self (by simp)
  have htrim : trim "*" = "*" := by decide +kernel
  constructor
  · simp [matchesHost, matchesAllowlistPattern, htrim, hstar]
  · unfold isExplicitLoopbackPattern
    rw [hstar, htrim]
    simp only
    split
    · decide
    split
    · decide
    split
    · decide
    · rfl

/-- For every host and every allowlist: the decision does not depend on the order if
and only if no matching entry of the list names a loopback host. -/
theorem egress_orderFree_iff (runtime : Runtime) (hostOrUrl : String)
    (allowlist : List String) :
    OrderFree runtime hostOrUrl allowlist ↔
      ¬∃ pattern ∈ allowlist, NamesLoopback runtime hostOrUrl pattern := by
  constructor
  · rintro ⟨hsame, hextended⟩ ⟨pattern, hpattern, hmatches, hexplicit⟩
    have hloopback := loopback_of_explicit hexplicit
    have hvalid : (parseHost runtime hostOrUrl).invalidReason = none := by
      by_contra hinvalid
      have hname := (parseHost_proper hostOrUrl).of_invalid hinvalid
      rw [hostnameOf, hname, toLowerCase_empty, toLowerCase_empty] at hloopback
      revert hloopback
      decide
    by_cases hallowed : (evaluateHostEgress runtime hostOrUrl allowlist).allowed = true
    · -- A wildcard in front takes the permission back.
      have hwith := hextended ["*"] [] hallowed
      obtain ⟨hstar, hnames⟩ := @wildcard_hides runtime (hostOf runtime hostOrUrl)
        (hostnameOf runtime hostOrUrl)
      rw [allowed_iff_of_loopback hvalid hloopback] at hwith
      obtain ⟨first, hfirst, hfirstNames⟩ := hwith
      rw [List.append_nil, List.singleton_append, List.find?_cons_of_pos hstar] at hfirst
      rw [← Option.some.inj hfirst, hnames] at hfirstNames
      cases hfirstNames
    · -- The entry that names the host gives the permission when it comes first.
      refine hallowed ?_
      rw [← hsame (pattern :: allowlist) (by simp [hpattern]),
        allowed_iff_of_loopback hvalid hloopback]
      exact ⟨pattern, List.find?_cons_of_pos hmatches, hexplicit⟩
  · intro hnone
    constructor
    · intro other hother
      have hnone' : ¬∃ pattern ∈ other, NamesLoopback runtime hostOrUrl pattern := by
        rintro ⟨pattern, hpattern, hnames⟩
        exact hnone ⟨pattern, (hother pattern).mp hpattern, hnames⟩
      rw [Bool.eq_iff_iff]
      constructor
      · exact allowed_mono_of_not_namesLoopback hnone' fun pattern => (hother pattern).mp
      · exact allowed_mono_of_not_namesLoopback hnone fun pattern => (hother pattern).mpr
    · intro front back
      exact allowed_mono_of_not_namesLoopback hnone (by simp_all)

end

end

theorem eq_empty_of_map_toLower (text : String)
    (h : String.ofList (text.toList.map Char.toLower) = "") : text = "" := by
  have hnil := List.map_eq_nil_iff.mp (eq_nil_of_ofList h)
  exact String.toList_inj.mp hnil

/-- A runtime for texts that are no URLs. -/
def bareRuntime : Runtime where
  toLowerCase := lowerAscii
  lowersAscii := lowersAscii_lowerAscii
  eq_empty_of_toLowerCase := eq_empty_of_map_toLower
  newUrl _ := none

/-- `localhost` is allowed by an entry that names it, and not when a wildcard comes
first. -/
theorem localhost_not_orderFree : ¬OrderFree bareRuntime "localhost" ["localhost", "*"] := by
  intro h
  have hallowed : (evaluateHostEgress bareRuntime "localhost" ["localhost", "*"]).allowed =
      true := by decide +kernel
  have hrefused : (evaluateHostEgress bareRuntime "localhost" ["*", "localhost"]).allowed =
      false := by decide +kernel
  have hsame := h.sameEntries ["*", "localhost"] fun pattern => by simp [or_comm]
  rw [hallowed, hrefused] at hsame
  cases hsame

end GoatCitadel.Sandbox
