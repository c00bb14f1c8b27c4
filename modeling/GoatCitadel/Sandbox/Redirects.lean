import Mathlib.Data.List.Chain
import GoatCitadel.Sandbox.HostEgress

/-!
# Redirects

`fetchAllowlisted` follows redirects by hand.  A server chooses where each redirect
leads, so every hop is checked: its host against the allowlists, and the step to it
against what the caller's request carries.  The step is checked between neighbours,
and the chain of neighbours shows what holds against the first request.
-/

namespace GoatCitadel.Sandbox

open GoatCitadel.Support

/-! ## Requests -/

/-- What the requests take from the runtime besides URLs and lower case. -/
structure FetchRuntime extends Runtime where
  toUpperCase : String → String
  /-- `new URL(text).origin`, or nothing when the constructor throws. -/
  urlOrigin : String → Option String
  /-- `new URL(location, base).toString()`, or nothing when the constructor throws. -/
  resolveUrl : String → String → Option String
  /-- What `new Headers` says about a header that it does not take. -/
  headerError : String × String → String

/-- The parts of `RequestInit` that the policy reads. -/
structure RequestInit (Body : Type) where
  method : Option String := none
  body : Option Body := none
  headers : List (String × String) := []
  credentials : Option String := none
  referrer : Option String := none
  referrerPolicy : Option String := none

structure FetchAllowlistedOptions (Body : Type) where
  allowlist : List String
  additionalAllowlists : List (List String) := []
  maxRedirects : Option Nat := none
  trustedCrossOriginHeaders : List String := []
  init : RequestInit Body := {}

/-- A request as the client gets it. -/
structure Request (Body : Type) where
  url : String
  init : RequestInit Body

structure Response where
  status : Nat
  location : Option String

inductive FetchError
  | error (message : String)
  /-- `HttpMutationOutcomeUnknownError` -/
  | outcomeUnknown (message : String)

def FetchError.message : FetchError → String
  | .error message => message
  | .outcomeUnknown message => message

/-! ## Headers -/

/-- A character of a header's name. -/
def isTokenChar (c : Char) : Bool :=
  c.isAlphanum || "!#$%&'*+-.^_`|~".toList.contains c

def isHeaderName (name : String) : Bool :=
  !name.toList.isEmpty && name.toList.all isTokenChar

/-- White space that `Headers` removes around a value. -/
def isHttpSpace (c : Char) : Bool :=
  c = '\t' || c = '\n' || c = '\r' || c = ' '

def isHeaderValue (value : String) : Bool :=
  ((value.toList.dropWhile isHttpSpace).rdropWhile isHttpSpace).all fun c =>
    c.toNat ≤ 0xFF && c.toNat ≠ 0 && c ≠ '\n' && c ≠ '\r'

/-- The name under which `Headers` keeps a header. -/
def headerKey (name : String) : String :=
  String.ofList (name.toList.map Char.toLower)

def neverForwardHeaderNames : List String :=
  ["authorization", "proxy-authorization", "cookie", "cookie2"]

/-- The words of `NEVER_FORWARD_HEADER_PATTERN`. -/
def secretWords : List String :=
  ["apikey", "api-key", "api_key"] ++
    (["access", "auth", "csrf", "session"].flatMap fun word =>
      [word ++ "token", word ++ "-token", word ++ "_token"]) ++
    ["token", "secret", "credential", "password"]

/-- `[-_]` -/
def isSeparator (c : Char) : Bool :=
  c = '-' || c = '_'

/-- A word stands here, up to a separator or the end. -/
def startsWithSecretWord (text : List Char) : Bool :=
  secretWords.any fun word =>
    word.toList.isPrefixOf text && (text.drop word.toList.length).head?.all isSeparator

/-- A word stands after a separator of the text. -/
def secretWordFollows : List Char → Bool
  | [] => false
  | c :: text => (isSeparator c && startsWithSecretWord text) || secretWordFollows text

/-- `NEVER_FORWARD_HEADER_PATTERN.test(name)`, for names in lower case. -/
def matchesNeverForwardPattern (name : String) : Bool :=
  startsWithSecretWord name.toList || secretWordFollows name.toList

def isNeverForwarded (name : String) : Bool :=
  neverForwardHeaderNames.contains name || matchesNeverForwardPattern name

/-! ## Transitions -/

section

variable (runtime : FetchRuntime)

def safeRetryMethods : List String :=
  ["GET", "HEAD"]

/-- `method?.trim() || "GET"`, in upper case. -/
def normalizeMethod (method : Option String) : String :=
  let trimmed := (method.map trim).getD ""
  runtime.toUpperCase (if trimmed = "" then "GET" else trimmed)

def isHttpRequestSafeToRetry (method : Option String) : Bool :=
  safeRetryMethods.contains (normalizeMethod runtime method)

def resolveOrigin (url : String) : String :=
  (runtime.urlOrigin url).getD "<invalid-origin>"

/-- The names in `new Headers(headers)`. -/
def newHeaders : List (String × String) → Except FetchError (List String)
  | [] => .ok []
  | header :: headers =>
      if isHeaderName header.1 && isHeaderValue header.2 then
        (newHeaders headers).map (headerKey header.1 :: ·)
      else .error (.error (runtime.headerError header))

def trustedNames (trustedHeaderNames : List String) : List String :=
  (trustedHeaderNames.map fun name => runtime.toLowerCase (trim name)).filter (· ≠ "")

def hasUntrustedRequestHeaders (headers : List (String × String))
    (trustedHeaderNames : List String) : Except FetchError Bool := do
  let names ← newHeaders runtime headers
  .ok (names.any fun name =>
    let normalized := runtime.toLowerCase name
    isNeverForwarded normalized ||
      !(trustedNames runtime trustedHeaderNames).contains normalized)

variable {Body : Type}

/-- Why a request cannot be sent a second time. -/
def replayReasons (init : RequestInit Body) : List String :=
  (if isHttpRequestSafeToRetry runtime init.method then []
    else ["method " ++ normalizeMethod runtime init.method]) ++
    if init.body.isSome then ["request body"] else []

/-- Why a request cannot leave its origin. -/
def crossOriginReasons (init : RequestInit Body) (untrusted : Bool) : List String :=
  (if init.credentials = some "include" then ["included credentials"] else []) ++
    (if init.referrer.any (· ≠ "") ||
        init.referrerPolicy.any (fun policy => policy ≠ "" && policy ≠ "no-referrer") then
      ["explicit referrer authority"] else []) ++
    if untrusted then ["caller-supplied headers"] else []

def assertSafeRedirectTransition (currentUrl nextUrl : String) (init : RequestInit Body)
    (trustedCrossOriginHeaders : List String) : Except FetchError Unit :=
  let currentOrigin := resolveOrigin runtime currentUrl
  let nextOrigin := resolveOrigin runtime nextUrl
  if replayReasons runtime init ≠ [] then
    .error (.error ("Redirect blocked from " ++ currentOrigin ++ " to " ++ nextOrigin ++ ": " ++
      ", ".intercalate (replayReasons runtime init) ++ " cannot be replayed automatically."))
  else if currentOrigin = nextOrigin then .ok ()
  else do
    let untrusted ← hasUntrustedRequestHeaders runtime init.headers trustedCrossOriginHeaders
    if crossOriginReasons init untrusted = [] then .ok ()
    else
      .error (.error ("Cross-origin redirect blocked from " ++ currentOrigin ++ " to " ++
        nextOrigin ++ ": " ++ ", ".intercalate (crossOriginReasons init untrusted) ++
        " cannot be forwarded."))

/-! ## Fetching -/

def assertHostAllowed (hostOrUrl : String) (allowlist : List String) :
    Except FetchError Unit :=
  let decision := evaluateHostEgress runtime.toRuntime hostOrUrl allowlist
  if decision.allowed then .ok () else .error (.error decision.reason)

/-- The loop over `options.additionalAllowlists`. -/
def assertAdditionalAllowed (url : String) : List (List String) → Except FetchError Unit
  | [] => .ok ()
  | additionalAllowlist :: rest => do
      if additionalAllowlist ≠ [] then assertHostAllowed runtime url additionalAllowlist
      assertAdditionalAllowed url rest

def assertUrlAllowed (url : String) (options : FetchAllowlistedOptions Body) :
    Except FetchError Unit := do
  assertHostAllowed runtime url options.allowlist
  assertAdditionalAllowed runtime url options.additionalAllowlists

def defaultFetchMaxRedirects : Nat := 5

def FetchAllowlistedOptions.redirectLimit (options : FetchAllowlistedOptions Body) : Nat :=
  options.maxRedirects.getD defaultFetchMaxRedirects

def unknownAfterSend (operation : String) (error : FetchError) : FetchError :=
  .outcomeUnknown (operation ++
    " unknown_after_send: the external mutation endpoint was contacted, " ++
    "but the final outcome is unknown; manual reconciliation is required. " ++ error.message)

/-- The URL that a redirect leads to, once it is counted and checked. -/
def redirectTarget (options : FetchAllowlistedOptions Body) (url currentUrl location : String)
    (hops : Nat) : Except FetchError String :=
  if options.redirectLimit < hops then
    .error (.error ("fetchAllowlisted blocked: too many redirects (" ++ toString hops ++
      ") from " ++ redactUrlForError runtime.toRuntime url))
  else
    match runtime.resolveUrl location currentUrl with
    | none =>
        .error (.error ("fetchAllowlisted blocked: malformed redirect Location from " ++
          redactUrlForError runtime.toRuntime url))
    | some nextUrl => do
        assertSafeRedirectTransition runtime currentUrl nextUrl options.init
          options.trustedCrossOriginHeaders
        assertUrlAllowed runtime nextUrl options
        .ok nextUrl

/-- `redirectTarget` in the `try` of the loop. -/
def followRedirect (options : FetchAllowlistedOptions Body) (url currentUrl location : String)
    (hops : Nat) : Except FetchError String :=
  match redirectTarget runtime options url currentUrl location hops with
  | .ok nextUrl => .ok nextUrl
  | .error error =>
      if isHttpRequestSafeToRetry runtime options.init.method then .error error
      else .error (unknownAfterSend "fetchAllowlisted" error)

/-- What a call issues and how it ends. -/
structure Fetched (Body : Type) where
  requests : List (Request Body)
  outcome : Except FetchError Response

theorem redirectLimit_of_follow {runtime : FetchRuntime}
    {options : FetchAllowlistedOptions Body} {url currentUrl location nextUrl : String}
    {hops : Nat}
    (h : followRedirect runtime options url currentUrl location hops = .ok nextUrl) :
    hops ≤ options.redirectLimit := by
  by_contra hlimit
  rw [followRedirect, redirectTarget, if_pos (Nat.lt_of_not_le hlimit)] at h
  dsimp only at h
  split at h <;> cases h

/-- The loop, from a URL and with the answer that the client gives at each hop. -/
def fetchFrom (options : FetchAllowlistedOptions Body) (url : String)
    (answers : Nat → Except FetchError Response) (currentUrl : String) (hops : Nat) :
    Fetched Body :=
  match assertUrlAllowed runtime currentUrl options with
  | .error error => ⟨[], .error error⟩
  | .ok () =>
      let request : Request Body := { url := currentUrl, init := options.init }
      match answers hops with
      | .error error => ⟨[request], .error error⟩
      | .ok response =>
          if response.status < 300 || 400 ≤ response.status then ⟨[request], .ok response⟩
          else
            match response.location.filter (· ≠ "") with
            | none => ⟨[request], .ok response⟩
            | some location =>
                match _hnext : followRedirect runtime options url currentUrl location
                    (hops + 1) with
                | .error error => ⟨[request], .error error⟩
                | .ok nextUrl =>
                    let rest := fetchFrom options url answers nextUrl (hops + 1)
                    { rest with requests := request :: rest.requests }
termination_by options.redirectLimit - hops
decreasing_by
  have hlimit := redirectLimit_of_follow _hnext
  omega

def fetchAllowlisted (url : String) (options : FetchAllowlistedOptions Body)
    (answers : Nat → Except FetchError Response) : Fetched Body :=
  fetchFrom runtime options url answers url 0

end

/-! ## What a step lets through -/

/-- The name of a header that may go to another origin. -/
def IsForwardable (runtime : FetchRuntime) (trustedHeaderNames : List String)
    (name : String) : Prop :=
  isNeverForwarded (headerKey name) = false ∧
    headerKey name ∈ trustedNames runtime trustedHeaderNames

theorem toNat_lt_of_isAlphanum {c : Char} (h : c.isAlphanum = true) : c.toNat < 128 := by
  have hle : ∀ d : Char, c.val ≤ d.val → c.toNat ≤ d.toNat := fun d hd =>
    UInt32.le_iff_toNat_le.mp hd
  unfold Char.isAlphanum Char.isAlpha Char.isUpper Char.isLower at h
  simp only [Bool.or_eq_true, Bool.and_eq_true, decide_eq_true_eq] at h
  rcases h with (⟨-, hupper⟩ | ⟨-, hlower⟩) | hdigit
  · exact (hle 'Z' hupper).trans_lt (by decide)
  · exact (hle 'z' hlower).trans_lt (by decide)
  · exact (isDigit_range hdigit).2.trans_lt (by decide)

/-- The characters of ASCII, by their numbers. -/
theorem toLower_ascii {c : Char} (h : c.toNat < 128) :
    c.toLower.toNat < 128 ∧ c.toLower.toLower = c.toLower := by
  have hall : ∀ n < 128, (Char.ofNat n).toLower.toNat < 128 ∧
      (Char.ofNat n).toLower.toLower = (Char.ofNat n).toLower := by decide
  have hchar := hall c.toNat h
  rwa [Char.ofNat_toNat] at hchar

theorem toNat_lt_of_isTokenChar {c : Char} (h : isTokenChar c = true) : c.toNat < 128 := by
  rcases Bool.or_eq_true _ _ ▸ h with halphanum | hmark
  · exact toNat_lt_of_isAlphanum halphanum
  · have hall : "!#$%&'*+-.^_`|~".toList.all (fun c => decide (c.toNat < 128)) = true := rfl
    exact of_decide_eq_true (List.all_eq_true.mp hall c (List.contains_iff_mem.mp hmark))

section

variable {runtime : FetchRuntime} {Body : Type} {options : FetchAllowlistedOptions Body}

theorem newHeaders_eq_ok {headers : List (String × String)} {names : List String}
    (h : newHeaders runtime headers = .ok names) :
    names = headers.map (fun header => headerKey header.1) ∧
      ∀ header ∈ headers, isHeaderName header.1 = true := by
  induction headers generalizing names with
  | nil =>
      obtain rfl := Except.ok.inj h
      exact ⟨rfl, fun header hmem => absurd hmem List.not_mem_nil⟩
  | cons header headers ih =>
      rw [newHeaders] at h
      by_cases hvalid : (isHeaderName header.1 && isHeaderValue header.2) = true
      · rw [if_pos hvalid] at h
        obtain ⟨rest, hrest, rfl⟩ := map_eq_ok h
        obtain ⟨rfl, hnames⟩ := ih hrest
        refine ⟨rfl, List.forall_mem_cons.mpr ⟨?_, hnames⟩⟩
        exact (Bool.and_eq_true _ _ ▸ hvalid).1
      · rw [if_neg hvalid] at h
        cases h

/-- Names are ASCII, so the key of a header is in lower case. -/
theorem toLowerCase_headerKey {name : String} (h : isHeaderName name = true) :
    runtime.toLowerCase (headerKey name) = headerKey name := by
  refine toLowerCase_eq_self fun c hc => ?_
  rw [headerKey, String.toList_ofList] at hc
  obtain ⟨d, hd, rfl⟩ := List.mem_map.mp hc
  have htoken := List.all_eq_true.mp (Bool.and_eq_true _ _ ▸ h).2 d hd
  exact toLower_ascii (toNat_lt_of_isTokenChar htoken)

theorem hasUntrustedRequestHeaders_eq_false {headers : List (String × String)}
    {trusted : List String}
    (h : hasUntrustedRequestHeaders runtime headers trusted = .ok false) :
    ∀ header ∈ headers, IsForwardable runtime trusted header.1 := by
  obtain ⟨names, hnames, hany⟩ := bind_eq_ok.mp h
  obtain ⟨rfl, hvalid⟩ := newHeaders_eq_ok hnames
  intro header hmem
  have hnone := List.any_eq_false.mp (Except.ok.inj hany) (headerKey header.1)
    (List.mem_map_of_mem hmem)
  dsimp only at hnone
  rw [toLowerCase_headerKey (hvalid header hmem)] at hnone
  simpa [IsForwardable] using hnone

/-- What the step to another URL has been checked for. -/
structure MayFollow (runtime : FetchRuntime) (options : FetchAllowlistedOptions Body)
    (currentUrl nextUrl : String) : Prop where
  safe : isHttpRequestSafeToRetry runtime options.init.method = true
  noBody : options.init.body = none
  sameOrigin : resolveOrigin runtime currentUrl = resolveOrigin runtime nextUrl ∨
    ∀ header ∈ options.init.headers,
      IsForwardable runtime options.trustedCrossOriginHeaders header.1

/-- The allowlist admits a URL, and so does every other list that is not empty. -/
def UrlAllowed (runtime : FetchRuntime) (options : FetchAllowlistedOptions Body)
    (url : String) : Prop :=
  (evaluateHostEgress runtime.toRuntime url options.allowlist).allowed = true ∧
    ∀ additionalAllowlist ∈ options.additionalAllowlists, additionalAllowlist ≠ [] →
      (evaluateHostEgress runtime.toRuntime url additionalAllowlist).allowed = true

theorem replayReasons_eq_nil {init : RequestInit Body} :
    replayReasons runtime init = [] ↔
      isHttpRequestSafeToRetry runtime init.method = true ∧ init.body = none := by
  unfold replayReasons
  by_cases hsafe : isHttpRequestSafeToRetry runtime init.method = true
  · simp [hsafe]
  · simp [hsafe]

theorem assertSafeRedirectTransition_eq_ok {currentUrl nextUrl : String}
    (h : assertSafeRedirectTransition runtime currentUrl nextUrl options.init
      options.trustedCrossOriginHeaders = .ok ()) :
    MayFollow runtime options currentUrl nextUrl := by
  unfold assertSafeRedirectTransition at h
  dsimp only at h
  by_cases hreplay : replayReasons runtime options.init = []
  · obtain ⟨hsafe, hbody⟩ := replayReasons_eq_nil.mp hreplay
    refine ⟨hsafe, hbody, ?_⟩
    rw [if_neg (not_not_intro hreplay)] at h
    by_cases hsame : resolveOrigin runtime currentUrl = resolveOrigin runtime nextUrl
    · exact .inl hsame
    rw [if_neg hsame] at h
    obtain ⟨untrusted, huntrusted, hreasons⟩ := bind_eq_ok.mp h
    by_cases hnone : crossOriginReasons options.init untrusted = []
    · have hfalse : untrusted = false := by
        simp only [crossOriginReasons, List.append_eq_nil_iff] at hnone
        simpa using hnone.2
      exact .inr (hasUntrustedRequestHeaders_eq_false (hfalse ▸ huntrusted))
    · rw [if_neg hnone] at hreasons
      cases hreasons
  · rw [if_pos hreplay] at h
    cases h

theorem assertHostAllowed_eq_ok {url : String} {allowlist : List String} :
    assertHostAllowed runtime url allowlist = .ok () ↔
      (evaluateHostEgress runtime.toRuntime url allowlist).allowed = true := by
  unfold assertHostAllowed
  by_cases hallowed : (evaluateHostEgress runtime.toRuntime url allowlist).allowed = true
  · simp [hallowed]
  · simp [hallowed]

theorem assertAdditionalAllowed_eq_ok {url : String} {lists : List (List String)} :
    assertAdditionalAllowed runtime url lists = .ok () ↔
      ∀ additionalAllowlist ∈ lists, additionalAllowlist ≠ [] →
        (evaluateHostEgress runtime.toRuntime url additionalAllowlist).allowed = true := by
  induction lists with
  | nil => simp [assertAdditionalAllowed]
  | cons additionalAllowlist rest ih =>
      rw [List.forall_mem_cons, ← ih, assertAdditionalAllowed]
      by_cases hempty : additionalAllowlist = []
      · simp [hempty]
      · rw [if_pos hempty]
        constructor
        · intro h
          obtain ⟨_, hallowed, hrest⟩ := bind_eq_ok.mp h
          exact ⟨fun _ => assertHostAllowed_eq_ok.mp hallowed, hrest⟩
        · rintro ⟨hallowed, hrest⟩
          exact bind_eq_ok.mpr ⟨(), assertHostAllowed_eq_ok.mpr (hallowed hempty), hrest⟩

theorem assertUrlAllowed_eq_ok {url : String} :
    assertUrlAllowed runtime url options = .ok () ↔ UrlAllowed runtime options url := by
  constructor
  · intro h
    obtain ⟨_, hallowed, hrest⟩ := bind_eq_ok.mp h
    exact ⟨assertHostAllowed_eq_ok.mp hallowed, assertAdditionalAllowed_eq_ok.mp hrest⟩
  · rintro ⟨hallowed, hrest⟩
    exact bind_eq_ok.mpr
      ⟨(), assertHostAllowed_eq_ok.mpr hallowed, assertAdditionalAllowed_eq_ok.mpr hrest⟩

theorem followRedirect_eq_ok {url currentUrl location nextUrl : String} {hops : Nat}
    (h : followRedirect runtime options url currentUrl location hops = .ok nextUrl) :
    MayFollow runtime options currentUrl nextUrl ∧ UrlAllowed runtime options nextUrl := by
  have htarget : redirectTarget runtime options url currentUrl location hops =
      .ok nextUrl := by
    rw [followRedirect] at h
    split at h
    · next htarget => rwa [Except.ok.inj h] at htarget
    · split at h <;> cases h
  rw [redirectTarget, if_neg (Nat.not_lt.mpr (redirectLimit_of_follow h))] at htarget
  split at htarget
  · cases htarget
  · obtain ⟨_, htransition, hrest⟩ := bind_eq_ok.mp htarget
    obtain ⟨_, hallowed, heq⟩ := bind_eq_ok.mp hrest
    obtain rfl := Except.ok.inj heq
    exact ⟨assertSafeRedirectTransition_eq_ok htransition,
      assertUrlAllowed_eq_ok.mp hallowed⟩

end

/-! ## Chains of redirects -/

/-- The URLs that may be requested one after the other, whatever the servers answer:
from a URL, with so many redirects left. -/
inductive Follows (runtime : FetchRuntime) (options : FetchAllowlistedOptions Body) :
    Nat → String → List String → Prop
  | refused {left : Nat} {url : String} (hrefused : ¬UrlAllowed runtime options url) :
      Follows runtime options left url []
  | last {left : Nat} {url : String} (hallowed : UrlAllowed runtime options url) :
      Follows runtime options left url [url]
  | hop {left : Nat} {url nextUrl : String} {urls : List String}
      (hallowed : UrlAllowed runtime options url)
      (hstep : MayFollow runtime options url nextUrl)
      (hrest : Follows runtime options left nextUrl urls) :
      Follows runtime options (left + 1) url (url :: urls)

section

variable {runtime : FetchRuntime} {Body : Type} {options : FetchAllowlistedOptions Body}

/-- One round of the loop: it refuses the URL, or requests it and is done, or follows a
redirect. -/
theorem fetchFrom_cases (runtime : FetchRuntime) (options : FetchAllowlistedOptions Body)
    (url : String) (answers : Nat → Except FetchError Response)
    (currentUrl : String) (hops : Nat) :
    (¬UrlAllowed runtime options currentUrl ∧
      (fetchFrom runtime options url answers currentUrl hops).requests = []) ∨
    (UrlAllowed runtime options currentUrl ∧
      ((fetchFrom runtime options url answers currentUrl hops).requests =
          [{ url := currentUrl, init := options.init }] ∨
        ∃ location nextUrl,
          followRedirect runtime options url currentUrl location (hops + 1) = .ok nextUrl ∧
          (fetchFrom runtime options url answers currentUrl hops).requests =
            { url := currentUrl, init := options.init } ::
              (fetchFrom runtime options url answers nextUrl (hops + 1)).requests)) := by
  rw [← assertUrlAllowed_eq_ok]
  generalize hresult : fetchFrom runtime options url answers currentUrl hops = result
  unfold fetchFrom at hresult
  split at hresult
  · next herror =>
      refine .inl ⟨fun hok => ?_, by rw [← hresult]⟩
      cases herror.symm.trans hok
  next hallowed =>
    refine .inr ⟨hallowed, ?_⟩
    dsimp only at hresult
    split at hresult
    · exact .inl (by rw [← hresult])
    split at hresult
    · exact .inl (by rw [← hresult])
    split at hresult
    · exact .inl (by rw [← hresult])
    split at hresult
    · exact .inl (by rw [← hresult])
    · next hnext => exact .inr ⟨_, _, hnext, by rw [← hresult]⟩

/-- The loop requests a chain of redirects, each with the caller's `init`. -/
theorem fetchFrom_follows (runtime : FetchRuntime)
    (options : FetchAllowlistedOptions Body) (url : String)
    (answers : Nat → Except FetchError Response) (currentUrl : String) (hops left : Nat)
    (hleft : hops + left = options.redirectLimit) :
    ∃ urls, Follows runtime options left currentUrl urls ∧
      (fetchFrom runtime options url answers currentUrl hops).requests =
        urls.map fun requested => { url := requested, init := options.init } := by
  induction left generalizing currentUrl hops with
  | zero =>
      obtain ⟨hrefused, hnone⟩ | ⟨hallowed, hlast | ⟨location, nextUrl, hnext, -⟩⟩ :=
        fetchFrom_cases runtime options url answers currentUrl hops
      · exact ⟨[], .refused hrefused, hnone⟩
      · exact ⟨[currentUrl], .last hallowed, hlast⟩
      · have hlimit := redirectLimit_of_follow hnext
        omega
  | succ left ih =>
      obtain ⟨hrefused, hnone⟩ | ⟨hallowed, hlast | ⟨location, nextUrl, hnext, hcons⟩⟩ :=
        fetchFrom_cases runtime options url answers currentUrl hops
      · exact ⟨[], .refused hrefused, hnone⟩
      · exact ⟨[currentUrl], .last hallowed, hlast⟩
      · obtain ⟨urls, hfollows, hrest⟩ := ih nextUrl (hops + 1) (by omega)
        refine ⟨currentUrl :: urls, .hop hallowed (followRedirect_eq_ok hnext).1 hfollows, ?_⟩
        rw [hcons, hrest, List.map_cons]

namespace Follows

variable {left : Nat} {url : String} {urls : List String}

theorem allowed (h : Follows runtime options left url urls) :
    ∀ requested ∈ urls, UrlAllowed runtime options requested := by
  induction h with
  | refused _ => exact List.forall_mem_nil _
  | last hallowed => exact List.forall_mem_singleton.mpr hallowed
  | hop hallowed _ _ ih => exact List.forall_mem_cons.mpr ⟨hallowed, ih⟩

theorem length_le (h : Follows runtime options left url urls) : urls.length ≤ left + 1 := by
  induction h with
  | refused _ => exact Nat.zero_le _
  | last _ => exact Nat.le_add_left _ _
  | hop _ _ _ ih => exact Nat.succ_le_succ ih

/-- What no step may replay is requested once, if its URL is allowed at all. -/
theorem requested_once (h : Follows runtime options left url urls)
    (hreplay : isHttpRequestSafeToRetry runtime options.init.method = false ∨
      options.init.body ≠ none) :
    (UrlAllowed runtime options url ∧ urls = [url]) ∨
      (¬UrlAllowed runtime options url ∧ urls = []) := by
  cases h with
  | refused hrefused => exact .inr ⟨hrefused, rfl⟩
  | last hallowed => exact .inl ⟨hallowed, rfl⟩
  | hop _ hstep _ =>
      exfalso
      rcases hreplay with hmethod | hbody
      · exact Bool.false_ne_true (hmethod.symm.trans hstep.safe)
      · exact hbody hstep.noBody

/-- Either every header may travel, or the chain stays at one origin. -/
theorem same_origin (h : Follows runtime options left url urls)
    (hheaders : ¬∀ header ∈ options.init.headers,
      IsForwardable runtime options.trustedCrossOriginHeaders header.1) :
    ∀ requested ∈ urls, resolveOrigin runtime requested = resolveOrigin runtime url := by
  induction h with
  | refused _ => exact List.forall_mem_nil _
  | last _ => exact List.forall_mem_singleton.mpr rfl
  | hop _ hstep _ ih =>
      have horigin := hstep.sameOrigin.resolve_right hheaders
      refine List.forall_mem_cons.mpr ⟨rfl, fun requested hmem => ?_⟩
      exact (ih requested hmem).trans horigin.symm

end Follows

/-! ## A whole call -/

/-- What the requests of a call keep to. -/
structure StaysInPolicy (runtime : FetchRuntime) (options : FetchAllowlistedOptions Body)
    (url : String) (requests : List (Request Body)) : Prop where
  init_eq : ∀ request ∈ requests, request.init = options.init
  allowed : ∀ request ∈ requests, UrlAllowed runtime options request.url
  count_le : requests.length ≤ options.redirectLimit + 1
  requested_once :
    isHttpRequestSafeToRetry runtime options.init.method = false ∨ options.init.body ≠ none →
      (UrlAllowed runtime options url ∧ requests = [{ url, init := options.init }]) ∨
        (¬UrlAllowed runtime options url ∧ requests = [])
  forwardable : ∀ request ∈ requests,
    resolveOrigin runtime request.url ≠ resolveOrigin runtime url →
      ∀ header ∈ request.init.headers,
        IsForwardable runtime options.trustedCrossOriginHeaders header.1

end

/-- Redirects do not escape the egress policy, whatever the servers answer. -/
theorem fetchAllowlisted_staysInPolicy {Body : Type} (runtime : FetchRuntime) (url : String)
    (options : FetchAllowlistedOptions Body)
    (answers : Nat → Except FetchError Response) :
    StaysInPolicy runtime options url
      (fetchAllowlisted runtime url options answers).requests := by
  obtain ⟨urls, hfollows, hrequests⟩ := fetchFrom_follows runtime options url answers url 0
    options.redirectLimit (Nat.zero_add _)
  have hrequests' : (fetchAllowlisted runtime url options answers).requests = _ := hrequests
  rw [hrequests']
  refine ⟨?_, ?_, ?_, fun hreplay => ?_, ?_⟩
  · exact List.forall_mem_map.mpr fun requested _ => rfl
  · exact List.forall_mem_map.mpr hfollows.allowed
  · rw [List.length_map]
    exact hfollows.length_le
  · obtain ⟨hallowed, rfl⟩ | ⟨hrefused, rfl⟩ := hfollows.requested_once hreplay
    · exact .inl ⟨hallowed, rfl⟩
    · exact .inr ⟨hrefused, rfl⟩
  · refine List.forall_mem_map.mpr fun requested hmem horigin => ?_
    by_contra hheaders
    exact horigin (hfollows.same_origin hheaders requested hmem)

end GoatCitadel.Sandbox
