import GoatCitadel.Gateway.SessionKey

/-!
# Routes from session keys

A session key is read back by cutting it at its separators and decoding the segments.  An
escaped separator is decoded before an escaped percent sign, so a text that looks like an
escape survives.
-/

namespace GoatCitadel.Gateway

open GoatCitadel.Support

/-! ## Decoding -/

/-- `String.prototype.replaceAll` of a text, with so many characters left of one that was
found. -/
def replaceTextFrom (pattern replacement : List Char) : Nat → List Char → List Char
  | _, [] => []
  | skipped + 1, _ :: text => replaceTextFrom pattern replacement skipped text
  | 0, c :: text =>
      if pattern.isPrefixOf (c :: text) then
        replacement ++ replaceTextFrom pattern replacement (pattern.length - 1) text
      else c :: replaceTextFrom pattern replacement 0 text

def replaceText (pattern replacement text : List Char) : List Char :=
  replaceTextFrom pattern replacement 0 text

def decodeSessionKeySegment (segment : String) : String :=
  String.ofList
    (replaceText ['%', '2', '5'] ['%'] (replaceText ['%', '3', 'A'] [':'] segment.toList))

/-- `sessionKey.split(":")`, decoded. -/
def decodedSegments (sessionKey : String) : List String :=
  (sessionKey.toList.splitOn ':').map fun segment =>
    decodeSessionKeySegment (String.ofList segment)

/-- The route that a key was derived from; a peer and a room have the same key. -/
def decodeSessionRoute (sessionKey : String) : Except String SessionRouteInput :=
  match decodedSegments sessionKey with
  | [channel, account, conversation] =>
      if channel = "" ∨ account = "" ∨ conversation = "" then
        .error "This conversation has no channel address."
      else .ok { channel, account, peer := some conversation }
  | [channel, account, conversation, threadId] =>
      if channel = "" ∨ account = "" ∨ conversation = "" then
        .error "This conversation has no channel address."
      else if threadId = "" then .ok { channel, account, peer := some conversation }
      else .ok { channel, account, room := some conversation, threadId := some threadId }
  | _ => .error "This conversation has no channel address."

/-- The route of a session of a kind, whose channel and account are known. -/
def routeFromSession (kind : SessionKind) (channel account sessionKey : String) :
    SessionRouteInput :=
  let parts := decodedSegments sessionKey
  match kind with
  | .dm => { channel, account, peer := parts[2]? }
  | .group => { channel, account, room := parts[2]? }
  | .thread => { channel, account, room := parts[2]?, threadId := parts[3]? }

/-- The fields of a route of a kind. -/
def SessionRouteInput.fields (input : SessionRouteInput) : SessionKind → List (Option String)
  | .dm => [some input.channel, some input.account, input.peer]
  | .group => [some input.channel, some input.account, input.room]
  | .thread => [some input.channel, some input.account, input.room, input.threadId]

section Decoding

variable {pattern replacement text : List Char} {c first : Char}

theorem replaceText_cons_of_ne (h : c ≠ first) :
    replaceText (first :: pattern) replacement (c :: text) =
      c :: replaceText (first :: pattern) replacement text := by
  have hstart : (first :: pattern).isPrefixOf (c :: text) = false := by
    rw [List.isPrefixOf_cons_cons, beq_eq_false_iff_ne.mpr h.symm, Bool.false_and]
  unfold replaceText
  rw [replaceTextFrom, hstart]
  rfl

/-- A character, with its percent sign still escaped. -/
def escapedPercent (c : Char) : List Char :=
  if c = '%' then ['%', '2', '5'] else [c]

theorem replaceText_escaped (text : List Char) :
    replaceText ['%', '3', 'A'] [':'] (text.flatMap escaped) = text.flatMap escapedPercent := by
  induction text with
  | nil => rfl
  | cons c text ih =>
      rw [List.flatMap_cons, List.flatMap_cons, ← ih]
      by_cases hpercent : c = '%'
      · rw [hpercent]
        rfl
      · by_cases hcolon : c = ':'
        · rw [hcolon]
          rfl
        · have hplain : escaped c = [c] := by
            rw [escaped, if_neg hpercent, if_neg hcolon]
          rw [hplain, escapedPercent, if_neg hpercent, List.singleton_append,
            replaceText_cons_of_ne hpercent]
          rfl

theorem replaceText_escapedPercent (text : List Char) :
    replaceText ['%', '2', '5'] ['%'] (text.flatMap escapedPercent) = text := by
  induction text with
  | nil => rfl
  | cons c text ih =>
      rw [List.flatMap_cons]
      by_cases hpercent : c = '%'
      · rw [hpercent]
        exact congrArg ('%' :: ·) ih
      · rw [escapedPercent, if_neg hpercent, List.singleton_append,
          replaceText_cons_of_ne hpercent, ih]

/-- What was escaped is decoded. -/
theorem decodeSessionKeySegment_escaped (value : String) :
    decodeSessionKeySegment (String.ofList (value.toList.flatMap escaped)) = value := by
  unfold decodeSessionKeySegment
  rw [String.toList_ofList, replaceText_escaped, replaceText_escapedPercent,
    String.ofList_toList]

end Decoding

/-! ## Round trip -/

section RoundTrip

variable {sha256 : String → String} {input : SessionRouteInput}
  {result : SessionRouteResolution}

/-- A segment is made of a text that is not empty when it is trimmed. -/
theorem trim_ne_empty_of_normalizeSegment {value segment : String}
    (h : normalizeSegment value = .ok segment) : trim value ≠ "" := by
  unfold normalizeSegment at h
  split at h
  · cases h
  · assumption

/-- The segments of a key are those of the trimmed fields. -/
theorem decodedSegments_sessionKey (h : resolveSessionRoute sha256 input = .ok result) :
    decodedSegments result.sessionKey = input.values := by
  have hkey := (resolveSessionRoute_eq_ok h).1
  have hfree : ∀ part ∈ input.values.map fun value => value.toList.flatMap escaped,
      ':' ∉ part := by
    intro part hpart
    obtain ⟨value, -, rfl⟩ := List.mem_map.mp hpart
    exact separator_not_mem_escaped value.toList
  unfold decodedSegments
  rw [hkey, List.splitOn_intercalate ':' hfree (List.cons_ne_nil _ _), List.map_map]
  have hdecode : ∀ value ∈ input.values,
      ((fun segment => decodeSessionKeySegment (String.ofList segment)) ∘
        fun value : String => value.toList.flatMap escaped) value = value :=
    fun value _ => decodeSessionKeySegment_escaped value
  exact (List.map_congr_left hdecode).trans (List.map_id _)

/-- Segments of a text are the segments of the trimmed text. -/
theorem normalizeSegment_trim (value : String) :
    normalizeSegment (trim value) = normalizeSegment value := by
  unfold normalizeSegment
  rw [trim_trim]

theorem given_trim {value segment : String} (h : normalizeSegment value = .ok segment) :
    given (some (trim value)) = some (trim value) := by
  have hne := trim_ne_empty_of_normalizeSegment h
  unfold given
  rw [Option.filter_some, if_pos (by simpa using hne)]

/-- The fields of a route of its kind, trimmed, are the segments of its key. -/
theorem fields_eq_values (h : resolveSessionRoute sha256 input = .ok result) :
    (input.fields result.kind).map (Option.map trim) = input.values.map some := by
  have hfields := (resolveSessionRoute_eq_ok h).2
  unfold SessionRouteInput.fields SessionRouteInput.values
  cases hkind : result.kind with
  | dm =>
      rw [hkind] at hfields
      obtain ⟨hthread, hpeer⟩ := hfields
      simp [hthread, hpeer]
  | group =>
      rw [hkind] at hfields
      obtain ⟨hthread, hroom⟩ := hfields
      simp [hthread, hroom]
  | thread =>
      rw [hkind] at hfields
      obtain ⟨hthread, hsome, hroom⟩ := hfields
      obtain ⟨threadId, hthreadId⟩ := Option.isSome_iff_exists.mp hsome
      simp [hthread, hthreadId, hroom]

/-- A route of trimmed texts resolves to what the route that they come from resolves to. -/
theorem resolveSessionRoute_trimmed {channel account : String} {other : SessionRouteInput}
    (hchannel : normalizeSegment input.channel = .ok channel)
    (haccount : normalizeSegment input.account = .ok account)
    (hotherChannel : other.channel = trim input.channel)
    (hotherAccount : other.account = trim input.account)
    (hresolves : Resolves sha256 other channel account result) :
    resolveSessionRoute sha256 other = .ok result := by
  have hguard : ¬(other.channel = "" ∨ other.account = "") := by
    rw [hotherChannel, hotherAccount]
    rintro (hempty | hempty)
    · exact trim_ne_empty_of_normalizeSegment hchannel hempty
    · exact trim_ne_empty_of_normalizeSegment haccount hempty
  have hchannel' : normalizeSegment other.channel = .ok channel := by
    rw [hotherChannel, normalizeSegment_trim, hchannel]
  have haccount' : normalizeSegment other.account = .ok account := by
    rw [hotherAccount, normalizeSegment_trim, haccount]
  unfold resolveSessionRoute
  refine guard_eq_ok.mpr ⟨hguard, bind_eq_ok.mpr ⟨_, hchannel', bind_eq_ok.mpr
    ⟨_, haccount', ?_⟩⟩⟩
  cases hresolves with
  | dm hthread hroom hpeer hsegment =>
      rw [hthread, hroom, hpeer]
      exact bind_eq_ok.mpr ⟨_, hsegment, rfl⟩
  | group hthread hroom hsegment =>
      rw [hthread, hroom]
      exact bind_eq_ok.mpr ⟨_, hsegment, rfl⟩
  | thread hthread hroom hsegment hlast =>
      rw [hthread, hroom]
      exact bind_eq_ok.mpr ⟨_, hsegment, bind_eq_ok.mpr ⟨_, hlast, rfl⟩⟩

/-- A key is cut into one segment for every field of its route; each decodes to the field,
trimmed; and the route that is read back from the key has that key again, and is of the same
kind when it is read back as a route of that kind. -/
theorem sessionKey_decodes_to_route (h : resolveSessionRoute sha256 input = .ok result) :
    (result.sessionKey.toList.splitOn ':').length = (input.fields result.kind).length ∧
      (decodedSegments result.sessionKey).map some =
        (input.fields result.kind).map (Option.map trim) ∧
      resolveSessionRoute sha256
        (routeFromSession result.kind (trim input.channel) (trim input.account)
          result.sessionKey) = .ok result ∧
      ∃ decoded again, decodeSessionRoute result.sessionKey = .ok decoded ∧
        resolveSessionRoute sha256 decoded = .ok again ∧
          again.sessionKey = result.sessionKey ∧ again.sessionId = result.sessionId := by
  have hvalues := decodedSegments_sessionKey h
  have hfields := fields_eq_values h
  have hlength := congrArg List.length hfields
  rw [List.length_map, List.length_map, ← hvalues, decodedSegments, List.length_map] at hlength
  refine ⟨hlength.symm, ?_, ?_⟩
  · rw [hvalues, hfields]
  · obtain ⟨channel, account, hchannel, haccount, hresolves⟩ := resolves_of_eq_ok h
    unfold SessionRouteInput.values at hvalues
    have hchannelNe := trim_ne_empty_of_normalizeSegment hchannel
    have haccountNe := trim_ne_empty_of_normalizeSegment haccount
    have hresolve : ∀ {other : SessionRouteInput} {again : SessionRouteResolution},
        other.channel = trim input.channel → other.account = trim input.account →
          Resolves sha256 other channel account again →
            resolveSessionRoute sha256 other = .ok again :=
      fun h₁ h₂ h₃ => resolveSessionRoute_trimmed hchannel haccount h₁ h₂ h₃
    cases hresolves with
    | @dm peer segment hthread hroom hpeer hsegment =>
        have hpeerNe := trim_ne_empty_of_normalizeSegment hsegment
        have hparts : decodedSegments
            (resolution sha256 .dm [channel, account, segment]).sessionKey =
              [trim input.channel, trim input.account, trim peer] := by
          rw [hvalues, SessionRouteInput.conversation, SessionRouteInput.thread, hthread, hroom,
            given_eq_some hpeer]
          rfl
        have hdm : ∀ {other : SessionRouteInput}, given other.threadId = none →
            given other.room = none → other.peer = some (trim peer) →
              Resolves sha256 other channel account
                (resolution sha256 .dm [channel, account, segment]) := by
          intro other hthread' hroom' hpeer'
          refine @Resolves.dm _ _ _ _ (trim peer) _ hthread' hroom' ?_ ?_
          · rw [hpeer']
            exact given_trim hsegment
          · rw [normalizeSegment_trim, hsegment]
        constructor
        · unfold routeFromSession
          rw [hparts]
          exact hresolve rfl rfl (hdm rfl rfl rfl)
        · refine ⟨⟨trim input.channel, trim input.account, some (trim peer), none, none⟩, _, ?_,
            hresolve rfl rfl (hdm rfl rfl rfl), rfl, rfl⟩
          unfold decodeSessionRoute
          rw [hparts]
          exact if_neg (by simp [hchannelNe, haccountNe, hpeerNe])
    | @group room segment hthread hroom hsegment =>
        have hroomNe := trim_ne_empty_of_normalizeSegment hsegment
        have hparts : decodedSegments
            (resolution sha256 .group [channel, account, segment]).sessionKey =
              [trim input.channel, trim input.account, trim room] := by
          rw [hvalues, SessionRouteInput.conversation, SessionRouteInput.thread, hthread, hroom]
          rfl
        have hsegment' : normalizeSegment (trim room) = .ok segment := by
          rw [normalizeSegment_trim, hsegment]
        constructor
        · unfold routeFromSession
          rw [hparts]
          exact hresolve rfl rfl (.group rfl (given_trim hsegment) hsegment')
        · refine ⟨⟨trim input.channel, trim input.account, some (trim room), none, none⟩, _, ?_,
            hresolve rfl rfl (.dm rfl rfl (given_trim hsegment) hsegment'), rfl, rfl⟩
          unfold decodeSessionRoute
          rw [hparts]
          exact if_neg (by simp [hchannelNe, haccountNe, hroomNe])
    | @thread threadId room segment last hthread hroom hsegment hlast =>
        have hroomNe := trim_ne_empty_of_normalizeSegment hsegment
        have hthreadNe := trim_ne_empty_of_normalizeSegment hlast
        have hparts : decodedSegments
            (resolution sha256 .thread [channel, account, segment, last]).sessionKey =
              [trim input.channel, trim input.account, trim room, trim threadId] := by
          rw [hvalues, SessionRouteInput.conversation, SessionRouteInput.thread, hthread, hroom]
          rfl
        have hsegment' : normalizeSegment (trim room) = .ok segment := by
          rw [normalizeSegment_trim, hsegment]
        have hlast' : normalizeSegment (trim threadId) = .ok last := by
          rw [normalizeSegment_trim, hlast]
        constructor
        · unfold routeFromSession
          rw [hparts]
          exact hresolve rfl rfl
            (.thread (given_trim hlast) (given_trim hsegment) hsegment' hlast')
        · refine ⟨⟨trim input.channel, trim input.account, none, some (trim room),
            some (trim threadId)⟩, _, ?_, hresolve rfl rfl
              (.thread (given_trim hlast) (given_trim hsegment) hsegment' hlast'), rfl, rfl⟩
          unfold decodeSessionRoute
          rw [hparts]
          exact (if_neg (by simp [hchannelNe, haccountNe, hroomNe])).trans (if_neg hthreadNe)

end RoundTrip

/-- A literal escape in a field is told from an escaped separator. -/
theorem literalEscape_survives :
    let sha256 : String → String := fun _ =>
      "cd94d0c79dc3cbab6239291a1a4d3b4f59339fa52450fbf8795a37ce5f20e902"
    let route : SessionRouteInput := ⟨"sl%3Aack", " a:b ", none, some "eng", some "12"⟩
    ∃ result, resolveSessionRoute sha256 route = .ok result ∧
      result.sessionKey = "sl%253Aack:a%3Ab:eng:12" ∧
      (decodedSegments result.sessionKey).map some =
        (route.fields result.kind).map (Option.map trim) := by
  intro sha256 route
  have hroute : resolveSessionRoute sha256 route =
      .ok ⟨.thread, "sl%253Aack:a%3Ab:eng:12", "sess_cd94d0c79dc3cbab6239291a"⟩ := by
    decide +kernel
  exact ⟨_, hroute, rfl, (sessionKey_decodes_to_route hroute).2.1⟩

end GoatCitadel.Gateway
