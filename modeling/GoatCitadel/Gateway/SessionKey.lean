import GoatCitadel.Support.Separated
import GoatCitadel.Support.Text

/-!
# Session keys

A route names a conversation: a peer, a room, or a thread in a room.  Its session key
is made of the segments of the route, in which `%` and `:` are escaped, with `:` between
them.  A peer and a room give the same key when their segments are the same; apart from
that the key determines the conversation.
-/

namespace GoatCitadel.Gateway

open GoatCitadel.Support

/-! ## Segments -/

/-- `String.prototype.replaceAll` of a character. -/
def replaceAll (c : Char) (replacement text : List Char) : List Char :=
  text.flatMap fun d => if d = c then replacement else [d]

def normalizeSegment (value : String) : Except String String :=
  if trim value = "" then .error "session key segments cannot be empty"
  else .ok (String.ofList
    (replaceAll ':' ['%', '3', 'A'] (replaceAll '%' ['%', '2', '5'] (trim value).toList)))

/-! ## Routes -/

structure SessionRouteInput where
  channel : String
  account : String
  peer : Option String := none
  room : Option String := none
  threadId : Option String := none
  deriving DecidableEq

inductive SessionKind
  | dm
  | group
  | thread
  deriving DecidableEq

structure SessionRouteResolution where
  kind : SessionKind
  sessionKey : String
  sessionId : String
  deriving DecidableEq

/-- An optional text that counts as given. -/
def given (value : Option String) : Option String :=
  value.filter fun text => text ≠ ""

section

variable (sha256 : String → String)

def deriveSessionId (sessionKey : String) : String :=
  "sess_" ++ String.ofList ((sha256 sessionKey).toList.take 24)

/-- The resolution of a route of a kind with these segments. -/
def resolution (kind : SessionKind) (segments : List String) : SessionRouteResolution :=
  let sessionKey := String.ofList ([':'].intercalate (segments.map String.toList))
  { kind, sessionKey, sessionId := deriveSessionId sha256 sessionKey }

def resolveSessionRoute (input : SessionRouteInput) : Except String SessionRouteResolution := do
  if input.channel = "" ∨ input.account = "" then
    throw "route.channel and route.account are required"
  let channel ← normalizeSegment input.channel
  let account ← normalizeSegment input.account
  match given input.threadId, given input.room, given input.peer with
  | some _, none, _ => throw "route.room is required when route.threadId is provided"
  | some threadId, some room, _ =>
      let room ← normalizeSegment room
      let threadId ← normalizeSegment threadId
      return resolution sha256 .thread [channel, account, room, threadId]
  | none, some room, _ =>
      let room ← normalizeSegment room
      return resolution sha256 .group [channel, account, room]
  | none, none, none => throw "route.peer is required for DM sessions"
  | none, none, some peer =>
      let peer ← normalizeSegment peer
      return resolution sha256 .dm [channel, account, peer]

end

/-! ## Escapes -/

section Escapes

/-- A character of a segment, escaped. -/
def escaped (c : Char) : List Char :=
  if c = '%' then ['%', '2', '5'] else if c = ':' then ['%', '3', 'A'] else [c]

theorem replaced_eq_escaped (text : List Char) :
    replaceAll ':' ['%', '3', 'A'] (replaceAll '%' ['%', '2', '5'] text) =
      text.flatMap escaped := by
  unfold replaceAll
  rw [List.flatMap_assoc]
  congr 1
  funext c
  unfold escaped
  by_cases hpercent : c = '%'
  · rw [if_pos hpercent, if_pos hpercent]
    rfl
  · rw [if_neg hpercent, if_neg hpercent, List.flatMap_singleton]

/-- Two escaped characters with texts after them are told apart. -/
theorem escaped_cancel {c d : Char} {front back : List Char}
    (h : escaped c ++ front = escaped d ++ back) : c = d ∧ front = back := by
  have hplain : ∀ {e : Char} {rest other : List Char}, e ≠ '%' →
      '%' :: rest ≠ [e] ++ other := by
    intro e rest other he h
    exact he (List.cons.inj h).1.symm
  have hcodes : ∀ rest other : List Char, '2' :: rest ≠ '3' :: other := by
    intro rest other h
    exact absurd (List.cons.inj h).1 (by decide)
  unfold escaped at h
  by_cases hc : c = '%'
  · rw [if_pos hc] at h
    by_cases hd : d = '%'
    · rw [if_pos hd] at h
      exact ⟨hc.trans hd.symm, List.append_cancel_left h⟩
    · rw [if_neg hd] at h
      split_ifs at h
      · exact absurd (List.cons.inj h).2 (hcodes _ _)
      · exact absurd h (hplain hd)
  · rw [if_neg hc] at h
    by_cases hd : d = '%'
    · rw [if_pos hd] at h
      split_ifs at h
      · exact absurd (List.cons.inj h).2.symm (hcodes _ _)
      · exact absurd h.symm (hplain hc)
    · rw [if_neg hd] at h
      split_ifs at h with hc' hd' hd'
      · exact ⟨hc'.trans hd'.symm, List.append_cancel_left h⟩
      · exact absurd h (hplain hd)
      · exact absurd h.symm (hplain hc)
      · obtain ⟨hsame, hrest⟩ := List.cons.inj h
        exact ⟨hsame, hrest⟩

theorem flatMap_escaped_injective {text text' : List Char}
    (h : text.flatMap escaped = text'.flatMap escaped) : text = text' := by
  have hne : ∀ (c : Char) (rest : List Char), escaped c ++ rest ≠ [] := by
    intro c rest
    unfold escaped
    split_ifs <;> simp
  induction text generalizing text' with
  | nil =>
      cases text' with
      | nil => rfl
      | cons d text' => exact absurd h.symm (hne d _)
  | cons c text ih =>
      cases text' with
      | nil => exact absurd h (hne c _)
      | cons d text' =>
          rw [List.flatMap_cons, List.flatMap_cons] at h
          obtain ⟨rfl, hrest⟩ := escaped_cancel h
          rw [ih hrest]

theorem separator_not_mem_escaped (text : List Char) : ':' ∉ text.flatMap escaped := by
  intro hmem
  obtain ⟨c, -, hc⟩ := List.mem_flatMap.mp hmem
  unfold escaped at hc
  split_ifs at hc with hpercent hcolon
  · exact absurd hc (by decide)
  · exact absurd hc (by decide)
  · exact hcolon (List.mem_singleton.mp hc).symm

/-- What a segment is made of. -/
theorem normalizeSegment_eq_ok {value segment : String}
    (h : normalizeSegment value = .ok segment) :
    segment.toList = (trim value).toList.flatMap escaped := by
  unfold normalizeSegment at h
  split at h
  · cases h
  · injection h with h
    rw [← h, String.toList_ofList, replaced_eq_escaped]

end Escapes

/-! ## Conversations -/

/-- The peer or the room that a route names; a room hides a peer. -/
def SessionRouteInput.conversation (input : SessionRouteInput) : String :=
  trim ((given input.room).getD (input.peer.getD ""))

def SessionRouteInput.thread (input : SessionRouteInput) : Option String :=
  (given input.threadId).map trim

/-- The routes lead to the same account of a channel, to a peer or a room of the same
name, and to the same thread if to any. -/
def SameAddress (input input' : SessionRouteInput) : Prop :=
  trim input.channel = trim input'.channel ∧ trim input.account = trim input'.account ∧
    input.conversation = input'.conversation ∧ input.thread = input'.thread

/-- The routes are of the same kind and name the same fields of that kind. -/
def SameRoute (kind kind' : SessionKind) (input input' : SessionRouteInput) : Prop :=
  kind = kind' ∧ trim input.channel = trim input'.channel ∧
    trim input.account = trim input'.account ∧
    match kind with
    | .dm => input.peer.map trim = input'.peer.map trim
    | .group => input.room.map trim = input'.room.map trim
    | .thread => input.room.map trim = input'.room.map trim ∧
        input.threadId.map trim = input'.threadId.map trim

section Keys

variable {sha256 : String → String} {input : SessionRouteInput} {result : SessionRouteResolution}

/-- The texts that the segments of a route are made of. -/
def SessionRouteInput.values (input : SessionRouteInput) : List String :=
  trim input.channel :: trim input.account :: input.conversation :: input.thread.toList

/-- The segments of a route, as texts. -/
theorem toList_resolution {kind : SessionKind} {segments values : List String}
    (h : List.Forall₂ (fun (segment value : String) =>
      segment.toList = value.toList.flatMap escaped) segments values) :
    (resolution sha256 kind segments).sessionKey.toList =
      [':'].intercalate (values.map fun value => value.toList.flatMap escaped) := by
  have hmap : segments.map String.toList =
      values.map fun value => value.toList.flatMap escaped := by
    induction h with
    | nil => rfl
    | cons hsegment _ ih => rw [List.map_cons, List.map_cons, hsegment, ih]
  rw [resolution, String.toList_ofList, hmap]

theorem given_eq_some {value : Option String} {text : String} (h : given value = some text) :
    value = some text := by
  unfold given at h
  exact (Option.filter_eq_some_iff.mp h).1

/-- How a route is resolved: the fields that are used, and their segments. -/
inductive Resolves (sha256 : String → String) (input : SessionRouteInput)
    (channel account : String) : SessionRouteResolution → Prop
  | dm {peer segment : String} (hthread : given input.threadId = none)
      (hroom : given input.room = none) (hpeer : given input.peer = some peer)
      (hsegment : normalizeSegment peer = .ok segment) :
      Resolves sha256 input channel account (resolution sha256 .dm [channel, account, segment])
  | group {room segment : String} (hthread : given input.threadId = none)
      (hroom : given input.room = some room) (hsegment : normalizeSegment room = .ok segment) :
      Resolves sha256 input channel account
        (resolution sha256 .group [channel, account, segment])
  | thread {threadId room segment last : String} (hthread : given input.threadId = some threadId)
      (hroom : given input.room = some room) (hsegment : normalizeSegment room = .ok segment)
      (hlast : normalizeSegment threadId = .ok last) :
      Resolves sha256 input channel account
        (resolution sha256 .thread [channel, account, segment, last])

theorem resolves_of_eq_ok (h : resolveSessionRoute sha256 input = .ok result) :
    ∃ channel account, normalizeSegment input.channel = .ok channel ∧
      normalizeSegment input.account = .ok account ∧
        Resolves sha256 input channel account result := by
  unfold resolveSessionRoute at h
  obtain ⟨-, h⟩ := guard_eq_ok.mp h
  obtain ⟨channel, hchannel, h⟩ := bind_eq_ok.mp h
  obtain ⟨account, haccount, h⟩ := bind_eq_ok.mp h
  refine ⟨channel, account, hchannel, haccount, ?_⟩
  cases hthread : given input.threadId with
  | none =>
      cases hroom : given input.room with
      | none =>
          cases hpeer : given input.peer with
          | none =>
              rw [hthread, hroom, hpeer] at h
              cases h
          | some peer =>
              rw [hthread, hroom, hpeer] at h
              obtain ⟨segment, hsegment, h⟩ := bind_eq_ok.mp h
              obtain rfl := Except.ok.inj h
              exact .dm hthread hroom hpeer hsegment
      | some room =>
          rw [hthread, hroom] at h
          obtain ⟨segment, hsegment, h⟩ := bind_eq_ok.mp h
          obtain rfl := Except.ok.inj h
          exact .group hthread hroom hsegment
  | some threadId =>
      cases hroom : given input.room with
      | none =>
          rw [hthread, hroom] at h
          cases h
      | some room =>
          rw [hthread, hroom] at h
          obtain ⟨segment, hsegment, h⟩ := bind_eq_ok.mp h
          obtain ⟨last, hlast, h⟩ := bind_eq_ok.mp h
          obtain rfl := Except.ok.inj h
          exact .thread hthread hroom hsegment hlast

/-- A key is made of the escaped texts of its route, and a route of a kind has the fields
of that kind. -/
theorem resolveSessionRoute_eq_ok (h : resolveSessionRoute sha256 input = .ok result) :
    result.sessionKey.toList =
      [':'].intercalate (input.values.map fun value => value.toList.flatMap escaped) ∧
    match result.kind with
    | .dm => input.thread = none ∧ input.peer.map trim = some input.conversation
    | .group => input.thread = none ∧ input.room.map trim = some input.conversation
    | .thread => input.threadId.map trim = input.thread ∧ input.thread.isSome = true ∧
        input.room.map trim = some input.conversation := by
  obtain ⟨channel, account, hchannel, haccount, hresolves⟩ := resolves_of_eq_ok h
  have hchannel := normalizeSegment_eq_ok hchannel
  have haccount := normalizeSegment_eq_ok haccount
  cases hresolves with
  | @dm peer segment hthread hroom hpeer hsegment =>
      have hnone : input.thread = none := by
        rw [SessionRouteInput.thread, hthread]
        rfl
      have hsegment := normalizeSegment_eq_ok hsegment
      have hconversation : input.conversation = trim peer := by
        rw [SessionRouteInput.conversation, hroom, given_eq_some hpeer]
        rfl
      constructor
      · apply toList_resolution
        rw [SessionRouteInput.values, hconversation, hnone]
        exact .cons hchannel (.cons haccount (.cons hsegment .nil))
      · refine ⟨hnone, ?_⟩
        rw [given_eq_some hpeer, hconversation]
        rfl
  | @group room segment hthread hroom hsegment =>
      have hnone : input.thread = none := by
        rw [SessionRouteInput.thread, hthread]
        rfl
      have hsegment := normalizeSegment_eq_ok hsegment
      have hconversation : input.conversation = trim room := by
        rw [SessionRouteInput.conversation, hroom]
        rfl
      constructor
      · apply toList_resolution
        rw [SessionRouteInput.values, hconversation, hnone]
        exact .cons hchannel (.cons haccount (.cons hsegment .nil))
      · refine ⟨hnone, ?_⟩
        rw [given_eq_some hroom, hconversation]
        rfl
  | @thread threadId room segment last hthread hroom hsegment hlast =>
      have hsome : input.thread = some (trim threadId) := by
        rw [SessionRouteInput.thread, hthread]
        rfl
      have hsegment := normalizeSegment_eq_ok hsegment
      have hlast := normalizeSegment_eq_ok hlast
      have hconversation : input.conversation = trim room := by
        rw [SessionRouteInput.conversation, hroom]
        rfl
      constructor
      · apply toList_resolution
        rw [SessionRouteInput.values, hconversation, hsome]
        exact .cons hchannel (.cons haccount (.cons hsegment (.cons hlast .nil)))
      · refine ⟨?_, ?_, ?_⟩
        · rw [given_eq_some hthread, hsome]
          rfl
        · rw [hsome]
          rfl
        · rw [given_eq_some hroom, hconversation]
          rfl

/-- The texts of two routes are the same exactly when the routes have the same address. -/
theorem values_eq_iff {input' : SessionRouteInput} :
    input.values = input'.values ↔ SameAddress input input' := by
  unfold SessionRouteInput.values SameAddress
  rw [List.cons.injEq, List.cons.injEq, List.cons.injEq]
  constructor
  · rintro ⟨hchannel, haccount, hconversation, hthread⟩
    refine ⟨hchannel, haccount, hconversation, ?_⟩
    cases hleft : input.thread <;> cases hright : input'.thread <;>
      rw [hleft, hright] at hthread <;> simp_all
  · rintro ⟨hchannel, haccount, hconversation, hthread⟩
    exact ⟨hchannel, haccount, hconversation, by rw [hthread]⟩

theorem sessionKey_eq_iff {input' : SessionRouteInput} {result' : SessionRouteResolution}
    (h : resolveSessionRoute sha256 input = .ok result)
    (h' : resolveSessionRoute sha256 input' = .ok result') :
    result.sessionKey = result'.sessionKey ↔ SameAddress input input' := by
  have hkey := (resolveSessionRoute_eq_ok h).1
  have hkey' := (resolveSessionRoute_eq_ok h').1
  rw [← values_eq_iff, ← String.toList_inj, hkey, hkey']
  have hfree : ∀ values : List String,
      ∀ part ∈ values.map fun value => value.toList.flatMap escaped, ':' ∉ part := by
    intro values part hpart
    obtain ⟨value, -, rfl⟩ := List.mem_map.mp hpart
    exact separator_not_mem_escaped value.toList
  constructor
  · intro hsame
    have hne : ∀ route : SessionRouteInput,
        (route.values.map fun value => value.toList.flatMap escaped) ≠ [] :=
      fun route => List.cons_ne_nil _ _
    have hparts := intercalate_injective (hne input) (hne input') (hfree _) (hfree _) hsame
    refine List.map_injective_iff.mpr ?_ hparts
    intro value value' hvalue
    exact String.toList_inj.mp (flatMap_escaped_injective hvalue)
  · intro hsame
    rw [hsame]

/-- Session keys are the same exactly for routes with the same address.  For routes of one
kind that is to say that they name the same fields of that kind; a peer and a room with
the same text have the same key. -/
theorem sessionKeys_identify_addresses {input input' : SessionRouteInput}
    {result result' : SessionRouteResolution}
    (h : resolveSessionRoute sha256 input = .ok result)
    (h' : resolveSessionRoute sha256 input' = .ok result') :
    (result.sessionKey = result'.sessionKey ↔ SameAddress input input') ∧
    (result.kind = result'.kind →
      (result.sessionKey = result'.sessionKey ↔
        SameRoute result.kind result'.kind input input')) := by
  have hkeys := sessionKey_eq_iff h h'
  refine ⟨hkeys, fun hkind => hkeys.trans ?_⟩
  have hfields := (resolveSessionRoute_eq_ok h).2
  have hfields' := (resolveSessionRoute_eq_ok h').2
  unfold SameAddress SameRoute
  rw [← hkind] at hfields'
  cases hresult : result.kind with
  | dm =>
      rw [hresult] at hfields hfields'
      obtain ⟨hthread, hpeer⟩ := hfields
      obtain ⟨hthread', hpeer'⟩ := hfields'
      simp only [hthread, hthread', hpeer, hpeer', Option.some.injEq, and_true,
        ← hkind, hresult, true_and]
  | group =>
      rw [hresult] at hfields hfields'
      obtain ⟨hthread, hroom⟩ := hfields
      obtain ⟨hthread', hroom'⟩ := hfields'
      simp only [hthread, hthread', hroom, hroom', Option.some.injEq, and_true,
        ← hkind, hresult, true_and]
  | thread =>
      rw [hresult] at hfields hfields'
      obtain ⟨hthread, -, hroom⟩ := hfields
      obtain ⟨hthread', -, hroom'⟩ := hfields'
      simp only [hthread, hthread', hroom, hroom', Option.some.injEq, ← hkind, hresult,
        true_and]

end Keys

/-- A thread of a room and a room whose name has the separator in it, under the digests of
their keys. -/
theorem threadKey_ne_roomKey :
    let sha256 : String → String := fun key =>
      if key = "slack%3Aprod:me:eng:12" then
        "4baa0b9c6c94384b028d96c02f859d490c9ed5f81102003bdd1f5c8656b3d55c"
      else "ed2da5f1a97ad2961f05c79e38bbfd3417e5024b8ead7f7f74bc8e270057a038"
    let thread : SessionRouteInput := ⟨"slack:prod", " me ", none, some "eng", some "12"⟩
    let room : SessionRouteInput := ⟨"slack:prod", "me", none, some "eng:12", none⟩
    ∃ result result', resolveSessionRoute sha256 thread = .ok result ∧
      resolveSessionRoute sha256 room = .ok result' ∧
      (result.sessionKey = result'.sessionKey ↔ SameAddress thread room) := by
  intro sha256 thread room
  have hthread : resolveSessionRoute sha256 thread =
      .ok ⟨.thread, "slack%3Aprod:me:eng:12", "sess_4baa0b9c6c94384b028d96c0"⟩ := by
    decide +kernel
  have hroom : resolveSessionRoute sha256 room =
      .ok ⟨.group, "slack%3Aprod:me:eng%3A12", "sess_ed2da5f1a97ad2961f05c79e"⟩ := by
    decide +kernel
  exact ⟨_, _, hthread, hroom, (sessionKeys_identify_addresses hthread hroom).1⟩

/-- A direct message with a peer and a group of the same name have the same key. -/
theorem peerKey_eq_roomKey :
    ¬∀ (sha256 : String → String) (input input' : SessionRouteInput)
      (result result' : SessionRouteResolution),
      resolveSessionRoute sha256 input = .ok result →
      resolveSessionRoute sha256 input' = .ok result' →
        (result.sessionKey = result'.sessionKey ↔
          SameRoute result.kind result'.kind input input') := by
  intro h
  have hkeys := h (fun _ => "3960d51c3226dde6b14d3eb16b261e1c5596998bc832bc0b57be17ca380f94e4")
    ⟨"telegram", "me", some "alice", none, none⟩ ⟨"telegram", "me", none, some "alice", none⟩
    ⟨.dm, "telegram:me:alice", "sess_3960d51c3226dde6b14d3eb1"⟩
    ⟨.group, "telegram:me:alice", "sess_3960d51c3226dde6b14d3eb1"⟩
    (by decide +kernel) (by decide +kernel)
  exact absurd (hkeys.mp rfl).1 (by decide)

end GoatCitadel.Gateway
