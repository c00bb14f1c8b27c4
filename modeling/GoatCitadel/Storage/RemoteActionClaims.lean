import GoatCitadel.Storage.RemoteActionTokens
import GoatCitadel.Support.Table

/-!
# A token is claimed for one request

Every step that takes a token out of its pending state finds it there, so that one
of them does.  When it is the update of a claim, the fingerprint of that claim stays
in the stored mutation, and only callers with this fingerprint are told to resume;
the caller itself is told that it has claimed the token, once.
-/

namespace GoatCitadel.Storage.RemoteActionTokens

open GoatCitadel.Support
open GoatCitadel.Policy (JsonObject JsonValue)

/-! ## Mutations -/

section Mutations

variable {key : String} {fields : JsonObject} {value : JsonValue}

theorem removeMember_map :
    removeMember key
        (fields.map fun member => if member.1 = key then (key, value) else member) =
      removeMember key fields := by
  unfold removeMember
  induction fields with
  | nil => rfl
  | cons member fields ih =>
      rw [List.map_cons, List.filter_cons, List.filter_cons, ih]
      by_cases hkey : member.1 = key
      · simp [hkey]
      · simp [hkey]

theorem removeMember_setMember :
    removeMember key (setMember key value fields) = removeMember key fields := by
  unfold setMember
  split
  · exact removeMember_map
  · simp [removeMember]

theorem find?_map_member (hany : fields.any (fun member => member.1 = key) = true) :
    (fields.map fun member => if member.1 = key then (key, value) else member).find?
      (fun member => member.1 = key) = some (key, value) := by
  induction fields with
  | nil => cases hany
  | cons member fields ih =>
      rw [List.map_cons, List.find?_cons]
      by_cases hkey : member.1 = key
      · simp [hkey]
      · rw [List.any_cons] at hany
        simp only [hkey, decide_false, Bool.false_or] at hany
        simpa [hkey] using ih hany

theorem find?_setMember :
    (setMember key value fields).find? (fun member => member.1 = key) = some (key, value) := by
  unfold setMember
  split
  · rename_i hany
    exact find?_map_member hany
  · rename_i hany
    have hnone : fields.find? (fun member => member.1 = key) = none := by
      rw [List.find?_eq_none]
      intro member hmem hkey
      exact hany (List.any_eq_true.mpr ⟨member, hmem, hkey⟩)
    rw [List.find?_append, hnone]
    simp

theorem readClaimFingerprint_claimedMutation {claimFingerprint : String}
    {mutation : JsonObject} (htrim : trim claimFingerprint = claimFingerprint)
    (hset : claimFingerprint ≠ "") :
    readClaimFingerprint (claimedMutation claimFingerprint mutation) =
      some claimFingerprint := by
  simp only [readClaimFingerprint, claimedMutation, find?_setMember, htrim, hset, if_false]

theorem readClaimFingerprint_of_removed {mutation : JsonObject}
    (h : removeMember claimFingerprintKey mutation = mutation) :
    readClaimFingerprint mutation = none := by
  have hnone : mutation.find? (fun member => member.1 = claimFingerprintKey) = none := by
    rw [← h]
    simp [removeMember, List.find?_eq_none]
  simp only [readClaimFingerprint, hnone]

theorem removeMember_removeMember :
    removeMember key (removeMember key fields) = removeMember key fields := by
  simp [removeMember]

end Mutations

/-! ## What events tell -/

/-- The update of a claim with this fingerprint takes the token. -/
def TokenEvent.Wins (tokenId claimFingerprint : String) : TokenEvent → Prop
  | .claimUpdate _ id f _ true => id = tokenId ∧ f = claimFingerprint
  | _ => False

/-- A claim with this fingerprint is answered `claimed`. -/
def TokenEvent.AnswersClaimed (tokenId claimFingerprint : String) : TokenEvent → Prop
  | .claimAnswer _ id f (some .claimed) => id = tokenId ∧ f = claimFingerprint
  | _ => False

/-- A claim whose trimmed fingerprint is this one is answered `resumed`. -/
def TokenEvent.AnswersResumed (tokenId claimFingerprint : String) : TokenEvent → Prop
  | .claimRead _ id _ given (some .resumed) => id = tokenId ∧ trim given = claimFingerprint
  | .claimAnswer _ id f (some .resumed) => id = tokenId ∧ f = claimFingerprint
  | _ => False

/-- The token is consumed without a claim, or expires. -/
def TokenEvent.Settles (tokenId : String) : TokenEvent → Prop
  | .consumePending id _ _ changed => id = tokenId ∧ changed = true
  | .expirePending id changed => id = tokenId ∧ changed = true
  | .expirePendingIfExpired id _ changed => id = tokenId ∧ changed = true
  | .expirePendingByApprovalId _ changed => changed tokenId = true
  | .boundaryUpdate _ id changed => id = tokenId ∧ changed = true
  | _ => False

/-- The event answers a claim of the token with `claimed`. -/
def TokenEvent.answersClaimed (tokenId : String) : TokenEvent → Bool
  | .claimAnswer _ id _ (some .claimed) => id = tokenId
  | _ => false

/-- The event creates the token. -/
def TokenEvent.Creates (tokenId : String) (input : CreateInput) : TokenEvent → Prop
  | .create given => given = input ∧ given.tokenId = tokenId
  | _ => False

section Effects

variable {times : TimeTexts} {system system' : TokenSystem} {event : TokenEvent}
  {tokenId : String} {answer : Option RemoteActionTokenClaimOutcome}

theorem answersClaimed_iff :
    event.answersClaimed tokenId = true ↔ ∃ f, event.AnswersClaimed tokenId f := by
  unfold TokenEvent.answersClaimed TokenEvent.AnswersClaimed
  split
  · simp
  · simp

/-- What a step of the callers leaves of where they are in calls about a token. -/
structure CallersKept (tokenId : String) (system system' : TokenSystem) : Prop where
  won : ∀ caller f, system'.callers caller = .won tokenId f →
    system.callers caller = .won tokenId f
  claiming : ∀ caller consumedBy f mutation,
    system'.callers caller = .claiming tokenId consumedBy f mutation →
      system.callers caller = .claiming tokenId consumedBy f mutation ∨
        (trim f = f ∧ f ≠ "" ∧ ∃ row, system.tokens tokenId = some row ∧
          mutation = row.mutation)

/-- The event neither claims nor creates the token, and answers no claim of it. -/
structure TokenEvent.Quiet (tokenId : String) (event : TokenEvent) : Prop where
  wins : ∀ f, ¬event.Wins tokenId f
  creates : ∀ input, ¬event.Creates tokenId input
  resumed : ∀ f, ¬event.AnswersResumed tokenId f
  claimed : ∀ f, ¬event.AnswersClaimed tokenId f

/-- What a step does to a token. -/
inductive Effect (tokenId : String) (system : TokenSystem) (event : TokenEvent)
    (system' : TokenSystem) : Prop
  | keep : system'.tokens tokenId = system.tokens tokenId →
      CallersKept tokenId system system' →
      (∀ f, ¬event.Wins tokenId f) → ¬event.Settles tokenId →
      (∀ input, ¬event.Creates tokenId input) →
      (∀ f, event.AnswersResumed tokenId f → ∃ row, system.tokens tokenId = some row ∧
        row.state = .consumed ∧ readClaimFingerprint row.mutation = some f) →
      (∀ f, event.AnswersClaimed tokenId f → ∃ caller, system.callers caller = .won tokenId f ∧
        ∀ g, system'.callers caller ≠ .won tokenId g) →
      Effect tokenId system event system'
  | created {input : CreateInput} : system.tokens tokenId = none →
      system'.tokens tokenId = some (createdRow input) → system'.callers = system.callers →
      event = .create input → input.tokenId = tokenId → Effect tokenId system event system'
  | won {caller : Nat} {consumedBy f : String} {mutation : JsonObject} {clock : DatabaseClock}
      {row : RemoteActionToken} :
      system.callers caller = .claiming tokenId consumedBy f mutation →
      system.tokens tokenId = some row → row.state = .pending →
      system'.tokens tokenId = some { row with
        state := .consumed
        consumedAt := some clock.text
        consumedBy := some consumedBy
        mutation := claimedMutation f mutation } →
      system'.callers = setCaller caller (.won tokenId f) system.callers →
      event = .claimUpdate caller tokenId f clock true → Effect tokenId system event system'
  | settled {row row' : RemoteActionToken} : system.tokens tokenId = some row →
      row.state = .pending → system'.tokens tokenId = some row' → row'.state ≠ .pending →
      row'.mutation = row.mutation → CallersKept tokenId system system' →
      event.Settles tokenId → event.Quiet tokenId → Effect tokenId system event system'

theorem callersKept_same (h : system'.callers = system.callers) :
    CallersKept tokenId system system' where
  won := by
    intro caller f hwon
    rw [← h]
    exact hwon
  claiming := by
    intro caller consumedBy f mutation hclaiming
    rw [h] at hclaiming
    exact .inl hclaiming

/-- A caller that goes on to no update of the token, and has not won it, leaves the
others where they are. -/
theorem callersKept_setCaller {caller : Nat} {next : CallerState}
    (h : system'.callers = setCaller caller next system.callers)
    (hwon : ∀ f, next ≠ .won tokenId f)
    (hclaiming : ∀ consumedBy f mutation, next = .claiming tokenId consumedBy f mutation →
      trim f = f ∧ f ≠ "" ∧ ∃ row, system.tokens tokenId = some row ∧ mutation = row.mutation) :
    CallersKept tokenId system system' where
  won := by
    intro other f hother
    rw [h] at hother
    unfold setCaller at hother
    split at hother
    · exact absurd hother (hwon f)
    · exact hother
  claiming := by
    intro other consumedBy f mutation hother
    rw [h] at hother
    unfold setCaller at hother
    split at hother
    · exact .inr (hclaiming consumedBy f mutation hother)
    · exact .inl hother

theorem updatePending_cases {id : String} {guard : RemoteActionToken → Bool}
    {set : RemoteActionToken → RemoteActionToken} {tokens tokens' : TokenTable}
    {changed : Bool} (h : updatePending id guard set tokens = (changed, tokens')) :
    (changed = false ∧ tokens' = tokens) ∨
      ∃ row, tokens id = some row ∧ row.state = .pending ∧ changed = true ∧
        tokens' = fun other => if other = id then some (set row) else tokens other := by
  unfold updatePending at h
  split at h
  · rename_i row hrow
    split at h
    · rename_i hpending
      obtain ⟨rfl, rfl⟩ := Prod.mk.inj h
      exact .inr ⟨row, hrow, hpending.1, rfl, rfl⟩
    · obtain ⟨rfl, rfl⟩ := Prod.mk.inj h
      exact .inl ⟨rfl, rfl⟩
  · obtain ⟨rfl, rfl⟩ := Prod.mk.inj h
    exact .inl ⟨rfl, rfl⟩

/-- The effect of a quiet event that does not settle the token either. -/
theorem effect_of_quiet (hrow : system'.tokens tokenId = system.tokens tokenId)
    (hcallers : CallersKept tokenId system system') (hsettles : ¬event.Settles tokenId)
    (hquiet : event.Quiet tokenId) : Effect tokenId system event system' :=
  .keep hrow hcallers hquiet.wins hsettles hquiet.creates
    (fun f h => absurd h (hquiet.resumed f)) fun f h => absurd h (hquiet.claimed f)

/-- The effect of an update that consumes or expires a pending token. -/
theorem effect_of_update {target : String} {guard : RemoteActionToken → Bool}
    {set : RemoteActionToken → RemoteActionToken} {changed : Bool}
    (hset : ∀ row, (set row).state ≠ .pending ∧ (set row).mutation = row.mutation)
    (hupdate : updatePending target guard set system.tokens = (changed, system'.tokens))
    (hcallers : CallersKept tokenId system system')
    (hsettles : event.Settles tokenId ↔ target = tokenId ∧ changed = true)
    (hquiet : event.Quiet tokenId) : Effect tokenId system event system' := by
  obtain ⟨rfl, hsame⟩ | ⟨row, hrow, hpending, rfl, htokens⟩ := updatePending_cases hupdate
  · refine effect_of_quiet (congrFun hsame tokenId) hcallers ?_ hquiet
    rw [hsettles]
    rintro ⟨-, hfalse⟩
    cases hfalse
  · by_cases htarget : target = tokenId
    · subst htarget
      have hrow' : system'.tokens target = some (set row) := by rw [htokens]; simp
      exact .settled hrow hpending hrow' (hset row).1 (hset row).2 hcallers
        (hsettles.mpr ⟨rfl, rfl⟩) hquiet
    · have hkept : system'.tokens tokenId = system.tokens tokenId := by
        rw [htokens]
        exact if_neg fun heq => htarget heq.symm
      refine effect_of_quiet hkept hcallers ?_ hquiet
      rw [hsettles]
      rintro ⟨heq, -⟩
      exact htarget heq

theorem expiredRow_spec (row : RemoteActionToken) :
    (expiredRow row).state ≠ .pending ∧ (expiredRow row).mutation = row.mutation :=
  ⟨fun heq => (by cases heq), rfl⟩

theorem resumed_of_classify {row : RemoteActionToken} {f : String}
    (h : classifyExistingClaim row f = some .resumed) :
    row.state = .consumed ∧ readClaimFingerprint row.mutation = some f := by
  unfold classifyExistingClaim at h
  split at h
  · cases h
  · cases h
  · rename_i hstate
    split at h
    · rename_i hread
      exact ⟨hstate, hread⟩
    · cases h

theorem classify_ne_claimed (row : RemoteActionToken) (f : String) :
    (classifyExistingClaim row f).getD .unavailable ≠ .claimed := by
  unfold classifyExistingClaim
  split
  · intro heq
    cases heq
  · intro heq
    cases heq
  · split
    · intro heq
      cases heq
    · intro heq
      cases heq

theorem answer_of_resumed {caller : Nat} {target f g : String}
    (h : (TokenEvent.claimAnswer caller target f answer).AnswersResumed tokenId g) :
    answer = some .resumed ∧ target = tokenId ∧ f = g := by
  unfold TokenEvent.AnswersResumed at h
  split at h
  · rename_i heq
    cases heq
  · rename_i heq
    obtain ⟨rfl, rfl, rfl, rfl⟩ := TokenEvent.claimAnswer.inj heq
    exact ⟨rfl, h⟩
  · cases h

theorem answer_of_claimed {caller : Nat} {target f g : String}
    (h : (TokenEvent.claimAnswer caller target f answer).AnswersClaimed tokenId g) :
    answer = some .claimed ∧ target = tokenId ∧ f = g := by
  unfold TokenEvent.AnswersClaimed at h
  split at h
  · rename_i heq
    obtain ⟨rfl, rfl, rfl, rfl⟩ := TokenEvent.claimAnswer.inj heq
    exact ⟨rfl, h⟩
  · cases h

/-- What the first step of a claim answers, it has read. -/
theorem readForClaim_cases {target consumedBy given : String} {tokens : TokenTable}
    {next : CallerState} (h : readForClaim target consumedBy given tokens = (answer, next)) :
    (next = .idle ∧ (answer = some .resumed → ∃ row, tokens target = some row ∧
        row.state = .consumed ∧ readClaimFingerprint row.mutation = some (trim given))) ∨
      (answer = none ∧ trim given ≠ "" ∧ ∃ row, tokens target = some row ∧
        next = .claiming target consumedBy (trim given) row.mutation) := by
  unfold readForClaim at h
  split at h
  · obtain ⟨rfl, rfl⟩ := Prod.mk.inj h
    exact .inl ⟨rfl, fun heq => by cases heq⟩
  · rename_i hset
    split at h
    · obtain ⟨rfl, rfl⟩ := Prod.mk.inj h
      exact .inl ⟨rfl, fun heq => by cases heq⟩
    · rename_i row hrow
      split at h
      · rename_i outcome houtcome
        obtain ⟨rfl, rfl⟩ := Prod.mk.inj h
        refine .inl ⟨rfl, ?_⟩
        intro heq
        rw [heq] at houtcome
        exact ⟨row, hrow, resumed_of_classify houtcome⟩
      · obtain ⟨rfl, rfl⟩ := Prod.mk.inj h
        exact .inr ⟨rfl, hset, row, hrow, rfl⟩

/-- A caller that comes to be in no claim of the token leaves the others where they are. -/
theorem callersKept_elsewhere {caller : Nat} {next : CallerState}
    (h : system'.callers = setCaller caller next system.callers)
    (hwon : ∀ f, next ≠ .won tokenId f)
    (hclaiming : ∀ consumedBy f mutation, next ≠ .claiming tokenId consumedBy f mutation) :
    CallersKept tokenId system system' :=
  callersKept_setCaller h hwon fun consumedBy f mutation heq =>
    absurd heq (hclaiming consumedBy f mutation)

theorem create_effect {input : CreateInput}
    (h : TokenSystem.Step times system (.create input) system') :
    Effect tokenId system (.create input) system' := by
  obtain ⟨tokens, hcreate, rfl⟩ := h
  unfold create at hcreate
  split at hcreate
  · cases hcreate
  · split at hcreate
    · cases hcreate
    · rename_i hnone
      obtain rfl := Option.some.inj hcreate
      by_cases htarget : input.tokenId = tokenId
      · subst htarget
        exact .created hnone (if_pos rfl) rfl rfl rfl
      · refine effect_of_quiet (if_neg fun heq => htarget heq.symm) (callersKept_same rfl)
          id ⟨fun _ => id, ?_, fun _ => id, fun _ => id⟩
        rintro other ⟨-, heq⟩
        exact htarget heq

theorem claimRead_effect {caller : Nat} {target consumedBy given : String}
    (h : TokenSystem.Step times system (.claimRead caller target consumedBy given answer)
      system') :
    Effect tokenId system (.claimRead caller target consumedBy given answer) system' := by
  obtain ⟨-, next, hread, rfl⟩ := h
  have hcallers : CallersKept tokenId system
      { system with callers := setCaller caller next system.callers } := by
    refine callersKept_setCaller rfl ?_ ?_
    · rintro f rfl
      obtain ⟨hidle, -⟩ | ⟨-, -, row, -, hclaiming⟩ := readForClaim_cases hread
      · cases hidle
      · cases hclaiming
    · rintro by' f mutation rfl
      obtain ⟨hidle, -⟩ | ⟨-, hset, row, hrow, hclaiming⟩ := readForClaim_cases hread
      · cases hidle
      · obtain ⟨rfl, rfl, rfl, rfl⟩ := CallerState.claiming.inj hclaiming
        exact ⟨trim_trim given, hset, row, hrow, rfl⟩
  refine .keep rfl hcallers (fun _ => id) id (fun _ => id) ?_ fun _ => False.elim
  intro f hresumed
  obtain ⟨-, hanswer⟩ | ⟨rfl, -⟩ := readForClaim_cases hread
  · unfold TokenEvent.AnswersResumed at hresumed
    split at hresumed
    · rename_i heq
      obtain ⟨rfl, rfl, rfl, rfl, rfl⟩ := TokenEvent.claimRead.inj heq
      obtain ⟨rfl, rfl⟩ := hresumed
      exact hanswer rfl
    · rename_i heq
      cases heq
    · cases hresumed
  · cases hresumed

theorem claimUpdate_effect {caller : Nat} {target f : String} {clock : DatabaseClock}
    {changed : Bool}
    (h : TokenSystem.Step times system (.claimUpdate caller target f clock changed) system') :
    Effect tokenId system (.claimUpdate caller target f clock changed) system' := by
  obtain ⟨consumedBy, mutation, tokens, hclaiming, hupdate, rfl⟩ := h
  obtain ⟨rfl, rfl⟩ | ⟨row, hrow, hpending, rfl, rfl⟩ := updatePending_cases hupdate
  · exact effect_of_quiet rfl (callersKept_elsewhere rfl nofun nofun) id
      ⟨fun _ => id, fun _ => id, fun _ => id, fun _ => id⟩
  · by_cases htarget : target = tokenId
    · subst htarget
      exact .won hclaiming hrow hpending (if_pos rfl) rfl rfl
    · refine effect_of_quiet (if_neg fun heq => htarget heq.symm)
        (callersKept_elsewhere rfl ?_ nofun) id ⟨?_, fun _ => id, fun _ => id, fun _ => id⟩
      · intro g heq
        obtain ⟨heq, -⟩ := CallerState.won.inj heq
        exact htarget heq
      · rintro g ⟨heq, -⟩
        exact htarget heq

theorem claimAnswer_effect {caller : Nat} {target f : String}
    (h : TokenSystem.Step times system (.claimAnswer caller target f answer) system') :
    Effect tokenId system (.claimAnswer caller target f answer) system' := by
  obtain ⟨hanswer, rfl⟩ := h
  refine .keep rfl (callersKept_elsewhere rfl nofun nofun) (fun _ => id) id (fun _ => id) ?_ ?_
  · intro g hresumed
    obtain ⟨rfl, rfl, rfl⟩ := answer_of_resumed hresumed
    obtain ⟨-, hanswer⟩ | ⟨-, hanswer⟩ := hanswer
    · obtain ⟨row, -, hclaimed⟩ := Option.map_eq_some_iff.mp hanswer.symm
      cases hclaimed
    · obtain ⟨row, hrow, hresumed⟩ := Option.map_eq_some_iff.mp hanswer.symm
      refine ⟨row, hrow, resumed_of_classify ?_⟩
      cases hclassified : classifyExistingClaim row f with
      | none =>
          rw [hclassified] at hresumed
          cases hresumed
      | some outcome =>
          rw [hclassified] at hresumed
          exact congrArg some hresumed
  · intro g hclaimed
    obtain ⟨rfl, rfl, rfl⟩ := answer_of_claimed hclaimed
    obtain ⟨hwon, -⟩ | ⟨-, hanswer⟩ := hanswer
    · refine ⟨caller, hwon, ?_⟩
      intro g heq
      simp only [setCaller, if_true] at heq
      cases heq
    · obtain ⟨row, -, hclaimed⟩ := Option.map_eq_some_iff.mp hanswer.symm
      exact absurd hclaimed (classify_ne_claimed row f)

theorem expirePendingByApprovalId_effect {approvalId : String} {changed : String → Bool}
    (h : TokenSystem.Step times system (.expirePendingByApprovalId approvalId changed) system') :
    Effect tokenId system (.expirePendingByApprovalId approvalId changed) system' := by
  obtain ⟨-, hchanged, rfl⟩ := h
  cases hrow : system.tokens tokenId with
  | none =>
      refine effect_of_quiet ?_ (callersKept_same rfl) ?_
        ⟨fun _ => id, fun _ => id, fun _ => id, fun _ => id⟩
      · simp only [expirePendingByApprovalStmt, hrow, Option.map_none]
      · intro hsettles
        have hfalse := (hchanged tokenId).symm.trans hsettles
        rw [hrow] at hfalse
        cases hfalse
  | some row =>
      cases hpending : pendingFor (trim approvalId) row with
      | true =>
          have hstate : row.state = .pending := by
            simp only [pendingFor, Bool.and_eq_true, decide_eq_true_eq] at hpending
            exact hpending.2
          refine .settled hrow hstate ?_ (expiredRow_spec row).1 (expiredRow_spec row).2
            (callersKept_same rfl) ?_ ⟨fun _ => id, fun _ => id, fun _ => id, fun _ => id⟩
          · simp only [expirePendingByApprovalStmt, hrow, Option.map_some, hpending, if_true]
          · refine (hchanged tokenId).trans ?_
            rw [hrow]
            exact hpending
      | false =>
          refine effect_of_quiet ?_ (callersKept_same rfl) ?_
            ⟨fun _ => id, fun _ => id, fun _ => id, fun _ => id⟩
          · simp [expirePendingByApprovalStmt, hrow, hpending]
          · intro hsettles
            have hfalse := (hchanged tokenId).symm.trans hsettles
            rw [hrow] at hfalse
            exact Bool.false_ne_true (hpending.symm.trans hfalse)

theorem step_effect (h : TokenSystem.Step times system event system') :
    Effect tokenId system event system' := by
  cases event with
  | create input => exact create_effect h
  | claimRead caller target consumedBy given answer => exact claimRead_effect h
  | claimUpdate caller target f clock changed => exact claimUpdate_effect h
  | claimAnswer caller target f answer => exact claimAnswer_effect h
  | consumePending target consumedBy clock changed =>
      obtain ⟨tokens, hupdate, rfl⟩ := h
      have hset : ∀ row : RemoteActionToken,
          ({ row with
            state := .consumed
            consumedAt := some clock.text
            consumedBy := some consumedBy } : RemoteActionToken).state ≠ .pending ∧
          row.mutation = row.mutation :=
        fun row => ⟨fun heq => (by cases heq), rfl⟩
      exact effect_of_update hset hupdate (callersKept_same rfl) Iff.rfl
        ⟨fun _ => id, fun _ => id, fun _ => id, fun _ => id⟩
  | expirePending target changed =>
      obtain ⟨tokens, hupdate, rfl⟩ := h
      exact effect_of_update expiredRow_spec hupdate (callersKept_same rfl) Iff.rfl
        ⟨fun _ => id, fun _ => id, fun _ => id, fun _ => id⟩
  | expirePendingIfExpired target clock changed =>
      obtain ⟨tokens, hupdate, rfl⟩ := h
      exact effect_of_update expiredRow_spec hupdate (callersKept_same rfl) Iff.rfl
        ⟨fun _ => id, fun _ => id, fun _ => id, fun _ => id⟩
  | expirePendingByApprovalId approvalId changed => exact expirePendingByApprovalId_effect h
  | boundaryRead caller target boundaryAt =>
      obtain ⟨-, rfl⟩ := h
      refine effect_of_quiet rfl (callersKept_elsewhere rfl ?_ ?_) id
        ⟨fun _ => id, fun _ => id, fun _ => id, fun _ => id⟩
      · intro f heq
        split at heq <;> cases heq
      · intro consumedBy f mutation heq
        split at heq <;> cases heq
  | boundaryUpdate caller target changed =>
      obtain ⟨-, tokens, hupdate, rfl⟩ := h
      exact effect_of_update expiredRow_spec hupdate (callersKept_elsewhere rfl nofun nofun) Iff.rfl
        ⟨fun _ => id, fun _ => id, fun _ => id, fun _ => id⟩

end Effects

/-! ## The invariant -/

/-- What a mutation holds apart from the fingerprint of a claim. -/
def unclaimedMembers (mutation : JsonObject) : JsonObject :=
  removeMember claimFingerprintKey mutation

/-- No claim has taken the token so far, or was told that one has. -/
structure NoClaim (tokenId : String) (past : List TokenEvent) (system : TokenSystem) :
    Prop where
  wins : ∀ event ∈ past, ∀ f, ¬event.Wins tokenId f
  resumed : ∀ event ∈ past, ∀ f, ¬event.AnswersResumed tokenId f
  claimed : ∀ event ∈ past, ∀ f, ¬event.AnswersClaimed tokenId f
  won : ∀ caller f, system.callers caller ≠ .won tokenId f

/-- A claim with this fingerprint has taken the token, and all answers are its. -/
structure ClaimedBy (f : String) (tokenId : String) (past : List TokenEvent)
    (system : TokenSystem) : Prop where
  row : ∃ row, system.tokens tokenId = some row ∧ row.state = .consumed ∧
    readClaimFingerprint row.mutation = some f
  wins : ∃ event ∈ past, event.Wins tokenId f
  settles : ∀ event ∈ past, ¬event.Settles tokenId
  resumed : ∀ event ∈ past, ∀ g, event.AnswersResumed tokenId g → g = f
  claimed : ∀ event ∈ past, ∀ g, event.AnswersClaimed tokenId g → g = f
  won : ∀ caller g, system.callers caller = .won tokenId g → g = f
  oneCaller : ∀ caller caller' g g', system.callers caller = .won tokenId g →
    system.callers caller' = .won tokenId g' → caller = caller'
  answers : past.countP (·.answersClaimed tokenId) ≤ 1
  unanswered : (∃ caller g, system.callers caller = .won tokenId g) →
    past.countP (·.answersClaimed tokenId) = 0

/-- What became of a token, after the events so far. -/
inductive Phase (tokenId : String) (past : List TokenEvent) (system : TokenSystem) : Prop
  | unclaimed : NoClaim tokenId past system →
      (∀ row, system.tokens tokenId = some row →
        unclaimedMembers row.mutation = row.mutation) →
      ((∀ event ∈ past, ¬event.Settles tokenId) ∨
        ∃ row, system.tokens tokenId = some row ∧ row.state ≠ .pending) →
      Phase tokenId past system
  | claimed {f : String} : ClaimedBy f tokenId past system → Phase tokenId past system

/-- What is kept about a token, after the events so far. -/
structure Tracked (tokenId : String) (past : List TokenEvent) (system : TokenSystem) :
    Prop where
  snapshot : ∀ caller consumedBy f mutation,
    system.callers caller = .claiming tokenId consumedBy f mutation →
      trim f = f ∧ f ≠ "" ∧ ∃ row, system.tokens tokenId = some row ∧
        unclaimedMembers mutation = unclaimedMembers row.mutation
  given : ∀ event ∈ past, ∀ input, event.Creates tokenId input →
    ∃ row, system.tokens tokenId = some row ∧
      unclaimedMembers row.mutation = unclaimedMembers (input.mutation.getD [])
  phase : Phase tokenId past system

section Invariant

variable {times : TimeTexts} {system system' : TokenSystem} {event : TokenEvent}
  {tokenId : String} {past : List TokenEvent}

theorem tracked_initial : Tracked tokenId [] .initial where
  snapshot := by
    intro caller consumedBy f mutation h
    cases h
  given := by simp
  phase := by
    refine .unclaimed ⟨by simp, by simp, by simp, ?_⟩ ?_ (.inl (by simp))
    · intro caller f h
      cases h
    · intro row h
      cases h

/-- No step loses a row, or changes what its mutation holds apart from the
fingerprint. -/
theorem Effect.row_kept (h : Effect tokenId system event system')
    (htracked : Tracked tokenId past system) {row : RemoteActionToken}
    (hrow : system.tokens tokenId = some row) :
    ∃ row', system'.tokens tokenId = some row' ∧
      unclaimedMembers row'.mutation = unclaimedMembers row.mutation := by
  cases h with
  | keep hsame => exact ⟨row, hsame.trans hrow, rfl⟩
  | created hnone =>
      rw [hrow] at hnone
      cases hnone
  | won hclaiming hfound _ hrow' =>
      rw [hrow] at hfound
      obtain rfl := Option.some.inj hfound
      obtain ⟨-, -, read, hread, hmutation⟩ := htracked.snapshot _ _ _ _ hclaiming
      rw [hrow] at hread
      obtain rfl := Option.some.inj hread
      exact ⟨_, hrow', removeMember_setMember.trans hmutation⟩
  | settled hfound _ hrow' _ hmutation =>
      rw [hrow] at hfound
      obtain rfl := Option.some.inj hfound
      exact ⟨_, hrow', by rw [hmutation]⟩

theorem Effect.snapshot (h : Effect tokenId system event system')
    (htracked : Tracked tokenId past system) : ∀ caller consumedBy f mutation,
    system'.callers caller = .claiming tokenId consumedBy f mutation →
      trim f = f ∧ f ≠ "" ∧ ∃ row, system'.tokens tokenId = some row ∧
        unclaimedMembers mutation = unclaimedMembers row.mutation := by
  intro caller consumedBy f mutation hclaiming
  have hbefore : trim f = f ∧ f ≠ "" ∧ ∃ row, system.tokens tokenId = some row ∧
      unclaimedMembers mutation = unclaimedMembers row.mutation := by
    have hkept : CallersKept tokenId system system' →
        trim f = f ∧ f ≠ "" ∧ ∃ row, system.tokens tokenId = some row ∧
          unclaimedMembers mutation = unclaimedMembers row.mutation := by
      intro hcallers
      obtain hsame | ⟨htrim, hset, row, hrow, rfl⟩ :=
        hcallers.claiming caller consumedBy f mutation hclaiming
      · exact htracked.snapshot caller consumedBy f mutation hsame
      · exact ⟨htrim, hset, row, hrow, rfl⟩
    cases h with
    | keep _ hcallers => exact hkept hcallers
    | created _ _ hcallers => exact hkept (callersKept_same hcallers)
    | won _ _ _ _ hcallers =>
        rw [hcallers] at hclaiming
        unfold setCaller at hclaiming
        split at hclaiming
        · cases hclaiming
        · exact htracked.snapshot caller consumedBy f mutation hclaiming
    | settled _ _ _ _ _ hcallers => exact hkept hcallers
  obtain ⟨htrim, hset, row, hrow, hmutation⟩ := hbefore
  obtain ⟨row', hrow', hsame⟩ := h.row_kept htracked hrow
  exact ⟨htrim, hset, row', hrow', hmutation.trans hsame.symm⟩

theorem Effect.given (h : Effect tokenId system event system')
    (htracked : Tracked tokenId past system) : ∀ e ∈ past ++ [event], ∀ input,
    e.Creates tokenId input → ∃ row, system'.tokens tokenId = some row ∧
      unclaimedMembers row.mutation = unclaimedMembers (input.mutation.getD []) := by
  apply forall_mem_append_singleton
  · intro e he input hcreates
    obtain ⟨row, hrow, hgiven⟩ := htracked.given e he input hcreates
    obtain ⟨row', hrow', hsame⟩ := h.row_kept htracked hrow
    exact ⟨row', hrow', hsame.trans hgiven⟩
  · intro input hcreates
    cases h with
    | keep _ _ _ _ hnot => exact absurd hcreates (hnot input)
    | created _ hrow' _ hevent =>
        subst hevent
        obtain ⟨rfl, -⟩ := hcreates
        exact ⟨_, hrow', removeMember_removeMember⟩
    | won _ _ _ _ _ hevent =>
        subst hevent
        cases hcreates
    | settled _ _ _ _ _ _ _ hquiet => exact absurd hcreates (hquiet.creates input)

/-- A step that does not claim the token leaves it unclaimed. -/
theorem NoClaim.append (h : NoClaim tokenId past system)
    (hwon : ∀ caller f, system'.callers caller ≠ .won tokenId f)
    (hwins : ∀ f, ¬event.Wins tokenId f) (hresumed : ∀ f, ¬event.AnswersResumed tokenId f)
    (hclaimed : ∀ f, ¬event.AnswersClaimed tokenId f) :
    NoClaim tokenId (past ++ [event]) system' where
  wins := forall_mem_append_singleton h.wins hwins
  resumed := forall_mem_append_singleton h.resumed hresumed
  claimed := forall_mem_append_singleton h.claimed hclaimed
  won := hwon

theorem NoClaim.won_kept (h : NoClaim tokenId past system)
    (hcallers : CallersKept tokenId system system') :
    ∀ caller f, system'.callers caller ≠ .won tokenId f :=
  fun caller f hwon => h.won caller f (hcallers.won caller f hwon)

theorem NoClaim.countP (h : NoClaim tokenId past system) :
    past.countP (·.answersClaimed tokenId) = 0 := by
  apply List.countP_eq_zero.mpr
  intro e he hanswer
  obtain ⟨f, hclaimed⟩ := answersClaimed_iff.mp hanswer
  exact h.claimed e he f hclaimed

theorem Effect.phase_of_noClaim (h : Effect tokenId system event system')
    (htracked : Tracked tokenId past system) (hnoClaim : NoClaim tokenId past system)
    (hrows : ∀ row, system.tokens tokenId = some row →
      unclaimedMembers row.mutation = row.mutation)
    (hsettles : (∀ event ∈ past, ¬event.Settles tokenId) ∨
      ∃ row, system.tokens tokenId = some row ∧ row.state ≠ .pending) :
    Phase tokenId (past ++ [event]) system' := by
  cases h with
  | keep hrow hcallers hwins hnotSettles _ hresumed hclaimed =>
      refine .unclaimed (hnoClaim.append (hnoClaim.won_kept hcallers) hwins ?_ ?_) ?_ ?_
      · intro f hanswer
        obtain ⟨row, hfound, -, hread⟩ := hresumed f hanswer
        rw [readClaimFingerprint_of_removed (hrows row hfound)] at hread
        cases hread
      · intro f hanswer
        obtain ⟨caller, hwon, -⟩ := hclaimed f hanswer
        exact hnoClaim.won caller f hwon
      · rw [hrow]
        exact hrows
      · rw [hrow]
        exact hsettles.imp (fun hpast => forall_mem_append_singleton hpast hnotSettles) id
  | created hnone hrow' hcallers hevent =>
      subst hevent
      refine .unclaimed (hnoClaim.append (hnoClaim.won_kept (callersKept_same hcallers))
        (fun _ => id) (fun _ => id) fun _ => id) ?_ ?_
      · intro row hrow
        rw [hrow'] at hrow
        obtain rfl := Option.some.inj hrow
        exact removeMember_removeMember
      · obtain hpast | ⟨row, hrow, -⟩ := hsettles
        · exact .inl (forall_mem_append_singleton hpast id)
        · rw [hnone] at hrow
          cases hrow
  | @won caller consumedBy f mutation clock row hclaiming hrow hpending hrow' hcallers hevent =>
      subst hevent
      obtain ⟨htrim, hset, -⟩ := htracked.snapshot _ _ _ _ hclaiming
      have hpast : ∀ event ∈ past, ¬event.Settles tokenId := by
        obtain hpast | ⟨found, hfound, hnot⟩ := hsettles
        · exact hpast
        · rw [hrow] at hfound
          obtain rfl := Option.some.inj hfound
          exact absurd hpending hnot
      have hwon : ∀ other g, system'.callers other = .won tokenId g → other = caller ∧ g = f := by
        intro other g hother
        rw [hcallers] at hother
        unfold setCaller at hother
        split at hother
        · rename_i heq
          exact ⟨heq, (CallerState.won.inj hother).2.symm⟩
        · exact absurd hother (hnoClaim.won other g)
      have hcount : (past ++ [TokenEvent.claimUpdate caller tokenId f clock true]).countP
          (·.answersClaimed tokenId) = 0 := by
        rw [List.countP_append, hnoClaim.countP]
        rfl
      exact .claimed {
        row := ⟨_, hrow', rfl, readClaimFingerprint_claimedMutation htrim hset⟩
        wins := ⟨_, List.mem_append_right _ List.mem_cons_self, rfl, rfl⟩
        settles := forall_mem_append_singleton hpast id
        resumed := forall_mem_append_singleton
          (fun e he g hanswer => absurd hanswer (hnoClaim.resumed e he g)) fun _ => False.elim
        claimed := forall_mem_append_singleton
          (fun e he g hanswer => absurd hanswer (hnoClaim.claimed e he g)) fun _ => False.elim
        won := fun other g hother => (hwon other g hother).2
        oneCaller := fun a b g g' ha hb => (hwon a g ha).1.trans (hwon b g' hb).1.symm
        answers := by rw [hcount]; exact Nat.zero_le 1
        unanswered := fun _ => hcount }
  | settled hrow hpending hrow' hstate hmutation hcallers _ hquiet =>
      refine .unclaimed (hnoClaim.append (hnoClaim.won_kept hcallers) hquiet.wins
        hquiet.resumed hquiet.claimed) ?_ (.inr ⟨_, hrow', hstate⟩)
      intro row hfound
      rw [hrow'] at hfound
      obtain rfl := Option.some.inj hfound
      rw [hmutation]
      exact hrows _ hrow

theorem Effect.phase_of_claimed {f : String} (h : Effect tokenId system event system')
    (hclaimedBy : ClaimedBy f tokenId past system) :
    Phase tokenId (past ++ [event]) system' := by
  obtain ⟨row, hrow, hconsumed, hread⟩ := hclaimedBy.row
  have hnotPending : ∀ {found : RemoteActionToken}, system.tokens tokenId = some found →
      found.state ≠ .pending := by
    intro found hfound heq
    rw [hrow] at hfound
    obtain rfl := Option.some.inj hfound
    rw [hconsumed] at heq
    cases heq
  cases h with
  | keep hsame hcallers hwins hsettles _ hresumed hclaimed =>
      have hanswers : (past ++ [event]).countP (·.answersClaimed tokenId) =
          past.countP (·.answersClaimed tokenId) +
            if event.answersClaimed tokenId = true then 1 else 0 := by
        rw [List.countP_append, List.countP_singleton]
      refine .claimed {
        row := ⟨row, hsame.trans hrow, hconsumed, hread⟩
        wins := by
          obtain ⟨e, he, hwin⟩ := hclaimedBy.wins
          exact ⟨e, List.mem_append_left _ he, hwin⟩
        settles := forall_mem_append_singleton hclaimedBy.settles hsettles
        resumed := forall_mem_append_singleton hclaimedBy.resumed ?_
        claimed := forall_mem_append_singleton hclaimedBy.claimed ?_
        won := fun caller g hwon => hclaimedBy.won caller g (hcallers.won caller g hwon)
        oneCaller := fun a b g g' ha hb =>
          hclaimedBy.oneCaller a b g g' (hcallers.won a g ha) (hcallers.won b g' hb)
        answers := ?_
        unanswered := ?_ }
      · intro g hanswer
        obtain ⟨found, hfound, -, hfoundRead⟩ := hresumed g hanswer
        rw [hrow] at hfound
        obtain rfl := Option.some.inj hfound
        rw [hread] at hfoundRead
        exact (Option.some.inj hfoundRead).symm
      · intro g hanswer
        obtain ⟨caller, hwon, -⟩ := hclaimed g hanswer
        exact hclaimedBy.won caller g hwon
      · rw [hanswers]
        split
        · rename_i hanswer
          obtain ⟨g, hanswer⟩ := answersClaimed_iff.mp hanswer
          obtain ⟨caller, hwon, -⟩ := hclaimed g hanswer
          rw [hclaimedBy.unanswered ⟨caller, g, hwon⟩]
        · exact hclaimedBy.answers
      · rintro ⟨caller, g, hwon⟩
        have hbefore := hcallers.won caller g hwon
        rw [hanswers, hclaimedBy.unanswered ⟨caller, g, hbefore⟩]
        split
        · rename_i hanswer
          obtain ⟨g', hanswer⟩ := answersClaimed_iff.mp hanswer
          obtain ⟨answered, hansweredWon, hgone⟩ := hclaimed g' hanswer
          have heq := hclaimedBy.oneCaller caller answered g g' hbefore hansweredWon
          exact absurd (heq ▸ hwon) (hgone g)
        · rfl
  | created hnone =>
      rw [hrow] at hnone
      cases hnone
  | won _ hfound hpending => exact absurd hpending (hnotPending hfound)
  | settled hfound hpending => exact absurd hpending (hnotPending hfound)

theorem Tracked.step (h : Tracked tokenId past system)
    (hstep : TokenSystem.Step times system event system') :
    Tracked tokenId (past ++ [event]) system' := by
  have heffect := @step_effect times system system' event tokenId hstep
  refine ⟨heffect.snapshot h, heffect.given h, ?_⟩
  cases h.phase with
  | unclaimed hnoClaim hrows hsettles =>
      exact heffect.phase_of_noClaim h hnoClaim hrows hsettles
  | claimed hclaimedBy => exact heffect.phase_of_claimed hclaimedBy

theorem tracked_of_run {events : List TokenEvent}
    (h : Run (TokenSystem.Step times) .initial events system) :
    Tracked tokenId events system :=
  h.invariant_of_history (fun _ _ _ _ hstep htracked => htracked.step hstep) tracked_initial

/-- A token that is not pending any more stays as it is. -/
def Settled (tokenId : String) (system later : TokenSystem) : Prop :=
  ∀ row, system.tokens tokenId = some row → row.state ≠ .pending →
    later.tokens tokenId = some row

theorem settled_of_run {events : List TokenEvent}
    (h : Run (TokenSystem.Step times) system events system') :
    Settled tokenId system system' := by
  induction h with
  | nil => exact fun row hrow _ => hrow
  | cons hstep _ ih =>
      intro row hrow hstate
      refine ih row ?_ hstate
      cases @step_effect times _ _ _ tokenId hstep with
      | keep hsame => exact hsame.trans hrow
      | created hnone =>
          rw [hrow] at hnone
          cases hnone
      | won _ hfound hpending =>
          rw [hrow] at hfound
          obtain rfl := Option.some.inj hfound
          exact absurd hpending hstate
      | settled hfound hpending =>
          rw [hrow] at hfound
          obtain rfl := Option.some.inj hfound
          exact absurd hpending hstate

/-- The answers that callers get about a token. -/
structure ClaimedOnce (tokenId : String) (events : List TokenEvent) : Prop where
  claimed : events.countP (·.answersClaimed tokenId) ≤ 1
  settled : (∃ event ∈ events, ∃ f, event.AnswersClaimed tokenId f) →
    ∀ event ∈ events, ¬event.Settles tokenId
  resumed : ∀ event ∈ events, ∀ f, event.AnswersResumed tokenId f →
    (∃ winner ∈ events, winner.Wins tokenId f) ∧
      ∀ answer ∈ events, ∀ g, answer.AnswersClaimed tokenId g → g = f

theorem Tracked.claimedOnce {events : List TokenEvent} (h : Tracked tokenId events system) :
    ClaimedOnce tokenId events := by
  cases h.phase with
  | unclaimed hnoClaim _ _ =>
      refine ⟨by rw [hnoClaim.countP]; exact Nat.zero_le 1, ?_, ?_⟩
      · rintro ⟨e, he, f, hanswer⟩
        exact absurd hanswer (hnoClaim.claimed e he f)
      · intro e he f hanswer
        exact absurd hanswer (hnoClaim.resumed e he f)
  | claimed hclaimedBy =>
      refine ⟨hclaimedBy.answers, fun _ => hclaimedBy.settles, ?_⟩
      intro e he f hanswer
      obtain rfl := hclaimedBy.resumed e he f hanswer
      exact ⟨hclaimedBy.wins, hclaimedBy.claimed⟩

/-- In every interleaving of the steps of any callers, a token is claimed for one
request: the answers agree, what is stored was given at the creation, and a token
that is not pending any more stays as it is. -/
theorem tokens_claimed_for_one_request {events : List TokenEvent}
    (hrun : Run (TokenSystem.Step times) .initial events system) (tokenId : String) :
    ClaimedOnce tokenId events ∧
      (∀ event ∈ events, ∀ input, event.Creates tokenId input →
        ∃ row, system.tokens tokenId = some row ∧
          unclaimedMembers row.mutation = unclaimedMembers (input.mutation.getD [])) ∧
      ∀ more later, Run (TokenSystem.Step times) system more later →
        Settled tokenId system later := by
  have htracked := @tracked_of_run times system tokenId events hrun
  exact ⟨htracked.claimedOnce, htracked.given, fun more later hmore => settled_of_run hmore⟩

end Invariant

/-! ## An example -/

/-- Times as they are at the end of the first minute. -/
def sampleTimes : TimeTexts where
  databaseTime text := if text = "1970-01-01T00:01:00.000Z" then some 60 else none
  parse text := if text = "1970-01-01T00:01:00.000Z" then some 60000 else none

def sampleInput : CreateInput where
  tokenId := "token"
  tokenHash := "hash"
  actionType := .approvalResolve
  approvalId := some "approval"
  connectorId := "connector"
  mutation := some [("decision", .string "approve")]
  createdAt := "1970-01-01T00:00:00.000Z"
  expiresAt := "1970-01-01T00:01:00.000Z"

def sampleClock : DatabaseClock where
  now := 1
  text := "1970-01-01T00:00:01.000Z"

/-- The token after its creation. -/
def createdTokens : TokenTable :=
  fun id => if id = "token" then some (createdRow sampleInput) else none

/-- The update of the first claim. -/
def claimedTokens : Bool × TokenTable :=
  claimPendingStmt sampleTimes "token" "worker"
    (claimedMutation "request" [("decision", .string "approve")]) sampleClock createdTokens

def sampleEvents : List TokenEvent :=
  [.create sampleInput,
   .claimRead 1 "token" "worker" " request " none,
   .claimUpdate 1 "token" "request" sampleClock true,
   .claimAnswer 1 "token" "request" (some .claimed),
   .claimRead 2 "token" "worker" "request" (some .resumed)]

def sampleCallers : Nat → CallerState :=
  fun _ => .idle

/-- A second caller with the fingerprint of the first one resumes its claim. -/
theorem second_caller_resumes :
    ∃ system, Run (TokenSystem.Step sampleTimes) .initial sampleEvents system ∧
      ClaimedOnce "token" sampleEvents := by
  have hchanged : claimedTokens.1 = true := by decide +kernel
  have hclaimed : claimPendingStmt sampleTimes "token" "worker"
      (claimedMutation "request" [("decision", .string "approve")]) sampleClock createdTokens =
        (true, claimedTokens.2) := Prod.ext hchanged rfl
  let claiming : CallerState :=
    .claiming "token" "worker" "request" [("decision", .string "approve")]
  let afterRead : Nat → CallerState := setCaller 1 claiming sampleCallers
  let afterUpdate : Nat → CallerState := setCaller 1 (.won "token" "request") afterRead
  let afterAnswer : Nat → CallerState := setCaller 1 .idle afterUpdate
  have hrun : Run (TokenSystem.Step sampleTimes) .initial sampleEvents
      ⟨claimedTokens.2, setCaller 2 .idle afterAnswer⟩ := by
    refine .cons ⟨createdTokens, rfl, rfl⟩ (.cons ⟨rfl, claiming, rfl, rfl⟩ ?_)
    refine .cons ⟨"worker", _, claimedTokens.2, rfl, hclaimed, rfl⟩ ?_
    refine .cons ⟨.inl ⟨rfl, ?_⟩, rfl⟩ (.cons ⟨rfl, .idle, ?_, rfl⟩ (.nil _))
    · rfl
    · rfl
  exact ⟨_, hrun, (tokens_claimed_for_one_request hrun "token").1⟩

end GoatCitadel.Storage.RemoteActionTokens
