import GoatCitadel.RemoteWorker.RequestNonces

/-!
# A worker request is not replayed

Runs of `consume` and `pruneExpired` by any number of callers.  A nonce stays in its
table until its expiry, at which the database no longer accepts the time of its request.
-/

namespace GoatCitadel.RemoteWorker

open GoatCitadel.Support
open GoatCitadel.Storage.WorktreeLeaseRepository (DateText)

/-! ## Events -/

inductive NonceCall
  | consume (input : RemoteWorkerNonceConsumeInput) (clock : ConsumeClock)
      (authorityIsCurrent : Bool)
  | pruneExpired (limit : Option Int) (bootstrapClock credentialClock : PruneClock)

/-- A call, with what `consume` answers unless it throws. -/
structure NonceEvent where
  call : NonceCall
  answer : Option Bool

/-- The tables, and a time that the database clock has reached. -/
structure NonceSystem where
  store : NonceStore
  clock : Int

/-- The readings of a pruning lie between two times, in their order. -/
def PruneClock.Between (clock : PruneClock) (start finish : Int) : Prop :=
  start ≤ clock.chosen ∧ ∀ row, clock.chosen ≤ clock.removed row ∧ clock.removed row ≤ finish

/-- The readings of a call lie between two times, in their order. -/
def NonceCall.Between (start finish : Int) : NonceCall → Prop
  | .consume _ clock _ => clock.prune.Between start clock.consumedAt ∧
      clock.consumedAt ≤ clock.guarded ∧ clock.guarded ≤ finish
  | .pruneExpired _ bootstrapClock credentialClock => ∃ between,
      bootstrapClock.Between start between ∧ credentialClock.Between between finish

/-- The reading of the clock at which a call removes a row, if it does. -/
def NonceCall.removalTime (kind : NonceKind) (row : NonceRow) : NonceCall → Int
  | .consume _ clock _ => clock.prune.removed row
  | .pruneExpired _ bootstrapClock credentialClock =>
      match kind with
      | .bootstrap => bootstrapClock.removed row
      | .credential => credentialClock.removed row

section Steps

variable (runtime : NonceRuntime)

def NonceCall.perform (store : NonceStore) :
    NonceCall → Except NonceError (Option Bool × NonceStore)
  | .consume input clock authorityIsCurrent =>
      (fun (answer, store) => (some answer, store)) <$>
        RemoteWorker.consume runtime input clock authorityIsCurrent store
  | .pruneExpired limit bootstrapClock credentialClock =>
      (fun (_, store) => (none, store)) <$>
        RemoteWorker.pruneExpired runtime limit bootstrapClock credentialClock store

/-- One transaction; it changes nothing when it throws. -/
def NonceSystem.Step (s : NonceSystem) (event : NonceEvent) (s' : NonceSystem) : Prop :=
  event.call.Between s.clock s'.clock ∧
    match event.call.perform runtime s.store with
    | .ok (answer, store) => event.answer = answer ∧ s'.store = store
    | .error _ => event.answer = none ∧ s'.store = s.store

end Steps

/-- The event accepts a request, at a reading of the database clock. -/
def NonceEvent.Accepts (event : NonceEvent) (input : RemoteWorkerNonceConsumeInput)
    (time : Int) : Prop :=
  ∃ clock authorityIsCurrent, event.call = .consume input clock authorityIsCurrent ∧
    event.answer = some true ∧ clock.guarded = time

/-! ## What a call does -/

section Calls

variable {runtime : NonceRuntime}

/-- A pruning adds no row, and it only removes rows that have expired by then. -/
theorem pruneRows_eq_ok {limit : Nat} {clock : PruneClock} {rows : List NonceRow}
    {result : Nat × List NonceRow} (h : pruneRows runtime limit clock rows = .ok result) :
    (∀ row ∈ result.2, row ∈ rows) ∧
    ∀ row ∈ rows, row ∈ result.2 ∨ expiredBy runtime (clock.removed row) row = true := by
  unfold pruneRows at h
  dsimp only at h
  split_ifs at h with hlive
  obtain rfl := Except.ok.inj h
  constructor
  · intro row hrow
    exact (List.mem_filter.mp hrow).1
  intro row hrow
  by_cases hchosen : row ∈ ((rows.filter (expiredBy runtime clock.chosen)).insertionSort
      fun a b => runtime.rowLe a b = true).take limit
  · right
    by_contra hnot
    apply hlive
    refine List.any_eq_true.mpr ⟨row, hchosen, ?_⟩
    simpa using hnot
  · exact Or.inl (List.mem_filter.mpr ⟨hrow, decide_eq_true hchosen⟩)

theorem assertCanonicalTimestamp_eq_ok {value label : String} {time : Int}
    (h : assertCanonicalTimestamp runtime value label = .ok time) :
    runtime.dates.parse value = some time := by
  unfold assertCanonicalTimestamp at h
  cases hparse : runtime.dates.parse value with
  | none =>
      rw [hparse] at h
      cases h
  | some parsed =>
      rw [hparse] at h
      dsimp only at h
      split_ifs at h
      obtain rfl := Except.ok.inj h
      rfl

theorem assertIdentifier_eq_ok {value field result : String}
    (h : assertIdentifier runtime value field = .ok result) : result = value := by
  unfold assertIdentifier at h
  split_ifs at h
  exact (Except.ok.inj h).symm

theorem assertPositiveInteger_eq_ok {value result : Nat} {field : String}
    (h : assertPositiveInteger value field = .ok result) : result = value := by
  unfold assertPositiveInteger at h
  split_ifs at h
  exact (Except.ok.inj h).symm

/-- An authority is normalized to itself. -/
theorem normalizeRemoteWorkerNonceAuthority_eq_ok
    {authority normalized : RemoteWorkerNonceAuthority}
    (h : normalizeRemoteWorkerNonceAuthority runtime authority = .ok normalized) :
    normalized = authority := by
  cases authority with
  | bootstrap registryWorkspaceId workerId targetWorkerGeneration bootstrapId =>
      obtain ⟨registry, hregistry, h⟩ := bind_eq_ok.mp h
      obtain ⟨worker, hworker, h⟩ := bind_eq_ok.mp h
      obtain ⟨generation, hgeneration, h⟩ := bind_eq_ok.mp h
      obtain ⟨bootstrap, hbootstrap, h⟩ := bind_eq_ok.mp h
      rw [← Except.ok.inj h, assertIdentifier_eq_ok hregistry, assertIdentifier_eq_ok hworker,
        assertPositiveInteger_eq_ok hgeneration, assertIdentifier_eq_ok hbootstrap]
  | credential registryWorkspaceId workerId workerGeneration credentialGeneration
      credentialId =>
      obtain ⟨registry, hregistry, h⟩ := bind_eq_ok.mp h
      obtain ⟨worker, hworker, h⟩ := bind_eq_ok.mp h
      obtain ⟨generation, hgeneration, h⟩ := bind_eq_ok.mp h
      obtain ⟨secret, hsecret, h⟩ := bind_eq_ok.mp h
      obtain ⟨credential, hcredential, h⟩ := bind_eq_ok.mp h
      rw [← Except.ok.inj h, assertIdentifier_eq_ok hregistry, assertIdentifier_eq_ok hworker,
        assertPositiveInteger_eq_ok hgeneration, assertPositiveInteger_eq_ok hsecret,
        assertIdentifier_eq_ok hcredential]

/-- The nonce of a request is in its table. -/
def Recorded (store : NonceStore) (input : RemoteWorkerNonceConsumeInput) : Prop :=
  ∃ row ∈ store.rows input.authority.kind, row.authority = input.authority ∧
    row.nonceSha256 = input.nonceSha256 ∧ row.expiresAt = input.expiresAt

/-- What a request is like that is accepted at a reading of the clock. -/
structure Acceptable (input : RemoteWorkerNonceConsumeInput) (time timestamp expiry : Int) :
    Prop where
  parsed : runtime.dates.parse input.timestamp = some timestamp
  expires : runtime.dates.parse input.expiresAt = some expiry
  ttl : expiry = timestamp + 60000
  window : (timestamp - time).natAbs ≤ 60000
  live : time < expiry

/-- A consumption that returns has only removed rows that have expired, and only added a
row for its request; when it accepts, there was no nonce of this digest, and there is one
now. -/
theorem consumeNonce_eq_ok {input : RemoteWorkerNonceConsumeInput} {timestamp expiry : Int}
    {clock : ConsumeClock} {authorityIsCurrent : Bool} {rows : List NonceRow}
    {result : Bool × List NonceRow}
    (h : consumeNonce runtime input timestamp expiry clock authorityIsCurrent rows = .ok result) :
    (∀ row ∈ result.2, row ∈ rows ∨ row.expiresAt = input.expiresAt) ∧
    (∀ row ∈ rows, row ∈ result.2 ∨
      expiredBy runtime (clock.prune.removed row) row = true) ∧
    (result.1 = true →
      nonceExists input.authority input.nonceSha256 rows = false ∧
      (timestamp - clock.guarded).natAbs ≤ 60000 ∧ clock.guarded < expiry ∧
      ∃ row ∈ result.2, row.authority = input.authority ∧
        row.nonceSha256 = input.nonceSha256 ∧ row.expiresAt = input.expiresAt) := by
  unfold consumeNonce at h
  by_cases hexists : nonceExists input.authority input.nonceSha256 rows = true
  · rw [if_pos hexists] at h
    obtain rfl := Except.ok.inj h
    exact ⟨fun row hrow => Or.inl hrow, fun row hrow => Or.inl hrow,
      fun htrue => absurd htrue Bool.false_ne_true⟩
  rw [if_neg hexists] at h
  obtain ⟨⟨count, kept⟩, hprune, h⟩ := bind_eq_ok.mp h
  obtain ⟨⟨inserted, written⟩, hinsert, h⟩ := bind_eq_ok.mp h
  obtain ⟨hsubset, hpruned⟩ := pruneRows_eq_ok hprune
  unfold insertNonce at hinsert
  split_ifs at hinsert with hwindow hcurrent hconflict
  · -- The digest is there already; nothing is inserted.
    obtain ⟨rfl, rfl⟩ := ok_pair_inj hinsert
    dsimp only at h
    have hfound : nonceExists input.authority input.nonceSha256 kept = true := hconflict
    rw [if_neg Nat.zero_ne_one, if_pos hfound] at h
    obtain rfl := Except.ok.inj h
    exact ⟨fun row hrow => Or.inl (hsubset row hrow), hpruned,
      fun htrue => absurd htrue Bool.false_ne_true⟩
  · obtain ⟨rfl, rfl⟩ := ok_pair_inj hinsert
    dsimp only at h
    rw [if_pos rfl] at h
    obtain rfl := Except.ok.inj h
    rw [not_or] at hwindow
    refine ⟨?_, ?_, ?_⟩
    · intro row hrow
      rcases List.mem_append.mp hrow with hkept | hnew
      · exact Or.inl (hsubset row hkept)
      · rw [List.mem_singleton.mp hnew]
        exact Or.inr rfl
    · intro row hrow
      exact (hpruned row hrow).imp_left (List.mem_append_left _)
    · intro _
      refine ⟨by simpa using hexists, by omega, by omega,
        ⟨input.authority, input.nonceSha256, input.timestamp, clock.consumedAt,
          input.expiresAt⟩, ?_, rfl, rfl, rfl⟩
      exact List.mem_append_right _ (List.mem_singleton_self _)

theorem rows_setRows (store : NonceStore) (kind kind' : NonceKind) (rows : List NonceRow) :
    (store.setRows kind rows).rows kind' = if kind' = kind then rows else store.rows kind' := by
  cases kind <;> cases kind' <;> rfl

theorem consume_eq_ok {input : RemoteWorkerNonceConsumeInput} {clock : ConsumeClock}
    {authorityIsCurrent : Bool} {store : NonceStore} {result : Bool × NonceStore}
    (h : consume runtime input clock authorityIsCurrent store = .ok result) :
    (∀ kind, ∀ row ∈ result.2.rows kind, row ∈ store.rows kind ∨
      ∃ expiry, runtime.dates.parse row.expiresAt = some expiry) ∧
    (∀ kind, ∀ row ∈ store.rows kind, row ∈ result.2.rows kind ∨
      expiredBy runtime (clock.prune.removed row) row = true) ∧
    (result.1 = true →
      nonceExists input.authority input.nonceSha256 (store.rows input.authority.kind) = false ∧
      Recorded result.2 input ∧
      ∃ timestamp expiry, @Acceptable runtime input clock.guarded timestamp expiry) := by
  unfold consume at h
  obtain ⟨authority, hauthority, h⟩ := bind_eq_ok.mp h
  obtain rfl := normalizeRemoteWorkerNonceAuthority_eq_ok hauthority
  obtain ⟨digest, -, h⟩ := bind_eq_ok.mp h
  obtain ⟨timestamp, htimestamp, h⟩ := bind_eq_ok.mp h
  obtain ⟨expiry, hexpiry, h⟩ := bind_eq_ok.mp h
  obtain ⟨httl, h⟩ := guard_eq_ok.mp h
  obtain ⟨⟨answer, rows⟩, hconsume, h⟩ := bind_eq_ok.mp h
  obtain rfl := Except.ok.inj h
  obtain ⟨hadded, hkept, haccepted⟩ := consumeNonce_eq_ok hconsume
  have hparsed := assertCanonicalTimestamp_eq_ok hexpiry
  refine ⟨?_, ?_, ?_⟩
  · intro kind row hrow
    rw [rows_setRows] at hrow
    split_ifs at hrow with hkind
    · rw [hkind]
      refine (hadded row hrow).imp_right fun hsame => ⟨expiry, ?_⟩
      rw [hsame]
      exact hparsed
    · exact Or.inl hrow
  · intro kind row hrow
    rw [rows_setRows]
    split_ifs with hkind
    · rw [hkind] at hrow
      exact hkept row hrow
    · exact Or.inl hrow
  · intro htrue
    obtain ⟨hnone, hwindow, hlive, row, hrow, hsame⟩ := haccepted htrue
    refine ⟨hnone, ⟨row, ?_, hsame⟩, timestamp, expiry, ?_⟩
    · rw [rows_setRows, if_pos rfl]
      exact hrow
    · refine ⟨assertCanonicalTimestamp_eq_ok htimestamp, hparsed, ?_, hwindow, hlive⟩
      unfold nonceTtlMs at httl
      omega

theorem pruneExpired_eq_ok {limit : Option Int} {bootstrapClock credentialClock : PruneClock}
    {store : NonceStore} {result : (Nat × Nat) × NonceStore}
    (h : pruneExpired runtime limit bootstrapClock credentialClock store = .ok result) :
    (∀ kind, ∀ row ∈ result.2.rows kind, row ∈ store.rows kind) ∧
    ∀ kind, ∀ row ∈ store.rows kind, row ∈ result.2.rows kind ∨
      expiredBy runtime ((NonceCall.pruneExpired limit bootstrapClock
        credentialClock).removalTime kind row) row = true := by
  unfold pruneExpired at h
  obtain ⟨⟨bootstrap, bootstrapRows⟩, hbootstrap, h⟩ := bind_eq_ok.mp h
  obtain ⟨⟨credential, credentialRows⟩, hcredential, h⟩ := bind_eq_ok.mp h
  obtain rfl := Except.ok.inj h
  constructor
  · intro kind
    cases kind with
    | bootstrap => exact (pruneRows_eq_ok hbootstrap).1
    | credential => exact (pruneRows_eq_ok hcredential).1
  · intro kind
    cases kind with
    | bootstrap => exact (pruneRows_eq_ok hbootstrap).2
    | credential => exact (pruneRows_eq_ok hcredential).2

end Calls

/-! ## Runs -/

section Runs

variable {runtime : NonceRuntime} {s s' : NonceSystem} {event : NonceEvent}

/-- A step adds rows whose expiry is a time, and whatever it removes has expired at the
reading of the clock at which it is removed. -/
theorem step_rows (h : s.Step runtime event s') (kind : NonceKind) :
    (∀ row ∈ s'.store.rows kind, row ∈ s.store.rows kind ∨
      ∃ expiry, runtime.dates.parse row.expiresAt = some expiry) ∧
    ∀ row ∈ s.store.rows kind, row ∈ s'.store.rows kind ∨
      expiredBy runtime (event.call.removalTime kind row) row = true := by
  obtain ⟨-, h⟩ := h
  cases hperform : event.call.perform runtime s.store with
  | error error =>
      rw [hperform] at h
      rw [h.2]
      exact ⟨fun row hrow => Or.inl hrow, fun row hrow => Or.inl hrow⟩
  | ok result =>
      rw [hperform] at h
      obtain ⟨-, hstore⟩ := h
      rw [hstore]
      cases hcall : event.call with
      | consume input clock authorityIsCurrent =>
          rw [hcall] at hperform
          obtain ⟨⟨answer, store⟩, hconsume, rfl⟩ := map_eq_ok hperform
          obtain ⟨hadded, hkept, -⟩ := consume_eq_ok hconsume
          exact ⟨hadded kind, hkept kind⟩
      | pruneExpired limit bootstrapClock credentialClock =>
          rw [hcall] at hperform
          obtain ⟨⟨counts, store⟩, hprune, rfl⟩ := map_eq_ok hperform
          obtain ⟨hsubset, hkept⟩ := pruneExpired_eq_ok hprune
          exact ⟨fun row hrow => Or.inl (hsubset kind row hrow), hkept kind⟩

/-- The expiry of every stored nonce is a time. -/
def ExpiryKnown (runtime : NonceRuntime) (s : NonceSystem) : Prop :=
  ∀ kind, ∀ row ∈ s.store.rows kind, ∃ expiry, runtime.dates.parse row.expiresAt = some expiry

theorem expiryKnown_step (hstep : s.Step runtime event s') (h : ExpiryKnown runtime s) :
    ExpiryKnown runtime s' := by
  intro kind row hrow
  rcases (step_rows hstep kind).1 row hrow with hold | hnew
  · exact h kind row hold
  · exact hnew

/-- A nonce that a step removes is removed at its expiry or later. -/
theorem removed_after_expiry (hstep : s.Step runtime event s') (h : ExpiryKnown runtime s)
    {kind : NonceKind} {row : NonceRow} (hrow : row ∈ s.store.rows kind)
    (hgone : row ∉ s'.store.rows kind) :
    ∃ expiry, runtime.dates.parse row.expiresAt = some expiry ∧
      expiry ≤ event.call.removalTime kind row := by
  obtain ⟨expiry, hexpiry⟩ := h kind row hrow
  refine ⟨expiry, hexpiry, ?_⟩
  rcases (step_rows hstep kind).2 row hrow with hkept | hexpired
  · exact absurd hkept hgone
  · rw [expiredBy, hexpiry] at hexpired
    exact of_decide_eq_true hexpired

/-- A removal happens before the time that the clock has reached after the call. -/
theorem removalTime_le {start finish : Int} {call : NonceCall}
    (h : call.Between start finish) (kind : NonceKind) (row : NonceRow) :
    call.removalTime kind row ≤ finish := by
  cases call with
  | consume input clock authorityIsCurrent =>
      obtain ⟨⟨-, hremoved⟩, hconsumed, hguarded⟩ := h
      exact le_trans (hremoved row).2 (le_trans hconsumed hguarded)
  | pruneExpired limit bootstrapClock credentialClock =>
      obtain ⟨between, ⟨-, hbootstrap⟩, ⟨hstart, hcredential⟩⟩ := h
      cases kind with
      | bootstrap =>
          have hmiddle := (hcredential row)
          exact le_trans (hbootstrap row).2
            (le_trans hstart (le_trans hmiddle.1 hmiddle.2))
      | credential => exact (hcredential row).2

theorem clock_le (h : s.Step runtime event s') : s.clock ≤ s'.clock := by
  obtain ⟨h, -⟩ := h
  have hany : Nonempty NonceRow := ⟨⟨.bootstrap "" "" 0 "", "", "", 0, ""⟩⟩
  obtain ⟨row⟩ := hany
  cases hcall : event.call with
  | consume input clock authorityIsCurrent =>
      rw [hcall] at h
      obtain ⟨⟨hstart, hremoved⟩, hconsumed, hguarded⟩ := h
      have hrow := hremoved row
      omega
  | pruneExpired limit bootstrapClock credentialClock =>
      rw [hcall] at h
      obtain ⟨between, ⟨hstart, hbootstrap⟩, ⟨hbetween, hcredential⟩⟩ := h
      have hfirst := hbootstrap row
      have hsecond := hcredential row
      omega

/-- A request that is accepted was not recorded and is recorded now, and its time is in
the window. -/
theorem step_accepts (h : s.Step runtime event s') {input : RemoteWorkerNonceConsumeInput}
    {time : Int} (haccepts : event.Accepts input time) :
    nonceExists input.authority input.nonceSha256 (s.store.rows input.authority.kind) = false ∧
    Recorded s'.store input ∧ s.clock ≤ time ∧
    ∃ timestamp expiry, @Acceptable runtime input time timestamp expiry := by
  obtain ⟨clock, authorityIsCurrent, hcall, hanswer, rfl⟩ := haccepts
  obtain ⟨hbetween, h⟩ := h
  rw [hcall] at hbetween h
  obtain ⟨⟨hstart, hremoved⟩, hconsumed, -⟩ := hbetween
  cases hperform : (NonceCall.consume input clock authorityIsCurrent).perform runtime s.store with
  | error error =>
      rw [hperform, hanswer] at h
      cases h.1
  | ok result =>
      rw [hperform] at h
      obtain ⟨⟨answer, store⟩, hconsume, rfl⟩ := map_eq_ok hperform
      obtain ⟨hsame, hstore⟩ := h
      rw [hanswer] at hsame
      obtain ⟨hnone, hrecorded, hacceptable⟩ :=
        (consume_eq_ok hconsume).2.2 (Option.some.inj hsame).symm
      refine ⟨hnone, ?_, ?_, hacceptable⟩
      · rw [hstore]
        exact hrecorded
      · obtain ⟨row, -⟩ := hrecorded
        have hrow := hremoved row
        omega

/-- Every request that was accepted has its nonce recorded, until it has expired. -/
def Remembered (runtime : NonceRuntime) (past : List NonceEvent) (s : NonceSystem) : Prop :=
  ∀ event ∈ past, ∀ input time, event.Accepts input time →
    Recorded s.store input ∨
      ∃ expiry, runtime.dates.parse input.expiresAt = some expiry ∧ expiry ≤ s.clock

theorem remembered_step {past : List NonceEvent} (hstep : s.Step runtime event s')
    (h : Remembered runtime past s)
    (hexpires : ∀ earlier ∈ past, ∀ input time, earlier.Accepts input time →
      ∃ expiry, runtime.dates.parse input.expiresAt = some expiry) :
    Remembered runtime (past ++ [event]) s' := by
  intro earlier hearlier input time haccepts
  rcases List.mem_append.mp hearlier with hold | hnew
  · rcases h earlier hold input time haccepts with ⟨row, hrow, hsame⟩ | ⟨expiry, hexpiry, hle⟩
    · rcases (step_rows hstep input.authority.kind).2 row hrow with hkept | hexpired
      · exact Or.inl ⟨row, hkept, hsame⟩
      · obtain ⟨expiry, hexpiry⟩ := hexpires earlier hold input time haccepts
        refine Or.inr ⟨expiry, hexpiry, ?_⟩
        rw [expiredBy, hsame.2.2, hexpiry] at hexpired
        exact le_trans (of_decide_eq_true hexpired) (removalTime_le hstep.1 _ row)
    · exact Or.inr ⟨expiry, hexpiry, le_trans hle (clock_le hstep)⟩
  · obtain rfl := List.mem_singleton.mp hnew
    exact Or.inl (step_accepts hstep haccepts).2.1

/-- Two acceptances of a digest under one authority are of different times, and the later
one is given no earlier than the expiry of the earlier. -/
def NotReplayed (runtime : NonceRuntime) (earlier later : NonceEvent) : Prop :=
  ∀ input input' time time', earlier.Accepts input time → later.Accepts input' time' →
    input.authority = input'.authority → input.nonceSha256 = input'.nonceSha256 →
      input.timestamp ≠ input'.timestamp ∧
        ∃ expiry, runtime.dates.parse input.expiresAt = some expiry ∧ expiry ≤ time'

/-- What is known of a run so far. -/
structure Unreplayed (runtime : NonceRuntime) (past : List NonceEvent) (s : NonceSystem) :
    Prop where
  remembered : Remembered runtime past s
  acceptable : ∀ event ∈ past, ∀ input time, event.Accepts input time →
    ∃ timestamp expiry, @Acceptable runtime input time timestamp expiry
  pairwise : past.Pairwise (NotReplayed runtime)

theorem unreplayed_step {past : List NonceEvent} (hstep : s.Step runtime event s')
    (h : Unreplayed runtime past s) : Unreplayed runtime (past ++ [event]) s' where
  remembered := by
    apply remembered_step hstep h.remembered
    intro earlier hearlier input time haccepts
    obtain ⟨timestamp, expiry, hacceptable⟩ := h.acceptable earlier hearlier input time haccepts
    exact ⟨expiry, hacceptable.expires⟩
  acceptable := by
    intro other hother input time haccepts
    rcases List.mem_append.mp hother with hold | hnew
    · exact h.acceptable other hold input time haccepts
    · obtain rfl := List.mem_singleton.mp hnew
      exact (step_accepts hstep haccepts).2.2.2
  pairwise := by
    refine List.pairwise_append.mpr ⟨h.pairwise, List.pairwise_singleton _ _, ?_⟩
    intro earlier hearlier later hlater input input' time time' haccepts haccepts' hauthority
      hdigest
    obtain rfl := List.mem_singleton.mp hlater
    obtain ⟨hnone, -, hclock, timestamp', expiry', hacceptable'⟩ := step_accepts hstep haccepts'
    obtain ⟨timestamp, expiry, hacceptable⟩ := h.acceptable earlier hearlier input time haccepts
    -- The nonce is no longer in its table, so the request has expired.
    have hexpired : expiry ≤ s.clock := by
      rcases h.remembered earlier hearlier input time haccepts with
        ⟨row, hrow, hsame, hsameDigest, -⟩ | ⟨other, hother, hle⟩
      · rw [nonceExists, ← hauthority] at hnone
        rw [List.any_eq_false] at hnone
        exact absurd (by simp [hsame, hsameDigest, hdigest]) (hnone row hrow)
      · rw [hacceptable.expires] at hother
        rw [Option.some.inj hother]
        exact hle
    refine ⟨?_, expiry, hacceptable.expires, le_trans hexpired hclock⟩
    intro hsame
    have htimestamps : timestamp = timestamp' := by
      have hparsed := hacceptable.parsed
      rw [hsame, hacceptable'.parsed] at hparsed
      exact (Option.some.inj hparsed).symm
    have hlive := hacceptable'.live
    rw [hacceptable'.ttl, ← htimestamps, ← hacceptable.ttl] at hlive
    omega

theorem unreplayed_start (start : Int) : Unreplayed runtime [] ⟨⟨[], []⟩, start⟩ where
  remembered := fun _ hevent => absurd hevent List.not_mem_nil
  acceptable := fun _ hevent => absurd hevent List.not_mem_nil
  pairwise := List.Pairwise.nil

theorem expiryKnown_start (start : Int) : ExpiryKnown runtime ⟨⟨[], []⟩, start⟩ := by
  intro kind row hrow
  cases kind <;> exact absurd hrow List.not_mem_nil

/-- A request is accepted once under its authority; a digest that is accepted again is so
for a request of another time, no earlier than the expiry of the first; a nonce is only
removed once it has expired; and the time of an accepted request is within a minute of the
database clock. -/
theorem requests_not_replayed {start : Int} {events : List NonceEvent}
    (h : Run (NonceSystem.Step runtime) ⟨⟨[], []⟩, start⟩ events s) :
    events.Pairwise (NotReplayed runtime) ∧
    (∀ event ∈ events, ∀ input time, event.Accepts input time →
      ∃ timestamp, runtime.dates.parse input.timestamp = some timestamp ∧
        (timestamp - time).natAbs ≤ 60000) ∧
    ∀ before event after, events = before ++ event :: after → ∀ s₁ s₂,
      Run (NonceSystem.Step runtime) ⟨⟨[], []⟩, start⟩ before s₁ → s₁.Step runtime event s₂ →
      ∀ kind, ∀ row ∈ s₁.store.rows kind, row ∉ s₂.store.rows kind →
        ∃ expiry, runtime.dates.parse row.expiresAt = some expiry ∧
          expiry ≤ event.call.removalTime kind row := by
  have hunreplayed := Run.invariant_of_history
    (fun past s e s' hstep (hI : Unreplayed runtime past s) => unreplayed_step hstep hI) h
    (unreplayed_start start)
  rw [List.nil_append] at hunreplayed
  refine ⟨hunreplayed.pairwise, ?_, ?_⟩
  · intro event hevent input time haccepts
    obtain ⟨timestamp, expiry, hacceptable⟩ :=
      hunreplayed.acceptable event hevent input time haccepts
    exact ⟨timestamp, hacceptable.parsed, hacceptable.window⟩
  · intro before event after _ s₁ s₂ hbefore hstep kind row hrow hgone
    have hknown := Run.invariant
      (fun s e s' hstep (hI : ExpiryKnown runtime s) => expiryKnown_step hstep hI) hbefore
      (expiryKnown_start start)
    exact removed_after_expiry hstep hknown hrow hgone

end Runs

/-- Dates as they are at the times of the witness. -/
def minuteDates : DateText :=
  .ofList [(0, "1970-01-01T00:00:00.000Z"), (60000, "1970-01-01T00:01:00.000Z"),
    (120000, "1970-01-01T00:02:00.000Z")] (by decide +kernel)

def minuteRuntime : NonceRuntime where
  dates := minuteDates
  isIdentifier text := text != ""
  rowLe a b := utf16Le a.nonceSha256 b.nonceSha256

/-- A request of a worker at a time, with the one nonce of the witness. -/
def minuteRequest (timestamp expiresAt : String) : RemoteWorkerNonceConsumeInput where
  authority := .credential "workspace-1" "worker-1" 1 1 "credential-1"
  nonceSha256 := String.ofList (List.replicate 64 'a')
  timestamp := timestamp
  expiresAt := expiresAt

/-- All the readings of the clock are of one time. -/
def PruneClock.still (time : Int) : PruneClock :=
  ⟨time, fun _ => time⟩

def ConsumeClock.still (time : Int) : ConsumeClock :=
  ⟨.still time, time, time⟩

theorem PruneClock.still_between {start time : Int} (h : start ≤ time) :
    (PruneClock.still time).Between start time :=
  ⟨h, fun _ => ⟨le_refl _, le_refl _⟩⟩

theorem ConsumeClock.still_between (time : Int) (input : RemoteWorkerNonceConsumeInput)
    {start : Int} (h : start ≤ time) :
    (NonceCall.consume input (.still time) true).Between start time :=
  ⟨PruneClock.still_between h, le_refl _, le_refl _⟩

/-- A nonce is accepted, refused while it is in its table, removed at its expiry, and
accepted for a request of another time. -/
theorem nonce_accepted_twice :
    let first := minuteRequest "1970-01-01T00:00:00.000Z" "1970-01-01T00:01:00.000Z"
    let second := minuteRequest "1970-01-01T00:01:00.000Z" "1970-01-01T00:02:00.000Z"
    first.timestamp ≠ second.timestamp ∧
      ∃ expiry, minuteDates.parse first.expiresAt = some expiry ∧ expiry ≤ 60000 := by
  intro first second
  let events : List NonceEvent :=
    [⟨.consume first (.still 0) true, some true⟩, ⟨.consume first (.still 59999) true, some false⟩,
      ⟨.pruneExpired none (.still 60000) (.still 60000), none⟩,
      ⟨.consume second (.still 60000) true, some true⟩]
  let row (input : RemoteWorkerNonceConsumeInput) (consumedAt : Int) : NonceRow :=
    ⟨input.authority, input.nonceSha256, input.timestamp, consumedAt, input.expiresAt⟩
  have hrun : Run (NonceSystem.Step minuteRuntime) ⟨⟨[], []⟩, 0⟩ events
      ⟨⟨[], [row second 60000]⟩, 60000⟩ := by
    refine @Run.cons _ _ _ _ ⟨⟨[], [row first 0]⟩, 0⟩ _ _ _ ?_
      (@Run.cons _ _ _ _ ⟨⟨[], [row first 0]⟩, 59999⟩ _ _ _ ?_
        (@Run.cons _ _ _ _ ⟨⟨[], []⟩, 60000⟩ _ _ _ ?_ (.single ?_)))
    · refine ⟨ConsumeClock.still_between 0 first (le_refl _), ?_⟩
      have hperform : (NonceCall.consume first (.still 0) true).perform minuteRuntime ⟨[], []⟩ =
          .ok (some true, ⟨[], [row first 0]⟩) := by decide +kernel
      rw [hperform]
      exact ⟨rfl, rfl⟩
    · refine ⟨ConsumeClock.still_between 59999 first (by decide), ?_⟩
      have hperform : (NonceCall.consume first (.still 59999) true).perform minuteRuntime
          ⟨[], [row first 0]⟩ = .ok (some false, ⟨[], [row first 0]⟩) := by decide +kernel
      rw [hperform]
      exact ⟨rfl, rfl⟩
    · refine ⟨⟨60000, PruneClock.still_between (by decide),
        PruneClock.still_between (le_refl _)⟩, ?_⟩
      have hperform : (NonceCall.pruneExpired none (.still 60000) (.still 60000)).perform
          minuteRuntime ⟨[], [row first 0]⟩ = .ok (none, ⟨[], []⟩) := by decide +kernel
      rw [hperform]
      exact ⟨rfl, rfl⟩
    · refine ⟨ConsumeClock.still_between 60000 second (le_refl _), ?_⟩
      have hperform : (NonceCall.consume second (.still 60000) true).perform minuteRuntime
          ⟨[], []⟩ = .ok (some true, ⟨[], [row second 60000]⟩) := by decide +kernel
      rw [hperform]
      exact ⟨rfl, rfl⟩
  obtain ⟨hfirst, -⟩ := List.pairwise_cons.mp (requests_not_replayed hrun).1
  exact hfirst ⟨.consume second (.still 60000) true, some true⟩
    (List.mem_cons_of_mem _ (List.mem_cons_of_mem _ List.mem_cons_self)) first second 0 60000
    ⟨.still 0, true, rfl, rfl, rfl⟩ ⟨.still 60000, true, rfl, rfl, rfl⟩ rfl rfl

end GoatCitadel.RemoteWorker
