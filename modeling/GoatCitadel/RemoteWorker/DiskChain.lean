import GoatCitadel.RemoteWorker.DiskLayout

/-!
# Geometry and chains of disk layouts

An accepted snapshot lays the reserved and the data partition side by side into the usable
range, and gives the data partition every whole MiB behind the reserved one.  Records that
follow one another are at most four, and the snapshot of the second one is that of all later
ones: it is compared through its canonical text, from which every field can be read off.
-/

namespace GoatCitadel.RemoteWorker

open GoatCitadel.Support
open GoatCitadel.Contracts (Delimited digits_delimited eq_of_membersText_eq
  membersText quote quote_cancel quote_delimited)

/-! ## Accepted plans -/

variable {bytes : List Nat} {plan : DiskLayoutPlan} {snapshot : DiskLayoutSnapshot}
  {sha256BytesHex : List Nat → List Nat}

/-- The sizes of a disk, in bytes. -/
structure PlanSizes (virtual reserved : Nat) : Prop where
  large : 64 * mib ≤ virtual
  even : virtual % (2 * mib) = 0
  room : virtual + 64 * mib ≤ reserved
  small : reserved ≤ 1024 ^ 4

theorem diskSizes_eq_some {virtual reserved : Option Untrusted} {sizes : Nat × Nat}
    (h : diskSizes virtual reserved = some sizes) : PlanSizes sizes.1 sizes.2 := by
  obtain ⟨virtual, _, hrest⟩ := Option.bind_eq_some_iff.mp h
  obtain ⟨reserved, _, hsizes⟩ := Option.bind_eq_some_iff.mp hrest
  split at hsizes
  · exact nomatch hsizes
  · next hfits =>
      obtain rfl := Option.some.inj hsizes
      push Not at hfits
      obtain ⟨hlarge, heven, hroom, hsmall⟩ := hfits
      refine ⟨?_, ?_, ?_, ?_⟩ <;> dsimp only [mib] at * <;> omega

theorem planSizes_of_readSeed {properties : Properties} {seed : DiskLayoutSeed}
    (h : readSeed properties = some seed) :
    PlanSizes seed.virtualDiskBytes seed.reservedDiskBytes := by
  obtain ⟨sizes, hsizes, hrest⟩ := Option.bind_eq_some_iff.mp h
  iterate 6 obtain ⟨_, _, hrest⟩ := Option.bind_eq_some_iff.mp hrest
  obtain rfl := Option.some.inj hrest
  exact diskSizes_eq_some hsizes

theorem planOfSeed_eq_some {seed : DiskLayoutSeed}
    (h : planOfSeed sha256BytesHex seed = some plan) :
    plan.toDiskLayoutSeed = seed := by
  rw [planOfSeed] at h
  split at h
  · exact nomatch h
  · obtain ⟨gptDiskIdentifier, _, hrest⟩ := Option.bind_eq_some_iff.mp h
    obtain ⟨dataPartitionIdentifier, _, hplan⟩ := Option.bind_eq_some_iff.mp hrest
    split at hplan
    · exact nomatch hplan
    · obtain rfl := Option.some.inj hplan
      rfl

theorem planSizes_of_normalize {input : Untrusted}
    (h : normalizeDiskLayoutPlan sha256BytesHex input = some plan) :
    PlanSizes plan.virtualDiskBytes plan.reservedDiskBytes := by
  obtain ⟨properties, _, hfiltered⟩ := Option.bind_eq_some_iff.mp h
  obtain ⟨hcreated, _⟩ := Option.filter_eq_some_iff.mp hfiltered
  obtain ⟨seed, hseed, hplan⟩ := Option.bind_eq_some_iff.mp hcreated
  obtain ⟨_, _, hread⟩ := Option.bind_eq_some_iff.mp hseed
  have hsizes := planSizes_of_readSeed hread
  rwa [← planOfSeed_eq_some hplan] at hsizes

/-! ## Geometry -/

/-- A range of bytes lies in another one. -/
def RangeWithin (start length outerStart outerLength : Nat) : Prop :=
  outerStart ≤ start ∧ start + length ≤ outerStart + outerLength

/-- How the partitions of a snapshot lie on a virtual disk. -/
structure DiskGeometry (virtualDiskBytes : Nat) (snapshot : DiskLayoutSnapshot) : Prop where
  /-- There is something before the usable range. -/
  usableStarts : 0 < snapshot.usableStart
  /-- There is something behind the usable range. -/
  usableEnds : snapshot.usableStart + snapshot.usableLength < virtualDiskBytes
  reserved : RangeWithin snapshot.reservedStart snapshot.reservedLength snapshot.usableStart
    snapshot.usableLength
  data : RangeWithin snapshot.dataStart snapshot.dataLength snapshot.usableStart
    snapshot.usableLength
  apart : snapshot.reservedStart + snapshot.reservedLength ≤ snapshot.dataStart
  dataStart : mib ∣ snapshot.dataStart
  dataEnd : mib ∣ snapshot.dataStart + snapshot.dataLength
  dataLarge : 16 * mib ≤ snapshot.dataLength
  /-- No other aligned range behind the reserved partition is longer. -/
  dataLongest : ∀ start length, mib ∣ start → mib ∣ start + length →
    snapshot.reservedStart + snapshot.reservedLength ≤ start →
    start + length ≤ snapshot.usableStart + snapshot.usableLength →
      length ≤ snapshot.dataLength
  /-- The numbers of the snapshot and the sums that are made of them. -/
  exact : ∀ offset ∈ [virtualDiskBytes, snapshot.usableStart, snapshot.usableLength,
      snapshot.usableStart + snapshot.usableLength, snapshot.reservedStart,
      snapshot.reservedLength, snapshot.reservedStart + snapshot.reservedLength,
      snapshot.dataStart, snapshot.dataLength, snapshot.dataStart + snapshot.dataLength],
    offset ≤ maxSafeInteger

/-- What the checks of a snapshot say. -/
structure SnapshotFits (plan : DiskLayoutPlan) (snapshot : DiskLayoutSnapshot) : Prop where
  usableStart : snapshot.usableStart = 34 * 512
  usableLength : snapshot.usableLength + 67 * 512 = plan.virtualDiskBytes
  reservedStarts : snapshot.usableStart ≤ snapshot.reservedStart
  reservedEarly : snapshot.reservedStart ≤ mib
  reservedShort : snapshot.reservedLength ≤ 128 * mib
  dataStart : snapshot.dataStart =
    alignUp mib (snapshot.reservedStart + snapshot.reservedLength)
  dataLength : snapshot.dataLength =
    alignDown mib (snapshot.usableStart + snapshot.usableLength - snapshot.dataStart)
  remaining : snapshot.dataStart + 16 * mib ≤ snapshot.usableStart + snapshot.usableLength

theorem snapshotFits_of_accepted (h : snapshotAccepted plan bytes snapshot = true)
    (hdata : dataAccepted snapshot = true) : SnapshotFits plan snapshot := by
  simp only [snapshotAccepted, Bool.and_eq_true, Bool.or_eq_true, beq_iff_eq,
    decide_eq_true_eq] at h
  obtain ⟨⟨⟨⟨⟨⟨⟨⟨⟨⟨⟨-, hstart⟩, hlength⟩, -⟩, -⟩, hlow⟩, hhigh⟩, -⟩, hsize⟩, -⟩, -⟩, -⟩ := h
  simp only [dataAccepted, Bool.and_eq_true, beq_iff_eq, decide_eq_true_eq] at hdata
  obtain ⟨⟨hremaining, hdataStart⟩, hdataLength⟩ := hdata
  rw [← hdataStart] at hremaining hdataLength
  rw [remainingBehind] at hremaining hdataLength
  refine ⟨hstart, by omega, hlow, hhigh, ?_, hdataStart, ?_, by omega⟩
  · dsimp only [mib] at hsize ⊢
    omega
  · rw [hdataLength]
    congr 1
    omega

theorem diskGeometry_of_fits (hplan : PlanSizes plan.virtualDiskBytes plan.reservedDiskBytes)
    (h : SnapshotFits plan snapshot) :
    DiskGeometry plan.virtualDiskBytes snapshot := by
  have hmib : 0 < mib := by decide
  have hstarts := h.usableStart
  have hends := h.usableLength
  have hstart : mib ∣ snapshot.dataStart := h.dataStart ▸ dvd_alignUp
  have hlength : mib ∣ snapshot.dataLength := h.dataLength ▸ dvd_alignDown
  have hapart : snapshot.reservedStart + snapshot.reservedLength ≤ snapshot.dataStart :=
    h.dataStart ▸ le_alignUp hmib
  have hremaining := h.remaining
  have hshort : snapshot.dataLength ≤
      snapshot.usableStart + snapshot.usableLength - snapshot.dataStart :=
    h.dataLength ▸ alignDown_le
  have hlarge : 16 * mib ≤ snapshot.dataLength := by
    rw [h.dataLength]
    exact le_alignDown (Nat.dvd_mul_left mib 16) (by omega)
  have hlow := h.reservedStarts
  have hroom := hplan.room
  have hsmall := hplan.small
  refine ⟨by omega, by omega, ⟨hlow, by omega⟩, ⟨by omega, by omega⟩, hapart, hstart,
    hstart.add hlength, hlarge, ?_, ?_⟩
  · intro start length hstart' hstop hbehind hend
    rw [h.dataLength, h.dataStart]
    exact length_le_of_aligned hstart' hstop hbehind hend
  · intro offset hoffset
    have hbound : offset ≤ plan.virtualDiskBytes := by
      simp only [List.mem_cons, List.not_mem_nil, or_false] at hoffset
      omega
    dsimp only [mib] at hroom
    rw [maxSafeInteger]
    omega

/-! ## Accepted records -/

theorem unsignedAt_lt (hbytes : ∀ byte ∈ bytes, byte < 256) (offset length : Nat) :
    unsignedAt bytes offset length < 256 ^ length := by
  have htaken : ∀ byte ∈ (bytes.drop offset).take length, byte < 256 := fun byte hbyte =>
    hbytes byte (List.mem_of_mem_drop (List.mem_of_mem_take hbyte))
  have hlength : ((bytes.drop offset).take length).length ≤ length := by
    rw [List.length_take]
    exact Nat.min_le_left _ _
  exact Nat.lt_of_lt_of_le (Nat.ofDigits_lt_base_pow_length (by decide) htaken)
    (Nat.pow_le_pow_right (by decide) hlength)

theorem hexUnitValue_lt {unit value : Nat} (h : hexUnitValue unit = some value) : value < 16 := by
  rw [hexUnitValue] at h
  split_ifs at h <;> obtain rfl := Option.some.inj h <;> omega

theorem hexToBytes_lt {text : List Nat} (h : hexToBytes text = some bytes) :
    ∀ byte ∈ bytes, byte < 256 := by
  induction text using hexToBytes.induct generalizing bytes with
  | case1 =>
      obtain rfl := Option.some.inj h
      exact fun _ hbyte => absurd hbyte List.not_mem_nil
  | case2 high low rest ih =>
      obtain ⟨highValue, hhigh, hrest⟩ := Option.bind_eq_some_iff.mp h
      obtain ⟨lowValue, hlow, hrest⟩ := Option.bind_eq_some_iff.mp hrest
      obtain ⟨restBytes, hbytes, hcons⟩ := Option.bind_eq_some_iff.mp hrest
      obtain rfl := Option.some.inj hcons
      have hhighSmall := hexUnitValue_lt hhigh
      have hlowSmall := hexUnitValue_lt hlow
      intro byte hbyte
      obtain rfl | hmem := List.mem_cons.mp hbyte
      · omega
      · exact ih hbytes byte hmem
  | case3 => exact nomatch h

/-- The texts of a snapshot are made of code units. -/
structure SnapshotUnits (snapshot : DiskLayoutSnapshot) : Prop where
  identifier : ∀ unit ∈ snapshot.reservedPartitionIdentifierHex, unit < 0x10000
  name : ∀ unit ∈ snapshot.reservedName, unit < 0x10000

theorem textAt_units {text : List Nat} {offset : Nat} (hbytes : ∀ byte ∈ bytes, byte < 256)
    (h : textAt bytes offset = some text) : ∀ unit ∈ text, unit < 0x10000 := by
  simp only [textAt] at h
  split at h
  · exact nomatch h
  · obtain rfl := Option.some.inj h
    intro unit hunit
    obtain ⟨index, _, rfl⟩ := List.mem_map.mp ((List.takeWhile_prefix _).subset hunit)
    exact unsignedAt_lt hbytes _ 2

theorem hexText_units {input : Option Untrusted} {bytes : Nat} {text : List Nat}
    (h : hexText input bytes = some text) : ∀ unit ∈ text, unit < 0x10000 := by
  obtain ⟨-, haccepted⟩ := Option.filter_eq_some_iff.mp h
  simp only [Bool.and_eq_true, List.all_eq_true] at haccepted
  intro unit hunit
  have hhex := haccepted.1.2 unit hunit
  simp only [isHexUnit, Bool.or_eq_true, Bool.and_eq_true, decide_eq_true_eq] at hhex
  omega

theorem readSnapshot_units {recordHex : List Nat} (hbytes : ∀ byte ∈ bytes, byte < 256)
    (h : readSnapshot recordHex bytes = some snapshot) : SnapshotUnits snapshot := by
  iterate 2 obtain ⟨_, _, h⟩ := Option.bind_eq_some_iff.mp h
  obtain ⟨identifier, hidentifier, h⟩ := Option.bind_eq_some_iff.mp h
  iterate 3 obtain ⟨_, _, h⟩ := Option.bind_eq_some_iff.mp h
  obtain ⟨name, hname, h⟩ := Option.bind_eq_some_iff.mp h
  iterate 2 obtain ⟨_, _, h⟩ := Option.bind_eq_some_iff.mp h
  obtain rfl := Option.some.inj h
  exact ⟨hexText_units hidentifier, textAt_units hbytes hname⟩

/-- What the reading of a record promises. -/
structure CheckpointSound (checkpoint : DiskLayoutCheckpoint) : Prop where
  first : 1 ≤ checkpoint.sequence
  last : checkpoint.sequence ≤ 4
  snapshot : checkpoint.snapshot = none ↔ checkpoint.sequence = 1
  sizes : PlanSizes checkpoint.plan.virtualDiskBytes checkpoint.plan.reservedDiskBytes
  fits : ∀ snapshot, checkpoint.snapshot = some snapshot → SnapshotFits checkpoint.plan snapshot
  units : ∀ snapshot, checkpoint.snapshot = some snapshot → SnapshotUnits snapshot

theorem checkpointSound_of_read {expectedPlan input : Untrusted} {checkpoint : DiskLayoutCheckpoint}
    (h : readDiskLayoutCheckpoint sha256BytesHex expectedPlan input = some checkpoint) :
    CheckpointSound checkpoint := by
  obtain ⟨plan, hplan, hrest⟩ := Option.bind_eq_some_iff.mp h
  obtain ⟨recordHex, _, hrest⟩ := Option.bind_eq_some_iff.mp hrest
  obtain ⟨bytes, hbytes, hcheckpoint⟩ := Option.bind_eq_some_iff.mp hrest
  rw [checkpointOf] at hcheckpoint
  split at hcheckpoint
  · next hheader =>
      obtain ⟨snapshot, hsnapshot, rfl⟩ := Option.map_eq_some_iff.mp hcheckpoint
      simp only [headerAccepted, Bool.and_eq_true, decide_eq_true_eq] at hheader
      have hsizes := planSizes_of_normalize hplan
      have hfirst : 1 ≤ sequenceOf bytes := by tauto
      have hlast : sequenceOf bytes ≤ 4 := by tauto
      rw [snapshotInRecord] at hsnapshot
      by_cases hone : sequenceOf bytes = 1
      · rw [if_pos hone] at hsnapshot
        split at hsnapshot
        · obtain rfl := Option.some.inj hsnapshot
          exact ⟨hfirst, hlast, iff_of_true rfl hone, hsizes, nofun, nofun⟩
        · exact nomatch hsnapshot
      · rw [if_neg hone] at hsnapshot
        obtain ⟨found, hfound, rfl⟩ := Option.map_eq_some_iff.mp hsnapshot
        obtain ⟨hread, haccepted⟩ := Option.filter_eq_some_iff.mp hfound
        obtain ⟨hplanned, hdata⟩ := Bool.and_eq_true_iff.mp haccepted
        refine ⟨hfirst, hlast, iff_of_false (Option.some_ne_none _) hone, hsizes, ?_, ?_⟩
        · intro snapshot hsame
          obtain rfl := Option.some.inj hsame
          exact snapshotFits_of_accepted hplanned hdata
        · intro snapshot hsame
          obtain rfl := Option.some.inj hsame
          exact readSnapshot_units (hexToBytes_lt hbytes) hread
  · exact nomatch hcheckpoint

/-! ## Texts of snapshots -/

theorem integerText_natCast (value : Nat) :
    integerText (value : ℚ) = utf16Units (toString value) := by
  rw [integerText, Rat.num_natCast]
  rfl

theorem utf16Units_toString_digits (value : Nat) :
    ∀ unit ∈ utf16Units (toString value), 48 ≤ unit ∧ unit ≤ 57 := by
  intro unit hunit
  obtain ⟨c, hc, hmem⟩ := List.mem_flatMap.mp hunit
  have hrange := isDigit_range (isDigit_of_mem_toString hc)
  rw [if_pos (by omega), List.mem_singleton] at hmem
  rw [hmem]
  exact hrange

theorem integerText_delimited (value other : Nat) :
    Delimited (integerText (value : ℚ)) (integerText (other : ℚ)) := by
  rw [integerText_natCast, integerText_natCast]
  exact digits_delimited (utf16Units_toString_digits value) (utf16Units_toString_digits other)

theorem integerText_injective {value other : Nat}
    (h : integerText (value : ℚ) = integerText (other : ℚ)) : value = other := by
  rw [integerText_natCast, integerText_natCast] at h
  exact toString_nat_injective (utf16Units_injective h)

/-- The members of a snapshot in the order of their keys. -/
def sortedMemberTexts (snapshot : DiskLayoutSnapshot) : List (List Nat × List Nat) :=
  [(utf16Units "dataLength", integerText snapshot.dataLength),
    (utf16Units "dataStart", integerText snapshot.dataStart),
    (utf16Units "reservedAttributes", integerText snapshot.reservedAttributes),
    (utf16Units "reservedLength", integerText snapshot.reservedLength),
    (utf16Units "reservedName", quote snapshot.reservedName),
    (utf16Units "reservedPartitionIdentifierHex",
      quote snapshot.reservedPartitionIdentifierHex),
    (utf16Units "reservedStart", integerText snapshot.reservedStart),
    (utf16Units "usableLength", integerText snapshot.usableLength),
    (utf16Units "usableStart", integerText snapshot.usableStart)]

theorem diskSnapshotText_some (snapshot : DiskLayoutSnapshot) :
    diskSnapshotText (some snapshot) = .ok (123 :: membersText (sortedMemberTexts snapshot)) := rfl

theorem quote_injective {text text' : List Nat} (h : ∀ unit ∈ text, unit < 0x10000)
    (h' : ∀ unit ∈ text', unit < 0x10000) (heq : quote text = quote text') : text = text' := by
  have hsame : quote text ++ [] = quote text' ++ [] := by rw [heq]
  exact (quote_cancel h h' hsame).1

/-- A snapshot can be read off its canonical text. -/
theorem eq_of_diskSnapshotText_eq {snapshot' : DiskLayoutSnapshot} (hunits : SnapshotUnits snapshot)
    (hunits' : SnapshotUnits snapshot')
    (h : diskSnapshotText (some snapshot) = diskSnapshotText (some snapshot')) :
    snapshot = snapshot' := by
  rw [diskSnapshotText_some, diskSnapshotText_some, Except.ok.injEq] at h
  have hname := quote_delimited hunits.name hunits'.name
  have hidentifier := quote_delimited hunits.identifier hunits'.identifier
  have hmembers : sortedMemberTexts snapshot = sortedMemberTexts snapshot' := by
    refine eq_of_membersText_eq ?_ (List.cons.inj h).2
    simp only [sortedMemberTexts, List.forall₂_cons, List.forall₂_nil_left_iff, true_and,
      and_true]
    exact ⟨integerText_delimited _ _, integerText_delimited _ _, integerText_delimited _ _,
      integerText_delimited _ _, hname, hidentifier, integerText_delimited _ _,
      integerText_delimited _ _, integerText_delimited _ _⟩
  simp only [sortedMemberTexts, List.cons.injEq, Prod.mk.injEq, true_and, and_true] at hmembers
  obtain ⟨hdataLength, hdataStart, hattributes, hreservedLength, hnameText, hidentifierText,
    hreservedStart, husableLength, husableStart⟩ := hmembers
  cases snapshot
  cases snapshot'
  simp only [DiskLayoutSnapshot.mk.injEq]
  exact ⟨integerText_injective husableStart, integerText_injective husableLength,
    quote_injective hunits.identifier hunits'.identifier hidentifierText,
    integerText_injective hreservedStart, integerText_injective hreservedLength,
    integerText_injective hattributes, quote_injective hunits.name hunits'.name hnameText,
    integerText_injective hdataStart, integerText_injective hdataLength⟩

/-! ## Chains -/

/-- The snapshot of the earlier record is that of the later one. -/
def KeepsSnapshot (earlier later : DiskLayoutCheckpoint) : Prop :=
  ∀ snapshot, earlier.snapshot = some snapshot → later.snapshot = some snapshot

theorem KeepsSnapshot.trans {first second third : DiskLayoutCheckpoint}
    (h : KeepsSnapshot first second) (h' : KeepsSnapshot second third) :
    KeepsSnapshot first third :=
  fun snapshot hsnapshot => h' snapshot (h snapshot hsnapshot)

section

variable {sha256BytesHex : List Nat → List Nat} {expectedPlan : Untrusted}

/-- A record that follows keeps the snapshot and has the next number. -/
theorem keepsSnapshot_of_follows {checked prior : DiskLayoutCheckpoint}
    (hchecked : CheckpointSound checked) (hprior : CheckpointSound prior)
    (h : follows checked (some prior) = true) :
    checked.sequence = prior.sequence + 1 ∧ KeepsSnapshot prior checked := by
  simp only [follows, Bool.and_eq_true, beq_iff_eq, Bool.or_eq_true, decide_eq_true_eq] at h
  obtain ⟨⟨hsequence, -⟩, hsnapshot⟩ := h
  refine ⟨hsequence, ?_⟩
  intro snapshot hsome
  rw [hsome] at hsnapshot
  have htexts := hsnapshot.resolve_left Bool.false_ne_true
  cases hnext : checked.snapshot with
  | none =>
      have hone := hchecked.snapshot.mp hnext
      have hfirst := hprior.first
      omega
  | some snapshot' =>
      rw [hnext] at htexts
      exact congrArg some (eq_of_diskSnapshotText_eq (hchecked.units _ hnext)
        (hprior.units _ hsome) htexts)

variable (sha256BytesHex expectedPlan) in
/-- Each checkpoint is accepted after the previous one. -/
def IsDiskLayoutChain : Option DiskLayoutCheckpoint → List DiskLayoutCheckpoint → Prop
  | _, [] => True
  | previous, next :: rest =>
      isDiskLayoutSuccessor sha256BytesHex expectedPlan previous next = true ∧
        IsDiskLayoutChain (some next) rest

variable (sha256BytesHex expectedPlan) in
/-- The checkpoint as it is read from the record of another one. -/
def ReadsAs (checkpoint checked : DiskLayoutCheckpoint) : Prop :=
  readDiskLayoutCheckpoint sha256BytesHex expectedPlan (.text checkpoint.recordHex) = some checked

/-- The checkpoints of a chain are numbered from `first` on and keep their snapshot. -/
structure ChainSound (first : Nat) (checked : List DiskLayoutCheckpoint) : Prop where
  sound : ∀ checkpoint ∈ checked, CheckpointSound checkpoint
  numbered : checked.map (·.sequence) = List.range' first checked.length
  kept : checked.Pairwise KeepsSnapshot

theorem ChainSound.cons {checkpoint : DiskLayoutCheckpoint} {checked : List DiskLayoutCheckpoint}
    (hsound : CheckpointSound checkpoint) (hchecked : ChainSound (checkpoint.sequence + 1) checked)
    (hkept : ∀ next ∈ checked.head?, KeepsSnapshot checkpoint next) :
    ChainSound checkpoint.sequence (checkpoint :: checked) := by
  refine ⟨List.forall_mem_cons.mpr ⟨hsound, hchecked.sound⟩, ?_, ?_⟩
  · rw [List.map_cons, hchecked.numbered, List.length_cons, List.range'_succ]
  · refine List.pairwise_cons.mpr ⟨?_, hchecked.kept⟩
    intro later hlater
    cases checked with
    | nil => exact absurd hlater List.not_mem_nil
    | cons next rest =>
        have hnext := hkept next rfl
        obtain rfl | hrest := List.mem_cons.mp hlater
        · exact hnext
        · exact hnext.trans ((List.pairwise_cons.mp hchecked.kept).1 later hrest)

theorem exists_of_isDiskLayoutSuccessor {previous : Option DiskLayoutCheckpoint}
    {next : DiskLayoutCheckpoint}
    (h : isDiskLayoutSuccessor sha256BytesHex expectedPlan previous next = true) :
    ∃ checked prior, ReadsAs sha256BytesHex expectedPlan next checked ∧
      readPrevious sha256BytesHex expectedPlan previous = some prior ∧
      follows checked prior = true := by
  obtain ⟨checked, hread, hany⟩ := (Option.any_eq_true _ _).mp h
  obtain ⟨prior, hprior, hfollows⟩ := (Option.any_eq_true _ _).mp hany
  exact ⟨checked, prior, hread, hprior, hfollows⟩

/-- The checkpoints behind one that reads as `prior`. -/
theorem chainSound_behind {previous prior : DiskLayoutCheckpoint}
    {chain : List DiskLayoutCheckpoint}
    (hprevious : ReadsAs sha256BytesHex expectedPlan previous prior)
    (h : IsDiskLayoutChain sha256BytesHex expectedPlan (some previous) chain) :
    ∃ checked, List.Forall₂ (ReadsAs sha256BytesHex expectedPlan) chain checked ∧
      ChainSound (prior.sequence + 1) checked ∧
      ∀ next ∈ checked.head?, KeepsSnapshot prior next := by
  induction chain generalizing previous prior with
  | nil =>
      refine ⟨[], .nil, ⟨?_, rfl, .nil⟩, ?_⟩
      · exact fun _ hmem => absurd hmem List.not_mem_nil
      · exact fun _ hmem => nomatch hmem
  | cons next rest ih =>
      obtain ⟨hnext, hrest⟩ := h
      obtain ⟨checked, prior', hread, hprior, hfollows⟩ := exists_of_isDiskLayoutSuccessor hnext
      have hsame : readPrevious sha256BytesHex expectedPlan (some previous) = some (some prior) :=
        congrArg (Option.map some) hprevious
      obtain rfl := Option.some.inj (hprior.symm.trans hsame)
      have hchecked := checkpointSound_of_read hread
      obtain ⟨hsequence, hkeeps⟩ := keepsSnapshot_of_follows hchecked
        (checkpointSound_of_read hprevious) hfollows
      obtain ⟨later, hlater, hsound, hkept⟩ := ih hread hrest
      refine ⟨checked :: later, .cons hread hlater, ?_, ?_⟩
      · rw [← hsequence]
        exact hsound.cons hchecked hkept
      · intro head hhead
        obtain rfl := Option.some.inj hhead
        exact hkeeps

/-- The checkpoints of a chain are numbered from one on. -/
theorem chainSound_of_chain {chain : List DiskLayoutCheckpoint}
    (h : IsDiskLayoutChain sha256BytesHex expectedPlan none chain) :
    ∃ checked, List.Forall₂ (ReadsAs sha256BytesHex expectedPlan) chain checked ∧
      ChainSound 1 checked := by
  cases chain with
  | nil => exact ⟨[], .nil, fun _ hmem => absurd hmem List.not_mem_nil, rfl, .nil⟩
  | cons next rest =>
      obtain ⟨hnext, hrest⟩ := h
      obtain ⟨checked, prior, hread, hprior, hfollows⟩ := exists_of_isDiskLayoutSuccessor hnext
      obtain rfl := Option.some.inj hprior
      have hone : checked.sequence = 1 := by
        simp only [follows, Bool.and_eq_true, beq_iff_eq] at hfollows
        exact hfollows.1
      obtain ⟨later, hlater, hsound, hkept⟩ := chainSound_behind hread hrest
      refine ⟨checked :: later, .cons hread hlater, ?_⟩
      rw [← hone]
      exact hsound.cons (checkpointSound_of_read hread) hkept

/-- Numbers from one on that do not exceed four are at most four. -/
theorem ChainSound.length_le {checked : List DiskLayoutCheckpoint} (h : ChainSound 1 checked) :
    checked.length ≤ 4 := by
  by_contra hlong
  have hmem : 5 ∈ checked.map (·.sequence) := by
    rw [h.numbered, List.mem_range'_1]
    omega
  obtain ⟨checkpoint, hcheckpoint, hfive⟩ := List.mem_map.mp hmem
  have hlast := (h.sound checkpoint hcheckpoint).last
  omega

end

/-- Every accepted snapshot lays out the disk as `DiskGeometry` says, and every chain of
accepted records is numbered one, two, …, has at most four of them and keeps its snapshot. -/
theorem diskLayout_sound (sha256BytesHex : List Nat → List Nat) (expectedPlan : Untrusted) :
    (∀ input checkpoint snapshot,
      readDiskLayoutCheckpoint sha256BytesHex expectedPlan input = some checkpoint →
        checkpoint.snapshot = some snapshot →
          DiskGeometry checkpoint.plan.virtualDiskBytes snapshot) ∧
    ∀ chain, IsDiskLayoutChain sha256BytesHex expectedPlan none chain →
      ∃ checked, List.Forall₂ (ReadsAs sha256BytesHex expectedPlan) chain checked ∧
        checked.map (·.sequence) = List.range' 1 chain.length ∧ chain.length ≤ 4 ∧
        checked.Pairwise KeepsSnapshot := by
  constructor
  · intro input checkpoint snapshot hread hsnapshot
    have hsound := checkpointSound_of_read hread
    exact diskGeometry_of_fits hsound.sizes (hsound.fits snapshot hsnapshot)
  · intro chain hchain
    obtain ⟨checked, hread, hsound⟩ := chainSound_of_chain hchain
    refine ⟨checked, hread, ?_, ?_, hsound.kept⟩
    · rw [hread.length_eq]
      exact hsound.numbered
    · rw [hread.length_eq]
      exact hsound.length_le

/-! ## An example -/

/-- The bytes of a number, the lowest one first. -/
def lowBytes (length value : Nat) : List Nat :=
  (List.range length).map fun index => value / 256 ^ index % 256

def highBytes (length value : Nat) : List Nat := (lowBytes length value).reverse

/-- The digests of two records; nothing stands before the first one. -/
def sampleRecordDigests : List Nat :=
  [0, 0xb2148b8ac563429c3d7badafbbaa58c1fb998a87cadbf00702079b2aaf0b6ddb,
    0x26a76aace550cbb3ec2a384f5e6c53c796ff1496e7d8253ffea220adafdd8795]

/-- The digests of the records and of the two identifiers. -/
def sampleSha256BytesHex (bytes : List Nat) : List Nat :=
  bytesToHex <| highBytes 32 <|
    if bytes.length = 480 then sampleRecordDigests.getD (sequenceOf bytes) 0
    else if bytes.getLast? = some 1 then
      0x4eddab42e24b62ff3d6d3dafaee72085bea3ca8bffec53eadac84c39ab0f2902
    else 0xe504537b26391f742c32eb9e4b76e10d181ece83f6b9b2d086d9fae8afe16c2e

def sampleDisk : List Nat := highBytes 16 0x11111111222233438405060708090a0b

def sampleIdentity (byte : Nat) : List Nat :=
  highBytes 8 0x6500000000000000 ++ List.replicate 16 byte

def sampleIdentifiers : List (List Nat) :=
  [highBytes 16 0x4eddab42e24b628fbd6d3dafaee72085,
    highBytes 16 0xe504537b26391f84ac32eb9e4b76e10d]

def samplePlan : Untrusted :=
  let hex (bytes : List Nat) : Untrusted := .text (bytesToHex bytes)
  let values := [.text diskLayoutPlanSchemaVersion, hex (List.replicate 32 0x11),
    hex (List.replicate 32 0x31), hex (List.replicate 32 0x42), hex sampleDisk,
    .number (.finite (256 * mib)), .number (.finite (384 * mib)), hex (sampleIdentity 0x21),
    hex (sampleIdentity 0x42)] ++ sampleIdentifiers.map hex
  let keys := "schemaVersion" :: seedKeys ++ ["gptDiskIdentifierHex", "dataPartitionIdentifierHex"]
  .record ((keys.map utf16Units).zip (values.map some)) 0

def sampleName (name : String) : List Nat :=
  ((utf16Units name).flatMap (lowBytes 2)).rightpad 72 0

/-- What the second record says of the disk. -/
def sampleSnapshotBytes : List Nat :=
  lowBytes 8 17408 ++ lowBytes 8 (256 * mib - 34304) ++ lowBytes 4 128 ++
    highBytes 16 0x44444444555566468708090a0b0c0d0e ++ lowBytes 8 mib ++ lowBytes 8 (16 * mib) ++
    lowBytes 8 0 ++ sampleName "Microsoft reserved partition" ++ lowBytes 8 (17 * mib) ++
    lowBytes 8 (238 * mib) ++ lowBytes 8 0x8000000000000000 ++ sampleName "GoatCitadel cell"

def sampleRecord (sequence : Nat) : List Nat :=
  highBytes 8 0x4743434750543031 ++ lowBytes 8 sequence ++
    highBytes 32 (sampleRecordDigests.getD (sequence - 1) 0) ++ sampleDisk ++
    lowBytes 8 (256 * mib) ++ lowBytes 8 (384 * mib) ++ sampleIdentity 0x21 ++
    sampleIdentity 0x42 ++ sampleIdentifiers.flatten ++
    (if sequence = 1 then List.replicate 228 0 else sampleSnapshotBytes) ++ lowBytes 92 512 ++
    highBytes 32 (sampleRecordDigests.getD sequence 0)

def sampleCheckpoint (sequence : Nat) : Option DiskLayoutCheckpoint :=
  readDiskLayoutCheckpoint sampleSha256BytesHex samplePlan
    (.text (bytesToHex (sampleRecord sequence)))

/-- Two records follow one another; on a disk of 256 MiB the second one leaves 238 to the data. -/
example : ((sampleCheckpoint 1).any fun first => (sampleCheckpoint 2).any fun second =>
    isDiskLayoutSuccessor sampleSha256BytesHex samplePlan none first &&
      isDiskLayoutSuccessor sampleSha256BytesHex samplePlan (some first) second &&
      second.snapshot.any fun snapshot => snapshot.dataLength == 238 * mib) = true := by
  decide +kernel

end GoatCitadel.RemoteWorker
