import Mathlib.Algebra.Order.Ring.Int
import Mathlib.Logic.Function.Basic
import GoatCitadel.Support.Runs

/-!
# The lock of an audit file

A process holds the lock of a file while a directory that it has made exists.  A
directory that is older than a minute counts as left behind, and is removed by whoever
finds it.  Looking at the directory and removing it are two steps, and the second one
removes whatever directory is there by then.

Exclusion holds along every run in which each removal meets the directory that it is
meant for, or none.
-/

namespace GoatCitadel.Storage.AuditFileLock

open GoatCitadel.Support

/-! ## Processes -/

/-- `AUDIT_FILE_LOCK_ACQUIRE_TIMEOUT_MS` -/
def acquireTimeoutMs : Int := 10000

/-- `AUDIT_FILE_LOCK_STALE_MS` -/
def staleMs : Int := 60000

/-- A lock directory.  `serial` tells the directories that are made one after the other
apart, and is read by no process. -/
structure LockDir where
  mtimeMs : Int
  serial : Nat
  deriving DecidableEq

/-- A file is written in the directory. -/
def LockDir.touch (mtimeMs : Int) (dir : LockDir) : LockDir :=
  { dir with mtimeMs }

/-- Where a process is between two file system steps. -/
inductive Phase
  | idle
  /-- In `acquireAuditFileLock`, before `mkdir`. -/
  | making (startedAt : Int)
  /-- In `removeStaleAuditFileLock`, before `stat`. -/
  | probing (startedAt : Int)
  /-- In `removeStaleAuditFileLock`, before `rm`. -/
  | removing (startedAt : Int) (judged : Nat)
  /-- The directory is no one's to remove. -/
  | waiting (startedAt : Int)
  /-- In `writeAuditLockOwner`. -/
  | owning (serial : Nat) (since : Int)
  /-- In the operation. -/
  | inside (serial : Nat) (since : Int)
  /-- In `releaseAuditFileLock`, before `rm`. -/
  | releasing (serial : Nat)
  deriving DecidableEq

/-- The directory that a process has made and holds the lock by, and since when. -/
def Phase.holds : Phase → Option (Nat × Int)
  | .owning serial since => some (serial, since)
  | .inside serial since => some (serial, since)
  | _ => none

structure AuditLock where
  dir : Option LockDir
  made : Nat
  now : Int
  phase : Nat → Phase

namespace AuditLock

def setPhase (s : AuditLock) (p : Nat) (phase : Phase) : AuditLock :=
  { s with phase := Function.update s.phase p phase }

@[simp] theorem setPhase_dir (s : AuditLock) (p : Nat) (phase : Phase) :
    (s.setPhase p phase).dir = s.dir := rfl

@[simp] theorem setPhase_made (s : AuditLock) (p : Nat) (phase : Phase) :
    (s.setPhase p phase).made = s.made := rfl

@[simp] theorem setPhase_now (s : AuditLock) (p : Nat) (phase : Phase) :
    (s.setPhase p phase).now = s.now := rfl

theorem setPhase_phase (s : AuditLock) (p q : Nat) (phase : Phase) :
    (s.setPhase p phase).phase q = if q = p then phase else s.phase q := by
  rw [setPhase]
  exact Function.update_apply s.phase p phase q

/-- Before any process has begun.  A directory may have been left behind. -/
structure Initial (s : AuditLock) : Prop where
  idle : ∀ p, s.phase p = .idle
  serial : ∀ dir, s.dir = some dir → dir.serial < s.made

end AuditLock

/-! ## Steps -/

/-- What happens in one step: a step of a process, or the passing of time. -/
inductive LockEvent
  | start (p : Nat)
  | mkdir (p : Nat)
  | stat (p : Nat)
  | rmStale (p : Nat)
  | retry (p : Nat)
  | writeOwner (p : Nat)
  | leave (p : Nat)
  | rm (p : Nat)
  | crash (p : Nat)
  | tick (now : Int)
  deriving DecidableEq

inductive Step : AuditLock → LockEvent → AuditLock → Prop
  | start {s : AuditLock} {p : Nat} : s.phase p = .idle →
      Step s (.start p) (s.setPhase p (.making s.now))
  | mkdirMade {s : AuditLock} {p : Nat} {startedAt : Int} : s.phase p = .making startedAt →
      s.dir = none →
      Step s (.mkdir p)
        ({ s with dir := some ⟨s.now, s.made⟩, made := s.made + 1 }.setPhase p
          (.owning s.made s.now))
  /-- `EEXIST`, or `EPERM` and `EACCES`, which need no directory. -/
  | mkdirRefused {s : AuditLock} {p : Nat} {startedAt : Int} : s.phase p = .making startedAt →
      Step s (.mkdir p) (s.setPhase p (.probing startedAt))
  /-- Any other error is thrown. -/
  | mkdirFailed {s : AuditLock} {p : Nat} {startedAt : Int} : s.phase p = .making startedAt →
      Step s (.mkdir p) (s.setPhase p .idle)
  | statGone {s : AuditLock} {p : Nat} {startedAt : Int} : s.phase p = .probing startedAt →
      s.dir = none →
      Step s (.stat p) (s.setPhase p (.making startedAt))
  /-- `EPERM` and `EACCES` -/
  | statDenied {s : AuditLock} {p : Nat} {startedAt : Int} : s.phase p = .probing startedAt →
      Step s (.stat p) (s.setPhase p (.waiting startedAt))
  | statFailed {s : AuditLock} {p : Nat} {startedAt : Int} : s.phase p = .probing startedAt →
      Step s (.stat p) (s.setPhase p .idle)
  | statFresh {s : AuditLock} {p : Nat} {startedAt : Int} {dir : LockDir} :
      s.phase p = .probing startedAt → s.dir = some dir → s.now - dir.mtimeMs < staleMs →
      Step s (.stat p) (s.setPhase p (.waiting startedAt))
  | statStale {s : AuditLock} {p : Nat} {startedAt : Int} {dir : LockDir} :
      s.phase p = .probing startedAt → s.dir = some dir → ¬s.now - dir.mtimeMs < staleMs →
      Step s (.stat p) (s.setPhase p (.removing startedAt dir.serial))
  | rmStale {s : AuditLock} {p judged : Nat} {startedAt : Int} :
      s.phase p = .removing startedAt judged →
      Step s (.rmStale p) ({ s with dir := none }.setPhase p (.making startedAt))
  | retry {s : AuditLock} {p : Nat} {startedAt : Int} : s.phase p = .waiting startedAt →
      s.now - startedAt < acquireTimeoutMs →
      Step s (.retry p) (s.setPhase p (.making startedAt))
  | timeOut {s : AuditLock} {p : Nat} {startedAt : Int} : s.phase p = .waiting startedAt →
      ¬s.now - startedAt < acquireTimeoutMs →
      Step s (.retry p) (s.setPhase p .idle)
  /-- The owner file makes the directory that is there newer. -/
  | writeOwner {s : AuditLock} {p serial : Nat} {since : Int} :
      s.phase p = .owning serial since →
      Step s (.writeOwner p)
        ({ s with dir := s.dir.map (LockDir.touch s.now) }.setPhase p (.inside serial since))
  /-- Errors of `writeAuditLockOwner` are ignored. -/
  | writeOwnerFailed {s : AuditLock} {p serial : Nat} {since : Int} :
      s.phase p = .owning serial since →
      Step s (.writeOwner p) (s.setPhase p (.inside serial since))
  | leave {s : AuditLock} {p serial : Nat} {since : Int} : s.phase p = .inside serial since →
      Step s (.leave p) (s.setPhase p (.releasing serial))
  | rm {s : AuditLock} {p serial : Nat} : s.phase p = .releasing serial →
      Step s (.rm p) ({ s with dir := none }.setPhase p .idle)
  | crash {s : AuditLock} {p : Nat} : Step s (.crash p) (s.setPhase p .idle)
  /-- Every process leaves its critical section before its directory counts as stale. -/
  | tick {s : AuditLock} {now : Int} : s.now ≤ now →
      (∀ p serial since, (s.phase p).holds = some (serial, since) → now - since < staleMs) →
      Step s (.tick now) { s with now := now }

/-- No two processes are in their critical sections at once. -/
def Excludes (s : AuditLock) : Prop :=
  ∀ p q, (s.phase p).holds.isSome = true → (s.phase q).holds.isSome = true → p = q

/-- A removal meets the directory that it is meant for, or none: the one that was judged
stale, or the one that the process has made. -/
def RemovesItsOwn (s : AuditLock) : LockEvent → Prop
  | .rmStale p => ∀ startedAt judged, s.phase p = .removing startedAt judged →
      ∀ dir, s.dir = some dir → dir.serial = judged
  | .rm p => ∀ serial, s.phase p = .releasing serial →
      ∀ dir, s.dir = some dir → dir.serial = serial
  | _ => True

/-! ## Exclusion -/

/-- The directories are numbered as they are made. -/
def Phase.serial : Phase → Option Nat
  | .removing _ judged => some judged
  | .owning serial _ => some serial
  | .inside serial _ => some serial
  | .releasing serial => some serial
  | _ => none

/-- Whoever holds the lock holds it by the directory that is there, and no one is about to
remove that directory. -/
structure Guarded (s : AuditLock) : Prop where
  dirSerial : ∀ dir, s.dir = some dir → dir.serial < s.made
  serial : ∀ p serial, (s.phase p).serial = some serial → serial < s.made
  held : ∀ p serial since, (s.phase p).holds = some (serial, since) →
    since ≤ s.now ∧ s.now - since < staleMs ∧
      ∃ dir, s.dir = some dir ∧ dir.serial = serial ∧ since ≤ dir.mtimeMs
  /-- Only its holder knows a directory by which the lock is held. -/
  known : ∀ p q serial since, (s.phase p).holds = some (serial, since) →
    (s.phase q).serial = some serial → p = q

theorem guarded_of_initial {s : AuditLock} (h : s.Initial) : Guarded s where
  dirSerial := h.serial
  serial := by
    intro p serial hp
    rw [h.idle p] at hp
    cases hp
  held := by
    intro p serial since hp
    rw [h.idle p] at hp
    cases hp
  known := by
    intro p q serial since hp
    rw [h.idle p] at hp
    cases hp

theorem Phase.serial_of_holds {phase : Phase} {serial : Nat} {since : Int}
    (h : phase.holds = some (serial, since)) : phase.serial = some serial := by
  cases phase with
  | owning serial since =>
      obtain ⟨rfl, rfl⟩ := Prod.mk.inj (Option.some.inj h)
      rfl
  | inside serial since =>
      obtain ⟨rfl, rfl⟩ := Prod.mk.inj (Option.some.inj h)
      rfl
  | _ => cases h

theorem excludes_of_guarded {s : AuditLock} (h : Guarded s) : Excludes s := by
  intro p q hp hq
  obtain ⟨⟨serial, since⟩, hp⟩ := Option.isSome_iff_exists.mp hp
  obtain ⟨⟨serial', since'⟩, hq⟩ := Option.isSome_iff_exists.mp hq
  obtain ⟨-, -, dir, hdir, hserial, -⟩ := h.held p serial since hp
  obtain ⟨-, -, dir', hdir', hserial', -⟩ := h.held q serial' since' hq
  rw [hdir] at hdir'
  obtain rfl := Option.some.inj hdir'
  apply h.known p q serial since hp
  rw [← hserial, hserial']
  exact Phase.serial_of_holds hq

namespace Guarded

variable {s : AuditLock} {p : Nat} {phase : Phase}

/-- A process that comes to hold nothing, and learns of no directory but one that no one
holds the lock by. -/
theorem setPhase_of_holds_none (h : Guarded s) (hnone : phase.holds = none)
    (hserial : ∀ serial, phase.serial = some serial → serial < s.made ∧
      ∀ q since, (s.phase q).holds = some (serial, since) → q = p) :
    Guarded (s.setPhase p phase) where
  dirSerial := h.dirSerial
  serial := by
    intro q serial hq
    rw [AuditLock.setPhase_phase] at hq
    split_ifs at hq
    · exact (hserial serial hq).1
    · exact h.serial q serial hq
  held := by
    intro q serial since hq
    rw [AuditLock.setPhase_phase] at hq
    split_ifs at hq
    · rw [hnone] at hq
      cases hq
    · exact h.held q serial since hq
  known := by
    intro q r serial since hq hr
    rw [AuditLock.setPhase_phase] at hq hr
    split_ifs at hq with hqp
    · rw [hnone] at hq
      cases hq
    · split_ifs at hr with hrp
      · exact absurd ((hserial serial hr).2 q since hq) hqp
      · exact h.known q r serial since hq hr

theorem setPhase_of_serial_none (h : Guarded s) (hnone : phase.serial = none) :
    Guarded (s.setPhase p phase) := by
  apply h.setPhase_of_holds_none
  · cases phase <;> first | rfl | cases hnone
  · intro serial hserial
    rw [hnone] at hserial
    cases hserial

/-- A process that goes on with what it holds. -/
theorem setPhase_of_same (h : Guarded s) (hholds : phase.holds = (s.phase p).holds)
    (hserial : phase.serial = (s.phase p).serial) : Guarded (s.setPhase p phase) := by
  have hsame : ∀ q, ((s.setPhase p phase).phase q).holds = (s.phase q).holds ∧
      ((s.setPhase p phase).phase q).serial = (s.phase q).serial := by
    intro q
    rw [AuditLock.setPhase_phase]
    split_ifs with hqp
    · rw [hqp]
      exact ⟨hholds, hserial⟩
    · exact ⟨rfl, rfl⟩
  constructor
  · exact h.dirSerial
  · intro q serial hq
    rw [(hsame q).2] at hq
    exact h.serial q serial hq
  · intro q serial since hq
    rw [(hsame q).1] at hq
    exact h.held q serial since hq
  · intro q r serial since hq hr
    rw [(hsame q).1] at hq
    rw [(hsame r).2] at hr
    exact h.known q r serial since hq hr

/-- The directory is written to. -/
theorem touched (h : Guarded s) (mtimeMs : Int) (hnow : s.now ≤ mtimeMs) :
    Guarded { s with dir := s.dir.map (LockDir.touch mtimeMs) } where
  dirSerial := by
    intro dir hdir
    obtain ⟨old, hold, rfl⟩ := Option.map_eq_some_iff.mp hdir
    exact h.dirSerial old hold
  serial := h.serial
  held := by
    intro q serial since hq
    obtain ⟨hsince, hshort, dir, hdir, hserial, -⟩ := h.held q serial since hq
    refine ⟨hsince, hshort, dir.touch mtimeMs, ?_, hserial, le_trans hsince hnow⟩
    rw [hdir]
    rfl
  known := h.known

/-- The directory goes when no one holds the lock by it. -/
theorem removed (h : Guarded s)
    (hfree : ∀ q serial since dir, (s.phase q).holds = some (serial, since) →
      s.dir = some dir → dir.serial ≠ serial) : Guarded { s with dir := none } where
  dirSerial := by
    intro dir hdir
    cases hdir
  serial := h.serial
  held := by
    intro q serial since hq
    obtain ⟨-, -, dir, hdir, hserial, -⟩ := h.held q serial since hq
    exact absurd hserial (hfree q serial since dir hq hdir)
  known := h.known

/-- The directory goes when a process knows it, and does not hold the lock by it. -/
theorem removed_of_known {serial : Nat} (h : Guarded s)
    (hserial : (s.phase p).serial = some serial) (hnone : (s.phase p).holds = none)
    (hown : ∀ dir, s.dir = some dir → dir.serial = serial) : Guarded { s with dir := none } := by
  apply h.removed
  intro q held since dir hq hdir hheld
  have hqp : q = p := by
    apply h.known q p held since hq
    rw [hserial, ← hheld, hown dir hdir]
  rw [hqp, hnone] at hq
  cases hq

/-- A process makes its directory where there is none.  No one holds the lock then, and
the new number is new to all. -/
theorem made (h : Guarded s) (hdir : s.dir = none) :
    Guarded ({ s with dir := some ⟨s.now, s.made⟩, made := s.made + 1 }.setPhase p
      (.owning s.made s.now)) := by
  have hnone : ∀ q, (s.phase q).holds = none := by
    intro q
    by_contra hq
    obtain ⟨⟨serial, since⟩, hq⟩ := Option.ne_none_iff_exists'.mp hq
    obtain ⟨-, -, dir, hsome, -⟩ := h.held q serial since hq
    rw [hdir] at hsome
    cases hsome
  constructor
  · intro dir hnew
    obtain rfl := Option.some.inj hnew
    exact Nat.lt_succ_self _
  · intro q serial hq
    rw [AuditLock.setPhase_phase] at hq
    split_ifs at hq
    · obtain rfl := Option.some.inj hq
      exact Nat.lt_succ_self _
    · exact Nat.lt_succ_of_lt (h.serial q serial hq)
  · intro q serial since hq
    rw [AuditLock.setPhase_phase] at hq
    split_ifs at hq
    · obtain ⟨rfl, rfl⟩ := Prod.mk.inj (Option.some.inj hq)
      have hnow : s.now - s.now < staleMs := by
        unfold staleMs
        omega
      exact ⟨le_refl _, hnow, _, rfl, rfl, le_refl _⟩
    · rw [hnone q] at hq
      cases hq
  · intro q r serial since hq hr
    rw [AuditLock.setPhase_phase] at hq hr
    split_ifs at hq with hqp
    · obtain ⟨rfl, rfl⟩ := Prod.mk.inj (Option.some.inj hq)
      split_ifs at hr with hrp
      · rw [hqp, hrp]
      · exact absurd (h.serial r _ hr) (lt_irrefl _)
    · rw [hnone q] at hq
      cases hq

/-- A process judges the directory stale.  No one holds the lock by a stale directory. -/
theorem judged {dir : LockDir} {startedAt : Int} (h : Guarded s) (hdir : s.dir = some dir)
    (hstale : ¬s.now - dir.mtimeMs < staleMs) :
    Guarded (s.setPhase p (.removing startedAt dir.serial)) := by
  apply h.setPhase_of_holds_none rfl
  intro serial hserial
  obtain rfl := Option.some.inj hserial
  refine ⟨h.dirSerial dir hdir, ?_⟩
  intro q since hq
  obtain ⟨-, hsince, held, hheld, -, hmtime⟩ := h.held q _ since hq
  rw [hdir] at hheld
  obtain rfl := Option.some.inj hheld
  omega

/-- A process that leaves its critical section still knows its directory. -/
theorem left {serial : Nat} {since : Int} (h : Guarded s) (hp : s.phase p = .inside serial since) :
    Guarded (s.setPhase p (.releasing serial)) := by
  have hserial : (s.phase p).serial = some serial := by
    rw [hp]
    rfl
  apply h.setPhase_of_holds_none rfl
  intro serial' heq
  obtain rfl := Option.some.inj heq
  exact ⟨h.serial p _ hserial, fun q since' hq => h.known q p _ since' hq hserial⟩

end Guarded

/-- Every step that removes nothing but what it is meant to remove keeps the lock. -/
theorem guarded_step {s s' : AuditLock} {e : LockEvent} (hstep : Step s e s')
    (hown : RemovesItsOwn s e) (h : Guarded s) : Guarded s' := by
  cases hstep with
  | start hp => exact h.setPhase_of_serial_none rfl
  | mkdirMade hp hdir => exact h.made hdir
  | mkdirRefused hp => exact h.setPhase_of_serial_none rfl
  | mkdirFailed hp => exact h.setPhase_of_serial_none rfl
  | statGone hp hdir => exact h.setPhase_of_serial_none rfl
  | statDenied hp => exact h.setPhase_of_serial_none rfl
  | statFailed hp => exact h.setPhase_of_serial_none rfl
  | statFresh hp hdir hfresh => exact h.setPhase_of_serial_none rfl
  | statStale hp hdir hstale => exact h.judged hdir hstale
  | @rmStale p judged startedAt hp =>
      refine Guarded.setPhase_of_serial_none
        (h.removed_of_known (p := p) ?_ ?_ (hown startedAt judged hp)) rfl
      · rw [hp]
        rfl
      · rw [hp]
        rfl
  | retry hp hearly => exact h.setPhase_of_serial_none rfl
  | timeOut hp hlate => exact h.setPhase_of_serial_none rfl
  | @writeOwner p serial since hp =>
      refine Guarded.setPhase_of_same (h.touched s.now (le_refl _)) ?_ ?_
      · rw [hp]
        rfl
      · rw [hp]
        rfl
  | @writeOwnerFailed p serial since hp =>
      refine h.setPhase_of_same ?_ ?_
      · rw [hp]
        rfl
      · rw [hp]
        rfl
  | leave hp => exact h.left hp
  | @rm p serial hp =>
      refine Guarded.setPhase_of_serial_none
        (h.removed_of_known (p := p) ?_ ?_ (hown serial hp)) rfl
      · rw [hp]
        rfl
      · rw [hp]
        rfl
  | crash => exact h.setPhase_of_serial_none rfl
  | tick hlater hshort =>
      refine ⟨h.dirSerial, h.serial, ?_, h.known⟩
      intro q serial since hq
      obtain ⟨hsince, -, hdir⟩ := h.held q serial since hq
      exact ⟨le_trans hsince hlater, hshort q serial since hq, hdir⟩

/-- Along every run in which each removal meets the directory that it is meant for, or
none, no two processes are in their critical sections at once. -/
theorem auditFileLock_excludes_of_removesItsOwn {s s' : AuditLock} {es : List LockEvent}
    (hinitial : s.Initial) (h : Run (Restrict Step RemovesItsOwn) s es s') : Excludes s' := by
  apply excludes_of_guarded
  refine h.invariant ?_ (guarded_of_initial hinitial)
  rintro s e s' ⟨hstep, hown⟩ hguarded
  exact guarded_step hstep hown hguarded

/-! ## A directory that was left behind -/

/-- A directory that was made a hundred seconds ago by a process that is gone. -/
def leftBehind : AuditLock where
  dir := some ⟨0, 0⟩
  made := 1
  now := 100000
  phase := fun _ => .idle

theorem initial_leftBehind : leftBehind.Initial where
  idle := fun _ => rfl
  serial := by
    intro dir hdir
    obtain rfl := Option.some.inj hdir
    exact Nat.zero_lt_one

/-- The first process finds the stale directory, removes it and makes its own.  The second
one waits until that is gone. -/
def takingTurns : List LockEvent :=
  [.start 1, .start 2, .mkdir 1, .mkdir 2, .stat 1, .rmStale 1, .mkdir 1, .writeOwner 1,
    .stat 2, .leave 1, .rm 1, .retry 2, .mkdir 2, .writeOwner 2]

theorem processes_take_turns :
    ∃ s', Run (Restrict Step RemovesItsOwn) leftBehind takingTurns s' ∧
      (s'.phase 2).holds = some (2, 100000) ∧ Excludes s' := by
  obtain ⟨s', hrun, hheld⟩ : ∃ s', Run (Restrict Step RemovesItsOwn) leftBehind takingTurns s' ∧
      (s'.phase 2).holds = some (2, 100000) := by
    refine ⟨_, .cons ⟨.start rfl, trivial⟩ (.cons ⟨.start rfl, trivial⟩
      (.cons ⟨.mkdirRefused rfl, trivial⟩ (.cons ⟨.mkdirRefused rfl, trivial⟩
        (.cons ⟨.statStale rfl rfl (by decide), trivial⟩ (.cons ⟨.rmStale rfl, ?_⟩
          (.cons ⟨.mkdirMade rfl rfl, trivial⟩ (.cons ⟨.writeOwner rfl, trivial⟩
            (.cons ⟨.statFresh rfl rfl (by decide), trivial⟩ (.cons ⟨.leave rfl, trivial⟩
              (.cons ⟨.rm rfl, ?_⟩ (.cons ⟨.retry rfl (by decide), trivial⟩
                (.cons ⟨.mkdirMade rfl rfl, trivial⟩
                  (.single ⟨.writeOwner rfl, trivial⟩))))))))))))), rfl⟩
    · intro startedAt judged hjudged dir hdir
      obtain ⟨-, rfl⟩ := Phase.removing.inj hjudged
      obtain rfl := Option.some.inj hdir
      rfl
    · intro serial hserial dir hdir
      obtain rfl := Phase.releasing.inj hserial
      obtain rfl := Option.some.inj hdir
      rfl
  exact ⟨s', hrun, hheld, auditFileLock_excludes_of_removesItsOwn initial_leftBehind hrun⟩

/-- Both processes find the stale directory.  The second one removes the directory that
the first one has made since. -/
theorem two_processes_inside :
    ¬∀ (s s' : AuditLock) (es : List LockEvent), s.Initial → Run Step s es s' →
      Excludes s' := by
  intro h
  have hrun : Run Step leftBehind
      [.start 1, .start 2, .mkdir 1, .mkdir 2, .stat 1, .stat 2, .rmStale 1, .mkdir 1,
        .writeOwner 1, .rmStale 2, .mkdir 2, .writeOwner 2] _ :=
    .cons (.start rfl) (.cons (.start rfl) (.cons (.mkdirRefused rfl) (.cons (.mkdirRefused rfl)
      (.cons (.statStale rfl rfl (by decide)) (.cons (.statStale rfl rfl (by decide))
        (.cons (.rmStale rfl) (.cons (.mkdirMade rfl rfl) (.cons (.writeOwner rfl)
          (.cons (.rmStale rfl) (.cons (.mkdirMade rfl rfl) (.single (.writeOwner rfl))))))))))))
  exact absurd (h _ _ _ initial_leftBehind hrun 1 2 rfl rfl) (by decide)

end GoatCitadel.Storage.AuditFileLock
