import Mathlib.Data.Prod.Lex
import GoatCitadel.Support.Retention

/-!
# Pruning durable checkpoints

Pruning deletes the checkpoints whose run is gone, the oldest ones of every terminal run, and
then further ones of terminal runs until the rest is within the byte budget.  A checkpoint that a
parent reservation names is never deleted.  The first orders are the database's; the last one
compares with `localeCompare`, which ranks some texts differently.
-/

namespace GoatCitadel.Storage.CheckpointPruning

open GoatCitadel.Support

/-! ## The tables -/

inductive DurableRunStatus
  | queued
  | running
  | waiting
  | paused
  | completed
  | failed
  | cancelled
  | deadLettered

/-- `r.status IN ('completed', 'failed', 'cancelled', 'dead_lettered')` -/
def DurableRunStatus.isTerminal : DurableRunStatus → Bool
  | .completed | .failed | .cancelled | .deadLettered => true
  | .queued | .running | .waiting | .paused => false

/-- A row of `durable_checkpoints`, as far as the pruning reads it. -/
structure DurableCheckpoint where
  checkpointId : String
  runId : String
  stateJson : String
  createdAt : String
  deriving DecidableEq

/-- The tables that the pruning reads: the status under each `run_id`, the checkpoints, and what
the reservations name in `blocked_checkpoint_id`. -/
@[ext]
structure CheckpointTables where
  runStatus : String → Option DurableRunStatus
  checkpoints : List DurableCheckpoint
  blockedCheckpointIds : List String
  checkpoints_keyed : (checkpoints.map DurableCheckpoint.checkpointId).Nodup

/-- The order of the text columns, and what `localeCompare` answers. -/
structure PruneRuntime where
  textLe : String → String → Bool
  textOrder : TextOrder textLe
  localeCompare : String → String → Int

/-- A JavaScript number. -/
inductive JsNumber
  | finite (value : Rat)
  | infinity
  | negativeInfinity
  | nan

/-- `Math.max(least, Math.floor(value))`, where nothing is over the other values. -/
def floorAtLeast (least : Nat) : JsNumber → Option Nat
  | .finite value => some (max (least : Int) value.floor).toNat
  | .negativeInfinity => some least
  | .infinity => none
  | .nan => none

/-- `bytes > limit` -/
def exceeds (limit : Option Nat) (bytes : Int) : Bool :=
  limit.any fun limit => decide ((limit : Int) < bytes)

/-! ## Statements -/

namespace CheckpointTables

variable (tables : CheckpointTables)

/-- `r.run_id IS NULL`, after the left join with the runs -/
def isOrphan (checkpoint : DurableCheckpoint) : Bool :=
  (tables.runStatus checkpoint.runId).isNone

/-- The run is there and terminal. -/
def isTerminal (checkpoint : DurableCheckpoint) : Bool :=
  (tables.runStatus checkpoint.runId).any DurableRunStatus.isTerminal

/-- A reservation names the checkpoint. -/
def isReserved (checkpoint : DurableCheckpoint) : Bool :=
  tables.blockedCheckpointIds.contains checkpoint.checkpointId

/-- The tables without the checkpoints of a selection. -/
def remove (selected : DurableCheckpoint → Bool) : CheckpointTables where
  runStatus := tables.runStatus
  checkpoints := tables.checkpoints.filter fun checkpoint => !selected checkpoint
  blockedCheckpointIds := tables.blockedCheckpointIds
  checkpoints_keyed := tables.checkpoints_keyed.sublist (List.filter_sublist.map _)

/-- `deleteByIdStmt`: the tables afterwards, and the number of changes -/
def deleteById (checkpointId : String) : CheckpointTables × Nat :=
  let selected := fun checkpoint : DurableCheckpoint =>
    decide (checkpoint.checkpointId = checkpointId) && !tables.isReserved checkpoint
  (tables.remove selected, (tables.checkpoints.filter selected).length)

/-- `Buffer.byteLength(value, "utf8")` of the state -/
def byteLength (checkpoint : DurableCheckpoint) : Nat :=
  checkpoint.stateJson.utf8ByteSize

def measureCheckpointBytes : Nat :=
  totalSize byteLength tables.checkpoints

end CheckpointTables

open CheckpointTables

section

variable (runtime : PruneRuntime)

/-- The age of a checkpoint in the database's order: its creation time, then its id. -/
def ageOf (checkpoint : DurableCheckpoint) :
    ColumnText runtime.textOrder ×ₗ ColumnText runtime.textOrder :=
  toLex (⟨checkpoint.createdAt⟩, ⟨checkpoint.checkpointId⟩)

/-- `ORDER BY cp.run_id ASC, cp.created_at ASC, cp.checkpoint_id ASC` -/
def listKey (checkpoint : DurableCheckpoint) :
    ColumnText runtime.textOrder ×ₗ
      (ColumnText runtime.textOrder ×ₗ ColumnText runtime.textOrder) :=
  toLex (⟨checkpoint.runId⟩, ageOf runtime checkpoint)

def terminalCheckpoints (tables : CheckpointTables) : List DurableCheckpoint :=
  inOrder (listKey runtime) (tables.checkpoints.filter tables.isTerminal)

/-- The order that `survivingTerminal.sort` is given. -/
def compareAges (l r : DurableCheckpoint) : Int :=
  if l.createdAt = r.createdAt then runtime.localeCompare l.checkpointId r.checkpointId
  else runtime.localeCompare l.createdAt r.createdAt

def sortByAge (rows : List DurableCheckpoint) : List DurableCheckpoint :=
  rows.insertionSort fun l r => compareAges runtime l r ≤ 0

end

/-! ## Pruning -/

/-- Deletes one row after the other and counts the changes. -/
def deleteEach (rows : List DurableCheckpoint) (tables : CheckpointTables) (count : Nat) :
    CheckpointTables × Nat :=
  rows.foldl (fun (tables, count) row =>
    let (tables, changes) := tables.deleteById row.checkpointId
    (tables, count + changes)) (tables, count)

/-- `Math.max(0, bucket.length - keepPerRun)` -/
def overflowOf (length : Nat) (keepPerRun : Option Nat) : Nat :=
  keepPerRun.elim 0 fun keep => length - keep

structure AgedPass where
  tables : CheckpointTables
  prunedAged : Nat
  survivingTerminal : List DurableCheckpoint

def AgedPass.pruneBucket (keepPerRun : Option Nat) (pass : AgedPass)
    (bucket : List DurableCheckpoint) : AgedPass :=
  let overflow := overflowOf bucket.length keepPerRun
  let (tables, prunedAged) := deleteEach (bucket.take overflow) pass.tables pass.prunedAged
  { tables, prunedAged, survivingTerminal := pass.survivingTerminal ++ bucket.drop overflow }

/-- The loop over the survivors in the order of their ages. -/
def pruneToBudget (budget : Option Nat) :
    List DurableCheckpoint → CheckpointTables → Nat → Int → CheckpointTables × Nat
  | [], tables, prunedAged, _ => (tables, prunedAged)
  | victim :: rest, tables, prunedAged, runningBytes =>
      if exceeds budget runningBytes then
        let (tables, changes) := tables.deleteById victim.checkpointId
        if 0 < changes then
          pruneToBudget budget rest tables (prunedAged + changes)
            (runningBytes - byteLength victim)
        else pruneToBudget budget rest tables prunedAged runningBytes
      else (tables, prunedAged)

structure PruneCheckpointsResult where
  prunedOrphans : Nat
  prunedAged : Nat
  finalBytes : Nat
  diskBudgetBytes : Option Nat

def pruneCheckpoints (runtime : PruneRuntime) (keepPerRun diskBudgetBytes : JsNumber)
    (tables : CheckpointTables) : CheckpointTables × PruneCheckpointsResult :=
  let keepPerRun := floorAtLeast 1 keepPerRun
  let diskBudgetBytes := floorAtLeast 0 diskBudgetBytes
  let orphanRows := tables.checkpoints.filter tables.isOrphan
  let (tables, prunedOrphans) := deleteEach orphanRows tables 0
  let perRunBuckets := groupsOf DurableCheckpoint.runId (terminalCheckpoints runtime tables)
  let pass := perRunBuckets.foldl (AgedPass.pruneBucket keepPerRun)
    { tables, prunedAged := 0, survivingTerminal := [] }
  let runningBytes := pass.tables.measureCheckpointBytes
  let (tables, prunedAged) :=
    if exceeds diskBudgetBytes runningBytes then
      pruneToBudget diskBudgetBytes (sortByAge runtime pass.survivingTerminal) pass.tables
        pass.prunedAged runningBytes
    else (pass.tables, pass.prunedAged)
  (tables, {
    prunedOrphans, prunedAged, finalBytes := tables.measureCheckpointBytes, diskBudgetBytes })

/-! ## Deletions -/

section Deletions

variable {tables : CheckpointTables} {p q : DurableCheckpoint → Bool}
  {rows : List DurableCheckpoint} {checkpoint : DurableCheckpoint}

theorem mem_remove :
    checkpoint ∈ (tables.remove p).checkpoints ↔
      checkpoint ∈ tables.checkpoints ∧ p checkpoint = false := by
  unfold CheckpointTables.remove
  rw [List.mem_filter, Bool.not_eq_true']

theorem remove_remove (p q : DurableCheckpoint → Bool) :
    (tables.remove p).remove q = tables.remove fun checkpoint => p checkpoint || q checkpoint := by
  ext1
  · rfl
  · change List.filter _ (List.filter _ _) = List.filter _ _
    rw [List.filter_filter]
    apply List.filter_congr
    intro checkpoint _
    rw [Bool.not_or, Bool.and_comm]
  · rfl

theorem remove_congr (h : ∀ checkpoint ∈ tables.checkpoints, p checkpoint = q checkpoint) :
    tables.remove p = tables.remove q := by
  ext1
  · rfl
  · apply List.filter_congr
    intro checkpoint hmem
    rw [h checkpoint hmem]
  · rfl

theorem remove_eq_self (h : ∀ checkpoint ∈ tables.checkpoints, p checkpoint = false) :
    tables.remove p = tables := by
  ext1
  · rfl
  · apply List.filter_eq_self.mpr
    intro checkpoint hmem
    rw [h checkpoint hmem]
    rfl
  · rfl

/-- A checkpoint is the only one under its id. -/
theorem eq_of_checkpointId {other : DurableCheckpoint} (h : checkpoint ∈ tables.checkpoints)
    (hother : other ∈ tables.checkpoints) (hid : checkpoint.checkpointId = other.checkpointId) :
    checkpoint = other :=
  List.inj_on_of_nodup_map tables.checkpoints_keyed h hother hid

theorem checkpoints_nodup (tables : CheckpointTables) : tables.checkpoints.Nodup :=
  tables.checkpoints_keyed.of_map _

/-- What the guarded deletions of some rows select. -/
def deletedBy (tables : CheckpointTables) (rows : List DurableCheckpoint)
    (checkpoint : DurableCheckpoint) : Bool :=
  rows.any (fun row => decide (checkpoint.checkpointId = row.checkpointId)) &&
    !tables.isReserved checkpoint

theorem remove_deletedBy_append (rows rest : List DurableCheckpoint) :
    (tables.remove (deletedBy tables rows)).remove (deletedBy tables rest) =
      tables.remove (deletedBy tables (rows ++ rest)) := by
  rw [remove_remove]
  congr 1
  funext checkpoint
  unfold deletedBy
  rw [List.any_append, Bool.and_or_distrib_right]

theorem deleteById_tables (row : DurableCheckpoint) :
    (tables.deleteById row.checkpointId).1 = tables.remove (deletedBy tables [row]) := by
  change tables.remove _ = tables.remove _
  congr 1
  funext checkpoint
  unfold deletedBy
  rw [List.any_cons, List.any_nil, Bool.or_false]

/-- A deletion changes a row exactly when no reservation names it. -/
theorem deleteById_changes_pos_iff (h : checkpoint ∈ tables.checkpoints) :
    0 < (tables.deleteById checkpoint.checkpointId).2 ↔ tables.isReserved checkpoint = false := by
  unfold CheckpointTables.deleteById
  rw [List.length_filter_pos_iff]
  constructor
  · rintro ⟨other, -, hselected⟩
    obtain ⟨hid, hfree⟩ := Bool.and_eq_true_iff.mp hselected
    rw [Bool.not_eq_true'] at hfree
    unfold CheckpointTables.isReserved at hfree ⊢
    rwa [of_decide_eq_true hid] at hfree
  · intro hfree
    refine ⟨checkpoint, h, ?_⟩
    rw [hfree, decide_eq_true rfl]
    rfl

theorem deleteEach_tables (rows : List DurableCheckpoint) (tables : CheckpointTables)
    (count : Nat) :
    (deleteEach rows tables count).1 = tables.remove (deletedBy tables rows) := by
  induction rows generalizing tables count with
  | nil => exact (remove_eq_self fun _ _ => rfl).symm
  | cons row rows ih =>
      have hstep : deleteEach (row :: rows) tables count =
          deleteEach rows (tables.deleteById row.checkpointId).1
            (count + (tables.deleteById row.checkpointId).2) := rfl
      rw [hstep, ih, deleteById_tables]
      exact remove_deletedBy_append [row] rows

theorem deletedBy_iff (hrows : rows ⊆ tables.checkpoints) (h : checkpoint ∈ tables.checkpoints) :
    deletedBy tables rows checkpoint = true ↔
      checkpoint ∈ rows ∧ tables.isReserved checkpoint = false := by
  unfold deletedBy
  rw [Bool.and_eq_true, Bool.not_eq_true', List.any_eq_true]
  constructor
  · rintro ⟨⟨row, hrow, hid⟩, hfree⟩
    obtain rfl := eq_of_checkpointId h (hrows hrow) (of_decide_eq_true hid)
    exact ⟨hrow, hfree⟩
  · rintro ⟨hmem, hfree⟩
    exact ⟨⟨checkpoint, hmem, decide_eq_true rfl⟩, hfree⟩

/-- The measured bytes go down by those of the deleted rows. -/
theorem measure_remove_add (hrows : rows ⊆ tables.checkpoints) (hnodup : rows.Nodup)
    (hfree : ∀ row ∈ rows, tables.isReserved row = false) :
    totalSize byteLength rows +
        (tables.remove (deletedBy tables rows)).measureCheckpointBytes =
      tables.measureCheckpointBytes := by
  have hperm : rows.Perm (tables.checkpoints.filter (deletedBy tables rows)) := by
    apply (List.perm_ext_iff_of_nodup hnodup ((checkpoints_nodup tables).filter _)).mpr
    intro row
    rw [List.mem_filter]
    constructor
    · intro hrow
      exact ⟨hrows hrow, (deletedBy_iff hrows (hrows hrow)).mpr ⟨hrow, hfree row hrow⟩⟩
    · rintro ⟨hmem, hdeleted⟩
      exact ((deletedBy_iff hrows hmem).mp hdeleted).1
  rw [totalSize_perm hperm]
  exact totalSize_filter_add (deletedBy tables rows) tables.checkpoints

end Deletions

/-! ## The passes -/

section Passes

variable {keepPerRun budget : Option Nat}

theorem foldl_pruneBucket (buckets : List (List DurableCheckpoint)) (pass : AgedPass) :
    (buckets.foldl (AgedPass.pruneBucket keepPerRun) pass).tables =
        pass.tables.remove (deletedBy pass.tables (buckets.flatMap fun bucket =>
          bucket.take (overflowOf bucket.length keepPerRun))) ∧
      (buckets.foldl (AgedPass.pruneBucket keepPerRun) pass).survivingTerminal =
        pass.survivingTerminal ++ buckets.flatMap fun bucket =>
          bucket.drop (overflowOf bucket.length keepPerRun) := by
  induction buckets generalizing pass with
  | nil => exact ⟨(remove_eq_self fun _ _ => rfl).symm, (List.append_nil _).symm⟩
  | cons bucket buckets ih =>
      let overflow := overflowOf bucket.length keepPerRun
      have htables : (pass.pruneBucket keepPerRun bucket).tables =
          pass.tables.remove (deletedBy pass.tables (bucket.take overflow)) :=
        deleteEach_tables _ _ _
      have hsurvivors : (pass.pruneBucket keepPerRun bucket).survivingTerminal =
          pass.survivingTerminal ++ bucket.drop overflow := rfl
      obtain ⟨hrest, hlast⟩ := ih (pass.pruneBucket keepPerRun bucket)
      rw [htables] at hrest
      rw [hsurvivors, List.append_assoc] at hlast
      rw [List.foldl_cons, List.flatMap_cons, List.flatMap_cons]
      exact ⟨hrest.trans (remove_deletedBy_append _ _), hlast⟩

/-- The loop deletes the unreserved rows that are taken for the budget. -/
theorem pruneToBudget_tables {victims : List DurableCheckpoint} {tables : CheckpointTables}
    (hvictims : victims ⊆ tables.checkpoints) (hnodup : victims.Nodup) (prunedAged : Nat)
    (runningBytes : Int) :
    (pruneToBudget budget victims tables prunedAged runningBytes).1 =
      tables.remove (deletedBy tables (taken byteLength (exceeds budget)
        (victims.filter fun victim => !tables.isReserved victim) runningBytes)) := by
  induction victims generalizing tables prunedAged runningBytes with
  | nil => exact (remove_eq_self fun _ _ => rfl).symm
  | cons victim rest ih =>
      obtain ⟨hvictim, hrest⟩ := List.cons_subset.mp hvictims
      obtain ⟨hnew, htail⟩ := List.nodup_cons.mp hnodup
      have hone : [victim] ⊆ tables.checkpoints :=
        List.cons_subset.mpr ⟨hvictim, List.nil_subset _⟩
      have hchanges := deleteById_changes_pos_iff hvictim
      unfold pruneToBudget
      by_cases hover : exceeds budget runningBytes = true
      · rw [if_pos hover]
        by_cases hreserved : tables.isReserved victim = true
        · -- the guard of the statement keeps the row
          have hnone : ¬0 < (tables.deleteById victim.checkpointId).2 := by
            rw [hchanges, hreserved]
            decide
          have hsame : (tables.deleteById victim.checkpointId).1 = tables := by
            rw [deleteById_tables]
            apply remove_eq_self
            intro other hother
            apply eq_false_of_ne_true
            intro hdeleted
            obtain ⟨hmem, hfree⟩ := (deletedBy_iff hone hother).mp hdeleted
            rw [List.mem_singleton.mp hmem, hreserved] at hfree
            exact absurd hfree (by decide)
          dsimp only
          rw [if_neg hnone, hsame, ih hrest htail, List.filter_cons_of_neg (by simp [hreserved])]
        · rw [Bool.not_eq_true] at hreserved
          have hstep : (tables.deleteById victim.checkpointId).1 =
              tables.remove (deletedBy tables [victim]) := deleteById_tables victim
          have hkept : rest ⊆ (tables.remove (deletedBy tables [victim])).checkpoints := by
            intro other hother
            rw [mem_remove]
            refine ⟨hrest hother, eq_false_of_ne_true fun hdeleted => ?_⟩
            obtain ⟨hmem, -⟩ := (deletedBy_iff hone (hrest hother)).mp hdeleted
            exact hnew (List.mem_singleton.mp hmem ▸ hother)
          have htaken : taken byteLength (exceeds budget)
              ((victim :: rest).filter fun victim => !tables.isReserved victim) runningBytes =
                victim :: taken byteLength (exceeds budget)
                  (rest.filter fun victim => !tables.isReserved victim)
                  (runningBytes - byteLength victim) := by
            rw [List.filter_cons_of_pos (by simp [hreserved])]
            exact if_pos hover
          dsimp only
          rw [if_pos (hchanges.mpr hreserved), hstep, ih hkept htail, htaken]
          exact remove_deletedBy_append [victim] _
      · rw [if_neg hover, taken_of_not_over (eq_false_of_ne_true hover)]
        exact (remove_eq_self fun _ _ => rfl).symm

end Passes

/-! ## What a pruning deletes -/

section Characterization

variable {runtime : PruneRuntime} {tables : CheckpointTables} {keepPerRun budget : Option Nat}
  {checkpoint : DurableCheckpoint}

variable (runtime tables keepPerRun) in
/-- So many checkpoints of its run are newer. -/
def isOutdated (checkpoint : DurableCheckpoint) : Bool :=
  keepPerRun.any fun keep =>
    decide (keep ≤ (newerThan (ageOf runtime)
      (groupOf DurableCheckpoint.runId tables.checkpoints checkpoint) checkpoint).length)

variable (runtime tables keepPerRun) in
/-- What the first two passes delete: the orphans and the outdated checkpoints of terminal runs
that no reservation names. -/
def isCondemned (checkpoint : DurableCheckpoint) : Bool :=
  !tables.isReserved checkpoint &&
    (tables.isOrphan checkpoint ||
      tables.isTerminal checkpoint && isOutdated runtime tables keepPerRun checkpoint)

variable (runtime tables keepPerRun) in
/-- What the last pass may delete, in the order in which it does. -/
def evictable : List DurableCheckpoint :=
  (sortByAge runtime ((terminalCheckpoints runtime tables).filter fun checkpoint =>
    !isOutdated runtime tables keepPerRun checkpoint)).filter fun checkpoint =>
      !tables.isReserved checkpoint

variable (runtime tables keepPerRun) in
/-- The bytes that the first two passes leave. -/
def leftBytes : Nat :=
  (tables.remove (isCondemned runtime tables keepPerRun)).measureCheckpointBytes

theorem not_isOrphan_of_isTerminal (h : tables.isTerminal checkpoint = true) :
    tables.isOrphan checkpoint = false := by
  unfold CheckpointTables.isTerminal at h
  unfold CheckpointTables.isOrphan
  cases hstatus : tables.runStatus checkpoint.runId with
  | none =>
      rw [hstatus] at h
      exact absurd h Bool.false_ne_true
  | some status => rfl

theorem listKeys_distinct (p : DurableCheckpoint → Bool) :
    (tables.checkpoints.filter p).Pairwise fun a b => listKey runtime a ≠ listKey runtime b := by
  have hids := List.pairwise_map.mp tables.checkpoints_keyed
  refine (hids.sublist List.filter_sublist).imp ?_
  intro a b hids hkeys
  have hage := (Prod.mk.inj (toLex.injective hkeys)).2
  exact hids (congrArg ColumnText.text (Prod.mk.inj (toLex.injective hage)).2)

theorem terminalCheckpoints_increasing :
    (terminalCheckpoints runtime tables).Pairwise fun a b =>
      listKey runtime a < listKey runtime b :=
  inOrder_increasing (listKeys_distinct _)

theorem mem_terminalCheckpoints :
    checkpoint ∈ terminalCheckpoints runtime tables ↔
      checkpoint ∈ tables.checkpoints ∧ tables.isTerminal checkpoint = true := by
  unfold terminalCheckpoints inOrder
  rw [(List.perm_insertionSort _ _).mem_iff, List.mem_filter]

variable (runtime) in
/-- The place of a run in the query. -/
def runRank (runId : String) : ColumnText runtime.textOrder :=
  ⟨runId⟩

theorem runRank_injective : (runRank runtime).Injective := by
  intro a b h
  exact congrArg ColumnText.text h

theorem terminalCheckpoints_by_run :
    (terminalCheckpoints runtime tables).Pairwise fun a b =>
      runRank runtime a.runId ≤ runRank runtime b.runId := by
  refine terminalCheckpoints_increasing.imp ?_
  intro a b hlt
  obtain hrun | ⟨hrun, -⟩ := Prod.Lex.toLex_lt_toLex.mp hlt
  · exact hrun.le
  · exact hrun.le

theorem terminalCheckpoints_by_age :
    (terminalCheckpoints runtime tables).Pairwise fun a b =>
      a.runId = b.runId → ageOf runtime a < ageOf runtime b := by
  refine terminalCheckpoints_increasing.imp ?_
  intro a b hlt hsame
  obtain hrun | ⟨-, hage⟩ := Prod.Lex.toLex_lt_toLex.mp hlt
  · exact absurd (congrArg (runRank runtime) hsame) hrun.ne
  · exact hage

/-- The group of a terminal checkpoint is its whole run. -/
theorem newer_terminalCheckpoints (h : tables.isTerminal checkpoint = true) :
    (newerThan (ageOf runtime) (groupOf DurableCheckpoint.runId
        (terminalCheckpoints runtime tables) checkpoint) checkpoint).length =
      (newerThan (ageOf runtime) (groupOf DurableCheckpoint.runId tables.checkpoints checkpoint)
        checkpoint).length := by
  have hperm : (terminalCheckpoints runtime tables).Perm
      (tables.checkpoints.filter tables.isTerminal) := List.perm_insertionSort _ _
  have hgroup : groupOf DurableCheckpoint.runId (tables.checkpoints.filter tables.isTerminal)
      checkpoint = groupOf DurableCheckpoint.runId tables.checkpoints checkpoint := by
    unfold groupOf
    rw [List.filter_filter]
    apply List.filter_congr
    intro other _
    by_cases hsame : other.runId = checkpoint.runId
    · have hterminal : tables.isTerminal other = true := by
        unfold CheckpointTables.isTerminal at h ⊢
        rwa [hsame]
      rw [hterminal, Bool.and_true]
    · rw [decide_eq_false hsame, Bool.false_and]
  rw [← hgroup]
  exact ((hperm.filter _).filter _).length_eq

variable (runtime) in
/-- The buckets of the second pass. -/
theorem survivors_eq (keepPerRun : Option Nat) :
    ((groupsOf DurableCheckpoint.runId (terminalCheckpoints runtime tables)).flatMap
        fun bucket => bucket.drop (overflowOf bucket.length keepPerRun)) =
      (terminalCheckpoints runtime tables).filter fun checkpoint =>
        !isOutdated runtime tables keepPerRun checkpoint := by
  cases keepPerRun with
  | none =>
      have hall : (terminalCheckpoints runtime tables).filter (fun checkpoint =>
          !isOutdated runtime tables none checkpoint) = terminalCheckpoints runtime tables :=
        List.filter_eq_self.mpr fun _ _ => rfl
      rw [hall, List.flatMap_def]
      exact (congrArg List.flatten (List.map_id' _)).trans
        (flatten_groupsOf runRank_injective terminalCheckpoints_by_run)
  | some keep =>
      refine (newest_of_groups runRank_injective terminalCheckpoints_by_run
        terminalCheckpoints_by_age keep).trans ?_
      apply List.filter_congr
      intro checkpoint hmem
      rw [newer_terminalCheckpoints (mem_terminalCheckpoints.mp hmem).2]
      rfl

variable (runtime) in
theorem mem_victims_iff (keepPerRun : Option Nat) :
    (checkpoint ∈ (groupsOf DurableCheckpoint.runId (terminalCheckpoints runtime tables)).flatMap
        fun bucket => bucket.take (overflowOf bucket.length keepPerRun)) ↔
      checkpoint ∈ tables.checkpoints ∧ tables.isTerminal checkpoint = true ∧
        isOutdated runtime tables keepPerRun checkpoint = true := by
  cases keepPerRun with
  | none =>
      constructor
      · intro h
        obtain ⟨bucket, -, hmem⟩ := List.mem_flatMap.mp h
        exact absurd hmem List.not_mem_nil
      · rintro ⟨-, -, houtdated⟩
        exact absurd houtdated Bool.false_ne_true
  | some keep =>
      refine (mem_oldest_of_groups terminalCheckpoints_by_age).trans ?_
      rw [mem_terminalCheckpoints, and_assoc]
      refine and_congr_right fun _ => and_congr_right fun hterminal => ?_
      rw [newer_terminalCheckpoints hterminal]
      exact decide_eq_true_iff.symm

theorem terminalCheckpoints_remove {p : DurableCheckpoint → Bool}
    (h : ∀ checkpoint ∈ tables.checkpoints, tables.isTerminal checkpoint = true →
      p checkpoint = false) :
    terminalCheckpoints runtime (tables.remove p) = terminalCheckpoints runtime tables := by
  change inOrder _ (List.filter _ (List.filter _ _)) = inOrder _ (List.filter _ _)
  rw [List.filter_filter]
  congr 1
  apply List.filter_congr
  intro checkpoint hmem
  change (tables.isTerminal checkpoint && !p checkpoint) = tables.isTerminal checkpoint
  by_cases hterminal : tables.isTerminal checkpoint = true
  · rw [h checkpoint hmem hterminal, hterminal]
    rfl
  · rw [eq_false_of_ne_true hterminal, Bool.false_and]

variable (runtime tables) in
/-- The state in which the first two passes leave the third one. -/
def afterAged (keepPerRun : Option Nat) : AgedPass :=
  let orphanRows := tables.checkpoints.filter tables.isOrphan
  let tables := (deleteEach orphanRows tables 0).1
  (groupsOf DurableCheckpoint.runId (terminalCheckpoints runtime tables)).foldl
    (AgedPass.pruneBucket keepPerRun) { tables, prunedAged := 0, survivingTerminal := [] }

variable (runtime tables) in
theorem afterAged_eq (keepPerRun : Option Nat) :
    (afterAged runtime tables keepPerRun).tables =
        tables.remove (isCondemned runtime tables keepPerRun) ∧
      (afterAged runtime tables keepPerRun).survivingTerminal =
        (terminalCheckpoints runtime tables).filter fun checkpoint =>
          !isOutdated runtime tables keepPerRun checkpoint := by
  let orphanRows := tables.checkpoints.filter tables.isOrphan
  have horphans : orphanRows ⊆ tables.checkpoints := List.filter_sublist.subset
  have hterminal : terminalCheckpoints runtime (tables.remove (deletedBy tables orphanRows)) =
      terminalCheckpoints runtime tables := by
    apply terminalCheckpoints_remove
    intro checkpoint hmem hterminal
    apply eq_false_of_ne_true
    intro hdeleted
    obtain ⟨horphan, -⟩ := (deletedBy_iff horphans hmem).mp hdeleted
    exact absurd (List.mem_filter.mp horphan).2
      (ne_true_of_eq_false (not_isOrphan_of_isTerminal hterminal))
  let victims := (groupsOf DurableCheckpoint.runId (terminalCheckpoints runtime tables)).flatMap
    fun bucket => bucket.take (overflowOf bucket.length keepPerRun)
  have hvictims : victims ⊆ tables.checkpoints := fun checkpoint hmem =>
    ((mem_victims_iff runtime keepPerRun).mp hmem).1
  have hfold := @foldl_pruneBucket keepPerRun
    (groupsOf DurableCheckpoint.runId (terminalCheckpoints runtime tables))
    ⟨tables.remove (deletedBy tables orphanRows), 0, []⟩
  have hpass : afterAged runtime tables keepPerRun =
      (groupsOf DurableCheckpoint.runId (terminalCheckpoints runtime tables)).foldl
        (AgedPass.pruneBucket keepPerRun)
        ⟨tables.remove (deletedBy tables orphanRows), 0, []⟩ := by
    change (groupsOf _ (terminalCheckpoints runtime (deleteEach orphanRows tables 0).1)).foldl _
      (⟨(deleteEach orphanRows tables 0).1, 0, []⟩ : AgedPass) = _
    rw [deleteEach_tables, hterminal]
  rw [hpass]
  refine ⟨?_, hfold.2.trans (survivors_eq runtime keepPerRun)⟩
  refine hfold.1.trans ((remove_deletedBy_append orphanRows victims).trans (remove_congr ?_))
  intro checkpoint hmem
  rw [Bool.eq_iff_iff, deletedBy_iff (List.append_subset.mpr ⟨horphans, hvictims⟩) hmem,
    List.mem_append, List.mem_filter, mem_victims_iff]
  unfold isCondemned
  rw [Bool.and_eq_true, Bool.or_eq_true, Bool.and_eq_true, Bool.not_eq_true']
  constructor
  · rintro ⟨⟨-, horphan⟩ | ⟨-, hold⟩, hfree⟩
    · exact ⟨hfree, .inl horphan⟩
    · exact ⟨hfree, .inr hold⟩
  · rintro ⟨hfree, horphan | hold⟩
    · exact ⟨.inl ⟨hmem, horphan⟩, hfree⟩
    · exact ⟨.inr ⟨hmem, hold⟩, hfree⟩

theorem mem_evictable :
    checkpoint ∈ evictable runtime tables keepPerRun ↔
      checkpoint ∈ tables.checkpoints ∧ tables.isTerminal checkpoint = true ∧
        isOutdated runtime tables keepPerRun checkpoint = false ∧
        tables.isReserved checkpoint = false := by
  unfold evictable sortByAge
  rw [List.mem_filter, (List.perm_insertionSort _ _).mem_iff, List.mem_filter,
    mem_terminalCheckpoints, Bool.not_eq_true', Bool.not_eq_true', and_assoc, and_assoc]

theorem terminalCheckpoints_nodup : (terminalCheckpoints runtime tables).Nodup :=
  terminalCheckpoints_increasing.imp fun hlt hsame => hlt.ne (congrArg (listKey runtime) hsame)

theorem evictable_nodup : (evictable runtime tables keepPerRun).Nodup := by
  refine List.Nodup.filter _ ?_
  exact (List.perm_insertionSort _ _).nodup_iff.mpr (terminalCheckpoints_nodup.filter _)

variable (runtime tables keepPerRun budget) in
/-- What the last pass deletes. -/
def evicted : List DurableCheckpoint :=
  taken byteLength (exceeds budget) (evictable runtime tables keepPerRun)
    (leftBytes runtime tables keepPerRun)

/-- The pruning deletes what is condemned, and then what is evicted. -/
theorem pruneCheckpoints_tables (runtime : PruneRuntime) (keepPerRun diskBudgetBytes : JsNumber)
    (tables : CheckpointTables) :
    (pruneCheckpoints runtime keepPerRun diskBudgetBytes tables).1 =
      (tables.remove (isCondemned runtime tables (floorAtLeast 1 keepPerRun))).remove
        (deletedBy tables (evicted runtime tables (floorAtLeast 1 keepPerRun)
          (floorAtLeast 0 diskBudgetBytes))) := by
  generalize hkeep : floorAtLeast 1 keepPerRun = keep
  generalize hbudget : floorAtLeast 0 diskBudgetBytes = budget
  obtain ⟨htables, hsurvivors⟩ := afterAged_eq runtime tables keep
  have hprune : (pruneCheckpoints runtime keepPerRun diskBudgetBytes tables).1 =
      (if exceeds budget (afterAged runtime tables keep).tables.measureCheckpointBytes then
        pruneToBudget budget (sortByAge runtime (afterAged runtime tables keep).survivingTerminal)
          (afterAged runtime tables keep).tables (afterAged runtime tables keep).prunedAged
          (afterAged runtime tables keep).tables.measureCheckpointBytes
      else ((afterAged runtime tables keep).tables,
        (afterAged runtime tables keep).prunedAged)).1 := by
    rw [← hkeep, ← hbudget]
    rfl
  have hleft : (tables.remove (isCondemned runtime tables keep)).measureCheckpointBytes =
      leftBytes runtime tables keep := rfl
  rw [hprune, htables, hsurvivors, hleft]
  by_cases hover : exceeds budget (leftBytes runtime tables keep) = true
  · have hvictims : sortByAge runtime ((terminalCheckpoints runtime tables).filter
        fun checkpoint => !isOutdated runtime tables keep checkpoint) ⊆
          (tables.remove (isCondemned runtime tables keep)).checkpoints := by
      intro checkpoint hmem
      have hsurvives := (List.perm_insertionSort _ _).mem_iff.mp hmem
      obtain ⟨hlisted, hfresh⟩ := List.mem_filter.mp hsurvives
      obtain ⟨hstored, hterminal⟩ := mem_terminalCheckpoints.mp hlisted
      rw [Bool.not_eq_true'] at hfresh
      refine mem_remove.mpr ⟨hstored, ?_⟩
      unfold isCondemned
      rw [hfresh, not_isOrphan_of_isTerminal hterminal, Bool.and_false, Bool.or_false,
        Bool.and_false]
    have hnodup : (sortByAge runtime ((terminalCheckpoints runtime tables).filter
        fun checkpoint => !isOutdated runtime tables keep checkpoint)).Nodup :=
      (List.perm_insertionSort _ _).nodup_iff.mpr (terminalCheckpoints_nodup.filter _)
    rw [if_pos hover]
    exact pruneToBudget_tables hvictims hnodup _ _
  · have hnone : evicted runtime tables keep budget = [] :=
      taken_of_not_over (eq_false_of_ne_true hover)
    rw [if_neg hover, hnone]
    exact (remove_eq_self fun _ _ => rfl).symm

theorem exceeds_rises (budget : Option Nat) : Rises (exceeds budget) := by
  intro a b hle h
  cases budget with
  | none => exact h
  | some limit => exact decide_eq_true (lt_of_lt_of_le (of_decide_eq_true h) hle)

theorem evicted_subset : evicted runtime tables keepPerRun budget ⊆
    evictable runtime tables keepPerRun :=
  (taken_front _ _).subset

/-- A checkpoint is left when it is neither condemned nor evicted. -/
theorem mem_pruned_iff {keepPerRun diskBudgetBytes : JsNumber} :
    checkpoint ∈ (pruneCheckpoints runtime keepPerRun diskBudgetBytes tables).1.checkpoints ↔
      checkpoint ∈ tables.checkpoints ∧
        isCondemned runtime tables (floorAtLeast 1 keepPerRun) checkpoint = false ∧
        checkpoint ∉ evicted runtime tables (floorAtLeast 1 keepPerRun)
          (floorAtLeast 0 diskBudgetBytes) := by
  rw [pruneCheckpoints_tables, mem_remove, mem_remove, and_assoc]
  refine and_congr_right fun hmem => and_congr_right fun _ => ?_
  have hsubset : evicted runtime tables (floorAtLeast 1 keepPerRun)
      (floorAtLeast 0 diskBudgetBytes) ⊆ tables.checkpoints := fun row hrow =>
    (mem_evictable.mp (evicted_subset hrow)).1
  rw [← Bool.not_eq_true, deletedBy_iff hsubset hmem]
  refine not_congr ⟨And.left, fun hrow => ⟨hrow, ?_⟩⟩
  exact (mem_evictable.mp (evicted_subset hrow)).2.2.2

theorem isCondemned_eq_false_of_evictable
    (h : checkpoint ∈ evictable runtime tables keepPerRun) :
    isCondemned runtime tables keepPerRun checkpoint = false := by
  obtain ⟨-, hterminal, hfresh, -⟩ := mem_evictable.mp h
  unfold isCondemned
  rw [hfresh, not_isOrphan_of_isTerminal hterminal, Bool.and_false, Bool.or_false,
    Bool.and_false]

/-- The final bytes are those left by the first two passes without the evicted ones. -/
theorem finalBytes_eq (runtime : PruneRuntime) (keepPerRun diskBudgetBytes : JsNumber)
    (tables : CheckpointTables) :
    ((pruneCheckpoints runtime keepPerRun diskBudgetBytes tables).2.finalBytes : Int) =
      leftBytes runtime tables (floorAtLeast 1 keepPerRun) -
        totalSize byteLength (evicted runtime tables (floorAtLeast 1 keepPerRun)
          (floorAtLeast 0 diskBudgetBytes)) := by
  generalize hkeep : floorAtLeast 1 keepPerRun = keep
  generalize hbudget : floorAtLeast 0 diskBudgetBytes = budget
  have hfinal : (pruneCheckpoints runtime keepPerRun diskBudgetBytes tables).2.finalBytes =
      (pruneCheckpoints runtime keepPerRun diskBudgetBytes tables).1.measureCheckpointBytes :=
    rfl
  have hsubset : evicted runtime tables keep budget ⊆
      (tables.remove (isCondemned runtime tables keep)).checkpoints := by
    intro row hrow
    have hevictable := evicted_subset hrow
    exact mem_remove.mpr ⟨(mem_evictable.mp hevictable).1,
      isCondemned_eq_false_of_evictable hevictable⟩
  have hnodup : (evicted runtime tables keep budget).Nodup :=
    evictable_nodup.sublist (taken_front _ _).sublist
  have hmeasure : totalSize byteLength (evicted runtime tables keep budget) +
      ((tables.remove (isCondemned runtime tables keep)).remove
        (deletedBy tables (evicted runtime tables keep budget))).measureCheckpointBytes =
      leftBytes runtime tables keep :=
    measure_remove_add hsubset hnodup fun row hrow =>
      (mem_evictable.mp (evicted_subset hrow)).2.2.2
  rw [hfinal, pruneCheckpoints_tables, hkeep, hbudget]
  omega

end Characterization

/-! ## What a pruning promises -/

section Promise

variable (runtime : PruneRuntime) (keepPerRun diskBudgetBytes : JsNumber)
  (tables : CheckpointTables)

/-- The run is there and not terminal. -/
def CheckpointTables.isLive (tables : CheckpointTables) (checkpoint : DurableCheckpoint) : Bool :=
  (tables.runStatus checkpoint.runId).any fun status => !status.isTerminal

/-- A pruning keeps what it must, reaches its budget, and has nothing left to do. -/
structure PrunesWell : Prop where
  live : ∀ checkpoint ∈ tables.checkpoints, tables.isLive checkpoint = true →
    checkpoint ∈ (pruneCheckpoints runtime keepPerRun diskBudgetBytes tables).1.checkpoints
  reserved : ∀ checkpoint ∈ tables.checkpoints, tables.isReserved checkpoint = true →
    checkpoint ∈ (pruneCheckpoints runtime keepPerRun diskBudgetBytes tables).1.checkpoints
  orphans : ∀ checkpoint ∈
      (pruneCheckpoints runtime keepPerRun diskBudgetBytes tables).1.checkpoints,
    tables.isOrphan checkpoint = true → tables.isReserved checkpoint = true
  budget :
    exceeds (pruneCheckpoints runtime keepPerRun diskBudgetBytes tables).2.diskBudgetBytes
        (pruneCheckpoints runtime keepPerRun diskBudgetBytes tables).2.finalBytes = true →
      ∀ checkpoint ∈
          (pruneCheckpoints runtime keepPerRun diskBudgetBytes tables).1.checkpoints,
        tables.isLive checkpoint = true ∨ tables.isReserved checkpoint = true
  /-- A checkpoint of a terminal run goes because enough of its run is newer, or for the budget
  and then before every newer one. -/
  oldest : ∀ checkpoint ∈ tables.checkpoints, tables.isTerminal checkpoint = true →
    checkpoint ∉ (pruneCheckpoints runtime keepPerRun diskBudgetBytes tables).1.checkpoints →
      isOutdated runtime tables (floorAtLeast 1 keepPerRun) checkpoint = true ∨
        exceeds (floorAtLeast 0 diskBudgetBytes)
            (leftBytes runtime tables (floorAtLeast 1 keepPerRun)) = true ∧
          ∀ other ∈ (pruneCheckpoints runtime keepPerRun diskBudgetBytes tables).1.checkpoints,
            tables.isTerminal other = true → tables.isReserved other = false →
              ¬ageOf runtime other < ageOf runtime checkpoint
  again : (pruneCheckpoints runtime keepPerRun diskBudgetBytes
      (pruneCheckpoints runtime keepPerRun diskBudgetBytes tables).1).1 =
    (pruneCheckpoints runtime keepPerRun diskBudgetBytes tables).1

/-- Nowhere in the order of the last pass does the budget come to be met between a checkpoint and
an older one behind it. -/
def BudgetFollowsAge : Prop :=
  EvictsInOrder byteLength (exceeds (floorAtLeast 0 diskBudgetBytes))
    (fun other checkpoint => ageOf runtime other < ageOf runtime checkpoint)
    (evictable runtime tables (floorAtLeast 1 keepPerRun))
    (leftBytes runtime tables (floorAtLeast 1 keepPerRun))

variable {runtime keepPerRun diskBudgetBytes tables} {keep budget : Option Nat}
  {checkpoint : DurableCheckpoint}

theorem isLive_or (tables : CheckpointTables) (checkpoint : DurableCheckpoint) :
    tables.isLive checkpoint = true ∨ tables.isOrphan checkpoint = true ∨
      tables.isTerminal checkpoint = true := by
  unfold CheckpointTables.isLive CheckpointTables.isOrphan CheckpointTables.isTerminal
  cases tables.runStatus checkpoint.runId with
  | none => exact .inr (.inl rfl)
  | some status => cases status <;> decide

theorem not_isTerminal_of_isLive (h : tables.isLive checkpoint = true) :
    tables.isOrphan checkpoint = false ∧ tables.isTerminal checkpoint = false := by
  unfold CheckpointTables.isLive at h
  unfold CheckpointTables.isOrphan CheckpointTables.isTerminal
  cases hstatus : tables.runStatus checkpoint.runId with
  | none =>
      rw [hstatus] at h
      exact absurd h Bool.false_ne_true
  | some status =>
      rw [hstatus] at h
      exact ⟨rfl, (Bool.not_eq_true' _).mp h⟩

/-- What is not condemned, not reserved and not live can be evicted. -/
theorem mem_evictable_of_not_isCondemned (h : checkpoint ∈ tables.checkpoints)
    (hcondemned : isCondemned runtime tables keep checkpoint = false)
    (hlive : tables.isLive checkpoint ≠ true) (hfree : tables.isReserved checkpoint = false) :
    checkpoint ∈ evictable runtime tables keep := by
  unfold isCondemned at hcondemned
  rw [hfree, Bool.not_false, Bool.true_and, Bool.or_eq_false_iff] at hcondemned
  obtain ⟨horphan, hold⟩ := hcondemned
  obtain hlives | horphans | hterminal := isLive_or tables checkpoint
  · exact absurd hlives hlive
  · exact absurd horphans (ne_true_of_eq_false horphan)
  · rw [hterminal, Bool.true_and] at hold
    exact mem_evictable.mpr ⟨h, hterminal, hold, hfree⟩

/-- Where the budget is exceeded in the end, everything evictable has been evicted. -/
theorem evicted_eq_evictable
    (h : exceeds (floorAtLeast 0 diskBudgetBytes)
      (pruneCheckpoints runtime keepPerRun diskBudgetBytes tables).2.finalBytes = true) :
    evicted runtime tables (floorAtLeast 1 keepPerRun) (floorAtLeast 0 diskBudgetBytes) =
      evictable runtime tables (floorAtLeast 1 keepPerRun) := by
  rw [finalBytes_eq] at h
  exact taken_of_over h

/-- A checkpoint that is outdated among fewer checkpoints is outdated. -/
theorem isOutdated_of_remove {p : DurableCheckpoint → Bool}
    (h : isOutdated runtime (tables.remove p) keep checkpoint = true) :
    isOutdated runtime tables keep checkpoint = true := by
  cases keep with
  | none => exact h
  | some keep =>
      have hfewer : (newerThan (ageOf runtime) (groupOf DurableCheckpoint.runId
          (tables.remove p).checkpoints checkpoint) checkpoint).Sublist
            (newerThan (ageOf runtime) (groupOf DurableCheckpoint.runId tables.checkpoints
              checkpoint) checkpoint) :=
        (List.filter_sublist.filter _).filter _
      exact decide_eq_true ((of_decide_eq_true h).trans hfewer.length_le)

theorem isCondemned_of_remove {p : DurableCheckpoint → Bool}
    (h : isCondemned runtime (tables.remove p) keep checkpoint = true) :
    isCondemned runtime tables keep checkpoint = true := by
  unfold isCondemned at h ⊢
  rw [Bool.and_eq_true, Bool.or_eq_true, Bool.and_eq_true] at h ⊢
  obtain ⟨hfree, horphan | ⟨hterminal, hold⟩⟩ := h
  · exact ⟨hfree, .inl horphan⟩
  · exact ⟨hfree, .inr ⟨hterminal, isOutdated_of_remove hold⟩⟩

/-- A second pruning finds nothing to delete. -/
theorem pruneCheckpoints_again (runtime : PruneRuntime) (keepPerRun diskBudgetBytes : JsNumber)
    (tables : CheckpointTables) :
    (pruneCheckpoints runtime keepPerRun diskBudgetBytes
        (pruneCheckpoints runtime keepPerRun diskBudgetBytes tables).1).1 =
      (pruneCheckpoints runtime keepPerRun diskBudgetBytes tables).1 := by
  let keep := floorAtLeast 1 keepPerRun
  let budget := floorAtLeast 0 diskBudgetBytes
  let after := (pruneCheckpoints runtime keepPerRun diskBudgetBytes tables).1
  have hafter : after = tables.remove fun checkpoint =>
      isCondemned runtime tables keep checkpoint ||
        deletedBy tables (evicted runtime tables keep budget) checkpoint :=
    (pruneCheckpoints_tables _ _ _ _).trans (remove_remove _ _)
  have hspared : ∀ checkpoint ∈ after.checkpoints,
      isCondemned runtime after keep checkpoint = false := by
    intro checkpoint hmem
    apply eq_false_of_ne_true
    intro hcondemned
    rw [hafter] at hcondemned
    exact ne_true_of_eq_false (mem_pruned_iff.mp hmem).2.1 (isCondemned_of_remove hcondemned)
  have hsame : after.remove (isCondemned runtime after keep) = after := remove_eq_self hspared
  have hleft : leftBytes runtime after keep =
      (pruneCheckpoints runtime keepPerRun diskBudgetBytes tables).2.finalBytes := by
    unfold leftBytes
    rw [hsame]
    rfl
  have hnone : evicted runtime after keep budget = [] := by
    by_cases hover : exceeds budget
        (pruneCheckpoints runtime keepPerRun diskBudgetBytes tables).2.finalBytes = true
    · have hall := evicted_eq_evictable hover
      have hempty : evictable runtime after keep = [] := by
        apply List.eq_nil_iff_forall_not_mem.mpr
        intro checkpoint hmem
        obtain ⟨hkept, hterminal, -, hfree⟩ := mem_evictable.mp hmem
        obtain ⟨hstored, hcondemned, hevicted⟩ := mem_pruned_iff.mp hkept
        rw [hafter] at hterminal hfree
        have hlive : tables.isLive checkpoint ≠ true := fun hlive =>
          ne_true_of_eq_false (not_isTerminal_of_isLive hlive).2 hterminal
        apply hevicted
        rw [hall]
        exact mem_evictable_of_not_isCondemned hstored hcondemned hlive hfree
      unfold evicted
      rw [hempty]
      rfl
    · unfold evicted
      rw [hleft]
      exact taken_of_not_over (eq_false_of_ne_true hover)
  refine (pruneCheckpoints_tables runtime keepPerRun diskBudgetBytes after).trans ?_
  change (after.remove (isCondemned runtime after keep)).remove
    (deletedBy after (evicted runtime after keep budget)) = after
  rw [hsame, hnone]
  exact remove_eq_self fun _ _ => rfl

theorem kept_of_isLive (hmem : checkpoint ∈ tables.checkpoints)
    (hlive : tables.isLive checkpoint = true) :
    checkpoint ∈ (pruneCheckpoints runtime keepPerRun diskBudgetBytes tables).1.checkpoints := by
  obtain ⟨horphan, hterminal⟩ := not_isTerminal_of_isLive hlive
  refine mem_pruned_iff.mpr ⟨hmem, ?_, fun hevicted => ?_⟩
  · unfold isCondemned
    rw [horphan, hterminal, Bool.false_and, Bool.or_false, Bool.and_false]
  · exact ne_true_of_eq_false hterminal (mem_evictable.mp (evicted_subset hevicted)).2.1

theorem kept_of_isReserved (hmem : checkpoint ∈ tables.checkpoints)
    (hreserved : tables.isReserved checkpoint = true) :
    checkpoint ∈ (pruneCheckpoints runtime keepPerRun diskBudgetBytes tables).1.checkpoints := by
  refine mem_pruned_iff.mpr ⟨hmem, ?_, fun hevicted => ?_⟩
  · unfold isCondemned
    rw [hreserved, Bool.not_true, Bool.false_and]
  · exact ne_true_of_eq_false (mem_evictable.mp (evicted_subset hevicted)).2.2.2 hreserved

theorem isReserved_of_orphan_kept
    (hmem : checkpoint ∈
      (pruneCheckpoints runtime keepPerRun diskBudgetBytes tables).1.checkpoints)
    (horphan : tables.isOrphan checkpoint = true) : tables.isReserved checkpoint = true := by
  by_contra hfree
  have hcondemned := (mem_pruned_iff.mp hmem).2.1
  unfold isCondemned at hcondemned
  rw [eq_false_of_ne_true hfree, horphan, Bool.true_or] at hcondemned
  exact absurd hcondemned (by decide)

/-- A deleted checkpoint of a terminal run is outdated, or was evicted over the budget. -/
theorem outdated_or_evicted (hmem : checkpoint ∈ tables.checkpoints)
    (hterminal : tables.isTerminal checkpoint = true)
    (hgone : checkpoint ∉
      (pruneCheckpoints runtime keepPerRun diskBudgetBytes tables).1.checkpoints) :
    isOutdated runtime tables (floorAtLeast 1 keepPerRun) checkpoint = true ∨
      exceeds (floorAtLeast 0 diskBudgetBytes)
          (leftBytes runtime tables (floorAtLeast 1 keepPerRun)) = true ∧
        checkpoint ∈ evicted runtime tables (floorAtLeast 1 keepPerRun)
          (floorAtLeast 0 diskBudgetBytes) := by
  by_cases hcondemned : isCondemned runtime tables (floorAtLeast 1 keepPerRun) checkpoint = true
  · left
    unfold isCondemned at hcondemned
    rw [not_isOrphan_of_isTerminal hterminal, hterminal, Bool.false_or, Bool.true_and]
      at hcondemned
    exact (Bool.and_eq_true_iff.mp hcondemned).2
  · right
    have hevicted : checkpoint ∈ evicted runtime tables (floorAtLeast 1 keepPerRun)
        (floorAtLeast 0 diskBudgetBytes) := by
      by_contra hleft
      exact hgone (mem_pruned_iff.mpr ⟨hmem, eq_false_of_ne_true hcondemned, hleft⟩)
    refine ⟨?_, hevicted⟩
    by_contra hwithin
    have hnone : evicted runtime tables (floorAtLeast 1 keepPerRun)
        (floorAtLeast 0 diskBudgetBytes) = [] :=
      taken_of_not_over (eq_false_of_ne_true hwithin)
    rw [hnone] at hevicted
    exact List.not_mem_nil hevicted

/-- The checkpoints evicted are no newer than those left, exactly when the budget follows the
ages. -/
theorem budgetFollowsAge_iff :
    BudgetFollowsAge runtime keepPerRun diskBudgetBytes tables ↔
      ∀ checkpoint ∈ evicted runtime tables (floorAtLeast 1 keepPerRun)
          (floorAtLeast 0 diskBudgetBytes),
        ∀ other ∈ evictable runtime tables (floorAtLeast 1 keepPerRun),
          other ∉ evicted runtime tables (floorAtLeast 1 keepPerRun)
            (floorAtLeast 0 diskBudgetBytes) →
              ¬ageOf runtime other < ageOf runtime checkpoint :=
  (left_not_before_iff (exceeds_rises _) evictable_nodup).symm

theorem prunesWell_of_budgetFollowsAge
    (h : BudgetFollowsAge runtime keepPerRun diskBudgetBytes tables) :
    PrunesWell runtime keepPerRun diskBudgetBytes tables := by
  rw [budgetFollowsAge_iff] at h
  refine ⟨fun _ => kept_of_isLive, fun _ => kept_of_isReserved,
    fun _ => isReserved_of_orphan_kept, ?_, ?_, pruneCheckpoints_again _ _ _ _⟩
  · intro hover checkpoint hmem
    obtain ⟨hstored, hcondemned, hevicted⟩ := mem_pruned_iff.mp hmem
    by_contra hneither
    obtain ⟨hlive, hfree⟩ := not_or.mp hneither
    apply hevicted
    rw [evicted_eq_evictable hover]
    exact mem_evictable_of_not_isCondemned hstored hcondemned hlive (eq_false_of_ne_true hfree)
  · intro checkpoint hmem hterminal hgone
    refine (outdated_or_evicted hmem hterminal hgone).imp_right ?_
    rintro ⟨hover, hevicted⟩
    refine ⟨hover, fun other hother hlives hfree => ?_⟩
    obtain ⟨hothers, hspared, hleft⟩ := mem_pruned_iff.mp hother
    have hlive : tables.isLive other ≠ true := fun hlive =>
      ne_true_of_eq_false (not_isTerminal_of_isLive hlive).2 hlives
    exact h checkpoint hevicted other
      (mem_evictable_of_not_isCondemned hothers hspared hlive hfree) hleft

/-- A pruning keeps its promise exactly when the order of the last pass does not meet the budget
between a checkpoint and an older one behind it. -/
theorem prunesWell_iff (runtime : PruneRuntime) (keepPerRun diskBudgetBytes : JsNumber)
    (tables : CheckpointTables) :
    PrunesWell runtime keepPerRun diskBudgetBytes tables ↔
      BudgetFollowsAge runtime keepPerRun diskBudgetBytes tables := by
  refine ⟨fun h => budgetFollowsAge_iff.mpr ?_, prunesWell_of_budgetFollowsAge⟩
  intro checkpoint hevicted other hother hleft
  obtain ⟨hmem, hterminal, hfresh, -⟩ := mem_evictable.mp (evicted_subset hevicted)
  have hgone : checkpoint ∉
      (pruneCheckpoints runtime keepPerRun diskBudgetBytes tables).1.checkpoints := fun hkept =>
    (mem_pruned_iff.mp hkept).2.2 hevicted
  obtain ⟨hothers, hlives, -, hfree⟩ := mem_evictable.mp hother
  have hkept := mem_pruned_iff.mpr
    ⟨hothers, isCondemned_eq_false_of_evictable hother, hleft⟩
  obtain hold | ⟨-, hnewer⟩ := h.oldest checkpoint hmem hterminal hgone
  · exact absurd hold (ne_true_of_eq_false hfresh)
  · exact hnewer other hkept hlives hfree

/-- Where `localeCompare` ranks the checkpoints of terminal runs as the database does, a pruning
keeps its promise. -/
theorem prunesWell_of_agree
    (h : ∀ l ∈ terminalCheckpoints runtime tables, ∀ r ∈ terminalCheckpoints runtime tables,
      compareAges runtime l r ≤ 0 ↔ ageOf runtime l ≤ ageOf runtime r) :
    PrunesWell runtime keepPerRun diskBudgetBytes tables := by
  apply prunesWell_of_budgetFollowsAge
  rw [budgetFollowsAge_iff]
  intro checkpoint hevicted other hother hleft
  have hsorted : (evictable runtime tables (floorAtLeast 1 keepPerRun)).Pairwise fun l r =>
      ageOf runtime l ≤ ageOf runtime r := by
    refine List.Pairwise.sublist List.filter_sublist (List.pairwise_map.mp ?_)
    unfold sortByAge
    rw [List.map_insertionSort _ (· ≤ ·)]
    · exact List.pairwise_insertionSort _ _
    · exact fun l hl r hr => h l (List.mem_filter.mp hl).1 r (List.mem_filter.mp hr).1
  obtain ⟨rest, hrest⟩ := taken_front (evictable runtime tables (floorAtLeast 1 keepPerRun))
    (leftBytes runtime tables (floorAtLeast 1 keepPerRun))
  rw [← hrest] at hsorted hother
  have hbehind := (List.mem_append.mp hother).resolve_left hleft
  exact ((List.pairwise_append.mp hsorted).2.2 checkpoint hevicted other hbehind).not_gt

end Promise

/-! ## Two ids of different case -/

/-- `localeCompare` on letters: their case decides only where they are the same otherwise, and
then puts lower case first. -/
def compareLetters (a b : String) : Int :=
  if a.toLower < b.toLower then -1
  else if b.toLower < a.toLower then 1
  else if b < a then -1
  else if a < b then 1
  else 0

def letterRuntime : PruneRuntime where
  textLe a b := decide (a ≤ b)
  textOrder := codePoint_textOrder
  localeCompare := compareLetters

def completedCheckpoint (checkpointId : String) : DurableCheckpoint where
  checkpointId
  runId := "run-1"
  stateJson := "\x7b\x7d"
  createdAt := "2026-05-15T00:00:00.000Z"

def mixedCaseTables : CheckpointTables where
  runStatus _ := some .completed
  checkpoints := [completedCheckpoint "B", completedCheckpoint "a"]
  blockedCheckpointIds := []
  checkpoints_keyed := by decide

/-- The budget takes `a` and leaves `B`, which the database puts before it. -/
theorem mixedCase_not_prunesWell :
    ¬∀ (runtime : PruneRuntime) (keepPerRun diskBudgetBytes : JsNumber)
      (tables : CheckpointTables), PrunesWell runtime keepPerRun diskBudgetBytes tables := by
  intro h
  have hleft : (pruneCheckpoints letterRuntime (.finite 50) (.finite 2)
      mixedCaseTables).1.checkpoints = [completedCheckpoint "B"] := by
    decide +kernel
  have hgone : completedCheckpoint "a" ∉ (pruneCheckpoints letterRuntime (.finite 50) (.finite 2)
      mixedCaseTables).1.checkpoints := by
    rw [hleft]
    decide
  obtain hold | ⟨-, hnewer⟩ := (h letterRuntime (.finite 50) (.finite 2) mixedCaseTables).oldest
    (completedCheckpoint "a") (by decide) rfl hgone
  · exact absurd hold (by decide +kernel)
  · have hkept : completedCheckpoint "B" ∈ (pruneCheckpoints letterRuntime (.finite 50)
        (.finite 2) mixedCaseTables).1.checkpoints := by
      rw [hleft]
      exact List.mem_singleton.mpr rfl
    exact hnewer (completedCheckpoint "B") hkept rfl rfl (by decide +kernel)

/-- Ids of one case are ranked alike, so their pruning keeps its promise. -/
theorem oneCase_prunesWell :
    PrunesWell letterRuntime (.finite 50) (.finite 2)
      { mixedCaseTables with
        checkpoints := [completedCheckpoint "b", completedCheckpoint "a"]
        checkpoints_keyed := by decide } :=
  prunesWell_of_agree (by decide +kernel)

end GoatCitadel.Storage.CheckpointPruning
