import MoodengSQL.Recovery.Durability

/-!
# Interrupted checkpoints

A checkpoint writes several files, each truncated before it is written, and a
crash may come between any two of these steps. A table file that has only been
truncated reads as an empty table, so the rows of the table must be in the log.
-/

namespace MoodengSQL

open Foundation Foundation.Effect Std

/-- The file operations of `recovery::checkpoint`: `persist_table` for each
table, `mark_checkpoint`, and `truncate`. -/
inductive FileStep where
  | truncateTable (table : String)
  | writeTable (table : String)
  | truncateMark
  | writeMark
  | truncateLog

/-- The files after an operation. -/
def FileStep.run (storage : StorageEngine) (disk : Disk) : FileStep → Disk
  | truncateTable table =>
      { disk with datFiles := disk.datFiles.insert (tablePath table) .truncated }
  | writeTable table => match storage.tables[table]? with
    | some data => { disk with datFiles := disk.datFiles.insert (tablePath table) (.written data) }
    | none => disk
  | truncateMark => { disk with checkpointBin := some .truncated }
  | writeMark => { disk with checkpointBin := some (.written storage.wal.lsn) }
  | truncateLog => { disk with walLog := [] }

/-- The operations that save a table. -/
def tableSteps (tables : List String) : List FileStep :=
  tables.flatMap fun table => [.truncateTable table, .writeTable table]

/-- The operations of a checkpoint that takes the tables in this order. -/
def checkpointSteps (tables : List String) : List FileStep :=
  tableSteps tables ++ [.truncateMark, .writeMark, .truncateLog]

/-- The files a crash leaves after some operations of a checkpoint. -/
def Executor.crashAfter (s : Executor) (tables : List String) (steps : Nat) : Disk :=
  ((checkpointSteps tables).take steps).foldl (FileStep.run s.storage) s.disk

section Steps

variable {storage : StorageEngine}

/-- Saving the tables writes the files `persist_table` writes. -/
theorem foldl_tableSteps {tables : List String} (known : ∀ table ∈ tables, table ∈ storage.tables)
    (disk : Disk) :
    (tableSteps tables).foldl (FileStep.run storage) disk = { disk with
      datFiles := (tables.foldl StorageEngine.persistTable
        { storage with datFiles := disk.datFiles }).datFiles } := by
  induction tables generalizing disk with
  | nil => rfl
  | cons table rest ih =>
      obtain ⟨data, found⟩ := Option.isSome_iff_exists.mp
        (ExtTreeMap.isSome_getElem?_iff_mem.mpr (known table List.mem_cons_self))
      have again : (disk.datFiles.insert (tablePath table) .truncated).insert (tablePath table)
          (.written data) = disk.datFiles.insert (tablePath table) (.written data) := by
        refine ExtTreeMap.ext_getElem? fun other => ?_
        simp only [ExtTreeMap.getElem?_insert]
        split <;> rfl
      change (tableSteps rest).foldl (FileStep.run storage)
        (FileStep.run storage (FileStep.run storage disk (.truncateTable table))
          (.writeTable table)) = _
      rw [ih fun other member => known other (List.mem_cons_of_mem _ member), List.foldl_cons]
      unfold StorageEngine.persistTable FileStep.run
      dsimp only
      rw [found]
      dsimp only
      rw [again]

/-- **The steps together are the checkpoint.** -/
theorem crashAfter_all [Runtime] (s : Executor) :
    s.crashAfter (Runtime.hashOrder.order "tables" s.storage.tables.keys)
        (checkpointSteps (Runtime.hashOrder.order "tables" s.storage.tables.keys)).length =
      ({ s with storage := s.storage.checkpoint } : Executor).disk := by
  have known : ∀ table ∈ Runtime.hashOrder.order "tables" s.storage.tables.keys,
      table ∈ s.storage.tables := fun _ => mem_tableNames.mp
  have wal := StorageEngine.wal_checkpointAll s.storage
  rw [Executor.crashAfter, List.take_length, checkpointSteps, List.foldl_append,
    foldl_tableSteps known]
  unfold StorageEngine.checkpoint Database.disk
  dsimp only
  rw [wal]
  rfl

/-- The row values a table file stands for. -/
def imageRows (image : FileImage TableData) (rowId : Nat) : Option (List Value) :=
  (StorageEngine.readTableFile image).rows[rowId]?.map Row.values

theorem table_diskContents_insert (files : Map String (FileImage TableData)) {table : String}
    (named : isFileName table = true) (other : String) (image : FileImage TableData) :
    (diskContents (files.insert (tablePath table) image)).table other =
      if other = table then imageRows image else (diskContents files).table other := by
  funext rowId
  unfold Contents.table diskContents tablesView
  simp only [StorageEngine.getElem?_loadAll, ExtTreeMap.getElem?_insert, Std.compare_eq_iff_eq]
  by_cases here : other = table
  · subst here
    have entry : isEntry other = true ∧ other ≠ "" :=
      ⟨isEntry_of_isFileName named, (isFileName_iff.mp named).1⟩
    simp [entry, imageRows]
  · rw [if_neg here]
    by_cases entry : isEntry other = true ∧ other ≠ ""
    · have apart : tablePath table ≠ tablePath other := by
        rw [tablePath_of_isEntry entry.1, tablePath_of_isEntry (isEntry_of_isFileName named), Ne,
          String.append_left_inj]
        exact Ne.symm here
      simp [apart]
    · simp [entry]

end Steps

section Partway

variable {s : Executor} {disk : Disk} {tables : List String}

/-- Tables are being saved: every table file is as it was before, empty, or as
the table is in memory. -/
structure SavingTables (s : Executor) (disk : Disk) : Prop where
  log : disk.walLog = s.storage.wal.file
  mark : disk.checkpointBin = s.storage.wal.checkpointFile
  catalog : disk.metaBin = s.metaFile
  files : ∀ table, (diskContents disk.datFiles).table table =
      (diskContents s.storage.datFiles).table table ∨
    (diskContents disk.datFiles).table table = (fun _ => none) ∨
    (diskContents disk.datFiles).table table = s.storage.contents.table table

/-- The tables have been saved, and the log is being cut off. -/
structure TablesSaved (s : Executor) (disk : Disk) : Prop where
  log : disk.walLog = s.storage.wal.file ∨ disk.walLog = []
  mark : disk.walLog = s.storage.wal.file ∧ disk.checkpointBin = some .truncated ∨
    disk.checkpointBin = some (.written s.storage.wal.lsn)
  catalog : disk.metaBin = s.metaFile
  files : diskContents disk.datFiles = s.storage.contents

theorem SavingTables.step (saving : SavingTables s disk)
    (plain : ∀ table ∈ tables, isFileName table = true) {step : FileStep}
    (saves : step ∈ tableSteps tables) : SavingTables s (step.run s.storage disk) := by
  obtain ⟨table, listed, member⟩ := List.mem_flatMap.mp saves
  have written : ∀ image, imageRows image = (fun _ => none) ∨
      imageRows image = s.storage.contents.table table →
      SavingTables s { disk with datFiles := disk.datFiles.insert (tablePath table) image } := by
    intro image content
    refine ⟨saving.log, saving.mark, saving.catalog, fun other => ?_⟩
    rw [table_diskContents_insert _ (plain table listed)]
    by_cases here : other = table
    · rw [if_pos here, here]
      exact .inr content
    · rw [if_neg here]
      exact saving.files other
  rcases List.mem_cons.mp member with rfl | member
  · refine written .truncated (.inl ?_)
    funext rowId
    simp [imageRows, StorageEngine.readTableFile, TableData.empty]
  · obtain rfl := List.mem_singleton.mp member
    dsimp only [FileStep.run]
    cases found : s.storage.tables[table]? with
    | none => exact saving
    | some data =>
        refine written (.written data) (.inr ?_)
        funext rowId
        unfold Contents.table StorageEngine.contents StorageEngine.view tablesView
        dsimp only
        rw [found]
        rfl

theorem SavingTables.run {steps : List FileStep} (saving : SavingTables s disk)
    (plain : ∀ table ∈ tables, isFileName table = true)
    (saves : ∀ step ∈ steps, step ∈ tableSteps tables) :
    SavingTables s (steps.foldl (FileStep.run s.storage) disk) := by
  induction steps generalizing disk with
  | nil => exact saving
  | cons step rest ih =>
      exact ih (saving.step plain (saves step List.mem_cons_self))
        fun other member => saves other (List.mem_cons_of_mem _ member)

end Partway

section Recovery

variable {s : Executor} {l : RowLedger} {disk : Disk}

/-- The changes replay reads: the committed ones, or the last of them. -/
def readChanges (s : Executor) : List (CellOp RowKey (List Value)) :=
  cellOps (committedRecords s.disk.readable)

/-- With no transaction open, the rows in memory are what the committed records
of the log made of other rows. -/
theorem Kept.live_eq_replay (kept : Kept s l) (idle : s.session.transaction.txnId = none)
    (current : l.stale = false) :
    s.storage.contents =
      replayOps (cellOps (committedRecords s.storage.wal.file)) (cells (l.done l.saved)) := by
  have live : l.live = l.done l.saved ++ l.done l.logged := by
    rw [kept.sound.traced current, List.filter_append]
    have counted : l.counts = fun change => decide (change.1 ∈ l.committed) := by
      funext change
      simp [Ledger.counts, kept.running, idle]
    rw [counted]
    rfl
  rw [kept.contents, live, cells_append, ← map_walChanges, kept.logs.walChanges_committedRecords]

/-- Replaying the log over the rows in memory changes nothing. -/
theorem Kept.replay_live (kept : Kept s l) (idle : s.session.transaction.txnId = none)
    (current : l.stale = false) :
    replayOps (cellOps (committedRecords s.storage.wal.file)) s.storage.contents =
        s.storage.contents ∧
      replayOps (readChanges s) s.storage.contents = s.storage.contents := by
  have live := kept.live_eq_replay idle current
  obtain ⟨lost, beyond⟩ := kept.logs.walChanges_beyond
    (WriteAheadLog.readCheckpointLsn s.storage.wal.checkpointFile)
  have read : readChanges s =
      (cellOps (committedRecords s.storage.wal.file)).drop lost := by
    rw [← map_walChanges, kept.logs.walChanges_committedRecords, ← List.map_drop, ← beyond,
      map_walChanges]
    rfl
  constructor
  · rw [live, replayOps_replayOps]
  · rw [read, live]
    have again := replayOps_again
      ((cellOps (committedRecords s.storage.wal.file)).take lost)
      ((cellOps (committedRecords s.storage.wal.file)).drop lost) (cells (l.done l.saved))
    rw [List.take_append_drop] at again
    exact again

theorem KeysDiffer.mono {definition : IndexMeta} {columnNames : List String}
    {rows fewer : Nat → Option (List Value)} (differ : KeysDiffer definition columnNames rows)
    (part : ∀ rowId values, fewer rowId = some values → rows rowId = some values) :
    KeysDiffer definition columnNames fewer :=
  fun unique _ _ _ _ left right sameKey => differ unique (part _ _ left) (part _ _ right) sameKey

/-- Replay finds the tables of the log's committed records in the catalog, so
opening succeeds if the recovered rows can be indexed. -/
theorem Kept.opens [Runtime] (kept : Kept s l) (current : l.stale = false)
    (log : disk.walLog = s.storage.wal.file ∨ disk.walLog = [])
    (catalog : disk.metaBin = s.metaFile) (rebuildable : Rebuildable s.catalog disk.recovered) :
    ∃ db, Database.open disk = .ok db ∧ db.storage.contents = disk.recovered := by
  have ascending : Ascending disk.walLog := by
    rcases log with log | log
    · rw [log]
      exact kept.logs.ascending
    · rw [log]
      exact List.Pairwise.nil
  have known : ∀ entry ∈ committedRecords disk.readable, ∀ cell, entry.2.cellOp = some cell →
      cell.key.1 ∈ diskCatalog disk.metaBin := by
    intro entry member cell found
    rcases log with log | log
    · rw [Disk.readable, log, committedRecords_filter kept.logs.ascending kept.logs.closed] at member
      rw [catalog]
      exact kept.catalog.symm ▸ kept.known_of_committed current (List.mem_filter.mp member).1 found
    · rw [Disk.readable, log] at member
      cases member
  obtain ⟨db, opened, -, contents⟩ := open_accepts ascending known (by
    rw [catalog, kept.catalog]
    exact rebuildable)
  exact ⟨db, opened, contents⟩

/-- While tables are being saved, replay reads the same records. -/
theorem SavingTables.recovered (saving : SavingTables s disk) :
    disk.recovered = replayOps (readChanges s) (diskContents disk.datFiles) := by
  have readable : disk.readable = s.disk.readable := by
    rw [Disk.readable, saving.log, saving.mark]
    rfl
  rw [Disk.recovered, readable]
  rfl

/-- Once the tables are saved, replay arrives at the rows in memory. -/
theorem TablesSaved.recovered (saved : TablesSaved s disk) (kept : Kept s l)
    (idle : s.session.transaction.txnId = none) (current : l.stale = false) :
    disk.recovered = s.storage.contents := by
  rw [Disk.recovered, saved.files]
  rcases saved.mark with ⟨log, mark⟩ | mark
  · have all : disk.readable = s.storage.wal.file := by
      rw [Disk.readable, log, mark]
      exact List.filter_eq_self.mpr fun entry member =>
        decide_eq_true (kept.logs.numbered entry member).1
    rw [all]
    exact (kept.replay_live idle current).1
  · have nothing : disk.readable = [] := by
      rw [Disk.readable, mark]
      refine List.filter_eq_nil_iff.mpr fun entry member => ?_
      have low : entry.1 ≤ s.storage.wal.lsn := by
        rcases saved.log with log | log
        · exact (kept.logs.numbered entry (log ▸ member)).2
        · rw [log] at member
          cases member
      exact fun beyond => Nat.not_lt.mpr low (of_decide_eq_true beyond)
    rw [nothing]
    rfl

section Crashes

variable [Runtime]

/-- Wherever a checkpoint is cut off, the directory opens, and those of the rows that
opening would have shown before it are there. -/
def CrashSafe (s : Executor) (rows : RowKey → Prop) : Prop :=
  ∀ tables : List String, tables.Perm s.storage.tables.keys → ∀ steps,
    ∃ db, Database.open (s.crashAfter tables steps) = .ok db ∧
      ∀ before, Database.open s.disk = .ok before → ∀ key values, rows key →
        before.storage.contents key = some values → db.storage.contents key = some values

variable {rows : RowKey → Prop}

/-- The whole checkpoint keeps those of the rows that are in memory. -/
theorem CrashSafe.stored (safe : CrashSafe s rows) (kept : Kept s l) (plain : s.storage.FileNames)
    {key : RowKey} {values : List Value} (counted : rows key)
    (shown : s.disk.recovered key = some values) : s.storage.contents key = some values := by
  obtain ⟨before, opened, -⟩ := safe _ (List.Perm.refl _) 0
  obtain ⟨db, reopened, keeps⟩ := safe _ (Runtime.hashOrder.perm "tables" s.storage.tables.keys)
    (checkpointSteps (Runtime.hashOrder.order "tables" s.storage.tables.keys)).length
  rw [crashAfter_all] at reopened
  have shownBefore := (congrFun (open_contents kept.logs.ascending opened) key).trans shown
  have still := keeps before opened key values counted shownBefore
  have ascending : Ascending ({ s with storage := s.storage.checkpoint } : Executor).disk.walLog :=
    List.Pairwise.nil
  rw [open_contents ascending reopened] at still
  rw [← diskContents_checkpoint kept.files plain]
  exact still

end Crashes

end Recovery

end MoodengSQL
