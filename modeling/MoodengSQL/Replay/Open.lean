import MoodengSQL.Replay.Serial
import MoodengSQL.Execution.Consistency

/-!
# Opening a data directory

What `Database::open` makes of the files: the rows of the `.dat` files with the
committed records of the log replayed over them. It succeeds when the catalog
knows the tables of these records and the rows can be indexed again.
-/

namespace MoodengSQL

open Foundation Std

/-- The row values opening finds in the `.dat` files. -/
def diskContents (datFiles : Map String (FileImage TableData)) : Contents :=
  fun key => (tablesView (StorageEngine.loadAll datFiles) key).map Row.values

/-- The catalog in `meta.bin`. -/
def diskCatalog (metaBin : Option (FileImage DatabaseSnapshot)) : Catalog :=
  match loadSnapshot metaBin with
  | some snapshot => Catalog.loadTables ∅ snapshot.tables
  | none => ∅

/-- The records replay reads: those beyond the checkpoint. -/
def Disk.readable (disk : Disk) : List WalEntry :=
  disk.walLog.filter (WriteAheadLog.readCheckpointLsn disk.checkpointBin < ·.1)

/-- The row values replay arrives at. -/
def Disk.recovered (disk : Disk) : Contents :=
  replayOps (cellOps (committedRecords disk.readable)) (diskContents disk.datFiles)

section Replay

variable [Runtime] {storage storage' : StorageEngine}

theorem applyWalOp_ok {op : WalOp} (ran : applyWalOp storage op false = .ok storage') :
    storage'.contents = replayOps op.cellOp.toList storage.contents := by
  have known : ∀ {table : String} {α : Type} {result : Except Failure α} {a : α},
      (table ∉ storage.tables → ∃ e, result = .error e) → result = .ok a →
      table ∈ storage.tables := by
    intro table α result a fails ran
    by_contra unknown
    obtain ⟨e, failed⟩ := fails unknown
    rw [failed] at ran
    cases ran
  cases op with
  | begin => cases ran; rfl
  | commit => cases ran; rfl
  | abort => cases ran; rfl
  | insert id table rowId row =>
      obtain ⟨tables, applied, -, view⟩ := storage.applyInsert_spec table rowId row 0
      simp only [applyWalOp, applied, Except.ok.injEq] at ran
      subst ran
      exact StorageEngine.contents_with_tables view
  | update id table rowId row =>
      have member : table ∈ storage.tables := by
        refine known (fun unknown => ?_) ran
        have missing := ExtTreeMap.getElem?_eq_none unknown
        exact ⟨.error (.tableNotFound table), by
          simp only [applyWalOp, StorageEngine.applyUpdate, missing, Except.map]⟩
      obtain ⟨changed, tables, applied, -, view⟩ :=
        StorageEngine.applyUpdate_spec member rowId row 0
      simp only [applyWalOp, applied, Except.map, Except.ok.injEq] at ran
      subst ran
      simp only [WalOp.cellOp, Option.toList_some, replayOps, List.foldl_cons, List.foldl_nil,
        CellOp.apply, CellOp.key, CellOp.result]
      cases present : storage.view (table, rowId) with
      | none =>
          rw [present] at view
          have empty : storage.contents (table, rowId) = none := by
            rw [StorageEngine.contents, present]
            rfl
          rw [empty, Option.map_none, ← empty, Function.update_eq_self]
          funext key
          rw [StorageEngine.contents, StorageEngine.view, view]
          rfl
      | some existing =>
          rw [present] at view
          have stored : storage.contents (table, rowId) = some existing.values := by
            rw [StorageEngine.contents, present]
            rfl
          rw [stored]
          exact StorageEngine.contents_with_tables view
  | delete id table rowId =>
      have member : table ∈ storage.tables := by
        refine known (fun unknown => ?_) ran
        have missing := ExtTreeMap.getElem?_eq_none unknown
        exact ⟨.error (.tableNotFound table), by
          simp only [applyWalOp, StorageEngine.applyDelete, missing, Except.map]⟩
      obtain ⟨changed, tables, applied, -, view⟩ :=
        StorageEngine.applyDelete_spec member rowId 0
      simp only [applyWalOp, applied, Except.map, Except.ok.injEq] at ran
      subst ran
      exact StorageEngine.contents_with_tables view

/-- A record of a known table is applied, and the tables stay known. -/
theorem applyWalOp_accepts {op : WalOp}
    (known : ∀ cell, op.cellOp = some cell → cell.key.1 ∈ storage.tables) :
    ∃ storage', applyWalOp storage op false = .ok storage' ∧
      ∀ name ∈ storage.tables, name ∈ storage'.tables := by
  cases op with
  | begin => exact ⟨storage, rfl, fun _ => id⟩
  | commit => exact ⟨storage, rfl, fun _ => id⟩
  | abort => exact ⟨storage, rfl, fun _ => id⟩
  | insert txnId table rowId row =>
      obtain ⟨tables, applied, grows, -⟩ := storage.applyInsert_spec table rowId row 0
      exact ⟨{ storage with tables }, by simp only [applyWalOp, applied], grows⟩
  | update txnId table rowId row =>
      obtain ⟨changed, tables, applied, grows, -⟩ :=
        StorageEngine.applyUpdate_spec (known _ rfl) rowId row 0
      exact ⟨{ storage with tables }, by simp only [applyWalOp, CellOp.key, applied, Except.map] at *,
        grows⟩
  | delete txnId table rowId =>
      obtain ⟨changed, tables, applied, grows, -⟩ :=
        StorageEngine.applyDelete_spec (known _ rfl) rowId 0
      exact ⟨{ storage with tables }, by simp only [applyWalOp, CellOp.key, applied, Except.map] at *,
        grows⟩

theorem applyEntries_ok {entries : List WalEntry}
    (ran : applyEntries storage entries = (.ok (), storage')) :
    storage'.contents = replayOps (cellOps entries) storage.contents := by
  induction entries generalizing storage with
  | nil =>
      cases ran
      rfl
  | cons entry rest ih =>
      unfold applyEntries at ran
      cases applied : applyWalOp storage entry.2 false with
      | error e =>
          rw [applied] at ran
          cases ran
      | ok mid =>
          rw [applied] at ran
          have head : cellOps (entry :: rest) = entry.2.cellOp.toList ++ cellOps rest := by
            unfold cellOps
            rw [List.filterMap_cons]
            cases entry.2.cellOp <;> rfl
          rw [ih ran, applyWalOp_ok applied, head, replayOps_append]

theorem applyEntries_accepts {entries : List WalEntry}
    (known : ∀ entry ∈ entries, ∀ cell, entry.2.cellOp = some cell →
      cell.key.1 ∈ storage.tables) :
    ∃ storage', applyEntries storage entries = (.ok (), storage') := by
  induction entries generalizing storage with
  | nil => exact ⟨storage, rfl⟩
  | cons entry rest ih =>
      obtain ⟨mid, applied, grows⟩ := applyWalOp_accepts (known entry List.mem_cons_self)
      obtain ⟨storage', ran⟩ := ih fun other member cell found =>
        grows _ (known other (List.mem_cons_of_mem _ member) cell found)
      refine ⟨storage', ?_⟩
      unfold applyEntries
      rw [applied]
      exact ran

omit [Runtime] in
theorem ensureTables_spec (names : List String) (storage : StorageEngine) :
    (names.foldl StorageEngine.ensureTable storage).contents = storage.contents ∧
      (names.foldl StorageEngine.ensureTable storage).wal = storage.wal ∧
      (∀ name ∈ storage.tables, name ∈ (names.foldl StorageEngine.ensureTable storage).tables) ∧
      ∀ name ∈ names, name ∈ (names.foldl StorageEngine.ensureTable storage).tables := by
  induction names generalizing storage with
  | nil => exact ⟨rfl, rfl, fun _ => id, by simp⟩
  | cons first rest ih =>
      obtain ⟨contents, wal, grows, members⟩ := ih (storage.ensureTable first)
      have kept : ∀ name, name = first ∨ name ∈ storage.tables →
          name ∈ (storage.ensureTable first).tables := by
        intro name either
        refine ExtTreeMap.mem_insertIfNew.mpr (either.imp_left fun same => ?_)
        subst same
        exact Std.compare_self
      refine ⟨contents.trans (contents_ensureTable storage first), wal,
        fun name member => grows name (kept name (.inr member)), fun name member => ?_⟩
      rcases List.mem_cons.mp member with same | member
      · exact grows name (kept name (.inl same))
      · exact members name member

/-- The storage replay starts from. -/
def Disk.prepared (disk : Disk) : StorageEngine :=
  (diskCatalog disk.metaBin).listTables.foldl StorageEngine.ensureTable
    (.open (.open disk.walLog disk.checkpointBin) disk.datFiles)

omit [Runtime] in
theorem Disk.contents_prepared (disk : Disk) :
    disk.prepared.contents = diskContents disk.datFiles :=
  (ensureTables_spec _ _).1

theorem Disk.replayWal_prepared {disk : Disk} (ascending : Ascending disk.walLog) :
    replayWal disk.prepared =
      match applyEntries disk.prepared (committedRecords disk.readable) with
      | (.ok (), storage) => (.ok (committedRecords disk.readable).length, storage)
      | (.error e, storage) => (.error e, storage) := by
  have wal : disk.prepared.wal = .open disk.walLog disk.checkpointBin :=
    (ensureTables_spec _ _).2.1
  have readable : Ascending disk.readable := List.Pairwise.filter _ ascending
  have sorted : Ascending (committedRecords disk.readable) := List.Pairwise.filter _ readable
  rw [replayWal, wal]
  change replayEntries disk.prepared disk.readable = _
  have replayed := replayEntries_eq readable.distinctLsns disk.prepared
  rw [sorted.sortByLsn] at replayed
  exact replayed

/-- Opening replays the log over the prepared storage and rebuilds the indexes. -/
theorem open_eq_ok {disk : Disk} {db : Database} :
    Database.open disk = .ok db ↔ ∃ replayed indexes,
      (replayWal disk.prepared).1 = .ok replayed ∧
      rebuildAll (diskCatalog disk.metaBin) (replayWal disk.prepared).2 = .ok indexes ∧
      db = { catalog := diskCatalog disk.metaBin, storage := (replayWal disk.prepared).2, indexes
             activeWriteTxns := 0, metaFile := disk.metaBin } := by
  change (do
      let _ ← (replayWal disk.prepared).1
      let indexes ← rebuildAll (diskCatalog disk.metaBin) (replayWal disk.prepared).2
      Except.ok (ε := Failure) (Database.mk (diskCatalog disk.metaBin)
        (replayWal disk.prepared).2 indexes 0 disk.metaBin)) = .ok db ↔ _
  simp only [Effect.except_bind_eq_ok, Except.ok.injEq]
  constructor
  · rintro ⟨replayed, ran, indexes, rebuilt, rfl⟩
    exact ⟨replayed, indexes, ran, rebuilt, rfl⟩
  · rintro ⟨replayed, indexes, ran, rebuilt, rfl⟩
    exact ⟨replayed, ran, indexes, rebuilt, rfl⟩

theorem applyWalOp_outcome {op : WalOp} (ran : applyWalOp storage op false = .ok storage') :
    ∃ tables, storage' = { storage with tables } ∧ ∀ name ∈ storage.tables, name ∈ tables := by
  have same : ∃ tables, storage = { storage with tables } ∧
      ∀ name ∈ storage.tables, name ∈ tables := ⟨storage.tables, rfl, fun _ => id⟩
  cases op with
  | begin => cases ran; exact same
  | commit => cases ran; exact same
  | abort => cases ran; exact same
  | insert txnId table rowId row =>
      cases ran
      obtain ⟨tables, applied, grows, -⟩ := storage.applyInsert_spec table rowId row 0
      exact ⟨tables, applied, grows⟩
  | update txnId table rowId row =>
      cases updated : storage.applyUpdate table rowId row false 0 with
      | error e => simp only [applyWalOp, updated, Except.map, reduceCtorEq] at ran
      | ok result =>
          simp only [applyWalOp, updated, Except.map, Except.ok.injEq] at ran
          exact ran ▸ StorageEngine.applyUpdate_outcome updated
  | delete txnId table rowId =>
      cases deleted : storage.applyDelete table rowId false 0 with
      | error e => simp only [applyWalOp, deleted, Except.map, reduceCtorEq] at ran
      | ok result =>
          simp only [applyWalOp, deleted, Except.map, Except.ok.injEq] at ran
          exact ran ▸ StorageEngine.applyDelete_outcome deleted

/-- Replay changes nothing but the tables, and drops none. -/
theorem replayWal_outcome (storage : StorageEngine) :
    ∃ tables, (replayWal storage).2 = { storage with tables } ∧
      ∀ name ∈ storage.tables, name ∈ tables := by
  have entries : ∀ (entries : List WalEntry) (storage : StorageEngine),
      ∃ tables, (applyEntries storage entries).2 = { storage with tables } ∧
        ∀ name ∈ storage.tables, name ∈ tables := by
    intro entries
    induction entries with
    | nil => exact fun storage => ⟨storage.tables, rfl, fun _ => id⟩
    | cons entry rest ih =>
        intro storage
        unfold applyEntries
        cases applied : applyWalOp storage entry.2 false with
        | error e => exact ⟨storage.tables, rfl, fun _ => id⟩
        | ok mid =>
            obtain ⟨grown, rfl, grows⟩ := applyWalOp_outcome applied
            obtain ⟨tables, ended, later⟩ := ih { storage with tables := grown }
            exact ⟨tables, ended, fun name member => later name (grows name member)⟩
  unfold replayWal replayEntries
  dsimp only
  generalize sortByLsn _ = sorted
  obtain ⟨tables, ended, grows⟩ := entries sorted storage
  refine ⟨tables, ?_, grows⟩
  rw [← ended]
  cases applyEntries storage sorted with
  | mk outcome replayed => cases outcome <;> rfl

/-- The storage of an opened database is the prepared one with its tables
replayed. -/
theorem open_storage {disk : Disk} {db : Database} (opened : Database.open disk = .ok db) :
    ∃ tables, db.storage = { disk.prepared with tables } ∧
      ∀ name ∈ disk.prepared.tables, name ∈ tables := by
  obtain ⟨_, _, -, -, rfl⟩ := open_eq_ok.mp opened
  exact replayWal_outcome disk.prepared

/-- **An opened database holds the saved catalog, the recovered rows, and the
indexes rebuilt from them.** -/
theorem open_ok {disk : Disk} {db : Database} (ascending : Ascending disk.walLog)
    (opened : Database.open disk = .ok db) :
    db.catalog = diskCatalog disk.metaBin ∧ db.storage.contents = disk.recovered ∧
      rebuildAll db.catalog db.storage = .ok db.indexes := by
  obtain ⟨replayed, indexes, ran, rebuilt, rfl⟩ := open_eq_ok.mp opened
  refine ⟨rfl, ?_, rebuilt⟩
  dsimp only
  rw [Disk.replayWal_prepared ascending] at ran ⊢
  cases applied : applyEntries disk.prepared (committedRecords disk.readable) with
  | mk outcome storage =>
      rw [applied] at ran
      cases outcome with
      | error e => cases ran
      | ok u =>
          have contents := applyEntries_ok applied
          rwa [disk.contents_prepared] at contents

theorem open_contents {disk : Disk} {db : Database} (ascending : Ascending disk.walLog)
    (opened : Database.open disk = .ok db) : db.storage.contents = disk.recovered :=
  (open_ok ascending opened).2.1

/-- **Opening succeeds** when the catalog knows the tables of the committed
records and the recovered rows can be indexed. -/
theorem open_accepts {disk : Disk} (ascending : Ascending disk.walLog)
    (known : ∀ entry ∈ committedRecords disk.readable, ∀ cell, entry.2.cellOp = some cell →
      cell.key.1 ∈ diskCatalog disk.metaBin)
    (rebuildable : Rebuildable (diskCatalog disk.metaBin) disk.recovered) :
    ∃ db, Database.open disk = .ok db ∧ db.catalog = diskCatalog disk.metaBin ∧
      db.storage.contents = disk.recovered := by
  have tables := (ensureTables_spec (diskCatalog disk.metaBin).listTables
    (.open (.open disk.walLog disk.checkpointBin) disk.datFiles)).2.2.2
  have listed : ∀ entry ∈ committedRecords disk.readable, ∀ cell, entry.2.cellOp = some cell →
      cell.key.1 ∈ disk.prepared.tables := fun entry member cell found =>
    tables _ (ExtTreeMap.mem_keys.mpr (known entry member cell found))
  obtain ⟨storage, applied⟩ := applyEntries_accepts listed
  have contents := applyEntries_ok applied
  rw [disk.contents_prepared] at contents
  obtain ⟨indexes, rebuilt, -⟩ := rebuildAll_spec (by
    rw [contents]
    exact rebuildable)
  have replayed : replayWal disk.prepared = (.ok (committedRecords disk.readable).length, storage) := by
    rw [Disk.replayWal_prepared ascending, applied]
  refine ⟨Database.mk (diskCatalog disk.metaBin) storage indexes 0 disk.metaBin, ?_, rfl,
    contents⟩
  apply open_eq_ok.mpr
  rw [replayed]
  exact ⟨_, indexes, rfl, rebuilt, rfl⟩

end Replay

end MoodengSQL
