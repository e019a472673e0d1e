import MoodengSQL.Recovery.Shutdown

/-!
# Backups of one directory restored into another

A live backup waits until no write transaction is counted as open, takes a checkpoint
and archives the files of the directory. Restoring writes the archived files over what
is in the target directory and leaves the others there. The directories are those of
databases that hold their tables in memory: the log, the checkpoint file, a `.dat` file
for each table and the catalog.
-/

namespace MoodengSQL

open Foundation Foundation.Effect Std

section Backup

/-- `restore`: the files of the archive are written over those of the directory. A
backup of an open database has a log. -/
def Disk.restoreInto (archive target : Disk) : Disk where
  walLog := archive.walLog
  checkpointBin := archive.checkpointBin.or target.checkpointBin
  datFiles := target.datFiles ∪ archive.datFiles
  metaBin := archive.metaBin.or target.metaBin

/-- `wait_for_write_txns`. With no other session at work nobody moves the counter, so
the wait returns at once or never. -/
def waitForWriteTxns (activeWriteTxns : Nat) : Option Unit :=
  if activeWriteTxns = 0 then some () else none

/-- `backup_live` on a database that no other session uses: `none` where it never
returns. -/
def backupLive [Runtime] (s : Executor) : Option (EStateM.Result Failure Executor Disk) := do
  waitForWriteTxns s.activeWriteTxns
  waitForWriteTxns s.activeWriteTxns
  match checkpointDatabase s with
  | .ok _ s' => some (.ok s'.disk.archived s')
  | .error e s' => some (.error e s')

end Backup

section Tables

/-- If the tables of the first state are in storage, so are those of the second. -/
def KeepsBacked (s s' : Executor) : Prop := Backed s → Backed s'

instance : IsPreorder Executor KeepsBacked where
  refl _ := id
  trans _ _ _ first second := second ∘ first

theorem KeepsBacked.of_tables {s : Executor} {storage : StorageEngine}
    (grows : ∀ name ∈ s.storage.tables, name ∈ storage.tables) :
    KeepsBacked s { s with storage } :=
  fun backed table known => grows table (backed table known)

variable [Runtime]

theorem keepsBacked_rules : SessionRules KeepsBacked where
  reindex _ _ _ := id
  bookkeeping _ _ _ _ := id
  begins _ _ _ := id
  finishes _ _ _ _ _ _ _ := id
  inserts s table row txnId _ := by
    obtain ⟨rowId, tables, inserted, -, grows, -⟩ := s.storage.insert_spec table row txnId
    rw [inserted]
    exact .of_tables fun name member => (StorageEngine.tables_log _ _).symm ▸ grows name member
  updates s table rowId row txnId version changed storage _ ran := by
    rcases StorageEngine.update_outcome ran with ⟨-, -, rfl⟩ | ⟨-, _, tables, -, -, rfl, grows, -⟩
    · exact .of_tables fun _ => id
    · exact .of_tables fun name member => (StorageEngine.tables_log _ _).symm ▸ grows name member
  deletes s table rowId txnId deleted storage _ ran := by
    obtain ⟨tables, grows, -, rfl, -⟩ := StorageEngine.delete_outcome ran
    refine .of_tables fun name member => ?_
    split
    · rw [StorageEngine.tables_log]
      exact grows name member
    · exact grows name member
  undoInsert s table rowId row := by
    obtain ⟨tables, applied, grows, -⟩ := s.storage.applyInsert_spec table rowId row 0
    rw [applied]
    exact .of_tables grows
  undoUpdate s table rowId row changed storage ran := by
    obtain ⟨tables, rfl, grows⟩ := StorageEngine.applyUpdate_outcome ran
    exact .of_tables grows
  undoDelete s table rowId deleted storage ran := by
    obtain ⟨tables, rfl, grows⟩ := StorageEngine.applyDelete_outcome ran
    exact .of_tables grows

omit [Runtime] in
/-- An index is added to a table the catalog has. -/
theorem Backed.addIndex {s : Executor} (backed : Backed s) {table : String} {index : IndexMeta}
    {catalog : Catalog} (added : s.catalog.addIndex table index = .ok catalog)
    (indexes : IndexManager) : Backed { s with indexes, catalog } := by
  obtain ⟨schema, found, -, rfl⟩ := addIndex_eq_ok added
  intro name known
  rcases ExtTreeMap.mem_insert.mp known with same | known
  · obtain rfl : table = name := LawfulEqOrd.eq_of_compare same
    exact backed table (Map.mem_of_getElem?_eq_some found)
  · exact backed name known

omit [Runtime] in
theorem keepsBacked_createPrimaryKeyIndex (table : String) (columns : List ColumnDef) :
    Moves KeepsBacked (createPrimaryKeyIndex table columns) := by
  intro s backed
  unfold createPrimaryKeyIndex
  dsimp only
  split
  · exact backed
  · rw [finalState_bind_of_ok (get_eq_ok.mpr ⟨rfl, rfl⟩)]
    cases created : s.indexes.createIndex table (.new (table ++ "_pkey")
        ((columns.filter ColumnDef.primaryKey).map ColumnDef.name) true) with
    | error e => exact backed
    | ok indexes =>
        rw [finalState_bind_of_ok (ExecM.lift_eq_ok.mpr ⟨rfl, rfl⟩), finalState_modify_bind]
        cases added : s.catalog.addIndex table { name := table ++ "_pkey", columns :=
          (columns.filter ColumnDef.primaryKey).map ColumnDef.name, unique := true } with
        | error e => exact backed
        | ok catalog => exact backed.addIndex added indexes

theorem keepsBacked_createTable (name : ObjectName) (columns : List SqlColumnDef)
    (constraints : List TableConstraint) :
    Moves KeepsBacked (createTable name columns constraints) := by
  refine .seq (Moves.lift _) fun colDefs => fun s backed => ?_
  rw [finalState_bind_of_ok (get_eq_ok.mpr ⟨rfl, rfl⟩)]
  cases created : s.catalog.createTable (extractTableName name)
    (markPrimaryKeys (extractPkFromConstraints constraints) colDefs) with
  | error e => exact backed
  | ok catalog =>
      have bare : Backed { s with
          catalog, storage := s.storage.ensureTable (extractTableName name) } := by
        obtain ⟨-, rfl⟩ := createTable_eq_ok created
        intro table known
        refine ExtTreeMap.mem_insertIfNew.mpr ?_
        exact (ExtTreeMap.mem_insert.mp known).imp_right (backed table)
      rw [finalState_bind_of_ok (ExecM.lift_eq_ok.mpr ⟨rfl, rfl⟩), finalState_modify_bind,
        finalState_bind_pure]
      exact keepsBacked_createPrimaryKeyIndex _ _ _ bare

omit [Runtime] in
theorem keepsBacked_dropTable (table : String) : Moves KeepsBacked (dropTable table) := by
  intro s backed
  unfold dropTable
  rw [finalState_bind_of_ok (get_eq_ok.mpr ⟨rfl, rfl⟩)]
  cases dropped : s.catalog.dropTable table with
  | error e => exact backed
  | ok catalog =>
      obtain ⟨-, rfl⟩ := dropTable_eq_ok dropped
      intro name known
      obtain ⟨differ, known⟩ := ExtTreeMap.mem_erase.mp known
      exact ExtTreeMap.mem_erase.mpr ⟨differ, backed name known⟩

omit [Runtime] in
theorem keepsBacked_createIndex (table indexName : String) (columns : List String)
    (unique : Bool) : Moves KeepsBacked (createIndex table indexName columns unique) := by
  intro s backed
  unfold createIndex
  rw [finalState_bind_of_ok (get_eq_ok.mpr ⟨rfl, rfl⟩)]
  cases found : s.catalog.getTable table with
  | error e => exact backed
  | ok schema =>
      rw [finalState_bind_of_ok (ExecM.lift_eq_ok.mpr ⟨rfl, rfl⟩)]
      cases columns.find? fun column => (Catalog.columnIndex schema column).isNone with
      | some column => exact backed
      | none =>
          cases built : buildIndex schema.colNames (.new indexName columns unique)
            (s.storage.scan table) with
          | error e => exact backed
          | ok index =>
              rw [finalState_bind_of_ok (ExecM.lift_eq_ok.mpr ⟨rfl, rfl⟩)]
              cases created : s.indexes.createIndex table index with
              | error e => exact backed
              | ok indexes =>
                  rw [finalState_bind_of_ok (ExecM.lift_eq_ok.mpr ⟨rfl, rfl⟩),
                    finalState_modify_bind]
                  cases added : s.catalog.addIndex table
                    { name := indexName, columns, unique } with
                  | error e => exact backed
                  | ok catalog => exact backed.addIndex added indexes

/-- Whatever calls a session makes and however they end, the tables of the catalog
are in storage. -/
theorem Called.backed {s : Executor} (called : Called s) : Backed s := by
  induction called with
  | fresh => exact fun table known => absurd known ExtTreeMap.not_mem_empty
  | call _ stmts ih =>
      have moves : Moves KeepsBacked (executeSession stmts) :=
        Moves.executeSession (keepsBacked_rules.statement keepsBacked_createTable
          keepsBacked_dropTable keepsBacked_createIndex) (Moves.write fun _ => id) stmts
      exact moves _ ih
  | checkpoint _ ih =>
      intro table known
      exact (StorageEngine.tables_checkpoint _).symm ▸ ih table known

end Tables

section Restoring

variable [Runtime] {s : Executor}

/-- A live backup returns, and its archive, restored into a directory, opens there with
the catalog, the index definitions and the rows that the database had. -/
def RestoresInto (s : Executor) (target : Disk) : Prop :=
  ∃ archive s' db, backupLive s = some (.ok archive s') ∧
    Database.open (archive.restoreInto target) = .ok db ∧ db.catalog = s.catalog ∧
    SameDefinitions s.indexes db.indexes ∧
    ∀ table ∈ s.catalog, ∀ id, db.storage.contents (table, id) = s.storage.contents (table, id)

end Restoring

end MoodengSQL
