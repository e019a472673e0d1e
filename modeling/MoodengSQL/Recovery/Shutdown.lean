import MoodengSQL.Recovery.Durability
import MoodengSQL.Execution.Moves

/-!
# Clean shutdowns

A checkpoint followed by opening the directory again. Whatever the calls of a
session did and however they ended, the checkpoint saves every row and the
catalog, so as long as the names of the tables can be those of files, opening
succeeds with the same tables exactly when the rows differ in the keys of the
unique indexes. The tables are those of the default options, held in memory.
-/

namespace MoodengSQL

open Foundation Foundation.Effect Std

/-- What every call keeps, whatever its outcome: the catalog and the index
definitions agree, and the files taken for tables belong to tables in memory. -/
structure Saveable (s : Executor) : Prop where
  defined : Defined s.catalog s.indexes
  files : s.storage.FilesKnown

/-- If the first state can be saved, so can the second. -/
def KeepsSaveable (s s' : Executor) : Prop := Saveable s → Saveable s'

instance : IsPreorder Executor KeepsSaveable where
  refl _ := id
  trans _ _ _ first second := second ∘ first

theorem Defined.of_sameDefinitions {catalog : Catalog} {manager manager' : IndexManager}
    (defined : Defined catalog manager) (same : SameDefinitions manager manager') :
    Defined catalog manager' :=
  ⟨defined.named, defined.namesDiffer, defined.definitions.of_sameDefinitions same⟩

theorem KeepsSaveable.of_files {s : Executor} {storage : StorageEngine}
    (files : s.storage.FilesKnown → storage.FilesKnown) :
    KeepsSaveable s { s with storage } :=
  fun saveable => ⟨saveable.defined, files saveable.files⟩

section Files

variable {storage storage' : StorageEngine}

variable [Runtime]

theorem StorageEngine.FilesKnown.log (known : storage.FilesKnown) (op : WalOp) :
    (storage.log op).FilesKnown := by
  unfold StorageEngine.log StorageEngine.maybeCheckpoint
  split
  · exact filesKnown_checkpoint (known.grow fun _ => id)
  · exact known.grow fun _ => id

end Files

section Calls

variable [Runtime]

theorem keepsSaveable_rules : SessionRules KeepsSaveable where
  reindex _ _ same saveable := ⟨saveable.defined.of_sameDefinitions same, saveable.files⟩
  bookkeeping _ _ _ _ saveable := ⟨saveable.defined, saveable.files⟩
  begins _ _ _ saveable := ⟨saveable.defined, saveable.files.grow fun _ => id⟩
  finishes _ _ _ _ _ _ _ saveable := ⟨saveable.defined, saveable.files.grow fun _ => id⟩
  inserts s table row txnId _ := by
    obtain ⟨rowId, tables, inserted, -, grows, -⟩ := s.storage.insert_spec table row txnId
    rw [inserted]
    exact .of_files fun known => (known.grow grows).log _
  updates s table rowId row txnId version changed storage _ ran := by
    rcases StorageEngine.update_outcome ran with ⟨-, -, rfl⟩ | ⟨-, _, tables, -, -, rfl, grows, -⟩
    · exact .of_files id
    · exact .of_files fun known => (known.grow grows).log _
  deletes s table rowId txnId deleted storage _ ran := by
    obtain ⟨tables, grows, -, rfl, -⟩ := StorageEngine.delete_outcome ran
    apply KeepsSaveable.of_files
    intro known
    split
    · exact (known.grow grows).log _
    · exact known.grow grows
  undoInsert s table rowId row := by
    obtain ⟨tables, applied, grows, -⟩ := s.storage.applyInsert_spec table rowId row 0
    rw [applied]
    exact .of_files fun known => known.grow grows
  undoUpdate s table rowId row changed storage ran := by
    obtain ⟨tables, rfl, grows⟩ := StorageEngine.applyUpdate_outcome ran
    exact .of_files fun known => known.grow grows
  undoDelete s table rowId deleted storage ran := by
    obtain ⟨tables, rfl, grows⟩ := StorageEngine.applyDelete_outcome ran
    exact .of_files fun known => known.grow grows

omit [Runtime] in
/-- An index that the manager accepts for a known table is accepted by the
catalog too. -/
theorem Saveable.register {s : Executor} {table : String} {index : BTreeIndex}
    {indexes : IndexManager} (saveable : Saveable s) (known : table ∈ s.catalog)
    (created : s.indexes.createIndex table index = .ok indexes) :
    ∃ catalog, s.catalog.addIndex table index.definition = .ok catalog ∧
      Saveable { s with indexes, catalog } := by
  obtain ⟨schema, found⟩ := Option.isSome_iff_exists.mp
    (ExtTreeMap.mem_iff_isSome_getElem?.mp known)
  have absent := saveable.defined.definitions table index.name
  rw [createIndex_absent created, found, Option.map_none, Option.bind_some, eq_comm,
    List.find?_eq_none] at absent
  obtain ⟨catalog, added⟩ : ∃ catalog,
      s.catalog.addIndex table index.definition = .ok catalog := by
    unfold Catalog.addIndex
    rw [found]
    refine ⟨_, if_neg fun taken => ?_⟩
    obtain ⟨other, member, sameName⟩ := List.any_eq_true.mp taken
    exact absent other member sameName
  exact ⟨catalog, added, saveable.defined.addIndex created added, saveable.files⟩

omit [Runtime] in
theorem Saveable.createPrimaryKeyIndex {s : Executor} {table : String} (saveable : Saveable s)
    (known : table ∈ s.catalog) (columns : List ColumnDef) :
    Saveable (finalState (createPrimaryKeyIndex table columns) s) := by
  unfold MoodengSQL.createPrimaryKeyIndex
  dsimp only
  split
  · exact saveable
  · rw [finalState_bind_of_ok (get_eq_ok.mpr ⟨rfl, rfl⟩)]
    cases created : s.indexes.createIndex table (.new (table ++ "_pkey")
        ((columns.filter ColumnDef.primaryKey).map ColumnDef.name) true) with
    | error e => exact saveable
    | ok indexes =>
        obtain ⟨catalog, added, registered⟩ := saveable.register known created
        dsimp only [BTreeIndex.definition, BTreeIndex.new] at added
        rw [finalState_bind_of_ok (ExecM.lift_eq_ok.mpr ⟨rfl, rfl⟩),
          finalState_modify_bind,
          finalState_bind_of_ok (ExecM.lift_eq_ok.mpr ⟨added, rfl⟩)]
        exact registered

theorem keepsSaveable_createTable (name : ObjectName) (columns : List SqlColumnDef)
    (constraints : List TableConstraint) :
    Moves KeepsSaveable (createTable name columns constraints) := by
  refine .seq (Moves.lift _) fun colDefs => fun s saveable => ?_
  rw [finalState_bind_of_ok (get_eq_ok.mpr ⟨rfl, rfl⟩)]
  cases created : s.catalog.createTable (extractTableName name)
    (markPrimaryKeys (extractPkFromConstraints constraints) colDefs) with
  | error e => exact saveable
  | ok catalog =>
      have bare : Saveable { s with
          catalog, storage := s.storage.ensureTable (extractTableName name) } :=
        ⟨saveable.defined.createTable created, saveable.files.ensureTable _⟩
      have known : extractTableName name ∈ catalog := by
        obtain ⟨-, rfl⟩ := createTable_eq_ok created
        exact ExtTreeMap.mem_insert_self
      have keyed := bare.createPrimaryKeyIndex known
        (markPrimaryKeys (extractPkFromConstraints constraints) colDefs)
      rw [finalState_bind_of_ok (ExecM.lift_eq_ok.mpr ⟨rfl, rfl⟩),
        finalState_modify_bind]
      exact (finalState_bind_pure _ _ _).symm ▸ keyed

omit [Runtime] in
theorem keepsSaveable_dropTable (table : String) : Moves KeepsSaveable (dropTable table) := by
  intro s saveable
  unfold dropTable
  rw [finalState_bind_of_ok (get_eq_ok.mpr ⟨rfl, rfl⟩)]
  cases dropped : s.catalog.dropTable table with
  | error e => exact saveable
  | ok catalog => exact ⟨saveable.defined.dropTable dropped, saveable.files.dropTable table⟩

omit [Runtime] in
theorem keepsSaveable_createIndex (table indexName : String) (columns : List String)
    (unique : Bool) : Moves KeepsSaveable (createIndex table indexName columns unique) := by
  intro s saveable
  unfold createIndex
  rw [finalState_bind_of_ok (get_eq_ok.mpr ⟨rfl, rfl⟩)]
  cases found : s.catalog.getTable table with
  | error e => exact saveable
  | ok schema =>
      rw [finalState_bind_of_ok (ExecM.lift_eq_ok.mpr ⟨rfl, rfl⟩)]
      cases columns.find? fun column => (Catalog.columnIndex schema column).isNone with
      | some column => exact saveable
      | none =>
          cases built : buildIndex schema.colNames (.new indexName columns unique)
            (s.storage.scan table) with
          | error e => exact saveable
          | ok index =>
              have known := Map.mem_of_getElem?_eq_some (getTable_eq_ok.mp found)
              have same := (buildIndex_scan built).2
              rw [finalState_bind_of_ok (ExecM.lift_eq_ok.mpr ⟨rfl, rfl⟩)]
              cases created : s.indexes.createIndex table index with
              | error e => exact saveable
              | ok indexes =>
                  obtain ⟨catalog, added, registered⟩ := saveable.register known created
                  rw [same] at added
                  rw [finalState_bind_of_ok (ExecM.lift_eq_ok.mpr ⟨rfl, rfl⟩),
                    finalState_modify_bind,
                    finalState_bind_of_ok (ExecM.lift_eq_ok.mpr ⟨added, rfl⟩)]
                  exact registered

/-- Every call leaves a state that can be saved, whatever its outcome. -/
theorem keepsSaveable_executeSession (stmts : List Statement) :
    Moves KeepsSaveable (executeSession stmts) :=
  Moves.executeSession (keepsSaveable_rules.statement keepsSaveable_createTable
    keepsSaveable_dropTable keepsSaveable_createIndex)
    (Moves.write fun _ saveable => ⟨saveable.defined, saveable.files⟩) stmts

/-- The states a session reaches by calls of any outcome and by checkpoints. -/
inductive Called : Executor → Prop
  | fresh : Called .fresh
  | call {s : Executor} (called : Called s) (stmts : List Statement) :
      Called (finalState (executeSession stmts) s)
  | checkpoint {s : Executor} (called : Called s) : Called (finalState checkpointDatabase s)

theorem Called.saveable {s : Executor} (called : Called s) : Saveable s := by
  induction called with
  | fresh => exact ⟨consistent_fresh.defined, kept_fresh.files⟩
  | call _ stmts ih => exact keepsSaveable_executeSession stmts _ ih
  | checkpoint _ ih => exact ⟨ih.defined, filesKnown_checkpoint ih.files⟩

end Calls

section Shutdown

variable [Runtime] {s : Executor}

/-- After a checkpoint the directory opens again, with the tables, the index
definitions and the rows it had. -/
def ReopensSame (s : Executor) : Prop :=
  ∃ s' db, checkpointDatabase s = .ok () s' ∧ Database.open s'.disk = .ok db ∧
    db.catalog = s.catalog ∧ SameDefinitions s.indexes db.indexes ∧
    db.storage.contents = s.storage.contents

omit [Runtime] in
/-- The rows of every table differ in the keys of its unique indexes. -/
def UniqueKeys (s : Executor) : Prop :=
  ∀ ⦃table schema⦄, s.catalog[table]? = some schema → ∀ definition ∈ schema.indexes,
    KeysDiffer definition schema.colNames (s.storage.contents.table table)

/-- A checkpoint empties the log and saves the catalog and the rows. -/
theorem Saveable.files_checkpoint (saveable : Saveable s) (plain : s.storage.FileNames)
    {s' : Executor} (saved : checkpointDatabase s = .ok () s') :
    s'.disk.walLog = [] ∧ diskCatalog s'.disk.metaBin = s.catalog ∧
      s'.disk.recovered = s.storage.contents := by
  rw [checkpointDatabase_eq_ok.mp saved]
  refine ⟨rfl, loadTables_snapshot saveable.defined.named, ?_⟩
  exact diskContents_checkpoint saveable.files plain

/-- **A saved database opens as it was exactly when its rows differ in the keys
of the unique indexes.** -/
theorem Saveable.reopensSame_iff (saveable : Saveable s) (plain : s.storage.FileNames) :
    ReopensSame s ↔ UniqueKeys s := by
  constructor
  · intro reopens table schema known
    obtain ⟨s', db, saved, opened, catalog, -, contents⟩ := reopens
    obtain ⟨log, -, -⟩ := saveable.files_checkpoint plain saved
    obtain ⟨-, -, rebuilt⟩ := open_ok (by rw [log]; exact List.Pairwise.nil) opened
    rw [← catalog] at known
    rw [← contents]
    exact (rebuildable_of_rebuildAll rebuilt known).2
  · intro keys
    have saved := checkpointDatabase_eq_ok.mpr (rfl :
      Executor.persisted { s with storage := s.storage.checkpoint } = _)
    obtain ⟨log, catalog, recovered⟩ := saveable.files_checkpoint plain saved
    have rebuildable : Rebuildable s.catalog s.storage.contents :=
      fun table schema known => ⟨saveable.defined.namesDiffer known, keys known⟩
    have ascending : Ascending (Executor.persisted
        { s with storage := s.storage.checkpoint }).disk.walLog := by
      rw [log]
      exact List.Pairwise.nil
    obtain ⟨db, opened, sameCatalog, contents⟩ := open_accepts ascending nofun (by
      rw [catalog, recovered]
      exact rebuildable)
    rw [recovered] at contents
    rw [catalog] at sameCatalog
    obtain ⟨-, -, rebuilt⟩ := open_ok ascending opened
    have rebuildable' : Rebuildable db.catalog db.storage.contents := by
      rw [sameCatalog, contents]
      exact rebuildable
    obtain ⟨manager, rebuilt', definitions, -⟩ := rebuildAll_spec rebuildable'
    obtain rfl : manager = db.indexes := Except.ok.inj (rebuilt'.symm.trans rebuilt)
    refine ⟨_, db, saved, opened, sameCatalog, fun table name => ?_, contents⟩
    rw [definitions, sameCatalog, saveable.defined.definitions]

/-- Runs whose statements return `Ok` or fail before they change a row reach
states that calls reach. -/
theorem ActionRun.called {named : String → Prop} {actions : List Action}
    (run : ActionRun named actions s) : Called s := by
  induction run with
  | nil => exact .fresh
  | statement _ _ ran _ ih => exact finalState_of_ok ran ▸ ih.call _
  | failed _ ran _ ih => exact finalState_of_error ran ▸ ih.call _
  | checkpoint _ ran ih => exact finalState_of_ok ran ▸ ih.checkpoint

/-- **A clean shutdown reopens exactly when the rows differ in the keys of the
unique indexes.** After any calls of a session with any outcome, if the names of the
tables can be those of files, a checkpoint followed by opening the directory gives
the same tables, index definitions and rows if and only if the stored rows of every
table differ in the keys of its unique indexes; and they do after every run whose
statements return `Ok` or fail before they change a row, with DDL outside explicit
transactions. -/
theorem shutdown_reopens_iff :
    (∀ s, Called s → s.storage.FileNames → (ReopensSame s ↔ UniqueKeys s)) ∧
      ∀ named actions s, ActionRun named actions s →
        Called s ∧ UniqueKeys s ∧ ∀ table ∈ s.storage.tables, named table := by
  refine ⟨fun s called plain => called.saveable.reopensSame_iff plain,
    fun named actions s run => ⟨run.called, ?_⟩⟩
  obtain ⟨l, reached, -⟩ := run.reaches
  exact ⟨fun table schema known => (reached.kept.consistent.rebuildable known).2, reached.allowed⟩

end Shutdown

/-- Run single statements, whatever their outcome. -/
def callAll [Runtime] (stmts : List Statement) : Executor :=
  stmts.foldl (fun s stmt => finalState (executeSession [stmt]) s) .fresh

theorem called_callAll [Runtime] (stmts : List Statement) : Called (callAll stmts) := by
  induction stmts using List.reverseRecOn with
  | nil => exact .fresh
  | append_singleton stmts stmt ih =>
      rw [callAll, List.foldl_append]
      exact ih.call [stmt]

/-- A row, its key once more, which is refused, and another row, which commits. -/
def refusedRow [Runtime] : Executor :=
  callAll [createT, insertT [1], insertT [1], insertT [2]]

/-- The refused row stays in storage, and after a clean shutdown the directory
does not open. -/
theorem refused_row_blocks_reopening :
    @Called Runtime.reference (@refusedRow Runtime.reference) ∧
      (@refusedRow Runtime.reference).session.transaction.active = false ∧
      (@Database.open Runtime.reference
        (finalState (@checkpointDatabase Runtime.reference)
          (@refusedRow Runtime.reference)).disk).toOption.isNone = true ∧
      ¬ @ReopensSame Runtime.reference (@refusedRow Runtime.reference) := by
  have refused : (@Database.open Runtime.reference
      (finalState (@checkpointDatabase Runtime.reference)
        (@refusedRow Runtime.reference)).disk).toOption.isNone = true := by
    decide +kernel
  refine ⟨@called_callAll Runtime.reference _, by decide +kernel, refused, fun reopens => ?_⟩
  obtain ⟨s', db, saved, opened, -⟩ := reopens
  rw [finalState_of_ok saved, opened] at refused
  cases refused

/-- A table with a row reopens after a clean shutdown. -/
theorem shutdown_reopens_iff_insert :
    ∃ s, @runActions Runtime.reference [.statement createT, .statement (insertT [1])] = some s ∧
      @Called Runtime.reference s ∧ @ReopensSame Runtime.reference s := by
  obtain ⟨s, ran⟩ : ∃ s, @runActions Runtime.reference
      [.statement createT, .statement (insertT [1])] = some s :=
    Option.isSome_iff_exists.mp (by decide +kernel)
  obtain ⟨exact, runs⟩ := @shutdown_reopens_iff Runtime.reference
  obtain ⟨called, keys, plain⟩ := runs _ _ s (@ActionRun.of_runActions Runtime.reference _ _ ran)
  exact ⟨s, ran, called, (exact s called plain).mpr keys⟩

end MoodengSQL
