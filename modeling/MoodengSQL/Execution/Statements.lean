import MoodengSQL.Core.Engine
import MoodengSQL.Execution.RowStep

/-!
# What a statement does

The state changes of statements that return `Ok`: a session step opens or ends
a transaction, changes rows inside one, or reads; a schema step changes the
catalog and the indexes. Everything proved about runs is proved about these.
-/

namespace MoodengSQL

open Foundation Foundation.Effect Relation Std

namespace Executor

/-- A transaction begins. -/
def opened (s : Executor) (autoCommit : Bool) : Executor :=
  { s with
    storage := { s.storage with
      wal := s.storage.wal.allocTxnId.2.append (.begin s.storage.wal.nextTxnId) }
    session := {
      transaction := { active := true, txnId := some s.storage.wal.nextTxnId, undo := [] }
      autoCommit }
    activeWriteTxns := s.activeWriteTxns + 1 }

/-- The transaction of the session commits. -/
def committed (s : Executor) (txnId : Nat) : Executor :=
  { s with
    storage := { s.storage with wal := s.storage.wal.append (.commit txnId) }
    session := .new
    activeWriteTxns := s.activeWriteTxns - 1 }

/-- The transaction of the session is aborted; its undo is still to be done. -/
def aborted (s : Executor) (txnId : Nat) : Executor :=
  { s with
    storage := { s.storage with wal := s.storage.wal.append (.abort txnId) }
    session := .new }

/-- The catalog is saved. -/
def persisted (s : Executor) : Executor :=
  { s with metaFile := some (.written { tables := s.catalog.snapshot, indexes := s.indexes }) }

end Executor

/-- A write statement enters its transaction: the session's, or a new one. -/
inductive Enters (s : Executor) : Nat → Executor → Prop
  | explicit {txnId : Nat} (inside : s.session.transaction.txnId = some txnId) : Enters s txnId s
  | automatic (outside : s.session.transaction.txnId = none)
      (idle : s.session.transaction.active = false) :
      Enters s s.storage.wal.nextTxnId (s.opened true)

/-- A write statement ends: a transaction of its own is committed. -/
inductive Leaves (s : Executor) : Executor → Prop
  | explicit (inside : s.session.autoCommit = false) : Leaves s s
  | automatic {txnId : Nat} (inside : s.session.autoCommit = true)
      (running : s.session.transaction.txnId = some txnId) : Leaves s (s.committed txnId)

section Statements

variable [Runtime]

/-- A statement that changes rows or reads, and returns `Ok`. -/
inductive WriteStep (s : Executor) : Executor → Prop
  | write {txnId : Nat} {entered changed s' : Executor} (enters : Enters s txnId entered)
      (rows : ReflTransGen (SomeRowStep txnId) entered changed) (leaves : Leaves changed s') :
      WriteStep s s'
  | read : WriteStep s s

/-- A statement that is not DDL and returns `Ok`. -/
inductive SessionStep (s : Executor) : Executor → Prop
  | begin (idle : s.session.transaction.active = false) : SessionStep s (s.opened false)
  | commit {txnId : Nat} (active : s.session.transaction.active = true)
      (running : s.session.transaction.txnId = some txnId) : SessionStep s (s.committed txnId)
  | rollback {txnId : Nat} {undone : Executor} (active : s.session.transaction.active = true)
      (running : s.session.transaction.txnId = some txnId)
      (undo : undoAll s.session.transaction.undo.reverse (s.aborted txnId) = .ok () undone) :
      SessionStep s { undone with activeWriteTxns := undone.activeWriteTxns - 1 }
  | rows {s' : Executor} (step : WriteStep s s') : SessionStep s s'

/-- A DDL statement that returns `Ok`. -/
inductive SchemaStep (s : Executor) : Executor → Prop
  | createTable {table : String} {columns : List ColumnDef} {catalog : Catalog}
      (created : s.catalog.createTable table columns = .ok catalog) :
      SchemaStep s { s with catalog, storage := s.storage.ensureTable table }
  | createKeyedTable {table : String} {columns : List ColumnDef} {created catalog : Catalog}
      {indexName : String} {key : List String} {indexes : IndexManager}
      (create : s.catalog.createTable table columns = .ok created)
      (index : s.indexes.createIndex table (.new indexName key true) = .ok indexes)
      (add : created.addIndex table { name := indexName, columns := key, unique := true } =
        .ok catalog) :
      SchemaStep s { s with catalog, storage := s.storage.ensureTable table, indexes }
  | dropTable {table : String} {catalog : Catalog}
      (dropped : s.catalog.dropTable table = .ok catalog) :
      SchemaStep s { s with
        catalog
        storage := s.storage.dropTable table
        indexes := s.indexes.dropTable table }
  | createIndex {table : String} {schema : TableSchema} {index : BTreeIndex}
      {indexName : String} {columns : List String} {unique : Bool} {indexes : IndexManager}
      {catalog : Catalog} (known : s.catalog[table]? = some schema)
      (build : buildIndex schema.colNames (.new indexName columns unique)
        (s.storage.scan table) = .ok index)
      (create : s.indexes.createIndex table index = .ok indexes)
      (add : s.catalog.addIndex table { name := indexName, columns, unique } = .ok catalog) :
      SchemaStep s { s with indexes, catalog }

/-- `CREATE TABLE`, `DROP TABLE` and `CREATE INDEX`. -/
def Statement.isDdl : Statement → Bool
  | .createTable .. => true
  | .drop .. => true
  | .createIndex .. => true
  | _ => false

/-- `INSERT`, with or without `ON CONFLICT`, `UPDATE`, `DELETE` and `SELECT`. -/
def Statement.isRowStatement : Statement → Bool
  | .insert _ => true
  | .update .. => true
  | .delete .. => true
  | .query _ => true
  | _ => false

variable {s s' : Executor}

omit [Runtime] in
theorem getTable_eq_ok {catalog : Catalog} {table : String} {schema : TableSchema} :
    catalog.getTable table = .ok schema ↔ catalog[table]? = some schema := by
  unfold Catalog.getTable
  cases catalog[table]? <;> simp

section Transactions

omit [Runtime]

theorem liftBegin_eq_ok {u : Unit} :
    ExecM.liftTransaction (fun txn wal => (txn.begin wal).map fun r => ((), r)) s = .ok u s' ↔
      s.session.transaction.active = false ∧
        s' = { s with
          storage := { s.storage with
            wal := s.storage.wal.allocTxnId.2.append (.begin s.storage.wal.nextTxnId) }
          session := { s.session with
            transaction :=
              { active := true, txnId := some s.storage.wal.nextTxnId, undo := [] } } } := by
  rw [ExecM.liftTransaction_eq_ok]
  unfold Transaction.begin
  cases s.session.transaction.active with
  | true => simp [Except.map]
  | false =>
      simp only [Bool.false_eq_true, if_false, Except.map, Except.ok.injEq, Prod.mk.injEq,
        true_and]
      constructor
      · rintro ⟨_, _, ⟨rfl, rfl⟩, rfl⟩
        rfl
      · rintro rfl
        exact ⟨_, _, ⟨rfl, rfl⟩, rfl⟩

theorem liftCommit_eq_ok {u : Unit} :
    ExecM.liftTransaction (fun txn wal => (txn.commit wal).map fun r => ((), r)) s = .ok u s' ↔
      ∃ txnId, s.session.transaction.txnId = some txnId ∧
        s' = { s with
          storage := { s.storage with wal := s.storage.wal.append (.commit txnId) }
          session := { s.session with transaction := .idle } } := by
  rw [ExecM.liftTransaction_eq_ok]
  unfold Transaction.commit
  cases s.session.transaction.txnId with
  | none => simp [Except.map]
  | some txnId =>
      simp only [Except.map, Except.ok.injEq, Prod.mk.injEq, true_and, Option.some.injEq,
        exists_eq_left']
      constructor
      · rintro ⟨_, _, ⟨rfl, rfl⟩, rfl⟩
        rfl
      · rintro rfl
        exact ⟨_, _, ⟨rfl, rfl⟩, rfl⟩

theorem liftRollback_eq_ok {records : List UndoRecord} :
    ExecM.liftTransaction Transaction.rollback s = .ok records s' ↔
      ∃ txnId, s.session.transaction.txnId = some txnId ∧
        records = s.session.transaction.undo.reverse ∧
        s' = { s with
          storage := { s.storage with wal := s.storage.wal.append (.abort txnId) }
          session := { s.session with transaction := .idle } } := by
  rw [ExecM.liftTransaction_eq_ok]
  unfold Transaction.rollback
  cases s.session.transaction.txnId with
  | none => simp
  | some txnId =>
      simp only [Except.ok.injEq, Prod.mk.injEq, Option.some.injEq, exists_eq_left']
      constructor
      · rintro ⟨_, _, ⟨rfl, rfl, rfl⟩, rfl⟩
        exact ⟨rfl, rfl⟩
      · rintro ⟨rfl, rfl⟩
        exact ⟨_, _, ⟨rfl, rfl, rfl⟩, rfl⟩

end Transactions

omit [Runtime] in
theorem begin_eq_ok {result : QueryResult} :
    begin s = .ok result s' ↔ s.session.transaction.active = false ∧
      result = .modified 0 "BEGIN" ∧ s' = s.opened false := by
  simp only [begin, bind_eq_ok, get_eq_ok, exists_and_left, exists_eq_left', and_assoc]
  cases active : s.session.transaction.active with
  | true => simp [bind_eq_ok, throw_eq_ok]
  | false =>
      simp only [Bool.false_eq_true, if_false, bind_eq_ok, modify_eq_ok, pure_eq_ok,
        liftBegin_eq_ok, true_and]
      constructor
      · rintro ⟨_, _, rfl, _, _, ⟨-, rfl⟩, _, _, rfl, rfl, rfl⟩
        exact ⟨rfl, rfl⟩
      · rintro ⟨rfl, rfl⟩
        exact ⟨(), _, rfl, (), _, ⟨active, rfl⟩, (), _, rfl, rfl, rfl⟩

theorem commit_ok {result : QueryResult} (ran : commit s = .ok result s') : SessionStep s s' := by
  simp only [commit, bind_eq_ok, get_eq_ok] at ran
  obtain ⟨_, _, ⟨rfl, rfl⟩, ran⟩ := ran
  cases active : s.session.transaction.active with
  | false => simp [active, bind_eq_ok, throw_eq_ok] at ran
  | true =>
      simp only [active, Bool.not_true, Bool.false_eq_true, if_false, bind_eq_ok, modify_eq_ok,
        pure_eq_ok, liftCommit_eq_ok] at ran
      obtain ⟨_, _, rfl, _, _, ⟨txnId, running, rfl⟩, _, _, rfl, -, rfl⟩ := ran
      exact .commit active running

theorem rollback_eq_ok {result : QueryResult} :
    rollback s = .ok result s' ↔ ∃ txnId undone, s.session.transaction.active = true ∧
      s.session.transaction.txnId = some txnId ∧
      undoAll s.session.transaction.undo.reverse (s.aborted txnId) = .ok () undone ∧
      result = .modified 0 "ROLLBACK" ∧
      s' = { undone with activeWriteTxns := undone.activeWriteTxns - 1 } := by
  simp only [rollback, bind_eq_ok, get_eq_ok, exists_and_left, exists_eq_left', and_assoc]
  cases active : s.session.transaction.active with
  | false => simp [bind_eq_ok, throw_eq_ok]
  | true =>
      simp only [Bool.not_true, Bool.false_eq_true, if_false, bind_eq_ok, modify_eq_ok,
        pure_eq_ok, liftRollback_eq_ok, true_and]
      constructor
      · rintro ⟨_, _, rfl, _, _, ⟨txnId, running, rfl, rfl⟩, _, undone, undo, _, _, rfl, rfl, rfl⟩
        exact ⟨txnId, running, undone, undo, rfl, rfl⟩
      · rintro ⟨txnId, running, undone, undo, rfl, rfl⟩
        exact ⟨(), _, rfl, _, _, ⟨txnId, running, rfl, rfl⟩, (), undone, undo, (), _, rfl, rfl,
          rfl⟩

/-- `ROLLBACK` logs the abort, ends the transaction, and undoes its changes. -/
theorem rollback_aborted {txnId : Nat} (active : s.session.transaction.active = true)
    (running : s.session.transaction.txnId = some txnId) :
    rollback s = (do
      undoAll s.session.transaction.undo.reverse
      modify fun s => { s with activeWriteTxns := s.activeWriteTxns - 1 }
      return QueryResult.modified 0 "ROLLBACK" : ExecM QueryResult) (s.aborted txnId) := by
  obtain ⟨db, transaction, autoCommit⟩ := s
  dsimp only at active running
  simp only [rollback, bind, EStateM.bind, get, getThe, MonadStateOf.get, EStateM.get, active,
    Bool.not_true, Bool.false_eq_true, if_false, modify, modifyGet, MonadStateOf.modifyGet,
    EStateM.modifyGet, ExecM.liftTransaction, Transaction.rollback, running]
  rfl

omit [Runtime] in
theorem beginWriteTxn_ok {txnId : Nat} (ran : beginWriteTxn s = .ok txnId s') :
    Enters s txnId s' := by
  simp only [beginWriteTxn, bind_eq_ok, get_eq_ok] at ran
  obtain ⟨_, _, ⟨rfl, rfl⟩, ran⟩ := ran
  cases running : s.session.transaction.txnId with
  | some running' =>
      simp only [running, pure_eq_ok] at ran
      obtain ⟨rfl, rfl⟩ := ran
      exact .explicit running
  | none =>
      simp only [running, bind_eq_ok, liftBegin_eq_ok, modify_eq_ok, pure_eq_ok] at ran
      obtain ⟨_, _, ⟨idle, rfl⟩, _, _, rfl, rfl, rfl⟩ := ran
      exact .automatic running idle

omit [Runtime] in
theorem finishAutoCommitIfNeeded_ok {u : Unit} (ran : finishAutoCommitIfNeeded s = .ok u s') :
    Leaves s s' := by
  simp only [finishAutoCommitIfNeeded, bind_eq_ok, get_eq_ok] at ran
  obtain ⟨_, _, ⟨rfl, rfl⟩, ran⟩ := ran
  cases automatic : s.session.autoCommit with
  | false =>
      simp only [automatic, Bool.false_eq_true, if_false, pure_eq_ok] at ran
      obtain ⟨-, rfl⟩ := ran
      exact .explicit automatic
  | true =>
      simp only [automatic, if_true, bind_eq_ok, liftCommit_eq_ok, modify_eq_ok] at ran
      obtain ⟨_, _, ⟨txnId, running, rfl⟩, rfl⟩ := ran
      exact .automatic automatic running

omit [Runtime] in
/-- Entering a transaction leaves catalog, rows, indexes and saved catalog alone. -/
theorem Enters.frame {txnId : Nat} (enters : Enters s txnId s') :
    s'.catalog = s.catalog ∧ s'.storage.tables = s.storage.tables ∧ s'.indexes = s.indexes ∧
      s'.metaFile = s.metaFile := by
  cases enters <;> exact ⟨rfl, rfl, rfl, rfl⟩

omit [Runtime] in
/-- The rows a scan returns are stored, each once. -/
theorem stillStored_scan (s : Executor) (table : String) :
    StillStored s table (s.storage.scan table) := by
  unfold StillStored StorageEngine.scan
  cases found : s.storage.tables[table]? with
  | none => simp
  | some data =>
      refine ⟨?_, fun entry member => ?_⟩
      · have keys : data.scan.map Prod.fst = data.rows.keys := ExtTreeMap.map_fst_toList_eq_keys
        exact keys ▸ ExtTreeMap.nodup_keys
      · rw [StorageEngine.view, ← view_of_getElem? found]
        exact ExtTreeMap.mem_toList_iff_getElem?_eq_some.mp member

theorem insert_ok {stmt : Insert} {result : QueryResult} (ran : insert stmt s = .ok result s') :
    WriteStep s s' := by
  unfold insert at ran
  cases source : stmt.source with
  | none =>
      rw [source] at ran
      cases throw_eq_ok.mp ran
  | some query =>
      simp only [source, bind_eq_ok, get_eq_ok, ExecM.lift_eq_ok, pure_eq_ok, getTable_eq_ok] at ran
      obtain ⟨_, _, ⟨rfl, rfl⟩, schema, _, ⟨known, rfl⟩, rows, _, ⟨-, rfl⟩, onConflict, _, ⟨-, rfl⟩,
        txnId, entered, begun, count, changed, stored, _, _, finished, -, rfl⟩ := ran
      have enters := beginWriteTxn_ok begun
      exact .write enters (insertRows_ok (enters.frame.1 ▸ known) stored)
        (finishAutoCommitIfNeeded_ok finished)

omit [Runtime] in
theorem Enters.stillStored {txnId : Nat} (enters : Enters s txnId s') {table : String}
    {rows : List (Nat × Row)} (stored : StillStored s table rows) : StillStored s' table rows := by
  unfold StillStored StorageEngine.view at *
  rw [enters.frame.2.1]
  exact stored

theorem update_ok {table : String} {assignments : List Assignment} {whereClause : Option Expr}
    {result : QueryResult} (ran : update table assignments whereClause s = .ok result s') :
    WriteStep s s' := by
  simp only [update, bind_eq_ok, get_eq_ok, ExecM.lift_eq_ok, pure_eq_ok, getTable_eq_ok] at ran
  obtain ⟨_, _, ⟨rfl, rfl⟩, schema, _, ⟨known, rfl⟩, txnId, entered, begun, count, changed, updated,
    _, _, finished, -, rfl⟩ := ran
  have enters := beginWriteTxn_ok begun
  exact .write enters
    (updateRows_ok (enters.frame.1 ▸ known) (enters.stillStored (stillStored_scan s table)) updated)
    (finishAutoCommitIfNeeded_ok finished)

theorem delete_ok {table : String} {whereClause : Option Expr} {result : QueryResult}
    (ran : delete table whereClause s = .ok result s') : WriteStep s s' := by
  simp only [delete, bind_eq_ok, get_eq_ok, ExecM.lift_eq_ok, pure_eq_ok, getTable_eq_ok] at ran
  obtain ⟨_, _, ⟨rfl, rfl⟩, schema, _, ⟨known, rfl⟩, txnId, entered, begun, count, changed, deleted,
    _, _, finished, -, rfl⟩ := ran
  have enters := beginWriteTxn_ok begun
  exact .write enters
    (deleteRows_ok (enters.frame.1 ▸ known) (enters.stillStored (stillStored_scan s table)) deleted)
    (finishAutoCommitIfNeeded_ok finished)

theorem createTable_ok {name : ObjectName} {columns : List SqlColumnDef}
    {constraints : List TableConstraint} {result : QueryResult}
    (ran : createTable name columns constraints s = .ok result s') :
    SchemaStep s s' ∧ result.metaChanged = true := by
  simp only [createTable, bind_eq_ok, get_eq_ok, ExecM.lift_eq_ok, modify_eq_ok, pure_eq_ok,
    createPrimaryKeyIndex] at ran
  obtain ⟨colDefs, _, ⟨-, rfl⟩, _, _, ⟨rfl, rfl⟩, catalog, _, ⟨created, rfl⟩, _, _, rfl, _, keyed,
    indexed, rfl, rfl⟩ := ran
  refine ⟨?_, rfl⟩
  split at indexed
  · obtain ⟨-, rfl⟩ := pure_eq_ok.mp indexed
    exact .createTable created
  · simp only [bind_eq_ok, get_eq_ok, ExecM.lift_eq_ok, modify_eq_ok] at indexed
    obtain ⟨_, _, ⟨rfl, rfl⟩, indexes, _, ⟨index, rfl⟩, _, _, rfl, catalog', _, ⟨add, rfl⟩, rfl⟩ :=
      indexed
    exact .createKeyedTable created index add

omit [Runtime] in
theorem dropTable_ok {table : String} {result : QueryResult}
    (ran : dropTable table s = .ok result s') :
    SchemaStep s s' ∧ result.metaChanged = true := by
  simp only [dropTable, bind_eq_ok, get_eq_ok, ExecM.lift_eq_ok, modify_eq_ok, pure_eq_ok] at ran
  obtain ⟨_, _, ⟨rfl, rfl⟩, catalog, _, ⟨dropped, rfl⟩, _, _, rfl, rfl, rfl⟩ := ran
  exact ⟨.dropTable dropped, rfl⟩

omit [Runtime] in
theorem createIndex_ok {table indexName : String} {columns : List String} {unique : Bool}
    {result : QueryResult} (ran : createIndex table indexName columns unique s = .ok result s') :
    SchemaStep s s' ∧ result.metaChanged = true := by
  simp only [createIndex, bind_eq_ok, get_eq_ok, ExecM.lift_eq_ok, getTable_eq_ok] at ran
  obtain ⟨_, _, ⟨rfl, rfl⟩, schema, _, ⟨known, rfl⟩, ran⟩ := ran
  cases missing : columns.find? fun column => (Catalog.columnIndex schema column).isNone with
  | some column =>
      rw [missing] at ran
      cases throw_eq_ok.mp ran
  | none =>
      simp only [missing, bind_eq_ok, ExecM.lift_eq_ok, modify_eq_ok, pure_eq_ok] at ran
      obtain ⟨index, _, ⟨build, rfl⟩, indexes, _, ⟨create, rfl⟩, _, _, rfl, catalog, _, ⟨add, rfl⟩,
        _, _, rfl, rfl, rfl⟩ := ran
      exact ⟨.createIndex known build create add, rfl⟩

/-- **What a statement that returns `Ok` does.** DDL is a schema step and asks
for the catalog to be saved; everything else is a session step, and a statement
on rows a write step. -/
theorem executeStatement_ok {stmt : Statement} {result : QueryResult}
    (ran : executeStatement stmt s = .ok result s') :
    (stmt.isDdl = true → SchemaStep s s' ∧ result.metaChanged = true) ∧
      (stmt.isDdl = false → SessionStep s s') ∧
      (stmt.isRowStatement = true → WriteStep s s') := by
  have read : ∀ {computed : Executor → Except Failure QueryResult},
      (do let s ← get; ExecM.lift (computed s) : ExecM QueryResult) s = .ok result s' →
      WriteStep s s' := by
    intro computed ran
    simp only [bind_eq_ok, get_eq_ok, ExecM.lift_eq_ok] at ran
    obtain ⟨_, _, ⟨rfl, rfl⟩, -, rfl⟩ := ran
    exact .read
  cases stmt with
  | startTransaction =>
      refine ⟨nofun, fun _ => ?_, nofun⟩
      obtain ⟨idle, -, rfl⟩ := begin_eq_ok.mp ran
      exact .begin idle
  | commit => exact ⟨nofun, fun _ => commit_ok ran, nofun⟩
  | rollback =>
      refine ⟨nofun, fun _ => ?_, nofun⟩
      obtain ⟨txnId, undone, active, running, undo, -, rfl⟩ := rollback_eq_ok.mp ran
      exact .rollback active running undo
  | createTable name columns constraints => exact ⟨fun _ => createTable_ok ran, nofun, nofun⟩
  | drop objectType names =>
      refine ⟨fun _ => ?_, nofun, nofun⟩
      cases objectType with
      | table =>
          cases names with
          | nil => cases throw_eq_ok.mp ran
          | cons name rest => exact dropTable_ok ran
      | other display => cases throw_eq_ok.mp ran
  | insert stmt => exact ⟨nofun, fun _ => .rows (insert_ok ran), fun _ => insert_ok ran⟩
  | query query => exact ⟨nofun, fun _ => .rows (read ran), fun _ => read ran⟩
  | update table assignments selection => exact ⟨nofun, fun _ => .rows (update_ok ran), fun _ => update_ok ran⟩
  | delete relations selection => exact ⟨nofun, fun _ => .rows (delete_ok ran), fun _ => delete_ok ran⟩
  | createIndex name tableName columns unique => exact ⟨fun _ => createIndex_ok ran, nofun, nofun⟩
  | explain statement => exact ⟨nofun, fun _ => .rows (read ran), nofun⟩
  | other display => cases throw_eq_ok.mp ran

end Statements

end MoodengSQL
