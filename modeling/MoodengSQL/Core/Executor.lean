import MoodengSQL.Core.Query

/-!
# The executor

Statements as computations over the database and the session. A write
statement runs inside the session's transaction, or inside one it opens for
itself and commits at the end. Loops over rows are recursive functions over the
list of rows still to handle.
-/

namespace MoodengSQL

open Std

section Statements

variable [Runtime]

/-- `Executor::begin`. -/
def begin : ExecM QueryResult := do
  let s ← get
  if s.session.transaction.active then
    throw (.error (.execution "transaction already active"))
  modify fun s => { s with session := { s.session with autoCommit := false } }
  ExecM.liftTransaction fun txn wal => (txn.begin wal).map fun r => ((), r)
  modify fun s => { s with activeWriteTxns := s.activeWriteTxns + 1 }
  return QueryResult.modified 0 "BEGIN"

/-- `Executor::commit`. -/
def commit : ExecM QueryResult := do
  let s ← get
  if !s.session.transaction.active then
    throw (.error (.execution "no active transaction"))
  modify fun s => { s with session := { s.session with autoCommit := false } }
  ExecM.liftTransaction fun txn wal => (txn.commit wal).map fun r => ((), r)
  modify fun s => { s with activeWriteTxns := s.activeWriteTxns - 1 }
  return QueryResult.modified 0 "COMMIT"

/-- The loop of `Executor::rollback` over the undo records. -/
def undoAll : List UndoRecord → ExecM Unit
  | [] => pure ()
  | record :: rest => do
      applyUndo record
      undoAll rest

/-- `Executor::rollback`. -/
def rollback : ExecM QueryResult := do
  let s ← get
  if !s.session.transaction.active then
    throw (.error (.execution "no active transaction"))
  modify fun s => { s with session := { s.session with autoCommit := false } }
  let records ← ExecM.liftTransaction Transaction.rollback
  undoAll records
  modify fun s => { s with activeWriteTxns := s.activeWriteTxns - 1 }
  return QueryResult.modified 0 "ROLLBACK"

/-- `begin_write_txn`: the id of the session's transaction, or of a new one for
the current statement. -/
def beginWriteTxn : ExecM Nat := do
  let s ← get
  match s.session.transaction.txnId with
  | some txnId => return txnId
  | none =>
      let txnId := s.storage.wal.nextTxnId
      ExecM.liftTransaction fun txn wal => (txn.begin wal).map fun r => ((), r)
      modify fun s =>
        { s with
          session := { s.session with autoCommit := true }
          activeWriteTxns := s.activeWriteTxns + 1 }
      return txnId

/-- `finish_auto_commit_if_needed`. -/
def finishAutoCommitIfNeeded : ExecM Unit := do
  let s ← get
  if s.session.autoCommit then
    ExecM.liftTransaction fun txn wal => (txn.commit wal).map fun r => ((), r)
    modify fun s =>
      { s with
        session := { s.session with autoCommit := false }
        activeWriteTxns := s.activeWriteTxns - 1 }

/-- Record an undo entry inside an explicit transaction. -/
def recordUndo (entry : UndoRecord) : ExecM Unit :=
  modify fun s => { s with session := s.session.recordUndo entry }

/-- The columns of a `CREATE TABLE` after its table-level primary keys. -/
def markPrimaryKeys (pkCols : List String) (columns : List ColumnDef) : List ColumnDef :=
  columns.map fun column =>
    if pkCols.any fun p => eqIgnoreAsciiCase p column.name then
      { column with primaryKey := true, nullable := false }
    else column

/-- `create_primary_key_index`. -/
def createPrimaryKeyIndex (table : String) (columns : List ColumnDef) : ExecM Unit := do
  let pkCols := (columns.filter ColumnDef.primaryKey).map ColumnDef.name
  if pkCols = [] then return
  let indexName := table ++ "_pkey"
  let s ← get
  let indexes ← ExecM.lift (s.indexes.createIndex table (.new indexName pkCols true))
  modify fun s => { s with indexes }
  let catalog ← ExecM.lift
    (s.catalog.addIndex table { name := indexName, columns := pkCols, unique := true })
  modify fun s => { s with catalog }

/-- `Executor::create_table`. -/
def createTable (name : ObjectName) (columns : List SqlColumnDef)
    (constraints : List TableConstraint) : ExecM QueryResult := do
  let table := extractTableName name
  let colDefs ← ExecM.lift (columns.mapM sqlColumnToDef)
  let colDefs := markPrimaryKeys (extractPkFromConstraints constraints) colDefs
  let s ← get
  let catalog ← ExecM.lift (s.catalog.createTable table colDefs)
  modify fun s => { s with catalog, storage := s.storage.ensureTable table }
  createPrimaryKeyIndex table colDefs
  return QueryResult.ddl ("CREATE TABLE " ++ table)

/-- `Executor::drop_table`. -/
def dropTable (table : String) : ExecM QueryResult := do
  let s ← get
  let catalog ← ExecM.lift (s.catalog.dropTable table)
  modify fun s =>
    { s with
      catalog
      storage := s.storage.dropTable table
      indexes := s.indexes.dropTable table }
  return QueryResult.ddl ("DROP TABLE " ++ table)

/-- `validate_row`: the first `NOT NULL` column without a value is reported. -/
def validateRow (schema : TableSchema) (rowValues : List Value) : Except Failure Unit :=
  match schema.columns.zipIdx.find? fun entry =>
      !entry.1.nullable && (rowValues.getD entry.2 .null).isNull with
  | some (column, _) => .error (.error (.execution
      ("null value in column '" ++ column.name ++ "' violates not-null constraint")))
  | none => .ok ()

/-- The values of a new row, coerced to the column types by position. -/
def coerceRow (schema : TableSchema) (values : List Value) : Except Failure (List Value) :=
  schema.columns.zipIdx.mapM fun entry =>
    (values.getD entry.2 .null).coerceTo entry.1.dataType

/-- `resolve_conflict_columns`. -/
def resolveConflictColumns (schema : TableSchema) (conflict : OnConflict) :
    Except Failure (List String) :=
  match conflict.conflictTarget with
  | none =>
      let pk := (schema.columns.filter ColumnDef.primaryKey).map ColumnDef.name
      if pk = [] then .error (.error (.execution
        "ON CONFLICT requires a PRIMARY KEY or explicit conflict target"))
      else .ok pk
  | some (.columns names) => .ok names
  | some .onConstraint => .error (.error (.execution
      "ON CONFLICT ON CONSTRAINT is not supported"))

/-- `find_unique_index_for_columns`. -/
def findUniqueIndexForColumns (schema : TableSchema) (cols : List String) : Option String :=
  (schema.indexes.find? fun index =>
    index.unique && index.columns.length == cols.length &&
      (index.columns.zip cols).all fun pair => eqIgnoreAsciiCase pair.1 pair.2).map IndexMeta.name

/-- `find_conflict_row`. -/
def findConflictRow (indexes : IndexManager) (schema : TableSchema) (table : String)
    (conflict : OnConflict) (rowValues : List Value) : Except Failure (Option Nat) := do
  let conflictCols ← resolveConflictColumns schema conflict
  match findUniqueIndexForColumns schema conflictCols with
  | none => .error (.error (.execution
      ("there is no unique index matching ON CONFLICT specification on '" ++
        String.intercalate ", " conflictCols ++ "'")))
  | some indexName =>
      .ok (indexes.lookup table indexName
        (keyValues conflictCols rowValues schema.colNames)).head?

/-- The assignment loop of `UPDATE` and `DO UPDATE`. Each assignment sees the
values the earlier ones left, and one to an unknown column is skipped. -/
def assignAll (schema : TableSchema) (excluded : Option (List Value)) :
    List Assignment → List Value → Except Failure (List Value)
  | [], values => .ok values
  | assign :: rest, values => do
      let (column, value) ←
        assignmentValueWithExcluded assign values schema.colNames excluded
      match Catalog.columnIndex schema column with
      | none => assignAll schema excluded rest values
      | some index =>
          let coerced ← match schema.columns[index]? with
            | some c => value.coerceTo c.dataType
            | none => .error (.panic "index out of bounds")
          if index < values.length then
            assignAll schema excluded rest (values.set index coerced)
          else .error (.panic "index out of bounds")

/-- The body `UPDATE` and `DO UPDATE` run on a row: take its keys out of the
indexes, assign, check, store under the next version, index again. -/
def rewriteRow (table : String) (schema : TableSchema) (assignments : List Assignment)
    (excluded : Option (List Value)) (txnId : Nat) (rowId : Nat) (row : Row) : ExecM Unit := do
  recordUndo (.update table rowId row)
  ExecM.removeIndexRow table row.values schema.colNames rowId
  let values ← ExecM.lift (assignAll schema excluded assignments row.values)
  ExecM.lift (validateRow schema values)
  let _ ← ExecM.liftStorage fun storage =>
    storage.update table rowId { row with values } txnId row.version
  ExecM.insertIndexRow table values schema.colNames rowId

/-- `apply_conflict_update`. -/
def applyConflictUpdate (table : String) (schema : TableSchema) (rowId : Nat)
    (proposed : List Value) (update : DoUpdate) (txnId : Nat) : ExecM Unit := do
  let s ← get
  match s.storage.get table rowId with
  | none => throw (.error (.execution "conflict row vanished"))
  | some existing =>
      let applies ← match update.selection with
        | some condition =>
            ExecM.lift <|
              evalWhereWithExcluded condition existing.values schema.colNames (some proposed)
        | none => pure true
      if applies then
        rewriteRow table schema update.assignments (some proposed) txnId rowId existing

/-- Store a new row and index it. -/
def storeRow (table : String) (schema : TableSchema) (txnId : Nat) (rowValues : List Value) :
    ExecM Unit := do
  let rowId ← ExecM.liftStorage fun storage =>
    .ok (storage.insert table (Row.new rowValues) txnId)
  ExecM.insertIndexRow table rowValues schema.colNames rowId
  recordUndo (.insert table rowId)

/-- The row loop of `Executor::insert`. -/
def insertRows (table : String) (schema : TableSchema) (onConflict : Option OnConflict)
    (txnId : Nat) : List (List Value) → Nat → ExecM Nat
  | [], count => pure count
  | values :: rest, count => do
      let rowValues ← ExecM.lift (coerceRow schema values)
      ExecM.lift (validateRow schema rowValues)
      match onConflict with
      | none =>
          storeRow table schema txnId rowValues
          insertRows table schema onConflict txnId rest (count + 1)
      | some conflict =>
          let s ← get
          match ← ExecM.lift (findConflictRow s.indexes schema table conflict rowValues) with
          | none =>
              storeRow table schema txnId rowValues
              insertRows table schema onConflict txnId rest (count + 1)
          | some existingId => match conflict.action with
            | .doNothing => insertRows table schema onConflict txnId rest count
            | .doUpdate update =>
                applyConflictUpdate table schema existingId rowValues update txnId
                insertRows table schema onConflict txnId rest (count + 1)

/-- The `ON CONFLICT` clause of an `INSERT`. -/
def conflictClause : Option OnInsert → Except Failure (Option OnConflict)
  | none => .ok none
  | some (.onConflict conflict) => .ok (some conflict)
  | some .duplicateKeyUpdate => .error (.error (.execution
      "ON DUPLICATE KEY UPDATE is not supported; use ON CONFLICT"))
  | some .other => .error (.error (.execution "unsupported INSERT conflict clause"))

/-- `Executor::insert`. -/
def insert (stmt : Insert) : ExecM QueryResult := do
  match stmt.source with
  | none => throw (.error (.parse "missing INSERT source"))
  | some source =>
      let table := extractTableName stmt.tableName
      let s ← get
      let schema ← ExecM.lift (s.catalog.getTable table)
      let rows ← ExecM.lift (valuesFromInsert source)
      let onConflict ← ExecM.lift (conflictClause stmt.on)
      let txnId ← beginWriteTxn
      let count ← insertRows table schema onConflict txnId rows 0
      finishAutoCommitIfNeeded
      return QueryResult.modified count ("INSERT 0 " ++ toString count)

/-- Whether a `WHERE` clause selects a row. -/
def selects (whereClause : Option Expr) (row : Row) (colNames : List String) :
    Except Failure Bool :=
  match whereClause with
  | some condition => evalWhere condition row.values colNames
  | none => .ok true

/-- The row loop of `Executor::update`. -/
def updateRows (table : String) (schema : TableSchema) (assignments : List Assignment)
    (whereClause : Option Expr) (txnId : Nat) : List (Nat × Row) → Nat → ExecM Nat
  | [], count => pure count
  | (rowId, row) :: rest, count => do
      if ← ExecM.lift (selects whereClause row schema.colNames) then
        rewriteRow table schema assignments none txnId rowId row
        updateRows table schema assignments whereClause txnId rest (count + 1)
      else updateRows table schema assignments whereClause txnId rest count

/-- `Executor::update`. -/
def update (table : String) (assignments : List Assignment) (whereClause : Option Expr) :
    ExecM QueryResult := do
  let s ← get
  let schema ← ExecM.lift (s.catalog.getTable table)
  let txnId ← beginWriteTxn
  let count ← updateRows table schema assignments whereClause txnId (s.storage.scan table) 0
  finishAutoCommitIfNeeded
  return QueryResult.modified count ("UPDATE " ++ toString count)

/-- The body `DELETE` runs on a row. -/
def removeRow (table : String) (schema : TableSchema) (txnId : Nat) (rowId : Nat) (row : Row) :
    ExecM Unit := do
  recordUndo (.delete table rowId row)
  ExecM.removeIndexRow table row.values schema.colNames rowId
  let _ ← ExecM.liftStorage fun storage => storage.delete table rowId txnId

/-- The row loop of `Executor::delete`. -/
def deleteRows (table : String) (schema : TableSchema) (whereClause : Option Expr)
    (txnId : Nat) : List (Nat × Row) → Nat → ExecM Nat
  | [], count => pure count
  | (rowId, row) :: rest, count => do
      if ← ExecM.lift (selects whereClause row schema.colNames) then
        removeRow table schema txnId rowId row
        deleteRows table schema whereClause txnId rest (count + 1)
      else deleteRows table schema whereClause txnId rest count

/-- `Executor::delete`. -/
def delete (table : String) (whereClause : Option Expr) : ExecM QueryResult := do
  let s ← get
  let schema ← ExecM.lift (s.catalog.getTable table)
  let txnId ← beginWriteTxn
  let count ← deleteRows table schema whereClause txnId (s.storage.scan table) 0
  finishAutoCommitIfNeeded
  return QueryResult.modified count ("DELETE " ++ toString count)

/-- Insert the keys of rows into an index under construction. -/
def buildIndex (colNames : List String) :
    BTreeIndex → List (Nat × Row) → Except Failure BTreeIndex
  | index, [] => .ok index
  | index, (rowId, row) :: rest => do
      let index' ← index.insert (keyValues index.columns row.values colNames) rowId
      buildIndex colNames index' rest

/-- `Executor::create_index`. -/
def createIndex (table indexName : String) (columns : List String) (unique : Bool) :
    ExecM QueryResult := do
  let s ← get
  let schema ← ExecM.lift (s.catalog.getTable table)
  match columns.find? fun column => (Catalog.columnIndex schema column).isNone with
  | some column => throw (.error (.columnNotFound column))
  | none =>
      let index ← ExecM.lift
        (buildIndex schema.colNames (.new indexName columns unique) (s.storage.scan table))
      let indexes ← ExecM.lift (s.indexes.createIndex table index)
      modify fun s => { s with indexes }
      let catalog ← ExecM.lift
        (s.catalog.addIndex table { name := indexName, columns, unique })
      modify fun s => { s with catalog }
      return QueryResult.ddl ("CREATE INDEX " ++ indexName)

/-- `expr_to_column_name`. -/
def exprToColumnName (column : Expr × String) : String :=
  match column.1 with
  | .identifier name => name
  | _ => column.2

/-- `execute_statement`. -/
def executeStatement : Statement → ExecM QueryResult
  | .startTransaction => begin
  | .commit => commit
  | .rollback => rollback
  | .createTable name columns constraints => createTable name columns constraints
  | .drop .table (name :: _) => dropTable (extractTableName name)
  | .drop .table [] => throw (.panic "index out of bounds")
  | .drop (.other display) _ => throw (.error (.execution ("unsupported DROP: " ++ display)))
  | .insert stmt => insert stmt
  | .query query => do
      let s ← get
      ExecM.lift (select s.toDatabase query)
  | .update table assignments selection => update table.relation.name assignments selection
  | .delete relations selection =>
      delete ((relations.head?.map fun item => item.relation.name).getD "") selection
  | .createIndex name tableName columns unique =>
      createIndex (extractTableName tableName) ((name.map extractTableName).getD "idx")
        (columns.map exprToColumnName) unique
  | .explain statement => do
      let s ← get
      ExecM.lift (explain s.toDatabase statement)
  | .other display => throw (.error (.execution ("unsupported statement: " ++ display)))

/-- The statement loop of `Executor::execute`. -/
def executeAll : List Statement → QueryResult → ExecM QueryResult
  | [], last => pure last
  | stmt :: rest, _ => do
      let result ← executeStatement stmt
      executeAll rest result

/-- `Executor::execute`, on the statements the text parses to. -/
def execute (statements : List Statement) : ExecM QueryResult :=
  if statements = [] then pure (QueryResult.empty "no statements")
  else executeAll statements (QueryResult.empty "ok")

end Statements

end MoodengSQL
