import MoodengSQL.Concurrency.Backup

/-!
# Logging among concurrent sessions

Sessions that run `INSERT`, `UPDATE` and `DELETE` outside transactions, and take
checkpoints. A logged operation changes the rows in memory under one lock, takes
its sequence number under a second and writes its record under a third, and a
checkpoint saves the tables one by one before it truncates the log. Each of
these is a turn of its own here. Row locks only take interleavings away, so they
are left out.
-/

namespace MoodengSQL

open Foundation Foundation.Effect Interleaving Std

section Halves

namespace WriteAheadLog

/-- The end of `append`: the record is written under the number drawn for it. -/
def writeEntry (wal : WriteAheadLog) (entry : WalEntry) : WriteAheadLog :=
  { wal with file := wal.file ++ [entry], opsSinceCheckpoint := wal.opsSinceCheckpoint + 1 }

theorem append_eq (wal : WriteAheadLog) (op : WalOp) :
    wal.append op = { wal with lsn := wal.lsn + 1 }.writeEntry (wal.lsn + 1, op) := rfl

end WriteAheadLog

namespace StorageEngine

/-- `StorageEngine::insert` up to its log record. -/
def insertInMemory (storage : StorageEngine) (table : String) (row : Row) :
    Nat × StorageEngine :=
  let (rowId, data) := (storage.tables.getD table .empty).insert row
  (rowId, { storage with tables := storage.tables.insert table data })

/-- `StorageEngine::update` up to its log record: the row it has stored, if there
was one to replace. -/
def updateInMemory (storage : StorageEngine) (table : String) (rowId : Nat) (row : Row)
    (expectedVersion : Nat) : Except Failure (Option Row × StorageEngine) :=
  match storage.tables[table]? with
  | none => .error (.error (.tableNotFound table))
  | some data =>
      if present : rowId ∈ data.rows then
        if data.rows[rowId].version ≠ expectedVersion then
          .error (.error (.versionConflict table rowId))
        else
          let row := { row with version := expectedVersion + 1 }
          let data := data.update rowId row present
          .ok (some row, { storage with tables := storage.tables.insert table data })
      else .ok (none, storage)

/-- `StorageEngine::delete` up to its log record. -/
def deleteInMemory (storage : StorageEngine) (table : String) (rowId : Nat) :
    Except Failure (Bool × StorageEngine) :=
  match storage.tables[table]? with
  | none => .error (.error (.tableNotFound table))
  | some data =>
      let (deleted, data) := data.delete rowId
      .ok (deleted, { storage with tables := storage.tables.insert table data })

variable [Runtime]

theorem insert_eq (storage : StorageEngine) (table : String) (row : Row) (txnId : Nat) :
    storage.insert table row txnId =
      ((storage.insertInMemory table row).1,
        (storage.insertInMemory table row).2.log
          (.insert txnId table (storage.insertInMemory table row).1 row)) := rfl

section Update

variable {storage : StorageEngine} {table : String} {rowId txnId expectedVersion : Nat} {row : Row}
  {data : TableData} {existing : Row}

theorem updates_of_missing (found : storage.tables[table]? = some data)
    (missing : data.rows[rowId]? = none) :
    storage.update table rowId row txnId expectedVersion = .ok (false, storage) ∧
      storage.updateInMemory table rowId row expectedVersion = .ok (none, storage) := by
  refine ⟨?_, ?_⟩
  · unfold update
    rw [found]
    dsimp only
    split
    · rfl
    · rename_i stored
      cases missing.symm.trans stored
  · unfold updateInMemory
    rw [found]
    refine dif_neg fun present => ?_
    cases missing.symm.trans (ExtTreeMap.getElem?_eq_some_getElem present)

theorem updates_of_conflict (found : storage.tables[table]? = some data)
    (stored : data.rows[rowId]? = some existing) (differs : existing.version ≠ expectedVersion) :
    storage.update table rowId row txnId expectedVersion =
        .error (.error (.versionConflict table rowId)) ∧
      storage.updateInMemory table rowId row expectedVersion =
        .error (.error (.versionConflict table rowId)) := by
  refine ⟨?_, ?_⟩
  · unfold update
    rw [found]
    dsimp only
    split
    · rename_i missing
      cases missing.symm.trans stored
    · rename_i other
      cases stored.symm.trans other
      exact if_pos differs
  · unfold updateInMemory
    rw [found]
    obtain ⟨present, same⟩ := ExtTreeMap.getElem?_eq_some_iff.mp stored
    exact (dif_pos present).trans (if_pos (same ▸ differs))

theorem updates_of_expected (row : Row) (found : storage.tables[table]? = some data)
    (stored : data.rows[rowId]? = some existing) (expected : existing.version = expectedVersion) :
    let row' := { row with version := expectedVersion + 1 }
    let data' := data.update rowId row' (Map.mem_of_getElem?_eq_some stored)
    let changed := { storage with tables := storage.tables.insert table data' }
    storage.update table rowId row txnId expectedVersion =
        .ok (true, changed.log (.update txnId table rowId row')) ∧
      storage.updateInMemory table rowId row expectedVersion = .ok (some row', changed) := by
  refine ⟨?_, ?_⟩
  · unfold update
    rw [found]
    dsimp only
    split
    · rename_i missing
      cases missing.symm.trans stored
    · rename_i other
      cases stored.symm.trans other
      exact if_neg (not_not_intro expected)
  · unfold updateInMemory
    rw [found]
    obtain ⟨present, same⟩ := ExtTreeMap.getElem?_eq_some_iff.mp stored
    exact (dif_pos present).trans (if_neg (not_not_intro (same ▸ expected)))

end Update

theorem update_eq (storage : StorageEngine) (table : String) (rowId : Nat) (row : Row)
    (txnId expectedVersion : Nat) :
    storage.update table rowId row txnId expectedVersion =
      (storage.updateInMemory table rowId row expectedVersion).map fun changed =>
        (changed.1.isSome,
          changed.1.elim changed.2 fun stored =>
            changed.2.log (.update txnId table rowId stored)) := by
  cases found : storage.tables[table]? with
  | none =>
      simp only [update, updateInMemory, found]
      rfl
  | some data =>
      cases stored : data.rows[rowId]? with
      | none =>
          obtain ⟨whole, half⟩ := updates_of_missing found stored
          rw [whole, half]
          rfl
      | some existing =>
          by_cases expected : existing.version = expectedVersion
          · obtain ⟨whole, half⟩ := updates_of_expected row found stored expected
            rw [whole, half]
            rfl
          · obtain ⟨whole, half⟩ := updates_of_conflict found stored expected
            rw [whole, half]
            rfl

theorem delete_eq (storage : StorageEngine) (table : String) (rowId txnId : Nat) :
    storage.delete table rowId txnId =
      (storage.deleteInMemory table rowId).map fun changed =>
        (changed.1, if changed.1 then changed.2.log (.delete txnId table rowId) else changed.2) := by
  unfold delete deleteInMemory
  cases storage.tables[table]? <;> rfl

end StorageEngine

end Halves

section Statements

/-- What a session asks for. -/
inductive LogCall where
  | insert (stmt : Insert)
  | update (table : String) (assignments : List Assignment) (whereClause : Option Expr)
  | delete (table : String) (whereClause : Option Expr)
  | checkpoint

/-- The table a statement writes to, as it has looked it up. -/
structure WriteJob where
  table : String
  schema : TableSchema

/-- A row a statement has still to work on: one to be inserted, or one it has scanned. -/
inductive RowTask where
  | insert (onConflict : Option OnConflict) (values : List Value)
  | update (assignments : List Assignment) (whereClause : Option Expr) (rowId : Nat) (row : Row)
  | delete (whereClause : Option Expr) (rowId : Nat) (row : Row)

/-- Where a statement stands between its steps. A record that is numbered,
written and followed by a checkpoint if one is due says what comes after it. -/
inductive LogPlace where
  | starting (job : WriteJob) (tasks : List RowTask)
  | opened (job : WriteJob) (txnId : Nat) (tasks : List RowTask)
  | looping (job : WriteJob) (txnId : Nat) (tasks : List RowTask) (count : Nat)
  | conflicting (job : WriteJob) (txnId : Nat) (proposed : List Value) (existingId : Nat)
      (update : DoUpdate) (rest : List RowTask) (count : Nat)
  | adding (job : WriteJob) (txnId : Nat) (rowValues : List Value) (rest : List RowTask)
      (count : Nat)
  | rewriting (job : WriteJob) (txnId rowId : Nat) (row : Row) (rest : List RowTask)
      (count : Nat)
  | removing (job : WriteJob) (txnId rowId : Nat) (rest : List RowTask) (count : Nat)
  | indexing (job : WriteJob) (rowId : Nat) (values : List Value) (next : LogPlace)
  | recording (entry : UndoRecord) (next : LogPlace)
  | closing
  | numbering (op : WalOp) (next : LogPlace)
  | writing (entry : WalEntry) (next : LogPlace)
  | checking (next : LogPlace)
  | saving (names : List String) (next : LogPlace)
  | marking (lsn : Nat) (next : LogPlace)
  | truncating (next : LogPlace)
  | resetting (next : LogPlace)
  | persisting

variable [Runtime]

/-- The first step of a statement: its checks, and the scan of `UPDATE` and `DELETE`. -/
def LogCall.start (db : Database) : LogCall → Except Failure LogPlace
  | .insert stmt => match stmt.source with
    | none => .error (.error (.parse "missing INSERT source"))
    | some source => do
        let table := extractTableName stmt.tableName
        let schema ← db.catalog.getTable table
        let rows ← valuesFromInsert source
        let onConflict ← conflictClause stmt.on
        .ok (.starting { table, schema } (rows.map (.insert onConflict)))
  | .update table assignments whereClause => do
      let schema ← db.catalog.getTable table
      .ok (.starting { table, schema } ((db.storage.scan table).map fun entry =>
        .update assignments whereClause entry.1 entry.2))
  | .delete table whereClause => do
      let schema ← db.catalog.getTable table
      .ok (.starting { table, schema } ((db.storage.scan table).map fun entry =>
        .delete whereClause entry.1 entry.2))
  | .checkpoint =>
      .ok (.saving (Runtime.hashOrder.order "tables" db.storage.tables.keys) .persisting)

/-- The body of `UPDATE` and `DO UPDATE` on a row up to the call of `storage.update`. -/
def readyRow (job : WriteJob) (assignments : List Assignment) (excluded : Option (List Value))
    (rowId : Nat) (row : Row) : ExecM (List Value) := do
  recordUndo (.update job.table rowId row)
  ExecM.removeIndexRow job.table row.values job.schema.colNames rowId
  let values ← ExecM.lift (assignAll job.schema excluded assignments row.values)
  ExecM.lift (validateRow job.schema values)
  return values

/-- The work on a row up to the change of the stored rows. -/
def RowTask.begin (job : WriteJob) (txnId : Nat) (rest : List RowTask) (count : Nat) :
    RowTask → ExecM LogPlace
  | .insert onConflict values => do
      let rowValues ← ExecM.lift (coerceRow job.schema values)
      ExecM.lift (validateRow job.schema rowValues)
      match onConflict with
      | none => return .adding job txnId rowValues rest count
      | some conflict =>
          let s ← get
          match ← ExecM.lift (findConflictRow s.indexes job.schema job.table conflict rowValues) with
          | none => return .adding job txnId rowValues rest count
          | some existingId => match conflict.action with
            | .doNothing => return .looping job txnId rest count
            | .doUpdate change => return .conflicting job txnId rowValues existingId change rest count
  | .update assignments whereClause rowId row => do
      if ← ExecM.lift (selects whereClause row job.schema.colNames) then
        let values ← readyRow job assignments none rowId row
        return .rewriting job txnId rowId { row with values } rest count
      else return .looping job txnId rest count
  | .delete whereClause rowId row => do
      if ← ExecM.lift (selects whereClause row job.schema.colNames) then
        recordUndo (.delete job.table rowId row)
        ExecM.removeIndexRow job.table row.values job.schema.colNames rowId
        return .removing job txnId rowId rest count
      else return .looping job txnId rest count

/-- The start of `begin_write_txn`: the transaction a statement runs in. -/
def enterTransaction (job : WriteJob) (tasks : List RowTask) : ExecM LogPlace := do
  let s ← get
  match s.session.transaction.txnId with
  | some txnId => return .looping job txnId tasks 0
  | none =>
      if s.session.transaction.active then
        throw (.error (.execution "transaction already active"))
      modify fun s => { s with storage := { s.storage with wal := s.storage.wal.allocTxnId.2 } }
      return .numbering (.begin s.storage.wal.allocTxnId.1)
        (.opened job s.storage.wal.allocTxnId.1 tasks)

/-- The start of `finish_auto_commit_if_needed`. -/
def leaveTransaction : ExecM (Option LogPlace) := do
  let s ← get
  if s.session.autoCommit then
    match s.session.transaction.txnId with
    | none => throw (.error (.execution "no active transaction"))
    | some txnId =>
        modify fun s => { s with
          session := { s.session with
            transaction := { s.session.transaction with txnId := none } } }
        return some (.numbering (.commit txnId) .closing)
  else return none

/-- `DO UPDATE` on the row the index has found, up to the change of the stored rows. -/
def readyConflict (job : WriteJob) (txnId : Nat) (proposed : List Value) (existingId : Nat)
    (update : DoUpdate) (rest : List RowTask) (count : Nat) : ExecM LogPlace := do
  let s ← get
  match s.storage.get job.table existingId with
  | none => throw (.error (.execution "conflict row vanished"))
  | some existing =>
      let applies ← match update.selection with
        | some condition =>
            ExecM.lift <|
              evalWhereWithExcluded condition existing.values job.schema.colNames (some proposed)
        | none => pure true
      if applies then
        let values ← readyRow job update.assignments (some proposed) existingId existing
        return .rewriting job txnId existingId { existing with values } rest count
      else return .looping job txnId rest (count + 1)

/-- A turn of a statement, as a computation in its session: where it stands afterwards. -/
def LogPlace.run : LogPlace → ExecM (Option LogPlace)
  | .starting job tasks => some <$> enterTransaction job tasks
  | .opened job txnId tasks => do
      modify fun s => { s with
        session := {
          transaction := { active := true, txnId := some txnId, undo := [] }
          autoCommit := true }
        activeWriteTxns := s.activeWriteTxns + 1 }
      return some (.looping job txnId tasks 0)
  | .looping _ _ [] _ => leaveTransaction
  | .looping job txnId (task :: rest) count => some <$> task.begin job txnId rest count
  | .conflicting job txnId proposed existingId update rest count =>
      some <$> readyConflict job txnId proposed existingId update rest count
  | .adding job txnId rowValues rest count => do
      let rowId ← ExecM.liftStorage fun storage =>
        .ok (storage.insertInMemory job.table (Row.new rowValues))
      return some (.numbering (.insert txnId job.table rowId (Row.new rowValues))
        (.checking (.indexing job rowId rowValues
          (.recording (.insert job.table rowId) (.looping job txnId rest (count + 1))))))
  | .rewriting job txnId rowId row rest count => do
      match ← ExecM.liftStorage fun storage =>
          storage.updateInMemory job.table rowId row row.version with
      | some stored =>
          return some (.numbering (.update txnId job.table rowId stored)
            (.checking (.indexing job rowId row.values (.looping job txnId rest (count + 1)))))
      | none => return some (.indexing job rowId row.values (.looping job txnId rest (count + 1)))
  | .removing job txnId rowId rest count => do
      if ← ExecM.liftStorage fun storage => storage.deleteInMemory job.table rowId then
        return some (.numbering (.delete txnId job.table rowId)
          (.checking (.looping job txnId rest (count + 1))))
      else return some (.looping job txnId rest (count + 1))
  | .indexing job rowId values next => do
      ExecM.insertIndexRow job.table values job.schema.colNames rowId
      return some next
  | .recording entry next => do
      recordUndo entry
      return some next
  | .closing => do
      modify fun s => { s with
        session := { transaction := .idle, autoCommit := false }
        activeWriteTxns := s.activeWriteTxns - 1 }
      return none
  | .numbering op next => do
      let s ← get
      modify fun s => { s with
        storage := { s.storage with wal := { s.storage.wal with lsn := s.storage.wal.lsn + 1 } } }
      return some (.writing (s.storage.wal.lsn + 1, op) next)
  | .writing entry next => do
      modify fun s => { s with
        storage := { s.storage with wal := s.storage.wal.writeEntry entry } }
      return some next
  | .checking next => do
      let s ← get
      if s.storage.wal.shouldCheckpoint then
        return some (.saving (Runtime.hashOrder.order "tables" s.storage.tables.keys) next)
      else return some next
  | .saving [] next => do
      let s ← get
      return some (.marking s.storage.wal.lsn next)
  | .saving (table :: names) next => do
      modify fun s => { s with storage := s.storage.persistTable table }
      return some (.saving names next)
  | .marking lsn next => do
      modify fun s => { s with
        storage := { s.storage with wal := s.storage.wal.markCheckpoint lsn } }
      return some (.truncating next)
  | .truncating next => do
      modify fun s => { s with
        storage := { s.storage with wal := { s.storage.wal with file := [] } } }
      return some (.resetting next)
  | .resetting next => do
      modify fun s => { s with
        storage := { s.storage with wal := { s.storage.wal with lsn := 0 } } }
      return some next
  | .persisting => do
      persist
      return none

/-- The number a turn draws, with the record it draws it for. -/
def LogPlace.draws (lsn : Nat) : LogPlace → List WalEntry
  | .numbering op _ => [(lsn + 1, op)]
  | _ => []

/-- A turn of a session. The history is that of the numbers drawn. -/
def logStep (db : Database) (client : Client LogPlace LogCall) :
    Turn Database (Client LogPlace LogCall) WalEntry :=
  match client.phase with
  | none => match client.program with
    | [] => .wait db client
    | call :: rest =>
        { client with program := rest }.perform db (ExecM.lift (call.start db)) some fun _ => []
  | some place => client.perform db place.run id fun _ => place.draws db.storage.wal.lsn

end Statements

section Alone

variable [Runtime]

/-- The work on a row, as the executor does it. -/
def RowTask.body (job : WriteJob) (txnId : Nat) : RowTask → RowBody
  | .insert onConflict values => insertBody job.table job.schema onConflict txnId values
  | .update assignments whereClause rowId row =>
      updateBody job.table job.schema assignments whereClause txnId (rowId, row)
  | .delete whereClause rowId row => deleteBody job.table job.schema whereClause txnId (rowId, row)

/-- The row loop of a statement, and its end. -/
def runTasks (job : WriteJob) (txnId : Nat) (tasks : List RowTask) (count : Nat) : ExecM PUnit := do
  let _ ← runRows (tasks.map (RowTask.body job txnId)) count
  finishAutoCommitIfNeeded

/-- What is left of a statement when no other session takes a turn. -/
def LogPlace.remaining : LogPlace → ExecM PUnit
  | .starting job tasks => do
      let txnId ← beginWriteTxn
      runTasks job txnId tasks 0
  | .opened job txnId tasks => do
      modify fun s => { s with
        session := {
          transaction := { active := true, txnId := some txnId, undo := [] }
          autoCommit := true }
        activeWriteTxns := s.activeWriteTxns + 1 }
      runTasks job txnId tasks 0
  | .looping job txnId tasks count => runTasks job txnId tasks count
  | .conflicting job txnId proposed existingId update rest count => do
      applyConflictUpdate job.table job.schema existingId proposed update txnId
      runTasks job txnId rest (count + 1)
  | .adding job txnId rowValues rest count => do
      storeRow job.table job.schema txnId rowValues
      runTasks job txnId rest (count + 1)
  | .rewriting job txnId rowId row rest count => do
      let _ ← ExecM.liftStorage fun storage =>
        storage.update job.table rowId row txnId row.version
      ExecM.insertIndexRow job.table row.values job.schema.colNames rowId
      runTasks job txnId rest (count + 1)
  | .removing job txnId rowId rest count => do
      let _ ← ExecM.liftStorage fun storage => storage.delete job.table rowId txnId
      runTasks job txnId rest (count + 1)
  | .indexing job rowId values next => do
      ExecM.insertIndexRow job.table values job.schema.colNames rowId
      next.remaining
  | .recording entry next => do
      recordUndo entry
      next.remaining
  | .closing =>
      modify fun s => { s with
        session := { transaction := .idle, autoCommit := false }
        activeWriteTxns := s.activeWriteTxns - 1 }
  | .numbering op next => do
      modify fun s => { s with storage := { s.storage with wal := s.storage.wal.append op } }
      next.remaining
  | .writing entry next => do
      modify fun s => { s with
        storage := { s.storage with wal := s.storage.wal.writeEntry entry } }
      next.remaining
  | .checking next => do
      modify fun s => { s with storage := s.storage.maybeCheckpoint }
      next.remaining
  | .saving names next => do
      modify fun s =>
        let saved := names.foldl StorageEngine.persistTable s.storage
        { s with storage := { saved with
            wal := (saved.wal.markCheckpoint saved.wal.lsn).truncate } }
      next.remaining
  | .marking lsn next => do
      modify fun s => { s with
        storage := { s.storage with wal := (s.storage.wal.markCheckpoint lsn).truncate } }
      next.remaining
  | .truncating next => do
      modify fun s => { s with
        storage := { s.storage with wal := s.storage.wal.truncate } }
      next.remaining
  | .resetting next => do
      modify fun s => { s with
        storage := { s.storage with wal := { s.storage.wal with lsn := 0 } } }
      next.remaining
  | .persisting => persist

/-- What is left of a statement, if it is still running. -/
def remainingOf : Option LogPlace → ExecM PUnit
  | none => pure ⟨⟩
  | some place => place.remaining

theorem beginWriteTxn_enters (job : WriteJob) (tasks : List RowTask) (s : Executor) :
    finalState (LogPlace.starting job tasks).remaining s =
      finalState ((LogPlace.starting job tasks).run >>= remainingOf) s := by
  obtain ⟨db, ⟨active, txnId, undo⟩, autoCommit⟩ := s
  cases txnId with
  | some txnId => rfl
  | none => cases active <;> rfl

theorem finishes_leaves (job : WriteJob) (txnId count : Nat) (s : Executor) :
    finalState (LogPlace.looping job txnId [] count).remaining s =
      finalState ((LogPlace.looping job txnId [] count).run >>= remainingOf) s := by
  obtain ⟨db, ⟨active, txnId, undo⟩, autoCommit⟩ := s
  cases autoCommit with
  | false => rfl
  | true => cases txnId <;> rfl

theorem runTasks_cons (job : WriteJob) (txnId : Nat) (task : RowTask) (rest : List RowTask)
    (count : Nat) :
    runTasks job txnId (task :: rest) count = (do
      let count ← (task.body job txnId).run count
      runTasks job txnId rest count) := by
  simp only [runTasks, List.map_cons, runRows, bind_assoc]

/-- What a statement does to a row is its turns on it. -/
theorem runTasks_begin (job : WriteJob) (txnId : Nat) (task : RowTask) (rest : List RowTask)
    (count : Nat) :
    runTasks job txnId (task :: rest) count =
      (some <$> task.begin job txnId rest count) >>= remainingOf := by
  rw [runTasks_cons, bind_map_left]
  cases task with
  | insert onConflict values =>
      simp only [RowTask.body, insertBody, RowTask.begin, insertRows, bind_assoc]
      congr 1
      funext rowValues
      congr 1
      funext _
      cases onConflict with
      | none => simp only [bind_assoc, pure_bind, remainingOf, LogPlace.remaining]
      | some conflict =>
          simp only [bind_assoc]
          congr 1
          funext s
          congr 1
          funext existing
          cases existing with
          | none => simp only [bind_assoc, pure_bind, remainingOf, LogPlace.remaining]
          | some existingId =>
              cases conflict.action <;>
                simp only [bind_assoc, pure_bind, remainingOf, LogPlace.remaining]
  | update assignments whereClause rowId row =>
      simp only [RowTask.body, updateBody, RowTask.begin, updateRows, rewriteRow, bind_assoc]
      congr 1
      funext selected
      cases selected <;>
        simp [readyRow, remainingOf, LogPlace.remaining]
  | delete whereClause rowId row =>
      simp only [RowTask.body, deleteBody, RowTask.begin, deleteRows, removeRow, bind_assoc]
      congr 1
      funext selected
      cases selected <;>
        simp [remainingOf, LogPlace.remaining]

theorem applyConflictUpdate_ready (job : WriteJob) (txnId : Nat) (proposed : List Value)
    (existingId : Nat) (update : DoUpdate) (rest : List RowTask) (count : Nat) :
    (LogPlace.conflicting job txnId proposed existingId update rest count).remaining =
      (some <$> readyConflict job txnId proposed existingId update rest count) >>=
        remainingOf := by
  simp only [LogPlace.remaining, applyConflictUpdate, readyConflict, bind_map_left, bind_assoc]
  congr 1
  funext s
  cases s.storage.get job.table existingId with
  | none => rfl
  | some existing =>
      cases update.selection with
      | none => simp [rewriteRow, readyRow, remainingOf, LogPlace.remaining]
      | some condition =>
          simp only [bind_assoc]
          congr 1
          funext applies
          cases applies <;> simp [rewriteRow, readyRow, remainingOf, LogPlace.remaining]

/-- A record is numbered, written, and followed by a checkpoint if one is due. -/
def logRecord (op : WalOp) : ExecM PUnit := do
  modify fun s => { s with storage := { s.storage with wal := s.storage.wal.append op } }
  modify fun s => { s with storage := s.storage.maybeCheckpoint }

/-- The record of a change, if there was one. -/
def logChange : Option WalOp → ExecM PUnit
  | some op => logRecord op
  | none => pure ⟨⟩

theorem liftStorage_insert (table : String) (row : Row) (txnId : Nat) :
    (ExecM.liftStorage fun storage => .ok (storage.insert table row txnId)) = (do
      let rowId ← ExecM.liftStorage fun storage => .ok (storage.insertInMemory table row)
      logRecord (.insert txnId table rowId row)
      return rowId) := rfl

/-- A storage operation that ends in a log record is its change in memory and the record. -/
theorem liftStorage_logged {α β : Type}
    {whole : StorageEngine → Except Failure (β × StorageEngine)}
    (op : StorageEngine → Except Failure (α × StorageEngine)) (result : α → β)
    (record : α → Option WalOp)
    (same : ∀ storage, whole storage = (op storage).map fun changed =>
      (result changed.1, (record changed.1).elim changed.2 changed.2.log)) :
    ExecM.liftStorage whole = (do
      let changed ← ExecM.liftStorage op
      logChange (record changed)
      return result changed) := by
  funext s
  cases outcome : op s.storage with
  | error e =>
      have fails : ExecM.liftStorage op s = .error e s := by
        simp only [ExecM.liftStorage, outcome]
      rw [bind_eq_error.mpr (.inl fails)]
      simp only [ExecM.liftStorage, same, outcome, Except.map]
  | ok changed =>
      obtain ⟨a, storage⟩ := changed
      have changes : ExecM.liftStorage op s = .ok a { s with storage } := by
        simp only [ExecM.liftStorage, outcome]
      rw [bind_of_ok changes]
      simp only [ExecM.liftStorage, same, outcome, Except.map]
      cases record a <;> rfl

theorem liftStorage_update (table : String) (rowId : Nat) (row : Row)
    (txnId expectedVersion : Nat) :
    (ExecM.liftStorage fun storage =>
      storage.update table rowId row txnId expectedVersion) = (do
      let stored ← ExecM.liftStorage fun storage =>
        storage.updateInMemory table rowId row expectedVersion
      logChange (stored.map (WalOp.update txnId table rowId))
      return stored.isSome) := by
  apply liftStorage_logged
  intro storage
  rw [StorageEngine.update_eq]
  congr 1
  funext changed
  cases changed.1 <;> rfl

theorem liftStorage_delete (table : String) (rowId txnId : Nat) :
    (ExecM.liftStorage fun storage => storage.delete table rowId txnId) = (do
      let deleted ← ExecM.liftStorage fun storage => storage.deleteInMemory table rowId
      logChange (if deleted then some (.delete txnId table rowId) else none)
      return deleted) := by
  refine liftStorage_logged _ (fun deleted => deleted)
    (fun deleted : Bool => if deleted then some (.delete txnId table rowId) else none) ?_
  intro storage
  rw [StorageEngine.delete_eq]
  congr 1
  funext changed
  cases changed.1 <;> rfl

/-- **A turn leaves the rest of the statement.** What is left of a statement before
a turn is the turn and what is left after it. -/
theorem LogPlace.run_remaining (place : LogPlace) (s : Executor) :
    finalState place.remaining s = finalState (place.run >>= remainingOf) s := by
  cases place with
  | starting job tasks => exact beginWriteTxn_enters job tasks s
  | opened job txnId tasks => rfl
  | looping job txnId tasks count =>
      cases tasks with
      | nil => exact finishes_leaves job txnId count s
      | cons task rest => exact congrArg (finalState · s) (runTasks_begin job txnId task rest count)
  | conflicting job txnId proposed existingId update rest count =>
      exact congrArg (finalState · s)
        (applyConflictUpdate_ready job txnId proposed existingId update rest count)
  | adding job txnId rowValues rest count =>
      simp only [LogPlace.remaining, LogPlace.run, storeRow, liftStorage_insert, logRecord,
        bind_assoc, pure_bind, remainingOf]
  | rewriting job txnId rowId row rest count =>
      simp only [LogPlace.remaining, LogPlace.run, liftStorage_update, bind_assoc]
      congr 2
      funext stored
      cases stored <;>
        simp only [logChange, logRecord, Option.map_some, Option.map_none, bind_assoc, pure_bind,
          remainingOf, LogPlace.remaining]
  | removing job txnId rowId rest count =>
      simp only [LogPlace.remaining, LogPlace.run, liftStorage_delete, bind_assoc]
      congr 2
      funext deleted
      cases deleted <;>
        simp only [logChange, logRecord, if_true, Bool.false_eq_true, if_false, bind_assoc,
          pure_bind, remainingOf, LogPlace.remaining]
  | indexing job rowId values next =>
      simp only [LogPlace.remaining, LogPlace.run, bind_assoc, pure_bind, remainingOf]
  | saving names next => cases names <;> rfl
  | checking next =>
      cases due : s.storage.wal.shouldCheckpoint with
      | false =>
          have goesOn : (LogPlace.checking next).run s = .ok (some next) s := by
            simp only [LogPlace.run, get_bind, due, Bool.false_eq_true, if_false]
            rfl
          rw [finalState_bind_of_ok goesOn]
          simp only [LogPlace.remaining, finalState_modify_bind, StorageEngine.maybeCheckpoint, due,
            Bool.false_eq_true, if_false, remainingOf]
      | true =>
          have starts : (LogPlace.checking next).run s =
              .ok (some (.saving (Runtime.hashOrder.order "tables" s.storage.tables.keys) next))
                s := by
            simp only [LogPlace.run, get_bind, due, if_true]
            rfl
          rw [finalState_bind_of_ok starts]
          simp only [LogPlace.remaining, finalState_modify_bind, StorageEngine.maybeCheckpoint, due,
            if_true, remainingOf]
          rfl
  | _ => rfl

/-- The checkpoints a statement may still come to. -/
def LogPlace.checks : LogPlace → Nat
  | .starting _ tasks => tasks.length
  | .opened _ _ tasks => tasks.length
  | .looping _ _ tasks _ => tasks.length
  | .conflicting _ _ _ _ _ rest _ => rest.length + 1
  | .adding _ _ _ rest _ => rest.length + 1
  | .rewriting _ _ _ _ rest _ => rest.length + 1
  | .removing _ _ _ rest _ => rest.length + 1
  | .closing => 0
  | .persisting => 0
  | .checking next => next.checks + 1
  | .indexing _ _ _ next => next.checks
  | .recording _ next => next.checks
  | .numbering _ next => next.checks
  | .writing _ next => next.checks
  | .saving _ next => next.checks
  | .marking _ next => next.checks
  | .truncating next => next.checks
  | .resetting next => next.checks

/-- The turns it takes at most before it comes to the next. -/
def LogPlace.steps : LogPlace → Nat
  | .starting _ tasks => 10 * tasks.length + 9
  | .opened _ _ tasks => 10 * tasks.length + 6
  | .looping _ _ tasks _ => 10 * tasks.length + 5
  | .conflicting _ _ _ _ _ rest _ => 10 * rest.length + 12
  | .adding _ _ _ rest _ => 10 * rest.length + 11
  | .rewriting _ _ _ _ rest _ => 10 * rest.length + 11
  | .removing _ _ _ rest _ => 10 * rest.length + 11
  | .closing => 1
  | .persisting => 1
  | .checking next => next.steps + 1
  | .indexing _ _ _ next => next.steps + 1
  | .recording _ next => next.steps + 1
  | .numbering _ next => next.steps + 2
  | .writing _ next => next.steps + 1
  | .saving names next => next.steps + names.length + 4
  | .marking _ next => next.steps + 3
  | .truncating next => next.steps + 2
  | .resetting next => next.steps + 1

/-- What a statement has still to do. -/
def sizeOf : Option LogPlace → Nat ×ₗ Nat
  | none => toLex (0, 0)
  | some place => toLex (place.checks, place.steps)

omit [Runtime] in
theorem sizeOf_lt {place next : LogPlace} (checks : next.checks ≤ place.checks)
    (steps : next.steps < place.steps) : sizeOf (some next) < sizeOf (some place) :=
  Prod.Lex.toLex_lt_toLex.mpr
    ((Nat.lt_or_eq_of_le checks).imp_right fun same => ⟨same, steps⟩)

omit [Runtime] in
theorem steps_pos (place : LogPlace) : 0 < place.steps := by
  cases place <;> simp [LogPlace.steps]

omit [Runtime] in
theorem sizeOf_none_lt (place : LogPlace) : sizeOf none < sizeOf (some place) :=
  Prod.Lex.toLex_lt_toLex.mpr
    ((Nat.eq_zero_or_pos place.checks).symm.imp_right fun zero => ⟨zero.symm, steps_pos place⟩)

omit [Runtime] in
/-- A turn that always goes on. -/
theorem returns_some {α : Type} {property : Option α → Prop} {m : ExecM α}
    (returns : Returns (fun a => property (some a)) m) : Returns property (some <$> m) := by
  intro s next s' ran
  rw [map_eq_pure_bind] at ran
  obtain ⟨a, mid, first, ended⟩ := bind_eq_ok.mp ran
  obtain ⟨rfl, -⟩ := pure_eq_ok.mp ended
  exact returns first

omit [Runtime] in
theorem shrinks_enter (job : WriteJob) (tasks : List RowTask) :
    Returns (fun next => sizeOf (some next) < sizeOf (some (.starting job tasks)))
      (enterTransaction job tasks) := by
  have opens : ∀ txnId, Returns (fun next => sizeOf (some next) <
        sizeOf (some (.starting job tasks)))
      (do
        modify fun s => { s with
          storage := { s.storage with wal := s.storage.wal.allocTxnId.2 } }
        return .numbering (.begin txnId) (.opened job txnId tasks) : ExecM LogPlace) := by
    intro txnId
    refine .seq fun _ => .ret (sizeOf_lt (Nat.le_refl _) ?_)
    simp [LogPlace.steps]
  refine .seq fun s => ?_
  cases s.session.transaction.txnId with
  | some txnId => exact .ret (sizeOf_lt (Nat.le_refl _) (by simp [LogPlace.steps]))
  | none =>
      dsimp only
      cases s.session.transaction.active with
      | true => exact .seq fun _ => opens _
      | false => exact opens _

omit [Runtime] in
theorem shrinks_leave (job : WriteJob) (txnId count : Nat) :
    Returns (fun next => sizeOf next < sizeOf (some (.looping job txnId [] count)))
      leaveTransaction := by
  refine .seq fun s => ?_
  cases s.session.autoCommit with
  | false => exact .ret (sizeOf_none_lt _)
  | true =>
      dsimp only
      cases s.session.transaction.txnId with
      | none => exact .fail _
      | some txnId =>
          exact .seq fun _ => .ret (sizeOf_lt (Nat.le_refl _) (by simp [LogPlace.steps]))

theorem shrinks_begin (job : WriteJob) (txnId : Nat) (task : RowTask) (rest : List RowTask)
    (count : Nat) :
    Returns (fun next => sizeOf (some next) < sizeOf (some (.looping job txnId (task :: rest) count)))
      (task.begin job txnId rest count) := by
  have goesOn : sizeOf (some (.looping job txnId rest count)) <
      sizeOf (some (.looping job txnId (task :: rest) count)) := by
    apply sizeOf_lt <;> simp [LogPlace.checks, LogPlace.steps]
  have adds : ∀ rowValues, sizeOf (some (.adding job txnId rowValues rest count)) <
      sizeOf (some (.looping job txnId (task :: rest) count)) := by
    intro rowValues
    apply sizeOf_lt <;> simp [LogPlace.checks, LogPlace.steps, Nat.mul_add]
  cases task with
  | insert onConflict values =>
      refine .seq fun rowValues => .seq fun _ => ?_
      cases onConflict with
      | none => exact .ret (adds rowValues)
      | some conflict =>
          refine .seq fun s => .seq fun existing => ?_
          cases existing with
          | none => exact .ret (adds rowValues)
          | some existingId =>
              cases conflict.action with
              | doNothing => exact .ret goesOn
              | doUpdate change =>
                  refine .ret ?_
                  apply sizeOf_lt <;> simp [LogPlace.checks, LogPlace.steps, Nat.mul_add]
  | update assignments whereClause rowId row =>
      refine .seq fun selected => ?_
      cases selected with
      | false => exact .ret goesOn
      | true =>
          refine .seq fun values => .ret ?_
          apply sizeOf_lt <;> simp [LogPlace.checks, LogPlace.steps, Nat.mul_add]
  | delete whereClause rowId row =>
      refine .seq fun selected => ?_
      cases selected with
      | false => exact .ret goesOn
      | true =>
          refine .seq fun _ => .seq fun _ => .ret ?_
          apply sizeOf_lt <;> simp [LogPlace.checks, LogPlace.steps, Nat.mul_add]

theorem shrinks_readyConflict (job : WriteJob) (txnId : Nat) (proposed : List Value)
    (existingId : Nat) (update : DoUpdate) (rest : List RowTask) (count : Nat) :
    Returns (fun next => sizeOf (some next) <
        sizeOf (some (.conflicting job txnId proposed existingId update rest count)))
      (readyConflict job txnId proposed existingId update rest count) := by
  refine .seq fun s => ?_
  cases s.storage.get job.table existingId with
  | none => exact .fail _
  | some existing =>
      have applied : ∀ applies : Bool, Returns (fun next => sizeOf (some next) <
            sizeOf (some (.conflicting job txnId proposed existingId update rest count)))
          (if applies then do
            let values ← readyRow job update.assignments (some proposed) existingId existing
            return .rewriting job txnId existingId { existing with values } rest count
          else return .looping job txnId rest (count + 1) : ExecM LogPlace) := by
        intro applies
        cases applies with
        | false =>
            refine .ret ?_
            apply sizeOf_lt <;> simp [LogPlace.checks, LogPlace.steps]
        | true =>
            refine .seq fun values => .ret ?_
            apply sizeOf_lt <;> simp [LogPlace.checks, LogPlace.steps]
      dsimp only
      cases update.selection with
      | none => exact applied true
      | some condition => exact .seq applied

/-- Every turn brings a statement closer to its end. -/
theorem LogPlace.run_shrinks (place : LogPlace) :
    Returns (fun next => sizeOf next < sizeOf (some place)) place.run := by
  cases place with
  | starting job tasks => exact returns_some (shrinks_enter job tasks)
  | looping job txnId tasks count =>
      cases tasks with
      | nil => exact shrinks_leave job txnId count
      | cons task rest => exact returns_some (shrinks_begin job txnId task rest count)
  | conflicting job txnId proposed existingId update rest count =>
      exact returns_some (shrinks_readyConflict job txnId proposed existingId update rest count)
  | rewriting job txnId rowId row rest count =>
      refine .seq fun stored => ?_
      cases stored <;> refine .ret (sizeOf_lt ?_ ?_) <;> simp [LogPlace.checks, LogPlace.steps]
  | removing job txnId rowId rest count =>
      refine .seq fun deleted => ?_
      cases deleted <;> refine .ret (sizeOf_lt ?_ ?_) <;> simp [LogPlace.checks, LogPlace.steps]
  | checking next =>
      have fewer : ∀ place : LogPlace, place.checks = next.checks →
          sizeOf (some place) < sizeOf (some (.checking next)) := fun place same =>
        Prod.Lex.toLex_lt_toLex.mpr (.inl (same ▸ Nat.lt_succ_self _))
      refine .seq fun s => ?_
      split
      · exact .ret (fewer _ rfl)
      · exact .ret (fewer _ rfl)
  | saving names next =>
      cases names with
      | nil => exact .seq fun s => .ret (sizeOf_lt (Nat.le_refl _) (by simp [LogPlace.steps]))
      | cons table names =>
          exact .seq fun s => .ret (sizeOf_lt (Nat.le_refl _) (by simp [LogPlace.steps]))
  | closing => exact .seq fun _ => .ret (sizeOf_none_lt _)
  | persisting => exact .seq fun _ => .ret (sizeOf_none_lt _)
  | numbering op next =>
      exact .seq fun _ => .seq fun _ => .ret (sizeOf_lt (Nat.le_refl _) (by simp [LogPlace.steps]))
  | _ =>
      refine .seq fun _ => .ret (sizeOf_lt ?_ ?_) <;> simp [LogPlace.checks, LogPlace.steps]

/-- A call, as the executor or the database runs it. -/
def LogCall.whole : LogCall → ExecM PUnit
  | .insert stmt => do let _ ← MoodengSQL.insert stmt
  | .update table assignments whereClause => do
      let _ ← MoodengSQL.update table assignments whereClause
  | .delete table whereClause => do let _ ← MoodengSQL.delete table whereClause
  | .checkpoint => checkpointDatabase

omit [Runtime] in
theorem finalState_get_bind {α : Type} (f : Executor → ExecM α) (s : Executor) :
    finalState (get >>= f) s = finalState (f s) s := rfl

/-- A write statement in its transaction, with what it reports left out. -/
theorem written_eq (job : WriteJob) (tasks : List RowTask) (result : Nat → QueryResult)
    (s : Executor) :
    finalState (do
        let txnId ← beginWriteTxn
        let count ← runRows (tasks.map (RowTask.body job txnId)) 0
        finishAutoCommitIfNeeded
        return result count) s =
      finalState (LogPlace.starting job tasks).remaining s := by
  refine finalState_bind_congr (fun txnId s => ?_) _
  refine finalState_bind_congr (fun count s => ?_) s
  exact finalState_bind_pure _ _ s

/-- The first turn of a call leaves the rest of it. -/
theorem LogCall.start_remaining (call : LogCall) (s : Executor) :
    finalState call.whole s =
      finalState (ExecM.lift (call.start s.toDatabase) >>= fun place => place.remaining) s := by
  cases call with
  | insert stmt =>
      refine (finalState_bind_pure _ _ s).trans ?_
      simp only [MoodengSQL.insert, LogCall.start]
      cases stmt.source with
      | none => rfl
      | some source =>
          simp only [insertRows_eq_runRows, finalState_get_bind]
          cases s.catalog.getTable (extractTableName stmt.tableName) with
          | error e => rfl
          | ok schema =>
              cases valuesFromInsert source with
              | error e => rfl
              | ok rows =>
                  cases conflictClause stmt.on with
                  | error e => rfl
                  | ok onConflict =>
                      rw [finalState_bind_of_ok (ExecM.lift_eq_ok.mpr ⟨rfl, rfl⟩),
                        finalState_bind_of_ok (ExecM.lift_eq_ok.mpr ⟨rfl, rfl⟩),
                        finalState_bind_of_ok (ExecM.lift_eq_ok.mpr ⟨rfl, rfl⟩)]
                      refine Eq.trans ?_ (written_eq ⟨_, schema⟩ (rows.map (.insert onConflict))
                        (fun count => .modified count ("INSERT 0 " ++ toString count)) s)
                      simp only [List.map_map]
                      rfl
  | update table assignments whereClause =>
      refine (finalState_bind_pure _ _ s).trans ?_
      simp only [MoodengSQL.update, LogCall.start, updateRows_eq_runRows, finalState_get_bind]
      cases s.catalog.getTable table with
      | error e => rfl
      | ok schema =>
          rw [finalState_bind_of_ok (ExecM.lift_eq_ok.mpr ⟨rfl, rfl⟩)]
          refine Eq.trans ?_ (written_eq ⟨table, schema⟩ ((s.storage.scan table).map fun entry =>
            .update assignments whereClause entry.1 entry.2)
            (fun count => .modified count ("UPDATE " ++ toString count)) s)
          simp only [List.map_map]
          rfl
  | delete table whereClause =>
      refine (finalState_bind_pure _ _ s).trans ?_
      simp only [MoodengSQL.delete, LogCall.start, deleteRows_eq_runRows, finalState_get_bind]
      cases s.catalog.getTable table with
      | error e => rfl
      | ok schema =>
          rw [finalState_bind_of_ok (ExecM.lift_eq_ok.mpr ⟨rfl, rfl⟩)]
          refine Eq.trans ?_ (written_eq ⟨table, schema⟩ ((s.storage.scan table).map fun entry =>
            .delete whereClause entry.1 entry.2)
            (fun count => .modified count ("DELETE " ++ toString count)) s)
          simp only [List.map_map]
          rfl
  | checkpoint => rfl

/-- **A session that is left alone logs as the executor does.** It comes to the end
of its call, with the database and the session that the call leaves. -/
theorem logged_alone {ι : Type} [DecidableEq ι] {call : LogCall} {program : List LogCall} (i : ι)
    (config : Configuration ι Database (Client LogPlace LogCall) WalEntry)
    (idle : (config.threads i).phase = none)
    (calls : (config.threads i).program = call :: program) :
    ∃ turns, let finish := run logStep config (List.replicate turns i)
      (finish.threads i).phase = none ∧
        (finish.threads i).executor finish.shared =
          finalState call.whole ((config.threads i).executor config.shared) := by
  have shrinks : ∀ (db : Database) (client : Client LogPlace LogCall), client.phase ≠ none →
      sizeOf (logStep db client).thread.phase < sizeOf client.phase := by
    intro db client running
    obtain ⟨place, running⟩ := Option.ne_none_iff_exists'.mp running
    unfold logStep
    rw [running]
    apply Client.perform_cases fun turn => sizeOf turn.thread.phase < _
    · intro next s ran
      exact place.run_shrinks ran
    · intro e s failed
      exact sizeOf_none_lt place
  have keeps : ∀ (db : Database) (client : Client LogPlace LogCall), client.phase ≠ none →
      finalState (remainingOf (logStep db client).thread.phase)
          ((logStep db client).thread.executor (logStep db client).shared) =
        finalState (remainingOf client.phase) (client.executor db) := by
    intro db client running
    obtain ⟨place, running⟩ := Option.ne_none_iff_exists'.mp running
    unfold logStep
    rw [running]
    exact (client.perform_remaining db place.run id _ remainingOf rfl).trans
      (place.run_remaining _).symm
  obtain ⟨turns, finished, same⟩ := run_alone logStep (fun client => client.phase ≠ none)
    (fun client => sizeOf client.phase)
    (fun db client => finalState (remainingOf client.phase) (client.executor db))
    shrinks keeps i (advance logStep config i)
  have ended := not_ne_iff.mp finished
  refine ⟨turns + 1, ended, ?_⟩
  rw [ended] at same
  refine same.trans ?_
  have own : (advance logStep config i).threads i =
      (logStep config.shared (config.threads i)).thread := Function.update_self _ _ _
  rw [own, call.start_remaining]
  dsimp only [advance]
  unfold logStep
  rw [idle, calls]
  let started : Client LogPlace LogCall := ⟨(config.threads i).session, none, program⟩
  exact started.perform_remaining config.shared (ExecM.lift (call.start config.shared)) some
    (fun _ => []) remainingOf rfl

end Alone

end MoodengSQL
