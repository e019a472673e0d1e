import MoodengSQL.Core.Storage

/-!
# Sessions, transactions and the state of the engine

A transaction logs its begin and its end and keeps an undo list in memory. The
engine's state is the database together with the session a statement runs in;
a statement is a computation over that state that may fail and that keeps
whatever it changed before failing. Locks do not show in a run of one session
and are left out, and so are query statistics.
-/

namespace MoodengSQL

open Std

/-- `UndoRecord`. -/
inductive UndoRecord where
  | insert (table : String) (rowId : Nat)
  | update (table : String) (rowId : Nat) (oldRow : Row)
  | delete (table : String) (rowId : Nat) (oldRow : Row)
  deriving DecidableEq, Repr

/-- `Transaction`. -/
structure Transaction where
  active : Bool
  txnId : Option Nat
  undo : List UndoRecord
  deriving DecidableEq, Repr

namespace Transaction

/-- `Transaction::default`. -/
def idle : Transaction := { active := false, txnId := none, undo := [] }

/-- `Transaction::begin`. -/
def begin (txn : Transaction) (wal : WriteAheadLog) :
    Except Failure (Transaction × WriteAheadLog) :=
  if txn.active then .error (.error (.execution "transaction already active"))
  else
    let (txnId, wal) := wal.allocTxnId
    .ok ({ active := true, txnId := some txnId, undo := [] }, wal.append (.begin txnId))

/-- `Transaction::commit`. -/
def commit (txn : Transaction) (wal : WriteAheadLog) :
    Except Failure (Transaction × WriteAheadLog) :=
  match txn.txnId with
  | none => .error (.error (.execution "no active transaction"))
  | some txnId => .ok (idle, wal.append (.commit txnId))

/-- `Transaction::rollback`: the undo records, latest first. -/
def rollback (txn : Transaction) (wal : WriteAheadLog) :
    Except Failure (List UndoRecord × Transaction × WriteAheadLog) :=
  match txn.txnId with
  | none => .error (.error (.execution "no active transaction"))
  | some txnId => .ok (txn.undo.reverse, idle, wal.append (.abort txnId))

/-- `Transaction::record`. -/
def record (txn : Transaction) (entry : UndoRecord) : Transaction :=
  if txn.active then { txn with undo := txn.undo ++ [entry] } else txn

end Transaction

/-- `Session`. `autoCommit` is set while a transaction opened for a single
statement is running. -/
structure Session where
  transaction : Transaction
  autoCommit : Bool
  deriving DecidableEq, Repr

/-- `Session::new`. -/
def Session.new : Session := { transaction := .idle, autoCommit := false }

/-- Record an undo entry inside an explicit transaction. -/
def Session.recordUndo (session : Session) (entry : UndoRecord) : Session :=
  if session.transaction.active && !session.autoCommit then
    { session with transaction := session.transaction.record entry }
  else session

/-- `DatabaseSnapshot`: the content of `meta.bin`, written with the only
version there is. -/
structure DatabaseSnapshot where
  tables : List TableSchema
  indexes : IndexManager

/-- `Database`: catalog, storage and indexes in memory, the count of open write
transactions, and `meta.bin`. -/
structure Database where
  catalog : Catalog
  storage : StorageEngine
  indexes : IndexManager
  activeWriteTxns : Nat
  metaFile : Option (FileImage DatabaseSnapshot)

/-- `Executor`: a database with the session a statement runs in. -/
structure Executor extends Database where
  session : Session

/-- Computations of the executor. A failure keeps the state it was reached in. -/
abbrev ExecM := EStateM Failure Executor

namespace ExecM

/-- A result computed without touching the state. -/
def lift {α : Type} (result : Except Failure α) : ExecM α :=
  match result with
  | .ok a => pure a
  | .error e => throw e

/-- A storage operation that changes nothing when it fails. -/
def liftStorage {α : Type} (op : StorageEngine → Except Failure (α × StorageEngine)) : ExecM α :=
  fun s => match op s.storage with
    | .ok (a, storage) => .ok a { s with storage }
    | .error e => .error e s

/-- An operation on the index manager that may fail half way. -/
def liftIndexes {α : Type} (op : IndexManager → Except Failure α × IndexManager) : ExecM α :=
  fun s => match op s.indexes with
    | (.ok a, indexes) => .ok a { s with indexes }
    | (.error e, indexes) => .error e { s with indexes }

/-- A transaction operation on the session's transaction and the log. -/
def liftTransaction {α : Type}
    (op : Transaction → WriteAheadLog → Except Failure (α × Transaction × WriteAheadLog)) :
    ExecM α :=
  fun s => match op s.session.transaction s.storage.wal with
    | .ok (a, transaction, wal) =>
        .ok a { s with
          storage := { s.storage with wal }
          session := { s.session with transaction } }
    | .error e => .error e s

/-- `IndexManager::insert_row` on the executor's indexes. -/
def insertIndexRow [Runtime] (table : String) (values : List Value) (columnNames : List String)
    (rowId : Nat) : ExecM Unit :=
  liftIndexes fun indexes => indexes.insertRow table values columnNames rowId

/-- `IndexManager::remove_row` on the executor's indexes. -/
def removeIndexRow (table : String) (values : List Value) (columnNames : List String)
    (rowId : Nat) : ExecM Unit :=
  modify fun s => { s with indexes := s.indexes.removeRow table values columnNames rowId }

end ExecM

/-- `apply_undo`. -/
def applyUndo [Runtime] : UndoRecord → ExecM Unit
  | .insert table rowId => do
      let s ← get
      match s.storage.get table rowId with
      | none => pure ()
      | some row =>
          let schema ← ExecM.lift (s.catalog.getTable table)
          ExecM.removeIndexRow table row.values schema.colNames rowId
          let _ ← ExecM.liftStorage fun storage => storage.applyDelete table rowId false 0
          pure ()
  | .update table rowId oldRow => do
      let s ← get
      let schema ← ExecM.lift (s.catalog.getTable table)
      match s.storage.get table rowId with
      | some current => ExecM.removeIndexRow table current.values schema.colNames rowId
      | none => pure ()
      let _ ← ExecM.liftStorage fun storage => storage.applyUpdate table rowId oldRow false 0
      ExecM.insertIndexRow table oldRow.values schema.colNames rowId
  | .delete table rowId oldRow => do
      let s ← get
      let schema ← ExecM.lift (s.catalog.getTable table)
      modify fun s => { s with storage := s.storage.applyInsert table rowId oldRow false 0 }
      ExecM.insertIndexRow table oldRow.values schema.colNames rowId

end MoodengSQL
