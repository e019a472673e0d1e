import MoodengSQL.Execution.Statements

/-!
# What statements can do, whatever their outcome

A relation on states that holds for the storage operations and for changes of
indexes and session holds between the state a row loop starts in and the one it
ends in, also when it fails half way.
-/

namespace MoodengSQL

open Foundation Foundation.Effect

section Rules

variable {rel : Executor → Executor → Prop} [IsPreorder Executor rel]

theorem Moves.lift {α : Type} (result : Except Failure α) : Moves rel (ExecM.lift result) := by
  cases result with
  | ok a => exact Moves.ret a
  | error e => exact Moves.fail e

theorem Moves.storage {α : Type} {op : StorageEngine → Except Failure (α × StorageEngine)}
    (moves : ∀ (s : Executor) (a : α) (storage : StorageEngine),
      op s.storage = .ok (a, storage) → rel s { s with storage }) :
    Moves rel (ExecM.liftStorage op) := by
  intro s
  cases outcome : op s.storage with
  | ok result =>
      have same : finalState (ExecM.liftStorage op) s = { s with storage := result.2 } := by
        simp only [finalState, ExecM.liftStorage, outcome]
      rw [same]
      exact moves s result.1 result.2 outcome
  | error e =>
      have same : finalState (ExecM.liftStorage op) s = s := by
        simp only [finalState, ExecM.liftStorage, outcome]
      rw [same]
      exact refl_of rel s

omit [IsPreorder Executor rel] in
theorem Moves.indexes {α : Type} {op : IndexManager → Except Failure α × IndexManager}
    (moves : ∀ s : Executor, rel s { s with indexes := (op s.indexes).2 }) :
    Moves rel (ExecM.liftIndexes op) := by
  intro s
  have same : finalState (ExecM.liftIndexes op) s = { s with indexes := (op s.indexes).2 } := by
    unfold finalState ExecM.liftIndexes
    cases op s.indexes with
    | mk outcome indexes => cases outcome <;> rfl
  rw [same]
  exact moves s

end Rules

section Loops

variable [Runtime] {rel : Executor → Executor → Prop} [IsPreorder Executor rel]
  (reindex : ∀ (s : Executor) (indexes : IndexManager), SameDefinitions s.indexes indexes →
    rel s { s with indexes })
  (record : ∀ (s : Executor) (entry : UndoRecord),
    rel s { s with session := s.session.recordUndo entry })

section Frame

omit [Runtime] [IsPreorder Executor rel]

include reindex in
theorem Moves.insertIndexRow [Runtime] (table : String) (values : List Value)
    (columnNames : List String) (rowId : Nat) :
    Moves rel (ExecM.insertIndexRow table values columnNames rowId) :=
  Moves.indexes fun s => reindex s _ (sameDefinitions_insertRow s.indexes table values
    columnNames rowId)

include reindex in
theorem Moves.removeIndexRow (table : String) (values : List Value) (columnNames : List String)
    (rowId : Nat) : Moves rel (ExecM.removeIndexRow table values columnNames rowId) :=
  Moves.write fun s =>
    reindex s _ (sameDefinitions_removeRow s.indexes table values columnNames rowId)

include record in
theorem Moves.recordUndo (entry : UndoRecord) : Moves rel (recordUndo entry) :=
  Moves.write fun s => record s entry

end Frame

include reindex record

section Rewrite

variable {txnId : Nat} (updates : ∀ (s : Executor) (table : String) (rowId : Nat) (row : Row)
    (version : Nat) (changed : Bool) (storage : StorageEngine),
    s.storage.update table rowId row txnId version = .ok (changed, storage) →
    rel s { s with storage })

include updates

theorem Moves.rewriteRow (table : String) (schema : TableSchema) (assignments : List Assignment)
    (excluded : Option (List Value)) (rowId : Nat) (row : Row) :
    Moves rel (rewriteRow table schema assignments excluded txnId rowId row) := by
  unfold MoodengSQL.rewriteRow
  refine .seq (Moves.recordUndo record _) fun _ => .seq (Moves.removeIndexRow reindex _ _ _ _) fun _ =>
    .seq (Moves.lift _) fun values => .seq (Moves.lift _) fun _ => .seq ?_ fun _ =>
    Moves.insertIndexRow reindex _ _ _ _
  exact Moves.storage fun s changed storage updated => updates s _ _ _ _ changed storage updated

theorem Moves.updateRows (table : String) (schema : TableSchema) (assignments : List Assignment)
    (whereClause : Option Expr) (rows : List (Nat × Row)) (count : Nat) :
    Moves rel (updateRows table schema assignments whereClause txnId rows count) := by
  induction rows generalizing count with
  | nil => exact Moves.ret count
  | cons entry rest ih =>
      obtain ⟨rowId, row⟩ := entry
      refine .seq (Moves.lift _) fun selected => ?_
      split
      · exact .seq (Moves.rewriteRow reindex record updates _ _ _ _ _ _) fun _ => ih _
      · exact ih _

theorem Moves.applyConflictUpdate (table : String) (schema : TableSchema) (rowId : Nat)
    (proposed : List Value) (update : DoUpdate) :
    Moves rel (applyConflictUpdate table schema rowId proposed update txnId) := by
  refine .seq Moves.read fun s => ?_
  cases s.storage.get table rowId with
  | none => exact Moves.fail _
  | some existing =>
      have rewritten : ∀ applies : Bool, Moves rel (if applies then
          MoodengSQL.rewriteRow table schema update.assignments (some proposed) txnId rowId existing
          else pure () : ExecM Unit) := by
        intro applies
        cases applies with
        | true => exact Moves.rewriteRow reindex record updates _ _ _ _ _ _
        | false => exact Moves.ret ()
      cases update.selection with
      | none => exact .seq (Moves.ret true) rewritten
      | some condition => exact .seq (Moves.lift _) rewritten

variable (inserts : ∀ (s : Executor) (table : String) (row : Row),
    rel s { s with storage := (s.storage.insert table row txnId).2 })

include inserts

omit updates in
theorem Moves.storeRow (table : String) (schema : TableSchema) (rowValues : List Value) :
    Moves rel (storeRow table schema txnId rowValues) := by
  refine .seq (Moves.storage fun s rowId storage inserted => ?_) fun rowId =>
    .seq (Moves.insertIndexRow reindex _ _ _ _) fun _ => Moves.recordUndo record _
  cases inserted
  exact inserts s table (Row.new rowValues)

theorem Moves.insertRows (table : String) (schema : TableSchema) (onConflict : Option OnConflict)
    (rows : List (List Value)) (count : Nat) :
    Moves rel (insertRows table schema onConflict txnId rows count) := by
  induction rows generalizing count with
  | nil => exact Moves.ret count
  | cons values rest ih =>
      refine .seq (Moves.lift _) fun rowValues => .seq (Moves.lift _) fun _ => ?_
      cases onConflict with
      | none => exact .seq (Moves.storeRow reindex record inserts _ _ _) fun _ => ih _
      | some conflict =>
          refine .seq Moves.read fun s => .seq (Moves.lift _) fun existing => ?_
          cases existing with
          | none => exact .seq (Moves.storeRow reindex record inserts _ _ _) fun _ => ih _
          | some existingId =>
              dsimp only
              cases conflict.action with
              | doNothing => exact ih _
              | doUpdate update =>
                  exact .seq (Moves.applyConflictUpdate reindex record updates _ _ _ _ _) fun _ => ih _

end Rewrite

section Delete

variable {txnId : Nat} (deletes : ∀ (s : Executor) (table : String) (rowId : Nat)
    (deleted : Bool) (storage : StorageEngine),
    s.storage.delete table rowId txnId = .ok (deleted, storage) → rel s { s with storage })

include deletes

theorem Moves.removeRow (table : String) (schema : TableSchema) (rowId : Nat) (row : Row) :
    Moves rel (removeRow table schema txnId rowId row) := by
  refine .seq (Moves.recordUndo record _) fun _ => .seq (Moves.removeIndexRow reindex _ _ _ _) fun _ =>
    .seq ?_ fun _ => Moves.ret ()
  exact Moves.storage fun s deleted storage ran => deletes s _ _ deleted storage ran

theorem Moves.deleteRows (table : String) (schema : TableSchema) (whereClause : Option Expr)
    (rows : List (Nat × Row)) (count : Nat) :
    Moves rel (deleteRows table schema whereClause txnId rows count) := by
  induction rows generalizing count with
  | nil => exact Moves.ret count
  | cons entry rest ih =>
      obtain ⟨rowId, row⟩ := entry
      refine .seq (Moves.lift _) fun selected => ?_
      split
      · exact .seq (Moves.removeRow reindex record deletes _ _ _ _) fun _ => ih _
      · exact ih _

end Delete

section Undo

omit record

variable (undoInsert : ∀ (s : Executor) (table : String) (rowId : Nat) (row : Row),
    rel s { s with storage := s.storage.applyInsert table rowId row false 0 })
  (undoUpdate : ∀ (s : Executor) (table : String) (rowId : Nat) (row : Row) (changed : Bool)
    (storage : StorageEngine),
    s.storage.applyUpdate table rowId row false 0 = .ok (changed, storage) → rel s { s with storage })
  (undoDelete : ∀ (s : Executor) (table : String) (rowId : Nat) (deleted : Bool)
    (storage : StorageEngine),
    s.storage.applyDelete table rowId false 0 = .ok (deleted, storage) → rel s { s with storage })

include undoInsert undoUpdate undoDelete

theorem Moves.applyUndo (undone : UndoRecord) : Moves rel (MoodengSQL.applyUndo undone) := by
  have deleted : ∀ table rowId, Moves rel
      (ExecM.liftStorage fun storage => storage.applyDelete table rowId false 0) := fun _ _ =>
    Moves.storage fun s changed storage ran => undoDelete s _ _ changed storage ran
  have updated : ∀ table rowId row, Moves rel
      (ExecM.liftStorage fun storage => storage.applyUpdate table rowId row false 0) := fun _ _ _ =>
    Moves.storage fun s changed storage ran => undoUpdate s _ _ _ changed storage ran
  cases undone with
  | insert table rowId =>
      refine .seq Moves.read fun s => ?_
      cases s.storage.get table rowId with
      | none => exact Moves.ret _
      | some row =>
          exact .seq (Moves.lift _) fun _ => .seq (Moves.removeIndexRow reindex _ _ _ _) fun _ =>
            .seq (deleted _ _) fun _ => Moves.ret _
  | update table rowId oldRow =>
      refine .seq Moves.read fun s => .seq (Moves.lift _) fun schema => ?_
      cases s.storage.get table rowId with
      | some current =>
          exact .seq (Moves.removeIndexRow reindex _ _ _ _) fun _ => .seq (updated _ _ _) fun _ =>
            Moves.insertIndexRow reindex _ _ _ _
      | none =>
          exact .seq (updated _ _ _) fun _ => Moves.insertIndexRow reindex _ _ _ _
  | delete table rowId oldRow =>
      exact .seq Moves.read fun _ => .seq (Moves.lift _) fun _ =>
        .seq (Moves.write fun s => undoInsert s _ _ _) fun _ =>
          Moves.insertIndexRow reindex _ _ _ _

theorem Moves.undoAll (records : List UndoRecord) : Moves rel (MoodengSQL.undoAll records) := by
  induction records with
  | nil => exact Moves.ret _
  | cons undone rest ih =>
      exact .seq (Moves.applyUndo reindex undoInsert undoUpdate undoDelete undone) fun _ => ih

end Undo

end Loops

section Schema

variable {rel : Executor → Executor → Prop} [IsPreorder Executor rel]
  (schema : ∀ (s : Executor) (catalog : Catalog) (storage : StorageEngine)
    (indexes : IndexManager), storage.wal = s.storage.wal → rel s { s with catalog, storage, indexes })

include schema

theorem Moves.createTable [Runtime] (name : ObjectName) (columns : List SqlColumnDef)
    (constraints : List TableConstraint) :
    Moves rel (MoodengSQL.createTable name columns constraints) := by
  refine .seq (Moves.lift _) fun colDefs => .seq Moves.read fun _ => .seq (Moves.lift _)
    fun catalog => .seq (Moves.write fun s => schema s catalog _ s.indexes rfl) fun _ =>
    .seq ?_ fun _ => Moves.ret _
  unfold createPrimaryKeyIndex
  dsimp only
  split
  · exact Moves.ret _
  · exact .seq Moves.read fun _ => .seq (Moves.lift _) fun indexes =>
      .seq (Moves.write fun s => schema s s.catalog s.storage indexes rfl) fun _ =>
      .seq (Moves.lift _) fun catalog => Moves.write fun s => schema s catalog s.storage s.indexes rfl

theorem Moves.dropTable (table : String) : Moves rel (MoodengSQL.dropTable table) :=
  .seq Moves.read fun _ => .seq (Moves.lift _) fun catalog =>
    .seq (Moves.write fun s => schema s catalog _ _ rfl) fun _ => Moves.ret _

theorem Moves.createIndex (table indexName : String) (columns : List String) (unique : Bool) :
    Moves rel (MoodengSQL.createIndex table indexName columns unique) := by
  refine .seq Moves.read fun s => .seq (Moves.lift _) fun found => ?_
  cases columns.find? fun column => (Catalog.columnIndex found column).isNone with
  | some column => exact Moves.fail _
  | none =>
      exact .seq (Moves.lift _) fun _ => .seq (Moves.lift _) fun indexes =>
        .seq (Moves.write fun s => schema s s.catalog s.storage indexes rfl) fun _ =>
        .seq (Moves.lift _) fun catalog =>
        .seq (Moves.write fun s => schema s catalog s.storage s.indexes rfl) fun _ => Moves.ret _

end Schema

section Session

/-- A relation on states that holds over every change a session makes: of the
rows, the keys, the session itself, and the log. The operations are those of the
transaction the session is in. -/
structure SessionRules [Runtime] (rel : Executor → Executor → Prop) : Prop where
  reindex : ∀ (s : Executor) (indexes : IndexManager), SameDefinitions s.indexes indexes →
    rel s { s with indexes }
  bookkeeping : ∀ (s : Executor) (session : Session) (activeWriteTxns : Nat),
    session.transaction.txnId = s.session.transaction.txnId →
    rel s { s with session, activeWriteTxns }
  begins : ∀ (s : Executor) (transaction : Transaction),
    transaction.txnId = some s.storage.wal.nextTxnId →
    rel s { s with
      storage := { s.storage with
        wal := s.storage.wal.allocTxnId.2.append (.begin s.storage.wal.nextTxnId) }
      session := { s.session with transaction } }
  finishes : ∀ (s : Executor) (txnId : Nat) (op : WalOp) (transaction : Transaction),
    s.session.transaction.txnId = some txnId → op = .commit txnId ∨ op = .abort txnId →
    transaction.txnId = none →
    rel s { s with
      storage := { s.storage with wal := s.storage.wal.append op }
      session := { s.session with transaction } }
  inserts : ∀ (s : Executor) (table : String) (row : Row) (txnId : Nat),
    s.session.transaction.txnId = some txnId →
    rel s { s with storage := (s.storage.insert table row txnId).2 }
  updates : ∀ (s : Executor) (table : String) (rowId : Nat) (row : Row) (txnId version : Nat)
    (changed : Bool) (storage : StorageEngine), s.session.transaction.txnId = some txnId →
    s.storage.update table rowId row txnId version = .ok (changed, storage) →
    rel s { s with storage }
  deletes : ∀ (s : Executor) (table : String) (rowId txnId : Nat) (deleted : Bool)
    (storage : StorageEngine), s.session.transaction.txnId = some txnId →
    s.storage.delete table rowId txnId = .ok (deleted, storage) →
    rel s { s with storage }
  undoInsert : ∀ (s : Executor) (table : String) (rowId : Nat) (row : Row),
    rel s { s with storage := s.storage.applyInsert table rowId row false 0 }
  undoUpdate : ∀ (s : Executor) (table : String) (rowId : Nat) (row : Row) (changed : Bool)
    (storage : StorageEngine),
    s.storage.applyUpdate table rowId row false 0 = .ok (changed, storage) → rel s { s with storage }
  undoDelete : ∀ (s : Executor) (table : String) (rowId : Nat) (deleted : Bool)
    (storage : StorageEngine),
    s.storage.applyDelete table rowId false 0 = .ok (deleted, storage) → rel s { s with storage }

/-- The relation holds, and the session stays in the transaction, if it is in it. -/
def WithinTransaction (rel : Executor → Executor → Prop) (txnId : Nat) (s s' : Executor) : Prop :=
  s.session.transaction.txnId = some txnId →
    rel s s' ∧ s'.session.transaction.txnId = some txnId

instance (rel : Executor → Executor → Prop) [IsPreorder Executor rel] (txnId : Nat) :
    IsPreorder Executor (WithinTransaction rel txnId) where
  refl s own := ⟨refl_of rel s, own⟩
  trans _ _ _ first second own :=
    have ⟨before, inside⟩ := first own
    have ⟨after, still⟩ := second inside
    ⟨trans_of rel before after, still⟩

variable [Runtime] {rel : Executor → Executor → Prop} [IsPreorder Executor rel]

namespace SessionRules

variable (rules : SessionRules rel)

include rules

section Loops

omit [IsPreorder Executor rel]

variable (txnId : Nat)

theorem reindexWithin (s : Executor) (indexes : IndexManager)
    (same : SameDefinitions s.indexes indexes) :
    WithinTransaction rel txnId s { s with indexes } :=
  fun own => ⟨rules.reindex s indexes same, own⟩

theorem recordWithin (s : Executor) (entry : UndoRecord) :
    WithinTransaction rel txnId s { s with session := s.session.recordUndo entry } := by
  have same := (Session.recordUndo_txnId s.session entry).1
  exact fun own => ⟨rules.bookkeeping s _ s.activeWriteTxns same, same.trans own⟩

theorem insertWithin (s : Executor) (table : String) (row : Row) :
    WithinTransaction rel txnId s { s with storage := (s.storage.insert table row txnId).2 } :=
  fun own => ⟨rules.inserts s table row txnId own, own⟩

theorem updateWithin (s : Executor) (table : String) (rowId : Nat) (row : Row) (version : Nat)
    (changed : Bool) (storage : StorageEngine)
    (ran : s.storage.update table rowId row txnId version = .ok (changed, storage)) :
    WithinTransaction rel txnId s { s with storage } :=
  fun own => ⟨rules.updates s table rowId row txnId version changed storage own ran, own⟩

theorem deleteWithin (s : Executor) (table : String) (rowId : Nat) (deleted : Bool)
    (storage : StorageEngine)
    (ran : s.storage.delete table rowId txnId = .ok (deleted, storage)) :
    WithinTransaction rel txnId s { s with storage } :=
  fun own => ⟨rules.deletes s table rowId txnId deleted storage own ran, own⟩

end Loops

omit [IsPreorder Executor rel] in
theorem setSession (session : Executor → Session) (activeWriteTxns : Executor → Nat)
    (same : ∀ s, (session s).transaction.txnId = s.session.transaction.txnId) :
    Moves rel (modify fun s => { s with
      session := session s, activeWriteTxns := activeWriteTxns s } : ExecM PUnit) :=
  Moves.write fun s => rules.bookkeeping s (session s) (activeWriteTxns s) (same s)

theorem transaction {α : Type}
    {op : Transaction → WriteAheadLog → Except Failure (α × Transaction × WriteAheadLog)}
    (logs : ∀ txn wal a txn' wal', op txn wal = .ok (a, txn', wal') →
      (wal' = wal.allocTxnId.2.append (.begin wal.nextTxnId) ∧
          txn'.txnId = some wal.nextTxnId) ∨
        ∃ txnId record, txn.txnId = some txnId ∧
          (record = .commit txnId ∨ record = .abort txnId) ∧ wal' = wal.append record ∧
          txn'.txnId = none) :
    Moves rel (ExecM.liftTransaction op) := by
  intro s
  cases outcome : op s.session.transaction s.storage.wal with
  | error e =>
      have same : finalState (ExecM.liftTransaction op) s = s := by
        simp only [finalState, ExecM.liftTransaction, outcome]
      rw [same]
      exact refl_of rel s
  | ok result =>
      obtain ⟨a, txn, wal⟩ := result
      have same : finalState (ExecM.liftTransaction op) s = { s with
          storage := { s.storage with wal }
          session := { s.session with transaction := txn } } := by
        simp only [finalState, ExecM.liftTransaction, outcome]
      rw [same]
      rcases logs _ _ _ _ _ outcome with ⟨rfl, begun⟩ | ⟨txnId, record, own, kind, rfl, ended⟩
      · exact rules.begins s txn begun
      · exact rules.finishes s txnId record txn own kind ended

theorem liftBegin : Moves rel
    (ExecM.liftTransaction fun txn wal => (txn.begin wal).map fun r => ((), r)) := by
  refine rules.transaction fun txn wal a txn' wal' ran => .inl ?_
  unfold Transaction.begin at ran
  split at ran
  · cases ran
  · cases ran
    exact ⟨rfl, rfl⟩

theorem liftCommit : Moves rel
    (ExecM.liftTransaction fun txn wal => (txn.commit wal).map fun r => ((), r)) := by
  refine rules.transaction fun txn wal a txn' wal' ran => .inr ?_
  unfold Transaction.commit at ran
  cases running : txn.txnId with
  | none =>
      rw [running] at ran
      cases ran
  | some txnId =>
      rw [running] at ran
      cases ran
      exact ⟨txnId, .commit txnId, rfl, .inl rfl, rfl, rfl⟩

theorem liftRollback : Moves rel (ExecM.liftTransaction Transaction.rollback) := by
  refine rules.transaction fun txn wal a txn' wal' ran => .inr ?_
  unfold Transaction.rollback at ran
  cases running : txn.txnId with
  | none =>
      rw [running] at ran
      cases ran
  | some txnId =>
      rw [running] at ran
      cases ran
      exact ⟨txnId, .abort txnId, rfl, .inr rfl, rfl, rfl⟩

theorem beginStatement : Moves rel begin := by
  refine .seq Moves.read fun s => ?_
  have rest : Moves rel (do
      modify fun s => { s with session := { s.session with autoCommit := false } }
      ExecM.liftTransaction fun txn wal => (txn.begin wal).map fun r => ((), r)
      modify fun s => { s with activeWriteTxns := s.activeWriteTxns + 1 }
      return QueryResult.modified 0 "BEGIN" : ExecM QueryResult) :=
    .seq (rules.setSession _ _ fun _ => rfl) fun _ => .seq rules.liftBegin fun _ =>
      .seq (rules.setSession _ _ fun _ => rfl) fun _ => Moves.ret _
  dsimp only
  split
  · exact .seq (Moves.fail _) fun _ => rest
  · exact rest

theorem commitStatement : Moves rel commit := by
  refine .seq Moves.read fun s => ?_
  have rest : Moves rel (do
      modify fun s => { s with session := { s.session with autoCommit := false } }
      ExecM.liftTransaction fun txn wal => (txn.commit wal).map fun r => ((), r)
      modify fun s => { s with activeWriteTxns := s.activeWriteTxns - 1 }
      return QueryResult.modified 0 "COMMIT" : ExecM QueryResult) :=
    .seq (rules.setSession _ _ fun _ => rfl) fun _ => .seq rules.liftCommit fun _ =>
      .seq (rules.setSession _ _ fun _ => rfl) fun _ => Moves.ret _
  dsimp only
  split
  · exact .seq (Moves.fail _) fun _ => rest
  · exact rest

theorem undoes (records : List UndoRecord) : Moves rel (undoAll records) :=
  Moves.undoAll rules.reindex rules.undoInsert rules.undoUpdate rules.undoDelete records

theorem rollbackStatement : Moves rel rollback := by
  refine .seq Moves.read fun s => ?_
  have rest : Moves rel (do
      modify fun s => { s with session := { s.session with autoCommit := false } }
      let records ← ExecM.liftTransaction Transaction.rollback
      undoAll records
      modify fun s => { s with activeWriteTxns := s.activeWriteTxns - 1 }
      return QueryResult.modified 0 "ROLLBACK" : ExecM QueryResult) :=
    .seq (rules.setSession _ _ fun _ => rfl) fun _ => .seq rules.liftRollback fun _ =>
      .seq (rules.undoes _) fun _ => .seq (rules.setSession _ _ fun _ => rfl) fun _ => Moves.ret _
  dsimp only
  split
  · exact .seq (Moves.fail _) fun _ => rest
  · exact rest

theorem entersTransaction : Moves rel beginWriteTxn := by
  refine .seq Moves.read fun s => ?_
  cases s.session.transaction.txnId with
  | some txnId => exact Moves.ret _
  | none =>
      exact .seq rules.liftBegin fun _ => .seq (rules.setSession _ _ fun _ => rfl) fun _ =>
        Moves.ret _

theorem leavesTransaction : Moves rel finishAutoCommitIfNeeded := by
  refine .seq Moves.read fun s => ?_
  dsimp only
  split
  · exact .seq rules.liftCommit fun _ => rules.setSession _ _ fun _ => rfl
  · exact Moves.ret _

/-- A write statement that comes to its row loop. -/
theorem writeStatement {loop : Nat → ExecM Nat} {result : Nat → QueryResult}
    (moves : ∀ txnId, Moves (WithinTransaction rel txnId) (loop txnId)) :
    Moves rel (do
      let txnId ← beginWriteTxn
      let count ← loop txnId
      finishAutoCommitIfNeeded
      return result count : ExecM QueryResult) := by
  -- from the transaction the statement has come to be in
  have inside : ∀ txnId s, s.session.transaction.txnId = some txnId → rel s (finalState (do
      let count ← loop txnId
      finishAutoCommitIfNeeded
      return result count : ExecM QueryResult) s) := by
    intro txnId s own
    have looped := (moves txnId s own).1
    cases ran : loop txnId s with
    | error e s' =>
        rw [finalState_bind_of_error ran]
        rwa [finalState_of_error ran] at looped
    | ok count s' =>
        rw [finalState_bind_of_ok ran]
        rw [finalState_of_ok ran] at looped
        exact trans_of rel looped (Moves.seq rules.leavesTransaction (fun _ => Moves.ret _) s')
  intro s
  have entered := rules.entersTransaction s
  cases ran : beginWriteTxn s with
  | error e s' =>
      rw [finalState_bind_of_error ran]
      rwa [finalState_of_error ran] at entered
  | ok txnId s' =>
      rw [finalState_bind_of_ok ran]
      rw [finalState_of_ok ran] at entered
      refine trans_of rel entered (inside txnId s' ?_)
      cases beginWriteTxn_ok ran with
      | explicit own => exact own
      | automatic => rfl

theorem insertStatement (stmt : Insert) : Moves rel (insert stmt) := by
  unfold insert
  cases stmt.source with
  | none => exact Moves.fail _
  | some source =>
      exact .seq Moves.read fun _ => .seq (Moves.lift _) fun _ => .seq (Moves.lift _) fun _ =>
        .seq (Moves.lift _) fun _ => rules.writeStatement fun txnId =>
          Moves.insertRows (rules.reindexWithin txnId) (rules.recordWithin txnId)
            (rules.updateWithin txnId) (rules.insertWithin txnId) _ _ _ _ _

theorem updateStatement (table : String) (assignments : List Assignment)
    (whereClause : Option Expr) : Moves rel (update table assignments whereClause) :=
  .seq Moves.read fun _ => .seq (Moves.lift _) fun _ => rules.writeStatement fun txnId =>
    Moves.updateRows (rules.reindexWithin txnId) (rules.recordWithin txnId)
      (rules.updateWithin txnId) _ _ _ _ _ _

theorem deleteStatement (table : String) (whereClause : Option Expr) :
    Moves rel (delete table whereClause) :=
  .seq Moves.read fun _ => .seq (Moves.lift _) fun _ => rules.writeStatement fun txnId =>
    Moves.deleteRows (rules.reindexWithin txnId) (rules.recordWithin txnId)
      (rules.deleteWithin txnId) _ _ _ _ _

/-- The relation holds over every statement that is not DDL. -/
theorem notDdl {stmt : Statement} (notDdl : stmt.isDdl = false) :
    Moves rel (executeStatement stmt) := by
  cases stmt with
  | startTransaction => exact rules.beginStatement
  | commit => exact rules.commitStatement
  | rollback => exact rules.rollbackStatement
  | createTable name columns constraints => cases notDdl
  | drop objectType names => cases notDdl
  | insert stmt => exact rules.insertStatement stmt
  | query query => exact .seq Moves.read fun _ => Moves.lift _
  | update table assignments selection => exact rules.updateStatement _ _ _
  | delete relations selection => exact rules.deleteStatement _ _
  | createIndex name tableName columns unique => cases notDdl
  | explain statement => exact .seq Moves.read fun _ => Moves.lift _
  | other display => exact Moves.fail _

/-- The relation holds over every statement, once it does over DDL. -/
theorem statement
    (createsTable : ∀ name columns constraints, Moves rel (createTable name columns constraints))
    (dropsTable : ∀ table, Moves rel (dropTable table))
    (createsIndex : ∀ table indexName columns unique,
      Moves rel (createIndex table indexName columns unique)) (stmt : Statement) :
    Moves rel (executeStatement stmt) := by
  cases stmt with
  | createTable name columns constraints => exact createsTable name columns constraints
  | drop objectType names =>
      cases objectType with
      | table =>
          cases names with
          | nil => exact Moves.fail _
          | cons name rest => exact dropsTable _
      | other display => exact Moves.fail _
  | createIndex name tableName columns unique => exact createsIndex _ _ _ _
  | _ => exact rules.notDdl rfl

end SessionRules

/-- **A relation that holds over every statement and over saving the catalog
holds over every call**, whatever its outcome. -/
theorem Moves.executeSession (statement : ∀ stmt, Moves rel (executeStatement stmt))
    (saves : Moves rel persist) (stmts : List Statement) :
    Moves rel (MoodengSQL.executeSession stmts) := by
  have all : ∀ (stmts : List Statement) (last : QueryResult),
      Moves rel (executeAll stmts last) := by
    intro stmts
    induction stmts with
    | nil => exact fun last => Moves.ret _
    | cons stmt rest ih => exact fun last => .seq (statement stmt) fun result => ih result
  have executed : Moves rel (execute stmts) := by
    unfold execute
    split
    · exact Moves.ret _
    · exact all stmts _
  refine .seq executed fun result => ?_
  dsimp only
  split
  · exact .seq saves fun _ => Moves.ret _
  · exact Moves.ret _

end Session

end MoodengSQL
