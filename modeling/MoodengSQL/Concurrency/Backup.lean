import MoodengSQL.Concurrency.Clients
import MoodengSQL.Execution.Conformity
import MoodengSQL.Execution.Failure
import MoodengSQL.Execution.StandAlone

/-!
# A live backup among other sessions

Sessions run statements while one `backup_live` runs. A write statement checks
its input and scans, and then holds `backup_lock` shared; `BEGIN`, `COMMIT` and
`ROLLBACK` take no lock and only move the counter of write transactions. The
backup waits for the counter, takes the lock exclusively, and waits for the
counter again before it saves the tables.
-/

namespace MoodengSQL

open Foundation Foundation.Effect Interleaving

section Parts

/-- `track_write_txn_start`. -/
def trackWriteTxnStart : ExecM PUnit :=
  modify fun s => { s with activeWriteTxns := s.activeWriteTxns + 1 }

/-- `track_write_txn_end`. -/
def trackWriteTxnEnd : ExecM PUnit :=
  modify fun s => { s with activeWriteTxns := s.activeWriteTxns - 1 }

/-- `Executor::begin` up to the counter. -/
def logBegin : ExecM PUnit := do
  let s ← get
  if s.session.transaction.active then
    throw (.error (.execution "transaction already active"))
  modify fun s => { s with session := { s.session with autoCommit := false } }
  ExecM.liftTransaction fun txn wal => (txn.begin wal).map fun r => (⟨⟩, r)

/-- `Executor::commit` up to the counter: the transaction it commits. -/
def logCommit : ExecM (Option Nat) := do
  let s ← get
  if !s.session.transaction.active then
    throw (.error (.execution "no active transaction"))
  modify fun s => { s with session := { s.session with autoCommit := false } }
  ExecM.liftTransaction fun txn wal => (txn.commit wal).map fun r => (txn.txnId, r)

/-- `Executor::rollback` up to its undo: the transaction it ends, and what is to
be undone. -/
def logAbort : ExecM (Option Nat × List UndoRecord) := do
  let s ← get
  if !s.session.transaction.active then
    throw (.error (.execution "no active transaction"))
  modify fun s => { s with session := { s.session with autoCommit := false } }
  ExecM.liftTransaction fun txn wal =>
    (txn.rollback wal).map fun (records, r) => ((txn.txnId, records), r)

/-- `begin_write_txn` up to the counter: the transaction, and whether it is one
of the statement's own. -/
def openWriteTxn : ExecM (Nat × Bool) := do
  let s ← get
  match s.session.transaction.txnId with
  | some txnId => return (txnId, false)
  | none =>
      let txnId := s.storage.wal.nextTxnId
      ExecM.liftTransaction fun txn wal => (txn.begin wal).map fun r => ((), r)
      return (txnId, true)

/-- The end of `begin_write_txn` for a transaction of the statement's own. -/
def trackOwnTxn : ExecM PUnit :=
  modify fun s =>
    { s with
      session := { s.session with autoCommit := true }
      activeWriteTxns := s.activeWriteTxns + 1 }

/-- `finish_auto_commit_if_needed` up to the counter: whether the transaction was
the statement's own. -/
def closeWriteTxn : ExecM Bool := do
  let s ← get
  if s.session.autoCommit then
    ExecM.liftTransaction fun txn wal => (txn.commit wal).map fun r => ((), r)
    return true
  else return false

/-- The end of `finish_auto_commit_if_needed` for a transaction of the statement's
own. -/
def untrackOwnTxn : ExecM PUnit :=
  modify fun s =>
    { s with
      session := { s.session with autoCommit := false }
      activeWriteTxns := s.activeWriteTxns - 1 }

theorem begin_eq : begin = (do
    logBegin
    trackWriteTxnStart
    return QueryResult.modified 0 "BEGIN") := by
  funext s
  obtain ⟨db, ⟨active, txnId, undo⟩, autoCommit⟩ := s
  cases active <;> rfl

theorem commit_eq : commit = (do
    let _ ← logCommit
    trackWriteTxnEnd
    return QueryResult.modified 0 "COMMIT") := by
  funext s
  obtain ⟨db, ⟨active, txnId, undo⟩, autoCommit⟩ := s
  cases active <;> cases txnId <;> rfl

theorem rollback_eq [Runtime] : rollback = (do
    let (_, records) ← logAbort
    undoAll records
    trackWriteTxnEnd
    return QueryResult.modified 0 "ROLLBACK") := by
  funext s
  obtain ⟨db, ⟨active, txnId, undo⟩, autoCommit⟩ := s
  cases active <;> cases txnId <;> rfl

theorem beginWriteTxn_eq : beginWriteTxn = (do
    let (txnId, own) ← openWriteTxn
    if own then trackOwnTxn
    return txnId) := by
  funext s
  obtain ⟨db, ⟨active, txnId, undo⟩, autoCommit⟩ := s
  cases active <;> cases txnId <;> rfl

theorem finishAutoCommitIfNeeded_eq : finishAutoCommitIfNeeded = (do
    if ← closeWriteTxn then untrackOwnTxn) := by
  funext s
  obtain ⟨db, ⟨active, txnId, undo⟩, autoCommit⟩ := s
  cases autoCommit <;> cases txnId <;> rfl

end Parts

section Statements

/-- A step of a statement that leaves the session, and the counter, alone. -/
structure SessionKept (s s' : Executor) : Prop where
  session : s'.session = s.session
  counter : s'.activeWriteTxns = s.activeWriteTxns

instance : IsPreorder Executor SessionKept where
  refl _ := ⟨rfl, rfl⟩
  trans _ _ _ first second :=
    ⟨second.session.trans first.session, second.counter.trans first.counter⟩

/-- A step of a statement that stays in its transaction. -/
structure TxnKept (s s' : Executor) : Prop extends SameTransaction s s' where
  counter : s'.activeWriteTxns = s.activeWriteTxns

instance : IsPreorder Executor TxnKept where
  refl s := ⟨refl_of SameTransaction s, rfl⟩
  trans _ _ _ first second :=
    ⟨trans_of SameTransaction first.toSameTransaction second.toSameTransaction,
      second.counter.trans first.counter⟩

/-- What a write statement does to one of its rows: it counts the row or not, and
stays in its transaction. -/
structure RowBody where
  run : Nat → ExecM Nat
  keeps : ∀ count, Moves TxnKept (run count)

/-- The rows a write statement has to work on, for the transaction it comes to be in. -/
abbrev RowLoop := Nat → List RowBody

/-- A row loop, row by row. -/
def runRows : List RowBody → Nat → ExecM Nat
  | [], count => pure count
  | body :: rest, count => do
      let count ← body.run count
      runRows rest count

theorem txnKept_record (s : Executor) (entry : UndoRecord) :
    TxnKept s { s with session := s.session.recordUndo entry } :=
  ⟨sameTransaction_record s entry, rfl⟩

variable [Runtime]

/-- Every row loop stays in its transaction. -/
theorem txnKept_insertRows (table : String) (schema : TableSchema)
    (onConflict : Option OnConflict) (txnId : Nat) (rows : List (List Value)) (count : Nat) :
    Moves TxnKept (insertRows table schema onConflict txnId rows count) :=
  Moves.insertRows (fun _ _ _ => ⟨⟨rfl, rfl, rfl⟩, rfl⟩) txnKept_record
    (fun _ _ _ _ _ _ _ _ => ⟨⟨rfl, rfl, rfl⟩, rfl⟩) (fun _ _ _ => ⟨⟨rfl, rfl, rfl⟩, rfl⟩)
    _ _ _ _ _

theorem txnKept_updateRows (table : String) (schema : TableSchema)
    (assignments : List Assignment) (whereClause : Option Expr) (txnId : Nat)
    (rows : List (Nat × Row)) (count : Nat) :
    Moves TxnKept (updateRows table schema assignments whereClause txnId rows count) :=
  Moves.updateRows (fun _ _ _ => ⟨⟨rfl, rfl, rfl⟩, rfl⟩) txnKept_record
    (fun _ _ _ _ _ _ _ _ => ⟨⟨rfl, rfl, rfl⟩, rfl⟩) _ _ _ _ _ _

theorem txnKept_deleteRows (table : String) (schema : TableSchema) (whereClause : Option Expr)
    (txnId : Nat) (rows : List (Nat × Row)) (count : Nat) :
    Moves TxnKept (deleteRows table schema whereClause txnId rows count) :=
  Moves.deleteRows (fun _ _ _ => ⟨⟨rfl, rfl, rfl⟩, rfl⟩) txnKept_record
    (fun _ _ _ _ _ _ => ⟨⟨rfl, rfl, rfl⟩, rfl⟩) _ _ _ _ _

/-- The body of `INSERT` on a row. -/
def insertBody (table : String) (schema : TableSchema) (onConflict : Option OnConflict)
    (txnId : Nat) (values : List Value) : RowBody where
  run := insertRows table schema onConflict txnId [values]
  keeps := txnKept_insertRows table schema onConflict txnId [values]

/-- The body of `UPDATE` on a row. -/
def updateBody (table : String) (schema : TableSchema) (assignments : List Assignment)
    (whereClause : Option Expr) (txnId : Nat) (entry : Nat × Row) : RowBody where
  run := updateRows table schema assignments whereClause txnId [entry]
  keeps := txnKept_updateRows table schema assignments whereClause txnId [entry]

/-- The body of `DELETE` on a row. -/
def deleteBody (table : String) (schema : TableSchema) (whereClause : Option Expr)
    (txnId : Nat) (entry : Nat × Row) : RowBody where
  run := deleteRows table schema whereClause txnId [entry]
  keeps := txnKept_deleteRows table schema whereClause txnId [entry]

/-- What a write statement does before it takes `backup_lock`: its checks, and the
scan of `UPDATE` and `DELETE`. -/
def Statement.rowLoop (db : Database) : Statement → Option (Except Failure RowLoop)
  | .insert stmt => some do
      match stmt.source with
      | none => throw (.error (.parse "missing INSERT source"))
      | some source =>
          let table := extractTableName stmt.tableName
          let schema ← db.catalog.getTable table
          let rows ← valuesFromInsert source
          let onConflict ← conflictClause stmt.on
          return fun txnId => rows.map (insertBody table schema onConflict txnId)
  | .update table assignments selection => some do
      let schema ← db.catalog.getTable table.relation.name
      return fun txnId => (db.storage.scan table.relation.name).map
        (updateBody table.relation.name schema assignments selection txnId)
  | .delete relations selection => some do
      let table := (relations.head?.map fun item => item.relation.name).getD ""
      let schema ← db.catalog.getTable table
      return fun txnId => (db.storage.scan table).map (deleteBody table schema selection txnId)
  | _ => none

/-- What a write statement reports. -/
def Statement.written (count : Nat) : Statement → QueryResult
  | .insert _ => .modified count ("INSERT 0 " ++ toString count)
  | .update _ _ _ => .modified count ("UPDATE " ++ toString count)
  | _ => .modified count ("DELETE " ++ toString count)

theorem insertRows_eq_runRows (table : String) (schema : TableSchema)
    (onConflict : Option OnConflict) (txnId : Nat) (rows : List (List Value)) (count : Nat) :
    insertRows table schema onConflict txnId rows count =
      runRows (rows.map (insertBody table schema onConflict txnId)) count := by
  induction rows generalizing count with
  | nil => rfl
  | cons values rest ih =>
      simp only [List.map_cons, runRows, ← ih, insertBody]
      simp only [insertRows, bind_assoc]
      congr 1
      funext rowValues
      congr 1
      funext _
      cases onConflict with
      | none => simp only [bind_assoc, pure_bind]
      | some conflict =>
          simp only [bind_assoc]
          congr 1
          funext s
          congr 1
          funext existing
          cases existing with
          | none => simp only [bind_assoc, pure_bind]
          | some existingId =>
              cases conflict.action <;> simp only [bind_assoc, pure_bind]

theorem updateRows_eq_runRows (table : String) (schema : TableSchema)
    (assignments : List Assignment) (whereClause : Option Expr) (txnId : Nat)
    (rows : List (Nat × Row)) (count : Nat) :
    updateRows table schema assignments whereClause txnId rows count =
      runRows (rows.map (updateBody table schema assignments whereClause txnId)) count := by
  induction rows generalizing count with
  | nil => rfl
  | cons entry rest ih =>
      obtain ⟨rowId, row⟩ := entry
      simp only [List.map_cons, runRows, ← ih, updateBody]
      simp only [updateRows, bind_assoc]
      congr 1
      funext selected
      cases selected <;> simp

theorem deleteRows_eq_runRows (table : String) (schema : TableSchema)
    (whereClause : Option Expr) (txnId : Nat) (rows : List (Nat × Row)) (count : Nat) :
    deleteRows table schema whereClause txnId rows count =
      runRows (rows.map (deleteBody table schema whereClause txnId)) count := by
  induction rows generalizing count with
  | nil => rfl
  | cons entry rest ih =>
      obtain ⟨rowId, row⟩ := entry
      simp only [List.map_cons, runRows, ← ih, deleteBody]
      simp only [deleteRows, bind_assoc]
      congr 1
      funext selected
      cases selected <;> simp

/-- A write statement prepares its row loop, enters its transaction, works on the
rows, and commits the transaction if it is its own. -/
theorem executeStatement_eq (stmt : Statement) {s : Executor} {loop : Except Failure RowLoop}
    (writes : stmt.rowLoop s.toDatabase = some loop) :
    executeStatement stmt s = (do
      let loop ← ExecM.lift loop
      let txnId ← beginWriteTxn
      let count ← runRows (loop txnId) 0
      finishAutoCommitIfNeeded
      return stmt.written count : ExecM QueryResult) s := by
  cases stmt with
  | insert stmt =>
      cases writes
      simp only [executeStatement, insert, Statement.written]
      cases stmt.source with
      | none => rfl
      | some source =>
          simp only [insertRows_eq_runRows, get_bind]
          cases s.catalog.getTable (extractTableName stmt.tableName) with
          | error e => rfl
          | ok schema =>
              cases valuesFromInsert source with
              | error e => rfl
              | ok rows =>
                  cases conflictClause stmt.on <;> rfl
  | update table assignments selection =>
      cases writes
      simp only [executeStatement, update, updateRows_eq_runRows, get_bind, Statement.written]
      cases s.catalog.getTable table.relation.name <;> rfl
  | delete relations selection =>
      cases writes
      simp only [executeStatement, delete, deleteRows_eq_runRows, get_bind, Statement.written]
      cases s.catalog.getTable ((relations.head?.map fun item => item.relation.name).getD "") <;> rfl
  | _ => cases writes

end Statements

section Turns

/-- What is recorded of a session: a row it has worked on, a transaction that is
committed, one whose rollback is complete, a statement that has failed. -/
inductive BackupEvent where
  | wrote (txnId : Nat)
  | committed (txnId : Nat)
  | rolledBack (txnId : Nat)
  | failed (failure : Failure)

def BackupEvent.isFailed : BackupEvent → Bool
  | .failed _ => true
  | .wrote _ | .committed _ | .rolledBack _ => false

/-- Where a session stands in a statement. `BEGIN`, `COMMIT` and `ROLLBACK` have
written their record; a write statement wants the lock, has it, has opened a
transaction of its own, works on its rows, has committed its own transaction, or
is about to drop the lock. -/
inductive SessionPlace where
  | begun
  | committed
  | undoing (txnId : Option Nat) (records : List UndoRecord)
  | wanting (loop : RowLoop)
  | entered (loop : RowLoop)
  | opened (txnId : Nat) (loop : RowLoop)
  | looping (txnId : Nat) (rows : List RowBody) (count : Nat)
  | closed
  | leaving

/-- Where `backup_live` stands: before its first wait, before the call of `write`,
with new readers kept out but old ones still about, before its second wait, before
the checkpoint, before the archive, and at its end with what it has archived. -/
inductive BackupPlace where
  | waiting
  | locking
  | draining
  | waitingAgain
  | checkpointing
  | archiving
  | finished (archive : Disk)

/-- A session and the statements it has still to run. -/
abbrev SessionClient := Client SessionPlace Statement

/-- The sessions and the backup. -/
inductive Participant where
  | session (client : SessionClient)
  | backup (place : BackupPlace)

/-- The database with `backup_lock`: its shared guards, and whether a writer has it
or waits for the guards to go. A writer that waits keeps new readers out. -/
structure LockedDatabase where
  db : Database
  readers : Nat
  writer : Bool

/-- A turn that runs a computation of the executor. A failure is recorded. -/
def LockedDatabase.perform {α : Type} (shared : LockedDatabase) (client : SessionClient)
    (m : ExecM α) (next : α → Option SessionPlace) (report : α → List BackupEvent)
    (caught : Option SessionPlace) : Turn LockedDatabase SessionClient BackupEvent :=
  match m (client.executor shared.db) with
  | .ok a s => {
      shared := { shared with db := s.toDatabase }
      thread := { client with session := s.session, phase := next a }
      events := report a }
  | .error e s => {
      shared := { shared with db := s.toDatabase }
      thread := { client with session := s.session, phase := caught }
      events := [.failed e] }

variable [Runtime]

/-- The first turn of a statement. Statements that are neither write statements
nor about transactions take one turn, without the lock. -/
def startStatement (shared : LockedDatabase) (client : SessionClient) :
    Statement → Turn LockedDatabase SessionClient BackupEvent
  | .startTransaction => shared.perform client logBegin (fun _ => some .begun) (fun _ => []) none
  | .commit =>
      shared.perform client logCommit (fun _ => some .committed)
        (fun txnId => txnId.toList.map .committed) none
  | .rollback =>
      shared.perform client logAbort (fun (txnId, records) => some (.undoing txnId records))
        (fun _ => []) none
  | stmt => match stmt.rowLoop shared.db with
    | some loop =>
        shared.perform client (ExecM.lift loop) (fun loop => some (.wanting loop)) (fun _ => []) none
    | none => shared.perform client (executeSession [stmt]) (fun _ => none) (fun _ => []) none

/-- A turn of a session. The guard is dropped also when a row fails. -/
def sessionStep (shared : LockedDatabase) (client : SessionClient) :
    Turn LockedDatabase SessionClient BackupEvent :=
  match client.phase with
  | none => match client.program with
    | [] => .wait shared client
    | stmt :: rest => startStatement shared { client with program := rest } stmt
  | some .begun => shared.perform client trackWriteTxnStart (fun _ => none) (fun _ => []) none
  | some .committed => shared.perform client trackWriteTxnEnd (fun _ => none) (fun _ => []) none
  | some (.undoing txnId (record :: rest)) =>
      shared.perform client (applyUndo record) (fun _ => some (.undoing txnId rest)) (fun _ => [])
        none
  | some (.undoing txnId []) =>
      shared.perform client trackWriteTxnEnd (fun _ => none)
        (fun _ => txnId.toList.map .rolledBack) none
  | some (.wanting loop) =>
      if shared.writer then .wait shared client
      else {
        shared := { shared with readers := shared.readers + 1 }
        thread := { client with phase := some (.entered loop) }
        events := [] }
  | some (.entered loop) =>
      shared.perform client openWriteTxn
        (fun (txnId, own) => if own then some (.opened txnId loop)
          else some (.looping txnId (loop txnId) 0))
        (fun _ => []) (some .leaving)
  | some (.opened txnId loop) =>
      shared.perform client trackOwnTxn (fun _ => some (.looping txnId (loop txnId) 0))
        (fun _ => []) (some .leaving)
  | some (.looping txnId (body :: rest) count) =>
      shared.perform client (body.run count) (fun count => some (.looping txnId rest count))
        (fun _ => [.wrote txnId]) (some .leaving)
  | some (.looping txnId [] _) =>
      shared.perform client closeWriteTxn
        (fun own => if own then some .closed else some .leaving)
        (fun own => if own then [.committed txnId] else []) (some .leaving)
  | some .closed =>
      shared.perform client untrackOwnTxn (fun _ => some .leaving) (fun _ => []) (some .leaving)
  | some .leaving => {
      shared := { shared with readers := shared.readers - 1 }
      thread := { client with phase := none }
      events := [] }

/-- A turn of `backup_live`. -/
def backupStep (shared : LockedDatabase) (place : BackupPlace) :
    Turn LockedDatabase BackupPlace BackupEvent :=
  match place with
  | .waiting =>
      if 0 < shared.db.activeWriteTxns then .wait shared place
      else { shared, thread := .locking, events := [] }
  | .locking => { shared := { shared with writer := true }, thread := .draining, events := [] }
  | .draining =>
      if 0 < shared.readers then .wait shared place
      else { shared, thread := .waitingAgain, events := [] }
  | .waitingAgain =>
      if 0 < shared.db.activeWriteTxns then .wait shared place
      else { shared, thread := .checkpointing, events := [] }
  | .checkpointing => {
      shared := { shared with
        db := (finalState checkpointDatabase { shared.db with session := .new }).toDatabase }
      thread := .archiving
      events := [] }
  | .archiving => {
      shared := { shared with writer := false }
      thread := .finished shared.db.disk.archived
      events := [] }
  | .finished _ => .wait shared place

/-- A turn of a session or of the backup. -/
def backupSystemStep (shared : LockedDatabase) : Participant →
    Turn LockedDatabase Participant BackupEvent
  | .session client =>
      let turn := sessionStep shared client
      { shared := turn.shared, thread := .session turn.thread, events := turn.events }
  | .backup place =>
      let turn := backupStep shared place
      { shared := turn.shared, thread := .backup turn.thread, events := turn.events }

/-- Sessions with their programs, and a backup, over a database without open
transactions. -/
def backupSystem {ι : Type} (db : Database) (programs : ι → List Statement) :
    Configuration (Option ι) LockedDatabase Participant BackupEvent where
  shared := { db := { db with activeWriteTxns := 0 }, readers := 0, writer := false }
  threads
    | none => .backup .waiting
    | some i => .session { session := .new, phase := none, program := programs i }
  history := []

/-- What is left of a statement when no other session takes a turn. -/
def sessionRemaining : Option SessionPlace → ExecM PUnit
  | none | some .leaving => pure ⟨⟩
  | some .begun => trackWriteTxnStart
  | some .committed => trackWriteTxnEnd
  | some (.undoing _ records) => do
      undoAll records
      trackWriteTxnEnd
  | some (.wanting loop) | some (.entered loop) => do
      let txnId ← beginWriteTxn
      let _ ← runRows (loop txnId) 0
      finishAutoCommitIfNeeded
  | some (.opened txnId loop) => do
      trackOwnTxn
      let _ ← runRows (loop txnId) 0
      finishAutoCommitIfNeeded
  | some (.looping _ rows count) => do
      let _ ← runRows rows count
      finishAutoCommitIfNeeded
  | some .closed => untrackOwnTxn

section Following

variable {shared : LockedDatabase} {client : SessionClient}

/-- What is left of a statement ends in the same state before and after a turn. -/
theorem perform_follows {α : Type} (m : ExecM α) (next : α → Option SessionPlace)
    (report : α → List BackupEvent) {caught : Option SessionPlace}
    (ended : sessionRemaining caught = pure ⟨⟩) :
    let turn := shared.perform client m next report caught
    finalState (sessionRemaining turn.thread.phase) (turn.thread.executor turn.shared.db) =
      finalState (m >>= fun a => sessionRemaining (next a)) (client.executor shared.db) := by
  dsimp only [LockedDatabase.perform]
  cases outcome : m (client.executor shared.db) with
  | ok a s =>
      rw [finalState_bind_of_ok outcome]
      rfl
  | error e s =>
      rw [finalState_bind_of_error outcome]
      dsimp only
      rw [ended]
      rfl

/-- The turns of a session follow its statement. -/
theorem sessionStep_follows (running : client.phase ≠ none) :
    let turn := sessionStep shared client
    finalState (sessionRemaining turn.thread.phase) (turn.thread.executor turn.shared.db) =
      finalState (sessionRemaining client.phase) (client.executor shared.db) := by
  obtain ⟨place, running⟩ := Option.ne_none_iff_exists'.mp running
  unfold sessionStep
  rw [running]
  cases place with
  | begun => exact (perform_follows _ _ _ rfl).trans (finalState_bind_pure _ _ _)
  | committed => exact (perform_follows _ _ _ rfl).trans (finalState_bind_pure _ _ _)
  | undoing txnId records =>
      cases records with
      | nil => exact (perform_follows _ _ _ rfl).trans (finalState_bind_pure _ _ _)
      | cons record rest =>
          refine (perform_follows _ _ _ rfl).trans ?_
          simp only [sessionRemaining, undoAll, bind_assoc]
  | wanting loop =>
      dsimp only
      split
      · rw [Turn.wait]
        dsimp only
        rw [running]
      · rfl
  | entered loop =>
      refine (perform_follows _ _ _ rfl).trans ?_
      simp only [sessionRemaining, beginWriteTxn_eq, bind_assoc]
      refine finalState_bind_congr (fun result s => ?_) _
      obtain ⟨txnId, own⟩ := result
      cases own <;> rfl
  | opened txnId loop => exact perform_follows _ _ _ rfl
  | looping txnId rows count =>
      cases rows with
      | nil =>
          refine (perform_follows _ _ _ rfl).trans ?_
          simp only [sessionRemaining, finishAutoCommitIfNeeded_eq, runRows, pure_bind]
          refine finalState_bind_congr (fun own s => ?_) _
          cases own <;> rfl
      | cons body rest =>
          refine (perform_follows _ _ _ rfl).trans ?_
          simp only [sessionRemaining, runRows, bind_assoc]
  | closed => exact (perform_follows _ _ _ rfl).trans (finalState_bind_pure _ _ _)
  | leaving => rfl

/-- The first turn begins the statement. -/
theorem startStatement_follows (stmt : Statement) :
    let turn := startStatement shared client stmt
    ∃ metaFile,
      finalState (sessionRemaining turn.thread.phase) (turn.thread.executor turn.shared.db) =
        { finalState (executeStatement stmt) (client.executor shared.db) with metaFile } := by
  have single := finalState_executeSession_single stmt (client.executor shared.db)
  have alike : ∀ {s : Executor}, s = finalState (executeStatement stmt) (client.executor shared.db) →
      ∃ metaFile, s =
        { finalState (executeStatement stmt) (client.executor shared.db) with metaFile } := by
    rintro _ rfl
    exact ⟨_, rfl⟩
  have writes : ∀ {loop : Except Failure RowLoop}, stmt.rowLoop shared.db = some loop →
      finalState (ExecM.lift loop >>= fun loop => sessionRemaining (some (.wanting loop)))
          (client.executor shared.db) =
        finalState (executeStatement stmt) (client.executor shared.db) := by
    intro loop prepares
    rw [finalState, finalState, @executeStatement_eq _ stmt (client.executor shared.db) _ prepares,
      ← finalState, ← finalState]
    refine finalState_bind_congr (fun loop s => ?_) _
    refine finalState_bind_congr (fun txnId s => ?_) s
    refine finalState_bind_congr (fun count s => ?_) s
    exact (finalState_bind_pure _ _ s).symm
  cases stmt with
  | startTransaction =>
      refine alike ((perform_follows _ _ _ rfl).trans ?_)
      simp only [executeStatement, begin_eq]
      exact finalState_bind_congr (fun _ s => (finalState_bind_pure _ _ s).symm) _
  | commit =>
      refine alike ((perform_follows _ _ _ rfl).trans ?_)
      simp only [executeStatement, commit_eq]
      exact finalState_bind_congr (fun _ s => (finalState_bind_pure _ _ s).symm) _
  | rollback =>
      refine alike ((perform_follows _ _ _ rfl).trans ?_)
      simp only [executeStatement, rollback_eq]
      refine finalState_bind_congr (fun result s => ?_) _
      refine finalState_bind_congr (fun _ s => ?_) s
      exact (finalState_bind_pure _ _ s).symm
  | insert stmt => exact alike ((perform_follows _ _ _ rfl).trans (writes rfl))
  | update table assignments selection => exact alike ((perform_follows _ _ _ rfl).trans (writes rfl))
  | delete relations selection => exact alike ((perform_follows _ _ _ rfl).trans (writes rfl))
  | _ =>
      obtain ⟨metaFile, same⟩ := single
      exact ⟨metaFile, ((perform_follows _ _ _ rfl).trans (finalState_bind_pure _ _ _)).trans same⟩

end Following

end Turns

section Accounts

namespace SessionPlace

/-- Whether a session has the lock there. -/
def holdsLock : Option SessionPlace → Bool
  | some (.entered _) | some (.opened _ _) | some (.looping _ _ _) | some .closed
  | some .leaving => true
  | none | some .begun | some .committed | some (.undoing _ _) | some (.wanting _) => false

end SessionPlace

namespace Client

/-- Whether the session's transaction is in the counter. -/
def counted (client : SessionClient) : Bool :=
  match client.phase with
  | some .begun | some (.opened _ _) => false
  | some .committed | some (.undoing _ _) | some .closed => true
  | _ => client.session.transaction.active

/-- The transaction whose changes the session may still take back or commit. -/
def unsettled (client : SessionClient) : Option Nat :=
  match client.phase with
  | some .begun | some (.opened _ _) => none
  | some (.undoing txnId _) => txnId
  | _ => client.session.transaction.txnId

/-- Whether a transaction begun by the client is open, or will be when `BEGIN`
has come to its end. -/
def pending (client : SessionClient) : Bool :=
  match client.phase with
  | some .begun => true
  | some .committed | some (.undoing _ _) | some (.opened _ _) | some .closed => false
  | some (.looping _ _ _) => !client.session.autoCommit
  | _ => client.session.transaction.active

/-- What a rollback has still to undo, or would have to. -/
def undoList (client : SessionClient) : List UndoRecord :=
  match client.phase with
  | some (.undoing _ records) => records
  | _ => client.session.transaction.undo

/-- The session fits the place it is in. -/
def Stands (client : SessionClient) : Prop :=
  match client.phase with
  | none | some (.wanting _) | some (.entered _) | some .leaving =>
      client.session.Fits client.session.transaction.active
  | some .begun => client.session.Fits true
  | some .committed | some (.undoing _ _) => client.session = .new
  | some (.opened txnId _) =>
      client.session.transaction.active = true ∧ client.session.transaction.txnId = some txnId
  | some (.looping txnId _ _) =>
      client.session.transaction.active = true ∧ client.session.transaction.txnId = some txnId
  | some .closed => client.session.transaction = .idle

end Client

/-- What a turn of a session does that no failure ends. -/
inductive SessionActs (shared : LockedDatabase) (client : SessionClient) :
    Turn LockedDatabase SessionClient BackupEvent → Prop
  | waits (idle : client.phase = none ∧ client.program = [] ∨
        ∃ loop, client.phase = some (.wanting loop) ∧ shared.writer = true) :
      SessionActs shared client (.wait shared client)
  | begins (db : Database) (session : Session) (rest : List Statement)
      (idle : client.phase = none) (calls : client.program = .startTransaction :: rest)
      (inactive : client.session.transaction.active = false) (fits : session.Fits true)
      (fresh : session.transaction.undo = [])
      (counter : db.activeWriteTxns = shared.db.activeWriteTxns)
      (rows : db.storage.tables = shared.db.storage.tables) :
      SessionActs shared client {
        shared := { shared with db }
        thread := { session, phase := some .begun, program := rest }
        events := [] }
  | counts (db : Database) (begun : client.phase = some .begun)
      (counter : db.activeWriteTxns = shared.db.activeWriteTxns + 1)
      (rows : db.storage.tables = shared.db.storage.tables) :
      SessionActs shared client {
        shared := { shared with db }, thread := { client with phase := none }, events := [] }
  | commits (db : Database) (txnId : Nat) (rest : List Statement)
      (idle : client.phase = none) (calls : client.program = .commit :: rest)
      (active : client.session.transaction.active = true)
      (running : client.session.transaction.txnId = some txnId)
      (counter : db.activeWriteTxns = shared.db.activeWriteTxns)
      (rows : db.storage.tables = shared.db.storage.tables) :
      SessionActs shared client {
        shared := { shared with db }
        thread := { session := .new, phase := some .committed, program := rest }
        events := [.committed txnId] }
  | uncounts (db : Database) (committed : client.phase = some .committed)
      (counter : db.activeWriteTxns = shared.db.activeWriteTxns - 1)
      (rows : db.storage.tables = shared.db.storage.tables) :
      SessionActs shared client {
        shared := { shared with db }, thread := { client with phase := none }, events := [] }
  | aborts (db : Database) (txnId : Nat) (records : List UndoRecord) (rest : List Statement)
      (idle : client.phase = none) (calls : client.program = .rollback :: rest)
      (active : client.session.transaction.active = true)
      (running : client.session.transaction.txnId = some txnId)
      (undo : records = client.session.transaction.undo.reverse)
      (counter : db.activeWriteTxns = shared.db.activeWriteTxns)
      (rows : db.storage.tables = shared.db.storage.tables) :
      SessionActs shared client {
        shared := { shared with db }
        thread := { session := .new, phase := some (.undoing (some txnId) records), program := rest }
        events := [] }
  | undoes (db : Database) (txnId : Option Nat) (record : UndoRecord) (records : List UndoRecord)
      (undoing : client.phase = some (.undoing txnId (record :: records)))
      (counter : db.activeWriteTxns = shared.db.activeWriteTxns) :
      SessionActs shared client {
        shared := { shared with db }
        thread := { client with phase := some (.undoing txnId records) }
        events := [] }
  | undone (db : Database) (txnId : Option Nat) (undoing : client.phase = some (.undoing txnId []))
      (counter : db.activeWriteTxns = shared.db.activeWriteTxns - 1)
      (rows : db.storage.tables = shared.db.storage.tables) :
      SessionActs shared client {
        shared := { shared with db }
        thread := { client with phase := none }
        events := txnId.toList.map .rolledBack }
  | runs (db : Database) (stmt : Statement) (rest : List Statement) (idle : client.phase = none)
      (calls : client.program = stmt :: rest)
      (still : ∀ pending, stmt.pendingAfter pending = pending) (reads : stmt.isWrite = false)
      (counter : db.activeWriteTxns = shared.db.activeWriteTxns) :
      SessionActs shared client {
        shared := { shared with db }
        thread := { client with phase := none, program := rest }
        events := [] }
  | checks (stmt : Statement) (loop : RowLoop) (rest : List Statement) (idle : client.phase = none)
      (calls : client.program = stmt :: rest) (writes : stmt.isWrite = true) :
      SessionActs shared client {
        shared
        thread := { client with phase := some (.wanting loop), program := rest }
        events := [] }
  | joins (loop : RowLoop) (wanting : client.phase = some (.wanting loop))
      (free : shared.writer = false) :
      SessionActs shared client {
        shared := { shared with readers := shared.readers + 1 }
        thread := { client with phase := some (.entered loop) }
        events := [] }
  | enters (loop : RowLoop) (txnId : Nat) (entered : client.phase = some (.entered loop))
      (running : client.session.transaction.txnId = some txnId) :
      SessionActs shared client {
        shared
        thread := { client with phase := some (.looping txnId (loop txnId) 0) }
        events := [] }
  | opens (loop : RowLoop) (txnId : Nat) (db : Database) (session : Session)
      (entered : client.phase = some (.entered loop))
      (idle : client.session.transaction.txnId = none)
      (inactive : client.session.transaction.active = false)
      (active : session.transaction.active = true)
      (running : session.transaction.txnId = some txnId) (fresh : session.transaction.undo = [])
      (counter : db.activeWriteTxns = shared.db.activeWriteTxns)
      (rows : db.storage.tables = shared.db.storage.tables) :
      SessionActs shared client {
        shared := { shared with db }
        thread := { client with session, phase := some (.opened txnId loop) }
        events := [] }
  | tracks (loop : RowLoop) (txnId : Nat) (db : Database)
      (opened : client.phase = some (.opened txnId loop))
      (counter : db.activeWriteTxns = shared.db.activeWriteTxns + 1)
      (rows : db.storage.tables = shared.db.storage.tables) :
      SessionActs shared client {
        shared := { shared with db }
        thread := { client with
          session := { client.session with autoCommit := true }
          phase := some (.looping txnId (loop txnId) 0) }
        events := [] }
  | writes (txnId : Nat) (body : RowBody) (rows : List RowBody) (count count' : Nat) (db : Database)
      (session : Session) (looping : client.phase = some (.looping txnId (body :: rows) count))
      (active : session.transaction.active = client.session.transaction.active)
      (running : session.transaction.txnId = client.session.transaction.txnId)
      (automatic : session.autoCommit = client.session.autoCommit)
      (counter : db.activeWriteTxns = shared.db.activeWriteTxns) :
      SessionActs shared client {
        shared := { shared with db }
        thread := { client with session, phase := some (.looping txnId rows count') }
        events := [.wrote txnId] }
  | closes (txnId count : Nat) (db : Database) (session : Session)
      (looping : client.phase = some (.looping txnId [] count))
      (automatic : client.session.autoCommit = true) (idle : session.transaction = .idle)
      (counter : db.activeWriteTxns = shared.db.activeWriteTxns)
      (rows : db.storage.tables = shared.db.storage.tables) :
      SessionActs shared client {
        shared := { shared with db }
        thread := { client with session, phase := some .closed }
        events := [.committed txnId] }
  | untracks (db : Database) (closed : client.phase = some .closed)
      (counter : db.activeWriteTxns = shared.db.activeWriteTxns - 1)
      (rows : db.storage.tables = shared.db.storage.tables) :
      SessionActs shared client {
        shared := { shared with db }
        thread := { client with
          session := { client.session with autoCommit := false }
          phase := some .leaving }
        events := [] }
  | ends (txnId count : Nat) (looping : client.phase = some (.looping txnId [] count))
      (explicit : client.session.autoCommit = false) :
      SessionActs shared client {
        shared, thread := { client with phase := some .leaving }, events := [] }
  | releases (leaving : client.phase = some .leaving) :
      SessionActs shared client {
        shared := { shared with readers := shared.readers - 1 }
        thread := { client with phase := none }
        events := [] }

section Inversion

variable {s s' : Executor}

theorem logBegin_of_ok {u : PUnit} (ran : logBegin s = .ok u s') :
    s.session.transaction.active = false ∧ s'.session.Fits true ∧
      s'.session.transaction.undo = [] ∧ s'.activeWriteTxns = s.activeWriteTxns ∧
      s'.storage.tables = s.storage.tables := by
  obtain ⟨db, ⟨active, txnId, undo⟩, autoCommit⟩ := s
  cases active with
  | true => cases ran
  | false =>
      cases ran
      exact ⟨rfl, ⟨rfl, rfl, rfl⟩, rfl, rfl, rfl⟩

theorem logCommit_of_ok {txnId : Option Nat} (ran : logCommit s = .ok txnId s') :
    s.session.transaction.active = true ∧ s.session.transaction.txnId.isSome = true ∧
      txnId = s.session.transaction.txnId ∧ s'.session = .new ∧
      s'.activeWriteTxns = s.activeWriteTxns ∧ s'.storage.tables = s.storage.tables := by
  obtain ⟨db, ⟨active, running, undo⟩, autoCommit⟩ := s
  cases active with
  | false => cases ran
  | true =>
      cases running with
      | none => cases ran
      | some running =>
          cases ran
          exact ⟨rfl, rfl, rfl, rfl, rfl, rfl⟩

theorem logAbort_of_ok {result : Option Nat × List UndoRecord} (ran : logAbort s = .ok result s') :
    s.session.transaction.active = true ∧ s.session.transaction.txnId.isSome = true ∧
      result = (s.session.transaction.txnId, s.session.transaction.undo.reverse) ∧
      s'.session = .new ∧ s'.activeWriteTxns = s.activeWriteTxns ∧
      s'.storage.tables = s.storage.tables := by
  obtain ⟨db, ⟨active, running, undo⟩, autoCommit⟩ := s
  cases active with
  | false => cases ran
  | true =>
      cases running with
      | none => cases ran
      | some running =>
          cases ran
          exact ⟨rfl, rfl, rfl, rfl, rfl, rfl⟩

theorem openWriteTxn_of_ok {txnId : Nat} {own : Bool} (ran : openWriteTxn s = .ok (txnId, own) s') :
    (own = false ∧ s.session.transaction.txnId = some txnId ∧ s' = s) ∨
      (own = true ∧ s.session.transaction.txnId = none ∧
        s.session.transaction.active = false ∧ s'.session.transaction.active = true ∧
        s'.session.transaction.txnId = some txnId ∧ s'.session.transaction.undo = [] ∧
        s'.activeWriteTxns = s.activeWriteTxns ∧ s'.storage.tables = s.storage.tables) := by
  obtain ⟨db, ⟨active, running, undo⟩, autoCommit⟩ := s
  cases running with
  | some running =>
      cases ran
      exact .inl ⟨rfl, rfl, rfl⟩
  | none =>
      cases active with
      | true => cases ran
      | false =>
          cases ran
          exact .inr ⟨rfl, rfl, rfl, rfl, rfl, rfl, rfl, rfl⟩

theorem closeWriteTxn_of_ok {own : Bool} (ran : closeWriteTxn s = .ok own s') :
    (own = false ∧ s.session.autoCommit = false ∧ s' = s) ∨
      (own = true ∧ s.session.autoCommit = true ∧ s'.session.transaction = .idle ∧
        s'.activeWriteTxns = s.activeWriteTxns ∧ s'.storage.tables = s.storage.tables) := by
  obtain ⟨db, ⟨active, running, undo⟩, autoCommit⟩ := s
  cases autoCommit with
  | false =>
      cases ran
      exact .inl ⟨rfl, rfl, rfl⟩
  | true =>
      cases running with
      | none => cases ran
      | some running =>
          cases ran
          exact .inr ⟨rfl, rfl, rfl, rfl, rfl⟩

variable [Runtime] {shared : LockedDatabase} {client : SessionClient}

omit [Runtime] in
/-- A turn that records no failure went through. -/
theorem perform_succeeds {α : Type} {m : ExecM α} {next : α → Option SessionPlace}
    {report : α → List BackupEvent} {caught : Option SessionPlace}
    (succeeds : ∀ e, .failed e ∉ (shared.perform client m next report caught).events) :
    ∃ a s, m (client.executor shared.db) = .ok a s ∧
      shared.perform client m next report caught = {
        shared := { shared with db := s.toDatabase }
        thread := { client with session := s.session, phase := next a }
        events := report a } := by
  cases outcome : m (client.executor shared.db) with
  | ok a s =>
      refine ⟨a, s, rfl, ?_⟩
      simp only [LockedDatabase.perform, outcome]
  | error e s =>
      have failed : shared.perform client m next report caught = {
          shared := { shared with db := s.toDatabase }
          thread := { client with session := s.session, phase := caught }
          events := [.failed e] } := by
        simp only [LockedDatabase.perform, outcome]
      rw [failed] at succeeds
      exact absurd (List.mem_singleton_self _) (succeeds e)

theorem sessionKept_applyUndo (record : UndoRecord) : Moves SessionKept (applyUndo record) :=
  Moves.applyUndo (fun _ _ _ => ⟨rfl, rfl⟩) (fun _ _ _ _ => ⟨rfl, rfl⟩)
    (fun _ _ _ _ _ _ _ => ⟨rfl, rfl⟩) (fun _ _ _ _ _ _ => ⟨rfl, rfl⟩) record

/-- A statement that neither writes rows nor is about transactions leaves the
session and the counter alone. -/
theorem sessionKept_statement {stmt : Statement} (reads : stmt.isWrite = false)
    (still : ∀ pending, stmt.pendingAfter pending = pending) :
    Moves SessionKept (executeSession [stmt]) := by
  have kept : Moves SessionKept (executeStatement stmt) := by
    cases stmt with
    | startTransaction => cases still false
    | commit => cases still true
    | rollback => cases still true
    | createTable name columns constraints =>
        exact Moves.createTable (fun _ _ _ _ _ => ⟨rfl, rfl⟩) _ _ _
    | drop objectType names =>
        cases objectType with
        | table =>
            cases names with
            | nil => exact Moves.fail _
            | cons name rest => exact Moves.dropTable (fun _ _ _ _ _ => ⟨rfl, rfl⟩) _
        | other display => exact Moves.fail _
    | insert stmt => cases reads
    | query query => exact .seq Moves.read fun _ => Moves.lift _
    | update table assignments selection => cases reads
    | delete relations selection => cases reads
    | createIndex name tableName columns unique =>
        exact Moves.createIndex (fun _ _ _ _ _ => ⟨rfl, rfl⟩) _ _ _ _
    | explain statement => exact .seq Moves.read fun _ => Moves.lift _
    | other display => exact Moves.fail _
  intro s
  obtain ⟨metaFile, same⟩ := finalState_executeSession_single stmt s
  rw [same]
  exact ⟨(kept s).session, (kept s).counter⟩

theorem startStatement_acts {stmt : Statement} {rest : List Statement}
    (idle : client.phase = none) (calls : client.program = stmt :: rest)
    (succeeds : ∀ e, .failed e ∉
      (startStatement shared { client with program := rest } stmt).events) :
    SessionActs shared client (startStatement shared { client with program := rest } stmt) := by
  have checked : stmt.isWrite = true → ∀ {loop : Except Failure RowLoop},
      (∀ e, .failed e ∉ (shared.perform { client with program := rest } (ExecM.lift loop)
        (fun loop => some (.wanting loop)) (fun _ => []) none).events) →
      SessionActs shared client (shared.perform { client with program := rest } (ExecM.lift loop)
        (fun loop => some (.wanting loop)) (fun _ => []) none) := by
    intro writes loop succeeds
    obtain ⟨loop, s, ran, same⟩ := perform_succeeds succeeds
    obtain ⟨-, rfl⟩ := ExecM.lift_eq_ok.mp ran
    rw [same]
    exact .checks stmt loop rest idle calls writes
  have ran : (∀ pending, stmt.pendingAfter pending = pending) → stmt.isWrite = false →
      (∀ e, .failed e ∉ (shared.perform { client with program := rest } (executeSession [stmt])
        (fun _ => none) (fun _ => []) none).events) →
      SessionActs shared client (shared.perform { client with program := rest }
        (executeSession [stmt]) (fun _ => none) (fun _ => []) none) := by
    intro still reads succeeds
    obtain ⟨result, s, ran, same⟩ := perform_succeeds succeeds
    have kept := (sessionKept_statement reads still).of_ok ran
    rw [same, kept.session]
    exact .runs s.toDatabase stmt rest idle calls still reads kept.counter
  cases stmt with
  | startTransaction =>
      obtain ⟨u, s, ran, same⟩ := perform_succeeds succeeds
      obtain ⟨inactive, fits, fresh, counter, rows⟩ := logBegin_of_ok ran
      rw [startStatement, same]
      exact .begins s.toDatabase s.session rest idle calls inactive fits fresh counter rows
  | commit =>
      obtain ⟨txnId, s, ran, same⟩ := perform_succeeds succeeds
      obtain ⟨active, running, rfl, new, counter, rows⟩ := logCommit_of_ok ran
      obtain ⟨txnId, running⟩ := Option.isSome_iff_exists.mp running
      rw [startStatement, same, new, running]
      exact .commits s.toDatabase txnId rest idle calls active running counter rows
  | rollback =>
      obtain ⟨result, s, ran, same⟩ := perform_succeeds succeeds
      obtain ⟨active, running, rfl, new, counter, rows⟩ := logAbort_of_ok ran
      obtain ⟨txnId, running⟩ := Option.isSome_iff_exists.mp running
      rw [startStatement, same, new, running]
      exact .aborts s.toDatabase txnId _ rest idle calls active running rfl counter rows
  | insert stmt => exact checked rfl succeeds
  | update table assignments selection => exact checked rfl succeeds
  | delete relations selection => exact checked rfl succeeds
  | _ => exact ran (fun _ => rfl) rfl succeeds

/-- **What a turn of a session does.** -/
theorem sessionStep_acts (succeeds : ∀ e, .failed e ∉ (sessionStep shared client).events) :
    SessionActs shared client (sessionStep shared client) := by
  obtain ⟨session, phase, program⟩ := client
  match phase with
  | none =>
      match program with
      | [] => exact .waits (.inl ⟨rfl, rfl⟩)
      | stmt :: rest => exact startStatement_acts rfl rfl succeeds
  | some .begun => exact .counts _ rfl rfl rfl
  | some .committed => exact .uncounts _ rfl rfl rfl
  | some (.undoing txnId (record :: rest)) =>
      obtain ⟨u, s, ran, same⟩ := perform_succeeds succeeds
      have kept := (sessionKept_applyUndo record).of_ok ran
      dsimp only [sessionStep]
      rw [same, kept.session]
      exact .undoes s.toDatabase txnId record rest rfl kept.counter
  | some (.undoing txnId []) => exact .undone _ txnId rfl rfl rfl
  | some (.wanting loop) =>
      cases taken : shared.writer with
      | true =>
          simp only [sessionStep, taken, ite_true]
          exact .waits (.inr ⟨loop, rfl, taken⟩)
      | false =>
          simp only [sessionStep, taken, Bool.false_eq_true, ite_false]
          rw [← taken]
          exact .joins loop rfl taken
  | some (.entered loop) =>
      obtain ⟨⟨txnId, own⟩, s, ran, same⟩ := perform_succeeds succeeds
      dsimp only [sessionStep]
      rw [same]
      rcases openWriteTxn_of_ok ran with ⟨rfl, running, rfl⟩ |
        ⟨rfl, idle, inactive, active, running, fresh, counter, rows⟩
      · exact .enters loop txnId rfl running
      · exact .opens loop txnId s.toDatabase s.session rfl idle inactive active running fresh
          counter rows
  | some (.opened txnId loop) => exact .tracks loop txnId _ rfl rfl rfl
  | some (.looping txnId (body :: rest) count) =>
      obtain ⟨count', s, ran, same⟩ := perform_succeeds succeeds
      have kept := (body.keeps count).of_ok ran
      dsimp only [sessionStep]
      rw [same]
      exact .writes txnId body rest count count' s.toDatabase s.session rfl kept.active kept.txnId
        kept.autoCommit kept.counter
  | some (.looping txnId [] count) =>
      obtain ⟨own, s, ran, same⟩ := perform_succeeds succeeds
      dsimp only [sessionStep]
      rw [same]
      rcases closeWriteTxn_of_ok ran with ⟨rfl, explicit, rfl⟩ | ⟨rfl, automatic, idle, counter, rows⟩
      · exact .ends txnId count rfl explicit
      · exact .closes txnId count s.toDatabase s.session rfl automatic idle counter rows
  | some .closed => exact .untracks _ rfl rfl rfl
  | some .leaving => exact .releases rfl

end Inversion

section Turns

variable {shared : LockedDatabase} {client : SessionClient}
  {turn : Turn LockedDatabase SessionClient BackupEvent}

omit shared client turn in
theorem Session.Fits.between {session : Session} {pending : Bool} (fits : session.Fits pending) :
    session.Fits session.transaction.active := by
  cases pending with
  | true => rwa [fits.1]
  | false =>
      cases (show session = .new from fits)
      rfl

/-- A session comes to a place it fits. -/
theorem SessionActs.stands (acts : SessionActs shared client turn) (stands : client.Stands) :
    turn.thread.Stands := by
  obtain ⟨session, phase, program⟩ := client
  cases acts with
  | waits => exact stands
  | begins db session rest idle calls inactive fits => exact fits
  | counts db begun =>
      cases begun
      exact @Session.Fits.between session true stands
  | commits => rfl
  | uncounts db committed =>
      cases committed
      exact @Session.Fits.between session false stands
  | aborts => rfl
  | undoes db txnId record records undoing =>
      cases undoing
      exact stands
  | undone db txnId undoing =>
      cases undoing
      exact @Session.Fits.between session false stands
  | runs db stmt rest idle =>
      cases idle
      exact stands
  | checks stmt loop rest idle =>
      cases idle
      exact stands
  | joins loop wanting =>
      cases wanting
      exact stands
  | enters loop txnId entered running =>
      cases entered
      refine ⟨?_, running⟩
      cases active : session.transaction.active with
      | true => rfl
      | false =>
          simp only [Client.Stands, active, Session.Fits] at stands
          cases stands
          cases running
  | opens loop txnId db session' entered idle inactive active running => exact ⟨active, running⟩
  | tracks loop txnId db opened =>
      cases opened
      exact stands
  | writes txnId body rows count count' db session' looping active running =>
      cases looping
      exact ⟨active.trans stands.1, running.trans stands.2⟩
  | closes txnId count db session' looping automatic idle => exact idle
  | untracks db closed =>
      cases closed
      obtain ⟨transaction, autoCommit⟩ := session
      cases (show transaction = .idle from stands)
      rfl
  | ends txnId count looping explicit =>
      cases looping
      refine @Session.Fits.between session true ⟨stands.1, ?_, explicit⟩
      rw [stands.2]
      rfl
  | releases leaving =>
      cases leaving
      exact stands

/-- The counter goes with the sessions whose transactions it counts. -/
theorem SessionActs.crosses_counter (acts : SessionActs shared client turn)
    (stands : client.Stands) :
    Crosses (client.counted = true) (turn.thread.counted = true) shared.db.activeWriteTxns
      turn.shared.db.activeWriteTxns := by
  unfold Client.Stands at stands
  cases acts with
  | waits => exact .stays Iff.rfl rfl
  | begins db session rest idle calls inactive fits fresh counter =>
      exact .stays (by simp [Client.counted, idle, inactive]) counter
  | counts db begun counter =>
      rw [begun] at stands
      exact .enters (by simp [Client.counted, begun]) (by simpa [Client.counted] using stands.1) counter
  | commits db txnId rest idle calls active running counter =>
      exact .stays (by simp [Client.counted, idle, active]) counter
  | uncounts db committed counter =>
      rw [committed] at stands
      exact .leaves (by simp [Client.counted, committed])
        (by simp [Client.counted, stands, Session.new, Transaction.idle]) counter
  | aborts db txnId records rest idle calls active running undo counter =>
      exact .stays (by simp [Client.counted, idle, active]) counter
  | undoes db txnId record records undoing counter =>
      exact .stays (by simp [Client.counted, undoing]) counter
  | undone db txnId undoing counter =>
      rw [undoing] at stands
      exact .leaves (by simp [Client.counted, undoing])
        (by simp [Client.counted, stands, Session.new, Transaction.idle]) counter
  | runs db stmt rest idle calls still reads counter =>
      exact .stays (by simp [Client.counted, idle]) counter
  | checks stmt loop rest idle => exact .stays (by simp [Client.counted, idle]) rfl
  | joins loop wanting => exact .stays (by simp [Client.counted, wanting]) rfl
  | enters loop txnId entered running => exact .stays (by simp [Client.counted, entered]) rfl
  | opens loop txnId db session entered idle inactive active running fresh counter =>
      exact .stays (by simp [Client.counted, entered, inactive]) counter
  | tracks loop txnId db opened counter =>
      rw [opened] at stands
      exact .enters (by simp [Client.counted, opened]) (by simpa [Client.counted] using stands.1) counter
  | writes txnId body rows count count' db session looping active running automatic counter =>
      exact .stays (by simp [Client.counted, looping, active]) counter
  | closes txnId count db session looping automatic idle counter =>
      rw [looping] at stands
      exact .stays (by simp [Client.counted, looping, stands.1]) counter
  | untracks db closed counter =>
      rw [closed] at stands
      exact .leaves (by simp [Client.counted, closed])
        (by simp [Client.counted, stands, Transaction.idle]) counter
  | ends txnId count looping explicit => exact .stays (by simp [Client.counted, looping]) rfl
  | releases leaving => exact .stays (by simp [Client.counted, leaving]) rfl

/-- The number of shared guards goes with the sessions that have one. -/
theorem SessionActs.crosses_lock (acts : SessionActs shared client turn) :
    Crosses (SessionPlace.holdsLock client.phase = true)
      (SessionPlace.holdsLock turn.thread.phase = true) shared.readers turn.shared.readers := by
  cases acts with
  | joins loop wanting =>
      rw [wanting]
      exact .enters Bool.false_ne_true rfl rfl
  | releases leaving =>
      rw [leaving]
      exact .leaves rfl Bool.false_ne_true rfl
  | waits => exact .stays Iff.rfl rfl
  | begins | counts | commits | uncounts | aborts | undoes | undone | runs | checks | enters | opens
  | tracks | writes | closes | untracks | ends => exact .stays (by simp [SessionPlace.holdsLock, *]) rfl

theorem SessionActs.writer (acts : SessionActs shared client turn) :
    turn.shared.writer = shared.writer := by
  cases acts <;> rfl

/-- A session without the lock gets it only when no writer has it. -/
theorem SessionActs.free (acts : SessionActs shared client turn)
    (outside : SessionPlace.holdsLock client.phase = false)
    (inside : SessionPlace.holdsLock turn.thread.phase = true) : shared.writer = false := by
  cases acts with
  | joins loop wanting free => exact free
  | _ => simp_all [SessionPlace.holdsLock, Turn.wait]

/-- A session with changes that are not settled is counted. -/
theorem Client.Stands.counted_of_unsettled {client : SessionClient} (stands : client.Stands)
    {txnId : Nat} (changed : client.unsettled = some txnId) : client.counted = true := by
  obtain ⟨session, phase, program⟩ := client
  have active : session.Fits session.transaction.active →
      session.transaction.txnId = some txnId → session.transaction.active = true := by
    intro fits running
    cases inactive : session.transaction.active with
    | true => rfl
    | false =>
        rw [inactive] at fits
        cases (show session = .new from fits)
        cases running
  match phase with
  | none | some (.wanting _) | some (.entered _) | some .leaving => exact active stands changed
  | some .begun | some (.opened _ _) => cases changed
  | some .committed | some (.undoing _ _) | some .closed => rfl
  | some (.looping _ _ _) => exact stands.1

/-- Changes are made with the lock, in the transaction that is not settled. -/
theorem SessionActs.wrote (acts : SessionActs shared client turn) (stands : client.Stands)
    {txnId : Nat} (member : .wrote txnId ∈ turn.events) :
    SessionPlace.holdsLock client.phase = true ∧ turn.thread.unsettled = some txnId := by
  cases acts with
  | writes id body rows count count' db session looping active running =>
      unfold Client.Stands at stands
      rw [looping] at stands
      cases List.mem_singleton.mp member
      exact ⟨by rw [looping]; rfl, running.trans stands.2⟩
  | _ => simp [Turn.wait] at member

/-- A transaction stays unsettled until it is committed or its rollback is complete. -/
theorem SessionActs.settles (acts : SessionActs shared client turn) (stands : client.Stands)
    {txnId : Nat} (changed : client.unsettled = some txnId) :
    turn.thread.unsettled = some txnId ∨ .committed txnId ∈ turn.events ∨
      .rolledBack txnId ∈ turn.events := by
  have counted := stands.counted_of_unsettled changed
  unfold Client.Stands at stands
  unfold Client.unsettled at changed
  unfold Client.counted at counted
  cases acts with
  | waits => exact .inl changed
  | begins db session rest idle calls inactive =>
      rw [idle] at counted
      exact Bool.noConfusion (inactive.symm.trans counted)
  | counts db begun =>
      rw [begun] at counted
      cases counted
  | commits db running rest idle calls active runs =>
      rw [idle] at changed
      cases runs.symm.trans changed
      exact .inr (.inl (List.mem_singleton_self _))
  | uncounts db committed =>
      rw [committed] at changed stands
      dsimp only at changed stands
      rw [stands] at changed
      cases changed
  | aborts db running records rest idle calls active runs =>
      rw [idle] at changed
      cases runs.symm.trans changed
      exact .inl rfl
  | undoes db running record records undoing =>
      rw [undoing] at changed
      exact .inl changed
  | undone db running undoing =>
      rw [undoing] at changed
      cases (show running = some txnId from changed)
      exact .inr (.inr (List.mem_singleton_self _))
  | runs db stmt rest idle =>
      rw [idle] at changed
      exact .inl changed
  | checks stmt loop rest idle =>
      rw [idle] at changed
      exact .inl changed
  | joins loop wanting =>
      rw [wanting] at changed
      exact .inl changed
  | enters loop running entered =>
      rw [entered] at changed
      exact .inl changed
  | opens loop running db session entered idle =>
      rw [entered] at changed
      cases idle.symm.trans changed
  | tracks loop running db opened =>
      rw [opened] at changed
      cases changed
  | writes id body rows count count' db session looping active running =>
      rw [looping] at changed
      exact .inl (running.trans changed)
  | closes id count db session looping =>
      rw [looping] at changed stands
      cases stands.2.symm.trans changed
      exact .inr (.inl (List.mem_singleton_self _))
  | untracks db closed =>
      rw [closed] at changed stands
      dsimp only at changed stands
      rw [stands] at changed
      cases changed
  | ends id count looping =>
      rw [looping] at changed
      exact .inl changed
  | releases leaving =>
      rw [leaving] at changed
      exact .inl changed

/-- There is something to undo only in a turn that has changed a row, or after a
turn that settles nothing. -/
theorem SessionActs.undo (acts : SessionActs shared client turn) (stands : client.Stands)
    (left : turn.thread.undoList ≠ []) :
    (∃ txnId, turn.events = [.wrote txnId]) ∨ (client.undoList ≠ [] ∧ turn.events = []) := by
  obtain ⟨session, phase, program⟩ := client
  cases acts with
  | waits => exact .inr ⟨left, rfl⟩
  | begins db session' rest idle calls inactive fits fresh => exact absurd fresh left
  | commits => exact absurd rfl left
  | uncounts db committed =>
      cases committed
      cases (show session = .new from stands)
      exact absurd rfl left
  | aborts db txnId records rest idle calls active running undo =>
      cases idle
      refine .inr ⟨fun none => left ?_, rfl⟩
      exact undo.trans (List.reverse_eq_nil_iff.mpr none)
  | undoes db txnId record records undoing =>
      cases undoing
      exact .inr ⟨List.cons_ne_nil _ _, rfl⟩
  | undone db txnId undoing =>
      cases undoing
      cases (show session = .new from stands)
      exact absurd rfl left
  | opens loop txnId db session' entered idle inactive active running fresh =>
      exact absurd fresh left
  | writes txnId => exact .inl ⟨txnId, rfl⟩
  | closes txnId count db session' looping automatic idle =>
      refine absurd ?_ left
      rw [Client.undoList, idle]
      rfl
  | untracks db closed =>
      cases closed
      exact .inr ⟨left, rfl⟩
  | counts db phase' | joins loop phase' | enters loop txnId phase' | tracks loop txnId db phase'
  | ends txnId count phase' | releases phase' =>
      cases phase'
      exact .inr ⟨left, rfl⟩
  | runs db stmt rest phase' | checks stmt loop rest phase' =>
      cases phase'
      exact .inr ⟨left, rfl⟩

/-- The stored rows change only where a row is worked on, where a change is
undone, or in a statement that is not about rows. -/
theorem SessionActs.rows (acts : SessionActs shared client turn) :
    turn.shared.db.storage.tables = shared.db.storage.tables ∨
      (∃ txnId, .wrote txnId ∈ turn.events) ∨
      (∃ txnId record records, client.phase = some (.undoing txnId (record :: records))) ∨
      ∃ stmt rest, client.phase = none ∧ client.program = stmt :: rest ∧ stmt.isWrite = false := by
  cases acts with
  | writes txnId => exact .inr (.inl ⟨txnId, List.mem_singleton_self _⟩)
  | undoes db txnId record records undoing => exact .inr (.inr (.inl ⟨_, _, _, undoing⟩))
  | runs db stmt rest idle calls still reads => exact .inr (.inr (.inr ⟨_, _, idle, calls, reads⟩))
  | waits | checks | joins | enters | ends | releases => exact .inl rfl
  | begins | counts | commits | uncounts | aborts | undone | opens | tracks | closes | untracks =>
      exact .inl ‹_›

end Turns

section Runs

variable {ι : Type}

/-- A session has changed a row in a transaction that it has neither committed
nor rolled back to the end. -/
def Unfinished (history : List (ι × BackupEvent)) (i : ι) (txnId : Nat) : Prop :=
  ∃ before after, history = before ++ (i, .wrote txnId) :: after ∧
    (i, .committed txnId) ∉ after ∧ (i, .rolledBack txnId) ∉ after

/-- A transaction that is unfinished after a turn was so before, or has been
changed in it. -/
theorem Unfinished.of_concat {history : List (ι × BackupEvent)} {events : List BackupEvent}
    {i j : ι} {txnId : Nat}
    (unfinished : Unfinished (history ++ events.map fun event => (j, event)) i txnId) :
    (Unfinished history i txnId ∧
      (i = j → .committed txnId ∉ events ∧ .rolledBack txnId ∉ events)) ∨
      (i = j ∧ .wrote txnId ∈ events) := by
  obtain ⟨before, after, split, uncommitted, notBack⟩ := unfinished
  have recent : (i, .wrote txnId) ∈ events.map (fun event => (j, event)) →
      i = j ∧ .wrote txnId ∈ events := by
    intro member
    obtain ⟨event, member, same⟩ := List.mem_map.mp member
    cases same
    exact ⟨rfl, member⟩
  rcases List.append_eq_append_iff.mp split with ⟨middle, -, same⟩ | ⟨middle, same, later⟩
  · exact .inr (recent (same ▸ List.mem_append_right _ List.mem_cons_self))
  · cases middle with
    | nil =>
        rw [List.nil_append] at later
        exact .inr (recent (later ▸ List.mem_cons_self))
    | cons first middle =>
        rw [List.cons_append] at later
        obtain ⟨rfl, rfl⟩ := List.cons.inj later
        refine .inl ⟨⟨before, middle, same, fun member => uncommitted (List.mem_append_left _ member),
          fun member => notBack (List.mem_append_left _ member)⟩, ?_⟩
        rintro rfl
        exact ⟨fun member => uncommitted (List.mem_append_right _ (List.mem_map_of_mem member)),
          fun member => notBack (List.mem_append_right _ (List.mem_map_of_mem member))⟩

/-- A transaction that is unfinished stays so until it is settled. -/
theorem Unfinished.concat {history : List (ι × BackupEvent)} {i : ι} {txnId : Nat}
    (unfinished : Unfinished history i txnId) {later : List (ι × BackupEvent)}
    (uncommitted : (i, .committed txnId) ∉ later) (notBack : (i, .rolledBack txnId) ∉ later) :
    Unfinished (history ++ later) i txnId := by
  obtain ⟨before, after, rfl, notBefore, notBackBefore⟩ := unfinished
  refine ⟨before, after ++ later, by rw [List.append_assoc, List.cons_append], ?_, ?_⟩
  · exact fun member => (List.mem_append.mp member).elim notBefore uncommitted
  · exact fun member => (List.mem_append.mp member).elim notBackBefore notBack

theorem unfinished_wrote (history : List (ι × BackupEvent)) (i : ι) (txnId : Nat) :
    Unfinished (history ++ [(i, .wrote txnId)]) i txnId :=
  ⟨history, [], rfl, List.not_mem_nil, List.not_mem_nil⟩

namespace Participant

/-- Whether a session's transaction is in the counter. -/
def counted : Participant → Bool
  | .session client => client.counted
  | .backup _ => false

/-- Whether a session has a shared guard. -/
def holdsLock : Participant → Bool
  | .session client => SessionPlace.holdsLock client.phase
  | .backup _ => false

/-- The transaction whose changes a session may still take back or commit. -/
def unsettled : Participant → Option Nat
  | .session client => client.unsettled
  | .backup _ => none

end Participant

namespace BackupPlace

/-- The backup has the lock, or keeps new readers out while it waits for it. -/
def excludes : BackupPlace → Bool
  | .draining | .waitingAgain | .checkpointing | .archiving => true
  | .waiting | .locking | .finished _ => false

/-- The backup has the lock. -/
def alone : BackupPlace → Bool
  | .waitingAgain | .checkpointing | .archiving => true
  | .waiting | .locking | .draining | .finished _ => false

/-- The backup is about to save the tables or to archive them. -/
def saving : BackupPlace → Bool
  | .checkpointing | .archiving => true
  | .waiting | .locking | .draining | .waitingAgain | .finished _ => false

end BackupPlace

abbrev BackupConfig (ι : Type) := Configuration (Option ι) LockedDatabase Participant BackupEvent

/-- What holds in every configuration that a run without failures comes to. -/
structure BackupConfig.Sound (config : BackupConfig ι) (place : BackupPlace) : Prop where
  backup : config.threads none = .backup place
  sessions : ∀ i, ∃ client : SessionClient, config.threads (some i) = .session client ∧ client.Stands
  unsettled : ∀ i txnId, Unfinished config.history i txnId →
    (config.threads i).unsettled = some txnId
  counter : Counted (fun thread => Participant.counted thread = true) config.threads
    config.shared.db.activeWriteTxns
  guards : Counted (fun thread => Participant.holdsLock thread = true) config.threads
    config.shared.readers
  undo : ∀ i client, config.threads i = .session client → client.undoList ≠ [] →
    ∃ txnId, Unfinished config.history i txnId
  writer : config.shared.writer = place.excludes
  alone : place.alone = true → config.shared.readers = 0
  settled : place.saving = true → ∀ i txnId, ¬Unfinished config.history i txnId

theorem BackupPlace.excludes_of_alone {place : BackupPlace} (alone : place.alone = true) :
    place.excludes = true := by
  cases place <;> first | rfl | cases alone

theorem BackupPlace.alone_of_saving {place : BackupPlace} (saving : place.saving = true) :
    place.alone = true := by
  cases place <;> first | rfl | cases saving

variable {config : BackupConfig ι} {place : BackupPlace}

namespace BackupConfig.Sound

/-- With no transaction in the counter every change is settled. -/
theorem settled_of_idle (sound : config.Sound place)
    (idle : config.shared.db.activeWriteTxns = 0) (i : Option ι) (txnId : Nat) :
    ¬Unfinished config.history i txnId := by
  intro unfinished
  have changed := sound.unsettled i txnId unfinished
  have counter := sound.counter
  rw [idle] at counter
  cases i with
  | none =>
      rw [sound.backup] at changed
      cases changed
  | some i =>
      obtain ⟨client, session, stands⟩ := sound.sessions i
      apply counter.none (some i)
      rw [session] at changed ⊢
      exact stands.counted_of_unsettled changed

variable [DecidableEq ι]

/-- A turn of a session keeps what holds. -/
theorem session {i : ι} {client : SessionClient}
    {turn : Turn LockedDatabase SessionClient BackupEvent} (sound : config.Sound place)
    (thread : config.threads (some i) = .session client)
    (acts : SessionActs config.shared client turn) :
    BackupConfig.Sound {
      shared := turn.shared
      threads := Function.update config.threads (some i) (.session turn.thread)
      history := config.history ++ turn.events.map fun event => (some i, event) } place := by
  obtain ⟨client', thread', stands⟩ := sound.sessions i
  obtain rfl : client = client' := by
    rw [thread] at thread'
    exact Participant.session.inj thread'
  have lock : Crosses (Participant.holdsLock (config.threads (some i)) = true)
      (Participant.holdsLock (.session turn.thread) = true) config.shared.readers
      turn.shared.readers := by
    rw [thread]
    exact acts.crosses_lock
  have held : SessionPlace.holdsLock client.phase = true → config.shared.readers ≠ 0 := by
    intro holds
    have inside : Participant.holdsLock (config.threads (some i)) = true := by rwa [thread]
    exact (sound.guards.pos inside).ne'
  constructor
  · dsimp only
    rw [Function.update_of_ne (Option.some_ne_none i).symm, sound.backup]
  · intro j
    by_cases same : j = i
    · subst same
      exact ⟨turn.thread, Function.update_self _ _ _, acts.stands stands⟩
    · obtain ⟨other, session, fits⟩ := sound.sessions j
      refine ⟨other, ?_, fits⟩
      dsimp only
      rw [Function.update_of_ne (fun equal => same (Option.some.inj equal)), session]
  · intro j txnId unfinished
    dsimp only
    by_cases same : j = some i
    · subst same
      rw [Function.update_self]
      rcases unfinished.of_concat with ⟨before, unsettled⟩ | ⟨-, wrote⟩
      · have changed := sound.unsettled _ _ before
        rw [thread] at changed
        obtain ⟨uncommitted, notBack⟩ := unsettled rfl
        rcases acts.settles stands changed with still | committed | back
        · exact still
        · exact absurd committed uncommitted
        · exact absurd back notBack
      · exact (acts.wrote stands wrote).2
    · rw [Function.update_of_ne same]
      rcases unfinished.of_concat with ⟨before, -⟩ | ⟨equal, -⟩
      · exact sound.unsettled _ _ before
      · exact absurd equal same
  · apply sound.counter.crosses
    rw [thread]
    exact acts.crosses_counter stands
  · exact sound.guards.crosses lock
  · intro j other isSession left
    dsimp only at isSession ⊢
    by_cases same : j = some i
    · subst same
      rw [Function.update_self] at isSession
      cases isSession
      rcases acts.undo stands left with ⟨txnId, wrote⟩ | ⟨before, quiet⟩
      · rw [wrote]
        exact ⟨txnId, unfinished_wrote _ _ _⟩
      · obtain ⟨txnId, unfinished⟩ := sound.undo _ _ thread before
        rw [quiet]
        exact ⟨txnId, unfinished.concat List.not_mem_nil List.not_mem_nil⟩
    · rw [Function.update_of_ne same] at isSession
      obtain ⟨txnId, unfinished⟩ := sound.undo _ _ isSession left
      have others : ∀ event, (j, event) ∉ turn.events.map fun event => (some i, event) := by
        intro event member
        obtain ⟨other, -, equal⟩ := List.mem_map.mp member
        exact same (Prod.mk.inj equal).1.symm
      exact ⟨txnId, unfinished.concat (others _) (others _)⟩
  · exact acts.writer.trans sound.writer
  · intro alone
    have free := sound.alone alone
    cases lock with
    | stays unchanged same => exact same.trans free
    | enters outside inside more =>
        rw [thread] at outside
        have unlocked := acts.free (Bool.eq_false_of_not_eq_true outside) inside
        rw [sound.writer, BackupPlace.excludes_of_alone alone] at unlocked
        cases unlocked
    | leaves inside outside fewer => exact fewer.trans (by rw [free])
  · intro saving j txnId unfinished
    rcases unfinished.of_concat with ⟨before, -⟩ | ⟨-, wrote⟩
    · exact sound.settled saving j txnId before
    · exact held (acts.wrote stands wrote).1 (sound.alone (BackupPlace.alone_of_saving saving))

/-- The backup goes to another place, with the counter and the guards as they were. -/
theorem goes (db : Database) (next : BackupPlace) (sound : config.Sound place)
    (counter : db.activeWriteTxns = config.shared.db.activeWriteTxns)
    (alone : next.alone = true → config.shared.readers = 0)
    (settled : next.saving = true → ∀ i txnId, ¬Unfinished config.history i txnId) :
    BackupConfig.Sound {
      shared := { db, readers := config.shared.readers, writer := next.excludes }
      threads := Function.update config.threads none (.backup next)
      history := config.history } next := by
  constructor
  · dsimp only
    rw [Function.update_self]
  · intro i
    obtain ⟨client, session, stands⟩ := sound.sessions i
    refine ⟨client, ?_, stands⟩
    dsimp only
    rw [Function.update_of_ne (Option.some_ne_none i), session]
  · intro i txnId unfinished
    have changed := sound.unsettled i txnId unfinished
    dsimp only
    cases i with
    | none =>
        rw [sound.backup] at changed
        cases changed
    | some i => rwa [Function.update_of_ne (Option.some_ne_none i)]
  · dsimp only
    rw [counter]
    apply sound.counter.same
    rw [sound.backup]
    exact Iff.rfl
  · apply sound.guards.same
    rw [sound.backup]
    exact Iff.rfl
  · intro i client isSession left
    dsimp only at isSession
    by_cases same : i = none
    · subst same
      rw [Function.update_self] at isSession
      cases isSession
    · rw [Function.update_of_ne same] at isSession
      exact sound.undo i client isSession left
  · rfl
  · exact alone
  · exact settled

variable [Runtime]

/-- A turn of the backup keeps what holds. -/
theorem backupTurn (sound : config.Sound place) :
    BackupConfig.Sound (advance backupSystemStep config none)
      (backupStep config.shared place).thread := by
  have turned : ∀ {shared : LockedDatabase} {next : BackupPlace},
      backupStep config.shared place = { shared, thread := next, events := [] } →
      BackupConfig.Sound {
        shared, threads := Function.update config.threads none (.backup next)
        history := config.history } next →
      BackupConfig.Sound (advance backupSystemStep config none)
        (backupStep config.shared place).thread := by
    intro shared next same kept
    simpa only [advance, backupSystemStep, sound.backup, same, List.map_nil, List.append_nil]
      using kept
  have moves : ∀ next : BackupPlace, next.excludes = place.excludes →
      (next.alone = true → config.shared.readers = 0) →
      (next.saving = true → ∀ i txnId, ¬Unfinished config.history i txnId) →
      BackupConfig.Sound {
        shared := config.shared, threads := Function.update config.threads none (.backup next)
        history := config.history } next := by
    intro next same alone settled
    have kept := sound.goes config.shared.db next rfl alone settled
    rwa [same, ← sound.writer] at kept
  have stays := moves place rfl sound.alone sound.settled
  cases place with
  | waiting =>
      by_cases busy : 0 < config.shared.db.activeWriteTxns
      · exact turned (if_pos busy) stays
      · exact turned (if_neg busy) (moves .locking rfl nofun nofun)
  | locking => exact turned rfl (sound.goes _ .draining rfl nofun nofun)
  | draining =>
      by_cases busy : 0 < config.shared.readers
      · exact turned (if_pos busy) stays
      · refine turned (if_neg busy) (moves .waitingAgain rfl ?_ nofun)
        exact fun _ => Nat.eq_zero_of_not_pos busy
  | waitingAgain =>
      by_cases busy : 0 < config.shared.db.activeWriteTxns
      · exact turned (if_pos busy) stays
      · refine turned (if_neg busy) (moves .checkpointing rfl (fun _ => sound.alone rfl) ?_)
        exact fun _ => sound.settled_of_idle (Nat.eq_zero_of_not_pos busy)
  | checkpointing =>
      have kept := sound.goes (finalState checkpointDatabase
        { config.shared.db with session := .new }).toDatabase .archiving rfl
        (fun _ => sound.alone rfl) (fun _ => sound.settled rfl)
      refine turned rfl ?_
      rwa [BackupPlace.excludes, show true = config.shared.writer from sound.writer.symm] at kept
  | archiving => exact turned rfl (sound.goes _ (.finished _) rfl nofun nofun)
  | finished archive => exact turned rfl stays

end BackupConfig.Sound

variable [DecidableEq ι] [Runtime]

/-- Every statement that has been run so far returned `Ok`. -/
def BackupConfig.Accepted (config : BackupConfig ι) : Prop :=
  ∀ entry ∈ config.history, entry.2.isFailed = false

instance (config : BackupConfig ι) : Decidable config.Accepted :=
  inferInstanceAs (Decidable (∀ entry ∈ config.history, entry.2.isFailed = false))

/-- The backup is about to save the tables or to archive them. -/
def BackupConfig.saving (config : BackupConfig ι) : Bool :=
  match config.threads none with
  | .backup place => place.saving
  | .session _ => false

theorem advance_session {i : ι} {client : SessionClient}
    (session : config.threads (some i) = .session client) :
    advance backupSystemStep config (some i) = {
      shared := (sessionStep config.shared client).shared
      threads := Function.update config.threads (some i)
        (.session (sessionStep config.shared client).thread)
      history := config.history ++
        (sessionStep config.shared client).events.map fun event => (some i, event) } := by
  simp only [advance, backupSystemStep, session]

/-- In a turn in which no statement fails a session acts. -/
theorem BackupConfig.Accepted.acts {i : ι} {client : SessionClient}
    (accepted : BackupConfig.Accepted (advance backupSystemStep config (some i)))
    (session : config.threads (some i) = .session client) :
    SessionActs config.shared client (sessionStep config.shared client) := by
  rw [advance_session session] at accepted
  apply sessionStep_acts
  intro e member
  exact Bool.noConfusion (accepted _ (List.mem_append_right _ (List.mem_map_of_mem member)))

/-- A turn keeps what holds unless a statement fails in it. -/
theorem BackupConfig.Sound.turn (sound : config.Sound place) (thread : Option ι)
    (accepted : BackupConfig.Accepted (advance backupSystemStep config thread)) :
    ∃ next, BackupConfig.Sound (advance backupSystemStep config thread) next := by
  cases thread with
  | none => exact ⟨_, sound.backupTurn⟩
  | some i =>
      obtain ⟨client, session, -⟩ := sound.sessions i
      have acts := accepted.acts session
      rw [advance_session session]
      exact ⟨place, sound.session session acts⟩

theorem BackupConfig.Accepted.before {thread : Option ι}
    (accepted : BackupConfig.Accepted (advance backupSystemStep config thread)) :
    config.Accepted :=
  fun entry member => accepted entry (List.mem_append_left _ member)

variable (db : Database) (programs : ι → List Statement) (schedule : List (Option ι))

omit [DecidableEq ι] [Runtime] in
theorem backupSystem_sound : BackupConfig.Sound (backupSystem db programs) .waiting := by
  have nobody : ∀ kind : Participant → Bool, kind (.backup .waiting) = false →
      (∀ program, kind (.session { session := .new, phase := none, program }) = false) →
      Counted (fun thread => kind thread = true) (backupSystem db programs).threads 0 := by
    intro kind backup session
    refine ⟨∅, rfl, fun i => iff_of_false (Finset.notMem_empty i) ?_⟩
    cases i with
    | none => exact Bool.eq_false_iff.mp backup
    | some i => exact Bool.eq_false_iff.mp (session _)
  refine ⟨rfl, fun i => ⟨_, rfl, rfl⟩, ?_, nobody _ rfl fun _ => rfl,
    nobody _ rfl fun _ => rfl, ?_, rfl, nofun, nofun⟩
  · rintro i txnId ⟨before, after, split, -⟩
    exact absurd split.symm (List.append_ne_nil_of_right_ne_nil _ (List.cons_ne_nil _ _))
  · intro i client session left
    cases i with
    | none => cases session
    | some i =>
        cases session
        exact absurd rfl left

/-- In every run in which no statement fails, what holds at the start holds. -/
theorem run_sound
    (accepted : BackupConfig.Accepted
      (run backupSystemStep (backupSystem db programs) schedule)) :
    ∃ place, BackupConfig.Sound (run backupSystemStep (backupSystem db programs) schedule) place := by
  revert accepted
  apply run_invariant backupSystemStep fun config : BackupConfig ι =>
    config.Accepted → ∃ place, config.Sound place
  · intro config thread earlier accepted
    obtain ⟨place, sound⟩ := earlier accepted.before
    exact sound.turn thread accepted
  · exact fun _ => ⟨.waiting, backupSystem_sound db programs⟩

end Runs

section Example

/-- A database with one table. -/
def oneTable : Database :=
  (finalState (@executeSession Runtime.reference [createT]) .fresh).toDatabase

/-- A session with a transaction and one with a statement of its own. -/
def twoPrograms : Fin 2 → List Statement
  | 0 => [.startTransaction, insertT [1], .commit]
  | 1 => [insertT [2]]

/-- The backup waits for the transaction, keeps new readers out, waits for the
statement to drop its guard, and comes to its checkpoint. -/
def twoTurns : List (Option (Fin 2)) :=
  [some 0, some 0, none, some 0, some 0, some 0, some 0, some 0, some 0, some 0, some 0, none,
    some 1, some 1, none, none, some 1, some 1, some 1, some 1, some 1, some 1, none, none]

end Example

end Accounts

end MoodengSQL
