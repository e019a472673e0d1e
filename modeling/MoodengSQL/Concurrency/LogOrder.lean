import MoodengSQL.Concurrency.Logging
import MoodengSQL.Replay.Serial

/-!
# The log of concurrent sessions

A row is changed before its record has a number, and an `INSERT` takes no lock on
the row it adds. In the runs in which no session changes a row while another has
a change of that row still to number, the numbers of a row's records are in the
order of its changes, and opening the log and replaying it gives the rows in memory.
-/

namespace MoodengSQL

open Foundation Foundation.Effect Interleaving Std

section Turns

/-- The record a session has in hand. -/
inductive InHand where
  | nothing
  | unnumbered (op : WalOp)
  | unwritten (entry : WalEntry)

/-- The row a data record is about. -/
def WalOp.rowKey : WalOp → Option RowKey
  | insert _ table rowId _ => some (table, rowId)
  | update _ table rowId _ => some (table, rowId)
  | delete _ table rowId => some (table, rowId)
  | _ => none

/-- The row an `INSERT` adds. -/
def WalOp.insertedRow : WalOp → Option RowKey
  | insert _ table rowId _ => some (table, rowId)
  | _ => none

theorem dataTxnId_eq_none {op : WalOp} (keyless : op.rowKey = none) : op.dataTxnId = none := by
  cases op with
  | insert txnId table rowId row => cases keyless
  | update txnId table rowId row => cases keyless
  | delete txnId table rowId => cases keyless
  | _ => rfl

/-- The record at hand where a statement stands. -/
def LogPlace.inHand : LogPlace → InHand
  | .numbering op _ => .unnumbered op
  | .writing entry _ => .unwritten entry
  | _ => .nothing

/-- The record at hand, if a statement is running. -/
def inHandOf : Option LogPlace → InHand
  | none => .nothing
  | some place => place.inHand

/-- The tables a statement has still to save in its checkpoint, if it is in one. -/
def LogPlace.toSave : LogPlace → Option (List String)
  | .saving names _ => some names
  | .marking _ _ => some []
  | .truncating _ => some []
  | _ => none

/-- The tables still to be saved, if a statement is running. -/
def toSaveOf : Option LogPlace → Option (List String)
  | none => none
  | some place => place.toSave

/-- There is no record at hand, and no checkpoint in progress. -/
def LogPlace.Calm (place : LogPlace) : Prop := place.inHand = .nothing ∧ place.toSave = none

/-- A place belongs to the transaction of its session, and no record or checkpoint
follows another at once. -/
def LogPlace.Within (txnId : Option Nat) : LogPlace → Prop
  | .starting _ _ => True
  | .opened _ _ _ => txnId = none
  | .looping _ own _ _ => txnId = some own
  | .conflicting _ own _ _ _ _ _ => txnId = some own
  | .adding _ own _ _ _ => txnId = some own
  | .rewriting _ own _ _ _ _ => txnId = some own
  | .removing _ own _ _ _ => txnId = some own
  | .indexing _ _ _ next => next.Calm ∧ next.Within txnId
  | .recording _ next => next.Calm ∧ next.Within txnId
  | .closing => txnId = none
  | .numbering op next =>
      (∀ own, op.dataTxnId = some own → txnId = some own) ∧ (∀ own, op ≠ .abort own) ∧
        next.Calm ∧ next.Within txnId
  | .writing _ next => next.Calm ∧ next.Within txnId
  | .checking next => next.Calm ∧ next.Within txnId
  | .saving _ next => next.Calm ∧ next.Within txnId
  | .marking _ next => next.Calm ∧ next.Within txnId
  | .truncating next => next.Calm ∧ next.Within txnId
  | .resetting next => next.Calm ∧ next.Within txnId
  | .persisting => True

/-- Where a session stands, if anywhere, belongs to its transaction. -/
def WithinOf (txnId : Option Nat) : Option LogPlace → Prop
  | none => True
  | some place => place.Within txnId

theorem within_of_calm {txnId : Option Nat} {next : LogPlace}
    (within : next.Calm ∧ next.Within txnId) :
    inHandOf (some next) = .nothing ∧ WithinOf txnId (some next) := ⟨within.1.1, within.2⟩

/-- A transaction is a session's until its commit has a number. -/
def Runs (txnId : Option Nat) (phase : Option LogPlace) (txn : Nat) : Prop :=
  txnId = some txn ∨ inHandOf phase = .unnumbered (.commit txn)

/-- A change of a row and its record. -/
inductive RecordOf (view : RowKey → Option Row) : WalOp → RowKey → Option Row → Prop
  | insert (txnId : Nat) (table : String) (rowId : Nat) (row : Row) :
      RecordOf view (.insert txnId table rowId row) (table, rowId) (some row)
  | update (txnId : Nat) (table : String) (rowId : Nat) (row old : Row)
      (stored : view (table, rowId) = some old) (version : row.version = old.version + 1) :
      RecordOf view (.update txnId table rowId row) (table, rowId) (some row)
  | delete (txnId : Nat) (table : String) (rowId : Nat) (old : Row)
      (stored : view (table, rowId) = some old) :
      RecordOf view (.delete txnId table rowId) (table, rowId) none

/-- The next row id a table gives out. -/
def StorageEngine.nextId (storage : StorageEngine) (table : String) : Nat :=
  (storage.tables.getD table .empty).nextId

/-- The row a turn is about to update or delete. -/
def aimOf : Option LogPlace → Option RowKey
  | some (.rewriting job _ rowId _ _ _) => some (job.table, rowId)
  | some (.removing job _ rowId _ _) => some (job.table, rowId)
  | _ => none

/-- The storage and the session's transaction are as they were. -/
structure LeavesRows (s s' : Executor) : Prop where
  storage : s'.storage = s.storage
  txnId : s'.session.transaction.txnId = s.session.transaction.txnId

instance : IsPreorder Executor LeavesRows where
  refl _ := ⟨rfl, rfl⟩
  trans _ _ _ first second :=
    ⟨second.storage.trans first.storage, second.txnId.trans first.txnId⟩

theorem leavesRows_recordUndo (entry : UndoRecord) : Moves LeavesRows (recordUndo entry) :=
  Moves.write fun s => ⟨rfl, (sameTransaction_record s entry).txnId⟩

theorem leavesRows_removeIndexRow (table : String) (values : List Value)
    (columnNames : List String) (rowId : Nat) :
    Moves LeavesRows (ExecM.removeIndexRow table values columnNames rowId) :=
  Moves.write fun _ => ⟨rfl, rfl⟩

variable [Runtime]

theorem leavesRows_insertIndexRow (table : String) (values : List Value)
    (columnNames : List String) (rowId : Nat) :
    Moves LeavesRows (ExecM.insertIndexRow table values columnNames rowId) :=
  Moves.indexes fun _ => ⟨rfl, rfl⟩

theorem leavesRows_readyRow (job : WriteJob) (assignments : List Assignment)
    (excluded : Option (List Value)) (rowId : Nat) (row : Row) :
    Moves LeavesRows (readyRow job assignments excluded rowId row) :=
  .seq (leavesRows_recordUndo _) fun _ => .seq (leavesRows_removeIndexRow _ _ _ _) fun _ =>
    .seq (Moves.lift _) fun _ => .seq (Moves.lift _) fun _ => .ret _

theorem leavesRows_begin (job : WriteJob) (txnId : Nat) (task : RowTask) (rest : List RowTask)
    (count : Nat) : Moves LeavesRows (task.begin job txnId rest count) := by
  cases task with
  | insert onConflict values =>
      refine .seq (Moves.lift _) fun rowValues => .seq (Moves.lift _) fun _ => ?_
      cases onConflict with
      | none => exact .ret _
      | some conflict =>
          refine .seq .read fun s => .seq (Moves.lift _) fun existing => ?_
          cases existing with
          | none => exact .ret _
          | some existingId => cases conflict.action <;> exact .ret _
  | update assignments whereClause rowId row =>
      refine .seq (Moves.lift _) fun selected => ?_
      cases selected with
      | false => exact .ret _
      | true => exact .seq (leavesRows_readyRow _ _ _ _ _) fun _ => .ret _
  | delete whereClause rowId row =>
      refine .seq (Moves.lift _) fun selected => ?_
      cases selected with
      | false => exact .ret _
      | true =>
          exact .seq (leavesRows_recordUndo _) fun _ =>
            .seq (leavesRows_removeIndexRow _ _ _ _) fun _ => .ret _

theorem leavesRows_readyConflict (job : WriteJob) (txnId : Nat) (proposed : List Value)
    (existingId : Nat) (update : DoUpdate) (rest : List RowTask) (count : Nat) :
    Moves LeavesRows (readyConflict job txnId proposed existingId update rest count) := by
  refine .seq .read fun s => ?_
  cases s.storage.get job.table existingId with
  | none => exact .fail _
  | some existing =>
      have applied : ∀ applies : Bool, Moves LeavesRows
          (if applies then do
            let values ← readyRow job update.assignments (some proposed) existingId existing
            return .rewriting job txnId existingId { existing with values } rest count
          else return .looping job txnId rest (count + 1) : ExecM LogPlace) := by
        intro applies
        cases applies with
        | false => exact .ret _
        | true => exact .seq (leavesRows_readyRow _ _ _ _ _) fun _ => .ret _
      dsimp only
      cases update.selection with
      | none => exact applied true
      | some condition => exact .seq (Moves.lift _) applied

/-- A place in the row loop of a transaction. -/
def LogPlace.InLoop (txnId : Nat) (place : LogPlace) : Prop :=
  place.Calm ∧ place.Within (some txnId)

omit [Runtime] in
theorem returns_inLoop {txnId : Nat} {m : ExecM LogPlace}
    (returns : Returns (LogPlace.InLoop txnId) m) :
    Returns (fun place => inHandOf (some place) = .nothing ∧
      WithinOf (some txnId) (some place)) m := by
  intro s place s' ran
  exact within_of_calm (returns ran)

theorem inLoop_begin (job : WriteJob) (txnId : Nat) (task : RowTask) (rest : List RowTask)
    (count : Nat) : Returns (LogPlace.InLoop txnId) (task.begin job txnId rest count) := by
  cases task with
  | insert onConflict values =>
      refine .seq fun rowValues => .seq fun _ => ?_
      cases onConflict with
      | none => exact .ret ⟨⟨rfl, rfl⟩, rfl⟩
      | some conflict =>
          refine .seq fun s => .seq fun existing => ?_
          cases existing with
          | none => exact .ret ⟨⟨rfl, rfl⟩, rfl⟩
          | some existingId => cases conflict.action <;> exact .ret ⟨⟨rfl, rfl⟩, rfl⟩
  | update assignments whereClause rowId row =>
      refine .seq fun selected => ?_
      cases selected with
      | false => exact .ret ⟨⟨rfl, rfl⟩, rfl⟩
      | true => exact .seq fun _ => .ret ⟨⟨rfl, rfl⟩, rfl⟩
  | delete whereClause rowId row =>
      refine .seq fun selected => ?_
      cases selected with
      | false => exact .ret ⟨⟨rfl, rfl⟩, rfl⟩
      | true => exact .seq fun _ => .seq fun _ => .ret ⟨⟨rfl, rfl⟩, rfl⟩

theorem inLoop_readyConflict (job : WriteJob) (txnId : Nat) (proposed : List Value)
    (existingId : Nat) (update : DoUpdate) (rest : List RowTask) (count : Nat) :
    Returns (LogPlace.InLoop txnId)
      (readyConflict job txnId proposed existingId update rest count) := by
  refine .seq fun s => ?_
  cases s.storage.get job.table existingId with
  | none => exact .fail _
  | some existing =>
      have applied : ∀ applies : Bool, Returns (LogPlace.InLoop txnId)
          (if applies then do
            let values ← readyRow job update.assignments (some proposed) existingId existing
            return .rewriting job txnId existingId { existing with values } rest count
          else return .looping job txnId rest (count + 1) : ExecM LogPlace) := by
        intro applies
        cases applies with
        | false => exact .ret ⟨⟨rfl, rfl⟩, rfl⟩
        | true => exact .seq fun _ => .ret ⟨⟨rfl, rfl⟩, rfl⟩
      dsimp only
      cases update.selection with
      | none => exact applied true
      | some condition => exact .seq applied

/-- What a turn that does not truncate the log can do: nothing that touches the
rows or the log, a change of a row, the number of a record, or its writing. -/
inductive LogTurn (db : Database) (client : Client LogPlace LogCall)
    (turn : Turn Database (Client LogPlace LogCall) WalEntry) : Prop
  | quiet (view : turn.shared.storage.view = db.storage.view)
      (nextIds : ∀ table, db.storage.nextId table ≤ turn.shared.storage.nextId table)
      (file : turn.shared.storage.wal.file = db.storage.wal.file)
      (lsn : turn.shared.storage.wal.lsn = db.storage.wal.lsn)
      (events : turn.events = [])
      (before : inHandOf client.phase = .nothing)
      (after : inHandOf turn.thread.phase = .nothing ∨ ∃ op : WalOp, op.rowKey = none ∧
        inHandOf turn.thread.phase = .unnumbered op)
      (runs : ∀ txn, Runs client.session.transaction.txnId client.phase txn →
        Runs turn.thread.session.transaction.txnId turn.thread.phase txn)
  | changes (op : WalOp) (key : RowKey) (row : Option Row)
      (keyed : op.rowKey = some key)
      (recorded : RecordOf db.storage.view op key row)
      (view : turn.shared.storage.view = Function.update db.storage.view key row)
      (nextIds : ∀ table, db.storage.nextId table ≤ turn.shared.storage.nextId table)
      (bound : key.2 < turn.shared.storage.nextId key.1)
      (place : aimOf client.phase = some key ∨ db.storage.nextId key.1 ≤ key.2)
      (file : turn.shared.storage.wal.file = db.storage.wal.file)
      (lsn : turn.shared.storage.wal.lsn = db.storage.wal.lsn)
      (events : turn.events = [])
      (before : inHandOf client.phase = .nothing)
      (after : inHandOf turn.thread.phase = .unnumbered op)
      (txnId : turn.thread.session.transaction.txnId = client.session.transaction.txnId)
      (own : op.dataTxnId = client.session.transaction.txnId)
  | draws (op : WalOp)
      (tables : turn.shared.storage.tables = db.storage.tables)
      (file : turn.shared.storage.wal.file = db.storage.wal.file)
      (lsn : turn.shared.storage.wal.lsn = db.storage.wal.lsn + 1)
      (events : turn.events = [(db.storage.wal.lsn + 1, op)])
      (before : inHandOf client.phase = .unnumbered op)
      (after : inHandOf turn.thread.phase = .unwritten (db.storage.wal.lsn + 1, op))
      (txnId : turn.thread.session.transaction.txnId = client.session.transaction.txnId)
      (kind : ∀ own, op ≠ .abort own)
  | writes (entry : WalEntry)
      (tables : turn.shared.storage.tables = db.storage.tables)
      (file : turn.shared.storage.wal.file = db.storage.wal.file ++ [entry])
      (lsn : turn.shared.storage.wal.lsn = db.storage.wal.lsn)
      (events : turn.events = [])
      (before : inHandOf client.phase = .unwritten entry)
      (after : inHandOf turn.thread.phase = .nothing)
      (txnId : turn.thread.session.transaction.txnId = client.session.transaction.txnId)

/-- A turn that truncates the log or resets its numbers. -/
def truncatesAt : Option LogPlace → Bool
  | some (.truncating _) => true
  | some (.resetting _) => true
  | _ => false

omit [Runtime]

/-- A turn is accounted for, and its session stays within its transaction. -/
def Accounted (db : Database) (client : Client LogPlace LogCall)
    (turn : Turn Database (Client LogPlace LogCall) WalEntry) : Prop :=
  LogTurn db client turn ∧ WithinOf turn.thread.session.transaction.txnId turn.thread.phase

/-- A turn that leaves the storage and the transaction as they are. -/
theorem accounted_of_leavesRows {db : Database} {client : Client LogPlace LogCall} {α : Type}
    {m : ExecM α} {next : α → Option LogPlace} (moves : Moves LeavesRows m)
    (returns : Returns (fun a => inHandOf (next a) = .nothing ∧
      WithinOf client.session.transaction.txnId (next a)) m)
    (before : inHandOf client.phase = .nothing) :
    Accounted db client (client.perform db m next fun _ => []) := by
  have runs : ∀ txn, Runs client.session.transaction.txnId client.phase txn →
      client.session.transaction.txnId = some txn := by
    rintro txn (own | commits)
    · exact own
    · rw [before] at commits
      cases commits
  apply Client.perform_cases fun turn => Accounted db client turn
  · intro a s ran
    obtain ⟨storage, txnId⟩ := moves.of_ok ran
    obtain ⟨after, within⟩ := returns ran
    refine ⟨.quiet (by rw [storage]; rfl) (fun table => by rw [storage]; exact Nat.le_refl _)
      (by rw [storage]; rfl) (by rw [storage]; rfl) rfl before (.inl after)
      fun txn own => .inl (txnId.trans (runs txn own)), ?_⟩
    rw [txnId]
    exact within
  · intro e s failed
    obtain ⟨storage, txnId⟩ := moves.of_error failed
    exact ⟨.quiet (by rw [storage]; rfl) (fun table => by rw [storage]; exact Nat.le_refl _)
      (by rw [storage]; rfl) (by rw [storage]; rfl) rfl before (.inl rfl)
      fun txn own => .inl (txnId.trans (runs txn own)), trivial⟩

theorem nextId_insert (storage : StorageEngine) (table name : String) (data : TableData) :
    StorageEngine.nextId { storage with tables := storage.tables.insert table data } name =
      if name = table then data.nextId else storage.nextId name := by
  simp only [StorageEngine.nextId, ExtTreeMap.getD_insert, Std.compare_eq_iff_eq,
    eq_comm (a := table)]
  split <;> rfl

theorem nextId_of_getElem? {storage : StorageEngine} {table : String} {data : TableData}
    (found : storage.tables[table]? = some data) : storage.nextId table = data.nextId := by
  rw [StorageEngine.nextId, ExtTreeMap.getD_eq_getD_getElem?, found, Option.getD_some]

/-- `insert` in memory takes the next id of the table. -/
theorem insertInMemory_spec (storage : StorageEngine) (table : String) (row : Row) :
    let inserted := storage.insertInMemory table row
    inserted.1 = storage.nextId table ∧
      inserted.2.wal = storage.wal ∧
      inserted.2.view = Function.update storage.view (table, inserted.1) (some row) ∧
      (∀ name, storage.nextId name ≤ inserted.2.nextId name) ∧
      inserted.1 < inserted.2.nextId table := by
  refine ⟨rfl, rfl, ?_, fun name => ?_, ?_⟩
  · exact tablesView_insert_eq_update (view_of_getD storage.tables table)
      fun id => TableData.rows_insert _ _ id row
  · refine le_of_le_of_eq ?_ (nextId_insert storage table name _).symm
    split
    · rename_i same
      subst same
      exact Nat.le_succ _
    · exact Nat.le_refl _
  · refine lt_of_lt_of_eq ?_ (nextId_insert storage table table _).symm
    rw [if_pos rfl]
    exact Nat.lt_succ_self _

/-- `update` in memory replaces a row by its next version, or finds none. -/
theorem updateInMemory_spec {storage storage' : StorageEngine} {table : String} {rowId : Nat}
    {row : Row} {expectedVersion : Nat} {stored : Option Row}
    (ran : storage.updateInMemory table rowId row expectedVersion = .ok (stored, storage')) :
    stored = none ∧ storage' = storage ∨
      ∃ old new, stored = some new ∧ storage.view (table, rowId) = some old ∧
        new.version = old.version + 1 ∧ storage'.wal = storage.wal ∧
        storage'.view = Function.update storage.view (table, rowId) (some new) ∧
        (∀ name, storage'.nextId name = storage.nextId name) ∧ rowId < storage.nextId table := by
  unfold StorageEngine.updateInMemory at ran
  cases found : storage.tables[table]? with
  | none =>
      rw [found] at ran
      cases ran
  | some data =>
      rw [found] at ran
      dsimp only at ran
      split at ran
      · rename_i present
        have stored : data.rows[rowId]? = some data.rows[rowId] :=
          ExtTreeMap.getElem?_eq_some_getElem present
        split at ran
        · cases ran
        · rename_i expected
          cases ran
          refine .inr ⟨_, _, rfl, (view_of_getElem? found rowId).symm.trans stored,
            congrArg (· + 1) (Decidable.not_not.mp expected).symm, rfl, ?_, fun name => ?_, ?_⟩
          · exact tablesView_insert_eq_update (view_of_getElem? found)
              fun id => TableData.rows_insert _ _ id _
          · rw [nextId_insert]
            split
            · rename_i same
              subst same
              exact (nextId_of_getElem? found).symm
            · rfl
          · rw [nextId_of_getElem? found]
            exact data.fresh rowId present
      · cases ran
        exact .inl ⟨rfl, rfl⟩

/-- `delete` in memory takes a row away, or finds none. -/
theorem deleteInMemory_spec {storage storage' : StorageEngine} {table : String} {rowId : Nat}
    {deleted : Bool}
    (ran : storage.deleteInMemory table rowId = .ok (deleted, storage')) :
    storage'.wal = storage.wal ∧
      storage'.view = Function.update storage.view (table, rowId) none ∧
      (∀ name, storage'.nextId name = storage.nextId name) ∧
      (deleted = true → rowId < storage.nextId table) ∧
      deleted = (storage.view (table, rowId)).isSome := by
  unfold StorageEngine.deleteInMemory at ran
  cases found : storage.tables[table]? with
  | none =>
      rw [found] at ran
      cases ran
  | some data =>
      rw [found] at ran
      obtain ⟨existed, rfl⟩ := Prod.mk.inj (Except.ok.inj ran)
      have row : data.rows[rowId]? = storage.view (table, rowId) := view_of_getElem? found rowId
      have member : rowId ∈ data.rows ↔ data.rows[rowId]?.isSome = true :=
        ExtTreeMap.mem_iff_isSome_getElem?
      refine ⟨rfl, ?_, fun name => ?_, fun gone => ?_, existed.symm.trans ?_⟩
      · exact tablesView_insert_eq_update (view_of_getElem? found)
          fun id => TableData.rows_erase _ _ id
      · rw [nextId_insert]
        split
        · rename_i same
          subst same
          exact (nextId_of_getElem? found).symm
        · rfl
      · rw [nextId_of_getElem? found]
        exact data.fresh rowId (of_decide_eq_true (existed.trans gone))
      · rw [← row, Bool.eq_iff_iff, decide_eq_true_iff]
        exact member

theorem moves_some {α : Type} {rel : Executor → Executor → Prop} [IsPreorder Executor rel]
    {m : ExecM α} (moves : Moves rel m) : Moves rel (some <$> m) := by
  rw [map_eq_pure_bind]
  exact .seq moves fun _ => .ret _

/-- A turn that leaves tables, log and session as they are. -/
theorem accounted_of_frame {db shared : Database} {client : Client LogPlace LogCall}
    {phase : Option LogPlace} (tables : shared.storage.tables = db.storage.tables)
    (file : shared.storage.wal.file = db.storage.wal.file)
    (lsn : shared.storage.wal.lsn = db.storage.wal.lsn)
    (before : inHandOf client.phase = .nothing) (after : inHandOf phase = .nothing)
    (within : WithinOf client.session.transaction.txnId phase) :
    Accounted db client { shared, thread := { client with phase }, events := [] } := by
  refine ⟨.quiet (congrArg tablesView tables) (fun table => ?_) file lsn rfl before (.inl after)
    fun txn own => ?_, within⟩
  · rw [StorageEngine.nextId, StorageEngine.nextId, tables]
  · rcases own with own | commits
    · exact .inl own
    · rw [before] at commits
      cases commits

/-- A turn in which nothing happens but that the statement ends or goes on. -/
theorem accounted_of_same {db : Database} {client : Client LogPlace LogCall}
    {phase : Option LogPlace} (before : inHandOf client.phase = .nothing)
    (after : inHandOf phase = .nothing)
    (within : WithinOf client.session.transaction.txnId phase) :
    Accounted db client { shared := db, thread := { client with phase }, events := [] } :=
  accounted_of_frame rfl rfl rfl before after within

theorem accounted_enter (db : Database) (client : Client LogPlace LogCall) (job : WriteJob)
    (tasks : List RowTask) (before : inHandOf client.phase = .nothing) :
    Accounted db client
      (client.perform db (some <$> enterTransaction job tasks) id fun _ => []) := by
  obtain ⟨⟨⟨active, txnId, undo⟩, autoCommit⟩, phase, program⟩ := client
  cases txnId with
  | some txnId => exact accounted_of_same before rfl rfl
  | none =>
      cases active with
      | true => exact accounted_of_same before rfl trivial
      | false =>
          refine ⟨.quiet rfl (fun _ => Nat.le_refl _) rfl rfl rfl before
            (.inr ⟨.begin _, rfl, rfl⟩) ?_, fun _ data => (by cases data),
            fun _ abort => WalOp.noConfusion abort, ⟨rfl, rfl⟩, rfl⟩
          rintro txn (own | commits)
          · cases own
          · rw [before] at commits
            cases commits

theorem accounted_leave (db : Database) (client : Client LogPlace LogCall)
    (before : inHandOf client.phase = .nothing) :
    Accounted db client (client.perform db leaveTransaction id fun _ => []) := by
  obtain ⟨⟨⟨active, txnId, undo⟩, autoCommit⟩, phase, program⟩ := client
  cases autoCommit with
  | false => exact accounted_of_same before rfl trivial
  | true =>
      cases txnId with
      | none => exact accounted_of_same before rfl trivial
      | some own =>
          refine ⟨.quiet rfl (fun _ => Nat.le_refl _) rfl rfl rfl before
            (.inr ⟨.commit own, rfl, rfl⟩) ?_, fun _ data => (by cases data),
            fun _ abort => WalOp.noConfusion abort, ⟨rfl, rfl⟩, rfl⟩
          rintro txn (same | commits)
          · cases same
            exact .inr rfl
          · rw [before] at commits
            cases commits

variable [Runtime]

theorem accounted_rewriting (db : Database) (client : Client LogPlace LogCall) (job : WriteJob)
    (txnId rowId : Nat) (row : Row) (rest : List RowTask) (count : Nat)
    (stands : client.phase = some (.rewriting job txnId rowId row rest count))
    (own : client.session.transaction.txnId = some txnId) :
    Accounted db client (client.perform db
      (LogPlace.rewriting job txnId rowId row rest count).run id fun _ => []) := by
  have before : inHandOf client.phase = .nothing := by rw [stands]; rfl
  apply Client.perform_cases fun turn => Accounted db client turn
  · intro next s ran
    obtain ⟨stored, mid, changed, ended⟩ := bind_eq_ok.mp ran
    obtain ⟨storage, accepted, rfl⟩ := ExecM.liftStorage_eq_ok.mp changed
    rcases updateInMemory_spec accepted with ⟨rfl, same⟩ | ⟨old, new, rfl, present, version,
      wal, view, nextIds, bound⟩
    · obtain ⟨rfl, rfl⟩ := pure_eq_ok.mp ended
      have unchanged : storage = db.storage := same
      rw [unchanged]
      exact accounted_of_same before rfl ⟨⟨rfl, rfl⟩, own⟩
    · obtain ⟨rfl, rfl⟩ := pure_eq_ok.mp ended
      refine ⟨.changes _ _ _ rfl (.update txnId job.table rowId new old present version) view
        (fun name => Nat.le_of_eq (nextIds name).symm) (bound.trans_eq (nextIds _).symm)
        (.inl (by rw [stands]; rfl)) (congrArg WriteAheadLog.file wal)
        (congrArg WriteAheadLog.lsn wal) rfl before rfl rfl own.symm, ?_⟩
      exact ⟨fun other same => own.trans same, fun _ abort => WalOp.noConfusion abort, ⟨rfl, rfl⟩,
        ⟨rfl, rfl⟩, ⟨rfl, rfl⟩, own⟩
  · intro e s failed
    rcases bind_eq_error.mp failed with refused | ⟨stored, mid, -, ended⟩
    · obtain ⟨-, rfl⟩ := ExecM.liftStorage_eq_error.mp refused
      exact accounted_of_same before rfl trivial
    · cases stored <;> cases ended

theorem accounted_removing (db : Database) (client : Client LogPlace LogCall) (job : WriteJob)
    (txnId rowId : Nat) (rest : List RowTask) (count : Nat)
    (stands : client.phase = some (.removing job txnId rowId rest count))
    (own : client.session.transaction.txnId = some txnId) :
    Accounted db client (client.perform db
      (LogPlace.removing job txnId rowId rest count).run id fun _ => []) := by
  have before : inHandOf client.phase = .nothing := by rw [stands]; rfl
  apply Client.perform_cases fun turn => Accounted db client turn
  · intro next s ran
    obtain ⟨deleted, mid, changed, ended⟩ := bind_eq_ok.mp ran
    obtain ⟨storage, accepted, rfl⟩ := ExecM.liftStorage_eq_ok.mp changed
    obtain ⟨wal, view, nextIds, bound, existed⟩ := deleteInMemory_spec accepted
    cases deleted with
    | false =>
        obtain ⟨rfl, rfl⟩ := pure_eq_ok.mp ended
        have absent : db.storage.view (job.table, rowId) = none :=
          Option.isSome_eq_false_iff.mp existed.symm |> Option.isNone_iff_eq_none.mp
        have same : storage.view = db.storage.view :=
          view.trans (Function.update_eq_self_iff.mpr absent.symm)
        refine ⟨.quiet same (fun name => Nat.le_of_eq (nextIds name).symm)
          (congrArg WriteAheadLog.file wal) (congrArg WriteAheadLog.lsn wal) rfl before (.inl rfl)
          fun txn runs => ?_, own⟩
        rcases runs with same | commits
        · exact .inl same
        · rw [before] at commits
          cases commits
    | true =>
        obtain ⟨rfl, rfl⟩ := pure_eq_ok.mp ended
        obtain ⟨old, present⟩ := Option.isSome_iff_exists.mp existed.symm
        refine ⟨.changes _ _ _ rfl (.delete txnId job.table rowId old present) view
          (fun name => Nat.le_of_eq (nextIds name).symm) ((bound rfl).trans_eq (nextIds _).symm)
          (.inl (by rw [stands]; rfl)) (congrArg WriteAheadLog.file wal)
          (congrArg WriteAheadLog.lsn wal) rfl before rfl rfl own.symm, ?_⟩
        exact ⟨fun other same => own.trans same, fun _ abort => WalOp.noConfusion abort, ⟨rfl, rfl⟩,
          ⟨rfl, rfl⟩, own⟩
  · intro e s failed
    rcases bind_eq_error.mp failed with refused | ⟨deleted, mid, -, ended⟩
    · obtain ⟨-, rfl⟩ := ExecM.liftStorage_eq_error.mp refused
      exact accounted_of_same before rfl trivial
    · cases deleted <;> cases ended

/-- A call begins outside its transaction, with no record at hand. -/
theorem started_place {db : Database} {call : LogCall} {place : LogPlace}
    (started : call.start db = .ok place) (txnId : Option Nat) :
    place.inHand = .nothing ∧ place.Within txnId := by
  cases call with
  | insert stmt =>
      cases source : stmt.source with
      | none =>
          simp only [LogCall.start, source] at started
          cases started
      | some query =>
          simp only [LogCall.start, source] at started
          obtain ⟨schema, -, started⟩ := except_bind_eq_ok.mp started
          obtain ⟨rows, -, started⟩ := except_bind_eq_ok.mp started
          obtain ⟨onConflict, -, started⟩ := except_bind_eq_ok.mp started
          cases started
          exact ⟨rfl, trivial⟩
  | update table assignments whereClause =>
      obtain ⟨schema, -, started⟩ := except_bind_eq_ok.mp started
      cases started
      exact ⟨rfl, trivial⟩
  | delete table whereClause =>
      obtain ⟨schema, -, started⟩ := except_bind_eq_ok.mp started
      cases started
      exact ⟨rfl, trivial⟩
  | checkpoint =>
      cases started
      exact ⟨rfl, ⟨rfl, rfl⟩, trivial⟩

/-- **What a turn does.** A turn that does not truncate the log leaves rows and log
alone, changes a row, numbers a record, or writes one; the session stays within
its transaction. -/
theorem logStep_cases {db : Database} {client : Client LogPlace LogCall}
    (within : WithinOf client.session.transaction.txnId client.phase)
    (keeps : truncatesAt client.phase = false) : Accounted db client (logStep db client) := by
  obtain ⟨session, phase, program⟩ := client
  cases phase with
  | none =>
      cases program with
      | nil => exact accounted_of_same rfl rfl trivial
      | cons call rest =>
          have goesOn : ∀ phase : Option LogPlace, inHandOf phase = .nothing →
              WithinOf session.transaction.txnId phase →
              Accounted db ⟨session, none, call :: rest⟩
                { shared := db, thread := ⟨session, phase, rest⟩, events := [] } := by
            intro phase after within
            refine ⟨.quiet rfl (fun _ => Nat.le_refl _) rfl rfl rfl rfl (.inl after) ?_, within⟩
            rintro txn (own | commits)
            · exact .inl own
            · cases commits
          dsimp only [logStep]
          cases started : call.start db with
          | error e => exact goesOn none rfl trivial
          | ok place =>
              obtain ⟨after, within⟩ := started_place started session.transaction.txnId
              exact goesOn (some place) after within
  | some place =>
      cases place with
      | starting job tasks => exact accounted_enter db _ job tasks rfl
      | opened job txnId tasks =>
          have idle : session.transaction.txnId = none := within
          refine ⟨.quiet rfl (fun _ => Nat.le_refl _) rfl rfl rfl rfl (.inl rfl) ?_, rfl⟩
          rintro txn (own | commits)
          · cases idle.symm.trans own
          · cases commits
      | looping job txnId tasks count =>
          have own : session.transaction.txnId = some txnId := within
          cases tasks with
          | nil => exact accounted_leave db _ rfl
          | cons task rest =>
              refine accounted_of_leavesRows (moves_some (leavesRows_begin _ _ _ _ _))
                (returns_some ?_) rfl
              dsimp only
              rw [own]
              exact returns_inLoop (inLoop_begin job txnId task rest count)
      | conflicting job txnId proposed existingId update rest count =>
          have own : session.transaction.txnId = some txnId := within
          refine accounted_of_leavesRows (moves_some (leavesRows_readyConflict _ _ _ _ _ _ _))
            (returns_some ?_) rfl
          dsimp only
          rw [own]
          exact returns_inLoop
            (inLoop_readyConflict job txnId proposed existingId update rest count)
      | adding job txnId rowValues rest count =>
          have own : session.transaction.txnId = some txnId := within
          obtain ⟨next, wal, view, nextIds, bound⟩ :=
            insertInMemory_spec db.storage job.table (Row.new rowValues)
          refine ⟨.changes _ _ _ rfl (.insert txnId job.table _ (Row.new rowValues)) view nextIds
            bound (.inr (Nat.le_of_eq next.symm)) rfl rfl rfl rfl rfl rfl own.symm, ?_⟩
          exact ⟨fun other same => own.trans same, fun _ abort => WalOp.noConfusion abort,
            ⟨rfl, rfl⟩, ⟨rfl, rfl⟩, ⟨rfl, rfl⟩, ⟨rfl, rfl⟩, own⟩
      | rewriting job txnId rowId row rest count =>
          exact accounted_rewriting db _ job txnId rowId row rest count rfl within
      | removing job txnId rowId rest count =>
          exact accounted_removing db _ job txnId rowId rest count rfl within
      | indexing job rowId values next =>
          exact accounted_of_leavesRows (.seq (leavesRows_insertIndexRow _ _ _ _) fun _ => .ret _)
            (.seq fun _ => .ret (within_of_calm within)) rfl
      | recording entry next =>
          exact accounted_of_leavesRows (.seq (leavesRows_recordUndo _) fun _ => .ret _)
            (.seq fun _ => .ret (within_of_calm within)) rfl
      | closing =>
          have idle : session.transaction.txnId = none := within
          refine ⟨.quiet rfl (fun _ => Nat.le_refl _) rfl rfl rfl rfl (.inl rfl) ?_, trivial⟩
          rintro txn (own | commits)
          · cases idle.symm.trans own
          · cases commits
      | numbering op next =>
          obtain ⟨-, kind, apart, later⟩ := within
          exact ⟨.draws op rfl rfl rfl rfl rfl rfl rfl kind, apart, later⟩
      | writing entry next => exact ⟨.writes entry rfl rfl rfl rfl rfl within.1.1 rfl, within.2⟩
      | checking next =>
          refine accounted_of_leavesRows (.seq .read fun s => ?_) (.seq fun s => ?_) rfl
          · split <;> exact .ret _
          · split
            · exact .ret ⟨rfl, within⟩
            · exact .ret (within_of_calm within)
      | saving names next =>
          cases names with
          | nil =>
              exact accounted_of_leavesRows (.seq .read fun s => .ret _)
                (.seq fun s => .ret ⟨rfl, within⟩) rfl
          | cons table names =>
              have wal := StorageEngine.wal_persistTable db.storage table
              exact accounted_of_frame (StorageEngine.tables_persistTable db.storage table)
                (congrArg WriteAheadLog.file wal) (congrArg WriteAheadLog.lsn wal) rfl rfl within
      | marking lsn next => exact accounted_of_frame rfl rfl rfl rfl rfl within
      | truncating next => cases keeps
      | resetting next => cases keeps
      | persisting => exact accounted_of_frame rfl rfl rfl rfl rfl trivial

end Turns

section Marks

/-- The checkpoint file is as it was. -/
def KeepsMark (s s' : Executor) : Prop :=
  s'.storage.wal.checkpointFile = s.storage.wal.checkpointFile

instance : IsPreorder Executor KeepsMark where
  refl _ := rfl
  trans _ _ _ first second := Eq.trans second first

theorem keepsMark_of_leavesRows {α : Type} {m : ExecM α} (moves : Moves LeavesRows m) :
    Moves KeepsMark m :=
  fun s => congrArg (fun storage : StorageEngine => storage.wal.checkpointFile) (moves s).storage

theorem keepsMark_enter (job : WriteJob) (tasks : List RowTask) :
    Moves KeepsMark (enterTransaction job tasks) := by
  refine .seq .read fun s => ?_
  cases s.session.transaction.txnId with
  | some txnId => exact .ret _
  | none =>
      have begins : Moves KeepsMark (do
          modify fun s => { s with
            storage := { s.storage with wal := s.storage.wal.allocTxnId.2 } }
          return .numbering (.begin s.storage.wal.allocTxnId.1)
            (.opened job s.storage.wal.allocTxnId.1 tasks) : ExecM LogPlace) :=
        .seq (.write fun _ => rfl) fun _ => .ret _
      dsimp only
      split
      · exact .seq (.fail _) fun _ => begins
      · exact begins

theorem keepsMark_leave : Moves KeepsMark leaveTransaction := by
  refine .seq .read fun s => ?_
  dsimp only
  split
  · split
    · exact .fail _
    · exact .seq (.write fun _ => rfl) fun _ => .ret _
  · exact .ret _

variable [Runtime]

/-- Only marking a checkpoint writes its file. -/
theorem keepsMark_run {place : LogPlace} (other : ∀ lsn next, place ≠ .marking lsn next) :
    Moves KeepsMark place.run := by
  cases place with
  | starting job tasks => exact moves_some (keepsMark_enter job tasks)
  | looping job txnId tasks count =>
      cases tasks with
      | nil => exact keepsMark_leave
      | cons task rest =>
          exact moves_some (keepsMark_of_leavesRows (leavesRows_begin job txnId task rest count))
  | conflicting job txnId proposed existingId update rest count =>
      exact moves_some (keepsMark_of_leavesRows
        (leavesRows_readyConflict job txnId proposed existingId update rest count))
  | adding job txnId rowValues rest count =>
      refine .seq (Moves.storage fun s rowId storage ran => ?_) fun _ => .ret _
      cases ran
      rfl
  | rewriting job txnId rowId row rest count =>
      refine .seq (Moves.storage fun s stored storage ran => ?_) fun stored => ?_
      · rcases updateInMemory_spec ran with ⟨-, rfl⟩ | ⟨_, _, -, -, -, wal, -⟩
        · rfl
        · exact congrArg WriteAheadLog.checkpointFile wal
      · cases stored <;> exact .ret _
  | removing job txnId rowId rest count =>
      refine .seq (Moves.storage fun s deleted storage ran => ?_) fun deleted => ?_
      · exact congrArg WriteAheadLog.checkpointFile (deleteInMemory_spec ran).1
      · cases deleted <;> exact .ret _
  | indexing job rowId values next =>
      exact .seq (keepsMark_of_leavesRows (leavesRows_insertIndexRow _ _ _ _)) fun _ => .ret _
  | recording entry next =>
      exact .seq (keepsMark_of_leavesRows (leavesRows_recordUndo _)) fun _ => .ret _
  | checking next =>
      refine .seq .read fun s => ?_
      split <;> exact .ret _
  | numbering op next => exact .seq .read fun _ => .seq (.write fun _ => rfl) fun _ => .ret _
  | saving names next =>
      cases names with
      | nil => exact .seq .read fun _ => .ret _
      | cons table names =>
          refine .seq (.write fun s => ?_) fun _ => .ret _
          exact congrArg WriteAheadLog.checkpointFile (StorageEngine.wal_persistTable s.storage table)
  | marking lsn next => exact absurd rfl (other lsn next)
  | _ => exact .seq (.write fun _ => rfl) fun _ => .ret _

/-- A turn leaves the checkpoint file, or is followed by a truncation. -/
theorem logStep_marks (db : Database) (client : Client LogPlace LogCall) :
    (logStep db client).shared.storage.wal.checkpointFile = db.storage.wal.checkpointFile ∨
      truncatesAt (logStep db client).thread.phase = true := by
  have kept : ∀ {α : Type} {m : ExecM α} {thread : Client LogPlace LogCall}
      {next : α → Option LogPlace} {report : Except Failure α → List WalEntry},
      Moves KeepsMark m →
      (thread.perform db m next report).shared.storage.wal.checkpointFile =
        db.storage.wal.checkpointFile := by
    intro α m thread next report moves
    apply Client.perform_cases fun turn : Turn Database (Client LogPlace LogCall) WalEntry =>
      turn.shared.storage.wal.checkpointFile = db.storage.wal.checkpointFile
    · exact fun a s ran => moves.of_ok ran
    · exact fun e s failed => moves.of_error failed
  obtain ⟨session, phase, program⟩ := client
  cases phase with
  | none =>
      cases program with
      | nil => exact .inl rfl
      | cons call rest => exact .inl (kept (Moves.lift _))
  | some place =>
      by_cases marks : ∃ lsn next, place = .marking lsn next
      · obtain ⟨lsn, next, rfl⟩ := marks
        exact .inr rfl
      · exact .inl (kept (keepsMark_run fun lsn next same => marks ⟨lsn, next, same⟩))

end Marks

section Runs

variable {ι : Type}

/-- Sessions at work, with the numbers that have been drawn. -/
abbrev Logging (ι : Type) := Configuration ι Database (Client LogPlace LogCall) WalEntry

/-- The records that have numbers, in the order they got them. -/
def Logging.drawn (config : Logging ι) : List WalEntry := config.history.map Prod.snd

/-- The record a session has in hand. -/
def Logging.held (config : Logging ι) (i : ι) : InHand := inHandOf (config.threads i).phase

/-- The row of a record that has no number yet. -/
def InHand.unnumberedKey : InHand → Option RowKey
  | .unnumbered op => op.rowKey
  | _ => none

/-- What is written is what has a number, up to the records sessions have in hand. -/
structure Logging.Numbered (config : Logging ι) : Prop where
  ascending : Ascending config.drawn
  low : ∀ entry ∈ config.drawn, entry.1 ≤ config.shared.storage.wal.lsn
  written : ∀ entry, entry ∈ config.drawn ↔
    entry ∈ config.shared.storage.wal.file ∨ ∃ i, config.held i = .unwritten entry
  once : config.shared.storage.wal.file.Nodup
  apart : ∀ i entry, config.held i = .unwritten entry → entry ∉ config.shared.storage.wal.file
  alone : ∀ i j entry, config.held i = .unwritten entry → config.held j = .unwritten entry → i = j

/-- The transaction of a change is committed, or still a session's. -/
structure Logging.Owned (config : Logging ι) : Prop where
  within : ∀ i, WithinOf (config.threads i).session.transaction.txnId (config.threads i).phase
  kinds : ∀ entry ∈ config.drawn, ∀ txn, entry.2 ≠ .abort txn
  owned : ∀ txn, ((∃ entry ∈ config.drawn, entry.2.dataTxnId = some txn) ∨
      ∃ i op, config.held i = .unnumbered op ∧ op.dataTxnId = some txn) →
    (∃ lsn, (lsn, .commit txn) ∈ config.drawn) ∨
      ∃ i, Runs (config.threads i).session.transaction.txnId (config.threads i).phase txn

/-- A session has a change of a row in hand whose record has no number yet. -/
def Logging.Pending (config : Logging ι) (i : ι) (op : WalOp) (key : RowKey) : Prop :=
  config.held i = .unnumbered op ∧ op.rowKey = some key

/-- Replaying the records that have numbers gives the rows in memory, up to the
changes that have none yet, at most one for each row. -/
structure Logging.Follows [Runtime] (start : StorageEngine) (config : Logging ι) : Prop where
  replays : ∃ replayed, foldWalOps start config.drawn = .ok replayed ∧
    (∀ key, (∀ i op, ¬config.Pending i op key) →
      config.shared.storage.view key = replayed.view key) ∧
    ∀ i op key, config.Pending i op key →
      RecordOf replayed.view op key (config.shared.storage.view key)
  alone : ∀ i j op op' key, config.Pending i op key → config.Pending j op' key → i = j
  below : ∀ i op key, config.Pending i op key → key.2 < config.shared.storage.nextId key.1

/-- The condition on a turn: the log is not truncated, and an update or delete finds
no change of its row that has no number yet. Row locks see to it that such a change
is no update or delete, but an `INSERT` takes none. -/
def Logging.ChangesNumbered (config : Logging ι) (i : ι) : Prop :=
  truncatesAt (config.threads i).phase = false ∧
    (aimOf (config.threads i).phase ≠ none →
      ∀ j, (config.held j).unnumberedKey ≠ aimOf (config.threads i).phase)

instance [Fintype ι] (config : Logging ι) (i : ι) : Decidable (config.ChangesNumbered i) :=
  inferInstanceAs (Decidable (_ ∧ (_ → ∀ _, _)))

/-- A configuration after a turn of a session. -/
structure Logging.Advanced (config config' : Logging ι) (i : ι)
    (turn : Turn Database (Client LogPlace LogCall) WalEntry) : Prop where
  shared : config'.shared = turn.shared
  drawn : config'.drawn = config.drawn ++ turn.events
  own : config'.threads i = turn.thread
  others : ∀ j, j ≠ i → config'.threads j = config.threads j

theorem Logging.advanced [DecidableEq ι] [Runtime] (config : Logging ι) (i : ι) :
    config.Advanced (advance logStep config i) i (logStep config.shared (config.threads i)) where
  shared := rfl
  drawn := by simp [Logging.drawn, advance]
  own := Function.update_self _ _ _
  others := fun _ other => Function.update_of_ne other _ _

section Turn

variable {config config' : Logging ι} {i : ι}
  {turn : Turn Database (Client LogPlace LogCall) WalEntry}

section Hands

variable (advanced : config.Advanced config' i turn)

include advanced

theorem Logging.Advanced.held_own : config'.held i = inHandOf turn.thread.phase := by
  rw [Logging.held, advanced.own]

theorem Logging.Advanced.held_other {j : ι} (other : j ≠ i) : config'.held j = config.held j := by
  rw [Logging.held, advanced.others j other]
  rfl

/-- What no turn of the session has made or taken is in the same hands. -/
theorem Logging.Advanced.held_iff {hand : InHand}
    (before : config.held i ≠ hand) (after : inHandOf turn.thread.phase ≠ hand) (j : ι) :
    config'.held j = hand ↔ config.held j = hand := by
  by_cases same : j = i
  · subst same
    rw [advanced.held_own]
    exact ⟨fun now => absurd now after, fun was => absurd was before⟩
  · rw [advanced.held_other same]

/-- The sessions stay within their transactions if the one whose turn it was does. -/
theorem Logging.Advanced.within
    (before : ∀ j, WithinOf (config.threads j).session.transaction.txnId (config.threads j).phase)
    (own : WithinOf turn.thread.session.transaction.txnId turn.thread.phase) (j : ι) :
    WithinOf (config'.threads j).session.transaction.txnId (config'.threads j).phase := by
  by_cases same : j = i
  · subst same
    rw [advanced.own]
    exact own
  · rw [advanced.others j same]
    exact before j

end Hands

/-- Numbering goes on when nothing is numbered or written. -/
theorem Logging.Numbered.of_same (numbered : config.Numbered)
    (file : config'.shared.storage.wal.file = config.shared.storage.wal.file)
    (lsn : config'.shared.storage.wal.lsn = config.shared.storage.wal.lsn)
    (drawn : config'.drawn = config.drawn)
    (held : ∀ j entry, config'.held j = .unwritten entry ↔ config.held j = .unwritten entry) :
    config'.Numbered where
  ascending := drawn ▸ numbered.ascending
  low := by
    rw [drawn, lsn]
    exact numbered.low
  written := by
    intro entry
    simp only [drawn, file, held]
    exact numbered.written entry
  once := file ▸ numbered.once
  apart := by
    intro j entry unwritten
    rw [file]
    exact numbered.apart j entry ((held j entry).mp unwritten)
  alone := by
    intro j k entry first second
    exact numbered.alone j k entry ((held j entry).mp first) ((held k entry).mp second)

/-- A record gets the next number. -/
theorem Logging.Numbered.draw (numbered : config.Numbered)
    (advanced : config.Advanced config' i turn) {op : WalOp}
    (file : turn.shared.storage.wal.file = config.shared.storage.wal.file)
    (lsn : turn.shared.storage.wal.lsn = config.shared.storage.wal.lsn + 1)
    (events : turn.events = [(config.shared.storage.wal.lsn + 1, op)])
    (before : inHandOf (config.threads i).phase = .unnumbered op)
    (after : inHandOf turn.thread.phase = .unwritten (config.shared.storage.wal.lsn + 1, op)) :
    config'.Numbered := by
  have drawn := advanced.drawn
  rw [events] at drawn
  have file' : config'.shared.storage.wal.file = config.shared.storage.wal.file := by
    rw [advanced.shared, file]
  have lsn' : config'.shared.storage.wal.lsn = config.shared.storage.wal.lsn + 1 := by
    rw [advanced.shared, lsn]
  have kept : ∀ j entry, config.held j = .unwritten entry → j ≠ i := by
    rintro j entry unwritten rfl
    cases before.symm.trans unwritten
  have known : ∀ entry, entry ∈ config.shared.storage.wal.file → entry ∈ config.drawn :=
    fun entry member => (numbered.written entry).mpr (.inl member)
  have fresh : (config.shared.storage.wal.lsn + 1, op) ∉ config.drawn :=
    fun member => Nat.not_succ_le_self _ (numbered.low _ member)
  refine ⟨?_, ?_, fun entry => ?_, file' ▸ numbered.once, fun j entry unwritten => ?_,
    fun j k entry first second => ?_⟩
  · rw [drawn]
    refine List.pairwise_append.mpr ⟨numbered.ascending, List.pairwise_singleton _ _, ?_⟩
    intro entry member last isLast
    rw [List.mem_singleton.mp isLast]
    exact Nat.lt_succ_of_le (numbered.low entry member)
  · intro entry member
    rw [lsn']
    rw [drawn] at member
    rcases List.mem_append.mp member with earlier | last
    · exact Nat.le_succ_of_le (numbered.low entry earlier)
    · rw [List.mem_singleton.mp last]
  · rw [drawn, file']
    constructor
    · intro member
      rcases List.mem_append.mp member with earlier | last
      · rcases (numbered.written entry).mp earlier with inFile | ⟨j, unwritten⟩
        · exact .inl inFile
        · exact .inr ⟨j, (advanced.held_other (kept j entry unwritten)).trans unwritten⟩
      · rw [List.mem_singleton.mp last]
        exact .inr ⟨i, advanced.held_own.trans after⟩
    · rintro (inFile | ⟨j, unwritten⟩)
      · exact List.mem_append_left _ (known entry inFile)
      · by_cases same : j = i
        · subst same
          cases (advanced.held_own.trans after).symm.trans unwritten
          exact List.mem_append_right _ List.mem_cons_self
        · rw [advanced.held_other same] at unwritten
          exact List.mem_append_left _ ((numbered.written entry).mpr (.inr ⟨j, unwritten⟩))
  · rw [file']
    by_cases same : j = i
    · subst same
      cases (advanced.held_own.trans after).symm.trans unwritten
      exact fun member => fresh (known _ member)
    · rw [advanced.held_other same] at unwritten
      exact numbered.apart j entry unwritten
  · by_cases here : j = i <;> by_cases there : k = i
    · exact here.trans there.symm
    · subst here
      rw [advanced.held_other there] at second
      cases (advanced.held_own.trans after).symm.trans first
      exact absurd ((numbered.written _).mpr (.inr ⟨k, second⟩)) fresh
    · subst there
      rw [advanced.held_other here] at first
      cases (advanced.held_own.trans after).symm.trans second
      exact absurd ((numbered.written _).mpr (.inr ⟨j, first⟩)) fresh
    · rw [advanced.held_other here] at first
      rw [advanced.held_other there] at second
      exact numbered.alone j k entry first second

/-- A record is written under its number. -/
theorem Logging.Numbered.write (numbered : config.Numbered)
    (advanced : config.Advanced config' i turn) {entry : WalEntry}
    (file : turn.shared.storage.wal.file = config.shared.storage.wal.file ++ [entry])
    (lsn : turn.shared.storage.wal.lsn = config.shared.storage.wal.lsn)
    (events : turn.events = [])
    (before : inHandOf (config.threads i).phase = .unwritten entry)
    (after : inHandOf turn.thread.phase = .nothing) : config'.Numbered := by
  have drawn := advanced.drawn
  rw [events, List.append_nil] at drawn
  have file' : config'.shared.storage.wal.file = config.shared.storage.wal.file ++ [entry] := by
    rw [advanced.shared, file]
  have lsn' : config'.shared.storage.wal.lsn = config.shared.storage.wal.lsn := by
    rw [advanced.shared, lsn]
  have kept : ∀ j other, config'.held j = .unwritten other →
      j ≠ i ∧ config.held j = .unwritten other := by
    intro j other unwritten
    have apart : j ≠ i := by
      rintro rfl
      cases (advanced.held_own.trans after).symm.trans unwritten
    exact ⟨apart, (advanced.held_other apart).symm.trans unwritten⟩
  have unwritten : config.held i = .unwritten entry := before
  refine ⟨drawn ▸ numbered.ascending, ?_, fun other => ?_, ?_, fun j other held => ?_,
    fun j k other first second => ?_⟩
  · rw [drawn, lsn']
    exact numbered.low
  · rw [drawn, file', numbered.written other, List.mem_append, List.mem_singleton, or_assoc]
    refine or_congr_right ⟨?_, ?_⟩
    · rintro ⟨j, held⟩
      by_cases same : j = i
      · subst same
        cases unwritten.symm.trans held
        exact .inl rfl
      · exact .inr ⟨j, (advanced.held_other same).trans held⟩
    · rintro (rfl | ⟨j, held⟩)
      · exact ⟨i, unwritten⟩
      · exact ⟨j, (kept j other held).2⟩
  · rw [file']
    refine List.nodup_append.mpr ⟨numbered.once, List.nodup_singleton _, ?_⟩
    rintro other member last isLast rfl
    rw [List.mem_singleton.mp isLast] at member
    exact numbered.apart i entry unwritten member
  · obtain ⟨apart, held⟩ := kept j other held
    rw [file', List.mem_append, List.mem_singleton]
    rintro (member | rfl)
    · exact numbered.apart j other held member
    · exact apart (numbered.alone j i other held unwritten)
  · exact numbered.alone j k other (kept j other first).2 (kept k other second).2

/-- Numbering goes on. -/
theorem Logging.Numbered.advance (numbered : config.Numbered)
    (advanced : config.Advanced config' i turn)
    (turned : LogTurn config.shared (config.threads i) turn) : config'.Numbered := by
  have drawn := advanced.drawn
  cases turned with
  | quiet view nextIds file lsn events before after runs =>
      rw [events, List.append_nil] at drawn
      rw [← advanced.shared] at file lsn
      refine numbered.of_same file lsn drawn fun j entry => advanced.held_iff ?_ ?_ j
      · rw [Logging.held, before]
        exact InHand.noConfusion
      · rcases after with after | ⟨op, -, after⟩ <;> rw [after] <;> exact InHand.noConfusion
  | changes op key row keyed recorded view nextIds bound place file lsn events before after txnId
      own =>
      rw [events, List.append_nil] at drawn
      rw [← advanced.shared] at file lsn
      refine numbered.of_same file lsn drawn fun j entry => advanced.held_iff ?_ ?_ j
      · rw [Logging.held, before]
        exact InHand.noConfusion
      · rw [after]
        exact InHand.noConfusion
  | draws op tables file lsn events before after txnId kind =>
      exact numbered.draw advanced file lsn events before after
  | writes entry tables file lsn events before after txnId =>
      exact numbered.write advanced file lsn events before after

/-- Transactions stay accounted for. -/
theorem Logging.Owned.advance (owned : config.Owned) (advanced : config.Advanced config' i turn)
    (accounted : Accounted config.shared (config.threads i) turn) : config'.Owned := by
  obtain ⟨turned, within⟩ := accounted
  have drawn := advanced.drawn
  have runsOther : ∀ txn j, j ≠ i →
      Runs (config.threads j).session.transaction.txnId (config.threads j).phase txn →
        ∃ k, Runs (config'.threads k).session.transaction.txnId (config'.threads k).phase txn := by
    intro txn j other runs
    exact ⟨j, by rw [advanced.others j other]; exact runs⟩
  have runsOwn : ∀ txn,
      Runs turn.thread.session.transaction.txnId turn.thread.phase txn →
        ∃ k, Runs (config'.threads k).session.transaction.txnId (config'.threads k).phase txn := by
    intro txn runs
    exact ⟨i, by rw [advanced.own]; exact runs⟩
  have inside := advanced.within owned.within within
  -- A session that keeps its transaction and had no commit to number still runs it.
  have kept : turn.thread.session.transaction.txnId =
        (config.threads i).session.transaction.txnId →
      ∀ txn, (∀ other, inHandOf (config.threads i).phase ≠ .unnumbered (.commit other)) →
        ∀ j, Runs (config.threads j).session.transaction.txnId (config.threads j).phase txn →
          ∃ k, Runs (config'.threads k).session.transaction.txnId (config'.threads k).phase
            txn := by
    intro txnId txn nothing j runs
    by_cases same : j = i
    · subst same
      rcases runs with own | commits
      · exact runsOwn txn (.inl (txnId.trans own))
      · exact absurd commits (nothing txn)
    · exact runsOther txn j same runs
  cases turned with
  | quiet view nextIds file lsn events before after runs =>
      rw [events, List.append_nil] at drawn
      refine ⟨inside, drawn ▸ owned.kinds, fun txn changed => ?_⟩
      have earlier : (∃ entry ∈ config.drawn, entry.2.dataTxnId = some txn) ∨
          ∃ j op, config.held j = .unnumbered op ∧ op.dataTxnId = some txn := by
        rw [drawn] at changed
        refine changed.imp_right ?_
        rintro ⟨j, op, held, data⟩
        by_cases same : j = i
        · subst same
          rw [advanced.held_own] at held
          rcases after with after | ⟨control, keyless, after⟩
          · cases after.symm.trans held
          · cases after.symm.trans held
            cases (dataTxnId_eq_none keyless).symm.trans data
        · exact ⟨j, op, (advanced.held_other same).symm.trans held, data⟩
      rw [drawn]
      refine (owned.owned txn earlier).imp_right ?_
      rintro ⟨j, running⟩
      by_cases same : j = i
      · subst same
        exact runsOwn txn (runs txn running)
      · exact runsOther txn j same running
  | changes op key row keyed recorded view nextIds bound place file lsn events before after txnId
      own =>
      rw [events, List.append_nil] at drawn
      have nothing : ∀ other, inHandOf (config.threads i).phase ≠ .unnumbered (.commit other) := by
        intro other commits
        cases before.symm.trans commits
      refine ⟨inside, drawn ▸ owned.kinds, fun txn changed => ?_⟩
      rw [drawn] at changed ⊢
      rcases changed with logged | ⟨j, op', held, data⟩
      · refine (owned.owned txn (.inl logged)).imp_right ?_
        rintro ⟨j, running⟩
        exact kept txnId txn nothing j running
      · by_cases same : j = i
        · subst same
          cases (advanced.held_own.trans after).symm.trans held
          exact .inr (runsOwn txn (.inl (txnId.trans (own.symm.trans data))))
        · have held := (advanced.held_other same).symm.trans held
          refine (owned.owned txn (.inr ⟨j, op', held, data⟩)).imp_right ?_
          rintro ⟨k, running⟩
          exact kept txnId txn nothing k running
  | draws op tables file lsn events before after txnId kind =>
      rw [events] at drawn
      refine ⟨inside, ?_, fun txn changed => ?_⟩
      · intro entry member
        rw [drawn] at member
        rcases List.mem_append.mp member with earlier | last
        · exact owned.kinds entry earlier
        · rw [List.mem_singleton.mp last]
          exact kind
      · have earlier : (∃ entry ∈ config.drawn, entry.2.dataTxnId = some txn) ∨
            ∃ j op, config.held j = .unnumbered op ∧ op.dataTxnId = some txn := by
          rcases changed with ⟨entry, member, data⟩ | ⟨j, op', held, data⟩
          · rw [drawn] at member
            rcases List.mem_append.mp member with earlier | last
            · exact .inl ⟨entry, earlier, data⟩
            · rw [List.mem_singleton.mp last] at data
              exact .inr ⟨i, op, before, data⟩
          · by_cases same : j = i
            · subst same
              cases (advanced.held_own.trans after).symm.trans held
            · exact .inr ⟨j, op', (advanced.held_other same).symm.trans held, data⟩
        rw [drawn]
        rcases owned.owned txn earlier with ⟨number, committed⟩ | ⟨j, running⟩
        · exact .inl ⟨number, List.mem_append_left _ committed⟩
        · by_cases same : j = i
          · subst same
            rcases running with own | commits
            · exact .inr (runsOwn txn (.inl (txnId.trans own)))
            · cases before.symm.trans commits
              exact .inl ⟨_, List.mem_append_right _ List.mem_cons_self⟩
          · exact .inr (runsOther txn j same running)
  | writes entry tables file lsn events before after txnId =>
      rw [events, List.append_nil] at drawn
      have nothing : ∀ other, inHandOf (config.threads i).phase ≠ .unnumbered (.commit other) := by
        intro other commits
        cases before.symm.trans commits
      refine ⟨inside, drawn ▸ owned.kinds, fun txn changed => ?_⟩
      have earlier : (∃ entry ∈ config.drawn, entry.2.dataTxnId = some txn) ∨
          ∃ j op, config.held j = .unnumbered op ∧ op.dataTxnId = some txn := by
        rw [drawn] at changed
        refine changed.imp_right ?_
        rintro ⟨j, op, held, data⟩
        by_cases same : j = i
        · subst same
          cases (advanced.held_own.trans after).symm.trans held
        · exact ⟨j, op, (advanced.held_other same).symm.trans held, data⟩
      rw [drawn]
      refine (owned.owned txn earlier).imp_right ?_
      rintro ⟨j, running⟩
      exact kept txnId txn nothing j running

/-- No checkpoint has been marked since the start, unless its truncation is due, and
every number is beyond those of the start. -/
structure Logging.Unmarked (start : WriteAheadLog) (config : Logging ι) : Prop where
  mark : config.shared.storage.wal.checkpointFile = start.checkpointFile ∨
    ∃ i, truncatesAt (config.threads i).phase = true
  reached : start.lsn ≤ config.shared.storage.wal.lsn
  beyond : ∀ entry ∈ config.drawn, start.lsn < entry.1

theorem Logging.Unmarked.advance {start : WriteAheadLog} (unmarked : config.Unmarked start)
    (advanced : config.Advanced config' i turn)
    (turned : LogTurn config.shared (config.threads i) turn)
    (marks : turn.shared.storage.wal.checkpointFile = config.shared.storage.wal.checkpointFile ∨
      truncatesAt turn.thread.phase = true)
    (keeps : truncatesAt (config.threads i).phase = false) : config'.Unmarked start := by
  have numbers : (turn.shared.storage.wal.lsn = config.shared.storage.wal.lsn ∧
      turn.events = []) ∨ ∃ op,
        turn.shared.storage.wal.lsn = config.shared.storage.wal.lsn + 1 ∧
          turn.events = [(config.shared.storage.wal.lsn + 1, op)] := by
    cases turned with
    | quiet view nextIds file lsn events => exact .inl ⟨lsn, events⟩
    | changes op key row keyed recorded view nextIds bound place file lsn events =>
        exact .inl ⟨lsn, events⟩
    | draws op tables file lsn events => exact .inr ⟨op, lsn, events⟩
    | writes entry tables file lsn events => exact .inl ⟨lsn, events⟩
  refine ⟨?_, ?_, ?_⟩
  · rcases marks with same | truncates
    · rw [advanced.shared, same]
      refine unmarked.mark.imp_right fun ⟨j, truncates⟩ => ⟨j, ?_⟩
      rwa [advanced.others j fun own => ?_]
      rw [own, keeps] at truncates
      cases truncates
    · exact .inr ⟨i, advanced.own ▸ truncates⟩
  · rw [advanced.shared]
    rcases numbers with ⟨lsn, -⟩ | ⟨op, lsn, -⟩
    · exact lsn.symm ▸ unmarked.reached
    · exact lsn.symm ▸ Nat.le_succ_of_le unmarked.reached
  · rw [advanced.drawn]
    rcases numbers with ⟨-, events⟩ | ⟨op, -, events⟩
    · rw [events, List.append_nil]
      exact unmarked.beyond
    · rw [events]
      exact List.forall_mem_append.mpr ⟨unmarked.beyond,
        List.forall_mem_singleton.mpr (Nat.lt_succ_of_le unmarked.reached)⟩

/-- The change of a row depends on what the row was before. -/
theorem RecordOf.congr {view view' : RowKey → Option Row} {op : WalOp} {key : RowKey}
    {row : Option Row} (recorded : RecordOf view op key row) (same : view' key = view key) :
    RecordOf view' op key row := by
  cases recorded with
  | insert txnId table rowId row => exact .insert txnId table rowId row
  | update txnId table rowId row old stored version =>
      exact .update txnId table rowId row old (same.trans stored) version
  | delete txnId table rowId old stored =>
      exact .delete txnId table rowId old (same.trans stored)

theorem unnumberedKey_of_pending {j : ι} {op : WalOp} {key : RowKey}
    (pending : config.Pending j op key) : (config.held j).unnumberedKey = some key := by
  obtain ⟨held, keyed⟩ := pending
  rw [held]
  exact keyed

variable [Runtime] {start : StorageEngine}

/-- Replaying the record of a change makes the change. -/
theorem applyWalOp_of_recorded {storage : StorageEngine} {op : WalOp} {key : RowKey}
    {row : Option Row} (recorded : RecordOf storage.view op key row) :
    ∃ storage', applyWalOp storage op false = .ok storage' ∧
      storage'.view = Function.update storage.view key row := by
  cases recorded with
  | insert txnId table rowId row =>
      obtain ⟨tables, applied, -, view⟩ := storage.applyInsert_spec table rowId row 0
      exact ⟨_, congrArg Except.ok applied, view⟩
  | update txnId table rowId row old stored version =>
      obtain ⟨changed, tables, applied, -, view⟩ := StorageEngine.applyUpdate_spec
        (StorageEngine.mem_tables_of_view stored) rowId row 0
      refine ⟨_, congrArg (Except.map Prod.snd) applied, view.trans ?_⟩
      rw [stored]
      dsimp only
      rw [← version]
  | delete txnId table rowId old stored =>
      obtain ⟨changed, tables, applied, -, view⟩ := StorageEngine.applyDelete_spec
        (StorageEngine.mem_tables_of_view stored) rowId 0
      exact ⟨_, congrArg (Except.map Prod.snd) applied, view⟩

/-- Replaying a record that is about no row does nothing. -/
theorem applyWalOp_of_keyless {op : WalOp} (keyless : op.rowKey = none)
    (storage : StorageEngine) : applyWalOp storage op false = .ok storage := by
  cases op with
  | insert txnId table rowId row => cases keyless
  | update txnId table rowId row => cases keyless
  | delete txnId table rowId => cases keyless
  | _ => rfl

theorem foldWalOps_concat {storage replayed : StorageEngine} {entries : List WalEntry}
    (folded : foldWalOps storage entries = .ok replayed) (entry : WalEntry) :
    foldWalOps storage (entries ++ [entry]) = applyWalOp replayed entry.2 false := by
  unfold foldWalOps at folded ⊢
  rw [List.foldlM_append, folded]
  exact bind_pure (applyWalOp replayed entry.2 false)

/-- Replay goes on following when no change of a row is made or numbered. -/
theorem Logging.Follows.of_same (follows : config.Follows start)
    (view : config'.shared.storage.view = config.shared.storage.view)
    (nextIds : ∀ table,
      config.shared.storage.nextId table ≤ config'.shared.storage.nextId table)
    (drawn : config'.drawn = config.drawn)
    (pending : ∀ j op key, config'.Pending j op key → config.Pending j op key)
    (pending' : ∀ j op key, config.Pending j op key → config'.Pending j op key) :
    config'.Follows start := by
  obtain ⟨⟨replayed, folded, settled, unsettled⟩, alone, below⟩ := follows
  refine ⟨⟨replayed, drawn ▸ folded, fun key free => ?_, fun j op key held => ?_⟩,
    fun j k op op' key first second => ?_, fun j op key held => ?_⟩
  · rw [view]
    exact settled key fun j op held => free j op (pending' j op key held)
  · rw [view]
    exact unsettled j op key (pending j op key held)
  · exact alone j k op op' key (pending j op key first) (pending k op' key second)
  · exact (below j op key (pending j op key held)).trans_le (nextIds key.1)

/-- Replay goes on following when a row is changed whose last change has a number. -/
theorem Logging.Follows.change (follows : config.Follows start)
    (advanced : config.Advanced config' i turn) {op : WalOp} {key : RowKey} {row : Option Row}
    (keyed : op.rowKey = some key) (recorded : RecordOf config.shared.storage.view op key row)
    (view : turn.shared.storage.view = Function.update config.shared.storage.view key row)
    (nextIds : ∀ table, config.shared.storage.nextId table ≤ turn.shared.storage.nextId table)
    (bound : key.2 < turn.shared.storage.nextId key.1) (events : turn.events = [])
    (before : inHandOf (config.threads i).phase = .nothing)
    (after : inHandOf turn.thread.phase = .unnumbered op)
    (free : ∀ j op', ¬config.Pending j op' key) : config'.Follows start := by
  have drawn := advanced.drawn
  rw [events, List.append_nil] at drawn
  rw [← advanced.shared] at view nextIds bound
  obtain ⟨⟨replayed, folded, settled, unsettled⟩, alone, below⟩ := follows
  have mine : config'.Pending i op key := ⟨advanced.held_own.trans after, keyed⟩
  -- What is pending is the change just made, or was pending before, for another row.
  have split : ∀ j op' key', config'.Pending j op' key' →
      (j = i ∧ op' = op ∧ key' = key) ∨ (j ≠ i ∧ key' ≠ key ∧ config.Pending j op' key') := by
    intro j op' key' pending
    by_cases same : j = i
    · subst same
      obtain ⟨held, keyed'⟩ := pending
      cases mine.1.symm.trans held
      exact .inl ⟨rfl, rfl, Option.some.inj (keyed'.symm.trans keyed)⟩
    · obtain ⟨held, keyed'⟩ := pending
      rw [advanced.held_other same] at held
      refine .inr ⟨same, ?_, held, keyed'⟩
      rintro rfl
      exact free j op' ⟨held, keyed'⟩
  refine ⟨⟨replayed, drawn ▸ folded, fun key' settledKey => ?_, fun j op' key' pending => ?_⟩,
    fun j k op' op'' key' first second => ?_, fun j op' key' pending => ?_⟩
  · have other : key' ≠ key := by
      rintro rfl
      exact settledKey i op mine
    rw [view, Function.update_of_ne other]
    refine settled key' fun j op' pending => ?_
    have apart : j ≠ i := by
      rintro rfl
      cases before.symm.trans pending.1
    exact settledKey j op' ⟨(advanced.held_other apart).trans pending.1, pending.2⟩
  · rw [view]
    rcases split j op' key' pending with ⟨rfl, rfl, rfl⟩ | ⟨-, other, earlier⟩
    · rw [Function.update_self]
      exact recorded.congr (settled _ free).symm
    · rw [Function.update_of_ne other]
      exact unsettled j op' key' earlier
  · rcases split j op' key' first with ⟨rfl, -, rfl⟩ | ⟨-, other, earlier⟩
    · rcases split k op'' _ second with ⟨rfl, -, -⟩ | ⟨-, other, -⟩
      · rfl
      · exact absurd rfl other
    · rcases split k op'' key' second with ⟨-, -, same⟩ | ⟨-, -, earlier'⟩
      · exact absurd same other
      · exact alone j k op' op'' key' earlier earlier'
  · rcases split j op' key' pending with ⟨-, -, rfl⟩ | ⟨-, -, earlier⟩
    · exact bound
    · exact (below j op' key' earlier).trans_le (nextIds key'.1)

/-- Replay goes on following when a record gets its number. -/
theorem Logging.Follows.draw (follows : config.Follows start)
    (advanced : config.Advanced config' i turn) {op : WalOp} {lsn : Nat}
    (tables : turn.shared.storage.tables = config.shared.storage.tables)
    (events : turn.events = [(lsn, op)])
    (before : inHandOf (config.threads i).phase = .unnumbered op)
    (after : inHandOf turn.thread.phase = .unwritten (lsn, op)) : config'.Follows start := by
  have drawn := advanced.drawn
  rw [events] at drawn
  rw [← advanced.shared] at tables
  have view : config'.shared.storage.view = config.shared.storage.view :=
    congrArg tablesView tables
  obtain ⟨⟨replayed, folded, settled, unsettled⟩, alone, below⟩ := follows
  have kept : ∀ j op' key, config'.Pending j op' key → j ≠ i ∧ config.Pending j op' key := by
    intro j op' key pending
    have apart : j ≠ i := by
      rintro rfl
      cases (advanced.held_own.trans after).symm.trans pending.1
    exact ⟨apart, (advanced.held_other apart).symm.trans pending.1, pending.2⟩
  have still : ∀ j op' key, j ≠ i → config.Pending j op' key → config'.Pending j op' key :=
    fun j op' key apart pending =>
      ⟨(advanced.held_other apart).trans pending.1, pending.2⟩
  refine ⟨?_, fun j k op' op'' key first second => alone j k op' op'' key (kept _ _ _ first).2
    (kept _ _ _ second).2, fun j op' key pending => ?_⟩
  · rw [drawn, foldWalOps_concat folded, view]
    cases keyed : op.rowKey with
    | none =>
        refine ⟨replayed, applyWalOp_of_keyless keyed replayed, fun key free => ?_,
          fun j op' key pending => unsettled j op' key (kept j op' key pending).2⟩
        refine settled key fun j op' pending => ?_
        by_cases same : j = i
        · subst same
          obtain ⟨held, keyed'⟩ := pending
          cases before.symm.trans held
          cases keyed.symm.trans keyed'
        · exact free j op' (still j op' key same pending)
    | some key =>
        have mine : config.Pending i op key := ⟨before, keyed⟩
        obtain ⟨replayed', applied, changed⟩ :=
          applyWalOp_of_recorded (unsettled i op key mine)
        refine ⟨replayed', applied, fun key' free => ?_, fun j op' key' pending => ?_⟩
        · rw [changed]
          by_cases same : key' = key
          · subst same
            rw [Function.update_self]
          · rw [Function.update_of_ne same]
            refine settled key' fun j op' pending => ?_
            by_cases own : j = i
            · subst own
              obtain ⟨held, keyed'⟩ := pending
              cases before.symm.trans held
              exact same (Option.some.inj (keyed'.symm.trans keyed))
            · exact free j op' (still j op' key' own pending)
        · obtain ⟨apart, earlier⟩ := kept j op' key' pending
          have other : key' ≠ key := by
            rintro rfl
            exact apart (alone j i op' op _ earlier mine)
          exact (unsettled j op' key' earlier).congr
            (by rw [changed, Function.update_of_ne other])
  · rw [StorageEngine.nextId, tables]
    exact below j op' key (kept j op' key pending).2

/-- Replay goes on following, as long as changes of a row do not overlap. -/
theorem Logging.Follows.advance (follows : config.Follows start)
    (advanced : config.Advanced config' i turn)
    (turned : LogTurn config.shared (config.threads i) turn)
    (numbered : config.ChangesNumbered i) : config'.Follows start := by
  have drawn := advanced.drawn
  cases turned with
  | quiet view nextIds file lsn events before after runs =>
      rw [events, List.append_nil] at drawn
      rw [← advanced.shared] at view nextIds
      refine follows.of_same view nextIds drawn (fun j op key pending => ?_)
        fun j op key pending => ?_
      · obtain ⟨held, keyed⟩ := pending
        by_cases same : j = i
        · subst same
          rw [advanced.held_own] at held
          rcases after with after | ⟨control, keyless, after⟩
          · cases after.symm.trans held
          · cases after.symm.trans held
            cases keyless.symm.trans keyed
        · exact ⟨(advanced.held_other same).symm.trans held, keyed⟩
      · have apart : j ≠ i := by
          rintro rfl
          cases before.symm.trans pending.1
        exact ⟨(advanced.held_other apart).trans pending.1, pending.2⟩
  | changes op key row keyed recorded view nextIds bound place file lsn events before after txnId
      own =>
      refine follows.change advanced keyed recorded view nextIds bound events before after
        fun j op' pending => ?_
      rcases place with aimed | fresh
      · obtain ⟨-, clear⟩ := numbered
        rw [aimed] at clear
        exact clear (Option.some_ne_none key) j (unnumberedKey_of_pending pending)
      · exact Nat.not_lt_of_le fresh (follows.below j op' key pending)
  | draws op tables file lsn events before after txnId kind =>
      exact follows.draw advanced tables events before after
  | writes entry tables file lsn events before after txnId =>
      rw [events, List.append_nil] at drawn
      rw [← advanced.shared] at tables
      refine follows.of_same (congrArg tablesView tables) (fun table => ?_) drawn
        (fun j op key pending => ?_) fun j op key pending => ?_
      · rw [StorageEngine.nextId, StorageEngine.nextId, tables]
      · have apart : j ≠ i := by
          rintro rfl
          cases (advanced.held_own.trans after).symm.trans pending.1
        exact ⟨(advanced.held_other apart).symm.trans pending.1, pending.2⟩
      · have apart : j ≠ i := by
          rintro rfl
          cases before.symm.trans pending.1
        exact ⟨(advanced.held_other apart).trans pending.1, pending.2⟩

end Turn

section Replay

/-- With a commit and no abort in the log, a transaction is committed. -/
theorem lastDecision_of_commit {entries : List WalEntry} {txn : Nat}
    (kinds : ∀ entry ∈ entries, ∀ other, entry.2 ≠ .abort other)
    (committed : ∃ lsn, (lsn, WalOp.commit txn) ∈ entries) :
    lastDecision entries txn = some true := by
  have decides : ∀ entry ∈ entries,
      entry.2.decides txn = some true ∨ entry.2.decides txn = none ∧ entry.2 ≠ .commit txn := by
    rintro ⟨lsn, op⟩ member
    cases op with
    | commit id =>
        by_cases same : id = txn
        · exact .inl (if_pos same)
        · exact .inr ⟨if_neg same, fun commits => same (WalOp.commit.inj commits)⟩
    | abort id => exact absurd rfl (kinds _ member id)
    | _ => exact .inr ⟨rfl, WalOp.noConfusion⟩
  obtain ⟨lsn, present⟩ := committed
  induction entries using List.reverseRecOn with
  | nil => cases present
  | append_singleton entries entry ih =>
      rw [lastDecision_concat]
      rcases decides entry List.mem_concat_self with commits | ⟨silent, other⟩
      · rw [commits]
        rfl
      · rw [silent, Option.none_or]
        refine ih (fun before member => kinds before (List.mem_append_left _ member))
          (fun before member => decides before (List.mem_append_left _ member)) ?_
        rcases List.mem_append.mp present with earlier | last
        · exact earlier
        · rw [← List.mem_singleton.mp last] at other
          exact absurd rfl other

theorem dataTxnId_isSome {op : WalOp} : op.dataTxnId.isSome = op.rowKey.isSome := by
  cases op <;> rfl

variable [Runtime]

/-- Replay skips the records that are about no row. -/
theorem foldWalOps_filter (storage : StorageEngine) (entries : List WalEntry) :
    foldWalOps storage (entries.filter fun entry => entry.2.dataTxnId.isSome) =
      foldWalOps storage entries := by
  induction entries generalizing storage with
  | nil => rfl
  | cons entry rest ih =>
      cases keyed : entry.2.rowKey with
      | none =>
          rw [List.filter_cons_of_neg (by simp [dataTxnId_isSome, keyed]), ih]
          unfold foldWalOps
          rw [List.foldlM_cons, applyWalOp_of_keyless keyed]
          rfl
      | some key =>
          rw [List.filter_cons_of_pos (by simp [dataTxnId_isSome, keyed])]
          unfold foldWalOps at ih ⊢
          rw [List.foldlM_cons, List.foldlM_cons]
          exact congrArg _ (funext ih)

/-- A log of committed transactions replays as its records in the order of their
numbers, in whatever order they were written. -/
theorem replayEntries_of_perm {storage replayed : StorageEngine} {file drawn : List WalEntry}
    (perm : file.Perm drawn) (ascending : Ascending drawn)
    (kinds : ∀ entry ∈ drawn, ∀ txn, entry.2 ≠ .abort txn)
    (committed : ∀ entry ∈ drawn, ∀ txn, entry.2.dataTxnId = some txn →
      ∃ lsn, (lsn, .commit txn) ∈ drawn)
    (folded : foldWalOps storage drawn = .ok replayed) :
    ∃ count, replayEntries storage file = (.ok count, replayed) := by
  have distinct : DistinctLsns file := (perm.map Prod.fst).nodup_iff.mpr ascending.distinctLsns
  have records : committedRecords file = file.filter fun entry => entry.2.dataTxnId.isSome := by
    refine List.filter_congr fun entry member => ?_
    unfold isCommitted
    cases data : entry.2.dataTxnId with
    | none => rfl
    | some txn =>
        obtain ⟨lsn, commits⟩ := committed entry (perm.mem_iff.mp member) txn data
        have decided : lastDecision file txn = some true :=
          lastDecision_of_commit (fun other inFile => kinds other (perm.mem_iff.mp inFile))
            ⟨lsn, perm.mem_iff.mpr commits⟩
        simp [decided]
  have sorted : sortByLsn (committedRecords file) =
      drawn.filter fun entry => entry.2.dataTxnId.isSome := by
    rw [records, sortByLsn_eq_of_perm (perm.filter _) (records ▸ distinct.committedRecords)]
    exact Ascending.sortByLsn (ascending.filter _)
  have applied := applyEntries_eq_fold storage (sortByLsn (committedRecords file))
  rw [sorted, foldWalOps_filter, folded] at applied
  obtain ⟨outcome, reached⟩ := applied
  refine ⟨(committedRecords file).length, ?_⟩
  rw [replayEntries_eq distinct, sorted]
  cases ran : applyEntries storage (drawn.filter fun entry => entry.2.dataTxnId.isSome) with
  | mk result final =>
      rw [ran] at outcome reached
      have same : final = replayed := reached replayed rfl
      subst same
      cases outcome
      rfl

variable [DecidableEq ι]

/-- Sessions that have not begun, at work on a database. -/
def Logging.start (db : Database) (programs : ι → List LogCall) : Logging ι where
  shared := db
  threads := fun i => { session := .new, phase := none, program := programs i }
  history := []

omit [Runtime] [DecidableEq ι] in
theorem Logging.numbered_start {db : Database} (programs : ι → List LogCall)
    (fresh : db.storage.wal.file = []) : (Logging.start db programs).Numbered where
  ascending := .nil
  low := fun _ member => (by cases member)
  written := by
    intro entry
    refine ⟨fun member => (by cases member), ?_⟩
    rintro (member | ⟨i, held⟩)
    · rw [Logging.start, fresh] at member
      cases member
    · cases held
  once := by
    rw [Logging.start, fresh]
    exact .nil
  apart := fun _ _ held => (by cases held)
  alone := fun _ _ _ held => (by cases held)

omit [Runtime] [DecidableEq ι] in
theorem Logging.owned_start (db : Database) (programs : ι → List LogCall) :
    (Logging.start db programs).Owned where
  within := fun _ => trivial
  kinds := fun _ member => (by cases member)
  owned := by
    rintro txn (⟨entry, member, -⟩ | ⟨i, op, held, -⟩)
    · cases member
    · cases held

omit [DecidableEq ι] in
theorem Logging.follows_start {db : Database} (programs : ι → List LogCall)
    {start : StorageEngine} (same : start.view = db.storage.view) :
    (Logging.start db programs).Follows start where
  replays := by
    refine ⟨start, rfl, fun key free => congrFun same.symm key, ?_⟩
    rintro i op key ⟨held, -⟩
    cases held
  alone := by
    rintro i j op op' key ⟨held, -⟩
    cases held
  below := by
    rintro i op key ⟨held, -⟩
    cases held

/-- When all statements have returned and left no transaction open, the log replays on
the rows there were at the start to those in memory. -/
theorem Logging.replays {db : Database} {programs : ι → List LogCall} {schedule : List ι}
    {start : StorageEngine} (same : start.view = db.storage.view)
    (fresh : db.storage.wal.file = [])
    (marked : WriteAheadLog.readCheckpointLsn db.storage.wal.checkpointFile ≤ db.storage.wal.lsn)
    (numbered : Along logStep Logging.ChangesNumbered (Logging.start db programs) schedule)
    (finished : ∀ i, let client := (run logStep (Logging.start db programs) schedule).threads i
      client.phase = none ∧ client.session.transaction.txnId = none) :
    let wal := (run logStep (Logging.start db programs) schedule).shared.storage.wal
    ∃ count final, replayWal { start with wal := .open wal.file wal.checkpointFile } =
        (.ok count, final) ∧
      final.view = (run logStep (Logging.start db programs) schedule).shared.storage.view := by
  intro wal
  let files : StorageEngine := { start with wal := .open wal.file wal.checkpointFile }
  let inv := fun config : Logging ι => config.Numbered ∧ config.Owned ∧ config.Follows files ∧
    config.Unmarked db.storage.wal
  have held : inv (run logStep (Logging.start db programs) schedule) := by
    refine Along.run_invariant logStep inv ?_ ⟨Logging.numbered_start programs fresh,
      Logging.owned_start db programs, Logging.follows_start programs same,
      .inl rfl, Nat.le_refl _, fun _ => nofun⟩ numbered
    rintro config i condition ⟨ordered, owned, follows, unmarked⟩
    have advanced := Logging.advanced config i
    have accounted : Accounted config.shared (config.threads i)
        (logStep config.shared (config.threads i)) := logStep_cases (owned.within i) condition.1
    exact ⟨ordered.advance advanced accounted.1, owned.advance advanced accounted,
      follows.advance advanced accounted.1 condition,
      unmarked.advance advanced accounted.1 (logStep_marks _ _) condition.1⟩
  have own : (run logStep (Logging.start db programs) schedule).shared.storage.wal = wal := rfl
  clear_value wal
  obtain ⟨ordered, owned, follows, unmarked⟩ := held
  generalize run logStep (Logging.start db programs) schedule = config
    at finished ordered owned follows unmarked own ⊢
  have idle : ∀ i, Logging.held config i = .nothing := by
    intro i
    rw [Logging.held, (finished i).1]
    rfl
  have perm : config.shared.storage.wal.file.Perm (Logging.drawn config) := by
    refine (List.perm_ext_iff_of_nodup ordered.once ordered.ascending.distinctLsns.nodup).mpr
      fun entry => ?_
    refine ((ordered.written entry).trans (or_iff_left ?_)).symm
    rintro ⟨i, unwritten⟩
    cases (idle i).symm.trans unwritten
  have committed : ∀ entry ∈ Logging.drawn config, ∀ txn, entry.2.dataTxnId = some txn →
      ∃ lsn, (lsn, .commit txn) ∈ Logging.drawn config := by
    intro entry member txn data
    rcases owned.owned txn (.inl ⟨entry, member, data⟩) with committed | ⟨i, running⟩
    · exact committed
    · obtain ⟨phase, txnId⟩ := finished i
      rcases running with own | commits
      · cases txnId.symm.trans own
      · rw [phase] at commits
        cases commits
  obtain ⟨replayed, folded, settled, -⟩ := follows.replays
  obtain ⟨count, replays⟩ :=
    replayEntries_of_perm perm ordered.ascending owned.kinds committed folded
  -- no checkpoint hides a record
  have checkpoint : wal.checkpointFile = db.storage.wal.checkpointFile := by
    rw [← own]
    refine unmarked.mark.resolve_right fun ⟨i, truncates⟩ => ?_
    rw [(finished i).1] at truncates
    cases truncates
  have read : files.wal.replaySince files.wal.checkpointLsn = config.shared.storage.wal.file := by
    rw [own]
    refine List.filter_eq_self.mpr fun entry member => decide_eq_true ?_
    change WriteAheadLog.readCheckpointLsn wal.checkpointFile < entry.1
    rw [checkpoint]
    exact marked.trans_lt (unmarked.beyond entry (perm.subset (own ▸ member)))
  refine ⟨count, replayed, ?_, funext fun key => (settled key ?_).symm⟩
  · rw [replayWal, read]
    exact replays
  · rintro i op ⟨unnumbered, -⟩
    cases (idle i).symm.trans unnumbered

end Replay

end Runs

section Example

/-- `INSERT INTO t VALUES (n)`. -/
def insertCall (n : Nat) : LogCall :=
  .insert ⟨["t"], [], some ⟨.values [[.value (.number (toString n))]], none, none, none⟩, none⟩

end Example

end MoodengSQL
