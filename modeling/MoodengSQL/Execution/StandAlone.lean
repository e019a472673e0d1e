import MoodengSQL.Execution.Refused
import MoodengSQL.Server.Session

/-!
# Statements outside a transaction

A write statement outside a transaction opens one for itself and commits it
when its row loop has come to its end. If a row is refused, the statement
returns at once and its transaction stays open, for whatever the connection
sends next.
-/

namespace MoodengSQL

open Foundation Foundation.Effect

/-- Whether a transaction begun by the client is open after a statement. -/
def Statement.pendingAfter (pending : Bool) : Statement → Bool
  | .startTransaction => true
  | .commit | .rollback => false
  | _ => pending

/-- The session is as new, or in the transaction the client has begun. -/
def Session.Fits (session : Session) : Bool → Prop
  | false => session = .new
  | true => session.transaction.active = true ∧ session.transaction.txnId.isSome = true ∧
      session.autoCommit = false

/-- Two states are in the same transaction, begun in the same way. -/
structure SameTransaction (s s' : Executor) : Prop where
  txnId : s'.session.transaction.txnId = s.session.transaction.txnId
  active : s'.session.transaction.active = s.session.transaction.active
  autoCommit : s'.session.autoCommit = s.session.autoCommit

instance : IsPreorder Executor SameTransaction where
  refl _ := ⟨rfl, rfl, rfl⟩
  trans _ _ _ first second := ⟨second.txnId.trans first.txnId, second.active.trans first.active,
    second.autoCommit.trans first.autoCommit⟩

theorem SameTransaction.fits {s s' : Executor} (same : SameTransaction s s')
    (fits : s.session.Fits true) : s'.session.Fits true := by
  obtain ⟨active, running, explicit⟩ := fits
  exact ⟨same.active.trans active, by rw [same.txnId, running], same.autoCommit.trans explicit⟩

theorem sameTransaction_record (s : Executor) (entry : UndoRecord) :
    SameTransaction s { s with session := s.session.recordUndo entry } := by
  obtain ⟨txnId, active, autoCommit⟩ := Session.recordUndo_txnId s.session entry
  exact ⟨txnId, active, autoCommit⟩

/-- The session and the log are as they were. -/
structure Untouched (s s' : Executor) : Prop where
  session : s'.session = s.session
  wal : s'.storage.wal = s.storage.wal

instance : IsPreorder Executor Untouched where
  refl _ := ⟨rfl, rfl⟩
  trans _ _ _ first second :=
    ⟨second.session.trans first.session, second.wal.trans first.wal⟩

theorem untouched_schema (s : Executor) (catalog : Catalog) (storage : StorageEngine)
    (indexes : IndexManager) (keeps : storage.wal = s.storage.wal) :
    Untouched s { s with catalog, storage, indexes } :=
  ⟨rfl, keeps⟩

section Statements

variable [Runtime] {s : Executor}

/-- A statement outside a transaction comes, in its row loop, to a row that is
refused. -/
def RowRefused (s : Executor) : Statement → Prop
  | .insert stmt => ∃ source schema rows onConflict, stmt.source = some source ∧
      s.catalog.getTable (extractTableName stmt.tableName) = .ok schema ∧
      valuesFromInsert source = .ok rows ∧ conflictClause stmt.on = .ok onConflict ∧
      ComesToRefused
        (insertRows (extractTableName stmt.tableName) schema onConflict s.storage.wal.nextTxnId)
        (fun mid values => InsertedRowRefused mid (extractTableName stmt.tableName) schema
          s.storage.wal.nextTxnId onConflict values) rows 0 (s.opened true)
  | .update table assignments selection => ∃ schema,
      s.catalog.getTable table.relation.name = .ok schema ∧
      ComesToRefused
        (updateRows table.relation.name schema assignments selection s.storage.wal.nextTxnId)
        (fun mid entry => UpdatedRowRefused mid table.relation.name schema s.storage.wal.nextTxnId
          assignments selection entry)
        (s.storage.scan table.relation.name) 0 (s.opened true)
  | .delete relations selection => ∃ schema,
      s.catalog.getTable ((relations.head?.map fun item => item.relation.name).getD "") =
        .ok schema ∧
      ComesToRefused
        (deleteRows ((relations.head?.map fun item => item.relation.name).getD "") schema selection
          s.storage.wal.nextTxnId)
        (fun mid entry => DeletedRowRefused mid
          ((relations.head?.map fun item => item.relation.name).getD "") schema selection entry)
        (s.storage.scan ((relations.head?.map fun item => item.relation.name).getD "")) 0
        (s.opened true)
  | _ => False

omit [Runtime] in
theorem beginWriteTxn_outside (new : s.session = .new) :
    beginWriteTxn s = .ok s.storage.wal.nextTxnId (s.opened true) := by
  obtain ⟨db, session⟩ := s
  cases new
  rfl

omit [Runtime] in
theorem finishAutoCommitIfNeeded_inside {txnId : Nat} (automatic : s.session.autoCommit = true)
    (running : s.session.transaction.txnId = some txnId) :
    finishAutoCommitIfNeeded s = .ok () (s.committed txnId) := by
  obtain ⟨db, transaction, autoCommit⟩ := s
  cases automatic
  dsimp only at running
  simp only [finishAutoCommitIfNeeded, bind, EStateM.bind, get, getThe, MonadStateOf.get,
    EStateM.get, if_true, ExecM.liftTransaction, Transaction.commit, running, Except.map, modify,
    modifyGet, MonadStateOf.modifyGet, EStateM.modifyGet]
  rfl

section WriteStatements

variable {loop : Nat → ExecM Nat} {result : Nat → QueryResult}
  (keeps : ∀ txnId, Moves SameTransaction (loop txnId))

include keeps

omit [Runtime]

/-- A write statement outside a transaction leaves its own open when its row
loop fails, and returns `Ok` without one when the loop does not. -/
theorem writeStatement_outside (new : s.session = .new) :
    let statement : ExecM QueryResult := do
      let txnId ← beginWriteTxn
      let count ← loop txnId
      finishAutoCommitIfNeeded
      return result count
    (Fails (loop s.storage.wal.nextTxnId) (s.opened true) →
      (finalState statement s).session.transaction.active = true) ∧
    (¬Fails (loop s.storage.wal.nextTxnId) (s.opened true) →
      (finalState statement s).session = .new ∧ ¬Fails statement s) := by
  intro statement
  have same := keeps s.storage.wal.nextTxnId (s.opened true)
  constructor
  · rintro ⟨e, mid, failed⟩
    rw [finalState_of_error failed] at same
    rw [finalState_bind_of_ok (beginWriteTxn_outside new), finalState_bind_of_error failed]
    exact same.active
  · intro accepted
    obtain ⟨count, mid, ran⟩ := not_fails.mp accepted
    rw [finalState_of_ok ran] at same
    have returned : statement s = .ok (result count) (mid.committed s.storage.wal.nextTxnId) := by
      refine bind_eq_ok.mpr ⟨_, _, beginWriteTxn_outside new, bind_eq_ok.mpr ⟨_, _, ran, ?_⟩⟩
      refine bind_eq_ok.mpr ⟨(), _, finishAutoCommitIfNeeded_inside same.autoCommit same.txnId, ?_⟩
      rfl
    rw [finalState_of_ok returned]
    exact ⟨rfl, not_fails.mpr ⟨_, _, returned⟩⟩

/-- A write statement in a transaction begun by the client stays in it. -/
theorem writeStatement_inside (fits : s.session.Fits true) :
    (finalState (do
      let txnId ← beginWriteTxn
      let count ← loop txnId
      finishAutoCommitIfNeeded
      return result count : ExecM QueryResult) s).session.Fits true := by
  obtain ⟨txnId, running⟩ := Option.isSome_iff_exists.mp fits.2.1
  have begun : beginWriteTxn s = .ok txnId s := by
    simp only [beginWriteTxn, bind, EStateM.bind, get, getThe, MonadStateOf.get, EStateM.get,
      running]
    rfl
  have fitsAfter := (keeps txnId s).fits fits
  rw [finalState_bind_of_ok begun]
  cases outcome : loop txnId s with
  | error e mid =>
      rw [finalState_of_error outcome] at fitsAfter
      rw [finalState_bind_of_error outcome]
      exact fitsAfter
  | ok count mid =>
      rw [finalState_of_ok outcome] at fitsAfter
      have finished : finishAutoCommitIfNeeded mid = .ok () mid := by
        simp only [finishAutoCommitIfNeeded, bind, EStateM.bind, get, getThe, MonadStateOf.get,
          EStateM.get, fitsAfter.2.2, Bool.false_eq_true, if_false]
        rfl
      rw [finalState_bind_of_ok outcome, finalState_bind_of_ok finished]
      exact fitsAfter

end WriteStatements

theorem sameTransaction_insertRows (table : String) (schema : TableSchema)
    (onConflict : Option OnConflict) (txnId : Nat) (rows : List (List Value)) (count : Nat) :
    Moves SameTransaction (insertRows table schema onConflict txnId rows count) :=
  Moves.insertRows (fun _ _ _ => ⟨rfl, rfl, rfl⟩) sameTransaction_record
    (fun _ _ _ _ _ _ _ _ => ⟨rfl, rfl, rfl⟩) (fun _ _ _ => ⟨rfl, rfl, rfl⟩) _ _ _ _ _

theorem sameTransaction_updateRows (table : String) (schema : TableSchema)
    (assignments : List Assignment) (whereClause : Option Expr) (txnId : Nat)
    (rows : List (Nat × Row)) (count : Nat) :
    Moves SameTransaction (updateRows table schema assignments whereClause txnId rows count) :=
  Moves.updateRows (fun _ _ _ => ⟨rfl, rfl, rfl⟩) sameTransaction_record
    (fun _ _ _ _ _ _ _ _ => ⟨rfl, rfl, rfl⟩) _ _ _ _ _ _

theorem sameTransaction_deleteRows (table : String) (schema : TableSchema)
    (whereClause : Option Expr) (txnId : Nat) (rows : List (Nat × Row)) (count : Nat) :
    Moves SameTransaction (deleteRows table schema whereClause txnId rows count) :=
  Moves.deleteRows (fun _ _ _ => ⟨rfl, rfl, rfl⟩) sameTransaction_record
    (fun _ _ _ _ _ _ => ⟨rfl, rfl, rfl⟩) _ _ _ _ _

/-- A statement outside a transaction leaves one open if a row is refused, and
otherwise leaves none and, if it fails, an untouched log. -/
structure ClosesUnless (refused : Prop) (statement : ExecM QueryResult) (s : Executor) : Prop where
  stays : refused → (finalState statement s).session.transaction.active = true
  closes : ¬refused → (finalState statement s).session = .new
  unlogged : ¬refused → Fails statement s → (finalState statement s).storage.wal = s.storage.wal

omit [Runtime] in
/-- A statement that touches neither session nor log. -/
theorem closesUnless_untouched {refused : Prop} {statement : ExecM QueryResult}
    (new : s.session = .new) (accepted : ¬refused) (untouched : Untouched s (finalState statement s)) :
    ClosesUnless refused statement s :=
  ⟨fun stops => absurd stops accepted, fun _ => untouched.session.trans new, fun _ _ => untouched.wal⟩

omit [Runtime] in
/-- A check that fails ends the statement before it has begun. -/
theorem closesUnless_check {α : Type} {refused : Prop} {result : Except Failure α}
    {rest : α → ExecM QueryResult} (new : s.session = .new)
    (failed : ∀ e, result = .error e → ¬refused)
    (passed : ∀ a, result = .ok a → ClosesUnless refused (rest a) s) :
    ClosesUnless refused (ExecM.lift result >>= rest) s := by
  cases result with
  | error e => exact closesUnless_untouched new (failed e rfl) ⟨rfl, rfl⟩
  | ok a => exact passed a rfl

omit [Runtime] in
theorem closesUnless_read {refused : Prop} {rest : Executor → ExecM QueryResult}
    (closes : ClosesUnless refused (rest s) s) : ClosesUnless refused (get >>= rest) s :=
  ⟨closes.stays, closes.closes, closes.unlogged⟩

omit [Runtime] in
theorem closesUnless_write {loop : Nat → ExecM Nat} {result : Nat → QueryResult} {refused : Prop}
    (new : s.session = .new) (keeps : ∀ txnId, Moves SameTransaction (loop txnId))
    (refuses : Fails (loop s.storage.wal.nextTxnId) (s.opened true) ↔ refused) :
    ClosesUnless refused (do
      let txnId ← beginWriteTxn
      let count ← loop txnId
      finishAutoCommitIfNeeded
      return result count : ExecM QueryResult) s := by
  obtain ⟨stays, closes⟩ := @writeStatement_outside _ _ result keeps new
  rw [refuses] at stays closes
  exact ⟨stays, fun accepted => (closes accepted).1,
    fun accepted failed => absurd failed (closes accepted).2⟩

theorem closesUnless_insert (new : s.session = .new) (stmt : Insert) :
    ClosesUnless (RowRefused s (.insert stmt)) (insert stmt) s := by
  unfold insert
  simp only [RowRefused]
  cases source : stmt.source with
  | none =>
      refine closesUnless_untouched new ?_ ⟨rfl, rfl⟩
      rintro ⟨query, -, -, -, found, -⟩
      cases found
  | some query =>
      refine closesUnless_read (closesUnless_check new ?_ fun schema known => ?_)
      · rintro e unknown ⟨_, schema, -, -, -, known, -⟩
        cases unknown.symm.trans known
      refine closesUnless_check new ?_ fun rows values => ?_
      · rintro e unreadable ⟨_, -, rows, -, found, -, values, -⟩
        cases found
        cases unreadable.symm.trans values
      refine closesUnless_check new ?_ fun onConflict clause => ?_
      · rintro e unsupported ⟨_, -, -, onConflict, -, -, -, clause, -⟩
        cases unsupported.symm.trans clause
      refine closesUnless_write new (fun _ => sameTransaction_insertRows _ _ _ _ _ _) ?_
      rw [fails_insertRows]
      constructor
      · exact fun stops => ⟨query, schema, rows, onConflict, rfl, known, values, clause, stops⟩
      · rintro ⟨query', schema', rows', onConflict', found, known', values', clause', stops⟩
        cases found
        cases known.symm.trans known'
        cases values.symm.trans values'
        cases clause.symm.trans clause'
        exact stops

theorem closesUnless_update (new : s.session = .new) (table : TableWithJoins)
    (assignments : List Assignment) (selection : Option Expr) :
    ClosesUnless (RowRefused s (.update table assignments selection))
      (update table.relation.name assignments selection) s := by
  unfold update
  simp only [RowRefused]
  refine closesUnless_read (closesUnless_check new ?_ fun schema known => ?_)
  · rintro e unknown ⟨schema, known, -⟩
    cases unknown.symm.trans known
  refine closesUnless_write new (fun _ => sameTransaction_updateRows _ _ _ _ _ _ _) ?_
  rw [fails_updateRows]
  constructor
  · exact fun stops => ⟨schema, known, stops⟩
  · rintro ⟨schema', known', stops⟩
    cases known.symm.trans known'
    exact stops

theorem closesUnless_delete (new : s.session = .new) (relations : List TableWithJoins)
    (selection : Option Expr) :
    ClosesUnless (RowRefused s (.delete relations selection))
      (delete ((relations.head?.map fun item => item.relation.name).getD "") selection) s := by
  unfold delete
  simp only [RowRefused]
  refine closesUnless_read (closesUnless_check new ?_ fun schema known => ?_)
  · rintro e unknown ⟨schema, known, -⟩
    cases unknown.symm.trans known
  refine closesUnless_write new (fun _ => sameTransaction_deleteRows _ _ _ _ _ _) ?_
  rw [fails_deleteRows]
  constructor
  · exact fun stops => ⟨schema, known, stops⟩
  · rintro ⟨schema', known', stops⟩
    cases known.symm.trans known'
    exact stops

omit [Runtime] in
/-- Outside a transaction `COMMIT` is refused. -/
theorem untouched_commit (new : s.session = .new) : Untouched s (finalState commit s) := by
  obtain ⟨db, session⟩ := s
  cases new
  exact ⟨rfl, rfl⟩

/-- Outside a transaction `ROLLBACK` is refused. -/
theorem untouched_rollback (new : s.session = .new) : Untouched s (finalState rollback s) := by
  obtain ⟨db, session⟩ := s
  cases new
  exact ⟨rfl, rfl⟩

/-- **A statement outside a transaction stands alone unless a row is refused.** -/
theorem closesUnless_statement (new : s.session = .new) {stmt : Statement}
    (notBegin : stmt ≠ .startTransaction) :
    ClosesUnless (RowRefused s stmt) (executeStatement stmt) s := by
  have still : ∀ {statement : ExecM QueryResult}, Moves Untouched statement →
      ¬RowRefused s stmt → ClosesUnless (RowRefused s stmt) statement s :=
    fun untouched accepted => closesUnless_untouched new accepted (untouched s)
  cases stmt with
  | startTransaction => exact absurd rfl notBegin
  | commit => exact closesUnless_untouched new id (untouched_commit new)
  | rollback => exact closesUnless_untouched new id (untouched_rollback new)
  | createTable name columns constraints => exact still (Moves.createTable untouched_schema _ _ _) id
  | drop objectType names =>
      cases objectType with
      | table =>
          cases names with
          | nil => exact still (Moves.fail _) id
          | cons name rest => exact still (Moves.dropTable untouched_schema _) id
      | other display => exact still (Moves.fail _) id
  | insert stmt => exact closesUnless_insert new stmt
  | query query => exact still (.seq Moves.read fun _ => Moves.lift _) id
  | update table assignments selection => exact closesUnless_update new _ _ _
  | delete relations selection => exact closesUnless_delete new _ _
  | createIndex name tableName columns unique =>
      exact still (Moves.createIndex untouched_schema _ _ _ _) id
  | explain statement => exact still (.seq Moves.read fun _ => Moves.lift _) id
  | other display => exact still (Moves.fail _) id

theorem untouched_undoAll (records : List UndoRecord) : Moves Untouched (undoAll records) := by
  refine Moves.undoAll (fun _ _ _ => ⟨rfl, rfl⟩) (fun _ _ _ _ => ⟨rfl, rfl⟩) ?_ ?_ records
  · intro s table rowId row changed storage ran
    obtain ⟨tables, rfl, -⟩ := StorageEngine.applyUpdate_outcome ran
    exact ⟨rfl, rfl⟩
  · intro s table rowId deleted storage ran
    obtain ⟨tables, rfl, -⟩ := StorageEngine.applyDelete_outcome ran
    exact ⟨rfl, rfl⟩

omit [Runtime] in
/-- `COMMIT` ends the transaction the client has begun. -/
theorem commit_inside (fits : s.session.Fits true) : (finalState commit s).session = .new := by
  obtain ⟨db, transaction, autoCommit⟩ := s
  obtain ⟨active, running, -⟩ := fits
  obtain ⟨txnId, running⟩ := Option.isSome_iff_exists.mp running
  dsimp only at active running
  simp only [finalState, commit, bind, EStateM.bind, get, getThe, MonadStateOf.get, EStateM.get,
    active, Bool.not_true, Bool.false_eq_true, if_false, modify, modifyGet, MonadStateOf.modifyGet,
    EStateM.modifyGet, ExecM.liftTransaction, Transaction.commit, running, Except.map]
  rfl

/-- `ROLLBACK` ends it, also when its undo fails. -/
theorem rollback_inside (fits : s.session.Fits true) : (finalState rollback s).session = .new := by
  obtain ⟨txnId, running⟩ := Option.isSome_iff_exists.mp fits.2.1
  have kept := untouched_undoAll s.session.transaction.undo.reverse (s.aborted txnId)
  rw [finalState, rollback_aborted fits.1 running, ← finalState]
  cases outcome : undoAll s.session.transaction.undo.reverse (s.aborted txnId) with
  | error e mid =>
      rw [finalState_of_error outcome] at kept
      rw [finalState_bind_of_error outcome]
      exact kept.session
  | ok u mid =>
      rw [finalState_of_ok outcome] at kept
      rw [finalState_bind_of_ok outcome]
      exact kept.session

omit [Runtime] in
theorem begin_inside (fits : s.session.Fits true) : finalState begin s = s := by
  obtain ⟨db, transaction, autoCommit⟩ := s
  obtain ⟨active, -, -⟩ := fits
  dsimp only at active
  simp only [finalState, begin, bind, EStateM.bind, get, getThe, MonadStateOf.get, EStateM.get,
    active, if_true]
  rfl

omit [Runtime] in
/-- A check that fails leaves the session where it is. -/
theorem fits_check {α : Type} {result : Except Failure α} {rest : α → ExecM QueryResult}
    (fits : s.session.Fits true) (passed : ∀ a, (finalState (rest a) s).session.Fits true) :
    (finalState (ExecM.lift result >>= rest) s).session.Fits true := by
  cases result with
  | error e => exact fits
  | ok a => exact passed a

theorem insert_inside (fits : s.session.Fits true) (stmt : Insert) :
    (finalState (insert stmt) s).session.Fits true := by
  unfold insert
  cases stmt.source with
  | none => exact fits
  | some source =>
      exact fits_check fits fun _ => fits_check fits fun _ => fits_check fits fun _ =>
        writeStatement_inside (fun _ => sameTransaction_insertRows _ _ _ _ _ _) fits

theorem update_inside (fits : s.session.Fits true) (table : String) (assignments : List Assignment)
    (whereClause : Option Expr) :
    (finalState (update table assignments whereClause) s).session.Fits true :=
  fits_check fits fun _ =>
    writeStatement_inside (fun _ => sameTransaction_updateRows _ _ _ _ _ _ _) fits

theorem delete_inside (fits : s.session.Fits true) (table : String) (whereClause : Option Expr) :
    (finalState (delete table whereClause) s).session.Fits true :=
  fits_check fits fun _ =>
    writeStatement_inside (fun _ => sameTransaction_deleteRows _ _ _ _ _ _) fits

/-- A statement in a transaction leaves the session in it, or ends it. -/
theorem fits_inside (fits : s.session.Fits true) (stmt : Statement) :
    (finalState (executeStatement stmt) s).session.Fits (stmt.pendingAfter true) := by
  have still : ∀ {statement : ExecM QueryResult}, Moves Untouched statement →
      (finalState statement s).session.Fits true := by
    intro statement untouched
    rw [(untouched s).session]
    exact fits
  cases stmt with
  | startTransaction =>
      rw [executeStatement, begin_inside fits]
      exact fits
  | commit => exact commit_inside fits
  | rollback => exact rollback_inside fits
  | createTable name columns constraints => exact still (Moves.createTable untouched_schema _ _ _)
  | drop objectType names =>
      cases objectType with
      | table =>
          cases names with
          | nil => exact still (Moves.fail _)
          | cons name rest => exact still (Moves.dropTable untouched_schema _)
      | other display => exact still (Moves.fail _)
  | insert stmt => exact insert_inside fits stmt
  | query query => exact still (.seq Moves.read fun _ => Moves.lift _)
  | update table assignments selection => exact update_inside fits _ _ _
  | delete relations selection => exact delete_inside fits _ _
  | createIndex name tableName columns unique =>
      exact still (Moves.createIndex untouched_schema _ _ _ _)
  | explain statement => exact still (.seq Moves.read fun _ => Moves.lift _)
  | other display => exact still (Moves.fail _)

omit [Runtime] in
/-- Outside a transaction `BEGIN` is accepted. -/
theorem begin_outside (new : s.session = .new) :
    begin s = .ok (.modified 0 "BEGIN") (s.opened false) := by
  rw [begin_eq_ok, new]
  exact ⟨rfl, rfl, rfl⟩

end Statements

section Turns

variable [Runtime]

/-- A statement of a connection: the state it finds, and whether the client has
a transaction open. -/
structure SessionTurn where
  pending : Bool
  before : Executor
  stmt : Statement

namespace SessionTurn

/-- The state the statement leaves. -/
def after (turn : SessionTurn) : Executor := finalState (executeStatement turn.stmt) turn.before

/-- Whether the client has a transaction open afterwards. -/
def stillPending (turn : SessionTurn) : Bool := turn.stmt.pendingAfter turn.pending

/-- Outside a transaction the statement leaves none, so that the client may begin
one and is told so; and if it fails it has logged nothing that a later commit
could cover. -/
structure StandsAlone (turn : SessionTurn) : Prop where
  inactive : turn.stillPending = false → turn.after.session.transaction.active = false
  manual : turn.stillPending = false → turn.after.session.autoCommit = false
  begins : turn.stillPending = false →
    ∃ s, begin turn.after = .ok (.modified 0 "BEGIN") s
  ready : turn.stillPending = false → ∀ conn : ConnectionSession,
    conn.session = turn.after.session → conn.readyStatus ≠ 'T'.toUInt8
  unlogged : turn.pending = false → Fails (executeStatement turn.stmt) turn.before →
    turn.after.storage.wal = turn.before.storage.wal

/-- The condition: outside a transaction no row is refused. -/
def NoRowRefused (turn : SessionTurn) : Prop :=
  turn.pending = false → ¬RowRefused turn.before turn.stmt

end SessionTurn

/-- The statements of one connection in order. Before each of them, other
connections may have changed the database. -/
def sessionTurns (pending : Bool) (s : Executor) :
    List ((Database → Database) × Statement) → List SessionTurn
  | [] => []
  | (others, stmt) :: rest =>
      let turn : SessionTurn :=
        { pending, before := { others s.toDatabase with session := s.session }, stmt }
      turn :: sessionTurns turn.stillPending turn.after rest

/-- Without a refused row the session fits what the client has begun. -/
theorem SessionTurn.fits {turn : SessionTurn} (fits : turn.before.session.Fits turn.pending)
    (accepted : turn.NoRowRefused) : turn.after.session.Fits turn.stillPending := by
  obtain ⟨pending, before, stmt⟩ := turn
  cases pending with
  | true => exact fits_inside fits stmt
  | false =>
      by_cases starts : stmt = .startTransaction
      · subst starts
        have begun := finalState_of_ok (begin_outside fits)
        simp only [after, executeStatement, begun]
        exact ⟨rfl, rfl, rfl⟩
      · have closed := (closesUnless_statement fits starts).closes (accepted rfl)
        have outside : stmt.pendingAfter false = false := by
          cases stmt with
          | startTransaction => exact absurd rfl starts
          | _ => rfl
        simp only [stillPending, outside]
        exact closed

/-- **One statement stands alone exactly when no row of it is refused.** -/
theorem SessionTurn.standsAlone_iff {turn : SessionTurn}
    (fits : turn.before.session.Fits turn.pending) : turn.StandsAlone ↔ turn.NoRowRefused := by
  constructor
  · intro alone outside refused
    have new : turn.before.session = .new := by
      rw [outside] at fits
      exact fits
    have notBegin : turn.stmt ≠ .startTransaction := by
      intro starts
      rw [starts] at refused
      exact refused
    have open_ := (closesUnless_statement new notBegin).stays refused
    have closed : turn.stillPending = false := by
      unfold stillPending
      rw [outside]
      cases stmt : turn.stmt with
      | startTransaction => exact absurd stmt notBegin
      | _ => rfl
    have inactive := alone.inactive closed
    exact Bool.noConfusion (inactive.symm.trans open_)
  · intro accepted
    have fitsAfter := SessionTurn.fits fits accepted
    have idle : turn.stillPending = false → turn.after.session = .new := by
      intro closed
      rw [closed] at fitsAfter
      exact fitsAfter
    constructor
    · intro closed
      rw [idle closed]
      rfl
    · intro closed
      rw [idle closed]
      rfl
    · exact fun closed => ⟨_, begin_outside (idle closed)⟩
    · intro closed conn same
      rw [ConnectionSession.readyStatus, same, idle closed]
      cases conn.inError <;> decide
    · intro outside failed
      have new : turn.before.session = .new := by
        rw [outside] at fits
        exact fits
      by_cases starts : turn.stmt = .startTransaction
      · rw [starts] at failed
        exact absurd failed (not_fails.mpr ⟨_, _, begin_outside new⟩)
      · exact (closesUnless_statement new starts).unlogged (accepted outside) failed

/-- **Outside a transaction each statement stands alone exactly as long as no
row is refused.** For every sequence of statements of a connection, with any
changes by other connections in between. -/
theorem statements_stand_alone_iff (db : Database)
    (stmts : List ((Database → Database) × Statement)) :
    (∀ turn ∈ sessionTurns false { db with session := .new } stmts, turn.StandsAlone) ↔
      ∀ turn ∈ sessionTurns false { db with session := .new } stmts, turn.NoRowRefused := by
  have run : ∀ (stmts : List ((Database → Database) × Statement)) (pending : Bool) (s : Executor),
      s.session.Fits pending →
      ((∀ turn ∈ sessionTurns pending s stmts, turn.StandsAlone) ↔
        ∀ turn ∈ sessionTurns pending s stmts, turn.NoRowRefused) := by
    intro stmts
    induction stmts with
    | nil => exact fun _ _ _ => ⟨fun _ _ => nofun, fun _ _ => nofun⟩
    | cons entry rest ih =>
        intro pending s fits
        obtain ⟨others, stmt⟩ := entry
        simp only [sessionTurns, List.forall_mem_cons]
        let turn : SessionTurn :=
          { pending, before := { others s.toDatabase with session := s.session }, stmt }
        have first : turn.StandsAlone ↔ turn.NoRowRefused := SessionTurn.standsAlone_iff fits
        rw [first]
        exact and_congr_right fun accepted => ih _ _ (@SessionTurn.fits _ turn fits accepted)
  exact run stmts false _ rfl

end Turns

/-- A row refused for its primary key leaves the statement's transaction open. -/
theorem refused_row_leaves_transaction :
    ¬∀ turn ∈ @sessionTurns Runtime.reference false
        { (Executor.fresh).toDatabase with session := .new }
        ([createT, insertT [1], insertT [1], insertT [2]].map fun stmt => (id, stmt)),
      @SessionTurn.StandsAlone Runtime.reference turn := by
  intro alone
  have active : (@sessionTurns Runtime.reference false
      { (Executor.fresh).toDatabase with session := .new }
      ([createT, insertT [1], insertT [1], insertT [2]].map fun stmt => (id, stmt))).any
      (fun turn => !turn.stillPending &&
        (@SessionTurn.after Runtime.reference turn).session.transaction.active) = true := by
    decide +kernel
  obtain ⟨turn, member, shown⟩ := List.any_eq_true.mp active
  rw [Bool.and_eq_true, Bool.not_eq_true'] at shown
  have inactive := @SessionTurn.StandsAlone.inactive Runtime.reference _ (alone turn member) shown.1
  exact Bool.noConfusion (inactive.symm.trans shown.2)

-- The next statement of the connection commits the refused row with its own.
example :
    ((@sessionTurns Runtime.reference false { (Executor.fresh).toDatabase with session := .new }
      ([createT, insertT [1], insertT [1], insertT [2]].map fun stmt => (id, stmt))).getLast?.map
      fun turn => (@SessionTurn.after Runtime.reference turn).storage.wal.file.map Prod.snd) =
    some [.begin 1, .insert 1 "t" 1 (Row.new [.int4 1]), .commit 1, .begin 2,
      .insert 2 "t" 2 (Row.new [.int4 1]), .insert 2 "t" 3 (Row.new [.int4 2]), .commit 2] := by
  decide +kernel

end MoodengSQL
