import MoodengSQL.Core.Executor
import MoodengSQL.Foundation.Effect
import MoodengSQL.Storage.Contents

/-!
# Row changes

Statements change rows one at a time. A row step stores, replaces or removes
one row, logs it, moves its keys in the indexes and records its undo. Every
statement that changes rows and returns `Ok` is a sequence of row steps.
-/

namespace MoodengSQL

open Foundation Foundation.Effect Relation

namespace ExecM

variable {α : Type} {s s' : Executor} {a : α} {e : Failure}

theorem lift_eq_ok {result : Except Failure α} :
    lift result s = .ok a s' ↔ result = .ok a ∧ s = s' := by
  cases result with
  | ok b => simp [lift, pure_eq_ok]
  | error e => simp [lift, throw_eq_ok]

theorem lift_eq_error {result : Except Failure α} :
    lift result s = .error e s' ↔ result = .error e ∧ s = s' := by
  cases result with
  | ok b => simp [lift, pure_eq_error]
  | error e => simp [lift, throw_eq_error]

theorem liftStorage_eq_ok {op : StorageEngine → Except Failure (α × StorageEngine)} :
    liftStorage op s = .ok a s' ↔
      ∃ storage, op s.storage = .ok (a, storage) ∧ s' = { s with storage } := by
  unfold liftStorage
  cases op s.storage with
  | ok result => simp [Prod.ext_iff, eq_comm, and_assoc]
  | error e => simp

theorem liftStorage_eq_error {op : StorageEngine → Except Failure (α × StorageEngine)} :
    liftStorage op s = .error e s' ↔ op s.storage = .error e ∧ s = s' := by
  unfold liftStorage
  cases op s.storage with
  | ok result => simp
  | error e => simp

theorem liftIndexes_eq_ok {op : IndexManager → Except Failure α × IndexManager} :
    liftIndexes op s = .ok a s' ↔
      ∃ indexes, op s.indexes = (.ok a, indexes) ∧ s' = { s with indexes } := by
  unfold liftIndexes
  cases op s.indexes with
  | mk result indexes => cases result <;> simp [eq_comm]

theorem liftIndexes_eq_error {op : IndexManager → Except Failure α × IndexManager} :
    liftIndexes op s = .error e s' ↔
      ∃ indexes, op s.indexes = (.error e, indexes) ∧ s' = { s with indexes } := by
  unfold liftIndexes
  cases op s.indexes with
  | mk result indexes => cases result <;> simp [eq_comm]

theorem liftTransaction_eq_ok
    {op : Transaction → WriteAheadLog → Except Failure (α × Transaction × WriteAheadLog)} :
    liftTransaction op s = .ok a s' ↔
      ∃ transaction wal, op s.session.transaction s.storage.wal = .ok (a, transaction, wal) ∧
        s' = { s with
          storage := { s.storage with wal }
          session := { s.session with transaction } } := by
  unfold liftTransaction
  cases op s.session.transaction s.storage.wal with
  | ok result => simp [Prod.ext_iff, eq_comm, and_assoc]
  | error e => simp

end ExecM

/-- A change of one row. -/
inductive RowChange where
  | insert (row : Row)
  | update (old new : Row)
  | delete (old : Row)

namespace RowChange

/-- The row before the change. -/
def before : RowChange → Option Row
  | insert _ => none
  | update old _ => some old
  | delete old => some old

/-- The row after the change. -/
def after : RowChange → Option Row
  | insert row => some row
  | update _ new => some new
  | delete _ => none

/-- The record the change leaves in the log. -/
def walOp (txnId : Nat) (key : RowKey) : RowChange → WalOp
  | insert row => .insert txnId key.1 key.2 row
  | update _ new => .update txnId key.1 key.2 new
  | delete _ => .delete txnId key.1 key.2

/-- The undo record of the change. -/
def undo (key : RowKey) : RowChange → UndoRecord
  | insert _ => .insert key.1 key.2
  | update old _ => .update key.1 key.2 old
  | delete old => .delete key.1 key.2 old

end RowChange

/-- One row changes: it is stored and logged, its keys move in the indexes, and
its undo is recorded. -/
structure RowStep [Runtime] (txnId : Nat) (key : RowKey) (change : RowChange)
    (s s' : Executor) : Prop where
  reindexed : ∃ schema, s.catalog[key.1]? = some schema ∧
    Reindexed s.indexes key.1 schema.colNames key.2 (change.before.map Row.values)
      (change.after.map Row.values) s'.indexes
  current : s.storage.view key = change.before
  stored : ∃ tables, s'.storage = .log { s.storage with tables } (change.walOp txnId key) ∧
    (∀ name ∈ s.storage.tables, name ∈ tables) ∧
    tablesView tables = Function.update s.storage.view key change.after
  catalog : s'.catalog = s.catalog
  metaFile : s'.metaFile = s.metaFile
  session : s'.session = s.session.recordUndo (change.undo key)

/-- Some row changes within the transaction. -/
def SomeRowStep [Runtime] (txnId : Nat) (s s' : Executor) : Prop :=
  ∃ key change, RowStep txnId key change s s'

section Steps

variable [Runtime] {s s' : Executor} {table : String} {schema : TableSchema} {txnId : Nat}

theorem RowStep.view {key : RowKey} {change : RowChange} (step : RowStep txnId key change s s') :
    s'.storage.view = Function.update s.storage.view key change.after := by
  obtain ⟨tables, stored, -, changed⟩ := step.stored
  rw [stored, StorageEngine.view, StorageEngine.tables_log, changed]

theorem RowStep.contents {key : RowKey} {change : RowChange}
    (step : RowStep txnId key change s s') :
    s'.storage.contents =
      Function.update s.storage.contents key (change.after.map Row.values) :=
  StorageEngine.contents_eq_update step.view

omit [Runtime] in
/-- The session stays in its transaction while it changes rows. -/
theorem Session.recordUndo_txnId (session : Session) (entry : UndoRecord) :
    (session.recordUndo entry).transaction.txnId = session.transaction.txnId ∧
      (session.recordUndo entry).transaction.active = session.transaction.active ∧
      (session.recordUndo entry).autoCommit = session.autoCommit := by
  unfold Session.recordUndo Transaction.record
  split
  · dsimp only
    split <;> simp
  · simp

theorem storeRow_ok {rowValues : List Value} {u : Unit}
    (known : s.catalog[table]? = some schema)
    (ran : storeRow table schema txnId rowValues s = .ok u s') :
    s'.storage = (s.storage.insert table (Row.new rowValues) txnId).2 ∧
      RowStep txnId (table, (s.storage.insert table (Row.new rowValues) txnId).1)
        (.insert (Row.new rowValues)) s s' := by
  obtain ⟨rowId, tables, inserted, absent, changed⟩ :=
    StorageEngine.insert_spec s.storage table (Row.new rowValues) txnId
  simp only [storeRow, recordUndo, ExecM.insertIndexRow, bind_eq_ok, ExecM.liftStorage_eq_ok,
    ExecM.liftIndexes_eq_ok, modify_eq_ok, inserted, Except.ok.injEq, Prod.mk.injEq] at ran
  obtain ⟨_, _, ⟨_, ⟨rfl, rfl⟩, rfl⟩, _, _, ⟨indexes, indexed, rfl⟩, rfl⟩ := ran
  rw [inserted]
  exact ⟨rfl, ⟨schema, known, indexed⟩, absent, ⟨tables, rfl, changed⟩, rfl, rfl, rfl⟩

theorem rewriteRow_ok {assignments : List Assignment} {excluded : Option (List Value)}
    {rowId : Nat} {row : Row} {u : Unit} (known : s.catalog[table]? = some schema)
    (current : s.storage.view (table, rowId) = some row)
    (ran : rewriteRow table schema assignments excluded txnId rowId row s = .ok u s') :
    ∃ values, assignAll schema excluded assignments row.values = .ok values ∧
      validateRow schema values = .ok () ∧
      (∃ changed, s.storage.update table rowId { row with values } txnId row.version =
        .ok (changed, s'.storage)) ∧
      RowStep txnId (table, rowId) (.update row { values, version := row.version + 1 }) s s' := by
  simp only [rewriteRow, recordUndo, ExecM.insertIndexRow, ExecM.removeIndexRow, bind_eq_ok,
    ExecM.lift_eq_ok, ExecM.liftStorage_eq_ok, ExecM.liftIndexes_eq_ok, modify_eq_ok] at ran
  obtain ⟨_, _, rfl, _, _, rfl, values, _, ⟨assigned, rfl⟩, _, _, ⟨valid, rfl⟩, changed, _,
    ⟨storage, updated, rfl⟩, indexes, indexed, rfl⟩ := ran
  obtain ⟨-, stored⟩ := StorageEngine.update_spec current updated
  exact ⟨values, assigned, valid, ⟨changed, updated⟩,
    ⟨schema, known, indexed⟩, current, stored, rfl, rfl, rfl⟩

theorem removeRow_ok {rowId : Nat} {row : Row} {u : Unit}
    (known : s.catalog[table]? = some schema)
    (current : s.storage.view (table, rowId) = some row)
    (ran : removeRow table schema txnId rowId row s = .ok u s') :
    RowStep txnId (table, rowId) (.delete row) s s' := by
  simp only [removeRow, recordUndo, ExecM.removeIndexRow, bind_eq_ok, ExecM.liftStorage_eq_ok,
    modify_eq_ok, pure_eq_ok] at ran
  obtain ⟨_, _, rfl, _, _, rfl, changed, _, ⟨storage, deleted, rfl⟩, -, rfl⟩ := ran
  exact ⟨⟨schema, known, rfl⟩, current, StorageEngine.delete_spec current deleted, rfl, rfl, rfl⟩

/-- Row steps leave the catalog alone. -/
theorem rowSteps_catalog (steps : ReflTransGen (SomeRowStep txnId) s s') :
    s'.catalog = s.catalog := by
  induction steps with
  | refl => rfl
  | tail _ step ih =>
      obtain ⟨key, change, step⟩ := step
      rw [step.catalog, ih]

theorem applyConflictUpdate_ok {rowId : Nat} {proposed : List Value} {update : DoUpdate} {u : Unit}
    (known : s.catalog[table]? = some schema)
    (ran : applyConflictUpdate table schema rowId proposed update txnId s = .ok u s') :
    ReflTransGen (SomeRowStep txnId) s s' := by
  simp only [applyConflictUpdate, bind_eq_ok, get_eq_ok] at ran
  obtain ⟨_, _, ⟨rfl, rfl⟩, ran⟩ := ran
  cases present : s.storage.get table rowId with
  | none =>
      rw [present] at ran
      cases throw_eq_ok.mp ran
  | some existing =>
      rw [present] at ran
      have rewritten : ∀ applies : Bool,
          (if applies then rewriteRow table schema update.assignments (some proposed) txnId rowId
            existing else pure ()) s = .ok u s' → ReflTransGen (SomeRowStep txnId) s s' := by
        intro applies ran
        cases applies with
        | true =>
            obtain ⟨_, -, -, -, step⟩ := rewriteRow_ok known present ran
            exact .single ⟨_, _, step⟩
        | false => rw [(pure_eq_ok.mp ran).2]
      cases condition : update.selection with
      | none =>
          simp only [condition, bind_eq_ok, pure_eq_ok] at ran
          obtain ⟨applies, _, ⟨rfl, rfl⟩, ran⟩ := ran
          exact rewritten true ran
      | some clause =>
          simp only [condition, bind_eq_ok, ExecM.lift_eq_ok] at ran
          obtain ⟨applies, _, ⟨decided, rfl⟩, ran⟩ := ran
          exact rewritten applies ran

/-- The row loop of `INSERT` is a sequence of row steps. -/
theorem insertRows_ok {onConflict : Option OnConflict} {rows : List (List Value)}
    {count result : Nat} (known : s.catalog[table]? = some schema)
    (ran : insertRows table schema onConflict txnId rows count s = .ok result s') :
    ReflTransGen (SomeRowStep txnId) s s' := by
  induction rows generalizing s count with
  | nil =>
      rw [(pure_eq_ok.mp ran).2]
  | cons values rest ih =>
      have store : ∀ {rowValues : List Value} {u : Unit} {mid : Executor},
          storeRow table schema txnId rowValues s = .ok u mid →
          insertRows table schema onConflict txnId rest (count + 1) mid = .ok result s' →
          ReflTransGen (SomeRowStep txnId) s s' := by
        intro rowValues u mid stored ran
        obtain ⟨-, step⟩ := storeRow_ok known stored
        exact .head ⟨_, _, step⟩ (ih (step.catalog ▸ known) ran)
      simp only [insertRows, bind_eq_ok, ExecM.lift_eq_ok] at ran
      obtain ⟨rowValues, _, ⟨coerced, rfl⟩, _, _, ⟨valid, rfl⟩, ran⟩ := ran
      cases onConflict with
      | none =>
          obtain ⟨_, mid, stored, ran⟩ := bind_eq_ok.mp ran
          exact store stored ran
      | some conflict =>
          simp only [bind_eq_ok, get_eq_ok, ExecM.lift_eq_ok] at ran
          obtain ⟨_, _, ⟨rfl, rfl⟩, existing, _, ⟨found, rfl⟩, ran⟩ := ran
          cases existing with
          | none =>
              obtain ⟨_, mid, stored, ran⟩ := bind_eq_ok.mp ran
              exact store stored ran
          | some existingId =>
              cases action : conflict.action with
              | doNothing =>
                  simp only [action] at ran
                  exact ih known ran
              | doUpdate update =>
                  simp only [action] at ran
                  obtain ⟨_, mid, updated, ran⟩ := bind_eq_ok.mp ran
                  have steps := applyConflictUpdate_ok known updated
                  exact steps.trans (ih (rowSteps_catalog steps ▸ known) ran)

/-- The rows still to visit are stored as they were read. -/
def StillStored (s : Executor) (table : String) (rows : List (Nat × Row)) : Prop :=
  (rows.map Prod.fst).Nodup ∧ ∀ entry ∈ rows, s.storage.view (table, entry.1) = some entry.2

/-- Visiting a row leaves the rows behind it as they were read. -/
theorem StillStored.tail {entry : Nat × Row} {rest : List (Nat × Row)}
    (stored : StillStored s table (entry :: rest)) {change : RowChange}
    (step : RowStep txnId (table, entry.1) change s s') : StillStored s' table rest := by
  obtain ⟨distinct, present⟩ := stored
  obtain ⟨fresh, distinct⟩ := List.nodup_cons.mp distinct
  refine ⟨distinct, fun other member => ?_⟩
  have differ : (table, other.1) ≠ (table, entry.1) := fun same =>
    fresh (List.mem_map.mpr ⟨other, member, by simpa using same⟩)
  rw [step.view, Function.update_of_ne differ]
  exact present other (List.mem_cons_of_mem _ member)

/-- A loop over rows that takes a step on each row a condition chooses. -/
inductive Visits (chosen : Row → Except Failure Bool)
    (step : Nat × Row → Executor → Executor → Prop) :
    List (Nat × Row) → Nat → Executor → Executor → Prop
  | done {s : Executor} : Visits chosen step [] 0 s s
  | skip {entry : Nat × Row} {rest : List (Nat × Row)} {n : Nat} {s s' : Executor}
      (decided : chosen entry.2 = .ok false) (visits : Visits chosen step rest n s s') :
      Visits chosen step (entry :: rest) n s s'
  | take {entry : Nat × Row} {rest : List (Nat × Row)} {n : Nat} {s mid s' : Executor}
      (decided : chosen entry.2 = .ok true) (taken : step entry s mid)
      (visits : Visits chosen step rest n mid s') :
      Visits chosen step (entry :: rest) (n + 1) s s'

theorem Visits.rowSteps {chosen : Row → Except Failure Bool}
    {step : Nat × Row → Executor → Executor → Prop} {rows : List (Nat × Row)} {n : Nat}
    (rowStep : ∀ {entry s s'}, step entry s s' → SomeRowStep txnId s s')
    (visits : Visits chosen step rows n s s') : ReflTransGen (SomeRowStep txnId) s s' := by
  induction visits with
  | done => exact .refl
  | skip _ _ ih => exact ih
  | take _ taken _ ih => exact .head (rowStep taken) ih

/-- `UPDATE` runs the assignments on a row. -/
def Updates (table : String) (schema : TableSchema) (assignments : List Assignment) (txnId : Nat)
    (entry : Nat × Row) (s s' : Executor) : Prop :=
  ∃ values, assignAll schema none assignments entry.2.values = .ok values ∧
    RowStep txnId (table, entry.1) (.update entry.2 { values, version := entry.2.version + 1 }) s s'

/-- `DELETE` removes a row. -/
def Deletes (table : String) (txnId : Nat) (entry : Nat × Row) (s s' : Executor) : Prop :=
  RowStep txnId (table, entry.1) (.delete entry.2) s s'

omit [Runtime] in
theorem StillStored.skip {entry : Nat × Row} {rest : List (Nat × Row)}
    (stored : StillStored s table (entry :: rest)) : StillStored s table rest :=
  ⟨(List.nodup_cons.mp stored.1).2,
    fun other member => stored.2 other (List.mem_cons_of_mem _ member)⟩

/-- The row loop of `UPDATE` visits the rows it was given. -/
theorem updateRows_visits {assignments : List Assignment} {whereClause : Option Expr}
    {rows : List (Nat × Row)} {count result : Nat} (known : s.catalog[table]? = some schema)
    (stored : StillStored s table rows)
    (ran : updateRows table schema assignments whereClause txnId rows count s = .ok result s') :
    ∃ n, result = count + n ∧
      Visits (selects whereClause · schema.colNames) (Updates table schema assignments txnId)
        rows n s s' := by
  induction rows generalizing s count with
  | nil =>
      obtain ⟨rfl, rfl⟩ := pure_eq_ok.mp ran
      exact ⟨0, rfl, .done⟩
  | cons entry rest ih =>
      simp only [updateRows, bind_eq_ok, ExecM.lift_eq_ok] at ran
      obtain ⟨chosen, _, ⟨decided, rfl⟩, ran⟩ := ran
      cases chosen with
      | true =>
          obtain ⟨_, mid, rewritten, ran⟩ := bind_eq_ok.mp ran
          obtain ⟨values, assigned, -, -, step⟩ :=
            rewriteRow_ok known (stored.2 entry List.mem_cons_self) rewritten
          obtain ⟨n, rfl, visits⟩ := ih (step.catalog ▸ known) (stored.tail step) ran
          exact ⟨n + 1, by omega, .take decided ⟨values, assigned, step⟩ visits⟩
      | false =>
          obtain ⟨n, counted, visits⟩ := ih known stored.skip ran
          exact ⟨n, counted, .skip decided visits⟩

/-- The row loop of `DELETE` visits the rows it was given. -/
theorem deleteRows_visits {whereClause : Option Expr} {rows : List (Nat × Row)}
    {count result : Nat} (known : s.catalog[table]? = some schema)
    (stored : StillStored s table rows)
    (ran : deleteRows table schema whereClause txnId rows count s = .ok result s') :
    ∃ n, result = count + n ∧
      Visits (selects whereClause · schema.colNames) (Deletes table txnId) rows n s s' := by
  induction rows generalizing s count with
  | nil =>
      obtain ⟨rfl, rfl⟩ := pure_eq_ok.mp ran
      exact ⟨0, rfl, .done⟩
  | cons entry rest ih =>
      simp only [deleteRows, bind_eq_ok, ExecM.lift_eq_ok] at ran
      obtain ⟨chosen, _, ⟨decided, rfl⟩, ran⟩ := ran
      cases chosen with
      | true =>
          obtain ⟨_, mid, removed, ran⟩ := bind_eq_ok.mp ran
          have step := removeRow_ok known (stored.2 entry List.mem_cons_self) removed
          obtain ⟨n, rfl, visits⟩ := ih (step.catalog ▸ known) (stored.tail step) ran
          exact ⟨n + 1, by omega, .take decided step visits⟩
      | false =>
          obtain ⟨n, counted, visits⟩ := ih known stored.skip ran
          exact ⟨n, counted, .skip decided visits⟩

/-- The row loop of `UPDATE` is a sequence of row steps. -/
theorem updateRows_ok {assignments : List Assignment} {whereClause : Option Expr}
    {rows : List (Nat × Row)} {count result : Nat} (known : s.catalog[table]? = some schema)
    (stored : StillStored s table rows)
    (ran : updateRows table schema assignments whereClause txnId rows count s = .ok result s') :
    ReflTransGen (SomeRowStep txnId) s s' := by
  obtain ⟨n, -, visits⟩ := updateRows_visits known stored ran
  exact visits.rowSteps fun ⟨_, _, step⟩ => ⟨_, _, step⟩

/-- The row loop of `DELETE` is a sequence of row steps. -/
theorem deleteRows_ok {whereClause : Option Expr} {rows : List (Nat × Row)} {count result : Nat}
    (known : s.catalog[table]? = some schema) (stored : StillStored s table rows)
    (ran : deleteRows table schema whereClause txnId rows count s = .ok result s') :
    ReflTransGen (SomeRowStep txnId) s s' := by
  obtain ⟨n, -, visits⟩ := deleteRows_visits known stored ran
  exact visits.rowSteps fun step => ⟨_, _, step⟩

end Steps

end MoodengSQL
