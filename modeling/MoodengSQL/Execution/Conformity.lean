import MoodengSQL.Execution.Failure
import MoodengSQL.Recovery.SchemaFile

/-!
# Rows conform to their schema

Every value enters storage through a coercion to the type of its column, every
row is checked for `NOT NULL` before it is written, and undo writes back rows
that were stored before. The invariant covers the stored rows and the rows of
the undo records, and no statement breaks it, whatever its outcome.
-/

namespace MoodengSQL

open Foundation Foundation.Effect Std

/-- A value is null, or has the runtime type of the column, unless the column is
a `VARCHAR`. -/
def ColumnDef.Admits (column : ColumnDef) (value : Value) : Prop :=
  value = .null ∨ (∃ length, column.dataType = .varchar length) ∨
    value.typeName = column.dataType.name

/-- One value of the right type for every column. -/
structure RowTyped (schema : TableSchema) (values : List Value) : Prop where
  arity : values.length = schema.columns.length
  typed : ∀ ⦃i : Nat⦄ ⦃column : ColumnDef⦄ ⦃value : Value⦄, schema.columns[i]? = some column →
    values[i]? = some value → column.Admits value

/-- A row conforms to its schema: it has one value of the right type for every
column, and a value other than null for every column that is `NOT NULL`. -/
structure RowConforms (schema : TableSchema) (values : List Value) : Prop
    extends RowTyped schema values where
  present : ∀ ⦃i : Nat⦄ ⦃column : ColumnDef⦄, schema.columns[i]? = some column →
    column.nullable = false → values[i]? ≠ some .null

section Values

variable [Runtime] {schema : TableSchema} {values : List Value}

/-- A coerced value is admitted by the column. -/
theorem admits_of_coerceTo {column : ColumnDef} {value coerced : Value}
    (ran : value.coerceTo column.dataType = .ok coerced) : column.Admits coerced := by
  unfold Value.coerceTo at ran
  split at ran
  · cases ran
    exact .inl rfl
  · split at ran
    case h_6 same _ => exact .inr (.inl ⟨_, same⟩)
    case h_7 =>
      split at ran
      · rename_i same
        cases ran
        exact .inr (.inr same)
      · cases ran
    all_goals
      rename_i same _
      cases ran
      exact .inr (.inr (by rw [same]; rfl))

theorem rowTyped_of_coerceRow {rowValues : List Value}
    (ran : coerceRow schema values = .ok rowValues) : RowTyped schema rowValues := by
  obtain ⟨length, steps⟩ := List.forall₂_iff_get.mp (except_mapM_eq_ok.mp ran)
  rw [List.length_zipIdx] at length
  refine ⟨length.symm, fun i column value declared stored => ?_⟩
  obtain ⟨inColumns, column?⟩ := List.getElem?_eq_some_iff.mp declared
  obtain ⟨inValues, value?⟩ := List.getElem?_eq_some_iff.mp stored
  have step := steps i (by rwa [List.length_zipIdx]) inValues
  simp only [List.get_eq_getElem, List.getElem_zipIdx, column?, value?] at step
  exact admits_of_coerceTo step

omit [Runtime] in
/-- The check for `NOT NULL` completes a typed row. -/
theorem RowTyped.conforms (typed : RowTyped schema values)
    (valid : validateRow schema values = .ok ()) : RowConforms schema values := by
  refine ⟨typed, fun i column declared required null => ?_⟩
  unfold validateRow at valid
  split at valid
  · cases valid
  · rename_i unviolated
    have passed := List.find?_eq_none.mp unviolated (column, i)
      (List.mk_mem_zipIdx_iff_getElem?.mpr declared)
    simp [required, List.getD_eq_getElem?_getD, null, Value.isNull] at passed

/-- Assignments keep a row typed. -/
theorem RowTyped.assignAll {excluded : Option (List Value)} {assignments : List Assignment}
    {assigned : List Value} (typed : RowTyped schema values)
    (ran : assignAll schema excluded assignments values = .ok assigned) :
    RowTyped schema assigned := by
  induction assignments generalizing values with
  | nil =>
      cases ran
      exact typed
  | cons assign rest ih =>
      simp only [MoodengSQL.assignAll, except_bind_eq_ok] at ran
      obtain ⟨⟨column, value⟩, -, ran⟩ := ran
      dsimp only at ran
      split at ran
      · exact ih typed ran
      · rename_i index found
        cases declared : schema.columns[index]? with
        | none =>
            rw [declared] at ran
            cases ran
        | some c =>
            simp only [declared, except_bind_eq_ok] at ran
            obtain ⟨coerced, coercion, ran⟩ := ran
            split at ran
            · rename_i inside
              refine ih ⟨List.length_set.trans typed.arity, fun i other stored known here => ?_⟩ ran
              rw [List.getElem?_set] at here
              split at here
              · subst_vars
                cases here
                rw [declared] at known
                cases known
                exact admits_of_coerceTo coercion
              · exact typed.typed known here
            · cases ran

end Values

/-- The catalog has a schema for the table to which the row conforms. -/
def Catalog.Accepts (catalog : Catalog) (table : String) (values : List Value) : Prop :=
  ∃ schema, catalog[table]? = some schema ∧ RowConforms schema values

/-- The row an undo record writes back. -/
def UndoRecord.Accepted (catalog : Catalog) : UndoRecord → Prop
  | .insert _ _ => True
  | .update table _ oldRow => catalog.Accepts table oldRow.values
  | .delete table _ oldRow => catalog.Accepts table oldRow.values

/-- A transaction the client has begun is open. -/
def Session.InExplicit (session : Session) : Prop :=
  session.transaction.active = true ∧ session.autoCommit = false

/-- Every stored row and every row of an undo record conforms to the schema of
its table. -/
structure Conforming (s : Executor) : Prop where
  rows : ∀ ⦃table : String⦄ ⦃rowId : Nat⦄ ⦃values : List Value⦄,
    s.storage.contents (table, rowId) = some values → s.catalog.Accepts table values
  undo : ∀ record ∈ s.session.transaction.undo, record.Accepted s.catalog
  explicit : s.session.transaction.undo ≠ [] → s.session.InExplicit

/-- If the first state has this catalog and conforms to it, so does the second. -/
def KeepsConforming (catalog : Catalog) (s s' : Executor) : Prop :=
  s.catalog = catalog → Conforming s → s'.catalog = catalog ∧ Conforming s'

instance (catalog : Catalog) : IsPreorder Executor (KeepsConforming catalog) where
  refl _ same conforming := ⟨same, conforming⟩
  trans _ _ _ first second same conforming :=
    second (first same conforming).1 (first same conforming).2

theorem Conforming.row {s : Executor} (conforming : Conforming s) {table : String}
    {schema : TableSchema} (known : s.catalog[table]? = some schema) {rowId : Nat} {row : Row}
    (stored : s.storage.view (table, rowId) = some row) : RowConforms schema row.values := by
  have values : s.storage.contents (table, rowId) = some row.values := by
    rw [StorageEngine.contents, stored]
    rfl
  obtain ⟨schema', known', conforms⟩ := conforming.rows values
  rw [known] at known'
  cases known'
  exact conforms

section Writes

variable {catalog : Catalog} {s : Executor}

theorem keepsConforming_reindex (s : Executor) (indexes : IndexManager)
    (_ : SameDefinitions s.indexes indexes) : KeepsConforming catalog s { s with indexes } :=
  fun same conforming => ⟨same, conforming.rows, conforming.undo, conforming.explicit⟩

/-- A change of the session that drops the undo records. -/
theorem keepsConforming_ended {session : Session} (ended : session.transaction.undo = [])
    (wal : WriteAheadLog) (activeWriteTxns : Nat) : KeepsConforming catalog s
      { s with storage := { s.storage with wal }, session, activeWriteTxns } := by
  rintro same conforming
  refine ⟨same, conforming.rows, fun record member => ?_, fun open' => absurd ended open'⟩
  rw [ended] at member
  cases member

theorem keepsConforming_explicit (s : Executor) : KeepsConforming catalog s
    { s with session := { s.session with autoCommit := false } } :=
  fun same conforming => ⟨same, conforming.rows, conforming.undo,
    fun pending => ⟨(conforming.explicit pending).1, rfl⟩⟩

theorem keepsConforming_counter (s : Executor) (activeWriteTxns : Nat) :
    KeepsConforming catalog s { s with activeWriteTxns } :=
  fun same conforming => ⟨same, conforming.rows, conforming.undo, conforming.explicit⟩

theorem keepsConforming_recordUndo {entry : UndoRecord} (accepted : entry.Accepted catalog) :
    Moves (KeepsConforming catalog) (recordUndo entry) := by
  refine Moves.write fun s => ?_
  rintro rfl conforming
  unfold Session.recordUndo
  split
  · rename_i explicit
    rw [Bool.and_eq_true, Bool.not_eq_true'] at explicit
    unfold Transaction.record
    rw [if_pos explicit.1]
    refine ⟨rfl, conforming.rows, fun record member => ?_, fun _ => explicit⟩
    rcases List.mem_append.mp member with earlier | last
    · exact conforming.undo record earlier
    · rw [List.mem_singleton.mp last]
      exact accepted
  · exact ⟨rfl, conforming⟩

/-- A change of storage that leaves no row behind but accepted ones. -/
theorem keepsConforming_storage {storage : StorageEngine} {key : RowKey}
    {row : Option (List Value)}
    (contents : storage.contents = Function.update s.storage.contents key row)
    (accepted : ∀ values, row = some values → catalog.Accepts key.1 values) :
    KeepsConforming catalog s { s with storage } := by
  rintro rfl conforming
  refine ⟨rfl, fun table rowId values stored => ?_, conforming.undo, conforming.explicit⟩
  change storage.contents (table, rowId) = some values at stored
  rw [contents, Function.update_apply] at stored
  split at stored
  · rename_i here
    subst here
    exact accepted values stored
  · exact conforming.rows stored

variable [Runtime]

theorem keepsConforming_insert {table : String} {rowValues : List Value}
    (accepted : catalog.Accepts table rowValues) (s : Executor) (txnId : Nat) :
    KeepsConforming catalog s
      { s with storage := (s.storage.insert table (Row.new rowValues) txnId).2 } := by
  obtain ⟨rowId, -, view⟩ := view_insert s.storage table (Row.new rowValues) txnId
  refine keepsConforming_storage (StorageEngine.contents_eq_update view) ?_
  rintro _ ⟨rfl⟩
  exact accepted

theorem keepsConforming_update {table : String} {rowId txnId version : Nat} {row : Row}
    {changed : Bool} {storage : StorageEngine} (accepted : catalog.Accepts table row.values)
    (ran : s.storage.update table rowId row txnId version = .ok (changed, storage)) :
    KeepsConforming catalog s { s with storage } := by
  obtain rfl | ⟨existing, -, -, view⟩ := update_cases ran
  · exact refl_of _ s
  · refine keepsConforming_storage (StorageEngine.contents_eq_update view) ?_
    rintro _ ⟨rfl⟩
    exact accepted

theorem keepsConforming_delete {table : String} {rowId txnId : Nat} {deleted : Bool}
    {storage : StorageEngine}
    (ran : s.storage.delete table rowId txnId = .ok (deleted, storage)) :
    KeepsConforming catalog s { s with storage } :=
  keepsConforming_storage (StorageEngine.contents_eq_update (delete_cases ran)) nofun

/-- Undoing writes back accepted rows. -/
theorem keepsConforming_applyUndo {record : UndoRecord} (accepted : record.Accepted catalog) :
    Moves (KeepsConforming catalog) (applyUndo record) := by
  have removes : ∀ table rowId, Moves (KeepsConforming catalog)
      (ExecM.liftStorage fun storage => storage.applyDelete table rowId false 0) := by
    refine fun table rowId => Moves.storage fun s deleted storage ran => ?_
    by_cases known : table ∈ s.storage.tables
    · obtain ⟨_, tables, applied, -, view⟩ := StorageEngine.applyDelete_spec known rowId 0
      cases applied.symm.trans ran
      exact keepsConforming_storage (StorageEngine.contents_with_tables view) nofun
    · rw [StorageEngine.applyDelete, ExtTreeMap.getElem?_eq_none known] at ran
      cases ran
  have rewrites : ∀ table rowId (row : Row), catalog.Accepts table row.values →
      Moves (KeepsConforming catalog)
        (ExecM.liftStorage fun storage => storage.applyUpdate table rowId row false 0) := by
    refine fun table rowId row accepted => Moves.storage fun s deleted storage ran => ?_
    refine keepsConforming_storage (StorageEngine.contents_applyUpdate ran) fun values stored => ?_
    obtain ⟨_, -, rfl⟩ := Option.map_eq_some_iff.mp stored
    exact accepted
  cases record with
  | insert table rowId =>
      refine .seq Moves.read fun s => ?_
      cases s.storage.get table rowId with
      | none => exact Moves.ret _
      | some row =>
          exact .seq (Moves.lift _) fun _ =>
            .seq (Moves.removeIndexRow keepsConforming_reindex _ _ _ _) fun _ =>
            .seq (removes _ _) fun _ => Moves.ret _
  | update table rowId oldRow =>
      refine .seq Moves.read fun s => .seq (Moves.lift _) fun schema => ?_
      cases s.storage.get table rowId with
      | some current =>
          exact .seq (Moves.removeIndexRow keepsConforming_reindex _ _ _ _) fun _ =>
            .seq (rewrites _ _ _ accepted) fun _ => Moves.insertIndexRow keepsConforming_reindex _ _ _ _
      | none =>
          exact .seq (rewrites _ _ _ accepted) fun _ =>
            Moves.insertIndexRow keepsConforming_reindex _ _ _ _
  | delete table rowId oldRow =>
      refine .seq Moves.read fun _ => .seq (Moves.lift _) fun _ => .seq (Moves.write fun s => ?_)
        fun _ => Moves.insertIndexRow keepsConforming_reindex _ _ _ _
      obtain ⟨tables, applied, -, view⟩ := s.storage.applyInsert_spec table rowId oldRow 0
      rw [applied]
      refine keepsConforming_storage (StorageEngine.contents_with_tables view) ?_
      rintro _ ⟨rfl⟩
      exact accepted

theorem keepsConforming_undoAll {records : List UndoRecord}
    (accepted : ∀ record ∈ records, record.Accepted catalog) :
    Moves (KeepsConforming catalog) (undoAll records) := by
  induction records with
  | nil => exact Moves.ret _
  | cons record rest ih =>
      refine .seq (keepsConforming_applyUndo (accepted record List.mem_cons_self)) fun _ => ?_
      exact ih fun later member => accepted later (List.mem_cons_of_mem _ member)

end Writes

section Loops

variable [Runtime] {catalog : Catalog} {table : String} {schema : TableSchema}
  (known : catalog[table]? = some schema)

omit [Runtime] in
/-- What a check returns, it returns on the given arguments. -/
theorem returns_lift {α : Type} (result : Except Failure α) :
    Returns (fun a => result = .ok a) (ExecM.lift result) :=
  fun _ _ _ ran => (ExecM.lift_eq_ok.mp ran).1

include known

/-- A rewritten row conforms when the row before did. -/
theorem keepsConforming_rewriteRow (assignments : List Assignment)
    (excluded : Option (List Value)) (txnId rowId : Nat) {row : Row}
    (conforms : RowConforms schema row.values) : Moves (KeepsConforming catalog)
      (rewriteRow table schema assignments excluded txnId rowId row) := by
  refine .seq (keepsConforming_recordUndo ⟨schema, known, conforms⟩) fun _ =>
    .seq (Moves.removeIndexRow keepsConforming_reindex _ _ _ _) fun _ => ?_
  refine Moves.seq_returns (Moves.lift _) (returns_lift _) fun values assigned => ?_
  refine Moves.seq_returns (Moves.lift _) (returns_lift _) fun _ valid => ?_
  have accepted : catalog.Accepts table values :=
    ⟨schema, known, (conforms.toRowTyped.assignAll assigned).conforms valid⟩
  refine .seq (Moves.storage fun s changed storage ran => ?_) fun _ =>
    Moves.insertIndexRow keepsConforming_reindex _ _ _ _
  exact @keepsConforming_update _ _ _ _ _ _ _ { row with values } _ _ accepted ran

theorem keepsConforming_updateRows (assignments : List Assignment) (whereClause : Option Expr)
    (txnId : Nat) {rows : List (Nat × Row)}
    (conform : ∀ entry ∈ rows, RowConforms schema entry.2.values) (count : Nat) :
    Moves (KeepsConforming catalog)
      (updateRows table schema assignments whereClause txnId rows count) := by
  induction rows generalizing count with
  | nil => exact Moves.ret count
  | cons entry rest ih =>
      obtain ⟨rowId, row⟩ := entry
      have later := ih fun other member => conform other (List.mem_cons_of_mem _ member)
      refine .seq (Moves.lift _) fun selected => ?_
      split
      · exact .seq (keepsConforming_rewriteRow known _ _ _ _ (conform _ List.mem_cons_self))
          fun _ => later _
      · exact later _

theorem keepsConforming_applyConflictUpdate (rowId : Nat) (proposed : List Value)
    (update : DoUpdate) (txnId : Nat) : Moves (KeepsConforming catalog)
      (applyConflictUpdate table schema rowId proposed update txnId) := by
  -- the row in conflict conforms because it is stored
  intro s same conforming
  unfold applyConflictUpdate
  rw [finalState_bind_of_ok (get_eq_ok.mpr ⟨rfl, rfl⟩)]
  cases stored : s.storage.get table rowId with
  | none => exact ⟨same, conforming⟩
  | some existing =>
      have conforms : RowConforms schema existing.values := by
        exact conforming.row (same ▸ known) stored
      have rewritten : ∀ applies : Bool, Moves (KeepsConforming catalog) (if applies then
          rewriteRow table schema update.assignments (some proposed) txnId rowId existing
          else pure () : ExecM Unit) := by
        intro applies
        cases applies with
        | true => exact keepsConforming_rewriteRow known _ _ _ _ conforms
        | false => exact Moves.ret ()
      cases update.selection with
      | none => exact Moves.seq (Moves.ret true) rewritten s same conforming
      | some condition => exact Moves.seq (Moves.lift _) rewritten s same conforming

theorem keepsConforming_storeRow (txnId : Nat) {rowValues : List Value}
    (conforms : RowConforms schema rowValues) :
    Moves (KeepsConforming catalog) (storeRow table schema txnId rowValues) := by
  refine .seq (Moves.storage fun s rowId storage inserted => ?_) fun rowId =>
    .seq (Moves.insertIndexRow keepsConforming_reindex _ _ _ _) fun _ =>
    keepsConforming_recordUndo trivial
  cases inserted
  exact keepsConforming_insert ⟨schema, known, conforms⟩ s txnId

theorem keepsConforming_insertRows (onConflict : Option OnConflict) (txnId : Nat)
    (rows : List (List Value)) (count : Nat) : Moves (KeepsConforming catalog)
      (insertRows table schema onConflict txnId rows count) := by
  induction rows generalizing count with
  | nil => exact Moves.ret count
  | cons values rest ih =>
      refine Moves.seq_returns (Moves.lift _) (returns_lift _) fun rowValues coerced => ?_
      refine Moves.seq_returns (Moves.lift _) (returns_lift _) fun _ valid => ?_
      have conforms := (rowTyped_of_coerceRow coerced).conforms valid
      cases onConflict with
      | none => exact .seq (keepsConforming_storeRow known txnId conforms) fun _ => ih _
      | some conflict =>
          refine .seq Moves.read fun s => .seq (Moves.lift _) fun existing => ?_
          cases existing with
          | none => exact .seq (keepsConforming_storeRow known txnId conforms) fun _ => ih _
          | some existingId =>
              dsimp only
              cases conflict.action with
              | doNothing => exact ih _
              | doUpdate update =>
                  exact .seq (keepsConforming_applyConflictUpdate known _ _ _ _) fun _ => ih _

theorem keepsConforming_deleteRows (whereClause : Option Expr) (txnId : Nat)
    {rows : List (Nat × Row)} (conform : ∀ entry ∈ rows, RowConforms schema entry.2.values)
    (count : Nat) : Moves (KeepsConforming catalog)
      (deleteRows table schema whereClause txnId rows count) := by
  induction rows generalizing count with
  | nil => exact Moves.ret count
  | cons entry rest ih =>
      obtain ⟨rowId, row⟩ := entry
      have later := ih fun other member => conform other (List.mem_cons_of_mem _ member)
      refine .seq (Moves.lift _) fun selected => ?_
      split
      · refine .seq (.seq (keepsConforming_recordUndo
            ⟨schema, known, conform _ List.mem_cons_self⟩) fun _ =>
          .seq (Moves.removeIndexRow keepsConforming_reindex _ _ _ _) fun _ => .seq ?_ fun _ =>
          Moves.ret ()) fun _ => later _
        exact Moves.storage fun s deleted storage ran => keepsConforming_delete ran
      · exact later _

end Loops

section Statements

variable [Runtime] {catalog : Catalog}

omit [Runtime] in
theorem keepsConforming_liftCommit : Moves (KeepsConforming catalog)
    (ExecM.liftTransaction fun txn wal => (txn.commit wal).map fun r => ((), r)) := by
  intro s
  cases running : s.session.transaction.txnId with
  | none =>
      simp only [finalState, ExecM.liftTransaction, Transaction.commit, running, Except.map]
      exact refl_of _ s
  | some txnId =>
      simp only [finalState, ExecM.liftTransaction, Transaction.commit, running, Except.map]
      exact keepsConforming_ended rfl _ _

omit [Runtime] in
theorem keepsConforming_begin : Moves (KeepsConforming catalog) begin := by
  intro s
  cases active : s.session.transaction.active with
  | true =>
      have refused : finalState begin s = s := by
        unfold begin
        rw [finalState_bind_of_ok (get_eq_ok.mpr ⟨rfl, rfl⟩), if_pos active]
        rfl
      rw [refused]
      exact refl_of _ s
  | false =>
      rw [finalState_of_ok (begin_eq_ok.mpr ⟨active, rfl, rfl⟩)]
      exact keepsConforming_ended rfl _ _

omit [Runtime] in
theorem keepsConforming_commit : Moves (KeepsConforming catalog) commit := by
  refine .seq Moves.read fun s => ?_
  have rest : Moves (KeepsConforming catalog) (do
      modify fun s => { s with session := { s.session with autoCommit := false } }
      ExecM.liftTransaction fun txn wal => (txn.commit wal).map fun r => ((), r)
      modify fun s => { s with activeWriteTxns := s.activeWriteTxns - 1 }
      return QueryResult.modified 0 "COMMIT" : ExecM QueryResult) :=
    .seq (Moves.write keepsConforming_explicit) fun _ => .seq keepsConforming_liftCommit fun _ =>
      .seq (Moves.write fun s => keepsConforming_counter s _) fun _ => Moves.ret _
  dsimp only
  split
  · exact .seq (Moves.fail _) fun _ => rest
  · exact rest

/-- `ROLLBACK` writes back the rows of its undo records. -/
theorem keepsConforming_rollback : Moves (KeepsConforming catalog) rollback := by
  intro s same conforming
  cases active : s.session.transaction.active with
  | false =>
      have refused : finalState rollback s = s := by
        unfold rollback
        rw [finalState_bind_of_ok (get_eq_ok.mpr ⟨rfl, rfl⟩), active]
        rfl
      rw [refused]
      exact ⟨same, conforming⟩
  | true =>
      cases running : s.session.transaction.txnId with
      | none =>
          have refused : finalState rollback s =
              { s with session := { s.session with autoCommit := false } } := by
            unfold rollback
            rw [finalState_bind_of_ok (get_eq_ok.mpr ⟨rfl, rfl⟩), active]
            simp only [Bool.not_true, Bool.false_eq_true, if_false]
            rw [finalState_modify_bind]
            simp only [finalState, bind, EStateM.bind, ExecM.liftTransaction,
              Transaction.rollback, running]
          rw [refused]
          exact keepsConforming_explicit s same conforming
      | some txnId =>
          have accepted : ∀ record ∈ s.session.transaction.undo.reverse,
              record.Accepted catalog := fun record member =>
            same ▸ conforming.undo record (List.mem_reverse.mp member)
          have undoes : Moves (KeepsConforming catalog) (do
              undoAll s.session.transaction.undo.reverse
              modify fun s => { s with activeWriteTxns := s.activeWriteTxns - 1 }
              return QueryResult.modified 0 "ROLLBACK" : ExecM QueryResult) :=
            .seq (keepsConforming_undoAll accepted) fun _ =>
              .seq (Moves.write fun s => keepsConforming_counter s _) fun _ => Moves.ret _
          have ended : KeepsConforming catalog s (s.aborted txnId) :=
            keepsConforming_ended rfl _ _
          rw [finalState, rollback_aborted active running, ← finalState]
          exact trans_of (KeepsConforming catalog) ended (undoes _) same conforming

omit [Runtime] in
theorem keepsConforming_beginWriteTxn : Moves (KeepsConforming catalog) beginWriteTxn := by
  intro s
  cases running : s.session.transaction.txnId with
  | some txnId =>
      have entered : finalState beginWriteTxn s = s := by
        unfold beginWriteTxn
        rw [finalState_bind_of_ok (get_eq_ok.mpr ⟨rfl, rfl⟩), running]
        rfl
      rw [entered]
      exact refl_of _ s
  | none =>
      unfold beginWriteTxn
      rw [finalState_bind_of_ok (get_eq_ok.mpr ⟨rfl, rfl⟩), running]
      cases active : s.session.transaction.active with
      | true =>
          simp only [finalState, bind, EStateM.bind, ExecM.liftTransaction, Transaction.begin, active,
            if_true, Except.map]
          exact refl_of _ s
      | false =>
          simp only [finalState, bind, EStateM.bind, ExecM.liftTransaction, Transaction.begin, active,
            Bool.false_eq_true, if_false, Except.map]
          exact keepsConforming_ended rfl _ _

omit [Runtime] in
/-- A write statement keeps the rows conforming when its row loop does. -/
theorem keepsConforming_write {loop : Nat → ExecM Nat} {result : Nat → QueryResult}
    (moves : ∀ txnId, Moves (KeepsConforming catalog) (loop txnId)) :
    Moves (KeepsConforming catalog) (do
      let txnId ← beginWriteTxn
      let count ← loop txnId
      finishAutoCommitIfNeeded
      return result count : ExecM QueryResult) := by
  have leaves : Moves (KeepsConforming catalog) finishAutoCommitIfNeeded := by
    refine .seq Moves.read fun s => ?_
    dsimp only
    split
    · refine .seq keepsConforming_liftCommit fun _ => Moves.write fun s => ?_
      exact trans_of (KeepsConforming catalog) (keepsConforming_explicit s)
        (keepsConforming_counter _ _)
    · exact Moves.ret _
  exact .seq keepsConforming_beginWriteTxn fun txnId => .seq (moves txnId) fun _ =>
    .seq leaves fun _ => Moves.ret _

omit [Runtime] in
/-- A statement on a known table. -/
theorem keepsConforming_onTable {table : String} {rest : Executor → TableSchema → ExecM QueryResult}
    (moves : ∀ s schema, s.catalog = catalog → Conforming s → catalog[table]? = some schema →
      Moves (KeepsConforming catalog) (rest s schema)) :
    Moves (KeepsConforming catalog) (do
      let s ← get
      let schema ← ExecM.lift (s.catalog.getTable table)
      rest s schema) := by
  intro s same conforming
  rw [finalState_bind_of_ok (get_eq_ok.mpr ⟨rfl, rfl⟩)]
  cases found : s.catalog.getTable table with
  | error e => exact ⟨same, conforming⟩
  | ok schema =>
      exact moves s schema same conforming (same ▸ getTable_eq_ok.mp found) s same conforming

/-- **A statement that is not DDL keeps the rows conforming**, whatever its
outcome. -/
theorem keepsConforming_statement {stmt : Statement} (notDdl : stmt.isDdl = false) :
    Moves (KeepsConforming catalog) (executeStatement stmt) := by
  cases stmt with
  | startTransaction => exact keepsConforming_begin
  | commit => exact keepsConforming_commit
  | rollback => exact keepsConforming_rollback
  | createTable name columns constraints => cases notDdl
  | drop objectType names => cases notDdl
  | insert stmt =>
      unfold executeStatement insert
      dsimp only
      cases stmt.source with
      | none => exact Moves.fail _
      | some source =>
          exact keepsConforming_onTable fun s schema _ _ known => .seq (Moves.lift _) fun _ =>
            .seq (Moves.lift _) fun _ => keepsConforming_write fun _ =>
            keepsConforming_insertRows known _ _ _ _
  | query query => exact .seq Moves.read fun _ => Moves.lift _
  | update table assignments selection =>
      exact keepsConforming_onTable fun s schema same conforming known =>
        keepsConforming_write fun _ => keepsConforming_updateRows known _ _ _
          (fun entry member => conforming.row (same ▸ known) (StorageEngine.mem_scan.mp member)) _
  | delete relations selection =>
      exact keepsConforming_onTable fun s schema same conforming known =>
        keepsConforming_write fun _ => keepsConforming_deleteRows known _ _
          (fun entry member => conforming.row (same ▸ known) (StorageEngine.mem_scan.mp member)) _
  | createIndex name tableName columns unique => cases notDdl
  | explain statement => exact .seq Moves.read fun _ => Moves.lift _
  | other display => exact Moves.fail _

end Statements

section Schema

variable {s s' : Executor}

/-- The rows and the session are the same, and rows that were accepted still are. -/
structure Widens (s s' : Executor) : Prop where
  contents : s'.storage.contents = s.storage.contents
  session : s'.session = s.session
  accepts : ∀ ⦃table : String⦄ ⦃values : List Value⦄, s.catalog.Accepts table values →
    s'.catalog.Accepts table values

theorem UndoRecord.Accepted.of_accepts {catalog catalog' : Catalog} {record : UndoRecord}
    (accepted : record.Accepted catalog)
    (accepts : ∀ ⦃table : String⦄ ⦃values : List Value⦄, catalog.Accepts table values →
      catalog'.Accepts table values) : record.Accepted catalog' := by
  cases record with
  | insert table rowId => trivial
  | update table rowId oldRow => exact accepts accepted
  | delete table rowId oldRow => exact accepts accepted

theorem Conforming.widens (conforming : Conforming s) (widens : Widens s s') : Conforming s' := by
  obtain ⟨contents, session, accepts⟩ := widens
  refine ⟨fun table rowId values stored => accepts (conforming.rows (contents ▸ stored)), ?_, ?_⟩
  · rw [session]
    exact fun record member => (conforming.undo record member).of_accepts accepts
  · rw [session]
    exact conforming.explicit

theorem accepts_createTable {catalog : Catalog} {table other : String} {columns : List ColumnDef}
    {values : List Value} (created : s.catalog.createTable table columns = .ok catalog)
    (accepted : s.catalog.Accepts other values) : catalog.Accepts other values := by
  obtain ⟨absent, rfl⟩ := createTable_eq_ok created
  obtain ⟨schema, known, conforms⟩ := accepted
  refine ⟨schema, ?_, conforms⟩
  rw [getElem?_insertTable, if_neg, known]
  rintro rfl
  rw [absent] at known
  cases known

theorem accepts_addIndex {catalog : Catalog} {table other : String} {index : IndexMeta}
    {values : List Value} (added : s.catalog.addIndex table index = .ok catalog)
    (accepted : s.catalog.Accepts other values) : catalog.Accepts other values := by
  obtain ⟨schema, found, -, rfl⟩ := addIndex_eq_ok added
  obtain ⟨schema', known, conforms⟩ := accepted
  by_cases here : other = table
  · subst here
    rw [found] at known
    cases known
    refine ⟨_, by rw [getElem?_insertTable, if_pos rfl], ?_⟩
    exact ⟨⟨conforms.arity, conforms.typed⟩, conforms.present⟩
  · exact ⟨schema', by rw [getElem?_insertTable, if_neg here, known], conforms⟩

theorem widens_addIndex {indexes : IndexManager} {table : String} {index : IndexMeta}
    {β : Type} {rest : Catalog → ExecM β}
    (ends : ∀ catalog,
      finalState (rest catalog) { s with indexes } = { s with indexes, catalog := catalog }) :
    Widens s (finalState (ExecM.lift (s.catalog.addIndex table index) >>= rest)
      { s with indexes }) := by
  cases added : s.catalog.addIndex table index with
  | error e => exact ⟨rfl, rfl, fun _ _ => id⟩
  | ok catalog =>
      rw [finalState_bind_of_ok (ExecM.lift_eq_ok.mpr ⟨rfl, rfl⟩), ends]
      exact ⟨rfl, rfl, fun _ _ => accepts_addIndex added⟩

theorem widens_createPrimaryKeyIndex (table : String) (columns : List ColumnDef) (s : Executor) :
    Widens s (finalState (createPrimaryKeyIndex table columns) s) := by
  unfold createPrimaryKeyIndex
  dsimp only
  split
  · exact ⟨rfl, rfl, fun _ _ => id⟩
  · rw [finalState_bind_of_ok (get_eq_ok.mpr ⟨rfl, rfl⟩)]
    cases created : s.indexes.createIndex table (.new (table ++ "_pkey")
        ((columns.filter ColumnDef.primaryKey).map ColumnDef.name) true) with
    | error e => exact ⟨rfl, rfl, fun _ _ => id⟩
    | ok indexes =>
        rw [finalState_bind_of_ok (ExecM.lift_eq_ok.mpr ⟨rfl, rfl⟩), finalState_modify_bind]
        exact widens_addIndex fun _ => rfl

theorem widens_createTable [Runtime] (name : ObjectName) (columns : List SqlColumnDef)
    (constraints : List TableConstraint) (s : Executor) :
    Widens s (finalState (createTable name columns constraints) s) := by
  unfold createTable
  cases columns.mapM sqlColumnToDef with
  | error e => exact ⟨rfl, rfl, fun _ _ => id⟩
  | ok colDefs =>
      rw [finalState_bind_of_ok (ExecM.lift_eq_ok.mpr ⟨rfl, rfl⟩),
        finalState_bind_of_ok (get_eq_ok.mpr ⟨rfl, rfl⟩)]
      cases created : s.catalog.createTable (extractTableName name)
        (markPrimaryKeys (extractPkFromConstraints constraints) colDefs) with
      | error e => exact ⟨rfl, rfl, fun _ _ => id⟩
      | ok catalog =>
          obtain ⟨contents, session, accepts⟩ := widens_createPrimaryKeyIndex
            (extractTableName name) (markPrimaryKeys (extractPkFromConstraints constraints) colDefs)
            { s with catalog, storage := s.storage.ensureTable (extractTableName name) }
          rw [finalState_bind_of_ok (ExecM.lift_eq_ok.mpr ⟨rfl, rfl⟩), finalState_modify_bind,
            finalState_bind_pure]
          exact ⟨contents.trans (contents_ensureTable _ _), session,
            fun _ _ accepted => accepts (accepts_createTable created accepted)⟩

theorem widens_createIndex (table indexName : String) (columns : List String) (unique : Bool)
    (s : Executor) : Widens s (finalState (createIndex table indexName columns unique) s) := by
  unfold createIndex
  rw [finalState_bind_of_ok (get_eq_ok.mpr ⟨rfl, rfl⟩)]
  cases s.catalog.getTable table with
  | error e => exact ⟨rfl, rfl, fun _ _ => id⟩
  | ok schema =>
      rw [finalState_bind_of_ok (ExecM.lift_eq_ok.mpr ⟨rfl, rfl⟩)]
      cases columns.find? fun column => (Catalog.columnIndex schema column).isNone with
      | some column => exact ⟨rfl, rfl, fun _ _ => id⟩
      | none =>
          cases buildIndex schema.colNames (.new indexName columns unique)
              (s.storage.scan table) with
          | error e => exact ⟨rfl, rfl, fun _ _ => id⟩
          | ok index =>
              rw [finalState_bind_of_ok (ExecM.lift_eq_ok.mpr ⟨rfl, rfl⟩)]
              cases s.indexes.createIndex table index with
              | error e => exact ⟨rfl, rfl, fun _ _ => id⟩
              | ok indexes =>
                  rw [finalState_bind_of_ok (ExecM.lift_eq_ok.mpr ⟨rfl, rfl⟩),
                    finalState_modify_bind]
                  exact widens_addIndex fun _ => rfl

/-- Outside a transaction of the client a table is dropped with its rows. -/
theorem Conforming.dropTable (conforming : Conforming s) (outside : ¬s.session.InExplicit)
    (table : String) : Conforming (finalState (dropTable table) s) := by
  have noUndo : s.session.transaction.undo = [] := by
    by_contra pending
    exact outside (conforming.explicit pending)
  unfold MoodengSQL.dropTable
  rw [finalState_bind_of_ok (get_eq_ok.mpr ⟨rfl, rfl⟩)]
  cases dropped : s.catalog.dropTable table with
  | error e => exact conforming
  | ok catalog =>
      obtain ⟨-, rfl⟩ := dropTable_eq_ok dropped
      refine ⟨fun other rowId values stored => ?_, fun record member => ?_, conforming.explicit⟩
      · change (s.storage.dropTable table).contents (other, rowId) = some values at stored
        rw [contents_dropTable] at stored
        dsimp only at stored
        split at stored
        · cases stored
        · rename_i kept
          obtain ⟨schema, known, conforms⟩ := conforming.rows stored
          exact ⟨schema, (getElem?_eraseTable s.catalog table other).trans (by rw [if_neg kept, known]),
            conforms⟩
      · change record ∈ s.session.transaction.undo at member
        rw [noUndo] at member
        cases member

end Schema

section Declarations

/-- The schema has the declared columns; those declared `NOT NULL` or named in a
table-level `PRIMARY KEY` are not nullable. -/
structure Declares [Runtime] (columns : List SqlColumnDef) (constraints : List TableConstraint)
    (schema : TableSchema) : Prop where
  arity : schema.columns.length = columns.length
  column : ∀ ⦃i : Nat⦄ ⦃declared : SqlColumnDef⦄ ⦃column : ColumnDef⦄,
    columns[i]? = some declared → schema.columns[i]? = some column →
      column.name = declared.name ∧ sqlTypeToDataType declared.dataType = .ok column.dataType ∧
      (ColumnOption.notNull ∈ declared.options ∨
        (∃ named ∈ extractPkFromConstraints constraints,
          eqIgnoreAsciiCase named declared.name = true) → column.nullable = false)

/-- Every schema of the catalog was declared by a `CREATE TABLE` of the run. -/
def Declared [Runtime] (stmts : List Statement) (catalog : Catalog) : Prop :=
  ∀ ⦃table : String⦄ ⦃schema : TableSchema⦄, catalog[table]? = some schema →
    ∃ name columns constraints, .createTable name columns constraints ∈ stmts ∧
      extractTableName name = table ∧ Declares columns constraints schema

variable [Runtime] {columns : List SqlColumnDef} {constraints : List TableConstraint}

theorem declares_markPrimaryKeys {colDefs : List ColumnDef}
    (read : columns.mapM sqlColumnToDef = .ok colDefs) (name : String) (indexes : List IndexMeta) :
    Declares columns constraints
      { name, columns := markPrimaryKeys (extractPkFromConstraints constraints) colDefs, indexes } := by
  obtain ⟨length, steps⟩ := List.forall₂_iff_get.mp (except_mapM_eq_ok.mp read)
  refine ⟨(List.length_map _).trans length.symm, fun i declared column given marked => ?_⟩
  simp only [markPrimaryKeys, List.getElem?_map, Option.map_eq_some_iff] at marked
  obtain ⟨plain, found, rfl⟩ := marked
  obtain ⟨inColumns, same⟩ := List.getElem?_eq_some_iff.mp given
  obtain ⟨inDefs, same'⟩ := List.getElem?_eq_some_iff.mp found
  have step := steps i inColumns inDefs
  simp only [List.get_eq_getElem, same, same', sqlColumnToDef, except_bind_eq_ok,
    Except.ok.injEq] at step
  obtain ⟨dataType, type, rfl⟩ := step
  split
  · exact ⟨rfl, type, fun _ => rfl⟩
  · rename_i unnamed
    refine ⟨rfl, type, ?_⟩
    rintro (required | ⟨named, member, sameName⟩)
    · simp [required]
    · exact absurd (List.any_eq_true.mpr ⟨named, member, sameName⟩) unnamed

/-- A schema that a statement defines is the one it declares, or has the columns
it had. -/
theorem schemaChange_define {s : Executor} {stmt : Statement} {schema : TableSchema}
    (named : ∀ ⦃table : String⦄ ⦃schema : TableSchema⦄, s.catalog[table]? = some schema →
      schema.name = table)
    (changes : schemaChange s stmt = some (.define schema)) :
    (∃ name columns constraints, stmt = .createTable name columns constraints ∧
      extractTableName name = schema.name ∧ Declares columns constraints schema) ∨
    ∃ before, s.catalog[schema.name]? = some before ∧ before.columns = schema.columns := by
  unfold schemaChange at changes
  split at changes
  · rename_i name columns constraints
    split at changes
    · cases changes
    · rename_i colDefs read
      dsimp only at changes
      split at changes
      · cases changes
      · cases changes
        exact .inl ⟨name, columns, constraints, rfl, rfl, declares_markPrimaryKeys read _ _⟩
  · split at changes
    · cases changes
    · cases changes
  · dsimp only at changes
    split at changes
    · cases changes
    · rename_i before found
      split at changes
      · cases changes
      · split at changes
        · cases changes
        · split at changes
          · cases changes
          · cases changes
            exact .inr ⟨before, by rw [named found, found], rfl⟩
  · cases changes

theorem Declared.statement {stmts : List Statement} {s : Executor} (declared : Declared stmts s.catalog)
    (defined : Defined s.catalog s.indexes) (stmt : Statement) :
    Declared (stmts ++ [stmt]) (finalState (executeStatement stmt) s).catalog := by
  have earlier : Declared (stmts ++ [stmt]) s.catalog := by
    intro table schema known
    obtain ⟨name, columns, constraints, member, named, declares⟩ := declared known
    exact ⟨name, columns, constraints, List.mem_append_left _ member, named, declares⟩
  rw [(performs_statement defined stmt).catalog]
  cases changes : schemaChange s stmt with
  | none => exact earlier
  | some change =>
      intro table schema known
      cases change with
      | drop dropped =>
          rw [Option.toList_some, List.foldl_cons, List.foldl_nil, SchemaChange.apply,
            getElem?_eraseTable] at known
          split at known
          · cases known
          · exact earlier known
      | define defined' =>
          rw [Option.toList_some, List.foldl_cons, List.foldl_nil, SchemaChange.apply,
            getElem?_insertTable] at known
          split at known
          · rename_i here
            cases known
            rcases schemaChange_define defined.named changes with
              ⟨name, columns, constraints, rfl, named, declares⟩ | ⟨before, found, same⟩
            · exact ⟨name, columns, constraints, List.mem_append_right _ List.mem_cons_self,
                named.trans here.symm, declares⟩
            · obtain ⟨name, columns, constraints, member, named, arity, column⟩ := earlier found
              rw [same] at arity column
              exact ⟨name, columns, constraints, member, named.trans here.symm, arity, column⟩
          · exact earlier known

end Declarations

section Runs

variable [Runtime]

instance (session : Session) : Decidable session.InExplicit :=
  inferInstanceAs (Decidable (_ ∧ _))

/-- The states the statements of one session lead to, with any outcomes, when
DDL runs outside the transactions the client begins. -/
inductive StatementRun : List Statement → Executor → Prop
  | nil : StatementRun [] .fresh
  | snoc {stmts : List Statement} {s : Executor} (run : StatementRun stmts s) (stmt : Statement)
      (outside : stmt.isDdl = true → ¬s.session.InExplicit) :
      StatementRun (stmts ++ [stmt]) (finalState (executeSession [stmt]) s)

/-- A call with a single statement runs it and may save the catalog. -/
theorem finalState_executeSession_single (stmt : Statement) (s : Executor) :
    ∃ metaFile, finalState (executeSession [stmt]) s =
      { finalState (executeStatement stmt) s with metaFile } := by
  unfold executeSession execute executeAll executeAll
  rw [if_neg (List.cons_ne_nil _ _)]
  cases ran : executeStatement stmt s with
  | error e mid =>
      refine ⟨mid.metaFile, ?_⟩
      rw [finalState_of_error ran]
      simp only [finalState, bind, EStateM.bind, ran]
  | ok result mid =>
      have executed : (executeStatement stmt >>= pure) s = .ok result mid :=
        bind_eq_ok.mpr ⟨_, _, ran, pure_eq_ok.mpr ⟨rfl, rfl⟩⟩
      rw [finalState_of_ok ran, finalState_bind_of_ok executed]
      cases result.metaChanged with
      | true => exact ⟨_, rfl⟩
      | false => exact ⟨mid.metaFile, rfl⟩

theorem Conforming.statement {s : Executor} (conforming : Conforming s) {stmt : Statement}
    (outside : stmt.isDdl = true → ¬s.session.InExplicit) :
    Conforming (finalState (executeStatement stmt) s) := by
  cases kind : stmt.isDdl with
  | false => exact (keepsConforming_statement kind s rfl conforming).2
  | true =>
      cases stmt with
      | createTable name columns constraints =>
          exact conforming.widens (widens_createTable name columns constraints s)
      | drop objectType names =>
          cases objectType with
          | table =>
              cases names with
              | nil => exact conforming
              | cons name rest => exact conforming.dropTable (outside rfl) _
          | other display => exact conforming
      | createIndex name tableName columns unique =>
          exact conforming.widens (widens_createIndex _ _ _ _ s)
      | _ => cases kind

/-- What every statement of a run keeps. -/
structure RunInvariant (stmts : List Statement) (s : Executor) : Prop where
  saveable : Saveable s
  conforming : Conforming s
  declared : Declared stmts s.catalog

theorem StatementRun.invariant {stmts : List Statement} {s : Executor}
    (run : StatementRun stmts s) : RunInvariant stmts s := by
  induction run with
  | nil =>
      refine ⟨Called.fresh.saveable, ⟨fun _ _ _ => ?_, nofun, fun pending => absurd rfl pending⟩, ?_⟩
      · simp [Executor.fresh, StorageEngine.contents, StorageEngine.view, StorageEngine.open,
          tablesView]
      · intro table schema known
        simp [Executor.fresh] at known
  | @snoc stmts s _ stmt outside ih =>
      obtain ⟨saveable, conforming, declared⟩ := ih
      have saved := keepsSaveable_rules.statement keepsSaveable_createTable
        keepsSaveable_dropTable keepsSaveable_createIndex stmt s saveable
      have conformed := conforming.statement outside
      obtain ⟨metaFile, same⟩ := finalState_executeSession_single stmt s
      rw [same]
      exact ⟨⟨saved.defined, saved.files⟩,
        ⟨conformed.rows, conformed.undo, conformed.explicit⟩,
        declared.statement saveable.defined stmt⟩

/-- **Stored rows conform to their schema.** In every state that the statements
of a session lead to from an empty database, whatever their outcomes, with no
DDL inside an explicit transaction, every stored row of a catalog table has one
value per column, of the column's runtime type or null, with no null in a column
that was declared `NOT NULL` or named in a table-level `PRIMARY KEY`. -/
theorem stored_rows_conform {stmts : List Statement} {s : Executor} (run : StatementRun stmts s)
    {table : String} {schema : TableSchema} (known : s.catalog[table]? = some schema) :
    (∀ rowId row, s.storage.get table rowId = some row → RowConforms schema row.values) ∧
      ∃ name columns constraints, .createTable name columns constraints ∈ stmts ∧
        extractTableName name = table ∧ Declares columns constraints schema :=
  ⟨fun _ _ stored => run.invariant.conforming.row known stored, run.invariant.declared known⟩

theorem StatementRun.call {stmts : List Statement} (run : StatementRun stmts (callAll stmts))
    (stmt : Statement) (outside : stmt.isDdl = true → ¬(callAll stmts).session.InExplicit) :
    StatementRun (stmts ++ [stmt]) (callAll (stmts ++ [stmt])) := by
  rw [callAll, List.foldl_append]
  exact run.snoc stmt outside

end Runs

/-- A table with a row, its key once more, which is refused, and an update. -/
theorem stored_rows_conform_filled :
    ∃ schema, (@callAll Runtime.reference [createT, insertT [1], insertT [1], updateT 2]).catalog["t"]? =
        some schema ∧
      (∀ rowId row, (@callAll Runtime.reference
          [createT, insertT [1], insertT [1], updateT 2]).storage.get "t" rowId = some row →
        RowConforms schema row.values) ∧
      ∃ name columns constraints, .createTable name columns constraints ∈
          [createT, insertT [1], insertT [1], updateT 2] ∧
        extractTableName name = "t" ∧ @Declares Runtime.reference columns constraints schema := by
  obtain ⟨schema, known⟩ : ∃ schema, (@callAll Runtime.reference
      [createT, insertT [1], insertT [1], updateT 2]).catalog["t"]? = some schema :=
    Option.isSome_iff_exists.mp (by decide +kernel)
  refine ⟨schema, known, @stored_rows_conform Runtime.reference _ _ ?_ "t" schema known⟩
  have created : @StatementRun Runtime.reference [createT] (@callAll Runtime.reference [createT]) :=
    @StatementRun.call Runtime.reference [] (@StatementRun.nil Runtime.reference) createT fun _ => nofun
  have inserted := @StatementRun.call Runtime.reference _ created (insertT [1]) nofun
  have refused := @StatementRun.call Runtime.reference _ inserted (insertT [1]) nofun
  exact @StatementRun.call Runtime.reference _ refused (updateT 2) nofun

end MoodengSQL
